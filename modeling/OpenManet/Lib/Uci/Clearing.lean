import OpenManet.Lib.Uci.Listed
import Mathlib.Data.List.Chain
import Mathlib.Data.List.Induction
/-!
# Deleting along a listing

A listing gives each section of a type its address, and a walk looks at one
address after the other and deletes what it finds there and does not want.
A named section is found wherever it stands. An anonymous one is addressed by
its place, and each deletion moves the sections behind it up by one: the walk
then looks at the section that stands one further on, and the one in between
it passes over.

What a walk looks at is followed with two fingers on the list as it was: the
one at the section whose address is next, the other at the first section
that has not been passed. What is left is what was passed over unseen.
-/

namespace OpenManet

namespace Uci

open Fallible

namespace Config

variable {c c' : Config} {ref type : String} {s x y : Section} {i : ℕ}
  {doomed : Section → Bool} {l steps pre rest : List Section}

/-! ## Places -/

/-- Among their own type, sections stand at the places 0, 1, 2 and so on. -/
theorem filter_places (type : String) (seen : List String) (l : List Section) :
    (places seen l).filter (fun e => e.2.type = type) =
      ((l.filter fun s => s.type = type).zipIdx (seen.count type)).map Prod.swap := by
  induction l generalizing seen with
  | nil => rfl
  | cons s l ih =>
      rw [places, List.filter_cons, List.filter_cons, ih]
      by_cases hs : s.type = type
      · simp [hs]
      · simp [hs]

theorem filter_entries (c : Config) (type : String) :
    c.entries.filter (fun e => e.2.type = type) = (c.ofType type).zipIdx.map Prod.swap :=
  filter_places type [] c.sections

/-- The addresses of sections that stand from some place on. -/
def addresses (i : ℕ) (l : List Section) : List String := (l.zipIdx i).map fun x => ownRef x.swap

@[simp] theorem addresses_nil (i : ℕ) : addresses i [] = [] := rfl

@[simp] theorem addresses_cons (i : ℕ) (s : Section) (l : List Section) :
    addresses i (s :: l) = ownRef (i, s) :: addresses (i + 1) l := rfl

theorem addresses_append (i : ℕ) (l l' : List Section) :
    addresses i (l ++ l') = addresses i l ++ addresses (i + l.length) l' := by
  rw [addresses, List.zipIdx_append, List.map_append]
  rfl

theorem refs_eq_addresses (c : Config) (type : String) :
    c.refs type = addresses 0 (c.ofType type) := by
  rw [refs, filter_entries, List.map_map]
  rfl

theorem mem_ofType : s ∈ c.ofType type ↔ s ∈ c.sections ∧ s.type = type := by
  simp [ofType]

/-- The section between two runs of its type has the place of its number. -/
theorem mem_entries_of_split (h : c.ofType type = pre ++ x :: rest) :
    (pre.length, x) ∈ c.entries := by
  have hmem : (pre.length, x) ∈ c.entries.filter fun e => e.2.type = type := by
    rw [filter_entries, h, List.zipIdx_append]
    simp
  exact List.mem_of_mem_filter hmem

/-- **An address by place names the section that stands there.** -/
theorem find_anonRef (htype : '[' ∉ type.toList) (i : ℕ) :
    c.find (anonRef type i) = (c.ofType type)[i]? := by
  have hplace : ∀ e ∈ c.entries, answers (anonRef type i) e = true ↔ e.2.type = type ∧ e.1 = i := by
    intro e he
    have hname : e.2.name ≠ anonRef type i := (c.plain _ (mem_of_entries he)).ne_anonRef type i
    simp only [answers, hname, decide_false, Bool.false_or, decide_eq_true_iff]
    constructor
    · intro heq
      obtain ⟨htypes, hidx⟩ := anonRef_injective htype (c.ident _ (mem_of_entries he)) heq
      exact ⟨htypes.symm, hidx.symm⟩
    · rintro ⟨rfl, rfl⟩
      rfl
  cases hget : (c.ofType type)[i]? with
  | none =>
      rw [find, Option.map_eq_none_iff, List.find?_eq_none]
      intro e he hans
      obtain ⟨htypes, rfl⟩ := (hplace e he).1 hans
      have hmem : e ∈ c.entries.filter fun e => e.2.type = type := by
        simpa [he] using htypes
      rw [filter_entries, List.mem_map] at hmem
      obtain ⟨⟨s, j⟩, hs, rfl⟩ := hmem
      rw [List.mem_zipIdx_iff_getElem?] at hs
      rw [show (Prod.swap (s, j)).1 = j from rfl] at hget
      rw [hget] at hs
      cases hs
  | some s =>
      have hsplit : c.ofType type =
          (c.ofType type).take i ++ s :: (c.ofType type).drop (i + 1) := by
        obtain ⟨hlt, hs⟩ := List.getElem?_eq_some_iff.1 hget
        rw [← hs, List.getElem_cons_drop hlt, List.take_append_drop]
      have hmem := mem_entries_of_split hsplit
      have hlength : ((c.ofType type).take i).length = i := by
        obtain ⟨hlt, -⟩ := List.getElem?_eq_some_iff.1 hget
        rw [List.length_take]
        omega
      rw [hlength] at hmem
      have hsection : s.type = type := (mem_ofType.1 (List.mem_of_getElem? hget)).2
      have hans : answers (anonRef type i) (i, s) = true := (hplace _ hmem).2 ⟨hsection, rfl⟩
      obtain ⟨e, he⟩ := Option.isSome_iff_exists.1
        (List.find?_isSome.2 ⟨(i, s), hmem, hans⟩)
      have hne : anonRef type i ≠ "" := fun h => by simpa [anonRef] using congrArg String.toList h
      have hsame : e = (i, s) := eq_of_answers_answers hne (List.mem_of_find?_eq_some he) hmem
        (List.find?_some he) hans
      rw [find, he, hsame]
      rfl

/-! ## What a deletion leaves of a type -/

theorem ofType_erase (c : Config) (ref type : String) :
    (c.erase ref).ofType type =
      ((c.entries.filter fun e => e.2.type = type).filter fun e => ownRef e ≠ ref).map Prod.snd := by
  rw [ofType, erase, List.filter_map, List.filter_comm]
  rfl

/-- **The section at an address is deleted, and the others stay.** -/
theorem ofType_erase_of_split (h : c.ofType type = pre ++ x :: rest) :
    (c.erase (ownRef (pre.length, x))).ofType type = pre ++ rest := by
  have hnodup := c.refs_nodup type
  rw [refs_eq_addresses, h, addresses_append, addresses_cons, Nat.zero_add, List.nodup_middle,
    List.nodup_cons, List.mem_append, not_or] at hnodup
  have hkeep : ∀ (i : ℕ) (l : List Section), ownRef (pre.length, x) ∉ addresses i l →
      (((l.zipIdx i).map Prod.swap).filter fun e => ownRef e ≠ ownRef (pre.length, x)).map
        Prod.snd = l := by
    intro i l hout
    rw [List.filter_eq_self.2]
    · rw [List.map_map]
      exact List.zipIdx_map_fst i l
    · intro e he
      rw [decide_eq_true_iff]
      intro heq
      obtain ⟨x', hx', rfl⟩ := List.mem_map.1 he
      exact hout (heq ▸ List.mem_map_of_mem hx')
  have hpre := hkeep 0 pre hnodup.1.1
  have hrest := hkeep (pre.length + 1) rest hnodup.1.2
  rw [ofType_erase, filter_entries, h, List.zipIdx_append, List.map_append, List.filter_append,
    List.map_append, List.zipIdx_cons, List.map_cons, Nat.zero_add,
    List.filter_cons_of_neg (by simp), hpre, hrest]

/-- A place where a named section stands is the address of no section. -/
theorem ofType_erase_anonRef_of_named (htype : '[' ∉ type.toList)
    (h : c.ofType type = pre ++ x :: rest) (hname : x.name ≠ "") :
    (c.erase (anonRef type pre.length)).ofType type = c.ofType type := by
  rw [ofType_erase, List.filter_eq_self.2]
  · exact (ofType_eq c type).symm
  · intro e he
    rw [decide_eq_true_iff]
    intro heq
    have hmem := List.mem_of_mem_filter he
    by_cases hown : e.2.name = ""
    · rw [ownRef_of_anonymous hown] at heq
      obtain ⟨htypes, hidx⟩ := anonRef_injective (c.ident _ (mem_of_entries hmem)) htype heq
      have hfind := find_ownRef hmem
      rw [ownRef_of_anonymous hown, heq, find_anonRef htype, h,
        List.getElem?_append_right (le_refl _), Nat.sub_self, List.getElem?_cons_zero,
        Option.some.injEq] at hfind
      rw [hfind] at hname
      exact hname hown
    · rw [ownRef_of_named hown] at heq
      exact (c.plain _ (mem_of_entries hmem)).ne_anonRef _ _ heq

theorem find_name (hs : s ∈ c.ofType type) (hname : s.name ≠ "") : c.find s.name = some s :=
  have hmem := (mem_ofType.1 hs).1
  (find_eq_some_iff (c.plain s hmem) hname).2 ⟨hmem, rfl⟩

theorem ofType_distinct (c : Config) (type : String) :
    (c.ofType type).Pairwise fun s t => s.name = t.name → s.name = "" := c.distinct.filter _

/-- A named section is deleted, and it was there once. -/
theorem ofType_erase_name (hs : s ∈ c.ofType type) (hname : s.name ≠ "") :
    (c.erase s.name).ofType type = (c.ofType type).erase s ∧ s ∉ (c.ofType type).erase s := by
  obtain ⟨pre, rest, hsplit⟩ := List.append_of_mem hs
  have hdistinct := c.ofType_distinct type
  rw [hsplit, List.pairwise_append, List.pairwise_cons] at hdistinct
  have hpre : s ∉ pre := fun hin => hname (hdistinct.2.2 s hin s List.mem_cons_self rfl)
  have hrest : s ∉ rest := fun hin => hname (hdistinct.2.1.1 s hin rfl)
  have herase : (c.ofType type).erase s = pre ++ rest := by
    rw [hsplit, List.erase_append_right _ hpre, List.erase_cons_head]
  have hgone := ofType_erase_of_split hsplit
  rw [ownRef_of_named hname] at hgone
  rw [herase]
  exact ⟨hgone, fun hin => (List.mem_append.1 hin).elim hpre hrest⟩

/-! ## Two fingers -/

/-- A section that is to go and has no name to be found by. -/
def Unnamed (doomed : Section → Bool) (s : Section) : Prop := s.name = "" ∧ doomed s = true

instance (doomed : Section → Bool) (s : Section) : Decidable (Unnamed doomed s) :=
  inferInstanceAs (Decidable (_ ∧ _))

/-- The walk comes to the address of a section: what it then passes over
unseen, and what is still ahead. At the address of an anonymous section it
looks at the first section ahead; after a deletion the next one has moved
out of its way. -/
def pass (doomed : Section → Bool) (s : Section) (ahead : List Section) :
    List Section × List Section :=
  if s.name = "" then
    match ahead with
    | [] => ([], [])
    | x :: ahead => if Unnamed doomed x then (ahead.take 1, ahead.drop 1) else ([], ahead)
  else if doomed s then (ahead.take 2, ahead.drop 2)
  else (ahead.take 1, ahead.drop 1)

/-- **No anonymous section that is to go is passed over unseen.** -/
def AllSeen (doomed : Section → Bool) : List Section → List Section → Prop
  | [], _ => True
  | s :: steps, ahead => (∀ x ∈ (pass doomed s ahead).1, ¬ Unnamed doomed x) ∧
      AllSeen doomed steps (pass doomed s ahead).2

instance AllSeen.decidable (doomed : Section → Bool) :
    ∀ steps ahead, Decidable (AllSeen doomed steps ahead)
  | [], _ => isTrue trivial
  | s :: steps, ahead =>
      letI := AllSeen.decidable doomed steps (pass doomed s ahead).2
      inferInstanceAs (Decidable (_ ∧ _))

/-- The test of a walk: the section an address names is to go. -/
def selects (doomed : Section → Bool) (c : Config) (ref : String) : Bool := (c.find ref).any doomed

/-- A section behind is no longer looked at, unless it has a name that is
still to come. -/
def Settled (doomed : Section → Bool) (steps : List Section) (s : Section) : Prop :=
  doomed s = true → s.name ≠ "" ∧ s ∈ steps

theorem settled_iff_of_ahead (hs : doomed x = true → x ∈ steps) :
    Settled doomed steps x ↔ ¬ Unnamed doomed x := by
  unfold Settled Unnamed
  cases hdoomed : doomed x with
  | false => simp
  | true => simp [hs hdoomed]

theorem settled_iff_of_behind (hother : x = s → x.name = "" ∨ doomed x = false) :
    Settled doomed (s :: steps) x ↔ Settled doomed steps x := by
  unfold Settled
  refine imp_congr_right fun hdoomed => and_congr_right fun hname => ?_
  rw [List.mem_cons, or_iff_right]
  intro heq
  rcases hother heq with hnone | hkept
  · exact hname hnone
  · rw [hkept] at hdoomed
    cases hdoomed

/-- **Where a walk stands**: the sections behind it, those ahead, and the
sections whose addresses are still to come. -/
structure Along (type : String) (c : Config) (i : ℕ) (steps behind ahead : List Section) :
    Prop where
  split : c.ofType type = behind ++ ahead
  /-- So many sections are behind as addresses, or none is ahead. -/
  place : behind.length = i ∨ ahead = [] ∧ behind.length ≤ i
  /-- What is ahead is still to come, and what is to come and not ahead is
  behind if it has a name. -/
  later : ∃ k, ahead = steps.drop k ∧ ∀ s ∈ steps.take k, s.name ≠ "" → s ∈ behind
  kind : ∀ s ∈ steps, s.type = type
  once : steps.Pairwise fun s t => s.name = t.name → s.name = ""

section Along

variable {behind ahead behind' : List Section}

/-- What is ahead is still to come. -/
theorem Along.mem (h : Along type c i steps behind ahead) (hx : x ∈ ahead) : x ∈ steps := by
  obtain ⟨k, rfl, -⟩ := h.later
  exact List.mem_of_mem_drop hx

/-- And what is further ahead comes later. -/
theorem Along.mem_tail (h : Along type c i (s :: steps) behind (y :: ahead)) (hx : x ∈ ahead) :
    x ∈ steps := by
  obtain ⟨k, hk, -⟩ := h.later
  have htail : ahead = steps.drop k := by
    rw [show ahead = (y :: ahead).tail from rfl, hk, List.tail_drop, List.drop_succ_cons]
  rw [htail] at hx
  exact List.mem_of_mem_drop hx

/-- The walk goes on, past some of what was ahead. -/
theorem Along.next (h : Along type c i (s :: steps) behind ahead) {j : ℕ} (hj : 0 < j)
    (hsplit : c'.ofType type = behind' ++ ahead.drop j)
    (hlength : behind'.length + j = behind.length + (ahead.take j).length + 1)
    (hstay : ∀ x ∈ behind ++ ahead.take j, x.name ≠ "" → x ∈ steps → x ∈ behind') :
    Along type c' (i + 1) steps behind' (ahead.drop j) := by
  refine ⟨hsplit, ?_, ?_, fun x hx => h.kind x (List.mem_cons_of_mem s hx),
    (List.pairwise_cons.1 h.once).2⟩
  · rw [List.drop_eq_nil_iff]
    rw [List.length_take] at hlength
    rcases h.place with hplace | ⟨rfl, hplace⟩
    · omega
    · simp only [List.length_nil] at hlength ⊢
      omega
  · obtain ⟨k, hk, hbehind⟩ := h.later
    obtain ⟨m, hm⟩ : ∃ m, k + j = m + 1 := ⟨k + j - 1, by omega⟩
    refine ⟨m, ?_, fun x hx hname => ?_⟩
    · rw [hk, List.drop_drop, hm, List.drop_succ_cons]
    · have hsteps := List.mem_of_mem_take hx
      refine hstay x (List.mem_append.2 ?_) hname hsteps
      have htake : x ∈ (s :: steps).take (k + j) := by
        rw [hm, List.take_succ_cons]
        exact List.mem_cons_of_mem s hx
      rw [List.take_add, ← hk, List.mem_append] at htake
      exact htake.imp_left fun hin => hbehind x hin hname

/-- Behind, a section is as settled as before the walk came to another. -/
theorem forall_settled_behind (hother : ∀ x ∈ behind, x = s → x.name = "" ∨ doomed x = false) :
    (∀ x ∈ behind, Settled doomed (s :: steps) x) ↔ ∀ x ∈ behind, Settled doomed steps x :=
  forall₂_congr fun x hx => settled_iff_of_behind (hother x hx)

/-- **At the address of an anonymous section** the walk looks at the first
section ahead. -/
theorem Along.step_anonymous (h : Along type c i (s :: steps) behind ahead)
    (htype : '[' ∉ type.toList) (hs : s.name = "") :
    ∃ behind', Along type
        (if selects doomed c (ownRef (i, s)) then c.erase (ownRef (i, s)) else c) (i + 1) steps
        behind' (pass doomed s ahead).2 ∧
      ((∀ x ∈ behind', Settled doomed steps x) ↔ (∀ x ∈ behind, Settled doomed (s :: steps) x) ∧
        ∀ x ∈ (pass doomed s ahead).1, ¬ Unnamed doomed x) := by
  have hkind : s.type = type := h.kind s List.mem_cons_self
  have href : ownRef (i, s) = anonRef type i := by rw [ownRef_of_anonymous hs, hkind]
  have hbehind : (∀ x ∈ behind, Settled doomed (s :: steps) x) ↔
      ∀ x ∈ behind, Settled doomed steps x :=
    forall_settled_behind fun x _ heq => .inl (heq ▸ hs)
  rw [href, hbehind]
  unfold pass
  rw [if_pos hs]
  cases ahead with
  | nil =>
      have hfind : c.find (anonRef type i) = none := by
        have hle : behind.length ≤ i := by
          rcases h.place with hplace | ⟨-, hplace⟩ <;> omega
        rw [find_anonRef htype, h.split, List.append_nil, List.getElem?_eq_none hle]
      have hkeep : selects doomed c (anonRef type i) = false := by
        rw [selects, hfind]
        rfl
      rw [hkeep]
      refine ⟨behind, h.next (j := 1) (by omega) h.split rfl fun x hx _ _ => ?_, by simp⟩
      simpa using hx
  | cons x ahead =>
      have hplace : behind.length = i := h.place.resolve_right (by simp)
      have hfind : c.find (anonRef type i) = some x := by
        rw [find_anonRef htype, h.split, List.getElem?_append_right (by omega), hplace,
          Nat.sub_self, List.getElem?_cons_zero]
      have hselects : selects doomed c (anonRef type i) = doomed x := by
        rw [selects, hfind]
        rfl
      have hxkind : x.type = type := (mem_ofType.1 (by rw [h.split]; simp)).2
      rw [hselects]
      by_cases hx : Unnamed doomed x
      · -- the section is deleted, and the next one moves to its place
        have hown : anonRef type i = ownRef (behind.length, x) := by
          rw [ownRef_of_anonymous hx.1, hxkind, hplace]
        have hgone : (c.erase (anonRef type i)).ofType type =
            (behind ++ ahead.take 1) ++ ahead.drop 1 := by
          rw [hown, ofType_erase_of_split h.split, List.append_assoc, List.take_append_drop]
        dsimp only
        rw [if_pos hx, if_pos hx.2]
        refine ⟨behind ++ ahead.take 1, h.next (j := 2) (by omega) hgone ?_ ?_, ?_⟩
        · rw [List.take_succ_cons, List.length_append, List.length_cons]
          omega
        · intro y hy hname _
          rw [List.take_succ_cons, List.mem_append, List.mem_cons] at hy
          rw [List.mem_append]
          refine hy.imp_right fun hy => hy.resolve_left ?_
          rintro rfl
          exact hname hx.1
        · rw [List.forall_mem_append]
          refine and_congr_right fun _ => forall₂_congr fun y hy => ?_
          exact settled_iff_of_ahead fun _ => h.mem_tail (List.mem_of_mem_take hy)
      · -- a named section is not deleted at a place
        have hsame : (if doomed x then c.erase (anonRef type i) else c).ofType type =
            (behind ++ [x]) ++ ahead := by
          have hsplit : c.ofType type = (behind ++ [x]) ++ ahead := by simp [h.split]
          split
          · next hdoomed =>
            have hname : x.name ≠ "" := fun hname => hx ⟨hname, hdoomed⟩
            rw [← hplace, ofType_erase_anonRef_of_named htype h.split hname, hsplit]
          · exact hsplit
        dsimp only
        rw [if_neg hx]
        refine ⟨behind ++ [x], h.next (j := 1) (by omega) hsame ?_ fun y hy _ _ => hy, ?_⟩
        · simp
        · have hsettled : Settled doomed steps x := by
            refine (settled_iff_of_ahead fun hdoomed => ?_).2 hx
            refine (List.mem_cons.1 (h.mem List.mem_cons_self)).resolve_left ?_
            rintro rfl
            exact hx ⟨hs, hdoomed⟩
          rw [List.forall_mem_append, List.forall_mem_singleton]
          simp [hsettled]

/-- **At the address of a named section** the walk finds it wherever it
stands. -/
theorem Along.step_named (h : Along type c i (s :: steps) behind ahead) (hs : s.name ≠ "") :
    ∃ behind', Along type
        (if selects doomed c (ownRef (i, s)) then c.erase (ownRef (i, s)) else c) (i + 1) steps
        behind' (pass doomed s ahead).2 ∧
      ((∀ x ∈ behind', Settled doomed steps x) ↔ (∀ x ∈ behind, Settled doomed (s :: steps) x) ∧
        ∀ x ∈ (pass doomed s ahead).1, ¬ Unnamed doomed x) := by
  have hin : s ∈ behind ++ ahead.take 2 := by
    obtain ⟨k, hk, hbehind⟩ := h.later
    cases k with
    | zero => simp [hk]
    | succ k => exact List.mem_append_left _ (hbehind s (by simp) hs)
  have hlisted : s ∈ c.ofType type := by
    rw [h.split, ← List.take_append_drop 2 ahead, ← List.append_assoc]
    exact List.mem_append_left _ hin
  have hother : s ∉ steps := fun hmem => hs ((List.pairwise_cons.1 h.once).1 s hmem rfl)
  have hselects : selects doomed c (ownRef (i, s)) = doomed s := by
    rw [selects, ownRef_of_named hs, find_name hlisted hs]
    rfl
  have htail : ∀ x ∈ ahead, x ≠ s → x ∈ steps := fun x hx hne =>
    (List.mem_cons.1 (h.mem hx)).resolve_left hne
  rw [hselects, ownRef_of_named hs, pass.eq_def, if_neg hs]
  cases hdoomed : doomed s with
  | false =>
      refine ⟨behind ++ ahead.take 1, h.next (j := 1) (by omega) ?_ ?_ fun x hx _ _ => hx, ?_⟩
      · rw [if_neg (by simp), List.append_assoc, List.take_append_drop]
        exact h.split
      · rw [List.length_append]
      · rw [List.forall_mem_append, forall_settled_behind fun x _ heq => .inr (heq ▸ hdoomed)]
        refine and_congr_right fun _ => forall₂_congr fun x hx => settled_iff_of_ahead fun hx' => ?_
        refine htail x (List.mem_of_mem_take hx) ?_
        rintro rfl
        rw [hdoomed] at hx'
        cases hx'
  | true =>
      obtain ⟨herase, hgone⟩ := ofType_erase_name hlisted hs
      have hsplit : (c.ofType type).erase s = (behind ++ ahead.take 2).erase s ++ ahead.drop 2 := by
        rw [h.split, ← List.erase_append_left _ hin, List.append_assoc, List.take_append_drop]
      rw [hsplit, List.mem_append, not_or] at hgone
      refine ⟨(behind ++ ahead.take 2).erase s, h.next (j := 2) (by omega) ?_ ?_ ?_, ?_⟩
      · rw [if_pos rfl, herase, hsplit]
      · have hpos := List.length_pos_of_mem hin
        rw [List.length_erase_of_mem hin]
        rw [List.length_append] at hpos ⊢
        omega
      · intro x hx _ hsteps
        refine (List.mem_erase_of_ne ?_).2 hx
        rintro rfl
        exact hother hsteps
      · constructor
        · intro hall
          refine ⟨fun x hx => ?_, fun x hx => ?_⟩
          · by_cases heq : x = s
            · rw [heq]
              exact fun _ => ⟨hs, List.mem_cons_self⟩
            · exact (settled_iff_of_behind fun hsame => absurd hsame heq).2
                (hall x ((List.mem_erase_of_ne heq).2 (List.mem_append_left _ hx)))
          · by_cases heq : x = s
            · exact fun hno => hs (heq ▸ hno.1)
            · exact (settled_iff_of_ahead fun _ => htail x (List.mem_of_mem_take hx) heq).1
                (hall x ((List.mem_erase_of_ne heq).2 (List.mem_append_right _ hx)))
        · rintro ⟨hbehind, hahead⟩ x hx
          have heq : x ≠ s := by
            rintro rfl
            exact hgone.1 hx
          rcases List.mem_append.1 (List.mem_of_mem_erase hx) with hx | hx
          · exact (settled_iff_of_behind fun hsame => absurd hsame heq).1 (hbehind x hx)
          · exact (settled_iff_of_ahead fun _ => htail x (List.mem_of_mem_take hx) heq).2
              (hahead x hx)

/-- **What a walk leaves of the sections that are to go** is what it did not
see. -/
theorem Along.run (h : Along type c i steps behind ahead) (htype : '[' ∉ type.toList) :
    (∀ x ∈ (walk (selects doomed) (addresses i steps) c).ofType type, doomed x = false) ↔
      (∀ x ∈ behind, Settled doomed steps x) ∧ AllSeen doomed steps ahead := by
  induction steps generalizing c i behind ahead with
  | nil =>
      obtain ⟨k, hk, -⟩ := h.later
      rw [addresses_nil, walk, h.split, hk, List.drop_nil, List.append_nil]
      simp [Settled, AllSeen]
  | cons s steps ih =>
      obtain ⟨behind', hnext, hsettled⟩ :
          ∃ behind', Along type
              (if selects doomed c (ownRef (i, s)) then c.erase (ownRef (i, s)) else c) (i + 1)
              steps behind' (pass doomed s ahead).2 ∧
            ((∀ x ∈ behind', Settled doomed steps x) ↔
              (∀ x ∈ behind, Settled doomed (s :: steps) x) ∧
                ∀ x ∈ (pass doomed s ahead).1, ¬ Unnamed doomed x) := by
        by_cases hs : s.name = ""
        · exact h.step_anonymous htype hs
        · exact h.step_named hs
      rw [addresses_cons, walk, ih hnext, hsettled, AllSeen, and_assoc]

end Along

/-- **A walk clears a type if and only if it sees every anonymous section
that is to go.** -/
theorem walk_clears_iff (c : Config) (htype : '[' ∉ type.toList) (doomed : Section → Bool) :
    (∀ x ∈ (walk (selects doomed) (c.refs type) c).ofType type, doomed x = false) ↔
      AllSeen doomed (c.ofType type) (c.ofType type) := by
  have hstart : Along type c 0 (c.ofType type) [] (c.ofType type) :=
    ⟨rfl, .inl rfl, ⟨0, rfl, by simp⟩, fun s hs => (mem_ofType.1 hs).2, c.ofType_distinct type⟩
  rw [refs_eq_addresses, hstart.run htype]
  simp

/-! ## Which lists are seen -/

theorem mem_of_pass {ahead : List Section} (hx : x ∈ (pass doomed s ahead).1 ∨
    x ∈ (pass doomed s ahead).2) : x ∈ ahead := by
  unfold pass at hx
  split at hx
  · cases ahead with
    | nil => simp at hx
    | cons y ahead =>
        refine List.mem_cons_of_mem y ?_
        dsimp only at hx
        split at hx
        · exact hx.elim List.mem_of_mem_take List.mem_of_mem_drop
        · simpa using hx
  · split at hx
    · exact hx.elim List.mem_of_mem_take List.mem_of_mem_drop
    · exact hx.elim List.mem_of_mem_take List.mem_of_mem_drop

/-- Where none is to go, there is nothing to see. -/
theorem allSeen_of_spared {ahead : List Section} (h : ∀ x ∈ ahead, doomed x = false) :
    AllSeen doomed steps ahead := by
  induction steps generalizing ahead with
  | nil => trivial
  | cons s steps ih =>
      refine ⟨fun x hx hno => ?_, ih fun x hx => h x (mem_of_pass (.inr hx))⟩
      have hkept := h x (mem_of_pass (.inl hx))
      rw [hno.2] at hkept
      cases hkept

/-! ## What a walk keeps -/

/-- An address listed under a type is that of a section of the type, in any
config of sections that were there. -/
theorem type_of_ownRef (hsub : ∀ s ∈ c'.sections, s ∈ c.sections) {e : Nat × Section}
    (he : e ∈ c'.entries) (href : ownRef e ∈ c.refs type) : e.2.type = type := by
  obtain ⟨e₀, he₀, htype, hown⟩ := mem_refs.1 href
  have hmem := hsub _ (mem_of_entries he)
  by_cases hname : e.2.name = ""
  · rw [ownRef_of_anonymous hname] at hown
    by_cases hname₀ : e₀.2.name = ""
    · rw [ownRef_of_anonymous hname₀] at hown
      rw [← htype]
      exact (anonRef_injective (c.ident _ (mem_of_entries he₀)) (c.ident _ hmem) hown).1.symm
    · rw [ownRef_of_named hname₀] at hown
      exact absurd hown ((c.plain _ (mem_of_entries he₀)).ne_anonRef _ _)
  · have hfind := find_ownRef he₀
    rw [hown, ownRef_of_named hname,
      (find_eq_some_iff (c.plain _ hmem) hname).2 ⟨hmem, rfl⟩] at hfind
    rw [← htype, Option.some.inj hfind]

/-- **A walk keeps every section that it does not select**, with its options
and in its order. -/
theorem walk_keeps {sel : Config → String → Bool} {q : Section → Bool} {l : List String}
    (hl : ∀ ref ∈ l, ref ∈ c.refs type) (hsub : ∀ s ∈ c'.sections, s ∈ c.sections)
    (hq : ∀ (d : Config) (e : Nat × Section), e ∈ d.entries → e.2.type = type →
      sel d (ownRef e) = true → q e.2 = false) :
    (walk sel l c').sections.filter q = c'.sections.filter q := by
  induction l generalizing c' with
  | nil => rfl
  | cons ref l ih =>
      have hrest : ∀ r ∈ l, r ∈ c.refs type := fun r hr => hl r (List.mem_cons_of_mem ref hr)
      rw [walk]
      split
      · next hselects =>
        rw [ih hrest fun s hs => hsub s (mem_of_mem_erase hs), erase, ← entries_snd c',
          List.filter_map, List.filter_map, List.filter_filter]
        congr 1
        refine List.filter_congr fun e he => ?_
        by_cases hown : ownRef e = ref
        · have hin := hl ref List.mem_cons_self
          rw [← hown] at hin hselects
          simp [hown, hq c' e he (type_of_ownRef hsub he hin) hselects]
        · simp [hown]
      · exact ih hrest hsub

/-! ## Backwards -/

/-- **Deleting from the last to the first leaves none**: the places of those
still to be deleted hold. -/
theorem walk_reverse_clears (doomed : Config → String → Bool) (hall : ∀ c ref, doomed c ref = true)
    (c : Config) (type : String) : (walk doomed (c.refs type).reverse c).ofType type = [] := by
  rw [refs_eq_addresses]
  generalize hl : c.ofType type = l
  induction l using List.reverseRecOn generalizing c with
  | nil => exact hl
  | append_singleton l x ih =>
      rw [addresses_append, List.reverse_append, addresses_cons, addresses_nil,
        List.reverse_singleton, Nat.zero_add, List.singleton_append, walk, if_pos (hall _ _)]
      refine ih _ ?_
      rw [ofType_erase_of_split hl, List.append_nil]

end Config

end Uci

end OpenManet
