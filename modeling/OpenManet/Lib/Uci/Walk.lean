import OpenManet.Lib.Uci.Views
/-!
# Sections in their places

An edit leaves every section where it stands, and a new one stands behind all
the others: `Stands` follows one section through the edits of its options. A
deletion does not: the sections behind it move up. A walk lists the addresses
of a type once, and deletes as it goes; for an anonymous section the listed
address is by then that of another, so that the walk may pass it over. It
does not pass over one that has a name.
-/

namespace OpenManet

namespace Uci

open Fallible

/-! ## Edits in place -/

namespace Config

variable {c : Config} {ref n type option : String} {s : Section} {e : Nat × Section}
  {a b : List (Nat × Section)} {f : Table (List String) → Table (List String)}

theorem entries_nodup (c : Config) : c.entries.Nodup := by
  refine (places_pairwise [] c.sections).imp fun {e e'} hlt heq => ?_
  subst heq
  exact absurd (hlt rfl) (Nat.lt_irrefl _)

/-- **An edit at a listed address is an edit in place.** -/
theorem entries_update_ownRef (h : c.entries = a ++ e :: b) :
    (c.update (ownRef e) f).entries = a ++ (e.1, e.2.edit f) :: b := by
  have hnodup := c.entries_nodup
  rw [h, List.nodup_middle, List.nodup_cons, List.mem_append, not_or] at hnodup
  have hmem : ∀ e' ∈ a ++ e :: b, e' ∈ c.entries := by
    intro e' he'
    rwa [h]
  have hkeep : ∀ l : List (Nat × Section), (∀ e' ∈ l, e' ∈ a ++ e :: b) → e ∉ l →
      l.map (fun e' => (e'.1, if answers (ownRef e) e' then e'.2.edit f else e'.2)) = l := by
    intro l hl hout
    refine (List.map_congr_left fun e' he' => ?_).trans (List.map_id l)
    rw [if_neg]
    · rfl
    · intro hans
      have hsame : e' = e := eq_of_answers (hmem e (by simp)) (hmem e' (hl e' he')) hans
      exact hout (hsame ▸ he')
  rw [entries_update, h, List.map_append, List.map_cons,
    hkeep a (fun e' he' => by simp [he']) hnodup.1.1,
    hkeep b (fun e' he' => by simp [he']) hnodup.1.2, if_pos (answers_ownRef e)]

/-- An edit at an address listed under a type is not seen in a named section
of another. -/
theorem get_update_of_refs (href : ref ∈ c.refs type)
    (hkind : (c.find n).map Section.type ≠ some type) :
    (c.update ref f).get n option = c.get n option := by
  obtain ⟨e', he', rfl, rfl⟩ := mem_refs.1 href
  rw [get, get, find_update]
  unfold find at hkind ⊢
  cases hfind : c.entries.find? (answers n) with
  | none => rfl
  | some e =>
      have hother : answers (ownRef e') e = false := by
        rw [Bool.eq_false_iff]
        intro hans
        obtain rfl := eq_of_answers he' (List.mem_of_find?_eq_some hfind) hans
        exact hkind (by rw [hfind]; rfl)
      simp [hother]

/-- An address that is listed is that of an entry. -/
theorem split_of_find_refs {q : String → Bool} (h : (c.refs type).find? q = some ref) :
    ∃ a e b, c.entries = a ++ e :: b ∧ ownRef e = ref ∧ e.2.type = type ∧ q ref = true ∧
      ∀ e' ∈ a, e'.2.type = type → q (ownRef e') = false := by
  rw [refs, List.find?_map, List.find?_filter, Option.map_eq_some_iff] at h
  obtain ⟨e, he, rfl⟩ := h
  obtain ⟨htest, a, b, hsplit, hbefore⟩ := List.find?_eq_some_iff_append.1 he
  simp only [Function.comp_apply, decide_eq_true_iff] at htest
  refine ⟨a, e, b, hsplit, rfl, htest.1, htest.2, fun e' he' htype => ?_⟩
  simpa [htype] using hbefore e' he'

/-- A named section stands somewhere. -/
theorem split_of_find (hn : Plain n) (hne : n ≠ "") (h : c.find n = some s) :
    ∃ a i b, c.entries = a ++ (i, s) :: b ∧ ownRef (i, s) = n := by
  obtain ⟨hmem, hname⟩ := (find_eq_some_iff hn hne).1 h
  rw [← entries_snd c, List.mem_map] at hmem
  obtain ⟨⟨i, s'⟩, he, rfl⟩ := hmem
  obtain ⟨a, b, hsplit⟩ := List.append_of_mem he
  refine ⟨a, i, b, hsplit, ?_⟩
  rw [ownRef_of_named (by rw [hname]; exact hne), hname]

end Config

section Stands

variable {config ref option : String} {values : List String} {s : Section}
  {a b : List (Nat × Section)} {i : Nat} {h : Host}

/-- A section stands between the entries before and after it. -/
def Stands (config : String) (a : List (Nat × Section)) (i : Nat) (s : Section)
    (b : List (Nat × Section)) (h : Host) : Prop :=
  ∃ c, h.tree.mem config = some c ∧ c.entries = a ++ (i, s) :: b

/-- **Writing an option of a section leaves it where it stands.** -/
theorem leaves_editSection_stands {f : Table (List String) → Table (List String)}
    (hs : Stands config a i s b h) (href : ownRef (i, s) = ref) :
    Leaves (editSection config ref f) h fun _ h' => Stands config a i (s.edit f) b h' := by
  obtain ⟨c, hmem, hsplit⟩ := hs
  refine leaves_editSection fun c' tick hmem' _ => ?_
  obtain rfl : c = c' := Option.some.inj (hmem.symm.trans hmem')
  refine ⟨_, Tree.stage_mem _ _ _, ?_⟩
  rw [← href, Config.entries_update_ownRef hsplit]

end Stands

/-! ## New sections -/

theorem leaves_addSection {config name type : String} {h : Host} {Q : Unit → Host → Prop}
    (hold : ∀ s tick, ((h.tree.mem config).getD Config.empty).find name = some s → s.type = type →
      Q () { h with tick := tick })
    (hnew : ∀ tick, ((h.tree.mem config).getD Config.empty).find name = none →
      Q () { h with
        tree := h.tree.stage config (((h.tree.mem config).getD Config.empty).push type name)
        tick := tick }) :
    Leaves (addSection config name type) h Q := by
  refine leaves_call fun _ t tick hok => ?_
  simp only at hok
  split at hok
  · next s hfind =>
    split at hok
    · next htype =>
      obtain rfl : h.tree = t := by simpa using hok
      exact hold s tick hfind htype
    · cases hok
  · next hfind =>
    obtain rfl : h.tree.stage config _ = t := by simpa using hok
    exact hnew tick hfind

/-! ## Walks -/

namespace Config

variable {c : Config} {ref n type : String} {s : Section} {doomed : Config → String → Bool}

/-- The config after a walk along listed addresses, each of which is looked
up in what the walk has left so far. -/
def walk (doomed : Config → String → Bool) : List String → Config → Config
  | [], c => c
  | ref :: refs, c => walk doomed refs (if doomed c ref then c.erase ref else c)

/-- What a walk leaves was there. -/
theorem mem_of_mem_walk {l : List String} (h : s ∈ (walk doomed l c).sections) :
    s ∈ c.sections := by
  induction l generalizing c with
  | nil => exact h
  | cons ref l ih =>
      have hrest := ih (c := if doomed c ref then c.erase ref else c) h
      split at hrest
      · exact mem_of_mem_erase hrest
      · exact hrest

/-- A walk along the addresses of one type leaves the sections of another
where they are. -/
theorem entries_walk_of_type {l : List String} (h : ∀ ref ∈ l, ref ∉ c.refs type) :
    (walk doomed l c).entries.filter (fun e => e.2.type = type)
      = c.entries.filter fun e => e.2.type = type := by
  induction l generalizing c with
  | nil => rfl
  | cons ref l ih =>
      have herase : (c.erase ref).entries.filter (fun e => e.2.type = type)
          = c.entries.filter fun e => e.2.type = type :=
        entries_erase_of_type (h ref (List.mem_cons_self ..))
      have hrefs : (c.erase ref).refs type = c.refs type := by
        rw [refs, refs, herase]
      show (walk doomed l (if doomed c ref then c.erase ref else c)).entries.filter _ = _
      split
      · rw [ih fun r hr => by rw [hrefs]; exact h r (List.mem_cons_of_mem _ hr), herase]
      · exact ih fun r hr => h r (List.mem_cons_of_mem _ hr)

/-- **A named section is not passed over.** -/
theorem doomed_of_mem_walk {l : List String} (hn : Plain n) (hne : n ≠ "") (hl : n ∈ l)
    (hdoomed : ∀ c, c.find n = some s → doomed c n = true) : (walk doomed l c).find n ≠ some s := by
  intro hfind
  have hstays : ∀ (l : List String) (c : Config), (walk doomed l c).find n = some s →
      c.find n = some s := by
    intro l c hwalk
    rw [find_eq_some_iff hn hne] at hwalk ⊢
    exact ⟨mem_of_mem_walk hwalk.1, hwalk.2⟩
  induction l generalizing c with
  | nil => cases hl
  | cons ref l ih =>
      have hrest := hstays l (if doomed c ref then c.erase ref else c) hfind
      rcases List.mem_cons.1 hl with rfl | hl
      · have hgone : (c.erase n).find n = none := by rw [find_erase hn hne, if_pos rfl]
        split at hrest
        · rw [hgone] at hrest
          cases hrest
        · next hspared => exact hspared (hdoomed c hrest)
      · exact ih hl hfind

/-- A named section that is not on the way is read as before. -/
theorem find_walk_of_not_mem {l : List String} (hn : Plain n) (hne : n ≠ "") (hl : n ∉ l) :
    (walk doomed l c).find n = c.find n := by
  induction l generalizing c with
  | nil => rfl
  | cons ref l ih =>
      rw [List.mem_cons, not_or] at hl
      show (walk doomed l (if doomed c ref then c.erase ref else c)).find n = _
      rw [ih hl.2]
      split
      · rw [find_erase hn hne, if_neg hl.1]
      · rfl

/-- A walk that spares nothing leaves no name it was given. -/
theorem find_walk_all (hn : Plain n) (hne : n ≠ "") (l : List String) :
    (walk (fun _ _ => true) l c).find n = if n ∈ l then none else c.find n := by
  split
  · next hl =>
    exact Option.eq_none_iff_forall_ne_some.2 fun s =>
      doomed_of_mem_walk hn hne hl fun _ _ => rfl
  · next hl => exact find_walk_of_not_mem hn hne hl

/-- What a walk leaves of a named section is the section or nothing. -/
theorem find_walk_cases (hn : Plain n) (hne : n ≠ "") (l : List String) :
    (walk doomed l c).find n = none ∨ (walk doomed l c).find n = c.find n := by
  cases hfind : (walk doomed l c).find n with
  | none => exact .inl rfl
  | some s =>
      obtain ⟨hmem, hname⟩ := (find_eq_some_iff hn hne).1 hfind
      exact .inr ((find_eq_some_iff hn hne).2 ⟨mem_of_mem_walk hmem, hname⟩).symm

end Config

/-- **A loop that deletes as it goes leaves what a walk leaves.** -/
theorem leaves_walk {config : String} {sel : Config → String → Bool} {m : String → Prog Unit}
    (hstep : ∀ ref c h, h.tree.mem config = some c → Leaves (m ref) h fun _ h' =>
      h'.tree.mem config = some (if sel c ref then c.erase ref else c))
    (l : List String) (c : Config) (h : Host) (hmem : h.tree.mem config = some c) :
    Leaves (l.forM m) h fun _ h' => h'.tree.mem config = some (c.walk sel l) := by
  induction l generalizing c h with
  | nil => exact (leaves_pure _).2 hmem
  | cons ref l ih =>
      show Leaves (m ref >>= fun _ => l.forM m) h _
      rw [leaves_bind]
      exact (hstep ref c h hmem).mono fun _ h' hmem' => ih _ h' hmem'

/-- One turn of a loop that deletes what a test selects. -/
theorem leaves_walk_turn {config ref what : String} {doomed : Tree → String → Bool}
    {sel : Config → String → Bool} {c : Config} {h : Host}
    (hsel : ∀ t c ref, t.mem config = some c → doomed t ref = sel c ref)
    (hmem : h.tree.mem config = some c) :
    Leaves (do
      if doomed (← tree) ref then saying what (delSection config ref) else pure ()) h fun _ h' =>
        h'.tree.mem config = some (if sel c ref then c.erase ref else c) := by
  rw [leaves_bind, leaves_tree, hsel _ c ref hmem, leaves_ite]
  refine ⟨fun hdel => ?_, fun hkeep => (leaves_pure _).2 ?_⟩
  · rw [leaves_saying]
    refine leaves_delSection fun c' tick hmem' => ?_
    obtain rfl : c = c' := Option.some.inj (hmem.symm.trans hmem')
    rw [if_pos hdel]
    exact Tree.stage_mem _ _ _
  · rwa [if_neg hkeep]

end Uci

end OpenManet
