import OpenManet.Lib.Uci.Tree
/-!
# What calls leave alone

`Edits cs born` bounds a program that only stages edits, by the configs it
may edit and those of them it may bring into being. `Touches cs born` bounds
one that may commit too: outside `cs` a config without pending edits keeps
its memory and its file. `Needs` says what has to be there for a program to
end well.
-/

namespace OpenManet

namespace Uci

open Fallible

variable {cs born : List String} {α β : Type}

/-- The bound of programs that stage edits of some configs and create some of
them. -/
def Edits (cs born : List String) : Bound Host where
  rel h h' :=
    h'.tree.disk = h.tree.disk ∧
    (∀ c ∉ cs, h'.tree.mem c = h.tree.mem c ∧ h'.tree.dirty c = h.tree.dirty c) ∧
    (∀ c, h.tree.dirty c = true → h'.tree.dirty c = true) ∧
    (∀ c, h.tree.mem c ≠ none → h'.tree.mem c ≠ none) ∧
    (∀ c ∉ born, h.tree.mem c = none → h'.tree.mem c = none)
  refl h := ⟨rfl, fun _ _ => ⟨rfl, rfl⟩, fun _ hc => hc, fun _ hc => hc, fun _ _ hc => hc⟩
  trans := by
    rintro s t u ⟨hdisk, hkeep, hdirty, hstay, haway⟩ ⟨hdisk', hkeep', hdirty', hstay', haway'⟩
    exact ⟨hdisk'.trans hdisk,
      fun c hc => ⟨(hkeep' c hc).1.trans (hkeep c hc).1, (hkeep' c hc).2.trans (hkeep c hc).2⟩,
      fun c hc => hdirty' c (hdirty c hc), fun c hc => hstay' c (hstay c hc),
      fun c hc hn => haway' c hc (haway c hc hn)⟩

/-- The bound of programs that may also commit. -/
def Touches (cs born : List String) : Bound Host where
  rel h h' :=
    (∀ c ∉ cs, h.tree.dirty c = false →
      h'.tree.dirty c = false ∧ h'.tree.mem c = h.tree.mem c ∧ h'.tree.disk c = h.tree.disk c) ∧
    (∀ c, h.tree.mem c ≠ none → h'.tree.mem c ≠ none) ∧
    (∀ c ∉ born, h.tree.mem c = none → h'.tree.mem c = none)
  refl h := ⟨fun _ _ hd => ⟨hd, rfl, rfl⟩, fun _ hc => hc, fun _ _ hc => hc⟩
  trans := by
    rintro s t u ⟨hkeep, hstay, haway⟩ ⟨hkeep', hstay', haway'⟩
    refine ⟨fun c hc hd => ?_, fun c hc => hstay' c (hstay c hc), fun c hc hn =>
      haway' c hc (haway c hc hn)⟩
    obtain ⟨hd', hmem, hdisk⟩ := hkeep c hc hd
    obtain ⟨hd'', hmem', hdisk'⟩ := hkeep' c hc hd'
    exact ⟨hd'', hmem'.trans hmem, hdisk'.trans hdisk⟩

theorem Edits.touches {m : Prog α} (hm : Within (Edits cs born) m) :
    Within (Touches cs born) m := by
  intro h
  obtain ⟨hdisk, hkeep, -, hstay, haway⟩ := hm h
  exact ⟨fun c hc hd => ⟨(hkeep c hc).2.trans hd, (hkeep c hc).1, by rw [hdisk]⟩, hstay, haway⟩

/-- Other configs read as before. -/
theorem mem_of_edits {m : Prog α} (hm : Within (Edits cs born) m) {c : String} (hc : c ∉ cs)
    {h h' : Host} {a : α} (hrun : m h = .ok a h') : h'.tree.mem c = h.tree.mem c :=
  ((hm.ok hrun).2.1 c hc).1

/-- A staged config is the only one that changes. -/
theorem edits_stage {config : String} {c : Config} {h : Host} (hc : config ∈ cs)
    (hb : config ∈ born ∨ h.tree.mem config ≠ none) (tick : Nat) :
    (Edits cs born).rel h { h with tree := h.tree.stage config c, tick := tick } := by
  refine ⟨rfl, fun c' hc' => ?_, fun c' hd => ?_, fun c' hm => ?_, fun c' hc' hm => ?_⟩
  · have hne : c' ≠ config := by
      rintro rfl
      exact hc' hc
    simp [Tree.stage, Function.update_of_ne hne]
  · rcases eq_or_ne c' config with rfl | hne
    · simp [Tree.stage]
    · simpa [Tree.stage, Function.update_of_ne hne] using hd
  · rcases eq_or_ne c' config with rfl | hne
    · simp [Tree.stage]
    · simpa [Tree.stage, Function.update_of_ne hne] using hm
  · have hne : c' ≠ config := by
      rintro rfl
      exact hb.elim hc' fun h => h hm
    simpa [Tree.stage, Function.update_of_ne hne] using hm

/-! ## What each call does -/

/-- A call does what it does to the tree, or nothing. -/
theorem within_call {B : Bound Host} {f : Tree → Except Err (α × Tree)}
    (htick : ∀ h tick, B.rel h { h with tick := tick })
    (hf : ∀ h tick a t, f h.tree = .ok (a, t) → B.rel h { h with tree := t, tick := tick }) :
    Within B (call f) := by
  intro h
  unfold final call
  cases hrefuse : h.fate.refuses h.tick with
  | true => simpa [hrefuse] using htick h (h.tick + 1)
  | false =>
      cases hres : f h.tree with
      | error e => simpa [hrefuse, hres] using htick h (h.tick + 1)
      | ok r =>
          obtain ⟨a, t⟩ := r
          simpa [hrefuse, hres] using hf h (h.tick + 1) a t hres

theorem leaves_call {f : Tree → Except Err (α × Tree)} {h : Host} {Q : α → Host → Prop}
    (hQ : ∀ a t tick, f h.tree = .ok (a, t) → Q a { h with tree := t, tick := tick }) :
    Leaves (call f) h Q := by
  intro a h' hrun
  unfold call at hrun
  dsimp only at hrun
  split at hrun
  · cases hrun
  · split at hrun
    · obtain ⟨rfl, rfl⟩ := EStateM.Result.ok.inj hrun
      exact hQ _ _ _ (by assumption)
    · cases hrun

section Calls

variable {config ref name type option : String} {values : List String} {t t' : Tree}
  {f : Table (List String) → Table (List String)}

theorem getSections_ok {l : List String}
    (h : (match t.mem config with
      | some c => .ok (c.refs type, t)
      | none => .error (missingConfig config) : Except Err (List String × Tree)) = .ok (l, t')) :
    ∃ c, t.mem config = some c ∧ l = c.refs type ∧ t' = t := by
  cases hmem : t.mem config with
  | none => simp [hmem] at h
  | some c =>
      obtain ⟨rfl, rfl⟩ : c.refs type = l ∧ t = t' := by simpa [hmem] using h
      exact ⟨c, rfl, rfl, rfl⟩

theorem leaves_getSections {h : Host} {Q : List String → Host → Prop}
    (hQ : ∀ c tick, h.tree.mem config = some c → Q (c.refs type) { h with tick := tick }) :
    Leaves (getSections config type) h Q := by
  refine leaves_call fun l t tick hok => ?_
  obtain ⟨c, hmem, rfl, rfl⟩ := getSections_ok hok
  exact hQ c tick hmem

theorem leaves_editSection {h : Host} {Q : Unit → Host → Prop}
    (hQ : ∀ c tick, h.tree.mem config = some c → (c.find ref).isSome = true →
      Q () { h with tree := h.tree.stage config (c.update ref f), tick := tick }) :
    Leaves (editSection config ref f) h Q := by
  refine leaves_call fun a t tick hok => ?_
  cases hmem : h.tree.mem config with
  | none => simp [hmem] at hok
  | some c =>
      simp only [hmem] at hok
      split at hok
      · obtain rfl : h.tree.stage config (c.update ref f) = t := by simpa using hok
        exact hQ c tick hmem (by assumption)
      · cases hok

theorem leaves_delSection {h : Host} {Q : Unit → Host → Prop}
    (hQ : ∀ c tick, h.tree.mem config = some c →
      Q () { h with tree := h.tree.stage config (c.erase ref), tick := tick }) :
    Leaves (delSection config ref) h Q := by
  refine leaves_call fun a t tick hok => ?_
  cases hmem : h.tree.mem config with
  | none => simp [hmem] at hok
  | some c =>
      obtain rfl : h.tree.stage config (c.erase ref) = t := by simpa [hmem] using hok
      exact hQ c tick hmem

@[simp] theorem within_tree {B : Bound Host} : Within B tree := B.refl

@[simp] theorem within_saying {B : Bound Host} {what : String} {m : Prog α} (hm : Within B m) :
    Within B (saying what m) := within_wrapped _ hm

@[simp] theorem within_fail {B : Bound Host} {text : String} : Within B (fail text : Prog α) :=
  within_throw _

@[simp] theorem leaves_saying {what : String} {m : Prog α} {h : Host} {Q : α → Host → Prop} :
    Leaves (saying what m) h Q ↔ Leaves m h Q := leaves_wrapped

@[simp] theorem leaves_fail {text : String} {h : Host} {Q : α → Host → Prop} :
    Leaves (fail text : Prog α) h Q ↔ True := leaves_throw _

@[simp] theorem leaves_tree {h : Host} {Q : Tree → Host → Prop} :
    Leaves tree h Q ↔ Q h.tree h := by
  constructor
  · intro hQ
    exact hQ h.tree h rfl
  · intro hQ t h' hrun
    cases hrun
    exact hQ

theorem edits_tick (h : Host) (tick : Nat) : (Edits cs born).rel h { h with tick := tick } :=
  ⟨rfl, fun _ _ => ⟨rfl, rfl⟩, fun _ hc => hc, fun _ hc => hc, fun _ _ hc => hc⟩

@[simp] theorem within_getSections : Within (Edits cs born) (getSections config type) := by
  refine within_call edits_tick fun h tick a t hok => ?_
  obtain ⟨c, -, -, rfl⟩ := getSections_ok hok
  exact edits_tick h tick

@[simp] theorem within_editSection (hc : config ∈ cs) :
    Within (Edits cs born) (editSection config ref f) := by
  refine within_call edits_tick fun h tick a t hok => ?_
  cases hmem : h.tree.mem config with
  | none => simp [hmem] at hok
  | some c =>
      simp only [hmem] at hok
      split at hok
      · obtain rfl : h.tree.stage config (c.update ref f) = t := by simpa using hok
        exact edits_stage hc (.inr (by simp [hmem])) tick
      · cases hok

@[simp] theorem within_setType (hc : config ∈ cs) :
    Within (Edits cs born) (setType config ref option values) := within_editSection hc

@[simp] theorem within_del (hc : config ∈ cs) : Within (Edits cs born) (del config ref option) :=
  within_editSection hc

@[simp] theorem within_addSection (hc : config ∈ cs) (hb : config ∈ born) :
    Within (Edits cs born) (addSection config name type) := by
  refine within_call edits_tick fun h tick a t hok => ?_
  simp only at hok
  split at hok
  · split at hok
    · obtain rfl : h.tree = t := by simpa using hok
      exact edits_tick h tick
    · cases hok
  · obtain rfl : h.tree.stage config _ = t := by simpa using hok
    exact edits_stage hc (.inl hb) tick

@[simp] theorem within_delSection (hc : config ∈ cs) :
    Within (Edits cs born) (delSection config ref) := by
  refine within_call edits_tick fun h tick a t hok => ?_
  cases hmem : h.tree.mem config with
  | none => simp [hmem] at hok
  | some c =>
      obtain rfl : h.tree.stage config (c.erase ref) = t := by simpa [hmem] using hok
      exact edits_stage hc (.inr (by simp [hmem])) tick

/-- A commit writes edited configs only. -/
theorem within_commit : Within (Touches cs born) commit := by
  have hflush : ∀ (h : Host) (through : String → Bool) (tick : Nat),
      (Touches cs born).rel h { h with tree := h.tree.flush through, tick := tick } := by
    intro h through tick
    refine ⟨fun c _ hd => ?_, fun _ hm => hm, fun _ _ hm => hm⟩
    simp [Tree.flush, hd]
  intro h
  unfold final commit
  cases hrefuse : h.fate.refuses h.tick with
  | true => simpa [hrefuse] using hflush h _ _
  | false => simpa [hrefuse] using hflush h _ _

@[simp] theorem within_setOptions {what : String → String} {writes : List (String × String)}
    (hc : config ∈ cs) : Within (Edits cs born) (setOptions config ref what writes) :=
  within_forM fun _ => within_saying (within_setType hc)

end Calls

attribute [grind ←] within_tree within_saying within_fail within_getSections within_setType
  within_del within_addSection within_delSection within_setOptions

/-! ## What has to be there -/

/-- Where the program ends well, the config is there. -/
def Needs (config : String) (m : Prog α) : Prop :=
  ∀ h, Leaves m h fun _ h' => h'.tree.mem config ≠ none

section Needs

variable {config : String} {m : Prog α} {f : α → Prog β}

theorem needs_getSections {type : String} : Needs config (getSections config type) :=
  fun _ => leaves_getSections fun c _ hmem => by simp [hmem]

theorem needs_setType {ref option : String} {values : List String} :
    Needs config (setType config ref option values) :=
  fun _ => leaves_editSection fun c _ _ _ => by simp [Tree.stage]

theorem needs_saying {what : String} (h : Needs config m) : Needs config (saying what m) :=
  fun s => leaves_saying.2 (h s)

/-- What a program needed at its start is there at its end. -/
theorem needs_bind_left (cs born : List String) (hm : Needs config m) (hf : ∀ a, Within (Edits cs born) (f a)) :
    Needs config (m >>= f) := by
  intro h
  rw [leaves_bind]
  refine (hm h).mono fun a h' hpresent b h'' hrun => ?_
  have hkeep := hf a h'
  rw [final_of_ok hrun] at hkeep
  exact hkeep.2.2.2.1 config hpresent

theorem needs_bind_right (hf : ∀ a, Needs config (f a)) : Needs config (m >>= f) := by
  intro h
  rw [leaves_bind]
  exact fun a h' _ => hf a h'

/-- A program that cannot bring a config into being and needs it fails where
it is not there. -/
theorem fails_of_needs (hneed : Needs config m) (hm : Within (Edits cs born) m)
    (hb : config ∉ born) {h : Host} (hnone : h.tree.mem config = none) :
    succeeds m h = false := by
  unfold Fallible.succeeds
  cases hrun : m h with
  | error e t => rfl
  | ok a t =>
      have hkeep := hm h
      rw [final_of_ok hrun] at hkeep
      exact absurd (hkeep.2.2.2.2 config hb hnone) (hneed h a t hrun)

end Needs

end Uci

end OpenManet
