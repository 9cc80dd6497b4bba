import OpenManet.Lib.Uci.Lookup
import OpenManet.Lib.Uci.Frame
/-!
# Reading a tree

What a program leaves to be read: the values of an option, and the type of a
named section. `Looks v` bounds a program that leaves one reading alone. A
`Patch` is what a writer means by a named section: options it sets, then
options it clears.
-/

namespace OpenManet

namespace Uci

open Fallible

variable {config ref n m o option name type : String} {values : List String} {α β : Type}
  {cs born : List String}

/-- The type of the section an address names. -/
def Tree.kind (t : Tree) (config ref : String) : Option String :=
  match t.mem config with
  | some c => (c.find ref).map Section.type
  | none => none

theorem Tree.get_of_mem {t : Tree} {c : Config} (h : t.mem config = some c) :
    t.get config n o = c.get n o := by
  rw [Tree.get, h]

theorem Tree.kind_of_mem {t : Tree} {c : Config} (h : t.mem config = some c) :
    t.kind config n = (c.find n).map Section.type := by
  rw [Tree.kind, h]

theorem Tree.get_of_kind {t : Tree} (h : t.kind config n = none) : t.get config n o = [] := by
  unfold Tree.kind at h
  unfold Tree.get
  cases hmem : t.mem config with
  | none => rfl
  | some c =>
      simp only [hmem, Option.map_eq_none_iff] at h
      simp [Config.get, h]

@[simp] theorem Tree.stage_mem (t : Tree) (config : String) (c : Config) :
    (t.stage config c).mem config = some c := by
  simp [Tree.stage]

@[simp] theorem Tree.stage_get (t : Tree) (config : String) (c : Config) :
    (t.stage config c).get config n o = c.get n o := Tree.get_of_mem (t.stage_mem config c)

@[simp] theorem Tree.stage_kind (t : Tree) (config : String) (c : Config) :
    (t.stage config c).kind config n = (c.find n).map Section.type :=
  Tree.kind_of_mem (t.stage_mem config c)

/-! ## Readings that a program leaves alone -/

/-- The bound of programs that leave a reading alone. -/
def Looks (v : Tree → β) : Bound Host where
  rel h h' := v h'.tree = v h.tree
  refl _ := rfl
  trans h h' := h'.trans h

section Looks

variable {v : Tree → β}

theorem looks_getSections : Within (Looks v) (getSections config type) := by
  refine within_call (fun _ _ => rfl) fun h tick a t hok => ?_
  obtain ⟨c, -, -, rfl⟩ := getSections_ok hok
  rfl

theorem looks_editSection {f : Table (List String) → Table (List String)}
    (hv : ∀ (t : Tree) (c : Config), t.mem config = some c → (c.find ref).isSome = true →
      v (t.stage config (c.update ref f)) = v t) :
    Within (Looks v) (editSection config ref f) := by
  refine within_call (fun _ _ => rfl) fun h tick a t hok => ?_
  cases hmem : h.tree.mem config with
  | none => simp [hmem] at hok
  | some c =>
      simp only [hmem] at hok
      split at hok
      · obtain rfl : h.tree.stage config (c.update ref f) = t := by simpa using hok
        exact hv h.tree c hmem (by assumption)
      · cases hok

theorem looks_addSection
    (hv : ∀ t : Tree, (((t.mem config).getD Config.empty).find name) = none →
      v (t.stage config (((t.mem config).getD Config.empty).push type name)) = v t) :
    Within (Looks v) (addSection config name type) := by
  refine within_call (fun _ _ => rfl) fun h tick a t hok => ?_
  simp only at hok
  split at hok
  · split at hok
    · obtain rfl : h.tree = t := by simpa using hok
      rfl
    · cases hok
  · next hnone =>
    obtain rfl : h.tree.stage config _ = t := by simpa using hok
    exact hv h.tree hnone

/-- A program that keeps to other configs leaves this one to be read as
before. -/
theorem looks_of_edits {m : Prog α} (hm : Within (Edits cs born) m) (hc : config ∉ cs)
    (hv : ∀ t t' : Tree, t'.mem config = t.mem config → v t' = v t) : Within (Looks v) m :=
  fun h => hv _ _ ((hm h).2.1 config hc).1

end Looks

theorem get_congr {t t' : Tree} (h : t'.mem config = t.mem config) :
    t'.get config n o = t.get config n o := by
  rw [Tree.get, Tree.get, h]

theorem kind_congr {t t' : Tree} (h : t'.mem config = t.mem config) :
    t'.kind config n = t.kind config n := by
  rw [Tree.kind, Tree.kind, h]

/-- An edit of another option is not seen. -/
theorem looks_get_of_lookup {f : Table (List String) → Table (List String)}
    (hf : ∀ t, (f t).lookup o = t.lookup o) :
    Within (Looks fun t => t.get config n o) (editSection config ref f) := by
  refine looks_editSection fun t c hmem _ => ?_
  rw [Tree.stage_get, Tree.get_of_mem hmem, Config.get_update_of_lookup hf]

theorem looks_get_setType (h : option ≠ o) :
    Within (Looks fun t => t.get config n o) (setType config ref option values) :=
  looks_get_of_lookup fun _ => AList.lookup_insert_ne h.symm

theorem looks_get_del (h : option ≠ o) :
    Within (Looks fun t => t.get config n o) (del config ref option) :=
  looks_get_of_lookup fun _ => AList.lookup_erase_ne h.symm

/-- An edit of another section is not seen. -/
theorem looks_get_of_ne {f : Table (List String) → Table (List String)} (hn : Plain n)
    (hm : Plain m) (hne : m ≠ n) :
    Within (Looks fun t => t.get config m o) (editSection config n f) := by
  refine looks_editSection fun t c hmem _ => ?_
  rw [Tree.stage_get, Tree.get_of_mem hmem, Config.get_update_ne hn hm hne]

theorem looks_kind_editSection {f : Table (List String) → Table (List String)} :
    Within (Looks fun t => t.kind config n) (editSection config ref f) := by
  refine looks_editSection fun t c hmem _ => ?_
  rw [Tree.stage_kind, Tree.kind_of_mem hmem, Config.find_update_type]

/-- A new section has nothing to be read. -/
theorem looks_get_addSection : Within (Looks fun t => t.get config n o)
    (addSection config name type) := by
  refine looks_addSection fun t _ => ?_
  rw [Tree.stage_get, Config.get_push, Tree.get]
  cases t.mem config with
  | some c => rfl
  | none => rfl

theorem looks_kind_addSection (hm : Plain m) (hne : m ≠ name) :
    Within (Looks fun t => t.kind config m) (addSection config name type) := by
  refine looks_addSection fun t _ => ?_
  rw [Tree.stage_kind, Config.find_push_ne hm hne, Tree.kind]
  cases t.mem config with
  | some c => rfl
  | none => rfl

/-- A section that is asked for keeps its type, or gets the type asked
for. -/
theorem kind_addSection (hn : Plain n) (htype : '[' ∉ type.toList) (h : Host) :
    (final (addSection config n type) h).tree.kind config n = h.tree.kind config n ∨
      h.tree.kind config n = none ∧
        (final (addSection config n type) h).tree.kind config n = some type := by
  unfold final addSection call
  cases h.fate.refuses h.tick with
  | true => exact .inl (by simp)
  | false =>
      cases hfind : ((h.tree.mem config).getD Config.empty).find n with
      | some s =>
          by_cases hs : s.type = type
          · exact .inl (by simp [hfind, hs])
          · exact .inl (by simp [hfind, hs])
      | none =>
          refine .inr ⟨?_, ?_⟩
          · unfold Tree.kind
            cases hmem : h.tree.mem config with
            | none => rfl
            | some c => simp_all
          · simp [hfind, Config.find_push_self hn htype hfind]

/-! ## Patches -/

/-- The last value written to an option. -/
def lastWrite : List (String × String) → String → Option String
  | [], _ => none
  | w :: ws, o => (lastWrite ws o).or (if w.1 = o then some w.2 else none)

/-- What a writer means by a named section. -/
structure Patch where
  name : String
  sets : List (String × String)
  clears : List String

/-- What is to be read of an option after a patch. -/
def Patch.reads (q : Patch) (n o : String) (old : List String) : List String :=
  if n = q.name then
    if o ∈ q.clears then []
    else match lastWrite q.sets o with
      | some v => [v]
      | none => old
  else old

/-- The values of some options of the named sections are as a patch leaves
them. -/
def Patched (config : String) (q : Patch) (os : List String) (h h' : Host) : Prop :=
  ∀ n o, Plain n → o ∈ os → h'.tree.get config n o = q.reads n o (h.tree.get config n o)

/-- **Options written one after the other.** -/
theorem leaves_setOptions {what : String → String} (hn : Plain n) (ws : List (String × String))
    (h : Host) (os : List String) :
    Leaves (setOptions config n what ws) h fun _ h' => Patched config ⟨n, ws, []⟩ os h h' := by
  induction ws generalizing h with
  | nil =>
      refine (leaves_pure _).2 fun m o _ _ => ?_
      simp [Patch.reads, lastWrite]
  | cons w ws ih =>
      show Leaves (saying (what w.1) (setType config n w.1 [w.2]) >>= fun _ =>
        setOptions config n what ws) h _
      rw [leaves_bind, leaves_saying]
      refine leaves_editSection fun c tick hmem hfind => ?_
      refine (ih _).mono fun _ h' hrest m o hm ho => ?_
      have hold := Tree.get_of_mem (n := m) (o := o) hmem
      rw [hrest m o hm ho, hold]
      simp only [Tree.stage_get, Patch.reads, List.not_mem_nil, if_false, lastWrite]
      by_cases hmn : m = n
      · subst hmn
        by_cases hwo : w.1 = o
        · subst hwo
          rw [Config.get_update_insert hfind]
          cases lastWrite ws w.1 <;> simp
        · rw [Config.get_update_of_lookup fun _ => AList.lookup_insert_ne (Ne.symm hwo)]
          simp [hwo]
      · rw [Config.get_update_ne hn hm hmn]
        simp [hmn]

theorem leaves_del (hn : Plain n) (h : Host) (os : List String) :
    Leaves (del config n option) h fun _ h' => Patched config ⟨n, [], [option]⟩ os h h' := by
  refine leaves_editSection fun c tick hmem hfind m o hm _ => ?_
  have hold := Tree.get_of_mem (n := m) (o := o) hmem
  rw [hold]
  simp only [Tree.stage_get, Patch.reads, List.mem_singleton, lastWrite]
  by_cases hmn : m = n
  · subst hmn
    obtain ⟨s, hs⟩ := Option.isSome_iff_exists.1 hfind
    by_cases hoo : o = option
    · subst hoo
      rw [Config.get_update_self hs, AList.lookup_erase]
      simp
    · rw [Config.get_update_of_lookup fun _ => AList.lookup_erase_ne hoo]
      simp [hoo]
  · rw [Config.get_update_ne hn hm hmn]
    simp [hmn]

/-- Options dropped one after the other. -/
theorem leaves_clear {what : String → String} (hn : Plain n) (l : List String) (h : Host)
    (os : List String) :
    Leaves (l.forM fun option => saying (what option) (del config n option)) h
      fun _ h' => Patched config ⟨n, [], l⟩ os h h' := by
  induction l generalizing h with
  | nil =>
      refine (leaves_pure _).2 fun m o _ _ => ?_
      simp [Patch.reads, lastWrite]
  | cons a l ih =>
      show Leaves (saying (what a) (del config n a) >>= fun _ =>
        l.forM fun option => saying (what option) (del config n option)) h _
      rw [leaves_bind, leaves_saying]
      refine (leaves_del hn h os).mono fun _ h₁ hfirst => (ih h₁).mono fun _ h₂ hrest m o hm ho => ?_
      rw [hrest m o hm ho, hfirst m o hm ho]
      simp only [Patch.reads, List.mem_cons, lastWrite]
      grind

theorem lastWrite_append (a b : List (String × String)) (o : String) :
    lastWrite (a ++ b) o = (lastWrite b o).or (lastWrite a o) := by
  induction a with
  | nil => simp [lastWrite]
  | cons w a ih => simp [lastWrite, ih, Option.or_assoc]

section Patched

variable {os : List String} {h h₁ h₂ : Host} {a b : List (String × String)} {cl cl' : List String}

/-- More options are written. -/
theorem Patched.writes (hfirst : Patched config ⟨n, a, []⟩ os h h₁)
    (hnext : Patched config ⟨n, b, cl⟩ os h₁ h₂) : Patched config ⟨n, a ++ b, cl⟩ os h h₂ := by
  intro m o hm ho
  rw [hnext m o hm ho, hfirst m o hm ho]
  simp only [Patch.reads, lastWrite_append, List.not_mem_nil, if_false]
  grind

/-- More options are dropped. -/
theorem Patched.drops (hfirst : Patched config ⟨n, a, cl⟩ os h h₁)
    (hnext : Patched config ⟨n, [], cl'⟩ os h₁ h₂) : Patched config ⟨n, a, cl ++ cl'⟩ os h h₂ := by
  intro m o hm ho
  rw [hnext m o hm ho, hfirst m o hm ho]
  simp only [Patch.reads, lastWrite, List.mem_append]
  grind

/-- What comes before a patch and is not seen. -/
theorem Patched.after {q : Patch}
    (hsame : ∀ n o, Plain n → o ∈ os → h₁.tree.get config n o = h.tree.get config n o)
    (hnext : Patched config q os h₁ h₂) : Patched config q os h h₂ := by
  intro m o hm ho
  rw [hnext m o hm ho, hsame m o hm ho]

end Patched

/-- The named sections and their types, where one section was asked for. -/
def Ensured (config n type : String) (h h' : Host) : Prop :=
  ∀ m, Plain m → h'.tree.kind config m =
    if m = n then some ((h.tree.kind config m).getD type) else h.tree.kind config m

theorem Ensured.before {h h₁ h₂ : Host} (hfirst : Ensured config n type h h₁)
    (hsame : ∀ m, Plain m → h₂.tree.kind config m = h₁.tree.kind config m) :
    Ensured config n type h h₂ := by
  intro m hm
  rw [hsame m hm, hfirst m hm]

theorem looks_kind_setOptions {what : String → String} {ws : List (String × String)} :
    Within (Looks fun t => t.kind config m) (setOptions config ref what ws) :=
  within_forM fun _ => within_saying looks_kind_editSection

theorem looks_get_setOptions {what : String → String} {ws : List (String × String)}
    (h : ∀ w ∈ ws, w.1 ≠ o) :
    Within (Looks fun t => t.get config n o) (setOptions config ref what ws) :=
  within_forM_of_mem fun w hw => within_saying (looks_get_setType (h w hw))

/-- **A section is asked for and written to.** It is there afterwards,
whatever became of the asking. -/
theorem ensured_of_writes {what : String → String} {w : String × String}
    {ws : List (String × String)} {h h' : Host} (hn : Plain n) (htype : '[' ∉ type.toList)
    (hrun : setOptions config n what (w :: ws) (final (addSection config n type) h) = .ok () h')
    (os : List String) :
    Patched config ⟨n, w :: ws, []⟩ os h h' ∧ Ensured config n type h h' := by
  constructor
  · refine Patched.after (fun m o _ _ => ?_) (leaves_setOptions hn (w :: ws) _ os _ _ hrun)
    exact looks_get_addSection h
  · have hthere : (final (addSection config n type) h).tree.kind config n ≠ none := by
      obtain ⟨_, t, hfirst, -⟩ := bind_eq_ok.1 (show (saying (what w.1)
        (setType config n w.1 [w.2]) >>= fun _ => setOptions config n what ws) _ = _ from hrun)
      have hfind : Leaves (saying (what w.1) (setType config n w.1 [w.2]))
          (final (addSection config n type) h) fun _ _ =>
            (final (addSection config n type) h).tree.kind config n ≠ none := by
        rw [leaves_saying]
        refine leaves_editSection fun c tick hmem hfind => ?_
        rw [Tree.kind_of_mem hmem]
        simpa [Option.isSome_iff_ne_none] using hfind
      exact hfind _ _ hfirst
    intro m hm
    have hsame : h'.tree.kind config m = (final (addSection config n type) h).tree.kind config m :=
      looks_kind_setOptions.ok hrun
    rw [hsame]
    by_cases hmn : m = n
    · subst hmn
      rw [if_pos rfl]
      rcases kind_addSection hn htype h with hkeep | ⟨hnone, hnew⟩
      · rw [hkeep] at hthere ⊢
        obtain ⟨k, hk⟩ := Option.ne_none_iff_exists'.1 hthere
        rw [hk]
        rfl
      · rw [hnew, hnone]
        rfl
    · rw [if_neg hmn]
      exact looks_kind_addSection hm hmn h

end Uci

end OpenManet
