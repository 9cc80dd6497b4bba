import OpenManet.Lib.Uci.Place
/-!
# Configs that say the same

Two configs are alike when they list the same sections, in the same order
and under the same addresses, and every option reads the same. That is what
a file says; the order in which a section has its options is not.
-/

namespace OpenManet

namespace Uci

/-- Two sections that say the same. -/
def Section.Alike (s t : Section) : Prop := s.type = t.type ∧ s.name = t.name ∧ ∀ o, s.get o = t.get o

@[simp] theorem Section.Alike.rfl {s : Section} : s.Alike s := ⟨.refl _, .refl _, fun _ => .refl _⟩

namespace Config

variable {c d : Config} {ref n i o type type' : String} {s : Section} {os : List String}
  {ws : List (String × String)}

/-- Two configs that say the same. -/
def Alike (c d : Config) : Prop := List.Forall₂ Section.Alike c.sections d.sections

@[simp] theorem Alike.rfl : c.Alike c := List.forall₂_same.2 fun _ _ => .rfl

theorem places_alike {l m : List Section} (h : List.Forall₂ Section.Alike l m) :
    ∀ seen, List.Forall₂ (fun e e' => e.1 = e'.1 ∧ e.2.Alike e'.2) (places seen l) (places seen m) := by
  induction h with
  | nil => exact fun _ => .nil
  | cons hab _ ih =>
      intro seen
      simp only [places, ← hab.1]
      exact .cons ⟨.refl _, hab⟩ (ih _)

/-- A search finds in either list what it finds in the other. -/
theorem find?_rel {α : Type} {R : α → α → Prop} {p : α → Bool} {l m : List α}
    (h : List.Forall₂ R l m) (hp : ∀ a b, R a b → p a = p b) :
    Option.Rel R (l.find? p) (m.find? p) := by
  induction h with
  | nil => exact .none
  | @cons a b l m hab _ ih =>
      rw [List.find?_cons, List.find?_cons, ← hp a b hab]
      cases p a with
      | true => exact .some hab
      | false => exact ih

/-- An address names sections that say the same, or none in either. -/
theorem Alike.find (h : c.Alike d) (ref : String) :
    Option.Rel Section.Alike (c.find ref) (d.find ref) := by
  have hsame : ∀ e e' : Nat × Section, e.1 = e'.1 ∧ e.2.Alike e'.2 →
      answers ref e = answers ref e' := by
    rintro e e' ⟨hplace, htype, hname, -⟩
    simp only [answers, hplace, htype, hname]
  have hrel := find?_rel (places_alike h []) hsame
  unfold Config.find Config.entries
  cases hc : (places [] c.sections).find? (answers ref) with
  | none =>
      rw [hc] at hrel
      cases hd : (places [] d.sections).find? (answers ref) with
      | none => exact .none
      | some e => rw [hd] at hrel; cases hrel
  | some e =>
      rw [hc] at hrel
      cases hd : (places [] d.sections).find? (answers ref) with
      | none => rw [hd] at hrel; cases hrel
      | some e' =>
          rw [hd] at hrel
          cases hrel with
          | some hee => exact .some hee.2

/-- **What says the same reads the same.** -/
theorem Alike.get (h : c.Alike d) (ref o : String) : c.get ref o = d.get ref o := by
  have hfind := h.find ref
  unfold Config.get
  cases hc : c.find ref with
  | none =>
      rw [hc] at hfind
      cases hd : d.find ref with
      | none => rfl
      | some t => rw [hd] at hfind; cases hfind
  | some s =>
      rw [hc] at hfind
      cases hd : d.find ref with
      | none => rw [hd] at hfind; cases hfind
      | some t =>
          rw [hd] at hfind
          cases hfind with
          | some hst => exact hst.2.2 o

/-- **Writing says nothing new where every option has its value already.** -/
theorem alike_writes_iff (hne : ref ≠ "") (hfind : c.find ref = some s)
    (hkeys : ws.Pairwise fun w w' => w.1 ≠ w'.1) :
    c.Alike (c.writes ref ws) ↔ ∀ w ∈ ws, c.get ref w.1 = [w.2] := by
  constructor
  · intro h w hw
    rw [h.get, get_writes_self (by rw [hfind]; rfl), lastWrite_of_mem hkeys hw]
    rfl
  · intro h
    have hsame : ∀ o, (s.writes ws).get o = s.get o := by
      intro o
      rw [Section.get_writes]
      cases hlast : lastWrite ws o with
      | none => rfl
      | some v =>
          have hold := h _ (mem_of_lastWrite hlast)
          rw [Config.get, hfind] at hold
          exact hold.symm
    have hentries := entries_writes c ref ws
    unfold Alike
    rw [← entries_snd c, ← entries_snd (c.writes ref ws), hentries, List.map_map,
      List.forall₂_map_left_iff, List.forall₂_map_right_iff, List.forall₂_same]
    intro e he
    by_cases hans : answers ref e = true
    · have hfirst : c.entries.find? (answers ref) = some e := by
        have hsome : (c.entries.find? (answers ref)).isSome = true := by
          rw [List.find?_isSome]
          exact ⟨e, he, hans⟩
        obtain ⟨e₂, he₂⟩ := Option.isSome_iff_exists.1 hsome
        rw [he₂, eq_of_answers_answers hne he (List.mem_of_find?_eq_some he₂) hans
          (List.find?_some he₂)]
      have hs : s = e.2 := by
        rw [Config.find, hfirst] at hfind
        exact (Option.some.inj hfind).symm
      subst hs
      simp only [Function.comp, hans, if_true]
      exact ⟨by simp, by simp, fun o => (hsame o).symm⟩
    · simp [hans]

/-- A section of another type is not listed. -/
theorem refs_ensure_of_ne (h : type' ≠ type) (c : Config) (n : String) :
    (c.ensure n type).refs type' = c.refs type' := by
  unfold ensure
  split
  · rfl
  · rcases entries_push c type n with hsame | ⟨k, hk⟩
    · rw [hsame]
    · simp [refs, hk, Ne.symm h]

/-! ## Options dropped -/

/-- The config with options of one section dropped one after the other. -/
def drops (c : Config) (ref : String) (os : List String) : Config :=
  os.foldl (fun c o => c.update ref fun t => t.erase o) c

@[simp] theorem drops_nil (c : Config) (ref : String) : c.drops ref [] = c := rfl

@[simp] theorem drops_cons (c : Config) (ref o : String) (os : List String) :
    c.drops ref (o :: os) = (c.update ref fun t => t.erase o).drops ref os := rfl

theorem drops_append (c : Config) (ref : String) (os os' : List String) :
    c.drops ref (os ++ os') = (c.drops ref os).drops ref os' := List.foldl_append

theorem find_drops_isSome (c : Config) (ref other : String) (os : List String) :
    ((c.drops ref os).find other).isSome = (c.find other).isSome := by
  induction os generalizing c with
  | nil => rfl
  | cons o os ih => rw [drops_cons, ih, find_update_isSome]

theorem refs_drops (c : Config) (ref : String) (os : List String) (type : String) :
    (c.drops ref os).refs type = c.refs type := by
  induction os generalizing c with
  | nil => rfl
  | cons o os ih => rw [drops_cons, ih, refs_update]

theorem get_drops_of_ne_ref (hi : i ∈ c.refs type) (href : ref ∈ c.refs type') (hne : i ≠ ref) :
    (c.drops ref os).get i o = c.get i o := by
  induction os generalizing c with
  | nil => rfl
  | cons a os ih =>
      rw [drops_cons, ih (by rwa [refs_update]) (by rwa [refs_update]),
        get_update_of_ne_ref hi href hne]

/-- **What is dropped is gone**, and the rest of the section stays. -/
theorem get_drops_self (hfind : c.find ref ≠ none) :
    (c.drops ref os).get ref o = if o ∈ os then [] else c.get ref o := by
  induction os generalizing c with
  | nil => rfl
  | cons a os ih =>
      obtain ⟨s, hs⟩ := Option.ne_none_iff_exists'.1 hfind
      have hnext : (c.update ref fun t => t.erase a).find ref ≠ none := by
        rw [find_update_self, hs]
        exact Option.some_ne_none _
      rw [drops_cons, ih hnext]
      by_cases hrest : o ∈ os
      · rw [if_pos hrest, if_pos (List.mem_cons_of_mem _ hrest)]
      · rw [if_neg hrest]
        by_cases ha : o = a
        · subst ha
          rw [if_pos (List.mem_cons_self ..), get_update_self hs, AList.lookup_erase]
          rfl
        · rw [if_neg (by simp [ha, hrest]),
            get_update_of_lookup (fun _ => AList.lookup_erase_ne ha)]

end Config

end Uci

end OpenManet
