import OpenManet.Lib.Uci.Again
/-!
# A section worked on

Edits made one after the other at one address are one edit. A list of writes
comes to what was written last to each option, and written again it says
nothing new.
-/

namespace OpenManet

namespace Uci

open Fallible

variable {c : Config} {config ref : String} {ws ws' : List (String × List String)} {os : List String}
  {f g : Table (List String) → Table (List String)} {h : Host} {e : Nat × Section} {α : Type}

/-! ## Edits of options -/

/-- Options written one after the other. -/
def putAll (ws : List (String × List String)) (t : Table (List String)) : Table (List String) :=
  ws.foldl (fun t w => t.insert w.1 w.2) t

/-- Options dropped one after the other. -/
def dropAll (os : List String) (t : Table (List String)) : Table (List String) :=
  os.foldl (fun t o => t.erase o) t

/-- What was written last to an option. -/
def lastPut : List (String × List String) → String → Option (List String)
  | [], _ => none
  | w :: ws, o => (lastPut ws o).or (if w.1 = o then some w.2 else none)

theorem lookup_putAll (ws : List (String × List String)) (t : Table (List String)) (o : String) :
    (putAll ws t).lookup o = (lastPut ws o).or (t.lookup o) := by
  induction ws generalizing t with
  | nil => rfl
  | cons w ws ih =>
      show (putAll ws (t.insert w.1 w.2)).lookup o = _
      rw [ih, lastPut, Option.or_assoc]
      by_cases hw : w.1 = o
      · subst hw
        rw [AList.lookup_insert, if_pos rfl, Option.some_or]
      · rw [AList.lookup_insert_ne (Ne.symm hw), if_neg hw, Option.none_or]

theorem lookup_dropAll (os : List String) (t : Table (List String)) (o : String) :
    (dropAll os t).lookup o = if o ∈ os then none else t.lookup o := by
  induction os generalizing t with
  | nil => rfl
  | cons a os ih =>
      show (dropAll os (t.erase a)).lookup o = _
      rw [ih]
      by_cases hrest : o ∈ os
      · simp [hrest]
      · by_cases ha : o = a
        · subst ha
          simp
        · simp [hrest, ha, AList.lookup_erase_ne ha]

theorem lastPut_append (ws ws' : List (String × List String)) (o : String) :
    lastPut (ws ++ ws') o = (lastPut ws' o).or (lastPut ws o) := by
  induction ws with
  | nil => simp [lastPut]
  | cons w ws ih => simp [lastPut, ih, Option.or_assoc]

theorem mem_of_lastPut {o : String} {v : List String} (h : lastPut ws o = some v) :
    (o, v) ∈ ws := by
  induction ws with
  | nil => cases h
  | cons w ws ih =>
      rw [lastPut, Option.or_eq_some_iff] at h
      rcases h with hlast | ⟨-, hfirst⟩
      · exact List.mem_cons_of_mem _ (ih hlast)
      · split at hfirst
        · next hw =>
          obtain rfl := Option.some.inj hfirst
          subst hw
          exact List.mem_cons_self ..
        · cases hfirst

theorem lastPut_eq_none {o : String} (h : ∀ w ∈ ws, w.1 ≠ o) : lastPut ws o = none := by
  cases hlast : lastPut ws o with
  | none => rfl
  | some v => exact absurd rfl (h _ (mem_of_lastPut hlast))

/-- Where no option is written twice, the order does not matter. -/
theorem lastPut_perm {o : String} (hkeys : ws.Pairwise fun w w' => w.1 ≠ w'.1)
    (hperm : ws'.Perm ws) : lastPut ws' o = lastPut ws o := by
  have hsymm : Std.Symm fun w w' : String × List String => w.1 ≠ w'.1 := ⟨fun _ _ h => h.symm⟩
  have hone : ∀ v v', (o, v) ∈ ws → (o, v') ∈ ws → v = v' := by
    intro v v' hv hv'
    by_contra hne
    exact hkeys.forall hv hv' (fun heq => hne (Prod.mk.inj heq).2) rfl
  have hsome : ∀ ws : List (String × List String), ∀ v, (o, v) ∈ ws → lastPut ws o ≠ none := by
    intro ws v hv hnone
    induction ws with
    | nil => cases hv
    | cons w ws ih =>
        rw [lastPut, Option.or_eq_none_iff] at hnone
        rcases List.mem_cons.1 hv with rfl | hv
        · simp at hnone
        · exact ih hv hnone.1
  cases hold : lastPut ws o with
  | none =>
      cases hnew : lastPut ws' o with
      | none => rfl
      | some v => exact absurd hold (hsome ws v (hperm.subset (mem_of_lastPut hnew)))
  | some v =>
      cases hnew : lastPut ws' o with
      | none => exact absurd hnew (hsome ws' v (hperm.symm.subset (mem_of_lastPut hold)))
      | some v' => rw [hone v' v (hperm.subset (mem_of_lastPut hnew)) (mem_of_lastPut hold)]

/-! ## Edits of one section -/

namespace Config

theorem update_id (c : Config) (ref : String) : c.update ref id = c := by
  have hsections : (c.update ref id).sections = c.sections := by
    conv_rhs => rw [← entries_snd c]
    exact List.map_congr_left fun e _ => by split <;> rfl
  exact mk.injEq .. ▸ hsections

/-- **Edits at one address are one edit.** -/
theorem update_update (c : Config) (ref : String) (f g : Table (List String) → Table (List String)) :
    (c.update ref f).update ref g = c.update ref (g ∘ f) := by
  have hsections : ((c.update ref f).update ref g).sections = (c.update ref (g ∘ f)).sections := by
    show ((c.update ref f).entries.map _) = c.entries.map _
    rw [entries_update, List.map_map]
    refine List.map_congr_left fun e _ => ?_
    cases hans : answers ref e with
    | true =>
        have hans' : answers ref (e.1, e.2.edit f) = true := hans
        simp only [Function.comp_apply, hans, if_true, hans']
        rfl
    | false => simp [hans]
  exact mk.injEq .. ▸ hsections

/-- An edit that says nothing new. -/
theorem alike_update (he : e ∈ c.entries)
    (hsame : ∀ o, (f e.2.options).lookup o = e.2.options.lookup o) :
    c.Alike (c.update (ownRef e) f) := by
  obtain ⟨a, b, hsplit⟩ := List.append_of_mem he
  have hentries := entries_update_ownRef (f := f) hsplit
  unfold Alike
  rw [sections_of_split hsplit, sections_of_split hentries]
  refine List.rel_append (List.forall₂_same.2 fun _ _ => .rfl) (.cons ⟨rfl, rfl, fun o => ?_⟩
    (List.forall₂_same.2 fun _ _ => .rfl))
  show (e.2.options.lookup o).getD [] = ((f e.2.options).lookup o).getD []
  rw [hsame]

end Config

/-! ## Loops over one section -/

theorem sure_update (hmem : h.tree.mem config = some (c.update ref f))
    (hfind : (c.find ref).isSome = true) :
    Sure (editSection config ref g) h fun _ h' =>
      h'.tree.mem config = some (c.update ref (g ∘ f)) := by
  refine (sure_editSection hmem (by rwa [Config.find_update_isSome])).mono fun _ h' htree => ?_
  rw [htree, Tree.stage_mem, Config.update_update]

theorem sure_putAll {what : α → String} {key : α → String} {values : α → List String} {l : List α}
    (hmem : h.tree.mem config = some (c.update ref f)) (hfind : (c.find ref).isSome = true) :
    Sure (l.forM fun a => saying (what a) (setType config ref (key a) (values a))) h fun _ h' =>
      h'.tree.mem config = some (c.update ref (putAll (l.map fun a => (key a, values a)) ∘ f)) := by
  induction l generalizing h f with
  | nil => exact sure_pure hmem
  | cons a l ih => exact (sure_update hmem hfind).saying.bind fun _ h' hmem' => ih hmem'

theorem sure_dropAll {what : String → String} (hmem : h.tree.mem config = some (c.update ref f))
    (hfind : (c.find ref).isSome = true) :
    Sure (os.forM fun o => saying (what o) (del config ref o)) h fun _ h' =>
      h'.tree.mem config = some (c.update ref (dropAll os ∘ f)) := by
  induction os generalizing h f with
  | nil => exact sure_pure hmem
  | cons a os ih => exact (sure_update hmem hfind).saying.bind fun _ h' hmem' => ih hmem'

end Uci

end OpenManet
