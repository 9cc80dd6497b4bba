import OpenManet.Lib.Table
import Mathlib.Data.List.Perm.Basic
/-!
# Loops over tables

A loop that walks a table and builds another one. Where each turn treats the
entry under a key by itself, the entry is what a loop over that entry alone
makes of it, and the order of the walk is an order of the turns at that key.
So it is enough that the turns commute there: that they write the same, or
that one of them does nothing.
-/

namespace OpenManet

namespace Table

variable {α β γ : Type*} {m m' m'' : Table α} {k : String} {l l' : List β}

/-! ## The same entries -/

/-- **Two tables with the same entries**, however they are stored. -/
def Same (m m' : Table α) : Prop := ∀ k, m.lookup k = m'.lookup k

theorem Same.refl (m : Table α) : Same m m := fun _ => rfl

theorem Same.mem_iff (h : Same m m') : k ∈ m ↔ k ∈ m' := by
  rw [← AList.lookup_isSome, ← AList.lookup_isSome, h k]

theorem Same.get {m m' : Table String} (h : Same m m') (k : String) : m.get k = m'.get k := by
  rw [Table.get, Table.get, h k]

theorem Same.keys_perm (h : Same m m') : m.keys.Perm m'.keys := by
  refine (List.perm_ext_iff_of_nodup m.keys_nodup m'.keys_nodup).2 fun k => ?_
  rw [← AList.mem_keys, ← AList.mem_keys]
  exact h.mem_iff

theorem Same.insert (h : Same m m') (k : String) (v : α) : Same (m.insert k v) (m'.insert k v) := by
  intro k'
  by_cases hk : k' = k
  · subst hk
    rw [AList.lookup_insert, AList.lookup_insert]
  · rw [AList.lookup_insert_ne hk, AList.lookup_insert_ne hk, h k']

theorem Same.erase (h : Same m m') (k : String) : Same (m.erase k) (m'.erase k) := by
  intro k'
  by_cases hk : k' = k
  · subst hk
    rw [AList.lookup_erase, AList.lookup_erase]
  · rw [AList.lookup_erase_ne hk, AList.lookup_erase_ne hk, h k']

/-- **Two walks** over the same entries visit the same. -/
theorem Same.range_perm (h : Same m m') {order order' : List String → List String}
    (hperm : ∀ keys, (order keys).Perm keys) (hperm' : ∀ keys, (order' keys).Perm keys) :
    (range order m).Perm (range order' m') := by
  unfold range
  have hkeys : (order m.keys).Perm (order' m'.keys) :=
    (hperm _).trans (h.keys_perm.trans (hperm' _).symm)
  simp only [h _]
  exact hkeys.filterMap _

/-! ## Key by key -/

/-- A loop each of whose turns treats the entry under a key by itself. -/
theorem lookup_foldl {f : Table α → β → Table α} {g : Option α → β → Option α}
    (hf : ∀ m, ∀ b ∈ l, (f m b).lookup k = g (m.lookup k) b) :
    (l.foldl f m).lookup k = l.foldl g (m.lookup k) := by
  induction l generalizing m with
  | nil => rfl
  | cons b l ih =>
      rw [List.foldl_cons, List.foldl_cons, ih fun m b' hb' => hf m b' (List.mem_cons_of_mem b hb'),
        hf m b List.mem_cons_self]

/-- **The last turn.** A loop leaves under a key what the last turn to write
there wrote. -/
theorem lookup_foldl_last {f : Table α → β → Table α} {w : β → Option α}
    (hf : ∀ m, ∀ b ∈ l, (f m b).lookup k = (w b).or (m.lookup k)) :
    (l.foldl f m).lookup k = (l.reverse.findSome? w).or (m.lookup k) := by
  induction l generalizing m with
  | nil => rfl
  | cons b l ih =>
      rw [List.foldl_cons, ih fun m b' hb' => hf m b' (List.mem_cons_of_mem b hb'),
        hf m b List.mem_cons_self, List.reverse_cons, List.findSome?_append,
        List.findSome?_singleton, Option.or_assoc]

/-- **The order does not matter** where the turns commute under every key. -/
theorem foldl_same {f : Table α → β → Table α} {g : String → Option α → β → Option α}
    (h : Same m m') (hperm : l.Perm l')
    (hf : ∀ k m, ∀ b ∈ l, (f m b).lookup k = g k (m.lookup k) b)
    (hcomm : ∀ k o, ∀ b ∈ l, ∀ b' ∈ l, g k (g k o b) b' = g k (g k o b') b) :
    Same (l.foldl f m) (l'.foldl f m') := by
  intro k
  rw [lookup_foldl (hf k), lookup_foldl fun m b hb => hf k m b (hperm.mem_iff.2 hb), h k]
  exact hperm.foldl_eq' (fun b hb b' hb' o => hcomm k o b hb b' hb') _

/-- **Two loops over one list** whose turns keep tables the same. -/
theorem foldl_same_of_turn {f f' : Table α → β → Table α} (h : Same m' m)
    (hturn : ∀ m m', Same m' m → ∀ b ∈ l, Same (f' m' b) (f m b)) :
    Same (l.foldl f' m') (l.foldl f m) := by
  induction l generalizing m m' with
  | nil => exact h
  | cons b l ih =>
      exact ih (hturn m m' h b List.mem_cons_self)
        fun m m' h b' hb' => hturn m m' h b' (List.mem_cons_of_mem b hb')

/-- A loop whose turns write one value or nothing under a key. -/
theorem lookup_foldl_const {f : Table α → β → Table α} (writes : β → Prop) [DecidablePred writes]
    (v : α) (hf : ∀ m, ∀ b ∈ l, (f m b).lookup k = if writes b then some v else m.lookup k) :
    (l.foldl f m).lookup k = if ∃ b ∈ l, writes b then some v else m.lookup k := by
  induction l generalizing m with
  | nil => simp
  | cons b l ih =>
      rw [List.foldl_cons, ih fun m b' hb' => hf m b' (List.mem_cons_of_mem b hb'),
        hf m b List.mem_cons_self]
      by_cases hb : writes b <;> simp [hb]

/-- A turn that writes under a key, where all that do write the same. -/
theorem lookup_foldl_of_writes {f : Table α → β → Table α} {w : β → Option α} {v : α}
    (hf : ∀ m, ∀ b ∈ l, (f m b).lookup k = (w b).or (m.lookup k))
    (hv : ∀ b ∈ l, ∀ v', w b = some v' → v' = v) (hw : ∃ b ∈ l, w b = some v) :
    (l.foldl f m).lookup k = some v := by
  obtain ⟨b, hb, hwb⟩ := hw
  rw [lookup_foldl_last hf]
  cases hlast : l.reverse.findSome? w with
  | none =>
      have hsilent := List.findSome?_eq_none_iff.1 hlast b (List.mem_reverse.2 hb)
      rw [hwb] at hsilent
      cases hsilent
  | some v' =>
      obtain ⟨b', hb', hwb'⟩ := List.exists_of_findSome?_eq_some hlast
      rw [hv b' (List.mem_reverse.1 hb') v' hwb']
      rfl

/-- No turn writes under the key. -/
theorem lookup_foldl_of_silent {f : Table α → β → Table α} {w : β → Option α}
    (hf : ∀ m, ∀ b ∈ l, (f m b).lookup k = (w b).or (m.lookup k)) (hw : ∀ b ∈ l, w b = none) :
    (l.foldl f m).lookup k = m.lookup k := by
  have hsilent : l.reverse.findSome? w = none :=
    List.findSome?_eq_none_iff.2 fun b hb => hw b (List.mem_reverse.1 hb)
  rw [lookup_foldl_last hf, hsilent, Option.none_or]

theorem lookup_insert_eq (m : Table α) (k k' : String) (v : α) :
    (m.insert k v).lookup k' = if k' = k then some v else m.lookup k' := by
  split
  · next hk => rw [hk, AList.lookup_insert]
  · next hk => rw [AList.lookup_insert_ne hk]

/-! ## Turns under their own keys -/

/-- A loop that labels the keys of a list. -/
theorem lookup_foldl_label (g : String → α) (l : List String) (m : Table α) (k : String) :
    (l.foldl (fun m p => m.insert p (g p)) m).lookup k = if k ∈ l then some (g k) else m.lookup k := by
  induction l generalizing m with
  | nil => rfl
  | cons p l ih =>
    rw [List.foldl_cons, ih, lookup_insert_eq]
    by_cases hl : k ∈ l
    · rw [if_pos hl, if_pos (List.mem_cons_of_mem p hl)]
    · by_cases hp : k = p
      · rw [if_neg hl, if_pos hp, if_pos (hp ▸ List.mem_cons_self), hp]
      · rw [if_neg hl, if_neg hp, if_neg fun hk => (List.mem_cons.1 hk).elim hp hl]

/-- A loop whose turns each fill in under their own key. -/
theorem lookup_foldl_or {f : Table α → String → Table α} {g : String → Option α}
    {k : String} (hf : ∀ m p, (f m p).lookup k = (m.lookup k).or (if k = p then g k else none))
    (l : List String) (m : Table α) :
    (l.foldl f m).lookup k = (m.lookup k).or (if k ∈ l then g k else none) := by
  induction l generalizing m with
  | nil => simp
  | cons p l ih =>
    rw [List.foldl_cons, ih, hf, Option.or_assoc]
    congr 1
    by_cases hk : k = p
    · subst hk
      rw [if_pos rfl, if_pos List.mem_cons_self]
      split
      · exact Option.or_self
      · exact Option.or_none
    · rw [if_neg hk, Option.none_or]
      by_cases hl : k ∈ l
      · rw [if_pos hl, if_pos (List.mem_cons_of_mem p hl)]
      · rw [if_neg hl, if_neg fun hmem => (List.mem_cons.1 hmem).elim hk hl]

theorem lookup_foldl_erase (P : String → Prop) [DecidablePred P] (l : List String)
    (m : Table α) (k : String) :
    (l.foldl (fun m p => if P p then m else m.erase p) m).lookup k =
      if k ∈ l ∧ ¬ P k then none else m.lookup k := by
  induction l generalizing m with
  | nil => simp
  | cons p l ih =>
    rw [List.foldl_cons, ih]
    by_cases hl : k ∈ l ∧ ¬ P k
    · rw [if_pos hl, if_pos ⟨List.mem_cons_of_mem p hl.1, hl.2⟩]
    · rw [if_neg hl]
      by_cases hp : P p
      · rw [if_pos hp, if_neg]
        rintro ⟨hk, hnot⟩
        rcases List.mem_cons.1 hk with rfl | hk
        · exact hnot hp
        · exact hl ⟨hk, hnot⟩
      · rw [if_neg hp]
        by_cases hk : k = p
        · subst hk
          rw [AList.lookup_erase, if_pos ⟨List.mem_cons_self, hp⟩]
        · rw [AList.lookup_erase_ne hk, if_neg]
          rintro ⟨hmem, hnot⟩
          exact hl ⟨(List.mem_cons.1 hmem).resolve_left hk, hnot⟩

/-- Two tables with the same entry under a key both have the key or not. -/
theorem mem_iff_of_lookup {m m' : Table α} (h : (m.lookup k).isSome = (m'.lookup k).isSome) :
    k ∈ m ↔ k ∈ m' := by
  rw [← AList.lookup_isSome, ← AList.lookup_isSome, h]

/-- A loop each of whose turns brings keys brings all of them. -/
theorem mem_foldl_iff {l : List β} {f : Table α → β → Table α} {W : β → Prop}
    {m : Table α} (hf : ∀ m, ∀ b ∈ l, k ∈ f m b ↔ k ∈ m ∨ W b) :
    k ∈ l.foldl f m ↔ k ∈ m ∨ ∃ b ∈ l, W b := by
  induction l generalizing m with
  | nil => simp
  | cons b l ih =>
    rw [List.foldl_cons, ih fun m b' hb' => hf m b' (List.mem_cons_of_mem b hb'),
      hf m b List.mem_cons_self, List.exists_mem_cons_iff, or_assoc]

end Table

/-! ## The first that fits -/

theorem findSome?_ite {α β : Type*} {l : List β} {p : β → Prop} [DecidablePred p] {g : β → α} :
    (l.findSome? fun b => if p b then some (g b) else none) =
      (l.find? fun b => decide (p b)).map g := by
  induction l with
  | nil => rfl
  | cons b l ih =>
      rw [List.findSome?_cons, List.find?_cons]
      by_cases hb : p b
      · rw [if_pos hb, decide_eq_true hb]
        rfl
      · rw [if_neg hb, decide_eq_false hb]
        exact ih

/-- What a search finds in lists with the same elements, where at most one of
them fits. -/
theorem find?_eq_of_unique {α : Type*} {p p' : α → Bool} {l l' : List α}
    (hmem : ∀ a, a ∈ l ↔ a ∈ l') (hp : ∀ a ∈ l, p a = p' a)
    (hunique : ∀ a ∈ l, ∀ b ∈ l, p a = true → p b = true → a = b) : l.find? p = l'.find? p' := by
  cases hfind : l.find? p with
  | none =>
      rw [List.find?_eq_none] at hfind
      rw [eq_comm, List.find?_eq_none]
      intro a ha
      rw [← hp a ((hmem a).2 ha)]
      exact hfind a ((hmem a).2 ha)
  | some a =>
      have ha := List.mem_of_find?_eq_some hfind
      have hpa := List.find?_some hfind
      cases hfind' : l'.find? p' with
      | none =>
          rw [List.find?_eq_none] at hfind'
          exact absurd ((hp a ha).symm.trans hpa) (hfind' a ((hmem a).1 ha))
      | some b =>
          have hb := (hmem b).2 (List.mem_of_find?_eq_some hfind')
          have hpb := List.find?_some hfind'
          rw [hunique a ha b hb hpa ((hp b hb).trans hpb)]

end OpenManet
