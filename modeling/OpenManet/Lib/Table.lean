import Mathlib.Data.List.AList
/-!
# Tables

Maps from strings, as a program builds and walks them. A walk visits the
keys in an order it is given, and what is proved of it for every order holds
whatever order a run takes. `Table.All` is the invariant of a table that is
built entry by entry.
-/

namespace OpenManet

/-- A map from strings. -/
abbrev Table (α : Type*) := AList fun _ : String => α

namespace Table

variable {α β : Type*} {m : Table α} {k k' : String} {v v' : α}

/-- The entry under a key, or empty. -/
def get (m : Table String) (k : String) : String := (m.lookup k).getD ""

/-- The entries in the order of a walk. -/
def range (order : List String → List String) (m : Table α) : List (String × α) :=
  (order m.keys).filterMap fun k => (m.lookup k).map (k, ·)

/-- A walk visits the entries of the table. -/
theorem mem_range {order : List String → List String} (h : ∀ keys, (order keys).Perm keys) :
    (k, v) ∈ range order m ↔ m.lookup k = some v := by
  simp only [range, List.mem_filterMap, Option.map_eq_some_iff, (h m.keys).mem_iff]
  constructor
  · rintro ⟨k', -, w, hw, heq⟩
    obtain ⟨rfl, rfl⟩ := Prod.mk.inj heq
    exact hw
  · intro hv
    refine ⟨k, ?_, v, hv, rfl⟩
    rw [← AList.mem_keys, ← AList.lookup_isSome, hv]
    rfl

/-- A walk visits each key once. -/
theorem range_pairwise {order : List String → List String} (h : ∀ keys, (order keys).Perm keys) :
    (range order m).Pairwise fun e e' => e.1 ≠ e'.1 := by
  have hkeys : (order m.keys).Nodup := (h m.keys).nodup_iff.2 m.keys_nodup
  refine List.Pairwise.filterMap _ (fun k k' hne e he e' he' => ?_) hkeys
  obtain ⟨v, -, rfl⟩ := Option.map_eq_some_iff.1 he
  obtain ⟨v', -, rfl⟩ := Option.map_eq_some_iff.1 he'
  exact hne

/-- Every entry of the table is of a kind. -/
def All (P : String → α → Prop) (m : Table α) : Prop := ∀ k v, m.lookup k = some v → P k v

variable {P : String → α → Prop}

theorem All.empty : All P ∅ := by
  intro k v h
  rw [AList.lookup_empty] at h
  cases h

theorem All.insert (hm : All P m) (h : P k v) : All P (m.insert k v) := by
  intro k' v' hv
  by_cases hk : k' = k
  · subst hk
    rw [AList.lookup_insert] at hv
    obtain rfl := Option.some.inj hv
    exact h
  · rw [AList.lookup_insert_ne hk] at hv
    exact hm k' v' hv

/-- A loop that keeps the kind of a table keeps it to the end. -/
theorem All.foldl {l : List β} {f : Table α → β → Table α} (hm : All P m)
    (hf : ∀ m, All P m → ∀ b ∈ l, All P (f m b)) : All P (l.foldl f m) :=
  List.foldlRecOn l f hm hf

/-- A loop that keeps a key keeps it to the end. -/
theorem mem_foldl {l : List β} {f : Table α → β → Table α} (hk : k ∈ m)
    (hf : ∀ m, k ∈ m → ∀ b ∈ l, k ∈ f m b) : k ∈ l.foldl f m :=
  List.foldlRecOn (motive := fun m => k ∈ m) l f hk hf

theorem mem_insert_of_mem (hk : k ∈ m) (k' : String) (v : α) : k ∈ m.insert k' v :=
  (AList.mem_insert m).2 (.inr hk)

end Table

end OpenManet
