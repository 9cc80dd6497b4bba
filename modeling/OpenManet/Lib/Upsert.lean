import OpenManet.Lib.Loop
import Mathlib.Data.List.Induction
/-!
# Upserts

A table that is written by upserts: a write makes the entry of its key from
the entry that was there. A loop of such writes acts on each key alone, so a
key ends with what the last write that names it made of it, and a write has no
bearing on the other keys.
-/

namespace OpenManet

namespace Table

variable {α β γ : Type*} {m : Table α} {k k' : String}

/-- The entry of a key is made from the one that was there. -/
def upsert (m : Table α) (k : String) (f : Option α → α) : Table α :=
  m.insert k (f (m.lookup k))

theorem lookup_upsert (f : Option α → α) :
    (m.upsert k f).lookup k' = if k = k' then some (f (m.lookup k)) else m.lookup k' := by
  by_cases h : k = k'
  · subst h
    rw [upsert, AList.lookup_insert, if_pos rfl]
  · rw [upsert, AList.lookup_insert_ne (Ne.symm h), if_neg h]

/-! ## The last of a key -/

section Last

variable {key : β → String} {l : List β} {b : β}

/-- The last of a list under a key. -/
def lastFor (key : β → String) (k : String) (l : List β) : Option β :=
  (l.filter fun b => key b = k).getLast?

theorem lastFor_concat :
    lastFor key k (l ++ [b]) = if key b = k then some b else lastFor key k l := by
  by_cases h : key b = k
  · simp [lastFor, h]
  · simp [lastFor, h]

theorem lastFor_eq_none : lastFor key k l = none ↔ ∀ b ∈ l, key b ≠ k := by
  rw [lastFor, List.getLast?_eq_none_iff, List.filter_eq_nil_iff]
  simp

/-- The last under a key is of the list, and has the key. -/
theorem mem_of_lastFor (h : lastFor key k l = some b) : b ∈ l ∧ key b = k := by
  have hmem := List.mem_of_getLast? h
  simpa using List.mem_filter.1 hmem

/-- There is a last one under the key of each. -/
theorem lastFor_of_mem (h : b ∈ l) : ∃ b', lastFor key (key b) l = some b' :=
  Option.ne_none_iff_exists'.1 fun hnone => lastFor_eq_none.1 hnone b h rfl

/-- Where some of a list are made into others that keep the key, the last
under a key stays the last, if it is one of them. -/
theorem lastFor_filterMap {g : β → Option γ} {key' : γ → String} {c : γ}
    (hkey : ∀ b c, g b = some c → key' c = key b) (h : lastFor key k l = some b)
    (hc : g b = some c) : lastFor key' k (l.filterMap g) = some c := by
  induction l using List.reverseRecOn with
  | nil => cases h
  | append_singleton l x ih =>
    rw [lastFor_concat] at h
    rw [List.filterMap_append]
    by_cases hx : key x = k
    · rw [if_pos hx] at h
      obtain rfl := Option.some.inj h
      have hsingle : [x].filterMap g = [c] := by simp [hc]
      rw [hsingle, lastFor_concat, if_pos ((hkey x c hc).trans hx)]
    · rw [if_neg hx] at h
      cases hg : g x with
      | none =>
        have hsingle : [x].filterMap g = [] := by simp [hg]
        rw [hsingle, List.append_nil]
        exact ih h
      | some d =>
        have hsingle : [x].filterMap g = [d] := by simp [hg]
        have hd : key' d ≠ k := fun heq => hx ((hkey x d hg).symm.trans heq)
        rw [hsingle, lastFor_concat, if_neg hd]
        exact ih h

end Last

/-! ## A loop of upserts -/

section Loop

variable {key : β → String} {f : β → Option α → α} {l l' : List β}

/-- A loop of upserts: the key each write names, and what it makes of the
entry. -/
def upserts (key : β → String) (f : β → Option α → α) (l : List β) (m : Table α) : Table α :=
  l.foldl (fun m b => m.upsert (key b) (f b)) m

theorem upserts_concat (b : β) :
    upserts key f (l ++ [b]) m = (upserts key f l m).upsert (key b) (f b) := by
  rw [upserts, List.foldl_append]
  rfl

/-- The entry of a key is what the writes that name it make of it, one after
the other. -/
theorem lookup_upserts :
    (upserts key f l m).lookup k =
      (l.filter fun b => key b = k).foldl (fun e b => some (f b e)) (m.lookup k) := by
  have hturn : ∀ m : Table α, ∀ b ∈ l, (m.upsert (key b) (f b)).lookup k =
      if decide (key b = k) = true then some (f b (m.lookup k)) else m.lookup k := by
    intro m b _
    rw [lookup_upsert]
    by_cases h : key b = k
    · subst h
      simp
    · simp [h]
  rw [upserts, List.foldl_filter]
  exact lookup_foldl hturn

/-- Two loops with the same writes for a key leave it the same entry. -/
theorem lookup_upserts_congr (h : (l.filter fun b => key b = k) = l'.filter fun b => key b = k) :
    (upserts key f l m).lookup k = (upserts key f l' m).lookup k := by
  rw [lookup_upserts, lookup_upserts, h]

/-- **A key ends with the last write that names it**, in whatever of the entry
the write alone decides. -/
theorem map_lookup_upserts {g : α → γ} {h : β → γ} (hg : ∀ b e, g (f b e) = h b) :
    ((upserts key f l m).lookup k).map g =
      ((lastFor key k l).map h).or ((m.lookup k).map g) := by
  induction l using List.reverseRecOn with
  | nil => rfl
  | append_singleton l b ih =>
    rw [upserts_concat, lookup_upsert, lastFor_concat]
    by_cases hb : key b = k
    · rw [if_pos hb, if_pos hb, Option.map_some, Option.map_some, hg, Option.some_or]
    · rw [if_neg hb, if_neg hb, ih]

end Loop

/-! ## Deletes -/

/-- The entries that pass a test. -/
def restrict (p : String → α → Bool) (m : Table α) : Table α :=
  ⟨m.entries.filter fun e => p e.1 e.2, m.nodupKeys.sublist List.filter_sublist⟩

/-- A test that all entries pass deletes none. -/
theorem restrict_eq {p : String → α → Bool} (h : All (fun k v => p k v = true) m) :
    m.restrict p = m := by
  refine AList.ext (List.filter_eq_self.2 fun e he => h e.1 e.2 ?_)
  exact AList.mem_lookup_iff.2 he

end Table

end OpenManet
