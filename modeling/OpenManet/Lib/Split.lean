import Mathlib.Data.List.Basic
/-!
# Texts cut at a separator

Finding, containing and splitting for texts over any alphabet, as string
libraries have them: the first occurrence, the pieces between occurrences that
do not overlap, and two pieces cut at the first one.
-/

namespace OpenManet

namespace Split

variable {α : Type*} [DecidableEq α]

/-- Where a text is found first. -/
def index? (sub : List α) : List α → Option ℕ
  | [] => if sub = [] then some 0 else none
  | a :: s => if sub.isPrefixOf (a :: s) then some 0 else (index? sub s).map (· + 1)

def contains (sub s : List α) : Bool := (index? sub s).isSome

/-- The two pieces at the first occurrence, or the text. -/
def cut (sep s : List α) : List (List α) :=
  match index? sep s with
  | none => [s]
  | some i => [s.take i, s.drop (i + sep.length)]

/-- The pieces, with one begun, within an occurrence `skip` letters of which are
left. -/
def piecesFrom (sep : List α) : List α → ℕ → List α → List (List α)
  | piece, _, [] => [piece]
  | piece, skip + 1, _ :: s => piecesFrom sep piece skip s
  | piece, 0, a :: s =>
    if sep.isPrefixOf (a :: s) then piece :: piecesFrom sep [] (sep.length - 1) s
    else piecesFrom sep (piece ++ [a]) 0 s

/-- The pieces between the occurrences of a separator that is not empty. -/
def pieces (sep s : List α) : List (List α) := piecesFrom sep [] 0 s

variable {sub s : List α} {i : ℕ}

/-! ## The first occurrence -/

/-- What is found is there, whole. -/
theorem prefix_of_index? (h : index? sub s = some i) : sub <+: s.drop i := by
  induction s generalizing i with
  | nil =>
      simp only [index?, Option.ite_none_right_eq_some] at h
      exact h.1 ▸ List.nil_prefix
  | cons a s ih =>
      unfold index? at h
      split_ifs at h with hpre
      · obtain rfl := Option.some.inj h
        exact List.isPrefixOf_iff_prefix.1 hpre
      · obtain ⟨j, hj, rfl⟩ := Option.map_eq_some_iff.1 h
        exact ih hj

/-- It ends within the text. -/
theorem le_of_index? (h : index? sub s = some i) : i + sub.length ≤ s.length := by
  induction s generalizing i with
  | nil =>
      simp only [index?, Option.ite_none_right_eq_some, Option.some.injEq] at h
      obtain ⟨rfl, rfl⟩ := h
      exact Nat.le_refl 0
  | cons a s ih =>
      unfold index? at h
      split_ifs at h with hpre
      · obtain rfl := Option.some.inj h
        rw [Nat.zero_add]
        exact (List.isPrefixOf_iff_prefix.1 hpre).length_le
      · obtain ⟨j, hj, rfl⟩ := Option.map_eq_some_iff.1 h
        have hle := ih hj
        rw [List.length_cons]
        omega

theorem mem_of_index? (h : index? sub s = some i) {a : α} (ha : a ∈ sub) : a ∈ s :=
  List.mem_of_mem_drop ((prefix_of_index? h).subset ha)

/-! ## Pieces -/

/-- The pieces are all of a text but its separators. -/
theorem flatten_splitOn (s : List α) (sep : α) : (s.splitOn sep).flatten = s.filter (· ≠ sep) := by
  induction s with
  | nil => rfl
  | cons a s ih =>
      rw [List.splitOn_cons_eq_if_modifyHead]
      by_cases hsep : a = sep
      · subst hsep
        simpa using ih
      · obtain ⟨piece, pieces, hsplit⟩ := List.exists_cons_of_ne_nil (List.splitOn_ne_nil sep s)
        rw [hsplit, List.flatten_cons] at ih
        have ha : (a == sep) = false := by simpa using hsep
        simp [ha, hsplit, hsep, ih]

theorem mem_of_mem_splitOn {sep a : α} {piece : List α} (h : piece ∈ s.splitOn sep)
    (ha : a ∈ piece) : a ∈ s := by
  have hall : a ∈ (s.splitOn sep).flatten := List.mem_flatten.2 ⟨piece, h, ha⟩
  rw [flatten_splitOn] at hall
  exact List.mem_of_mem_filter hall

/-! ## Two separators in a row -/

/-- **Pieces between empty lines**: apart from empty ones, their lines are the
lines of the text. -/
theorem mem_splitOn_piecesFrom {nl : α} {line : List α} (hne : line ≠ []) :
    ∀ (n : ℕ) (piece s : List α), s.length ≤ n →
      ((∃ b ∈ piecesFrom [nl, nl] piece 0 s, line ∈ b.splitOn nl) ↔
        line ∈ (piece ++ s).splitOn nl) := by
  intro n
  induction n with
  | zero =>
      intro piece s hs
      obtain rfl := List.length_eq_zero_iff.1 (Nat.le_zero.1 hs)
      simp [piecesFrom]
  | succ n ih =>
      intro piece s hs
      cases s with
      | nil => simp [piecesFrom]
      | cons a s =>
          rw [List.length_cons] at hs
          unfold piecesFrom
          split_ifs with hpre
          · obtain ⟨rest, hrest⟩ := List.isPrefixOf_iff_prefix.1 hpre
            simp only [List.cons_append, List.nil_append, List.cons.injEq] at hrest
            obtain ⟨rfl, rfl⟩ := hrest
            rw [List.length_cons] at hs
            have hrest := ih [] rest (by omega)
            rw [List.nil_append] at hrest
            simp only [List.length_cons, List.length_nil, Nat.reduceAdd, Nat.add_one_sub_one,
              piecesFrom, List.exists_mem_cons_iff, hrest, List.splitOn_append_cons_self,
              List.mem_append]
            have hempty : line ∉ (nl :: rest).splitOn nl ↔ line ∉ rest.splitOn nl := by
              have hcons := List.splitOn_append_cons_self (a := nl) [] rest
              rw [List.nil_append] at hcons
              rw [hcons]
              simp [hne]
            rw [not_iff_not] at hempty
            rw [hempty]
          · rw [ih (piece ++ [a]) s (by omega), List.append_assoc, List.singleton_append]

theorem mem_splitOn_pieces {nl : α} {line : List α} (hne : line ≠ []) (s : List α) :
    (∃ b ∈ pieces [nl, nl] s, line ∈ b.splitOn nl) ↔ line ∈ s.splitOn nl :=
  mem_splitOn_piecesFrom hne s.length [] s (Nat.le_refl _)

end Split

end OpenManet
