import Mathlib.Data.List.Basic
import Mathlib.Data.String.Basic
/-!
# Text

The string functions programs compare configuration values with, on the
characters of the string.
-/

namespace OpenManet

namespace Text

/-- A rune under simple case folding, as far as it meets the ASCII letters:
the long s folds to `s` and the Kelvin sign to `k`. -/
def foldRune (c : Char) : Char :=
  if 'A' ≤ c ∧ c ≤ 'Z' then Char.ofNat (c.toNat + 32)
  else if c = 'ſ' then 's'
  else if c = '\u212A' then 'k'
  else c

/-- `strings.EqualFold` against an ASCII text. -/
def equalFold (s t : String) : Bool := s.toList.map foldRune = t.toList.map foldRune

/-- `unicode.IsSpace`. -/
def isSpace (c : Char) : Bool :=
  c ∈ ['\t', '\n', '\x0b', '\x0c', '\r', ' ', '\u0085', '\u00a0', '\u1680', '\u2028', '\u2029',
    '\u202f', '\u205f', '\u3000'] || ('\u2000' ≤ c && c ≤ '\u200a')

/-- `strings.TrimSpace`. -/
def trimSpace (s : List Char) : List Char :=
  ((s.dropWhile isSpace).reverse.dropWhile isSpace).reverse

/-- An ASCII letter in lower case. -/
def lowerRune (c : Char) : Char := if 'A' ≤ c ∧ c ≤ 'Z' then Char.ofNat (c.toNat + 32) else c

/-- An ASCII letter in upper case. -/
def upperRune (c : Char) : Char := if 'a' ≤ c ∧ c ≤ 'z' then Char.ofNat (c.toNat - 32) else c

/-- `strings.HasPrefix`. -/
def hasPrefix (s p : String) : Bool := p.toList.isPrefixOf s.toList

/-- `strings.HasSuffix`. -/
def hasSuffix (s p : String) : Bool := p.toList.isSuffixOf s.toList

/-- `strings.Contains`. -/
def contains (s t : String) : Bool := s.toList.tails.any (t.toList.isPrefixOf ·)

theorem hasSuffix_iff {s p : String} : hasSuffix s p = true ↔ p.toList <:+ s.toList := by
  unfold hasSuffix
  exact List.isSuffixOf_iff_suffix

/-! ## White space -/

/-- The printable characters of ASCII are no white space. -/
theorem isSpace_of_graphic {c : Char} (hlow : '!' ≤ c) (hhigh : c ≤ '~') : isSpace c = false := by
  unfold isSpace
  rw [Bool.or_eq_false_iff]
  constructor
  · rw [decide_eq_false_iff_not]
    intro hmem
    simp only [List.mem_cons, List.not_mem_nil, or_false] at hmem
    rcases hmem with rfl | rfl | rfl | rfl | rfl | rfl | rfl | rfl | rfl | rfl | rfl | rfl |
      rfl | rfl
    all_goals first | exact absurd hlow (by decide) | exact absurd hhigh (by decide)
  · have hfar : ¬ '\u2000' ≤ c := fun h => absurd (Char.le_trans h hhigh) (by decide)
    simp [hfar]

theorem trimSpace_of_forall {s : List Char} (h : ∀ c ∈ s, isSpace c = false) : trimSpace s = s := by
  have hdrop : ∀ l : List Char, (∀ c ∈ l, isSpace c = false) → l.dropWhile isSpace = l := by
    intro l hl
    cases l with
    | nil => rfl
    | cons c l => rw [List.dropWhile_cons, if_neg (by simp [hl c List.mem_cons_self])]
  have hrev : ∀ c ∈ s.reverse, isSpace c = false := fun c hc => h c (List.mem_reverse.1 hc)
  unfold trimSpace
  rw [hdrop s h, hdrop _ hrev, List.reverse_reverse]

/-! ## Prefixes -/

theorem append_right_injective {a r r' : String} (h : a ++ r = a ++ r') : r = r' := by
  have hchars := congrArg String.toList h
  rw [String.toList_append, String.toList_append] at hchars
  exact String.toList_injective (List.append_cancel_left hchars)

/-- Strings that start differently are different. -/
theorem append_ne_append {a b : String} (ha : a.toList ≠ []) (hb : b.toList ≠ [])
    (h : a.toList.head? ≠ b.toList.head?) (r r' : String) : a ++ r ≠ b ++ r' := by
  intro heq
  have hchars := congrArg (fun s => s.toList.head?) heq
  simp only [String.toList_append] at hchars
  rw [List.head?_append_of_ne_nil _ ha, List.head?_append_of_ne_nil _ hb] at hchars
  exact h hchars

end Text

/-! ## Lower-casing

What code that lower-cases identifiers counts on, whatever the table of
letters: doing it twice is doing it once, and nothing but the empty string
comes out empty. `Lowering.ascii` is the one that knows the letters `A` to
`Z`. -/

/-- A way to lower-case strings. -/
structure Lowering where
  lower : String → String
  lower_lower : ∀ s, lower (lower s) = lower s
  eq_empty : ∀ s, lower s = "" → s = ""

namespace Lowering

instance : CoeFun Lowering fun _ => String → String := ⟨Lowering.lower⟩

variable (toLower : Lowering)

@[simp] theorem apply_apply (s : String) : toLower (toLower s) = toLower s :=
  toLower.lower_lower s

theorem apply_ne_empty {s : String} (h : s ≠ "") : toLower s ≠ "" := mt (toLower.eq_empty s) h

theorem toLower_toLower (c : Char) : c.toLower.toLower = c.toLower := by
  by_cases h : 'A'.val ≤ c.val ∧ c.val ≤ 'Z'.val
  · -- a letter moved up by 32 is out of the range
    have hout : ¬('A'.val ≤ c.val + ('a'.val - 'A'.val) ∧
        c.val + ('a'.val - 'A'.val) ≤ 'Z'.val) := by
      have hlow : 65 ≤ c.val.toNat := UInt32.le_iff_toNat_le.1 h.1
      have hhigh : c.val.toNat ≤ 90 := UInt32.le_iff_toNat_le.1 h.2
      rintro ⟨-, hle⟩
      have hle' : (c.val + ('a'.val - 'A'.val)).toNat ≤ 90 := UInt32.le_iff_toNat_le.1 hle
      rw [UInt32.toNat_add, show ('a'.val - 'A'.val).toNat = 32 from rfl] at hle'
      omega
    unfold Char.toLower
    simp only [ge_iff_le, h, and_self, ↓reduceDIte]
    rw [dif_neg hout]
  · have hsame : c.toLower = c := dif_neg h
    rw [hsame, hsame]

/-- Lower-casing of the letters `A` to `Z`. -/
def ascii : Lowering where
  lower s := String.ofList (s.toList.map Char.toLower)
  lower_lower s := by
    simp only [String.toList_ofList, List.map_map]
    congr 1
    exact List.map_congr_left fun c _ => toLower_toLower c
  eq_empty s h := by
    have hlist := congrArg String.toList h
    simpa using hlist

end Lowering

end OpenManet
