import Mathlib.Algebra.GroupWithZero.Nat
import Mathlib.Data.Nat.Notation
import Mathlib.Data.List.Basic
import Mathlib.Data.List.TakeWhile
/-!
# Texts in a browser

White space, as `trim` and the class `\s` of a regular expression have it, the
characters the dot of one does not match, and the two things a simple
expression is made of: a literal, and a run of characters of a class that none
of them follows.
-/

namespace OpenManet

namespace JsText

/-- A character of `\s`. -/
def isSpace (c : Char) : Bool :=
  c ∈ ['\t', '\n', '\x0b', '\x0c', '\r', ' ', '\u00a0', '\u1680', '\u2028', '\u2029', '\u202f',
    '\u205f', '\u3000', '\ufeff'] || ('\u2000' ≤ c && c ≤ '\u200a')

/-- A character the dot does not match. -/
def isLineTerminator (c : Char) : Bool := c ∈ ['\n', '\r', '\u2028', '\u2029']

/-- `trim`. -/
def trim (s : List Char) : List Char :=
  ((s.dropWhile isSpace).reverse.dropWhile isSpace).reverse

/-- A literal of a regular expression: what follows it. -/
def literal : List Char → List Char → Option (List Char)
  | [], s => some s
  | c :: cs, d :: s => if c = d then literal cs s else none
  | _ :: _, [] => none

/-- The characters of a class, one at least, with what follows them. Where what
has to follow is not of the class, no shorter run can match. -/
def run (p : Char → Bool) (s : List Char) : Option (List Char × List Char) :=
  if s.takeWhile p = [] then none else some (s.takeWhile p, s.dropWhile p)

section

variable {p : Char → Bool} {l s : List Char} {c d : Char}

theorem trim_eq_nil_iff : trim s = [] ↔ ∀ c ∈ s, isSpace c = true := by
  rw [trim, List.reverse_eq_nil_iff, List.dropWhile_eq_nil_iff]
  constructor
  · intro h c hc
    rw [← List.takeWhile_append_dropWhile (p := isSpace) (l := s), List.mem_append] at hc
    rcases hc with hc | hc
    · exact List.mem_takeWhile_imp hc
    · exact h c (List.mem_reverse.2 hc)
  · intro h c hc
    exact h c ((List.dropWhile_sublist isSpace).subset (List.mem_reverse.1 hc))

@[simp] theorem literal_append (l s : List Char) : literal l (l ++ s) = some s := by
  induction l with
  | nil => rfl
  | cons c cs ih => simpa [literal] using ih

theorem literal_of_ne (h : c ≠ d) : literal (c :: l) (d :: s) = none := if_neg h

/-- A run up to a character that is not of the class. -/
theorem run_append (hne : l ≠ []) (hall : ∀ c ∈ l, p c) (hd : p d = false) :
    run p (l ++ d :: s) = some (l, d :: s) := by
  have htake : (l ++ d :: s).takeWhile p = l := by
    rw [List.takeWhile_append_of_pos hall, List.takeWhile_cons_of_neg (by simp [hd]),
      List.append_nil]
  have hdrop : (l ++ d :: s).dropWhile p = d :: s := by
    rw [List.dropWhile_append_of_pos hall, List.dropWhile_cons_of_neg (by simp [hd])]
  rw [run, htake, hdrop, if_neg hne]

end

end JsText

/-! ## Lengths in UTF-16

A program in a browser counts the UTF-16 units of a string where a node
counts the bytes of its UTF-8. A character is never more units than bytes,
so a string is never longer in units than in bytes; nothing holds the other
way. -/

namespace Utf16

/-- The units of a character: two past the first plane. -/
def units (c : Char) : ℕ := if c.utf8Size = 4 then 2 else 1

/-- `length`. -/
def length (s : String) : ℕ := (s.toList.map units).sum

/-- The first units of a text. Of a character cut in half the half that is
left stands for no character, and is written as the replacement character. -/
def take : ℕ → List Char → List Char
  | _, [] => []
  | n, c :: cs =>
      if units c ≤ n then c :: take (n - units c) cs
      else if n = 0 then [] else ['\uFFFD']

/-- `slice(0, n)`. -/
def slice (n : ℕ) (s : String) : String := String.ofList (take n s.toList)

/-- The units of a character, as numbers. -/
def codeUnits (c : Char) : List ℕ :=
  if c.toNat < 0x10000 then [c.toNat]
  else [0xd800 + (c.toNat - 0x10000) / 0x400, 0xdc00 + (c.toNat - 0x10000) % 0x400]

/-- The order of `sort()`, unit by unit. -/
def unitsLE (s t : String) : Bool :=
  !decide (t.toList.flatMap codeUnits < s.toList.flatMap codeUnits)

theorem units_le_utf8Size (c : Char) : units c ≤ c.utf8Size := by
  have hpos := c.utf8Size_pos
  unfold units
  split_ifs with hfour
  · omega
  · omega

theorem sum_units_le (cs : List Char) : (cs.map units).sum ≤ (String.ofList cs).utf8ByteSize := by
  induction cs with
  | nil => exact Nat.zero_le _
  | cons c cs ih =>
      have hcons : String.ofList (c :: cs) = String.singleton c ++ String.ofList cs := by
        rw [String.ext_iff]
        simp
      rw [hcons, String.utf8ByteSize_append, String.utf8ByteSize_singleton, List.map_cons,
        List.sum_cons]
      exact Nat.add_le_add (units_le_utf8Size c) ih

/-- **No string is longer in units than in bytes.** -/
theorem length_le_utf8ByteSize (s : String) : length s ≤ s.utf8ByteSize := by
  have hbytes := sum_units_le s.toList
  rwa [String.ofList_toList] at hbytes

end Utf16

end OpenManet
