import Mathlib.Algebra.Order.Ring.Rat
import Mathlib.Data.Rat.Floor
import Mathlib.Tactic.Linarith
import Mathlib.Tactic.Ring
/-!
# Decimal numerals

Numbers as a formatted print writes them: a number in so many digits at least,
and a rational to so many decimals, rounded to the nearest and, of two that are
as near, to the even one. A numeral of a known width is read back digit by
digit.
-/

namespace OpenManet

namespace Decimal

/-! ## Rounding -/

/-- The nearest integer; of two that are as near, the even one. -/
def roundEven (q : ℚ) : ℤ :=
  if q - ⌊q⌋ < 1 / 2 then ⌊q⌋
  else if 1 / 2 < q - ⌊q⌋ then ⌊q⌋ + 1
  else if ⌊q⌋ % 2 = 0 then ⌊q⌋ else ⌊q⌋ + 1

section Rounding

variable {q : ℚ}

/-- **Rounding is off by half at most.** -/
theorem abs_roundEven_sub_le : |(roundEven q : ℚ) - q| ≤ 1 / 2 := by
  have hlow := Int.floor_le q
  have hhigh := Int.lt_floor_add_one q
  unfold roundEven
  split_ifs with hbelow habove heven
  · rw [abs_le]
    constructor <;> linarith
  · rw [abs_le]
    push_cast
    constructor <;> linarith
  · rw [abs_le]
    constructor <;> linarith
  · rw [abs_le]
    push_cast
    constructor <;> linarith

theorem roundEven_nonneg (hq : 0 ≤ q) : 0 ≤ roundEven q := by
  have hfloor := Int.floor_nonneg.2 hq
  unfold roundEven
  split_ifs <;> omega

/-- **What rounds below an even number** is below it by more than half: the tie
goes to the even one. -/
theorem roundEven_lt_iff {n : ℤ} (hn : n % 2 = 0) : roundEven q < n ↔ q < n - 1 / 2 := by
  have hlow := Int.floor_le q
  have hhigh := Int.lt_floor_add_one q
  unfold roundEven
  split_ifs with hbelow habove heven
  · rw [Int.lt_iff_add_one_le]
    constructor
    · intro h
      have h' : (⌊q⌋ : ℚ) + 1 ≤ n := by exact_mod_cast h
      linarith
    · intro h
      have h' : (⌊q⌋ : ℚ) < n := by linarith
      exact_mod_cast h'
  · constructor
    · intro h
      have h' : (⌊q⌋ : ℚ) + 1 + 1 ≤ n := by exact_mod_cast h
      linarith
    · intro h
      have h' : (⌊q⌋ : ℚ) + 1 < n := by linarith
      exact_mod_cast h'
  · have hhalf : q = ⌊q⌋ + 1 / 2 := by linarith
    constructor
    · intro h
      have h' : ⌊q⌋ + 2 ≤ n := by omega
      have h'' : (⌊q⌋ : ℚ) + 2 ≤ n := by exact_mod_cast h'
      linarith
    · intro h
      have h' : (⌊q⌋ : ℚ) < n := by linarith
      exact_mod_cast h'
  · have hhalf : q = ⌊q⌋ + 1 / 2 := by linarith
    constructor
    · intro h
      have h' : (⌊q⌋ : ℚ) + 1 + 1 ≤ n := by exact_mod_cast h
      linarith
    · intro h
      have h' : (⌊q⌋ : ℚ) + 1 < n := by linarith
      exact_mod_cast h'

end Rounding

/-! ## Numerals -/

/-- `%0wd` of a number: at least `w` digits. -/
def digits (w n : ℕ) : List Char := (Nat.toDigits 10 n).leftpad w '0'

/-- So many digits and nothing else. -/
def Numeral (w : ℕ) (s : List Char) : Prop := s.length = w ∧ ∀ c ∈ s, c.isDigit = true

instance (w : ℕ) (s : List Char) : Decidable (Numeral w s) :=
  decidable_of_iff (s.length = w ∧ s.all Char.isDigit = true)
    (and_congr_right' List.all_eq_true)

/-- The number a numeral spells. -/
def value (s : List Char) : ℕ := Nat.ofDigitChars 10 s 0

/-- A numeral of `w` digits is read off a text. -/
def readDigits (w : ℕ) (s : List Char) : Option (ℕ × List Char) :=
  if Numeral w (s.take w) then some (value (s.take w), s.drop w) else none

/-- A point is read off a text. -/
def readPoint : List Char → Option (List Char)
  | '.' :: s => some s
  | _ => none

section Numerals

variable {w n : ℕ}

theorem isDigit_of_mem_digits {c : Char} (hc : c ∈ digits w n) : c.isDigit = true := by
  rcases List.mem_append.1 hc with hc | hc
  · obtain rfl := List.eq_of_mem_replicate hc
    rfl
  · exact Nat.isDigit_of_mem_toDigits (by decide) (by decide) hc

/-- A number that fits is written in as many digits. -/
theorem numeral_digits (hw : 0 < w) (h : n < 10 ^ w) : Numeral w (digits w n) := by
  have hlength := (Nat.length_toDigits_le_iff (by decide : 1 < 10) hw).2 h
  refine ⟨?_, fun c hc => isDigit_of_mem_digits hc⟩
  rw [digits, List.length_leftpad]
  omega

@[simp] theorem value_digits : value (digits w n) = n := by
  rw [value, digits, List.leftpad, Nat.ofDigitChars_append, Nat.ofDigitChars_replicate_zero,
    Nat.mul_zero, Nat.ofDigitChars_ten_toDigits]

/-- **What is written is read back**, and what follows it is left. -/
theorem readDigits_digits (hw : 0 < w) (h : n < 10 ^ w) (s : List Char) :
    readDigits w (digits w n ++ s) = some (n, s) := by
  have hnumeral := numeral_digits hw h
  have htake : (digits w n ++ s).take w = digits w n := List.take_left' hnumeral.1
  rw [readDigits, htake, if_pos hnumeral, value_digits, List.drop_left' hnumeral.1]

@[simp] theorem readPoint_cons (s : List Char) : readPoint ('.' :: s) = some s := rfl

end Numerals

/-! ## Decimal fractions -/

/-- The sign a number is printed with. -/
def sign (q : ℚ) : List Char := if q < 0 then ['-'] else []

/-- A number in units of its last decimal, without its sign. -/
def units (p : ℕ) (q : ℚ) : ℕ := (roundEven (|q| * 10 ^ p)).toNat

/-- `%.pf` without the sign, for a positive `p`. -/
def unsigned (p : ℕ) (q : ℚ) : List Char :=
  Nat.toDigits 10 (units p q / 10 ^ p) ++ '.' :: digits p (units p q % 10 ^ p)

/-- `%.pf`. -/
def fixed (p : ℕ) (q : ℚ) : List Char := sign q ++ unsigned p q

/-- `%0w.pf`: the zeros stand between the sign and the digits. -/
def fixedPadded (w p : ℕ) (q : ℚ) : List Char :=
  sign q ++ (unsigned p q).leftpad (w - (sign q).length) '0'

section Fractions

variable {w p : ℕ} {q : ℚ}

/-- Padding is for what comes before the point. -/
theorem leftpad_append (w : ℕ) (a : Char) (s t : List Char) :
    (s ++ t).leftpad (w + t.length) a = s.leftpad w a ++ t := by
  rw [List.leftpad, List.leftpad, List.length_append, Nat.add_sub_add_right, List.append_assoc]

/-- The digits of a number that is not negative: the whole part, the point and
the decimals. -/
theorem fixedPadded_of_nonneg (hp : 0 < p) (hq : 0 ≤ q) :
    fixedPadded (w + (p + 1)) p q =
      digits w (units p q / 10 ^ p) ++ '.' :: digits p (units p q % 10 ^ p) := by
  have hlength : ('.' :: digits p (units p q % 10 ^ p)).length = p + 1 := by
    rw [List.length_cons, (numeral_digits hp (Nat.mod_lt _ (by positivity))).1]
  rw [fixedPadded, sign, if_neg (not_lt.2 hq), List.nil_append, List.length_nil, Nat.sub_zero,
    unsigned, ← hlength, leftpad_append]
  rfl

/-- **Printing is off by half a unit at most.** -/
theorem abs_units_sub_le (hq : 0 ≤ q) : |(units p q : ℚ) - q * 10 ^ p| ≤ 1 / 2 := by
  have hscaled : 0 ≤ q * 10 ^ p := by positivity
  have hcast : ((units p q : ℕ) : ℚ) = roundEven (q * 10 ^ p) := by
    rw [units, abs_of_nonneg hq]
    exact_mod_cast congrArg (Int.cast (R := ℚ)) (Int.toNat_of_nonneg (roundEven_nonneg hscaled))
  rw [hcast]
  exact abs_roundEven_sub_le

theorem units_lt_iff (hq : 0 ≤ q) {n : ℕ} (hn : n % 2 = 0) :
    units p q < n ↔ q * 10 ^ p < n - 1 / 2 := by
  have hround := roundEven_lt_iff (q := q * 10 ^ p) (n := n) (by omega)
  have hscaled : 0 ≤ q * 10 ^ p := by positivity
  have hnonneg := roundEven_nonneg hscaled
  rw [Int.cast_natCast] at hround
  rw [← hround, units, abs_of_nonneg hq]
  omega

/-- What is printed is digits, a point and a sign. -/
theorem mem_fixed {c : Char} (hc : c ∈ fixed p q) : c.isDigit = true ∨ c = '.' ∨ c = '-' := by
  rcases List.mem_append.1 hc with hc | hc
  · unfold sign at hc
    split at hc
    · exact .inr (.inr (List.mem_singleton.1 hc))
    · cases hc
  · rcases List.mem_append.1 hc with hc | hc
    · exact .inl (Nat.isDigit_of_mem_toDigits (by decide) (by decide) hc)
    · rcases List.mem_cons.1 hc with rfl | hc
      · exact .inr (.inl rfl)
      · exact .inl (isDigit_of_mem_digits hc)

end Fractions

end Decimal

end OpenManet
