import Mathlib.Data.List.Induction
import Mathlib.Tactic.Ring
/-!
# Bytes

What a wire format needs of a byte string: numbers in network order, a byte
as two hexadecimal digits, and a cut that fails where it leaves the string.
-/

namespace OpenManet

namespace Bytes

/-! ## Numbers in network order -/

/-- The number `w` bytes spell, the most significant first. -/
def bigEndian (bs : List UInt8) : ℕ := bs.foldl (fun n b => 256 * n + b.toNat) 0

/-- A number as `w` bytes, the most significant first; what does not fit is
dropped. -/
def putBigEndian : ℕ → ℕ → List UInt8
  | 0, _ => []
  | w + 1, n => putBigEndian w (n / 256) ++ [UInt8.ofNat (n % 256)]

@[simp] theorem length_putBigEndian (w n : ℕ) : (putBigEndian w n).length = w := by
  induction w generalizing n with
  | zero => rfl
  | succ w ih => rw [putBigEndian, List.length_append, ih, List.length_singleton]

@[simp] theorem bigEndian_nil : bigEndian [] = 0 := rfl

@[simp] theorem bigEndian_concat (bs : List UInt8) (b : UInt8) :
    bigEndian (bs ++ [b]) = 256 * bigEndian bs + b.toNat := by
  rw [bigEndian, List.foldl_append]
  rfl

/-- **What is written is read back**, up to what does not fit. -/
theorem bigEndian_putBigEndian (w n : ℕ) : bigEndian (putBigEndian w n) = n % 256 ^ w := by
  induction w generalizing n with
  | zero => rw [putBigEndian, bigEndian_nil, pow_zero, Nat.mod_one]
  | succ w ih =>
      have hbyte : (UInt8.ofNat (n % 256)).toNat = n % 256 := by
        rw [UInt8.toNat_ofNat']
        exact Nat.mod_eq_of_lt (Nat.mod_lt n (by decide))
      rw [putBigEndian, bigEndian_concat, ih, hbyte, pow_succ', Nat.mod_mul]
      omega

/-- **What is read is written back**: the bytes of a number are the ones it
was spelled with. -/
theorem putBigEndian_bigEndian (bs : List UInt8) : putBigEndian bs.length (bigEndian bs) = bs := by
  induction bs using List.reverseRecOn with
  | nil => rfl
  | append_singleton bs b ih =>
      have hb : b.toNat < 256 := b.toNat_lt
      have hdiv : (256 * bigEndian bs + b.toNat) / 256 = bigEndian bs := by omega
      have hmod : (256 * bigEndian bs + b.toNat) % 256 = b.toNat := by omega
      rw [List.length_append, List.length_singleton, bigEndian_concat, putBigEndian, hdiv, hmod, ih,
        UInt8.ofNat_toNat]

theorem bigEndian_lt (bs : List UInt8) : bigEndian bs < 256 ^ bs.length := by
  have h := bigEndian_putBigEndian bs.length (bigEndian bs)
  rw [putBigEndian_bigEndian] at h
  rw [h]
  exact Nat.mod_lt _ (Nat.pow_pos (by decide))

/-! ## Two digits a byte -/

/-- The digit of a number below sixteen. -/
def hexDigit (n : ℕ) : Char := "0123456789abcdef".toList.getD n 'f'

/-- A byte as two hexadecimal digits. -/
def hexByte (b : UInt8) : List Char := [hexDigit (b.toNat / 16), hexDigit (b.toNat % 16)]

/-- A byte string in hexadecimal. -/
def hex (bs : List UInt8) : List Char := bs.flatMap hexByte

/-- A byte string in hexadecimal, with a colon between two bytes. -/
def hexColons : List UInt8 → List Char
  | [] => []
  | [b] => hexByte b
  | b :: bs => hexByte b ++ ':' :: hexColons bs

theorem hexDigit_injOn : ∀ m < 16, ∀ n < 16, hexDigit m = hexDigit n → m = n := by decide

theorem hexDigit_ne_u : ∀ n < 16, hexDigit n ≠ 'u' := by decide

theorem hexByte_injective : Function.Injective hexByte := by
  intro a b h
  have ha : a.toNat < 256 := a.toNat_lt
  have hb : b.toNat < 256 := b.toNat_lt
  simp only [hexByte, List.cons.injEq, and_true] at h
  have hhigh := hexDigit_injOn _ (by omega) _ (by omega) h.1
  have hlow := hexDigit_injOn _ (by omega) _ (by omega) h.2
  exact UInt8.toNat_inj.1 (by omega)

@[simp] theorem length_hexByte (b : UInt8) : (hexByte b).length = 2 := rfl

theorem length_hex (bs : List UInt8) : (hex bs).length = 2 * bs.length := by
  induction bs with
  | nil => rfl
  | cons b bs ih =>
      have hcons : hex (b :: bs) = hexByte b ++ hex bs := rfl
      rw [hcons, List.length_append, ih, length_hexByte, List.length_cons]
      omega

theorem hex_injective : Function.Injective hex := by
  intro as
  induction as with
  | nil =>
      intro bs h
      have hlen := congrArg List.length h
      rw [length_hex, length_hex, List.length_nil] at hlen
      exact (List.length_eq_zero_iff.1 (by omega)).symm
  | cons a as ih =>
      intro bs h
      cases bs with
      | nil => cases h
      | cons b bs =>
          have hcut : hexByte a ++ hex as = hexByte b ++ hex bs := h
          obtain ⟨hhead, htail⟩ := List.append_inj hcut rfl
          rw [hexByte_injective hhead, ih htail]

theorem hexColons_injective : Function.Injective hexColons := by
  intro as
  induction as using hexColons.induct with
  | case1 =>
      intro bs h
      cases bs with
      | nil => rfl
      | cons b bs => cases bs <;> cases h
  | case2 a =>
      intro bs h
      match bs, h with
      | [], h => cases h
      | [b], h => rw [hexByte_injective h]
      | b :: c :: bs, h => simp [hexColons, hexByte] at h
  | case3 a as hne ih =>
      intro bs h
      obtain ⟨a', as, rfl⟩ := List.exists_cons_of_ne_nil (by simpa using hne)
      match bs, h with
      | [], h => cases h
      | [b], h => simp [hexColons, hexByte] at h
      | b :: c :: bs, h =>
          have hcut : hexByte a ++ ':' :: hexColons (a' :: as) =
              hexByte b ++ ':' :: hexColons (c :: bs) := h
          obtain ⟨hhead, htail⟩ := List.append_inj hcut rfl
          rw [hexByte_injective hhead, ih (List.cons.inj htail).2]

/-- No byte string reads `unknown`. -/
theorem hexColons_head_ne_u (b : UInt8) (bs : List UInt8) : (hexColons (b :: bs)).head? ≠ some 'u' := by
  have hb : b.toNat / 16 < 16 := by
    have hlt : b.toNat < 256 := b.toNat_lt
    omega
  have hhead : (hexColons (b :: bs)).head? = some (hexDigit (b.toNat / 16)) := by cases bs <;> rfl
  rw [hhead]
  exact fun h => hexDigit_ne_u _ hb (Option.some.inj h)

/-! ## Cuts -/

/-- The bytes from one place to another; a cut that leaves the string
fails. -/
def slice (bs : List UInt8) (i j : ℕ) : Option (List UInt8) :=
  if i ≤ j ∧ j ≤ bs.length then some ((bs.take j).drop i) else none

theorem slice_eq {bs : List UInt8} {i j : ℕ} (hij : i ≤ j) (hj : j ≤ bs.length) :
    slice bs i j = some ((bs.take j).drop i) := if_pos ⟨hij, hj⟩

/-- The middle of three pieces. -/
theorem slice_append {as bs cs : List UInt8} {i j : ℕ} (hi : as.length = i)
    (hj : as.length + bs.length = j) : slice (as ++ (bs ++ cs)) i j = some bs := by
  subst hi hj
  rw [slice_eq (by omega) (by simp), ← List.append_assoc, ← List.length_append, List.take_left,
    List.drop_left]

/-- A byte string is the pieces it is cut into. -/
theorem append_slices {bs : List UInt8} {i j : ℕ} (hij : i ≤ j) :
    bs.take i ++ ((bs.take j).drop i ++ bs.drop j) = bs := by
  have hpre : bs.take i = (bs.take j).take i := by rw [List.take_take, Nat.min_eq_left hij]
  rw [hpre, ← List.append_assoc, List.take_append_drop, List.take_append_drop]

end Bytes

end OpenManet
