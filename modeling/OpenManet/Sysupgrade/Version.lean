import OpenManet.Lib.Text
import Mathlib.Data.List.TakeWhile
import Mathlib.Data.Prod.Lex
import Mathlib.Data.String.Basic
import Mathlib.Order.WithBot
import Mathlib.Data.Int.Order.Basic
/-!
# Versions

`internal/sysupgrade/version.go`: the version a release tag stands for, its
canonical form, and the order of versions.

The regular expression `versionRE` is a reader of one part after the other;
`Shape` says what it accepts, part by part. The order is the order of a key:
the three numbers, then the suffix, with no suffix above all of them.
-/

namespace OpenManet

namespace Releases

/-- `Version`. -/
structure Version where
  raw : String
  pre : String
  major : ℤ
  minor : ℤ
  patch : ℤ
deriving DecidableEq, Repr

namespace Version

/-- `Version{}`. -/
def zero : Version := ⟨"", "", 0, 0, 0⟩

/-- `IsZero`. -/
def isZero (v : Version) : Bool :=
  v.major = 0 && v.minor = 0 && v.patch = 0 && v.pre = "" && v.raw = ""

end Version

/-- `strconv.Itoa`. -/
def itoa (n : ℤ) : List Char :=
  if n < 0 then '-' :: Nat.toDigits 10 n.natAbs else Nat.toDigits 10 n.natAbs

/-- `Canonical`. -/
def Version.canonical (v : Version) : String :=
  let base := itoa v.major ++ '.' :: (itoa v.minor ++ '.' :: itoa v.patch)
  if v.pre = "" then String.ofList base else String.ofList (base ++ '-' :: v.pre.toList)

/-! ## Tags -/

/-- The groups of `versionRE`. -/
structure Submatch where
  major : List Char
  minor : List Char
  patch : List Char
  pre : List Char
deriving DecidableEq

/-- The runes of a suffix, `[0-9A-Za-z.-]`. -/
def suffixRune (c : Char) : Bool := c.isDigit || c.isUpper || c.isLower || c = '.' || c = '-'

/-- `(\d+)` at the head of a text, and the text behind it. -/
def number (s : List Char) : Option (List Char × List Char) :=
  match s.takeWhile Char.isDigit with
  | [] => none
  | digits => some (digits, s.dropWhile Char.isDigit)

/-- `(\d+)\.` at the head of a text, and the text behind it. -/
def dotted (s : List Char) : Option (List Char × List Char) :=
  match number s with
  | some (digits, '.' :: rest) => some (digits, rest)
  | _ => none

/-- `(?:[-.]([0-9A-Za-z.-]+))?$`: the suffix, empty where there is none. -/
def suffix : List Char → Option (List Char)
  | [] => some []
  | sep :: pre =>
      if (sep = '-' ∨ sep = '.') ∧ pre ≠ [] ∧ pre.all suffixRune then some pre else none

/-- The text behind `^v?`. -/
def unprefixed : List Char → List Char
  | 'v' :: rest => rest
  | s => s

/-- `versionRE.FindStringSubmatch`. -/
def findStringSubmatch (s : List Char) : Option Submatch := do
  let (major, s) ← dotted (unprefixed s)
  let (minor, s) ← dotted s
  let (patch, s) ← number s
  let pre ← suffix s
  some ⟨major, minor, patch, pre⟩

/-- What the code takes from its platform: the largest `int`, and the quoting
of `%q`. -/
structure Platform where
  maxInt : ℕ
  quote : String → String

section Parse

variable (P : Platform)

/-- `strconv.Atoi` of digits, its error ignored: a number that does not fit is
the largest that does. -/
def atoi (digits : List Char) : ℤ := min (Nat.ofDigitChars 10 digits 0) P.maxInt

/-- `ParseTag`. -/
def parseTag (tag : String) : Except String Version :=
  match findStringSubmatch (Text.trimSpace tag.toList) with
  | none => .error ("parse version " ++ P.quote tag ++ ": malformed")
  | some m =>
      .ok {
        raw := tag
        major := atoi P m.major
        minor := atoi P m.minor
        patch := atoi P m.patch
        pre := String.ofList m.pre }

end Parse

/-! ## The order -/

/-- `cmpInt`. -/
def cmpInt (a b : ℤ) : ℤ := if a < b then -1 else if b < a then 1 else 0

/-- `strings.Compare`. -/
def stringsCompare (a b : String) : ℤ := if a = b then 0 else if a < b then -1 else 1

/-- `Compare`. -/
def compare (a b : Version) : ℤ :=
  if a.major ≠ b.major then cmpInt a.major b.major
  else if a.minor ≠ b.minor then cmpInt a.minor b.minor
  else if a.patch ≠ b.patch then cmpInt a.patch b.patch
  else if a.pre = "" ∧ b.pre = "" then 0
  else if a.pre = "" then 1
  else if b.pre = "" then -1
  else stringsCompare a.pre b.pre

/-- What a suffix counts for: to have none is more than any. -/
def suffixKey (pre : String) : WithTop String := if pre = "" then ⊤ else (pre : WithTop String)

/-- What versions are ordered by. -/
def Version.key (v : Version) : ℤ ×ₗ ℤ ×ₗ ℤ ×ₗ WithTop String :=
  toLex (v.major, toLex (v.minor, toLex (v.patch, suffixKey v.pre)))

/-- A comparison as an `int`. -/
def sign : Ordering → ℤ
  | .lt => -1
  | .eq => 0
  | .gt => 1

theorem sign_swap (o : Ordering) : sign o.swap = -sign o := by
  cases o <;> rfl

section Sign

variable {α β : Type} [LinearOrder α] [LinearOrder β]

theorem sign_cmp_pos_iff {x y : α} : 0 < sign (cmp x y) ↔ y < x := by
  rw [← cmp_eq_gt_iff x y]
  cases cmp x y <;> decide

/-- Pairs are compared by the first part that differs. -/
theorem sign_cmp_toLex (x x' : α) (y y' : β) :
    sign (cmp (toLex (x, y)) (toLex (x', y'))) =
      if x ≠ x' then sign (cmp x x') else sign (cmp y y') := by
  rcases lt_trichotomy x x' with hlt | rfl | hgt
  · have hpair : toLex (x, y) < toLex (x', y') := Prod.Lex.toLex_lt_toLex.2 (.inl hlt)
    rw [if_pos hlt.ne, (cmp_eq_lt_iff _ _).2 hpair, (cmp_eq_lt_iff _ _).2 hlt]
  · have hlex : ∀ y y' : β, toLex (x, y) < toLex (x, y') ↔ y < y' := by
      intro y y'
      rw [Prod.Lex.toLex_lt_toLex]
      simp
    have hcmp : cmp (toLex (x, y)) (toLex (x, y')) = cmp y y' := by
      unfold cmp cmpUsing
      simp only [hlex]
    rw [if_neg (not_not.2 rfl), hcmp]
  · have hpair : toLex (x', y') < toLex (x, y) := Prod.Lex.toLex_lt_toLex.2 (.inl hgt)
    rw [if_pos hgt.ne', (cmp_eq_gt_iff _ _).2 hpair, (cmp_eq_gt_iff _ _).2 hgt]

end Sign

theorem cmpInt_eq (a b : ℤ) : cmpInt a b = sign (cmp a b) := by
  unfold cmpInt cmp cmpUsing
  split_ifs <;> rfl

theorem stringsCompare_eq (a b : String) : stringsCompare a b = sign (cmp a b) := by
  unfold stringsCompare
  rcases lt_trichotomy a b with hlt | rfl | hgt
  · rw [if_neg hlt.ne, if_pos hlt, (cmp_eq_lt_iff _ _).2 hlt]
    rfl
  · rw [if_pos rfl, cmp_self_eq_eq]
    rfl
  · rw [if_neg hgt.ne', if_neg hgt.not_gt, (cmp_eq_gt_iff _ _).2 hgt]
    rfl

theorem sign_cmp_suffixKey (p q : String) : sign (cmp (suffixKey p) (suffixKey q)) =
    if p = "" ∧ q = "" then 0 else if p = "" then 1 else if q = "" then -1
    else stringsCompare p q := by
  unfold suffixKey
  by_cases hp : p = "" <;> by_cases hq : q = ""
  · rw [if_pos hp, if_pos hq, if_pos ⟨hp, hq⟩, cmp_self_eq_eq]
    rfl
  · rw [if_pos hp, if_neg hq, if_neg (fun h => hq h.2), if_pos hp,
      (cmp_eq_gt_iff _ _).2 (WithTop.coe_lt_top q)]
    rfl
  · rw [if_neg hp, if_pos hq, if_neg (fun h => hp h.1), if_neg hp, if_pos hq,
      (cmp_eq_lt_iff _ _).2 (WithTop.coe_lt_top p)]
    rfl
  · have hcmp : cmp (p : WithTop String) (q : WithTop String) = cmp p q := by
      unfold cmp cmpUsing
      simp only [WithTop.coe_lt_coe]
    rw [if_neg hp, if_neg hq, if_neg (fun h => hp h.1), if_neg hp, if_neg hq, hcmp,
      stringsCompare_eq]

/-- **The comparison of versions is the one of their keys.** -/
theorem compare_eq (a b : Version) : compare a b = sign (cmp a.key b.key) := by
  unfold Version.key compare
  rw [sign_cmp_toLex, sign_cmp_toLex, sign_cmp_toLex, sign_cmp_suffixKey, cmpInt_eq, cmpInt_eq,
    cmpInt_eq]

theorem compare_pos_iff {a b : Version} : 0 < compare a b ↔ b.key < a.key := by
  rw [compare_eq, sign_cmp_pos_iff]

theorem compare_le_iff {a b : Version} : compare a b ≤ 0 ↔ a.key ≤ b.key := by
  rw [← not_lt, compare_pos_iff, not_lt]

theorem compare_swap (a b : Version) : compare b a = -compare a b := by
  rw [compare_eq, compare_eq, ← sign_swap, cmp_swap]

/-- What it takes of a comparison, of which the sign counts, to be that of a
total preorder. -/
structure TotalPreorder {α : Type} (compare : α → α → ℤ) : Prop where
  refl : ∀ a, compare a a = 0
  swap : ∀ a b, compare b a = -compare a b
  trans : ∀ a b c, compare a b ≤ 0 → compare b c ≤ 0 → compare a c ≤ 0
  total : ∀ a b, compare a b ≤ 0 ∨ compare b a ≤ 0

theorem compare_totalPreorder : TotalPreorder compare where
  refl a := by
    rw [compare_eq, cmp_self_eq_eq]
    rfl
  swap := compare_swap
  trans a b c hab hbc := by
    rw [compare_le_iff] at hab hbc ⊢
    exact hab.trans hbc
  total a b := by
    rw [compare_le_iff, compare_le_iff]
    exact le_total _ _

/-! ## What a tag looks like -/

/-- A text of digits. -/
def Digits (s : List Char) : Prop := s ≠ [] ∧ ∀ c ∈ s, c.isDigit = true

/-- What follows the third number: nothing, or a separator and a suffix. -/
inductive Tail : List Char → List Char → Prop where
  | none : Tail [] []
  | some {sep : Char} {pre : List Char} : sep = '-' ∨ sep = '.' → pre ≠ [] →
      (∀ c ∈ pre, suffixRune c = true) → Tail (sep :: pre) pre

/-- A text `versionRE` matches, less the `v`, with its groups. -/
structure Shape (s : List Char) (m : Submatch) : Prop where
  major : Digits m.major
  minor : Digits m.minor
  patch : Digits m.patch
  text : ∃ tail, Tail tail m.pre ∧
    s = m.major ++ '.' :: (m.minor ++ '.' :: (m.patch ++ tail))

theorem suffix_eq_some_iff {tail pre : List Char} : suffix tail = some pre ↔ Tail tail pre := by
  constructor
  · intro h
    cases tail with
    | nil =>
        cases h
        exact .none
    | cons sep rest =>
        rw [suffix] at h
        split_ifs at h with hcond
        cases h
        obtain ⟨hsep, hne, hall⟩ := hcond
        exact .some hsep hne (List.all_eq_true.1 hall)
  · rintro (_ | ⟨hsep, hne, hall⟩)
    · rfl
    · exact if_pos ⟨hsep, hne, List.all_eq_true.2 hall⟩

theorem number_append {d rest : List Char} (hd : Digits d)
    (hrest : ∀ c ∈ rest.head?, c.isDigit = false) : number (d ++ rest) = some (d, rest) := by
  have htake : (d ++ rest).takeWhile Char.isDigit = d := by
    rw [List.takeWhile_append_of_pos hd.2]
    cases rest with
    | nil => simp
    | cons c rest => simp [hrest c rfl]
  have hdrop : (d ++ rest).dropWhile Char.isDigit = rest := by
    rw [List.dropWhile_append_of_pos hd.2]
    cases rest with
    | nil => rfl
    | cons c rest => simp [hrest c rfl]
  unfold number
  rw [htake, hdrop]
  cases d with
  | nil => exact absurd rfl hd.1
  | cons c d => rfl

theorem of_number {s d rest : List Char} (h : number s = some (d, rest)) :
    Digits d ∧ s = d ++ rest := by
  unfold number at h
  split at h
  · cases h
  next digits hne =>
    obtain ⟨hd, hrest⟩ := Prod.mk.inj (Option.some.inj h)
    subst hd hrest
    exact ⟨⟨hne, fun c hc => List.mem_takeWhile_imp hc⟩, (List.takeWhile_append_dropWhile).symm⟩

theorem dotted_append {d rest : List Char} (hd : Digits d) :
    dotted (d ++ '.' :: rest) = some (d, rest) := by
  unfold dotted
  rw [number_append hd (by simp)]
  rfl

theorem of_dotted {s d rest : List Char} (h : dotted s = some (d, rest)) :
    Digits d ∧ s = d ++ '.' :: rest := by
  unfold dotted at h
  split at h
  next digits rest' hnumber =>
    obtain ⟨hd, hrest⟩ := Prod.mk.inj (Option.some.inj h)
    subst hd hrest
    exact of_number hnumber
  · cases h

theorem Tail.not_digit {tail pre : List Char} (h : Tail tail pre) :
    ∀ c ∈ tail.head?, c.isDigit = false := by
  cases h with
  | none => simp
  | some hsep hne hall =>
      intro c hc
      cases Option.some.inj hc
      rcases hsep with rfl | rfl <;> decide

/-- **What the regular expression matches.** -/
theorem findStringSubmatch_eq_some_iff {s : List Char} {m : Submatch} :
    findStringSubmatch s = some m ↔ Shape (unprefixed s) m := by
  constructor
  · intro h
    simp only [findStringSubmatch, Option.bind_eq_bind, Option.bind_eq_some_iff, Prod.exists] at h
    obtain ⟨major, s₁, hmajor, minor, s₂, hminor, patch, tail, hpatch, pre, hpre, hm⟩ := h
    cases hm
    obtain ⟨hdmajor, htext⟩ := of_dotted hmajor
    obtain ⟨hdminor, rfl⟩ := of_dotted hminor
    obtain ⟨hdpatch, rfl⟩ := of_number hpatch
    exact ⟨hdmajor, hdminor, hdpatch, tail, suffix_eq_some_iff.1 hpre, htext⟩
  · rintro ⟨hmajor, hminor, hpatch, tail, htail, htext⟩
    unfold findStringSubmatch
    rw [htext, dotted_append hmajor]
    simp only [Option.bind_eq_bind, Option.bind_some]
    rw [dotted_append hminor, Option.bind_some, number_append hpatch htail.not_digit,
      Option.bind_some, suffix_eq_some_iff.2 htail, Option.bind_some]

/-! ## There and back -/

section RoundTrip

variable {P : Platform} {tag : String} {v : Version}

theorem parseTag_eq_ok_iff : parseTag P tag = .ok v ↔
    ∃ m, Shape (unprefixed (Text.trimSpace tag.toList)) m ∧
      v = ⟨tag, String.ofList m.pre, atoi P m.major, atoi P m.minor, atoi P m.patch⟩ := by
  unfold parseTag
  constructor
  · intro h
    split at h
    · cases h
    next m hm =>
      cases h
      exact ⟨m, findStringSubmatch_eq_some_iff.1 hm, rfl⟩
  · rintro ⟨m, hshape, rfl⟩
    rw [findStringSubmatch_eq_some_iff.2 hshape]

theorem digits_toDigits (n : ℕ) : Digits (Nat.toDigits 10 n) :=
  ⟨Nat.toDigits_ne_nil, fun _ hc => Nat.isDigit_of_mem_toDigits (by omega) (by omega) hc⟩

theorem atoi_nonneg (d : List Char) : 0 ≤ atoi P d := by
  unfold atoi
  omega

/-- A number that was read is written as digits. -/
theorem digits_itoa (d : List Char) : Digits (itoa (atoi P d)) := by
  unfold itoa
  rw [if_neg (not_lt.2 (atoi_nonneg d))]
  exact digits_toDigits _

/-- A number that was read and is written is read the same. -/
theorem atoi_itoa (d : List Char) : atoi P (itoa (atoi P d)) = atoi P d := by
  have hnonneg := atoi_nonneg (P := P) d
  have hbound : atoi P d ≤ P.maxInt := min_le_right _ _
  unfold itoa
  rw [if_neg (not_lt.2 hnonneg)]
  generalize atoi P d = n at hnonneg hbound ⊢
  unfold atoi
  rw [Nat.ofDigitChars_ten_toDigits]
  omega

theorem isSpace_of_suffixRune {c : Char} (h : suffixRune c = true) : Text.isSpace c = false := by
  have hgraphic : '!' ≤ c ∧ c ≤ '~' := by
    unfold suffixRune Char.isDigit Char.isUpper Char.isLower at h
    simp only [Bool.or_eq_true, Bool.and_eq_true, decide_eq_true_eq, ge_iff_le,
      UInt32.le_iff_toNat_le] at h
    simp only [Char.le_def, UInt32.le_iff_toNat_le]
    rcases h with (((hdigit | hupper) | hlower) | rfl) | rfl
    · simp at hdigit ⊢
      omega
    · simp at hupper ⊢
      omega
    · simp at hlower ⊢
      omega
    · decide
    · decide
  exact Text.isSpace_of_graphic hgraphic.1 hgraphic.2

/-- The suffix of a version that was read, behind its separator. -/
def suffixText (pre : String) : List Char := if pre = "" then [] else '-' :: pre.toList

theorem tail_suffixText {tail pre : List Char} (h : Tail tail pre) :
    Tail (suffixText (String.ofList pre)) (String.ofList pre).toList := by
  rw [String.toList_ofList]
  cases h with
  | none => exact .none
  | some hsep hne hall =>
      have hne' : String.ofList pre ≠ "" := by simpa using hne
      rw [suffixText, if_neg hne', String.toList_ofList]
      exact .some (.inl rfl) hne hall

theorem toList_canonical (v : Version) : v.canonical.toList =
    itoa v.major ++ '.' :: (itoa v.minor ++ '.' :: (itoa v.patch ++ suffixText v.pre)) := by
  unfold Version.canonical suffixText
  split_ifs with hpre
  · rw [String.toList_ofList, List.append_nil]
  · simp

/-- The canonical form has the shape of a tag. -/
theorem shape_canonical (hparse : parseTag P tag = .ok v) :
    Shape v.canonical.toList ⟨itoa v.major, itoa v.minor, itoa v.patch, v.pre.toList⟩ := by
  obtain ⟨m, hshape, rfl⟩ := parseTag_eq_ok_iff.1 hparse
  obtain ⟨tail, htail, -⟩ := hshape.text
  exact ⟨digits_itoa _, digits_itoa _, digits_itoa _, _, tail_suffixText htail, toList_canonical _⟩

theorem Tail.suffixRune {tail pre : List Char} (h : Tail tail pre) :
    ∀ c ∈ tail, suffixRune c = true := by
  cases h with
  | none => simp
  | some hsep hne hall =>
      intro c hc
      rcases List.mem_cons.1 hc with rfl | hmem
      · rcases hsep with rfl | rfl <;> rfl
      · exact hall c hmem

/-- All of a tag could stand in a suffix. -/
theorem Shape.suffixRune {s : List Char} {m : Submatch} (h : Shape s m) :
    ∀ c ∈ s, suffixRune c = true := by
  obtain ⟨hmajor, hminor, hpatch, tail, htail, rfl⟩ := h
  have hdigit : ∀ {d : List Char}, Digits d → ∀ c ∈ d, Releases.suffixRune c = true := by
    intro d hd c hc
    simp [Releases.suffixRune, hd.2 c hc]
  intro c hc
  simp only [List.mem_append, List.mem_cons] at hc
  rcases hc with hc | rfl | hc | rfl | hc | hc
  · exact hdigit hmajor c hc
  · rfl
  · exact hdigit hminor c hc
  · rfl
  · exact hdigit hpatch c hc
  · exact htail.suffixRune c hc

/-- A tag of this shape has no `v` in front of it. -/
theorem Shape.unprefixed_eq {s : List Char} {m : Submatch} (h : Shape s m) : unprefixed s = s := by
  obtain ⟨hmajor, -, -, tail, -, rfl⟩ := h
  obtain ⟨c, d, hd⟩ := List.exists_cons_of_ne_nil hmajor.1
  have hdigit := hmajor.2 c (by simp [hd])
  rw [hd, List.cons_append]
  unfold unprefixed
  split
  next heq =>
    cases (List.cons.inj heq).1
    cases hdigit
  · rfl

/-- **The canonical form is read as the version it is of**, but for the text
it was read from. -/
theorem parseTag_canonical (hparse : parseTag P tag = .ok v) :
    parseTag P v.canonical = .ok { v with raw := v.canonical } := by
  have hshape := shape_canonical hparse
  have htrim : Text.trimSpace v.canonical.toList = v.canonical.toList :=
    Text.trimSpace_of_forall fun c hc => isSpace_of_suffixRune (hshape.suffixRune c hc)
  rw [parseTag_eq_ok_iff, htrim, hshape.unprefixed_eq]
  refine ⟨_, hshape, ?_⟩
  obtain ⟨m, -, rfl⟩ := parseTag_eq_ok_iff.1 hparse
  simp only [atoi_itoa, String.ofList_toList]

end RoundTrip

end Releases

end OpenManet
