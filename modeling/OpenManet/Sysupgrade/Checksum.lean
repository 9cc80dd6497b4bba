import OpenManet.Sysupgrade.Model
import Mathlib.Data.List.Basic
/-!
# The sums file

`internal/sysupgrade/checksum.go`: reading the release's `sha256sums` and
looking up one asset. Strings are bytes, as they are in the source; white
space is what `unicode.IsSpace` says of their UTF-8 characters. Lower-casing
is kept for the letters `A` to `Z`: no other character has a hexadecimal
digit for its lower case, so any other digest is malformed either way.

The body is read through a limit of 16 KiB and line by line. What the
scanner yields last is whatever was read of the last line, and that line is
looked at like the others even when the body broke off there.
-/

namespace OpenManet

namespace Sysupgrade

/-- Why an upgrade stops before the runner. -/
inductive Failure where
  | sumsRequest
  | sumsStatus
  | sumsScan
  | malformedDigest
  | checksumNotFound
  | statfs
  | insufficientSpace
  | mkdir
  | request
  | status
  | create
  | canceled
  | read
  | write
  | fsync
  | close
  | checksumMismatch
  | mkdirLog
deriving DecidableEq, Repr

/-- `sha256SumsBodyLimit`. -/
def sha256SumsBodyLimit : ℕ := 16 * 1024

/-! ## Strings -/

/-- The width of the white-space character a string begins with; zero where
it begins with another one. -/
def spaceWidth : Bytes → ℕ
  | 0xC2 :: b :: _ => if b == 0x85 || b == 0xA0 then 2 else 0
  | 0xE1 :: 0x9A :: 0x80 :: _ => 3
  | 0xE2 :: 0x80 :: b :: _ =>
    if (decide (0x80 ≤ b) && decide (b ≤ 0x8A)) || b == 0xA8 || b == 0xA9 || b == 0xAF then 3 else 0
  | 0xE2 :: 0x81 :: 0x9F :: _ => 3
  | 0xE3 :: 0x80 :: 0x80 :: _ => 3
  | b :: _ => if (decide (9 ≤ b) && decide (b ≤ 13)) || b == 32 then 1 else 0
  | [] => 0

/-- A string, unless it is empty. -/
def nonEmpty (s : Bytes) : List Bytes := if s.isEmpty then [] else [s]

/-- `strings.Fields`, within a character `skip` bytes of which are left and
with a field begun. -/
def fieldsFrom : ℕ → Bytes → Bytes → List Bytes
  | _, field, [] => nonEmpty field
  | skip + 1, field, _ :: rest => fieldsFrom skip field rest
  | 0, field, b :: rest =>
    match spaceWidth (b :: rest) with
    | 0 => fieldsFrom 0 (field ++ [b]) rest
    | width + 1 => nonEmpty field ++ fieldsFrom width [] rest

/-- `strings.Fields`. -/
def fields (s : Bytes) : List Bytes := fieldsFrom 0 [] s

/-- `strings.TrimSpace` at the left end. -/
def trimLeft : ℕ → Bytes → Bytes
  | _, [] => []
  | skip + 1, _ :: rest => trimLeft skip rest
  | 0, b :: rest =>
    match spaceWidth (b :: rest) with
    | 0 => b :: rest
    | width + 1 => trimLeft width rest

/-- `strings.TrimPrefix`. -/
def trimStart (p s : Bytes) : Bytes := if p.isPrefixOf s then s.drop p.length else s

/-- The lower case of a letter. -/
def lowerByte (b : UInt8) : UInt8 := if decide (65 ≤ b) && decide (b ≤ 90) then b + 32 else b

/-- `strings.ToLower`. -/
def toLower (s : Bytes) : Bytes := s.map lowerByte

/-- `strings.EqualFold`, of hexadecimal strings. -/
def equalFold (a b : Bytes) : Bool := toLower a == toLower b

/-- `hex.DecodeString` succeeds. -/
def isHex (s : Bytes) : Bool :=
  s.length % 2 == 0 && s.all fun b =>
    (decide (48 ≤ b) && decide (b ≤ 57)) || (decide (97 ≤ b) && decide (b ≤ 102)) ||
      (decide (65 ≤ b) && decide (b ≤ 70))

/-- The digit of a half byte. -/
def hexDigit (n : UInt8) : UInt8 := if n < 10 then 48 + n else 87 + n

/-- `hex.EncodeToString`. -/
def hexEncode (s : Bytes) : Bytes := s.flatMap fun b => [hexDigit (b / 16), hexDigit (b % 16)]

/-- The lines a `bufio.Scanner` yields, with a line begun. The carriage
return it drops goes with the trimming. -/
def linesFrom : Bytes → Bytes → List Bytes
  | line, [] => nonEmpty line
  | line, b :: rest => if b == 10 then line :: linesFrom [] rest else linesFrom (line ++ [b]) rest

/-! ## Looking up an asset -/

/-- The digest and the name a line lists. Blank lines, comments and lines of
one field list nothing. Nothing below looks at the right end of the line, so
it is trimmed at the left. -/
def lineEntry (line : Bytes) : Option (Bytes × Bytes) :=
  let line := trimLeft 0 line
  if line.isEmpty || line.head? == some 35 then none
  else
    match fields line with
    | digest :: f :: fs =>
      some (digest, trimStart [46, 47] (trimStart [42] ([32].intercalate (f :: fs))))
    | _ => none

/-- The loop of `ParseSHA256Sums`, and what follows it; `broken` when the
body ended in an error. -/
def scanSums (assetName : Bytes) (broken : Bool) : List Bytes → Except Failure Bytes
  | [] => .error (if broken then .sumsScan else .checksumNotFound)
  | line :: rest =>
    match lineEntry line with
    | some (digest, name) =>
      if name = assetName then
        if isHex (toLower digest) then .ok (toLower digest) else .error .malformedDigest
      else scanSums assetName broken rest
    | none => scanSums assetName broken rest

/-- An answer to a request: its status, and a body that ends, or breaks
off. -/
structure Reply where
  statusCode : ℕ := 200
  body : Bytes
  broken : Bool := false
deriving DecidableEq, Repr

/-- What is read of the sums file. -/
def Reply.readSums (r : Reply) : Bytes := r.body.take sha256SumsBodyLimit

/-- `FetchSHA256Sum`; `none` for a request that fails. -/
def fetchSHA256Sum (reply : Option Reply) (assetName : Bytes) : Except Failure Bytes :=
  match reply with
  | none => .error .sumsRequest
  | some r =>
    if r.statusCode ≠ 200 then .error .sumsStatus
    else
      scanSums assetName (r.broken && decide (r.body.length < sha256SumsBodyLimit))
        (linesFrom [] r.readSums)

/-- `VerifyDigest`. -/
def verifyDigest (expected got : Bytes) : Except Failure Unit :=
  if equalFold expected got then .ok () else .error .checksumMismatch

/-! ## What the lookup finds -/

/-- The first line that lists `name` gives it this digest, in lower case. -/
def Lists (lines : List Bytes) (name digest : Bytes) : Prop :=
  ∃ before line after field, lines = before ++ line :: after ∧
    lineEntry line = some (field, name) ∧ digest = toLower field ∧
    ∀ l ∈ before, ∀ d n, lineEntry l = some (d, n) → n ≠ name

/-- **The lookup returns the first entry for the name**, and nothing
else. -/
theorem scanSums_eq_ok {name digest : Bytes} {broken : Bool} {lines : List Bytes} :
    scanSums name broken lines = .ok digest ↔ Lists lines name digest ∧ isHex digest = true := by
  induction lines with
  | nil =>
      simp only [scanSums, Lists, reduceCtorEq, false_iff, not_and]
      rintro ⟨before, line, after, field, hcon, -⟩
      cases before <;> cases hcon
  | cons line rest ih =>
      -- a line that is not the name's is passed over on both sides
      have hskip : (∀ d n, lineEntry line = some (d, n) → n ≠ name) →
          (Lists (line :: rest) name digest ↔ Lists rest name digest) := by
        intro hline
        constructor
        · rintro ⟨before, l, after, field, heq, hentry, hd, hbefore⟩
          cases before with
          | nil => cases heq; exact absurd rfl (hline field name hentry)
          | cons b before =>
              cases heq
              exact ⟨before, l, after, field, rfl, hentry, hd,
                fun l' hl' => hbefore l' (List.mem_cons_of_mem _ hl')⟩
        · rintro ⟨before, l, after, field, rfl, hentry, hd, hbefore⟩
          refine ⟨line :: before, l, after, field, rfl, hentry, hd, fun l' hl' => ?_⟩
          obtain rfl | hmem := List.mem_cons.1 hl'
          · exact hline
          · exact hbefore l' hmem
      cases hentry : lineEntry line with
      | none =>
          rw [hskip (by simp [hentry])]
          simpa only [scanSums, hentry] using ih
      | some e =>
          obtain ⟨field, n⟩ := e
          by_cases hn : n = name
          · subst hn
            simp only [scanSums, hentry, if_true]
            have hlists : Lists (line :: rest) n digest ↔ digest = toLower field := by
              constructor
              · rintro ⟨before, l, after, field', heq, hentry', hd, hbefore⟩
                cases before with
                | nil =>
                    cases heq
                    rw [hentry] at hentry'
                    cases hentry'
                    exact hd
                | cons b before =>
                    cases heq
                    exact absurd rfl (hbefore line (List.mem_cons_self ..) field n hentry)
              · rintro rfl
                exact ⟨[], line, rest, field, rfl, hentry, rfl, nofun⟩
            rw [hlists]
            split
            · constructor
              · intro h
                cases h
                exact ⟨rfl, ‹_›⟩
              · rintro ⟨rfl, -⟩
                rfl
            · simp only [reduceCtorEq, false_iff, not_and]
              rintro rfl
              assumption
          · rw [hskip (by rw [hentry]; intro d n' h; cases h; exact hn)]
            simpa only [scanSums, hentry, hn, if_false] using ih

/-! ## Case -/

/-- What holds of the 256 numbers holds of the bytes. -/
theorem forall_byte {P : UInt8 → Prop} (h : ∀ n < 256, P (UInt8.ofNat n)) (b : UInt8) : P b := by
  have hb := h b.toNat b.toNat_lt
  rwa [UInt8.ofNat_toNat] at hb

theorem lowerByte_lowerByte (b : UInt8) : lowerByte (lowerByte b) = lowerByte b :=
  forall_byte (P := fun b => lowerByte (lowerByte b) = lowerByte b) (by decide +kernel) b

theorem lowerByte_hexDigit (b : UInt8) :
    lowerByte (hexDigit (b / 16)) = hexDigit (b / 16) ∧
      lowerByte (hexDigit (b % 16)) = hexDigit (b % 16) :=
  forall_byte (P := fun b => lowerByte (hexDigit (b / 16)) = hexDigit (b / 16) ∧
    lowerByte (hexDigit (b % 16)) = hexDigit (b % 16)) (by decide +kernel) b

theorem toLower_toLower (s : Bytes) : toLower (toLower s) = toLower s := by
  simp only [toLower, List.map_map]
  exact List.map_congr_left fun b _ => lowerByte_lowerByte b

theorem toLower_hexEncode (s : Bytes) : toLower (hexEncode s) = hexEncode s := by
  induction s with
  | nil => rfl
  | cons b s ih =>
      simp only [toLower, hexEncode, List.flatMap_cons, List.map_append, List.map_cons,
        List.map_nil] at ih ⊢
      rw [(lowerByte_hexDigit b).1, (lowerByte_hexDigit b).2, ih]

/-- A digest in lower case passes the check exactly if it is the one
computed. -/
theorem verifyDigest_eq_ok {expected hash : Bytes} (hlower : toLower expected = expected) :
    verifyDigest expected (hexEncode hash) = .ok () ↔ expected = hexEncode hash := by
  simp only [verifyDigest, equalFold, hlower, toLower_hexEncode, beq_iff_eq]
  split <;> simp_all

end Sysupgrade

end OpenManet
