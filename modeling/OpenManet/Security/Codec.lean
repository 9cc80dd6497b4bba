import OpenManet.Lib.Bytes
import OpenManet.Lib.Text
import Mathlib.Data.Int.Bitwise
import Mathlib.Logic.Function.Basic
/-!
# Mesh payloads — the envelope and its codec

A payload leaves a node as an envelope: a version byte, the second it was
sealed at, a nonce, and the text sealed under the key the mesh passphrase
gives. `Decrypt` reads it back in the order the checks stand in the source:
length, version, age, replay, authentication; and remembers the nonce of
what it accepts.

The cipher is a parameter, since it is not code of this repository. `Seal` is
a function of its arguments; `Open` is also told what `Seal` has been asked
under the key so far, so that the ideal cipher, which opens that and nothing
else, is one of its instances.

A time is a number of nanoseconds since the zero time, of which there are
enough for every clock. The second in an envelope comes off the wire, and goes through
the conversions of a 64-bit machine.
-/

namespace OpenManet

namespace Security

open Bytes

/-! ## The cipher -/

/-- `chacha20poly1305.NonceSizeX`. -/
def nonceSizeX : ℕ := 24

/-- A nonce, as `rand.Read` fills it. -/
abbrev Nonce := { bs : List UInt8 // bs.length = nonceSizeX }

/-- What `Seal` has been asked for. -/
structure Sealing where
  nonce : List UInt8
  plaintext : List UInt8
  aad : List UInt8
deriving DecidableEq

/-- `cipher.AEAD` under one key. -/
structure Aead where
  overhead : ℕ
  sealWith : (nonce plaintext aad : List UInt8) → List UInt8
  openWith : (history : List Sealing) → (nonce ciphertext aad : List UInt8) → Option (List UInt8)

/-- The ideal cipher: what it opens is what it has sealed, and the tag it
appends is of a fixed length. -/
structure Aead.Ideal (A : Aead) : Prop where
  opens_iff : ∀ history nonce ciphertext aad plaintext,
    A.openWith history nonce ciphertext aad = some plaintext ↔
      ⟨nonce, plaintext, aad⟩ ∈ history ∧ ciphertext = A.sealWith nonce plaintext aad
  length_seal : ∀ nonce plaintext aad,
    (A.sealWith nonce plaintext aad).length = plaintext.length + A.overhead

/-- The ideal cipher that hides nothing: an all-zero tag of the length of
Poly1305's, and the history to tell what is authentic. -/
def Aead.clear : Aead where
  overhead := 16
  sealWith := fun _ plaintext _ => plaintext ++ List.replicate 16 0
  openWith := fun history nonce ciphertext aad =>
    (history.find? fun s => s.nonce == nonce && s.aad == aad &&
      ciphertext == s.plaintext ++ List.replicate 16 0).map (·.plaintext)

theorem Aead.clear_ideal : Aead.clear.Ideal where
  opens_iff := by
    intro history nonce ciphertext aad plaintext
    simp only [Aead.clear, Option.map_eq_some_iff]
    constructor
    · rintro ⟨s, hs, rfl⟩
      have hmem := List.mem_of_find?_eq_some hs
      have hkey := List.find?_some hs
      simp only [Bool.and_eq_true, beq_iff_eq] at hkey
      obtain ⟨⟨rfl, rfl⟩, rfl⟩ := hkey
      exact ⟨hmem, rfl⟩
    · rintro ⟨hmem, rfl⟩
      -- whatever the search finds under this ciphertext is this plaintext
      obtain ⟨s, hs⟩ : ∃ s, history.find? (fun s => s.nonce == nonce && s.aad == aad &&
          plaintext ++ List.replicate 16 0 == s.plaintext ++ List.replicate 16 0) = some s := by
        rw [← Option.isSome_iff_exists, List.find?_isSome]
        exact ⟨_, hmem, by simp⟩
      have hkey := List.find?_some hs
      simp only [Bool.and_eq_true, beq_iff_eq] at hkey
      exact ⟨s, hs, (List.append_cancel_right hkey.2).symm⟩
  length_seal := by
    intro nonce plaintext aad
    simp [Aead.clear]

/-! ## The clock -/

/-- The conversion to `int64`. -/
def int64 (n : ℤ) : ℤ := Int.bmod n (2 ^ 64)

/-- The conversion of an `int64` to `uint64`. -/
def uint64 (n : ℤ) : ℕ := (n % 2 ^ 64).toNat

/-- The seconds from the zero time to the Unix epoch. -/
def unixToInternal : ℤ := 62135596800

/-- `time.Time.Unix`. -/
def unix (t : ℤ) : ℤ := int64 (t / 1000000000 - unixToInternal)

/-- `time.Unix`, of a whole second. -/
def timeUnix (sec : ℤ) : ℤ := int64 (sec + unixToInternal) * 1000000000

/-- `defaultReplayWindow`: ten minutes. -/
def defaultReplayWindow : ℤ := 600000000000

/-! ## The codec -/

/-- `envelopeVersion`. -/
def envelopeVersion : UInt8 := 1

/-- `envelopeTimestampSize`. -/
def envelopeTimestampSize : ℕ := 8

/-- `envelopeHeaderSize`. -/
def envelopeHeaderSize : ℕ := 1 + envelopeTimestampSize + nonceSizeX

/-- `PayloadCodec.seen`: under each key, the time its payload was received
at. -/
abbrev Seen := String → Option ℤ

/-- `PayloadCodec`. -/
structure PayloadCodec where
  aead : Aead
  replayWindow : ℤ
  seen : Seen

/-- What `Decrypt` refuses with. -/
inductive DecryptError where
  /-- "encrypted payload too short" -/
  | tooShort
  /-- "unsupported payload envelope version" -/
  | unsupportedVersion (version : UInt8)
  /-- `ErrPayloadExpired` -/
  | payloadExpired
  /-- `ErrReplayDetected` -/
  | replayDetected
  /-- "failed to decrypt payload" -/
  | notAuthentic
deriving DecidableEq

/-- `newPayloadCodecFromPassphrase`. The key a passphrase derives and the
cipher under it are `derive`. -/
def newPayloadCodecFromPassphrase (derive : List Char → Aead) (passphrase : List Char) :
    Except String PayloadCodec :=
  let passphrase := Text.trimSpace passphrase
  if passphrase = [] then .error "mesh passphrase cannot be empty"
  else .ok { aead := derive passphrase, replayWindow := defaultReplayWindow, seen := fun _ => none }

/-- A codec as it is built. -/
theorem eq_of_new {derive : List Char → Aead} {passphrase : List Char} {c : PayloadCodec}
    (h : newPayloadCodecFromPassphrase derive passphrase = .ok c) :
    c = { aead := derive (Text.trimSpace passphrase), replayWindow := defaultReplayWindow,
          seen := fun _ => none } := by
  unfold newPayloadCodecFromPassphrase at h
  dsimp only at h
  split at h
  · cases h
  · exact (Except.ok.inj h).symm

/-- `buildAAD`. -/
def buildAAD (dataType : UInt8) (timestamp : ℤ) : List UInt8 :=
  envelopeVersion :: dataType :: putBigEndian envelopeTimestampSize (uint64 timestamp)

/-- `replayKey`. -/
def replayKey (source nonce : List UInt8) : String :=
  let sourceID := if 0 < source.length then hexColons source else "unknown".toList
  String.ofList (sourceID ++ ':' :: hex nonce)

/-- `Encrypt` once the nonce is drawn: the envelope, and what `Seal` was
asked for. -/
def PayloadCodec.encryptWith (c : PayloadCodec) (nonce : Nonce) (now : ℤ) (dataType : UInt8)
    (plaintext : List UInt8) : List UInt8 × Sealing :=
  let ts := unix now
  let aad := buildAAD dataType ts
  let ciphertext := c.aead.sealWith nonce.1 plaintext aad
  (envelopeVersion :: putBigEndian envelopeTimestampSize (uint64 ts) ++ (nonce.1 ++ ciphertext),
    ⟨nonce.1, plaintext, aad⟩)

/-- `Encrypt`. The nonce is what `rand.Read` filled, if it did. -/
def PayloadCodec.encrypt (c : PayloadCodec) (rand : Option Nonce) (now : ℤ) (dataType : UInt8)
    (plaintext : List UInt8) : Except String (List UInt8 × Sealing) :=
  match rand with
  | none => .error "failed to generate nonce"
  | some nonce => .ok (c.encryptWith nonce now dataType plaintext)

/-- `pruneSeen`. -/
def pruneSeen (window : ℤ) (seen : Seen) (now : ℤ) : Seen :=
  fun key => (seen key).filter fun receivedAt => !decide (receivedAt < now - window)

/-- `isReplay`: one section under the lock. -/
def PayloadCodec.isReplay (c : PayloadCodec) (key : String) (now : ℤ) : Bool × PayloadCodec :=
  let seen := pruneSeen c.replayWindow c.seen now
  ((seen key).isSome, { c with seen := seen })

/-- `markSeen`: one section under the lock. -/
def PayloadCodec.markSeen (c : PayloadCodec) (key : String) (now : ℤ) : PayloadCodec :=
  { c with seen := Function.update (pruneSeen c.replayWindow c.seen now) key (some now) }

/-- A call of `Decrypt`: its arguments, the clock it reads, and what has been
sealed under the key when it opens the envelope. -/
structure Call where
  history : List Sealing
  now : ℤ
  dataType : UInt8
  source : List UInt8
  encrypted : List UInt8
deriving DecidableEq

/-- What `Decrypt` has taken from an envelope when it comes to the lock. -/
structure Header where
  ts : ℤ
  nonce : List UInt8
  ciphertext : List UInt8
deriving DecidableEq

/-- `Decrypt` up to the lock, on the bytes and the clock alone. Every read of
the envelope is a cut that fails, as the program would, where it leaves the
byte string. -/
def PayloadCodec.readHeader (c : PayloadCodec) (call : Call) : Option (Except DecryptError Header) :=
  if call.encrypted.length < envelopeHeaderSize + c.aead.overhead then
    some (.error .tooShort)
  else do
    let version ← call.encrypted[0]?
    if version ≠ envelopeVersion then
      return .error (.unsupportedVersion version)
    let ts := int64 (bigEndian (← slice call.encrypted 1 9))
    let msgTime := timeUnix ts
    if msgTime < call.now - c.replayWindow ∨ call.now + c.replayWindow < msgTime then
      return .error .payloadExpired
    let nonce ← slice call.encrypted 9 envelopeHeaderSize
    let ciphertext ← slice call.encrypted envelopeHeaderSize call.encrypted.length
    return .ok ⟨ts, nonce, ciphertext⟩

/-- `Open`, as `Decrypt` calls it. -/
def PayloadCodec.openEnvelope (c : PayloadCodec) (call : Call) (header : Header) :
    Option (List UInt8) :=
  c.aead.openWith call.history header.nonce header.ciphertext (buildAAD call.dataType header.ts)

/-- `Decrypt`: the answer and the codec after it. No value at all is a read
outside the byte string. -/
def PayloadCodec.decrypt (c : PayloadCodec) (call : Call) :
    Option (Except DecryptError (List UInt8) × PayloadCodec) :=
  match c.readHeader call with
  | none => none
  | some (.error e) => some (.error e, c)
  | some (.ok header) =>
      let key := replayKey call.source header.nonce
      match c.isReplay key call.now with
      | (true, c) => some (.error .replayDetected, c)
      | (false, c) =>
          match c.openEnvelope call header with
          | none => some (.error .notAuthentic, c)
          | some plaintext => some (.ok plaintext, c.markSeen key call.now)

/-! ## The layout -/

/-- The bytes of an envelope. -/
def envelope (ts : ℤ) (nonce ciphertext : List UInt8) : List UInt8 :=
  envelopeVersion :: putBigEndian envelopeTimestampSize (uint64 ts) ++ (nonce ++ ciphertext)

/-- A number of the `int64` type. -/
def IsInt64 (n : ℤ) : Prop := int64 n = n

/-- The second lies in the window around the clock. -/
def Fresh (window : ℤ) (now : ℤ) (ts : ℤ) : Prop :=
  now - window ≤ timeUnix ts ∧ timeUnix ts ≤ now + window

instance (window now ts : ℤ) : Decidable (Fresh window now ts) :=
  inferInstanceAs (Decidable (_ ∧ _))

theorem isInt64_int64 (n : ℤ) : IsInt64 (int64 n) := by
  unfold IsInt64 int64
  exact Int.bmod_bmod

theorem uint64_lt (n : ℤ) : uint64 n < 256 ^ envelopeTimestampSize := by
  unfold uint64 envelopeTimestampSize
  omega

theorem int64_uint64 (n : ℤ) : int64 (uint64 n) = int64 n := by
  have hpos : (0 : ℤ) ≤ n % 2 ^ 64 := Int.emod_nonneg n (by decide)
  have hmod : Int.bmod (n % ((2 ^ 64 : ℕ) : ℤ)) (2 ^ 64) = Int.bmod n (2 ^ 64) := Int.emod_bmod ..
  unfold int64 uint64
  rw [Int.toNat_of_nonneg hpos]
  exact hmod

@[simp] theorem uint64_int64 (n : ℤ) : uint64 (int64 n) = uint64 n := by
  have hmod : Int.bmod n (2 ^ 64) % ((2 ^ 64 : ℕ) : ℤ) = n % ((2 ^ 64 : ℕ) : ℤ) := Int.bmod_emod
  unfold uint64 int64
  exact congrArg Int.toNat hmod

theorem uint64_natCast {n : ℕ} (hn : n < 256 ^ envelopeTimestampSize) : uint64 n = n := by
  have hlt : n < 2 ^ 64 := hn
  unfold uint64
  omega

theorem bigEndian_timestamp (ts : ℤ) :
    int64 (bigEndian (putBigEndian envelopeTimestampSize (uint64 ts))) = int64 ts := by
  rw [bigEndian_putBigEndian, Nat.mod_eq_of_lt (uint64_lt ts), int64_uint64]

/-- The associated data names the type and the second. -/
theorem buildAAD_inj {d d' : UInt8} {ts ts' : ℤ} (h : buildAAD d ts = buildAAD d' ts') :
    d = d' ∧ int64 ts = int64 ts' := by
  obtain ⟨-, htail⟩ := List.cons.inj h
  obtain ⟨hd, hts⟩ := List.cons.inj htail
  refine ⟨hd, ?_⟩
  rw [← bigEndian_timestamp ts, hts, bigEndian_timestamp]

/-- An envelope determines its parts. -/
theorem envelope_inj {ts ts' : ℤ} {nonce nonce' ciphertext ciphertext' : List UInt8}
    (h : envelope ts nonce ciphertext = envelope ts' nonce' ciphertext')
    (hnonce : nonce.length = nonce'.length) :
    int64 ts = int64 ts' ∧ nonce = nonce' ∧ ciphertext = ciphertext' := by
  have hcons : envelopeVersion :: (putBigEndian envelopeTimestampSize (uint64 ts) ++
      (nonce ++ ciphertext)) = envelopeVersion :: (putBigEndian envelopeTimestampSize (uint64 ts') ++
      (nonce' ++ ciphertext')) := h
  obtain ⟨hts, hrest⟩ := List.append_inj (List.cons.inj hcons).2 (by simp)
  obtain ⟨hnonce, hciphertext⟩ := List.append_inj hrest hnonce
  refine ⟨?_, hnonce, hciphertext⟩
  rw [← bigEndian_timestamp ts, hts, bigEndian_timestamp]

/-- **A key names its source and its nonce.** -/
theorem replayKey_inj {source source' nonce nonce' : List UInt8}
    (hlen : nonce.length = nonce'.length) (h : replayKey source nonce = replayKey source' nonce') :
    source = source' ∧ nonce = nonce' := by
  unfold replayKey at h
  have hchars := String.ofList_injective h
  obtain ⟨hsource, hrest⟩ := List.append_inj' hchars (by simp [length_hex, hlen])
  refine ⟨?_, hex_injective (List.cons.inj hrest).2⟩
  cases source with
  | nil =>
      cases source' with
      | nil => rfl
      | cons b bs =>
          rw [if_neg (by simp), if_pos (by simp)] at hsource
          have hhead : (hexColons (b :: bs)).head? = some 'u' := by rw [← hsource]; rfl
          exact absurd hhead (hexColons_head_ne_u b bs)
  | cons a as =>
      cases source' with
      | nil =>
          rw [if_pos (by simp), if_neg (by simp)] at hsource
          have hhead : (hexColons (a :: as)).head? = some 'u' := by rw [hsource]; rfl
          exact absurd hhead (hexColons_head_ne_u a as)
      | cons b bs =>
          rw [if_pos (by simp), if_pos (by simp)] at hsource
          exact hexColons_injective hsource

namespace PayloadCodec

variable {c : PayloadCodec} {call : Call} {header : Header}

/-- A byte string of the length of a header has its parts. -/
theorem exists_parts {bs : List UInt8} (h : envelopeHeaderSize ≤ bs.length) :
    ∃ version ts nonce ciphertext, bs = version :: ts ++ (nonce ++ ciphertext) ∧
      ts.length = envelopeTimestampSize ∧ nonce.length = nonceSizeX := by
  have hlen : 33 ≤ bs.length := h
  cases bs with
  | nil => simp at hlen
  | cons version rest =>
      rw [List.length_cons] at hlen
      refine ⟨version, rest.take 8, (rest.take 32).drop 8, rest.drop 32, ?_, ?_, ?_⟩
      · rw [List.cons_append, append_slices (by decide)]
      · rw [List.length_take, envelopeTimestampSize]
        omega
      · rw [List.length_drop, List.length_take, nonceSizeX]
        omega

/-- The checks on the parts, in their order. -/
theorem readHeader_parts {version : UInt8} {ts nonce ciphertext : List UInt8}
    (hbytes : call.encrypted = version :: ts ++ (nonce ++ ciphertext))
    (hts : ts.length = envelopeTimestampSize) (hnonce : nonce.length = nonceSizeX)
    (hlong : c.aead.overhead ≤ ciphertext.length) :
    c.readHeader call =
      if version ≠ envelopeVersion then some (.error (.unsupportedVersion version))
      else if timeUnix (int64 (bigEndian ts)) < call.now - c.replayWindow ∨
          call.now + c.replayWindow < timeUnix (int64 (bigEndian ts)) then
        some (.error .payloadExpired)
      else some (.ok ⟨int64 (bigEndian ts), nonce, ciphertext⟩) := by
  have hlen : call.encrypted.length = envelopeHeaderSize + ciphertext.length := by
    rw [hbytes, List.length_append, List.length_append, List.length_cons, hts, hnonce]
    simp only [envelopeHeaderSize]
    omega
  have hversion : call.encrypted[0]? = some version := by rw [hbytes]; rfl
  have htimestamp : slice call.encrypted 1 9 = some ts := by
    rw [hbytes, ← List.singleton_append, List.append_assoc]
    exact slice_append rfl (by rw [hts]; rfl)
  have hcut : slice call.encrypted 9 envelopeHeaderSize = some nonce := by
    rw [hbytes]
    refine slice_append ?_ ?_
    · rw [List.length_cons, hts]; rfl
    · rw [List.length_cons, hts, hnonce]; rfl
  have hrest : slice call.encrypted envelopeHeaderSize call.encrypted.length = some ciphertext := by
    rw [hlen, hbytes, ← List.append_nil (nonce ++ ciphertext), List.append_assoc nonce,
      ← List.append_assoc _ nonce]
    refine slice_append ?_ ?_
    · rw [List.length_append, List.length_cons, hts, hnonce]; rfl
    · rw [List.length_append, List.length_cons, hts, hnonce]; rfl
  have hlong' : ¬ call.encrypted.length < envelopeHeaderSize + c.aead.overhead := by omega
  rw [readHeader, if_neg hlong', hversion, htimestamp, hcut, hrest]
  by_cases hv : version = envelopeVersion
  · by_cases hstale : timeUnix (int64 (bigEndian ts)) < call.now - c.replayWindow ∨
        call.now + c.replayWindow < timeUnix (int64 (bigEndian ts))
    · simp [hv, hstale]
    · simp [hv, hstale]
  · simp [hv]

/-- **Every read stays inside the byte string.** -/
theorem readHeader_isSome (c : PayloadCodec) (call : Call) : (c.readHeader call).isSome := by
  by_cases hshort : call.encrypted.length < envelopeHeaderSize + c.aead.overhead
  · rw [readHeader, if_pos hshort]
    rfl
  · obtain ⟨version, ts, nonce, ciphertext, hbytes, hts, hnonce⟩ :=
      exists_parts (show envelopeHeaderSize ≤ call.encrypted.length by omega)
    have hlong : c.aead.overhead ≤ ciphertext.length := by
      rw [hbytes, List.length_append, List.length_append, List.length_cons, hts, hnonce] at hshort
      simp only [envelopeHeaderSize] at hshort
      omega
    rw [readHeader_parts hbytes hts hnonce hlong]
    split
    · rfl
    · split <;> rfl

/-- **What is read of an envelope** that is neither short, foreign nor
stale: the three parts it was put together from. -/
theorem readHeader_ok_iff :
    c.readHeader call = some (.ok header) ↔
      call.encrypted = envelope header.ts header.nonce header.ciphertext ∧ IsInt64 header.ts ∧
        header.nonce.length = nonceSizeX ∧ c.aead.overhead ≤ header.ciphertext.length ∧
        Fresh c.replayWindow call.now header.ts := by
  constructor
  · intro h
    have hlong : ¬ call.encrypted.length < envelopeHeaderSize + c.aead.overhead := by
      intro hshort
      rw [readHeader, if_pos hshort] at h
      cases h
    obtain ⟨version, ts, nonce, ciphertext, hbytes, hts, hnonce⟩ :=
      exists_parts (show envelopeHeaderSize ≤ call.encrypted.length by omega)
    have hlen : c.aead.overhead ≤ ciphertext.length := by
      rw [hbytes, List.length_append, List.length_append, List.length_cons, hts, hnonce] at hlong
      simp only [envelopeHeaderSize] at hlong
      omega
    rw [readHeader_parts hbytes hts hnonce hlen] at h
    split at h
    · cases h
    rename_i hversion
    split at h
    · cases h
    rename_i hfresh
    obtain rfl := Except.ok.inj (Option.some.inj h)
    rw [not_or, not_lt, not_lt] at hfresh
    dsimp only
    refine ⟨?_, isInt64_int64 (bigEndian ts : ℤ), hnonce, hlen, hfresh⟩
    -- the eight bytes are those of the second they spell
    have hlt : bigEndian ts < 256 ^ envelopeTimestampSize := hts ▸ bigEndian_lt ts
    have hback : putBigEndian envelopeTimestampSize (uint64 (int64 (bigEndian ts))) = ts := by
      rw [uint64_int64, uint64_natCast hlt, ← hts, putBigEndian_bigEndian]
    show call.encrypted = envelopeVersion ::
      putBigEndian envelopeTimestampSize (uint64 (int64 (bigEndian ts))) ++ (nonce ++ ciphertext)
    rw [hback, hbytes, not_not.1 hversion]
  · rintro ⟨hbytes, hint, hnonce, hlong, hfresh⟩
    have hts : int64 (bigEndian (putBigEndian envelopeTimestampSize (uint64 header.ts))) =
        header.ts := (bigEndian_timestamp _).trans hint
    have hparts := readHeader_parts (c := c) hbytes (length_putBigEndian _ _) hnonce hlong
    rw [hts] at hparts
    rw [hparts, if_neg (by simp), if_neg (by rw [not_or, not_lt, not_lt]; exact hfresh)]

/-! ## One call -/

@[simp] theorem pruneSeen_eq_some {window : ℤ} {seen : Seen} {now t : ℤ} {key : String} :
    pruneSeen window seen now key = some t ↔ seen key = some t ∧ now - window ≤ t := by
  simp [pruneSeen, Option.filter_eq_some_iff]

theorem pruneSeen_pruneSeen (window : ℤ) (seen : Seen) (now : ℤ) :
    pruneSeen window (pruneSeen window seen now) now = pruneSeen window seen now := by
  funext key
  refine Option.ext fun t => ?_
  rw [pruneSeen_eq_some, pruneSeen_eq_some, and_assoc, and_self]

/-- Pruning only forgets what is older than the window. -/
theorem pruneSeen_eq (window : ℤ) (seen : Seen) (now : ℤ) (key : String) :
    pruneSeen window seen now key = seen key ∨
      pruneSeen window seen now key = none ∧ ∃ t, seen key = some t ∧ t < now - window := by
  cases hseen : seen key with
  | none => exact .inl (by simp [pruneSeen, hseen])
  | some t =>
      by_cases hold : t < now - window
      · have hgone : pruneSeen window seen now key = none := by
          simp only [pruneSeen, hseen, Option.filter_some, decide_eq_true hold]
          rfl
        exact .inr ⟨hgone, t, rfl, hold⟩
      · refine .inl ?_
        simp only [pruneSeen, hseen, Option.filter_some, decide_eq_false hold]
        rfl

/-- The codec with its memory pruned. -/
def pruned (c : PayloadCodec) (now : ℤ) : PayloadCodec :=
  { c with seen := pruneSeen c.replayWindow c.seen now }

/-- The answer past the checks, in the three ways the lock and the cipher
give. -/
theorem decrypt_of_header (hheader : c.readHeader call = some (.ok header)) :
    c.decrypt call =
      if ((c.pruned call.now).seen (replayKey call.source header.nonce)).isSome then
        some (.error .replayDetected, c.pruned call.now)
      else
        match c.openEnvelope call header with
        | none => some (.error .notAuthentic, c.pruned call.now)
        | some plaintext => some (.ok plaintext,
            (c.pruned call.now).markSeen (replayKey call.source header.nonce) call.now) := by
  rw [decrypt, hheader]
  simp only [isReplay]
  cases hseen : (pruneSeen c.replayWindow c.seen call.now (replayKey call.source header.nonce)) with
  | none =>
      rw [if_neg (by simp [pruned, hseen])]
      rfl
  | some t =>
      rw [if_pos (by simp [pruned, hseen])]
      rfl

/-- Marking right after the lookup prunes nothing more. -/
theorem markSeen_pruned (c : PayloadCodec) (key : String) (now : ℤ) :
    (c.pruned now).markSeen key now =
      { c with seen := Function.update (c.pruned now).seen key (some now) } := by
  simp only [markSeen, pruned, pruneSeen_pruneSeen]

/-- **What is accepted**: an envelope whose nonce is not remembered, that the
cipher opens; and its nonce is remembered from then on. -/
theorem decrypt_ok_iff {c' : PayloadCodec} {plaintext : List UInt8} :
    c.decrypt call = some (.ok plaintext, c') ↔
      ∃ header, c.readHeader call = some (.ok header) ∧
        (c.pruned call.now).seen (replayKey call.source header.nonce) = none ∧
        c.openEnvelope call header = some plaintext ∧
        c' = { c with seen := Function.update (c.pruned call.now).seen
                        (replayKey call.source header.nonce) (some call.now) } := by
  constructor
  · intro h
    rcases hheader : c.readHeader call with _ | e | header
    · rw [decrypt, hheader] at h
      cases h
    · rw [decrypt, hheader] at h
      cases h
    rw [decrypt_of_header hheader] at h
    split at h
    · cases h
    rename_i hunseen
    rcases hopen : c.openEnvelope call header with _ | p
    · rw [hopen] at h
      cases h
    · rw [hopen] at h
      cases h
      exact ⟨header, rfl, by simpa using hunseen, hopen, markSeen_pruned ..⟩
  · rintro ⟨header, hheader, hunseen, hopen, rfl⟩
    rw [decrypt_of_header hheader, if_neg (by simp [hunseen]), hopen, ← markSeen_pruned]

/-- What is refused leaves the codec as it was, or prunes it. -/
theorem decrypt_error {c' : PayloadCodec} {e : DecryptError}
    (h : c.decrypt call = some (.error e, c')) : c' = c ∨ c' = c.pruned call.now := by
  rcases hheader : c.readHeader call with _ | e' | header
  · rw [decrypt, hheader] at h
    cases h
  · rw [decrypt, hheader] at h
    cases h
    exact .inl rfl
  rw [decrypt_of_header hheader] at h
  split at h
  · cases h
    exact .inr rfl
  rcases hopen : c.openEnvelope call header with _ | p
  · rw [hopen] at h
    cases h
    exact .inr rfl
  · rw [hopen] at h
    cases h

/-- A call always has an answer. -/
theorem decrypt_isSome (c : PayloadCodec) (call : Call) : (c.decrypt call).isSome := by
  have hsome := readHeader_isSome c call
  rcases hheader : c.readHeader call with _ | e | header
  · rw [hheader] at hsome
    cases hsome
  · rw [decrypt, hheader]
    rfl
  rw [decrypt_of_header hheader]
  split
  · rfl
  · split <;> rfl

end PayloadCodec

end Security

end OpenManet
