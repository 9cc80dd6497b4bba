import OpenManet.Lib.Bytes
import OpenManet.Sysupgrade.Checksum
/-!
# Image metadata

`parseImageMetadataFromReader` of `internal/sysupgrade/imagemeta.go`: the
metadata of a sysupgrade image stands in a chain of chunks at its end, each
closed by a trailer that says how long the chunk is. The chain is walked from
the end of the file, by sizes the file itself gives.

The reader is any that fills what it is asked for or fails. Next to the answer
stands the list of what was read. Offsets are `int64` in the source; a chunk
size is below `2 ^ 32` and no sum here exceeds the file's size, so they are
integers.
-/

namespace OpenManet

namespace ImageMeta

open Sysupgrade (Bytes)
open Bytes (bigEndian)

/-- `fwimageMagic`, `FWx0`. -/
def fwimageMagic : ℕ := 0x46577830

/-- `fwimageTypeSig`. -/
def fwimageTypeSig : UInt8 := 0

/-- `fwimageTypeInfo`. -/
def fwimageTypeInfo : UInt8 := 1

/-- `fwimageHeaderLen`. -/
def fwimageHeaderLen : ℕ := 8

/-- `fwimageTrailerLen`. -/
def fwimageTrailerLen : ℕ := 16

/-- `fwimageMetaMaxLen`. -/
def fwimageMetaMaxLen : ℕ := 30 * 1024

/-- `fwimageWalkLimit`. -/
def fwimageWalkLimit : ℕ := 8

/-- `ImageVersion`. -/
structure ImageVersion where
  dist : String
  version : String
  revision : String
  target : String
  board : String
deriving DecidableEq, Repr

/-- `ImageMetadata`. -/
structure ImageMetadata where
  version : ImageVersion
  metadataVersion : String
  compatVersion : String
  compatMessage : String
  supportedDevices : List String
  newSupportedDevices : List String
deriving DecidableEq, Repr

/-- Why there is no metadata. -/
inductive ImageError where
  | errNoImageMetadata
  | readTrailer (err : String)
  | malformedSize (chunkSize cursor : ℤ)
  | implausibleLength (jsonLen : ℤ)
  | unknownType (chunkType : UInt8)
  | readPayload (err : String)
  | decode (err : String)
deriving DecidableEq, Repr

def ImageError.text : ImageError → String
  | errNoImageMetadata => "sysupgrade: no FWx0 metadata trailer"
  | readTrailer err => "sysupgrade: read FWx0 trailer: " ++ err
  | malformedSize chunkSize cursor => "sysupgrade: malformed FWx0 chunk size " ++
      toString chunkSize ++ " (cursor=" ++ toString cursor ++ ")"
  | implausibleLength jsonLen => "sysupgrade: implausible FWx0 metadata length " ++ toString jsonLen
  | unknownType chunkType => "sysupgrade: unknown FWx0 chunk type " ++ toString chunkType
  | readPayload err => "sysupgrade: read FWx0 metadata payload: " ++ err
  | decode err => "sysupgrade: decode metadata.json: " ++ err

/-- What is asked of a reader: so many bytes from an offset on. -/
structure Read where
  offset : ℤ
  length : ℕ
deriving DecidableEq, Repr

/-- `io.ReaderAt`: all that was asked for, or an error. -/
structure ReaderAt where
  readAt : Read → Except String Bytes
  full : ∀ {q bs}, readAt q = .ok bs → bs.length = q.length

/-- A file with these bytes. -/
def ReaderAt.ofBytes (bs : Bytes) : ReaderAt where
  readAt q :=
    if 0 ≤ q.offset ∧ q.offset + q.length ≤ bs.length then
      .ok ((bs.drop q.offset.toNat).take q.length)
    else .error "EOF"
  full {q bs'} h := by
    split_ifs at h with hinside
    cases h
    rw [List.length_take, List.length_drop]
    omega

/-! ## White space -/

/-- The width of the white-space character a string ends with; zero where it
ends with another one. -/
def lastSpaceWidth (s : Bytes) : ℕ :=
  ([1, 2, 3].find? fun w => Sysupgrade.spaceWidth (s.drop (s.length - w)) = w).getD 0

/-- `bytes.TrimSpace` at the right end, for a string of at most so many
bytes. -/
def trimRight : ℕ → Bytes → Bytes
  | 0, s => s
  | n + 1, s =>
      if lastSpaceWidth s = 0 then s else trimRight n (s.take (s.length - lastSpaceWidth s))

/-- `bytes.TrimSpace`. -/
def trimSpace (s : Bytes) : Bytes := trimRight s.length (Sysupgrade.trimLeft 0 s)

/-! ## The walk -/

/-- The magic number of a trailer. -/
def magicOf (tr : Bytes) : ℕ := bigEndian (tr.take 4)

/-- The type of the chunk a trailer closes. -/
def typeOf (tr : Bytes) : UInt8 := tr.getD 8 0

/-- The size of the chunk a trailer closes. -/
def sizeOf (tr : Bytes) : ℕ := bigEndian ((tr.take 16).drop 12)

/-- The variables of the walk. -/
structure Walk where
  infoOffset : ℤ
  infoLen : ℤ
  cursor : ℤ
  foundAny : Bool
deriving DecidableEq, Repr

/-- The walk at its start, at the end of the file. -/
def Walk.start (size : ℤ) : Walk := ⟨-1, -1, size, false⟩

/-- The body of the loop, for a trailer with the magic number. -/
def Walk.chunk (s : Walk) (tr : Bytes) : Except ImageError Walk :=
  let chunkSize : ℤ := sizeOf tr
  if chunkSize < fwimageTrailerLen ∨ s.cursor < chunkSize then
    .error (.malformedSize chunkSize s.cursor)
  else
    let chunkStart := s.cursor - chunkSize
    if typeOf tr = fwimageTypeInfo then
      let jsonLen := chunkSize - fwimageHeaderLen - fwimageTrailerLen
      if jsonLen ≤ 0 ∨ fwimageMetaMaxLen < jsonLen then .error (.implausibleLength jsonLen)
      else .ok ⟨chunkStart + fwimageHeaderLen, jsonLen, chunkStart, true⟩
    else if typeOf tr = fwimageTypeSig then
      .ok { s with cursor := chunkStart, foundAny := true }
    else .error (.unknownType (typeOf tr))

/-- The trailer that ends at the cursor. -/
def Walk.trailer (s : Walk) : Read := ⟨s.cursor - fwimageTrailerLen, fwimageTrailerLen⟩

/-- The metadata the walk has found. -/
def Walk.payload (s : Walk) : Read := ⟨s.infoOffset, s.infoLen.toNat⟩

/-- One round of the loop: an error, the end, or the walk that goes on. -/
def Walk.round (r : ReaderAt) (s : Walk) : List Read × Except ImageError (Option Walk) :=
  if s.cursor < fwimageTrailerLen then ([], .ok none)
  else
    match r.readAt s.trailer with
    | .error e => ([s.trailer], .error (.readTrailer e))
    | .ok tr =>
        if magicOf tr ≠ fwimageMagic then ([s.trailer], .ok none)
        else ([s.trailer], (s.chunk tr).map some)

/-- The loop, with as many rounds left. -/
def walk (r : ReaderAt) : ℕ → Walk → List Read × Except ImageError Walk
  | 0, s => ([], .ok s)
  | n + 1, s =>
      match s.round r with
      | (reads, .error e) => (reads, .error e)
      | (reads, .ok none) => (reads, .ok s)
      | (reads, .ok (some s')) => (reads ++ (walk r n s').1, (walk r n s').2)

section Parse

variable (unmarshal : Bytes → Except String ImageMetadata)

/-- What follows the loop. -/
def decodePayload (r : ReaderAt) (s : Walk) : List Read × Except ImageError ImageMetadata :=
  if !s.foundAny || s.infoOffset < 0 then ([], .error .errNoImageMetadata)
  else
    match r.readAt s.payload with
    | .error e => ([s.payload], .error (.readPayload e))
    | .ok payload =>
        match unmarshal (trimSpace payload) with
        | .error e => ([s.payload], .error (.decode e))
        | .ok metadata => ([s.payload], .ok metadata)

/-- `parseImageMetadataFromReader`, with what it reads. -/
def parseImageMetadata (r : ReaderAt) (size : ℤ) : List Read × Except ImageError ImageMetadata :=
  if size < fwimageTrailerLen then ([], .error .errNoImageMetadata)
  else
    match walk r fwimageWalkLimit (.start size) with
    | (reads, .error e) => (reads, .error e)
    | (reads, .ok s) =>
        (reads ++ (decodePayload unmarshal r s).1, (decodePayload unmarshal r s).2)

end Parse

/-! ## What is read -/

/-- A read inside the file. -/
def Read.Inside (q : Read) (size : ℤ) : Prop := 0 ≤ q.offset ∧ q.offset + q.length ≤ size

/-- Where the walk can be in a file of a size: the cursor is in the file, and
so is the metadata it has found. -/
structure Walk.Within (s : Walk) (size : ℤ) : Prop where
  cursor_nonneg : 0 ≤ s.cursor
  cursor_le : s.cursor ≤ size
  payload : 0 ≤ s.infoOffset → s.payload.Inside size

section Inside

variable {r : ReaderAt} {s s' : Walk} {size : ℤ} {tr : Bytes}

theorem Walk.Within.start (hsize : 0 ≤ size) : (Walk.start size).Within size := by
  refine ⟨hsize, le_rfl, fun h => ?_⟩
  have hunset : (0 : ℤ) ≤ -1 := h
  omega

theorem Walk.Within.trailer (h : s.Within size) (hroom : ¬ s.cursor < fwimageTrailerLen) :
    s.trailer.Inside size := by
  have hle := h.cursor_le
  unfold Walk.trailer Read.Inside
  dsimp only
  omega

/-- What a round does: the cursor moves back over the chunk, and the metadata
of an `INFO` chunk is noted. -/
theorem Walk.chunk_cases (h : s.chunk tr = .ok s') :
    (fwimageTrailerLen : ℤ) ≤ sizeOf tr ∧ (sizeOf tr : ℤ) ≤ s.cursor ∧
    ((typeOf tr = fwimageTypeInfo ∧
        (fwimageHeaderLen + fwimageTrailerLen : ℤ) < sizeOf tr ∧
        (sizeOf tr : ℤ) ≤ fwimageHeaderLen + fwimageMetaMaxLen + fwimageTrailerLen ∧
        s' = ⟨s.cursor - sizeOf tr + fwimageHeaderLen,
          sizeOf tr - fwimageHeaderLen - fwimageTrailerLen, s.cursor - sizeOf tr, true⟩) ∨
      (typeOf tr = fwimageTypeSig ∧
        s' = { s with cursor := s.cursor - sizeOf tr, foundAny := true })) := by
  unfold Walk.chunk at h
  dsimp only at h
  split_ifs at h with hsize hinfo hlen hsig
  · cases h
    exact ⟨by omega, by omega, .inl ⟨hinfo, by omega, by omega, rfl⟩⟩
  · cases h
    exact ⟨by omega, by omega, .inr ⟨hsig, rfl⟩⟩

theorem Walk.Within.chunk (hs : s.Within size) (h : s.chunk tr = .ok s') : s'.Within size := by
  obtain ⟨hmin, hmax, hcases⟩ := Walk.chunk_cases h
  have hle := hs.cursor_le
  obtain ⟨-, hlong, -, rfl⟩ | ⟨-, rfl⟩ := hcases
  · refine ⟨by dsimp only; omega, by dsimp only; omega, fun _ => ?_⟩
    unfold Walk.payload Read.Inside
    dsimp only
    omega
  · exact ⟨by dsimp only; omega, by dsimp only; omega, hs.payload⟩

/-- **A round reads in the file**, at most once, and stays in it. -/
theorem Walk.Within.round (hs : s.Within size) : (∀ q ∈ (s.round r).1, q.Inside size) ∧
    (s.round r).1.length ≤ 1 ∧ ∀ s', (s.round r).2 = .ok (some s') → s'.Within size := by
  unfold Walk.round
  split_ifs with hend
  · exact ⟨by simp, by simp, fun s' h => by cases h⟩
  · have hinside := hs.trailer hend
    split
    · exact ⟨by simpa using hinside, by simp, fun s' h => by cases h⟩
    next tr hread =>
      split_ifs with hmagic
      · exact ⟨by simpa using hinside, by simp, fun s' h => by cases h⟩
      · refine ⟨by simpa using hinside, by simp, fun s' h => ?_⟩
        cases hchunk : s.chunk tr with
        | error e =>
            rw [hchunk] at h
            cases h
        | ok s₁ =>
            rw [hchunk] at h
            cases h
            exact hs.chunk hchunk

/-- What the walk keeps: it reads in the file, once a round, and it is left
where it can be. -/
structure Kept (size : ℤ) (n : ℕ) (out : List Read × Except ImageError Walk) : Prop where
  inside : ∀ q ∈ out.1, q.Inside size
  count : out.1.length ≤ n
  within : ∀ s', out.2 = .ok s' → s'.Within size

/-- **The walk stays in the file**, round for round. -/
theorem Walk.Within.walk (hs : s.Within size) (n : ℕ) : Kept size n (walk r n s) := by
  induction n generalizing s with
  | zero =>
      refine ⟨by simp [ImageMeta.walk], le_rfl, fun s' h => ?_⟩
      cases h
      exact hs
  | succ n ih =>
      obtain ⟨hreads, hcount, hnext⟩ := hs.round (r := r)
      rw [ImageMeta.walk]
      split
      next reads e hround =>
        rw [hround] at hreads hcount
        exact ⟨hreads, hcount.trans (by omega), fun s' h => by cases h⟩
      next reads hround =>
        rw [hround] at hreads hcount
        refine ⟨hreads, hcount.trans (by omega), fun s' h => ?_⟩
        cases h
        exact hs
      next reads s₁ hround =>
        rw [hround] at hreads hcount hnext
        have hrest := ih (hnext s₁ rfl)
        refine ⟨fun q hq => ?_, ?_, hrest.within⟩
        · rcases List.mem_append.1 hq with hmem | hmem
          · exact hreads q hmem
          · exact hrest.inside q hmem
        · rw [List.length_append, Nat.add_comm n 1]
          exact Nat.add_le_add hcount hrest.count

theorem decodePayload_inside (unmarshal : Bytes → Except String ImageMetadata)
    (hs : s.Within size) : (∀ q ∈ (decodePayload unmarshal r s).1, q.Inside size) ∧
      (decodePayload unmarshal r s).1.length ≤ 1 := by
  unfold decodePayload
  split_ifs with hnone
  · exact ⟨by simp, by simp⟩
  · have hinside : s.payload.Inside size := by
      refine hs.payload (not_lt.1 fun h => hnone ?_)
      simp [h]
    split
    · exact ⟨by simpa using hinside, by simp⟩
    · split
      · exact ⟨by simpa using hinside, by simp⟩
      · exact ⟨by simpa using hinside, by simp⟩

/-- **The parser reads inside the file only**, nine times at most, whatever
the file says and whether or not it can be read. -/
theorem parse_inside (unmarshal : Bytes → Except String ImageMetadata) (r : ReaderAt) (size : ℤ) :
    (∀ q ∈ (parseImageMetadata unmarshal r size).1, q.Inside size) ∧
      (parseImageMetadata unmarshal r size).1.length ≤ fwimageWalkLimit + 1 := by
  unfold parseImageMetadata
  split_ifs with hsmall
  · exact ⟨by simp, by simp⟩
  · have hsize : 0 ≤ size := by omega
    have hkept := (Walk.Within.start hsize).walk (r := r) fwimageWalkLimit
    split
    next reads e hwalk =>
      rw [hwalk] at hkept
      exact ⟨hkept.inside, Nat.le_succ_of_le hkept.count⟩
    next reads s hwalk =>
      rw [hwalk] at hkept
      obtain ⟨hpayload, hone⟩ := decodePayload_inside (r := r) unmarshal (hkept.within s rfl)
      refine ⟨fun q hq => ?_, ?_⟩
      · rcases List.mem_append.1 hq with hmem | hmem
        · exact hkept.inside q hmem
        · exact hpayload q hmem
      · rw [List.length_append]
        exact Nat.add_le_add hkept.count hone

end Inside

end ImageMeta

end OpenManet
