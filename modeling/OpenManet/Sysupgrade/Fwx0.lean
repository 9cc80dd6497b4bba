import OpenManet.Sysupgrade.ImageMeta
import Mathlib.Data.List.Induction
/-!
# The chunks of an image

What `parseImageMetadataFromReader` makes of a byte string, told from the side
of the one who wrote it. A `Chunk` has a size that its trailer can hold, and
an `INFO` chunk a metadata of a length the parser takes. The walk goes back
over the chunks a file ends with, whatever their order, until the bytes before
them do not end in a trailer or it has gone over eight; the metadata is that of
the first `INFO` chunk among these.
-/

namespace OpenManet

namespace ImageMeta

open Sysupgrade (Bytes)
open Bytes (bigEndian putBigEndian bigEndian_putBigEndian putBigEndian_bigEndian bigEndian_lt
  length_putBigEndian)

/-- What the parser does not look at in a trailer: the checksum and the
padding. -/
structure Mark where
  crc : Bytes
  pad : Bytes
  crc_length : crc.length = 4
  pad_length : pad.length = 3

/-- A trailer. -/
def trailerBytes (mark : Mark) (chunkType : UInt8) (size : ℕ) : Bytes :=
  putBigEndian 4 fwimageMagic ++ (mark.crc ++ (chunkType :: (mark.pad ++ putBigEndian 4 size)))

/-- An `INFO` chunk, less its trailer. -/
structure Info where
  header : Bytes
  json : Bytes
  mark : Mark
  header_length : header.length = fwimageHeaderLen
  json_pos : 0 < json.length
  json_le : json.length ≤ fwimageMetaMaxLen

/-- A signature chunk, less its trailer. -/
structure Signature where
  data : Bytes
  mark : Mark
  fits : data.length + fwimageTrailerLen < 4294967296

inductive Chunk where
  | info (i : Info)
  | sig (g : Signature)

namespace Chunk

/-- The bytes before the trailer. -/
def content : Chunk → Bytes
  | info i => i.header ++ i.json
  | sig g => g.data

def chunkType : Chunk → UInt8
  | info _ => fwimageTypeInfo
  | sig _ => fwimageTypeSig

def mark : Chunk → Mark
  | info i => i.mark
  | sig g => g.mark

/-- The size the trailer gives. -/
def size (c : Chunk) : ℕ := c.content.length + fwimageTrailerLen

def bytes (c : Chunk) : Bytes := c.content ++ trailerBytes c.mark c.chunkType c.size

/-- The metadata chunk, if it is one. -/
def info? : Chunk → Option Info
  | info i => some i
  | sig _ => none

/-- What the walk notes of a chunk. -/
def seen (c : Chunk) (s : Walk) : Walk :=
  match c with
  | info i =>
      ⟨s.cursor - c.size + fwimageHeaderLen, i.json.length, s.cursor - c.size, true⟩
  | sig _ => { s with cursor := s.cursor - c.size, foundAny := true }

theorem size_lt (c : Chunk) : c.size < 4294967296 := by
  cases c with
  | info i =>
      have hheader := i.header_length
      have hjson := i.json_le
      unfold size content fwimageTrailerLen
      rw [List.length_append]
      unfold fwimageHeaderLen at hheader
      unfold fwimageMetaMaxLen at hjson
      omega
  | sig g => exact g.fits

end Chunk

/-! ## Trailers -/

section Trailer

variable (mark : Mark) (chunkType : UInt8) (size : ℕ)

theorem length_trailerBytes :
    (trailerBytes mark chunkType size).length = fwimageTrailerLen := by
  unfold trailerBytes fwimageTrailerLen
  simp [mark.crc_length, mark.pad_length]

theorem magicOf_trailerBytes : magicOf (trailerBytes mark chunkType size) = fwimageMagic := by
  unfold magicOf trailerBytes
  rw [List.take_left' (length_putBigEndian 4 _), bigEndian_putBigEndian]
  rfl

theorem typeOf_trailerBytes : typeOf (trailerBytes mark chunkType size) = chunkType := by
  have hcut : trailerBytes mark chunkType size = (putBigEndian 4 fwimageMagic ++ mark.crc) ++
      chunkType :: (mark.pad ++ putBigEndian 4 size) := by
    unfold trailerBytes
    rw [List.append_assoc]
  have hlen : (putBigEndian 4 fwimageMagic ++ mark.crc).length = 8 := by
    rw [List.length_append, length_putBigEndian, mark.crc_length]
  unfold typeOf
  rw [hcut, List.getD_eq_getElem?_getD, List.getElem?_append_right hlen.le, hlen]
  rfl

theorem sizeOf_trailerBytes (hfits : size < 4294967296) :
    sizeOf (trailerBytes mark chunkType size) = size := by
  have hcut : trailerBytes mark chunkType size = (putBigEndian 4 fwimageMagic ++ (mark.crc ++
      (chunkType :: mark.pad))) ++ putBigEndian 4 size := by
    unfold trailerBytes
    simp
  have hlen :
      (putBigEndian 4 fwimageMagic ++ (mark.crc ++ (chunkType :: mark.pad))).length = 12 := by
    simp [mark.crc_length, mark.pad_length]
  have hwhole : (trailerBytes mark chunkType size).take 16 = trailerBytes mark chunkType size :=
    List.take_of_length_le (length_trailerBytes mark chunkType size).le
  unfold sizeOf
  rw [hwhole, hcut, List.drop_left' hlen, bigEndian_putBigEndian]
  exact Nat.mod_eq_of_lt hfits

end Trailer

theorem sizeOf_lt (tr : Bytes) : sizeOf tr < 4294967296 := by
  have hlt := bigEndian_lt ((tr.take 16).drop 12)
  have hlen : ((tr.take 16).drop 12).length ≤ 4 := by
    rw [List.length_drop, List.length_take]
    omega
  exact hlt.trans_le (Nat.pow_le_pow_right (by omega) hlen)

/-- **Sixteen bytes with the magic number are a trailer.** -/
theorem exists_trailerBytes {tr : Bytes} (hlen : tr.length = fwimageTrailerLen)
    (hmagic : magicOf tr = fwimageMagic) :
    ∃ mark, tr = trailerBytes mark (typeOf tr) (sizeOf tr) := by
  unfold fwimageTrailerLen at hlen
  have hhead : putBigEndian 4 fwimageMagic = tr.take 4 := by
    have h := putBigEndian_bigEndian (tr.take 4)
    rw [List.length_take, Nat.min_eq_left (by omega)] at h
    rw [← hmagic]
    exact h
  have hsize : putBigEndian 4 (sizeOf tr) = tr.drop 12 := by
    have h := putBigEndian_bigEndian (tr.drop 12)
    rw [List.length_drop, hlen] at h
    unfold sizeOf
    rw [List.take_of_length_le hlen.le]
    exact h
  have htype : typeOf tr :: (tr.drop 9) = tr.drop 8 := by
    unfold typeOf
    rw [List.getD_eq_getElem?_getD, List.getElem?_eq_getElem (by omega),
      List.drop_eq_getElem_cons (i := 8) (by omega)]
    rfl
  have hpad : (tr.drop 9).take 3 ++ tr.drop 12 = tr.drop 9 := by
    have h := List.take_append_drop 3 (tr.drop 9)
    rwa [List.drop_drop] at h
  have hcrc : (tr.drop 4).take 4 ++ tr.drop 8 = tr.drop 4 := by
    have h := List.take_append_drop 4 (tr.drop 4)
    rwa [List.drop_drop] at h
  refine ⟨⟨(tr.drop 4).take 4, (tr.drop 9).take 3, ?_, ?_⟩, ?_⟩
  · rw [List.length_take, List.length_drop]
    omega
  · rw [List.length_take, List.length_drop]
    omega
  · unfold trailerBytes
    dsimp only
    rw [hhead, hsize, hpad, htype, hcrc, List.take_append_drop]

/-! ## One chunk -/

/-- A byte string that ends in a trailer. -/
def EndsInTrailer (p : Bytes) : Prop :=
  fwimageTrailerLen ≤ p.length ∧ magicOf (p.drop (p.length - fwimageTrailerLen)) = fwimageMagic

section OneChunk

variable {p rest : Bytes} {s s' : Walk}

theorem Chunk.length_bytes (c : Chunk) : c.bytes.length = c.size := by
  rw [Chunk.bytes, List.length_append, length_trailerBytes]
  rfl

/-- A chunk is taken back as it was written. -/
theorem chunk_trailerBytes (c : Chunk) (hroom : (c.size : ℤ) ≤ s.cursor) :
    s.chunk (trailerBytes c.mark c.chunkType c.size) = .ok (c.seen s) := by
  have hmin : (fwimageTrailerLen : ℤ) ≤ c.size := by
    unfold Chunk.size
    omega
  unfold Walk.chunk
  rw [sizeOf_trailerBytes _ _ _ c.size_lt, typeOf_trailerBytes]
  dsimp only
  rw [if_neg (by omega)]
  cases c with
  | info i =>
      have hsize : (Chunk.info i).size = fwimageHeaderLen + i.json.length + fwimageTrailerLen := by
        unfold Chunk.size Chunk.content
        rw [List.length_append, i.header_length]
      have hpos := i.json_pos
      have hle := i.json_le
      have hlen : ((Chunk.info i).size : ℤ) - fwimageHeaderLen - fwimageTrailerLen =
          i.json.length := by
        rw [hsize]
        omega
      have htype : (Chunk.info i).chunkType = fwimageTypeInfo := rfl
      rw [if_pos htype, if_neg (by omega), hlen]
      rfl
  | sig g =>
      have htype : (Chunk.sig g).chunkType = fwimageTypeSig := rfl
      rw [htype, if_neg (by decide), if_pos rfl]
      rfl

/-- A chunk, by what is before its trailer. -/
theorem Chunk.bytes_eq {c : Chunk} {content tr : Bytes} {n : ℕ} (hcontent : c.content = content)
    (hlen : content.length = n - fwimageTrailerLen) (hmin : fwimageTrailerLen ≤ n)
    (htr : tr = trailerBytes c.mark c.chunkType n) : c.bytes = content ++ tr ∧ c.size = n := by
  have hsize : c.size = n := by
    rw [Chunk.size, hcontent, hlen]
    omega
  rw [Chunk.bytes, hsize, hcontent, htr]
  exact ⟨rfl, rfl⟩

/-- What is taken for a chunk is one. -/
theorem exists_chunk (hcursor : s.cursor = p.length) (hends : EndsInTrailer p)
    (h : s.chunk (p.drop (p.length - fwimageTrailerLen)) = .ok s') :
    ∃ q c, p = q ++ Chunk.bytes c ∧ s' = c.seen s := by
  obtain ⟨hlen, hmagic⟩ := hends
  generalize htr : p.drop (p.length - fwimageTrailerLen) = tr at hmagic h
  have htrlen : tr.length = fwimageTrailerLen := by
    rw [← htr, List.length_drop]
    omega
  obtain ⟨mark, hmark⟩ := exists_trailerBytes htrlen hmagic
  obtain ⟨hmin, hmax, hcases⟩ := Walk.chunk_cases h
  rw [hcursor] at hmax
  generalize hn : sizeOf tr = n at hmark hmin hmax hcases
  have hfits : n < 4294967296 := hn ▸ sizeOf_lt tr
  -- the bytes between the start of the chunk and its trailer
  obtain ⟨q, content, hcut, hcontent⟩ : ∃ q content, p = q ++ (content ++ tr) ∧
      content.length = n - fwimageTrailerLen := by
    refine ⟨p.take (p.length - n), (p.drop (p.length - n)).take (n - fwimageTrailerLen), ?_, ?_⟩
    · have hdrop : (p.drop (p.length - n)).drop (n - fwimageTrailerLen) = tr := by
        rw [List.drop_drop, ← htr]
        congr 1
        omega
      rw [← hdrop, List.take_append_drop, List.take_append_drop]
    · rw [List.length_take, List.length_drop]
      omega
  obtain ⟨htype, hlong, hshort, rfl⟩ | ⟨htype, rfl⟩ := hcases
  · let i : Info := {
      header := content.take fwimageHeaderLen
      json := content.drop fwimageHeaderLen
      mark := mark
      header_length := by rw [List.length_take]; omega
      json_pos := by rw [List.length_drop]; omega
      json_le := by rw [List.length_drop]; omega }
    obtain ⟨hbytes, hsize⟩ := Chunk.bytes_eq (c := .info i) (List.take_append_drop _ _) hcontent
      (by omega) (htype ▸ hmark)
    refine ⟨q, .info i, hbytes ▸ hcut, ?_⟩
    have hjson : (i.json.length : ℤ) = n - fwimageHeaderLen - fwimageTrailerLen := by
      rw [List.length_drop]
      omega
    unfold Chunk.seen
    dsimp only
    rw [hsize, hjson]
  · obtain ⟨hbytes, hsize⟩ := Chunk.bytes_eq (c := .sig ⟨content, mark, by omega⟩) rfl hcontent
      (by omega) (htype ▸ hmark)
    refine ⟨q, .sig ⟨content, mark, by omega⟩, hbytes ▸ hcut, ?_⟩
    unfold Chunk.seen
    rw [hsize]

end OneChunk

/-! ## A file -/

section File

variable {p rest : Bytes} {s s' : Walk} {n : ℕ}

/-- A piece of a file is read as it stands there. -/
theorem readAt_piece (before piece after : Bytes) {q : Read} (hoffset : q.offset = before.length)
    (hlength : q.length = piece.length) :
    (ReaderAt.ofBytes (before ++ (piece ++ after))).readAt q = .ok piece := by
  unfold ReaderAt.ofBytes
  dsimp only
  rw [if_pos (by simp only [List.length_append]; omega), hoffset, Int.toNat_natCast, List.drop_left,
    hlength, List.take_left]

theorem round_of_end (hcursor : s.cursor = p.length) (hshort : p.length < fwimageTrailerLen) :
    s.round (.ofBytes (p ++ rest)) = ([], .ok none) := by
  unfold Walk.round
  rw [if_pos (by omega)]

theorem round_eq (hcursor : s.cursor = p.length) (hroom : fwimageTrailerLen ≤ p.length) :
    s.round (.ofBytes (p ++ rest)) =
      if magicOf (p.drop (p.length - fwimageTrailerLen)) ≠ fwimageMagic then
        ([s.trailer], .ok none)
      else ([s.trailer], (s.chunk (p.drop (p.length - fwimageTrailerLen))).map some) := by
  have hread : (ReaderAt.ofBytes (p ++ rest)).readAt s.trailer =
      .ok (p.drop (p.length - fwimageTrailerLen)) := by
    have hoffset : s.trailer.offset = (p.take (p.length - fwimageTrailerLen)).length := by
      rw [List.length_take]
      unfold Walk.trailer
      dsimp only
      omega
    have hlength : s.trailer.length = (p.drop (p.length - fwimageTrailerLen)).length := by
      rw [List.length_drop]
      unfold Walk.trailer
      dsimp only
      omega
    have hpiece := readAt_piece _ _ rest hoffset hlength
    rwa [← List.append_assoc, List.take_append_drop] at hpiece
  unfold Walk.round
  rw [if_neg (by omega), hread]

/-- **The walk stops** where the bytes before it do not end in a trailer. -/
theorem walk_of_stop (hcursor : s.cursor = p.length) (hends : ¬ EndsInTrailer p) :
    (walk (.ofBytes (p ++ rest)) n s).2 = .ok s := by
  cases n with
  | zero => rfl
  | succ n =>
      rw [walk]
      by_cases hroom : fwimageTrailerLen ≤ p.length
      · have hmagic : magicOf (p.drop (p.length - fwimageTrailerLen)) ≠ fwimageMagic :=
          fun h => hends ⟨hroom, h⟩
        rw [round_eq hcursor hroom, if_pos hmagic]
      · rw [round_of_end hcursor (by omega)]

/-- **The walk goes back over a chunk.** -/
theorem walk_of_chunk {c : Chunk} (hcursor : s.cursor = (p ++ c.bytes).length) :
    (walk (.ofBytes (p ++ c.bytes ++ rest)) (n + 1) s).2 =
      (walk (.ofBytes (p ++ c.bytes ++ rest)) n (c.seen s)).2 := by
  have hlen : c.bytes.length = c.content.length + fwimageTrailerLen := c.length_bytes
  have hroom : fwimageTrailerLen ≤ (p ++ c.bytes).length := by
    rw [List.length_append]
    omega
  have htrailer : (p ++ c.bytes).drop ((p ++ c.bytes).length - fwimageTrailerLen) =
      trailerBytes c.mark c.chunkType c.size := by
    rw [Chunk.bytes, ← List.append_assoc]
    refine List.drop_left' ?_
    simp only [List.length_append, length_trailerBytes]
    omega
  rw [walk, round_eq hcursor hroom, htrailer, if_neg (not_not.2 (magicOf_trailerBytes _ _ _)),
    chunk_trailerBytes c (by rw [hcursor, List.length_append, c.length_bytes]; omega)]
  rfl

theorem exists_chunk_of_walk (hcursor : s.cursor = p.length) (hends : EndsInTrailer p)
    (h : (walk (.ofBytes (p ++ rest)) (n + 1) s).2 = .ok s') : ∃ q c, p = q ++ Chunk.bytes c := by
  rw [walk, round_eq hcursor hends.1, if_neg (not_not.2 hends.2)] at h
  cases hchunk : s.chunk (p.drop (p.length - fwimageTrailerLen)) with
  | error e =>
      rw [hchunk] at h
      cases h
  | ok s₁ =>
      obtain ⟨q, c, hp, -⟩ := exists_chunk hcursor hends hchunk
      exact ⟨q, c, hp⟩

/-- How a walk of so many rounds ends: at its limit, or before bytes that do
not end in a trailer. -/
structure Ends (n : ℕ) (body : Bytes) (chunks : List Chunk) : Prop where
  limit : chunks.length ≤ n
  stop : chunks.length < n → ¬ EndsInTrailer body

theorem Chunk.cursor_seen (c : Chunk) (s : Walk) :
    (c.seen s).cursor = s.cursor - c.bytes.length := by
  rw [c.length_bytes]
  cases c <;> rfl

/-- **The walk goes back over the chunks a file ends with**, the last one
first, and over nothing else. -/
theorem walk_eq_ok_iff (hcursor : s.cursor = p.length) :
    (walk (.ofBytes (p ++ rest)) n s).2 = .ok s' ↔ ∃ body chunks,
      p = body ++ chunks.flatMap Chunk.bytes ∧ Ends n body chunks ∧
        s' = chunks.foldr Chunk.seen s := by
  induction n generalizing p rest s with
  | zero =>
      constructor
      · intro h
        cases h
        exact ⟨p, [], by simp, ⟨le_rfl, fun h => absurd h (by simp)⟩, rfl⟩
      · rintro ⟨body, chunks, -, ⟨hlimit, -⟩, rfl⟩
        rw [List.length_eq_zero_iff.1 (Nat.le_zero.1 hlimit)]
        rfl
  | succ n ih =>
      have hstep : ∀ {q : Bytes} {c : Chunk}, p = q ++ c.bytes →
          (c.seen s).cursor = q.length := by
        rintro q c rfl
        rw [c.cursor_seen, hcursor, List.length_append]
        omega
      constructor
      · intro h
        by_cases hends : EndsInTrailer p
        · obtain ⟨q, c, hp⟩ := exists_chunk_of_walk hcursor hends h
          have hq := hstep hp
          subst hp
          rw [walk_of_chunk hcursor, List.append_assoc, ih hq] at h
          obtain ⟨body, chunks, rfl, hlast, rfl⟩ := h
          refine ⟨body, chunks ++ [c], by simp, ⟨?_, fun hlt => hlast.stop ?_⟩, by simp⟩
          · rw [List.length_append, List.length_singleton]
            exact Nat.succ_le_succ hlast.limit
          · rw [List.length_append, List.length_singleton] at hlt
            omega
        · rw [walk_of_stop hcursor hends] at h
          cases h
          exact ⟨p, [], by simp, ⟨Nat.zero_le _, fun _ => hends⟩, rfl⟩
      · rintro ⟨body, chunks, hp, hlast, rfl⟩
        induction chunks using List.reverseRecOn with
        | nil =>
            have hends := hlast.stop (Nat.succ_pos n)
            rw [List.flatMap_nil, List.append_nil] at hp
            exact walk_of_stop hcursor (hp ▸ hends)
        | append_singleton chunks c _ =>
            have hp' : p = body ++ chunks.flatMap Chunk.bytes ++ c.bytes := by
              rw [hp]
              simp
            have hq := hstep hp'
            rw [hp'] at hcursor
            rw [hp', walk_of_chunk hcursor, List.append_assoc, ih hq]
            refine ⟨body, chunks, rfl, ⟨?_, fun hlt => hlast.stop ?_⟩, by simp⟩
            · have hlimit := hlast.limit
              rw [List.length_append, List.length_singleton] at hlimit
              omega
            · rw [List.length_append, List.length_singleton]
              omega

end File

/-! ## What was found -/

section Found

variable {body rest : Bytes} {s : Walk} {chunks : List Chunk} {i : Info}

theorem cursor_foldr (chunks : List Chunk) (s : Walk) :
    (chunks.foldr Chunk.seen s).cursor = s.cursor - (chunks.flatMap Chunk.bytes).length := by
  induction chunks with
  | nil => simp
  | cons c chunks ih =>
      rw [List.foldr_cons, c.cursor_seen, ih, List.flatMap_cons, List.length_append]
      omega

/-- Without an `INFO` chunk nothing is noted. -/
theorem infoOffset_foldr (hnone : chunks.findSome? Chunk.info? = none) :
    (chunks.foldr Chunk.seen s).infoOffset = s.infoOffset := by
  induction chunks with
  | nil => rfl
  | cons c chunks ih =>
      cases c with
      | info i => cases hnone
      | sig g => exact ih hnone

/-- **The metadata of the first `INFO` chunk is noted.** -/
theorem payload_foldr (hcursor : s.cursor = (body ++ chunks.flatMap Chunk.bytes).length)
    (hfirst : chunks.findSome? Chunk.info? = some i) :
    (chunks.foldr Chunk.seen s).foundAny = true ∧ 0 ≤ (chunks.foldr Chunk.seen s).infoOffset ∧
      (ReaderAt.ofBytes (body ++ chunks.flatMap Chunk.bytes ++ rest)).readAt
        (chunks.foldr Chunk.seen s).payload = .ok i.json := by
  induction chunks generalizing body with
  | nil => cases hfirst
  | cons c chunks ih =>
      have hsplit : body ++ (c :: chunks).flatMap Chunk.bytes =
          body ++ c.bytes ++ chunks.flatMap Chunk.bytes := by
        simp
      rw [hsplit] at hcursor ⊢
      have hcut := cursor_foldr chunks s
      rw [hcursor, List.length_append] at hcut
      cases c with
      | sig g => exact ⟨rfl, (ih hcursor hfirst).2⟩
      | info _ =>
          cases hfirst
          have hlen : (Chunk.info i).bytes.length = (Chunk.info i).size := Chunk.length_bytes _
          have hstart : ((Chunk.info i).seen (chunks.foldr Chunk.seen s)).infoOffset =
              (body ++ i.header).length := by
            change (chunks.foldr Chunk.seen s).cursor - (Chunk.info i).size + fwimageHeaderLen = _
            rw [hcut, List.length_append, List.length_append, hlen, i.header_length]
            omega
          refine ⟨rfl, ?_, ?_⟩
          · rw [List.foldr_cons, hstart]
            omega
          · have hbytes : body ++ (Chunk.info i).bytes ++ chunks.flatMap Chunk.bytes ++ rest =
                body ++ i.header ++ (i.json ++ (trailerBytes i.mark fwimageTypeInfo
                  (Chunk.info i).size ++ chunks.flatMap Chunk.bytes ++ rest)) := by
              simp [Chunk.bytes, Chunk.content, Chunk.mark, Chunk.chunkType]
            rw [List.foldr_cons, hbytes]
            exact readAt_piece _ _ _ hstart (Int.toNat_natCast _)

variable {unmarshal : Bytes → Except String ImageMetadata} {metadata : ImageMetadata}

theorem decodePayload_eq_ok_iff (hcursor : s.cursor = (body ++ chunks.flatMap Chunk.bytes).length)
    (hunset : s.infoOffset < 0) :
    (decodePayload unmarshal (.ofBytes (body ++ chunks.flatMap Chunk.bytes))
        (chunks.foldr Chunk.seen s)).2 = .ok metadata ↔
      ∃ i, chunks.findSome? Chunk.info? = some i ∧ unmarshal (trimSpace i.json) = .ok metadata := by
  unfold decodePayload
  cases hfirst : chunks.findSome? Chunk.info? with
  | none =>
      have hstill : (chunks.foldr Chunk.seen s).infoOffset = s.infoOffset :=
        infoOffset_foldr hfirst
      rw [if_pos (by simp [hstill, hunset])]
      simp
  | some i =>
      obtain ⟨hfound, hoffset, hread⟩ := @payload_foldr body [] s chunks i hcursor hfirst
      rw [List.append_nil] at hread
      rw [if_neg (by simp [hfound, hoffset]), hread]
      cases hdecode : unmarshal (trimSpace i.json) with
      | error e => simp [hdecode]
      | ok m => simp [hdecode]

end Found

section Parser

variable {unmarshal : Bytes → Except String ImageMetadata} {bs : Bytes} {metadata : ImageMetadata}

/-- A file shorter than a trailer is one on which the walk stops at once. -/
theorem parse_eq_bind : (parseImageMetadata unmarshal (.ofBytes bs) bs.length).2 =
    (walk (.ofBytes bs) fwimageWalkLimit (.start bs.length)).2.bind fun s =>
      (decodePayload unmarshal (.ofBytes bs) s).2 := by
  unfold parseImageMetadata
  split_ifs with hsmall
  · have hends : ¬ EndsInTrailer bs := fun hends => by
      have hroom := hends.1
      omega
    have hstop : (walk (.ofBytes (bs ++ [])) fwimageWalkLimit (.start bs.length)).2 =
        .ok (.start bs.length) := walk_of_stop rfl hends
    rw [List.append_nil] at hstop
    rw [hstop]
    rfl
  · split
    next reads e hwalk => rw [hwalk]; rfl
    next reads s hwalk => rw [hwalk]; rfl

theorem walk_file_eq_ok_iff {s' : Walk} :
    (walk (.ofBytes bs) fwimageWalkLimit (.start bs.length)).2 = .ok s' ↔
      ∃ body chunks, bs = body ++ chunks.flatMap Chunk.bytes ∧
        Ends fwimageWalkLimit body chunks ∧ s' = chunks.foldr Chunk.seen (.start bs.length) := by
  have hfile : (walk (.ofBytes (bs ++ [])) fwimageWalkLimit (.start bs.length)).2 = .ok s' ↔ _ :=
    walk_eq_ok_iff rfl
  rwa [List.append_nil] at hfile

theorem start_infoOffset (size : ℤ) : (Walk.start size).infoOffset < 0 :=
  show (-1 : ℤ) < 0 by decide

/-- **When the parser returns metadata**: where the file ends in chunks, eight
at most and with no more before them unless they are eight, and what the first
`INFO` chunk of them carries is that metadata. -/
theorem parse_eq_ok_iff :
    (parseImageMetadata unmarshal (.ofBytes bs) bs.length).2 = .ok metadata ↔
      ∃ body chunks i, bs = body ++ chunks.flatMap Chunk.bytes ∧
        Ends fwimageWalkLimit body chunks ∧ chunks.findSome? Chunk.info? = some i ∧
        unmarshal (trimSpace i.json) = .ok metadata := by
  rw [parse_eq_bind]
  constructor
  · intro h
    cases hout : (walk (.ofBytes bs) fwimageWalkLimit (.start bs.length)).2 with
    | error e =>
        rw [hout] at h
        cases h
    | ok s =>
        rw [hout] at h
        obtain ⟨body, chunks, rfl, hends, rfl⟩ := walk_file_eq_ok_iff.1 hout
        obtain ⟨i, hfirst, hdecode⟩ := (decodePayload_eq_ok_iff rfl (start_infoOffset _)).1 h
        exact ⟨body, chunks, i, rfl, hends, hfirst, hdecode⟩
  · rintro ⟨body, chunks, i, rfl, hends, hfirst, hdecode⟩
    rw [walk_file_eq_ok_iff.2 ⟨body, chunks, rfl, hends, rfl⟩]
    exact (decodePayload_eq_ok_iff rfl (start_infoOffset _)).2 ⟨i, hfirst, hdecode⟩

/-- An image as it is built: a body, an `INFO` chunk and signatures. -/
def image (body : Bytes) (i : Info) (signatures : List Signature) : Bytes :=
  body ++ ((Chunk.info i).bytes ++ signatures.flatMap fun g => (Chunk.sig g).bytes)

theorem image_eq (body : Bytes) (i : Info) (signatures : List Signature) :
    image body i signatures = body ++ (.info i :: signatures.map .sig).flatMap Chunk.bytes := by
  rw [image, List.flatMap_cons, List.flatMap_map]

theorem ends_image {body : Bytes} {i : Info} {signatures : List Signature}
    (hbody : ¬ EndsInTrailer body) (hcount : signatures.length ≤ 7) :
    Ends fwimageWalkLimit body (.info i :: signatures.map .sig) := by
  refine ⟨?_, fun _ => hbody⟩
  rw [List.length_cons, List.length_map]
  exact Nat.succ_le_succ hcount

/-- **Image metadata.** Of an image with up to seven signatures the parser
returns what its `INFO` chunk carries. Whatever the file, it reads inside it
and nine times at most; and what it returns, if it is not an error, is the
metadata of the first `INFO` chunk among the last eight chunks. -/
theorem parse_image (unmarshal : Bytes → Except String ImageMetadata) :
    (∀ body i signatures metadata, ¬ EndsInTrailer body → signatures.length ≤ 7 →
      unmarshal (trimSpace (Info.json i)) = .ok metadata →
      (parseImageMetadata unmarshal (.ofBytes (image body i signatures))
        (image body i signatures).length).2 = .ok metadata) ∧
    (∀ r size, (∀ q ∈ (parseImageMetadata unmarshal r size).1, q.Inside size) ∧
      (parseImageMetadata unmarshal r size).1.length ≤ fwimageWalkLimit + 1) ∧
    ∀ bs metadata, (parseImageMetadata unmarshal (.ofBytes bs) bs.length).2 = .ok metadata ↔
      ∃ body chunks i, bs = body ++ chunks.flatMap Chunk.bytes ∧
        Ends fwimageWalkLimit body chunks ∧ chunks.findSome? Chunk.info? = some i ∧
        unmarshal (trimSpace i.json) = .ok metadata := by
  refine ⟨fun body i signatures metadata hbody hcount hdecode => ?_, parse_inside unmarshal,
    fun bs metadata => parse_eq_ok_iff⟩
  exact parse_eq_ok_iff.2 ⟨body, _, i, image_eq _ _ _, ends_image hbody hcount, rfl, hdecode⟩

end Parser

/-! ## A signature before the metadata -/

/-- An empty metadata. -/
def noMetadata : ImageMetadata := ⟨⟨"", "", "", "", ""⟩, "", "", "", [], []⟩

/-- A checksum and a padding of zeros. -/
def noMark : Mark := ⟨[0, 0, 0, 0], [0, 0, 0], rfl, rfl⟩

/-- `{}`. -/
def emptyInfo : Info := ⟨[0, 0, 0, 0, 0, 0, 0, 0], [123, 125], noMark, rfl, by decide, by decide⟩

def emptySignature : Signature := ⟨[], noMark, by decide⟩

/-- A signature, and behind it the metadata. -/
def signedFirst : Bytes := (Chunk.sig emptySignature).bytes ++ (Chunk.info emptyInfo).bytes

/-- The chunks may stand in another order than an image is built in: metadata
is returned of a file that is no such image. -/
theorem signedFirst_parses :
    (parseImageMetadata (fun _ => .ok noMetadata) (.ofBytes signedFirst) signedFirst.length).2 =
      .ok noMetadata ∧
    ¬ ∃ body i signatures, signedFirst = image body i signatures ∧ ¬ EndsInTrailer body ∧
      signatures.length ≤ 7 := by
  have hwalk : (walk (.ofBytes signedFirst) fwimageWalkLimit (.start signedFirst.length)).2 =
      .ok ⟨24, 2, 0, true⟩ := by decide +kernel
  refine ⟨by rw [parse_eq_bind, hwalk]; decide +kernel, ?_⟩
  rintro ⟨body, i, signatures, hfile, hbody, hcount⟩
  rw [image_eq] at hfile
  rw [walk_file_eq_ok_iff.2 ⟨body, _, hfile, ends_image hbody hcount, rfl⟩,
    List.foldr_cons] at hwalk
  generalize List.foldr Chunk.seen _ _ = s at hwalk
  -- the metadata of an image stands behind the header of the chunk the walk ends with
  have hseen : (Chunk.info i).seen s = ⟨24, 2, 0, true⟩ := Except.ok.inj hwalk
  have hoffset : s.cursor - (Chunk.info i).size + fwimageHeaderLen = 24 :=
    congrArg Walk.infoOffset hseen
  have hcursor : s.cursor - (Chunk.info i).size = 0 := congrArg Walk.cursor hseen
  rw [hcursor] at hoffset
  exact absurd hoffset (by decide)

end ImageMeta

end OpenManet
