import OpenManet.Lib.Bytes
/-!
# Ogg pages

`oggPackets` of `internal/comms/announce/ogg.go` takes the Opus packets out of
an Ogg file. A packet is laced into segments: as many of 255 bytes as it
fills, and a last one of fewer, none at all where its length is a multiple of
255. The segments go onto pages with no regard to where a packet ends, so a
packet may be cut over any number of pages.

Two things nested and out of step with each other, and the demuxer keeps one
state for both: the packets that are complete and the one that is not. What it
does with a segment does not depend on the page the segment is on; `feed` is
that, and the rest is about reading pages.

A cut or an index that leaves its slice stops the program, and so does fuel
that runs out; `Stop` tells the two from the errors the source returns.
-/

namespace OpenManet

namespace Announce

open Bytes (slice)

/-- How a call ends that returns no packets. -/
inductive Stop where
  | error (text : String)
  | outOfRange
  | outOfFuel
deriving DecidableEq

/-! ## The demuxer -/

/-- `headerLen`. -/
def headerLen : ℕ := 27

/-- The bytes of `OggS`. -/
def capture : List UInt8 := [0x4f, 0x67, 0x67, 0x53]

/-- The bytes from one place to another. -/
def cut (bs : List UInt8) (i j : ℕ) : Except Stop (List UInt8) :=
  match slice bs i j with
  | some piece => .ok piece
  | none => .error .outOfRange

/-- The byte at a place. -/
def byteAt (bs : List UInt8) (i : ℕ) : Except Stop UInt8 :=
  match bs[i]? with
  | some b => .ok b
  | none => .error .outOfRange

/-- The packets that are complete, and what there is of the next. -/
structure Demux where
  packets : List (List UInt8)
  cur : List UInt8
deriving DecidableEq

/-- One lacing value of a page. -/
def takeSegment (body : List UInt8) (reached : ℕ × Demux) (s : UInt8) : Except Stop (ℕ × Demux) := do
  let (off, d) := reached
  let cur := d.cur ++ (← cut body off (off + s.toNat))
  let off := off + s.toNat
  if s < 255 then
    -- a packet without bytes is skipped
    if 0 < cur.length then pure (off, ⟨d.packets ++ [cur], []⟩) else pure (off, ⟨d.packets, []⟩)
  else pure (off, ⟨d.packets, cur⟩)

/-- One page, and the bytes after it. -/
def takePage (b : List UInt8) (d : Demux) : Except Stop (List UInt8 × Demux) := do
  if b.length < headerLen then throw (.error "announce: bad ogg page header")
  else if (← cut b 0 4) ≠ capture then throw (.error "announce: bad ogg page header")
  else
    let segCount := (← byteAt b 26).toNat
    if b.length < headerLen + segCount then
      throw (.error "announce: truncated ogg segment table")
    else
      let segTable ← cut b headerLen (headerLen + segCount)
      let body ← cut b (headerLen + segCount) b.length
      let bodyLen := (segTable.map UInt8.toNat).sum
      if body.length < bodyLen then throw (.error "announce: truncated ogg page body")
      else
        let (_, d) ← segTable.foldlM (takeSegment body) (0, d)
        pure (← cut body bodyLen body.length, d)

/-- The loop over the pages. -/
def takePages : ℕ → List UInt8 → Demux → Except Stop Demux
  | 0, _, _ => .error .outOfFuel
  | fuel + 1, b, d => do
      if 0 < b.length then
        let (rest, d) ← takePage b d
        takePages fuel rest d
      else pure d

/-- The packets of an Ogg file after its two headers. -/
def oggPackets (fuel : ℕ) (b : List UInt8) : Except Stop (List (List UInt8)) := do
  let d ← takePages fuel b ⟨[], []⟩
  if d.packets.length < 3 then
    throw (.error "announce: too few ogg packets for an opus stream")
  else pure (d.packets.drop 2)

/-! ## A page, read segment by segment -/

/-- What the demuxer does with a segment, whatever page it is on. -/
def feed (d : Demux) (segment : List UInt8) : Demux :=
  let cur := d.cur ++ segment
  if segment.length < 255 then
    if 0 < cur.length then ⟨d.packets ++ [cur], []⟩ else ⟨d.packets, []⟩
  else ⟨d.packets, cur⟩

/-- The segments a table cuts a body into. -/
def segmentsOf : List UInt8 → List UInt8 → List (List UInt8)
  | [], _ => []
  | s :: table, body => body.take s.toNat :: segmentsOf table (body.drop s.toNat)

variable {b body table : List UInt8} {d : Demux} {off fuel : ℕ}

theorem ok_bind {α β : Type} (a : α) (f : α → Except Stop β) : (Except.ok a >>= f) = f a := rfl

theorem cut_ok {bs : List UInt8} {i j : ℕ} (hij : i ≤ j) (hj : j ≤ bs.length) :
    cut bs i j = .ok ((bs.take j).drop i) := by
  rw [cut, Bytes.slice_eq hij hj]

theorem byteAt_ok {bs : List UInt8} {i : ℕ} (hi : i < bs.length) : byteAt bs i = .ok bs[i] := by
  rw [byteAt, List.getElem?_eq_getElem hi]

/-- **A segment that is there is taken.** -/
theorem takeSegment_ok {s : UInt8} (h : off + s.toNat ≤ body.length) :
    takeSegment body (off, d) s =
      .ok (off + s.toNat, feed d ((body.drop off).take s.toNat)) := by
  have hpiece : cut body off (off + s.toNat) = .ok ((body.drop off).take s.toNat) := by
    rw [cut_ok (by omega) h, List.drop_take, Nat.add_sub_cancel_left]
  have hlength : ((body.drop off).take s.toNat).length = s.toNat := by
    rw [List.length_take, List.length_drop]
    omega
  have hshort : s < 255 ↔ ((body.drop off).take s.toNat).length < 255 := by
    rw [hlength]
    exact UInt8.lt_iff_toNat_lt
  unfold takeSegment feed
  simp only [hpiece, hshort, ok_bind]
  split
  · split <;> rfl
  · rfl

/-- **And so is a whole table of them.** -/
theorem foldlM_takeSegment (h : off + (table.map UInt8.toNat).sum ≤ body.length) :
    table.foldlM (takeSegment body) (off, d) =
      .ok (off + (table.map UInt8.toNat).sum, (segmentsOf table (body.drop off)).foldl feed d) := by
  induction table generalizing off d with
  | nil => rfl
  | cons s table ih =>
      rw [List.map_cons, List.sum_cons] at h ⊢
      rw [List.foldlM_cons, takeSegment_ok (by omega)]
      show table.foldlM (takeSegment body) (off + s.toNat, _) = _
      rw [ih (by omega), segmentsOf, List.foldl_cons, List.drop_drop, Nat.add_assoc]

/-- A page is refused, or read to its end. -/
theorem takePage_cases (b : List UInt8) (d : Demux) :
    (∃ text, takePage b d = .error (.error text)) ∨
      ∃ rest d', takePage b d = .ok (rest, d') ∧ rest.length < b.length := by
  unfold takePage
  by_cases hshort : b.length < headerLen
  · exact .inl ⟨_, if_pos hshort⟩
  have hheader : 27 ≤ b.length := Nat.le_of_not_lt hshort
  rw [if_neg hshort, cut_ok (by omega) (by omega), ok_bind]
  by_cases hcapture : (b.take 4).drop 0 ≠ capture
  · exact .inl ⟨_, if_pos hcapture⟩
  rw [if_neg hcapture, byteAt_ok (by omega), ok_bind]
  dsimp only
  by_cases htable : b.length < headerLen + b[26].toNat
  · exact .inl ⟨_, if_pos htable⟩
  rw [if_neg htable, cut_ok (by omega) (by omega), ok_bind, cut_ok (by omega) le_rfl, ok_bind,
    List.take_length]
  generalize (b.take (headerLen + b[26].toNat)).drop headerLen = table
  by_cases hbody : (b.drop (headerLen + b[26].toNat)).length < (table.map UInt8.toNat).sum
  · exact .inl ⟨_, if_pos hbody⟩
  rw [if_neg hbody, foldlM_takeSegment (by omega), ok_bind, cut_ok (by omega) le_rfl]
  refine .inr ⟨_, _, rfl, ?_⟩
  rw [List.take_length, List.length_drop, List.length_drop, headerLen]
  omega

/-- **Every byte string is read to an answer**: with fuel for its length, no
cut leaves its slice and the fuel does not run out. -/
theorem takePages_cases (h : b.length < fuel) :
    (∃ text, takePages fuel b d = .error (.error text)) ∨ ∃ d', takePages fuel b d = .ok d' := by
  induction fuel generalizing b d with
  | zero => exact absurd h (Nat.not_lt_zero _)
  | succ fuel ih =>
      unfold takePages
      by_cases hmore : 0 < b.length
      · rw [if_pos hmore]
        rcases takePage_cases b d with ⟨text, hpage⟩ | ⟨rest, d', hpage, hrest⟩
        · exact .inl ⟨text, by rw [hpage]; rfl⟩
        · rw [hpage, ok_bind]
          exact ih (by omega)
      · exact .inr ⟨d, if_neg hmore⟩

/-! ## Pages as they are written -/

/-- A page: what stands between the capture pattern and the segment count is
not read, and there are no more than 255 segments of no more than 255 bytes. -/
structure Page where
  header : List UInt8
  segments : List (List UInt8)
  header_length : header.length = 22
  count : segments.length ≤ 255
  lengths : ∀ segment ∈ segments, segment.length ≤ 255

/-- The lacing values of a page. -/
def Page.lacing (p : Page) : List UInt8 := p.segments.map fun segment => UInt8.ofNat segment.length

/-- A page on the wire. -/
def Page.bytes (p : Page) : List UInt8 :=
  capture ++ p.header ++ UInt8.ofNat p.segments.length :: (p.lacing ++ p.segments.flatten)

/-- A packet and its segments. -/
inductive Laced : List UInt8 → List (List UInt8) → Prop where
  /-- A segment of fewer than 255 bytes is the last. -/
  | last {segment : List UInt8} : segment.length < 255 → Laced segment [segment]
  | more {segment packet : List UInt8} {segments : List (List UInt8)} :
      segment.length = 255 → Laced packet segments → Laced (segment ++ packet) (segment :: segments)

theorem toNat_lacing {segment : List UInt8} (h : segment.length ≤ 255) :
    (UInt8.ofNat segment.length).toNat = segment.length := by
  rw [UInt8.toNat_ofNat']
  exact Nat.mod_eq_of_lt (by omega)

/-- The lacing values add up to the body. -/
theorem sum_lacing {segments : List (List UInt8)} (h : ∀ segment ∈ segments, segment.length ≤ 255) :
    ((segments.map fun segment => UInt8.ofNat segment.length).map UInt8.toNat).sum
      = segments.flatten.length := by
  rw [List.length_flatten, List.map_map]
  congr 1
  exact List.map_congr_left fun segment hmem => toNat_lacing (h segment hmem)

/-- And cut it into its segments again. -/
theorem segmentsOf_flatten {segments : List (List UInt8)} (rest : List UInt8)
    (h : ∀ segment ∈ segments, segment.length ≤ 255) :
    segmentsOf (segments.map fun segment => UInt8.ofNat segment.length) (segments.flatten ++ rest)
      = segments := by
  induction segments with
  | nil => rfl
  | cons segment segments ih =>
      have hlacing := toNat_lacing (h segment List.mem_cons_self)
      rw [List.map_cons, segmentsOf, hlacing, List.flatten_cons, List.append_assoc, List.take_left,
        List.drop_left, ih fun other hmem => h other (List.mem_cons_of_mem _ hmem)]

/-- A page begins with a header of its own length, its count last. -/
theorem Page.bytes_split (p : Page) : ∃ head : List UInt8,
    p.bytes = head ++ (p.lacing ++ p.segments.flatten) ∧ head.length = headerLen ∧
      head.take 4 = capture ∧ head[26]? = some (UInt8.ofNat p.segments.length) := by
  have hheader := p.header_length
  refine ⟨capture ++ p.header ++ [UInt8.ofNat p.segments.length], ?_, ?_, ?_, ?_⟩
  · simp [Page.bytes]
  · simp [capture, hheader, headerLen]
  · simp [capture]
  · simp [capture, hheader]

/-- **A page that was written is read.** -/
theorem takePage_bytes (p : Page) (rest : List UInt8) (d : Demux) :
    takePage (p.bytes ++ rest) d = .ok (rest, p.segments.foldl feed d) := by
  have hcount : (UInt8.ofNat p.segments.length).toNat = p.segments.length := by
    rw [UInt8.toNat_ofNat']
    have hle := p.count
    exact Nat.mod_eq_of_lt (by omega)
  have hlacing : p.lacing.length = p.segments.length := List.length_map ..
  have hsum : (p.lacing.map UInt8.toNat).sum = p.segments.flatten.length := sum_lacing p.lengths
  obtain ⟨head, hpage, hhead, hmagic, hlast⟩ := p.bytes_split
  have hbytes : p.bytes ++ rest = head ++ (p.lacing ++ (p.segments.flatten ++ rest)) := by
    rw [hpage, List.append_assoc, List.append_assoc]
  have hlength : (p.bytes ++ rest).length
      = headerLen + p.segments.length + p.segments.flatten.length + rest.length := by
    simp only [hbytes, List.length_append, hhead, hlacing]
    omega
  have hshort : ¬(p.bytes ++ rest).length < headerLen + p.segments.length := by omega
  have hcapture : cut (p.bytes ++ rest) 0 4 = .ok capture := by
    have htake : (p.bytes ++ rest).take 4 = capture := by
      rw [hbytes, List.take_append_of_le_length (by rw [hhead]; decide), hmagic]
    rw [cut_ok (by omega) (by rw [hlength, headerLen]; omega), htake, List.drop_zero]
  have hsegCount : byteAt (p.bytes ++ rest) 26 = .ok (UInt8.ofNat p.segments.length) := by
    have hat : (p.bytes ++ rest)[26]? = some (UInt8.ofNat p.segments.length) := by
      rw [hbytes, List.getElem?_append_left (by rw [hhead]; decide), hlast]
    rw [byteAt, hat]
  have htable : cut (p.bytes ++ rest) headerLen (headerLen + p.segments.length) = .ok p.lacing := by
    rw [cut, hbytes, Bytes.slice_append hhead (by omega)]
  have hbody : cut (p.bytes ++ rest) (headerLen + p.segments.length) (p.bytes ++ rest).length
      = .ok (p.segments.flatten ++ rest) := by
    have hdrop : (p.bytes ++ rest).drop (headerLen + p.segments.length)
        = p.segments.flatten ++ rest := by
      rw [hbytes, ← List.append_assoc]
      exact List.drop_left' (by rw [List.length_append, hhead, hlacing])
    rw [cut_ok (by omega) le_rfl, List.take_length, hdrop]
  have hafter : cut (p.segments.flatten ++ rest) p.segments.flatten.length
      (p.segments.flatten ++ rest).length = .ok rest := by
    rw [cut_ok (by simp) le_rfl, List.take_length, List.drop_left]
  unfold takePage
  rw [if_neg (by omega), hcapture, ok_bind, if_neg (not_not.2 rfl), hsegCount, ok_bind]
  dsimp only
  rw [hcount, if_neg hshort, htable, ok_bind, hbody, ok_bind, hsum, if_neg (by simp),
    foldlM_takeSegment (by rw [hsum]; simp), ok_bind, List.drop_zero]
  dsimp only
  rw [hafter, ok_bind, Page.lacing, segmentsOf_flatten rest p.lengths]
  rfl

/-- And so is a whole file of them. -/
theorem takePages_bytes (pages : List Page) (d : Demux)
    (hfuel : (pages.flatMap Page.bytes).length < fuel) :
    takePages fuel (pages.flatMap Page.bytes) d
      = .ok ((pages.flatMap Page.segments).foldl feed d) := by
  induction pages generalizing d fuel with
  | nil =>
      cases fuel with
      | zero => exact absurd hfuel (Nat.not_lt_zero _)
      | succ fuel => rfl
  | cons p pages ih =>
      rw [List.flatMap_cons] at hfuel ⊢
      have hpage : 27 ≤ p.bytes.length := by
        have hheader := p.header_length
        simp only [Page.bytes, List.length_append, List.length_cons, capture, List.length_nil, hheader]
        omega
      rw [List.length_append] at hfuel
      cases fuel with
      | zero => exact absurd hfuel (Nat.not_lt_zero _)
      | succ fuel =>
          rw [takePages, if_pos (by rw [List.length_append]; omega), takePage_bytes, ok_bind]
          dsimp only
          rw [ih _ (by omega), List.flatMap_cons, List.foldl_append]

/-! ## Packets as they are laced -/

/-- A packet among the complete ones, where it has bytes. -/
def complete (packets : List (List UInt8)) (packet : List UInt8) : List (List UInt8) :=
  if 0 < packet.length then packets ++ [packet] else packets

/-- **A laced packet comes out whole.** The induction is on its lacing, with
what has come of it so far in `cur`. -/
theorem foldl_feed_laced {packet cur : List UInt8} {segments packets : List (List UInt8)}
    (h : Laced packet segments) :
    segments.foldl feed ⟨packets, cur⟩ = ⟨complete packets (cur ++ packet), []⟩ := by
  induction h generalizing cur with
  | last hshort =>
      rw [List.foldl_cons, List.foldl_nil, feed, complete, if_pos hshort]
      split <;> rfl
  | more hfull _ ih =>
      rw [List.foldl_cons, feed, if_neg (by omega), ih, List.append_assoc]

/-- **And so does a list of them**, those without bytes left out. -/
theorem foldl_feed_lacings {packets done : List (List UInt8)} {lacings : List (List (List UInt8))}
    (h : List.Forall₂ Laced packets lacings) :
    lacings.flatten.foldl feed ⟨done, []⟩
      = ⟨done ++ packets.filter (0 < ·.length), []⟩ := by
  induction h generalizing done with
  | nil => simp
  | @cons packet lacing packets lacings hlaced _ ih =>
      rw [List.flatten_cons, List.foldl_append, foldl_feed_laced hlaced, List.nil_append, ih, complete,
        List.filter_cons]
      split
      · next hbytes => rw [if_pos (by simpa using hbytes), List.append_assoc, List.singleton_append]
      · next hempty => rw [if_neg (by simpa using hempty)]

/-! ## The file -/

/-- **Demuxing inverts paging.** Packets laced in any way, their segments laid
out on any pages: of three packets with bytes or more, `oggPackets` returns
those after the second, and nothing else. And whatever bytes it is given, it
comes to an end without reading out of range. -/
theorem oggPackets_sound :
    (∀ (packets : List (List UInt8)) (lacings : List (List (List UInt8))) (pages : List Page),
      List.Forall₂ Laced packets lacings → pages.flatMap Page.segments = lacings.flatten →
      3 ≤ (packets.filter (0 < ·.length)).length →
      ∀ fuel, (pages.flatMap Page.bytes).length < fuel →
        oggPackets fuel (pages.flatMap Page.bytes)
          = .ok ((packets.filter (0 < ·.length)).drop 2)) ∧
    ∀ (b : List UInt8) fuel, b.length < fuel →
      oggPackets fuel b ≠ .error .outOfRange ∧ oggPackets fuel b ≠ .error .outOfFuel := by
  constructor
  · intro packets lacings pages hlaced hpaged hthree fuel hfuel
    rw [oggPackets, takePages_bytes pages _ hfuel, hpaged, foldl_feed_lacings hlaced, ok_bind,
      List.nil_append]
    exact if_neg (by dsimp only; omega)
  · intro b fuel hfuel
    have hcases : (∃ text, oggPackets fuel b = .error (.error text)) ∨
        ∃ packets, oggPackets fuel b = .ok packets := by
      unfold oggPackets
      rcases takePages_cases (d := ⟨[], []⟩) hfuel with ⟨text, hpages⟩ | ⟨d, hpages⟩
      · exact .inl ⟨text, by rw [hpages]; rfl⟩
      · rw [hpages, ok_bind]
        split
        · exact .inl ⟨_, rfl⟩
        · exact .inr ⟨_, rfl⟩
    rcases hcases with ⟨text, heq⟩ | ⟨packets, heq⟩
    · rw [heq]
      exact ⟨by simp, by simp⟩
    · rw [heq]
      exact ⟨by simp, by simp⟩

/-- Two pages: a packet of 255 bytes is cut at their border and ends on the
second with an empty segment, and a packet without bytes follows it. -/
def spanning : List Page :=
  [⟨List.replicate 22 0, [[72], List.replicate 255 7], rfl, by decide, by decide +kernel⟩,
    ⟨List.replicate 22 1, [[], [], [9, 9]], rfl, by decide, by decide⟩]

theorem oggPackets_sound_spanning :
    oggPackets 1000 (spanning.flatMap Page.bytes) = .ok [[9, 9]] := by
  have hfull : Laced (List.replicate 255 7 ++ []) [List.replicate 255 7, []] :=
    .more List.length_replicate (.last (by decide))
  have hlaced : List.Forall₂ Laced [[72], List.replicate 255 7 ++ [], [], [9, 9]]
      [[[72]], [List.replicate 255 7, []], [[]], [[9, 9]]] :=
    .cons (.last (by decide)) (.cons hfull (.cons (.last (by decide)) (.cons (.last (by decide)) .nil)))
  have hpaged : spanning.flatMap Page.segments
      = [[[72]], [List.replicate 255 7, []], [[]], [[9, 9]]].flatten := by decide +kernel
  have hread := oggPackets_sound.1 _ _ spanning hlaced hpaged (by decide +kernel) 1000
    (by decide +kernel)
  exact hread.trans (congrArg Except.ok (by decide +kernel))

end Announce

end OpenManet
