import OpenManet.Comms.Audio.Capture
import Mathlib.Algebra.GroupWithZero.Nat
/-!
# Re-chunking: the speaker

`playbackChunker` of `internal/comms/audio/malgo_playback.go` stages one frame
between the source, which makes whole frames, and the sound card, which asks
for any number of samples. What is written is the frames one behind the other,
however the requests are cut.

A frame is made by the playout source, or by a queued beep that is copied over
the staging buffer. A beep that is shorter than the buffer leaves the rest of
the frame before it in place, and that rest is played.
-/

namespace OpenManet

namespace Audio

/-- What a fill finds: a queued beep, or what the playout source writes, a
whole frame. -/
inductive Fill (chunkSize : ℕ+) where
  | beep (data : List Sample)
  | playout (frame : List Sample) (whole : frame.length = chunkSize)

/-- The samples a fill has of its own. -/
def Fill.samples {chunkSize : ℕ+} : Fill chunkSize → List Sample
  | .beep data => data.take chunkSize
  | .playout frame _ => frame

/-- `playbackChunker`, with the number of fills it has made. -/
structure PlaybackChunker (chunkSize : ℕ+) where
  chunk : List Sample
  pos : ℕ
  fills : ℕ
  chunk_length : chunk.length = chunkSize
  inside : pos ≤ chunkSize

theorem length_silence (chunkSize : ℕ+) :
    (List.replicate chunkSize (0 : Sample)).length = chunkSize :=
  List.length_replicate

/-- `newPlaybackChunker`: drained, so that the first request fills. -/
def newPlaybackChunker (chunkSize : ℕ+) : PlaybackChunker chunkSize where
  chunk := List.replicate chunkSize 0
  pos := chunkSize
  fills := 0
  chunk_length := length_silence chunkSize
  inside := le_rfl

/-- The staging buffer with a frame copied over it. -/
def overlaid {chunkSize : ℕ+} (chunk : List Sample) (f : Fill chunkSize) : List Sample :=
  f.samples ++ chunk.drop f.samples.length

section Overlay

variable {chunkSize : ℕ+} {chunk : List Sample} (f : Fill chunkSize)

theorem Fill.length_samples_le : f.samples.length ≤ chunkSize := by
  cases f with
  | beep data => exact List.length_take_le _ _
  | playout frame whole => exact whole.le

theorem length_overlaid (h : chunk.length = chunkSize) : (overlaid chunk f).length = chunkSize := by
  have hle := f.length_samples_le
  rw [overlaid, List.length_append, List.length_drop]
  omega

end Overlay

namespace PlaybackChunker

variable {chunkSize : ℕ+} (source : ℕ → Fill chunkSize)

/-- `fill`. -/
def fill (pc : PlaybackChunker chunkSize) : PlaybackChunker chunkSize where
  chunk := overlaid pc.chunk (source pc.fills)
  pos := 0
  fills := pc.fills + 1
  chunk_length := length_overlaid _ pc.chunk_length
  inside := Nat.zero_le _

/-- The buffer is filled where it is drained. -/
def filled (pc : PlaybackChunker chunkSize) : PlaybackChunker chunkSize :=
  if pc.pos = chunkSize then pc.fill source else pc

theorem filled_pos_lt (pc : PlaybackChunker chunkSize) : (pc.filled source).pos < chunkSize := by
  unfold filled
  split
  · exact chunkSize.pos
  · next hne => exact lt_of_le_of_ne pc.inside hne

/-- Some samples further. -/
def advance (pc : PlaybackChunker chunkSize) (n : ℕ) (h : pc.pos + n ≤ chunkSize) :
    PlaybackChunker chunkSize := { pc with pos := pc.pos + n, inside := h }

/-- How many samples of the buffer go to a request. -/
def served (pc : PlaybackChunker chunkSize) (request : ℕ) : ℕ := min (chunkSize - pc.pos) request

theorem served_le (pc : PlaybackChunker chunkSize) (request : ℕ) :
    pc.pos + pc.served request ≤ chunkSize := by
  have hinside := pc.inside
  unfold served
  omega

/-- `drain`, of as many samples as the request asks for. -/
def drain (pc : PlaybackChunker chunkSize) (request : ℕ) :
    PlaybackChunker chunkSize × List Sample :=
  if request = 0 then (pc, [])
  else
    let full := pc.filled source
    let n := full.served request
    let r := drain (full.advance n (full.served_le request)) (request - n)
    (r.1, (full.chunk.drop full.pos).take n ++ r.2)
termination_by request
decreasing_by
  have hpos := pc.filled_pos_lt source
  simp only [served]
  omega

/-- One request after the other. -/
def drainAll : PlaybackChunker chunkSize → List ℕ → PlaybackChunker chunkSize × List Sample
  | pc, [] => (pc, [])
  | pc, request :: requests =>
      let r := drain source pc request
      let rest := drainAll r.1 requests
      (rest.1, r.2 ++ rest.2)

end PlaybackChunker

/-! ## The frames -/

section Frames

variable {chunkSize : ℕ+} (source : ℕ → Fill chunkSize)

/-- The staging buffer after `n` fills. -/
def staged : ℕ → List Sample
  | 0 => List.replicate chunkSize 0
  | n + 1 => overlaid (staged n) (source n)

/-- The frames of the first `n` fills. -/
def frames (n : ℕ) : List Sample := (List.range n).flatMap fun k => staged source (k + 1)

theorem length_staged (n : ℕ) : (staged source n).length = chunkSize := by
  induction n with
  | zero => exact List.length_replicate
  | succ n ih => exact length_overlaid _ ih

theorem frames_succ (n : ℕ) : frames source (n + 1) = frames source n ++ staged source (n + 1) := by
  rw [frames, List.range_succ, List.flatMap_append, List.flatMap_singleton]
  rfl

theorem length_frames (n : ℕ) : (frames source n).length = n * chunkSize := by
  induction n with
  | zero => rw [Nat.zero_mul]; rfl
  | succ n ih => rw [frames_succ, List.length_append, ih, length_staged, Nat.succ_mul]

/-- More fills make more frames behind. -/
theorem frames_mono {m n : ℕ} (h : m ≤ n) : frames source m <+: frames source n := by
  induction h with
  | refl => exact List.prefix_refl _
  | step _ ih =>
      rw [frames_succ]
      exact ih.trans (List.prefix_append _ _)

/-- The sample at a place, from the frame of the fill that it falls to. -/
theorem getElem?_frames {n i : ℕ} (h : i < n * chunkSize) :
    (frames source n)[i]? = (staged source (i / chunkSize + 1))[i % chunkSize]? := by
  induction n with
  | zero => omega
  | succ n ih =>
      rw [frames_succ]
      by_cases hlt : i < n * chunkSize
      · rw [List.getElem?_append_left (by rwa [length_frames]), ih hlt]
      · have hlast : i / chunkSize = n := by
          rw [Nat.div_eq_of_lt_le] <;> omega
        have hmod := Nat.div_add_mod i chunkSize
        rw [hlast, Nat.mul_comm] at hmod
        rw [List.getElem?_append_right (by rw [length_frames]; omega), length_frames, hlast]
        congr 1
        omega

/-- A frame begins with the samples of its own fill; behind them it is what
the frame before it was. -/
theorem getElem?_staged (n i : ℕ) : (staged source (n + 1))[i]? =
    if i < (source n).samples.length then (source n).samples[i]? else (staged source n)[i]? := by
  rw [staged, overlaid]
  split
  · next hlt => rw [List.getElem?_append_left hlt]
  · next hge =>
    rw [List.getElem?_append_right (not_lt.1 hge), List.getElem?_drop]
    congr 1
    omega

end Frames

/-! ## What is played -/

section Plays

variable {chunkSize : ℕ+} {source : ℕ → Fill chunkSize} {pc : PlaybackChunker chunkSize}
  {written : List Sample}

/-- What a chunker has written, and where it stands: the frames of its fills
up to its place in the last of them. -/
structure Played (source : ℕ → Fill chunkSize) (written : List Sample)
    (pc : PlaybackChunker chunkSize) : Prop where
  chunk : pc.chunk = staged source pc.fills
  place : written.length + (chunkSize - pc.pos) = pc.fills * chunkSize
  written : written <+: frames source pc.fills

theorem played_new : Played source [] (newPlaybackChunker chunkSize) :=
  ⟨rfl, by simp [newPlaybackChunker], List.nil_prefix⟩

/-- A prefix of the frames is as much of them as it is long. -/
theorem Played.eq_take (h : Played source written pc) :
    written = (frames source pc.fills).take written.length := List.prefix_iff_eq_take.1 h.written

/-- A fill adds a frame. -/
theorem Played.filled (h : Played source written pc) : Played source written (pc.filled source) := by
  unfold PlaybackChunker.filled
  split
  · next hdrained =>
    have hplace := h.place
    refine ⟨?_, ?_, h.written.trans (frames_mono source (Nat.le_succ _))⟩
    · show overlaid pc.chunk _ = _
      rw [h.chunk]
      rfl
    · show written.length + (chunkSize - 0) = (pc.fills + 1) * chunkSize
      rw [Nat.succ_mul]
      omega
  · exact h

/-- Writing from the buffer writes on along the frames. -/
theorem Played.advance (h : Played source written pc) {n : ℕ} (hn : pc.pos + n ≤ chunkSize)
    (hfills : 0 < pc.fills) :
    Played source (written ++ (pc.chunk.drop pc.pos).take n) (pc.advance n hn) := by
  have hinside := pc.inside
  obtain ⟨k, hk⟩ : ∃ k, pc.fills = k + 1 := ⟨pc.fills - 1, by omega⟩
  have hplace := h.place
  rw [hk, Nat.succ_mul] at hplace
  have hlength : ((pc.chunk.drop pc.pos).take n).length = n := by
    rw [List.length_take, List.length_drop, pc.chunk_length]
    omega
  -- what is written so far is the earlier frames and the first `pos` samples of the last
  have hbehind : written = frames source k ++ pc.chunk.take pc.pos := by
    rw [h.eq_take, hk, frames_succ, h.chunk, hk, List.take_append, length_frames,
      List.take_of_length_le (by rw [length_frames]; omega)]
    congr 2
    omega
  refine ⟨h.chunk, ?_, ?_⟩
  · show (written ++ _).length + (chunkSize - (pc.pos + n)) = pc.fills * chunkSize
    rw [List.length_append, hlength, hk, Nat.succ_mul]
    omega
  · show _ <+: frames source pc.fills
    rw [hbehind, List.append_assoc, ← List.take_add, hk, frames_succ, ← hk, ← h.chunk]
    exact (List.prefix_append_right_inj _).2 (List.take_prefix _ _)

theorem filled_fills_pos (h : Played source written pc) : 0 < (pc.filled source).fills := by
  have hplace := h.filled.place
  have hpos := pc.filled_pos_lt source
  by_contra hnone
  rw [Nat.eq_zero_of_not_pos hnone, Nat.zero_mul] at hplace
  omega

/-- **One request** writes on along the frames, by its length. -/
theorem played_drain (h : Played source written pc) (request : ℕ) :
    Played source (written ++ (pc.drain source request).2) (pc.drain source request).1 ∧
      (pc.drain source request).2.length = request := by
  induction request using Nat.strong_induction_on generalizing pc written with
  | _ request ih =>
      unfold PlaybackChunker.drain
      split
      · next hnone => exact ⟨by rwa [List.append_nil], hnone.symm⟩
      · next hsome =>
        dsimp only
        set full := pc.filled source with hdef
        set n := full.served request with hn
        have hfull : Played source written full := h.filled
        have hserved : n ≤ chunkSize - full.pos := Nat.min_le_left _ _
        have hasked : n ≤ request := Nat.min_le_right _ _
        have hpos : 0 < n := by
          have hlt := pc.filled_pos_lt source
          rw [← hdef] at hlt
          rw [hn, PlaybackChunker.served]
          omega
        obtain ⟨hplayed, hlength⟩ := ih (request - n) (by omega)
          (hfull.advance (full.served_le request) (filled_fills_pos h))
        rw [List.append_assoc] at hplayed
        refine ⟨hplayed, ?_⟩
        have hcopied : ((full.chunk.drop full.pos).take n).length = n := by
          rw [List.length_take, List.length_drop, full.chunk_length]
          omega
        rw [List.length_append, hcopied, hlength]
        omega

/-- **Every request.** -/
theorem played_drainAll (h : Played source written pc) (requests : List ℕ) :
    Played source (written ++ (pc.drainAll source requests).2) (pc.drainAll source requests).1 ∧
      (pc.drainAll source requests).2.length = requests.sum := by
  induction requests generalizing pc written with
  | nil => exact ⟨by simpa [PlaybackChunker.drainAll] using h, rfl⟩
  | cons request requests ih =>
      obtain ⟨hone, hlength⟩ := played_drain h request
      obtain ⟨hrest, hlengths⟩ := ih hone
      rw [List.append_assoc] at hrest
      refine ⟨hrest, ?_⟩
      show ((pc.drain source request).2 ++ _).length = _
      rw [List.length_append, hlength, hlengths, List.sum_cons]

end Plays

/-! ## The two sides -/

variable {chunkSize : ℕ+}

/-- What a sound card that asks for these requests is given. -/
def playback (source : ℕ → Fill chunkSize) (requests : List ℕ) : List Sample :=
  ((newPlaybackChunker chunkSize).drainAll source requests).2

/-- Nothing captured is lost: the frames are whole, and with what is held, less
than a frame, they are the buffers. -/
def CapturesAll (chunkSize : ℕ+) (buffers : List (List Sample)) : Prop :=
  let r := captureAll (newCaptureStream chunkSize) buffers
  (∀ frame ∈ r.2, frame.length = chunkSize) ∧ r.2.flatten ++ r.1.held = buffers.flatten ∧
    r.1.held.length < chunkSize

/-- What is written begins the frames of the fills, and another cut of as many
samples is given the same. -/
def PlaysInOrder (source : ℕ → Fill chunkSize) (requests : List ℕ) : Prop :=
  playback source requests <+: frames source
      ((newPlaybackChunker chunkSize).drainAll source requests).1.fills ∧
    (playback source requests).length = requests.sum ∧
    ∀ recut : List ℕ, recut.sum = requests.sum → playback source recut = playback source requests

/-- Every sample written is one of the fill its frame was made by. -/
def PlaysOwnFrames (source : ℕ → Fill chunkSize) (requests : List ℕ) : Prop :=
  ∀ i < requests.sum,
    (playback source requests)[i]? = (source (i / chunkSize)).samples[i % chunkSize]?

theorem capturesAll (chunkSize : ℕ+) (buffers : List (List Sample)) :
    CapturesAll chunkSize buffers := by
  have h := recut_captureAll (newCaptureStream chunkSize) buffers
  refine ⟨h.frames, h.kept, ?_⟩
  rw [CaptureStream.length_held]
  exact lt_of_lt_of_eq (captureAll (newCaptureStream chunkSize) buffers).1.room
    (congrArg _ h.chunkSize)

/-- What is written is as much of the frames as was asked for. -/
theorem playback_eq_take (source : ℕ → Fill chunkSize) (requests : List ℕ) {n : ℕ}
    (hn : requests.sum ≤ n * chunkSize) :
    playback source requests = (frames source n).take requests.sum := by
  obtain ⟨hplayed, hlength⟩ := played_drainAll (@played_new _ source) requests
  rw [List.nil_append] at hplayed
  have htake := hplayed.eq_take
  have hplace := hplayed.place
  rw [hlength] at htake hplace
  rw [playback, htake]
  -- the longer of the two lists of frames begins with the other
  rcases Nat.le_total ((newPlaybackChunker chunkSize).drainAll source requests).1.fills n with h | h
  · obtain ⟨rest, hrest⟩ := frames_mono source h
    rw [← hrest, List.take_append_of_le_length (by rw [length_frames]; omega)]
  · obtain ⟨rest, hrest⟩ := frames_mono source h
    rw [← hrest, List.take_append_of_le_length (by rwa [length_frames])]

theorem playsInOrder (source : ℕ → Fill chunkSize) (requests : List ℕ) :
    PlaysInOrder source requests := by
  obtain ⟨hplayed, hlength⟩ := played_drainAll (@played_new _ source) requests
  rw [List.nil_append] at hplayed
  refine ⟨hplayed.written, hlength, fun recut hsum => ?_⟩
  have hmany : requests.sum ≤ requests.sum * chunkSize := Nat.le_mul_of_pos_right _ chunkSize.pos
  rw [playback_eq_take source recut (hsum.le.trans hmany), playback_eq_take source requests hmany,
    hsum]

/-- A sample is one of its own fill exactly where the fill is long enough. -/
theorem playsOwnFrames_iff (source : ℕ → Fill chunkSize) (requests : List ℕ) :
    PlaysOwnFrames source requests ↔
      ∀ i < requests.sum, i % chunkSize < (source (i / chunkSize)).samples.length := by
  have hmany : requests.sum ≤ requests.sum * chunkSize := Nat.le_mul_of_pos_right _ chunkSize.pos
  refine forall₂_congr fun i hi => ?_
  rw [playback_eq_take source requests hmany, List.getElem?_take_of_lt hi,
    getElem?_frames source (lt_of_lt_of_le hi hmany), getElem?_staged]
  constructor
  · intro heq
    by_contra hshort
    rw [if_neg hshort, List.getElem?_eq_none (not_lt.1 hshort), List.getElem?_eq_none_iff,
      length_staged] at heq
    exact absurd (Nat.mod_lt i chunkSize.pos) (not_lt.2 heq)
  · intro hlong
    rw [if_pos hlong]

/-- **Re-chunking loses nothing, and plays a fill's own samples exactly as
long as no request reads behind the end of a short beep.** A beep of a whole
frame or more has no such end; behind that of a shorter one the frame before
it is heard again. -/
theorem rechunks_iff (source : ℕ → Fill chunkSize) (requests : List ℕ)
    (buffers : List (List Sample)) :
    (CapturesAll chunkSize buffers ∧ PlaysInOrder source requests ∧
        PlaysOwnFrames source requests) ↔
      ∀ i < requests.sum, i % chunkSize < (source (i / chunkSize)).samples.length := by
  rw [← playsOwnFrames_iff]
  exact ⟨fun h => h.2.2, fun h => ⟨capturesAll chunkSize buffers, playsInOrder source requests, h⟩⟩

/-- One frame of playout, and a beep of one sample. -/
def shortBeep : ℕ → Fill frameSize
  | 0 => .playout (List.replicate 960 7) List.length_replicate
  | _ => .beep [5]

/-- **The tail of a short beep** is the tail of the frame before it. -/
theorem shortBeep_replays : ¬ PlaysOwnFrames shortBeep [960, 2] := by
  intro hown
  have hlong := (playsOwnFrames_iff shortBeep [960, 2]).1 hown 961 (by decide)
  exact absurd hlong (by decide)

end Audio

end OpenManet
