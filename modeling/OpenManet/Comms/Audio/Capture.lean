import Mathlib.Data.List.Basic
import Mathlib.Data.PNat.Defs
/-!
# Re-chunking: the microphone

`captureChunk` of `internal/comms/audio/malgo_capture.go` cuts what the sound
card hands it, callback by callback, into frames of one size. What does not
fill a frame is held for the next callback. Where nothing is held and the
callback is a multiple of the frame, the frames are slices of it and nothing
is copied; the two paths emit the same frames.

`onFrame` copies what it is given before it returns, so a frame is a list
here.
-/

namespace OpenManet

namespace Audio

/-- An `int16` sample. -/
abbrev Sample := Int16

/-- `audiopool.FrameSize`. -/
def frameSize : ℕ+ := 960

/-- `malgoCaptureStream`: the accumulator, and how much of it is in use. -/
structure CaptureStream where
  chunkSize : ℕ+
  accum : List Sample
  accumLen : ℕ
  accum_length : accum.length = chunkSize
  room : accumLen < chunkSize

/-- A stream as it is opened. -/
def newCaptureStream (chunkSize : ℕ+) : CaptureStream where
  chunkSize := chunkSize
  accum := List.replicate chunkSize 0
  accumLen := 0
  accum_length := List.length_replicate
  room := chunkSize.pos

namespace CaptureStream

variable (s : CaptureStream)

/-- What is held for the next callback. -/
def held : List Sample := s.accum.take s.accumLen

theorem length_held : s.held.length = s.accumLen := by
  rw [held, List.length_take, s.accum_length]
  have hroom := s.room
  omega

/-- How much of a callback is copied at once. -/
def copied (src : List Sample) : ℕ := min src.length (s.chunkSize - s.accumLen)

theorem copied_le (src : List Sample) : s.accumLen + s.copied src ≤ s.chunkSize := by
  have hroom := s.room
  unfold copied
  omega

/-- The accumulator with a piece of the callback copied behind what is in
use. -/
def glued (src : List Sample) : List Sample :=
  s.accum.take s.accumLen ++ src.take (s.copied src) ++ s.accum.drop (s.accumLen + s.copied src)

theorem length_glued (src : List Sample) : (s.glued src).length = s.chunkSize := by
  have hle := s.copied_le src
  have hroom := s.room
  have hcopied : s.copied src ≤ src.length := Nat.min_le_left _ _
  simp only [glued, List.length_append, List.length_take, List.length_drop, s.accum_length]
  omega

/-- The accumulator, its count set back. -/
def emptied (src : List Sample) : CaptureStream where
  chunkSize := s.chunkSize
  accum := s.glued src
  accumLen := 0
  accum_length := s.length_glued src
  room := s.chunkSize.pos

/-- The slow path: glue and emit until the callback is drained. -/
def glue (s : CaptureStream) (src : List Sample) : CaptureStream × List (List Sample) :=
  if src = [] then (s, [])
  else if hroom : s.accumLen + s.copied src < s.chunkSize then
    glue ⟨s.chunkSize, s.glued src, s.accumLen + s.copied src, s.length_glued src, hroom⟩
      (src.drop (s.copied src))
  else
    let r := glue (s.emptied src) (src.drop (s.copied src))
    (r.1, s.glued src :: r.2)
termination_by src.length
decreasing_by
  all_goals
    have hpos : 0 < src.length := List.length_pos_iff.2 ‹_›
    have hroom := s.room
    simp only [List.length_drop, copied]
    omega

end CaptureStream

/-- The slices of the fast path, from an offset on. -/
def slices (chunkSize : ℕ+) (src : List Sample) (off : ℕ) : List (List Sample) :=
  if off < src.length then
    (src.drop off).take chunkSize :: slices chunkSize src (off + chunkSize)
  else []
termination_by src.length - off
decreasing_by
  have hpos := chunkSize.pos
  omega

/-- `captureChunk`, and the frames it passes to `onFrame`. -/
def captureChunk (s : CaptureStream) (src : List Sample) : CaptureStream × List (List Sample) :=
  if src = [] then (s, [])
  else if s.accumLen = 0 ∧ src.length % s.chunkSize = 0 then (s, slices s.chunkSize src 0)
  else s.glue src

/-- One callback after the other. -/
def captureAll : CaptureStream → List (List Sample) → CaptureStream × List (List Sample)
  | s, [] => (s, [])
  | s, src :: srcs =>
      let r := captureChunk s src
      let rest := captureAll r.1 srcs
      (rest.1, r.2 ++ rest.2)

/-! ## Nothing is lost -/

/-- What a stretch of callbacks has made of a stream. -/
structure Recut (s : CaptureStream) (src : List Sample) (r : CaptureStream × List (List Sample)) :
    Prop where
  chunkSize : r.1.chunkSize = s.chunkSize
  frames : ∀ frame ∈ r.2, frame.length = s.chunkSize
  kept : r.2.flatten ++ r.1.held = s.held ++ src

namespace Recut

variable {s s' : CaptureStream} {src src' : List Sample} {r : CaptureStream × List (List Sample)}

theorem nil (s : CaptureStream) : Recut s [] (s, []) :=
  ⟨rfl, fun _ h => (List.not_mem_nil h).elim, (List.append_nil _).symm⟩

/-- Two stretches. -/
theorem append (hfirst : Recut s src r) {r' : CaptureStream × List (List Sample)}
    (hsecond : Recut r.1 src' r') : Recut s (src ++ src') (r'.1, r.2 ++ r'.2) where
  chunkSize := hsecond.chunkSize.trans hfirst.chunkSize
  frames frame hframe := by
    rcases List.mem_append.1 hframe with h | h
    · exact hfirst.frames frame h
    · exact (hsecond.frames frame h).trans (congrArg _ hfirst.chunkSize)
  kept := by
    rw [List.flatten_append, List.append_assoc, hsecond.kept, ← List.append_assoc, hfirst.kept,
      List.append_assoc]

end Recut

namespace CaptureStream

variable (s : CaptureStream)

/-- A piece copied behind what is held is held too. -/
theorem take_glued (src : List Sample) :
    (s.glued src).take (s.accumLen + s.copied src) = s.held ++ src.take (s.copied src) := by
  have hlength : (s.held ++ src.take (s.copied src)).length = s.accumLen + s.copied src := by
    rw [List.length_append, s.length_held, List.length_take]
    have hcopied : s.copied src ≤ src.length := Nat.min_le_left _ _
    omega
  rw [← hlength, glued]
  exact List.take_left

/-- **The slow path** keeps every sample in its order. -/
theorem recut_glue (src : List Sample) : Recut s src (s.glue src) := by
  fun_induction glue s src with
  | case1 s => exact Recut.nil s
  | case2 s src hne hroom ih =>
      refine ⟨ih.chunkSize, ih.frames, ?_⟩
      rw [ih.kept, held, s.take_glued, List.append_assoc, List.take_append_drop]
  | case3 s src hne hfull r ih =>
      have hle := s.copied_le src
      have hall : s.accumLen + s.copied src = s.chunkSize := by omega
      have hglued : s.glued src = s.held ++ src.take (s.copied src) := by
        rw [← s.take_glued, hall, ← s.length_glued src, List.take_length]
      refine ⟨ih.chunkSize, fun frame hframe => ?_, ?_⟩
      · rcases List.mem_cons.1 hframe with rfl | h
        · exact s.length_glued src
        · exact ih.frames frame h
      · rw [List.flatten_cons, List.append_assoc, ih.kept, hglued]
        show _ ++ (List.take 0 _ ++ _) = _
        rw [List.take_zero, List.nil_append, List.append_assoc, List.take_append_drop]

end CaptureStream

/-- The slices from an offset on are what lies behind it, where that is a
whole number of them. -/
theorem slices_flatten (chunkSize : ℕ+) (src : List Sample) (off : ℕ)
    (hwhole : (chunkSize : ℕ) ∣ src.length - off) :
    (slices chunkSize src off).flatten = src.drop off ∧
      ∀ frame ∈ slices chunkSize src off, frame.length = chunkSize := by
  fun_induction slices chunkSize src off with
  | case1 off hlt ih =>
      have hle : (chunkSize : ℕ) ≤ src.length - off := Nat.le_of_dvd (by omega) hwhole
      obtain ⟨hflatten, hframes⟩ := ih (by
        rw [← Nat.sub_sub]
        exact Nat.dvd_sub hwhole (Nat.dvd_refl _))
      refine ⟨?_, fun frame hframe => ?_⟩
      · rw [List.flatten_cons, hflatten, ← List.drop_drop, List.take_append_drop]
      · rcases List.mem_cons.1 hframe with rfl | h
        · rw [List.length_take, List.length_drop]
          omega
        · exact hframes frame h
  | case2 off hge =>
      exact ⟨(List.drop_eq_nil_of_le (by omega)).symm, fun _ h => (List.not_mem_nil h).elim⟩

/-- **One callback.** The fast path emits what the slow path would. -/
theorem recut_captureChunk (s : CaptureStream) (src : List Sample) :
    Recut s src (captureChunk s src) := by
  unfold captureChunk
  split
  · next hnil =>
    rw [hnil]
    exact Recut.nil s
  split
  · next hfast =>
    obtain ⟨hheld, hwhole⟩ := hfast
    obtain ⟨hflatten, hframes⟩ := slices_flatten s.chunkSize src 0 (Nat.dvd_of_mod_eq_zero hwhole)
    have hnone : s.held = [] := by rw [CaptureStream.held, hheld, List.take_zero]
    exact ⟨rfl, hframes, by rw [hflatten, hnone, List.append_nil, List.nil_append, List.drop_zero]⟩
  · exact s.recut_glue src

/-- **Every callback**: the frames and what is held are what was captured. -/
theorem recut_captureAll (s : CaptureStream) (srcs : List (List Sample)) :
    Recut s srcs.flatten (captureAll s srcs) := by
  induction srcs generalizing s with
  | nil => exact Recut.nil s
  | cons src srcs ih => exact (recut_captureChunk s src).append (ih _)

end Audio

end OpenManet
