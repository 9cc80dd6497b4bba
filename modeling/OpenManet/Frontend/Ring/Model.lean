import OpenManet.Lib.Machine
import OpenManet.Lib.Ring
/-!
# The browser — the PCM ring

`services/ringBuffer.js` and `public/pcm-worklet.js`: a ring of samples between
the decoder, which writes whole frames or drops them, and the audio output,
which reads as many samples as it is asked for. They may be two threads over
shared memory. The reader exists twice, `ringRead` on the main thread and
`process` in the worklet, which load the read index twice and once.

`Mem` is what they share: the samples, and the five cells of the `Int32Array`,
which hold what `Atomics.store` and `Atomics.add` leave in 32 bits. The functions
are given first as each runs by itself, then access by access: an index or a
counter, loaded or stored, or one sample, is one step, and the steps of the
two sides come in any order. What either side does with its own variables
belongs to the access before it.

The logs of what was written and read, and the count of samples that have been
given back, are read by no function.
-/

namespace OpenManet

namespace RingBuffer

open OpenManet.Ring

/-- What a cell of an `Int32Array` makes of a number. -/
def toInt32 (z : ℤ) : ℤ := z.bmod (2 ^ 32)

/-- `JITTER_PREFILL`. -/
abbrev jitterPrefill : ℤ := 11520

/-- `PCM_RING_SIZE`. -/
abbrev pcmRingSize : ℕ := 16384

/-- The shared memory. -/
structure Mem (α : Type) where
  ring : ℤ → α
  writeIndex : ℤ
  readIndex : ℤ
  prefilled : ℤ
  droppedFrames : ℤ
  underrunSamples : ℤ

variable {α : Type} [Zero α]

namespace Mem

/-- `createRingBuffer`. -/
def created : Mem α where
  ring := fun _ => 0
  writeIndex := 0
  readIndex := 0
  prefilled := 0
  droppedFrames := 0
  underrunSamples := 0

variable (m : Mem α) (R : ℕ)

/-- `ringAvail`. -/
def ringAvail : ℤ := (m.writeIndex - m.readIndex + R).tmod R

/-- `ringFree`. -/
def ringFree : ℤ := R - 1 - m.ringAvail R

/-- The loop of `ringWrite`, from sample `i` on. -/
def copyIn (wr : ℤ) : ℕ → List α → Mem α → Mem α
  | _, [], m => m
  | i, a :: src, m =>
    copyIn wr (i + 1) src { m with ring := Function.update m.ring ((wr + i).tmod R) a }

/-- `ringWrite`. -/
def ringWrite (src : List α) : Mem α :=
  if src.length > m.ringFree R then { m with droppedFrames := toInt32 (m.droppedFrames + 1) }
  else
    let wr := m.writeIndex
    let m := copyIn R wr 0 src m
    let m := { m with writeIndex := toInt32 ((wr + src.length).tmod R) }
    if m.prefilled = 0 ∧ m.ringAvail R ≥ jitterPrefill then { m with prefilled := 1 } else m

/-- The loop of a reader. -/
def copyOut (rd n : ℤ) : List α :=
  (List.range n.toNat).map fun i : ℕ => m.ring ((rd + i).tmod R)

/-- `ringRead`: the memory after it, and `dst`. -/
def ringRead (count : ℕ) : Mem α × List α :=
  if m.prefilled = 0 then (m, List.replicate count 0)
  else
    let avail := m.ringAvail R
    let rd := m.readIndex
    let n := min (count : ℤ) avail
    let dst := m.copyOut R rd n
    let m := { m with readIndex := toInt32 ((rd + n).tmod R) }
    if n < count then
      ({ m with underrunSamples := toInt32 (m.underrunSamples + (count - n)) },
        dst ++ List.replicate (count - n).toNat 0)
    else (m, dst)

/-- `process`, of a worklet that has its ring or has not got it yet, with
`out.length`. -/
def process (attached : Bool) (count : ℕ) : Mem α × List α :=
  if !attached then (m, List.replicate count 0)
  else if m.prefilled = 0 then (m, List.replicate count 0)
  else
    let wr := m.writeIndex
    let rd := m.readIndex
    let avail := (wr - rd + R).tmod R
    let n := min (count : ℤ) avail
    let out := m.copyOut R rd n
    let m := { m with readIndex := toInt32 ((rd + n).tmod R) }
    if n < count then
      ({ m with underrunSamples := toInt32 (m.underrunSamples + (count - n)) },
        out ++ List.replicate (count - n).toNat 0)
    else (m, out)

/-- **The two readers are one**, from any memory, once the worklet has the
ring. -/
theorem process_eq_ringRead (count : ℕ) : m.process R true count = m.ringRead R count := rfl

end Mem

/-! ## Access by access -/

/-- Where the writer stands: its next access, with its variables. -/
inductive Writer (α : Type) where
  | idle
  /-- `ringFree` of `ringWrite`: the write index. -/
  | availWr (src : List α)
  | availRd (src : List α) (wr : ℤ)
  /-- The frame is dropped: the counter. -/
  | drop (src : List α)
  | loadWr (src : List α)
  /-- Sample `i`. -/
  | copy (src : List α) (wr : ℤ) (i : ℕ)
  | storeWr (src : List α) (wr : ℤ)
  /-- Is the flag set? -/
  | flag
  /-- `ringAvail` of the prefill test. -/
  | prefillWr
  | prefillRd (wr : ℤ)
  | setFlag

/-- A read that is over. -/
structure Read (α : Type) where
  count : ℕ
  /-- What was put out. -/
  dst : List α
  /-- How much of it comes from the ring. -/
  real : ℕ
  /-- The reader had the ring and found the flag set. -/
  playing : Bool
  /-- The flag was set when it began. -/
  flagged : Bool
  /-- The samples that were there when it looked. -/
  available : ℕ

/-- Where the reader stands. `twice` tells `ringRead`, which loads the read index
again. -/
inductive Reader (α : Type) where
  | idle
  | flag (count : ℕ) (twice : Bool)
  | availWr (count : ℕ) (twice : Bool)
  /-- `stored` samples had been stored when the write index was loaded. -/
  | availRd (count : ℕ) (twice : Bool) (wr : ℤ) (stored : ℕ)
  | loadRd (count : ℕ) (avail : ℤ) (available : ℕ)
  | copy (count : ℕ) (n rd : ℤ) (dst : List α) (available : ℕ)
  | storeRd (count : ℕ) (n rd : ℤ) (dst : List α) (available : ℕ)
  /-- The counter of the samples that were not there. -/
  | underrun (count : ℕ) (n : ℤ) (dst : List α) (available : ℕ)

/-- The loop of the writer: its next sample, or the index. -/
def Writer.copying (src : List α) (wr : ℤ) (i : ℕ) : Writer α :=
  if i < src.length then .copy src wr i else .storeWr src wr

/-- The loop of the reader. -/
def Reader.copying (count : ℕ) (n rd : ℤ) (dst : List α) (available : ℕ) : Reader α :=
  if dst.length < n then .copy count n rd dst available else .storeRd count n rd dst available

/-- The two sides and their memory. -/
structure State (α : Type) where
  mem : Mem α
  writer : Writer α := .idle
  reader : Reader α := .idle
  /-- The worklet has been sent the ring. -/
  attached : Bool := false
  /-- The frames that `ringWrite` is done with, stored or dropped. -/
  written : List (List α × Bool) := []
  reads : List (Read α) := []
  /-- How many samples the read index has passed. -/
  consumed : ℕ := 0

namespace State

/-- A ring that has just been made. -/
def created : State α := { mem := .created }

variable (s : State α)

/-- The samples of the frames that were stored, in order. -/
def stored : List α := (s.written.filter (·.2)).flatMap (·.1)

/-- How many frames were dropped. -/
def drops : ℕ := s.written.countP (!·.2)

/-- The samples that come from the ring, in order. -/
def heard : List α := s.reads.flatMap fun r => r.dst.take r.real

/-- How many samples were missing, of reads that found the flag set. -/
def short : ℕ := (s.reads.map fun r => if r.playing then r.count - r.real else 0).sum

end State

/-- The next access of the writer, and the frame it is done with. -/
def writerStep (R : ℕ) (m : Mem α) : Writer α → Option (Mem α × Writer α × Option (List α × Bool))
  | .idle => none
  | .availWr src => some (m, .availRd src m.writeIndex, none)
  | .availRd src wr =>
      let avail := (wr - m.readIndex + R).tmod R
      some (m, if src.length > R - 1 - avail then .drop src else .loadWr src, none)
  | .drop src =>
      some ({ m with droppedFrames := toInt32 (m.droppedFrames + 1) }, .idle, some (src, false))
  | .loadWr src => some (m, .copying src m.writeIndex 0, none)
  | .copy src wr i =>
      match src[i]? with
      | some a =>
          some ({ m with ring := Function.update m.ring ((wr + i).tmod R) a },
            .copying src wr (i + 1), none)
      | none => none
  | .storeWr src wr =>
      some ({ m with writeIndex := toInt32 ((wr + src.length).tmod R) }, .flag, some (src, true))
  | .flag => some (m, if m.prefilled = 0 then .prefillWr else .idle, none)
  | .prefillWr => some (m, .prefillRd m.writeIndex, none)
  | .prefillRd wr =>
      let avail := (wr - m.readIndex + R).tmod R
      some (m, if avail ≥ jitterPrefill then .setFlag else .idle, none)
  | .setFlag => some ({ m with prefilled := 1 }, .idle, none)

/-- A read that found nothing to play. -/
def silent (count available : ℕ) (flagged : Bool) : Read α :=
  ⟨count, List.replicate count 0, 0, false, flagged, available⟩

/-- A read that is over, with what it lacks filled up. -/
def played (count : ℕ) (n : ℤ) (dst : List α) (available : ℕ) : Read α :=
  ⟨count, dst ++ List.replicate (count - n).toNat 0, n.toNat, true, true, available⟩

/-- The next access of the reader: the memory, where it stands then, the read
that is over, and how many samples the read index has passed. -/
def readerStep (R : ℕ) (m : Mem α) (stored consumed : ℕ) :
    Reader α → Option (Mem α × Reader α × Option (Read α) × ℕ)
  | .idle => none
  | .flag count twice =>
      if m.prefilled = 0 then
        some (m, .idle, some (silent count (stored - consumed) false), consumed)
      else some (m, .availWr count twice, none, consumed)
  | .availWr count twice => some (m, .availRd count twice m.writeIndex stored, none, consumed)
  | .availRd count twice wr stored' =>
      let rd := m.readIndex
      let avail := (wr - rd + R).tmod R
      let available := stored' - consumed
      some (m, if twice then .loadRd count avail available
        else .copying count (min (count : ℤ) avail) rd [] available, none, consumed)
  | .loadRd count avail available =>
      some (m, .copying count (min (count : ℤ) avail) m.readIndex [] available, none, consumed)
  | .copy count n rd dst available =>
      let a := m.ring ((rd + dst.length).tmod R)
      some (m, .copying count n rd (dst ++ [a]) available, none, consumed)
  | .storeRd count n rd dst available =>
      let m := { m with readIndex := toInt32 ((rd + n).tmod R) }
      if n < count then some (m, .underrun count n dst available, none, consumed + n.toNat)
      else some (m, .idle, some (played count n dst available), consumed + n.toNat)
  | .underrun count n dst available =>
      some ({ m with underrunSamples := toInt32 (m.underrunSamples + (count - n)) }, .idle,
        some (played count n dst available), consumed)

/-- Who does what next. -/
inductive Action (α : Type) where
  /-- `ringWrite` is called. -/
  | ringWrite (src : List α)
  | writer
  /-- The worklet gets the ring. -/
  | init
  /-- `ringRead` is called. -/
  | ringRead (count : ℕ)
  /-- `process` is called. -/
  | process (count : ℕ)
  | reader

/-- The machine. -/
def step (R : ℕ) (s : State α) : Action α → Option (State α)
  | .ringWrite src =>
      match s.writer with
      | .idle => some { s with writer := .availWr src }
      | _ => none
  | .writer =>
      (writerStep R s.mem s.writer).map fun (m, w, done) =>
        { s with mem := m, writer := w, written := s.written ++ done.toList }
  | .init => some { s with attached := true }
  | .ringRead count =>
      match s.reader with
      | .idle => some { s with reader := .flag count true }
      | _ => none
  | .process count =>
      match s.reader with
      | .idle =>
          if s.attached then some { s with reader := .flag count false }
          else some { s with reads :=
            s.reads ++ [silent count (s.stored.length - s.consumed) (s.mem.prefilled ≠ 0)] }
      | _ => none
  | .reader =>
      (readerStep R s.mem s.stored.length s.consumed s.reader).map fun (m, r, done, consumed) =>
        { s with mem := m, reader := r, reads := s.reads ++ done.toList, consumed := consumed }

end RingBuffer

end OpenManet
