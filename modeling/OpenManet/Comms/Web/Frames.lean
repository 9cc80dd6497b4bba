import Mathlib.Data.List.Count
import Mathlib.Logic.Function.Basic
import OpenManet.Lib.Machine
/-!
# Web mode — the frames to the browser

`PushRxFrame`, `AddConsumer` and `RemoveConsumer` of
`internal/comms/webaudio/bridge.go`. Any number of calls are under way, each at
a point of its own; a schedule names the call that moves next, and a call moves
from one access to what is shared to the next: a counter, the pool, the
channel, the bytes of a buffer. A push sends, evicts the oldest frame where the
channel is full, and sends once more; another producer, a consumer or the flush
of the first consumer may come between any two of the three.

Buffers have numbers, and a frame is a buffer with a length and a channel, so
what a frame carries is what its buffer holds at the time. `entered` is what
calls were pushing when a frame of theirs went into the channel, `taken` what a
frame carried when it came out, with `true` where a consumer took it. No step
reads the two.
-/

namespace OpenManet

namespace Web

namespace Rx

/-! ## The bridge -/

def maxFrameBytes : ℕ := 1275

def rxFrameDepth : ℕ := 10

/-- `Frame`: a pooled buffer and how much of it is payload. -/
structure Frame where
  buf : ℕ
  n : ℕ
  ch : UInt8
deriving DecidableEq

/-- What a push is given, and what a consumer reads. -/
structure Payload where
  ch : UInt8
  opusData : List UInt8
deriving DecidableEq

/-- Where a `PushRxFrame` stands: what it does next. -/
inductive Point where
  /-- Counts itself in `RxPushIn`. -/
  | called
  /-- Looks at the length, and gets a buffer. -/
  | counted
  /-- Counts its own payload as dropped, for it is too long. -/
  | oversized
  /-- Copies the payload. -/
  | filling (buf : ℕ)
  /-- The first `select`. -/
  | sending (f : Frame)
  /-- The second, the channel having been full. -/
  | evicting (f : Frame)
  /-- Counts the frame it has evicted. -/
  | evicted (f old : Frame)
  /-- Releases it. -/
  | releasing (f old : Frame)
  /-- The third `select`. -/
  | retrying (f : Frame)
  /-- Counts its own frame, the channel having been full again. -/
  | refused (f : Frame)
  /-- Puts its buffer back. -/
  | recycling (f : Frame)

/-- A call that is under way. -/
inductive Call where
  | push (p : Payload) (point : Point)
  /-- `AddConsumer`. -/
  | add
  /-- The loop of the first consumer's flush. -/
  | flushing
  /-- The flush counts a frame it has taken. -/
  | flushed (f : Frame)
  /-- And releases it. -/
  | discarding (f : Frame)
  /-- `RemoveConsumer`. -/
  | remove

structure State where
  /-- The buffers that were made are those below. -/
  made : ℕ
  /-- What they hold. -/
  mem : ℕ → List UInt8
  pool : List ℕ
  /-- What the pool has let go of. -/
  collected : List ℕ
  rxFrames : List Frame
  consumers : Int32
  rxPushIn : ℕ
  rxPushDrop : ℕ
  calls : List Call
  /-- Frames consumers have received and not released yet, with what they
  carried when they were received. -/
  held : List (Frame × Payload)
  entered : List Payload
  taken : List (Bool × Payload)

/-- What a frame carries: `Data` and `Channel`. -/
def State.payload (s : State) (f : Frame) : Payload := ⟨f.ch, (s.mem f.buf).take f.n⟩

/-- The schedule's choices. -/
inductive Action where
  /-- A producer calls `PushRxFrame`. -/
  | push (p : Payload)
  | add
  | remove
  /-- A call moves. Where it gets a buffer, `pick` is which of the pool's, or
  that it is a new one: the pool need not answer with what it has. -/
  | move (i : ℕ) (pick : Option ℕ)
  /-- A consumer receives from `RxFrames`. -/
  | receive
  /-- And releases what it holds. -/
  | release (i : ℕ)
  /-- The pool lets go of a buffer. -/
  | collect (i : ℕ)

/-- The state after a buffer went back to the pool. -/
def State.put (s : State) (buf : ℕ) : State := { s with pool := s.pool ++ [buf] }

def State.drop (s : State) : State := { s with rxPushDrop := s.rxPushDrop + 1 }

/-- A send that does not block. -/
def State.send (s : State) (p : Payload) (f : Frame) : Option State :=
  if s.rxFrames.length < rxFrameDepth then
    some { s with rxFrames := s.rxFrames ++ [f], entered := s.entered ++ [p] }
  else none

/-- A receive that does not block. -/
def State.receive (s : State) (consumer : Bool) : Option (Frame × State) :=
  match s.rxFrames with
  | f :: rest =>
      some (f, { s with rxFrames := rest, taken := s.taken ++ [(consumer, s.payload f)] })
  | [] => none

/-- One step of a `PushRxFrame`, with where it stands afterwards unless it has
returned. -/
def stepPush (s : State) (pick : Option ℕ) (p : Payload) : Point → Option (State × Option Point)
  | .called => some ({ s with rxPushIn := s.rxPushIn + 1 }, some .counted)
  | .counted =>
      if maxFrameBytes < p.opusData.length then some (s, some .oversized)
      else
        match pick with
        | none => some ({ s with
            made := s.made + 1
            mem := Function.update s.mem s.made (List.replicate maxFrameBytes 0) },
            some (.filling s.made))
        | some i => s.pool[i]?.map fun buf =>
            ({ s with pool := s.pool.eraseIdx i }, some (.filling buf))
  | .oversized => some (s.drop, none)
  | .filling buf => some ({ s with
      mem := Function.update s.mem buf (p.opusData ++ (s.mem buf).drop p.opusData.length) },
      some (.sending ⟨buf, p.opusData.length, p.ch⟩))
  | .sending f =>
      match s.send p f with
      | some s => some (s, none)
      | none => some (s, some (.evicting f))
  | .evicting f =>
      match s.receive false with
      | some (old, s) => some (s, some (.evicted f old))
      -- a consumer has drained the channel meanwhile
      | none => some (s, some (.retrying f))
  | .evicted f old => some (s.drop, some (.releasing f old))
  | .releasing f old => some (s.put old.buf, some (.retrying f))
  | .retrying f =>
      match s.send p f with
      | some s => some (s, none)
      -- other producers have filled it again
      | none => some (s, some (.refused f))
  | .refused f => some (s.drop, some (.recycling f))
  | .recycling f => some (s.put f.buf, none)

/-- One step of a call. -/
def stepCall (s : State) (pick : Option ℕ) : Call → Option (State × Option Call)
  | .push p point => (stepPush s pick p point).map fun r => (r.1, r.2.map (.push p))
  | .add =>
      let s := { s with consumers := s.consumers + 1 }
      some (s, if s.consumers ≠ 1 then none else some .flushing)
  | .flushing =>
      match s.receive false with
      | some (f, s) => some (s, some (.flushed f))
      | none => some (s, none)
  | .flushed f => some (s.drop, some (.discarding f))
  | .discarding f => some (s.put f.buf, some .flushing)
  | .remove => some ({ s with consumers := s.consumers - 1 }, none)

/-- One action of a schedule. -/
def step (s : State) : Action → Option State
  | .push p => some { s with calls := s.calls ++ [.push p .called] }
  | .add => some { s with calls := s.calls ++ [.add] }
  | .remove => some { s with calls := s.calls ++ [.remove] }
  | .move i pick =>
      match s.calls[i]? with
      | some c => (stepCall s pick c).map fun r =>
          { r.1 with calls := s.calls.take i ++ (r.2.toList ++ s.calls.drop (i + 1)) }
      | none => none
  | .receive => (s.receive true).map fun r =>
      { r.2 with held := s.held ++ [(r.1, s.payload r.1)] }
  | .release i => s.held[i]?.map fun x => { s.put x.1.buf with held := s.held.eraseIdx i }
  | .collect i => s.pool[i]?.map fun buf =>
      { s with pool := s.pool.eraseIdx i, collected := s.collected ++ [buf] }

/-- A new bridge. -/
def fresh : State where
  made := 0
  mem := fun _ => []
  pool := []
  collected := []
  rxFrames := []
  consumers := 0
  rxPushIn := 0
  rxPushDrop := 0
  calls := []
  held := []
  entered := []
  taken := []

end Rx

end Web

end OpenManet
