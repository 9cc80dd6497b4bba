import OpenManet.Bridge.PushToTalk
import OpenManet.Comms.HalfDuplex.Model
/-!
# Web mode — the key and the audio

In web mode the key and the audio of a browser reach the daemon on two RPCs.
`SendPTTEvent` pushes an event into a small channel, which the run loop reads
and the goroutine of `Events` closes when the context is cancelled;
`StreamAudioTx` hands every frame to the send path at once, port by port.

The machine is the half-duplex one with the run loop, the event channel and
the frames around it. The run loop alone calls `beginTransmission` and
`endTransmission`; everything else of the radio goes on by itself. The push
of an event is one step, as the `select` in `Push` is. `lastPushed`, `handed`
and `panicked` record what has happened, and no step reads them.
-/

namespace OpenManet

namespace Web

open Bridge (PTTEvent)

variable {Port Loop Stream : Type} [DecidableEq Port] [DecidableEq Loop] [DecidableEq Stream]

/-- The capacity of the event channel. -/
def eventDepth : ℕ := 4

/-- Where `Run` stands. Inside `beginTransmission` and `endTransmission` it
is where the radio's transmit path is. -/
inductive RunPoint where
  /-- At its `select`, or in one of the two calls. -/
  | looping
  /-- It has taken a toggle, and loads `Broadcasting` next. -/
  | toggling
  | returned
deriving DecidableEq

/-- A frame on its way over the ports, in `sendToAllPorts`. -/
structure Inject (Port : Type) where
  opusData : List UInt8
  /-- `Broadcasting` was true when `InjectTxFrame` was called. -/
  keyed : Bool
  ahead : List Port

/-- A frame handed to a port's RTP session. -/
structure Handed (Port : Type) where
  port : Port
  opusData : List UInt8
  keyed : Bool

/-- The radio, the event channel, the run loop and the frames. -/
structure State (Port Loop Stream : Type) where
  radio : HalfDuplex.State Port Loop
  queue : List PTTEvent
  canceled : Bool
  closed : Bool
  run : RunPoint
  inject : Stream → Option (Inject Port)
  /-- The last event pushed, queued or not. -/
  lastPushed : Option PTTEvent
  /-- A push has met the closed channel. -/
  panicked : Bool
  handed : List (Handed Port)

/-- The schedule's choices. -/
inductive Action (Port Loop Stream : Type) where
  /-- `WebEventSource.Push`. -/
  | push (ev : PTTEvent)
  | cancel
  /-- The goroutine of `Events` closes the channel. -/
  | close
  /-- `Run` takes an event. -/
  | take
  /-- `Run` loads `Broadcasting` for a toggle. -/
  | toggle
  | exit
  /-- A step of the transmit path, the receive loops, the decay loop, the
  send toggles or a gate. -/
  | radio (a : HalfDuplex.Action Port Loop)
  /-- `StreamAudioTx` calls `InjectTxFrame`. -/
  | inject (stream : Stream) (opusData : List UInt8)
  /-- `sendToAllPorts` comes to its next port. -/
  | send (stream : Stream)
  /-- `sendToAllPorts` is past the last port. -/
  | sent (stream : Stream)

variable (ports : List Port) (web : Bool) (port : Loop → Port) (session : Port → Bool)

omit [DecidableEq Port] [DecidableEq Loop] in
/-- The two calls that are the run loop's own. -/
def isCall : HalfDuplex.Action Port Loop → Bool
  | .down | .up => true
  | _ => false

/-- The run loop calls, and goes back to its loop. -/
def call (s : State Port Loop Stream) (a : HalfDuplex.Action Port Loop) :
    Option (State Port Loop Stream) :=
  (HalfDuplex.step ports web port s.radio a).map fun radio => { s with radio := radio, run := .looping }

/-- One action of a schedule. -/
def step (s : State Port Loop Stream) : Action Port Loop Stream → Option (State Port Loop Stream)
  | .push ev =>
      -- a closed channel is always ready to be sent on, and the send panics
      if s.closed then some { s with panicked := true, lastPushed := some ev }
      else if s.queue.length < eventDepth then
        some { s with queue := s.queue ++ [ev], lastPushed := some ev }
      else some { s with lastPushed := some ev }
  | .cancel => some { s with canceled := true }
  | .close => if s.canceled && !s.closed then some { s with closed := true } else none
  | .take =>
      match s.run, s.radio.tx, s.queue with
      | .looping, .idle, ev :: rest =>
          let t := { s with queue := rest }
          match ev with
          | .down => call ports web port t .down
          | .up => call ports web port t .up
          | .toggle => some { t with run := .toggling }
      | _, _, _ => none
  | .toggle =>
      match s.run with
      | .toggling => call ports web port s (if s.radio.broadcasting then .up else .down)
      | _ => none
  | .exit =>
      match s.run, s.radio.tx with
      | .looping, .idle =>
          if s.canceled || (s.closed && s.queue.isEmpty) then some { s with run := .returned }
          else none
      | _, _ => none
  | .radio a =>
      if isCall a then none
      else (HalfDuplex.step ports web port s.radio a).map fun radio => { s with radio := radio }
  | .inject stream opusData =>
      match s.inject stream with
      | none => some { s with
          inject := Function.update s.inject stream (some ⟨opusData, s.radio.broadcasting, ports⟩) }
      | some _ => none
  | .send stream =>
      match s.inject stream with
      | some ⟨opusData, keyed, p :: rest⟩ =>
          some { s with
            inject := Function.update s.inject stream (some ⟨opusData, keyed, rest⟩)
            handed := if s.radio.sendEnabled p && session p then ⟨p, opusData, keyed⟩ :: s.handed
              else s.handed }
      | _ => none
  | .sent stream =>
      match s.inject stream with
      | some ⟨_, _, []⟩ => some { s with inject := Function.update s.inject stream none }
      | _ => none

/-- The daemon as `Run` starts: no event, no frame, nobody talking. -/
def fresh (sendEnabled : Port → Bool) : State Port Loop Stream where
  radio := HalfDuplex.fresh sendEnabled
  queue := []
  canceled := false
  closed := false
  run := .looping
  inject := fun _ => none
  lastPushed := none
  panicked := false
  handed := []

end Web

end OpenManet
