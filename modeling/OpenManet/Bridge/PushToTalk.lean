import OpenManet.Lib.Bytes
import OpenManet.Lib.Machine
import Mathlib.Logic.Function.Basic
/-!
# The web bridge — push to talk

A browser's press of the talk button crosses two processes. The bridge reads
an opcode off the WebSocket and calls the daemon with a number; the daemon
reads the number and pushes an event to the source its run loop listens to.
The two were written apart, and each names a press and a release its own
way: what leaves the bridge as a press arrives as a release.

`HandleMessage` is modelled with all ten opcodes, since the others stand
between a press and its release, and the audio stream is closed before a
release is sent on. Calls to the daemon succeed.
-/

namespace OpenManet

namespace Bridge

open Bytes

/-! ## The wire -/

/-- The opcodes of the binary protocol. -/
def opcodeAudioRX : UInt8 := 0x01
def opcodeAudioTX : UInt8 := 0x02
def opcodeTXToggle : UInt8 := 0x03
def opcodeRXToggle : UInt8 := 0x04
def opcodeRXAllOn : UInt8 := 0x05
def opcodeRXAllOff : UInt8 := 0x06
def opcodeTXAllOn : UInt8 := 0x07
def opcodeTXAllOff : UInt8 := 0x08
def opcodePTTDown : UInt8 := 0x09
def opcodePTTUp : UInt8 := 0x0A

/-- `ToggleMessage`. -/
structure ToggleMessage where
  channel : UInt8
  on : Bool

/-- `DecodeToggle`. -/
def decodeToggle : List UInt8 → Option ToggleMessage
  | _ :: channel :: on :: _ => some ⟨channel, on != 0⟩
  | _ => none

/-- `ExtractAudioTXPayload`. -/
def extractAudioTXPayload (data : List UInt8) : Option (List UInt8) :=
  if data.length < 2 then none else some data.tail

/-- `EncodeAudioRX`, of a message whose SSRC, sequence and source address are
zero. -/
def encodeAudioRX (channel : UInt8) (opusData : List UInt8) : List UInt8 :=
  [opcodeAudioRX, channel] ++ putBigEndian 4 0 ++ putBigEndian 2 0 ++ [0, 0, 0, 0] ++ opusData

/-! ## The bridge -/

/-- `MaxChannels`. -/
def maxChannels : ℕ := 16

/-- The toggles of a WebSocket client. -/
structure Client where
  rxEnabled : UInt8 → Bool
  txEnabled : UInt8 → Bool

/-- `Client.IsRXEnabled`. -/
def Client.isRXEnabled (c : Client) (channel : UInt8) : Bool :=
  decide (channel.toNat < maxChannels) && c.rxEnabled channel

/-- `Client.SetRX`. -/
def Client.setRX (c : Client) (channel : UInt8) (on : Bool) : Client :=
  if maxChannels ≤ channel.toNat then c
  else { c with rxEnabled := Function.update c.rxEnabled channel on }

/-- `Client.SetTX`. -/
def Client.setTX (c : Client) (channel : UInt8) (on : Bool) : Client :=
  if maxChannels ≤ channel.toNat then c
  else { c with txEnabled := Function.update c.txEnabled channel on }

/-- `Client.SetAllRX`. -/
def Client.setAllRX (c : Client) (on : Bool) : Client := { c with rxEnabled := fun _ => on }

/-- `Client.SetAllTX`. -/
def Client.setAllTX (c : Client) (on : Bool) : Client := { c with txEnabled := fun _ => on }

variable {ClientId : Type} [DecidableEq ClientId]

/-- The clients of the hub, and whether the bridge holds an audio stream to
the daemon. -/
structure State (ClientId : Type) where
  ids : List ClientId
  client : ClientId → Client
  txStream : Bool

/-- What handling a message does outside the bridge. -/
inductive Effect (ClientId : Type) where
  /-- The `StreamAudioTx` call is opened. -/
  | openTX
  | sendTX (opusData : List UInt8)
  /-- The stream is closed, and what it has sent is read. -/
  | closeTX
  | relay (receiver : ClientId) (frame : List UInt8)
  | setSendTalkGroup (talkgroup : ℕ) (enabled : Bool)
  | setReceiveTalkGroup (talkgroup : ℕ) (enabled : Bool)
  | sendPTTEvent (event : ℤ)
deriving DecidableEq

/-- A client's toggles change. -/
def State.edit (s : State ClientId) (id : ClientId) (f : Client → Client) : State ClientId :=
  { s with client := Function.update s.client id (f (s.client id)) }

/-- `getOrOpenTXStream`. -/
def State.getOrOpenTXStream (s : State ClientId) : State ClientId × List (Effect ClientId) :=
  if s.txStream then (s, []) else ({ s with txStream := true }, [.openTX])

/-- `closeTXStream`. -/
def State.closeTXStream (s : State ClientId) : State ClientId × List (Effect ClientId) :=
  if s.txStream then ({ s with txStream := false }, [.closeTX]) else (s, [])

/-- `Hub.RelayToOthers`. -/
def State.relayToOthers (s : State ClientId) (sender : ClientId) (frame : List UInt8) :
    List (Effect ClientId) :=
  (s.ids.filter fun id => id != sender && (s.client id).isRXEnabled (frame.getD 1 0)).map
    (.relay · frame)

/-- `handleAudioTX`. -/
def State.handleAudioTX (s : State ClientId) (id : ClientId) (data : List UInt8) :
    State ClientId × List (Effect ClientId) :=
  match extractAudioTXPayload data with
  | none => (s, [])
  | some opusData =>
      let (s, opened) := s.getOrOpenTXStream
      (s, opened ++ [.sendTX opusData] ++ s.relayToOthers id (encodeAudioRX 0 opusData))

/-- `handleTXToggle`. -/
def State.handleTXToggle (s : State ClientId) (id : ClientId) (data : List UInt8) :
    State ClientId × List (Effect ClientId) :=
  match decodeToggle data with
  | none => (s, [])
  | some toggle => (s.edit id (·.setTX toggle.channel toggle.on),
      [.setSendTalkGroup toggle.channel.toNat toggle.on])

/-- `handleRXToggle`. -/
def State.handleRXToggle (s : State ClientId) (id : ClientId) (data : List UInt8) :
    State ClientId × List (Effect ClientId) :=
  match decodeToggle data with
  | none => (s, [])
  | some toggle => (s.edit id (·.setRX toggle.channel toggle.on),
      [.setReceiveTalkGroup toggle.channel.toNat toggle.on])

/-- `HandleMessage`. -/
def State.handleMessage (s : State ClientId) (message : ClientId × List UInt8) :
    State ClientId × List (Effect ClientId) :=
  match message with
  | (_, []) => (s, [])
  | (id, opcode :: rest) =>
      let data := opcode :: rest
      if opcode = opcodeAudioTX then s.handleAudioTX id data
      else if opcode = opcodeTXToggle then s.handleTXToggle id data
      else if opcode = opcodeRXToggle then s.handleRXToggle id data
      else if opcode = opcodeRXAllOn then (s.edit id (·.setAllRX true), [])
      else if opcode = opcodeRXAllOff then (s.edit id (·.setAllRX false), [])
      else if opcode = opcodeTXAllOn then (s.edit id (·.setAllTX true), [])
      else if opcode = opcodeTXAllOff then (s.edit id (·.setAllTX false), [])
      else if opcode = opcodePTTDown then (s, [.sendPTTEvent 1])
      else if opcode = opcodePTTUp then
        -- the stream is closed first, so that the daemon has every frame
        let (s, closed) := s.closeTXStream
        (s, closed ++ [.sendPTTEvent 0])
      else (s, [])

/-! ## The daemon -/

/-- `control.PTTEvent`. -/
inductive PTTEvent where
  | down
  | up
  | toggle
deriving DecidableEq

/-- `CommsService.SendPTTEvent`: the event pushed to the web source, which
may not be active. -/
def Daemon.sendPTTEvent (active : Bool) (event : ℤ) : Except String PTTEvent :=
  if active then
    match event with
    | 0 => .ok .down
    | 1 => .ok .up
    | 2 => .ok .toggle
    | _ => .error "invalid PTT event type"
  else .error "web control source not active"

/-- What an effect of the bridge pushes to the daemon's web source, while
that is active. -/
def Effect.pushes : Effect ClientId → Option PTTEvent
  | .sendPTTEvent event => (Daemon.sendPTTEvent true event).toOption
  | _ => none

/-- The event an effect sends to the daemon, as the number it is sent as. -/
def Effect.event : Effect ClientId → Option ℤ
  | .sendPTTEvent event => some event
  | _ => none

/-- The events a sequence of messages pushes. -/
def pushed (s : State ClientId) (messages : List (ClientId × List UInt8)) : List PTTEvent :=
  (trace State.handleMessage s messages).flatMap fun e => e.2.2.filterMap Effect.pushes

/-- Whether the run loop has been asked to transmit, after these events. -/
def transmits (events : List PTTEvent) : Bool :=
  events.foldl (fun on event => match event with
    | .down => true
    | .up => false
    | .toggle => !on) false

/-! ## Presses and releases -/

omit [DecidableEq ClientId] in
/-- The press or release a message is. -/
def pttOf (message : ClientId × List UInt8) : Option PTTEvent :=
  if message.2.head? = some opcodePTTDown then some .down
  else if message.2.head? = some opcodePTTUp then some .up
  else none

/-- The presses and releases among the messages. -/
def presses (messages : List (ClientId × List UInt8)) : List PTTEvent := messages.filterMap pttOf

/-- What the daemon is asked is what the browsers ask: the same presses and
releases, and after each prefix the same wish to transmit. -/
def Agrees (s : State ClientId) (messages : List (ClientId × List UInt8)) : Prop :=
  pushed s messages = presses messages ∧
    ∀ n, transmits (pushed s (messages.take n)) = transmits (presses (messages.take n))

/-- The other of press and release. -/
def PTTEvent.swapped : PTTEvent → PTTEvent
  | .down => .up
  | .up => .down
  | .toggle => .toggle

/-- The number the bridge sends a press or a release as. -/
def PTTEvent.sentAs : PTTEvent → ℤ
  | .down => 1
  | .up => 0
  | .toggle => 2

theorem relayToOthers_events (s : State ClientId) (sender : ClientId) (frame : List UInt8) :
    (s.relayToOthers sender frame).filterMap Effect.event = [] := by
  rw [State.relayToOthers, List.filterMap_map, List.filterMap_eq_nil_iff]
  intro id _
  rfl

theorem handleAudioTX_events (s : State ClientId) (id : ClientId) (data : List UInt8) :
    (s.handleAudioTX id data).2.filterMap Effect.event = [] := by
  unfold State.handleAudioTX State.getOrOpenTXStream
  cases extractAudioTXPayload data with
  | none => rfl
  | some opusData =>
      dsimp only
      rw [List.filterMap_append, List.filterMap_append, relayToOthers_events]
      cases s.txStream <;> rfl

theorem handleTXToggle_events (s : State ClientId) (id : ClientId) (data : List UInt8) :
    (s.handleTXToggle id data).2.filterMap Effect.event = [] := by
  unfold State.handleTXToggle
  cases decodeToggle data with
  | none => rfl
  | some toggle => rfl

theorem handleRXToggle_events (s : State ClientId) (id : ClientId) (data : List UInt8) :
    (s.handleRXToggle id data).2.filterMap Effect.event = [] := by
  unfold State.handleRXToggle
  cases decodeToggle data with
  | none => rfl
  | some toggle => rfl

omit [DecidableEq ClientId] in
/-- Closing the stream sends no event. -/
theorem closeTXStream_events (s : State ClientId) :
    (s.closeTXStream.2 ++ [Effect.sendPTTEvent 0]).filterMap Effect.event = [0] := by
  unfold State.closeTXStream
  cases s.txStream <;> rfl

/-- **What a message sends**: a press or a release one event, and any other
message none. -/
theorem handleMessage_events (s : State ClientId) (message : ClientId × List UInt8) :
    (s.handleMessage message).2.filterMap Effect.event =
      ((pttOf message).map PTTEvent.sentAs).toList := by
  obtain ⟨id, data⟩ := message
  cases data with
  | nil => rfl
  | cons opcode rest =>
      simp only [State.handleMessage]
      by_cases hdown : opcode = opcodePTTDown
      · subst hdown
        iterate 7 rw [if_neg (by decide)]
        rw [if_pos rfl]
        rfl
      by_cases hup : opcode = opcodePTTUp
      · subst hup
        iterate 8 rw [if_neg (by decide)]
        rw [if_pos rfl]
        exact closeTXStream_events s
      have hother : pttOf (id, opcode :: rest) = none := by simp [pttOf, hdown, hup]
      rw [hother, if_neg hdown, if_neg hup]
      split
      · exact handleAudioTX_events s id _
      split
      · exact handleTXToggle_events s id _
      split
      · exact handleRXToggle_events s id _
      -- the four switches and the unknown opcodes call nobody
      repeat (split; · rfl)
      rfl

omit [DecidableEq ClientId] in
/-- What is pushed is what is sent, as the daemon reads it. -/
theorem Effect.pushes_eq (effect : Effect ClientId) :
    effect.pushes = effect.event.bind fun event => (Daemon.sendPTTEvent true event).toOption := by
  cases effect <;> rfl

/-- **What a message pushes is the opposite of what it is.** -/
theorem handleMessage_pushes (s : State ClientId) (message : ClientId × List UInt8) :
    (s.handleMessage message).2.filterMap Effect.pushes =
      ((pttOf message).map PTTEvent.swapped).toList := by
  have hread : Effect.pushes = fun effect : Effect ClientId =>
      effect.event.bind fun event => (Daemon.sendPTTEvent true event).toOption :=
    funext Effect.pushes_eq
  rw [hread, ← List.filterMap_filterMap, handleMessage_events]
  cases pttOf message with
  | none => rfl
  | some event => cases event <;> rfl

theorem pushed_cons (s : State ClientId) (message : ClientId × List UInt8)
    (messages : List (ClientId × List UInt8)) :
    pushed s (message :: messages) =
      ((pttOf message).map PTTEvent.swapped).toList ++ pushed (s.handleMessage message).1 messages := by
  rw [pushed, trace_cons, List.flatMap_cons, handleMessage_pushes]
  rfl

/-- **A run pushes every press as a release, and every release as a press.** -/
theorem pushed_eq (s : State ClientId) (messages : List (ClientId × List UInt8)) :
    pushed s messages = (presses messages).map PTTEvent.swapped := by
  induction messages generalizing s with
  | nil => rfl
  | cons message messages ih =>
      rw [pushed_cons, ih, presses, presses, List.filterMap_cons]
      cases pttOf message with
      | none => rfl
      | some event => rfl

omit [DecidableEq ClientId] in
/-- A message is a press or a release or neither. -/
theorem pttOf_ne_toggle (message : ClientId × List UInt8) : pttOf message ≠ some .toggle := by
  unfold pttOf
  split
  · simp
  · split <;> simp

omit [DecidableEq ClientId] in
theorem swapped_presses_eq_iff {messages : List (ClientId × List UInt8)} :
    (presses messages).map PTTEvent.swapped = presses messages ↔ presses messages = [] := by
  constructor
  · intro h
    cases hpresses : presses messages with
    | nil => rfl
    | cons event events =>
        rw [hpresses, List.map_cons, List.cons.injEq] at h
        have hmem : event ∈ presses messages := by rw [hpresses]; exact List.mem_cons_self
        obtain ⟨message, -, hevent⟩ := List.mem_filterMap.1 hmem
        have hne := pttOf_ne_toggle message
        rw [hevent] at hne
        cases event with
        | down => cases h.1
        | up => cases h.1
        | toggle => exact absurd rfl hne
  · intro h
    rw [h]
    rfl

/-- **The daemon is asked what the browsers ask** exactly in the runs without
a press or a release. -/
theorem agrees_iff (s : State ClientId) (messages : List (ClientId × List UInt8)) :
    Agrees s messages ↔ ∀ message ∈ messages, pttOf message = none := by
  constructor
  · rintro ⟨hevents, -⟩
    rw [pushed_eq] at hevents
    exact List.filterMap_eq_nil_iff.1 (swapped_presses_eq_iff.1 hevents)
  · intro hnone
    have hempty : ∀ n, presses (messages.take n) = [] := fun n =>
      List.filterMap_eq_nil_iff.2 fun message hmem => hnone message (List.mem_of_mem_take hmem)
    refine ⟨?_, fun n => ?_⟩
    · rw [pushed_eq, swapped_presses_eq_iff]
      exact List.filterMap_eq_nil_iff.2 hnone
    · rw [pushed_eq, hempty]
      rfl

/-- One press: the daemon is told to stop. -/
theorem press_pushed_as_release :
    ¬ ∀ (s : State ℕ) (messages : List (ℕ × List UInt8)), Agrees s messages := by
  intro h
  have hpress := (h ⟨[0], fun _ => ⟨fun _ => false, fun _ => false⟩, false⟩
    [(0, [opcodePTTDown])]).1
  have hrelease : pushed (⟨[0], fun _ => ⟨fun _ => false, fun _ => false⟩, false⟩ : State ℕ)
      [(0, [opcodePTTDown])] = [.up] := by decide
  rw [hrelease] at hpress
  exact absurd hpress (by decide)

end Bridge

end OpenManet
