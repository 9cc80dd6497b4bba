import OpenManet.Frontend.AudioEngine
/-!
# The browser — the Comms page

`pages/Comms.jsx`, as far as the key goes: the space bar, the PTT button
under the mouse and under fingers, and the file panel. All of them set the
same `pttActiveRef` and send the same two bytes. A release takes effect at
once, where the page is active; a press by the space bar goes on only when
`initAudio` is through, which the first caller of `initAudioOnce` waits for.

What an `await` leaves to be done is a continuation: it waits for `initAudio`
or is a microtask, and microtasks run before the next event does. React runs
the effect that copies `pttActive` to `pttActiveRef` with the value last set.
`space`, `mouse`, `touches` and `playing` say what is held down and whether a
file plays; the handlers do not read them.
-/

namespace OpenManet

namespace Comms

open AudioEngine (Callback)

/-- `MSG_TYPE.PTT_DOWN`. -/
def PTT_DOWN : UInt8 := 0x09

/-- `MSG_TYPE.PTT_UP`. -/
def PTT_UP : UInt8 := 0x0A

/-- `CHANNELS_DEF`, by `ch`. -/
def CHANNELS_DEF : List ℕ := [1, 2, 3, 4, 5]

/-- What is left of a function behind its first `await`. -/
inductive Continuation where
  /-- `handleKeyDown`: the call of `pttDown`. -/
  | handleKeyDown
  /-- `pttDown`: the call of `startMic`. -/
  | pttDown
deriving DecidableEq

/-- The page, its queues, and what the user's hands do. -/
structure State where
  /-- The WebSocket is open. -/
  wsOpen : Bool
  /-- The browser has an `AudioContext`. -/
  audioContext : Bool
  txEnabled : ℕ → Bool
  voxEnabled : Bool
  pttActive : Bool
  pttActiveRef : Bool
  audioInitRef : Bool
  spaceDownRef : Bool
  engine : AudioEngine.State
  /-- `initAudio` is under way. -/
  initializing : Bool
  /-- What waits for it. -/
  waiting : List Continuation
  /-- The microtasks. -/
  ready : List Continuation
  /-- The PTT bytes sent to the node, newest first. -/
  sent : List UInt8
  space : Bool
  mouse : Bool
  touches : ℕ
  playing : Bool

/-- What happens to the page. -/
inductive Action where
  /-- The first click or touch anywhere. -/
  | click
  /-- The space bar goes down: again by itself, or over an input. -/
  | keyDown (repeated editable : Bool)
  | keyUp
  | mouseDown
  | mouseUp
  | mouseLeave
  | touchStart
  | touchEnd
  | touchCancel
  /-- `handlePlay`. -/
  | play
  /-- `handleStop`. -/
  | stop
  /-- The effect on `pttActive`. -/
  | effect
  | microtask
  /-- `initAudio` is through, or has thrown. -/
  | initialized (ok : Bool)
  /-- A `getUserMedia` request is granted. -/
  | granted (i : ℕ)
  | denied (i : ℕ)

namespace State

variable (s : State)

/-- Some TX channel is enabled. -/
def someTx : Bool := CHANNELS_DEF.any s.txEnabled

/-- A key or a finger is down, or a file plays. -/
def held : Bool := s.space || s.mouse || s.touches != 0 || s.playing

/-- `sendByte`. -/
def sendByte (byte : UInt8) : State := if s.wsOpen then { s with sent := byte :: s.sent } else s

/-- `initAudioOnce`, and what awaits it. -/
def initAudioOnce (k : List Continuation) : State :=
  if s.audioInitRef then { s with ready := s.ready ++ k }
  else
    { s with
      audioInitRef := true
      engine := if s.audioContext then { s.engine with audioCtx := true } else s.engine
      initializing := true
      waiting := k }

/-- `setPttActive` with the write that always goes with it. -/
def setPttActive (active : Bool) : State := { s with pttActive := active, pttActiveRef := active }

/-- `pttDown`, up to its first `await`. -/
def pttDown : State :=
  if s.pttActiveRef then s
  else if !s.someTx then s
  else ((s.setPttActive true).sendByte PTT_DOWN).initAudioOnce [.pttDown]

/-- `pttUp`. -/
def pttUp : State :=
  if !s.pttActiveRef then s
  else
    { s.setPttActive false with
      engine := if s.voxEnabled then s.engine.stopMic.startMicMonitor
                else s.engine.stopMic }.sendByte PTT_UP

/-- `handleKeyDown`, for the space bar. -/
def handleKeyDown (repeated editable : Bool) : State :=
  if !repeated && !s.spaceDownRef then
    if editable then s else { s with spaceDownRef := true }.initAudioOnce [.handleKeyDown]
  else s

/-- `handleKeyUp`, for the space bar. -/
def handleKeyUp : State := { s with spaceDownRef := false }.pttUp

/-- `handleFilePttSet`. -/
def handleFilePttSet (active : Bool) : State :=
  let chunk : Option Callback := if active then some .file else none
  { s.setPttActive active with engine := { s.engine with onEncodedChunk := chunk } }.sendByte
    (if active then PTT_DOWN else PTT_UP)

/-- A continuation runs. -/
def resume : Continuation → State
  | .handleKeyDown => s.pttDown
  | .pttDown => { s with engine := s.engine.startMic }

/-- Nothing is held down, and all promises have settled. -/
structure Settled : Prop where
  letGo : s.held = false
  ready : s.ready = []
  initialized : s.initializing = false
  pending : s.engine.pending = []

end State

/-- An event that runs once the microtasks have. -/
def onEvent (s : State) (t : State) : Option State := if s.ready = [] then some t else none

/-- The machine. -/
def step (s : State) : Action → Option State
  | .click => onEvent s (s.initAudioOnce [])
  | .keyDown repeated editable =>
      onEvent s ({ s with space := true }.handleKeyDown repeated editable)
  | .keyUp => onEvent s { s with space := false }.handleKeyUp
  | .mouseDown => onEvent s { s with mouse := true }.pttDown
  -- the button has lost the mouse with `mouseLeave` as with `mouseUp`
  | .mouseUp | .mouseLeave => onEvent s { s with mouse := false }.pttUp
  | .touchStart => onEvent s { s with touches := s.touches + 1 }.pttDown
  | .touchEnd | .touchCancel => onEvent s { s with touches := s.touches - 1 }.pttUp
  | .play => if s.someTx then onEvent s ({ s with playing := true }.handleFilePttSet true) else none
  | .stop => if s.playing then onEvent s ({ s with playing := false }.handleFilePttSet false) else none
  | .effect => some { s with pttActiveRef := s.pttActive }
  | .microtask =>
      match s.ready with
      | [] => none
      | k :: rest => some ({ s with ready := rest }.resume k)
  | .initialized ok =>
      if s.initializing then
        onEvent s { s with initializing := false, waiting := [], ready := if ok then s.waiting else [] }
      else none
  | .granted i =>
      (AudioEngine.step s.engine (.granted i)).bind fun engine => onEvent s { s with engine }
  | .denied i =>
      (AudioEngine.step s.engine (.denied i)).bind fun engine => onEvent s { s with engine }

/-- The page as it is mounted, VOX off. -/
def mounted (wsOpen audioContext mediaDevices : Bool) (txEnabled : ℕ → Bool) : State where
  wsOpen := wsOpen
  audioContext := audioContext
  txEnabled := txEnabled
  voxEnabled := false
  pttActive := false
  pttActiveRef := false
  audioInitRef := false
  spaceDownRef := false
  engine := AudioEngine.loaded mediaDevices
  initializing := false
  waiting := []
  ready := []
  sent := []
  space := false
  mouse := false
  touches := 0
  playing := false

end Comms

end OpenManet
