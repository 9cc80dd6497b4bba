import OpenManet.Lib.Machine
import Mathlib.Logic.Function.Basic
/-!
# Half duplex — the busy flag and its writers

A station must not talk while it hears someone. Each port keeps the time of
its last remote packet in a gate; the transmit path does not walk the gates
but reads one flag, `RemoteRxActive`, that three parties keep without a
lock: the receive loops set it as packets arrive, the decay loop clears it
on a ticker, and the talk-group toggles change which ports count.

Every atomic load and store is a step of its own here, and so is the moment
a gate's window runs out. A schedule is a list of actions; an action whose
thread is not at that point has no successor.
-/

namespace OpenManet

namespace HalfDuplex

variable {Port Loop : Type} [DecidableEq Port] [DecidableEq Loop]

/-- Where a receive loop stands in `MarkRemoteRx`. -/
inductive Marking where
  /-- Not in a call. -/
  | idle
  /-- The gate is stamped; `SendEnabled` is read next. -/
  | stamped
  /-- The port was send-enabled; the flag is stored next. -/
  | priming
deriving DecidableEq

/-- Where the decay loop stands in its pass over the ports. -/
inductive Decay (Port : Type) where
  /-- Between two ticks. -/
  | idle
  /-- The ports already found quiet or muted, and those still to read. With
  none left, the flag is cleared next. -/
  | walk (passed rest : List Port)
  /-- The next port was send-enabled; its gate is read next. -/
  | probe (passed : List Port) (p : Port) (rest : List Port)
deriving DecidableEq

/-- The ports a pass has left behind. -/
def Decay.passed : Decay Port → List Port
  | .idle => []
  | .walk passed _ => passed
  | .probe passed _ _ => passed

/-- Where the transmit path stands in `beginTransmission` or
`endTransmission`. -/
inductive Transmit where
  | idle
  /-- `Broadcasting` was false; the busy check comes next. -/
  | checking
  /-- The busy check passed; `Broadcasting` is set next. The flag records
  whether some port was blocking at the check. -/
  | cleared (blocked : Bool)
  /-- `Broadcasting` is set; the capture gate is opened next. -/
  | settling
  /-- `Broadcasting` was true; the capture gate is closed next. -/
  | ending
  /-- The capture gate is closed; `Broadcasting` is cleared next. -/
  | stopping
deriving DecidableEq

/-- What the threads share, and where each of them stands. -/
structure State (Port Loop : Type) where
  /-- `PortChannel.SendEnabled`. -/
  sendEnabled : Port → Bool
  /-- `PortChannel.RxGate.Active`. -/
  rxActive : Port → Bool
  /-- A `MarkRemoteRx` call of the gate's current window has returned. -/
  returned : Port → Bool
  /-- `CommsRuntime.RemoteRxActive`. -/
  remoteRxActive : Bool
  /-- `CommsRuntime.Broadcasting`. -/
  broadcasting : Bool
  /-- The gate inside the capture stream. -/
  txEnabled : Bool
  loops : Loop → Marking
  decay : Decay Port
  tx : Transmit

/-- The schedule's choices. -/
inductive Action (Port Loop : Type) where
  /-- `beginTransmission` is called. -/
  | down
  /-- `endTransmission` is called. -/
  | up
  /-- The transmit path goes on; the capture stream may be absent. -/
  | tx (stream : Bool)
  /-- A receive loop takes its next step in `MarkRemoteRx`. -/
  | mark (l : Loop)
  /-- `setSend`: one atomic swap. -/
  | setSend (p : Port) (enabled : Bool)
  /-- The decay loop takes its next step. -/
  | decay
  /-- A gate's window runs out. -/
  | expire (p : Port)
deriving DecidableEq

variable (ports : List Port) (web : Bool) (port : Loop → Port)

/-- The port is send-enabled, and its gate is active from a call that has
returned. -/
def blocking (s : State Port Loop) (p : Port) : Bool :=
  s.sendEnabled p && s.rxActive p && s.returned p

/-- The transmit path, one load or store at a time. -/
def stepTx (s : State Port Loop) (stream : Bool) : Option (State Port Loop) :=
  match s.tx with
  | .idle => none
  | .checking =>
      -- `isReceivingRemote` is one load of the cached flag
      if s.remoteRxActive then some { s with tx := .idle }
      else some { s with tx := .cleared (ports.any (blocking s)) }
  | .cleared _ => some { s with broadcasting := true, tx := if web then .idle else .settling }
  | .settling =>
      if stream then some { s with txEnabled := true, tx := .idle }
      else some { s with broadcasting := false, tx := .idle }
  | .ending => some { s with txEnabled := if stream then false else s.txEnabled, tx := .stopping }
  | .stopping => some { s with broadcasting := false, tx := .idle }

/-- `MarkRemoteRx`, one load or store at a time. -/
def stepMark (s : State Port Loop) (l : Loop) : State Port Loop :=
  let p := port l
  match s.loops l with
  | .idle =>
      { s with rxActive := Function.update s.rxActive p true
               loops := Function.update s.loops l .stamped }
  | .stamped =>
      if s.sendEnabled p then { s with loops := Function.update s.loops l .priming }
      else
        { s with returned := Function.update s.returned p (s.rxActive p)
                 loops := Function.update s.loops l .idle }
  | .priming =>
      { s with remoteRxActive := true
               returned := Function.update s.returned p (s.rxActive p)
               loops := Function.update s.loops l .idle }

/-- One pass of `halfDuplexDecayLoop`, one load or store at a time. -/
def stepDecay (s : State Port Loop) : State Port Loop :=
  match s.decay with
  | .idle => { s with decay := .walk [] ports }
  | .walk passed (p :: rest) =>
      if s.sendEnabled p then { s with decay := .probe passed p rest }
      else { s with decay := .walk (passed ++ [p]) rest }
  | .walk _ [] => { s with remoteRxActive := false, decay := .idle }
  | .probe passed p rest =>
      -- an active gate ends the pass: the flag is left alone
      if s.rxActive p then { s with decay := .idle }
      else { s with decay := .walk (passed ++ [p]) rest }

/-- One action of a schedule. -/
def step (s : State Port Loop) : Action Port Loop → Option (State Port Loop)
  | .down =>
      match s.tx with
      | .idle => some { s with tx := if s.broadcasting then .idle else .checking }
      | _ => none
  | .up =>
      match s.tx with
      | .idle =>
          -- web mode has no capture gate to close
          some { s with tx := if s.broadcasting then (if web then .stopping else .ending) else .idle }
      | _ => none
  | .tx stream => stepTx ports web s stream
  | .mark l => some (stepMark port s l)
  | .setSend p enabled =>
      some { s with sendEnabled := Function.update s.sendEnabled p enabled }
  | .decay => some (stepDecay ports s)
  | .expire p =>
      some { s with rxActive := Function.update s.rxActive p false
                    returned := Function.update s.returned p false }

/-- The runtime as it is built: every gate quiet, nobody talking. Which
ports are send-enabled is the configuration's choice. -/
def fresh (sendEnabled : Port → Bool) : State Port Loop where
  sendEnabled := sendEnabled
  rxActive := fun _ => false
  returned := fun _ => false
  remoteRxActive := false
  broadcasting := false
  txEnabled := false
  loops := fun _ => .idle
  decay := .idle
  tx := .idle

/-- The action sets `Broadcasting` although a port was blocking at the busy
check. -/
def Clash (s : State Port Loop) : Action Port Loop → Prop
  | .tx _ => s.tx = .cleared true
  | _ => False

end HalfDuplex

end OpenManet
