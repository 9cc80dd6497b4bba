import OpenManet.Lib.Machine
import OpenManet.Lib.Text
import Mathlib.Logic.Function.Basic
import Mathlib.Data.List.Perm.Basic
/-!
# Beyond line of sight — the manager, its worker and the event streams

`internal/blos` and the handlers of `handlers/blos.go`. `BLOSManager` holds
one mutex through every enabling and disabling, the waiting included; the
status worker of the instance in charge is a goroutine of its own, which lives
until its context is done; a `StreamBLOSEvents` handler listens to that worker
through a channel of 64 events and, where the channel is full, tells the
manager of the drop, under the mutex.

The context of a worker is derived from the one its starter was given: a
request's for `UpdateBLOSConfig`, the background one for the boot and for the
rollback of a failed disabling. A request's context may be cancelled at any
time. What lies outside is what the actions bring with them: the results of
`ensureTailscaleService`, `waitForTailscaleDaemon` and the others that reach
Tailscale, the events that two statuses differ by, the order in which a map of
listeners is read.
-/

namespace OpenManet

namespace Blos

/-- `blosEventChanSize`. -/
def blosEventChanSize : ℕ := 64

/-- The context a call is given. -/
inductive Context where
  | background
  | request (id : ℕ)
deriving DecidableEq

/-! ## Enabling -/

/-- What one enabling gets from outside. -/
structure Attempt where
  /-- `ensureTailscaleService`. -/
  service : Except String Unit
  /-- `waitForTailscaleDaemon`. -/
  daemon : Except String Unit
  authenticate : Except String Unit
  /-- `waitForTailscaleReady`. -/
  ready : Except String Unit
  /-- `createFn`: whether there is an instance. -/
  create : Except String Bool
  /-- `PersistBLOSConfig`. -/
  persist : Except String Unit
  /-- `configureInterfaces`. -/
  configureInterfaces : Except String Unit

namespace Attempt

/-- `fmt.Errorf` with a caption and the cause. -/
def wrap (caption : String) (r : Except String Unit) : Except String Unit :=
  r.mapError fun cause => caption ++ ": " ++ cause

/-- `createFn` and the test that follows it. -/
def created (o : Attempt) : Except String Unit := do
  unless ← o.create do
    throw "BLOS requires gateway mode; configure the node as a mesh gateway first"

/-- `Enable`, past its `running` test. -/
def enable (o : Attempt) : Except String Unit := do
  o.created
  o.configureInterfaces

/-- `ConfigureAndEnable`, past its `running` test. -/
def configureAndEnable (o : Attempt) : Except String Unit := do
  wrap "tailscale service setup failed" o.service
  wrap "tailscale daemon not available" o.daemon
  wrap "tailscale authentication failed" o.authenticate
  wrap "tailscale not ready after authentication" o.ready
  o.created
  wrap "failed to persist BLOS config" o.persist
  o.configureInterfaces

/-- What either of them comes to. -/
def outcome (o : Attempt) (configure : Bool) : Except String Unit :=
  if configure then o.configureAndEnable else o.enable

end Attempt

/-! ## Where everybody stands -/

/-- Where a caller of the manager stands. -/
inductive Caller where
  | idle
  /-- At the lock of `Enable`, or of `ConfigureAndEnable`. -/
  | enable (configure : Bool) (ctx : Context)
  /-- Under the lock, past the `running` test. -/
  | enabling (configure : Bool) (ctx : Context)
  /-- At the lock of `Disable`, called by `disableBLOS` or not. -/
  | disable (update : Bool)
  /-- Under the lock, at the `wg.Wait` of `StatusWorker.Stop`. -/
  | stopping (update : Bool)
  /-- `disableBLOS`, at its `PersistBLOSConfig`. -/
  | persisting
deriving DecidableEq

/-- The caller has the manager's mutex. -/
def Caller.locks : Caller → Bool
  | .enabling _ _ | .stopping _ => true
  | _ => false

variable {Thread Stream Event : Type}

/-- Where `StatusWorker.run` stands. -/
inductive Goroutine (Stream Event : Type) where
  /-- In `client.Status`. -/
  | fetching
  /-- In `fireEvent`, of a keepalive or of the status, with the calls still to
  make. -/
  | firing (keepalive : Bool) (pending : List (Stream × Event))
  /-- In a listener, at the lock of `NoteEventDropped`. -/
  | noting (keepalive : Bool) (pending : List (Stream × Event))
  /-- In `onStatusUpdate`. -/
  | callback
  /-- At the `select`. -/
  | selecting
  | exited

/-- It waits for the manager's mutex. -/
def Goroutine.waits : Goroutine Stream Event → Bool
  | .noting _ _ => true
  | _ => false

/-- The status worker of one instance. -/
structure StatusWorker (Stream Event : Type) where
  /-- The parent of the worker's context. -/
  ctx : Context
  running : Bool
  /-- `cancel` has been called. -/
  cancelled : Bool
  nextListenerID : ℕ
  listeners : List (ℕ × Stream)
  eventsDropped : ℕ
  run : Goroutine Stream Event

/-- Where a `StreamBLOSEvents` handler stands. -/
inductive Handler where
  | absent
  /-- Past `IsRunning`, at the lock of `AddEventListener`. -/
  | opening
  /-- It has the worker of an instance, and adds its listener. -/
  | adding (i : ℕ)
  | streaming (id : ℕ)
  /-- At the lock of `RemoveEventListener`. -/
  | leaving (id : ℕ)
  | removing (i id : ℕ)
  | gone
deriving DecidableEq

/-- The manager, the workers of all its instances, and those who call it. -/
structure State (Thread Stream Event : Type) where
  /-- Who has the manager's mutex for more than one step. -/
  mu : Option Thread
  blos : Option ℕ
  running : Bool
  /-- How many instances have been started. -/
  made : ℕ
  worker : ℕ → StatusWorker Stream Event
  /-- The requests whose context is cancelled. -/
  cancelled : ℕ → Bool
  caller : Thread → Caller
  handler : Stream → Handler
  /-- The channels of the handlers. -/
  ch : Stream → List Event

/-! ## The steps -/

/-- The steps of a caller of the manager. -/
inductive Call where
  | enable (ctx : Context)
  | disable
  | updateBLOSConfig (request : ℕ) (enableBlos : Bool) (authKey : List Char)
  /-- It gets the mutex. -/
  | lock
  /-- The enabling is done, or has failed. -/
  | attempt (o : Attempt)
  /-- `wg.Wait` returns. -/
  | stopped
  /-- `PersistBLOSConfig` returns. -/
  | persisted (ok : Bool)

/-- The steps of a worker. -/
inductive Tick (Stream Event : Type) where
  /-- `client.Status` fails. -/
  | failed
  /-- It brings a status with these events; the listeners are taken in this
  order. -/
  | fetched (events : List Event) (listeners : List Stream)
  /-- The next listener is called. -/
  | fire
  /-- `NoteEventDropped` gets the mutex. -/
  | note
  /-- The events are out, and a keepalive is due. -/
  | keepalive (event : Event) (listeners : List Stream)
  /-- All is out. -/
  | fired
  | synced
  /-- The ticker fires. -/
  | tick
  /-- The context is found done. -/
  | done

/-- The steps of a `StreamBLOSEvents` handler. -/
inductive Serve where
  | stream
  | look
  | add
  | send
  /-- Its context is done, or `stream.Send` failed. -/
  | leave
  | removeFrom
  | remove

/-- The steps of all of them. -/
inductive Action (Thread Stream Event : Type) where
  | call (t : Thread) (c : Call)
  | cancel (request : ℕ)
  | worker (i : ℕ) (w : Tick Stream Event)
  | serve (l : Stream) (r : Serve)
  /-- `IsRunning`, `Status`, `RateWindow` and the others that only read under
  the mutex. -/
  | read

namespace State

/-- The context is done. -/
def ctxDone (s : State Thread Stream Event) : Context → Bool
  | .background => false
  | .request r => s.cancelled r

/-- The context of the worker is done. -/
def workerDone (s : State Thread Stream Event) (i : ℕ) : Bool :=
  (s.worker i).cancelled || s.ctxDone (s.worker i).ctx

/-- What `IsRunning` answers, where it need not wait. -/
def isRunning (s : State Thread Stream Event) : Option Bool :=
  if s.mu.isNone then some s.running else none

/-- The worker is at a new place. -/
def goTo (s : State Thread Stream Event) (i : ℕ) (run : Goroutine Stream Event) :
    State Thread Stream Event :=
  { s with worker := Function.update s.worker i { s.worker i with run } }

section Threads

variable [DecidableEq Thread] (s : State Thread Stream Event) (t : Thread)

/-- The caller is at a new place. -/
def stands (c : Caller) : State Thread Stream Event :=
  { s with caller := Function.update s.caller t c }

/-- An instance has been started: it is the one in charge, and its worker's
goroutine begins. -/
def install (ctx : Context) : State Thread Stream Event :=
  { s with
    mu := none
    blos := some s.made
    running := true
    made := s.made + 1
    worker := Function.update s.worker s.made ⟨ctx, true, false, 0, [], 0, .fetching⟩
    caller := Function.update s.caller t .idle }

/-- `StatusWorker.Stop`, up to its `wg.Wait`. -/
def stop (i : ℕ) (update : Bool) : State Thread Stream Event :=
  { s with
    mu := some t
    worker := Function.update s.worker i { s.worker i with running := false, cancelled := true }
    caller := Function.update s.caller t (.stopping update) }

/-- `Disable` returns. -/
def disabled (update : Bool) : State Thread Stream Event :=
  { s with
    mu := none
    blos := none
    running := false
    caller := Function.update s.caller t (if update then .persisting else .idle) }

/-- A step of a caller. -/
def callStep : Call → Option (State Thread Stream Event)
  | .enable ctx => if s.caller t = .idle then some (s.stands t (.enable false ctx)) else none
  | .disable => if s.caller t = .idle then some (s.stands t (.disable false)) else none
  | .updateBLOSConfig request enableBlos authKey =>
      if s.caller t = .idle then
        if enableBlos then
          if Text.trimSpace authKey = [] then some s
          else some (s.stands t (.enable true (.request request)))
        else some (s.stands t (.disable true))
      else none
  | .lock =>
      if s.mu.isSome then none
      else
        match s.caller t with
        | .enable configure ctx =>
            if s.running then some (s.stands t .idle)
            else some { s.stands t (.enabling configure ctx) with mu := some t }
        | .disable update =>
            if s.running then
              -- a manager that runs without an instance would panic here
              s.blos.map fun i =>
                if (s.worker i).running then s.stop t i update else s.disabled t update
            else some (s.stands t (if update then .persisting else .idle))
        | _ => none
  | .attempt o =>
      match s.caller t with
      | .enabling configure ctx =>
          match o.outcome configure with
          | .ok _ => some (s.install t ctx)
          | .error _ => some { s.stands t .idle with mu := none }
      | _ => none
  | .stopped =>
      match s.caller t, s.blos with
      | .stopping update, some i =>
          match (s.worker i).run with
          | .exited => some (s.disabled t update)
          | _ => none
      | _, _ => none
  | .persisted ok =>
      if s.caller t = .persisting then
        some (s.stands t (if ok then .idle else .enable false .background))
      else none

end Threads

section Streams

variable [DecidableEq Stream] (s : State Thread Stream Event)

/-- `fireEvent` of several events, to the listeners in their order. -/
def calls (events : List Event) (listeners : List Stream) : List (Stream × Event) :=
  events.flatMap fun event => listeners.map fun l => (l, event)

/-- The order is one a read of the worker's listeners can have. -/
def listed (i : ℕ) (listeners : List Stream) : Prop :=
  listeners.Perm ((s.worker i).listeners.map Prod.snd)

instance (i : ℕ) (listeners : List Stream) : Decidable (s.listed i listeners) :=
  inferInstanceAs (Decidable (List.Perm _ _))

/-- `NoteEventDropped`, under the lock: the instance in charge counts the
drop. -/
def noteEventDropped : State Thread Stream Event :=
  match s.blos with
  | none => s
  | some i =>
      { s with
        worker := Function.update s.worker i
          { s.worker i with eventsDropped := (s.worker i).eventsDropped + 1 } }

/-- A step of a worker. -/
def workerStep (i : ℕ) : Tick Stream Event → Option (State Thread Stream Event)
  | .failed =>
      match (s.worker i).run with
      | .fetching => some (s.goTo i .selecting)
      | _ => none
  | .fetched events listeners =>
      match (s.worker i).run with
      | .fetching =>
          if s.listed i listeners then some (s.goTo i (.firing false (calls events listeners)))
          else none
      | _ => none
  | .fire =>
      match (s.worker i).run with
      | .firing keepalive ((l, event) :: pending) =>
          if (s.ch l).length < blosEventChanSize then
            some { s.goTo i (.firing keepalive pending) with
                   ch := Function.update s.ch l (s.ch l ++ [event]) }
          else some (s.goTo i (.noting keepalive pending))
      | _ => none
  | .note =>
      match (s.worker i).run, s.mu with
      | .noting keepalive pending, none =>
          some (s.noteEventDropped.goTo i (.firing keepalive pending))
      | _, _ => none
  | .keepalive event listeners =>
      match (s.worker i).run with
      | .firing false [] =>
          if s.listed i listeners then some (s.goTo i (.firing true (calls [event] listeners)))
          else none
      | _ => none
  | .fired =>
      match (s.worker i).run with
      | .firing _ [] => some (s.goTo i .callback)
      | _ => none
  | .synced =>
      match (s.worker i).run with
      | .callback => some (s.goTo i .selecting)
      | _ => none
  | .tick =>
      match (s.worker i).run with
      | .selecting => some (s.goTo i .fetching)
      | _ => none
  | .done =>
      match (s.worker i).run with
      | .selecting => if s.workerDone i then some (s.goTo i .exited) else none
      | _ => none

/-- The handler is at a new place. -/
def serving (l : Stream) (h : Handler) : State Thread Stream Event :=
  { s with handler := Function.update s.handler l h }

/-- `StatusWorker.AddEventListener`. -/
def addEventListener (i : ℕ) (l : Stream) : State Thread Stream Event :=
  let w := s.worker i
  { s with
    worker := Function.update s.worker i
      { w with nextListenerID := w.nextListenerID + 1
               listeners := (w.nextListenerID + 1, l) :: w.listeners } }

/-- `StatusWorker.RemoveEventListener`. -/
def removeEventListener (i id : ℕ) : State Thread Stream Event :=
  let w := s.worker i
  { s with
    worker := Function.update s.worker i
      { w with listeners := w.listeners.filter fun e => e.1 ≠ id } }

/-- A step of a handler. -/
def serveStep (l : Stream) : Serve → Option (State Thread Stream Event)
  | .stream =>
      if s.handler l = .absent ∧ s.mu.isNone then
        some (s.serving l (if s.running then .opening else .gone))
      else none
  | .look =>
      if s.handler l = .opening ∧ s.mu.isNone then
        some (s.serving l (match s.blos with | some i => .adding i | none => .gone))
      else none
  | .add =>
      match s.handler l with
      | .adding i =>
          some ((s.addEventListener i l).serving l
            (.streaming ((s.worker i).nextListenerID + 1)))
      | _ => none
  | .send =>
      match s.handler l, s.ch l with
      | .streaming _, _ :: rest => some { s with ch := Function.update s.ch l rest }
      | _, _ => none
  | .leave =>
      match s.handler l with
      | .streaming id => some (s.serving l (.leaving id))
      | _ => none
  | .removeFrom =>
      match s.handler l with
      | .leaving id =>
          if s.mu.isNone then
            some (s.serving l (match s.blos with | some i => .removing i id | none => .gone))
          else none
      | _ => none
  | .remove =>
      match s.handler l with
      | .removing i id => some ((s.removeEventListener i id).serving l .gone)
      | _ => none

end Streams

end State

variable [DecidableEq Thread] [DecidableEq Stream]

/-- The machine. -/
def step (s : State Thread Stream Event) : Action Thread Stream Event →
    Option (State Thread Stream Event)
  | .call t c => s.callStep t c
  | .cancel request => some { s with cancelled := Function.update s.cancelled request true }
  | .worker i w => s.workerStep i w
  | .serve l r => s.serveStep l r
  | .read => if s.mu.isNone then some s else none

/-- `NewBLOSManager`, before anybody has called it. -/
def newBLOSManager : State Thread Stream Event where
  mu := none
  blos := none
  running := false
  made := 0
  worker := fun _ => ⟨.background, false, false, 0, [], 0, .exited⟩
  cancelled := fun _ => false
  caller := fun _ => .idle
  handler := fun _ => .absent
  ch := fun _ => []

end Blos

end OpenManet
