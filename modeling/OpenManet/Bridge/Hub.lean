import OpenManet.Bridge.PushToTalk
import Mathlib.Data.Finset.Basic
/-!
# The web bridge — the hub and its clients

`internal/websocket`: one loop owns the set of clients, and everybody else
talks to it through queues. A connection queues its `Register`, runs its two
pumps, and queues its `Unregister` when the read pump is done; a client whose
send buffer is full is queued for removal by whoever found it full. Frames go
out under the read lock, to one client after another, from the loop itself
and from any number of callers of `BroadcastAudioRX` and `RelayToOthers`.

Every acquisition of the write lock is a step, and so is every client a walk
under the read lock comes to. The loop's `select` takes from any queue that
has something. A message of a client is handled in one step, by the bridge of
`PushToTalk`; the relay that may end it is a walk like any other. `lastPTT`
and `log` record what has happened, and no step reads them.
-/

namespace OpenManet

namespace Hub

open Bridge

/-- The capacity of `register` and of `unregister`. -/
def queueSize : ℕ := 16

/-- The capacity of `broadcast`. -/
def broadcastSize : ℕ := 256

/-- `sendBufferSize`. -/
def sendBufferSize : ℕ := 256

/-- Where a connection stands. -/
inductive Conn where
  | absent
  /-- In `Register`. -/
  | registering
  /-- The pumps run. -/
  | live
  /-- The read pump is past its loop, in `Unregister`. -/
  | leaving
  | gone
deriving DecidableEq

/-- Whom a frame is for. -/
inductive Audience (ClientId : Type) where
  /-- `broadcast`. -/
  | everyone
  /-- `BroadcastAudioRX`. -/
  | subscribers (channel : UInt8)
  /-- `RelayToOthers`. -/
  | others (sender : ClientId)
deriving DecidableEq

/-- A walk over the clients under the read lock. -/
structure Walk (ClientId : Type) where
  audience : Audience ClientId
  frame : List UInt8
  /-- The clients it has not come to. -/
  ahead : Finset ClientId

/-- Where `Run` stands. -/
inductive Loop (ClientId : Type) where
  /-- At its `select`. -/
  | waiting
  | walking (w : Walk ClientId)
  /-- Its context is cancelled: it closes what is left under the write
  lock. -/
  | closing
  | returned

/-- The loop holds the write lock from one step to the next. -/
def Loop.locks {ClientId : Type} : Loop ClientId → Bool
  | .closing => true
  | _ => false

/-- What happens to a client. -/
inductive Record (ClientId : Type) where
  | registered (c : ClientId)
  | unregistered (c : ClientId)
  /-- A frame is sent on its channel. -/
  | sent (c : ClientId)
  | closed (c : ClientId)
deriving DecidableEq

/-- The hub, its queues, its clients and their connections. -/
structure State (ClientId : Type) where
  clients : Finset ClientId
  register : List ClientId
  unregister : List ClientId
  broadcast : List (List UInt8)
  /-- The goroutines that wait to queue a client for removal. -/
  helpers : List ClientId
  run : Loop ClientId
  walks : List (Walk ClientId)
  send : ClientId → List (List UInt8)
  closed : ClientId → Bool
  conn : ClientId → Conn
  toggles : ClientId → Client
  /-- The bridge holds an audio stream to the daemon. -/
  txStream : Bool
  /-- The PTT events the bridge has sent to the daemon, newest first. -/
  events : List ℤ
  /-- The last press or release of each client. -/
  lastPTT : ClientId → Option PTTEvent
  /-- What has happened, newest first. -/
  log : List (Record ClientId)

/-- The steps of the hub and of those around it. -/
inductive Action (ClientId : Type) where
  /-- A WebSocket connection is accepted. -/
  | accept (c : ClientId)
  /-- Its `Register` finds room, and the pumps start. -/
  | register (c : ClientId)
  | message (c : ClientId) (data : List UInt8)
  /-- `ReadMessage` fails: the peer is done, the connection broke, or the
  write pump has closed it. -/
  | readEnd (c : ClientId)
  /-- Its `Unregister` finds room. -/
  | unregister (c : ClientId)
  /-- A helper goroutine finds room. -/
  | help (c : ClientId)
  /-- The write pump takes a frame. -/
  | write (c : ClientId)
  | broadcastRaw (frame : List UInt8)
  | takeRegister
  | takeUnregister
  | takeBroadcast
  /-- The loop's walk comes to a client. -/
  | deliver (c : ClientId)
  /-- The loop's walk is done. -/
  | delivered
  /-- The loop finds its context cancelled. -/
  | shutdown
  | close (c : ClientId)
  /-- Nothing is left to close. -/
  | closed
  | broadcastAudioRX (channel : UInt8) (frame : List UInt8)
  | relayToOthers (sender : ClientId) (frame : List UInt8)
  /-- The walk at this place comes to a client. -/
  | visit (i : ℕ) (c : ClientId)
  /-- The walk at this place is done. -/
  | visited (i : ℕ)

variable {ClientId : Type} [DecidableEq ClientId]

/-- The client is to get the frame. -/
def Walk.wants (w : Walk ClientId) (toggles : ClientId → Client) (c : ClientId) : Bool :=
  match w.audience with
  | .everyone => true
  | .subscribers channel => (toggles c).isRXEnabled channel
  | .others sender => c != sender && (toggles c).isRXEnabled (w.frame.getD 1 0)

namespace State

variable (s : State ClientId)

/-- A client whose buffer is full is queued for removal. -/
def evict (c : ClientId) : State ClientId :=
  if s.unregister.length < queueSize then { s with unregister := s.unregister ++ [c] }
  else { s with helpers := s.helpers ++ [c] }

/-- The `select` that sends a frame, or finds the buffer full. A closed
channel is always ready to be sent on, and the send panics. -/
def offer (frame : List UInt8) (c : ClientId) : State ClientId :=
  if s.closed c then { s with log := .sent c :: s.log }
  else if (s.send c).length < sendBufferSize then
    { s with send := Function.update s.send c (s.send c ++ [frame]), log := .sent c :: s.log }
  else s.evict c

/-- A walk comes to a client. -/
def come (w : Walk ClientId) (c : ClientId) : State ClientId :=
  if w.wants s.toggles c then s.offer w.frame c else s

/-- The client is taken from the set, and its channel is closed. -/
def drop (c : ClientId) : State ClientId :=
  { s with
    clients := s.clients.erase c
    closed := Function.update s.closed c true
    log := .closed c :: s.log }

/-- The bridge, as far as its messages go. -/
def bridge : Bridge.State ClientId := ⟨[], s.toggles, s.txStream⟩

/-- `Bridge.HandleMessage`. -/
def handleMessage (c : ClientId) (data : List UInt8) : State ClientId :=
  let handled := s.bridge.handleMessage (c, data)
  { s with
    toggles := handled.1.client
    txStream := handled.1.txStream
    events := handled.2.filterMap Effect.event ++ s.events
    lastPTT := Function.update s.lastPTT c ((pttOf (c, data)).or (s.lastPTT c)) }

end State

/-- The machine. -/
def step (s : State ClientId) : Action ClientId → Option (State ClientId)
  | .accept c =>
      if s.conn c = .absent then some { s with conn := Function.update s.conn c .registering }
      else none
  | .register c =>
      if s.conn c = .registering ∧ s.register.length < queueSize then
        some { s with register := s.register ++ [c], conn := Function.update s.conn c .live }
      else none
  | .message c data => if s.conn c = .live then some (s.handleMessage c data) else none
  | .readEnd c =>
      if s.conn c = .live then some { s with conn := Function.update s.conn c .leaving } else none
  | .unregister c =>
      if s.conn c = .leaving ∧ s.unregister.length < queueSize then
        some { s with unregister := s.unregister ++ [c], conn := Function.update s.conn c .gone }
      else none
  | .help c =>
      if c ∈ s.helpers ∧ s.unregister.length < queueSize then
        some { s with unregister := s.unregister ++ [c], helpers := s.helpers.erase c }
      else none
  | .write c =>
      match s.send c with
      | [] => none
      | _ :: rest => some { s with send := Function.update s.send c rest }
  | .broadcastRaw frame =>
      if s.broadcast.length < broadcastSize then
        some { s with broadcast := s.broadcast ++ [frame] }
      else none
  | .takeRegister =>
      match s.run, s.walks, s.register with
      | .waiting, [], c :: rest =>
          some { s with register := rest, clients := insert c s.clients,
                        log := .registered c :: s.log }
      | _, _, _ => none
  | .takeUnregister =>
      match s.run, s.walks, s.unregister with
      | .waiting, [], c :: rest =>
          let t := { s with unregister := rest, log := .unregistered c :: s.log }
          some (if c ∈ s.clients then t.drop c else t)
      | _, _, _ => none
  | .takeBroadcast =>
      match s.run, s.broadcast with
      | .waiting, frame :: rest =>
          some { s with broadcast := rest, run := .walking ⟨.everyone, frame, s.clients⟩ }
      | _, _ => none
  | .deliver c =>
      match s.run with
      | .walking w =>
          if c ∈ w.ahead then
            some { s.come w c with run := .walking { w with ahead := w.ahead.erase c } }
          else none
      | _ => none
  | .delivered =>
      match s.run with
      | .walking w => if w.ahead = ∅ then some { s with run := .waiting } else none
      | _ => none
  | .shutdown =>
      match s.run, s.walks with
      | .waiting, [] => some { s with run := .closing }
      | _, _ => none
  | .close c =>
      match s.run with
      | .closing => if c ∈ s.clients then some (s.drop c) else none
      | _ => none
  | .closed =>
      match s.run with
      | .closing => if s.clients = ∅ then some { s with run := .returned } else none
      | _ => none
  | .broadcastAudioRX channel frame =>
      if s.run.locks then none
      else some { s with walks := s.walks ++ [⟨.subscribers channel, frame, s.clients⟩] }
  | .relayToOthers sender frame =>
      if s.run.locks then none
      else some { s with walks := s.walks ++ [⟨.others sender, frame, s.clients⟩] }
  | .visit i c =>
      match s.walks[i]? with
      | some w =>
          if c ∈ w.ahead then
            some { s.come w c with walks := s.walks.set i { w with ahead := w.ahead.erase c } }
          else none
      | none => none
  | .visited i =>
      match s.walks[i]? with
      | some w => if w.ahead = ∅ then some { s with walks := s.walks.eraseIdx i } else none
      | none => none

/-- `NewHub`, before anybody has connected. -/
def newHub : State ClientId where
  clients := ∅
  register := []
  unregister := []
  broadcast := []
  helpers := []
  run := .waiting
  walks := []
  send := fun _ => []
  closed := fun _ => false
  conn := fun _ => .absent
  toggles := fun _ => ⟨fun _ => false, fun _ => false⟩
  txStream := false
  events := []
  lastPTT := fun _ => none
  log := []

end Hub

end OpenManet
