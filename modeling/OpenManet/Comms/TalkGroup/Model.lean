import OpenManet.Lib.Machine
import Mathlib.Logic.Function.Basic
import Mathlib.Algebra.Order.Ring.Int
/-!
# Talk group selection and playback

`internal/comms/service.go`: every port has a send and a receive toggle,
both atomic, and a playback stream that runs while the port receives. Three
things touch them: `SelectTalkGroup`, which makes one talk group the active
one, `EnableTalkGroupReceive`, which turns one port's receive toggle, and
the timer that puts a stream woken for a beep back to sleep.

Selections flip the toggles under `selectMu` and start and stop streams
after it is released; a toggle is read again for that, in a step of its own.
The calls are threads of a guarded machine, whose steps are the atomic
operations and the sections of `playbackMu`. A stream is installed on every
port and its device does what it is told, so a section leaves the stream
running or not as it was asked to. The frames drained before a start, and
the event a single toggle emits, which reads both toggles and writes none,
are left out.
-/

namespace OpenManet

namespace TalkGroup

/-- The two toggles of a port. -/
inductive Direction where
  | send
  | receive
deriving DecidableEq, Repr

/-- `SendEnabled` or `ReceiveEnabled` of a port. -/
structure Toggle where
  direction : Direction
  port : ℕ
deriving DecidableEq, Repr

/-- `talkgroup.Source`. -/
inductive Source where
  | rpc
  | gpio
  | init
deriving DecidableEq, Repr

/-- `DefaultTalkGroupPort`. -/
def defaultTalkGroupPort : ℤ := 38801

/-- `talkGroupPortStride`. -/
def talkGroupPortStride : ℤ := 2

/-- `talkGroupMaxChannel`. -/
def talkGroupMaxChannel : ℤ := 32

/-- `TalkGroupPort`; `none` is its error. -/
def talkGroupPort (channel : ℤ) : Option ℤ :=
  if channel < 1 ∨ channel > talkGroupMaxChannel then none
  else some (defaultTalkGroupPort + (channel - 1) * talkGroupPortStride)

/-- The first port of a channel, among the configured ones. -/
def targetIdx (ports : List ℤ) (channel : ℤ) : Option ℕ :=
  (talkGroupPort channel).bind fun port => ports.findIdx? fun p => p == port

theorem targetIdx_lt {ports : List ℤ} {channel : ℤ} {k : ℕ} (h : targetIdx ports channel = some k) :
    k < ports.length := by
  obtain ⟨port, -, hfind⟩ := Option.bind_eq_some_iff.1 h
  exact (List.findIdx?_eq_some_iff_findIdx_eq.1 hfind).1

/-- A `KindSelected` event. Its `Send` and `Receive` are true. -/
structure Event where
  channel : ℤ
  prev : ℤ
  source : Source
deriving DecidableEq, Repr

/-- A call. -/
inductive Call where
  | selectTalkGroup (channel : ℤ) (source : Source)
  | enableTalkGroupReceive (port : ℤ) (enabled : Bool)
  | stopPlaybackIfDisabled (port : ℕ)
deriving DecidableEq, Repr

/-- A selection past the lookup of its port. -/
structure Select where
  channel : ℤ
  target : ℕ
  source : Source
deriving DecidableEq, Repr

/-- A toggle and what it is flipped to. -/
abbrev Flip := Toggle × Bool

/-- Both toggles of every other port, off. -/
def offs (n target : ℕ) : List Flip :=
  ((List.range n).filter fun i => i ≠ target).flatMap fun i =>
    [(⟨.send, i⟩, false), (⟨.receive, i⟩, false)]

/-- The flips of a selection, in order: every other port off, and the target
on last. -/
def flips (n target : ℕ) : List Flip :=
  offs n target ++ [(⟨.send, target⟩, true), (⟨.receive, target⟩, true)]

/-- Where a call is. The points from `flipping` to `unlocking` are inside
`selectMu`. -/
inductive Point where
  /-- About to take `selectMu`. -/
  | locking (sel : Select)
  /-- With flips to make, a toggle changed so far or not, and the ports whose
  receive toggle did. With none left, about to write `ActiveChannel`. -/
  | flipping (sel : Select) (todo : List Flip) (changed : Bool) (rxChanged : List ℕ)
  /-- About to notify, if anything changed. -/
  | notifying (sel : Select) (prev : ℤ) (changed : Bool) (rxChanged : List ℕ)
  /-- About to release `selectMu`. -/
  | unlocking (rxChanged : List ℕ)
  /-- About to flip one receive toggle. -/
  | toggling (port : ℕ) (enabled : Bool)
  /-- A timer, about to read the receive toggle. -/
  | sleeping (port : ℕ)
  /-- `applyReceivePlayback` of these ports, about to read the first's
  toggle. -/
  | reconciling (todo : List ℕ)
  /-- With a toggle read, about to start or stop the stream. -/
  | applying (port : ℕ) (enabled : Bool) (todo : List ℕ)
  | returned (ok : Bool)
deriving DecidableEq, Repr

/-- The call is back. -/
def Point.isReturned : Point → Bool
  | .returned _ => true
  | _ => false

/-- Inside `selectMu`. -/
def Point.inside : Point → Bool
  | .flipping _ _ _ _ => true
  | .notifying _ _ _ _ => true
  | .unlocking _ => true
  | _ => false

/-- On the way to one receive toggle. -/
def Point.single : Point → Bool
  | .toggling _ _ => true
  | .sleeping _ => true
  | _ => false

/-- A call and where it is. -/
structure Thread where
  call : Call
  point : Point
deriving DecidableEq, Repr

/-- A write of `ActiveChannel`: by whom, what it was before, and whether the
toggles are still what the call found them to be. -/
structure Selection where
  thread : ℕ
  channel : ℤ
  prev : ℤ
  source : Source
  toggled : Bool
deriving DecidableEq, Repr

/-- The runtime and the calls made on it. The last three fields are history:
the toggles as the holder of `selectMu` found them, the calls that took it,
and the writes of `ActiveChannel`. -/
structure State where
  toggles : Toggle → Bool
  playbackRunning : ℕ → Bool
  activeChannel : ℤ
  selectMu : Option ℕ
  events : List Event
  threads : List Thread
  atLock : Toggle → Bool
  taken : List ℕ
  selections : List Selection

namespace State

variable (s : State)

/-- `ReceiveEnabled`. -/
def receiveEnabled (port : ℕ) : Bool := s.toggles ⟨.receive, port⟩

/-- A toggle of one of `n` ports is not what the holder of the lock found. -/
def toggled (n : ℕ) : Bool :=
  (List.range n).any fun i =>
    s.toggles ⟨.send, i⟩ != s.atLock ⟨.send, i⟩ || s.toggles ⟨.receive, i⟩ != s.atLock ⟨.receive, i⟩

/-- A call goes on to a point. -/
def goto (i : ℕ) (c : Call) (p : Point) : State := { s with threads := s.threads.set i ⟨c, p⟩ }

/-- A toggle is swapped. -/
def swap (t : Toggle) (enabled : Bool) : State :=
  { s with toggles := Function.update s.toggles t enabled }

@[simp] theorem swap_self (f : Toggle) (b : Bool) : (s.swap f b).toggles f = b :=
  Function.update_self ..

theorem swap_of_ne {f g : Toggle} (h : g ≠ f) (b : Bool) :
    (s.swap f b).toggles g = s.toggles g := Function.update_of_ne h ..

@[simp] theorem swap_atLock (f : Toggle) (b : Bool) : (s.swap f b).atLock = s.atLock := rfl

/-- Every call is back. -/
def AllReturned : Prop := ∀ th ∈ s.threads, th.point.isReturned = true

/-- The first step of a call, before anything shared is touched: the lookups
and bounds checks. -/
def begin (ports : List ℤ) : Call → Point
  | .selectTalkGroup channel source =>
      match targetIdx ports channel with
      | some target => .locking ⟨channel, target, source⟩
      | none => .returned false
  | .enableTalkGroupReceive port enabled =>
      if port < 0 ∨ port ≥ ports.length then .returned false else .toggling port.toNat enabled
  | .stopPlaybackIfDisabled port => if port < ports.length then .sleeping port else .returned false

/-- The next step of call `i`. -/
def advance (n i : ℕ) (c : Call) : Point → Option State
  | .locking sel =>
      if s.selectMu = none then
        some { s.goto i c (.flipping sel (flips n sel.target) false []) with
          selectMu := some i
          atLock := s.toggles
          taken := s.taken ++ [i] }
      else none
  | .flipping sel ((t, enabled) :: todo) changed rxChanged =>
      let flipped := s.toggles t != enabled
      let rxChanged := if flipped && t.direction = .receive then rxChanged ++ [t.port] else rxChanged
      some ((s.swap t enabled).goto i c (.flipping sel todo (changed || flipped) rxChanged))
  | .flipping sel [] changed rxChanged =>
      some { s.goto i c (.notifying sel s.activeChannel changed rxChanged) with
        activeChannel := sel.channel
        selections := s.selections ++
          [⟨i, sel.channel, s.activeChannel, sel.source, s.toggled n⟩] }
  | .notifying sel prev changed rxChanged =>
      let event : Event := ⟨sel.channel, prev, sel.source⟩
      some { s.goto i c (.unlocking rxChanged) with
        events := if changed || prev != sel.channel then s.events ++ [event] else s.events }
  | .unlocking rxChanged => some { s.goto i c (.reconciling rxChanged) with selectMu := none }
  | .toggling port enabled =>
      let flipped := s.receiveEnabled port != enabled
      some ((s.swap ⟨.receive, port⟩ enabled).goto i c
        (if flipped then .reconciling [port] else .returned true))
  | .sleeping port =>
      some (s.goto i c (if s.receiveEnabled port then .returned true else .applying port false []))
  | .reconciling [] => some (s.goto i c (.returned true))
  | .reconciling (port :: todo) =>
      some (s.goto i c (.applying port (s.receiveEnabled port) todo))
  | .applying port enabled todo =>
      some { s.goto i c (.reconciling todo) with
        playbackRunning := Function.update s.playbackRunning port enabled }
  | .returned _ => none

end State

/-- What a scheduler can choose: a call is made, or one goes a step on. -/
inductive Action where
  | call (c : Call)
  | go (i : ℕ)
deriving DecidableEq, Repr

/-- One action, with these ports configured. -/
def step (ports : List ℤ) (s : State) : Action → Option State
  | .call c => some { s with threads := s.threads ++ [⟨c, State.begin ports c⟩] }
  | .go i => s.threads[i]?.bind fun th => s.advance ports.length i th.call th.point

variable {ports : List ℤ} {s t : State}

/-- The threads of a state where call `i` went on. -/
theorem goto_cases {i j : ℕ} {c : Call} {p : Point} {th : Thread}
    (h : (s.goto i c p).threads[j]? = some th) :
    (j = i ∧ th = ⟨c, p⟩) ∨ (j ≠ i ∧ s.threads[j]? = some th) := by
  rw [State.goto, List.getElem?_set] at h
  split at h
  · next hij =>
    split at h
    · exact .inl ⟨hij.symm, (Option.some.inj h).symm⟩
    · cases h
  · next hij => exact .inr ⟨Ne.symm hij, h⟩

theorem goto_self {i : ℕ} {c : Call} {p : Point} {th : Thread} (hi : s.threads[i]? = some th) :
    (s.goto i c p).threads[i]? = some ⟨c, p⟩ :=
  List.getElem?_set_self (List.getElem?_eq_some_iff.1 hi).1

theorem goto_of_ne {i j : ℕ} {c : Call} {p : Point} (hij : j ≠ i) :
    (s.goto i c p).threads[j]? = s.threads[j]? :=
  List.getElem?_set_ne (Ne.symm hij)

/-- The threads of a state where a call was made. -/
theorem concat_cases {l : List Thread} {j : ℕ} {th new : Thread} (h : (l ++ [new])[j]? = some th) :
    l[j]? = some th ∨ (j = l.length ∧ th = new) := by
  rcases Nat.lt_or_ge j l.length with hlt | hge
  · rw [List.getElem?_append_left hlt] at h
    exact .inl h
  · rw [List.getElem?_append_right hge] at h
    rcases hk : j - l.length with _ | k
    · rw [hk, List.getElem?_cons_zero, Option.some.injEq] at h
      exact .inr ⟨by omega, h.symm⟩
    · rw [hk, List.getElem?_cons_succ, List.getElem?_nil] at h
      cases h

/-- **What an action can be**: a call is made, or one goes on. -/
theorem step_cases {a : Action} (hstep : step ports s a = some t) :
    (∃ c, a = .call c ∧ t = { s with threads := s.threads ++ [⟨c, State.begin ports c⟩] }) ∨
    ∃ i c p, a = .go i ∧ s.threads[i]? = some ⟨c, p⟩ ∧ s.advance ports.length i c p = some t := by
  cases a with
  | call c => exact .inl ⟨c, rfl, (Option.some.inj hstep).symm⟩
  | go i =>
      obtain ⟨⟨c, p⟩, hi, hgo⟩ := Option.bind_eq_some_iff.1 hstep
      exact .inr ⟨i, c, p, rfl, hi, hgo⟩

end TalkGroup

end OpenManet
