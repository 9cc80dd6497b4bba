import OpenManet.Lib.Machine
import Mathlib.Order.Bounds.Basic
import Mathlib.Order.WithBot
import Mathlib.Algebra.Order.Ring.Rat
/-!
# The browser — the shared poll store

`services/pollStore.js`. One store polls for all the components that show the
same data: it fetches when the first of them subscribes, when its timer ticks,
when the page is shown again and when somebody asks. A fetch outlives whoever
started it, and the flag that keeps a second one from being started is cleared
when the last subscriber leaves. The store hears of the page being hidden or
shown only while it has subscribers.

JavaScript runs one callback at a time, so each of them is one step here.
Subscribers, timers and fetches are numbered as they are made. `publishedBy` and
`left` record whose result the snapshot is and which fetches ran when the last
subscriber left; no function reads them. `onChange` is taken not to call back
into the store: the components hand it a state setter.
-/

namespace OpenManet

namespace PollStore

/-! ## The store -/

/-- A subscriber, the object that `subscribe` makes. -/
structure Sub where
  id : ℕ
  intervalMs : ℚ
deriving DecidableEq

/-- The browser's interval timers, and the one the store knows of. -/
structure Clock where
  timerId : Option ℕ := none
  /-- The timers that run, with their intervals. -/
  timers : List (ℕ × ℚ) := []
  /-- How many have been made. -/
  made : ℕ := 0
deriving DecidableEq

/-- The fetches, and the flag of the store about them. -/
structure Flight where
  inFlight : Bool := false
  /-- The fetches that have neither completed nor failed. -/
  fetches : List ℕ := []
  /-- How many have been started. -/
  started : ℕ := 0
  /-- The fetch whose result is published. -/
  publishedBy : Option ℕ := none
  /-- Of those under way, the ones that were when the last subscriber left. -/
  left : List ℕ := []
deriving DecidableEq

/-- A store and its document. The visibility listener is there exactly when
`visibilityBound` says so. -/
structure State (V : Type) where
  snapshot : Option V := none
  subscribers : List Sub := []
  clock : Clock := {}
  flight : Flight := {}
  visible : Bool
  visibilityBound : Bool := false
  /-- `document.visibilityState` is `hidden`. -/
  hidden : Bool
  /-- How many subscribers there have been. -/
  subscribed : ℕ := 0
  /-- The calls of `onChange`, by whose it is. -/
  calls : List (ℕ × Option V) := []
deriving DecidableEq

variable {V : Type}

namespace Flight

/-- `tick`, up to its `await`. -/
def tick (f : Flight) : Flight :=
  if f.inFlight then f
  else { f with inFlight := true, fetches := f.fetches ++ [f.started], started := f.started + 1 }

/-- A fetch is over, and `tick` is done. -/
def ended (f : Flight) (k : ℕ) : Flight :=
  { f with inFlight := false, fetches := f.fetches.erase k, left := f.left.erase k }

/-- The last subscriber has left. -/
def leave (f : Flight) : Flight := { f with inFlight := false, left := f.fetches }

end Flight

namespace Clock

/-- `clearInterval`. -/
def clear (c : Clock) : Clock :=
  match c.timerId with
  | some t => { c with timers := c.timers.filter (·.1 ≠ t), timerId := none }
  | none => c

/-- `setInterval`. -/
def set (c : Clock) (ms : ℚ) : Clock :=
  { timerId := some c.made, timers := c.timers ++ [(c.made, ms)], made := c.made + 1 }

end Clock

/-- `minInterval`; `⊤` is `Infinity`. -/
def minInterval (subscribers : List Sub) : ℚ :=
  let min := subscribers.foldl (fun (min : WithTop ℚ) sub =>
    if (sub.intervalMs : WithTop ℚ) < min then sub.intervalMs else min) ⊤
  min.untopD 0

namespace State

variable (s : State V)

/-- `createPollStore`. -/
def created (hidden : Bool) : State V where
  visible := !hidden
  hidden := hidden

/-- `notify`. -/
def notify : State V :=
  { s with calls := s.calls ++ s.subscribers.map fun sub => (sub.id, s.snapshot) }

/-- `tick`, up to its `await`. -/
def tick : State V := { s with flight := s.flight.tick }

/-- The rest of `tick`, where the fetch has completed. -/
def resolved (k : ℕ) (next : Option V) : State V :=
  let s := { s with
    snapshot := next, flight := { s.flight with publishedBy := some k } }.notify
  { s with flight := s.flight.ended k }

/-- The rest of `tick`, where it has failed. -/
def failed (k : ℕ) : State V := { s with flight := s.flight.ended k }

/-- `restartTimer`. -/
def restartTimer : State V :=
  let clock := s.clock.clear
  if !s.visible || s.subscribers.isEmpty then { s with clock := clock }
  else
    let ms := minInterval s.subscribers
    { s with clock := if 0 < ms then clock.set ms else clock }

/-- `onVisibilityChange`. -/
def onVisibilityChange : State V :=
  if (!s.hidden) = s.visible then s
  else
    let s := { s with visible := !s.hidden }.restartTimer
    if s.visible && !s.subscribers.isEmpty then s.tick else s

/-- `subscribe`. -/
def subscribe (intervalMs : ℚ) : State V :=
  let firstSubscriber := s.subscribers.isEmpty
  let sub : Sub := ⟨s.subscribed, intervalMs⟩
  let s := { s with
    subscribers := s.subscribers ++ [sub]
    subscribed := s.subscribed + 1
    visibilityBound := true }.restartTimer
  let s := { s with
    calls := if s.snapshot.isSome then s.calls ++ [(sub.id, s.snapshot)] else s.calls }
  if firstSubscriber && s.visible then s.tick else s

/-- What `subscribe` returns, of the subscriber with this number. -/
def unsubscribe (id : ℕ) : State V :=
  let s := { s with subscribers := s.subscribers.filter (·.id ≠ id) }
  if s.subscribers.isEmpty then
    -- the snapshot stays
    { s with clock := s.clock.clear, visibilityBound := false, flight := s.flight.leave }
  else s.restartTimer

/-- `refresh`. -/
def refresh : State V := if !s.visible then s else s.tick

end State

/-- What happens to a store. -/
inductive Event (V : Type) where
  | subscribe (intervalMs : ℚ)
  | unsubscribe (id : ℕ)
  /-- The page is hidden or shown. -/
  | visibilityChange
  /-- The timer with this number ticks. -/
  | timer (t : ℕ)
  | refresh
  /-- The fetch with this number completes. -/
  | resolved (k : ℕ) (next : Option V)
  /-- The fetch with this number fails. -/
  | failed (k : ℕ)

/-- The machine. -/
def step (s : State V) : Event V → Option (State V)
  | .subscribe intervalMs => some (s.subscribe intervalMs)
  | .unsubscribe id => if id < s.subscribed then some (s.unsubscribe id) else none
  | .visibilityChange =>
      let s := { s with hidden := !s.hidden }
      some (if s.visibilityBound then s.onVisibilityChange else s)
  | .timer t => if t ∈ s.clock.timers.map Prod.fst then some s.tick else none
  | .refresh => some s.refresh
  | .resolved k next => if k ∈ s.flight.fetches then some (s.resolved k next) else none
  | .failed k => if k ∈ s.flight.fetches then some (s.failed k) else none

/-! ## What a step does -/

section Steps

variable {s t : State V} {e : Event V}

@[simp] theorem restartTimer_flight : s.restartTimer.flight = s.flight := by
  unfold State.restartTimer; split <;> rfl

@[simp] theorem restartTimer_visible : s.restartTimer.visible = s.visible := by
  unfold State.restartTimer; split <;> rfl

@[simp] theorem restartTimer_hidden : s.restartTimer.hidden = s.hidden := by
  unfold State.restartTimer; split <;> rfl

@[simp] theorem restartTimer_subscribers : s.restartTimer.subscribers = s.subscribers := by
  unfold State.restartTimer; split <;> rfl

@[simp] theorem restartTimer_visibilityBound :
    s.restartTimer.visibilityBound = s.visibilityBound := by
  unfold State.restartTimer; split <;> rfl

/-- The event calls `tick`. -/
def asks (s : State V) : Event V → Bool
  | .subscribe _ => s.subscribers.isEmpty && s.visible
  | .visibilityChange => s.visibilityBound && s.hidden && !s.visible && !s.subscribers.isEmpty
  | .timer _ => true
  | .refresh => s.visible
  | _ => false

/-- What becomes of the fetches. -/
inductive Flies (s : State V) : Event V → Flight → Prop
  | ticks {e : Event V} (h : asks s e = true) : Flies s e s.flight.tick
  | stays {e : Event V} (h : asks s e = false) : Flies s e s.flight
  | leaves (id : ℕ) : Flies s (.unsubscribe id) s.flight.leave
  | resolves {k : ℕ} (next : Option V) (hk : k ∈ s.flight.fetches) :
      Flies s (.resolved k next) (Flight.ended { s.flight with publishedBy := some k } k)
  | fails {k : ℕ} (hk : k ∈ s.flight.fetches) : Flies s (.failed k) (s.flight.ended k)

theorem flies_of_visibilityChange (h : step s .visibilityChange = some t) :
    Flies s .visibilityChange t.flight := by
  obtain rfl := Option.some.inj h
  by_cases hbound : s.visibilityBound = true
  case neg => simpa [hbound] using Flies.stays (s := s) (e := .visibilityChange) (by simp [asks, hbound])
  simp only [hbound, if_true, State.onVisibilityChange, Bool.not_not]
  by_cases hsame : s.hidden = s.visible
  · rw [if_pos hsame]
    exact .stays (by simp only [asks, hsame]; cases s.visible <;> simp)
  rw [if_neg hsame]
  simp only [restartTimer_visible, restartTimer_subscribers]
  split
  · next hshown =>
    have hasks : asks s .visibilityChange = true := by
      simp only [Bool.and_eq_true] at hshown
      have hvisible : s.visible = false := by
        cases hv : s.visible
        · rfl
        · exact absurd (hshown.1.trans hv.symm) hsame
      simp only [asks, hbound, hshown.1, hshown.2, hvisible]
      rfl
    simpa [State.tick] using Flies.ticks hasks
  · next hstill =>
    have hasks : asks s .visibilityChange = false := by
      simp only [asks, hbound, Bool.true_and]
      by_cases hhidden : s.hidden = true
      · simp only [hhidden, Bool.true_and, Bool.not_eq_true] at hstill
        simp [hstill]
      · simp [hhidden]
    simpa using Flies.stays hasks

/-- **What a step does to the fetches.** -/
theorem flies_of_step (h : step s e = some t) : Flies s e t.flight := by
  cases e with
  | subscribe intervalMs =>
      obtain rfl := Option.some.inj h
      unfold State.subscribe
      simp only [restartTimer_visible]
      split
      · next hfirst => simpa [State.tick] using Flies.ticks (e := .subscribe intervalMs) hfirst
      · next hlate =>
        simpa using Flies.stays (e := .subscribe intervalMs) (by simpa [asks] using hlate)
  | unsubscribe id =>
      simp only [step, Option.ite_none_right_eq_some, Option.some.injEq] at h
      obtain ⟨-, rfl⟩ := h
      unfold State.unsubscribe
      simp only
      split
      · exact .leaves id
      · simpa using Flies.stays (s := s) (e := .unsubscribe id) rfl
  | visibilityChange => exact flies_of_visibilityChange h
  | timer i =>
      simp only [step, Option.ite_none_right_eq_some, Option.some.injEq] at h
      obtain ⟨-, rfl⟩ := h
      exact .ticks rfl
  | refresh =>
      obtain rfl := Option.some.inj h
      unfold State.refresh
      by_cases hvisible : s.visible = true
      · simpa [hvisible, State.tick] using Flies.ticks (s := s) (e := .refresh) hvisible
      · simpa [hvisible] using Flies.stays (s := s) (e := .refresh) (by simpa [asks] using hvisible)
  | resolved k next =>
      simp only [step, Option.ite_none_right_eq_some, Option.some.injEq] at h
      obtain ⟨hk, rfl⟩ := h
      exact .resolves next hk
  | failed k =>
      simp only [step, Option.ite_none_right_eq_some, Option.some.injEq] at h
      obtain ⟨hk, rfl⟩ := h
      exact .fails hk

end Steps

/-! ## One fetch at a time -/

section Fetches

variable {s t : State V} {e : Event V}

/-- The flag and the fetches agree: nothing runs; or one fetch does, the flag
tells of it, and it was started after the last time everybody left; or one does
that was running then, and the flag is clear. -/
inductive Phase (f : Flight) : Prop
  | idle (hflag : f.inFlight = false) (hfetches : f.fetches = []) (hleft : f.left = [])
  | busy {k : ℕ} (hflag : f.inFlight = true) (hfetches : f.fetches = [k]) (hleft : f.left = [])
  | orphaned {k : ℕ} (hflag : f.inFlight = false) (hfetches : f.fetches = [k])
      (hleft : f.left = [k])

/-- The invariant of the fetches. -/
structure Orderly (f : Flight) : Prop where
  phase : Phase f
  lt_started : ∀ k ∈ f.fetches, k < f.started
  published_lt : ∀ p, f.publishedBy = some p → p < f.started
  published_first : ∀ p, f.publishedBy = some p → ∀ k ∈ f.fetches, p < k

/-- **No fetch is asked for while one is running that was when the last
subscriber left.** -/
def Waits (s : State V) (e : Event V) : Prop := asks s e = true → s.flight.left = []

instance (s : State V) (e : Event V) : Decidable (Waits s e) :=
  inferInstanceAs (Decidable (_ → _))

/-- A result does not take the place of a later fetch's. -/
def Forward (s : State V) (e : Event V) : Prop :=
  ∀ k next, e = .resolved k next → ∀ p, s.flight.publishedBy = some p → ¬ k < p

theorem Phase.tick {f : Flight} (h : Phase f) (hleft : f.left = []) :
    Phase f.tick ∧ ∀ k ∈ f.tick.fetches, k ∈ f.fetches ∨ k = f.started := by
  cases h with
  | idle hflag hfetches hleft =>
      have htick : f.tick =
          { f with inFlight := true, fetches := [f.started], started := f.started + 1 } := by
        simp [Flight.tick, hflag, hfetches]
      rw [htick]
      exact ⟨.busy rfl rfl hleft, fun k hk => .inr (List.mem_singleton.1 hk)⟩
  | busy hflag hfetches hleft =>
      have htick : f.tick = f := if_pos hflag
      rw [htick]
      exact ⟨.busy hflag hfetches hleft, fun k hk => .inl hk⟩
  | orphaned hflag hfetches hleft' => simp [hleft'] at hleft

theorem Orderly.tick {f : Flight} (h : Orderly f) (hleft : f.left = []) : Orderly f.tick := by
  obtain ⟨hphase, hmem⟩ := h.phase.tick hleft
  have hstarted : f.started ≤ f.tick.started ∧
      (f.started ∈ f.tick.fetches → f.tick.started = f.started + 1) := by
    unfold Flight.tick
    split
    · exact ⟨le_rfl, fun hin => absurd (h.lt_started _ hin) (lt_irrefl _)⟩
    · exact ⟨Nat.le_succ _, fun _ => rfl⟩
  have hpublished : f.tick.publishedBy = f.publishedBy := by unfold Flight.tick; split <;> rfl
  refine ⟨hphase, fun k hk => ?_, fun p hp => ?_, fun p hp k hk => ?_⟩
  · rcases hmem k hk with hk' | rfl
    · exact (h.lt_started k hk').trans_le hstarted.1
    · rw [hstarted.2 hk]
      exact Nat.lt_succ_self _
  · exact (h.published_lt p (hpublished ▸ hp)).trans_le hstarted.1
  · rcases hmem k hk with hk' | rfl
    · exact h.published_first p (hpublished ▸ hp) k hk'
    · exact h.published_lt p (hpublished ▸ hp)

theorem Orderly.leave {f : Flight} (h : Orderly f) : Orderly f.leave where
  phase := by
    cases h.phase with
    | idle hflag hfetches hleft => exact .idle rfl hfetches hfetches
    | busy hflag hfetches hleft => exact .orphaned rfl hfetches hfetches
    | orphaned hflag hfetches hleft => exact .orphaned rfl hfetches hfetches
  lt_started := h.lt_started
  published_lt := h.published_lt
  published_first := h.published_first

/-- The one fetch that runs is the one that is over. -/
theorem Phase.ended {f : Flight} {k : ℕ} (h : Phase f) (hk : k ∈ f.fetches) :
    (f.ended k).fetches = [] ∧ (f.ended k).left = [] := by
  cases h with
  | idle hflag hfetches hleft => simp [hfetches] at hk
  | busy hflag hfetches hleft =>
      obtain rfl : k = _ := List.mem_singleton.1 (hfetches ▸ hk)
      simp [Flight.ended, hfetches, hleft]
  | orphaned hflag hfetches hleft =>
      obtain rfl : k = _ := List.mem_singleton.1 (hfetches ▸ hk)
      simp [Flight.ended, hfetches, hleft]

theorem Orderly.ended {f : Flight} {k : ℕ} {published : Option ℕ} (h : Orderly f)
    (hk : k ∈ f.fetches) (hpublished : published = some k ∨ published = f.publishedBy) :
    Orderly (Flight.ended { f with publishedBy := published } k) := by
  obtain ⟨hfetches, hleft⟩ := h.phase.ended hk
  refine ⟨.idle rfl hfetches hleft, fun j hj => ?_, fun p hp => ?_, fun p _ j hj => ?_⟩
  · exact absurd (hfetches ▸ hj) (List.not_mem_nil)
  · rcases hpublished with rfl | rfl
    · obtain rfl := Option.some.inj hp
      exact h.lt_started k hk
    · exact h.published_lt p hp
  · exact absurd (hfetches ▸ hj) (List.not_mem_nil)

/-- **A step that is taken as it should keeps the fetches in order.** -/
theorem Orderly.step (h : Orderly s.flight) (hwaits : Waits s e)
    (hstep : PollStore.step s e = some t) : Orderly t.flight := by
  have hflies := flies_of_step hstep
  generalize t.flight = f at hflies
  cases hflies with
  | ticks hasks => exact h.tick (hwaits hasks)
  | stays => exact h
  | leaves id => exact h.leave
  | resolves next hk => exact h.ended hk (.inl rfl)
  | fails hk => exact h.ended hk (.inr rfl)

theorem Orderly.length_le {f : Flight} (h : Orderly f) : f.fetches.length ≤ 1 := by
  cases h.phase with
  | idle _ hfetches => simp [hfetches]
  | busy _ hfetches => simp [hfetches]
  | orphaned _ hfetches => simp [hfetches]

/-- A fetch that is asked for too early runs beside the one that was left. -/
theorem Orderly.waits_of_length_le (h : Orderly s.flight) (hstep : PollStore.step s e = some t)
    (hle : t.flight.fetches.length ≤ 1) : Waits s e := by
  intro hasks
  have htick : t.flight = s.flight.tick := by
    have hflies := flies_of_step hstep
    generalize t.flight = f at hflies
    cases hflies with
    | ticks => rfl
    | stays hstill => rw [hasks] at hstill; cases hstill
    | leaves => cases hasks
    | resolves => cases hasks
    | fails => cases hasks
  cases h.phase with
  | idle hflag hfetches hleft => exact hleft
  | busy hflag hfetches hleft => exact hleft
  | orphaned hflag hfetches hleft =>
      rw [htick] at hle
      simp [Flight.tick, hflag, hfetches] at hle

theorem Orderly.forward (h : Orderly s.flight) (hstep : PollStore.step s e = some t) :
    Forward s e := by
  rintro k next rfl p hp
  simp only [PollStore.step, Option.ite_none_right_eq_some] at hstep
  exact (h.published_first p hp k hstep.1).not_gt

theorem orderly_created (hidden : Bool) : Orderly (State.created (V := V) hidden).flight where
  phase := .idle rfl rfl rfl
  lt_started := by simp [State.created]
  published_lt := by simp [State.created]
  published_first := by simp [State.created]

/-- No result goes backwards in a run that waits. -/
theorem forward_of_waits {es : List (Event V)} (hrun : Run step s es t) (h : Orderly s.flight)
    (hwaits : Always step Waits s es) : Always step Forward s es := by
  induction hrun with
  | nil s => trivial
  | cons hfirst _ ih =>
      exact Always.cons (h.forward hfirst) hfirst
        (ih (h.step hwaits.1 hfirst) (hwaits.2 _ hfirst))

/-- **One fetch at a time, and never backwards**: so it is in a run exactly if
nobody asks for a fetch while one is running that was when the last subscriber
left. -/
theorem one_fetch_iff {hidden : Bool} {es : List (Event V)}
    (hrun : Run step (.created hidden) es t) :
    (Throughout step (fun s : State V => s.flight.fetches.length ≤ 1) (.created hidden) es ∧
        Always step Forward (.created hidden) es) ↔
      Always step Waits (.created hidden) es := by
  have hstart := orderly_created (V := V) hidden
  have hiff : Throughout step (fun s : State V => s.flight.fetches.length ≤ 1) (.created hidden) es ↔
      Always step Waits (.created hidden) es :=
    hrun.throughout_iff_always_of_placed (I := fun s => Orderly s.flight) (H := fun _ => True)
      (fun _ _ => trivial) hstart hstart.length_le
      (fun u e v _ hu _ hwaits hstep => hu.step hwaits hstep)
      fun u e v _ hu _ hstep => ⟨hu.waits_of_length_le hstep, fun hwaits =>
        (hu.step hwaits hstep).length_le⟩
  exact ⟨fun h => hiff.1 h.1, fun h => ⟨hiff.2 h, forward_of_waits hrun hstart h⟩⟩

/-- The page is left and come back to once the fetch is over. -/
theorem one_fetch_iff_returns :
    Throughout step (fun s : State ℕ => s.flight.fetches.length ≤ 1) (.created false)
        [.subscribe 1000, .unsubscribe 0, .resolved 0 (some 7), .subscribe 1000] ∧
      Always step Forward (.created (V := ℕ) false)
        [.subscribe 1000, .unsubscribe 0, .resolved 0 (some 7), .subscribe 1000] :=
  (one_fetch_iff (Run.of_foldlM rfl)).2 (by decide +kernel)

/-- **Left and come back to while the fetch is under way**: two fetches run, the
second completes first, and the first then puts its older result in place of
it. -/
theorem leaves_and_returns :
    ∃ t : State ℕ, Run step (.created false) [.subscribe 1000, .unsubscribe 0, .subscribe 1000,
        .resolved 1 (some 1), .resolved 0 (some 0)] t ∧ t.snapshot = some 0 ∧
      ¬ Throughout step (fun s : State ℕ => s.flight.fetches.length ≤ 1) (.created false)
        [.subscribe 1000, .unsubscribe 0, .subscribe 1000, .resolved 1 (some 1),
          .resolved 0 (some 0)] ∧
      ¬ Always step Forward (.created (V := ℕ) false)
        [.subscribe 1000, .unsubscribe 0, .subscribe 1000, .resolved 1 (some 1),
          .resolved 0 (some 0)] := by
  refine ⟨_, Run.of_foldlM rfl, rfl, fun h => ?_, fun h => ?_⟩
  · exact absurd (((h.2 _ rfl).2 _ rfl).2 _ rfl).head (by decide +kernel)
  · exact (((((h.2 _ rfl).2 _ rfl).2 _ rfl).2 _ rfl).1 0 (some 0) rfl 1 rfl) Nat.one_pos

end Fetches

/-! ## One timer at a time -/

section Timers

variable {s t : State V} {e : Event V}

/-- **One timer runs, at the smallest interval asked for**, while there are
subscribers and the page is shown; otherwise none does. -/
def Polls (s : State V) : Prop :=
  (s.subscribers ≠ [] ∧ s.hidden = false →
      ∃ i ms, s.clock.timers = [(i, ms)] ∧
        IsLeast (Sub.intervalMs '' {sub | sub ∈ s.subscribers}) ms) ∧
    (¬ (s.subscribers ≠ [] ∧ s.hidden = false) → s.clock.timers = [])

/-- **A subscriber that comes to an empty store finds the page as hidden or shown
as the store last saw it.** -/
def Sees (s : State V) : Event V → Prop
  | .subscribe _ => s.subscribers = [] → s.visible = !s.hidden
  | _ => True

instance (s : State V) : (e : Event V) → Decidable (Sees s e)
  | .subscribe _ => inferInstanceAs (Decidable (_ → _))
  | .unsubscribe _ | .visibilityChange | .timer _ | .refresh | .resolved _ _ | .failed _ =>
      isTrue trivial

/-- The interval asked for is positive. -/
def Event.Positive : Event V → Prop
  | .subscribe intervalMs => 0 < intervalMs
  | _ => True

instance : (e : Event V) → Decidable e.Positive
  | .subscribe intervalMs => inferInstanceAs (Decidable (0 < intervalMs))
  | .unsubscribe _ | .visibilityChange | .timer _ | .refresh | .resolved _ _ | .failed _ =>
      isTrue trivial

/-- The store knows of every timer. -/
def Clock.Known (c : Clock) : Prop := c.timers.map Prod.fst = c.timerId.toList

/-- The invariant of the timer, apart from `Polls`. -/
structure Watching (s : State V) : Prop where
  positive : ∀ sub ∈ s.subscribers, 0 < sub.intervalMs
  known : s.clock.Known
  bound : s.visibilityBound = true ↔ s.subscribers ≠ []
  watched : s.subscribers ≠ [] → s.visible = !s.hidden

theorem Clock.Known.clear {c : Clock} (h : c.Known) :
    c.clear.timers = [] ∧ c.clear.timerId = none := by
  unfold Clock.Known at h
  unfold Clock.clear
  cases ht : c.timerId with
  | none =>
      rw [ht] at h
      exact ⟨List.map_eq_nil_iff.1 h, ht⟩
  | some i =>
      rw [ht] at h
      refine ⟨List.filter_eq_nil_iff.2 fun x hx => ?_, rfl⟩
      have hin : x.1 ∈ c.timers.map Prod.fst := List.mem_map_of_mem hx
      rw [h, Option.toList_some, List.mem_singleton] at hin
      simp [hin]

/-- The walk over the subscribers keeps the least interval. -/
theorem foldl_min_spec (l : List Sub) (m : WithTop ℚ) :
    let r := l.foldl (fun (min : WithTop ℚ) sub =>
      if (sub.intervalMs : WithTop ℚ) < min then (sub.intervalMs : WithTop ℚ) else min) m
    r ≤ m ∧ (∀ sub ∈ l, r ≤ sub.intervalMs) ∧ (r = m ∨ ∃ sub ∈ l, r = sub.intervalMs) := by
  induction l generalizing m with
  | nil => exact ⟨le_rfl, by simp, .inl rfl⟩
  | cons sub l ih =>
      simp only [List.foldl_cons, List.forall_mem_cons, List.exists_mem_cons_iff]
      split
      · next hlt =>
        obtain ⟨hle, hall, hfound⟩ := ih sub.intervalMs
        exact ⟨hle.trans hlt.le, ⟨hle, hall⟩, .inr hfound⟩
      · next hge =>
        obtain ⟨hle, hall, hfound⟩ := ih m
        exact ⟨hle, ⟨hle.trans (not_lt.1 hge), hall⟩, hfound.imp id Or.inr⟩

theorem minInterval_isLeast {l : List Sub} (h : l ≠ []) :
    IsLeast (Sub.intervalMs '' {sub | sub ∈ l}) (minInterval l) := by
  obtain ⟨-, hall, hfound⟩ := foldl_min_spec l ⊤
  unfold minInterval
  simp only
  generalize l.foldl _ _ = r at hall hfound
  have hr : ∃ sub ∈ l, r = sub.intervalMs := by
    refine hfound.resolve_left fun htop => ?_
    obtain ⟨sub, hsub⟩ := List.exists_mem_of_ne_nil l h
    exact WithTop.coe_ne_top (top_le_iff.1 (htop ▸ hall sub hsub))
  obtain ⟨sub, hsub, rfl⟩ := hr
  refine ⟨⟨sub, hsub, rfl⟩, ?_⟩
  rintro _ ⟨sub', hsub', rfl⟩
  exact WithTop.coe_le_coe.1 (hall sub' hsub')

/-- **What `restartTimer` leaves running.** -/
theorem restartTimer_clock (hknown : s.clock.Known)
    (hpositive : ∀ sub ∈ s.subscribers, 0 < sub.intervalMs) :
    s.restartTimer.clock.Known ∧
      s.restartTimer.clock.timers =
        if s.visible = true ∧ s.subscribers ≠ [] then
          [(s.clock.clear.made, minInterval s.subscribers)]
        else [] := by
  obtain ⟨htimers, hid⟩ := hknown.clear
  unfold State.restartTimer
  simp only
  by_cases hrun : s.visible = true ∧ s.subscribers ≠ []
  · have hcond : ¬ ((!s.visible || s.subscribers.isEmpty) = true) := by
      simp [hrun.1, hrun.2]
    have hleast := minInterval_isLeast hrun.2
    have hpos : 0 < minInterval s.subscribers := by
      obtain ⟨sub, hsub, heq⟩ := hleast.1
      rw [← heq]
      exact hpositive sub hsub
    simp only [if_neg hcond, if_pos hpos, if_pos hrun, Clock.set, htimers]
    exact ⟨rfl, rfl⟩
  · have hcond : (!s.visible || s.subscribers.isEmpty) = true := by
      rw [Bool.or_eq_true, Bool.not_eq_true', List.isEmpty_iff]
      by_cases hvisible : s.visible = true
      · exact .inr (not_not.1 fun hne => hrun ⟨hvisible, hne⟩)
      · exact .inl (Bool.eq_false_iff.2 hvisible)
    rw [if_pos hcond, if_neg hrun]
    exact ⟨by simp [Clock.Known, htimers, hid], htimers⟩

/-- The timer is right after `restartTimer` exactly if the store has the page's
visibility right. -/
theorem polls_restartTimer_iff (hknown : s.clock.Known)
    (hpositive : ∀ sub ∈ s.subscribers, 0 < sub.intervalMs) (hsubs : s.subscribers ≠ []) :
    Polls s.restartTimer ↔ s.visible = !s.hidden := by
  obtain ⟨-, htimers⟩ := restartTimer_clock hknown hpositive
  unfold Polls
  simp only [restartTimer_subscribers, restartTimer_hidden, htimers]
  cases hvisible : s.visible <;> cases hhidden : s.hidden
  · simp [hsubs]
  · simp
  · simpa [hsubs] using minInterval_isLeast hsubs
  · simp [hsubs]

/-- The two invariants read these fields and no others. -/
theorem watching_congr (hsubs : t.subscribers = s.subscribers) (hclock : t.clock = s.clock)
    (hvisible : t.visible = s.visible) (hbound : t.visibilityBound = s.visibilityBound)
    (hhidden : t.hidden = s.hidden) :
    (Watching t ↔ Watching s) ∧ (Polls t ↔ Polls s) := by
  refine ⟨⟨fun h => ⟨?_, ?_, ?_, ?_⟩, fun h => ⟨?_, ?_, ?_, ?_⟩⟩, ?_⟩
  · exact hsubs ▸ h.positive
  · exact hclock ▸ h.known
  · exact hbound ▸ hsubs ▸ h.bound
  · exact hvisible ▸ hhidden ▸ hsubs ▸ h.watched
  · exact hsubs ▸ h.positive
  · exact hclock ▸ h.known
  · exact hbound ▸ hsubs ▸ h.bound
  · exact hvisible ▸ hhidden ▸ hsubs ▸ h.watched
  · unfold Polls
    rw [hsubs, hclock, hhidden]

theorem Watching.of_tick (h : Watching s) : Watching s.tick :=
  (watching_congr (t := s.tick) (s := s) rfl rfl rfl rfl rfl).1.2 h

theorem polls_tick : Polls s.tick ↔ Polls s := (watching_congr rfl rfl rfl rfl rfl).2

/-- A subscriber more. -/
def State.joined (s : State V) (intervalMs : ℚ) : State V :=
  { s with
    subscribers := s.subscribers ++ [⟨s.subscribed, intervalMs⟩]
    subscribed := s.subscribed + 1
    visibilityBound := true }

theorem Watching.positive_joined (h : Watching s) {intervalMs : ℚ} (hpos : 0 < intervalMs) :
    ∀ sub ∈ (s.joined intervalMs).subscribers, 0 < sub.intervalMs := by
  intro sub hsub
  rcases List.mem_append.1 hsub with hsub | hsub
  · exact h.positive sub hsub
  · rw [List.mem_singleton.1 hsub]
    exact hpos

theorem subscribe_congr (intervalMs : ℚ) :
    (Watching (s.subscribe intervalMs) ↔ Watching (s.joined intervalMs).restartTimer) ∧
      (Polls (s.subscribe intervalMs) ↔ Polls (s.joined intervalMs).restartTimer) := by
  unfold State.subscribe
  simp only
  split
  · exact watching_congr rfl rfl rfl rfl rfl
  · exact watching_congr rfl rfl rfl rfl rfl

theorem Watching.subscribe (h : Watching s) {intervalMs : ℚ} (hpos : 0 < intervalMs)
    (hsees : Sees s (.subscribe intervalMs)) : Watching (s.subscribe intervalMs) := by
  rw [(subscribe_congr intervalMs).1]
  have hpositive := h.positive_joined hpos
  have hvisible : s.visible = !s.hidden := by
    by_cases hsubs : s.subscribers = []
    · exact hsees hsubs
    · exact h.watched hsubs
  refine ⟨by simpa using hpositive, (restartTimer_clock (s := s.joined intervalMs) h.known
    hpositive).1, ?_, fun _ => ?_⟩
  · simp [State.joined]
  · rw [restartTimer_visible, restartTimer_hidden]
    exact hvisible

/-- **A subscriber that comes** makes the timer right exactly if the store has
the page's visibility right. -/
theorem Watching.polls_subscribe_iff (h : Watching s) {intervalMs : ℚ} (hpos : 0 < intervalMs) :
    Polls (s.subscribe intervalMs) ↔ Sees s (.subscribe intervalMs) := by
  have hpositive := h.positive_joined hpos
  rw [(subscribe_congr intervalMs).2, polls_restartTimer_iff (s := s.joined intervalMs) h.known
    hpositive (by simp [State.joined])]
  by_cases hsubs : s.subscribers = []
  · exact ⟨fun hvisible _ => hvisible, fun hsees => hsees hsubs⟩
  · exact iff_of_true (h.watched hsubs) fun hnil => absurd hnil hsubs

/-- **One that leaves.** -/
theorem Watching.unsubscribe (h : Watching s) (id : ℕ) :
    Watching (s.unsubscribe id) ∧ Polls (s.unsubscribe id) := by
  have hpositive : ∀ sub ∈ s.subscribers.filter (·.id ≠ id), 0 < sub.intervalMs :=
    fun sub hsub => h.positive sub (List.mem_of_mem_filter hsub)
  unfold State.unsubscribe
  simp only
  by_cases hlast : s.subscribers.filter (·.id ≠ id) = []
  · rw [if_pos (List.isEmpty_iff.2 hlast)]
    obtain ⟨htimers, hid⟩ := h.known.clear
    refine ⟨⟨hpositive, ?_, ?_, fun hne => absurd hlast hne⟩, ?_⟩
    · simp [Clock.Known, htimers, hid]
    · simpa using hlast
    · exact ⟨fun hsome => absurd hlast hsome.1, fun _ => htimers⟩
  · rw [if_neg (by simpa [List.isEmpty_iff] using hlast)]
    have hsubs : s.subscribers ≠ [] := by
      rintro hnil
      exact hlast (by rw [hnil]; rfl)
    generalize hs' : { s with subscribers := s.subscribers.filter (·.id ≠ id) } = s'
    have hsubs' : s'.subscribers = s.subscribers.filter (·.id ≠ id) := by rw [← hs']
    have hclock : s'.clock = s.clock := by rw [← hs']
    have hvisible : s'.visible = !s'.hidden := by rw [← hs']; exact h.watched hsubs
    have hbound : s'.visibilityBound = true := by rw [← hs']; exact h.bound.2 hsubs
    rw [← hsubs'] at hpositive hlast
    have hknown : s'.clock.Known := hclock ▸ h.known
    refine ⟨⟨?_, (restartTimer_clock hknown hpositive).1, ?_, fun _ => ?_⟩, ?_⟩
    · simpa using hpositive
    · simp [hbound, hlast]
    · simpa using hvisible
    · exact (polls_restartTimer_iff hknown hpositive hlast).2 hvisible

/-- **The page is hidden or shown.** -/
theorem Watching.visibilityChange (h : Watching s) (hpolls : Polls s)
    (hstep : step s .visibilityChange = some t) : Watching t ∧ Polls t := by
  obtain rfl := Option.some.inj hstep
  by_cases hsubs : s.subscribers = []
  · -- nobody listens, and no timer runs
    have hbound : ¬ s.visibilityBound = true := fun hb => h.bound.1 hb hsubs
    have htimers : s.clock.timers = [] := hpolls.2 fun hsome => hsome.1 hsubs
    simp only [if_neg hbound]
    exact ⟨⟨h.positive, h.known, h.bound, fun hne => absurd hsubs hne⟩,
      fun hsome => absurd hsubs hsome.1, fun _ => htimers⟩
  · have hbound : s.visibilityBound = true := h.bound.2 hsubs
    have hvisible := h.watched hsubs
    simp only [if_pos hbound]
    -- the listener takes the new visibility over
    generalize hs' : { s with hidden := !s.hidden, visible := s.hidden } = s'
    have hsubs' : s'.subscribers = s.subscribers := by rw [← hs']
    have hknown : s'.clock.Known := by rw [← hs']; exact h.known
    have hpositive : ∀ sub ∈ s'.subscribers, 0 < sub.intervalMs := hsubs' ▸ h.positive
    have hagree : s'.visible = !s'.hidden := by rw [← hs']; simp
    have hrestarted : Watching s'.restartTimer ∧ Polls s'.restartTimer := by
      refine ⟨⟨by simpa using hpositive, (restartTimer_clock hknown hpositive).1, ?_,
        fun _ => by simpa using hagree⟩,
        (polls_restartTimer_iff hknown hpositive (hsubs' ▸ hsubs)).2 hagree⟩
      simp [← hs', hbound, hsubs]
    have hrun : State.onVisibilityChange { s with hidden := !s.hidden } = s'.restartTimer ∨
        State.onVisibilityChange { s with hidden := !s.hidden } = s'.restartTimer.tick := by
      have hchanged : ¬ s.hidden = s.visible := by
        rw [hvisible]
        cases s.hidden <;> simp
      unfold State.onVisibilityChange
      simp only [Bool.not_not, hs']
      rw [if_neg hchanged]
      split
      · exact .inr rfl
      · exact .inl rfl
    rcases hrun with hrun | hrun <;> rw [hrun]
    · exact hrestarted
    · exact ⟨hrestarted.1.of_tick, polls_tick.2 hrestarted.2⟩

/-- **What a step keeps**, the subscribers coming as they should. -/
theorem Watching.step (h : Watching s) (hpolls : Polls s) (hpos : e.Positive) (hsees : Sees s e)
    (hstep : PollStore.step s e = some t) : Watching t := by
  cases e with
  | subscribe intervalMs =>
      obtain rfl := Option.some.inj hstep
      exact h.subscribe hpos hsees
  | unsubscribe id =>
      simp only [PollStore.step, Option.ite_none_right_eq_some, Option.some.injEq] at hstep
      obtain ⟨-, rfl⟩ := hstep
      exact (h.unsubscribe id).1
  | visibilityChange => exact (h.visibilityChange hpolls hstep).1
  | timer i =>
      simp only [PollStore.step, Option.ite_none_right_eq_some, Option.some.injEq] at hstep
      obtain ⟨-, rfl⟩ := hstep
      exact h.of_tick
  | refresh =>
      obtain rfl := Option.some.inj hstep
      unfold State.refresh
      split
      · exact h
      · exact h.of_tick
  | resolved k next =>
      simp only [PollStore.step, Option.ite_none_right_eq_some, Option.some.injEq] at hstep
      obtain ⟨-, rfl⟩ := hstep
      exact (watching_congr (t := s.resolved k next) (s := s) rfl rfl rfl rfl rfl).1.2 h
  | failed k =>
      simp only [PollStore.step, Option.ite_none_right_eq_some, Option.some.injEq] at hstep
      obtain ⟨-, rfl⟩ := hstep
      exact (watching_congr (t := s.failed k) (s := s) rfl rfl rfl rfl rfl).1.2 h

/-- **When a step keeps the timer right.** -/
theorem Watching.polls_iff_of_step (h : Watching s) (hpolls : Polls s) (hpos : e.Positive)
    (hstep : PollStore.step s e = some t) : Polls t ↔ Sees s e := by
  cases e with
  | subscribe intervalMs =>
      obtain rfl := Option.some.inj hstep
      exact h.polls_subscribe_iff hpos
  | unsubscribe id =>
      simp only [PollStore.step, Option.ite_none_right_eq_some, Option.some.injEq] at hstep
      obtain ⟨-, rfl⟩ := hstep
      exact iff_of_true (h.unsubscribe id).2 trivial
  | visibilityChange => exact iff_of_true (h.visibilityChange hpolls hstep).2 trivial
  | timer i =>
      simp only [PollStore.step, Option.ite_none_right_eq_some, Option.some.injEq] at hstep
      obtain ⟨-, rfl⟩ := hstep
      exact iff_of_true (polls_tick.2 hpolls) trivial
  | refresh =>
      obtain rfl := Option.some.inj hstep
      refine iff_of_true ?_ trivial
      unfold State.refresh
      split
      · exact hpolls
      · exact polls_tick.2 hpolls
  | resolved k next =>
      simp only [PollStore.step, Option.ite_none_right_eq_some, Option.some.injEq] at hstep
      obtain ⟨-, rfl⟩ := hstep
      exact iff_of_true ((watching_congr rfl rfl rfl rfl rfl).2.2 hpolls) trivial
  | failed k =>
      simp only [PollStore.step, Option.ite_none_right_eq_some, Option.some.injEq] at hstep
      obtain ⟨-, rfl⟩ := hstep
      exact iff_of_true ((watching_congr rfl rfl rfl rfl rfl).2.2 hpolls) trivial

/-- **The timer runs exactly when it is needed**: so it is in every state of a
run exactly if whoever comes to the empty store finds the page as hidden or shown
as the store last saw it. -/
theorem polls_iff {hidden : Bool} {es : List (Event V)} (hrun : Run step (.created hidden) es t)
    (hpos : ∀ e ∈ es, e.Positive) :
    Throughout step Polls (.created hidden) es ↔ Always step Sees (.created hidden) es := by
  refine hrun.throughout_iff_always_of_placed hpos (I := Watching) ⟨?_, rfl, ?_, ?_⟩ ?_
    (fun u e v he hu hpolls hsees hstep => hu.step hpolls he hsees hstep)
    fun u e v he hu hpolls hstep => hu.polls_iff_of_step hpolls he hstep
  · simp [State.created]
  · simp [State.created]
  · simp [State.created]
  · exact ⟨fun hsome => absurd rfl hsome.1, fun _ => rfl⟩

/-- The page is hidden and shown again while somebody listens. -/
theorem polls_iff_hidden_and_shown :
    Throughout step Polls (.created (V := ℕ) false)
      [.subscribe 1000, .subscribe 500, .visibilityChange, .unsubscribe 1, .visibilityChange] :=
  (polls_iff (Run.of_foldlM rfl) (by decide +kernel)).2 (by decide +kernel)

/-- **Left, hidden and come back to**: the timer runs on a hidden page. Shown again
with nobody there, it does not run on a page that is shown. -/
theorem hidden_while_away :
    ¬ Throughout step Polls (.created (V := ℕ) false)
        [.subscribe 1000, .unsubscribe 0, .visibilityChange, .subscribe 1000] ∧
      ¬ Throughout step Polls (.created (V := ℕ) false)
        [.subscribe 1000, .visibilityChange, .unsubscribe 0, .visibilityChange,
          .subscribe 1000] := by
  refine ⟨fun h => ?_, fun h => ?_⟩
  · have hlast := ((((h.2 _ rfl).2 _ rfl).2 _ rfl).2 _ rfl).2 (by decide +kernel)
    exact absurd hlast (by decide +kernel)
  · obtain ⟨i, ms, hlast, -⟩ :=
      (((((h.2 _ rfl).2 _ rfl).2 _ rfl).2 _ rfl).2 _ rfl).1 (by decide +kernel)
    have hnone : ([] : List (ℕ × ℚ)) = [(i, ms)] := hlast
    cases hnone

end Timers

end PollStore

end OpenManet
