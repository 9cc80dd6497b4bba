import OpenManet.Lib.Machine
import Mathlib.Logic.Function.Basic
/-!
# The browser — the microphone

`services/audioEngine.js`. `startMic` and `startMicMonitor` ask the browser
for a stream unless one is open, and go on when it comes; `stopMic` stops the
stream that is open. A request that is under way is not open: `stopMic` does
not call it back, and a second start does not see it. So streams come to be
closed by nobody, and this says exactly when: a stream comes while another
one is open, or after the last thing asked for was to stop.

Streams are numbered as they come, calls of `startMic` as they are made.
`stopAsked` records whether the last call was `stopMic`; no function reads it.
-/

namespace OpenManet

namespace AudioEngine

/-- What the samples of a stream are for. -/
inductive Use where
  /-- `startMic`. -/
  | encode
  /-- `startMicMonitor`. -/
  | meter
deriving DecidableEq

/-- Whom an encoded frame is delivered to. -/
inductive Callback where
  /-- The callback of the call of `startMic` with this number. -/
  | mic (call : ℕ)
  /-- `setEncoderCallback`. -/
  | file
deriving DecidableEq

/-- The module state, as far as the microphone goes. -/
structure State where
  /-- `navigator.mediaDevices` is there. -/
  mediaDevices : Bool
  audioCtx : Bool
  micStream : Option ℕ
  /-- `micProcessor`, by what its `onaudioprocess` does. -/
  micProcessor : Option Use
  onEncodedChunk : Option Callback
  /-- The `getUserMedia` requests under way. -/
  pending : List Use
  /-- How many calls of `startMic` there have been. -/
  starts : ℕ
  /-- How many streams have come. -/
  acquired : ℕ
  /-- The streams whose tracks have been stopped. -/
  stopped : ℕ → Bool
  /-- The last call was `stopMic`. -/
  stopAsked : Bool

/-- What happens to the module. -/
inductive Action where
  | initAudio
  | startMic
  | startMicMonitor
  | stopMic
  | setEncoderCallback
  | clearEncoderCallback
  /-- The request at this place is granted. -/
  | granted (i : ℕ)
  | denied (i : ℕ)
  /-- The encoder has a frame. -/
  | output

/-- The call is a `startMic`. -/
def Action.isStartMic : Action → Bool
  | .startMic => true
  | _ => false

namespace State

variable (s : State)

/-- `startMic`, up to its `await`. -/
def startMic : State :=
  let s' := { s with
    onEncodedChunk := some (.mic s.starts), starts := s.starts + 1, stopAsked := false }
  if s.micStream.isSome then
    -- the monitor is open: its processor encodes from now on
    { s' with micProcessor := s.micProcessor.map fun _ => .encode }
  else if s.mediaDevices then { s' with pending := s.pending ++ [.encode] }
  else s'

/-- `startMicMonitor`, up to its `await`. -/
def startMicMonitor : State :=
  let s' := { s with stopAsked := false }
  if s.micStream.isSome then s'
  else if s.mediaDevices && s.audioCtx then { s' with pending := s.pending ++ [.meter] }
  else s'

/-- `stopMic`. -/
def stopMic : State :=
  { s with
    onEncodedChunk := none
    micProcessor := none
    stopped := match s.micStream with
      | some i => Function.update s.stopped i true
      | none => s.stopped
    micStream := none
    stopAsked := true }

/-- The rest of `startMic` or `startMicMonitor`. Without an audio context
there is an exception where the nodes are made, and it is caught. -/
def granted (use : Use) : State :=
  { s with
    micStream := some s.acquired
    acquired := s.acquired + 1
    micProcessor := if s.audioCtx then some use else s.micProcessor }

/-- The request at this place has settled. -/
def settle (i : ℕ) : State := { s with pending := s.pending.eraseIdx i }

/-- The stream has come, and its tracks run. -/
def Live (i : ℕ) : Prop := i < s.acquired ∧ s.stopped i = false

end State

/-- The machine. -/
def step (s : State) : Action → Option State
  | .initAudio => some { s with audioCtx := true }
  | .startMic => some s.startMic
  | .startMicMonitor => some s.startMicMonitor
  | .stopMic => some s.stopMic
  | .setEncoderCallback => some { s with onEncodedChunk := some .file }
  | .clearEncoderCallback => some { s with onEncodedChunk := none }
  | .granted i => s.pending[i]?.map fun use => (s.settle i).granted use
  | .denied i => if i < s.pending.length then some (s.settle i) else none
  | .output => some s

/-- The module as it is loaded. -/
def loaded (mediaDevices : Bool) : State where
  mediaDevices := mediaDevices
  audioCtx := false
  micStream := none
  micProcessor := none
  onEncodedChunk := none
  pending := []
  starts := 0
  acquired := 0
  stopped := fun _ => false
  stopAsked := false

/-! ## Streams -/

/-- The open stream runs, and none that has not come has been stopped. -/
structure Opened (s : State) : Prop where
  live : ∀ i, s.micStream = some i → s.Live i
  fresh : ∀ i, s.acquired ≤ i → s.stopped i = false

/-- A stream that runs is the open one, and there is none once asked to
stop. -/
structure Tidy (s : State) : Prop where
  opened : ∀ i, s.Live i → s.micStream = some i
  closed : s.stopAsked = true → s.micStream = none

/-- A stream comes while none is open, and not after all was asked to stop. -/
def InTime (s : State) : Action → Prop
  | .granted _ => s.micStream = none ∧ s.stopAsked = false
  | _ => True

variable {s t : State}

theorem opened_loaded (mediaDevices : Bool) : Opened (loaded mediaDevices) :=
  ⟨nofun, fun _ _ => rfl⟩

theorem tidy_loaded (mediaDevices : Bool) : Tidy (loaded mediaDevices) :=
  ⟨fun i hi => absurd hi.1 (Nat.not_lt_zero i), fun _ => rfl⟩

/-- What the calls that start leave as it was. -/
theorem startMic_same (s : State) : s.startMic.micStream = s.micStream ∧
    s.startMic.acquired = s.acquired ∧ s.startMic.stopped = s.stopped ∧
    s.startMic.stopAsked = false := by
  unfold State.startMic
  split
  · exact ⟨rfl, rfl, rfl, rfl⟩
  · split <;> exact ⟨rfl, rfl, rfl, rfl⟩

theorem startMicMonitor_same (s : State) : s.startMicMonitor.micStream = s.micStream ∧
    s.startMicMonitor.acquired = s.acquired ∧ s.startMicMonitor.stopped = s.stopped ∧
    s.startMicMonitor.stopAsked = false := by
  unfold State.startMicMonitor
  split
  · exact ⟨rfl, rfl, rfl, rfl⟩
  · split <;> exact ⟨rfl, rfl, rfl, rfl⟩

/-- Stopping stops the open stream and no other. -/
theorem stopMic_stopped (s : State) (i : ℕ) :
    s.stopMic.stopped i = true ↔ s.stopped i = true ∨ s.micStream = some i := by
  unfold State.stopMic
  cases hopen : s.micStream with
  | none => simp
  | some j =>
      by_cases hi : i = j
      · subst hi; simp
      · simp [Function.update_of_ne hi, Ne.symm hi]

theorem stopMic_live (s : State) (i : ℕ) :
    s.stopMic.Live i ↔ s.Live i ∧ s.micStream ≠ some i := by
  have hstopped := stopMic_stopped s i
  rw [State.Live, State.Live, and_assoc]
  refine and_congr_right fun _ => ?_
  rw [← Bool.not_eq_true, hstopped, not_or, Bool.not_eq_true]

/-- A step that leaves the streams alone keeps what there is to say of
them. -/
theorem Opened.congr (h : Opened s) (hstream : t.micStream = s.micStream)
    (hacquired : t.acquired = s.acquired) (hstopped : t.stopped = s.stopped) : Opened t := by
  constructor
  · intro i hi
    rw [hstream] at hi
    rw [State.Live, hacquired, hstopped]
    exact h.live i hi
  · intro i hi
    rw [hacquired] at hi
    rw [hstopped]
    exact h.fresh i hi

theorem Tidy.congr (h : Tidy s) (hstream : t.micStream = s.micStream)
    (hacquired : t.acquired = s.acquired) (hstopped : t.stopped = s.stopped)
    (hasked : t.stopAsked = true → s.stopAsked = true) : Tidy t := by
  constructor
  · intro i hi
    rw [State.Live, hacquired, hstopped] at hi
    rw [hstream]
    exact h.opened i hi
  · intro ht
    rw [hstream]
    exact h.closed (hasked ht)

theorem Opened.stopMic (h : Opened s) : Opened s.stopMic := by
  refine ⟨nofun, fun i hi => ?_⟩
  rw [← Bool.not_eq_true, stopMic_stopped, not_or, Bool.not_eq_true]
  refine ⟨h.fresh i hi, fun hopen => ?_⟩
  have hlt := (h.live i hopen).1
  exact absurd hlt (Nat.not_lt.2 hi)

theorem Tidy.stopMic (h : Tidy s) : Tidy s.stopMic := by
  refine ⟨fun i hi => ?_, fun _ => rfl⟩
  obtain ⟨hlive, hother⟩ := (stopMic_live s i).1 hi
  exact absurd (h.opened i hlive) hother

theorem granted_live (use : Use) (i : ℕ) (hfresh : s.stopped s.acquired = false) :
    (s.granted use).Live i ↔ s.Live i ∨ i = s.acquired := by
  simp only [State.Live, State.granted]
  by_cases hi : i = s.acquired
  · subst hi
    simp [hfresh]
  · have hlt : i < s.acquired + 1 ↔ i < s.acquired := by omega
    simp [hlt, hi]

theorem Opened.granted (h : Opened s) (use : Use) : Opened (s.granted use) := by
  refine ⟨fun i hi => ?_, fun i hi => h.fresh i (Nat.le_of_succ_le hi)⟩
  exact (granted_live use i (h.fresh _ (Nat.le_refl _))).2 (.inr (Option.some.inj hi).symm)

/-- **A stream that comes** is well come exactly when none is open and nobody
has asked to stop. -/
theorem tidy_granted (hopened : Opened s) (h : Tidy s) (use : Use) :
    Tidy (s.granted use) ↔ s.micStream = none ∧ s.stopAsked = false := by
  have hlive := fun i => granted_live use i (hopened.fresh _ (Nat.le_refl _))
  constructor
  · intro ht
    constructor
    · cases hopen : s.micStream with
      | none => rfl
      | some i =>
          have hi := hopened.live i hopen
          have := Option.some.inj (ht.opened i ((hlive i).2 (.inl hi)))
          exact absurd hi.1 (by omega)
    · cases hasked : s.stopAsked with
      | false => rfl
      | true => cases ht.closed hasked
  · rintro ⟨hclosed, hasked⟩
    refine ⟨fun i hi => ?_, fun ht => ?_⟩
    · rcases (hlive i).1 hi with hbefore | rfl
      · rw [h.opened i hbefore] at hclosed
        cases hclosed
      · rfl
    · rw [show (s.granted use).stopAsked = s.stopAsked from rfl, hasked] at ht
      cases ht

theorem Opened.step {a : Action} (h : Opened s) (hstep : AudioEngine.step s a = some t) :
    Opened t := by
  cases a with
  | initAudio | setEncoderCallback | clearEncoderCallback | output =>
      obtain rfl := Option.some.inj hstep
      exact h.congr rfl rfl rfl
  | startMic =>
      obtain rfl := Option.some.inj hstep
      obtain ⟨hstream, hacquired, hstopped, -⟩ := startMic_same s
      exact h.congr hstream hacquired hstopped
  | startMicMonitor =>
      obtain rfl := Option.some.inj hstep
      obtain ⟨hstream, hacquired, hstopped, -⟩ := startMicMonitor_same s
      exact h.congr hstream hacquired hstopped
  | stopMic =>
      obtain rfl := Option.some.inj hstep
      exact h.stopMic
  | granted i =>
      obtain ⟨use, -, rfl⟩ := Option.map_eq_some_iff.1 hstep
      exact Opened.granted (h.congr (t := s.settle i) rfl rfl rfl) use
  | denied i =>
      obtain ⟨-, heq⟩ := Option.ite_none_right_eq_some.1 hstep
      obtain rfl := Option.some.inj heq
      exact h.congr rfl rfl rfl

/-- **One step** leaves all tidy exactly when no stream comes out of time. -/
theorem tidy_step {a : Action} (hopened : Opened s) (h : Tidy s)
    (hstep : AudioEngine.step s a = some t) : Tidy t ↔ InTime s a := by
  cases a with
  | initAudio | setEncoderCallback | clearEncoderCallback | output =>
      obtain rfl := Option.some.inj hstep
      exact iff_of_true (h.congr rfl rfl rfl id) trivial
  | startMic =>
      obtain rfl := Option.some.inj hstep
      obtain ⟨hstream, hacquired, hstopped, hasked⟩ := startMic_same s
      refine iff_of_true (h.congr hstream hacquired hstopped fun ht => ?_) trivial
      rw [hasked] at ht
      cases ht
  | startMicMonitor =>
      obtain rfl := Option.some.inj hstep
      obtain ⟨hstream, hacquired, hstopped, hasked⟩ := startMicMonitor_same s
      refine iff_of_true (h.congr hstream hacquired hstopped fun ht => ?_) trivial
      rw [hasked] at ht
      cases ht
  | stopMic =>
      obtain rfl := Option.some.inj hstep
      exact iff_of_true h.stopMic trivial
  | granted i =>
      obtain ⟨use, -, rfl⟩ := Option.map_eq_some_iff.1 hstep
      exact tidy_granted (hopened.congr (t := s.settle i) rfl rfl rfl)
        (h.congr (t := s.settle i) rfl rfl rfl id) use
  | denied i =>
      obtain ⟨-, heq⟩ := Option.ite_none_right_eq_some.1 hstep
      obtain rfl := Option.some.inj heq
      exact iff_of_true (h.congr rfl rfl rfl id) trivial

/-- A run is tidy throughout exactly when every stream of it comes in time. -/
theorem tidy_iff_inTime {mediaDevices : Bool} {as : List Action}
    (hrun : Run AudioEngine.step (loaded mediaDevices) as s) :
    Throughout AudioEngine.step Tidy (loaded mediaDevices) as ↔
      Always AudioEngine.step InTime (loaded mediaDevices) as :=
  hrun.throughout_iff_always (opened_loaded _) (tidy_loaded _) (fun _ _ _ hu hv => hu.step hv)
    fun _ _ _ hu ht hv => tidy_step hu ht hv

/-- An untidy module stays untidy however the requests under way end: where
they are all refused, for one. -/
theorem untidy_settles (h : ¬ Tidy s) :
    ∃ as t, Run AudioEngine.step s as t ∧ t.pending = [] ∧ ¬ Tidy t := by
  induction hlen : s.pending.length generalizing s with
  | zero => exact ⟨[], s, Run.nil s, List.length_eq_zero_iff.1 hlen, h⟩
  | succ n ih =>
      have hdenied : AudioEngine.step s (.denied 0) =
          some (s.settle 0) := by
        simp [AudioEngine.step, hlen]
      have hbefore : ¬ Tidy (s.settle 0) := fun ht => h (Tidy.congr ht rfl rfl rfl id)
      have hone : (s.settle 0).pending.length = n := by
        rw [State.settle, List.length_eraseIdx_of_lt (by omega), hlen, Nat.add_sub_cancel]
      obtain ⟨as, t, hrun, hsettled, huntidy⟩ := ih hbefore hone
      exact ⟨.denied 0 :: as, t, Run.cons hdenied hrun, hsettled, huntidy⟩

/-! ## Frames -/

theorem startMic_starts (s : State) : s.startMic.starts = s.starts + 1 ∧
    s.startMic.onEncodedChunk = some (.mic s.starts) := by
  unfold State.startMic
  split
  · exact ⟨rfl, rfl⟩
  · split <;> exact ⟨rfl, rfl⟩

theorem startMicMonitor_starts (s : State) : s.startMicMonitor.starts = s.starts ∧
    s.startMicMonitor.onEncodedChunk = s.onEncodedChunk := by
  unfold State.startMicMonitor
  split
  · exact ⟨rfl, rfl⟩
  · split <;> exact ⟨rfl, rfl⟩

/-- What one step does to the callback and to the numbering of the calls. -/
theorem step_starts {a : Action} (hstep : AudioEngine.step s a = some t) :
    t.starts = s.starts + (if a.isStartMic then 1 else 0) ∧
    (t.onEncodedChunk = s.onEncodedChunk ∨ t.onEncodedChunk = none ∨
      t.onEncodedChunk = some .file ∨ t.onEncodedChunk = some (.mic s.starts)) := by
  cases a with
  | initAudio | setEncoderCallback | clearEncoderCallback | output | stopMic =>
      obtain rfl := Option.some.inj hstep
      refine ⟨rfl, ?_⟩
      simp [State.stopMic]
  | startMic =>
      obtain rfl := Option.some.inj hstep
      obtain ⟨hstarts, hchunk⟩ := startMic_starts s
      exact ⟨hstarts, .inr (.inr (.inr hchunk))⟩
  | startMicMonitor =>
      obtain rfl := Option.some.inj hstep
      obtain ⟨hstarts, hchunk⟩ := startMicMonitor_starts s
      exact ⟨hstarts, .inl hchunk⟩
  | granted i =>
      obtain ⟨use, -, rfl⟩ := Option.map_eq_some_iff.1 hstep
      exact ⟨rfl, .inl rfl⟩
  | denied i =>
      obtain ⟨-, heq⟩ := Option.ite_none_right_eq_some.1 hstep
      obtain rfl := Option.some.inj heq
      exact ⟨rfl, .inl rfl⟩

/-- The calls of `startMic` are numbered as they are made. -/
theorem starts_run {as : List Action} (hrun : Run AudioEngine.step s as t) :
    t.starts = s.starts + as.countP Action.isStartMic := by
  induction hrun with
  | nil s => rfl
  | cons hfirst _ ih =>
      rw [ih, (step_starts hfirst).1, List.countP_cons]
      omega

/-- The frames go to no call of `startMic` before this one. -/
def From (n : ℕ) (s : State) : Prop :=
  n ≤ s.starts ∧ ∀ call, s.onEncodedChunk = some (.mic call) → n ≤ call

theorem From.step {n : ℕ} {a : Action} (h : From n s)
    (hstep : AudioEngine.step s a = some t) : From n t := by
  obtain ⟨hstarts, hchunk⟩ := step_starts hstep
  refine ⟨by rw [hstarts]; exact Nat.le_trans h.1 (Nat.le_add_right ..), fun call hcall => ?_⟩
  rcases hchunk with hsame | hnone | hfile | hnew
  · exact h.2 call (hsame ▸ hcall)
  · rw [hnone] at hcall
    cases hcall
  · rw [hfile] at hcall
    cases hcall
  · rw [hnew] at hcall
    cases hcall
    exact h.1

/-- **No frame after the stop.** Once `stopMic` has been called after a call
of `startMic`, the encoder delivers nothing to that call's callback. -/
theorem silent_after_stopMic {mediaDevices : Bool} {bs cs ds : List Action}
    (hrun : Run AudioEngine.step (loaded mediaDevices)
      (bs ++ .startMic :: (cs ++ .stopMic :: ds)) s) :
    s.onEncodedChunk ≠ some (.mic (bs.countP Action.isStartMic)) := by
  obtain ⟨u, hbs, hrest⟩ := hrun.of_append
  rw [← List.cons_append] at hrest
  obtain ⟨w, hstart, hstop⟩ := hrest.of_append
  cases hstop with
  | cons hfirst hafter =>
      obtain rfl := Option.some.inj hfirst
      -- the call that is stopped has a number below the ones to come
      have hcalls : w.starts = bs.countP Action.isStartMic + 1 + cs.countP Action.isStartMic := by
        rw [starts_run hstart, starts_run hbs, List.countP_cons]
        simp only [loaded, Action.isStartMic, if_true]
        omega
      have hfrom : From (bs.countP Action.isStartMic + 1) w.stopMic :=
        ⟨by rw [show w.stopMic.starts = w.starts from rfl, hcalls]; omega, nofun⟩
      intro hcall
      have := (hafter.invariant_of_step hfrom fun _ _ _ hu hv => hu.step hv).2 _ hcall
      omega

/-! ## The microphone is closed when asked -/

/-- **When the microphone is closed as asked.** In every run in which each
stream comes while none is open and not after the last call was `stopMic`:
once all requests have settled, nothing runs if the last call was `stopMic`,
and otherwise at most one stream runs, which the next `stopMic` stops; and no
frame goes to a callback after the `stopMic` that followed its `startMic`. -/
theorem closed_when_asked {mediaDevices : Bool} {as : List Action}
    (hrun : Run AudioEngine.step (loaded mediaDevices) as s)
    (hguard : Always AudioEngine.step InTime (loaded mediaDevices) as) :
    (s.pending = [] →
      (s.stopAsked = true → ∀ i, ¬ s.Live i) ∧
      (s.stopAsked = false → (∀ i j, s.Live i → s.Live j → i = j) ∧
        ∀ i, s.Live i → s.stopMic.stopped i = true)) ∧
    ∀ bs cs ds, as = bs ++ .startMic :: (cs ++ .stopMic :: ds) →
      s.onEncodedChunk ≠ some (.mic (bs.countP Action.isStartMic)) := by
  have htidy : Tidy s := (hrun.invariant (I := fun u => Opened u ∧ Tidy u) hguard
    ⟨opened_loaded _, tidy_loaded _⟩
    fun u a v hu hg hv => ⟨hu.1.step hv, (tidy_step hu.1 hu.2 hv).2 hg⟩).2
  refine ⟨fun _ => ⟨fun hasked i hi => ?_, fun _ => ⟨fun i j hi hj => ?_, fun i hi => ?_⟩⟩, ?_⟩
  · have hopen := htidy.opened i hi
    rw [htidy.closed hasked] at hopen
    cases hopen
  · exact Option.some.inj ((htidy.opened i hi).symm.trans (htidy.opened j hj))
  · exact (stopMic_stopped s i).2 (.inr (htidy.opened i hi))
  · rintro bs cs ds rfl
    exact silent_after_stopMic hrun

/-- A press, held until the microphone is there, and a release. -/
def heldPress : List Action :=
  [.initAudio, .startMic, .granted 0, .output, .stopMic]

theorem closed_when_asked_heldPress :
    ∃ s, Run AudioEngine.step (loaded true) heldPress s ∧ s.acquired = 1 ∧ ¬ s.Live 0 ∧
      s.onEncodedChunk ≠ some (.mic 0) := by
  have hrun : Run AudioEngine.step (loaded true) heldPress _ := Run.of_foldlM rfl
  have hguard : Always AudioEngine.step InTime (loaded true) heldPress :=
    Always.cons trivial rfl (Always.cons trivial rfl (Always.cons ⟨rfl, rfl⟩ rfl
      (Always.cons trivial rfl (Always.cons trivial rfl trivial))))
  obtain ⟨hsettled, hsilent⟩ := closed_when_asked hrun hguard
  exact ⟨_, hrun, rfl, (hsettled rfl).1 rfl 0, hsilent [.initAudio] [.granted 0, .output] [] rfl⟩

/-- **A quick tap.** The request is granted after the release: everything has
settled, the last call was `stopMic`, and the microphone records. -/
theorem quick_tap_records :
    ∃ s, Run AudioEngine.step (loaded true) [.initAudio, .startMic, .stopMic, .granted 0] s ∧
      s.pending = [] ∧ s.stopAsked = true ∧ s.Live 0 :=
  ⟨_, Run.of_foldlM rfl, rfl, rfl, Nat.zero_lt_one, rfl⟩

end AudioEngine

end OpenManet
