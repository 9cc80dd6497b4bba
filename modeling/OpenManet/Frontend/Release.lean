import OpenManet.Frontend.Comms
/-!
# The browser — releasing the key

Every release handler turns the key off where it is on, and every press
handler that runs at once is the press of something that is still held. One
press does not run at once: the space bar's goes on behind `initAudio`, and by
then the bar may be up and nothing else down. That press turns the key on with
nobody left to turn it off. There is no other way: the key is attended
throughout exactly when the space bar's presses go on with something held.

The page drives the microphone through the calls `AudioEngine` has, so what is
said of its runs holds of the page's.
-/

namespace OpenManet

namespace Comms

variable {s t u : State}

/-- The byte that says whether the key is on. -/
def pttByte : Bool → UInt8
  | true => PTT_DOWN
  | false => PTT_UP

/-- The key is let be. -/
structure Quiet (s t : State) : Prop where
  wsOpen : t.wsOpen = s.wsOpen
  pttActive : t.pttActive = s.pttActive
  pttActiveRef : t.pttActiveRef = s.pttActiveRef
  sent : t.sent = s.sent
  held : t.held = s.held

/-- The key is turned on, or off, and the node is told where it can be. -/
structure Keyed (active : Bool) (s t : State) : Prop where
  wsOpen : t.wsOpen = s.wsOpen
  pttActive : t.pttActive = active
  pttActiveRef : t.pttActiveRef = active
  sent : t.sent = if s.wsOpen then pttByte active :: s.sent else s.sent
  held : t.held = s.held

/-- The state and the node know of the key what the ref does. -/
structure Heard (s : State) : Prop where
  active : s.pttActive = s.pttActiveRef
  closed : s.wsOpen = false → s.sent = []
  last : s.sent = [] ∨ s.sent.head? = some (pttByte s.pttActiveRef)

/-- While the key is on, something is held or a file plays. -/
def Attended (s : State) : Prop := s.pttActiveRef = true → s.held = true

/-- A press of the space bar goes on while something is held. -/
def InHand (s : State) : Action → Prop
  | .microtask => s.ready.head? = some .handleKeyDown → s.someTx = true → s.held = true
  | _ => True

/-! ## What the handlers do to the key -/

theorem Quiet.trans (h : Quiet s t) (h' : Quiet t u) : Quiet s u where
  wsOpen := h'.wsOpen.trans h.wsOpen
  pttActive := h'.pttActive.trans h.pttActive
  pttActiveRef := h'.pttActiveRef.trans h.pttActiveRef
  sent := h'.sent.trans h.sent
  held := h'.held.trans h.held

theorem Keyed.quiet {active : Bool} (h : Keyed active s t) (h' : Quiet t u) : Keyed active s u where
  wsOpen := h'.wsOpen.trans h.wsOpen
  pttActive := h'.pttActive.trans h.pttActive
  pttActiveRef := h'.pttActiveRef.trans h.pttActiveRef
  sent := h'.sent.trans h.sent
  held := h'.held.trans h.held

theorem quiet_initAudioOnce (s : State) (k : List Continuation) : Quiet s (s.initAudioOnce k) := by
  unfold State.initAudioOnce
  split <;> exact ⟨rfl, rfl, rfl, rfl, rfl⟩

/-- Turning the key and telling the node. -/
theorem keyed_send (s : State) (active : Bool) (engine : AudioEngine.State) :
    Keyed active s ({ s.setPttActive active with engine }.sendByte (pttByte active)) := by
  cases hopen : s.wsOpen with
  | true => exact ⟨by simp [State.sendByte, State.setPttActive, hopen],
      by simp [State.sendByte, State.setPttActive, hopen],
      by simp [State.sendByte, State.setPttActive, hopen],
      by simp [State.sendByte, State.setPttActive, hopen],
      by simp [State.sendByte, State.setPttActive, hopen, State.held]⟩
  | false => exact ⟨by simp [State.sendByte, State.setPttActive, hopen],
      by simp [State.sendByte, State.setPttActive, hopen],
      by simp [State.sendByte, State.setPttActive, hopen],
      by simp [State.sendByte, State.setPttActive, hopen],
      by simp [State.sendByte, State.setPttActive, hopen, State.held]⟩

/-- `pttDown` turns the key on where it is off and some TX channel is
enabled. -/
theorem pttDown_cases (s : State) :
    (s.pttDown = s ∧ (s.pttActiveRef = true ∨ s.someTx = false)) ∨
    (s.pttActiveRef = false ∧ s.someTx = true ∧ Keyed true s s.pttDown) := by
  unfold State.pttDown
  split
  · next hactive => exact .inl ⟨rfl, .inl hactive⟩
  · next hidle =>
    split
    · next htx => exact .inl ⟨rfl, .inr (by simpa using htx)⟩
    · next htx =>
      exact .inr ⟨by simpa using hidle, by simpa using htx,
        (keyed_send s true s.engine).quiet (quiet_initAudioOnce ..)⟩

/-- `pttUp` leaves it off. -/
theorem pttUp_cases (s : State) :
    (s.pttUp = s ∧ s.pttActiveRef = false) ∨ Keyed false s s.pttUp := by
  unfold State.pttUp
  split
  · next hidle => exact .inl ⟨rfl, by simpa using hidle⟩
  · exact .inr (keyed_send s false _)

theorem keyed_handleFilePttSet (s : State) (active : Bool) :
    Keyed active s (s.handleFilePttSet active) := by
  have hsend := keyed_send s active
    { s.engine with onEncodedChunk := if active then some .file else none }
  cases active <;> exact hsend

theorem quiet_refl (s : State) : Quiet s s := ⟨rfl, rfl, rfl, rfl, rfl⟩

/-- `handleKeyDown` does not turn the key: that is behind its `await`. -/
theorem quiet_handleKeyDown (s : State) (repeated editable : Bool) :
    Quiet s (s.handleKeyDown repeated editable) := by
  unfold State.handleKeyDown
  split
  · split
    · exact quiet_refl s
    · exact (show Quiet s { s with spaceDownRef := true } from ⟨rfl, rfl, rfl, rfl, rfl⟩).trans
        (quiet_initAudioOnce ..)
  · exact quiet_refl s

/-- Pressing and letting go alone tells nobody anything. -/
theorem Heard.hands (h : Heard s) (space mouse playing spaceDownRef : Bool) (touches : ℕ) :
    Heard { s with space, mouse, touches, playing, spaceDownRef } :=
  ⟨h.active, h.closed, h.last⟩

theorem Heard.quiet (h : Heard s) (hquiet : Quiet s t) : Heard t where
  active := by rw [hquiet.pttActive, hquiet.pttActiveRef]; exact h.active
  closed hclosed := by rw [hquiet.sent]; exact h.closed (hquiet.wsOpen ▸ hclosed)
  last := by rw [hquiet.sent, hquiet.pttActiveRef]; exact h.last

theorem Heard.keyed {active : Bool} (h : Heard s) (hkeyed : Keyed active s t) : Heard t where
  active := hkeyed.pttActive.trans hkeyed.pttActiveRef.symm
  closed hclosed := by
    have hopen : s.wsOpen = false := hkeyed.wsOpen ▸ hclosed
    rw [hkeyed.sent, hopen]
    exact h.closed hopen
  last := by
    rw [hkeyed.sent, hkeyed.pttActiveRef]
    cases hopen : s.wsOpen with
    | true => exact .inr rfl
    | false => exact .inl (h.closed hopen)

theorem Heard.pttDown (h : Heard s) : Heard s.pttDown := by
  rcases pttDown_cases s with ⟨heq, -⟩ | ⟨-, -, hkeyed⟩
  · rwa [heq]
  · exact h.keyed hkeyed

theorem Heard.pttUp (h : Heard s) : Heard s.pttUp := by
  rcases pttUp_cases s with ⟨heq, -⟩ | hkeyed
  · rwa [heq]
  · exact h.keyed hkeyed

theorem pttUp_off (s : State) : s.pttUp.pttActiveRef = false := by
  rcases pttUp_cases s with ⟨heq, hoff⟩ | hkeyed
  · rwa [heq]
  · exact hkeyed.pttActiveRef

theorem pttDown_held (s : State) : s.pttDown.held = s.held := by
  rcases pttDown_cases s with ⟨heq, -⟩ | ⟨-, -, hkeyed⟩
  · rw [heq]
  · exact hkeyed.held

/-! ## One step -/

theorem onEvent_eq_some (h : onEvent s u = some t) : t = u :=
  (Option.some.inj (Option.ite_none_right_eq_some.1 h).2).symm

theorem Heard.step {a : Action} (h : Heard s) (hstep : Comms.step s a = some t) : Heard t := by
  cases a with
  | click =>
      obtain rfl := onEvent_eq_some hstep
      exact h.quiet (quiet_initAudioOnce ..)
  | keyDown repeated editable =>
      obtain rfl := onEvent_eq_some hstep
      exact (h.hands true s.mouse s.playing s.spaceDownRef s.touches).quiet
        (quiet_handleKeyDown ..)
  | keyUp =>
      obtain rfl := onEvent_eq_some hstep
      exact (h.hands false s.mouse s.playing false s.touches).pttUp
  | mouseUp | mouseLeave =>
      obtain rfl := onEvent_eq_some hstep
      exact (h.hands s.space false s.playing s.spaceDownRef s.touches).pttUp
  | touchEnd | touchCancel =>
      obtain rfl := onEvent_eq_some hstep
      exact (h.hands s.space s.mouse s.playing s.spaceDownRef (s.touches - 1)).pttUp
  | mouseDown =>
      obtain rfl := onEvent_eq_some hstep
      exact (h.hands s.space true s.playing s.spaceDownRef s.touches).pttDown
  | touchStart =>
      obtain rfl := onEvent_eq_some hstep
      exact (h.hands s.space s.mouse s.playing s.spaceDownRef (s.touches + 1)).pttDown
  | play =>
      obtain ⟨-, heq⟩ := Option.ite_none_right_eq_some.1 hstep
      obtain rfl := onEvent_eq_some heq
      exact (h.hands s.space s.mouse true s.spaceDownRef s.touches).keyed
        (keyed_handleFilePttSet ..)
  | stop =>
      obtain ⟨-, heq⟩ := Option.ite_none_right_eq_some.1 hstep
      obtain rfl := onEvent_eq_some heq
      exact (h.hands s.space s.mouse false s.spaceDownRef s.touches).keyed
        (keyed_handleFilePttSet ..)
  | effect =>
      obtain rfl := Option.some.inj hstep
      exact h.quiet ⟨rfl, rfl, h.active, rfl, rfl⟩
  | microtask =>
      simp only [Comms.step] at hstep
      split at hstep
      · cases hstep
      · next k rest hready =>
        obtain rfl := Option.some.inj hstep
        have hrest : Heard { s with ready := rest } := h.quiet ⟨rfl, rfl, rfl, rfl, rfl⟩
        cases k with
        | handleKeyDown => exact hrest.pttDown
        | pttDown => exact hrest.quiet ⟨rfl, rfl, rfl, rfl, rfl⟩
  | initialized ok =>
      obtain ⟨-, heq⟩ := Option.ite_none_right_eq_some.1 hstep
      obtain rfl := onEvent_eq_some heq
      exact h.quiet ⟨rfl, rfl, rfl, rfl, rfl⟩
  | granted i | denied i =>
      obtain ⟨engine, -, heq⟩ := Option.bind_eq_some_iff.1 hstep
      obtain rfl := onEvent_eq_some heq
      exact h.quiet ⟨rfl, rfl, rfl, rfl, rfl⟩

theorem Attended.quiet (h : Attended s) (hquiet : Quiet s t) : Attended t := by
  intro hactive
  rw [hquiet.held]
  exact h (hquiet.pttActiveRef ▸ hactive)

/-- **Where a press of the space bar goes on**, the key stays attended exactly
when something is held. -/
theorem attended_pttDown (h : Attended s) :
    Attended s.pttDown ↔ (s.someTx = true → s.held = true) := by
  rcases pttDown_cases s with ⟨heq, hwhy⟩ | ⟨-, htx, hkeyed⟩
  · rw [heq]
    refine iff_of_true h fun htx => ?_
    rcases hwhy with hactive | hnone
    · exact h hactive
    · rw [htx] at hnone
      cases hnone
  · rw [Attended, hkeyed.pttActiveRef, hkeyed.held]
    exact ⟨fun hheld _ => hheld rfl, fun hheld _ => hheld htx⟩

/-- **One step** leaves the key attended exactly when a press that goes on is
in hand. -/
theorem attended_step {a : Action} (hheard : Heard s) (h : Attended s)
    (hstep : Comms.step s a = some t) : Attended t ↔ InHand s a := by
  cases a with
  | click =>
      obtain rfl := onEvent_eq_some hstep
      exact iff_of_true (h.quiet (quiet_initAudioOnce ..)) trivial
  | keyDown repeated editable =>
      obtain rfl := onEvent_eq_some hstep
      refine iff_of_true (fun _ => ?_) trivial
      rw [(quiet_handleKeyDown ..).held]
      simp [State.held]
  | keyUp | mouseUp | mouseLeave | touchEnd | touchCancel =>
      obtain rfl := onEvent_eq_some hstep
      exact iff_of_true (fun hactive => by cases (pttUp_off _).symm.trans hactive) trivial
  | mouseDown | touchStart =>
      obtain rfl := onEvent_eq_some hstep
      refine iff_of_true (fun _ => ?_) trivial
      rw [pttDown_held]
      simp [State.held]
  | play =>
      obtain ⟨-, heq⟩ := Option.ite_none_right_eq_some.1 hstep
      obtain rfl := onEvent_eq_some heq
      refine iff_of_true (fun _ => ?_) trivial
      rw [(keyed_handleFilePttSet ..).held]
      simp [State.held]
  | stop =>
      obtain ⟨-, heq⟩ := Option.ite_none_right_eq_some.1 hstep
      obtain rfl := onEvent_eq_some heq
      refine iff_of_true (fun hactive => ?_) trivial
      rw [(keyed_handleFilePttSet ..).pttActiveRef] at hactive
      cases hactive
  | effect =>
      obtain rfl := Option.some.inj hstep
      exact iff_of_true (h.quiet ⟨rfl, rfl, hheard.active, rfl, rfl⟩) trivial
  | microtask =>
      simp only [Comms.step] at hstep
      split at hstep
      · cases hstep
      · next k rest hready =>
        obtain rfl := Option.some.inj hstep
        have hrest : Attended { s with ready := rest } := h.quiet ⟨rfl, rfl, rfl, rfl, rfl⟩
        cases k with
        | handleKeyDown =>
            rw [InHand, hready]
            exact (attended_pttDown hrest).trans ⟨fun hheld _ => hheld, fun hheld => hheld rfl⟩
        | pttDown =>
            refine iff_of_true (hrest.quiet ⟨rfl, rfl, rfl, rfl, rfl⟩) ?_
            rw [InHand, hready]
            nofun
  | initialized ok =>
      obtain ⟨-, heq⟩ := Option.ite_none_right_eq_some.1 hstep
      obtain rfl := onEvent_eq_some heq
      exact iff_of_true (h.quiet ⟨rfl, rfl, rfl, rfl, rfl⟩) trivial
  | granted i | denied i =>
      obtain ⟨engine, -, heq⟩ := Option.bind_eq_some_iff.1 hstep
      obtain rfl := onEvent_eq_some heq
      exact iff_of_true (h.quiet ⟨rfl, rfl, rfl, rfl, rfl⟩) trivial

/-! ## Runs -/

variable {wsOpen audioContext mediaDevices : Bool} {txEnabled : ℕ → Bool}

theorem heard_mounted : Heard (mounted wsOpen audioContext mediaDevices txEnabled) :=
  ⟨rfl, fun _ => rfl, .inl rfl⟩

theorem attended_mounted : Attended (mounted wsOpen audioContext mediaDevices txEnabled) := nofun

/-- The key is attended throughout a run exactly when its presses of the
space bar go on in hand. -/
theorem attended_iff_inHand {as : List Action}
    (hrun : Run Comms.step (mounted wsOpen audioContext mediaDevices txEnabled) as s) :
    Throughout Comms.step Attended (mounted wsOpen audioContext mediaDevices txEnabled) as ↔
      Always Comms.step InHand (mounted wsOpen audioContext mediaDevices txEnabled) as :=
  hrun.throughout_iff_always heard_mounted attended_mounted (fun _ _ _ hu hv => hu.step hv)
    fun _ _ _ hu hatt hv => attended_step hu hatt hv

/-- **When releasing the key ends the transmission.** In every run in which a
press of the space bar goes on, behind `initAudio`, only while something is
held or a file plays: once nothing is and all promises have settled,
`pttActiveRef` is false, and the last PTT byte sent, if any, is `PTT_UP`. -/
theorem released_when_let_go {as : List Action}
    (hrun : Run Comms.step (mounted wsOpen audioContext mediaDevices txEnabled) as s)
    (hguard : Always Comms.step InHand (mounted wsOpen audioContext mediaDevices txEnabled) as)
    (hsettled : s.Settled) :
    s.pttActiveRef = false ∧ (s.sent = [] ∨ s.sent.head? = some PTT_UP) := by
  obtain ⟨hheard, hattended⟩ := hrun.invariant (I := fun u => Heard u ∧ Attended u) hguard
    ⟨heard_mounted, attended_mounted⟩
    fun u a v hu hg hv => ⟨hu.1.step hv, (attended_step hu.1 hu.2 hv).2 hg⟩
  have hoff : s.pttActiveRef = false := by
    cases hactive : s.pttActiveRef with
    | false => rfl
    | true =>
        have hheld := hattended hactive
        rw [hsettled.letGo] at hheld
        cases hheld
  have hlast := hheard.last
  rw [hoff] at hlast
  exact ⟨hoff, hlast⟩

/-- The page mounted in a browser with a microphone, channel 1 enabled. -/
def freshPage : State := mounted true true true fun ch => ch == 1

/-- The first press is by the space bar, held until the page transmits. -/
def heldSpace : List Action :=
  [.keyDown false false, .initialized true, .microtask, .microtask, .granted 0, .keyUp]

theorem released_when_let_go_heldSpace :
    ∃ s, Run Comms.step freshPage heldSpace s ∧ s.sent = [PTT_UP, PTT_DOWN] ∧
      s.pttActiveRef = false ∧ (s.sent = [] ∨ s.sent.head? = some PTT_UP) := by
  have hrun : Run Comms.step freshPage heldSpace _ := Run.of_foldlM rfl
  refine ⟨_, hrun, rfl, released_when_let_go hrun ?_ ⟨rfl, rfl, rfl, rfl⟩⟩
  exact Always.cons trivial rfl (Always.cons trivial rfl (Always.cons (fun _ _ => rfl) rfl
    (Always.cons (fun _ _ => rfl) rfl (Always.cons trivial rfl (Always.cons trivial rfl trivial)))))

/-- **A tap on the space bar, the first on the page.** The bar is up before
`initAudio` is through, the press goes on, and the page transmits. -/
theorem tap_keeps_transmitting :
    ∃ s, Run Comms.step freshPage
        [.keyDown false false, .keyUp, .initialized true, .microtask, .microtask, .granted 0] s ∧
      s.Settled ∧ s.pttActiveRef = true ∧ s.sent = [PTT_DOWN] :=
  ⟨_, Run.of_foldlM rfl, ⟨rfl, rfl, rfl, rfl⟩, rfl, rfl⟩

/-! ## Left alone -/

/-- A run that leaves the key and the hands as they are. -/
def Leaves (s : State) (as : List Action) (t : State) : Prop := Run Comms.step s as t ∧ Quiet s t

theorem Leaves.cons {a : Action} {as : List Action} (hstep : Comms.step s a = some t)
    (hquiet : Quiet s t) (h : Leaves t as u) : Leaves s (a :: as) u :=
  ⟨Run.cons hstep h.1, hquiet.trans h.2⟩

/-- The microtasks of a page whose key is on run out without touching it. -/
theorem ready_settles (hon : s.pttActiveRef = true) :
    ∃ as t, Leaves s as t ∧ t.ready = [] ∧ t.initializing = s.initializing := by
  induction hready : s.ready generalizing s with
  | nil => exact ⟨[], s, ⟨Run.nil s, quiet_refl s⟩, hready, rfl⟩
  | cons k rest ih =>
      obtain ⟨t, hstep, hquiet, hrest, hinit⟩ : ∃ t, Comms.step s .microtask = some t ∧
          Quiet s t ∧ t.ready = rest ∧ t.initializing = s.initializing := by
        refine ⟨{ s with ready := rest }.resume k, by simp [Comms.step, hready], ?_⟩
        cases k with
        | handleKeyDown =>
            have hsame : State.pttDown { s with ready := rest } = { s with ready := rest } := by
              simp [State.pttDown, hon]
            rw [State.resume, hsame]
            exact ⟨⟨rfl, rfl, rfl, rfl, rfl⟩, rfl, rfl⟩
        | pttDown => exact ⟨⟨rfl, rfl, rfl, rfl, rfl⟩, rfl, rfl⟩
      obtain ⟨as, u, hleaves, hu, huinit⟩ := ih (hquiet.pttActiveRef.trans hon) hrest
      exact ⟨_, u, hleaves.cons hstep hquiet, hu, huinit.trans hinit⟩

theorem Leaves.append {as bs : List Action} (h : Leaves s as t) (h' : Leaves t bs u) :
    Leaves s (as ++ bs) u := ⟨h.1.append h'.1, h.2.trans h'.2⟩

/-- The requests for the microphone may all be refused. -/
theorem pending_settles (hready : s.ready = []) :
    ∃ as t, Leaves s as t ∧ t.ready = [] ∧ t.initializing = s.initializing ∧
      t.engine.pending = [] := by
  induction hlen : s.engine.pending.length generalizing s with
  | zero =>
      exact ⟨[], s, ⟨Run.nil s, quiet_refl s⟩, hready, rfl, List.length_eq_zero_iff.1 hlen⟩
  | succ n ih =>
      have hdenied : Comms.step s (.denied 0) = some { s with engine := s.engine.settle 0 } := by
        simp [Comms.step, AudioEngine.step, hlen, onEvent, hready]
      have hone : (s.engine.settle 0).pending.length = n := by
        rw [AudioEngine.State.settle, List.length_eraseIdx_of_lt (by omega), hlen,
          Nat.add_sub_cancel]
      obtain ⟨as, t, hleaves, hrest⟩ := ih (s := { s with engine := s.engine.settle 0 }) hready hone
      exact ⟨_, t, hleaves.cons hdenied ⟨rfl, rfl, rfl, rfl, rfl⟩, hrest⟩

/-- **An unattended key stays on.** With nobody touching the page, all its
promises settle, and it transmits. -/
theorem unattended_settles (h : ¬ Attended s) :
    ∃ as t, Leaves s as t ∧ t.Settled ∧ t.pttActiveRef = true := by
  obtain ⟨hon, hheld⟩ := Classical.not_imp.1 h
  obtain ⟨as, t, htasks, hready, -⟩ := ready_settles hon
  obtain ⟨bs, u, hinit, huready, hdone⟩ : ∃ bs u, Leaves t bs u ∧ u.ready = [] ∧
      u.initializing = false := by
    cases hinit : t.initializing with
    | false => exact ⟨[], t, ⟨Run.nil t, quiet_refl t⟩, hready, hinit⟩
    | true =>
        have hthrows : Comms.step t (.initialized false) =
            some { t with initializing := false, waiting := [], ready := [] } := by
          simp [Comms.step, hinit, onEvent, hready]
        exact ⟨_, _, ⟨Run.cons hthrows (Run.nil _), ⟨rfl, rfl, rfl, rfl, rfl⟩⟩, rfl, rfl⟩
  obtain ⟨cs, v, hmics, hvready, hvdone, hvpending⟩ := pending_settles huready
  obtain ⟨hrun, hquiet⟩ := (htasks.append hinit).append hmics
  refine ⟨_, v, ⟨hrun, hquiet⟩, ⟨?_, hvready, hvdone.trans hdone, hvpending⟩, hquiet.pttActiveRef.trans hon⟩
  rw [hquiet.held]
  exact Bool.eq_false_iff.2 hheld

theorem unattended_settles_pressed : ∃ as t,
    Leaves { freshPage with pttActiveRef := true, ready := [.pttDown] } as t ∧ t.Settled ∧
      t.pttActiveRef = true :=
  unattended_settles fun h => absurd (h rfl) (by decide)

/-! ## The microphone under the page -/

/-- What happens between the two states is a run of the microphone's module. -/
def Drives (s t : State) : Prop := ∃ es, Run AudioEngine.step s.engine es t.engine

theorem drives_of_eq (h : t.engine = s.engine) : Drives s t := ⟨[], by rw [h]; exact Run.nil _⟩

theorem Drives.of_eq (h : Drives u t) (hengine : u.engine = s.engine) : Drives s t := by
  rwa [Drives, ← hengine]

theorem Drives.to_eq (h : Drives s u) (hengine : t.engine = u.engine) : Drives s t := by
  rwa [Drives, hengine]

theorem Drives.trans (h : Drives s t) (h' : Drives t u) : Drives s u := by
  obtain ⟨es, hes⟩ := h
  obtain ⟨es', hes'⟩ := h'
  exact ⟨es ++ es', hes.append hes'⟩

theorem sendByte_engine (s : State) (byte : UInt8) : (s.sendByte byte).engine = s.engine := by
  unfold State.sendByte
  split <;> rfl

theorem drives_initAudioOnce (s : State) (k : List Continuation) :
    Drives s (s.initAudioOnce k) := by
  unfold State.initAudioOnce
  split
  · exact drives_of_eq rfl
  · refine ⟨if s.audioContext then [.initAudio] else [], ?_⟩
    cases s.audioContext with
    | true => exact Run.of_foldlM rfl
    | false => exact Run.nil _

theorem drives_pttDown (s : State) : Drives s s.pttDown := by
  unfold State.pttDown
  split
  · exact drives_of_eq rfl
  · split
    · exact drives_of_eq rfl
    · exact (drives_initAudioOnce ..).of_eq (sendByte_engine ..)

theorem drives_pttUp (s : State) : Drives s s.pttUp := by
  unfold State.pttUp
  split
  · exact drives_of_eq rfl
  · refine Drives.to_eq ?_ (sendByte_engine ..)
    refine ⟨if s.voxEnabled then [.stopMic, .startMicMonitor] else [.stopMic], ?_⟩
    cases s.voxEnabled <;> exact Run.of_foldlM rfl

theorem drives_handleFilePttSet (s : State) (active : Bool) :
    Drives s (s.handleFilePttSet active) := by
  unfold State.handleFilePttSet
  refine Drives.to_eq ?_ (sendByte_engine ..)
  refine ⟨[if active then .setEncoderCallback else .clearEncoderCallback], ?_⟩
  cases active <;> exact Run.of_foldlM rfl

theorem drives_handleKeyDown (s : State) (repeated editable : Bool) :
    Drives s (s.handleKeyDown repeated editable) := by
  unfold State.handleKeyDown
  split
  · split
    · exact drives_of_eq rfl
    · exact (drives_initAudioOnce ..).of_eq rfl
  · exact drives_of_eq rfl

/-- A step of the page. -/
theorem drives_step {a : Action} (h : Comms.step s a = some t) : Drives s t := by
  cases a with
  | click =>
      obtain rfl := onEvent_eq_some h
      exact drives_initAudioOnce ..
  | keyDown repeated editable =>
      obtain rfl := onEvent_eq_some h
      exact (drives_handleKeyDown ..).of_eq rfl
  | keyUp =>
      obtain rfl := onEvent_eq_some h
      exact (drives_pttUp { s with space := false, spaceDownRef := false }).of_eq rfl
  | mouseUp | mouseLeave | touchEnd | touchCancel =>
      obtain rfl := onEvent_eq_some h
      exact (drives_pttUp _).of_eq rfl
  | mouseDown | touchStart =>
      obtain rfl := onEvent_eq_some h
      exact (drives_pttDown _).of_eq rfl
  | play | stop =>
      obtain ⟨-, heq⟩ := Option.ite_none_right_eq_some.1 h
      obtain rfl := onEvent_eq_some heq
      exact (drives_handleFilePttSet ..).of_eq rfl
  | effect =>
      obtain rfl := Option.some.inj h
      exact drives_of_eq rfl
  | microtask =>
      simp only [Comms.step] at h
      split at h
      · cases h
      · next k rest hready =>
        obtain rfl := Option.some.inj h
        cases k with
        | handleKeyDown => exact (drives_pttDown { s with ready := rest }).of_eq rfl
        | pttDown => exact ⟨[.startMic], Run.of_foldlM rfl⟩
  | initialized ok =>
      obtain ⟨-, heq⟩ := Option.ite_none_right_eq_some.1 h
      obtain rfl := onEvent_eq_some heq
      exact drives_of_eq rfl
  | granted i | denied i =>
      obtain ⟨engine, hengine, heq⟩ := Option.bind_eq_some_iff.1 h
      obtain rfl := onEvent_eq_some heq
      exact ⟨[_], Run.cons hengine (Run.nil _)⟩

/-- **The page runs the microphone.** What holds of every run of its module
holds under the page. -/
theorem drives_run {as : List Action} (h : Run Comms.step s as t) : Drives s t := by
  induction h with
  | nil s => exact drives_of_eq rfl
  | cons hfirst _ ih => exact (drives_step hfirst).trans ih

theorem drives_run_heldSpace : ∃ t, t.engine.stopAsked = true ∧ Drives freshPage t := by
  have hrun : Run Comms.step freshPage heldSpace _ := Run.of_foldlM rfl
  exact ⟨_, rfl, drives_run hrun⟩

end Comms

end OpenManet
