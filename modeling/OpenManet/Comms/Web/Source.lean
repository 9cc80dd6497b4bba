import OpenManet.Comms.Web.Model
/-!
# Web mode — the release that must arrive

`Push` drops an event that finds the channel full, the newest one, and the
newest one may be the release: what is left in the queue then ends in a
press. And a push that comes after the context is cancelled meets a channel
that has been closed under it. `Fits` excludes the two. In every run that
keeps to it, a release that is the last event pushed is the last event taken,
and `endTransmission` has the last word.
-/

namespace OpenManet

namespace Web

open Bridge (PTTEvent)

variable {Port Loop Stream : Type}
variable {ports : List Port} {web : Bool} {port : Loop → Port} {session : Port → Bool}
variable {s t : State Port Loop Stream}

/-- No push has met the closed channel; and while the context stands, with
every call returned and the queue drained, a release pushed last has ended
the transmission. -/
structure Delivered (s : State Port Loop Stream) : Prop where
  safe : s.panicked = false
  ended : s.canceled = false → s.run = .looping → s.radio.tx = .idle → s.queue = [] →
    s.lastPushed = some .up → s.radio.broadcasting = false

/-- A push does not come after the channel is closed, and a release does not
find it full, unless its newest event is a release too. -/
def Fits (s : State Port Loop Stream) : Action Port Loop Stream → Prop
  | .push ev => s.closed = false ∧
      (ev = .up → s.queue.length < eventDepth ∨ s.queue.getLast? = some .up)
  | _ => True

/-- The transmit path is done with a release, or about to be. -/
def Quiet (r : HalfDuplex.State Port Loop) : Prop :=
  (r.tx = .idle ∧ r.broadcasting = false) ∨ r.tx = .ending ∨ r.tx = .stopping

/-- A release pushed last is the newest event, or it has been taken. -/
def Underway (s : State Port Loop Stream) : Prop :=
  s.lastPushed = some .up →
    s.queue.getLast? = some .up ∨ (s.queue = [] ∧ s.run ≠ .toggling ∧ Quiet s.radio)

theorem Underway.delivered (h : Underway s) (hsafe : s.panicked = false) : Delivered s := by
  refine ⟨hsafe, fun _ _ htx hqueue hlast => ?_⟩
  rcases h hlast with hnewest | ⟨-, -, hquiet⟩
  · rw [hqueue] at hnewest
    cases hnewest
  · rcases hquiet with ⟨-, hoff⟩ | hend | hstop
    · exact hoff
    · rw [htx] at hend
      cases hend
    · rw [htx] at hstop
      cases hstop

variable [DecidableEq Port] [DecidableEq Loop] [DecidableEq Stream]

/-! ## The radio's steps -/

/-- The receive loops and the decay loop leave the transmit path alone. -/
theorem stepMark_tx (r : HalfDuplex.State Port Loop) (l : Loop) :
    (HalfDuplex.stepMark port r l).tx = r.tx ∧
      (HalfDuplex.stepMark port r l).broadcasting = r.broadcasting := by
  unfold HalfDuplex.stepMark
  cases r.loops l with
  | idle => exact ⟨rfl, rfl⟩
  | stamped => dsimp only; split <;> exact ⟨rfl, rfl⟩
  | priming => exact ⟨rfl, rfl⟩

omit [DecidableEq Port] [DecidableEq Loop] in
theorem stepDecay_tx (r : HalfDuplex.State Port Loop) :
    (HalfDuplex.stepDecay ports r).tx = r.tx ∧
      (HalfDuplex.stepDecay ports r).broadcasting = r.broadcasting := by
  unfold HalfDuplex.stepDecay
  repeat' split
  all_goals exact ⟨rfl, rfl⟩

/-- Between two calls the radio stays done with a release. -/
theorem Quiet.radio {r r' : HalfDuplex.State Port Loop} {a : HalfDuplex.Action Port Loop}
    (h : Quiet r) (hcall : isCall a = false)
    (hstep : HalfDuplex.step ports web port r a = some r') : Quiet r' := by
  cases a with
  | down => cases hcall
  | up => cases hcall
  | tx stream =>
      simp only [HalfDuplex.step, HalfDuplex.stepTx] at hstep
      rcases h with ⟨htx, -⟩ | htx | htx
      · rw [htx] at hstep
        cases hstep
      · rw [htx] at hstep
        obtain rfl := Option.some.inj hstep
        exact .inr (.inr rfl)
      · rw [htx] at hstep
        obtain rfl := Option.some.inj hstep
        exact .inl ⟨rfl, rfl⟩
  | mark l =>
      obtain rfl := Option.some.inj hstep
      unfold Quiet
      rw [(stepMark_tx r l).1, (stepMark_tx r l).2]
      exact h
  | setSend p enabled =>
      obtain rfl := Option.some.inj hstep
      exact h
  | decay =>
      obtain rfl := Option.some.inj hstep
      unfold Quiet
      rw [(stepDecay_tx r).1, (stepDecay_tx r).2]
      exact h
  | expire p =>
      obtain rfl := Option.some.inj hstep
      exact h

/-- `endTransmission` has found nothing to end, or ends it. -/
theorem quiet_up {r r' : HalfDuplex.State Port Loop}
    (h : HalfDuplex.step ports web port r .up = some r') : Quiet r' := by
  simp only [HalfDuplex.step] at h
  split at h
  · obtain rfl := Option.some.inj h
    unfold Quiet
    cases r.broadcasting with
    | false => exact .inl ⟨rfl, rfl⟩
    | true =>
        cases web with
        | false => exact .inr (.inl rfl)
        | true => exact .inr (.inr rfl)
  · cases h

/-- A call changes the radio and sends `Run` back to its loop. -/
theorem call_eq_some {a : HalfDuplex.Action Port Loop} (h : call ports web port s a = some t) :
    ∃ radio, HalfDuplex.step ports web port s.radio a = some radio ∧
      t = { s with radio := radio, run := .looping } := by
  obtain ⟨radio, hradio, rfl⟩ := Option.map_eq_some_iff.1 h
  exact ⟨radio, hradio, rfl⟩

/-! ## One step -/

/-- The channel is closed only under a cancelled context, and no step but a
push onto the closed channel panics. -/
theorem underway_push {ev : PTTEvent} (hfits : Fits s (.push ev))
    (hstep : step ports web port session s (.push ev) = some t) :
    Underway t ∧ t.panicked = s.panicked := by
  obtain ⟨hopen, hroom⟩ := hfits
  simp only [step, hopen, Bool.false_eq_true, if_false] at hstep
  split at hstep
  · obtain rfl := Option.some.inj hstep
    refine ⟨fun hlast => .inl ?_, rfl⟩
    rw [Option.some.inj hlast]
    exact List.getLast?_concat ..
  · rename_i hfull
    obtain rfl := Option.some.inj hstep
    exact ⟨fun hlast => .inl ((hroom (Option.some.inj hlast)).resolve_left hfull), rfl⟩

/-- `Run` takes an event. -/
theorem underway_take (h : Underway s) (hstep : step ports web port session s .take = some t) :
    Underway t ∧ t.panicked = s.panicked := by
  simp only [step] at hstep
  split at hstep
  case h_2 => cases hstep
  rename_i ev rest hrun htx hqueue
  -- the release is behind the event taken, or is the event taken
  have hcase : s.lastPushed = some .up → rest.getLast? = some .up ∨ (rest = [] ∧ ev = .up) := by
    intro hlast
    rcases h hlast with hnewest | ⟨hempty, -⟩
    · rw [hqueue] at hnewest
      cases rest with
      | nil => exact .inr ⟨rfl, Option.some.inj hnewest⟩
      | cons e rest => exact .inl (by rwa [List.getLast?_cons_cons] at hnewest)
    · rw [hqueue] at hempty
      cases hempty
  cases ev with
  | down =>
      obtain ⟨radio, -, rfl⟩ := call_eq_some hstep
      refine ⟨fun hlast => .inl ((hcase hlast).resolve_right fun hup => ?_), rfl⟩
      cases hup.2
  | up =>
      obtain ⟨radio, hradio, rfl⟩ := call_eq_some hstep
      refine ⟨fun hlast => (hcase hlast).imp id fun hup => ?_, rfl⟩
      exact ⟨hup.1, by simp, quiet_up hradio⟩
  | toggle =>
      obtain rfl := Option.some.inj hstep
      refine ⟨fun hlast => .inl ((hcase hlast).resolve_right fun hup => ?_), rfl⟩
      cases hup.2

/-- A step that leaves the channel, the run loop and the radio alone. -/
theorem Underway.congr (h : Underway s) (hqueue : t.queue = s.queue) (hrun : t.run = s.run)
    (hradio : t.radio = s.radio) (hlast : t.lastPushed = s.lastPushed) : Underway t := by
  unfold Underway
  rw [hqueue, hrun, hradio, hlast]
  exact h

/-- **One step.** -/
theorem underway_step {a : Action Port Loop Stream} (h : Underway s) (hfits : Fits s a)
    (hstep : step ports web port session s a = some t) : Underway t ∧ t.panicked = s.panicked := by
  cases a with
  | push ev => exact underway_push hfits hstep
  | take => exact underway_take h hstep
  | cancel =>
      obtain rfl := Option.some.inj hstep
      exact ⟨h.congr rfl rfl rfl rfl, rfl⟩
  | close =>
      obtain ⟨-, heq⟩ := Option.ite_none_right_eq_some.1 hstep
      obtain rfl := Option.some.inj heq
      exact ⟨h.congr rfl rfl rfl rfl, rfl⟩
  | toggle =>
      simp only [step] at hstep
      split at hstep
      case h_2 => cases hstep
      rename_i hrun
      obtain ⟨radio, -, rfl⟩ := call_eq_some hstep
      -- a toggle under way was pushed before the release
      exact ⟨fun hlast => .inl ((h hlast).resolve_right fun hdone => hdone.2.1 hrun), rfl⟩
  | exit =>
      simp only [step] at hstep
      split at hstep
      case h_2 => cases hstep
      obtain ⟨-, heq⟩ := Option.ite_none_right_eq_some.1 hstep
      obtain rfl := Option.some.inj heq
      exact ⟨fun hlast => (h hlast).imp_right fun hdone => ⟨hdone.1, nofun, hdone.2.2⟩, rfl⟩
  | radio a =>
      obtain ⟨hcall, heq⟩ := Option.ite_none_left_eq_some.1 hstep
      obtain ⟨radio, hradio, rfl⟩ := Option.map_eq_some_iff.1 heq
      refine ⟨fun hlast => (h hlast).imp_right fun hdone => ?_, rfl⟩
      exact ⟨hdone.1, hdone.2.1, hdone.2.2.radio (by simpa using hcall) hradio⟩
  | inject stream opusData =>
      simp only [step] at hstep
      split at hstep
      case h_2 => cases hstep
      obtain rfl := Option.some.inj hstep
      exact ⟨h.congr rfl rfl rfl rfl, rfl⟩
  | send stream =>
      simp only [step] at hstep
      split at hstep
      case h_2 => cases hstep
      obtain rfl := Option.some.inj hstep
      exact ⟨h.congr rfl rfl rfl rfl, rfl⟩
  | sent stream =>
      simp only [step] at hstep
      split at hstep
      case h_2 => cases hstep
      obtain rfl := Option.some.inj hstep
      exact ⟨h.congr rfl rfl rfl rfl, rfl⟩

/-! ## Runs -/

/-- **The release arrives**, in every run whose pushes fit: throughout, no
push meets the closed channel, and while the context stands a release pushed
last has ended the transmission by the time the queue is drained. -/
theorem release_delivered (ports : List Port) (web : Bool) (port : Loop → Port)
    (session : Port → Bool) (sendEnabled : Port → Bool) {as : List (Action Port Loop Stream)}
    {s : State Port Loop Stream} (hrun : Run (step ports web port session) (fresh sendEnabled) as s)
    (hfits : Always (step ports web port session) Fits (fresh sendEnabled) as) :
    Delivered s := by
  have hinv : Underway s ∧ s.panicked = false :=
    hrun.invariant (I := fun u => Underway u ∧ u.panicked = false) hfits ⟨nofun, rfl⟩
      fun u a v hu hfits hv => by
        obtain ⟨hnext, hsame⟩ := underway_step hu.1 hfits hv
        exact ⟨hnext, hsame.trans hu.2⟩
  exact hinv.1.delivered hinv.2

/-- A press and a release while the loop keeps up. -/
theorem release_delivered_kept_up :
    ∃ s : State Unit Unit Unit, Run (step [()] true id fun _ => true) (fresh fun _ => true)
        [.push .down, .take, .push .up, .radio (.tx true), .radio (.tx true), .take,
          .radio (.tx true)] s ∧ Delivered s := by
  have hrun : Run (step [()] true id fun _ => true) (fresh fun _ => true : State Unit Unit Unit)
      [.push .down, .take, .push .up, .radio (.tx true), .radio (.tx true), .take,
        .radio (.tx true)] _ := Run.of_foldlM rfl
  refine ⟨_, hrun, release_delivered _ _ _ _ _ hrun ?_⟩
  refine Always.cons ⟨rfl, nofun⟩ rfl (Always.cons trivial rfl (Always.cons ⟨rfl, fun _ => .inl ?_⟩
    rfl (Always.cons trivial rfl (Always.cons trivial rfl (Always.cons trivial rfl
    (Always.cons trivial rfl trivial))))))
  decide

/-- **A release dropped.** While the first press is being taken four more
events fill the channel, a press the newest, and the release after them finds
no room: the loop drains the queue and talks on. **And a push after the
end**: the channel is closed, and the push panics. -/
theorem release_dropped :
    (∃ s : State Unit Unit Unit, Run (step [()] true id fun _ => true) (fresh fun _ => true)
        [.push .down, .take, .push .up, .push .down, .push .up, .push .down, .push .up,
          .radio (.tx true), .radio (.tx true), .take, .radio (.tx true), .take, .radio (.tx true),
          .radio (.tx true), .take, .radio (.tx true), .take, .radio (.tx true),
          .radio (.tx true)] s ∧
      s.lastPushed = some .up ∧ s.queue = [] ∧ s.radio.broadcasting = true ∧ ¬ Delivered s) ∧
    ∃ s : State Unit Unit Unit, Run (step [()] true id fun _ => true) (fresh fun _ => true)
        [.cancel, .close, .push .up] s ∧ s.panicked = true ∧ ¬ Delivered s := by
  refine ⟨⟨_, Run.of_foldlM rfl, rfl, rfl, rfl, fun h => ?_⟩,
    ⟨_, Run.of_foldlM rfl, rfl, fun h => ?_⟩⟩
  · exact absurd (h.ended rfl rfl rfl rfl rfl) (by decide)
  · exact absurd h.safe (by decide)

end Web

end OpenManet
