import OpenManet.Comms.Web.Source
/-!
# Web mode — audio without the key

In hardware mode a gate in the capture stream keeps the microphone off the
mesh until `beginTransmission` opens it. In web mode there is no gate: a
frame goes to every send-enabled port whether or not `Broadcasting` is true,
so a press that was refused because the channel is busy silences nothing.

What is left is a rule for those who send: `Gated`. A frame comes while
`Broadcasting` is true, or while no port would take it and none is enabled
before it has passed. Runs that keep the rule put no unkeyed audio on the
mesh; a step that breaks it can always be followed to such audio.
-/

namespace OpenManet

namespace Web

variable {Port Loop Stream : Type}
variable {ports : List Port} {web : Bool} {port : Loop → Port} {session : Port → Bool}
variable {s t : State Port Loop Stream} {stream : Stream} {p : Port}

/-- Every frame handed to an RTP session was injected while `Broadcasting` was
true. -/
def Keyed (s : State Port Loop Stream) : Prop := ∀ frame ∈ s.handed, frame.keyed = true

variable (session) in
/-- The port takes the frames that come to it. -/
def Takes (s : State Port Loop Stream) (p : Port) : Prop :=
  (s.radio.sendEnabled p && session p) = true

variable (ports session) in
/-- A frame comes while `Broadcasting` is true or no port takes frames, and a
port with a session is not send-enabled while an unkeyed frame is on its way
to it. -/
def Gated (s : State Port Loop Stream) : Action Port Loop Stream → Prop
  | .inject _ _ => s.radio.broadcasting = true ∨ ∀ p ∈ ports, ¬ Takes session s p
  | .radio (.setSend p true) => session p = true →
      ∀ stream frame, s.inject stream = some frame → frame.keyed = false → p ∉ frame.ahead
  | _ => True

variable (session) in
/-- What gated runs keep: an unkeyed frame has no port ahead that takes it. -/
structure Silent (s : State Port Loop Stream) : Prop where
  keyed : Keyed s
  ahead : ∀ stream frame, s.inject stream = some frame → frame.keyed = false →
    ∀ p ∈ frame.ahead, ¬ Takes session s p

/-- A step that hands over no frame, moves none, and enables no port. -/
theorem Silent.mono (h : Silent session s) (hhanded : t.handed = s.handed)
    (hinject : t.inject = s.inject) (htakes : ∀ p, Takes session t p → Takes session s p) :
    Silent session t where
  keyed := by
    unfold Keyed
    rw [hhanded]
    exact h.keyed
  ahead := by
    rw [hinject]
    exact fun stream frame hframe hkeyed p hp htaken =>
      h.ahead stream frame hframe hkeyed p hp (htakes p htaken)

variable [DecidableEq Port] [DecidableEq Loop] [DecidableEq Stream]

/-! ## Steps that keep the rule -/

/-- The radio changes which ports send only by its toggles. -/
theorem radio_sendEnabled {r r' : HalfDuplex.State Port Loop} {a : HalfDuplex.Action Port Loop}
    (h : HalfDuplex.step ports web port r a = some r') :
    r'.sendEnabled = r.sendEnabled ∨ ∃ p enabled, a = .setSend p enabled ∧
      r'.sendEnabled = Function.update r.sendEnabled p enabled := by
  cases a with
  | down =>
      simp only [HalfDuplex.step] at h
      split at h
      · obtain rfl := Option.some.inj h
        exact .inl rfl
      · cases h
  | up =>
      simp only [HalfDuplex.step] at h
      split at h
      · obtain rfl := Option.some.inj h
        exact .inl rfl
      · cases h
  | tx capture =>
      simp only [HalfDuplex.step, HalfDuplex.stepTx] at h
      split at h
      case h_1 => cases h
      case h_2 | h_4 =>
        split at h <;>
          · obtain rfl := Option.some.inj h
            exact .inl rfl
      all_goals
        obtain rfl := Option.some.inj h
        exact .inl rfl
  | mark l =>
      obtain rfl := Option.some.inj h
      unfold HalfDuplex.stepMark
      cases r.loops l with
      | idle => exact .inl rfl
      | stamped => dsimp only; split <;> exact .inl rfl
      | priming => exact .inl rfl
  | setSend p enabled =>
      obtain rfl := Option.some.inj h
      exact .inr ⟨p, enabled, rfl, rfl⟩
  | decay =>
      obtain rfl := Option.some.inj h
      unfold HalfDuplex.stepDecay
      repeat' split
      all_goals exact .inl rfl
  | expire p =>
      obtain rfl := Option.some.inj h
      exact .inl rfl

/-- The run loop's calls enable no port. -/
theorem Silent.call {a : HalfDuplex.Action Port Loop} (h : Silent session s) (hcall : isCall a = true)
    (hstep : call ports web port s a = some t) : Silent session t := by
  obtain ⟨radio, hradio, rfl⟩ := call_eq_some hstep
  refine h.mono rfl rfl fun p hp => ?_
  rcases radio_sendEnabled hradio with hsame | ⟨q, enabled, rfl, -⟩
  · unfold Takes at hp ⊢
    rwa [show radio.sendEnabled = s.radio.sendEnabled from hsame] at hp
  · cases hcall

/-- A toggle mutes a port, or enables one that no unkeyed frame will meet. -/
theorem Silent.setSend {enabled : Bool} {radio : HalfDuplex.State Port Loop}
    (h : Silent session s) (hgated : Gated ports session s (.radio (.setSend p enabled)))
    (hradio : radio.sendEnabled = Function.update s.radio.sendEnabled p enabled) :
    Silent session { s with radio := radio } where
  keyed := h.keyed
  ahead := fun stream frame hframe hkeyed q hq htaken => by
    refine h.ahead stream frame hframe hkeyed q hq ?_
    unfold Takes at htaken ⊢
    rw [show ({ s with radio := radio } : State Port Loop Stream).radio.sendEnabled = _ from hradio,
      Bool.and_eq_true] at htaken
    by_cases hqp : q = p
    · subst hqp
      rw [Function.update_self] at htaken
      obtain ⟨rfl, hsession⟩ := htaken
      exact absurd hq (hgated hsession stream frame hframe hkeyed)
    · rw [Function.update_of_ne hqp] at htaken
      rw [htaken.1, htaken.2]
      rfl

/-- A frame goes past its next port. -/
theorem Silent.send (h : Silent session s)
    (hstep : step ports web port session s (.send stream) = some t) : Silent session t := by
  simp only [step] at hstep
  split at hstep
  case h_2 => cases hstep
  rename_i opusData keyed q rest hframe
  obtain rfl := Option.some.inj hstep
  refine ⟨?_, fun i frame hi hkeyed r hr => ?_⟩
  · show ∀ frame ∈ (if s.radio.sendEnabled q && session q then _ else s.handed), frame.keyed = true
    split
    · rename_i htaken
      intro frame hmem
      rcases List.mem_cons.1 hmem with rfl | hmem
      · -- it is keyed, for the port takes it
        by_contra hunkeyed
        exact h.ahead stream _ hframe (by simpa using hunkeyed) q List.mem_cons_self htaken
      · exact h.keyed frame hmem
    · exact h.keyed
  · change Function.update s.inject stream _ i = some frame at hi
    by_cases hstream : i = stream
    · rw [hstream, Function.update_self] at hi
      obtain rfl := Option.some.inj hi
      exact h.ahead stream _ hframe hkeyed r (List.mem_cons_of_mem _ hr)
    · rw [Function.update_of_ne hstream] at hi
      exact h.ahead i frame hi hkeyed r hr

/-- **One gated step.** -/
theorem Silent.step {a : Action Port Loop Stream} (h : Silent session s)
    (hgated : Gated ports session s a) (hstep : Web.step ports web port session s a = some t) :
    Silent session t := by
  cases a with
  | push ev =>
      simp only [Web.step] at hstep
      split at hstep
      · obtain rfl := Option.some.inj hstep
        exact h.mono rfl rfl fun _ => id
      · split at hstep <;>
          · obtain rfl := Option.some.inj hstep
            exact h.mono rfl rfl fun _ => id
  | cancel =>
      obtain rfl := Option.some.inj hstep
      exact h.mono rfl rfl fun _ => id
  | close =>
      obtain ⟨-, heq⟩ := Option.ite_none_right_eq_some.1 hstep
      obtain rfl := Option.some.inj heq
      exact h.mono rfl rfl fun _ => id
  | take =>
      simp only [Web.step] at hstep
      split at hstep
      case h_2 => cases hstep
      rename_i ev rest hrun htx hqueue
      have hrest : Silent session { s with queue := rest } := h.mono rfl rfl fun _ => id
      cases ev with
      | down => exact hrest.call rfl hstep
      | up => exact hrest.call rfl hstep
      | toggle =>
          obtain rfl := Option.some.inj hstep
          exact h.mono rfl rfl fun _ => id
  | toggle =>
      simp only [Web.step] at hstep
      split at hstep
      case h_2 => cases hstep
      exact h.call (by split <;> rfl) hstep
  | exit =>
      simp only [Web.step] at hstep
      split at hstep
      case h_2 => cases hstep
      obtain ⟨-, heq⟩ := Option.ite_none_right_eq_some.1 hstep
      obtain rfl := Option.some.inj heq
      exact h.mono rfl rfl fun _ => id
  | radio a =>
      obtain ⟨-, heq⟩ := Option.ite_none_left_eq_some.1 hstep
      obtain ⟨radio, hradio, rfl⟩ := Option.map_eq_some_iff.1 heq
      rcases radio_sendEnabled hradio with hsame | ⟨p, enabled, rfl, hset⟩
      · refine h.mono rfl rfl fun p hp => ?_
        unfold Takes at hp ⊢
        rwa [show radio.sendEnabled = s.radio.sendEnabled from hsame] at hp
      · exact h.setSend hgated hset
  | inject stream opusData =>
      simp only [Web.step] at hstep
      split at hstep
      case h_2 => cases hstep
      obtain rfl := Option.some.inj hstep
      refine ⟨h.keyed, fun i frame hi hkeyed p hp => ?_⟩
      change Function.update s.inject stream _ i = some frame at hi
      by_cases hstream : i = stream
      · rw [hstream, Function.update_self] at hi
        obtain rfl := Option.some.inj hi
        rcases hgated with hon | hnone
        · rw [show s.radio.broadcasting = false from hkeyed] at hon
          cases hon
        · exact hnone p hp
      · rw [Function.update_of_ne hstream] at hi
        exact h.ahead i frame hi hkeyed p hp
  | send stream => exact h.send hstep
  | sent stream =>
      simp only [Web.step] at hstep
      split at hstep
      case h_2 => cases hstep
      obtain rfl := Option.some.inj hstep
      refine ⟨h.keyed, fun i frame hi => ?_⟩
      change Function.update s.inject stream none i = some frame at hi
      by_cases hstream : i = stream
      · rw [hstream, Function.update_self] at hi
        cases hi
      · rw [Function.update_of_ne hstream] at hi
        exact h.ahead i frame hi

/-! ## Steps that break it -/

/-- A frame goes past the ports before one that takes it, and is handed to
it. -/
theorem reaches_port {opusData : List UInt8} {keyed : Bool} {passed rest : List Port}
    (hframe : s.inject stream = some ⟨opusData, keyed, passed ++ p :: rest⟩)
    (htakes : Takes session s p) :
    ∃ as t, Run (step ports web port session) s as t ∧ ⟨p, opusData, keyed⟩ ∈ t.handed := by
  induction passed generalizing s with
  | nil =>
      refine ⟨[.send stream], _, Run.cons (t := { s with
        inject := Function.update s.inject stream (some ⟨opusData, keyed, rest⟩)
        handed := ⟨p, opusData, keyed⟩ :: s.handed }) ?_ (Run.nil _), List.mem_cons_self⟩
      simp only [step, hframe, List.nil_append, if_pos (show _ = true from htakes)]
  | cons q passed ih =>
      let next : State Port Loop Stream := { s with
        inject := Function.update s.inject stream (some ⟨opusData, keyed, passed ++ p :: rest⟩)
        handed := if s.radio.sendEnabled q && session q then ⟨q, opusData, keyed⟩ :: s.handed
          else s.handed }
      have hnext : step ports web port session s (.send stream) = some next := by
        simp only [step, hframe, List.cons_append]
        rfl
      obtain ⟨as, t, hrun, hmem⟩ := ih (s := next) (Function.update_self ..) htakes
      exact ⟨.send stream :: as, t, Run.cons hnext hrun, hmem⟩

/-- **A step that breaks the rule** can be followed to unkeyed audio. -/
theorem unkeyed_of_not_gated {a : Action Port Loop Stream} (h : ¬ Gated ports session s a)
    (hstep : step ports web port session s a = some t) :
    ∃ as u, Run (step ports web port session) t as u ∧ ¬ Keyed u := by
  -- wherever an unkeyed frame has a port ahead that takes it
  have hreach : ∀ {stream frame p}, t.inject stream = some frame → frame.keyed = false →
      p ∈ frame.ahead → Takes session t p →
      ∃ as u, Run (step ports web port session) t as u ∧ ¬ Keyed u := by
    intro stream frame p hframe hkeyed hp htakes
    obtain ⟨passed, rest, hahead⟩ := List.append_of_mem hp
    have hway : t.inject stream = some ⟨frame.opusData, frame.keyed, passed ++ p :: rest⟩ := by
      rw [hframe, ← hahead]
    obtain ⟨as, u, hrun, hmem⟩ := reaches_port hway htakes
    refine ⟨as, u, hrun, fun hall => ?_⟩
    have hon := hall _ hmem
    rw [hkeyed] at hon
    cases hon
  cases a with
  | inject stream opusData =>
      simp only [Gated, not_or, not_forall, not_not, exists_prop] at h
      obtain ⟨hoff, p, hp, htakes⟩ := h
      simp only [step] at hstep
      split at hstep
      case h_2 => cases hstep
      obtain rfl := Option.some.inj hstep
      exact hreach (Function.update_self ..) (by simpa using hoff) hp htakes
  | radio a =>
      cases a with
      | setSend p enabled =>
          cases enabled with
          | false => exact absurd trivial h
          | true =>
              simp only [Gated, not_forall, exists_prop, not_not] at h
              obtain ⟨hsession, stream, frame, hframe, hkeyed, hp⟩ := h
              simp only [step, isCall, Bool.false_eq_true, if_false] at hstep
              obtain ⟨radio, hradio, rfl⟩ := Option.map_eq_some_iff.1 hstep
              obtain rfl := Option.some.inj hradio
              refine hreach hframe hkeyed hp ?_
              unfold Takes
              rw [hsession, Bool.and_true]
              exact Function.update_self ..
      | _ => exact absurd trivial h
  | _ => exact absurd trivial h

/-! ## Runs -/

/-- **When web audio goes out only while keyed.** In every run that keeps the
rule every frame handed over was injected while `Broadcasting` was true; and
from any step that breaks the rule a run goes on to one that was not. -/
theorem audio_keyed (ports : List Port) (web : Bool) (port : Loop → Port) (session : Port → Bool)
    (sendEnabled : Port → Bool) :
    (∀ (as : List (Action Port Loop Stream)) s,
      Run (step ports web port session) (fresh sendEnabled) as s →
      Always (step ports web port session) (Gated ports session) (fresh sendEnabled) as → Keyed s) ∧
    ∀ (s : State Port Loop Stream) a t, step ports web port session s a = some t →
      ¬ Gated ports session s a →
      ∃ as u, Run (step ports web port session) t as u ∧ ¬ Keyed u := by
  refine ⟨fun as s hrun hgated => ?_, fun s a t hstep hno => unkeyed_of_not_gated hno hstep⟩
  have hfresh : Silent session (fresh sendEnabled : State Port Loop Stream) :=
    ⟨fun _ h => absurd h List.not_mem_nil, fun _ _ h => by cases h⟩
  have hsilent : Silent session s :=
    hrun.invariant hgated hfresh fun _ _ _ hu hg hv => hu.step hg hv
  exact hsilent.keyed

/-- A frame under the key. -/
theorem audio_keyed_pressed :
    ∃ s : State Unit Unit Unit, Run (step [()] true id fun _ => true) (fresh fun _ => true)
        [.push .down, .take, .radio (.tx true), .radio (.tx true), .inject () [9], .send ()] s ∧
      s.handed = [⟨(), [9], true⟩] ∧ Keyed s := by
  have hrun : Run (step [()] true id fun _ => true) (fresh fun _ => true : State Unit Unit Unit)
      [.push .down, .take, .radio (.tx true), .radio (.tx true), .inject () [9], .send ()] _ :=
    Run.of_foldlM rfl
  refine ⟨_, hrun, rfl, (audio_keyed [()] true id (fun _ => true) fun _ => true).1 _ _ hrun ?_⟩
  exact Always.cons trivial rfl (Always.cons trivial rfl (Always.cons trivial rfl
    (Always.cons trivial rfl (Always.cons (.inl rfl) rfl (Always.cons trivial rfl trivial)))))

/-- **A refused press.** A packet has marked the only port busy, the press is
refused, and the frame that follows is on the mesh. -/
theorem refused_press_heard :
    ∃ s : State Unit Unit Unit, Run (step [()] true id fun _ => true) (fresh fun _ => true)
        [.radio (.mark ()), .radio (.mark ()), .radio (.mark ()), .push .down, .take,
          .radio (.tx true), .inject () [9], .send ()] s ∧
      s.radio.broadcasting = false ∧ s.handed = [⟨(), [9], false⟩] ∧ ¬ Keyed s := by
  refine ⟨_, Run.of_foldlM rfl, rfl, rfl, fun h => ?_⟩
  exact absurd (h _ List.mem_cons_self) (by decide)

end Web

end OpenManet
