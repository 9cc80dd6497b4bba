import OpenManet.Bridge.Hub
/-!
# The web bridge — stuck keys

The bridge sends the daemon a press when a client sends one and a release
when a client sends one, and keeps no account of who is holding the key.
When a client goes, however it goes, nothing is sent for it. A client that
goes while it holds the key alone leaves a press behind as the last event.

A press and a release are what the bridge sends for them, `1` and `0`.
-/

namespace OpenManet

namespace Hub

open Bridge

variable {ClientId : Type}
variable {s t : State ClientId} {c d : ClientId}

/-- The client is connected and its last PTT message is a press. -/
def State.keys (s : State ClientId) (c : ClientId) : Prop :=
  s.conn c = .live ∧ s.lastPTT c = some .down

/-- While no client is keying, the last event sent is a release, if any was. -/
def Released (s : State ClientId) : Prop :=
  (∀ c, ¬ s.keys c) → s.events = [] ∨ s.events.head? = some PTTEvent.up.sentAs

/-- A client does not go while it alone is keying, with a press the last
event sent. -/
def LetsGo (s : State ClientId) : Action ClientId → Prop
  | .readEnd c => s.keys c → s.events.head? = some PTTEvent.down.sentAs → ∃ d, d ≠ c ∧ s.keys d
  | _ => True

/-- What every step keeps: events are presses and releases, and nobody has
sent one before the pumps ran. -/
structure Heard (s : State ClientId) : Prop where
  newcomer : ∀ c, s.conn c = .absent ∨ s.conn c = .registering → s.lastPTT c = none
  event : s.events = [] ∨ s.events.head? = some PTTEvent.up.sentAs ∨
    s.events.head? = some PTTEvent.down.sentAs

theorem released_congr (hkeys : ∀ c, t.keys c ↔ s.keys c) (hevents : t.events = s.events) :
    Released t ↔ Released s := by
  simp only [Released, hkeys, hevents]

variable [DecidableEq ClientId]

theorem heard_newHub : Heard (newHub : State ClientId) := ⟨fun _ _ => rfl, .inl rfl⟩

theorem released_newHub : Released (newHub : State ClientId) := fun _ => .inl rfl

/-! ## One step -/

/-- **The two steps that matter.** Besides a message and the end of a read
pump, a step sends no event and moves no client into or out of its pumps but
newcomers into them. -/
theorem step_keys {a : Action ClientId} (h : Hub.step s a = some t) :
    (∃ c data, a = .message c data ∧ s.conn c = .live ∧ t = s.handleMessage c data) ∨
    (∃ c, a = .readEnd c ∧ s.conn c = .live ∧
      t = { s with conn := Function.update s.conn c .leaving }) ∨
    ((∀ c, a ≠ .readEnd c) ∧ t.events = s.events ∧ t.lastPTT = s.lastPTT ∧
      ∀ c, t.conn c = s.conn c ∨ (t.conn c = .live ∧ s.conn c = .registering) ∨
        (t.conn c = .registering ∧ s.conn c = .absent) ∨
        (t.conn c = .gone ∧ s.conn c = .leaving)) := by
  have hcome : ∀ (w : Walk ClientId) (d : ClientId), (s.come w d).events = s.events ∧
      (s.come w d).lastPTT = s.lastPTT ∧ (s.come w d).conn = s.conn := by
    intro w d
    unfold State.come State.offer State.evict
    split
    · split
      · exact ⟨rfl, rfl, rfl⟩
      · split
        · exact ⟨rfl, rfl, rfl⟩
        · split <;> exact ⟨rfl, rfl, rfl⟩
    · exact ⟨rfl, rfl, rfl⟩
  cases a with
  | message c data =>
      obtain ⟨hc, heq⟩ := Option.ite_none_right_eq_some.1 h
      exact .inl ⟨c, data, rfl, hc, (Option.some.inj heq).symm⟩
  | readEnd c =>
      obtain ⟨hc, heq⟩ := Option.ite_none_right_eq_some.1 h
      exact .inr (.inl ⟨c, rfl, hc, (Option.some.inj heq).symm⟩)
  | accept c =>
      obtain ⟨hc, heq⟩ := Option.ite_none_right_eq_some.1 h
      obtain rfl := Option.some.inj heq
      refine .inr (.inr ⟨nofun, rfl, rfl, fun d => ?_⟩)
      by_cases hd : d = c
      · exact .inr (.inr (.inl (by rw [hd]; exact ⟨Function.update_self .., hc⟩)))
      · exact .inl (Function.update_of_ne hd ..)
  | register c =>
      obtain ⟨⟨hc, -⟩, heq⟩ := Option.ite_none_right_eq_some.1 h
      obtain rfl := Option.some.inj heq
      refine .inr (.inr ⟨nofun, rfl, rfl, fun d => ?_⟩)
      by_cases hd : d = c
      · exact .inr (.inl (by rw [hd]; exact ⟨Function.update_self .., hc⟩))
      · exact .inl (Function.update_of_ne hd ..)
  | unregister c =>
      obtain ⟨⟨hc, -⟩, heq⟩ := Option.ite_none_right_eq_some.1 h
      obtain rfl := Option.some.inj heq
      refine .inr (.inr ⟨nofun, rfl, rfl, fun d => ?_⟩)
      by_cases hd : d = c
      · exact .inr (.inr (.inr (by rw [hd]; exact ⟨Function.update_self .., hc⟩)))
      · exact .inl (Function.update_of_ne hd ..)
  | help c | broadcastRaw frame =>
      obtain ⟨-, heq⟩ := Option.ite_none_right_eq_some.1 h
      obtain rfl := Option.some.inj heq
      exact .inr (.inr ⟨nofun, rfl, rfl, fun _ => .inl rfl⟩)
  | broadcastAudioRX channel frame | relayToOthers sender frame =>
      obtain ⟨-, heq⟩ := Option.ite_none_left_eq_some.1 h
      obtain rfl := Option.some.inj heq
      exact .inr (.inr ⟨nofun, rfl, rfl, fun _ => .inl rfl⟩)
  | write c | takeRegister | takeBroadcast | shutdown =>
      simp only [Hub.step] at h
      split at h <;> first
        | cases h
          done
        | obtain rfl := Option.some.inj h
          exact .inr (.inr ⟨nofun, rfl, rfl, fun _ => .inl rfl⟩)
  | takeUnregister =>
      simp only [Hub.step] at h
      split at h
      case h_2 => cases h
      obtain rfl := Option.some.inj h
      refine .inr (.inr ⟨nofun, ?_⟩)
      split <;> exact ⟨rfl, rfl, fun _ => .inl rfl⟩
  | delivered | closed | visited i | close c =>
      simp only [Hub.step] at h
      split at h
      case h_2 => cases h
      obtain ⟨-, heq⟩ := Option.ite_none_right_eq_some.1 h
      obtain rfl := Option.some.inj heq
      exact .inr (.inr ⟨nofun, rfl, rfl, fun _ => .inl rfl⟩)
  | deliver c | visit i c =>
      simp only [Hub.step] at h
      split at h
      case h_2 => cases h
      rename_i w _
      obtain ⟨-, heq⟩ := Option.ite_none_right_eq_some.1 h
      obtain rfl := Option.some.inj heq
      obtain ⟨hevents, hlast, hconn⟩ := hcome w c
      exact .inr (.inr ⟨nofun, hevents, hlast, fun d => .inl (congrFun hconn d)⟩)

/-- The events after a message. -/
theorem handleMessage_sends (s : State ClientId) (c : ClientId) (data : List UInt8) :
    (s.handleMessage c data).events =
      ((pttOf (c, data)).map PTTEvent.sentAs).toList ++ s.events := by
  rw [State.handleMessage, handleMessage_events]

/-- A message moves nobody, and is the sender's last if it is a press or a
release. -/
theorem handleMessage_lastPTT (s : State ClientId) (c : ClientId) (data : List UInt8) :
    (s.handleMessage c data).conn = s.conn ∧ (s.handleMessage c data).lastPTT =
      Function.update s.lastPTT c ((pttOf (c, data)).or (s.lastPTT c)) := ⟨rfl, rfl⟩

theorem Heard.step {a : Action ClientId} (h : Heard s) (hstep : Hub.step s a = some t) :
    Heard t := by
  obtain ⟨c, data, rfl, hc, rfl⟩ | ⟨c, rfl, hc, rfl⟩ | ⟨-, hevents, hlast, hconn⟩ := step_keys hstep
  · refine ⟨fun d hd => ?_, ?_⟩
    · have hdc : d ≠ c := by
        rintro rfl
        rw [(handleMessage_lastPTT s d data).1, hc] at hd
        rcases hd with hd | hd <;> cases hd
      rw [(handleMessage_lastPTT s c data).2, Function.update_of_ne hdc]
      exact h.newcomer d hd
    · rw [handleMessage_sends]
      have hne := pttOf_ne_toggle (c, data)
      cases hptt : pttOf (c, data) with
      | none => exact h.event
      | some event =>
          rw [hptt] at hne
          cases event with
          | down => exact .inr (.inr rfl)
          | up => exact .inr (.inl rfl)
          | toggle => exact absurd rfl hne
  · refine ⟨fun d hd => h.newcomer d ?_, h.event⟩
    change Function.update s.conn c .leaving d = .absent ∨
      Function.update s.conn c .leaving d = .registering at hd
    by_cases hdc : d = c
    · rw [hdc, Function.update_self] at hd
      rcases hd with hd | hd <;> cases hd
    · rwa [Function.update_of_ne hdc] at hd
  · refine ⟨fun d hd => ?_, hevents ▸ h.event⟩
    rw [hlast]
    rcases hconn d with heq | ⟨heq, -⟩ | ⟨-, hd'⟩ | ⟨heq, -⟩
    · exact h.newcomer d (heq ▸ hd)
    · rw [heq] at hd
      rcases hd with hd | hd <;> cases hd
    · exact h.newcomer d (.inl hd')
    · rw [heq] at hd
      rcases hd with hd | hd <;> cases hd

/-- A press or a release is in the right of its sender. -/
theorem released_message {data : List UInt8} (h : Released s) (hc : s.conn c = .live) :
    Released (s.handleMessage c data) := by
  intro hnone
  rw [handleMessage_sends]
  have hne := pttOf_ne_toggle (c, data)
  cases hptt : pttOf (c, data) with
  | none =>
      refine h fun d hd => hnone d ?_
      have hsame : Function.update s.lastPTT c ((none : Option PTTEvent).or (s.lastPTT c)) =
          s.lastPTT := by
        rw [Option.none_or, Function.update_eq_self]
      exact ⟨hd.1, by rw [(handleMessage_lastPTT s c data).2, hptt, hsame]; exact hd.2⟩
  | some event =>
      rw [hptt] at hne
      cases event with
      | down =>
          refine absurd ⟨hc, ?_⟩ (hnone c)
          rw [(handleMessage_lastPTT s c data).2, hptt]
          exact Function.update_self ..
      | up => exact .inr rfl
      | toggle => exact absurd rfl hne

/-- A client goes. -/
theorem released_readEnd (hheard : Heard s) (h : Released s) :
    Released { s with conn := Function.update s.conn c .leaving } ↔ LetsGo s (.readEnd c) := by
  -- who keys afterwards is who keyed before, but for the client that goes
  have hkeys : ∀ d, ({ s with conn := Function.update s.conn c .leaving } : State ClientId).keys d ↔
      d ≠ c ∧ s.keys d := by
    intro d
    by_cases hdc : d = c
    · simp [State.keys, hdc]
    · simp [State.keys, hdc]
  constructor
  · intro hafter hkeying hpress
    by_contra hnone
    push Not at hnone
    rcases hafter fun d hd => hnone d ((hkeys d).1 hd).1 ((hkeys d).1 hd).2 with hempty | hup
    · rw [show s.events = [] from hempty] at hpress
      cases hpress
    · rw [show s.events.head? = _ from hup] at hpress
      cases hpress
  · intro hgo hnone
    by_cases hkeying : s.keys c
    · rcases hheard.event with hempty | hup | hdown
      · exact .inl hempty
      · exact .inr hup
      · obtain ⟨d, hdc, hd⟩ := hgo hkeying hdown
        exact absurd ((hkeys d).2 ⟨hdc, hd⟩) (hnone d)
    · refine h fun d hd => hnone d ((hkeys d).2 ⟨?_, hd⟩)
      rintro rfl
      exact hkeying hd

/-- **A step leaves no stuck key exactly when it lets go.** -/
theorem released_step {a : Action ClientId} (hheard : Heard s) (h : Released s)
    (hstep : Hub.step s a = some t) : Released t ↔ LetsGo s a := by
  obtain ⟨c, data, rfl, hc, rfl⟩ | ⟨c, rfl, hc, rfl⟩ | ⟨hno, hevents, hlast, hconn⟩ :=
    step_keys hstep
  · exact iff_of_true (released_message h hc) trivial
  · exact released_readEnd hheard h
  · have hgo : LetsGo s a := by
      cases a with
      | readEnd c => exact absurd rfl (hno c)
      | _ => trivial
    refine iff_of_true ((released_congr (fun d => ?_) hevents).2 h) hgo
    rw [State.keys, State.keys, hlast]
    rcases hconn d with heq | ⟨heq, hd⟩ | ⟨heq, hd⟩ | ⟨heq, hd⟩
    · rw [heq]
    · rw [hheard.newcomer d (.inr hd)]
      simp
    · rw [heq, hd]
      simp
    · rw [heq, hd]
      simp

/-! ## Runs -/

/-- **When no key is left stuck.** In every run, throughout, exactly when no
client goes while it alone is keying, with a press the last event sent. -/
theorem released_iff_letsGo {as : List (Action ClientId)} {s : State ClientId}
    (hrun : Run Hub.step newHub as s) :
    Throughout Hub.step Released newHub as ↔ Always Hub.step LetsGo newHub as :=
  hrun.throughout_iff_always heard_newHub released_newHub (fun _ _ _ hu hv => hu.step hv)
    fun _ _ _ hu hr hv => released_step hu hr hv

/-- A client that presses, releases and goes. -/
def pressAndRelease : List (Action ℕ) :=
  [.accept 0, .register 0, .message 0 [opcodePTTDown], .message 0 [opcodePTTUp], .readEnd 0]

theorem released_iff_letsGo_pressAndRelease :
    ∃ s, Run Hub.step newHub pressAndRelease s ∧ s.events = [0, 1] ∧
      Throughout Hub.step Released newHub pressAndRelease := by
  have hrun : Run Hub.step newHub pressAndRelease _ := Run.of_foldlM rfl
  refine ⟨_, hrun, rfl, (released_iff_letsGo hrun).2 ?_⟩
  refine Always.cons trivial rfl (Always.cons trivial rfl (Always.cons trivial rfl
    (Always.cons trivial rfl (Always.cons (fun hkeys => ?_) rfl trivial))))
  cases hkeys.2

/-- **A client that goes with the key down.** Nobody is left, and the last
event sent is its press. -/
theorem press_left_behind :
    ∃ s : State ℕ, Run Hub.step newHub
        [.accept 0, .register 0, .message 0 [opcodePTTDown], .readEnd 0] s ∧
      (∀ c, s.conn c ≠ .live) ∧ s.events = [PTTEvent.down.sentAs] ∧ ¬ Released s := by
  have hnone : ∀ c, (Function.update (Function.update (Function.update (fun _ => Conn.absent) 0
      .registering) 0 .live) 0 .leaving : ℕ → Conn) c ≠ .live := by
    intro c
    cases c <;> simp
  refine ⟨_, Run.of_foldlM rfl, hnone, rfl, fun h => ?_⟩
  rcases h fun c hc => hnone c hc.1 with hempty | hup
  · cases hempty
  · cases hup

end Hub

end OpenManet
