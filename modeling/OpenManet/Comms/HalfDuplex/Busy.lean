import OpenManet.Comms.HalfDuplex.Model
/-!
# Half duplex — when the busy flag can be trusted

The flag is a cache of the gates, and two orders of steps leave it behind
them. A packet may be marked on a port the decay pass has already read, and
the pass then clears what the packet has just set; and a port may be
send-enabled while its gate is still active, which no one tells the flag.
`Orderly` excludes these two and nothing else, and in every orderly run
`beginTransmission` refuses to talk over a port it can hear.
-/

namespace OpenManet

namespace HalfDuplex

variable {Port Loop : Type}
variable {ports : List Port} {web : Bool} {port : Loop → Port}
variable {s t : State Port Loop} {p : Port} {l : Loop}

variable (port) in
/-- An action is in order: `MarkRemoteRx` does not store the flag for a port
the pass under way has left behind, and a port is not send-enabled while its
gate is active. -/
def Orderly (s : State Port Loop) : Action Port Loop → Prop
  | .mark l => s.loops l = .priming → port l ∉ s.decay.passed
  | .setSend p true => s.sendEnabled p = true ∨ s.rxActive p = false
  | _ => True

/-! ## The invariant -/

variable (ports) in
/-- The pass under way covers the ports: those behind it, then those ahead. -/
def Covers : Decay Port → Prop
  | .idle => True
  | .walk passed rest => passed ++ rest = ports
  | .probe passed p rest => passed ++ p :: rest = ports

variable (ports) in
/-- What orderly runs keep: the flag is up while a port blocks, no port the
pass has left behind blocks, and no busy check has let a blocking port
through. -/
structure Trusted (s : State Port Loop) : Prop where
  flagged : ∀ p ∈ ports, blocking s p = true → s.remoteRxActive = true
  behind : ∀ p ∈ s.decay.passed, blocking s p = false
  covers : Covers ports s.decay
  window : ∀ p, s.returned p = true → s.rxActive p = true
  unblocked : s.tx ≠ .cleared true

theorem trusted_fresh (sendEnabled : Port → Bool) :
    Trusted ports (fresh sendEnabled : State Port Loop) where
  flagged := by intro p _ h; simp [blocking, fresh] at h
  behind := by intro p h; simp [fresh, Decay.passed] at h
  covers := trivial
  window := by intro p h; simp [fresh] at h
  unblocked := by simp [fresh]

/-- A step that leaves the flag and the pass alone, and lets no further port
block, keeps the invariant. -/
theorem Trusted.mono (hs : Trusted ports s) (hflag : t.remoteRxActive = s.remoteRxActive)
    (hdecay : t.decay = s.decay) (hblock : ∀ p, blocking t p = true → blocking s p = true)
    (hwindow : ∀ p, t.returned p = true → t.rxActive p = true) (htx : t.tx ≠ .cleared true) :
    Trusted ports t where
  flagged := by
    intro p hp hb
    rw [hflag]
    exact hs.flagged p hp (hblock p hb)
  behind := by
    intro p hp
    rw [hdecay] at hp
    have hq := hs.behind p hp
    by_contra hb
    rw [hblock p (Bool.not_eq_false _ ▸ hb)] at hq
    cases hq
  covers := by rw [hdecay]; exact hs.covers
  window := hwindow
  unblocked := htx

/-- A step of the transmit path alone touches no gate, toggle or flag. -/
theorem Trusted.transmit (hs : Trusted ports s) {b e : Bool} {tx : Transmit}
    (htx : tx ≠ .cleared true) :
    Trusted ports { s with broadcasting := b, txEnabled := e, tx := tx } :=
  hs.mono rfl rfl (fun _ h => h) hs.window htx

/-! ## One step of each party -/

variable [DecidableEq Port] [DecidableEq Loop]

omit [DecidableEq Port] [DecidableEq Loop] in
theorem trusted_stepTx (hs : Trusted ports s) {stream : Bool}
    (h : stepTx ports web s stream = some t) : Trusted ports t := by
  unfold stepTx at h
  split at h
  · cases h
  · split at h
    · cases h
      exact hs.transmit (by simp)
    · rename_i _ hflag
      cases h
      -- the flag was down at the check, so no port was blocking
      have hnone : ports.any (blocking s) = false := by
        rw [List.any_eq_false]
        intro p hp hb
        exact hflag (hs.flagged p hp hb)
      exact hs.transmit (by simp [hnone])
  · cases h
    exact hs.transmit (by split <;> simp)
  · split at h
    · cases h
      exact hs.transmit (by simp)
    · cases h
      exact hs.transmit (by simp)
  · cases h
    exact hs.transmit (by simp)
  · cases h
    exact hs.transmit (by simp)

/-- Stamping a gate blocks no port that was not blocking: the mark of a call
still under way does not count. -/
theorem trusted_stamp (hs : Trusted ports s) (hl : s.loops l = .idle) :
    Trusted ports (stepMark port s l) := by
  unfold stepMark
  simp only [hl]
  refine hs.mono rfl rfl (fun q hq => ?_) (fun q hq => ?_) hs.unblocked
  · simp only [blocking, Bool.and_eq_true] at hq ⊢
    exact ⟨⟨hq.1.1, hs.window q hq.2⟩, hq.2⟩
  · show Function.update s.rxActive (port l) true q = true
    by_cases hqp : q = port l
    · rw [hqp, Function.update_self]
    · rw [Function.update_of_ne hqp]
      exact hs.window q hq

omit [DecidableEq Loop] in
theorem window_returned (hs : Trusted ports s) (p q : Port)
    (hq : Function.update s.returned p (s.rxActive p) q = true) : s.rxActive q = true := by
  by_cases hqp : q = p
  · rwa [hqp, Function.update_self, ← hqp] at hq
  · rw [Function.update_of_ne hqp] at hq
    exact hs.window q hq

/-- A call that found its port muted returns without the flag, and the port
stays muted. -/
theorem trusted_skip (hs : Trusted ports s) (hl : s.loops l = .stamped) :
    Trusted ports (stepMark port s l) := by
  unfold stepMark
  simp only [hl]
  split
  · exact hs.mono rfl rfl (fun _ h => h) hs.window hs.unblocked
  · rename_i hmuted
    refine hs.mono rfl rfl (fun q hq => ?_) (window_returned hs _) hs.unblocked
    simp only [blocking, Bool.and_eq_true] at hq ⊢
    have hqp : q ≠ port l := by
      rintro rfl
      exact hmuted hq.1.1
    rw [Function.update_of_ne hqp] at hq
    exact hq

/-- A call that stores the flag may leave its port blocking, so the pass
under way must not have left that port behind. -/
theorem trusted_prime (hs : Trusted ports s) (hl : s.loops l = .priming)
    (horder : port l ∉ s.decay.passed) : Trusted ports (stepMark port s l) := by
  unfold stepMark
  simp only [hl]
  refine ⟨fun _ _ _ => rfl, fun q hq => ?_, hs.covers, window_returned hs _, hs.unblocked⟩
  have hqp : q ≠ port l := fun h => horder (h ▸ hq)
  have hbehind := hs.behind q hq
  simp only [blocking] at hbehind ⊢
  rwa [Function.update_of_ne hqp]

omit [DecidableEq Port] [DecidableEq Loop] in
/-- Leaving a port behind: it is muted, or its gate is quiet. -/
theorem Trusted.leave (hs : Trusted ports s) {passed rest : List Port}
    (hpassed : s.decay.passed = passed) (hcovers : passed ++ p :: rest = ports)
    (hp : blocking s p = false) :
    Trusted ports { s with decay := .walk (passed ++ [p]) rest } where
  flagged := hs.flagged
  behind := by
    intro q hq
    rcases List.mem_append.1 hq with hq | hq
    · exact hs.behind q (hpassed ▸ hq)
    · rw [List.mem_singleton.1 hq]
      exact hp
  covers := by simpa [Covers] using hcovers
  window := hs.window
  unblocked := hs.unblocked

omit [DecidableEq Port] [DecidableEq Loop] in
theorem trusted_stepDecay (hs : Trusted ports s) : Trusted ports (stepDecay ports s) := by
  have hcovers := hs.covers
  unfold stepDecay
  split
  · exact ⟨hs.flagged, by simp [Decay.passed], rfl, hs.window, hs.unblocked⟩
  · rename_i passed p rest hd
    rw [hd] at hcovers
    split
    · have hbehind := hs.behind
      rw [hd] at hbehind
      exact ⟨hs.flagged, hbehind, hcovers, hs.window, hs.unblocked⟩
    · rename_i hmuted
      exact hs.leave (by rw [hd]; rfl) hcovers (by simp [blocking, hmuted])
  · rename_i passed hd
    -- the whole list is behind the pass, so clearing the flag hides nothing
    rw [hd] at hcovers
    have hall : passed = ports := by simpa [Covers] using hcovers
    refine ⟨fun q hq hb => ?_, by simp [Decay.passed], trivial, hs.window, hs.unblocked⟩
    have hbehind := hs.behind q (by rw [hd]; exact hall ▸ hq)
    have hb' : blocking s q = true := hb
    rw [hbehind] at hb'
    cases hb'
  · rename_i passed p rest hd
    rw [hd] at hcovers
    split
    · exact ⟨hs.flagged, by simp [Decay.passed], trivial, hs.window, hs.unblocked⟩
    · rename_i hquiet
      exact hs.leave (by rw [hd]; rfl) hcovers (by simp [blocking, hquiet])

omit [DecidableEq Loop] in
/-- A toggle blocks nothing: it mutes a port, or enables one that is quiet
or was enabled before. -/
theorem trusted_setSend (hs : Trusted ports s) {b : Bool}
    (horder : Orderly port s (.setSend p b)) :
    Trusted ports { s with sendEnabled := Function.update s.sendEnabled p b } := by
  refine hs.mono rfl rfl (fun q hq => ?_) hs.window hs.unblocked
  simp only [blocking, Bool.and_eq_true] at hq ⊢
  by_cases hqp : q = p
  · rw [hqp, Function.update_self] at hq
    obtain ⟨⟨hb, hactive⟩, hret⟩ := hq
    subst hb
    rcases horder with hsend | hquiet
    · exact hqp ▸ ⟨⟨hsend, hactive⟩, hret⟩
    · rw [hquiet] at hactive
      cases hactive
  · rw [Function.update_of_ne hqp] at hq
    exact hq

omit [DecidableEq Loop] in
theorem trusted_expire (hs : Trusted ports s) :
    Trusted ports { s with rxActive := Function.update s.rxActive p false
                           returned := Function.update s.returned p false } := by
  refine hs.mono rfl rfl (fun q hq => ?_) (fun q hq => ?_) hs.unblocked
  · simp only [blocking, Bool.and_eq_true] at hq ⊢
    have hqp : q ≠ p := by
      rintro rfl
      simp at hq
    rw [Function.update_of_ne hqp, Function.update_of_ne hqp] at hq
    exact hq
  · have hqp : q ≠ p := by
      rintro rfl
      simp at hq
    have hret : Function.update s.returned p false q = true := hq
    rw [Function.update_of_ne hqp] at hret
    show Function.update s.rxActive p false q = true
    rw [Function.update_of_ne hqp]
    exact hs.window q hret

/-- **One orderly step keeps the flag trustworthy.** -/
theorem trusted_step {a : Action Port Loop} (hs : Trusted ports s) (horder : Orderly port s a)
    (h : step ports web port s a = some t) : Trusted ports t := by
  cases a with
  | down =>
      simp only [step] at h
      split at h
      · cases h
        exact hs.transmit (by split <;> simp)
      · cases h
  | up =>
      simp only [step] at h
      split at h
      · cases h
        refine hs.transmit ?_
        split
        · split <;> simp
        · simp
      · cases h
  | tx stream => exact trusted_stepTx hs h
  | mark l =>
      cases h
      rcases hl : s.loops l with _ | _ | _
      · exact trusted_stamp hs hl
      · exact trusted_skip hs hl
      · exact trusted_prime hs hl (horder hl)
  | setSend p b =>
      cases h
      exact trusted_setSend hs horder
  | decay =>
      cases h
      exact trusted_stepDecay hs
  | expire p =>
      cases h
      exact trusted_expire hs

/-! ## Whole runs -/

/-- **Orderly runs are half duplex.** From a fresh runtime, in whatever order
transmissions, packets, decay passes, toggles and expiries are scheduled,
`beginTransmission` never sets `Broadcasting` after a busy check at which a
send-enabled port was hearing someone — as long as no packet is flagged
behind a decay pass and no port is enabled while it hears. -/
theorem never_talks_over (ports : List Port) (web : Bool) (port : Loop → Port)
    (sendEnabled : Port → Bool) (schedule : List (Action Port Loop))
    (horder : Always (step ports web port) (Orderly port) (fresh sendEnabled) schedule) :
    Always (step ports web port) (fun s a => ¬ Clash s a) (fresh sendEnabled) schedule := by
  refine Always.of_invariant (I := Trusted ports) horder (trusted_fresh sendEnabled)
    (fun s a t hs ha hstep => trusted_step hs ha hstep) (fun s a hs _ hclash => ?_)
  cases a with
  | tx stream => exact hs.unblocked hclash
  | _ => exact hclash

/-- The rule on one port: a packet arrives between two passes and the press
that follows is refused; once the window is over and a pass has cleared the
flag, the next press talks. -/
theorem never_talks_over_one :
    Always (step [()] false (fun _ : Unit => ())) (fun s a => ¬ Clash s a) (fresh fun _ => true)
      [.mark (), .mark (), .mark (), .down, .tx true, .expire (), .decay, .decay, .decay, .decay,
        .down, .tx true, .tx true] := by
  refine never_talks_over _ _ _ _ _ ?_
  repeat refine Always.cons (by simp [Orderly, fresh, stepMark, Decay.passed]) rfl ?_
  trivial

/-- A packet marked behind the pass: the pass reads the quiet port, the
packet stamps the gate, raises the flag and returns, and the pass clears the
flag it did not see raised. The press that follows talks over the sender. -/
theorem marked_behind_pass_clashes :
    ¬ ∀ (sendEnabled : Unit → Bool) (schedule : List (Action Unit Unit)),
      Always (step [()] false (fun _ : Unit => ())) (fun s a => ¬ Clash s a)
        (fresh sendEnabled) schedule := by
  intro h
  have hrun := always_iff.1 (h (fun _ => true)
    [.decay, .decay, .decay, .mark (), .mark (), .mark (), .decay, .down, .tx true, .tx true])
  exact hrun [.decay, .decay, .decay, .mark (), .mark (), .mark (), .decay, .down, .tx true]
    (.tx true) [] _ rfl (Run.of_foldlM rfl) rfl

end HalfDuplex

end OpenManet
