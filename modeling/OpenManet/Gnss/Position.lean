import OpenManet.Gnss.Model
import Mathlib.Algebra.GroupWithZero.Nat
import Mathlib.Algebra.Ring.Int.Defs
/-!
# The GNSS service — where the reported position comes from

`Law` is what is asked of every step: gpsd does not move the position while
`external_cot` is selected, a datagram does not while `internal` is or when its
sender has no lease, and a TPV report processed while `internal` is selected
leaves the report valid if and only if it had a fix.

`updatePosition` does not look at the source, and leaves a TPV without a fix
aside, the old position and its `Valid` with it. `Sourced` names the steps at
which that does no harm, and the law holds of a run exactly if all its steps are
such. What the listener does is harmless unless the source or the leases change
between its looking at them and its taking the position over.
-/

namespace OpenManet

namespace Gnss

variable {F T : Type}

/-! ## What is asked -/

/-- A 2D or a 3D fix. -/
def TPVReport.hasFix (tpv : TPVReport F) : Bool := tpv.mode = 2 ∨ tpv.mode = 3

/-- Where a TPV report is. -/
def TPVReport.place (tpv : TPVReport F) : F × F × F := (tpv.lat, tpv.lon, tpv.alt)

/-- Where a CoT position is. -/
def CotPosition.place (pos : CotPosition F) : F × F × F := (pos.lat, pos.lon, pos.hae)

/-- The TPV report a line from gpsd is. -/
def tpvOf (d : Decode F T) (message : String) : Option (TPVReport F) :=
  if message.toList.head? = some '$' then none
  else if d.baseMsg message = some "TPV" then d.tpv message
  else none

/-- The sender of the datagram the listener is at. -/
def Listener.sender : Listener F → Option String
  | .reading => none
  | .received _ srcIP | .selected _ srcIP | .known _ srcIP => some srcIP

/-- The steps of gpsd's connection. -/
def Action.ofGpsd : Action T → Bool
  | .gpsd _ _ => true
  | _ => false

/-- The steps of the listener. -/
def Action.ofCoT : Action T → Bool
  | .datagram _ _ | .select | .lookup | .adopt _ => true
  | _ => false

/-- **What is asked of a step.** -/
structure Law (d : Decode F T) (g : GPSService F T) (a : Action T) (t : GPSService F T) : Prop where
  gpsd : a.ofGpsd = true → g.externalCoTSelected = true → t.place = g.place
  internal : a.ofCoT = true → g.externalCoTSelected = false → t.place = g.place
  lease : a.ofCoT = true → ∀ srcIP, g.listener.sender = some srcIP → g.isKnownEUD srcIP = false →
    t.place = g.place
  fix : ∀ message now tpv, a = .gpsd message now → tpvOf d message = some tpv →
    g.externalCoTSelected = false → t.isValid = tpv.hasFix

/-- **Where a step does no harm.** A TPV report with a fix comes while the
receiver is selected, or brings the position that is reported already; one
without comes while the report is not valid; and a position is taken over while
its source is selected and its sender has a lease, or is the reported one. -/
def Sourced (d : Decode F T) (g : GPSService F T) : Action T → Prop
  | .gpsd message _ =>
      ∀ tpv, tpvOf d message = some tpv →
        if g.externalCoTSelected then tpv.mode ≥ 2 → tpv.place = g.place
        else tpv.hasFix = true ∨ tpv.mode < 2 ∧ g.isValid = false
  | .adopt _ =>
      ∀ pos srcIP, g.listener = .known pos srcIP →
        g.externalCoTSelected = true ∧ g.isKnownEUD srcIP = true ∨ pos.place = g.place
  | _ => True

variable {d : Decode F T}

/-- A step that leaves what is reported and is not gpsd's obeys the law. -/
theorem law_of_keeps {g t : GPSService F T} {a : Action T} (hgpsd : a.ofGpsd = false)
    (hplace : t.place = g.place) : Law d g a t :=
  ⟨fun _ _ => hplace, fun _ _ => hplace, fun _ _ _ _ => hplace, fun _ _ _ ha => by
    subst ha
    simp [Action.ofGpsd] at hgpsd⟩

/-! ## What the writers do -/

namespace GPSService

variable {now : T} (g : GPSService F T)

theorem updateConstellation_keeps (now : T) (sky : SKYReport F) :
    (g.updateConstellation d now sky).place = g.place ∧
      (g.updateConstellation d now sky).isValid = g.isValid := by
  unfold updateConstellation
  repeat' split
  all_goals exact ⟨rfl, rfl⟩

theorem updatePosition_place [Zero T] (tpv : TPVReport F) :
    (g.updatePosition d now tpv).place = if tpv.mode ≥ 2 then tpv.place else g.place := by
  unfold updatePosition
  split <;> rfl

theorem updatePosition_isValid [Zero T] (tpv : TPVReport F) :
    (g.updatePosition d now tpv).isValid = if tpv.mode ≥ 2 then true else g.isValid := by
  unfold updatePosition
  split <;> rfl

variable [Zero F] [LT F] [DecidableLT F]

/-- A SKY report moves nothing. -/
theorem updateSatelliteInfo_keeps (sky : SKYReport F) :
    (g.updateSatelliteInfo d now sky).place = g.place ∧
      (g.updateSatelliteInfo d now sky).isValid = g.isValid := by
  have h := g.updateConstellation_keeps (d := d) now sky
  unfold updateSatelliteInfo
  dsimp only
  repeat' split
  all_goals exact h

variable [Zero T]

/-- A line from gpsd that is no TPV report leaves what is reported. -/
theorem processGPSDMessage_keeps {message : String} (h : tpvOf d message = none) :
    (g.processGPSDMessage d now message).place = g.place := by
  unfold tpvOf at h
  unfold processGPSDMessage
  split
  · rfl
  · rename_i hjson
    rw [if_neg hjson] at h
    split
    · rename_i hclass
      rw [if_pos hclass] at h
      rw [h]
    · split
      · exact (g.updateSatelliteInfo_keeps _).1
      · rfl
    · rfl

/-- One that is does what `updatePosition` does. -/
theorem processGPSDMessage_tpv {message : String} {tpv : TPVReport F}
    (h : tpvOf d message = some tpv) :
    g.processGPSDMessage d now message = g.updatePosition d now tpv := by
  unfold tpvOf at h
  split at h
  · simp at h
  · rename_i hjson
    split at h
    · rename_i hclass
      unfold processGPSDMessage
      simp only [if_neg hjson, hclass, h]
    · simp at h

/-- gpsd has no part in what the listener goes by. -/
theorem processGPSDMessage_frame (now : T) (message : String) :
    (g.processGPSDMessage d now message).listener = g.listener ∧
      (g.processGPSDMessage d now message).source = g.source ∧
      (g.processGPSDMessage d now message).leases = g.leases := by
  unfold processGPSDMessage updatePosition updateSatelliteInfo updateConstellation
  dsimp only
  repeat' split
  all_goals exact ⟨rfl, rfl, rfl⟩

end GPSService

/-! ## Steps -/

theorem law_adopt_iff [Zero F] (g : GPSService F T) {pos : CotPosition F} {srcIP : String} (now : T)
    (hknown : g.listener = .known pos srcIP) :
    Law d g (.adopt now) { g.applyExternalPosition now pos with listener := .reading } ↔
      Sourced d g (.adopt now) := by
  have hplace : ({ g.applyExternalPosition now pos with listener := .reading } :
    GPSService F T).place = pos.place := rfl
  constructor
  · rintro ⟨-, hinternal, hlease, -⟩ pos' srcIP' hknown'
    rw [hknown] at hknown'
    cases hknown'
    cases hsel : g.externalCoTSelected with
    | false => exact Or.inr (hinternal rfl hsel)
    | true =>
        cases heud : g.isKnownEUD srcIP with
        | false => exact Or.inr (hlease rfl srcIP (by rw [hknown]; rfl) heud)
        | true => exact Or.inl ⟨rfl, rfl⟩
  · intro h
    refine ⟨fun hgpsd => by simp [Action.ofGpsd] at hgpsd, fun _ hsel => ?_,
      fun _ srcIP' hsender heud => ?_, fun _ _ _ hgpsd => by simp at hgpsd⟩
    · refine (h pos srcIP hknown).elim (fun hboth => ?_) id
      exact absurd (hboth.1.symm.trans hsel) (by decide)
    · rw [hknown] at hsender
      obtain rfl := Option.some.inj hsender
      refine (h pos srcIP hknown).elim (fun hboth => ?_) id
      exact absurd (hboth.2.symm.trans heud) (by decide)

variable [Zero F] [LT F] [DecidableLT F] [Zero T]

theorem law_gpsd_iff (g : GPSService F T) (message : String) (now : T) :
    Law d g (.gpsd message now) (g.processGPSDMessage d now message) ↔
      Sourced d g (.gpsd message now) := by
  constructor
  · intro h tpv htpv
    cases hsel : g.externalCoTSelected with
    | true =>
        intro hmode
        have hplace := h.gpsd rfl hsel
        rwa [g.processGPSDMessage_tpv htpv, g.updatePosition_place, if_pos hmode] at hplace
    | false =>
        have hfix := h.fix message now tpv rfl htpv hsel
        rw [g.processGPSDMessage_tpv htpv, g.updatePosition_isValid] at hfix
        split at hfix
        · exact Or.inl hfix.symm
        · rename_i hmode
          refine Or.inr ⟨by omega, hfix.trans ?_⟩
          simp only [TPVReport.hasFix, decide_eq_false_iff_not]
          omega
  · intro h
    refine ⟨fun _ hsel => ?_, fun hcot => by simp [Action.ofCoT] at hcot,
      fun hcot => by simp [Action.ofCoT] at hcot, ?_⟩
    · cases htpv : tpvOf d message with
      | none => exact g.processGPSDMessage_keeps htpv
      | some tpv =>
          have hplace := h tpv htpv
          rw [if_pos hsel] at hplace
          rw [g.processGPSDMessage_tpv htpv, g.updatePosition_place]
          split
          · exact hplace ‹_›
          · rfl
    · rintro _ _ tpv ⟨⟩ htpv hsel
      have hfix := h tpv htpv
      rw [hsel, if_neg Bool.false_ne_true] at hfix
      rw [g.processGPSDMessage_tpv htpv, g.updatePosition_isValid]
      rcases hfix with hfix | ⟨hmode, hvalid⟩
      · have hmode : tpv.mode ≥ 2 := by
          simp only [TPVReport.hasFix, decide_eq_true_eq] at hfix
          omega
        rw [if_pos hmode, hfix]
      · rw [if_neg (by omega), hvalid]
        symm
        simp only [TPVReport.hasFix, decide_eq_false_iff_not]
        omega

variable [DecidableEq F]

/-- **The law, step by step.** -/
theorem law_iff {g t : GPSService F T} {a : Action T} (h : step d g a = some t) :
    Law d g a t ↔ Sourced d g a := by
  cases a with
  | gpsd message now =>
      obtain rfl := Option.some.inj h
      exact law_gpsd_iff g message now
  | setSource source =>
      simp only [step, Option.map_eq_some_iff] at h
      obtain ⟨_, _, rfl⟩ := h
      exact iff_of_true (law_of_keeps rfl rfl) trivial
  | setLeases leases =>
      obtain rfl := Option.some.inj h
      exact iff_of_true (law_of_keeps rfl rfl) trivial
  | datagram data srcIP =>
      simp only [step] at h
      split at h
      · obtain rfl := Option.some.inj h
        exact iff_of_true (law_of_keeps rfl rfl) trivial
      · simp at h
  | select =>
      simp only [step] at h
      split at h
      · obtain rfl := Option.some.inj h
        exact iff_of_true (law_of_keeps rfl rfl) trivial
      · simp at h
  | lookup =>
      simp only [step] at h
      split at h
      · split at h <;>
        · obtain rfl := Option.some.inj h
          exact iff_of_true (law_of_keeps rfl rfl) trivial
      · simp at h
  | adopt now =>
      simp only [step] at h
      split at h
      · rename_i hknown
        obtain rfl := Option.some.inj h
        exact law_adopt_iff g now hknown
      · simp at h

/-! ## Runs -/

/-- **Where the position comes from, over every run.** The law holds of every
step of a run if and only if every step is taken where it does no harm. -/
theorem position_sourced_iff (d : Decode F T) (g : GPSService F T) (as : List (Action T)) :
    Always (step d) (fun g a => ∀ t, step d g a = some t → Law d g a t) g as ↔
      Always (step d) (Sourced d) g as := by
  refine Always.congr (fun g a => ?_) g as
  cases ht : step d g a with
  | some t =>
      rw [← law_iff ht]
      exact ⟨fun h => h t rfl, fun h u hu => Option.some.inj hu ▸ h⟩
  | none =>
      refine iff_of_true (fun t h => by simp at h) ?_
      cases a with
      | gpsd => simp [step] at ht
      | adopt now =>
          intro pos srcIP hknown
          simp [step, hknown] at ht
      | _ => trivial

/-! ## The listener -/

/-- Neither the source nor the leases change under a datagram that has been
found good. -/
def Quiet (g : GPSService F T) : Action T → Prop
  | .setSource _ | .setLeases _ => g.listener = .reading ∨ ∃ data srcIP, g.listener = .received data srcIP
  | _ => True

/-- What the listener has found out is so. -/
def Listening (g : GPSService F T) : Prop :=
  match g.listener with
  | .selected _ _ => g.externalCoTSelected = true
  | .known _ srcIP => g.externalCoTSelected = true ∧ g.isKnownEUD srcIP = true
  | _ => True

theorem step_listening {g t : GPSService F T} {a : Action T} (hg : Listening g) (ha : Quiet g a)
    (h : step d g a = some t) : Listening t := by
  cases a with
  | gpsd message now =>
      obtain rfl := Option.some.inj h
      obtain ⟨hlistener, hsource, hleases⟩ := g.processGPSDMessage_frame (d := d) now message
      simp only [Listening, GPSService.externalCoTSelected, GPSService.isKnownEUD, hlistener, hsource,
        hleases] at hg ⊢
      exact hg
  | setSource source =>
      simp only [step, Option.map_eq_some_iff] at h
      obtain ⟨_, _, rfl⟩ := h
      rcases ha with hreading | ⟨data, srcIP, hreceived⟩
      · simp only [Listening, hreading]
      · simp only [Listening, hreceived]
  | setLeases leases =>
      obtain rfl := Option.some.inj h
      rcases ha with hreading | ⟨data, srcIP, hreceived⟩
      · simp only [Listening, hreading]
      · simp only [Listening, hreceived]
  | datagram data srcIP =>
      simp only [step] at h
      split at h
      · obtain rfl := Option.some.inj h
        trivial
      · simp at h
  | select =>
      simp only [step] at h
      split at h
      · obtain rfl := Option.some.inj h
        cases hsel : g.externalCoTSelected with
        | true => exact hsel
        | false => trivial
      · simp at h
  | lookup =>
      simp only [step] at h
      split at h
      · rename_i hselected
        simp only [Listening, hselected] at hg
        split at h
        · obtain rfl := Option.some.inj h
          split
          · exact ⟨hg, ‹_›⟩
          · trivial
        · obtain rfl := Option.some.inj h
          trivial
      · simp at h
  | adopt now =>
      simp only [step] at h
      split at h
      · obtain rfl := Option.some.inj h
        trivial
      · simp at h

/-- The lines of a receiver that has a fix and loses it. -/
def fixLine : String := "\x7b\"class\":\"TPV\",\"mode\":3,\"lat\":1,\"lon\":2,\"alt\":3\x7d"

/-- The line without a fix. -/
def lostLine : String := "\x7b\"class\":\"TPV\",\"mode\":1\x7d"

/-- What these two lines decode to, and a datagram of one byte. -/
def decode : Decode ℤ ℕ where
  baseMsg := fun message => if message = fixLine ∨ message = lostLine then some "TPV" else none
  tpv := fun message =>
    if message = fixLine then some ⟨"", 3, 1, 2, 3, 0, 0, 0, 0, 0, 0, 0, 0, 0, 0⟩
    else if message = lostLine then some ⟨"", 1, 0, 0, 0, 0, 0, 0, 0, 0, 0, 0, 0, 0, 0⟩
    else none
  sky := fun _ => none
  parseTime := fun _ => none
  readProtoMesh := fun _ => none
  unmarshalXML := fun _ => none

/-- **Neither half of the law holds of every run.** A fix of the local receiver
moves the position of a node that reports a device's, and a receiver that loses
its fix leaves the report valid. -/
theorem position_not_sourced :
    (¬ Always (step decode) (fun g a => ∀ t, step decode g a = some t → Law decode g a t)
      (newGPSService (some "external_cot") (some [])) [.gpsd fixLine 0]) ∧
    ¬ Always (step decode) (fun g a => ∀ t, step decode g a = some t → Law decode g a t)
      (newGPSService (some "internal") (some [])) [.gpsd fixLine 0, .gpsd lostLine 1] := by
  constructor
  · intro h
    exact absurd ((h.1 _ rfl).gpsd rfl rfl) (by decide)
  · intro h
    exact absurd (((h.2 _ rfl).1 _ rfl).fix lostLine 1 _ rfl rfl rfl) (by decide)

end Gnss

end OpenManet
