import OpenManet.Comms.Fec.Damping
import Mathlib.Tactic.NormNum
import Mathlib.Tactic.Ring
/-!
# Error correction — the reaction

From a floor that is itself a level, the adapter gets to the highest level
within four bad ticks, wherever it stands, and back to the floor once the
smoothed loss has died down and the dwells have passed. From a floor between
two levels it does neither: the state machine knows three levels by name, and
an adapter that starts elsewhere never moves.
-/

namespace OpenManet

namespace Fec

/-! ## What a run is fed -/

/-- An active tick with a loss of one half or more, that the encoder takes. -/
def Lossy (a : Adapter) (t : Tick) : Prop :=
  (a.deltas t).anyActivity = true ∧ 1 / 2 ≤ lossRaw (a.deltas t) ∧ t.accepts = true

/-- An active tick without a loss, that the encoder takes. -/
def Calm (a : Adapter) (t : Tick) : Prop :=
  (a.deltas t).anyActivity = true ∧ lossRaw (a.deltas t) = 0 ∧ t.accepts = true

/-- Every tick of the run is of a kind. -/
def Fed (P : Adapter → Tick → Prop) (a : Adapter) (ts : List Tick) : Prop :=
  ∀ e ∈ trace Adapter.step a ts, P e.1 e.2.1

/-- Ten bad ticks lead to the highest level. -/
def ReachesTop (a : Adapter) : Prop :=
  ∀ ts : List Tick, ts.length = 10 → Fed Lossy a ts → (after Adapter.step a ts).currentLevel = 40

/-- Enough good ticks lead to a level. -/
def Returns (a : Adapter) (level : ℤ) : Prop :=
  ∃ n, ∀ ts : List Tick, n ≤ ts.length → Fed Calm a ts →
    (after Adapter.step a ts).currentLevel = level

variable {a : Adapter} {t : Tick} {ts : List Tick} {P : Adapter → Tick → Prop} {floor : ℤ}

theorem fed_cons : Fed P a (t :: ts) ↔ P a t ∧ Fed P (a.tick t) ts := List.forall_mem_cons

/-- What holds after `k` ticks of a kind, if each tick brings it one further. -/
theorem after_fed {I : ℕ → Adapter → Prop}
    (hstep : ∀ k a t, I k a → P a t → I (k + 1) (a.tick t)) {k : ℕ} (ha : I k a)
    (hfed : Fed P a ts) : I (k + ts.length) (after Adapter.step a ts) := by
  induction ts generalizing a k with
  | nil => exact ha
  | cons t ts ih =>
      obtain ⟨hfirst, hrest⟩ := fed_cons.1 hfed
      have hlast := ih (hstep k a t ha hfirst) hrest
      rw [List.length_cons, Nat.add_comm ts.length 1, ← Nat.add_assoc]
      exact hlast

/-- An active tick, with its loss. -/
theorem tick_eq (hactive : (a.deltas t).anyActivity = true) {loss : ℚ}
    (hloss : ewmaAlpha * lossRaw (a.deltas t) + (1 - ewmaAlpha) * a.lossEWMA = loss) :
    ∃ prev silent, a.tick t =
      ({ a with prev := prev, silentTicks := silent, lossEWMA := loss } : Adapter).applyStateMachine
        t.accepts :=
  ⟨_, _, by rw [tick_of_active hactive, hloss]⟩

/-! ## Dwells -/

section Dwell

variable {b : Adapter} {target : ℤ}

/-- A transition that the encoder takes ends at the target, or at the floor
where that is higher. -/
theorem transition_taken (b : Adapter) (target : ℤ) :
    (b.transition target true).currentLevel = max target b.floor ∧
      (b.transition target true).lossEWMA = b.lossEWMA ∧
      (b.transition target true).floor = b.floor ∧
      (b.transition target true).downgradeTicks = 0 := by
  have hclamp : (if target < b.floor then b.floor else target) = max target b.floor := by
    split
    · omega
    · omega
  rw [Adapter.transition, hclamp]
  split
  · next hsame => exact ⟨hsame.symm, rfl, rfl, rfl⟩
  · exact ⟨rfl, rfl, rfl, rfl⟩

/-- **Asking for an upgrade**: the dwell is over, or one tick nearer to it. -/
theorem askUp_taken (b : Adapter) (target : ℤ) :
    (b.askUp target true).lossEWMA = b.lossEWMA ∧ (b.askUp target true).floor = b.floor ∧
      ((b.askUp target true).currentLevel = max target b.floor ∨
        (b.askUp target true).currentLevel = b.currentLevel ∧
          (b.askUp target true).upgradeTicks = b.upgradeTicks + 1 ∧ b.upgradeTicks + 1 < 2) := by
  unfold Adapter.askUp
  dsimp only
  split
  · obtain ⟨hlevel, hloss, hfloor, -⟩ := transition_taken
      { b with upgradeTicks := b.upgradeTicks + 1, downgradeTicks := 0 } target
    exact ⟨hloss, hfloor, .inl hlevel⟩
  · next hdwell => exact ⟨rfl, rfl, .inr ⟨rfl, rfl, not_le.1 hdwell⟩⟩

/-- **Asking for a downgrade.** -/
theorem askDown_taken (b : Adapter) (target : ℤ) :
    (b.askDown target true).lossEWMA = b.lossEWMA ∧ (b.askDown target true).floor = b.floor ∧
      (15 ≤ b.downgradeTicks + 1 ∧ (b.askDown target true).currentLevel = max target b.floor ∧
          (b.askDown target true).downgradeTicks = 0 ∨
        b.downgradeTicks + 1 < 15 ∧ (b.askDown target true).currentLevel = b.currentLevel ∧
          (b.askDown target true).downgradeTicks = b.downgradeTicks + 1) := by
  unfold Adapter.askDown
  dsimp only
  split
  · next hdwell =>
    obtain ⟨hlevel, hloss, hfloor, hdown⟩ := transition_taken
      { b with downgradeTicks := b.downgradeTicks + 1, upgradeTicks := 0 } target
    exact ⟨hloss, hfloor, .inl ⟨hdwell, hlevel, hdown⟩⟩
  · next hdwell => exact ⟨rfl, rfl, .inr ⟨not_le.1 hdwell, rfl, rfl⟩⟩

end Dwell

/-! ## Up -/

/-- The adapter stands at one of the three levels, its floor at or below. -/
def OnRung (a : Adapter) : Prop :=
  (a.currentLevel = 20 ∨ a.currentLevel = 30 ∨ a.currentLevel = 40) ∧ a.floor ≤ a.currentLevel

/-- How far `k` bad ticks have brought the adapter. -/
def Climbed : ℕ → Adapter → Prop
  | 0, a => 0 ≤ a.lossEWMA
  | 1, a => 1 / 10 ≤ a.lossEWMA ∧ (a.currentLevel = 20 → 1 ≤ a.upgradeTicks)
  | 2, a => 18 / 100 ≤ a.lossEWMA ∧ a.currentLevel ≠ 20
  | 3, a => 1 / 5 < a.lossEWMA ∧ a.currentLevel ≠ 20 ∧ (a.currentLevel = 30 → 1 ≤ a.upgradeTicks)
  | _, a => 1 / 5 < a.lossEWMA ∧ a.currentLevel = 40

/-- What the state machine does with a loss of a tenth or more. -/
theorem machine_up {b : Adapter} (hrung : OnRung b) (hloss : 1 / 10 ≤ b.lossEWMA) :
    let r := b.applyStateMachine true
    OnRung r ∧ r.lossEWMA = b.lossEWMA ∧
      (r.currentLevel = 20 → b.currentLevel = 20 ∧ r.upgradeTicks = b.upgradeTicks + 1 ∧
        b.upgradeTicks + 1 < 2) ∧
      (1 / 5 < b.lossEWMA → r.currentLevel = 30 → b.currentLevel = 20 ∨
        r.upgradeTicks = b.upgradeTicks + 1 ∧ b.upgradeTicks + 1 < 2) ∧
      (b.currentLevel = 40 → r.currentLevel = 40) := by
  obtain ⟨hlevel, hfloor⟩ := hrung
  unfold Adapter.applyStateMachine OnRung
  dsimp only
  rcases hlevel with h20 | h30 | h40
  · have hup : thresh20to30Up < b.lossEWMA := lt_of_lt_of_le (by norm_num [thresh20to30Up]) hloss
    rw [if_pos h20, if_pos hup]
    obtain ⟨hsame, hfloor', hmoved⟩ := askUp_taken b 30
    have hclamp : max (30 : ℤ) b.floor = 30 := by omega
    rw [hclamp] at hmoved
    refine ⟨?_, hsame, ?_, fun _ _ => .inl h20, fun h40 => ?_⟩
    · rw [hfloor']
      omega
    · intro hstill
      rcases hmoved with hmoved | ⟨-, hticks, hdwell⟩
      · omega
      · exact ⟨h20, hticks, hdwell⟩
    · omega
  · rw [if_neg (by omega), if_pos h30]
    have hdown : ¬ b.lossEWMA < thresh30to20Down :=
      not_lt.2 (le_trans (by norm_num [thresh30to20Down]) hloss)
    by_cases hup : thresh30to40Up < b.lossEWMA
    · rw [if_pos hup]
      obtain ⟨hsame, hfloor', hmoved⟩ := askUp_taken b 40
      have hclamp : max (40 : ℤ) b.floor = 40 := by omega
      rw [hclamp] at hmoved
      refine ⟨?_, hsame, fun hstill => ?_, fun _ hstill => ?_, fun h40 => ?_⟩
      · rw [hfloor']
        omega
      · omega
      · rcases hmoved with hmoved | ⟨-, hticks, hdwell⟩
        · omega
        · exact .inr ⟨hticks, hdwell⟩
      · omega
    · rw [if_neg hup, if_neg hdown]
      refine ⟨⟨.inr (.inl h30), hfloor⟩, rfl, fun hstill => ?_, fun hhigh => ?_, fun h40 => ?_⟩
      · dsimp only at hstill
        omega
      · refine absurd hhigh (not_lt.2 ?_)
        have heq : (1 : ℚ) / 5 = thresh30to40Up := by norm_num [thresh30to40Up]
        rw [heq]
        exact not_lt.1 hup
      · omega
  · rw [if_neg (by omega), if_neg (by omega), if_pos h40]
    have hdown : ¬ b.lossEWMA < thresh40to30Down :=
      not_lt.2 (le_trans (by norm_num [thresh40to30Down]) hloss)
    rw [if_neg hdown]
    refine ⟨⟨.inr (.inr h40), hfloor⟩, rfl, fun hstill => ?_, fun _ hstill => ?_, fun _ => h40⟩
    · dsimp only at hstill
      omega
    · dsimp only at hstill
      omega

/-- **One bad tick.** -/
theorem climbed_tick {k : ℕ} (hrung : OnRung a) (hclimbed : Climbed k a) (hlossy : Lossy a t) :
    OnRung (a.tick t) ∧ Climbed (k + 1) (a.tick t) := by
  obtain ⟨hactive, hraw, haccepts⟩ := hlossy
  obtain ⟨prev, silent, htick⟩ := tick_eq hactive rfl
  rw [haccepts] at htick
  have hold : 0 ≤ a.lossEWMA := by
    match k, hclimbed with
    | 0, h => exact h
    | 1, h => linarith [h.1]
    | 2, h => linarith [h.1]
    | 3, h => linarith [h.1]
    | _ + 4, h => linarith [h.1]
  set loss := ewmaAlpha * lossRaw (a.deltas t) + (1 - ewmaAlpha) * a.lossEWMA with hdef
  have hstep : 1 / 10 + 4 / 5 * a.lossEWMA ≤ loss := by
    rw [hdef, ewmaAlpha]
    linarith
  obtain ⟨hrung', hloss, hlow, hmid, htop⟩ := @machine_up
    { a with prev := prev, silentTicks := silent, lossEWMA := loss } hrung
    (by dsimp only; linarith)
  rw [← htick] at hrung' hloss hlow hmid htop
  dsimp only at hloss hlow hmid htop
  refine ⟨hrung', ?_⟩
  obtain ⟨hlevel, -⟩ := hrung'
  match k, hclimbed with
  | 0, h =>
      refine ⟨by rw [hloss]; linarith, fun h20 => ?_⟩
      have hticks := (hlow h20).2.1
      omega
  | 1, h =>
      refine ⟨by rw [hloss]; linarith [h.1], fun h20 => ?_⟩
      obtain ⟨hwas, -, hdwell⟩ := hlow h20
      have hone := h.2 hwas
      omega
  | 2, h =>
      have hhigh : 1 / 5 < loss := by linarith [h.1]
      refine ⟨by rw [hloss]; exact hhigh, fun h20 => h.2 (hlow h20).1, fun h30 => ?_⟩
      rcases hmid hhigh h30 with hwas | ⟨hticks, -⟩
      · exact absurd hwas h.2
      · omega
  | 3, h =>
      have hhigh : 1 / 5 < loss := by linarith [h.1]
      refine ⟨by rw [hloss]; exact hhigh, ?_⟩
      rcases hlevel with h20 | h30 | h40
      · exact absurd (hlow h20).1 h.2.1
      · rcases hmid hhigh h30 with hwas | ⟨-, hdwell⟩
        · exact absurd hwas h.2.1
        · -- the second tick of the dwell
          have hwas : a.currentLevel = 30 := by
            by_contra hno
            have h40 := htop (by have := hrung.1; have := h.2.1; omega)
            omega
          have hone := h.2.2 hwas
          omega
      · exact h40
  | _ + 4, h =>
      have hhigh : 1 / 5 < loss := by linarith [h.1]
      exact ⟨by rw [hloss]; exact hhigh, htop h.2⟩

/-- **From any of the levels, ten bad ticks are enough**; four are. -/
theorem reachesTop_of_onRung (hrung : OnRung a) (hloss : 0 ≤ a.lossEWMA) : ReachesTop a := by
  intro ts hlength hfed
  have hlast := @after_fed a ts Lossy (fun k a => OnRung a ∧ Climbed k a)
    (fun k a t h hlossy => climbed_tick h.1 h.2 hlossy) 0 ⟨hrung, hloss⟩ hfed
  rw [hlength] at hlast
  exact hlast.2.2

/-! ## Down -/

/-- The most ticks without a loss before the floor is reached, once the
smoothed loss is below every threshold. -/
def ticksToFloor (a : Adapter) : ℕ :=
  if a.currentLevel = a.floor then 0
  else if a.currentLevel = 30 ∨ a.floor = 30 then 16 - min 15 a.downgradeTicks
  else 32 - min 15 a.downgradeTicks

/-- The floor is a level, and the adapter at or above it. -/
def AtLevels (a : Adapter) : Prop :=
  (a.floor = 20 ∨ a.floor = 30 ∨ a.floor = 40) ∧ OnRung a

/-- What the state machine does with a loss below every threshold. -/
theorem machine_down {b : Adapter} (hlevels : AtLevels b) (hloss : b.lossEWMA < 3 / 100) :
    let r := b.applyStateMachine true
    AtLevels r ∧ r.floor = b.floor ∧ r.lossEWMA = b.lossEWMA ∧
      ticksToFloor r ≤ ticksToFloor b - 1 := by
  obtain ⟨hfloor, hlevel, hle⟩ := hlevels
  unfold Adapter.applyStateMachine
  dsimp only
  rcases hlevel with h20 | h30 | h40
  · have hup : ¬ thresh20to30Up < b.lossEWMA :=
      not_lt.2 (le_trans hloss.le (by norm_num [thresh20to30Up]))
    have hsame : b.currentLevel = b.floor := by omega
    rw [if_pos h20, if_neg hup]
    refine ⟨⟨hfloor, .inl h20, hle⟩, rfl, rfl, ?_⟩
    rw [ticksToFloor, if_pos hsame]
    exact Nat.zero_le _
  · have hup : ¬ thresh30to40Up < b.lossEWMA :=
      not_lt.2 (le_trans hloss.le (by norm_num [thresh30to40Up]))
    have hdown : b.lossEWMA < thresh30to20Down := lt_of_lt_of_le hloss (by norm_num [thresh30to20Down])
    rw [if_neg (by omega), if_pos h30, if_neg hup, if_pos hdown]
    obtain ⟨hsame, hfloor', hmoved⟩ := askDown_taken b 20
    refine ⟨?_, hfloor', hsame, ?_⟩
    · unfold AtLevels OnRung
      rw [hfloor']
      omega
    · unfold ticksToFloor
      rw [hfloor']
      split_ifs <;> omega
  · have hdown : b.lossEWMA < thresh40to30Down := lt_of_lt_of_le hloss (by norm_num [thresh40to30Down])
    rw [if_neg (by omega), if_neg (by omega), if_pos h40, if_pos hdown]
    obtain ⟨hsame, hfloor', hmoved⟩ := askDown_taken b 30
    refine ⟨?_, hfloor', hsame, ?_⟩
    · unfold AtLevels OnRung
      rw [hfloor']
      omega
    · unfold ticksToFloor
      rw [hfloor']
      split_ifs <;> omega

/-- A tick without a loss takes a fifth off the smoothed loss. -/
theorem calm_tick (hcalm : Calm a t) :
    ∃ prev silent, a.tick t =
      ({ a with prev := prev, silentTicks := silent, lossEWMA := 4 / 5 * a.lossEWMA } :
        Adapter).applyStateMachine true := by
  obtain ⟨hactive, hraw, haccepts⟩ := hcalm
  have hloss : ewmaAlpha * lossRaw (a.deltas t) + (1 - ewmaAlpha) * a.lossEWMA =
      4 / 5 * a.lossEWMA := by
    rw [hraw, ewmaAlpha]
    ring
  obtain ⟨prev, silent, htick⟩ := tick_eq hactive hloss
  exact ⟨prev, silent, by rw [htick, haccepts]⟩

/-- The state machine leaves the loss alone. -/
theorem applyStateMachine_loss (b : Adapter) (accepts : Bool) :
    (b.applyStateMachine accepts).lossEWMA = b.lossEWMA := by
  have htransition : ∀ (b : Adapter) target, (b.transition target accepts).lossEWMA = b.lossEWMA := by
    intro b target
    obtain ⟨-, -, -, hloss, -⟩ := transition_cases b target accepts
    exact hloss
  unfold Adapter.applyStateMachine Adapter.askUp Adapter.askDown
  dsimp only
  split_ifs <;> first | rfl | exact htransition _ _

/-- **The smoothed loss dies down** over ticks without a loss. -/
theorem loss_after_calm (hloss : a.lossEWMA ≤ 1) (hfed : Fed Calm a ts) :
    (after Adapter.step a ts).lossEWMA ≤ (4 / 5) ^ ts.length := by
  have hlast := @after_fed a ts Calm (fun k a => a.lossEWMA ≤ (4 / 5) ^ k) (fun k a t h hcalm => by
    obtain ⟨prev, silent, htick⟩ := calm_tick hcalm
    rw [htick, applyStateMachine_loss, pow_succ]
    dsimp only
    linarith) 0 (by simpa using hloss) hfed
  rwa [Nat.zero_add] at hlast

/-- **Below every threshold, a tick without a loss leads towards the
floor.** -/
theorem calm_run {level : ℤ} (hlevels : AtLevels a) (hfloor : a.floor = level)
    (hloss : 0 ≤ a.lossEWMA ∧ a.lossEWMA < 3 / 100) (hfed : Fed Calm a ts)
    (hlong : ticksToFloor a ≤ ts.length) : (after Adapter.step a ts).currentLevel = level := by
  have hlast := @after_fed _ ts Calm (fun k b => AtLevels b ∧ b.floor = level ∧
      (0 ≤ b.lossEWMA ∧ b.lossEWMA < 3 / 100) ∧ ticksToFloor b ≤ ticksToFloor a - k)
    (fun k b t h hcalm => by
      obtain ⟨hlevels, hfloor, hloss, hticks⟩ := h
      obtain ⟨prev, silent, htick⟩ := calm_tick hcalm
      obtain ⟨hlevels', hfloor', hloss', hticks'⟩ := @machine_down
        { b with prev := prev, silentTicks := silent, lossEWMA := 4 / 5 * b.lossEWMA } hlevels
        (by dsimp only; linarith [hloss.2])
      rw [← htick] at hlevels' hfloor' hloss' hticks'
      have hsame : ticksToFloor
          { b with prev := prev, silentTicks := silent, lossEWMA := 4 / 5 * b.lossEWMA } =
            ticksToFloor b := rfl
      rw [hsame] at hticks'
      dsimp only at hfloor' hloss'
      refine ⟨hlevels', hfloor'.trans hfloor, ⟨?_, ?_⟩, by omega⟩
      · rw [hloss']
        linarith [hloss.1]
      · rw [hloss']
        linarith [hloss.2]) 0 ⟨hlevels, hfloor, hloss, le_rfl⟩ hfed
  rw [Nat.zero_add] at hlast
  obtain ⟨hlevels', hfloor', -, hticks⟩ := hlast
  have hzero : ticksToFloor (after Adapter.step a ts) = 0 := by omega
  unfold ticksToFloor at hzero
  split_ifs at hzero with hsame
  · exact hsame.trans hfloor'
  · omega
  · omega

/-! ## Between two levels -/

/-- A tick on one port that heard nothing but gaps since the last. -/
def flood (a : Adapter) : Tick where
  ports := (grow a.prev 1).head?.toList.map fun p => some ⟨true, p.rxPushed, some fun b => p.buckets b + 1⟩
  accepts := true

theorem lossy_flood (a : Adapter) : Lossy a (flood a) := by
  obtain ⟨p, rest, hgrow⟩ : ∃ p rest, grow a.prev 1 = p :: rest := by
    unfold grow
    cases hprev : a.prev with
    | nil => exact ⟨_, _, rfl⟩
    | cons p rest => exact ⟨p, rest, by simp⟩
  have hports : (flood a).ports = [some ⟨true, p.rxPushed, some fun b => p.buckets b + 1⟩] := by
    rw [flood, hgrow]
    rfl
  have hdeltas : a.deltas (flood a) = ⟨0, 137, true⟩ := by
    rw [Adapter.deltas, hports, List.length_singleton, hgrow]
    have hsum : ∑ b, gapBucketMidpoints b = 137 := by decide
    have hmissing : (⟨true, p.rxPushed, some fun b => p.buckets b + 1⟩ : Port).missingDelta p = 137 := by
      rw [← hsum]
      refine Finset.sum_congr rfl fun b _ => ?_
      have hone : delta (p.buckets b + 1) (p.buckets b) = 1 := by
        rw [delta, if_neg (by omega)]
        omega
      change delta (p.buckets b + 1) (p.buckets b) * _ = _
      rw [hone, one_mul]
    have hpushed : (⟨true, p.rxPushed, some fun b => p.buckets b + 1⟩ : Port).pushedDelta p = 0 := by
      change delta p.rxPushed p.rxPushed = 0
      rw [delta, if_neg (by omega), sub_self]
    simp [walk, hmissing, hpushed]
  refine ⟨by rw [hdeltas], ?_, rfl⟩
  rw [hdeltas, lossRaw]
  norm_num

/-- That many of them in a row. -/
def floods : ℕ → Adapter → List Tick
  | 0, _ => []
  | n + 1, a => flood a :: floods n (a.tick (flood a))

theorem length_floods (n : ℕ) (a : Adapter) : (floods n a).length = n := by
  induction n generalizing a with
  | zero => rfl
  | succ n ih => exact congrArg (· + 1) (ih _)

theorem fed_floods (n : ℕ) (a : Adapter) : Fed Lossy a (floods n a) := by
  induction n generalizing a with
  | zero => intro e he; cases he
  | succ n ih => exact fed_cons.2 ⟨lossy_flood a, ih _⟩

/-- **Between two levels nothing moves.** -/
theorem level_between {h : List Sample} (hdamped : Damped floor h a) (hlow : 20 < floor)
    (hhigh : floor < 40) (hmid : floor ≠ 30) (ts : List Tick) :
    (after Adapter.step a ts).currentLevel = floor := by
  have hlast := damped_run hdamped ts
  rcases hlast.ladder with hsame | ⟨hfloor, -⟩
  · exact hsame.trans hlast.floor
  · rw [hlast.floor] at hfloor
    omega

/-! ## Every run -/

/-- What a configured floor is to the adapter it makes. -/
theorem atLevels_of_damped {h : List Sample} (hdamped : Damped (clampFloor floor) h a)
    (hfloor : floor ≤ 20 ∨ floor = 30 ∨ floor = 40) : AtLevels a := by
  have hle := hdamped.ladder.floor_le
  have hladder := hdamped.ladder
  unfold AtLevels OnRung
  rw [Adapter.OnLadder, hdamped.floor, clampFloor] at hladder
  rw [hdamped.floor, clampFloor] at hle ⊢
  omega

/-- **The adapter can react, from every state, exactly if its floor is a
level.** Then ten bad ticks in a row lead to the highest level, and enough
ticks without a loss back to the floor. With a floor strictly between two
levels no bad ticks lead anywhere. -/
theorem reacts_iff {ports : ℕ} {floor : ℤ} {history : List Tick} (hmin : 10 ≤ floor)
    (hmax : floor ≤ 40) :
    let a := after Adapter.step (newFECAdapter ports floor true) history
    ReachesTop a ∧ Returns a (max floor 20) ↔ floor ≤ 20 ∨ floor = 30 ∨ floor = 40 := by
  intro a
  have hdamped : Damped (clampFloor floor) (samples (newFECAdapter ports floor true) history) a :=
    damped_run (damped_new ports floor) history
  have hclamp : clampFloor floor = max floor 20 := by
    rw [clampFloor]
    omega
  constructor
  · rintro ⟨htop, -⟩
    by_contra hbetween
    have hstuck := @level_between a (clampFloor floor) _ hdamped (by omega) (by omega) (by omega)
      (floods 10 a)
    rw [htop _ (length_floods 10 a) (fed_floods 10 a)] at hstuck
    omega
  · intro hfloor
    refine ⟨reachesTop_of_onRung (atLevels_of_damped hdamped hfloor).2 hdamped.loss.1, 48,
      fun ts hlength hfed => ?_⟩
    -- sixteen ticks for the smoothed loss, and as many as the dwells take
    obtain ⟨early, late, hts, hearly⟩ : ∃ early late, ts = early ++ late ∧ early.length = 16 :=
      ⟨ts.take 16, ts.drop 16, (List.take_append_drop 16 ts).symm,
        List.length_take_of_le (by omega)⟩
    subst hts
    have hsplit : Fed Calm a early ∧ Fed Calm (after Adapter.step a early) late := by
      unfold Fed at hfed
      rw [trace_append, List.forall_mem_append] at hfed
      exact hfed
    have hdamped' := damped_run hdamped early
    have hloss := loss_after_calm hdamped.loss.2 hsplit.1
    rw [hearly] at hloss
    rw [after_append]
    refine calm_run (atLevels_of_damped hdamped' hfloor) (hdamped'.floor.trans hclamp)
      ⟨hdamped'.loss.1, lt_of_le_of_lt hloss (by norm_num)⟩ hsplit.2 ?_
    rw [List.length_append, hearly] at hlength
    unfold ticksToFloor
    split_ifs <;> omega

/-- The floor of thirty, which the daemon has unless it is told another. -/
theorem reacts_iff_thirty :
    ReachesTop (newFECAdapter 1 30 true) ∧ Returns (newFECAdapter 1 30 true) 30 :=
  (@reacts_iff 1 30 [] (by decide) (by decide)).2 (by decide)

/-- **A floor of twenty-five**: ten ticks of nothing but loss, and the level
is where it was. -/
theorem stuck_between_levels :
    ∃ ts : List Tick, ts.length = 10 ∧ Fed Lossy (newFECAdapter 1 25 true) ts ∧
      (after Adapter.step (newFECAdapter 1 25 true) ts).currentLevel = 25 :=
  ⟨floods 10 (newFECAdapter 1 25 true), length_floods _ _, fed_floods _ _,
    level_between (damped_new 1 25) (by decide) (by decide) (by decide) _⟩

end Fec

end OpenManet
