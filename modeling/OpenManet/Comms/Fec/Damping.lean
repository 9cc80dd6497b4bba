import OpenManet.Comms.Fec.Adapter
import Mathlib.Tactic.Linarith
import Mathlib.Tactic.Positivity
/-!
# Error correction — the damping

The two dwell counters are incremented, cleared or left alone in different
branches, and survive the silent ticks between two transmissions. What they
mean is read off the history of the active ticks: a counter at `n` says that
the last `n` of them stood at this level and asked for the move. So a level
is left only after as many ticks in a row as the dwell asks for.
-/

namespace OpenManet

namespace Fec

/-! ## The last ticks of a history -/

/-- The last `n` of a list are of a kind. -/
def Last {α : Type*} (n : ℕ) (P : α → Prop) (l : List α) : Prop :=
  ∃ older recent, l = older ++ recent ∧ recent.length = n ∧ ∀ x ∈ recent, P x

section Last

variable {α : Type*} {n m : ℕ} {P : α → Prop} {l : List α} {x : α}

theorem Last.zero : Last 0 P l := ⟨l, [], by simp, rfl, by simp⟩

theorem Last.concat (h : Last n P l) (hx : P x) : Last (n + 1) P (l ++ [x]) := by
  obtain ⟨older, recent, rfl, hlen, hall⟩ := h
  refine ⟨older, recent ++ [x], by simp, by simp [hlen], fun y hy => ?_⟩
  rcases List.mem_append.1 hy with hy | hy
  · exact hall y hy
  · rw [List.mem_singleton.1 hy]
    exact hx

theorem Last.mono (h : Last n P l) (hmn : m ≤ n) : Last m P l := by
  obtain ⟨older, recent, rfl, hlen, hall⟩ := h
  refine ⟨older ++ recent.take (n - m), recent.drop (n - m), ?_, ?_, fun y hy => ?_⟩
  · rw [List.append_assoc, List.take_append_drop]
  · rw [List.length_drop]
    omega
  · exact hall y (List.mem_of_mem_drop hy)

theorem Last.eq_zero (h : Last n P l) (hP : ∀ x, ¬ P x) : n = 0 := by
  obtain ⟨older, recent, rfl, rfl, hall⟩ := h
  cases recent with
  | nil => rfl
  | cons x recent => exact absurd (hall x List.mem_cons_self) (hP x)

end Last

/-! ## The history of a run -/

/-- An active tick: the level it found, and the smoothed loss it left. -/
structure Sample where
  level : ℤ
  loss : ℚ

/-- What a tick adds to the history. -/
def Adapter.sample (a : Adapter) (t : Tick) : List Sample :=
  if (a.deltas t).anyActivity then [⟨a.currentLevel, (a.tick t).lossEWMA⟩] else []

/-- The active ticks of a run. -/
def samples (a : Adapter) (ts : List Tick) : List Sample :=
  (trace Adapter.step a ts).flatMap fun e => e.1.sample e.2.1

/-- The loss above which a level is left upwards. -/
def upgradeThreshold (level : ℤ) : Option ℚ :=
  if level = 20 then some thresh20to30Up else if level = 30 then some thresh30to40Up else none

/-- The loss below which a level is left downwards. -/
def downgradeThreshold (level : ℤ) : Option ℚ :=
  if level = 30 then some thresh30to20Down else if level = 40 then some thresh40to30Down else none

/-- A tick at the level, with a smoothed loss above its upgrade threshold. -/
def Above (level : ℤ) (s : Sample) : Prop :=
  s.level = level ∧ ∃ threshold ∈ upgradeThreshold level, threshold < s.loss

/-- A tick at the level, with a smoothed loss below its downgrade threshold. -/
def Below (level : ℤ) (s : Sample) : Prop :=
  s.level = level ∧ ∃ threshold ∈ downgradeThreshold level, s.loss < threshold

/-- The second level is one step above the first. -/
inductive StepUp : ℤ → ℤ → Prop
  | low : StepUp 20 30
  | high : StepUp 30 40

/-- The levels an adapter can be at. A floor between two levels is never
left. -/
def Adapter.OnLadder (a : Adapter) : Prop :=
  a.currentLevel = a.floor ∨
    (a.floor = 20 ∨ a.floor = 30) ∧ (a.currentLevel = 30 ∨ a.currentLevel = 40)

theorem StepUp.lt {l l' : ℤ} (h : StepUp l l') : l < l' := by cases h <;> decide

theorem Adapter.OnLadder.floor_le {a : Adapter} (h : a.OnLadder) : a.floor ≤ a.currentLevel := by
  rcases h with h | ⟨h, h'⟩
  · exact h.ge
  · omega

/-! ## The state machine -/

variable {a b : Adapter} {h : List Sample} {target : ℤ} {accepts : Bool}

/-- The level stays, or moves by a step that the history asks for. -/
def Moves (a b : Adapter) (h : List Sample) : Prop :=
  b.currentLevel = a.currentLevel ∨
    StepUp a.currentLevel b.currentLevel ∧ Last upgradeDwell (Above a.currentLevel) h ∨
    StepUp b.currentLevel a.currentLevel ∧ Last downgradeDwell (Below a.currentLevel) h

/-- What the state machine makes of an adapter, where `h` is the history with
the tick under way. -/
structure Moved (h : List Sample) (a b : Adapter) : Prop where
  floor : b.floor = a.floor
  loss : b.lossEWMA = a.lossEWMA
  ladder : b.OnLadder
  written : b.encoder = some b.currentLevel
  up : Last b.upgradeTicks (Above b.currentLevel) h
  down : Last b.downgradeTicks (Below b.currentLevel) h
  move : Moves a b h

/-- A transition to where the adapter is, or that the encoder refuses, clears
the counters; any other moves and clears them. -/
theorem transition_cases (a : Adapter) (target : ℤ) (accepts : Bool) :
    (a.transition target accepts).upgradeTicks = 0 ∧
      (a.transition target accepts).downgradeTicks = 0 ∧
      (a.transition target accepts).floor = a.floor ∧
      (a.transition target accepts).lossEWMA = a.lossEWMA ∧
      ((a.transition target accepts).currentLevel = a.currentLevel ∧
          (a.transition target accepts).encoder = a.encoder ∨
        (a.transition target accepts).currentLevel = max target a.floor ∧
          (a.transition target accepts).encoder = some (max target a.floor)) := by
  have hclamp : (if target < a.floor then a.floor else target) = max target a.floor := by
    split
    · omega
    · omega
  rw [Adapter.transition, hclamp]
  split
  · exact ⟨rfl, rfl, rfl, rfl, .inl ⟨rfl, rfl⟩⟩
  · split
    · exact ⟨rfl, rfl, rfl, rfl, .inr ⟨rfl, rfl⟩⟩
    · exact ⟨rfl, rfl, rfl, rfl, .inl ⟨rfl, rfl⟩⟩

/-- An adapter on its ladder, with its counters cleared. -/
theorem moved_settled (hladder : b.OnLadder) (hup : b.upgradeTicks = 0) (hdown : b.downgradeTicks = 0)
    (hfloor : b.floor = a.floor) (hloss : b.lossEWMA = a.lossEWMA)
    (hencoder : b.encoder = some b.currentLevel) (hmove : Moves a b h) : Moved h a b := by
  refine ⟨hfloor, hloss, hladder, hencoder, ?_, ?_, hmove⟩
  · rw [hup]
    exact Last.zero
  · rw [hdown]
    exact Last.zero

/-- An adapter that is left where it is, with its counters cleared. -/
theorem moved_cleared (hladder : a.OnLadder) (hup : b.upgradeTicks = 0)
    (hdown : b.downgradeTicks = 0) (hfloor : b.floor = a.floor) (hloss : b.lossEWMA = a.lossEWMA)
    (hlevel : b.currentLevel = a.currentLevel) (hencoder : b.encoder = some a.currentLevel) :
    Moved h a b := by
  refine moved_settled ?_ hup hdown hfloor hloss (by rw [hencoder, hlevel]) (.inl hlevel)
  rw [Adapter.OnLadder, hlevel, hfloor]
  exact hladder

/-- **Asking for an upgrade.** -/
theorem moved_askUp (hladder : a.OnLadder) (hwritten : a.encoder = some a.currentLevel)
    (htarget : StepUp a.currentLevel target)
    (hup : Last (a.upgradeTicks + 1) (Above a.currentLevel) h) : Moved h a (a.askUp target accepts) := by
  unfold Adapter.askUp
  dsimp only
  split
  · rename_i hdwell
    obtain ⟨hup', hdown', hfloor, hloss, hmove⟩ := transition_cases
      { a with upgradeTicks := a.upgradeTicks + 1, downgradeTicks := 0 } target accepts
    have hle := hladder.floor_le
    have hlt := htarget.lt
    have hmax : max target a.floor = target := max_eq_left (by omega)
    rcases hmove with ⟨hlevel, hencoder⟩ | ⟨hlevel, hencoder⟩
    · exact moved_cleared hladder hup' hdown' hfloor hloss hlevel (hencoder.trans hwritten)
    · rw [hmax] at hlevel hencoder
      refine moved_settled ?_ hup' hdown' hfloor hloss (by rw [hencoder, hlevel])
        (.inr (.inl ⟨?_, hup.mono hdwell⟩))
      · rw [Adapter.OnLadder, hlevel, hfloor]
        dsimp only
        unfold Adapter.OnLadder at hladder
        generalize a.currentLevel = level at *
        cases htarget with
        | low => omega
        | high => omega
      · rw [hlevel]
        exact htarget
  · exact ⟨rfl, rfl, hladder, hwritten, hup, Last.zero, .inl rfl⟩

/-- **Asking for a downgrade.** -/
theorem moved_askDown (hladder : a.OnLadder) (hwritten : a.encoder = some a.currentLevel)
    (htarget : StepUp target a.currentLevel)
    (hdown : Last (a.downgradeTicks + 1) (Below a.currentLevel) h) :
    Moved h a (a.askDown target accepts) := by
  unfold Adapter.askDown
  dsimp only
  split
  · rename_i hdwell
    obtain ⟨hup', hdown', hfloor, hloss, hmove⟩ := transition_cases
      { a with downgradeTicks := a.downgradeTicks + 1, upgradeTicks := 0 } target accepts
    -- a target below the floor is the floor, and then the adapter is there
    have hclamp : max target a.floor = a.currentLevel ∨ max target a.floor = target := by
      unfold Adapter.OnLadder at hladder
      generalize a.currentLevel = level at *
      cases htarget with
      | low => omega
      | high => omega
    rcases hmove with ⟨hlevel, hencoder⟩ | ⟨hlevel, hencoder⟩
    · exact moved_cleared hladder hup' hdown' hfloor hloss hlevel (hencoder.trans hwritten)
    · rcases hclamp with hsame | hmoved
      · exact moved_cleared hladder hup' hdown' hfloor hloss (hlevel.trans hsame)
          (hencoder.trans (by rw [hsame]))
      · dsimp only at hlevel hencoder
        rw [hmoved] at hlevel hencoder
        refine moved_settled ?_ hup' hdown' hfloor hloss (by rw [hencoder, hlevel])
          (.inr (.inr ⟨?_, hdown.mono hdwell⟩))
        · rw [Adapter.OnLadder, hlevel, hfloor]
          dsimp only
          unfold Adapter.OnLadder at hladder
          generalize a.currentLevel = level at *
          cases htarget with
          | low => omega
          | high => omega
        · rw [hlevel]
          exact htarget
  · exact ⟨rfl, rfl, hladder, hwritten, Last.zero, hdown, .inl rfl⟩

/-- A tick that clears the counters, or leaves one at zero. -/
theorem moved_stay (hladder : a.OnLadder) (hwritten : a.encoder = some a.currentLevel)
    {up down : ℕ} (hup : Last up (Above a.currentLevel) h) (hdown : Last down (Below a.currentLevel) h) :
    Moved h a { a with upgradeTicks := up, downgradeTicks := down } :=
  ⟨rfl, rfl, hladder, hwritten, hup, hdown, .inl rfl⟩

theorem not_above {level : ℤ} (hlevel : upgradeThreshold level = none) (s : Sample) :
    ¬ Above level s := by
  rintro ⟨-, threshold, hthreshold, -⟩
  rw [hlevel] at hthreshold
  cases hthreshold

theorem not_below {level : ℤ} (hlevel : downgradeThreshold level = none) (s : Sample) :
    ¬ Below level s := by
  rintro ⟨-, threshold, hthreshold, -⟩
  rw [hlevel] at hthreshold
  cases hthreshold

/-- **The state machine** moves by a step, on a history that asks for it, or
stays; and its counters go on counting. -/
theorem moved_applyStateMachine (hladder : a.OnLadder) (hwritten : a.encoder = some a.currentLevel)
    (hup : Last a.upgradeTicks (Above a.currentLevel) h)
    (hdown : Last a.downgradeTicks (Below a.currentLevel) h) :
    Moved (h ++ [⟨a.currentLevel, a.lossEWMA⟩]) a (a.applyStateMachine accepts) := by
  unfold Adapter.applyStateMachine
  split
  · rename_i hlevel
    -- nothing leads down from the lowest level
    have hnone : a.downgradeTicks = 0 := hdown.eq_zero (not_below (by rw [hlevel]; rfl))
    split
    · rename_i hloss
      refine moved_askUp hladder hwritten (by rw [hlevel]; exact .low) (hup.concat ⟨rfl, ?_⟩)
      exact ⟨thresh20to30Up, by rw [hlevel]; rfl, hloss⟩
    · exact moved_stay hladder hwritten Last.zero (by rw [hnone]; exact Last.zero)
  · split
    · rename_i hlevel
      split
      · rename_i hloss
        refine moved_askUp hladder hwritten (by rw [hlevel]; exact .high) (hup.concat ⟨rfl, ?_⟩)
        exact ⟨thresh30to40Up, by rw [hlevel]; rfl, hloss⟩
      · split
        · rename_i hloss
          refine moved_askDown hladder hwritten (by rw [hlevel]; exact .low) (hdown.concat ⟨rfl, ?_⟩)
          exact ⟨thresh30to20Down, by rw [hlevel]; rfl, hloss⟩
        · exact moved_stay hladder hwritten Last.zero Last.zero
    · rename_i h20 h30
      have hnone : a.upgradeTicks = 0 := by
        refine hup.eq_zero (not_above ?_)
        rw [upgradeThreshold, if_neg h20, if_neg h30]
      split
      · rename_i hlevel
        split
        · rename_i hloss
          refine moved_askDown hladder hwritten (by rw [hlevel]; exact .high) (hdown.concat ⟨rfl, ?_⟩)
          exact ⟨thresh40to30Down, by rw [hlevel]; rfl, hloss⟩
        · exact moved_stay hladder hwritten (by rw [hnone]; exact Last.zero) Last.zero
      · rename_i h40
        -- a floor between two levels is left alone
        have hnone' : a.downgradeTicks = 0 := by
          refine hdown.eq_zero (not_below ?_)
          rw [downgradeThreshold, if_neg h30, if_neg h40]
        exact ⟨rfl, rfl, hladder, hwritten, by rw [hnone]; exact Last.zero,
          by rw [hnone']; exact Last.zero, .inl rfl⟩

/-! ## The loss -/

theorem delta_nonneg (now before : ℤ) : 0 ≤ delta now before := by
  unfold delta
  split
  · exact le_rfl
  · omega

theorem midpoint_nonneg : ∀ b, 0 ≤ gapBucketMidpoints b := by decide

theorem Port.missingDelta_nonneg (p : Port) (prev : PortState) : 0 ≤ p.missingDelta prev :=
  Finset.sum_nonneg fun b _ => mul_nonneg (delta_nonneg _ _) (midpoint_nonneg b)

/-- Neither sum of a walk is negative, whatever the counters are. -/
theorem walk_nonneg (ports : List (Option Port)) (prev : List PortState) :
    0 ≤ (walk ports prev).2.pushed ∧ 0 ≤ (walk ports prev).2.missing := by
  induction ports generalizing prev with
  | nil => exact ⟨le_rfl, le_rfl⟩
  | cons port ports ih =>
      cases prev with
      | nil => exact ⟨le_rfl, le_rfl⟩
      | cons p prev =>
          obtain ⟨hpushed, hmissing⟩ := ih prev
          cases port with
          | none => exact ⟨hpushed, hmissing⟩
          | some pc =>
              rw [walk]
              dsimp only
              split
              · exact ⟨add_nonneg (delta_nonneg _ _) hpushed,
                  add_nonneg (pc.missingDelta_nonneg p) hmissing⟩
              · exact ⟨hpushed, hmissing⟩

/-- The loss of a tick is a ratio. -/
theorem lossRaw_mem {d : Deltas} (hpushed : 0 ≤ d.pushed) (hmissing : 0 ≤ d.missing) :
    0 ≤ lossRaw d ∧ lossRaw d ≤ 1 := by
  unfold lossRaw
  split
  · rename_i hexpected
    have hpos : (0 : ℚ) < (d.pushed : ℚ) + d.missing := by exact_mod_cast hexpected
    have hpushed' : (0 : ℚ) ≤ d.pushed := by exact_mod_cast hpushed
    have hmissing' : (0 : ℚ) ≤ d.missing := by exact_mod_cast hmissing
    refine ⟨by positivity, ?_⟩
    rw [div_le_one hpos]
    linarith
  · exact ⟨le_rfl, zero_le_one⟩

/-- Smoothing two ratios gives a ratio. -/
theorem ewma_mem {raw old : ℚ} (hraw : 0 ≤ raw ∧ raw ≤ 1) (hold : 0 ≤ old ∧ old ≤ 1) :
    0 ≤ ewmaAlpha * raw + (1 - ewmaAlpha) * old ∧
      ewmaAlpha * raw + (1 - ewmaAlpha) * old ≤ 1 := by
  obtain ⟨hraw, hraw'⟩ := hraw
  obtain ⟨hold, hold'⟩ := hold
  unfold ewmaAlpha
  constructor
  · linarith
  · linarith

/-! ## One tick -/

/-- What every tick keeps: the level stands on the ladder and in the encoder,
each counter counts the last active ticks, and the loss is a ratio. -/
structure Damped (floor : ℤ) (h : List Sample) (a : Adapter) : Prop where
  floor : a.floor = floor
  ladder : a.OnLadder
  written : a.encoder = some a.currentLevel
  up : Last a.upgradeTicks (Above a.currentLevel) h
  down : Last a.downgradeTicks (Below a.currentLevel) h
  loss : 0 ≤ a.lossEWMA ∧ a.lossEWMA ≤ 1

/-- An active tick runs the state machine on the new loss. -/
theorem tick_of_active {t : Tick} (hactive : (a.deltas t).anyActivity = true) :
    a.tick t = { a with prev := (walk t.ports (grow a.prev t.ports.length)).1
                        silentTicks := 0
                        lossEWMA := ewmaAlpha * lossRaw (a.deltas t) +
                          (1 - ewmaAlpha) * a.lossEWMA }.applyStateMachine t.accepts := by
  rw [Adapter.tick, if_pos hactive]

/-- A silent tick leaves the level, the encoder and the counters alone. -/
theorem tick_of_silent {t : Tick} (hsilent : ¬ (a.deltas t).anyActivity = true) :
    ∃ prev silent loss, (loss = a.lossEWMA ∨ loss = 0) ∧
      a.tick t = { a with prev := prev, silentTicks := silent, lossEWMA := loss } := by
  rw [Adapter.tick, if_neg hsilent]
  dsimp only
  split
  · exact ⟨_, _, 0, .inr rfl, rfl⟩
  · exact ⟨_, _, a.lossEWMA, .inl rfl, rfl⟩

/-- **One tick** keeps the adapter damped, and moves the level by at most a
step, on a history that asks for it. -/
theorem damped_tick {floor : ℤ} (hdamped : Damped floor h a) (t : Tick) :
    Damped floor (h ++ a.sample t) (a.tick t) ∧ Moves a (a.tick t) (h ++ a.sample t) := by
  by_cases hactive : (a.deltas t).anyActivity = true
  · have hcounts := walk_nonneg t.ports (grow a.prev t.ports.length)
    have hloss := ewma_mem (lossRaw_mem hcounts.1 hcounts.2) hdamped.loss
    have htick := tick_of_active hactive
    have hmoved := @moved_applyStateMachine
      { a with prev := (walk t.ports (grow a.prev t.ports.length)).1
               silentTicks := 0
               lossEWMA := ewmaAlpha * lossRaw (a.deltas t) + (1 - ewmaAlpha) * a.lossEWMA }
      h t.accepts hdamped.ladder hdamped.written hdamped.up hdamped.down
    rw [← htick] at hmoved
    have hsample : a.sample t = [⟨a.currentLevel,
        ewmaAlpha * lossRaw (a.deltas t) + (1 - ewmaAlpha) * a.lossEWMA⟩] := by
      rw [Adapter.sample, if_pos hactive, hmoved.loss]
    rw [hsample]
    refine ⟨⟨hmoved.floor.trans hdamped.floor, hmoved.ladder, hmoved.written, hmoved.up, hmoved.down,
      ?_⟩, hmoved.move⟩
    rw [hmoved.loss]
    exact hloss
  · obtain ⟨prev, silent, loss, hloss, htick⟩ := tick_of_silent hactive
    have hsample : a.sample t = [] := by rw [Adapter.sample, if_neg hactive]
    rw [hsample, List.append_nil, htick]
    refine ⟨⟨hdamped.floor, hdamped.ladder, hdamped.written, hdamped.up, hdamped.down, ?_⟩, .inl rfl⟩
    rcases hloss with rfl | rfl
    · exact hdamped.loss
    · exact ⟨le_rfl, zero_le_one⟩

/-! ## Whole runs -/

theorem samples_cons (t : Tick) (ts : List Tick) :
    samples a (t :: ts) = a.sample t ++ samples (a.tick t) ts := rfl

/-- What a tick adds, at the end of a run. -/
theorem samples_concat (ts : List Tick) (t : Tick) :
    samples a (ts ++ [t]) = samples a ts ++ (after Adapter.step a ts).sample t := by
  induction ts generalizing a with
  | nil => simp [samples]
  | cons u ts ih =>
      rw [List.cons_append, samples_cons, ih, samples_cons, List.append_assoc]
      rfl

/-- **A run stays damped.** -/
theorem damped_run {floor : ℤ} (hdamped : Damped floor h a) (ts : List Tick) :
    Damped floor (h ++ samples a ts) (after Adapter.step a ts) := by
  induction ts generalizing a h with
  | nil =>
      rw [samples, trace_nil, List.flatMap_nil, List.append_nil]
      exact hdamped
  | cons t ts ih =>
      rw [samples_cons, ← List.append_assoc]
      exact ih (damped_tick hdamped t).1

/-- The floor as the adapter holds it. -/
def clampFloor (floor : ℤ) : ℤ := max 20 (min floor 40)

theorem damped_new (ports : ℕ) (floor : ℤ) :
    Damped (clampFloor floor) [] (newFECAdapter ports floor true) := by
  have hfloor : (newFECAdapter ports floor true).floor = clampFloor floor := by
    simp only [newFECAdapter, clampFloor]
    split <;> split <;> omega
  exact ⟨hfloor, .inl rfl, rfl, Last.zero, Last.zero, le_rfl, zero_le_one⟩

/-- **The damping.** From a first write that succeeds, on whatever ports with
whatever counters, and wherever the encoder refuses a later write:

* the level is at or above the floor, which is the configured one wherever
  that is between the lowest level and the highest, and it is what the encoder
  last took;
* a tick moves it by at most a step;
* a tick that moves it up is the second of two active ticks in a row at that
  level whose smoothed loss is above the level's threshold, and one that moves
  it down is the fifteenth of fifteen below;
* the smoothed loss is a ratio. -/
theorem fec_damped (ports : ℕ) (floor : ℤ) (ts : List Tick) (t : Tick) :
    let a := after Adapter.step (newFECAdapter ports floor true) ts
    let h := samples (newFECAdapter ports floor true) (ts ++ [t])
    a.floor ≤ a.currentLevel ∧ a.floor = clampFloor floor ∧ (floor ≤ 40 → floor ≤ a.currentLevel) ∧
      a.encoder = some a.currentLevel ∧
      ((a.tick t).currentLevel = a.currentLevel ∨
        StepUp a.currentLevel (a.tick t).currentLevel ∧ Last 2 (Above a.currentLevel) h ∨
        StepUp (a.tick t).currentLevel a.currentLevel ∧ Last 15 (Below a.currentLevel) h) ∧
      0 ≤ a.lossEWMA ∧ a.lossEWMA ≤ 1 := by
  intro a h
  have hdamped : Damped (clampFloor floor) (samples (newFECAdapter ports floor true) ts) a :=
    damped_run (damped_new ports floor) ts
  have hmoves := (damped_tick hdamped t).2
  rw [← samples_concat] at hmoves
  have hfloor := hdamped.ladder.floor_le
  refine ⟨hfloor, hdamped.floor, fun hle => ?_, hdamped.written, hmoves, hdamped.loss⟩
  rw [hdamped.floor, clampFloor] at hfloor
  omega

end Fec

end OpenManet
