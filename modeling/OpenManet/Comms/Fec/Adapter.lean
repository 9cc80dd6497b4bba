import OpenManet.Lib.Machine
import Mathlib.Algebra.BigOperators.Fin
import Mathlib.Algebra.Order.Ring.Rat
/-!
# Error correction — the adapter

Every two seconds the adapter reads, on each port that receives, how many
packets came in and how many gaps the jitter buffer found, estimates the
loss since the last tick, smooths it, and moves the encoder's expected loss
up or down a step. Two counters damp it: a level is left only after several
ticks in a row ask for it.

The smoothed loss is an exact rational here. The counters are counts of
packets, far from the ends of their type, but nothing is assumed of what a
tick reads: a buffer that was reset counts from zero again.
-/

namespace OpenManet

namespace Fec

/-- The six gap-run counters of a jitter buffer. -/
abbrev Buckets := Fin 6 → ℤ

/-- What a tick reads of a port: `ReceiveEnabled`, `RxPushed`, and the gap
runs of its jitter buffer, if it has one. -/
structure Port where
  receiveEnabled : Bool
  rxPushed : ℤ
  jitter : Option Buckets

/-- `fecPortState`: the counters of the last tick. -/
structure PortState where
  rxPushed : ℤ
  buckets : Buckets

/-- `gapBucketMidpoints`. -/
def gapBucketMidpoints : Buckets := ![1, 3, 8, 15, 35, 75]

/-- `fecEWMAAlpha`. -/
def ewmaAlpha : ℚ := 1 / 5

/-- `fecSilentStallLimit`. -/
def silentStallLimit : ℕ := 30

/-- `fecUpgradeDwell`. -/
def upgradeDwell : ℕ := 2

/-- `fecDowngradeDwell`. -/
def downgradeDwell : ℕ := 15

/-- `fecThresh20to30Up`. -/
def thresh20to30Up : ℚ := 8 / 100

/-- `fecThresh30to40Up`. -/
def thresh30to40Up : ℚ := 20 / 100

/-- `fecThresh40to30Down`. -/
def thresh40to30Down : ℚ := 10 / 100

/-- `fecThresh30to20Down`. -/
def thresh30to20Down : ℚ := 3 / 100

/-- `FECAdapter`, and the encoder it writes to. -/
structure Adapter where
  floor : ℤ
  currentLevel : ℤ
  lossEWMA : ℚ
  prev : List PortState
  upgradeTicks : ℕ
  downgradeTicks : ℕ
  silentTicks : ℕ
  writeErrors : ℕ
  transitions : ℕ
  /-- The last value `SetPacketLossPerc` took. -/
  encoder : Option ℤ

/-- The state a port that was never read is remembered in. -/
def PortState.zero : PortState := ⟨0, fun _ => 0⟩

/-- `NewFECAdapter`, on that many ports. The encoder may refuse the floor. -/
def newFECAdapter (ports : ℕ) (floor : ℤ) (accepts : Bool) : Adapter :=
  let floor := if floor < 20 then 20 else floor
  let floor := if floor > 40 then 40 else floor
  { floor := floor
    currentLevel := floor
    lossEWMA := 0
    prev := List.replicate ports .zero
    upgradeTicks := 0
    downgradeTicks := 0
    silentTicks := 0
    writeErrors := if accepts then 0 else 1
    transitions := 0
    encoder := if accepts then some floor else none }

/-! ## The counters of a tick -/

/-- The buckets as they are read; a port without a jitter buffer has none. -/
def Port.buckets (p : Port) : Buckets := p.jitter.getD fun _ => 0

/-- A count since the last tick, zero where the counter was rolled back. -/
def delta (now before : ℤ) : ℤ := if now - before < 0 then 0 else now - before

/-- Packets pushed on a port since the last tick. -/
def Port.pushedDelta (p : Port) (prev : PortState) : ℤ := delta p.rxPushed prev.rxPushed

/-- Frames missing on a port since the last tick, each gap run counted by the
midpoint of its bucket. -/
def Port.missingDelta (p : Port) (prev : PortState) : ℤ :=
  ∑ b, delta (p.buckets b) (prev.buckets b) * gapBucketMidpoints b

/-- What the walk over the ports adds up. -/
structure Deltas where
  pushed : ℤ
  missing : ℤ
  anyActivity : Bool

/-- The walk over the ports and what they were at the last tick. A port that
does not receive is passed over, and stays as it was. -/
def walk : List (Option Port) → List PortState → List PortState × Deltas
  | [], prev => (prev, ⟨0, 0, false⟩)
  | _ :: _, [] => ([], ⟨0, 0, false⟩)
  | port :: ports, p :: prev =>
      let (rest, sum) := walk ports prev
      match port with
      | none => (p :: rest, sum)
      | some pc =>
          if pc.receiveEnabled then
            let pushed := pc.pushedDelta p
            let missing := pc.missingDelta p
            (⟨pc.rxPushed, pc.buckets⟩ :: rest,
              ⟨pushed + sum.pushed, missing + sum.missing,
                decide (pushed > 0 ∨ missing > 0) || sum.anyActivity⟩)
          else (p :: rest, sum)

/-- The remembered counters, sized up to the ports. -/
def grow (prev : List PortState) (n : ℕ) : List PortState :=
  if prev.length < n then prev ++ List.replicate (n - prev.length) .zero else prev

/-! ## The state machine -/

/-- `transitionLocked`, with an encoder that may refuse the write. -/
def Adapter.transition (a : Adapter) (target : ℤ) (accepts : Bool) : Adapter :=
  let target := if target < a.floor then a.floor else target
  if target = a.currentLevel then { a with upgradeTicks := 0, downgradeTicks := 0 }
  else if accepts then
    { a with currentLevel := target, encoder := some target, upgradeTicks := 0, downgradeTicks := 0
             transitions := a.transitions + 1 }
  else { a with writeErrors := a.writeErrors + 1, upgradeTicks := 0, downgradeTicks := 0 }

/-- One more tick asks for an upgrade. -/
def Adapter.askUp (a : Adapter) (target : ℤ) (accepts : Bool) : Adapter :=
  let a := { a with upgradeTicks := a.upgradeTicks + 1, downgradeTicks := 0 }
  if upgradeDwell ≤ a.upgradeTicks then a.transition target accepts else a

/-- One more tick asks for a downgrade. -/
def Adapter.askDown (a : Adapter) (target : ℤ) (accepts : Bool) : Adapter :=
  let a := { a with downgradeTicks := a.downgradeTicks + 1, upgradeTicks := 0 }
  if downgradeDwell ≤ a.downgradeTicks then a.transition target accepts else a

/-- `applyStateMachineLocked`. -/
def Adapter.applyStateMachine (a : Adapter) (accepts : Bool) : Adapter :=
  if a.currentLevel = 20 then
    if thresh20to30Up < a.lossEWMA then a.askUp 30 accepts
    else { a with upgradeTicks := 0 }
  else if a.currentLevel = 30 then
    if thresh30to40Up < a.lossEWMA then a.askUp 40 accepts
    else if a.lossEWMA < thresh30to20Down then a.askDown 20 accepts
    else { a with upgradeTicks := 0, downgradeTicks := 0 }
  else if a.currentLevel = 40 then
    if a.lossEWMA < thresh40to30Down then a.askDown 30 accepts
    else { a with downgradeTicks := 0 }
  else a

/-- What a tick meets: the ports, and whether the encoder takes a write. -/
structure Tick where
  ports : List (Option Port)
  accepts : Bool

/-- The counts of a tick. -/
def Adapter.deltas (a : Adapter) (t : Tick) : Deltas :=
  (walk t.ports (grow a.prev t.ports.length)).2

/-- The loss of a tick. -/
def lossRaw (d : Deltas) : ℚ :=
  if 0 < d.pushed + d.missing then (d.missing : ℚ) / (d.pushed + d.missing) else 0

/-- `tick`. -/
def Adapter.tick (a : Adapter) (t : Tick) : Adapter :=
  let d := a.deltas t
  let a := { a with prev := (walk t.ports (grow a.prev t.ports.length)).1 }
  if d.anyActivity then
    let a := { a with silentTicks := 0
                      lossEWMA := ewmaAlpha * lossRaw d + (1 - ewmaAlpha) * a.lossEWMA }
    a.applyStateMachine t.accepts
  else
    let silent := a.silentTicks + 1
    if silentStallLimit ≤ silent then { a with lossEWMA := 0, silentTicks := 0 }
    else { a with silentTicks := silent }

/-- A tick, as a step of a run. -/
def Adapter.step (a : Adapter) (t : Tick) : Adapter × Unit := (a.tick t, ())

end Fec

end OpenManet
