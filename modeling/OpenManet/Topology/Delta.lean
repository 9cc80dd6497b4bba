import OpenManet.Lib.Ring
import OpenManet.Lib.Machine
import OpenManet.BatmanAdv.Originators
import Mathlib.Data.Finset.Card
import Mathlib.Data.Finset.SDiff
/-!
# The churn of the mesh

`DeltaTracker` of `internal/openmanet/server/handlers/mesh_topology_delta.go`:
a sample of the best routes and of the gateways is taken at every tick, and is
kept, with what changed since the sample before it, in a ring. `Window` adds
up what changed over a stretch of time that ends at the newest sample.

Both run under the tracker's lock, so each is one step. The two providers
answer with what `batctl` found; instants are nanoseconds from the zero
`time.Time`, and the counts are `uint32`.
-/

namespace OpenManet

namespace Churn

open BatmanAdv (Originator ReadError)

/-- Nanoseconds since the zero `time.Time`. -/
abbrev Instant := ℤ

/-- A `uint32`. -/
abbrev Count := BitVec 32

/-- `deltaSample`. -/
structure DeltaSample where
  at_ : Instant
  edges : Finset String
  gateways : Finset String
  routesAdded : Count
  routesLost : Count
  gatewayChanges : Count
  stable : Bool
deriving DecidableEq

/-- An entry of a ring that was just made. -/
def DeltaSample.zero : DeltaSample := ⟨0, ∅, ∅, 0, 0, 0, false⟩

/-- `DeltaTracker`. -/
structure DeltaTracker where
  ring : ℤ → DeltaSample
  head : ℤ
  count : ℤ
  maxSamples : ℤ
  defaultWindow : ℤ

/-- `defaultDeltaWindow`, a minute. -/
def defaultDeltaWindow : ℤ := 60000000000

/-- The size of the ring, for what the constructor is given. -/
def ringSize (maxSamples : ℤ) : ℕ := if maxSamples ≤ 1 then 120 else maxSamples.toNat

/-- `NewDeltaTracker`. -/
def newDeltaTracker (maxSamples : ℤ) : DeltaTracker where
  ring _ := .zero
  head := 0
  count := 0
  maxSamples := ringSize maxSamples
  defaultWindow := defaultDeltaWindow

/-! ## Samples -/

/-- What a sample meets: the clock, and the answers of the two providers, none
where there is no provider. -/
structure Take (F : Type) where
  now : Instant
  originators : Option (Except ReadError (List (Originator F)))
  gateways : Option (Except String (Finset String))

/-- `edgesFromOriginators`: the best routes, each with the interface it takes. -/
def edgesFromOriginators {F : Type} (rows : List (Originator F)) : Finset String :=
  ((rows.filter (·.best)).map fun o =>
    o.origAddress ++ "|" ++ o.bestNeigh ++ "|" ++ o.hardIfname).toFinset

/-- `collectEdges`: none where the rows cannot be read. -/
def Take.collectEdges {F : Type} (take : Take F) : Finset String :=
  match take.originators with
  | some (.ok rows) => edgesFromOriginators rows
  | _ => ∅

/-- `collectGateways`. -/
def Take.collectGateways {F : Type} (take : Take F) : Finset String :=
  match take.gateways with
  | some (.ok gws) => gws
  | _ => ∅

/-- `setDiff`: how many were added, and how many were lost. -/
def setDiff (curr prev : Finset String) : Count × Count :=
  (BitVec.ofNat 32 (curr.filter (· ∉ prev)).card, BitVec.ofNat 32 (prev.filter (· ∉ curr)).card)

/-- A sample, with what changed since the one before it. -/
def sampleAfter {F : Type} (take : Take F) (prev : Option DeltaSample) : DeltaSample :=
  let edges := take.collectEdges
  let gateways := take.collectGateways
  let (added, lost) := (prev.map fun p => setDiff edges p.edges).getD (0, 0)
  let (gained, gone) := (prev.map fun p => setDiff gateways p.gateways).getD (0, 0)
  let changes := gained + gone
  ⟨take.now, edges, gateways, added, lost, changes, added == 0 && lost == 0 && changes == 0⟩

/-- `sampleOnce`. -/
def DeltaTracker.sampleOnce {F : Type} (t : DeltaTracker) (take : Take F) : DeltaTracker :=
  let prev :=
    if t.count > 0 then some (t.ring ((t.head - 1 + t.maxSamples).tmod t.maxSamples)) else none
  { t with
    ring := Function.update t.ring t.head (sampleAfter take prev)
    head := (t.head + 1).tmod t.maxSamples
    count := if t.count < t.maxSamples then t.count + 1 else t.count }

/-- A tick, as a step of a run. -/
def DeltaTracker.step {F : Type} (t : DeltaTracker) (take : Take F) : DeltaTracker × Unit :=
  (t.sampleOnce take, ())

/-! ## Windows -/

/-- `time.Time.Sub`, which stops at the ends of a `Duration`. -/
def sub (a b : Instant) : ℤ := max (-9223372036854775808) (min 9223372036854775807 (a - b))

/-- `DeltaResult`. -/
structure DeltaResult where
  routesAdded : Count := 0
  routesLost : Count := 0
  gatewayChanges : Count := 0
  reconverge : ℤ := 0
  actualWindow : ℤ := 0
deriving DecidableEq

/-- What the walk of `Window` carries. -/
structure Walk where
  routesAdded : Count := 0
  routesLost : Count := 0
  gatewayChanges : Count := 0
  firstUnstableAt : Instant := 0
  lastUnstableAt : Instant := 0
  oldestInWindowAt : Instant

/-- A sample of the window. -/
def Walk.visit (w : Walk) (s : DeltaSample) : Walk :=
  { routesAdded := w.routesAdded + s.routesAdded
    routesLost := w.routesLost + s.routesLost
    gatewayChanges := w.gatewayChanges + s.gatewayChanges
    firstUnstableAt := if s.stable then w.firstUnstableAt else s.at_
    lastUnstableAt := if s.stable || w.lastUnstableAt != 0 then w.lastUnstableAt else s.at_
    oldestInWindowAt := s.at_ }

/-- The walk from the newest sample back, for as many samples as are left, up
to the first that is before the window. -/
def DeltaTracker.walk (t : DeltaTracker) (newestIdx : ℤ) (cutoff : Instant) : ℕ → ℕ → Walk → Walk
  | 0, _, w => w
  | left + 1, offset, w =>
      let s := t.ring ((newestIdx - offset + t.maxSamples).tmod t.maxSamples)
      if s.at_ < cutoff then w
      else if offset = 0 ∧ t.count = 1 then
        t.walk newestIdx cutoff left (offset + 1) { w with oldestInWindowAt := s.at_ }
      else t.walk newestIdx cutoff left (offset + 1) (w.visit s)

/-- The window asked for, or the default. -/
def DeltaTracker.windowOf (t : DeltaTracker) (window : ℤ) : ℤ :=
  if window ≤ 0 then t.defaultWindow else window

/-- `Window`. -/
def DeltaTracker.window (t : DeltaTracker) (window : ℤ) : DeltaResult :=
  if t.count < 2 then {}
  else
    let newestIdx := (t.head - 1 + t.maxSamples).tmod t.maxSamples
    let newest := t.ring newestIdx
    let w := t.walk newestIdx (newest.at_ - t.windowOf window) t.count.toNat 0
      { oldestInWindowAt := newest.at_ }
    { routesAdded := w.routesAdded
      routesLost := w.routesLost
      gatewayChanges := w.gatewayChanges
      reconverge :=
        if w.firstUnstableAt = 0 then 0 else max 0 (sub w.lastUnstableAt w.firstUnstableAt)
      actualWindow := sub newest.at_ w.oldestInWindowAt }

/-- `Ready`. -/
def DeltaTracker.ready (t : DeltaTracker) : Bool := decide (t.count ≥ 2)

/-! ## What the ring holds -/

section Ring

variable {F : Type}

/-- The samples of a run, each with what changed since the one before it. -/
def samplesFrom (prev : Option DeltaSample) : List (Take F) → List DeltaSample
  | [] => []
  | take :: takes => sampleAfter take prev :: samplesFrom (some (sampleAfter take prev)) takes

/-- The samples of a run from the start. -/
abbrev samples (takes : List (Take F)) : List DeltaSample := samplesFrom none takes

theorem length_samplesFrom (prev : Option DeltaSample) (takes : List (Take F)) :
    (samplesFrom prev takes).length = takes.length := by
  induction takes generalizing prev with
  | nil => rfl
  | cons take takes ih => exact congrArg (· + 1) (ih _)

theorem samplesFrom_concat (prev : Option DeltaSample) (takes : List (Take F)) (take : Take F) :
    samplesFrom prev (takes ++ [take]) = samplesFrom prev takes ++
      [sampleAfter take ((samplesFrom prev takes).getLast?.or prev)] := by
  induction takes generalizing prev with
  | nil => simp [samplesFrom]
  | cons t takes ih =>
      rw [List.cons_append, samplesFrom, ih, samplesFrom, List.cons_append]
      congr 4
      rw [List.getLast?_cons]
      cases (samplesFrom (some (sampleAfter t prev)) takes).getLast? <;> rfl

/-- Where the samples of a run stand in the ring: the last of them, as many as
it has places. -/
structure Tracks (R : ℕ) (stream : List DeltaSample) (t : DeltaTracker) : Prop where
  size : t.maxSamples = R
  pos : 0 < R
  default_window : t.defaultWindow = defaultDeltaWindow
  head : t.head = Ring.slot R stream.length
  count : t.count = (min stream.length R : ℕ)
  cells : Ring.Holds t.ring R stream (stream.length - R)

variable {R : ℕ} {stream : List DeltaSample} {t : DeltaTracker}

/-- The entry `offset` samples before the newest. -/
theorem Tracks.entry (h : Tracks R stream t) {newestIdx : ℤ} {offset : ℕ} {s : DeltaSample}
    (hidx : newestIdx = Ring.slot R (stream.length - 1)) (hlt : offset < R)
    (hs : stream[stream.length - 1 - offset]? = some s) (hin : offset < stream.length) :
    t.ring ((newestIdx - offset + t.maxSamples).tmod t.maxSamples) = s := by
  have hback : newestIdx - offset + R = Ring.slot R (stream.length - 1) - offset + R := by rw [hidx]
  rw [h.size, hback, Ring.tmod_slot_back (by omega) (by omega)]
  exact h.cells _ (by omega) s hs

/-- The newest entry. -/
theorem Tracks.newestIdx (h : Tracks R stream t) (hne : 0 < stream.length) :
    (t.head - 1 + t.maxSamples).tmod t.maxSamples = Ring.slot R (stream.length - 1) := by
  have hpos := h.pos
  have hback := @Ring.tmod_slot_back R stream.length 1 (by omega) (by omega)
  rw [h.size, h.head]
  exact hback

theorem tracks_new (maxSamples : ℤ) :
    Tracks (ringSize maxSamples) [] (newDeltaTracker maxSamples) := by
  refine ⟨rfl, ?_, rfl, ?_, ?_, Ring.holds_nil _ _⟩
  · unfold ringSize
    split
    · decide
    · omega
  · rw [List.length_nil, Ring.slot, Nat.zero_mod]
    rfl
  · rw [List.length_nil, Nat.zero_min]
    rfl

/-- **One sample** is written behind the others, with what changed since the
last of them. -/
theorem Tracks.sampleOnce (h : Tracks R stream t) (take : Take F) :
    Tracks R (stream ++ [sampleAfter take stream.getLast?]) (t.sampleOnce take) := by
  have hpos := h.pos
  have hprev : (if t.count > 0 then
      some (t.ring ((t.head - 1 + t.maxSamples).tmod t.maxSamples)) else none) = stream.getLast? := by
    rcases List.eq_nil_or_concat stream with rfl | ⟨older, s, rfl⟩
    · rw [if_neg (by rw [h.count]; simp)]
      rfl
    · rw [List.concat_eq_append] at h ⊢
      have hlength : 0 < (older ++ [s]).length := by simp
      rw [if_pos (by rw [h.count]; omega), h.newestIdx hlength, List.getLast?_concat]
      congr 1
      refine h.cells _ (by omega) s ?_
      simp
  unfold DeltaTracker.sampleOnce
  dsimp only
  rw [hprev]
  have hlength : (stream ++ [sampleAfter take stream.getLast?]).length = stream.length + 1 := by simp
  refine ⟨h.size, hpos, h.default_window, ?_, ?_, ?_⟩
  · show (t.head + 1).tmod t.maxSamples = _
    rw [h.head, h.size, hlength]
    exact Ring.tmod_slot_add R stream.length 1
  · show (if t.count < t.maxSamples then t.count + 1 else t.count) = _
    rw [h.count, h.size, hlength]
    split <;> omega
  · show Ring.Holds (Function.update t.ring t.head _) R _ _
    rw [h.head, hlength]
    exact (h.cells.of_le (by omega)).push _ (by omega)

/-- **Every run**: the ring holds its last samples. -/
theorem tracks_run (maxSamples : ℤ) (takes : List (Take F)) :
    Tracks (ringSize maxSamples) (samples takes)
      (after DeltaTracker.step (newDeltaTracker maxSamples) takes) := by
  induction takes using List.reverseRecOn with
  | nil => exact tracks_new maxSamples
  | append_singleton takes take ih =>
      rw [after_append, after_cons, after_nil, samples, samplesFrom_concat, Option.or_none]
      exact ih.sampleOnce take

end Ring

end Churn

end OpenManet
