import OpenManet.Topology.Delta
import Mathlib.Algebra.BigOperators.Intervals
import Mathlib.Algebra.BigOperators.Ring.Finset
import Mathlib.Data.BitVec
import Mathlib.Order.Interval.Finset.Nat
/-!
# What a window counts

`Window` walks back from the newest sample and stops at the first that is too
old. Time does not go back, so the samples it has passed are all of those in
the window. Each was compared with the one before it when it was taken, in the
ring or no longer in it, so the routes added and lost over the window lead
from the sample before the oldest of them to the newest. The first sample of
all was compared with nothing, and counts nothing.
-/

namespace OpenManet

namespace Churn

section History

variable {F : Type} (takes : List (Take F))

/-- The edges a sample found. -/
def edgesAt (i : ℕ) : Finset String := (takes[i]?).elim ∅ Take.collectEdges

/-- The gateways it found. -/
def gatewaysAt (i : ℕ) : Finset String := (takes[i]?).elim ∅ Take.collectGateways

/-- When it was taken. -/
def timeAt (i : ℕ) : Instant := (takes[i]?).elim 0 Take.now

/-- Edges that the sample before did not have. The first sample has none. -/
def addedAt (i : ℕ) : ℕ := (edgesAt takes i \ edgesAt takes (i - 1)).card

/-- Edges that only the sample before had. -/
def lostAt (i : ℕ) : ℕ := (edgesAt takes (i - 1) \ edgesAt takes i).card

/-- Gateways that one of the two had. -/
def changedAt (i : ℕ) : ℕ := (symmDiff (gatewaysAt takes i) (gatewaysAt takes (i - 1))).card

/-- The samples that are in the ring and not older than the window. -/
def counted (maxSamples window : ℤ) : Finset ℕ :=
  (Finset.Ico (takes.length - ringSize maxSamples) takes.length).filter fun i =>
    timeAt takes (takes.length - 1) - (if window ≤ 0 then defaultDeltaWindow else window) ≤
      timeAt takes i

/-- Time does not go back. -/
def Monotonic : Prop := ∀ i j, i ≤ j → j < takes.length → timeAt takes i ≤ timeAt takes j

end History

section Window

variable {F : Type} {takes : List (Take F)}

/-! ## One sample -/

theorem setDiff_eq (curr prev : Finset String) :
    setDiff curr prev = (BitVec.ofNat 32 (curr \ prev).card, BitVec.ofNat 32 (prev \ curr).card) := by
  rw [setDiff, Finset.filter_notMem_eq_sdiff, Finset.filter_notMem_eq_sdiff]

theorem card_symmDiff_eq (a b : Finset String) :
    (symmDiff a b).card = (a \ b).card + (b \ a).card :=
  Finset.card_union_of_disjoint disjoint_sdiff_sdiff

/-- What a run has at a place. -/
theorem getElem?_samplesFrom (prev : Option DeltaSample) (takes : List (Take F)) (i : ℕ) :
    (samplesFrom prev takes)[i]? = (takes[i]?).map fun take =>
      sampleAfter take (if i = 0 then prev else (samplesFrom prev takes)[i - 1]?) := by
  induction takes generalizing prev i with
  | nil => simp [samplesFrom]
  | cons take takes ih =>
      cases i with
      | zero => simp [samplesFrom]
      | succ i =>
          rw [samplesFrom, List.getElem?_cons_succ, List.getElem?_cons_succ, ih,
            if_neg (Nat.succ_ne_zero i), Nat.add_sub_cancel]
          cases i with
          | zero => simp
          | succ i => simp

/-- The sample of a place, as it was counted. -/
structure Sampled (takes : List (Take F)) (i : ℕ) (s : DeltaSample) : Prop where
  time : s.at_ = timeAt takes i
  edges : s.edges = edgesAt takes i
  gateways : s.gateways = gatewaysAt takes i
  added : s.routesAdded = BitVec.ofNat 32 (addedAt takes i)
  lost : s.routesLost = BitVec.ofNat 32 (lostAt takes i)
  changes : s.gatewayChanges = BitVec.ofNat 32 (changedAt takes i)

/-- **Each sample is compared with the one before it.** -/
theorem exists_sampled {i : ℕ} (hi : i < takes.length) :
    ∃ s, (samples takes)[i]? = some s ∧ Sampled takes i s := by
  induction i with
  | zero =>
      have hget := getElem?_samplesFrom none takes 0
      rw [List.getElem?_eq_getElem hi] at hget
      refine ⟨_, hget, ?_⟩
      constructor <;> simp [sampleAfter, timeAt, edgesAt, gatewaysAt, addedAt, lostAt, changedAt,
        List.getElem?_eq_getElem hi]
  | succ i ih =>
      obtain ⟨prev, hprev, hsampled⟩ := ih (by omega)
      have hget := getElem?_samplesFrom none takes (i + 1)
      rw [List.getElem?_eq_getElem hi, if_neg (Nat.succ_ne_zero i), Nat.add_sub_cancel] at hget
      change _ = some (sampleAfter takes[i + 1] (samples takes)[i]?) at hget
      rw [hprev] at hget
      have hedges : edgesAt takes (i + 1) = takes[i + 1].collectEdges := by
        rw [edgesAt, List.getElem?_eq_getElem hi]
        rfl
      have hgateways : gatewaysAt takes (i + 1) = takes[i + 1].collectGateways := by
        rw [gatewaysAt, List.getElem?_eq_getElem hi]
        rfl
      refine ⟨_, hget, ?_, hedges.symm, hgateways.symm, ?_, ?_, ?_⟩
      · rw [timeAt, List.getElem?_eq_getElem hi]
        rfl
      · rw [addedAt, Nat.add_sub_cancel, hedges, ← hsampled.edges]
        exact congrArg Prod.fst (setDiff_eq _ _)
      · rw [lostAt, Nat.add_sub_cancel, hedges, ← hsampled.edges]
        exact congrArg Prod.snd (setDiff_eq _ _)
      · rw [changedAt, Nat.add_sub_cancel, hgateways, ← hsampled.gateways, card_symmDiff_eq,
          BitVec.ofNat_add]
        simp only [sampleAfter, Option.map_some, Option.getD_some, setDiff_eq]

/-! ## The walk -/

/-- A walk has added up these samples. -/
structure Tallies (takes : List (Take F)) (visited : Finset ℕ) (w w' : Walk) : Prop where
  added : w'.routesAdded = w.routesAdded + BitVec.ofNat 32 (∑ i ∈ visited, addedAt takes i)
  lost : w'.routesLost = w.routesLost + BitVec.ofNat 32 (∑ i ∈ visited, lostAt takes i)
  changes : w'.gatewayChanges =
    w.gatewayChanges + BitVec.ofNat 32 (∑ i ∈ visited, changedAt takes i)

theorem Tallies.none (w : Walk) : Tallies takes ∅ w w := by
  constructor <;> simp

/-- One sample more. -/
theorem Tallies.visit {visited : Finset ℕ} {w w' : Walk} {i : ℕ} {s : DeltaSample}
    (h : Tallies takes visited (w.visit s) w') (hs : Sampled takes i s) (hnew : i ∉ visited) :
    Tallies takes (insert i visited) w w' := by
  constructor
  · rw [h.added, Finset.sum_insert hnew, BitVec.ofNat_add, ← hs.added, ← BitVec.add_assoc]
    rfl
  · rw [h.lost, Finset.sum_insert hnew, BitVec.ofNat_add, ← hs.lost, ← BitVec.add_assoc]
    rfl
  · rw [h.changes, Finset.sum_insert hnew, BitVec.ofNat_add, ← hs.changes, ← BitVec.add_assoc]
    rfl

/-- **The walk** adds up the samples it is left to look at, as far as they are
not older than the cutoff. -/
theorem tallies_walk {R : ℕ} {t : DeltaTracker} (htracks : Tracks R (samples takes) t)
    (hmono : Monotonic takes) (hcount : t.count ≠ 1) {newestIdx : ℤ}
    (hidx : newestIdx = Ring.slot R (takes.length - 1)) (cutoff : Instant) {left offset : ℕ}
    (hleft : offset + left ≤ min takes.length R) (w : Walk) :
    Tallies takes ((Finset.Ico (takes.length - offset - left) (takes.length - offset)).filter
      fun i => cutoff ≤ timeAt takes i) w (t.walk newestIdx cutoff left offset w) := by
  induction left generalizing offset w with
  | zero =>
      rw [Nat.sub_zero, Finset.Ico_self, Finset.filter_empty]
      exact .none w
  | succ left ih =>
      have hlength : (samples takes).length = takes.length := length_samplesFrom _ _
      obtain ⟨s, hs, hsampled⟩ := @exists_sampled _ takes (takes.length - 1 - offset) (by omega)
      have hentry : t.ring ((newestIdx - offset + t.maxSamples).tmod t.maxSamples) = s := by
        refine htracks.entry ?_ (by omega) ?_ (by omega)
        · rw [hlength]
          exact hidx
        · rw [hlength]
          exact hs
      unfold DeltaTracker.walk
      dsimp only
      rw [hentry, hsampled.time]
      split
      · next hold =>
        -- what lies further back is older still
        have hempty : (Finset.Ico (takes.length - offset - (left + 1)) (takes.length - offset)).filter
            (fun i => cutoff ≤ timeAt takes i) = ∅ := by
          refine Finset.filter_eq_empty_iff.2 fun i hi => ?_
          rw [Finset.mem_Ico] at hi
          exact not_le.2 (lt_of_le_of_lt (hmono i _ (by omega) (by omega)) hold)
        rw [hempty]
        exact .none w
      · next hyoung =>
        rw [if_neg (fun h => hcount h.2)]
        have hrange : Finset.Ico (takes.length - offset - (left + 1)) (takes.length - offset) =
            insert (takes.length - 1 - offset)
              (Finset.Ico (takes.length - (offset + 1) - left) (takes.length - (offset + 1))) := by
          ext i
          simp only [Finset.mem_insert, Finset.mem_Ico]
          omega
        rw [hrange, Finset.filter_insert, if_pos (not_lt.1 hyoung)]
        refine (ih (by omega) (w.visit s)).visit hsampled fun hmem => ?_
        have hlast := Finset.mem_Ico.1 (Finset.mem_filter.1 hmem).1
        omega

/-! ## The sums -/

/-- What was added and what was lost lead from one set to the other. -/
theorem added_sub_lost (i : ℕ) : (addedAt takes i : ℤ) - lostAt takes i =
    (edgesAt takes i).card - (edgesAt takes (i - 1)).card := by
  have hnew := Finset.card_sdiff_add_card_inter (edgesAt takes i) (edgesAt takes (i - 1))
  have hold := Finset.card_sdiff_add_card_inter (edgesAt takes (i - 1)) (edgesAt takes i)
  rw [Finset.inter_comm] at hold
  unfold addedAt lostAt
  omega

/-- **Over a stretch of samples** all but the two ends cancels. -/
theorem sum_added_sub_lost {oldest n : ℕ} (hle : oldest ≤ n) :
    (∑ i ∈ Finset.Ico oldest n, (addedAt takes i : ℤ)) - ∑ i ∈ Finset.Ico oldest n, (lostAt takes i : ℤ)
      = (edgesAt takes (n - 1)).card - (edgesAt takes (oldest - 1)).card := by
  induction n, hle using Nat.le_induction with
  | base => simp
  | succ n hle ih =>
      have hone := @added_sub_lost _ takes n
      rw [Finset.sum_Ico_succ_top hle, Finset.sum_Ico_succ_top hle, Nat.add_sub_cancel]
      omega

/-- In a time that does not go back, a window is the samples from its oldest
on. -/
theorem counted_eq_Ico {maxSamples window : ℤ} {oldest : ℕ} (hmono : Monotonic takes)
    (hmem : oldest ∈ counted takes maxSamples window)
    (hleast : ∀ i ∈ counted takes maxSamples window, oldest ≤ i) :
    counted takes maxSamples window = Finset.Ico oldest takes.length := by
  obtain ⟨hin, hyoung⟩ := Finset.mem_filter.1 hmem
  rw [Finset.mem_Ico] at hin
  ext i
  rw [Finset.mem_Ico]
  constructor
  · intro hi
    exact ⟨hleast i hi, (Finset.mem_Ico.1 (Finset.mem_filter.1 hi).1).2⟩
  · rintro ⟨hle, hlt⟩
    refine Finset.mem_filter.2 ⟨Finset.mem_Ico.2 ⟨by omega, hlt⟩, ?_⟩
    exact hyoung.trans (hmono oldest i hle hlt)

/-- What `Window` returns is the sums over the samples that are counted. -/
structure Sums (takes : List (Take F)) (visited : Finset ℕ) (r : DeltaResult) : Prop where
  added : r.routesAdded = BitVec.ofNat 32 (∑ i ∈ visited, addedAt takes i)
  lost : r.routesLost = BitVec.ofNat 32 (∑ i ∈ visited, lostAt takes i)
  changes : r.gatewayChanges = BitVec.ofNat 32 (∑ i ∈ visited, changedAt takes i)

theorem two_le_ringSize (maxSamples : ℤ) : 2 ≤ ringSize maxSamples := by
  unfold ringSize
  split
  · decide
  · omega

/-- The first sample was compared with nothing. -/
theorem sums_of_first {visited : Finset ℕ} (hfirst : ∀ i ∈ visited, i = 0) :
    Sums takes visited {} := by
  constructor
  · rw [Finset.sum_eq_zero fun i hi => by rw [hfirst i hi, addedAt, Nat.zero_sub, Finset.sdiff_self]; rfl]
    rfl
  · rw [Finset.sum_eq_zero fun i hi => by rw [hfirst i hi, lostAt, Nat.zero_sub, Finset.sdiff_self]; rfl]
    rfl
  · rw [Finset.sum_eq_zero fun i hi => by rw [hfirst i hi, changedAt, Nat.zero_sub, symmDiff_self]; rfl]
    rfl

/-- **What a window returns.** -/
theorem sums_window (maxSamples window : ℤ) (hmono : Monotonic takes) :
    Sums takes (counted takes maxSamples window)
      ((after DeltaTracker.step (newDeltaTracker maxSamples) takes).window window) := by
  have htracks := tracks_run maxSamples takes
  have hlength : (samples takes).length = takes.length := length_samplesFrom _ _
  have htwo := two_le_ringSize maxSamples
  generalize after DeltaTracker.step (newDeltaTracker maxSamples) takes = t at htracks
  have hcount := htracks.count
  rw [hlength] at hcount
  unfold DeltaTracker.window
  split
  · next hfew =>
    refine sums_of_first fun i hi => ?_
    have hin := Finset.mem_Ico.1 (Finset.mem_filter.1 hi).1
    omega
  · next hmany =>
    have hidx := htracks.newestIdx (by omega)
    have hnewest : (t.ring (Ring.slot (ringSize maxSamples) (takes.length - 1))).at_ =
        timeAt takes (takes.length - 1) := by
      obtain ⟨s, hs, hsampled⟩ := @exists_sampled _ takes (takes.length - 1) (by omega)
      rw [htracks.cells (takes.length - 1) (by omega) s hs, hsampled.time]
    have hwindow : t.windowOf window = if window ≤ 0 then defaultDeltaWindow else window := by
      rw [DeltaTracker.windowOf, htracks.default_window]
    have hleft : t.count.toNat = min takes.length (ringSize maxSamples) := by omega
    rw [hlength] at hidx
    have hwalk := @tallies_walk _ takes _ t htracks hmono (by omega) _ hidx
      (timeAt takes (takes.length - 1) - (if window ≤ 0 then defaultDeltaWindow else window))
      t.count.toNat 0 (by omega) { oldestInWindowAt := timeAt takes (takes.length - 1) }
    have hrange : takes.length - 0 - t.count.toNat = takes.length - ringSize maxSamples := by omega
    rw [hrange, Nat.sub_zero] at hwalk
    dsimp only
    rw [hidx, hnewest, hwindow]
    rw [hidx] at hwalk
    exact ⟨hwalk.added.trans (BitVec.zero_add _), hwalk.lost.trans (BitVec.zero_add _),
      hwalk.changes.trans (BitVec.zero_add _)⟩

end Window

/-- **The window accounts for the churn.** For every number of samples and
every window, what is returned is summed over exactly the samples in the ring
that the window reaches. So the routes added less the routes lost are what the
newest edge set has more than the one before the oldest of those samples, as
`uint32`s, and as integers where the sums fit; and the gateway changes are the
symmetric differences over the same samples. -/
theorem window_accounts {F : Type} {takes : List (Take F)} (hmono : Monotonic takes)
    (maxSamples window : ℤ) :
    let r := (after DeltaTracker.step (newDeltaTracker maxSamples) takes).window window
    Sums takes (counted takes maxSamples window) r ∧
    ∀ oldest ∈ counted takes maxSamples window,
      (∀ i ∈ counted takes maxSamples window, oldest ≤ i) →
      r.routesAdded - r.routesLost = BitVec.ofNat 32 (edgesAt takes (takes.length - 1)).card -
        BitVec.ofNat 32 (edgesAt takes (oldest - 1)).card ∧
      (∑ i ∈ counted takes maxSamples window, addedAt takes i < 2 ^ 32 →
        ∑ i ∈ counted takes maxSamples window, lostAt takes i < 2 ^ 32 →
        (r.routesAdded.toNat : ℤ) - r.routesLost.toNat =
          (edgesAt takes (takes.length - 1)).card - (edgesAt takes (oldest - 1)).card) := by
  intro r
  have hsums : Sums takes (counted takes maxSamples window) r := sums_window maxSamples window hmono
  refine ⟨hsums, fun oldest hmem hleast => ?_⟩
  have hrange := counted_eq_Ico hmono hmem hleast
  have hlast := (Finset.mem_Ico.1 (Finset.mem_filter.1 hmem).1).2
  have htelescope := @sum_added_sub_lost _ takes oldest takes.length hlast.le
  rw [← hrange, ← Nat.cast_sum, ← Nat.cast_sum] at htelescope
  rw [hsums.added, hsums.lost]
  generalize ∑ i ∈ counted takes maxSamples window, addedAt takes i = added at htelescope ⊢
  generalize ∑ i ∈ counted takes maxSamples window, lostAt takes i = lost at htelescope ⊢
  constructor
  · rw [sub_eq_sub_iff_add_eq_add, ← BitVec.ofNat_add, ← BitVec.ofNat_add]
    congr 1
    omega
  · intro hadded hlost
    rw [BitVec.toNat_ofNat, BitVec.toNat_ofNat, Nat.mod_eq_of_lt hadded, Nat.mod_eq_of_lt hlost]
    exact htelescope

/-- Two samples of one route and then of none, taken at one instant. -/
def oneRouteLost : List (Take ℕ) :=
  [⟨5, some (.ok [⟨"a", "wlan0", "b", 0, 255, 0, true⟩]), none⟩, ⟨5, some (.ok []), none⟩]

theorem window_accounts_oneRouteLost :
    Sums oneRouteLost (counted oneRouteLost 4 0)
      ((after DeltaTracker.step (newDeltaTracker 4) oneRouteLost).window 0) := by
  refine (window_accounts (fun i j hij hj => ?_) 4 0).1
  change j < 2 at hj
  have hcases : (i = 0 ∧ j = 0) ∨ (i = 0 ∧ j = 1) ∨ (i = 1 ∧ j = 1) := by omega
  obtain ⟨rfl, rfl⟩ | ⟨rfl, rfl⟩ | ⟨rfl, rfl⟩ := hcases
  · exact le_rfl
  · exact le_rfl
  · exact le_rfl

end Churn

end OpenManet
