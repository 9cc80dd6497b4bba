import OpenManet.Comms.Jitter.Delivery
import OpenManet.Comms.Fec.Damping
/-!
# Gaps, and what error correction sees of them

The cursor passes a missing number in two branches: `popReadyLocked` skips
it once half the ring is in use, and `PopOrConceal` otherwise steps over it
while the stream is recent. Only the first counts the gap, once, and
remembers in `inGap` that it has. The error correction adapter reads those
counts and nothing else, so a gap that was concealed from one end to the
other is one it never hears of.

A gap here is what lies between two deliveries of a stream, or between the
reset that began the stream and its first delivery.
-/

namespace OpenManet

namespace Jitter

open JitterBuffer

/-! ## The counters -/

/-- The counters, in the order `tick` reads them. -/
def GapRuns.buckets (g : GapRuns) : Fec.Buckets :=
  ![g.runs1, g.runs2to5, g.runs6to10, g.runs11to20, g.runs21to50, g.runsOver50]

/-- The sum of the six counters. -/
def GapRuns.total (g : GapRuns) : ℕ :=
  g.runs1 + g.runs2to5 + g.runs6to10 + g.runs11to20 + g.runs21to50 + g.runsOver50

theorem GapRuns.sum_buckets (g : GapRuns) : ∑ b, g.buckets b = (g.total : ℤ) := by
  simp only [Fin.sum_univ_succ, buckets, total]
  simp
  ring

/-- **A run is bucketed once**: one of the six counters goes up by one. -/
theorem bucketGapRunLocked_buckets (jb : JitterBuffer) (n : ℕ) :
    jb.gapRuns.buckets ≤ (jb.bucketGapRunLocked n).gapRuns.buckets ∧
      (jb.bucketGapRunLocked n).gapRuns.total = jb.gapRuns.total + 1 := by
  have hle : ∀ g g' : GapRuns, g.runs1 ≤ g'.runs1 → g.runs2to5 ≤ g'.runs2to5 →
      g.runs6to10 ≤ g'.runs6to10 → g.runs11to20 ≤ g'.runs11to20 → g.runs21to50 ≤ g'.runs21to50 →
      g.runsOver50 ≤ g'.runsOver50 → g.buckets ≤ g'.buckets := by
    intro g g' h₀ h₁ h₂ h₃ h₄ h₅ b
    have hb : b = 0 ∨ b = 1 ∨ b = 2 ∨ b = 3 ∨ b = 4 ∨ b = 5 := by omega
    obtain rfl | rfl | rfl | rfl | rfl | rfl := hb <;> simpa [GapRuns.buckets]
  unfold bucketGapRunLocked
  dsimp only
  split_ifs <;> refine ⟨hle _ _ ?_ ?_ ?_ ?_ ?_ ?_, ?_⟩ <;> simp only [GapRuns.total] <;> omega

/-! ## One step -/

/-- Half of the ring is in use. -/
def JitterBuffer.halfFull (jb : JitterBuffer) : Bool :=
  decide (((jb.depth.maxDepth / 2 : ℕ) : ℤ) ≤ jb.count)

/-- The step delivers a frame. -/
def delivers (e : Event) : Bool := (delivered? e).isSome

/-- The step moves the cursor past a number it does not deliver. -/
def passes (e : Event) : Bool := moves e && !delivers e

/-- The step does so with half of the ring in use. -/
def skips (e : Event) : Bool := passes e && e.1.halfFull

/-- The two ways frames are taken out of a buffer: a browser's, by
`PopReady`, and a sound card's, by `PopOrConceal`. -/
inductive Consumer where
  | web
  | hardware
deriving DecidableEq, Repr

/-- The operations of a buffer that is pushed to, reset, and drained by one
consumer. -/
def Consumer.uses : Consumer → Op → Bool
  | _, .push _ _ _ => true
  | _, .pushWithSSRC _ _ _ _ => true
  | _, .reset => true
  | .web, .popReady => true
  | .hardware, .popOrConceal _ _ => true
  | _, _ => false

section Steps

variable {jb : JitterBuffer} {c : Consumer} {op : Op}

/-- What a step of a consumer's run does about gaps. -/
inductive Counts (jb jb' : JitterBuffer) (e : Event) : Prop
  /-- A delivery or a reset is the end of a gap. -/
  | ends (h : delivers e = true ∨ resets e.1 e.2.1 = true) (hruns : jb'.gapRuns = jb.gapRuns)
      (hgap : jb'.inGap = false)
  /-- A skip counts the gap it is in, if it has not been. -/
  | counted (h : skips e = true) (hmono : jb.gapRuns.buckets ≤ jb'.gapRuns.buckets)
      (htotal : jb'.gapRuns.total = jb.gapRuns.total + if jb.inGap then 0 else 1)
      (hgap : jb'.inGap = true)
  /-- Nothing else does. -/
  | idle (h : skips e = false) (hends : (delivers e || resets e.1 e.2.1) = false)
      (hruns : jb'.gapRuns = jb.gapRuns) (hgap : jb'.inGap = jb.inGap)

/-- A push touches no counter; it ends the gap exactly if it resets. -/
theorem pushWithSSRC_gaps (jb : JitterBuffer) (ssrc : BitVec 32) (seq : Seq) (payload : Payload)
    (now : Instant) :
    (jb.pushWithSSRC ssrc seq payload now).1.gapRuns = jb.gapRuns ∧
      (jb.pushWithSSRC ssrc seq payload now).1.inGap =
        (jb.inGap && !jb.pushResets ssrc payload now) := by
  have hnote : ∀ r : JitterBuffer × Bool, (noteSSRC ssrc r).1.gapRuns = r.1.gapRuns ∧
      (noteSSRC ssrc r).1.inGap = r.1.inGap := by
    intro r
    obtain ⟨o, s, h, heq⟩ := noteSSRC_fst ssrc r
    rw [heq]
    exact ⟨rfl, rfl⟩
  have hanchor : ∀ jb : JitterBuffer, (jb.anchorAt seq).gapRuns = jb.gapRuns ∧
      (jb.anchorAt seq).inGap = jb.inGap := by
    intro jb
    unfold anchorAt
    split <;> exact ⟨rfl, rfl⟩
  have hstore : ∀ jb : JitterBuffer, (jb.store seq payload now).1.gapRuns = jb.gapRuns ∧
      (jb.store seq payload now).1.inGap = jb.inGap := by
    intro jb
    obtain heq | ⟨-, -, heq⟩ := store_cases jb seq payload now <;> rw [heq] <;> exact ⟨rfl, rfl⟩
  have hpush : ∀ jb : JitterBuffer, (jb.pushLocked seq payload now).1.gapRuns = jb.gapRuns ∧
      (jb.pushLocked seq payload now).1.inGap =
        (jb.inGap && !(decide (payload.length ≤ maxOpusPayloadSize) && jb.idleExpired now)) := by
    intro jb
    unfold pushLocked
    by_cases hlong : payload.length > maxOpusPayloadSize
    · have hfit : decide (payload.length ≤ maxOpusPayloadSize) = false := by
        rw [decide_eq_false_iff_not]
        omega
      rw [if_pos hlong, hfit, Bool.false_and, Bool.not_false, Bool.and_true]
      exact ⟨rfl, rfl⟩
    · have hfit : decide (payload.length ≤ maxOpusPayloadSize) = true := by
        rw [decide_eq_true_eq]
        omega
      rw [if_neg hlong, hfit, Bool.true_and, (hstore _).1, (hstore _).2, (hanchor _).1, (hanchor _).2]
      unfold idleReset
      split
      · next hidle => rw [hidle, Bool.not_true, Bool.and_false]; exact ⟨rfl, rfl⟩
      · next hidle => simp [Bool.not_eq_true _ ▸ hidle]
  unfold pushWithSSRC pushResets
  rw [(hnote _).1, (hnote _).2, (hpush _).1, (hpush _).2]
  unfold ssrcReset
  split
  · next hssrc =>
    rw [hssrc]
    exact ⟨rfl, by simp [resetLocked]⟩
  · next hssrc => simp [Bool.not_eq_true _ ▸ hssrc]

/-- A pop leaves the counters, or counts a run at its first skip. -/
theorem popReadyLocked_gaps (hinv : Inv jb) :
    (jb.popReadyLocked.2.ready = true ∧ jb.popReadyLocked.1.gapRuns = jb.gapRuns ∧
      jb.popReadyLocked.1.inGap = false) ∨
    (jb.popReadyLocked.2 = ⟨none, false, true⟩ ∧ jb.halfFull = true ∧
      jb.gapRuns.buckets ≤ jb.popReadyLocked.1.gapRuns.buckets ∧
      jb.popReadyLocked.1.gapRuns.total = (jb.gapRuns.total + if jb.inGap then 0 else 1) ∧
      jb.popReadyLocked.1.inGap = true) ∨
    (jb.popReadyLocked.2 = {} ∧ jb.popReadyLocked.1.gapRuns = jb.gapRuns ∧
      jb.popReadyLocked.1.inGap = jb.inGap ∧
      (jb.popReadyLocked.1.started = true → jb.halfFull = false)) := by
  have hpops := jb.pops
  generalize jb.popReadyLocked = r at hpops ⊢
  cases hpops with
  | delivers hplay hat => exact .inl ⟨rfl, rfl, rfl⟩
  | skips hplay hmiss hhalf =>
      refine .inr (.inl ⟨rfl, decide_eq_true hhalf, ?_⟩)
      dsimp only
      by_cases hgap : jb.inGap = true
      · rw [if_pos hgap, if_pos hgap]
        exact ⟨le_rfl, rfl, rfl⟩
      · obtain ⟨hle, htotal⟩ := bucketGapRunLocked_buckets jb jb.measureGapRunLocked
        rw [if_neg hgap, if_neg hgap]
        exact ⟨hle, htotal, rfl⟩
  | waits hplay hmiss hlow =>
      exact .inr (.inr ⟨rfl, rfl, rfl, fun _ => decide_eq_false (not_le.2 hlow)⟩)
  | rests hplay =>
      refine .inr (.inr ⟨rfl, rfl, rfl, fun hstarted => ?_⟩)
      -- a started buffer is initialised, so it would have played
      rw [canPlay, hinv.init_of_started hstarted, hstarted] at hplay
      cases hplay

/-- A pop that is ready has a payload to hand out. -/
theorem payload_of_ready (hinv : Inv jb) (hready : jb.popReadyLocked.2.ready = true) :
    jb.popReadyLocked.2.payload.isSome = true := by
  obtain ⟨-, hat, hpay⟩ := popReadyLocked_ready hready
  rw [hpay]
  exact hinv.payload_isSome _ (atCursor_iff.1 hat).1

/-- **What a step does about gaps.** -/
theorem step_counts (hinv : Inv jb) (huses : c.uses op = true) :
    Counts jb (step jb op).1 (jb, op, (step jb op).2) := by
  cases op with
  | push seq payload now =>
      obtain ⟨hruns, hgap⟩ := pushWithSSRC_gaps jb 0 seq payload now
      by_cases hres : jb.pushResets 0 payload now = true
      · exact .ends (.inr hres) hruns (hgap.trans (by rw [hres]; simp))
      · rw [Bool.not_eq_true] at hres
        exact .idle rfl hres hruns (hgap.trans (by rw [hres]; simp))
  | pushWithSSRC ssrc seq payload now =>
      obtain ⟨hruns, hgap⟩ := pushWithSSRC_gaps jb ssrc seq payload now
      by_cases hres : jb.pushResets ssrc payload now = true
      · exact .ends (.inr hres) hruns (hgap.trans (by rw [hres]; simp))
      · rw [Bool.not_eq_true] at hres
        exact .idle rfl hres hruns (hgap.trans (by rw [hres]; simp))
  | popReady =>
      obtain ⟨hready, hruns, hgap⟩ | ⟨hpop, hhalf, hmono, htotal, hgap⟩ | ⟨hpop, hruns, hgap, -⟩ :=
        popReadyLocked_gaps hinv
      · have hsome := payload_of_ready hinv hready
        refine .ends (.inl ?_) hruns hgap
        simpa [delivers, delivered?, step, hready] using hsome
      · exact .counted (by simp [skips, passes, delivers, delivered?, moves, step, hpop, hhalf]) hmono
          htotal hgap
      · exact .idle (by simp [skips, passes, moves, step, hpop])
          (by simp [delivers, delivered?, resets, step, hpop]) hruns hgap
  | popOrConceal w now =>
      obtain ⟨hready, hruns, hgap⟩ | ⟨hpop, hhalf, hmono, htotal, hgap⟩ |
        ⟨hpop, hruns, hgap, hlow⟩ := popReadyLocked_gaps hinv
      · have hsome := payload_of_ready hinv hready
        have hstep : step jb (.popOrConceal w now) =
            (jb.popReadyLocked.1, .played jb.popReadyLocked.2.payload false) := by
          simp [step, popOrConceal, hready]
        rw [hstep]
        refine .ends (.inl ?_) hruns hgap
        simpa [delivers, delivered?] using hsome
      · have hstep : step jb (.popOrConceal w now) = (jb.popReadyLocked.1, .played none true) := by
          simp [step, popOrConceal, hpop]
        rw [hstep]
        exact .counted (by simp [skips, passes, delivers, delivered?, moves, hhalf]) hmono htotal hgap
      · by_cases hconceal : jb.popReadyLocked.1.shouldConcealLocked w now = true
        · -- concealed, and less than half of the ring in use
          have hstarted : jb.popReadyLocked.1.started = true := by
            by_contra hno
            simp [shouldConcealLocked, hno] at hconceal
          have hstep : step jb (.popOrConceal w now) =
              (jb.popReadyLocked.1.advancePastLocked, .played none true) := by
            simp [step, popOrConceal, hpop, hconceal]
          rw [hstep]
          refine .idle (by simp [skips, hlow hstarted]) rfl ?_ ?_
          · rw [advancePastLocked]
            split <;> exact hruns
          · rw [advancePastLocked]
            split <;> exact hgap
        · have hstep : step jb (.popOrConceal w now) = (jb.popReadyLocked.1, .played none false) := by
            simp [step, popOrConceal, hpop, hconceal]
          rw [hstep]
          exact .idle (by simp [skips, passes, moves]) rfl hruns hgap
  | advancePast => cases c <;> simp [Consumer.uses] at huses
  | reset => exact .ends (.inr rfl) rfl rfl

/-- No step takes a counter back. -/
theorem Counts.mono {jb jb' : JitterBuffer} {e : Event} (h : Counts jb jb' e) :
    jb.gapRuns.buckets ≤ jb'.gapRuns.buckets := by
  rcases h with ⟨-, hruns, -⟩ | ⟨-, hmono, -, -⟩ | ⟨-, -, hruns, -⟩
  · rw [hruns]
  · exact hmono
  · rw [hruns]

end Steps

/-! ## Runs -/

section Runs

variable {jb : JitterBuffer} {c : Consumer} {ops : List Op}

theorem after_inv (hinv : Inv jb) (ops : List Op) : Inv (after step jb ops) :=
  after_invariant (fun _ op hs => hs.step op) hinv ops

/-- The counters of a run only go up. -/
theorem after_mono (hinv : Inv jb) (huses : ∀ op ∈ ops, c.uses op = true) :
    jb.gapRuns.buckets ≤ (after step jb ops).gapRuns.buckets := by
  induction ops generalizing jb with
  | nil => exact le_rfl
  | cons op ops ih =>
      rw [List.forall_mem_cons] at huses
      exact le_trans (step_counts hinv huses.1).mono (ih (hinv.step op) huses.2)

theorem total_mono {g g' : GapRuns} (h : g.buckets ≤ g'.buckets) : g.total ≤ g'.total := by
  have hsum : ∑ b, g.buckets b ≤ ∑ b, g'.buckets b := Finset.sum_le_sum fun b _ => h b
  rw [GapRuns.sum_buckets, GapRuns.sum_buckets] at hsum
  omega

/-- No step of a run ends a gap. -/
def Quiet (jb : JitterBuffer) (ops : List Op) : Prop :=
  ∀ e ∈ trace step jb ops, delivers e = false ∧ resets e.1 e.2.1 = false

/-- **A gap is counted once, at its first skip.** -/
theorem quiet_run (hinv : Inv jb) (huses : ∀ op ∈ ops, c.uses op = true) (hquiet : Quiet jb ops) :
    (after step jb ops).inGap = (jb.inGap || (trace step jb ops).any skips) ∧
      (after step jb ops).gapRuns.total =
        jb.gapRuns.total + if !jb.inGap && (trace step jb ops).any skips then 1 else 0 := by
  induction ops generalizing jb with
  | nil => simp
  | cons op ops ih =>
      rw [List.forall_mem_cons] at huses
      have hfirst := hquiet _ List.mem_cons_self
      obtain ⟨hgap, htotal⟩ := ih (hinv.step op) huses.2 fun e he => hquiet e (List.mem_cons_of_mem _ he)
      rw [after_cons, trace_cons, List.any_cons, hgap, htotal]
      rcases step_counts hinv huses.1 with ⟨hends, -, -⟩ | ⟨hskip, -, htotal', hgap'⟩ |
        ⟨hskip, -, hruns, hgap'⟩
      · rw [hfirst.1, hfirst.2] at hends
        simp at hends
      · rw [hskip, hgap', htotal']
        cases jb.inGap <;> simp
      · rw [hskip, hgap', hruns, Bool.false_or]
        exact ⟨rfl, rfl⟩

/-- The step that counts a gap: one of the counters is higher after it than
before. -/
theorem exists_counting (hinv : Inv jb) (huses : ∀ op ∈ ops, c.uses op = true)
    (hquiet : Quiet jb ops) (hgap : jb.inGap = false)
    (hskip : (trace step jb ops).any skips = true) :
    ∃ g₁ op g₂, ops = g₁ ++ op :: g₂ ∧
      (after step jb g₁).gapRuns.total < (after step jb (g₁ ++ [op])).gapRuns.total := by
  induction ops generalizing jb with
  | nil => simp at hskip
  | cons op ops ih =>
      rw [List.forall_mem_cons] at huses
      rcases step_counts hinv huses.1 with ⟨hends, -, -⟩ | ⟨-, -, htotal, -⟩ |
        ⟨hno, -, -, hgap'⟩
      · have hfirst := hquiet _ List.mem_cons_self
        rw [hfirst.1, hfirst.2] at hends
        simp at hends
      · refine ⟨[], op, ops, rfl, ?_⟩
        rw [List.nil_append, after_cons, after_nil, after_nil, htotal, hgap]
        simp
      · rw [trace_cons, List.any_cons, hno, Bool.false_or] at hskip
        obtain ⟨g₁, op', g₂, rfl, hlt⟩ := ih (hinv.step op) huses.2
          (fun e he => hquiet e (List.mem_cons_of_mem _ he)) (hgap'.trans hgap) hskip
        exact ⟨op :: g₁, op', g₂, rfl, hlt⟩

end Runs

/-! ## What a tick reads -/

open Fec in
/-- Counters that went up are a missing frame at least. -/
theorem missingDelta_pos {p : Port} {prev : PortState} {g g' : GapRuns}
    (hprev : prev.buckets = g.buckets) (hnow : p.jitter = some g'.buckets)
    (hlt : g.total < g'.total) : 0 < p.missingDelta prev := by
  have hex : ∃ b, g.buckets b < g'.buckets b := by
    by_contra hno
    have heq : g'.buckets ≤ g.buckets := fun b => not_lt.1 fun h => hno ⟨b, h⟩
    have := total_mono heq
    omega
  obtain ⟨b, hb⟩ := hex
  have hnow' : p.buckets = g'.buckets := by rw [Port.buckets, hnow, Option.getD_some]
  have hmid : ∀ b, 0 < gapBucketMidpoints b := by decide
  have hterm : 0 < delta (p.buckets b) (prev.buckets b) := by
    rw [hnow', hprev, delta, if_neg (by omega)]
    omega
  exact Finset.sum_pos' (fun b _ => mul_nonneg (delta_nonneg _ _) (midpoint_nonneg b))
    ⟨b, Finset.mem_univ b, mul_pos hterm (hmid b)⟩

open Fec in
/-- One port with frames missing is enough for a tick. -/
theorem walk_missing_pos {ports : List (Option Port)} {prev : List PortState} {i : ℕ} {p : Port}
    {ps : PortState} (hport : ports[i]? = some (some p)) (hreceives : p.receiveEnabled = true)
    (hprev : prev[i]? = some ps) (hpos : 0 < p.missingDelta ps) :
    0 < (walk ports prev).2.missing := by
  induction ports generalizing prev i with
  | nil => simp at hport
  | cons port ports ih =>
      cases prev with
      | nil => simp at hprev
      | cons q prev =>
          cases i with
          | zero =>
              rw [List.getElem?_cons_zero, Option.some.injEq] at hport hprev
              rw [hport, hprev, walk]
              dsimp only
              rw [if_pos hreceives]
              exact add_pos_of_pos_of_nonneg hpos (walk_nonneg ports prev).2
          | succ i =>
              rw [List.getElem?_cons_succ] at hport hprev
              have hrest := ih hport hprev
              cases port with
              | none => exact hrest
              | some pc =>
                  rw [walk]
                  dsimp only
                  split
                  · exact add_pos_of_nonneg_of_pos (pc.missingDelta_nonneg q) hrest
                  · exact hrest

/-- The tick reads, on a port that receives, the counters of a buffer, which
were `g` when it last read them and are `g'` now. -/
structure Reads (a : Fec.Adapter) (t : Fec.Tick) (g g' : GapRuns) : Prop where
  reading : ∃ (i : ℕ) (prev : Fec.PortState) (port : Fec.Port), a.prev[i]? = some prev ∧
    prev.buckets = g.buckets ∧ t.ports[i]? = some (some port) ∧ port.receiveEnabled = true ∧
      port.jitter = some g'.buckets

/-- **A tick sees what was counted** between its two readings. -/
theorem Reads.missing_pos {a : Fec.Adapter} {t : Fec.Tick} {g g' : GapRuns} (h : Reads a t g g')
    (hlt : g.total < g'.total) : 0 < (a.deltas t).missing := by
  obtain ⟨i, prev, port, hprev, hbuckets, hport, hreceives, hjitter⟩ := h.reading
  refine walk_missing_pos hport hreceives ?_ (missingDelta_pos hbuckets hjitter hlt)
  rw [Fec.grow]
  split
  · rw [List.getElem?_append_left (List.getElem?_eq_some_iff.1 hprev).1, hprev]
  · exact hprev

/-! ## Gaps -/

/-- A gap of a run: it opens at the start, or at a delivery or a reset, no
step in it delivers or resets, one at least passes a number, and the next
delivers a frame, of the same stream then. -/
structure Gap (jb₀ : JitterBuffer) (before gap : List Op) (last : Op) : Prop where
  opens : (trace step jb₀ before).getLast?.all (fun e => delivers e || resets e.1 e.2.1) = true
  quiet : Quiet (after step jb₀ before) gap
  passed : ∃ e ∈ trace step (after step jb₀ before) gap, passes e = true
  closes : delivers (after step jb₀ (before ++ gap), last,
    (step (after step jb₀ (before ++ gap)) last).2) = true

/-- **The gap is visible**: the counters have gone up over it, and there is
a step in it such that every tick whose two readings lie either side of that
step finds frames missing. -/
def GapVisible (c : Consumer) (jb₀ : JitterBuffer) (before gap : List Op) (last : Op) : Prop :=
  (after step jb₀ before).gapRuns.total + 1 ≤
      (after step jb₀ (before ++ gap ++ [last])).gapRuns.total ∧
    ∃ g₁ op g₂, gap = g₁ ++ op :: g₂ ∧ ∀ earlier later, earlier <+: before ++ g₁ →
      (∀ op ∈ later, c.uses op = true) → ∀ a t, Reads a t (after step jb₀ earlier).gapRuns
        (after step jb₀ (before ++ g₁ ++ op :: later)).gapRuns → 0 < (a.deltas t).missing

section Gaps

variable {jb₀ : JitterBuffer} {c : Consumer} {before gap : List Op} {last : Op}

/-- A fresh buffer is in no gap, and neither is one at the end of one. -/
theorem Gap.not_inGap (h : Gap jb₀ before gap last) (hinv : Inv jb₀) (hfresh : jb₀.inGap = false)
    (huses : ∀ op ∈ before, c.uses op = true) : (after step jb₀ before).inGap = false := by
  rcases List.eq_nil_or_concat before with rfl | ⟨ops, op, rfl⟩
  · exact hfresh
  · rw [List.concat_eq_append] at h huses ⊢
    have hend := h.opens
    rw [trace_append, trace_cons, trace_nil, List.getLast?_concat, Option.all_some,
      Bool.or_eq_true] at hend
    rw [after_append, after_cons, after_nil]
    rcases step_counts (after_inv hinv ops) (huses op (by simp)) with ⟨-, -, hgap⟩ |
      ⟨hskip, -, -, -⟩ | ⟨-, hno, -, -⟩
    · exact hgap
    · -- a skip neither delivers nor resets
      rcases hend with hdel | hres
      · simp [skips, passes, hdel] at hskip
      · cases op <;> simp [resets, skips, passes, moves, step] at hres hskip
    · rw [Bool.or_eq_false_iff] at hno
      rw [hno.1, hno.2] at hend
      simp at hend

/-- A browser passes a number only by a skip. -/
theorem halfFull_of_web {jb : JitterBuffer} {op : Op} (hinv : Inv jb)
    (huses : Consumer.web.uses op = true) (hpass : passes (jb, op, (step jb op).2) = true) :
    jb.halfFull = true := by
  cases op with
  | push seq payload now => simp [passes, moves, step] at hpass
  | pushWithSSRC ssrc seq payload now => simp [passes, moves, step] at hpass
  | popReady =>
      obtain ⟨hready, -⟩ | ⟨-, hhalf, -⟩ | ⟨hpop, -⟩ := popReadyLocked_gaps hinv
      · have hsome := payload_of_ready hinv hready
        rw [passes, Bool.and_eq_true, Bool.not_eq_true'] at hpass
        have hdel : delivers (jb, .popReady, (step jb .popReady).2) = true := by
          simpa [delivers, delivered?, step, hready] using hsome
        rw [hdel] at hpass
        cases hpass.2
      · exact hhalf
      · simp [passes, moves, step, hpop] at hpass
  | popOrConceal w now => simp [Consumer.uses] at huses
  | advancePast => simp [Consumer.uses] at huses
  | reset => simp [passes, moves, step] at hpass

/-- **A gap is visible exactly if one of its numbers was passed with half of
the ring in use**, as each one a browser passes is. -/
theorem gap_visible_iff {prebuffer maxDepth : ℤ} (hnew : newJitterBuffer prebuffer maxDepth = some jb₀)
    (hfed : ∀ op ∈ before ++ gap ++ [last], c.uses op = true) (hgap : Gap jb₀ before gap last) :
    (GapVisible c jb₀ before gap last ↔
        ∃ e ∈ trace step (after step jb₀ before) gap, passes e = true ∧ e.1.halfFull = true) ∧
      (c = .web → GapVisible c jb₀ before gap last) := by
  have hbefore : ∀ op ∈ before, c.uses op = true := fun op h => hfed op (by simp [h])
  have hin : ∀ op ∈ gap, c.uses op = true := fun op h => hfed op (by simp [h])
  obtain ⟨d, -, rfl⟩ := newJitterBuffer_eq_some.1 hnew
  have hinv₀ := inv_fresh prebuffer d
  have hinv := after_inv hinv₀ before
  have hclosed := hgap.not_inGap hinv₀ rfl hbefore
  obtain ⟨-, htotal⟩ := quiet_run hinv hin hgap.quiet
  rw [hclosed, Bool.not_false, Bool.true_and, ← after_append] at htotal
  -- the delivery that closes the gap counts nothing
  have hlast : (after step (fresh prebuffer d) (before ++ gap ++ [last])).gapRuns =
      (after step (fresh prebuffer d) (before ++ gap)).gapRuns := by
    rw [after_append _ _ (before ++ gap), after_cons, after_nil]
    rcases step_counts (after_inv hinv₀ (before ++ gap)) (hfed last (by simp)) with ⟨-, hruns, -⟩ |
      ⟨hskip, -, -, -⟩ | ⟨-, -, hruns, -⟩
    · exact hruns
    · simp [skips, passes, hgap.closes] at hskip
    · exact hruns
  have hany : (trace step (after step (fresh prebuffer d) before) gap).any skips = true ↔
      ∃ e ∈ trace step (after step (fresh prebuffer d) before) gap,
        passes e = true ∧ e.1.halfFull = true := by
    simp only [List.any_eq_true, skips, Bool.and_eq_true]
  have hiff : GapVisible c (fresh prebuffer d) before gap last ↔
      ∃ e ∈ trace step (after step (fresh prebuffer d) before) gap,
        passes e = true ∧ e.1.halfFull = true := by
    rw [← hany]
    constructor
    · rintro ⟨hup, -⟩
      by_contra hno
      rw [hlast, htotal, if_neg hno] at hup
      omega
    · intro hskip
      refine ⟨by rw [hlast, htotal, if_pos hskip], ?_⟩
      obtain ⟨g₁, op, g₂, rfl, hlt⟩ := exists_counting hinv hin hgap.quiet hclosed hskip
      refine ⟨g₁, op, g₂, rfl, fun earlier later hpre hlater a t hreads => hreads.missing_pos ?_⟩
      rw [← after_append, ← after_append, ← List.append_assoc] at hlt
      -- the counters only go up before the step and after it
      obtain ⟨rest, hrest⟩ := hpre
      have hup : (after step (fresh prebuffer d) earlier).gapRuns.total ≤
          (after step (fresh prebuffer d) (before ++ g₁)).gapRuns.total := by
        rw [← hrest, after_append]
        refine total_mono (after_mono (c := c) (after_inv hinv₀ earlier) fun op' h => ?_)
        have hmem : op' ∈ before ++ g₁ := by rw [← hrest]; exact List.mem_append_right _ h
        exact hfed op' (by simp at hmem ⊢; tauto)
      have hon : (after step (fresh prebuffer d) (before ++ g₁ ++ [op])).gapRuns.total ≤
          (after step (fresh prebuffer d) (before ++ g₁ ++ op :: later)).gapRuns.total := by
        rw [List.append_cons (before ++ g₁) op later, after_append _ _ (before ++ g₁ ++ [op])]
        exact total_mono (after_mono (after_inv hinv₀ _) hlater)
      omega
  refine ⟨hiff, fun hweb => hiff.2 ?_⟩
  obtain ⟨e, he, hpass⟩ := hgap.passed
  have hinve : Inv e.1 := trace_invariant (fun _ op hs => hs.step op) hinv e he
  have hop : e.2.1 ∈ gap := by
    rw [← trace_inputs step (after step (fresh prebuffer d) before) gap]
    exact List.mem_map_of_mem he
  have heq : e = (e.1, e.2.1, (step e.1 e.2.1).2) := by
    rw [← trace_answer step he]
  refine ⟨e, he, hpass, ?_⟩
  rw [heq] at hpass
  exact halfFull_of_web hinve (hweb ▸ hin _ hop) hpass

/-- A frame lost on the way to a browser: half of a ring of two is enough
to skip it. -/
theorem gap_visible_web :
    GapVisible .web (fresh 1 ⟨2, 1, by decide, by decide⟩) [.push 0 [1] 1, .popReady]
      [.push 2 [3] 1, .popReady] .popReady :=
  (gap_visible_iff (newJitterBuffer_eq_some.2 ⟨_, rfl, rfl⟩) (by decide)
    ⟨by decide +kernel, by unfold Quiet; decide +kernel, by decide +kernel, by decide +kernel⟩).2 rfl

/-- Five frames of playout, one that is lost, and the two operations that
conceal it: the sixth frame is never pushed, the tick after the fifth finds
nothing and passes it. -/
def fiveFrames : List Op :=
  [.push 0 [1] 1, .push 1 [1] 1, .push 2 [1] 1, .push 3 [1] 1, .push 4 [1] 1, .popOrConceal 200 1,
    .popOrConceal 200 1, .popOrConceal 200 1, .popOrConceal 200 1, .popOrConceal 200 1]

/-- **A concealed frame is not seen.** With the depth and the prebuffer the
daemon uses, frame five is lost and concealed, frame six is played, and no
counter has moved. -/
theorem gap_concealed_unseen :
    ¬ ∀ (c : Consumer) (prebuffer maxDepth : ℤ) (jb₀ : JitterBuffer) (before gap : List Op)
        (last : Op), newJitterBuffer prebuffer maxDepth = some jb₀ →
      (∀ op ∈ before ++ gap ++ [last], c.uses op = true) → Gap jb₀ before gap last →
        GapVisible c jb₀ before gap last := by
  intro h
  have hseen := h .hardware prebufferPackets maxDepthLimit _ fiveFrames
    [.popOrConceal 200 1, .push 6 [1] 1] (.popOrConceal 200 1)
    (newJitterBuffer_eq_some.2 ⟨⟨32, 5, by decide, by decide⟩, rfl, rfl⟩) (by decide)
    ⟨by decide +kernel, by unfold Quiet; decide +kernel, by decide +kernel, by decide +kernel⟩
  exact absurd hseen.1 (by decide +kernel)

end Gaps

end Jitter

end OpenManet
