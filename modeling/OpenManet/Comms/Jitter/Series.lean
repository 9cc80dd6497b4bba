import OpenManet.Comms.Jitter.Drain
/-!
# The gap histogram

A run of missing frames is put into a bucket once, at its first skip, by what
a walk ahead of the cursor finds. What decides whether the bucket is the right
one is that nothing is pushed while the run is skipped: then the frame the
walk stops at is the one the cursor will stop at. A ring shows a run no longer
than itself.
-/

namespace OpenManet

namespace Jitter

open JitterBuffer

/-! ## Buckets -/

/-- The bucket of a run: `1`, `2` to `5`, `6` to `10`, `11` to `20`, `21` to
`50`, or more. -/
def bucketOf (n : ℕ) : Fin 6 :=
  if n ≤ 1 then 0 else if n ≤ 5 then 1 else if n ≤ 10 then 2 else if n ≤ 20 then 3
  else if n ≤ 50 then 4 else 5

/-- **One bucket, by one.** -/
theorem bucketGapRunLocked_single (jb : JitterBuffer) (n : ℕ) :
    (jb.bucketGapRunLocked n).gapRuns.buckets = jb.gapRuns.buckets + Pi.single (bucketOf n) 1 := by
  funext b
  have hb : b = 0 ∨ b = 1 ∨ b = 2 ∨ b = 3 ∨ b = 4 ∨ b = 5 := by omega
  rw [Pi.add_apply]
  unfold bucketGapRunLocked bucketOf
  dsimp only
  split_ifs <;> obtain rfl | rfl | rfl | rfl | rfl | rfl := hb <;>
    simp [GapRuns.buckets, Pi.single_apply]

/-! ## The walk -/

section Walk

variable {jb jb' : JitterBuffer}

/-- The walk stops at the first number that is buffered, or at its end. -/
theorem measureGapRunFrom_eq {start : Seq} {m n k : ℕ}
    (hmiss : ∀ j < m, jb.holds (start + BitVec.ofNat 16 (k + j)) = false)
    (hstop : jb.holds (start + BitVec.ofNat 16 (k + m)) = true) :
    jb.measureGapRunFrom start n k = k + min m n := by
  induction n generalizing m k with
  | zero => simp [measureGapRunFrom]
  | succ n ih =>
      have hunfold : jb.measureGapRunFrom start (n + 1) k =
          if jb.holds (start + BitVec.ofNat 16 k) then k
          else jb.measureGapRunFrom start n (k + 1) := rfl
      rw [hunfold]
      cases m with
      | zero =>
          rw [Nat.add_zero] at hstop
          rw [if_pos hstop]
          omega
      | succ m =>
          have hfirst := hmiss 0 (by omega)
          rw [Nat.add_zero] at hfirst
          rw [hfirst, if_neg (by decide), ih (m := m)]
          · omega
          · intro j hj
            rw [Nat.add_right_comm]
            exact hmiss (j + 1) (by omega)
          · rw [Nat.add_right_comm]
            exact hstop

theorem holds_congr (hslots : jb'.slots = jb.slots) (hdepth : jb'.depth = jb.depth) (seq : Seq) :
    jb'.holds seq = jb.holds seq := by
  rw [holds, holds, hslots, hdepth]

theorem atCursor_eq_holds : jb.atCursor = jb.holds jb.expected := rfl

end Walk

/-! ## A series of pops -/

/-- `n` calls of `PopReady`. -/
abbrev pops (n : ℕ) : List Op := List.replicate n .popReady

/-- The calls of a run that skip. -/
def skipped (es : List Event) : ℕ := es.countP passes

section Pops

variable {jb : JitterBuffer} {n : ℕ}

/-- A frame is delivered by a call that is ready. -/
theorem delivers_popReady (hinv : Inv jb) :
    delivers (jb, .popReady, (step jb .popReady).2) = jb.popReadyLocked.2.ready := by
  have hlength := delivered?_popReady hinv jb.pops
  unfold delivers
  change (delivered? (jb, .popReady, .popped jb.popReadyLocked.2)).isSome = _
  cases hdel : delivered? (jb, .popReady, .popped jb.popReadyLocked.2) with
  | none =>
      rw [hdel] at hlength
      cases hready : jb.popReadyLocked.2.ready with
      | false => rfl
      | true =>
          rw [hready] at hlength
          simp at hlength
  | some f =>
      rw [hdel] at hlength
      cases hready : jb.popReadyLocked.2.ready with
      | false =>
          rw [hready] at hlength
          simp at hlength
      | true => rfl

/-- Nothing comes after a call that comes back with nothing. -/
theorem ready_after_still (hstill : jb.popReadyLocked.2.goesOn = false) (n : ℕ) :
    (after step jb.popReadyLocked.1 (pops n)).popReadyLocked.2.ready = false := by
  induction n generalizing jb with
  | zero =>
      have hnext := goesOn_after_still hstill
      simp only [Pop.goesOn, Bool.or_eq_false_iff] at hnext
      exact hnext.2
  | succ n ih =>
      rw [pops, List.replicate_succ, after_cons]
      exact ih (goesOn_after_still hstill)

/-- What calls that all skip have done to a buffer. -/
structure Skipped (jb : JitterBuffer) (n : ℕ) (jb' : JitterBuffer) : Prop where
  slots : jb'.slots = jb.slots
  depth : jb'.depth = jb.depth
  expected : jb'.expected = jb.expected + BitVec.ofNat 16 n
  missing : ∀ j < n, jb.holds (jb.expected + BitVec.ofNat 16 j) = false
  gapRuns : jb'.gapRuns = if jb.inGap ∨ n = 0 then jb.gapRuns
    else (jb.bucketGapRunLocked jb.measureGapRunLocked).gapRuns
  count : skipped (trace step jb (pops n)) = n

/-- **The series.** Calls that do not deliver and are followed by one that
does have all skipped: the first of them counts the run. -/
theorem skipped_of_series (hinv : Inv jb)
    (hseries : ∀ e ∈ trace step jb (pops n), delivers e = false)
    (hcloses : (after step jb (pops n)).popReadyLocked.2.ready = true) :
    Skipped jb n (after step jb (pops n)) := by
  induction n generalizing jb with
  | zero =>
      refine ⟨rfl, rfl, ?_, fun j hj => absurd hj (Nat.not_lt_zero _), by simp, rfl⟩
      simp
  | succ n ih =>
      have hinv' : Inv jb.popReadyLocked.1 := hinv.popReadyLocked
      have hfirst : jb.popReadyLocked.2.ready = false := by
        rw [← delivers_popReady hinv]
        exact hseries _ List.mem_cons_self
      have hrest := ih hinv' (fun e he => hseries e (List.mem_cons_of_mem _ he)) hcloses
      have hgo : jb.popReadyLocked.2.goesOn = true := by
        by_contra hstill
        rw [Bool.not_eq_true] at hstill
        have hno := ready_after_still hstill n
        change (after step jb.popReadyLocked.1 (pops n)).popReadyLocked.2.ready = true at hcloses
        rw [hno] at hcloses
        cases hcloses
      have hpass : passes (jb, .popReady, (step jb .popReady).2) = true := by
        rw [passes, delivers_popReady hinv, hfirst]
        simpa [moves, step, Pop.goesOn, Bool.or_comm] using hgo
      have hcount : skipped (trace step jb (pops (n + 1))) = n + 1 := by
        rw [pops, List.replicate_succ, trace_cons, skipped, List.countP_cons_of_pos hpass]
        exact congrArg (· + 1) hrest.count
      have hrun : after step jb (pops (n + 1)) = after step jb.popReadyLocked.1 (pops n) := rfl
      rw [hrun]
      have hpops := jb.pops
      generalize jb.popReadyLocked = r at hpops hfirst hgo hrest ⊢
      cases hpops with
      | delivers hplay hat => cases hfirst
      | waits hplay hmiss hlow => cases hgo
      | rests hplay => cases hgo
      | skips hplay hmiss hhalf =>
          refine ⟨hrest.slots, hrest.depth, ?_, fun j hj => ?_, ?_, hcount⟩
          · rw [hrest.expected, Nat.add_comm n 1, BitVec.ofNat_add, ← BitVec.add_assoc]
            rfl
          · cases j with
            | zero =>
                rw [BitVec.add_zero, ← atCursor_eq_holds]
                exact hmiss
            | succ j =>
                have hlater := hrest.missing j (by omega)
                rw [Nat.add_comm j 1, BitVec.ofNat_add, ← BitVec.add_assoc]
                exact hlater
          · rw [hrest.gapRuns, if_pos (Or.inl rfl)]
            by_cases hgap : jb.inGap = true
            · rw [if_pos hgap, if_pos (Or.inl hgap)]
            · rw [if_neg hgap, if_neg (by simp [hgap])]

end Pops

/-! ## The histogram of a run -/

/-- A stretch of a run between two deliveries in which no push comes after
the first skip: a delivery, operations that neither deliver nor skip, calls
of `PopReady` that do not deliver, and a delivery. -/
structure Series (jb₀ : JitterBuffer) (before idle : List Op) (n : ℕ) : Prop where
  opens : delivers (after step jb₀ before, .popReady, (step (after step jb₀ before) .popReady).2) = true
  still : ∀ e ∈ trace step (after step jb₀ (before ++ [.popReady])) idle, moves e = false
  series : ∀ e ∈ trace step (after step jb₀ (before ++ .popReady :: idle)) (pops n), delivers e = false
  closes : delivers (after step jb₀ (before ++ .popReady :: idle ++ pops n), .popReady,
    (step (after step jb₀ (before ++ .popReady :: idle ++ pops n)) .popReady).2) = true

section Series

variable {jb : JitterBuffer} {ops : List Op}

/-- Where nothing moves, no gap begins and none is counted. -/
theorem idle_run (hinv : Inv jb) (huses : ∀ op ∈ ops, Consumer.web.uses op = true)
    (hidle : ∀ e ∈ trace step jb ops, moves e = false) (hgap : jb.inGap = false) :
    (after step jb ops).inGap = false ∧ (after step jb ops).gapRuns = jb.gapRuns := by
  induction ops generalizing jb with
  | nil => exact ⟨hgap, rfl⟩
  | cons op ops ih =>
      rw [List.forall_mem_cons] at huses
      have hstill := hidle _ List.mem_cons_self
      have hone : (step jb op).1.inGap = false ∧ (step jb op).1.gapRuns = jb.gapRuns := by
        rcases step_counts hinv huses.1 with ⟨-, hruns, hgap'⟩ | ⟨hskip, -, -, -⟩ |
          ⟨-, -, hruns, hgap'⟩
        · exact ⟨hgap', hruns⟩
        · rw [skips, passes, hstill] at hskip
          cases hskip
        · exact ⟨hgap'.trans hgap, hruns⟩
      obtain ⟨hgap', hruns⟩ := ih (hinv.step op) huses.2
        (fun e he => hidle e (List.mem_cons_of_mem _ he)) hone.1
      exact ⟨hgap', hruns.trans hone.2⟩

/-- A delivery ends the gap and counts nothing. -/
theorem delivery_counts (hinv : Inv jb)
    (hdel : delivers (jb, .popReady, (step jb .popReady).2) = true) :
    (step jb .popReady).1.inGap = false ∧ (step jb .popReady).1.gapRuns = jb.gapRuns := by
  rw [delivers_popReady hinv] at hdel
  change jb.popReadyLocked.1.inGap = false ∧ jb.popReadyLocked.1.gapRuns = jb.gapRuns
  have hpops := jb.pops
  generalize jb.popReadyLocked = r at hpops hdel ⊢
  cases hpops with
  | delivers hplay hat => exact ⟨rfl, rfl⟩
  | skips hplay hmiss hhalf => cases hdel
  | waits hplay hmiss hlow => cases hdel
  | rests hplay => cases hdel

end Series

/-- **Each series of skips between two deliveries is counted once**, in the
bucket of its length, or of the depth where it is longer than that. -/
theorem series_bucketed {prebuffer maxDepth : ℤ} {jb₀ : JitterBuffer} {before idle : List Op} {n : ℕ}
    (hnew : newJitterBuffer prebuffer maxDepth = some jb₀)
    (hfed : ∀ op ∈ before ++ idle, Consumer.web.uses op = true) (hseries : Series jb₀ before idle n)
    (hskips : 0 < skipped (trace step (after step jb₀ (before ++ .popReady :: idle)) (pops n))) :
    (after step jb₀ (before ++ .popReady :: idle ++ pops n ++ [.popReady])).gapRuns.buckets =
      (after step jb₀ (before ++ [.popReady])).gapRuns.buckets + Pi.single (bucketOf
        (min (skipped (trace step (after step jb₀ (before ++ .popReady :: idle)) (pops n)))
          maxDepth.toNat)) 1 := by
  obtain ⟨d, rfl, rfl⟩ := newJitterBuffer_eq_some.1 hnew
  have hinv := fun ops => after_inv (inv_fresh prebuffer d) ops
  obtain ⟨hgap₁, -⟩ := delivery_counts (hinv before) hseries.opens
  -- the deliveries count nothing, and neither does what comes before the first skip
  have hsplit : after step (fresh prebuffer d) (before ++ .popReady :: idle) =
      after step (after step (fresh prebuffer d) (before ++ [.popReady])) idle := by
    rw [← after_append, List.append_assoc, List.singleton_append]
  have hopen : (after step (fresh prebuffer d) (before ++ [.popReady])).inGap = false := by
    rw [after_append]
    exact hgap₁
  obtain ⟨hgap, hruns⟩ := idle_run (hinv (before ++ [.popReady]))
    (fun op hop => hfed op (List.mem_append_right _ hop)) hseries.still hopen
  rw [← hsplit] at hgap hruns
  obtain ⟨-, hlast⟩ := delivery_counts (hinv (before ++ .popReady :: idle ++ pops n)) hseries.closes
  have hend : (after step (fresh prebuffer d)
      (before ++ .popReady :: idle ++ pops n ++ [.popReady])).gapRuns =
        (after step (fresh prebuffer d) (before ++ .popReady :: idle ++ pops n)).gapRuns := by
    rw [after_append]
    exact hlast
  have hcloses := hseries.closes
  rw [delivers_popReady (hinv _), after_append] at hcloses
  have hrun := skipped_of_series (hinv (before ++ .popReady :: idle)) hseries.series hcloses
  rw [hrun.count] at hskips ⊢
  -- the walk sees what the cursor then meets
  have hmeasure : (after step (fresh prebuffer d) (before ++ .popReady :: idle)).measureGapRunLocked
      = min n d.maxDepth := by
    have hat : (after step (after step (fresh prebuffer d) (before ++ .popReady :: idle))
        (pops n)).atCursor = true := by
      rw [← after_append] at hcloses ⊢
      exact (popReadyLocked_ready hcloses).2.1
    rw [atCursor_eq_holds, hrun.expected, holds_congr hrun.slots hrun.depth] at hat
    rw [measureGapRunLocked, after_depth, measureGapRunFrom_eq (m := n)]
    · exact Nat.zero_add _
    · intro j hj
      rw [Nat.zero_add]
      exact hrun.missing j hj
    · rw [Nat.zero_add]
      exact hat
  rw [hend, after_append, hrun.gapRuns, if_neg (by rw [hgap]; simp; omega),
    bucketGapRunLocked_single, hruns, hmeasure, Int.toNat_natCast]

/-- Frames zero, three and four in a ring of four: one and two are skipped,
and are a run of two. -/
theorem series_bucketed_two :
    (after step (fresh 1 ⟨4, 2, by decide, by decide⟩) [.push 0 [1] 1, .popReady, .push 3 [4] 1,
      .push 4 [5] 1, .popReady, .popReady, .popReady]).gapRuns.buckets =
    (after step (fresh 1 ⟨4, 2, by decide, by decide⟩) [.push 0 [1] 1, .popReady]).gapRuns.buckets +
      Pi.single (bucketOf 2) 1 := by
  have hseries : Series (fresh 1 ⟨4, 2, by decide, by decide⟩) [.push 0 [1] 1]
      [.push 3 [4] 1, .push 4 [5] 1] 2 :=
    ⟨by decide +kernel, by decide +kernel, by decide +kernel, by decide +kernel⟩
  have htwo : skipped (trace step (after step (fresh 1 ⟨4, 2, by decide, by decide⟩)
      [.push 0 [1] 1, .popReady, .push 3 [4] 1, .push 4 [5] 1]) (pops 2)) = 2 := by decide +kernel
  have hrun := series_bucketed (newJitterBuffer_eq_some.2 ⟨_, rfl, rfl⟩) (by decide) hseries
    (by rw [List.singleton_append, htwo]; decide)
  rw [List.singleton_append, htwo] at hrun
  exact hrun

end Jitter

end OpenManet
