import OpenManet.Comms.Jitter.Model
import Mathlib.Data.Fintype.Card
import Mathlib.Data.Fintype.Pi
import Mathlib.Data.Finset.Card
/-!
# The representation invariant of the jitter buffer

`Inv` is what every operation restores: the count is the number of valid
slots, a valid slot holds a number of its own slot, and nothing buffered is
behind the cursor. It holds of every initialised buffer, playout started or
not; before initialisation no slot is valid.

The one step with an argument in it is moving the cursor. A frame at the
cursor would sit in the cursor's slot, so where that slot does not hold it
no slot does, and every buffered number is at least one step ahead.
-/

namespace OpenManet

namespace Jitter

open SeqNum

namespace JitterBuffer

/-- The number of valid slots. -/
def validCount (jb : JitterBuffer) : ℕ :=
  (Finset.univ.filter fun i => (jb.slots i).valid = true).card

/-- The representation invariant. -/
structure Inv (jb : JitterBuffer) : Prop where
  count_eq : jb.count = (jb.validCount : ℤ)
  slot_eq : ∀ i, (jb.slots i).valid = true → jb.depth.slotIdx (jb.slots i).seq = i
  ahead : ∀ i, (jb.slots i).valid = true → seqLess (jb.slots i).seq jb.expected = false
  init_of_valid : ∀ i, (jb.slots i).valid = true → jb.init = true
  init_of_started : jb.started = true → jb.init = true
  payload_isSome : ∀ i, (jb.slots i).valid = true → (jb.slots i).payload.isSome

variable {jb : JitterBuffer}

/-! ## Cursor arithmetic -/

theorem seqLess_self (a : Seq) : seqLess a a = false := by
  simp [seqLess]

/-- At or ahead, as a distance. -/
theorem seqLess_eq_false_iff_dist {a b : Seq} :
    seqLess a b = false ↔ dist a b < 32768 := by
  rw [seqLess_eq_false, toInt_sub_nonneg]
  constructor <;> intro h <;> omega

/-- A number ahead of the cursor and not at it is ahead of the next one. -/
theorem seqLess_succ {a b : Seq} (h : seqLess a b = false) (hne : a ≠ b) :
    seqLess a (b + 1) = false := by
  rw [seqLess_eq_false_iff_dist] at h ⊢
  have hd : dist a (b + 1#16) + 1 = dist a b := dist_succ hne
  change dist a (b + 1#16) < 32768
  omega

/-! ## Counting valid slots -/

theorem validCount_eq_of_slots {jb jb' : JitterBuffer} (h : jb'.slots = jb.slots) :
    jb'.validCount = jb.validCount := by
  rw [validCount, validCount, h]

/-- Writing a valid slot counts one more, unless it overwrites one. -/
theorem card_valid_update (slots : Fin maxDepthLimit → JitterSlot) (i : Fin maxDepthLimit)
    (s : JitterSlot) (hs : s.valid = true) :
    (Finset.univ.filter fun j => (Function.update slots i s j).valid = true).card +
        (if (slots i).valid then 1 else 0) =
      (Finset.univ.filter fun j => (slots j).valid = true).card + 1 := by
  have hset : (Finset.univ.filter fun j => (Function.update slots i s j).valid = true) =
      insert i (Finset.univ.filter fun j => (slots j).valid = true) := by
    ext j
    simp only [Finset.mem_filter, Finset.mem_univ, true_and, Finset.mem_insert]
    by_cases hj : j = i
    · subst hj; simp [hs]
    · simp [hj]
  rw [hset]
  by_cases hv : (slots i).valid = true
  · rw [Finset.insert_eq_of_mem (by simp [hv]), if_pos hv]
  · rw [Finset.card_insert_of_notMem (by simp [hv]), if_neg hv]

/-- Invalidating a valid slot counts one less. -/
theorem card_valid_clear (slots : Fin maxDepthLimit → JitterSlot) (i : Fin maxDepthLimit)
    (s : JitterSlot) (hs : s.valid = false) (hv : (slots i).valid = true) :
    (Finset.univ.filter fun j => (Function.update slots i s j).valid = true).card + 1 =
      (Finset.univ.filter fun j => (slots j).valid = true).card := by
  have hset : (Finset.univ.filter fun j => (Function.update slots i s j).valid = true) =
      (Finset.univ.filter fun j => (slots j).valid = true).erase i := by
    ext j
    simp only [Finset.mem_filter, Finset.mem_univ, true_and, Finset.mem_erase]
    by_cases hj : j = i
    · subst hj; simp [hs]
    · simp [hj]
  rw [hset, Finset.card_erase_add_one (by simp [hv])]

/-- **The count never exceeds the depth**: a valid slot is one of the first
`maxDepth`. -/
theorem Inv.validCount_le (h : Inv jb) : jb.validCount ≤ jb.depth.maxDepth := by
  have hsub : (Finset.univ.filter fun i => (jb.slots i).valid = true).image Fin.val ⊆
      Finset.range jb.depth.maxDepth := by
    intro n hn
    simp only [Finset.mem_image, Finset.mem_filter, Finset.mem_univ, true_and] at hn
    obtain ⟨i, hv, rfl⟩ := hn
    rw [Finset.mem_range, ← h.slot_eq i hv]
    exact jb.depth.slotIdx_lt _
  have hcard := Finset.card_le_card hsub
  rwa [Finset.card_image_of_injective _ Fin.val_injective, Finset.card_range] at hcard

/-! ## Bookkeeping -/

section NoteSSRC

variable (ssrc : BitVec 32) (r : JitterBuffer × Bool)

@[simp] theorem noteSSRC_snd : (noteSSRC ssrc r).2 = r.2 := rfl

/-- `PushWithSSRC`'s epilogue touches the SSRC fields and a counter. -/
theorem noteSSRC_fst : ∃ o s h, (noteSSRC ssrc r).1 =
    { r.1 with overflows := o, ssrc := s, haveSSRC := h } := by
  unfold noteSSRC
  dsimp only
  split <;> split <;> exact ⟨_, _, _, rfl⟩

@[simp] theorem noteSSRC_slots : (noteSSRC ssrc r).1.slots = r.1.slots := by
  obtain ⟨o, s, h, heq⟩ := noteSSRC_fst ssrc r; rw [heq]

@[simp] theorem noteSSRC_expected : (noteSSRC ssrc r).1.expected = r.1.expected := by
  obtain ⟨o, s, h, heq⟩ := noteSSRC_fst ssrc r; rw [heq]

@[simp] theorem noteSSRC_init : (noteSSRC ssrc r).1.init = r.1.init := by
  obtain ⟨o, s, h, heq⟩ := noteSSRC_fst ssrc r; rw [heq]

@[simp] theorem noteSSRC_started : (noteSSRC ssrc r).1.started = r.1.started := by
  obtain ⟨o, s, h, heq⟩ := noteSSRC_fst ssrc r; rw [heq]

@[simp] theorem noteSSRC_count : (noteSSRC ssrc r).1.count = r.1.count := by
  obtain ⟨o, s, h, heq⟩ := noteSSRC_fst ssrc r; rw [heq]

@[simp] theorem noteSSRC_depth : (noteSSRC ssrc r).1.depth = r.1.depth := by
  obtain ⟨o, s, h, heq⟩ := noteSSRC_fst ssrc r; rw [heq]

@[simp] theorem noteSSRC_lastPush : (noteSSRC ssrc r).1.lastPush = r.1.lastPush := by
  obtain ⟨o, s, h, heq⟩ := noteSSRC_fst ssrc r; rw [heq]

end NoteSSRC

/-! ## Resets -/

theorem validCount_resetLocked : jb.resetLocked.validCount = 0 := by
  simp [validCount, resetLocked]

theorem inv_resetLocked : Inv jb.resetLocked where
  count_eq := by rw [validCount_resetLocked]; rfl
  slot_eq i hv := by simp [resetLocked] at hv
  ahead i hv := by simp [resetLocked] at hv
  init_of_valid i hv := by simp [resetLocked] at hv
  init_of_started hs := by simp [resetLocked] at hs
  payload_isSome i hv := by simp [resetLocked] at hv

/-- The fields the invariant does not read may change under it. -/
theorem Inv.of_frame {jb' : JitterBuffer} (h : Inv jb) (hslots : jb'.slots = jb.slots)
    (hcount : jb'.count = jb.count) (hdepth : jb'.depth = jb.depth)
    (hexp : jb'.expected = jb.expected) (hinit : jb'.init = jb.init)
    (hstarted : jb'.started = true → jb.init = true) : Inv jb' where
  count_eq := by rw [hcount, validCount_eq_of_slots hslots, h.count_eq]
  slot_eq i := by rw [hslots, hdepth]; exact h.slot_eq i
  ahead i := by rw [hslots, hexp]; exact h.ahead i
  init_of_valid i := by rw [hslots, hinit]; exact h.init_of_valid i
  init_of_started hs := by rw [hinit]; exact hstarted hs
  payload_isSome i := by rw [hslots]; exact h.payload_isSome i

theorem Inv.idleReset (h : Inv jb) (now : Instant) : Inv (jb.idleReset now) := by
  unfold JitterBuffer.idleReset
  split
  · exact inv_resetLocked.of_frame rfl rfl rfl rfl rfl (by simp [resetLocked])
  · exact h

theorem Inv.ssrcReset (h : Inv jb) (ssrc : BitVec 32) : Inv (jb.ssrcReset ssrc) := by
  unfold JitterBuffer.ssrcReset
  split
  · exact inv_resetLocked.of_frame rfl rfl rfl rfl rfl (by simp [resetLocked])
  · exact h

theorem Inv.reset (_ : Inv jb) : Inv jb.reset :=
  inv_resetLocked.of_frame rfl rfl rfl rfl rfl (by simp [JitterBuffer.reset, resetLocked])

/-! ## Pushes -/

@[simp] theorem anchorAt_init (seq : Seq) : (jb.anchorAt seq).init = true := by
  unfold anchorAt
  split <;> simp_all

theorem Inv.anchorAt (h : Inv jb) (seq : Seq) : Inv (jb.anchorAt seq) := by
  unfold JitterBuffer.anchorAt
  split
  · exact h
  · rename_i hinit
    -- an uninitialised buffer holds nothing
    have hnone : ∀ i, (jb.slots i).valid = true → False := fun i hv => hinit (h.init_of_valid i hv)
    exact ⟨h.count_eq, fun i hv => (hnone i hv).elim, fun i hv => (hnone i hv).elim,
      fun _ _ => rfl, fun _ => rfl, fun i hv => (hnone i hv).elim⟩

/-- What storing a frame can do: refuse it and change nothing, or write its
slot, whose old frame gives its place back. -/
theorem store_cases (jb : JitterBuffer) (seq : Seq) (payload : Payload) (now : Instant) :
    jb.store seq payload now = (jb, false) ∨
    (seqLess seq jb.expected = false ∧
      ¬ ((jb.slots (jb.depth.slotIdx seq)).valid = true ∧
        (jb.slots (jb.depth.slotIdx seq)).seq = seq) ∧
      jb.store seq payload now =
        ({ jb with
            slots := Function.update jb.slots (jb.depth.slotIdx seq) ⟨some payload, seq, true⟩
            count := jb.count + 1 - (if (jb.slots (jb.depth.slotIdx seq)).valid then 1 else 0)
            lastPush := now }, true)) := by
  unfold store
  by_cases hlate : seqLess seq jb.expected = true
  · exact .inl (by simp [hlate])
  by_cases hdup : (jb.slots (jb.depth.slotIdx seq)).valid = true ∧
      (jb.slots (jb.depth.slotIdx seq)).seq = seq
  · exact .inl (by simp [hlate, hdup])
  by_cases hfull : (jb.depth.maxDepth : ℤ) ≤ jb.count ∧
      (jb.slots (jb.depth.slotIdx seq)).valid = false
  · exact .inl (by simp [hlate, hfull])
  · refine .inr ⟨by simpa using hlate, hdup, ?_⟩
    by_cases hv : (jb.slots (jb.depth.slotIdx seq)).valid = true
    · have hne : (jb.slots (jb.depth.slotIdx seq)).seq ≠ seq := fun he => hdup ⟨hv, he⟩
      simp [hlate, hv, hne]
    · simp only [Bool.not_eq_true] at hv
      simp only [hv, and_true, not_le] at hfull
      simp [hlate, hv, Int.not_le.2 hfull]

theorem Inv.store (h : Inv jb) (hinit : jb.init = true) (seq : Seq) (payload : Payload)
    (now : Instant) : Inv (jb.store seq payload now).1 := by
  obtain heq | ⟨hahead, -, heq⟩ := store_cases jb seq payload now
  · rw [heq]; exact h
  rw [heq]
  have hcard := card_valid_update jb.slots (jb.depth.slotIdx seq) ⟨some payload, seq, true⟩ rfl
  refine ⟨?_, ?_, ?_, fun _ _ => hinit, fun _ => hinit, ?_⟩
  · have hcount := h.count_eq
    simp only [validCount] at hcount ⊢
    split at hcard <;> simp_all
  -- every other slot is as it was
  all_goals
    intro i hv
    by_cases hi : i = jb.depth.slotIdx seq
    · subst hi; simp [hahead]
    simp only [Function.update_of_ne hi] at hv ⊢
  · exact h.slot_eq i hv
  · exact h.ahead i hv
  · exact h.payload_isSome i hv

theorem Inv.pushLocked (h : Inv jb) (seq : Seq) (payload : Payload) (now : Instant) :
    Inv (jb.pushLocked seq payload now).1 := by
  unfold JitterBuffer.pushLocked
  split
  · exact h
  · exact ((h.idleReset now).anchorAt seq).store (anchorAt_init seq) seq payload now

theorem Inv.noteSSRC {r : JitterBuffer × Bool} (h : Inv r.1) (ssrc : BitVec 32) :
    Inv (JitterBuffer.noteSSRC ssrc r).1 :=
  h.of_frame (noteSSRC_slots ssrc r) (noteSSRC_count ssrc r) (noteSSRC_depth ssrc r)
    (noteSSRC_expected ssrc r) (noteSSRC_init ssrc r)
    (by rw [noteSSRC_started]; exact h.init_of_started)

theorem Inv.pushWithSSRC (h : Inv jb) (ssrc : BitVec 32) (seq : Seq) (payload : Payload)
    (now : Instant) : Inv (jb.pushWithSSRC ssrc seq payload now).1 :=
  ((h.ssrcReset ssrc).pushLocked seq payload now).noteSSRC ssrc

/-! ## Moving the cursor -/

theorem atCursor_iff :
    jb.atCursor = true ↔ jb.cursorSlot.valid = true ∧ jb.cursorSlot.seq = jb.expected := by
  simp [atCursor]

/-- **The cursor's frame has one place to be.** A buffered frame with the
cursor's number sits in the cursor's slot. -/
theorem Inv.atCursor_of_seq_eq (h : Inv jb) {i : Fin maxDepthLimit}
    (hv : (jb.slots i).valid = true) (he : (jb.slots i).seq = jb.expected) :
    jb.atCursor = true := by
  have hi := h.slot_eq i hv
  rw [he] at hi
  subst hi
  exact atCursor_iff.2 ⟨hv, he⟩

/-- Stepping over a frame that is not there. -/
theorem Inv.bump_of_missing (h : Inv jb) (hmiss : jb.atCursor = false) : Inv jb.bump where
  count_eq := h.count_eq
  slot_eq := h.slot_eq
  ahead i hv := seqLess_succ (h.ahead i hv) fun he => by
    rw [h.atCursor_of_seq_eq hv he] at hmiss
    exact Bool.noConfusion hmiss
  init_of_valid := h.init_of_valid
  init_of_started := h.init_of_started
  payload_isSome := h.payload_isSome

/-- A slot still valid after the cursor's was emptied was valid before, and
is another one. -/
theorem valid_clearCursor {i : Fin maxDepthLimit} (hv : (jb.clearCursor.slots i).valid = true) :
    i ≠ jb.depth.slotIdx jb.expected ∧ jb.clearCursor.slots i = jb.slots i := by
  by_cases hi : i = jb.depth.slotIdx jb.expected
  · subst hi; simp [clearCursor] at hv
  · exact ⟨hi, by simp [clearCursor, hi]⟩

/-- Taking the frame at the cursor. -/
theorem Inv.bump_clearCursor (h : Inv jb) (hat : jb.atCursor = true) :
    Inv jb.clearCursor.bump := by
  obtain ⟨hvalid, -⟩ := atCursor_iff.1 hat
  have hcard := card_valid_clear jb.slots (jb.depth.slotIdx jb.expected)
    { jb.cursorSlot with payload := none, valid := false } rfl hvalid
  refine ⟨?_, ?_, ?_, ?_, h.init_of_started, ?_⟩
  · have hcount := h.count_eq
    have hone : jb.clearCursor.bump.validCount + 1 = jb.validCount := hcard
    change jb.count - 1 = _
    omega
  all_goals
    intro i hv
    have hv' : (jb.clearCursor.slots i).valid = true := hv
    obtain ⟨hne, heq⟩ := valid_clearCursor hv'
    rw [heq] at hv'
  · change jb.depth.slotIdx (jb.clearCursor.slots i).seq = i
    rw [heq]; exact h.slot_eq i hv'
  · change seqLess (jb.clearCursor.slots i).seq (jb.expected + 1) = false
    rw [heq]
    refine seqLess_succ (h.ahead i hv') fun he => hne ?_
    rw [← he]; exact (h.slot_eq i hv').symm
  · exact h.init_of_valid i hv'
  · change (jb.clearCursor.slots i).payload.isSome
    rw [heq]; exact h.payload_isSome i hv'

theorem Inv.advancePastLocked (h : Inv jb) : Inv jb.advancePastLocked := by
  unfold JitterBuffer.advancePastLocked
  split
  · exact h.bump_clearCursor ‹_›
  · rename_i hat
    exact h.bump_of_missing (by simpa using hat)

/-! ## Pops -/

theorem Inv.popReadyLocked (h : Inv jb) : Inv jb.popReadyLocked.1 := by
  have hinit : jb.canPlay = true → true = true → jb.init = true := fun hplay _ =>
    init_of_canPlay hplay
  have hpops := jb.pops
  generalize jb.popReadyLocked = r at hpops ⊢
  cases hpops with
  | delivers hplay hat =>
      exact (h.bump_clearCursor hat).of_frame rfl rfl rfl rfl rfl (hinit hplay)
  | skips hplay hmiss hhalf =>
      exact (h.bump_of_missing hmiss).of_frame rfl rfl rfl rfl rfl (hinit hplay)
  | waits hplay hmiss hlow => exact h.of_frame rfl rfl rfl rfl rfl (hinit hplay)
  | rests hplay => exact h

theorem Inv.popOrConceal (h : Inv jb) (w : ℤ) (now : Instant) :
    Inv (jb.popOrConceal w now).1 := by
  have hpop := h.popReadyLocked
  unfold JitterBuffer.popOrConceal
  dsimp only
  split
  · exact hpop
  split
  · exact hpop
  split
  · exact hpop.advancePastLocked
  · exact hpop

/-! ## Runs -/

/-- **One operation.** -/
theorem Inv.step (h : Inv jb) (op : Op) : Inv (Jitter.step jb op).1 := by
  cases op with
  | push seq payload now => exact h.pushWithSSRC 0 seq payload now
  | pushWithSSRC ssrc seq payload now => exact h.pushWithSSRC ssrc seq payload now
  | popReady => exact h.popReadyLocked
  | popOrConceal w now => exact h.popOrConceal w now
  | advancePast => exact h.advancePastLocked
  | reset => exact h.reset

theorem inv_fresh (prebuffer : ℤ) (d : Depth) : Inv (fresh prebuffer d) := by
  refine ⟨?_, ?_, ?_, ?_, ?_, ?_⟩ <;> simp [fresh, validCount]

theorem inv_of_reachable (h : Reachable jb) : Inv jb := by
  obtain ⟨prebuffer, _, jb₀, ops, hnew, rfl⟩ := h
  obtain ⟨d, -, rfl⟩ := newJitterBuffer_eq_some.1 hnew
  exact after_invariant (fun _ op hs => hs.step op) (inv_fresh prebuffer d) ops

/-! ## What no operation changes -/

@[simp] theorem store_depth (seq : Seq) (payload : Payload) (now : Instant) :
    (jb.store seq payload now).1.depth = jb.depth := by
  obtain heq | ⟨-, -, heq⟩ := store_cases jb seq payload now <;> rw [heq]

@[simp] theorem anchorAt_depth (seq : Seq) : (jb.anchorAt seq).depth = jb.depth := by
  unfold anchorAt; split <;> rfl

@[simp] theorem idleReset_depth (now : Instant) : (jb.idleReset now).depth = jb.depth := by
  unfold idleReset; split <;> rfl

@[simp] theorem ssrcReset_depth (ssrc : BitVec 32) : (jb.ssrcReset ssrc).depth = jb.depth := by
  unfold ssrcReset; split <;> rfl

@[simp] theorem pushWithSSRC_depth (ssrc : BitVec 32) (seq : Seq) (payload : Payload)
    (now : Instant) : (jb.pushWithSSRC ssrc seq payload now).1.depth = jb.depth := by
  unfold pushWithSSRC pushLocked
  split <;> simp

theorem Pops.depth {r : JitterBuffer × Pop} (h : Pops jb r) : r.1.depth = jb.depth := by
  cases h <;> rfl

@[simp] theorem popReadyLocked_depth : jb.popReadyLocked.1.depth = jb.depth := jb.pops.depth

@[simp] theorem advancePastLocked_depth : jb.advancePastLocked.depth = jb.depth := by
  unfold advancePastLocked; split <;> rfl

@[simp] theorem popOrConceal_depth (w : ℤ) (now : Instant) :
    (jb.popOrConceal w now).1.depth = jb.depth := by
  unfold popOrConceal
  dsimp only
  split
  · exact popReadyLocked_depth
  split
  · exact popReadyLocked_depth
  split <;> simp

/-- The depth is fixed at construction. -/
theorem step_depth (op : Op) : (Jitter.step jb op).1.depth = jb.depth := by
  cases op with
  | push seq payload now => exact pushWithSSRC_depth 0 seq payload now
  | pushWithSSRC ssrc seq payload now => exact pushWithSSRC_depth ssrc seq payload now
  | popReady => exact popReadyLocked_depth
  | popOrConceal w now => exact popOrConceal_depth w now
  | advancePast => exact advancePastLocked_depth
  | reset => rfl

theorem after_depth (ops : List Op) : (after Jitter.step jb ops).depth = jb.depth := by
  induction ops generalizing jb with
  | nil => rfl
  | cons op ops ih => rw [after_cons, ih, step_depth]

/-! ## The invariant, over every run -/

/-- **Representation invariant.** Whatever depth the constructor accepts and
whatever is pushed and popped, the count is the number of valid slots and at
most the depth, a valid slot holds a number of its own slot, and once
playout has started nothing buffered is behind the cursor. -/
theorem representation_invariant {prebuffer maxDepth : ℤ} {jb₀ jb : JitterBuffer}
    (hnew : newJitterBuffer prebuffer maxDepth = some jb₀) (ops : List Op)
    (hrun : after Jitter.step jb₀ ops = jb) :
    (∃ k ≤ 5, maxDepth = 2 ^ k) ∧
    jb.count = (jb.validCount : ℤ) ∧ jb.count ≤ maxDepth ∧
    (∀ i, (jb.slots i).valid = true →
      (jb.slots i).seq.toNat &&& (maxDepth.toNat - 1) = (i : ℕ)) ∧
    (jb.started = true → ∀ i, (jb.slots i).valid = true →
      0 ≤ ((jb.slots i).seq - jb.expected).toInt) := by
  have hinv : Inv jb := inv_of_reachable ⟨prebuffer, maxDepth, jb₀, ops, hnew, hrun⟩
  have hdepth : (jb.depth.maxDepth : ℤ) = maxDepth := by
    obtain ⟨d, rfl, rfl⟩ := newJitterBuffer_eq_some.1 hnew
    rw [← hrun, after_depth]
    rfl
  refine ⟨?_, hinv.count_eq, ?_, ?_, ?_⟩
  · obtain ⟨k, hk, hpow⟩ := jb.depth.pow_two
    exact ⟨k, hk, by rw [← hdepth, hpow]; push_cast; rfl⟩
  · rw [hinv.count_eq, ← hdepth]
    exact_mod_cast hinv.validCount_le
  · intro i hv
    have hmask : jb.depth.depthMask = maxDepth.toNat - 1 := by
      rw [Depth.depthMask, ← hdepth, Int.toNat_natCast]
    rw [← hmask]
    exact congrArg Fin.val (hinv.slot_eq i hv)
  · intro _ i hv
    exact seqLess_eq_false.1 (hinv.ahead i hv)

/-- A buffer of four slots, its numbers across the wrap, with a skip over
the missing `65535`. -/
theorem representation_invariant_wrap :
    let jb := after Jitter.step (fresh 1 ⟨4, 2, by decide, by decide⟩)
      [.push 65534 [1] 10, .popReady, .push 0 [2] 20, .push 1 [3] 30,
        .popOrConceal 200 30, .push 2 [4] 40]
    jb.started = true ∧ jb.count = 3 ∧ jb.count = (jb.validCount : ℤ) ∧
      ∀ i, (jb.slots i).valid = true → 0 ≤ ((jb.slots i).seq - jb.expected).toInt := by
  have h := representation_invariant
    (newJitterBuffer_eq_some.2 ⟨⟨4, 2, by decide, by decide⟩, rfl, rfl⟩ :
      newJitterBuffer 1 4 = _)
    [.push 65534 [1] 10, .popReady, .push 0 [2] 20, .push 1 [3] 30,
      .popOrConceal 200 30, .push 2 [4] 40] rfl
  exact ⟨by decide +kernel, by decide +kernel, h.2.1, h.2.2.2.2 (by decide +kernel)⟩

end JitterBuffer

end Jitter

end OpenManet
