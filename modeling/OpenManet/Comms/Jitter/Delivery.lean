import OpenManet.Comms.Jitter.Invariant
/-!
# What the jitter buffer delivers

Between two resets the cursor only moves forward, one number at a time, and
a delivery is a move: so of two delivered frames the later is ahead of the
earlier by the number of moves made from the one to the other. Everything
about order is read off that count. On a circle of `2 ^ 16` numbers it is
all there is to say: past half a turn "ahead" turns into "behind", and past
a whole turn a number comes round again.

Three things reset: `Reset`, a change of SSRC, and the idle safety net of
`pushLocked`. `Epoch` is a run between two of them.
-/

namespace OpenManet

namespace Jitter

open SeqNum JitterBuffer

/-- A step of a run: the buffer the operation met, the operation and its
answer. -/
abbrev Event := JitterBuffer × Op × Out

/-- The frame a step delivers: the number at the cursor, and the payload
returned. -/
def delivered? : Event → Option (Seq × Payload)
  | (jb, _, .popped r) => if r.ready then r.payload.map fun p => (jb.expected, p) else none
  | (jb, _, .played payload _) => payload.map fun p => (jb.expected, p)
  | _ => none

/-- The step moves the cursor: a delivery, a skip, a concealment, or
`AdvancePast`. -/
def moves : Event → Bool
  | (_, _, .popped r) => r.ready || r.skippedMissing
  | (_, _, .played payload conceal) => payload.isSome || conceal
  | (_, .advancePast, _) => true
  | _ => false

/-- The frame a step accepts. -/
def accepted? : Event → Option (Seq × Payload)
  | (_, .push seq payload _, .pushed true) => some (seq, payload)
  | (_, .pushWithSSRC _ seq payload _, .pushed true) => some (seq, payload)
  | _ => none

/-- A push that resets the buffer: on a change of SSRC, or on the idle
test. -/
def JitterBuffer.pushResets (jb : JitterBuffer) (ssrc : BitVec 32) (payload : Payload)
    (now : Instant) : Bool :=
  jb.ssrcChanged ssrc ||
    (decide (payload.length ≤ maxOpusPayloadSize) && jb.idleExpired now)

/-- The operation resets the buffer. -/
def resets (jb : JitterBuffer) : Op → Bool
  | .push _ payload now => jb.pushResets 0 payload now
  | .pushWithSSRC ssrc _ payload now => jb.pushResets ssrc payload now
  | .reset => true
  | _ => false

/-- No operation of the run resets the buffer. -/
def steady (jb : JitterBuffer) (ops : List Op) : Bool := never step resets jb ops

/-- A buffer holding nothing, its cursor not placed yet. -/
def Cleared (jb : JitterBuffer) : Prop :=
  jb.init = false ∧ ∀ i, (jb.slots i).valid = false

/-- A run between two resets: it begins on a cleared buffer or with the
operation that clears it, and no later operation resets. -/
def Epoch (jb : JitterBuffer) : List Op → Prop
  | [] => True
  | op :: ops => (Cleared jb ∨ resets jb op = true) ∧ steady (step jb op).1 ops = true

/-! ## One step -/

section Steps

variable {jb : JitterBuffer} {op : Op}

theorem popReadyLocked_expected {jb : JitterBuffer} :
    jb.popReadyLocked.1.expected =
      jb.expected +
        (if jb.popReadyLocked.2.ready || jb.popReadyLocked.2.skippedMissing then 1 else 0) := by
  have hpops := jb.pops
  generalize jb.popReadyLocked = r at hpops ⊢
  cases hpops with
  | delivers hplay hat => rfl
  | skips hplay hmiss hhalf => rfl
  | waits hplay hmiss hlow => simp
  | rests hplay => simp

theorem popReadyLocked_init {jb : JitterBuffer} : jb.popReadyLocked.1.init = jb.init := by
  have hpops := jb.pops
  generalize jb.popReadyLocked = r at hpops ⊢
  cases hpops <;> rfl

theorem advancePastLocked_expected {jb : JitterBuffer} :
    jb.advancePastLocked.expected = jb.expected + 1 := by
  unfold advancePastLocked; split <;> rfl

theorem advancePastLocked_init {jb : JitterBuffer} : jb.advancePastLocked.init = jb.init := by
  unfold advancePastLocked; split <;> rfl

/-- A payload is returned exactly by a pop that is ready, from the cursor's
slot. -/
theorem popReadyLocked_ready {jb : JitterBuffer} (h : jb.popReadyLocked.2.ready = true) :
    jb.init = true ∧ jb.atCursor = true ∧ jb.popReadyLocked.2.payload = jb.cursorSlot.payload := by
  have hpops := jb.pops
  generalize jb.popReadyLocked = r at h hpops ⊢
  cases hpops with
  | delivers hplay hat => exact ⟨init_of_canPlay hplay, hat, rfl⟩
  | skips hplay hmiss hhalf => cases h
  | waits hplay hmiss hlow => cases h
  | rests hplay => cases h

/-- The cursor of a push that does not reset an initialised buffer stays. -/
theorem pushWithSSRC_expected {ssrc : BitVec 32} {seq : Seq} {payload : Payload} {now : Instant}
    (hinit : jb.init = true) (hres : jb.pushResets ssrc payload now = false) :
    (jb.pushWithSSRC ssrc seq payload now).1.expected = jb.expected ∧
      (jb.pushWithSSRC ssrc seq payload now).1.init = true := by
  simp only [pushResets, Bool.or_eq_false_iff, Bool.and_eq_false_iff, decide_eq_false_iff_not,
    not_le] at hres
  have hreset : jb.ssrcReset ssrc = jb := by simp [ssrcReset, hres.1]
  have hpush : (jb.pushLocked seq payload now).1.expected = jb.expected ∧
      (jb.pushLocked seq payload now).1.init = true := by
    unfold pushLocked
    split
    · exact ⟨rfl, hinit⟩
    · rename_i hlen
      have hidle : jb.idleExpired now = false := hres.2.resolve_left (by omega)
      have hself : (jb.idleReset now).anchorAt seq = jb := by
        simp [idleReset, hidle, anchorAt, hinit]
      rw [hself]
      obtain heq | ⟨-, -, heq⟩ := store_cases jb seq payload now <;> rw [heq] <;> exact ⟨rfl, hinit⟩
  simpa [pushWithSSRC, hreset] using hpush

/-- **A step without a reset moves the cursor by what it answers.** -/
theorem step_expected (hinv : Inv jb) (hinit : jb.init = true) (hres : resets jb op = false) :
    (step jb op).1.expected =
        jb.expected + (if moves (jb, op, (step jb op).2) then 1 else 0) ∧
      (step jb op).1.init = true := by
  cases op with
  | push seq payload now =>
      simpa [step, JitterBuffer.push, moves] using pushWithSSRC_expected hinit hres
  | pushWithSSRC ssrc seq payload now =>
      simpa [step, moves] using pushWithSSRC_expected hinit hres
  | popReady => exact ⟨popReadyLocked_expected, popReadyLocked_init.trans hinit⟩
  | popOrConceal w now =>
      have hexp := @popReadyLocked_expected jb
      have hini := (@popReadyLocked_init jb).trans hinit
      simp only [step, moves, popOrConceal]
      by_cases hready : jb.popReadyLocked.2.ready = true
      · -- a ready pop carries the payload of a valid slot, which is not nil
        obtain ⟨-, hat, hpay⟩ := popReadyLocked_ready hready
        have hsome : jb.cursorSlot.payload.isSome = true :=
          hinv.payload_isSome _ (atCursor_iff.1 hat).1
        simp only [hready, if_true, hpay, hsome, Bool.true_or] at hexp ⊢
        exact ⟨hexp, hini⟩
      · by_cases hskip : jb.popReadyLocked.2.skippedMissing = true
        · simp only [hready, hskip, if_true, Bool.or_true] at hexp ⊢
          exact ⟨hexp, hini⟩
        · simp only [hready, hskip, Bool.or_self] at hexp ⊢
          simp only [Bool.false_eq_true, if_false] at hexp ⊢
          split
          · simp [advancePastLocked_expected, advancePastLocked_init, hexp, hini]
          · simp [hexp, hini]
  | advancePast => exact ⟨advancePastLocked_expected, advancePastLocked_init.trans hinit⟩
  | reset => simp [resets] at hres

/-- A delivery is a move, of the frame in the cursor's slot. -/
theorem delivered?_eq_some {seq : Seq} {p : Payload}
    (h : delivered? (jb, op, (step jb op).2) = some (seq, p)) :
    jb.init = true ∧ moves (jb, op, (step jb op).2) = true ∧ seq = jb.expected ∧
      jb.atCursor = true ∧ jb.cursorSlot.payload = some p := by
  cases op with
  | popReady =>
      simp only [delivered?, step] at h
      split at h
      · rename_i hready
        obtain ⟨hinit, hat, hpay⟩ := popReadyLocked_ready hready
        rw [hpay, Option.map_eq_some_iff] at h
        obtain ⟨p', hp', heq⟩ := h
        cases heq
        exact ⟨hinit, by simp [moves, step, hready], rfl, hat, hp'⟩
      · cases h
  | popOrConceal w now =>
      simp only [delivered?, step, popOrConceal] at h
      by_cases hready : jb.popReadyLocked.2.ready = true
      · obtain ⟨hinit, hat, hpay⟩ := popReadyLocked_ready hready
        simp only [hready, if_true, hpay, Option.map_eq_some_iff] at h
        obtain ⟨p', hp', heq⟩ := h
        cases heq
        exact ⟨hinit, by simp [moves, step, popOrConceal, hready, hpay, hp'], rfl, hat, hp'⟩
      · simp only [hready, Bool.false_eq_true, if_false] at h
        split at h
        · cases h
        · split at h <;> cases h
  | push seq payload now => simp [delivered?, step] at h
  | pushWithSSRC ssrc seq payload now => simp [delivered?, step] at h
  | advancePast => simp [delivered?, step] at h
  | reset => simp [delivered?, step] at h

/-! ### Where a slot's frame comes from -/

theorem bump_clearCursor_slots {i : Fin maxDepthLimit}
    (hv : (jb.clearCursor.bump.slots i).valid = true) :
    jb.clearCursor.bump.slots i = jb.slots i := (valid_clearCursor hv).2

theorem advancePastLocked_slots {i : Fin maxDepthLimit}
    (hv : (jb.advancePastLocked.slots i).valid = true) :
    jb.advancePastLocked.slots i = jb.slots i := by
  unfold advancePastLocked at hv ⊢
  split at hv
  · rw [if_pos ‹_›]; exact bump_clearCursor_slots hv
  · rw [if_neg ‹_›]; rfl

/-- Nothing is buffered that was not before. -/
theorem JitterBuffer.Pops.old {r : JitterBuffer × Pop} {i : Fin maxDepthLimit} (h : Pops jb r)
    (hv : (r.1.slots i).valid = true) : r.1.slots i = jb.slots i := by
  cases h with
  | delivers hplay hat => exact bump_clearCursor_slots hv
  | skips hplay hmiss hhalf => rfl
  | waits hplay hmiss hlow => rfl
  | rests hplay => rfl

theorem popReadyLocked_slots {jb : JitterBuffer} {i : Fin maxDepthLimit}
    (hv : (jb.popReadyLocked.1.slots i).valid = true) :
    jb.popReadyLocked.1.slots i = jb.slots i := jb.pops.old hv

theorem popOrConceal_slots {w : ℤ} {now : Instant} {i : Fin maxDepthLimit}
    (hv : ((jb.popOrConceal w now).1.slots i).valid = true) :
    (jb.popOrConceal w now).1.slots i = jb.slots i := by
  unfold popOrConceal at hv ⊢
  dsimp only at hv ⊢
  split
  · rw [if_pos ‹_›] at hv; exact popReadyLocked_slots hv
  rw [if_neg ‹_›] at hv
  split
  · rw [if_pos ‹_›] at hv; exact popReadyLocked_slots hv
  rw [if_neg ‹_›] at hv
  split
  · rw [if_pos ‹_›] at hv
    have heq := advancePastLocked_slots hv
    rw [heq] at hv ⊢
    exact popReadyLocked_slots hv
  · rw [if_neg ‹_›] at hv; exact popReadyLocked_slots hv

/-- What a push meets, its resets done, was in the buffer before them only
if there were none. -/
theorem pushBase_slots {ssrc : BitVec 32} {seq : Seq} {payload : Payload} {now : Instant}
    {i : Fin maxDepthLimit}
    (hv : ((((jb.ssrcReset ssrc).idleReset now).anchorAt seq).slots i).valid = true) :
    jb.pushResets ssrc payload now = false ∧
      (((jb.ssrcReset ssrc).idleReset now).anchorAt seq).slots i = jb.slots i := by
  have hanchor : (((jb.ssrcReset ssrc).idleReset now).anchorAt seq).slots =
      ((jb.ssrcReset ssrc).idleReset now).slots := by unfold anchorAt; split <;> rfl
  rw [hanchor] at hv ⊢
  by_cases hssrc : jb.ssrcChanged ssrc = true
  · -- after an SSRC reset nothing is valid, and the idle test does not fire
    simp [ssrcReset, hssrc, idleReset, idleExpired, resetLocked] at hv
  · have hself : jb.ssrcReset ssrc = jb := by simp [ssrcReset, hssrc]
    rw [hself] at hv ⊢
    by_cases hidle : jb.idleExpired now = true
    · simp [idleReset, hidle, resetLocked] at hv
    · exact ⟨by simp [pushResets, hssrc, hidle], by simp [idleReset, hidle]⟩

/-- What is valid after a push was there before, or is the pushed frame. -/
theorem pushWithSSRC_slots {ssrc : BitVec 32} {seq : Seq} {payload : Payload} {now : Instant}
    {i : Fin maxDepthLimit}
    (hv : ((jb.pushWithSSRC ssrc seq payload now).1.slots i).valid = true) :
    (jb.pushResets ssrc payload now = false ∧
      (jb.pushWithSSRC ssrc seq payload now).1.slots i = jb.slots i) ∨
    ((jb.pushWithSSRC ssrc seq payload now).2 = true ∧
      (jb.pushWithSSRC ssrc seq payload now).1.slots i = ⟨some payload, seq, true⟩) := by
  simp only [pushWithSSRC, noteSSRC_slots, noteSSRC_snd, pushLocked] at hv ⊢
  by_cases hlen : payload.length > maxOpusPayloadSize
  · simp only [hlen, if_true] at hv ⊢
    by_cases hssrc : jb.ssrcChanged ssrc = true
    · simp [ssrcReset, hssrc, resetLocked] at hv
    · exact .inl ⟨by simp [pushResets, hssrc, Nat.not_le.2 hlen], by simp [ssrcReset, hssrc]⟩
  simp only [hlen, if_false] at hv ⊢
  obtain heq | ⟨-, -, heq⟩ :=
    store_cases (((jb.ssrcReset ssrc).idleReset now).anchorAt seq) seq payload now
  · rw [heq] at hv ⊢
    exact .inl (pushBase_slots hv)
  · rw [heq] at hv ⊢
    dsimp only at hv ⊢
    by_cases hi : i = (((jb.ssrcReset ssrc).idleReset now).anchorAt seq).depth.slotIdx seq
    · exact .inr ⟨rfl, by rw [hi, Function.update_self]⟩
    · rw [Function.update_of_ne hi] at hv ⊢
      exact .inl (pushBase_slots hv)

/-- **A valid slot after a step** was there before, with no reset between,
or holds the frame the step accepted. -/
theorem step_slots {i : Fin maxDepthLimit} (hv : ((step jb op).1.slots i).valid = true) :
    (resets jb op = false ∧ (step jb op).1.slots i = jb.slots i) ∨
    ∃ seq p, accepted? (jb, op, (step jb op).2) = some (seq, p) ∧
      (step jb op).1.slots i = ⟨some p, seq, true⟩ := by
  cases op with
  | push seq payload now =>
      refine (pushWithSSRC_slots hv).imp id fun h => ⟨seq, payload, ?_, h.2⟩
      have hok : (jb.push seq payload now).2 = true := h.1
      simp [accepted?, step, hok]
  | pushWithSSRC ssrc seq payload now =>
      refine (pushWithSSRC_slots hv).imp id fun h => ⟨seq, payload, ?_, h.2⟩
      simp [accepted?, step, h.1]
  | popReady => exact .inl ⟨rfl, popReadyLocked_slots hv⟩
  | popOrConceal w now => exact .inl ⟨rfl, popOrConceal_slots hv⟩
  | advancePast => exact .inl ⟨rfl, advancePastLocked_slots hv⟩
  | reset => simp [step, JitterBuffer.reset, resetLocked] at hv

end Steps

/-! ## Runs between two resets -/

theorem steady_append {jb : JitterBuffer} {ops₁ ops₂ : List Op} :
    steady jb (ops₁ ++ ops₂) = (steady jb ops₁ && steady (after step jb ops₁) ops₂) :=
  never_append step resets jb ops₁ ops₂

theorem steady_cons {jb : JitterBuffer} {op : Op} {ops : List Op} :
    steady jb (op :: ops) = true ↔ resets jb op = false ∧ steady (step jb op).1 ops = true := by
  simp [steady, never]

/-- A steady run moves the cursor by its moves. -/
theorem after_expected {jb : JitterBuffer} (hinv : Inv jb) (hinit : jb.init = true) {ops : List Op}
    (hsteady : steady jb ops = true) :
    (after step jb ops).expected =
      jb.expected + BitVec.ofNat 16 ((trace step jb ops).countP moves) := by
  induction ops generalizing jb with
  | nil => simp
  | cons op ops ih =>
      rw [steady_cons] at hsteady
      obtain ⟨hexp, hini⟩ := step_expected hinv hinit hsteady.1
      rw [after_cons, trace_cons, List.countP_cons, ih (hinv.step op) hini hsteady.2, hexp,
        BitVec.add_assoc]
      congr 1
      split <;> simp [BitVec.ofNat_add, BitVec.add_comm]

/-- Every frame buffered is one of `acc`. -/
def HeldFrom (jb : JitterBuffer) (acc : List (Seq × Payload)) : Prop :=
  ∀ i, (jb.slots i).valid = true → ∃ p, (jb.slots i).payload = some p ∧ ((jb.slots i).seq, p) ∈ acc

/-- What a step leaves buffered comes from before it or from its own push;
after a reset, only from its own push. -/
theorem HeldFrom.step {jb : JitterBuffer} {acc : List (Seq × Payload)} {op : Op}
    (h : resets jb op = false → HeldFrom jb acc) :
    HeldFrom (Jitter.step jb op).1
      (acc ++ (accepted? (jb, op, (Jitter.step jb op).2)).toList) := by
  intro i hv
  obtain ⟨hres, heq⟩ | ⟨seq, p, hacc, heq⟩ := step_slots hv
  · rw [heq] at hv ⊢
    obtain ⟨p, hp, hmem⟩ := h hres i hv
    exact ⟨p, hp, List.mem_append_left _ hmem⟩
  · rw [heq, hacc]
    exact ⟨p, rfl, by simp⟩

/-- **Everything delivered was accepted before.** Over a run whose later
steps do not reset, given that what the first step meets is accounted for. -/
theorem accepted_of_delivered {jb : JitterBuffer} {acc : List (Seq × Payload)} {ops : List Op}
    (hheld : HeldFrom jb acc) (hsteady : steady jb ops = true)
    {us vs : List Event} {ev : Event} (htr : trace step jb ops = us ++ ev :: vs)
    {seq : Seq} {p : Payload} (hdel : delivered? ev = some (seq, p)) :
    (seq, p) ∈ acc ++ us.filterMap accepted? := by
  induction ops generalizing jb acc us with
  | nil => simp at htr
  | cons op ops ih =>
      rw [steady_cons] at hsteady
      rw [trace_cons] at htr
      cases us with
      | nil =>
          -- the delivery is this step's: its frame is in the cursor's slot
          simp only [List.nil_append, List.cons.injEq] at htr
          rw [← htr.1] at hdel
          obtain ⟨-, -, hseq, hat, hpay⟩ := delivered?_eq_some hdel
          obtain ⟨hv, hcur⟩ := atCursor_iff.1 hat
          obtain ⟨q, hq, hmem⟩ := hheld _ hv
          have hqp : q = p := by
            have : some q = some p := hq.symm.trans hpay
            exact Option.some.inj this
          have hseq' : (jb.slots (jb.depth.slotIdx jb.expected)).seq = seq := hcur.trans hseq.symm
          rw [hqp, hseq'] at hmem
          simpa using hmem
      | cons u us =>
          simp only [List.cons_append, List.cons.injEq] at htr
          have hmem := ih (HeldFrom.step fun _ => hheld) hsteady.2 htr.2
          rw [← htr.1, List.filterMap_cons]
          cases hacc : accepted? (jb, op, (step jb op).2) <;> simpa [hacc] using hmem

/-- The first step of a trace meets the state the trace starts in. -/
theorem trace_eq_cons {jb : JitterBuffer} {ops : List Op} {ev : Event} {vs : List Event}
    (h : trace step jb ops = ev :: vs) : ∃ op, ev = (jb, op, (step jb op).2) := by
  cases ops with
  | nil => simp at h
  | cons op ops =>
      rw [trace_cons, List.cons.injEq] at h
      exact ⟨op, h.1.symm⟩

/-- **The distance between two deliveries is the moves between them.** -/
theorem expected_between {jb : JitterBuffer} (hinv : Inv jb) {ops : List Op}
    (hsteady : steady jb ops = true) {us ms vs : List Event} {ev ev' : Event}
    (htr : trace step jb ops = us ++ ev :: (ms ++ ev' :: vs))
    {seq seq' : Seq} {p p' : Payload} (hdel : delivered? ev = some (seq, p))
    (hdel' : delivered? ev' = some (seq', p')) :
    1 ≤ (ev :: ms).countP moves ∧
      seq' = seq + BitVec.ofNat 16 ((ev :: ms).countP moves) := by
  -- cut the run before the first delivery and before the second
  obtain ⟨js, ks, rfl, -, hks⟩ := trace_eq_append step htr
  rw [← List.cons_append] at hks
  obtain ⟨ks₁, ks₂, rfl, hks₁, hks₂⟩ := trace_eq_append step hks
  rw [steady_append, steady_append, Bool.and_eq_true, Bool.and_eq_true] at hsteady
  have hinv' : Inv (after step jb js) := after_invariant (fun _ op hs => hs.step op) hinv js
  obtain ⟨op, hev⟩ := trace_eq_cons hks₁
  obtain ⟨op', hev'⟩ := trace_eq_cons hks₂
  rw [hev] at hdel
  rw [hev'] at hdel'
  obtain ⟨hinit, hmove, hseq, -⟩ := delivered?_eq_some hdel
  obtain ⟨-, -, hseq', -⟩ := delivered?_eq_some hdel'
  constructor
  · rw [List.countP_cons, hev, if_pos hmove]
    omega
  · rw [hseq', hseq, after_expected hinv' hinit hsteady.2.1, hks₁]

/-- Fewer moves than half a turn leave the later number ahead. -/
theorem toInt_sub_pos_of_moves {seq : Seq} {k : ℕ} (hpos : 1 ≤ k) (hlt : k < 32768) :
    0 < (seq + BitVec.ofNat 16 k - seq).toInt := by
  have hd : dist (seq + BitVec.ofNat 16 k) seq = k := dist_add_of_lt seq (by omega)
  have hnonneg : 0 ≤ (seq + BitVec.ofNat 16 k - seq).toInt :=
    toInt_sub_nonneg.2 (by rw [hd]; omega)
  refine lt_of_le_of_ne hnonneg fun h0 => ?_
  have hzero : seq + BitVec.ofNat 16 k - seq = 0#16 := BitVec.eq_of_toInt_eq (by rw [← h0]; rfl)
  rw [SeqNum.dist, hzero] at hd
  simp at hd
  omega

/-- Fewer moves than a whole turn leave the two numbers different. -/
theorem ne_of_moves {seq : Seq} {k : ℕ} (hpos : 1 ≤ k) (hlt : k < 65536) :
    seq + BitVec.ofNat 16 k ≠ seq := by
  intro heq
  have hd : dist (seq + BitVec.ofNat 16 k) seq = k := dist_add_of_lt seq (by omega)
  rw [heq, dist_self] at hd
  omega

/-- The first operation of an epoch delivers nothing. -/
theorem delivered?_eq_none_of_first {jb : JitterBuffer} {op : Op}
    (h : Cleared jb ∨ resets jb op = true) : delivered? (jb, op, (step jb op).2) = none := by
  cases hdel : delivered? (jb, op, (step jb op).2) with
  | none => rfl
  | some d =>
      obtain ⟨hinit, -⟩ := delivered?_eq_some (hdel : _ = some (d.1, d.2))
      rcases h with h | h
      · rw [h.1] at hinit; cases hinit
      · cases op <;> simp [resets] at h <;> simp [delivered?, step] at hdel

/-- **Delivery order.** In a run between two resets, whatever is delivered
was accepted earlier in it under the same number, byte for byte; and of two
deliveries the later is ahead of the earlier by the moves of the cursor
made from the one to the other. So it is ahead by signed distance while
these are fewer than half a turn, and the two numbers differ while they are
fewer than a whole one. -/
theorem delivery_order {jb : JitterBuffer} (hreach : Reachable jb) {ops : List Op}
    (hepoch : Epoch jb ops) :
    (∀ us vs ev seq p, trace step jb ops = us ++ ev :: vs → delivered? ev = some (seq, p) →
      (seq, p) ∈ us.filterMap accepted?) ∧
    (∀ us ms vs ev ev' seq p seq' p',
      trace step jb ops = us ++ ev :: (ms ++ ev' :: vs) →
      delivered? ev = some (seq, p) → delivered? ev' = some (seq', p') →
      1 ≤ (ev :: ms).countP moves ∧
      seq' = seq + BitVec.ofNat 16 ((ev :: ms).countP moves) ∧
      ((ev :: ms).countP moves < 32768 → 0 < (seq' - seq).toInt) ∧
      ((ev :: ms).countP moves < 65536 → seq' ≠ seq)) := by
  cases ops with
  | nil => exact ⟨fun us vs ev _ _ h => by simp at h, fun us ms vs ev ev' _ _ _ _ h => by simp at h⟩
  | cons op ops =>
      obtain ⟨hstart, hsteady⟩ := hepoch
      have hinv : Inv jb := inv_of_reachable hreach
      -- what is delivered comes behind the first operation
      have hlater : ∀ {us vs ev seq p}, trace step jb (op :: ops) = us ++ ev :: vs →
          delivered? ev = some (seq, p) → ∃ us', us = (jb, op, (step jb op).2) :: us' ∧
            trace step (step jb op).1 ops = us' ++ ev :: vs := by
        intro us vs ev seq p htr hdel
        rw [trace_cons] at htr
        cases us with
        | nil =>
            simp only [List.nil_append, List.cons.injEq] at htr
            rw [← htr.1, delivered?_eq_none_of_first hstart] at hdel
            cases hdel
        | cons u us =>
            simp only [List.cons_append, List.cons.injEq] at htr
            exact ⟨us, by rw [htr.1], htr.2⟩
      constructor
      · intro us vs ev seq p htr hdel
        obtain ⟨us, rfl, hrest⟩ := hlater htr hdel
        have hheld : HeldFrom (step jb op).1
            ([] ++ (accepted? (jb, op, (step jb op).2)).toList) := by
          refine HeldFrom.step fun hres i hv => ?_
          rcases hstart with hclear | hreset
          · rw [hclear.2 i] at hv; cases hv
          · rw [hreset] at hres; cases hres
        have hmem := accepted_of_delivered hheld hsteady hrest hdel
        rw [List.filterMap_cons]
        cases hacc : accepted? (jb, op, (step jb op).2) <;> simpa [hacc] using hmem
      · intro us ms vs ev ev' seq p seq' p' htr hdel hdel'
        obtain ⟨us, rfl, hrest⟩ := hlater htr hdel
        obtain ⟨hpos, hseq⟩ := expected_between (hinv.step op) hsteady hrest hdel hdel'
        exact ⟨hpos, hseq, fun hlt => hseq ▸ toInt_sub_pos_of_moves hpos hlt,
          fun hlt => hseq ▸ ne_of_moves hpos hlt⟩

/-- A buffer of four slots that plays from its first frame. -/
def four : JitterBuffer := fresh 1 ⟨4, 2, by decide, by decide⟩

theorem reachable_four : Reachable four :=
  ⟨1, 4, four, [], newJitterBuffer_eq_some.2 ⟨_, rfl, rfl⟩, rfl⟩

theorem cleared_four : Cleared four := ⟨rfl, fun _ => rfl⟩

/-! ## Where order stops

What the runs between `Reset` and SSRC changes do not have. -/

/-- In strictly increasing order by signed distance, no number twice. -/
def InSequence (ds : List (Seq × Payload)) : Prop :=
  ds.IsChain (fun d d' => 0 < (d'.1 - d.1).toInt) ∧ (ds.map Prod.fst).Nodup

/-- A reset the caller asks for or a change of SSRC, the idle one apart. -/
def breaks (jb : JitterBuffer) : Op → Bool
  | .push _ _ _ => jb.ssrcChanged 0
  | .pushWithSSRC ssrc _ _ _ => jb.ssrcChanged ssrc
  | .reset => true
  | _ => false

/-- The frames a run delivers. -/
def deliveries (jb : JitterBuffer) (ops : List Op) : List (Seq × Payload) :=
  (trace step jb ops).filterMap delivered?

theorem deliveries_append (jb : JitterBuffer) (ops₁ ops₂ : List Op) :
    deliveries jb (ops₁ ++ ops₂) = deliveries jb ops₁ ++ deliveries (after step jb ops₁) ops₂ := by
  rw [deliveries, trace_append, List.filterMap_append]; rfl

/-- A frame either side of the wrap: delivered in order, as accepted. -/
theorem delivery_order_wrap :
    deliveries four [.push 65535 [1] 1, .popReady, .push 0 [2] 1, .popOrConceal 200 1] =
        [(65535, [1]), (0, [2])] ∧
      0 < ((0 : Seq) - 65535).toInt ∧
      (0, [2]) ∈ ((trace step four
        [.push 65535 [1] 1, .popReady, .push 0 [2] 1, .popOrConceal 200 1]).take 3).filterMap
          accepted? := by
  obtain ⟨hpay, hord⟩ := @delivery_order four reachable_four
    [.push 65535 [1] 1, .popReady, .push 0 [2] 1, .popOrConceal 200 1]
    ⟨.inl cleared_four, by decide +kernel⟩
  exact ⟨by decide +kernel,
    (hord [_] [_] [] _ _ 65535 [1] 0 [2] rfl (by decide +kernel) (by decide +kernel)).2.2.1
      (by decide +kernel),
    hpay [_, _, _] [] _ 0 [2] rfl (by decide +kernel)⟩

/-- A buffer that ran dry inside the conceal window. -/
structure Dry (jb : JitterBuffer) : Prop where
  init : jb.init = true
  started : jb.started = true
  count : jb.count = 0
  empty : ∀ i, (jb.slots i).valid = false
  lastPush : jb.lastPush = 1
  two_le : 2 ≤ jb.depth.maxDepth

/-- Dry, a playout tick conceals and moves on. -/
theorem Dry.step {jb : JitterBuffer} (h : Dry jb) :
    Jitter.step jb (.popOrConceal 200 1) = (jb.bump, .played none true) := by
  have hmiss : jb.atCursor = false := by simp [atCursor, cursorSlot, h.empty]
  have hhalf : jb.count < ((jb.depth.maxDepth / 2 : ℕ) : ℤ) := by
    have := h.two_le
    rw [h.count]; omega
  have hpop : jb.popReadyLocked = (jb, {}) := by
    have hself : { jb with started := true } = jb := by rw [← h.started]
    have hpops := jb.pops
    generalize jb.popReadyLocked = r at hpops ⊢
    cases hpops with
    | delivers hplay hat => rw [hmiss] at hat; cases hat
    | skips hplay hmiss hle => omega
    | waits hplay hmiss hlow => rw [hself]
    | rests hplay => rfl
  have hconceal : jb.shouldConcealLocked 200 1 = true := by
    simp [shouldConcealLocked, h.started, h.lastPush]
  simp [Jitter.step, popOrConceal, hpop, hconceal, advancePastLocked, hmiss]

theorem Dry.bump {jb : JitterBuffer} (h : Dry jb) : Dry jb.bump :=
  ⟨h.init, h.started, h.count, h.empty, h.lastPush, h.two_le⟩

/-- And so for any number of ticks: the cursor runs on, nothing is
delivered, nothing resets. -/
theorem Dry.replicate {jb : JitterBuffer} (h : Dry jb) (n : ℕ) :
    after Jitter.step jb (List.replicate n (.popOrConceal 200 1)) =
        { jb with expected := jb.expected + BitVec.ofNat 16 n } ∧
      deliveries jb (List.replicate n (.popOrConceal 200 1)) = [] ∧
      steady jb (List.replicate n (.popOrConceal 200 1)) = true := by
  induction n generalizing jb with
  | zero => simp [deliveries, steady, never]
  | succ n ih =>
      obtain ⟨hafter, hdel, hsteady⟩ := ih h.bump
      rw [List.replicate_succ]
      refine ⟨?_, ?_, ?_⟩
      · rw [after_cons, h.step, hafter]
        have hcursor : jb.expected + 1 + BitVec.ofNat 16 n = jb.expected + BitVec.ofNat 16 (n + 1) := by
          rw [BitVec.add_assoc, Nat.add_comm n 1, BitVec.ofNat_add]
          rfl
        simp only [JitterBuffer.bump, hcursor]
      · rw [deliveries] at hdel ⊢
        rw [trace_cons, h.step, List.filterMap_cons, hdel]
        rfl
      · rw [steady_cons, h.step]
        exact ⟨rfl, hsteady⟩

/-- One frame, `n` concealed ticks, and a second frame. -/
def gapRun (n : ℕ) (seq : Seq) : List Op :=
  [.push 0 [1] 1, .popOrConceal 200 1] ++ List.replicate n (.popOrConceal 200 1) ++
    [.push seq [2] 1, .popOrConceal 200 1]

/-- The buffer between the two frames, its cursor `n` ticks on. -/
def between (n : ℕ) : JitterBuffer :=
  { after step four [.push 0 [1] 1, .popOrConceal 200 1] with expected := 1 + BitVec.ofNat 16 n }

theorem gapRun_spec (n : ℕ) (seq : Seq) :
    deliveries four (gapRun n seq) =
        (0, [1]) :: deliveries (between n) [.push seq [2] 1, .popOrConceal 200 1] ∧
      steady four (gapRun n seq) = steady (between n) [.push seq [2] 1, .popOrConceal 200 1] := by
  have hdry : Dry (after step four [.push 0 [1] 1, .popOrConceal 200 1]) :=
    ⟨by decide +kernel, by decide +kernel, by decide +kernel, by decide +kernel,
      by decide +kernel, by decide +kernel⟩
  have hcursor : (after step four [.push 0 [1] 1, .popOrConceal 200 1]).expected = 1 := by
    decide +kernel
  have hone : deliveries four [.push 0 [1] 1, .popOrConceal 200 1] = [(0, [1])] := by
    decide +kernel
  have hfirst : steady four [.push 0 [1] 1, .popOrConceal 200 1] = true := by decide +kernel
  obtain ⟨hafter, hdel, hsteady⟩ := hdry.replicate n
  have hbetween : after step four
      ([.push 0 [1] 1, .popOrConceal 200 1] ++ List.replicate n (.popOrConceal 200 1)) =
        between n := by
    rw [after_append, hafter, hcursor, between]
  constructor
  · rw [gapRun, deliveries_append, deliveries_append, hbetween, hone, hdel]
    rfl
  · rw [gapRun, steady_append, steady_append, hbetween, hfirst, hsteady]
    rfl

/-- **Order does not survive** the idle reset, half a turn of the cursor, or
a whole one, though none of the three runs has a `Reset` or a change of
SSRC. -/
theorem delivery_order_fails :
    (never step breaks four
        [.push 10 [1] 1, .popReady, .push 5 [2] 3000000002, .popReady] = true ∧
      deliveries four [.push 10 [1] 1, .popReady, .push 5 [2] 3000000002, .popReady] =
        [(10, [1]), (5, [2])] ∧
      ¬ InSequence [(10, [1]), (5, [2])]) ∧
    (steady four (gapRun 32767 32768) = true ∧
      deliveries four (gapRun 32767 32768) = [(0, [1]), (32768, [2])] ∧
      ¬ InSequence [(0, [1]), (32768, [2])]) ∧
    (steady four (gapRun 65535 0) = true ∧
      deliveries four (gapRun 65535 0) = [(0, [1]), (0, [2])] ∧
      ¬ InSequence [(0, [1]), (0, [2])]) := by
  refine ⟨⟨by decide +kernel, by decide +kernel, ?_⟩, ⟨?_, ?_, ?_⟩, ⟨?_, ?_, ?_⟩⟩
  · exact fun h => absurd (List.isChain_pair.1 h.1) (by decide)
  · rw [(gapRun_spec _ _).2]; decide +kernel
  · rw [(gapRun_spec _ _).1]; decide +kernel
  · exact fun h => absurd (List.isChain_pair.1 h.1) (by decide)
  · rw [(gapRun_spec _ _).2]; decide +kernel
  · rw [(gapRun_spec _ _).1]; decide +kernel
  · exact fun h => absurd h.2 (by decide)

end Jitter

end OpenManet
