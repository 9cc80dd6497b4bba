import OpenManet.Comms.Jitter.Invariant
/-!
# Recovery after an outage

A sender comes back: one frame is pushed and one `PopOrConceal` made per
step, the frames numbered consecutively from somewhere ahead of the cursor.
While playout runs and every pop falls inside the conceal window, each pop
moves the cursor by exactly one, whether it delivers, skips or conceals. So
sender and cursor move together and the distance between them never
changes.

That distance decides everything. Below the depth of the ring a frame waits
in its slot until the cursor gets there. From the depth on, the frame one
turn later is written over it first, and so on for every frame: nothing is
delivered, however long the sender talks. The half-full skip rule does not
help, for it moves the cursor by one in a step that would have moved it by
one anyway.

What can still rescue the stream is the idle safety net. A rejected
duplicate does not refresh `lastPush`, so the net can fire with less than
two seconds between pushes, and it puts the cursor on the frame being
pushed.
-/

namespace OpenManet

namespace Jitter

open SeqNum JitterBuffer

/-- The frames of a sender that has come back, and the clock readings of the
steps that push and pop them. A frame is one Opus frame, which RFC 6716
caps. -/
structure Continuation where
  ssrc : BitVec 32
  first : Seq
  payload : ℕ → Payload
  payload_le : ∀ i, (payload i).length ≤ maxOpusPayloadSize
  /-- The buffer's clock at push `i`. -/
  pushAt : ℕ → Instant
  /-- The wall clock at pop `i`. -/
  popAt : ℕ → Instant
  recentWindow : ℤ

namespace Continuation

variable (c : Continuation) (jb : JitterBuffer)

/-- The number of frame `i`. -/
def seq (i : ℕ) : Seq := c.first + BitVec.ofNat 16 i

/-- Step `i` pushes its frame. -/
def push (i : ℕ) : JitterBuffer × Bool :=
  jb.pushWithSSRC c.ssrc (c.seq i) (c.payload i) (c.pushAt i)

/-- Step `i`: a push, and the pop that follows it. -/
def tick (i : ℕ) : JitterBuffer × Option Payload × Bool :=
  (c.push jb i).1.popOrConceal c.recentWindow (c.popAt i)

/-- The buffer as step `i` finds it. -/
def before : ℕ → JitterBuffer
  | 0 => jb
  | i + 1 => (c.tick (before i) i).1

/-- The buffer as the pop of step `i` finds it. -/
def afterPush (i : ℕ) : JitterBuffer := (c.push (c.before jb i) i).1

/-- The operations of the first `n` steps. -/
def ops (n : ℕ) : List Op :=
  (List.range n).flatMap fun i =>
    [.pushWithSSRC c.ssrc (c.seq i) (c.payload i) (c.pushAt i),
      .popOrConceal c.recentWindow (c.popAt i)]

/-- What the outage leaves and the sender keeps to: the frames are of the
current SSRC, the first is at or ahead of the cursor, less than two seconds
pass between pushes, and for two turns of the ring every pop falls inside
the conceal window. -/
structure Live : Prop where
  ssrc_eq : c.ssrc = jb.ssrc
  ahead : 0 ≤ (c.first - jb.expected).toInt
  paced : ∀ i, c.pushAt (i + 1) - c.pushAt i < jitterIdleResetThreshold
  stamped : ∀ i < 2 * jb.depth.maxDepth, (c.afterPush jb i).lastPush ≠ 0
  inWindow : ∀ i < 2 * jb.depth.maxDepth,
    c.popAt i - (c.afterPush jb i).lastPush ≤ c.recentWindow

/-- One of the pushed frames is delivered in the first `n` steps: push `i`
accepted it, and pop `j`, its cursor on the frame's number, returned its
payload. -/
def DeliveredWithin (n : ℕ) : Prop :=
  ∃ i j, i ≤ j ∧ j < n ∧ (c.push (c.before jb i) i).2 = true ∧
    (c.afterPush jb j).expected = c.seq i ∧
    (c.tick (c.before jb j) j).2.1 = some (c.payload i)

/-- The idle safety net fires at one of the first `n` pushes. -/
def IdleWithin (n : ℕ) : Prop := ∃ i < n, (c.before jb i).idleExpired (c.pushAt i) = true

end Continuation

/-! ## One push -/

namespace JitterBuffer

variable {jb : JitterBuffer}

/-- A free slot is a free place. -/
theorem Inv.count_lt_of_invalid (h : Inv jb) {seq : Seq}
    (hfree : (jb.slots (jb.depth.slotIdx seq)).valid = false) :
    jb.count < jb.depth.maxDepth := by
  have hcard := card_valid_update jb.slots (jb.depth.slotIdx seq) ⟨some [], seq, true⟩ rfl
  rw [hfree] at hcard
  -- the buffer with that slot filled would satisfy the same bound
  have hsub : (Finset.univ.filter fun j =>
      (Function.update jb.slots (jb.depth.slotIdx seq) ⟨some [], seq, true⟩ j).valid = true).image
        Fin.val ⊆ Finset.range jb.depth.maxDepth := by
    intro n hn
    simp only [Finset.mem_image, Finset.mem_filter, Finset.mem_univ, true_and] at hn
    obtain ⟨i, hv, rfl⟩ := hn
    rw [Finset.mem_range]
    by_cases hi : i = jb.depth.slotIdx seq
    · rw [hi]; exact jb.depth.slotIdx_lt _
    · rw [Function.update_of_ne hi] at hv
      rw [← h.slot_eq i hv]
      exact jb.depth.slotIdx_lt _
  have hle := Finset.card_le_card hsub
  rw [Finset.card_image_of_injective _ Fin.val_injective, Finset.card_range] at hle
  have hcount := h.count_eq
  simp only [validCount] at hcount
  simp only [Bool.false_eq_true, if_false, Nat.add_zero] at hcard
  omega

/-- The frame is buffered already. -/
def holds (jb : JitterBuffer) (seq : Seq) : Bool :=
  (jb.slots (jb.depth.slotIdx seq)).valid && (jb.slots (jb.depth.slotIdx seq)).seq == seq

theorem holds_iff {seq : Seq} : jb.holds seq = true ↔
    (jb.slots (jb.depth.slotIdx seq)).valid = true ∧
      (jb.slots (jb.depth.slotIdx seq)).seq = seq := by
  simp [holds]

/-- **A frame at or ahead of the cursor is refused only as a duplicate.** -/
theorem store_of_ahead (h : Inv jb) {seq : Seq} {payload : Payload} {now : Instant}
    (hahead : seqLess seq jb.expected = false) :
    jb.store seq payload now =
      if jb.holds seq then (jb, false) else
        ({ jb with
            slots := Function.update jb.slots (jb.depth.slotIdx seq) ⟨some payload, seq, true⟩
            count := jb.count + 1 - (if (jb.slots (jb.depth.slotIdx seq)).valid then 1 else 0)
            lastPush := now }, true) := by
  by_cases hdup : jb.holds seq = true
  · rw [if_pos hdup]
    obtain ⟨hv, hs⟩ := holds_iff.1 hdup
    simp [store, hahead, hv, hs]
  · rw [if_neg hdup]
    by_cases hv : (jb.slots (jb.depth.slotIdx seq)).valid = true
    · have hne : (jb.slots (jb.depth.slotIdx seq)).seq ≠ seq := fun he => hdup (holds_iff.2 ⟨hv, he⟩)
      simp [store, hahead, hv, hne]
    · have hfree : (jb.slots (jb.depth.slotIdx seq)).valid = false := by simpa using hv
      simp [store, hahead, hfree, Int.not_le.2 (h.count_lt_of_invalid hfree)]

/-- What a push of the current stream leaves alone. -/
structure SameStream (jb jb' : JitterBuffer) : Prop where
  expected : jb'.expected = jb.expected
  init : jb'.init = jb.init
  started : jb'.started = jb.started
  ssrc : jb'.ssrc = jb.ssrc
  prebuffer : jb'.prebuffer = jb.prebuffer
  depth : jb'.depth = jb.depth

theorem noteSSRC_sameStream {ssrc : BitVec 32} {r : JitterBuffer × Bool} (hssrc : r.1.ssrc = ssrc) :
    SameStream r.1 (noteSSRC ssrc r).1 := by
  unfold noteSSRC
  dsimp only
  split <;> split <;> constructor <;> simp [hssrc]

/-- **A push into a running stream**: the frame is stored unless it is
there. -/
theorem push_running (h : Inv jb) (hinit : jb.init = true) {seq : Seq} {payload : Payload}
    {now : Instant} (hlen : payload.length ≤ maxOpusPayloadSize)
    (hidle : jb.idleExpired now = false) (hahead : seqLess seq jb.expected = false) :
    SameStream jb (jb.pushWithSSRC jb.ssrc seq payload now).1 ∧
    ((jb.holds seq = true ∧ (jb.pushWithSSRC jb.ssrc seq payload now).2 = false ∧
        (jb.pushWithSSRC jb.ssrc seq payload now).1.slots = jb.slots ∧
        (jb.pushWithSSRC jb.ssrc seq payload now).1.lastPush = jb.lastPush ∧
        (jb.pushWithSSRC jb.ssrc seq payload now).1.count = jb.count) ∨
      (jb.holds seq = false ∧ (jb.pushWithSSRC jb.ssrc seq payload now).2 = true ∧
        (jb.pushWithSSRC jb.ssrc seq payload now).1.slots =
          Function.update jb.slots (jb.depth.slotIdx seq) ⟨some payload, seq, true⟩ ∧
        (jb.pushWithSSRC jb.ssrc seq payload now).1.lastPush = now ∧
        (jb.pushWithSSRC jb.ssrc seq payload now).1.count =
          jb.count + 1 - (if (jb.slots (jb.depth.slotIdx seq)).valid then 1 else 0))) := by
  have hreset : jb.ssrcReset jb.ssrc = jb := by simp [ssrcReset, ssrcChanged]
  have hself : (jb.idleReset now).anchorAt seq = jb := by simp [idleReset, hidle, anchorAt, hinit]
  have hpush : jb.pushLocked seq payload now = jb.store seq payload now := by
    rw [pushLocked, if_neg (by omega), hself]
  simp only [pushWithSSRC, hreset, hpush, store_of_ahead h hahead, noteSSRC_slots, noteSSRC_snd,
    noteSSRC_lastPush, noteSSRC_count]
  by_cases hdup : jb.holds seq = true
  · rw [if_pos hdup]
    exact ⟨@noteSSRC_sameStream jb.ssrc (jb, false) rfl, .inl ⟨hdup, rfl, rfl, rfl, rfl⟩⟩
  · rw [if_neg hdup]
    have hsame := @noteSSRC_sameStream jb.ssrc ({ jb with
      slots := Function.update jb.slots (jb.depth.slotIdx seq) ⟨some payload, seq, true⟩
      count := jb.count + 1 - (if (jb.slots (jb.depth.slotIdx seq)).valid then 1 else 0)
      lastPush := now }, true) rfl
    exact ⟨⟨hsame.expected, hsame.init, hsame.started, hsame.ssrc, hsame.prebuffer, hsame.depth⟩,
      .inr ⟨by simpa using hdup, rfl, rfl, rfl, rfl⟩⟩

/-- The buffer after the push at which the idle net fires: a ring with that
one frame. -/
def restartedAt (jb : JitterBuffer) (seq : Seq) (payload : Payload) (now : Instant) :
    JitterBuffer :=
  { jb with
    slots := Function.update (fun _ => {}) (jb.depth.slotIdx seq) ⟨some payload, seq, true⟩
    count := 1
    expected := seq
    init := true
    started := false
    inGap := false
    lastPush := now
    idleResets := jb.idleResets + 1 }

theorem pushLocked_of_idle {seq : Seq} {payload : Payload} {now : Instant}
    (hlen : payload.length ≤ maxOpusPayloadSize) (hidle : jb.idleExpired now = true) :
    jb.pushLocked seq payload now = (jb.restartedAt seq payload now, true) := by
  have hroom : jb.depth.maxDepth ≠ 0 := by have := jb.depth.pos; omega
  simp [pushLocked, Nat.not_lt.2 hlen, idleReset, hidle, anchorAt, resetLocked, store,
    seqLess_self, hroom, restartedAt]

/-! ## One pop -/

/-- What a pop of a running stream does besides its slot: the cursor moves
by one. -/
structure Advanced (jb jb' : JitterBuffer) : Prop where
  expected : jb'.expected = jb.expected + 1
  started : jb'.started = jb.started
  ssrc : jb'.ssrc = jb.ssrc
  prebuffer : jb'.prebuffer = jb.prebuffer
  depth : jb'.depth = jb.depth
  lastPush : jb'.lastPush = jb.lastPush

/-- **A pop inside the conceal window moves the cursor by one**, and returns
the frame it moved past if that was there. Skip or concealment, a missing
frame leaves the slots alone. -/
theorem pop_running (hinv : Inv jb) (hstarted : jb.started = true) {w : ℤ} {now : Instant}
    (hstamp : jb.lastPush ≠ 0) (hwin : now - jb.lastPush ≤ w) :
    Advanced jb (jb.popOrConceal w now).1 ∧
    ((jb.atCursor = true ∧ (jb.popOrConceal w now).2.1 = jb.cursorSlot.payload ∧
        (jb.popOrConceal w now).1.slots = jb.clearCursor.slots) ∨
      (jb.atCursor = false ∧ (jb.popOrConceal w now).2.1 = none ∧
        (jb.popOrConceal w now).1.slots = jb.slots)) := by
  have hself : { jb with started := true } = jb := by rw [← hstarted]
  have hpops := jb.pops
  have hconceal : jb.shouldConcealLocked w now = true := by
    simp [shouldConcealLocked, hstarted, hstamp, hwin]
  unfold popOrConceal
  generalize jb.popReadyLocked = r at hpops ⊢
  cases hpops with
  | delivers hplay hat =>
      rw [hself]
      exact ⟨⟨rfl, rfl, rfl, rfl, rfl, rfl⟩, .inl ⟨hat, rfl, rfl⟩⟩
  | skips hplay hmiss hhalf =>
      rw [hself]
      exact ⟨⟨rfl, rfl, rfl, rfl, rfl, rfl⟩, .inr ⟨hmiss, rfl, rfl⟩⟩
  | waits hplay hmiss hlow =>
      rw [hself]
      simp only [Bool.false_eq_true, if_false, hconceal, if_true, advancePastLocked, hmiss]
      exact ⟨⟨rfl, rfl, rfl, rfl, rfl, rfl⟩, .inr ⟨trivial, trivial, rfl⟩⟩
  | rests hplay =>
      rw [canPlay, hinv.init_of_started hstarted, hstarted] at hplay
      cases hplay

/-- A pop touches no slot but the cursor's. -/
theorem pop_running_slots (hinv : Inv jb) (hstarted : jb.started = true) {w : ℤ} {now : Instant}
    (hstamp : jb.lastPush ≠ 0) (hwin : now - jb.lastPush ≤ w) {i : Fin maxDepthLimit}
    (hi : i ≠ jb.depth.slotIdx jb.expected) :
    (jb.popOrConceal w now).1.slots i = jb.slots i := by
  obtain ⟨-, ⟨-, -, h⟩ | ⟨-, -, h⟩⟩ := pop_running hinv hstarted hstamp hwin
  · rw [h]; exact Function.update_of_ne hi _ _
  · rw [h]

/-- What is valid after a pop was there before it. -/
theorem pop_running_valid (hinv : Inv jb) (hstarted : jb.started = true) {w : ℤ} {now : Instant}
    (hstamp : jb.lastPush ≠ 0) (hwin : now - jb.lastPush ≤ w) {i : Fin maxDepthLimit}
    (hv : ((jb.popOrConceal w now).1.slots i).valid = true) :
    (jb.popOrConceal w now).1.slots i = jb.slots i := by
  obtain ⟨-, ⟨-, -, h⟩ | ⟨-, -, h⟩⟩ := pop_running hinv hstarted hstamp hwin
  · rw [h] at hv ⊢; exact (valid_clearCursor hv).2
  · rw [h]

end JitterBuffer

/-! ## The steps, while the idle net stays quiet -/

namespace Continuation

variable {c : Continuation} {jb : JitterBuffer}

/-- The frames lie on the cursor's path, the outage ahead of it. -/
theorem seq_eq (c : Continuation) (jb : JitterBuffer) (i : ℕ) :
    c.seq i = jb.expected + BitVec.ofNat 16 (dist c.first jb.expected + i) := by
  rw [BitVec.ofNat_add, ← BitVec.add_assoc, add_dist]
  rfl

/-- Two numbers on the path share a slot a whole number of turns apart. -/
theorem slotIdx_path (d : Depth) (x : Seq) {m n : ℕ} :
    d.slotIdx (x + BitVec.ofNat 16 m) = d.slotIdx (x + BitVec.ofNat 16 n) ↔
      m ≡ n [MOD d.maxDepth] := by
  rw [Depth.slotIdx_eq_iff, slot_add d.dvd_circle, slot_add d.dvd_circle]
  exact ⟨fun h => Nat.ModEq.add_left_cancel' _ h, fun h => Nat.ModEq.add_left _ h⟩

/-- Two numbers within a turn of each other do not. -/
theorem slotIdx_path_ne (d : Depth) (x : Seq) {m n : ℕ} (hlt : m < n) (hturn : n < m + d.maxDepth) :
    d.slotIdx (x + BitVec.ofNat 16 m) ≠ d.slotIdx (x + BitVec.ofNat 16 n) := by
  intro h
  have hdvd := (Nat.modEq_iff_dvd' hlt.le).1 ((slotIdx_path d x).1 h)
  exact absurd (Nat.le_of_dvd (by omega) hdvd) (by omega)

/-- Short of the whole circle the path does not meet itself. -/
theorem path_inj (x : Seq) {m n : ℕ} (hm : m < 65536) (hn : n < 65536)
    (h : x + BitVec.ofNat 16 m = x + BitVec.ofNat 16 n) : m = n := by
  have hd := congrArg (fun a => dist a x) h
  simpa only [dist_add_of_lt x (show m < 2 ^ 16 by omega),
    dist_add_of_lt x (show n < 2 ^ 16 by omega)] using hd

variable (c jb) in
/-- A buffer `n` steps on along the path, with `m` frames pushed: the slot
of a frame of the last turn holds that frame or nothing. -/
structure Steady (n m : ℕ) (s : JitterBuffer) : Prop where
  inv : Inv s
  started : s.started = true
  ssrc : c.ssrc = s.ssrc
  prebuffer : s.prebuffer = jb.prebuffer
  depth : s.depth = jb.depth
  expected : s.expected = jb.expected + BitVec.ofNat 16 n
  recent : ∀ j < m, m ≤ j + jb.depth.maxDepth →
    (s.slots (jb.depth.slotIdx (c.seq j))).valid = true →
    (s.slots (jb.depth.slotIdx (c.seq j))).seq = c.seq j

namespace Steady

variable {s : JitterBuffer} {i : ℕ}

/-- The distance to the sender is the one the outage left. -/
theorem ahead (hlive : c.Live jb) (h : Steady c jb i i s) :
    seqLess (c.seq i) s.expected = false := by
  rw [seqLess_eq_false_iff_dist, h.expected, seq, dist_add_add]
  exact seqLess_eq_false_iff_dist.1 (seqLess_eq_false.2 hlive.ahead)

/-- From one turn on, no frame is a duplicate. -/
theorem not_holds (h : Steady c jb i i s) (hturn : jb.depth.maxDepth ≤ i) (hi : i < 65536) :
    s.holds (c.seq i) = false := by
  by_contra hdup
  simp only [Bool.not_eq_false] at hdup
  obtain ⟨hv, hs⟩ := holds_iff.1 hdup
  rw [h.depth] at hv hs
  have hpos := jb.depth.pos
  have hslot : jb.depth.slotIdx (c.seq i) = jb.depth.slotIdx (c.seq (i - jb.depth.maxDepth)) := by
    refine (slotIdx_path jb.depth c.first).2 ?_
    exact ((Nat.modEq_iff_dvd' (by omega)).2 (by rw [Nat.sub_sub_self hturn])).symm
  rw [hslot] at hv hs
  have heq := h.recent (i - jb.depth.maxDepth) (by omega) (by omega) hv
  rw [hs] at heq
  have := path_inj c.first hi (by omega) heq
  omega

/-- **The push of a step.** -/
theorem push (hlive : c.Live jb) (h : Steady c jb i i s)
    (hquiet : s.idleExpired (c.pushAt i) = false) :
    Steady c jb i (i + 1) (c.push s i).1 ∧
    (∀ l, l ≠ jb.depth.slotIdx (c.seq i) → (c.push s i).1.slots l = s.slots l) ∧
    (s.holds (c.seq i) = false → (c.push s i).2 = true ∧
      (c.push s i).1.slots (jb.depth.slotIdx (c.seq i)) =
        ⟨some (c.payload i), c.seq i, true⟩ ∧
      (c.push s i).1.lastPush = c.pushAt i) := by
  obtain ⟨hsame, hcase⟩ := push_running h.inv (h.inv.init_of_started h.started) (c.payload_le i)
    hquiet (h.ahead hlive)
  have hinv : Inv (c.push s i).1 := h.inv.pushWithSSRC c.ssrc (c.seq i) (c.payload i) (c.pushAt i)
  unfold Continuation.push at hinv ⊢
  rw [h.ssrc] at hinv ⊢
  -- the pushed frame's slot holds it, stored now or there already
  have hslot : ((s.pushWithSSRC s.ssrc (c.seq i) (c.payload i) (c.pushAt i)).1.slots
      (jb.depth.slotIdx (c.seq i))).seq = c.seq i := by
    obtain ⟨hdup, -, heq, -⟩ | ⟨-, -, heq, -⟩ := hcase
    · rw [heq, ← h.depth]; exact (holds_iff.1 hdup).2
    · rw [heq, h.depth, Function.update_self]
  have hother : ∀ l, l ≠ jb.depth.slotIdx (c.seq i) →
      (s.pushWithSSRC s.ssrc (c.seq i) (c.payload i) (c.pushAt i)).1.slots l = s.slots l := by
    intro l hl
    obtain ⟨-, -, heq, -⟩ | ⟨-, -, heq, -⟩ := hcase
    · rw [heq]
    · rw [heq, h.depth, Function.update_of_ne hl]
  refine ⟨⟨hinv, hsame.started.trans h.started, h.ssrc.trans hsame.ssrc.symm,
    hsame.prebuffer.trans h.prebuffer, hsame.depth.trans h.depth,
    hsame.expected.trans h.expected, ?_⟩, hother, ?_⟩
  · intro j hj hturn hv
    by_cases hji : j = i
    · rw [hji]; exact hslot
    · have hne : jb.depth.slotIdx (c.seq j) ≠ jb.depth.slotIdx (c.seq i) :=
        slotIdx_path_ne jb.depth c.first (by omega) (by omega)
      rw [hother _ hne] at hv ⊢
      exact h.recent j (by omega) (by omega) hv
  · intro hnew
    obtain ⟨hdup, -⟩ | ⟨-, hok, heq, hstamp, -⟩ := hcase
    · rw [hdup] at hnew; cases hnew
    · exact ⟨hok, by rw [heq, h.depth, Function.update_self], hstamp⟩

/-- **The pop of a step.** -/
theorem pop (h : Steady c jb i (i + 1) s) {now : Instant} (hstamp : s.lastPush ≠ 0)
    (hwin : now - s.lastPush ≤ c.recentWindow) :
    Steady c jb (i + 1) (i + 1) (s.popOrConceal c.recentWindow now).1 := by
  obtain ⟨hadv, -⟩ := pop_running h.inv h.started hstamp hwin
  refine ⟨h.inv.popOrConceal _ _, hadv.started.trans h.started, h.ssrc.trans hadv.ssrc.symm,
    hadv.prebuffer.trans h.prebuffer, hadv.depth.trans h.depth, ?_, ?_⟩
  · rw [hadv.expected, h.expected, BitVec.ofNat_add, ← BitVec.add_assoc]
    rfl
  · intro j hj hturn hv
    have heq := pop_running_valid h.inv h.started hstamp hwin hv
    rw [heq] at hv ⊢
    exact h.recent j hj hturn hv

end Steady

/-- **The steps, by induction.** As long as the idle net has not fired the
buffer runs along the path. -/
theorem steady_before (hlive : c.Live jb) (hinv : Inv jb) (hstarted : jb.started = true) {n : ℕ}
    (hn : n ≤ 2 * jb.depth.maxDepth)
    (hquiet : ∀ i < n, (c.before jb i).idleExpired (c.pushAt i) = false) :
    Steady c jb n n (c.before jb n) := by
  induction n with
  | zero =>
      exact ⟨hinv, hstarted, hlive.ssrc_eq, rfl, rfl, by simp [before],
        fun j hj => absurd hj (by omega)⟩
  | succ n ih =>
      have hprev := ih (by omega) fun i hi => hquiet i (by omega)
      obtain ⟨hpush, -, -⟩ := hprev.push hlive (hquiet n (by omega))
      exact hpush.pop (hlive.stamped n (by omega)) (hlive.inWindow n (by omega))

/-! ## A frame that waits is reached -/

/-- Frame `maxDepth` stays in its slot until the cursor is there. -/
theorem waiting (hlive : c.Live jb) (hinv : Inv jb) (hstarted : jb.started = true)
    (hquiet : ∀ i < 2 * jb.depth.maxDepth, (c.before jb i).idleExpired (c.pushAt i) = false)
    (hnear : dist c.first jb.expected < jb.depth.maxDepth) {t : ℕ}
    (ht : t ≤ dist c.first jb.expected) :
    Steady c jb (jb.depth.maxDepth + t) (jb.depth.maxDepth + t + 1)
      (c.afterPush jb (jb.depth.maxDepth + t)) ∧
    (c.afterPush jb (jb.depth.maxDepth + t)).slots
        (jb.depth.slotIdx (c.seq jb.depth.maxDepth)) =
      ⟨some (c.payload jb.depth.maxDepth), c.seq jb.depth.maxDepth, true⟩ := by
  have hlim := jb.depth.le_limit
  have hpos := jb.depth.pos
  simp only [maxDepthLimit] at hlim
  have hsteady : ∀ i < 2 * jb.depth.maxDepth, Steady c jb i i (c.before jb i) := fun i hi =>
    steady_before hlive hinv hstarted (by omega) fun j hj => hquiet j (by omega)
  induction t with
  | zero =>
      have h := hsteady jb.depth.maxDepth (by omega)
      obtain ⟨hpush, -, hstored⟩ := h.push hlive (hquiet _ (by omega))
      exact ⟨hpush, (hstored (h.not_holds le_rfl (by omega))).2.1⟩
  | succ t ih =>
      obtain ⟨hafter, hslot⟩ := ih (by omega)
      obtain ⟨hpush, hother, -⟩ :=
        (hsteady (jb.depth.maxDepth + (t + 1)) (by omega)).push hlive (hquiet _ (by omega))
      refine ⟨hpush, ?_⟩
      -- this step's frame has another slot, and so had the last step's cursor
      have hne : jb.depth.slotIdx (c.seq jb.depth.maxDepth) ≠
          jb.depth.slotIdx (c.seq (jb.depth.maxDepth + (t + 1))) :=
        slotIdx_path_ne jb.depth c.first (by omega) (by omega)
      have hcursor : jb.depth.slotIdx (c.seq jb.depth.maxDepth) ≠
          (c.afterPush jb (jb.depth.maxDepth + t)).depth.slotIdx
            (c.afterPush jb (jb.depth.maxDepth + t)).expected := by
        rw [hafter.depth, hafter.expected, c.seq_eq jb]
        exact (slotIdx_path_ne jb.depth jb.expected (by omega) (by omega)).symm
      calc (c.afterPush jb (jb.depth.maxDepth + (t + 1))).slots _
          = (c.before jb (jb.depth.maxDepth + (t + 1))).slots _ := hother _ hne
        _ = (c.afterPush jb (jb.depth.maxDepth + t)).slots _ :=
            pop_running_slots hafter.inv hafter.started (hlive.stamped _ (by omega))
              (hlive.inWindow _ (by omega)) hcursor
        _ = _ := hslot

/-- **Short of the depth, the stream recovers.** -/
theorem deliveredWithin_of_near (hlive : c.Live jb) (hinv : Inv jb) (hstarted : jb.started = true)
    (hquiet : ∀ i < 2 * jb.depth.maxDepth, (c.before jb i).idleExpired (c.pushAt i) = false)
    (hnear : dist c.first jb.expected < jb.depth.maxDepth) :
    c.DeliveredWithin jb (2 * jb.depth.maxDepth) := by
  have hlim := jb.depth.le_limit
  simp only [maxDepthLimit] at hlim
  have hM : Steady c jb jb.depth.maxDepth jb.depth.maxDepth (c.before jb jb.depth.maxDepth) :=
    steady_before hlive hinv hstarted (by omega) fun j hj => hquiet j (by omega)
  obtain ⟨-, -, hstored⟩ := hM.push hlive (hquiet _ (by omega))
  obtain ⟨hafter, hslot⟩ := waiting hlive hinv hstarted hquiet hnear le_rfl
  have hcursor : (c.afterPush jb (jb.depth.maxDepth + dist c.first jb.expected)).expected =
      c.seq jb.depth.maxDepth := by
    rw [hafter.expected, c.seq_eq jb, Nat.add_comm]
  have hcell : (c.afterPush jb (jb.depth.maxDepth + dist c.first jb.expected)).cursorSlot =
      ⟨some (c.payload jb.depth.maxDepth), c.seq jb.depth.maxDepth, true⟩ := by
    rw [cursorSlot, hcursor, hafter.depth, hslot]
  refine ⟨jb.depth.maxDepth, jb.depth.maxDepth + dist c.first jb.expected, by omega, by omega,
    (hstored (hM.not_holds le_rfl (by omega))).1, hcursor, ?_⟩
  obtain ⟨-, ⟨-, hpay, -⟩ | ⟨hmiss, -, -⟩⟩ :=
    pop_running hafter.inv hafter.started (hlive.stamped _ (by omega)) (hlive.inWindow _ (by omega))
  · refine hpay.trans ?_
    rw [hcell]
  · exfalso
    rw [Bool.eq_false_iff] at hmiss
    exact hmiss (atCursor_iff.2 ⟨by rw [hcell], by rw [hcell, hcursor]⟩)

/-! ## A frame a turn behind is overwritten -/

/-- **From the depth on, nothing is delivered.** Where the cursor arrives,
the slot holds a frame of the last turn, and the cursor's is older. -/
theorem not_deliveredWithin_of_far (hlive : c.Live jb) (hinv : Inv jb)
    (hstarted : jb.started = true)
    (hquiet : ∀ i < 2 * jb.depth.maxDepth, (c.before jb i).idleExpired (c.pushAt i) = false)
    (hfar : jb.depth.maxDepth ≤ dist c.first jb.expected) :
    ¬ c.DeliveredWithin jb (2 * jb.depth.maxDepth) := by
  rintro ⟨i, j, hij, hj, -, hcursor, hout⟩
  have hlim := jb.depth.le_limit
  have hpos := jb.depth.pos
  simp only [maxDepthLimit] at hlim
  have hhalf := seqLess_eq_false_iff_dist.1 (seqLess_eq_false.2 hlive.ahead)
  obtain ⟨hafter, -, -⟩ := (steady_before hlive hinv hstarted (by omega) fun k hk =>
    hquiet k (by omega) : Steady c jb j j _).push hlive (hquiet j hj)
  have hafter' : Steady c jb j (j + 1) (c.afterPush jb j) := hafter
  -- the frame is as old as the outage is long
  have hage : j = dist c.first jb.expected + i := by
    rw [hafter'.expected, c.seq_eq jb] at hcursor
    exact path_inj jb.expected (by omega) (by omega) hcursor
  -- the last frame pushed into its slot
  obtain ⟨t, hturn, hlast, hmod⟩ : ∃ t, t ≤ j ∧ j < t + jb.depth.maxDepth ∧
      i ≡ t [MOD jb.depth.maxDepth] := by
    have hlt := Nat.mod_lt (j - i) hpos
    have hle := Nat.mod_le (j - i) jb.depth.maxDepth
    refine ⟨j - (j - i) % jb.depth.maxDepth, by omega, by omega, ?_⟩
    refine (Nat.modEq_iff_dvd' (by omega)).2 ?_
    have hsub : j - (j - i) % jb.depth.maxDepth - i = j - i - (j - i) % jb.depth.maxDepth := by omega
    rw [hsub]
    exact Nat.dvd_sub_mod _
  have hslot : jb.depth.slotIdx (c.seq i) = jb.depth.slotIdx (c.seq t) :=
    (slotIdx_path jb.depth c.first).2 hmod
  obtain ⟨-, ⟨hat, -, -⟩ | ⟨-, hnone, -⟩⟩ :=
    pop_running hafter'.inv hafter'.started (hlive.stamped j hj) (hlive.inWindow j hj)
  · obtain ⟨hv, hs⟩ := atCursor_iff.1 hat
    rw [cursorSlot, hcursor, hafter'.depth, hslot] at hv hs
    have heq := hafter'.recent t (by omega) (by omega) hv
    rw [hs] at heq
    have := path_inj c.first (by omega) (by omega) heq
    omega
  · have hout' : ((c.afterPush jb j).popOrConceal c.recentWindow (c.popAt j)).2.1 =
        some (c.payload i) := hout
    rw [hnone] at hout'
    cases hout'

/-! ## The idle net starts the stream again -/

variable (c jb) in
/-- The buffer `m` pushes after the idle net put its cursor on frame `k`:
filling, with that frame in front. -/
structure Refilling (k m : ℕ) (s : JitterBuffer) : Prop where
  inv : Inv s
  init : s.init = true
  started : s.started = false
  ssrc : c.ssrc = s.ssrc
  prebuffer : s.prebuffer = jb.prebuffer
  depth : s.depth = jb.depth
  expected : s.expected = c.seq k
  lastPush : s.lastPush = c.pushAt (k + m)
  count : s.count = m + 1
  front : s.slots (jb.depth.slotIdx (c.seq k)) = ⟨some (c.payload k), c.seq k, true⟩
  only : ∀ l, (s.slots l).valid = true → ∃ t ≤ m, (s.slots l).seq = c.seq (k + t)

/-- The push at which the net fires. -/
theorem Steady.refill {k : ℕ} {s : JitterBuffer} (h : Steady c jb k k s)
    (hidle : s.idleExpired (c.pushAt k) = true) :
    (c.push s k).2 = true ∧ Refilling c jb k 0 (c.push s k).1 := by
  have hinv : Inv (c.push s k).1 := h.inv.pushWithSSRC c.ssrc (c.seq k) (c.payload k) (c.pushAt k)
  have hreset : s.ssrcReset s.ssrc = s := by simp [ssrcReset, ssrcChanged]
  have hsame := @noteSSRC_sameStream s.ssrc
    (s.restartedAt (c.seq k) (c.payload k) (c.pushAt k), true) rfl
  unfold Continuation.push pushWithSSRC at hinv ⊢
  rw [h.ssrc, hreset, pushLocked_of_idle (c.payload_le k) hidle] at hinv ⊢
  refine ⟨rfl, hinv, hsame.init, hsame.started, h.ssrc.trans hsame.ssrc.symm,
    hsame.prebuffer.trans h.prebuffer, hsame.depth.trans h.depth, hsame.expected,
    noteSSRC_lastPush _ _, (noteSSRC_count _ _).trans (by simp [restartedAt]), ?_, ?_⟩
  · rw [noteSSRC_slots, ← h.depth]
    simp [restartedAt]
  · intro l hv
    rw [noteSSRC_slots] at hv ⊢
    refine ⟨0, le_rfl, ?_⟩
    by_cases hl : l = s.depth.slotIdx (c.seq k)
    · simp [restartedAt, hl]
    · simp [restartedAt, hl] at hv

namespace Refilling

variable {k m : ℕ} {s : JitterBuffer}

/-- A pop below the prebuffer does nothing. -/
theorem pop (h : Refilling c jb k m s) (hpre : (m : ℤ) + 1 < jb.prebuffer) (now : Instant) :
    (s.popOrConceal c.recentWindow now).1 = s := by
  have hcount := h.count
  have hlt : s.count < s.prebuffer := by rw [h.prebuffer]; omega
  simp [popOrConceal, popReadyLocked, h.init, h.started, hlt, shouldConcealLocked]

/-- The next frame goes into a free slot. -/
theorem push (h : Refilling c jb k m s) (hlive : c.Live jb) (hroom : m + 1 < jb.depth.maxDepth) :
    Refilling c jb k (m + 1) (c.push s (k + (m + 1))).1 := by
  have hlim := jb.depth.le_limit
  simp only [maxDepthLimit] at hlim
  have hquiet : s.idleExpired (c.pushAt (k + (m + 1))) = false := by
    have hpaced := hlive.paced (k + m)
    simp only [idleExpired, Bool.and_eq_false_iff, decide_eq_false_iff_not, h.lastPush]
    exact .inr (not_lt.2 hpaced.le)
  have hseq : ∀ t, c.seq (k + t) = c.seq k + BitVec.ofNat 16 t := by
    intro t
    rw [seq, seq, BitVec.ofNat_add, BitVec.add_assoc]
  have hahead : seqLess (c.seq (k + (m + 1))) s.expected = false := by
    rw [seqLess_eq_false_iff_dist, h.expected, hseq, dist_add_of_lt _ (by omega)]
    omega
  have hfree : (s.slots (s.depth.slotIdx (c.seq (k + (m + 1))))).valid = false := by
    by_contra hv
    simp only [Bool.not_eq_false] at hv
    obtain ⟨t, ht, hs⟩ := h.only _ hv
    have hidx := h.inv.slot_eq _ hv
    rw [hs, h.depth, hseq, hseq] at hidx
    exact slotIdx_path_ne jb.depth (c.seq k) (by omega) (by omega) hidx
  have hnew : s.holds (c.seq (k + (m + 1))) = false := by simp [holds, hfree]
  have hinv : Inv (c.push s (k + (m + 1))).1 := h.inv.pushWithSSRC c.ssrc _ _ _
  obtain ⟨hsame, hcase⟩ := push_running h.inv h.init (c.payload_le (k + (m + 1))) hquiet hahead
  obtain ⟨hdup, -⟩ | ⟨-, -, hslots, hstamp, hcount⟩ := hcase
  · rw [hnew] at hdup; cases hdup
  rw [h.depth] at hslots
  unfold Continuation.push at hinv ⊢
  rw [h.ssrc] at hinv ⊢
  refine ⟨hinv, hsame.init.trans h.init, hsame.started.trans h.started,
    h.ssrc.trans hsame.ssrc.symm, hsame.prebuffer.trans h.prebuffer, hsame.depth.trans h.depth,
    hsame.expected.trans h.expected, hstamp, ?_, ?_, ?_⟩
  · rw [hcount, hfree, h.count]
    push_cast
    simp
  · have hne : jb.depth.slotIdx (c.seq k) ≠ jb.depth.slotIdx (c.seq (k + (m + 1))) :=
      slotIdx_path_ne jb.depth c.first (by omega) (by omega)
    rw [hslots, Function.update_of_ne hne]
    exact h.front
  · intro l hv
    rw [hslots] at hv ⊢
    by_cases hl : l = jb.depth.slotIdx (c.seq (k + (m + 1)))
    · exact ⟨m + 1, le_rfl, by rw [hl, Function.update_self]⟩
    · rw [Function.update_of_ne hl] at hv ⊢
      obtain ⟨t, ht, hs⟩ := h.only l hv
      exact ⟨t, by omega, hs⟩

/-- At the prebuffer, the front frame is delivered. -/
theorem deliver (h : Refilling c jb k m s) (hpre : jb.prebuffer ≤ (m : ℤ) + 1) (now : Instant) :
    (s.popOrConceal c.recentWindow now).2.1 = some (c.payload k) := by
  have hplay : s.canPlay = true := by
    have hcount := h.count
    simp only [canPlay, h.init, h.started, Bool.true_and, Bool.false_or, decide_eq_true_eq,
      h.prebuffer]
    omega
  have hcell : s.cursorSlot = ⟨some (c.payload k), c.seq k, true⟩ := by
    rw [cursorSlot, h.expected, h.depth, h.front]
  have hat : ({ s with started := true } : JitterBuffer).atCursor = true := by
    refine atCursor_iff.2 ?_
    change s.cursorSlot.valid = true ∧ s.cursorSlot.seq = s.expected
    rw [hcell, h.expected]
    exact ⟨rfl, rfl⟩
  have hpay : ({ s with started := true } : JitterBuffer).cursorSlot.payload =
      some (c.payload k) := congrArg JitterSlot.payload hcell
  simp [popOrConceal, popReadyLocked_eq, hplay, popStarted, hat, hpay]

end Refilling

/-- The pushes from the restart up to the prebuffer, by induction. -/
theorem refilling_afterPush (hlive : c.Live jb) {k : ℕ}
    (hstart : Refilling c jb k 0 (c.afterPush jb k)) {m : ℕ} (hroom : m < jb.depth.maxDepth)
    (hpre : m = 0 ∨ (m : ℤ) < jb.prebuffer) :
    Refilling c jb k m (c.afterPush jb (k + m)) := by
  induction m with
  | zero => exact hstart
  | succ m ih =>
      have hm := ih (by omega) (by omega)
      have hbefore : c.before jb (k + (m + 1)) = c.afterPush jb (k + m) :=
        hm.pop (by omega) (c.popAt (k + m))
      unfold afterPush
      rw [hbefore]
      exact hm.push hlive hroom

/-- **Where the idle net fires, the stream recovers.** -/
theorem deliveredWithin_of_idle (hlive : c.Live jb) (hinv : Inv jb) (hstarted : jb.started = true)
    (hpre : jb.prebuffer ≤ jb.depth.maxDepth)
    (hidle : c.IdleWithin jb (2 * jb.depth.maxDepth)) :
    c.DeliveredWithin jb (2 * jb.depth.maxDepth) := by
  classical
  have hlim := jb.depth.le_limit
  have hpos := jb.depth.pos
  simp only [maxDepthLimit] at hlim
  -- the first time it fires
  obtain ⟨k, ⟨hk, hfires⟩, hfirst⟩ : ∃ k, (k < 2 * jb.depth.maxDepth ∧
      (c.before jb k).idleExpired (c.pushAt k) = true) ∧
      ∀ i < k, (c.before jb i).idleExpired (c.pushAt i) = false := by
    refine ⟨Nat.find hidle, Nat.find_spec hidle, fun i hi => ?_⟩
    have hmin := Nat.find_min hidle hi
    have hlt := (Nat.find_spec hidle).1
    simpa [show i < 2 * jb.depth.maxDepth by omega] using hmin
  have hsteady : ∀ i ≤ k, Steady c jb i i (c.before jb i) := fun i hi =>
    steady_before hlive hinv hstarted (by omega) fun j hj => hfirst j (by omega)
  -- no duplicates from one turn on, so every push is stamped and the net is quiet
  have hturn : k ≤ jb.depth.maxDepth := by
    by_contra hlate
    obtain ⟨i, rfl⟩ : ∃ i, k = i + 1 := ⟨k - 1, by omega⟩
    have hi := hsteady i (by omega)
    obtain ⟨hpush, -, hstored⟩ := hi.push hlive (hfirst i (by omega))
    obtain ⟨-, -, hstamp⟩ := hstored (hi.not_holds (by omega) (by omega))
    have hadv := (pop_running hpush.inv hpush.started (hlive.stamped i (by omega))
      (hlive.inWindow i (by omega))).1
    have hlast : (c.before jb (i + 1)).lastPush = c.pushAt i := hadv.lastPush.trans hstamp
    have hpaced := hlive.paced i
    simp only [idleExpired, hlast, Bool.and_eq_true, decide_eq_true_eq] at hfires
    exact absurd hfires.2 (not_lt.2 hpaced.le)
  obtain ⟨hok, hstart⟩ := (hsteady k le_rfl).refill hfires
  -- the pushes the prebuffer still asks for after the first
  have hfull : Refilling c jb k (jb.prebuffer - 1).toNat
      (c.afterPush jb (k + (jb.prebuffer - 1).toNat)) :=
    refilling_afterPush hlive hstart (by omega) (by omega)
  exact ⟨k, k + (jb.prebuffer - 1).toNat, by omega, by omega, hok, hfull.expected,
    hfull.deliver (by omega) _⟩

end Continuation

/-! ## The condition -/

namespace JitterBuffer

/-- A running buffer has held its prebuffer, so the ring is large enough for
it. -/
def PrebufferFits (jb : JitterBuffer) : Prop :=
  jb.started = true → jb.prebuffer ≤ jb.depth.maxDepth

variable {jb : JitterBuffer}

theorem PrebufferFits.of_frame {jb' : JitterBuffer} (h : PrebufferFits jb)
    (hstarted : jb'.started = true → jb.started = true) (hpre : jb'.prebuffer = jb.prebuffer)
    (hdepth : jb'.depth = jb.depth) : PrebufferFits jb' := by
  intro hs
  rw [hpre, hdepth]
  exact h (hstarted hs)

theorem prebufferFits_of_stopped (h : jb.started = false) : PrebufferFits jb :=
  fun hs => absurd (h.symm.trans hs) (by decide)

theorem PrebufferFits.pushWithSSRC (h : PrebufferFits jb) (ssrc : BitVec 32) (seq : Seq)
    (payload : Payload) (now : Instant) :
    PrebufferFits (jb.pushWithSSRC ssrc seq payload now).1 := by
  have hssrc : PrebufferFits (jb.ssrcReset ssrc) := by
    unfold ssrcReset
    split
    · exact prebufferFits_of_stopped rfl
    · exact h
  have hidle : PrebufferFits ((jb.ssrcReset ssrc).idleReset now) := by
    unfold idleReset
    split
    · exact prebufferFits_of_stopped rfl
    · exact hssrc
  have hanchor : PrebufferFits (((jb.ssrcReset ssrc).idleReset now).anchorAt seq) := by
    unfold anchorAt
    split
    · exact hidle
    · exact hidle.of_frame id rfl rfl
  have hpush : PrebufferFits ((jb.ssrcReset ssrc).pushLocked seq payload now).1 := by
    unfold pushLocked
    split
    · exact hssrc
    · obtain heq | ⟨-, -, heq⟩ :=
        store_cases (((jb.ssrcReset ssrc).idleReset now).anchorAt seq) seq payload now
      · rw [heq]; exact hanchor
      · rw [heq]; exact hanchor.of_frame id rfl rfl
  obtain ⟨o, s, b, heq⟩ := noteSSRC_fst ssrc ((jb.ssrcReset ssrc).pushLocked seq payload now)
  unfold JitterBuffer.pushWithSSRC
  rw [heq]
  exact hpush.of_frame id rfl rfl

/-- A pop that starts playout has counted the prebuffer. -/
theorem PrebufferFits.popReadyLocked (h : PrebufferFits jb) (hinv : Inv jb) :
    PrebufferFits jb.popReadyLocked.1 := by
  have hfits : jb.canPlay = true → PrebufferFits { jb with started := true } := by
    intro hplay _
    simp only [canPlay, Bool.and_eq_true, Bool.or_eq_true, decide_eq_true_eq] at hplay
    obtain hs | hcount := hplay.2
    · exact h hs
    · have hle := hinv.validCount_le
      have heq := hinv.count_eq
      change jb.prebuffer ≤ (jb.depth.maxDepth : ℤ)
      omega
  have hpops := jb.pops
  generalize jb.popReadyLocked = r at hpops ⊢
  cases hpops with
  | delivers hplay hat => exact (hfits hplay).of_frame id rfl rfl
  | skips hplay hmiss hhalf => exact (hfits hplay).of_frame id rfl rfl
  | waits hplay hmiss hlow => exact hfits hplay
  | rests hplay => exact h

theorem PrebufferFits.advancePastLocked (h : PrebufferFits jb) :
    PrebufferFits jb.advancePastLocked := by
  unfold JitterBuffer.advancePastLocked
  split <;> exact h.of_frame id rfl rfl

theorem PrebufferFits.step (h : PrebufferFits jb) (hinv : Inv jb) (op : Op) :
    PrebufferFits (Jitter.step jb op).1 := by
  cases op with
  | push seq payload now => exact h.pushWithSSRC 0 seq payload now
  | pushWithSSRC ssrc seq payload now => exact h.pushWithSSRC ssrc seq payload now
  | popReady => exact h.popReadyLocked hinv
  | popOrConceal w now =>
      have hpop := h.popReadyLocked hinv
      simp only [Jitter.step, popOrConceal]
      split
      · exact hpop
      split
      · exact hpop
      split
      · exact hpop.advancePastLocked
      · exact hpop
  | advancePast => exact h.advancePastLocked
  | reset => exact prebufferFits_of_stopped rfl

theorem prebufferFits_of_reachable (h : Reachable jb) : PrebufferFits jb := by
  obtain ⟨prebuffer, _, jb₀, ops, hnew, rfl⟩ := h
  obtain ⟨d, -, rfl⟩ := newJitterBuffer_eq_some.1 hnew
  have hrun : Inv (after Jitter.step (fresh prebuffer d) ops) ∧
      PrebufferFits (after Jitter.step (fresh prebuffer d) ops) := by
    refine @after_invariant _ _ _ Jitter.step (fun jb => Inv jb ∧ PrebufferFits jb)
      (fun _ op hs => ⟨hs.1.step op, hs.2.step hs.1 op⟩) _ ⟨inv_fresh prebuffer d, ?_⟩ ops
    exact prebufferFits_of_stopped rfl
  exact hrun.2

end JitterBuffer

/-- **When a stream comes back.** From any reachable running state, with
frames of the current SSRC from at or ahead of the cursor, less than two
seconds between pushes and every pop inside the conceal window, one of the
frames is delivered in the first two turns of the ring exactly when the
first is less than one turn ahead, or the idle net fires. -/
theorem recovers_iff_within_depth {c : Continuation} {jb : JitterBuffer} (hreach : Reachable jb)
    (hstarted : jb.started = true) (hlive : c.Live jb) :
    c.DeliveredWithin jb (2 * jb.depth.maxDepth) ↔
      dist c.first jb.expected < jb.depth.maxDepth ∨ c.IdleWithin jb (2 * jb.depth.maxDepth) := by
  have hinv := inv_of_reachable hreach
  by_cases hidle : c.IdleWithin jb (2 * jb.depth.maxDepth)
  · simp only [hidle, or_true, iff_true]
    exact Continuation.deliveredWithin_of_idle hlive hinv hstarted
      (prebufferFits_of_reachable hreach hstarted) hidle
  · have hquiet : ∀ i < 2 * jb.depth.maxDepth,
        (c.before jb i).idleExpired (c.pushAt i) = false := fun i hi => by
      rw [Bool.eq_false_iff]
      exact fun hi' => hidle ⟨i, hi, hi'⟩
    simp only [hidle, or_false]
    constructor
    · intro hdel
      by_contra hfar
      exact Continuation.not_deliveredWithin_of_far hlive hinv hstarted hquiet (by omega) hdel
    · exact Continuation.deliveredWithin_of_near hlive hinv hstarted hquiet

section Runs

/-- A buffer of two slots that has played frame `0` and waits for frame
`1`. -/
def waitingForOne : JitterBuffer :=
  after step (fresh 1 ⟨2, 1, by decide, by decide⟩) [.push 0 [9] 20000000, .popReady]

theorem reachable_waitingForOne : Reachable waitingForOne :=
  ⟨1, 2, _, _, newJitterBuffer_eq_some.2 ⟨⟨2, 1, by decide, by decide⟩, rfl, rfl⟩, rfl⟩

/-- A sender that comes back at a given number, a frame every 20 ms. -/
def everyTwentyMs (first : Seq) : Continuation where
  ssrc := 0
  first := first
  payload i := [UInt8.ofNat i]
  payload_le i := by simp [maxOpusPayloadSize]
  pushAt i := 20000000 * (i + 2)
  popAt i := 20000000 * (i + 2)
  recentWindow := 200000000

theorem paced_everyTwentyMs (first : Seq) (i : ℕ) :
    (everyTwentyMs first).pushAt (i + 1) - (everyTwentyMs first).pushAt i <
      jitterIdleResetThreshold := by
  change 20000000 * (((i + 1 : ℕ) : ℤ) + 2) - 20000000 * ((i : ℤ) + 2) < 2000000000
  push_cast
  omega

/-- One frame short of a turn ahead, the stream is heard again. -/
theorem recovers_iff_within_depth_two :
    (everyTwentyMs 2).Live waitingForOne ∧
      (everyTwentyMs 2).DeliveredWithin waitingForOne (2 * waitingForOne.depth.maxDepth) := by
  have hlive : (everyTwentyMs 2).Live waitingForOne :=
    ⟨by decide +kernel, by decide +kernel, paced_everyTwentyMs 2, by decide +kernel,
      by decide +kernel⟩
  exact ⟨hlive, (recovers_iff_within_depth reachable_waitingForOne (by decide +kernel) hlive).2
    (.inl (by decide +kernel))⟩

/-- **A turn ahead, the stream is lost.** Frame `3` is overwritten by frame
`5` as the cursor gets to it, frame `4` by frame `6`, and so on. -/
theorem outage_not_recovered :
    Reachable waitingForOne ∧ waitingForOne.started = true ∧
      2 ≤ waitingForOne.depth.maxDepth ∧ (everyTwentyMs 3).Live waitingForOne ∧
      ¬ (everyTwentyMs 3).DeliveredWithin waitingForOne (2 * waitingForOne.depth.maxDepth) := by
  have hlive : (everyTwentyMs 3).Live waitingForOne :=
    ⟨by decide +kernel, by decide +kernel, paced_everyTwentyMs 3, by decide +kernel,
      by decide +kernel⟩
  exact ⟨reachable_waitingForOne, by decide +kernel, by decide +kernel, hlive,
    Continuation.not_deliveredWithin_of_far hlive (inv_of_reachable reachable_waitingForOne)
      (by decide +kernel) (by decide +kernel) (by decide +kernel)⟩

end Runs

end Jitter

end OpenManet
