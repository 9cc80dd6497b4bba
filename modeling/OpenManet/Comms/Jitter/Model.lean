import OpenManet.Lib.SeqNum
import OpenManet.Lib.Machine
import Mathlib.Tactic.IntervalCases
/-!
# The jitter buffer

`internal/comms/rtp/jitter.go`: a ring of slots keyed by RTP sequence
number, a playout cursor `expected`, and the six operations the receive
path and the two playout paths call. Each is taken under the buffer's one
mutex, so an operation is one step.

Clock readings are inputs of the step that makes them: `pushLocked` reads
the buffer's own clock once, `shouldConcealLocked` reads the wall clock.
Instants are nanoseconds from the zero `time.Time`, which `IsZero` tests
for. Payloads are values: the pool the source draws its buffers from
recycles storage and nothing else. The notify channel, which only wakes a
parked consumer, is left out.
-/

namespace OpenManet

namespace Jitter

/-- An RTP sequence number, a `uint16`. -/
abbrev Seq := BitVec 16

/-- An RTP payload. -/
abbrev Payload := List UInt8

/-- Nanoseconds since the zero `time.Time`. -/
abbrev Instant := ℤ

/-- Default number of frames buffered before playout begins. -/
def prebufferPackets : ℤ := 5

/-- The length of the slot array, and the largest depth. -/
abbrev maxDepthLimit : ℕ := 32

/-- `MaxOpusPayloadSize`. -/
def maxOpusPayloadSize : ℕ := 1275

/-- `jitterIdleResetThreshold`, two seconds. -/
def jitterIdleResetThreshold : ℤ := 2000000000

/-- A depth the constructor accepts: a power of two no larger than the slot
array. -/
structure Depth where
  /-- The depth, in frames. -/
  maxDepth : ℕ
  pow_two : ∃ k, k ≤ 5 ∧ maxDepth = 2 ^ k

namespace Depth

variable (d : Depth)

theorem pos : 0 < d.maxDepth := by
  obtain ⟨k, -, h⟩ := d.pow_two
  rw [h]; positivity

theorem le_limit : d.maxDepth ≤ maxDepthLimit := by
  obtain ⟨k, hk, h⟩ := d.pow_two
  rw [h]
  exact le_trans (Nat.pow_le_pow_right (by omega) hk) (by decide)

theorem dvd_circle : d.maxDepth ∣ 2 ^ 16 := by
  obtain ⟨k, hk, h⟩ := d.pow_two
  rw [h]
  exact pow_dvd_pow 2 (by omega)

/-- `depthMask`. -/
def depthMask : ℕ := d.maxDepth - 1

/-- Masking is the remainder, the depth being a power of two. -/
theorem and_depthMask (n : ℕ) : n &&& d.depthMask = n % d.maxDepth := by
  obtain ⟨k, -, h⟩ := d.pow_two
  rw [depthMask, h, Nat.and_two_pow_sub_one_eq_mod]

theorem and_depthMask_lt (n : ℕ) : n &&& d.depthMask < maxDepthLimit := by
  rw [and_depthMask]
  exact lt_of_lt_of_le (Nat.mod_lt _ d.pos) d.le_limit

/-- `int(seq) & jb.depthMask`, the slot of a sequence number. -/
def slotIdx (seq : Seq) : Fin maxDepthLimit :=
  ⟨seq.toNat &&& d.depthMask, d.and_depthMask_lt _⟩

theorem slotIdx_val (seq : Seq) : (d.slotIdx seq : ℕ) = SeqNum.slot d.maxDepth seq :=
  d.and_depthMask _

theorem slotIdx_lt (seq : Seq) : (d.slotIdx seq : ℕ) < d.maxDepth := by
  rw [slotIdx_val]; exact SeqNum.slot_lt d.pos seq

theorem slotIdx_eq_iff {a b : Seq} :
    d.slotIdx a = d.slotIdx b ↔ SeqNum.slot d.maxDepth a = SeqNum.slot d.maxDepth b := by
  rw [← slotIdx_val, ← slotIdx_val, Fin.ext_iff]

end Depth

/-- One entry of the ring. An invalidated slot keeps its `seq`; its payload
is `nil`. -/
structure JitterSlot where
  payload : Option Payload := none
  seq : Seq := 0
  valid : Bool := false
deriving DecidableEq, Repr

/-- The six `GapRuns` counters. -/
structure GapRuns where
  runs1 : ℕ := 0
  runs2to5 : ℕ := 0
  runs6to10 : ℕ := 0
  runs11to20 : ℕ := 0
  runs21to50 : ℕ := 0
  runsOver50 : ℕ := 0
deriving DecidableEq, Repr

/-- The buffer. -/
structure JitterBuffer where
  prebuffer : ℤ
  depth : Depth
  slots : Fin maxDepthLimit → JitterSlot := fun _ => {}
  lastPush : Instant := 0
  count : ℤ := 0
  ssrc : BitVec 32 := 0
  expected : Seq := 0
  init : Bool := false
  started : Bool := false
  haveSSRC : Bool := false
  inGap : Bool := false
  overflows : ℕ := 0
  ssrcResets : ℕ := 0
  idleResets : ℕ := 0
  gapRuns : GapRuns := {}

/-- `maxDepth > 0`, within the array and a power of two, is a `Depth`. -/
theorem pow_two_of_and_pred {n : ℕ} (hpos : 0 < n) (hle : n ≤ maxDepthLimit)
    (h : n &&& (n - 1) = 0) : ∃ k, k ≤ 5 ∧ n = 2 ^ k := by
  change n ≤ 32 at hle
  -- thirty-two depths, of which the bit test leaves the six powers of two
  have key : ∀ m : Fin 33, 0 < m.val → m.val &&& (m.val - 1) = 0 → ∃ k : Fin 6, m.val = 2 ^ k.val := by
    decide
  obtain ⟨k, hk⟩ := key ⟨n, by omega⟩ hpos h
  exact ⟨k.val, by omega, hk⟩

/-- A buffer of a given depth, holding nothing. -/
def fresh (prebuffer : ℤ) (depth : Depth) : JitterBuffer := { prebuffer, depth }

/-- `NewJitterBuffer`; `none` where the source panics. -/
def newJitterBuffer (prebuffer maxDepth : ℤ) : Option JitterBuffer :=
  if h : maxDepth ≤ 0 ∨ maxDepth > (maxDepthLimit : ℤ) ∨
      maxDepth.toNat &&& (maxDepth.toNat - 1) ≠ 0 then none
  else some (fresh prebuffer ⟨maxDepth.toNat, by
    simp only [not_or, not_le, gt_iff_lt, not_lt, ne_eq, not_not] at h
    exact pow_two_of_and_pred (by omega) (by omega) h.2.2⟩)

/-- **The constructor accepts exactly the depths**: what it returns is the
fresh buffer of the depth it was asked for. -/
theorem newJitterBuffer_eq_some {prebuffer maxDepth : ℤ} {jb : JitterBuffer} :
    newJitterBuffer prebuffer maxDepth = some jb ↔
      ∃ d : Depth, maxDepth = (d.maxDepth : ℤ) ∧ jb = fresh prebuffer d := by
  unfold newJitterBuffer
  constructor
  · intro h
    split at h
    · cases h
    · rename_i hok
      simp only [not_or, not_le] at hok
      exact ⟨_, (Int.toNat_of_nonneg (by omega)).symm, (Option.some.inj h).symm⟩
  · rintro ⟨d, rfl, rfl⟩
    have hmask : d.maxDepth &&& (d.maxDepth - 1) = 0 := by
      have h := d.and_depthMask d.maxDepth
      rwa [Nat.mod_self] at h
    rw [dif_neg]
    · simp only [Int.toNat_natCast]
    · have hpos := d.pos
      have hle := d.le_limit
      simp only [Int.toNat_natCast, hmask]
      omega

/-- `seqLess`: `int16(a-b) < 0`. -/
def seqLess (a b : Seq) : Bool := decide ((a - b).toInt < 0)

theorem seqLess_eq_false {a b : Seq} : seqLess a b = false ↔ 0 ≤ (a - b).toInt := by
  simp [seqLess]

namespace JitterBuffer

variable (jb : JitterBuffer)

/-- `resetLocked`. The SSRC fields and the counters stay. -/
def resetLocked : JitterBuffer :=
  { jb with
    slots := fun _ => {}
    count := 0
    expected := 0
    init := false
    started := false
    inGap := false
    lastPush := 0 }

/-- The idle test of `pushLocked`. -/
def idleExpired (now : Instant) : Bool :=
  jb.init && jb.lastPush != 0 && decide (now - jb.lastPush > jitterIdleResetThreshold)

/-- `pushLocked`'s idle safety net. -/
def idleReset (now : Instant) : JitterBuffer :=
  if jb.idleExpired now then { jb.resetLocked with idleResets := jb.idleResets + 1 } else jb

/-- `pushLocked`'s first packet: the cursor starts at it. -/
def anchorAt (seq : Seq) : JitterBuffer :=
  if jb.init then jb else { jb with expected := seq, init := true }

/-- The body of `pushLocked` from the late-packet test on. -/
def store (seq : Seq) (payload : Payload) (now : Instant) : JitterBuffer × Bool :=
  let slot := jb.slots (jb.depth.slotIdx seq)
  if seqLess seq jb.expected then (jb, false)
  else if slot.valid && slot.seq == seq then (jb, false)
  else if decide (jb.count ≥ jb.depth.maxDepth) && !slot.valid then (jb, false)
  else
    -- overwriting a stale slot releases its payload and gives its place back
    let count := if slot.valid && slot.seq != seq then jb.count - 1 else jb.count
    ({ jb with
        slots := Function.update jb.slots (jb.depth.slotIdx seq) ⟨some payload, seq, true⟩
        count := count + 1
        lastPush := now }, true)

/-- `pushLocked`. -/
def pushLocked (seq : Seq) (payload : Payload) (now : Instant) : JitterBuffer × Bool :=
  if payload.length > maxOpusPayloadSize then (jb, false)
  else ((jb.idleReset now).anchorAt seq).store seq payload now

/-- The SSRC test of `PushWithSSRC`. -/
def ssrcChanged (ssrc : BitVec 32) : Bool :=
  jb.haveSSRC && jb.init && ssrc != jb.ssrc

/-- The SSRC reset of `PushWithSSRC`. -/
def ssrcReset (ssrc : BitVec 32) : JitterBuffer :=
  if jb.ssrcChanged ssrc then { jb.resetLocked with ssrcResets := jb.ssrcResets + 1 } else jb

/-- What `PushWithSSRC` does after `pushLocked`: the overflow counter, and
the SSRC of an accepted packet. -/
def noteSSRC (ssrc : BitVec 32) (r : JitterBuffer × Bool) : JitterBuffer × Bool :=
  let counted :=
    if !r.2 && decide (r.1.count ≥ r.1.depth.maxDepth) then
      { r.1 with overflows := r.1.overflows + 1 }
    else r.1
  (if r.2 then { counted with ssrc := ssrc, haveSSRC := true } else counted, r.2)

/-- `PushWithSSRC`; the flag is the return value. -/
def pushWithSSRC (ssrc : BitVec 32) (seq : Seq) (payload : Payload) (now : Instant) :
    JitterBuffer × Bool :=
  noteSSRC ssrc ((jb.ssrcReset ssrc).pushLocked seq payload now)

/-- `Push`, one anonymous stream. -/
def push (seq : Seq) (payload : Payload) (now : Instant) : JitterBuffer × Bool :=
  jb.pushWithSSRC 0 seq payload now

/-- `measureGapRunLocked`'s walk, `k` slots from the end. -/
def measureGapRunFrom (start : Seq) : ℕ → ℕ → ℕ
  | 0, k => k
  | n + 1, k =>
    let seq := start + BitVec.ofNat 16 k
    let slot := jb.slots (jb.depth.slotIdx seq)
    if slot.valid && slot.seq == seq then k else measureGapRunFrom start n (k + 1)

/-- `measureGapRunLocked`. -/
def measureGapRunLocked : ℕ := jb.measureGapRunFrom jb.expected jb.depth.maxDepth 0

/-- `bucketGapRunLocked`. -/
def bucketGapRunLocked (n : ℕ) : JitterBuffer :=
  let g := jb.gapRuns
  { jb with gapRuns :=
      if n ≤ 1 then { g with runs1 := g.runs1 + 1 }
      else if n ≤ 5 then { g with runs2to5 := g.runs2to5 + 1 }
      else if n ≤ 10 then { g with runs6to10 := g.runs6to10 + 1 }
      else if n ≤ 20 then { g with runs11to20 := g.runs11to20 + 1 }
      else if n ≤ 50 then { g with runs21to50 := g.runs21to50 + 1 }
      else { g with runsOver50 := g.runsOver50 + 1 } }

/-- The slot the cursor points at. -/
def cursorSlot : JitterSlot := jb.slots (jb.depth.slotIdx jb.expected)

/-- The cursor's frame is buffered. -/
def atCursor : Bool := jb.cursorSlot.valid && jb.cursorSlot.seq == jb.expected

/-- The cursor's slot emptied, its place given back. -/
def clearCursor : JitterBuffer :=
  { jb with
    slots := Function.update jb.slots (jb.depth.slotIdx jb.expected)
      { jb.cursorSlot with payload := none, valid := false }
    count := jb.count - 1 }

/-- `jb.expected++`. -/
def bump : JitterBuffer := { jb with expected := jb.expected + 1 }

/-- `popReadyLocked`'s three results. -/
structure Pop where
  payload : Option Payload := none
  ready : Bool := false
  skippedMissing : Bool := false
deriving DecidableEq, Repr

/-- `popReadyLocked` once playout has started. -/
def popStarted : JitterBuffer × Pop :=
  if jb.atCursor then
    ({ jb.clearCursor.bump with inGap := false }, ⟨jb.cursorSlot.payload, true, false⟩)
  else if jb.count ≥ ((jb.depth.maxDepth / 2 : ℕ) : ℤ) then
    -- a run of missing frames is bucketed once, at its first skip
    let jb := if jb.inGap then jb else
      { jb.bucketGapRunLocked jb.measureGapRunLocked with inGap := true }
    (jb.bump, ⟨none, false, true⟩)
  else (jb, {})

/-- `popReadyLocked`. -/
def popReadyLocked : JitterBuffer × Pop :=
  if !jb.init then (jb, {})
  else if jb.started then jb.popStarted
  else if jb.count < jb.prebuffer then (jb, {})
  else { jb with started := true }.popStarted

/-- `shouldConcealLocked`. -/
def shouldConcealLocked (recentWindow : ℤ) (now : Instant) : Bool :=
  if !jb.started || jb.lastPush == 0 then false
  else decide (now - jb.lastPush ≤ recentWindow)

/-- `advancePastLocked`. -/
def advancePastLocked : JitterBuffer := if jb.atCursor then jb.clearCursor.bump else jb.bump

/-- `PopOrConceal`: the payload, and whether to conceal. -/
def popOrConceal (recentWindow : ℤ) (now : Instant) : JitterBuffer × Option Payload × Bool :=
  let r := jb.popReadyLocked
  if r.2.ready then (r.1, r.2.payload, false)
  else if r.2.skippedMissing then (r.1, none, true)
  else if r.1.shouldConcealLocked recentWindow now then (r.1.advancePastLocked, none, true)
  else (r.1, none, false)

/-- `Reset`. -/
def reset : JitterBuffer := { jb.resetLocked with haveSSRC := false, ssrc := 0 }

end JitterBuffer

/-! ## What a pop can do -/

namespace JitterBuffer

variable (jb : JitterBuffer)

/-- Playout runs, or has just reached its prebuffer. -/
def canPlay : Bool := jb.init && (jb.started || decide (jb.prebuffer ≤ jb.count))

/-- `popReadyLocked` either does nothing or starts playout and pops. -/
theorem popReadyLocked_eq :
    jb.popReadyLocked =
      if jb.canPlay then { jb with started := true }.popStarted else (jb, {}) := by
  unfold popReadyLocked canPlay
  by_cases hinit : jb.init = true
  · by_cases hstarted : jb.started = true
    · have hself : { jb with started := true } = jb := by rw [← hstarted]
      rw [hself]
      simp [hinit, hstarted]
    · by_cases hpre : jb.count < jb.prebuffer
      · simp [hinit, hstarted, hpre, Int.not_le.2 hpre]
      · simp [hinit, hstarted, hpre, Int.not_lt.1 hpre]
  · simp [hinit]

variable {jb} in
theorem init_of_canPlay (hplay : jb.canPlay = true) : jb.init = true := by
  rw [canPlay, Bool.and_eq_true] at hplay
  exact hplay.1

/-- What a pop does. -/
inductive Pops (jb : JitterBuffer) : JitterBuffer × Pop → Prop
  /-- The cursor's frame is delivered. -/
  | delivers (hplay : jb.canPlay = true) (hat : jb.atCursor = true) :
      Pops jb ({ ({ jb with started := true } : JitterBuffer).clearCursor.bump with inGap := false },
        ⟨jb.cursorSlot.payload, true, false⟩)
  /-- The cursor's frame is not there, and is skipped. -/
  | skips (hplay : jb.canPlay = true) (hmiss : jb.atCursor = false)
      (hhalf : ((jb.depth.maxDepth / 2 : ℕ) : ℤ) ≤ jb.count) :
      Pops jb ({ ({ jb with started := true } : JitterBuffer).bump with
          gapRuns := if jb.inGap then jb.gapRuns
            else (jb.bucketGapRunLocked jb.measureGapRunLocked).gapRuns
          inGap := true }, ⟨none, false, true⟩)
  /-- There is nothing to do in a buffer that plays. -/
  | waits (hplay : jb.canPlay = true) (hmiss : jb.atCursor = false)
      (hlow : jb.count < ((jb.depth.maxDepth / 2 : ℕ) : ℤ)) :
      Pops jb ({ jb with started := true }, {})
  /-- The buffer does not play yet. -/
  | rests (hplay : jb.canPlay = false) : Pops jb (jb, {})

variable {jb : JitterBuffer}

/-- The walk along a gap does not look at whether playout has started. -/
theorem measureGapRunFrom_started (start : Seq) (n k : ℕ) :
    ({ jb with started := true } : JitterBuffer).measureGapRunFrom start n k =
      jb.measureGapRunFrom start n k := by
  induction n generalizing k with
  | zero => rfl
  | succ n ih => simp only [measureGapRunFrom, ih]

/-- **One pop.** -/
theorem pops (jb : JitterBuffer) : Pops jb jb.popReadyLocked := by
  rw [popReadyLocked_eq]
  by_cases hplay : jb.canPlay = true
  · rw [if_pos hplay, popStarted]
    by_cases hat : jb.atCursor = true
    · rw [if_pos (show ({ jb with started := true } : JitterBuffer).atCursor = true from hat)]
      exact .delivers hplay hat
    have hmiss : jb.atCursor = false := by simpa using hat
    rw [if_neg (show ¬ ({ jb with started := true } : JitterBuffer).atCursor = true from hat)]
    by_cases hhalf : ((jb.depth.maxDepth / 2 : ℕ) : ℤ) ≤ jb.count
    · rw [if_pos hhalf]
      have hskips := Pops.skips hplay hmiss hhalf
      by_cases hgap : jb.inGap = true
      · rw [if_pos hgap] at hskips
        simpa [hgap, bump] using hskips
      · rw [if_neg hgap] at hskips
        have hmeasure : ({ jb with started := true } : JitterBuffer).measureGapRunLocked =
            jb.measureGapRunLocked := measureGapRunFrom_started _ _ _
        rw [if_neg (show ¬ ({ jb with started := true } : JitterBuffer).inGap = true from hgap),
          hmeasure]
        exact hskips
    · rw [if_neg hhalf]
      exact .waits hplay hmiss (by omega)
  · rw [if_neg hplay]
    exact .rests (by simpa using hplay)

end JitterBuffer

/-! ## Operations and their answers -/

/-- The operations of the buffer, with the clock readings they make. -/
inductive Op where
  | push (seq : Seq) (payload : Payload) (now : Instant)
  | pushWithSSRC (ssrc : BitVec 32) (seq : Seq) (payload : Payload) (now : Instant)
  | popReady
  | popOrConceal (recentWindow : ℤ) (now : Instant)
  | advancePast
  | reset
deriving DecidableEq, Repr

/-- What an operation returns. -/
inductive Out where
  | pushed (ok : Bool)
  | popped (r : JitterBuffer.Pop)
  | played (payload : Option Payload) (conceal : Bool)
  | done
deriving DecidableEq, Repr

/-- One operation. -/
def step (jb : JitterBuffer) : Op → JitterBuffer × Out
  | .push seq payload now =>
    let r := jb.push seq payload now
    (r.1, .pushed r.2)
  | .pushWithSSRC ssrc seq payload now =>
    let r := jb.pushWithSSRC ssrc seq payload now
    (r.1, .pushed r.2)
  | .popReady =>
    let r := jb.popReadyLocked
    (r.1, .popped r.2)
  | .popOrConceal w now =>
    let r := jb.popOrConceal w now
    (r.1, .played r.2.1 r.2.2)
  | .advancePast => (jb.advancePastLocked, .done)
  | .reset => (jb.reset, .done)

/-- The states a fresh buffer can get to. -/
def Reachable (jb : JitterBuffer) : Prop :=
  ∃ prebuffer maxDepth jb₀ ops, newJitterBuffer prebuffer maxDepth = some jb₀ ∧
    after step jb₀ ops = jb

end Jitter

end OpenManet
