import OpenManet.Comms.Jitter.Invariant
/-!
# Packets that are refused

A push is refused for one of four reasons: the payload is too long, the
packet is behind the cursor, it is buffered already, or there is no place for
it. Two resets come before these tests. A buffer that was just reset is empty
and starts at the packet, so the last three tests let it pass. The first does
not, and the change of SSRC is not undone: an oversized packet of another
SSRC leaves an empty buffer behind.
-/

namespace OpenManet

namespace Jitter

open JitterBuffer

/-- What playout sees of the two buffers, and of the stream they follow, is
the same: they differ in counters at most. -/
structure Undisturbed (jb jb' : JitterBuffer) : Prop where
  slots : jb'.slots = jb.slots
  count : jb'.count = jb.count
  expected : jb'.expected = jb.expected
  init : jb'.init = jb.init
  started : jb'.started = jb.started
  inGap : jb'.inGap = jb.inGap
  lastPush : jb'.lastPush = jb.lastPush
  ssrc : jb'.ssrc = jb.ssrc
  haveSSRC : jb'.haveSSRC = jb.haveSSRC

variable {jb : JitterBuffer} {ssrc : BitVec 32} {seq : Seq} {payload : Payload} {now : Instant}

/-! ## Empty buffers -/

theorem count_of_empty (hinv : Inv jb) (hempty : ∀ i, (jb.slots i).valid = false) :
    jb.count = 0 := by
  have hnone : jb.validCount = 0 := by simp [validCount, hempty]
  rw [hinv.count_eq, hnone]
  rfl

theorem empty_of_not_init (hinv : Inv jb) (hinit : jb.init = false) (i : Fin maxDepthLimit) :
    (jb.slots i).valid = false := by
  by_contra hvalid
  rw [Bool.not_eq_false] at hvalid
  rw [hinv.init_of_valid i hvalid] at hinit
  cases hinit

/-- An empty buffer takes the packet its cursor is at. -/
theorem store_of_empty (hinv : Inv jb) (hempty : ∀ i, (jb.slots i).valid = false)
    (hcursor : jb.expected = seq) : (jb.store seq payload now).2 = true := by
  have hroom : jb.count < jb.depth.maxDepth := by
    rw [count_of_empty hinv hempty]
    exact_mod_cast jb.depth.pos
  simp [store, hcursor, seqLess_self, hempty, Int.not_le.2 hroom]

/-- So does a buffer that has no cursor yet. -/
theorem store_of_not_init (hinv : Inv jb) (hinit : jb.init = false) :
    ((jb.anchorAt seq).store seq payload now).2 = true := by
  have hanchor : jb.anchorAt seq = { jb with expected := seq, init := true } := by
    simp [anchorAt, hinit]
  refine store_of_empty (hinv.anchorAt seq) (fun i => ?_) ?_
  · rw [hanchor]
    exact empty_of_not_init hinv hinit i
  · rw [hanchor]

/-! ## Refusals -/

/-- A buffer without a cursor refuses a packet for its length only. -/
theorem pushLocked_of_not_init (hinv : Inv jb) (hinit : jb.init = false)
    (hfits : payload.length ≤ maxOpusPayloadSize) : (jb.pushLocked seq payload now).2 = true := by
  have hidle : jb.idleReset now = jb := by simp [idleReset, idleExpired, hinit]
  rw [pushLocked, if_neg (by omega), hidle]
  exact store_of_not_init hinv hinit

/-- **What `pushLocked` refuses changes nothing.** The idle reset comes after
the test of the length, and what follows it is accepted. -/
theorem pushLocked_refused (hinv : Inv jb) (hrefused : (jb.pushLocked seq payload now).2 = false) :
    (jb.pushLocked seq payload now).1 = jb := by
  unfold pushLocked at hrefused ⊢
  split
  · rfl
  next hfits =>
  rw [if_neg hfits] at hrefused
  by_cases hrunning : jb.init = true ∧ jb.idleExpired now = false
  · have hself : (jb.idleReset now).anchorAt seq = jb := by
      simp [idleReset, anchorAt, hrunning]
    rw [hself] at hrefused ⊢
    obtain heq | ⟨-, -, heq⟩ := store_cases jb seq payload now
    · rw [heq]
    · rw [heq] at hrefused
      cases hrefused
  · -- no cursor, or none any more
    have hstopped : (jb.idleReset now).init = false := by
      unfold idleReset
      by_cases hidle : jb.idleExpired now = true
      · rw [if_pos hidle]
        rfl
      · rw [if_neg hidle]
        simpa [hidle] using hrunning
    rw [store_of_not_init (hinv.idleReset now) hstopped] at hrefused
    cases hrefused

/-- What `PushWithSSRC` notes of a refusal. -/
theorem undisturbed_noteSSRC (jb : JitterBuffer) (ssrc : BitVec 32) :
    Undisturbed jb (noteSSRC ssrc (jb, false)).1 := by
  have hnote : ∃ overflows, (noteSSRC ssrc (jb, false)).1 = { jb with overflows := overflows } := by
    unfold noteSSRC
    dsimp only
    by_cases hfull : jb.count ≥ jb.depth.maxDepth
    · exact ⟨jb.overflows + 1, by simp [hfull]⟩
    · exact ⟨jb.overflows, by simp [hfull]⟩
  obtain ⟨overflows, heq⟩ := hnote
  rw [heq]
  exact ⟨rfl, rfl, rfl, rfl, rfl, rfl, rfl, rfl, rfl⟩

/-- An oversized packet of another SSRC stops the buffer. -/
theorem init_of_oversized (hlong : maxOpusPayloadSize < payload.length)
    (hchanged : jb.ssrcChanged ssrc = true) :
    (jb.pushWithSSRC ssrc seq payload now).2 = false ∧
      (jb.pushWithSSRC ssrc seq payload now).1.init = false := by
  have hpush : (jb.ssrcReset ssrc).pushLocked seq payload now = (jb.ssrcReset ssrc, false) := by
    rw [pushLocked, if_pos hlong]
  have hreset : (jb.ssrcReset ssrc).init = false := by
    rw [ssrcReset, if_pos hchanged]
    rfl
  rw [pushWithSSRC, hpush]
  exact ⟨rfl, by rw [noteSSRC_init, hreset]⟩

/-- **A refused packet changes nothing, unless it is an oversized packet of
another SSRC.** Then the buffered audio, the cursor and the flags are gone. -/
theorem refused_undisturbed_iff (hreach : Reachable jb) :
    ((jb.pushWithSSRC ssrc seq payload now).2 = false →
        Undisturbed jb (jb.pushWithSSRC ssrc seq payload now).1) ↔
      ¬ (maxOpusPayloadSize < payload.length ∧ jb.ssrcChanged ssrc = true) := by
  have hinv := inv_of_reachable hreach
  constructor
  · rintro hkept ⟨hlong, hchanged⟩
    obtain ⟨hrefused, hstopped⟩ := @init_of_oversized jb ssrc seq payload now hlong hchanged
    have hinit : jb.init = true := by
      simp only [ssrcChanged, Bool.and_eq_true] at hchanged
      exact hchanged.1.2
    rw [(hkept hrefused).init, hinit] at hstopped
    cases hstopped
  · intro hok hrefused
    rw [pushWithSSRC, noteSSRC_snd] at hrefused
    have hpush := pushLocked_refused (hinv.ssrcReset ssrc) hrefused
    by_cases hchanged : jb.ssrcChanged ssrc = true
    · -- the buffer was reset, so it took the packet
      have hstopped : (jb.ssrcReset ssrc).init = false := by
        rw [ssrcReset, if_pos hchanged]
        rfl
      have hfits : payload.length ≤ maxOpusPayloadSize := by
        by_contra hlong
        exact hok ⟨by omega, hchanged⟩
      rw [pushLocked_of_not_init (hinv.ssrcReset ssrc) hstopped hfits] at hrefused
      cases hrefused
    · have hsame : jb.ssrcReset ssrc = jb := by rw [ssrcReset, if_neg hchanged]
      rw [hsame] at hpush hrefused
      have hpair : jb.pushLocked seq payload now = (jb, false) := Prod.ext hpush hrefused
      rw [pushWithSSRC, hsame, hpair]
      exact undisturbed_noteSSRC jb ssrc

/-- One frame of SSRC 1 buffered, and an oversized packet of SSRC 1: it is
refused, and the frame is still there. -/
theorem refused_undisturbed_one :
    Undisturbed (after step (fresh 1 ⟨4, 2, by decide, by decide⟩) [.pushWithSSRC 1 7 [1] 1])
      ((after step (fresh 1 ⟨4, 2, by decide, by decide⟩)
        [.pushWithSSRC 1 7 [1] 1]).pushWithSSRC 1 8 (List.replicate 1276 0) 1).1 :=
  (refused_undisturbed_iff ⟨1, 4, fresh 1 ⟨4, 2, by decide, by decide⟩, [.pushWithSSRC 1 7 [1] 1],
    newJitterBuffer_eq_some.2 ⟨_, rfl, rfl⟩, rfl⟩).2 (fun h => absurd h.2 (by decide))
    (by
      have hlong : maxOpusPayloadSize < (List.replicate 1276 (0 : UInt8)).length := by
        rw [List.length_replicate]
        decide
      rw [pushWithSSRC, noteSSRC_snd, pushLocked, if_pos hlong])

/-- One frame of SSRC 1 buffered, and an oversized packet of SSRC 2: it is
refused, and the frame is gone. -/
theorem refused_flushes :
    ∃ jb, Reachable jb ∧ (jb.pushWithSSRC 2 8 (List.replicate 1276 0) 1).2 = false ∧
      jb.count = 1 ∧ ¬ Undisturbed jb (jb.pushWithSSRC 2 8 (List.replicate 1276 0) 1).1 := by
  have hlong : maxOpusPayloadSize < (List.replicate 1276 (0 : UInt8)).length := by
    rw [List.length_replicate]
    decide
  refine ⟨after step (fresh 1 ⟨4, 2, by decide, by decide⟩) [.pushWithSSRC 1 7 [1] 1],
    ⟨1, 4, fresh 1 ⟨4, 2, by decide, by decide⟩, _, newJitterBuffer_eq_some.2 ⟨_, rfl, rfl⟩, rfl⟩,
    (init_of_oversized hlong (by decide)).1, by decide, fun hkept => ?_⟩
  have hstopped := (@init_of_oversized (after step (fresh 1 ⟨4, 2, by decide, by decide⟩)
    [.pushWithSSRC 1 7 [1] 1]) 2 8 _ 1 hlong (by decide)).2
  rw [hkept.init] at hstopped
  exact absurd hstopped (by decide)

end Jitter

end OpenManet
