import OpenManet.Comms.Jitter.Gaps
import OpenManet.Comms.Jitter.Recovery
/-!
# Draining

A browser's playout loop takes out what it can: it repeats `PopReady` until a
call neither delivers nor skips. Every other call moves the cursor by one,
and whatever is buffered lies less than half a turn ahead of it, so the
frames are passed in time and the loop ends.

While it drains, nothing is pushed. What the first skip of a gap sees ahead
of the cursor is then what the later ones will meet, and the run it counts is
as long as the run of skips turns out to be.
-/

namespace OpenManet

namespace Jitter

open SeqNum JitterBuffer

/-! ## One pop -/

namespace JitterBuffer

variable {jb : JitterBuffer}

/-- The loop goes on: a frame, or a skip. -/
def Pop.goesOn (r : Pop) : Bool := r.skippedMissing || r.ready

/-- A pop that comes back with nothing is followed by another, where nothing
is pushed. -/
theorem goesOn_after_still (hstill : jb.popReadyLocked.2.goesOn = false) :
    jb.popReadyLocked.1.popReadyLocked.2.goesOn = false := by
  have hpops := jb.pops
  generalize hr : jb.popReadyLocked = r at hstill hpops ⊢
  cases hpops with
  | delivers hplay hat => cases hstill
  | skips hplay hmiss hhalf => cases hstill
  | waits hplay hmiss hlow =>
      have hagain := ({ jb with started := true } : JitterBuffer).pops
      generalize ({ jb with started := true } : JitterBuffer).popReadyLocked = r at hagain ⊢
      cases hagain with
      | delivers hplay hat => exact absurd (hat.symm.trans hmiss) (by decide)
      | skips _ _ hhalf => exact absurd hhalf (not_le.2 hlow)
      | waits => rfl
      | rests => rfl
  | rests hplay => rw [hr]; rfl

end JitterBuffer

/-! ## What a pop leaves -/

namespace JitterBuffer

variable {jb : JitterBuffer} {r : JitterBuffer × Pop} {i : Fin maxDepthLimit}

/-- A frame is still there, or it is the one that was returned. -/
theorem Pops.kept (h : Pops jb r) (hv : (jb.slots i).valid = true) :
    r.1.slots i = jb.slots i ∨
      r.2.ready = true ∧ (jb.slots i).seq = jb.expected ∧ r.2.payload = (jb.slots i).payload := by
  cases h with
  | delivers hplay hat =>
      by_cases hi : i = jb.depth.slotIdx jb.expected
      · subst hi
        exact .inr ⟨rfl, (atCursor_iff.1 hat).2, rfl⟩
      · exact .inl (Function.update_of_ne hi _ _)
  | skips hplay hmiss hhalf => exact .inl rfl
  | waits hplay hmiss hlow => exact .inl rfl
  | rests hplay => exact .inl rfl

/-- Whatever a pop leaves, it brings nearer by one. -/
theorem Pops.nearer (h : Pops jb r) (hinv : Inv jb) (hgo : r.2.goesOn = true)
    (hv : (r.1.slots i).valid = true) :
    dist (r.1.slots i).seq r.1.expected + 1 = dist (jb.slots i).seq jb.expected := by
  have hne : (jb.slots i).seq ≠ jb.expected := by
    intro hseq
    have hold := h.old hv
    have hv' : (jb.slots i).valid = true := by rwa [← hold]
    have hi := hinv.slot_eq i hv'
    rw [hseq] at hi
    subst hi
    cases h with
    | delivers hplay hat => exact (valid_clearCursor hv).1 rfl
    | skips hplay hmiss hhalf => rw [hinv.atCursor_of_seq_eq hv' hseq] at hmiss; cases hmiss
    | waits hplay hmiss hlow => cases hgo
    | rests hplay => cases hgo
  rw [h.old hv]
  cases h with
  | delivers hplay hat => exact dist_succ hne
  | skips hplay hmiss hhalf => exact dist_succ hne
  | waits hplay hmiss hlow => cases hgo
  | rests hplay => cases hgo

/-- A pop that returns a frame takes one from the count. -/
theorem Pops.count (h : Pops jb r) : r.1.count = jb.count - if r.2.ready then 1 else 0 := by
  cases h with
  | delivers hplay hat => rfl
  | skips hplay hmiss hhalf => exact (Int.sub_zero _).symm
  | waits hplay hmiss hlow => exact (Int.sub_zero _).symm
  | rests hplay => exact (Int.sub_zero _).symm

theorem Pops.started (h : Pops jb r) (hs : jb.started = true) : r.1.started = true := by
  cases h with
  | delivers hplay hat => rfl
  | skips hplay hmiss hhalf => rfl
  | waits hplay hmiss hlow => rfl
  | rests hplay => exact hs

/-- A pop that comes back with nothing has nothing at its cursor, and less
than half of the ring to skip for. -/
theorem Pops.spent (h : Pops jb r) (hinv : Inv jb) (hstill : r.2.goesOn = false)
    (hs : r.1.started = true) :
    r.1.atCursor = false ∧ r.1.count < ((jb.depth.maxDepth / 2 : ℕ) : ℤ) := by
  cases h with
  | delivers hplay hat => cases hstill
  | skips hplay hmiss hhalf => cases hstill
  | waits hplay hmiss hlow => exact ⟨hmiss, hlow⟩
  | rests hplay =>
      -- a started buffer plays
      rw [canPlay, hinv.init_of_started hs, hs] at hplay
      cases hplay

end JitterBuffer

/-! ## The loop -/

/-- The drain loop of `webPlayoutLoop`, with fuel: `PopReady` until it
returns neither a frame nor a skip. The calls it has made come with it. -/
def webDrain : ℕ → JitterBuffer → Option (JitterBuffer × List Event)
  | 0, _ => none
  | fuel + 1, jb =>
      let r := jb.popReadyLocked
      if r.2.goesOn then
        (webDrain fuel r.1).map fun d => (d.1, (jb, .popReady, .popped r.2) :: d.2)
      else some (r.1, [(jb, .popReady, .popped r.2)])

/-- A frame left the buffer in one of the calls. -/
def Returned (es : List Event) (s : JitterSlot) : Prop :=
  ∃ p, s.payload = some p ∧ (s.seq, p) ∈ es.filterMap delivered?

/-- What a drain leaves, and what it has returned. -/
structure Drained (jb jb' : JitterBuffer) (es : List Event) : Prop where
  spent : jb'.started = true →
    jb'.count < ((jb.depth.maxDepth / 2 : ℕ) : ℤ) ∧ jb'.atCursor = false
  started : jb.started = true → jb'.started = true
  kept : ∀ i, (jb.slots i).valid = true → jb'.slots i = jb.slots i ∨ Returned es (jb.slots i)
  count : jb'.count + (es.filterMap delivered?).length = jb.count

section Drains

variable {jb : JitterBuffer}

/-- What a call of the drain returns. -/
theorem delivered?_popReady (hinv : Inv jb) {r : JitterBuffer × Pop} (h : Pops jb r) :
    (delivered? (jb, .popReady, .popped r.2)).toList.length = (if r.2.ready then 1 else 0) := by
  cases h with
  | delivers hplay hat =>
      obtain ⟨p, hp⟩ := Option.isSome_iff_exists.1 (hinv.payload_isSome _ (atCursor_iff.1 hat).1)
      have hp' : jb.cursorSlot.payload = some p := hp
      simp [delivered?, hp']
  | skips hplay hmiss hhalf => rfl
  | waits hplay hmiss hlow => rfl
  | rests hplay => rfl

theorem returned_of_ready (hinv : Inv jb) {r : JitterBuffer × Pop} {i : Fin maxDepthLimit}
    (hv : (jb.slots i).valid = true) (hready : r.2.ready = true)
    (hseq : (jb.slots i).seq = jb.expected) (hpay : r.2.payload = (jb.slots i).payload)
    (es : List Event) : Returned ((jb, .popReady, .popped r.2) :: es) (jb.slots i) := by
  obtain ⟨p, hp⟩ := Option.isSome_iff_exists.1 (hinv.payload_isSome i hv)
  refine ⟨p, hp, ?_⟩
  have hdel : delivered? (jb, .popReady, .popped r.2) = some ((jb.slots i).seq, p) := by
    simp [delivered?, hready, hpay, hp, hseq]
  rw [List.filterMap_cons_some hdel]
  exact List.mem_cons_self

/-- **The step of the loop.** -/
theorem Drained.cons (hinv : Inv jb) {r : JitterBuffer × Pop} (h : Pops jb r) {jb' : JitterBuffer}
    {es : List Event} (hrest : Drained r.1 jb' es) :
    Drained jb jb' ((jb, .popReady, .popped r.2) :: es) where
  spent := by
    rw [← h.depth]
    exact hrest.spent
  started hs := hrest.started (h.started hs)
  kept i hv := by
    rcases h.kept hv with hsame | ⟨hready, hseq, hpay⟩
    · rcases hrest.kept i (by rwa [hsame]) with hkept | ⟨p, hp, hmem⟩
      · exact .inl (hkept.trans hsame)
      · rw [hsame] at hp hmem
        refine .inr ⟨p, hp, ?_⟩
        rw [List.filterMap_cons]
        split
        · exact hmem
        · exact List.mem_cons_of_mem _ hmem
    · exact .inr (returned_of_ready hinv hv hready hseq hpay es)
  count := by
    have hone := delivered?_popReady hinv h
    have hcount := h.count
    have hrests := hrest.count
    have hlength : (((jb, .popReady, .popped r.2) :: es).filterMap delivered?).length =
        (delivered? (jb, .popReady, .popped r.2)).toList.length +
          (es.filterMap delivered?).length := by
      rw [List.filterMap_cons]
      split
      · next hnone => rw [hnone, Option.toList_none, List.length_nil, Nat.zero_add]
      · next f hsome => rw [hsome, Option.toList_some, List.length_cons, List.length_singleton,
          Nat.add_comm]
    rw [hlength, hone]
    split at hcount
    · next hready =>
      rw [if_pos hready]
      omega
    · next hready =>
      rw [if_neg hready]
      omega

/-- The last call. -/
theorem Drained.last (hinv : Inv jb) {r : JitterBuffer × Pop} (h : Pops jb r)
    (hstill : r.2.goesOn = false) : Drained jb r.1 [(jb, .popReady, .popped r.2)] := by
  have hready : r.2.ready = false := by
    simp only [Pop.goesOn, Bool.or_eq_false_iff] at hstill
    exact hstill.2
  have hnone : [(jb, Op.popReady, Out.popped r.2)].filterMap delivered? = [] := by
    simp [delivered?, hready]
  refine ⟨fun hs => (h.spent hinv hstill hs).symm, h.started, fun i hv => ?_, ?_⟩
  · rcases h.kept hv with hsame | ⟨hyes, -⟩
    · exact .inl hsame
    · rw [hready] at hyes
      cases hyes
  · have hcount := h.count
    rw [hready] at hcount
    rw [hnone]
    simpa using hcount

/-- **The loop ends** within as many calls as the furthest frame is ahead,
and one more. -/
theorem webDrain_ends (hinv : Inv jb) (hdepth : 2 ≤ jb.depth.maxDepth) {bound : ℕ}
    (hbound : ∀ i, (jb.slots i).valid = true → dist (jb.slots i).seq jb.expected < bound) :
    ∃ jb' es, webDrain (bound + 1) jb = some (jb', es) ∧ Drained jb jb' es := by
  induction bound generalizing jb with
  | zero =>
      -- nothing is buffered, so there is nothing to deliver or to skip for
      have hempty : jb.validCount = 0 := by
        rw [validCount, Finset.card_eq_zero, Finset.filter_eq_empty_iff]
        intro i _ hv
        exact absurd (hbound i hv) (Nat.not_lt_zero _)
      have hcount : jb.count = 0 := by rw [hinv.count_eq, hempty]; rfl
      have hstill : jb.popReadyLocked.2.goesOn = false := by
        have hpops := jb.pops
        generalize jb.popReadyLocked = r at hpops ⊢
        cases hpops with
        | delivers hplay hat => exact absurd (hbound _ (atCursor_iff.1 hat).1) (Nat.not_lt_zero _)
        | skips hplay hmiss hhalf =>
            rw [hcount] at hhalf
            omega
        | waits => rfl
        | rests => rfl
      exact ⟨_, _, by rw [webDrain, hstill]; rfl, .last hinv jb.pops hstill⟩
  | succ bound ih =>
      by_cases hgo : jb.popReadyLocked.2.goesOn = true
      · have hnearer : ∀ i, (jb.popReadyLocked.1.slots i).valid = true →
            dist (jb.popReadyLocked.1.slots i).seq jb.popReadyLocked.1.expected < bound := by
          intro i hv
          have hnear := jb.pops.nearer hinv hgo hv
          have hold := jb.pops.old hv
          have hfar := hbound i (by rwa [← hold])
          omega
        have hdepth' : 2 ≤ jb.popReadyLocked.1.depth.maxDepth := by
          rw [jb.pops.depth]
          exact hdepth
        obtain ⟨jb', es, hdrain, hrest⟩ := ih hinv.popReadyLocked hdepth' hnearer
        exact ⟨jb', _, by rw [webDrain, if_pos hgo, hdrain]; rfl, .cons hinv jb.pops hrest⟩
      · have hstill : jb.popReadyLocked.2.goesOn = false := by simpa using hgo
        exact ⟨_, _, by rw [webDrain, hstill]; rfl, .last hinv jb.pops hstill⟩

end Drains

/-- **The drain loop ends**, after `32769` calls at the latest. If playout
has started it leaves less than half of the ring in use and nothing at the
cursor; a frame is still in its slot, or one of the calls has returned it. -/
theorem drain_loop_ends {jb : JitterBuffer} (hreach : Reachable jb)
    (hdepth : 2 ≤ jb.depth.maxDepth) :
    ∃ jb' es, webDrain 32769 jb = some (jb', es) ∧ Drained jb jb' es := by
  have hinv := inv_of_reachable hreach
  exact webDrain_ends hinv hdepth fun i hv => seqLess_eq_false_iff_dist.1 (hinv.ahead i hv)

/-- Three frames and a gap of one in a ring of four: the gap is skipped, and
nothing is left. -/
theorem drain_loop_ends_four :
    ∃ jb' es, webDrain 32769 (after step (fresh 1 ⟨4, 2, by decide, by decide⟩)
        [.push 0 [1] 1, .push 2 [3] 1, .push 3 [4] 1]) = some (jb', es) ∧
      Drained (after step (fresh 1 ⟨4, 2, by decide, by decide⟩)
        [.push 0 [1] 1, .push 2 [3] 1, .push 3 [4] 1]) jb' es :=
  drain_loop_ends ⟨1, 4, _, _, newJitterBuffer_eq_some.2 ⟨_, rfl, rfl⟩, rfl⟩ (by decide)

end Jitter

end OpenManet
