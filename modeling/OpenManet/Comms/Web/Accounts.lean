import Mathlib.Data.List.Perm.Basic
import OpenManet.Comms.Web.Frames
/-!
# Web mode — every frame accounted for

Wherever the calls stand, three accounts hold. A payload that was counted in
`RxPushIn` was received, is queued, was counted in `RxPushDrop`, or is in the
hands of a call that has not counted it yet: `pending`, one for the payload of
a push and one more for a frame it has evicted. A buffer that was made is in
the pool, in a queued frame, with a consumer or with a call, in one place only:
`Call.bufs`. And a frame carries what it was pushed with from the copy to its
release, since nobody writes to a buffer but the call that holds it.
-/

namespace OpenManet

namespace Web

namespace Rx

/-! ## What calls hold -/

/-- The payloads a call has yet to account for. -/
def Call.pending : Call → ℕ
  | .push _ point =>
      match point with
      | .called | .recycling _ => 0
      | .evicted _ _ => 2
      | _ => 1
  | .flushed _ => 1
  | _ => 0

/-- The buffers a call holds. -/
def Call.bufs : Call → List ℕ
  | .push _ point =>
      match point with
      | .called | .counted | .oversized => []
      | .filling buf => [buf]
      | .evicted f old | .releasing f old => [f.buf, old.buf]
      | .sending f | .evicting f | .retrying f | .refused f | .recycling f => [f.buf]
  | .flushed f | .discarding f => [f.buf]
  | _ => []

/-- The frame a push is about to send, with its payload. -/
def Call.frame : Call → Option (Payload × Frame)
  | .push p point =>
      match point with
      | .sending f | .evicting f | .evicted f _ | .releasing f _ | .retrying f => some (p, f)
      | _ => none
  | _ => none

theorem Call.buf_mem_bufs {c : Call} {p : Payload} {f : Frame} (h : c.frame = some (p, f)) :
    f.buf ∈ c.bufs := by
  cases c with
  | push q point =>
      cases point <;> simp only [Call.frame, Option.some.injEq, Prod.mk.injEq, reduceCtorEq] at h <;>
        simp [Call.bufs, h.2]
  | _ => cases h

/-- The payloads the calls have yet to account for. -/
def pending : List Call → ℕ
  | [] => 0
  | c :: cs => c.pending + pending cs

@[simp] theorem pending_nil : pending [] = 0 := rfl

@[simp] theorem pending_cons (c : Call) (cs : List Call) :
    pending (c :: cs) = c.pending + pending cs := rfl

@[simp] theorem pending_append (as bs : List Call) :
    pending (as ++ bs) = pending as + pending bs := by
  induction as with
  | nil => simp
  | cons c as ih => simp [ih, Nat.add_assoc]

/-- How often the calls hold a buffer. -/
def holds (cs : List Call) (b : ℕ) : ℕ := (cs.flatMap Call.bufs).count b

@[simp] theorem holds_nil (b : ℕ) : holds [] b = 0 := rfl

@[simp] theorem holds_cons (c : Call) (cs : List Call) (b : ℕ) :
    holds (c :: cs) b = c.bufs.count b + holds cs b := by
  simp [holds, List.count_append]

@[simp] theorem holds_append (as bs : List Call) (b : ℕ) :
    holds (as ++ bs) b = holds as b + holds bs b := by
  simp [holds, List.count_append]

theorem ne_of_holds {cs : List Call} {c : Call} {p : Payload} {f : Frame} {b : ℕ}
    (hnone : holds cs b = 0) (hc : c ∈ cs) (hf : c.frame = some (p, f)) : f.buf ≠ b := by
  rintro rfl
  exact List.count_eq_zero.1 hnone (List.mem_flatMap.2 ⟨c, hc, Call.buf_mem_bufs hf⟩)

/-! ## The accounts -/

/-- The buffers that no call holds. -/
def State.resting (s : State) : List ℕ :=
  s.pool ++ s.collected ++ (s.rxFrames.map Frame.buf ++ s.held.map (·.1.buf))

/-- The buffers, by where they are. -/
def State.owners (s : State) : List ℕ := s.resting ++ s.calls.flatMap Call.bufs

/-- What consumers have received, in order. -/
def State.received (s : State) : List Payload := (s.taken.filter Prod.fst).map Prod.snd

/-- **The accounts**, for the calls under way. -/
structure Accounted (s : State) (cs : List Call) : Prop where
  depth : s.rxFrames.length ≤ rxFrameDepth
  counted : s.rxPushIn = s.received.length + s.rxFrames.length + s.rxPushDrop + pending cs
  order : s.taken.map Prod.snd ++ s.rxFrames.map s.payload = s.entered
  owned : ∀ b, s.resting.count b + holds cs b = if b < s.made then 1 else 0
  held : ∀ x ∈ s.held, s.payload x.1 = x.2
  filled : ∀ c ∈ cs, ∀ p f, c.frame = some (p, f) → s.payload f = p

variable {s : State} {as bs cs : List Call} {c : Call} {p : Payload} {f : Frame}

/-- A counter, the pool or the place of a call changes, and the accounts stay
even. -/
theorem Accounted.move (h : Accounted s (as ++ c :: bs)) {cs : List Call} {pushIn pushDrop : ℕ}
    {pool : List ℕ} {consumers : Int32}
    (hcounted : pushIn + s.rxPushDrop + c.pending = s.rxPushIn + pushDrop + pending cs)
    (howned : ∀ b, pool.count b + holds cs b = s.pool.count b + c.bufs.count b)
    (hframe : ∀ d ∈ cs, ∀ p f, d.frame = some (p, f) → c.frame = some (p, f)) :
    Accounted { s with rxPushIn := pushIn, rxPushDrop := pushDrop, pool := pool,
                       consumers := consumers } (as ++ (cs ++ bs)) where
  depth := h.depth
  counted := by
    have hold := h.counted
    simp only [pending_append, pending_cons] at hold ⊢
    show pushIn = s.received.length + s.rxFrames.length + pushDrop + _
    omega
  order := h.order
  owned := by
    intro b
    have hold := h.owned b
    have hhere := howned b
    simp only [State.resting, List.count_append, holds_append, holds_cons] at hold ⊢
    omega
  held := h.held
  filled := by
    intro d hd p f hf
    simp only [List.mem_append] at hd
    rcases hd with hd | hd | hd
    · exact h.filled d (List.mem_append_left _ hd) p f hf
    · exact h.filled c (by simp) p f (hframe d hd p f hf)
    · exact h.filled d (by simp [hd]) p f hf

/-- **A send** hands the payload and the buffer of the push to the queue. -/
theorem Accounted.send (h : Accounted s (as ++ c :: bs)) (hroom : s.rxFrames.length < rxFrameDepth)
    (hframe : c.frame = some (p, f)) (hpending : c.pending = 1) (hbufs : c.bufs = [f.buf]) :
    Accounted { s with rxFrames := s.rxFrames ++ [f], entered := s.entered ++ [p] }
      (as ++ bs) where
  depth := by
    show (s.rxFrames ++ [f]).length ≤ rxFrameDepth
    rw [List.length_append, List.length_singleton]
    omega
  counted := by
    have hold := h.counted
    simp only [pending_append, pending_cons, hpending] at hold
    show s.rxPushIn = s.received.length + (s.rxFrames ++ [f]).length + s.rxPushDrop + _
    rw [List.length_append, List.length_singleton, pending_append]
    omega
  order := by
    have hpayload : s.payload f = p := h.filled c (by simp) p f hframe
    show _ ++ (s.rxFrames ++ [f]).map s.payload = s.entered ++ [p]
    rw [List.map_append, List.map_singleton, hpayload, ← List.append_assoc, h.order]
  owned := by
    intro b
    have hold := h.owned b
    simp only [State.resting, List.count_append, holds_append, holds_cons, hbufs, List.map_append,
      List.map_cons, List.map_nil] at hold ⊢
    omega
  held := h.held
  filled := fun d hd => h.filled d (by
    rcases List.mem_append.1 hd with hd | hd
    · exact List.mem_append_left _ hd
    · exact List.mem_append_right _ (List.mem_cons_of_mem _ hd))

/-- **An eviction** hands them from the queue to the call that evicts. -/
theorem Accounted.evict (h : Accounted s (as ++ c :: bs)) {rest : List Frame} {d : Call}
    (hqueue : s.rxFrames = f :: rest) (hpending : d.pending = c.pending + 1)
    (hbufs : d.bufs = c.bufs ++ [f.buf]) (hframe : d.frame = c.frame) :
    Accounted { s with rxFrames := rest, taken := s.taken ++ [(false, s.payload f)] }
      (as ++ d :: bs) where
  depth := by
    have hold := h.depth
    rw [hqueue, List.length_cons] at hold
    show rest.length ≤ rxFrameDepth
    omega
  counted := by
    have hold := h.counted
    have hreceived : ((s.taken ++ [(false, s.payload f)]).filter Prod.fst).map Prod.snd
        = s.received := by simp [State.received]
    simp only [pending_append, pending_cons, hqueue, List.length_cons] at hold
    show s.rxPushIn = (((s.taken ++ [(false, s.payload f)]).filter Prod.fst).map Prod.snd).length
      + rest.length + s.rxPushDrop + _
    rw [hreceived, pending_append, pending_cons, hpending]
    omega
  order := by
    have hold := h.order
    rw [hqueue, List.map_cons] at hold
    show (s.taken ++ [(false, s.payload f)]).map Prod.snd ++ rest.map s.payload = s.entered
    rw [← hold]
    simp
  owned := by
    intro b
    have hold := h.owned b
    simp only [State.resting, List.count_append, holds_append, holds_cons, hqueue, hbufs,
      List.map_cons, List.count_cons, List.count_nil] at hold ⊢
    omega
  held := h.held
  filled := by
    intro e he p g hg
    rcases List.mem_append.1 he with he | he
    · exact h.filled e (List.mem_append_left _ he) p g hg
    rcases List.mem_cons.1 he with rfl | he
    · exact h.filled c (by simp) p g (hframe ▸ hg)
    · exact h.filled e (by simp [he]) p g hg

/-- Writing to a buffer changes only what its frames carry. -/
theorem payload_write {t : State} {b : ℕ} {bytes : List UInt8}
    (hmem : t.mem = Function.update s.mem b bytes) (hne : f.buf ≠ b) : t.payload f = s.payload f := by
  rw [State.payload, State.payload, hmem, Function.update_of_ne hne]

/-- **A write** to a buffer that no frame is in leaves the accounts alone. -/
theorem Accounted.write (h : Accounted s (as ++ c :: bs)) {t : State} {b : ℕ} {bytes : List UInt8}
    (hmem : t.mem = Function.update s.mem b bytes) (hresting : s.resting.count b = 0)
    (hothers : holds (as ++ bs) b = 0) :
    s.rxFrames.map t.payload = s.rxFrames.map s.payload ∧
      (∀ x ∈ s.held, t.payload x.1 = x.2) ∧
      ∀ d ∈ as ++ bs, ∀ p f, d.frame = some (p, f) → t.payload f = p := by
  simp only [State.resting, List.count_append, Nat.add_eq_zero_iff, List.count_eq_zero] at hresting
  obtain ⟨-, hqueued, hheld⟩ := hresting
  refine ⟨List.map_congr_left fun f hf => ?_, fun x hx => ?_, fun d hd p f hf => ?_⟩
  · exact payload_write hmem fun heq => hqueued (heq ▸ List.mem_map_of_mem hf)
  · rw [payload_write hmem fun heq => hheld (heq ▸ List.mem_map.2 ⟨x, hx, rfl⟩)]
    exact h.held x hx
  · rw [payload_write hmem (ne_of_holds hothers hd hf)]
    refine h.filled d ?_ p f hf
    rcases List.mem_append.1 hd with hd | hd
    · exact List.mem_append_left _ hd
    · exact List.mem_append_right _ (List.mem_cons_of_mem _ hd)

/-- A call goes on with the buffer it has, or has asked for, once that is written. -/
theorem Accounted.rewrite (h : Accounted s (as ++ c :: bs)) {c' : Call} {made buf : ℕ}
    {bytes : List UInt8} (hresting : s.resting.count buf = 0) (hothers : holds (as ++ bs) buf = 0)
    (hpending : c'.pending = c.pending)
    (howned : ∀ b, s.resting.count b + holds (as ++ c' :: bs) b = if b < made then 1 else 0)
    (hframe : ∀ p f, c'.frame = some (p, f) →
      State.payload { s with mem := Function.update s.mem buf bytes } f = p) :
    Accounted { s with made := made, mem := Function.update s.mem buf bytes }
      (as ++ c' :: bs) := by
  obtain ⟨hqueue, hheld, hfilled⟩ := h.write (t := { s with
    made := made, mem := Function.update s.mem buf bytes }) rfl hresting hothers
  refine ⟨h.depth, ?_, ?_, howned, hheld, fun d hd p f hf => ?_⟩
  · have hold := h.counted
    simp only [pending_append, pending_cons, hpending] at hold ⊢
    exact hold
  · rw [hqueue]
    exact h.order
  · rcases List.mem_append.1 hd with hd | hd
    · exact hfilled d (List.mem_append_left _ hd) p f hf
    rcases List.mem_cons.1 hd with rfl | hd
    · exact hframe p f hf
    · exact hfilled d (List.mem_append_right _ hd) p f hf

/-- **A new buffer** goes to the call that asked for it. -/
theorem Accounted.make (h : Accounted s (as ++ .push p .counted :: bs)) (bytes : List UInt8) :
    Accounted { s with made := s.made + 1, mem := Function.update s.mem s.made bytes }
      (as ++ .push p (.filling s.made) :: bs) := by
  have hnew := h.owned s.made
  simp only [Nat.lt_irrefl, if_false, holds_append, holds_cons] at hnew
  refine h.rewrite (by omega) (by rw [holds_append]; omega) rfl (fun b => ?_) fun p f hf => ?_
  · have hold := h.owned b
    simp only [State.resting, holds_append, holds_cons, Call.bufs, List.count_nil,
      List.count_singleton, beq_iff_eq] at hold hnew ⊢
    split at hold <;> split <;> split <;> omega
  · cases hf

/-- **The copy** makes a frame of the buffer that carries the payload. -/
theorem Accounted.fill {buf : ℕ} (h : Accounted s (as ++ .push p (.filling buf) :: bs)) :
    Accounted { s with
        mem := Function.update s.mem buf (p.opusData ++ (s.mem buf).drop p.opusData.length) }
      (as ++ .push p (.sending ⟨buf, p.opusData.length, p.ch⟩) :: bs) := by
  have hone := h.owned buf
  have hbufs : (Call.push p (.filling buf)).bufs.count buf = 1 := by simp [Call.bufs]
  simp only [holds_append, holds_cons, hbufs] at hone
  have hle : (if buf < s.made then 1 else 0) ≤ 1 := by split <;> omega
  refine h.rewrite (by omega) (by rw [holds_append]; omega) rfl (fun b => ?_) fun p f hf => ?_
  · have hold := h.owned b
    simp only [holds_append, holds_cons] at hold ⊢
    exact hold
  · simp only [Call.frame, Option.some.injEq, Prod.mk.injEq] at hf
    obtain ⟨rfl, rfl⟩ := hf
    simp [State.payload]

/-! ## One step -/

theorem count_eraseIdx {l : List ℕ} {i buf : ℕ} (h : l[i]? = some buf) (b : ℕ) :
    (l.eraseIdx i).count b + [buf].count b = l.count b := by
  obtain ⟨hi, rfl⟩ := List.getElem?_eq_some_iff.1 h
  have hperm := (List.getElem_cons_eraseIdx_perm hi).count_eq b
  rw [List.count_cons] at hperm
  rw [List.count_singleton]
  omega

/-- A send that finds room, or none. -/
theorem send_cases (s : State) (p : Payload) (f : Frame) :
    (s.rxFrames.length < rxFrameDepth ∧ s.send p f =
      some { s with rxFrames := s.rxFrames ++ [f], entered := s.entered ++ [p] }) ∨
    s.send p f = none := by
  unfold State.send
  split
  · next hroom => exact .inl ⟨hroom, rfl⟩
  · exact .inr rfl

/-- A receive that finds a frame, or none. -/
theorem receive_cases (s : State) (consumer : Bool) :
    (∃ f rest, s.rxFrames = f :: rest ∧ s.receive consumer =
      some (f, { s with rxFrames := rest, taken := s.taken ++ [(consumer, s.payload f)] })) ∨
    s.receive consumer = none := by
  unfold State.receive
  cases hqueue : s.rxFrames with
  | nil => exact .inr rfl
  | cons f rest => exact .inl ⟨f, rest, rfl, rfl⟩

/-- A push, one point at a time. -/
theorem Accounted.stepPush {point : Point} {pick : Option ℕ} {s' : State} {point' : Option Point}
    (h : Accounted s (as ++ .push p point :: bs))
    (hstep : Rx.stepPush s pick p point = some (s', point')) :
    Accounted s' (as ++ ((point'.map (Call.push p)).toList ++ bs)) := by
  cases point with
  | called =>
      simp only [Rx.stepPush, Option.some.injEq, Prod.mk.injEq] at hstep
      obtain ⟨rfl, rfl⟩ := hstep
      exact h.move (by simp [Call.pending]; omega) (by simp [Call.bufs]) (by simp [Call.frame])
  | counted =>
      simp only [Rx.stepPush] at hstep
      split at hstep
      · obtain ⟨rfl, rfl⟩ := by simpa using hstep
        exact h.move (by simp [Call.pending]) (by simp [Call.bufs]) (by simp [Call.frame])
      split at hstep
      · obtain ⟨rfl, rfl⟩ := by simpa using hstep
        exact h.make _
      · obtain ⟨buf, hbuf, heq⟩ := Option.map_eq_some_iff.1 hstep
        obtain ⟨rfl, rfl⟩ := by simpa using heq
        refine h.move (by simp [Call.pending]) (fun b => ?_) (by simp [Call.frame])
        have hcount := count_eraseIdx hbuf b
        simpa [Call.bufs] using hcount
  | oversized =>
      simp only [Rx.stepPush, Option.some.injEq, Prod.mk.injEq] at hstep
      obtain ⟨rfl, rfl⟩ := hstep
      exact h.move (by simp [Call.pending]; omega) (by simp [Call.bufs]) (by simp)
  | filling buf =>
      simp only [Rx.stepPush, Option.some.injEq, Prod.mk.injEq] at hstep
      obtain ⟨rfl, rfl⟩ := hstep
      exact h.fill
  | sending f | retrying f =>
      simp only [Rx.stepPush] at hstep
      rcases send_cases s p f with ⟨hroom, hsend⟩ | hsend
      · obtain ⟨rfl, rfl⟩ := by simpa [hsend] using hstep
        exact h.send hroom rfl rfl rfl
      · obtain ⟨rfl, rfl⟩ := by simpa [hsend] using hstep
        exact h.move (by simp [Call.pending]) (by simp [Call.bufs]) (by simp [Call.frame])
  | evicting f =>
      simp only [Rx.stepPush] at hstep
      rcases receive_cases s false with ⟨old, rest, hqueue, hreceive⟩ | hreceive
      · obtain ⟨rfl, rfl⟩ := by simpa [hreceive] using hstep
        exact h.evict hqueue rfl rfl rfl
      · obtain ⟨rfl, rfl⟩ := by simpa [hreceive] using hstep
        exact h.move (by simp [Call.pending]) (by simp [Call.bufs]) (by simp [Call.frame])
  | evicted f old =>
      simp only [Rx.stepPush, Option.some.injEq, Prod.mk.injEq] at hstep
      obtain ⟨rfl, rfl⟩ := hstep
      exact h.move (by simp [Call.pending]; omega) (by simp [Call.bufs]) (by simp [Call.frame])
  | releasing f old =>
      simp only [Rx.stepPush, Option.some.injEq, Prod.mk.injEq] at hstep
      obtain ⟨rfl, rfl⟩ := hstep
      refine h.move (by simp [Call.pending]) (fun b => ?_) (by simp [Call.frame])
      simp only [Call.bufs, List.count_append, Option.map_some, Option.toList_some, holds_cons,
        holds_nil, List.count_cons, List.count_nil]
      omega
  | refused f =>
      simp only [Rx.stepPush, Option.some.injEq, Prod.mk.injEq] at hstep
      obtain ⟨rfl, rfl⟩ := hstep
      exact h.move (by simp [Call.pending]; omega) (by simp [Call.bufs]) (by simp [Call.frame])
  | recycling f =>
      simp only [Rx.stepPush, Option.some.injEq, Prod.mk.injEq] at hstep
      obtain ⟨rfl, rfl⟩ := hstep
      exact h.move (by simp [Call.pending]) (by simp [Call.bufs]) (by simp)

/-- Every call keeps the accounts. -/
theorem Accounted.stepCall {pick : Option ℕ} {s' : State} {c' : Option Call}
    (h : Accounted s (as ++ c :: bs)) (hstep : Rx.stepCall s pick c = some (s', c')) :
    Accounted s' (as ++ (c'.toList ++ bs)) := by
  cases c with
  | push p point =>
      obtain ⟨⟨t, point'⟩, hpush, heq⟩ := Option.map_eq_some_iff.1 hstep
      obtain ⟨rfl, rfl⟩ := Prod.mk.inj heq
      exact h.stepPush hpush
  | add =>
      simp only [Rx.stepCall, Option.some.injEq, Prod.mk.injEq] at hstep
      obtain ⟨rfl, rfl⟩ := hstep
      split
      · exact h.move (by simp [Call.pending]) (by simp [Call.bufs]) (by simp)
      · exact h.move (by simp [Call.pending]) (by simp [Call.bufs]) (by simp [Call.frame])
  | flushing =>
      simp only [Rx.stepCall] at hstep
      rcases receive_cases s false with ⟨f, rest, hqueue, hreceive⟩ | hreceive
      · obtain ⟨rfl, rfl⟩ := by simpa [hreceive] using hstep
        exact h.evict hqueue rfl rfl rfl
      · obtain ⟨rfl, rfl⟩ := by simpa [hreceive] using hstep
        exact h.move (by simp [Call.pending]) (by simp [Call.bufs]) (by simp)
  | flushed f =>
      simp only [Rx.stepCall, Option.some.injEq, Prod.mk.injEq] at hstep
      obtain ⟨rfl, rfl⟩ := hstep
      exact h.move (by simp [Call.pending]; omega) (by simp [Call.bufs]) (by simp [Call.frame])
  | discarding f =>
      simp only [Rx.stepCall, Option.some.injEq, Prod.mk.injEq] at hstep
      obtain ⟨rfl, rfl⟩ := hstep
      exact h.move (by simp [Call.pending]) (by simp [Call.bufs]) (by simp [Call.frame])
  | remove =>
      simp only [Rx.stepCall, Option.some.injEq, Prod.mk.injEq] at hstep
      obtain ⟨rfl, rfl⟩ := hstep
      exact h.move (by simp [Call.pending]) (by simp [Call.bufs]) (by simp)

/-! ## Runs -/

/-- The accounts do not ask which calls the state lists. -/
theorem Accounted.setCalls (h : Accounted s cs) (calls : List Call) :
    Accounted { s with calls := calls } cs :=
  ⟨h.depth, h.counted, h.order, h.owned, h.held, h.filled⟩

/-- A call that has not moved yet has nothing to account for. -/
theorem Accounted.begin (h : Accounted s cs) (hpending : c.pending = 0) (hbufs : c.bufs = [])
    (hframe : c.frame = none) : Accounted s (cs ++ [c]) where
  depth := h.depth
  counted := by
    rw [pending_append, pending_cons, hpending, pending_nil]
    exact h.counted
  order := h.order
  owned := fun b => by
    rw [holds_append, holds_cons, hbufs, holds_nil]
    exact h.owned b
  held := h.held
  filled := by
    intro d hd p f hf
    rcases List.mem_append.1 hd with hd | hd
    · exact h.filled d hd p f hf
    · rw [List.mem_singleton.1 hd, hframe] at hf
      cases hf

/-- **A consumer's receive** hands payload and buffer from the queue to it. -/
theorem Accounted.receive (h : Accounted s cs) {rest : List Frame} (hqueue : s.rxFrames = f :: rest) :
    Accounted { s with rxFrames := rest, taken := s.taken ++ [(true, s.payload f)],
                       held := s.held ++ [(f, s.payload f)] } cs where
  depth := by
    have hold := h.depth
    rw [hqueue, List.length_cons] at hold
    show rest.length ≤ rxFrameDepth
    omega
  counted := by
    have hold := h.counted
    have hreceived : (((s.taken ++ [(true, s.payload f)]).filter Prod.fst).map Prod.snd).length
        = s.received.length + 1 := by simp [State.received]
    rw [hqueue, List.length_cons] at hold
    show s.rxPushIn = (((s.taken ++ [(true, s.payload f)]).filter Prod.fst).map Prod.snd).length
      + rest.length + s.rxPushDrop + _
    omega
  order := by
    have hold := h.order
    rw [hqueue, List.map_cons] at hold
    show (s.taken ++ [(true, s.payload f)]).map Prod.snd ++ rest.map s.payload = s.entered
    rw [← hold]
    simp
  owned := by
    intro b
    have hold := h.owned b
    simp only [State.resting, List.count_append, hqueue, List.map_append, List.map_cons,
      List.map_nil, List.count_cons, List.count_nil] at hold ⊢
    omega
  held := by
    intro x hx
    rcases List.mem_append.1 hx with hx | hx
    · exact h.held x hx
    · rw [List.mem_singleton.1 hx]
      rfl
  filled := h.filled

/-- **A consumer's release** hands the buffer on to the pool. -/
theorem Accounted.release (h : Accounted s cs) {i : ℕ} {x : Frame × Payload}
    (hx : s.held[i]? = some x) :
    Accounted { s.put x.1.buf with held := s.held.eraseIdx i } cs where
  depth := h.depth
  counted := h.counted
  order := h.order
  owned := by
    intro b
    have hold := h.owned b
    have hmap : (s.held.map (·.1.buf))[i]? = some x.1.buf := by rw [List.getElem?_map, hx]; rfl
    have hcount := count_eraseIdx hmap b
    rw [List.eraseIdx_map] at hcount
    show _ + holds cs b = if b < s.made then 1 else 0
    simp only [State.resting, State.put, List.count_append] at hold ⊢
    omega
  held := fun y hy => h.held y (List.mem_of_mem_eraseIdx hy)
  filled := h.filled

/-- The pool may let go of what is in it. -/
theorem Accounted.collect (h : Accounted s cs) {i buf : ℕ} (hbuf : s.pool[i]? = some buf) :
    Accounted { s with pool := s.pool.eraseIdx i, collected := s.collected ++ [buf] } cs where
  depth := h.depth
  counted := h.counted
  order := h.order
  owned := by
    intro b
    have hold := h.owned b
    have hcount := count_eraseIdx hbuf b
    simp only [State.resting, List.count_append] at hold ⊢
    omega
  held := h.held
  filled := h.filled

theorem accounted_fresh : Accounted fresh fresh.calls where
  depth := by decide
  counted := rfl
  order := rfl
  owned := fun b => by simp [State.resting, fresh]
  held := by simp [fresh]
  filled := by simp [fresh]

/-- Every action keeps the accounts. -/
theorem Accounted.step {a : Action} {s' : State} (h : Accounted s s.calls)
    (hstep : Rx.step s a = some s') : Accounted s' s'.calls := by
  cases a with
  | push p =>
      obtain rfl := by simpa [Rx.step] using hstep
      exact (h.begin rfl rfl rfl).setCalls _
  | add =>
      obtain rfl := by simpa [Rx.step] using hstep
      exact (h.begin rfl rfl rfl).setCalls _
  | remove =>
      obtain rfl := by simpa [Rx.step] using hstep
      exact (h.begin rfl rfl rfl).setCalls _
  | move i pick =>
      simp only [Rx.step] at hstep
      split at hstep
      · next c hc =>
          obtain ⟨⟨t, c'⟩, hcall, rfl⟩ := Option.map_eq_some_iff.1 hstep
          obtain ⟨hi, rfl⟩ := List.getElem?_eq_some_iff.1 hc
          have hsplit : s.calls = s.calls.take i ++ s.calls[i] :: s.calls.drop (i + 1) := by simp
          rw [hsplit] at h
          exact (h.stepCall hcall).setCalls _
      · cases hstep
  | receive =>
      simp only [Rx.step] at hstep
      rcases receive_cases s true with ⟨f, rest, hqueue, hreceive⟩ | hreceive
      · obtain rfl := by simpa [hreceive] using hstep
        exact h.receive hqueue
      · rw [hreceive] at hstep
        cases hstep
  | release i =>
      obtain ⟨x, hx, rfl⟩ := Option.map_eq_some_iff.1 hstep
      exact h.release hx
  | collect i =>
      obtain ⟨buf, hbuf, rfl⟩ := Option.map_eq_some_iff.1 hstep
      exact h.collect hbuf

/-- **The bridge's accounts.** Whatever the interleaving, the queue is never
deeper than its ten frames; what came out and what is queued is what went in,
in that order, with the bytes and the channel it was pushed with, which a
consumer's frame keeps until it is released; with no call under way every
payload that was counted in was received, is queued or was counted as dropped;
and every buffer there is has one place. -/
theorem rxFrames_accounted {actions : List Action} {s : State} (h : Run step fresh actions s) :
    s.rxFrames.length ≤ rxFrameDepth ∧
      s.taken.map Prod.snd ++ s.rxFrames.map s.payload = s.entered ∧
      (∀ x ∈ s.held, s.payload x.1 = x.2) ∧
      (s.calls = [] → s.rxPushIn = s.received.length + s.rxFrames.length + s.rxPushDrop) ∧
      s.owners.Perm (List.range s.made) := by
  have hacc : Accounted s s.calls := 
    h.invariant_of_step (I := fun s => Accounted s s.calls) accounted_fresh
      fun _ _ _ hacc => hacc.step
  refine ⟨hacc.depth, hacc.order, hacc.held, fun hidle => ?_, List.perm_iff_count.2 fun b => ?_⟩
  · simpa [hidle] using hacc.counted
  · have howned := hacc.owned b
    rw [List.count_range, State.owners, List.count_append]
    exact howned

/-- A full channel: the eleventh push evicts the first, and a consumer receives
the second. -/
theorem rxFrames_accounted_eviction : ∃ s : State, s.rxFrames.length = 9 ∧ s.received = [⟨2, [2]⟩] ∧
    s.rxPushIn = 11 ∧ s.rxPushDrop = 1 ∧ s.owners.Perm (List.range s.made) := by
  have hrun : Run step fresh (((List.range 10).flatMap fun k =>
      [.push ⟨UInt8.ofNat (k + 1), [UInt8.ofNat (k + 1)]⟩, .move 0 none, .move 0 none,
        .move 0 none, .move 0 none]) ++
      [.push ⟨11, [11]⟩, .move 0 none, .move 0 none, .move 0 none, .move 0 none, .move 0 none,
        .move 0 none, .move 0 none, .move 0 none, .receive]) _ := Run.of_foldlM rfl
  exact ⟨_, by decide +kernel, by decide +kernel, rfl, rfl, (rxFrames_accounted hrun).2.2.2.2⟩

end Rx

end Web

end OpenManet
