import OpenManet.Frontend.Ring.Alone
import OpenManet.Frontend.Ring.Invariant
/-!
# The browser — runs of the ring

`Sound` is what a run of the two sides leaves whatever their order: the frames
are stored or dropped one by one as they come, what is heard is a beginning of
what is stored, the fill leaves one cell free, and every read is honest.

The two counters are cells of 32 bits. They count exactly up to `2 ^ 31`, and a
ring that is read while nobody speaks gets there: `underrunSamples` has wrapped
after twelve and a half hours of it at 48 kHz.
-/

namespace OpenManet

namespace RingBuffer

open OpenManet.Ring

variable {α : Type} {R : ℕ}

/-! ## The calls -/

/-- The frame the writer is at. -/
def Writer.frame : Writer α → List (List α)
  | .availWr src | .availRd src _ | .drop src | .loadWr src | .copy src _ _ | .storeWr src _ => [src]
  | _ => []

/-- The read the reader is at. -/
def Reader.asked : Reader α → List ℕ
  | .idle => []
  | .flag count _ | .availWr count _ | .availRd count _ _ _ | .loadRd count _ _
  | .copy count _ _ _ _ | .storeRd count _ _ _ _ | .underrun count _ _ _ => [count]

/-- The frame a call brings. -/
def Action.frame : Action α → Option (List α)
  | .ringWrite src => some src
  | _ => none

/-- How much a call asks for. -/
def Action.asked : Action α → Option ℕ
  | .ringRead count | .process count => some count
  | _ => none

@[simp] theorem Writer.frame_copying (src : List α) (wr : ℤ) (i : ℕ) :
    (copying src wr i).frame = [src] := by
  unfold copying
  split <;> rfl

@[simp] theorem Reader.asked_copying (count : ℕ) (n rd : ℤ) (dst : List α) (available : ℕ) :
    (copying count n rd dst available).asked = [count] := by
  unfold copying
  split <;> rfl

/-- The writer is done with the frame it is at, or it is not. -/
theorem frame_writerStep {m m' : Mem α} {w w' : Writer α} {done : Option (List α × Bool)}
    (hstep : writerStep R m w = some (m', w', done)) :
    done.toList.map (·.1) ++ w'.frame = w.frame := by
  cases w with
  | idle => simp [writerStep] at hstep
  | copy src wr i =>
      simp only [writerStep] at hstep
      split at hstep
      · simp only [Option.some.injEq, Prod.mk.injEq] at hstep
        obtain ⟨rfl, rfl, rfl⟩ := hstep
        simp [Writer.frame_copying, show (Writer.copy src wr i).frame = [src] from rfl]
      · simp at hstep
  | _ =>
      simp only [writerStep, Option.some.injEq, Prod.mk.injEq] at hstep
      obtain ⟨rfl, rfl, rfl⟩ := hstep
      first
        | rfl
        | exact Writer.frame_copying _ _ _
        | split <;> rfl

/-- The reader is done with the read it is at, or it is not. -/
theorem asked_readerStep [Zero α] {m m' : Mem α} {r r' : Reader α} {done : Option (Read α)}
    {stored consumed consumed' : ℕ}
    (hstep : readerStep R m stored consumed r = some (m', r', done, consumed')) :
    done.toList.map (·.count) ++ r'.asked = r.asked := by
  cases r with
  | idle => simp [readerStep] at hstep
  | flag count twice | storeRd count n rd dst available =>
      simp only [readerStep] at hstep
      split at hstep <;>
      · simp only [Option.some.injEq, Prod.mk.injEq] at hstep
        obtain ⟨rfl, rfl, rfl, rfl⟩ := hstep
        rfl
  | availRd count twice wr stored' =>
      simp only [readerStep, Option.some.injEq, Prod.mk.injEq] at hstep
      obtain ⟨rfl, rfl, rfl, rfl⟩ := hstep
      split
      · rfl
      · exact Reader.asked_copying _ _ _ _ _
  | _ =>
      simp only [readerStep, Option.some.injEq, Prod.mk.injEq] at hstep
      obtain ⟨rfl, rfl, rfl, rfl⟩ := hstep
      first
        | rfl
        | exact Reader.asked_copying _ _ _ _ _

variable [Zero α]

namespace State

/-- The frames the writer has been given. -/
def frames (s : State α) : List (List α) := s.written.map (·.1) ++ s.writer.frame

/-- What the reader has been asked for. -/
def asked (s : State α) : List ℕ := s.reads.map (·.count) ++ s.reader.asked

end State

theorem step_frames {s t : State α} {a : Action α} (h : step R s a = some t) :
    t.frames = s.frames ++ a.frame.toList := by
  cases a with
  | ringWrite src =>
      simp only [step] at h
      split at h
      · rename_i hidle
        obtain rfl := Option.some.inj h
        simp [State.frames, hidle, Writer.frame, Action.frame]
      · simp at h
  | writer =>
      simp only [step, Option.map_eq_some_iff, Prod.exists] at h
      obtain ⟨m, w, done, hstep, rfl⟩ := h
      simp [State.frames, ← frame_writerStep hstep, Action.frame]
  | init =>
      obtain rfl := Option.some.inj h
      simp [State.frames, Action.frame]
  | ringRead count =>
      simp only [step] at h
      split at h
      · obtain rfl := Option.some.inj h
        simp [State.frames, Action.frame]
      · simp at h
  | process count =>
      simp only [step] at h
      split at h
      · split at h <;>
        · obtain rfl := Option.some.inj h
          simp [State.frames, Action.frame]
      · simp at h
  | reader =>
      simp only [step, Option.map_eq_some_iff, Prod.exists] at h
      obtain ⟨m, r, done, consumed, -, rfl⟩ := h
      simp [State.frames, Action.frame]

theorem step_asked {s t : State α} {a : Action α} (h : step R s a = some t) :
    t.asked = s.asked ++ a.asked.toList := by
  cases a with
  | ringWrite src =>
      simp only [step] at h
      split at h
      · obtain rfl := Option.some.inj h
        simp [State.asked, Action.asked]
      · simp at h
  | writer =>
      simp only [step, Option.map_eq_some_iff, Prod.exists] at h
      obtain ⟨m, w, done, -, rfl⟩ := h
      simp [State.asked, Action.asked]
  | init =>
      obtain rfl := Option.some.inj h
      simp [State.asked, Action.asked]
  | ringRead count =>
      simp only [step] at h
      split at h
      · rename_i hidle
        obtain rfl := Option.some.inj h
        simp [State.asked, hidle, Reader.asked, Action.asked]
      · simp at h
  | process count =>
      simp only [step] at h
      split at h
      · rename_i hidle
        split at h <;>
        · obtain rfl := Option.some.inj h
          simp [State.asked, hidle, Reader.asked, Action.asked, silent]
      · simp at h
  | reader =>
      simp only [step, Option.map_eq_some_iff, Prod.exists] at h
      obtain ⟨m, r, done, consumed, hstep, rfl⟩ := h
      have hasked := asked_readerStep hstep
      simp [State.asked, Action.asked, hasked]

/-! ## The invariant -/

/-- **What every state of a run satisfies.** -/
structure Inv (R : ℕ) (s : State α) : Prop where
  writing : Writing R s.mem s.stored s.consumed s.writer
  reading : Reading R s.mem s.stored s.consumed s.reader s.heard
  honest : ∀ e ∈ s.reads, e.Honest
  flagged : ∀ e ∈ s.reads, e.flagged = true → s.mem.prefilled ≠ 0
  /-- The flag is never taken back. -/
  order : s.reads.Pairwise fun e e' => e.flagged = true → e'.flagged = true
  drops : s.mem.droppedFrames = toInt32 s.drops
  short : s.mem.underrunSamples = toInt32 s.short

/-- The worklet is run with its ring, or before the flag is set. -/
def Attached (s : State α) : Action α → Prop
  | .process _ => s.attached = true ∨ s.mem.prefilled = 0
  | _ => True

instance (s : State α) (a : Action α) : Decidable (Attached s a) := by
  cases a <;> unfold Attached <;> infer_instance

theorem inv_created (hR : 2 ≤ R) : Inv R (State.created : State α) where
  writing := ⟨by simp [State.created, State.stored, Writer.claim]; omega,
    by simp [State.created, State.stored, Mem.created, slot], holds_nil _ _, trivial⟩
  reading := ⟨Nat.zero_le _, by simp [State.created, Mem.created, slot], trivial, rfl⟩
  honest := by simp [State.created]
  flagged := by simp [State.created]
  order := by simp [State.created]
  drops := by simp [State.created, Mem.created, State.drops, toInt32]
  short := by simp [State.created, Mem.created, State.short, toInt32]

omit [Zero α] in
/-- One more read in the log. -/
theorem order_append {reads : List (Read α)} {e : Read α} {prefilled : ℤ}
    (horder : reads.Pairwise fun e e' => e.flagged = true → e'.flagged = true)
    (hflagged : ∀ e ∈ reads, e.flagged = true → prefilled ≠ 0)
    (he : prefilled ≠ 0 → e.flagged = true) :
    (reads ++ [e]).Pairwise fun e e' => e.flagged = true → e'.flagged = true := by
  refine List.pairwise_append.2 ⟨horder, List.pairwise_singleton _ _, fun e' he' e'' he'' hset => ?_⟩
  obtain rfl := List.mem_singleton.1 he''
  exact he (hflagged e' he' hset)

omit [Zero α] in
/-- What a read in the log counts for. -/
theorem short_append (reads : List (Read α)) (done : Option (Read α)) :
    ((reads ++ done.toList).map fun r => if r.playing then r.count - r.real else 0).sum =
      (reads.map fun r => if r.playing then r.count - r.real else 0).sum + lacking done := by
  rw [List.map_append, List.sum_append, lacking]

/-- **One step keeps it.** -/
theorem Inv.step {s t : State α} {a : Action α} (hfits : R ≤ 2 ^ 31) (h : Inv R s)
    (hattached : Attached s a) (hstep : RingBuffer.step R s a = some t) : Inv R t := by
  obtain ⟨hwriting, hreading, hhonest, hflagged, horder, hdrops, hshort⟩ := h
  cases a with
  | ringWrite src =>
      simp only [RingBuffer.step] at hstep
      split at hstep
      · rename_i hidle
        obtain rfl := Option.some.inj hstep
        rw [hidle] at hwriting
        exact ⟨⟨hwriting.room, hwriting.index, hwriting.cells, trivial⟩, hreading, hhonest, hflagged,
          horder, hdrops, hshort⟩
      · simp at hstep
  | writer =>
      simp only [RingBuffer.step, Option.map_eq_some_iff, Prod.exists] at hstep
      obtain ⟨m, w, done, hwriter, rfl⟩ := hstep
      obtain ⟨hwriting', hrd, hflag, hunder, hdrop⟩ :=
        hwriting.step hfits hreading.le hreading.index hwriter
      have hstored : (s.written ++ done.toList |>.filter (·.2)).flatMap (·.1) =
          s.stored ++ kept done := by
        rw [List.filter_append, List.flatMap_append]
        rfl
      have htake : (s.stored ++ kept done).take s.consumed = s.stored.take s.consumed :=
        List.take_append_of_le_length hreading.le
      refine ⟨?_, ?_, hhonest, fun e he hset => hflag (hflagged e he hset), horder, ?_, ?_⟩
      · show Writing R m (List.flatMap _ _) _ w
        rw [hstored]
        exact hwriting'
      · show Reading R m (List.flatMap _ _) _ _ _
        rw [hstored]
        refine ⟨?_, hrd.trans hreading.index, hreading.placed.append hflag _, ?_⟩
        · rw [List.length_append]
          exact hreading.le.trans (Nat.le_add_right _ _)
        · rw [htake]
          exact hreading.heard
      · rw [hdrop _ hdrops]
        simp [State.drops, lost]
      · exact hunder.trans hshort
  | init =>
      obtain rfl := Option.some.inj hstep
      exact ⟨hwriting, hreading, hhonest, hflagged, horder, hdrops, hshort⟩
  | ringRead count =>
      simp only [RingBuffer.step] at hstep
      split at hstep
      · rename_i hidle
        obtain rfl := Option.some.inj hstep
        rw [hidle] at hreading
        exact ⟨hwriting, ⟨hreading.le, hreading.index, trivial, hreading.heard⟩, hhonest, hflagged,
          horder, hdrops, hshort⟩
      · simp at hstep
  | process count =>
      simp only [RingBuffer.step] at hstep
      split at hstep
      · rename_i hidle
        split at hstep
        · obtain rfl := Option.some.inj hstep
          rw [hidle] at hreading
          exact ⟨hwriting, ⟨hreading.le, hreading.index, trivial, hreading.heard⟩, hhonest, hflagged,
            horder, hdrops, hshort⟩
        · -- The worklet has no ring, and the flag is not set either.
          rename_i hnone
          obtain rfl := Option.some.inj hstep
          have hunset : s.mem.prefilled = 0 := hattached.resolve_left hnone
          have hfalse : decide (s.mem.prefilled ≠ 0) = false := by simp [hunset]
          rw [hfalse]
          refine ⟨hwriting, ⟨hreading.le, hreading.index, hreading.placed, ?_⟩, ?_, ?_, ?_, hdrops, ?_⟩
          · have hheard : ∀ available, s.heard ++ fromRing (some (silent count available false)) =
                s.heard := by simp [fromRing, silent]
            show (s.reads ++ [_]).flatMap _ ++ _ = _
            rw [List.flatMap_append]
            exact (congrArg (· ++ _) (hheard _)).trans hreading.heard
          · intro e he
            rcases List.mem_append.1 he with he | he
            · exact hhonest e he
            · obtain rfl := List.mem_singleton.1 he
              exact silent_honest _ _
          · intro e he hset
            rcases List.mem_append.1 he with he | he
            · exact hflagged e he hset
            · obtain rfl := List.mem_singleton.1 he
              simp [silent] at hset
          · exact order_append horder hflagged fun hset => absurd hunset hset
          · rw [hshort]
            simp [State.short, silent]
      · simp at hstep
  | reader =>
      simp only [RingBuffer.step, Option.map_eq_some_iff, Prod.exists] at hstep
      obtain ⟨m, r, done, consumed, hreader, rfl⟩ := hstep
      have hcells : Holds s.mem.ring R s.stored s.consumed :=
        hwriting.cells.of_prefix (List.prefix_append _ _)
      have hroom := hwriting.room
      obtain ⟨hreading', hle, hring, hwr, hflag, hdrop, hdone, hunder⟩ :=
        hreading.step hfits hwriting.index (by omega) hcells hreader
      refine ⟨⟨hroom.trans_le (Nat.add_le_add_right hle R), hwr.trans hwriting.index, ?_,
        hwriting.placed⟩, ?_, ?_, ?_, ?_, hdrop.trans hdrops, ?_⟩
      · show Holds m.ring R _ consumed
        rw [hring]
        exact hwriting.cells.of_le hle
      · have hheard : ((s.reads ++ done.toList).flatMap fun r => r.dst.take r.real) =
            s.heard ++ fromRing done := List.flatMap_append
        show Reading R m _ consumed r (List.flatMap _ _)
        rw [hheard]
        exact hreading'
      · intro e he
        rcases List.mem_append.1 he with he | he
        · exact hhonest e he
        · exact (hdone e (Option.mem_toList.1 he)).1
      · intro e he hset
        show m.prefilled ≠ 0
        rw [hflag]
        rcases List.mem_append.1 he with he | he
        · exact hflagged e he hset
        · exact (hdone e (Option.mem_toList.1 he)).2.1 hset
      · cases done with
        | none => simpa using horder
        | some e => exact order_append horder hflagged (hdone e rfl).2.2
      · show m.underrunSamples = _
        rw [hunder _ hshort, State.short, State.short, short_append]

/-- **The run lemma.** -/
theorem run_inv {as : List (Action α)} {s : State α} (hR : 2 ≤ R) (hfits : R ≤ 2 ^ 31)
    (h : Run (step R) .created as s) (hattached : Always (step R) Attached .created as) : Inv R s :=
  h.invariant hattached (inv_created hR) fun _ _ _ hinv ha hstep => hinv.step hfits ha hstep

/-! ## What a run leaves -/

/-- **The ring is sound.** -/
structure Sound (R : ℕ) (as : List (Action α)) (s : State α) : Prop where
  /-- Each frame is stored, dropped or being written. -/
  frames : s.frames = as.filterMap Action.frame
  asked : s.asked = as.filterMap Action.asked
  /-- What is heard is a beginning of what is stored. -/
  heard : s.heard <+: s.stored
  /-- A frame that is stored is all there until it is read. -/
  cells : Holds s.mem.ring R s.stored s.consumed
  fill : s.mem.ringAvail R = (s.stored.length - s.consumed : ℕ)
  room : s.mem.ringAvail R ≤ R - 1
  honest : ∀ e ∈ s.reads, e.Honest
  order : s.reads.Pairwise fun e e' => e.flagged = true → e'.flagged = true

theorem Inv.sound {as : List (Action α)} {s : State α} (h : Inv R s)
    (hrun : Run (RingBuffer.step R) .created as s) : Sound R as s := by
  have hroom := h.writing.room
  have hle := h.reading.le
  have hfill := ringAvail_eq h.writing.index h.reading.index hle (by omega)
  exact
    { frames := (hrun.log fun _ _ _ => step_frames).trans (List.nil_append _)
      asked := (hrun.log fun _ _ _ => step_asked).trans (List.nil_append _)
      heard := (h.reading.heard ▸ List.prefix_append _ _ : s.heard <+: s.stored.take s.consumed).trans
        (List.take_prefix _ _)
      cells := h.writing.cells.of_prefix (List.prefix_append _ _)
      fill := hfill
      room := by rw [hfill]; omega
      honest := h.honest
      order := h.order }

/-- **The counters are exact.** -/
structure Exact (s : State α) : Prop where
  dropped : s.mem.droppedFrames = s.drops
  underrun : s.mem.underrunSamples = s.short

/-- How far a cell of an `Int32Array` counts. -/
theorem toInt32_natCast_eq_iff (k : ℕ) : toInt32 k = k ↔ k < 2 ^ 31 := by
  constructor
  · intro h
    have hlt := Int.bmod_lt (x := (k : ℤ)) (m := 2 ^ 32) (by decide)
    rw [toInt32] at h
    omega
  · intro hlt
    exact Int.bmod_eq_of_le (by omega) (by omega)

theorem Inv.exact_iff {s : State α} (h : Inv R s) :
    Exact s ↔ s.drops < 2 ^ 31 ∧ s.short < 2 ^ 31 := by
  rw [← toInt32_natCast_eq_iff, ← toInt32_natCast_eq_iff, ← h.drops, ← h.short]
  exact ⟨fun hexact => ⟨hexact.dropped, hexact.underrun⟩, fun hboth => ⟨hboth.1, hboth.2⟩⟩

/-- **The ring, over every order of accesses.** Whatever the calls and however
the accesses of the two sides are mixed, the ring is sound, the two readers put
out the same from the same memory, and the counters are exact as long as neither
has counted `2 ^ 31`. -/
theorem sound_and_exact_iff {as : List (Action α)} {s : State α} (hR : 2 ≤ R) (hfits : R ≤ 2 ^ 31)
    (hrun : Run (step R) .created as s) (hattached : Always (step R) Attached .created as) :
    Sound R as s ∧ (∀ (m : Mem α) (count : ℕ), m.process R true count = m.ringRead R count) ∧
      (Exact s ↔ s.drops < 2 ^ 31 ∧ s.short < 2 ^ 31) := by
  have hinv := run_inv hR hfits hrun hattached
  exact ⟨hinv.sound hrun, fun m count => m.process_eq_ringRead R count, hinv.exact_iff⟩

/-- A frame of one sample into a ring of two cells, and a read by the worklet
that comes between its accesses. -/
theorem sound_and_exact_iff_two :
    ∃ s : State ℤ, s.stored = [7] ∧ Sound 2 [.init, .ringWrite [7], .writer, .process 3, .writer,
      .reader, .writer, .writer, .writer] s ∧ Exact s := by
  let as : List (Action ℤ) := [.init, .ringWrite [7], .writer, .process 3, .writer, .reader,
    .writer, .writer, .writer]
  have hsome : (as.foldlM (step 2) State.created).isSome = true := rfl
  obtain ⟨s, hs⟩ := Option.isSome_iff_exists.1 hsome
  have hattached : Always (step 2) Attached State.created as := by decide
  obtain ⟨hsound, -, hexact⟩ :=
    sound_and_exact_iff (by decide) (by decide) (Run.of_foldlM hs) hattached
  have hs' := Option.get_of_mem hsome hs
  subst hs'
  exact ⟨_, rfl, hsound, hexact.2 ⟨show 0 < 2 ^ 31 by decide, show 0 < 2 ^ 31 by decide⟩⟩

/-! ## A ring that is read while nobody speaks -/

/-- The samples are played out: the main thread's reader finds none. -/
structure Drained (s : State ℤ) : Prop where
  idle : s.reader = .idle
  writeIndex : s.mem.writeIndex = jitterPrefill
  readIndex : s.mem.readIndex = jitterPrefill
  prefilled : s.mem.prefilled = 1

omit [Zero α] in
/-- The copying loop of `ringWrite` writes samples and nothing else. -/
theorem copyIn_frame (src : List α) (wr : ℤ) (i : ℕ) (m : Mem α) :
    m.copyIn R wr i src = { m with ring := (m.copyIn R wr i src).ring } := by
  induction src generalizing i m with
  | nil => rfl
  | cons a src ih => exact ih (i + 1) _

/-- A read of an empty ring lacks all it was asked for. -/
theorem Drained.read {s : State ℤ} (h : Drained s) (count : ℕ) :
    ∃ as t, (∀ a ∈ as, ∀ s', Attached s' a) ∧ Run (step pcmRingSize) s as t ∧ Drained t ∧
      t.short = s.short + count := by
  obtain ⟨k, hk⟩ := ringRead_alone (R := pcmRingSize) h.idle count
  have havail : s.mem.ringAvail pcmRingSize = 0 := by
    rw [Mem.ringAvail, h.writeIndex, h.readIndex]
    rfl
  have hset : s.mem.prefilled ≠ 0 := by rw [h.prefilled]; exact one_ne_zero
  have htaken : s.mem.taken pcmRingSize count = 0 := by
    rw [Mem.taken, havail]
    omega
  refine ⟨_, _, ?_, hk, ?_, ?_⟩
  · intro a ha s'
    rcases List.mem_cons.1 ha with rfl | ha
    · trivial
    · obtain rfl := List.eq_of_mem_replicate ha
      trivial
  · rw [Mem.ringRead_fst _ hset, htaken, h.readIndex]
    dsimp only
    split
    · exact ⟨h.idle, h.writeIndex, rfl, h.prefilled⟩
    · exact ⟨h.idle, h.writeIndex, rfl, h.prefilled⟩
  · simp [State.short, Mem.read, hset, htaken, played]

/-- And so for as long as nobody speaks. -/
theorem Drained.reads {s : State ℤ} (h : Drained s) (count n : ℕ) :
    ∃ as t, (∀ a ∈ as, ∀ s', Attached s' a) ∧ Run (step pcmRingSize) s as t ∧ Drained t ∧
      t.short = s.short + n * count := by
  induction n with
  | zero => exact ⟨[], s, by simp, Run.nil s, h, by simp⟩
  | succ n ih =>
      obtain ⟨as, t, has, hrun, hdrained, hshort⟩ := ih
      obtain ⟨bs, u, hbs, hrun', hdrained', hshort'⟩ := hdrained.read count
      refine ⟨as ++ bs, u, ?_, hrun.append hrun', hdrained', ?_⟩
      · intro a ha
        exact (List.mem_append.1 ha).elim (has a) (hbs a)
      · rw [hshort', hshort, Nat.add_mul, Nat.one_mul, Nat.add_assoc]

/-- A frame that fills the ring as far as the flag asks for. -/
theorem ringWrite_prefill {src : List ℤ} (hlen : src.length = 11520) :
    ∃ ring, (Mem.created : Mem ℤ).ringWrite pcmRingSize src =
      ⟨ring, jitterPrefill, 0, 1, 0, 0⟩ := by
  have hfree : ¬(src.length : ℤ) > (Mem.created : Mem ℤ).ringFree pcmRingSize := by
    rw [hlen]
    decide
  have hindex : toInt32 (((Mem.created : Mem ℤ).writeIndex + (src.length : ℤ)).tmod pcmRingSize) =
      jitterPrefill := by
    rw [hlen]
    rfl
  obtain ⟨ring, hring⟩ : ∃ ring, Mem.copyIn pcmRingSize (Mem.created : Mem ℤ).writeIndex 0 src
      Mem.created = ⟨ring, 0, 0, 0, 0, 0⟩ := ⟨_, copyIn_frame src _ _ _⟩
  have hfill : (⟨ring, jitterPrefill, 0, 0, 0, 0⟩ : Mem ℤ).ringAvail pcmRingSize ≥
      jitterPrefill := show ((jitterPrefill - 0 + pcmRingSize : ℤ)).tmod pcmRingSize ≥ _ by decide
  refine ⟨ring, ?_⟩
  unfold Mem.ringWrite
  simp only [if_neg hfree, hring, hindex]
  exact if_pos ⟨trivial, hfill⟩

/-- The ring is filled as far as the flag asks for, and played out. -/
theorem drained_reached :
    ∃ as s, (∀ a ∈ as, ∀ s', Attached s' a) ∧
      Run (step pcmRingSize) (State.created : State ℤ) as s ∧ Drained s ∧ s.short = 0 := by
  obtain ⟨src, hlen⟩ : ∃ src : List ℤ, src.length = 11520 :=
    ⟨List.replicate 11520 1, List.length_replicate⟩
  obtain ⟨ring, hmem⟩ := ringWrite_prefill hlen
  obtain ⟨j, hj⟩ := ringWrite_alone (R := pcmRingSize) (s := (State.created : State ℤ)) rfl src
  obtain ⟨written, hwritten⟩ : ∃ written, (State.created : State ℤ).written ++ [(src,
      decide (src.length ≤ (State.created : State ℤ).mem.ringFree pcmRingSize))] = written :=
    ⟨_, rfl⟩
  rw [hwritten, show (State.created : State ℤ).mem = Mem.created from rfl, hmem] at hj
  obtain ⟨k, hk⟩ := ringRead_alone (R := pcmRingSize)
    (s := { (State.created : State ℤ) with
      mem := ⟨ring, jitterPrefill, 0, 1, 0, 0⟩, written := written }) rfl 11520
  have htaken : (⟨ring, jitterPrefill, 0, 1, 0, 0⟩ : Mem ℤ).taken pcmRingSize 11520 =
      jitterPrefill :=
    show min (11520 : ℤ) ((jitterPrefill - 0 + pcmRingSize : ℤ).tmod pcmRingSize) = _ by decide
  refine ⟨_, _, ?_, hj.append hk, ?_, ?_⟩
  · intro a ha s'
    simp only [List.mem_append, List.mem_cons, List.mem_replicate] at ha
    obtain (rfl | ⟨-, rfl⟩) | (rfl | ⟨-, rfl⟩) := ha <;> trivial
  · rw [Mem.ringRead_fst _ one_ne_zero, htaken]
    exact ⟨rfl, rfl, rfl, rfl⟩
  · simp [State.short, Mem.read, htaken, played, State.created]

/-- **The counter wraps.** A ring of the size the client has, filled as far as
the flag asks for and played out, is read `2 ^ 21` times, 1024 samples each,
while nobody speaks: that many samples were missing, and the counter stands below
zero. -/
theorem underrun_wraps :
    ∃ (as : List (Action ℤ)) (s : State ℤ), Run (step pcmRingSize) .created as s ∧
      Always (step pcmRingSize) Attached .created as ∧ s.short = 2 ^ 31 ∧
      s.mem.underrunSamples = -2 ^ 31 := by
  obtain ⟨as, s, has, hrun, hdrained, hzero⟩ := drained_reached
  obtain ⟨bs, t, hbs, hrun', -, hshort⟩ := hdrained.reads 1024 (2 ^ 21)
  have hattached : Always (step pcmRingSize) Attached (State.created : State ℤ) (as ++ bs) :=
    Always.of_forall (fun a ha => (List.mem_append.1 ha).elim (has a) (hbs a)) _
  have hcount : t.short = 2 ^ 31 := by rw [hshort, hzero, Nat.zero_add, ← Nat.pow_add 2 21 10]
  refine ⟨as ++ bs, t, hrun.append hrun', hattached, hcount, ?_⟩
  rw [(run_inv (by decide) (by decide) (hrun.append hrun') hattached).short, hcount]
  rfl

end RingBuffer

end OpenManet
