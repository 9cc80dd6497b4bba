import OpenManet.Frontend.Ring.Model
/-!
# The browser — the ring's functions, access by access

A call whose accesses no other access comes between is the function as it runs
by itself: the machine's `writer` and `reader` steps, taken one after the other
from the call on, leave `ringWrite`'s memory and `ringRead`'s, and put out what
`ringRead` puts out. `process` does the same with one load less.
-/

namespace OpenManet

namespace RingBuffer

variable {α : Type} [Zero α] {R : ℕ}

namespace Mem

variable (m : Mem α) (R)

/-- How many samples a read takes. -/
def taken (count : ℕ) : ℤ := min (count : ℤ) (m.ringAvail R)

/-- The read, as it is logged. -/
def read (count available : ℕ) : Read α :=
  if m.prefilled = 0 then silent count available false
  else played count (m.taken R count) (m.copyOut R m.readIndex (m.taken R count)) available

/-- What is logged is what `ringRead` puts out. -/
theorem read_dst (count available : ℕ) :
    (m.read R count available).dst = (m.ringRead R count).2 := by
  unfold read ringRead
  split
  · rfl
  · simp only [played, taken]
    split
    · rfl
    · rename_i henough
      rw [Int.toNat_of_nonpos (by omega), List.replicate_zero, List.append_nil]

/-- The memory after a read that found the flag set. -/
theorem ringRead_fst {m : Mem α} (hset : m.prefilled ≠ 0) (count : ℕ) :
    (m.ringRead R count).1 =
      (let m' := { m with readIndex := toInt32 ((m.readIndex + m.taken R count).tmod R) }
       if m.taken R count < count then
         { m' with underrunSamples := toInt32 (m'.underrunSamples + (count - m.taken R count)) }
       else m') := by
  rw [ringRead, if_neg hset]
  exact apply_ite Prod.fst _ _ _

end Mem

/-! ## The loops -/

/-- The copying loop of the writer. -/
theorem copyIn_alone (src : List α) (wr : ℤ) {i : ℕ} {s : State α}
    (hw : s.writer = Writer.copying src wr i) :
    ∃ k, Run (step R) s (List.replicate k .writer)
      { s with mem := s.mem.copyIn R wr i (src.drop i), writer := .storeWr src wr } := by
  induction hn : src.length - i generalizing i s with
  | zero =>
      have hge : ¬i < src.length := by omega
      have hend : s.writer = .storeWr src wr := by rw [hw, Writer.copying, if_neg hge]
      refine ⟨0, ?_⟩
      rw [List.drop_of_length_le (by omega), ← hend]
      exact Run.nil s
  | succ n ih =>
      have hlt : i < src.length := by omega
      have hat : s.writer = .copy src wr i := by rw [hw, Writer.copying, if_pos hlt]
      obtain ⟨k, hk⟩ := ih (i := i + 1)
        (s := { s with
          mem := { s.mem with ring := Function.update s.mem.ring ((wr + i).tmod R) src[i] },
          writer := .copying src wr (i + 1) }) rfl (by omega)
      refine ⟨k + 1, ?_⟩
      rw [List.drop_eq_getElem_cons hlt]
      refine Run.cons ?_ hk
      simp [step, hat, writerStep, List.getElem?_eq_getElem hlt]

/-- The copying loop of a reader. -/
theorem copyOut_alone (count : ℕ) (n rd : ℤ) (available : ℕ) {d : List α} {s : State α}
    (hr : s.reader = Reader.copying count n rd d available) :
    ∃ k, Run (step R) s (List.replicate k .reader)
      { s with
        reader := .storeRd count n rd (d ++ (List.range' d.length
          (n.toNat - d.length)).map fun i : ℕ => s.mem.ring ((rd + i).tmod R)) available } := by
  induction hn : n.toNat - d.length generalizing d s with
  | zero =>
      have hge : ¬(d.length : ℤ) < n := by omega
      have hend : s.reader = .storeRd count n rd d available := by
        rw [hr, Reader.copying, if_neg hge]
      refine ⟨0, ?_⟩
      rw [List.range'_zero, List.map_nil, List.append_nil, ← hend]
      exact Run.nil s
  | succ j ih =>
      have hlt : (d.length : ℤ) < n := by omega
      have hat : s.reader = .copy count n rd d available := by
        rw [hr, Reader.copying, if_pos hlt]
      let d' := d ++ [s.mem.ring ((rd + d.length).tmod R)]
      obtain ⟨k, hk⟩ := ih (d := d')
        (s := { s with reader := .copying count n rd d' available }) rfl (by simp [d']; omega)
      refine ⟨k + 1, Run.cons ?_ (?_ : Run (step R)
        { s with reader := .copying count n rd d' available } (List.replicate k .reader) _)⟩
      · simp [step, hat, readerStep, d']
      · simpa [List.range'_succ, d'] using hk

/-! ## The calls -/

/-- One side's accesses, and then more of them. -/
theorem alone_trans {s t u : State α} {a : Action α}
    (h : ∃ k, Run (step R) s (List.replicate k a) t)
    (h' : ∃ k, Run (step R) t (List.replicate k a) u) :
    ∃ k, Run (step R) s (List.replicate k a) u := by
  obtain ⟨j, hj⟩ := h
  obtain ⟨k, hk⟩ := h'
  exact ⟨j + k, by rw [List.replicate_add]; exact hj.append hk⟩

/-- An access of the writer, and what comes after it. -/
theorem writer_cons {s t : State α} {m : Mem α} {w : Writer α} {d : Option (List α × Bool)}
    (hstep : writerStep R s.mem s.writer = some (m, w, d))
    (h : ∃ k, Run (step R)
      { s with mem := m, writer := w, written := s.written ++ d.toList }
      (List.replicate k .writer) t) :
    ∃ k, Run (step R) s (List.replicate k .writer) t := by
  obtain ⟨k, hk⟩ := h
  exact ⟨k + 1, Run.cons (by simp [step, hstep]) hk⟩

/-- An access of the reader, and what comes after it. -/
theorem reader_cons {s t : State α} {m : Mem α} {r : Reader α} {done : Option (Read α)}
    {consumed : ℕ}
    (hstep : readerStep R s.mem s.stored.length s.consumed s.reader = some (m, r, done, consumed))
    (h : ∃ k, Run (step R)
      { s with mem := m, reader := r, reads := s.reads ++ done.toList, consumed := consumed }
      (List.replicate k .reader) t) :
    ∃ k, Run (step R) s (List.replicate k .reader) t := by
  obtain ⟨k, hk⟩ := h
  exact ⟨k + 1, Run.cons (by simp [step, hstep]) hk⟩

/-- `ringWrite`, from where the frame is stored. -/
theorem prefill_alone {s : State α} (hat : s.writer = .flag) :
    ∃ k, Run (step R) s (List.replicate k .writer)
      { s with
        mem := if s.mem.prefilled = 0 ∧ s.mem.ringAvail R ≥ jitterPrefill then
          { s.mem with prefilled := 1 } else s.mem
        writer := .idle } := by
  obtain ⟨m, w, r, attached, written, reads, consumed⟩ := s
  obtain rfl : w = .flag := hat
  by_cases hunset : m.prefilled = 0
  · refine writer_cons (m := m) (w := .prefillWr) (d := none) (by simp [writerStep, hunset])
      (writer_cons rfl ?_)
    by_cases hfill : m.ringAvail R ≥ jitterPrefill
    · refine writer_cons (m := m) (w := .setFlag) (d := none) ?_ (writer_cons rfl ⟨0, ?_⟩)
      · exact congrArg some (Prod.ext rfl (Prod.ext (if_pos hfill) rfl))
      · simpa [hunset, hfill] using Run.nil _
    · refine writer_cons (m := m) (w := .idle) (d := none) ?_ ⟨0, ?_⟩
      · exact congrArg some (Prod.ext rfl (Prod.ext (if_neg hfill) rfl))
      · simpa [hunset, hfill] using Run.nil _
  · refine writer_cons (m := m) (w := .idle) (d := none) (by simp [writerStep, hunset]) ⟨0, ?_⟩
    simpa [hunset] using Run.nil _

/-- **`ringWrite` by itself.** -/
theorem ringWrite_alone {s : State α} (hidle : s.writer = .idle) (src : List α) :
    ∃ k, Run (step R) s (.ringWrite src :: List.replicate k .writer)
      { s with
        mem := s.mem.ringWrite R src
        written := s.written ++ [(src, decide (src.length ≤ s.mem.ringFree R))] } := by
  obtain ⟨m, w, r, attached, written, reads, consumed⟩ := s
  obtain rfl : w = .idle := hidle
  suffices h : ∃ k, Run (step R) ⟨m, .availWr src, r, attached, written, reads, consumed⟩
      (List.replicate k .writer) ⟨m.ringWrite R src, .idle, r, attached,
        written ++ [(src, decide (src.length ≤ m.ringFree R))], reads, consumed⟩ by
    obtain ⟨k, hk⟩ := h
    exact ⟨k, Run.cons rfl hk⟩
  refine writer_cons rfl (writer_cons rfl ?_)
  simp only [Option.toList_none, List.append_nil]
  unfold Mem.ringWrite
  by_cases hfull : src.length > m.ringFree R
  · -- No room: the counter, and it is over.
    have hfree : decide (src.length ≤ m.ringFree R) = false := decide_eq_false (by omega)
    rw [if_pos hfull, if_pos (by exact hfull), hfree]
    exact writer_cons rfl ⟨0, Run.nil _⟩
  · have hfree : decide (src.length ≤ m.ringFree R) = true := decide_eq_true (by omega)
    rw [if_neg hfull, if_neg (by exact hfull), hfree]
    exact writer_cons rfl (alone_trans (copyIn_alone src m.writeIndex rfl)
      (writer_cons rfl (by simpa using prefill_alone rfl)))

/-- `ringRead`, from where it stores its index. -/
theorem storeRd_alone {s : State α} {count available : ℕ} {n rd : ℤ} {dst : List α}
    (hat : s.reader = .storeRd count n rd dst available) :
    ∃ k, Run (step R) s (List.replicate k .reader)
      { s with
        mem :=
          let m := { s.mem with readIndex := toInt32 ((rd + n).tmod R) }
          if n < count then
            { m with underrunSamples := toInt32 (m.underrunSamples + (count - n)) }
          else m
        reader := .idle
        reads := s.reads ++ [played count n dst available]
        consumed := s.consumed + n.toNat } := by
  obtain ⟨m, w, r, attached, written, reads, consumed⟩ := s
  obtain rfl : r = .storeRd count n rd dst available := hat
  by_cases hlack : n < count
  · refine reader_cons (if_pos hlack) (reader_cons rfl ⟨0, ?_⟩)
    simpa [hlack] using Run.nil _
  · refine reader_cons (if_neg hlack) ⟨0, ?_⟩
    simpa [hlack] using Run.nil _

/-- A read, from where it has found out how much there is. -/
theorem copying_alone {s : State α} {count available : ℕ} (hset : s.mem.prefilled ≠ 0)
    (hat : s.reader = .copying count (s.mem.taken R count) s.mem.readIndex [] available) :
    ∃ k, Run (step R) s (List.replicate k .reader)
      { s with
        mem := (s.mem.ringRead R count).1
        reader := .idle
        reads := s.reads ++ [s.mem.read R count available]
        consumed := s.consumed + (s.mem.taken R count).toNat } := by
  obtain ⟨m, w, r, attached, written, reads, consumed⟩ := s
  have hread : m.read R count available =
      played count (m.taken R count) (m.copyOut R m.readIndex (m.taken R count)) available :=
    if_neg hset
  rw [hread, Mem.ringRead_fst R hset]
  refine alone_trans (copyOut_alone count (m.taken R count) m.readIndex available hat) ?_
  rw [List.nil_append, List.length_nil, Nat.sub_zero, ← List.range_eq_range']
  exact storeRd_alone rfl

/-- A read, from where it looks at the flag. The two readers differ in one load,
of an index that only they store. -/
theorem flag_alone {s : State α} {count : ℕ} {twice : Bool} (hat : s.reader = .flag count twice) :
    ∃ k, Run (step R) s (List.replicate k .reader)
      { s with
        mem := (s.mem.ringRead R count).1
        reader := .idle
        reads := s.reads ++ [s.mem.read R count (s.stored.length - s.consumed)]
        consumed := if s.mem.prefilled = 0 then s.consumed
          else s.consumed + (s.mem.taken R count).toNat } := by
  obtain ⟨m, w, r, attached, written, reads, consumed⟩ := s
  obtain rfl : r = .flag count twice := hat
  by_cases hunset : m.prefilled = 0
  · refine reader_cons (if_pos hunset) ⟨0, ?_⟩
    simpa [Mem.ringRead, Mem.read, hunset] using Run.nil _
  · simp only [if_neg hunset]
    refine reader_cons (if_neg hunset) (reader_cons rfl ?_)
    simp only [Option.toList_none, List.append_nil]
    cases twice with
    | true =>
        refine reader_cons rfl (reader_cons rfl ?_)
        simpa using copying_alone hunset rfl
    | false =>
        refine reader_cons rfl ?_
        simpa using copying_alone hunset rfl

/-- **`ringRead` by itself.** -/
theorem ringRead_alone {s : State α} (hidle : s.reader = .idle) (count : ℕ) :
    ∃ k, Run (step R) s (.ringRead count :: List.replicate k .reader)
      { s with
        mem := (s.mem.ringRead R count).1
        reads := s.reads ++ [s.mem.read R count (s.stored.length - s.consumed)]
        consumed := if s.mem.prefilled = 0 then s.consumed
          else s.consumed + (s.mem.taken R count).toNat } := by
  obtain ⟨m, w, r, attached, written, reads, consumed⟩ := s
  obtain rfl : r = .idle := hidle
  obtain ⟨k, hk⟩ := flag_alone (R := R)
    (s := ⟨m, w, .flag count true, attached, written, reads, consumed⟩) rfl
  exact ⟨k, Run.cons rfl hk⟩

end RingBuffer

end OpenManet
