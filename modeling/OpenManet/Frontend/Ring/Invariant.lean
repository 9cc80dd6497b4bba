import OpenManet.Frontend.Ring.Model
import Mathlib.Data.Nat.Cast.Order.Ring
import Mathlib.Algebra.BigOperators.Group.List.Basic
/-!
# The browser — what the two sides of the ring keep

Each index has one side that stores it, so the other side's copy of it can only
be behind. A write index that is behind shows the reader fewer samples than
there are, a read index that is behind shows the writer less room: neither side
can come into the cells of the other.

`Writing` is what holds of the writer, `Reading` of the reader, each with the
other side anywhere; `Counted` is about what has been logged. One lemma for each
side says what its next access does to them.
-/

namespace OpenManet

namespace RingBuffer

open OpenManet.Ring

variable {α : Type} {R : ℕ}

theorem toInt32_add (a b : ℤ) : toInt32 (toInt32 a + b) = toInt32 (a + b) := Int.bmod_add_bmod

/-- An index of a ring that is no longer than that fits. -/
theorem toInt32_slot (hR : 0 < R) (hfits : R ≤ 2 ^ 31) (j : ℕ) : toInt32 (slot R j) = slot R j := by
  have hnonneg := slot_nonneg R j
  have hlt := slot_lt hR j
  exact Int.bmod_eq_of_le (by omega) (by omega)

/-! ## Where the two sides stand -/

namespace Writer

/-- The samples of the frame that are in the ring already. -/
def done : Writer α → List α
  | .copy src _ i => src.take i
  | .storeWr src _ => src
  | _ => []

/-- The cells the writer has made sure of. -/
def claim : Writer α → ℕ
  | .loadWr src | .copy src _ _ | .storeWr src _ => src.length
  | _ => 0

/-- What the variables of the writer say. -/
def Placed (R stored : ℕ) : Writer α → Prop
  | .availRd _ wr | .storeWr _ wr | .prefillRd wr => wr = slot R stored
  | .copy src wr i => wr = slot R stored ∧ i < src.length
  | _ => True

@[simp] theorem claim_copying (src : List α) (wr : ℤ) (i : ℕ) :
    (copying src wr i).claim = src.length := by
  unfold copying
  split <;> rfl

@[simp] theorem done_copying (src : List α) (wr : ℤ) (i : ℕ) :
    (copying src wr i).done = src.take i := by
  unfold copying
  split
  · rfl
  · rw [List.take_of_length_le (by omega), done]

theorem placed_copying {stored : ℕ} (src : List α) (i : ℕ) :
    (copying src (slot R stored) i).Placed R stored := by
  unfold copying
  split
  · exact ⟨rfl, ‹_›⟩
  · rfl

end Writer

namespace Reader

/-- What has been taken from the ring and not been put out. -/
def pending : Reader α → List α
  | .underrun _ _ dst _ => dst
  | _ => []

/-- What the variables of the reader say, over the stream that is stored. -/
def Placed (R : ℕ) (prefilled : ℤ) (stored : List α) (consumed : ℕ) : Reader α → Prop
  | .idle | .flag _ _ => True
  | .availWr _ _ => prefilled ≠ 0
  | .availRd _ _ wr stored' =>
      prefilled ≠ 0 ∧ wr = slot R stored' ∧ consumed ≤ stored' ∧ stored' ≤ stored.length
  | .loadRd _ avail available =>
      prefilled ≠ 0 ∧ avail = available ∧ consumed + available ≤ stored.length
  | .copy count n rd dst available =>
      prefilled ≠ 0 ∧ rd = slot R consumed ∧ n = (min count available : ℕ) ∧
        consumed + available ≤ stored.length ∧ dst <+: stored.drop consumed ∧ dst.length < n
  | .storeRd count n rd dst available =>
      prefilled ≠ 0 ∧ rd = slot R consumed ∧ n = (min count available : ℕ) ∧
        consumed + available ≤ stored.length ∧ dst <+: stored.drop consumed ∧ dst.length = n
  | .underrun count n dst available =>
      prefilled ≠ 0 ∧ n = (min count available : ℕ) ∧ n < count ∧ dst.length = n

@[simp] theorem pending_copying (count : ℕ) (n rd : ℤ) (dst : List α) (available : ℕ) :
    (copying count n rd dst available).pending = [] := by
  unfold copying
  split <;> rfl

theorem placed_copying {prefilled : ℤ} {stored dst : List α} {count consumed available : ℕ}
    (hflag : prefilled ≠ 0) (hle : consumed + available ≤ stored.length)
    (hdst : dst <+: stored.drop consumed) (hlen : dst.length ≤ min count available) :
    (copying count (min count available : ℕ) (slot R consumed) dst available).Placed R prefilled
      stored consumed := by
  unfold copying
  split
  · exact ⟨hflag, rfl, rfl, hle, hdst, ‹_›⟩
  · exact ⟨hflag, rfl, rfl, hle, hdst, by omega⟩

/-- More may be stored under the reader. -/
theorem Placed.append {prefilled prefilled' : ℤ} {stored : List α} {consumed : ℕ} {r : Reader α}
    (h : r.Placed R prefilled stored consumed) (hflag : prefilled ≠ 0 → prefilled' ≠ 0)
    (rest : List α) : r.Placed R prefilled' (stored ++ rest) consumed := by
  have hlen : stored.length ≤ (stored ++ rest).length := by simp
  have hpre : ∀ {dst : List α}, consumed ≤ stored.length → dst <+: stored.drop consumed →
      dst <+: (stored ++ rest).drop consumed := fun hle hdst => by
    rw [List.drop_append_of_le_length hle]
    exact hdst.trans (List.prefix_append _ _)
  cases r with
  | idle | flag => trivial
  | availWr => exact hflag h
  | availRd => exact ⟨hflag h.1, h.2.1, h.2.2.1, h.2.2.2.trans hlen⟩
  | loadRd => exact ⟨hflag h.1, h.2.1, h.2.2.trans hlen⟩
  | copy =>
      obtain ⟨hset, hrd, hn, hle, hdst, hlt⟩ := h
      exact ⟨hflag hset, hrd, hn, hle.trans hlen, hpre (by omega) hdst, hlt⟩
  | storeRd =>
      obtain ⟨hset, hrd, hn, hle, hdst, hlt⟩ := h
      exact ⟨hflag hset, hrd, hn, hle.trans hlen, hpre (by omega) hdst, hlt⟩
  | underrun => exact ⟨hflag h.1, h.2⟩

end Reader

/-- **What holds of the writer.** -/
structure Writing (R : ℕ) (m : Mem α) (stored : List α) (consumed : ℕ) (w : Writer α) : Prop where
  /-- One cell stays free, the frame at hand included. -/
  room : stored.length + w.claim < consumed + R
  index : m.writeIndex = slot R stored.length
  cells : Holds m.ring R (stored ++ w.done) consumed
  placed : w.Placed R stored.length

/-- **What holds of the reader.** -/
structure Reading (R : ℕ) (m : Mem α) (stored : List α) (consumed : ℕ) (r : Reader α)
    (heard : List α) : Prop where
  le : consumed ≤ stored.length
  index : m.readIndex = slot R consumed
  placed : r.Placed R m.prefilled stored consumed
  heard : heard ++ r.pending = stored.take consumed

/-- **What is said of every read.** It fills what it was given; what does not
come from the ring is silence; and there is silence only while the flag is not
set, or for want of samples. -/
structure Read.Honest [Zero α] (r : Read α) : Prop where
  real_le : r.real ≤ r.count
  dst : r.dst = r.dst.take r.real ++ List.replicate (r.count - r.real) 0
  length : r.dst.length = r.count
  real : r.real = if r.playing then min r.count r.available else 0
  silence : r.real < r.count → r.flagged = false ∨ r.available < r.count

/-! ## The fill -/

/-- **The fill of the ring** is what has been stored and not been read. -/
theorem ringAvail_eq {m : Mem α} {stored consumed : ℕ} (hwr : m.writeIndex = slot R stored)
    (hrd : m.readIndex = slot R consumed) (hle : consumed ≤ stored)
    (hroom : stored < consumed + R) : m.ringAvail R = (stored - consumed : ℕ) := by
  rw [Mem.ringAvail, hwr, hrd, tmod_slot_sub hle hroom]

/-! ## The next access of the writer -/

/-- The samples a step stores. -/
def kept (done : Option (List α × Bool)) : List α := (done.toList.filter (·.2)).flatMap (·.1)

/-- How many frames a step drops. -/
def lost (done : Option (List α × Bool)) : ℕ := done.toList.countP (!·.2)

/-- **One access of the writer.** It leaves the read index and the reader's
counter, never takes the flag back, and counts what it drops. -/
theorem Writing.step {m m' : Mem α} {stored : List α} {consumed : ℕ} {w w' : Writer α}
    {done : Option (List α × Bool)} (hfits : R ≤ 2 ^ 31) (h : Writing R m stored consumed w)
    (hle : consumed ≤ stored.length) (hrd : m.readIndex = slot R consumed)
    (hstep : writerStep R m w = some (m', w', done)) :
    Writing R m' (stored ++ kept done) consumed w' ∧ m'.readIndex = m.readIndex ∧
      (m.prefilled ≠ 0 → m'.prefilled ≠ 0) ∧ m'.underrunSamples = m.underrunSamples ∧
      ∀ k : ℕ, m.droppedFrames = toInt32 k → m'.droppedFrames = toInt32 (k + lost done : ℕ) := by
  obtain ⟨hroom, hwr, hcells, hplaced⟩ := h
  have hR : 0 < R := by omega
  have hroom' : stored.length < consumed + R := by omega
  -- A step that neither stores a sample nor an index keeps the first three.
  have idle : ∀ w'' : Writer α, w''.claim = 0 → w''.done = [] → w''.Placed R stored.length →
      w.done = [] → Writing R m (stored ++ kept none) consumed w'' := by
    intro w'' hclaim hdone hplaced' hnone
    refine ⟨?_, ?_, ?_, ?_⟩
    · simpa [kept, hclaim] using hroom'
    · simpa [kept] using hwr
    · simpa [kept, hdone, hnone] using hcells
    · simpa [kept] using hplaced'
  cases w with
  | idle => simp [writerStep] at hstep
  | availWr src =>
      simp only [writerStep, Option.some.injEq, Prod.mk.injEq] at hstep
      obtain ⟨rfl, rfl, rfl⟩ := hstep
      exact ⟨idle _ rfl rfl hwr rfl, rfl, id, rfl, fun _ h => h⟩
  | availRd src wr =>
      simp only [writerStep, Option.some.injEq, Prod.mk.injEq] at hstep
      obtain ⟨rfl, rfl, rfl⟩ := hstep
      obtain rfl : wr = slot R stored.length := hplaced
      rw [hrd, tmod_slot_sub hle hroom']
      refine ⟨?_, rfl, id, rfl, fun _ h => h⟩
      split
      · exact idle _ rfl rfl trivial rfl
      · -- The reader can only have freed more since.
        rename_i hfree
        refine ⟨?_, ?_, ?_, trivial⟩
        · simp only [kept, Option.toList_none, List.filter_nil, List.flatMap_nil, List.append_nil,
            Writer.claim]
          omega
        · simpa [kept] using hwr
        · simpa [kept, Writer.done] using hcells
  | drop src =>
      simp only [writerStep, Option.some.injEq, Prod.mk.injEq] at hstep
      obtain ⟨rfl, rfl, rfl⟩ := hstep
      refine ⟨⟨?_, ?_, ?_, trivial⟩, rfl, id, rfl, fun k hk => ?_⟩
      · simpa [kept, Writer.claim] using hroom'
      · simpa [kept] using hwr
      · simpa [kept, Writer.done] using hcells
      · show toInt32 (m.droppedFrames + 1) = _
        rw [hk, toInt32_add]
        rfl
  | loadWr src =>
      simp only [writerStep, Option.some.injEq, Prod.mk.injEq] at hstep
      obtain ⟨rfl, rfl, rfl⟩ := hstep
      refine ⟨⟨?_, ?_, ?_, ?_⟩, rfl, id, rfl, fun _ h => h⟩
      · simpa [kept] using show stored.length + src.length < consumed + R from hroom
      · simpa [kept] using hwr
      · simpa [kept] using show Holds m.ring R (stored ++ []) consumed from hcells
      · rw [hwr]
        simpa [kept] using Writer.placed_copying src 0
  | copy src wr i =>
      obtain ⟨rfl, hi⟩ := hplaced
      simp only [writerStep, List.getElem?_eq_getElem hi, Option.some.injEq,
        Prod.mk.injEq] at hstep
      obtain ⟨rfl, rfl, rfl⟩ := hstep
      have hlen : (stored ++ src.take i).length = stored.length + i := by
        rw [List.length_append, List.length_take_of_le hi.le]
      refine ⟨⟨?_, ?_, ?_, ?_⟩, rfl, id, rfl, fun _ h => h⟩
      · simpa [kept] using show stored.length + src.length < consumed + R from hroom
      · simpa [kept] using hwr
      · have hpush := hcells.push src[i] (by
          simp only [Writer.claim, Writer.done] at hroom ⊢
          omega)
        simp only [Writer.done] at hpush
        rw [hlen, List.append_assoc, List.take_concat_get' _ _ hi] at hpush
        simpa [kept, tmod_slot_add] using hpush
      · simpa [kept] using Writer.placed_copying src (i + 1)
  | storeWr src wr =>
      simp only [writerStep, Option.some.injEq, Prod.mk.injEq] at hstep
      obtain ⟨rfl, rfl, rfl⟩ := hstep
      obtain rfl : wr = slot R stored.length := hplaced
      refine ⟨⟨?_, ?_, ?_, trivial⟩, rfl, id, rfl, fun _ h => h⟩
      · simpa [kept, Writer.claim] using hroom
      · simp [kept, tmod_slot_add, toInt32_slot hR hfits]
      · simpa [kept, Writer.done] using hcells
  | flag =>
      simp only [writerStep, Option.some.injEq, Prod.mk.injEq] at hstep
      obtain ⟨rfl, rfl, rfl⟩ := hstep
      refine ⟨?_, rfl, id, rfl, fun _ h => h⟩
      split <;> exact idle _ rfl rfl trivial rfl
  | prefillWr =>
      simp only [writerStep, Option.some.injEq, Prod.mk.injEq] at hstep
      obtain ⟨rfl, rfl, rfl⟩ := hstep
      exact ⟨idle _ rfl rfl hwr rfl, rfl, id, rfl, fun _ h => h⟩
  | prefillRd wr =>
      simp only [writerStep, Option.some.injEq, Prod.mk.injEq] at hstep
      obtain ⟨rfl, rfl, rfl⟩ := hstep
      refine ⟨?_, rfl, id, rfl, fun _ h => h⟩
      split <;> exact idle _ rfl rfl trivial rfl
  | setFlag =>
      simp only [writerStep, Option.some.injEq, Prod.mk.injEq] at hstep
      obtain ⟨rfl, rfl, rfl⟩ := hstep
      obtain ⟨hroom'', hwr', hcells', -⟩ := idle .idle rfl rfl trivial rfl
      exact ⟨⟨hroom'', hwr', hcells', trivial⟩, rfl, fun _ => one_ne_zero, rfl, fun _ h => h⟩

/-! ## The next access of the reader -/

/-- A part of a stream, and the element after it. -/
theorem prefix_push {stream dst : List α} (h : dst <+: stream) (hlt : dst.length < stream.length) :
    dst ++ [stream[dst.length]] <+: stream := by
  obtain ⟨rest, rfl⟩ := h
  cases rest with
  | nil => simp at hlt
  | cons a rest => simp

variable [Zero α]

/-- A silent read that did not find the flag set. -/
theorem silent_honest (count available : ℕ) : (silent (α := α) count available false).Honest where
  real_le := Nat.zero_le _
  dst := by simp [silent]
  length := by simp [silent]
  real := rfl
  silence := fun _ => Or.inl rfl

/-- A read that took what there was. -/
theorem played_honest {count available k : ℕ} {dst : List α} (hk : k = min count available)
    (hlen : dst.length = k) : (played count k dst available).Honest where
  real_le := by simp [played, hk]
  dst := by simp [played, ← hlen]
  length := by
    simp only [played, List.length_append, List.length_replicate]
    omega
  real := by
    show (k : ℤ).toNat = min count available
    rw [Int.toNat_natCast, hk]
  silence := fun h => Or.inr (by
    simp only [played, Int.toNat_natCast] at h ⊢
    omega)

/-- What a read puts out of the ring. -/
def fromRing (done : Option (Read α)) : List α := done.toList.flatMap fun r => r.dst.take r.real

/-- How many samples a read lacks. -/
def lacking (done : Option (Read α)) : ℕ :=
  (done.toList.map fun r => if r.playing then r.count - r.real else 0).sum

/-- What a read that took what there was puts out of the ring. -/
theorem fromRing_played {count available k : ℕ} {dst : List α} (hlen : dst.length = k) :
    fromRing (some (played count k dst available)) = dst := by
  simp [fromRing, played, ← hlen]

/-- **One access of the reader.** It leaves the samples, the write index, the
flag and the writer's counter; a read that is over is honest, and what it lacks
is counted. -/
theorem Reading.step {m m' : Mem α} {stored heard : List α} {consumed consumed' : ℕ}
    {r r' : Reader α} {done : Option (Read α)} (hfits : R ≤ 2 ^ 31)
    (h : Reading R m stored consumed r heard) (hwr : m.writeIndex = slot R stored.length)
    (hroom : stored.length < consumed + R) (hcells : Holds m.ring R stored consumed)
    (hstep : readerStep R m stored.length consumed r = some (m', r', done, consumed')) :
    Reading R m' stored consumed' r' (heard ++ fromRing done) ∧ consumed ≤ consumed' ∧
      m'.ring = m.ring ∧ m'.writeIndex = m.writeIndex ∧ m'.prefilled = m.prefilled ∧
      m'.droppedFrames = m.droppedFrames ∧
      (∀ e ∈ done, e.Honest ∧ (e.flagged = true ↔ m.prefilled ≠ 0)) ∧
      ∀ k : ℕ, m.underrunSamples = toInt32 k →
        m'.underrunSamples = toInt32 (k + lacking done : ℕ) := by
  obtain ⟨hle, hrd, hplaced, hheard⟩ := h
  have hR : 0 < R := by omega
  cases r with
  | idle => simp [readerStep] at hstep
  | flag count twice =>
      simp only [readerStep] at hstep
      split at hstep
      · rename_i hunset
        simp only [Option.some.injEq, Prod.mk.injEq] at hstep
        obtain ⟨rfl, rfl, rfl, rfl⟩ := hstep
        refine ⟨⟨hle, hrd, trivial, ?_⟩, le_rfl, rfl, rfl, rfl, rfl, ?_, fun _ h => h⟩
        · simpa [fromRing, silent, Reader.pending] using hheard
        · intro e he
          obtain rfl := Option.mem_some.1 he
          exact ⟨silent_honest _ _, by simp [silent, hunset]⟩
      · rename_i hset
        simp only [Option.some.injEq, Prod.mk.injEq] at hstep
        obtain ⟨rfl, rfl, rfl, rfl⟩ := hstep
        refine ⟨⟨hle, hrd, hset, ?_⟩, le_rfl, rfl, rfl, rfl, rfl, by simp, fun _ h => h⟩
        simpa [fromRing, Reader.pending] using hheard
  | availWr count twice =>
      simp only [readerStep, Option.some.injEq, Prod.mk.injEq] at hstep
      obtain ⟨rfl, rfl, rfl, rfl⟩ := hstep
      refine ⟨⟨hle, hrd, ⟨hplaced, hwr, hle, le_rfl⟩, ?_⟩, le_rfl, rfl, rfl, rfl, rfl, by simp,
        fun _ h => h⟩
      simpa [fromRing, Reader.pending] using hheard
  | availRd count twice wr stored' =>
      obtain ⟨hset, rfl, hge, hle'⟩ := hplaced
      simp only [readerStep, hrd, tmod_slot_sub hge (hle'.trans_lt hroom), Option.some.injEq,
        Prod.mk.injEq] at hstep
      obtain ⟨rfl, rfl, rfl, rfl⟩ := hstep
      refine ⟨⟨hle, hrd, ?_, ?_⟩, le_rfl, rfl, rfl, rfl, rfl, by simp, fun _ h => h⟩
      · split
        · exact ⟨hset, rfl, by omega⟩
        · rw [← Nat.cast_min]
          exact Reader.placed_copying hset (by omega) (List.nil_prefix) (Nat.zero_le _)
      · have hheard' : heard ++ [] = stored.take consumed := hheard
        split
        · simpa [fromRing, Reader.pending] using hheard'
        · simpa [fromRing] using hheard'
  | loadRd count avail available =>
      obtain ⟨hset, rfl, hle'⟩ := hplaced
      simp only [readerStep, hrd, Option.some.injEq, Prod.mk.injEq] at hstep
      obtain ⟨rfl, rfl, rfl, rfl⟩ := hstep
      refine ⟨⟨hle, hrd, ?_, ?_⟩, le_rfl, rfl, rfl, rfl, rfl, by simp, fun _ h => h⟩
      · rw [← Nat.cast_min]
        exact Reader.placed_copying hset hle' (List.nil_prefix) (Nat.zero_le _)
      · simpa [fromRing] using show heard ++ [] = stored.take consumed from hheard
  | copy count n rd dst available =>
      obtain ⟨hset, rfl, rfl, hle', hdst, hlt⟩ := hplaced
      have hpos : consumed + dst.length < stored.length := by omega
      simp only [readerStep, tmod_slot_add, Option.some.injEq, Prod.mk.injEq] at hstep
      obtain ⟨rfl, rfl, rfl, rfl⟩ := hstep
      rw [hcells _ (by omega) _ (List.getElem?_eq_getElem hpos)]
      refine ⟨⟨hle, hrd, ?_, ?_⟩, le_rfl, rfl, rfl, rfl, rfl, by simp, fun _ h => h⟩
      · refine Reader.placed_copying hset hle' ?_ (by simp; omega)
        have hnext := prefix_push hdst (by simp; omega)
        rwa [List.getElem_drop] at hnext
      · simpa [fromRing] using show heard ++ [] = stored.take consumed from hheard
  | storeRd count n rd dst available =>
      obtain ⟨hset, rfl, rfl, hle', hdst, hlen⟩ := hplaced
      generalize hk : min count available = k at *
      have hlen' : dst.length = k := by omega
      have hrd' : toInt32 ((slot R consumed + k).tmod R) = slot R (consumed + k) := by
        rw [tmod_slot_add, toInt32_slot hR hfits]
      have hnext : heard ++ dst = stored.take (consumed + k) := by
        have hheard' : heard ++ [] = stored.take consumed := hheard
        rw [List.append_nil] at hheard'
        rw [List.take_add, ← hheard', ← hlen', ← List.prefix_iff_eq_take.1 hdst]
      simp only [readerStep, hrd', Int.toNat_natCast] at hstep
      split at hstep
      · rename_i hlack
        simp only [Option.some.injEq, Prod.mk.injEq] at hstep
        obtain ⟨rfl, rfl, rfl, rfl⟩ := hstep
        refine ⟨⟨by omega, rfl, ⟨hset, by rw [hk], hlack, hlen⟩, ?_⟩, by omega, rfl, rfl, rfl, rfl,
          by simp, fun _ h => h⟩
        simpa [fromRing, Reader.pending] using hnext
      · rename_i henough
        simp only [Option.some.injEq, Prod.mk.injEq] at hstep
        obtain ⟨rfl, rfl, rfl, rfl⟩ := hstep
        refine ⟨⟨by omega, rfl, trivial, ?_⟩, by omega, rfl, rfl, rfl, rfl, ?_, fun j hj => ?_⟩
        · rw [fromRing_played hlen']
          simpa [Reader.pending] using hnext
        · intro e he
          obtain rfl := Option.mem_some.1 he
          exact ⟨played_honest hk.symm hlen', by simp [played, hset]⟩
        · have hnone : count - k = 0 := by omega
          simpa [lacking, played, hnone] using hj
  | underrun count n dst available =>
      obtain ⟨hset, rfl, hlack, hlen⟩ := hplaced
      generalize hk : min count available = k at *
      have hlen' : dst.length = k := by omega
      simp only [readerStep, Option.some.injEq, Prod.mk.injEq] at hstep
      obtain ⟨rfl, rfl, rfl, rfl⟩ := hstep
      refine ⟨⟨hle, hrd, trivial, ?_⟩, le_rfl, rfl, rfl, rfl, rfl, ?_, fun j hj => ?_⟩
      · rw [fromRing_played hlen']
        simpa [Reader.pending] using hheard
      · intro e he
        obtain rfl := Option.mem_some.1 he
        exact ⟨played_honest hk.symm hlen', by simp [played, hset]⟩
      · show toInt32 (m.underrunSamples + (count - k)) = _
        have hcast : (j : ℤ) + (count - k) = (j + (count - k) : ℕ) := by omega
        rw [hj, toInt32_add, hcast]
        simp [lacking, played]

end RingBuffer

end OpenManet
