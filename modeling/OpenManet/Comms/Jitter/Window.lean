import OpenManet.Comms.Jitter.Delivery
import OpenManet.Comms.Jitter.Recovery
/-!
# No loss inside the window

A buffer of depth `d` has room for the `d` numbers from the cursor on, each in
a slot of its own. As long as nothing further ahead is pushed, a slot is written
only when it is free, and the cursor leaves a slot only with its frame or empty.

The places of a run are counted in moves of the cursor from where the run
starts: a frame accepted `k` ahead of the cursor after `n` moves has the place
`n + k`, and the cursor is at that place when it makes its move number `n + k`.
Nothing wraps there, so two frames with one number are told apart.
-/

namespace OpenManet

namespace Jitter

open SeqNum JitterBuffer

/-- The number is a whole window or more ahead of the cursor. -/
def JitterBuffer.tooFar (jb : JitterBuffer) (seq : Seq) : Bool :=
  jb.init && decide ((jb.depth.maxDepth : ℤ) ≤ (seq - jb.expected).toInt)

/-- What takes a run out of the window: a push that far ahead, a reset of any
kind, and `AdvancePast`, which drops the cursor's frame for its caller. -/
def strays (jb : JitterBuffer) : Op → Bool
  | .push seq payload now => jb.pushResets 0 payload now || jb.tooFar seq
  | .pushWithSSRC ssrc seq payload now => jb.pushResets ssrc payload now || jb.tooFar seq
  | .popReady => false
  | .popOrConceal _ _ => false
  | .advancePast => true
  | .reset => true

/-- How far ahead of the cursor a frame is; the first one is at it. -/
def JitterBuffer.lead (jb : JitterBuffer) (seq : Seq) : ℕ :=
  if jb.init then dist seq jb.expected else 0

/-- What a step accepts, with its place; `n` moves come before it. -/
def placed (n : ℕ) (e : Event) : List (ℕ × Seq × Payload) :=
  (accepted? e).toList.map fun f => (n + e.1.lead f.1, f.1, f.2)

/-- The frames a run accepts, with their places. -/
def places : ℕ → List Event → List (ℕ × Seq × Payload)
  | _, [] => []
  | n, e :: es => placed n e ++ places (if moves e then n + 1 else n) es

/-- The moves of the cursor: the place, the number there, and what is
delivered. -/
def visits : ℕ → List Event → List (ℕ × Seq × Option Payload)
  | _, [] => []
  | n, e :: es =>
    (if moves e then [(n, e.1.expected, (delivered? e).map Prod.snd)] else []) ++
      visits (if moves e then n + 1 else n) es

/-! ## One step -/

section Steps

variable {jb : JitterBuffer} {op : Op}

/-- **What a step inside the window does.** -/
inductive Does (jb : JitterBuffer) (e : Event) (jb' : JitterBuffer) : Prop
  /-- A frame is stored, in a slot that does not hold it. -/
  | accepts {seq : Seq} {p : Payload} (haccepted : accepted? e = some (seq, p))
      (hmoves : moves e = false) (hinit : jb'.init = true)
      (hexpected : jb.init = true → jb'.expected = jb.expected)
      (hlead : dist seq jb'.expected = jb.lead seq) (hnear : jb.lead seq < jb.depth.maxDepth)
      (hnew : jb.holds seq = false)
      (hslots : jb'.slots = Function.update jb.slots (jb.depth.slotIdx seq) ⟨some p, seq, true⟩)
  /-- Nothing is stored or taken. -/
  | rests (haccepted : accepted? e = none) (hmoves : moves e = false)
      (hinit : jb.init = true → jb'.init = true ∧ jb'.expected = jb.expected)
      (hslots : jb'.slots = jb.slots)
  /-- The cursor moves past its frame, which is delivered. -/
  | delivers (haccepted : accepted? e = none) (hmoves : moves e = true) (hinit : jb'.init = true)
      (hexpected : jb'.expected = jb.expected + 1) (hat : jb.atCursor = true)
      (hdelivered : (delivered? e).map Prod.snd = jb.cursorSlot.payload)
      (hslots : jb'.slots = jb.clearCursor.slots)
  /-- The cursor moves past a frame that is not there. -/
  | passes (haccepted : accepted? e = none) (hmoves : moves e = true) (hinit : jb'.init = true)
      (hexpected : jb'.expected = jb.expected + 1) (hat : jb.atCursor = false)
      (hdelivered : delivered? e = none) (hslots : jb'.slots = jb.slots)

/-- A push that does not reset meets the buffer as it is, with its cursor
placed. -/
theorem pushWithSSRC_eq {ssrc : BitVec 32} {seq : Seq} {payload : Payload} {now : Instant}
    (hres : jb.pushResets ssrc payload now = false) :
    jb.pushWithSSRC ssrc seq payload now =
      noteSSRC ssrc (if payload.length > maxOpusPayloadSize then (jb, false)
        else (jb.anchorAt seq).store seq payload now) := by
  simp only [pushResets, Bool.or_eq_false_iff, Bool.and_eq_false_iff, decide_eq_false_iff_not,
    not_le] at hres
  have hreset : jb.ssrcReset ssrc = jb := by simp [ssrcReset, hres.1]
  rw [pushWithSSRC, hreset, pushLocked]
  split
  · rfl
  · next hlen =>
    have hidle : jb.idleExpired now = false := hres.2.resolve_left (by omega)
    rw [idleReset, if_neg (by simp [hidle])]

/-- The cursor of a buffer that has just placed it. -/
theorem anchorAt_cursor (jb : JitterBuffer) (seq : Seq) :
    (jb.anchorAt seq).init = true ∧ (jb.anchorAt seq).slots = jb.slots ∧
      (jb.anchorAt seq).depth = jb.depth ∧
      (jb.init = true → (jb.anchorAt seq).expected = jb.expected) ∧
      dist seq (jb.anchorAt seq).expected = jb.lead seq := by
  unfold anchorAt lead
  split
  · next hinit => exact ⟨hinit, rfl, rfl, fun _ => rfl, rfl⟩
  · next hinit => exact ⟨rfl, rfl, rfl, fun h => absurd h hinit, dist_self seq⟩

theorem does_of_push (ssrc : BitVec 32) {seq : Seq} {payload : Payload} {now : Instant} {e : Event}
    (haccepted : accepted? e = if (jb.pushWithSSRC ssrc seq payload now).2 then some (seq, payload)
      else none)
    (hmoves : moves e = false)
    (hres : jb.pushResets ssrc payload now = false) (hnear : jb.tooFar seq = false) :
    Does jb e (jb.pushWithSSRC ssrc seq payload now).1 := by
  rw [pushWithSSRC_eq hres] at haccepted ⊢
  by_cases hlen : payload.length > maxOpusPayloadSize
  · rw [if_pos hlen] at haccepted ⊢
    exact .rests haccepted hmoves (fun h => ⟨by simp [h], by simp⟩) (by simp)
  rw [if_neg hlen] at haccepted ⊢
  obtain ⟨hinit, hslots, hdepth, hexpected, hlead⟩ := anchorAt_cursor jb seq
  obtain heq | ⟨hahead, hnew, heq⟩ := store_cases (jb.anchorAt seq) seq payload now
  · rw [heq] at haccepted ⊢
    exact .rests haccepted hmoves (fun h => ⟨by simp, by simp [hexpected h]⟩) (by simp [hslots])
  · rw [heq] at haccepted ⊢
    refine .accepts haccepted hmoves (by simp) (fun h => by simp [hexpected h])
      (by simpa using hlead) ?_ ?_ (by simp [hslots])
    · -- at or ahead of the cursor, and not too far
      have hpos := jb.depth.pos
      rw [← hlead]
      rw [seqLess_eq_false_iff_dist] at hahead
      by_cases hi : jb.init = true
      · rw [hexpected hi] at hahead ⊢
        have hnear' : (seq - jb.expected).toInt < jb.depth.maxDepth := by
          simpa [tooFar, hi] using hnear
        have hsigned : (seq - jb.expected).toInt = (dist seq jb.expected : ℤ) := by
          rw [BitVec.toInt_eq_toNat_cond, if_pos]
          · rfl
          · change 2 * dist seq jb.expected < _
            omega
        omega
      · rw [hlead, lead, if_neg hi]
        exact hpos
    · rw [hslots, hdepth] at hnew
      exact Bool.eq_false_iff.2 fun hholds => hnew (holds_iff.1 hholds)

theorem does_of_popReady : Does jb (jb, .popReady, (step jb .popReady).2) (step jb .popReady).1 := by
  have hinit : jb.canPlay = true → jb.init = true := init_of_canPlay
  have hpops := jb.pops
  simp only [step]
  generalize jb.popReadyLocked = r at hpops ⊢
  cases hpops with
  | delivers hplay hat =>
      refine .delivers rfl rfl (hinit hplay) rfl hat ?_ rfl
      simp only [delivered?, if_true]
      cases hp : jb.cursorSlot.payload with
      | none => rfl
      | some p => rfl
  | skips hplay hmiss hhalf => exact .passes rfl rfl (hinit hplay) rfl hmiss rfl rfl
  | waits hplay hmiss hlow => exact .rests rfl rfl (fun h => ⟨h, rfl⟩) rfl
  | rests hplay => exact .rests rfl rfl (fun h => ⟨h, rfl⟩) rfl

theorem does_of_popOrConceal (hinv : Inv jb) (w : ℤ) (now : Instant) :
    Does jb (jb, .popOrConceal w now, (step jb (.popOrConceal w now)).2)
      (step jb (.popOrConceal w now)).1 := by
  have hinit : jb.canPlay = true → jb.init = true := init_of_canPlay
  have hpops := jb.pops
  simp only [step, popOrConceal]
  generalize jb.popReadyLocked = r at hpops ⊢
  cases hpops with
  | delivers hplay hat =>
      simp only [if_true]
      obtain ⟨p, hp⟩ := Option.isSome_iff_exists.1 (hinv.payload_isSome _ (atCursor_iff.1 hat).1)
      have hp' : jb.cursorSlot.payload = some p := hp
      refine .delivers rfl ?_ (hinit hplay) rfl hat ?_ rfl
      · simp [moves, hp']
      · simp only [delivered?, hp']
        rfl
  | skips hplay hmiss hhalf => exact .passes rfl rfl (hinit hplay) rfl hmiss rfl rfl
  | waits hplay hmiss hlow =>
      simp only [Bool.false_eq_true, if_false]
      split
      · have hmiss' : ¬ ({ jb with started := true } : JitterBuffer).atCursor = true :=
          Bool.not_eq_true _ ▸ hmiss
        rw [advancePastLocked, if_neg hmiss']
        exact .passes rfl rfl (hinit hplay) rfl hmiss rfl rfl
      · exact .rests rfl rfl (fun h => ⟨h, rfl⟩) rfl
  | rests hplay =>
      simp only [Bool.false_eq_true, if_false]
      split
      · next hconceal =>
        -- a buffer that conceals has started, and so can play
        have hstarted : jb.started = true := by
          by_contra hstarted
          simp [shouldConcealLocked, hstarted] at hconceal
        rw [canPlay, hinv.init_of_started hstarted, hstarted] at hplay
        cases hplay
      · exact .rests rfl rfl (fun h => ⟨h, rfl⟩) rfl

/-- **A step inside the window is one of the four.** -/
theorem does_of_step (hinv : Inv jb) (hstrays : strays jb op = false) :
    Does jb (jb, op, (step jb op).2) (step jb op).1 := by
  cases op with
  | push seq payload now =>
      simp only [strays, Bool.or_eq_false_iff] at hstrays
      refine does_of_push 0 ?_ rfl hstrays.1 hstrays.2
      simp only [accepted?, step, JitterBuffer.push]
      cases (jb.pushWithSSRC 0 seq payload now).2 <;> rfl
  | pushWithSSRC ssrc seq payload now =>
      simp only [strays, Bool.or_eq_false_iff] at hstrays
      refine does_of_push ssrc ?_ rfl hstrays.1 hstrays.2
      simp only [accepted?, step]
      cases (jb.pushWithSSRC ssrc seq payload now).2 <;> rfl
  | popReady => exact does_of_popReady
  | popOrConceal w now => exact does_of_popOrConceal hinv w now
  | advancePast => cases hstrays
  | reset => cases hstrays

end Steps

/-! ## The ledger -/

section Ledger

variable {jb jb' : JitterBuffer} {n : ℕ} {acc : List (ℕ × Seq × Payload)} {e : Event}

/-- After `n` moves, with these frames accepted: no two have one place, those
the cursor has not come to are in the buffer, as far ahead as their places say,
and nothing else is. -/
structure Ledger (n : ℕ) (acc : List (ℕ × Seq × Payload)) (jb : JitterBuffer) : Prop where
  nodup : (acc.map Prod.fst).Nodup
  waiting : ∀ k s p, (k, s, p) ∈ acc → n ≤ k → jb.init = true ∧
    s = jb.expected + BitVec.ofNat 16 (k - n) ∧ k - n < jb.depth.maxDepth ∧
      jb.slots (jb.depth.slotIdx s) = ⟨some p, s, true⟩
  held : ∀ i, (jb.slots i).valid = true → ∃ k p, n ≤ k ∧ (k, (jb.slots i).seq, p) ∈ acc

/-- The number at a place is the number of its frame. -/
theorem Ledger.seq_of_lead (h : Ledger n acc jb) {k : ℕ} {s seq : Seq} {p : Payload}
    (hin : (k, s, p) ∈ acc) (hk : n ≤ k) (hlead : k = n + jb.lead seq) : s = seq := by
  obtain ⟨hinit, hs, -⟩ := h.waiting k s p hin hk
  rw [hs, hlead, Nat.add_sub_cancel_left, JitterBuffer.lead, if_pos hinit, add_dist]

/-- **A frame is stored**: in a place nobody has and in a slot nobody is in. -/
theorem Ledger.accepts (h : Ledger n acc jb) {seq : Seq} {p : Payload} (hinit : jb'.init = true)
    (hdepth : jb'.depth = jb.depth)
    (hexpected : jb.init = true → jb'.expected = jb.expected)
    (hlead : dist seq jb'.expected = jb.lead seq) (hnear : jb.lead seq < jb.depth.maxDepth)
    (hnew : jb.holds seq = false)
    (hslots : jb'.slots = Function.update jb.slots (jb.depth.slotIdx seq) ⟨some p, seq, true⟩) :
    Ledger n (acc ++ [(n + jb.lead seq, seq, p)]) jb' := by
  have hnotHeld : ∀ k s q, (k, s, q) ∈ acc → n ≤ k → s ≠ seq := by
    rintro k s q hin hk rfl
    obtain ⟨-, -, -, hslot⟩ := h.waiting k s q hin hk
    have hholds : jb.holds s = true := holds_iff.2 (by rw [hslot]; exact ⟨rfl, rfl⟩)
    rw [hholds] at hnew
    cases hnew
  have hcursor : seq = jb'.expected + BitVec.ofNat 16 (jb.lead seq) := by rw [← hlead, add_dist]
  refine ⟨?_, fun k s q hin hk => ?_, fun i hv => ?_⟩
  · rw [List.map_append, List.nodup_append]
    refine ⟨h.nodup, List.nodup_singleton _, ?_⟩
    rintro k hk _ hk' rfl
    obtain ⟨⟨k, s, q⟩, hin, rfl⟩ := List.mem_map.1 hk
    have hplace : k = n + jb.lead seq := List.mem_singleton.1 hk'
    have hle : n ≤ k := by omega
    exact hnotHeld k s q hin hle (h.seq_of_lead hin hle hplace)
  · rw [hdepth]
    rcases List.mem_append.1 hin with hin | hin
    · obtain ⟨hi, hs, hlt, hslot⟩ := h.waiting k s q hin hk
      refine ⟨hinit, by rw [hexpected hi]; exact hs, hlt, ?_⟩
      rw [hslots, Function.update_of_ne, hslot]
      -- two numbers of one window share no slot
      have hne := hnotHeld k s q hin hk
      rw [hexpected hi] at hcursor
      rw [hs, hcursor]
      rcases lt_trichotomy (k - n) (jb.lead seq) with hlt' | heq | hgt
      · exact Continuation.slotIdx_path_ne jb.depth _ hlt' (by omega)
      · rw [heq, ← hcursor] at hs
        exact absurd hs hne
      · exact (Continuation.slotIdx_path_ne jb.depth _ hgt (by omega)).symm
    · obtain ⟨rfl, rfl, rfl⟩ : k = n + jb.lead seq ∧ s = seq ∧ q = p := by
        simpa using List.mem_singleton.1 hin
      rw [Nat.add_sub_cancel_left]
      exact ⟨hinit, hcursor, hnear, by rw [hslots, Function.update_self]⟩
  · rw [hslots] at hv ⊢
    by_cases hi : i = jb.depth.slotIdx seq
    · rw [hi, Function.update_self]
      exact ⟨n + jb.lead seq, p, Nat.le_add_right _ _, List.mem_append_right _ (by simp)⟩
    · rw [Function.update_of_ne hi] at hv ⊢
      obtain ⟨k, q, hk, hin⟩ := h.held i hv
      exact ⟨k, q, hk, List.mem_append_left _ hin⟩

/-- **Nothing is stored or taken.** -/
theorem Ledger.rests (h : Ledger n acc jb) (hdepth : jb'.depth = jb.depth)
    (hinit : jb.init = true → jb'.init = true ∧ jb'.expected = jb.expected)
    (hslots : jb'.slots = jb.slots) : Ledger n acc jb' := by
  refine ⟨h.nodup, fun k s p hin hk => ?_, fun i hv => ?_⟩
  · obtain ⟨hi, hs, hlt, hslot⟩ := h.waiting k s p hin hk
    rw [hdepth, hslots, (hinit hi).2]
    exact ⟨(hinit hi).1, hs, hlt, hslot⟩
  · rw [hslots] at hv ⊢
    exact h.held i hv

/-- **The cursor moves**, past its frame or past an empty slot; the frames
beyond it stay where they are. -/
theorem Ledger.moves (h : Ledger n acc jb) (hdepth : jb'.depth = jb.depth)
    (hinit : jb'.init = true) (hexpected : jb'.expected = jb.expected + 1)
    (hkept : ∀ i, i ≠ jb.depth.slotIdx jb.expected → jb'.slots i = jb.slots i)
    (htaken : ∀ i, (jb'.slots i).valid = true →
      jb'.slots i = jb.slots i ∧ (jb.slots i).seq ≠ jb.expected) : Ledger (n + 1) acc jb' := by
  refine ⟨h.nodup, fun k s p hin hk => ?_, fun i hv => ?_⟩
  · obtain ⟨hi, hs, hlt, hslot⟩ := h.waiting k s p hin (by omega)
    have hsucc : BitVec.ofNat 16 (k - n) = 1 + BitVec.ofNat 16 (k - (n + 1)) := by
      rw [show k - n = 1 + (k - (n + 1)) by omega, BitVec.ofNat_add]
      rfl
    refine ⟨hinit, ?_, by rw [hdepth]; omega, ?_⟩
    · rw [hs, hsucc, hexpected, BitVec.add_assoc]
    · rw [hdepth, hkept, hslot]
      -- a number ahead of the cursor is not in the cursor's slot
      have hne := Continuation.slotIdx_path_ne jb.depth jb.expected (m := 0) (n := k - n)
        (by omega) (by omega)
      rw [hs]
      simpa using hne.symm
  · obtain ⟨heq, hne⟩ := htaken i hv
    rw [heq] at hv ⊢
    obtain ⟨k, p, hk, hin⟩ := h.held i hv
    refine ⟨k, p, ?_, hin⟩
    rcases hk.lt_or_eq with hlt | rfl
    · exact hlt
    · obtain ⟨-, hs, -⟩ := h.waiting n _ p hin le_rfl
      rw [Nat.sub_self, BitVec.add_zero] at hs
      exact absurd hs hne

/-- **A step keeps the ledger**, and the cursor delivers at its place what was
accepted for it. -/
theorem Ledger.step (h : Ledger n acc jb) (hinv : Inv jb) {op : Op}
    (hstrays : strays jb op = false) :
    Ledger (if Jitter.moves (jb, op, (Jitter.step jb op).2) then n + 1 else n)
        (acc ++ placed n (jb, op, (Jitter.step jb op).2)) (Jitter.step jb op).1 ∧
      (Jitter.moves (jb, op, (Jitter.step jb op).2) = true →
        placed n (jb, op, (Jitter.step jb op).2) = [] ∧
        ∀ s p, (n, s, p) ∈ acc ↔ s = jb.expected ∧
          (delivered? (jb, op, (Jitter.step jb op).2)).map Prod.snd = some p) := by
  have hdepth : (Jitter.step jb op).1.depth = jb.depth := step_depth op
  cases does_of_step hinv hstrays with
  | accepts haccepted hmoves hinit hexpected hlead hnear hnew hslots =>
      rw [placed, haccepted, hmoves]
      exact ⟨h.accepts hinit hdepth hexpected hlead hnear hnew hslots, fun hm => by cases hm⟩
  | rests haccepted hmoves hinit hslots =>
      rw [placed, haccepted, hmoves]
      simp only [Option.toList_none, List.map_nil, List.append_nil]
      exact ⟨h.rests hdepth hinit hslots, fun hm => by cases hm⟩
  | delivers haccepted hmoves hinit hexpected hat hdelivered hslots =>
      obtain ⟨hvalid, hseq⟩ := atCursor_iff.1 hat
      rw [placed, haccepted, hmoves]
      simp only [Option.toList_none, List.map_nil, List.append_nil]
      refine ⟨h.moves hdepth hinit hexpected (fun i hi => ?_) (fun i hv => ?_),
        fun _ => ⟨trivial, fun s p => ?_⟩⟩
      · rw [hslots]
        exact Function.update_of_ne hi _ _
      · rw [hslots] at hv ⊢
        obtain ⟨hne, heq⟩ := valid_clearCursor hv
        refine ⟨heq, fun hcursor => hne ?_⟩
        rw [heq] at hv
        rw [← hcursor]
        exact (hinv.slot_eq i hv).symm
      · rw [hdelivered]
        have hentry : ∀ s p, (n, s, p) ∈ acc → s = jb.expected ∧
            jb.cursorSlot = ⟨some p, s, true⟩ := by
          intro s p hin
          obtain ⟨-, hs, -, hslot⟩ := h.waiting n s p hin le_rfl
          rw [Nat.sub_self, BitVec.add_zero] at hs
          exact ⟨hs, by rw [JitterBuffer.cursorSlot, ← hs]; exact hslot⟩
        refine ⟨fun hin => ⟨(hentry s p hin).1, by rw [(hentry s p hin).2]⟩, ?_⟩
        rintro ⟨rfl, hpayload⟩
        obtain ⟨k, q, hk, hin⟩ := h.held _ hvalid
        change (k, jb.cursorSlot.seq, q) ∈ acc at hin
        rw [hseq] at hin
        -- the frame at the cursor has the cursor's place
        obtain ⟨-, hs, hlt, -⟩ := h.waiting k _ q hin hk
        have hplace : k = n := by
          have hdist := dist_add_of_lt jb.expected (n := k - n)
            (lt_of_lt_of_le hlt (jb.depth.le_limit.trans (by decide)))
          rw [← hs, dist_self] at hdist
          omega
        rw [hplace] at hin
        rw [(hentry _ q hin).2] at hpayload
        rwa [← Option.some.inj hpayload]
  | passes haccepted hmoves hinit hexpected hat hdelivered hslots =>
      rw [placed, haccepted, hmoves]
      simp only [Option.toList_none, List.map_nil, List.append_nil]
      have hmiss : ∀ i, (jb.slots i).valid = true → (jb.slots i).seq ≠ jb.expected := by
        intro i hv hcursor
        rw [hinv.atCursor_of_seq_eq hv hcursor] at hat
        cases hat
      refine ⟨h.moves hdepth hinit hexpected (fun i _ => by rw [hslots]) (fun i hv => ?_),
        fun _ => ⟨trivial, fun s p => ⟨fun hin => ?_, ?_⟩⟩⟩
      · rw [hslots] at hv ⊢
        exact ⟨rfl, hmiss i hv⟩
      · obtain ⟨-, hs, -, hslot⟩ := h.waiting n s p hin le_rfl
        rw [Nat.sub_self, BitVec.add_zero] at hs
        exact absurd (by rw [hslot]; exact hs) (hmiss (jb.depth.slotIdx s) (by rw [hslot]))
      · rintro ⟨-, hpayload⟩
        rw [hdelivered] at hpayload
        cases hpayload

end Ledger

/-! ## Runs inside the window -/

section Runs

variable {jb : JitterBuffer} {n : ℕ} {acc : List (ℕ × Seq × Payload)} {ops : List Op}

/-- The cursor comes to one place after the other. -/
theorem visits_places (n : ℕ) (es : List Event) :
    (visits n es).map Prod.fst = List.range' n (visits n es).length := by
  induction es generalizing n with
  | nil => rfl
  | cons e es ih =>
      unfold visits
      by_cases hmoves : moves e = true
      · simp only [if_pos hmoves, List.singleton_append, List.map_cons, List.length_cons, ih,
          List.range'_succ]
      · simp only [if_neg hmoves, List.nil_append, ih]

/-- Nothing is accepted for a place the cursor has passed. -/
theorem le_of_mem_places {es : List Event} {k : ℕ} {s : Seq} {p : Payload}
    (h : (k, s, p) ∈ places n es) : n ≤ k := by
  induction es generalizing n with
  | nil => cases h
  | cons e es ih =>
      rcases List.mem_append.1 h with h | h
      · obtain ⟨f, -, heq⟩ := List.mem_map.1 h
        have hplace : n + e.1.lead f.1 = k := congrArg Prod.fst heq
        exact hplace ▸ Nat.le_add_right n (e.1.lead f.1)
      · refine le_trans ?_ (ih h)
        split
        · exact Nat.le_succ n
        · exact le_rfl

/-- **A run inside the window keeps the ledger**, and what the cursor delivers at
a place is what was accepted for it. -/
theorem ledger_of_run (h : Ledger n acc jb) (hinv : Inv jb)
    (hwindow : never step strays jb ops = true) :
    Ledger (n + (visits n (trace step jb ops)).length) (acc ++ places n (trace step jb ops))
        (after step jb ops) ∧
      ∀ k c o, (k, c, o) ∈ visits n (trace step jb ops) → ∀ s p,
        (k, s, p) ∈ acc ++ places n (trace step jb ops) ↔ s = c ∧ o = some p := by
  induction ops generalizing jb n acc with
  | nil => simpa [places, visits] using h
  | cons op ops ih =>
      simp only [never, Bool.and_eq_true, Bool.not_eq_true'] at hwindow
      obtain ⟨hkept, hcursor⟩ := h.step hinv hwindow.1
      obtain ⟨hledger, hvisits⟩ := ih hkept (hinv.step op) hwindow.2
      rw [trace_cons, after_cons]
      unfold places visits
      by_cases hmoves : moves (jb, op, (step jb op).2) = true
      · obtain ⟨hplaced, hat⟩ := hcursor hmoves
        simp only [if_pos hmoves, hplaced, List.append_nil, List.nil_append] at hledger hvisits ⊢
        refine ⟨by rwa [List.length_append, List.length_singleton, ← Nat.add_assoc],
          fun k c o hvisit s p => ?_⟩
        rcases List.mem_append.1 hvisit with hvisit | hvisit
        · obtain ⟨rfl, rfl, rfl⟩ : k = n ∧ c = jb.expected ∧
              o = (delivered? (jb, op, (step jb op).2)).map Prod.snd := by
            simpa using List.mem_singleton.1 hvisit
          rw [← hat, List.mem_append]
          exact or_iff_left fun hlater => absurd (le_of_mem_places hlater) (Nat.lt_irrefl k)
        · exact hvisits k c o hvisit s p
      · simp only [if_neg hmoves, List.nil_append, List.append_assoc] at hledger hvisits ⊢
        exact ⟨hledger, hvisits⟩

/-- **No loss inside the window.** In a run from an empty buffer, in which every
push is of a number less than the depth ahead of the cursor and none resets, no
two frames are accepted for one place. The cursor comes to the places one after
the other; coming to one, it stands at the number of the frame accepted for it
and delivers that, and delivers nothing where none was. And a frame the cursor
has not come to is in its slot. -/
theorem no_loss_in_window {jb₀ : JitterBuffer} (hreach : Reachable jb₀) (hclear : Cleared jb₀)
    (hwindow : never step strays jb₀ ops = true) :
    ((places 0 (trace step jb₀ ops)).map Prod.fst).Nodup ∧
      (visits 0 (trace step jb₀ ops)).map Prod.fst =
        List.range (visits 0 (trace step jb₀ ops)).length ∧
      (∀ k c o, (k, c, o) ∈ visits 0 (trace step jb₀ ops) → ∀ s p,
        (k, s, p) ∈ places 0 (trace step jb₀ ops) ↔ s = c ∧ o = some p) ∧
      ∀ k s p, (k, s, p) ∈ places 0 (trace step jb₀ ops) →
        (visits 0 (trace step jb₀ ops)).length ≤ k →
        (after step jb₀ ops).slots ((after step jb₀ ops).depth.slotIdx s) = ⟨some p, s, true⟩ := by
  have hstart : Ledger 0 [] jb₀ := by
    refine ⟨List.nodup_nil, fun k s p hin => ?_, fun i hv => ?_⟩
    · cases hin
    · rw [hclear.2 i] at hv
      cases hv
  obtain ⟨hledger, hvisits⟩ := ledger_of_run hstart (inv_of_reachable hreach) hwindow
  simp only [List.nil_append, Nat.zero_add] at hledger hvisits
  refine ⟨hledger.nodup, ?_, hvisits, fun k s p hin hk => ?_⟩
  · rw [visits_places, List.range_eq_range']
  · exact (hledger.waiting k s p hin hk).2.2.2

/-- Frames either side of the wrap, the later one first. -/
theorem no_loss_in_window_wrap :
    places 0 (trace step four [.push 65535 [1] 1, .push 1 [3] 1, .push 0 [2] 1, .popReady,
        .popReady]) = [(0, 65535, [1]), (2, 1, [3]), (1, 0, [2])] ∧
      (after step four [.push 65535 [1] 1, .push 1 [3] 1, .push 0 [2] 1, .popReady,
        .popReady]).slots 1 = ⟨some [3], 1, true⟩ ∧
      ((1, 0, [2]) ∈ places 0 (trace step four [.push 65535 [1] 1, .push 1 [3] 1, .push 0 [2] 1,
        .popReady, .popReady]) ↔ (0 : Seq) = 0 ∧ some ([2] : Payload) = some [2]) := by
  obtain ⟨-, -, hvisits, hheld⟩ := @no_loss_in_window
    [.push 65535 [1] 1, .push 1 [3] 1, .push 0 [2] 1, .popReady, .popReady] four reachable_four
    cleared_four (by decide +kernel)
  exact ⟨by decide +kernel, hheld 2 1 [3] (by decide +kernel) (by decide +kernel),
    hvisits 1 0 (some [2]) (by decide +kernel) 0 [2]⟩

end Runs

end Jitter

end OpenManet
