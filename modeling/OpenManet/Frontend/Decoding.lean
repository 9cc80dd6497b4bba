import OpenManet.Lib.Machine
import OpenManet.Lib.Ring
/-!
# The browser — decoded audio

`services/audioEngine.js` and `services/replayBuffer.js`: frames of all
channels and speakers go through one decoder, which answers later. Who speaks
is not kept with a frame: `decodeAndPlay` remembers the channel and the source
of the frame it was given last, and what the decoder puts out is taken to be
theirs. `InStep` says when that is right.

The decoder is ready and the consumer of decoded audio is registered. Samples
are of any type. `blocks` and `appends` record what has happened; no function
reads them.
-/

namespace OpenManet

namespace Decoding

variable {α : Type*} [Zero α]

/-! ## Replay buffers -/

def sampleRate : ℕ := 48000

def replaySeconds : ℕ := 30

/-- `REPLAY_SIZE`. -/
def replaySize : ℕ := sampleRate * replaySeconds

/-- The channels of `CHANNELS_DEF`. -/
def channels : List ℕ := [1, 2, 3, 4, 5]

structure ReplayBuf (α : Type*) where
  data : ℤ → α
  writePos : ℕ
  totalWritten : ℕ

/-- `buffers`, by channel. -/
abbrev Buffers (α : Type*) : Type _ := ℕ → Option (ReplayBuf α)

def emptyBuffers : Buffers α := fun ch =>
  if ch ∈ channels then some { data := fun _ => 0, writePos := 0, totalWritten := 0 } else none

/-- A turn of the loop of `appendReplay`. -/
def ReplayBuf.put (buf : ReplayBuf α) (sample : α) : ReplayBuf α :=
  { buf with
    data := Function.update buf.data (Ring.slot replaySize buf.writePos) sample
    writePos := buf.writePos + 1 }

def ReplayBuf.append (buf : ReplayBuf α) (pcm : List α) : ReplayBuf α :=
  let written := pcm.foldl ReplayBuf.put buf
  { written with totalWritten := written.totalWritten + pcm.length }

def appendReplay (buffers : Buffers α) (ch : ℕ) (pcm : List α) : Buffers α :=
  match buffers ch with
  | none => buffers
  | some buf => Function.update buffers ch (some (buf.append pcm))

def getReplayPcm (buffers : Buffers α) (ch : ℕ) : Option (List α) :=
  match buffers ch with
  | none => none
  | some buf =>
    if buf.totalWritten = 0 then none
    else
      let len := min buf.totalWritten replaySize
      let start := buf.writePos - len
      some ((List.range len).map fun i =>
        buf.data (Ring.slot replaySize (start + i + replaySize)))

/-- The last 30 seconds of samples, as `getReplayPcm` is to return them. -/
def lastSeconds (samples : List α) : Option (List α) :=
  if samples = [] then none
  else some (samples.drop (samples.length - min samples.length replaySize))

/-- The buffer has been given the samples, in order. -/
structure ReplayBuf.Carries (buf : ReplayBuf α) (samples : List α) : Prop where
  holds : Ring.Holds buf.data replaySize samples (samples.length - replaySize)
  writePos : buf.writePos = samples.length
  totalWritten : buf.totalWritten = samples.length

namespace ReplayBuf

omit [Zero α]

variable {buf : ReplayBuf α} {samples pcm : List α}

theorem holds_put (hholds : Ring.Holds buf.data replaySize samples (samples.length - replaySize))
    (hpos : buf.writePos = samples.length) (sample : α) :
    Ring.Holds (buf.put sample).data replaySize (samples ++ [sample])
      ((samples ++ [sample]).length - replaySize) := by
  have hsize : 0 < replaySize := by decide
  have hlen : (samples ++ [sample]).length = samples.length + 1 := by simp
  unfold put
  rw [hpos]
  -- the sample that is overwritten is older than the window
  exact (hholds.of_le (by omega)).push sample (by omega)

theorem foldl_put (pcm : List α)
    (hholds : Ring.Holds buf.data replaySize samples (samples.length - replaySize))
    (hpos : buf.writePos = samples.length) :
    Ring.Holds (pcm.foldl put buf).data replaySize (samples ++ pcm)
        ((samples ++ pcm).length - replaySize) ∧
      (pcm.foldl put buf).writePos = (samples ++ pcm).length ∧
      (pcm.foldl put buf).totalWritten = buf.totalWritten := by
  induction pcm generalizing buf samples with
  | nil =>
      rw [List.append_nil]
      exact ⟨hholds, hpos, rfl⟩
  | cons sample pcm ih =>
      have hnext : (buf.put sample).writePos = (samples ++ [sample]).length := by
        rw [List.length_append, ← hpos]
        rfl
      have hrest := ih (holds_put hholds hpos sample) hnext
      rw [List.append_assoc, List.singleton_append] at hrest
      exact hrest

theorem Carries.append (h : buf.Carries samples) (pcm : List α) :
    (buf.append pcm).Carries (samples ++ pcm) := by
  obtain ⟨hholds, hpos, htotal⟩ := foldl_put pcm h.holds h.writePos
  refine ⟨hholds, hpos, ?_⟩
  show (pcm.foldl put buf).totalWritten + pcm.length = _
  rw [htotal, h.totalWritten, List.length_append]

/-- **What is read back are the last samples written.** -/
theorem Carries.read (h : buf.Carries samples) :
    ((List.range (min buf.totalWritten replaySize)).map fun i =>
        buf.data (Ring.slot replaySize
          (buf.writePos - min buf.totalWritten replaySize + i + replaySize))) =
      samples.drop (samples.length - min samples.length replaySize) := by
  rw [h.writePos, h.totalWritten]
  refine List.ext_getElem ?_ fun i hi hi' => ?_
  · rw [List.length_map, List.length_range, List.length_drop]
    omega
  · rw [List.length_map, List.length_range] at hi
    rw [List.getElem_map, List.getElem_range, List.getElem_drop]
    have hslot : Ring.slot replaySize
        (samples.length - min samples.length replaySize + i + replaySize) =
        Ring.slot replaySize (samples.length - min samples.length replaySize + i) := by
      rw [Ring.slot, Ring.slot, Nat.add_mod_right]
    rw [hslot]
    exact h.holds _ (by omega) _ (List.getElem?_eq_getElem _)

end ReplayBuf

/-! ## The decoder -/

/-- A frame as it is received. -/
structure Frame where
  ch : ℕ
  srcIP : String
  opusData : List UInt8
deriving DecidableEq

/-- A frame the decoder has accepted, as it was handed over. -/
structure Chunk where
  timestamp : ℕ
  frame : Frame
deriving DecidableEq

/-- What happens. -/
inductive Event (α : Type*) where
  /-- `decodeAndPlay`; the decoder throws at a frame it does not accept. -/
  | receive (frame : Frame) (accepted : Bool)
  /-- The decoder puts out the samples of its next frame. -/
  | output (pcm : List α)

/-- A decoded block: the frame it was decoded from, and what `onPcm` was told. -/
structure Block (α : Type*) where
  pcm : List α
  frame : Frame
  ch : ℕ
  srcIP : String
deriving DecidableEq

structure State (α : Type*) where
  lastDecodeCh : ℕ
  lastDecodeIP : String
  rxTimestamp : ℕ
  /-- Accepted and not yet put out. -/
  decoding : List Chunk
  buffers : Buffers α
  /-- What has been decoded. -/
  blocks : List (Block α)
  /-- What has been appended to a buffer, with its channel. -/
  appends : List (ℕ × List α)

def initial : State α where
  lastDecodeCh := 0
  lastDecodeIP := ""
  rxTimestamp := 0
  decoding := []
  buffers := emptyBuffers
  blocks := []
  appends := []

/-- `decodeAndPlay`, with the decoder ready. -/
def decodeAndPlay (s : State α) (frame : Frame) (accepted : Bool) : State α :=
  let rxTimestamp :=
    if frame.ch ≠ s.lastDecodeCh ∨ frame.srcIP ≠ s.lastDecodeIP then 0 else s.rxTimestamp
  let s := { s with
    lastDecodeCh := frame.ch, lastDecodeIP := frame.srcIP, rxTimestamp := rxTimestamp }
  if accepted then
    { s with
      decoding := s.decoding ++ [{ timestamp := rxTimestamp, frame := frame }]
      rxTimestamp := rxTimestamp + 20000 }
  else s

/-- The decoder's `output`: a block goes to the channel remembered, unless that
is zero, and to the consumer. -/
def output (s : State α) (chunk : Chunk) (rest : List Chunk) (pcm : List α) : State α :=
  { s with
    decoding := rest
    buffers :=
      if s.lastDecodeCh ≠ 0 then appendReplay s.buffers s.lastDecodeCh pcm else s.buffers
    appends :=
      if s.lastDecodeCh ≠ 0 ∧ (s.buffers s.lastDecodeCh).isSome then
        s.appends ++ [(s.lastDecodeCh, pcm)]
      else s.appends
    blocks := s.blocks ++
      [{ pcm := pcm, frame := chunk.frame, ch := s.lastDecodeCh, srcIP := s.lastDecodeIP }] }

def step (s : State α) : Event α → Option (State α)
  | .receive frame accepted => some (decodeAndPlay s frame accepted)
  | .output pcm =>
    match s.decoding with
    | [] => none
    | chunk :: rest => some (output s chunk rest pcm)

/-- The samples appended for a channel, in order. -/
def samplesFor (ch : ℕ) (appends : List (ℕ × List α)) : List α :=
  (appends.filter fun a => a.1 = ch).flatMap (·.2)

/-- **Every decoded block has gone to its sender**: reported with the channel
and the source of its frame, and appended to the buffer of that channel. -/
def Attributed (s : State α) : Prop :=
  (∀ b ∈ s.blocks, b.ch = b.frame.ch ∧ b.srcIP = b.frame.srcIP) ∧
    ∀ ch ∈ channels, samplesFor ch s.appends =
      (s.blocks.filter fun b => b.frame.ch = ch).flatMap (·.pcm)

/-- The frames are of one sender on one channel. -/
def SameSender (f g : Frame) : Prop := f.ch = g.ch ∧ f.srcIP = g.srcIP

/-- **The decoder keeps in step**: whenever it puts out a block, the frame
received last is of the sender of the frame decoded. The arguments are the
frames accepted and not yet put out, and the frame received last. -/
def InStep : List Frame → Option Frame → List (Event α) → Prop
  | _, _, [] => True
  | decoding, _, .receive frame accepted :: es =>
    InStep (if accepted then decoding ++ [frame] else decoding) (some frame) es
  | [], last, .output _ :: es => InStep [] last es
  | frame :: decoding, last, .output _ :: es =>
    (∃ f ∈ last, SameSender f frame) ∧ InStep decoding last es

/-! ## What is appended -/

section Appended

variable {s : State α} {buffers : Buffers α} {appends : List (ℕ × List α)} {ch : ℕ}

omit [Zero α] in
theorem samplesFor_concat (ch ch' : ℕ) (pcm : List α) :
    samplesFor ch (appends ++ [(ch', pcm)]) =
      samplesFor ch appends ++ if ch' = ch then pcm else [] := by
  unfold samplesFor
  split_ifs with h <;> simp [List.filter_append, h]

/-- The buffers are those of the channels, each with what has been appended for
it. -/
def Stored (buffers : Buffers α) (appends : List (ℕ × List α)) : Prop :=
  ∀ ch, match buffers ch with
    | none => ch ∉ channels ∧ samplesFor ch appends = []
    | some buf => ch ∈ channels ∧ buf.Carries (samplesFor ch appends)

theorem stored_empty : Stored (emptyBuffers : Buffers α) [] := by
  intro ch
  by_cases hch : ch ∈ channels
  · rw [emptyBuffers, if_pos hch]
    exact ⟨hch, ⟨Ring.holds_nil _ _, rfl, rfl⟩⟩
  · rw [emptyBuffers, if_neg hch]
    exact ⟨hch, rfl⟩

omit [Zero α] in
theorem Stored.isSome_buffers_iff (h : Stored buffers appends) : (buffers ch).isSome ↔ ch ∈ channels := by
  have hch := h ch
  cases hbuf : buffers ch with
  | none =>
      rw [hbuf] at hch
      simpa using hch.1
  | some buf =>
      rw [hbuf] at hch
      simpa using hch.1

omit [Zero α] in
/-- `appendReplay` on a channel that has a buffer. -/
theorem Stored.append (h : Stored buffers appends) (hch : (buffers ch).isSome) (pcm : List α) :
    Stored (appendReplay buffers ch pcm) (appends ++ [(ch, pcm)]) := by
  obtain ⟨buf, hbuf⟩ := Option.isSome_iff_exists.1 hch
  intro ch'
  have hat := h ch'
  have hnext : appendReplay buffers ch pcm = Function.update buffers ch (some (buf.append pcm)) := by
    rw [appendReplay, hbuf]
  rw [hnext, samplesFor_concat]
  by_cases heq : ch = ch'
  · subst heq
    rw [hbuf] at hat
    rw [Function.update_self, if_pos rfl]
    exact ⟨hat.1, hat.2.append pcm⟩
  · rw [Function.update_of_ne (Ne.symm heq), if_neg heq, List.append_nil]
    exact hat

omit [Zero α] in
/-- And on one that has none. -/
theorem appendReplay_of_none (hch : ¬(buffers ch).isSome) (pcm : List α) :
    appendReplay buffers ch pcm = buffers := by
  unfold appendReplay
  rw [Option.not_isSome_iff_eq_none.1 hch]

omit [Zero α] in
/-- **A replay is the last 30 seconds that were appended for its channel.** -/
theorem Stored.getReplayPcm (h : Stored buffers appends) (ch : ℕ) :
    getReplayPcm buffers ch = lastSeconds (samplesFor ch appends) := by
  have hch := h ch
  unfold Decoding.getReplayPcm lastSeconds
  cases hbuf : buffers ch with
  | none =>
      rw [hbuf] at hch
      simp [hch.2]
  | some buf =>
      rw [hbuf] at hch
      simp only [hch.2.totalWritten, List.length_eq_zero_iff]
      split_ifs
      · rfl
      · have hread := hch.2.read
        rw [hch.2.totalWritten] at hread
        rw [hread]

end Appended

/-! ## Runs -/

section Runs

variable {s t u : State α} {events : List (Event α)} {e : Event α} {chunk : Chunk}
  {rest : List Chunk} {pcm : List α}

/-- What every step keeps: the buffers are in order, and hold what was reported
for their channels. -/
structure Kept (s : State α) : Prop where
  stored : Stored s.buffers s.appends
  reported : ∀ ch ∈ channels, samplesFor ch s.appends =
    (s.blocks.filter fun b => b.ch = ch).flatMap (·.pcm)

theorem kept_initial : Kept (initial : State α) := ⟨stored_empty, fun _ _ => rfl⟩

omit [Zero α] in
theorem Kept.output (h : Kept s) (chunk : Chunk) (rest : List Chunk) (pcm : List α) :
    Kept (output s chunk rest pcm) := by
  have hzero : (0 : ℕ) ∉ channels := by decide
  by_cases hbuf : (s.buffers s.lastDecodeCh).isSome
  · have hne : s.lastDecodeCh ≠ 0 := fun heq => hzero (heq ▸ h.stored.isSome_buffers_iff.1 hbuf)
    refine ⟨?_, fun ch hch => ?_⟩
    · simp only [Decoding.output, if_pos hne, if_pos (And.intro hne hbuf)]
      exact h.stored.append hbuf pcm
    · simp only [Decoding.output, if_pos (And.intro hne hbuf), samplesFor_concat, h.reported ch hch,
        List.filter_append, List.flatMap_append]
      by_cases heq : s.lastDecodeCh = ch <;> simp [heq]
  · have hnot : ¬(s.lastDecodeCh ≠ 0 ∧ (s.buffers s.lastDecodeCh).isSome) := fun hb => hbuf hb.2
    refine ⟨?_, fun ch hch => ?_⟩
    · simp only [Decoding.output, if_neg hnot, appendReplay_of_none hbuf, ite_self]
      exact h.stored
    · have hne : s.lastDecodeCh ≠ ch := fun heq => hbuf (h.stored.isSome_buffers_iff.2 (heq ▸ hch))
      simp only [Decoding.output, if_neg hnot, h.reported ch hch, List.filter_append]
      simp [hne]

omit [Zero α] in
theorem Kept.step (h : Kept s) (hstep : step s e = some t) : Kept t := by
  cases e with
  | receive frame accepted =>
      obtain rfl := Option.some.inj hstep
      unfold decodeAndPlay
      cases accepted
      · exact ⟨h.stored, h.reported⟩
      · exact ⟨h.stored, h.reported⟩
  | output pcm =>
      unfold Decoding.step at hstep
      cases hdec : s.decoding with
      | nil =>
          rw [hdec] at hstep
          cases hstep
      | cons chunk rest =>
          rw [hdec] at hstep
          obtain rfl := Option.some.inj hstep
          exact h.output chunk rest pcm

/-- What is reported of every block is what its frame says. -/
def Reported (s : State α) : Prop := ∀ b ∈ s.blocks, b.ch = b.frame.ch ∧ b.srcIP = b.frame.srcIP

omit [Zero α] in
/-- **The reports decide**: where they are right, so are the buffers. -/
theorem Kept.attributed_iff_reported (h : Kept s) : Attributed s ↔ Reported s := by
  refine ⟨fun hattr => hattr.1, fun hrep => ⟨hrep, fun ch hch => ?_⟩⟩
  rw [h.reported ch hch]
  congr 1
  exact List.filter_congr fun b hb => by rw [(hrep b hb).1]

/-- The frames not yet put out and the frame received last, as the state has
them. -/
structure Follows (s : State α) (decoding : List Frame) (last : Option Frame) : Prop where
  queue : s.decoding.map (·.frame) = decoding
  remembered : ∀ f ∈ last, s.lastDecodeCh = f.ch ∧ s.lastDecodeIP = f.srcIP
  received : decoding ≠ [] → last ≠ none

theorem follows_initial : Follows (initial : State α) [] none where
  queue := rfl
  remembered := fun _ hf => by cases hf
  received := fun hne => absurd rfl hne

omit [Zero α] in
theorem Follows.receive {decoding : List Frame} {last : Option Frame} (h : Follows s decoding last)
    (frame : Frame) (accepted : Bool) :
    Follows (decodeAndPlay s frame accepted) (if accepted then decoding ++ [frame] else decoding)
      (some frame) := by
  cases accepted with
  | true =>
      refine ⟨?_, fun f hf => ?_, fun _ => Option.some_ne_none frame⟩
      · simp [decodeAndPlay, h.queue]
      · obtain rfl := Option.some.inj hf
        exact ⟨rfl, rfl⟩
  | false =>
      refine ⟨h.queue, fun f hf => ?_, fun _ => Option.some_ne_none frame⟩
      obtain rfl := Option.some.inj hf
      exact ⟨rfl, rfl⟩

omit [Zero α] in
/-- The state remembers the sender of a frame if the frame received last is of
that sender. -/
theorem Follows.sameSender_iff {frame : Frame} {decoding : List Frame} {last : Option Frame}
    (h : Follows s (frame :: decoding) last) :
    (s.lastDecodeCh = frame.ch ∧ s.lastDecodeIP = frame.srcIP) ↔
      ∃ f ∈ last, SameSender f frame := by
  obtain ⟨f, hf⟩ := Option.ne_none_iff_exists'.1 (h.received (List.cons_ne_nil _ _))
  obtain ⟨hch, hip⟩ := h.remembered f hf
  rw [hch, hip]
  constructor
  · exact fun hsame => ⟨f, hf, hsame⟩
  · rintro ⟨g, hg, hsame⟩
    obtain rfl := Option.some.inj (hf.symm.trans hg)
    exact hsame

omit [Zero α] in
/-- What is decoded stays. -/
theorem blocks_subset (h : Run step s events t) : s.blocks ⊆ t.blocks := by
  refine h.invariant_of_step (I := fun u => s.blocks ⊆ u.blocks) (List.Subset.refl _) ?_
  intro u e v hu hstep
  refine List.Subset.trans hu ?_
  cases e with
  | receive frame accepted =>
      obtain rfl := Option.some.inj hstep
      cases accepted <;> exact List.Subset.refl _
  | output pcm =>
      unfold Decoding.step at hstep
      cases hdec : u.decoding with
      | nil =>
          rw [hdec] at hstep
          cases hstep
      | cons chunk rest =>
          rw [hdec] at hstep
          obtain rfl := Option.some.inj hstep
          exact List.subset_append_left _ _

omit [Zero α] in
/-- **The reports of a run** are right if and only if the decoder keeps in step.
By induction on the run: a block that is reported wrongly stays. -/
theorem reported_iff {decoding : List Frame} {last : Option Frame} (h : Run step s events t)
    (hs : Follows s decoding last) (hrep : Reported s) :
    Reported t ↔ InStep decoding last events := by
  induction h generalizing decoding last with
  | nil s => exact iff_of_true hrep trivial
  | @cons s u t e es hfirst hrest ih =>
      cases e with
      | receive frame accepted =>
          obtain rfl := Option.some.inj hfirst
          refine ih (hs.receive frame accepted) ?_
          cases accepted
          · exact hrep
          · exact hrep
      | output pcm =>
          unfold Decoding.step at hfirst
          cases hdec : s.decoding with
          | nil =>
              rw [hdec] at hfirst
              cases hfirst
          | cons chunk rest =>
              rw [hdec] at hfirst
              obtain rfl := Option.some.inj hfirst
              obtain rfl : decoding = chunk.frame :: rest.map (·.frame) := by
                rw [← hs.queue, hdec, List.map_cons]
              show _ ↔ (∃ f ∈ last, SameSender f chunk.frame) ∧ InStep (rest.map (·.frame)) last es
              rw [← hs.sameSender_iff]
              by_cases hsame : s.lastDecodeCh = chunk.frame.ch ∧ s.lastDecodeIP = chunk.frame.srcIP
              · have hnext : Follows (output s chunk rest pcm) (rest.map (·.frame)) last :=
                  ⟨rfl, hs.remembered, fun _ => hs.received (List.cons_ne_nil _ _)⟩
                rw [ih hnext (List.forall_mem_append.2 ⟨hrep, by simpa using hsame⟩)]
                exact (and_iff_right hsame).symm
              · refine iff_of_false (fun hall => hsame ?_) fun hin => hsame hin.1
                exact hall _ (blocks_subset hrest (List.mem_append_right _ List.mem_cons_self))

/-- **Decoded audio goes to its sender** if and only if the decoder keeps in
step, and a replay is the last 30 seconds of what was appended in any case. -/
theorem attributed_iff (h : Run step (initial : State α) events s) :
    (Attributed s ↔ InStep [] none events) ∧
      ∀ ch, getReplayPcm s.buffers ch = lastSeconds (samplesFor ch s.appends) := by
  have hkept : Kept s := h.invariant_of_step kept_initial fun u e v hu hstep => hu.step hstep
  refine ⟨?_, fun ch => hkept.stored.getReplayPcm ch⟩
  rw [hkept.attributed_iff_reported]
  exact reported_iff h follows_initial fun b hb => by cases hb

/-- A frame of each of two speakers, and then the block of the first. -/
def lateOutput : List (Event ℤ) :=
  [.receive { ch := 1, srcIP := "10.41.0.1", opusData := [0] } true,
    .receive { ch := 2, srcIP := "10.41.0.2", opusData := [1] } true,
    .output [7]]

/-- It is the second speaker's for the consumer and for the replay. -/
theorem not_attributed_lateOutput :
    ∃ s, Run step (initial : State ℤ) lateOutput s ∧ ¬Attributed s ∧
      getReplayPcm s.buffers 1 = none ∧ getReplayPcm s.buffers 2 = some [7] := by
  refine ⟨_, .of_foldlM rfl, fun hattr => ?_, by decide +kernel, by decide +kernel⟩
  exact absurd (hattr.1 _ List.mem_cons_self).1 (by decide)

/-- A block that is put out before the next frame comes. -/
theorem attributed_prompt :
    ∃ s, Run step (initial : State ℤ)
        [.receive { ch := 1, srcIP := "10.41.0.1", opusData := [0] } true, .output [7]] s ∧
      Attributed s ∧ getReplayPcm s.buffers 1 = lastSeconds (samplesFor 1 s.appends) := by
  have hrun : Run step (initial : State ℤ)
      [.receive { ch := 1, srcIP := "10.41.0.1", opusData := [0] } true, .output [7]] _ :=
    .of_foldlM rfl
  exact ⟨_, hrun, (attributed_iff hrun).1.2 ⟨⟨_, rfl, rfl, rfl⟩, trivial⟩, (attributed_iff hrun).2 1⟩

end Runs

end Decoding

end OpenManet
