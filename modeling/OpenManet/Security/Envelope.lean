import OpenManet.Security.Replay
/-!
# Mesh payloads — round trip and authenticity

The nodes of a mesh share a passphrase, so what any of them seals any other
opens. A run here is one receiver's: the envelopes all the nodes make, in
the order they are made, and the byte strings the receiver is handed, which
may be anything.

Under the ideal cipher the two directions meet. What was sealed comes back,
if it is in time and its nonce is new; and what comes back was sealed, byte
for byte, under the type it is read as.
-/

namespace OpenManet

namespace Security

open Bytes

/-- What happens among the nodes that share a key. -/
inductive Event where
  /-- Some node seals a payload. -/
  | encrypt (nonce : Nonce) (now : ℤ) (dataType : UInt8) (plaintext : List UInt8)
  /-- The receiver is handed a byte string. -/
  | decrypt (now : ℤ) (dataType : UInt8) (source encrypted : List UInt8)

/-- What comes of it. -/
inductive Outcome where
  | sealed (envelope : List UInt8)
  | answer (answer : Answer)

/-- The receiver's codec, and what has been sealed under the key. -/
structure Mesh where
  codec : PayloadCodec
  history : List Sealing

/-- One event. The codecs that seal differ from the receiver's in their
memory alone, which sealing does not read. -/
def Mesh.step (m : Mesh) : Event → Mesh × Outcome
  | .encrypt nonce now dataType plaintext =>
      let made := m.codec.encryptWith nonce now dataType plaintext
      ({ m with history := m.history ++ [made.2] }, .sealed made.1)
  | .decrypt now dataType source encrypted =>
      let (codec, answer) := m.codec.step ⟨m.history, now, dataType, source, encrypted⟩
      ({ m with codec := codec }, .answer answer)

/-- A run has accepted an envelope of this nonce from this source. -/
def AcceptedFrom (m : Mesh) (events : List Event) (source nonce : List UInt8) : Prop :=
  ∃ e ∈ trace Mesh.step m events, ∃ now dataType encrypted plaintext,
    e.2.1 = .decrypt now dataType source encrypted ∧ e.2.2 = .answer (some (.ok plaintext)) ∧
      slice encrypted 9 envelopeHeaderSize = some nonce

variable {m : Mesh} {events : List Event}

/-! ## What a run keeps -/

/-- An event changes the memory of the codec alone. -/
theorem step_codec (m : Mesh) (event : Event) :
    ∃ seen, (m.step event).1.codec = { m.codec with seen := seen } := by
  cases event with
  | encrypt nonce now dataType plaintext => exact ⟨_, rfl⟩
  | decrypt now dataType source encrypted => exact PayloadCodec.step_eq_with _ _

theorem after_codec (m : Mesh) (events : List Event) :
    ∃ seen, (after Mesh.step m events).codec = { m.codec with seen := seen } := by
  refine after_invariant (I := fun m' : Mesh => ∃ seen, m'.codec = { m.codec with seen := seen })
    (fun m' event hm => ?_) ⟨_, rfl⟩ events
  obtain ⟨seen, hm⟩ := hm
  obtain ⟨seen', hstep⟩ := step_codec m' event
  exact ⟨seen', by rw [hstep, hm]⟩

/-- What an event seals. -/
theorem mem_history_step {s : Sealing} {event : Event} :
    s ∈ (m.step event).1.history ↔ s ∈ m.history ∨ ∃ nonce now dataType plaintext,
      event = .encrypt nonce now dataType plaintext ∧
        s = (m.codec.encryptWith nonce now dataType plaintext).2 := by
  cases event with
  | encrypt nonce now dataType plaintext =>
      constructor
      · intro h
        rcases List.mem_append.1 h with h | h
        · exact .inl h
        · exact .inr ⟨nonce, now, dataType, plaintext, rfl, List.mem_singleton.1 h⟩
      · rintro (h | ⟨_, _, _, _, heq, rfl⟩)
        · exact List.mem_append_left _ h
        · cases heq
          exact List.mem_append_right _ List.mem_cons_self
  | decrypt now dataType source encrypted =>
      constructor
      · intro h
        exact .inl h
      · rintro (h | ⟨_, _, _, _, heq, -⟩)
        · exact h
        · cases heq

/-- **The history is what the run has sealed.** -/
theorem mem_history {s : Sealing} :
    s ∈ (after Mesh.step m events).history ↔ s ∈ m.history ∨ ∃ nonce now dataType plaintext,
      Event.encrypt nonce now dataType plaintext ∈ events ∧
        s = (m.codec.encryptWith nonce now dataType plaintext).2 := by
  induction events generalizing m with
  | nil => simp
  | cons event events ih =>
      obtain ⟨seen, hcodec⟩ := step_codec m event
      have hsame : (m.step event).1.codec.encryptWith = m.codec.encryptWith := by rw [hcodec]; rfl
      rw [after_cons, ih, mem_history_step, hsame, or_assoc]
      refine or_congr Iff.rfl ⟨?_, ?_⟩
      · rintro (⟨nonce, now, dataType, plaintext, rfl, hs⟩ | ⟨nonce, now, dataType, plaintext, h, hs⟩)
        · exact ⟨nonce, now, dataType, plaintext, List.mem_cons_self, hs⟩
        · exact ⟨nonce, now, dataType, plaintext, List.mem_cons_of_mem _ h, hs⟩
      · rintro ⟨nonce, now, dataType, plaintext, h, hs⟩
        rcases List.mem_cons.1 h with rfl | h
        · exact .inl ⟨nonce, now, dataType, plaintext, rfl, hs⟩
        · exact .inr ⟨nonce, now, dataType, plaintext, h, hs⟩

/-- What an event leaves remembered was so before it, or it accepted it. -/
theorem acceptedFrom_of_step {event : Event} {key : String} {received : ℤ}
    (hseen : (m.step event).1.codec.seen key = some received) :
    m.codec.seen key = some received ∨ ∃ source nonce, AcceptedFrom m [event] source nonce ∧
      nonce.length = nonceSizeX ∧ replayKey source nonce = key := by
  cases event with
  | encrypt nonce now dataType plaintext => exact .inl hseen
  | decrypt now dataType source encrypted =>
      rcases PayloadCodec.seen_step hseen with hold | ⟨haccept, -, header, hheader, hkey⟩
      · exact .inl hold
      · obtain ⟨hbytes, -, hlen, -⟩ := PayloadCodec.readHeader_ok_iff.1 hheader
        refine .inr ⟨source, header.nonce, ⟨_, List.mem_cons_self, now, dataType, encrypted, ?_⟩,
          hlen, hkey⟩
        have hslice : slice encrypted 9 envelopeHeaderSize = some header.nonce := by
          have hbytes' : encrypted = envelope header.ts header.nonce header.ciphertext := hbytes
          rw [hbytes']
          exact slice_append (by simp [envelopeTimestampSize]) (by
            simp [hlen, envelopeTimestampSize, envelopeHeaderSize])
        have hanswer : ∃ p, (m.codec.step ⟨m.history, now, dataType, source, encrypted⟩).2 =
            some (.ok p) := by
          revert haccept
          generalize (m.codec.step ⟨m.history, now, dataType, source, encrypted⟩).2 = r
          rcases r with _ | ⟨_ | p⟩
          · rintro ⟨⟩
          · rintro ⟨⟩
          · exact fun _ => ⟨p, rfl⟩
        obtain ⟨p, hp⟩ := hanswer
        exact ⟨p, rfl, congrArg Outcome.answer hp, hslice⟩

/-- **What is remembered was accepted**, if the run starts with nothing
remembered. -/
theorem acceptedFrom_of_seen {key : String} {received : ℤ}
    (hseen : (after Mesh.step m events).codec.seen key = some received) :
    m.codec.seen key = some received ∨ ∃ source nonce, AcceptedFrom m events source nonce ∧
      nonce.length = nonceSizeX ∧ replayKey source nonce = key := by
  induction events generalizing m with
  | nil => exact .inl hseen
  | cons event events ih =>
      rcases ih hseen with hhere | ⟨source, nonce, ⟨e, he, haccept⟩, hlen, hkey⟩
      · rcases acceptedFrom_of_step hhere with hold | ⟨source, nonce, ⟨e, he, haccept⟩, hlen, hkey⟩
        · exact .inl hold
        · rw [List.mem_singleton.1 he] at haccept
          exact .inr ⟨source, nonce, ⟨_, List.mem_cons_self, haccept⟩, hlen, hkey⟩
      · exact .inr ⟨source, nonce, ⟨e, List.mem_cons_of_mem _ he, haccept⟩, hlen, hkey⟩

/-! ## The two directions -/

section Ideal

variable {c : PayloadCodec} (hideal : c.aead.Ideal)

include hideal in
/-- **What was sealed comes back.** -/
theorem decrypt_encryptWith {nonce : Nonce} {now now' : ℤ} {dataType : UInt8}
    {plaintext source : List UInt8} {history : List Sealing}
    (hsealed : (c.encryptWith nonce now dataType plaintext).2 ∈ history)
    (hfresh : Fresh c.replayWindow now' (unix now))
    (hunseen : c.seen (replayKey source nonce.1) = none) :
    ∃ c', c.decrypt ⟨history, now', dataType, source,
      (c.encryptWith nonce now dataType plaintext).1⟩ = some (.ok plaintext, c') := by
  have hheader : c.readHeader ⟨history, now', dataType, source,
      (c.encryptWith nonce now dataType plaintext).1⟩ = some (.ok ⟨unix now, nonce.1,
        c.aead.sealWith nonce.1 plaintext (buildAAD dataType (unix now))⟩) := by
    refine PayloadCodec.readHeader_ok_iff.2 ⟨rfl, isInt64_int64 _, nonce.2, ?_, hfresh⟩
    rw [hideal.length_seal]
    exact Nat.le_add_left ..
  refine ⟨_, PayloadCodec.decrypt_ok_iff.2 ⟨_, hheader, ?_, ?_, rfl⟩⟩
  · show pruneSeen _ _ _ _ = none
    rw [pruneSeen, hunseen]
    rfl
  · exact (hideal.opens_iff ..).2 ⟨hsealed, rfl⟩

include hideal in
/-- **What comes back was sealed**, byte for byte and under the same type. -/
theorem encryptWith_of_decrypt {call : Call} {plaintext : List UInt8} {c' : PayloadCodec}
    (h : c.decrypt call = some (.ok plaintext, c')) :
    ∃ ts : ℤ, ∃ nonce : Nonce, IsInt64 ts ∧
      ⟨nonce.1, plaintext, buildAAD call.dataType ts⟩ ∈ call.history ∧
      call.encrypted =
        envelope ts nonce.1 (c.aead.sealWith nonce.1 plaintext (buildAAD call.dataType ts)) := by
  obtain ⟨header, hheader, -, hopen, -⟩ := PayloadCodec.decrypt_ok_iff.1 h
  obtain ⟨hbytes, hint, hlen, -⟩ := PayloadCodec.readHeader_ok_iff.1 hheader
  obtain ⟨hmem, hciphertext⟩ := (hideal.opens_iff ..).1 hopen
  exact ⟨header.ts, ⟨header.nonce, hlen⟩, hint, hmem, hciphertext ▸ hbytes⟩

end Ideal

/-- **The envelope codec.** In whatever order the nodes of a mesh seal
payloads and a receiver is handed byte strings:

* what was sealed is read back, if the receiver's clock is within the window
  of the second it was sealed at and nothing of that nonce was accepted from
  that source;
* what is accepted is, byte for byte, what some node sealed under the type it
  is read as, and the payload is that node's;
* no byte string is read outside its bounds;
* what is refused changes nothing in the memory but what has expired. -/
theorem envelope_codec {derive : List Char → Aead} {passphrase : List Char} {c : PayloadCodec}
    (hideal : (derive (Text.trimSpace passphrase)).Ideal)
    (hnew : newPayloadCodecFromPassphrase derive passphrase = .ok c) (events : List Event) :
    (∀ nonce now dataType plaintext, Event.encrypt nonce now dataType plaintext ∈ events →
      ∀ source now', Fresh c.replayWindow now' (unix now) →
        ¬ AcceptedFrom ⟨c, []⟩ events source nonce.1 →
          ∃ c', (after Mesh.step ⟨c, []⟩ events).codec.decrypt
            ⟨(after Mesh.step ⟨c, []⟩ events).history, now', dataType, source,
              (c.encryptWith nonce now dataType plaintext).1⟩ = some (.ok plaintext, c')) ∧
    (∀ now dataType source encrypted plaintext c',
      (after Mesh.step ⟨c, []⟩ events).codec.decrypt
        ⟨(after Mesh.step ⟨c, []⟩ events).history, now, dataType, source, encrypted⟩ =
          some (.ok plaintext, c') →
        ∃ nonce now', Event.encrypt nonce now' dataType plaintext ∈ events ∧
          encrypted = (c.encryptWith nonce now' dataType plaintext).1) ∧
    (∀ call, ((after Mesh.step ⟨c, []⟩ events).codec.decrypt call).isSome = true) ∧
    (∀ call e c', (after Mesh.step ⟨c, []⟩ events).codec.decrypt call = some (.error e, c') →
      ∀ key, c'.seen key = (after Mesh.step ⟨c, []⟩ events).codec.seen key ∨
        c'.seen key = none ∧ ∃ received,
          (after Mesh.step ⟨c, []⟩ events).codec.seen key = some received ∧
            received < call.now - c.replayWindow) := by
  have hinit := eq_of_new hnew
  have haead : c.aead = derive (Text.trimSpace passphrase) := by rw [hinit]
  have hnothing : ∀ key, c.seen key = none := by
    intro key
    rw [hinit]
  obtain ⟨seen, hcodec⟩ := after_codec ⟨c, []⟩ events
  have hcodec' : (after Mesh.step ⟨c, []⟩ events).codec = { c with seen := seen } := hcodec
  have hideal' : ({ c with seen := seen } : PayloadCodec).aead.Ideal := by
    show c.aead.Ideal
    rw [haead]
    exact hideal
  refine ⟨?_, ?_, fun call => PayloadCodec.decrypt_isSome _ call, ?_⟩
  · intro nonce now dataType plaintext hevent source now' hfresh hnew'
    have hsealed := (mem_history (m := ⟨c, []⟩)).2 (.inr ⟨nonce, now, dataType, plaintext, hevent, rfl⟩)
    have hunseen : seen (replayKey source nonce.1) = none := by
      by_contra hseen
      obtain ⟨received, hseen⟩ := Option.ne_none_iff_exists'.1 hseen
      have hseen' : (after Mesh.step ⟨c, []⟩ events).codec.seen (replayKey source nonce.1) =
          some received := by rw [hcodec']; exact hseen
      rcases acceptedFrom_of_seen hseen' with hold | ⟨source', nonce', haccept, hlen, hkey⟩
      · exact absurd ((hnothing _).symm.trans hold) (by simp)
      · obtain ⟨rfl, rfl⟩ := replayKey_inj (hlen.trans nonce.2.symm) hkey
        exact hnew' haccept
    rw [hcodec']
    exact decrypt_encryptWith (c := { c with seen := seen }) hideal' hsealed hfresh hunseen
  · intro now dataType source encrypted plaintext c' h
    rw [hcodec'] at h
    obtain ⟨ts, nonce, hint, hmem, hbytes⟩ := encryptWith_of_decrypt hideal' h
    rcases mem_history.1 hmem with hold | ⟨nonce', now', dataType', plaintext', hevent, heq⟩
    · cases hold
    · obtain ⟨hnonce, rfl, haad⟩ := Sealing.mk.inj heq
      obtain ⟨rfl, hts⟩ := buildAAD_inj haad
      obtain rfl := Subtype.ext hnonce
      -- the second is read as it was written
      have hts' : ts = unix now' := hint.symm.trans (hts.trans (isInt64_int64 _))
      subst hts'
      exact ⟨nonce, now', hevent, hbytes⟩
  · intro call e c' h key
    rcases PayloadCodec.decrypt_error h with rfl | rfl
    · exact .inl rfl
    · rw [hcodec']
      exact PayloadCodec.pruneSeen_eq c.replayWindow seen call.now key

/-- The codec on one envelope: sealed at noon, read a minute later by a
receiver that has read nothing yet. -/
theorem envelope_codec_once :
    ∃ c', (after Mesh.step ⟨freshCodec, []⟩
        [.encrypt ⟨List.replicate 24 7, rfl⟩ 63902865600000000000 42 [104, 105]]).codec.decrypt
      ⟨(after Mesh.step ⟨freshCodec, []⟩
          [.encrypt ⟨List.replicate 24 7, rfl⟩ 63902865600000000000 42 [104, 105]]).history,
        63902865660000000000, 42, [2, 66, 66, 66, 66, 66],
        (freshCodec.encryptWith ⟨List.replicate 24 7, rfl⟩ 63902865600000000000 42 [104, 105]).1⟩ =
      some (.ok [104, 105], c') := by
  refine (@envelope_codec (fun _ => Aead.clear) ['m'] freshCodec Aead.clear_ideal rfl
    [.encrypt ⟨List.replicate 24 7, rfl⟩ 63902865600000000000 42 [104, 105]]).1 _ _ _ _
    List.mem_cons_self _ _ (by decide +kernel) ?_
  rintro ⟨e, he, now, dataType, encrypted, plaintext, hevent, -⟩
  rw [trace_cons, trace_nil, List.mem_singleton] at he
  rw [he] at hevent
  cases hevent

end Security

end OpenManet
