import OpenManet.Bridge.PushToTalk
/-!
# The web bridge — what the toggles decide

A browser says, a talk group at a time or all at once, what it wants to hear
and where it wants to be heard. The daemon's talk groups are `1` to `32`; the
client keeps sixteen switches, `0` to `15`. So from talk group sixteen on
nothing a browser says makes it hear the mesh. Between two browsers the frame
goes out as one of channel `0`, which is nobody's talk group, whatever the
sender has switched on.

Every send buffer has room here. `latest` is what a history of messages says
of a switch, whether or not the client has it.
-/

namespace OpenManet

namespace Bridge

open Bytes

variable {ClientId : Type} [DecidableEq ClientId]

/-! ## Frames from the mesh -/

/-- `wsChannel`. -/
def wsChannel (talkgroup : ℤ) : UInt8 :=
  if talkgroup < 1 ∨ 255 < talkgroup then 1 else UInt8.ofNat talkgroup.toNat

/-- `StreamAudioRxResponse`, as it is received. -/
structure AudioFrame where
  talkgroup : ℤ
  sequence : ℕ
  opusData : List UInt8
deriving DecidableEq

/-- `EncodeAudioRX`, of the frame as `receiveAudioRX` fills it. -/
def AudioFrame.encode (frame : AudioFrame) : List UInt8 :=
  [opcodeAudioRX, wsChannel frame.talkgroup] ++ putBigEndian 4 0 ++
    putBigEndian 2 (frame.sequence % 2 ^ 16) ++ [0, 0, 0, 0] ++ frame.opusData

/-- `receiveAudioRX` and `Hub.BroadcastAudioRX`: the clients the frame is
queued to, and what is queued. -/
def State.receiveAudioRX (s : State ClientId) (frame : AudioFrame) :
    List (ClientId × List UInt8) :=
  if frame.opusData = [] then []
  else (s.ids.filter fun id => (s.client id).isRXEnabled (wsChannel frame.talkgroup)).map
    (·, frame.encode)

/-- The clients as they connect, with every switch off. -/
def connected (ids : List ClientId) : State ClientId :=
  ⟨ids, fun _ => ⟨fun _ => false, fun _ => false⟩, false⟩

/-! ## What is asked for -/

/-- What a message says of a switch: it is a toggle of the switch, or of all
of them. -/
def toggleOf (single allOn allOff channel : UInt8) : List UInt8 → Option Bool
  | [] => none
  | opcode :: rest =>
      if opcode = single then
        ((decodeToggle (opcode :: rest)).filter fun toggle => toggle.channel = channel).map (·.on)
      else if opcode = allOn then some true
      else if opcode = allOff then some false
      else none

/-- What a message says of RX on a channel. -/
def rxToggle : UInt8 → List UInt8 → Option Bool :=
  toggleOf opcodeRXToggle opcodeRXAllOn opcodeRXAllOff

/-- What a message says of TX on a channel. -/
def txToggle : UInt8 → List UInt8 → Option Bool :=
  toggleOf opcodeTXToggle opcodeTXAllOn opcodeTXAllOff

/-- What a client's messages say of a switch in the end; off, if nothing. -/
def latest (word : List UInt8 → Option Bool) (id : ClientId)
    (messages : List (ClientId × List UInt8)) : Bool :=
  messages.foldl (fun on message => if message.1 = id then (word message.2).getD on else on) false

/-- The client's latest word on RX of a talk group is on. -/
def WantsRX (messages : List (ClientId × List UInt8)) (id : ClientId) (talkgroup : ℕ) : Prop :=
  latest (rxToggle (UInt8.ofNat talkgroup)) id messages = true

/-- The client's latest word on TX of a talk group is on. -/
def WantsTX (messages : List (ClientId × List UInt8)) (id : ClientId) (talkgroup : ℕ) : Prop :=
  latest (txToggle (UInt8.ofNat talkgroup)) id messages = true

/-- The talk groups the daemon accepts. -/
def IsTalkGroup (talkgroup : ℕ) : Prop := 1 ≤ talkgroup ∧ talkgroup ≤ 32

instance (talkgroup : ℕ) : Decidable (IsTalkGroup talkgroup) :=
  inferInstanceAs (Decidable (_ ∧ _))

/-- The second client wants to hear a talk group the first one is heard on. -/
def Share (messages : List (ClientId × List UInt8)) (sender other : ClientId) : Prop :=
  ∃ talkgroup, IsTalkGroup talkgroup ∧ WantsTX messages sender talkgroup ∧
    WantsRX messages other talkgroup

/-- After these messages, a frame from the mesh is queued to the client
exactly when it wants to hear the frame's talk group. -/
def MeshHonoured (ids : List ClientId) (messages : List (ClientId × List UInt8)) (id : ClientId)
    (talkgroup sequence : ℕ) (opusData : List UInt8) : Prop :=
  (∃ bytes, (id, bytes) ∈ (after State.handleMessage (connected ids) messages).receiveAudioRX
      ⟨talkgroup, sequence, opusData⟩) ↔ WantsRX messages id talkgroup

/-- After these messages, a frame one client transmits is relayed to another
exactly when they share a talk group. -/
def RelayHonoured (ids : List ClientId) (messages : List (ClientId × List UInt8))
    (sender other : ClientId) (opusData : List UInt8) : Prop :=
  (∃ bytes, .relay other bytes ∈ ((after State.handleMessage (connected ids) messages).handleMessage
      (sender, opcodeAudioTX :: opusData)).2) ↔ Share messages sender other

/-! ## The switches follow the messages -/

theorem isRXEnabled_setRX {c : Client} {channel : UInt8} (hchannel : channel.toNat < maxChannels)
    (k : UInt8) (on : Bool) :
    (c.setRX k on).isRXEnabled channel = if k = channel then on else c.isRXEnabled channel := by
  unfold Client.setRX Client.isRXEnabled
  by_cases hk : k = channel
  · rw [if_neg (by rw [hk]; omega), if_pos hk, decide_eq_true hchannel, Bool.true_and, hk]
    exact Function.update_self ..
  · rw [if_neg hk]
    split
    · rfl
    · exact congrArg _ (Function.update_of_ne (Ne.symm hk) ..)

theorem isRXEnabled_setTX (c : Client) (channel k : UInt8) (on : Bool) :
    (c.setTX k on).isRXEnabled channel = c.isRXEnabled channel := by
  unfold Client.setTX Client.isRXEnabled
  split <;> rfl

theorem isRXEnabled_setAllRX {c : Client} {channel : UInt8} (hchannel : channel.toNat < maxChannels)
    (on : Bool) : (c.setAllRX on).isRXEnabled channel = on := by
  rw [Client.isRXEnabled, decide_eq_true hchannel, Bool.true_and]
  rfl

theorem edit_client (s : State ClientId) (i id : ClientId) (f : Client → Client) :
    (s.edit i f).client id = if i = id then f (s.client id) else s.client id := by
  by_cases h : i = id
  · rw [if_pos h, ← h]
    exact Function.update_self ..
  · rw [if_neg h]
    exact Function.update_of_ne (Ne.symm h) ..

/-- A message leaves the set of clients alone. -/
theorem handleMessage_ids (s : State ClientId) (message : ClientId × List UInt8) :
    (s.handleMessage message).1.ids = s.ids := by
  obtain ⟨id, data⟩ := message
  cases data with
  | nil => rfl
  | cons opcode rest =>
      simp only [State.handleMessage, State.handleAudioTX, State.handleTXToggle,
        State.handleRXToggle, State.edit, State.getOrOpenTXStream, State.closeTXStream]
      repeat' split
      all_goals rfl

/-- The two messages that do not touch a switch, or another kind of one. -/
theorem handleAudioTX_client (s : State ClientId) (id : ClientId) (data : List UInt8) :
    (s.handleAudioTX id data).1.client = s.client := by
  unfold State.handleAudioTX State.getOrOpenTXStream
  cases extractAudioTXPayload data with
  | none => rfl
  | some opusData => cases s.txStream <;> rfl

/-- **What a message does to a switch**: what it says of it, if it comes from
the switch's client. -/
theorem handleMessage_isRXEnabled {channel : UInt8} (hchannel : channel.toNat < maxChannels)
    (s : State ClientId) (message : ClientId × List UInt8) (id : ClientId) :
    ((s.handleMessage message).1.client id).isRXEnabled channel =
      if message.1 = id then (rxToggle channel message.2).getD ((s.client id).isRXEnabled channel)
      else (s.client id).isRXEnabled channel := by
  obtain ⟨i, data⟩ := message
  have hnone : ∀ {c : Client}, c.isRXEnabled channel = (s.client id).isRXEnabled channel →
      rxToggle channel data = none → c.isRXEnabled channel =
        if i = id then (rxToggle channel data).getD ((s.client id).isRXEnabled channel)
        else (s.client id).isRXEnabled channel := by
    intro c hc hword
    rw [hword, hc, Option.getD_none, ite_self]
  cases data with
  | nil => exact hnone rfl rfl
  | cons opcode rest =>
      simp only [State.handleMessage]
      split
      · rename_i h
        refine hnone (by rw [handleAudioTX_client]) ?_
        rw [h]
        rfl
      split
      · rename_i h
        refine hnone ?_ (by rw [h]; rfl)
        unfold State.handleTXToggle
        cases decodeToggle (opcode :: rest) with
        | none => rfl
        | some toggle =>
            rw [edit_client]
            split
            · exact isRXEnabled_setTX ..
            · rfl
      split
      · rename_i h
        rw [rxToggle, toggleOf, if_pos h]
        unfold State.handleRXToggle
        cases decodeToggle (opcode :: rest) with
        | none => simp
        | some toggle =>
            rw [edit_client]
            split
            · rw [isRXEnabled_setRX hchannel]
              by_cases hk : toggle.channel = channel <;> simp [Option.filter, hk]
            · rfl
      split
      · rename_i h
        have hword : rxToggle channel (opcode :: rest) = some true := by rw [h]; rfl
        rw [edit_client, hword]
        split
        · exact isRXEnabled_setAllRX hchannel true
        · rfl
      split
      · rename_i h
        have hword : rxToggle channel (opcode :: rest) = some false := by rw [h]; rfl
        rw [edit_client, hword]
        split
        · exact isRXEnabled_setAllRX hchannel false
        · rfl
      -- the other messages say nothing of RX
      rename_i hrx hallOn hallOff
      have hword : rxToggle channel (opcode :: rest) = none := by
        rw [rxToggle, toggleOf, if_neg hrx, if_neg hallOn, if_neg hallOff]
      split
      · refine hnone ?_ hword
        rw [edit_client]
        split <;> rfl
      split
      · refine hnone ?_ hword
        rw [edit_client]
        split <;> rfl
      split
      · exact hnone rfl hword
      split
      · refine hnone ?_ hword
        unfold State.closeTXStream
        cases s.txStream <;> rfl
      · exact hnone rfl hword

/-- A history from a state whose switch stands so. -/
theorem after_isRXEnabled {channel : UInt8} (hchannel : channel.toNat < maxChannels)
    (s : State ClientId) (messages : List (ClientId × List UInt8)) (id : ClientId) :
    ((after State.handleMessage s messages).client id).isRXEnabled channel =
      messages.foldl (fun on message =>
        if message.1 = id then (rxToggle channel message.2).getD on else on)
        ((s.client id).isRXEnabled channel) := by
  induction messages generalizing s with
  | nil => rfl
  | cons message messages ih =>
      rw [after_cons, ih, List.foldl_cons, handleMessage_isRXEnabled hchannel]

/-- **A switch the client has stands as its messages say.** The ones it does
not have are off. -/
theorem isRXEnabled_after (ids : List ClientId) (messages : List (ClientId × List UInt8))
    (id : ClientId) (channel : UInt8) :
    ((after State.handleMessage (connected ids) messages).client id).isRXEnabled channel =
      (decide (channel.toNat < maxChannels) && latest (rxToggle channel) id messages) := by
  by_cases hchannel : channel.toNat < maxChannels
  · rw [after_isRXEnabled hchannel, decide_eq_true hchannel, Bool.true_and, latest]
    congr 1
    rw [Client.isRXEnabled, decide_eq_true hchannel]
    rfl
  · rw [Client.isRXEnabled, decide_eq_false hchannel, Bool.false_and, Bool.false_and]

theorem after_ids (ids : List ClientId) (messages : List (ClientId × List UInt8)) :
    (after State.handleMessage (connected ids) messages).ids = ids :=
  after_invariant (I := fun s => s.ids = ids)
    (fun s message h => (handleMessage_ids s message).trans h) rfl messages

/-! ## Who hears what -/

theorem wsChannel_talkGroup {talkgroup : ℕ} (h : IsTalkGroup talkgroup) :
    wsChannel talkgroup = UInt8.ofNat talkgroup ∧
      (UInt8.ofNat talkgroup).toNat = talkgroup := by
  obtain ⟨hone, hlast⟩ := h
  refine ⟨?_, ?_⟩
  · rw [wsChannel, if_neg (by omega), Int.toNat_natCast]
  · rw [UInt8.toNat_ofNat']
    exact Nat.mod_eq_of_lt (by omega)

/-- A frame from the mesh is queued to the clients whose switch is on. -/
theorem mem_receiveAudioRX {ids : List ClientId} {messages : List (ClientId × List UInt8)}
    {id : ClientId} {talkgroup sequence : ℕ} {opusData : List UInt8} (hid : id ∈ ids)
    (htalkgroup : IsTalkGroup talkgroup) :
    (∃ bytes, (id, bytes) ∈ (after State.handleMessage (connected ids) messages).receiveAudioRX
        ⟨talkgroup, sequence, opusData⟩) ↔
      opusData ≠ [] ∧ talkgroup < maxChannels ∧ WantsRX messages id talkgroup := by
  obtain ⟨hchannel, hnat⟩ := wsChannel_talkGroup htalkgroup
  unfold State.receiveAudioRX
  by_cases hempty : opusData = []
  · simp [hempty]
  · rw [if_neg hempty]
    simp only [List.mem_map, List.mem_filter, Prod.mk.injEq, hchannel, isRXEnabled_after, hnat,
      after_ids, Bool.and_eq_true, decide_eq_true_eq, WantsRX]
    constructor
    · rintro ⟨bytes, i, ⟨-, hin, hon⟩, rfl, -⟩
      exact ⟨hempty, hin, hon⟩
    · rintro ⟨-, hin, hon⟩
      exact ⟨_, id, ⟨hid, hin, hon⟩, rfl, rfl⟩

/-- A frame one client transmits is relayed to those whose switch `0` is
on. -/
theorem relay_mem_handleMessage {ids : List ClientId} {messages : List (ClientId × List UInt8)}
    {sender other : ClientId} {opusData : List UInt8} (hother : other ∈ ids)
    (hne : other ≠ sender) :
    (∃ bytes, .relay other bytes ∈
        ((after State.handleMessage (connected ids) messages).handleMessage
          (sender, opcodeAudioTX :: opusData)).2) ↔
      opusData ≠ [] ∧ WantsRX messages other 0 := by
  have hopcode : ((after State.handleMessage (connected ids) messages).handleMessage
      (sender, opcodeAudioTX :: opusData)) =
      (after State.handleMessage (connected ids) messages).handleAudioTX sender
        (opcodeAudioTX :: opusData) := rfl
  rw [hopcode]
  unfold State.handleAudioTX
  cases opusData with
  | nil => simp [extractAudioTXPayload]
  | cons b rest =>
      have hextract : extractAudioTXPayload (opcodeAudioTX :: b :: rest) = some (b :: rest) := by
        rw [extractAudioTXPayload, if_neg (by simp)]
        rfl
      rw [hextract]
      dsimp only
      have hswitch := isRXEnabled_after ids messages other 0
      have hopened : ∀ bytes, Effect.relay other bytes ∉
          (after State.handleMessage (connected ids) messages).getOrOpenTXStream.2 := by
        intro bytes
        unfold State.getOrOpenTXStream
        split <;> simp
      have hsame : (after State.handleMessage (connected ids) messages).getOrOpenTXStream.1.client =
            (after State.handleMessage (connected ids) messages).client ∧
          (after State.handleMessage (connected ids) messages).getOrOpenTXStream.1.ids = ids := by
        unfold State.getOrOpenTXStream
        split
        · exact ⟨rfl, after_ids ids messages⟩
        · exact ⟨rfl, after_ids ids messages⟩
      have hchannel : (encodeAudioRX 0 (b :: rest)).getD 1 0 = 0 := rfl
      simp only [List.mem_append, hopened, List.mem_singleton, reduceCtorEq, or_false, false_or,
        State.relayToOthers, List.mem_map, List.mem_filter, hchannel, hsame, Effect.relay.injEq,
        Bool.and_eq_true, bne_iff_ne, ne_eq, not_false_eq_true, true_and, WantsRX]
      constructor
      · rintro ⟨bytes, i, ⟨-, -, hon⟩, rfl, -⟩
        rw [hswitch] at hon
        exact hon
      · intro hon
        exact ⟨_, other, ⟨hother, hne, by rw [hswitch]; exact hon⟩, rfl, rfl⟩

/-- **When the toggles are honoured.** From the mesh: on the talk groups below
sixteen, and on the others where nothing is wanted. Between two clients: where
the receiver's word on channel `0` is what sharing a talk group would say. -/
theorem toggles_honoured_iff {ids : List ClientId} {messages : List (ClientId × List UInt8)}
    {id sender : ClientId} {talkgroup sequence : ℕ} {opusData : List UInt8} (hid : id ∈ ids)
    (htalkgroup : IsTalkGroup talkgroup) (hne : id ≠ sender) :
    (MeshHonoured ids messages id talkgroup sequence opusData ↔
      (opusData ≠ [] ∧ talkgroup < 16) ∨ ¬ WantsRX messages id talkgroup) ∧
    (RelayHonoured ids messages sender id opusData ↔
      ((opusData ≠ [] ∧ WantsRX messages id 0) ↔ Share messages sender id)) := by
  rw [MeshHonoured, RelayHonoured, mem_receiveAudioRX hid htalkgroup,
    relay_mem_handleMessage hid hne]
  refine ⟨?_, Iff.rfl⟩
  rw [show maxChannels = 16 from rfl]
  tauto

/-- A client that listens on every talk group, and a frame of the third. -/
theorem toggles_honoured_iff_third :
    MeshHonoured [0, 1] [(0, [opcodeRXAllOn]), (1, [opcodeTXToggle, 1, 1])] 0 3 7 [9] ∧
      RelayHonoured [0, 1] [(0, [opcodeRXAllOn]), (1, [opcodeTXToggle, 1, 1])] 1 0 [9] := by
  obtain ⟨hmesh, hrelay⟩ := @toggles_honoured_iff ℕ _ [0, 1]
    [(0, [opcodeRXAllOn]), (1, [opcodeTXToggle, 1, 1])] 0 1 3 7 [9] (by decide) (by decide)
    (by decide)
  exact ⟨hmesh.2 (.inl ⟨by decide, by decide⟩),
    hrelay.2 ⟨fun _ => ⟨1, by decide, rfl, rfl⟩, fun _ => ⟨by decide, rfl⟩⟩⟩

/-- **Talk group twenty is not heard**, and two clients on talk group three do
not hear each other. -/
theorem talkGroup_twenty_unheard :
    ¬ MeshHonoured [0] [(0, [opcodeRXToggle, 20, 1])] 0 20 7 [9] ∧
      ¬ RelayHonoured [0, 1] [(0, [opcodeRXToggle, 3, 1]), (1, [opcodeTXToggle, 3, 1])] 1 0 [9] := by
  refine ⟨fun h => ?_, fun h => ?_⟩
  · obtain ⟨bytes, hmem⟩ := h.2 rfl
    revert hmem
    rw [show (after State.handleMessage (connected [0]) [(0, [opcodeRXToggle, 20, 1])]).receiveAudioRX
      ⟨(20 : ℕ), 7, [9]⟩ = [] by decide]
    exact List.not_mem_nil
  · obtain ⟨bytes, hmem⟩ := h.2 ⟨3, ⟨by decide, by decide⟩, rfl, rfl⟩
    revert hmem
    rw [show ((after State.handleMessage (connected [0, 1])
      [(0, [opcodeRXToggle, 3, 1]), (1, [opcodeTXToggle, 3, 1])]).handleMessage
        (1, [opcodeAudioTX, 9])).2 = [.openTX, .sendTX [9]] by decide]
    simp

end Bridge

end OpenManet
