import OpenManet.Bridge.PushToTalk
import Mathlib.Data.List.Forall2
/-!
# The send path

What a browser sends as audio goes to the RTP session of every port that
sends, as it is, and the session frames it in a buffer of a fixed size. How
long a payload may be is decided by the read limit of the WebSocket; what
the buffer holds is less, and nobody in between compares the two: a payload
past the buffer makes the session slice past its end, which panics.

The packet library is a parameter, with what is relied on of it as
hypotheses. The interceptors between `Send` and the writer count the packet
and pass it on.
-/

namespace OpenManet

namespace Rtp

open Bytes Bridge

/-! ## The packet library -/

/-- The fields of an RTP header that a session sets. -/
structure Header where
  version : ℕ
  marker : Bool
  payloadType : UInt8
  sequenceNumber : UInt16
  timestamp : UInt32
  ssrc : UInt32

/-- The two methods of a packet that are used. -/
structure Pion where
  marshalSize : Header → List UInt8 → ℕ
  /-- What is written to a buffer of the given length. -/
  marshalTo : Header → List UInt8 → ℕ → Except String (List UInt8)

/-- The size of an RTP header without extensions or contributing sources. -/
def headerSize : ℕ := 12

/-- The datagram is one header and the payload. -/
def Carries (datagram payload : List UInt8) : Prop :=
  ∃ header, header.length = headerSize ∧ datagram = header ++ payload

/-- What is relied on of the library. -/
structure Pion.Marshals (pion : Pion) : Prop where
  size : ∀ header payload, pion.marshalSize header payload = headerSize + payload.length
  /-- It writes the header and the payload to a buffer that has room. -/
  writes : ∀ header payload length, headerSize + payload.length ≤ length →
    ∃ datagram, pion.marshalTo header payload length = .ok datagram ∧ Carries datagram payload

/-! ## The session -/

/-- `FrameSamples`. -/
def frameSamples : UInt32 := 960

/-- `rtpBufSize`: the length of every buffer of the pool. -/
def rtpBufSize : ℕ := 1500

/-- A session, with the socket it writes to. -/
structure Session where
  hdr : Header
  /-- The number of the last packet. -/
  sequencer : UInt16
  timestamp : UInt32
  /-- The error of each write, by the number of those before it: none where
  the datagram goes out. -/
  transport : ℕ → Option String
  writes : ℕ

/-- What a send comes to. -/
inductive Sent where
  /-- Nothing is written, and no error returned. -/
  | silent
  | datagram (bytes : List UInt8)
  | failed (err : String)

variable (pion : Pion)

/-- `baseRTPWriter`, none where the slice of the pooled buffer panics. -/
def Session.baseRTPWriter (s : Session) (header : Header) (payload : List UInt8) :
    Option (Session × Sent) :=
  let size := pion.marshalSize header payload
  -- the slice goes up to the capacity
  if size ≤ rtpBufSize then
    match pion.marshalTo header payload size with
    | .error err => some (s, .failed ("rtp.Packet.MarshalTo: " ++ err))
    | .ok bytes =>
        some ({ s with writes := s.writes + 1 },
          match s.transport s.writes with
          | none => .datagram bytes
          | some err => .failed err)
  else none

/-- An error is passed on with a word on where it struck. -/
def Sent.wrapped : Sent → Sent
  | .failed err => .failed ("rtp write: " ++ err)
  | sent => sent

/-- `Send`. -/
def Session.send (s : Session) (payload : List UInt8) : Option (Session × Sent) :=
  if payload = [] then some ({ s with timestamp := s.timestamp + frameSamples }, .silent)
  else
    let number := s.sequencer + 1
    let hdr := { s.hdr with sequenceNumber := number, timestamp := s.timestamp }
    let s := { s with hdr := hdr, sequencer := number, timestamp := s.timestamp + frameSamples }
    (s.baseRTPWriter pion hdr payload).map fun done => (done.1, done.2.wrapped)

/-- `NewSession`, with the two random numbers it starts from. -/
def newSession (ssrc timestamp : UInt32) (sequencer : UInt16) (transport : ℕ → Option String) :
    Session where
  hdr := ⟨2, true, 111, 0, 0, ssrc⟩
  sequencer := sequencer
  timestamp := timestamp
  transport := transport
  writes := 0

/-! ## The ports -/

structure PortChannel where
  sendEnabled : Bool
  /-- A port that only receives has none. -/
  rtpSess : Option Session

/-- The port sends: it is on, and has a session. -/
def PortChannel.Sends (pc : PortChannel) : Prop := pc.sendEnabled = true ∧ pc.rtpSess.isSome = true

/-- `sendToAllPorts`: the ports, and what was sent on each that sends. -/
def sendToAllPorts (payload : List UInt8) :
    List PortChannel → Option (List PortChannel × List (Option Sent))
  | [] => some ([], [])
  | pc :: ports =>
      match pc.sendEnabled, pc.rtpSess with
      | true, some sess => do
          let (sess', sent) ← sess.send pion payload
          let (ports', others) ← sendToAllPorts payload ports
          some ({ pc with rtpSess := some sess' } :: ports', some sent :: others)
      | _, _ => do
          let (ports', others) ← sendToAllPorts payload ports
          some (pc :: ports', none :: others)

/-- `StreamAudioTx`, on an active bridge: each frame goes through
`InjectTxFrame` to the ports at once. -/
def streamAudioTx : List PortChannel → List (List UInt8) →
    Option (List PortChannel × List (List (Option Sent)))
  | ports, [] => some (ports, [])
  | ports, opusData :: frames => do
      let (ports', sent) ← sendToAllPorts pion opusData ports
      let (ports'', rounds) ← streamAudioTx ports' frames
      some (ports'', sent :: rounds)

/-! ## What is asked of it -/

/-- One datagram with the payload is written, or an error is returned and
nothing is written. -/
def Sent.Handles (payload : List UInt8) : Sent → Prop
  | .silent => False
  | .datagram bytes => Carries bytes payload
  | .failed _ => True

/-- What was sent on a port handles the payload, if the port sends. -/
def PortChannel.Handles (payload : List UInt8) (pc : PortChannel) (sent : Option Sent) : Prop :=
  pc.Sends → ∃ done, sent = some done ∧ done.Handles payload

/-- **Every frame of the stream is handled**: no slice is out of range, and
every port that sends handles it. -/
def StreamHandled (ports : List PortChannel) (frames : List (List UInt8)) : Prop :=
  ∃ ports' rounds, streamAudioTx pion ports frames = some (ports', rounds) ∧
    frames.Forall₂ (fun opusData sent => ports.Forall₂ (PortChannel.Handles opusData) sent) rounds

/-- The frames the bridge streams to the daemon. -/
def streamed {ClientId : Type} (effects : List (Effect ClientId)) : List (List UInt8) :=
  effects.filterMap fun
    | .sendTX opusData => some opusData
    | _ => none

/-- The payload fits the buffer, and is there. -/
def Fits (payload : List UInt8) : Prop := payload ≠ [] ∧ headerSize + payload.length ≤ rtpBufSize

/-! ## One port, and all of them -/

section Ports

variable {pion} {s : Session} {pc : PortChannel} {ports : List PortChannel}
  {payload : List UInt8} {frames : List (List UInt8)}

/-- **A payload that fits is sent, or its error returned.** -/
theorem send_of_fits (hpion : pion.Marshals) (s : Session) (hfits : Fits payload) :
    ∃ s' sent, s.send pion payload = some (s', sent) ∧ sent.Handles payload := by
  obtain ⟨hne, hroom⟩ := hfits
  unfold Session.send
  rw [if_neg hne]
  unfold Session.baseRTPWriter
  simp only [hpion.size, if_pos hroom]
  obtain ⟨datagram, hmarshal, hcarries⟩ := hpion.writes
    { s.hdr with sequenceNumber := s.sequencer + 1, timestamp := s.timestamp } payload
    (headerSize + payload.length) le_rfl
  rw [hmarshal]
  refine ⟨_, _, rfl, ?_⟩
  dsimp only
  cases s.transport s.writes with
  | none => exact hcarries
  | some err => exact trivial

/-- **One that does not fit is not**: nothing comes of an empty one, and any
other makes the slice panic. -/
theorem send_of_not_fits (hpion : pion.Marshals) (s : Session) (hfits : ¬ Fits payload) :
    ∀ s' sent, s.send pion payload = some (s', sent) → ¬ sent.Handles payload := by
  intro s' sent hsend hhandles
  unfold Session.send at hsend
  by_cases hempty : payload = []
  · rw [if_pos hempty] at hsend
    obtain ⟨-, rfl⟩ := Prod.mk.inj (Option.some.inj hsend)
    exact hhandles
  · rw [if_neg hempty] at hsend
    unfold Session.baseRTPWriter at hsend
    have hroom : ¬ headerSize + payload.length ≤ rtpBufSize := fun hroom => hfits ⟨hempty, hroom⟩
    simp [hpion.size, hroom] at hsend

/-- The ports that send stay the ones that send. -/
def SameSends (ports ports' : List PortChannel) : Prop :=
  ports.Forall₂ (fun pc pc' => pc.Sends ↔ pc'.Sends) ports'

theorem sendToAllPorts_cons {pc : PortChannel} (hsends : ¬ pc.Sends) :
    sendToAllPorts pion payload (pc :: ports) =
      (sendToAllPorts pion payload ports).map fun r => (pc :: r.1, none :: r.2) := by
  unfold PortChannel.Sends at hsends
  have hskip : sendToAllPorts pion payload (pc :: ports) =
      (sendToAllPorts pion payload ports).bind fun r => some (pc :: r.1, none :: r.2) := by
    rw [sendToAllPorts]
    cases hon : pc.sendEnabled with
    | false => rfl
    | true =>
        cases hsess : pc.rtpSess with
        | none => rfl
        | some sess => simp [hon, hsess] at hsends
  rw [hskip]
  cases sendToAllPorts pion payload ports <;> rfl

/-- **All ports handle a payload that fits.** -/
theorem sendToAllPorts_of_fits (ports : List PortChannel) (hpion : pion.Marshals)
    (hfits : Fits payload) :
    ∃ ports' sent, sendToAllPorts pion payload ports = some (ports', sent) ∧
      SameSends ports ports' ∧ ports.Forall₂ (PortChannel.Handles payload) sent := by
  induction ports with
  | nil => exact ⟨[], [], rfl, .nil, .nil⟩
  | cons pc ports ih =>
      obtain ⟨ports', others, hrest, hsame, hothers⟩ := ih
      by_cases hsends : pc.Sends
      · obtain ⟨hon, hsome⟩ := hsends
        obtain ⟨sess, hsess⟩ := Option.isSome_iff_exists.1 hsome
        obtain ⟨sess', sent, hsend, hhandles⟩ := send_of_fits hpion sess hfits
        refine ⟨{ pc with rtpSess := some sess' } :: ports', some sent :: others, ?_,
          .cons ?_ hsame, .cons (fun _ => ⟨sent, rfl, hhandles⟩) hothers⟩
        · rw [sendToAllPorts, hon, hsess]
          simp [hsend, hrest]
        · simp [PortChannel.Sends, hsome]
      · refine ⟨pc :: ports', none :: others, ?_, .cons Iff.rfl hsame,
          .cons (fun hyes => absurd hyes hsends) hothers⟩
        rw [sendToAllPorts_cons hsends, hrest]
        rfl

/-- Where no port sends, nothing is done. -/
theorem sendToAllPorts_of_none (hnone : ∀ pc ∈ ports, ¬ pc.Sends) (payload : List UInt8) :
    sendToAllPorts pion payload ports = some (ports, ports.map fun _ => none) := by
  induction ports with
  | nil => rfl
  | cons pc ports ih =>
      rw [sendToAllPorts_cons (hnone pc List.mem_cons_self),
        ih fun other hother => hnone other (List.mem_cons_of_mem pc hother)]
      rfl

/-- **A port that sends does not handle a payload that does not fit.** -/
theorem not_handles_of_not_fits (hpion : pion.Marshals) (hfits : ¬ Fits payload)
    (hsome : ∃ pc ∈ ports, pc.Sends) {ports' : List PortChannel} {sent : List (Option Sent)}
    (hrun : sendToAllPorts pion payload ports = some (ports', sent)) :
    ¬ ports.Forall₂ (PortChannel.Handles payload) sent := by
  induction ports generalizing ports' sent with
  | nil => simp at hsome
  | cons pc ports ih =>
      intro hall
      by_cases hsends : pc.Sends
      · obtain ⟨hon, hsess⟩ := hsends
        obtain ⟨sess, hsess⟩ := Option.isSome_iff_exists.1 hsess
        rw [sendToAllPorts, hon, hsess] at hrun
        simp only [Option.bind_eq_bind, Option.bind_eq_some_iff, Option.some.injEq,
          Prod.mk.injEq] at hrun
        obtain ⟨⟨sess', done⟩, hsend, ⟨ports'', others⟩, -, -, rfl⟩ := hrun
        obtain ⟨hhead, -⟩ := List.forall₂_cons.1 hall
        obtain ⟨done', hdone, hhandles⟩ := hhead ⟨hon, by rw [hsess]; rfl⟩
        obtain rfl := Option.some.inj hdone
        exact send_of_not_fits hpion sess hfits _ _ hsend hhandles
      · rw [sendToAllPorts_cons hsends, Option.map_eq_some_iff] at hrun
        obtain ⟨⟨ports'', others⟩, hrest, heq⟩ := hrun
        obtain ⟨-, rfl⟩ := Prod.mk.inj heq
        obtain ⟨other, hmem, hother⟩ := hsome
        rcases List.mem_cons.1 hmem with rfl | hmem
        · exact hsends hother
        · exact ih ⟨other, hmem, hother⟩ hrest (List.forall₂_cons.1 hall).2

/-! ## A stream -/

theorem SameSends.sends {ports' : List PortChannel} (h : SameSends ports ports') :
    (∃ pc ∈ ports', pc.Sends) ↔ ∃ pc ∈ ports, pc.Sends := by
  induction h with
  | nil => simp
  | cons hpc _ ih => simp [hpc, ih]

/-- What handles a payload depends on which ports send. -/
theorem SameSends.handles {ports' : List PortChannel} (h : SameSends ports ports')
    {sent : List (Option Sent)} : ports'.Forall₂ (PortChannel.Handles payload) sent ↔
      ports.Forall₂ (PortChannel.Handles payload) sent := by
  induction h generalizing sent with
  | nil => rfl
  | cons hpc _ ih =>
      cases sent with
      | nil => simp
      | cons done sent =>
          rw [List.forall₂_cons, List.forall₂_cons, ih]
          exact and_congr_left fun _ => imp_congr_left hpc.symm

/-- **A stream is handled if and only if every frame fits, or no port
sends.** -/
theorem streamHandled_iff (hpion : pion.Marshals) :
    StreamHandled pion ports frames ↔
      ((∃ pc ∈ ports, pc.Sends) → ∀ opusData ∈ frames, Fits opusData) := by
  induction frames generalizing ports with
  | nil => exact iff_of_true ⟨ports, [], rfl, .nil⟩ fun _ => by simp
  | cons opusData frames ih =>
      constructor
      · rintro ⟨ports'', rounds, hrun, hall⟩ hsome
        rw [streamAudioTx] at hrun
        simp only [Option.bind_eq_bind, Option.bind_eq_some_iff, Option.some.injEq,
          Prod.mk.injEq] at hrun
        obtain ⟨⟨ports', sent⟩, hfirst, ⟨last, rest⟩, hrest, rfl, rfl⟩ := hrun
        obtain ⟨hhead, htail⟩ := List.forall₂_cons.1 hall
        have hfits : Fits opusData := by
          by_contra hfits
          exact not_handles_of_not_fits hpion hfits hsome hfirst hhead
        obtain ⟨_, _, hsent, hsame, -⟩ := sendToAllPorts_of_fits ports hpion hfits
        obtain ⟨rfl, rfl⟩ := Prod.mk.inj (Option.some.inj (hfirst.symm.trans hsent))
        have hlater : StreamHandled pion ports' frames :=
          ⟨last, rest, hrest, htail.imp fun _ _ h => hsame.handles.2 h⟩
        intro other hother
        rcases List.mem_cons.1 hother with rfl | hother
        · exact hfits
        · exact ih.1 hlater (hsame.sends.2 hsome) other hother
      · intro hfits
        obtain ⟨ports', sent, hfirst, hsame, hhead⟩ :
            ∃ ports' sent, sendToAllPorts pion opusData ports = some (ports', sent) ∧
              SameSends ports ports' ∧ ports.Forall₂ (PortChannel.Handles opusData) sent := by
          by_cases hsome : ∃ pc ∈ ports, pc.Sends
          · exact sendToAllPorts_of_fits ports hpion (hfits hsome opusData List.mem_cons_self)
          · have hnone : ∀ pc ∈ ports, ¬ pc.Sends := fun pc hpc hyes => hsome ⟨pc, hpc, hyes⟩
            refine ⟨ports, _, sendToAllPorts_of_none hnone opusData,
              List.forall₂_same.2 fun _ _ => Iff.rfl, ?_⟩
            rw [List.forall₂_map_right_iff, List.forall₂_same]
            exact fun pc hpc hyes => absurd hyes (hnone pc hpc)
        have hlater : StreamHandled pion ports' frames := ih.2 fun hsome other hother =>
          hfits (hsame.sends.1 hsome) other (List.mem_cons_of_mem _ hother)
        obtain ⟨last, rest, hrest, htail⟩ := hlater
        refine ⟨last, sent :: rest, ?_, .cons hhead (htail.imp fun _ _ h => hsame.handles.1 h)⟩
        rw [streamAudioTx]
        simp [hfirst, hrest]

end Ports

/-! ## A message of a browser -/

section Messages

variable {ClientId : Type} [DecidableEq ClientId]

/-- The message is refused, or its payload is streamed and handled. -/
def MessageHandled (ports : List PortChannel) (effects : List (Effect ClientId))
    (data : List UInt8) : Prop :=
  match extractAudioTXPayload data with
  | none => streamed effects = []
  | some opusData => streamed effects = [opusData] ∧ StreamHandled pion ports [opusData]

theorem streamed_relayToOthers (s : State ClientId) (id : ClientId) (frame : List UInt8) :
    streamed (s.relayToOthers id frame) = [] := by
  rw [streamed, List.filterMap_eq_nil_iff]
  intro e he
  obtain ⟨other, -, rfl⟩ := List.mem_map.1 he
  rfl

/-- What an audio message streams is its payload. -/
theorem streamed_handleAudioTX (s : State ClientId) (id : ClientId) (data : List UInt8) :
    streamed (s.handleAudioTX id data).2 = (extractAudioTXPayload data).toList := by
  unfold State.handleAudioTX
  cases extractAudioTXPayload data with
  | none => rfl
  | some opusData =>
      have hopen : streamed s.getOrOpenTXStream.2 = [] := by
        unfold State.getOrOpenTXStream
        split <;> rfl
      have hrelay := streamed_relayToOthers s.getOrOpenTXStream.1 id (encodeAudioRX 0 opusData)
      rw [streamed] at hopen hrelay ⊢
      simp only [List.filterMap_append, hopen, hrelay]
      rfl

/-- **A message is handled up to 1489 bytes**, or where no port sends. -/
theorem messageHandled_iff {pion : Pion} (hpion : pion.Marshals) (ports : List PortChannel)
    (s : State ClientId) (id : ClientId) (data : List UInt8)
    (hopcode : data.head? = some opcodeAudioTX) :
    MessageHandled pion ports (s.handleMessage (id, data)).2 data ↔
      ((∃ pc ∈ ports, pc.Sends) → data.length ≤ 1489) := by
  cases data with
  | nil => simp at hopcode
  | cons opcode opusData =>
      obtain rfl : opcode = opcodeAudioTX := Option.some.inj hopcode
      have haudio : s.handleMessage (id, opcodeAudioTX :: opusData) =
          s.handleAudioTX id (opcodeAudioTX :: opusData) := rfl
      have hstreamed := streamed_handleAudioTX s id (opcodeAudioTX :: opusData)
      rw [haudio, MessageHandled, hstreamed]
      unfold extractAudioTXPayload
      cases opusData with
      | nil => simp
      | cons b rest =>
          have hfits : Fits (b :: rest) ↔ (opcodeAudioTX :: b :: rest).length ≤ 1489 := by
            simp only [Fits, headerSize, rtpBufSize, ne_eq, reduceCtorEq, not_false_eq_true,
              true_and, List.length_cons]
            omega
          rw [if_neg (by simp)]
          simp only [Option.toList, List.tail_cons, true_and, streamHandled_iff hpion,
            List.mem_singleton, forall_eq, hfits]

/-- **What a browser sends is handled where it fits**: a stream if every
frame has 1 to 1488 bytes, and a message of 1 to 65536 bytes if it has at most
1489, or where no port sends; and not otherwise. -/
theorem audio_handled_iff (pion : Pion) (hpion : pion.Marshals) (ports : List PortChannel) :
    (∀ frames : List (List UInt8), StreamHandled pion ports frames ↔
      ((∃ pc ∈ ports, pc.Sends) →
        ∀ opusData ∈ frames, 1 ≤ opusData.length ∧ opusData.length ≤ 1488)) ∧
    ∀ (s : State ClientId) (id : ClientId) (data : List UInt8),
      data.head? = some opcodeAudioTX → 1 ≤ data.length → data.length ≤ 65536 →
        (MessageHandled pion ports (s.handleMessage (id, data)).2 data ↔
          ((∃ pc ∈ ports, pc.Sends) → data.length ≤ 1489)) := by
  refine ⟨fun frames => ?_, fun s id data hopcode _ _ => messageHandled_iff hpion ports s id data
    hopcode⟩
  have hfits : ∀ opusData : List UInt8,
      Fits opusData ↔ 1 ≤ opusData.length ∧ opusData.length ≤ 1488 := by
    intro opusData
    rw [Fits, ← List.length_pos_iff, headerSize, rtpBufSize]
    omega
  rw [streamHandled_iff hpion]
  simp only [hfits]

end Messages

/-! ## A library, and a port -/

/-- The twelve bytes of a header. -/
def headerBytes (header : Header) : List UInt8 :=
  [UInt8.ofNat (64 * header.version), (if header.marker then 128 else 0) + header.payloadType] ++
    putBigEndian 2 header.sequenceNumber.toNat ++ putBigEndian 4 header.timestamp.toNat ++
    putBigEndian 4 header.ssrc.toNat

/-- A library that writes them. -/
def plainPion : Pion where
  marshalSize _ payload := headerSize + payload.length
  marshalTo header payload length :=
    if headerSize + payload.length ≤ length then .ok (headerBytes header ++ payload)
    else .error "short buffer"

theorem plainPion_marshals : plainPion.Marshals where
  size _ _ := rfl
  writes header payload length hroom := by
    refine ⟨headerBytes header ++ payload, if_pos hroom, headerBytes header, ?_, rfl⟩
    simp [headerBytes, headerSize]

/-- A port that sends, on a socket that takes everything. -/
def openPort : PortChannel where
  sendEnabled := true
  rtpSess := some (newSession 1 0 0 fun _ => none)

theorem openPort_sends : ∃ pc ∈ [openPort], pc.Sends := ⟨openPort, by simp, rfl, rfl⟩

/-- A bridge without clients. -/
def idleBridge : State ℕ where
  ids := []
  client _ := ⟨fun _ => false, fun _ => false⟩
  txStream := false

/-- A frame of one byte goes out. -/
theorem audio_handled_iff_short :
    MessageHandled plainPion [openPort] (idleBridge.handleMessage (0, [opcodeAudioTX, 7])).2
      [opcodeAudioTX, 7] :=
  ((audio_handled_iff plainPion plainPion_marshals [openPort]).2 idleBridge 0 [opcodeAudioTX, 7] rfl
    (by decide) (by decide)).2 fun _ => by decide

/-- A message of 1490 bytes makes the session panic. -/
theorem long_audio_panics :
    ¬ ∀ (pion : Pion) (ports : List PortChannel) (s : State ℕ) (id : ℕ) (data : List UInt8),
      pion.Marshals → data.head? = some opcodeAudioTX → 1 ≤ data.length → data.length ≤ 65536 →
        MessageHandled pion ports (s.handleMessage (id, data)).2 data := by
  intro hall
  obtain ⟨data, hopcode, hlength⟩ : ∃ data : List UInt8,
      data.head? = some opcodeAudioTX ∧ data.length = 1490 :=
    ⟨opcodeAudioTX :: List.replicate 1489 0, rfl, by rw [List.length_cons, List.length_replicate]⟩
  have hhandled := hall plainPion [openPort] idleBridge 0 data plainPion_marshals hopcode
    (by omega) (by omega)
  have hshort := (messageHandled_iff plainPion_marshals [openPort] idleBridge 0 data hopcode).1
    hhandled openPort_sends
  omega

end Rtp

end OpenManet
