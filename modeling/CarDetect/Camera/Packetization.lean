import CarDetect.Camera.Packets
import CarDetect.Camera.RtspClient

/-!
# Packets of every NAL size

What `rtp_send_h264` hands to the transports, read off the packet bytes. `packetSeq`, `markerBit`,
`startBit` and the other readers take the fields at their offsets, `ikcpSend` follows the message
mode of `ikcp_send`, and `packetization_well_formed` collects the bounds for one NAL unit of any
size. The arithmetic of the FU-A loop enters through `chunks` only.
-/

namespace CarDetect.Camera

open BigEndian OrderedMap

/-! ## Fields of a packet -/

/-- The sequence number, in bytes 2 and 3 of a packet. -/
def packetSeq (packet : Bytes) : UInt16 :=
  ((packet.getD 2 0).toUInt16 <<< 8) ||| (packet.getD 3 0).toUInt16

/-- The marker bit, in byte 1. -/
def markerBit (packet : Bytes) : Bool :=
  (packet.getD 1 0 &&& 0x80) != 0

/-- The bytes after the RTP header. -/
def rtpPayload (packet : Bytes) : Bytes :=
  packet.drop RTP_HEADER_SIZE

/-- The payload begins with an FU-A indicator. -/
def isFuA (packet : Bytes) : Bool :=
  (rtpPayload packet).getD 0 0 &&& 0x1F == 28

/-- The start bit of the FU header. -/
def startBit (packet : Bytes) : Bool :=
  ((rtpPayload packet).getD 1 0 &&& 0x80) != 0

/-- The end bit of the FU header. -/
def endBit (packet : Bytes) : Bool :=
  ((rtpPayload packet).getD 1 0 &&& 0x40) != 0

/-- The bytes after the FU indicator and the FU header. -/
def fragmentBytes (packet : Bytes) : Bytes :=
  (rtpPayload packet).drop 2

/-- The length field of an interleaved frame, in bytes 2 and 3. -/
def interleavedLength (frame : Bytes) : Nat :=
  (((frame.getD 2 0).toUInt16 <<< 8) ||| (frame.getD 3 0).toUInt16).toNat

section Fields

variable (seq : UInt16) (timestamp ssrc : UInt32) (part : Part)

@[simp] theorem packetSeq_packetOf : packetSeq (packetOf seq timestamp ssrc part) = seq := by
  exact join16_split seq

@[simp] theorem markerBit_packetOf :
    markerBit (packetOf seq timestamp ssrc part) = part.marker := by
  show (((if part.marker then (96 &&& 0x7F) ||| 0x80 else 96 &&& 0x7F : UInt8) &&& 0x80) != 0) = _
  cases part.marker <;> rfl

@[simp] theorem rtpPayload_packetOf :
    rtpPayload (packetOf seq timestamp ssrc part) = part.payload := by
  simp [rtpPayload, packetOf, buildRtpHeader, RTP_HEADER_SIZE]

theorem length_packetOf :
    (packetOf seq timestamp ssrc part).length = RTP_HEADER_SIZE + part.payload.length := by
  simp [packetOf, buildRtpHeader, RTP_HEADER_SIZE]
  omega

end Fields

/-! ## Sizes -/

/-- A piece is not empty and fits the largest fragment. -/
theorem mem_chunks {payload data : Bytes} (h : data ∈ chunks payload) :
    data ≠ [] ∧ data.length ≤ FU_PAYLOAD_MAX := by
  fun_induction chunks payload with
  | case1 => cases h
  | case2 payload hne ih =>
      rcases List.mem_cons.1 h with rfl | h
      · have hpos : 0 < payload.length := List.length_pos_iff.2 hne
        have hlen := fragmentLen_pos hpos
        have hmin := fragmentLen_eq_min payload.length
        constructor
        · rw [← List.length_pos_iff, List.length_take]
          omega
        · rw [List.length_take]
          omega
      · exact ih h

/-- The fragment at a position carries the piece at that position; its bits say whether it is the
first and whether it is the last. -/
theorem getElem?_fragmentParts {nalHeader : UInt8} {isStart : Bool} {pieces : List Bytes} {i : Nat}
    {part : Part} (h : (fragmentParts nalHeader isStart pieces)[i]? = some part) :
    ∃ data, pieces[i]? = some data ∧
      part = .fragment nalHeader (isStart && i == 0) (i + 1 == pieces.length) data := by
  induction pieces generalizing isStart i with
  | nil => simp [fragmentParts] at h
  | cons data rest ih =>
      cases i with
      | zero =>
          rw [fragmentParts, List.getElem?_cons_zero] at h
          cases h
          exact ⟨data, rfl, by cases rest <;> simp⟩
      | succ i =>
          rw [fragmentParts, List.getElem?_cons_succ] at h
          obtain ⟨found, hfound, rfl⟩ := ih h
          exact ⟨found, by simpa using hfound, by simp⟩

/-- The packet at a position is the packet of the part at that position. -/
theorem getElem?_packetsFrom (seq : UInt16) (timestamp ssrc : UInt32) (parts : List Part)
    (i : Nat) :
    (packetsFrom seq timestamp ssrc parts)[i]? =
      parts[i]?.map (packetOf (seq + UInt16.ofNat i) timestamp ssrc) := by
  induction parts generalizing seq i with
  | nil => rfl
  | cons part rest ih =>
      cases i with
      | zero => simp [packetsFrom]
      | succ i => simp [packetsFrom, ih, succ_add_ofNat]

@[simp] theorem length_packetsFrom (seq : UInt16) (timestamp ssrc : UInt32) (parts : List Part) :
    (packetsFrom seq timestamp ssrc parts).length = parts.length := by
  induction parts generalizing seq with
  | nil => rfl
  | cons part rest ih => simp [packetsFrom, ih]

/-- A part's payload leaves room for the RTP and the interleaved header. -/
theorem length_payload_le {nalu : Bytes} {part : Part} (h : part ∈ partsOf nalu) :
    0 < part.payload.length ∧ part.payload.length ≤ MTU - 4 - RTP_HEADER_SIZE := by
  cases nalu with
  | nil => cases h
  | cons nalHeader payload =>
      rw [partsOf] at h
      split at h
      · cases List.mem_singleton.1 h
        simp only [Part.payload, List.length_cons, MTU, RTP_HEADER_SIZE] at *
        omega
      · obtain ⟨i, hi⟩ := List.mem_iff_getElem?.1 h
        obtain ⟨data, hdata, rfl⟩ := getElem?_fragmentParts hi
        have hlen := (mem_chunks (List.mem_of_getElem? hdata)).2
        simp only [Part.payload, List.length_cons, FU_PAYLOAD_MAX, MTU, RTP_HEADER_SIZE] at *
        omega

/-! ## KCP segments -/

/-- `KCP_MTU` of `kcp.h`. -/
def KCP_MTU : Nat := 1450

/-- `IKCP_MTU_DEF` of `ikcp.c`. -/
def IKCP_MTU_DEF : Nat := 1400

/-- `IKCP_WND_RCV` of `ikcp.c`. -/
def IKCP_WND_RCV : Nat := 128

/-- The fields of `IKCPSEG` that `ikcp_send` sets. -/
structure IkcpSeg where
  frg : Nat
  data : Bytes
deriving DecidableEq, Repr

/-- The fields of `ikcpcb` that `ikcp_send` uses. `ikcp_create` sets `stream` to 0 and no caller
changes it, so every message has segments of its own. -/
structure Ikcpcb where
  mtu : Nat
  mss : Nat
  sndQueue : List IkcpSeg
deriving DecidableEq, Repr

/-- `ikcp_create` -/
def ikcpCreate : Ikcpcb where
  mtu := IKCP_MTU_DEF
  mss := IKCP_MTU_DEF - IKCP_OVERHEAD
  sndQueue := []

/-- `ikcp_setmtu`, with its return code. -/
def ikcpSetmtu (kcp : Ikcpcb) (mtu : Nat) : Int × Ikcpcb :=
  if mtu < 50 || mtu < IKCP_OVERHEAD then (-1, kcp)
  else (0, { kcp with mtu := mtu, mss := mtu - IKCP_OVERHEAD })

/-- The fragment loop of `ikcp_send`: `count` segments, the last with fragment number 0. -/
def ikcpSegments (mss : Nat) (buffer : Bytes) : Nat → List IkcpSeg
  | 0 => []
  | count + 1 =>
      let size := if buffer.length > mss then mss else buffer.length
      { frg := count, data := buffer.take size } :: ikcpSegments mss (buffer.drop size) count

/-- `ikcp_send`, with its return code. -/
def ikcpSend (kcp : Ikcpcb) (buffer : Bytes) : Int × Ikcpcb :=
  let len := buffer.length
  let count := if len ≤ kcp.mss then 1 else (len + kcp.mss - 1) / kcp.mss
  if count ≥ IKCP_WND_RCV then (-2, kcp)
  else
    let count := if count = 0 then 1 else count
    let segments := ikcpSegments kcp.mss buffer count
    ((segments.map fun seg => seg.data.length).sum,
      { kcp with sndQueue := kcp.sndQueue ++ segments })

/-- The control block that `kcp_init` returns. -/
def kcpInit : Ikcpcb :=
  (ikcpSetmtu ikcpCreate KCP_MTU).2

/-- `send_rtp_over_kcp` -/
def sendRtpOverKcp (rtpData : Bytes) (kcp : Ikcpcb) : Ikcpcb :=
  if rtpData.length ≤ 0 then kcp else (ikcpSend kcp rtpData).2

/-- A message within the segment size is one segment. -/
theorem send_one_segment {kcp : Ikcpcb} {packet : Bytes} (hpos : 0 < packet.length)
    (hfits : packet.length ≤ kcp.mss) :
    sendRtpOverKcp packet kcp = { kcp with sndQueue := kcp.sndQueue ++ [⟨0, packet⟩] } := by
  have hsegments : ikcpSegments kcp.mss packet 1 = [⟨0, packet⟩] := by
    simp only [ikcpSegments, if_neg (Nat.not_lt.2 hfits), List.take_length]
  have hroom : ¬ 1 ≥ IKCP_WND_RCV := by
    show ¬ 1 ≥ 128
    omega
  simp only [sendRtpOverKcp, ikcpSend, if_neg (Nat.not_le.2 hpos), if_pos hfits, if_neg hroom,
    if_neg Nat.one_ne_zero, hsegments]

/-! ## The counter -/

/-- A session whose atomic counter holds `counter`, of which `next_seq` returns the low 16 bits. -/
def RtspSession.withCounter (session : RtspSession) (counter : Nat) : RtspSession :=
  { session with rtpSeq := UInt16.ofNat counter }

/-- `next_seq` casts the counter and adds 1 to it. -/
theorem next_seq_counter (session : RtspSession) (counter : Nat) :
    nextSeq (session.withCounter counter) =
      (UInt16.ofNat counter, session.withCounter (counter + 1)) := by
  simp [nextSeq, RtspSession.withCounter]

theorem advance_counter (session : RtspSession) (counter n : Nat) :
    (session.withCounter counter).advance n = session.withCounter (counter + n) := by
  simp [RtspSession.advance, RtspSession.withCounter]

/-! ## One NAL unit -/

/-- What every packet has: it fits the packet array, the length field of its interleaved frame is
its length, and it becomes one KCP segment in front of any backlog. -/
structure FitsTransports (packet : Bytes) : Prop where
  array : packet.length ≤ MTU - 4
  interleaved (channel : UInt8) : interleavedLength (sendRtpOverTcp packet channel) = packet.length
  segment (queue : List IkcpSeg) :
    sendRtpOverKcp packet { kcpInit with sndQueue := queue } =
      { kcpInit with sndQueue := queue ++ [⟨0, packet⟩] }
  datagram : IKCP_OVERHEAD + packet.length ≤ KCP_MTU

/-- Two or more FU-A packets that carry the bytes of a NAL unit after its first. -/
structure FragmentSeries (nalu : Bytes) (packets : List Bytes) : Prop where
  several : 2 ≤ packets.length
  fuA : ∀ packet ∈ packets, isFuA packet = true
  start_iff : ∀ i packet, packets[i]? = some packet → (startBit packet = true ↔ i = 0)
  end_iff : ∀ i packet, packets[i]? = some packet →
    (endBit packet = true ↔ i + 1 = packets.length)
  not_both : ∀ packet ∈ packets, ¬ (startBit packet = true ∧ endBit packet = true)
  nonempty : ∀ packet ∈ packets, fragmentBytes packet ≠ []
  join : (packets.map fragmentBytes).flatten = nalu.tail

theorem fits_transports {nalu : Bytes} {part : Part} (h : part ∈ partsOf nalu) (seq : UInt16)
    (timestamp ssrc : UInt32) : FitsTransports (packetOf seq timestamp ssrc part) := by
  obtain ⟨hpos, hpayload⟩ := length_payload_le h
  have hlen : (packetOf seq timestamp ssrc part).length ≤ MTU - 4 := by
    rw [length_packetOf]
    simp only [MTU, RTP_HEADER_SIZE] at hpayload ⊢
    omega
  have hmtu : MTU - 4 = 1396 := rfl
  refine ⟨hlen, fun channel => join16_length ?_, fun queue => send_one_segment ?_ ?_, ?_⟩
  · omega
  · rw [length_packetOf]
    omega
  · show _ ≤ 1426
    omega
  · show 24 + _ ≤ 1450
    omega

section Series

variable (seq : UInt16) (timestamp ssrc : UInt32) (nalHeader : UInt8)

theorem startBit_fragment (isStart isLast : Bool) (data : Bytes) :
    startBit (packetOf seq timestamp ssrc (.fragment nalHeader isStart isLast data)) = isStart := by
  rw [startBit, rtpPayload_packetOf]
  exact fuHeader_start nalHeader isStart isLast

theorem endBit_fragment (isStart isLast : Bool) (data : Bytes) :
    endBit (packetOf seq timestamp ssrc (.fragment nalHeader isStart isLast data)) = isLast := by
  rw [endBit, rtpPayload_packetOf]
  exact fuHeader_end nalHeader isStart isLast

theorem isFuA_fragment (isStart isLast : Bool) (data : Bytes) :
    isFuA (packetOf seq timestamp ssrc (.fragment nalHeader isStart isLast data)) = true := by
  rw [isFuA, rtpPayload_packetOf]
  exact beq_iff_eq.2 (fuIndicator_type nalHeader)

theorem fragmentBytes_fragment (isStart isLast : Bool) (data : Bytes) :
    fragmentBytes (packetOf seq timestamp ssrc (.fragment nalHeader isStart isLast data)) =
      data := by
  rw [fragmentBytes, rtpPayload_packetOf]
  rfl

/-- The fragment bytes of successive packets are the pieces. -/
theorem map_fragmentBytes (isStart : Bool) (pieces : List Bytes) :
    (packetsFrom seq timestamp ssrc (fragmentParts nalHeader isStart pieces)).map fragmentBytes =
      pieces := by
  induction pieces generalizing seq isStart with
  | nil => rfl
  | cons data rest ih =>
      rw [fragmentParts, packetsFrom, List.map_cons, ih, fragmentBytes_fragment]

/-- The packets of at least two nonempty pieces. -/
theorem fragment_series {payload : Bytes} (hlong : FU_PAYLOAD_MAX < payload.length) :
    FragmentSeries (nalHeader :: payload)
      (packetsFrom seq timestamp ssrc (fragmentParts nalHeader true (chunks payload))) := by
  have hlength : (packetsFrom seq timestamp ssrc
      (fragmentParts nalHeader true (chunks payload))).length = (chunks payload).length := by
    rw [length_packetsFrom, length_fragmentParts]
  have hseveral : 2 ≤ (chunks payload).length := by
    rw [length_chunks]
    simp only [pieceCount, FU_PAYLOAD_MAX, MTU] at hlong ⊢
    omega
  -- every packet is that of the piece at its position
  have hpacket {i : Nat} {packet : Bytes} (h : (packetsFrom seq timestamp ssrc
      (fragmentParts nalHeader true (chunks payload)))[i]? = some packet) :
      ∃ data ∈ chunks payload, packet = packetOf (seq + UInt16.ofNat i) timestamp ssrc
        (.fragment nalHeader (i == 0) (i + 1 == (chunks payload).length) data) := by
    rw [getElem?_packetsFrom] at h
    obtain ⟨part, hpart, rfl⟩ := Option.map_eq_some_iff.1 h
    obtain ⟨data, hdata, rfl⟩ := getElem?_fragmentParts hpart
    exact ⟨data, List.mem_of_getElem? hdata, rfl⟩
  have hstart {i : Nat} {packet : Bytes} (h : (packetsFrom seq timestamp ssrc
      (fragmentParts nalHeader true (chunks payload)))[i]? = some packet) :
      startBit packet = true ↔ i = 0 := by
    obtain ⟨data, -, rfl⟩ := hpacket h
    rw [startBit_fragment, beq_iff_eq]
  have hend {i : Nat} {packet : Bytes} (h : (packetsFrom seq timestamp ssrc
      (fragmentParts nalHeader true (chunks payload)))[i]? = some packet) :
      endBit packet = true ↔ i + 1 = (chunks payload).length := by
    obtain ⟨data, -, rfl⟩ := hpacket h
    rw [endBit_fragment, beq_iff_eq]
  refine ⟨by rwa [hlength], fun packet hmem => ?_, fun i packet h => hstart h,
    fun i packet h => by rw [hlength]; exact hend h, fun packet hmem hboth => ?_,
    fun packet hmem => ?_, ?_⟩
  · obtain ⟨i, hi⟩ := List.mem_iff_getElem?.1 hmem
    obtain ⟨data, -, rfl⟩ := hpacket hi
    exact isFuA_fragment _ _ _ _ _ _ _
  · obtain ⟨i, hi⟩ := List.mem_iff_getElem?.1 hmem
    have hfirst := (hstart hi).1 hboth.1
    have hlast := (hend hi).1 hboth.2
    omega
  · obtain ⟨i, hi⟩ := List.mem_iff_getElem?.1 hmem
    obtain ⟨data, hdata, rfl⟩ := hpacket hi
    rw [fragmentBytes_fragment]
    exact (mem_chunks hdata).1
  · rw [map_fragmentBytes, flatten_chunks]
    rfl

end Series

/-- For every NAL unit with a first byte and every counter value: the packets fit the transports,
they are numbered consecutively modulo 2^16 and the counter advances by their number, up to 1384
bytes make one packet, and more make a series of fragments. -/
theorem packetization_well_formed (session : RtspSession) (counter : Nat) (timestamp : UInt32)
    (nalHeader : UInt8) (payload : Bytes) :
    let nalu := nalHeader :: payload
    let (after, packets) := rtpSendH264 (session.withCounter counter) timestamp nalu
    (∀ packet ∈ packets, FitsTransports packet) ∧
    (∀ i packet, packets[i]? = some packet → packetSeq packet = UInt16.ofNat (counter + i)) ∧
    after = session.withCounter (counter + packets.length) ∧
    (nalu.length ≤ 1384 → ∃ packet, packets = [packet] ∧ rtpPayload packet = nalu) ∧
    (1384 < nalu.length → FragmentSeries nalu packets) := by
  intro nalu
  simp only [rtp_send_h264_eq, advance_counter, length_packetsFrom, true_and]
  refine ⟨fun packet hmem => ?_, fun i packet h => ?_, fun hsmall => ?_, fun hlarge => ?_⟩
  · obtain ⟨i, hi⟩ := List.mem_iff_getElem?.1 hmem
    rw [getElem?_packetsFrom] at hi
    obtain ⟨part, hpart, rfl⟩ := Option.map_eq_some_iff.1 hi
    exact fits_transports (List.mem_of_getElem? hpart) _ _ _
  · rw [getElem?_packetsFrom] at h
    obtain ⟨part, -, rfl⟩ := Option.map_eq_some_iff.1 h
    rw [packetSeq_packetOf, RtspSession.withCounter, UInt16.ofNat_add]
  · have hfits : 4 + (nalHeader :: payload).length + RTP_HEADER_SIZE ≤ MTU := by
      simp only [nalu, RTP_HEADER_SIZE, MTU] at hsmall ⊢
      omega
    refine ⟨packetOf (UInt16.ofNat counter) timestamp session.rtpSsrc (.single nalu), ?_,
      rtpPayload_packetOf _ _ _ _⟩
    rw [partsOf, if_pos hfits]
    rfl
  · have hfits : ¬ 4 + (nalHeader :: payload).length + RTP_HEADER_SIZE ≤ MTU := by
      simp only [nalu, RTP_HEADER_SIZE, MTU] at hlarge ⊢
      omega
    have hlong : FU_PAYLOAD_MAX < payload.length := by
      simp only [nalu, List.length_cons, FU_PAYLOAD_MAX, MTU] at hlarge ⊢
      omega
    rw [partsOf, if_neg hfits]
    exact fragment_series _ _ _ _ hlong

end CarDetect.Camera
