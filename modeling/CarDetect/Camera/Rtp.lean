import CarDetect.Lib.BigEndian

/-!
# The camera's RTP packetizer

`rtpSendH264` follows `rtp_send_h264` in `camera/rtsp.c`: a NAL unit that fits the MTU becomes one
packet, a longer one becomes a series of FU-A fragments. The session carries the sequence counter,
which `next_seq` reads through a 16-bit cast, so the model keeps its low 16 bits only.
`Camera/Packets.lean` describes the packets without the loop.
-/

namespace CarDetect.Camera

open BigEndian

/-- `MTU` of `rtsp.h`. -/
def MTU : Nat := 1400

/-- `RTP_HEADER_SIZE` of `rtsp.h`. -/
def RTP_HEADER_SIZE : Nat := 12

/-- The largest fragment: the MTU less the RTP header, the interleaved header and two FU bytes. -/
def FU_PAYLOAD_MAX : Nat := MTU - 18

/-- The fields of `rtsp_session_t` that sending a NAL unit reads or writes. -/
structure RtspSession where
  rtpSeq : UInt16
  rtpSsrc : UInt32
  transType : String
  rtpChannel : UInt16
deriving DecidableEq, Repr

/-- `build_rtp_header`: version 2, payload type and marker, sequence number, timestamp, SSRC. -/
def buildRtpHeader (seq : UInt16) (timestamp ssrc : UInt32) (payloadType : UInt8)
    (marker : Bool) : Bytes :=
  [0x80,
    if marker then (payloadType &&& 0x7F) ||| 0x80 else payloadType &&& 0x7F,
    (seq >>> 8).toUInt8, (seq &&& 0xFF).toUInt8,
    ((timestamp >>> 24) &&& 0xFF).toUInt8, ((timestamp >>> 16) &&& 0xFF).toUInt8,
    ((timestamp >>> 8) &&& 0xFF).toUInt8, (timestamp &&& 0xFF).toUInt8,
    ((ssrc >>> 24) &&& 0xFF).toUInt8, ((ssrc >>> 16) &&& 0xFF).toUInt8,
    ((ssrc >>> 8) &&& 0xFF).toUInt8, (ssrc &&& 0xFF).toUInt8]

/-- `next_seq`: return the counter and advance it. -/
def nextSeq (session : RtspSession) : UInt16 × RtspSession :=
  (session.rtpSeq, { session with rtpSeq := session.rtpSeq + 1 })

/-- `send_rtp_over_tcp`: the bytes written to the socket, a four-byte interleaved header
(`'$'`, channel, 16-bit length) followed by the RTP packet. -/
def sendRtpOverTcp (rtpData : Bytes) (channel : UInt8) : Bytes :=
  [0x24, channel, ((rtpData.length >>> 8) &&& 0xFF).toUInt8, (rtpData.length &&& 0xFF).toUInt8] ++
    rtpData

/-- Where a packet goes: the RTSP socket, or one KCP message over UDP. -/
inductive Transmission where
  | tcp (bytes : Bytes)
  | kcp (message : Bytes)
deriving DecidableEq, Repr

/-- The transport choice at the end of both branches of `rtp_send_h264`. -/
def transmit (session : RtspSession) (packet : Bytes) : Transmission :=
  if session.transType = "tcp" then .tcp (sendRtpOverTcp packet session.rtpChannel.toUInt8)
  else .kcp packet

/-- The `FU indicator` byte: the NAL header's F and NRI bits with type 28. -/
def fuIndicator (nalHeader : UInt8) : UInt8 :=
  (nalHeader &&& 0xE0) ||| 28

/-- The `FU header` byte: start bit, end bit and NAL type. -/
def fuHeader (nalHeader : UInt8) (isStart isLast : Bool) : UInt8 :=
  (if isStart then 0x80 else 0x00) ||| (if isLast then 0x40 else 0x00) ||| (nalHeader &&& 0x1F)

/-- The `len` of one loop turn: the rest of the payload, cut to the largest fragment. -/
def fragmentLen (remaining : Nat) : Nat :=
  if remaining > FU_PAYLOAD_MAX then FU_PAYLOAD_MAX else remaining

theorem fragmentLen_eq_min (remaining : Nat) :
    fragmentLen remaining = min FU_PAYLOAD_MAX remaining := by
  unfold fragmentLen
  split <;> omega

theorem fragmentLen_pos {remaining : Nat} (h : 0 < remaining) : 0 < fragmentLen remaining := by
  rw [fragmentLen_eq_min]
  exact lt_min (by decide) h

/-- The FU-A loop of `rtp_send_h264`, on the payload bytes from `pos` on. -/
def sendFragments (session : RtspSession) (timestamp : UInt32) (nalHeader : UInt8)
    (isStart : Bool) (payload : Bytes) : RtspSession × List Bytes :=
  if payload = [] then (session, [])
  else
    let len := fragmentLen payload.length
    let isLast := decide (len ≥ payload.length)
    let (seq, session) := nextSeq session
    let packet := buildRtpHeader seq timestamp session.rtpSsrc 96 isLast ++
      [fuIndicator nalHeader, fuHeader nalHeader isStart isLast] ++ payload.take len
    let (session, packets) := sendFragments session timestamp nalHeader false (payload.drop len)
    (session, packet :: packets)
termination_by payload.length
decreasing_by
  have hpos : 0 < payload.length := List.length_pos_iff.2 ‹_›
  have hlen := fragmentLen_pos hpos
  simp only [List.length_drop]
  omega

/-- The marker bit of an unfragmented NAL unit: set unless it is an SEI, an SPS or a PPS. -/
def singleMarker (nalHeader : UInt8) : Bool :=
  let nalType := nalHeader &&& 0x1F
  !(nalType == 7 || nalType == 8 || nalType == 6)

/-- `rtp_send_h264`: the session afterwards and the RTP packets, in the order they are handed to
`transmit`. An empty NAL unit sends nothing. -/
def rtpSendH264 (session : RtspSession) (timestamp : UInt32) (nalu : Bytes) :
    RtspSession × List Bytes :=
  match nalu with
  | [] => (session, [])
  | nalHeader :: payload =>
      if 4 + (nalHeader :: payload).length + RTP_HEADER_SIZE ≤ MTU then
        let marker := singleMarker nalHeader
        let (seq, session) := nextSeq session
        (session, [buildRtpHeader seq timestamp session.rtpSsrc 96 marker ++
          nalHeader :: payload])
      else
        sendFragments session timestamp nalHeader true payload

/-- Send NAL units one after another, each with its timestamp. -/
def sendNalus (session : RtspSession) : List (UInt32 × Bytes) → RtspSession × List Bytes
  | [] => (session, [])
  | (timestamp, nalu) :: rest =>
      let (session, packets) := rtpSendH264 session timestamp nalu
      let (session, later) := sendNalus session rest
      (session, packets ++ later)

end CarDetect.Camera
