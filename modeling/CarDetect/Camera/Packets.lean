import CarDetect.Camera.Rtp
import CarDetect.Lib.OrderedMap

/-!
# The packets of a NAL unit

`partsOf` describes what the packetizer makes of a NAL unit without its loop: one single part, or
fragments of which the first has the start bit and the last the end bit. `packetsFrom` numbers
and encodes the parts, and `rtp_send_h264_eq` says that the packetizer sends exactly these packets.
`length_partsOf` counts them.
-/

namespace CarDetect.Camera

open BigEndian

/-- The type field of a NAL unit's first byte. -/
def nalType (nalu : Bytes) : UInt8 :=
  nalu.headD 0 &&& 0x1F

/-- A NAL unit as an H.264 encoder emits it: nonempty with a type from 1 to 23. -/
def ValidNalu (nalu : Bytes) : Prop :=
  1 ≤ nalType nalu ∧ nalType nalu ≤ 23

instance (nalu : Bytes) : Decidable (ValidNalu nalu) :=
  inferInstanceAs (Decidable (_ ∧ _))

theorem ValidNalu.ne_nil {nalu : Bytes} (h : ValidNalu nalu) : nalu ≠ [] := by
  rintro rfl
  exact absurd h (by decide)

/-- The payload of one packet: a whole NAL unit, or one fragment of the bytes after its header. -/
inductive Part where
  | single (nalu : Bytes)
  | fragment (nalHeader : UInt8) (isStart isLast : Bool) (data : Bytes)
deriving DecidableEq, Repr

/-- The bytes of a part after the RTP header. -/
def Part.payload : Part → Bytes
  | .single nalu => nalu
  | .fragment nalHeader isStart isLast data =>
      fuIndicator nalHeader :: fuHeader nalHeader isStart isLast :: data

/-- The marker bit of a part's packet. -/
def Part.marker : Part → Bool
  | .single nalu => singleMarker (nalu.headD 0)
  | .fragment _ _ isLast _ => isLast

/-! ## FU header fields -/

theorem fuIndicator_type (nalHeader : UInt8) : fuIndicator nalHeader &&& 0x1F = 28 := by
  obtain ⟨header⟩ := nalHeader
  revert header
  decide

theorem fuHeader_start (nalHeader : UInt8) (isStart isLast : Bool) :
    ((fuHeader nalHeader isStart isLast &&& 0x80) != 0) = isStart := by
  obtain ⟨header⟩ := nalHeader
  revert header
  cases isStart <;> cases isLast <;> decide

theorem fuHeader_end (nalHeader : UInt8) (isStart isLast : Bool) :
    ((fuHeader nalHeader isStart isLast &&& 0x40) != 0) = isLast := by
  obtain ⟨header⟩ := nalHeader
  revert header
  cases isStart <;> cases isLast <;> decide

theorem fuHeader_type (nalHeader : UInt8) (isStart isLast : Bool) :
    fuHeader nalHeader isStart isLast &&& 0x1F = nalHeader &&& 0x1F := by
  obtain ⟨header⟩ := nalHeader
  revert header
  cases isStart <;> cases isLast <;> decide

/-- The start fragment's two FU bytes determine the NAL header. -/
theorem rebuild_nalHeader (nalHeader : UInt8) :
    (fuIndicator nalHeader &&& 0xE0) ||| (nalHeader &&& 0x1F) = nalHeader := by
  obtain ⟨header⟩ := nalHeader
  revert header
  decide

/-! ## Parts of a NAL unit -/

/-- A payload cut into the pieces of successive loop turns. -/
def chunks (payload : Bytes) : List Bytes :=
  if payload = [] then []
  else
    payload.take (fragmentLen payload.length) :: chunks (payload.drop (fragmentLen payload.length))
termination_by payload.length
decreasing_by
  have hpos : 0 < payload.length := List.length_pos_iff.2 ‹_›
  have hlen := fragmentLen_pos hpos
  simp only [List.length_drop]
  omega

/-- The fragments carrying these pieces: only the last piece has the end bit, and the start bit
is on the first piece when `isStart` is set. -/
def fragmentParts (nalHeader : UInt8) (isStart : Bool) : List Bytes → List Part
  | [] => []
  | data :: rest =>
      .fragment nalHeader isStart rest.isEmpty data :: fragmentParts nalHeader false rest

/-- The parts of a NAL unit, in sending order. -/
def partsOf (nalu : Bytes) : List Part :=
  match nalu with
  | [] => []
  | nalHeader :: payload =>
      if 4 + (nalHeader :: payload).length + RTP_HEADER_SIZE ≤ MTU then
        [.single (nalHeader :: payload)]
      else fragmentParts nalHeader true (chunks payload)

/-- The RTP packet of a part. -/
def packetOf (seq : UInt16) (timestamp ssrc : UInt32) (part : Part) : Bytes :=
  buildRtpHeader seq timestamp ssrc 96 part.marker ++ part.payload

/-- The packets of parts sent under one timestamp, numbered from `seq`. -/
def packetsFrom (seq : UInt16) (timestamp ssrc : UInt32) : List Part → List Bytes
  | [] => []
  | part :: rest => packetOf seq timestamp ssrc part :: packetsFrom (seq + 1) timestamp ssrc rest

/-- The session after `n` more packets. -/
def RtspSession.advance (session : RtspSession) (n : Nat) : RtspSession :=
  { session with rtpSeq := session.rtpSeq + UInt16.ofNat n }

@[simp] theorem RtspSession.advance_rtpSeq (session : RtspSession) (n : Nat) :
    (session.advance n).rtpSeq = session.rtpSeq + UInt16.ofNat n := rfl

@[simp] theorem RtspSession.advance_rtpSsrc (session : RtspSession) (n : Nat) :
    (session.advance n).rtpSsrc = session.rtpSsrc := rfl

@[simp] theorem RtspSession.advance_zero (session : RtspSession) : session.advance 0 = session := by
  simp [RtspSession.advance]

/-- Taking one number and advancing by `n` advances by `n + 1`. -/
theorem RtspSession.advance_next (session : RtspSession) (n : Nat) :
    { session with rtpSeq := session.rtpSeq + 1 }.advance n = session.advance (n + 1) := by
  simp [RtspSession.advance, OrderedMap.succ_add_ofNat]

theorem chunks_nil : chunks [] = [] := by
  simp [chunks]

theorem chunks_of_ne_nil {payload : Bytes} (h : payload ≠ []) :
    chunks payload = payload.take (fragmentLen payload.length) ::
      chunks (payload.drop (fragmentLen payload.length)) := by
  rw [chunks, if_neg h]

theorem chunks_eq_nil_iff {payload : Bytes} : chunks payload = [] ↔ payload = [] := by
  constructor
  · intro h
    by_contra hne
    simp [chunks_of_ne_nil hne] at h
  · rintro rfl
    exact chunks_nil

/-- The pieces of a payload join to the payload. -/
theorem flatten_chunks (payload : Bytes) : (chunks payload).flatten = payload := by
  fun_induction chunks payload with
  | case1 => rfl
  | case2 payload h ih => rw [List.flatten_cons, ih, List.take_append_drop]

/-- The FU-A loop sends the fragments of the pieces under consecutive numbers. -/
theorem send_fragments_eq (session : RtspSession) (timestamp : UInt32) (nalHeader : UInt8)
    (isStart : Bool) (payload : Bytes) :
    sendFragments session timestamp nalHeader isStart payload =
      (session.advance (fragmentParts nalHeader isStart (chunks payload)).length,
        packetsFrom session.rtpSeq timestamp session.rtpSsrc
          (fragmentParts nalHeader isStart (chunks payload))) := by
  fun_induction sendFragments session timestamp nalHeader isStart payload with
  | case1 => simp [chunks_nil, fragmentParts, packetsFrom]
  | case2 session isStart payload hne len isLast seq next hnext packet final packets hrec ih =>
      cases hnext
      rw [hrec] at ih
      obtain ⟨rfl, rfl⟩ := Prod.mk.inj ih
      have hlast : isLast = (chunks (payload.drop len)).isEmpty := by
        have hiff : chunks (payload.drop len) = [] ↔ len ≥ payload.length := by
          rw [chunks_eq_nil_iff, List.drop_eq_nil_iff]
        rw [Bool.eq_iff_iff, List.isEmpty_iff, hiff]
        exact decide_eq_true_iff
      rw [chunks_of_ne_nil hne]
      simp only [fragmentParts, List.length_cons, packetsFrom, RtspSession.advance_next, packetOf,
        Part.marker, Part.payload, packet, ← hlast, len]
      simp

/-- `rtpSendH264` sends the packets of the NAL unit's parts and advances the counter by their
number. -/
theorem rtp_send_h264_eq (session : RtspSession) (timestamp : UInt32) (nalu : Bytes) :
    rtpSendH264 session timestamp nalu =
      (session.advance (partsOf nalu).length,
        packetsFrom session.rtpSeq timestamp session.rtpSsrc (partsOf nalu)) := by
  cases nalu with
  | nil => simp [rtpSendH264, partsOf, packetsFrom]
  | cons nalHeader payload =>
      simp only [rtpSendH264, partsOf]
      split
      · simp [nextSeq, RtspSession.advance, packetsFrom, packetOf, Part.marker, Part.payload]
      · exact send_fragments_eq session timestamp nalHeader true payload

/-! ## Counting -/

/-- Pieces needed for this many payload bytes. -/
def pieceCount (length : Nat) : Nat :=
  (length + (FU_PAYLOAD_MAX - 1)) / FU_PAYLOAD_MAX

/-- The number of RTP packets of a NAL unit. -/
def packetCount (nalu : Bytes) : Nat :=
  if nalu = [] then 0
  else if 4 + nalu.length + RTP_HEADER_SIZE ≤ MTU then 1
  else pieceCount (nalu.length - 1)

theorem length_chunks (payload : Bytes) : (chunks payload).length = pieceCount payload.length := by
  fun_induction chunks payload with
  | case1 => rfl
  | case2 payload h ih =>
      have hpos : 0 < payload.length := List.length_pos_iff.2 h
      rw [List.length_cons, ih, List.length_drop]
      simp only [pieceCount, fragmentLen_eq_min, FU_PAYLOAD_MAX, MTU]
      omega

@[simp] theorem length_fragmentParts (nalHeader : UInt8) (isStart : Bool) (pieces : List Bytes) :
    (fragmentParts nalHeader isStart pieces).length = pieces.length := by
  induction pieces generalizing isStart with
  | nil => rfl
  | cons data rest ih => simp [fragmentParts, ih]

theorem length_partsOf (nalu : Bytes) : (partsOf nalu).length = packetCount nalu := by
  cases nalu with
  | nil => rfl
  | cons nalHeader payload =>
      simp only [partsOf, packetCount, reduceCtorEq, if_false]
      split
      · rfl
      · simp [length_chunks]

/-- A NAL unit past the single-packet size is cut into a first piece and at least one more. -/
theorem partsOf_fragmented {nalHeader : UInt8} {payload : Bytes}
    (h : ¬ 4 + (nalHeader :: payload).length + RTP_HEADER_SIZE ≤ MTU) :
    ∃ data rest, rest ≠ [] ∧ payload = data ++ rest.flatten ∧ data ≠ [] ∧
      partsOf (nalHeader :: payload) =
        .fragment nalHeader true false data :: fragmentParts nalHeader false rest := by
  have hlong : FU_PAYLOAD_MAX < payload.length := by
    simp only [List.length_cons, RTP_HEADER_SIZE, MTU, FU_PAYLOAD_MAX] at h ⊢
    omega
  have hne : payload ≠ [] := by
    rintro rfl
    simp at hlong
  have hlen : fragmentLen payload.length = FU_PAYLOAD_MAX := by
    rw [fragmentLen_eq_min]
    omega
  have hrest : chunks (payload.drop FU_PAYLOAD_MAX) ≠ [] := by
    rw [Ne, chunks_eq_nil_iff, List.drop_eq_nil_iff]
    omega
  refine ⟨payload.take FU_PAYLOAD_MAX, chunks (payload.drop FU_PAYLOAD_MAX), hrest, ?_, ?_, ?_⟩
  · rw [flatten_chunks, List.take_append_drop]
  · simp [hne, FU_PAYLOAD_MAX, MTU]
  · rw [partsOf, if_neg h, chunks_of_ne_nil hne, hlen, fragmentParts]
    simp [hrest]

end CarDetect.Camera
