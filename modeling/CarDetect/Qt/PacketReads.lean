import CarDetect.Lib.ReadTrace
import CarDetect.Qt.Reassembler

/-!
# What the reassembler reads of a packet

`parseRtp` returns a pointer into the packet, and `_processRtpNalu` reads through it. The functions
here make each of these reads at the offset that the source takes, in a memory that goes on behind
the packet. `handle_reads_refines` connects them with `handleRtp`, and `harmless_iff` says which
packets are read inside their bounds and leave no trace when they carry no payload.
-/

namespace CarDetect.Qt

open BigEndian ReadTrace

/-- `RtpPacket` as `parseRtp` fills it: `payload` is an offset into the packet, or the null
pointer. -/
structure PacketView where
  vpxcc : UInt8
  mpt : UInt8
  marker : Bool
  seq : UInt16
  timestamp : UInt32
  ssrc : UInt32
  payload : Option Nat
  payloadLen : Int
deriving DecidableEq, Repr

/-- The packet with the bytes that the view points to. -/
def PacketView.toPacket (pkt : PacketView) (payload : Bytes) : RtpPacket where
  vpxcc := pkt.vpxcc
  mpt := pkt.mpt
  marker := pkt.marker
  seq := pkt.seq
  timestamp := pkt.timestamp
  ssrc := pkt.ssrc
  payload := payload

/-- `parseRtp`, read by read. The length is tested after the header has been read. -/
def parseRtpReads (m : Memory) : Traced PacketView := do
  let p0 ← byteAt m 0
  let p1 ← byteAt m 1
  let p2 ← byteAt m 2
  let p3 ← byteAt m 3
  let p4 ← byteAt m 4
  let p5 ← byteAt m 5
  let p6 ← byteAt m 6
  let p7 ← byteAt m 7
  let p8 ← byteAt m 8
  let p9 ← byteAt m 9
  let p10 ← byteAt m 10
  let p11 ← byteAt m 11
  let headerLen : Nat := 12
  let payloadLen : Int := m.object.length - headerLen
  pure {
    vpxcc := p0
    mpt := p1
    marker := (p1 &&& 0x80) != 0
    seq := (p2.toUInt16 <<< 8) ||| p3.toUInt16
    timestamp := (p4.toUInt32 <<< 24) ||| (p5.toUInt32 <<< 16) ||| (p6.toUInt32 <<< 8) |||
      p7.toUInt32
    ssrc := (p8.toUInt32 <<< 24) ||| (p9.toUInt32 <<< 16) ||| (p10.toUInt32 <<< 8) |||
      p11.toUInt32
    payload := if payloadLen < 0 then none else some headerLen
    payloadLen := if payloadLen < 0 then 0 else payloadLen }

/-- The FU-A branch of `_processRtpNalu` on the payload at `payload`. A fragment's data is read
only where it is stored. -/
def processFuAReads (m : Memory) (s : H264RtpReassembler) (streamName : QString)
    (pkt : PacketView) (payload : Nat) : Traced (H264RtpReassembler × List FrameReady) :=
  if pkt.payloadLen < 2 then pure (resetFu s, [])
  else do
    let fuIndicator ← byteAt m payload
    let fuHeader ← byteAt m (payload + 1)
    let isFuStart := (fuHeader &&& 0x80) != 0
    let isFuEnd := (fuHeader &&& 0x40) != 0
    let realNalType := fuHeader &&& 0x1F
    if realNalType = 0 || realNalType ≥ 24 then pure (resetFu s, [])
    else if isFuStart then do
      let data ← copyWhen (pkt.payloadLen > 2)
        (bytesAt m (payload + 2) (pkt.payloadLen - 2).toNat)
      pure (processFuStart s streamName (pkt.toPacket []) ((fuIndicator &&& 0xE0) ||| realNalType)
        data)
    else if s.fuStarted then do
      let seqGap : Int := pkt.seq.toNat - s.fuExpectedSeq.toNat
      let data ← copyWhen (seqGap ≥ 0 && seqGap ≤ maxSeqGap)
        (bytesAt m (payload + 2) (pkt.payloadLen - 2).toNat)
      pure (processFuNext s streamName (pkt.toPacket []) isFuEnd realNalType data)
    else pure (flush s streamName pkt.marker)

/-- `_processRtpNalu`, read by read. -/
def processRtpNaluReads (m : Memory) (s : H264RtpReassembler) (streamName : QString)
    (pkt : PacketView) : Traced (H264RtpReassembler × List FrameReady) :=
  match pkt.payload with
  | none => pure (s, [])
  | some payload =>
      if pkt.payloadLen < 1 then pure (s, [])
      else do
        let first ← byteAt m payload
        let nalType := first &&& 0x1F
        if nalType > 0 && nalType < 24 then do
          let nalu ← bytesAt m payload pkt.payloadLen.toNat
          pure (processSingle s streamName (pkt.toPacket nalu) nalType)
        else if nalType = 28 then processFuAReads m s streamName pkt payload
        else pure (flush s streamName pkt.marker)

/-- `handleRtp`, read by read. -/
def handleRtpReads (m : Memory) (s : H264RtpReassembler) (streamName : QString) :
    Traced (H264RtpReassembler × List FrameReady) :=
  if m.object = [] then pure (s, [])
  else do
    let pkt ← parseRtpReads m
    if pkt.payload = none || pkt.payloadLen ≤ 0 then pure (s, [])
    else if isDuplicate s pkt.seq then pure (s, [])
    else do
      let s := if isLargeGap s pkt.seq then resetFu { s with frame := [] } else s
      let (s, frames) ← processRtpNaluReads m s streamName pkt
      pure ({ s with lastSeq := pkt.seq }, frames)

/-! ## Reads of a packet with a header -/

variable {m : Memory} {s : H264RtpReassembler} {streamName : QString}

/-- The view of a packet with a header points behind the header. -/
theorem parse_reads_view (m : Memory) (h : 12 ≤ m.object.length) :
    (parseRtpReads m).value.payload = some 12 ∧
      (parseRtpReads m).value.payloadLen = (m.object.length - 12 : Nat) := by
  have hlen : ¬ (m.object.length : Int) - (12 : Nat) < 0 := by omega
  simp only [parseRtpReads, value_bind, value_pure, if_neg hlen, true_and]
  omega

/-- A packet without a full header is given a null payload. -/
theorem parse_reads_short (m : Memory) (h : m.object.length < 12) :
    (parseRtpReads m).value.payload = none := by
  have hlen : (m.object.length : Int) - (12 : Nat) < 0 := by omega
  simp only [parseRtpReads, value_bind, value_pure, if_pos hlen]

theorem parse_reads_inside (h : 12 ≤ m.object.length) :
    Inside m.object.length (parseRtpReads m) := by
  unfold parseRtpReads
  repeat refine inside_bind (inside_byteAt (by omega)) ?_
  exact inside_pure _ _

/-- Every offset taken in the FU-A branch lies in a payload that ends with the packet. -/
theorem process_fu_a_inside {pkt : PacketView} {payload : Nat}
    (hlen : pkt.payloadLen = (m.object.length - payload : Nat)) :
    Inside m.object.length (processFuAReads m s streamName pkt payload) := by
  unfold processFuAReads
  refine inside_ite (fun _ => inside_pure _ _) fun hlong => ?_
  refine inside_bind (inside_byteAt (by omega)) ?_
  refine inside_bind (inside_byteAt (by omega)) ?_
  have hdata : Inside m.object.length (bytesAt m (payload + 2) (pkt.payloadLen - 2).toNat) :=
    inside_bytesAt (by omega)
  refine inside_ite (fun _ => inside_pure _ _) fun _ => ?_
  refine inside_ite (fun _ => ?_) fun _ => inside_ite (fun _ => ?_) fun _ => inside_pure _ _
  · exact inside_bind (inside_copyWhen hdata) (inside_pure _ _)
  · exact inside_bind (inside_copyWhen hdata) (inside_pure _ _)

theorem process_rtp_nalu_inside {pkt : PacketView}
    (hpayload : pkt.payload = some 12)
    (hlen : pkt.payloadLen = (m.object.length - 12 : Nat)) :
    Inside m.object.length (processRtpNaluReads m s streamName pkt) := by
  simp only [processRtpNaluReads, hpayload]
  refine inside_ite (fun _ => inside_pure _ _) fun hlong => ?_
  refine inside_bind (inside_byteAt (by omega)) ?_
  refine inside_ite (fun _ => ?_) fun _ => inside_ite (fun _ => ?_) fun _ => inside_pure _ _
  · exact inside_bind (inside_bytesAt (by omega)) (inside_pure _ _)
  · exact process_fu_a_inside hlen

/-- A packet with a full header is read inside its bounds, in every state. -/
theorem handle_reads_inside (h : 12 ≤ m.object.length) :
    Inside m.object.length (handleRtpReads m s streamName) := by
  obtain ⟨hpayload, hlen⟩ := parse_reads_view m h
  unfold handleRtpReads
  refine inside_ite (fun _ => inside_pure _ _) fun _ => ?_
  refine inside_bind (parse_reads_inside h) ?_
  refine inside_ite (fun _ => inside_pure _ _) fun _ => ?_
  refine inside_ite (fun _ => inside_pure _ _) fun _ => ?_
  exact inside_bind (process_rtp_nalu_inside hpayload hlen) (inside_pure _ _)

/-! ## The reads compute `handleRtp` -/

/-- Both branches of the source give `processFuNext` the data when it stores it. -/
theorem process_fu_next_data (s : H264RtpReassembler) (streamName : QString) (pkt : RtpPacket)
    (isFuEnd : Bool) (realNalType : UInt8) (data : Bytes) :
    processFuNext s streamName pkt isFuEnd realNalType
        (if (decide ((pkt.seq.toNat : Int) - s.fuExpectedSeq.toNat ≥ 0) &&
          decide ((pkt.seq.toNat : Int) - s.fuExpectedSeq.toNat ≤ maxSeqGap)) = true then data
        else []) =
      processFuNext s streamName pkt isFuEnd realNalType data := by
  by_cases hbefore : (pkt.seq.toNat : Int) - s.fuExpectedSeq.toNat < 0
  · simp only [processFuNext, if_pos hbefore]
  by_cases hbeyond : (pkt.seq.toNat : Int) - s.fuExpectedSeq.toNat > maxSeqGap
  · simp only [processFuNext, if_neg hbefore, if_pos hbeyond]
  rw [if_pos]
  rw [Bool.and_eq_true, decide_eq_true_eq, decide_eq_true_eq]
  omega

theorem process_fu_a_refines (pkt : PacketView) {payload : Nat} {fuIndicator : UInt8}
    {rest : Bytes} (hdrop : m.object.drop payload = fuIndicator :: rest)
    (hlen : pkt.payloadLen = (m.object.length - payload : Nat)) :
    (processFuAReads m s streamName pkt payload).value =
      processFuA s streamName (pkt.toPacket (fuIndicator :: rest)) fuIndicator rest := by
  have hlength := congrArg List.length hdrop
  rw [List.length_drop, List.length_cons] at hlength
  cases rest with
  | nil =>
      have hshort : pkt.payloadLen < 2 := by
        rw [List.length_nil] at hlength
        omega
      simp only [processFuAReads, if_pos hshort, value_pure, processFuA]
  | cons fuHeader data =>
      have hlong : ¬ pkt.payloadLen < 2 := by
        rw [List.length_cons] at hlength
        omega
      have hnext : m.object.drop (payload + 1) = fuHeader :: data := by
        rw [← List.drop_drop, hdrop]
        rfl
      have hdata : (bytesAt m (payload + 2) (pkt.payloadLen - 2).toNat).value = data := by
        have htail : m.object.drop (payload + 2) = data := by
          rw [← List.drop_drop, hdrop]
          rfl
        rw [value_bytesAt (by omega), htail]
        exact List.take_of_length_le (by rw [List.length_cons] at hlength; omega)
      have hstored : (if decide (pkt.payloadLen > 2) = true then data else []) = data := by
        cases data with
        | nil => exact ite_self []
        | cons byte more =>
            rw [List.length_cons, List.length_cons] at hlength
            exact if_pos (decide_eq_true (by omega))
      have hcollected := process_fu_next_data s streamName
        (pkt.toPacket (fuIndicator :: fuHeader :: data)) ((fuHeader &&& 0x40) != 0)
        (fuHeader &&& 0x1F) data
      simp only [processFuAReads, if_neg hlong, value_bind, value_byteAt, byte_of_drop hdrop,
        byte_of_drop hnext, processFuA, apply_ite Traced.value, value_pure, value_copyWhen, hdata,
        hstored, ← hcollected]
      rfl

theorem process_rtp_nalu_refines (pkt : PacketView) (hpayload : pkt.payload = some 12)
    (hlen : pkt.payloadLen = (m.object.length - 12 : Nat)) :
    (processRtpNaluReads m s streamName pkt).value =
      processRtpNalu s streamName (pkt.toPacket (m.object.drop 12)) := by
  have hlength := List.length_drop (l := m.object) (i := 12)
  cases hdrop : m.object.drop 12 with
  | nil =>
      have hshort : pkt.payloadLen < 1 := by
        rw [hdrop, List.length_nil] at hlength
        omega
      simp only [processRtpNaluReads, hpayload, if_pos hshort]
      rfl
  | cons first rest =>
      have hlong : ¬ pkt.payloadLen < 1 := by
        rw [hdrop, List.length_cons] at hlength
        omega
      have hnalu : (bytesAt m 12 pkt.payloadLen.toNat).value = first :: rest := by
        rw [value_bytesAt (by omega), hdrop]
        exact List.take_of_length_le (by rw [← hdrop]; omega)
      simp only [processRtpNaluReads, hpayload, if_neg hlong, value_bind, value_byteAt,
        byte_of_drop hdrop, apply_ite Traced.value, value_pure, hnalu,
        process_fu_a_refines pkt hdrop hlen]
      rfl

/-- On a packet with a full header the reads give what `parseRtp` gives. -/
theorem parse_reads_refines (m : Memory) (h : 12 ≤ m.object.length) :
    parseRtp m.object =
      .ok ((parseRtpReads m).value.toPacket (m.object.drop 12)) := by
  obtain ⟨object, beyond⟩ := m
  match object, h with
  | p0 :: p1 :: p2 :: p3 :: p4 :: p5 :: p6 :: p7 :: p8 :: p9 :: p10 :: p11 :: payload, _ => rfl

/-- The function with its reads computes `handleRtp` on every packet with a full header. -/
theorem handle_reads_refines (m : Memory) (s : H264RtpReassembler) (streamName : QString)
    (h : 12 ≤ m.object.length) :
    handleRtp s (streamName, m.object) = .ok (handleRtpReads m s streamName).value := by
  obtain ⟨hpayload, hlen⟩ := parse_reads_view m h
  have hne : m.object ≠ [] := by
    intro hnil
    simp [hnil] at h
  rw [handle_rtp_eq (parse_reads_refines m h)]
  by_cases hempty : m.object.drop 12 = []
  · have hnone : (parseRtpReads m).value.payloadLen ≤ 0 := by
      rw [List.drop_eq_nil_iff] at hempty
      omega
    simp only [handleRtpReads, if_neg hne, value_bind, hpayload, hnone]
    simp [PacketView.toPacket, hempty]
  · have hpos : ¬ (parseRtpReads m).value.payloadLen ≤ 0 := by
      rw [List.drop_eq_nil_iff] at hempty
      omega
    have hview : ¬ ((decide ((parseRtpReads m).value.payload = none) ||
        decide ((parseRtpReads m).value.payloadLen ≤ 0)) = true) := by
      simp [hpayload, hpos]
    by_cases hduplicate : isDuplicate s (parseRtpReads m).value.seq = true
    · rw [if_pos (.inr hduplicate)]
      simp only [handleRtpReads, if_neg hne, value_bind, if_neg hview, if_pos hduplicate,
        value_pure]
    · have hpassed : ¬ (((parseRtpReads m).value.toPacket (m.object.drop 12)).payload = [] ∨
          isDuplicate s ((parseRtpReads m).value.toPacket (m.object.drop 12)).seq = true) :=
        not_or.2 ⟨hempty, hduplicate⟩
      rw [if_neg hpassed]
      simp only [handleRtpReads, if_neg hne, value_bind, if_neg hview, if_neg hduplicate,
        value_pure, process_rtp_nalu_refines _ hpayload hlen]
      rfl

/-! ## Malformed packets -/

/-- Every read of the packet is inside it, and a packet without a payload byte changes no field and
emits nothing. -/
structure Harmless (m : Memory) (s : H264RtpReassembler) (streamName : QString) : Prop where
  inside : Inside m.object.length (handleRtpReads m s streamName)
  quiet : m.object.length ≤ 12 → (handleRtpReads m s streamName).value = (s, [])

/-- A packet without a payload byte is dropped, whatever was read for its header. -/
theorem handle_reads_quiet (m : Memory) (s : H264RtpReassembler) (streamName : QString)
    (h : m.object.length ≤ 12) : (handleRtpReads m s streamName).value = (s, []) := by
  by_cases hnil : m.object = []
  · simp only [handleRtpReads, if_pos hnil, value_pure]
  have hview : (decide ((parseRtpReads m).value.payload = none) ||
      decide ((parseRtpReads m).value.payloadLen ≤ 0)) = true := by
    rcases Nat.lt_or_ge m.object.length 12 with hshort | hfull
    · simp [parse_reads_short m hshort]
    · have hzero : (parseRtpReads m).value.payloadLen ≤ 0 := by
        rw [(parse_reads_view m hfull).2]
        omega
      simp [hzero]
  simp only [handleRtpReads, if_neg hnil, value_bind, if_pos hview, value_pure]

/-- The header of a packet that is not empty is read up to byte 11. -/
theorem reads_last_header_byte (hne : m.object ≠ []) :
    11 ∈ (handleRtpReads m s streamName).reads := by
  have hheader : 11 ∈ (parseRtpReads m).reads := by
    show 11 ∈ [0, 1, 2, 3, 4, 5, 6, 7, 8, 9, 10, 11]
    decide
  rw [handleRtpReads, if_neg hne]
  exact mem_reads_bind _ hheader

/-- In every state, a packet is harmless exactly when it is empty or has a full header. -/
theorem harmless_iff (m : Memory) (s : H264RtpReassembler) (streamName : QString) :
    Harmless m s streamName ↔ m.object = [] ∨ 12 ≤ m.object.length := by
  constructor
  · intro h
    by_contra hshort
    rw [not_or] at hshort
    have hread := h.inside 11 (reads_last_header_byte hshort.1)
    omega
  · intro h
    refine ⟨?_, handle_reads_quiet m s streamName⟩
    rcases h with hempty | hfull
    · rw [handleRtpReads, if_pos hempty]
      exact inside_pure _ _
    · exact handle_reads_inside hfull

/-- A packet of one byte is read past its end. -/
theorem one_byte_read_outside :
    ¬ Harmless ⟨[0x80], fun _ => 0⟩ fresh "cam" := by
  intro h
  have hread := h.inside 11 (reads_last_header_byte (List.cons_ne_nil _ _))
  exact absurd hread (by decide)

end CarDetect.Qt
