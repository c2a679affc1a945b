import CarDetect.Camera.Packets
import CarDetect.Qt.Reassembler

/-!
# One packet through the reassembler

What `handleRtp` does with a packet of the camera, by the kind of its part. `handle_packetOf`
removes the wire format: the parsed packet has the part's number, marker and payload.
`process_single` and `process_fragment` select the branch of `_processRtpNalu`, and
`handle_next` says that a packet numbered one past the last is neither a duplicate nor a gap.
-/

namespace CarDetect.Stream

open BigEndian Camera Qt

/-- Calls of `handleRtp` for one stream. -/
def callsFor (streamName : QString) (packets : List Bytes) : List (QString × Bytes) :=
  packets.map fun packet => (streamName, packet)

@[simp] theorem callsFor_nil (streamName : QString) : callsFor streamName [] = [] := rfl

@[simp] theorem callsFor_cons (streamName : QString) (packet : Bytes) (rest : List Bytes) :
    callsFor streamName (packet :: rest) = (streamName, packet) :: callsFor streamName rest := rfl

@[simp] theorem callsFor_append (streamName : QString) (first second : List Bytes) :
    callsFor streamName (first ++ second) =
      callsFor streamName first ++ callsFor streamName second := by
  simp [callsFor]

/-- What `parseRtp` recovers from the packet of a part. -/
def parsedPart (seq : UInt16) (timestamp ssrc : UInt32) (part : Part) : RtpPacket where
  vpxcc := 0x80
  mpt := if part.marker then (96 &&& 0x7F) ||| 0x80 else 96 &&& 0x7F
  marker := part.marker
  seq := seq
  timestamp := timestamp
  ssrc := ssrc
  payload := part.payload

theorem parse_packetOf (seq : UInt16) (timestamp ssrc : UInt32) (part : Part) :
    parseRtp (packetOf seq timestamp ssrc part) = .ok (parsedPart seq timestamp ssrc part) := by
  have hmarker (marker : Bool) :
      (((if marker then (96 &&& 0x7F) ||| 0x80 else 96 &&& 0x7F : UInt8) &&& 0x80) != 0) =
        marker := by
    cases marker <;> rfl
  simp only [packetOf, buildRtpHeader, List.cons_append, List.nil_append, parseRtp, parsedPart,
    hmarker, join16_split, join32_split]

/-- The handler acts on the parsed part. -/
theorem handle_packetOf (s : H264RtpReassembler) (streamName : QString) (seq : UInt16)
    (timestamp ssrc : UInt32) (part : Part) :
    handleRtp s (streamName, packetOf seq timestamp ssrc part) =
      .ok (handleParsed s streamName (parsedPart seq timestamp ssrc part)) := by
  have hne : packetOf seq timestamp ssrc part ≠ [] := by
    simp [packetOf, buildRtpHeader]
  simp [handleRtp, hne, parse_packetOf]

/-! ## Branch selection -/

/-- A header byte whose type field is from 1 to 23. -/
def ValidHeader (nalHeader : UInt8) : Prop :=
  1 ≤ nalHeader &&& 0x1F ∧ nalHeader &&& 0x1F ≤ 23

theorem ValidHeader.range {nalHeader : UInt8} (h : ValidHeader nalHeader) :
    0 < nalHeader &&& 0x1F ∧ nalHeader &&& 0x1F < 24 := by
  obtain ⟨hlow, hhigh⟩ := h
  rw [UInt8.le_iff_toNat_le] at hlow hhigh
  rw [UInt8.lt_iff_toNat_lt, UInt8.lt_iff_toNat_lt]
  simp only [UInt8.toNat_ofNat, Nat.reducePow, Nat.reduceMod] at hlow hhigh ⊢
  omega

variable {s : H264RtpReassembler} {streamName : QString} {seq : UInt16} {timestamp ssrc : UInt32}

/-- A single part takes the branch for unfragmented NAL units. -/
theorem process_single {nalHeader : UInt8} {rest : Bytes} (h : ValidHeader nalHeader) :
    processRtpNalu s streamName (parsedPart seq timestamp ssrc (.single (nalHeader :: rest))) =
      processSingle s streamName (parsedPart seq timestamp ssrc (.single (nalHeader :: rest)))
        (nalHeader &&& 0x1F) := by
  simp [processRtpNalu, parsedPart, Part.payload, h.range]

/-- A fragment takes the FU-A branch, and its flags select the case. -/
theorem process_fragment {nalHeader : UInt8} {isStart isLast : Bool} {data : Bytes}
    (h : ValidHeader nalHeader) :
    processRtpNalu s streamName
        (parsedPart seq timestamp ssrc (.fragment nalHeader isStart isLast data)) =
      let pkt := parsedPart seq timestamp ssrc (.fragment nalHeader isStart isLast data)
      if isStart then processFuStart s streamName pkt nalHeader data
      else if s.fuStarted then
        processFuNext s streamName pkt isLast (nalHeader &&& 0x1F) data
      else flush s streamName isLast := by
  have hzero : nalHeader &&& 0x1F ≠ 0 := by
    intro hzero
    have hpos := h.range.1
    rw [hzero] at hpos
    exact absurd hpos (by decide)
  have hlow : ¬ 24 ≤ nalHeader &&& 0x1F := UInt8.not_le.2 h.range.2
  simp [processRtpNalu, parsedPart, Part.payload, Part.marker, processFuA, fuIndicator_type,
    fuHeader_start, fuHeader_end, fuHeader_type, rebuild_nalHeader, hzero, hlow]

/-! ## Consecutive packets -/

/-- A packet numbered one past the last, or any packet while the last number is 0, is passed on
to `_processRtpNalu` with the state unchanged. -/
theorem handle_next (pkt : RtpPacket) (hpayload : pkt.payload ≠ [])
    (hseq : s.lastSeq = 0 ∨ pkt.seq = s.lastSeq + 1) :
    handleParsed s streamName pkt =
      ({ (processRtpNalu s streamName pkt).1 with lastSeq := pkt.seq },
        (processRtpNalu s streamName pkt).2) := by
  have hbound := s.lastSeq.toNat_lt
  have hduplicate : isDuplicate s pkt.seq = false := by
    rcases hseq with hzero | hseq
    · simp [isDuplicate, hzero]
    · simp only [isDuplicate, hseq, UInt16.le_iff_toNat_le, UInt16.toNat_add, UInt16.toNat_one]
      by_cases hwrap : s.lastSeq.toNat = 65535
      · simp [hwrap, maxSeqGap]
      · have hlt : ¬ (s.lastSeq.toNat + 1) % 65536 ≤ s.lastSeq.toNat := by omega
        simp [hlt]
  have hgap : isLargeGap s pkt.seq = false := by
    rcases hseq with hzero | hseq
    · simp [isLargeGap, hzero]
    · simp only [isLargeGap, hseq, gt_iff_lt, UInt16.lt_iff_toNat_lt, UInt16.toNat_add,
        UInt16.toNat_one, maxSeqGap, Bool.and_eq_false_iff, decide_eq_false_iff_not]
      right
      split <;> omega
  simp [handleParsed, hpayload, hduplicate, hgap]

/-- `handle_next` for the packet of a part. -/
theorem handle_next_part (streamName : QString) (timestamp ssrc : UInt32) (part : Part)
    (hpayload : part.payload ≠ [])
    (hseq : s.lastSeq = 0 ∨ seq = s.lastSeq + 1) :
    handleRtp s (streamName, packetOf seq timestamp ssrc part) =
      .ok ({ (processRtpNalu s streamName (parsedPart seq timestamp ssrc part)).1 with
          lastSeq := seq },
        (processRtpNalu s streamName (parsedPart seq timestamp ssrc part)).2) := by
  rw [handle_packetOf, handle_next (parsedPart seq timestamp ssrc part) hpayload hseq]
  rfl

end CarDetect.Stream
