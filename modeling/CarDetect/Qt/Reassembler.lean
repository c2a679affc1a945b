import CarDetect.Lib.BigEndian
import CarDetect.Lib.Machine

/-!
# The receiver's H.264 reassembler

`handleRtp` follows `H264RtpReassembler::handleRtp` of the Qt client: parse the packet, drop
duplicates, reset on a large sequence gap, then `processRtpNalu`, which appends single NAL units
to the pending frame and collects FU-A fragments in a map ordered by sequence number. A frame is
emitted when a packet carries the marker bit. Sequence numbers are 16-bit, and where the source
promotes them to `int` the model compares integers. Reading outside the packet is a fault.
-/

namespace CarDetect.Qt

open BigEndian

abbrev QString := String

/-- `QMap`: a map iterated in key order. -/
abbrev QMap (κ α : Type) [Ord κ] := Std.TreeMap κ α compare

/-- A read outside the bytes of the packet. -/
inductive OutOfBounds where
  | read
deriving DecidableEq, Repr

/-- `RtpPacket`: the parsed header and the payload bytes. -/
structure RtpPacket where
  vpxcc : UInt8
  mpt : UInt8
  marker : Bool
  seq : UInt16
  timestamp : UInt32
  ssrc : UInt32
  payload : Bytes
deriving DecidableEq, Repr

/-- `parseRtp`: it reads the first twelve bytes without testing the length. -/
def parseRtp (ba : Bytes) : Except OutOfBounds RtpPacket :=
  match ba with
  | p0 :: p1 :: p2 :: p3 :: p4 :: p5 :: p6 :: p7 :: p8 :: p9 :: p10 :: p11 :: payload =>
      .ok {
        vpxcc := p0
        mpt := p1
        marker := (p1 &&& 0x80) != 0
        seq := (p2.toUInt16 <<< 8) ||| p3.toUInt16
        timestamp := (p4.toUInt32 <<< 24) ||| (p5.toUInt32 <<< 16) ||| (p6.toUInt32 <<< 8) |||
          p7.toUInt32
        ssrc := (p8.toUInt32 <<< 24) ||| (p9.toUInt32 <<< 16) ||| (p10.toUInt32 <<< 8) |||
          p11.toUInt32
        payload := payload }
  | _ => .error .read

/-- A packet that is parsed is not empty. -/
theorem ne_nil_of_parse {ba : Bytes} {pkt : RtpPacket} (h : parseRtp ba = .ok pkt) : ba ≠ [] := by
  rintro rfl
  cases h

/-- `RtpUnit`: one buffered FU-A fragment. -/
structure RtpUnit where
  seq : UInt16
  data : Bytes
deriving DecidableEq, Repr

/-- `_maxSeqGap` -/
def maxSeqGap : Int := 3

/-- `_maxFuBufferSize` -/
def maxFuBufferSize : Nat := 1024

/-- The reassembler's fields, with their initial values. One object serves every stream. -/
structure H264RtpReassembler where
  frame : Bytes := []
  fuBuffer : QMap UInt16 RtpUnit := ∅
  fuStarted : Bool := false
  lastSeq : UInt16 := 0
  spsNalu : Bytes := []
  ppsNalu : Bytes := []
  fuStartSeq : UInt16 := 0
  fuExpectedSeq : UInt16 := 0

/-- A freshly constructed reassembler. -/
def fresh : H264RtpReassembler := {}

/-- An `onFrameReady` signal: the stream name and the frame. -/
abbrev FrameReady := QString × Bytes

/-- `appendStartCode4` before the bytes of a NAL unit. -/
def annexB (nalu : Bytes) : Bytes :=
  [0, 0, 0, 1] ++ nalu

/-- `_checkAndSaveSpsPps` -/
def checkAndSaveSpsPps (s : H264RtpReassembler) (nalType : UInt8) (naluData : Bytes) :
    H264RtpReassembler :=
  if nalType = 7 then { s with spsNalu := naluData }
  else if nalType = 8 then { s with ppsNalu := naluData }
  else s

/-- The four assignments that abandon the fragments collected so far. -/
def resetFu (s : H264RtpReassembler) : H264RtpReassembler :=
  { s with fuBuffer := ∅, fuStarted := false, fuExpectedSeq := 0, fuStartSeq := 0 }

/-- Emit the pending frame when the marker bit is set and the frame is not empty. -/
def flush (s : H264RtpReassembler) (streamName : QString) (marker : Bool) :
    H264RtpReassembler × List FrameReady :=
  if marker && !s.frame.isEmpty then ({ s with frame := [] }, [(streamName, s.frame)])
  else (s, [])

@[simp] theorem flush_fuStarted (s : H264RtpReassembler) (streamName : QString) (marker : Bool) :
    (flush s streamName marker).1.fuStarted = s.fuStarted := by
  unfold flush
  split <;> rfl

/-- Emitting does nothing without the marker. -/
@[simp] theorem flush_false (s : H264RtpReassembler) (streamName : QString) :
    flush s streamName false = (s, []) := by
  simp [flush]

@[simp] theorem check_and_save_frame (s : H264RtpReassembler) (nalType : UInt8) (data : Bytes) :
    (checkAndSaveSpsPps s nalType data).frame = s.frame := by
  unfold checkAndSaveSpsPps
  split_ifs <;> rfl

@[simp] theorem check_and_save_fuStarted (s : H264RtpReassembler) (nalType : UInt8)
    (data : Bytes) : (checkAndSaveSpsPps s nalType data).fuStarted = s.fuStarted := by
  unfold checkAndSaveSpsPps
  split_ifs <;> rfl

/-- The loop over `_fuBuffer`: whether the keys count up from `expected`, and the value of
`expectedSeq` when the loop ends. -/
def scanFuKeys (expected : UInt16) : List UInt16 → Bool × UInt16
  | [] => (true, expected)
  | key :: rest => if key = expected then scanFuKeys (expected + 1) rest else (false, expected)

/-- The completeness test of an end fragment. The subtraction is on `int`. -/
def isFuComplete (s : H264RtpReassembler) (currentSeq : UInt16) : Bool :=
  let (isComplete, expectedSeq) := scanFuKeys s.fuStartSeq s.fuBuffer.keys
  isComplete && decide ((currentSeq.toNat : Int) = expectedSeq.toNat - 1)

/-- Append a complete fragmented NAL unit to the frame, or drop it, and clear the buffer. -/
def finishFu (s : H264RtpReassembler) (currentSeq : UInt16) (realNalType : UInt8) :
    H264RtpReassembler :=
  let s :=
    if isFuComplete s currentSeq then
      let naluData := annexB (s.fuBuffer.toList.map fun entry => entry.2.data).flatten
      let s := checkAndSaveSpsPps s realNalType naluData
      { s with frame := s.frame ++ naluData }
    else s
  resetFu s

/-- A start fragment. One without data returns before the frame can be emitted. -/
def processFuStart (s : H264RtpReassembler) (streamName : QString) (pkt : RtpPacket)
    (nalHeader : UInt8) (data : Bytes) : H264RtpReassembler × List FrameReady :=
  if data = [] then (resetFu s, [])
  else
    let s := { s with
      fuStarted := true
      fuStartSeq := pkt.seq
      fuExpectedSeq := pkt.seq + 1
      fuBuffer := (∅ : QMap UInt16 RtpUnit).insert pkt.seq ⟨pkt.seq, nalHeader :: data⟩ }
    let s := if s.fuBuffer.size > maxFuBufferSize then resetFu s else s
    flush s streamName pkt.marker

/-- A middle or end fragment of a started unit. -/
def processFuNext (s : H264RtpReassembler) (streamName : QString) (pkt : RtpPacket)
    (isFuEnd : Bool) (realNalType : UInt8) (data : Bytes) :
    H264RtpReassembler × List FrameReady :=
  let seqGap : Int := pkt.seq.toNat - s.fuExpectedSeq.toNat
  if seqGap < 0 then (s, [])
  else if seqGap > maxSeqGap then (resetFu s, [])
  else
    let s := { s with fuBuffer := s.fuBuffer.insert pkt.seq ⟨pkt.seq, data⟩ }
    let s := if pkt.seq ≥ s.fuExpectedSeq then { s with fuExpectedSeq := pkt.seq + 1 } else s
    if s.fuBuffer.size > maxFuBufferSize then (resetFu s, [])
    else
      let s := if isFuEnd then finishFu s pkt.seq realNalType else s
      flush s streamName pkt.marker

/-- The FU-A branch of `_processRtpNalu`; `rest` is the payload after the FU indicator. -/
def processFuA (s : H264RtpReassembler) (streamName : QString) (pkt : RtpPacket)
    (fuIndicator : UInt8) (rest : Bytes) : H264RtpReassembler × List FrameReady :=
  match rest with
  | [] => (resetFu s, [])
  | fuHeader :: data =>
      let isFuStart := (fuHeader &&& 0x80) != 0
      let isFuEnd := (fuHeader &&& 0x40) != 0
      let realNalType := fuHeader &&& 0x1F
      if realNalType = 0 || realNalType ≥ 24 then (resetFu s, [])
      else if isFuStart then
        processFuStart s streamName pkt ((fuIndicator &&& 0xE0) ||| realNalType) data
      else if s.fuStarted then processFuNext s streamName pkt isFuEnd realNalType data
      else flush s streamName pkt.marker

/-- The branch of `_processRtpNalu` for an unfragmented NAL unit. -/
def processSingle (s : H264RtpReassembler) (streamName : QString) (pkt : RtpPacket)
    (nalType : UInt8) : H264RtpReassembler × List FrameReady :=
  let s := if s.fuStarted then resetFu s else s
  let naluData := annexB pkt.payload
  let s := checkAndSaveSpsPps s nalType naluData
  let s := { s with frame := s.frame ++ naluData }
  let (s, first) := flush s streamName pkt.marker
  let (s, second) := flush s streamName pkt.marker
  (s, first ++ second)

/-- `_processRtpNalu` -/
def processRtpNalu (s : H264RtpReassembler) (streamName : QString) (pkt : RtpPacket) :
    H264RtpReassembler × List FrameReady :=
  match pkt.payload with
  | [] => (s, [])
  | first :: rest =>
      let nalType := first &&& 0x1F
      if nalType > 0 && nalType < 24 then processSingle s streamName pkt nalType
      else if nalType = 28 then processFuA s streamName pkt first rest
      else flush s streamName pkt.marker

/-- The duplicate test of `handleRtp`. A zero `_lastSeq` switches it off. -/
def isDuplicate (s : H264RtpReassembler) (currentSeq : UInt16) : Bool :=
  s.lastSeq != 0 && decide (currentSeq ≤ s.lastSeq) &&
    !(decide ((s.lastSeq.toNat : Int) > 65535 - maxSeqGap) &&
      decide ((currentSeq.toNat : Int) < maxSeqGap))

/-- The gap test of `handleRtp`, with the wrap-around formula. -/
def isLargeGap (s : H264RtpReassembler) (currentSeq : UInt16) : Bool :=
  let seqGap : Int :=
    if s.lastSeq > currentSeq then (65535 - s.lastSeq.toNat) + currentSeq.toNat + 1
    else currentSeq.toNat - s.lastSeq.toNat
  s.lastSeq != 0 && decide (seqGap > maxSeqGap)

/-- `handleRtp` after parsing. -/
def handleParsed (s : H264RtpReassembler) (streamName : QString) (pkt : RtpPacket) :
    H264RtpReassembler × List FrameReady :=
  if pkt.payload = [] then (s, [])
  else if isDuplicate s pkt.seq then (s, [])
  else
    let s := if isLargeGap s pkt.seq then resetFu { s with frame := [] } else s
    let (s, frames) := processRtpNalu s streamName pkt
    ({ s with lastSeq := pkt.seq }, frames)

/-- `H264RtpReassembler::handleRtp` -/
def handleRtp (s : H264RtpReassembler) (call : QString × Bytes) :
    Except OutOfBounds (H264RtpReassembler × List FrameReady) :=
  if call.2 = [] then .ok (s, [])
  else
    match parseRtp call.2 with
    | .error fault => .error fault
    | .ok pkt => .ok (handleParsed s call.1 pkt)

/-- What `handleRtp` does with a packet that it passes on to `processRtpNalu`. -/
def process (s : H264RtpReassembler) (streamName : QString) (pkt : RtpPacket) :
    H264RtpReassembler × List FrameReady :=
  let s := if isLargeGap s pkt.seq then resetFu { s with frame := [] } else s
  let (s, frames) := processRtpNalu s streamName pkt
  ({ s with lastSeq := pkt.seq }, frames)

/-- `handleRtp` passes the packet on, or does nothing. -/
theorem handle_rtp_eq {s : H264RtpReassembler} {call : QString × Bytes} {pkt : RtpPacket}
    (hparse : parseRtp call.2 = .ok pkt) :
    handleRtp s call = .ok (if pkt.payload = [] ∨ isDuplicate s pkt.seq then (s, [])
      else process s call.1 pkt) := by
  simp only [handleRtp, if_neg (ne_nil_of_parse hparse), hparse, handleParsed, process]
  by_cases hpayload : pkt.payload = []
  · simp [hpayload]
  · by_cases hduplicate : isDuplicate s pkt.seq = true <;> simp [hpayload, hduplicate]

/-- A sequence of `handleRtp` calls, with the frames emitted. -/
def feed (s : H264RtpReassembler) (calls : List (QString × Bytes)) :
    Except OutOfBounds (H264RtpReassembler × List FrameReady) :=
  Machine.run handleRtp s calls

end CarDetect.Qt
