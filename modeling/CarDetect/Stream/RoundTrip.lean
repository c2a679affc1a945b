import CarDetect.Qt.Completeness
import CarDetect.Stream.Delivery

/-!
# In-order delivery from the camera to the reassembler

The packets of a NAL unit, delivered once and in order, add the unit to the output unless its
fragments reach sequence number 65535. `FuOpen` is the state inside a fragmented unit,
`process_next` and `finish_open` are its steps, `feed_nalu` is one whole unit, and `feed_nalus`
a list of them. `round_trip_iff` is the resulting end-to-end statement for a fresh reassembler.
-/

namespace CarDetect.Stream

open BigEndian Camera Qt OrderedMap

/-- The bytes of the emitted frames. -/
def emitted (frames : List FrameReady) : Bytes :=
  (frames.map Prod.snd).flatten

@[simp] theorem emitted_nil : emitted [] = [] := rfl

@[simp] theorem emitted_append (first second : List FrameReady) :
    emitted (first ++ second) = emitted first ++ emitted second := by
  simp [emitted]

variable {s : H264RtpReassembler} (streamName : QString) (timestamp ssrc : UInt32)

/-- Emitting moves bytes from the pending frame to the output. -/
theorem flush_output (s : H264RtpReassembler) (streamName : QString) (marker : Bool) :
    emitted (flush s streamName marker).2 ++ (flush s streamName marker).1.frame = s.frame := by
  unfold flush
  split <;> simp [emitted]

/-! ## Inside a fragmented unit -/

/-- The buffer entries of pieces numbered from `first`. -/
def fuEntries (first : UInt16) : List Bytes → List (UInt16 × RtpUnit)
  | [] => []
  | data :: rest => (first, ⟨first, data⟩) :: fuEntries (first + 1) rest

theorem fuEntries_append (first : UInt16) (pieces : List Bytes) (data : Bytes) :
    fuEntries first (pieces ++ [data]) = fuEntries first pieces ++
      [(first + UInt16.ofNat pieces.length, ⟨first + UInt16.ofNat pieces.length, data⟩)] := by
  induction pieces generalizing first with
  | nil => simp [fuEntries]
  | cons piece rest ih => simp [fuEntries, ih, succ_add_ofNat]

theorem fuEntries_keys (first : UInt16) (pieces : List Bytes) :
    (fuEntries first pieces).map Prod.fst = seqRun first pieces.length := by
  induction pieces generalizing first with
  | nil => rfl
  | cons piece rest ih => simp [fuEntries, seqRun, ih]

theorem fuEntries_data (first : UInt16) (pieces : List Bytes) :
    ((fuEntries first pieces).map fun entry => entry.2.data) = pieces := by
  induction pieces generalizing first with
  | nil => rfl
  | cons piece rest ih => simp [fuEntries, ih]

/-- Keys of a run that ends below 2^16 lie before its end. -/
theorem fuEntries_lt {first : UInt16} {pieces : List Bytes}
    (hfits : first.toNat + pieces.length ≤ 65536) {entry : UInt16 × RtpUnit}
    (hentry : entry ∈ fuEntries first pieces) :
    entry.1.toNat < first.toNat + pieces.length := by
  induction pieces generalizing first with
  | nil => cases hentry
  | cons piece rest ih =>
      simp only [List.length_cons] at hfits ⊢
      rcases List.mem_cons.1 hentry with rfl | hentry
      · simp
      · cases rest with
        | nil => cases hentry
        | cons next rest =>
            simp only [List.length_cons] at hfits ih ⊢
            have hsucc : (first + 1).toNat = first.toNat + 1 := toNat_succ (by omega)
            have hlt := ih (by omega) hentry
            omega

/-- The reassembler has collected these pieces of the unit that starts at `first`. The buffer's
entries are known only while the numbers have not wrapped. -/
structure FuOpen (s : H264RtpReassembler) (first : UInt16) (pieces : List Bytes) : Prop where
  started : s.fuStarted = true
  start_eq : s.fuStartSeq = first
  expected_eq : s.fuExpectedSeq = first + UInt16.ofNat pieces.length
  size_le : s.fuBuffer.size ≤ pieces.length
  entries_eq : first.toNat + pieces.length ≤ 65536 → s.fuBuffer.toList = fuEntries first pieces

/-- The next fragment is inserted, and finishes the unit when it has the end bit. -/
theorem process_next (pkt : RtpPacket) (isLast : Bool) (nalType : UInt8) (data : Bytes)
    {first : UInt16} {pieces : List Bytes} (hopen : FuOpen s first pieces)
    (hroom : pieces.length + 1 ≤ maxFuBufferSize)
    (hseq : pkt.seq = first + UInt16.ofNat pieces.length) :
    ∃ after, FuOpen after first (pieces ++ [data]) ∧ after.frame = s.frame ∧
      after.fuBuffer = s.fuBuffer.insert pkt.seq ⟨pkt.seq, data⟩ ∧
      processFuNext s streamName pkt isLast nalType data =
        flush (if isLast then finishFu after pkt.seq nalType else after) streamName
          pkt.marker := by
  obtain ⟨hstarted, hstart, hexpected, hsize, hentries⟩ := hopen
  have hgap : pkt.seq = s.fuExpectedSeq := hseq.trans hexpected.symm
  have hsizeInsert : (s.fuBuffer.insert pkt.seq ⟨pkt.seq, data⟩).size ≤ pieces.length + 1 :=
    le_trans Std.TreeMap.size_insert_le (by omega)
  refine ⟨{ s with
    fuBuffer := s.fuBuffer.insert pkt.seq ⟨pkt.seq, data⟩
    fuExpectedSeq := pkt.seq + 1 }, ⟨hstarted, hstart, ?_, ?_, ?_⟩, rfl, rfl, ?_⟩
  · simp [hseq, add_ofNat_succ]
  · simpa using hsizeInsert
  · intro hfits
    simp only [List.length_append, List.length_singleton] at hfits
    rw [fuEntries_append, ← hentries (by omega), ← hseq]
    refine toList_insert_of_lt fun entry hentry => ?_
    rw [hentries (by omega)] at hentry
    have hlt := fuEntries_lt (by omega) hentry
    rw [Std.compare_eq_lt, UInt16.lt_iff_toNat_lt, hseq, toNat_add_ofNat (by omega)]
    exact hlt
  · have hzero : ((pkt.seq.toNat : Int) - s.fuExpectedSeq.toNat) = 0 := by
      rw [hgap]
      omega
    have hfull : ¬ maxFuBufferSize < (s.fuBuffer.insert pkt.seq ⟨pkt.seq, data⟩).size := by
      omega
    rw [hgap] at hfull
    simp [processFuNext, hgap, hfull, maxSeqGap]

/-- Finishing a unit appends it to the frame exactly when its numbers end below 65535. -/
theorem finish_open (currentSeq : UInt16) (nalType : UInt8) {first : UInt16}
    {pieces : List Bytes} (hopen : FuOpen s first pieces) (hne : pieces ≠ [])
    (hroom : pieces.length ≤ maxFuBufferSize)
    (hseq : currentSeq + 1 = first + UInt16.ofNat pieces.length) :
    (finishFu s currentSeq nalType).fuStarted = false ∧
      (finishFu s currentSeq nalType).frame = s.frame ++
        if first.toNat + pieces.length ≤ 65535 then annexB pieces.flatten else [] := by
  refine ⟨by simp [finishFu, resetFu], ?_⟩
  obtain ⟨hstarted, hstart, -, hsize, hentries⟩ := hopen
  have hpos : 0 < pieces.length := List.length_pos_iff.2 hne
  have hroom' : pieces.length ≤ 1024 := hroom
  have hfirst := first.toNat_lt
  have hcurrent := currentSeq.toNat_lt
  have hseq' := congrArg UInt16.toNat hseq
  simp only [UInt16.toNat_add, UInt16.toNat_one, UInt16.toNat_ofNat'] at hseq'
  by_cases hfits : first.toNat + pieces.length ≤ 65535
  · have hlist := hentries (by omega)
    have hlength : s.fuBuffer.size = pieces.length := by
      rw [← Std.TreeMap.length_toList, hlist, ← List.length_map (f := Prod.fst), fuEntries_keys,
        length_seqRun]
    have hcomplete : isFuComplete s currentSeq = true := by
      rw [is_fu_complete_iff, hstart, hlength, ← Std.TreeMap.map_fst_toList_eq_keys, hlist,
        fuEntries_keys]
      exact ⟨rfl, hfits, by omega⟩
    simp [finishFu, resetFu, hcomplete, hfits, hlist, fuEntries_data]
  · have hincomplete : isFuComplete s currentSeq = false := by
      rw [Bool.eq_false_iff]
      intro hcomplete
      obtain ⟨-, hend, hlast⟩ := is_fu_complete_iff.1 hcomplete
      rw [hstart] at hend hlast
      omega
    simp [finishFu, resetFu, hincomplete, hfits]

/-- The fragments after the first piece add the whole unit, or nothing when it wraps. -/
theorem feed_rest {nalHeader : UInt8} (hvalid : ValidHeader nalHeader) {first : UInt16}
    {rest : List Bytes} (hrest : rest ≠ []) {s : H264RtpReassembler} {pieces : List Bytes}
    {seq : UInt16} (hopen : FuOpen s first pieces)
    (hroom : pieces.length + rest.length ≤ maxFuBufferSize)
    (hseq : seq = first + UInt16.ofNat pieces.length) (hlast : s.lastSeq + 1 = seq) :
    ∃ final frames,
      feed s (callsFor streamName
        (packetsFrom seq timestamp ssrc (fragmentParts nalHeader false rest))) =
          .ok (final, frames) ∧
      final.fuStarted = false ∧ final.lastSeq + 1 = seq + UInt16.ofNat rest.length ∧
      emitted frames ++ final.frame = s.frame ++
        if first.toNat + (pieces.length + rest.length) ≤ 65535 then
          annexB (pieces.flatten ++ rest.flatten) else [] := by
  induction rest generalizing s pieces seq with
  | nil => exact absurd rfl hrest
  | cons data tail ih =>
      simp only [List.length_cons] at hroom
      have hpayload : (Part.fragment nalHeader false tail.isEmpty data).payload ≠ [] := by
        simp [Part.payload]
      -- the fragment is stored; only the last one ends the unit
      obtain ⟨after, hafter, hframe, -, hprocess⟩ := process_next streamName
        (parsedPart seq timestamp ssrc (.fragment nalHeader false tail.isEmpty data))
        tail.isEmpty (nalHeader &&& 0x1F) data hopen
        (by omega) hseq
      have hstep := handle_next_part streamName timestamp ssrc _ hpayload (.inr hlast.symm)
      simp only [process_fragment hvalid, hopen.started, if_true, Bool.false_eq_true, if_false,
        hprocess] at hstep
      by_cases htail : tail = []
      · subst htail
        obtain ⟨hidle, hout⟩ := finish_open seq (nalHeader &&& 0x1F)
          hafter (by simp) (by simpa using hroom)
          (by rw [hseq, add_ofNat_succ, List.length_append, List.length_singleton])
        simp only [List.isEmpty_nil, if_true] at hstep
        refine ⟨_, _, Machine.run_cons_ok hstep rfl, ?_, rfl, ?_⟩
        · simpa [parsedPart] using hidle
        · rw [List.append_nil, ← hframe]
          refine (flush_output _ _ _).trans ?_
          simpa [parsedPart] using hout
      · obtain ⟨final, frames, hfeed, hidle, hfinal, hout⟩ := ih htail
          (s := { after with lastSeq := seq })
          ⟨hafter.started, hafter.start_eq, hafter.expected_eq, hafter.size_le,
            hafter.entries_eq⟩ (by simp; omega)
          (by rw [hseq, add_ofNat_succ, List.length_append, List.length_singleton]) rfl
        have hmiddle : tail.isEmpty = false := by simpa using htail
        simp only [hmiddle, Bool.false_eq_true, if_false, parsedPart, Part.marker, flush_false]
          at hstep
        refine ⟨final, frames, ?_, hidle, ?_, ?_⟩
        · simpa [feed, fragmentParts, packetsFrom, hmiddle] using Machine.run_cons_ok hstep hfeed
        · rw [hfinal, List.length_cons, succ_add_ofNat]
        · simp only [List.length_append, List.length_singleton, List.flatten_append,
            List.flatten_singleton] at hout
          rw [hout, hframe, List.length_cons, List.flatten_cons, List.append_assoc,
            show pieces.length + 1 + tail.length = pieces.length + (tail.length + 1) by omega]

/-! ## Whole units -/

/-- No packet of the unit is a fragment that reaches number 65535: the unit is sent in one
packet, or its numbers end below 65535. -/
def ClearOfWrap (seq : UInt16) (nalu : Bytes) : Prop :=
  packetCount nalu ≤ 1 ∨ seq.toNat + packetCount nalu ≤ 65535

instance (seq : UInt16) (nalu : Bytes) : Decidable (ClearOfWrap seq nalu) :=
  inferInstanceAs (Decidable (_ ∨ _))

/-- What a unit sent from number `seq` adds to the receiver's output. -/
def delivered (seq : UInt16) (nalu : Bytes) : Bytes :=
  if ClearOfWrap seq nalu then annexB nalu else []

theorem valid_header {nalHeader : UInt8} {payload : Bytes}
    (h : ValidNalu (nalHeader :: payload)) : ValidHeader nalHeader := h

/-- A single packet adds its unit. -/
theorem feed_single (payload : Bytes) {nalHeader : UInt8} {seq : UInt16}
    (hvalid : ValidHeader nalHeader) (hidle : s.fuStarted = false)
    (hseq : s.lastSeq = 0 ∨ seq = s.lastSeq + 1) :
    ∃ final frames,
      feed s (callsFor streamName
        (packetsFrom seq timestamp ssrc [.single (nalHeader :: payload)])) =
          .ok (final, frames) ∧
      final.fuStarted = false ∧ final.lastSeq = seq ∧
      emitted frames ++ final.frame = s.frame ++ annexB (nalHeader :: payload) := by
  have hstep := handle_next_part (s := s) streamName timestamp ssrc
    (.single (nalHeader :: payload)) (by simp [Part.payload]) hseq
  rw [process_single hvalid] at hstep
  refine ⟨_, _, Machine.run_cons_ok hstep rfl, ?_, rfl, ?_⟩
  · simp [processSingle, hidle]
  · simp only [processSingle, hidle, Bool.false_eq_true, if_false, List.append_nil,
      emitted_append, List.append_assoc, flush_output]
    simp [parsedPart, Part.payload]

/-- A start fragment opens the unit. -/
theorem feed_start {nalHeader : UInt8} {data : Bytes} {seq : UInt16}
    (hvalid : ValidHeader nalHeader) (hdata : data ≠ [])
    (hseq : s.lastSeq = 0 ∨ seq = s.lastSeq + 1) :
    ∃ after, handleRtp s (streamName,
        packetOf seq timestamp ssrc (.fragment nalHeader true false data)) = .ok (after, []) ∧
      FuOpen after seq [nalHeader :: data] ∧ after.frame = s.frame ∧ after.lastSeq = seq := by
  have hstep := handle_next_part (s := s) streamName timestamp ssrc
    (.fragment nalHeader true false data) (by simp [Part.payload]) hseq
  have hsize : ((∅ : QMap UInt16 RtpUnit).insert seq ⟨seq, nalHeader :: data⟩).size = 1 := by
    simp [Std.TreeMap.size_insert]
  rw [process_fragment hvalid] at hstep
  simp only [if_true, processFuStart, hdata, if_false, parsedPart, Part.marker, flush_false,
    hsize, maxFuBufferSize, gt_iff_lt, Nat.reduceLT] at hstep
  refine ⟨_, hstep, ⟨rfl, rfl, rfl, by simp [hsize], fun _ => ?_⟩, rfl, rfl⟩
  rw [toList_insert_of_lt (by simp)]
  rfl

/-- One unit, delivered in order to a reassembler that is not inside another unit. -/
theorem feed_nalu {nalu : Bytes} (hvalid : ValidNalu nalu)
    (hsize : packetCount nalu ≤ maxFuBufferSize) {s : H264RtpReassembler} {seq : UInt16}
    (hidle : s.fuStarted = false) (hseq : s.lastSeq = 0 ∨ seq = s.lastSeq + 1) :
    ∃ final frames,
      feed s (callsFor streamName (packetsFrom seq timestamp ssrc (partsOf nalu))) =
          .ok (final, frames) ∧
      final.fuStarted = false ∧ final.lastSeq + 1 = seq + UInt16.ofNat (packetCount nalu) ∧
      emitted frames ++ final.frame = s.frame ++ delivered seq nalu := by
  cases nalu with
  | nil => exact absurd rfl hvalid.ne_nil
  | cons nalHeader payload =>
      -- one packet, or a start fragment and the rest
      by_cases hfits : 4 + (nalHeader :: payload).length + RTP_HEADER_SIZE ≤ MTU
      · have hone : packetCount (nalHeader :: payload) = 1 := by
          rw [packetCount, if_neg (List.cons_ne_nil _ _), if_pos hfits]
        have hparts : partsOf (nalHeader :: payload) = [.single (nalHeader :: payload)] := by
          rw [partsOf, if_pos hfits]
        obtain ⟨final, frames, hfeed, hfinal, hlast, hout⟩ := feed_single streamName timestamp
          ssrc payload (valid_header hvalid) hidle hseq
        have hclear : ClearOfWrap seq (nalHeader :: payload) := .inl hone.le
        refine ⟨final, frames, hparts ▸ hfeed, hfinal, ?_, ?_⟩
        · rw [hlast, hone]
          rfl
        · rw [hout, delivered, if_pos hclear]
      · obtain ⟨data, rest, hrest, hpayload, hdata, hparts⟩ := partsOf_fragmented hfits
        have hcount : packetCount (nalHeader :: payload) = rest.length + 1 := by
          rw [← length_partsOf, hparts, List.length_cons, length_fragmentParts]
        have hpos : 0 < rest.length := List.length_pos_iff.2 hrest
        obtain ⟨after, hstep, hopen, hframe, hlast⟩ := feed_start streamName timestamp ssrc
          (valid_header hvalid) hdata hseq
        obtain ⟨final, frames, hfeed, hfinal, hnext, hout⟩ := feed_rest streamName timestamp ssrc
          (valid_header hvalid) hrest hopen
          (by rw [List.length_singleton]; omega)
          (show seq + 1 = seq + UInt16.ofNat [nalHeader :: data].length from rfl) (by rw [hlast])
        refine ⟨final, frames, ?_, hfinal, ?_, ?_⟩
        · rw [hparts]
          exact Machine.run_cons_ok hstep hfeed
        · rw [hnext, hcount, succ_add_ofNat]
        · have hclear : ClearOfWrap seq (nalHeader :: payload) ↔
              seq.toNat + (1 + rest.length) ≤ 65535 := by
            rw [ClearOfWrap, hcount]
            omega
          have hjoin : [nalHeader :: data].flatten ++ rest.flatten = nalHeader :: payload := by
            simp [hpayload]
          rw [hframe, hjoin] at hout
          simpa only [delivered, hclear, List.nil_append, List.length_singleton] using hout

/-! ## Lists of units -/

/-- The units of a list, each paired with the number of its first packet. -/
def numbered (seq : UInt16) : List (UInt32 × Bytes) → List (UInt16 × Bytes)
  | [] => []
  | (_, nalu) :: rest => (seq, nalu) :: numbered (seq + UInt16.ofNat (packetCount nalu)) rest

/-- The Annex B stream of a list of units. -/
def annexBStream (nalus : List (UInt32 × Bytes)) : Bytes :=
  (nalus.map fun nalu => annexB nalu.2).flatten

/-- What the receiver's output gains from a list of units. -/
def deliveredStream (seq : UInt16) (nalus : List (UInt32 × Bytes)) : Bytes :=
  ((numbered seq nalus).map fun nalu => delivered nalu.1 nalu.2).flatten

/-- Every unit of the list is a valid one of at most 1024 fragments. -/
def Sendable (nalus : List (UInt32 × Bytes)) : Prop :=
  ∀ nalu ∈ nalus, ValidNalu nalu.2 ∧ nalu.2.length ≤ 1 + maxFuBufferSize * FU_PAYLOAD_MAX

instance (nalus : List (UInt32 × Bytes)) : Decidable (Sendable nalus) :=
  inferInstanceAs (Decidable (∀ nalu ∈ nalus, _))

theorem packetCount_le {nalu : Bytes} (h : nalu.length ≤ 1 + maxFuBufferSize * FU_PAYLOAD_MAX) :
    packetCount nalu ≤ maxFuBufferSize := by
  unfold packetCount
  split_ifs
  · exact Nat.zero_le _
  · decide
  · simp only [maxFuBufferSize, FU_PAYLOAD_MAX, MTU, pieceCount] at h ⊢
    omega

/-- `feed_nalu` along a list: the output gains what each unit delivers at its number. -/
theorem feed_nalus {nalus : List (UInt32 × Bytes)} (hsend : Sendable nalus)
    (session : RtspSession) {s : H264RtpReassembler} (hidle : s.fuStarted = false)
    (hseq : s.lastSeq = 0 ∨ session.rtpSeq = s.lastSeq + 1) :
    ∃ final frames,
      feed s (callsFor streamName (sendNalus session nalus).2) = .ok (final, frames) ∧
      emitted frames ++ final.frame = s.frame ++ deliveredStream session.rtpSeq nalus := by
  induction nalus generalizing session s with
  | nil => exact ⟨s, [], rfl, by simp [deliveredStream, numbered]⟩
  | cons head rest ih =>
      obtain ⟨timestamp, nalu⟩ := head
      obtain ⟨⟨hvalid, hsize⟩, hrest⟩ := List.forall_mem_cons.1 hsend
      obtain ⟨middle, first, hfirst, hmiddle, hlast, hout⟩ := feed_nalu streamName timestamp
        session.rtpSsrc hvalid (packetCount_le hsize) hidle hseq
      obtain ⟨final, later, hlater, houtLater⟩ := ih hrest
        (session.advance (packetCount nalu)) hmiddle (.inr hlast.symm)
      refine ⟨final, first ++ later, ?_, ?_⟩
      · simp only [sendNalus, rtp_send_h264_eq, length_partsOf, callsFor_append]
        exact Machine.run_append_ok hfirst hlater
      · rw [emitted_append, List.append_assoc, houtLater, ← List.append_assoc, hout,
          List.append_assoc]
        rfl

/-- A unit delivers at most its bytes, and all of them exactly when it is clear of the wrap. -/
theorem length_delivered_le (seq : UInt16) (nalu : Bytes) :
    (delivered seq nalu).length ≤ (annexB nalu).length := by
  unfold delivered
  split <;> simp

theorem length_delivered_eq_iff {seq : UInt16} {nalu : Bytes} :
    (delivered seq nalu).length = (annexB nalu).length ↔ ClearOfWrap seq nalu := by
  unfold delivered
  split <;> simp_all [annexB]

theorem length_deliveredStream_le (seq : UInt16) (nalus : List (UInt32 × Bytes)) :
    (deliveredStream seq nalus).length ≤ (annexBStream nalus).length := by
  induction nalus generalizing seq with
  | nil => simp [deliveredStream, numbered]
  | cons head rest ih =>
      have hhead := length_delivered_le seq head.2
      have hrest := ih (seq + UInt16.ofNat (packetCount head.2))
      simp only [deliveredStream, annexBStream, numbered, List.map_cons, List.flatten_cons,
        List.length_append] at hrest ⊢
      omega

/-- A list of units arrives whole exactly when every unit is clear of the wrap: nothing is
gained elsewhere to make up for a lost unit. -/
theorem deliveredStream_eq_iff (seq : UInt16) (nalus : List (UInt32 × Bytes)) :
    deliveredStream seq nalus = annexBStream nalus ↔
      ∀ nalu ∈ numbered seq nalus, ClearOfWrap nalu.1 nalu.2 := by
  induction nalus generalizing seq with
  | nil => simp [deliveredStream, annexBStream, numbered]
  | cons head rest ih =>
      have hrest := length_deliveredStream_le (seq + UInt16.ofNat (packetCount head.2)) rest
      have hhead := length_delivered_le seq head.2
      rw [numbered, List.forall_mem_cons, ← ih]
      simp only [deliveredStream, annexBStream, numbered, List.map_cons,
        List.flatten_cons] at hrest ⊢
      constructor
      · intro heq
        have hlengths := congrArg List.length heq
        simp only [List.length_append] at hlengths
        have hsame : (delivered seq head.2).length = (annexB head.2).length := by omega
        exact ⟨length_delivered_eq_iff.1 hsame, (List.append_inj heq hsame).2⟩
      · rintro ⟨hclear, heq⟩
        rw [heq, delivered, if_pos hclear]

/-! ## The round trip -/

/-- Deliver every packet of these units once and in order to a fresh reassembler: no read is out
of bounds, and the emitted frames with the pending one are the units' Annex B stream. -/
def RoundTrips (session : RtspSession) (streamName : QString) (nalus : List (UInt32 × Bytes)) :
    Prop :=
  ∃ final frames,
    feed fresh (callsFor streamName (sendNalus session nalus).2) = .ok (final, frames) ∧
    emitted frames ++ final.frame = annexBStream nalus

/-- The output of a fresh reassembler is what the units deliver, and nothing else. -/
theorem round_trips_iff_delivered (session : RtspSession) (streamName : QString)
    {nalus : List (UInt32 × Bytes)} (hsend : Sendable nalus) :
    RoundTrips session streamName nalus ↔
      deliveredStream session.rtpSeq nalus = annexBStream nalus := by
  obtain ⟨final, frames, hfeed, hout⟩ := feed_nalus streamName hsend session
    (s := fresh) rfl (.inl rfl)
  have hout' : emitted frames ++ final.frame = deliveredStream session.rtpSeq nalus := hout
  constructor
  · rintro ⟨final', frames', hfeed', heq⟩
    rw [hfeed] at hfeed'
    cases hfeed'
    rw [← hout', heq]
  · intro heq
    exact ⟨final, frames, hfeed, hout'.trans heq⟩

/-- The units make the round trip exactly when every unit sent as fragments keeps its sequence
numbers below 65535. -/
theorem round_trip_iff (session : RtspSession) (streamName : QString)
    (nalus : List (UInt32 × Bytes)) (hsend : Sendable nalus) :
    RoundTrips session streamName nalus ↔
      ∀ nalu ∈ numbered session.rtpSeq nalus, ClearOfWrap nalu.1 nalu.2 := by
  rw [round_trips_iff_delivered session streamName hsend, deliveredStream_eq_iff]

/-- Single packets cross the wrap unharmed. -/
theorem round_trip_single_packets :
    RoundTrips ⟨65535, 0, "udp", 0⟩ "cam" [(0, [0x67, 0x42]), (0, [0x65, 0x88])] :=
  (round_trip_iff _ _ _ (by decide)).2 (by decide)

/-- A unit of two fragments numbered 65535 and 0 is lost. -/
theorem round_trip_lost_at_wrap :
    Sendable [(0, 0x65 :: List.replicate 1384 0)] ∧
      ¬ RoundTrips ⟨65535, 0, "udp", 0⟩ "cam" [(0, 0x65 :: List.replicate 1384 0)] := by
  have hsend : Sendable [(0, 0x65 :: List.replicate 1384 0)] := by
    refine List.forall_mem_singleton.2 ⟨by decide, ?_⟩
    simp only [List.length_cons, List.length_replicate]
    decide
  refine ⟨hsend, fun h => ?_⟩
  rw [round_trips_iff_delivered _ _ hsend, deliveredStream_eq_iff] at h
  have hclear : ClearOfWrap 65535 (0x65 :: List.replicate 1384 0) := h (65535, _) List.mem_cons_self
  have hcount : packetCount (0x65 :: List.replicate 1384 0) = 2 := by
    rw [packetCount, if_neg (List.cons_ne_nil _ _), List.length_cons, List.length_replicate]
    decide
  rw [ClearOfWrap, hcount] at hclear
  exact absurd hclear (by decide)

end CarDetect.Stream
