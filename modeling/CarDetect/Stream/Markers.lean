import CarDetect.Camera.Packetization
import CarDetect.Camera.Transcript
import CarDetect.Stream.RoundTrip

/-!
# The marker and the encoded picture

`video_stream_thread` sends the NAL units of one encoded picture under one timestamp, and the
receiver emits its pending frame at a packet with the marker bit. The packetizer sets the bit
for each NAL unit on its own: `closes` says for which units, and `one_frame_iff` for which pictures
the last packet is the only one marked and the receiver emits exactly one frame. `Inside` is the
receiver's state between the fragments of the closing unit, with or without room in the buffer.
-/

namespace CarDetect.Stream

open BigEndian Camera Qt OrderedMap

/-! ## Marked last -/

/-- The last mark is set and no earlier one. -/
def OnlyLast (marks : List Bool) : Prop :=
  ∃ earlier, marks = earlier ++ [true] ∧ true ∉ earlier

/-- The mark of a list of one is its last. -/
theorem last_mark {earlier : List Bool} {mark last : Bool} (h : [mark] = earlier ++ [last]) :
    mark = last := by
  have hlast := congrArg List.getLast? h
  rw [List.getLast?_append] at hlast
  exact Option.some.inj hlast

/-- What stands in front of the last mark must be unset. -/
theorem only_last_append {first second : List Bool} (hne : second ≠ []) :
    OnlyLast (first ++ second) ↔ true ∉ first ∧ OnlyLast second := by
  obtain ⟨init, last, rfl⟩ : ∃ init last, second = init ++ [last] :=
    ⟨_, _, (List.dropLast_concat_getLast hne).symm⟩
  constructor
  · rintro ⟨earlier, heq, hearlier⟩
    rw [← List.append_assoc] at heq
    obtain ⟨rfl, hlast⟩ := List.append_inj' heq rfl
    rw [List.mem_append, not_or] at hearlier
    exact ⟨hearlier.1, init, by rw [hlast], hearlier.2⟩
  · rintro ⟨hfirst, earlier, heq, hearlier⟩
    refine ⟨first ++ earlier, by rw [heq, List.append_assoc], ?_⟩
    rw [List.mem_append, not_or]
    exact ⟨hfirst, hearlier⟩

/-! ## The packets of a picture -/

/-- The last packet of this NAL unit has the marker: the unit is sent as fragments, or its type is
not SEI, SPS or PPS. -/
def closes (nalu : Bytes) : Bool :=
  decide (1384 < nalu.length) || !(nalType nalu == 6 || nalType nalu == 7 || nalType nalu == 8)

/-- The packets of the NAL units that `video_stream_thread` sends for one picture. -/
def picturePackets (session : RtspSession) (timestamp : UInt32) (nalus : List Bytes) :
    List Bytes :=
  (sendNalus session (nalus.map (Prod.mk timestamp))).2

theorem marker_fragmentParts {nalHeader : UInt8} {isStart : Bool} {pieces : List Bytes}
    (hne : pieces ≠ []) :
    (fragmentParts nalHeader isStart pieces).map Part.marker =
      List.replicate (pieces.length - 1) false ++ [true] := by
  induction pieces generalizing isStart with
  | nil => exact absurd rfl hne
  | cons data rest ih =>
      cases rest with
      | nil => rfl
      | cons next rest =>
          rw [fragmentParts, List.map_cons, ih (List.cons_ne_nil _ _)]
          rfl

/-- Only the last packet of a NAL unit may have the marker. -/
theorem marker_partsOf {nalu : Bytes} (hne : nalu ≠ []) :
    ∃ n, (partsOf nalu).map Part.marker = List.replicate n false ++ [closes nalu] := by
  cases nalu with
  | nil => exact absurd rfl hne
  | cons nalHeader payload =>
      by_cases hfits : 4 + (nalHeader :: payload).length + RTP_HEADER_SIZE ≤ MTU
      · have hshort : ¬ 1384 < (nalHeader :: payload).length := by
          simp only [RTP_HEADER_SIZE, MTU] at hfits
          omega
        refine ⟨0, ?_⟩
        rw [partsOf, if_pos hfits, closes, decide_eq_false hshort]
        show [singleMarker nalHeader] = [_]
        simp only [singleMarker, nalType, List.headD_cons]
        cases nalHeader &&& 0x1F == 6 <;> cases nalHeader &&& 0x1F == 7 <;>
          cases nalHeader &&& 0x1F == 8 <;> rfl
      · have hlong : 1384 < (nalHeader :: payload).length := by
          simp only [RTP_HEADER_SIZE, MTU] at hfits
          omega
        have hpieces : chunks payload ≠ [] := by
          rw [Ne, chunks_eq_nil_iff, ← List.length_eq_zero_iff]
          rw [List.length_cons] at hlong
          omega
        refine ⟨(chunks payload).length - 1, ?_⟩
        rw [partsOf, if_neg hfits, closes, decide_eq_true hlong, marker_fragmentParts hpieces]
        rfl

theorem marker_wire (seq : UInt16) (ssrc : UInt32) (items : List Item) :
    (wire seq ssrc items).map markerBit = items.map fun item => item.2.marker := by
  induction items generalizing seq with
  | nil => rfl
  | cons item rest ih => simp [wire, ih]

/-- The marks of a picture's packets, unit by unit. -/
theorem marker_picture (session : RtspSession) (timestamp : UInt32) (nalus : List Bytes) :
    (picturePackets session timestamp nalus).map markerBit =
      nalus.flatMap fun nalu => (partsOf nalu).map Part.marker := by
  rw [picturePackets, send_nalus_eq, marker_wire, itemsOf, List.flatMap_map, List.map_flatMap]
  simp only [List.map_map]
  rfl

/-- The last packet is the only one marked exactly when the last NAL unit is the only one that
closes a picture. -/
theorem marked_last_iff (session : RtspSession) (timestamp : UInt32) {nalus : List Bytes}
    (hne : ∀ nalu ∈ nalus, nalu ≠ []) :
    OnlyLast ((picturePackets session timestamp nalus).map markerBit) ↔
      OnlyLast (nalus.map closes) := by
  rw [marker_picture]
  induction nalus with
  | nil => rfl
  | cons nalu rest ih =>
      obtain ⟨hhead, hrest⟩ := List.forall_mem_cons.1 hne
      obtain ⟨n, hmarks⟩ := marker_partsOf hhead
      rw [List.flatMap_cons, hmarks]
      cases rest with
      | nil =>
          rw [List.flatMap_nil, List.append_nil, only_last_append (List.cons_ne_nil _ _)]
          simp [List.mem_replicate]
      | cons next later =>
          have hmore : (next :: later).flatMap (fun nalu => (partsOf nalu).map Part.marker) ≠
              [] := by
            obtain ⟨m, hnext⟩ := marker_partsOf (hrest next List.mem_cons_self)
            simp [hnext]
          have hmap : (nalu :: next :: later).map closes =
              [closes nalu] ++ (next :: later).map closes := rfl
          rw [only_last_append hmore, ih hrest, hmap,
            only_last_append (List.map_eq_nil_iff.not.2 (List.cons_ne_nil _ _))]
          simp [List.mem_replicate]

/-! ## Inside the closing unit -/

variable {s : H264RtpReassembler} (streamName : QString) (timestamp ssrc : UInt32)

/-- The pieces are in the buffer, each under a number of its own. -/
structure Stored (s : H264RtpReassembler) (first : UInt16) (pieces : List Bytes) : Prop where
  opened : FuOpen s first pieces
  size_eq : s.fuBuffer.size = pieces.length
  keys : ∀ key ∈ s.fuBuffer, ∃ i < pieces.length, key = first + UInt16.ofNat i

/-- The receiver has been given these pieces of the fragmented unit that starts at `first`. Up to
1024 pieces are stored, and the next one makes the receiver forget the unit. -/
structure Inside (s : H264RtpReassembler) (first : UInt16) (pieces : List Bytes) : Prop where
  numbered : s.lastSeq + 1 = first + UInt16.ofNat pieces.length
  stored : pieces.length ≤ maxFuBufferSize → Stored s first pieces
  dropped : maxFuBufferSize < pieces.length → s.fuStarted = false

/-- The number of the next fragment is not in the buffer. -/
theorem next_not_mem {first : UInt16} {pieces : List Bytes} (h : Stored s first pieces)
    (hroom : pieces.length ≤ maxFuBufferSize) :
    first + UInt16.ofNat pieces.length ∉ s.fuBuffer := by
  intro hmem
  obtain ⟨i, hlt, heq⟩ := h.keys _ hmem
  have hbound : pieces.length ≤ 1024 := hroom
  have hsame := index_unique (by omega) (by omega) heq
  omega

/-- The fragment after at most 1023 stored pieces is stored as well. -/
theorem stored_next (pkt : RtpPacket) (isLast : Bool) (nalType : UInt8) (data : Bytes)
    {first : UInt16} {pieces : List Bytes} (h : Stored s first pieces)
    (hroom : pieces.length + 1 ≤ maxFuBufferSize)
    (hseq : pkt.seq = first + UInt16.ofNat pieces.length) :
    ∃ after, Stored after first (pieces ++ [data]) ∧ after.frame = s.frame ∧
      processFuNext s streamName pkt isLast nalType data =
        flush (if isLast then finishFu after pkt.seq nalType else after) streamName
          pkt.marker := by
  obtain ⟨after, hopen, hframe, hbuffer, hprocess⟩ :=
    process_next streamName pkt isLast nalType data h.opened hroom hseq
  have hnew : pkt.seq ∉ s.fuBuffer := hseq ▸ next_not_mem h (by omega)
  refine ⟨after, ⟨hopen, ?_, fun key hmem => ?_⟩, hframe, hprocess⟩
  · rw [hbuffer, Std.TreeMap.size_insert, if_neg (by simpa using hnew), h.size_eq,
      List.length_append, List.length_singleton]
  · rw [List.length_append, List.length_singleton]
    rw [hbuffer] at hmem
    rcases Std.TreeMap.mem_insert.1 hmem with hkey | hkey
    · exact ⟨pieces.length, by omega, (Std.compare_eq_iff_eq.1 hkey).symm.trans hseq⟩
    · obtain ⟨i, hlt, rfl⟩ := h.keys key hkey
      exact ⟨i, by omega, rfl⟩

/-- The fragment after 1024 stored pieces makes the receiver forget the unit and return, whatever
the marker is. -/
theorem stored_full (pkt : RtpPacket) (isLast : Bool) (nalType : UInt8) (data : Bytes)
    {first : UInt16} {pieces : List Bytes} (h : Stored s first pieces)
    (hfull : pieces.length = maxFuBufferSize)
    (hseq : pkt.seq = first + UInt16.ofNat pieces.length) :
    ∃ after, after.fuStarted = false ∧ after.frame = s.frame ∧
      processFuNext s streamName pkt isLast nalType data = (after, []) := by
  have hnew : pkt.seq ∉ s.fuBuffer := hseq ▸ next_not_mem h hfull.le
  have hgap : pkt.seq = s.fuExpectedSeq := hseq.trans h.opened.expected_eq.symm
  have hover : (s.fuBuffer.insert pkt.seq ⟨pkt.seq, data⟩).size = maxFuBufferSize + 1 := by
    rw [Std.TreeMap.size_insert, if_neg (by simpa using hnew), h.size_eq, hfull]
  rw [hgap] at hover
  refine ⟨resetFu { s with
    fuBuffer := s.fuBuffer.insert pkt.seq ⟨pkt.seq, data⟩
    fuExpectedSeq := pkt.seq + 1 }, rfl, rfl, ?_⟩
  simp [processFuNext, hgap, hover, maxSeqGap]

section Closing

variable {nalHeader : UInt8} {first : UInt16} {pieces : List Bytes}

/-- A fragment in the middle of the unit. -/
theorem inside_middle (hvalid : ValidHeader nalHeader) (h : Inside s first pieces)
    (data : Bytes) :
    ∃ after, handleRtp s (streamName, packetOf (first + UInt16.ofNat pieces.length) timestamp ssrc
        (.fragment nalHeader false false data)) = .ok (after, []) ∧
      Inside after first (pieces ++ [data]) ∧ after.frame = s.frame := by
  have hstep := handle_next_part streamName timestamp ssrc (.fragment nalHeader false false data)
    (by simp [Part.payload]) (.inr h.numbered.symm)
  have hnumbered : first + UInt16.ofNat pieces.length + 1 =
      first + UInt16.ofNat (pieces ++ [data]).length := by
    rw [add_ofNat_succ, List.length_append, List.length_singleton]
  have hlength : (pieces ++ [data]).length = pieces.length + 1 := by simp
  rw [process_fragment hvalid] at hstep
  simp only [Bool.false_eq_true, if_false] at hstep
  by_cases hroom : pieces.length ≤ maxFuBufferSize
  · have hstored := h.stored hroom
    rw [if_pos hstored.opened.started] at hstep
    by_cases hmore : pieces.length + 1 ≤ maxFuBufferSize
    · obtain ⟨after, hafter, hframe, hprocess⟩ := stored_next streamName
        (parsedPart (first + UInt16.ofNat pieces.length) timestamp ssrc
          (.fragment nalHeader false false data)) false (nalHeader &&& 0x1F) data hstored hmore rfl
      rw [hprocess] at hstep
      simp only [parsedPart, Part.marker, Bool.false_eq_true, if_false, flush_false] at hstep
      obtain ⟨hopen, hsize, hkeys⟩ := hafter
      exact ⟨_, hstep, ⟨hnumbered, fun _ => ⟨⟨hopen.started, hopen.start_eq, hopen.expected_eq,
        hopen.size_le, hopen.entries_eq⟩, hsize, hkeys⟩, fun hlong => by omega⟩, hframe⟩
    · obtain ⟨after, hidle, hframe, hprocess⟩ := stored_full streamName
        (parsedPart (first + UInt16.ofNat pieces.length) timestamp ssrc
          (.fragment nalHeader false false data)) false (nalHeader &&& 0x1F) data hstored
        (by omega) rfl
      rw [hprocess] at hstep
      exact ⟨_, hstep, ⟨hnumbered, fun hshort => by omega, fun _ => hidle⟩, hframe⟩
  · have hidle := h.dropped (by omega)
    simp only [hidle, Bool.false_eq_true, if_false, flush_false] at hstep
    exact ⟨_, hstep, ⟨hnumbered, fun hshort => by omega, fun _ => rfl⟩, rfl⟩

/-- A marked packet that reaches the end of `_processRtpNalu` emits the pending frame. -/
theorem flush_emits_iff :
    (∃ frame, (flush s streamName true).2 = [frame]) ↔ s.frame ≠ [] := by
  cases hframe : s.frame with
  | nil => simp [flush, hframe]
  | cons byte rest => simp [flush, hframe]

/-- Whether the last of `count` fragments numbered from `first` emits a frame: it is not the one
that overflows the buffer, and either something was pending or the unit was kept. -/
def Emits {α : Type} (first : UInt16) (count : Nat) (pending : List α) : Prop :=
  count ≠ maxFuBufferSize + 1 ∧
    (pending ≠ [] ∨ count ≤ maxFuBufferSize ∧ first.toNat + count ≤ 65535)

/-- The last fragment of the unit. -/
theorem inside_last (hvalid : ValidHeader nalHeader) (h : Inside s first pieces)
    (data : Bytes) :
    ∃ after frames, handleRtp s (streamName, packetOf (first + UInt16.ofNat pieces.length)
        timestamp ssrc (.fragment nalHeader false true data)) = .ok (after, frames) ∧
      ((∃ frame, frames = [frame]) ↔ Emits first (pieces.length + 1) s.frame) := by
  have hstep := handle_next_part streamName timestamp ssrc (.fragment nalHeader false true data)
    (by simp [Part.payload]) (.inr h.numbered.symm)
  have hlength : (pieces ++ [data]).length = pieces.length + 1 := by simp
  rw [process_fragment hvalid] at hstep
  simp only [Bool.false_eq_true, if_false] at hstep
  refine ⟨_, _, hstep, ?_⟩
  by_cases hroom : pieces.length ≤ maxFuBufferSize
  · have hstored := h.stored hroom
    rw [if_pos hstored.opened.started]
    by_cases hmore : pieces.length + 1 ≤ maxFuBufferSize
    · obtain ⟨after, hafter, hframe, hprocess⟩ := stored_next streamName
        (parsedPart (first + UInt16.ofNat pieces.length) timestamp ssrc
          (.fragment nalHeader false true data)) true (nalHeader &&& 0x1F) data hstored hmore rfl
      have hnext : first + UInt16.ofNat pieces.length + 1 =
          first + UInt16.ofNat (pieces ++ [data]).length := by
        rw [add_ofNat_succ, hlength]
      obtain ⟨-, hout⟩ := finish_open (first + UInt16.ofNat pieces.length) (nalHeader &&& 0x1F)
        hafter.opened (by simp) (by rw [hlength]; exact hmore) hnext
      rw [hprocess, if_pos rfl]
      refine (flush_emits_iff streamName).trans ?_
      show (finishFu after (first + UInt16.ofNat pieces.length) (nalHeader &&& 0x1F)).frame ≠ [] ↔
        pieces.length + 1 ≠ maxFuBufferSize + 1 ∧ (s.frame ≠ [] ∨
          pieces.length + 1 ≤ maxFuBufferSize ∧ first.toNat + (pieces.length + 1) ≤ 65535)
      rw [hout, hframe, hlength]
      have hfew : pieces.length + 1 ≠ maxFuBufferSize + 1 := by omega
      by_cases hfits : first.toNat + (pieces.length + 1) ≤ 65535
      · rw [if_pos hfits]
        exact iff_of_true (by simp [annexB]) ⟨hfew, .inr ⟨hmore, hfits⟩⟩
      · rw [if_neg hfits, List.append_nil]
        exact ⟨fun hpending => ⟨hfew, .inl hpending⟩,
          fun hemits => hemits.2.resolve_right fun hkept => hfits hkept.2⟩
    · obtain ⟨after, -, -, hprocess⟩ := stored_full streamName
        (parsedPart (first + UInt16.ofNat pieces.length) timestamp ssrc
          (.fragment nalHeader false true data)) true (nalHeader &&& 0x1F) data hstored
        (by omega) rfl
      rw [hprocess]
      exact iff_of_false (by simp) fun hemits => hemits.1 (by omega)
  · have hidle : ¬ s.fuStarted = true := by simp [h.dropped (by omega)]
    have hfew : pieces.length + 1 ≠ maxFuBufferSize + 1 := by omega
    have hmany : ¬ pieces.length + 1 ≤ maxFuBufferSize := by omega
    rw [if_neg hidle]
    exact (flush_emits_iff streamName).trans ⟨fun hpending => ⟨hfew, .inl hpending⟩,
      fun hemits => hemits.2.resolve_right fun hkept => hmany hkept.1⟩

/-- The fragments after the first: only the last may emit. -/
theorem feed_inside (hvalid : ValidHeader nalHeader) {rest : List Bytes} (hrest : rest ≠ [])
    (h : Inside s first pieces) :
    ∃ final frames, feed s (callsFor streamName (packetsFrom (first + UInt16.ofNat pieces.length)
        timestamp ssrc (fragmentParts nalHeader false rest))) = .ok (final, frames) ∧
      ((∃ frame, frames = [frame]) ↔ Emits first (pieces.length + rest.length) s.frame) := by
  induction rest generalizing s pieces with
  | nil => exact absurd rfl hrest
  | cons data tail ih =>
      by_cases htail : tail = []
      · subst htail
        obtain ⟨after, frames, hstep, hiff⟩ :=
          inside_last streamName timestamp ssrc hvalid h data
        refine ⟨after, frames, ?_, hiff⟩
        have hrun := Machine.run_cons_ok hstep (rfl : feed after [] = .ok (after, []))
        rw [List.append_nil] at hrun
        exact hrun
      · obtain ⟨middle, hstep, hmiddle, hframe⟩ :=
          inside_middle streamName timestamp ssrc hvalid h data
        obtain ⟨final, frames, hfeed, hiff⟩ := ih htail hmiddle
        have hmore : tail.isEmpty = false := by simpa using htail
        refine ⟨final, frames, ?_, ?_⟩
        · rw [List.length_append, List.length_singleton, ← add_ofNat_succ] at hfeed
          rw [fragmentParts, packetsFrom, hmore]
          exact Machine.run_cons_ok hstep hfeed
        · have hcount : (pieces ++ [data]).length + tail.length =
              pieces.length + (data :: tail).length := by
            simp only [List.length_append, List.length_cons, List.length_nil]
            omega
          rw [hiff, hframe, hcount]

end Closing

/-! ## Whole units -/

/-- A unit that closes no picture is one packet, whose marker is not set. -/
theorem parts_unclosed {nalu : Bytes} (hne : nalu ≠ []) (h : closes nalu = false) :
    partsOf nalu = [.single nalu] ∧ (Part.single nalu).marker = false := by
  rw [closes, Bool.or_eq_false_iff, decide_eq_false_iff_not] at h
  cases nalu with
  | nil => exact absurd rfl hne
  | cons nalHeader payload =>
      have hfits : 4 + (nalHeader :: payload).length + RTP_HEADER_SIZE ≤ MTU := by
        simp only [RTP_HEADER_SIZE, MTU]
        omega
      have hparts : partsOf (nalHeader :: payload) = [.single (nalHeader :: payload)] := by
        rw [partsOf, if_pos hfits]
      obtain ⟨n, hmarks⟩ := marker_partsOf hne
      rw [hparts] at hmarks
      have hmark := last_mark hmarks
      rw [closes, decide_eq_false h.1, Bool.false_or, h.2] at hmark
      exact ⟨hparts, hmark⟩

/-- Such a unit joins the pending frame. -/
theorem feed_unclosed {nalu : Bytes} (hvalid : ValidNalu nalu) (hcloses : closes nalu = false)
    {seq : UInt16} (hidle : s.fuStarted = false)
    (hseq : s.lastSeq = 0 ∨ seq = s.lastSeq + 1) :
    ∃ after, handleRtp s (streamName, packetOf seq timestamp ssrc (.single nalu)) =
        .ok (after, []) ∧
      after.fuStarted = false ∧ after.lastSeq = seq ∧ after.frame = s.frame ++ annexB nalu := by
  obtain ⟨-, hmarker⟩ := parts_unclosed hvalid.ne_nil hcloses
  have hstep := handle_next_part streamName timestamp ssrc (.single nalu) hvalid.ne_nil hseq
  cases nalu with
  | nil => exact absurd rfl hvalid.ne_nil
  | cons nalHeader payload =>
      rw [process_single (valid_header hvalid)] at hstep
      simp only [processSingle, hidle, parsedPart, hmarker, flush_false, Bool.false_eq_true,
        if_false] at hstep
      exact ⟨_, hstep, by simp [hidle], rfl, by simp [Part.payload]⟩

/-- The unit that closes the picture. -/
theorem feed_closing {nalu : Bytes} (hvalid : ValidNalu nalu) (hcloses : closes nalu = true)
    {seq : UInt16} (hidle : s.fuStarted = false)
    (hseq : s.lastSeq = 0 ∨ seq = s.lastSeq + 1) :
    ∃ final frames, feed s (callsFor streamName (packetsFrom seq timestamp ssrc (partsOf nalu))) =
        .ok (final, frames) ∧
      ((∃ frame, frames = [frame]) ↔
        packetCount nalu = 1 ∨ Emits seq (packetCount nalu) s.frame) := by
  cases nalu with
  | nil => exact absurd rfl hvalid.ne_nil
  | cons nalHeader payload =>
      by_cases hfits : 4 + (nalHeader :: payload).length + RTP_HEADER_SIZE ≤ MTU
      · have hparts : partsOf (nalHeader :: payload) = [.single (nalHeader :: payload)] := by
          rw [partsOf, if_pos hfits]
        have hone : packetCount (nalHeader :: payload) = 1 := by
          rw [← length_partsOf, hparts, List.length_singleton]
        have hmarker : (Part.single (nalHeader :: payload)).marker = true := by
          obtain ⟨n, hmarks⟩ := marker_partsOf hvalid.ne_nil
          rw [hparts, hcloses] at hmarks
          exact last_mark hmarks
        have hstep := handle_next_part streamName timestamp ssrc (.single (nalHeader :: payload))
          hvalid.ne_nil hseq
        rw [process_single (valid_header hvalid)] at hstep
        rw [hparts]
        refine ⟨_, _, Machine.run_cons_ok hstep rfl, ?_⟩
        refine iff_of_true ⟨(streamName, s.frame ++ annexB (nalHeader :: payload)), ?_⟩ (.inl hone)
        simp [processSingle, hidle, parsedPart, Part.payload, hmarker, flush, annexB]
      · obtain ⟨data, rest, hrest, -, hdata, hparts⟩ := partsOf_fragmented hfits
        have hcount : packetCount (nalHeader :: payload) = rest.length + 1 := by
          rw [← length_partsOf, hparts, List.length_cons, length_fragmentParts]
        have hpos : 0 < rest.length := List.length_pos_iff.2 hrest
        obtain ⟨after, hstep, hopen, hframe, hlast⟩ := feed_start streamName timestamp ssrc
          (valid_header hvalid) hdata hseq
        have hbuffer : after.fuBuffer.toList = [(seq, ⟨seq, nalHeader :: data⟩)] :=
          hopen.entries_eq (by rw [List.length_singleton]; have := seq.toNat_lt; omega)
        have hinside : Inside after seq [nalHeader :: data] := by
          refine ⟨by rw [hlast]; rfl, fun _ => ⟨hopen, ?_, fun key hmem => ?_⟩, fun hlong => ?_⟩
          · rw [← Std.TreeMap.length_toList, hbuffer]
            rfl
          · rw [← Std.TreeMap.mem_keys, ← Std.TreeMap.map_fst_toList_eq_keys, hbuffer] at hmem
            exact ⟨0, by simp, by simpa using hmem⟩
          · simp [maxFuBufferSize] at hlong
        obtain ⟨final, frames, hfeed, hiff⟩ := feed_inside streamName timestamp ssrc
          (valid_header hvalid) hrest hinside
        rw [hparts]
        refine ⟨final, frames, Machine.run_cons_ok hstep hfeed, ?_⟩
        rw [hiff, hframe, hcount, List.length_singleton, Nat.add_comm 1]
        exact ⟨.inr, fun h => h.resolve_left (by omega)⟩

/-! ## The picture -/

/-- The receiver has nothing pending, and the next number is the one it expects. -/
structure AtPictureStart (s : H264RtpReassembler) (seq : UInt16) : Prop where
  frame : s.frame = []
  idle : s.fuStarted = false
  numbered : s.lastSeq = 0 ∨ seq = s.lastSeq + 1

theorem picture_cons (session : RtspSession) (nalu : Bytes) (rest : List Bytes) :
    picturePackets session timestamp (nalu :: rest) =
      packetsFrom session.rtpSeq timestamp session.rtpSsrc (partsOf nalu) ++
        picturePackets (session.advance (partsOf nalu).length) timestamp rest := by
  simp only [picturePackets, List.map_cons, sendNalus, rtp_send_h264_eq]

/-- Units that close no picture, and then one that does. -/
theorem feed_picture (session : RtspSession) {earlier : List Bytes} {last : Bytes}
    (hearlier : ∀ nalu ∈ earlier, ValidNalu nalu ∧ closes nalu = false)
    (hvalid : ValidNalu last) (hcloses : closes last = true) (hidle : s.fuStarted = false)
    (hseq : s.lastSeq = 0 ∨ session.rtpSeq = s.lastSeq + 1) :
    ∃ final frames, feed s (callsFor streamName
        (picturePackets session timestamp (earlier ++ [last]))) = .ok (final, frames) ∧
      ((∃ frame, frames = [frame]) ↔ packetCount last = 1 ∨
        Emits (session.rtpSeq + UInt16.ofNat earlier.length) (packetCount last)
          (s.frame ++ (earlier.map annexB).flatten)) := by
  induction earlier generalizing s session with
  | nil =>
      obtain ⟨final, frames, hfeed, hiff⟩ := feed_closing streamName timestamp session.rtpSsrc
        hvalid hcloses hidle hseq
      refine ⟨final, frames, ?_, by simpa using hiff⟩
      rw [List.nil_append, picture_cons]
      simpa [picturePackets, sendNalus] using hfeed
  | cons nalu rest ih =>
      obtain ⟨⟨hhead, hunclosed⟩, hrest⟩ := List.forall_mem_cons.1 hearlier
      obtain ⟨hparts, -⟩ := parts_unclosed hhead.ne_nil hunclosed
      obtain ⟨after, hstep, hafter, hlast, hframe⟩ := feed_unclosed streamName timestamp
        session.rtpSsrc hhead hunclosed hidle hseq
      obtain ⟨final, frames, hfeed, hiff⟩ := ih (session.advance 1) hrest hafter
        (.inr (by rw [hlast]; rfl))
      refine ⟨final, frames, ?_, ?_⟩
      · rw [List.cons_append, picture_cons, hparts]
        exact Machine.run_cons_ok hstep hfeed
      · rw [hiff, hframe, RtspSession.advance_rtpSeq, List.length_cons, UInt16.add_assoc,
          ← UInt16.ofNat_add, Nat.add_comm 1, List.map_cons, List.flatten_cons, List.append_assoc]

/-- The pictures that arrive as one frame when their packets are numbered from `seq`: the last unit
alone closes the picture, and when it is fragmented its last packet emits a frame, for which the
earlier units are pending. -/
def OneFrame (seq : UInt16) (nalus : List Bytes) : Prop :=
  ∃ earlier last, nalus = earlier ++ [last] ∧ (∀ nalu ∈ earlier, closes nalu = false) ∧
    closes last = true ∧ (packetCount last = 1 ∨
      Emits (seq + UInt16.ofNat earlier.length) (packetCount last) earlier)

/-- Among the packets of a picture exactly the last has the marker, and the receiver emits exactly
one frame for the picture, if and only if its NAL units satisfy `OneFrame`. -/
theorem one_frame_iff (session : RtspSession) (streamName : QString) (timestamp : UInt32)
    (nalus : List Bytes) (hvalid : ∀ nalu ∈ nalus, ValidNalu nalu) (s : H264RtpReassembler)
    (hstart : AtPictureStart s session.rtpSeq) :
    (OnlyLast ((picturePackets session timestamp nalus).map markerBit) ∧
      ∃ final frame, feed s (callsFor streamName (picturePackets session timestamp nalus)) =
        .ok (final, [frame])) ↔ OneFrame session.rtpSeq nalus := by
  rw [marked_last_iff session timestamp fun nalu hmem => (hvalid nalu hmem).ne_nil]
  have hpicture (earlier : List Bytes) (last : Bytes) (hnalus : nalus = earlier ++ [last])
      (hearlier : ∀ nalu ∈ earlier, closes nalu = false) (hcloses : closes last = true) :
      (∃ final frame, feed s (callsFor streamName (picturePackets session timestamp nalus)) =
        .ok (final, [frame])) ↔ packetCount last = 1 ∨
          Emits (session.rtpSeq + UInt16.ofNat earlier.length) (packetCount last) earlier := by
    subst hnalus
    obtain ⟨final, frames, hfeed, hiff⟩ := feed_picture streamName timestamp session
      (fun nalu hmem => ⟨hvalid nalu (List.mem_append_left _ hmem), hearlier nalu hmem⟩)
      (hvalid last (List.mem_append_right _ List.mem_cons_self)) hcloses hstart.idle
      hstart.numbered
    have hpending : (earlier.map annexB).flatten ≠ [] ↔ earlier ≠ [] := by
      cases earlier with
      | nil => simp
      | cons nalu rest => simp [annexB]
    rw [hstart.frame, List.nil_append, Emits, hpending] at hiff
    rw [Emits, ← hiff, hfeed]
    constructor
    · rintro ⟨_, frame, heq⟩
      exact ⟨frame, (Prod.mk.inj (Except.ok.inj heq)).2⟩
    · rintro ⟨frame, rfl⟩
      exact ⟨final, frame, rfl⟩
  constructor
  · rintro ⟨⟨marks, hmarks, hunset⟩, hframe⟩
    obtain ⟨earlier, rest, rfl, rfl, hlast⟩ := List.map_eq_append_iff.1 hmarks
    obtain ⟨last, rfl, hcloses⟩ := List.map_eq_singleton_iff.1 hlast
    have hearlier : ∀ nalu ∈ earlier, closes nalu = false := fun nalu hmem =>
      Bool.eq_false_iff.2 fun h => hunset (h ▸ List.mem_map_of_mem hmem)
    exact ⟨earlier, last, rfl, hearlier, hcloses,
      (hpicture earlier last rfl hearlier hcloses).1 hframe⟩
  · rintro ⟨earlier, last, rfl, hearlier, hcloses, hemits⟩
    refine ⟨⟨earlier.map closes, by simp [hcloses], fun hmem => ?_⟩,
      (hpicture earlier last rfl hearlier hcloses).2 hemits⟩
    obtain ⟨nalu, hnalu, hset⟩ := List.mem_map.1 hmem
    rw [hearlier nalu hnalu] at hset
    cases hset

/-- A parameter set and one slice are one frame. -/
theorem one_frame_parameter_set :
    OnlyLast ((picturePackets ⟨65535, 0, "tcp", 0⟩ 0 [[0x67, 0x42], [0x65, 0x88]]).map markerBit) ∧
      ∃ final frame, feed fresh (callsFor "cam"
        (picturePackets ⟨65535, 0, "tcp", 0⟩ 0 [[0x67, 0x42], [0x65, 0x88]])) =
          .ok (final, [frame]) :=
  (one_frame_iff ⟨65535, 0, "tcp", 0⟩ "cam" 0 [[0x67, 0x42], [0x65, 0x88]] (by decide) fresh
    ⟨rfl, rfl, .inl rfl⟩).2 ⟨[[0x67, 0x42]], [0x65, 0x88], rfl, by decide, rfl, .inl rfl⟩

/-- Two small slices of one picture both have the marker, and the receiver emits two frames. -/
theorem two_slices_two_frames :
    ¬ OnlyLast ((picturePackets ⟨1, 0, "tcp", 0⟩ 0 [[0x65, 0x88], [0x41, 0x9A]]).map markerBit) ∧
      ∃ final, feed fresh (callsFor "cam"
        (picturePackets ⟨1, 0, "tcp", 0⟩ 0 [[0x65, 0x88], [0x41, 0x9A]])) =
          .ok (final, [("cam", annexB [0x65, 0x88]), ("cam", annexB [0x41, 0x9A])]) := by
  constructor
  · rw [marked_last_iff _ _ (by decide)]
    intro honly
    obtain ⟨earlier, heq, hunset⟩ := honly
    have hfirst : earlier = [true] := (List.append_left_inj [true]).1 heq.symm
    exact hunset (hfirst ▸ List.mem_singleton_self true)
  · exact ⟨_, rfl⟩

end CarDetect.Stream
