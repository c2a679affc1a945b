import CarDetect.Camera.Transcript
import CarDetect.Qt.Completeness
import CarDetect.Stream.Delivery

/-!
# No fabricated NAL units

Packets of the camera may be lost, repeated and reordered on their way to the reassembler.
`Faithful` is the invariant of the receiving side: the pending frame is made of units sent, and
the fragment buffer holds received fragments under their own numbers, a start fragment at
`fuStartSeq` and continuations elsewhere. With fewer than 2^16 packets a number determines its
packet, so a buffer that passes the completeness test is one unit (`collected_pieces`).
`never_fabricates` is the statement about every sequence of deliveries.
-/

namespace CarDetect.Stream

open BigEndian Camera Qt OrderedMap

/-- The sending side of a run: the session at its start, the NAL units, and the packets that are
delivered at some point. -/
structure Delivery where
  session : RtspSession
  nalus : List (UInt32 × Bytes)
  received : List Bytes
  valid : ∀ nalu ∈ nalus, ValidNalu nalu.2
  short : (itemsOf nalus).length < 65536
  drawn : ∀ packet ∈ received, packet ∈ (sendNalus session nalus).2

variable {run : Delivery}

/-- The part was sent as item `i`, and its packet is received. -/
structure Delivery.Got (run : Delivery) (i : Nat) (timestamp : UInt32) (part : Part) : Prop where
  item : (itemsOf run.nalus)[i]? = some (timestamp, part)
  packet : packetOf (run.session.rtpSeq + UInt16.ofNat i) timestamp run.session.rtpSsrc part ∈
    run.received

/-- The part was received under this sequence number. -/
def Delivery.GotSeq (run : Delivery) (seq : UInt16) (part : Part) : Prop :=
  ∃ i timestamp, seq = run.session.rtpSeq + UInt16.ofNat i ∧ run.Got i timestamp part

/-- The part was received under this sequence number and this timestamp. -/
def Delivery.GotUnder (run : Delivery) (seq : UInt16) (timestamp : UInt32) (part : Part) : Prop :=
  ∃ i, seq = run.session.rtpSeq + UInt16.ofNat i ∧ run.Got i timestamp part

theorem Delivery.GotUnder.got_seq {seq : UInt16} {timestamp : UInt32} {part : Part}
    (h : run.GotUnder seq timestamp part) : run.GotSeq seq part := by
  obtain ⟨i, hseq, hgot⟩ := h
  exact ⟨i, timestamp, hseq, hgot⟩

/-- The bytes are the Annex B form of units sent, every packet of which is received. -/
def Delivery.Genuine (run : Delivery) (bytes : Bytes) : Prop :=
  ∃ units : List (Bytes × List Bytes),
    (∀ unit ∈ units, unit ∈ sentUnits run.session run.nalus ∧
      ∀ packet ∈ unit.2, packet ∈ run.received) ∧
    bytes = (units.map fun unit => annexB unit.1).flatten

/-- The buffer holds received fragments: a start fragment at `fuStartSeq`, with its NAL header
rebuilt, and continuations elsewhere. -/
structure Delivery.FuFaithful (run : Delivery) (s : H264RtpReassembler) : Prop where
  start : ∃ nalHeader isLast data stored,
    run.GotSeq s.fuStartSeq (.fragment nalHeader true isLast data) ∧
    s.fuBuffer[s.fuStartSeq]? = some stored ∧ stored.data = nalHeader :: data
  rest : ∀ key stored, s.fuBuffer[key]? = some stored → key ≠ s.fuStartSeq →
    ∃ nalHeader isLast, run.GotSeq key (.fragment nalHeader false isLast stored.data)

/-- The receiver's invariant. -/
structure Delivery.Faithful (run : Delivery) (s : H264RtpReassembler) : Prop where
  frame : run.Genuine s.frame
  fragments : s.fuStarted = true → run.FuFaithful s

/-- Only the buffer and the start number matter. -/
theorem Delivery.FuFaithful.of_eq {s t : H264RtpReassembler} (h : run.FuFaithful s)
    (hbuffer : t.fuBuffer = s.fuBuffer) (hstart : t.fuStartSeq = s.fuStartSeq) :
    run.FuFaithful t := by
  refine ⟨?_, ?_⟩
  · rw [hbuffer, hstart]
    exact h.start
  · rw [hbuffer, hstart]
    exact h.rest

/-! ## Genuine output -/

theorem genuine_nil (run : Delivery) : run.Genuine [] :=
  ⟨[], by simp, rfl⟩

theorem genuine_append {first second : Bytes} (hfirst : run.Genuine first)
    (hsecond : run.Genuine second) : run.Genuine (first ++ second) := by
  obtain ⟨units, hunits, rfl⟩ := hfirst
  obtain ⟨units', hunits', rfl⟩ := hsecond
  refine ⟨units ++ units', fun unit hunit => ?_, by simp⟩
  rcases List.mem_append.1 hunit with hunit | hunit
  · exact hunits unit hunit
  · exact hunits' unit hunit

/-- One unit with all its packets received is genuine. -/
theorem genuine_unit {nalu : Bytes} {packets : List Bytes}
    (hunit : (nalu, packets) ∈ sentUnits run.session run.nalus)
    (hpackets : ∀ packet ∈ packets, packet ∈ run.received) : run.Genuine (annexB nalu) := by
  refine ⟨[(nalu, packets)], ?_, by simp⟩
  rintro unit hmem
  cases List.mem_singleton.1 hmem
  exact ⟨hunit, hpackets⟩

/-! ## Numbers determine packets -/

/-- Whatever was received under the number of index `i` is item `i`. -/
theorem got_at {i : Nat} {part : Part} (hi : i ≤ (itemsOf run.nalus).length)
    (h : run.GotSeq (run.session.rtpSeq + UInt16.ofNat i) part) :
    ∃ timestamp, run.Got i timestamp part := by
  obtain ⟨j, timestamp, hseq, hgot⟩ := h
  have hj := (List.getElem?_eq_some_iff.1 hgot.item).1
  have hshort := run.short
  obtain rfl := index_unique (by omega) (by omega) hseq
  exact ⟨timestamp, hgot⟩

/-- A number was received with one part only. -/
theorem got_unique {seq : UInt16} {part other : Part} (h : run.GotSeq seq part)
    (hother : run.GotSeq seq other) : part = other := by
  obtain ⟨i, timestamp, rfl, hgot⟩ := h
  obtain ⟨timestamp', hgot'⟩ :=
    got_at (List.getElem?_eq_some_iff.1 hgot.item).1.le hother
  have heq := hgot.item.symm.trans hgot'.item
  cases heq
  rfl

/-- A received packet is the packet of a received part. -/
theorem received_got {packet : Bytes} (h : packet ∈ run.received) :
    ∃ seq timestamp part, run.GotUnder seq timestamp part ∧
      packet = packetOf seq timestamp run.session.rtpSsrc part := by
  have hsent := run.drawn packet h
  rw [send_nalus_eq] at hsent
  obtain ⟨i, timestamp, part, hitem, rfl⟩ := mem_wire hsent
  exact ⟨_, timestamp, part, ⟨i, rfl, hitem, h⟩, rfl⟩

section Collected

variable {nalHeader : UInt8} {timestamp : UInt32} {later : List Item} {currentSeq : UInt16}
  {pieces : List Bytes} {i : Nat}

/-- A continuation received at a position of the unit is the piece at that position. -/
theorem next_piece (hlater : ∀ next ∈ later.head?, next.2.opens = true)
    (hdrop : (itemsOf run.nalus).drop i =
      (fragmentParts nalHeader false pieces).map (Prod.mk timestamp) ++ later)
    (hi : i ≤ (itemsOf run.nalus).length) {header : UInt8} {isLast : Bool} {data : Bytes}
    (h : run.GotSeq (run.session.rtpSeq + UInt16.ofNat i) (.fragment header false isLast data)) :
    ∃ rest, pieces = data :: rest ∧ isLast = rest.isEmpty ∧
      run.Got i timestamp (.fragment nalHeader false rest.isEmpty data) := by
  obtain ⟨timestamp', hgot⟩ := got_at hi h
  have hitem := hgot.item
  rw [← List.head?_drop, hdrop] at hitem
  cases pieces with
  | nil =>
      -- past the unit's end comes an opening part, never a continuation
      have hopens := hlater _ hitem
      cases hopens
  | cons piece rest =>
      simp only [fragmentParts, List.map_cons, List.cons_append, List.head?_cons] at hitem
      cases hitem
      exact ⟨rest, rfl, rfl, hgot⟩

/-- A run of continuations that ends in an end fragment holds the pieces left in the unit. -/
theorem collected_pieces (hlater : ∀ next ∈ later.head?, next.2.opens = true)
    (hlast : ∃ header data, run.GotSeq currentSeq (.fragment header false true data))
    {entries : List (UInt16 × RtpUnit)}
    (hdrop : (itemsOf run.nalus).drop i =
      (fragmentParts nalHeader false pieces).map (Prod.mk timestamp) ++ later)
    (hi : i ≤ (itemsOf run.nalus).length)
    (hkeys : entries.map Prod.fst =
      seqRun (run.session.rtpSeq + UInt16.ofNat i) entries.length)
    (hgot : ∀ entry ∈ entries, ∃ header isLast,
      run.GotSeq entry.1 (.fragment header false isLast entry.2.data))
    (hne : entries ≠ [])
    (hend : currentSeq + 1 = run.session.rtpSeq + UInt16.ofNat i + UInt16.ofNat entries.length) :
    entries.map (fun entry => entry.2.data) = pieces ∧
      ∀ packet ∈ packetsFrom (run.session.rtpSeq + UInt16.ofNat i) timestamp run.session.rtpSsrc
        (fragmentParts nalHeader false pieces), packet ∈ run.received := by
  induction entries generalizing i pieces with
  | nil => exact absurd rfl hne
  | cons entry tail ih =>
      obtain ⟨key, stored⟩ := entry
      simp only [List.map_cons, List.length_cons, seqRun, List.cons.injEq] at hkeys
      obtain ⟨rfl, htail⟩ := hkeys
      obtain ⟨⟨header, isLast, hhead⟩, hgotTail⟩ := List.forall_mem_cons.1 hgot
      obtain ⟨rest, rfl, rfl, hpiece⟩ := next_piece hlater hdrop hi hhead
      have hdropNext : (itemsOf run.nalus).drop (i + 1) =
          (fragmentParts nalHeader false rest).map (Prod.mk timestamp) ++ later := by
        rw [← List.drop_drop, hdrop]
        rfl
      have hpacket := hpiece.packet
      -- the last entry must carry the end bit, which only the last piece has
      by_cases htailNil : tail = []
      · subst htailNil
        obtain ⟨header', data', hcurrent⟩ := hlast
        have hsame : currentSeq = run.session.rtpSeq + UInt16.ofNat i := by
          have hone : currentSeq + 1 = run.session.rtpSeq + UInt16.ofNat i + 1 := hend
          exact (UInt16.add_left_inj 1).1 hone
        have hpart := got_unique (hsame ▸ hcurrent) hhead
        simp only [Part.fragment.injEq] at hpart
        obtain rfl : rest = [] := List.isEmpty_iff.1 hpart.2.2.1.symm
        refine ⟨rfl, fun packet hmem => ?_⟩
        cases List.mem_singleton.1 hmem
        exact hpacket
      · obtain ⟨hdata, hpackets⟩ := ih hdropNext
          (Nat.succ_le_of_lt (List.getElem?_eq_some_iff.1 hpiece.item).1)
          (by rw [← add_ofNat_succ]; exact htail) hgotTail htailNil
          (by rw [hend, List.length_cons, ← add_ofNat_succ _ i, succ_add_ofNat])
        refine ⟨by simpa using hdata, fun packet hmem => ?_⟩
        rcases List.mem_cons.1 hmem with rfl | hmem
        · exact hpacket
        · rw [add_ofNat_succ] at hmem
          exact hpackets packet hmem

end Collected

/-- A received start fragment belongs to a unit sent, which begins with its bytes. -/
theorem started_unit {i : Nat} {timestamp : UInt32} {nalHeader : UInt8} {isLast : Bool}
    {data : Bytes} (hgot : run.Got i timestamp (.fragment nalHeader true isLast data)) :
    ∃ pieces later,
      (itemsOf run.nalus).drop (i + 1) =
        (fragmentParts nalHeader false pieces).map (Prod.mk timestamp) ++ later ∧
      (∀ next ∈ later.head?, next.2.opens = true) ∧ isLast = false ∧
      (timestamp, nalHeader :: data ++ pieces.flatten) ∈ run.nalus ∧
      ∃ packets, (nalHeader :: data ++ pieces.flatten, packets) ∈
          sentUnits run.session run.nalus ∧
        packets = packetOf (run.session.rtpSeq + UInt16.ofNat i) timestamp run.session.rtpSsrc
            (.fragment nalHeader true isLast data) ::
          packetsFrom (run.session.rtpSeq + UInt16.ofNat (i + 1)) timestamp run.session.rtpSsrc
            (fragmentParts nalHeader false pieces) := by
  obtain ⟨nalu, later, hmem, hdrop, hlater, hunit⟩ := unit_at run.session
    hgot.item rfl
  have hhead := hgot.item
  rw [← List.head?_drop, hdrop] at hhead
  have hvalid := run.valid _ hmem
  cases nalu with
  | nil => exact absurd rfl hvalid.ne_nil
  | cons header payload =>
      by_cases hfits : 4 + (header :: payload).length + RTP_HEADER_SIZE ≤ MTU
      · rw [partsOf, if_pos hfits] at hhead
        cases hhead
      · obtain ⟨first, pieces, -, hpayload, -, hparts⟩ := partsOf_fragmented hfits
        rw [hparts] at hhead hdrop hunit
        cases hhead
        refine ⟨pieces, later, ?_, hlater, rfl, by simpa [hpayload] using hmem, _, ?_, rfl⟩
        · rw [← List.drop_drop, hdrop]
          rfl
        · rw [hpayload] at hunit
          simpa [packetsFrom, add_ofNat_succ] using hunit

/-- A buffer with consecutive keys is a start fragment followed by continuations. -/
theorem buffer_entries {s : H264RtpReassembler} (hfu : run.FuFaithful s)
    (hkeys : s.fuBuffer.keys = seqRun s.fuStartSeq s.fuBuffer.size) :
    ∃ nalHeader isLast data, ∃ tail : List (UInt16 × RtpUnit),
      run.GotSeq s.fuStartSeq (.fragment nalHeader true isLast data) ∧
      (s.fuBuffer.toList.map fun entry => entry.2.data) =
        (nalHeader :: data) :: tail.map (fun entry => entry.2.data) ∧
      s.fuBuffer.size = tail.length + 1 ∧
      tail.map Prod.fst = seqRun (s.fuStartSeq + 1) tail.length ∧
      ∀ entry ∈ tail, ∃ header isLast,
        run.GotSeq entry.1 (.fragment header false isLast entry.2.data) := by
  obtain ⟨⟨nalHeader, isLast, data, stored, hstart, hstored, hdata⟩, hothers⟩ := hfu
  rw [← Std.TreeMap.map_fst_toList_eq_keys] at hkeys
  have hsize := Std.TreeMap.length_toList (t := s.fuBuffer)
  have hordered := Std.TreeMap.ordered_keys_toList (t := s.fuBuffer)
  have hfound := Std.TreeMap.mem_toList_iff_getElem?_eq_some.2 hstored
  have hlookup : ∀ entry ∈ s.fuBuffer.toList, s.fuBuffer[entry.1]? = some entry.2 :=
    fun entry hentry => Std.TreeMap.mem_toList_iff_getElem?_eq_some.1 hentry
  cases hentries : s.fuBuffer.toList with
  | nil =>
      rw [hentries] at hfound
      cases hfound
  | cons first tail =>
      rw [hentries] at hkeys hsize hordered hlookup
      rw [← hsize] at hkeys
      simp only [List.map_cons, List.length_cons, seqRun, List.cons.injEq] at hkeys
      obtain ⟨hfirst, htail⟩ := hkeys
      have hfirstStored : some stored = some first.2 := by
        rw [← hstored, ← hlookup first List.mem_cons_self, hfirst]
      refine ⟨nalHeader, isLast, data, tail, hstart, ?_, hsize.symm, htail, ?_⟩
      · rw [List.map_cons, ← Option.some.inj hfirstStored, hdata]
      · intro entry hentry
        refine hothers entry.1 entry.2 (hlookup entry (List.mem_cons_of_mem _ hentry)) fun heq => ?_
        have hlt := (List.pairwise_cons.1 hordered).1 entry hentry
        rw [hfirst, heq, Std.ReflOrd.compare_self] at hlt
        cases hlt

/-- A buffer that passes the completeness test at an end fragment is a unit sent under that
fragment's timestamp. -/
theorem complete_unit {s : H264RtpReassembler} {currentSeq : UInt16}
    (hfu : run.FuFaithful s)
    (hlast : ∃ header data, run.GotSeq currentSeq (.fragment header false true data))
    (hcomplete : isFuComplete s currentSeq = true) :
    ∃ timestamp nalu packets,
      (s.fuBuffer.toList.map fun entry => entry.2.data).flatten = nalu ∧
      (timestamp, nalu) ∈ run.nalus ∧ (nalu, packets) ∈ sentUnits run.session run.nalus ∧
      (∀ packet ∈ packets, packet ∈ run.received) ∧
      ∀ current part, run.GotUnder currentSeq current part → current = timestamp := by
  obtain ⟨hkeys, -, hend⟩ := is_fu_complete_iff.1 hcomplete
  obtain ⟨nalHeader, isLast, data, tail, hstart, hdata, hsize, htail, hothers⟩ :=
    buffer_entries hfu hkeys
  rw [hsize] at hend
  have hne : tail ≠ [] := by
    rintro rfl
    obtain ⟨header, lastData, hgotLast⟩ := hlast
    obtain rfl : currentSeq = s.fuStartSeq := by
      apply UInt16.toNat_inj.1
      simpa using hend
    have hpart := got_unique hstart hgotLast
    simp at hpart
  obtain ⟨i, timestamp, hseq, hgot⟩ := hstart
  obtain ⟨pieces, later, hdrop, hlater, -, hmem, packets, hunit, hpackets⟩ := started_unit hgot
  have hcurrent : currentSeq + 1 = s.fuStartSeq + 1 + UInt16.ofNat tail.length := by
    apply UInt16.toNat_inj.1
    simp only [UInt16.toNat_add, UInt16.toNat_ofNat', UInt16.toNat_one, hend]
    omega
  have hindex : currentSeq = run.session.rtpSeq + UInt16.ofNat (i + tail.length) := by
    rw [UInt16.ofNat_add, ← UInt16.add_assoc, ← hseq, ← UInt16.add_left_inj 1, hcurrent,
      UInt16.add_assoc, UInt16.add_comm 1, ← UInt16.add_assoc]
  rw [hseq, add_ofNat_succ] at htail hcurrent
  have hi := (List.getElem?_eq_some_iff.1 hgot.item).1
  obtain ⟨hpieces, hreceived⟩ := collected_pieces hlater hlast hdrop hi htail hothers hne hcurrent
  refine ⟨timestamp, _, packets, by rw [hdata, hpieces, List.flatten_cons], hmem, hunit, ?_, ?_⟩
  · intro packet hpacket
    rw [hpackets] at hpacket
    rcases List.mem_cons.1 hpacket with rfl | hpacket
    · exact hgot.packet
    · exact hreceived packet hpacket
  · -- the item of the end fragment is the last of the unit's pieces
    intro current part hunder
    obtain ⟨j, hj, hother⟩ := hunder
    have hlength : tail.length = pieces.length := by rw [← hpieces, List.length_map]
    have hpos : 0 < tail.length := List.length_pos_iff.2 hne
    have hshort := run.short
    have hends := congrArg List.length hdrop
    simp only [List.length_drop, List.length_append, List.length_map,
      length_fragmentParts] at hends
    have hjlt := (List.getElem?_eq_some_iff.1 hother.item).1
    obtain rfl : i + tail.length = j :=
      index_unique (by omega) (by omega) (hindex.symm.trans hj)
    have hitem := hother.item
    have hposition : i + tail.length = i + 1 + (tail.length - 1) := by omega
    rw [hposition, ← List.getElem?_drop, hdrop,
      List.getElem?_append_left (by simp; omega), List.getElem?_map] at hitem
    obtain ⟨found, -, heq⟩ := Option.map_eq_some_iff.1 hitem
    cases heq
    rfl

/-- Such a buffer adds a genuine unit. -/
theorem complete_genuine {s : H264RtpReassembler} {currentSeq : UInt16}
    (hfu : run.FuFaithful s)
    (hlast : ∃ header data, run.GotSeq currentSeq (.fragment header false true data))
    (hcomplete : isFuComplete s currentSeq = true) :
    run.Genuine (annexB (s.fuBuffer.toList.map fun entry => entry.2.data).flatten) := by
  obtain ⟨-, nalu, packets, hflatten, -, hunit, hpackets, -⟩ := complete_unit hfu hlast hcomplete
  rw [hflatten]
  exact genuine_unit hunit hpackets

/-! ## Steps of the reassembler -/

/-- What one call leaves behind: a faithful state and genuine frames. -/
def Delivery.Sound (run : Delivery) (result : H264RtpReassembler × List FrameReady) : Prop :=
  run.Faithful result.1 ∧ ∀ frame ∈ result.2, run.Genuine frame.2

variable {s : H264RtpReassembler} {streamName : QString} {seq : UInt16} {timestamp ssrc : UInt32}

theorem reset_faithful (h : run.Genuine s.frame) : run.Faithful (resetFu s) :=
  ⟨h, fun hstarted => by cases hstarted⟩

theorem sound_quiet (h : run.Faithful s) : run.Sound (s, []) :=
  ⟨h, by simp⟩

theorem sound_ite {p : Prop} [Decidable p] {first second : H264RtpReassembler × List FrameReady}
    (hfirst : run.Sound first) (hsecond : run.Sound second) :
    run.Sound (if p then first else second) := by
  split
  · exact hfirst
  · exact hsecond

theorem sound_flush (streamName : QString) (h : run.Faithful s) (marker : Bool) :
    run.Sound (flush s streamName marker) := by
  unfold flush
  split
  · refine ⟨⟨genuine_nil run, fun hstarted => (h.fragments hstarted).of_eq rfl rfl⟩, ?_⟩
    simpa using h.frame
  · exact sound_quiet h

theorem sound_append {middle : H264RtpReassembler} {first : List FrameReady}
    {result : H264RtpReassembler × List FrameReady} (hfirst : run.Sound (middle, first))
    (hrest : run.Sound result) : run.Sound (result.1, first ++ result.2) := by
  refine ⟨hrest.1, fun frame hframe => ?_⟩
  rcases List.mem_append.1 hframe with hframe | hframe
  · exact hfirst.2 frame hframe
  · exact hrest.2 frame hframe

/-- A received single packet is a unit sent under its timestamp. -/
theorem single_unit {nalu : Bytes} (hgot : run.GotUnder seq timestamp (.single nalu)) :
    (timestamp, nalu) ∈ run.nalus ∧ run.Genuine (annexB nalu) := by
  obtain ⟨i, rfl, hgot⟩ := hgot
  obtain ⟨found, later, hmem, hdrop, -, hunit⟩ := unit_at run.session hgot.item rfl
  have hhead := hgot.item
  rw [← List.head?_drop, hdrop] at hhead
  have hvalid := run.valid _ hmem
  cases found with
  | nil => exact absurd rfl hvalid.ne_nil
  | cons header payload =>
      by_cases hfits : 4 + (header :: payload).length + RTP_HEADER_SIZE ≤ MTU
      · rw [partsOf, if_pos hfits] at hhead hunit
        cases hhead
        refine ⟨hmem, genuine_unit hunit fun packet hpacket => ?_⟩
        cases List.mem_singleton.1 hpacket
        exact hgot.packet
      · obtain ⟨first, pieces, -, -, -, hparts⟩ := partsOf_fragmented hfits
        rw [hparts] at hhead
        cases hhead

theorem single_genuine {nalu : Bytes} (hgot : run.GotSeq seq (.single nalu)) :
    run.Genuine (annexB nalu) := by
  obtain ⟨i, timestamp, hseq, hgot⟩ := hgot
  exact (single_unit ⟨i, hseq, hgot⟩).2

/-- A received single packet adds its unit and abandons the fragments collected. -/
theorem sound_single {nalu : Bytes} (h : run.Faithful s) (hgot : run.GotSeq seq (.single nalu))
    (nalType : UInt8) :
    run.Sound (processSingle s streamName (parsedPart seq timestamp ssrc (.single nalu))
      nalType) := by
  have hidle : (if s.fuStarted then resetFu s else s).fuStarted = false := by
    split
    · rfl
    · exact Bool.eq_false_iff.2 ‹_›
  have hframe : (if s.fuStarted then resetFu s else s).frame = s.frame := by
    split <;> rfl
  have hadded : run.Faithful
      { checkAndSaveSpsPps (if s.fuStarted then resetFu s else s) nalType (annexB nalu) with
        frame := s.frame ++ annexB nalu } :=
    ⟨genuine_append h.frame (single_genuine hgot), fun hstarted => by simp [hidle] at hstarted⟩
  have hfirst := sound_flush streamName hadded (Part.single nalu).marker
  have hsecond := sound_flush streamName hfirst.1 (Part.single nalu).marker
  simp only [processSingle, parsedPart, Part.payload, check_and_save_frame, hframe]
  exact sound_append hfirst hsecond

/-- A start fragment replaces whatever was collected. -/
theorem sound_start {nalHeader : UInt8} {isLast : Bool} {data : Bytes} (h : run.Faithful s)
    (hgot : run.GotSeq seq (.fragment nalHeader true isLast data)) :
    run.Sound (processFuStart s streamName
      (parsedPart seq timestamp ssrc (.fragment nalHeader true isLast data)) nalHeader data) := by
  unfold processFuStart
  split
  · exact sound_quiet (reset_faithful h.frame)
  · have hsize : ((∅ : QMap UInt16 RtpUnit).insert seq ⟨seq, nalHeader :: data⟩).size = 1 := by
      simp [Std.TreeMap.size_insert]
    simp only [parsedPart, hsize, maxFuBufferSize, gt_iff_lt, Nat.reduceLT, if_false]
    refine sound_flush streamName (s := { s with
      fuStarted := true
      fuStartSeq := seq
      fuExpectedSeq := seq + 1
      fuBuffer := (∅ : QMap UInt16 RtpUnit).insert seq ⟨seq, nalHeader :: data⟩ })
      ⟨h.frame, fun _ => ⟨?_, fun key stored hstored hkey => ?_⟩⟩ _
    · exact ⟨nalHeader, isLast, data, ⟨seq, nalHeader :: data⟩, hgot, by simp, rfl⟩
    · rw [Std.TreeMap.getElem?_insert] at hstored
      split at hstored
      · exact absurd (Std.compare_eq_iff_eq.1 ‹_›).symm hkey
      · simp at hstored

/-- Finishing keeps the frame genuine. -/
theorem finish_faithful {currentSeq : UInt16} {nalType : UInt8} (h : run.Faithful s)
    (hfu : run.FuFaithful s)
    (hlast : ∃ header data, run.GotSeq currentSeq (.fragment header false true data)) :
    run.Faithful (finishFu s currentSeq nalType) := by
  refine reset_faithful ?_
  split
  · simpa using genuine_append h.frame (complete_genuine hfu hlast ‹_›)
  · exact h.frame

/-- A continuation joins the buffer under its own number. -/
theorem insert_faithful {nalHeader : UInt8} {isLast : Bool} {data : Bytes}
    (hfu : run.FuFaithful s) (hgot : run.GotSeq seq (.fragment nalHeader false isLast data))
    (expected : UInt16) :
    run.FuFaithful { s with
      fuBuffer := s.fuBuffer.insert seq ⟨seq, data⟩
      fuExpectedSeq := expected } := by
  obtain ⟨⟨header, first, firstData, stored, hstart, hstored, hdata⟩, hrest⟩ := hfu
  have hne : seq ≠ s.fuStartSeq := by
    rintro rfl
    have hpart := got_unique hstart hgot
    simp at hpart
  refine ⟨⟨header, first, firstData, stored, hstart, ?_, hdata⟩, fun key found hfound hkey => ?_⟩
  · rw [Std.TreeMap.getElem?_insert, if_neg (by simpa using hne)]
    exact hstored
  · rw [Std.TreeMap.getElem?_insert] at hfound
    split at hfound
    · obtain rfl := Std.compare_eq_iff_eq.1 ‹compare seq key = .eq›
      cases hfound
      exact ⟨nalHeader, isLast, hgot⟩
    · exact hrest key found hfound hkey

/-- What follows the insertion of a continuation: overflow, the end of the unit, or nothing. -/
theorem sound_collected {isLast marker : Bool} (h : run.Faithful s) (hfu : run.FuFaithful s)
    (hlast : isLast = true →
      ∃ header data, run.GotSeq seq (.fragment header false true data)) (nalType : UInt8) :
    run.Sound
      (if s.fuBuffer.size > maxFuBufferSize then (resetFu s, [])
      else flush (if isLast then finishFu s seq nalType else s) streamName marker) := by
  split
  · exact sound_quiet (reset_faithful h.frame)
  · cases isLast with
    | false => exact sound_flush _ h marker
    | true => exact sound_flush _ (finish_faithful h hfu (hlast rfl)) marker

/-- A continuation of the open unit is dropped, collected, or finishes the unit. -/
theorem sound_next {nalHeader : UInt8} {isLast : Bool} {data : Bytes} (h : run.Faithful s)
    (hstarted : s.fuStarted = true)
    (hgot : run.GotSeq seq (.fragment nalHeader false isLast data)) (nalType : UInt8) :
    run.Sound (processFuNext s streamName
      (parsedPart seq timestamp ssrc (.fragment nalHeader false isLast data)) isLast nalType
      data) := by
  have hinsert := insert_faithful (h.fragments hstarted) hgot
  have hlast : isLast = true →
      ∃ header data, run.GotSeq seq (.fragment header false true data) := by
    rintro rfl
    exact ⟨nalHeader, data, hgot⟩
  simp only [processFuNext, parsedPart]
  refine sound_ite (sound_quiet h) ?_
  refine sound_ite (sound_quiet (reset_faithful h.frame)) ?_
  have hcollected (expected : UInt16) : run.Faithful { s with
      fuBuffer := s.fuBuffer.insert seq ⟨seq, data⟩
      fuExpectedSeq := expected } :=
    ⟨h.frame, fun _ => hinsert expected⟩
  by_cases hexpected : seq ≥ s.fuExpectedSeq
  · simpa [hexpected] using
      sound_collected (hcollected (seq + 1)) (hinsert (seq + 1)) hlast nalType
  · simpa [hexpected] using
      sound_collected (hcollected s.fuExpectedSeq) (hinsert s.fuExpectedSeq) hlast nalType

/-- The part is one that a valid NAL unit is cut into. -/
def ValidPart : Part → Prop
  | .single nalu => ValidNalu nalu
  | .fragment nalHeader _ _ _ => ValidHeader nalHeader

theorem valid_fragmentParts {nalHeader : UInt8} (hvalid : ValidHeader nalHeader) {isStart : Bool}
    {pieces : List Bytes} {part : Part} (h : part ∈ fragmentParts nalHeader isStart pieces) :
    ValidPart part := by
  induction pieces generalizing isStart with
  | nil => cases h
  | cons data rest ih =>
      rcases List.mem_cons.1 h with rfl | h
      · exact hvalid
      · exact ih h

theorem valid_partsOf {nalu : Bytes} (hvalid : ValidNalu nalu) {part : Part}
    (h : part ∈ partsOf nalu) : ValidPart part := by
  cases nalu with
  | nil => cases h
  | cons nalHeader payload =>
      rw [partsOf] at h
      split at h
      · cases List.mem_singleton.1 h
        exact hvalid
      · exact valid_fragmentParts hvalid h

theorem got_valid {part : Part} (h : run.GotSeq seq part) : ValidPart part := by
  obtain ⟨i, timestamp, -, hgot⟩ := h
  obtain ⟨nalu, hnalu, hitem⟩ := List.mem_flatMap.1 (List.mem_of_getElem? hgot.item)
  obtain ⟨found, hfound, heq⟩ := List.mem_map.1 hitem
  cases heq
  exact valid_partsOf (run.valid nalu hnalu) hfound

/-- Every branch of `_processRtpNalu` is sound on a received part. -/
theorem sound_part (streamName : QString) (timestamp ssrc : UInt32) {part : Part}
    (h : run.Faithful s) (hgot : run.GotSeq seq part) :
    run.Sound (processRtpNalu s streamName (parsedPart seq timestamp ssrc part)) := by
  have hvalid := got_valid hgot
  cases part with
  | single nalu =>
      cases nalu with
      | nil => exact sound_quiet h
      | cons nalHeader payload =>
          have hheader : ValidHeader nalHeader := hvalid
          rw [process_single hheader]
          exact sound_single h hgot _
  | fragment nalHeader isStart isLast data =>
      rw [process_fragment hvalid]
      cases isStart with
      | true => exact sound_start h hgot
      | false =>
          by_cases hstarted : s.fuStarted = true
          · simpa [hstarted] using sound_next h hstarted hgot _
          · simpa [hstarted] using sound_flush _ h isLast

/-- The gap test keeps the invariant. -/
theorem gap_faithful (h : run.Faithful s) (seq : UInt16) :
    run.Faithful (if isLargeGap s seq then resetFu { s with frame := [] } else s) := by
  split
  · exact reset_faithful (genuine_nil run)
  · exact h

/-- One call on a received packet. -/
theorem sound_call (streamName : QString) (timestamp ssrc : UInt32) {part : Part}
    (h : run.Faithful s) (hgot : run.GotSeq seq part) :
    run.Sound (handleParsed s streamName (parsedPart seq timestamp ssrc part)) := by
  obtain ⟨hafter, hframes⟩ := sound_part streamName timestamp ssrc (gap_faithful h seq) hgot
  unfold handleParsed
  split
  · exact sound_quiet h
  split
  · exact sound_quiet h
  exact ⟨⟨hafter.frame, fun hstarted => (hafter.fragments hstarted).of_eq rfl rfl⟩, hframes⟩

/-! ## Every run -/

/-- No packet sent makes the handler read out of bounds. -/
theorem received_total {call : QString × Bytes} (s : H264RtpReassembler)
    (hcall : call.2 ∈ run.received) : ∃ result, handleRtp s call = .ok result := by
  obtain ⟨seq, timestamp, part, -, hpacket⟩ := received_got hcall
  have hstep := handle_packetOf s call.1 seq timestamp run.session.rtpSsrc part
  rw [← hpacket] at hstep
  exact ⟨_, hstep⟩

/-- The invariant holds along every sequence of deliveries, and every frame emitted is genuine. -/
theorem feed_sound (run : Delivery) {calls : List (QString × Bytes)}
    (hcalls : ∀ call ∈ calls, call.2 ∈ run.received)
    (hinit : run.Faithful s) :
    ∃ final frames, feed s calls = .ok (final, frames) ∧ run.Faithful final ∧
      ∀ frame ∈ frames, run.Genuine frame.2 := by
  obtain ⟨⟨final, frames⟩, hrun⟩ : ∃ result, feed s calls = .ok result :=
    Machine.run_total (fun call => call.2 ∈ run.received) (fun s call => received_total s) hcalls
  refine ⟨final, frames, hrun, Machine.run_invariant run.Faithful
    (fun frame => run.Genuine frame.2) (fun call => call.2 ∈ run.received) ?_ hinit hcalls hrun⟩
  intro state call following out hstate hcall hstep
  obtain ⟨seq, timestamp, part, hgot, hpacket⟩ := received_got hcall
  have hsame := handle_packetOf state call.1 seq timestamp run.session.rtpSsrc part
  rw [← hpacket] at hsame
  have hsound := sound_call call.1 timestamp run.session.rtpSsrc hstate hgot.got_seq
  rwa [Except.ok.inj (hsame.symm.trans hstep)] at hsound

/-- Fewer than 2^16 packets of valid NAL units, delivered with any loss, repetition and order to a
fresh reassembler: every frame emitted is a sequence of units sent, each of which has all of its
packets among those delivered. -/
theorem never_fabricates (session : RtspSession) (nalus : List (UInt32 × Bytes))
    (hvalid : ∀ nalu ∈ nalus, ValidNalu nalu.2)
    (hshort : (sendNalus session nalus).2.length < 65536) (deliveries : List (QString × Bytes))
    (hdrawn : ∀ call ∈ deliveries, call.2 ∈ (sendNalus session nalus).2) :
    ∃ final frames, feed fresh deliveries = .ok (final, frames) ∧
      ∀ frame ∈ frames, ∃ units : List (Bytes × List Bytes),
        (∀ unit ∈ units, unit ∈ sentUnits session nalus ∧
          ∀ packet ∈ unit.2, packet ∈ deliveries.map Prod.snd) ∧
        frame.2 = (units.map fun unit => annexB unit.1).flatten := by
  let run : Delivery := {
    session := session
    nalus := nalus
    received := deliveries.map Prod.snd
    valid := hvalid
    short := by rwa [send_nalus_eq, length_wire] at hshort
    drawn := by simpa [List.mem_map] using fun packet name h => hdrawn (name, packet) h }
  obtain ⟨final, frames, hfeed, -, hframes⟩ := feed_sound run (s := fresh)
    (fun call hcall => List.mem_map_of_mem hcall)
    ⟨genuine_nil run, fun hstarted => by cases hstarted⟩
  exact ⟨final, frames, hfeed, hframes⟩

/-- Two packets across the wrap, delivered in the wrong order. -/
theorem never_fabricates_reordered :
    ∃ final frames,
      feed fresh [("cam", packetOf 0 0 0 (.single [0x65, 0x88])),
        ("cam", packetOf 65535 0 0 (.single [0x67, 0x42]))] = .ok (final, frames) ∧
      ∀ frame ∈ frames, ∃ units : List (Bytes × List Bytes),
        (∀ unit ∈ units,
          unit ∈ sentUnits ⟨65535, 0, "udp", 0⟩ [(0, [0x67, 0x42]), (0, [0x65, 0x88])] ∧
          ∀ packet ∈ unit.2, packet ∈ [packetOf 0 0 0 (.single [0x65, 0x88]),
            packetOf 65535 0 0 (.single [0x67, 0x42])]) ∧
        frame.2 = (units.map fun unit => annexB unit.1).flatten :=
  never_fabricates ⟨65535, 0, "udp", 0⟩ [(0, [0x67, 0x42]), (0, [0x65, 0x88])] (by decide)
    (by decide) [("cam", packetOf 0 0 0 (.single [0x65, 0x88])),
      ("cam", packetOf 65535 0 0 (.single [0x67, 0x42]))] (by decide)

end CarDetect.Stream
