import CarDetect.Camera.Packets

/-!
# The packets of a list of NAL units

`itemsOf` lists the parts of NAL units sent one after another, and the packets sent are these
items numbered in order (`send_nalus_eq`). `mem_wire` and `index_unique` recover an item from
its packet and its number. `unit_at` describes the items from an opening part on: the rest of its
NAL unit, and then the opening part of the next one.
-/

namespace CarDetect.Camera

open BigEndian OrderedMap

/-- A part with the timestamp it is sent under. -/
abbrev Item := UInt32 × Part

/-- The items of NAL units, in sending order. -/
def itemsOf (nalus : List (UInt32 × Bytes)) : List Item :=
  nalus.flatMap fun nalu => (partsOf nalu.2).map (Prod.mk nalu.1)

/-- The packets of items numbered from `seq`. -/
def wire (seq : UInt16) (ssrc : UInt32) : List Item → List Bytes
  | [] => []
  | (timestamp, part) :: rest => packetOf seq timestamp ssrc part :: wire (seq + 1) ssrc rest

/-- Each NAL unit with the packets it is sent as. -/
def sentUnits (session : RtspSession) : List (UInt32 × Bytes) → List (Bytes × List Bytes)
  | [] => []
  | (timestamp, nalu) :: rest =>
      let (session, packets) := rtpSendH264 session timestamp nalu
      (nalu, packets) :: sentUnits session rest

/-- Whether a part is the first of its NAL unit. -/
def Part.opens : Part → Bool
  | .single _ => true
  | .fragment _ isStart _ _ => isStart

theorem length_wire (seq : UInt16) (ssrc : UInt32) (items : List Item) :
    (wire seq ssrc items).length = items.length := by
  induction items generalizing seq with
  | nil => rfl
  | cons item rest ih => simp [wire, ih]

theorem wire_append (seq : UInt16) (ssrc : UInt32) (first second : List Item) :
    wire seq ssrc (first ++ second) =
      wire seq ssrc first ++ wire (seq + UInt16.ofNat first.length) ssrc second := by
  induction first generalizing seq with
  | nil => simp [wire]
  | cons item rest ih => simp [wire, ih, succ_add_ofNat]

theorem wire_map (seq : UInt16) (ssrc timestamp : UInt32) (parts : List Part) :
    wire seq ssrc (parts.map (Prod.mk timestamp)) = packetsFrom seq timestamp ssrc parts := by
  induction parts generalizing seq with
  | nil => rfl
  | cons part rest ih => simp [wire, packetsFrom, ih]

/-- The packets sent are the numbered items. -/
theorem send_nalus_eq (session : RtspSession) (nalus : List (UInt32 × Bytes)) :
    (sendNalus session nalus).2 = wire session.rtpSeq session.rtpSsrc (itemsOf nalus) := by
  induction nalus generalizing session with
  | nil => rfl
  | cons nalu rest ih =>
      simp only [sendNalus, rtp_send_h264_eq, ih, itemsOf, List.flatMap_cons, wire_append, wire_map,
        List.length_map, RtspSession.advance_rtpSeq, RtspSession.advance_rtpSsrc]

/-- A packet sent is the packet of the item at some index. -/
theorem mem_wire {seq : UInt16} {ssrc : UInt32} {items : List Item} {packet : Bytes}
    (h : packet ∈ wire seq ssrc items) :
    ∃ i timestamp part, items[i]? = some (timestamp, part) ∧
      packet = packetOf (seq + UInt16.ofNat i) timestamp ssrc part := by
  induction items generalizing seq with
  | nil => cases h
  | cons item rest ih =>
      obtain ⟨timestamp, part⟩ := item
      rcases List.mem_cons.1 h with rfl | h
      · exact ⟨0, timestamp, part, rfl, by simp⟩
      · obtain ⟨i, timestamp, part, hitem, rfl⟩ := ih h
        exact ⟨i + 1, timestamp, part, by simpa using hitem, by rw [succ_add_ofNat]⟩

/-- Two indices below 2^16 with one number are equal. -/
theorem index_unique {seq : UInt16} {i j : Nat} (hi : i < 65536) (hj : j < 65536)
    (h : seq + UInt16.ofNat i = seq + UInt16.ofNat j) : i = j := by
  have heq := congrArg UInt16.toNat h
  have hseq := seq.toNat_lt
  simp only [UInt16.toNat_add, UInt16.toNat_ofNat'] at heq
  omega

/-! ## The unit of an opening part -/

/-- Pieces after the first continue the unit. -/
theorem not_opens_fragmentParts {nalHeader : UInt8} {pieces : List Bytes} {part : Part}
    (h : part ∈ fragmentParts nalHeader false pieces) : part.opens = false := by
  induction pieces with
  | nil => cases h
  | cons data rest ih =>
      rcases List.mem_cons.1 h with rfl | h
      · rfl
      · exact ih h

/-- Only the first part of a NAL unit opens it. -/
theorem partsOf_opens {nalu : Bytes} {i : Nat} {part : Part} (h : (partsOf nalu)[i]? = some part)
    (hopens : part.opens = true) : i = 0 := by
  cases nalu with
  | nil => simp [partsOf] at h
  | cons nalHeader payload =>
      by_cases hfits : 4 + (nalHeader :: payload).length + RTP_HEADER_SIZE ≤ MTU
      · rw [partsOf, if_pos hfits] at h
        have hlt := (List.getElem?_eq_some_iff.1 h).1
        simpa using hlt
      · obtain ⟨data, rest, -, -, -, hparts⟩ := partsOf_fragmented hfits
        cases i with
        | zero => rfl
        | succ i =>
            rw [hparts, List.getElem?_cons_succ] at h
            rw [not_opens_fragmentParts (List.mem_of_getElem? h)] at hopens
            cases hopens

/-- A NAL unit starts with an opening part. -/
theorem partsOf_head {nalu : Bytes} {part : Part} (h : part ∈ (partsOf nalu).head?) :
    part.opens = true := by
  cases nalu with
  | nil => cases h
  | cons nalHeader payload =>
      by_cases hfits : 4 + (nalHeader :: payload).length + RTP_HEADER_SIZE ≤ MTU
      · rw [partsOf, if_pos hfits] at h
        cases h
        rfl
      · obtain ⟨data, rest, -, -, -, hparts⟩ := partsOf_fragmented hfits
        rw [hparts] at h
        cases h
        rfl

theorem itemsOf_head {nalus : List (UInt32 × Bytes)} {item : Item}
    (h : item ∈ (itemsOf nalus).head?) : item.2.opens = true := by
  induction nalus with
  | nil => cases h
  | cons nalu rest ih =>
      simp only [itemsOf, List.flatMap_cons, List.head?_append, List.head?_map] at h
      cases hhead : (partsOf nalu.2).head? with
      | none =>
          rw [hhead] at h
          exact ih h
      | some part =>
          rw [hhead] at h
          cases h
          exact partsOf_head hhead

/-- From an opening part on, the items are the parts of one NAL unit followed by nothing or by
another opening part, and that NAL unit with its packets is among the units sent. -/
theorem unit_at (session : RtspSession) {nalus : List (UInt32 × Bytes)} {i : Nat} {item : Item}
    (hitem : (itemsOf nalus)[i]? = some item) (hopens : item.2.opens = true) :
    ∃ nalu later, (item.1, nalu) ∈ nalus ∧
      (itemsOf nalus).drop i = (partsOf nalu).map (Prod.mk item.1) ++ later ∧
      (∀ next ∈ later.head?, next.2.opens = true) ∧
      (nalu, packetsFrom (session.rtpSeq + UInt16.ofNat i) item.1 session.rtpSsrc (partsOf nalu)) ∈
        sentUnits session nalus := by
  induction nalus generalizing session i with
  | nil => simp [itemsOf] at hitem
  | cons nalu rest ih =>
      obtain ⟨timestamp, nalu⟩ := nalu
      have hitems : itemsOf ((timestamp, nalu) :: rest) =
          (partsOf nalu).map (Prod.mk timestamp) ++ itemsOf rest := by
        rw [itemsOf, List.flatMap_cons]
        rfl
      have hunits : sentUnits session ((timestamp, nalu) :: rest) =
          (nalu, packetsFrom session.rtpSeq timestamp session.rtpSsrc (partsOf nalu)) ::
            sentUnits (session.advance (partsOf nalu).length) rest := by
        simp only [sentUnits, rtp_send_h264_eq]
      rw [hitems] at hitem ⊢
      rw [hunits]
      by_cases hlt : i < (partsOf nalu).length
      · rw [List.getElem?_append_left (by simpa using hlt), List.getElem?_map] at hitem
        obtain ⟨part, hpart, rfl⟩ := Option.map_eq_some_iff.1 hitem
        obtain rfl := partsOf_opens hpart hopens
        refine ⟨nalu, itemsOf rest, List.mem_cons_self, rfl, fun next => itemsOf_head, ?_⟩
        simp
      · have hge : ((partsOf nalu).map (Prod.mk timestamp)).length ≤ i := by simpa using hlt
        rw [List.getElem?_append_right hge] at hitem
        obtain ⟨found, later, hmem, hdrop, hlater, hunit⟩ := ih
          (session.advance (partsOf nalu).length) hitem
        simp only [List.length_map] at hdrop hunit hge
        refine ⟨found, later, List.mem_cons_of_mem _ hmem, ?_, hlater, List.mem_cons_of_mem _ ?_⟩
        · rw [List.drop_append, List.drop_of_length_le (by simpa using hge), List.nil_append,
            List.length_map, hdrop]
        · have hseq : session.rtpSeq + UInt16.ofNat (partsOf nalu).length +
              UInt16.ofNat (i - (partsOf nalu).length) = session.rtpSeq + UInt16.ofNat i := by
            rw [UInt16.add_assoc, ← UInt16.ofNat_add, Nat.add_sub_of_le hge]
          simpa [hseq] using hunit

end CarDetect.Camera
