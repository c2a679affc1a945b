import CarDetect.Qt.SerialOrder
import CarDetect.Stream.Fabrication

/-!
# Frames and access units

The camera sends the NAL units of one picture under one timestamp. The receiver never compares
timestamps: it closes a frame at a marker, and clears it at a large gap. `Observed` adds to the
reassembler the timestamp of the last packet it passed on, which no code reads. `OpensClean` is
what the code relies on without testing it, that no frame is pending when the timestamp changes,
and `frames_of_one_unit` says that then every frame belongs to one access unit.
-/

namespace CarDetect.Stream

open BigEndian Camera Qt OrderedMap

/-- The NAL units sent under one timestamp. -/
structure AccessUnit where
  timestamp : UInt32
  nalus : List Bytes
deriving DecidableEq, Repr

/-- The NAL units in sending order, each with its timestamp. -/
def nalusOf (units : List AccessUnit) : List (UInt32 × Bytes) :=
  units.flatMap fun unit => unit.nalus.map (Prod.mk unit.timestamp)

/-- The bytes are the Annex B form of NAL units of one access unit. -/
def OneUnit (units : List AccessUnit) (bytes : Bytes) : Prop :=
  ∃ unit ∈ units, ∃ nalus : List Bytes, (∀ nalu ∈ nalus, nalu ∈ unit.nalus) ∧
    bytes = (nalus.map annexB).flatten

/-! ## Observing the timestamp -/

/-- The reassembler with the timestamp of the last packet passed on to `_processRtpNalu`. -/
structure Observed where
  state : H264RtpReassembler := fresh
  timestamp : UInt32 := 0

/-- `handleRtp`, with the timestamp recorded. -/
def observe (o : Observed) (call : QString × Bytes) :
    Except OutOfBounds (Observed × List FrameReady) :=
  (handleRtp o.state call).map fun result =>
    ({ state := result.1
       timestamp := ((passedOn o.state call).map RtpPacket.timestamp).getD o.timestamp },
      result.2)

/-- A packet of another timestamp finds no pending frame, or the gap test clears it. -/
def OpensClean (o : Observed) (call : QString × Bytes) : Prop :=
  ∀ pkt ∈ passedOn o.state call,
    pkt.timestamp = o.timestamp ∨ o.state.frame = [] ∨ isLargeGap o.state pkt.seq = true

instance (o : Observed) (call : QString × Bytes) : Decidable (OpensClean o call) :=
  inferInstanceAs (Decidable (∀ pkt ∈ passedOn o.state call, _))

/-! ## What one packet adds -/

/-- The pending frame grows by `added`, and is emitted or stays pending. -/
inductive Adds (s : H264RtpReassembler) (added : Bytes) :
    H264RtpReassembler × List FrameReady → Prop where
  | pending (after : H264RtpReassembler) (hframe : after.frame = s.frame ++ added) :
      Adds s added (after, [])
  | emitted (after : H264RtpReassembler) (streamName : QString) (hframe : after.frame = [])
      (hne : s.frame ++ added ≠ []) : Adds s added (after, [(streamName, s.frame ++ added)])

variable {run : Delivery} {s : H264RtpReassembler} {streamName : QString} {seq : UInt16}
  {timestamp ssrc : UInt32}

theorem adds_flush {t : H264RtpReassembler} {added : Bytes} (streamName : QString)
    (hframe : t.frame = s.frame ++ added) (marker : Bool) :
    Adds s added (flush t streamName marker) := by
  unfold flush
  split
  · rename_i hemits
    rw [hframe]
    refine .emitted _ streamName rfl ?_
    rw [Bool.and_eq_true, Bool.not_eq_true', hframe] at hemits
    exact List.isEmpty_eq_false_iff.1 hemits.2
  · exact .pending t hframe

theorem adds_reset (s : H264RtpReassembler) : Adds s [] (resetFu s, []) :=
  .pending _ (List.append_nil _).symm

/-- Emitting twice emits once. -/
theorem adds_flush_twice {t : H264RtpReassembler} {added : Bytes} (streamName : QString)
    (hframe : t.frame = s.frame ++ added) (marker : Bool) :
    let (middle, first) := flush t streamName marker
    let (after, second) := flush middle streamName marker
    Adds s added (after, first ++ second) := by
  have hadds := adds_flush streamName hframe marker
  by_cases hemits : (marker && !t.frame.isEmpty) = true
  · have hflush : flush t streamName marker = ({ t with frame := [] }, [(streamName, t.frame)]) :=
      if_pos hemits
    have hagain :
        flush { t with frame := [] } streamName marker = ({ t with frame := [] }, []) := by
      simp [flush]
    rw [hflush] at hadds ⊢
    simpa only [hagain, List.append_nil] using hadds
  · have hflush : flush t streamName marker = (t, []) := if_neg hemits
    rw [hflush] at hadds ⊢
    simpa only [hflush, List.append_nil] using hadds

/-- An unfragmented unit is added. -/
theorem adds_single (s : H264RtpReassembler) (streamName : QString) (pkt : RtpPacket)
    (nalType : UInt8) :
    Adds s (annexB pkt.payload) (processSingle s streamName pkt nalType) := by
  have hframe : (if s.fuStarted then resetFu s else s).frame = s.frame := by
    split <;> rfl
  refine adds_flush_twice (t := { checkAndSaveSpsPps (if s.fuStarted then resetFu s else s) nalType
    (annexB pkt.payload) with frame := _ }) streamName ?_ pkt.marker
  rw [check_and_save_frame, hframe]

/-- A start fragment adds nothing. -/
theorem adds_start (pkt : RtpPacket) (nalHeader : UInt8) (data : Bytes) :
    Adds s [] (processFuStart s streamName pkt nalHeader data) := by
  unfold processFuStart
  split
  · exact adds_reset s
  · refine adds_flush streamName ?_ _
    split <;> simp [resetFu]

/-- The NAL units were sent under this timestamp. -/
def Delivery.SentUnder (run : Delivery) (timestamp : UInt32) (nalus : List Bytes) : Prop :=
  ∀ nalu ∈ nalus, (timestamp, nalu) ∈ run.nalus

theorem sent_under_nil (run : Delivery) (timestamp : UInt32) : run.SentUnder timestamp [] := by
  simp [Delivery.SentUnder]

/-- Completing the unit of an end fragment adds it, or nothing. -/
theorem finish_adds {t : H264RtpReassembler} (hfu : run.FuFaithful t)
    {header : UInt8} {data : Bytes}
    (hgot : run.GotUnder seq timestamp (.fragment header false true data)) (nalType : UInt8) :
    ∃ nalus, run.SentUnder timestamp nalus ∧
      (finishFu t seq nalType).frame = t.frame ++ (nalus.map annexB).flatten := by
  cases hcomplete : isFuComplete t seq with
  | false => exact ⟨[], sent_under_nil run timestamp, by simp [finishFu, resetFu, hcomplete]⟩
  | true =>
      obtain ⟨sent, nalu, packets, hflatten, hmem, -, -, htime⟩ :=
        complete_unit hfu ⟨header, data, hgot.got_seq⟩ hcomplete
      obtain rfl := htime timestamp _ hgot
      refine ⟨[nalu], List.forall_mem_singleton.2 hmem, ?_⟩
      simp [finishFu, resetFu, hcomplete, hflatten]

/-- The result adds NAL units that were sent under this timestamp. -/
def Delivery.AddsUnder (run : Delivery) (timestamp : UInt32) (s : H264RtpReassembler)
    (result : H264RtpReassembler × List FrameReady) : Prop :=
  ∃ nalus, run.SentUnder timestamp nalus ∧ Adds s (nalus.map annexB).flatten result

theorem adds_nothing {result : H264RtpReassembler × List FrameReady} (hadds : Adds s [] result) :
    run.AddsUnder timestamp s result :=
  ⟨[], sent_under_nil run timestamp, hadds⟩

theorem adds_ite {p : Prop} [Decidable p] {first second : H264RtpReassembler × List FrameReady}
    (hfirst : run.AddsUnder timestamp s first) (hsecond : run.AddsUnder timestamp s second) :
    run.AddsUnder timestamp s (if p then first else second) := by
  split
  · exact hfirst
  · exact hsecond

/-- A later fragment adds the unit that it completes, which was sent under its timestamp. -/
theorem adds_next {nalHeader : UInt8} {isLast : Bool} {data : Bytes} (h : run.Faithful s)
    (hstarted : s.fuStarted = true)
    (hgot : run.GotUnder seq timestamp (.fragment nalHeader false isLast data))
    (nalType : UInt8) :
    run.AddsUnder timestamp s (processFuNext s streamName
      (parsedPart seq timestamp ssrc (.fragment nalHeader false isLast data)) isLast nalType
      data) := by
  have hinsert := insert_faithful (h.fragments hstarted) hgot.got_seq
  have hcollected (expected : UInt16) :
      let t := { s with
        fuBuffer := s.fuBuffer.insert seq ⟨seq, data⟩
        fuExpectedSeq := expected }
      run.AddsUnder timestamp s
        (if t.fuBuffer.size > maxFuBufferSize then (resetFu t, [])
        else flush (if isLast then finishFu t seq nalType else t) streamName isLast) := by
    intro t
    refine adds_ite (adds_nothing (.pending _ (List.append_nil _).symm)) ?_
    cases isLast with
    | false =>
        exact adds_nothing (adds_flush (s := s) (t := t) streamName (List.append_nil _).symm _)
    | true =>
        obtain ⟨nalus, hsent, hframe⟩ := finish_adds (hinsert expected) hgot nalType
        exact ⟨nalus, hsent, adds_flush (s := s) (t := finishFu t seq nalType) streamName hframe _⟩
  simp only [processFuNext, parsedPart, Part.marker]
  refine adds_ite (adds_nothing (.pending s (List.append_nil _).symm)) ?_
  refine adds_ite (adds_nothing (adds_reset s)) ?_
  by_cases hexpected : seq ≥ s.fuExpectedSeq
  · simpa [hexpected] using hcollected (seq + 1)
  · simpa [hexpected] using hcollected s.fuExpectedSeq

/-- Every branch of `_processRtpNalu` adds units of the packet's timestamp only. -/
theorem adds_part (streamName : QString) (ssrc : UInt32) {part : Part} (h : run.Faithful s)
    (hgot : run.GotUnder seq timestamp part) :
    run.AddsUnder timestamp s
      (processRtpNalu s streamName (parsedPart seq timestamp ssrc part)) := by
  have hvalid := got_valid hgot.got_seq
  cases part with
  | single nalu =>
      cases nalu with
      | nil => exact absurd rfl (ValidNalu.ne_nil hvalid)
      | cons nalHeader payload =>
          have hheader : ValidHeader nalHeader := hvalid
          rw [process_single hheader]
          refine ⟨[nalHeader :: payload], List.forall_mem_singleton.2 (single_unit hgot).1, ?_⟩
          simpa [parsedPart, Part.payload] using adds_single s streamName
            (parsedPart seq timestamp ssrc (.single (nalHeader :: payload))) (nalHeader &&& 0x1F)
  | fragment nalHeader isStart isLast data =>
      rw [process_fragment hvalid]
      cases isStart with
      | true => exact adds_nothing (adds_start _ _ _)
      | false =>
          by_cases hstarted : s.fuStarted = true
          · simpa [hstarted] using adds_next h hstarted hgot (nalHeader &&& 0x1F)
          · refine adds_nothing ?_
            simpa [hstarted] using adds_flush streamName (List.append_nil s.frame).symm isLast

/-! ## Runs -/

/-- The bytes are NAL units sent under this timestamp. -/
def Delivery.FrameUnder (run : Delivery) (timestamp : UInt32) (bytes : Bytes) : Prop :=
  ∃ nalus, run.SentUnder timestamp nalus ∧ bytes = (nalus.map annexB).flatten

/-- The receiver's invariant: the pending frame belongs to the timestamp of the last packet. -/
structure Delivery.Separated (run : Delivery) (o : Observed) : Prop where
  faithful : run.Faithful o.state
  frame : run.FrameUnder o.timestamp o.state.frame

/-- A frame handed on: it is not empty, and its units have one timestamp. -/
def Delivery.Unmixed (run : Delivery) (frame : Bytes) : Prop :=
  frame ≠ [] ∧ ∃ timestamp, run.FrameUnder timestamp frame

theorem frame_under_nil (run : Delivery) (timestamp : UInt32) : run.FrameUnder timestamp [] :=
  ⟨[], sent_under_nil run timestamp, rfl⟩

/-- What a result that adds units of the timestamp leaves pending and hands on. -/
theorem adds_under {nalus : List Bytes} {result : H264RtpReassembler × List FrameReady}
    (hframe : run.FrameUnder timestamp s.frame) (hsent : run.SentUnder timestamp nalus)
    (hadds : Adds s (nalus.map annexB).flatten result) :
    run.FrameUnder timestamp result.1.frame ∧ ∀ frame ∈ result.2, run.Unmixed frame.2 := by
  have hgrown : run.FrameUnder timestamp (s.frame ++ (nalus.map annexB).flatten) := by
    obtain ⟨before, hbefore, heq⟩ := hframe
    refine ⟨before ++ nalus, List.forall_mem_append.2 ⟨hbefore, hsent⟩, ?_⟩
    rw [heq, List.map_append, List.flatten_append]
  cases hadds with
  | pending after heq => exact ⟨heq ▸ hgrown, by simp⟩
  | emitted after streamName heq hne =>
      refine ⟨heq ▸ frame_under_nil run timestamp, ?_⟩
      exact List.forall_mem_singleton.2 ⟨hne, timestamp, hgrown⟩

/-- A packet that opens cleanly finds nothing pending but units of its own timestamp. -/
theorem opens_under {o : Observed} {pkt : RtpPacket} (h : run.Separated o)
    (hopens : pkt.timestamp = o.timestamp ∨ o.state.frame = [] ∨
      isLargeGap o.state pkt.seq = true) :
    run.FrameUnder pkt.timestamp (if isLargeGap o.state pkt.seq then
      resetFu { o.state with frame := [] } else o.state).frame := by
  split
  · exact frame_under_nil run _
  · rename_i hgap
    rcases hopens with hsame | hempty | hlarge
    · exact hsame ▸ h.frame
    · exact hempty ▸ frame_under_nil run _
    · exact absurd hlarge hgap

/-- The packet of a part is passed on, or dropped without a trace. -/
theorem handle_part (s : H264RtpReassembler) (streamName : QString) (seq : UInt16)
    (timestamp ssrc : UInt32) (part : Part) :
    let pkt := parsedPart seq timestamp ssrc part
    handleRtp s (streamName, packetOf seq timestamp ssrc part) =
        .ok (if pkt.payload = [] ∨ isDuplicate s pkt.seq then (s, [])
          else process s streamName pkt) ∧
      passedOn s (streamName, packetOf seq timestamp ssrc part) =
        if pkt.payload = [] ∨ isDuplicate s pkt.seq then none else some pkt := by
  have hparse : parseRtp (streamName, packetOf seq timestamp ssrc part).2 =
      .ok (parsedPart seq timestamp ssrc part) := parse_packetOf seq timestamp ssrc part
  exact ⟨handle_rtp_eq hparse, passed_on_eq hparse⟩

/-- One guarded call. -/
theorem separated_call (streamName : QString) (ssrc : UInt32) {o : Observed} {part : Part}
    (h : run.Separated o) (hgot : run.GotUnder seq timestamp part)
    (hclean : OpensClean o (streamName, packetOf seq timestamp ssrc part)) :
    ∃ following frames,
      observe o (streamName, packetOf seq timestamp ssrc part) = .ok (following, frames) ∧
      handleRtp o.state (streamName, packetOf seq timestamp ssrc part) =
        .ok (following.state, frames) ∧
      run.Separated following ∧ ∀ frame ∈ frames, run.Unmixed frame.2 := by
  obtain ⟨hhandle, hpassed⟩ := handle_part o.state streamName seq timestamp ssrc part
  refine ⟨_, _, by rw [observe, hhandle]; rfl, hhandle, ?_⟩
  by_cases hdropped : (parsedPart seq timestamp ssrc part).payload = [] ∨
      isDuplicate o.state (parsedPart seq timestamp ssrc part).seq
  · rw [hpassed, if_pos hdropped, if_pos hdropped]
    exact ⟨h, by simp⟩
  · rw [if_neg hdropped] at hpassed
    rw [hpassed, if_neg hdropped]
    -- the gap test, then the branch of the packet
    have hstate : run.Faithful
        (if isLargeGap o.state seq then resetFu { o.state with frame := [] } else o.state) :=
      gap_faithful h.faithful seq
    have hframe : run.FrameUnder timestamp
        (if isLargeGap o.state seq then resetFu { o.state with frame := [] } else o.state).frame :=
      opens_under h (hclean _ hpassed)
    obtain ⟨hafter, -⟩ := sound_part streamName timestamp ssrc hstate hgot.got_seq
    obtain ⟨nalus, hsent, hadds⟩ := adds_part streamName ssrc hstate hgot
    exact ⟨⟨⟨hafter.frame, fun hstarted => (hafter.fragments hstarted).of_eq rfl rfl⟩,
      (adds_under hframe hsent hadds).1⟩, (adds_under hframe hsent hadds).2⟩

/-- Every guarded run, from any state with the invariant. -/
theorem separated_run (run : Delivery) {o : Observed} {calls : List (QString × Bytes)}
    (hcalls : ∀ call ∈ calls, call.2 ∈ run.received) (h : run.Separated o)
    (hclean : Machine.Guarded observe OpensClean o calls) :
    ∃ final frames, feed o.state calls = .ok (final, frames) ∧
      ∀ frame ∈ frames, run.Unmixed frame.2 := by
  induction calls generalizing o with
  | nil => exact ⟨o.state, [], rfl, by simp⟩
  | cons call rest ih =>
      obtain ⟨streamName, packet⟩ := call
      obtain ⟨hreceived, hrest⟩ := List.forall_mem_cons.1 hcalls
      obtain ⟨hopens, hlater⟩ := hclean
      obtain ⟨seq, timestamp, part, hgot, rfl⟩ := received_got hreceived
      obtain ⟨following, frames, hobserve, hhandle, hfollowing, hframes⟩ :=
        separated_call streamName run.session.rtpSsrc h hgot hopens
      obtain ⟨final, later, hfeed, hmore⟩ := ih hrest hfollowing (hlater _ _ hobserve)
      exact ⟨final, frames ++ later, Machine.run_cons_ok hhandle hfeed,
        List.forall_mem_append.2 ⟨hframes, hmore⟩⟩

/-- With increasing timestamps, units of one timestamp are units of one access unit. -/
theorem one_unit_of_unmixed {units : List AccessUnit}
    (hincreasing : units.Pairwise fun first second => first.timestamp < second.timestamp)
    (hnalus : run.nalus = nalusOf units) {frame : Bytes} (h : run.Unmixed frame) :
    OneUnit units frame := by
  obtain ⟨hne, timestamp, nalus, hsent, rfl⟩ := h
  have hunit (nalu : Bytes) (hmem : nalu ∈ nalus) :
      ∃ unit ∈ units, unit.timestamp = timestamp ∧ nalu ∈ unit.nalus := by
    have hitem := hsent nalu hmem
    rw [hnalus, nalusOf, List.mem_flatMap] at hitem
    obtain ⟨unit, hunit, hitem⟩ := hitem
    obtain ⟨found, hfound, heq⟩ := List.mem_map.1 hitem
    cases heq
    exact ⟨unit, hunit, rfl, hfound⟩
  cases nalus with
  | nil => exact absurd rfl hne
  | cons nalu rest =>
      obtain ⟨unit, hmem, htime, -⟩ := hunit nalu List.mem_cons_self
      refine ⟨unit, hmem, nalu :: rest, fun other hother => ?_, rfl⟩
      obtain ⟨found, hfound, hsame, hin⟩ := hunit other hother
      have hunique : ∀ first ∈ units, ∀ second ∈ units,
          first.timestamp = second.timestamp → first = second :=
        List.Pairwise.forall_of_forall_of_flip (fun _ _ _ => rfl)
          (hincreasing.imp fun hlt heq => absurd heq (UInt32.ne_of_lt hlt))
          (hincreasing.imp fun hlt heq => absurd heq.symm (UInt32.ne_of_lt hlt))
      exact hunique found hfound unit hmem (hsame.trans htime.symm) ▸ hin

/-- Access units with increasing timestamps and fewer than 2^16 packets, delivered in order with any
loss to a fresh reassembler: if no frame is pending whenever a packet of another timestamp is
passed on, or the gap test clears it, every frame emitted holds NAL units of one access unit. -/
theorem frames_of_one_unit (session : RtspSession) (streamName : QString)
    (units : List AccessUnit)
    (hincreasing : units.Pairwise fun first second => first.timestamp < second.timestamp)
    (hvalid : ∀ unit ∈ units, ∀ nalu ∈ unit.nalus, ValidNalu nalu)
    (hshort : (sendNalus session (nalusOf units)).2.length < 65536) (delivered : List Bytes)
    (hdelivered : delivered.Sublist (sendNalus session (nalusOf units)).2)
    (hclean : Machine.Guarded observe OpensClean {} (callsFor streamName delivered)) :
    ∃ final frames, feed fresh (callsFor streamName delivered) = .ok (final, frames) ∧
      ∀ frame ∈ frames, OneUnit units frame.2 := by
  let run : Delivery := {
    session := session
    nalus := nalusOf units
    received := delivered
    valid := by
      intro nalu hnalu
      obtain ⟨unit, hunit, hitem⟩ := List.mem_flatMap.1 hnalu
      obtain ⟨found, hfound, rfl⟩ := List.mem_map.1 hitem
      exact hvalid unit hunit found hfound
    short := by rwa [send_nalus_eq, length_wire] at hshort
    drawn := fun packet hmem => hdelivered.subset hmem }
  obtain ⟨final, frames, hfeed, hframes⟩ := separated_run run (o := {})
    (fun call hcall => by
      obtain ⟨packet, hpacket, rfl⟩ := List.mem_map.1 hcall
      exact hpacket)
    ⟨⟨genuine_nil run, fun hstarted => by cases hstarted⟩, frame_under_nil run 0⟩ hclean
  exact ⟨final, frames, hfeed, fun frame hmem =>
    one_unit_of_unmixed hincreasing rfl (hframes frame hmem)⟩

/-- At an unfragmented unit the guard is what keeps the timestamps apart: when it fails, the unit
joins the pending bytes of another timestamp. -/
theorem unclean_single_mixes (streamName : QString) (ssrc : UInt32) {o : Observed} {nalu : Bytes}
    (hvalid : ValidNalu nalu)
    (hunclean : ¬ OpensClean o (streamName, packetOf seq timestamp ssrc (.single nalu))) :
    timestamp ≠ o.timestamp ∧ o.state.frame ≠ [] ∧ ∃ after frames,
      handleRtp o.state (streamName, packetOf seq timestamp ssrc (.single nalu)) =
        .ok (after, frames) ∧ Adds o.state (annexB nalu) (after, frames) := by
  obtain ⟨hhandle, hpassed⟩ := handle_part o.state streamName seq timestamp ssrc (.single nalu)
  by_cases hdropped : (parsedPart seq timestamp ssrc (.single nalu)).payload = [] ∨
      isDuplicate o.state (parsedPart seq timestamp ssrc (.single nalu)).seq
  · rw [if_pos hdropped] at hpassed
    exact absurd (fun pkt hpkt => by rw [hpassed] at hpkt; cases hpkt) hunclean
  · rw [if_neg hdropped] at hpassed hhandle
    have hopens : ¬ (timestamp = o.timestamp ∨ o.state.frame = [] ∨
        isLargeGap o.state seq = true) := by
      intro hopens
      refine hunclean fun pkt hpkt => ?_
      rw [hpassed] at hpkt
      cases hpkt
      exact hopens
    rw [not_or, not_or] at hopens
    have hadds : Adds o.state (annexB nalu)
        (process o.state streamName (parsedPart seq timestamp ssrc (.single nalu))) := by
      have hsmall : isLargeGap o.state (parsedPart seq timestamp ssrc (.single nalu)).seq = false :=
        Bool.eq_false_iff.2 hopens.2.2
      cases nalu with
      | nil => exact absurd rfl hvalid.ne_nil
      | cons nalHeader payload =>
          have hheader : ValidHeader nalHeader := hvalid
          simp only [process, hsmall, Bool.false_eq_true, if_false]
          rw [process_single hheader]
          have hsingle := adds_single o.state streamName
            (parsedPart seq timestamp ssrc (.single (nalHeader :: payload))) (nalHeader &&& 0x1F)
          generalize processSingle o.state streamName _ _ = result at hsingle ⊢
          cases hsingle with
          | pending after hframe => exact .pending _ hframe
          | emitted after name hframe hne => exact .emitted _ name hframe hne
    exact ⟨hopens.1, hopens.2.1, _, _, hhandle, hadds⟩

/-- A parameter set and a slice, and then a slice under the next timestamp. -/
def twoPictures : List AccessUnit :=
  [⟨0, [[0x67, 0x42], [0x65, 0x88]]⟩, ⟨3000, [[0x41, 0x9A]]⟩]

/-- Without loss the two pictures are two frames. -/
theorem frames_of_one_unit_lossless :
    ∃ final frames,
      feed fresh (callsFor "cam" (sendNalus ⟨1, 0, "udp", 0⟩ (nalusOf twoPictures)).2) =
          .ok (final, frames) ∧
      ∀ frame ∈ frames, OneUnit twoPictures frame.2 :=
  frames_of_one_unit ⟨1, 0, "udp", 0⟩ "cam" twoPictures (by decide) (by decide) (by decide) _
    (List.Sublist.refl _) (Machine.guarded_of_check (fun _ _ => of_decide_eq_true) (by decide))

/-- When the marked slice of the first picture is lost, its parameter set is emitted with the slice
of the second. -/
theorem frame_mixes_units :
    ∃ delivered, delivered.Sublist (sendNalus ⟨1, 0, "udp", 0⟩ (nalusOf twoPictures)).2 ∧
      ∃ final frame, feed fresh (callsFor "cam" delivered) = .ok (final, [frame]) ∧
        ¬ OneUnit twoPictures frame.2 := by
  refine ⟨[packetOf 1 0 0 (.single [0x67, 0x42]), packetOf 3 3000 0 (.single [0x41, 0x9A])],
    by decide, _, ("cam", annexB [0x67, 0x42] ++ annexB [0x41, 0x9A]), rfl, ?_⟩
  intro hone
  obtain ⟨unit, hunit, nalus, hnalus, heq⟩ := hone
  have hshort : ∀ unit ∈ twoPictures, ∀ nalu ∈ unit.nalus, nalu.length = 2 := by decide
  have hapart : ∀ unit ∈ twoPictures, [0x67, 0x42] ∈ unit.nalus → [0x41, 0x9A] ∉ unit.nalus := by
    decide
  -- the two pieces of the frame are the first two units, and no access unit has both
  cases nalus with
  | nil => cases heq
  | cons first rest =>
      obtain ⟨hfirst, hrest⟩ := List.forall_mem_cons.1 hnalus
      rw [List.map_cons, List.flatten_cons] at heq
      have hfirstLength := hshort unit hunit first hfirst
      obtain ⟨hhead, htail⟩ := List.append_inj heq (by simp [annexB, hfirstLength])
      obtain rfl := List.append_cancel_left hhead
      cases rest with
      | nil => cases htail
      | cons second later =>
          have hsecond := hrest second List.mem_cons_self
          have hsecondLength := hshort unit hunit second hsecond
          rw [List.map_cons, List.flatten_cons, ← List.append_nil (annexB [0x41, 0x9A])] at htail
          have hnext := (List.append_inj htail (by simp [annexB, hsecondLength])).1
          obtain rfl := List.append_cancel_left hnext
          exact hapart unit hunit hfirst hsecond

end CarDetect.Stream
