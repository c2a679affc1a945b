import CarDetect.Camera.Transcript
import CarDetect.Stream.Delivery

/-!
# Several streams through one reassembler

The client hands the packets of every camera to one reassembler. `handle_names` says that a frame
is emitted under the name of the call that emits it; nothing else in the reassembler's state is
kept by name. `Undisturbed` says that a stream's frames are those of its own packets, and
`undisturbed_of_dropped` proves it for the runs in which packets of another stream are dropped
as duplicates while the stream is still being received.
-/

namespace CarDetect.Stream

open BigEndian Camera Qt

variable {s : H264RtpReassembler} {streamName : QString}

/-! ## Frames carry the name of their call -/

theorem flush_names {marker : Bool} {frame : FrameReady}
    (h : frame ∈ (flush s streamName marker).2) : frame.1 = streamName := by
  unfold flush at h
  split at h
  · cases List.mem_singleton.1 h
    rfl
  · cases h

theorem process_single_names {pkt : RtpPacket} {nalType : UInt8} {frame : FrameReady}
    (h : frame ∈ (processSingle s streamName pkt nalType).2) : frame.1 = streamName := by
  rcases List.mem_append.1 h with h | h
  · exact flush_names h
  · exact flush_names h

theorem process_fu_start_names {pkt : RtpPacket} {nalHeader : UInt8} {data : Bytes}
    {frame : FrameReady} (h : frame ∈ (processFuStart s streamName pkt nalHeader data).2) :
    frame.1 = streamName := by
  unfold processFuStart at h
  split at h
  · cases h
  · exact flush_names h

theorem process_fu_next_names {pkt : RtpPacket} {isFuEnd : Bool} {nalType : UInt8} {data : Bytes}
    {frame : FrameReady} (h : frame ∈ (processFuNext s streamName pkt isFuEnd nalType data).2) :
    frame.1 = streamName := by
  simp only [processFuNext] at h
  split at h
  · cases h
  split at h
  · cases h
  -- whether or not the expected number advances
  split at h
  all_goals
    split at h
    · cases h
    · exact flush_names h

theorem process_fu_a_names {pkt : RtpPacket} {fuIndicator : UInt8} {rest : Bytes}
    {frame : FrameReady} (h : frame ∈ (processFuA s streamName pkt fuIndicator rest).2) :
    frame.1 = streamName := by
  unfold processFuA at h
  split at h
  · cases h
  · simp only at h
    split at h
    · cases h
    split at h
    · exact process_fu_start_names h
    split at h
    · exact process_fu_next_names h
    · exact flush_names h

theorem process_names {pkt : RtpPacket} {frame : FrameReady}
    (h : frame ∈ (processRtpNalu s streamName pkt).2) : frame.1 = streamName := by
  unfold processRtpNalu at h
  split at h
  · cases h
  · simp only at h
    split at h
    · exact process_single_names h
    split at h
    · exact process_fu_a_names h
    · exact flush_names h

theorem handle_parsed_names {pkt : RtpPacket} {frame : FrameReady}
    (h : frame ∈ (handleParsed s streamName pkt).2) : frame.1 = streamName := by
  unfold handleParsed at h
  split at h
  · cases h
  split at h
  · cases h
  · exact process_names h

/-- A frame is emitted under the name of the call that emits it. -/
theorem handle_names {call : QString × Bytes} {following : H264RtpReassembler}
    {frames : List FrameReady} (hstep : handleRtp s call = .ok (following, frames))
    {frame : FrameReady} (h : frame ∈ frames) : frame.1 = call.1 := by
  unfold handleRtp at hstep
  split at hstep
  · cases hstep
    cases h
  · split at hstep
    · cases hstep
    · rename_i pkt hparse
      have hresult := Except.ok.inj hstep
      rw [← (Prod.mk.inj hresult).2] at h
      exact handle_parsed_names h

/-! ## Dropped packets -/

/-- The packet is dropped before it reaches the shared state: it has no payload, or its number
counts as a duplicate in the current state. -/
def Dropped (s : H264RtpReassembler) (packet : Bytes) : Prop :=
  ∃ pkt, parseRtp packet = .ok pkt ∧ (pkt.payload = [] ∨ isDuplicate s pkt.seq = true)

theorem handle_dropped {call : QString × Bytes} (h : Dropped s call.2) :
    handleRtp s call = .ok (s, []) := by
  obtain ⟨pkt, hparse, hdrop⟩ := h
  rw [handle_rtp_eq hparse, if_pos hdrop]

/-- Any other packet, of whichever stream, becomes the last one seen. -/
theorem handle_undropped {call : QString × Bytes} {pkt : RtpPacket}
    (hparse : parseRtp call.2 = .ok pkt) (h : ¬ Dropped s call.2) :
    ∃ following frames, handleRtp s call = .ok (following, frames) ∧
      following.lastSeq = pkt.seq := by
  have hkept : ¬ (pkt.payload = [] ∨ isDuplicate s pkt.seq = true) :=
    fun hdrop => h ⟨pkt, hparse, hdrop⟩
  rw [handle_rtp_eq hparse, if_neg hkept]
  exact ⟨_, _, rfl, rfl⟩

/-- In the run from this state, a packet of another stream is dropped, or the stream `name` has
no packets left. -/
def ForeignDropped (name : QString) : H264RtpReassembler → List (QString × Bytes) → Prop
  | _, [] => True
  | s, call :: rest =>
      (call.1 = name ∨ Dropped s call.2 ∨ ∀ later ∈ rest, later.1 ≠ name) ∧
        ∀ following frames, handleRtp s call = .ok (following, frames) →
          ForeignDropped name following rest

theorem foreign_dropped_cons {name : QString} {call : QString × Bytes}
    {rest : List (QString × Bytes)} {following : H264RtpReassembler} {frames : List FrameReady}
    (hcall : call.1 = name ∨ Dropped s call.2 ∨ ∀ later ∈ rest, later.1 ≠ name)
    (hstep : handleRtp s call = .ok (following, frames))
    (hrest : ForeignDropped name following rest) : ForeignDropped name s (call :: rest) := by
  refine ⟨hcall, fun following' frames' hstep' => ?_⟩
  rw [hstep] at hstep'
  cases hstep'
  exact hrest

theorem skips_of_dropped {name : QString} {calls : List (QString × Bytes)}
    (h : ForeignDropped name s calls) :
    Machine.Skips handleRtp (fun call => call.1 = name) s calls := by
  induction calls generalizing s with
  | nil => trivial
  | cons call rest ih =>
      obtain ⟨hcall, hrest⟩ := h
      refine ⟨?_, fun following frames hstep => ih (hrest following frames hstep)⟩
      rcases hcall with hown | hdropped | hlast
      · exact .inl hown
      · exact .inr (.inl (handle_dropped hdropped))
      · exact .inr (.inr hlast)

/-! ## Interleavings -/

/-- The calls interleave the packets of the stream `name` with those of the stream `other`. -/
structure Interleaves (name other : QString) (packets otherPackets : List Bytes)
    (calls : List (QString × Bytes)) : Prop where
  own : calls.filter (fun call => call.1 = name) = callsFor name packets
  foreign : calls.filter (fun call => ¬ call.1 = name) = callsFor other otherPackets

/-- The frames a fresh reassembler emits under `name` are those it emits when it receives the
packets of `name` alone. -/
def Undisturbed (name : QString) (calls : List (QString × Bytes)) : Prop :=
  ∃ final frames alone,
    feed fresh calls = .ok (final, frames) ∧
    feed fresh (calls.filter fun call => call.1 = name) =
      .ok (alone, frames.filter fun frame => frame.1 = name)

/-- Packets of a camera are never too short for the parser. -/
theorem sent_total {session : RtspSession} {nalus : List (UInt32 × Bytes)} {call : QString × Bytes}
    (s : H264RtpReassembler) (h : call.2 ∈ (sendNalus session nalus).2) :
    ∃ result, handleRtp s call = .ok result := by
  rw [send_nalus_eq] at h
  obtain ⟨i, timestamp, part, -, hpacket⟩ := mem_wire h
  have hstep := handle_packetOf s call.1 (session.rtpSeq + UInt16.ofNat i) timestamp
    session.rtpSsrc part
  rw [← hpacket] at hstep
  exact ⟨_, hstep⟩

/-- Two cameras' packets in any interleaving: the frames of one are those of its packets alone
when every packet of the other that arrives before its last one is dropped as it arrives. -/
theorem undisturbed_of_dropped (name other : QString) (session otherSession : RtspSession)
    (nalus otherNalus : List (UInt32 × Bytes)) (calls : List (QString × Bytes))
    (hcalls : Interleaves name other (sendNalus session nalus).2
      (sendNalus otherSession otherNalus).2 calls)
    (hdropped : ForeignDropped name fresh calls) : Undisturbed name calls := by
  have hsent : ∀ call ∈ calls, call.2 ∈ (sendNalus session nalus).2 ∨
      call.2 ∈ (sendNalus otherSession otherNalus).2 := by
    intro call hcall
    by_cases hown : call.1 = name
    · have hmem : call ∈ calls.filter (fun call => call.1 = name) :=
        List.mem_filter.2 ⟨hcall, by simpa using hown⟩
      rw [hcalls.own] at hmem
      obtain ⟨packet, hpacket, rfl⟩ := List.mem_map.1 hmem
      exact .inl hpacket
    · have hmem : call ∈ calls.filter (fun call => ¬ call.1 = name) :=
        List.mem_filter.2 ⟨hcall, by simpa using hown⟩
      rw [hcalls.foreign] at hmem
      obtain ⟨packet, hpacket, rfl⟩ := List.mem_map.1 hmem
      exact .inr hpacket
  obtain ⟨⟨final, frames⟩, hrun⟩ : ∃ result, feed fresh calls = .ok result :=
    Machine.run_total _ (fun s call hcall => hcall.elim (sent_total s) (sent_total s)) hsent
  obtain ⟨alone, halone⟩ := Machine.run_filter (fun frame => frame.1 = name)
    (fun s call following frames hstep frame hframe => by rw [handle_names hstep hframe])
    (skips_of_dropped hdropped) hrun
  exact ⟨final, frames, alone, hrun, halone⟩

/-- The second stream's packet 2 arrives between packets 1 and 2 of the first. -/
def crossedCalls : List (QString × Bytes) :=
  [("a", packetOf 1 0 0 (.single [0x67, 0x42])), ("b", packetOf 2 0 0 (.single [0x65, 0x99])),
    ("a", packetOf 2 0 0 (.single [0x65, 0x88]))]

theorem undisturbed_fails_crossed :
    Interleaves "a" "b"
        (sendNalus ⟨1, 0, "udp", 0⟩ [(0, [0x67, 0x42]), (0, [0x65, 0x88])]).2
        (sendNalus ⟨2, 0, "udp", 0⟩ [(0, [0x65, 0x99])]).2 crossedCalls ∧
      ¬ Undisturbed "a" crossedCalls := by
  refine ⟨⟨by decide, by decide⟩, ?_⟩
  rintro ⟨final, frames, alone, hfeed, halone⟩
  have hframes : (feed fresh crossedCalls).toOption.map Prod.snd =
      some [("b", [0, 0, 0, 1, 0x67, 0x42, 0, 0, 0, 1, 0x65, 0x99])] := by decide
  have hexpected :
      (feed fresh (crossedCalls.filter fun call => call.1 = "a")).toOption.map Prod.snd =
      some [("a", [0, 0, 0, 1, 0x67, 0x42, 0, 0, 0, 1, 0x65, 0x88])] := by decide
  rw [hfeed] at hframes
  rw [halone] at hexpected
  obtain rfl := Option.some.inj hframes
  cases hexpected

/-- A packet of the second stream that counts as a duplicate does no harm. -/
theorem undisturbed_duplicate_number :
    Undisturbed "a" [("a", packetOf 1 0 0 (.single [0x65, 0x42])),
      ("b", packetOf 1 0 0 (.single [0x65, 0x99])),
      ("a", packetOf 2 0 0 (.single [0x65, 0x88]))] := by
  refine undisturbed_of_dropped "a" "b" ⟨1, 0, "udp", 0⟩ ⟨1, 0, "udp", 0⟩
    [(0, [0x65, 0x42]), (0, [0x65, 0x88])] [(0, [0x65, 0x99])] _ ⟨by decide, by decide⟩ ?_
  refine foreign_dropped_cons (.inl rfl) (handle_packetOf _ _ _ _ _ _) ?_
  refine foreign_dropped_cons (.inr (.inl ⟨_, parse_packetOf _ _ _ _, .inr (by decide)⟩))
    (handle_packetOf _ _ _ _ _ _) ?_
  exact foreign_dropped_cons (.inl rfl) (handle_packetOf _ _ _ _ _ _) trivial

end CarDetect.Stream
