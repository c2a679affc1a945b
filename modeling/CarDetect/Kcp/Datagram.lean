import CarDetect.Kcp.Endpoint

/-!
# Datagrams

What `ikcp_flush` writes, `ikcp_input` reads: `input_wires` says that the input of the bytes of
segments is the input of the segments one after the other, and `flush_round_trip` that this is what
happens at the other end with every datagram of a flush.
-/

namespace CarDetect.Kcp

open BigEndian
open Camera (IKCP_OVERHEAD)

/-- A segment that `ikcp_input` accepts in a conversation. -/
structure Carried (conv : UInt32) (seg : IkcpSeg) : Prop where
  conv_eq : seg.conv = conv
  known : knownCommand seg.cmd.toUInt8 = true
  short : seg.data.length < 2 ^ 31

section Input

variable {state : InputState} {kcp : Ikcpcb} {segs : List IkcpSeg}

/-- The input of a segment that is not read from bytes. -/
def inputCarried (state : InputState) (seg : IkcpSeg) : InputState :=
  inputSegment state seg.header seg.data

theorem conv_inputSegment (state : InputState) (header : Header) (data : Bytes) :
    (inputSegment state header data).kcp.conv = state.kcp.conv := by
  unfold inputSegment inputCommand
  split
  · unfold inputAck
    split <;> rfl
  · split
    · unfold inputPush
      split <;> rfl
    · split <;> rfl

/-- The length of the data as the header has it. -/
theorem len_header {conv : UInt32} {seg : IkcpSeg} (hseg : Carried conv seg) :
    seg.header.len.toNat = seg.data.length := by
  have hshort := hseg.short
  show (UInt32.ofNat seg.data.length).toNat = _
  rw [UInt32.toNat_ofNat']
  omega

theorem headerError_carried {conv : UInt32} {seg : IkcpSeg} (hseg : Carried conv seg) {room : Nat}
    (hroom : seg.data.length ≤ room) : headerError conv seg.header room = none := by
  have hlen := len_header hseg
  have hshort := hseg.short
  have hpositive : ¬ seg.header.len.toInt32 < 0 := by
    have hbits : seg.header.len.toBitVec.toNat = seg.data.length := hlen
    rw [Int32.lt_iff_toInt_lt, Int32.toInt, UInt32.toBitVec_toInt32, BitVec.toInt_eq_toNat_cond,
      if_pos (by omega)]
    exact Int.not_lt.2 (Int.natCast_nonneg _)
  unfold headerError
  rw [if_neg (by rw [show seg.header.conv = conv from hseg.conv_eq]; simp), if_neg, if_neg]
  · rw [show seg.header.cmd = seg.cmd.toUInt8 from rfl, hseg.known]
    decide
  · rw [Bool.or_eq_true, decide_eq_true_iff, decide_eq_true_iff]
    rintro (h | h)
    · omega
    · exact hpositive h

/-- The first segment of a datagram and what is behind it. -/
theorem wire_parts {conv : UInt32} {seg : IkcpSeg} (hseg : Carried conv seg) (rest : Bytes) :
    decodeHeader (seg.wire ++ rest) = seg.header ∧ firstData (seg.wire ++ rest) = seg.data ∧
      behindFirst (seg.wire ++ rest) = rest := by
  have hheader : decodeHeader (seg.wire ++ rest) = seg.header := by
    rw [IkcpSeg.wire, List.append_assoc]
    exact header_encode _ _
  unfold firstData behindFirst
  rw [hheader, len_header hseg, IkcpSeg.wire, List.append_assoc, drop_header]
  exact ⟨rfl, List.take_left, List.drop_left⟩

/-- The loop of `ikcp_input` reads the segments that were written. -/
theorem inputLoop_wires {fuel : Nat} (hsegs : ∀ seg ∈ segs, Carried state.kcp.conv seg)
    (hfuel : (wires segs).length ≤ fuel) :
    inputLoop fuel state (wires segs) = .ok (segs.foldl inputCarried state) := by
  induction segs generalizing fuel state with
  | nil =>
      cases fuel with
      | zero => rfl
      | succ fuel => rfl
  | cons seg rest ih =>
      obtain ⟨hseg, hrest⟩ := List.forall_mem_cons.1 hsegs
      have hwires : wires (seg :: rest) = seg.wire ++ wires rest := by
        rw [wires, List.map_cons, List.flatten_cons, wires]
      have hlength : (wires (seg :: rest)).length =
          IKCP_OVERHEAD + seg.data.length + (wires rest).length := by
        rw [hwires, List.length_append, length_wire]
      have hoverhead : IKCP_OVERHEAD = 24 := rfl
      obtain ⟨hheader, hdata, hbehind⟩ := wire_parts hseg (wires rest)
      obtain ⟨fuel, rfl⟩ : ∃ less, fuel = less + 1 := ⟨fuel - 1, by omega⟩
      unfold inputLoop
      rw [if_neg (by omega), hlength, hwires, hheader, hdata, hbehind,
        headerError_carried hseg (by omega)]
      simp only []
      rw [ih]
      · rfl
      · intro other hother
        rw [conv_inputSegment]
        exact hrest other hother
      · omega

/-- The input of the bytes of segments. -/
theorem input_wires (hne : segs ≠ []) (hsegs : ∀ seg ∈ segs, Carried kcp.conv seg) :
    ikcpInput kcp (wires segs) =
      (0, inputEnd kcp.sndUna (segs.foldl inputCarried ⟨kcp, false, 0, 0⟩)) := by
  have hlong : ¬ (wires segs).length < IKCP_OVERHEAD := by
    cases segs with
    | nil => exact absurd rfl hne
    | cons seg rest =>
        rw [wires, List.map_cons, List.flatten_cons, List.length_append, length_wire]
        omega
  unfold ikcpInput
  rw [if_neg hlong, inputLoop_wires hsegs (Nat.le_refl _)]

/-- A datagram of another conversation changes nothing. -/
theorem input_stray {data : Bytes}
    (hstray : data.length < IKCP_OVERHEAD ∨ (decodeHeader data).conv ≠ kcp.conv) :
    ikcpInput kcp data = (-1, kcp) := by
  have hoverhead : IKCP_OVERHEAD = 24 := rfl
  unfold ikcpInput
  split
  · rfl
  · rename_i hlong
    have hconv := hstray.resolve_left hlong
    obtain ⟨fuel, hfuel⟩ : ∃ less, data.length = less + 1 := ⟨data.length - 1, by omega⟩
    have herror : headerError kcp.conv (decodeHeader data) (data.length - IKCP_OVERHEAD) =
        some (-1) := if_pos (bne_iff_ne.2 hconv)
    rw [hfuel]
    unfold inputLoop
    rw [if_neg hlong, herror]

end Input

/-! ## Flush and input -/

section RoundTrip

variable {kcp : Ikcpcb}

theorem filled_eq (kcp : Ikcpcb) : ∃ tsProbe probeWait, filled kcp = { kcp with
    acklist := [], tsProbe := tsProbe, probeWait := probeWait, probe := 0,
    toSender := (filled kcp).toSender } := by
  obtain ⟨tsProbe, probeWait, probe, heq, -⟩ := probed_eq kcp
  unfold filled
  rw [heq]
  exact ⟨_, _, rfl⟩

theorem filled_conv (kcp : Ikcpcb) : (filled kcp).conv = kcp.conv := by
  obtain ⟨_, _, hfilled⟩ := filled_eq kcp
  rw [hfilled]

theorem filled_mss (kcp : Ikcpcb) : (filled kcp).mss = kcp.mss := by
  obtain ⟨_, _, hfilled⟩ := filled_eq kcp
  rw [hfilled]

theorem filled_receiver (kcp : Ikcpcb) : (filled kcp).toReceiver = kcp.toReceiver := by
  obtain ⟨_, _, hfilled⟩ := filled_eq kcp
  rw [hfilled]

/-- What a flush sends: acknowledgements and probes without data, and segments of `snd_buf`. -/
theorem mem_controlSegments {seg : IkcpSeg} (h : seg ∈ controlSegments kcp) :
    seg.conv = kcp.conv ∧ seg.una = kcp.rcvNxt ∧ seg.data = [] ∧ seg.frg = 0 ∧
      (seg.cmd = IKCP_CMD_ACK ∧ (∃ ack ∈ kcp.acklist, seg.sn = ack.1 ∧ seg.ts = ack.2) ∨
        seg.cmd = IKCP_CMD_WASK ∨ seg.cmd = IKCP_CMD_WINS) := by
  have hlast : ∀ (acks : List (UInt32 × UInt32)) (seg : IkcpSeg),
      ((acks.map fun ack => { seg with sn := ack.1, ts := ack.2 }).getLastD seg).conv = seg.conv ∧
      ((acks.map fun ack => { seg with sn := ack.1, ts := ack.2 }).getLastD seg).una = seg.una ∧
      ((acks.map fun ack => { seg with sn := ack.1, ts := ack.2 }).getLastD seg).data =
        seg.data ∧
      ((acks.map fun ack => { seg with sn := ack.1, ts := ack.2 }).getLastD seg).frg =
        seg.frg := by
    intro acks seg
    rcases List.eq_nil_or_concat acks with rfl | ⟨front, last, rfl⟩
    · exact ⟨rfl, rfl, rfl, rfl⟩
    · rw [List.concat_eq_append, List.map_append, List.map_singleton, List.getLastD_concat]
      exact ⟨rfl, rfl, rfl, rfl⟩
  obtain ⟨hconv, huna, hdata, hfrg⟩ := hlast kcp.acklist (ackSegment kcp)
  unfold controlSegments at h
  rcases List.mem_append.1 h with h | h
  · rcases List.mem_append.1 h with h | h
    · obtain ⟨ack, hack, rfl⟩ := List.mem_map.1 h
      exact ⟨rfl, rfl, rfl, rfl, Or.inl ⟨rfl, ack, hack, rfl, rfl⟩⟩
    · split at h
      · rw [List.mem_singleton.1 h]
        exact ⟨hconv, huna, hdata, hfrg, Or.inr (Or.inl rfl)⟩
      · cases h
  · split at h
    · rw [List.mem_singleton.1 h]
      exact ⟨hconv, huna, hdata, hfrg, Or.inr (Or.inr rfl)⟩
    · cases h

theorem mem_dataSegments {seg : IkcpSeg} (h : seg ∈ dataSegments kcp) :
    seg ∈ (dataFlush kcp).passed ∧ seg.una = kcp.rcvNxt ∧
      ∃ other ∈ (filled kcp).sndBuf, seg.core = other.core := by
  obtain ⟨other, hother, hsent⟩ := List.mem_filterMap.1 h
  obtain ⟨why, hdue, rfl⟩ := Option.map_eq_some_iff.1 hsent
  have huna : (filled kcp).rcvNxt = kcp.rcvNxt :=
    congrArg Receiver.rcvNxt (filled_receiver kcp)
  refine ⟨?_, huna, other, hother, core_transmitted _ _ _⟩
  rw [dataFlush_passed]
  refine List.mem_map.2 ⟨other, hother, ?_⟩
  rw [processed, hdue]
  rfl

/-- Every segment of a flush is accepted by a block of the same conversation, and fits the MTU. -/
theorem flushed_carried (hkcp : Healthy kcp) {seg : IkcpSeg}
    (h : seg ∈ controlSegments kcp ++ dataSegments kcp) :
    Carried kcp.conv seg ∧ IKCP_OVERHEAD + seg.data.length ≤ kcp.mtu.toNat := by
  have hmss := hkcp.mss
  have hmtu := hkcp.mtu_lt
  rcases List.mem_append.1 h with h | h
  · obtain ⟨hconv, -, hdata, -, hcmd⟩ := mem_controlSegments h
    have hknown : knownCommand seg.cmd.toUInt8 = true := by
      rcases hcmd with ⟨hcmd, -⟩ | hcmd | hcmd <;> rw [hcmd] <;> decide
    rw [hdata]
    exact ⟨⟨hconv, hknown, by rw [hdata]; decide⟩, by rw [← hmss]; exact Nat.le_add_left _ _⟩
  · obtain ⟨-, -, other, hother, hcore⟩ := mem_dataSegments h
    have hfilled := healthy_filled hkcp
    obtain ⟨hconv, hcmd, -, -, hdata⟩ := core_fields hcore
    obtain ⟨hown, hpush⟩ := hfilled.own other hother
    have hsmall := (hfilled.buffered other hother).1
    rw [filled_conv] at hown
    rw [filled_mss] at hsmall
    rw [hdata]
    refine ⟨⟨hconv.trans hown, ?_, ?_⟩, ?_⟩
    · rw [hcmd, hpush]
      decide
    · rw [hdata]
      omega
    · omega

/-- The datagrams of a flush are its segments in their order, none of them is empty or larger than
the MTU, and a block of the same conversation takes every one of them whole. -/
theorem flush_groups (hkcp : Healthy kcp) (hupdated : kcp.updated = true) :
    ∃ groups : List (List IkcpSeg), groups.flatten = controlSegments kcp ++ dataSegments kcp ∧
      (ikcpFlush kcp).2 = groups.map wires ∧
      ∀ group ∈ groups, group ≠ [] ∧ (wires group).length ≤ kcp.mtu.toNat ∧
        ∀ peer : Ikcpcb, peer.conv = kcp.conv → ikcpInput peer (wires group) =
          (0, inputEnd peer.sndUna (group.foldl inputCarried ⟨peer, false, 0, 0⟩)) := by
  have hfits (seg : IkcpSeg) (hseg : seg ∈ controlSegments kcp ++ dataSegments kcp) :=
    (flushed_carried hkcp hseg).2
  obtain ⟨groups, hflatten, hsent, hgroups⟩ := pack_groups hfits
  refine ⟨groups, hflatten, (flush_sent kcp hupdated).trans hsent, fun group hgroup => ?_⟩
  obtain ⟨hne, hfits⟩ := hgroups group hgroup
  refine ⟨hne, hfits, fun peer hpeer => input_wires hne fun seg hseg => ?_⟩
  rw [hpeer]
  refine (flushed_carried hkcp ?_).1
  rw [← hflatten]
  exact List.mem_flatten_of_mem hgroup hseg

/-- What a block flushes after any calls, and what any block of its conversation does with it. -/
theorem flush_round_trip (config : Config) (conv : UInt32) (calls : List Call)
    (hupdated : (calls.foldl Call.apply (config.block conv)).updated = true) :
    ∃ groups : List (List IkcpSeg),
      groups.flatten = controlSegments (calls.foldl Call.apply (config.block conv)) ++
        dataSegments (calls.foldl Call.apply (config.block conv)) ∧
      (ikcpFlush (calls.foldl Call.apply (config.block conv))).2 = groups.map wires ∧
      ∀ group ∈ groups, group ≠ [] ∧ (wires group).length ≤ (config.block conv).mtu.toNat ∧
        ∀ peer : Ikcpcb, peer.conv = conv → ikcpInput peer (wires group) =
          (0, inputEnd peer.sndUna (group.foldl inputCarried ⟨peer, false, 0, 0⟩)) := by
  have hparameters := parameters_calls (config.block conv) calls
  have hconv : (calls.foldl Call.apply (config.block conv)).conv = conv :=
    (parameters_fields hparameters).1.trans (configured_fields config conv).1
  have hmtu : (calls.foldl Call.apply (config.block conv)).mtu = (config.block conv).mtu := by
    have h := congrArg Ikcpcb.mtu hparameters
    exact h
  have h := flush_groups (healthy_fold (healthy_configured config conv) calls) hupdated
  rwa [hconv, hmtu] at h

/-- Two messages after an update. -/
def twoMessages : List Call := [.update 0, .send [1, 2, 3], .send [4]]

theorem flush_round_trip_messages : ∃ groups : List (List IkcpSeg),
    groups.flatten = controlSegments (twoMessages.foldl Call.apply (wideConfig.block 9)) ++
      dataSegments (twoMessages.foldl Call.apply (wideConfig.block 9)) ∧
    (ikcpFlush (twoMessages.foldl Call.apply (wideConfig.block 9))).2 = groups.map wires ∧
    ∀ group ∈ groups, group ≠ [] ∧ (wires group).length ≤ 1450 ∧
      ∀ peer : Ikcpcb, peer.conv = 9 → ikcpInput peer (wires group) =
        (0, inputEnd peer.sndUna (group.foldl inputCarried ⟨peer, false, 0, 0⟩)) :=
  flush_round_trip wideConfig 9 twoMessages rfl

end RoundTrip

end CarDetect.Kcp
