import CarDetect.Kcp.Windows

/-!
# A block between two sliding windows

A control block sends fragments in one direction and receives them in the other. `Coupled` relates
it to a link for each direction, and `Legit` says what a segment of the other end can be.
`coupled_input`, `coupled_flush`, `coupled_update` and `coupled_recv` say that the calls of a program
are steps of the two links.
-/

namespace CarDetect.Kcp

open BigEndian SequenceSpace SlidingWindow

/-! ## A block and its two directions -/

/-- A block with the direction in which it sends, and the one in which it receives. -/
structure Coupled (kcp : Ikcpcb) (out inn : Link Fragment) : Prop where
  healthy : Healthy kcp
  room : kcp.rcvWnd.toNat ≤ 2 ^ 30
  out_inv : Inv sizes out
  inn_inv : Inv sizes inn
  sends : Sends kcp.toSender out
  receives : Receives kcp.toReceiver inn
  owes : Owes kcp.acklist inn

/-- A segment that an end may have sent: `forward` is the direction in which it sends, `back` the
one whose acknowledgements it sends, and both have their stamps. -/
structure Legit (conv : UInt32) (forward back : Link Fragment) (stampF stampB : Nat)
    (seg : IkcpSeg) : Prop where
  carried : Carried conv seg
  cmd : seg.cmd.toUInt8.toUInt32 = seg.cmd
  frg : seg.frg.toUInt8.toUInt32 = seg.frg
  una : ∃ bound, seg.una = UInt32.ofNat bound ∧ (bound, stampB) ∈ back.bounds
  push : seg.cmd = IKCP_CMD_PUSH → ∃ k, seg.sn = UInt32.ofNat k ∧ (k, stampF) ∈ forward.data ∧
    forward.items[k]? = some seg.fragment
  ack : seg.cmd = IKCP_CMD_ACK → ∃ k, seg.sn = UInt32.ofNat k ∧ (k, stampB) ∈ back.singles

theorem legit_grows {conv : UInt32} {forward back forward' back' : Link Fragment}
    {stampF stampB : Nat} {seg : IkcpSeg} (h : Legit conv forward back stampF stampB seg)
    (hforward : Grows forward forward') (hback : Grows back back') :
    Legit conv forward' back' stampF stampB seg := by
  refine { h with una := ?_, push := ?_, ack := ?_ }
  · obtain ⟨bound, hsn, hbound⟩ := h.una
    exact ⟨bound, hsn, hback.bounds hbound⟩
  · intro hcmd
    obtain ⟨k, hsn, hdata, hitem⟩ := h.push hcmd
    exact ⟨k, hsn, hforward.data hdata, getElem?_of_prefix hforward.items hitem⟩
  · intro hcmd
    obtain ⟨k, hsn, hsingle⟩ := h.ack hcmd
    exact ⟨k, hsn, hback.singles hsingle⟩

/-- Steps of both directions in which fragments are neither queued nor taken. -/
structure Advanced (kcp : Ikcpcb) (out inn : Link Fragment) (after : Ikcpcb)
    (outAfter innAfter : Link Fragment) : Prop where
  coupled : Coupled after outAfter innAfter
  sending : Sending sizes out outAfter
  receiving : Receiving sizes inn innAfter
  conv : after.conv = kcp.conv
  whole : outAfter.items ++ after.sndQueue.map IkcpSeg.fragment =
    out.items ++ kcp.sndQueue.map IkcpSeg.fragment
  same : undelivered after.toReceiver innAfter = undelivered kcp.toReceiver inn

/-! ## Input -/

section Input

variable {kcp middle after : Ikcpcb} {out inn outMiddle innMiddle outAfter innAfter : Link Fragment}
  {state : InputState} {header : Header} {seg : IkcpSeg} {segs : List IkcpSeg}
  {k bound stamp stampF stampB : Nat}

/-- Steps of both directions in which nothing is numbered either. -/
structure Heard (kcp : Ikcpcb) (out inn : Link Fragment) (after : Ikcpcb)
    (outAfter innAfter : Link Fragment) : Prop where
  coupled : Coupled after outAfter innAfter
  sending : Sending sizes out outAfter
  receiving : Receiving sizes inn innAfter
  items : outAfter.items = out.items
  conv : after.conv = kcp.conv
  queue : after.sndQueue = kcp.sndQueue
  same : undelivered after.toReceiver innAfter = undelivered kcp.toReceiver inn

theorem heard_trans (hfirst : Heard kcp out inn middle outMiddle innMiddle)
    (hrest : Heard middle outMiddle innMiddle after outAfter innAfter) :
    Heard kcp out inn after outAfter innAfter where
  coupled := hrest.coupled
  sending := sending_trans hfirst.sending hrest.sending
  receiving := receiving_trans hfirst.receiving hrest.receiving
  items := hrest.items.trans hfirst.items
  conv := hrest.conv.trans hfirst.conv
  queue := hrest.queue.trans hfirst.queue
  same := hrest.same.trans hfirst.same

theorem heard_refl (hcoupled : Coupled kcp out inn) : Heard kcp out inn kcp out inn :=
  ⟨hcoupled, sending_refl out, receiving_refl inn, rfl, rfl, rfl, rfl⟩

/-- The bound that every segment carries. -/
theorem heard_header (hcoupled : Coupled kcp out inn) (huna : header.una = UInt32.ofNat bound)
    (hbounds : (bound, stamp) ∈ out.bounds) (hfresh : out.Fresh sizes stamp) :
    Heard kcp out inn (inputHeader kcp header) (out.confirmBelow bound) inn := by
  have hstep : Step sizes out (out.confirmBelow bound) :=
    Step.confirmBelow out bound stamp hbounds hfresh
  have hsends := sends_parseUna hcoupled.healthy.sender.toOrdered hcoupled.out_inv hcoupled.sends
    hbounds hfresh
  rw [← huna] at hsends
  refine ⟨{ hcoupled with
    healthy := healthy_inputHeader hcoupled.healthy
    out_inv := inv_step hcoupled.out_inv hstep
    sends := hsends }, ⟨Relation.ReflTransGen.single hstep, rfl, rfl, rfl⟩, receiving_refl inn,
    rfl, rfl, rfl, rfl⟩

/-- An acknowledgement. -/
theorem heard_ack (hcoupled : Coupled kcp out inn) (hsn : header.sn = UInt32.ofNat k)
    (hsingles : (k, stamp) ∈ out.singles) (hfresh : out.Fresh sizes stamp) :
    Heard kcp out inn (ackBlock kcp header) (out.confirm k) inn := by
  have hstep : Step sizes out (out.confirm k) := Step.confirm out k stamp hsingles hfresh
  have hsends := sends_parseAck hcoupled.healthy.sender.toOrdered hcoupled.out_inv hcoupled.sends
    hsingles hfresh
  rw [← hsn] at hsends
  refine ⟨{ hcoupled with
    healthy := healthy_ackBlock hcoupled.healthy
    out_inv := inv_step hcoupled.out_inv hstep
    sends := hsends }, ⟨Relation.ReflTransGen.single hstep, rfl, rfl, rfl⟩, receiving_refl inn,
    rfl, rfl, parseAck_queue _ _, rfl⟩

theorem inputPush_frame (kcp : Ikcpcb) (header : Header) (data : Bytes) :
    (inputPush kcp header data).conv = kcp.conv ∧
      (inputPush kcp header data).toSender = kcp.toSender ∧
      (inputPush kcp header data).rcvWnd = kcp.rcvWnd := by
  unfold inputPush
  split
  · refine ⟨rfl, rfl, ?_⟩
    show (if _ then _ else _ : Receiver).rcvWnd = _
    split
    · exact rcvWnd_parseData _ _
    · rfl
  · exact ⟨rfl, rfl, rfl⟩

/-- Data. -/
theorem heard_push {data : Bytes} (hcoupled : Coupled kcp out inn)
    (hsn : header.sn = UInt32.ofNat k) (hdata : (k, stamp) ∈ inn.data)
    (hfresh : inn.Fresh sizes stamp)
    (hitem : inn.items[k]? = some (header.segment data).fragment) :
    ∃ innAfter, Heard kcp out inn (inputPush kcp header data) out innAfter := by
  obtain ⟨innAfter, hreceiving, hinv, hreceives, howes, hsame⟩ :=
    receives_push hcoupled.healthy.receiver hcoupled.room hcoupled.inn_inv hcoupled.receives
      hcoupled.owes hdata hfresh hsn hitem
  obtain ⟨hconv, hsender, hwnd⟩ := inputPush_frame kcp header data
  refine ⟨innAfter, ⟨?_, ?_, hcoupled.out_inv, hinv, ?_, hreceives, howes⟩, sending_refl out,
    hreceiving, rfl, hconv, congrArg Sender.sndQueue hsender, hsame⟩
  · exact healthy_inputPush hcoupled.healthy data
  · rw [hwnd]
    exact hcoupled.room
  · rw [hsender]
    exact hcoupled.sends

/-- One segment of the other end. -/
theorem heard_segment (hcoupled : Coupled state.kcp out inn)
    (hlegit : Legit state.kcp.conv inn out stampF stampB seg) (hforward : inn.Fresh sizes stampF)
    (hback : out.Fresh sizes stampB) :
    ∃ outAfter innAfter,
      Heard state.kcp out inn (inputCarried state seg).kcp outAfter innAfter := by
  obtain ⟨bound, huna, hbounds⟩ := hlegit.una
  have hheader : Heard state.kcp out inn (inputHeader state.kcp seg.header)
      (out.confirmBelow bound) inn := heard_header hcoupled huna hbounds hback
  have hcmd : seg.header.cmd.toUInt32 = seg.cmd := hlegit.cmd
  unfold inputCarried inputSegment inputCommand
  rw [hcmd]
  split
  · rename_i hisack
    obtain ⟨k, hsn, hsingles⟩ := hlegit.ack (beq_iff_eq.1 hisack)
    have hack : Heard (inputHeader state.kcp seg.header) (out.confirmBelow bound) inn
        (ackBlock (inputHeader state.kcp seg.header) seg.header)
        ((out.confirmBelow bound).confirm k) inn :=
      heard_ack hheader.coupled hsn hsingles hback
    refine ⟨(out.confirmBelow bound).confirm k, inn, heard_trans hheader ?_⟩
    unfold inputAck
    split <;> exact hack
  · split
    · rename_i hispush
      obtain ⟨k, hsn, hdata, hitem⟩ := hlegit.push (beq_iff_eq.1 hispush)
      have hfragment : (seg.header.segment seg.data).fragment = seg.fragment := by
        show (⟨seg.frg.toUInt8.toUInt32, seg.data⟩ : Fragment) = _
        rw [hlegit.frg]
        rfl
      rw [← hfragment] at hitem
      obtain ⟨innAfter, hpush⟩ := heard_push hheader.coupled hsn hdata hforward hitem
      exact ⟨_, innAfter, heard_trans hheader hpush⟩
    · split
      · have hhealthy := hheader.coupled.healthy
        exact ⟨out.confirmBelow bound, inn,
          { hheader with coupled := { hheader.coupled with healthy := { hhealthy with } } }⟩
      · exact ⟨_, inn, hheader⟩

/-- The segments of a datagram of the other end. -/
theorem heard_segments (hcoupled : Coupled state.kcp out inn)
    (hlegit : ∀ seg ∈ segs, Legit state.kcp.conv inn out stampF stampB seg)
    (hforward : inn.Fresh sizes stampF) (hback : out.Fresh sizes stampB) :
    ∃ outAfter innAfter,
      Heard state.kcp out inn (segs.foldl inputCarried state).kcp outAfter innAfter := by
  induction segs generalizing state out inn with
  | nil => exact ⟨out, inn, heard_refl hcoupled⟩
  | cons seg rest ih =>
      obtain ⟨hseg, hrest⟩ := List.forall_mem_cons.1 hlegit
      obtain ⟨outMiddle, innMiddle, hfirst⟩ := heard_segment hcoupled hseg hforward hback
      have hout := grows_steps hfirst.sending.steps
      have hinn := grows_steps hfirst.receiving.steps
      have houtCount : outMiddle.count = out.count := congrArg List.length hfirst.items
      have hinnCount : innMiddle.count = inn.count := congrArg List.length hfirst.receiving.items
      obtain ⟨outAfter, innAfter, hlater⟩ := ih hfirst.coupled
        (by rw [hfirst.conv]; exact fun seg hseg => legit_grows (hrest seg hseg) hinn hout)
        (by rw [Link.Fresh, hinnCount]; exact hforward)
        (by rw [Link.Fresh, houtCount]; exact hback)
      exact ⟨outAfter, innAfter, heard_trans hfirst hlater⟩

/-- `ikcp_input` of a datagram of the other end. -/
theorem coupled_input (hcoupled : Coupled kcp out inn) (hne : segs ≠ [])
    (hlegit : ∀ seg ∈ segs, Legit kcp.conv inn out stampF stampB seg)
    (hforward : inn.Fresh sizes stampF) (hback : out.Fresh sizes stampB) :
    ∃ outAfter innAfter, Advanced kcp out inn (ikcpInput kcp (wires segs)).2 outAfter innAfter := by
  have hinput := input_wires hne fun seg hseg => (hlegit seg hseg).carried
  obtain ⟨outAfter, innAfter, hheard⟩ :=
    @heard_segments out inn ⟨kcp, false, 0, 0⟩ _ _ _ hcoupled hlegit hforward hback
  rw [hinput]
  refine ⟨outAfter, innAfter, ?_⟩
  generalize segs.foldl inputCarried ⟨kcp, false, 0, 0⟩ = state at hheard ⊢
  have hhealthy := healthy_inputEnd hheard.coupled.healthy kcp.sndUna
  obtain ⟨-, hcore⟩ := parseFastack_spec hheard.coupled.healthy.sender state.maxack state.latestTs
  have hsender : (state.kcp.toSender.parseFastack state.maxack state.latestTs) =
      { state.kcp.toSender with
        sndBuf := (state.kcp.toSender.parseFastack state.maxack state.latestTs).sndBuf } := by
    unfold Sender.parseFastack
    split <;> rfl
  have hsends : Sends (inputEnd kcp.sndUna state).toSender outAfter := by
    show Sends (if _ then _ else _ : Sender) outAfter
    split
    · rw [hsender]
      exact sends_core hheard.coupled.sends hcore
    · exact hheard.coupled.sends
  have hqueue : (inputEnd kcp.sndUna state).sndQueue = state.kcp.sndQueue := by
    show (if _ then _ else _ : Sender).sndQueue = _
    split
    · exact parseFastack_queue _ _ _
    · rfl
  refine ⟨⟨hhealthy, hheard.coupled.room, hheard.coupled.out_inv, hheard.coupled.inn_inv, hsends,
    hheard.coupled.receives, hheard.coupled.owes⟩, hheard.sending, hheard.receiving, hheard.conv,
    ?_, hheard.same⟩
  rw [hheard.items, hqueue, hheard.queue]

end Input

/-! ## Flush -/

section Flush

variable {kcp : Ikcpcb} {out inn outAfter innAfter : Link Fragment}

theorem filled_acklist (kcp : Ikcpcb) : (filled kcp).acklist = [] := by
  obtain ⟨_, _, hfilled⟩ := filled_eq kcp
  rw [hfilled]

/-- A number of 8 bits keeps its value in a header. -/
theorem toUInt8_toUInt32 {value : UInt32} (h : value.toNat < 128) :
    value.toUInt8.toUInt32 = value := by
  apply UInt32.toNat.inj
  rw [UInt8.toNat_toUInt32, UInt32.toNat_toUInt8]
  omega

/-- The segments of `snd_queue` that get into the window, and then the due ones of `snd_buf`. -/
theorem coupled_filled (hcoupled : Coupled kcp out inn) :
    ∃ outAfter, Sending sizes out outAfter ∧ Inv sizes outAfter ∧
      Sends (filled kcp).toSender outAfter ∧
      outAfter.items ++ (filled kcp).sndQueue.map IkcpSeg.fragment =
        out.items ++ kcp.sndQueue.map IkcpSeg.fragment ∧
      ∀ seg ∈ dataSegments kcp, ∃ k, seg.sn = UInt32.ofNat k ∧
        (k, outAfter.count) ∈ outAfter.data ∧ outAfter.items[k]? = some seg.fragment := by
  have hprobed := healthy_probed hcoupled.healthy
  have hsender : (probed kcp).toSender = kcp.toSender := by
    obtain ⟨_, _, _, heq, -⟩ := probed_eq kcp
    rw [heq]
  have hsends := hcoupled.sends
  rw [← hsender] at hsends
  obtain ⟨-, middle, hmiddle, hinv, hfilled, hwhole⟩ :=
    @sends_fill _ (probed kcp) _ _ hprobed.sender (windowSize_lt hprobed.remote) hsends
      hcoupled.out_inv
  obtain ⟨after, hafter, hitems, hpending, hsent⟩ :=
    @sends_transmit _ _ (dataSegments kcp) hfilled fun seg hseg => (mem_dataSegments hseg).2.2
  have hcount : after.count = middle.count := congrArg List.length hitems
  refine ⟨after, sending_trans hmiddle hafter, inv_steps hinv hafter.steps,
    sends_frame hfilled hitems hpending, ?_, ?_⟩
  · rw [hitems]
    exact hwhole.trans (by rw [hsender])
  · intro seg hseg
    rw [hcount]
    exact hsent seg hseg

/-- An acknowledgement or a probe of a flush. -/
theorem legit_control {seg : IkcpSeg} (hcoupled : Coupled kcp out inn)
    (hseg : seg ∈ controlSegments kcp) (stamp : Nat) :
    Legit kcp.conv outAfter inn.reply stamp inn.reply.count seg := by
  obtain ⟨-, huna, -, hfrg, hcmd⟩ := mem_controlSegments hseg
  have hbound : (inn.next, inn.reply.count) ∈ inn.reply.bounds := Set.mem_insert _ _
  refine ⟨(flushed_carried hcoupled.healthy (List.mem_append_left _ hseg)).1, ?_, ?_,
    ⟨_, huna.trans hcoupled.receives.nxt, hbound⟩, ?_, ?_⟩
  · rcases hcmd with ⟨hcmd, -⟩ | hcmd | hcmd <;> rw [hcmd] <;> decide
  · rw [hfrg]
    decide
  · intro hpush
    rcases hcmd with ⟨hcmd, -⟩ | hcmd | hcmd <;> rw [hcmd] at hpush <;> cases hpush
  · intro hack
    rcases hcmd with ⟨-, ack, hmem, hsn, -⟩ | hcmd | hcmd
    · obtain ⟨k, hk, hnumber⟩ := hcoupled.owes ack hmem
      exact ⟨k, hsn.trans hnumber, Or.inr ⟨hk, rfl⟩⟩
    · rw [hcmd] at hack
      cases hack
    · rw [hcmd] at hack
      cases hack

/-- A data segment of a flush. -/
theorem legit_data {seg : IkcpSeg} {k : Nat} (hcoupled : Coupled kcp out inn)
    (hseg : seg ∈ dataSegments kcp) (hsn : seg.sn = UInt32.ofNat k)
    (hdata : (k, outAfter.count) ∈ outAfter.data)
    (hitem : outAfter.items[k]? = some seg.fragment) :
    Legit kcp.conv outAfter inn.reply outAfter.count inn.reply.count seg := by
  have hfilled := healthy_filled hcoupled.healthy
  have hbound : (inn.next, inn.reply.count) ∈ inn.reply.bounds := Set.mem_insert _ _
  obtain ⟨-, huna, other, hother, hcore⟩ := mem_dataSegments hseg
  obtain ⟨-, hcmd, -, hfrg, -⟩ := core_fields hcore
  have hpush := hcmd.trans (hfilled.own other hother).2
  refine ⟨(flushed_carried hcoupled.healthy (List.mem_append_right _ hseg)).1, ?_, ?_,
    ⟨_, huna.trans hcoupled.receives.nxt, hbound⟩, fun _ => ⟨k, hsn, hdata, hitem⟩, ?_⟩
  · rw [hpush]
    decide
  · rw [hfrg]
    exact toUInt8_toUInt32 (hfilled.buffered other hother).2
  · intro hack
    rw [hpush] at hack
    cases hack

/-- The block after a flush. -/
theorem coupled_flushed (hcoupled : Coupled kcp out inn) (hupdated : kcp.updated = true)
    (hsending : Sending sizes out outAfter) (hinv : Inv sizes outAfter)
    (hsends : Sends (filled kcp).toSender outAfter)
    (hwhole : outAfter.items ++ (filled kcp).sndQueue.map IkcpSeg.fragment =
      out.items ++ kcp.sndQueue.map IkcpSeg.fragment) :
    Advanced kcp out inn (ikcpFlush kcp).1 outAfter inn.reply := by
  have hreply : Step sizes inn inn.reply := Step.reply inn
  have hreceiver : (filled kcp).toReceiver = kcp.toReceiver := filled_receiver kcp
  have hhealthy := healthy_flush hcoupled.healthy
  have hflush : (ikcpFlush kcp).1 = { filled kcp with
      sndBuf := (dataFlush kcp).passed
      xmit := (dataFlush kcp).xmit
      state := (dataFlush kcp).state
      toCongestion := congested (filled kcp) (windowSize (probed kcp)) (dataFlush kcp).change
        (dataFlush kcp).lost } :=
    congrArg Prod.fst (if_neg (by rw [hupdated]; decide))
  rw [hflush] at hhealthy ⊢
  refine ⟨⟨hhealthy, ?_, hinv, inv_step hcoupled.inn_inv hreply,
    sends_core hsends (passed_core kcp), ?_, ?_⟩, hsending,
    ⟨Relation.ReflTransGen.single hreply, rfl, rfl⟩, filled_conv kcp, hwhole, ?_⟩
  · show (filled kcp).rcvWnd.toNat ≤ _
    rw [hreceiver]
    exact hcoupled.room
  · show Receives (filled kcp).toReceiver _
    rw [hreceiver]
    exact receives_frame hcoupled.receives List.prefix_rfl rfl rfl
  · show Owes (filled kcp).acklist _
    rw [filled_acklist]
    exact nofun
  · show undelivered (filled kcp).toReceiver inn.reply = _
    rw [hreceiver]
    rfl

/-- `ikcp_flush` sends segments that the other end can take for what they are. -/
theorem coupled_flush (hcoupled : Coupled kcp out inn) :
    ∃ outAfter innAfter, Advanced kcp out inn (ikcpFlush kcp).1 outAfter innAfter ∧
      ∀ datagram ∈ (ikcpFlush kcp).2, ∃ segs, segs ≠ [] ∧ datagram = wires segs ∧
        ∀ seg ∈ segs, Legit kcp.conv outAfter innAfter outAfter.count innAfter.count seg := by
  cases hupdated : kcp.updated with
  | false =>
      have hidle : ikcpFlush kcp = (kcp, []) := if_pos (by rw [hupdated]; rfl)
      rw [hidle]
      exact ⟨out, inn, ⟨hcoupled, sending_refl out, receiving_refl inn, rfl, rfl, rfl⟩, nofun⟩
  | true =>
      obtain ⟨after, hsending, hinv, hsends, hwhole, hsent⟩ := coupled_filled hcoupled
      obtain ⟨groups, hflatten, hgroups, hgroup⟩ := flush_groups hcoupled.healthy hupdated
      refine ⟨after, inn.reply,
        coupled_flushed hcoupled hupdated hsending hinv hsends hwhole, ?_⟩
      intro datagram hdatagram
      rw [hgroups] at hdatagram
      obtain ⟨segs, hsegs, rfl⟩ := List.mem_map.1 hdatagram
      refine ⟨segs, (hgroup segs hsegs).1, rfl, fun seg hseg => ?_⟩
      have hmem : seg ∈ controlSegments kcp ++ dataSegments kcp := by
        rw [← hflatten]
        exact List.mem_flatten_of_mem hsegs hseg
      rcases List.mem_append.1 hmem with hmem | hmem
      · exact legit_control hcoupled hmem _
      · obtain ⟨k, hsn, hdata, hitem⟩ := hsent seg hmem
        exact legit_data hcoupled hmem hsn hdata hitem

/-- `ikcp_update` does, besides, no more than set the clock. -/
theorem coupled_update (hcoupled : Coupled kcp out inn) (now : UInt32) :
    ∃ outAfter innAfter, Advanced kcp out inn (ikcpUpdate kcp now).1 outAfter innAfter ∧
      ∀ datagram ∈ (ikcpUpdate kcp now).2, ∃ segs, segs ≠ [] ∧ datagram = wires segs ∧
        ∀ seg ∈ segs, Legit kcp.conv outAfter innAfter outAfter.count innAfter.count seg := by
  obtain ⟨tsFlush, hhealthy, h | h⟩ := update_begun hcoupled.healthy now <;> rw [h]
  · have hbegun : Coupled { kcp with current := now, updated := true, tsFlush := tsFlush } out inn :=
      { hcoupled with healthy := hhealthy }
    obtain ⟨outAfter, innAfter, hadvanced, hsent⟩ := coupled_flush hbegun
    exact ⟨outAfter, innAfter, { hadvanced with }, hsent⟩
  · exact ⟨out, inn, ⟨{ hcoupled with healthy := hhealthy }, sending_refl out, receiving_refl inn,
      rfl, rfl, rfl⟩, nofun⟩

end Flush

/-! ## The program -/

section Program

variable {kcp : Ikcpcb} {out inn : Link Fragment}

/-- `ikcp_send` only queues segments. -/
theorem send_frame (kcp : Ikcpcb) (buffer : Bytes) : ∃ queue nsndQue,
    (ikcpSend kcp buffer).2 = { kcp with sndQueue := queue, nsndQue := nsndQue } := by
  have hfragments (kcp : Ikcpcb) (rest : Bytes) (sent : Nat) : ∃ queue nsndQue,
      (sendFragments kcp rest sent).2 = { kcp with sndQueue := queue, nsndQue := nsndQue } := by
    unfold sendFragments
    simp only []
    split
    · split <;> exact ⟨_, _, rfl⟩
    · exact ⟨_, _, rfl⟩
  have hextend : ∃ queue,
      (extendLast kcp buffer).2 = { kcp with sndQueue := queue, nsndQue := kcp.nsndQue } := by
    unfold extendLast
    split
    · split <;> exact ⟨_, rfl⟩
    · exact ⟨_, rfl⟩
  unfold ikcpSend
  split
  · obtain ⟨queue, hqueue⟩ := hextend
    rcases heq : extendLast kcp buffer with ⟨sent, extended⟩
    rw [heq] at hqueue
    change extended = _ at hqueue
    simp only []
    split
    · exact ⟨queue, kcp.nsndQue, hqueue⟩
    · obtain ⟨after, nsndQue, hafter⟩ := hfragments extended (buffer.drop sent) sent
      exact ⟨after, nsndQue, hafter.trans (by rw [hqueue])⟩
  · exact hfragments _ _ _

theorem coupled_send (hcoupled : Coupled kcp out inn) (buffer : Bytes) :
    Coupled (ikcpSend kcp buffer).2 out inn := by
  have hhealthy := healthy_send hcoupled.healthy buffer
  obtain ⟨queue, nsndQue, heq⟩ := send_frame kcp buffer
  rw [heq] at hhealthy ⊢
  have hsends : Sends { kcp.toSender with sndQueue := queue, nsndQue := nsndQue } out :=
    ⟨hcoupled.sends.nxt, hcoupled.sends.numbered, hcoupled.sends.buffered⟩
  exact { hcoupled with healthy := hhealthy, sends := hsends }

/-- The segments that a call of `ikcp_recv` takes from `rcv_queue`. -/
def takenBy (kcp : Ikcpcb) (len : Int) : List IkcpSeg :=
  if 0 ≤ (ikcpRecv kcp len).1 ∧ 0 ≤ len then (splitMessage kcp.rcvQueue).1 else []

/-- `ikcp_recv` takes the first fragments that the program has not taken. -/
theorem coupled_recv (hcoupled : Coupled kcp out inn) (len : Int) :
    ∃ innAfter, Coupled (ikcpRecv kcp len).2.2 out innAfter ∧ Receiving sizes inn innAfter ∧
      (ikcpRecv kcp len).2.2.sndQueue = kcp.sndQueue ∧
      undelivered kcp.toReceiver inn = (takenBy kcp len).map IkcpSeg.fragment ++
        undelivered (ikcpRecv kcp len).2.2.toReceiver innAfter := by
  have hhealthy := healthy_recv hcoupled.healthy len
  have hwnd := congrArg (fun settings : Ikcpcb => settings.rcvWnd) (settings_recv kcp len)
  change (ikcpRecv kcp len).2.2.rcvWnd = kcp.rcvWnd at hwnd
  have hroom := hcoupled.room
  unfold takenBy
  rcases recv_cases kcp len with ⟨code, hcode, heq⟩ | ⟨hne, hready, hfits, heq⟩
  · rw [heq, if_neg (fun h => absurd hcode (Int.not_lt.2 h.1))]
    exact ⟨inn, hcoupled, receiving_refl inn, rfl, rfl⟩
  · rw [heq] at hhealthy hwnd ⊢
    simp only [hready, true_and]
    have hrecover (kcp : Ikcpcb) (recover : Bool) :
        (fastRecover kcp recover).toSender = kcp.toSender ∧
          (fastRecover kcp recover).acklist = kcp.acklist := by
      unfold fastRecover
      split <;> exact ⟨rfl, rfl⟩
    have hleft : ∃ left : Receiver, (if len < 0 then kcp.toReceiver else kcp.dropMessage) = left ∧
        left.Valid ∧ Receives left inn ∧ undelivered kcp.toReceiver inn =
          ((if 0 ≤ len then (splitMessage kcp.rcvQueue).1 else []).map IkcpSeg.fragment) ++
            undelivered left inn := by
      refine ⟨_, rfl, ?_⟩
      rcases Int.lt_or_le len 0 with hpeek | htake
      · rw [if_pos hpeek, if_neg (Int.not_le.2 hpeek)]
        exact ⟨hcoupled.healthy.receiver, hcoupled.receives, rfl⟩
      · rw [if_neg (Int.not_lt.2 htake), if_pos htake]
        refine ⟨valid_dropMessage hcoupled.healthy.receiver,
          ⟨hcoupled.receives.nxt, hcoupled.receives.numbered, hcoupled.receives.buffered⟩, ?_⟩
        have hsplit := split_append kcp.rcvQueue
        show kcp.rcvQueue.map IkcpSeg.fragment ++ _ =
          _ ++ ((splitMessage kcp.rcvQueue).2.map IkcpSeg.fragment ++ _)
        rw [← List.append_assoc, ← List.map_append, hsplit]
    obtain ⟨left, hleft, hvalid, hreceives, hsame⟩ := hleft
    obtain ⟨-, after, hafter, hacks, hinv, hmoved, hkept⟩ :=
      receives_moveAvailable hvalid hcoupled.inn_inv hreceives
    rw [hleft] at hhealthy hwnd ⊢
    obtain ⟨hsender, hacklist⟩ := hrecover { kcp with toReceiver := left.moveAvailable }
      (kcp.nrcvQue ≥ kcp.rcvWnd)
    have hreceiver := fastRecover_receiver { kcp with toReceiver := left.moveAvailable }
      (kcp.nrcvQue ≥ kcp.rcvWnd)
    change (Ikcpcb.toReceiver _).rcvWnd = _ at hwnd
    refine ⟨after, ⟨hhealthy, ?_, hcoupled.out_inv, hinv, ?_, ?_, ?_⟩, hafter, ?_, ?_⟩
    · rw [hwnd]
      exact hroom
    · rw [hsender]
      exact hcoupled.sends
    · rw [hreceiver]
      exact hmoved
    · rw [hacklist]
      intro ack hack
      rw [hacks]
      exact hcoupled.owes ack hack
    · exact congrArg Sender.sndQueue hsender
    · rw [hreceiver, hkept]
      exact hsame

end Program

end CarDetect.Kcp
