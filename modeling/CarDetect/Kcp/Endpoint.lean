import CarDetect.Kcp.Update

/-!
# One end of a KCP connection

The calls that a program makes on a control block, in any order and with any datagrams as input.
`Healthy` collects what holds of a block between the calls, and `healthy_calls` says that it holds
in every state that they reach.
-/

namespace CarDetect.Kcp

open BigEndian SequenceSpace
open Camera (IKCP_OVERHEAD)

/-! ## The sender through a flush -/

section Fill

variable {sender : Sender} {kcp : Ikcpcb} {cwnd : UInt32} {seg : IkcpSeg} {rest : List IkcpSeg}

/-- The induction rule for the loop that moves data from `snd_queue` to `snd_buf`. -/
theorem fill_invariant {inv : Sender → Prop} (hinit : inv sender)
    (hstep : ∀ (sender : Sender) (seg : IkcpSeg) (rest : List IkcpSeg), inv sender →
      sender.sndQueue = seg :: rest →
      itimediff sender.sndNxt (sender.sndUna + cwnd) < 0 → inv (sender.enter kcp seg rest)) :
    inv (Sender.fillLoop kcp cwnd sender.sndQueue sender) := by
  have hloop : ∀ (queue : List IkcpSeg) (sender : Sender), sender.sndQueue = queue →
      inv sender → inv (Sender.fillLoop kcp cwnd queue sender) := by
    intro queue
    induction queue with
    | nil =>
        intro sender _ hinv
        exact hinv
    | cons seg rest ih =>
        intro sender hqueue hinv
        unfold Sender.fillLoop
        split
        · rename_i hroom
          exact ih _ rfl (hstep _ _ _ hinv hqueue hroom)
        · exact hinv
  exact hloop _ _ rfl hinit

/-- The condition of the loop, for a window that fits its field of 16 bits. -/
theorem flight_lt_iff (hvalid : sender.Valid) (hcwnd : cwnd.toNat < 2 ^ 16) :
    itimediff sender.sndNxt (sender.sndUna + cwnd) < 0 ↔ sender.flight < cwnd.toNat := by
  have hflight := hvalid.flight_lt
  have hend : offset sender.sndUna (sender.sndUna + cwnd) = cwnd.toNat := offset_add _ _
  unfold Sender.flight at *
  rw [itimediff, @ahead_offset sender.sndUna _ _ (by omega) (by omega), hend]
  omega

/-- One more number in flight. -/
theorem flight_enter (hvalid : sender.Valid) :
    (sender.enter kcp seg rest).flight = sender.flight + 1 := by
  have hflight := hvalid.flight_lt
  have hold := offset_eq sender.sndUna sender.sndNxt
  have hnew := offset_eq sender.sndUna (sender.sndNxt + 1)
  have hsucc : (sender.sndNxt + 1).toNat = (sender.sndNxt.toNat + 1) % 2 ^ 32 :=
    UInt32.toNat_add sender.sndNxt 1
  show offset sender.sndUna (sender.sndNxt + 1) = offset sender.sndUna sender.sndNxt + 1
  unfold Sender.flight at hflight
  omega

theorem valid_enter (hvalid : sender.Valid) (hqueue : sender.sndQueue = seg :: rest)
    (hcwnd : cwnd.toNat < 2 ^ 16) (hroom : sender.flight < cwnd.toNat) :
    (sender.enter kcp seg rest).Valid := by
  have hflight := @flight_enter _ kcp seg rest hvalid
  have hplace : (sender.enter kcp seg rest).place (numbered kcp sender.sndNxt seg) =
      sender.flight := rfl
  have hone : (1 : UInt32).toNat = 1 := rfl
  have hque := hvalid.que
  have hbuf := hvalid.buf
  have hlength := length_le_of_sorted hvalid.sorted hvalid.below
  rw [hqueue, List.length_cons, ← ofNat_succ] at hque
  refine ⟨⟨?_, ?_, ?_, ?_, ?_⟩, ?_⟩
  · show sender.nsndQue - 1 = UInt32.ofNat rest.length
    rw [hque, UInt32.add_sub_cancel]
  · show (sender.nsndBuf + 1).toNat = (sender.sndBuf ++ [_]).length
    rw [UInt32.toNat_add, hone, List.length_append, List.length_singleton, hbuf]
    have hless := hvalid.flight_lt
    omega
  · omega
  · show (sender.sndBuf ++ [numbered kcp sender.sndNxt seg]).Pairwise _
    refine List.pairwise_append.2 ⟨hvalid.sorted, List.pairwise_singleton _ _, ?_⟩
    intro other hother last hlast
    rw [List.mem_singleton.1 hlast, hplace]
    exact hvalid.below other hother
  · intro other hother
    rw [hflight]
    rcases List.mem_append.1 hother with hother | hother
    · exact Nat.lt_succ_of_lt (hvalid.below other hother)
    · rw [List.mem_singleton.1 hother, hplace]
      exact Nat.lt_succ_self _
  · have hfirst := hvalid.first
    show sender.sndUna = ((sender.sndBuf ++ [_]).head?.map IkcpSeg.sn).getD _
    rw [hfirst]
    cases sender.sndBuf <;> rfl

/-- Segments that only differ in what a transmission changes. -/
theorem valid_core {buffer : List IkcpSeg} (hvalid : sender.Valid)
    (hcore : buffer.map IkcpSeg.core = sender.sndBuf.map IkcpSeg.core) :
    { sender with sndBuf := buffer }.Valid := by
  have hsn : buffer.map IkcpSeg.sn = sender.sndBuf.map IkcpSeg.sn := by
    have h := congrArg (List.map IkcpSeg.sn) hcore
    rwa [List.map_map, List.map_map] at h
  have hlength : buffer.length = sender.sndBuf.length := by
    simpa using congrArg List.length hsn
  have hnumbers : (buffer.map IkcpSeg.sn).Pairwise
      fun a b => offset sender.sndUna a < offset sender.sndUna b := by
    rw [hsn]
    exact List.pairwise_map.2 hvalid.sorted
  have hsorted : buffer.Pairwise
      fun a b => offset sender.sndUna a.sn < offset sender.sndUna b.sn :=
    hnumbers.of_map IkcpSeg.sn fun _ _ h => h
  refine ⟨⟨hvalid.que, hvalid.buf.trans hlength.symm, hvalid.flight_lt, hsorted, ?_⟩, ?_⟩
  · intro seg hseg
    obtain ⟨other, hother, heq⟩ := List.mem_map.1 (hsn ▸ List.mem_map_of_mem hseg)
    show offset sender.sndUna seg.sn < _
    rw [← heq]
    exact hvalid.below other hother
  · show sender.sndUna = (buffer.head?.map IkcpSeg.sn).getD sender.sndNxt
    rw [← List.head?_map, hsn, List.head?_map]
    exact hvalid.first

end Fill

/-! ## The invariant of a block -/

/-- A segment that `ikcp_send` makes: its data fits a datagram, and its number the field of a
header. -/
def IkcpSeg.Small (seg : IkcpSeg) (mss : UInt32) : Prop :=
  seg.data.length ≤ mss.toNat ∧ seg.frg.toNat < 128

/-- What holds of a block between the calls. -/
structure Healthy (kcp : Ikcpcb) : Prop extends Sound kcp where
  receiver : kcp.toReceiver.Valid
  sender : kcp.toSender.Valid
  remote : kcp.rmtWnd.toNat < 2 ^ 16
  queued : ∀ seg ∈ kcp.sndQueue, seg.Small kcp.mss
  buffered : ∀ seg ∈ kcp.sndBuf, seg.Small kcp.mss
  own : ∀ seg ∈ kcp.sndBuf, seg.conv = kcp.conv ∧ seg.cmd = IKCP_CMD_PUSH
  rto : 30 ≤ kcp.rxRto.toInt ∧ kcp.rxRto.toInt ≤ 60000
  probing : kcp.probeWait.toNat ≤ 120000
  timer : kcp.updated = true → FlushWithin kcp.current kcp.tsFlush 10000

theorem valid_receiver_start (wnd : UInt32) (h : wnd.toNat < 2 ^ 31) :
    Receiver.Valid ⟨0, wnd, 0, 0, [], []⟩ :=
  ⟨h, rfl, rfl, Nat.zero_le _, List.Pairwise.nil, nofun⟩

theorem valid_sender_start : Sender.Valid ⟨0, 0, 0, 0, [], []⟩ :=
  ⟨⟨rfl, rfl, by decide, List.Pairwise.nil, nofun⟩, rfl⟩

/-- The fields of a configured block that no configuration touches. -/
theorem configured_fields (config : Config) (conv : UInt32) :
    (config.block conv).conv = conv ∧
      (config.block conv).toReceiver = ⟨0, (config.block conv).rcvWnd, 0, 0, [], []⟩ ∧
      (config.block conv).toSender = ⟨0, 0, 0, 0, [], []⟩ ∧
      (config.block conv).rmtWnd = IKCP_WND_RCV ∧
      (config.block conv).rxRto = IKCP_RTO_DEF.toInt32 ∧
      (config.block conv).probeWait = 0 ∧ (config.block conv).updated = false ∧
      (config.block conv).acklist = [] ∧ (config.block conv).stream = 0 := by
  have hnodelay : ∃ nodelay minrto, setNodelay (ikcpCreate conv) config.nodelay =
      { ikcpCreate conv with nodelay := nodelay, rxMinrto := minrto } := by
    unfold setNodelay
    split
    · exact ⟨_, _, rfl⟩
    · exact ⟨_, _, rfl⟩
  obtain ⟨nodelay, minrto, hnodelay⟩ := hnodelay
  unfold Config.block ikcpSetmtu ikcpWndsize ikcpNodelay
  rw [hnodelay]
  split <;> exact ⟨rfl, rfl, rfl, rfl, rfl, rfl, rfl, rfl, rfl⟩

theorem healthy_configured (config : Config) (conv : UInt32) : Healthy (config.block conv) := by
  obtain ⟨-, hreceiver, hsender, hremote, hrto, hprobe, hupdated, -, -⟩ :=
    configured_fields config conv
  have hsound := configured_sound config conv
  have hqueue : (config.block conv).sndQueue = [] := congrArg Sender.sndQueue hsender
  have hbuf : (config.block conv).sndBuf = [] := congrArg Sender.sndBuf hsender
  refine { hsound with
    receiver := ?_, sender := ?_, remote := ?_, queued := ?_, buffered := ?_, own := ?_, rto := ?_,
    probing := ?_, timer := ?_ }
  · rw [hreceiver]
    exact valid_receiver_start _ hsound.rcvWnd_lt
  · rw [hsender]
    exact valid_sender_start
  · rw [hremote]
    decide
  · rw [hqueue]
    exact nofun
  · rw [hbuf]
    exact nofun
  · rw [hbuf]
    exact nofun
  · rw [hrto]
    decide
  · rw [hprobe]
    exact Nat.zero_le _
  · rw [hupdated]
    exact nofun

/-! ## `ikcp_send` -/

section Send

variable {kcp : Ikcpcb} {mss count : Nat} {buffer : Bytes}

/-- The fragments of a message are no longer than a segment and numbered below their count. -/
theorem mem_ikcpSegments {seg : Camera.IkcpSeg} (h : seg ∈ Camera.ikcpSegments mss buffer count) :
    seg.data.length ≤ mss ∧ seg.frg < count := by
  induction count generalizing buffer with
  | zero => cases h
  | succ count ih =>
      unfold Camera.ikcpSegments at h
      rcases List.mem_cons.1 h with rfl | h
      · refine ⟨?_, Nat.lt_succ_self _⟩
        show (buffer.take _).length ≤ mss
        rw [List.length_take]
        split <;> omega
      · obtain ⟨hlength, hfrg⟩ := ih h
        exact ⟨hlength, Nat.lt_succ_of_lt hfrg⟩

/-- Another queue with its length in the counter. -/
theorem valid_queue {sender : Sender} (hvalid : sender.Valid) {queue : List IkcpSeg}
    {nsndQue : UInt32} (hcount : nsndQue = UInt32.ofNat queue.length) :
    { sender with sndQueue := queue, nsndQue := nsndQue }.Valid :=
  ⟨⟨hcount, hvalid.buf, hvalid.flight_lt, hvalid.sorted, hvalid.below⟩, hvalid.first⟩

/-- Small segments in a queue of the right length. -/
theorem healthy_queue (hkcp : Healthy kcp) {queue : List IkcpSeg} {nsndQue : UInt32}
    (hcount : nsndQue = UInt32.ofNat queue.length) (hsmall : ∀ seg ∈ queue, seg.Small kcp.mss) :
    Healthy { kcp with sndQueue := queue, nsndQue := nsndQue } :=
  { hkcp with sender := valid_queue hkcp.sender hcount, queued := hsmall }

theorem healthy_sendFragments (hkcp : Healthy kcp) (buffer : Bytes) (sent : Nat) :
    Healthy (sendFragments kcp buffer sent).2 := by
  unfold sendFragments
  simp only []
  split
  · split <;> exact hkcp
  · rename_i hfew
    refine healthy_queue hkcp ?_ ?_
    · rw [hkcp.sender.que, List.length_append, UInt32.ofNat_add]
    · intro seg hseg
      rcases List.mem_append.1 hseg with hseg | hseg
      · exact hkcp.queued seg hseg
      · obtain ⟨fragment, hfragment, rfl⟩ := List.mem_map.1 hseg
        obtain ⟨hlength, hfrg⟩ := mem_ikcpSegments hfragment
        have hwnd : IKCP_WND_RCV.toNat = 128 := rfl
        have hless : fragment.frg < 128 := by
          split at hfrg <;> omega
        refine ⟨hlength, ?_⟩
        show (if _ then _ else _ : UInt32).toNat < 128
        split
        · rw [UInt32.toNat_ofNat']
          omega
        · decide

theorem healthy_extendLast (hkcp : Healthy kcp) (buffer : Bytes) :
    Healthy (extendLast kcp buffer).2 := by
  unfold extendLast
  split
  · rename_i old hold
    split
    · rename_i hroom
      refine @healthy_queue _ hkcp _ kcp.nsndQue ?_ ?_
      · have hne : kcp.sndQueue ≠ [] := by
          rintro hnil
          rw [hnil] at hold
          cases hold
        have hpos := List.length_pos_of_ne_nil hne
        rw [hkcp.sender.que, List.length_append, List.length_dropLast, List.length_singleton,
          Nat.sub_add_cancel hpos]
      · intro seg hseg
        rcases List.mem_append.1 hseg with hseg | hseg
        · exact hkcp.queued seg (List.dropLast_subset _ hseg)
        · rw [List.mem_singleton.1 hseg]
          refine ⟨?_, show (0 : UInt32).toNat < 128 by decide⟩
          show (old.data ++ buffer.take _).length ≤ _
          rw [List.length_append, List.length_take]
          split <;> omega
    · exact hkcp
  · exact hkcp

theorem healthy_send (hkcp : Healthy kcp) (buffer : Bytes) : Healthy (ikcpSend kcp buffer).2 := by
  unfold ikcpSend
  split
  · have hextended := healthy_extendLast hkcp buffer
    split
    rename_i sent extended heq
    rw [heq] at hextended
    split
    · exact hextended
    · exact healthy_sendFragments hextended _ _
  · exact healthy_sendFragments hkcp _ _

end Send

/-! ## `ikcp_recv` -/

section Recv

variable {kcp : Ikcpcb}

theorem healthy_receiver (hkcp : Healthy kcp) {receiver : Receiver} (hvalid : receiver.Valid)
    (hwnd : receiver.rcvWnd = kcp.rcvWnd) : Healthy { kcp with toReceiver := receiver } := by
  refine { hkcp with receiver := hvalid, rcvWnd_ge := ?_, rcvWnd_lt := hvalid.wnd }
  show 128 ≤ receiver.rcvWnd.toNat
  rw [hwnd]
  exact hkcp.rcvWnd_ge

theorem healthy_fastRecover (hkcp : Healthy kcp) (recover : Bool) :
    Healthy (fastRecover kcp recover) := by
  unfold fastRecover
  split
  · exact { hkcp with }
  · exact hkcp

theorem rcvWnd_moveAvailable (receiver : Receiver) :
    receiver.moveAvailable.rcvWnd = receiver.rcvWnd :=
  @move_invariant receiver (fun moved => moved.rcvWnd = receiver.rcvWnd) rfl
    fun _ _ _ hinv _ _ _ => hinv

theorem rcvWnd_parseData (receiver : Receiver) (seg : IkcpSeg) :
    (receiver.parseData seg).rcvWnd = receiver.rcvWnd := by
  unfold Receiver.parseData
  split
  · rfl
  · rw [rcvWnd_moveAvailable]
    rcases insert_cases receiver seg with ⟨heq, -⟩ | ⟨buffer, -, heq⟩ <;> rw [heq]

theorem healthy_recv (hkcp : Healthy kcp) (len : Int) : Healthy (ikcpRecv kcp len).2.2 := by
  rcases recv_cases kcp len with ⟨code, -, heq⟩ | ⟨-, -, -, heq⟩ <;> rw [heq]
  · exact hkcp
  · apply healthy_fastRecover
    refine healthy_receiver hkcp (valid_moveAvailable ?_) ?_
    · split
      · exact hkcp.receiver
      · exact valid_dropMessage hkcp.receiver
    · rw [rcvWnd_moveAvailable]
      split <;> rfl

end Recv

/-! ## `ikcp_input` -/

section Input

variable {kcp : Ikcpcb} {header : Header}

/-- The fields that a transmission does not change. -/
theorem core_fields {seg other : IkcpSeg} (h : seg.core = other.core) :
    seg.conv = other.conv ∧ seg.cmd = other.cmd ∧ seg.sn = other.sn ∧ seg.frg = other.frg ∧
      seg.data = other.data := by
  unfold IkcpSeg.core at h
  simp only [IkcpSeg.mk.injEq, true_and] at h
  obtain ⟨hconv, hcmd, hfrg, hsn, hdata⟩ := h
  exact ⟨hconv, hcmd, hsn, hfrg, hdata⟩

/-- A block whose sender has lost segments of `snd_buf`. -/
theorem healthy_sender (hkcp : Healthy kcp) {sender : Sender} (hvalid : sender.Valid)
    (hqueue : sender.sndQueue = kcp.sndQueue)
    (hsub : ∀ seg ∈ sender.sndBuf, ∃ other ∈ kcp.sndBuf, seg.core = other.core) :
    Healthy { kcp with toSender := sender } := by
  refine { hkcp with sender := hvalid, queued := ?_, buffered := ?_, own := ?_ }
  · show ∀ seg ∈ sender.sndQueue, _
    rw [hqueue]
    exact hkcp.queued
  · intro seg hseg
    obtain ⟨other, hother, hcore⟩ := hsub seg hseg
    obtain ⟨-, -, -, hfrg, hdata⟩ := core_fields hcore
    unfold IkcpSeg.Small
    rw [hdata, hfrg]
    exact hkcp.buffered other hother
  · intro seg hseg
    obtain ⟨other, hother, hcore⟩ := hsub seg hseg
    obtain ⟨hconv, hcmd, -⟩ := core_fields hcore
    rw [hconv, hcmd]
    exact hkcp.own other hother

/-- Fewer segments are segments of before. -/
theorem core_of_subset {buffer whole : List IkcpSeg} (hsub : buffer ⊆ whole) :
    ∀ seg ∈ buffer, ∃ other ∈ whole, seg.core = other.core :=
  fun seg hseg => ⟨seg, hsub hseg, rfl⟩

theorem parseUna_subset (sender : Sender) (una : UInt32) :
    (sender.parseUna una).sndBuf ⊆ sender.sndBuf := by
  have hloop (buffer : List IkcpSeg) (nsndBuf : UInt32) :
      (Sender.parseUnaLoop una buffer nsndBuf).1 ⊆ buffer := by
    induction buffer generalizing nsndBuf with
    | nil => exact List.Subset.refl _
    | cons seg rest ih =>
        unfold Sender.parseUnaLoop
        split
        · exact List.subset_cons_of_subset _ (ih _)
        · exact List.Subset.refl _
  exact hloop _ _

theorem parseAck_subset (sender : Sender) (sn : UInt32) :
    (sender.parseAck sn).sndBuf ⊆ sender.sndBuf := by
  unfold Sender.parseAck
  split
  · exact List.Subset.refl _
  · exact (parseAckLoop_spec sn sender.sndBuf).1.subset

theorem parseAck_queue (sender : Sender) (sn : UInt32) :
    (sender.parseAck sn).sndQueue = sender.sndQueue := by
  unfold Sender.parseAck
  split <;> rfl

theorem parseFastackLoop_core (sn ts : UInt32) (buffer : List IkcpSeg) :
    (Sender.parseFastackLoop sn ts buffer).map IkcpSeg.core = buffer.map IkcpSeg.core := by
  induction buffer with
  | nil => rfl
  | cons seg rest ih =>
      unfold Sender.parseFastackLoop
      split
      · rfl
      · split <;> rw [List.map_cons, List.map_cons, ih]
        rfl

theorem parseFastack_spec {sender : Sender} (hvalid : sender.Valid) (sn ts : UInt32) :
    (sender.parseFastack sn ts).Valid ∧
      (sender.parseFastack sn ts).sndBuf.map IkcpSeg.core = sender.sndBuf.map IkcpSeg.core := by
  unfold Sender.parseFastack
  split
  · exact ⟨hvalid, rfl⟩
  · have hcore := parseFastackLoop_core sn ts sender.sndBuf
    exact ⟨valid_core hvalid hcore, hcore⟩

theorem parseFastack_queue (sender : Sender) (sn ts : UInt32) :
    (sender.parseFastack sn ts).sndQueue = sender.sndQueue := by
  unfold Sender.parseFastack
  split <;> rfl

/-- Segments of one list with the unchanging fields of another. -/
theorem core_of_map {buffer other : List IkcpSeg}
    (h : buffer.map IkcpSeg.core = other.map IkcpSeg.core) :
    ∀ seg ∈ buffer, ∃ seg' ∈ other, seg.core = seg'.core := by
  intro seg hseg
  obtain ⟨seg', hseg', heq⟩ := List.mem_map.1 (h ▸ List.mem_map_of_mem hseg)
  exact ⟨seg', hseg', heq.symm⟩

theorem toNat_toUInt16 (wnd : UInt16) : wnd.toUInt32.toNat < 2 ^ 16 := by
  rw [UInt16.toNat_toUInt32]
  exact wnd.toNat_lt

theorem healthy_inputHeader (hkcp : Healthy kcp) : Healthy (inputHeader kcp header) := by
  have hremote : Healthy { kcp with rmtWnd := header.wnd.toUInt32 } :=
    { hkcp with remote := toNat_toUInt16 header.wnd }
  exact healthy_sender hremote (valid_shrinkBuf (ordered_parseUna hkcp.sender.toOrdered)) rfl
    (core_of_subset (parseUna_subset kcp.toSender header.una))

/-- `rx_rto` is bounded by `ikcp_update_ack`, whatever the round trip is. -/
theorem rto_updateAck (hkcp : Healthy kcp) (interval : UInt32) (rtt : Int32) :
    (updateAck kcp.toRoundTrip interval rtt).rxMinrto = kcp.rxMinrto ∧
      30 ≤ (updateAck kcp.toRoundTrip interval rtt).rxRto.toInt ∧
      (updateAck kcp.toRoundTrip interval rtt).rxRto.toInt ≤ 60000 := by
  have hbound (rto : UInt32) :
      30 ≤ (ibound kcp.rxMinrto.toUInt32 rto IKCP_RTO_MAX).toInt32.toInt ∧
        (ibound kcp.rxMinrto.toUInt32 rto IKCP_RTO_MAX).toInt32.toInt ≤ 60000 := by
    have hmax : IKCP_RTO_MAX.toNat = 60000 := rfl
    have hmin : 30 ≤ kcp.rxMinrto.toUInt32.toNat := by
      rcases hkcp.minrto with h | h <;> rw [h] <;> decide
    have hvalue := ibound_toNat kcp.rxMinrto.toUInt32 rto IKCP_RTO_MAX
    have hint : (ibound kcp.rxMinrto.toUInt32 rto IKCP_RTO_MAX).toInt32.toInt =
        (ibound kcp.rxMinrto.toUInt32 rto IKCP_RTO_MAX).toNat := by
      generalize ibound kcp.rxMinrto.toUInt32 rto IKCP_RTO_MAX = bound at hvalue ⊢
      rw [Int32.toInt, UInt32.toBitVec_toInt32, BitVec.toInt_eq_toNat_cond, if_pos]
      · rfl
      · show 2 * bound.toNat < 2 ^ 32
        omega
    rw [hint]
    omega
  unfold updateAck
  split <;> exact ⟨rfl, hbound _⟩

theorem healthy_ackBlock (hkcp : Healthy kcp) : Healthy (ackBlock kcp header) := by
  have hsender : Healthy { kcp with toSender := (kcp.toSender.parseAck header.sn).shrinkBuf } :=
    healthy_sender hkcp (valid_shrinkBuf (ordered_parseAck hkcp.sender.toOrdered))
      (parseAck_queue _ _) (core_of_subset (parseAck_subset kcp.toSender header.sn))
  unfold ackBlock
  split
  · obtain ⟨hminrto, hlow, hhigh⟩ := rto_updateAck hkcp kcp.interval
      (kcp.current - header.ts).toInt32
    exact { hsender with minrto := by rw [hminrto]; exact hkcp.minrto, rto := ⟨hlow, hhigh⟩ }
  · exact hsender

theorem healthy_inputPush (hkcp : Healthy kcp) (data : Bytes) :
    Healthy (inputPush kcp header data) := by
  unfold inputPush
  split
  · have hacked : Healthy { kcp with acklist := kcp.acklist ++ [(header.sn, header.ts)] } :=
      { hkcp with }
    refine healthy_receiver hacked ?_ ?_
    · split
      · exact valid_parseData hkcp.receiver
      · exact hkcp.receiver
    · split
      · exact rcvWnd_parseData _ _
      · rfl
  · exact hkcp

theorem rmtWnd_growWindow (window : Congestion) (mss : UInt32) :
    (growWindow window mss).rmtWnd = window.rmtWnd := by
  have henlarged : (enlarged window mss).rmtWnd = window.rmtWnd := by
    unfold enlarged
    split <;> rfl
  unfold growWindow
  split
  · split <;> exact henlarged
  · rfl

theorem healthy_inputEnd {state : InputState} (hstate : Healthy state.kcp) (prevUna : UInt32) :
    Healthy (inputEnd prevUna state) := by
  obtain ⟨hvalid, hcore⟩ := parseFastack_spec hstate.sender state.maxack state.latestTs
  have hfast : Healthy { state.kcp with
      toSender := if state.flag then state.kcp.toSender.parseFastack state.maxack state.latestTs
        else state.kcp.toSender } := by
    split
    · exact healthy_sender hstate hvalid (parseFastack_queue _ _ _) (core_of_map hcore)
    · exact hstate
  refine { hfast with remote := ?_ }
  show (if _ then _ else _ : Congestion).rmtWnd.toNat < _
  split
  · rw [rmtWnd_growWindow]
    exact hstate.remote
  · exact hstate.remote

/-- No datagram breaks the invariant. -/
theorem healthy_input (hkcp : Healthy kcp) (data : Bytes) : Healthy (ikcpInput kcp data).2 :=
  input_invariant (fun _ _ h => healthy_inputHeader h) (fun _ _ h => healthy_ackBlock h)
    (fun _ _ data h => healthy_inputPush h data) (fun _ h => { h with })
    (fun prevUna _ h => healthy_inputEnd h prevUna) hkcp data

end Input

/-! ## `ikcp_flush` and `ikcp_update` -/

section Flush

variable {kcp : Ikcpcb}

theorem nextProbeWait_le (probeWait : UInt32) : (nextProbeWait probeWait).toNat ≤ 120000 := by
  unfold nextProbeWait
  simp only []
  generalize (if probeWait < IKCP_PROBE_INIT then IKCP_PROBE_INIT else probeWait) = wait
  split
  · decide
  · rename_i hle
    exact UInt32.le_iff_toNat_le.1 (UInt32.not_lt.1 hle)

/-- Only the acknowledgements and the fields of the probe change before the data. -/
theorem probed_eq (kcp : Ikcpcb) : ∃ tsProbe probeWait probe,
    probed kcp = { kcp with
      acklist := [], tsProbe := tsProbe, probeWait := probeWait, probe := probe } ∧
      (kcp.probeWait.toNat ≤ 120000 → probeWait.toNat ≤ 120000) := by
  unfold probed probeWindow
  split
  · split
    · exact ⟨_, _, _, rfl, fun _ => by decide⟩
    · split
      · exact ⟨_, _, _, rfl, fun _ => nextProbeWait_le _⟩
      · exact ⟨_, _, _, rfl, id⟩
  · exact ⟨_, _, _, rfl, fun _ => Nat.zero_le _⟩

theorem healthy_probed (hkcp : Healthy kcp) : Healthy (probed kcp) := by
  obtain ⟨tsProbe, probeWait, probe, heq, hwait⟩ := probed_eq kcp
  rw [heq]
  exact { hkcp with probing := hwait hkcp.probing }

theorem windowSize_lt (h : kcp.rmtWnd.toNat < 2 ^ 16) : (windowSize kcp).toNat < 2 ^ 16 := by
  unfold windowSize
  simp only []
  split
  · rw [imin_toNat, imin_toNat]
    omega
  · rw [imin_toNat]
    omega

theorem healthy_filled (hkcp : Healthy kcp) : Healthy (filled kcp) := by
  have hprobed := healthy_probed hkcp
  have hcwnd := windowSize_lt hprobed.remote
  have hfill := @fill_invariant _ (probed kcp) (windowSize (probed kcp))
    (fun sender => sender.Valid ∧ (∀ seg ∈ sender.sndQueue, seg.Small (probed kcp).mss) ∧
      (∀ seg ∈ sender.sndBuf, seg.Small (probed kcp).mss) ∧
      ∀ seg ∈ sender.sndBuf, seg.conv = (probed kcp).conv ∧ seg.cmd = IKCP_CMD_PUSH)
    ⟨hprobed.sender, hprobed.queued, hprobed.buffered, hprobed.own⟩ ?_
  · exact { hprobed with
      sender := hfill.1, queued := hfill.2.1, buffered := hfill.2.2.1, own := hfill.2.2.2 }
  · rintro sender seg rest ⟨hvalid, hqueued, hbuffered, hown⟩ hqueue hroom
    rw [flight_lt_iff hvalid hcwnd] at hroom
    rw [hqueue] at hqueued
    obtain ⟨hseg, hrest⟩ := List.forall_mem_cons.1 hqueued
    refine ⟨valid_enter hvalid hqueue hcwnd hroom, hrest, ?_, ?_⟩
    · intro other hother
      rcases List.mem_append.1 hother with hother | hother
      · exact hbuffered other hother
      · rw [List.mem_singleton.1 hother]
        exact hseg
    · intro other hother
      rcases List.mem_append.1 hother with hother | hother
      · exact hown other hother
      · rw [List.mem_singleton.1 hother]
        exact ⟨rfl, rfl⟩

/-- The segments of `snd_buf` after the loop over them. -/
theorem dataFlush_passed (kcp : Ikcpcb) :
    (dataFlush kcp).passed = (filled kcp).sndBuf.map (processed (filled kcp)) :=
  (dataFold_eq _ _ _).1

theorem passed_core (kcp : Ikcpcb) :
    (dataFlush kcp).passed.map IkcpSeg.core = (filled kcp).sndBuf.map IkcpSeg.core := by
  rw [dataFlush_passed, List.map_map]
  exact List.map_congr_left fun seg _ => core_processed _ seg

theorem healthy_flush (hkcp : Healthy kcp) : Healthy (ikcpFlush kcp).1 := by
  have hfilled := healthy_filled hkcp
  have hcore := passed_core kcp
  unfold ikcpFlush
  split
  · exact hkcp
  · have hpassed := healthy_sender hfilled (valid_core hfilled.sender hcore) rfl
      (core_of_map hcore)
    refine { hpassed with remote := ?_ }
    show (congested _ _ _ _).rmtWnd.toNat < _
    have hsame (cwnd : UInt32) (change lost : Bool) :
        (congested (filled kcp) cwnd change lost).rmtWnd = (filled kcp).rmtWnd := by
      unfold congested
      cases change <;> cases lost <;> simp only [Bool.false_eq_true, if_false, if_true] <;>
        split <;> rfl
    rw [hsame]
    exact hfilled.remote

/-- An update sets the clock, and flushes or not. -/
theorem update_begun (hkcp : Healthy kcp) (now : UInt32) : ∃ tsFlush,
    Healthy { kcp with current := now, updated := true, tsFlush := tsFlush } ∧
      (ikcpUpdate kcp now =
          ikcpFlush { kcp with current := now, updated := true, tsFlush := tsFlush } ∨
        ikcpUpdate kcp now =
          ({ kcp with current := now, updated := true, tsFlush := tsFlush }, [])) := by
  have hnear := synchronized_near now (started kcp now).tsFlush
  by_cases hearly : itimediff now (synchronized now (started kcp now).tsFlush) < 0
  · obtain ⟨-, hpos, hmost⟩ := offset_of_behind hearly hnear.1
    exact ⟨_, { hkcp with timer := fun _ => ⟨hpos, hmost⟩ }, Or.inr (update_quiet hearly)⟩
  · have hdue := Int.not_lt.1 hearly
    have hpos : 0 < kcp.interval.toNat := Nat.lt_of_lt_of_le (by decide) hkcp.interval_ge
    obtain ⟨hfuture, hmost⟩ := nextFlush_within hpos hkcp.interval_le hdue
    refine ⟨_, { hkcp with timer := fun _ => ⟨hfuture, ?_⟩ }, Or.inl (update_flush hdue)⟩
    exact Nat.le_trans hmost (Nat.le_trans hkcp.interval_le (by decide))

theorem healthy_update (hkcp : Healthy kcp) (now : UInt32) : Healthy (ikcpUpdate kcp now).1 := by
  obtain ⟨tsFlush, hbegun, h | h⟩ := update_begun hkcp now <;> rw [h]
  · exact healthy_flush hbegun
  · exact hbegun

end Flush

/-! ## Any calls -/

/-- A call on a block: `ikcp_send`, `ikcp_recv`, `ikcp_input`, `ikcp_update` or `ikcp_flush`. -/
inductive Call where
  | send (buffer : Bytes)
  | recv (len : Int)
  | input (data : Bytes)
  | update (current : UInt32)
  | flush
deriving DecidableEq, Repr

/-- The block after a call. -/
def Call.apply (kcp : Ikcpcb) : Call → Ikcpcb
  | .send buffer => (ikcpSend kcp buffer).2
  | .recv len => (ikcpRecv kcp len).2.2
  | .input data => (ikcpInput kcp data).2
  | .update current => (ikcpUpdate kcp current).1
  | .flush => (ikcpFlush kcp).1

/-- A call of `ikcp_update`. -/
def Call.IsUpdate : Call → Prop
  | .update _ => True
  | _ => False

/-- The fields that only an update or a configuration sets; the others are blank. -/
def Ikcpcb.settings (kcp : Ikcpcb) : Ikcpcb :=
  { kcp with
    toReceiver := ⟨0, kcp.rcvWnd, 0, 0, [], []⟩
    toSender := ⟨0, 0, 0, 0, [], []⟩
    toRoundTrip := ⟨0, 0, 0, kcp.rxMinrto⟩
    toCongestion := ⟨0, 0, 0, 0⟩
    state := 0
    probe := 0
    xmit := 0
    tsProbe := 0
    probeWait := 0
    acklist := [] }

/-- The fields that only a configuration sets. -/
def Ikcpcb.parameters (kcp : Ikcpcb) : Ikcpcb :=
  { kcp.settings with current := 0, updated := false, tsFlush := 0 }

theorem settings_send (kcp : Ikcpcb) (buffer : Bytes) :
    (ikcpSend kcp buffer).2.settings = kcp.settings := by
  have hfragments (kcp : Ikcpcb) (buffer : Bytes) (sent : Nat) :
      (sendFragments kcp buffer sent).2.settings = kcp.settings := by
    unfold sendFragments
    simp only []
    split
    · split <;> rfl
    · rfl
  have hextend : (extendLast kcp buffer).2.settings = kcp.settings := by
    unfold extendLast
    split
    · split <;> rfl
    · rfl
  unfold ikcpSend
  split
  · rcases heq : extendLast kcp buffer with ⟨sent, extended⟩
    rw [heq] at hextend
    simp only []
    split
    · exact hextend
    · exact (hfragments _ _ _).trans hextend
  · exact hfragments _ _ _

/-- Another receiver with the same window. -/
theorem settings_receiver {kcp : Ikcpcb} {receiver : Receiver}
    (hwnd : receiver.rcvWnd = kcp.rcvWnd) :
    { kcp with toReceiver := receiver }.settings = kcp.settings := by
  unfold Ikcpcb.settings
  rw [hwnd]

theorem settings_recv (kcp : Ikcpcb) (len : Int) :
    (ikcpRecv kcp len).2.2.settings = kcp.settings := by
  have hrecover (kcp : Ikcpcb) (recover : Bool) :
      (fastRecover kcp recover).settings = kcp.settings := by
    unfold fastRecover
    split <;> rfl
  rcases recv_cases kcp len with ⟨code, -, heq⟩ | ⟨-, -, -, heq⟩ <;> rw [heq]
  rw [hrecover]
  refine settings_receiver ?_
  rw [rcvWnd_moveAvailable]
  split <;> rfl

theorem settings_push (kcp : Ikcpcb) (header : Header) (data : Bytes) :
    (inputPush kcp header data).settings = kcp.settings := by
  unfold inputPush
  split
  · have hwnd : (if itimediff header.sn kcp.rcvNxt ≥ 0 then
        kcp.toReceiver.parseData (header.segment data) else kcp.toReceiver).rcvWnd =
        kcp.rcvWnd := by
      split
      · exact rcvWnd_parseData _ _
      · rfl
    exact settings_receiver hwnd
  · rfl

theorem settings_input (kcp : Ikcpcb) (data : Bytes) :
    (ikcpInput kcp data).2.settings = kcp.settings := by
  have hack (after : Ikcpcb) (header : Header) : (ackBlock after header).settings =
      after.settings := by
    unfold ackBlock Ikcpcb.settings updateAck
    split
    · simp only []
      split <;> rfl
    · rfl
  have hend (prevUna : UInt32) (state : InputState) :
      (inputEnd prevUna state).settings = state.kcp.settings := rfl
  have hinv := @input_invariant (fun after => after.settings = kcp.settings)
    (fun _ _ h => h) (fun after header h => (hack after header).trans h)
    (fun after header data h => (settings_push after header data).trans h) (fun _ h => h)
    (fun prevUna state h => (hend prevUna state).trans h) kcp rfl data
  exact hinv

theorem settings_flush (kcp : Ikcpcb) : (ikcpFlush kcp).1.settings = kcp.settings := by
  obtain ⟨_, _, _, heq, -⟩ := probed_eq kcp
  have hprobed : (probed kcp).settings = kcp.settings := by
    rw [heq]
    rfl
  unfold ikcpFlush
  split
  · rfl
  · exact hprobed

theorem parameters_update (kcp : Ikcpcb) (now : UInt32) :
    (ikcpUpdate kcp now).1.parameters = kcp.parameters := by
  unfold ikcpUpdate Ikcpcb.parameters
  simp only []
  split
  · rw [settings_flush]
    rfl
  · rfl

/-- A call that is not an update changes no setting. -/
theorem settings_call (kcp : Ikcpcb) {call : Call} (hcall : ¬ call.IsUpdate) :
    (call.apply kcp).settings = kcp.settings := by
  cases call with
  | send buffer => exact settings_send kcp buffer
  | recv len => exact settings_recv kcp len
  | input data => exact settings_input kcp data
  | update now => exact absurd trivial hcall
  | flush => exact settings_flush kcp

theorem parameters_of_settings {kcp after : Ikcpcb} (h : after.settings = kcp.settings) :
    after.parameters = kcp.parameters := by
  unfold Ikcpcb.parameters
  rw [h]

/-- Some of the parameters. -/
theorem parameters_fields {kcp after : Ikcpcb} (h : after.parameters = kcp.parameters) :
    after.conv = kcp.conv ∧ after.mss = kcp.mss ∧ after.interval = kcp.interval ∧
      after.stream = kcp.stream := by
  have hconv := congrArg Ikcpcb.conv h
  have hmss := congrArg Ikcpcb.mss h
  have hinterval := congrArg Ikcpcb.interval h
  have hstream := congrArg Ikcpcb.stream h
  exact ⟨hconv, hmss, hinterval, hstream⟩

/-- No call changes a parameter. -/
theorem parameters_call (kcp : Ikcpcb) (call : Call) :
    (call.apply kcp).parameters = kcp.parameters := by
  cases call with
  | update now => exact parameters_update kcp now
  | send | recv | input | flush => exact parameters_of_settings (settings_call kcp id)

theorem parameters_calls (kcp : Ikcpcb) (calls : List Call) :
    (calls.foldl Call.apply kcp).parameters = kcp.parameters := by
  induction calls generalizing kcp with
  | nil => rfl
  | cons call rest ih => exact (ih _).trans (parameters_call kcp call)

theorem healthy_call {kcp : Ikcpcb} (hkcp : Healthy kcp) (call : Call) :
    Healthy (call.apply kcp) := by
  cases call with
  | send buffer => exact healthy_send hkcp buffer
  | recv len => exact healthy_recv hkcp len
  | input data => exact healthy_input hkcp data
  | update current => exact healthy_update hkcp current
  | flush => exact healthy_flush hkcp

/-- Calls that are no updates change no setting. -/
theorem settings_calls (kcp : Ikcpcb) {calls : List Call} (hcalls : ∀ call ∈ calls, ¬ call.IsUpdate) :
    (calls.foldl Call.apply kcp).settings = kcp.settings := by
  induction calls generalizing kcp with
  | nil => rfl
  | cons call rest ih =>
      obtain ⟨hcall, hrest⟩ := List.forall_mem_cons.1 hcalls
      exact (ih _ hrest).trans (settings_call kcp hcall)

theorem healthy_fold {kcp : Ikcpcb} (hkcp : Healthy kcp) (calls : List Call) :
    Healthy (calls.foldl Call.apply kcp) := by
  induction calls generalizing kcp with
  | nil => exact hkcp
  | cons call rest ih => exact ih (healthy_call hkcp call)

/-- Whatever a program calls and whatever datagrams arrive, the block stays healthy. -/
theorem healthy_calls (config : Config) (conv : UInt32) (calls : List Call) :
    Healthy (calls.foldl Call.apply (config.block conv)) :=
  healthy_fold (healthy_configured config conv) calls

end CarDetect.Kcp
