import CarDetect.Kcp.Input

/-!
# Flushing

`ikcp_flush`: acknowledgements, window probes, the segments that enter `snd_buf` within the window,
and the segments of `snd_buf` that are due for the first time or again. They are packed into
datagrams of at most the MTU. The output callback is the list of datagrams that the function
returns. `flush_emits` says what the datagrams consist of.
-/

namespace CarDetect.Kcp

open BigEndian SequenceSpace
open Camera (IKCP_OVERHEAD)

/-! ## Packing -/

/-- `buffer` up to `ptr`, and the datagrams that went to the output callback. -/
structure Output where
  buffer : Bytes
  sent : List Bytes
deriving DecidableEq, Repr

namespace Output

/-- `ikcp_output` on the buffer, which is empty afterwards. Nothing is sent if it is empty. -/
def output (out : Output) : Output :=
  if out.buffer.length == 0 then ⟨[], out.sent⟩ else ⟨[], out.sent ++ [out.buffer]⟩

/-- The output before a segment that needs `need` bytes and does not fit. -/
def reserve (mtu : UInt32) (need : Nat) (out : Output) : Output :=
  if out.buffer.length + need > mtu.toNat then out.output else out

/-- A segment is written behind `ptr`. -/
def put (mtu : UInt32) (out : Output) (seg : IkcpSeg) : Output :=
  let out := out.reserve mtu (IKCP_OVERHEAD + seg.data.length)
  { out with buffer := out.buffer ++ seg.wire }

end Output

/-! ## Acknowledgements and probes -/

/-- `ikcp_wnd_unused` -/
def wndUnused (receiver : Receiver) : UInt32 :=
  if receiver.nrcvQue < receiver.rcvWnd then receiver.rcvWnd - receiver.nrcvQue else 0

/-- The local `seg` of `ikcp_flush` before the acknowledgements. -/
def ackSegment (kcp : Ikcpcb) : IkcpSeg where
  conv := kcp.conv
  cmd := IKCP_CMD_ACK
  frg := 0
  wnd := wndUnused kcp.toReceiver
  ts := 0
  sn := 0
  una := kcp.rcvNxt
  resendts := 0
  rto := 0
  fastack := 0
  xmit := 0
  data := []

/-- `seg` and the output after one acknowledgement. -/
def flushAck (mtu : UInt32) (state : IkcpSeg × Output) (ack : UInt32 × UInt32) :
    IkcpSeg × Output :=
  let seg := { state.1 with sn := ack.1, ts := ack.2 }
  (seg, state.2.put mtu seg)

/-- `probe_wait` after another probe. -/
def nextProbeWait (probeWait : UInt32) : UInt32 :=
  let wait := if probeWait < IKCP_PROBE_INIT then IKCP_PROBE_INIT else probeWait
  if wait + wait / 2 > IKCP_PROBE_LIMIT then IKCP_PROBE_LIMIT else wait + wait / 2

/-- The probe of a remote window of size 0. -/
def probeWindow (kcp : Ikcpcb) : Ikcpcb :=
  if kcp.rmtWnd == 0 then
    if kcp.probeWait == 0 then
      { kcp with probeWait := IKCP_PROBE_INIT, tsProbe := kcp.current + IKCP_PROBE_INIT }
    else if itimediff kcp.current kcp.tsProbe ≥ 0 then
      { kcp with
        probeWait := nextProbeWait kcp.probeWait
        tsProbe := kcp.current + nextProbeWait kcp.probeWait
        probe := kcp.probe ||| IKCP_ASK_SEND }
    else kcp
  else { kcp with tsProbe := 0, probeWait := 0 }

/-- One of the two window probing commands, if its bit is set. -/
def flushProbe (mtu probe bit cmd : UInt32) (state : IkcpSeg × Output) : IkcpSeg × Output :=
  if probe &&& bit != 0 then
    ({ state.1 with cmd := cmd }, state.2.put mtu { state.1 with cmd := cmd })
  else state

/-- The block with its acknowledgements flushed and the window probed. -/
def probed (kcp : Ikcpcb) : Ikcpcb := probeWindow { kcp with acklist := [] }

/-- The output after the acknowledgements and the probing commands. -/
def controlOutput (kcp : Ikcpcb) : Output :=
  let acks := kcp.acklist.foldl (flushAck kcp.mtu) (ackSegment kcp, ⟨[], []⟩)
  let asked := flushProbe kcp.mtu (probed kcp).probe IKCP_ASK_SEND IKCP_CMD_WASK acks
  (flushProbe kcp.mtu (probed kcp).probe IKCP_ASK_TELL IKCP_CMD_WINS asked).2

/-! ## Segments that enter `snd_buf` -/

/-- `cwnd`, the window for this flush. -/
def windowSize (kcp : Ikcpcb) : UInt32 :=
  let cwnd := imin kcp.sndWnd kcp.rmtWnd
  if kcp.nocwnd == 0 then imin kcp.cwnd cwnd else cwnd

/-- A segment with the fields that it gets when it enters `snd_buf`. -/
def numbered (kcp : Ikcpcb) (sn : UInt32) (seg : IkcpSeg) : IkcpSeg :=
  { seg with
    conv := kcp.conv
    cmd := IKCP_CMD_PUSH
    wnd := wndUnused kcp.toReceiver
    ts := kcp.current
    sn := sn
    una := kcp.rcvNxt
    resendts := kcp.current
    rto := kcp.rxRto.toUInt32
    fastack := 0
    xmit := 0 }

namespace Sender

/-- The head of `snd_queue` goes to the tail of `snd_buf`. -/
def enter (sender : Sender) (kcp : Ikcpcb) (seg : IkcpSeg) (rest : List IkcpSeg) : Sender :=
  { sender with
    sndQueue := rest
    nsndQue := sender.nsndQue - 1
    sndBuf := sender.sndBuf ++ [numbered kcp sender.sndNxt seg]
    nsndBuf := sender.nsndBuf + 1
    sndNxt := sender.sndNxt + 1 }

/-- The loop that moves data from `snd_queue` to `snd_buf`, over what is left of `snd_queue`. -/
def fillLoop (kcp : Ikcpcb) (cwnd : UInt32) : List IkcpSeg → Sender → Sender
  | [], sender => sender
  | seg :: rest, sender =>
      if itimediff sender.sndNxt (sender.sndUna + cwnd) < 0 then
        fillLoop kcp cwnd rest (sender.enter kcp seg rest)
      else sender

end Sender

/-- The block before the data segments are flushed. -/
def filled (kcp : Ikcpcb) : Ikcpcb :=
  { probed kcp with
    probe := 0
    toSender := Sender.fillLoop (probed kcp) (windowSize (probed kcp)) (probed kcp).sndQueue
      (probed kcp).toSender }

/-! ## Data segments -/

/-- Why a segment is sent. -/
inductive Due where
  | first
  | timeout
  | fast
deriving DecidableEq, Repr

/-- `resent` -/
def resentLimit (kcp : Ikcpcb) : UInt32 :=
  if kcp.fastresend > 0 then kcp.fastresend.toUInt32 else 0xffffffff

/-- `rtomin` -/
def rtomin (kcp : Ikcpcb) : UInt32 :=
  if kcp.nodelay == 0 then (kcp.rxRto >>> 3).toUInt32 else 0

/-- `needsend`, with the branch that sets it. -/
def due (kcp : Ikcpcb) (seg : IkcpSeg) : Option Due :=
  if seg.xmit == 0 then some .first
  else if itimediff kcp.current seg.resendts ≥ 0 then some .timeout
  else if seg.fastack ≥ resentLimit kcp &&
      (seg.xmit.toInt32 ≤ kcp.fastlimit || kcp.fastlimit ≤ 0) then some .fast
  else none

/-- The `rto` of a segment after a timeout. -/
def backoff (kcp : Ikcpcb) (rto : UInt32) : UInt32 :=
  if kcp.nodelay == 0 then rto + imax rto kcp.rxRto.toUInt32
  else
    let step := if kcp.nodelay < 2 then rto.toInt32 else kcp.rxRto
    rto + (step / 2).toUInt32

/-- A due segment with its next time to be due. -/
def rescheduled (kcp : Ikcpcb) (seg : IkcpSeg) : Due → IkcpSeg
  | .first =>
      { seg with
        xmit := seg.xmit + 1
        rto := kcp.rxRto.toUInt32
        resendts := kcp.current + kcp.rxRto.toUInt32 + rtomin kcp }
  | .timeout =>
      { seg with
        xmit := seg.xmit + 1
        rto := backoff kcp seg.rto
        resendts := kcp.current + backoff kcp seg.rto }
  | .fast =>
      { seg with
        xmit := seg.xmit + 1
        fastack := 0
        resendts := kcp.current + seg.rto }

/-- The segment that is sent. -/
def transmitted (kcp : Ikcpcb) (seg : IkcpSeg) (why : Due) : IkcpSeg :=
  { rescheduled kcp seg why with
    ts := kcp.current
    wnd := wndUnused kcp.toReceiver
    una := kcp.rcvNxt }

/-- What the loop over `snd_buf` changes: the output, the segments it has passed, the fields `xmit`
and `state` of the block, and `change` and `lost`. -/
structure DataFlush where
  out : Output
  passed : List IkcpSeg
  xmit : UInt32
  state : UInt32
  change : Bool
  lost : Bool
deriving DecidableEq, Repr

/-- One round of the loop over `snd_buf`. -/
def flushSegment (kcp : Ikcpcb) (flush : DataFlush) (seg : IkcpSeg) : DataFlush :=
  match due kcp seg with
  | none => { flush with passed := flush.passed ++ [seg] }
  | some why =>
      { out := flush.out.put kcp.mtu (transmitted kcp seg why)
        passed := flush.passed ++ [transmitted kcp seg why]
        xmit := if why = .timeout then flush.xmit + 1 else flush.xmit
        state := if (transmitted kcp seg why).xmit ≥ kcp.deadLink then 0xffffffff else flush.state
        change := flush.change || why == .fast
        lost := flush.lost || why == .timeout }

/-- The loop over `snd_buf`, behind the acknowledgements and probes of `kcp`. -/
def dataFlush (kcp : Ikcpcb) : DataFlush :=
  (filled kcp).sndBuf.foldl (flushSegment (filled kcp))
    ⟨controlOutput kcp, [], (filled kcp).xmit, (filled kcp).state, false, false⟩

/-- `ssthresh` from a window, but not less than its minimum. -/
def threshold (window : UInt32) : UInt32 :=
  if window / 2 < IKCP_THRESH_MIN then IKCP_THRESH_MIN else window / 2

/-- The congestion window after a flush with `cwnd` in which segments were sent again. -/
def congested (kcp : Ikcpcb) (cwnd : UInt32) (change lost : Bool) : Congestion :=
  let window := kcp.toCongestion
  let window :=
    if change then
      let ssthresh := threshold (kcp.sndNxt - kcp.sndUna)
      let resumed := ssthresh + resentLimit kcp
      { window with ssthresh := ssthresh, cwnd := resumed, incr := resumed * kcp.mss }
    else window
  let window :=
    if lost then { window with ssthresh := threshold cwnd, cwnd := 1, incr := kcp.mss } else window
  if window.cwnd < 1 then { window with cwnd := 1, incr := kcp.mss } else window

/-- `ikcp_flush`: the block after it and the datagrams that went to the output callback. -/
def ikcpFlush (kcp : Ikcpcb) : Ikcpcb × List Bytes :=
  if !kcp.updated then (kcp, [])
  else
    let flush := dataFlush kcp
    ({ filled kcp with
        sndBuf := flush.passed
        xmit := flush.xmit
        state := flush.state
        toCongestion := congested (filled kcp) (windowSize (probed kcp)) flush.change flush.lost },
      flush.out.output.sent)

/-! ## The segments of a flush -/

/-- What stays the same of a segment in `snd_buf`. -/
def IkcpSeg.core (seg : IkcpSeg) : IkcpSeg :=
  { seg with wnd := 0, ts := 0, una := 0, resendts := 0, rto := 0, fastack := 0, xmit := 0 }

/-- The acknowledgements and probing commands of a flush. -/
def controlSegments (kcp : Ikcpcb) : List IkcpSeg :=
  let acks := kcp.acklist.map fun ack => { ackSegment kcp with sn := ack.1, ts := ack.2 }
  let last := acks.getLastD (ackSegment kcp)
  acks ++ (if (probed kcp).probe &&& IKCP_ASK_SEND != 0 then
      [{ last with cmd := IKCP_CMD_WASK }] else []) ++
    (if (probed kcp).probe &&& IKCP_ASK_TELL != 0 then [{ last with cmd := IKCP_CMD_WINS }] else [])

/-- A segment of `snd_buf` after the loop. -/
def processed (kcp : Ikcpcb) (seg : IkcpSeg) : IkcpSeg :=
  ((due kcp seg).map (transmitted kcp seg)).getD seg

/-- The data segments of a flush. -/
def dataSegments (kcp : Ikcpcb) : List IkcpSeg :=
  (filled kcp).sndBuf.filterMap fun seg => (due (filled kcp) seg).map (transmitted (filled kcp) seg)

/-- The bytes of successive segments. -/
def wires (segs : List IkcpSeg) : Bytes := (segs.map IkcpSeg.wire).flatten

@[simp] theorem core_transmitted (kcp : Ikcpcb) (seg : IkcpSeg) (why : Due) :
    (transmitted kcp seg why).core = seg.core := by
  cases why <;> rfl

@[simp] theorem core_processed (kcp : Ikcpcb) (seg : IkcpSeg) :
    (processed kcp seg).core = seg.core := by
  unfold processed
  cases due kcp seg with
  | none => rfl
  | some why => exact core_transmitted kcp seg why

theorem wires_append (left right : List IkcpSeg) : wires (left ++ right) = wires left ++ wires right := by
  simp [wires]

theorem wires_singleton (seg : IkcpSeg) : wires [seg] = seg.wire := by
  simp [wires]

section Packing

variable {mtu : UInt32} {segs : List IkcpSeg} {out : Output}

/-- The segments so far, cut into datagrams and the buffer. -/
structure Packed (mtu : UInt32) (segs : List IkcpSeg) (out : Output) (groups : List (List IkcpSeg))
    (pending : List IkcpSeg) : Prop where
  all : groups.flatten ++ pending = segs
  sent : out.sent = groups.map wires
  buffer : out.buffer = wires pending
  nonempty : ∀ group ∈ groups, group ≠ []
  fits : ∀ group ∈ groups, (wires group).length ≤ mtu.toNat
  room : (wires pending).length ≤ mtu.toNat

theorem wires_eq_nil {group : List IkcpSeg} : (wires group).length = 0 ↔ group = [] := by
  cases group with
  | nil => exact iff_of_true rfl rfl
  | cons seg rest =>
      have hlength : 24 ≤ (wires (seg :: rest)).length := by
        rw [wires, List.map_cons, List.flatten_cons, List.length_append, length_wire]
        show 24 ≤ 24 + _ + _
        omega
      exact iff_of_false (by omega) (List.cons_ne_nil _ _)

/-- The buffer becomes a datagram unless it is empty. -/
theorem packed_output {groups : List (List IkcpSeg)} {pending : List IkcpSeg}
    (h : Packed mtu segs out groups pending) :
    ∃ groups, Packed mtu segs out.output groups [] := by
  have hroom : (wires []).length ≤ mtu.toNat := Nat.zero_le _
  unfold Output.output
  split
  · rename_i hempty
    rw [beq_iff_eq, h.buffer] at hempty
    have hall := h.all
    rw [wires_eq_nil.1 hempty] at hall
    exact ⟨groups, hall, h.sent, rfl, h.nonempty, h.fits, hroom⟩
  · rename_i hfull
    rw [beq_iff_eq, h.buffer, wires_eq_nil] at hfull
    refine ⟨groups ++ [pending], ?_, ?_, rfl, ?_, ?_, hroom⟩
    · rw [List.flatten_append, List.flatten_singleton, List.append_nil]
      exact h.all
    · rw [List.map_append, h.sent, h.buffer]
      rfl
    · intro group hgroup
      rcases List.mem_append.1 hgroup with hgroup | hgroup
      · exact h.nonempty group hgroup
      · rw [List.mem_singleton.1 hgroup]
        exact hfull
    · intro group hgroup
      rcases List.mem_append.1 hgroup with hgroup | hgroup
      · exact h.fits group hgroup
      · rw [List.mem_singleton.1 hgroup]
        exact h.room

theorem packed_put {groups : List (List IkcpSeg)} {pending : List IkcpSeg} {seg : IkcpSeg}
    (h : Packed mtu segs out groups pending) (hseg : IKCP_OVERHEAD + seg.data.length ≤ mtu.toNat) :
    ∃ groups pending, Packed mtu (segs ++ [seg]) (out.put mtu seg) groups pending := by
  have hreserve : ∃ groups pending,
      Packed mtu segs (out.reserve mtu (IKCP_OVERHEAD + seg.data.length)) groups pending ∧
        (wires (pending ++ [seg])).length ≤ mtu.toNat := by
    have hlength (pending : List IkcpSeg) : (wires (pending ++ [seg])).length =
        (wires pending).length + (IKCP_OVERHEAD + seg.data.length) := by
      rw [wires_append, List.length_append, wires_singleton, length_wire]
    unfold Output.reserve
    split
    · obtain ⟨groups, hpacked⟩ := packed_output h
      refine ⟨groups, [], hpacked, ?_⟩
      rw [hlength]
      show 0 + _ ≤ _
      omega
    · rename_i hroom
      refine ⟨groups, pending, h, ?_⟩
      rw [hlength, ← h.buffer]
      omega
  obtain ⟨groups, pending, hpacked, hroom⟩ := hreserve
  refine ⟨groups, pending ++ [seg], ?_, hpacked.sent, ?_, hpacked.nonempty, hpacked.fits, hroom⟩
  · rw [← List.append_assoc, hpacked.all]
  · rw [wires_append, wires_singleton, ← hpacked.buffer]
    rfl

/-- Segments that fit the MTU are cut into datagrams in their order. -/
theorem pack_groups (hsegs : ∀ seg ∈ segs, IKCP_OVERHEAD + seg.data.length ≤ mtu.toNat) :
    ∃ groups : List (List IkcpSeg), groups.flatten = segs ∧
      (segs.foldl (Output.put mtu) ⟨[], []⟩).output.sent = groups.map wires ∧
      ∀ group ∈ groups, group ≠ [] ∧ (wires group).length ≤ mtu.toNat := by
  have hfold : ∀ (segs done : List IkcpSeg) (out : Output) (groups : List (List IkcpSeg))
      (pending : List IkcpSeg), Packed mtu done out groups pending →
      (∀ seg ∈ segs, IKCP_OVERHEAD + seg.data.length ≤ mtu.toNat) →
      ∃ groups pending, Packed mtu (done ++ segs) (segs.foldl (Output.put mtu) out) groups pending := by
    intro segs
    induction segs with
    | nil =>
        intro done out groups pending h _
        exact ⟨groups, pending, by simpa using h⟩
    | cons seg rest ih =>
        intro done out groups pending h hsegs
        obtain ⟨hseg, hrest⟩ := List.forall_mem_cons.1 hsegs
        obtain ⟨groups, pending, hput⟩ := packed_put h hseg
        rw [List.append_cons]
        exact ih _ _ groups pending hput hrest
  have hstart : Packed mtu [] ⟨[], []⟩ [] [] :=
    ⟨rfl, rfl, rfl, nofun, nofun, Nat.zero_le _⟩
  obtain ⟨groups, pending, hpacked⟩ := hfold segs [] _ _ _ hstart hsegs
  obtain ⟨groups, hpacked⟩ := packed_output hpacked
  refine ⟨groups, ?_, hpacked.sent, fun group h => ⟨hpacked.nonempty group h, hpacked.fits group h⟩⟩
  have hall := hpacked.all
  rwa [List.append_nil] at hall

end Packing

section Loops

/-- The loop over the acknowledgements writes one segment for each, and leaves the last in `seg`. -/
theorem flushAcks_eq (mtu : UInt32) (acks : List (UInt32 × UInt32)) (seg : IkcpSeg) (out : Output) :
    acks.foldl (flushAck mtu) (seg, out) =
      ((acks.map fun ack => { seg with sn := ack.1, ts := ack.2 }).getLastD seg,
        (acks.map fun ack => { seg with sn := ack.1, ts := ack.2 }).foldl (Output.put mtu) out) := by
  induction acks generalizing seg out with
  | nil => rfl
  | cons ack rest ih =>
      rw [List.foldl_cons]
      show List.foldl (flushAck mtu) ({ seg with sn := ack.1, ts := ack.2 }, _) rest = _
      rw [ih]
      simp only [List.map_cons, List.foldl_cons, List.getLastD_cons]

/-- The acknowledgements and probing commands are written in this order. -/
theorem controlOutput_eq (kcp : Ikcpcb) :
    controlOutput kcp = (controlSegments kcp).foldl (Output.put kcp.mtu) ⟨[], []⟩ := by
  unfold controlOutput controlSegments
  rw [flushAcks_eq]
  simp only [flushProbe]
  split <;> split <;> simp only [List.foldl_append, List.foldl_cons, List.foldl_nil]

/-- The loop over `snd_buf`. -/
theorem dataFold_eq (kcp : Ikcpcb) (segs : List IkcpSeg) (flush : DataFlush) :
    (segs.foldl (flushSegment kcp) flush).passed = flush.passed ++ segs.map (processed kcp) ∧
      (segs.foldl (flushSegment kcp) flush).out =
        (segs.filterMap fun seg => (due kcp seg).map (transmitted kcp seg)).foldl
          (Output.put kcp.mtu) flush.out := by
  induction segs generalizing flush with
  | nil => exact ⟨(List.append_nil _).symm, rfl⟩
  | cons seg rest ih =>
      obtain ⟨hpassed, hout⟩ := ih (flushSegment kcp flush seg)
      rw [List.foldl_cons, hpassed, hout]
      unfold flushSegment processed
      cases hdue : due kcp seg <;> simp [hdue]

end Loops

/-- `ikcp_flush` sends its control segments and its data segments, cut into datagrams. -/
theorem flush_sent (kcp : Ikcpcb) (hupdated : kcp.updated = true) :
    (ikcpFlush kcp).2 =
      ((controlSegments kcp ++ dataSegments kcp).foldl (Output.put kcp.mtu) ⟨[], []⟩).output.sent := by
  have hmtu : (filled kcp).mtu = kcp.mtu := by
    show (probeWindow _).mtu = _
    unfold probeWindow
    split
    · split
      · rfl
      · split <;> rfl
    · rfl
  unfold ikcpFlush
  rw [hupdated, List.foldl_append, ← controlOutput_eq]
  show (dataFlush kcp).out.output.sent = _
  unfold dataFlush dataSegments
  rw [(dataFold_eq _ _ _).2, hmtu]

end CarDetect.Kcp
