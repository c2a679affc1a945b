import CarDetect.Kcp.Send

/-!
# Input of a datagram

`ikcp_input` reads the segments of a datagram one after the other. It returns at the first one that
is not for its conversation, that is longer than what is left of the datagram, or that has an
unknown command, and keeps what the segments before it did. `input_invariant` is the rule for what
no datagram breaks, whatever its bytes are.
-/

namespace CarDetect.Kcp

open BigEndian SequenceSpace
open Camera (IKCP_OVERHEAD)

/-- The block and the local variables `flag`, `maxack` and `latest_ts` of `ikcp_input`. -/
structure InputState where
  kcp : Ikcpcb
  flag : Bool
  maxack : UInt32
  latestTs : UInt32
deriving DecidableEq, Repr

/-- The segment that `ikcp_input` allocates for a header and the data behind it. -/
def Header.segment (header : Header) (data : Bytes) : IkcpSeg where
  conv := header.conv
  cmd := header.cmd.toUInt32
  frg := header.frg.toUInt32
  wnd := header.wnd.toUInt32
  ts := header.ts
  sn := header.sn
  una := header.una
  resendts := 0
  rto := 0
  fastack := 0
  xmit := 0
  data := data

/-- What `ikcp_input` does for every segment: the remote window and `una`. -/
def inputHeader (kcp : Ikcpcb) (header : Header) : Ikcpcb :=
  { kcp with
    rmtWnd := header.wnd.toUInt32
    toSender := (kcp.toSender.parseUna header.una).shrinkBuf }

/-- The block after an `IKCP_CMD_ACK`. -/
def ackBlock (kcp : Ikcpcb) (header : Header) : Ikcpcb :=
  { kcp with
    toRoundTrip :=
      if itimediff kcp.current header.ts ≥ 0 then
        updateAck kcp.toRoundTrip kcp.interval (kcp.current - header.ts).toInt32
      else kcp.toRoundTrip
    toSender := (kcp.toSender.parseAck header.sn).shrinkBuf }

/-- `IKCP_CMD_ACK`. The first acknowledgement of a datagram, and any that is newer by its number and
its time, sets `maxack` and `latest_ts`. -/
def inputAck (state : InputState) (header : Header) : InputState :=
  if !state.flag ||
      (itimediff header.sn state.maxack > 0 && itimediff header.ts state.latestTs > 0) then
    ⟨ackBlock state.kcp header, true, header.sn, header.ts⟩
  else ⟨ackBlock state.kcp header, true, state.maxack, state.latestTs⟩

/-- `IKCP_CMD_PUSH`. `ikcp_ack_push` appends to `acklist`. -/
def inputPush (kcp : Ikcpcb) (header : Header) (data : Bytes) : Ikcpcb :=
  if itimediff header.sn (kcp.rcvNxt + kcp.rcvWnd) < 0 then
    { kcp with
      acklist := kcp.acklist ++ [(header.sn, header.ts)]
      toReceiver :=
        if itimediff header.sn kcp.rcvNxt ≥ 0 then
          kcp.toReceiver.parseData (header.segment data)
        else kcp.toReceiver }
  else kcp

/-- The command of an accepted segment. -/
def inputCommand (state : InputState) (header : Header) (data : Bytes) : InputState :=
  if header.cmd.toUInt32 == IKCP_CMD_ACK then inputAck state header
  else if header.cmd.toUInt32 == IKCP_CMD_PUSH then
    { state with kcp := inputPush state.kcp header data }
  else if header.cmd.toUInt32 == IKCP_CMD_WASK then
    { state with kcp := { state.kcp with probe := state.kcp.probe ||| IKCP_ASK_TELL } }
  else state

/-- One accepted segment. -/
def inputSegment (state : InputState) (header : Header) (data : Bytes) : InputState :=
  inputCommand { state with kcp := inputHeader state.kcp header } header data

/-- The commands that `ikcp_input` accepts. -/
def knownCommand (cmd : UInt8) : Bool :=
  cmd.toUInt32 == IKCP_CMD_PUSH || cmd.toUInt32 == IKCP_CMD_ACK ||
    cmd.toUInt32 == IKCP_CMD_WASK || cmd.toUInt32 == IKCP_CMD_WINS

/-- The early return of `ikcp_input` at a header with `room` bytes behind it, if there is one. -/
def headerError (conv : UInt32) (header : Header) (room : Nat) : Option Int :=
  if header.conv != conv then some (-1)
  else if room < header.len.toNat || decide (header.len.toInt32 < 0) then some (-2)
  else if !knownCommand header.cmd then some (-3)
  else none

/-- The data of the first segment of a datagram. -/
def firstData (data : Bytes) : Bytes :=
  (data.drop IKCP_OVERHEAD).take (decodeHeader data).len.toNat

/-- A datagram behind its first segment. -/
def behindFirst (data : Bytes) : Bytes :=
  (data.drop IKCP_OVERHEAD).drop (decodeHeader data).len.toNat

/-- The loop of `ikcp_input` over what is left of the datagram. An early return is an error with
the code and the block. Every round takes a header, so that the length is fuel enough. -/
def inputLoop : Nat → InputState → Bytes → Except (Int × Ikcpcb) InputState
  | 0, state, _ => .ok state
  | fuel + 1, state, data =>
      if data.length < IKCP_OVERHEAD then .ok state
      else
        match headerError state.kcp.conv (decodeHeader data) (data.length - IKCP_OVERHEAD) with
        | some code => .error (code, state.kcp)
        | none =>
            inputLoop fuel (inputSegment state (decodeHeader data) (firstData data))
              (behindFirst data)

/-- `incr` in congestion avoidance. -/
def avoidIncr (incr mss : UInt32) : UInt32 :=
  let incr := if incr < mss then mss else incr
  incr + (mss * mss / incr + mss / 16)

/-- The window one step larger: in slow start below `ssthresh`, in congestion avoidance above. -/
def enlarged (window : Congestion) (mss : UInt32) : Congestion :=
  if window.cwnd < window.ssthresh then
    { window with cwnd := window.cwnd + 1, incr := window.incr + mss }
  else
    { window with
      cwnd := if (window.cwnd + 1) * mss ≤ avoidIncr window.incr mss then
          (avoidIncr window.incr mss + mss - 1) / (if mss > 0 then mss else 1)
        else window.cwnd
      incr := avoidIncr window.incr mss }

/-- The growth of the congestion window when `snd_una` has moved. -/
def growWindow (window : Congestion) (mss : UInt32) : Congestion :=
  if window.cwnd < window.rmtWnd then
    if (enlarged window mss).cwnd > window.rmtWnd then
      { enlarged window mss with cwnd := window.rmtWnd, incr := window.rmtWnd * mss }
    else enlarged window mss
  else window

/-- The end of `ikcp_input`. -/
def inputEnd (prevUna : UInt32) (state : InputState) : Ikcpcb :=
  { state.kcp with
    toSender :=
      if state.flag then state.kcp.toSender.parseFastack state.maxack state.latestTs
      else state.kcp.toSender
    toCongestion :=
      if itimediff state.kcp.sndUna prevUna > 0 then
        growWindow state.kcp.toCongestion state.kcp.mss
      else state.kcp.toCongestion }

/-- `ikcp_input`, with its return code. -/
def ikcpInput (kcp : Ikcpcb) (data : Bytes) : Int × Ikcpcb :=
  if data.length < IKCP_OVERHEAD then (-1, kcp)
  else
    match inputLoop data.length ⟨kcp, false, 0, 0⟩ data with
    | .ok state => (0, inputEnd kcp.sndUna state)
    | .error result => result

/-! ## The induction rule -/

/-- What the parts of `ikcp_input` keep for every segment, a datagram keeps. -/
theorem input_invariant {inv : Ikcpcb → Prop}
    (hheader : ∀ kcp header, inv kcp → inv (inputHeader kcp header))
    (hack : ∀ kcp header, inv kcp → inv (ackBlock kcp header))
    (hpush : ∀ kcp header data, inv kcp → inv (inputPush kcp header data))
    (hprobe : ∀ kcp, inv kcp → inv { kcp with probe := kcp.probe ||| IKCP_ASK_TELL })
    (hend : ∀ prevUna state, inv state.kcp → inv (inputEnd prevUna state))
    {kcp : Ikcpcb} (hinit : inv kcp) (data : Bytes) : inv (ikcpInput kcp data).2 := by
  have hsegment (state : InputState) (header : Header) (data : Bytes) (hinv : inv state.kcp) :
      inv (inputSegment state header data).kcp := by
    have hbegin := hheader state.kcp header hinv
    unfold inputSegment inputCommand
    split
    · unfold inputAck
      split <;> exact hack _ _ hbegin
    · split
      · exact hpush _ _ _ hbegin
      · split
        · exact hprobe _ hbegin
        · exact hbegin
  -- an early return keeps the block of the last accepted segment
  have hloop (fuel : Nat) : ∀ (state : InputState) (data : Bytes), inv state.kcp →
      (∀ final, inputLoop fuel state data = .ok final → inv final.kcp) ∧
        ∀ result, inputLoop fuel state data = .error result → inv result.2 := by
    induction fuel with
    | zero =>
        intro state data hinv
        refine ⟨fun final h => ?_, fun result h => ?_⟩
        · cases h
          exact hinv
        · cases h
    | succ fuel ih =>
        intro state data hinv
        unfold inputLoop
        split
        · refine ⟨fun final h => ?_, fun result h => ?_⟩
          · cases h
            exact hinv
          · cases h
        · split
          · refine ⟨fun final h => ?_, fun result h => ?_⟩
            · cases h
            · cases h
              exact hinv
          · exact ih _ _ (hsegment _ _ _ hinv)
  unfold ikcpInput
  split
  · exact hinit
  · obtain ⟨hok, herror⟩ := hloop data.length ⟨kcp, false, 0, 0⟩ data hinit
    split
    · rename_i state h
      exact hend _ _ (hok state h)
    · rename_i result h
      exact herror result h

end CarDetect.Kcp
