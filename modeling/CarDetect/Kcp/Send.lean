import CarDetect.Camera.Packetization
import CarDetect.Kcp.Receive

/-!
# Sending and acknowledgements

`ikcp_send`, and the functions of `ikcp_input` that take acknowledged segments out of `snd_buf`.
The loop of `ikcp_send` over the fragments is that of `Camera.ikcpSegments`. `Sender.Valid` is the
invariant of `snd_buf`: its segments are strictly sorted between `snd_una` and `snd_nxt`, and
`snd_una` is the number of the first of them.
-/

namespace CarDetect.Kcp

open BigEndian SequenceSpace

/-! ## Sending -/

/-- A segment that `ikcp_send` allocates. The other fields are set when it enters `snd_buf`. -/
def newSegment (frg : UInt32) (data : Bytes) : IkcpSeg :=
  ⟨0, 0, frg, 0, 0, 0, 0, 0, 0, 0, 0, data⟩

/-- `count` before its checks. -/
def fragmentCount (mss len : Nat) : Nat :=
  if len ≤ mss then 1 else (len + mss - 1) / mss

/-- The append to the previous segment in streaming mode: how many bytes of the buffer it takes. -/
def extendLast (kcp : Ikcpcb) (buffer : Bytes) : Nat × Ikcpcb :=
  match kcp.sndQueue.getLast? with
  | some old =>
      if old.data.length < kcp.mss.toNat then
        let capacity := kcp.mss.toNat - old.data.length
        let extend := if buffer.length < capacity then buffer.length else capacity
        (extend, { kcp with
          sndQueue := kcp.sndQueue.dropLast ++ [newSegment 0 (old.data ++ buffer.take extend)] })
      else (0, kcp)
  | none => (0, kcp)

/-- `ikcp_send` behind the streaming mode's append of `sent` bytes. -/
def sendFragments (kcp : Ikcpcb) (buffer : Bytes) (sent : Nat) : Int × Ikcpcb :=
  let count := fragmentCount kcp.mss.toNat buffer.length
  if count ≥ IKCP_WND_RCV.toNat then
    if kcp.stream != 0 && decide (sent > 0) then (sent, kcp) else (-2, kcp)
  else
    let count := if count = 0 then 1 else count
    let segments := (Camera.ikcpSegments kcp.mss.toNat buffer count).map fun seg =>
      newSegment (if kcp.stream == 0 then UInt32.ofNat seg.frg else 0) seg.data
    (((sent + (dataOf segments).length : Nat) : Int),
      { kcp with
        sndQueue := kcp.sndQueue ++ segments
        nsndQue := kcp.nsndQue + UInt32.ofNat segments.length })

/-- `ikcp_send`, with its return code. -/
def ikcpSend (kcp : Ikcpcb) (buffer : Bytes) : Int × Ikcpcb :=
  if kcp.stream != 0 then
    let (sent, kcp) := extendLast kcp buffer
    if buffer.length - sent = 0 then (sent, kcp)
    else sendFragments kcp (buffer.drop sent) sent
  else sendFragments kcp buffer 0

/-! ## Acknowledgements -/

/-- `ikcp_update_ack` -/
def updateAck (times : RoundTrip) (interval : UInt32) (rtt : Int32) : RoundTrip :=
  let times :=
    if times.rxSrtt = 0 then { times with rxSrtt := rtt, rxRttval := rtt / 2 }
    else
      let delta := (rtt - times.rxSrtt).toInt.natAbs
      let rxSrtt := (7 * times.rxSrtt + rtt) / 8
      { times with
        rxRttval := Int32.ofInt (((3 * times.rxRttval).toInt + delta).tdiv 4)
        rxSrtt := if rxSrtt < 1 then 1 else rxSrtt }
  let rto := times.rxSrtt.toUInt32 + imax interval (4 * times.rxRttval).toUInt32
  { times with rxRto := (ibound times.rxMinrto.toUInt32 rto IKCP_RTO_MAX).toInt32 }

namespace Sender

/-- `ikcp_shrink_buf` -/
def shrinkBuf (sender : Sender) : Sender :=
  { sender with
    sndUna := match sender.sndBuf with
      | seg :: _ => seg.sn
      | [] => sender.sndNxt }

/-- The loop of `ikcp_parse_ack`: what is left of the list, and whether the segment was found. -/
def parseAckLoop (sn : UInt32) : List IkcpSeg → List IkcpSeg × Bool
  | [] => ([], false)
  | seg :: rest =>
      if sn == seg.sn then (rest, true)
      else if itimediff sn seg.sn < 0 then (seg :: rest, false)
      else (seg :: (parseAckLoop sn rest).1, (parseAckLoop sn rest).2)

/-- `ikcp_parse_ack` -/
def parseAck (sender : Sender) (sn : UInt32) : Sender :=
  if itimediff sn sender.sndUna < 0 || itimediff sn sender.sndNxt ≥ 0 then sender
  else
    let (buffer, found) := parseAckLoop sn sender.sndBuf
    { sender with
      sndBuf := buffer
      nsndBuf := if found then sender.nsndBuf - 1 else sender.nsndBuf }

/-- The loop of `ikcp_parse_una`, over `snd_buf` and its counter. -/
def parseUnaLoop (una : UInt32) : List IkcpSeg → UInt32 → List IkcpSeg × UInt32
  | [], nsndBuf => ([], nsndBuf)
  | seg :: rest, nsndBuf =>
      if itimediff una seg.sn > 0 then parseUnaLoop una rest (nsndBuf - 1)
      else (seg :: rest, nsndBuf)

/-- `ikcp_parse_una` -/
def parseUna (sender : Sender) (una : UInt32) : Sender :=
  let (buffer, nsndBuf) := parseUnaLoop una sender.sndBuf sender.nsndBuf
  { sender with sndBuf := buffer, nsndBuf := nsndBuf }

/-- The loop of `ikcp_parse_fastack`. -/
def parseFastackLoop (sn ts : UInt32) : List IkcpSeg → List IkcpSeg
  | [] => []
  | seg :: rest =>
      if itimediff sn seg.sn < 0 then seg :: rest
      else if sn != seg.sn && itimediff ts seg.ts ≥ 0 then
        { seg with fastack := seg.fastack + 1 } :: parseFastackLoop sn ts rest
      else seg :: parseFastackLoop sn ts rest

/-- `ikcp_parse_fastack` -/
def parseFastack (sender : Sender) (sn ts : UInt32) : Sender :=
  if itimediff sn sender.sndUna < 0 || itimediff sn sender.sndNxt ≥ 0 then sender
  else { sender with sndBuf := parseFastackLoop sn ts sender.sndBuf }

/-! ## The invariant of `snd_buf` -/

/-- How far the number of a segment is ahead of `snd_una`. -/
def place (sender : Sender) (seg : IkcpSeg) : Nat := offset sender.sndUna seg.sn

/-- How many numbers lie between `snd_una` and `snd_nxt`. -/
def flight (sender : Sender) : Nat := offset sender.sndUna sender.sndNxt

/-- What holds of the lists while acknowledgements are processed. -/
structure Ordered (sender : Sender) : Prop where
  que : sender.nsndQue = UInt32.ofNat sender.sndQueue.length
  buf : sender.nsndBuf.toNat = sender.sndBuf.length
  flight_lt : sender.flight < 2 ^ 16
  sorted : sender.sndBuf.Pairwise fun a b => sender.place a < sender.place b
  below : ∀ seg ∈ sender.sndBuf, sender.place seg < sender.flight

/-- What holds of the lists between the functions: besides, `snd_una` is the first number that is
not acknowledged. -/
structure Valid (sender : Sender) : Prop extends sender.Ordered where
  first : sender.sndUna = (sender.sndBuf.head?.map IkcpSeg.sn).getD sender.sndNxt

end Sender

section Acknowledge

variable {sender : Sender} {sn una : UInt32} {buffer : List IkcpSeg}

/-- Fewer segments, with their number in the counter. -/
theorem ordered_sublist (hordered : sender.Ordered) (hsub : buffer.Sublist sender.sndBuf)
    {nsndBuf : UInt32} (hcount : nsndBuf.toNat = buffer.length) :
    { sender with sndBuf := buffer, nsndBuf := nsndBuf }.Ordered where
  que := hordered.que
  buf := hcount
  flight_lt := hordered.flight_lt
  sorted := hordered.sorted.sublist hsub
  below := fun seg hseg => hordered.below seg (hsub.subset hseg)

/-- The counter after one segment less. -/
theorem counter_pred {counter : UInt32} {n : Nat} (h : counter.toNat = n + 1) :
    (counter - 1).toNat = n := by
  have hone : (1 : UInt32).toNat = 1 := rfl
  rw [UInt32.toNat_sub_of_le _ _ (UInt32.le_iff_toNat_le.2 (by omega)), hone, h]
  exact Nat.add_sub_cancel _ _

theorem parseUnaLoop_spec {nsndBuf : UInt32} (hcount : nsndBuf.toNat = buffer.length) :
    (Sender.parseUnaLoop una buffer nsndBuf).1 =
        buffer.dropWhile (fun seg => decide (itimediff una seg.sn > 0)) ∧
      (Sender.parseUnaLoop una buffer nsndBuf).2.toNat =
        (Sender.parseUnaLoop una buffer nsndBuf).1.length := by
  induction buffer generalizing nsndBuf with
  | nil => exact ⟨rfl, hcount⟩
  | cons seg rest ih =>
      unfold Sender.parseUnaLoop
      rw [List.dropWhile_cons]
      split
      · rename_i hpassed
        rw [if_pos (decide_eq_true hpassed)]
        exact ih (counter_pred hcount)
      · rename_i hkept
        rw [if_neg (by rw [decide_eq_true_iff]; exact hkept)]
        exact ⟨rfl, hcount⟩

theorem ordered_parseUna (hordered : sender.Ordered) : (sender.parseUna una).Ordered := by
  obtain ⟨hbuffer, hcount⟩ := @parseUnaLoop_spec una _ _ hordered.buf
  refine ordered_sublist hordered ?_ hcount
  rw [hbuffer]
  exact List.dropWhile_sublist _

theorem parseAckLoop_spec (sn : UInt32) (buffer : List IkcpSeg) :
    (Sender.parseAckLoop sn buffer).1.Sublist buffer ∧
      ((Sender.parseAckLoop sn buffer).2 = true →
        (Sender.parseAckLoop sn buffer).1.length + 1 = buffer.length) ∧
      ((Sender.parseAckLoop sn buffer).2 = false → (Sender.parseAckLoop sn buffer).1 = buffer) := by
  induction buffer with
  | nil => exact ⟨List.Sublist.refl _, nofun, fun _ => rfl⟩
  | cons seg rest ih =>
      unfold Sender.parseAckLoop
      split
      · exact ⟨List.sublist_cons_self _ _, fun _ => rfl, nofun⟩
      · split
        · exact ⟨List.Sublist.refl _, nofun, fun _ => rfl⟩
        · obtain ⟨hsub, hfound, hsame⟩ := ih
          refine ⟨hsub.cons_cons seg, fun h => ?_, fun h => ?_⟩
          · rw [List.length_cons, List.length_cons, hfound h]
          · rw [hsame h]

theorem ordered_parseAck (hordered : sender.Ordered) : (sender.parseAck sn).Ordered := by
  unfold Sender.parseAck
  split
  · exact hordered
  · obtain ⟨hsub, hfound, hsame⟩ := parseAckLoop_spec sn sender.sndBuf
    refine ordered_sublist hordered hsub ?_
    have hcount := hordered.buf
    cases h : (Sender.parseAckLoop sn sender.sndBuf).2 with
    | true =>
        rw [if_pos rfl]
        exact counter_pred (hcount.trans (hfound h).symm)
    | false =>
        rw [if_neg (by decide), hsame h]
        exact hcount

/-- A higher `snd_una` that is at most the first number. -/
theorem valid_shrinkBuf (hordered : sender.Ordered) : sender.shrinkBuf.Valid := by
  have hflight := hordered.flight_lt
  -- the new `snd_una` is not above `snd_nxt`, and not above any segment
  have hnxt : offset sender.sndUna sender.shrinkBuf.sndUna ≤ sender.flight := by
    unfold Sender.shrinkBuf
    cases hbuffer : sender.sndBuf with
    | nil => exact Nat.le_refl _
    | cons seg rest => exact Nat.le_of_lt (hordered.below seg (hbuffer ▸ List.mem_cons_self))
  have hseg : ∀ seg ∈ sender.sndBuf,
      offset sender.sndUna sender.shrinkBuf.sndUna ≤ sender.place seg := by
    intro seg hseg
    have hsorted := hordered.sorted
    unfold Sender.shrinkBuf
    cases hbuffer : sender.sndBuf with
    | nil => exact absurd hseg (by rw [hbuffer]; exact List.not_mem_nil)
    | cons head rest =>
        rw [hbuffer] at hseg hsorted
        rcases List.mem_cons.1 hseg with rfl | hseg
        · exact Nat.le_refl _
        · exact Nat.le_of_lt ((List.pairwise_cons.1 hsorted).1 seg hseg)
  have hrebase := @offset_rebase _ sender.shrinkBuf.sndUna _ hnxt
  have hflightNew : offset sender.sndUna sender.shrinkBuf.sndUna + sender.shrinkBuf.flight =
      sender.flight := hrebase
  have hplace : ∀ seg ∈ sender.sndBuf, offset sender.sndUna sender.shrinkBuf.sndUna +
      sender.shrinkBuf.place seg = sender.place seg := fun seg h => offset_rebase (hseg seg h)
  have hless : sender.shrinkBuf.flight < 2 ^ 16 := by omega
  refine ⟨⟨hordered.que, hordered.buf, hless, ?_, ?_⟩, ?_⟩
  · refine hordered.sorted.imp_of_mem fun {a b} ha hb hab => ?_
    have ha := hplace a ha
    have hb := hplace b hb
    omega
  · intro seg hmem
    have hold := hordered.below seg hmem
    have hnew := hplace seg hmem
    omega
  · show sender.shrinkBuf.sndUna = (sender.sndBuf.head?.map IkcpSeg.sn).getD sender.sndNxt
    unfold Sender.shrinkBuf
    cases sender.sndBuf <;> rfl

end Acknowledge

end CarDetect.Kcp
