import CarDetect.Kcp.Endpoint
import Mathlib.Data.List.Infix

/-!
# Messages and fragments

`ikcp_send` cuts a message into fragments whose numbers count down to 0, and `ikcp_recv` joins the
fragments up to the next number 0. `send_message` and `recv_message` say so for the lists of a
block, and `send_bytes` is what remains of the first in streaming mode. `full_queue_complete` is the
reason for the minimal window of `ikcp_wndsize`: a full queue always begins with a whole message.
-/

namespace CarDetect.Kcp

open BigEndian

/-- The number and the data of a fragment. -/
structure Fragment where
  frg : UInt32
  data : Bytes
deriving DecidableEq, Repr

def IkcpSeg.fragment (seg : IkcpSeg) : Fragment := ⟨seg.frg, seg.data⟩

/-- The fragments that `ikcp_send` makes of a message. -/
def fragmentsOf (mss : Nat) (message : Bytes) : List Fragment :=
  (Camera.ikcpSegments mss message (fragmentCount mss message.length)).map
    fun seg => ⟨UInt32.ofNat seg.frg, seg.data⟩

/-- Fragments whose numbers count down to 0. -/
inductive Countdown : List Fragment → Prop where
  | last (data : Bytes) : Countdown [⟨0, data⟩]
  | next (data : Bytes) (rest : List Fragment) (hfew : rest.length < 128) (hrest : Countdown rest) :
      Countdown (⟨UInt32.ofNat rest.length, data⟩ :: rest)

/-- The data of successive fragments. -/
def joined (fragments : List Fragment) : Bytes := (fragments.map Fragment.data).flatten

section Fragments

variable {mss count : Nat} {message : Bytes}

theorem length_ikcpSegments (mss : Nat) (message : Bytes) (count : Nat) :
    (Camera.ikcpSegments mss message count).length = count := by
  induction count generalizing message with
  | zero => rfl
  | succ count ih =>
      unfold Camera.ikcpSegments
      rw [List.length_cons, ih]

/-- The fragments of a message join to its front. -/
theorem data_ikcpSegments (mss : Nat) (message : Bytes) (count : Nat) :
    ((Camera.ikcpSegments mss message count).map fun seg => seg.data).flatten =
      message.take (count * mss) := by
  induction count generalizing message with
  | zero => simp [Camera.ikcpSegments]
  | succ count ih =>
      unfold Camera.ikcpSegments
      rw [List.map_cons, List.flatten_cons, ih, Nat.succ_mul, Nat.add_comm]
      simp only []
      split
      · rw [List.take_add]
      · rename_i hfits
        rw [List.take_length, List.drop_length, List.take_nil, List.append_nil,
          List.take_of_length_le (by omega)]

/-- As many fragments as a message needs. -/
theorem fragmentCount_spec (hmss : 0 < mss) (len : Nat) :
    0 < fragmentCount mss len ∧ len ≤ fragmentCount mss len * mss := by
  unfold fragmentCount
  split
  · omega
  · rename_i hlong
    have hmod := Nat.div_add_mod (len + mss - 1) mss
    have hrest := Nat.mod_lt (len + mss - 1) hmss
    have hcomm := Nat.mul_comm mss ((len + mss - 1) / mss)
    refine ⟨Nat.div_pos (by omega) hmss, ?_⟩
    omega

/-- The fragments of a message join to it. -/
theorem joined_fragmentsOf (hmss : 0 < mss) (message : Bytes) :
    joined (fragmentsOf mss message) = message := by
  have hdata := data_ikcpSegments mss message (fragmentCount mss message.length)
  unfold joined fragmentsOf
  rw [List.map_map]
  refine hdata.trans (List.take_of_length_le (fragmentCount_spec hmss _).2)

theorem countdown_segments (message : Bytes) (hcount : 0 < count) (hfew : count ≤ 128) :
    Countdown ((Camera.ikcpSegments mss message count).map
      fun seg => ⟨UInt32.ofNat seg.frg, seg.data⟩) := by
  induction count generalizing message with
  | zero => exact absurd hcount (Nat.lt_irrefl _)
  | succ count ih =>
      unfold Camera.ikcpSegments
      rw [List.map_cons]
      cases count with
      | zero => exact Countdown.last _
      | succ count =>
          have hrest := ih (message.drop (if message.length > mss then mss else message.length))
            (Nat.succ_pos _) (by omega)
          have hlength : ((Camera.ikcpSegments mss
              (message.drop (if message.length > mss then mss else message.length))
              (count + 1)).map fun seg =>
                (⟨UInt32.ofNat seg.frg, seg.data⟩ : Fragment)).length = count + 1 := by
            rw [List.length_map, length_ikcpSegments]
          have hnext := Countdown.next
            (message.take (if message.length > mss then mss else message.length)) _
            (by rw [hlength]; omega) hrest
          rw [hlength] at hnext
          exact hnext

/-- The fragments of a message that `ikcp_send` accepts count down. -/
theorem countdown_fragmentsOf (hmss : 0 < mss) (message : Bytes)
    (hfew : fragmentCount mss message.length < 128) : Countdown (fragmentsOf mss message) :=
  countdown_segments message (fragmentCount_spec hmss _).1 (Nat.le_of_lt hfew)

end Fragments

/-! ## Sending -/

section Send

variable {kcp : Ikcpcb}

theorem dataOf_append (left right : List IkcpSeg) :
    dataOf (left ++ right) = dataOf left ++ dataOf right := by
  simp [dataOf]

theorem mss_pos (hsound : Sound kcp) : 0 < kcp.mss.toNat := by
  have hsum := hsound.mss
  have hmtu := hsound.mtu_ge
  have hoverhead : Camera.IKCP_OVERHEAD = 24 := rfl
  omega

/-- The segments that `ikcp_send` appends to `snd_queue`. -/
def pieces (kcp : Ikcpcb) (buffer : Bytes) : List IkcpSeg :=
  (Camera.ikcpSegments kcp.mss.toNat buffer
    (fragmentCount kcp.mss.toNat buffer.length)).map fun seg =>
      newSegment (if kcp.stream == 0 then UInt32.ofNat seg.frg else 0) seg.data

theorem dataOf_pieces (hmss : 0 < kcp.mss.toNat) (buffer : Bytes) :
    dataOf (pieces kcp buffer) = buffer := by
  have hdata := data_ikcpSegments kcp.mss.toNat buffer
    (fragmentCount kcp.mss.toNat buffer.length)
  rw [List.take_of_length_le (fragmentCount_spec hmss _).2] at hdata
  unfold dataOf pieces
  rw [List.map_map]
  exact hdata

/-- A buffer of fewer than 128 fragments is queued. -/
theorem sendFragments_few (hmss : 0 < kcp.mss.toNat) {buffer : Bytes} (sent : Nat)
    (hfew : fragmentCount kcp.mss.toNat buffer.length < 128) :
    sendFragments kcp buffer sent = (((sent + buffer.length : Nat) : Int), { kcp with
      sndQueue := kcp.sndQueue ++ pieces kcp buffer
      nsndQue := kcp.nsndQue + UInt32.ofNat (pieces kcp buffer).length }) := by
  have hwnd : IKCP_WND_RCV.toNat = 128 := rfl
  have hpieces : (pieces kcp buffer).length = fragmentCount kcp.mss.toNat buffer.length := by
    rw [pieces, List.length_map, length_ikcpSegments]
  have hdata := dataOf_pieces hmss buffer
  have hne : ¬ fragmentCount kcp.mss.toNat buffer.length = 0 :=
    Nat.ne_of_gt (fragmentCount_spec hmss _).1
  unfold sendFragments
  simp only [hwnd, if_neg (Nat.not_le.2 hfew), if_neg hne]
  unfold pieces at hdata ⊢
  rw [hdata]

/-- A longer one is refused, except that streaming mode reports what it has appended. -/
theorem sendFragments_many {buffer : Bytes} {sent : Nat}
    (hmany : 128 ≤ fragmentCount kcp.mss.toNat buffer.length) :
    sendFragments kcp buffer sent =
      if kcp.stream ≠ 0 ∧ 0 < sent then ((sent : Int), kcp) else (-2, kcp) := by
  have hwnd : IKCP_WND_RCV.toNat = 128 := rfl
  unfold sendFragments
  simp only [hwnd, ge_iff_le, if_pos hmany, Bool.and_eq_true, bne_iff_ne, decide_eq_true_eq,
    gt_iff_lt]

/-- A message in message mode: it is refused, or all of it is queued in its fragments. -/
theorem send_message (hsound : Sound kcp) (hstream : kcp.stream = 0) (buffer : Bytes) :
    (ikcpSend kcp buffer = (-2, kcp) ∧ 128 ≤ fragmentCount kcp.mss.toNat buffer.length) ∨
      fragmentCount kcp.mss.toNat buffer.length < 128 ∧
      ikcpSend kcp buffer = ((buffer.length : Int), { kcp with
        sndQueue := kcp.sndQueue ++ pieces kcp buffer
        nsndQue := kcp.nsndQue + UInt32.ofNat (pieces kcp buffer).length }) ∧
      (pieces kcp buffer).map IkcpSeg.fragment = fragmentsOf kcp.mss.toNat buffer := by
  unfold ikcpSend
  rw [if_neg (by rw [hstream]; decide)]
  rcases Nat.lt_or_ge (fragmentCount kcp.mss.toNat buffer.length) 128 with hfew | hmany
  · refine Or.inr ⟨hfew, ?_, ?_⟩
    · rw [sendFragments_few (mss_pos hsound) 0 hfew, Nat.zero_add]
    · unfold pieces fragmentsOf
      rw [hstream, List.map_map]
      rfl
  · refine Or.inl ⟨?_, hmany⟩
    rw [sendFragments_many hmany, if_neg (fun h => h.1 hstream)]

/-- In streaming mode the last segment of the queue grows. -/
theorem extendLast_data (kcp : Ikcpcb) (buffer : Bytes) :
    (extendLast kcp buffer).1 ≤ buffer.length ∧ (extendLast kcp buffer).2.mss = kcp.mss ∧
      dataOf (extendLast kcp buffer).2.sndQueue =
        dataOf kcp.sndQueue ++ buffer.take (extendLast kcp buffer).1 := by
  unfold extendLast
  split
  · rename_i old hold
    obtain ⟨front, hqueue⟩ := List.getLast?_eq_some_iff.1 hold
    split
    · refine ⟨?_, rfl, ?_⟩
      · simp only []
        split <;> omega
      · simp only [hqueue, List.dropLast_concat, dataOf_append]
        simp [dataOf, newSegment]
    · exact ⟨Nat.zero_le _, rfl, (List.append_nil _).symm⟩
  · exact ⟨Nat.zero_le _, rfl, (List.append_nil _).symm⟩

/-- In either mode the code that `ikcp_send` returns is the number of bytes it has queued, if it is
not an error, and an error queues nothing. -/
theorem send_bytes (hsound : Sound kcp) (buffer : Bytes) :
    dataOf (ikcpSend kcp buffer).2.sndQueue =
      dataOf kcp.sndQueue ++ buffer.take (ikcpSend kcp buffer).1.toNat := by
  have hsend (kcp : Ikcpcb) (hmss : 0 < kcp.mss.toNat) (rest : Bytes) (sent : Nat) :
      dataOf (sendFragments kcp rest sent).2.sndQueue = dataOf kcp.sndQueue ++ rest ∧
          (sendFragments kcp rest sent).1 = ((sent + rest.length : Nat) : Int) ∨
        (sendFragments kcp rest sent).2 = kcp ∧
          ((sendFragments kcp rest sent).1 = sent ∨ (sendFragments kcp rest sent).1 = -2 ∧
            (kcp.stream = 0 ∨ sent = 0)) := by
    rcases Nat.lt_or_ge (fragmentCount kcp.mss.toNat rest.length) 128 with hfew | hmany
    · rw [sendFragments_few hmss sent hfew]
      refine Or.inl ⟨?_, rfl⟩
      show dataOf (kcp.sndQueue ++ pieces kcp rest) = _
      rw [dataOf_append, dataOf_pieces hmss]
    · rw [sendFragments_many hmany]
      refine Or.inr ?_
      split
      · exact ⟨rfl, Or.inl rfl⟩
      · rename_i hnot
        refine ⟨rfl, Or.inr ⟨rfl, ?_⟩⟩
        by_contra hboth
        rw [not_or] at hboth
        exact hnot ⟨hboth.1, Nat.pos_of_ne_zero hboth.2⟩
  unfold ikcpSend
  split
  · rename_i hmode
    obtain ⟨hle, hmss, hdata⟩ := extendLast_data kcp buffer
    have hstream : (extendLast kcp buffer).2.stream = kcp.stream := by
      unfold extendLast
      split
      · split <;> rfl
      · rfl
    rcases hextend : extendLast kcp buffer with ⟨sent, extended⟩
    rw [hextend] at hle hmss hdata hstream
    simp only [] at hle hmss hdata hstream ⊢
    split
    · rw [hdata, Int.toNat_natCast]
    · have hpos : 0 < extended.mss.toNat := by
        rw [hmss]
        exact mss_pos hsound
      rcases hsend extended hpos (buffer.drop sent) sent with ⟨hqueue, hcode⟩ | ⟨hsame, hcode⟩
      · rw [hqueue, hcode, hdata, List.length_drop, Int.toNat_natCast, Nat.add_sub_cancel' hle,
          List.take_length, List.append_assoc, List.take_append_drop]
      · rw [hsame, hdata]
        rcases hcode with hcode | ⟨hcode, hcase⟩
        · rw [hcode, Int.toNat_natCast]
        · rcases hcase with hcase | hcase
          · rw [hstream] at hcase
            rw [hcase] at hmode
            exact absurd hmode (by decide)
          · rw [hcode, hcase]
            rfl
  · rcases hsend kcp (mss_pos hsound) buffer 0 with ⟨hqueue, hcode⟩ | ⟨hsame, hcode⟩
    · rw [hqueue, hcode, Int.toNat_natCast, Nat.zero_add, List.take_length]
    · rw [hsame]
      rcases hcode with hcode | ⟨hcode, -⟩ <;> rw [hcode] <;> exact (List.append_nil _).symm

end Send

/-! ## Receiving -/

section Recv

variable {receiver : Receiver} {segs rest : List IkcpSeg} {fragments later : List Fragment}

theorem countdown_length (h : Countdown fragments) :
    0 < fragments.length ∧ fragments.length ≤ 128 := by
  cases h with
  | last data => exact ⟨Nat.zero_lt_one, show 1 ≤ 128 by decide⟩
  | next data rest hfew hrest =>
      rw [List.length_cons]
      omega

/-- The number of the first fragment is the number of those behind it. -/
theorem countdown_first {first : Fragment} (h : Countdown (first :: later)) :
    first.frg.toNat = later.length := by
  cases h with
  | last data => rfl
  | next data rest hfew hrest =>
      show (UInt32.ofNat _).toNat = _
      rw [UInt32.toNat_ofNat']
      omega

/-- `ikcp_recv` takes a message up to its last fragment. -/
theorem split_countdown (h : Countdown fragments)
    (hsegs : segs.map IkcpSeg.fragment = fragments) :
    splitMessage (segs ++ rest) = (segs, rest) := by
  induction h generalizing segs with
  | last data =>
      obtain ⟨seg, rfl, hseg⟩ := List.map_eq_singleton_iff.1 hsegs
      have hfrg : seg.frg = 0 := congrArg Fragment.frg hseg
      show splitMessage (seg :: rest) = ([seg], rest)
      rw [splitMessage, hfrg]
      rfl
  | next data more hfew hmore ih =>
      obtain ⟨seg, others, rfl, hseg, hothers⟩ := List.map_eq_cons_iff.1 hsegs
      have hfrg : seg.frg = UInt32.ofNat more.length := congrArg Fragment.frg hseg
      have hpos := (countdown_length hmore).1
      have hne : ¬ (seg.frg == 0) = true := by
        rw [hfrg, beq_iff_eq]
        intro heq
        have hzero := congrArg UInt32.toNat heq
        rw [UInt32.toNat_ofNat'] at hzero
        change _ = 0 at hzero
        omega
      rw [List.cons_append, splitMessage, if_neg hne, ih hothers]

/-- A queue that begins with all fragments of a message is ready, and one that has not got all of
them is not. -/
theorem peeksize_countdown (hque : receiver.nrcvQue.toNat = receiver.rcvQueue.length)
    (hcountdown : Countdown fragments)
    (hqueue : receiver.rcvQueue.map IkcpSeg.fragment <+: fragments ++ later) :
    0 ≤ receiver.peeksize ↔ fragments.length ≤ receiver.rcvQueue.length := by
  obtain ⟨hpos, hmost⟩ := countdown_length hcountdown
  unfold Receiver.peeksize
  cases hlist : receiver.rcvQueue with
  | nil =>
      rw [List.length_nil]
      exact iff_of_false (show ¬ (0 : Int) ≤ -1 by decide) (by omega)
  | cons seg rest =>
      rw [hlist] at hqueue hque
      obtain ⟨first, others, rfl⟩ := List.exists_cons_of_length_pos hpos
      rw [List.map_cons, List.cons_append, List.cons_prefix_cons] at hqueue
      have hfrg := countdown_first hcountdown
      rw [← hqueue.1] at hfrg
      change seg.frg.toNat = _ at hfrg
      rw [List.length_cons] at hmost hque
      simp only [List.length_cons]
      split
      · rename_i hzero
        rw [beq_iff_eq.1 hzero] at hfrg
        change 0 = _ at hfrg
        exact iff_of_true (Int.natCast_nonneg _) (by omega)
      · have hone : (1 : UInt32).toNat = 1 := rfl
        have hnext : (seg.frg + 1).toNat = others.length + 1 := by
          rw [UInt32.toNat_add, hone, hfrg]
          omega
        split
        · rename_i hfew
          have hfew := UInt32.lt_iff_toNat_lt.1 hfew
          exact iff_of_false (by decide) (by omega)
        · rename_i hall
          have hall := UInt32.le_iff_toNat_le.1 (UInt32.not_lt.1 hall)
          exact iff_of_true (Int.natCast_nonneg _) (by omega)

/-- `ikcp_recv` returns the first message whole. -/
theorem recv_message (hque : receiver.nrcvQue.toNat = receiver.rcvQueue.length)
    (hcountdown : Countdown fragments)
    (hqueue : receiver.rcvQueue.map IkcpSeg.fragment <+: fragments ++ later)
    (hready : 0 ≤ receiver.peeksize) :
    (splitMessage receiver.rcvQueue).1.map IkcpSeg.fragment = fragments := by
  have hlength := (peeksize_countdown hque hcountdown hqueue).1 hready
  have hfirst : (receiver.rcvQueue.take fragments.length).map IkcpSeg.fragment = fragments := by
    obtain ⟨more, hmore⟩ := hqueue
    have htake := congrArg (List.take fragments.length) hmore
    rw [List.take_append_of_le_length (by rw [List.length_map]; exact hlength), ← List.map_take,
      List.take_left] at htake
    exact htake
  have hsplit := @split_countdown _ (receiver.rcvQueue.drop fragments.length) _ hcountdown hfirst
  rw [List.take_append_drop] at hsplit
  rw [hsplit]
  exact hfirst

theorem joined_append (left right : List Fragment) :
    joined (left ++ right) = joined left ++ joined right := by
  simp [joined]

theorem joined_fragment (segs : List IkcpSeg) :
    joined (segs.map IkcpSeg.fragment) = dataOf segs := by
  unfold joined dataOf
  rw [List.map_map]
  rfl

/-- When the fragments of whole messages arrive in order, `ikcp_recv` returns the first of them. -/
theorem recv_waiting {mss : Nat} (hmss : 0 < mss)
    (hque : receiver.nrcvQue.toNat = receiver.rcvQueue.length) {waiting : List Bytes}
    (hwaiting : receiver.rcvQueue.map IkcpSeg.fragment ++ later =
      (waiting.map (fragmentsOf mss)).flatten)
    (hfew : ∀ message ∈ waiting, fragmentCount mss message.length < 128)
    (hne : receiver.rcvQueue ≠ []) (hready : 0 ≤ receiver.peeksize) :
    ∃ rest, waiting = dataOf (splitMessage receiver.rcvQueue).1 :: rest ∧
      (splitMessage receiver.rcvQueue).1.map IkcpSeg.fragment =
        fragmentsOf mss (dataOf (splitMessage receiver.rcvQueue).1) := by
  cases waiting with
  | nil =>
      rw [List.map_nil, List.flatten_nil, List.append_eq_nil_iff, List.map_eq_nil_iff] at hwaiting
      exact absurd hwaiting.1 hne
  | cons message rest =>
      rw [List.map_cons, List.flatten_cons] at hwaiting
      have hcountdown := countdown_fragmentsOf hmss message (hfew message List.mem_cons_self)
      have hfirst := recv_message hque hcountdown ⟨later, hwaiting⟩ hready
      have hmessage : dataOf (splitMessage receiver.rcvQueue).1 = message := by
        rw [← joined_fragment, hfirst, joined_fragmentsOf hmss]
      rw [hmessage]
      exact ⟨rest, rfl, hfirst⟩

/-- A full queue begins with a whole message, so that a program can always make room. -/
theorem full_queue_ready (hvalid : receiver.Valid) (hwnd : 128 ≤ receiver.rcvWnd.toNat)
    (hcountdown : Countdown fragments)
    (hqueue : receiver.rcvQueue.map IkcpSeg.fragment <+: fragments ++ later)
    (hfull : receiver.rcvWnd ≤ receiver.nrcvQue) : 0 ≤ receiver.peeksize := by
  have hfull := UInt32.le_iff_toNat_le.1 hfull
  have hque := hvalid.que
  have hmost := (countdown_length hcountdown).2
  exact (peeksize_countdown hque hcountdown hqueue).2 (by omega)

end Recv

end CarDetect.Kcp
