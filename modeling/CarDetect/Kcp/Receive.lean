import CarDetect.Kcp.ControlBlock
import Mathlib.Data.List.Nodup
import Mathlib.Data.List.Perm.Subperm

/-!
# Receiving

`ikcp_parse_data`, `ikcp_peeksize` and `ikcp_recv`. Segments wait in `rcv_buf` in the order of
their numbers until those before them have arrived, and go from there to `rcv_queue`, from which
`ikcp_recv` takes the fragments of a message. `Receiver.Valid` is the invariant of both lists: the
counters are their lengths, and `rcv_buf` is strictly sorted within the receive window.
-/

namespace CarDetect.Kcp

open BigEndian SequenceSpace

namespace Receiver

/-- The head of `rcv_buf` goes to the tail of `rcv_queue`. -/
def moveHead (receiver : Receiver) (seg : IkcpSeg) (rest : List IkcpSeg) : Receiver :=
  { receiver with
    rcvBuf := rest
    nrcvBuf := receiver.nrcvBuf - 1
    rcvQueue := receiver.rcvQueue ++ [seg]
    nrcvQue := receiver.nrcvQue + 1
    rcvNxt := receiver.rcvNxt + 1 }

/-- The loop that moves available data, over what is left of `rcv_buf`. -/
def moveLoop : List IkcpSeg → Receiver → Receiver
  | [], receiver => receiver
  | seg :: rest, receiver =>
      if seg.sn == receiver.rcvNxt && receiver.nrcvQue < receiver.rcvWnd then
        moveLoop rest (receiver.moveHead seg rest)
      else receiver

/-- The step of `ikcp_recv` and `ikcp_parse_data` from `rcv_buf` to `rcv_queue`. -/
def moveAvailable (receiver : Receiver) : Receiver := moveLoop receiver.rcvBuf receiver

end Receiver

/-- The loop of `ikcp_parse_data` from the back of `rcv_buf`, which is given in reverse: the list
with the new segment in its place, or nothing if there is a segment of the same number. -/
def insertBack (newseg : IkcpSeg) : List IkcpSeg → Option (List IkcpSeg)
  | [] => some [newseg]
  | seg :: before =>
      if seg.sn == newseg.sn then none
      else if itimediff newseg.sn seg.sn > 0 then some (newseg :: seg :: before)
      else (insertBack newseg before).map (seg :: ·)

namespace Receiver

/-- The insertion of `ikcp_parse_data` into `rcv_buf`. -/
def insert (receiver : Receiver) (newseg : IkcpSeg) : Receiver :=
  match insertBack newseg receiver.rcvBuf.reverse with
  | some buffer =>
      { receiver with rcvBuf := buffer.reverse, nrcvBuf := receiver.nrcvBuf + 1 }
  | none => receiver

/-- `ikcp_parse_data` -/
def parseData (receiver : Receiver) (newseg : IkcpSeg) : Receiver :=
  if itimediff newseg.sn (receiver.rcvNxt + receiver.rcvWnd) ≥ 0 ||
      itimediff newseg.sn receiver.rcvNxt < 0 then receiver
  else (receiver.insert newseg).moveAvailable

/-- The loop of `ikcp_peeksize`. -/
def peekLength : List IkcpSeg → Nat
  | [] => 0
  | seg :: rest => if seg.frg == 0 then seg.data.length else seg.data.length + peekLength rest

/-- `ikcp_peeksize` -/
def peeksize (receiver : Receiver) : Int :=
  match receiver.rcvQueue with
  | [] => -1
  | seg :: _ =>
      if seg.frg == 0 then seg.data.length
      else if receiver.nrcvQue < seg.frg + 1 then -1
      else peekLength receiver.rcvQueue

/-- The loop of `ikcp_recv` that merges fragments, over `rcv_queue` and its counter. It takes the
segments from the list unless it peeks. -/
def mergeFragments (ispeek : Bool) (nrcvQue : UInt32) :
    List IkcpSeg → Bytes × UInt32 × List IkcpSeg
  | [] => ([], nrcvQue, [])
  | seg :: rest =>
      let left := if ispeek then nrcvQue else nrcvQue - 1
      if seg.frg == 0 then (seg.data, left, if ispeek then seg :: rest else rest)
      else
        let (data, left, queue) := mergeFragments ispeek left rest
        (seg.data ++ data, left, if ispeek then seg :: queue else queue)

/-- The lists of `ikcp_recv` after the merge, and the bytes it writes. -/
def takeMessage (receiver : Receiver) (ispeek : Bool) : Bytes × Receiver :=
  let (data, nrcvQue, rcvQueue) := mergeFragments ispeek receiver.nrcvQue receiver.rcvQueue
  (data, { receiver with nrcvQue := nrcvQue, rcvQueue := rcvQueue }.moveAvailable)

end Receiver

/-- The end of `ikcp_recv`: a block whose queue was full before and has room again tells the
remote its window. -/
def fastRecover (kcp : Ikcpcb) (recover : Bool) : Ikcpcb :=
  if kcp.nrcvQue < kcp.rcvWnd && recover then { kcp with probe := kcp.probe ||| IKCP_ASK_TELL }
  else kcp

/-- `ikcp_recv` with a buffer of `len` bytes, which peeks if `len` is negative: the code, the bytes
written, and the block after it. -/
def ikcpRecv (kcp : Ikcpcb) (len : Int) : Int × Bytes × Ikcpcb :=
  if kcp.rcvQueue.isEmpty then (-1, [], kcp)
  else if kcp.peeksize < 0 then (-2, [], kcp)
  else if kcp.peeksize > len.natAbs then (-3, [], kcp)
  else
    let (data, receiver) := kcp.takeMessage (len < 0)
    (data.length, data,
      fastRecover { kcp with toReceiver := receiver } (kcp.nrcvQue ≥ kcp.rcvWnd))

/-! ## The invariant of the lists -/

namespace Receiver

/-- How far the number of a segment is ahead of `rcv_nxt`. -/
def place (receiver : Receiver) (seg : IkcpSeg) : Nat := offset receiver.rcvNxt seg.sn

/-- What holds of the lists whatever arrives. -/
structure Valid (receiver : Receiver) : Prop where
  wnd : receiver.rcvWnd.toNat < 2 ^ 31
  que : receiver.nrcvQue.toNat = receiver.rcvQueue.length
  buf : receiver.nrcvBuf.toNat = receiver.rcvBuf.length
  room : receiver.rcvQueue.length ≤ receiver.rcvWnd.toNat
  sorted : receiver.rcvBuf.Pairwise fun a b => receiver.place a < receiver.place b
  window : ∀ seg ∈ receiver.rcvBuf, receiver.place seg < receiver.rcvWnd.toNat

end Receiver

/-- A list sorted by numbers below a bound is no longer than the bound. -/
theorem length_le_of_sorted {α : Type*} {f : α → Nat} {bound : Nat} {list : List α}
    (hsorted : list.Pairwise fun a b => f a < f b) (hbound : ∀ a ∈ list, f a < bound) :
    list.length ≤ bound := by
  have hnodup : (list.map f).Nodup := List.pairwise_map.2 (hsorted.imp fun h => Nat.ne_of_lt h)
  have hsub : list.map f ⊆ List.range bound := by
    intro n hn
    obtain ⟨a, ha, rfl⟩ := List.mem_map.1 hn
    exact List.mem_range.2 (hbound a ha)
  have hle := (List.subperm_of_subset hnodup hsub).length_le
  simpa using hle

section Move

variable {receiver : Receiver} {seg : IkcpSeg} {rest : List IkcpSeg}

/-- The induction rule for the loop: what the move of a head keeps, the loop keeps. -/
theorem move_invariant {inv : Receiver → Prop} (hinit : inv receiver)
    (hstep : ∀ (receiver : Receiver) (seg : IkcpSeg) (rest : List IkcpSeg), inv receiver →
      receiver.rcvBuf = seg :: rest → seg.sn = receiver.rcvNxt →
      receiver.nrcvQue < receiver.rcvWnd → inv (receiver.moveHead seg rest)) :
    inv receiver.moveAvailable := by
  have hloop : ∀ (buffer : List IkcpSeg) (receiver : Receiver), receiver.rcvBuf = buffer →
      inv receiver → inv (Receiver.moveLoop buffer receiver) := by
    intro buffer
    induction buffer with
    | nil =>
        intro receiver _ hinv
        exact hinv
    | cons seg rest ih =>
        intro receiver hbuf hinv
        unfold Receiver.moveLoop
        split
        · rename_i hmove
          rw [Bool.and_eq_true, beq_iff_eq, decide_eq_true_iff] at hmove
          exact ih _ rfl (hstep _ _ _ hinv hbuf hmove.1 hmove.2)
        · exact hinv
  exact hloop _ _ rfl hinit

/-- The segments behind the head come one closer. -/
theorem place_moveHead {other : IkcpSeg} (h : 0 < receiver.place other) :
    (receiver.moveHead seg rest).place other + 1 = receiver.place other := by
  refine offset_succ fun heq => ?_
  rw [Receiver.place, heq, offset_self] at h
  exact Nat.lt_irrefl _ h

theorem valid_moveHead (hvalid : receiver.Valid) (hbuf : receiver.rcvBuf = seg :: rest)
    (hsn : seg.sn = receiver.rcvNxt) (hroom : receiver.nrcvQue < receiver.rcvWnd) :
    (receiver.moveHead seg rest).Valid := by
  have hsorted := hvalid.sorted
  have hlength := hvalid.buf
  rw [hbuf] at hsorted hlength
  obtain ⟨hhead, htail⟩ := List.pairwise_cons.1 hsorted
  have hroom := UInt32.lt_iff_toNat_lt.1 hroom
  have hque := hvalid.que
  have hwnd := hvalid.wnd
  have hzero : receiver.place seg = 0 := by rw [Receiver.place, hsn, offset_self]
  have hplace (other : IkcpSeg) (hother : other ∈ rest) :
      (receiver.moveHead seg rest).place other + 1 = receiver.place other := by
    have hpos := hhead other hother
    rw [hzero] at hpos
    exact place_moveHead hpos
  refine { hvalid with que := ?_, buf := ?_, room := ?_, sorted := ?_, window := ?_ }
  · show (receiver.nrcvQue + 1).toNat = (receiver.rcvQueue ++ [seg]).length
    have hone : (1 : UInt32).toNat = 1 := rfl
    rw [UInt32.toNat_add, hone, List.length_append, List.length_singleton]
    omega
  · show (receiver.nrcvBuf - 1).toNat = rest.length
    rw [List.length_cons] at hlength
    have hone : (1 : UInt32).toNat = 1 := rfl
    rw [UInt32.toNat_sub_of_le _ _ (UInt32.le_iff_toNat_le.2 (by omega)), hone, hlength]
    exact Nat.add_sub_cancel _ _
  · show (receiver.rcvQueue ++ [seg]).length ≤ receiver.rcvWnd.toNat
    rw [List.length_append, List.length_singleton]
    omega
  · refine htail.imp_of_mem fun {a b} ha hb hab => ?_
    have ha := hplace a ha
    have hb := hplace b hb
    omega
  · intro other hother
    have hother' := hplace other hother
    have hold := hvalid.window other (hbuf ▸ List.mem_cons_of_mem _ hother)
    show _ < receiver.rcvWnd.toNat
    omega

theorem valid_moveAvailable (hvalid : receiver.Valid) : receiver.moveAvailable.Valid :=
  move_invariant hvalid fun _ _ _ hvalid hbuf hsn hroom => valid_moveHead hvalid hbuf hsn hroom

end Move

section Insert

variable {base : UInt32} {newseg : IkcpSeg} {list result : List IkcpSeg}

/-- A repeat is not inserted. -/
theorem insertBack_none (h : insertBack newseg list = none) : ∃ seg ∈ list, seg.sn = newseg.sn := by
  induction list with
  | nil => cases h
  | cons seg before ih =>
      unfold insertBack at h
      split at h
      · rename_i heq
        exact ⟨seg, List.mem_cons_self, beq_iff_eq.1 heq⟩
      · split at h
        · cases h
        · obtain ⟨other, hother, hsn⟩ := ih (Option.map_eq_none_iff.1 h)
          exact ⟨other, List.mem_cons_of_mem _ hother, hsn⟩

/-- An insertion adds the new segment. -/
theorem insertBack_perm (h : insertBack newseg list = some result) :
    result.Perm (newseg :: list) := by
  induction list generalizing result with
  | nil =>
      cases h
      exact List.Perm.refl _
  | cons seg before ih =>
      unfold insertBack at h
      split at h
      · cases h
      · split at h
        · cases h
          exact List.Perm.refl _
        · obtain ⟨inner, hinner, rfl⟩ := Option.map_eq_some_iff.1 h
          exact ((ih hinner).cons seg).trans (List.Perm.swap newseg seg before)

/-- The new segment gets its place in a list that is sorted downwards, when all numbers are in the
half of the range above a base. -/
theorem insertBack_sorted (hnew : offset base newseg.sn < 2 ^ 31)
    (hlist : ∀ seg ∈ list, offset base seg.sn < 2 ^ 31)
    (hsorted : list.Pairwise fun a b => offset base b.sn < offset base a.sn)
    (h : insertBack newseg list = some result) :
    result.Pairwise fun a b => offset base b.sn < offset base a.sn := by
  induction list generalizing result with
  | nil =>
      cases h
      exact List.pairwise_singleton _ _
  | cons seg before ih =>
      obtain ⟨hhead, htail⟩ := List.pairwise_cons.1 hsorted
      have hseg := hlist seg List.mem_cons_self
      unfold insertBack at h
      split at h
      · cases h
      · rename_i hne
        split at h
        · rename_i hahead
          cases h
          rw [itimediff, ahead_offset hnew hseg] at hahead
          refine List.pairwise_cons.2 ⟨fun other hother => ?_, hsorted⟩
          rcases List.mem_cons.1 hother with rfl | hother
          · omega
          · have := hhead other hother
            omega
        · rename_i hahead
          obtain ⟨inner, hinner, rfl⟩ := Option.map_eq_some_iff.1 h
          rw [itimediff, ahead_offset hnew hseg] at hahead
          have hdiffer : offset base newseg.sn ≠ offset base seg.sn := fun heq =>
            hne (beq_iff_eq.2 (offset_inj heq).symm)
          refine List.pairwise_cons.2 ⟨fun other hother => ?_,
            ih (fun other hother => hlist other (List.mem_cons_of_mem _ hother)) htail hinner⟩
          rcases List.mem_cons.1 ((insertBack_perm hinner).subset hother) with rfl | hother
          · omega
          · exact hhead other hother

end Insert

section ParseData

variable {receiver : Receiver} {newseg : IkcpSeg}

/-- An insertion either finds a repeat or adds the new segment. -/
theorem insert_cases (receiver : Receiver) (newseg : IkcpSeg) :
    (receiver.insert newseg = receiver ∧ ∃ seg ∈ receiver.rcvBuf, seg.sn = newseg.sn) ∨
      ∃ buffer, insertBack newseg receiver.rcvBuf.reverse = some buffer ∧
        receiver.insert newseg =
          { receiver with rcvBuf := buffer.reverse, nrcvBuf := receiver.nrcvBuf + 1 } := by
  unfold Receiver.insert
  cases h : insertBack newseg receiver.rcvBuf.reverse with
  | none =>
      obtain ⟨seg, hseg, hsn⟩ := insertBack_none h
      exact Or.inl ⟨rfl, seg, List.mem_reverse.1 hseg, hsn⟩
  | some buffer => exact Or.inr ⟨buffer, rfl, rfl⟩

theorem valid_insert (hvalid : receiver.Valid)
    (hplace : receiver.place newseg < receiver.rcvWnd.toNat) :
    (receiver.insert newseg).Valid := by
  rcases insert_cases receiver newseg with ⟨heq, -⟩ | ⟨buffer, hbuffer, heq⟩ <;> rw [heq]
  · exact hvalid
  · have hperm := insertBack_perm hbuffer
    have hwnd := hvalid.wnd
    have hwindow : ∀ seg ∈ buffer.reverse, receiver.place seg < receiver.rcvWnd.toNat := by
      intro seg hseg
      rcases List.mem_cons.1 (hperm.subset (List.mem_reverse.1 hseg)) with rfl | hseg
      · exact hplace
      · exact hvalid.window seg (List.mem_reverse.1 hseg)
    have hsorted : buffer.reverse.Pairwise fun a b => receiver.place a < receiver.place b := by
      refine List.pairwise_reverse.2 (insertBack_sorted (Nat.lt_trans hplace hwnd) ?_ ?_ hbuffer)
      · intro seg hseg
        exact Nat.lt_trans (hvalid.window seg (List.mem_reverse.1 hseg)) hwnd
      · exact List.pairwise_reverse.2 hvalid.sorted
    have hlength : buffer.reverse.length = receiver.rcvBuf.length + 1 := by
      rw [List.length_reverse, hperm.length_eq, List.length_cons, List.length_reverse]
    have hle := length_le_of_sorted hsorted hwindow
    have hcounter := hvalid.buf
    refine { hvalid with buf := ?_, sorted := hsorted, window := hwindow }
    show (receiver.nrcvBuf + 1).toNat = buffer.reverse.length
    have hone : (1 : UInt32).toNat = 1 := rfl
    rw [UInt32.toNat_add, hone]
    omega

/-- A segment is stored exactly when its number is in the receive window. -/
theorem parse_data_eq (hvalid : receiver.Valid) (newseg : IkcpSeg) :
    receiver.parseData newseg =
      if receiver.place newseg < receiver.rcvWnd.toNat then
        (receiver.insert newseg).moveAvailable
      else receiver := by
  have hwithin := @within_iff receiver.rcvNxt _ newseg.sn hvalid.wnd
  unfold Receiver.parseData Receiver.place
  by_cases h : offset receiver.rcvNxt newseg.sn < receiver.rcvWnd.toNat
  · obtain ⟨hlow, hhigh⟩ := hwithin.2 h
    rw [if_pos h, if_neg]
    rw [Bool.or_eq_true, decide_eq_true_iff, decide_eq_true_iff]
    show ¬ (ahead _ _ ≥ 0 ∨ ahead _ _ < 0)
    omega
  · rw [if_neg h, if_pos]
    rw [Bool.or_eq_true, decide_eq_true_iff, decide_eq_true_iff]
    by_contra hnot
    rw [not_or, Int.not_le, Int.not_lt] at hnot
    exact h (hwithin.1 ⟨hnot.2, hnot.1⟩)

theorem valid_parseData (hvalid : receiver.Valid) : (receiver.parseData newseg).Valid := by
  rw [parse_data_eq hvalid]
  split
  · rename_i hplace
    exact valid_moveAvailable (valid_insert hvalid hplace)
  · exact hvalid

end ParseData

/-! ## Taking a message -/

/-- The segments of the first message of a queue, up to fragment number 0, and those behind it. -/
def splitMessage : List IkcpSeg → List IkcpSeg × List IkcpSeg
  | [] => ([], [])
  | seg :: rest =>
      if seg.frg == 0 then ([seg], rest)
      else (seg :: (splitMessage rest).1, (splitMessage rest).2)

/-- The data of successive segments. -/
def dataOf (segs : List IkcpSeg) : Bytes := (segs.map IkcpSeg.data).flatten

theorem split_append (queue : List IkcpSeg) :
    (splitMessage queue).1 ++ (splitMessage queue).2 = queue := by
  induction queue with
  | nil => rfl
  | cons seg rest ih =>
      unfold splitMessage
      split
      · rfl
      · rw [List.cons_append, ih]

theorem merge_take (nrcvQue : UInt32) (queue : List IkcpSeg) :
    Receiver.mergeFragments false nrcvQue queue =
      (dataOf (splitMessage queue).1, nrcvQue - UInt32.ofNat (splitMessage queue).1.length,
        (splitMessage queue).2) := by
  induction queue generalizing nrcvQue with
  | nil =>
      show ([], nrcvQue, []) = (([] : Bytes), nrcvQue - 0, ([] : List IkcpSeg))
      rw [UInt32.sub_zero]
  | cons seg rest ih =>
      simp only [Receiver.mergeFragments, splitMessage, Bool.false_eq_true, if_false]
      split
      · simp [dataOf]
      · rw [ih]
        simp only [dataOf, List.map_cons, List.flatten_cons, List.length_cons, Prod.mk.injEq,
          true_and, and_true]
        rw [← ofNat_succ, UInt32.eq_sub_iff_add_eq, ← UInt32.add_assoc, UInt32.sub_add_cancel,
          UInt32.sub_add_cancel]

theorem merge_peek (nrcvQue : UInt32) (queue : List IkcpSeg) :
    Receiver.mergeFragments true nrcvQue queue =
      (dataOf (splitMessage queue).1, nrcvQue, queue) := by
  induction queue with
  | nil => rfl
  | cons seg rest ih =>
      simp only [Receiver.mergeFragments, splitMessage, if_true]
      split
      · simp [dataOf]
      · rw [ih]
        simp [dataOf]

theorem peekLength_eq (queue : List IkcpSeg) :
    Receiver.peekLength queue = (dataOf (splitMessage queue).1).length := by
  induction queue with
  | nil => rfl
  | cons seg rest ih =>
      unfold Receiver.peekLength splitMessage
      split
      · simp [dataOf]
      · rw [ih]
        simp [dataOf]

section Recv

variable {receiver : Receiver} {kcp : Ikcpcb}

/-- What `ikcp_peeksize` returns is an error or the length of the first message. -/
theorem peeksize_eq (h : 0 ≤ receiver.peeksize) :
    receiver.peeksize = (dataOf (splitMessage receiver.rcvQueue).1).length := by
  unfold Receiver.peeksize at h ⊢
  split at h
  · cases h
  · rename_i seg rest hqueue
    rw [hqueue]
    split at h
    · rename_i hzero
      simp [hzero, splitMessage, dataOf]
    · rename_i hmore
      split at h
      · cases h
      · rename_i hcomplete
        simp only [hmore, Bool.false_eq_true, if_false, hcomplete, peekLength_eq]

/-- The receiver behind the first message. -/
def Receiver.dropMessage (receiver : Receiver) : Receiver :=
  { receiver with
    nrcvQue := receiver.nrcvQue - UInt32.ofNat (splitMessage receiver.rcvQueue).1.length
    rcvQueue := (splitMessage receiver.rcvQueue).2 }

/-- `ikcp_recv` takes the first message, or leaves it when it peeks, and then moves what is
available. -/
theorem takeMessage_eq (receiver : Receiver) (ispeek : Bool) :
    receiver.takeMessage ispeek =
      (dataOf (splitMessage receiver.rcvQueue).1,
        (if ispeek then receiver else receiver.dropMessage).moveAvailable) := by
  unfold Receiver.takeMessage
  cases ispeek
  · rw [merge_take]
    rfl
  · rw [merge_peek]
    rfl

theorem valid_dropMessage (hvalid : receiver.Valid) : receiver.dropMessage.Valid := by
  have hsplit := congrArg List.length (split_append receiver.rcvQueue)
  have hque := hvalid.que
  have hroom := hvalid.room
  have hwnd := hvalid.wnd
  rw [List.length_append] at hsplit
  refine { hvalid with que := ?_, room := ?_ }
  · show (receiver.nrcvQue - UInt32.ofNat (splitMessage receiver.rcvQueue).1.length).toNat =
      (splitMessage receiver.rcvQueue).2.length
    have htaken : (UInt32.ofNat (splitMessage receiver.rcvQueue).1.length).toNat =
        (splitMessage receiver.rcvQueue).1.length := by
      rw [UInt32.toNat_ofNat']
      omega
    rw [UInt32.toNat_sub_of_le _ _ (UInt32.le_iff_toNat_le.2 (by omega)), htaken]
    omega
  · show (splitMessage receiver.rcvQueue).2.length ≤ receiver.rcvWnd.toNat
    omega

/-- The cases of `ikcp_recv`: an error that changes nothing, or the first message. -/
theorem recv_cases (kcp : Ikcpcb) (len : Int) :
    (∃ code < 0, ikcpRecv kcp len = (code, [], kcp)) ∨
      (kcp.rcvQueue ≠ [] ∧ 0 ≤ kcp.peeksize ∧ kcp.peeksize ≤ len.natAbs ∧
        ikcpRecv kcp len = (kcp.peeksize, dataOf (splitMessage kcp.rcvQueue).1,
          fastRecover { kcp with toReceiver :=
            (if len < 0 then kcp.toReceiver else kcp.dropMessage).moveAvailable }
            (kcp.nrcvQue ≥ kcp.rcvWnd))) := by
  unfold ikcpRecv
  split
  · exact Or.inl ⟨-1, by decide, rfl⟩
  · rename_i hqueue
    split
    · exact Or.inl ⟨-2, by decide, rfl⟩
    · rename_i hpeek
      split
      · exact Or.inl ⟨-3, by decide, rfl⟩
      · rename_i hfits
        refine Or.inr ⟨fun hnil => hqueue (by rw [hnil]; rfl), Int.not_lt.1 hpeek,
          Int.not_lt.1 hfits, ?_⟩
        rw [takeMessage_eq, peeksize_eq (Int.not_lt.1 hpeek)]
        simp only [decide_eq_true_eq]

/-- A message that is ready and fits is returned. -/
theorem recv_ready {len : Int} (hne : kcp.rcvQueue ≠ []) (hready : 0 ≤ kcp.peeksize)
    (hfits : kcp.peeksize ≤ len.natAbs) :
    (ikcpRecv kcp len).1 = kcp.peeksize ∧
      (ikcpRecv kcp len).2.1 = dataOf (splitMessage kcp.rcvQueue).1 := by
  unfold ikcpRecv
  rw [if_neg (fun h => hne (List.isEmpty_iff.1 h)), if_neg (Int.not_lt.2 hready),
    if_neg (Int.not_lt.2 hfits), takeMessage_eq]
  exact ⟨(peeksize_eq hready).symm, rfl⟩

theorem fastRecover_receiver (kcp : Ikcpcb) (recover : Bool) :
    (fastRecover kcp recover).toReceiver = kcp.toReceiver := by
  unfold fastRecover
  split <;> rfl

theorem valid_recv (hvalid : kcp.toReceiver.Valid) (len : Int) :
    (ikcpRecv kcp len).2.2.toReceiver.Valid := by
  rcases recv_cases kcp len with ⟨code, -, heq⟩ | ⟨-, -, -, heq⟩ <;> rw [heq]
  · exact hvalid
  · rw [fastRecover_receiver]
    apply valid_moveAvailable
    split
    · exact hvalid
    · exact valid_dropMessage hvalid

end Recv

end CarDetect.Kcp
