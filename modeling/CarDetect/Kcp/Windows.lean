import CarDetect.Kcp.Datagram
import CarDetect.Kcp.Messages
import CarDetect.Lib.SlidingWindow

/-!
# The lists of a block as the ends of sliding windows

`Sends` relates `snd_buf` and its numbers modulo 2^32 to the sender of a `SlidingWindow.Link`, and
`Receives` relates `rcv_buf` to the receiver of one. Each function on these lists is a sequence of
steps of the link, as long as the numbers it compares are those that the link allows.
-/

namespace CarDetect.Kcp

open BigEndian SequenceSpace SlidingWindow

/-- A window of a sender fits the field of 16 bits in which the other end tells it. -/
def sizes : Sizes := ⟨2 ^ 16, 2 ^ 30, 2 ^ 29⟩

/-- The segments of `snd_buf` are those that wait for an acknowledgement. -/
structure Sends (sender : Sender) (link : Link Fragment) : Prop where
  nxt : sender.sndNxt = UInt32.ofNat link.count
  numbered : ∀ seg ∈ sender.sndBuf, ∃ k ∈ link.pending,
    seg.sn = UInt32.ofNat k ∧ link.items[k]? = some seg.fragment
  buffered : ∀ k ∈ link.pending, ∃ seg ∈ sender.sndBuf, seg.sn = UInt32.ofNat k

/-- The segments of `rcv_buf` are those that wait for one before them. -/
structure Receives (receiver : Receiver) (link : Link Fragment) : Prop where
  nxt : receiver.rcvNxt = UInt32.ofNat link.next
  numbered : ∀ seg ∈ receiver.rcvBuf, ∃ k ∈ link.held,
    seg.sn = UInt32.ofNat k ∧ link.items[k]? = some seg.fragment
  buffered : ∀ k ∈ link.held, ∃ seg ∈ receiver.rcvBuf, seg.sn = UInt32.ofNat k

/-- The numbers of `acklist` are those to acknowledge. -/
def Owes (acklist : List (UInt32 × UInt32)) (link : Link Fragment) : Prop :=
  ∀ ack ∈ acklist, ∃ k ∈ link.acks, ack.1 = UInt32.ofNat k

theorem sends_frame {sender : Sender} {link after : Link Fragment} (hsends : Sends sender link)
    (hitems : after.items = link.items) (hpending : after.pending = link.pending) :
    Sends sender after where
  nxt := by rw [hsends.nxt, Link.count, Link.count, hitems]
  numbered := by rw [hitems, hpending]; exact hsends.numbered
  buffered := by rw [hpending]; exact hsends.buffered

theorem getElem?_of_prefix {α : Type*} {items more : List α} (hmore : items <+: more) {k : Nat}
    {item : α} (h : items[k]? = some item) : more[k]? = some item := by
  obtain ⟨rest, rfl⟩ := hmore
  obtain ⟨hlt, -⟩ := List.getElem?_eq_some_iff.1 h
  rw [List.getElem?_append_left hlt]
  exact h

theorem receives_frame {receiver : Receiver} {link after : Link Fragment}
    (hreceives : Receives receiver link) (hitems : link.items <+: after.items)
    (hnext : after.next = link.next) (hheld : after.held = link.held) :
    Receives receiver after where
  nxt := by rw [hnext]; exact hreceives.nxt
  numbered := by
    intro seg hseg
    obtain ⟨k, hk, hsn, hitem⟩ := hreceives.numbered seg hseg
    exact ⟨k, hheld ▸ hk, hsn, getElem?_of_prefix hitems hitem⟩
  buffered := by rw [hheld]; exact hreceives.buffered

/-! ## Acknowledgements -/

section Acknowledge

variable {sender : Sender} {link : Link Fragment} {seg : IkcpSeg} {k bound stamp : Nat}

/-- The place of a segment in `snd_buf` by its number. -/
theorem place_number (hordered : sender.Ordered) (hinv : Inv sizes link)
    (hnxt : sender.sndNxt = UInt32.ofNat link.count) (hseg : seg ∈ sender.sndBuf)
    (hk : k ∈ link.pending) (hsn : seg.sn = UInt32.ofNat k) :
    sender.place seg + link.count = sender.flight + k := by
  have hlow := hinv.pending_lt k hk
  have hhigh := hinv.pending_near k hk
  have hwindow : sizes.window = 2 ^ 16 := rfl
  have hbelow := hordered.below seg hseg
  have hrebase : sender.place seg + offset seg.sn sender.sndNxt = sender.flight :=
    offset_rebase (Nat.le_of_lt hbelow)
  rw [hsn, hnxt, offset_ofNat (by omega) (by omega)] at hrebase
  omega

/-- A prefix of a list is dropped like a filter does when its property spreads to the front. -/
theorem dropWhile_eq_filter {α : Type*} {p : α → Bool} {list : List α}
    (h : list.Pairwise fun a b => p b = true → p a = true) :
    list.dropWhile p = list.filter fun a => !p a := by
  induction list with
  | nil => rfl
  | cons a rest ih =>
      obtain ⟨hhead, htail⟩ := List.pairwise_cons.1 h
      cases hp : p a with
      | true => rw [List.dropWhile_cons, if_pos hp, List.filter_cons, if_neg (by simp [hp]), ih htail]
      | false =>
          rw [List.dropWhile_cons, if_neg (by simp [hp])]
          refine (List.filter_eq_self.2 fun b hb => ?_).symm
          rcases List.mem_cons.1 hb with rfl | hb
          · rw [hp]
            rfl
          · cases hpb : p b with
            | false => rfl
            | true => rw [hhead b hb hpb] at hp; cases hp

/-- `ikcp_parse_una` with a bound that the other end has sent. -/
theorem sends_parseUna (hordered : sender.Ordered) (hinv : Inv sizes link)
    (hsends : Sends sender link) (hbounds : (bound, stamp) ∈ link.bounds)
    (hfresh : link.Fresh sizes stamp) :
    Sends (sender.parseUna (UInt32.ofNat bound)).shrinkBuf (link.confirmBelow bound) := by
  obtain ⟨hnext, hmark, -⟩ := hinv.bounds _ _ hbounds
  have hle := hinv.mark_le
  have hnear := bounds_near hinv hbounds hfresh
  have hsizes : sizes.window = 2 ^ 16 ∧ sizes.room = 2 ^ 30 ∧ sizes.life = 2 ^ 29 := ⟨rfl, rfl, rfl⟩
  obtain ⟨hwindow, hroom, hlife⟩ := hsizes
  have hpassed : ∀ (seg : IkcpSeg) (k : Nat), k ∈ link.pending → seg.sn = UInt32.ofNat k →
      (itimediff (UInt32.ofNat bound) seg.sn > 0 ↔ k < bound) := by
    intro seg k hk hsn
    have hlow := hinv.pending_lt k hk
    have hhigh := hinv.pending_near k hk
    rw [hsn, itimediff, ahead_ofNat (by omega) (by omega)]
    omega
  have hbuffer : (sender.parseUna (UInt32.ofNat bound)).shrinkBuf.sndBuf =
      sender.sndBuf.filter fun seg => !decide (itimediff (UInt32.ofNat bound) seg.sn > 0) := by
    refine (parseUnaLoop_spec hordered.buf).1.trans (dropWhile_eq_filter ?_)
    refine hordered.sorted.imp_of_mem fun {a b} ha hb hab hpass => ?_
    obtain ⟨ka, hka, hsna, -⟩ := hsends.numbered a ha
    obtain ⟨kb, hkb, hsnb, -⟩ := hsends.numbered b hb
    have hplacea := place_number hordered hinv hsends.nxt ha hka hsna
    have hplaceb := place_number hordered hinv hsends.nxt hb hkb hsnb
    have hlt := (hpassed b kb hkb hsnb).1 (of_decide_eq_true hpass)
    exact decide_eq_true ((hpassed a ka hka hsna).2 (by omega))
  refine ⟨hsends.nxt, ?_, ?_⟩
  · intro seg hseg
    rw [hbuffer, List.mem_filter] at hseg
    obtain ⟨k, hk, hsn, hitem⟩ := hsends.numbered seg hseg.1
    have hkept : ¬ k < bound := by
      rw [← hpassed seg k hk hsn]
      simpa using hseg.2
    exact ⟨k, ⟨hk, Nat.not_lt.1 hkept⟩, hsn, hitem⟩
  · intro k hk
    obtain ⟨hk, hkept⟩ : k ∈ link.pending ∧ bound ≤ k := hk
    obtain ⟨seg, hseg, hsn⟩ := hsends.buffered k hk
    refine ⟨seg, ?_, hsn⟩
    rw [hbuffer, List.mem_filter]
    have hnot : ¬ itimediff (UInt32.ofNat bound) seg.sn > 0 := by
      rw [hpassed seg k hk hsn]
      exact Nat.not_lt.2 hkept
    exact ⟨hseg, by simpa using hnot⟩

theorem parseAckLoop_eq {base sn : UInt32} {buffer : List IkcpSeg} (hsn : offset base sn < 2 ^ 31)
    (hbuffer : ∀ seg ∈ buffer, offset base seg.sn < 2 ^ 31)
    (hsorted : buffer.Pairwise fun a b => offset base a.sn < offset base b.sn) :
    (Sender.parseAckLoop sn buffer).1 = buffer.filter fun seg => sn != seg.sn := by
  induction buffer with
  | nil => rfl
  | cons seg rest ih =>
      obtain ⟨hseg, hrest⟩ := List.forall_mem_cons.1 hbuffer
      obtain ⟨hhead, htail⟩ := List.pairwise_cons.1 hsorted
      have hlater (hle : offset base sn ≤ offset base seg.sn) :
          rest.filter (fun seg => sn != seg.sn) = rest := by
        refine List.filter_eq_self.2 fun other hother => ?_
        have hlt := hhead other hother
        refine bne_iff_ne.2 fun heq => ?_
        rw [heq] at hle
        omega
      unfold Sender.parseAckLoop
      split
      · rename_i heq
        rw [beq_iff_eq] at heq
        rw [List.filter_cons, if_neg (by simp [heq]), hlater (by rw [heq])]
      · rename_i hne
        have hkept : (sn != seg.sn) = true := by simpa using hne
        rw [List.filter_cons, if_pos hkept]
        split
        · rename_i hbehind
          rw [itimediff, ahead_offset hsn hseg] at hbehind
          rw [hlater (by omega)]
        · rw [ih hrest htail]

/-- `ikcp_parse_ack` takes out the segment with the number, whatever the number is. -/
theorem parseAck_buffer (hordered : sender.Ordered) (sn : UInt32) :
    (sender.parseAck sn).sndBuf = sender.sndBuf.filter fun seg => sn != seg.sn := by
  have hflight := hordered.flight_lt
  unfold Sender.parseAck
  split
  · rename_i hout
    rw [Bool.or_eq_true, decide_eq_true_iff, decide_eq_true_iff] at hout
    refine (List.filter_eq_self.2 fun seg hseg => bne_iff_ne.2 fun heq => ?_).symm
    have hbelow := hordered.below seg hseg
    unfold Sender.place Sender.flight at *
    have hfirst := @ahead_offset sender.sndUna seg.sn sender.sndNxt (by omega) (by omega)
    rw [heq, itimediff, itimediff, ahead_base (by omega), hfirst] at hout
    omega
  · rename_i hin
    rw [Bool.or_eq_true, decide_eq_true_iff, decide_eq_true_iff, not_or, Int.not_lt] at hin
    refine parseAckLoop_eq (offset_of_ahead hin.1) (fun seg hseg => ?_) hordered.sorted
    have hbelow := hordered.below seg hseg
    unfold Sender.place at hbelow
    omega

/-- `ikcp_parse_ack` with a number that the other end has acknowledged. -/
theorem sends_parseAck (hordered : sender.Ordered) (hinv : Inv sizes link)
    (hsends : Sends sender link) (hsingles : (k, stamp) ∈ link.singles)
    (hfresh : link.Fresh sizes stamp) :
    Sends (sender.parseAck (UInt32.ofNat k)).shrinkBuf (link.confirm k) := by
  have hnear := singles_near hinv hsingles hfresh
  have hlt := arrived_lt hinv (hinv.singles _ _ hsingles).1
  have hsizes : sizes.window = 2 ^ 16 ∧ sizes.life = 2 ^ 29 := ⟨rfl, rfl⟩
  obtain ⟨hwindow, hlife⟩ := hsizes
  have hbuffer : (sender.parseAck (UInt32.ofNat k)).shrinkBuf.sndBuf =
      sender.sndBuf.filter fun seg => UInt32.ofNat k != seg.sn :=
    parseAck_buffer hordered _
  refine ⟨?_, ?_, ?_⟩
  · have hnxt := hsends.nxt
    unfold Sender.parseAck
    split <;> exact hnxt
  · intro seg hseg
    rw [hbuffer, List.mem_filter] at hseg
    obtain ⟨other, hother, hsn, hitem⟩ := hsends.numbered seg hseg.1
    refine ⟨other, ⟨hother, ?_⟩, hsn, hitem⟩
    rintro rfl
    rw [hsn] at hseg
    exact bne_iff_ne.1 hseg.2 rfl
  · intro other hother
    obtain ⟨hother, hne⟩ : other ∈ link.pending ∧ other ≠ k := hother
    obtain ⟨seg, hseg, hsn⟩ := hsends.buffered other hother
    have hlow := hinv.pending_lt other hother
    have hhigh := hinv.pending_near other hother
    refine ⟨seg, ?_, hsn⟩
    rw [hbuffer, List.mem_filter, hsn]
    refine ⟨hseg, bne_iff_ne.2 fun heq => hne ?_⟩
    exact (ofNat_inj (by omega) (by omega) heq).symm

/-- Segments that only differ in what a transmission or an acknowledgement of others changes. -/
theorem sends_core {buffer : List IkcpSeg} (hsends : Sends sender link)
    (hcore : buffer.map IkcpSeg.core = sender.sndBuf.map IkcpSeg.core) :
    Sends { sender with sndBuf := buffer } link := by
  have hfragment {seg other : IkcpSeg} (h : seg.core = other.core) :
      seg.sn = other.sn ∧ seg.fragment = other.fragment := by
    obtain ⟨-, -, hsn, hfrg, hdata⟩ := core_fields h
    exact ⟨hsn, by rw [IkcpSeg.fragment, hfrg, hdata]; rfl⟩
  refine ⟨hsends.nxt, ?_, ?_⟩
  · intro seg hseg
    obtain ⟨other, hother, heq⟩ := core_of_map hcore seg hseg
    obtain ⟨hsn, hsame⟩ := hfragment heq
    rw [hsn, hsame]
    exact hsends.numbered other hother
  · intro k hk
    obtain ⟨other, hother, hsn⟩ := hsends.buffered k hk
    obtain ⟨seg, hseg, heq⟩ := core_of_map hcore.symm other hother
    exact ⟨seg, hseg, (hfragment heq).1 ▸ hsn⟩

end Acknowledge

/-! ## Transmission -/

section Transmit

variable {sender : Sender} {kcp : Ikcpcb} {link : Link Fragment} {seg : IkcpSeg}
  {rest segs : List IkcpSeg} {cwnd : UInt32}

theorem count_number (link : Link Fragment) (fragment : Fragment) :
    (link.number fragment).count = link.count + 1 := by
  simp [Link.count, Link.number]

/-- A segment that enters `snd_buf` gets the next number. -/
theorem sends_enter (hsends : Sends sender link) :
    Sends (sender.enter kcp seg rest) (link.number seg.fragment) := by
  refine ⟨?_, ?_, ?_⟩
  · rw [count_number, ← ofNat_succ, ← hsends.nxt]
    rfl
  · intro other hother
    rcases List.mem_append.1 hother with hother | hother
    · obtain ⟨k, hk, hsn, hitem⟩ := hsends.numbered other hother
      exact ⟨k, Set.mem_insert_of_mem _ hk, hsn, getElem?_of_prefix (List.prefix_append _ _) hitem⟩
    · rw [List.mem_singleton.1 hother]
      refine ⟨link.count, Set.mem_insert _ _, hsends.nxt, ?_⟩
      exact List.getElem?_concat_length
  · intro k hk
    rcases Set.mem_insert_iff.1 hk with rfl | hk
    · exact ⟨_, List.mem_append_right _ List.mem_cons_self, hsends.nxt⟩
    · obtain ⟨other, hother, hsn⟩ := hsends.buffered k hk
      exact ⟨other, List.mem_append_left _ hother, hsn⟩

/-- There is room in the window when the loop of `ikcp_flush` moves a segment. -/
theorem room_of_flight (hordered : sender.Ordered) (hsends : Sends sender link)
    (hinv : Inv sizes link) {window : Nat} (hroom : sender.flight < window) :
    ∀ k ∈ link.pending, link.count < k + window := by
  intro k hk
  obtain ⟨seg, hseg, hsn⟩ := hsends.buffered k hk
  have hplace := place_number hordered hinv hsends.nxt hseg hk hsn
  omega

/-- Steps of the sender after which its block has all these fragments, numbered or queued. -/
def Numbered (link : Link Fragment) (whole : List Fragment) (sender : Sender) : Prop :=
  sender.Valid ∧ ∃ after, Sending sizes link after ∧ Inv sizes after ∧ Sends sender after ∧
    after.items ++ sender.sndQueue.map IkcpSeg.fragment = whole

/-- The segments that enter `snd_buf` are numbered in their order. -/
theorem sends_fill (hvalid : sender.Valid) (hcwnd : cwnd.toNat < 2 ^ 16)
    (hsends : Sends sender link) (hinv : Inv sizes link) :
    Numbered link (link.items ++ sender.sndQueue.map IkcpSeg.fragment)
      (Sender.fillLoop kcp cwnd sender.sndQueue sender) := by
  refine fill_invariant ⟨hvalid, link, sending_refl link, hinv, hsends, rfl⟩ ?_
  rintro sender seg rest ⟨hvalid, middle, hmiddle, hinv, hsends, hitems⟩ hqueue hmove
  rw [flight_lt_iff hvalid hcwnd] at hmove
  have hroom : ∀ k ∈ middle.pending, middle.count < k + sizes.window :=
    room_of_flight hvalid.toOrdered hsends hinv (Nat.lt_trans hmove hcwnd)
  have hstep : Step sizes middle (middle.number seg.fragment) :=
    Step.number middle seg.fragment (show 0 < 2 ^ 16 by decide) hroom
  refine ⟨valid_enter hvalid hqueue hcwnd hmove, middle.number seg.fragment,
    sending_trans hmiddle ⟨Relation.ReflTransGen.single hstep, rfl, rfl, rfl⟩,
    inv_step hinv hstep, sends_enter hsends, ?_⟩
  rw [← hitems, hqueue, List.map_cons]
  exact (List.append_cons _ _ _).symm

/-- Segments of `snd_buf` are sent. -/
theorem sends_transmit (hsends : Sends sender link)
    (hsegs : ∀ seg ∈ segs, ∃ other ∈ sender.sndBuf, seg.core = other.core) :
    ∃ after, Sending sizes link after ∧ after.items = link.items ∧ after.pending = link.pending ∧
      ∀ seg ∈ segs, ∃ k, seg.sn = UInt32.ofNat k ∧ (k, link.count) ∈ after.data ∧
        after.items[k]? = some seg.fragment := by
  induction segs with
  | nil => exact ⟨link, sending_refl link, rfl, rfl, nofun⟩
  | cons seg rest ih =>
      obtain ⟨hseg, hrest⟩ := List.forall_mem_cons.1 hsegs
      obtain ⟨middle, hmiddle, hitems, hpending, hsent⟩ := ih hrest
      obtain ⟨other, hother, hcore⟩ := hseg
      obtain ⟨-, -, hsn, hfrg, hdata⟩ := core_fields hcore
      obtain ⟨k, hk, hnumber, hitem⟩ := hsends.numbered other hother
      have hstep : Step sizes middle (middle.transmit k) :=
        Step.transmit middle k (hpending ▸ hk)
      have hcount : middle.count = link.count := congrArg List.length hitems
      refine ⟨middle.transmit k,
        sending_trans hmiddle ⟨Relation.ReflTransGen.single hstep, rfl, rfl, rfl⟩, hitems, hpending,
        List.forall_mem_cons.2 ⟨⟨k, hsn.trans hnumber, ?_, ?_⟩, ?_⟩⟩
      · rw [← hcount]
        exact Set.mem_insert _ _
      · show middle.items[k]? = _
        rw [hitems, hitem, IkcpSeg.fragment, IkcpSeg.fragment, hfrg, hdata]
      · intro seg hseg
        obtain ⟨k, hsn, hdata, hitem⟩ := hsent seg hseg
        exact ⟨k, hsn, Set.mem_insert_of_mem _ hdata, hitem⟩

end Transmit

/-! ## Reception -/

section Receive

variable {receiver : Receiver} {link : Link Fragment} {seg : IkcpSeg} {rest : List IkcpSeg}
  {k : Nat}

/-- What has not been taken by the program: the fragments in `rcv_queue`, and those that have not
got there yet. -/
def undelivered (receiver : Receiver) (link : Link Fragment) : List Fragment :=
  receiver.rcvQueue.map IkcpSeg.fragment ++ link.items.drop link.next

/-- The number of a segment in `rcv_buf` is its place. -/
theorem number_place (hinv : Inv sizes link) (hreceives : Receives receiver link)
    (hk : k ∈ link.held) (hsn : seg.sn = UInt32.ofNat k) :
    link.next + receiver.place seg = k := by
  have hlow := hinv.held_ge k hk
  have hhigh := hinv.held_near k hk
  have hroom : sizes.room = 2 ^ 30 := rfl
  rw [Receiver.place, hreceives.nxt, hsn, offset_ofNat hlow (by omega)]
  omega

/-- A segment that goes to `rcv_queue` is the next item. -/
theorem receives_moveHead (hvalid : receiver.Valid) (hinv : Inv sizes link)
    (hreceives : Receives receiver link) (hbuf : receiver.rcvBuf = seg :: rest)
    (hsn : seg.sn = receiver.rcvNxt) :
    link.next ∈ link.held ∧ Receives (receiver.moveHead seg rest) link.take ∧
      undelivered (receiver.moveHead seg rest) link.take = undelivered receiver link := by
  have hsorted := hvalid.sorted
  rw [hbuf] at hsorted
  obtain ⟨hhead, -⟩ := List.pairwise_cons.1 hsorted
  have hzero : receiver.place seg = 0 := by rw [Receiver.place, hsn, offset_self]
  obtain ⟨k, hk, hnumber, hitem⟩ := hreceives.numbered seg (hbuf ▸ List.mem_cons_self)
  have hplace := number_place hinv hreceives hk hnumber
  obtain rfl : link.next = k := by omega
  refine ⟨hk, ⟨?_, ?_, ?_⟩, ?_⟩
  · show receiver.rcvNxt + 1 = UInt32.ofNat (link.next + 1)
    rw [hreceives.nxt, ofNat_succ]
  · intro other hother
    obtain ⟨number, hheld, hsame, hdata⟩ := hreceives.numbered other
      (hbuf ▸ List.mem_cons_of_mem _ hother)
    have hother := hhead other hother
    have hbehind := number_place hinv hreceives hheld hsame
    exact ⟨number, ⟨hheld, show number ≠ link.next by omega⟩, hsame, hdata⟩
  · intro number hheld
    obtain ⟨hheld, hne⟩ : number ∈ link.held ∧ number ≠ link.next := hheld
    obtain ⟨other, hother, hsame⟩ := hreceives.buffered number hheld
    rw [hbuf] at hother
    rcases List.mem_cons.1 hother with rfl | hother
    · have hbehind := number_place hinv hreceives hheld hsame
      omega
    · exact ⟨other, hother, hsame⟩
  · obtain ⟨hlt, hget⟩ := List.getElem?_eq_some_iff.1 hitem
    show (receiver.rcvQueue ++ [seg]).map IkcpSeg.fragment ++ link.items.drop (link.next + 1) =
      receiver.rcvQueue.map IkcpSeg.fragment ++ link.items.drop link.next
    rw [List.drop_eq_getElem_cons hlt, hget, List.map_append, List.append_assoc]
    rfl

/-- Steps of the receiver after which the program can still take the same fragments. -/
def Taken (link : Link Fragment) (whole : List Fragment) (receiver : Receiver) : Prop :=
  receiver.Valid ∧ ∃ after, Receiving sizes link after ∧ after.acks = link.acks ∧
    Inv sizes after ∧ Receives receiver after ∧ undelivered receiver after = whole

/-- `rcv_queue` takes items in their order. -/
theorem receives_moveAvailable (hvalid : receiver.Valid) (hinv : Inv sizes link)
    (hreceives : Receives receiver link) :
    Taken link (undelivered receiver link) receiver.moveAvailable := by
  refine move_invariant ⟨hvalid, link, receiving_refl link, rfl, hinv, hreceives, rfl⟩ ?_
  rintro moved seg rest ⟨hvalid, middle, hmiddle, hacks, hinv, hreceives, hsame⟩ hbuf hsn hroom
  obtain ⟨hheld, htaken, hkept⟩ := receives_moveHead hvalid hinv hreceives hbuf hsn
  have hstep : Step sizes middle middle.take := Step.take middle hheld
  exact ⟨valid_moveHead hvalid hbuf hsn hroom, middle.take,
    receiving_trans hmiddle ⟨Relation.ReflTransGen.single hstep, rfl, rfl⟩, hacks,
    inv_step hinv hstep, htaken, hkept.trans hsame⟩

/-- A segment in the receive window is kept once. -/
theorem receives_insert (hinv : Inv sizes link) (hreceives : Receives receiver link)
    (hlow : link.next ≤ k) (hhigh : k < link.next + sizes.room) (hsn : seg.sn = UInt32.ofNat k)
    (hitem : link.items[k]? = some seg.fragment) :
    Receives (receiver.insert seg) (link.accept k) := by
  have hroom : sizes.room = 2 ^ 30 := rfl
  rcases insert_cases receiver seg with ⟨heq, other, hother, hrepeat⟩ | ⟨buffer, hbuffer, heq⟩ <;>
    rw [heq]
  · obtain ⟨number, hheld, hnumber, -⟩ := hreceives.numbered other hother
    have hge := hinv.held_ge number hheld
    have hnear := hinv.held_near number hheld
    obtain rfl : number = k := by
      refine ofNat_inj (by omega) (by omega) ?_
      rw [← hnumber, ← hsn, hrepeat]
    refine receives_frame hreceives List.prefix_rfl rfl ?_
    exact Set.insert_eq_of_mem hheld
  · have hperm := insertBack_perm hbuffer
    have hmem (other : IkcpSeg) :
        other ∈ buffer.reverse ↔ other = seg ∨ other ∈ receiver.rcvBuf := by
      rw [List.mem_reverse, hperm.mem_iff, List.mem_cons, List.mem_reverse]
    refine ⟨hreceives.nxt, ?_, ?_⟩
    · intro other hother
      rcases (hmem other).1 hother with rfl | hother
      · exact ⟨k, Set.mem_insert _ _, hsn, hitem⟩
      · obtain ⟨number, hheld, hnumber, hdata⟩ := hreceives.numbered other hother
        exact ⟨number, Set.mem_insert_of_mem _ hheld, hnumber, hdata⟩
    · intro number hheld
      rcases Set.mem_insert_iff.1 hheld with rfl | hheld
      · exact ⟨seg, (hmem seg).2 (Or.inl rfl), hsn⟩
      · obtain ⟨other, hother, hnumber⟩ := hreceives.buffered number hheld
        exact ⟨other, (hmem other).2 (Or.inr hother), hnumber⟩

/-- `IKCP_CMD_PUSH` with an item that the other end has sent. -/
theorem receives_push {kcp : Ikcpcb} {header : Header} {data : Bytes} {stamp : Nat}
    (hvalid : kcp.toReceiver.Valid) (hwnd : kcp.rcvWnd.toNat ≤ 2 ^ 30) (hinv : Inv sizes link)
    (hreceives : Receives kcp.toReceiver link) (howes : Owes kcp.acklist link)
    (hdata : (k, stamp) ∈ link.data) (hfresh : link.Fresh sizes stamp)
    (hsn : header.sn = UInt32.ofNat k)
    (hitem : link.items[k]? = some (header.segment data).fragment) :
    ∃ after, Receiving sizes link after ∧ Inv sizes after ∧
      Receives (inputPush kcp header data).toReceiver after ∧
      Owes (inputPush kcp header data).acklist after ∧
      undelivered (inputPush kcp header data).toReceiver after =
        undelivered kcp.toReceiver link := by
  have hlt := (hinv.data _ _ hdata).1
  have hnear := data_near hinv hdata hfresh
  have hnext := hinv.next_le
  have hahead := next_near hinv
  have hsizes : sizes.window = 2 ^ 16 ∧ sizes.room = 2 ^ 30 ∧ sizes.life = 2 ^ 29 := ⟨rfl, rfl, rfl⟩
  obtain ⟨hwindow, hroom, hlife⟩ := hsizes
  -- the two comparisons of `ikcp_input` are those of the unbounded numbers
  have hend : kcp.rcvNxt + kcp.rcvWnd = UInt32.ofNat (link.next + kcp.rcvWnd.toNat) := by
    rw [hreceives.nxt, UInt32.ofNat_add, UInt32.ofNat_toNat]
  have hbelow : itimediff header.sn (kcp.rcvNxt + kcp.rcvWnd) < 0 ↔
      k < link.next + kcp.rcvWnd.toNat := by
    rw [hsn, hend, itimediff, ahead_ofNat (by omega) (by omega)]
    omega
  have hnew : itimediff header.sn kcp.rcvNxt ≥ 0 ↔ link.next ≤ k := by
    rw [hsn, hreceives.nxt, itimediff, ahead_ofNat (by omega) (by omega)]
    omega
  unfold inputPush
  split
  · rename_i hinside
    rw [hbelow] at hinside
    have hacks {after : Link Fragment} (hacks : after.acks = insert k link.acks) :
        Owes (kcp.acklist ++ [(header.sn, header.ts)]) after := by
      intro ack hack
      rw [hacks]
      rcases List.mem_append.1 hack with hack | hack
      · obtain ⟨number, hnumber, heq⟩ := howes ack hack
        exact ⟨number, Set.mem_insert_of_mem _ hnumber, heq⟩
      · rw [List.mem_singleton.1 hack]
        exact ⟨k, Set.mem_insert _ _, hsn⟩
    split
    · rename_i hlow
      rw [hnew] at hlow
      have hplace : kcp.toReceiver.place (header.segment data) < kcp.rcvWnd.toNat := by
        show offset kcp.rcvNxt header.sn < _
        rw [hsn, hreceives.nxt, offset_ofNat hlow (by omega)]
        omega
      have hstep : Step sizes link (link.accept k) :=
        Step.accept link k stamp hdata hfresh hlow (by omega)
      obtain ⟨-, after, hafter, hsame, hinv', hmoved, hkept⟩ :=
        receives_moveAvailable (valid_insert hvalid hplace) (inv_step hinv hstep)
          (receives_insert hinv hreceives hlow (by omega) hsn hitem)
      have hqueue : (kcp.toReceiver.insert (header.segment data)).rcvQueue = kcp.rcvQueue := by
        rcases insert_cases kcp.toReceiver (header.segment data) with
          ⟨heq, -⟩ | ⟨buffer, -, heq⟩ <;> rw [heq]
      refine ⟨after, receiving_trans ⟨Relation.ReflTransGen.single hstep, rfl, rfl⟩ hafter, hinv',
        ?_, hacks hsame, ?_⟩
      · show Receives (kcp.toReceiver.parseData (header.segment data)) after
        rw [parse_data_eq hvalid, if_pos hplace]
        exact hmoved
      · show undelivered (kcp.toReceiver.parseData (header.segment data)) after = _
        rw [parse_data_eq hvalid, if_pos hplace, hkept, undelivered, undelivered, hqueue]
        rfl
    · rename_i hold
      rw [hnew, not_le] at hold
      have hstep : Step sizes link (link.note k) := Step.note link k stamp hdata hfresh (Or.inl hold)
      exact ⟨link.note k, ⟨Relation.ReflTransGen.single hstep, rfl, rfl⟩, inv_step hinv hstep,
        receives_frame hreceives List.prefix_rfl rfl rfl, hacks rfl, rfl⟩
  · exact ⟨link, receiving_refl link, hinv, hreceives, howes, rfl⟩

end Receive

end CarDetect.Kcp
