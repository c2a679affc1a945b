import CarDetect.Kcp.Channel

/-!
# Delivery

What the two programs of a channel see, in every run in which the network delivers fresh packets:
`messages_in_order` and `bytes_in_order` say that the receiving program gets what was sent, in
order and once, and `nothing_lost` that an end whose lists are empty has nothing to send again.
`room_or_message` says that a full queue of a receiving program has a whole message for it.
-/

namespace CarDetect.Kcp

open BigEndian SequenceSpace SlidingWindow Machine

/-! ## Runs -/

section Runs

variable {config : Side → Config} {stream : Side → Int32} {conv : UInt32} {acts : List Act}
  {channel following final : Channel} {events out : List Event} {act : Act} {side : Side}

/-- A step at one end is a call on its block, and the other end has no part in it. -/
theorem step_ends (hstep : channel.step act = .ok (following, out)) (asked : Side) :
    following.ends asked = channel.ends asked ∨
      ∃ call : Call, following.ends asked = call.apply (channel.ends asked) := by
  have hpair (side : Side) (call : Call) (asked : Side) :
      side.pair (call.apply (channel.ends side)) (channel.ends side.other) asked =
          channel.ends asked ∨
        ∃ call' : Call, side.pair (call.apply (channel.ends side)) (channel.ends side.other) asked =
          call'.apply (channel.ends asked) := by
    revert asked
    rw [Side.forall_iff side]
    refine ⟨Or.inr ⟨call, ?_⟩, Or.inl ?_⟩
    · rw [Side.pair_self]
    · rw [Side.pair_other]
  cases act with
  | send side buffer =>
      cases hstep
      exact hpair side (.send buffer) asked
  | recv side len =>
      cases hstep
      exact hpair side (.recv len) asked
  | update side now =>
      cases hstep
      exact hpair side (.update now) asked
  | flush side =>
      cases hstep
      exact hpair side .flush asked
  | deliver side index =>
      cases hstep
      unfold Channel.deliver
      split
      · rename_i packet hpacket
        exact hpair side (.input packet.bytes) asked
      · exact Or.inl rfl
  | stray side data =>
      cases hstep
      exact hpair side (.input data) asked

/-- No step changes the parameters of a block. -/
theorem parameters_step (hstep : channel.step act = .ok (following, out)) (asked : Side) :
    (following.ends asked).parameters = (channel.ends asked).parameters := by
  rcases step_ends hstep asked with h | ⟨call, h⟩ <;> rw [h]
  exact parameters_call _ call

/-- Every state of a run is connected. -/
theorem connected_run (hwnd : ∀ side, (config side).rcvwnd.toInt ≤ 2 ^ 30)
    (hfresh : Guarded Channel.step Channel.Admits (Channel.start config stream conv) acts)
    (hrun : run Channel.step (Channel.start config stream conv) acts = .ok (final, events)) :
    Connected conv events final := by
  have hinv := run_guarded_history (Connected conv)
    (fun trace state act following out hconnected hadmits hstep =>
      connected_step hconnected hadmits hstep)
    [] (connected_start config stream conv hwnd) hfresh hrun
  exact hinv

/-- What the programs of connected ends have seen in message mode. -/
theorem connected_messages (hconnected : Connected conv events channel)
    (hmode : (channel.ends side).stream = 0) :
    ∃ waiting, acceptedAt side events = deliveredAt side.other events ++ waiting := by
  obtain ⟨links, -, hcarries⟩ := hconnected
  obtain ⟨waiting, haccepted, -⟩ := (hcarries side).messages hmode
  exact ⟨waiting, haccepted⟩

theorem stream_run
    (hrun : run Channel.step (Channel.start config stream conv) acts = .ok (final, events))
    (side : Side) : (final.ends side).stream = stream side := by
  have hinv := (run_invariant
    (fun channel : Channel => ∀ asked, (channel.ends asked).stream = stream asked) (fun _ => True)
    (fun _ => True) (fun channel act following out hstream _ hstep => ?_) (fun _ => rfl)
    (fun _ _ => trivial) hrun).1
  · exact hinv side
  · refine ⟨fun asked => ?_, fun _ _ => trivial⟩
    rw [← hstream asked]
    exact (parameters_fields (parameters_step hstep asked)).2.2.2

/-! ## What the programs see -/

/-- The smallest windows and no congestion control. -/
def plain : Config := ⟨0, 10, 0, 1, 128, 128, 1450⟩

/-- Two messages whose datagrams arrive in the wrong order, the first of them twice. The program at
the far end asks three times. -/
def exchange : List Act :=
  [.update .near 0, .send .near [1, 2, 3], .update .near 10, .send .near [4], .update .near 20,
    .deliver .far 1, .recv .far 1500, .deliver .far 0, .deliver .far 0, .recv .far 1500,
    .update .far 0, .deliver .near 0]

theorem exchange_fresh {mode : Int32} (hmode : mode = 0 ∨ mode = 1) :
    Guarded Channel.step Channel.Admits (Channel.start (fun _ => plain) (fun _ => mode) 7)
      exchange := by
  have hcheck (channel : Channel) (act : Act) :
      decide (channel.Admits act) = true → channel.Admits act := of_decide_eq_true
  rcases hmode with rfl | rfl
  · exact guarded_of_check hcheck rfl
  · exact guarded_of_check hcheck rfl

/-- In message mode the receiving program gets whole messages, in the order in which they were
sent, each of them once: whatever the network loses, repeats or reorders. -/
theorem messages_in_order (hwnd : ∀ side, (config side).rcvwnd.toInt ≤ 2 ^ 30)
    (hmode : stream side = 0)
    (hfresh : Guarded Channel.step Channel.Admits (Channel.start config stream conv) acts)
    (hrun : run Channel.step (Channel.start config stream conv) acts = .ok (final, events)) :
    deliveredAt side.other events <+: acceptedAt side events := by
  have hconnected := connected_run hwnd hfresh hrun
  obtain ⟨waiting, haccepted⟩ :=
    connected_messages hconnected ((stream_run hrun side).trans hmode)
  rw [haccepted]
  exact List.prefix_append _ _

theorem messages_in_order_exchange : ∃ final events,
    run Channel.step (Channel.start (fun _ => plain) (fun _ => 0) 7) exchange =
        .ok (final, events) ∧
      acceptedAt .near events = [[1, 2, 3], [4]] ∧ deliveredAt .far events = [[1, 2, 3]] ∧
      deliveredAt Side.near.other events <+: acceptedAt .near events :=
  ⟨_, _, rfl, rfl, rfl, messages_in_order (fun _ => show plain.rcvwnd.toInt ≤ 2 ^ 30 by decide) rfl
    (exchange_fresh (Or.inl rfl)) rfl⟩

/-- In either mode it gets the bytes that were sent, in their order and once. -/
theorem bytes_in_order (hwnd : ∀ side, (config side).rcvwnd.toInt ≤ 2 ^ 30)
    (hfresh : Guarded Channel.step Channel.Admits (Channel.start config stream conv) acts)
    (hrun : run Channel.step (Channel.start config stream conv) acts = .ok (final, events)) :
    (deliveredAt side.other events).flatten <+: (acceptedAt side events).flatten := by
  obtain ⟨links, -, hcarries⟩ := connected_run hwnd hfresh hrun
  rw [(hcarries side).bytes]
  exact List.prefix_append _ _

theorem bytes_in_order_exchange : ∃ final events,
    run Channel.step (Channel.start (fun _ => plain) (fun _ => 1) 7) exchange =
        .ok (final, events) ∧
      (deliveredAt Side.near.other events).flatten <+: (acceptedAt .near events).flatten :=
  ⟨_, _, rfl, bytes_in_order (fun _ => show plain.rcvwnd.toInt ≤ 2 ^ 30 by decide)
    (exchange_fresh (Or.inr rfl)) rfl⟩

/-- A sorted list that has all numbers from `first` on has the items from there on. -/
theorem map_eq_drop {α β : Type*} {list : List α} (number : α → Nat) {value : α → β}
    {items : List β} {first : Nat} (hsorted : list.Pairwise fun a b => number a < number b)
    (hlow : ∀ a ∈ list, first ≤ number a) (hvalue : ∀ a ∈ list, items[number a]? = some (value a))
    (hall : ∀ k, first ≤ k → k < items.length → ∃ a ∈ list, number a = k) :
    list.map value = items.drop first := by
  induction list generalizing first with
  | nil =>
      rw [List.map_nil, eq_comm, List.drop_eq_nil_iff]
      by_contra hmore
      obtain ⟨a, ha, -⟩ := hall first (Nat.le_refl _) (Nat.not_le.1 hmore)
      cases ha
  | cons a rest ih =>
      obtain ⟨hhead, htail⟩ := List.pairwise_cons.1 hsorted
      obtain ⟨hlt, hget⟩ := List.getElem?_eq_some_iff.1 (hvalue a List.mem_cons_self)
      have hle := hlow a List.mem_cons_self
      have hfirst : number a = first := by
        obtain ⟨b, hb, hnumber⟩ := hall first (Nat.le_refl _) (by omega)
        rcases List.mem_cons.1 hb with rfl | hb
        · exact hnumber
        · have hless := hhead b hb
          omega
      subst hfirst
      rw [List.drop_eq_getElem_cons hlt, hget, List.map_cons, ih htail]
      · intro b hb
        exact hhead b hb
      · intro b hb
        exact hvalue b (List.mem_cons_of_mem _ hb)
      · intro k hlow hhigh
        obtain ⟨b, hb, hnumber⟩ := hall k (by omega) hhigh
        rcases List.mem_cons.1 hb with rfl | hb
        · omega
        · exact ⟨b, hb, hnumber⟩

/-- When an end has nothing to send and waits for no acknowledgement, the other end has everything:
what its program has not taken is in `rcv_queue` and `rcv_buf`. -/
theorem nothing_lost (hwnd : ∀ side, (config side).rcvwnd.toInt ≤ 2 ^ 30)
    (hfresh : Guarded Channel.step Channel.Admits (Channel.start config stream conv) acts)
    (hrun : run Channel.step (Channel.start config stream conv) acts = .ok (final, events))
    (hqueue : (final.ends side).sndQueue = []) (hbuffer : (final.ends side).sndBuf = []) :
    (acceptedAt side events).flatten = (deliveredAt side.other events).flatten ++
      dataOf (final.ends side.other).rcvQueue ++ dataOf (final.ends side.other).rcvBuf := by
  obtain ⟨links, hlinked, hcarries⟩ := connected_run hwnd hfresh hrun
  have hinv := (hlinked.coupled side).out_inv
  have hother := hlinked.coupled side.other
  rw [Side.other_other] at hother
  have hreceives := hother.receives
  have hpending : (links side).pending = ∅ := by
    refine Set.eq_empty_of_forall_notMem fun k hk => ?_
    obtain ⟨seg, hseg, -⟩ := (hlinked.coupled side).sends.buffered k hk
    rw [hbuffer] at hseg
    cases hseg
  have hbuf : (final.ends side.other).rcvBuf.map IkcpSeg.fragment =
      (links side).items.drop (links side).next := by
    refine map_eq_drop
      (fun seg => (links side).next + (final.ends side.other).toReceiver.place seg) ?_ (fun seg _ => Nat.le_add_right _ _) ?_ ?_
    · exact hother.healthy.receiver.sorted.imp fun h => Nat.add_lt_add_left h _
    · intro seg hseg
      obtain ⟨k, hk, hsn, hitem⟩ := hreceives.numbered seg hseg
      rw [number_place hinv hreceives hk hsn]
      exact hitem
    · intro k hlow hhigh
      have hheld : k ∈ (links side).held := by
        rcases all_arrived hinv hpending hhigh with h | h
        · omega
        · exact h
      obtain ⟨seg, hseg, hsn⟩ := hreceives.buffered k hheld
      exact ⟨seg, hseg, number_place hinv hreceives hheld hsn⟩
  have htransit : joined (transit final links side) =
      dataOf (final.ends side.other).rcvQueue ++ dataOf (final.ends side.other).rcvBuf := by
    unfold transit undelivered
    rw [hqueue, ← hbuf, List.map_nil, List.append_nil, joined_append, joined_fragment,
      joined_fragment]
  rw [(hcarries side).bytes, htransit, List.append_assoc]

theorem nothing_lost_exchange : ∃ final events,
    run Channel.step (Channel.start (fun _ => plain) (fun _ => 0) 7) exchange =
        .ok (final, events) ∧
      (acceptedAt .near events).flatten = (deliveredAt Side.near.other events).flatten ++
        dataOf (final.ends Side.near.other).rcvQueue ++
        dataOf (final.ends Side.near.other).rcvBuf :=
  ⟨_, _, rfl, nothing_lost (fun _ => show plain.rcvwnd.toInt ≤ 2 ^ 30 by decide)
    (exchange_fresh (Or.inl rfl)) rfl rfl rfl⟩

/-- A receiving program is never stuck: its queue has room for a segment, or `ikcp_recv` has the next
whole message for it. -/
theorem room_or_message (hwnd : ∀ side, (config side).rcvwnd.toInt ≤ 2 ^ 30)
    (hmode : stream side = 0)
    (hfresh : Guarded Channel.step Channel.Admits (Channel.start config stream conv) acts)
    (hrun : run Channel.step (Channel.start config stream conv) acts = .ok (final, events)) :
    (final.ends side.other).nrcvQue < (final.ends side.other).rcvWnd ∨
      ∃ message rest, acceptedAt side events =
          deliveredAt side.other events ++ message :: rest ∧
        ∀ len : Int, message.length ≤ len →
          (ikcpRecv (final.ends side.other) len).1 = message.length ∧
          (ikcpRecv (final.ends side.other) len).2.1 = message := by
  rcases UInt32.lt_or_le (final.ends side.other).nrcvQue (final.ends side.other).rcvWnd with
    hroom | hfull
  · exact Or.inl hroom
  right
  obtain ⟨links, hlinked, hcarries⟩ := connected_run hwnd hfresh hrun
  have hstream := stream_run hrun side
  have hhealthy := (hlinked.coupled side.other).healthy
  have hmss := mss_pos (hlinked.coupled side).healthy.toSound
  obtain ⟨waiting, haccepted, htransit, hfew⟩ :=
    (hcarries side).messages (hstream.trans hmode)
  have hne : (final.ends side.other).rcvQueue ≠ [] := by
    intro hnil
    have hque := hhealthy.receiver.que
    have hwindow := hhealthy.rcvWnd_ge
    have hfull := UInt32.le_iff_toNat_le.1 hfull
    rw [hnil, List.length_nil] at hque
    omega
  have hwhole : (final.ends side.other).rcvQueue.map IkcpSeg.fragment ++
      ((links side).items.drop (links side).next ++
        (final.ends side).sndQueue.map IkcpSeg.fragment) =
      (waiting.map (fragmentsOf (final.ends side).mss.toNat)).flatten := by
    rw [← htransit, transit, undelivered, List.append_assoc]
  have hready : 0 ≤ (final.ends side.other).toReceiver.peeksize := by
    cases waiting with
    | nil =>
        rw [List.map_nil, List.flatten_nil, List.append_eq_nil_iff, List.map_eq_nil_iff] at hwhole
        exact absurd hwhole.1 hne
    | cons message rest =>
        have hcountdown := countdown_fragmentsOf hmss message (hfew message List.mem_cons_self)
        exact full_queue_ready hhealthy.receiver hhealthy.rcvWnd_ge hcountdown ⟨_, hwhole⟩ hfull
  obtain ⟨rest, hrest, -⟩ := recv_waiting hmss hhealthy.receiver.que hwhole hfew hne hready
  refine ⟨_, rest, haccepted.trans (by rw [hrest]), fun len hlen => ?_⟩
  have hpeek := peeksize_eq hready
  have hfits : (final.ends side.other).toReceiver.peeksize ≤ len.natAbs := by omega
  obtain ⟨hcode, hdata⟩ := recv_ready hne hready hfits
  exact ⟨hcode.trans hpeek, hdata⟩

theorem room_or_message_exchange : ∃ final events,
    run Channel.step (Channel.start (fun _ => plain) (fun _ => 0) 7) exchange =
        .ok (final, events) ∧
      ((final.ends Side.near.other).nrcvQue < (final.ends Side.near.other).rcvWnd ∨
        ∃ message rest, acceptedAt .near events =
            deliveredAt Side.near.other events ++ message :: rest ∧
          ∀ len : Int, message.length ≤ len →
            (ikcpRecv (final.ends Side.near.other) len).1 = message.length ∧
            (ikcpRecv (final.ends Side.near.other) len).2.1 = message) :=
  ⟨_, _, rfl, room_or_message (fun _ => show plain.rcvwnd.toInt ≤ 2 ^ 30 by decide) rfl
    (exchange_fresh (Or.inl rfl)) rfl⟩

end Runs

end CarDetect.Kcp
