import CarDetect.Kcp.Coupling
import CarDetect.Lib.Machine

/-!
# Two ends and the network between them

The camera and the media server, or the media server and the Qt client: two control blocks of one
conversation, and the datagrams that they have sent. The programs at both ends make their calls at
any time. The network may deliver a datagram any number of times, in any order, or never, and may
bring datagrams of other conversations. A datagram is only not delivered any more when one end has
numbered more than 2^29 segments since it was sent.

`linked_step` relates every reachable state to a sliding window in each direction.
-/

namespace CarDetect.Kcp

open BigEndian SlidingWindow

/-! ## States and steps -/

/-- An end of the connection. -/
inductive Side where
  | near
  | far
deriving DecidableEq, Repr

namespace Side

/-- The end at the other side of the network. -/
def other : Side → Side
  | near => far
  | far => near

/-- A value for one side and a value for the other. -/
def pair {α : Type*} (side : Side) (own theirs : α) : Side → α :=
  fun asked => if asked = side then own else theirs

@[simp] theorem other_other (side : Side) : side.other.other = side := by
  cases side <;> rfl

theorem other_ne (side : Side) : side.other ≠ side := by
  cases side <;> decide

@[simp] theorem pair_self {α : Type*} (side : Side) (own theirs : α) :
    side.pair own theirs side = own :=
  if_pos rfl

@[simp] theorem pair_other {α : Type*} (side : Side) (own theirs : α) :
    side.pair own theirs side.other = theirs :=
  if_neg side.other_ne

theorem forall_iff {p : Side → Prop} (side : Side) : (∀ asked, p asked) ↔ p side ∧ p side.other := by
  refine ⟨fun h => ⟨h _, h _⟩, fun h asked => ?_⟩
  cases side <;> cases asked
  · exact h.1
  · exact h.2
  · exact h.2
  · exact h.1

end Side

/-- A datagram in flight, with how many segments each end had numbered when it was sent. -/
structure Packet where
  bytes : Bytes
  numbered : Side → Nat

/-- The blocks, how many segments each end has numbered, and the datagrams each end has sent. -/
structure Channel where
  ends : Side → Ikcpcb
  numbered : Side → Nat
  sent : Side → List Packet

/-- What a program or the network does at an end. -/
inductive Act where
  | send (side : Side) (buffer : Bytes)
  | recv (side : Side) (len : Int)
  | update (side : Side) (now : UInt32)
  | flush (side : Side)
  | deliver (side : Side) (index : Nat)
  | stray (side : Side) (data : Bytes)
deriving DecidableEq, Repr

/-- The bytes that a program hands over, and those that it gets. -/
inductive Event where
  | accepted (side : Side) (bytes : Bytes)
  | delivered (side : Side) (bytes : Bytes)
deriving DecidableEq, Repr

namespace Channel

/-- Before the first call. -/
def start (config : Side → Config) (stream : Side → Int32) (conv : UInt32) : Channel where
  ends side := { (config side).block conv with stream := stream side }
  numbered _ := 0
  sent _ := []

/-- One end has another block. -/
def put (channel : Channel) (side : Side) (kcp : Ikcpcb) : Channel :=
  { channel with ends := side.pair kcp (channel.ends side.other) }

/-- One end has another block and sends datagrams. What has left `snd_queue` is numbered. -/
def emit (channel : Channel) (side : Side) (kcp : Ikcpcb) (datagrams : List Bytes) : Channel where
  ends := side.pair kcp (channel.ends side.other)
  numbered := side.pair
    (channel.numbered side + ((channel.ends side).sndQueue.length - kcp.sndQueue.length))
    (channel.numbered side.other)
  sent := side.pair
    (channel.sent side ++ datagrams.map fun bytes => ⟨bytes, side.pair
      (channel.numbered side + ((channel.ends side).sndQueue.length - kcp.sndQueue.length))
      (channel.numbered side.other)⟩)
    (channel.sent side.other)

/-- `ikcp_input` at one end, which sends nothing. -/
def input (channel : Channel) (side : Side) (data : Bytes) : Channel :=
  channel.emit side (ikcpInput (channel.ends side) data).2 []

/-- The network brings an end one of the datagrams that the other has sent, if there are so many. -/
def deliver (channel : Channel) (side : Side) (index : Nat) : Channel :=
  match (channel.sent side.other)[index]? with
  | some packet => channel.input side packet.bytes
  | none => channel

/-- One step. -/
def step : Machine.Step Channel Act Event Empty
  | channel, .send side buffer =>
      .ok (channel.put side (ikcpSend (channel.ends side) buffer).2,
        if 0 ≤ (ikcpSend (channel.ends side) buffer).1 then
          [.accepted side (buffer.take (ikcpSend (channel.ends side) buffer).1.toNat)]
        else [])
  | channel, .recv side len =>
      .ok (channel.put side (ikcpRecv (channel.ends side) len).2.2,
        if 0 ≤ (ikcpRecv (channel.ends side) len).1 ∧ 0 ≤ len then
          [.delivered side (ikcpRecv (channel.ends side) len).2.1]
        else [])
  | channel, .update side now =>
      .ok (channel.emit side (ikcpUpdate (channel.ends side) now).1
        (ikcpUpdate (channel.ends side) now).2, [])
  | channel, .flush side =>
      .ok (channel.emit side (ikcpFlush (channel.ends side)).1 (ikcpFlush (channel.ends side)).2, [])
  | channel, .deliver side index => .ok (channel.deliver side index, [])
  | channel, .stray side data => .ok (channel.input side data, [])

/-- A packet since whose sending neither end has numbered more than 2^29 segments. -/
def Fresh (channel : Channel) (packet : Packet) : Prop :=
  ∀ side, channel.numbered side ≤ packet.numbered side + 2 ^ 29

/-- What the network does: it delivers fresh packets, and datagrams that are too short or of other
conversations. -/
def Admits (channel : Channel) : Act → Prop
  | .deliver side index =>
      ∀ packet, (channel.sent side.other)[index]? = some packet → channel.Fresh packet
  | .stray side data => data.length < Camera.IKCP_OVERHEAD ∨
      (decodeHeader data).conv ≠ (channel.ends side).conv
  | _ => True

instance (channel : Channel) (packet : Packet) : Decidable (channel.Fresh packet) :=
  decidable_of_iff _ (Side.forall_iff .near).symm

instance (channel : Channel) : (act : Act) → Decidable (channel.Admits act)
  | .deliver side index => inferInstanceAs
      (Decidable (∀ packet, packet ∈ (channel.sent side.other)[index]? → channel.Fresh packet))
  | .stray _ _ => inferInstanceAs (Decidable (_ ∨ _))
  | .send _ _ | .recv _ _ | .update _ _ | .flush _ => inferInstanceAs (Decidable True)

end Channel

/-- The bytes that an event hands over at an end. -/
def Event.acceptedAt (side : Side) : Event → Option Bytes
  | .accepted asked bytes => if asked = side then some bytes else none
  | .delivered _ _ => none

/-- The bytes that the program at an end gets by an event. -/
def Event.deliveredAt (side : Side) : Event → Option Bytes
  | .delivered asked bytes => if asked = side then some bytes else none
  | .accepted _ _ => none

/-- What `ikcp_send` has accepted at an end, call by call. -/
def acceptedAt (side : Side) (events : List Event) : List Bytes :=
  events.filterMap (Event.acceptedAt side)

/-- What `ikcp_recv` has returned at an end, call by call. -/
def deliveredAt (side : Side) (events : List Event) : List Bytes :=
  events.filterMap (Event.deliveredAt side)

/-! ## The invariant -/

section Linked

variable {channel : Channel} {conv : UInt32} {links : Side → Link Fragment} {side : Side}
  {after : Ikcpcb} {outAfter innAfter : Link Fragment}

/-- A channel with the sliding window in which each end sends. -/
structure Linked (channel : Channel) (conv : UInt32) (links : Side → Link Fragment) : Prop where
  coupled : ∀ side, Coupled (channel.ends side) (links side) (links side.other)
  conv_eq : ∀ side, (channel.ends side).conv = conv
  numbered : ∀ side, channel.numbered side = (links side).count
  legit : ∀ side, ∀ packet ∈ channel.sent side, ∃ segs, segs ≠ [] ∧ packet.bytes = wires segs ∧
    ∀ seg ∈ segs, Legit conv (links side) (links side.other) (packet.numbered side)
      (packet.numbered side.other) seg

/-- The fragments on their way from one program to the other. -/
def transit (channel : Channel) (links : Side → Link Fragment) (side : Side) : List Fragment :=
  undelivered (channel.ends side.other).toReceiver (links side) ++
    (channel.ends side).sndQueue.map IkcpSeg.fragment

/-- The other end when this one takes its steps. -/
theorem coupled_other (hlinked : Linked channel conv links)
    (hcoupled : Coupled after outAfter innAfter)
    (hsending : Sending sizes (links side) outAfter)
    (hreceiving : Receiving sizes (links side.other) innAfter) :
    Coupled (channel.ends side.other) innAfter outAfter := by
  have hother := hlinked.coupled side.other
  rw [Side.other_other] at hother
  refine { hother with
    out_inv := hcoupled.inn_inv
    inn_inv := hcoupled.out_inv
    sends := sends_frame hother.sends hreceiving.items hreceiving.pending
    receives := receives_frame hother.receives (grows_steps hsending.steps).items hsending.next
      hsending.held
    owes := ?_ }
  intro ack hack
  rw [hsending.acks]
  exact hother.owes ack hack

/-- One end takes its steps and may send packets. -/
theorem linked_emit (hlinked : Linked channel conv links)
    (hadvanced : Advanced (channel.ends side) (links side) (links side.other) after outAfter
      innAfter)
    {datagrams : List Bytes} (hsent : ∀ datagram ∈ datagrams, ∃ segs, segs ≠ [] ∧
      datagram = wires segs ∧ ∀ seg ∈ segs, Legit conv outAfter innAfter outAfter.count
        innAfter.count seg) :
    Linked (channel.emit side after datagrams) conv (side.pair outAfter innAfter) := by
  have hout := grows_steps hadvanced.sending.steps
  have hinn := grows_steps hadvanced.receiving.steps
  have hinnCount : innAfter.count = (links side.other).count :=
    congrArg List.length hadvanced.receiving.items
  have hcount : channel.numbered side +
      ((channel.ends side).sndQueue.length - after.sndQueue.length) = outAfter.count := by
    have hlength := congrArg List.length hadvanced.whole
    have hgrown := hout.items.length_le
    rw [List.length_append, List.length_append, List.length_map, List.length_map] at hlength
    rw [hlinked.numbered side]
    unfold Link.count
    omega
  refine ⟨?_, ?_, ?_, ?_⟩ <;> rw [Side.forall_iff side] <;>
    simp only [Channel.emit, Side.pair_self, Side.pair_other, Side.other_other]
  · exact ⟨hadvanced.coupled, coupled_other hlinked hadvanced.coupled hadvanced.sending
      hadvanced.receiving⟩
  · exact ⟨hadvanced.conv.trans (hlinked.conv_eq side), hlinked.conv_eq _⟩
  · rw [hlinked.numbered side.other, hinnCount]
    exact ⟨hcount, rfl⟩
  · refine ⟨fun packet hpacket => ?_, fun packet hpacket => ?_⟩
    · rcases List.mem_append.1 hpacket with hpacket | hpacket
      · obtain ⟨segs, hne, hbytes, hlegit⟩ := hlinked.legit side packet hpacket
        exact ⟨segs, hne, hbytes, fun seg hseg => legit_grows (hlegit seg hseg) hout hinn⟩
      · obtain ⟨datagram, hdatagram, rfl⟩ := List.mem_map.1 hpacket
        obtain ⟨segs, hne, hbytes, hlegit⟩ := hsent datagram hdatagram
        refine ⟨segs, hne, hbytes, fun seg hseg => ?_⟩
        simp only [Side.pair_self, Side.pair_other]
        rw [hcount, hlinked.numbered side.other, ← hinnCount]
        exact hlegit seg hseg
    · obtain ⟨segs, hne, hbytes, hlegit⟩ := hlinked.legit side.other packet hpacket
      rw [Side.other_other] at hlegit
      exact ⟨segs, hne, hbytes, fun seg hseg => legit_grows (hlegit seg hseg) hinn hout⟩

/-- What is on its way stays the same. -/
theorem transit_emit (hlinked : Linked channel conv links)
    (hadvanced : Advanced (channel.ends side) (links side) (links side.other) after outAfter
      innAfter) (datagrams : List Bytes) (asked : Side) :
    transit (channel.emit side after datagrams) (side.pair outAfter innAfter) asked =
      transit channel links asked := by
  revert asked
  rw [Side.forall_iff side]
  simp only [transit, Channel.emit, Side.pair_self, Side.pair_other, Side.other_other]
  refine ⟨?_, ?_⟩
  · have hnext := hlinked.coupled side.other |>.inn_inv.next_le
    rw [Side.other_other] at hnext
    have hgrown := (grows_steps hadvanced.sending.steps).items.length_le
    have hwhole := congrArg (List.drop (links side).next) hadvanced.whole
    unfold Link.count at hnext
    rw [List.drop_append_of_le_length (by omega), List.drop_append_of_le_length hnext] at hwhole
    rw [undelivered, undelivered, hadvanced.sending.next, List.append_assoc, List.append_assoc,
      hwhole]
  · rw [hadvanced.same]

/-- One end takes steps of its receiver, or queues segments. -/
theorem linked_put (hlinked : Linked channel conv links)
    (hcoupled : Coupled after (links side) innAfter)
    (hreceiving : Receiving sizes (links side.other) innAfter) (hconv : after.conv = conv) :
    Linked (channel.put side after) conv (side.pair (links side) innAfter) := by
  have hinn := grows_steps hreceiving.steps
  have hout := grows_refl (links side)
  have hinnCount : innAfter.count = (links side.other).count :=
    congrArg List.length hreceiving.items
  refine ⟨?_, ?_, ?_, ?_⟩ <;> rw [Side.forall_iff side] <;>
    simp only [Channel.put, Side.pair_self, Side.pair_other, Side.other_other]
  · exact ⟨hcoupled, coupled_other hlinked hcoupled (sending_refl _) hreceiving⟩
  · exact ⟨hconv, hlinked.conv_eq _⟩
  · rw [hinnCount]
    exact ⟨hlinked.numbered side, hlinked.numbered side.other⟩
  · refine ⟨fun packet hpacket => ?_, fun packet hpacket => ?_⟩
    · obtain ⟨segs, hne, hbytes, hlegit⟩ := hlinked.legit side packet hpacket
      exact ⟨segs, hne, hbytes, fun seg hseg => legit_grows (hlegit seg hseg) hout hinn⟩
    · obtain ⟨segs, hne, hbytes, hlegit⟩ := hlinked.legit side.other packet hpacket
      rw [Side.other_other] at hlegit
      exact ⟨segs, hne, hbytes, fun seg hseg => legit_grows (hlegit seg hseg) hinn hout⟩

/-- A packet that the network delivers. -/
theorem advanced_deliver (hlinked : Linked channel conv links) {packet : Packet}
    (hpacket : packet ∈ channel.sent side.other) (hfresh : channel.Fresh packet) :
    ∃ outAfter innAfter, Advanced (channel.ends side) (links side) (links side.other)
      (ikcpInput (channel.ends side) packet.bytes).2 outAfter innAfter := by
  obtain ⟨segs, hne, hbytes, hlegit⟩ := hlinked.legit side.other packet hpacket
  rw [Side.other_other] at hlegit
  rw [hbytes]
  have hfreshLink (asked : Side) : (links asked).Fresh sizes (packet.numbered asked) := by
    have hstamp := hfresh asked
    rw [hlinked.numbered asked] at hstamp
    exact hstamp
  refine coupled_input (hlinked.coupled side) hne ?_ (hfreshLink side.other) (hfreshLink side)
  rw [hlinked.conv_eq side]
  exact hlegit

end Linked

/-! ## Messages and bytes -/

section Carries

variable {channel : Channel} {conv : UInt32} {links : Side → Link Fragment} {side : Side}
  {after : Ikcpcb} {events : List Event}

/-- What the programs have handed over in one direction and not got at the other end is on its way,
byte for byte, and in message mode message for message. -/
structure Carries (channel : Channel) (links : Side → Link Fragment) (events : List Event)
    (side : Side) : Prop where
  bytes : (acceptedAt side events).flatten =
    (deliveredAt side.other events).flatten ++ joined (transit channel links side)
  messages : (channel.ends side).stream = 0 → ∃ waiting,
    acceptedAt side events = deliveredAt side.other events ++ waiting ∧
      transit channel links side =
        (waiting.map (fragmentsOf (channel.ends side).mss.toNat)).flatten ∧
      ∀ message ∈ waiting, fragmentCount (channel.ends side).mss.toNat message.length < 128

theorem acceptedAt_append (side : Side) (events later : List Event) :
    acceptedAt side (events ++ later) = acceptedAt side events ++ acceptedAt side later :=
  List.filterMap_append

theorem deliveredAt_append (side : Side) (events later : List Event) :
    deliveredAt side (events ++ later) = deliveredAt side events ++ deliveredAt side later :=
  List.filterMap_append

/-- Another state with the same in transit and the same parameters. -/
theorem carries_same {following : Channel} {linksAfter : Side → Link Fragment}
    (hcarries : Carries channel links events side)
    (htransit : transit following linksAfter side = transit channel links side)
    (hparameters : (following.ends side).parameters = (channel.ends side).parameters) :
    Carries following linksAfter events side := by
  obtain ⟨-, hmss, -, hstream⟩ := parameters_fields hparameters
  refine ⟨?_, ?_⟩
  · rw [htransit]
    exact hcarries.bytes
  · rw [htransit, hmss, hstream]
    exact hcarries.messages

/-- Events that do not belong to a direction. -/
theorem carries_quiet {later : List Event} (hcarries : Carries channel links events side)
    (haccepted : acceptedAt side later = []) (hdelivered : deliveredAt side.other later = []) :
    Carries channel links (events ++ later) side := by
  have haccepted : acceptedAt side (events ++ later) = acceptedAt side events := by
    rw [acceptedAt_append, haccepted, List.append_nil]
  have hdelivered : deliveredAt side.other (events ++ later) = deliveredAt side.other events := by
    rw [deliveredAt_append, hdelivered, List.append_nil]
  refine ⟨?_, ?_⟩
  · rw [haccepted, hdelivered]
    exact hcarries.bytes
  · rw [haccepted, hdelivered]
    exact hcarries.messages

/-- The events of a step at another end. -/
theorem acceptedAt_ne {asked : Side} (h : side ≠ asked) (bytes : Bytes) :
    acceptedAt asked [.accepted side bytes] = [] := by
  simp [acceptedAt, Event.acceptedAt, h]

theorem deliveredAt_ne {asked : Side} (h : side ≠ asked) (bytes : Bytes) :
    deliveredAt asked [.delivered side bytes] = [] := by
  simp [deliveredAt, Event.deliveredAt, h]

theorem acceptedAt_self (side : Side) (bytes : Bytes) :
    acceptedAt side [.accepted side bytes] = [bytes] := by
  simp [acceptedAt, Event.acceptedAt]

theorem deliveredAt_self (side : Side) (bytes : Bytes) :
    deliveredAt side [.delivered side bytes] = [bytes] := by
  simp [deliveredAt, Event.deliveredAt]

/-- The event of a call of `ikcp_send`. -/
def sendEvent (kcp : Ikcpcb) (side : Side) (buffer : Bytes) : List Event :=
  if 0 ≤ (ikcpSend kcp buffer).1 then
    [.accepted side (buffer.take (ikcpSend kcp buffer).1.toNat)]
  else []

/-- The event of a call of `ikcp_recv`. -/
def recvEvent (kcp : Ikcpcb) (side : Side) (len : Int) : List Event :=
  if 0 ≤ (ikcpRecv kcp len).1 ∧ 0 ≤ len then [.delivered side (ikcpRecv kcp len).2.1] else []

theorem carries_send (hlinked : Linked channel conv links)
    (hcarries : ∀ asked, Carries channel links events asked) (buffer : Bytes) (asked : Side) :
    Carries (channel.put side (ikcpSend (channel.ends side) buffer).2)
      (side.pair (links side) (links side.other))
      (events ++ sendEvent (channel.ends side) side buffer) asked := by
  have hsound := (hlinked.coupled side).healthy.toSound
  obtain ⟨-, hmss, -, hstream⟩ :=
    parameters_fields (parameters_of_settings (settings_send (channel.ends side) buffer))
  revert asked
  rw [Side.forall_iff side]
  refine ⟨?_, ?_⟩
  · obtain ⟨hbytes, hmessages⟩ := hcarries side
    have hdelivered : deliveredAt side.other (sendEvent (channel.ends side) side buffer) = [] := by
      unfold sendEvent
      split <;> rfl
    refine ⟨?_, ?_⟩
    · have haccepted : (acceptedAt side (sendEvent (channel.ends side) side buffer)).flatten =
          buffer.take (ikcpSend (channel.ends side) buffer).1.toNat := by
        unfold sendEvent
        split
        · rw [acceptedAt_self, List.flatten_singleton]
        · rename_i hcode
          rw [Int.toNat_of_nonpos (by omega)]
          rfl
      rw [acceptedAt_append, deliveredAt_append, hdelivered, List.flatten_append, haccepted, hbytes,
        List.append_nil]
      simp only [transit, Channel.put, Side.pair_self, Side.pair_other]
      rw [joined_append, joined_append, joined_fragment, joined_fragment, send_bytes hsound]
      simp only [List.append_assoc]
    · simp only [transit, Channel.put, Side.pair_self, Side.pair_other]
      rw [hmss, hstream, acceptedAt_append, deliveredAt_append, hdelivered, List.append_nil]
      intro hmode
      obtain ⟨waiting, haccepted, htransit, hfew⟩ := hmessages hmode
      rcases send_message hsound hmode buffer with ⟨hrefused, -⟩ | ⟨hcount, hsent, hpieces⟩
      · refine ⟨waiting, ?_, ?_, hfew⟩
        · rw [sendEvent, hrefused, if_neg (show ¬ (0 : Int) ≤ -2 by decide), haccepted]
          exact List.append_nil _
        · rw [hrefused]
          exact htransit
      · refine ⟨waiting ++ [buffer], ?_, ?_, ?_⟩
        · rw [sendEvent, hsent, if_pos (Int.natCast_nonneg _), acceptedAt_self, Int.toNat_natCast,
            List.take_length, haccepted, List.append_assoc]
        · rw [hsent]
          unfold transit at htransit
          simp only [List.map_append, List.flatten_append, ← List.append_assoc, htransit, hpieces,
            List.map_cons, List.map_nil, List.flatten_singleton]
        · intro message hmessage
          rcases List.mem_append.1 hmessage with hmessage | hmessage
          · exact hfew message hmessage
          · rw [List.mem_singleton.1 hmessage]
            exact hcount
  · obtain ⟨queue, nsndQue, hframe⟩ := send_frame (channel.ends side) buffer
    have hquiet : Carries channel links (events ++ sendEvent (channel.ends side) side buffer)
        side.other := by
      refine carries_quiet (hcarries side.other) ?_ ?_
      · unfold sendEvent
        split
        · exact acceptedAt_ne side.other_ne.symm _
        · rfl
      · unfold sendEvent
        split <;> rfl
    refine carries_same hquiet ?_ ?_
    · simp only [transit, Channel.put, Side.pair_self, Side.pair_other, Side.other_other]
      rw [hframe]
    · simp only [Channel.put, Side.pair_other]

/-- A call of `ikcp_recv` gives the program nothing, or the first message of `rcv_queue`. -/
theorem recvEvent_cases (kcp : Ikcpcb) (side : Side) (len : Int) :
    (recvEvent kcp side len = [] ∧ takenBy kcp len = []) ∨
      (recvEvent kcp side len = [.delivered side (dataOf (splitMessage kcp.rcvQueue).1)] ∧
        takenBy kcp len = (splitMessage kcp.rcvQueue).1 ∧ kcp.rcvQueue ≠ [] ∧ 0 ≤ kcp.peeksize) := by
  unfold recvEvent takenBy
  rcases recv_cases kcp len with ⟨code, hcode, heq⟩ | ⟨hne, hready, hfits, heq⟩
  · rw [heq]
    exact Or.inl ⟨if_neg fun h => absurd hcode (Int.not_lt.2 h.1),
      if_neg fun h => absurd hcode (Int.not_lt.2 h.1)⟩
  · rw [heq]
    rcases Int.lt_or_le len 0 with hpeek | htake
    · exact Or.inl ⟨if_neg fun h => absurd hpeek (Int.not_lt.2 h.2),
        if_neg fun h => absurd hpeek (Int.not_lt.2 h.2)⟩
    · exact Or.inr ⟨if_pos ⟨hready, htake⟩, if_pos ⟨hready, htake⟩, hne, hready⟩

theorem acceptedAt_recvEvent (kcp : Ikcpcb) (side asked : Side) (len : Int) :
    acceptedAt asked (recvEvent kcp side len) = [] := by
  unfold recvEvent
  split <;> rfl

/-- The direction in which the program takes a message. -/
theorem carries_taken {following : Channel} {linksAfter : Side → Link Fragment} {len : Int}
    (hlinked : Linked channel conv links) (hcarries : Carries channel links events side.other)
    (hends : following.ends side.other = channel.ends side.other)
    (htransit : transit channel links side.other =
      (takenBy (channel.ends side) len).map IkcpSeg.fragment ++
        transit following linksAfter side.other) :
    Carries following linksAfter (events ++ recvEvent (channel.ends side) side len)
      side.other := by
  rcases recvEvent_cases (channel.ends side) side len with
    ⟨hevent, htaken⟩ | ⟨hevent, htaken, hne, hready⟩
  · rw [htaken] at htransit
    rw [hevent, List.append_nil]
    exact carries_same hcarries htransit.symm (by rw [hends])
  · obtain ⟨hbytes, hmessages⟩ := hcarries
    rw [Side.other_other] at hbytes hmessages
    rw [htaken] at htransit
    have hdelivered : deliveredAt side (events ++ recvEvent (channel.ends side) side len) =
        deliveredAt side events ++ [dataOf (splitMessage (channel.ends side).rcvQueue).1] := by
      rw [deliveredAt_append, hevent, deliveredAt_self]
    have hkept : acceptedAt side.other (events ++ recvEvent (channel.ends side) side len) =
        acceptedAt side.other events := by
      rw [acceptedAt_append, acceptedAt_recvEvent, List.append_nil]
    refine ⟨?_, ?_⟩ <;> rw [Side.other_other, hdelivered, hkept]
    · rw [hbytes, htransit, joined_append, joined_fragment, List.flatten_append,
        List.flatten_singleton, List.append_assoc]
    · rw [hends]
      intro hmode
      obtain ⟨waiting, hsplit, hwaiting, hfew⟩ := hmessages hmode
      have hwhole : (channel.ends side).rcvQueue.map IkcpSeg.fragment ++
          ((links side.other).items.drop (links side.other).next ++
            (channel.ends side.other).sndQueue.map IkcpSeg.fragment) =
          (waiting.map (fragmentsOf (channel.ends side.other).mss.toNat)).flatten := by
        rw [← hwaiting, transit, undelivered, Side.other_other, List.append_assoc]
      obtain ⟨rest, hrest, hfragments⟩ :=
        recv_waiting (mss_pos (hlinked.coupled side.other).healthy.toSound)
          (hlinked.coupled side).healthy.receiver.que hwhole hfew hne hready
      refine ⟨rest, ?_, ?_, fun message hmessage => hfew message ?_⟩
      · rw [hsplit, hrest, List.append_assoc, List.singleton_append]
      · rw [hwaiting, hrest, List.map_cons, List.flatten_cons, hfragments] at htransit
        exact (List.append_cancel_left htransit).symm
      · rw [hrest]
        exact List.mem_cons_of_mem _ hmessage

theorem carries_recv (hlinked : Linked channel conv links)
    (hcarries : ∀ asked, Carries channel links events asked) {len : Int}
    {innAfter : Link Fragment}
    (hqueue : (ikcpRecv (channel.ends side) len).2.2.sndQueue = (channel.ends side).sndQueue)
    (htaken : undelivered (channel.ends side).toReceiver (links side.other) =
      (takenBy (channel.ends side) len).map IkcpSeg.fragment ++
        undelivered (ikcpRecv (channel.ends side) len).2.2.toReceiver innAfter) (asked : Side) :
    Carries (channel.put side (ikcpRecv (channel.ends side) len).2.2)
      (side.pair (links side) innAfter)
      (events ++ recvEvent (channel.ends side) side len) asked := by
  revert asked
  rw [Side.forall_iff side]
  refine ⟨?_, ?_⟩
  · have hquiet : Carries channel links (events ++ recvEvent (channel.ends side) side len) side := by
      refine carries_quiet (hcarries side) (acceptedAt_recvEvent _ _ _ _) ?_
      unfold recvEvent
      split
      · exact deliveredAt_ne side.other_ne.symm _
      · rfl
    refine carries_same hquiet ?_ ?_
    · simp only [transit, Channel.put, Side.pair_self, Side.pair_other]
      rw [hqueue]
    · simp only [Channel.put, Side.pair_self]
      exact parameters_of_settings (settings_recv (channel.ends side) len)
  · refine carries_taken hlinked (hcarries side.other) ?_ ?_
    · simp only [Channel.put, Side.pair_other]
    · simp only [transit, Channel.put, Side.pair_self, Side.pair_other, Side.other_other]
      rw [htaken, List.append_assoc]

end Carries

/-! ## Runs -/

section Runs

variable {channel following : Channel} {conv : UInt32} {links : Side → Link Fragment}
  {events out : List Event} {act : Act}

/-- What every reachable state has: a sliding window in each direction, that carries what the
programs have handed over. -/
def Connected (conv : UInt32) (events : List Event) (channel : Channel) : Prop :=
  ∃ links, Linked channel conv links ∧ ∀ side, Carries channel links events side

theorem connected_start (config : Side → Config) (stream : Side → Int32) (conv : UInt32)
    (hwnd : ∀ side, (config side).rcvwnd.toInt ≤ 2 ^ 30) :
    Connected conv [] (Channel.start config stream conv) := by
  refine ⟨fun _ => Link.start, ⟨fun side => ?_, fun side => ?_, fun _ => rfl, fun _ => nofun⟩,
    fun side => ?_⟩
  · obtain ⟨-, hreceiver, hsender, -, -, -, -, hacklist, -⟩ := configured_fields (config side) conv
    have hhealthy := healthy_configured (config side) conv
    have hroom := rcvWnd_configured (config side) conv
    refine ⟨{ hhealthy with }, ?_, inv_start, inv_start, ?_, ?_, ?_⟩
    · have hmost := hwnd side
      show ((config side).block conv).rcvWnd.toNat ≤ _
      omega
    · show Sends ((config side).block conv).toSender _
      rw [hsender]
      exact ⟨rfl, nofun, nofun⟩
    · show Receives ((config side).block conv).toReceiver _
      rw [hreceiver]
      exact ⟨rfl, nofun, nofun⟩
    · show Owes ((config side).block conv).acklist _
      rw [hacklist]
      exact nofun
  · exact (configured_fields (config side) conv).1
  · have hempty : transit (Channel.start config stream conv) (fun _ => Link.start) side = [] := by
      have hreceiver := (configured_fields (config side.other) conv).2.1
      have hsender := (configured_fields (config side) conv).2.2.1
      show (((config side.other).block conv).toReceiver.rcvQueue.map IkcpSeg.fragment ++ []) ++
        ((config side).block conv).toSender.sndQueue.map IkcpSeg.fragment = []
      rw [hreceiver, hsender]
      rfl
    refine ⟨?_, fun _ => ⟨[], rfl, hempty, nofun⟩⟩
    rw [hempty]
    rfl

/-- A step in which an end sends datagrams, or takes one in. -/
theorem connected_emit (hlinked : Linked channel conv links)
    (hcarries : ∀ asked, Carries channel links events asked) {side : Side} {after : Ikcpcb}
    {outAfter innAfter : Link Fragment}
    (hadvanced : Advanced (channel.ends side) (links side) (links side.other) after outAfter
      innAfter) (hparameters : after.parameters = (channel.ends side).parameters)
    {datagrams : List Bytes} (hsent : ∀ datagram ∈ datagrams, ∃ segs, segs ≠ [] ∧
      datagram = wires segs ∧ ∀ seg ∈ segs, Legit conv outAfter innAfter outAfter.count
        innAfter.count seg) :
    Connected conv (events ++ []) (channel.emit side after datagrams) := by
  refine ⟨_, linked_emit hlinked hadvanced hsent, fun asked => ?_⟩
  rw [List.append_nil]
  refine carries_same (hcarries asked) (transit_emit hlinked hadvanced datagrams asked) ?_
  revert asked
  rw [Side.forall_iff side]
  simp only [Channel.emit, Side.pair_self, Side.pair_other, and_true]
  exact hparameters

/-- Every step that the network allows keeps the windows and what they carry. -/
theorem connected_step (hconnected : Connected conv events channel) (hadmits : channel.Admits act)
    (hstep : channel.step act = .ok (following, out)) :
    Connected conv (events ++ out) following := by
  obtain ⟨links, hlinked, hcarries⟩ := hconnected
  cases act with
  | send side buffer =>
      cases hstep
      have hsent := linked_put hlinked (coupled_send (hlinked.coupled side) buffer)
        (receiving_refl _) ?_
      · exact ⟨_, hsent, carries_send hlinked hcarries buffer⟩
      · rw [← hlinked.conv_eq side]
        exact (parameters_fields (parameters_of_settings (settings_send _ _))).1
  | recv side len =>
      cases hstep
      obtain ⟨innAfter, hcoupled, hreceiving, hqueue, htaken⟩ :=
        coupled_recv (hlinked.coupled side) len
      have hconv := (parameters_fields (parameters_of_settings
        (settings_recv (channel.ends side) len))).1
      exact ⟨_, linked_put hlinked hcoupled hreceiving (hconv.trans (hlinked.conv_eq side)),
        carries_recv hlinked hcarries hqueue htaken⟩
  | update side now =>
      cases hstep
      obtain ⟨outAfter, innAfter, hadvanced, hsent⟩ := coupled_update (hlinked.coupled side) now
      rw [hlinked.conv_eq side] at hsent
      exact connected_emit hlinked hcarries hadvanced (parameters_update _ _) hsent
  | flush side =>
      cases hstep
      obtain ⟨outAfter, innAfter, hadvanced, hsent⟩ := coupled_flush (hlinked.coupled side)
      rw [hlinked.conv_eq side] at hsent
      exact connected_emit hlinked hcarries hadvanced (parameters_of_settings (settings_flush _)) hsent
  | deliver side index =>
      cases hstep
      unfold Channel.deliver
      split
      · rename_i packet hpacket
        obtain ⟨outAfter, innAfter, hadvanced⟩ :=
          advanced_deliver hlinked (List.mem_of_getElem? hpacket) (hadmits packet hpacket)
        exact connected_emit hlinked hcarries hadvanced (parameters_of_settings (settings_input _ _))
          nofun
      · rw [List.append_nil]
        exact ⟨links, hlinked, hcarries⟩
  | stray side data =>
      cases hstep
      have hsame : ikcpInput (channel.ends side) data = (-1, channel.ends side) :=
        input_stray hadmits
      have hadvanced : Advanced (channel.ends side) (links side) (links side.other)
          (ikcpInput (channel.ends side) data).2 (links side) (links side.other) := by
        rw [hsame]
        exact ⟨hlinked.coupled side, sending_refl _, receiving_refl _, rfl, rfl, rfl⟩
      exact connected_emit hlinked hcarries hadvanced (parameters_of_settings (settings_input _ _))
          nofun

end Runs

end CarDetect.Kcp
