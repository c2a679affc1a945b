import CarDetect.Kcp.Delivery
import CarDetect.Camera.Packetization
import CarDetect.Stream.RoundTrip

/-!
# From the camera to the viewers

The way of an RTP packet: `rtp_send_h264` hands it to the camera's KCP block, the callback of the
media server takes it from the block at the other end and hands it to a block for each Qt client,
and the client hands what it receives to `handleRtp`. Blocks are updated and datagrams arrive at any
time, clients come and go, and both networks lose, repeat and reorder datagrams.

`handed_in_order` says what a client hands to `handleRtp`, and `decoded_in_order` what comes out of
its reassembler.
-/

namespace CarDetect.Stream

open BigEndian Kcp Machine
open Camera (RtspSession sendNalus)
open Qt (QString FrameReady feed fresh)

/-! ## The programs -/

/-- The state of a connection after an act, and what happens to its programs. -/
def apply (channel : Channel) (act : Act) : Channel × List Event :=
  match channel.step act with
  | .ok result => result
  | .error fault => fault.elim

/-- What a socket receives: a datagram that the other end has sent, or one from somewhere else. -/
inductive Arrival where
  | packet (index : Nat)
  | stray (data : Bytes)
deriving DecidableEq, Repr

/-- `ikcp_input` on an arrival. -/
def Arrival.act (side : Side) : Arrival → Act
  | .packet index => .deliver side index
  | .stray data => .stray side data

/-- What runs beside the handing over of packets: `ikcp_update` at either end, and `ikcp_input` at
the sending end. -/
inductive Duty where
  | update (side : Side) (now : UInt32)
  | input (arrival : Arrival)
deriving DecidableEq, Repr

def Duty.act : Duty → Act
  | .update side now => .update side now
  | .input arrival => arrival.act .near

/-- `send_rtp_over_kcp` -/
def sendRtpOverKcp (channel : Channel) (rtpData : Bytes) : Channel × List Event :=
  if rtpData.length ≤ 0 then (channel, []) else apply channel (.send .near rtpData)

/-- The `sizeof` of the buffer in the server's callback. -/
def SERVER_BUFFER : Int := 1500

/-- The `sizeof` of the buffer in `handleKcpRecv`. -/
def CLIENT_BUFFER : Int := 4096

/-- The loop of `handleKcpRecv`: the connection after it, and what it has handed on. -/
def recvLoop : Nat → Channel → Channel × List Bytes
  | 0, channel => (channel, [])
  | turns + 1, channel =>
      let hr := (ikcpRecv (channel.ends .far) CLIENT_BUFFER).1
      let receivedData := (ikcpRecv (channel.ends .far) CLIENT_BUFFER).2.1
      let channel := (apply channel (.recv .far CLIENT_BUFFER)).1
      if hr > 0 then
        let (final, later) := recvLoop turns channel
        (final, receivedData :: later)
      else (channel, [])

/-- `handleKcpRecv`. Every turn of its loop but the last takes a segment from the block. -/
def handleKcpRecv (channel : Channel) : Channel × List Bytes :=
  recvLoop ((channel.ends .far).rcvQueue.length + (channel.ends .far).rcvBuf.length + 1) channel

/-! ## The system -/

/-- The connection of the server with a client, how many packets had been relayed when the client
came, and what the client has handed to `handleRtp`. -/
structure Viewer where
  channel : Channel
  since : Nat
  handed : List Bytes

/-- The connection of the camera with the server, the packets that the camera's block has taken,
those that the server has relayed, and the clients. -/
structure Pipeline (κ : Type*) where
  uplink : Channel
  captured : List Bytes
  relayed : List Bytes
  viewers : κ → Option Viewer

/-- `capture` is a packet of `rtp_send_h264`, `relay` a datagram at the server's RTP socket, and
`watch` a datagram at a client's. -/
inductive Move (κ : Type*) where
  | capture (packet : Bytes)
  | relay (arrival : Arrival)
  | uplink (duty : Duty)
  | join (client : κ) (conv : UInt32)
  | leave (client : κ)
  | watch (client : κ) (arrival : Arrival)
  | viewer (client : κ) (duty : Duty)
deriving DecidableEq, Repr

namespace Pipeline

section Steps

variable {κ : Type*} [DecidableEq κ]

/-- A camera that has just got its block. -/
def start (conv : UInt32) : Pipeline κ where
  uplink := Channel.start (Side.pair .near wideConfig camConfig) (fun _ => 0) conv
  captured := []
  relayed := []
  viewers _ := none

/-- `send_rtp_over_kcp` and `ikcp_flush`, under the mutex of the session. -/
def capture (pipeline : Pipeline κ) (packet : Bytes) : Pipeline κ :=
  let (channel, events) := sendRtpOverKcp pipeline.uplink packet
  { pipeline with
    uplink := (apply channel (.flush .near)).1
    captured := pipeline.captured ++ acceptedAt .near events }

/-- `onNaluUdp` -/
def onNaluUdp (pipeline : Pipeline κ) (data : Bytes) : Pipeline κ :=
  { pipeline with
    relayed := pipeline.relayed ++ [data]
    viewers := fun client => (pipeline.viewers client).map fun viewer =>
      { viewer with channel := (apply viewer.channel (.send .near data)).1 } }

/-- A turn of the loop in the callback of `handleRecord`. -/
def relay (pipeline : Pipeline κ) (arrival : Arrival) : Pipeline κ :=
  let channel := (apply pipeline.uplink (arrival.act .far)).1
  let rtpLen := (ikcpRecv (channel.ends .far) SERVER_BUFFER).1
  let kcpBuffer := (ikcpRecv (channel.ends .far) SERVER_BUFFER).2.1
  let pipeline := { pipeline with uplink := (apply channel (.recv .far SERVER_BUFFER)).1 }
  if rtpLen > 0 then onNaluUdp pipeline kcpBuffer else pipeline

/-- A client has another connection, or none. -/
def put (pipeline : Pipeline κ) (client : κ) (viewer : Option Viewer) : Pipeline κ :=
  { pipeline with
    viewers := fun asked => if asked = client then viewer else pipeline.viewers asked }

/-- The blocks of a new client. -/
def join (pipeline : Pipeline κ) (client : κ) (conv : UInt32) : Pipeline κ :=
  pipeline.put client
    (some ⟨Channel.start (fun _ => wideConfig) (fun _ => 0) conv, pipeline.relayed.length, []⟩)

/-- Something happens to the connection of a client, if there is one. -/
def atViewer (pipeline : Pipeline κ) (client : κ) (change : Viewer → Viewer) : Pipeline κ :=
  pipeline.put client ((pipeline.viewers client).map change)

/-- A turn of the loop in `handleReadyRead`. -/
def watch (viewer : Viewer) (arrival : Arrival) : Viewer :=
  let received := handleKcpRecv (apply viewer.channel (arrival.act .far)).1
  { viewer with channel := received.1, handed := viewer.handed ++ received.2 }

/-- One step. -/
def step : Step (Pipeline κ) (Move κ) Empty Empty
  | pipeline, .capture packet => .ok (pipeline.capture packet, [])
  | pipeline, .relay arrival => .ok (pipeline.relay arrival, [])
  | pipeline, .uplink duty =>
      .ok ({ pipeline with uplink := (apply pipeline.uplink duty.act).1 }, [])
  | pipeline, .join client conv => .ok (pipeline.join client conv, [])
  | pipeline, .leave client => .ok (pipeline.put client none, [])
  | pipeline, .watch client arrival =>
      .ok (pipeline.atViewer client fun viewer => watch viewer arrival, [])
  | pipeline, .viewer client duty =>
      .ok (pipeline.atViewer client fun viewer =>
        { viewer with channel := (apply viewer.channel duty.act).1 }, [])

/-- What the two networks do. -/
def Admits (pipeline : Pipeline κ) : Move κ → Prop
  | .relay arrival => pipeline.uplink.Admits (arrival.act .far)
  | .uplink duty => pipeline.uplink.Admits duty.act
  | .watch client arrival => ∀ viewer, pipeline.viewers client = some viewer →
      viewer.channel.Admits (arrival.act .far)
  | .viewer client duty => ∀ viewer, pipeline.viewers client = some viewer →
      viewer.channel.Admits duty.act
  | _ => True

instance (pipeline : Pipeline κ) : (move : Move κ) → Decidable (pipeline.Admits move)
  | .relay _ | .uplink _ => inferInstanceAs (Decidable (Channel.Admits _ _))
  | .watch client arrival => inferInstanceAs (Decidable (∀ viewer,
      viewer ∈ pipeline.viewers client → viewer.channel.Admits (arrival.act .far)))
  | .viewer client duty => inferInstanceAs (Decidable (∀ viewer,
      viewer ∈ pipeline.viewers client → viewer.channel.Admits duty.act))
  | .capture _ | .join _ _ | .leave _ => inferInstanceAs (Decidable True)

end Steps

end Pipeline

/-! ## One connection -/

section Connection

variable {channel : Channel} {conv : UInt32} {sent got : List Bytes} {act : Act}

theorem step_apply (channel : Channel) (act : Act) :
    channel.step act = .ok (apply channel act) := by
  unfold apply
  cases channel.step act with
  | ok result => rfl
  | error fault => exact fault.elim

/-- A connection whose near end has taken the packets `sent`, in message mode and with the segments
of `kcp_init`, and whose far end has handed out `got`. -/
structure Carrying (conv : UInt32) (sent got : List Bytes) (channel : Channel) : Prop where
  stream : (channel.ends .near).stream = 0
  mss : (channel.ends .near).mss = 1426
  connected : ∃ events, Connected conv events channel ∧ acceptedAt .near events = sent ∧
    deliveredAt .far events = got

theorem carrying_start {config : Side → Config} (hnear : config .near = wideConfig)
    (hwnd : ∀ side, (config side).rcvwnd.toInt ≤ 2 ^ 30) (conv : UInt32) :
    Carrying conv [] [] (Channel.start config (fun _ => 0) conv) := by
  refine ⟨rfl, ?_, [], connected_start config (fun _ => 0) conv hwnd, rfl, rfl⟩
  show ((config .near).block conv).mss = 1426
  rw [hnear]
  rfl

/-- What is handed out has been taken, in the same order. -/
theorem carrying_order (hcarrying : Carrying conv sent got channel) : got <+: sent := by
  obtain ⟨events, hconnected, rfl, rfl⟩ := hcarrying.connected
  obtain ⟨waiting, haccepted⟩ := connected_messages hconnected hcarrying.stream
  rw [haccepted]
  exact List.prefix_append _ _

theorem carrying_apply (hcarrying : Carrying conv sent got channel) (hadmits : channel.Admits act) :
    Carrying conv (sent ++ acceptedAt .near (apply channel act).2)
      (got ++ deliveredAt .far (apply channel act).2) (apply channel act).1 := by
  obtain ⟨events, hconnected, rfl, rfl⟩ := hcarrying.connected
  have hstep := step_apply channel act
  obtain ⟨-, hmss, -, hstream⟩ := parameters_fields (parameters_step hstep .near)
  refine ⟨hstream.trans hcarrying.stream, hmss.trans hcarrying.mss, _,
    connected_step hconnected hadmits hstep, acceptedAt_append _ _ _, deliveredAt_append _ _ _⟩

/-- An act by which no program hands over anything. -/
theorem carrying_quiet (hcarrying : Carrying conv sent got channel) (hadmits : channel.Admits act)
    (hquiet : (apply channel act).2 = []) : Carrying conv sent got (apply channel act).1 := by
  have h := carrying_apply hcarrying hadmits
  rw [hquiet] at h
  simpa [acceptedAt, deliveredAt] using h

theorem apply_arrival (channel : Channel) (side : Side) (arrival : Arrival) :
    (apply channel (arrival.act side)).2 = [] := by
  cases arrival <;> rfl

theorem apply_duty (channel : Channel) (duty : Duty) : (apply channel duty.act).2 = [] := by
  cases duty with
  | update => rfl
  | input arrival => exact apply_arrival channel .near arrival

/-- A packet that `ikcp_send` takes. -/
theorem carrying_send (hcarrying : Carrying conv sent got channel) (packet : Bytes) :
    ∃ taken, acceptedAt .near (apply channel (.send .near packet)).2 = taken ∧
      Carrying conv (sent ++ taken) got (apply channel (.send .near packet)).1 ∧
      (taken = [packet] ∨ taken = [] ∧ 1500 < packet.length) := by
  have hadmits : channel.Admits (.send .near packet) := trivial
  have hkeeps := carrying_apply hcarrying hadmits
  have hsound : Sound (channel.ends .near) := by
    obtain ⟨events, ⟨links, hlinked, -⟩, -⟩ := hcarrying.connected
    exact (hlinked.coupled .near).healthy.toSound
  have hevents : (apply channel (.send .near packet)).2 =
      sendEvent (channel.ends .near) .near packet := rfl
  have hdelivered : deliveredAt .far (apply channel (.send .near packet)).2 = [] := by
    rw [hevents, sendEvent]
    split <;> rfl
  rw [hdelivered, List.append_nil] at hkeeps
  refine ⟨_, rfl, hkeeps, ?_⟩
  rw [hevents, sendEvent]
  rcases send_message hsound hcarrying.stream packet with ⟨hrefused, hmany⟩ | ⟨-, hsent, -⟩
  · right
    rw [hrefused, if_neg (show ¬ (0 : Int) ≤ -2 by decide)]
    refine ⟨rfl, ?_⟩
    have hmss : (channel.ends .near).mss.toNat = 1426 := by
      rw [hcarrying.mss]
      rfl
    rw [hmss] at hmany
    unfold fragmentCount at hmany
    by_contra hshort
    split at hmany <;> omega
  · left
    rw [hsent, if_pos (Int.natCast_nonneg _), acceptedAt_self, Int.toNat_natCast, List.take_length]

/-- A call of `ikcp_recv` at the far end hands out nothing, or the next packet. -/
theorem carrying_recv (hcarrying : Carrying conv sent got channel)
    (hfull : ∀ packet ∈ sent, packet ≠ []) {len : Int} (hlen : 0 ≤ len) :
    ((ikcpRecv (channel.ends .far) len).1 > 0 ∧
        ((ikcpRecv (channel.ends .far) len).2.1.length : Int) ≤ len ∧
        Carrying conv sent (got ++ [(ikcpRecv (channel.ends .far) len).2.1])
          (apply channel (.recv .far len)).1) ∨
      (¬ (ikcpRecv (channel.ends .far) len).1 > 0 ∧
        Carrying conv sent got (apply channel (.recv .far len)).1) := by
  have hadmits : channel.Admits (.recv .far len) := trivial
  have hkeeps := carrying_apply hcarrying hadmits
  have hevents : (apply channel (.recv .far len)).2 = recvEvent (channel.ends .far) .far len := rfl
  rw [hevents, acceptedAt_recvEvent, List.append_nil] at hkeeps
  unfold recvEvent at hkeeps
  by_cases hcode : 0 ≤ (ikcpRecv (channel.ends .far) len).1
  · rw [if_pos ⟨hcode, hlen⟩, deliveredAt_self] at hkeeps
    have hmem := (carrying_order hkeeps).subset
      (List.mem_append_right _ (List.mem_singleton_self _))
    have hpos := List.length_pos_of_ne_nil (hfull _ hmem)
    rcases recv_cases (channel.ends .far) len with ⟨code, hneg, heq⟩ | ⟨-, hready, hfits, heq⟩
    · rw [heq] at hcode
      exact absurd hneg (Int.not_lt.2 hcode)
    · have hpeek := peeksize_eq hready
      have hfirst : (ikcpRecv (channel.ends .far) len).1 = (channel.ends .far).peeksize := by
        rw [heq]
      have hsecond : (ikcpRecv (channel.ends .far) len).2.1 =
          dataOf (splitMessage (channel.ends .far).rcvQueue).1 := by
        rw [heq]
      rw [← hsecond] at hpeek
      exact Or.inl ⟨by omega, by omega, hkeeps⟩
  · rw [if_neg (fun h => hcode h.1)] at hkeeps
    refine Or.inr ⟨by omega, ?_⟩
    simpa [deliveredAt] using hkeeps

/-- How many segments a receiver holds. -/
def waiting (kcp : Ikcpcb) : Nat := kcp.rcvQueue.length + kcp.rcvBuf.length

/-- A call that returns something takes a segment. -/
theorem waiting_recv {kcp : Ikcpcb} {len : Int} (hlen : 0 ≤ len) (hpos : (ikcpRecv kcp len).1 > 0) :
    waiting (ikcpRecv kcp len).2.2 < waiting kcp := by
  rcases recv_cases kcp len with ⟨code, hneg, heq⟩ | ⟨hne, -, -, heq⟩
  · rw [heq] at hpos
    exact absurd hneg (Int.not_lt.2 (Int.le_of_lt hpos))
  · have hmoved (receiver : Receiver) :
        receiver.moveAvailable.rcvQueue.length + receiver.moveAvailable.rcvBuf.length =
          receiver.rcvQueue.length + receiver.rcvBuf.length := by
      refine @move_invariant receiver (fun moved => moved.rcvQueue.length + moved.rcvBuf.length =
        receiver.rcvQueue.length + receiver.rcvBuf.length) rfl ?_
      intro moved seg rest hinv hbuf _ _
      rw [hbuf, List.length_cons] at hinv
      show (moved.rcvQueue ++ [seg]).length + rest.length = _
      rw [List.length_append, List.length_singleton]
      omega
    have htaken : 0 < (splitMessage kcp.rcvQueue).1.length := by
      cases hqueue : kcp.rcvQueue with
      | nil => exact absurd hqueue hne
      | cons seg rest =>
          unfold splitMessage
          split <;> exact Nat.succ_pos _
    have hsplit := congrArg List.length (split_append kcp.rcvQueue)
    rw [List.length_append] at hsplit
    have hreceiver := fastRecover_receiver
      { kcp with toReceiver := kcp.dropMessage.moveAvailable } (kcp.nrcvQue ≥ kcp.rcvWnd)
    have hleft := hmoved kcp.dropMessage
    change _ = (splitMessage kcp.rcvQueue).2.length + kcp.rcvBuf.length at hleft
    rw [heq, if_neg (Int.not_lt.2 hlen)]
    unfold waiting
    rw [hreceiver]
    show kcp.dropMessage.moveAvailable.rcvQueue.length +
      kcp.dropMessage.moveAvailable.rcvBuf.length < _
    omega

theorem recvLoop_succ (turns : Nat) (channel : Channel) :
    recvLoop (turns + 1) channel =
      if (ikcpRecv (channel.ends .far) CLIENT_BUFFER).1 > 0 then
        ((recvLoop turns (apply channel (.recv .far CLIENT_BUFFER)).1).1,
          (ikcpRecv (channel.ends .far) CLIENT_BUFFER).2.1 ::
            (recvLoop turns (apply channel (.recv .far CLIENT_BUFFER)).1).2)
      else ((apply channel (.recv .far CLIENT_BUFFER)).1, []) := rfl

/-- The bound on the turns is none: the loop ends by itself before. -/
theorem loop_ends {turns : Nat} (hturns : waiting (channel.ends .far) < turns) :
    recvLoop (turns + 1) channel = recvLoop turns channel := by
  induction turns generalizing channel with
  | zero => exact absurd hturns (Nat.not_lt_zero _)
  | succ turns ih =>
      rw [recvLoop_succ (turns + 1) channel, recvLoop_succ turns channel]
      split
      · rename_i hpos
        have hless := waiting_recv (show (0 : Int) ≤ CLIENT_BUFFER by decide) hpos
        have hnext := @ih (apply channel (.recv .far CLIENT_BUFFER)).1
          (Nat.lt_of_lt_of_le hless (Nat.le_of_lt_succ hturns))
        rw [hnext]
      · rfl

/-- The loop of `handleKcpRecv` hands on the next packets. -/
theorem carrying_loop (hcarrying : Carrying conv sent got channel)
    (hfull : ∀ packet ∈ sent, packet ≠ []) (turns : Nat) :
    Carrying conv sent (got ++ (recvLoop turns channel).2) (recvLoop turns channel).1 := by
  induction turns generalizing channel got with
  | zero =>
      rw [recvLoop, List.append_nil]
      exact hcarrying
  | succ turns ih =>
      have hlen : 0 ≤ CLIENT_BUFFER := by decide
      rw [recvLoop_succ]
      rcases carrying_recv hcarrying hfull hlen with ⟨hpos, -, hnext⟩ | ⟨hnone, hnext⟩
      · rw [if_pos hpos, ← List.singleton_append, ← List.append_assoc]
        exact ih hnext
      · rw [if_neg hnone, List.append_nil]
        exact hnext

end Connection

/-! ## All connections -/

section Runs

variable {κ : Type*} {conv : UInt32} {pipeline following final : Pipeline κ} {move : Move κ}
  {moves : List (Move κ)} {out : List Empty} {client : κ} {viewer : Viewer}

/-- A client has what the server has relayed since it came. -/
def Served (relayed : List Bytes) (viewer : Viewer) : Prop :=
  viewer.since ≤ relayed.length ∧
    ∃ conv, Carrying conv (relayed.drop viewer.since) viewer.handed viewer.channel

/-- What holds of the system: each connection carries what the one before it has handed out. -/
structure Flowing (conv : UInt32) (pipeline : Pipeline κ) : Prop where
  uplink : Carrying conv pipeline.captured pipeline.relayed pipeline.uplink
  full : ∀ packet ∈ pipeline.captured, packet ≠ []
  viewers : ∀ client viewer, pipeline.viewers client = some viewer →
    Served pipeline.relayed viewer

theorem flowing_start (conv : UInt32) : Flowing conv (Pipeline.start conv : Pipeline κ) := by
  refine ⟨carrying_start (Side.pair_self _ _ _) ?_ conv, nofun, nofun⟩
  rw [Side.forall_iff .near, Side.pair_self, Side.pair_other]
  exact ⟨rcvwnd_wideConfig, rcvwnd_camConfig⟩

/-- The packets that a client can still get are not empty. -/
theorem served_full (hflowing : Flowing conv pipeline) (since : Nat) :
    ∀ packet ∈ pipeline.relayed.drop since, packet ≠ [] := fun packet hmem =>
  hflowing.full packet ((carrying_order hflowing.uplink).subset (List.mem_of_mem_drop hmem))

theorem flowing_capture (hflowing : Flowing conv pipeline) (packet : Bytes) :
    Flowing conv (pipeline.capture packet) := by
  unfold Pipeline.capture sendRtpOverKcp
  by_cases hempty : packet.length ≤ 0
  · simp only [if_pos hempty]
    have hadmits : pipeline.uplink.Admits (.flush .near) := trivial
    have hflushed := carrying_quiet hflowing.uplink hadmits rfl
    refine ⟨?_, ?_, hflowing.viewers⟩
    · simpa [acceptedAt] using hflushed
    · simpa [acceptedAt] using hflowing.full
  · simp only [if_neg hempty]
    obtain ⟨taken, htaken, hsent, hwhole⟩ := carrying_send hflowing.uplink packet
    refine ⟨?_, ?_, hflowing.viewers⟩
    · have hadmits : Channel.Admits (apply pipeline.uplink (.send .near packet)).1
          (.flush .near) := trivial
      rw [htaken]
      exact carrying_quiet hsent hadmits rfl
    · rw [htaken]
      intro other hother
      rcases List.mem_append.1 hother with hother | hother
      · exact hflowing.full other hother
      · rcases hwhole with rfl | ⟨rfl, -⟩
        · rw [List.mem_singleton.1 hother]
          exact List.ne_nil_of_length_pos (Nat.not_le.1 hempty)
        · cases hother

theorem served_relay {relayed : List Bytes} {data : Bytes} (hserved : Served relayed viewer)
    (hshort : data.length ≤ 1500) :
    Served (relayed ++ [data])
      { viewer with channel := (apply viewer.channel (.send .near data)).1 } := by
  obtain ⟨hsince, conv, hcarrying⟩ := hserved
  obtain ⟨taken, -, hsent, hwhole⟩ := carrying_send hcarrying data
  obtain rfl : taken = [data] := by
    rcases hwhole with h | ⟨-, hlong⟩
    · exact h
    · omega
  refine ⟨?_, conv, ?_⟩
  · rw [List.length_append]
    exact Nat.le_trans hsince (Nat.le_add_right _ _)
  · rw [List.drop_append_of_le_length hsince]
    exact hsent

theorem flowing_relay (hflowing : Flowing conv pipeline) (arrival : Arrival)
    (hadmits : pipeline.uplink.Admits (arrival.act .far)) :
    Flowing conv (pipeline.relay arrival) := by
  have hinput := carrying_quiet hflowing.uplink hadmits (apply_arrival _ _ _)
  unfold Pipeline.relay
  have hlen : 0 ≤ SERVER_BUFFER := by decide
  rcases carrying_recv hinput hflowing.full hlen with ⟨hpos, hshort, hnext⟩ | ⟨hnone, hnext⟩
  · simp only [if_pos hpos]
    refine ⟨hnext, hflowing.full, fun client viewer hviewer => ?_⟩
    obtain ⟨old, hold, rfl⟩ := Option.map_eq_some_iff.1 hviewer
    refine served_relay (hflowing.viewers client old hold) ?_
    have hsize : SERVER_BUFFER = 1500 := rfl
    omega
  · simp only [if_neg hnone]
    exact ⟨hnext, hflowing.full, hflowing.viewers⟩

variable [DecidableEq κ]

/-- A client gets another connection that has served it. -/
theorem flowing_put (hflowing : Flowing conv pipeline) {client : κ} {viewer : Option Viewer}
    (hserved : ∀ put, viewer = some put → Served pipeline.relayed put) :
    Flowing conv (pipeline.put client viewer) := by
  refine ⟨hflowing.uplink, hflowing.full, fun asked other hother => ?_⟩
  change (if asked = client then viewer else pipeline.viewers asked) = some other at hother
  split at hother
  · exact hserved other hother
  · exact hflowing.viewers asked other hother

/-- Something that keeps what a client has been served. -/
theorem flowing_viewer (hflowing : Flowing conv pipeline) {client : κ} {change : Viewer → Viewer}
    (hchange : ∀ viewer, pipeline.viewers client = some viewer →
      Served pipeline.relayed viewer → Served pipeline.relayed (change viewer)) :
    Flowing conv (pipeline.atViewer client change) := by
  refine flowing_put hflowing fun viewer hviewer => ?_
  obtain ⟨old, hold, rfl⟩ := Option.map_eq_some_iff.1 hviewer
  exact hchange old hold (hflowing.viewers client old hold)

theorem flowing_step (hflowing : Flowing conv pipeline) (hadmits : pipeline.Admits move)
    (hstep : pipeline.step move = .ok (following, out)) : Flowing conv following := by
  cases move with
  | capture packet =>
      cases hstep
      exact flowing_capture hflowing packet
  | relay arrival =>
      cases hstep
      exact flowing_relay hflowing arrival hadmits
  | uplink duty =>
      cases hstep
      exact ⟨carrying_quiet hflowing.uplink hadmits (apply_duty _ _), hflowing.full,
        hflowing.viewers⟩
  | join client conv =>
      cases hstep
      refine flowing_put hflowing fun viewer hviewer => ?_
      cases hviewer
      refine ⟨Nat.le_refl _, conv, ?_⟩
      show Carrying conv (pipeline.relayed.drop pipeline.relayed.length) [] _
      rw [List.drop_length]
      exact carrying_start rfl (fun _ => rcvwnd_wideConfig) conv
  | leave client =>
      cases hstep
      exact flowing_put hflowing nofun
  | watch client arrival =>
      cases hstep
      refine flowing_viewer hflowing fun viewer hviewer hserved => ?_
      obtain ⟨hsince, conv, hcarrying⟩ := hserved
      have hinput := carrying_quiet hcarrying (hadmits viewer hviewer) (apply_arrival _ _ _)
      have hloop := carrying_loop hinput (served_full hflowing viewer.since)
      exact ⟨hsince, conv, hloop _⟩
  | viewer client duty =>
      cases hstep
      refine flowing_viewer hflowing fun viewer hviewer hserved => ?_
      obtain ⟨hsince, conv, hcarrying⟩ := hserved
      exact ⟨hsince, conv, carrying_quiet hcarrying (hadmits viewer hviewer) (apply_duty _ _)⟩

theorem flowing_run
    (hfresh : Guarded Pipeline.step Pipeline.Admits (Pipeline.start conv) moves)
    (hrun : run Pipeline.step (Pipeline.start conv) moves = .ok (final, out)) :
    Flowing conv final :=
  run_guarded (Flowing conv) (fun _ _ _ _ hflowing hadmits hstep =>
    flowing_step hflowing hadmits hstep) (flowing_start conv) hfresh hrun

/-- A client hands to `handleRtp` the packets of the camera from some packet on, each of them once
and in their order, whatever the two networks do and whatever the other clients do. -/
theorem handed_in_order
    (hfresh : Guarded Pipeline.step Pipeline.Admits (Pipeline.start conv) moves)
    (hrun : run Pipeline.step (Pipeline.start conv) moves = .ok (final, out))
    (hviewer : final.viewers client = some viewer) :
    viewer.handed <+: final.captured.drop viewer.since := by
  have hflowing := flowing_run hfresh hrun
  obtain ⟨-, conv, hcarrying⟩ := hflowing.viewers client viewer hviewer
  obtain ⟨later, hlater⟩ := carrying_order hflowing.uplink
  refine (carrying_order hcarrying).trans ?_
  rw [← hlater]
  exact (List.prefix_append _ _).drop _

/-- Two packets of a camera. -/
def twoPackets : List Bytes :=
  (sendNalus ⟨1, 0, "udp", 0⟩ [(0, [0x67, 0x42]), (0, [0x65, 0x88])]).2

/-- One client watches from the beginning. The datagram with the first packet comes twice at both
sockets, and then the client gets the second. -/
def broadcast : List (Move Bool) :=
  [.join true 9, .uplink (.update .near 0)] ++ twoPackets.map Move.capture ++
    [.relay (.packet 0), .relay (.packet 0), .viewer true (.update .near 0),
      .viewer true (.update .near 10), .watch true (.packet 0), .watch true (.packet 0),
      .uplink (.update .far 0), .uplink (.input (.packet 0)), .uplink (.update .near 10),
      .relay (.packet 1), .join false 11]

theorem broadcast_fresh :
    Guarded Pipeline.step Pipeline.Admits (Pipeline.start 7) broadcast := by
  have hcheck (pipeline : Pipeline Bool) (move : Move Bool) :
      decide (pipeline.Admits move) = true → pipeline.Admits move := of_decide_eq_true
  exact guarded_of_check hcheck rfl

theorem broadcast_handed : ∃ final,
    run Pipeline.step (Pipeline.start 7) broadcast = .ok (final, []) ∧
      (final.viewers true).map (fun viewer => (viewer.handed, viewer.since)) =
        some (twoPackets.take 1, 0) :=
  ⟨_, rfl, by decide⟩

theorem handed_in_order_broadcast : ∃ final viewer,
    run Pipeline.step (Pipeline.start 7) broadcast = .ok (final, []) ∧
      final.viewers true = some viewer ∧ viewer.handed = twoPackets.take 1 ∧
      viewer.handed <+: final.captured.drop viewer.since := by
  obtain ⟨final, hrun, hviewer⟩ := broadcast_handed
  obtain ⟨viewer, hviewer, heq⟩ := Option.map_eq_some_iff.1 hviewer
  exact ⟨final, viewer, hrun, hviewer, (Prod.mk.inj heq).1,
    handed_in_order broadcast_fresh hrun hviewer⟩

/-- The packets that `rtp_send_h264` hands over. -/
def captures (moves : List (Move κ)) : List Bytes :=
  moves.filterMap fun move => match move with
    | .capture packet => some packet
    | _ => none

/-- A packet of the camera is neither empty nor too long for KCP. -/
def Fits (packet : Bytes) : Prop := packet ≠ [] ∧ packet.length ≤ 1500

theorem captured_step (hflowing : Flowing conv pipeline)
    (hfits : ∀ packet ∈ captures [move], Fits packet)
    (hstep : pipeline.step move = .ok (following, out)) :
    following.captured = pipeline.captured ++ captures [move] := by
  cases move with
  | capture packet =>
      cases hstep
      obtain ⟨hne, hshort⟩ := hfits packet (List.mem_singleton_self _)
      obtain ⟨taken, htaken, -, hwhole⟩ := carrying_send hflowing.uplink packet
      obtain rfl : taken = [packet] := by
        rcases hwhole with h | ⟨-, hlong⟩
        · exact h
        · omega
      have hempty : ¬ packet.length ≤ 0 := Nat.not_le.2 (List.length_pos_of_ne_nil hne)
      unfold Pipeline.capture sendRtpOverKcp
      simp only [if_neg hempty]
      rw [htaken]
      rfl
  | relay arrival =>
      cases hstep
      unfold Pipeline.relay
      simp only []
      split <;> exact (List.append_nil _).symm
  | uplink | join | leave | watch | viewer =>
      cases hstep
      exact (List.append_nil _).symm

theorem captured_run (hfits : ∀ packet ∈ captures moves, Fits packet)
    (hfresh : Guarded Pipeline.step Pipeline.Admits (Pipeline.start conv) moves)
    (hrun : run Pipeline.step (Pipeline.start conv) moves = .ok (final, out)) :
    final.captured = captures moves := by
  have hfrom (moves : List (Move κ)) (pipeline : Pipeline κ) (out : List Empty)
      (hflowing : Flowing conv pipeline) (hfits : ∀ packet ∈ captures moves, Fits packet)
      (hfresh : Guarded Pipeline.step Pipeline.Admits pipeline moves)
      (hrun : run Pipeline.step pipeline moves = .ok (final, out)) :
      final.captured = pipeline.captured ++ captures moves := by
    induction moves generalizing pipeline out with
    | nil =>
        cases hrun
        exact (List.append_nil _).symm
    | cons move rest ih =>
        have hsplit : captures (move :: rest) = captures [move] ++ captures rest :=
          @List.filterMap_append _ _ [move] rest _
        rw [hsplit] at hfits ⊢
        obtain ⟨hadmits, hrest⟩ := hfresh
        obtain ⟨following, first, later, hstep, hlater, -⟩ := run_cons_inv hrun
        have hfirst := captured_step hflowing
          (fun packet hmem => hfits packet (List.mem_append_left _ hmem)) hstep
        rw [ih following later (flowing_step hflowing hadmits hstep)
          (fun packet hmem => hfits packet (List.mem_append_right _ hmem))
          (hrest following first hstep) hlater, hfirst, List.append_assoc]
  exact hfrom moves _ out (flowing_start conv) hfits hfresh hrun

/-- The packets of NAL units fit. -/
theorem fits_sendNalus (session : RtspSession) (nalus : List (UInt32 × Bytes)) :
    ∀ packet ∈ (sendNalus session nalus).2, Fits packet := by
  induction nalus generalizing session with
  | nil => exact nofun
  | cons head rest ih =>
      obtain ⟨timestamp, nalu⟩ := head
      intro packet hpacket
      rw [sendNalus] at hpacket
      rcases List.mem_append.1 hpacket with hpacket | hpacket
      · rw [Camera.rtp_send_h264_eq] at hpacket
        obtain ⟨i, hi⟩ := List.mem_iff_getElem?.1 hpacket
        rw [Camera.getElem?_packetsFrom] at hi
        obtain ⟨part, hpart, rfl⟩ := Option.map_eq_some_iff.1 hi
        have hlength := Camera.length_payload_le (List.mem_of_getElem? hpart)
        have hmtu : Camera.MTU - 4 - Camera.RTP_HEADER_SIZE ≤ 1400 := by decide
        have hheader : Camera.RTP_HEADER_SIZE = 12 := rfl
        refine ⟨List.ne_nil_of_length_pos ?_, ?_⟩ <;> rw [Camera.length_packetOf] <;> omega
      · exact ih _ packet hpacket

/-- The frames of a client that has watched from the beginning make up the beginning of the stream
that the camera has sent, as far as its units are clear of the wrap of the sequence numbers. -/
theorem decoded_in_order {session : RtspSession} {nalus : List (UInt32 × Bytes)}
    (hsend : Sendable nalus) (hcaptures : captures moves <+: (sendNalus session nalus).2)
    (hfresh : Guarded Pipeline.step Pipeline.Admits (Pipeline.start conv) moves)
    (hrun : run Pipeline.step (Pipeline.start conv) moves = .ok (final, out))
    (hviewer : final.viewers client = some viewer) (hsince : viewer.since = 0)
    (streamName : QString) :
    ∃ reassembler frames,
      feed fresh (callsFor streamName viewer.handed) = .ok (reassembler, frames) ∧
        emitted frames <+: deliveredStream session.rtpSeq nalus := by
  have hfits : ∀ packet ∈ captures moves, Fits packet := fun packet hmem =>
    fits_sendNalus session nalus packet (hcaptures.subset hmem)
  have hhanded : viewer.handed <+: (sendNalus session nalus).2 := by
    obtain ⟨-, conv, hcarrying⟩ := (flowing_run hfresh hrun).viewers client viewer hviewer
    have hinitial := carrying_order hcarrying
    rw [hsince, List.drop_zero] at hinitial
    refine (hinitial.trans (carrying_order (flowing_run hfresh hrun).uplink)).trans ?_
    rw [captured_run hfits hfresh hrun]
    exact hcaptures
  obtain ⟨later, hlater⟩ := hhanded
  obtain ⟨last, all, hfeed, hall⟩ :=
    @feed_nalus streamName nalus hsend session fresh rfl (Or.inl rfl)
  rw [← hlater, callsFor_append] at hfeed
  obtain ⟨middle, first, second, hfirst, hsecond, heq⟩ := run_append_inv hfeed
  refine ⟨middle, first, hfirst, ?_⟩
  have hframe : fresh.frame = [] := rfl
  rw [hframe, List.nil_append] at hall
  rw [← hall, show all = first ++ second from heq, emitted_append, List.append_assoc]
  exact List.prefix_append _ _

end Runs

end CarDetect.Stream
