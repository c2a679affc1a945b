import CarDetect.Lib.BigEndian
import CarDetect.Lib.ServiceQueue

/-!
# The media server's KCP relay

`messageCallback` follows the UDP message callback that `RtspConnect::handleRecord` installs: for
each datagram one `ikcp_input` and one `ikcp_recv`, whose result goes to `onNaluUdp`. Of KCP only
the queue of complete messages is modelled: a datagram is given by the messages it makes
available. `handleKcpRecv` is the Qt client's loop over the same queue. `relays_promptly_iff` says
for which runs the callback never leaves a message behind.
-/

namespace CarDetect.Media

open BigEndian ServiceQueue

/-- The messages that the `ikcp_input` of one datagram makes available. -/
abbrev Datagram := List Bytes

/-- `ikcp_input` on the receive queue. -/
def ikcpInput (queue : List Bytes) (datagram : Datagram) : List Bytes :=
  queue ++ datagram

/-- `ikcp_recv` with a buffer of `len` bytes: the code returned, the bytes written, and the queue
left. A message that does not fit stays. -/
def ikcpRecv (queue : List Bytes) (len : Nat) : Int × Bytes × List Bytes :=
  match queue with
  | [] => (-1, [], [])
  | message :: rest =>
      if message.length > len then (-3, [], message :: rest)
      else (message.length, message, rest)

/-- `sizeof(kcp_buffer)` in the callback. -/
def kcpBufferSize : Nat := 1500

/-- One turn of the callback's loop: the queue left and the payloads handed to `onNaluUdp`. -/
def relayDatagram (queue : List Bytes) (datagram : Datagram) : List Bytes × List Bytes :=
  let (rtpLen, kcpBuffer, queue) := ikcpRecv (ikcpInput queue datagram) kcpBufferSize
  if rtpLen > 0 then (queue, [kcpBuffer]) else (queue, [])

/-- The message callback, on the datagrams it receives before `recv` returns no more. -/
def messageCallback (queue : List Bytes) : List Datagram → List Bytes × List Bytes
  | [] => (queue, [])
  | datagram :: rest =>
      let (queue, first) := relayDatagram queue datagram
      let (queue, later) := messageCallback queue rest
      (queue, first ++ later)

/-- Successive invocations of the callback. -/
def runCallbacks (queue : List Bytes) : List (List Datagram) → List Bytes × List Bytes
  | [] => (queue, [])
  | datagrams :: rest =>
      let (queue, first) := messageCallback queue datagrams
      let (queue, later) := runCallbacks queue rest
      (queue, first ++ later)

/-! ## One turn -/

/-- A message that `ikcp_recv` can return and the callback passes on. -/
def Relayable (message : Bytes) : Prop :=
  0 < message.length ∧ message.length ≤ kcpBufferSize

instance (message : Bytes) : Decidable (Relayable message) :=
  inferInstanceAs (Decidable (_ ∧ _))

/-- Whatever is handed on is relayable. -/
theorem relayed_relayable {queue : List Bytes} {datagram : Datagram} {payload : Bytes}
    (h : payload ∈ (relayDatagram queue datagram).2) : Relayable payload := by
  unfold relayDatagram at h
  cases hqueue : ikcpInput queue datagram with
  | nil => simp [hqueue, ikcpRecv] at h
  | cons message rest =>
      rw [hqueue] at h
      simp only [ikcpRecv] at h
      split at h
      · simp at h
      · split at h
        · rename_i hfits hpos
          cases List.mem_singleton.1 h
          exact ⟨by simpa using hpos, by simpa using hfits⟩
        · cases h

/-- One turn serves the oldest message when there is one. -/
theorem relay_datagram_spec (queue : List Bytes) (datagram : Datagram)
    (h : ∀ message ∈ queue ++ datagram, Relayable message) :
    (relayDatagram queue datagram).2 ++ (relayDatagram queue datagram).1 = queue ++ datagram ∧
      (relayDatagram queue datagram).1.length = queue.length + datagram.length - 1 := by
  unfold relayDatagram ikcpInput
  rw [← List.length_append]
  cases hqueue : queue ++ datagram with
  | nil => simp [ikcpRecv]
  | cons message rest =>
      obtain ⟨hpos, hfits⟩ := h message (hqueue ▸ List.mem_cons_self)
      have hlarge : ¬ message.length > kcpBufferSize := by omega
      simp [ikcpRecv, hlarge, hpos]

/-! ## One invocation -/

theorem callback_relayable (queue : List Bytes) (datagrams : List Datagram) {payload : Bytes}
    (h : payload ∈ (messageCallback queue datagrams).2) : Relayable payload := by
  induction datagrams generalizing queue with
  | nil => cases h
  | cons datagram rest ih =>
      rcases List.mem_append.1 h with h | h
      · exact relayed_relayable h
      · exact ih _ h

/-- An invocation keeps the order of the messages, and serves one message for each datagram. -/
theorem callback_spec (queue : List Bytes) {datagrams : List Datagram}
    (h : ∀ message ∈ queue ++ datagrams.flatten, Relayable message) :
    (messageCallback queue datagrams).2 ++ (messageCallback queue datagrams).1 =
        queue ++ datagrams.flatten ∧
      (messageCallback queue datagrams).1.length =
        backlog List.length queue.length datagrams := by
  induction datagrams generalizing queue with
  | nil => simp [messageCallback, backlog]
  | cons datagram rest ih =>
      rw [List.flatten_cons, ← List.append_assoc] at h
      obtain ⟨horder, hlength⟩ := relay_datagram_spec queue datagram
        fun message hmem => h message (List.mem_append_left _ hmem)
      have hrest : ∀ message ∈ (relayDatagram queue datagram).1 ++ rest.flatten,
          Relayable message := by
        intro message hmem
        refine h message ?_
        rw [← horder, List.append_assoc]
        exact List.mem_append_right _ hmem
      obtain ⟨horderRest, hlengthRest⟩ := ih _ hrest
      refine ⟨?_, ?_⟩
      · simp only [messageCallback, List.flatten_cons, List.append_assoc, horderRest]
        rw [← List.append_assoc, horder, List.append_assoc]
      · simp only [messageCallback, hlengthRest, hlength, backlog]

/-- Service keeps up with the datagrams of one invocation: every message is relayable, and no
suffix of the datagrams makes more messages available than it has datagrams. -/
def Steady (datagrams : List Datagram) : Prop :=
  (∀ message ∈ datagrams.flatten, Relayable message) ∧
    ∀ suffix, suffix <:+ datagrams → total List.length suffix ≤ suffix.length

/-- An invocation on an empty queue passes on all messages exactly when service keeps up. -/
theorem callback_drains_iff (datagrams : List Datagram) :
    messageCallback [] datagrams = ([], datagrams.flatten) ↔ Steady datagrams := by
  constructor
  · intro h
    have hrelayable : ∀ message ∈ datagrams.flatten, Relayable message := by
      intro message hmem
      refine callback_relayable [] datagrams ?_
      rw [h]
      exact hmem
    obtain ⟨-, hlength⟩ := callback_spec [] (by simpa using hrelayable)
    rw [h] at hlength
    exact ⟨hrelayable, ((backlog_eq_zero_iff _ _ _).1 hlength.symm).2⟩
  · rintro ⟨hrelayable, hsuffix⟩
    obtain ⟨horder, hlength⟩ := callback_spec [] (by simpa using hrelayable)
    have hempty : (messageCallback [] datagrams).1 = [] := by
      refine List.eq_nil_of_length_eq_zero (hlength.trans ((backlog_eq_zero_iff _ _ _).2 ?_))
      exact ⟨by simpa using hsuffix datagrams (List.suffix_refl _), hsuffix⟩
    rw [hempty, List.append_nil, List.nil_append] at horder
    exact Prod.ext hempty horder

/-! ## Every run -/

/-- Whenever the callback returns, no message is left in the queue, and the payloads handed on so
far are the messages made available, in order. -/
def RelaysPromptly (callbacks : List (List Datagram)) : Prop :=
  ∀ done, done <+: callbacks → runCallbacks [] done = ([], done.flatten.flatten)

/-- After an invocation that drains the queue the run goes on as from its beginning. -/
theorem run_callbacks_cons {datagrams : List Datagram} (rest : List (List Datagram))
    (h : messageCallback [] datagrams = ([], datagrams.flatten)) :
    runCallbacks [] (datagrams :: rest) =
      ((runCallbacks [] rest).1, datagrams.flatten ++ (runCallbacks [] rest).2) := by
  simp [runCallbacks, h]

/-- The callback relays promptly in exactly the runs in which service keeps up within every
invocation. -/
theorem relays_promptly_iff (callbacks : List (List Datagram)) :
    RelaysPromptly callbacks ↔ ∀ datagrams ∈ callbacks, Steady datagrams := by
  induction callbacks with
  | nil =>
      simp only [RelaysPromptly, List.prefix_nil]
      simp [runCallbacks]
  | cons datagrams rest ih =>
      rw [List.forall_mem_cons, ← ih, ← callback_drains_iff]
      constructor
      · intro h
        have hfirst : messageCallback [] datagrams = ([], datagrams.flatten) := by
          simpa [runCallbacks] using h [datagrams] ⟨rest, rfl⟩
        refine ⟨hfirst, fun done hdone => ?_⟩
        have hall := h (datagrams :: done) (List.cons_prefix_cons.2 ⟨rfl, hdone⟩)
        rw [run_callbacks_cons done hfirst] at hall
        simp only [List.flatten_cons, List.flatten_append, Prod.mk.injEq,
          List.append_cancel_left_eq] at hall
        exact Prod.ext hall.1 hall.2
      · rintro ⟨hfirst, hrest⟩ done hdone
        rcases List.prefix_cons_iff.1 hdone with rfl | ⟨tail, rfl, htail⟩
        · rfl
        · rw [run_callbacks_cons tail hfirst, hrest tail htail]
          simp

/-- One datagram that makes two messages available leaves the second in the queue. -/
theorem relays_promptly_fails_two_messages : ¬ RelaysPromptly [[[[1], [2]]]] := by
  intro h
  have hleft := h [[[[1], [2]]]] (List.prefix_refl _)
  exact absurd hleft (by decide)

/-! ## The Qt client's loop -/

theorem ikcp_recv_shrinks {queue : List Bytes} {len : Nat} (h : (ikcpRecv queue len).1 > 0) :
    (ikcpRecv queue len).2.2.length < queue.length := by
  cases queue with
  | nil => simp [ikcpRecv] at h
  | cons message rest =>
      by_cases hlarge : message.length > len
      · simp [ikcpRecv, hlarge] at h
      · simp [ikcpRecv, hlarge]

/-- `KcpHandler::handleKcpRecv`: receive until `ikcp_recv` has nothing more. -/
def handleKcpRecv (queue : List Bytes) : List Bytes × List Bytes :=
  if _h : (ikcpRecv queue 4096).1 > 0 then
    let (queue', later) := handleKcpRecv (ikcpRecv queue 4096).2.2
    (queue', (ikcpRecv queue 4096).2.1 :: later)
  else ((ikcpRecv queue 4096).2.2, [])
termination_by queue.length
decreasing_by exact ikcp_recv_shrinks _h

/-- The client's loop empties the queue, in order. -/
theorem handle_kcp_recv_drains {queue : List Bytes}
    (h : ∀ message ∈ queue, 0 < message.length ∧ message.length ≤ 4096) :
    handleKcpRecv queue = ([], queue) := by
  induction queue with
  | nil => simp [handleKcpRecv, ikcpRecv]
  | cons message rest ih =>
      obtain ⟨⟨hpos, hfits⟩, hrest⟩ := List.forall_mem_cons.1 h
      have hlarge : ¬ message.length > 4096 := by omega
      have hne : message ≠ [] := List.ne_nil_of_length_pos hpos
      rw [handleKcpRecv]
      simp [ikcpRecv, hlarge, hne, ih hrest]

end CarDetect.Media
