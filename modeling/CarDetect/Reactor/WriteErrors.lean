import CarDetect.Reactor.SendPath

/-!
# Hard write errors of a TCP connection

The events of one connection in `EventLoop::waitEpollFd`, with calls of `send` between them. An
`EPOLLIN` at the end of the stream runs the close callback and removes the connection from
`_tcpConns`; an `EPOLLOUT` runs `handleWriteCallback`, which runs the close callback when a write
fails and leaves the buffer and the write event as they are.

`contained_iff` says in which runs `send` does not throw, no byte that the socket has accepted is
written again, and the close callback runs at most once.
-/

namespace CarDetect.Reactor

open BigEndian

/-- The bytes of the stream that the socket took, by number. -/
def Write.Takes (write : Write) (place : Nat) : Prop :=
  write.place ≤ place ∧ place < write.place + write.taken

/-- The bytes of the stream that were written, by number. -/
def Write.Offers (write : Write) (place : Nat) : Prop :=
  write.place ≤ place ∧ place < write.place + write.data.length

/-- The connection, whether it is in `_tcpConns`, and how often its close callback has run.
`spoiled`: a write event has failed after the socket had accepted a part of the buffer. -/
structure Watched where
  conn : SendSide := {}
  registered : Bool := true
  closes : Nat := 0
  spoiled : Bool := false
deriving DecidableEq, Repr

/-- What happens to a connection: a call of `send`, `EPOLLIN` with what `isClosed` says, or
`EPOLLOUT`. -/
inductive LoopEvent where
  | send (msg : Bytes) (results : List WriteResult)
  | readable (closed : Bool)
  | writable (results : List WriteResult)
deriving DecidableEq, Repr

namespace Watched

/-- `handleMessage`, as far as it concerns the sending side. What the message callback sends are
calls of `send` of their own. -/
def handleMessage (watched : Watched) (closed : Bool) : Watched :=
  if watched.registered ∧ closed then
    { watched with
      conn := { watched.conn with writeArmed := false }
      registered := false
      closes := watched.closes + 1 }
  else watched

/-- `EPOLLOUT` in `waitEpollFd`. -/
def handleWritable (watched : Watched) (results : List WriteResult) :
    Except SendFault (Watched × List Write) :=
  if watched.registered then
    (watched.conn.handleWriteCallback results).map fun result =>
      if result.2.2 then
        ({ watched with
          conn := result.1
          closes := watched.closes + 1
          spoiled := watched.spoiled || decide (acceptedBytes result.2.1 ≠ []) }, result.2.1)
      else ({ watched with conn := result.1 }, result.2.1)
  else .ok (watched, [])

/-- `send`. The kernel does not arm an event of a descriptor that is no longer registered. -/
def send (watched : Watched) (msg : Bytes) (results : List WriteResult) :
    Except SendFault (Watched × List Write) :=
  (watched.conn.send msg results).map fun result =>
    ({ watched with
      conn := { result.1 with writeArmed := result.1.writeArmed && watched.registered } }, result.2)

/-- One event, with the calls of `write` that it leads to. -/
def serve (watched : Watched) : LoopEvent → Except SendFault (Watched × List Write)
  | .send msg results => watched.send msg results
  | .readable closed => .ok (watched.handleMessage closed, [])
  | .writable results => watched.handleWritable results

end Watched

/-- No byte that the socket has accepted is written again, and the close callback has run at most
once. -/
structure Contained (writes : List Write) (watched : Watched) : Prop where
  once : writes.Pairwise fun earlier later => ∀ place, earlier.Takes place → ¬ later.Offers place
  closes : watched.closes ≤ 1

/-- A write that `send` makes itself does not fail, a write event does not fail and the end of the
stream is not read once the close callback has run, and no write event writes when an earlier one
has failed after the socket had accepted a part of the buffer. -/
def Unharmed (watched : Watched) : LoopEvent → Prop
  | .send msg results => watched.conn.Idle → socketOutcome (writeLength msg) results ≠ .fails
  | .readable closed => watched.registered = true → closed = true → watched.closes = 0
  | .writable results =>
      let length := writeLength watched.conn.sendBuffer
      watched.registered = true → watched.conn.sendBuffer ≠ [] →
        socketOutcome length results = .waits ∨
          (watched.spoiled = true → length = 0) ∧
          (socketOutcome length results = .fails → watched.closes = 0)

/-- What has been accepted lies before the buffer, or, when a write event has spoiled it, the first
byte of the buffer has been accepted. -/
structure Accounted (writes : List Write) (watched : Watched) : Prop where
  fits : watched.conn.sendBuffer.length ≤ watched.conn.sent.length
  past : ∀ write ∈ writes, ∀ place, write.Takes place → place < watched.conn.sent.length
  fresh : watched.spoiled = false →
    ∀ write ∈ writes, ∀ place, write.Takes place → place < watched.conn.bufferPlace
  stale : watched.spoiled = true → watched.conn.sendBuffer ≠ [] ∧
    ∃ write ∈ writes, write.Takes watched.conn.bufferPlace

section Steps

variable {trace writes : List Write} {watched : Watched} {place taken : Nat} {data : Bytes}

/-- The calls of one `writen` write nothing again when nothing of `data` has been accepted. -/
theorem once_append
    (hbefore : trace.Pairwise fun earlier later =>
      ∀ place, earlier.Takes place → ¬ later.Offers place)
    (hwrites : Consecutive place data taken writes)
    (hfresh : ∀ write ∈ trace, ∀ byte, write.Takes byte →
      ¬ (place ≤ byte ∧ byte < place + data.length)) :
    (trace ++ writes).Pairwise fun earlier later =>
      ∀ place, earlier.Takes place → ¬ later.Offers place := by
  have hbounds := bounds_of_consecutive hwrites
  refine List.pairwise_append.2 ⟨hbefore, ?_, ?_⟩
  · refine (pairwise_of_consecutive hwrites).imp fun hle byte htakes hoffers => ?_
    obtain ⟨-, htakes⟩ := htakes
    obtain ⟨hoffers, -⟩ := hoffers
    omega
  · intro earlier hearlier later hlater byte htakes hoffers
    obtain ⟨hplace, hend, -⟩ := hbounds later hlater
    obtain ⟨hfirst, hlast⟩ := hoffers
    exact hfresh earlier hearlier byte htakes ⟨by omega, by omega⟩

/-- What one `writen` takes lies in its range. -/
theorem takes_of_consecutive (hwrites : Consecutive place data taken writes) :
    ∀ write ∈ writes, ∀ byte, write.Takes byte → byte < place + taken := by
  intro write hwrite byte htakes
  obtain ⟨-, -, hle⟩ := bounds_of_consecutive hwrites write hwrite
  exact lt_of_lt_of_le htakes.2 hle

/-! ## Where the accepted bytes lie -/

/-- `send` writes itself. -/
theorem Accounted.direct {next : SendSide} (h : Accounted trace watched)
    (hempty : watched.conn.sendBuffer = [])
    (hwrites : Consecutive watched.conn.sent.length data taken writes)
    (hroom : watched.conn.sent.length + taken + next.sendBuffer.length ≤ next.sent.length) :
    Accounted (trace ++ writes) { watched with conn := next } := by
  have hpast : ∀ write ∈ trace ++ writes, ∀ byte, write.Takes byte →
      byte < watched.conn.sent.length + taken := by
    intro write hwrite byte htakes
    rcases List.mem_append.1 hwrite with hwrite | hwrite
    · exact lt_of_lt_of_le (h.past write hwrite byte htakes) (Nat.le_add_right _ _)
    · exact takes_of_consecutive hwrites write hwrite byte htakes
  refine ⟨show next.sendBuffer.length ≤ next.sent.length by omega, ?_, ?_, ?_⟩
  · intro write hwrite byte htakes
    have hlt := hpast write hwrite byte htakes
    show byte < next.sent.length
    omega
  · intro _ write hwrite byte htakes
    have hlt := hpast write hwrite byte htakes
    show byte < next.sent.length - next.sendBuffer.length
    omega
  · intro hspoiled
    exact absurd hempty (h.stale hspoiled).1

/-- `send` appends to the buffer. -/
theorem Accounted.appended {next : SendSide} (h : Accounted trace watched) (msg : Bytes)
    (hbuffer : next.sendBuffer = watched.conn.sendBuffer ++ msg)
    (hsent : next.sent = watched.conn.sent ++ msg) :
    Accounted trace { watched with conn := next } := by
  have hplace : next.bufferPlace = watched.conn.bufferPlace := by
    rw [SendSide.bufferPlace, hbuffer, hsent, List.length_append, List.length_append,
      Nat.add_sub_add_right]
    rfl
  refine ⟨?_, ?_, ?_, ?_⟩
  · show next.sendBuffer.length ≤ next.sent.length
    rw [hbuffer, hsent, List.length_append, List.length_append]
    exact Nat.add_le_add_right h.fits _
  · intro write hwrite byte htakes
    have hlt := h.past write hwrite byte htakes
    show byte < next.sent.length
    rw [hsent, List.length_append]
    omega
  · intro hspoiled write hwrite byte htakes
    show byte < next.bufferPlace
    rw [hplace]
    exact h.fresh hspoiled write hwrite byte htakes
  · intro hspoiled
    obtain ⟨hne, hstale⟩ := h.stale hspoiled
    refine ⟨?_, ?_⟩
    · show next.sendBuffer ≠ []
      rw [hbuffer]
      exact List.append_ne_nil_of_left_ne_nil hne msg
    · show ∃ write ∈ trace, write.Takes next.bufferPlace
      rw [hplace]
      exact hstale

/-- `handleWriteCallback` writes a part of the buffer. -/
theorem Accounted.written (h : Accounted trace watched)
    (hwrites : Consecutive watched.conn.bufferPlace data taken writes)
    (hle : taken ≤ watched.conn.sendBuffer.length)
    (hspoiled : watched.spoiled = true → taken = 0) :
    Accounted (trace ++ writes) { watched with conn := watched.conn.written taken } := by
  have hfits := h.fits
  have hplace : (watched.conn.written taken).bufferPlace = watched.conn.bufferPlace + taken := by
    rw [SendSide.bufferPlace, SendSide.written_sent, SendSide.written_buffer, List.length_drop,
      SendSide.bufferPlace]
    omega
  have htakes := takes_of_consecutive hwrites
  refine ⟨?_, ?_, ?_, ?_⟩
  · show (watched.conn.written taken).sendBuffer.length ≤ (watched.conn.written taken).sent.length
    rw [SendSide.written_sent, SendSide.written_buffer, List.length_drop]
    omega
  · intro write hwrite byte hbyte
    show byte < (watched.conn.written taken).sent.length
    rw [SendSide.written_sent]
    rcases List.mem_append.1 hwrite with hwrite | hwrite
    · exact h.past write hwrite byte hbyte
    · have hlt := htakes write hwrite byte hbyte
      rw [SendSide.bufferPlace] at hlt
      omega
  · intro hclean write hwrite byte hbyte
    show byte < (watched.conn.written taken).bufferPlace
    rw [hplace]
    rcases List.mem_append.1 hwrite with hwrite | hwrite
    · exact lt_of_lt_of_le (h.fresh hclean write hwrite byte hbyte) (Nat.le_add_right _ _)
    · exact htakes write hwrite byte hbyte
  · intro hstale
    obtain ⟨hne, write, hwrite, hfirst⟩ := h.stale hstale
    cases hspoiled hstale
    refine ⟨?_, write, List.mem_append_left _ hwrite, ?_⟩
    · show (watched.conn.written 0).sendBuffer ≠ []
      rw [SendSide.written_buffer]
      exact hne
    · show write.Takes (watched.conn.written 0).bufferPlace
      rw [hplace]
      exact hfirst

/-- A write fails in `handleWriteCallback`. -/
theorem Accounted.failed {closes : Nat} (h : Accounted trace watched)
    (hbuffer : watched.conn.sendBuffer ≠ []) (hclean : watched.spoiled = false)
    (hwrites : Consecutive watched.conn.bufferPlace data taken writes)
    (hlt : taken < data.length) (hle : taken ≤ watched.conn.sendBuffer.length) :
    Accounted (trace ++ writes)
      { watched with
        closes := closes
        spoiled := watched.spoiled || decide (acceptedBytes writes ≠ []) } := by
  have hfits := h.fits
  have htakes := takes_of_consecutive hwrites
  have hspoiled : (watched.spoiled || decide (acceptedBytes writes ≠ [])) = decide (0 < taken) := by
    rw [hclean, Bool.false_or, accepted_of_consecutive hwrites, decide_eq_decide, ne_eq,
      ← List.length_eq_zero_iff, List.length_take]
    omega
  refine ⟨hfits, ?_, ?_, ?_⟩
  · intro write hwrite byte hbyte
    rcases List.mem_append.1 hwrite with hwrite | hwrite
    · exact h.past write hwrite byte hbyte
    · have hbound := htakes write hwrite byte hbyte
      rw [SendSide.bufferPlace] at hbound
      show byte < watched.conn.sent.length
      omega
  · intro hagain write hwrite byte hbyte
    have hnone : taken = 0 := by
      simp only [hspoiled, decide_eq_false_iff_not, not_lt, Nat.le_zero] at hagain
      exact hagain
    rcases List.mem_append.1 hwrite with hwrite | hwrite
    · exact h.fresh hclean write hwrite byte hbyte
    · have hbound := htakes write hwrite byte hbyte
      rwa [hnone, Nat.add_zero] at hbound
  · intro hstale
    simp only [hspoiled, decide_eq_true_eq] at hstale
    obtain ⟨write, hwrite, hplace, hpos⟩ := first_taken_of_consecutive hwrites hstale
    refine ⟨hbuffer, write, List.mem_append_right _ hwrite, ?_⟩
    show write.place ≤ watched.conn.bufferPlace ∧ _
    exact ⟨hplace.le, by show watched.conn.bufferPlace < _; omega⟩

/-- When bytes of the buffer have been accepted, writing it writes them again. -/
theorem not_once_append (h : Accounted trace watched) (hspoiled : watched.spoiled = true)
    (hwrites : Consecutive watched.conn.bufferPlace data taken writes) (hne : writes ≠ [])
    (hdata : 0 < data.length) :
    ¬ (trace ++ writes).Pairwise fun earlier later =>
      ∀ place, earlier.Takes place → ¬ later.Offers place := by
  intro honce
  obtain ⟨-, earlier, hearlier, htakes⟩ := h.stale hspoiled
  obtain ⟨later, hlater, hplace, heq⟩ := first_offered_of_consecutive hwrites hne
  refine (List.pairwise_append.1 honce).2.2 earlier hearlier later hlater _ htakes ⟨hplace.le, ?_⟩
  rw [hplace, heq]
  exact Nat.lt_add_of_pos_right hdata

/-! ## One event -/

variable {results : List WriteResult} {next : SendSide} {msg : Bytes}

theorem serve_send (h : watched.conn.send msg results = .ok (next, writes)) :
    watched.serve (.send msg results) =
      .ok ({ watched with
        conn := { next with writeArmed := next.writeArmed && watched.registered } }, writes) := by
  rw [Watched.serve, Watched.send, h]
  rfl

theorem serve_send_error {fault : SendFault} (h : watched.conn.send msg results = .error fault) :
    watched.serve (.send msg results) = .error fault := by
  rw [Watched.serve, Watched.send, h]
  rfl

theorem serve_writable (hregistered : watched.registered = true)
    (h : watched.conn.handleWriteCallback results = .ok (next, writes, false)) :
    watched.serve (.writable results) = .ok ({ watched with conn := next }, writes) := by
  rw [Watched.serve, Watched.handleWritable, if_pos hregistered, h]
  rfl

theorem serve_writable_failed (hregistered : watched.registered = true)
    (h : watched.conn.handleWriteCallback results = .ok (watched.conn, writes, true)) :
    watched.serve (.writable results) =
      .ok ({ watched with
        closes := watched.closes + 1
        spoiled := watched.spoiled || decide (acceptedBytes writes ≠ []) }, writes) := by
  rw [Watched.serve, Watched.handleWritable, if_pos hregistered, h]
  rfl

/-- Nothing is written again and the close callback has run at most once, with the account of the
accepted bytes on which this rests. -/
structure Sound (writes : List Write) (watched : Watched) : Prop where
  contained : Contained writes watched
  accounted : Accounted writes watched

/-- Between the two: nothing is written again and the close callback has run at most once, with or
without the account of the accepted bytes. -/
abbrev Between (good : List Write → Watched → Prop) : Prop := Machine.Between Sound Contained good

/-- The result of a step is good, or not an exception. -/
abbrev FineStep (good : List Write → Watched → Prop) (trace : List Write)
    (result : Except SendFault (Watched × List Write)) : Prop :=
  Machine.Fine good (· = .outOfRange) trace result

variable {good : List Write → Watched → Prop}

theorem fine_readable (hgood : Between good) (h : Sound trace watched) (closed : Bool) :
    FineStep good trace (watched.serve (.readable closed)) ↔
      Unharmed watched (.readable closed) := by
  show good (trace ++ []) (watched.handleMessage closed) ↔ _
  rw [List.append_nil]
  unfold Watched.handleMessage
  by_cases hcloses : watched.registered ∧ closed
  · rw [if_pos hcloses]
    constructor
    · intro hnext _ _
      have hle : watched.closes + 1 ≤ 1 := (hgood.high _ _ hnext).closes
      omega
    · intro hguard
      have hzero : watched.closes = 0 := hguard hcloses.1 hcloses.2
      have hle : watched.closes + 1 ≤ 1 := by omega
      obtain ⟨hfits, hpast, hfresh, hstale⟩ := h.accounted
      exact hgood.low _ _ ⟨⟨h.contained.once, hle⟩, ⟨hfits, hpast, hfresh, hstale⟩⟩
  · rw [if_neg hcloses]
    exact iff_of_true (hgood.low _ _ h) fun hregistered hclosed =>
      absurd ⟨hregistered, hclosed⟩ hcloses

/-- What `send` writes itself lies behind all that has been accepted. -/
theorem Sound.direct (h : Sound trace watched) (hempty : watched.conn.sendBuffer = [])
    (hwrites : Consecutive watched.conn.sent.length data taken writes)
    (hroom : watched.conn.sent.length + taken + next.sendBuffer.length ≤ next.sent.length) :
    Sound (trace ++ writes) { watched with conn := next } := by
  refine ⟨⟨once_append h.contained.once hwrites ?_, h.contained.closes⟩,
    h.accounted.direct hempty hwrites hroom⟩
  intro write hwrite byte htakes hrange
  have hlt := h.accounted.past write hwrite byte htakes
  omega

theorem fine_send (hgood : Between good) (h : Sound trace watched) (msg : Bytes)
    (results : List WriteResult) :
    FineStep good trace (watched.serve (.send msg results)) ↔
      Unharmed watched (.send msg results) := by
  by_cases hidle : watched.conn.Idle
  · have hle := write_length_le msg
    cases houtcome : socketOutcome (writeLength msg) results with
    | takesAll =>
        obtain ⟨writes, hwrites, hsend⟩ := SendSide.send_takes_all hidle houtcome
        rw [serve_send hsend]
        refine iff_of_true (hgood.low _ _ (h.direct hidle.1 hwrites ?_)) fun _ hfails => ?_
        · show watched.conn.sent.length + writeLength msg + watched.conn.sendBuffer.length ≤ _
          rw [hidle.1, List.length_nil, List.length_append]
          omega
        · rw [houtcome] at hfails
          cases hfails
    | blocks =>
        obtain ⟨taken, writes, hlt, hwrites, hsend⟩ := SendSide.send_blocks hidle houtcome
        rw [serve_send hsend]
        refine iff_of_true (hgood.low _ _ (h.direct hidle.1 hwrites ?_)) fun _ hfails => ?_
        · show _ + (msg.drop taken).length ≤ (watched.conn.sent ++ msg).length
          rw [List.length_drop, List.length_append]
          omega
        · rw [houtcome] at hfails
          cases hfails
    | fails =>
        rw [serve_send_error (SendSide.send_fails hidle houtcome)]
        exact iff_of_false (fun hfine => hfine rfl) fun hguard => hguard hidle houtcome
    | waits =>
        rw [serve_send_error (SendSide.send_waits hidle houtcome)]
        refine iff_of_true nofun fun _ hfails => ?_
        rw [houtcome] at hfails
        cases hfails
  · rw [serve_send (SendSide.send_busy hidle)]
    refine iff_of_true ?_ fun hagain => absurd hagain hidle
    show good (trace ++ []) _
    rw [List.append_nil]
    exact hgood.low _ _
      ⟨⟨h.contained.once, h.contained.closes⟩, h.accounted.appended msg rfl rfl⟩

/-- Nothing that `handleWriteCallback` writes has been accepted, when no write event has spoiled the
buffer or nothing is written. -/
theorem Sound.once (h : Sound trace watched)
    (hguard : watched.spoiled = true → data.length = 0)
    (hwrites : Consecutive watched.conn.bufferPlace data taken writes) :
    (trace ++ writes).Pairwise fun earlier later =>
      ∀ place, earlier.Takes place → ¬ later.Offers place := by
  refine once_append h.contained.once hwrites fun write hwrite byte htakes hrange => ?_
  cases hspoiled : watched.spoiled with
  | false =>
      have hlt := h.accounted.fresh hspoiled write hwrite byte htakes
      omega
  | true =>
      have hzero := hguard hspoiled
      omega

/-- A write event in which no write fails. -/
theorem good_written_iff (hgood : Between good) (h : Sound trace watched)
    (hle : taken ≤ writeLength watched.conn.sendBuffer)
    (hne : 0 < writeLength watched.conn.sendBuffer → writes ≠ [])
    (hwrites : Consecutive watched.conn.bufferPlace
      (watched.conn.sendBuffer.take (writeLength watched.conn.sendBuffer)) taken writes) :
    good (trace ++ writes) { watched with conn := watched.conn.written taken } ↔
      (watched.spoiled = true → writeLength watched.conn.sendBuffer = 0) := by
  have hlength := length_take_write_length watched.conn.sendBuffer
  constructor
  · intro hnext hspoiled
    by_contra hzero
    have hpos := Nat.pos_of_ne_zero hzero
    exact not_once_append h.accounted hspoiled hwrites (hne hpos) (by omega)
      (hgood.high _ _ hnext).once
  · intro hguard
    refine hgood.low _ _
      ⟨⟨h.once ?_ hwrites, h.contained.closes⟩, h.accounted.written hwrites ?_ ?_⟩
    · intro hspoiled
      rw [hlength, hguard hspoiled]
    · exact hle.trans (write_length_le _)
    · intro hspoiled
      have hzero := hguard hspoiled
      omega

/-- A write event in which a write fails. -/
theorem good_failed_iff (hgood : Between good) (h : Sound trace watched)
    (hbuffer : watched.conn.sendBuffer ≠ [])
    (hlt : taken < writeLength watched.conn.sendBuffer) (hne : writes ≠ [])
    (hwrites : Consecutive watched.conn.bufferPlace
      (watched.conn.sendBuffer.take (writeLength watched.conn.sendBuffer)) taken writes) :
    good (trace ++ writes)
        { watched with
          closes := watched.closes + 1
          spoiled := watched.spoiled || decide (acceptedBytes writes ≠ []) } ↔
      (watched.spoiled = true → writeLength watched.conn.sendBuffer = 0) ∧ watched.closes = 0 := by
  have hlength := length_take_write_length watched.conn.sendBuffer
  have hle := write_length_le watched.conn.sendBuffer
  constructor
  · intro hnext
    have hcloses : watched.closes + 1 ≤ 1 := (hgood.high _ _ hnext).closes
    refine ⟨fun hspoiled => ?_, by omega⟩
    exact absurd (hgood.high _ _ hnext).once
      (not_once_append h.accounted hspoiled hwrites hne (by omega))
  · rintro ⟨hguard, hzero⟩
    have hclean : watched.spoiled = false := by
      rw [← Bool.not_eq_true]
      intro hspoiled
      have hnothing := hguard hspoiled
      omega
    have hcloses : watched.closes + 1 ≤ 1 := by omega
    refine hgood.low _ _ ⟨⟨h.once ?_ hwrites, hcloses⟩,
      h.accounted.failed hbuffer hclean hwrites (by omega) (by omega)⟩
    intro hspoiled
    rw [hlength, hguard hspoiled]

theorem fine_writable (hgood : Between good) (h : Sound trace watched)
    (results : List WriteResult) :
    FineStep good trace (watched.serve (.writable results)) ↔
      Unharmed watched (.writable results) := by
  by_cases hregistered : watched.registered = true
  · by_cases hbuffer : watched.conn.sendBuffer = []
    · rw [serve_writable hregistered (SendSide.callback_empty hbuffer)]
      have hnothing : Consecutive watched.conn.sent.length [] 0 [] := .nil
      refine iff_of_true (hgood.low _ _ (h.direct hbuffer hnothing ?_)) fun _ hagain =>
        absurd hbuffer hagain
      show watched.conn.sent.length + 0 + watched.conn.sendBuffer.length ≤ _
      rw [hbuffer]
      exact Nat.le_refl _
    · simp only [Unharmed, hregistered, hbuffer, true_implies, not_false_eq_true, ne_eq]
      cases houtcome : socketOutcome (writeLength watched.conn.sendBuffer) results with
      | takesAll =>
          obtain ⟨writes, hwrites, hcallback⟩ := SendSide.callback_takes_all hbuffer houtcome
          rw [serve_writable hregistered hcallback]
          simp only [reduceCtorEq, false_or, false_implies, and_true]
          refine good_written_iff hgood h le_rfl (fun hpos hnil => ?_) hwrites
          obtain ⟨write, hwrite, -, -⟩ := first_taken_of_consecutive hwrites hpos
          rw [hnil] at hwrite
          cases hwrite
      | blocks =>
          obtain ⟨taken, writes, hlt, hne, hwrites, hcallback⟩ :=
            SendSide.callback_blocks hbuffer houtcome
          rw [serve_writable hregistered hcallback]
          simp only [reduceCtorEq, false_or, false_implies, and_true]
          exact good_written_iff hgood h hlt.le (fun _ => hne) hwrites
      | fails =>
          obtain ⟨taken, writes, hlt, hne, hwrites, hcallback⟩ :=
            SendSide.callback_fails hbuffer houtcome
          rw [serve_writable_failed hregistered hcallback]
          simp only [reduceCtorEq, false_or, true_implies]
          exact good_failed_iff hgood h hbuffer hlt hne hwrites
      | waits =>
          rw [Watched.serve, Watched.handleWritable, if_pos hregistered,
            SendSide.callback_waits hbuffer houtcome]
          exact iff_of_true nofun (.inl rfl)
  · rw [Watched.serve, Watched.handleWritable, if_neg hregistered]
    refine iff_of_true ?_ fun hagain => absurd hagain hregistered
    show good (trace ++ []) watched
    rw [List.append_nil]
    exact hgood.low _ _ h

theorem fine_event (hgood : Between good) (h : Sound trace watched) (event : LoopEvent) :
    FineStep good trace (watched.serve event) ↔ Unharmed watched event := by
  cases event with
  | send msg results => exact fine_send hgood h msg results
  | readable closed => exact fine_readable hgood h closed
  | writable results => exact fine_writable hgood h results

end Steps

/-- A run is contained, at every prefix of its events, exactly when no event harms it. -/
theorem contained_iff (events : List LoopEvent) :
    Machine.Guarded Watched.serve Unharmed {} events ↔
      ∀ past, past <+: events →
        Machine.run Watched.serve {} past ≠ .error .outOfRange ∧
          ∀ watched writes, Machine.run Watched.serve {} past = .ok (watched, writes) →
            Contained writes watched := by
  have hstart : Sound [] {} :=
    ⟨⟨.nil, Nat.zero_le 1⟩, ⟨le_rfl, nofun, fun _ => nofun, nofun⟩⟩
  rw [Machine.guarded_iff_between (fun _ => True) (fun _ _ h => h.contained)
    (fun _ hgood _ _ event h _ => fine_event hgood h event) (fun _ _ => trivial) hstart]
  refine forall₂_congr fun past _ => ?_
  cases hrun : Machine.run Watched.serve {} past with
  | error fault =>
      simp only [Machine.Fine, ne_eq, Except.error.injEq, reduceCtorEq, false_implies,
        implies_true, and_true]
  | ok result =>
      obtain ⟨watched, writes⟩ := result
      simp only [Machine.Fine, List.nil_append, ne_eq, reduceCtorEq, not_false_eq_true, true_and,
        Except.ok.injEq, Prod.mk.injEq, and_imp]
      constructor
      · rintro hcontained other others rfl rfl
        exact hcontained
      · intro h
        exact h watched writes rfl rfl

/-- A write that fails after one byte of the message has been accepted, and a write event that fails
twice after the first byte of the buffer has been accepted. -/
theorem write_error_spreads : ¬ ∀ events : List LoopEvent,
    Machine.run Watched.serve {} events ≠ .error .outOfRange ∧
      ∀ watched writes, Machine.run Watched.serve {} events = .ok (watched, writes) →
        Contained writes watched := by
  intro hclaim
  exact (hclaim [.send [1, 2] [.accepted 1, .failed]]).1 rfl

example : Machine.run Watched.serve {}
    [.send [1, 2] [.wouldBlock], .writable [.accepted 1, .failed],
      .writable [.accepted 1, .failed]] =
      .ok (⟨⟨[1, 2], true, true, [1, 2]⟩, true, 2, true⟩,
        [⟨0, [1, 2], 0⟩, ⟨0, [1, 2], 1⟩, ⟨1, [2], 0⟩, ⟨0, [1, 2], 1⟩, ⟨1, [2], 0⟩]) := rfl

end CarDetect.Reactor
