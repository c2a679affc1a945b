import CarDetect.Lib.BigEndian
import CarDetect.Lib.Machine

/-!
# The sending side of a TCP connection

`send`, `handleWriteCallback` and `writen` follow the functions of `TcpConnection` and `SocketIO`.
What the socket answers to successive calls of `write` is a list of results. The bytes that have
been passed to `send` are numbered from 0, and a call of `write` is recorded with the number of the
first byte that it offers. Sizes are converted to `int` where the code does so. The callbacks of the
connection are set, and memory does not run out.

`faithful_iff` says in which runs the bytes that the socket has accepted, followed by the send
buffer, are the bytes passed to `send`, and the write event is armed exactly while bytes are left.
-/

namespace CarDetect.Reactor

open BigEndian

/-- What the socket answers to a call of `write`: a number of bytes, of which it takes no more than
it is offered, or the error `EINTR`, `EAGAIN` or another one. -/
inductive WriteResult where
  | accepted (count : Nat)
  | interrupted
  | wouldBlock
  | failed
deriving DecidableEq, Repr

/-- A call of `write`: the number of the first byte in the stream, the bytes offered, and how many
of them the socket took. -/
structure Write where
  place : Nat
  data : Bytes
  taken : Nat
deriving DecidableEq, Repr

/-- How a call of `send` or `handleWriteCallback` goes wrong: `substr` throws, or `writen` has not
returned. -/
inductive SendFault where
  | outOfRange
  | pending
deriving DecidableEq, Repr

/-- A `size_t` converted to `int`. -/
def sizeToInt (size : Nat) : Int := (size : Int).bmod (2 ^ 32)

/-- The loop of `writen`: `data` are the bytes left of `len`. -/
def writenLoop (len : Nat) : Nat → Bytes → List WriteResult → Option (Int × List Write)
  | _, [], _ => some (len, [])
  | _, _ :: _, [] => none
  | place, byte :: bytes, result :: results =>
      let data := byte :: bytes
      match result with
      | .interrupted =>
          (writenLoop len place data results).map fun (written, writes) =>
            (written, ⟨place, data, 0⟩ :: writes)
      | .wouldBlock | .accepted 0 => some (len - data.length, [⟨place, data, 0⟩])
      | .failed => some (-1, [⟨place, data, 0⟩])
      | .accepted (count + 1) =>
          let ret := min (count + 1) data.length
          (writenLoop len (place + ret) (data.drop ret) results).map fun (written, writes) =>
            (written, ⟨place, data, ret⟩ :: writes)

/-- `writen(buf, len)`: the value returned and the calls of `write`. -/
def writen (place : Nat) (buf : Bytes) (len : Int) (results : List WriteResult) :
    Option (Int × List Write) :=
  writenLoop len.toNat place (buf.take len.toNat) results

/-- `msg.substr(pos)`. A negative `int` becomes a `size_t` above every size. -/
def substr (msg : Bytes) (pos : Int) : Except SendFault Bytes :=
  if 0 ≤ pos ∧ pos ≤ msg.length then .ok (msg.drop pos.toNat) else .error .outOfRange

/-- `_sendBuffer` and `_isWriting`, whether the event loop watches for `EPOLLOUT`, and all bytes
that have been passed to `send`. -/
structure SendSide where
  sendBuffer : Bytes := []
  isWriting : Bool := false
  writeArmed : Bool := false
  sent : Bytes := []
deriving DecidableEq, Repr

namespace SendSide

/-- `addEpollWriteFd` -/
def addEpollWriteFd (conn : SendSide) : SendSide := { conn with writeArmed := true }

/-- `delEpollWriteFd` -/
def delEpollWriteFd (conn : SendSide) : SendSide := { conn with writeArmed := false }

/-- The number of the first byte of the buffer. -/
def bufferPlace (conn : SendSide) : Nat := conn.sent.length - conn.sendBuffer.length

/-- Nothing is buffered and no write event awaited: `send` writes itself. -/
def Idle (conn : SendSide) : Prop := conn.sendBuffer = [] ∧ conn.isWriting = false

instance (conn : SendSide) : Decidable conn.Idle := inferInstanceAs (Decidable (_ ∧ _))

/-- `send` -/
def send (conn : SendSide) (msg : Bytes) (results : List WriteResult) :
    Except SendFault (SendSide × List Write) :=
  let next := { conn with sent := conn.sent ++ msg }
  if conn.Idle then
    match writen conn.sent.length msg (sizeToInt msg.length) results with
    | none => .error .pending
    | some (written, writes) =>
        if written < sizeToInt msg.length then
          match substr msg written with
          | .error fault => .error fault
          | .ok rest =>
              .ok (addEpollWriteFd { next with sendBuffer := rest, isWriting := true }, writes)
        else .ok (next, writes)
  else
    let next := { next with sendBuffer := conn.sendBuffer ++ msg }
    if conn.isWriting then .ok (next, [])
    else .ok (addEpollWriteFd { next with isWriting := true }, [])

/-- `handleWriteCallback`; the last component says whether it calls `handleCloseCallback`. -/
def handleWriteCallback (conn : SendSide) (results : List WriteResult) :
    Except SendFault (SendSide × List Write × Bool) :=
  if conn.sendBuffer = [] then .ok (delEpollWriteFd { conn with isWriting := false }, [], false)
  else
    match writen conn.bufferPlace conn.sendBuffer (sizeToInt conn.sendBuffer.length) results with
    | none => .error .pending
    | some (written, writes) =>
        if written < 0 then .ok (conn, writes, true)
        else
          let next := { conn with sendBuffer := conn.sendBuffer.drop written.toNat }
          if next.sendBuffer = [] then
            .ok (delEpollWriteFd { next with isWriting := false }, writes, false)
          else .ok (next, writes, false)

end SendSide

/-- A call on the connection, with what the socket answers in its course. -/
inductive SendCall where
  | send (msg : Bytes) (results : List WriteResult)
  | handleWriteCallback (results : List WriteResult)
deriving DecidableEq, Repr

/-- The bytes passed to `send`. -/
def SendCall.message : SendCall → Bytes
  | .send msg _ => msg
  | .handleWriteCallback _ => []

/-- What the socket answers. -/
def SendCall.results : SendCall → List WriteResult
  | .send _ results => results
  | .handleWriteCallback results => results

/-- One call, with the calls of `write` that it makes. -/
def transmit (conn : SendSide) : SendCall → Except SendFault (SendSide × List Write)
  | .send msg results => conn.send msg results
  | .handleWriteCallback results =>
      (conn.handleWriteCallback results).map fun result => (result.1, result.2.1)

/-- The bytes that the socket has accepted. -/
def acceptedBytes (writes : List Write) : Bytes :=
  writes.flatMap fun write => write.data.take write.taken

/-- What comes of offering bytes to the socket until it has taken them or does not take more. -/
inductive SocketOutcome where
  | takesAll
  | blocks
  | fails
  | waits
deriving DecidableEq, Repr

/-- How the socket meets an offer of this many bytes. -/
def socketOutcome : Nat → List WriteResult → SocketOutcome
  | 0, _ => .takesAll
  | _ + 1, [] => .waits
  | left + 1, result :: results =>
      match result with
      | .interrupted => socketOutcome (left + 1) results
      | .wouldBlock | .accepted 0 => .blocks
      | .failed => .fails
      | .accepted (count + 1) => socketOutcome (left - count) results

/-! ## The loop of `writen` -/

/-- Calls of `write` one behind another that begin with all of `data`, and the number of bytes that
they have taken. -/
inductive Consecutive : Nat → Bytes → Nat → List Write → Prop where
  | nil {place : Nat} {data : Bytes} : Consecutive place data 0 []
  | cons {place taken later : Nat} {data : Bytes} {writes : List Write}
      (hle : taken ≤ data.length)
      (hlater : Consecutive (place + taken) (data.drop taken) later writes) :
      Consecutive place data (taken + later) (⟨place, data, taken⟩ :: writes)

/-- How the loop of `writen` ends on `data`, by the outcome on the socket. -/
inductive WritenEnd (len place : Nat) (data : Bytes) :
    SocketOutcome → Option (Int × List Write) → Prop where
  | waits : WritenEnd len place data .waits none
  | takesAll {writes : List Write} (hwrites : Consecutive place data data.length writes) :
      WritenEnd len place data .takesAll (some (len, writes))
  | blocks {taken : Nat} {writes : List Write} (hlt : taken < data.length) (hne : writes ≠ [])
      (hwrites : Consecutive place data taken writes) :
      WritenEnd len place data .blocks (some (len - data.length + taken, writes))
  | fails {taken : Nat} {writes : List Write} (hlt : taken < data.length) (hne : writes ≠ [])
      (hwrites : Consecutive place data taken writes) :
      WritenEnd len place data .fails (some (-1, writes))

section Loop

variable {place taken len : Nat} {data : Bytes} {writes : List Write}

/-- A call of `write` that takes nothing. -/
theorem consecutive_nothing : Consecutive place data 0 [⟨place, data, 0⟩] :=
  .cons (Nat.zero_le _) .nil

theorem accepted_of_consecutive (h : Consecutive place data taken writes) :
    acceptedBytes writes = data.take taken := by
  induction h with
  | nil => rfl
  | cons hle hlater ih =>
      rw [acceptedBytes, List.flatMap_cons, ← acceptedBytes, ih, List.take_add]

/-- Each call offers the bytes from its place to the end, and takes some that come before the place
where the last call stops. -/
theorem bounds_of_consecutive (h : Consecutive place data taken writes) :
    ∀ write ∈ writes, place ≤ write.place ∧
      write.place + write.data.length = place + data.length ∧
      write.place + write.taken ≤ place + taken := by
  induction h with
  | nil => exact nofun
  | cons hle hlater ih =>
      refine List.forall_mem_cons.2 ⟨⟨le_rfl, rfl, by simp⟩, fun write hwrite => ?_⟩
      obtain ⟨hplace, hend, htaken⟩ := ih write hwrite
      rw [List.length_drop] at hend
      exact ⟨by omega, by omega, by omega⟩

/-- A call begins where the calls before it have stopped, or behind. -/
theorem pairwise_of_consecutive (h : Consecutive place data taken writes) :
    writes.Pairwise fun earlier later => earlier.place + earlier.taken ≤ later.place := by
  induction h with
  | nil => exact .nil
  | cons hle hlater ih =>
      exact .cons (fun later hmem => (bounds_of_consecutive hlater later hmem).1) ih

/-- When bytes are taken, the first one is. -/
theorem first_taken_of_consecutive (h : Consecutive place data taken writes) (hpos : 0 < taken) :
    ∃ write ∈ writes, write.place = place ∧ 0 < write.taken := by
  induction h with
  | nil => exact absurd hpos (lt_irrefl 0)
  | cons hle hlater ih =>
      rename_i place taken later data writes
      rcases Nat.eq_zero_or_pos taken with rfl | htaken
      · obtain ⟨write, hwrite, hplace, hpositive⟩ := ih (by omega)
        exact ⟨write, List.mem_cons_of_mem _ hwrite, by omega, hpositive⟩
      · exact ⟨_, List.mem_cons_self, rfl, htaken⟩

/-- The first call offers all bytes. -/
theorem first_offered_of_consecutive (h : Consecutive place data taken writes)
    (hne : writes ≠ []) : ∃ write ∈ writes, write.place = place ∧ write.data = data := by
  cases h with
  | nil => exact absurd rfl hne
  | cons hle hlater => exact ⟨_, List.mem_cons_self, rfl, rfl⟩

/-- One more call of `write` in front of the rest of the loop. -/
theorem WritenEnd.cons {outcome : SocketOutcome} {result : Option (Int × List Write)}
    (hle : taken ≤ data.length)
    (h : WritenEnd len (place + taken) (data.drop taken) outcome result) :
    WritenEnd len place data outcome
      (result.map fun (written, writes) => (written, ⟨place, data, taken⟩ :: writes)) := by
  cases h with
  | waits => exact .waits
  | takesAll hwrites =>
      refine .takesAll ?_
      have hsum : taken + (data.drop taken).length = data.length := by
        rw [List.length_drop]
        omega
      rw [← hsum]
      exact .cons hle hwrites
  | blocks hlt hne hwrites =>
      rename_i later writes
      rw [List.length_drop] at hlt
      have hret : (len : Int) - (data.drop taken).length + later =
          len - data.length + (taken + later : Nat) := by
        rw [List.length_drop]
        omega
      rw [Option.map_some, hret]
      exact .blocks (by omega) (List.cons_ne_nil _ _) (.cons hle hwrites)
  | fails hlt hne hwrites =>
      rw [List.length_drop] at hlt
      exact .fails (by omega) (List.cons_ne_nil _ _) (.cons hle hwrites)

/-- A call of `write` that would block ends the loop. -/
theorem WritenEnd.blocked (hdata : data ≠ []) :
    WritenEnd len place data .blocks (some (len - data.length, [⟨place, data, 0⟩])) := by
  have h : WritenEnd len place data .blocks _ :=
    .blocks (List.length_pos_iff.2 hdata) (List.cons_ne_nil _ _) consecutive_nothing
  rwa [Nat.cast_zero, add_zero] at h

theorem writen_loop_end (len place : Nat) (data : Bytes) (results : List WriteResult) :
    WritenEnd len place data (socketOutcome data.length results)
      (writenLoop len place data results) := by
  induction results generalizing place data with
  | nil =>
      cases data with
      | nil => exact .takesAll .nil
      | cons byte bytes => exact .waits
  | cons result results ih =>
      cases data with
      | nil => exact .takesAll .nil
      | cons byte bytes =>
          cases result with
          | interrupted => exact WritenEnd.cons (Nat.zero_le _) (ih _ _)
          | wouldBlock => exact .blocked (List.cons_ne_nil _ _)
          | failed => exact .fails (Nat.succ_pos _) (List.cons_ne_nil _ _) consecutive_nothing
          | accepted count =>
              cases count with
              | zero => exact .blocked (List.cons_ne_nil _ _)
              | succ count =>
                  let ret := min (count + 1) (byte :: bytes).length
                  have hlater := WritenEnd.cons (Nat.min_le_right (count + 1) _)
                    (ih (place + ret) ((byte :: bytes).drop ret))
                  have hleft : ((byte :: bytes).drop ret).length = bytes.length - count := by
                    rw [List.length_drop]
                    show (bytes.length + 1) - min (count + 1) (bytes.length + 1) = _
                    omega
                  rw [hleft] at hlater
                  exact hlater

end Loop

/-! ## `writen` on a whole buffer -/

/-- The number of bytes that `writen` is asked to write when the size of the buffer is converted. -/
def writeLength (buf : Bytes) : Nat := (sizeToInt buf.length).toNat

theorem size_to_int_of_lt {size : Nat} (h : size < 2 ^ 31) : sizeToInt size = size :=
  Int.bmod_eq_of_le (by omega) (by omega)

theorem size_to_int_le (size : Nat) : sizeToInt size ≤ size := by
  unfold sizeToInt
  rw [Int.bmod_def]
  split <;> omega

theorem size_to_int_lt (size : Nat) : sizeToInt size < 2 ^ 31 := by
  have h := Int.bmod_lt (x := (size : Int)) (m := 2 ^ 32) (Nat.two_pow_pos 32)
  unfold sizeToInt
  omega

theorem size_to_int_le_write_length (buf : Bytes) : sizeToInt buf.length ≤ writeLength buf := by
  unfold writeLength
  exact Int.self_le_toNat _

theorem write_length_le (buf : Bytes) : writeLength buf ≤ buf.length := by
  have hle := size_to_int_le buf.length
  rw [writeLength]
  omega

/-- Only a buffer of less than 2^31 bytes is written as a whole. -/
theorem write_length_eq_iff (buf : Bytes) : writeLength buf = buf.length ↔ buf.length < 2 ^ 31 := by
  constructor
  · intro h
    have hlt := size_to_int_lt buf.length
    rw [writeLength] at h
    omega
  · intro h
    rw [writeLength, size_to_int_of_lt h, Int.toNat_natCast]

section Writen

variable {buf : Bytes} {results : List WriteResult}

theorem length_take_write_length (buf : Bytes) :
    (buf.take (writeLength buf)).length = writeLength buf :=
  List.length_take_of_le (write_length_le buf)

theorem writen_end (place : Nat) (buf : Bytes) (results : List WriteResult) :
    WritenEnd (writeLength buf) place (buf.take (writeLength buf))
      (socketOutcome (writeLength buf) results)
      (writen place buf (sizeToInt buf.length) results) := by
  have h := writen_loop_end (writeLength buf) place (buf.take (writeLength buf)) results
  rw [length_take_write_length] at h
  exact h

theorem writen_waits (place : Nat) (h : socketOutcome (writeLength buf) results = .waits) :
    writen place buf (sizeToInt buf.length) results = none := by
  have hend := writen_end place buf results
  rw [h] at hend
  generalize writen place buf (sizeToInt buf.length) results = result at hend
  cases hend
  rfl

theorem writen_takes_all (place : Nat)
    (h : socketOutcome (writeLength buf) results = .takesAll) :
    ∃ writes, Consecutive place (buf.take (writeLength buf)) (writeLength buf) writes ∧
      writen place buf (sizeToInt buf.length) results = some ((writeLength buf : Int), writes) := by
  have hend := writen_end place buf results
  rw [h] at hend
  generalize writen place buf (sizeToInt buf.length) results = result at hend
  cases hend with
  | takesAll hwrites =>
      rw [length_take_write_length] at hwrites
      exact ⟨_, hwrites, rfl⟩

theorem writen_blocks (place : Nat)
    (h : socketOutcome (writeLength buf) results = .blocks) :
    ∃ taken writes, taken < writeLength buf ∧ writes ≠ [] ∧
      Consecutive place (buf.take (writeLength buf)) taken writes ∧
      writen place buf (sizeToInt buf.length) results = some ((taken : Int), writes) := by
  have hend := writen_end place buf results
  rw [h] at hend
  generalize writen place buf (sizeToInt buf.length) results = result at hend
  cases hend with
  | blocks hlt hne hwrites =>
      rw [length_take_write_length] at hlt
      refine ⟨_, _, hlt, hne, hwrites, ?_⟩
      rw [length_take_write_length, Int.sub_self, Int.zero_add]

theorem writen_fails (place : Nat)
    (h : socketOutcome (writeLength buf) results = .fails) :
    ∃ taken writes, taken < writeLength buf ∧ writes ≠ [] ∧
      Consecutive place (buf.take (writeLength buf)) taken writes ∧
      writen place buf (sizeToInt buf.length) results = some (-1, writes) := by
  have hend := writen_end place buf results
  rw [h] at hend
  generalize writen place buf (sizeToInt buf.length) results = result at hend
  cases hend with
  | fails hlt hne hwrites =>
      rw [length_take_write_length] at hlt
      exact ⟨_, _, hlt, hne, hwrites, rfl⟩

end Writen

/-! ## `send` and `handleWriteCallback` -/

namespace SendSide

variable {conn : SendSide} {msg : Bytes} {results : List WriteResult}

/-- `size_t` to `int` and back, when some bytes are to be written. -/
theorem size_to_int_eq_of_pos (h : 0 < writeLength msg) :
    sizeToInt msg.length = writeLength msg := by
  rw [writeLength, Int.toNat_of_nonneg]
  have hpos : 0 < sizeToInt msg.length := Int.pos_iff_toNat_pos.2 h
  exact hpos.le

theorem send_takes_all (hidle : conn.Idle)
    (h : socketOutcome (writeLength msg) results = .takesAll) :
    ∃ writes, Consecutive conn.sent.length (msg.take (writeLength msg)) (writeLength msg) writes ∧
      conn.send msg results = .ok ({ conn with sent := conn.sent ++ msg }, writes) := by
  obtain ⟨writes, hwrites, hwriten⟩ := writen_takes_all conn.sent.length h
  have hdone : ¬ ((writeLength msg : Int) < sizeToInt msg.length) :=
    not_lt.2 (size_to_int_le_write_length msg)
  refine ⟨writes, hwrites, ?_⟩
  unfold send
  rw [if_pos hidle, hwriten]
  exact if_neg hdone

theorem send_blocks (hidle : conn.Idle)
    (h : socketOutcome (writeLength msg) results = .blocks) :
    ∃ taken writes, taken < writeLength msg ∧
      Consecutive conn.sent.length (msg.take (writeLength msg)) taken writes ∧
      conn.send msg results =
        .ok (⟨msg.drop taken, true, true, conn.sent ++ msg⟩, writes) := by
  obtain ⟨taken, writes, hlt, -, hwrites, hwriten⟩ := writen_blocks conn.sent.length h
  have hpartial : (taken : Int) < sizeToInt msg.length := by
    rw [size_to_int_eq_of_pos (by omega)]
    omega
  have hle := write_length_le msg
  have hrest : substr msg taken = .ok (msg.drop taken) :=
    if_pos ⟨Int.natCast_nonneg _, by omega⟩
  refine ⟨taken, writes, hlt, hwrites, ?_⟩
  simp only [send, if_pos hidle, hwriten, if_pos hpartial, hrest]
  rfl

theorem send_fails (hidle : conn.Idle)
    (h : socketOutcome (writeLength msg) results = .fails) :
    conn.send msg results = .error .outOfRange := by
  obtain ⟨taken, writes, hlt, -, -, hwriten⟩ := writen_fails conn.sent.length h
  have hpartial : (-1 : Int) < sizeToInt msg.length := by
    rw [size_to_int_eq_of_pos (by omega)]
    omega
  have hthrow : substr msg (-1) = .error .outOfRange := if_neg (by omega)
  simp only [send, if_pos hidle, hwriten, if_pos hpartial, hthrow]

theorem send_waits (hidle : conn.Idle)
    (h : socketOutcome (writeLength msg) results = .waits) :
    conn.send msg results = .error .pending := by
  simp only [send, if_pos hidle, writen_waits _ h]

theorem send_busy (hbusy : ¬ conn.Idle) :
    conn.send msg results =
      .ok (⟨conn.sendBuffer ++ msg, true, conn.writeArmed || !conn.isWriting, conn.sent ++ msg⟩,
        []) := by
  cases hwriting : conn.isWriting <;> simp [send, hbusy, hwriting, addEpollWriteFd]

theorem callback_empty (h : conn.sendBuffer = []) :
    conn.handleWriteCallback results =
      .ok ({ conn with isWriting := false, writeArmed := false }, [], false) :=
  if_pos h

/-- The connection after `handleWriteCallback` has written this many bytes. -/
def written (conn : SendSide) (taken : Nat) : SendSide :=
  let rest := conn.sendBuffer.drop taken
  if rest = [] then { conn with sendBuffer := [], isWriting := false, writeArmed := false }
  else { conn with sendBuffer := rest }

theorem written_sent (conn : SendSide) (taken : Nat) :
    (conn.written taken).sent = conn.sent := by
  unfold written
  dsimp only
  split <;> rfl

theorem written_buffer (conn : SendSide) (taken : Nat) :
    (conn.written taken).sendBuffer = conn.sendBuffer.drop taken := by
  unfold written
  dsimp only
  split
  · rename_i hrest
    exact hrest.symm
  · rfl

theorem callback_writes {taken : Nat} {writes : List Write} (h : conn.sendBuffer ≠ [])
    (hwriten : writen conn.bufferPlace conn.sendBuffer (sizeToInt conn.sendBuffer.length) results =
      some ((taken : Int), writes)) :
    conn.handleWriteCallback results = .ok (conn.written taken, writes, false) := by
  have hnonneg : ¬ ((taken : Int) < 0) := by omega
  unfold handleWriteCallback
  rw [if_neg h, hwriten]
  simp only [if_neg hnonneg, Int.toNat_natCast, written]
  by_cases hrest : conn.sendBuffer.drop taken = []
  · rw [if_pos hrest, if_pos hrest, hrest]
    rfl
  · rw [if_neg hrest, if_neg hrest]

theorem callback_sent {result : SendSide × List Write × Bool}
    (h : conn.handleWriteCallback results = .ok result) : result.1.sent = conn.sent := by
  unfold handleWriteCallback at h
  split at h
  · cases h
    rfl
  · split at h
    · cases h
    · split at h
      · cases h
        rfl
      · simp only at h
        split at h
        · cases h
          rfl
        · cases h
          rfl

theorem callback_takes_all (hbuffer : conn.sendBuffer ≠ [])
    (h : socketOutcome (writeLength conn.sendBuffer) results = .takesAll) :
    ∃ writes, Consecutive conn.bufferPlace (conn.sendBuffer.take (writeLength conn.sendBuffer))
        (writeLength conn.sendBuffer) writes ∧
      conn.handleWriteCallback results =
        .ok (conn.written (writeLength conn.sendBuffer), writes, false) := by
  obtain ⟨writes, hwrites, hwriten⟩ := writen_takes_all conn.bufferPlace h
  exact ⟨writes, hwrites, callback_writes hbuffer hwriten⟩

theorem callback_blocks (hbuffer : conn.sendBuffer ≠ [])
    (h : socketOutcome (writeLength conn.sendBuffer) results = .blocks) :
    ∃ taken writes, taken < writeLength conn.sendBuffer ∧ writes ≠ [] ∧
      Consecutive conn.bufferPlace (conn.sendBuffer.take (writeLength conn.sendBuffer)) taken
        writes ∧
      conn.handleWriteCallback results = .ok (conn.written taken, writes, false) := by
  obtain ⟨taken, writes, hlt, hne, hwrites, hwriten⟩ := writen_blocks conn.bufferPlace h
  exact ⟨taken, writes, hlt, hne, hwrites, callback_writes hbuffer hwriten⟩

theorem callback_fails (hbuffer : conn.sendBuffer ≠ [])
    (h : socketOutcome (writeLength conn.sendBuffer) results = .fails) :
    ∃ taken writes, taken < writeLength conn.sendBuffer ∧ writes ≠ [] ∧
      Consecutive conn.bufferPlace (conn.sendBuffer.take (writeLength conn.sendBuffer)) taken
        writes ∧
      conn.handleWriteCallback results = .ok (conn, writes, true) := by
  obtain ⟨taken, writes, hlt, hne, hwrites, hwriten⟩ := writen_fails conn.bufferPlace h
  refine ⟨taken, writes, hlt, hne, hwrites, ?_⟩
  unfold handleWriteCallback
  rw [if_neg hbuffer, hwriten]
  exact if_pos (by omega)

theorem callback_waits (hbuffer : conn.sendBuffer ≠ [])
    (h : socketOutcome (writeLength conn.sendBuffer) results = .waits) :
    conn.handleWriteCallback results = .error .pending := by
  unfold handleWriteCallback
  rw [if_neg hbuffer, writen_waits _ h]

end SendSide

/-! ## A faithful queue of bytes -/

/-- What the socket has accepted, followed by the buffer, is what has been passed to `send`, and the
buffer is not empty exactly while a write event is awaited and armed. -/
structure Faithful (writes : List Write) (conn : SendSide) : Prop where
  bytes : acceptedBytes writes ++ conn.sendBuffer = conn.sent
  writing : conn.sendBuffer ≠ [] ↔ conn.isWriting = true
  armed : conn.isWriting = conn.writeArmed

/-- A message that `send` writes itself is shorter than 2^31 bytes, or the socket blocks before it
has taken as many bytes as the converted size says. -/
def DirectFits (conn : SendSide) : SendCall → Prop
  | .send msg results =>
      conn.Idle → msg.length < 2 ^ 31 ∨ socketOutcome (writeLength msg) results ≠ .takesAll
  | .handleWriteCallback _ => True

/-- No hard error of the socket. -/
def SendCall.Soft (call : SendCall) : Prop := .failed ∉ call.results

instance (call : SendCall) : Decidable call.Soft := inferInstanceAs (Decidable (_ ∉ _))

section Faithful

variable {trace : List Write} {conn : SendSide} {results : List WriteResult}

theorem socket_not_fails (left : Nat) (h : WriteResult.failed ∉ results) :
    socketOutcome left results ≠ .fails := by
  induction results generalizing left with
  | nil => cases left <;> exact nofun
  | cons result results ih =>
      obtain ⟨hfirst, hlater⟩ := not_or.1 (mt List.mem_cons.2 h)
      cases left with
      | zero => exact nofun
      | succ left =>
          cases result with
          | interrupted => exact ih _ hlater
          | wouldBlock => exact nofun
          | failed => exact absurd rfl hfirst
          | accepted count =>
              cases count with
              | zero => exact nofun
              | succ count => exact ih _ hlater

theorem accepted_append (first second : List Write) :
    acceptedBytes (first ++ second) = acceptedBytes first ++ acceptedBytes second :=
  List.flatMap_append

theorem transmit_callback {next : SendSide} {writes : List Write} {closes : Bool}
    (h : conn.handleWriteCallback results = .ok (next, writes, closes)) :
    transmit conn (.handleWriteCallback results) = .ok (next, writes) := by
  rw [transmit, h]
  rfl

/-- Bytes of the buffer that the socket takes move to what it has accepted. -/
theorem Faithful.written {taken : Nat} {writes : List Write} (h : Faithful trace conn)
    (hbuffer : conn.sendBuffer ≠ []) (hle : taken ≤ writeLength conn.sendBuffer)
    (hwrites : Consecutive conn.bufferPlace
      (conn.sendBuffer.take (writeLength conn.sendBuffer)) taken writes) :
    Faithful (trace ++ writes) (conn.written taken) := by
  have htaken : acceptedBytes writes = conn.sendBuffer.take taken := by
    rw [accepted_of_consecutive hwrites, List.take_take, Nat.min_eq_left hle]
  have hbytes : acceptedBytes (trace ++ writes) ++ conn.sendBuffer.drop taken = conn.sent := by
    rw [accepted_append, htaken, List.append_assoc, List.take_append_drop, h.bytes]
  unfold SendSide.written
  by_cases hrest : conn.sendBuffer.drop taken = []
  · rw [if_pos hrest]
    rw [hrest] at hbytes
    exact ⟨hbytes, by simp, rfl⟩
  · rw [if_neg hrest]
    exact ⟨hbytes, iff_of_true hrest (h.writing.1 hbuffer), h.armed⟩

/-- A write-readiness callback keeps the queue faithful. -/
theorem Faithful.callback (h : Faithful trace conn) (hsoft : WriteResult.failed ∉ results) :
    Machine.Fine Faithful (fun _ => False) trace
      (transmit conn (.handleWriteCallback results)) := by
  by_cases hbuffer : conn.sendBuffer = []
  · rw [transmit_callback (SendSide.callback_empty hbuffer)]
    show Faithful (trace ++ []) _
    rw [List.append_nil]
    exact ⟨h.bytes, by simp [hbuffer], rfl⟩
  · cases houtcome : socketOutcome (writeLength conn.sendBuffer) results with
    | takesAll =>
        obtain ⟨writes, hwrites, hcallback⟩ := SendSide.callback_takes_all hbuffer houtcome
        rw [transmit_callback hcallback]
        exact h.written hbuffer le_rfl hwrites
    | blocks =>
        obtain ⟨taken, writes, hlt, -, hwrites, hcallback⟩ :=
          SendSide.callback_blocks hbuffer houtcome
        rw [transmit_callback hcallback]
        exact h.written hbuffer hlt.le hwrites
    | fails => exact absurd houtcome (socket_not_fails _ hsoft)
    | waits =>
        rw [transmit, SendSide.callback_waits hbuffer houtcome]
        exact not_false

/-- A message that finds something buffered joins it. -/
theorem Faithful.send_busy (h : Faithful trace conn) (hbusy : ¬ conn.Idle) (msg : Bytes) :
    Machine.Fine Faithful (fun _ => False) trace (transmit conn (.send msg results)) := by
  have hbuffer : conn.sendBuffer ≠ [] := by
    intro hempty
    refine hbusy ⟨hempty, ?_⟩
    rw [← Bool.not_eq_true, ← h.writing]
    exact not_not.2 hempty
  have hwriting : conn.isWriting = true := h.writing.1 hbuffer
  rw [transmit, SendSide.send_busy hbusy]
  show Faithful (trace ++ []) _
  refine ⟨?_, ?_, ?_⟩
  · rw [List.append_nil, ← List.append_assoc, h.bytes]
  · exact iff_of_true (List.append_ne_nil_of_left_ne_nil hbuffer msg) rfl
  · rw [← h.armed, hwriting]
    rfl

/-- A message that `send` writes itself. -/
theorem Faithful.send_idle (h : Faithful trace conn) (hidle : conn.Idle) (msg : Bytes)
    (results : List WriteResult) (hsoft : WriteResult.failed ∉ results) :
    Machine.Fine Faithful (fun _ => False) trace (transmit conn (.send msg results)) ↔
      msg.length < 2 ^ 31 ∨ socketOutcome (writeLength msg) results ≠ .takesAll := by
  have hsent : acceptedBytes trace = conn.sent := by
    rw [← h.bytes, hidle.1, List.append_nil]
  rw [transmit]
  cases houtcome : socketOutcome (writeLength msg) results with
  | takesAll =>
      obtain ⟨writes, hwrites, hsend⟩ := SendSide.send_takes_all hidle houtcome
      have hbytes : acceptedBytes (trace ++ writes) = conn.sent ++ msg.take (writeLength msg) := by
        rw [accepted_append, hsent, accepted_of_consecutive hwrites, List.take_take, Nat.min_self]
      rw [hsend, ← write_length_eq_iff]
      simp only [ne_eq, not_true_eq_false, or_false]
      constructor
      · intro hnext
        have hall := hnext.bytes
        rw [hbytes, hidle.1, List.append_nil, List.append_cancel_left_eq] at hall
        rw [← length_take_write_length, hall]
      · intro hall
        refine ⟨?_, h.writing, h.armed⟩
        rw [hbytes, hidle.1, List.append_nil, hall, List.take_length]
  | blocks =>
      obtain ⟨taken, writes, hlt, hwrites, hsend⟩ := SendSide.send_blocks hidle houtcome
      refine iff_of_true ?_ (.inr nofun)
      have hle := write_length_le msg
      have hrest : msg.drop taken ≠ [] := by
        rw [ne_eq, List.drop_eq_nil_iff]
        omega
      rw [hsend]
      refine ⟨?_, iff_of_true hrest rfl, rfl⟩
      rw [accepted_append, hsent, accepted_of_consecutive hwrites, List.take_take,
        Nat.min_eq_left hlt.le, List.append_assoc, List.take_append_drop]
  | fails => exact absurd houtcome (socket_not_fails _ hsoft)
  | waits =>
      rw [SendSide.send_waits hidle houtcome]
      exact iff_of_true not_false (.inr nofun)

theorem faithful_step {call : SendCall} (h : Faithful trace conn) (hsoft : call.Soft) :
    Machine.Fine Faithful (fun _ => False) trace (transmit conn call) ↔ DirectFits conn call := by
  cases call with
  | send msg results =>
      by_cases hidle : conn.Idle
      · rw [h.send_idle hidle msg results hsoft]
        exact ⟨fun hfits _ => hfits, fun hfits => hfits hidle⟩
      · exact iff_of_true (h.send_busy hidle msg) fun hagain => absurd hagain hidle
  | handleWriteCallback results => exact iff_of_true (h.callback hsoft) trivial

end Faithful

/-- A call adds its message to what has been passed to `send`. -/
theorem transmit_sent {conn next : SendSide} {call : SendCall} {writes : List Write}
    (h : transmit conn call = .ok (next, writes)) : next.sent = conn.sent ++ call.message := by
  cases call with
  | send msg results =>
      simp only [transmit, SendSide.send] at h
      split at h
      · split at h
        · cases h
        · split at h
          · split at h
            · cases h
            · cases h
              rfl
          · cases h
            rfl
      · split at h <;>
        · cases h
          rfl
  | handleWriteCallback results =>
      rw [SendCall.message, List.append_nil]
      cases hcallback : conn.handleWriteCallback results with
      | error fault =>
          rw [transmit, hcallback] at h
          cases h
      | ok result =>
          rw [transmit, hcallback] at h
          cases h
          exact SendSide.callback_sent hcallback

/-- What has been passed to `send` in a run. -/
theorem sent_of_run {conn final : SendSide} {calls : List SendCall} {writes : List Write}
    (h : Machine.run transmit conn calls = .ok (final, writes)) :
    final.sent = conn.sent ++ calls.flatMap SendCall.message := by
  refine Machine.run_history (fun past _ state => state.sent = conn.sent ++ past.flatMap _)
    (fun _ => True) ?_ (by simp) (fun _ _ => trivial) h
  intro past trace state call following out hstate _ hstep
  have hsent : following.sent = state.sent ++ call.message := transmit_sent hstep
  rw [hsent, hstate, List.flatMap_append, List.append_assoc, List.flatMap_singleton]

/-- The send path is a faithful queue in every state of a run without hard errors exactly when
every message that `send` writes itself fits. -/
theorem faithful_iff (calls : List SendCall) (hsoft : ∀ call ∈ calls, call.Soft) :
    Machine.Guarded transmit DirectFits {} calls ↔
      ∀ past, past <+: calls → ∀ conn writes,
        Machine.run transmit {} past = .ok (conn, writes) →
          acceptedBytes writes ++ conn.sendBuffer = past.flatMap SendCall.message ∧
          (conn.sendBuffer ≠ [] ↔ conn.isWriting = true) ∧
          (conn.isWriting = true ↔ conn.writeArmed = true) := by
  have hstart : Faithful [] {} := ⟨rfl, by simp, rfl⟩
  rw [Machine.guarded_iff_of SendCall.Soft (fun _ _ _ => faithful_step) hsoft hstart]
  refine forall₂_congr fun past _ => ?_
  cases hrun : Machine.run transmit {} past with
  | error fault => exact iff_of_true not_false nofun
  | ok result =>
      obtain ⟨final, outs⟩ := result
      have hsent : final.sent = past.flatMap SendCall.message := sent_of_run hrun
      constructor
      · intro hfaithful conn writes heq
        cases heq
        rw [← hsent]
        exact ⟨hfaithful.bytes, hfaithful.writing, by rw [hfaithful.armed]⟩
      · intro h
        obtain ⟨hbytes, hwriting, harmed⟩ := h final outs rfl
        exact ⟨by rw [hsent]; exact hbytes, hwriting, Bool.eq_iff_iff.2 harmed⟩

/-- A message of which the socket takes one byte before it blocks, another one, and a write event
in which `write` is interrupted once. -/
def partialWrites : List SendCall :=
  [.send [1, 2, 3] [.accepted 1, .wouldBlock], .send [4] [],
    .handleWriteCallback [.interrupted, .accepted 2, .wouldBlock]]

theorem faithful_partial : ∃ conn writes,
    Machine.run transmit {} partialWrites = .ok (conn, writes) ∧
    acceptedBytes writes ++ conn.sendBuffer = [1, 2, 3, 4] ∧ conn.writeArmed = true := by
  have hfits : Machine.Guarded transmit DirectFits {} partialWrites := by
    refine Machine.guarded_of_forall fun conn => List.forall_mem_cons.2 ⟨?_, ?_⟩
    · exact fun _ => .inl (by decide)
    · exact List.forall_mem_cons.2 ⟨fun _ => .inl (by decide), by simp [DirectFits]⟩
  have hrun : Machine.run transmit {} partialWrites =
      .ok (⟨[4], true, true, [1, 2, 3, 4]⟩,
        [⟨0, [1, 2, 3], 1⟩, ⟨1, [2, 3], 0⟩, ⟨1, [2, 3, 4], 0⟩, ⟨1, [2, 3, 4], 2⟩,
          ⟨3, [4], 0⟩]) := rfl
  obtain ⟨hbytes, hwriting, harmed⟩ :=
    (faithful_iff partialWrites (by decide)).1 hfits partialWrites List.prefix_rfl _ _ hrun
  exact ⟨_, _, hrun, hbytes, harmed.1 (hwriting.1 (by simp))⟩

/-- 2^31 bytes. -/
def largeMessage : Bytes := List.replicate (2 ^ 31) 0

theorem length_large_message : largeMessage.length = 2 ^ 31 := List.length_replicate

theorem write_length_large_message : writeLength largeMessage = 0 := by
  unfold writeLength
  rw [length_large_message]
  rfl

/-- A message of 2^31 bytes is lost: its size becomes a negative `int`. -/
theorem large_message_lost : ¬ ∀ calls : List SendCall, (∀ call ∈ calls, call.Soft) →
    ∀ conn writes, Machine.run transmit {} calls = .ok (conn, writes) →
      acceptedBytes writes ++ conn.sendBuffer = calls.flatMap SendCall.message := by
  intro hclaim
  have hidle : SendSide.Idle {} := ⟨rfl, rfl⟩
  have houtcome : socketOutcome (writeLength largeMessage) [] = .takesAll := by
    rw [write_length_large_message]
    rfl
  obtain ⟨writes, hwrites, hsend⟩ := SendSide.send_takes_all hidle houtcome
  have hbytes := hclaim [.send largeMessage []] (by simp [SendCall.Soft, SendCall.results]) _ _
    (Machine.run_cons_ok hsend Machine.run_nil)
  simp only [List.append_nil, accepted_of_consecutive hwrites, write_length_large_message,
    List.take_zero] at hbytes
  have hlength : 0 = largeMessage.length := by
    simpa [SendCall.message] using congrArg List.length hbytes
  rw [length_large_message] at hlength
  exact absurd hlength (by omega)

end CarDetect.Reactor
