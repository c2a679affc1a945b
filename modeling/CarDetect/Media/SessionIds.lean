import CarDetect.Media.RtspSession
import CarDetect.Monitor.CamMessages

/-!
# The session id as an authorisation

`handleRecord` and `handleTeardown` look for the session's id anywhere in the `Session` header.
`refused_iff` says for which ids of other sessions a request is refused with 454 and changes
nothing.
-/

namespace CarDetect.Media

open BigEndian ByteString Reactor RtspConnect
open Monitor (printHex generateSessionId isHexDigit print_hex_digits)

/-- What the constructor of `RtspConnect` does to the counter of the session manager:
`generateSessionId` increments it for the new id, and `addSession` increments it again. -/
def newSession (sessionCounter : UInt32) (time : Nat) : Bytes × UInt32 :=
  (generateSessionId time (sessionCounter + 1).toNat, sessionCounter + 2)

/-- The ids of sessions that are created at these times. -/
def issuedIds (sessionCounter : UInt32) : List Nat → List Bytes
  | [] => []
  | time :: times =>
      let (id, sessionCounter) := newSession sessionCounter time
      id :: issuedIds sessionCounter times

/-- The value of a `Session` header for an id, with or without a timeout. -/
def sessionHeader (id : Bytes) : Option Nat → Bytes
  | none => id
  | some timeout => id ++ ascii ";timeout=" ++ printNat timeout

/-- The request is refused, and nothing changes. -/
def Refused (conn : RtspConnect) (arrival : Arrival) : Prop :=
  conn.handleRequest arrival =
    .ok (conn, [.sendResponse ⟨454, ascii "Session Not Found", [], cseqOf arrival.request⟩])

section Ids

variable {time sessionCounter : Nat}

/-- Every id of a run of the session manager comes from a time and a count. -/
theorem issued_ids_generated {id : Bytes} {start : UInt32} {times : List Nat}
    (h : id ∈ issuedIds start times) :
    ∃ time ∈ times, ∃ sessionCounter : UInt32,
      id = generateSessionId time sessionCounter.toNat := by
  induction times generalizing start with
  | nil => cases h
  | cons time times ih =>
      rcases List.mem_cons.1 h with rfl | h
      · exact ⟨time, List.mem_cons_self, start + 1, rfl⟩
      · obtain ⟨other, hother, sessionCounter, rfl⟩ := ih h
        exact ⟨other, List.mem_cons_of_mem _ hother, sessionCounter, rfl⟩

theorem dash_not_mem_hex (value : Nat) : 45 ∉ printHex value := fun hdash =>
  absurd (print_hex_digits value 45 hdash) (by decide)

/-- Behind the id a header has no dash, and it does not go on with a hexadecimal digit. -/
theorem session_header_tail (id : Bytes) (timeout : Option Nat) :
    ∃ tail, sessionHeader id timeout = id ++ tail ∧ 45 ∉ tail ∧
      ∀ byte ∈ tail.head?, isHexDigit byte = false := by
  cases timeout with
  | none => exact ⟨[], (List.append_nil id).symm, by simp, by simp⟩
  | some timeout =>
      refine ⟨ascii ";timeout=" ++ printNat timeout, List.append_assoc _ _ _, ?_, ?_⟩
      · intro hdash
        rcases List.mem_append.1 hdash with hdash | hdash
        · exact absurd hdash (by decide)
        · exact absurd (print_digits timeout 45 hdash) (by decide)
      · simp [ascii, isHexDigit, isdigit]

/-- An id occurs in the header of another id exactly when its time ends the other's time and its
count begins the other's count. -/
theorem id_in_header_iff (time sessionCounter otherTime otherCounter : Nat) (timeout : Option Nat) :
    generateSessionId time sessionCounter <:+:
        sessionHeader (generateSessionId otherTime otherCounter) timeout ↔
      printHex time <:+ printHex otherTime ∧ printHex sessionCounter <+: printHex otherCounter := by
  obtain ⟨tail, hheader, hdash, htail⟩ :=
    session_header_tail (generateSessionId otherTime otherCounter) timeout
  have hparts : ∀ time sessionCounter, generateSessionId time sessionCounter =
      printHex time ++ 45 :: printHex sessionCounter := by
    intro time sessionCounter
    simp [generateSessionId, show ascii "-" = [45] from rfl]
  have hback : 45 ∉ printHex otherCounter ++ tail := fun hmem =>
    (List.mem_append.1 hmem).elim (dash_not_mem_hex otherCounter) hdash
  have hend : ∀ byte ∈ tail.head?, byte ∉ printHex sessionCounter := by
    intro byte hbyte hmem
    have hdigit := htail byte hbyte
    rw [print_hex_digits _ byte hmem] at hdigit
    cases hdigit
  rw [hheader, hparts, hparts, List.append_assoc, List.cons_append,
    infix_separated (dash_not_mem_hex otherTime) hback, prefix_in_front hend]

end Ids

section Requests

variable {arrival : Arrival}

/-- What a RECORD or a TEARDOWN asks for depends on the check of its `Session` header. -/
theorem action_checked (sessionId : Bytes)
    (hmethod : (parseRequest arrival.request).method = ascii "RECORD" ∨
      (parseRequest arrival.request).method = ascii "TEARDOWN") :
    if checkSession sessionId (parseRequest arrival.request).headers then
      (∃ kcpId, action sessionId arrival.request = .record kcpId) ∨
        action sessionId arrival.request = .teardown
    else action sessionId arrival.request = .refuse 454 (ascii "Session Not Found") := by
  split
  · rename_i hcheck
    rcases hmethod with hmethod | hmethod
    · refine .inl ⟨(parseRequest arrival.request).headers (ascii "kcpid"), ?_⟩
      simp only [action, hmethod]
      rw [if_neg (by decide), if_neg (by decide), if_neg (by decide), if_pos trivial, if_pos hcheck]
    · refine .inr ?_
      simp only [action, hmethod]
      rw [if_neg (by decide), if_neg (by decide), if_neg (by decide), if_neg (by decide),
        if_pos trivial, if_pos hcheck]
  · rename_i hcheck
    rcases hmethod with hmethod | hmethod
    · simp only [action, hmethod]
      rw [if_neg (by decide), if_neg (by decide), if_neg (by decide), if_pos trivial, if_neg hcheck]
    · simp only [action, hmethod]
      rw [if_neg (by decide), if_neg (by decide), if_neg (by decide), if_neg (by decide),
        if_pos trivial, if_neg hcheck]

/-- No RECORD and no TEARDOWN that passes the check is answered 454. -/
theorem outcome_not_454 {conn after : RtspConnect} {socket : Socket} {asked : Action}
    {calls : List Event} {statusCode : Nat} (h : Outcome conn socket asked after calls statusCode)
    (hasked : (∃ kcpId, asked = .record kcpId) ∨ asked = .teardown) : statusCode ≠ 454 := by
  cases h with
  | recorded hthread hvideo hkcp => split <;> decide
  | tornDown hkcp => decide
  | refused hcode => simp at hasked
  | options => simp at hasked
  | announced sdp => simp at hasked
  | setUp htrack => simp at hasked
  | opened htrack hsocket hallocated => simp at hasked

/-- A RECORD or a TEARDOWN is refused exactly when its `Session` header does not contain the id of
the session. -/
theorem refused_check {conn : RtspConnect} (value : Bytes)
    (hmethod : (parseRequest arrival.request).method = ascii "RECORD" ∨
      (parseRequest arrival.request).method = ascii "TEARDOWN")
    (hvalue : (parseRequest arrival.request).headers (ascii "session") = some value) :
    Refused conn arrival ↔ ¬ conn.sessionId <:+: value := by
  have haction := action_checked conn.sessionId hmethod
  have hcheck : checkSession conn.sessionId (parseRequest arrival.request).headers = true ↔
      conn.sessionId <:+: value := by
    simp only [checkSession, hvalue]
    exact find_isSome_iff
  rw [← hcheck]
  constructor
  · intro hrefused hfound
    rw [if_pos hfound] at haction
    obtain ⟨calls, answer, hevents, houtcome⟩ := handle_ok hrefused
    have hanswer : answer.statusCode = 454 := by
      have hlast := congrArg List.getLast? hevents
      rw [List.getLast?_concat, List.getLast?_singleton] at hlast
      cases hlast
      rfl
    exact outcome_not_454 houtcome haction hanswer
  · intro hmissing
    rw [if_neg hmissing] at haction
    rw [Refused, handle_request_eq, haction]

/-- A request with the id of one session, received on the connection of another, is refused and
changes nothing exactly when the first id does not contain the second. -/
theorem refused_iff {conn : RtspConnect} {time sessionCounter otherTime otherCounter : Nat}
    (timeout : Option Nat) (hid : conn.sessionId = generateSessionId time sessionCounter)
    (hmethod : (parseRequest arrival.request).method = ascii "RECORD" ∨
      (parseRequest arrival.request).method = ascii "TEARDOWN")
    (hsession : (parseRequest arrival.request).headers (ascii "session") =
      some (sessionHeader (generateSessionId otherTime otherCounter) timeout)) :
    Refused conn arrival ↔ ¬ (printHex time <:+ printHex otherTime ∧
      printHex sessionCounter <+: printHex otherCounter) := by
  rw [refused_check _ hmethod hsession, hid, id_in_header_iff]

/-- A TEARDOWN with the id of the ninth session of a second. -/
def teardownNinth : Arrival :=
  ⟨ascii "TEARDOWN rtsp://10.0.0.1:8554/stream RTSP/1.0\r\nCSeq: 5\r\nSession: 66a1-11\r\n\r\n", 0,
    ⟨7, 0⟩⟩

theorem refused_iff_ninth :
    Refused (.create (ascii "66a1-3") (ascii "10.0.0.2") (ascii "10.0.0.1") 0) teardownNinth ↔
      ¬ (printHex 26273 <:+ printHex 26273 ∧ printHex 3 <+: printHex 17) :=
  refused_iff none (by decide +kernel) (.inr (by decide +kernel)) (by decide +kernel)

/-- Nine sessions in one second: the id of the ninth contains the id of the first, and with it the
first session is torn down. -/
theorem refused_fails_ninth :
    ¬ ∀ (start : UInt32) (times : List Nat) (i j : Nat) (id other : Bytes) (timeout : Option Nat)
      (conn : RtspConnect) (arrival : Arrival), (issuedIds start times)[i]? = some id →
      (issuedIds start times)[j]? = some other → id ≠ other → conn.sessionId = id →
      (parseRequest arrival.request).method = ascii "RECORD" ∨
        (parseRequest arrival.request).method = ascii "TEARDOWN" →
      (parseRequest arrival.request).headers (ascii "session") =
        some (sessionHeader other timeout) →
      Refused conn arrival := by
  intro h
  have hrefused := h 0 (List.replicate 9 26273) 0 8 (ascii "66a1-1") (ascii "66a1-11") none
    (.create (ascii "66a1-1") (ascii "10.0.0.2") (ascii "10.0.0.1") 0) teardownNinth
    (by decide +kernel) (by decide +kernel) (by decide) rfl (.inr (by decide +kernel))
    (by decide +kernel)
  exact (refused_check (ascii "66a1-11") (.inr (by decide +kernel)) (by decide +kernel)).1 hrefused
    (by decide)

end Requests

end CarDetect.Media
