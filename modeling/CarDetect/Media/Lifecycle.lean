import CarDetect.Media.SessionLaws

/-!
# The life cycle of a session

The law of a session's life, as an automaton over its requests and answers: a RECORD succeeds only
after a SETUP and only once, and after a TEARDOWN nothing is installed before the next SETUP.
`lifecycle_iff` says which runs obey it. `releaseSession` does not restore `_state`, so a run breaks
the law as soon as a RECORD follows a TEARDOWN.
-/

namespace CarDetect.Media

open BigEndian ByteString Reactor RtspConnect

/-- The method of a request. -/
def methodOf (request : Bytes) : Bytes :=
  (parseRequest request).method

/-- A request and what the session does about it. -/
structure Exchange where
  request : Bytes
  events : List Event
deriving DecidableEq, Repr

/-- `handleRequest`, as an exchange. -/
def exchange (conn : RtspConnect) (arrival : Arrival) :
    Except Fault (RtspConnect × List Exchange) :=
  (conn.handleRequest arrival).map fun result => (result.1, [⟨arrival.request, result.2⟩])

/-- The status code of an answer. -/
def Event.status : Event → Option Nat
  | .sendResponse response => some response.statusCode
  | _ => none

/-- The request is answered 200. -/
def Exchange.Succeeded (exchange : Exchange) : Prop :=
  exchange.events.findSome? Event.status = some 200

instance (exchange : Exchange) : Decidable exchange.Succeeded :=
  inferInstanceAs (Decidable (_ = _))

/-- The event starts a KCP thread or sets a message callback. -/
def Event.installs : Event → Bool
  | .startKcpThread _ => true
  | .setMessageCallback _ _ => true
  | _ => false

/-- Where a session is in its life: no SETUP has succeeded yet, or the last successful request of
these three was a SETUP, a RECORD or a TEARDOWN. -/
inductive Stage where
  | begun
  | opened
  | recorded
  | closed
deriving DecidableEq, Repr

/-- The stage after an exchange. -/
def Stage.next (stage : Stage) (exchange : Exchange) : Stage :=
  if exchange.Succeeded then
    if methodOf exchange.request = ascii "SETUP" then .opened
    else if methodOf exchange.request = ascii "RECORD" then .recorded
    else if methodOf exchange.request = ascii "TEARDOWN" then .closed
    else stage
  else stage

/-- The law for one exchange: a RECORD succeeds only when a SETUP has succeeded since the start or
the last successful TEARDOWN and no RECORD since that SETUP, and nothing is installed after a
successful TEARDOWN before the next successful SETUP. -/
def Exchange.Lawful (exchange : Exchange) (stage : Stage) : Prop :=
  (methodOf exchange.request = ascii "RECORD" → exchange.Succeeded → stage = .opened) ∧
    (stage = .closed → ∀ event ∈ exchange.events, event.installs = false)

/-- The law for the rest of a session's life. -/
def Lawful : Stage → List Exchange → Prop
  | _, [] => True
  | stage, exchange :: rest => exchange.Lawful stage ∧ Lawful (stage.next exchange) rest

/-- The session is torn down and not set up again. -/
def closedAfter (closed : Bool) (asked : Action) : Bool :=
  match asked with
  | .setup _ _ => false
  | .teardown => true
  | _ => closed

/-- No RECORD with the id of the session comes after a TEARDOWN with this id before the next SETUP
with a transport that the server accepts. -/
def NoneAfterTeardown (sessionId : Bytes) : Bool → List Arrival → Prop
  | _, [] => True
  | closed, arrival :: rest =>
      (closed = true → ∀ kcpId, action sessionId arrival.request ≠ .record kcpId) ∧
        NoneAfterTeardown sessionId (closedAfter closed (action sessionId arrival.request)) rest

/-! ## One exchange -/

/-- The method that an action stands for. -/
theorem action_method (sessionId request : Bytes) :
    match action sessionId request with
    | .refuse _ _ => True
    | .options => methodOf request = ascii "OPTIONS"
    | .announce => methodOf request = ascii "ANNOUNCE"
    | .setup _ _ => methodOf request = ascii "SETUP"
    | .record _ => methodOf request = ascii "RECORD"
    | .teardown => methodOf request = ascii "TEARDOWN" := by
  unfold action methodOf
  simp only
  split_ifs with hoptions hannounce hsetup hrecord hsession hteardown hsession
  · exact hoptions
  · exact hannounce
  · cases ((parseRequest request).headers (ascii "transport")).bind parseTransport with
    | none => trivial
    | some transport => exact hsetup
  · exact hrecord
  · trivial
  · exact hteardown
  · trivial
  · trivial

/-- The stage after an action that is answered with this status code. -/
def Stage.after (stage : Stage) (asked : Action) (statusCode : Nat) : Stage :=
  match asked with
  | .setup _ _ => .opened
  | .record _ => if statusCode = 200 then .recorded else stage
  | .teardown => .closed
  | _ => stage

section Exchange

variable {conn next : RtspConnect} {request : Bytes} {socket : Socket} {calls : List Event}
  {answer : Response} {stage : Stage}

/-- Only the answer decides whether an exchange succeeds. -/
theorem succeeded_iff (request : Bytes) (answer : Response) {asked : Action} {statusCode : Nat}
    (h : Outcome conn socket asked next calls statusCode) :
    (Exchange.mk request (calls ++ [.sendResponse answer])).Succeeded ↔
      answer.statusCode = 200 := by
  have hquiet : calls.findSome? Event.status = none := by
    rw [List.findSome?_eq_none_iff]
    intro event hevent
    cases event with
    | sendResponse response => exact absurd hevent (h.quiet response)
    | _ => rfl
  rw [Exchange.Succeeded, List.findSome?_append, hquiet]
  simp [Event.status]

theorem stage_next
    (h : Outcome conn socket (action conn.sessionId request) next calls answer.statusCode) :
    stage.next ⟨request, calls ++ [.sendResponse answer]⟩ =
      stage.after (action conn.sessionId request) answer.statusCode := by
  have hmethod := action_method conn.sessionId request
  have hsucceeded := succeeded_iff request answer h
  generalize answer.statusCode = statusCode at h hsucceeded ⊢
  generalize action conn.sessionId request = asked at h hmethod ⊢
  unfold Stage.next
  simp only [hsucceeded]
  cases h with
  | refused hcode =>
      rw [if_neg hcode]
      rfl
  | setUp | opened =>
      rw [if_pos rfl, if_pos hmethod]
      rfl
  | options | announced | recorded | tornDown =>
      rw [hmethod]
      rfl

/-- The protocol state that a stage goes with. After a TEARDOWN it can be any. -/
def Stage.Fits (stage : Stage) (state : RtspState) : Prop :=
  match stage with
  | .begun => state = .init
  | .opened => state = .ready
  | .recorded => state = .playing
  | .closed => True

theorem fits_after {asked : Action} {statusCode : Nat} (hfits : stage.Fits conn.state)
    (h : Outcome conn socket asked next calls statusCode) :
    (stage.after asked statusCode).Fits next.state := by
  cases h with
  | refused | options | announced => exact hfits
  | setUp => rfl
  | @opened url transport track => cases track <;> rfl
  | recorded =>
      by_cases hready : conn.state = .ready
      · simp [Stage.after, Stage.Fits, recording, hready]
      · simpa [Stage.after, recording, hready] using hfits
  | tornDown => trivial

/-- While the protocol state fits the stage, one exchange obeys the law unless it is a RECORD after
a TEARDOWN. -/
theorem exchange_lawful_iff (hfits : stage.Fits conn.state)
    (h : Outcome conn socket (action conn.sessionId request) next calls answer.statusCode) :
    (Exchange.mk request (calls ++ [.sendResponse answer])).Lawful stage ↔
      (stage = .closed → ∀ kcpId, action conn.sessionId request ≠ .record kcpId) := by
  have hmethod := action_method conn.sessionId request
  have hsucceeded := succeeded_iff request answer h
  generalize answer.statusCode = statusCode at h hsucceeded
  generalize action conn.sessionId request = asked at h hmethod ⊢
  have hanswer : (Event.sendResponse answer).installs = false := rfl
  unfold Exchange.Lawful
  simp only [hsucceeded, List.forall_mem_append, List.forall_mem_singleton, hanswer, and_true]
  cases h with
  | refused hcode => exact iff_of_true ⟨fun _ hok => absurd hok hcode, by simp⟩ (by simp)
  | options | announced | setUp =>
      rw [hmethod]
      exact iff_of_true ⟨fun hrecord => absurd hrecord (by decide), by simp⟩ (by simp)
  | opened htrack hsocket hallocated =>
      rw [hmethod]
      refine iff_of_true ⟨fun hrecord => absurd hrecord (by decide), fun _ event hevent => ?_⟩
        (by simp)
      rcases List.mem_append.1 hevent with hevent | hevent
      · rw [hallocated _ hevent]
        rfl
      · cases List.mem_singleton.1 hevent
        rfl
  | @recorded kcpId video camKcp created hthread hvideo hkcp =>
      -- RECORD installs KCP whatever the state was, so only a closed session is in the wrong
      cases stage with
      | closed =>
          refine iff_of_false (fun hlaw => ?_) (by simp)
          have hquiet := hlaw.2 rfl (.startKcpThread camKcp) (by simp)
          cases hquiet
      | opened => exact iff_of_true ⟨fun _ _ => rfl, by simp⟩ (by simp)
      | begun | recorded =>
          have hstate : ¬ conn.state = .ready := by
            rw [show conn.state = _ from hfits]
            decide
          rw [if_neg hstate]
          exact iff_of_true ⟨by simp, by simp⟩ (by simp)
  | tornDown hkcp =>
      rw [hmethod]
      refine iff_of_true ⟨fun hrecord => absurd hrecord (by decide), fun _ event hevent => ?_⟩
        (by simp)
      simp only [List.mem_append, List.mem_singleton, List.mem_map] at hevent
      rcases hevent with ((rfl | hevent) | ⟨udp, -, rfl⟩) | rfl
      · rfl
      · rw [hkcp _ hevent]
        rfl
      · rfl
      · rfl

end Exchange

/-! ## Runs -/

/-- A run obeys the law exactly when no RECORD comes after a TEARDOWN. -/
theorem lawful_iff {conn final : RtspConnect} {stage : Stage} {arrivals : List Arrival}
    {exchanges : List Exchange} (hfits : stage.Fits conn.state)
    (h : Machine.run exchange conn arrivals = .ok (final, exchanges)) :
    Lawful stage exchanges ↔
      NoneAfterTeardown conn.sessionId (decide (stage = .closed)) arrivals := by
  induction arrivals generalizing conn stage exchanges with
  | nil =>
      cases h
      exact Iff.rfl
  | cons arrival rest ih =>
      obtain ⟨middle, first, later, hstep, hrest, hall⟩ := Machine.run_cons_inv h
      simp only at hall hrest
      cases hresult : conn.handleRequest arrival with
      | error fault =>
          rw [exchange, hresult] at hstep
          cases hstep
      | ok result =>
          obtain ⟨next, events⟩ := result
          rw [exchange, hresult] at hstep
          cases hstep
          obtain ⟨calls, answer, rfl, houtcome⟩ := handle_ok hresult
          rw [hall, List.singleton_append, Lawful, NoneAfterTeardown,
            exchange_lawful_iff hfits houtcome, stage_next houtcome,
            ih (fits_after hfits houtcome) hrest, houtcome.session, decide_eq_true_iff]
          refine and_congr_right fun hrecord => ?_
          -- the stage is closed just when the last accepted SETUP or TEARDOWN was a TEARDOWN
          have hclosed : decide (stage.after (action conn.sessionId arrival.request)
              answer.statusCode = .closed) =
              closedAfter (decide (stage = .closed)) (action conn.sessionId arrival.request) := by
            generalize action conn.sessionId arrival.request = asked at hrecord
            cases asked with
            | record kcpId =>
                have hopen : ¬ stage = .closed := fun hclosed => hrecord hclosed kcpId rfl
                show decide
                    ((if answer.statusCode = 200 then Stage.recorded else stage) = .closed) =
                  decide (stage = .closed)
                split
                · simp [hopen]
                · rfl
            | refuse | options | announce | setup | teardown => rfl
          rw [hclosed]

/-- A RECORD of a connection succeeds only after a SETUP, and nothing is installed after a TEARDOWN,
exactly when no RECORD with the id of the session comes between a TEARDOWN and the next SETUP. -/
theorem lifecycle_iff (sessionId clientIp serverIp : Bytes) (garbage : UInt64)
    (arrivals : List Arrival) (final : RtspConnect) (exchanges : List Exchange)
    (h : Machine.run exchange (.create sessionId clientIp serverIp garbage) arrivals =
      .ok (final, exchanges)) :
    Lawful .begun exchanges ↔ NoneAfterTeardown sessionId false arrivals := by
  have hfits : Stage.begun.Fits
      (RtspConnect.create sessionId clientIp serverIp garbage).state := rfl
  exact lawful_iff hfits h

/-- One SETUP, one RECORD and one TEARDOWN. -/
theorem lifecycle_handshake :
    ∃ final exchanges, Machine.run exchange (sample 0) [setupVideo, recordKcp, teardownSample] =
      .ok (final, exchanges) ∧ Lawful .begun exchanges := by
  cases hrun : Machine.run exchange (sample 0) [setupVideo, recordKcp, teardownSample] with
  | error fault =>
      have hok : (Machine.run exchange (sample 0)
          [setupVideo, recordKcp, teardownSample]).toOption.isSome := by
        decide +kernel
      rw [hrun] at hok
      cases hok
  | ok result =>
      refine ⟨result.1, result.2, rfl, (lifecycle_iff _ _ _ _ _ _ _ hrun).2 ⟨?_, ?_, ?_, trivial⟩⟩
      · simp
      · intro hclosed
        exact absurd hclosed (by decide +kernel)
      · intro hclosed
        exact absurd hclosed (by decide +kernel)

/-- Another SETUP, for another socket. -/
def setupAgain : Arrival :=
  { setupVideo with basePort := 10002, socket := ⟨8, 1⟩ }

/-- A session that is set up, used and torn down, set up and torn down again, accepts a RECORD. -/
theorem lifecycle_fails_record_after_teardown :
    ¬ ∀ (garbage : UInt64) (arrivals : List Arrival) (final : RtspConnect)
      (exchanges : List Exchange),
      Machine.run exchange (sample garbage) arrivals = .ok (final, exchanges) →
      Lawful .begun exchanges := by
  intro h
  cases hrun : Machine.run exchange (sample 0)
      [setupVideo, recordKcp, teardownSample, setupAgain, teardownSample, recordKcp] with
  | error fault =>
      have hok : (Machine.run exchange (sample 0) [setupVideo, recordKcp, teardownSample,
          setupAgain, teardownSample, recordKcp]).toOption.isSome := by
        decide +kernel
      rw [hrun] at hok
      cases hok
  | ok result =>
      have hfits : Stage.begun.Fits (sample 0).state := rfl
      obtain ⟨-, -, -, -, -, hlast, -⟩ := (lawful_iff hfits hrun).1 (h 0 _ _ _ hrun)
      have haction : action (sample 0).sessionId recordKcp.request =
          .record (some (ascii "17")) := by
        decide +kernel
      exact hlast (by decide +kernel) _ haction

end CarDetect.Media
