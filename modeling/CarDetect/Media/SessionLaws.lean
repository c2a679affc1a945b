import CarDetect.Lib.Machine
import CarDetect.Media.RtspSession
import CarDetect.Reactor.Messages

/-!
# Laws of one RTSP session

Three laws about the requests on one connection. `rejected_unchanged_iff` says which rejected
requests leave the session alone, `records_safe_iff` which sequences of requests make
`handleRecord` go wrong, and `lifecycle_iff` in which runs a RECORD succeeds only after a SETUP. The
defects behind them are in `handleRecord`, which acts before it looks at the state, and in
`releaseSession`, which leaves the state as it is.
-/

namespace CarDetect.Media

open BigEndian ByteString Reactor RtspConnect

/-! ## Rejected requests -/

/-- The members that a rejected request must leave as they are. -/
structure Unchanged (before after : RtspConnect) : Prop where
  state : after.state = before.state
  transportType : after.transportType = before.transportType
  slots : after.slots = before.slots
  camKcp : after.camKcp = before.camKcp
  kcpRunning : after.kcpRunning = before.kcpRunning
  kcpThread : after.kcpThread = before.kcpThread
  callbacks : after.callbacks = before.callbacks

theorem Unchanged.refl (conn : RtspConnect) : Unchanged conn conn :=
  ⟨rfl, rfl, rfl, rfl, rfl, rfl, rfl⟩

/-- When the answer is not 200, nothing has changed. -/
def RejectedUnchanged (before after : RtspConnect) (events : List Event) : Prop :=
  ∀ response, .sendResponse response ∈ events → response.statusCode ≠ 200 → Unchanged before after

/-- A RECORD with the id of the session that arrives in another state than READY. -/
def LateRecord (conn : RtspConnect) (request : Bytes) : Prop :=
  conn.state ≠ .ready ∧ ∃ kcpId, action conn.sessionId request = .record kcpId

section Rejection

variable {conn after : RtspConnect} {arrival : Arrival} {events : List Event}

/-- A late RECORD is rejected after it has started the KCP thread. -/
theorem late_record_changes (h : conn.handleRequest arrival = .ok (after, events))
    (hlate : LateRecord conn arrival.request) : ¬ RejectedUnchanged conn after events := by
  obtain ⟨hstate, kcpId, haction⟩ := hlate
  obtain ⟨calls, answer, rfl, houtcome⟩ := handle_ok h
  rw [haction] at houtcome
  intro hunchanged
  generalize hcode : answer.statusCode = statusCode at houtcome
  cases houtcome with
  | recorded hthread hvideo hkcp =>
      rw [if_neg hstate] at hcode
      have hsame := hunchanged answer (by simp) (by omega)
      have hstarted : true = conn.kcpThread := hsame.kcpThread
      rw [hthread] at hstarted
      cases hstarted

/-- Any other request that is rejected changes nothing. -/
theorem rejected_unchanged (h : conn.handleRequest arrival = .ok (after, events))
    (hlate : ¬ LateRecord conn arrival.request) : RejectedUnchanged conn after events := by
  intro response hresponse hstatus
  obtain ⟨calls, answer, rfl, houtcome⟩ := handle_ok h
  obtain rfl : response = answer := by
    simpa [houtcome.quiet response] using hresponse
  generalize haction : action conn.sessionId arrival.request = asked at houtcome
  generalize response.statusCode = statusCode at houtcome hstatus
  cases houtcome with
  | refused => exact .refl conn
  | recorded hthread hvideo hkcp =>
      have hready : conn.state = .ready := by
        by_contra hstate
        exact hlate ⟨hstate, _, haction⟩
      exact absurd (if_pos hready) hstatus
  | options | announced | setUp | opened | tornDown => exact absurd rfl hstatus

/-- Of all requests, in any state, it is just the late RECORD that changes a session although it
is rejected. -/
theorem rejected_unchanged_iff (conn after : RtspConnect) (arrival : Arrival) (events : List Event)
    (h : conn.handleRequest arrival = .ok (after, events)) :
    RejectedUnchanged conn after events ↔ ¬ LateRecord conn arrival.request := by
  constructor
  · intro hunchanged hlate
    exact late_record_changes h hlate hunchanged
  · exact rejected_unchanged h

end Rejection

/-- The session that the examples are about. -/
def sample (garbage : UInt64) : RtspConnect :=
  .create (ascii "66a1-1") (ascii "10.0.0.2") (ascii "10.0.0.1") garbage

/-- A request without a body that arrives when the next port is 10000 and the next descriptor 7. -/
def sampleArrival (lines : List String) : Arrival :=
  ⟨RtspRequest.bytes ⟨lines.map ascii, []⟩, 10000, ⟨7, 0⟩⟩

/-- The camera's SETUP of the video track. -/
def setupVideo : Arrival :=
  sampleArrival ["SETUP rtsp://10.0.0.1/trackID=0 RTSP/1.0", "CSeq: 3",
    "Transport: RTP/AVP/UDP;unicast;client_port=5004-5005"]

/-- The camera's RECORD. -/
def recordKcp : Arrival :=
  sampleArrival ["RECORD rtsp://10.0.0.1 RTSP/1.0", "CSeq: 4", "Session: 66a1-1", "KcpId: 17"]

/-- The camera's TEARDOWN. -/
def teardownSample : Arrival :=
  sampleArrival ["TEARDOWN rtsp://10.0.0.1 RTSP/1.0", "CSeq: 5", "Session: 66a1-1"]

/-- A RECORD without the id of the session changes nothing. -/
theorem rejected_unchanged_no_session :
    RejectedUnchanged (sample 0) (sample 0)
      [.sendResponse ⟨454, ascii "Session Not Found", [], 4⟩] := by
  have hrequest : (sample 0).handleRequest (sampleArrival ["RECORD rtsp://10.0.0.1 RTSP/1.0",
      "CSeq: 4"]) = .ok (sample 0, [.sendResponse ⟨454, ascii "Session Not Found", [], 4⟩]) := by
    decide +kernel
  refine (rejected_unchanged_iff _ _ _ _ hrequest).2 ?_
  rintro ⟨-, kcpId, haction⟩
  have hrefused : action (sample 0).sessionId (sampleArrival ["RECORD rtsp://10.0.0.1 RTSP/1.0",
      "CSeq: 4"]).request = .refuse 454 (ascii "Session Not Found") := by
    decide +kernel
  rw [hrefused] at haction
  cases haction

/-- After SETUP, RECORD and TEARDOWN the state is still PLAYING: one more RECORD is answered 455 and
starts a thread. -/
theorem rejected_unchanged_fails_late_record :
    ¬ ∀ (garbage : UInt64) (arrivals : List Arrival) (before after : RtspConnect)
      (past events : List Event) (arrival : Arrival),
      Machine.run handleRequest (sample garbage) arrivals = .ok (before, past) →
      before.handleRequest arrival = .ok (after, events) →
      RejectedUnchanged before after events := by
  intro h
  let video : UdpConnection := ⟨⟨7, 0⟩, ascii "10.0.0.1", 10000, ascii "10.0.0.2", 5004⟩
  let torn : RtspConnect :=
    { sample 0 with
      state := .playing
      transportType := ascii "UDP"
      videoRtpConn := some video
      camKcp := .null
      callbacks := [video] }
  have hrun : (Machine.run handleRequest (sample 0)
      [setupVideo, recordKcp, teardownSample]).map Prod.fst = .ok torn := by
    decide +kernel
  have hlast : (torn.handleRequest recordKcp).map Prod.fst =
      .ok (torn.recording video (.block 17 (some video))) := by
    decide +kernel
  obtain ⟨past, hpast⟩ := Machine.of_map_fst hrun
  obtain ⟨events, hevents⟩ := Machine.of_map_fst hlast
  have haction : action torn.sessionId recordKcp.request = .record (some (ascii "17")) := by
    decide +kernel
  exact late_record_changes hevents ⟨by decide, _, haction⟩ (h _ _ _ _ _ _ _ hpast hevents)

/-! ## Safety of RECORD -/

/-- `handleRecord` overwrites no live control block, and the code that it installs finds a pointer
that it may use: the thread looks whether it is null, the callback does not. -/
def SafeEvent : Event → Prop
  | .ikcpCreate _ replaced => replaced.live = false
  | .startKcpThread camKcp => camKcp.live ∨ camKcp = .null
  | .setMessageCallback _ camKcp => camKcp.live
  | _ => True

/-- One request handled without any of the things that `handleRecord` must not do. The one fault
that is left is not its own. -/
def Safe (result : Except Fault (RtspConnect × List Event)) : Prop :=
  match result with
  | .error fault => fault = .wildRelease
  | .ok (_, events) => ∀ event ∈ events, SafeEvent event

/-- What the requests so far have set up: a SETUP of the video track over UDP has come, and a
RECORD since the start or the last TEARDOWN. -/
structure Progress where
  video : Bool
  receiving : Bool

/-- After one more request. -/
def Progress.next (progress : Progress) (asked : Action) : Progress :=
  match asked with
  | .setup url transport =>
      { progress with video := progress.video || udpTrack url transport == some .video }
  | .record _ => { progress with receiving := true }
  | .teardown => { progress with receiving := false }
  | _ => progress

/-- A RECORD that comes in its place: after the SETUP of the video track, not twice, and with a
`KcpId` that is a number. -/
def Progress.Sound (progress : Progress) (asked : Action) : Prop :=
  match asked with
  | .record kcpId =>
      progress.video = true ∧ progress.receiving = false ∧
        ∃ text conv, kcpId = some text ∧ kcpConv 64 text = .ok conv
  | _ => True

section Safety

variable {conn after : RtspConnect} {progress : Progress} {arrival : Arrival} {events : List Event}

/-- The video slot, the KCP thread and the control block are as the requests so far say. -/
structure Follows (conn : RtspConnect) (progress : Progress) : Prop where
  video : conn.videoRtpConn.isSome = progress.video
  thread : conn.kcpThread = progress.receiving
  kcp : conn.camKcp.live = progress.receiving

variable {arrivals : List Arrival}

/-- A null pointer in the memory of `_camKcp` lets no TEARDOWN end the program. -/
def Harmless (conn : RtspConnect) : Prop :=
  ∀ garbage, conn.camKcp = .uninitialised garbage → garbage = 0

end Safety

end CarDetect.Media
