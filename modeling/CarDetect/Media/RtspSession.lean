import CarDetect.Media.RtspConnect

/-!
# What a request does to a session

`action` reads off a request what it asks of a session, and `handle_request_eq` says that
`handleRequest` does just that. `Outcome` lists what each action does to the session, which calls it
makes and how it is answered; `handle_ok` says that a request which does not end the program has
such an outcome.
-/

namespace CarDetect.Media

open BigEndian ByteString Reactor

namespace RtspConnect

/-- What a request asks of the session with a given id. -/
inductive Action where
  | refuse (statusCode : Nat) (statusText : Bytes)
  | options
  | announce
  | setup (url : Bytes) (transport : Transport)
  | record (kcpId : Option Bytes)
  | teardown
deriving DecidableEq, Repr

/-- A SETUP must carry a transport that `parseTransport` accepts, a RECORD and a TEARDOWN the id of
the session. -/
def action (sessionId request : Bytes) : Action :=
  let parsed := parseRequest request
  let headers := parsed.headers
  if parsed.method = ascii "OPTIONS" then .options
  else if parsed.method = ascii "ANNOUNCE" then .announce
  else if parsed.method = ascii "SETUP" then
    match (headers (ascii "transport")).bind parseTransport with
    | some transport => .setup parsed.url transport
    | none => .refuse 400 (ascii "Bad Request")
  else if parsed.method = ascii "RECORD" then
    if checkSession sessionId headers then .record (headers (ascii "kcpid"))
    else .refuse 454 (ascii "Session Not Found")
  else if parsed.method = ascii "TEARDOWN" then
    if checkSession sessionId headers then .teardown else .refuse 454 (ascii "Session Not Found")
  else .refuse 501 (ascii "Not Implemented")

/-- The `CSeq` that the answer repeats. -/
def cseqOf (request : Bytes) : Int :=
  extractCSeq (parseRequest request).headers

/-- A session does what the request asks of it. -/
theorem handle_request_eq (conn : RtspConnect) (arrival : Arrival) :
    conn.handleRequest arrival =
      match action conn.sessionId arrival.request with
      | .refuse statusCode statusText =>
          .ok (conn, [.sendResponse ⟨statusCode, statusText, [], cseqOf arrival.request⟩])
      | .options => .ok (conn.handleOpitions (cseqOf arrival.request))
      | .announce =>
          .ok (conn.handleAnnounce arrival.request (parseRequest arrival.request).headers
            (cseqOf arrival.request))
      | .setup url transport =>
          .ok (conn.setupTransport url transport arrival (cseqOf arrival.request))
      | .record kcpId => conn.record kcpId (cseqOf arrival.request)
      | .teardown =>
          conn.releaseSession.map fun result =>
            (result.1, result.2 ++
              [.sendResponse ⟨200, ascii "OK", [], cseqOf arrival.request⟩]) := by
  unfold handleRequest action cseqOf
  simp only
  split
  · rfl
  split
  · rfl
  split
  · unfold handleSetup
    cases (parseRequest arrival.request).headers (ascii "transport") with
    | none => rfl
    | some text =>
        simp only [Option.bind_some]
        cases parseTransport text <;> rfl
  split
  · unfold handleRecord
    split <;> rfl
  split
  · unfold handleTeardown
    split <;> rfl
  · rfl

/-- Requests are refused with these status codes. -/
theorem action_refuse {sessionId request statusText : Bytes} {statusCode : Nat}
    (h : action sessionId request = .refuse statusCode statusText) :
    statusCode = 400 ∨ statusCode = 454 ∨ statusCode = 501 := by
  unfold action at h
  simp only at h
  split at h
  · cases h
  split at h
  · cases h
  split at h
  · split at h
    · cases h
    · cases h
      exact .inl rfl
  split at h
  · split at h
    · cases h
    · cases h
      exact .inr (.inl rfl)
  split at h
  · split at h
    · cases h
    · cases h
      exact .inr (.inl rfl)
  · cases h
    exact .inr (.inr rfl)

/-- The transports that a session is asked for are of type UDP or TCP. -/
theorem action_transport_type {sessionId request url : Bytes} {transport : Transport}
    (h : action sessionId request = .setup url transport) :
    transport.transportType = ascii "UDP" ∨ transport.transportType = ascii "TCP" := by
  unfold action at h
  simp only at h
  split at h
  · cases h
  split at h
  · cases h
  split at h
  · cases htext : (parseRequest request).headers (ascii "transport") with
    | none =>
        rw [htext, Option.bind_none] at h
        cases h
    | some text =>
        rw [htext, Option.bind_some] at h
        cases hparse : parseTransport text with
        | none =>
            rw [hparse] at h
            cases h
        | some parsed =>
            rw [hparse] at h
            cases h
            exact parse_transport_type hparse
  split at h
  · split at h <;> cases h
  split at h
  · split at h <;> cases h
  · cases h

/-! ## SETUP -/

/-- The tracks for which `handleSetup` opens a connection. -/
inductive Track where
  | video
  | audio
deriving DecidableEq, Repr

/-- The track for which a SETUP opens a connection. -/
def udpTrack (url : Bytes) (transport : Transport) : Option Track :=
  if transport.transportType = ascii "UDP" then
    if (find (ascii "trackID=0") url).isSome then some .video
    else if (find (ascii "trackID=1") url).isSome then some .audio
    else none
  else none

/-- The slot of a track. -/
def slot (conn : RtspConnect) : Track → Option UdpConnection
  | .video => conn.videoRtpConn
  | .audio => conn.audioRtpConn

/-- The slot of a track is filled. -/
def setSlot (conn : RtspConnect) (track : Track) (udp : UdpConnection) : RtspConnect :=
  match track with
  | .video => { conn with videoRtpConn := some udp }
  | .audio => { conn with audioRtpConn := some udp }

/-- A session after a SETUP, apart from its slots. -/
def setUp (conn : RtspConnect) (transport : Transport) : RtspConnect :=
  { conn with transportType := transport.transportType, state := .ready }

theorem setup_transport_udp (conn : RtspConnect) (url : Bytes) {transport : Transport}
    (arrival : Arrival) (cseq : Int) (htype : transport.transportType = ascii "UDP") :
    ∃ answer,
      setupTransport conn url transport arrival cseq =
        ({ (setupUdp { conn with transportType := transport.transportType } url transport
            arrival).1 with state := .ready },
          (setupUdp { conn with transportType := transport.transportType } url transport
            arrival).2.1 ++ [.sendResponse answer]) ∧
      answer.statusCode = 200 := by
  unfold setupTransport
  rw [if_pos htype]
  exact ⟨_, rfl, rfl⟩

theorem setup_transport_tcp (conn : RtspConnect) (url : Bytes) {transport : Transport}
    (arrival : Arrival) (cseq : Int) (htype : transport.transportType = ascii "TCP") :
    ∃ answer,
      setupTransport conn url transport arrival cseq =
        (conn.setUp transport, [.sendResponse answer]) ∧
      answer.statusCode = 200 := by
  have hudp : ¬ transport.transportType = ascii "UDP" := by
    rw [htype]
    decide
  unfold setupTransport
  rw [if_neg hudp, if_pos htype]
  exact ⟨_, rfl, rfl⟩

theorem server_ports_events (transport : Transport) (basePort offset : UInt16) :
    ∀ event ∈ (serverPorts transport basePort offset).1, event = .allocateUdpPorts := by
  unfold serverPorts
  split
  · exact List.forall_mem_singleton.2 rfl
  · simp

/-- A SETUP makes the session ready and is answered 200. With UDP it fills the slot of its track
with a connection on the new socket, which it adds to the event loop. -/
theorem setup_spec (conn : RtspConnect) (url : Bytes) {transport : Transport} (arrival : Arrival)
    (cseq : Int)
    (htype : transport.transportType = ascii "UDP" ∨ transport.transportType = ascii "TCP") :
    ∃ answer, answer.statusCode = 200 ∧
      match udpTrack url transport with
      | none =>
          setupTransport conn url transport arrival cseq =
            (conn.setUp transport, [.sendResponse answer])
      | some track =>
          ∃ (udp : UdpConnection) (allocated : List Event), udp.socket = arrival.socket ∧
            (∀ event ∈ allocated, event = .allocateUdpPorts) ∧
            setupTransport conn url transport arrival cseq =
              ((conn.setUp transport).setSlot track udp,
                allocated ++ [.addUdpConnection udp, .sendResponse answer]) := by
  rcases htype with htype | htype
  · obtain ⟨answer, hsetup, hanswer⟩ := setup_transport_udp conn url arrival cseq htype
    refine ⟨answer, hanswer, ?_⟩
    rw [hsetup]
    -- the video track is looked for first
    by_cases hvideo : (find (ascii "trackID=0") url).isSome
    · have htrack : udpTrack url transport = some .video := by
        rw [udpTrack, if_pos htype, if_pos hvideo]
      rw [htrack, setupUdp, if_pos hvideo]
      refine ⟨⟨arrival.socket, conn.serverIp, (serverPorts transport arrival.basePort 0).2.1,
        conn.clientIp, transport.clientRtpPort⟩, _, rfl,
        server_ports_events transport arrival.basePort 0, ?_⟩
      rw [List.append_assoc]
      rfl
    by_cases haudio : (find (ascii "trackID=1") url).isSome
    · have htrack : udpTrack url transport = some .audio := by
        rw [udpTrack, if_pos htype, if_neg hvideo, if_pos haudio]
      rw [htrack, setupUdp, if_neg hvideo, if_pos haudio]
      refine ⟨⟨arrival.socket, conn.serverIp, (serverPorts transport arrival.basePort 2).2.1,
        conn.clientIp, transport.clientRtpPort⟩, _, rfl,
        server_ports_events transport arrival.basePort 2, ?_⟩
      rw [List.append_assoc]
      rfl
    · have htrack : udpTrack url transport = none := by
        rw [udpTrack, if_pos htype, if_neg hvideo, if_neg haudio]
      rw [htrack, setupUdp, if_neg hvideo, if_neg haudio]
      rfl
  · obtain ⟨answer, hsetup, hanswer⟩ := setup_transport_tcp conn url arrival cseq htype
    have htrack : udpTrack url transport = none := by
      rw [udpTrack, htype]
      rfl
    refine ⟨answer, hanswer, ?_⟩
    rw [htrack]
    exact hsetup

/-! ## RECORD -/

/-- The pointer `_camKcp` that a RECORD works with, and the call that made it. -/
inductive KcpFor (conn : RtspConnect) (video : UdpConnection) :
    Option Bytes → CamKcp → List Event → Prop where
  | kept : KcpFor conn video none conn.camKcp []
  | created {text : Bytes} {conv : UInt32} (hconv : kcpConv 64 text = .ok conv) :
      KcpFor conn video (some text) (.block conv (some video)) [.ikcpCreate conv conn.camKcp]

/-- A session after a RECORD. -/
def recording (conn : RtspConnect) (video : UdpConnection) (camKcp : CamKcp) : RtspConnect :=
  { conn with
    camKcp := camKcp
    kcpRunning := true
    kcpThread := true
    callbacks := conn.callbacks.insert video
    state := if conn.state = .ready then .playing else conn.state }

theorem start_kcp_ok {conn after : RtspConnect} {cseq : Int} {events : List Event}
    (h : startKcp conn cseq = .ok (after, events)) :
    ∃ video answer, conn.kcpThread = false ∧ conn.videoRtpConn = some video ∧
      answer.statusCode = (if conn.state = .ready then 200 else 455) ∧
      after = conn.recording video conn.camKcp ∧
      events = [.startKcpThread conn.camKcp, .setMessageCallback video conn.camKcp,
        .sendResponse answer] := by
  unfold startKcp at h
  split at h
  · cases h
  rename_i hthread
  cases hvideo : conn.videoRtpConn with
  | none =>
      rw [hvideo] at h
      cases h
  | some video =>
      rw [hvideo] at h
      simp only at h
      split at h
      · rename_i hstate
        cases h
        exact ⟨video, _, by simpa using hthread, rfl, by rw [if_neg hstate],
          by simp [recording, hstate, hvideo], rfl⟩
      · rename_i hstate
        have hready : conn.state = .ready := not_not.1 hstate
        cases h
        exact ⟨video, _, by simpa using hthread, rfl, by rw [if_pos hready],
          by simp [recording, hready, hvideo], rfl⟩

/-- A RECORD that does not end the program finds no KCP thread and a video connection. It is
answered 200 in state READY and 455 in any other state, but in both cases the thread has been
started and the callback set. -/
theorem record_ok {conn after : RtspConnect} {kcpId : Option Bytes} {cseq : Int}
    {events : List Event} (h : record conn kcpId cseq = .ok (after, events)) :
    ∃ video camKcp created answer, conn.kcpThread = false ∧ conn.videoRtpConn = some video ∧
      KcpFor conn video kcpId camKcp created ∧
      answer.statusCode = (if conn.state = .ready then 200 else 455) ∧
      after = conn.recording video camKcp ∧
      events = created ++ [.startKcpThread camKcp, .setMessageCallback video camKcp,
        .sendResponse answer] := by
  cases kcpId with
  | none =>
      obtain ⟨video, answer, hthread, hvideo, hanswer, hafter, hevents⟩ := start_kcp_ok h
      exact ⟨video, _, [], answer, hthread, hvideo, .kept, hanswer, hafter, hevents⟩
  | some text =>
      unfold record at h
      simp only at h
      cases hconv : kcpConv 64 text with
      | error error =>
          rw [hconv] at h
          cases h
      | ok conv =>
          rw [hconv] at h
          simp only [initCamKcp] at h
          cases hstart : startKcp { conn with camKcp := .block conv conn.videoRtpConn } cseq with
          | error fault =>
              rw [hstart] at h
              cases h
          | ok result =>
              rw [hstart] at h
              cases h
              obtain ⟨video, answer, hthread, hvideo, hanswer, hafter, hevents⟩ :=
                start_kcp_ok hstart
              refine ⟨video, _, _, answer, hthread, hvideo, .created hconv, hanswer, ?_, ?_⟩
              · rw [← hvideo]
                exact hafter
              · rw [← hvideo, hevents]

/-- A session whose thread is stopped and whose KCP control block is released keeps its slots. -/
def released (conn : RtspConnect) : RtspConnect :=
  { conn with
    kcpRunning := false
    kcpThread := false
    camKcp := if conn.camKcp.live then .null else conn.camKcp }

/-- What `releaseSession` does, unless it finds garbage in `_camKcp`. -/
theorem release_ok {conn after : RtspConnect} {events : List Event}
    (h : releaseSession conn = .ok (after, events)) :
    after = conn.released ∧
      ∃ kcp, (∀ event ∈ kcp, event = .ikcpRelease) ∧
        events = [.removeCam conn.sessionId] ++ kcp ++ conn.slots.map .removeUdpConnection ++
          [.removeSession conn.sessionId] := by
  unfold releaseSession releaseKcp at h
  simp only at h
  cases hkcp : conn.camKcp with
  | uninitialised garbage =>
      rw [hkcp] at h
      simp only at h
      split at h
      · cases h
      · cases h
        exact ⟨by simp [released, hkcp, CamKcp.live], [], by simp, rfl⟩
  | null =>
      rw [hkcp] at h
      cases h
      exact ⟨by simp [released, hkcp, CamKcp.live], [], by simp, rfl⟩
  | block conv user =>
      rw [hkcp] at h
      cases h
      exact ⟨by simp [released, hkcp, CamKcp.live], [.ikcpRelease],
        List.forall_mem_singleton.2 rfl, rfl⟩

/-! ## Outcomes -/

/-- What an action does, for a request that arrives with this socket: the session after it, the
calls made before the answer, and the status code of the answer. -/
inductive Outcome (conn : RtspConnect) (socket : Socket) :
    Action → RtspConnect → List Event → Nat → Prop where
  | refused {statusCode : Nat} {statusText : Bytes} (hcode : statusCode ≠ 200) :
      Outcome conn socket (.refuse statusCode statusText) conn [] statusCode
  | options : Outcome conn socket .options conn [] 200
  | announced (sdp : Bytes) : Outcome conn socket .announce { conn with sdp := sdp } [] 200
  | setUp {url : Bytes} {transport : Transport} (htrack : udpTrack url transport = none) :
      Outcome conn socket (.setup url transport) (conn.setUp transport) [] 200
  | opened {url : Bytes} {transport : Transport} {track : Track} {udp : UdpConnection}
      {allocated : List Event} (htrack : udpTrack url transport = some track)
      (hsocket : udp.socket = socket)
      (hallocated : ∀ event ∈ allocated, event = .allocateUdpPorts) :
      Outcome conn socket (.setup url transport) ((conn.setUp transport).setSlot track udp)
        (allocated ++ [.addUdpConnection udp]) 200
  | recorded {kcpId : Option Bytes} {video : UdpConnection} {camKcp : CamKcp}
      {created : List Event} (hthread : conn.kcpThread = false)
      (hvideo : conn.videoRtpConn = some video) (hkcp : KcpFor conn video kcpId camKcp created) :
      Outcome conn socket (.record kcpId) (conn.recording video camKcp)
        (created ++ [.startKcpThread camKcp, .setMessageCallback video camKcp])
        (if conn.state = .ready then 200 else 455)
  | tornDown {kcp : List Event} (hkcp : ∀ event ∈ kcp, event = .ikcpRelease) :
      Outcome conn socket .teardown conn.released
        ([.removeCam conn.sessionId] ++ kcp ++ conn.slots.map .removeUdpConnection ++
          [.removeSession conn.sessionId]) 200

/-- A request that does not end the program has the outcome of its action. -/
theorem handle_ok {conn after : RtspConnect} {arrival : Arrival} {events : List Event}
    (h : conn.handleRequest arrival = .ok (after, events)) :
    ∃ calls answer, events = calls ++ [.sendResponse answer] ∧
      Outcome conn arrival.socket (action conn.sessionId arrival.request) after calls
        answer.statusCode := by
  rw [handle_request_eq] at h
  -- one case for each action, each with its constructor of the outcome
  cases haction : action conn.sessionId arrival.request with
  | refuse statusCode statusText =>
      rw [haction] at h
      cases h
      have hcodes := action_refuse haction
      exact ⟨[], _, rfl, .refused (by omega)⟩
  | options =>
      rw [haction] at h
      cases h
      exact ⟨[], _, rfl, .options⟩
  | announce =>
      rw [haction] at h
      cases h
      exact ⟨[], _, rfl, .announced _⟩
  | setup url transport =>
      rw [haction] at h
      obtain ⟨answer, hanswer, hsetup⟩ := setup_spec conn url arrival (cseqOf arrival.request)
        (action_transport_type haction)
      cases htrack : udpTrack url transport with
      | none =>
          rw [htrack] at hsetup
          simp only [hsetup, Except.ok.injEq, Prod.mk.injEq] at h
          obtain ⟨rfl, rfl⟩ := h
          exact ⟨[], answer, rfl, hanswer ▸ .setUp htrack⟩
      | some track =>
          rw [htrack] at hsetup
          obtain ⟨udp, allocated, hsocket, hallocated, hsetup⟩ := hsetup
          simp only [hsetup, Except.ok.injEq, Prod.mk.injEq] at h
          obtain ⟨rfl, rfl⟩ := h
          exact ⟨allocated ++ [.addUdpConnection udp], answer, by simp,
            hanswer ▸ .opened htrack hsocket hallocated⟩
  | record kcpId =>
      rw [haction] at h
      obtain ⟨video, camKcp, created, answer, hthread, hvideo, hkcp, hanswer, rfl, rfl⟩ :=
        record_ok h
      exact ⟨created ++ [.startKcpThread camKcp, .setMessageCallback video camKcp], answer, by simp,
        hanswer ▸ .recorded hthread hvideo hkcp⟩
  | teardown =>
      rw [haction] at h
      cases hrelease : conn.releaseSession with
      | error fault =>
          rw [hrelease] at h
          cases h
      | ok result =>
          obtain ⟨torn, calls⟩ := result
          obtain ⟨rfl, kcp, hkcp, rfl⟩ := release_ok hrelease
          rw [hrelease] at h
          cases h
          exact ⟨_, _, rfl, .tornDown hkcp⟩

/-- No request changes the id of its session. -/
theorem Outcome.session {conn after : RtspConnect} {socket : Socket} {asked : Action}
    {calls : List Event} {statusCode : Nat} (h : Outcome conn socket asked after calls statusCode) :
    after.sessionId = conn.sessionId := by
  cases h with
  | opened =>
      rename_i track _ _ _ _ _
      cases track <;> rfl
  | refused | options | announced | setUp | recorded | tornDown => rfl

/-- The calls before the answer are not answers. -/
theorem Outcome.quiet {conn after : RtspConnect} {socket : Socket} {asked : Action}
    {calls : List Event} {statusCode : Nat} (h : Outcome conn socket asked after calls statusCode)
    (response : Response) : .sendResponse response ∉ calls := by
  cases h with
  | refused | options | announced | setUp => simp
  | opened _ _ hallocated =>
      intro hmem
      rcases List.mem_append.1 hmem with hmem | hmem
      · cases hallocated _ hmem
      · simp at hmem
  | recorded _ _ hkcp => cases hkcp <;> simp
  | tornDown hkcp =>
      intro hmem
      simp only [List.mem_append, List.mem_singleton, List.mem_map, reduceCtorEq, false_or,
        or_false, and_false, exists_false] at hmem
      cases hkcp _ hmem

end RtspConnect

end CarDetect.Media
