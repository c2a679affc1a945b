import CarDetect.Monitor.MonitorServer

/-!
# What the server does with a request

`register_cam_ok` says what one header of a MESSAGE or an ADDCAM does to the client that sent it,
and `receive_ok` what the bytes of one `recv` do: a text is taken from the buffer and parsed, and
the server answers it, registers the cameras that it names or does nothing.
-/

namespace CarDetect.Monitor

open BigEndian ByteString Reactor Std

/-! ## Headers of a registration -/

section Register

variable {client after : QtClient} {created next : Nat} {header : Bytes × Bytes}
  {events : List Event}

/-- The ports and the conversation that a header announces. -/
structure Announces (value : Bytes) (rtpPort rtcpPort conv : Nat) : Prop where
  rtp : portNumber (getfields 32 value) 0 = .ok rtpPort
  rtcp : portNumber (getfields 32 value) 1 = .ok rtcpPort
  conv : portNumber (getfields 32 value) 2 = .ok conv

/-- A header other than `cseq` stores a session with the announced ports under its name, unless the
thread of a session that stands there is joinable. -/
theorem register_cam_ok
    (h : registerCam (client, created) header = .ok ((after, next), events)) :
    header.1 = ascii "cseq" ∧ after = client ∧ next = created ∧ events = [] ∨
      header.1 ≠ ascii "cseq" ∧ ∃ rtpPort rtcpPort conv, Announces header.2 rtpPort rtcpPort conv ∧
        (∀ old, client.sessionMap[header.1]? = some old → old.kcpThread = none) ∧
        after = { client with
          sessionMap := client.sessionMap.insert header.1
            (.create client.clientIp rtpPort rtcpPort conv created) } ∧
        next = created + 1 ∧
        events = [.ikcpCreate created conv.toUInt32, .startThread created] := by
  obtain ⟨sessionId, value⟩ := header
  unfold registerCam at h
  simp only at h
  split at h
  · rename_i hcseq
    cases h
    exact .inl ⟨hcseq, rfl, rfl, rfl⟩
  · rename_i hcseq
    cases hrtp : portNumber (getfields 32 value) 0 with
    | error fault =>
        rw [hrtp] at h
        cases h
    | ok rtpPort =>
        cases hrtcp : portNumber (getfields 32 value) 1 with
        | error fault =>
            rw [hrtp, hrtcp] at h
            cases h
        | ok rtcpPort =>
            simp only [hrtp, hrtcp, bind, Except.bind] at h
            split at h
            · cases h
            rename_i hfree
            cases hconv : portNumber (getfields 32 value) 2 with
            | error fault =>
                rw [hconv] at h
                cases h
            | ok conv =>
                rw [hconv] at h
                cases h
                refine .inr ⟨hcseq, rtpPort, rtcpPort, conv, ⟨hrtp, hrtcp, hconv⟩, ?_,
                  rfl, rfl, rfl⟩
                intro old hold
                rw [hold] at hfree
                simpa using hfree

/-- A header that announces its ports is registered, when no session with a joinable thread stands
under its name. -/
theorem register_cam_complete {rtpPort rtcpPort conv : Nat} (hcseq : header.1 ≠ ascii "cseq")
    (hports : Announces header.2 rtpPort rtcpPort conv)
    (hfree : ∀ old, client.sessionMap[header.1]? = some old → old.kcpThread = none) :
    registerCam (client, created) header =
      .ok (({ client with
          sessionMap := client.sessionMap.insert header.1
            (.create client.clientIp rtpPort rtcpPort conv created) }, created + 1),
        [.ikcpCreate created conv.toUInt32, .startThread created]) := by
  obtain ⟨sessionId, value⟩ := header
  have hthread : ¬ (client.sessionMap[sessionId]?.any fun old => old.kcpThread.isSome) := by
    rw [Option.any_eq_true]
    rintro ⟨old, hold, hjoinable⟩
    rw [hfree old hold] at hjoinable
    cases hjoinable
  unfold registerCam
  simp only [if_neg hcseq, hports.rtp, hports.rtcp, hports.conv, bind, Except.bind, if_neg hthread]
  rfl

theorem port_number_error {ports : List Bytes} {index : Nat} {fault : Fault}
    (h : portNumber ports index = .error fault) : fault ≠ .joinableThread := by
  unfold portNumber at h
  split at h
  · cases h
    simp
  · split at h
    · cases h
      simp
    · cases h

/-- Only a session that stands under the name of a camera makes its registration destroy a joinable
thread. -/
theorem register_cam_joinable {state : QtClient × Nat}
    (h : registerCam state header = .error .joinableThread) :
    header.1 ≠ ascii "cseq" ∧ ∃ old, state.1.sessionMap[header.1]? = some old := by
  obtain ⟨client, created⟩ := state
  obtain ⟨sessionId, value⟩ := header
  unfold registerCam at h
  simp only at h
  split at h
  · cases h
  rename_i hcseq
  refine ⟨hcseq, ?_⟩
  cases hrtp : portNumber (getfields 32 value) 0 with
  | error fault =>
      rw [hrtp] at h
      cases h
      exact absurd rfl (port_number_error hrtp)
  | ok rtpPort =>
      cases hrtcp : portNumber (getfields 32 value) 1 with
      | error fault =>
          rw [hrtp, hrtcp] at h
          cases h
          exact absurd rfl (port_number_error hrtcp)
      | ok rtcpPort =>
          simp only [hrtp, hrtcp, bind, Except.bind] at h
          split at h
          · rename_i hold
            rw [Option.any_eq_true] at hold
            exact hold.imp fun _ hany => hany.1
          · cases hconv : portNumber (getfields 32 value) 2 with
            | error fault =>
                rw [hconv] at h
                cases h
                exact absurd rfl (port_number_error hconv)
            | ok conv =>
                rw [hconv] at h
                cases h

/-- A session stays when no header but `cseq` has its name. -/
theorem register_untouched {state final : QtClient × Nat} {headers : List (Bytes × Bytes)}
    {name : Bytes} (hother : ∀ header ∈ headers, header.1 ≠ ascii "cseq" → header.1 ≠ name)
    (h : Machine.run registerCam state headers = .ok (final, events)) :
    final.1.sessionMap[name]? = state.1.sessionMap[name]? ∧
      final.1.clientIp = state.1.clientIp := by
  refine (Machine.run_invariant (fun other : QtClient × Nat =>
    other.1.sessionMap[name]? = state.1.sessionMap[name]? ∧ other.1.clientIp = state.1.clientIp)
    (fun _ => True) (fun header => header.1 ≠ ascii "cseq" → header.1 ≠ name) ?_ ⟨rfl, rfl⟩ hother
    h).1
  rintro ⟨before, count⟩ header ⟨following, later⟩ out hbefore hname hstep
  refine ⟨?_, fun _ _ => trivial⟩
  rcases register_cam_ok hstep with ⟨-, rfl, -, -⟩ | ⟨hcseq, _, _, _, -, -, rfl, -, -⟩
  · exact hbefore
  · refine ⟨?_, hbefore.2⟩
    rw [TreeMap.getElem?_insert, if_neg (by simpa using hname hcseq)]
    exact hbefore.1

/-- Registrations under other names leave a session alone. -/
theorem register_other {state final : QtClient × Nat} {headers : List (Bytes × Bytes)}
    {name : Bytes} (hother : ∀ header ∈ headers, header.1 ≠ name)
    (h : Machine.run registerCam state headers = .ok (final, events)) :
    final.1.sessionMap[name]? = state.1.sessionMap[name]? :=
  (register_untouched (fun header hheader _ => hother header hheader) h).1

/-- Each header but `cseq` has stored a session with the ports that it announces. -/
theorem register_entries {state final : QtClient × Nat} {headers : List (Bytes × Bytes)}
    (hdistinct : headers.Pairwise fun header other => header.1 ≠ other.1)
    (h : Machine.run registerCam state headers = .ok (final, events)) (hheader : header ∈ headers)
    (hcseq : header.1 ≠ ascii "cseq") :
    ∃ rtpPort rtcpPort conv number, Announces header.2 rtpPort rtcpPort conv ∧
      final.1.sessionMap[header.1]? =
        some (.create state.1.clientIp rtpPort rtcpPort conv number) := by
  obtain ⟨past, rest, rfl⟩ := List.append_of_mem hheader
  obtain ⟨⟨before, count⟩, _, _, hpast, hlast, -⟩ := Machine.run_append_inv h
  obtain ⟨⟨following, later⟩, _, _, hstep, hrest, -⟩ := Machine.run_cons_inv hlast
  have hip : before.clientIp = state.1.clientIp := by
    have hbefore : ∀ other ∈ past, other.1 ≠ ascii "cseq" → other.1 ≠ header.1 :=
      fun other hother _ =>
        (List.pairwise_append.1 hdistinct).2.2 other hother header List.mem_cons_self
    exact (register_untouched hbefore hpast).2
  have hstays : final.1.sessionMap[header.1]? = following.sessionMap[header.1]? := by
    refine (register_untouched (fun other hother _ => ?_) hrest).1
    exact ((List.pairwise_cons.1 (List.pairwise_append.1 hdistinct).2.1).1 other hother).symm
  rcases register_cam_ok hstep with ⟨hskip, -⟩ | ⟨-, rtpPort, rtcpPort, conv, hports, -, hafter, -⟩
  · exact absurd hskip hcseq
  · refine ⟨rtpPort, rtcpPort, conv, count, hports, ?_⟩
    rw [hstays, hafter, TreeMap.getElem?_insert_self, hip]

/-- The registrations of a request destroy no joinable thread when it names only cameras for which
the client has no session. -/
theorem register_new {headers : Headers}
    (hnew : ∀ name ∈ headers, name ≠ ascii "cseq" → client.sessionMap[name]? = none) :
    registerCams client created headers ≠ .error .joinableThread := by
  intro h
  obtain ⟨past, header, rest, state, out, hlist, hpast, hstep⟩ := Machine.run_error_inv h
  obtain ⟨hcseq, old, hold⟩ := register_cam_joinable hstep
  have hdistinct : ∀ other ∈ past, other.1 ≠ header.1 := by
    have hkeys := TreeMap.distinct_keys_toList (t := headers)
    rw [hlist] at hkeys
    intro other hother heq
    refine (List.pairwise_append.1 hkeys).2.2 other hother header List.mem_cons_self ?_
    rw [heq, ReflOrd.compare_self]
  have hmem : header.1 ∈ headers := by
    rw [TreeMap.mem_iff_isSome_getElem?]
    have hentry : header ∈ headers.toList := by simp [hlist]
    rw [TreeMap.mem_toList_iff_getElem?_eq_some.1 hentry]
    rfl
  rw [register_other hdistinct hpast, hnew header.1 hmem hcseq] at hold
  cases hold

/-- Registrations change nothing of a client but its sessions, and parse and send nothing. -/
theorem register_frame {headers : Headers}
    (h : registerCams client created headers = .ok ((after, next), events)) :
    (after.clientIp = client.clientIp ∧ after.buffer = client.buffer ∧ after.cseq = client.cseq) ∧
      ∀ event ∈ events, (∃ block conv, event = .ikcpCreate block conv) ∨
        ∃ thread, event = .startThread thread := by
  refine Machine.run_invariant
    (fun state => state.1.clientIp = client.clientIp ∧ state.1.buffer = client.buffer ∧
      state.1.cseq = client.cseq)
    (fun event => (∃ block conv, event = .ikcpCreate block conv) ∨
      ∃ thread, event = .startThread thread)
    (fun _ => True) ?_ ⟨rfl, rfl, rfl⟩ (fun _ _ => trivial) h
  rintro ⟨before, count⟩ header ⟨following, later⟩ out hbefore - hstep
  rcases register_cam_ok hstep with ⟨-, rfl, rfl, rfl⟩ | ⟨-, _, _, _, -, -, rfl, rfl, rfl⟩
  · exact ⟨hbefore, by simp⟩
  · exact ⟨hbefore, by simp⟩

end Register

/-! ## Bytes of a client -/

/-- The client that a request finds: its buffer without the text, and its request counted. -/
def QtClient.reading (client : QtClient) (chunk : Bytes) : QtClient :=
  { client with buffer := (takeRequest client.buffer chunk).2, cseq := client.cseq + 1 }

/-- The requests that register cameras. -/
def ParsedRequest.Registers (request : ParsedRequest) : Prop :=
  request.method = ascii "MESSAGE" ∨ request.method = ascii "ADDCAM"

/-- `parseRequest` throws nothing else. -/
theorem parse_error {request : Bytes} {fault : Fault} (h : parseRequest request = .error fault) :
    fault = .outOfRange := by
  have hheaders : ∀ {headers : Headers} {lines : List Bytes},
      parseHeaders headers lines = .error fault → fault = .outOfRange := by
    intro headers lines h
    induction lines generalizing headers with
    | nil => cases h
    | cons line rest ih =>
        rw [parseHeaders] at h
        split at h
        · cases h
        split at h
        · rename_i other hline
          cases h
          unfold parseHeader at hline
          split at hline
          · cases hline
          · split at hline
            · cases hline
              rfl
            · cases hline
        · exact ih h
  unfold parseRequest at h
  split at h
  · cases h
  · rename_i line rest hlines
    simp only at h
    cases hrest : parseHeaders ∅ rest with
    | error other =>
        rw [hrest] at h
        cases h
        exact hheaders hrest
    | ok headers =>
        rw [hrest] at h
        cases h

namespace MonitorServer

variable {server next : MonitorServer} {fd : Int} {client : QtClient} {chunk : Bytes}
  {request : ParsedRequest} {events : List Event}

/-- A MESSAGE or an ADDCAM registers the cameras that its headers name. -/
theorem handle_register (server : MonitorServer) (fd : Int) (client : QtClient)
    (h : request.Registers) :
    server.handleRequest fd client request =
      (registerCams client server.created request.headers).map fun result =>
        ({ server with
          qtClients := server.qtClients.insert fd result.1.1, created := result.1.2 },
         result.2) := by
  have hsetup : request.method ≠ ascii "SETUP" := by
    rcases h with h | h <;> rw [h] <;> decide
  unfold handleRequest
  simp only [if_neg hsetup]
  split
  · rfl
  · rename_i hmessage
    rw [if_pos (h.resolve_left hmessage)]

/-- Any other request is answered with the cameras, or not at all. -/
theorem handle_quiet (server : MonitorServer) (fd : Int) (client : QtClient)
    (h : ¬ request.Registers) :
    ∃ calls, server.handleRequest fd client request =
        .ok ({ server with qtClients := server.qtClients.insert fd client }, calls) ∧
      ∀ call ∈ calls, call = .send fd (respondText (setupHeaders server.cams) client.cseq) := by
  obtain ⟨hmessage, haddcam⟩ := not_or.1 h
  unfold handleRequest
  simp only [if_neg hmessage, if_neg haddcam]
  split
  · exact ⟨_, rfl, List.forall_mem_singleton.2 rfl⟩
  · exact ⟨[], rfl, by simp⟩

/-- What the bytes of one `recv` do. -/
theorem receive_ok (hne : chunk ≠ [])
    (h : server.receive fd client (.bytes chunk) = .ok (next, events)) :
    ∃ parsed after created calls, parseRequest (takeRequest client.buffer chunk).1 = .ok parsed ∧
      (parsed.Registers ∧
          registerCams (client.reading chunk) server.created parsed.headers =
            .ok ((after, created), calls) ∨
        ¬ parsed.Registers ∧ after = client.reading chunk ∧ created = server.created ∧
          ∀ call ∈ calls, call = .send fd (respondText (setupHeaders server.cams)
            (client.cseq + 1))) ∧
      next = { server with qtClients := server.qtClients.insert fd after, created := created } ∧
      events = .parseRequest fd (takeRequest client.buffer chunk).1 :: calls := by
  have hbytes : server.handleBytes fd client chunk = .ok (next, events) := by
    cases chunk with
    | nil => exact absurd rfl hne
    | cons byte rest => exact h
  unfold handleBytes at hbytes
  simp only at hbytes
  cases hparse : parseRequest (takeRequest client.buffer chunk).1 with
  | error fault =>
      rw [hparse] at hbytes
      cases hbytes
  | ok parsed =>
      rw [hparse] at hbytes
      change (server.handleRequest fd (client.reading chunk) parsed).map _ = _ at hbytes
      by_cases hregisters : parsed.Registers
      · rw [handle_register server fd _ hregisters] at hbytes
        cases hrun : registerCams (client.reading chunk) server.created parsed.headers with
        | error fault =>
            rw [hrun] at hbytes
            cases hbytes
        | ok result =>
            rw [hrun] at hbytes
            cases hbytes
            exact ⟨parsed, result.1.1, result.1.2, result.2, rfl, .inl ⟨hregisters, hrun⟩, rfl, rfl⟩
      · obtain ⟨calls, hquiet, hcalls⟩ := handle_quiet server fd (client.reading chunk) hregisters
        rw [hquiet] at hbytes
        cases hbytes
        exact ⟨parsed, _, _, calls, rfl, .inr ⟨hregisters, rfl, rfl, hcalls⟩, rfl, rfl⟩

/-- How the bytes of one `recv` end the program: the text cannot be parsed, or a camera that it
names cannot be registered. -/
theorem receive_error {fault : Fault} (hne : chunk ≠ [])
    (h : server.receive fd client (.bytes chunk) = .error fault) :
    parseRequest (takeRequest client.buffer chunk).1 = .error fault ∨
      ∃ parsed, parseRequest (takeRequest client.buffer chunk).1 = .ok parsed ∧ parsed.Registers ∧
        registerCams (client.reading chunk) server.created parsed.headers = .error fault := by
  have hbytes : server.handleBytes fd client chunk = .error fault := by
    cases chunk with
    | nil => exact absurd rfl hne
    | cons byte rest => exact h
  unfold handleBytes at hbytes
  simp only at hbytes
  cases hparse : parseRequest (takeRequest client.buffer chunk).1 with
  | error other =>
      rw [hparse] at hbytes
      cases hbytes
      exact .inl rfl
  | ok parsed =>
      rw [hparse] at hbytes
      change (server.handleRequest fd (client.reading chunk) parsed).map _ = _ at hbytes
      by_cases hregisters : parsed.Registers
      · rw [handle_register server fd _ hregisters] at hbytes
        cases hrun : registerCams (client.reading chunk) server.created parsed.headers with
        | error other =>
            rw [hrun] at hbytes
            cases hbytes
            exact .inr ⟨parsed, rfl, hregisters, hrun⟩
        | ok result =>
            rw [hrun] at hbytes
            cases hbytes
      · obtain ⟨calls, hquiet, -⟩ := handle_quiet server fd (client.reading chunk) hregisters
        rw [hquiet] at hbytes
        cases hbytes

/-! ## Steps -/

/-- What a step that succeeds does. -/
inductive Serves (server : MonitorServer) : Input → MonitorServer → List Event → Prop where
  | accept (fd : Int) (clientIp : Bytes) (hfree : server.qtClients[fd]? = none) :
      Serves server (.accept fd clientIp)
        { server with qtClients := server.qtClients.insert fd ⟨clientIp, ∅, [], 0⟩ } []
  | close (fd : Int) (client : QtClient) (hclient : server.qtClients[fd]? = some client) :
      Serves server (.receive fd (.bytes [])) (server.closeClient fd client).1
        (server.closeClient fd client).2
  | bytes (fd : Int) (client : QtClient) (chunk : Bytes) (next : MonitorServer)
      (events : List Event) (hclient : server.qtClients[fd]? = some client) (hne : chunk ≠ [])
      (h : server.receive fd client (.bytes chunk) = .ok (next, events)) :
      Serves server (.receive fd (.bytes chunk)) next events
  | datagram (stale datagram : Bytes) (events : List Event) (hevents : ∀ event ∈ events,
      ∃ fd sessionId, event = .ikcpInput fd sessionId (datagram.take udpBufferSize)) :
      Serves server (.datagram stale datagram) server events
  | addCam (sessionId stringName : Bytes) : Serves server (.addCam sessionId stringName)
      (server.addCam sessionId stringName).1 (server.addCam sessionId stringName).2
  | removeCam (sessionId : Bytes) :
      Serves server (.removeCam sessionId) (server.removeCam sessionId).1
      (server.removeCam sessionId).2

theorem step_ok {input : Input} (h : server.step input = .ok (next, events)) :
    Serves server input next events := by
  cases input with
  | accept fd clientIp =>
      simp only [step] at h
      split at h
      · cases h
      · rename_i hfree
        cases h
        rw [TreeMap.contains_eq_isSome_getElem?] at hfree
        exact .accept fd clientIp (by simpa using hfree)
  | receive fd result =>
      simp only [step] at h
      split at h
      · cases h
      · rename_i client hclient
        split at h
        · cases h
        · rename_i outcome houtcome
          cases h
          -- a result of 0 ends the connection, and a negative one has not succeeded
          cases result with
          | failed => cases houtcome
          | bytes chunk =>
              by_cases hchunk : chunk = []
              · subst hchunk
                cases houtcome
                exact .close fd client hclient
              · exact .bytes fd client chunk next events hclient hchunk houtcome
  | datagram stale datagram =>
      simp only [step] at h
      split at h
      · cases h
      · rename_i calls hcalls
        cases h
        refine .datagram stale datagram events fun event hevent => ?_
        unfold receiveDatagram at hcalls
        simp only at hcalls
        split at hcalls
        · cases hcalls
          cases hevent
        · split at hcalls
          · cases hcalls
          · cases hcalls
            exact ⟨_, _, List.mem_singleton.1 hevent⟩
  | addCam sessionId stringName =>
      cases h
      exact .addCam sessionId stringName
  | removeCam sessionId =>
      cases h
      exact .removeCam sessionId

/-- The calls that stop a session. -/
theorem stop_events (session : UdpSession) :
    ∀ event ∈ session.stop.2, (∃ thread, event = .joinThread thread) ∨
      ∃ block, event = .ikcpRelease block := by
  intro event hevent
  rcases List.mem_append.1 hevent with hevent | hevent
  · obtain ⟨thread, -, rfl⟩ := List.mem_map.1 hevent
    exact .inl ⟨thread, rfl⟩
  · obtain ⟨block, -, rfl⟩ := List.mem_map.1 hevent
    exact .inr ⟨block, rfl⟩

/-- An announcement keeps the sessions and the buffer, and sends at most the request. -/
theorem announce_frame (text sessionId : Bytes) (fd : Int) (client : QtClient) :
    (announceCam text sessionId fd client).1.sessionMap = client.sessionMap ∧
      (announceCam text sessionId fd client).1.buffer = client.buffer ∧
      ∀ event ∈ (announceCam text sessionId fd client).2,
        event = .send fd (addCamReq text sessionId (client.cseq + 1)) := by
  unfold announceCam
  split
  · exact ⟨rfl, rfl, by simp⟩
  · exact ⟨rfl, rfl, fun event hevent => List.mem_singleton.1 hevent⟩

/-- A withdrawal keeps the buffer and all sessions but one, which it stops. -/
theorem withdraw_frame (text sessionId : Bytes) (fd : Int) (client : QtClient) :
    (∀ (other : Bytes) session,
      (withdrawCam text sessionId fd client).1.sessionMap[other]? = some session →
        client.sessionMap[other]? = some session) ∧
      (withdrawCam text sessionId fd client).1.buffer = client.buffer ∧
      ∀ event ∈ (withdrawCam text sessionId fd client).2,
        event = .send fd (removeCamReq text sessionId client.cseq) ∨
          (∃ thread, event = .joinThread thread) ∨ ∃ block, event = .ikcpRelease block := by
  unfold withdrawCam
  split
  · exact ⟨fun _ _ hother => hother, rfl, by simp⟩
  · rename_i session _
    refine ⟨fun other kept hother => ?_, rfl, fun event hevent => ?_⟩
    · rw [TreeMap.getElem?_erase] at hother
      split at hother
      · cases hother
      · exact hother
    · rcases List.mem_cons.1 hevent with heq | hstop
      · exact .inl heq
      · exact .inr (stop_events session event hstop)

end MonitorServer

end CarDetect.Monitor
