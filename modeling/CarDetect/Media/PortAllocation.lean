import CarDetect.Media.MediaServer
import CarDetect.Media.SessionLaws

/-!
# The server ports of UDP tracks

A SETUP over UDP that names no `server_port` gets the ports that `allocateUdpPorts` counts out.
`assigned_answered` ties these ports to the answer and to the new connection, `assigned_run` says
which ports a run of the server assigns, and `ports_good_iff` says when they do not collide: the
counter moves on by two for each track, but an audio track takes the two ports after these.
-/

namespace CarDetect.Media

open BigEndian ByteString Reactor RtspConnect MediaServer

/-- The distance of a track's ports from the port allocated. -/
def RtspConnect.Track.offset : Track → UInt16
  | .video => 0
  | .audio => 2

/-- The server ports of a SETUP over UDP, for RTP and for RTCP. -/
def RtspConnect.assigned (conn : RtspConnect) (arrival : Arrival) : Option (UInt16 × UInt16) :=
  match action conn.sessionId arrival.request with
  | .setup url transport =>
      (udpTrack url transport).map fun track =>
        (serverPorts transport arrival.basePort track.offset).2
  | _ => none

/-- The ports that an input assigns. -/
def MediaServer.assigned (server : MediaServer) : Input → List (UInt16 × UInt16)
  | .request i request fd =>
      match server.sessions[i]? with
      | some (some conn) => (conn.assigned (server.arrival request fd)).toList
      | _ => []
  | _ => []

/-- A step of the server, with the ports that it assigns. -/
def assignPorts (server : MediaServer) (input : Input) :
    Except Halt (MediaServer × List (UInt16 × UInt16)) :=
  (server.step input).map fun result => (result.1, server.assigned input)

/-- The pairs have no port in common. -/
def Apart (pair other : UInt16 × UInt16) : Prop :=
  pair.1 ≠ other.1 ∧ pair.1 ≠ other.2 ∧ pair.2 ≠ other.1 ∧ pair.2 ≠ other.2

/-- Port pairs as they should be. Ports have 16 bits, so none is above 65535. -/
structure PortsGood (pairs : List (UInt16 × UInt16)) : Prop where
  disjoint : pairs.Pairwise Apart
  even : ∀ pair ∈ pairs, 2 ∣ pair.1.toNat
  range : ∀ pair ∈ pairs, 10000 ≤ pair.1 ∧ 10000 ≤ pair.2

/-- The track that a request sets up over UDP. -/
def setupTrack (request : Bytes) : Option Track :=
  match action [] request with
  | .setup url transport => udpTrack url transport
  | _ => none

/-- The tracks that the inputs set up over UDP. -/
def tracksOf (inputs : List Input) : List Track :=
  inputs.filterMap fun input =>
    match input with
    | .request _ request _ => setupTrack request
    | _ => none

/-- A SETUP over UDP names no server port. -/
def Input.NamesNoPort (input : Input) : Prop :=
  ∀ i request fd url transport, input = .request i request fd →
    action [] request = .setup url transport → udpTrack url transport ≠ none →
    transport.serverRtpPort = 0

/-! ## One request -/

section Request

variable {conn after : RtspConnect} {url : Bytes} {transport : Transport} {arrival : Arrival}
  {track : Track}

/-- What a SETUP asks for does not depend on the session. -/
theorem action_setup_iff (sessionId other request url : Bytes) (transport : Transport) :
    action sessionId request = .setup url transport ↔
      action other request = .setup url transport := by
  unfold action
  simp only
  split_ifs <;> simp

/-- The connection that a SETUP over UDP opens. -/
def udpConnection (conn : RtspConnect) (transport : Transport) (arrival : Arrival)
    (rtpPort : UInt16) : UdpConnection :=
  ⟨arrival.socket, conn.serverIp, rtpPort, conn.clientIp, transport.clientRtpPort⟩

/-- The answer to a SETUP over UDP. -/
def setupAnswer (conn : RtspConnect) (transport : Transport) (ports : UInt16 × UInt16)
    (cseq : Int) : Response where
  statusCode := 200
  statusText := ascii "OK"
  extraHeaders :=
    [(ascii "Session", conn.sessionId ++ ascii ";timeout=60"),
      (ascii "Transport", ascii "RTP/AVP/UDP;unicast;client_port=" ++
        printNat transport.clientRtpPort.toNat ++ ascii "-" ++
        printNat transport.clientRtcpPort.toNat ++ ascii ";server_port=" ++
        printNat ports.1.toNat ++ ascii "-" ++ printNat ports.2.toNat)]
  cseq := cseq

/-- A SETUP that opens a track binds its RTP port and names both ports in its answer. -/
theorem setup_ports (conn : RtspConnect) (arrival : Arrival) (cseq : Int)
    (htrack : udpTrack url transport = some track) :
    setupTransport conn url transport arrival cseq =
      ((conn.setUp transport).setSlot track (udpConnection conn transport arrival
          (serverPorts transport arrival.basePort track.offset).2.1),
        (serverPorts transport arrival.basePort track.offset).1 ++
          [.addUdpConnection (udpConnection conn transport arrival
              (serverPorts transport arrival.basePort track.offset).2.1),
            .sendResponse (setupAnswer conn transport
              (serverPorts transport arrival.basePort track.offset).2 cseq)]) := by
  unfold udpTrack at htrack
  split at htrack
  · rename_i htype
    unfold setupTransport setupUdp
    simp only [if_pos htype]
    split at htrack
    · rename_i hvideo
      cases htrack
      rw [if_pos hvideo]
      exact Prod.ext rfl (List.append_assoc _ _ _)
    · rename_i hvideo
      split at htrack
      · rename_i haudio
        cases htrack
        rw [if_neg hvideo, if_pos haudio]
        exact Prod.ext rfl (List.append_assoc _ _ _)
      · cases htrack
  · cases htrack

/-- The ports that a request is assigned are those of its answer and of its connection. -/
theorem assigned_answered {events : List Event} {ports : UInt16 × UInt16}
    (hports : conn.assigned arrival = some ports)
    (h : conn.handleRequest arrival = .ok (after, events)) :
    ∃ transport cseq, .sendResponse (setupAnswer conn transport ports cseq) ∈ events ∧
      .addUdpConnection (udpConnection conn transport arrival ports.1) ∈ events := by
  unfold RtspConnect.assigned at hports
  rw [handle_request_eq] at h
  cases haction : action conn.sessionId arrival.request with
  | setup url transport =>
      rw [haction] at h hports
      cases htrack : udpTrack url transport with
      | none =>
          simp only [htrack] at hports
          cases hports
      | some track =>
          simp only [htrack, Option.map_some, Option.some.injEq] at hports
          simp only [setup_ports conn arrival _ htrack, Except.ok.injEq, Prod.mk.injEq] at h
          obtain ⟨rfl, rfl⟩ := h
          subst hports
          exact ⟨transport, cseqOf arrival.request, by simp, by simp⟩
  | refuse | options | announce | record | teardown =>
      rw [haction] at hports
      cases hports

/-- Requests other than SETUP over UDP allocate nothing. -/
theorem called_port_quiet {calls : List Event} (h : .allocateUdpPorts ∉ calls) (port : UInt32) :
    calls.foldl calledPort port = port := by
  induction calls generalizing port with
  | nil => rfl
  | cons event rest ih =>
      rw [List.foldl_cons]
      cases event with
      | allocateUdpPorts => exact absurd List.mem_cons_self h
      | _ => exact ih (fun hmem => h (List.mem_cons_of_mem _ hmem)) port

/-- The ports of a track, at a distance from the port allocated. -/
def trackPorts (basePort : UInt16) (track : Track) : UInt16 × UInt16 :=
  (basePort + track.offset, basePort + track.offset + 1)

/-- A request that opens no track allocates no ports. -/
theorem outcome_quiet_ports {socket : Socket} {asked : Action} {calls : List Event}
    {statusCode : Nat} (h : Outcome conn socket asked after calls statusCode)
    (hnone : ∀ url transport, asked = .setup url transport → udpTrack url transport = none) :
    .allocateUdpPorts ∉ calls := by
  cases h with
  | refused | options | announced | setUp => simp
  | opened htrack =>
      rw [hnone _ _ rfl] at htrack
      cases htrack
  | recorded _ _ hkcp => cases hkcp <;> simp
  | tornDown hkcp =>
      intro hmem
      simp only [List.mem_append, List.mem_singleton, List.mem_map, reduceCtorEq, false_or,
        or_false, and_false, exists_false] at hmem
      cases hkcp _ hmem

/-- A request that sets up a track over UDP. -/
theorem setup_track_some {request : Bytes} (sessionId : Bytes)
    (h : setupTrack request = some track) :
    ∃ url transport, action [] request = .setup url transport ∧
      action sessionId request = .setup url transport ∧ udpTrack url transport = some track := by
  unfold setupTrack at h
  split at h
  · rename_i url transport haction
    exact ⟨url, transport, haction, (action_setup_iff _ _ _ _ _).1 haction, h⟩
  · cases h

theorem setup_track_none {request : Bytes} {sessionId : Bytes} (h : setupTrack request = none)
    (haction : action sessionId request = .setup url transport) :
    udpTrack url transport = none := by
  unfold setupTrack at h
  rwa [(action_setup_iff _ [] _ _ _).1 haction] at h

/-- A request assigns the next two ports, or those after them, to the track that it sets up, and
moves the counter on by two. -/
theorem request_ports {events : List Event} {port : UInt32}
    (hbase : arrival.basePort = port.toUInt16)
    (hunnamed : ∀ url transport, action [] arrival.request = .setup url transport →
      udpTrack url transport ≠ none → transport.serverRtpPort = 0)
    (h : conn.handleRequest arrival = .ok (after, events)) :
    conn.assigned arrival = (setupTrack arrival.request).map (trackPorts port.toUInt16) ∧
      events.foldl calledPort port =
        if (setupTrack arrival.request).isSome then port + 2 else port := by
  -- the allocator is called exactly when a track is opened over UDP
  cases htrack : setupTrack arrival.request with
  | none =>
      obtain ⟨calls, answer, rfl, houtcome⟩ := handle_ok h
      refine ⟨?_, ?_⟩
      · unfold RtspConnect.assigned
        split
        · rename_i url transport haction
          rw [setup_track_none htrack haction]
          rfl
        · rfl
      · rw [List.foldl_append, called_port_quiet
          (outcome_quiet_ports houtcome fun url transport => setup_track_none htrack)]
        rfl
  | some track =>
      obtain ⟨url, transport, hasked, haction, hudp⟩ := setup_track_some conn.sessionId htrack
      have hzero := hunnamed url transport hasked (by simp [hudp])
      have hserver : serverPorts transport arrival.basePort track.offset =
          ([.allocateUdpPorts], trackPorts port.toUInt16 track) := by
        rw [serverPorts, if_pos hzero, hbase]
        rfl
      rw [handle_request_eq, haction] at h
      simp only [setup_ports conn arrival _ hudp, hserver, Except.ok.injEq, Prod.mk.injEq] at h
      refine ⟨?_, ?_⟩
      · unfold RtspConnect.assigned
        rw [haction]
        simp only [hudp, Option.map_some, hserver]
      · rw [← h.2]
        rfl

end Request

/-! ## Runs -/

/-- The ports of one track after another, from the port that the counter stands at. -/
def countedPorts : UInt32 → List Track → List (UInt16 × UInt16)
  | _, [] => []
  | port, track :: rest => trackPorts port.toUInt16 track :: countedPorts (port + 2) rest

section Runs

variable {server next final : MediaServer} {inputs : List Input} {pairs : List (UInt16 × UInt16)}

/-- One input assigns at most one pair, and only then it moves the counter. -/
theorem assign_step {input : Input} (rest : List Track) (hunnamed : input.NamesNoPort)
    (h : assignPorts server input = .ok (next, pairs)) :
    pairs ++ countedPorts next.nextUdpPort rest =
      countedPorts server.nextUdpPort (tracksOf [input] ++ rest) := by
  cases hstep : server.step input with
  | error halt =>
      rw [assignPorts, hstep] at h
      cases h
  | ok result =>
      obtain ⟨following, trace⟩ := result
      rw [assignPorts, hstep] at h
      cases h
      cases input with
      | accept sessionId clientIp serverIp garbage =>
          cases hstep
          rfl
      | request i request fd =>
          obtain ⟨conn, after, calls, answer, hconn, -, hhandle, -, -, -, -, -, hport⟩ :=
            request_ok hstep
          have hunnamed := fun url transport => hunnamed i request fd url transport rfl
          have hbase : (server.arrival request fd).basePort = server.nextUdpPort.toUInt16 := rfl
          obtain ⟨hassigned, hcounter⟩ := request_ports hbase hunnamed hhandle
          rw [List.foldl_append, ← hport] at hcounter
          have hpairs : server.assigned (.request i request fd) =
              ((setupTrack request).map (trackPorts server.nextUdpPort.toUInt16)).toList := by
            rw [MediaServer.assigned, hconn]
            exact congrArg Option.toList hassigned
          -- both sides see the track of this request, if it has one
          have htracks : tracksOf [.request i request fd] = (setupTrack request).toList := by
            unfold tracksOf
            simp only [List.filterMap_cons, List.filterMap_nil]
            cases setupTrack request <;> rfl
          rw [hpairs, htracks]
          change following.nextUdpPort = if (setupTrack request).isSome then _ else _ at hcounter
          rw [hcounter]
          cases setupTrack request <;> rfl
      | close i =>
          obtain ⟨conn, after, calls, -, hrelease, -, -, -, -, hport⟩ := close_ok hstep
          obtain ⟨-, kcp, hkcp, rfl⟩ := release_ok hrelease
          refine congrArg (countedPorts · rest) ?_
          rw [hport]
          refine called_port_quiet (fun hmem => ?_) _
          simp only [List.mem_append, List.mem_singleton, List.mem_map, reduceCtorEq, false_or,
            or_false, and_false, exists_false] at hmem
          cases hkcp _ hmem

/-- A run assigns the ports that the counter gives to its tracks. -/
theorem assigned_run (hunnamed : ∀ input ∈ inputs, input.NamesNoPort)
    (h : Machine.run assignPorts server inputs = .ok (final, pairs)) :
    pairs = countedPorts server.nextUdpPort (tracksOf inputs) := by
  induction inputs generalizing server pairs with
  | nil =>
      cases h
      rfl
  | cons input inputs ih =>
      obtain ⟨following, first, later, hstep, hrest, hall⟩ := Machine.run_cons_inv h
      obtain ⟨hinput, hinputs⟩ := List.forall_mem_cons.1 hunnamed
      simp only at hall hrest
      rw [hall, ih hinputs hrest, assign_step _ hinput hstep]
      exact congrArg (countedPorts _) List.filterMap_append.symm

end Runs

/-! ## Collisions -/

/-- No track is a video track directly after an audio track, and the counter has not run past the
last port. -/
structure PortsFree (tracks : List Track) : Prop where
  apart : ¬ [.audio, .video] <:+: tracks
  fits : ∀ (k : Nat) track, tracks[k]? = some track →
    10000 + 2 * k + track.offset.toNat ≤ 65534

theorem offset_cases (track : Track) : track.offset.toNat = 0 ∨ track.offset.toNat = 2 := by
  cases track
  · exact .inl rfl
  · exact .inr rfl

section Collisions

variable {tracks : List Track} {k : Nat} {track : Track}

theorem length_counted (port : UInt32) (tracks : List Track) :
    (countedPorts port tracks).length = tracks.length := by
  induction tracks generalizing port with
  | nil => rfl
  | cons track rest ih => rw [countedPorts, List.length_cons, ih, List.length_cons]

/-- The ports of one track, with the counter cut to 16 bits. -/
theorem counted_get (port : UInt32) (h : tracks[k]? = some track) :
    ∃ pair, (countedPorts port tracks)[k]? = some pair ∧
      pair.1.toNat = (port.toNat + 2 * k + track.offset.toNat) % 65536 ∧
      pair.2.toNat = (port.toNat + 2 * k + track.offset.toNat + 1) % 65536 := by
  induction tracks generalizing port k with
  | nil => simp at h
  | cons first rest ih =>
      cases k with
      | zero =>
          simp only [List.getElem?_cons_zero, Option.some.injEq] at h
          subst h
          refine ⟨_, rfl, ?_, ?_⟩ <;> simp [trackPorts]
      | succ k =>
          obtain ⟨pair, hpair, hrtp, hrtcp⟩ := ih (port + 2) h
          have hport : (port + 2).toNat = (port.toNat + 2) % 2 ^ 32 := UInt32.toNat_add port 2
          exact ⟨pair, hpair, by omega, by omega⟩

theorem pairwise_get {α : Type} {related : α → α → Prop} (elements : List α) :
    elements.Pairwise related ↔ ∀ (j k : Nat) first second, j < k → elements[j]? = some first →
      elements[k]? = some second → related first second := by
  rw [List.pairwise_iff_getElem]
  constructor
  · intro h j k first second hlt hfirst hsecond
    obtain ⟨hj, rfl⟩ := List.getElem?_eq_some_iff.1 hfirst
    obtain ⟨hk, rfl⟩ := List.getElem?_eq_some_iff.1 hsecond
    exact h j k hj hk hlt
  · intro h j k hj hk hlt
    exact h j k _ _ hlt (List.getElem?_eq_getElem hj) (List.getElem?_eq_getElem hk)

/-- The ports of a pair stand in the list at the place of their track. -/
theorem counted_track {pair : UInt16 × UInt16}
    (h : (countedPorts 10000 tracks)[k]? = some pair) :
    ∃ track, tracks[k]? = some track ∧
      pair.1.toNat = (10000 + 2 * k + track.offset.toNat) % 65536 ∧
      pair.2.toNat = (10000 + 2 * k + track.offset.toNat + 1) % 65536 := by
  have hlt : k < tracks.length := by
    rw [← length_counted 10000 tracks]
    exact (List.getElem?_eq_some_iff.1 h).1
  have htrack : tracks[k]? = some tracks[k] := List.getElem?_eq_getElem hlt
  obtain ⟨counted, hcounted, hrtp, hrtcp⟩ := counted_get 10000 htrack
  rw [h] at hcounted
  cases hcounted
  exact ⟨_, htrack, hrtp, hrtcp⟩

/-- As long as no pair lies below 10000, the counter has not run past the last port: the first pair
that does not fit starts at port 0 or 2. -/
theorem fits_of_range
    (h : ∀ pair ∈ countedPorts 10000 tracks, 10000 ≤ pair.1 ∧ 10000 ≤ pair.2)
    (htrack : tracks[k]? = some track) : 10000 + 2 * k + track.offset.toNat ≤ 65534 := by
  induction k generalizing track with
  | zero =>
      have hoffset := offset_cases track
      omega
  | succ k ih =>
      have hlt : k < tracks.length := by
        have hsucc := (List.getElem?_eq_some_iff.1 htrack).1
        omega
      have hbefore := ih (List.getElem?_eq_getElem hlt)
      obtain ⟨pair, hpair, hrtp, -⟩ := counted_get 10000 htrack
      have hlow : 10000 ≤ pair.1.toNat := (h pair (List.mem_of_getElem? hpair)).1
      have hstart : (10000 : UInt32).toNat = 10000 := rfl
      have hoffset := offset_cases track
      have hprevious := offset_cases tracks[k]
      omega

/-- A video track directly after an audio track gets the same ports. -/
theorem apart_of_disjoint (h : (countedPorts 10000 tracks).Pairwise Apart) :
    ¬ [Track.audio, .video] <:+: tracks := by
  rintro ⟨before, rest, rfl⟩
  have haudio : (before ++ [Track.audio, .video] ++ rest)[before.length]? = some .audio := by simp
  have hvideo : (before ++ [Track.audio, .video] ++ rest)[before.length + 1]? = some .video := by
    simp
  obtain ⟨first, hfirst, hrtp, -⟩ := counted_get 10000 haudio
  obtain ⟨second, hsecond, hother, -⟩ := counted_get 10000 hvideo
  have hapart := (pairwise_get _).1 h _ _ _ _ (Nat.lt_succ_self _) hfirst hsecond
  refine hapart.1 (UInt16.toNat.inj ?_)
  rw [hrtp, hother]
  show (10000 + 2 * before.length + 2) % 65536 = (10000 + 2 * (before.length + 1) + 0) % 65536
  omega

theorem infix_of_get {next : Track} (h : tracks[k]? = some track)
    (hnext : tracks[k + 1]? = some next) : [track, next] <:+: tracks := by
  obtain ⟨hk, rfl⟩ := List.getElem?_eq_some_iff.1 h
  obtain ⟨hsucc, rfl⟩ := List.getElem?_eq_some_iff.1 hnext
  refine ⟨tracks.take k, tracks.drop (k + 2), ?_⟩
  calc tracks.take k ++ [tracks[k], tracks[k + 1]] ++ tracks.drop (k + 2)
      = tracks.take k ++ (tracks[k] :: tracks[k + 1] :: tracks.drop (k + 1 + 1)) := by simp
    _ = tracks.take k ++ tracks.drop k := by
        rw [List.getElem_cons_drop, List.getElem_cons_drop]
    _ = tracks := List.take_append_drop k tracks

/-- The ports of some tracks are as they should be exactly when none of them collide. -/
theorem counted_good_iff (tracks : List Track) :
    PortsGood (countedPorts 10000 tracks) ↔ PortsFree tracks := by
  constructor
  · intro h
    exact ⟨apart_of_disjoint h.disjoint, fun k track => fits_of_range h.range⟩
  · intro h
    refine ⟨(pairwise_get _).2 ?_, ?_, ?_⟩
    · intro j k first second hlt hfirst hsecond
      obtain ⟨early, hearly, hrtp, hrtcp⟩ := counted_track hfirst
      obtain ⟨late, hlate, hother, hotherRtcp⟩ := counted_track hsecond
      have hearlyFits := h.fits j early hearly
      have hlateFits := h.fits k late hlate
      have hearlyOffset := offset_cases early
      have hlateOffset := offset_cases late
      -- two tracks share a port only when an audio track comes right before a video track
      have hne : 2 * j + early.offset.toNat ≠ 2 * k + late.offset.toNat := by
        intro heq
        have hk : k = j + 1 := by omega
        subst hk
        have haudio : early = .audio := by
          cases early
          · have hvideo : Track.video.offset.toNat = 0 := rfl
            omega
          · rfl
        have hvideo : late = .video := by
          cases late
          · rfl
          · have haudio : Track.audio.offset.toNat = 2 := rfl
            omega
        rw [haudio] at hearly
        rw [hvideo] at hlate
        exact h.apart (infix_of_get hearly hlate)
      refine ⟨?_, ?_, ?_, ?_⟩ <;> intro heq <;> have heq := congrArg UInt16.toNat heq <;> omega
    · intro pair hpair
      obtain ⟨k, hk⟩ := List.getElem?_of_mem hpair
      obtain ⟨track, -, hrtp, -⟩ := counted_track hk
      have hoffset := offset_cases track
      omega
    · intro pair hpair
      obtain ⟨k, hk⟩ := List.getElem?_of_mem hpair
      obtain ⟨track, htrack, hrtp, hrtcp⟩ := counted_track hk
      have hfits := h.fits k track htrack
      have hoffset := offset_cases track
      constructor
      · show 10000 ≤ pair.1.toNat
        omega
      · show 10000 ≤ pair.2.toNat
        omega

end Collisions

/-- The ports that the server assigns, over any run in which no SETUP names a server port, are
disjoint, even and in range exactly when no video track is set up next after an audio track and the
counter has not run past the last port. -/
theorem ports_good_iff (inputs : List Input) (server : MediaServer)
    (pairs : List (UInt16 × UInt16)) (hunnamed : ∀ input ∈ inputs, input.NamesNoPort)
    (h : Machine.run assignPorts start inputs = .ok (server, pairs)) :
    PortsGood pairs ↔ PortsFree (tracksOf inputs) := by
  rw [assigned_run hunnamed h]
  exact counted_good_iff (tracksOf inputs)

/-- The camera's SETUP of the audio track. -/
def setupAudio : Arrival :=
  sampleArrival ["SETUP rtsp://10.0.0.1/trackID=1 RTSP/1.0", "CSeq: 4",
    "Transport: RTP/AVP/UDP;unicast;client_port=5006-5007"]

/-- The sample SETUPs name no server port. -/
theorem samples_name_no_port (i : Nat) (fd : Int) :
    (Input.request i setupVideo.request fd).NamesNoPort ∧
      (Input.request i setupAudio.request fd).NamesNoPort := by
  have hvideo : action [] setupVideo.request = .setup (ascii "rtsp://10.0.0.1/trackID=0")
      ⟨ascii "UDP", 5004, 5005, 0, 0, 0, 0⟩ := by
    decide +kernel
  have haudio : action [] setupAudio.request = .setup (ascii "rtsp://10.0.0.1/trackID=1")
      ⟨ascii "UDP", 5006, 5007, 0, 0, 0, 0⟩ := by
    decide +kernel
  constructor
  · intro j request other url transport heq haction _
    cases heq
    rw [hvideo] at haction
    cases haction
    rfl
  · intro j request other url transport heq haction _
    cases heq
    rw [haudio] at haction
    cases haction
    rfl

/-- The video track before the audio track. -/
theorem ports_good_video_first :
    ∃ server pairs, Machine.run assignPorts start
        [acceptSample, .request 0 setupVideo.request 7, .request 0 setupAudio.request 8] =
          .ok (server, pairs) ∧ PortsGood pairs := by
  let inputs : List Input :=
    [acceptSample, .request 0 setupVideo.request 7, .request 0 setupAudio.request 8]
  have hpairs : (Machine.run assignPorts start inputs).map Prod.snd =
      .ok [(10000, 10001), (10004, 10005)] := by
    decide +kernel
  have htracks : tracksOf inputs = [.video, .audio] := by
    decide +kernel
  cases hrun : Machine.run assignPorts start inputs with
  | error halt =>
      rw [hrun] at hpairs
      cases hpairs
  | ok result =>
      refine ⟨result.1, result.2, rfl, (ports_good_iff inputs _ _ ?_ hrun).2 ?_⟩
      · intro input hinput
        simp only [inputs, List.mem_cons, List.not_mem_nil, or_false] at hinput
        rcases hinput with rfl | rfl | rfl
        · intro i request fd url transport heq
          cases heq
        · exact (samples_name_no_port 0 7).1
        · exact (samples_name_no_port 0 8).2
      · rw [htracks]
        refine ⟨by decide, fun k track htrack => ?_⟩
        have hlt : k < 2 := (List.getElem?_eq_some_iff.1 htrack).1
        have hoffset := offset_cases track
        omega

/-- The audio track before the video track: both get ports 10002 and 10003. -/
theorem ports_good_fails_audio_first :
    ¬ ∀ (inputs : List Input) (server : MediaServer) (pairs : List (UInt16 × UInt16)),
      (∀ input ∈ inputs, input.NamesNoPort) →
      Machine.run assignPorts start inputs = .ok (server, pairs) → PortsGood pairs := by
  intro h
  let inputs : List Input :=
    [acceptSample, .request 0 setupAudio.request 7, .request 0 setupVideo.request 8]
  have hpairs : (Machine.run assignPorts start inputs).map Prod.snd =
      .ok [(10002, 10003), (10002, 10003)] := by
    decide +kernel
  cases hrun : Machine.run assignPorts start inputs with
  | error halt =>
      rw [hrun] at hpairs
      cases hpairs
  | ok result =>
      have hunnamed : ∀ input ∈ inputs, input.NamesNoPort := by
        intro input hinput
        simp only [inputs, List.mem_cons, List.not_mem_nil, or_false] at hinput
        rcases hinput with rfl | rfl | rfl
        · intro i request fd url transport heq
          cases heq
        · exact (samples_name_no_port 0 7).2
        · exact (samples_name_no_port 0 8).1
      have hgood := h inputs result.1 result.2 hunnamed hrun
      rw [hrun] at hpairs
      simp only [Except.map, Except.ok.injEq] at hpairs
      rw [hpairs] at hgood
      have hapart := List.rel_of_pairwise_cons hgood.disjoint List.mem_cons_self
      exact hapart.1 rfl

end CarDetect.Media
