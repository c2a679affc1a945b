import CarDetect.Media.SessionLaws
import CarDetect.Media.UdpLifetime

/-!
# The release of a session

What requests and releases do to the loop, as `LoopEffect`, and that every run of the server keeps
the invariants of the loop and of each session. `none_outlives_iff` says when a release leaves none
of a session's connections behind: a second SETUP of a track overwrites the slot that
`releaseSession` looks at.
-/

namespace CarDetect.Media

open BigEndian ByteString Reactor RtspConnect MediaServer

/-! ## What a request does to the loop -/

/-- The effect of a request or a release on the loop and on the slots of the session. -/
inductive LoopEffect (conn : RtspConnect) (socket : Socket) :
    Action → RtspConnect → List Event → Prop where
  | quiet {asked : Action} {after : RtspConnect} {calls : List Event}
      (hid : after.sessionId = conn.sessionId)
      (hslots : after.slots = conn.slots ∧ after.slot = conn.slot ∧
        after.videoRtcpConn = conn.videoRtcpConn ∧ after.audioRtcpConn = conn.audioRtcpConn)
      (hopens : ∀ url transport, asked = .setup url transport → udpTrack url transport = none)
      (hasked : asked ≠ .teardown)
      (hloop : ∀ loop, calls.foldl calledLoop loop = loop)
      (hadds : ∀ udp, .addUdpConnection udp ∉ calls) : LoopEffect conn socket asked after calls
  | opened {url : Bytes} {transport : Transport} {track : Track} {udp : UdpConnection}
      {calls : List Event} (htrack : udpTrack url transport = some track)
      (hsocket : udp.socket = socket)
      (hloop : ∀ loop, calls.foldl calledLoop loop = loop.addUdpConnection udp)
      (hadds : ∀ other, .addUdpConnection other ∈ calls ↔ other = udp) :
      LoopEffect conn socket (.setup url transport) ((conn.setUp transport).setSlot track udp) calls
  | tornDown {calls : List Event}
      (hloop : ∀ loop, calls.foldl calledLoop loop =
        conn.slots.foldl EventLoop.removeUdpConnection loop)
      (hadds : ∀ udp, .addUdpConnection udp ∉ calls)
      (hremoves : ∀ udp ∈ conn.slots, .removeUdpConnection udp ∈ calls) :
      LoopEffect conn socket .teardown conn.released calls

theorem called_loop_quiet (calls : List Event)
    (h : ∀ event ∈ calls, ∀ loop, calledLoop loop event = loop) (loop : EventLoop) :
    calls.foldl calledLoop loop = loop := by
  induction calls generalizing loop with
  | nil => rfl
  | cons event rest ih =>
      obtain ⟨hevent, hrest⟩ := List.forall_mem_cons.1 h
      rw [List.foldl_cons, hevent loop, ih hrest]

theorem called_loop_removals (conns : List UdpConnection) (loop : EventLoop) :
    (conns.map Event.removeUdpConnection).foldl calledLoop loop =
      conns.foldl EventLoop.removeUdpConnection loop := by
  rw [List.foldl_map]
  rfl

/-- The calls of `releaseSession`. -/
theorem torn_down_effect (conn : RtspConnect) (socket : Socket) {kcp : List Event}
    (hkcp : ∀ event ∈ kcp, event = .ikcpRelease) :
    LoopEffect conn socket .teardown conn.released
      ([.removeCam conn.sessionId] ++ kcp ++ conn.slots.map .removeUdpConnection ++
        [.removeSession conn.sessionId]) := by
  have hquiet := called_loop_quiet kcp
    (fun event hevent loop => by rw [hkcp event hevent]; rfl)
  refine .tornDown (fun loop => ?_) (fun udp => ?_) (fun udp hudp => ?_)
  · rw [List.foldl_append, List.foldl_append, List.foldl_append, hquiet, called_loop_removals]
    rfl
  · intro hmem
    simp only [List.mem_append, List.mem_singleton, List.mem_map, reduceCtorEq, false_or, or_false,
      and_false, exists_false] at hmem
    cases hkcp _ hmem
  · simp [hudp]

theorem outcome_effect {conn after : RtspConnect} {socket : Socket} {asked : Action}
    {calls : List Event} {statusCode : Nat} (h : Outcome conn socket asked after calls statusCode) :
    LoopEffect conn socket asked after calls := by
  cases h with
  | refused | options | announced =>
      exact .quiet rfl ⟨rfl, rfl, rfl, rfl⟩ (by simp) (by simp) (fun _ => rfl) (by simp)
  | setUp htrack =>
      refine .quiet rfl ⟨rfl, ?_, rfl, rfl⟩ ?_ (by simp) (fun _ => rfl) (by simp)
      · funext track
        cases track <;> rfl
      · intro url transport heq
        cases heq
        exact htrack
  | @opened url transport track udp allocated htrack hsocket hallocated =>
      have hquiet := called_loop_quiet allocated
        (fun event hevent loop => by rw [hallocated event hevent]; rfl)
      refine .opened htrack hsocket (fun loop => ?_) (fun other => ?_)
      · rw [List.foldl_append, hquiet]
        rfl
      · have hnone : Event.addUdpConnection other ∉ allocated := fun hmem => by
          cases hallocated _ hmem
        simp [hnone]
  | recorded hthread hvideo hkcp =>
      refine .quiet rfl ⟨rfl, ?_, rfl, rfl⟩ (by simp) (by simp) ?_ ?_
      · funext track
        cases track <;> rfl
      · cases hkcp <;> exact fun _ => rfl
      · cases hkcp <;> simp
  | tornDown hkcp => exact torn_down_effect conn socket hkcp

/-! ## Steps of the server -/

section Server

variable {trace : List (Nat × Event)} {server next : MediaServer} {i : Nat}
  {conn after : RtspConnect} {socket : Socket} {asked : Action} {calls rest : List Event}

theorem mem_tagged {j : Nat} {event : Event} {events : List Event} :
    (j, event) ∈ events.map (fun event => (i, event)) ↔ j = i ∧ event ∈ events := by
  simp [and_comm, eq_comm]

/-- The slots after the session at one position has changed. -/
theorem slots_from_set {session : Option RtspConnect}
    (hconn : server.sessions[i]? = some (some conn))
    (hsessions : next.sessions = server.sessions.set i session)
    (hslots : ∀ after, session = some after → after.slots = conn.slots) :
    SlotsFrom server next := by
  intro j after udp hafter hudp
  rw [hsessions, List.getElem?_set] at hafter
  split at hafter
  · rename_i hsame
    split at hafter
    · cases hafter
      exact ⟨conn, hsame ▸ hconn, hslots after rfl ▸ hudp⟩
    · cases hafter
  · exact ⟨after, hafter, hudp⟩

/-- The socket is new: it has the next number, and its descriptor is valid and not in use. -/
structure Fresh (server : MediaServer) (socket : Socket) : Prop where
  serial : socket.serial = server.sockets
  valid : 0 ≤ socket.fd
  free : server.inUse socket.fd = false

/-- A request keeps the invariant, and so does the end of a connection. -/
theorem kept_effect (h : Kept trace server) (hconn : server.sessions[i]? = some (some conn))
    (heffect : LoopEffect conn socket asked after calls)
    (hfresh : asked ≠ .teardown → Fresh server socket) {session : Option RtspConnect}
    (hsession : session = some after ∨ session = none ∧ asked = .teardown)
    (hsessions : next.sessions = server.sessions.set i session)
    (hloop : next.loop = calls.foldl calledLoop server.loop)
    (hsockets : next.sockets = server.sockets + 1 ∨
      next.sockets = server.sockets ∧ asked = .teardown)
    (hrest : ∀ udp, .addUdpConnection udp ∉ rest) :
    Kept (trace ++ (calls ++ rest).map fun event => (i, event)) next := by
  -- a session that is left keeps its slots unless it has opened a track
  have hsame (hslots : after.slots = conn.slots) (other : RtspConnect)
      (hother : session = some other) : other.slots = conn.slots := by
    rcases hsession with rfl | ⟨rfl, -⟩
    · cases hother
      exact hslots
    · cases hother
  have hle : server.sockets ≤ next.sockets := by omega
  cases heffect with
  | quiet hid hslots hopens hasked hquiet hadds =>
      refine kept_quiet h (slots_from_set hconn hsessions (hsame hslots.1)) (hloop.trans (hquiet _))
        hle fun j udp hmem => ?_
      rw [mem_tagged, List.mem_append] at hmem
      exact hmem.2.elim (hadds udp) (hrest udp)
  | @opened url transport track udp calls htrack hsocket hadded hadds =>
      have hnext : session = some ((conn.setUp transport).setSlot track udp) := by
        rcases hsession with hsession | ⟨-, hnever⟩
        · exact hsession
        · cases hnever
      have hnew : Fresh server udp.socket := hsocket ▸ hfresh (by simp)
      refine kept_added h i hnew.serial hnew.valid hnew.free ?_ (hloop.trans (hadded _)) ?_
        fun j other => ?_
      · intro j other held hother hheld
        rw [hsessions, hnext, List.getElem?_set] at hother
        split at hother
        · rename_i heq
          split at hother
          · cases hother
            -- a connection in the slots is the new one, or it stood in the other slot
            have hcases : held = udp ∨ held ∈ conn.slots := by
              unfold slots at hheld ⊢
              cases track <;> simp [setSlot, setUp] at hheld ⊢ <;> tauto
            rcases hcases with hcases | hcases
            · exact .inl ⟨heq.symm, hcases⟩
            · exact .inr ⟨conn, heq ▸ hconn, hcases⟩
          · cases hother
        · exact .inr ⟨other, hother, hheld⟩
      · rcases hsockets with hsockets | ⟨-, hnever⟩
        · exact hsockets
        · cases hnever
      · rw [mem_tagged, List.mem_append, hadds]
        simp [hrest]
  | tornDown hremoved hadds hremoves =>
      refine kept_removed h hconn (slots_from_set hconn hsessions (hsame rfl))
        (hloop.trans (hremoved _)) hle (fun j udp hmem => ?_) fun udp hudp => ?_
      · rw [mem_tagged, List.mem_append] at hmem
        exact hmem.2.elim (hadds udp) (hrest udp)
      · exact mem_tagged.2 ⟨rfl, List.mem_append_left _ (hremoves udp hudp)⟩

/-- A step of one session does not change what the loop holds of another. -/
theorem others_same (h : Kept trace server) (hconn : server.sessions[i]? = some (some conn))
    (heffect : LoopEffect conn socket asked after calls)
    (hfresh : asked ≠ .teardown → Fresh server socket)
    (hloop : next.loop = calls.foldl calledLoop server.loop) {j : Nat} (hne : j ≠ i)
    {udp : UdpConnection} (hadded : (j, .addUdpConnection udp) ∈ trace) :
    next.loop.udpConns udp.fd = some udp ↔ server.loop.udpConns udp.fd = some udp := by
  rw [hloop]
  cases heffect with
  | quiet hid hslots hopens hasked hquiet hadds => rw [hquiet]
  | @opened url transport track opened calls htrack hsocket hadded' hadds =>
      have hnew : Fresh server opened.socket := hsocket ▸ hfresh (by simp)
      obtain ⟨hnone, -⟩ := not_in_use hnew.free
      have hmap := (EventLoop.add_new h.inStep hnew.valid hnone).2
      rw [hadded', hmap]
      by_cases hsame : udp.fd = opened.fd
      · rw [hsame, Function.update_self, show server.loop.udpConns opened.fd = none from hnone]
        refine iff_of_false (fun heq => ?_) (by simp)
        cases heq
        exact absurd hnew.serial (h.numbered j udp hadded).ne
      · rw [Function.update_of_ne hsame]
  | tornDown hremoved hadds hremoves =>
      rw [hremoved, (remove_all h.inStep conn.slots).2]
      split
      · rename_i hheld
        obtain ⟨held, hheld, hsame⟩ := hheld
        refine iff_of_false (by simp) (fun hregistered => ?_)
        rw [← hsame] at hregistered
        obtain rfl := h.slotOpen i conn held udp hconn hheld hregistered
        exact hne (h.owner j i udp udp hadded (h.slotAdded i conn udp hconn hheld) rfl).1
      · exact Iff.rfl

/-- A request keeps track of its own session. -/
theorem tracked_effect {requests : List Bytes} {request : Bytes} (h : Kept trace server)
    (htracked : Tracked requests (fun udp => (i, .addUdpConnection udp) ∈ trace)
      server.loop.udpConns conn)
    (hconn : server.sessions[i]? = some (some conn))
    (heffect : LoopEffect conn socket (action conn.sessionId request) after calls)
    (hfresh : action conn.sessionId request ≠ .teardown → Fresh server socket)
    (hloop : next.loop = calls.foldl calledLoop server.loop) :
    Tracked (requests ++ [request])
      (fun udp => (i, .addUdpConnection udp) ∈ trace ∨ .addUdpConnection udp ∈ calls)
      next.loop.udpConns after := by
  rw [hloop]
  generalize haction : action conn.sessionId request = asked at heffect hfresh
  cases heffect with
  | quiet hid hslots hopens hasked hquiet hadds =>
      simp only [hadds, or_false]
      rw [hquiet]
      refine htracked.quiet hid hslots ?_ ?_
      · rintro track ⟨url, transport, hsetup, htrack⟩
        rw [haction] at hsetup
        rw [hopens url transport hsetup] at htrack
        cases htrack
      · rw [haction]
        cases asked with
        | setup url transport =>
            show OpenTracks.next _ (.setup url transport) = _
            unfold OpenTracks.next
            simp only [hopens url transport rfl]
        | teardown => exact absurd rfl hasked
        | refuse | options | announce | record => rfl
  | @opened url transport track udp calls htrack hsocket hadded hadds =>
      have hnew : Fresh server udp.socket := hsocket ▸ hfresh (by simp)
      -- the descriptor is free, so nothing in the slots or in the loop has it
      obtain ⟨hnone, hother⟩ := not_in_use hnew.free
      simp only [hadds]
      rw [hadded, (EventLoop.add_new h.inStep hnew.valid hnone).2]
      refine htracked.reopened haction htrack ?_ ?_ ?_ hnone
      · exact fun hmem => absurd hnew.serial (h.numbered i udp hmem).ne
      · exact fun other hmem => h.slotAdded i conn other hconn hmem
      · exact fun other hmem => hother i conn other hconn hmem
  | tornDown hremoved hadds hremoves =>
      simp only [hadds, or_false]
      refine htracked.tornDown haction ?_ ?_
      · exact fun udp hudp other hregistered => h.slotOpen i conn udp other hconn hudp hregistered
      · rw [hremoved]
        exact (remove_all h.inStep conn.slots).2

end Server

/-! ## Runs -/

/-- The requests on one connection. -/
def requestsOf (session : Nat) (inputs : List Input) : List Bytes :=
  inputs.filterMap fun input =>
    match input with
    | .request other request _ => if other = session then some request else none
    | _ => none

/-- The session ids, in the order of the connections. -/
def sessionIds (inputs : List Input) : List Bytes :=
  inputs.filterMap fun input =>
    match input with
    | .accept sessionId _ _ _ => some sessionId
    | _ => none

/-- `socket()` returns a descriptor. -/
def Input.HasSocket (input : Input) : Prop :=
  ∀ session request fd, input = .request session request fd → 0 ≤ fd

/-- The inputs so far, the calls and the state they have led to. -/
structure Registry (past : List Input) (trace : List (Nat × Event)) (server : MediaServer) :
    Prop where
  kept : Kept trace server
  count : server.sessions.length = (sessionIds past).length
  unborn : ∀ i, server.sessions.length ≤ i →
    requestsOf i past = [] ∧ ∀ udp, (i, .addUdpConnection udp) ∉ trace
  tracked : ∀ (i : Nat) (conn : RtspConnect), server.sessions[i]? = some (some conn) →
    (sessionIds past)[i]? = some conn.sessionId ∧
      Tracked (requestsOf i past) (fun udp => (i, .addUdpConnection udp) ∈ trace)
        server.loop.udpConns conn

theorem registry_start : Registry [] [] start where
  kept := kept_start
  count := rfl
  unborn := fun i _ => ⟨rfl, by simp⟩
  tracked := by simp [start]

section Runs

variable {past : List Input} {trace out : List (Nat × Event)} {server next : MediaServer}

theorem requests_of_snoc (i : Nat) (past : List Input) (input : Input) :
    requestsOf i (past ++ [input]) = requestsOf i past ++ requestsOf i [input] :=
  List.filterMap_append

theorem session_ids_snoc (past : List Input) (input : Input) :
    sessionIds (past ++ [input]) = sessionIds past ++ sessionIds [input] :=
  List.filterMap_append

/-- A session that nothing has happened to. -/
theorem tracked_created (sessionId clientIp serverIp : Bytes) (garbage : UInt64)
    (udpConns : Int → Option UdpConnection) {added : UdpConnection → Prop}
    (hadded : ∀ udp, ¬ added udp) :
    Tracked [] added udpConns (.create sessionId clientIp serverIp garbage) where
  rtcp := ⟨rfl, rfl⟩
  distinct := fun udp hvideo => by cases hvideo
  opened := by
    intro track
    refine iff_of_false (by cases track <;> simp [openTracks, OpenTracks.contains]) ?_
    rintro ⟨udp, hslot, -⟩
    cases track <;> cases hslot
  held := iff_of_true (none_reopened_nil _) fun udp hudp => absurd hudp (hadded udp)

theorem registry_accept (h : Registry past trace server) (sessionId clientIp serverIp : Bytes)
    (garbage : UInt64)
    (hstep : server.step (.accept sessionId clientIp serverIp garbage) = .ok (next, out)) :
    Registry (past ++ [.accept sessionId clientIp serverIp garbage]) (trace ++ out) next := by
  cases hstep
  have hsession (i : Nat) (conn : RtspConnect)
      (hconn : (server.sessions ++
        [some (RtspConnect.create sessionId clientIp serverIp garbage)])[i]? = some (some conn)) :
      server.sessions[i]? = some (some conn) ∨
        i = server.sessions.length ∧ conn = .create sessionId clientIp serverIp garbage := by
    -- an old session, the new one, or none
    rcases Nat.lt_trichotomy i server.sessions.length with hlt | heq | hgt
    · rw [List.getElem?_append_left hlt] at hconn
      exact .inl hconn
    · subst heq
      rw [List.getElem?_concat_length] at hconn
      cases hconn
      exact .inr ⟨rfl, rfl⟩
    · rw [List.getElem?_eq_none (by simp; omega)] at hconn
      cases hconn
  refine ⟨kept_quiet h.kept ?_ rfl le_rfl (by simp), ?_, ?_, ?_⟩
  · intro i conn udp hconn hudp
    rcases hsession i conn hconn with hconn | ⟨-, rfl⟩
    · exact ⟨conn, hconn, hudp⟩
    · cases hudp
  · rw [session_ids_snoc, List.length_append, List.length_append, h.count]
    rfl
  · intro i hi
    rw [List.length_append] at hi
    obtain ⟨hrequests, hadds⟩ := h.unborn i (by omega)
    rw [requests_of_snoc, hrequests, List.append_nil]
    exact ⟨rfl, hadds⟩
  · intro i conn hconn
    rw [requests_of_snoc, session_ids_snoc, List.append_nil,
      show requestsOf i [.accept sessionId clientIp serverIp garbage] = [] from rfl,
        List.append_nil]
    rcases hsession i conn hconn with hconn | ⟨rfl, rfl⟩
    · obtain ⟨hid, htracked⟩ := h.tracked i conn hconn
      refine ⟨?_, htracked⟩
      have hlt : i < (sessionIds past).length := by
        rw [List.getElem?_eq_some_iff] at hid
        exact hid.1
      rw [List.getElem?_append_left hlt, hid]
    · obtain ⟨hrequests, hadds⟩ := h.unborn server.sessions.length le_rfl
      rw [hrequests]
      refine ⟨?_, tracked_created _ _ _ _ _ hadds⟩
      rw [h.count]
      exact List.getElem?_concat_length

/-- After a step of session `i`, which has become `session`. -/
theorem registry_effect (h : Registry past trace server) {i : Nat} {conn after : RtspConnect}
    {socket : Socket} {asked : Action} {calls : List Event} (input : Input) (rest : List Event)
    {session : Option RtspConnect} (hconn : server.sessions[i]? = some (some conn))
    (heffect : LoopEffect conn socket asked after calls)
    (hfresh : asked ≠ .teardown → Fresh server socket)
    (hsession : session = some after ∨ session = none ∧ asked = .teardown)
    (hsessions : next.sessions = server.sessions.set i session)
    (hloop : next.loop = calls.foldl calledLoop server.loop)
    (hsockets : next.sockets = server.sockets + 1 ∨
      next.sockets = server.sockets ∧ asked = .teardown)
    (hrest : ∀ udp, .addUdpConnection udp ∉ rest)
    (haccepts : sessionIds [input] = []) (hrequests : ∀ j, j ≠ i → requestsOf j [input] = [])
    (htracked : ∀ after, session = some after → (sessionIds past)[i]? = some after.sessionId ∧
      Tracked (requestsOf i (past ++ [input]))
        (fun udp => (i, .addUdpConnection udp) ∈ trace ∨ .addUdpConnection udp ∈ calls)
        next.loop.udpConns after) :
    Registry (past ++ [input]) (trace ++ (calls ++ rest).map fun event => (i, event)) next := by
  have hlength : next.sessions.length = server.sessions.length := by
    rw [hsessions, List.length_set]
  have hborn : i < server.sessions.length := (List.getElem?_eq_some_iff.1 hconn).1
  -- only session i has added anything
  have hadds (j : Nat) (udp : UdpConnection) :
      (j, .addUdpConnection udp) ∈ trace ++ (calls ++ rest).map (fun event => (i, event)) ↔
        (j, .addUdpConnection udp) ∈ trace ∨ j = i ∧ .addUdpConnection udp ∈ calls := by
    rw [List.mem_append, mem_tagged, List.mem_append]
    simp [hrest]
  refine ⟨kept_effect h.kept hconn heffect hfresh hsession hsessions hloop hsockets hrest, ?_, ?_,
    ?_⟩
  · rw [hlength, h.count, session_ids_snoc, haccepts, List.append_nil]
  · intro j hj
    have hne : j ≠ i := by omega
    obtain ⟨hpast, hnone⟩ := h.unborn j (by omega)
    refine ⟨by rw [requests_of_snoc, hpast, hrequests j hne]; rfl, fun udp => ?_⟩
    rw [hadds]
    simp [hnone, hne]
  · intro j held hheld
    rw [session_ids_snoc, haccepts, List.append_nil]
    simp only [hadds]
    -- the other sessions keep what they held
    by_cases hsame : j = i
    · subst hsame
      rw [hsessions, List.getElem?_set_self hborn, Option.some_inj] at hheld
      simpa using htracked held hheld
    · rw [hsessions, List.getElem?_set_ne (Ne.symm hsame)] at hheld
      obtain ⟨hid, hold⟩ := h.tracked j held hheld
      rw [requests_of_snoc, hrequests j hsame, List.append_nil]
      simp only [hsame, false_and, or_false]
      refine ⟨hid, hold.frame (fun udp hudp => h.kept.slotAdded j held udp hheld hudp) ?_⟩
      exact fun udp hadded => others_same h.kept hconn heffect hfresh hloop hsame hadded

theorem registry_request (h : Registry past trace server) {i : Nat} {request : Bytes} {fd : Int}
    (hfd : 0 ≤ fd) (hstep : server.step (.request i request fd) = .ok (next, out)) :
    Registry (past ++ [.request i request fd]) (trace ++ out) next := by
  obtain ⟨conn, after, calls, answer, hconn, hfree, hhandle, houtcome, rfl, hsessions, hsockets,
    hloop, -⟩ := request_ok hstep
  obtain ⟨hid, htracked⟩ := h.tracked i conn hconn
  have heffect := outcome_effect houtcome
  have hfresh : Fresh server ⟨fd, server.sockets⟩ := ⟨rfl, hfd, hfree hfd⟩
  refine registry_effect h _ _ hconn heffect (fun _ => hfresh) (.inl rfl) hsessions hloop
    (.inl hsockets)
    (by simp) rfl (fun j hj => ?_) fun held hheld => ?_
  · simp [requestsOf, Ne.symm hj]
  · cases hheld
    rw [houtcome.session]
    refine ⟨hid, ?_⟩
    have hrequests : requestsOf i (past ++ [.request i request fd]) =
        requestsOf i past ++ [request] := by
      rw [requests_of_snoc]
      simp [requestsOf]
    rw [hrequests]
    exact tracked_effect h.kept htracked hconn heffect (fun _ => hfresh) hloop

theorem registry_close (h : Registry past trace server) {i : Nat}
    (hstep : server.step (.close i) = .ok (next, out)) :
    Registry (past ++ [.close i]) (trace ++ out) next := by
  obtain ⟨conn, after, calls, hconn, hrelease, rfl, hsessions, hsockets, hloop, -⟩ := close_ok hstep
  obtain ⟨rfl, kcp, hkcp, rfl⟩ := release_ok hrelease
  have hregistry := registry_effect h (.close i) [] hconn
    (torn_down_effect conn ⟨0, 0⟩ hkcp) (by simp) (.inr ⟨rfl, rfl⟩) hsessions hloop
    (.inr ⟨hsockets, rfl⟩) (by simp) rfl (fun j _ => rfl) (by simp)
  simpa only [List.append_nil] using hregistry

/-- Every run on sockets that exist. -/
theorem registry_run {inputs : List Input} (hsockets : ∀ input ∈ inputs, input.HasSocket)
    (h : Machine.run step start inputs = .ok (server, trace)) : Registry inputs trace server := by
  refine Machine.run_history Registry Input.HasSocket ?_ registry_start hsockets h
  intro past trace state input next out hregistry hsocket hstep
  cases input with
  | accept sessionId clientIp serverIp garbage =>
      exact registry_accept hregistry sessionId clientIp serverIp garbage hstep
  | request i request fd => exact registry_request hregistry (hsocket i request fd rfl) hstep
  | close i => exact registry_close hregistry hstep

end Runs

/-- The last input releases the session: the end of its connection, or a TEARDOWN with its id. -/
def Releases (i : Nat) (sessionId : Bytes) (last : Input) : Prop :=
  last = .close i ∨
    ∃ request fd, last = .request i request fd ∧ action sessionId request = .teardown

/-- No connection that session `i` has added is in the loop, and the loop still has every
connection that another session has added and not removed itself. -/
def NoneOutlives (i : Nat) (trace : List (Nat × Event)) (loop : EventLoop) : Prop :=
  (∀ udp, (i, .addUdpConnection udp) ∈ trace →
    ∀ fd, loop.udpConns fd ≠ some udp ∧ loop.epoll fd ≠ some udp) ∧
    ∀ j udp, j ≠ i → (j, .addUdpConnection udp) ∈ trace → (j, .removeUdpConnection udp) ∉ trace →
      loop.udpConns udp.fd = some udp ∧ loop.epoll udp.fd = some udp

section Release

variable {trace out : List (Nat × Event)} {server next : MediaServer}

/-- The release of a session's slots leaves none of its connections exactly when no track was set
up twice. -/
theorem none_left_iff {requests : List Bytes} {added : UdpConnection → Prop}
    {udpConns udpConns' : Int → Option UdpConnection} {conn : RtspConnect}
    (h : Tracked requests added udpConns conn)
    (hopen : ∀ udp ∈ conn.slots, ∀ other, udpConns udp.fd = some other → other = udp)
    (hmap : ∀ fd, udpConns' fd = if ∃ udp ∈ conn.slots, udp.fd = fd then none else udpConns fd) :
    (∀ udp, added udp → udpConns' udp.fd ≠ some udp) ↔ NoneReopened conn.sessionId requests := by
  rw [h.held]
  refine forall_congr' fun udp => imp_congr_right fun _ => ?_
  rw [hmap]
  split
  · rename_i hheld
    obtain ⟨held, hheld, hsame⟩ := hheld
    refine iff_of_true (by simp) fun hregistered => ?_
    rw [← hsame] at hregistered
    rwa [hopen held hheld udp hregistered]
  · rename_i hnone
    exact ⟨fun hne heq => absurd heq hne, fun hslot heq => hnone ⟨udp, hslot heq, rfl⟩⟩

/-- The step that releases a session. -/
theorem release_step {i : Nat} {conn : RtspConnect} {last : Input}
    (hconn : server.sessions[i]? = some (some conn)) (hlast : Releases i conn.sessionId last)
    (hstep : server.step last = .ok (next, out)) :
    next.loop = conn.slots.foldl EventLoop.removeUdpConnection server.loop ∧
      ∀ j udp, (j, .addUdpConnection udp) ∉ out := by
  obtain rfl | ⟨request, fd, rfl, haction⟩ := hlast
  · obtain ⟨held, after, calls, hheld, hrelease, rfl, -, -, hloop, -⟩ := close_ok hstep
    rw [hconn] at hheld
    cases hheld
    obtain ⟨rfl, kcp, hkcp, rfl⟩ := release_ok hrelease
    have heffect := torn_down_effect conn ⟨0, 0⟩ hkcp
    cases heffect with
    | quiet _ _ _ hasked => exact absurd rfl hasked
    | tornDown hremoved hadds =>
        exact ⟨hloop.trans (hremoved _), fun j udp hmem => hadds udp (mem_tagged.1 hmem).2⟩
  · obtain ⟨held, after, calls, answer, hheld, -, -, houtcome, rfl, -, -, hloop, -⟩ :=
      request_ok hstep
    rw [hconn] at hheld
    cases hheld
    have heffect := outcome_effect houtcome
    rw [haction] at heffect
    cases heffect with
    | quiet _ _ _ hasked => exact absurd rfl hasked
    | tornDown hremoved hadds =>
        refine ⟨hloop.trans (hremoved _), fun j udp hmem => ?_⟩
        rw [mem_tagged, List.mem_append] at hmem
        rcases hmem.2 with hmem | hmem
        · exact hadds udp hmem
        · simp at hmem

end Release

/-- When a session is released, by the last of any inputs, the loop holds none of its connections
and all of the others' exactly when the session's requests never set up a track a second time
without a TEARDOWN in between. -/
theorem none_outlives_iff (inputs : List Input) (last : Input) (i : Nat) (sessionId : Bytes)
    (server : MediaServer) (trace : List (Nat × Event))
    (hsockets : ∀ input ∈ inputs ++ [last], input.HasSocket)
    (hid : (sessionIds inputs)[i]? = some sessionId) (hlast : Releases i sessionId last)
    (h : Machine.run step start (inputs ++ [last]) = .ok (server, trace)) :
    NoneOutlives i trace server.loop ↔ NoneReopened sessionId (requestsOf i inputs) := by
  have hafter := registry_run hsockets h
  obtain ⟨before, past, out, hpast, hrun, hall⟩ := Machine.run_append_inv h
  obtain ⟨next, out, rest, hstep, hdone, heq⟩ := Machine.run_cons_inv hrun
  cases hdone
  simp only [List.append_nil] at heq hall
  subst heq hall
  have hregistry := registry_run
    (fun input hinput => hsockets input (List.mem_append_left _ hinput))
    hpast
  -- the session exists, because the last step is one of its own
  have hconn : ∃ conn, before.sessions[i]? = some (some conn) := by
    obtain rfl | ⟨request, fd, rfl, -⟩ := hlast
    · obtain ⟨conn, -, -, hconn, -⟩ := close_ok hstep
      exact ⟨conn, hconn⟩
    · obtain ⟨conn, -, -, -, hconn, -⟩ := request_ok hstep
      exact ⟨conn, hconn⟩
  obtain ⟨conn, hconn⟩ := hconn
  obtain ⟨hsame, htracked⟩ := hregistry.tracked i conn hconn
  rw [hid] at hsame
  cases hsame
  obtain ⟨hloop, hadds⟩ := release_step hconn hlast hstep
  have hmap := (remove_all hregistry.kept.inStep conn.slots).2
  rw [← hloop] at hmap
  rw [← none_left_iff htracked
    (fun udp hudp other => hregistry.kept.slotOpen i conn udp other hconn hudp) hmap]
  have hepoll : server.loop.epoll = server.loop.udpConns := hafter.kept.inStep.registered
  have hkeyed := hafter.kept.inStep.keyed
  unfold NoneOutlives
  simp only [List.mem_append, hadds, or_false, hepoll, and_self]
  constructor
  · exact fun hgone udp hadded => hgone.1 udp hadded udp.fd
  · intro hgone
    refine ⟨fun udp hadded fd hregistered => ?_, fun j udp _ hadded hkept => ?_⟩
    · rw [← hkeyed fd udp hregistered] at hregistered
      exact hgone udp hadded hregistered
    · refine hafter.kept.kept j udp (List.mem_append_left _ hadded) ?_
      simpa using hkept

/-- One SETUP before the end of the connection. -/
theorem none_outlives_once :
    ∃ server trace, Machine.run step start
        ([acceptSample, .request 0 setupVideo.request 7] ++ [.close 0]) = .ok (server, trace) ∧
      NoneOutlives 0 trace server.loop := by
  cases hrun : Machine.run step start
      ([acceptSample, .request 0 setupVideo.request 7] ++ [.close 0]) with
  | error halt =>
      have hok : (Machine.run step start ([acceptSample, .request 0 setupVideo.request 7] ++
          [.close 0])).toOption.isSome := by
        decide +kernel
      rw [hrun] at hok
      cases hok
  | ok result =>
      refine ⟨result.1, result.2, rfl, (none_outlives_iff _ (.close 0) 0 (ascii "66a1-1") _ _ ?_
        (by decide) (.inl rfl) hrun).2 ?_⟩
      · intro input hinput session request fd heq
        subst heq
        simp [acceptSample] at hinput
        omega
      · show NoneReopened (ascii "66a1-1") [setupVideo.request]
        have hfirst := none_reopened_snoc (ascii "66a1-1") [] setupVideo.request
        exact hfirst.2 ⟨none_reopened_nil _, fun track _ => by cases track <;> rfl⟩

/-- Two SETUPs of one track: the first connection stays in the loop when the session is gone. -/
theorem none_outlives_fails_second_setup :
    ¬ ∀ (inputs : List Input) (last : Input) (i : Nat) (sessionId : Bytes) (server : MediaServer)
      (trace : List (Nat × Event)), (∀ input ∈ inputs ++ [last], input.HasSocket) →
      (sessionIds inputs)[i]? = some sessionId → Releases i sessionId last →
      Machine.run step start (inputs ++ [last]) = .ok (server, trace) →
      NoneOutlives i trace server.loop := by
  intro h
  let inputs : List Input :=
    [acceptSample, .request 0 setupVideo.request 7, .request 0 setupVideo.request 8]
  let video : UdpConnection := ⟨⟨7, 0⟩, ascii "10.0.0.1", 10000, ascii "10.0.0.2", 5004⟩
  have hleft : (Machine.run step start (inputs ++ [.close 0])).map (fun result =>
      (result.1.loop.udpConns 7, decide ((0, .addUdpConnection video) ∈ result.2))) =
      .ok (some video, true) := by
    decide +kernel
  cases hrun : Machine.run step start (inputs ++ [.close 0]) with
  | error halt =>
      rw [hrun] at hleft
      cases hleft
  | ok result =>
      rw [hrun] at hleft
      simp only [Except.map, Except.ok.injEq, Prod.mk.injEq, decide_eq_true_eq] at hleft
      have hsockets : ∀ input ∈ inputs ++ [.close 0], input.HasSocket := by
        intro input hinput session request fd heq
        subst heq
        simp [inputs, acceptSample] at hinput
        omega
      have hgone := h inputs (.close 0) 0 (ascii "66a1-1") result.1 result.2 hsockets (by decide)
        (.inl rfl) hrun
      exact (hgone.1 video hleft.2 7).1 hleft.1

end CarDetect.Media
