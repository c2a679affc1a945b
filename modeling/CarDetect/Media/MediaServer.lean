import CarDetect.Lib.Machine
import CarDetect.Media.RtspSession

/-!
# The sessions of one event loop

Connections come and go, and their sessions share the loop and the port counter of the session
manager. `MediaServer.step` answers a session's calls from this state and carries out the calls it
makes. A new descriptor must not be in use, as the kernel promises.
-/

namespace CarDetect.Media

open BigEndian ByteString Reactor RtspConnect

/-- The state that the sessions of one loop share: `nextUdpPort`, the number of requests handled so
far, which numbers the sockets, the session of each connection until the connection is destroyed,
and the loop. -/
structure MediaServer where
  nextUdpPort : UInt32
  sockets : Nat
  sessions : List (Option RtspConnect)
  loop : EventLoop

/-- What can happen next: a new connection, a request on a connection, with the descriptor that
`socket()` would return, or the end of a connection. -/
inductive Input where
  | accept (sessionId clientIp serverIp : Bytes) (garbage : UInt64)
  | request (session : Nat) (request : Bytes) (fd : Int)
  | close (session : Nat)
deriving DecidableEq, Repr

/-- A connection from the camera, with a session over clean memory. -/
def acceptSample : Input :=
  .accept (ascii "66a1-1") (ascii "10.0.0.2") (ascii "10.0.0.1") 0

/-- The program ends, or the input cannot happen. -/
inductive Halt where
  | fault (fault : Fault)
  | noSession
  | descriptorInUse
deriving DecidableEq, Repr

namespace MediaServer

/-- Before the first connection. -/
def start : MediaServer := ⟨10000, 0, [], .empty⟩

/-- The descriptor belongs to a connection that is in the loop or in a slot. -/
def inUse (server : MediaServer) (fd : Int) : Bool :=
  (server.loop.udpConns fd).isSome ||
    server.sessions.any fun session =>
      match session with
      | some conn => conn.slots.any fun udp => udp.fd == fd
      | none => false

/-- A call of a session on the session manager or on the loop. -/
def perform (server : MediaServer) (event : Event) : MediaServer :=
  match event with
  | .allocateUdpPorts => { server with nextUdpPort := server.nextUdpPort + 2 }
  | .addUdpConnection udp => { server with loop := server.loop.addUdpConnection udp }
  | .removeUdpConnection udp => { server with loop := server.loop.removeUdpConnection udp }
  | _ => server

/-- The request as the session sees it. `allocateUdpPorts` converts the counter to 16 bits. -/
def arrival (server : MediaServer) (request : Bytes) (fd : Int) : Arrival :=
  ⟨request, server.nextUdpPort.toUInt16, ⟨fd, server.sockets⟩⟩

/-- One input, with the calls that the session makes. When a connection ends, `releaseSession` runs
and the session is destroyed with its slots. -/
def step (server : MediaServer) : Input → Except Halt (MediaServer × List (Nat × Event))
  | .accept sessionId clientIp serverIp garbage =>
      .ok ({ server with
        sessions := server.sessions ++ [some (.create sessionId clientIp serverIp garbage)] }, [])
  | .request session request fd =>
      match server.sessions[session]? with
      | some (some conn) =>
          if 0 ≤ fd ∧ server.inUse fd then .error .descriptorInUse
          else
            match conn.handleRequest (server.arrival request fd) with
            | .error fault => .error (.fault fault)
            | .ok (conn, events) =>
                .ok (events.foldl perform
                  { server with
                    sockets := server.sockets + 1
                    sessions := server.sessions.set session (some conn) },
                  events.map fun event => (session, event))
      | _ => .error .noSession
  | .close session =>
      match server.sessions[session]? with
      | some (some conn) =>
          match conn.releaseSession with
          | .error fault => .error (.fault fault)
          | .ok (_, events) =>
              .ok (events.foldl perform
                { server with sessions := server.sessions.set session none },
                events.map fun event => (session, event))
      | _ => .error .noSession

/-! ## The calls of one request -/

variable {server : MediaServer} {events : List Event}

/-- Calls change neither the sessions nor the numbering. -/
theorem perform_frame (server : MediaServer) (events : List Event) :
    (events.foldl perform server).sessions = server.sessions ∧
      (events.foldl perform server).sockets = server.sockets := by
  induction events generalizing server with
  | nil => exact ⟨rfl, rfl⟩
  | cons event rest ih =>
      obtain ⟨hsessions, hsockets⟩ := ih (server.perform event)
      rw [List.foldl_cons, hsessions, hsockets]
      cases event <;> exact ⟨rfl, rfl⟩

/-- What a call does to the loop. -/
def calledLoop (loop : EventLoop) (event : Event) : EventLoop :=
  match event with
  | .addUdpConnection udp => loop.addUdpConnection udp
  | .removeUdpConnection udp => loop.removeUdpConnection udp
  | _ => loop

theorem perform_loop (server : MediaServer) (events : List Event) :
    (events.foldl perform server).loop = events.foldl calledLoop server.loop := by
  induction events generalizing server with
  | nil => rfl
  | cons event rest ih =>
      rw [List.foldl_cons, List.foldl_cons, ih (server.perform event)]
      cases event <;> rfl

/-- What a call does to the port counter. -/
def calledPort (port : UInt32) (event : Event) : UInt32 :=
  match event with
  | .allocateUdpPorts => port + 2
  | _ => port

theorem perform_port (server : MediaServer) (events : List Event) :
    (events.foldl perform server).nextUdpPort = events.foldl calledPort server.nextUdpPort := by
  induction events generalizing server with
  | nil => rfl
  | cons event rest ih =>
      rw [List.foldl_cons, List.foldl_cons, ih (server.perform event)]
      cases event <;> rfl

/-! ## One step -/

/-- A request that does not end the program has an outcome, on a socket that is not in use. -/
theorem request_ok {server next : MediaServer} {i : Nat} {request : Bytes} {fd : Int}
    {trace : List (Nat × Event)} (h : server.step (.request i request fd) = .ok (next, trace)) :
    ∃ conn after calls answer, server.sessions[i]? = some (some conn) ∧
      (0 ≤ fd → server.inUse fd = false) ∧
      conn.handleRequest (server.arrival request fd) =
        .ok (after, calls ++ [.sendResponse answer]) ∧
      Outcome conn ⟨fd, server.sockets⟩ (action conn.sessionId request) after calls
        answer.statusCode ∧
      trace = (calls ++ [Event.sendResponse answer]).map (fun event => (i, event)) ∧
      next.sessions = server.sessions.set i (some after) ∧
      next.sockets = server.sockets + 1 ∧
      next.loop = calls.foldl calledLoop server.loop ∧
      next.nextUdpPort = calls.foldl calledPort server.nextUdpPort := by
  simp only [step] at h
  split at h
  · rename_i conn hconn
    split at h
    · cases h
    rename_i hfree
    split at h
    · cases h
    rename_i after events hhandle
    obtain ⟨calls, answer, rfl, houtcome⟩ := handle_ok hhandle
    cases h
    refine ⟨conn, after, calls, answer, hconn, ?_, hhandle, houtcome, rfl, ?_, ?_, ?_, ?_⟩
    · intro hfd
      simpa [hfd] using hfree
    · exact (perform_frame _ _).1
    · exact (perform_frame _ _).2
    · rw [perform_loop, List.foldl_append]
      rfl
    · rw [perform_port, List.foldl_append]
      rfl
  · cases h

/-- The end of a connection releases its session. -/
theorem close_ok {server next : MediaServer} {i : Nat} {trace : List (Nat × Event)}
    (h : server.step (.close i) = .ok (next, trace)) :
    ∃ conn after calls, server.sessions[i]? = some (some conn) ∧
      conn.releaseSession = .ok (after, calls) ∧
      trace = calls.map (fun event => (i, event)) ∧
      next.sessions = server.sessions.set i none ∧
      next.sockets = server.sockets ∧
      next.loop = calls.foldl calledLoop server.loop ∧
      next.nextUdpPort = calls.foldl calledPort server.nextUdpPort := by
  simp only [step] at h
  split at h
  · rename_i conn hconn
    split at h
    · cases h
    rename_i after calls hrelease
    cases h
    exact ⟨conn, after, calls, hconn, hrelease, rfl, (perform_frame _ _).1, (perform_frame _ _).2,
      perform_loop _ _, perform_port _ _⟩
  · cases h

end MediaServer

end CarDetect.Media
