import CarDetect.Monitor.CamMessages

/-!
# The monitor server with its Qt clients

`MonitorSystem.step` joins `MonitorServer.step` and `MonitorClientWidget.onReadyRead`. Each
direction of a connection is a queue of whole messages, and a step is a new connection, a camera
added or removed, or the oldest message of one queue read.
-/

namespace CarDetect.Monitor

open BigEndian ByteString Reactor Std

/-- What `generateSessionId` returns. -/
structure SessionId where
  text : Bytes
  valid : IsSessionId text

/-- `InetAddress::toString` -/
def InetAddress.toString (address : InetAddress) : Bytes :=
  address.ip ++ ascii ":" ++ printNat address.port.toNat

/-- A connected client, with the messages in flight, the oldest first. -/
structure Link where
  widget : MonitorClientWidget
  up : List Bytes
  down : List Bytes

/-- The server has sent these messages. -/
def Link.deliver (link : Link) (texts : List Bytes) : Link :=
  { link with down := link.down ++ texts }

@[simp] theorem Link.deliver_nil (link : Link) : link.deliver [] = link := by
  unfold Link.deliver
  rw [List.append_nil]

/-- The server, and its clients under the descriptors that it has for them. -/
structure MonitorSystem where
  server : MonitorServer
  links : TreeMap Int Link

/-- What can happen next. A client that reads a message binds sockets with these local ports. -/
inductive Action where
  | connect (fd : Int) (clientIp : Bytes) (localAddress : AddressText)
  | addCam (sessionId : SessionId) (stringName : Bytes)
  | removeCam (sessionId : SessionId)
  | serverReads (fd : Int)
  | clientReads (fd : Int) (sockets : Nat → UInt16 × UInt16)

/-- The server cannot take the step, or no message is there to be read. -/
inductive Stuck where
  | server (halt : Halt)
  | noMessage
deriving DecidableEq, Repr

/-- What the server sends to this client. -/
def sentTo (fd : Int) (events : List Event) : List Bytes :=
  events.filterMap fun event =>
    match event with
    | .send other text => if other = fd then some text else none
    | _ => none

namespace MonitorSystem

/-- No client is connected. -/
def start (ip : AddressText) (port : UInt16) : MonitorSystem :=
  ⟨.start (InetAddress.toString ⟨ip.text, port⟩), ∅⟩

/-- A step of the server, and the messages that it sends. -/
def serve (system : MonitorSystem) (input : Input) : Except Stuck (MonitorSystem × List Event) :=
  match system.server.step input with
  | .error halt => .error (.server halt)
  | .ok (server, events) =>
      .ok (⟨server, system.links.map fun fd link => link.deliver (sentTo fd events)⟩, events)

theorem serve_ok {system next : MonitorSystem} {input : Input} {events : List Event}
    (h : system.serve input = .ok (next, events)) :
    ∃ server, system.server.step input = .ok (server, events) ∧
      next = ⟨server, system.links.map fun fd link => link.deliver (sentTo fd events)⟩ := by
  unfold serve at h
  split at h
  · cases h
  · rename_i server calls hstep
    cases h
    exact ⟨server, hstep, rfl⟩

/-- One step of the server or of a client. -/
def step (system : MonitorSystem) : Action → Except Stuck (MonitorSystem × List Event)
  | .connect fd clientIp localAddress =>
      let (widget, up) := (MonitorClientWidget.start localAddress).sendSetup
      (system.serve (.accept fd clientIp)).map fun result =>
        ({ result.1 with links := result.1.links.insert fd ⟨widget, up, []⟩ }, result.2)
  | .addCam sessionId stringName => system.serve (.addCam sessionId.text stringName)
  | .removeCam sessionId => system.serve (.removeCam sessionId.text)
  | .serverReads fd =>
      match system.links[fd]? with
      | some ⟨widget, text :: up, down⟩ =>
          serve { system with links := system.links.insert fd ⟨widget, up, down⟩ }
            (.receive fd (.bytes text))
      | _ => .error .noMessage
  | .clientReads fd sockets =>
      match system.links[fd]? with
      | some ⟨widget, up, text :: down⟩ =>
          let (widget, texts) := widget.onReadyRead text sockets
          .ok ({ system with links := system.links.insert fd ⟨widget, up ++ texts, down⟩ }, [])
      | _ => .error .noMessage

end MonitorSystem

end CarDetect.Monitor
