import CarDetect.Lib.Machine
import CarDetect.Monitor.MonitorRequest

/-!
# The monitor server

`MonitorServer.step` follows `MonitorServer::acceptLoop`, `addCam` and `removeCam`, one event of the
loop or one call at a time: a new client, a result of `recv` on a client's socket, a datagram on the
RTP socket, a camera added or removed. Control blocks and threads are numbered in the order of
their creation. Of KCP only the calls are modelled.
-/

namespace CarDetect.Monitor

open BigEndian ByteString Reactor Std

/-- `InetAddress` -/
structure InetAddress where
  ip : Bytes
  port : UInt16
deriving DecidableEq, Repr

/-- `udpSession`. The pointer `ikcp` is the number of its control block or null, and `kcpThread` the
number of its thread if it is joinable. -/
structure UdpSession where
  videoUdpRtp : InetAddress
  videoUdpRtcp : InetAddress
  ikcp : Option Nat
  conv : UInt32
  kcpRuning : Bool
  kcpThread : Option Nat
deriving DecidableEq, Repr

/-- `QtClient`. The key under which it stands in the table is its descriptor. -/
structure QtClient where
  clientIp : Bytes
  sessionMap : TreeMap Bytes UdpSession
  buffer : Bytes
  cseq : Nat

/-- `MonitorServer`, with the text of its address and the number of sessions created so far. -/
structure MonitorServer where
  qtClients : TreeMap Int QtClient
  cams : TreeMap Bytes Bytes
  server : Bytes
  created : Nat

/-- What `recv` returns on a client's socket: an error, or up to 256 bytes, none at the end of the
stream. -/
inductive Recv where
  | failed
  | bytes (chunk : Bytes)
deriving DecidableEq, Repr

/-- What can happen next. A datagram comes with what the buffer on the stack holds before it. -/
inductive Input where
  | accept (fd : Int) (clientIp : Bytes)
  | receive (fd : Int) (result : Recv)
  | datagram (stale datagram : Bytes)
  | addCam (sessionId stringName : Bytes)
  | removeCam (sessionId : Bytes)
deriving DecidableEq, Repr

/-- The calls that the server makes. -/
inductive Event where
  | parseRequest (fd : Int) (request : Bytes)
  | send (fd : Int) (text : Bytes)
  | ikcpCreate (block : Nat) (conv : UInt32)
  | ikcpRelease (block : Nat)
  | ikcpInput (fd : Int) (sessionId datagram : Bytes)
  | startThread (thread : Nat)
  | joinThread (thread : Nat)
deriving DecidableEq, Repr

/-- The program ends, or the input cannot happen. -/
inductive Halt where
  | fault (fault : Fault)
  | noClient
  | descriptorInUse
deriving DecidableEq, Repr

/-! ## Sessions -/

/-- The stop of a session: its thread is joined and its control block released. -/
def UdpSession.stop (session : UdpSession) : UdpSession × List Event :=
  ({ session with kcpRuning := false, kcpThread := none, ikcp := none },
    session.kcpThread.toList.map .joinThread ++ session.ikcp.toList.map .ikcpRelease)

/-- The session that the MESSAGE and ADDCAM handlers store. -/
def UdpSession.create (clientIp : Bytes) (rtpPort rtcpPort conv created : Nat) : UdpSession where
  videoUdpRtp := ⟨clientIp, rtpPort.toUInt16⟩
  videoUdpRtcp := ⟨clientIp, rtcpPort.toUInt16⟩
  ikcp := some created
  conv := conv.toUInt32
  kcpRuning := true
  kcpThread := some created

/-- One turn of the header loop of the MESSAGE and ADDCAM handlers, on a client and the number of
sessions created. The assignment to the map destroys the session that stood there. -/
def registerCam (state : QtClient × Nat) (header : Bytes × Bytes) :
    Except Fault ((QtClient × Nat) × List Event) :=
  let (client, created) := state
  let (sessionId, value) := header
  if sessionId = ascii "cseq" then .ok ((client, created), [])
  else do
    let ports := getfields 32 value
    let rtpPort ← portNumber ports 0
    let rtcpPort ← portNumber ports 1
    if (client.sessionMap[sessionId]?.any fun old => old.kcpThread.isSome) then
      .error .joinableThread
    else do
      let conv ← portNumber ports 2
      let session := UdpSession.create client.clientIp rtpPort rtcpPort conv created
      .ok (({ client with sessionMap := client.sessionMap.insert sessionId session }, created + 1),
        [.ikcpCreate created session.conv, .startThread created])

/-- The header loop of the MESSAGE and ADDCAM handlers. -/
def registerCams (client : QtClient) (created : Nat) (headers : Headers) :
    Except Fault ((QtClient × Nat) × List Event) :=
  Machine.run registerCam (client, created) headers.toList

/-! ## Requests of a client -/

/-- The bytes received are appended to `_buffer`, and the text up to the first empty line is taken
from it. Without an empty line `find` returns `npos`: the text is the whole buffer, and
`erase(0, npos + 4)` removes three bytes. -/
def takeRequest (buffer chunk : Bytes) : Bytes × Bytes :=
  let buffer := buffer ++ chunk
  match find CRLFCRLF buffer with
  | some position => (buffer.take position, buffer.drop (position + 4))
  | none => (buffer, buffer.drop 3)

namespace MonitorServer

/-- Before the first client. -/
def start (server : Bytes) : MonitorServer := ⟨∅, ∅, server, 0⟩

/-- The dispatch on the method of a request. -/
def handleRequest (server : MonitorServer) (fd : Int) (client : QtClient)
    (request : ParsedRequest) : Except Fault (MonitorServer × List Event) :=
  let store (client : QtClient) : MonitorServer :=
    { server with qtClients := server.qtClients.insert fd client }
  let register : Except Fault (MonitorServer × List Event) :=
    (registerCams client server.created request.headers).map fun result =>
      ({ store result.1.1 with created := result.1.2 }, result.2)
  if request.method = ascii "SETUP" then
    .ok (store client, [.send fd (respondText (setupHeaders server.cams) client.cseq)])
  else if request.method = ascii "MESSAGE" then register
  else if request.method = ascii "ADDCAM" then register
  else .ok (store client, [])

/-- The client branch of `acceptLoop`, when `recv` has returned some bytes. -/
def handleBytes (server : MonitorServer) (fd : Int) (client : QtClient) (chunk : Bytes) :
    Except Fault (MonitorServer × List Event) :=
  let (request, buffer) := takeRequest client.buffer chunk
  match parseRequest request with
  | .error fault => .error fault
  | .ok parsed =>
      (server.handleRequest fd { client with buffer := buffer, cseq := client.cseq + 1 } parsed).map
        fun result => (result.1, .parseRequest fd request :: result.2)

/-- The client branch of `acceptLoop` at the end of the stream. -/
def closeClient (server : MonitorServer) (fd : Int) (client : QtClient) :
    MonitorServer × List Event :=
  ({ server with qtClients := server.qtClients.erase fd },
    client.sessionMap.toList.flatMap fun session => session.2.stop.2)

/-- The client branch of `acceptLoop`. A negative result becomes the length of the bytes to
append. -/
def receive (server : MonitorServer) (fd : Int) (client : QtClient) (result : Recv) :
    Except Fault (MonitorServer × List Event) :=
  match result with
  | .failed => .error .lengthError
  | .bytes [] => .ok (server.closeClient fd client)
  | .bytes chunk => server.handleBytes fd client chunk

/-! ## Datagrams -/

/-- `kcp_getu32` -/
def kcpGetu32 (buffer : Bytes) : UInt32 :=
  (buffer.getD 0 0).toUInt32 ||| (buffer.getD 1 0).toUInt32 <<< 8 |||
    (buffer.getD 2 0).toUInt32 <<< 16 ||| (buffer.getD 3 0).toUInt32 <<< 24

/-- The scan for a session with this conversation, through the clients in the order of their
descriptors and the sessions of each in the order of their ids. -/
def findSession (server : MonitorServer) (conv : UInt32) : Option (Int × Bytes) :=
  server.qtClients.toList.findSome? fun entry =>
    (entry.2.sessionMap.toList.find? fun session => session.2.conv == conv).map fun session =>
      (entry.1, session.1)

/-- The size of `udp_buffer`. -/
def udpBufferSize : Nat := 2048

/-- One turn of the datagram loop of `acceptLoop`. A result of 0 ends the loop. -/
def receiveDatagram (server : MonitorServer) (stale datagram : Bytes) :
    Except Fault (List Event) :=
  let received := datagram.take udpBufferSize
  if received = [] then .ok []
  else
    match server.findSession (kcpGetu32 (received ++ stale.drop received.length)) with
    | none => .error .nullSession
    | some (fd, sessionId) => .ok [.ikcpInput fd sessionId received]

/-! ## Cameras -/

/-- A loop over the clients that changes each of them. -/
def forClients (server : MonitorServer) (body : Int → QtClient → QtClient × List Event) :
    MonitorServer × List Event :=
  ({ server with qtClients := server.qtClients.map fun fd client => (body fd client).1 },
    server.qtClients.toList.flatMap fun entry => (body entry.1 entry.2).2)

/-- The body of the loop in `addCam`. -/
def announceCam (server : Bytes) (sessionId : Bytes) (fd : Int) (client : QtClient) :
    QtClient × List Event :=
  if client.sessionMap.contains sessionId then (client, [])
  else
    ({ client with cseq := client.cseq + 1 },
      [.send fd (addCamReq server sessionId (client.cseq + 1))])

/-- `addCam` -/
def addCam (server : MonitorServer) (sessionId stringName : Bytes) : MonitorServer × List Event :=
  forClients { server with cams := server.cams.insert sessionId stringName }
    (announceCam server.server sessionId)

/-- The body of the loop in `removeCam`. -/
def withdrawCam (server : Bytes) (sessionId : Bytes) (fd : Int) (client : QtClient) :
    QtClient × List Event :=
  match client.sessionMap[sessionId]? with
  | none => (client, [])
  | some session =>
      ({ client with sessionMap := client.sessionMap.erase sessionId },
        .send fd (removeCamReq server sessionId client.cseq) :: session.stop.2)

/-- `removeCam` -/
def removeCam (server : MonitorServer) (sessionId : Bytes) : MonitorServer × List Event :=
  forClients { server with cams := server.cams.erase sessionId }
    (withdrawCam server.server sessionId)

/-! ## Steps -/

/-- One event of the loop, or one call of `addCam` or `removeCam`. -/
def step (server : MonitorServer) : Input → Except Halt (MonitorServer × List Event)
  | .accept fd clientIp =>
      if server.qtClients.contains fd then .error .descriptorInUse
      else .ok ({ server with qtClients := server.qtClients.insert fd ⟨clientIp, ∅, [], 0⟩ }, [])
  | .receive fd result =>
      match server.qtClients[fd]? with
      | none => .error .noClient
      | some client =>
          match server.receive fd client result with
          | .error fault => .error (.fault fault)
          | .ok outcome => .ok outcome
  | .datagram stale datagram =>
      match server.receiveDatagram stale datagram with
      | .error fault => .error (.fault fault)
      | .ok events => .ok (server, events)
  | .addCam sessionId stringName => .ok (server.addCam sessionId stringName)
  | .removeCam sessionId => .ok (server.removeCam sessionId)

end MonitorServer

end CarDetect.Monitor
