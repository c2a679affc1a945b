import CarDetect.Media.RtspRequest
import CarDetect.Reactor.EventLoop

/-!
# RTSP sessions

`RtspConnect.handleRequest` follows `RtspConnect::handleRequest` and its handlers: the session's
state, the calls it makes on the outside, in order, and the faults that end the program. What the
outside answers, the port of `allocateUdpPorts` and the socket of a new `UdpConnection`, arrives
with the request. Of KCP only the pointer `_camKcp` is modelled.
-/

namespace CarDetect.Media

open BigEndian ByteString Reactor

/-- `RtspState` -/
inductive RtspState where
  | init
  | ready
  | playing
deriving DecidableEq, Repr

/-- The pointer `_camKcp`. It has no initialiser; `garbage` is what its memory holds at first. -/
inductive CamKcp where
  | uninitialised (garbage : UInt64)
  | null
  | block (conv : UInt32) (user : Option UdpConnection)
deriving DecidableEq, Repr

/-- The pointer points to a control block. -/
def CamKcp.live : CamKcp → Bool
  | .block _ _ => true
  | _ => false

@[simp] theorem CamKcp.block_live (conv : UInt32) (user : Option UdpConnection) :
    (CamKcp.block conv user).live = true := rfl

@[simp] theorem CamKcp.null_live : CamKcp.null.live = false := rfl

/-- The members of `RtspConnect`, of its `_session`, and `callbacks`, the connections whose message
callback is set. `kcpThread` says whether `_kcpThread` is joinable. -/
structure RtspConnect where
  sessionId : Bytes
  clientIp : Bytes
  serverIp : Bytes
  state : RtspState
  transportType : Bytes
  videoRtpConn : Option UdpConnection
  videoRtcpConn : Option UdpConnection
  audioRtpConn : Option UdpConnection
  audioRtcpConn : Option UdpConnection
  sdp : Bytes
  camKcp : CamKcp
  kcpRunning : Bool
  kcpThread : Bool
  callbacks : List UdpConnection
deriving DecidableEq, Repr

/-- The constructor, over memory that holds `garbage` in the place of `_camKcp`. -/
def RtspConnect.create (sessionId clientIp serverIp : Bytes) (garbage : UInt64) : RtspConnect where
  sessionId := sessionId
  clientIp := clientIp
  serverIp := serverIp
  state := .init
  transportType := []
  videoRtpConn := none
  videoRtcpConn := none
  audioRtpConn := none
  audioRtcpConn := none
  sdp := []
  camKcp := .uninitialised garbage
  kcpRunning := false
  kcpThread := false
  callbacks := []

/-- The arguments of `sendResponse`. -/
structure Response where
  statusCode : Nat
  statusText : Bytes
  extraHeaders : List (Bytes × Bytes)
  cseq : Int
deriving DecidableEq, Repr

/-- Calls on the outside. `ikcpCreate` carries the pointer it overwrites, and the two that install
code which uses `_camKcp` carry the pointer that this code finds. -/
inductive Event where
  | allocateUdpPorts
  | addUdpConnection (conn : UdpConnection)
  | removeUdpConnection (conn : UdpConnection)
  | ikcpCreate (conv : UInt32) (replaced : CamKcp)
  | ikcpRelease
  | startKcpThread (camKcp : CamKcp)
  | setMessageCallback (conn : UdpConnection) (camKcp : CamKcp)
  | removeCam (sessionId : Bytes)
  | removeSession (sessionId : Bytes)
  | sendResponse (response : Response)
deriving DecidableEq, Repr

/-- How a request ends the program: `std::stoul` throws, a `std::thread` is assigned over a joinable
one, a call goes through a null `videoRtpConn`, or `ikcp_release` gets a pointer that was never
set. -/
inductive Fault where
  | conversion (error : ConversionError)
  | joinableThread
  | nullVideoConn
  | wildRelease
deriving DecidableEq, Repr

/-- A request, with what `allocateUdpPorts` and `socket()` return if it makes these calls. -/
structure Arrival where
  request : Bytes
  basePort : UInt16
  socket : Socket
deriving DecidableEq, Repr

namespace RtspConnect

/-- The check of the `Session` header in `handleRecord` and `handleTeardown`. -/
def checkSession (sessionId : Bytes) (headers : Headers) : Bool :=
  match headers (ascii "session") with
  | some value => (find sessionId value).isSome
  | none => false

/-- `handleOpitions` -/
def handleOpitions (conn : RtspConnect) (cseq : Int) : RtspConnect × List Event :=
  (conn, [.sendResponse ⟨200, ascii "OK",
    [(ascii "Public", ascii "OPTIONS, ANNOUNCE, SETUP, TEARDOWN, RECORD")], cseq⟩])

/-- `handleAnnounce` -/
def handleAnnounce (conn : RtspConnect) (request : Bytes) (headers : Headers) (cseq : Int) :
    RtspConnect × List Event :=
  ({ conn with sdp := extractBody request headers }, [.sendResponse ⟨200, ascii "OK", [], cseq⟩])

/-! ## SETUP -/

/-- The server ports of a track: those that the client names, or else a new pair at a distance from
the port allocated. -/
def serverPorts (transport : Transport) (basePort offset : UInt16) :
    List Event × UInt16 × UInt16 :=
  if transport.serverRtpPort = 0 then
    ([.allocateUdpPorts], basePort + offset, basePort + offset + 1)
  else ([], transport.serverRtpPort, transport.serverRtcpPort)

/-- The UDP branch of `handleSetup`, with the server ports for the answer. -/
def setupUdp (conn : RtspConnect) (url : Bytes) (transport : Transport) (arrival : Arrival) :
    RtspConnect × List Event × UInt16 × UInt16 :=
  if (find (ascii "trackID=0") url).isSome then
    let (events, rtpPort, rtcpPort) := serverPorts transport arrival.basePort 0
    let video : UdpConnection :=
      ⟨arrival.socket, conn.serverIp, rtpPort, conn.clientIp, transport.clientRtpPort⟩
    ({ conn with videoRtpConn := some video }, events ++ [.addUdpConnection video], rtpPort,
      rtcpPort)
  else if (find (ascii "trackID=1") url).isSome then
    let (events, rtpPort, rtcpPort) := serverPorts transport arrival.basePort 2
    let audio : UdpConnection :=
      ⟨arrival.socket, conn.serverIp, rtpPort, conn.clientIp, transport.clientRtpPort⟩
    ({ conn with audioRtpConn := some audio }, events ++ [.addUdpConnection audio], rtpPort,
      rtcpPort)
  else (conn, [], transport.serverRtpPort, transport.serverRtcpPort)

/-- The end of `handleSetup`. -/
def finishSetup (conn : RtspConnect) (transport : Bytes) (cseq : Int) : RtspConnect × List Event :=
  ({ conn with state := .ready },
    [.sendResponse ⟨200, ascii "OK",
      [(ascii "Session", conn.sessionId ++ ascii ";timeout=60"), (ascii "Transport", transport)],
      cseq⟩])

/-- `handleSetup` from the point where the transport is known. -/
def setupTransport (conn : RtspConnect) (url : Bytes) (transport : Transport) (arrival : Arrival)
    (cseq : Int) : RtspConnect × List Event :=
  let conn := { conn with transportType := transport.transportType }
  if transport.transportType = ascii "UDP" then
    let (conn, events, rtpPort, rtcpPort) := setupUdp conn url transport arrival
    let answer := ascii "RTP/AVP/UDP;unicast;client_port=" ++
      printNat transport.clientRtpPort.toNat ++ ascii "-" ++
      printNat transport.clientRtcpPort.toNat ++ ascii ";server_port=" ++
      printNat rtpPort.toNat ++ ascii "-" ++ printNat rtcpPort.toNat
    let (conn, answered) := finishSetup conn answer cseq
    (conn, events ++ answered)
  else if transport.transportType = ascii "TCP" then
    let rtcpChannel :=
      if transport.rtpChannel = 0 ∧ transport.rtcpChannel = 0 then 1 else transport.rtcpChannel
    let answer := ascii "RTP/AVP/TCP;unicast;interleaved=" ++
      printNat transport.rtpChannel.toNat ++ ascii "-" ++ printNat rtcpChannel.toNat
    finishSetup conn answer cseq
  else (conn, [.sendResponse ⟨461, ascii "Unsupported Transport", [], cseq⟩])

/-- `handleSetup` -/
def handleSetup (conn : RtspConnect) (url : Bytes) (headers : Headers) (arrival : Arrival)
    (cseq : Int) : RtspConnect × List Event :=
  match headers (ascii "transport") with
  | none => (conn, [.sendResponse ⟨400, ascii "Bad Request", [], cseq⟩])
  | some text =>
      match parseTransport text with
      | none => (conn, [.sendResponse ⟨400, ascii "Bad Request", [], cseq⟩])
      | some transport => setupTransport conn url transport arrival cseq

/-! ## RECORD -/

/-- The conversation of a `KcpId` header, for an `unsigned long` of `width` bits. -/
def kcpConv (width : Nat) (kcpId : Bytes) : Except ConversionError UInt32 :=
  (stoul width kcpId).map Nat.toUInt32

/-- `initCamKcp` -/
def initCamKcp (conn : RtspConnect) (conv : UInt32) (kcpClient : Option UdpConnection) :
    RtspConnect × List Event :=
  ({ conn with camKcp := .block conv kcpClient }, [.ikcpCreate conv conn.camKcp])

/-- `handleRecord` from the start of the KCP thread on. -/
def startKcp (conn : RtspConnect) (cseq : Int) : Except Fault (RtspConnect × List Event) :=
  if conn.kcpThread then .error .joinableThread
  else
    match conn.videoRtpConn with
    | none => .error .nullVideoConn
    | some video =>
        let started : RtspConnect :=
          { conn with
            kcpRunning := true, kcpThread := true, callbacks := conn.callbacks.insert video }
        let events := [.startKcpThread conn.camKcp, .setMessageCallback video conn.camKcp]
        if conn.state ≠ .ready then
          .ok (started, events ++
            [.sendResponse ⟨455, ascii "Method Not Valid in This State", [], cseq⟩])
        else
          .ok ({ started with state := .playing }, events ++
            [.sendResponse ⟨200, ascii "OK", [(ascii "Session", conn.sessionId)], cseq⟩])

/-- `handleRecord` from the point where the session is checked. -/
def record (conn : RtspConnect) (kcpId : Option Bytes) (cseq : Int) :
    Except Fault (RtspConnect × List Event) :=
  match kcpId with
  | none => startKcp conn cseq
  | some text =>
      match kcpConv 64 text with
      | .error error => .error (.conversion error)
      | .ok conv =>
          let (conn, events) := initCamKcp conn conv conn.videoRtpConn
          (startKcp conn cseq).map fun result => (result.1, events ++ result.2)

/-- `handleRecord` -/
def handleRecord (conn : RtspConnect) (headers : Headers) (cseq : Int) :
    Except Fault (RtspConnect × List Event) :=
  if checkSession conn.sessionId headers then record conn (headers (ascii "kcpid")) cseq
  else .ok (conn, [.sendResponse ⟨454, ascii "Session Not Found", [], cseq⟩])

/-! ## TEARDOWN -/

/-- The connections that the session holds, in the order in which `releaseSession` looks at them. -/
def slots (conn : RtspConnect) : List UdpConnection :=
  [conn.videoRtpConn, conn.videoRtcpConn, conn.audioRtpConn, conn.audioRtcpConn].filterMap id

/-- `if (_camKcp) { ikcp_release(_camKcp); _camKcp = nullptr; }` -/
def releaseKcp (conn : RtspConnect) : Except Fault (RtspConnect × List Event) :=
  match conn.camKcp with
  | .uninitialised garbage => if garbage ≠ 0 then .error .wildRelease else .ok (conn, [])
  | .null => .ok (conn, [])
  | .block _ _ => .ok ({ conn with camKcp := .null }, [.ikcpRelease])

/-- `releaseSession` -/
def releaseSession (conn : RtspConnect) : Except Fault (RtspConnect × List Event) :=
  let stopped := { conn with kcpRunning := false, kcpThread := false }
  (releaseKcp stopped).map fun result =>
    (result.1, [.removeCam conn.sessionId] ++ result.2 ++ conn.slots.map .removeUdpConnection ++
      [.removeSession conn.sessionId])

/-- `handleTeardown` -/
def handleTeardown (conn : RtspConnect) (headers : Headers) (cseq : Int) :
    Except Fault (RtspConnect × List Event) :=
  if checkSession conn.sessionId headers then
    (releaseSession conn).map fun result =>
      (result.1, result.2 ++ [.sendResponse ⟨200, ascii "OK", [], cseq⟩])
  else .ok (conn, [.sendResponse ⟨454, ascii "Session Not Found", [], cseq⟩])

/-- `handleRequest` -/
def handleRequest (conn : RtspConnect) (arrival : Arrival) :
    Except Fault (RtspConnect × List Event) :=
  let parsed := parseRequest arrival.request
  let headers := parsed.headers
  let cseq := extractCSeq headers
  if parsed.method = ascii "OPTIONS" then .ok (conn.handleOpitions cseq)
  else if parsed.method = ascii "ANNOUNCE" then
    .ok (conn.handleAnnounce arrival.request headers cseq)
  else if parsed.method = ascii "SETUP" then
    .ok (conn.handleSetup parsed.url headers arrival cseq)
  else if parsed.method = ascii "RECORD" then conn.handleRecord headers cseq
  else if parsed.method = ascii "TEARDOWN" then conn.handleTeardown headers cseq
  else .ok (conn, [.sendResponse ⟨501, ascii "Not Implemented", [], cseq⟩])

end RtspConnect

end CarDetect.Media
