import CarDetect.Monitor.MonitorRequest
import CarDetect.Monitor.ReadyRead

/-!
# The Qt client

`onReadyRead` follows `MonitorClientWidget::onReadyRead`, with `parseRespond` and the texts that
`sendSetup`, `sendMessage` and `sendAddCamRespond` write. Texts are ASCII, and of the sockets only
the local ports are modelled.
-/

namespace CarDetect.Monitor

open BigEndian ByteString Reactor Std

/-! ## Qt strings -/

/-- `QString::split` with `Qt::SkipEmptyParts`. -/
def splitParts (separator : UInt8) (text : Bytes) : List Bytes :=
  (getfields separator text).filter (· ≠ [])

/-- The replacement of CRLF by LF. -/
def normalizeLines : Bytes → Bytes
  | [] => []
  | 13 :: 10 :: rest => 10 :: normalizeLines rest
  | byte :: rest => byte :: normalizeLines rest

/-- `QString::toInt` on a trimmed text: 0 when it is not a decimal number that fits an `int`. -/
def toInt (text : Bytes) : Int :=
  let negative := text.head? == some 45
  let digits := if negative || text.head? == some 43 then text.tail else text
  let value : Int := if negative then -decimal digits else decimal digits
  if digits ≠ [] ∧ digits.all isdigit ∧ -2 ^ 31 ≤ value ∧ value < 2 ^ 31 then value else 0

/-! ## Messages of the server -/

/-- What `parseRespond` fills in. -/
structure ParsedRespond where
  first : Bytes
  second : Bytes
  headers : Headers

/-- One turn of the header loop of `parseRespond`. -/
def respondHeader (headers : Headers) (line : Bytes) : Headers :=
  let line := trim isspace line
  match find (ascii ":") line with
  | none => headers
  | some separatorIndex =>
      if separatorIndex > 0 then
        headers.insert (trim isspace (line.take separatorIndex))
          (trim isspace (line.drop (separatorIndex + 1)))
      else headers

/-- `parseRespond` -/
def parseRespond (request : Bytes) : ParsedRespond :=
  match splitParts 10 (normalizeLines request) with
  | [] => ⟨[], [], ∅⟩
  | startLine :: rest =>
      match splitParts 32 (trim isspace startLine) with
      | first :: second :: _ => ⟨first, second, rest.foldl respondHeader ∅⟩
      | _ => ⟨[], [], ∅⟩

/-! ## State -/

/-- The text of an address and a port. -/
structure AddressText where
  text : Bytes
  visible : ∀ byte ∈ text, isspace byte = false

/-- `transUdpPort`, with the local ports of its sockets. -/
structure TransUdpPort where
  udpRtpSocket : UInt16
  udpRtcpSocket : UInt16
  conv : UInt32
deriving DecidableEq, Repr

/-- `MonitorClientWidget`, with the local address and port of its socket. -/
structure MonitorClientWidget where
  camMap : TreeMap Bytes TransUdpPort
  buffer : Bytes
  cseq : Nat
  conv : UInt32
  localAddress : AddressText

/-! ## Requests -/

/-- The lines with which every request begins. -/
def requestLines (method : Bytes) (localAddress : AddressText) (cseq : Nat) : List Bytes :=
  [method ++ ascii " " ++ localAddress.text, ascii "Cseq: " ++ printNat cseq]

/-- The line of a camera in MESSAGE and ADDCAM. -/
def camLine (sessionId : Bytes) (udpPort : TransUdpPort) : Bytes :=
  sessionId ++ ascii ": " ++ (printNat udpPort.udpRtpSocket.toNat ++ ascii " " ++
    printNat udpPort.udpRtcpSocket.toNat ++ ascii " " ++ printNat udpPort.conv.toNat)

/-- A request of these lines. -/
def requestText (lines : List Bytes) : Bytes :=
  (lines.flatMap fun line => line ++ CRLF) ++ CRLF

namespace MonitorClientWidget

/-- A client that is not connected yet. -/
def start (localAddress : AddressText) : MonitorClientWidget := ⟨∅, [], 0, 1000, localAddress⟩

/-- `sendSetup` -/
def sendSetup (widget : MonitorClientWidget) : MonitorClientWidget × List Bytes :=
  let widget := { widget with cseq := widget.cseq + 1 }
  (widget, [requestText (requestLines (ascii "SETUP") widget.localAddress widget.cseq)])

/-- `sendMessage` -/
def sendMessage (widget : MonitorClientWidget) : MonitorClientWidget × List Bytes :=
  let widget := { widget with cseq := widget.cseq + 1 }
  (widget, [requestText (requestLines (ascii "MESSAGE") widget.localAddress widget.cseq ++
    widget.camMap.toList.map fun cam => camLine cam.1 cam.2)])

/-- `sendAddCamRespond`, for a camera that `onReadyRead` has just stored. The conversation is taken
from `_conv`. -/
def sendAddCamRespond (widget : MonitorClientWidget) (sessionId : Bytes) :
    MonitorClientWidget × List Bytes :=
  let widget := { widget with cseq := widget.cseq + 1 }
  (widget, widget.camMap[sessionId]?.toList.map fun udpPort =>
    requestText (requestLines (ascii "ADDCAM") widget.localAddress widget.cseq ++
      [camLine sessionId { udpPort with conv := widget.conv }]))

/-! ## Signals -/

/-- The loop over the cameras of the answer to SETUP. -/
def storeCams (headers : Headers) (udpPort : Nat → TransUdpPort)
    (camMap : TreeMap Bytes TransUdpPort) : TreeMap Bytes TransUdpPort :=
  (List.range (toInt (headers.getD (ascii "CamNum") [])).toNat).foldl
    (fun camMap i => camMap.insert (headers.getD (printNat i) []) (udpPort i)) camMap

/-- `onReadyRead`, with the local ports of the pairs of sockets that it binds. -/
def onReadyRead (widget : MonitorClientWidget) (chunk : Bytes) (sockets : Nat → UInt16 × UInt16) :
    MonitorClientWidget × List Bytes :=
  let (request, buffer) := takeRespond widget.buffer chunk
  let widget := { widget with buffer := buffer }
  let respond := parseRespond request
  let udpPort (i : Nat) : TransUdpPort :=
    ⟨(sockets i).1, (sockets i).2, widget.conv + (i + 1).toUInt32⟩
  let camNum := respond.headers.getD (ascii "CamNum") (ascii "0")
  if camNum ≠ ascii "0" then
    sendMessage { widget with
      camMap := storeCams respond.headers udpPort widget.camMap
      conv := widget.conv + (toInt camNum).toNat.toUInt32 }
  else if respond.first = ascii "ADDCAM" then
    match respond.headers[ascii "SessionId"]? with
    | none => (widget, [])
    | some stringName =>
        sendAddCamRespond { widget with
          camMap := widget.camMap.insert stringName (udpPort 0)
          conv := widget.conv + 1 } stringName
  else if respond.first = ascii "DELCAM" then
    match respond.headers[ascii "SessionId"]? with
    | none => (widget, [])
    | some sessionId => ({ widget with camMap := widget.camMap.erase sessionId }, [])
  else (widget, [])

end MonitorClientWidget

end CarDetect.Monitor
