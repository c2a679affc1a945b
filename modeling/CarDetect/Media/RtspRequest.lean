import CarDetect.Reactor.TcpConnection

/-!
# Reading an RTSP request

The functions of `RtspConnect` that take a request apart: `parseRequest`, `extractCSeq`,
`extractBody` and `parseTransport`. `parse_transport_type` says that a transport which
`parseTransport` accepts is of type UDP or TCP.
-/

namespace CarDetect.Media

open BigEndian ByteString Reactor

/-- The header map, with lower-case keys. -/
abbrev Headers := Bytes → Option Bytes

/-- `headers[key] = value` -/
def Headers.set (headers : Headers) (key value : Bytes) : Headers :=
  fun other => if other = key then some value else headers other

/-- The characters `" \t\r\n"`. -/
def isBlank (byte : UInt8) : Bool :=
  byte == 32 || byte == 9 || byte == 13 || byte == 10

/-- One header line: its name in lower case and its value. A line without a colon is skipped. -/
def parseHeader (headers : Headers) (line : Bytes) : Headers :=
  match find (ascii ":") line with
  | none => headers
  | some colonPos =>
      let key := trim isBlank (line.take colonPos)
      let value := trim isBlank (line.drop (colonPos + 1))
      headers.set (key.map tolower) value

/-- The header loop of `parseRequest`, which an empty line ends. -/
def parseHeaders (headers : Headers) : List Bytes → Headers
  | [] => headers
  | line :: rest =>
      if line = [] ∨ line = [13] then headers else parseHeaders (parseHeader headers line) rest

/-- What `parseRequest` fills in. -/
structure ParsedRequest where
  method : Bytes
  url : Bytes
  headers : Headers

/-- `parseRequest` -/
def parseRequest (request : Bytes) : ParsedRequest :=
  match getlines request with
  | [] => ⟨[], [], fun _ => none⟩
  | line :: rest =>
      let (method, afterMethod) := word line
      let (url, _) := word afterMethod
      ⟨method, url, parseHeaders (fun _ => none) rest⟩

/-- `extractCSeq` -/
def extractCSeq (headers : Headers) : Int :=
  match headers (ascii "cseq") with
  | some value => atoi value
  | none => 0

/-- The `contentLength` of `extractBody`, an `int` converted to `size_t`. -/
def bodyLength (headers : Headers) : Nat :=
  match headers (ascii "content-length") with
  | some value => (atoi value % sizeRange).toNat
  | none => 0

/-- `extractBody` -/
def extractBody (request : Bytes) (headers : Headers) : Bytes :=
  match find CRLFCRLF request with
  | none => []
  | some headerEnd =>
      let pos := headerEnd + 4
      let contentLength := bodyLength headers
      if contentLength = 0 then request.drop pos
      else if (pos + contentLength) % sizeRange > request.length then []
      else (request.drop pos).take contentLength

/-! ## The Transport header -/

/-- What `parseTransport` fills in. -/
structure Transport where
  transportType : Bytes
  clientRtpPort : UInt16
  clientRtcpPort : UInt16
  serverRtpPort : UInt16
  serverRtcpPort : UInt16
  rtpChannel : UInt8
  rtcpChannel : UInt8
deriving DecidableEq, Repr

/-- The two numbers of a parameter `key=a-b`, up to a semicolon; zeros when there is no such
parameter or no dash after it. -/
def numberPair (key transport : Bytes) : Int × Int :=
  match find key transport with
  | none => (0, 0)
  | some pos =>
      let value := transport.drop (pos + key.length)
      match find (ascii "-") value with
      | none => (0, 0)
      | some dashPos =>
          let first := value.take dashPos
          let second := (value.drop (dashPos + 1)).takeWhile (· != 59)
          let blank := fun byte : UInt8 => byte == 32 || byte == 9
          (atoi (trim blank first), atoi (trim blank second))

/-- `parseTransport`; nothing when it returns false. -/
def parseTransport (transport : Bytes) : Option Transport :=
  if (find (ascii "RTP/AVP/UDP") transport).isSome ∨
      (find (ascii "RTP/AVP;UDP") transport).isSome then
    let client := numberPair (ascii "client_port=") transport
    let server := numberPair (ascii "server_port=") transport
    let clientRtpPort := UInt16.ofInt client.1
    let clientRtcpPort := UInt16.ofInt client.2
    if clientRtpPort > 0 ∧ clientRtcpPort > 0 then
      some ⟨ascii "UDP", clientRtpPort, clientRtcpPort, UInt16.ofInt server.1,
        UInt16.ofInt server.2, 0, 0⟩
    else none
  else if (find (ascii "RTP/AVP/TCP") transport).isSome ∨
      (find (ascii "RTP/AVP;TCP") transport).isSome then
    let channels := numberPair (ascii "interleaved=") transport
    some ⟨ascii "TCP", 0, 0, 0, 0, UInt8.ofInt channels.1, UInt8.ofInt channels.2⟩
  else none

/-- There is no third transport type. -/
theorem parse_transport_type {text : Bytes} {transport : Transport}
    (h : parseTransport text = some transport) :
    transport.transportType = ascii "UDP" ∨ transport.transportType = ascii "TCP" := by
  unfold parseTransport at h
  split at h
  · simp only at h
    split at h
    · cases h
      exact .inl rfl
    · cases h
  split at h
  · cases h
    exact .inr rfl
  · cases h

end CarDetect.Media
