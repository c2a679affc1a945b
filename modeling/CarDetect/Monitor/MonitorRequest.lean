import CarDetect.Media.RtspRequest
import Std.Data.TreeMap

/-!
# The texts of the monitor protocol

`parseRequest` of `MonitorServer`, which takes the header's value from the second character after
the colon, the loop over the blank-separated ports of a header, and the answers and requests that
the server sends.
-/

namespace CarDetect.Monitor

open BigEndian ByteString Reactor Std

/-- How an input ends the program: a `size_t` made of the result -1 of `recv`, a substring that
starts after the end, an index past the end of a vector, an exception of `std::stoul`, a
`std::thread` destroyed while it is joinable, or a null session dereferenced. -/
inductive Fault where
  | lengthError
  | outOfRange
  | indexOutOfRange
  | conversion (error : ConversionError)
  | joinableThread
  | nullSession
deriving DecidableEq, Repr

/-! ## Requests -/

/-- A header map, in the order of its keys. -/
abbrev Headers := TreeMap Bytes Bytes

/-- One header line. A line without a colon is skipped. -/
def parseHeader (headers : Headers) (line : Bytes) : Except Fault Headers :=
  match find (ascii ":") line with
  | none => .ok headers
  | some colonPos =>
      if colonPos + 2 > line.length then .error .outOfRange
      else
        let key := trim Media.isBlank (line.take colonPos)
        let value := trim Media.isBlank (line.drop (colonPos + 2))
        .ok (headers.insert (key.map tolower) value)

/-- The header loop of `parseRequest`, which an empty line ends. -/
def parseHeaders (headers : Headers) : List Bytes → Except Fault Headers
  | [] => .ok headers
  | line :: rest =>
      if line = [] ∨ line = [13] then .ok headers
      else
        match parseHeader headers line with
        | .error fault => .error fault
        | .ok headers => parseHeaders headers rest

/-- What `parseRequest` fills in. -/
structure ParsedRequest where
  method : Bytes
  url : Bytes
  headers : Headers

/-- `parseRequest` -/
def parseRequest (request : Bytes) : Except Fault ParsedRequest :=
  match getlines request with
  | [] => .ok ⟨[], [], ∅⟩
  | line :: rest =>
      let (method, afterMethod) := word line
      let (url, _) := word afterMethod
      (parseHeaders ∅ rest).map fun headers => ⟨method, url, headers⟩

/-- The pieces that successive calls of `std::getline` with this delimiter read. -/
def getfields (delimiter : UInt8) : Bytes → List Bytes
  | [] => []
  | byte :: rest =>
      if byte = delimiter then [] :: getfields delimiter rest
      else
        match getfields delimiter rest with
        | [] => [[byte]]
        | field :: fields => (byte :: field) :: fields

/-- `std::stoul(ports[index])` -/
def portNumber (ports : List Bytes) (index : Nat) : Except Fault Nat :=
  match ports[index]? with
  | none => .error .indexOutOfRange
  | some text =>
      match stoul 64 text with
      | .error error => .error (.conversion error)
      | .ok number => .ok number

/-- The bytes of a request with these lines. -/
def clientText (lines : List String) : Bytes :=
  (lines.flatMap fun line => ascii line ++ CRLF) ++ CRLF

/-! ## Answers -/

/-- The text that `sendRespond` sends. -/
def respondText (extraHeaders : Headers) (cseq : Nat) : Bytes :=
  ascii "200 OK" ++ CRLF ++ ascii "CSeq: " ++ printNat cseq ++ CRLF ++
    (extraHeaders.toList.flatMap fun header => header.1 ++ ascii ": " ++ header.2 ++ CRLF) ++ CRLF

/-- The extra headers of the answer to SETUP: the number of cameras, and each camera's id under its
position. -/
def setupHeaders (cams : TreeMap Bytes Bytes) : Headers :=
  cams.keys.zipIdx.foldl (fun headers cam => headers.insert (printNat cam.2) cam.1)
    ((∅ : Headers).insert (ascii "CamNum") (printNat cams.size))

/-- A request of the server that names a camera. -/
def camRequest (method server sessionId : Bytes) (cseq : Nat) : Bytes :=
  method ++ server ++ CRLF ++ ascii "Cseq: " ++ printNat cseq ++ CRLF ++
    ascii "SessionId: " ++ sessionId ++ CRLFCRLF

/-- The request of `addCam`. -/
def addCamReq (server sessionId : Bytes) (cseq : Nat) : Bytes :=
  camRequest (ascii "ADDCAM ") server sessionId cseq

/-- The request of `removeCam`. -/
def removeCamReq (server sessionId : Bytes) (cseq : Nat) : Bytes :=
  camRequest (ascii "DELCAM ") server sessionId cseq

end CarDetect.Monitor
