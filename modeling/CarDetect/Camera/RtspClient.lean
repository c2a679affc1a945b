import CarDetect.Lib.Lines

/-!
# The camera's RTSP client

The requests that the camera writes and its reading of the answer to SETUP, after `camera/rtsp.c`
and `main` of `camera/rtsp_client.c`, and the first field of the segments that it sends, after
`ikcp.c`. A C string is the list of its bytes without the zero.
-/

namespace CarDetect.Camera

open BigEndian ByteString

/-- The fields of `rtsp_session_t` that the requests and the answers read or write. `conv` is
`kcp->conv`. -/
structure RtspClient where
  sessionId : Bytes
  cseq : Int32
  serverRtpPort : UInt16
  serverRtcpPort : UInt16
  rtpChannel : UInt16
  rtcpChannel : UInt16
  transType : Bytes
  conv : UInt32
deriving DecidableEq, Repr

/-- A text that `snprintf` printed into a buffer of `size` bytes: the string that fits, and the
length it returns, which is that of the whole text. -/
structure Printed where
  size : Nat
  kept : Bytes
  len : Nat
deriving DecidableEq, Repr

/-- `snprintf` -/
def snprintf (size : Nat) (text : Bytes) : Printed :=
  ⟨size, text.take (size - 1), text.length⟩

/-- All of the text is in the buffer, so that `tcp_write` finds `len` bytes there. -/
def Printed.Complete (printed : Printed) : Prop :=
  printed.len < printed.size

/-- The bytes that `tcp_write(…, request, len)` reads, the terminating zero behind the string. -/
def Printed.bytes (printed : Printed) : Bytes :=
  (printed.kept ++ [0]).take printed.len

/-! ## Requests -/

/-- `session->cseq++`. Behind the largest `int`, where C promises nothing, it wraps around. -/
def RtspClient.advance (session : RtspClient) : RtspClient :=
  { session with cseq := session.cseq + 1 }

/-- A header as the formats print it. -/
def printHeader (header : Bytes × Bytes) : Bytes :=
  header.1 ++ ascii ": " ++ header.2 ++ ascii "\r\n"

/-- The format that the requests share: the request line, `CSeq`, the headers of the method, the
empty line and the body. -/
def printRequest (size : Nat) (method url : Bytes) (session : RtspClient)
    (headers : List (Bytes × Bytes)) (body : Bytes) : RtspClient × Printed :=
  let session := session.advance
  (session, snprintf size (method ++ ascii " " ++ url ++ ascii " RTSP/1.0\r\n" ++
    ((ascii "CSeq", printInt session.cseq.toInt) :: headers).flatMap printHeader ++ ascii "\r\n" ++
    body))

/-- `User-Agent: RTSP Client` -/
def userAgent : Bytes × Bytes :=
  (ascii "User-Agent", ascii "RTSP Client")

/-- `rtsp_client_options` -/
def rtspClientOptions (session : RtspClient) (url : Bytes) : RtspClient × Printed :=
  printRequest 512 (ascii "OPTIONS") url session [userAgent] []

/-- `rtsp_client_announce`, with `strlen` converted to an `int`. -/
def rtspClientAnnounce (session : RtspClient) (url sdp : Bytes) : RtspClient × Printed :=
  printRequest 1024 (ascii "ANNOUNCE") url session
    [(ascii "Content-Type", ascii "application/sdp"),
      (ascii "Content-Length", printInt ((sdp.length : Int).bmod (2 ^ 32))), userAgent] sdp

/-- `setup_url` -/
def setupUrl (url : Bytes) : Bytes :=
  (snprintf 512 (url ++ ascii "/trackID=0")).kept

/-- `rtsp_client_setup` -/
def rtspClientSetup (session : RtspClient) (url transport : Bytes) : RtspClient × Printed :=
  printRequest 512 (ascii "SETUP") (setupUrl url) session
    [(ascii "Transport", transport), userAgent] []

/-- `rtsp_client_teardown` -/
def rtspClientTeardown (session : RtspClient) (url : Bytes) : RtspClient × Printed :=
  printRequest 512 (ascii "TEARDOWN") url session
    [(ascii "Session", session.sessionId), userAgent] []

/-- `rtsp_client_record`. `%d` prints the conversation as an `int`. -/
def rtspClientRecord (session : RtspClient) (url : Bytes) : RtspClient × Printed :=
  printRequest 512 (ascii "RECORD") url session
    [(ascii "Session", session.sessionId), userAgent,
      (ascii "KcpId", printInt session.conv.toInt32.toInt)] []

/-- The transport that `main` asks for. -/
def mainTransport (transType : Bytes) (rtpPort rtcpPort : UInt16) : Bytes :=
  (snprintf 256
    (if transType = ascii "tcp" then ascii "RTP/AVP/TCP;unicast;interleaved=0-1"
    else ascii "RTP/AVP/UDP;unicast;client_port=" ++ printInt rtpPort.toNat ++ ascii "-" ++
      printInt rtcpPort.toNat)).kept

/-! ## The answer to SETUP -/

/-- The characters that the loop over the session id takes. -/
def isIdChar (byte : UInt8) : Bool :=
  byte ≠ 0 && byte ≠ 13 && byte ≠ 59 && !isspace byte

/-- The two numbers of a parameter `a-b`: the first from here on, the second behind the first dash
if there is one. -/
def portPair (text : Bytes) : UInt16 × UInt16 :=
  (UInt16.ofInt (strtol text),
    match find (ascii "-") text with
    | some dash => UInt16.ofInt (strtol (text.drop (dash + 1)))
    | none => 0)

/-- `rtsp_parse_setup_response`, with its result. -/
def rtspParseSetupResponse (response : Bytes) (session : RtspClient) : RtspClient × Int :=
  let cleared : RtspClient :=
    { session with
      serverRtpPort := 0, serverRtcpPort := 0, rtpChannel := 0, rtcpChannel := 0, transType := [],
      sessionId := [] }
  let named : RtspClient :=
    match strcasestr (ascii "Session:") response with
    | some pos =>
        let value := (response.drop (pos + 8)).dropWhile (· == 32)
        { cleared with sessionId := (value.takeWhile isIdChar).take 63 }
    | none => cleared
  match strcasestr (ascii "server_port=") response with
  | some pos =>
      let ports := portPair (response.drop (pos + 12))
      ({ named with
        transType := ascii "udp", serverRtpPort := ports.1, serverRtcpPort := ports.2 }, 0)
  | none =>
      match strcasestr (ascii "interleaved=") response with
      | some pos =>
          let channels := portPair (response.drop (pos + 12))
          ({ named with
            transType := ascii "tcp", rtpChannel := channels.1, rtcpChannel := channels.2 }, 0)
      | none => (named, -1)

/-! ## The conversation of a KCP segment -/

/-- `IKCP_OVERHEAD`, the length of the header of a segment. -/
def IKCP_OVERHEAD : Nat := 24

/-- `ikcp_encode32u`: the least significant byte first. -/
def ikcpEncode32u (value : UInt32) : Bytes :=
  [value.toUInt8, (value >>> 8).toUInt8, (value >>> 16).toUInt8, (value >>> 24).toUInt8]

/-- `ikcp_decode32u` -/
def ikcpDecode32u : Bytes → UInt32
  | byte0 :: byte1 :: byte2 :: byte3 :: _ =>
      byte0.toUInt32 + ((byte1.toUInt32 + ((byte2.toUInt32 + (byte3.toUInt32 <<< 8)) <<< 8)) <<< 8)
  | _ => 0

/-- A segment passes the checks of `ikcp_input` on its size and on its conversation. -/
def ikcpAccepts (conv : UInt32) (segment : Bytes) : Bool :=
  IKCP_OVERHEAD ≤ segment.length && ikcpDecode32u segment == conv

/-- `ikcp_decode32u` reads what `ikcp_encode32u` wrote. -/
theorem ikcp_decode_encode (value : UInt32) (rest : Bytes) :
    ikcpDecode32u (ikcpEncode32u value ++ rest) = value := by
  simp only [ikcpEncode32u, List.cons_append, ikcpDecode32u]
  apply UInt32.toNat.inj
  have hvalue := value.toNat_lt
  simp [UInt32.toNat_add, UInt32.toNat_shiftLeft, UInt32.toNat_shiftRight,
    Nat.shiftRight_eq_div_pow, Nat.shiftLeft_eq]
  omega

end CarDetect.Camera
