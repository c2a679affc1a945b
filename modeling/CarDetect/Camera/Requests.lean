import CarDetect.Camera.RtspClient
import CarDetect.Media.RequestText
import CarDetect.Media.RtspSession

/-!
# The camera's requests as the server reads them

A request of the camera is a `WrittenRequest` of the server (`print_request_written`), so the server
recovers what the camera printed (`camera_understood`). `conv_survives` follows the conversation of
KCP from the camera's control block to the server's.
-/

namespace CarDetect.Camera

open BigEndian ByteString Reactor Media
open Monitor (headerLine one_line_of_visible isspace_of_isBlank requestText)

/-- A text that `snprintf` prints whole. -/
theorem snprintf_complete {size : Nat} {text : Bytes} (h : text.length < size) :
    (snprintf size text).Complete ∧ (snprintf size text).kept = text ∧
      (snprintf size text).bytes = text := by
  have hkept : text.take (size - 1) = text := List.take_of_length_le (by omega)
  refine ⟨h, hkept, ?_⟩
  simp only [Printed.bytes, snprintf, hkept, List.take_left]

section Requests

variable {size : Nat} {method url sdp : Bytes} {headers : List (Bytes × Bytes)} {body : Bytes}
  {session : RtspClient}

/-- The arguments of the common format from which the server recovers the request: what is printed
stays on its line, no name is printed twice and the text fits the buffer. -/
structure Sendable (size : Nat) (method url : Bytes) (headers : List (Bytes × Bytes))
    (body : Bytes) : Prop where
  method_ne : method ≠ []
  method_visible : ∀ byte ∈ method, isspace byte = false
  url_line : OneLine url
  printable : ∀ header ∈ headers, PrintableHeader header
  distinct : (ascii "cseq" :: headers.map fun header => header.1.map tolower).Nodup
  fits : method.length + url.length + (headers.flatMap printHeader).length + body.length + 33 < size

/-- A printed request is a request of the server. -/
theorem print_request_written (h : Sendable size method url headers body) (session : RtspClient) :
    ∃ request : WrittenRequest, request.method = method ∧ request.url = url ∧
      request.headers = (ascii "CSeq", printInt (session.cseq + 1).toInt) :: headers ∧
      request.body = body ∧ (printRequest size method url session headers body).2.Complete ∧
      (printRequest size method url session headers body).2.bytes = request.text := by
  let cseq : Bytes × Bytes := (ascii "CSeq", printInt (session.cseq + 1).toInt)
  have hcseq : PrintableHeader cseq :=
    .of_name (by decide) (forall_byte (by decide)) (one_line_of_visible (print_int_visible _))
  let request : WrittenRequest :=
    { method, url, headers := cseq :: headers, body, method_ne := h.method_ne,
      method_visible := h.method_visible, url_line := h.url_line,
      printable := List.forall_mem_cons.2 ⟨hcseq, h.printable⟩, distinct := h.distinct }
  have hlines : ∀ headers : List (Bytes × Bytes), headers.flatMap printHeader =
      (headers.map headerLine).flatMap fun line => line ++ CRLF := by
    intro headers
    rw [List.flatMap_map]
    rfl
  have htext : method ++ ascii " " ++ url ++ ascii " RTSP/1.0\r\n" ++
      (cseq :: headers).flatMap printHeader ++ ascii "\r\n" ++ body = request.text := by
    rw [hlines]
    simp only [WrittenRequest.text, WrittenRequest.lines, requestText, request, List.flatMap_cons]
    rw [show ascii " RTSP/1.0\r\n" = ascii " RTSP/1.0" ++ CRLF from rfl,
      show ascii "\r\n" = CRLF from rfl, show ascii " " = [32] from rfl]
    simp
  have hlength : request.text.length < size := by
    have hfits := h.fits
    have hprinted : (printHeader cseq).length ≤ 19 := by
      have hnumber := length_print_int (session.cseq + 1).le_toInt (session.cseq + 1).toInt_lt
      simp only [printHeader, cseq, List.length_append]
      rw [show (ascii "CSeq").length = 4 from rfl, show (ascii ": ").length = 2 from rfl,
        show (ascii "\r\n").length = 2 from rfl]
      omega
    rw [← htext, List.flatMap_cons]
    simp only [List.length_append]
    rw [show (ascii " ").length = 1 from rfl, show (ascii " RTSP/1.0\r\n").length = 11 from rfl,
      show (ascii "\r\n").length = 2 from rfl]
    omega
  obtain ⟨hcomplete, -, hbytes⟩ := snprintf_complete hlength
  rw [← htext] at hcomplete hbytes
  exact ⟨request, rfl, rfl, rfl, rfl, hcomplete, hbytes.trans htext⟩

/-- The request was sent whole, and the server recovers the method, the URL, the sequence number
and these headers. -/
structure Understood (sent : RtspClient × Printed) (method url : Bytes)
    (entries : List (Bytes × Bytes)) : Prop where
  complete : sent.2.Complete
  method : (parseRequest sent.2.bytes).method = method
  url : (parseRequest sent.2.bytes).url = url
  cseq : extractCSeq (parseRequest sent.2.bytes).headers = sent.1.cseq.toInt
  entries : ∀ entry ∈ entries, (parseRequest sent.2.bytes).headers entry.1 = some entry.2

/-- A string of 1 to `size` bytes without white space. -/
structure Plain (size : Nat) (text : Bytes) : Prop where
  nonempty : text ≠ []
  length : text.length ≤ size
  visible : ∀ byte ∈ text, isspace byte = false

theorem stored_plain (name : Bytes) {value : Bytes} (hne : value ≠ [])
    (hvisible : ∀ byte ∈ value, isspace byte = false) :
    stored (name, value) = (name.map tolower, value) := by
  have htrim := trim_padded [] [] (Trimmed.of_visible hne hvisible) isspace_of_isBlank (by simp)
    (by simp)
  rw [List.nil_append, List.append_nil] at htrim
  exact Prod.ext rfl htrim

theorem print_request_understood (h : Sendable size method url headers body) (hne : url ≠ [])
    (hurl : ∀ byte ∈ url, isspace byte = false) {entries : List (Bytes × Bytes)}
    (hentries : ∀ entry ∈ entries, entry ∈ headers.map stored) (session : RtspClient) :
    Understood (printRequest size method url session headers body) method url entries := by
  obtain ⟨request, hmethod, hurl', hheaders, -, hcomplete, hbytes⟩ :=
    print_request_written h session
  have hcseq : (parseRequest request.text).headers (ascii "cseq") =
      some (printInt (session.cseq + 1).toInt) := by
    refine (request.read_header _ _).2 ?_
    rw [hheaders, List.map_cons, stored_plain _ (print_int_ne_nil _) (print_int_visible _)]
    exact List.mem_cons_self
  refine ⟨hcomplete, ?_, ?_, ?_, fun entry hentry => ?_⟩
  · rw [hbytes, request.parse_text, hmethod]
  · rw [hbytes, request.read_url (by rwa [hurl']) (by rwa [hurl']), hurl']
  · rw [hbytes, extractCSeq, hcseq]
    exact atoi_print_int (Int32.le_toInt _) (Int32.toInt_lt _)
  · rw [hbytes]
    refine (request.read_header _ _).2 ?_
    rw [hheaders, List.map_cons]
    exact List.mem_cons_of_mem _ (hentries entry hentry)

/-! ## The five requests -/

theorem user_agent_printable : PrintableHeader userAgent :=
  .of_name (by decide) (forall_byte (by decide)) (by decide)

/-- The length of a printed header. -/
theorem length_print_header (header : Bytes × Bytes) :
    (printHeader header).length = header.1.length + header.2.length + 4 := by
  unfold printHeader
  rw [List.length_append, List.length_append, List.length_append]
  rw [show (ascii ": ").length = 2 from rfl, show (ascii "\r\n").length = 2 from rfl]
  omega

theorem options_sendable (hurl : Plain 255 url) :
    Sendable 512 (ascii "OPTIONS") url [userAgent] [] where
  method_ne := by decide
  method_visible := forall_byte (by decide)
  url_line := one_line_of_visible hurl.visible
  printable := List.forall_mem_singleton.2 user_agent_printable
  distinct := by decide
  fits := by
    have hlength := hurl.length
    rw [show (ascii "OPTIONS").length = 7 from rfl,
      show (List.flatMap printHeader [userAgent]).length = 25 from rfl, List.length_nil]
    omega

theorem announce_sendable (hurl : Plain 255 url) (hsdp : sdp.length ≤ 511) :
    Sendable 1024 (ascii "ANNOUNCE") url
      [(ascii "Content-Type", ascii "application/sdp"),
        (ascii "Content-Length", printInt sdp.length), userAgent] sdp where
  method_ne := by decide
  method_visible := forall_byte (by decide)
  url_line := one_line_of_visible hurl.visible
  printable := by
    refine List.forall_mem_cons.2 ⟨.of_name (by decide) (forall_byte (by decide)) (by decide), ?_⟩
    refine List.forall_mem_cons.2 ⟨.of_name (by decide) (forall_byte (by decide)) ?_, ?_⟩
    · exact one_line_of_visible (print_int_visible _)
    · exact List.forall_mem_singleton.2 user_agent_printable
  distinct := by
    simp only [List.map_cons, List.map_nil]
    decide
  fits := by
    have hlength := hurl.length
    have hnumber : (printInt sdp.length).length ≤ 11 := length_print_int (by omega) (by omega)
    simp only [List.flatMap_cons, List.flatMap_nil, List.length_append, List.length_nil,
      length_print_header]
    rw [show (ascii "ANNOUNCE").length = 8 from rfl,
      show (ascii "Content-Type").length = 12 from rfl,
      show (ascii "application/sdp").length = 15 from rfl,
      show (ascii "Content-Length").length = 14 from rfl, show userAgent.1.length = 10 from rfl,
      show userAgent.2.length = 11 from rfl]
    omega

/-- The length of the SDP is printed as it is. -/
theorem rtsp_client_announce_eq (session : RtspClient) (url : Bytes) (hsdp : sdp.length ≤ 511) :
    rtspClientAnnounce session url sdp = printRequest 1024 (ascii "ANNOUNCE") url session
      [(ascii "Content-Type", ascii "application/sdp"),
        (ascii "Content-Length", printInt sdp.length), userAgent] sdp := by
  have hint : (sdp.length : Int).bmod (2 ^ 32) = sdp.length :=
    Int.bmod_eq_of_le (by omega) (by omega)
  rw [rtspClientAnnounce, hint]

/-- The body of ANNOUNCE. -/
theorem announce_body (hurl : Plain 255 url) (hsdp : sdp.length ≤ 511) (session : RtspClient) :
    extractBody (rtspClientAnnounce session url sdp).2.bytes
      (parseRequest (rtspClientAnnounce session url sdp).2.bytes).headers = sdp := by
  have hsend := announce_sendable hurl hsdp
  obtain ⟨request, hmethod, hurl', hheaders, hbody, hcomplete, hbytes⟩ :=
    print_request_written hsend session
  have hfound : (parseRequest request.text).headers (ascii "content-length") =
      some (printInt sdp.length) := by
    refine (request.read_header _ _).2 ?_
    rw [hheaders]
    simp only [List.map_cons]
    rw [stored_plain (ascii "Content-Length") (print_int_ne_nil _) (print_int_visible _)]
    simp [show (ascii "Content-Length").map tolower = ascii "content-length" from rfl]
  have hlength : bodyLength (parseRequest request.text).headers = request.body.length := by
    unfold bodyLength
    have hread : atoi (printInt sdp.length) = sdp.length := atoi_print_int (by omega) (by omega)
    rw [hfound, hbody]
    simp only [hread]
    rw [show sizeRange = 2 ^ 64 from rfl]
    omega
  have hfits : request.text.length < sizeRange := by
    rw [← hbytes]
    calc _ ≤ _ := List.length_take_le _ _
      _ < 1024 := hcomplete
      _ ≤ sizeRange := by decide
  rw [rtsp_client_announce_eq session url hsdp, hbytes, request.read_body hlength hfits, hbody]

/-- A port has at most five digits. -/
theorem length_print_port (port : UInt16) : (printNat port.toNat).length ≤ 5 :=
  length_print (by decide) (port.toNat_lt.trans (by decide))

/-- `main` prints its transport whole. -/
theorem main_transport_eq (transType : Bytes) (rtpPort rtcpPort : UInt16) :
    mainTransport transType rtpPort rtcpPort =
      if transType = ascii "tcp" then ascii "RTP/AVP/TCP;unicast;interleaved=0-1"
      else ascii "RTP/AVP/UDP;unicast;client_port=" ++ printNat rtpPort.toNat ++ ascii "-" ++
        printNat rtcpPort.toNat := by
  have hrtp := length_print_port rtpPort
  have hrtcp := length_print_port rtcpPort
  simp only [mainTransport, print_int_natCast]
  refine (snprintf_complete ?_).2.1
  split
  · decide
  · simp only [List.length_append]
    rw [show (ascii "RTP/AVP/UDP;unicast;client_port=").length = 32 from rfl,
      show (ascii "-").length = 1 from rfl]
    omega

theorem main_transport_plain (transType : Bytes) (rtpPort rtcpPort : UInt16) :
    Plain 43 (mainTransport transType rtpPort rtcpPort) := by
  have hrtp := length_print_port rtpPort
  have hrtcp := length_print_port rtcpPort
  have hscheme : ∀ byte ∈ ascii "RTP/AVP/UDP;unicast;client_port=", isspace byte = false :=
    forall_byte (by decide)
  have hdash : ∀ byte ∈ ascii "-", isspace byte = false := forall_byte (by decide)
  rw [main_transport_eq]
  split
  · exact ⟨by decide, by decide, forall_byte (by decide)⟩
  · refine ⟨by simp [print_ne_nil], ?_, fun byte hbyte => ?_⟩
    · simp only [List.length_append]
      rw [show (ascii "RTP/AVP/UDP;unicast;client_port=").length = 32 from rfl,
        show (ascii "-").length = 1 from rfl]
      omega
    · simp only [List.mem_append] at hbyte
      rcases hbyte with ((hbyte | hbyte) | hbyte) | hbyte
      · exact hscheme byte hbyte
      · exact print_visible _ byte hbyte
      · exact hdash byte hbyte
      · exact print_visible _ byte hbyte

theorem setup_url_eq (hurl : Plain 255 url) : setupUrl url = url ++ ascii "/trackID=0" := by
  have hlength := hurl.length
  refine (snprintf_complete ?_).2.1
  rw [List.length_append, show (ascii "/trackID=0").length = 10 from rfl]
  omega

theorem setup_sendable (hurl : Plain 255 url) {transport : Bytes}
    (htransport : Plain 43 transport) :
    Sendable 512 (ascii "SETUP") (url ++ ascii "/trackID=0")
      [(ascii "Transport", transport), userAgent] [] where
  method_ne := by decide
  method_visible := forall_byte (by decide)
  url_line := (one_line_of_visible hurl.visible).append (by decide)
  printable := by
    refine List.forall_mem_cons.2 ⟨.of_name (by decide) (forall_byte (by decide)) ?_, ?_⟩
    · exact one_line_of_visible htransport.visible
    · exact List.forall_mem_singleton.2 user_agent_printable
  distinct := by
    simp only [List.map_cons, List.map_nil]
    decide
  fits := by
    have hlength := hurl.length
    have hvalue := htransport.length
    simp only [List.flatMap_cons, List.flatMap_nil, List.length_append, List.length_nil,
      length_print_header]
    rw [show (ascii "SETUP").length = 5 from rfl, show (ascii "/trackID=0").length = 10 from rfl,
      show (ascii "Transport").length = 9 from rfl, show userAgent.1.length = 10 from rfl,
      show userAgent.2.length = 11 from rfl]
    omega

theorem teardown_sendable (hurl : Plain 255 url) (hid : Plain 63 session.sessionId) :
    Sendable 512 (ascii "TEARDOWN") url [(ascii "Session", session.sessionId), userAgent] [] where
  method_ne := by decide
  method_visible := forall_byte (by decide)
  url_line := one_line_of_visible hurl.visible
  printable := by
    refine List.forall_mem_cons.2 ⟨.of_name (by decide) (forall_byte (by decide)) ?_, ?_⟩
    · exact one_line_of_visible hid.visible
    · exact List.forall_mem_singleton.2 user_agent_printable
  distinct := by
    simp only [List.map_cons, List.map_nil]
    decide
  fits := by
    have hlength := hurl.length
    have hvalue := hid.length
    simp only [List.flatMap_cons, List.flatMap_nil, List.length_append, List.length_nil,
      length_print_header]
    rw [show (ascii "TEARDOWN").length = 8 from rfl, show (ascii "Session").length = 7 from rfl,
      show userAgent.1.length = 10 from rfl, show userAgent.2.length = 11 from rfl]
    omega

/-- RECORD needs less of its URL and its session id than the other requests. -/
theorem record_sendable (session : RtspClient) (hurl : OneLine url) (hlength : url.length ≤ 255)
    (hid : OneLine session.sessionId) (hvalue : session.sessionId.length ≤ 63) :
    Sendable 512 (ascii "RECORD") url
      [(ascii "Session", session.sessionId), userAgent,
        (ascii "KcpId", printInt session.conv.toInt32.toInt)] [] where
  method_ne := by decide
  method_visible := forall_byte (by decide)
  url_line := hurl
  printable := by
    refine List.forall_mem_cons.2 ⟨.of_name (by decide) (forall_byte (by decide)) hid, ?_⟩
    refine List.forall_mem_cons.2 ⟨user_agent_printable, List.forall_mem_singleton.2 ?_⟩
    exact .of_name (by decide) (forall_byte (by decide)) (one_line_of_visible (print_int_visible _))
  distinct := by
    simp only [List.map_cons, List.map_nil]
    decide
  fits := by
    have hnumber := length_print_int session.conv.toInt32.le_toInt session.conv.toInt32.toInt_lt
    simp only [List.flatMap_cons, List.flatMap_nil, List.length_append, List.length_nil,
      length_print_header]
    rw [show (ascii "RECORD").length = 6 from rfl, show (ascii "Session").length = 7 from rfl,
      show userAgent.1.length = 10 from rfl, show userAgent.2.length = 11 from rfl,
      show (ascii "KcpId").length = 5 from rfl]
    omega

/-- The server understands SETUP, RECORD and TEARDOWN. -/
theorem setup_understood (hurl : Plain 255 url) {transport : Bytes}
    (htransport : Plain 43 transport) (session : RtspClient) :
    Understood (rtspClientSetup session url transport) (ascii "SETUP")
      (url ++ ascii "/trackID=0") [(ascii "transport", transport)] := by
  have hsuffix : ∀ byte ∈ ascii "/trackID=0", isspace byte = false := forall_byte (by decide)
  have htrack : ∀ byte ∈ url ++ ascii "/trackID=0", isspace byte = false := fun byte hbyte =>
    (List.mem_append.1 hbyte).elim (hurl.visible byte) (hsuffix byte)
  rw [rtspClientSetup, setup_url_eq hurl]
  refine print_request_understood (setup_sendable hurl htransport) (by simp [hurl.nonempty])
    htrack ?_ session
  rw [List.map_cons, stored_plain (ascii "Transport") htransport.nonempty htransport.visible]
  exact List.forall_mem_singleton.2 List.mem_cons_self

theorem record_understood (hurl : Plain 255 url) (hid : Plain 63 session.sessionId) :
    Understood (rtspClientRecord session url) (ascii "RECORD") url
      [(ascii "session", session.sessionId)] := by
  refine print_request_understood (record_sendable session (one_line_of_visible hurl.visible)
    hurl.length (one_line_of_visible hid.visible) hid.length) hurl.nonempty hurl.visible ?_ session
  rw [List.map_cons, stored_plain (ascii "Session") hid.nonempty hid.visible]
  exact List.forall_mem_singleton.2 List.mem_cons_self

theorem teardown_understood (hurl : Plain 255 url) (hid : Plain 63 session.sessionId) :
    Understood (rtspClientTeardown session url) (ascii "TEARDOWN") url
      [(ascii "session", session.sessionId)] := by
  refine print_request_understood (teardown_sendable hurl hid) hurl.nonempty hurl.visible ?_ session
  rw [List.map_cons, stored_plain (ascii "Session") hid.nonempty hid.visible]
  exact List.forall_mem_singleton.2 List.mem_cons_self

/-- The server understands every request that the camera writes. -/
theorem camera_understood (hurl : Plain 255 url) (hid : Plain 63 session.sessionId)
    (hsdp : sdp.length ≤ 511) (transType : Bytes) (rtpPort rtcpPort : UInt16) :
    Understood (rtspClientOptions session url) (ascii "OPTIONS") url [] ∧
      Understood (rtspClientAnnounce session url sdp) (ascii "ANNOUNCE") url [] ∧
      extractBody (rtspClientAnnounce session url sdp).2.bytes
        (parseRequest (rtspClientAnnounce session url sdp).2.bytes).headers = sdp ∧
      Understood (rtspClientSetup session url (mainTransport transType rtpPort rtcpPort))
        (ascii "SETUP") (url ++ ascii "/trackID=0")
        [(ascii "transport", mainTransport transType rtpPort rtcpPort)] ∧
      Understood (rtspClientRecord session url) (ascii "RECORD") url
        [(ascii "session", session.sessionId)] ∧
      Understood (rtspClientTeardown session url) (ascii "TEARDOWN") url
        [(ascii "session", session.sessionId)] := by
  refine ⟨?_, ?_, announce_body hurl hsdp session,
    setup_understood hurl (main_transport_plain transType rtpPort rtcpPort) session,
    record_understood hurl hid, teardown_understood hurl hid⟩
  · exact print_request_understood (options_sendable hurl) hurl.nonempty hurl.visible (by simp) _
  · rw [rtsp_client_announce_eq session url hsdp]
    exact print_request_understood (announce_sendable hurl hsdp) hurl.nonempty hurl.visible
      (by simp) _

/-- The camera at the default URL of `main`, in a session of the server. -/
def streamUrl : Bytes := ascii "rtsp://10.0.0.1:8554/stream"

def streamSession : RtspClient :=
  ⟨ascii "66a1-1", 2, 0, 0, 0, 0, [], 4000000000⟩

theorem stream_url_plain : Plain 255 streamUrl :=
  ⟨by decide, by decide, forall_byte (by decide)⟩

theorem camera_understood_stream :
    extractBody (rtspClientAnnounce streamSession streamUrl (ascii "v=0\r\n")).2.bytes
        (parseRequest
          (rtspClientAnnounce streamSession streamUrl (ascii "v=0\r\n")).2.bytes).headers =
      ascii "v=0\r\n" :=
  (camera_understood stream_url_plain ⟨by decide, by decide, forall_byte (by decide)⟩ (by decide)
    (ascii "udp") 5004 5005).2.2.1

/-! ## The conversation of KCP -/

/-- A conversation printed as an `int` and read as an `unsigned long` of 32 bits or more comes back
after the conversion to 32 bits. -/
theorem kcp_conv_print {width : Nat} (hwidth : 32 ≤ width) (conv : UInt32) :
    RtspConnect.kcpConv width (printInt conv.toInt32.toInt) = .ok conv := by
  have hconv := conv.toNat_lt
  have hfits : conv.toInt32.toInt.natAbs < 2 ^ width := by
    have hlow := conv.toInt32.le_toInt
    have hhigh := conv.toInt32.toInt_lt
    have hle : 2 ^ 32 ≤ 2 ^ width := Nat.pow_le_pow_right (by decide) hwidth
    omega
  have hpower : (2 ^ 32 : Int) ∣ 2 ^ width := pow_dvd_pow 2 hwidth
  have hsigned : conv.toInt32.toInt = (conv.toNat : Int).bmod (2 ^ 32) :=
    BitVec.toInt_eq_toNat_bmod _
  -- both `unsigned long` and the signed number agree with `conv` modulo 2^32
  have hmod : conv.toInt32.toInt % 2 ^ width % 2 ^ 32 = conv.toNat := by
    rw [Int.emod_emod_of_dvd _ hpower, hsigned,
      show (2 ^ 32 : Int) = ((2 ^ 32 : Nat) : Int) from rfl, Int.bmod_emod]
    omega
  have hnonneg : 0 ≤ conv.toInt32.toInt % 2 ^ width := Int.emod_nonneg _ (by positivity)
  rw [RtspConnect.kcpConv, stoul_print_int hfits]
  refine congrArg Except.ok (UInt32.toNat.inj ?_)
  rw [Nat.toUInt32, UInt32.toNat_ofNat']
  omega

/-- The server's control block has the conversation of RECORD. -/
theorem record_cam_kcp {conn after : RtspConnect} {headers : Media.Headers} {cseq : Int}
    {events : List Event} {kcpId : Bytes} {conv : UInt32}
    (h : conn.handleRecord headers cseq = .ok (after, events))
    (hsession : RtspConnect.checkSession conn.sessionId headers = true)
    (hkcpId : headers (ascii "kcpid") = some kcpId)
    (hconv : RtspConnect.kcpConv 64 kcpId = .ok conv) :
    after.camKcp = .block conv conn.videoRtpConn := by
  rw [RtspConnect.handleRecord, if_pos hsession, hkcpId] at h
  obtain ⟨video, camKcp, created, answer, -, hvideo, hkcp, -, rfl, -⟩ := RtspConnect.record_ok h
  cases hkcp with
  | created hread =>
      rw [hconv] at hread
      cases hread
      rw [hvideo]
      rfl

/-- The conversation survives RECORD: `KcpId` is read back as it was for an `unsigned long` of 32
and of 64 bits, the server's control block gets it, and the block accepts the segments that carry
it. -/
theorem conv_survives (session : RtspClient) (hurl : OneLine url) (hlength : url.length ≤ 255)
    (hid : OneLine session.sessionId) (hvalue : session.sessionId.length ≤ 63) :
    ∃ kcpId, (parseRequest (rtspClientRecord session url).2.bytes).headers (ascii "kcpid") =
        some kcpId ∧
      (∀ width, width = 32 ∨ width = 64 → RtspConnect.kcpConv width kcpId = .ok session.conv) ∧
      ∀ (conn after : RtspConnect) (cseq : Int) (events : List Event),
        RtspConnect.checkSession conn.sessionId
          (parseRequest (rtspClientRecord session url).2.bytes).headers = true →
        conn.handleRecord (parseRequest (rtspClientRecord session url).2.bytes).headers cseq =
          .ok (after, events) →
        ∃ conv, after.camKcp = .block conv conn.videoRtpConn ∧
          ∀ fields, IKCP_OVERHEAD ≤ 4 + fields.length →
            ikcpAccepts conv (ikcpEncode32u session.conv ++ fields) = true := by
  have hsend := record_sendable session hurl hlength hid hvalue
  obtain ⟨request, -, -, hheaders, -, -, hbytes⟩ := print_request_written hsend session
  have hprinted := stored_plain (ascii "KcpId") (print_int_ne_nil session.conv.toInt32.toInt)
    (print_int_visible _)
  have hkcpId : (parseRequest (rtspClientRecord session url).2.bytes).headers (ascii "kcpid") =
      some (printInt session.conv.toInt32.toInt) := by
    rw [rtspClientRecord, hbytes]
    refine (request.read_header _ _).2 ?_
    rw [hheaders, List.map_cons, List.map_cons, List.map_cons, List.map_cons, hprinted,
      show (ascii "KcpId").map tolower = ascii "kcpid" from rfl]
    simp
  have hread : ∀ width, width = 32 ∨ width = 64 →
      RtspConnect.kcpConv width (printInt session.conv.toInt32.toInt) = .ok session.conv :=
    fun width hwidth => kcp_conv_print (by omega) session.conv
  refine ⟨_, hkcpId, hread, fun conn after cseq events hsession hrecord => ?_⟩
  refine ⟨session.conv, record_cam_kcp hrecord hsession hkcpId (hread 64 (.inr rfl)), ?_⟩
  intro fields hfields
  simp only [ikcpAccepts, ikcp_decode_encode, Bool.and_eq_true, decide_eq_true_eq, beq_self_eq_true,
    and_true, List.length_append]
  exact hfields

theorem conv_survives_stream :
    ∃ kcpId, (parseRequest (rtspClientRecord streamSession streamUrl).2.bytes).headers
        (ascii "kcpid") = some kcpId ∧ RtspConnect.kcpConv 32 kcpId = .ok 4000000000 := by
  obtain ⟨kcpId, hkcpId, hconv, -⟩ := conv_survives streamSession
    (one_line_of_visible stream_url_plain.visible) stream_url_plain.length (by decide) (by decide)
  exact ⟨kcpId, hkcpId, hconv 32 (.inl rfl)⟩

end Requests

end CarDetect.Camera
