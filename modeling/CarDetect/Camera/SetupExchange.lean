import CarDetect.Camera.Requests
import CarDetect.Media.TransportForms
import CarDetect.Monitor.CamMessages

/-!
# The camera and the server after SETUP

`setup_answered` says what the server answers to the camera's SETUP, and `answer_parsed` what the
camera reads in the answer. `setup_agrees` puts the two together: ports and session id are the same
on both sides.
-/

namespace CarDetect.Camera

open BigEndian ByteString Reactor Media
open Monitor (IsSessionId printHex generateSessionId headerLine isHexDigit print_hex_digits
  generated_session_id session_id_chars session_id_byte session_id_ne_nil)

/-! ## The transport as the server reads it -/

section Transport

variable {number other : Nat}

/-- A port that is printed and read back. -/
theorem of_int_port (port : UInt16) : UInt16.ofInt port.toNat = port := by
  have hport := port.toNat_lt
  exact UInt16.toNat.inj (toNat_of_int (by omega))

theorem print_ne_dash (value : Nat) : ∀ byte ∈ printNat value, byte ≠ 45 := by
  intro byte hbyte heq
  subst heq
  exact absurd (print_digits value _ hbyte) (by decide)

/-- A printed pair is taken apart at its dash. -/
theorem find_dash (number : Nat) (rest : Bytes) :
    find (ascii "-") (printNat number ++ (ascii "-" ++ rest)) = some (printNat number).length :=
  find_behind (by decide) (misses_of_head (print_ne_dash number)) rest

/-- A printed number is a number with nothing around it. -/
theorem is_number_print {value high : Nat} (h : value ≤ high) :
    IsNumber noPad 0 high (printNat value) value := by
  unfold IsNumber
  rw [trim_no_pad]
  exact ⟨print_ne_nil value, print_digits value, decimal_print value, Nat.zero_le value, h⟩

/-- The two numbers of a parameter at the end of a transport. -/
theorem number_pair_print (key before : Bytes) (hne : key ≠ []) (hmisses : Misses key before)
    (hnumber : number < 2 ^ 31) (hother : other < 2 ^ 31) :
    numberPair key (before ++ (key ++ (printNat number ++ (ascii "-" ++ printNat other)))) =
      ((number : Int), (other : Int)) := by
  have hsemicolon : (printNat number ++ (ascii "-" ++ printNat other)).takeWhile (· != 59) =
      printNat number ++ (ascii "-" ++ printNat other) := by
    refine List.takeWhile_eq_self_iff.2 fun byte hbyte => ?_
    have hne : byte ≠ 59 := by
      rintro rfl
      rcases List.mem_append.1 hbyte with hbyte | hbyte
      · exact absurd (print_digits number _ hbyte) (by decide)
      · rcases List.mem_append.1 hbyte with hbyte | hbyte
        · exact absurd hbyte (by decide)
        · exact absurd (print_digits other _ hbyte) (by decide)
    simpa using hne
  have hvalue : parameter key
      (before ++ (key ++ (printNat number ++ (ascii "-" ++ printNat other)))) =
        some (printNat number ++ 45 :: printNat other) := by
    rw [parameter, find_behind hne hmisses, Option.map_some, ← List.drop_drop, List.drop_left,
      List.drop_left, hsemicolon]
    rfl
  have hpair : IsPair noPad 0 (2 ^ 31 - 1) (printNat number ++ 45 :: printNat other) number other :=
    ⟨_, _, rfl, is_number_print (by omega), is_number_print (by omega)⟩
  exact number_pair_writes (fun _ hpad => by cases hpad) hvalue hpair (by decide)

/-- The server reads the transport of `main` for UDP. -/
theorem parse_main_transport {rtpPort rtcpPort : UInt16} (hrtp : rtpPort ≠ 0)
    (hrtcp : rtcpPort ≠ 0) :
    parseTransport (ascii "RTP/AVP/UDP;unicast;client_port=" ++ printNat rtpPort.toNat ++
      ascii "-" ++ printNat rtcpPort.toNat) =
      some ⟨ascii "UDP", rtpPort, rtcpPort, 0, 0, 0, 0⟩ := by
  have htext : ascii "RTP/AVP/UDP;unicast;client_port=" ++ printNat rtpPort.toNat ++ ascii "-" ++
      printNat rtcpPort.toNat = ascii "RTP/AVP/UDP;unicast;" ++ (ascii "client_port=" ++
        (printNat rtpPort.toNat ++ (ascii "-" ++ printNat rtcpPort.toNat))) := by
    rw [show ascii "RTP/AVP/UDP;unicast;client_port=" =
      ascii "RTP/AVP/UDP;unicast;" ++ ascii "client_port=" from rfl]
    simp only [List.append_assoc]
  have hudp : (find (ascii "RTP/AVP/UDP") (ascii "RTP/AVP/UDP;unicast;" ++ (ascii "client_port=" ++
      (printNat rtpPort.toNat ++ (ascii "-" ++ printNat rtcpPort.toNat))))).isSome := by
    refine find_isSome_iff.2 (List.IsPrefix.isInfix ?_)
    exact List.IsPrefix.trans (by decide) (List.prefix_append _ _)
  have hclient := number_pair_print (ascii "client_port=") (ascii "RTP/AVP/UDP;unicast;")
    (by decide) (by decide) (rtpPort.toNat_lt.trans (by decide))
    (rtcpPort.toNat_lt.trans (by decide))
  have hno : ∀ value, ∀ byte ∈ printNat value, byte ≠ 115 := by
    intro value byte hbyte heq
    subst heq
    exact absurd (print_digits value _ hbyte) (by decide)
  have hserver : find (ascii "server_port=") (ascii "RTP/AVP/UDP;unicast;" ++
      (ascii "client_port=" ++
        (printNat rtpPort.toNat ++ (ascii "-" ++ printNat rtcpPort.toNat)))) = none := by
    refine find_missed (by decide) ?_
    refine Misses.append (by decide) (Misses.append (by decide) ?_)
    refine Misses.append (misses_of_head (hno _)) (Misses.append (by decide) ?_)
    exact misses_of_head (hno _)
  have hpositive : rtpPort > 0 ∧ rtcpPort > 0 :=
    ⟨UInt16.pos_iff_ne_zero.2 hrtp, UInt16.pos_iff_ne_zero.2 hrtcp⟩
  rw [htext, parseTransport, if_pos (.inl hudp), hclient, numberPair, hserver]
  simp only [of_int_port]
  rw [if_pos hpositive]
  rfl

end Transport

/-! ## The answer -/

section Answer

variable {id : Bytes}

/-- `strcasestr` finds a pattern behind a text that misses it in either case. -/
theorem strcasestr_behind {pattern before : Bytes} (hne : pattern ≠ [])
    (h : Misses (pattern.map tolower) (before.map tolower)) (rest : Bytes) :
    strcasestr pattern (before ++ (pattern ++ rest)) = some before.length := by
  rw [strcasestr, List.map_append, List.map_append, find_behind (by simpa using hne) h,
    List.length_map]

/-- The answer to SETUP, cut where the camera looks for the session and for the ports. -/
theorem answer_text (id : Bytes) (rtpPort rtcpPort serverRtp serverRtcp : UInt16) (cseq : Int) :
    responseText ⟨200, ascii "OK", [(ascii "Session", id ++ ascii ";timeout=60"),
        (ascii "Transport", ascii "RTP/AVP/UDP;unicast;client_port=" ++ printNat rtpPort.toNat ++
          ascii "-" ++ printNat rtcpPort.toNat ++ ascii ";server_port=" ++
          printNat serverRtp.toNat ++ ascii "-" ++ printNat serverRtcp.toNat)], cseq⟩ =
      (ascii "RTSP/1.0 200 OK\r\nCSeq: " ++ printInt cseq ++
          ascii "\r\nServer: RTSP Server/1.0\r\n") ++ (ascii "Session:" ++ (ascii " " ++ (id ++
          (ascii ";" ++ (ascii "timeout=60\r\nTransport: RTP/AVP/UDP;unicast;client_port=" ++
            printNat rtpPort.toNat ++ ascii "-" ++ printNat rtcpPort.toNat ++ ascii ";"))))) ++
        (ascii "server_port=" ++ (printNat serverRtp.toNat ++ (ascii "-" ++
          (printNat serverRtcp.toNat ++ ascii "\r\n\r\n")))) := by
  simp [responseText, headerLine, ascii, CRLF, printNat]

/-- The loop over the session id takes the characters of an id, none of which is an s. -/
theorem id_byte (hid : IsSessionId id) :
    ∀ byte ∈ id, tolower byte ≠ 115 ∧ isIdChar byte = true ∧ (byte == 32) = false := by
  have hchar : ∀ byte : UInt8, isHexDigit byte = true ∨ byte = 45 →
      tolower byte ≠ 115 ∧ isIdChar byte = true ∧ (byte == 32) = false := by
    rintro ⟨bits⟩
    revert bits
    decide
  exact fun byte hbyte => hchar byte (session_id_chars hid byte hbyte)

/-- The numbers of `server_port=`. -/
theorem port_pair_print (first second : UInt16) {rest : Bytes}
    (hrest : ∀ byte ∈ rest.head?, isdigit byte = false) :
    portPair (printNat first.toNat ++ (ascii "-" ++ (printNat second.toNat ++ rest))) =
      (first, second) := by
  have hread : ∀ (port : UInt16) {rest : Bytes}, (∀ byte ∈ rest.head?, isdigit byte = false) →
      strtol (printNat port.toNat ++ rest) = port.toNat := by
    intro port rest hrest
    have hport := port.toNat_lt
    rw [← print_int_natCast]
    exact strtol_print_int (by omega) (by omega) hrest
  have hsecond : (printNat first.toNat ++ (ascii "-" ++ (printNat second.toNat ++ rest))).drop
      ((printNat first.toNat).length + 1) = printNat second.toNat ++ rest := by
    rw [← List.drop_drop, List.drop_left]
    rfl
  simp only [portPair, find_dash, hsecond, hread second hrest,
    hread first (show ∀ byte ∈ (ascii "-" ++ (printNat second.toNat ++ rest)).head?,
      isdigit byte = false by simp [ascii, isdigit]), of_int_port]

/-- What the camera reads in an answer of this shape: a text in front of the session, an id, a text
in front of the ports, and the ports. -/
theorem parse_setup_response {front middle back : Bytes} {first second : UInt16}
    (hid : IsSessionId id) (hlength : id.length ≤ 63)
    (hfront : Misses ((ascii "Session:").map tolower) (front.map tolower))
    (hmiddle : Misses ((ascii "server_port=").map tolower)
      ((front ++ (ascii "Session:" ++ (ascii " " ++ (id ++ (ascii ";" ++ middle))))).map tolower))
    (hback : portPair back = (first, second)) (session : RtspClient) :
    rtspParseSetupResponse
        (front ++ (ascii "Session:" ++ (ascii " " ++ (id ++ (ascii ";" ++ middle)))) ++
          (ascii "server_port=" ++ back)) session =
      ({ session with
          sessionId := id, serverRtpPort := first, serverRtcpPort := second, rtpChannel := 0,
          rtcpChannel := 0, transType := ascii "udp" }, 0) := by
  have hports := strcasestr_behind (by decide) hmiddle back
  have hdropped : (front ++ (ascii "Session:" ++ (ascii " " ++ (id ++ (ascii ";" ++ middle)))) ++
      (ascii "server_port=" ++ back)).drop
        ((front ++ (ascii "Session:" ++ (ascii " " ++ (id ++ (ascii ";" ++ middle))))).length +
          12) = back := by
    rw [← List.drop_drop, List.drop_left]
    rfl
  have hsplit : front ++ (ascii "Session:" ++ (ascii " " ++ (id ++ (ascii ";" ++ middle)))) ++
      (ascii "server_port=" ++ back) = front ++ (ascii "Session:" ++ (ascii " " ++ (id ++
        (ascii ";" ++ (middle ++ (ascii "server_port=" ++ back)))))) := by
    simp only [List.append_assoc]
  have hsession := strcasestr_behind (by decide) hfront
    (ascii " " ++ (id ++ (ascii ";" ++ (middle ++ (ascii "server_port=" ++ back)))))
  rw [← hsplit] at hsession
  have hvalue : (front ++ (ascii "Session:" ++ (ascii " " ++ (id ++ (ascii ";" ++ middle)))) ++
      (ascii "server_port=" ++ back)).drop (front.length + 8) =
        ascii " " ++ (id ++ (ascii ";" ++ (middle ++ (ascii "server_port=" ++ back)))) := by
    rw [hsplit, ← List.drop_drop, List.drop_left]
    rfl
  have hspaces : (ascii " " ++
      (id ++ (ascii ";" ++ (middle ++ (ascii "server_port=" ++ back))))).dropWhile (· == 32) =
        id ++ (ascii ";" ++ (middle ++ (ascii "server_port=" ++ back))) := by
    refine dropWhile_block (forall_byte (by decide)) fun byte hbyte => ?_
    rw [List.head?_append_of_ne_nil _ (session_id_ne_nil hid)] at hbyte
    exact (id_byte hid byte (List.mem_of_mem_head? hbyte)).2.2
  have hid' : (id ++ (ascii ";" ++ (middle ++ (ascii "server_port=" ++ back)))).takeWhile
      isIdChar = id := by
    refine takeWhile_block (fun byte hbyte => (id_byte hid byte hbyte).2.1) ?_
    simp [ascii, isIdChar]
  simp only [rtspParseSetupResponse, hsession, hports, hvalue, hspaces, hid', hdropped, hback,
    List.take_of_length_le hlength]

/-- The camera reads in the answer the ports of the server and the id of the session. -/
theorem answer_parsed (hid : IsSessionId id) (hlength : id.length ≤ 63)
    (rtpPort rtcpPort serverRtp serverRtcp : UInt16) (cseq : Int) (session : RtspClient) :
    rtspParseSetupResponse (responseText ⟨200, ascii "OK",
        [(ascii "Session", id ++ ascii ";timeout=60"),
          (ascii "Transport", ascii "RTP/AVP/UDP;unicast;client_port=" ++ printNat rtpPort.toNat ++
            ascii "-" ++ printNat rtcpPort.toNat ++ ascii ";server_port=" ++
            printNat serverRtp.toNat ++ ascii "-" ++ printNat serverRtcp.toNat)], cseq⟩) session =
      ({ session with
          sessionId := id, serverRtpPort := serverRtp, serverRtcpPort := serverRtcp,
          rtpChannel := 0, rtcpChannel := 0, transType := ascii "udp" }, 0) := by
  have hint : ∀ value : Int, ∀ byte ∈ printInt value, tolower byte ≠ 115 := by
    intro value byte hbyte
    have hchar : ∀ byte : UInt8, isdigit byte = true ∨ byte = 45 → tolower byte ≠ 115 := by
      rintro ⟨bits⟩
      revert bits
      decide
    exact hchar byte (print_int_chars value byte hbyte)
  have hnat : ∀ value : Nat, ∀ byte ∈ printNat value, tolower byte ≠ 115 := by
    intro value
    rw [← print_int_natCast]
    exact hint value
  have hidChars : ∀ byte ∈ id, tolower byte ≠ 115 := fun byte hbyte => (id_byte hid byte hbyte).1
  -- both patterns begin with an s
  have hskip : ∀ {block tail : Bytes}, (∀ byte ∈ block, tolower byte ≠ 115) →
      Misses (115 :: tail) (block.map tolower) := by
    intro block tail hblock
    refine misses_of_head fun byte hbyte => ?_
    obtain ⟨original, horiginal, rfl⟩ := List.mem_map.1 hbyte
    exact hblock original horiginal
  rw [answer_text]
  refine parse_setup_response hid hlength ?_ ?_ (port_pair_print _ _ (by simp [ascii, isdigit])) _
  · simp only [List.map_append, List.append_assoc]
    exact .append (by decide) (.append (hskip (hint cseq)) (by decide))
  · simp only [List.map_append, List.append_assoc]
    refine .append (by decide) (.append (hskip (hint cseq)) (.append (by decide) ?_))
    refine .append (by decide) (.append (by decide) (.append (hskip hidChars) ?_))
    refine .append (by decide) (.append (by decide) (.append (hskip (hnat _)) ?_))
    exact .append (by decide) (.append (hskip (hnat _)) (by decide))

end Answer

/-! ## The exchange -/

section Exchange

variable {url transType : Bytes} {session : RtspClient} {conn : RtspConnect}
  {rtpPort rtcpPort : UInt16}

/-- The connection that SETUP opens for the video, from the ports allocated. -/
def videoConn (conn : RtspConnect) (basePort : UInt16) (socket : Socket) (rtpPort : UInt16) :
    UdpConnection :=
  ⟨socket, conn.serverIp, basePort, conn.clientIp, rtpPort⟩

/-- The server's answer to a SETUP of the camera over UDP. -/
theorem setup_answered (hurl : Plain 255 url) (htype : transType ≠ ascii "tcp") (hrtp : rtpPort ≠ 0)
    (hrtcp : rtcpPort ≠ 0) (conn : RtspConnect) (session : RtspClient) (basePort : UInt16)
    (socket : Socket) :
    conn.handleRequest
        ⟨(rtspClientSetup session url (mainTransport transType rtpPort rtcpPort)).2.bytes, basePort,
          socket⟩ =
      .ok ({ conn with
          transportType := ascii "UDP", state := .ready,
          videoRtpConn := some (videoConn conn basePort socket rtpPort) },
        [.allocateUdpPorts, .addUdpConnection (videoConn conn basePort socket rtpPort),
          .sendResponse ⟨200, ascii "OK", [(ascii "Session", conn.sessionId ++ ascii ";timeout=60"),
            (ascii "Transport", ascii "RTP/AVP/UDP;unicast;client_port=" ++
              printNat rtpPort.toNat ++ ascii "-" ++ printNat rtcpPort.toNat ++
              ascii ";server_port=" ++ printNat basePort.toNat ++ ascii "-" ++
              printNat (basePort + 1).toNat)], (session.cseq + 1).toInt⟩]) := by
  have hread := setup_understood hurl (main_transport_plain transType rtpPort rtcpPort) session
  have htransport := hread.entries _ List.mem_cons_self
  have hparse : parseTransport (mainTransport transType rtpPort rtcpPort) =
      some ⟨ascii "UDP", rtpPort, rtcpPort, 0, 0, 0, 0⟩ := by
    rw [main_transport_eq, if_neg htype, parse_main_transport hrtp hrtcp]
  have htrack : (find (ascii "trackID=0") (url ++ ascii "/trackID=0")).isSome := by
    refine find_isSome_iff.2 ⟨url ++ ascii "/", [], ?_⟩
    rw [List.append_nil, List.append_assoc]
    rfl
  have hports : RtspConnect.serverPorts ⟨ascii "UDP", rtpPort, rtcpPort, 0, 0, 0, 0⟩ basePort 0 =
      ([.allocateUdpPorts], basePort, basePort + 1) := by
    simp [RtspConnect.serverPorts]
  unfold RtspConnect.handleRequest
  simp only [hread.method, hread.url, hread.cseq]
  rw [if_neg (by decide), if_neg (by decide), if_pos trivial]
  simp only [RtspConnect.handleSetup, htransport, hparse]
  rw [RtspConnect.setupTransport, if_pos rfl, RtspConnect.setupUdp, if_pos htrack, hports]
  rfl

/-- A session id of the server fits the camera's field. -/
theorem length_session_id {time sessionCounter : Nat} (htime : time < 2 ^ 64)
    (hcounter : sessionCounter < 2 ^ 32) : (generateSessionId time sessionCounter).length ≤ 63 := by
  have hlength : ∀ (value digits : Nat), 0 < digits → value < 16 ^ digits →
      (printHex value).length ≤ digits := by
    intro value digits hpos hvalue
    unfold printHex
    split
    · exact hpos
    · rw [List.length_map, List.length_reverse]
      exact (Nat.digits_length_le_iff (by decide) value).2 hvalue
  have hfirst := hlength time 16 (by decide) htime
  have hsecond := hlength sessionCounter 8 (by decide) hcounter
  simp only [generateSessionId, List.length_append]
  rw [show (ascii "-").length = 1 from rfl]
  omega

/-- The camera and the server agree after SETUP: the answer is 200, the camera has the ports to
which the server assigned the video connection and the id of the session, and RECORD and TEARDOWN
with this id pass the server's check. -/
theorem setup_agrees (conn : RtspConnect) (session : RtspClient) (basePort : UInt16)
    (socket : Socket) (transType : Bytes) (time sessionCounter : Nat) (hurl : Plain 255 url)
    (htype : transType ≠ ascii "tcp") (hrtp : rtpPort ≠ 0) (hrtcp : rtcpPort ≠ 0)
    (htime : time < 2 ^ 64) (hcounter : sessionCounter < 2 ^ 32)
    (hid : conn.sessionId = generateSessionId time sessionCounter) :
    ∃ after events response video,
      conn.handleRequest
          ⟨(rtspClientSetup session url (mainTransport transType rtpPort rtcpPort)).2.bytes,
            basePort, socket⟩ = .ok (after, events ++ [.sendResponse response]) ∧
        response.statusCode = 200 ∧ after.videoRtpConn = some video ∧
        after.sessionId = conn.sessionId ∧
        rtspParseSetupResponse (responseText response)
            (rtspClientSetup session url (mainTransport transType rtpPort rtcpPort)).1 =
          ({ (rtspClientSetup session url (mainTransport transType rtpPort rtcpPort)).1 with
              sessionId := conn.sessionId, serverRtpPort := video.localPort,
              serverRtcpPort := video.localPort + 1, rtpChannel := 0, rtcpChannel := 0,
              transType := ascii "udp" }, 0) ∧
        ∀ later : RtspClient, later.sessionId = conn.sessionId →
          RtspConnect.checkSession after.sessionId
              (parseRequest (rtspClientRecord later url).2.bytes).headers = true ∧
            RtspConnect.checkSession after.sessionId
              (parseRequest (rtspClientTeardown later url).2.bytes).headers = true := by
  have hform : IsSessionId conn.sessionId := by
    rw [hid]
    exact generated_session_id time sessionCounter
  have hlength : conn.sessionId.length ≤ 63 := by
    rw [hid]
    exact length_session_id htime hcounter
  have hplain : Plain 63 conn.sessionId :=
    ⟨session_id_ne_nil hform, hlength, fun byte hbyte => (session_id_byte hform byte hbyte).1⟩
  refine ⟨_, [.allocateUdpPorts, .addUdpConnection (videoConn conn basePort socket rtpPort)], _,
    videoConn conn basePort socket rtpPort,
    setup_answered hurl htype hrtp hrtcp conn session basePort socket, rfl, rfl, rfl,
    answer_parsed hform hlength _ _ _ _ _ _, fun later hlater => ?_⟩
  have hcheck : ∀ {headers : Media.Headers}, headers (ascii "session") = some conn.sessionId →
      RtspConnect.checkSession conn.sessionId headers = true := by
    intro headers hheaders
    simp only [RtspConnect.checkSession, hheaders]
    exact find_isSome_iff.2 List.infix_rfl
  show RtspConnect.checkSession conn.sessionId _ = true ∧
    RtspConnect.checkSession conn.sessionId _ = true
  rw [← hlater] at hplain hcheck ⊢
  exact ⟨hcheck ((record_understood hurl hplain).entries _ List.mem_cons_self),
    hcheck ((teardown_understood hurl hplain).entries _ List.mem_cons_self)⟩

theorem setup_agrees_stream :
    ∃ after events response video,
      (RtspConnect.create (ascii "66a1-1") (ascii "10.0.0.2") (ascii "10.0.0.1") 0).handleRequest
          ⟨(rtspClientSetup streamSession streamUrl
              (mainTransport (ascii "udp") 5004 5005)).2.bytes, 10000, ⟨7, 0⟩⟩ =
          .ok (after, events ++ [.sendResponse response]) ∧
        after.videoRtpConn = some video ∧
        (rtspParseSetupResponse (responseText response)
          (rtspClientSetup streamSession streamUrl
            (mainTransport (ascii "udp") 5004 5005)).1).1.serverRtpPort = video.localPort := by
  obtain ⟨after, events, response, video, hhandled, -, hvideo, -, hparsed, -⟩ :=
    setup_agrees (.create (ascii "66a1-1") (ascii "10.0.0.2") (ascii "10.0.0.1") 0) streamSession
      10000 ⟨7, 0⟩ (ascii "udp") 26273 1 stream_url_plain (by decide)
      (show (5004 : UInt16) ≠ 0 by decide) (show (5005 : UInt16) ≠ 0 by decide) (by decide)
      (by decide) (by decide +kernel)
  exact ⟨after, events, response, video, hhandled, hvideo, by rw [hparsed]⟩

end Exchange

end CarDetect.Camera
