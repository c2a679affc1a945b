import CarDetect.Monitor.HeaderText

/-!
# The messages that name cameras

The answer to SETUP as the Qt client reads it, and the client's MESSAGE as the server does.
`answered_cams` says that the client finds the cameras of the server in their order, and
`receive_cams` that the server stores a session with the announced ports for each of the
client's cameras.
-/

namespace CarDetect.Monitor

open BigEndian ByteString Reactor Std

/-! ## Session ids -/

/-- A hexadecimal digit as `std::hex` writes it. -/
def isHexDigit (byte : UInt8) : Bool :=
  isdigit byte || (97 ≤ byte && byte ≤ 102)

/-- `operator<<` of an unsigned number after `std::hex`. -/
def printHex (value : Nat) : Bytes :=
  if value = 0 then [48]
  else (Nat.digits 16 value).reverse.map fun digit =>
    if digit < 10 then 48 + digit.toUInt8 else 87 + digit.toUInt8

/-- `SessionManager::generateSessionId`, with the time and the counter after its increment. -/
def generateSessionId (time sessionCounter : Nat) : Bytes :=
  printHex time ++ ascii "-" ++ printHex sessionCounter

/-- Hexadecimal digits, a dash and hexadecimal digits. -/
def IsSessionId (id : Bytes) : Prop :=
  ∃ time sessionCounter : Bytes, id = time ++ ascii "-" ++ sessionCounter ∧ time ≠ [] ∧
    sessionCounter ≠ [] ∧ ∀ byte ∈ time ++ sessionCounter, isHexDigit byte

section SessionIds

variable {id : Bytes}

/-- The character of a hexadecimal digit. -/
theorem hex_digit_byte : ∀ digit < 16,
    isHexDigit (if digit < 10 then 48 + digit.toUInt8 else 87 + digit.toUInt8) = true := by
  decide

theorem print_hex_digits (value : Nat) : ∀ byte ∈ printHex value, isHexDigit byte = true := by
  intro byte hbyte
  unfold printHex at hbyte
  split at hbyte
  · rw [List.mem_singleton.1 hbyte]
    rfl
  · obtain ⟨digit, hdigit, rfl⟩ := List.mem_map.1 hbyte
    exact hex_digit_byte digit (Nat.digits_lt_base (by omega) (List.mem_reverse.1 hdigit))

theorem print_hex_ne_nil (value : Nat) : printHex value ≠ [] := by
  unfold printHex
  split
  · simp
  · rename_i hvalue
    simpa [Nat.digits_eq_nil_iff_eq_zero] using hvalue

/-- The ids that the server generates have this form. -/
theorem generated_session_id (time sessionCounter : Nat) :
    IsSessionId (generateSessionId time sessionCounter) := by
  refine ⟨printHex time, printHex sessionCounter, rfl, print_hex_ne_nil _, print_hex_ne_nil _, ?_⟩
  intro byte hbyte
  exact (List.mem_append.1 hbyte).elim (print_hex_digits _ byte) (print_hex_digits _ byte)

/-- Different numbers are printed differently. -/
theorem print_hex_inj {value other : Nat} (h : printHex value = printHex other) :
    value = other := by
  let hexValue (byte : UInt8) : Nat := if byte < 97 then byte.toNat - 48 else byte.toNat - 87
  have hdigit : ∀ digit < 16,
      hexValue (if digit < 10 then 48 + digit.toUInt8 else 87 + digit.toUInt8) = digit := by decide
  have hread : ∀ value, Nat.ofDigits 16 ((printHex value).map hexValue).reverse = value := by
    intro value
    unfold printHex
    split
    · rename_i hvalue
      rw [hvalue]
      rfl
    · have hdigits : ((Nat.digits 16 value).reverse.map fun digit =>
          if digit < 10 then 48 + digit.toUInt8 else 87 + digit.toUInt8).map hexValue =
            (Nat.digits 16 value).reverse := by
        rw [List.map_map]
        conv_rhs => rw [← List.map_id (Nat.digits 16 value).reverse]
        refine List.map_congr_left fun digit hmem => ?_
        exact hdigit digit (Nat.digits_lt_base (by omega) (List.mem_reverse.1 hmem))
      rw [hdigits, List.reverse_reverse, Nat.ofDigits_digits]
  rw [← hread value, h, hread other]

/-- The characters of an id. -/
theorem session_id_chars (h : IsSessionId id) :
    ∀ byte ∈ id, isHexDigit byte = true ∨ byte = 45 := by
  obtain ⟨time, sessionCounter, rfl, -, -, hhex⟩ := h
  intro byte hbyte
  simp only [List.mem_append] at hbyte hhex
  rcases hbyte with (hbyte | hbyte) | hbyte
  · exact .inl (hhex byte (.inl hbyte))
  · exact .inr (List.mem_singleton.1 hbyte)
  · exact .inl (hhex byte (.inr hbyte))

theorem session_id_byte (h : IsSessionId id) :
    ∀ byte ∈ id, isspace byte = false ∧ byte ≠ 58 ∧ tolower byte = byte := by
  have hchar : ∀ byte : UInt8, isHexDigit byte = true ∨ byte = 45 →
      isspace byte = false ∧ byte ≠ 58 ∧ tolower byte = byte := by
    rintro ⟨bits⟩
    revert bits
    decide
  exact fun byte hbyte => hchar byte (session_id_chars h byte hbyte)

theorem session_id_ne_nil (h : IsSessionId id) : id ≠ [] := by
  obtain ⟨time, sessionCounter, rfl, htime, -, -⟩ := h
  simp [htime]

/-- An id is kept when the server turns it into lower case. -/
theorem session_id_lower (h : IsSessionId id) : id.map tolower = id := by
  conv_rhs => rw [← List.map_id id]
  exact List.map_congr_left fun byte hbyte => (session_id_byte h byte hbyte).2.2

/-- No id is the name of the header that is skipped. -/
theorem session_id_ne_cseq (h : IsSessionId id) : id ≠ ascii "cseq" := by
  obtain ⟨time, sessionCounter, rfl, -, -, -⟩ := h
  intro heq
  have hdash : (45 : UInt8) ∈ ascii "cseq" := by
    rw [← heq]
    simp [show ascii "-" = [45] from rfl]
  exact absurd hdash (by decide)

end SessionIds

/-! ## The answer to SETUP -/

/-- The headers of an answer. -/
def answerHeaders (extraHeaders : Headers) (cseq : Nat) : List (Bytes × Bytes) :=
  (ascii "CSeq", printNat cseq) :: extraHeaders.toList

section Answer

variable {cams : TreeMap Bytes Bytes} {name value : Bytes}

/-- A printed number is no word with another character than digits in it. -/
theorem print_ne (word : Bytes) (h : ¬ ∀ byte ∈ word, isdigit byte = true) (number : Nat) :
    printNat number ≠ word :=
  fun heq => h (heq ▸ print_digits number)

/-- The answer names each camera under its position, and their number. -/
theorem setup_headers_iff (cams : TreeMap Bytes Bytes) (name value : Bytes) :
    (setupHeaders cams)[name]? = some value ↔
      (∃ i, cams.keys[i]? = some value ∧ name = printNat i) ∨
        name = ascii "CamNum" ∧ value = printNat cams.size := by
  have hfold : setupHeaders cams =
      (cams.keys.zipIdx.map fun cam => (printNat cam.2, cam.1)).foldl
        (fun headers entry => headers.insert entry.1 entry.2)
        ((∅ : Headers).insert (ascii "CamNum") (printNat cams.size)) := by
    rw [List.foldl_map]
    rfl
  have hkeys : (cams.keys.zipIdx.map fun cam => (printNat cam.2, cam.1)).map Prod.fst =
      (cams.keys.zipIdx.map Prod.snd).map printNat := by
    rw [List.map_map, List.map_map]
    rfl
  have hdistinct : ((cams.keys.zipIdx.map fun cam => (printNat cam.2, cam.1)).map
      Prod.fst).Nodup := by
    rw [hkeys, List.zipIdx_map_snd]
    exact (List.nodup_range').map fun _ _ => print_inj
  rw [hfold, OrderedMap.get_foldl_insert hdistinct, hkeys]
  have hmem : (name, value) ∈ cams.keys.zipIdx.map (fun cam => (printNat cam.2, cam.1)) ↔
      ∃ i, cams.keys[i]? = some value ∧ name = printNat i := by
    rw [List.mem_map]
    constructor
    · rintro ⟨cam, hcam, heq⟩
      cases heq
      exact ⟨cam.2, List.mem_zipIdx_iff_getElem?.1 hcam, rfl⟩
    · rintro ⟨i, hi, rfl⟩
      exact ⟨(value, i), List.mem_zipIdx_iff_getElem?.2 hi, rfl⟩
  rw [hmem, TreeMap.getElem?_insert]
  refine or_congr_right ?_
  by_cases hname : name = ascii "CamNum"
  · rw [if_pos (LawfulEqOrd.compare_eq_iff_eq.2 hname.symm), hname]
    have hnot : ascii "CamNum" ∉ (cams.keys.zipIdx.map Prod.snd).map printNat := by
      intro hin
      obtain ⟨number, -, heq⟩ := List.mem_map.1 hin
      exact print_ne _ (by decide) number heq
    rw [Option.some.injEq]
    exact ⟨fun h => ⟨rfl, h.2.symm⟩, fun h => ⟨hnot, h.2.symm⟩⟩
  · rw [if_neg (fun hsame => hname (LawfulEqOrd.compare_eq_iff_eq.1 hsame).symm)]
    simp [hname]

variable (hids : ∀ id ∈ cams, IsSessionId id)

theorem respond_text_eq (extraHeaders : Headers) (cseq : Nat) :
    respondText extraHeaders cseq =
      requestText (ascii "200 OK" :: (answerHeaders extraHeaders cseq).map headerLine) := by
  unfold respondText requestText answerHeaders
  rw [List.map_cons, List.flatMap_cons, List.flatMap_cons, List.flatMap_map]
  have hcseq : headerLine (ascii "CSeq", printNat cseq) = ascii "CSeq: " ++ printNat cseq := rfl
  rw [hcseq]
  simp only [headerLine, List.append_assoc]

theorem printed_header {name : Bytes} (number : Nat) (hne : name ≠ [])
    (hname : ∀ byte ∈ name, isspace byte = false ∧ byte ≠ 58) :
    WellFormedHeader (name, printNat number) where
  name_ne := hne
  name := hname
  value := Trimmed.of_visible (print_ne_nil number) (print_visible number)
  oneLine := one_line_of_visible (print_visible number)

include hids in
/-- The header lines of the answer can be read. -/
theorem answer_headers_wf (cseq : Nat) :
    ∀ header ∈ answerHeaders (setupHeaders cams) cseq, WellFormedHeader header := by
  intro header hheader
  rcases List.mem_cons.1 hheader with rfl | hheader
  · exact printed_header cseq (by decide) (forall_byte (by decide))
  · rcases (setup_headers_iff cams _ _).1 (TreeMap.mem_toList_iff_getElem?_eq_some.1 hheader) with
      ⟨i, hkey, hname⟩ | ⟨hname, hvalue⟩
    · have hid : IsSessionId header.2 :=
        hids _ (TreeMap.mem_keys.1 (List.mem_of_getElem? hkey))
      have hvisible : ∀ byte ∈ header.2, isspace byte = false :=
        fun byte hbyte => (session_id_byte hid byte hbyte).1
      refine ⟨?_, ?_, Trimmed.of_visible (session_id_ne_nil hid) hvisible,
        one_line_of_visible hvisible⟩
      · rw [hname]
        exact print_ne_nil i
      · rw [hname]
        exact fun byte hbyte => ⟨print_visible i byte hbyte, by
          rintro rfl
          exact absurd (print_digits i _ hbyte) (by decide)⟩
    · rw [show header = (ascii "CamNum", printNat cams.size) from Prod.ext hname hvalue]
      exact printed_header _ (by decide) (forall_byte (by decide))

/-- What the Qt client reads of the answer. -/
def answerRead (cams : TreeMap Bytes Bytes) (cseq : Nat) : ParsedRespond :=
  parseRespond (takeRespond [] (respondText (setupHeaders cams) cseq)).1

include hids in
/-- The client takes the whole answer, and reads the headers that the server has written. -/
theorem client_reads_answer (cseq : Nat) :
    (takeRespond [] (respondText (setupHeaders cams) cseq)).2 = [] ∧
      (answerRead cams cseq).first = ascii "200" ∧
      ∀ name value, name ≠ ascii "CSeq" →
        ((answerRead cams cseq).headers[name]? = some value ↔
          (setupHeaders cams)[name]? = some value) := by
  have hparts : splitParts 32 (trim isspace (ascii "200 OK")) =
      [ascii "200", ascii "OK"] := by decide
  have hstart : ascii "200 OK" ≠ [] ∧ OneLine (ascii "200 OK") := by decide
  obtain ⟨htake, hparse⟩ := client_reads hstart hparts (answer_headers_wf hids cseq)
  unfold answerRead
  rw [respond_text_eq, htake, hparse]
  refine ⟨rfl, rfl, fun name value hname => ?_⟩
  have hdistinct : ((answerHeaders (setupHeaders cams) cseq).map Prod.fst).Nodup := by
    refine List.nodup_cons.2 ⟨fun hmem => ?_, ?_⟩
    · obtain ⟨header, hheader, heq⟩ := List.mem_map.1 hmem
      have hvalue := TreeMap.mem_toList_iff_getElem?_eq_some.1 hheader
      rw [heq] at hvalue
      rcases (setup_headers_iff cams _ _).1 hvalue with ⟨i, -, hprint⟩ | ⟨hnum, -⟩
      · exact print_ne (ascii "CSeq") (by decide) i hprint.symm
      · exact absurd hnum (by decide : ascii "CSeq" ≠ ascii "CamNum")
    · rw [TreeMap.map_fst_toList_eq_keys]
      exact TreeMap.nodup_keys
  simp only
  rw [OrderedMap.get_foldl_insert hdistinct]
  have hcseq : (name, value) ≠ (ascii "CSeq", printNat cseq) := fun heq => hname (by cases heq; rfl)
  simp [answerHeaders, hcseq, TreeMap.mem_toList_iff_getElem?_eq_some]

/-- A number that fits an `int` is read. -/
theorem to_int_print {value : Nat} (h : value < 2 ^ 31) : toInt (printNat value) = value := by
  obtain ⟨first, rest, hsplit⟩ := List.exists_cons_of_ne_nil (print_ne_nil value)
  have hdigits := print_digits value
  have hdecimal := decimal_print value
  rw [hsplit] at hdigits hdecimal ⊢
  have hfirst := hdigits first List.mem_cons_self
  have hminus : ((first :: rest).head? == some 45) = false := by
    rw [List.head?_cons, beq_eq_false_iff_ne]
    rintro heq
    cases heq
    exact absurd hfirst (by decide)
  have hplus : ((first :: rest).head? == some 43) = false := by
    rw [List.head?_cons, beq_eq_false_iff_ne]
    rintro heq
    cases heq
    exact absurd hfirst (by decide)
  have hall : (first :: rest).all isdigit = true := List.all_eq_true.2 hdigits
  unfold toInt
  simp only [hminus, hplus, Bool.or_false, Bool.false_eq_true, if_false, hdecimal]
  rw [if_pos ⟨by simp, hall, by omega, by omega⟩]

/-- The cameras that the headers list. -/
def answeredCams (headers : Headers) : List Bytes :=
  (List.range (toInt (headers.getD (ascii "CamNum") [])).toNat).map fun i =>
    headers.getD (printNat i) []

include hids in
/-- The client finds the cameras of the server in their order. -/
theorem answered_cams (cseq : Nat) (hsize : cams.size < 2 ^ 31) :
    answeredCams (answerRead cams cseq).headers = cams.keys := by
  obtain ⟨-, -, hheaders⟩ := client_reads_answer hids cseq
  have hnum : (answerRead cams cseq).headers[ascii "CamNum"]? = some (printNat cams.size) :=
    (hheaders _ _ (by decide)).2 ((setup_headers_iff cams _ _).2 (.inr ⟨rfl, rfl⟩))
  have hcount : (answerRead cams cseq).headers.getD (ascii "CamNum") [] = printNat cams.size := by
    rw [TreeMap.getD_eq_getD_getElem?, hnum]
    rfl
  unfold answeredCams
  rw [hcount, to_int_print hsize, Int.toNat_natCast]
  refine List.ext_getElem (by simp) fun i hi hkey => ?_
  rw [List.getElem_map, List.getElem_range]
  have hvalue : (answerRead cams cseq).headers[printNat i]? = some cams.keys[i] := by
    rw [hheaders _ _ (print_ne _ (by decide) i), setup_headers_iff]
    exact .inl ⟨i, List.getElem?_eq_getElem hkey, rfl⟩
  rw [TreeMap.getD_eq_getD_getElem?, hvalue]
  rfl

/-- The loop over the cameras stores them one after another. -/
theorem store_cams_eq (headers : Headers) (udpPort : Nat → TransUdpPort)
    (camMap : TreeMap Bytes TransUdpPort) :
    MonitorClientWidget.storeCams headers udpPort camMap =
      ((answeredCams headers).zipIdx.map fun cam => (cam.1, udpPort cam.2)).foldl
        (fun camMap cam => camMap.insert cam.1 cam.2) camMap := by
  have hzip : (answeredCams headers).zipIdx =
      (List.range (toInt (headers.getD (ascii "CamNum") [])).toNat).map fun i =>
        (headers.getD (printNat i) [], i) := by
    unfold answeredCams
    refine List.ext_getElem (by simp) fun i _ _ => ?_
    simp
  rw [hzip, List.map_map, List.foldl_map]
  rfl

include hids in
/-- What the client stores: the i-th pair of sockets and conversation for the i-th camera. -/
theorem store_cams_iff (cseq : Nat) (hsize : cams.size < 2 ^ 31) (udpPort : Nat → TransUdpPort)
    (camMap : TreeMap Bytes TransUdpPort) (id : Bytes) (port : TransUdpPort) :
    (MonitorClientWidget.storeCams (answerRead cams cseq).headers udpPort camMap)[id]? = some port ↔
      (∃ i, cams.keys[i]? = some id ∧ port = udpPort i) ∨ id ∉ cams ∧ camMap[id]? = some port := by
  have hkeys : (cams.keys.zipIdx.map fun cam => (cam.1, udpPort cam.2)).map Prod.fst =
      cams.keys := by
    rw [List.map_map]
    exact List.zipIdx_map_fst 0 cams.keys
  rw [store_cams_eq, answered_cams hids cseq hsize,
    OrderedMap.get_foldl_insert (by rw [hkeys]; exact TreeMap.nodup_keys), hkeys, TreeMap.mem_keys]
  refine or_congr_left ?_
  rw [List.mem_map]
  constructor
  · rintro ⟨cam, hcam, heq⟩
    cases heq
    exact ⟨cam.2, List.mem_zipIdx_iff_getElem?.1 hcam, rfl⟩
  · rintro ⟨i, hi, rfl⟩
    exact ⟨(id, i), List.mem_zipIdx_iff_getElem?.2 hi, rfl⟩

end Answer

/-! ## The requests of the server -/

/-- The headers of a request that names one camera. -/
def camRequestHeaders (sessionId : Bytes) (cseq : Nat) : List (Bytes × Bytes) :=
  [(ascii "Cseq", printNat cseq), (ascii "SessionId", sessionId)]

/-- What the client reads of such a request. -/
theorem client_reads_cam_request {method server sessionId : Bytes}
    (hmethod : method ≠ [] ∧ ∀ byte ∈ method, isspace byte = false)
    (hserver : server ≠ [] ∧ ∀ byte ∈ server, isspace byte = false)
    (hid : IsSessionId sessionId) (cseq : Nat) :
    ∃ respond, (takeRespond [] (camRequest (method ++ [32]) server sessionId cseq)).2 = [] ∧
      parseRespond (takeRespond [] (camRequest (method ++ [32]) server sessionId cseq)).1 =
        respond ∧
      respond.first = method ∧ respond.headers[ascii "SessionId"]? = some sessionId ∧
      respond.headers[ascii "CamNum"]? = none := by
  have htext : camRequest (method ++ [32]) server sessionId cseq = requestText
      ((method ++ 32 :: server) :: (camRequestHeaders sessionId cseq).map headerLine) := by
    unfold camRequest requestText camRequestHeaders headerLine
    simp only [List.map_cons, List.map_nil, List.flatMap_cons, List.flatMap_nil, List.append_assoc,
      List.cons_append, List.nil_append, List.append_nil]
    rfl
  have hstart : method ++ 32 :: server ≠ [] ∧ OneLine (method ++ 32 :: server) := by
    refine ⟨by simp, (one_line_of_visible hmethod.2).append ?_⟩
    exact List.forall_mem_cons.2 ⟨by decide, one_line_of_visible hserver.2⟩
  have htrimmed : Trimmed (method ++ 32 :: server) := by
    refine ⟨hstart.1, fun byte hbyte => ?_, fun byte hbyte => ?_⟩
    · rw [List.head?_append_of_ne_nil _ hmethod.1] at hbyte
      exact hmethod.2 byte (List.mem_of_mem_head? hbyte)
    · rw [← List.singleton_append, ← List.append_assoc,
        List.getLast?_append_of_ne_nil _ hserver.1] at hbyte
      exact hserver.2 byte (List.mem_of_mem_getLast? hbyte)
  have hparts : splitParts 32 (trim isspace (method ++ 32 :: server)) = [method, server] := by
    have htrim := trim_padded [] [] htrimmed (fun _ hbyte => hbyte) (by simp) (by simp)
    rw [List.nil_append, List.append_nil] at htrim
    have hfree : ∀ text : Bytes, (∀ byte ∈ text, isspace byte = false) → ∀ byte ∈ text, byte ≠ 32 :=
      fun text hvisible byte hbyte => visible_ne (hvisible byte hbyte) rfl
    unfold splitParts
    rw [htrim, getfields_append (hfree _ hmethod.2), getfields_last hserver.1 (hfree _ hserver.2)]
    simp [hmethod.1, hserver.1]
  have hvisible : ∀ byte ∈ sessionId, isspace byte = false :=
    fun byte hbyte => (session_id_byte hid byte hbyte).1
  have hname : ascii "SessionId" ≠ [] ∧
      ∀ byte ∈ ascii "SessionId", isspace byte = false ∧ byte ≠ 58 :=
    ⟨by decide, forall_byte (by decide)⟩
  have hheaders : ∀ header ∈ camRequestHeaders sessionId cseq, WellFormedHeader header :=
    List.forall_mem_cons.2 ⟨printed_header cseq (by decide) (forall_byte (by decide)),
      List.forall_mem_singleton.2 ⟨hname.1, hname.2,
        Trimmed.of_visible (session_id_ne_nil hid) hvisible, one_line_of_visible hvisible⟩⟩
  obtain ⟨htake, hparse⟩ := client_reads hstart hparts hheaders
  refine ⟨_, by rw [htext, htake], by rw [htext, htake, hparse], rfl, ?_, ?_⟩
  · exact TreeMap.getElem?_insert_self
  · show (((∅ : Headers).insert (ascii "Cseq") (printNat cseq)).insert
      (ascii "SessionId") sessionId)[ascii "CamNum"]? = none
    rw [TreeMap.getElem?_insert, if_neg (by decide), TreeMap.getElem?_insert, if_neg (by decide)]
    exact TreeMap.getElem?_emptyc

/-! ## The requests of the Qt client -/

/-- The value of a camera's header. -/
def portsText (udpPort : TransUdpPort) : Bytes :=
  printNat udpPort.udpRtpSocket.toNat ++ ascii " " ++ printNat udpPort.udpRtcpSocket.toNat ++
    ascii " " ++ printNat udpPort.conv.toNat

/-- The headers of a request that names these cameras. -/
def camHeaders (cseq : Nat) (cams : List (Bytes × TransUdpPort)) : List (Bytes × Bytes) :=
  (ascii "Cseq", printNat cseq) :: cams.map fun cam => (cam.1, portsText cam.2)

/-- The text of a request that names these cameras. -/
def camsText (method : Bytes) (localAddress : AddressText) (cseq : Nat)
    (cams : List (Bytes × TransUdpPort)) : Bytes :=
  requestText (requestLines method localAddress cseq ++ cams.map fun cam => camLine cam.1 cam.2)

/-- The session that a client has for these ports. -/
structure SessionFor (clientIp : Bytes) (udpPort : TransUdpPort) (session : UdpSession) : Prop where
  rtp : session.videoUdpRtp = ⟨clientIp, udpPort.udpRtpSocket⟩
  rtcp : session.videoUdpRtcp = ⟨clientIp, udpPort.udpRtcpSocket⟩
  conv : session.conv = udpPort.conv

section Requests

variable {udpPort : TransUdpPort} {cams : List (Bytes × TransUdpPort)} {cseq : Nat}
  {method : Bytes} {localAddress : AddressText}

theorem cams_text_eq (method : Bytes) (localAddress : AddressText) (cseq : Nat)
    (cams : List (Bytes × TransUdpPort)) :
    camsText method localAddress cseq cams =
      requestText
        ((method ++ 32 :: localAddress.text) :: (camHeaders cseq cams).map headerLine) := by
  unfold camsText requestLines camHeaders
  rw [List.map_cons, List.map_map, show ascii " " = [32] from rfl]
  simp only [List.append_assoc, List.cons_append, List.nil_append]
  rfl

/-- The blank ends the fields of a camera's header. -/
theorem ports_fields (udpPort : TransUdpPort) :
    getfields 32 (portsText udpPort) = [printNat udpPort.udpRtpSocket.toNat,
      printNat udpPort.udpRtcpSocket.toNat, printNat udpPort.conv.toNat] := by
  have hfree : ∀ value : Nat, ∀ byte ∈ printNat value, byte ≠ 32 := fun value byte hbyte =>
    visible_ne (print_visible value byte hbyte) rfl
  unfold portsText
  rw [show ascii " " = [32] from rfl]
  simp only [List.append_assoc, List.cons_append, List.nil_append]
  rw [getfields_append (hfree _), getfields_append (hfree _),
    getfields_last (print_ne_nil _) (hfree _)]

/-- The header announces the ports and the conversation of its camera. -/
theorem ports_announced (udpPort : TransUdpPort) :
    Announces (portsText udpPort) udpPort.udpRtpSocket.toNat udpPort.udpRtcpSocket.toNat
      udpPort.conv.toNat := by
  have hrtp := udpPort.udpRtpSocket.toNat_lt
  have hrtcp := udpPort.udpRtcpSocket.toNat_lt
  have hconv := udpPort.conv.toNat_lt
  refine ⟨?_, ?_, ?_⟩
  · simp [portNumber, ports_fields, stoul_print (show udpPort.udpRtpSocket.toNat < 2 ^ 64 by omega)]
  · simp [portNumber, ports_fields,
      stoul_print (show udpPort.udpRtcpSocket.toNat < 2 ^ 64 by omega)]
  · simp [portNumber, ports_fields, stoul_print (show udpPort.conv.toNat < 2 ^ 64 by omega)]

/-- The session stored for a camera's header. -/
theorem session_for {rtpPort rtcpPort conv : Nat} (clientIp : Bytes) (number : Nat)
    (h : Announces (portsText udpPort) rtpPort rtcpPort conv) :
    SessionFor clientIp udpPort (.create clientIp rtpPort rtcpPort conv number) := by
  have hports := ports_announced udpPort
  have hrtp : rtpPort = udpPort.udpRtpSocket.toNat := Except.ok.inj (h.rtp.symm.trans hports.rtp)
  have hrtcp : rtcpPort = udpPort.udpRtcpSocket.toNat :=
    Except.ok.inj (h.rtcp.symm.trans hports.rtcp)
  have hconv : conv = udpPort.conv.toNat := Except.ok.inj (h.conv.symm.trans hports.conv)
  rw [hrtp, hrtcp, hconv]
  exact ⟨by simp [UdpSession.create], by simp [UdpSession.create], by simp [UdpSession.create]⟩

theorem cam_header_wf {id : Bytes} (hid : IsSessionId id) (udpPort : TransUdpPort) :
    WellFormedHeader (id, portsText udpPort) where
  name_ne := session_id_ne_nil hid
  name byte hbyte := ⟨(session_id_byte hid byte hbyte).1, (session_id_byte hid byte hbyte).2.1⟩
  value := by
    refine ⟨by simp [portsText, print_ne_nil], fun byte hbyte => ?_, fun byte hbyte => ?_⟩
    · unfold portsText at hbyte
      simp only [List.append_assoc] at hbyte
      rw [List.head?_append_of_ne_nil _ (print_ne_nil _)] at hbyte
      exact print_visible _ byte (List.mem_of_mem_head? hbyte)
    · unfold portsText at hbyte
      rw [List.getLast?_append_of_ne_nil _ (print_ne_nil _)] at hbyte
      exact print_visible _ byte (List.mem_of_mem_getLast? hbyte)
  oneLine := by
    have hnumber : ∀ value, OneLine (printNat value) := fun value =>
      one_line_of_visible (print_visible value)
    have hblank : OneLine (ascii " ") := by decide
    exact ((((hnumber _).append hblank).append (hnumber _)).append hblank).append (hnumber _)

section Receive

variable (hids : ∀ cam ∈ cams, IsSessionId cam.1) (hdistinct : (cams.map Prod.fst).Nodup)

include hids in
/-- The headers as the server stores them. -/
theorem cam_headers_lowered (cseq : Nat) :
    (camHeaders cseq cams).map lowered =
      (ascii "cseq", printNat cseq) :: cams.map fun cam => (cam.1, portsText cam.2) := by
  unfold camHeaders
  rw [List.map_cons, List.map_map]
  refine congrArg₂ List.cons rfl (List.map_congr_left fun cam hcam => ?_)
  exact Prod.ext (session_id_lower (hids cam hcam)) rfl

include hids in
theorem cam_headers_wf (cseq : Nat) : ∀ header ∈ camHeaders cseq cams, WellFormedHeader header := by
  intro header hheader
  rcases List.mem_cons.1 hheader with rfl | hheader
  · exact printed_header cseq (by decide) (forall_byte (by decide))
  · obtain ⟨cam, hcam, rfl⟩ := List.mem_map.1 hheader
    exact cam_header_wf (hids cam hcam) cam.2

include hids hdistinct in
/-- The server takes and parses the whole request, and reads the headers that the client has
written. -/
theorem server_reads_cams (hne : method ≠ []) (hmethod : ∀ byte ∈ method, isspace byte = false)
    (localAddress : AddressText) (cseq : Nat) :
    ∃ parsed, (takeRequest [] (camsText method localAddress cseq cams)).2 = [] ∧
      parseRequest (takeRequest [] (camsText method localAddress cseq cams)).1 = .ok parsed ∧
      parsed.method = method ∧
      ∀ name value, parsed.headers[name]? = some value ↔
        (name, value) = (ascii "cseq", printNat cseq) ∨
          ∃ cam ∈ cams, (cam.1, portsText cam.2) = (name, value) := by
  have hstart : OneLine (method ++ 32 :: localAddress.text) := by
    refine (one_line_of_visible hmethod).append ?_
    exact List.forall_mem_cons.2 ⟨by decide, one_line_of_visible localAddress.visible⟩
  have hlower := cam_headers_lowered hids cseq
  have hnames : ((camHeaders cseq cams).map fun header => (lowered header).1).Nodup := by
    have hfst : ((camHeaders cseq cams).map fun header => (lowered header).1) =
        ((camHeaders cseq cams).map lowered).map Prod.fst := by
      rw [List.map_map]
      rfl
    rw [hfst, hlower, List.map_cons, List.map_map]
    refine List.nodup_cons.2 ⟨fun hmem => ?_, hdistinct⟩
    obtain ⟨cam, hcam, heq⟩ := List.mem_map.1 hmem
    exact session_id_ne_cseq (hids cam hcam) heq
  obtain ⟨parsed, htake, hparse, hname, hheaders⟩ := server_reads hne hmethod hstart
    (cam_headers_wf hids cseq) hnames
  rw [cams_text_eq, htake]
  refine ⟨parsed, rfl, hparse, hname, fun name value => ?_⟩
  rw [hheaders, hlower, List.mem_cons, List.mem_map]

include hids hdistinct in
/-- A MESSAGE or an ADDCAM is one to the server. -/
theorem server_reads_register (hmethod : method = ascii "MESSAGE" ∨ method = ascii "ADDCAM")
    (localAddress : AddressText) (cseq : Nat) :
    ∃ parsed, (takeRequest [] (camsText method localAddress cseq cams)).2 = [] ∧
      parseRequest (takeRequest [] (camsText method localAddress cseq cams)).1 = .ok parsed ∧
      parsed.Registers ∧
      ∀ name value, parsed.headers[name]? = some value ↔
        (name, value) = (ascii "cseq", printNat cseq) ∨
          ∃ cam ∈ cams, (cam.1, portsText cam.2) = (name, value) := by
  have hbytes : method ≠ [] ∧ ∀ byte ∈ method, isspace byte = false := by
    rcases hmethod with rfl | rfl
    · exact ⟨by decide, forall_byte (by decide)⟩
    · exact ⟨by decide, forall_byte (by decide)⟩
  obtain ⟨parsed, hrest, hparse, hname, hheaders⟩ :=
    server_reads_cams hids hdistinct hbytes.1 hbytes.2 localAddress cseq
  refine ⟨parsed, hrest, hparse, ?_, hheaders⟩
  unfold ParsedRequest.Registers
  rwa [hname]

theorem cams_text_ne_nil (method : Bytes) (localAddress : AddressText) (cseq : Nat)
    (cams : List (Bytes × TransUdpPort)) : camsText method localAddress cseq cams ≠ [] := by
  simp [camsText, requestText, CRLF]

variable {server next : MonitorServer} {fd : Int} {client : QtClient} {events : List Event}

include hids hdistinct in
/-- The server stores a session with the announced ports for each camera of a MESSAGE or an ADDCAM,
leaves the other sessions alone, and sends nothing. -/
theorem receive_cams (hmethod : method = ascii "MESSAGE" ∨ method = ascii "ADDCAM")
    (hbuffer : client.buffer = [])
    (h : server.receive fd client (.bytes (camsText method localAddress cseq cams)) =
      .ok (next, events)) :
    ∃ after created, next =
        { server with qtClients := server.qtClients.insert fd after, created := created } ∧
      after.buffer = [] ∧ after.clientIp = client.clientIp ∧
      (∀ cam ∈ cams, ∃ session, after.sessionMap[cam.1]? = some session ∧
        SessionFor client.clientIp cam.2 session) ∧
      (∀ name, name ∉ cams.map Prod.fst → after.sessionMap[name]? = client.sessionMap[name]?) ∧
      ∀ other text, .send other text ∉ events := by
  obtain ⟨parsed, hrest, hparse, hregisters, hheaders⟩ :=
    server_reads_register hids hdistinct hmethod localAddress cseq
  obtain ⟨again, after, created, calls, hagain, hcases, hnext, hevents⟩ :=
    MonitorServer.receive_ok (cams_text_ne_nil _ _ _ _) h
  rw [hbuffer, hparse] at hagain
  cases hagain
  obtain ⟨-, hrun⟩ := hcases.resolve_right fun hquiet => hquiet.1 hregisters
  obtain ⟨⟨hip, hafter, -⟩, hcalls⟩ := register_frame hrun
  have hkeys : parsed.headers.toList.Pairwise fun header other => header.1 ≠ other.1 :=
    TreeMap.distinct_keys_toList.imp fun hne heq => hne (LawfulEqOrd.compare_eq_iff_eq.2 heq)
  refine ⟨after, created, hnext, ?_, hip, fun cam hcam => ?_, fun name hname => ?_,
    fun other text hsend => ?_⟩
  · rw [hafter]
    show (takeRequest client.buffer _).2 = []
    rw [hbuffer, hrest]
  · have hmem : (cam.1, portsText cam.2) ∈ parsed.headers.toList := by
      rw [TreeMap.mem_toList_iff_getElem?_eq_some, hheaders]
      exact .inr ⟨cam, hcam, rfl⟩
    obtain ⟨rtpPort, rtcpPort, conv, number, hports, hsession⟩ :=
      register_entries hkeys hrun hmem (session_id_ne_cseq (hids cam hcam))
    exact ⟨_, hsession, session_for _ _ hports⟩
  · refine (register_untouched (fun header hheader hcseq heq => ?_) hrun).1
    rw [TreeMap.mem_toList_iff_getElem?_eq_some, hheaders] at hheader
    rcases hheader with hskip | ⟨cam, hcam, hcamEq⟩
    · exact hcseq (congrArg Prod.fst hskip)
    · exact hname (List.mem_map.2 ⟨cam, hcam, (congrArg Prod.fst hcamEq).trans heq⟩)
  · rw [hevents] at hsend
    rcases hcalls _ ((List.mem_cons.1 hsend).resolve_left (by simp)) with ⟨_, _, heq⟩ | ⟨_, heq⟩
    · cases heq
    · cases heq

/-- The server answers SETUP with its cameras. -/
theorem receive_setup (server : MonitorServer) (fd : Int) (hbuffer : client.buffer = [])
    (localAddress : AddressText) (cseq : Nat) :
    ∃ request after,
      server.receive fd client (.bytes (camsText (ascii "SETUP") localAddress cseq [])) =
        .ok ({ server with qtClients := server.qtClients.insert fd after },
          [.parseRequest fd request,
            .send fd (respondText (setupHeaders server.cams) (client.cseq + 1))]) ∧
      after.buffer = [] ∧ after.sessionMap = client.sessionMap := by
  have hmethod : ascii "SETUP" ≠ [] ∧ ∀ byte ∈ ascii "SETUP", isspace byte = false :=
    ⟨by decide, forall_byte (by decide)⟩
  have hnone : ∀ cam ∈ ([] : List (Bytes × TransUdpPort)), IsSessionId cam.1 := by simp
  obtain ⟨parsed, hrest, hparse, hname, -⟩ :=
    server_reads_cams hnone List.nodup_nil hmethod.1 hmethod.2 localAddress cseq
  obtain ⟨first, rest, htext⟩ := List.exists_cons_of_ne_nil
    (cams_text_ne_nil (ascii "SETUP") localAddress cseq [])
  have hreceive : server.receive fd client
      (.bytes (camsText (ascii "SETUP") localAddress cseq [])) =
        server.handleBytes fd client (camsText (ascii "SETUP") localAddress cseq []) := by
    rw [htext]
    rfl
  refine ⟨(takeRequest client.buffer (camsText (ascii "SETUP") localAddress cseq [])).1,
    client.reading (camsText (ascii "SETUP") localAddress cseq []), ?_, ?_, rfl⟩
  · rw [hreceive]
    unfold MonitorServer.handleBytes
    simp only [hbuffer, hparse]
    unfold MonitorServer.handleRequest QtClient.reading
    rw [if_pos hname, hbuffer]
    rfl
  · show (takeRequest client.buffer _).2 = []
    rw [hbuffer, hrest]

include hids hdistinct in
/-- The server survives such a request exactly when the client has no session for its cameras. -/
theorem receive_cams_ok_iff (server : MonitorServer) (fd : Int) (hintact : Intact client)
    (hmethod : method = ascii "MESSAGE" ∨ method = ascii "ADDCAM") (hbuffer : client.buffer = [])
    (localAddress : AddressText) (cseq : Nat) :
    (∃ result, server.receive fd client (.bytes (camsText method localAddress cseq cams)) =
      .ok result) ↔ ∀ cam ∈ cams, client.sessionMap[cam.1]? = none := by
  obtain ⟨parsed, -, hparse, hregisters, hheaders⟩ :=
    server_reads_register hids hdistinct hmethod localAddress cseq
  let chunk := camsText method localAddress cseq cams
  have hreading : Intact (client.reading chunk) := hintact
  have hiff : (∃ result, registerCams (client.reading chunk) server.created parsed.headers =
      .ok result) ↔ ∀ cam ∈ cams, client.sessionMap[cam.1]? = none := by
    rw [register_ok_iff hreading]
    constructor
    · intro hall cam hcam
      exact (hall cam.1 (portsText cam.2) ((hheaders _ _).2 (.inr ⟨cam, hcam, rfl⟩))
        (session_id_ne_cseq (hids cam hcam))).2
    · intro hfree name value hvalue hcseq
      rcases (hheaders name value).1 hvalue with hskip | ⟨cam, hcam, heq⟩
      · exact absurd (congrArg Prod.fst hskip) hcseq
      · cases heq
        exact ⟨(three_numbers_iff _).2 ⟨_, _, _, ports_announced cam.2⟩, hfree cam hcam⟩
  rw [← hiff]
  constructor
  · rintro ⟨⟨next, events⟩, hok⟩
    obtain ⟨again, after, created, calls, hagain, hcases, -, -⟩ :=
      MonitorServer.receive_ok (cams_text_ne_nil _ _ _ _) hok
    rw [hbuffer, hparse] at hagain
    cases hagain
    obtain ⟨-, hrun⟩ := hcases.resolve_right fun hquiet => hquiet.1 hregisters
    exact ⟨_, hrun⟩
  · rintro ⟨result, hrun⟩
    cases hresult : server.receive fd client (.bytes chunk) with
    | ok outcome => exact ⟨outcome, rfl⟩
    | error fault =>
        rcases MonitorServer.receive_error (cams_text_ne_nil _ _ _ _) hresult with
          hfault | ⟨other, hother, -, hfault⟩
        · rw [hbuffer, hparse] at hfault
          cases hfault
        · rw [hbuffer, hparse] at hother
          cases hother
          rw [hrun] at hfault
          cases hfault

end Receive

end Requests

end CarDetect.Monitor
