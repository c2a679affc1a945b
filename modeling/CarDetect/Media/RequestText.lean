import CarDetect.Media.RtspConnect
import CarDetect.Monitor.HeaderText

/-!
# Texts of RTSP requests

A `WrittenRequest` is a request line, header lines and a body. `parse_text`, `read_header`,
`read_url` and `read_body` say what `parseRequest` and `extractBody` make of its text.
`responseText` is the text of an answer.
-/

namespace CarDetect.Media

open BigEndian ByteString Reactor
open Monitor (headerLine header_line_parts find_colon one_line_of_visible isspace_of_isBlank
  getlines_append requestText request_text_eq)

/-- A header that is printed on one line: a name without white space and colons, and a value
without line ends. -/
structure PrintableHeader (header : Bytes × Bytes) : Prop where
  name_ne : header.1 ≠ []
  name : ∀ byte ∈ header.1, isspace byte = false ∧ byte ≠ 58
  oneLine : OneLine header.2

theorem PrintableHeader.of_name {name value : Bytes} (hne : name ≠ [])
    (hname : ∀ byte ∈ name, isspace byte = false ∧ byte ≠ 58) (hvalue : OneLine value) :
    PrintableHeader (name, value) :=
  ⟨hne, hname, hvalue⟩

/-- What the server stores of a header. -/
def stored (header : Bytes × Bytes) : Bytes × Bytes :=
  (header.1.map tolower, trim isBlank header.2)

/-- The header map with these headers added, in order. -/
def storeAll (found : Headers) (headers : List (Bytes × Bytes)) : Headers :=
  headers.foldl (fun found header => found.set (stored header).1 (stored header).2) found

section Parse

variable {header : Bytes × Bytes} {headers : List (Bytes × Bytes)} {lines : List Bytes}
  {start body : Bytes}

/-- Blanks around a text do not matter. -/
theorem trim_outer {blank : UInt8 → Bool} {before after : UInt8} (hbefore : blank before = true)
    (hafter : blank after = true) (text : Bytes) :
    trim blank (before :: (text ++ [after])) = trim blank text := by
  have hback : ∀ text : Bytes, (text ++ [after]).rdropWhile blank = text.rdropWhile blank := by
    intro text
    rw [List.rdropWhile, List.rdropWhile, List.reverse_append, List.reverse_singleton,
      List.singleton_append, List.dropWhile_cons_of_pos hafter]
  unfold trim
  rw [List.dropWhile_cons_of_pos hbefore, List.dropWhile_append]
  split
  · rename_i hempty
    rw [List.isEmpty_iff.1 hempty, List.dropWhile_cons_of_pos hafter]
    rfl
  · exact hback _

theorem printable_line (h : PrintableHeader header) :
    headerLine header ≠ [] ∧ OneLine (headerLine header) := by
  have hname := one_line_of_visible fun byte hbyte => (h.name byte hbyte).1
  refine ⟨by simp [headerLine, h.name_ne], (hname.append ?_).append h.oneLine⟩
  decide

/-- A header line as it is read, with its CR. -/
theorem parse_header_line (h : PrintableHeader header) (headers : Headers) :
    parseHeader headers (headerLine header ++ [13]) =
      headers.set (stored header).1 (stored header).2 := by
  obtain ⟨hname, hvalue, -⟩ := header_line_parts header [13]
  have hkey := trim_padded [] []
    (Trimmed.of_visible h.name_ne fun byte hbyte => (h.name byte hbyte).1)
    isspace_of_isBlank (by simp) (by simp)
  rw [List.nil_append, List.append_nil] at hkey
  unfold parseHeader
  simp only [find_colon h.name, hname, hvalue, hkey]
  rw [trim_outer rfl rfl]
  rfl

/-- The lines of a text that goes on behind its empty line. -/
theorem getlines_request (hlines : ∀ line ∈ lines, OneLine line) (body : Bytes) :
    getlines (requestText lines ++ body) =
      (lines.map fun line => line ++ [13]) ++ [13] :: getlines body := by
  have hended : ∀ line : Bytes, OneLine line → ∀ rest : Bytes,
      getlines (line ++ 13 :: 10 :: rest) = (line ++ [13]) :: getlines rest := by
    intro line hline rest
    have hfree : OneLine line → ∀ byte ∈ line ++ [13], byte ≠ 10 := by
      intro hline byte hbyte
      rcases List.mem_append.1 hbyte with hbyte | hbyte
      · exact (hline byte hbyte).1
      · rw [List.mem_singleton.1 hbyte]
        decide
    rw [← getlines_append (hfree hline), List.append_assoc]
    rfl
  unfold requestText
  induction lines with
  | nil => exact hended [] (by simp [OneLine]) body
  | cons line rest ih =>
      obtain ⟨hline, hrest⟩ := List.forall_mem_cons.1 hlines
      have hread := hended line hline
      rw [List.flatMap_cons, List.map_cons, List.cons_append, ← ih hrest, ← hread]
      rw [show CRLF = [13, 10] from rfl]
      simp

/-- The header loop stops at the empty line. -/
theorem parse_headers_lines (hheaders : ∀ header ∈ headers, PrintableHeader header)
    (found : Headers) (rest : List Bytes) :
    parseHeaders found ((headers.map fun header => headerLine header ++ [13]) ++ [13] :: rest) =
      storeAll found headers := by
  unfold storeAll
  induction headers generalizing found with
  | nil => exact if_pos (.inr rfl)
  | cons header headers ih =>
      obtain ⟨hheader, hheaders⟩ := List.forall_mem_cons.1 hheaders
      have hne : ¬ (headerLine header ++ [13] = [] ∨ headerLine header ++ [13] = [13]) := by
        have hline := (printable_line hheader).1
        simpa using hline
      rw [List.map_cons, List.cons_append, parseHeaders, if_neg hne, parse_header_line hheader,
        ih hheaders, List.foldl_cons]

/-- Headers with distinct names are stored as they are. -/
theorem store_all_iff (hdistinct : (headers.map fun header => (stored header).1).Nodup)
    (name value : Bytes) :
    storeAll (fun _ => none) headers name = some value ↔ (name, value) ∈ headers.map stored := by
  have hfold : ∀ found : Headers,
      storeAll found headers name = some value ↔ (name, value) ∈ headers.map stored ∨
          name ∉ (headers.map fun header => (stored header).1) ∧ found name = some value := by
    unfold storeAll
    induction headers with
    | nil => simp
    | cons header headers ih =>
        intro found
        rw [List.map_cons, List.nodup_cons] at hdistinct
        obtain ⟨hnew, hdistinct⟩ := hdistinct
        rw [List.foldl_cons, ih hdistinct]
        simp only [List.map_cons, List.mem_cons, not_or, Headers.set]
        by_cases hname : name = (stored header).1
        · subst hname
          have hnone : ((stored header).1, value) ∉ headers.map stored := by
            intro hmem
            obtain ⟨other, hother, heq⟩ := List.mem_map.1 hmem
            exact hnew (List.mem_map.2 ⟨other, hother, by rw [heq]⟩)
          simp [hnone, hnew, Prod.ext_iff, eq_comm]
        · simp [hname, Prod.ext_iff]
  rw [hfold]
  simp

/-- A word in front of white space, or at the end. -/
theorem word_visible (before rest : Bytes) {text : Bytes}
    (hbefore : ∀ byte ∈ before, isspace byte = true) (hne : text ≠ [])
    (htext : ∀ byte ∈ text, isspace byte = false)
    (hrest : ∀ byte ∈ rest.head?, isspace byte = true) :
    word (before ++ (text ++ rest)) = (text, rest) := by
  have hskip : (before ++ (text ++ rest)).dropWhile isspace = text ++ rest := by
    refine dropWhile_block hbefore fun byte hbyte => ?_
    rw [List.head?_append_of_ne_nil _ hne] at hbyte
    exact htext byte (List.mem_of_mem_head? hbyte)
  have hword : ∀ byte ∈ text, (!isspace byte) = true := fun byte hbyte => by simp [htext byte hbyte]
  have hend : ∀ byte ∈ rest.head?, (!isspace byte) = false := fun byte hbyte => by
    simp [hrest byte hbyte]
  rw [word, hskip, List.span_eq_takeWhile_dropWhile, takeWhile_block hword hend,
    dropWhile_block hword hend]

end Parse

/-! ## Whole requests -/

/-- A request that is written in lines: the method is one word, the URL stands on the same line, and
the names of the headers are distinct. -/
structure WrittenRequest where
  method : Bytes
  url : Bytes
  headers : List (Bytes × Bytes)
  body : Bytes
  method_ne : method ≠ []
  method_visible : ∀ byte ∈ method, isspace byte = false
  url_line : OneLine url
  printable : ∀ header ∈ headers, PrintableHeader header
  distinct : (headers.map fun header => (stored header).1).Nodup

namespace WrittenRequest

variable {request : WrittenRequest}

/-- The request line and the header lines. -/
def lines (request : WrittenRequest) : List Bytes :=
  (request.method ++ 32 :: (request.url ++ ascii " RTSP/1.0")) :: request.headers.map headerLine

/-- The text of the request. -/
def text (request : WrittenRequest) : Bytes :=
  requestText request.lines ++ request.body

theorem lines_one (request : WrittenRequest) :
    ∀ line ∈ request.lines, line ≠ [] ∧ OneLine line := by
  intro line hline
  rcases List.mem_cons.1 hline with rfl | hline
  · refine ⟨by simp, (one_line_of_visible request.method_visible).append ?_⟩
    intro byte hbyte
    rcases List.mem_cons.1 hbyte with rfl | hbyte
    · decide
    · refine (request.url_line.append ?_) byte hbyte
      decide
  · obtain ⟨header, hheader, rfl⟩ := List.mem_map.1 hline
    exact printable_line (request.printable header hheader)

/-- The server reads the method, whatever follows it on its line, and the headers. -/
theorem parse_text (request : WrittenRequest) :
    parseRequest request.text = ⟨request.method,
      (word (32 :: (request.url ++ ascii " RTSP/1.0" ++ [13]))).1,
      storeAll (fun _ => none) request.headers⟩ := by
  have hlines := getlines_request (fun line hline => (request.lines_one line hline).2) request.body
  have hmethod : word (request.method ++ 32 :: (request.url ++ ascii " RTSP/1.0") ++ [13]) =
      (request.method, 32 :: (request.url ++ ascii " RTSP/1.0" ++ [13])) := by
    have hword := word_visible [] (32 :: (request.url ++ ascii " RTSP/1.0" ++ [13])) (by simp)
      request.method_ne request.method_visible (by simp [isspace])
    rw [← hword]
    simp
  have hheaders := parse_headers_lines request.printable (fun _ => none) (getlines request.body)
  unfold text
  simp only [parseRequest, hlines]
  simp only [lines, List.map_cons, List.map_map, List.cons_append, hmethod]
  rw [← hheaders]
  rfl

/-- Each header is found under its name in lower case. -/
theorem read_header (request : WrittenRequest) (name value : Bytes) :
    (parseRequest request.text).headers name = some value ↔
      (name, value) ∈ request.headers.map stored := by
  rw [parse_text]
  exact store_all_iff request.distinct name value

/-- The server reads the URL. -/
theorem read_url (hne : request.url ≠ []) (hurl : ∀ byte ∈ request.url, isspace byte = false) :
    (parseRequest request.text).url = request.url := by
  have hword := word_visible [32] (ascii " RTSP/1.0" ++ [13]) (forall_byte (by decide)) hne hurl
    (by simp [ascii, isspace])
  rw [parse_text, List.append_assoc]
  exact congrArg Prod.fst hword

/-- The server finds the body behind the empty line. -/
theorem read_body {headers : Headers} (hlength : bodyLength headers = request.body.length)
    (hfits : request.text.length < sizeRange) :
    extractBody request.text headers = request.body := by
  have htext : request.text = joinLines request.lines ++ CRLFCRLF ++ request.body := by
    rw [text, request_text_eq (by simp [lines])]
  have hfound : find CRLFCRLF request.text = some (joinLines request.lines).length := by
    rw [htext]
    exact find_delimited (by decide) (delimited_lines (by simp [lines]) request.lines_one) _
  have hbody : request.text.drop ((joinLines request.lines).length + 4) = request.body := by
    rw [htext, ← List.drop_drop, List.append_assoc, List.drop_left]
    rfl
  have hsum : (joinLines request.lines).length + 4 + request.body.length = request.text.length := by
    rw [htext, List.length_append, List.length_append]
    rfl
  unfold extractBody
  simp only [hfound, hlength, hbody]
  split
  · rfl
  · rw [if_neg (by rw [hsum, Nat.mod_eq_of_lt hfits]; omega), List.take_length]

end WrittenRequest

/-! ## Answers -/

/-- The text that `sendResponse` sends. -/
def responseText (response : Response) : Bytes :=
  ascii "RTSP/1.0 " ++ printNat response.statusCode ++ ascii " " ++ response.statusText ++ CRLF ++
    ascii "CSeq: " ++ printInt response.cseq ++ CRLF ++ ascii "Server: RTSP Server/1.0" ++ CRLF ++
    (response.extraHeaders.flatMap fun header => headerLine header ++ CRLF) ++ CRLF

end CarDetect.Media
