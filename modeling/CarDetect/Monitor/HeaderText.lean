import CarDetect.Lib.Lines
import CarDetect.Lib.OrderedMap
import CarDetect.Monitor.MonitorClientWidget
import CarDetect.Monitor.RequestBuffer
import CarDetect.Monitor.Robustness

/-!
# Texts of header lines, as both sides read them

A message is a start line and header lines. `server_reads` says what `takeRequest` and
`parseRequest` of the server make of it, and `client_reads` what `takeRespond` and `parseRespond` of
the Qt client do.
-/

namespace CarDetect.Monitor

open BigEndian ByteString Reactor Std

/-- A header line. -/
def headerLine (header : Bytes × Bytes) : Bytes :=
  header.1 ++ ascii ": " ++ header.2

/-- A header that both parsers read: a name without white space and colons, and a value on one line
that begins and ends with other characters than white space. -/
structure WellFormedHeader (header : Bytes × Bytes) : Prop where
  name_ne : header.1 ≠ []
  name : ∀ byte ∈ header.1, isspace byte = false ∧ byte ≠ 58
  value : Trimmed header.2
  oneLine : OneLine header.2

/-- The name of a header in lower case, and its value. -/
def lowered (header : Bytes × Bytes) : Bytes × Bytes :=
  (header.1.map tolower, header.2)

section Lines

variable {header : Bytes × Bytes} {headers : List (Bytes × Bytes)} {start text after : Bytes}
  {lines : List Bytes}

/-- White space ends no word and no line that has none. -/
theorem visible_ne {byte other : UInt8} (h : isspace byte = false) (hother : isspace other = true) :
    byte ≠ other := by
  rintro rfl
  rw [hother] at h
  cases h

theorem one_line_of_visible (h : ∀ byte ∈ text, isspace byte = false) : OneLine text :=
  fun byte hbyte => ⟨visible_ne (h byte hbyte) rfl, visible_ne (h byte hbyte) rfl⟩

theorem isspace_of_isBlank (byte : UInt8) (h : Media.isBlank byte = true) :
    isspace byte = true := by
  unfold Media.isBlank at h
  simp only [Bool.or_eq_true, beq_iff_eq] at h
  rcases h with ((rfl | rfl) | rfl) | rfl <;> rfl

theorem header_line_one (h : WellFormedHeader header) :
    headerLine header ≠ [] ∧ OneLine (headerLine header) := by
  refine ⟨by simp [headerLine, h.name_ne], ?_⟩
  have hname := one_line_of_visible fun byte hbyte => (h.name byte hbyte).1
  exact (hname.append (by decide)).append h.oneLine

theorem header_lines_one (hheaders : ∀ header ∈ headers, WellFormedHeader header) :
    ∀ line ∈ headers.map headerLine, line ≠ [] ∧ OneLine line := by
  intro line hline
  obtain ⟨header, hheader, rfl⟩ := List.mem_map.1 hline
  exact header_line_one (hheaders header hheader)

/-- The colon of a header line stands behind its name. -/
theorem find_colon (hname : ∀ byte ∈ header.1, isspace byte = false ∧ byte ≠ 58) (after : Bytes) :
    find (ascii ":") (headerLine header ++ after) = some header.1.length := by
  have hskip : ∀ byte ∈ header.1, byte ≠ 58 := fun byte hbyte => (hname byte hbyte).2
  have htext : headerLine header ++ after = header.1 ++ 58 :: 32 :: (header.2 ++ after) := by
    unfold headerLine
    rw [show ascii ": " = [58, 32] from rfl]
    simp
  have hcolon : find [58] (58 :: 32 :: (header.2 ++ after)) = some 0 := by
    rw [find, if_pos (by simp)]
  show find [58] _ = _
  rw [htext, find_skip hskip, hcolon]
  simp

/-- The parts of a header line on the two sides of its colon. -/
theorem header_line_parts (header : Bytes × Bytes) (after : Bytes) :
    (headerLine header ++ after).take header.1.length = header.1 ∧
      (headerLine header ++ after).drop (header.1.length + 1) = 32 :: (header.2 ++ after) ∧
      (headerLine header ++ after).drop (header.1.length + 2) = header.2 ++ after := by
  have htext : headerLine header ++ after = header.1 ++ ([58, 32] ++ (header.2 ++ after)) := by
    unfold headerLine
    rw [show ascii ": " = [58, 32] from rfl]
    simp
  rw [htext]
  refine ⟨List.take_left, ?_, ?_⟩
  · rw [List.drop_append]
    simp
  · rw [List.drop_append]
    simp

/-! ## The server's parser -/

/-- The server reads the name in lower case and the value, with or without a CR behind it. -/
theorem header_of_line (h : WellFormedHeader header) (after : Bytes)
    (hafter : ∀ byte ∈ after, Media.isBlank byte) :
    headerOfLine (headerLine header ++ after) = some (lowered header) := by
  obtain ⟨hname, -, hvalue⟩ := header_line_parts header after
  have htrimmed := Trimmed.of_visible h.name_ne fun byte hbyte => (h.name byte hbyte).1
  have hkey := trim_padded [] [] htrimmed isspace_of_isBlank (by simp) (by simp)
  have htext := trim_padded [] after h.value isspace_of_isBlank (by simp) hafter
  rw [List.nil_append] at htext
  rw [List.nil_append, List.append_nil] at hkey
  unfold headerOfLine
  rw [find_colon h.name, Option.map_some, hname, hvalue, hkey, htext]
  rfl

/-- The lines that `std::getline` reads: all but the last keep their CR. -/
def carried : List Bytes → List Bytes
  | [] => []
  | [line] => [line]
  | line :: rest => (line ++ [13]) :: carried rest

/-- A line up to its LF. -/
theorem getlines_append {line rest : Bytes} (h : ∀ byte ∈ line, byte ≠ 10) :
    getlines (line ++ 10 :: rest) = line :: getlines rest := by
  induction line with
  | nil => rw [List.nil_append, getlines, if_pos rfl]
  | cons byte line ih =>
      obtain ⟨hbyte, hline⟩ := List.forall_mem_cons.1 h
      rw [List.cons_append, getlines, if_neg hbyte, ih hline]

/-- The last line. -/
theorem getlines_last {line : Bytes} (hne : line ≠ []) (h : ∀ byte ∈ line, byte ≠ 10) :
    getlines line = [line] := by
  induction line with
  | nil => exact absurd rfl hne
  | cons byte line ih =>
      obtain ⟨hbyte, hline⟩ := List.forall_mem_cons.1 h
      rw [getlines, if_neg hbyte]
      cases line with
      | nil => rfl
      | cons next line => rw [ih (by simp) hline]

theorem getlines_join (hlines : ∀ line ∈ lines, line ≠ [] ∧ OneLine line) :
    getlines (joinLines lines) = carried lines := by
  induction lines with
  | nil => rfl
  | cons line rest ih =>
      obtain ⟨⟨hne, hline⟩, hrest⟩ := List.forall_mem_cons.1 hlines
      have hfree : ∀ byte ∈ line, byte ≠ 10 := fun byte hbyte => (hline byte hbyte).1
      cases rest with
      | nil => rw [join_singleton, getlines_last hne hfree, carried]
      | cons next rest =>
          have hcr : ∀ byte ∈ line ++ [13], byte ≠ 10 := by
            intro byte hbyte
            rcases List.mem_append.1 hbyte with hbyte | hbyte
            · exact hfree byte hbyte
            · rw [List.mem_singleton.1 hbyte]
              decide
          have hsplit : line ++ 13 :: 10 :: joinLines (next :: rest) =
              (line ++ [13]) ++ 10 :: joinLines (next :: rest) := by simp
          rw [join_cons, hsplit, getlines_append hcr, ih hrest]
          rfl

theorem carried_mem {line : Bytes} (h : line ∈ carried lines) :
    ∃ written ∈ lines, ∃ after, (after = [] ∨ after = [13]) ∧ line = written ++ after := by
  induction lines with
  | nil => cases h
  | cons first rest ih =>
      cases rest with
      | nil =>
          rw [List.mem_singleton.1 h]
          exact ⟨first, List.mem_cons_self, [], .inl rfl, (List.append_nil _).symm⟩
      | cons next rest =>
          rcases List.mem_cons.1 h with rfl | h
          · exact ⟨first, List.mem_cons_self, [13], .inr rfl, rfl⟩
          · obtain ⟨written, hwritten, hafter⟩ := ih h
            exact ⟨written, List.mem_cons_of_mem _ hwritten, hafter⟩

/-- The header lines are read as they were written. -/
theorem carried_headers (hheaders : ∀ header ∈ headers, WellFormedHeader header) :
    (carried (headers.map headerLine)).map headerOfLine = headers.map fun header =>
      some (lowered header) := by
  induction headers with
  | nil => rfl
  | cons header rest ih =>
      obtain ⟨hheader, hrest⟩ := List.forall_mem_cons.1 hheaders
      cases rest with
      | nil =>
          have hread := header_of_line hheader [] (by simp)
          rw [List.append_nil] at hread
          simp [carried, hread]
      | cons next rest =>
          have hread := header_of_line hheader [13] (forall_byte (by decide))
          show headerOfLine (headerLine header ++ [13]) ::
            (carried ((next :: rest).map headerLine)).map headerOfLine = _
          rw [hread, ih hrest]
          rfl

/-- The lines of a text after its start line. -/
theorem header_lines_join (hstart : start ≠ [] ∧ OneLine start)
    (hlines : ∀ line ∈ lines, line ≠ [] ∧ OneLine line) :
    headerLines (joinLines (start :: lines)) = carried lines := by
  have htail : (carried (start :: lines)).tail = carried lines := by
    cases lines <;> rfl
  unfold headerLines
  rw [getlines_join (List.forall_mem_cons.2 ⟨hstart, hlines⟩), htail, List.takeWhile_eq_self_iff]
  intro line hline
  obtain ⟨written, hwritten, after, hafter, rfl⟩ := carried_mem hline
  obtain ⟨hne, hone⟩ := hlines written hwritten
  obtain ⟨first, rest, rfl⟩ := List.exists_cons_of_ne_nil hne
  have hfirst := (hone first List.mem_cons_self).2
  simp [hfirst]

/-- The method of a request is its first word. -/
theorem request_method_join {method rest : Bytes} (hne : method ≠ [])
    (hmethod : ∀ byte ∈ method, isspace byte = false) (hstart : OneLine (method ++ 32 :: rest))
    (hlines : ∀ line ∈ lines, line ≠ [] ∧ OneLine line) :
    requestMethod (joinLines ((method ++ 32 :: rest) :: lines)) = method := by
  have hword : ∀ after, (word (method ++ 32 :: rest ++ after)).1 = method := by
    intro after
    obtain ⟨first, tail, rfl⟩ := List.exists_cons_of_ne_nil hne
    have hfirst := hmethod first List.mem_cons_self
    have hsplit : first :: tail ++ 32 :: rest ++ after =
        first :: tail ++ 32 :: (rest ++ after) := by
      simp
    have htrimmed : (first :: tail ++ 32 :: (rest ++ after)).dropWhile isspace =
        first :: tail ++ 32 :: (rest ++ after) := by
      rw [List.cons_append, List.dropWhile_cons, hfirst]
      rfl
    rw [hsplit, word, htrimmed, List.span_eq_takeWhile_dropWhile]
    refine takeWhile_block (fun byte hbyte => by simp [hmethod byte hbyte]) fun byte hbyte => ?_
    cases hbyte
    rfl
  unfold requestMethod
  rw [getlines_join (List.forall_mem_cons.2 ⟨⟨by simp, hstart⟩, hlines⟩)]
  cases lines with
  | nil =>
      have hlast := hword []
      rw [List.append_nil] at hlast
      exact hlast
  | cons line lines => exact hword [13]

/-- Header lines with distinct names give each its value. -/
theorem last_value_headers {entries : List (Bytes × Bytes)} {name value : Bytes}
    (h : lines.map headerOfLine = entries.map some) (hdistinct : (entries.map Prod.fst).Nodup) :
    lastValue name lines = some value ↔ (name, value) ∈ entries := by
  have hfold : lines.foldl (fun headers line => storeHeader headers (headerOfLine line)) ∅ =
      entries.foldl (fun headers header => headers.insert header.1 header.2) ∅ := by
    rw [← List.foldl_map (f := headerOfLine) (g := storeHeader), h, List.foldl_map]
    rfl
  rw [← read_headers, hfold, OrderedMap.get_foldl_insert hdistinct]
  simp

/-- No header line ends in its colon. -/
theorem colons_inside_join (hstart : start ≠ [] ∧ OneLine start)
    (hheaders : ∀ header ∈ headers, WellFormedHeader header) :
    ColonsInside (joinLines (start :: headers.map headerLine)) := by
  intro line hline hcolon
  rw [header_lines_join hstart (header_lines_one hheaders)] at hline
  obtain ⟨written, hwritten, after, -, rfl⟩ := carried_mem hline
  obtain ⟨header, hheader, rfl⟩ := List.mem_map.1 hwritten
  rw [find_colon (hheaders header hheader).name, Option.some.injEq] at hcolon
  have hspace : (ascii ": ").length = 2 := rfl
  simp only [headerLine, List.length_append] at hcolon
  omega

/-! ## The parser of the Qt client -/

/-- A field up to its delimiter. -/
theorem getfields_append {delimiter : UInt8} {field rest : Bytes}
    (h : ∀ byte ∈ field, byte ≠ delimiter) :
    getfields delimiter (field ++ delimiter :: rest) = field :: getfields delimiter rest := by
  induction field with
  | nil => rw [List.nil_append, getfields, if_pos rfl]
  | cons byte field ih =>
      obtain ⟨hbyte, hfield⟩ := List.forall_mem_cons.1 h
      rw [List.cons_append, getfields, if_neg hbyte, ih hfield]

/-- The last field. -/
theorem getfields_last {delimiter : UInt8} {field : Bytes} (hne : field ≠ [])
    (h : ∀ byte ∈ field, byte ≠ delimiter) : getfields delimiter field = [field] := by
  induction field with
  | nil => exact absurd rfl hne
  | cons byte field ih =>
      obtain ⟨hbyte, hfield⟩ := List.forall_mem_cons.1 h
      rw [getfields, if_neg hbyte]
      cases field with
      | nil => rfl
      | cons next field => rw [ih (by simp) hfield]

/-- The end of a line becomes a LF. -/
theorem normalize_append {line : Bytes} (h : ∀ byte ∈ line, byte ≠ 13) (rest : Bytes) :
    normalizeLines (line ++ 13 :: 10 :: rest) = line ++ 10 :: normalizeLines rest ∧
      normalizeLines line = line := by
  induction line with
  | nil => exact ⟨by rw [List.nil_append, normalizeLines, List.nil_append], rfl⟩
  | cons byte line ih =>
      obtain ⟨hbyte, hline⟩ := List.forall_mem_cons.1 h
      obtain ⟨hended, hlast⟩ := ih hline
      have hkeep : ∀ text, normalizeLines (byte :: text) = byte :: normalizeLines text :=
        fun text => normalizeLines.eq_3 byte text fun _ heq => absurd heq hbyte
      rw [List.cons_append, List.cons_append, hkeep, hended, hkeep, hlast]
      exact ⟨rfl, rfl⟩

/-- The lines of a text are split as they were written. -/
theorem split_lines (hlines : ∀ line ∈ lines, line ≠ [] ∧ OneLine line) :
    splitParts 10 (normalizeLines (joinLines lines)) = lines := by
  unfold splitParts
  induction lines with
  | nil => rfl
  | cons line rest ih =>
      obtain ⟨⟨hne, hline⟩, hrest⟩ := List.forall_mem_cons.1 hlines
      have hfree : ∀ byte ∈ line, byte ≠ 10 := fun byte hbyte => (hline byte hbyte).1
      have hcr : ∀ byte ∈ line, byte ≠ 13 := fun byte hbyte => (hline byte hbyte).2
      cases rest with
      | nil =>
          rw [join_singleton, (normalize_append hcr []).2, getfields_last hne hfree]
          simp [hne]
      | cons next rest =>
          rw [join_cons, (normalize_append hcr _).1, getfields_append hfree, List.filter_cons,
            if_pos (by simpa using hne), ih hrest]

theorem header_line_trimmed (h : WellFormedHeader header) : Trimmed (headerLine header) where
  nonempty := (header_line_one h).1
  first byte hbyte := by
    unfold headerLine at hbyte
    rw [List.append_assoc, List.head?_append_of_ne_nil _ h.name_ne] at hbyte
    exact (h.name byte (List.mem_of_mem_head? hbyte)).1
  last byte hbyte := by
    unfold headerLine at hbyte
    rw [List.getLast?_append_of_ne_nil _ h.value.nonempty] at hbyte
    exact h.value.last byte hbyte

/-- The Qt client stores the value under the name. -/
theorem respond_header_line (h : WellFormedHeader header) (headers : Headers) :
    respondHeader headers (headerLine header) = headers.insert header.1 header.2 := by
  have hline := trim_padded [] [] (header_line_trimmed h) (fun _ hbyte => hbyte) (by simp) (by simp)
  rw [List.nil_append, List.append_nil] at hline
  have hcolon := find_colon h.name []
  obtain ⟨hname, hvalue, -⟩ := header_line_parts header []
  rw [List.append_nil] at hcolon hname hvalue
  have hkey := trim_padded [] []
    (Trimmed.of_visible h.name_ne fun byte hbyte => (h.name byte hbyte).1)
    (fun _ hbyte => hbyte) (by simp) (by simp)
  have htext := trim_padded [32] [] h.value (fun _ hbyte => hbyte) (forall_byte (by decide))
    (by simp)
  unfold respondHeader
  simp only [hline, hcolon]
  rw [if_pos (List.length_pos_iff.2 h.name_ne), hname, hvalue]
  rw [List.nil_append, List.append_nil] at hkey
  rw [hkey, show (32 :: (header.2 ++ []) : Bytes) = [32] ++ header.2 ++ [] by simp, htext]

/-! ## Whole texts -/

theorem request_text_eq (hne : lines ≠ []) : requestText lines = joinLines lines ++ CRLFCRLF := by
  unfold requestText
  rw [show CRLF = [13, 10] from rfl, join_ended hne, List.append_assoc]
  rfl

/-- The server takes a whole request from an empty buffer. -/
theorem take_request_text (hne : lines ≠ []) (hlines : ∀ line ∈ lines, line ≠ [] ∧ OneLine line) :
    takeRequest [] (requestText lines) = (joinLines lines, []) := by
  have hwhole : [] ++ requestText lines = joinLines lines ++ CRLFCRLF ++ [] := by
    rw [List.nil_append, List.append_nil, request_text_eq hne]
  exact take_request_delimited (delimited_lines hne hlines) hwhole

/-- The Qt client takes a whole message from an empty buffer. -/
theorem take_respond_text (hne : lines ≠ []) (hlines : ∀ line ∈ lines, line ≠ [] ∧ OneLine line) :
    takeRespond [] (requestText lines) = (joinLines lines, []) := by
  have hwhole : [] ++ requestText lines = joinLines lines ++ CRLFCRLF ++ [] := by
    rw [List.nil_append, List.append_nil, request_text_eq hne]
  exact take_respond_delimited (delimited_lines hne hlines) hwhole

/-- A request of a start line and header lines, as the server reads it. -/
theorem server_reads {method rest : Bytes} (hne : method ≠ [])
    (hmethod : ∀ byte ∈ method, isspace byte = false) (hstart : OneLine (method ++ 32 :: rest))
    (hheaders : ∀ header ∈ headers, WellFormedHeader header)
    (hdistinct : (headers.map fun header => (lowered header).1).Nodup) :
    ∃ parsed, takeRequest [] (requestText ((method ++ 32 :: rest) :: headers.map headerLine)) =
        (joinLines ((method ++ 32 :: rest) :: headers.map headerLine), []) ∧
      parseRequest (joinLines ((method ++ 32 :: rest) :: headers.map headerLine)) = .ok parsed ∧
      parsed.method = method ∧
      ∀ name value, parsed.headers[name]? = some value ↔ (name, value) ∈ headers.map lowered := by
  have hlines := header_lines_one hheaders
  have hfirst : method ++ 32 :: rest ≠ [] ∧ OneLine (method ++ 32 :: rest) := ⟨by simp, hstart⟩
  obtain ⟨parsed, hparsed⟩ := (parse_ok_iff _).2 (colons_inside_join hfirst hheaders)
  obtain ⟨-, hname, hvalues⟩ := parse_ok hparsed
  refine ⟨parsed, take_request_text (by simp) (List.forall_mem_cons.2 ⟨hfirst, hlines⟩), hparsed,
    hname.trans (request_method_join hne hmethod hstart hlines), fun name value => ?_⟩
  rw [hvalues, headerValue, header_lines_join hfirst hlines]
  refine last_value_headers ?_ (by rwa [List.map_map])
  rw [carried_headers hheaders, List.map_map]
  rfl

/-- A message of a start line and header lines, as the Qt client reads it. -/
theorem client_reads {first second : Bytes} {rest : List Bytes}
    (hstart : start ≠ [] ∧ OneLine start)
    (hparts : splitParts 32 (trim isspace start) = first :: second :: rest)
    (hheaders : ∀ header ∈ headers, WellFormedHeader header) :
    takeRespond [] (requestText (start :: headers.map headerLine)) =
        (joinLines (start :: headers.map headerLine), []) ∧
      parseRespond (joinLines (start :: headers.map headerLine)) =
        ⟨first, second, headers.foldl (fun map header => map.insert header.1 header.2) ∅⟩ := by
  have hlines : ∀ line ∈ start :: headers.map headerLine, line ≠ [] ∧ OneLine line :=
    List.forall_mem_cons.2 ⟨hstart, header_lines_one hheaders⟩
  refine ⟨take_respond_text (by simp) hlines, ?_⟩
  have hfold : ∀ map : Headers, (headers.map headerLine).foldl respondHeader map =
      headers.foldl (fun map header => map.insert header.1 header.2) map := by
    intro map
    clear hlines
    induction headers generalizing map with
    | nil => rfl
    | cons header headers ih =>
        obtain ⟨hheader, hheaders⟩ := List.forall_mem_cons.1 hheaders
        rw [List.map_cons, List.foldl_cons, List.foldl_cons, respond_header_line hheader,
          ih hheaders]
  unfold parseRespond
  rw [split_lines hlines]
  simp only [hparts, hfold]

end Lines

end CarDetect.Monitor
