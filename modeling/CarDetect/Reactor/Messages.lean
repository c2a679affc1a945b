import CarDetect.Camera.Rtp
import CarDetect.Reactor.TcpConnection

/-!
# What a peer sends over a TCP connection

RTSP requests and interleaved frames, with what makes them well formed, and what the extractors of
`TcpConnection` see of one. `content_length_header` says that the line loop finds the length of a
request's body, and `find_header_end` and `find_header_short` say where the first empty line of
a buffer is that starts with a request, complete or not.
-/

namespace CarDetect.Reactor

open BigEndian ByteString Camera

/-- An RTSP request: the lines of its header block and its body. -/
structure RtspRequest where
  lines : List Bytes
  body : Bytes
deriving DecidableEq, Repr

/-- Each line is ended by CRLF. -/
def endLines (lines : List Bytes) : Bytes :=
  (lines.map fun line => line ++ CRLF).flatten

/-- The header block with the empty line that ends it. -/
def RtspRequest.header (request : RtspRequest) : Bytes :=
  endLines request.lines ++ CRLF

/-- The bytes sent. -/
def RtspRequest.bytes (request : RtspRequest) : Bytes :=
  request.header ++ request.body

/-- A line that begins, after optional white space and in any letter case, with
`Content-Length:`. -/
def IsContentLength (line : Bytes) : Prop :=
  iequalsPrefix (line.dropWhile isspace) contentLengthKey = true

instance (line : Bytes) : Decidable (IsContentLength line) :=
  inferInstanceAs (Decidable (_ = true))

/-- The line is a `Content-Length` header with this decimal value. -/
def AnnouncesLength (line : Bytes) (value : Nat) : Prop :=
  ∃ blanks name spaces digits rest,
    line = blanks ++ name ++ spaces ++ digits ++ rest ∧
    (∀ byte ∈ blanks, isspace byte) ∧ (∀ byte ∈ spaces, isspace byte) ∧
    name.map tolower = contentLengthKey ∧
    digits ≠ [] ∧ (∀ byte ∈ digits, isdigit byte) ∧ (∀ byte ∈ rest.head?, isdigit byte = false) ∧
    decimal digits = value

/-- A well-formed request: no line contains CRLF, the only empty line is the one that ends the
header block, and the body has the length that the one `Content-Length` line announces, or is
empty when there is no such line. A request does not begin with `'$'`, and it fits a string. -/
structure RtspRequest.WellFormed (request : RtspRequest) : Prop where
  lines_ne : request.lines ≠ []
  line_free : ∀ line ∈ request.lines, find CRLF line = none
  header_end : find CRLFCRLF request.header = some (request.header.length - 4)
  length :
    (∀ line ∈ request.lines, ¬ IsContentLength line) ∧ request.body = [] ∨
    ∃ before line after, request.lines = before ++ line :: after ∧
      (∀ other ∈ before ++ after, ¬ IsContentLength other) ∧
      AnnouncesLength line request.body.length
  not_dollar : request.bytes.head? ≠ some 0x24
  fits : request.bytes.length ≤ maxSize

/-- What the extractor needs of a request to find its end: all of the above but the conditions on
its first byte and on the number of its lines. -/
structure RtspRequest.Delimits (request : RtspRequest) : Prop where
  line_free : ∀ line ∈ request.lines, find CRLF line = none
  header_end : find CRLFCRLF request.header = some (request.header.length - 4)
  length :
    (∀ line ∈ request.lines, ¬ IsContentLength line) ∧ request.body = [] ∨
    ∃ before line after, request.lines = before ++ line :: after ∧
      (∀ other ∈ before ++ after, ¬ IsContentLength other) ∧
      AnnouncesLength line request.body.length
  fits : request.bytes.length ≤ maxSize

theorem RtspRequest.WellFormed.delimits {request : RtspRequest} (h : request.WellFormed) :
    request.Delimits :=
  ⟨h.line_free, h.header_end, h.length, h.fits⟩

/-! ## The announced length -/

theorem contentLengthKey_head {name : Bytes} (h : name.map tolower = contentLengthKey) :
    ∃ first rest, name = first :: rest ∧ isspace first = false := by
  cases name with
  | nil => cases h
  | cons first rest =>
      refine ⟨first, rest, rfl, ?_⟩
      have hfirst : tolower first = 99 := (List.cons.inj h).1
      clear h
      obtain ⟨bits⟩ := first
      revert bits
      decide

/-- A `Content-Length` line is recognised and its value is read. -/
theorem announces_length {line : Bytes} {value : Nat} (h : AnnouncesLength line value)
    (hvalue : value < 2 ^ 64) :
    IsContentLength line ∧ contentLengthValue (line.dropWhile isspace) = value := by
  obtain ⟨blanks, name, spaces, digits, rest, rfl, hblanks, hspaces, hname, hne, hdigits, hrest,
    rfl⟩ := h
  have hlength : name.length = contentLengthKey.length := by
    rw [← hname, List.length_map]
  have hkey : contentLengthKey.map tolower = contentLengthKey := by decide
  have hltrim : (blanks ++ name ++ spaces ++ digits ++ rest).dropWhile isspace =
      name ++ (spaces ++ (digits ++ rest)) := by
    obtain ⟨first, tail, rfl, hfirst⟩ := contentLengthKey_head hname
    simp only [List.append_assoc]
    refine dropWhile_block hblanks fun byte hbyte => ?_
    cases hbyte
    exact hfirst
  have hdigitsHead : ∀ byte ∈ (digits ++ rest).head?, isspace byte = false := by
    cases digits with
    | nil => exact absurd rfl hne
    | cons first tail =>
        intro byte hbyte
        cases hbyte
        exact not_isspace_of_isdigit (hdigits first List.mem_cons_self)
  rw [hltrim]
  constructor
  · show iequalsPrefix _ _ = true
    rw [hltrim, iequalsPrefix, ← hlength, List.take_left, hname, hkey]
    simp
  · rw [contentLengthValue, ← hlength, List.drop_left, dropWhile_block hspaces hdigitsHead,
      takeWhile_block hdigits hrest, if_neg hne, stoul_digits hne hdigits hvalue]

/-- One turn of the line loop. -/
theorem content_length_line {line rest : Bytes} (hfree : find CRLF line = none) :
    contentLength (line ++ CRLF ++ rest) =
      if IsContentLength line then contentLengthValue (line.dropWhile isspace)
      else contentLength rest := by
  have hne : line ++ CRLF ++ rest ≠ [] := by
    simp [CRLF]
  have heol : find CRLF (line ++ CRLF ++ rest) = some line.length := by
    have hpair : find [13, 10] (line ++ 13 :: 10 :: rest) = some line.length :=
      find_pair_append (by decide) hfree
    simpa [CRLF] using hpair
  have hline : (line ++ CRLF ++ rest).take line.length = line := by
    rw [List.append_assoc, List.take_left]
  have hrest : (line ++ CRLF ++ rest).drop (line.length + 2) = rest := by
    rw [show line.length + 2 = (line ++ CRLF).length by simp [CRLF], List.drop_left]
  rw [contentLength, if_neg hne, heol]
  simp only [Option.getD_some, hline, hrest]
  rfl

@[simp] theorem endLines_cons (line : Bytes) (rest : List Bytes) :
    endLines (line :: rest) = line ++ CRLF ++ endLines rest := rfl

/-- Without a `Content-Length` line the loop ends with 0. -/
theorem content_length_none {lines : List Bytes} (hfree : ∀ line ∈ lines, find CRLF line = none)
    (hnone : ∀ line ∈ lines, ¬ IsContentLength line) :
    contentLength (endLines lines ++ CRLF) = 0 := by
  induction lines with
  | nil =>
      have hplain : ¬ IsContentLength [] := by decide
      have hend : endLines [] ++ CRLF = [] ++ CRLF ++ [] := rfl
      rw [hend, content_length_line rfl, if_neg hplain, contentLength, if_pos rfl]
  | cons line rest ih =>
      obtain ⟨hline, hrest⟩ := List.forall_mem_cons.1 hfree
      obtain ⟨hplain, hothers⟩ := List.forall_mem_cons.1 hnone
      rw [endLines_cons, List.append_assoc, content_length_line hline, if_neg hplain]
      exact ih hrest hothers

/-- The loop stops at the first `Content-Length` line. -/
theorem content_length_some {before after : List Bytes} {line : Bytes} {value : Nat}
    (hfree : ∀ other ∈ before ++ line :: after, find CRLF other = none)
    (hbefore : ∀ other ∈ before, ¬ IsContentLength other)
    (hline : AnnouncesLength line value) (hvalue : value < 2 ^ 64) :
    contentLength (endLines (before ++ line :: after) ++ CRLF) = value := by
  obtain ⟨hrecognised, hread⟩ := announces_length hline hvalue
  induction before with
  | nil =>
      have hlineFree := hfree line List.mem_cons_self
      rw [List.nil_append, endLines_cons, List.append_assoc, content_length_line hlineFree,
        if_pos hrecognised, hread]
  | cons other before ih =>
      obtain ⟨hother, hrest⟩ := List.forall_mem_cons.1 hfree
      obtain ⟨hplain, hothers⟩ := List.forall_mem_cons.1 hbefore
      rw [List.cons_append, endLines_cons, List.append_assoc, content_length_line hother,
        if_neg hplain]
      exact ih hrest hothers

/-- The line loop finds the length of a well-formed request's body. -/
theorem content_length_header {request : RtspRequest} (h : request.Delimits) :
    contentLength request.header = request.body.length := by
  have hfits := h.fits
  rw [RtspRequest.bytes, List.length_append, maxSize] at hfits
  rcases h.length with ⟨hnone, hbody⟩ | ⟨before, line, after, hlines, hothers, hline⟩
  · rw [hbody]
    exact content_length_none h.line_free hnone
  · have hfree := h.line_free
    rw [RtspRequest.header, hlines]
    rw [hlines] at hfree
    exact content_length_some hfree
      (fun other hother => hothers other (List.mem_append_left _ hother)) hline (by omega)

/-! ## The header block in a buffer -/

theorem header_length_ge {request : RtspRequest} (h : request.Delimits) :
    4 ≤ request.header.length := by
  have hoccurrence := (find_eq_some_iff (by decide)).1 h.header_end
  have hle := hoccurrence.1.length_le
  rw [List.length_drop] at hle
  simp only [CRLFCRLF, List.length_cons, List.length_nil] at hle
  omega

/-- In a buffer that begins with the header block of a request, that block's end is the first
empty line. -/
theorem find_header_end {request : RtspRequest} (h : request.Delimits) (rest : Bytes) :
    find CRLFCRLF (request.header ++ rest) = some (request.header.length - 4) :=
  find_append (by decide) h.header_end rest

/-- A buffer that is shorter than the header block has no empty line. -/
theorem find_header_short {request : RtspRequest} (h : request.Delimits) {buffer : Bytes}
    (hleading : buffer <+: request.header) (hshort : buffer.length < request.header.length) :
    find CRLFCRLF buffer = none := by
  have hge := header_length_ge h
  have hfour : CRLFCRLF.length = 4 := rfl
  exact find_cut (by decide) hleading h.header_end (by omega)

end CarDetect.Reactor
