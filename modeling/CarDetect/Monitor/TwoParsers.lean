import CarDetect.Lib.Lines
import CarDetect.Media.HeaderFields

/-!
# The two request parsers

`MonitorServer` and `RtspConnect` have a `parseRequest` each. The one takes a header's value from
the second character after the colon, the other from the first, and both remove blanks around it.
`parsers_agree_iff` says for which requests they find the same.
-/

namespace CarDetect.Monitor

open BigEndian ByteString Reactor LastEntry
open Media (fieldOfLine isBlank)

/-- Neither parser raises an exception, and they find the same method, URL and header map. The
parser of `RtspConnect` is a total function. -/
def ParsersAgree (request : Bytes) : Prop :=
  ∃ parsed, parseRequest request = .ok parsed ∧
    parsed.method = (Media.parseRequest request).method ∧
    parsed.url = (Media.parseRequest request).url ∧
    ∀ name : Bytes, parsed.headers[name]? = (Media.parseRequest request).headers name

/-- The character behind the first colon of a text is a blank. -/
def BlankAfterColon (text : Bytes) : Prop :=
  ∀ colonPos, find (ascii ":") text = some colonPos →
    ∀ byte ∈ text[colonPos + 1]?, isBlank byte = true

/-- No header line ends in its first colon, and of the lines with one name the last has a blank
behind its colon. -/
structure ColonsSpaced (request : Bytes) : Prop where
  inside : ColonsInside request
  blank : ∀ before line after, headerLines request = before ++ line :: after →
    (∀ later ∈ after, nameOf fieldOfLine later ≠ nameOf fieldOfLine line) → BlankAfterColon line

section Lines

variable {line request : Bytes} {parsed : ParsedRequest}

/-- Both parsers find the same names. -/
theorem name_of_header (line : Bytes) : nameOf headerOfLine line = nameOf fieldOfLine line := by
  simp only [nameOf, headerOfLine, fieldOfLine, Option.map_map]
  rfl

/-- Of one line with a colon they find the same value exactly when the character behind the colon
is a blank. -/
theorem header_eq_field {field : Bytes × Bytes} (h : fieldOfLine line = some field) :
    headerOfLine line = some field ↔ BlankAfterColon line := by
  obtain ⟨colonPos, hcolon, rfl⟩ := Option.map_eq_some_iff.1 h
  unfold BlankAfterColon headerOfLine
  simp only [hcolon, Option.map_some, Option.some.injEq, Prod.mk.injEq, true_and, forall_eq']
  by_cases hinside : colonPos + 1 < line.length
  · rw [List.drop_eq_getElem_cons hinside, eq_comm, trim_cons_iff]
    simp [hinside]
  · rw [List.drop_eq_nil_of_le (by omega), List.drop_eq_nil_of_le (by omega)]
    simp [hinside]

/-- The method and the URL are read in the same way. -/
theorem parse_start (h : parseRequest request = .ok parsed) :
    parsed.method = (Media.parseRequest request).method ∧
      parsed.url = (Media.parseRequest request).url := by
  unfold parseRequest at h
  unfold Media.parseRequest
  cases hlines : getlines request with
  | nil =>
      rw [hlines] at h
      cases h
      exact ⟨rfl, rfl⟩
  | cons line rest =>
      simp only [hlines] at h
      cases hrest : parseHeaders ∅ rest with
      | error fault =>
          rw [hrest] at h
          cases h
      | ok headers =>
          rw [hrest] at h
          cases h
          exact ⟨rfl, rfl⟩

/-- The header maps are the same when the parsers agree on the last line with each name. -/
theorem maps_agree_iff (h : parseRequest request = .ok parsed) :
    (∀ name : Bytes, parsed.headers[name]? = (Media.parseRequest request).headers name) ↔
      ∀ before line after, headerLines request = before ++ line :: after →
        (∀ later ∈ after, nameOf fieldOfLine later ≠ nameOf fieldOfLine line) →
        BlankAfterColon line := by
  obtain ⟨-, -, hvalues⟩ := parse_ok h
  simp only [hvalues, headerValue, last_value_eq, Media.parse_request_headers]
  rw [agree_iff name_of_header]
  constructor
  · intro hagree before line after hlines hafter
    cases hfield : fieldOfLine line with
    | none =>
        intro colonPos hcolon
        simp [fieldOfLine, hcolon] at hfield
    | some field =>
        rw [nameOf, hfield] at hafter
        exact (header_eq_field hfield).1
          (hagree before line after field.1 field.2 hlines hfield hafter)
  · intro hblank before line after name value hlines hfield hafter
    refine (header_eq_field hfield).2 (hblank before line after hlines ?_)
    rw [nameOf, hfield]
    exact hafter

end Lines

/-- The two parsers agree on the requests in which no header line ends in its first colon and the
last line with each name has a blank behind it, and on no others. -/
theorem parsers_agree_iff (request : Bytes) : ParsersAgree request ↔ ColonsSpaced request := by
  constructor
  · rintro ⟨parsed, hparsed, -, -, hmaps⟩
    exact ⟨(parse_ok hparsed).1, (maps_agree_iff hparsed).1 hmaps⟩
  · rintro ⟨hinside, hblank⟩
    obtain ⟨parsed, hparsed⟩ := (parse_ok_iff request).2 hinside
    obtain ⟨hmethod, hurl⟩ := parse_start hparsed
    exact ⟨parsed, hparsed, hmethod, hurl, (maps_agree_iff hparsed).2 hblank⟩

/-- A header line without a space behind its colon loses the first character of its value. -/
theorem parsers_agree_fails_unspaced : ¬ ∀ request : Bytes, ParsersAgree request := by
  intro h
  obtain ⟨parsed, hparsed, -, -, hmaps⟩ := h (ascii "SETUP cam\r\nCSeq:12\r\n\r\n")
  have hblank := (maps_agree_iff hparsed).1 hmaps [] (ascii "CSeq:12\r") [] (by decide) (by simp) 4
    (by decide) 49 (by decide)
  exact absurd hblank (by decide)

end CarDetect.Monitor
