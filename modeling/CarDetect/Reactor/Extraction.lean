import CarDetect.Reactor.Messages

/-!
# What one extraction takes from the buffer

A request is a header block up to its empty line and as many bytes as its first `Content-Length`
line announces. `extracts_first_iff` says for which buffers `tryExtractRtsp` stays inside the buffer
and takes such a request from its front, when it takes anything.
-/

namespace CarDetect.Reactor

open BigEndian ByteString

/-! ## The announced length, without bounds -/

/-- The lines of a text, each ended by CRLF or by the end of the text. -/
def crlfLines : Bytes → List Bytes
  | [] => []
  | [byte] => [[byte]]
  | first :: second :: rest =>
      if first = 13 ∧ second = 10 then [] :: crlfLines rest
      else
        match crlfLines (second :: rest) with
        | [] => [[first]]
        | line :: lines => (first :: line) :: lines

/-- The digits behind `content-length:` and white space, in a line that begins with it. -/
def lengthDigits (line : Bytes) : Bytes :=
  (((line.dropWhile isspace).drop contentLengthKey.length).dropWhile isspace).takeWhile isdigit

/-- The number that the first `Content-Length` line of a header block writes in digits, however
large; 0 when there is no such line or no digit in it. -/
def announced (header : Bytes) : Nat :=
  match (crlfLines header).find? fun line => IsContentLength line with
  | none => 0
  | some line => decimal (lengthDigits line)

/-- A header block up to its empty line, and the body that it announces. -/
def IsRequest (req : Bytes) : Prop :=
  ∃ header body, req = header ++ body ∧ find CRLFCRLF header = some (header.length - 4) ∧
    body.length = announced header

/-- The numbers that the extraction computes: no difference of positions is negative, no sum
reaches the range of `size_t`, and a copy begins and ends in the buffer. -/
def ComputesInside (buffer : Bytes) : Prop :=
  ∀ headerEnd, find CRLFCRLF buffer = some headerEnd →
    match rfind TEARDOWN buffer with
    | some tpos => tpos ≤ headerEnd ∧ tpos + (headerEnd - tpos + 4) ≤ buffer.length
    | none => headerEnd + 4 + contentLength (buffer.take (headerEnd + 4)) < sizeRange

/-- What an extraction should do: compute inside the buffer, and when it returns true, return the
nonempty request at the front of the buffer and leave the bytes after it. When it returns false
the buffer is as it was. -/
structure ExtractsFirst (buffer : Bytes) : Prop where
  inside : ComputesInside buffer
  returns : ∃ result, tryExtractRtsp buffer = .ok result
  first : ∀ req rest, tryExtractRtsp buffer = .ok (some (req, rest)) →
    req ≠ [] ∧ IsRequest req ∧ buffer = req ++ rest

/-- The buffers for which it does: those without an empty line; those without the text `TEARDOWN`
whose header block announces a length that can be added to its own; and those that are one header
block announcing no body, with the text `TEARDOWN` at its beginning and nowhere else. -/
def Extractable (buffer : Bytes) : Prop :=
  ∀ headerEnd, find CRLFCRLF buffer = some headerEnd →
    ¬ TEARDOWN <:+: buffer ∧
        headerEnd + 4 + announced (buffer.take (headerEnd + 4)) < sizeRange ∨
      rfind TEARDOWN buffer = some 0 ∧ buffer.length = headerEnd + 4 ∧ announced buffer = 0

section Announced

variable {line rest : Bytes}

/-- A text without CRLF does not begin with it, and has none behind its first byte. -/
theorem crlf_free_cons {byte : UInt8} (hfree : find CRLF (byte :: line) = none) :
    ¬ CRLF <+: byte :: line ∧ find CRLF line = none := by
  have hhead : ¬ CRLF.isPrefixOf (byte :: line) = true := by
    intro hleading
    rw [find, if_pos hleading] at hfree
    cases hfree
  rw [find, if_neg hhead, Option.map_eq_none_iff] at hfree
  exact ⟨fun hleading => hhead (List.isPrefixOf_iff_prefix.2 hleading), hfree⟩

/-- Two bytes other than CR and LF do not end a line. -/
theorem crlf_lines_step {first second : UInt8} (h : ¬ (first = 13 ∧ second = 10))
    {lines : List Bytes} (hlines : crlfLines (second :: rest) = line :: lines) :
    crlfLines (first :: second :: rest) = (first :: line) :: lines := by
  rw [crlfLines, if_neg h, hlines]

theorem crlf_lines_cons (hfree : find CRLF line = none) :
    crlfLines (line ++ CRLF ++ rest) = line :: crlfLines rest := by
  induction line with
  | nil => rfl
  | cons byte line ih =>
      obtain ⟨hhead, hfree⟩ := crlf_free_cons hfree
      have hlines := ih hfree
      cases line with
      | nil =>
          refine crlf_lines_step ?_ hlines
          rintro ⟨-, hlf⟩
          cases hlf
      | cons next line =>
          refine crlf_lines_step ?_ hlines
          rintro ⟨rfl, rfl⟩
          exact hhead ⟨line, rfl⟩

theorem crlf_lines_last (hne : line ≠ []) (hfree : find CRLF line = none) :
    crlfLines line = [line] := by
  induction line with
  | nil => exact absurd rfl hne
  | cons byte line ih =>
      obtain ⟨hhead, hfree⟩ := crlf_free_cons hfree
      cases line with
      | nil => rfl
      | cons next line =>
          refine crlf_lines_step ?_ (ih (by simp) hfree)
          rintro ⟨rfl, rfl⟩
          exact hhead ⟨line, rfl⟩

/-- A text is one line without CRLF, or begins with one that CRLF ends. -/
theorem crlf_cases (text : Bytes) :
    find CRLF text = none ∨ ∃ line rest, find CRLF line = none ∧ text = line ++ CRLF ++ rest := by
  have hne : CRLF ≠ [] := by decide
  cases heol : find CRLF text with
  | none => exact .inl rfl
  | some eol =>
      obtain ⟨⟨rest, hrest⟩, hfirst⟩ := (find_eq_some_iff hne).1 heol
      refine .inr ⟨text.take eol, rest, ?_, ?_⟩
      · refine (find_eq_none_iff hne).2 fun position hposition => ?_
        have hinside := occurrence_le hposition hne
        rw [List.length_take] at hinside
        have hbefore : position < eol := by
          have htwo : CRLF.length = 2 := rfl
          omega
        exact hfirst position hbefore (hposition.trans ((List.take_prefix eol text).drop position))
      · rw [List.append_assoc, hrest, List.take_append_drop]

/-- The turn of the line loop for a line that no CRLF ends. -/
theorem content_length_last (hne : line ≠ []) (hfree : find CRLF line = none) :
    contentLength line =
      if IsContentLength line then contentLengthValue (line.dropWhile isspace) else 0 := by
  rw [contentLength, if_neg hne, hfree]
  simp only [Option.getD_none, List.take_length]
  rfl

/-- The line loop ends with the value of the first `Content-Length` line. -/
theorem content_length_lines (header : Bytes) :
    contentLength header =
      match (crlfLines header).find? fun line => IsContentLength line with
      | none => 0
      | some line => contentLengthValue (line.dropWhile isspace) := by
  induction hlength : header.length using Nat.strong_induction_on generalizing header with
  | _ length ih =>
      rcases crlf_cases header with hfree | ⟨line, rest, hfree, rfl⟩
      · by_cases hne : header = []
        · rw [contentLength, if_pos hne, hne]
          rfl
        · rw [content_length_last hne hfree, crlf_lines_last hne hfree, List.find?_cons]
          by_cases hline : IsContentLength header
          · rw [if_pos hline, decide_eq_true hline]
          · rw [if_neg hline, decide_eq_false hline]
            rfl
      · rw [content_length_line hfree, crlf_lines_cons hfree, List.find?_cons]
        by_cases hline : IsContentLength line
        · rw [if_pos hline, decide_eq_true hline]
        · rw [if_neg hline, decide_eq_false hline]
          refine ih rest.length ?_ rest rfl
          rw [← hlength]
          simp only [CRLF, List.length_append, List.length_cons, List.length_nil]
          omega

/-- The value that is read of a line is 0 when it does not fit. -/
theorem content_length_value (line : Bytes) :
    contentLengthValue (line.dropWhile isspace) =
      if decimal (lengthDigits line) < sizeRange then decimal (lengthDigits line) else 0 := by
  by_cases hempty : lengthDigits line = []
  · have hnone : contentLengthValue (line.dropWhile isspace) = 0 := if_pos hempty
    rw [hnone, hempty]
    rfl
  · have hdigits : ∀ digit ∈ lengthDigits line, isdigit digit = true := fun digit hdigit =>
      List.mem_takeWhile_imp hdigit
    have hread : stoul 64 (lengthDigits line) = _ := stoul_all_digits hempty hdigits
    have hvalue : contentLengthValue (line.dropWhile isspace) = _ := if_neg hempty
    by_cases hfits : decimal (lengthDigits line) < 2 ^ 64
    · rw [if_pos hfits, lengthDigits] at hread
      rw [hread] at hvalue
      exact hvalue.trans (if_pos hfits).symm
    · rw [if_neg hfits, lengthDigits] at hread
      rw [hread] at hvalue
      exact hvalue.trans (if_neg hfits).symm

/-- The line loop finds the announced length when it fits, and 0 otherwise. -/
theorem content_length_announced (header : Bytes) :
    contentLength header = if announced header < sizeRange then announced header else 0 := by
  rw [content_length_lines, announced]
  cases (crlfLines header).find? fun line => IsContentLength line with
  | none => rfl
  | some line => exact content_length_value line

end Announced

section Extract

variable {buffer : Bytes} {headerEnd : Nat}

/-- The header block that a buffer begins with. -/
theorem header_block (h : find CRLFCRLF buffer = some headerEnd) :
    headerEnd + 4 ≤ buffer.length ∧ (buffer.take (headerEnd + 4)).length = headerEnd + 4 ∧
      find CRLFCRLF (buffer.take (headerEnd + 4)) = some headerEnd := by
  have hne : CRLFCRLF ≠ [] := by decide
  have hle : headerEnd + 4 ≤ buffer.length :=
    occurrence_le ((find_eq_some_iff hne).1 h).1 hne
  have hlength : (buffer.take (headerEnd + 4)).length = headerEnd + 4 := by
    rw [List.length_take]
    omega
  refine ⟨hle, hlength, find_leading hne (List.take_prefix _ _) h ?_⟩
  rw [hlength]
  rfl

/-- The header block of a request at the front of the buffer is that of the buffer. -/
theorem request_front {req rest : Bytes} (h : find CRLFCRLF buffer = some headerEnd)
    (hreq : IsRequest req) (hbuffer : buffer = req ++ rest) :
    ∃ body, req = buffer.take (headerEnd + 4) ++ body ∧
      body.length = announced (buffer.take (headerEnd + 4)) := by
  have hne : CRLFCRLF ≠ [] := by decide
  obtain ⟨header, body, rfl, hheader, hbody⟩ := hreq
  have hfront := find_append hne hheader (body ++ rest)
  rw [← List.append_assoc, ← hbuffer, h] at hfront
  have hlength := occurrence_le ((find_eq_some_iff hne).1 hheader).1 hne
  have hfour : CRLFCRLF.length = 4 := rfl
  have hend : headerEnd + 4 = header.length := by
    have heq := Option.some.inj hfront
    omega
  have htake : buffer.take (headerEnd + 4) = header := by
    rw [hbuffer, hend, List.append_assoc, List.take_left]
  exact ⟨body, by rw [htake], by rw [htake, hbody]⟩

/-- Without an empty line nothing is extracted. -/
theorem extracts_no_header (h : find CRLFCRLF buffer = none) : ExtractsFirst buffer := by
  have hresult : tryExtractRtsp buffer = .ok none := by
    rw [tryExtractRtsp, h]
  refine ⟨fun headerEnd hend => ?_, ⟨none, hresult⟩, fun req rest hsome => ?_⟩
  · rw [h] at hend
    cases hend
  · rw [hresult] at hsome
    cases hsome

/-- What is extracted by length when the sum stays in the range of `size_t`. -/
theorem extract_by_length_eq {count : Nat}
    (hcount : contentLength (buffer.take (headerEnd + 4)) = count)
    (hfits : headerEnd + 4 + count < sizeRange) :
    extractByLength buffer headerEnd =
      if buffer.length < headerEnd + 4 + count then none
      else some (buffer.take (headerEnd + 4 + count), buffer.drop (headerEnd + 4 + count)) := by
  simp only [extractByLength, hcount, Nat.mod_eq_of_lt hfits]

/-- A complete request is extracted when the text `TEARDOWN` does not occur. -/
theorem extract_complete {count : Nat} (h : find CRLFCRLF buffer = some headerEnd)
    (hteardown : rfind TEARDOWN buffer = none)
    (hcount : contentLength (buffer.take (headerEnd + 4)) = count)
    (hfits : headerEnd + 4 + count < sizeRange)
    (hcomplete : headerEnd + 4 + count ≤ buffer.length) :
    tryExtractRtsp buffer = .ok (some (buffer.take (headerEnd + 4 + count),
      buffer.drop (headerEnd + 4 + count))) := by
  have hresult := extract_by_length_eq hcount hfits
  rw [if_neg (by omega)] at hresult
  rw [tryExtractRtsp, h, hteardown, ← hresult]

/-- A length that does not fit is taken as 0, and the header block alone is returned. -/
theorem extracts_large (h : find CRLFCRLF buffer = some headerEnd)
    (hteardown : rfind TEARDOWN buffer = none) (hextracts : ExtractsFirst buffer) :
    announced (buffer.take (headerEnd + 4)) < sizeRange := by
  obtain ⟨hle, hblock, -⟩ := header_block h
  have hinside := hextracts.inside headerEnd h
  rw [hteardown] at hinside
  have hcount := content_length_announced (buffer.take (headerEnd + 4))
  by_contra hlarge
  rw [if_neg hlarge] at hcount
  simp only [hcount] at hinside
  have hresult := extract_complete h hteardown hcount hinside hle
  rw [Nat.add_zero] at hresult
  obtain ⟨-, hreq, hbuffer⟩ := hextracts.first _ _ hresult
  obtain ⟨body, hwhole, hbody⟩ := request_front h hreq hbuffer
  have hlength := congrArg List.length hwhole
  rw [List.length_append] at hlength
  rw [sizeRange] at hlarge
  omega

/-- Without the text `TEARDOWN` the sum has to stay in the range of `size_t`. -/
theorem extracts_by_length (h : find CRLFCRLF buffer = some headerEnd)
    (hteardown : rfind TEARDOWN buffer = none) :
    ExtractsFirst buffer ↔
      headerEnd + 4 + announced (buffer.take (headerEnd + 4)) < sizeRange := by
  obtain ⟨hle, hblock, hfound⟩ := header_block h
  have hcount := content_length_announced (buffer.take (headerEnd + 4))
  constructor
  · intro hextracts
    have hinside := hextracts.inside headerEnd h
    rw [if_pos (extracts_large h hteardown hextracts)] at hcount
    rw [hteardown] at hinside
    simpa only [hcount] using hinside
  · intro hfits
    have hannounced : announced (buffer.take (headerEnd + 4)) < sizeRange := by omega
    rw [if_pos hannounced] at hcount
    have hresult : tryExtractRtsp buffer = .ok (extractByLength buffer headerEnd) := by
      rw [tryExtractRtsp, h, hteardown]
    refine ⟨fun other hother => ?_, ⟨_, hresult⟩, fun req rest hsome => ?_⟩
    · obtain rfl : headerEnd = other := Option.some.inj (h.symm.trans hother)
      rw [hteardown]
      simpa only [hcount] using hfits
    · rw [hresult, extract_by_length_eq hcount hfits] at hsome
      split at hsome
      · cases hsome
      · rename_i hcomplete
        cases hsome
        refine ⟨?_, ⟨buffer.take (headerEnd + 4), (buffer.drop (headerEnd + 4)).take
          (announced (buffer.take (headerEnd + 4))), ?_, ?_, ?_⟩, (List.take_append_drop _ _).symm⟩
        · intro hnil
          have hlength := congrArg List.length hnil
          rw [List.length_take, List.length_nil] at hlength
          omega
        · rw [List.take_add]
        · rw [hblock, hfound]
          rfl
        · rw [List.length_take, List.length_drop]
          omega

/-- What is extracted from `TEARDOWN` on when it stands in front of the empty line. -/
theorem extract_teardown_inside {tpos : Nat} (hsize : buffer.length ≤ maxSize)
    (hle : headerEnd + 4 ≤ buffer.length) (hbefore : tpos ≤ headerEnd) :
    extractTeardown buffer headerEnd tpos =
      .ok (some ((buffer.drop tpos).take (headerEnd - tpos + 4), [])) := by
  have htotal : (headerEnd + sizeRange - tpos + 4) % sizeRange = headerEnd - tpos + 4 := by
    rw [maxSize] at hsize
    rw [sizeRange]
    omega
  have hsmall : ¬ headerEnd - tpos + 4 > maxSize := by omega
  have hinside : ¬ tpos + (headerEnd - tpos + 4) > buffer.length := by omega
  simp only [extractTeardown, htotal, assign, if_neg hsmall, if_neg hinside]
  rfl

/-- With the text `TEARDOWN` the whole buffer is emptied, and must be the request. -/
theorem extracts_teardown {tpos : Nat} (hsize : buffer.length ≤ maxSize)
    (h : find CRLFCRLF buffer = some headerEnd) (hteardown : rfind TEARDOWN buffer = some tpos) :
    ExtractsFirst buffer ↔
      tpos = 0 ∧ buffer.length = headerEnd + 4 ∧ announced buffer = 0 := by
  obtain ⟨hle, -, hfound⟩ := header_block h
  have hresult : tryExtractRtsp buffer = extractTeardown buffer headerEnd tpos := by
    rw [tryExtractRtsp, h, hteardown]
  constructor
  · intro hextracts
    have hinside := hextracts.inside headerEnd h
    rw [hteardown] at hinside
    rw [extract_teardown_inside hsize hle hinside.1] at hresult
    obtain ⟨-, hreq, hbuffer⟩ := hextracts.first _ _ hresult
    obtain ⟨body, hwhole, hbody⟩ := request_front h hreq hbuffer
    rw [List.append_nil] at hbuffer
    rw [← hbuffer] at hwhole
    have hlength : buffer.length = headerEnd - tpos + 4 := by
      have heq := congrArg List.length hbuffer
      rw [List.length_take, List.length_drop] at heq
      omega
    have hempty : body.length = 0 := by
      have heq := congrArg List.length hwhole
      rw [List.length_append, List.length_take] at heq
      omega
    refine ⟨by omega, by omega, ?_⟩
    rw [← hempty, hbody, List.take_of_length_le (by omega)]
  · rintro ⟨rfl, hlength, hannounced⟩
    have hwhole : (buffer.drop 0).take (headerEnd - 0 + 4) = buffer := by
      rw [List.drop_zero, List.take_of_length_le (by omega)]
    rw [extract_teardown_inside hsize hle (Nat.zero_le _), hwhole] at hresult
    refine ⟨fun other hother => ?_, ⟨_, hresult⟩, fun req rest hsome => ?_⟩
    · obtain rfl : headerEnd = other := Option.some.inj (h.symm.trans hother)
      rw [hteardown]
      exact ⟨Nat.zero_le _, by omega⟩
    · rw [hresult] at hsome
      cases hsome
      refine ⟨?_, ⟨buffer, [], (List.append_nil _).symm, ?_, ?_⟩, (List.append_nil _).symm⟩
      · intro hnil
        rw [hnil, List.length_nil] at hlength
        omega
      · rw [h, hlength]
        rfl
      · rw [hannounced]
        rfl

end Extract

/-- The extraction stays inside the buffer and takes the first request from it exactly for the
extractable buffers. A buffer is a string, which has a largest size. -/
theorem extracts_first_iff (buffer : Bytes) (hsize : buffer.length ≤ maxSize) :
    ExtractsFirst buffer ↔ Extractable buffer := by
  unfold Extractable
  cases h : find CRLFCRLF buffer with
  | none => simpa using extracts_no_header h
  | some headerEnd =>
      simp only [Option.some.injEq, forall_eq']
      cases hteardown : rfind TEARDOWN buffer with
      | none =>
          rw [extracts_by_length h hteardown]
          simp [rfind_eq_none_iff.1 hteardown]
      | some tpos =>
          have hfound : TEARDOWN <:+: buffer := by
            by_contra hfree
            rw [rfind_eq_none_iff.2 hfree] at hteardown
            cases hteardown
          rw [extracts_teardown hsize h hteardown]
          simp [hfound]

/-- A request without a body. -/
theorem extracts_first_options : ExtractsFirst (ascii "OPTIONS * RTSP/1.0\r\n\r\n") := by
  refine (extracts_first_iff _ ?_).2 fun headerEnd hend => .inl ⟨?_, ?_⟩
  · rw [maxSize]
    decide
  · exact mt find_isSome_iff.2 (by decide)
  · obtain rfl : 18 = headerEnd := Option.some.inj (Eq.trans (by decide) hend)
    rw [sizeRange]
    decide

/-- A complete request and the first bytes of the next: an empty request is returned, and the
buffer is emptied. -/
theorem extracts_first_fails_pipelined :
    ¬ ∀ buffer : Bytes, buffer.length ≤ maxSize → ExtractsFirst buffer := by
  intro h
  have hextracts := h (ascii "OPTIONS * RTSP/1.0\r\n\r\nTEARDOWN") (by rw [maxSize]; decide)
  obtain ⟨hne, -⟩ := hextracts.first [] [] (by decide)
  exact hne rfl

end CarDetect.Reactor
