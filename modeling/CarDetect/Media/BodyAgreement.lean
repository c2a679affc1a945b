import CarDetect.Media.HeaderFields
import CarDetect.Reactor.Extraction

/-!
# The two readings of Content-Length

`tryExtractRtsp` reads the digits of the first line that begins with `Content-Length:`, and
`extractBody` reads the last `content-length` of the header map with `atoi`. `body_agrees_iff` says
that they cut a request at the same place exactly when the two texts write the same number.
-/

namespace CarDetect.Media

open BigEndian ByteString Reactor LastEntry
open Monitor (headerLines)

/-- The header block at the front of a buffer. -/
def headerBlock (buffer : Bytes) : Bytes :=
  match find CRLFCRLF buffer with
  | none => buffer
  | some headerEnd => buffer.take (headerEnd + 4)

/-- The body that `extractBody` finds in a request is what stands behind its first empty line, and
the two lengths are the same, so that the request ends where its body ends. -/
structure BodyAgrees (buffer req : Bytes) : Prop where
  body : ∃ headerEnd, find CRLFCRLF req = some headerEnd ∧
    extractBody req (parseRequest req).headers = req.drop (headerEnd + 4) ∧
    req.length = headerEnd + 4 + bodyLength (parseRequest req).headers
  length : contentLength (headerBlock buffer) = bodyLength (parseRequest req).headers

/-- The number that `atoi` reads in the last header line with the name `content-length`, of those
between the first line and the first empty one; 0 when there is none. -/
def storedLength (header : Bytes) : Int :=
  match lastOf fieldOfLine (ascii "content-length") (headerLines header) with
  | none => 0
  | some value => atoi value

/-- The last `content-length` of the map and the digits of the first `Content-Length` line give the
same number, where digits that write 2^64 or more count as 0. -/
def SameLength (header : Bytes) : Prop :=
  storedLength header = if announced header < sizeRange then (announced header : Int) else 0

instance (header : Bytes) : Decidable (SameLength header) :=
  inferInstanceAs (Decidable (_ = _))

section Agreement

variable {buffer req rest : Bytes}

/-- `atoi` returns an `int`. -/
theorem atoi_range (text : Bytes) : -2 ^ 31 ≤ atoi text ∧ atoi text < 2 ^ 31 := by
  have hlow := Int.le_bmod (x := strtol text) (m := 2 ^ 32) (by decide)
  have hhigh := Int.bmod_lt (x := strtol text) (m := 2 ^ 32) (by decide)
  rw [atoi_eq_strtol]
  omega

theorem stored_length_range (header : Bytes) :
    -2 ^ 31 ≤ storedLength header ∧ storedLength header < 2 ^ 31 := by
  unfold storedLength
  cases lastOf fieldOfLine (ascii "content-length") (headerLines header) with
  | none => decide
  | some value => exact atoi_range value

/-- The length that `extractBody` computes. -/
theorem body_length_stored (text : Bytes) :
    (bodyLength (parseRequest text).headers : Int) = storedLength text % sizeRange := by
  unfold bodyLength storedLength
  rw [parse_request_headers]
  cases lastOf fieldOfLine (ascii "content-length") (headerLines text) with
  | none => rfl
  | some value => exact Int.toNat_of_nonneg (Int.emod_nonneg _ (by decide))

/-- The length of the line loop, as a number of the header's text. -/
theorem same_length_iff (header : Bytes) :
    SameLength header ↔ storedLength header = contentLength header := by
  unfold SameLength
  rw [content_length_announced]
  split <;> rfl

theorem content_length_lt (header : Bytes) : contentLength header < sizeRange := by
  rw [content_length_announced]
  split
  · assumption
  · decide

/-- The header block ends in the empty line. -/
theorem block_ends {headerEnd : Nat} (h : find CRLFCRLF buffer = some headerEnd) :
    buffer.take (headerEnd + 4) = buffer.take headerEnd ++ CRLFCRLF := by
  have hhere := ((find_eq_some_iff (by decide)).1 h).1
  have hfour : CRLFCRLF = (buffer.drop headerEnd).take 4 := List.prefix_iff_eq_take.1 hhere
  rw [List.take_add, ← hfour]

/-- What is returned without the text `TEARDOWN` in the buffer. -/
theorem extract_length_ok (hteardown : rfind TEARDOWN buffer = none)
    (h : tryExtractRtsp buffer = .ok (some (req, rest))) :
    ∃ headerEnd, find CRLFCRLF buffer = some headerEnd ∧
      (headerEnd + 4 + contentLength (headerBlock buffer)) % sizeRange ≤ buffer.length ∧
      req = buffer.take ((headerEnd + 4 + contentLength (headerBlock buffer)) % sizeRange) := by
  unfold tryExtractRtsp at h
  unfold headerBlock
  cases hend : find CRLFCRLF buffer with
  | none =>
      rw [hend] at h
      cases h
  | some headerEnd =>
      simp only [hend, hteardown, extractByLength] at h
      split at h
      · cases h
      · rename_i hcomplete
        cases h
        exact ⟨headerEnd, rfl, Nat.le_of_not_lt hcomplete, rfl⟩

/-- `extractBody` returns all that follows the empty line when that has the length it computes. -/
theorem extract_body_all {headers : Headers} {headerEnd : Nat}
    (h : find CRLFCRLF req = some headerEnd)
    (hlength : req.length = headerEnd + 4 + bodyLength headers) (hfits : req.length < sizeRange) :
    extractBody req headers = req.drop (headerEnd + 4) := by
  have hmod : (headerEnd + 4 + bodyLength headers) % sizeRange = req.length := by
    rw [← hlength, Nat.mod_eq_of_lt hfits]
  simp only [extractBody, h, hmod, gt_iff_lt, lt_irrefl, if_false]
  split
  · rfl
  · rw [List.take_of_length_le]
    rw [List.length_drop]
    omega

/-- A sum that wraps around cuts the header block. -/
theorem cut_inside {headerEnd count : Nat} (h : find CRLFCRLF buffer = some headerEnd)
    (hcount : count < headerEnd + 4) : find CRLFCRLF (buffer.take count) = none := by
  refine find_cut (by decide) (List.take_prefix count buffer) h ?_
  have hfour : CRLFCRLF.length = 4 := rfl
  rw [List.length_take]
  omega

/-- A sum that does not wrap around cuts behind the header block, and what follows that block does
not matter for the header map. -/
theorem cut_behind {headerEnd count : Nat} (h : find CRLFCRLF buffer = some headerEnd)
    (hinside : headerEnd + 4 + count ≤ buffer.length) :
    find CRLFCRLF (buffer.take (headerEnd + 4 + count)) = some headerEnd ∧
      storedLength (buffer.take (headerEnd + 4 + count)) = storedLength (headerBlock buffer) := by
  have hlength : (buffer.take (headerEnd + 4 + count)).length = headerEnd + 4 + count := by
    rw [List.length_take]
    omega
  constructor
  · refine find_leading (by decide) (List.take_prefix _ _) h ?_
    rw [hlength]
    exact Nat.le_add_right _ _
  · have hblock : headerBlock buffer = buffer.take (headerEnd + 4) := by
      unfold headerBlock
      rw [h]
    rw [hblock, List.take_add, block_ends h]
    unfold storedLength
    rw [header_lines_block]

/-- The framer and the parser agree on the body of a request that is extracted without the text
`TEARDOWN` exactly when its two `Content-Length` texts write the same number. -/
theorem body_agrees_iff (hsize : buffer.length ≤ maxSize) (hteardown : rfind TEARDOWN buffer = none)
    (h : tryExtractRtsp buffer = .ok (some (req, rest))) :
    BodyAgrees buffer req ↔ SameLength (headerBlock buffer) := by
  obtain ⟨headerEnd, hend, hcomplete, hreq⟩ := extract_length_ok hteardown h
  obtain ⟨hheader, -, -⟩ := header_block hend
  have hrange := stored_length_range (headerBlock buffer)
  have hstored := body_length_stored req
  rw [same_length_iff]
  rw [maxSize] at hsize
  rw [sizeRange] at hcomplete hreq hstored
  constructor
  · rintro ⟨⟨found, hfound, -, hlength⟩, hsame⟩
    have hfits : headerEnd + 4 + contentLength (headerBlock buffer) < 2 ^ 64 := by
      -- a sum that wraps around would cut the empty line off
      by_contra hwraps
      have hcount := content_length_lt (headerBlock buffer)
      rw [sizeRange] at hcount
      rw [hreq, cut_inside hend (by omega)] at hfound
      cases hfound
    rw [Nat.mod_eq_of_lt hfits] at hcomplete hreq
    obtain ⟨-, hmap⟩ := cut_behind hend hcomplete
    rw [← hreq] at hmap
    rw [hmap] at hstored
    omega
  · intro hsame
    have hfits : headerEnd + 4 + contentLength (headerBlock buffer) < 2 ^ 64 := by omega
    rw [Nat.mod_eq_of_lt hfits] at hcomplete hreq
    obtain ⟨hfound, hmap⟩ := cut_behind hend hcomplete
    rw [← hreq] at hfound hmap
    rw [hmap] at hstored
    have hbody : contentLength (headerBlock buffer) = bodyLength (parseRequest req).headers := by
      omega
    have hlength : req.length = headerEnd + 4 + bodyLength (parseRequest req).headers := by
      rw [← hbody, hreq, List.length_take]
      omega
    refine ⟨⟨headerEnd, hfound, ?_, hlength⟩, hbody⟩
    exact extract_body_all hfound hlength (by rw [sizeRange]; omega)

end Agreement

/-- A request with a body of two bytes. -/
def twoBytes : Bytes := ascii "PLAY\r\nContent-Length: 2\r\n\r\nab"

/-- The same with a blank in front of the colon. -/
def blankColon : Bytes := ascii "PLAY\r\nContent-Length : 2\r\n\r\nab"

theorem body_agrees_two : BodyAgrees twoBytes twoBytes := by
  have hcount : contentLength (twoBytes.take (23 + 4)) = 2 := by
    rw [content_length_announced]
    decide
  have hresult : tryExtractRtsp twoBytes = .ok (some (twoBytes, [])) :=
    extract_complete (by decide) (by decide) hcount (by rw [sizeRange]; decide) (by decide)
  exact (body_agrees_iff (by rw [maxSize]; decide) (by decide) hresult).2 (by decide)

/-- The extractor sees no length in front of the colon's blank, and leaves the body that the parser
counts in the buffer. -/
theorem body_agrees_fails_blank :
    ¬ ∀ buffer req rest : Bytes, buffer.length ≤ maxSize → rfind TEARDOWN buffer = none →
      tryExtractRtsp buffer = .ok (some (req, rest)) → BodyAgrees buffer req := by
  intro h
  have hcount : contentLength (blankColon.take (24 + 4)) = 0 := by
    rw [content_length_announced]
    decide
  have hresult : tryExtractRtsp blankColon = .ok (some (blankColon.take 28, ascii "ab")) :=
    extract_complete (by decide) (by decide) hcount (by rw [sizeRange]; decide) (by decide)
  have hlength := (h _ _ _ (by rw [maxSize]; decide) (by decide) hresult).length
  rw [content_length_announced] at hlength
  exact absurd hlength (by decide)

end CarDetect.Media
