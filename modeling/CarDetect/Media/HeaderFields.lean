import CarDetect.Monitor.Robustness

/-!
# The header map of a text

`parse_request_headers` says what `parseRequest` stores under a name: the value of the last header
line with it. `header_lines_block` says that these lines stand in front of the first empty line of
a text that has one.
-/

namespace CarDetect.Media

open BigEndian ByteString Reactor LastEntry
open Monitor (headerLines)

/-- The name, in lower case, and the value of a header line. -/
def fieldOfLine (line : Bytes) : Option (Bytes × Bytes) :=
  (find (ascii ":") line).map fun colonPos =>
    ((trim isBlank (line.take colonPos)).map tolower, trim isBlank (line.drop (colonPos + 1)))

/-- One header line is stored under its name. -/
theorem parse_header_field (headers : Headers) (line name : Bytes) :
    parseHeader headers line name = nextOf fieldOfLine name (headers name) line := by
  unfold parseHeader nextOf fieldOfLine
  cases find (ascii ":") line with
  | none => rfl
  | some colonPos =>
      simp only [Headers.set, Option.map_some, eq_comm (a := name)]

/-- The header loop reads the lines in front of the first empty one. -/
theorem parse_headers_fields (headers : Headers) (lines : List Bytes) (name : Bytes) :
    parseHeaders headers lines name =
      (lines.takeWhile fun line => line ≠ [] ∧ line ≠ [13]).foldl (nextOf fieldOfLine name)
        (headers name) := by
  induction lines generalizing headers with
  | nil => rfl
  | cons line rest ih =>
      rw [parseHeaders]
      split
      · rename_i hempty
        rw [List.takeWhile_cons_of_neg (by simpa [or_iff_not_imp_left] using hempty)]
        rfl
      · rename_i hline
        rw [List.takeWhile_cons_of_pos (by simpa [not_or] using hline), List.foldl_cons, ih,
          parse_header_field]

/-- The value stored under a name is that of the last header line with it. -/
theorem parse_request_headers (text name : Bytes) :
    (parseRequest text).headers name = lastOf fieldOfLine name (headerLines text) := by
  unfold parseRequest headerLines
  cases getlines text with
  | nil => rfl
  | cons line rest => exact parse_headers_fields (fun _ => none) rest name

/-! ## Where the header lines end -/

theorem getlines_ended_ne (text : Bytes) : getlines (text ++ [10]) ≠ [] := by
  cases text with
  | nil => simp [getlines]
  | cons byte text =>
      rw [List.cons_append, getlines]
      split
      · simp
      · split <;> simp

/-- The lines of a text whose first part ends in a line end. -/
theorem getlines_split (front rest : Bytes) :
    getlines (front ++ 10 :: rest) = getlines (front ++ [10]) ++ getlines rest := by
  induction front with
  | nil => rfl
  | cons byte front ih =>
      rw [List.cons_append, getlines, ih, List.cons_append, getlines]
      split
      · rfl
      · obtain ⟨line, lines, hlines⟩ := List.exists_cons_of_ne_nil (getlines_ended_ne front)
        rw [hlines]
        rfl

/-- The header lines of a text with an empty line are those in front of it. -/
theorem header_lines_front (front rest : Bytes) :
    headerLines (front ++ CRLFCRLF ++ rest) =
      (getlines (front ++ [13, 10])).tail.takeWhile fun line => line ≠ [] ∧ line ≠ [13] := by
  have hlines : getlines (front ++ CRLFCRLF ++ rest) =
      getlines (front ++ [13, 10]) ++ [13] :: getlines rest := by
    have hsplit : front ++ CRLFCRLF ++ rest = (front ++ [13]) ++ 10 :: ([13] ++ 10 :: rest) := by
      simp [CRLFCRLF]
    have hempty : getlines ([13] ++ [10]) = [[13]] := by decide
    rw [hsplit, getlines_split, getlines_split [13], hempty, List.append_assoc front]
    rfl
  have hne : getlines (front ++ [13, 10]) ≠ [] := by
    have hended := getlines_ended_ne (front ++ [13])
    rwa [List.append_assoc] at hended
  rw [headerLines, hlines, List.tail_append_of_ne_nil hne, List.takeWhile_append,
    List.takeWhile_cons_of_neg (by simp)]
  split
  · rename_i hwhole
    rw [List.append_nil]
    exact ((List.takeWhile_prefix _).eq_of_length hwhole).symm
  · rfl

/-- The header lines of a text with an empty line do not depend on what follows that line. -/
theorem header_lines_block (front rest : Bytes) :
    headerLines (front ++ CRLFCRLF ++ rest) = headerLines (front ++ CRLFCRLF) := by
  have halone := header_lines_front front []
  rw [List.append_nil] at halone
  rw [header_lines_front, halone]

end CarDetect.Media
