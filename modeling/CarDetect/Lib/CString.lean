import CarDetect.Lib.ByteString

/-!
# Loops over C strings

A C string is the list of its bytes, and the zero behind the last one can be read as well. `charAt`
fails behind that zero, and writing behind the end of an array fails too. The loops of a parser
in C are functions that may fail in this way: `skipWhile` goes over leading characters, `trimEnd`
cuts trailing ones off, and `copyUntil` copies into an array of fixed size. Each has one lemma,
which says that it does not fail and what it computes. `scanInt` is `%d` of `sscanf`.
-/

namespace CString

open BigEndian ByteString

/-- How a loop over a string goes wrong. -/
inductive StringFault where
  | overread
  | overrun
  | endless
deriving DecidableEq, Repr

/-- `text[i]`. The zero behind the last character can be read, and nothing behind it. -/
def charAt (text : Bytes) (i : Nat) : Except StringFault UInt8 :=
  match text[i]? with
  | some byte => .ok byte
  | none => if i = text.length then .ok 0 else .error .overread

/-- `text + i` -/
def advance (text : Bytes) (i : Nat) : Except StringFault Bytes :=
  if i ≤ text.length then .ok (text.drop i) else .error .overread

/-- `while (blank(text[i])) i++;`, for less than `fuel` rounds. -/
def skipWhile (blank : UInt8 → Bool) (text : Bytes) : Nat → Nat → Except StringFault Nat
  | 0, _ => .error .endless
  | fuel + 1, i => do
      let byte ← charAt text i
      if blank byte then skipWhile blank text fuel (i + 1) else pure i

/-- `while (len > 0 && blank(text[len-1])) text[--len] = '\0';`, where the string has been cut
after `len` characters already. -/
def trimEnd (blank : UInt8 → Bool) (text : Bytes) : Nat → Except StringFault Bytes
  | 0 => .ok []
  | len + 1 => do
      let byte ← charAt text len
      if blank byte then trimEnd blank text len else pure (text.take (len + 1))

/-- `array[i] = byte` at the end of what the array holds. -/
def push (size : Nat) (array : Bytes) (byte : UInt8) : Except StringFault Bytes :=
  if array.length < size then .ok (array ++ [byte]) else .error .overrun

/-- `while (text[i] && text[i] != stop && i < size - 1) { array[i] = text[i]; i++; }`, where `room`
is how often the last condition still holds. -/
def copyUntil (stop : UInt8) (size : Nat) (text : Bytes) : Nat → Bytes → Except StringFault Bytes
  | 0, array => do
      -- the character is looked at before the index is
      let _ ← charAt text array.length
      pure array
  | room + 1, array => do
      let byte ← charAt text array.length
      if byte = 0 ∨ byte = stop then pure array
      else
        let array ← push size array byte
        copyUntil stop size text room array

/-- `array[i] = '\0'` behind what the array holds. The string is what stands in front. -/
def terminate (size : Nat) (array : Bytes) : Except StringFault Bytes :=
  (push size array 0).map fun _ => array

/-- The copy loop on an empty array, and the zero behind the copy. -/
def copyString (stop : UInt8) (size : Nat) (text : Bytes) : Except StringFault Bytes := do
  let array ← copyUntil stop size text (size - 1) []
  terminate size array

/-- What stands behind the blanks and the sign of a number. -/
def unsignedPart (text : Bytes) : Bytes :=
  let trimmed := text.dropWhile isspace
  if trimmed.head? == some 45 || trimmed.head? == some 43 then trimmed.tail else trimmed

/-- `%d` of `sscanf`: the number, and the text behind it. -/
def scanInt (text : Bytes) : Option (Int × Bytes) :=
  if (unsignedPart text).takeWhile isdigit = [] then none
  else some (atoi text, (unsignedPart text).dropWhile isdigit)

variable {text front rest array : Bytes} {stop : UInt8} {blank : UInt8 → Bool}

/-! ## What the loops compute -/

theorem char_at_append (front rest : Bytes) :
    charAt (front ++ rest) front.length = .ok (rest.headD 0) := by
  unfold charAt
  rw [List.getElem?_append_right (Nat.le_refl _), Nat.sub_self]
  cases rest with
  | nil => simp
  | cons byte rest => rfl

theorem char_at_ok {i : Nat} (h : i ≤ text.length) :
    charAt text i = .ok ((text.drop i).headD 0) := by
  have hread : charAt (text.take i ++ text.drop i) (text.take i).length =
      .ok ((text.drop i).headD 0) := char_at_append _ _
  rwa [List.take_append_drop, List.length_take_of_le h] at hread

theorem char_at_zero (text : Bytes) : charAt text 0 = .ok (text.headD 0) :=
  char_at_append [] text

theorem advance_ok {i : Nat} (h : i ≤ text.length) : advance text i = .ok (text.drop i) := if_pos h

/-- The zero at the end of the string stops the loop at the latest. -/
theorem skip_while_append {fuel : Nat} (hzero : blank 0 = false) (hfuel : rest.length < fuel) :
    skipWhile blank (front ++ rest) fuel front.length =
      .ok (front.length + (rest.takeWhile blank).length) := by
  induction rest generalizing front fuel with
  | nil =>
      obtain ⟨fuel, rfl⟩ := Nat.exists_eq_add_one_of_ne_zero (Nat.ne_of_gt hfuel)
      rw [skipWhile, char_at_append]
      show (if blank 0 then _ else _) = _
      rw [hzero]
      rfl
  | cons byte rest ih =>
      obtain ⟨fuel, rfl⟩ :=
        Nat.exists_eq_add_one_of_ne_zero (Nat.ne_of_gt (Nat.zero_lt_of_lt hfuel))
      rw [skipWhile, char_at_append]
      show (if blank byte then _ else _) = _
      cases hbyte : blank byte with
      | false =>
          rw [List.takeWhile_cons_of_neg (by simp [hbyte])]
          rfl
      | true =>
          have hnext :
              skipWhile blank ((front ++ [byte]) ++ rest) fuel (front ++ [byte]).length = _ :=
            ih (Nat.lt_of_succ_lt_succ hfuel)
          rw [List.append_assoc, List.length_append, List.length_singleton] at hnext
          rw [List.takeWhile_cons_of_pos hbyte, List.length_cons, if_pos rfl]
          refine hnext.trans ?_
          congr 1
          omega

theorem skip_while_ok (text : Bytes) (hzero : blank 0 = false) :
    skipWhile blank text (text.length + 1) 0 = .ok (text.takeWhile blank).length := by
  have h : skipWhile blank ([] ++ text) (text.length + 1) ([] : Bytes).length = _ :=
    skip_while_append hzero (Nat.lt_succ_self _)
  simpa using h

/-- Going on behind the characters skipped. -/
theorem advance_skipped (text : Bytes) :
    advance text (text.takeWhile blank).length = .ok (text.dropWhile blank) := by
  have hdrop : (text.takeWhile blank ++ text.dropWhile blank).drop (text.takeWhile blank).length =
      text.dropWhile blank := List.drop_left
  rw [List.takeWhile_append_dropWhile] at hdrop
  rw [advance_ok (List.takeWhile_prefix blank).length_le, hdrop]

theorem trim_end_take {len : Nat} (h : len ≤ text.length) :
    trimEnd blank text len = .ok ((text.take len).rdropWhile blank) := by
  induction len with
  | zero => simp [trimEnd]
  | succ len ih =>
      have hlen : (text.take len).length = len := List.length_take_of_le (Nat.le_of_succ_le h)
      have hread : charAt text len = .ok text[len] := by
        rw [charAt, List.getElem?_eq_getElem h]
      rw [trimEnd, hread, List.take_succ_eq_append_getElem h, List.rdropWhile_concat]
      show (if blank text[len] then _ else _) = _
      split
      · exact ih (Nat.le_of_succ_le h)
      · rfl

theorem trim_end_ok (text : Bytes) :
    trimEnd blank text text.length = .ok (text.rdropWhile blank) := by
  rw [trim_end_take (Nat.le_refl _), List.take_length]

theorem push_ok {size : Nat} (h : array.length < size) (byte : UInt8) :
    push size array byte = .ok (array ++ [byte]) := if_pos h

/-- The copy ends in front of the stop character, at the end of the string, or where the room for
the zero begins. -/
theorem copy_until_append {size room : Nat} (hroom : array.length + room < size) :
    copyUntil stop size (array ++ rest) room array =
      .ok (array ++ (rest.takeWhile fun byte => byte ≠ 0 && byte ≠ stop).take room) := by
  induction room generalizing array rest with
  | zero =>
      rw [copyUntil, char_at_append, List.take_zero, List.append_nil]
      rfl
  | succ room ih =>
      rw [copyUntil, char_at_append]
      cases rest with
      | nil =>
          rw [List.takeWhile_nil, List.take_nil, List.append_nil]
          rfl
      | cons byte rest =>
          show (if byte = 0 ∨ byte = stop then _ else _) = _
          split
          · rename_i hstop
            rw [List.takeWhile_cons_of_neg (by simpa [or_iff_not_imp_left] using hstop),
              List.take_nil, List.append_nil]
            rfl
          · rename_i hstop
            have hnext :
                copyUntil stop size ((array ++ [byte]) ++ rest) room (array ++ [byte]) = _ :=
              ih (by rw [List.length_append, List.length_singleton]; omega)
            rw [push_ok (by omega), List.takeWhile_cons_of_pos (by simpa [not_or] using hstop),
              List.take_succ_cons]
            show copyUntil stop size (array ++ byte :: rest) room (array ++ [byte]) = _
            simpa only [List.append_assoc, List.singleton_append] using hnext

/-- A string has no zero in front of its end. -/
theorem take_while_nonzero (htext : 0 ∉ text) :
    (text.takeWhile fun byte => byte ≠ 0 && byte ≠ stop) = text.takeWhile (· ≠ stop) := by
  induction text with
  | nil => rfl
  | cons byte rest ih =>
      obtain ⟨hbyte, hrest⟩ := not_or.1 (mt List.mem_cons.2 htext)
      rw [List.takeWhile_cons, List.takeWhile_cons, ih hrest]
      simp [Ne.symm hbyte]

/-- The array is large enough for the copy and the zero behind it. -/
theorem copy_string_ok {size : Nat} (hsize : 0 < size) (htext : 0 ∉ text) :
    copyString stop size text = .ok ((text.takeWhile (· ≠ stop)).take (size - 1)) := by
  have hcopy : copyUntil stop size ([] ++ text) (size - 1) [] = _ :=
    copy_until_append (by simpa using hsize)
  rw [List.nil_append, List.nil_append, take_while_nonzero htext] at hcopy
  rw [copyString, hcopy]
  show terminate size _ = _
  rw [terminate, push_ok]
  · rfl
  · rw [List.length_take]
    omega

/-! ## Blanks at the ends -/

/-- Trailing blanks of the beginning of a text end where something else follows. -/
theorem rdropWhile_prefix_mono {other : Bytes} (h : text <+: other) :
    text.rdropWhile blank <+: other.rdropWhile blank := by
  have hleading : text.rdropWhile blank <+: other.rdropWhile blank ++ other.rtakeWhile blank := by
    rw [List.rdropWhile_append_rtakeWhile]
    exact (List.rdropWhile_prefix blank text).trans h
  rcases List.prefix_or_prefix_of_prefix hleading (List.prefix_append _ _) with hle | ⟨tail, htail⟩
  · exact hle
  · rw [← htail, List.prefix_append_right_inj] at hleading
    rcases List.eq_nil_or_concat tail with rfl | ⟨front, last, rfl⟩
    · rw [← htail, List.append_nil]
    · have hblank : blank last = true :=
        List.mem_rtakeWhile_imp (hleading.subset (by simp))
      have hlast : (text.rdropWhile blank).getLast? = some last := by
        rw [← htail]
        simp
      have hne : text.rdropWhile blank ≠ [] := by
        intro hnil
        rw [hnil] at hlast
        cases hlast
      have hvisible := List.rdropWhile_last_not blank text hne
      rw [List.getLast?_eq_some_getLast hne] at hlast
      rw [Option.some.inj hlast] at hvisible
      exact absurd hblank hvisible

theorem dropWhile_prefix_mono {other : Bytes} (h : text <+: other) :
    text.dropWhile blank <+: other.dropWhile blank := by
  obtain ⟨tail, rfl⟩ := h
  rw [List.dropWhile_append]
  split
  · rename_i hnil
    rw [List.isEmpty_iff.1 hnil]
    exact List.nil_prefix
  · exact List.prefix_append _ _

/-- Blanks are not counted. -/
theorem countP_dropWhile_blank {counted : UInt8 → Bool}
    (h : ∀ byte, blank byte = true → counted byte = false) :
    (text.dropWhile blank).countP counted = text.countP counted := by
  conv_rhs => rw [← List.takeWhile_append_dropWhile (p := blank) (l := text), List.countP_append]
  have hzero : (text.takeWhile blank).countP counted = 0 :=
    List.countP_eq_zero.2 fun byte hbyte => by simp [h byte (List.mem_takeWhile_imp hbyte)]
  rw [hzero, Nat.zero_add]

theorem countP_rdropWhile_blank {counted : UInt8 → Bool}
    (h : ∀ byte, blank byte = true → counted byte = false) :
    (text.rdropWhile blank).countP counted = text.countP counted := by
  rw [List.rdropWhile, List.countP_reverse, countP_dropWhile_blank h, List.countP_reverse]

/-! ## Numbers in a longer text -/

section Scan

variable {value : Int} {more : Bytes}

/-- Blanks and a sign that something follows are the same in a longer text. -/
theorem parts_append (h : unsignedPart text ≠ []) (more : Bytes) :
    ((text ++ more).dropWhile isspace).head? = (text.dropWhile isspace).head? ∧
      unsignedPart (text ++ more) = unsignedPart text ++ more := by
  unfold unsignedPart at h ⊢
  cases htrimmed : text.dropWhile isspace with
  | nil => simp [htrimmed] at h
  | cons byte trimmed =>
      have hskip : (text ++ more).dropWhile isspace = byte :: trimmed ++ more := by
        rw [List.dropWhile_append, htrimmed]
        rfl
      rw [hskip]
      refine ⟨rfl, ?_⟩
      show (if (some byte == some 45 || some byte == some 43) = true then trimmed ++ more
        else byte :: (trimmed ++ more)) = (if (some byte == some 45 || some byte == some 43) = true
        then trimmed else byte :: trimmed) ++ more
      split <;> rfl

/-- A number has digits. -/
theorem unsigned_ne_nil (h : (scanInt text).isSome) : unsignedPart text ≠ [] := by
  intro hnil
  simp [scanInt, hnil] at h

/-- A number is read off its sign and its digits. -/
theorem atoi_congr {other : Bytes}
    (hhead : (other.dropWhile isspace).head? = (text.dropWhile isspace).head?)
    (hdigits : (unsignedPart other).takeWhile isdigit = (unsignedPart text).takeWhile isdigit) :
    atoi other = atoi text := by
  have hparts (text : Bytes) : atoi text = (max (-2 ^ 63) (min (2 ^ 63 - 1)
      (if (text.dropWhile isspace).head? == some 45 then
        -(decimal ((unsignedPart text).takeWhile isdigit) : Int)
      else (decimal ((unsignedPart text).takeWhile isdigit) : Int)))).bmod (2 ^ 32) := rfl
  rw [hparts other, hparts text, hhead, hdigits]

/-- A number is found in a longer text too. -/
theorem scan_int_isSome (h : (scanInt text).isSome) (more : Bytes) :
    (scanInt (text ++ more)).isSome := by
  obtain ⟨-, hunsigned⟩ := parts_append (unsigned_ne_nil h) more
  have hdigits : (unsignedPart text).takeWhile isdigit ≠ [] := by
    intro hnil
    simp [scanInt, hnil] at h
  have hmore : (unsignedPart text ++ more).takeWhile isdigit ≠ [] := by
    rw [List.takeWhile_append]
    split
    · exact fun hnil => unsigned_ne_nil h (List.append_eq_nil_iff.1 hnil).1
    · exact hdigits
  simp [scanInt, hunsigned, hmore]

/-- A number that something follows is the same in a longer text. -/
theorem scan_int_append (h : scanInt text = some (value, rest)) (hrest : rest ≠ [])
    (more : Bytes) : scanInt (text ++ more) = some (value, rest ++ more) := by
  have hsome : (scanInt text).isSome := by rw [h]; rfl
  obtain ⟨hhead, hunsigned⟩ := parts_append (unsigned_ne_nil hsome) more
  unfold scanInt at h ⊢
  split at h
  · cases h
  · rename_i hdigits
    simp only [Option.some.injEq, Prod.mk.injEq] at h
    obtain ⟨hvalue, hbehind⟩ := h
    have htake : (unsignedPart text ++ more).takeWhile isdigit =
        (unsignedPart text).takeWhile isdigit := by
      rw [List.takeWhile_append, if_neg]
      intro hlength
      have hsplit := congrArg List.length (List.takeWhile_append_dropWhile
        (p := isdigit) (l := unsignedPart text))
      rw [List.length_append, hlength, hbehind] at hsplit
      exact hrest (List.length_eq_zero_iff.1 (by omega))
    have hdrop : (unsignedPart text ++ more).dropWhile isdigit = rest ++ more := by
      rw [List.dropWhile_append, hbehind, if_neg (by simpa using hrest)]
    have hatoi : atoi (text ++ more) = atoi text := by
      refine atoi_congr hhead ?_
      rw [hunsigned, htake]
    rw [hunsigned, htake, if_neg hdigits, hdrop, hatoi, hvalue]

end Scan

end CString
