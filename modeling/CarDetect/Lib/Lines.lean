import CarDetect.Lib.Delimited
import Mathlib.Data.Nat.Digits.Lemmas

/-!
# Texts made of lines, and decimal numbers

`joinLines` is a text of lines with CRLF between them. `delimited_lines` says that such a text is
ended by the first empty line behind it. `trim_padded` removes the blanks around a text, and
`decimal_print` and `stoul_print` read back the number that `printNat` writes.
-/

namespace ByteString

open BigEndian

variable {text block rest line : Bytes} {lines : List Bytes}

/-! ## Lines -/

/-- A text without the characters that end lines. -/
def OneLine (line : Bytes) : Prop :=
  ∀ byte ∈ line, byte ≠ 10 ∧ byte ≠ 13

instance (line : Bytes) : Decidable (OneLine line) :=
  List.decidableBAll (fun byte => byte ≠ 10 ∧ byte ≠ 13) line

/-- A property of the bytes of a text, tested on each. -/
theorem forall_byte {P : UInt8 → Prop} [DecidablePred P] {text : Bytes}
    (h : text.all (fun byte => P byte) = true) : ∀ byte ∈ text, P byte :=
  fun byte hbyte => of_decide_eq_true (List.all_eq_true.1 h byte hbyte)

theorem OneLine.append {other : Bytes} (h : OneLine line) (hother : OneLine other) :
    OneLine (line ++ other) :=
  fun byte hbyte => (List.mem_append.1 hbyte).elim (h byte) (hother byte)

/-- The lines with CRLF between them. -/
def joinLines (lines : List Bytes) : Bytes :=
  [13, 10].intercalate lines

theorem join_singleton (line : Bytes) : joinLines [line] = line := by
  simp [joinLines, List.intercalate]

theorem join_cons (line next : Bytes) (lines : List Bytes) :
    joinLines (line :: next :: lines) = line ++ 13 :: 10 :: joinLines (next :: lines) := by
  simp [joinLines, List.intercalate]

/-- Lines that each end in CRLF. -/
theorem join_ended (hne : lines ≠ []) :
    (lines.flatMap fun line => line ++ [13, 10]) = joinLines lines ++ [13, 10] := by
  induction lines with
  | nil => exact absurd rfl hne
  | cons line rest ih =>
      cases rest with
      | nil => simp [join_singleton]
      | cons next rest =>
          rw [List.flatMap_cons, ih (by simp), join_cons]
          simp

/-- A search passes over a block without the first character of its pattern. -/
theorem find_skip {first : UInt8} {pattern : Bytes} (hblock : ∀ byte ∈ block, byte ≠ first) :
    find (first :: pattern) (block ++ rest) =
      (find (first :: pattern) rest).map (· + block.length) := by
  induction block with
  | nil => simp
  | cons byte block ih =>
      obtain ⟨hbyte, hblock⟩ := List.forall_mem_cons.1 hblock
      have hhead : ¬ (first :: pattern).isPrefixOf (byte :: (block ++ rest)) = true := by
        rw [List.isPrefixOf_iff_prefix, List.cons_prefix_cons]
        exact fun h => hbyte h.1.symm
      rw [List.cons_append, find, if_neg hhead, ih hblock, Option.map_map]
      rfl

/-- A text of lines is ended by the first empty line. -/
theorem delimited_lines (hne : lines ≠ []) (hlines : ∀ line ∈ lines, line ≠ [] ∧ OneLine line) :
    Delimited [13, 10, 13, 10] (joinLines lines) := by
  unfold Delimited
  induction lines with
  | nil => exact absurd rfl hne
  | cons line rest ih =>
      obtain ⟨⟨-, hline⟩, hrest⟩ := List.forall_mem_cons.1 hlines
      have hskip : ∀ byte ∈ line, byte ≠ 13 := fun byte hbyte => (hline byte hbyte).2
      cases rest with
      | nil =>
          rw [join_singleton, find_skip hskip, find, if_pos (by simp)]
          simp
      | cons next rest =>
          obtain ⟨⟨hnext, hsingle⟩, -⟩ := List.forall_mem_cons.1 hrest
          have hfound := ih (by simp) hrest
          -- the line after this one does not begin with a CR
          obtain ⟨first, tail, htail⟩ : ∃ first tail, joinLines (next :: rest) ++ [13, 10, 13, 10] =
              first :: tail ∧ first ≠ 13 := by
            obtain ⟨first, tail, rfl⟩ := List.exists_cons_of_ne_nil hnext
            have hfirst := (hsingle first List.mem_cons_self).2
            cases rest with
            | nil => exact ⟨first, _, by rw [join_singleton, List.cons_append], hfirst⟩
            | cons other rest =>
                exact ⟨first, _, by rw [join_cons, List.cons_append, List.cons_append], hfirst⟩
          have hcrlf : find [13, 10, 13, 10] ([13, 10] ++ first :: tail) =
              (find [13, 10, 13, 10] (first :: tail)).map (· + 2) := by
            have hzero : ¬ [13, 10, 13, 10].isPrefixOf (13 :: 10 :: first :: tail) = true := by
              simp [List.isPrefixOf, Ne.symm htail.2]
            have hone : ¬ [13, 10, 13, 10].isPrefixOf (10 :: first :: tail) = true := by
              simp [List.isPrefixOf]
            rw [List.cons_append, List.cons_append, List.nil_append, find, if_neg hzero, find,
              if_neg hone, Option.map_map]
            rfl
          rw [join_cons, List.append_assoc, find_skip hskip, List.cons_append, List.cons_append,
            htail.1]
          rw [htail.1] at hfound
          rw [show (13 :: 10 :: first :: tail : Bytes) = [13, 10] ++ first :: tail from rfl, hcrlf,
            hfound]
          simp only [Option.map_some, List.length_append, List.length_cons, Option.some.injEq]
          omega

/-! ## Blanks -/

/-- A text that begins and ends with other characters than white space. -/
structure Trimmed (text : Bytes) : Prop where
  nonempty : text ≠ []
  first : ∀ byte ∈ text.head?, isspace byte = false
  last : ∀ byte ∈ text.getLast?, isspace byte = false

/-- A text without white space is trimmed. -/
theorem Trimmed.of_visible (hne : text ≠ []) (h : ∀ byte ∈ text, isspace byte = false) :
    Trimmed text where
  nonempty := hne
  first byte hbyte := h byte (List.mem_of_mem_head? hbyte)
  last byte hbyte := h byte (List.mem_of_mem_getLast? hbyte)

/-- The blanks on both sides of a trimmed text are removed. -/
theorem trim_padded {blank : UInt8 → Bool} (before after : Bytes) (h : Trimmed text)
    (hspace : ∀ byte, blank byte = true → isspace byte = true)
    (hbefore : ∀ byte ∈ before, blank byte) (hafter : ∀ byte ∈ after, blank byte) :
    trim blank (before ++ text ++ after) = text := by
  have hvisible : ∀ byte, isspace byte = false → blank byte = false := fun byte hbyte =>
    Bool.eq_false_iff.2 fun hblank => by simp [hspace byte hblank] at hbyte
  have hfront : (before ++ (text ++ after)).dropWhile blank = text ++ after := by
    refine dropWhile_block hbefore fun byte hbyte => hvisible byte (h.first byte ?_)
    rwa [List.head?_append_of_ne_nil _ h.nonempty] at hbyte
  have hback : (after.reverse ++ text.reverse).dropWhile blank = text.reverse := by
    refine dropWhile_block (fun byte hbyte => hafter byte (List.mem_reverse.1 hbyte))
      fun byte hbyte => hvisible byte (h.last byte ?_)
    rwa [List.head?_reverse] at hbyte
  rw [trim, List.append_assoc, hfront, List.rdropWhile, List.reverse_append, hback,
    List.reverse_reverse]

/-- A text is what trimming leaves, between blanks. -/
theorem trim_parts (blank : UInt8 → Bool) (text : Bytes) :
    ∃ before after, text = before ++ trim blank text ++ after ∧
      (∀ byte ∈ before, blank byte = true) ∧ (∀ byte ∈ after, blank byte = true) := by
  refine ⟨text.takeWhile blank, (text.dropWhile blank).rtakeWhile blank, ?_,
    fun byte hbyte => List.mem_takeWhile_imp hbyte, fun byte hbyte => List.mem_rtakeWhile_imp hbyte⟩
  rw [trim, List.append_assoc, List.rdropWhile_append_rtakeWhile, List.takeWhile_append_dropWhile]

/-- Leading blanks are the only characters that `dropWhile` loses. -/
theorem countP_dropWhile (blank : UInt8 → Bool) (text : Bytes) :
    (text.dropWhile blank).countP (fun byte => !blank byte) =
      text.countP fun byte => !blank byte := by
  induction text with
  | nil => rfl
  | cons byte text ih =>
      rw [List.dropWhile_cons]
      split
      · rename_i hbyte
        rw [ih, List.countP_cons_of_neg (by simp [hbyte])]
      · rfl

/-- Trimming keeps all characters but blanks. -/
theorem countP_trim (blank : UInt8 → Bool) (text : Bytes) :
    (trim blank text).countP (fun byte => !blank byte) =
      text.countP fun byte => !blank byte := by
  rw [trim, List.rdropWhile, List.countP_reverse, countP_dropWhile, List.countP_reverse,
    countP_dropWhile]

/-- A first character is lost by trimming exactly when it is a blank. -/
theorem trim_cons_iff {blank : UInt8 → Bool} {byte : UInt8} :
    trim blank (byte :: text) = trim blank text ↔ blank byte = true := by
  constructor
  · intro h
    have hcount := congrArg (List.countP fun byte => !blank byte) h
    by_contra hbyte
    rw [countP_trim, countP_trim, List.countP_cons_of_pos (by simpa using hbyte)] at hcount
    omega
  · intro h
    rw [trim, List.dropWhile_cons_of_pos h, trim]

/-! ## Numbers -/

/-- The character of a digit. -/
theorem digit_byte {digit : Nat} (h : digit < 10) :
    isdigit (48 + digit.toUInt8) = true ∧ (48 + digit.toUInt8).toNat - 48 = digit := by
  revert digit
  decide

/-- The characters of a printed number. -/
theorem print_digits (value : Nat) : ∀ byte ∈ printNat value, isdigit byte = true := by
  intro byte hbyte
  unfold printNat at hbyte
  split at hbyte
  · rw [List.mem_singleton.1 hbyte]
    rfl
  · obtain ⟨digit, hdigit, rfl⟩ := List.mem_map.1 hbyte
    exact (digit_byte (Nat.digits_lt_base (by omega) (List.mem_reverse.1 hdigit))).1

theorem print_ne_nil (value : Nat) : printNat value ≠ [] := by
  unfold printNat
  split
  · simp
  · rename_i hvalue
    simpa [Nat.digits_eq_nil_iff_eq_zero] using hvalue

/-- A printed number is read back. -/
theorem decimal_print (value : Nat) : decimal (printNat value) = value := by
  unfold printNat
  split
  · rename_i hvalue
    rw [hvalue]
    rfl
  · have hread : ∀ digits : List Nat, (∀ digit ∈ digits, digit < 10) →
        decimal (digits.reverse.map fun digit => 48 + digit.toUInt8) = Nat.ofDigits 10 digits := by
      intro digits hdigits
      induction digits with
      | nil => rfl
      | cons digit digits ih =>
          obtain ⟨hdigit, hdigits⟩ := List.forall_mem_cons.1 hdigits
          have hrest := ih hdigits
          unfold decimal at hrest ⊢
          rw [List.reverse_cons, List.map_append, List.foldl_append, hrest, Nat.ofDigits_cons]
          simp only [List.map_cons, List.map_nil, List.foldl_cons, List.foldl_nil,
            (digit_byte hdigit).2]
          ring
    rw [hread _ fun digit hdigit => Nat.digits_lt_base (by omega) hdigit, Nat.ofDigits_digits]

/-- Two numbers are printed differently. -/
theorem print_inj {value other : Nat} (h : printNat value = printNat other) : value = other := by
  rw [← decimal_print value, h, decimal_print]

/-- A printed number that fits is read by `std::stoul`. -/
theorem stoul_print {width value : Nat} (h : value < 2 ^ width) :
    stoul width (printNat value) = .ok value := by
  have hfits : decimal (printNat value) < 2 ^ width := by rwa [decimal_print]
  rw [stoul_digits (print_ne_nil value) (print_digits value) hfits, decimal_print]

/-- A printed number is a text without white space. -/
theorem print_visible (value : Nat) : ∀ byte ∈ printNat value, isspace byte = false :=
  fun byte hbyte => not_isspace_of_isdigit (print_digits value byte hbyte)

/-- The characters of a printed integer. -/
theorem print_int_chars (value : Int) :
    ∀ byte ∈ printInt value, isdigit byte = true ∨ byte = 45 := by
  intro byte hbyte
  unfold printInt at hbyte
  split at hbyte
  · rcases List.mem_cons.1 hbyte with rfl | hbyte
    · exact .inr rfl
    · exact .inl (print_digits _ byte hbyte)
  · exact .inl (print_digits _ byte hbyte)

theorem print_int_visible (value : Int) : ∀ byte ∈ printInt value, isspace byte = false := by
  intro byte hbyte
  rcases print_int_chars value byte hbyte with h | rfl
  · exact not_isspace_of_isdigit h
  · rfl

theorem print_int_ne_nil (value : Int) : printInt value ≠ [] := by
  unfold printInt
  split
  · simp
  · exact print_ne_nil _

@[simp] theorem print_int_natCast (value : Nat) : printInt value = printNat value := by
  rw [printInt, if_neg (by omega), Int.natAbs_natCast]

theorem length_print {value digits : Nat} (hpos : 0 < digits) (h : value < 10 ^ digits) :
    (printNat value).length ≤ digits := by
  unfold printNat
  split
  · exact hpos
  · rw [List.length_map, List.length_reverse]
    exact (Nat.digits_length_le_iff (by decide) value).2 h

/-- An `int` is printed in 11 characters at most. -/
theorem length_print_int {value : Int} (hlow : -2 ^ 31 ≤ value) (hhigh : value < 2 ^ 31) :
    (printInt value).length ≤ 11 := by
  have hdigits : (printNat value.natAbs).length ≤ 10 := length_print (by decide) (by omega)
  unfold printInt
  split
  · rw [List.length_cons]
    omega
  · omega

/-- How the number-parsing functions take a printed integer apart: nothing to skip, the sign, and
the digits up to the first other character. -/
theorem print_int_parts (value : Int) (rest : Bytes)
    (hrest : ∀ byte ∈ rest.head?, isdigit byte = false) :
    (printInt value ++ rest).dropWhile isspace = printInt value ++ rest ∧
      ((printInt value ++ rest).head? == some 45) = decide (value < 0) ∧
      ((printInt value ++ rest).head? == some 43) = false ∧
      ((if value < 0 then (printInt value ++ rest).tail else printInt value ++ rest).takeWhile
        isdigit) = printNat value.natAbs := by
  have htake := takeWhile_block (print_digits value.natAbs) hrest
  obtain ⟨first, tail, hfirst⟩ := List.exists_cons_of_ne_nil (print_ne_nil value.natAbs)
  have hdigit := print_digits value.natAbs first (by rw [hfirst]; exact List.mem_cons_self)
  have hminus : first ≠ 45 := by
    rintro rfl
    exact absurd hdigit (by decide)
  have hplus : first ≠ 43 := by
    rintro rfl
    exact absurd hdigit (by decide)
  unfold printInt
  by_cases hneg : value < 0
  · simp only [if_pos hneg, List.cons_append, List.tail_cons, htake]
    exact ⟨by rw [List.dropWhile_cons]; rfl, by simp [hneg], by simp⟩
  · simp only [if_neg hneg, htake]
    rw [hfirst, List.cons_append, List.dropWhile_cons, not_isspace_of_isdigit hdigit]
    exact ⟨rfl, by simp [hminus, hneg], by simp [hplus]⟩

/-- A printed `long` is read by `strtol`, up to the first other character. -/
theorem strtol_print_int {value : Int} (hlow : -2 ^ 63 ≤ value) (hhigh : value < 2 ^ 63)
    {rest : Bytes} (hrest : ∀ byte ∈ rest.head?, isdigit byte = false) :
    strtol (printInt value ++ rest) = value := by
  obtain ⟨hskip, hminus, hplus, hdigits⟩ := print_int_parts value rest hrest
  simp only [strtol, hskip, hminus, hplus, Bool.or_false, decide_eq_true_eq, hdigits,
    decimal_print]
  split <;> omega

/-- A printed `int` is read by `std::atoi`. -/
theorem atoi_print_int {value : Int} (hlow : -2 ^ 31 ≤ value) (hhigh : value < 2 ^ 31) :
    atoi (printInt value) = value := by
  have hread : strtol (printInt value ++ []) = value :=
    strtol_print_int (by omega) (by omega) (by simp)
  rw [List.append_nil] at hread
  rw [atoi_eq_strtol, hread]
  exact Int.bmod_eq_of_le (by omega) (by omega)

/-- `std::stoul` of a printed integer, which wraps a negative one around. -/
theorem stoul_print_int {width : Nat} {value : Int} (h : value.natAbs < 2 ^ width) :
    stoul width (printInt value) = .ok (value % 2 ^ width).toNat := by
  obtain ⟨hskip, hminus, hplus, hdigits⟩ := print_int_parts value [] (by simp)
  simp only [List.append_nil] at hskip hminus hplus hdigits
  simp only [stoul, hskip, hminus, hplus, Bool.or_false, decide_eq_true_eq, hdigits,
    decimal_print, print_ne_nil, if_false]
  rw [if_neg (by omega)]
  have hpower : ((2 : Int) ^ width) = ((2 ^ width : Nat) : Int) := by simp
  rw [hpower]
  generalize 2 ^ width = modulus at h
  split
  · have hwrap : value % modulus = value + modulus := by
      rw [← Int.add_emod_right, Int.emod_eq_of_lt (by omega) (by omega)]
    rw [hwrap, Nat.mod_eq_of_lt (by omega)]
    congr 1
    omega
  · rw [Int.emod_eq_of_lt (by omega) (by omega)]
    congr 1
    omega

end ByteString
