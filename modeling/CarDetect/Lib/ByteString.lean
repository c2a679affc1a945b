import CarDetect.Lib.BigEndian
import Mathlib.Data.List.DropRight
import Mathlib.Data.List.Infix
import Mathlib.Data.List.TakeWhile
import Mathlib.Data.Nat.Digits.Defs

/-!
# Searching and scanning byte strings

The string operations of the C and C++ standard libraries on lists of bytes: `find` and `rfind`
return the first and last position of a pattern, `isspace`, `isdigit` and `tolower` classify
characters in the C locale, `getlines` and `word` follow `std::getline` and `operator>>`, `stoul`
and `atoi` read decimal numbers. `find_eq_some_iff` and
`find_eq_none_iff` characterise the search for the first position, and `find_pair_append` finds
the separator that ends a line.
-/

namespace ByteString

open BigEndian

/-! ## Search -/

/-- The position of the first occurrence of `pattern`. -/
def find (pattern : Bytes) : Bytes → Option Nat
  | [] => if pattern = [] then some 0 else none
  | byte :: rest =>
      if pattern.isPrefixOf (byte :: rest) then some 0 else (find pattern rest).map (· + 1)

/-- The position of the last occurrence of `pattern`. -/
def rfind (pattern : Bytes) : Bytes → Option Nat
  | [] => if pattern = [] then some 0 else none
  | byte :: rest =>
      match rfind pattern rest with
      | some position => some (position + 1)
      | none => if pattern.isPrefixOf (byte :: rest) then some 0 else none

variable {pattern text : Bytes} {position : Nat}

/-- An occurrence of a nonempty pattern ends inside the text. -/
theorem occurrence_le (h : pattern <+: text.drop position) (hne : pattern ≠ []) :
    position + pattern.length ≤ text.length := by
  have hlength := h.length_le
  have hpos := List.length_pos_iff.2 hne
  rw [List.length_drop] at hlength
  omega

/-- What `find` returns: an occurrence, and no occurrence before it. -/
theorem find_eq_some_iff (hne : pattern ≠ []) :
    find pattern text = some position ↔
      pattern <+: text.drop position ∧ ∀ earlier < position, ¬ pattern <+: text.drop earlier := by
  induction text generalizing position with
  | nil => simp [find, hne]
  | cons byte rest ih =>
      by_cases hhead : pattern <+: byte :: rest
      · rw [find, if_pos (List.isPrefixOf_iff_prefix.2 hhead)]
        constructor
        · rintro h
          cases h
          exact ⟨hhead, by simp⟩
        · rintro ⟨-, hfirst⟩
          cases position with
          | zero => rfl
          | succ n => exact absurd hhead (hfirst 0 (Nat.succ_pos n))
      · rw [find, if_neg (fun h => hhead (List.isPrefixOf_iff_prefix.1 h))]
        cases position with
        | zero => simpa using hhead
        | succ n =>
            rw [Option.map_eq_some_iff]
            simp only [Nat.add_right_cancel_iff, exists_eq_right, ih, List.drop_succ_cons]
            refine and_congr_right fun _ => ⟨fun h earlier hearlier => ?_, fun h earlier hearlier =>
              h (earlier + 1) (Nat.succ_lt_succ hearlier)⟩
            cases earlier with
            | zero => exact hhead
            | succ earlier => exact h earlier (Nat.lt_of_succ_lt_succ hearlier)

/-- What it means that `find` returns nothing. -/
theorem find_eq_none_iff (hne : pattern ≠ []) :
    find pattern text = none ↔ ∀ position, ¬ pattern <+: text.drop position := by
  induction text with
  | nil => simp [find, hne]
  | cons byte rest ih =>
      by_cases hhead : pattern <+: byte :: rest
      · rw [find, if_pos (List.isPrefixOf_iff_prefix.2 hhead)]
        simp only [reduceCtorEq, false_iff, not_forall, not_not]
        exact ⟨0, hhead⟩
      · rw [find, if_neg (fun h => hhead (List.isPrefixOf_iff_prefix.1 h)),
          Option.map_eq_none_iff, ih]
        refine ⟨fun h position => ?_, fun h position => h (position + 1)⟩
        cases position with
        | zero => exact hhead
        | succ position => exact h position

/-- The first occurrence stays the first when the text goes on. -/
theorem find_append (hne : pattern ≠ []) (h : find pattern text = some position) (rest : Bytes) :
    find pattern (text ++ rest) = some position := by
  obtain ⟨hhere, hfirst⟩ := (find_eq_some_iff hne).1 h
  have hinside := occurrence_le hhere hne
  refine (find_eq_some_iff hne).2 ⟨?_, fun earlier hearlier hleading => ?_⟩
  · rw [List.drop_append_of_le_length (by omega)]
    exact hhere.trans (List.prefix_append _ _)
  · refine hfirst earlier hearlier ?_
    rw [List.drop_append_of_le_length (by omega)] at hleading
    refine List.prefix_of_prefix_length_le hleading (List.prefix_append _ _) ?_
    rw [List.length_drop]
    omega

/-- An occurrence in a leading part is the first of the whole text as far as that part shows. -/
theorem find_leading {leading : Bytes} (hne : pattern ≠ []) (hleading : leading <+: text)
    (h : find pattern text = some position) (hinside : position + pattern.length ≤ leading.length) :
    find pattern leading = some position := by
  obtain ⟨hhere, hfirst⟩ := (find_eq_some_iff hne).1 h
  refine (find_eq_some_iff hne).2 ⟨?_, fun earlier hearlier hoccurs => ?_⟩
  · refine List.prefix_of_prefix_length_le hhere (hleading.drop position) ?_
    rw [List.length_drop]
    omega
  · exact hfirst earlier hearlier (hoccurs.trans (hleading.drop earlier))

/-- A leading part that ends before the first occurrence does has none. -/
theorem find_cut {leading : Bytes} (hne : pattern ≠ []) (hleading : leading <+: text)
    (h : find pattern text = some position) (hcut : leading.length < position + pattern.length) :
    find pattern leading = none := by
  obtain ⟨-, hfirst⟩ := (find_eq_some_iff hne).1 h
  refine (find_eq_none_iff hne).2 fun earlier hearlier => ?_
  have hinside := occurrence_le hearlier hne
  exact hfirst earlier (by omega) (hearlier.trans (hleading.drop earlier))

/-- A two-byte separator after a text without it is found at the end of the text. -/
theorem find_pair_append {first second : UInt8} (hne : first ≠ second) {line rest : Bytes}
    (h : find [first, second] line = none) :
    find [first, second] (line ++ first :: second :: rest) = some line.length := by
  induction line with
  | nil => simp [find]
  | cons byte line ih =>
      have hhead : ¬ [first, second].isPrefixOf (byte :: line) = true := by
        intro hleading
        rw [find, if_pos hleading] at h
        cases h
      rw [find, if_neg hhead, Option.map_eq_none_iff] at h
      have hjoined : ¬ [first, second].isPrefixOf (byte :: (line ++ first :: second :: rest)) := by
        intro hleading
        cases line with
        | nil =>
            simp only [List.nil_append, List.isPrefixOf_iff_prefix,
              List.cons_prefix_cons] at hleading
            exact hne hleading.2.1.symm
        | cons next line =>
            simp only [List.cons_append, List.isPrefixOf_iff_prefix,
              List.cons_prefix_cons] at hleading
            refine hhead ?_
            simp only [List.isPrefixOf_iff_prefix, List.cons_prefix_cons, List.nil_prefix, and_true]
            exact ⟨hleading.1, hleading.2.1⟩
      rw [List.cons_append, find, if_neg hjoined, ih h]
      rfl

/-- No occurrence of the pattern begins in the block, whatever stands behind it. -/
def Misses (pattern block : Bytes) : Prop :=
  ∀ position < block.length,
    ¬ pattern <+: block.drop position ∧ ¬ block.drop position <+: pattern

instance (pattern block : Bytes) : Decidable (Misses pattern block) :=
  inferInstanceAs (Decidable (∀ position < block.length,
    ¬ pattern <+: block.drop position ∧ ¬ block.drop position <+: pattern))

theorem Misses.not_prefix {block rest : Bytes} (h : Misses pattern block)
    (hposition : position < block.length) : ¬ pattern <+: (block ++ rest).drop position := by
  rw [List.drop_append_of_le_length hposition.le]
  intro hleading
  obtain ⟨hinside, hacross⟩ := h position hposition
  exact (List.prefix_or_prefix_of_prefix hleading (List.prefix_append _ rest)).elim hinside hacross

theorem Misses.append {block rest : Bytes} (h : Misses pattern block)
    (hrest : Misses pattern rest) : Misses pattern (block ++ rest) := by
  intro position hposition
  by_cases hblock : position < block.length
  · refine ⟨h.not_prefix hblock, fun hwhole => (h position hblock).2 ?_⟩
    rw [List.drop_append_of_le_length hblock.le] at hwhole
    exact (List.prefix_append _ rest).trans hwhole
  · rw [List.length_append] at hposition
    rw [List.drop_append, List.drop_eq_nil_of_le (by omega), List.nil_append]
    exact hrest (position - block.length) (by omega)

/-- A block without the first character of the pattern. -/
theorem misses_of_head {first : UInt8} {block : Bytes} (h : ∀ byte ∈ block, byte ≠ first) :
    Misses (first :: pattern) block := by
  intro position hposition
  have hne := h _ (List.getElem_mem hposition)
  rw [List.drop_eq_getElem_cons hposition, List.cons_prefix_cons, List.cons_prefix_cons]
  exact ⟨fun hleading => hne hleading.1.symm, fun hleading => hne hleading.1⟩

/-- The first occurrence stands behind a block that misses the pattern. -/
theorem find_behind {block : Bytes} (hne : pattern ≠ []) (h : Misses pattern block)
    (rest : Bytes) : find pattern (block ++ (pattern ++ rest)) = some block.length := by
  refine (find_eq_some_iff hne).2 ⟨?_, fun earlier hearlier => h.not_prefix hearlier⟩
  rw [List.drop_left]
  exact List.prefix_append _ _

theorem find_missed (hne : pattern ≠ []) (h : Misses pattern text) : find pattern text = none := by
  refine (find_eq_none_iff hne).2 fun position hleading => ?_
  by_cases hposition : position < text.length
  · exact (h position hposition).1 hleading
  · rw [List.drop_eq_nil_of_le (by omega)] at hleading
    exact hne (List.prefix_nil.1 hleading)

/-- A pattern is found in a text that contains it. -/
theorem find_isSome_iff : (find pattern text).isSome ↔ pattern <:+: text := by
  induction text with
  | nil => simp [find, apply_ite]
  | cons byte rest ih =>
      rw [find, List.infix_cons_iff, ← ih]
      split
      · rename_i hleading
        simp [List.isPrefixOf_iff_prefix.1 hleading]
      · rename_i hleading
        rw [Option.isSome_map]
        simp [mt List.isPrefixOf_iff_prefix.2 hleading]

/-- `rfind` returns nothing for a text that does not contain the pattern. -/
theorem rfind_eq_none_iff : rfind pattern text = none ↔ ¬ pattern <:+: text := by
  induction text with
  | nil => simp [rfind]
  | cons byte rest ih =>
      rw [rfind, List.infix_cons_iff, not_or, ← ih, ← List.isPrefixOf_iff_prefix]
      cases rfind pattern rest <;> simp

/-- A text of two parts with a separator between them occurs in another such text only across the
separators. -/
theorem infix_separated {separator : UInt8} {first second front back : Bytes}
    (hfront : separator ∉ front) (hback : separator ∉ back) :
    first ++ separator :: second <:+: front ++ separator :: back ↔
      first <:+ front ∧ second <+: back := by
  constructor
  · rintro ⟨before, after, heq⟩
    have hsplit : front ++ separator :: back =
        (before ++ first) ++ separator :: (second ++ after) := by
      rw [← heq]
      simp
    obtain ⟨hleft, -, hright⟩ := (List.append_cons_inj_of_notMem hfront hback).1 hsplit
    exact ⟨⟨before, hleft.symm⟩, ⟨after, hright.symm⟩⟩
  · rintro ⟨⟨before, rfl⟩, ⟨after, rfl⟩⟩
    exact ⟨before, after, by simp⟩

/-- A text ends in front of a character that it does not have. -/
theorem prefix_in_front {first text rest : Bytes} (hrest : ∀ byte ∈ rest.head?, byte ∉ first) :
    first <+: text ++ rest ↔ first <+: text := by
  constructor
  · intro hleading
    rcases List.prefix_or_prefix_of_prefix hleading (List.prefix_append text rest) with h | h
    · exact h
    · obtain ⟨tail, rfl⟩ := h
      rw [List.prefix_append_right_inj] at hleading
      cases tail with
      | nil => simp
      | cons byte tail =>
          obtain ⟨after, rfl⟩ := hleading
          exact absurd (List.mem_append_right text List.mem_cons_self) (hrest byte rfl)
  · exact fun h => h.trans (List.prefix_append text rest)

/-- Skipping a block of characters stops at the first that does not belong to it. -/
theorem dropWhile_block {p : UInt8 → Bool} {block rest : Bytes} (hblock : ∀ byte ∈ block, p byte)
    (hrest : ∀ byte ∈ rest.head?, p byte = false) : (block ++ rest).dropWhile p = rest := by
  rw [List.dropWhile_append_of_pos hblock]
  cases rest with
  | nil => rfl
  | cons byte rest => simp [hrest byte rfl]

/-- Taking a block of characters stops at the first that does not belong to it. -/
theorem takeWhile_block {p : UInt8 → Bool} {block rest : Bytes} (hblock : ∀ byte ∈ block, p byte)
    (hrest : ∀ byte ∈ rest.head?, p byte = false) : (block ++ rest).takeWhile p = block := by
  rw [List.takeWhile_append_of_pos hblock]
  cases rest with
  | nil => simp
  | cons byte rest => simp [hrest byte rfl]

/-! ## Characters -/

/-- `isspace` in the C locale. -/
def isspace (byte : UInt8) : Bool :=
  byte == 32 || (9 ≤ byte && byte ≤ 13)

/-- `isdigit` -/
def isdigit (byte : UInt8) : Bool :=
  48 ≤ byte && byte ≤ 57

/-- `tolower` in the C locale. -/
def tolower (byte : UInt8) : UInt8 :=
  if 65 ≤ byte && byte ≤ 90 then byte + 32 else byte

/-- The bytes of an ASCII text. -/
def ascii (text : String) : Bytes :=
  text.toList.map fun c => c.toNat.toUInt8

/-- A text without the characters of a class at its two ends. -/
def trim (blank : UInt8 → Bool) (text : Bytes) : Bytes :=
  (text.dropWhile blank).rdropWhile blank

/-- The lines that successive calls of `std::getline` read. -/
def getlines : Bytes → List Bytes
  | [] => []
  | byte :: rest =>
      if byte = 10 then [] :: getlines rest
      else
        match getlines rest with
        | [] => [[byte]]
        | line :: lines => (byte :: line) :: lines

/-- `operator>>` into a string: the word read, and the text after it. -/
def word (text : Bytes) : Bytes × Bytes :=
  (text.dropWhile isspace).span fun byte => !isspace byte

/-! ## Numbers -/

/-- The number written by decimal digits. -/
def decimal (digits : Bytes) : Nat :=
  digits.foldl (fun value digit => value * 10 + (digit.toNat - 48)) 0

/-- The exceptions of the number-parsing functions of C++. -/
inductive ConversionError where
  | invalidArgument
  | outOfRange
deriving DecidableEq, Repr

/-- `std::stoul` in base 10, for an `unsigned long` of `width` bits: blanks, an optional sign and
digits. A negative number wraps around. -/
def stoul (width : Nat) (text : Bytes) : Except ConversionError Nat :=
  let trimmed := text.dropWhile isspace
  let negative := trimmed.head? == some 45
  let unsigned := if negative || trimmed.head? == some 43 then trimmed.tail else trimmed
  let digits := unsigned.takeWhile isdigit
  if digits = [] then .error .invalidArgument
  else if decimal digits ≥ 2 ^ width then .error .outOfRange
  else if negative then .ok ((2 ^ width - decimal digits) % 2 ^ width)
  else .ok (decimal digits)

/-- `std::atoi`: `strtol` in base 10 for a `long` of 64 bits, which stops at the bounds of its type,
and then the conversion to an `int` of 32 bits. -/
def atoi (text : Bytes) : Int :=
  let trimmed := text.dropWhile isspace
  let negative := trimmed.head? == some 45
  let unsigned := if negative || trimmed.head? == some 43 then trimmed.tail else trimmed
  let magnitude : Int := decimal (unsigned.takeWhile isdigit)
  let value := if negative then -magnitude else magnitude
  (max (-2 ^ 63) (min (2 ^ 63 - 1) value)).bmod (2 ^ 32)

/-- `strtol` in base 10 for a `long` of 64 bits, which stops at the bounds of its type. -/
def strtol (text : Bytes) : Int :=
  let trimmed := text.dropWhile isspace
  let negative := trimmed.head? == some 45
  let unsigned := if negative || trimmed.head? == some 43 then trimmed.tail else trimmed
  let magnitude : Int := decimal (unsigned.takeWhile isdigit)
  let value := if negative then -magnitude else magnitude
  max (-2 ^ 63) (min (2 ^ 63 - 1) value)

/-- `strcasestr`: `find` for which lower case and upper case are the same. -/
def strcasestr (pattern text : Bytes) : Option Nat :=
  find (pattern.map tolower) (text.map tolower)

/-- `operator<<` of an unsigned number. -/
def printNat (value : Nat) : Bytes :=
  if value = 0 then [48] else (Nat.digits 10 value).reverse.map fun digit => 48 + digit.toUInt8

/-- `operator<<` of an `int`, and `%d`. -/
def printInt (value : Int) : Bytes :=
  if value < 0 then 45 :: printNat value.natAbs else printNat value.natAbs

theorem atoi_eq_strtol (text : Bytes) : atoi text = (strtol text).bmod (2 ^ 32) := rfl

theorem not_isspace_of_isdigit {byte : UInt8} (h : isdigit byte = true) : isspace byte = false := by
  obtain ⟨bits⟩ := byte
  revert bits
  decide

/-- How the number-parsing functions take digits apart: nothing to skip, no sign, and all of
them. -/
theorem digits_parts {digits : Bytes} (hne : digits ≠ [])
    (hdigits : ∀ digit ∈ digits, isdigit digit = true) :
    digits.dropWhile isspace = digits ∧ (digits.head? == some 45) = false ∧
      (digits.head? == some 43) = false ∧ digits.takeWhile isdigit = digits := by
  obtain ⟨first, rest, rfl⟩ := List.exists_cons_of_ne_nil hne
  have hfirst := hdigits first List.mem_cons_self
  have hminus : ¬ first = 45 := by
    rintro rfl
    exact absurd hfirst (by decide)
  have hplus : ¬ first = 43 := by
    rintro rfl
    exact absurd hfirst (by decide)
  refine ⟨?_, by simp [hminus], by simp [hplus], List.takeWhile_eq_self_iff.2 hdigits⟩
  rw [List.dropWhile_cons, not_isspace_of_isdigit hfirst]
  rfl

/-- A number written without sign and blanks is read as it stands, when it fits. -/
theorem stoul_all_digits {width : Nat} {digits : Bytes} (hne : digits ≠ [])
    (hdigits : ∀ digit ∈ digits, isdigit digit = true) :
    stoul width digits =
      if decimal digits < 2 ^ width then .ok (decimal digits) else .error .outOfRange := by
  obtain ⟨hskip, hminus, hplus, hall⟩ := digits_parts hne hdigits
  by_cases hfits : decimal digits < 2 ^ width
  · have hsmall : ¬ 2 ^ width ≤ decimal digits := by omega
    simp [stoul, hskip, hminus, hplus, hall, hne, hfits, hsmall]
  · have hlarge : 2 ^ width ≤ decimal digits := by omega
    simp [stoul, hskip, hminus, hplus, hall, hne, hfits, hlarge]

theorem stoul_digits {width : Nat} {digits : Bytes} (hne : digits ≠ [])
    (hdigits : ∀ digit ∈ digits, isdigit digit = true) (hfits : decimal digits < 2 ^ width) :
    stoul width digits = .ok (decimal digits) := by
  rw [stoul_all_digits hne hdigits, if_pos hfits]

theorem atoi_digits {digits : Bytes} (hne : digits ≠ [])
    (hdigits : ∀ digit ∈ digits, isdigit digit = true) (hfits : decimal digits < 2 ^ 31) :
    atoi digits = decimal digits := by
  obtain ⟨hskip, hminus, hplus, hall⟩ := digits_parts hne hdigits
  have hread : strtol digits = decimal digits := by
    simp only [strtol, hskip, hminus, hplus, Bool.or_false, Bool.false_eq_true, if_false, hall]
    omega
  rw [atoi_eq_strtol, hread]
  exact Int.bmod_eq_of_le (by omega) (by omega)

end ByteString
