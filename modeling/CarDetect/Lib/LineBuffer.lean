import Mathlib.Data.List.DropRight
import Mathlib.Data.List.TakeWhile
import Mathlib.Tactic.Linarith

/-!
# Lines read through a buffer

A loop that reads a text line by line through a buffer of `width` elements takes a longer line in
pieces: it stops where the buffer is full, and goes on there as if a line began. `lineStarts` are
the places where lines begin and `pieceStarts` those where the loop begins a round; a place is what
the text holds from there on. `piece_starts_eq` says that the rounds go through the lines one after
another and cut each of them every `width` elements. `last_pieces_iff` compares the last piece with
a mark to the last line with one.
-/

namespace LineBuffer

universe u v

variable {α : Type u} {β : Type v}

/-! ## Lines and pieces -/

section Text

variable [DecidableEq α] (sep : α) (width : Nat)

/-- The line that begins here. -/
def lineAt (text : List α) : List α := text.takeWhile (· ≠ sep)

/-- What stands behind the line that begins here and behind the separator that ends it. -/
def afterLine (text : List α) : List α := (text.dropWhile (· ≠ sep)).tail

/-- The places behind the separators. A separator at the end of the text begins no line. -/
def behindSeps : List α → List (List α)
  | [] => []
  | first :: rest =>
      if first = sep ∧ rest ≠ [] then rest :: behindSeps rest else behindSeps rest

/-- The places where the lines of a text begin. -/
def lineStarts (text : List α) : List (List α) :=
  if text = [] then [] else text :: behindSeps sep text

/-- What a round reads that begins here. -/
def pieceAt (text : List α) : List α := (lineAt sep text).take width

/-- Where the next round begins: a separator behind the piece is skipped. -/
def afterPiece (text : List α) : List α :=
  let rest := text.drop (pieceAt sep width text).length
  if rest.head? = some sep then rest.tail else rest

/-- The places where the rounds of the loop begin, for less than `fuel` rounds. -/
def pieceStarts : Nat → List α → List (List α)
  | 0, _ => []
  | fuel + 1, text =>
      if text = [] then [] else text :: pieceStarts fuel (afterPiece sep width text)

/-- The places where a line is cut: at its beginning, and behind each full buffer. -/
def cuts (text : List α) : List (List α) :=
  (List.range (((lineAt sep text).length - 1) / width + 1)).map fun k => text.drop (width * k)

variable {sep width} {text : List α}

/-- The lines behind the first one. -/
theorem behind_seps_eq (text : List α) :
    behindSeps sep text = lineStarts sep (afterLine sep text) := by
  induction text with
  | nil => rfl
  | cons first rest ih =>
      rw [behindSeps, afterLine]
      by_cases hfirst : first = sep
      · rw [List.dropWhile_cons_of_neg (by simpa using hfirst), List.tail_cons, lineStarts]
        by_cases hrest : rest = []
        · rw [if_neg (by simp [hrest]), if_pos hrest, hrest]
          rfl
        · rw [if_pos ⟨hfirst, hrest⟩, if_neg hrest]
      · rw [if_neg (fun h => hfirst h.1), List.dropWhile_cons_of_pos (by simpa using hfirst), ih]
        rfl

theorem line_starts_eq (h : text ≠ []) :
    lineStarts sep text = text :: lineStarts sep (afterLine sep text) := by
  rw [lineStarts, if_neg h, behind_seps_eq]

/-- A place inside of a line. -/
theorem drop_in_line {n : Nat} (h : n ≤ (lineAt sep text).length) :
    lineAt sep (text.drop n) = (lineAt sep text).drop n ∧
      afterLine sep (text.drop n) = afterLine sep text := by
  have hfront : ∀ x ∈ text.take n, (decide (x ≠ sep)) = true := by
    intro x hx
    have hmem : x ∈ text.takeWhile (· ≠ sep) := by
      have htake : (lineAt sep text ++ text.dropWhile (· ≠ sep)).take n =
          (lineAt sep text).take n := List.take_append_of_le_length h
      rw [lineAt, List.takeWhile_append_dropWhile] at htake
      rw [htake] at hx
      exact List.mem_of_mem_take hx
    exact List.mem_takeWhile_imp (p := fun x => decide (x ≠ sep)) hmem
  have hlength : (text.take n).length = n :=
    List.length_take_of_le (h.trans (List.takeWhile_prefix _).length_le)
  constructor
  · have hline : lineAt sep (text.take n ++ text.drop n) =
        text.take n ++ lineAt sep (text.drop n) := List.takeWhile_append_of_pos hfront
    rw [List.take_append_drop] at hline
    rw [hline, List.drop_left' hlength]
  · have hline : afterLine sep (text.take n ++ text.drop n) = afterLine sep (text.drop n) := by
      rw [afterLine, List.dropWhile_append_of_pos hfront]
      rfl
    rw [List.take_append_drop] at hline
    exact hline.symm

/-- A separator or nothing stands behind a line. -/
theorem drop_line (sep : α) (text : List α) :
    text.drop (lineAt sep text).length = text.dropWhile (· ≠ sep) ∧
      ∀ x ∈ (text.dropWhile (· ≠ sep)).head?, x = sep := by
  constructor
  · have hdrop : (lineAt sep text ++ text.dropWhile (· ≠ sep)).drop (lineAt sep text).length =
        text.dropWhile (· ≠ sep) := List.drop_left
    rw [lineAt, List.takeWhile_append_dropWhile] at hdrop
    exact hdrop
  · intro x hx
    have hhead := List.head?_dropWhile_not (fun x => decide (x ≠ sep)) text
    rw [Option.mem_def.1 hx] at hhead
    simpa using hhead

/-- A round that reads the rest of a line goes on behind the line. -/
theorem after_piece_end (h : (lineAt sep text).length ≤ width) :
    afterPiece sep width text = afterLine sep text := by
  obtain ⟨hdrop, hhead⟩ := drop_line sep text
  have hpiece : pieceAt sep width text = lineAt sep text := List.take_of_length_le h
  rw [afterPiece, hpiece, hdrop, afterLine]
  cases hrest : text.dropWhile (· ≠ sep) with
  | nil => rfl
  | cons first rest =>
      have hfirst : first = sep := hhead first (by rw [hrest]; rfl)
      rw [hfirst]
      exact if_pos rfl

/-- A round that fills the buffer goes on inside of the line. -/
theorem after_piece_full (h : width < (lineAt sep text).length) :
    afterPiece sep width text = text.drop width := by
  have hlength : (pieceAt sep width text).length = width := List.length_take_of_le h.le
  have hline : lineAt sep (text.drop width) ≠ [] := by
    rw [(drop_in_line h.le).1]
    exact fun hnil => absurd h (Nat.not_lt.2 (List.drop_eq_nil_iff.1 hnil))
  rw [afterPiece, hlength]
  refine if_neg fun hhead => hline ?_
  cases hrest : text.drop width with
  | nil => rfl
  | cons first rest =>
      rw [hrest] at hhead
      exact List.takeWhile_cons_of_neg (by simpa using hhead)

/-- A line that fits in the buffer is not cut. -/
theorem cuts_short (hwidth : 0 < width) (h : (lineAt sep text).length ≤ width) :
    cuts sep width text = [text] := by
  have hzero : ((lineAt sep text).length - 1) / width = 0 := Nat.div_eq_of_lt (by omega)
  rw [cuts, hzero]
  simp

/-- A longer line is cut behind a full buffer, and then as the rest of the line is. -/
theorem cuts_long (hwidth : 0 < width) (h : width < (lineAt sep text).length) :
    cuts sep width text = text :: cuts sep width (text.drop width) := by
  have hcount : ((lineAt sep text).length - 1) / width =
      ((lineAt sep text).length - width - 1) / width + 1 := by
    rw [← Nat.add_div_right _ hwidth]
    congr 1
    omega
  rw [cuts, cuts, (drop_in_line h.le).1, List.length_drop, hcount, List.range_succ_eq_map,
    List.map_cons, List.map_map, Nat.mul_zero, List.drop_zero]
  congr 1
  refine List.map_congr_left fun k _ => ?_
  rw [Function.comp_apply, List.drop_drop]
  rw [Nat.mul_succ, Nat.add_comm]

theorem after_piece_suffix (text : List α) : afterPiece sep width text <:+ text := by
  show (if (text.drop (pieceAt sep width text).length).head? = some sep then _ else _) <:+ text
  split
  · exact (List.tail_suffix _).trans (List.drop_suffix _ _)
  · exact List.drop_suffix _ _

/-- Every round goes on. -/
theorem length_after_piece (hwidth : 0 < width) (h : text ≠ []) :
    (afterPiece sep width text).length < text.length := by
  have hpos := List.length_pos_iff.2 h
  rcases Nat.lt_or_ge width (lineAt sep text).length with hfull | hend
  · rw [after_piece_full hfull, List.length_drop]
    omega
  · have hle : (text.dropWhile (· ≠ sep)).length ≤ text.length :=
      (List.dropWhile_suffix _).length_le
    rw [after_piece_end hend, afterLine, List.length_tail]
    omega

/-- The rounds go through the lines in order, and through each of them from cut to cut. -/
theorem piece_starts_eq (hwidth : 0 < width) {fuel : Nat} (hfuel : text.length < fuel) :
    pieceStarts sep width fuel text = (lineStarts sep text).flatMap (cuts sep width) := by
  induction fuel generalizing text with
  | zero => omega
  | succ fuel ih =>
      rw [pieceStarts]
      split
      · rename_i hnil
        rw [hnil]
        rfl
      · rename_i hne
        have hnext : (afterPiece sep width text).length < text.length :=
          length_after_piece hwidth hne
        rw [ih (by omega), line_starts_eq hne, List.flatMap_cons]
        rcases Nat.lt_or_ge width (lineAt sep text).length with hfull | hend
        · have hrest : text.drop width ≠ [] := by
            have hle : (lineAt sep text).length ≤ text.length :=
              (List.takeWhile_prefix _).length_le
            exact fun hnil => absurd (List.drop_eq_nil_iff.1 hnil) (by omega)
          rw [after_piece_full hfull, line_starts_eq hrest, List.flatMap_cons,
            (drop_in_line hfull.le).2, cuts_long hwidth hfull, List.cons_append]
        · rw [after_piece_end hend, cuts_short hwidth hend, List.singleton_append]

end Text

/-! ## The last place with a mark -/

section Last

variable {γ : Type u} {mark whole part : γ → Option β} {marked good : γ → Prop} {place : γ}
  {value : β} {places lines : List γ} {cutsOf : γ → List γ}

/-- The last place with a mark, and its mark. -/
def lastSome (mark : γ → Option β) (places : List γ) : Option (γ × β) :=
  (places.filterMap fun place => (mark place).map (Prod.mk place)).getLast?

/-- Each place with no marked place behind it is good. -/
def FromLast (marked good : γ → Prop) : List γ → Prop
  | [] => True
  | place :: later => (good place ∨ ∃ other ∈ later, marked other) ∧ FromLast marked good later

theorem last_some_append (places others : List γ) :
    lastSome mark (places ++ others) = (lastSome mark others).or (lastSome mark places) := by
  rw [lastSome, List.filterMap_append, List.getLast?_append]
  rfl

theorem last_some_singleton (place : γ) :
    lastSome mark [place] = (mark place).map (Prod.mk place) := by
  unfold lastSome
  cases hmark : mark place <;> simp [hmark]

theorem last_some_cons (place : γ) (places : List γ) :
    lastSome mark (place :: places) =
      (lastSome mark places).or ((mark place).map (Prod.mk place)) := by
  rw [← List.singleton_append, last_some_append, last_some_singleton]

theorem mem_of_last_some (h : lastSome mark places = some (place, value)) :
    place ∈ places ∧ mark place = some value := by
  obtain ⟨other, hother, hmark⟩ := List.mem_filterMap.1 (List.mem_of_getLast? h)
  obtain ⟨found, hfound, heq⟩ := Option.map_eq_some_iff.1 hmark
  cases heq
  exact ⟨hother, hfound⟩

theorem last_some_eq_none_iff :
    lastSome mark places = none ↔ ∀ place ∈ places, mark place = none := by
  rw [lastSome, List.getLast?_eq_none_iff, List.filterMap_eq_nil_iff]
  simp

/-- Whether lines have marks, and not where they are, decides which of them need to be good. -/
theorem from_last_map {δ : Type u} (f : δ → γ) (places : List δ) :
    FromLast marked good (places.map f) ↔
      FromLast (fun place => marked (f place)) (fun place => good (f place)) places := by
  induction places with
  | nil => exact Iff.rfl
  | cons place later ih =>
      rw [List.map_cons, FromLast, FromLast, ih]
      simp

theorem last_some_isSome_iff :
    (lastSome mark places).isSome ↔ ∃ place ∈ places, (mark place).isSome := by
  rw [← not_iff_not, Option.not_isSome_iff_eq_none, last_some_eq_none_iff]
  simp

/-- Two last values, each put together from a later and an earlier one that cannot be mistaken for
the later one of the other. -/
theorem or_eq_or_iff {late early other last : Option β}
    (hearly : ∀ value, early = some value → other ≠ some value)
    (hlast : ∀ value, late = some value → last ≠ some value) :
    late.or early = other.or last ↔ (early = last ∨ other.isSome) ∧ late = other := by
  cases late with
  | none =>
      cases other with
      | none => simp
      | some value => simpa using fun h => hearly value h rfl
  | some value =>
      cases other with
      | none => simpa using fun h => hlast value rfl h.symm
      | some found => simp

theorem from_last_of_forall (h : ∀ place ∈ places, good place) : FromLast marked good places := by
  induction places with
  | nil => trivial
  | cons place later ih =>
      obtain ⟨hplace, hlater⟩ := List.forall_mem_cons.1 h
      exact ⟨.inl hplace, ih hlater⟩

theorem from_last_congr {other : γ → Prop} (h : ∀ place ∈ places, good place ↔ other place) :
    FromLast marked good places ↔ FromLast marked other places := by
  induction places with
  | nil => exact Iff.rfl
  | cons place later ih =>
      obtain ⟨hplace, hlater⟩ := List.forall_mem_cons.1 h
      rw [FromLast, FromLast, hplace, ih hlater]

/-- The last marked cut of all lines is the last marked line exactly when the lines from the last
marked one on are cut in the right way. -/
theorem last_flatMap_iff
    (hapart : lines.Pairwise fun line other => List.Disjoint (cutsOf line) (cutsOf other))
    (hmem : ∀ line ∈ lines, line ∈ cutsOf line) :
    lastSome part (lines.flatMap cutsOf) = lastSome whole lines ↔
      FromLast (fun line => (whole line).isSome)
        (fun line => lastSome part (cutsOf line) = (whole line).map (Prod.mk line)) lines := by
  induction lines with
  | nil => exact iff_of_true rfl trivial
  | cons line later ih =>
      obtain ⟨hline, hlater⟩ := List.pairwise_cons.1 hapart
      obtain ⟨hhere, hbehind⟩ := List.forall_mem_cons.1 hmem
      have hapart' : List.Disjoint (cutsOf line) (later.flatMap cutsOf) := by
        intro place hplace hother
        obtain ⟨other, hmem, hcut⟩ := List.mem_flatMap.1 hother
        exact hline other hmem hplace hcut
      rw [List.flatMap_cons, last_some_append, last_some_cons, FromLast, ← ih hlater hbehind,
        or_eq_or_iff ?cut ?line, last_some_isSome_iff]
      case cut =>
        rintro ⟨place, value⟩ hcut hlast
        have hplace := (mem_of_last_some hlast).1
        exact hapart' (mem_of_last_some hcut).1
          (List.mem_flatMap.2 ⟨place, hplace, hbehind place hplace⟩)
      case line =>
        rintro ⟨place, value⟩ hcut hwhole
        obtain ⟨found, -, heq⟩ := Option.map_eq_some_iff.1 hwhole
        cases heq
        exact hapart' hhere (mem_of_last_some hcut).1

end Last

/-! ## Marks of lines -/

section Marks

variable [DecidableEq α] {sep : α} {width : Nat} {text : List α} {mark : List α → Option β}

/-- The lines of a text. -/
def linesOf (sep : α) (text : List α) : List (List α) := (lineStarts sep text).map (lineAt sep)

/-- None of the pieces behind the first has a mark. -/
def NoFragment (mark : List α → Option β) (width : Nat) (line : List α) : Prop :=
  ∀ k, 0 < k → width * k < line.length → mark ((line.drop (width * k)).take width) = none

omit [DecidableEq α] in
theorem no_fragment_short {line : List α} (h : line.length ≤ width) :
    NoFragment mark width line := by
  intro k hpos hk
  have hle : width ≤ width * k := Nat.le_mul_of_pos_right width hpos
  omega

theorem mem_cuts_iff (hwidth : 0 < width) {place : List α} :
    place ∈ cuts sep width text ↔
      ∃ k, width * k ≤ (lineAt sep text).length - 1 ∧ text.drop (width * k) = place := by
  simp only [cuts, List.mem_map, List.mem_range, Nat.lt_succ_iff, Nat.le_div_iff_mul_le hwidth,
    Nat.mul_comm]

theorem mem_cuts_self : text ∈ cuts sep width text :=
  List.mem_map.2 ⟨0, by simp, by simp⟩

/-- The cuts of a line stand in front of what follows the line. -/
theorem length_of_cut (hwidth : 0 < width) (h : text ≠ []) {place : List α}
    (hplace : place ∈ cuts sep width text) :
    (afterLine sep text).length < place.length ∧ place.length ≤ text.length := by
  obtain ⟨k, hk, rfl⟩ := (mem_cuts_iff hwidth).1 hplace
  have hpos := List.length_pos_iff.2 h
  have hline : (lineAt sep text).length ≤ text.length := (List.takeWhile_prefix _).length_le
  have hbehind : (afterLine sep text).length = text.length - (lineAt sep text).length - 1 := by
    rw [afterLine, List.length_tail, ← (drop_line sep text).1, List.length_drop]
  rw [hbehind, List.length_drop]
  omega

theorem length_after_line (h : text ≠ []) : (afterLine sep text).length < text.length :=
  (length_of_cut Nat.one_pos h mem_cuts_self).1

/-- Induction over the lines of a text. -/
theorem line_induction (sep : α) {motive : List α → Prop} (nil : motive [])
    (line : ∀ text, text ≠ [] → motive (afterLine sep text) → motive text) (text : List α) :
    motive text := by
  induction hn : text.length using Nat.strong_induction_on generalizing text with
  | _ n ih =>
      by_cases hnil : text = []
      · rw [hnil]
        exact nil
      · exact line text hnil (ih _ (hn ▸ length_after_line hnil) _ rfl)

/-- The lines of a text are not longer than the text. -/
theorem mem_line_starts {place : List α} (h : place ∈ lineStarts sep text) :
    place ≠ [] ∧ place.length ≤ text.length := by
  induction text using line_induction sep with
  | nil => cases h
  | line text hne ih =>
      have hafter : (afterLine sep text).length < text.length := length_after_line hne
      rw [line_starts_eq hne] at h
      rcases List.mem_cons.1 h with rfl | h
      · exact ⟨hne, Nat.le_refl _⟩
      · exact ⟨(ih h).1, (ih h).2.trans hafter.le⟩

/-- No place is a cut of two lines. -/
theorem cuts_apart (hwidth : 0 < width) (text : List α) :
    (lineStarts sep text).Pairwise fun line other =>
      List.Disjoint (cuts sep width line) (cuts sep width other) := by
  induction text using line_induction sep with
  | nil => exact List.Pairwise.nil
  | line text hne ih =>
      rw [line_starts_eq hne]
      refine List.pairwise_cons.2 ⟨fun other hother place hplace hcut => ?_, ih⟩
      obtain ⟨hother, hle⟩ := mem_line_starts hother
      have hhere := (length_of_cut hwidth hne hplace).1
      have hthere := (length_of_cut hwidth hother hcut).2
      omega

/-- The cuts of a line behind its beginning. -/
theorem cuts_cons (sep : α) (hwidth : 0 < width) (text : List α) :
    ∃ later, cuts sep width text = text :: later ∧ ∀ place, place ∈ later ↔
      ∃ k, 0 < k ∧ width * k < (lineAt sep text).length ∧ text.drop (width * k) = place := by
  refine ⟨(List.range (((lineAt sep text).length - 1) / width)).map fun k =>
    text.drop (width * (k + 1)), ?_, fun place => ?_⟩
  · rw [cuts, List.range_succ_eq_map, List.map_cons, List.map_map, Nat.mul_zero, List.drop_zero]
    rfl
  · have hlt (k : Nat) : k < ((lineAt sep text).length - 1) / width ↔
        width * (k + 1) < (lineAt sep text).length := by
      have hpos : 0 < width * (k + 1) := Nat.mul_pos hwidth (Nat.succ_pos k)
      rw [← Nat.succ_le_iff, Nat.le_div_iff_mul_le hwidth, Nat.succ_eq_add_one, Nat.mul_comm]
      omega
    simp only [List.mem_map, List.mem_range, hlt]
    constructor
    · rintro ⟨k, hk, hplace⟩
      exact ⟨k + 1, Nat.succ_pos k, hk, hplace⟩
    · rintro ⟨k, hpos, hk, hplace⟩
      obtain ⟨k, rfl⟩ := Nat.exists_eq_add_one_of_ne_zero (Nat.ne_of_gt hpos)
      exact ⟨k, hk, hplace⟩

/-- The last marked cut of a line is the line exactly when no later piece has a mark and the first
piece has that of the line. -/
theorem last_cut_iff (hwidth : 0 < width) (h : text ≠ []) :
    lastSome (fun place => mark (pieceAt sep width place)) (cuts sep width text) =
        (mark (lineAt sep text)).map (Prod.mk text) ↔
      NoFragment mark width (lineAt sep text) ∧
        mark ((lineAt sep text).take width) = mark (lineAt sep text) := by
  obtain ⟨later, hcuts, hlater⟩ := cuts_cons sep hwidth text
  have hnone : lastSome (fun place => mark (pieceAt sep width place)) later = none ↔
      NoFragment mark width (lineAt sep text) := by
    rw [last_some_eq_none_iff]
    constructor
    · intro hall k hpos hk
      have hpiece := hall _ ((hlater _).2 ⟨k, hpos, hk, rfl⟩)
      rwa [pieceAt, (drop_in_line hk.le).1] at hpiece
    · intro hall place hplace
      obtain ⟨k, hpos, hk, rfl⟩ := (hlater place).1 hplace
      rw [pieceAt, (drop_in_line hk.le).1]
      exact hall k hpos hk
  have hself : text ∉ later := by
    intro hmem
    obtain ⟨k, hpos, -, hdrop⟩ := (hlater text).1 hmem
    have hlength := congrArg List.length hdrop
    have hmove : 0 < width * k := Nat.mul_pos hwidth hpos
    have htext := List.length_pos_iff.2 h
    rw [List.length_drop] at hlength
    omega
  rw [hcuts, last_some_cons, ← hnone]
  constructor
  · intro hlast
    cases hrest : lastSome (fun place => mark (pieceAt sep width place)) later with
    | some found =>
        rw [hrest, Option.some_or] at hlast
        obtain ⟨value, -, rfl⟩ := Option.map_eq_some_iff.1 hlast.symm
        exact absurd (mem_of_last_some hrest).1 hself
    | none =>
        rw [hrest, Option.none_or] at hlast
        exact ⟨rfl, Option.map_injective (Prod.mk_right_injective text) hlast⟩
  · rintro ⟨hrest, hfirst⟩
    rw [hrest, Option.none_or]
    exact congrArg (Option.map (Prod.mk text)) hfirst

/-- What the last marked round of a loop through the text has read is the last marked line exactly
when, from that line on, no line has a mark in a later piece, and the first piece of that line has
its mark. -/
theorem last_pieces_iff (hwidth : 0 < width) {fuel : Nat} (hfuel : text.length < fuel) :
    lastSome (fun place => mark (pieceAt sep width place)) (pieceStarts sep width fuel text) =
        lastSome (fun place => mark (lineAt sep place)) (lineStarts sep text) ↔
      FromLast (fun line => (mark line).isSome)
        (fun line => NoFragment mark width line ∧ mark (line.take width) = mark line)
        (linesOf sep text) := by
  rw [piece_starts_eq hwidth hfuel, linesOf, from_last_map,
    last_flatMap_iff (cuts_apart hwidth text) fun _ _ => mem_cuts_self]
  exact from_last_congr fun place hplace => last_cut_iff hwidth (mem_line_starts hplace).1

end Marks

end LineBuffer
