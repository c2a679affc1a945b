import Mathlib.Data.List.Basic
import Mathlib.Tactic.Linarith

/-!
# Tables that end at a sentinel

A table of fixed size is filled by `writeAll`, one entry after another, and read by `untilSentinel`,
which runs a body over the entries until it comes to one that marks the end. Both fail where they
leave the table. `write_all_ok` and `write_all_overrun` say what the writing loop does,
`until_sentinel_split` and `until_sentinel_overrun` what the reading loop does, and `read_back_iff`
puts them together: what has been written into a fresh table is read back exactly when an entry of
the table is left for the sentinel. `Prints` is for bodies that print, with one rule for each way to
build a loop of them.
-/

namespace SentinelTable

universe u v w

variable {α : Type u} {σ : Type v} {ε : Type w}

/-! ## The two loops -/

/-- `table[index++] = entry`, for each entry. `overrun` is the fault of writing behind the last
entry of the table. -/
def writeAll (overrun : ε) : Nat → List α → List α → Except ε (List α)
  | _, [], table => .ok table
  | index, entry :: rest, table =>
      if index < table.length then writeAll overrun (index + 1) rest (table.set index entry)
      else .error overrun

/-- `for (i = 0; !isEnd(table[i]); i++)`, over what the table holds from the present entry on.
`overrun` is the fault of reading the entry behind the last one. -/
def untilSentinel (isEnd : α → Bool) (overrun : ε) (body : σ → α → Except ε σ) :
    List α → σ → Except ε σ
  | [], _ => .error overrun
  | entry :: rest, state =>
      if isEnd entry then .ok state
      else
        match body state entry with
        | .error fault => .error fault
        | .ok next => untilSentinel isEnd overrun body rest next

variable {isEnd : α → Bool} {overrun : ε} {body : σ → α → Except ε σ}
  {entries front rest table : List α} {state : σ} {index : Nat}

/-! ## Writing -/

/-- The entries stand in the table from `index` on, and the others are as before. -/
theorem write_all_ok (h : index + entries.length ≤ table.length) :
    writeAll overrun index entries table =
      .ok (table.take index ++ entries ++ table.drop (index + entries.length)) := by
  induction entries generalizing index table with
  | nil => simp [writeAll]
  | cons entry rest ih =>
      rw [List.length_cons] at h
      have hindex : index < table.length := by omega
      have hfront : (table.set index entry).take (index + 1) = table.take index ++ [entry] := by
        rw [List.take_succ_eq_append_getElem (by rwa [List.length_set]), List.take_set_of_le
          (Nat.le_refl index), List.getElem_set_self]
      have hback : (table.set index entry).drop (index + 1 + rest.length) =
          table.drop (index + (rest.length + 1)) := by
        rw [List.drop_set_of_lt (by omega)]
        congr 1
        omega
      rw [writeAll, if_pos hindex, ih (by rw [List.length_set]; omega), hfront, hback,
        List.length_cons]
      simp

/-- Entries that do not fit in the table are written behind its end. -/
theorem write_all_overrun (hindex : index ≤ table.length)
    (h : table.length < index + entries.length) :
    writeAll overrun index entries table = .error overrun := by
  induction entries generalizing index table with
  | nil => exact absurd h (by simpa using hindex)
  | cons entry rest ih =>
      rw [List.length_cons] at h
      rw [writeAll]
      split
      · refine ih ?_ ?_ <;> rw [List.length_set] <;> omega
      · rfl

/-! ## Reading -/

/-- The body runs over what stands in front of the first sentinel. -/
theorem until_sentinel_split {sentinel : α} (hfront : ∀ entry ∈ front, isEnd entry = false)
    (hend : isEnd sentinel = true) :
    untilSentinel isEnd overrun body (front ++ sentinel :: rest) state =
      front.foldlM body state := by
  induction front generalizing state with
  | nil => exact if_pos hend
  | cons entry front ih =>
      obtain ⟨hentry, hfront⟩ := List.forall_mem_cons.1 hfront
      rw [List.cons_append, untilSentinel, if_neg (by simp [hentry]), List.foldlM_cons]
      cases body state entry with
      | error fault => rfl
      | ok next => exact ih hfront

/-- Without a sentinel the loop does not end inside of the table. -/
theorem until_sentinel_overrun (h : ∀ entry ∈ table, isEnd entry = false) :
    ∃ fault, untilSentinel isEnd overrun body table state = .error fault := by
  induction table generalizing state with
  | nil => exact ⟨overrun, rfl⟩
  | cons entry rest ih =>
      obtain ⟨hentry, hrest⟩ := List.forall_mem_cons.1 h
      rw [untilSentinel, if_neg (by simp [hentry])]
      cases body state entry with
      | error fault => exact ⟨fault, rfl⟩
      | ok next => exact ih hrest

/-- As long as one sentinel is left, the entries written into a table of sentinels are read back. -/
theorem read_back {size : Nat} {sentinel : α} (hend : isEnd sentinel = true)
    (hentries : ∀ entry ∈ entries, isEnd entry = false) (hlt : entries.length < size) :
    ∃ filled, writeAll overrun 0 entries (List.replicate size sentinel) = .ok filled ∧
      untilSentinel isEnd overrun body filled state = entries.foldlM body state := by
  have hfits : 0 + entries.length ≤ (List.replicate size sentinel).length := by
    rw [List.length_replicate]
    omega
  have hrest : (List.replicate size sentinel).drop (0 + entries.length) =
      sentinel :: List.replicate (size - entries.length - 1) sentinel := by
    rw [List.drop_replicate, ← List.replicate_succ]
    congr 1
    omega
  refine ⟨_, write_all_ok hfits, ?_⟩
  rw [hrest, List.take_zero, List.nil_append]
  exact until_sentinel_split hentries hend

/-- Entries that fill the table leave no sentinel, and more of them do not fit. -/
theorem not_read_back {size : Nat} {sentinel : α} {filled : List α} {final : σ}
    (hentries : ∀ entry ∈ entries, isEnd entry = false)
    (hfilled : writeAll overrun 0 entries (List.replicate size sentinel) = .ok filled)
    (hfinal : untilSentinel isEnd overrun body filled state = .ok final) :
    entries.length < size := by
  have hsize : (List.replicate size sentinel).length = size := List.length_replicate
  by_contra hlt
  rcases Nat.eq_or_lt_of_le (Nat.not_lt.1 hlt) with heq | hgt
  · rw [write_all_ok (by omega), List.take_zero, List.nil_append,
      List.drop_eq_nil_of_le (by omega), List.append_nil] at hfilled
    cases hfilled
    obtain ⟨fault, hfault⟩ : ∃ fault, untilSentinel isEnd overrun body entries state =
        .error fault := until_sentinel_overrun hentries
    cases hfault.symm.trans hfinal
  · rw [write_all_overrun (by omega) (by omega)] at hfilled
    cases hfilled

/-- What has been written into a table of sentinels is read back, by a body that fails on none of
the entries, exactly when one sentinel is left. -/
theorem read_back_iff {size : Nat} {sentinel : α} (hend : isEnd sentinel = true)
    (hentries : ∀ entry ∈ entries, isEnd entry = false) :
    (∃ filled final, writeAll overrun 0 entries (List.replicate size sentinel) = .ok filled ∧
      untilSentinel isEnd overrun body filled state = .ok final) ↔
      entries.length < size ∧ ∃ final, entries.foldlM body state = .ok final := by
  constructor
  · rintro ⟨filled, final, hfilled, hfinal⟩
    have hlt : entries.length < size := not_read_back hentries hfilled hfinal
    obtain ⟨other, hother, hread⟩ : ∃ filled,
        writeAll overrun 0 entries (List.replicate size sentinel) = .ok filled ∧
        untilSentinel isEnd overrun body filled state = entries.foldlM body state :=
      read_back hend hentries hlt
    cases hother.symm.trans hfilled
    exact ⟨hlt, final, hread.symm.trans hfinal⟩
  · rintro ⟨hlt, final, hfinal⟩
    obtain ⟨filled, hfilled, hread⟩ : ∃ filled,
        writeAll overrun 0 entries (List.replicate size sentinel) = .ok filled ∧
        untilSentinel isEnd overrun body filled state = entries.foldlM body state :=
      read_back hend hentries hlt
    exact ⟨filled, final, hfilled, hread.trans hfinal⟩

/-! ## Loops that print -/

section Prints

variable {β : Type v} {print : List β → Except ε (List β)} {good : Prop} {text : List β}

/-- The code adds `text` to what has been printed when `good` holds, and fails otherwise. -/
structure Prints (print : List β → Except ε (List β)) (good : Prop) (text : List β) : Prop where
  ok : good → ∀ printed, print printed = .ok (printed ++ text)
  error : ¬ good → ∀ printed, ∃ fault, print printed = .error fault

/-- A text in front of what is printed, and one behind. -/
theorem Prints.between (h : Prints print good text) (before after : List β) :
    Prints (fun printed => (print (printed ++ before)).map (· ++ after)) good
      (before ++ text ++ after) where
  ok hgood printed := by
    show (print (printed ++ before)).map (· ++ after) = _
    rw [h.ok hgood]
    simp [Except.map]
  error hgood printed := by
    obtain ⟨fault, hfault⟩ := h.error hgood (printed ++ before)
    refine ⟨fault, ?_⟩
    show (print (printed ++ before)).map (· ++ after) = _
    rw [hfault]
    rfl

/-- A loop prints the texts of its rounds one after another. -/
theorem Prints.loop {body : List β → α → Except ε (List β)} {good : α → Prop} {text : α → List β}
    (h : ∀ entry, Prints (body · entry) (good entry) (text entry)) :
    Prints (fun printed => entries.foldlM body printed) (∀ entry ∈ entries, good entry)
      (entries.flatMap text) where
  ok hgood printed := by
    show entries.foldlM body printed = _
    induction entries generalizing printed with
    | nil => simp [pure, Except.pure]
    | cons entry rest ih =>
        obtain ⟨hentry, hrest⟩ := List.forall_mem_cons.1 hgood
        rw [List.foldlM_cons, (h entry).ok hentry printed]
        show rest.foldlM body (printed ++ text entry) = _
        rw [ih hrest, List.flatMap_cons, List.append_assoc]
  error hgood printed := by
    show ∃ fault, entries.foldlM body printed = .error fault
    induction entries generalizing printed with
    | nil => exact absurd (fun _ hmem => absurd hmem List.not_mem_nil) hgood
    | cons entry rest ih =>
        rw [List.foldlM_cons]
        by_cases hentry : good entry
        · rw [(h entry).ok hentry printed]
          exact ih (fun hrest => hgood (List.forall_mem_cons.2 ⟨hentry, hrest⟩)) _
        · obtain ⟨fault, hfault⟩ := (h entry).error hentry printed
          exact ⟨fault, by rw [hfault]; rfl⟩

/-- Code that prints does not fail exactly when the condition holds. -/
theorem Prints.ok_iff (h : Prints print good text) (printed : List β) :
    (∃ final, print printed = .ok final) ↔ good := by
  constructor
  · rintro ⟨final, hfinal⟩
    by_contra hgood
    obtain ⟨fault, hfault⟩ := h.error hgood printed
    cases hfault.symm.trans hfinal
  · exact fun hgood => ⟨_, h.ok hgood printed⟩

end Prints

end SentinelTable
