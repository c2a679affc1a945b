import Mathlib.Data.List.Basic
import Mathlib.Tactic.Linarith

/-!
# Planes with a stride

A plane is a list of samples in which row `y` begins at `y * stride` and the columns behind the
width are padding. `Filled` says that the samples of a region have been written and nothing else
has changed; `Filled.set` and `Filled.overwrite` extend the region by a sample or by a part of a
row.
-/

namespace StridedPlane

universe u

variable {α : Type u}

/-- `row` written over the plane from `offset` on. -/
def overwrite (offset : Nat) (row plane : List α) : List α :=
  plane.take offset ++ row ++ plane.drop (offset + row.length)

/-- The samples of `region` have the given values, and the rest of the plane is as before. -/
structure Filled (stride : Nat) (region : Nat → Nat → Prop) (value : Nat → Nat → α)
    (before after : List α) : Prop where
  length : after.length = before.length
  inside : ∀ x y, region x y → after[y * stride + x]? = some (value x y)
  outside : ∀ i, (∀ x y, region x y → i ≠ y * stride + x) → after[i]? = before[i]?

/-- The first rows, and the first columns of the next one. -/
def Started (width rows columns x y : Nat) : Prop :=
  (y < rows ∧ x < width) ∨ (y = rows ∧ x < columns)

variable {stride width rows columns : Nat} {region : Nat → Nat → Prop} {value : Nat → Nat → α}
  {before after : List α}

/-- A position within the stride determines its row and column. -/
theorem position_inj {x y x' y' : Nat} (hx : x < stride) (hx' : x' < stride)
    (h : y * stride + x = y' * stride + x') : x = x' ∧ y = y' := by
  have hpos : 0 < stride := by omega
  have hrow : y = y' := by
    have hdiv := congrArg (· / stride) h
    simpa [Nat.add_comm, Nat.add_mul_div_right _ _ hpos, Nat.div_eq_of_lt hx,
      Nat.div_eq_of_lt hx'] using hdiv
  subst hrow
  exact ⟨Nat.add_left_cancel h, rfl⟩

/-- A row lies in the plane. -/
theorem row_end_le {y : Nat} (hwidth : width ≤ stride) (hy : y < rows) :
    y * stride + width ≤ rows * stride := by
  have hle : (y + 1) * stride ≤ rows * stride := Nat.mul_le_mul_right stride hy
  rw [Nat.add_mul, Nat.one_mul] at hle
  omega

/-- A sample of a row lies in the plane. -/
theorem position_lt {x y : Nat} (hx : x < stride) (hy : y < rows) :
    y * stride + x < rows * stride := row_end_le hx hy

theorem filled_nothing (h : ∀ x y, ¬ region x y) : Filled stride region value before before :=
  ⟨rfl, fun x y hregion => absurd hregion (h x y), fun _ _ => rfl⟩

theorem Filled.congr {other : Nat → Nat → Prop} (h : Filled stride region value before after)
    (heq : ∀ x y, other x y ↔ region x y) : Filled stride other value before after :=
  ⟨h.length, fun x y hother => h.inside x y ((heq x y).1 hother),
    fun i hout => h.outside i fun x y hregion => hout x y ((heq x y).2 hregion)⟩

/-- One more sample of the next row. -/
theorem Filled.set (h : Filled stride (Started width rows columns) value before after)
    (hwidth : width ≤ stride) (hcolumns : columns < width)
    (hin : rows * stride + columns < before.length) :
    Filled stride (Started width rows (columns + 1)) value before
      (after.set (rows * stride + columns) (value columns rows)) := by
  have hlt : rows * stride + columns < after.length := by
    rw [h.length]
    exact hin
  refine ⟨by rw [List.length_set, h.length], fun x y hregion => ?_, fun i hout => ?_⟩
  · by_cases hnew : y = rows ∧ x = columns
    · obtain ⟨rfl, rfl⟩ := hnew
      rw [List.getElem?_set_self hlt]
    · have hold : Started width rows columns x y := by
        unfold Started at hregion ⊢
        omega
      have hne : rows * stride + columns ≠ y * stride + x := by
        intro heq
        have hx : x < stride := by
          unfold Started at hold
          omega
        obtain ⟨hcolumn, hrow⟩ := position_inj (by omega) hx heq
        exact hnew ⟨hrow.symm, hcolumn.symm⟩
      rw [List.getElem?_set_ne hne]
      exact h.inside x y hold
  · have hne : rows * stride + columns ≠ i := by
      intro heq
      exact hout columns rows (.inr ⟨rfl, Nat.lt_succ_self _⟩) heq.symm
    rw [List.getElem?_set_ne hne]
    refine h.outside i fun x y hregion => hout x y ?_
    unfold Started at hregion ⊢
    omega

/-- A row is complete. -/
theorem started_next (x y : Nat) :
    Started width (rows + 1) 0 x y ↔ Started width rows width x y := by
  unfold Started
  omega

theorem getElem?_overwrite {offset : Nat} {row plane : List α}
    (h : offset + row.length ≤ plane.length) (i : Nat) :
    (overwrite offset row plane)[i]? =
      if offset ≤ i ∧ i < offset + row.length then row[i - offset]? else plane[i]? := by
  have htake : (plane.take offset).length = offset := List.length_take_of_le (by omega)
  unfold overwrite
  rw [List.append_assoc]
  by_cases hbefore : i < offset
  · rw [if_neg (by omega), List.getElem?_append_left (by omega), List.getElem?_take_of_lt hbefore]
  · rw [List.getElem?_append_right (by omega), htake]
    by_cases hrow : i < offset + row.length
    · rw [if_pos (by omega), List.getElem?_append_left (by omega)]
    · rw [if_neg (by omega), List.getElem?_append_right (by omega), List.getElem?_drop]
      congr 1
      omega

theorem length_overwrite {offset : Nat} {row plane : List α}
    (h : offset + row.length ≤ plane.length) :
    (overwrite offset row plane).length = plane.length := by
  unfold overwrite
  rw [List.length_append, List.length_append, List.length_take, List.length_drop]
  omega

/-- One more row. -/
theorem Filled.overwrite {row : List α}
    (h : Filled stride (Started width rows 0) value before after)
    (hwidth : width ≤ stride) (hrow : row.length = width)
    (hvalue : ∀ x < width, row[x]? = some (value x rows))
    (hin : rows * stride + width ≤ before.length) :
    Filled stride (Started width (rows + 1) 0) value before
      (StridedPlane.overwrite (rows * stride) row after) := by
  have hle : rows * stride + row.length ≤ after.length := by
    rw [h.length, hrow]
    exact hin
  refine ⟨by rw [length_overwrite hle, h.length], fun x y hregion => ?_, fun i hout => ?_⟩
  · rw [getElem?_overwrite hle]
    by_cases hnew : y = rows
    · subst hnew
      have hx : x < width := by
        unfold Started at hregion
        omega
      rw [if_pos (by omega), Nat.add_sub_cancel_left]
      exact hvalue x hx
    · have hold : Started width rows 0 x y := by
        unfold Started at hregion ⊢
        omega
      have hlt : y < rows ∧ x < width := by
        unfold Started at hold
        omega
      have hposition := position_lt (lt_of_lt_of_le hlt.2 hwidth) hlt.1
      rw [if_neg (by omega)]
      exact h.inside x y hold
  · rw [getElem?_overwrite hle]
    have hnew : ¬ (rows * stride ≤ i ∧ i < rows * stride + row.length) := by
      rintro ⟨hfirst, hlast⟩
      refine hout (i - rows * stride) rows (.inl ⟨Nat.lt_succ_self _, by omega⟩) ?_
      omega
    rw [if_neg hnew]
    refine h.outside i fun x y hregion => hout x y ?_
    unfold Started at hregion ⊢
    omega

/-! ## Planes without padding -/

/-- Writing twice, the second time behind what was written the first time. -/
theorem overwrite_append {offset : Nat} {first second plane : List α}
    (h : offset + first.length ≤ plane.length) :
    overwrite (offset + first.length) second (overwrite offset first plane) =
      overwrite offset (first ++ second) plane := by
  have htake : (plane.take offset ++ first).length = offset + first.length := by
    rw [List.length_append, List.length_take_of_le (by omega)]
  unfold overwrite
  rw [List.take_append_of_le_length htake.ge, List.take_of_length_le htake.le, List.length_append,
    ← Nat.add_assoc, ← List.drop_drop, ← htake, List.drop_left, htake, List.drop_drop,
    List.append_assoc, List.append_assoc, List.append_assoc, List.append_assoc]

theorem overwrite_nil (offset : Nat) (plane : List α) : overwrite offset [] plane = plane := by
  rw [overwrite, List.append_nil, List.length_nil, Nat.add_zero, List.take_append_drop]

/-- The first rows of a plane, one behind the other. -/
def packed (stride width rows : Nat) (plane : List α) : List α :=
  (List.range rows).flatMap fun y => (plane.drop (y * stride)).take width

theorem packed_succ (stride width rows : Nat) (plane : List α) :
    packed stride width (rows + 1) plane =
      packed stride width rows plane ++ (plane.drop (rows * stride)).take width := by
  rw [packed, List.range_succ, List.flatMap_append, List.flatMap_singleton]
  rfl

theorem length_packed {plane : List α} (h : ∀ y < rows, y * stride + width ≤ plane.length) :
    (packed stride width rows plane).length = rows * width := by
  induction rows with
  | zero => exact (Nat.zero_mul width).symm
  | succ rows ih =>
      have hlast := h rows (Nat.lt_succ_self rows)
      rw [packed_succ, List.length_append, ih fun y hy => h y (Nat.lt_succ_of_lt hy),
        List.length_take_of_le (by rw [List.length_drop]; omega), Nat.succ_mul]

/-- A sample of a row, without the padding before it. -/
theorem getElem?_packed {plane : List α} (h : ∀ y < rows, y * stride + width ≤ plane.length)
    {x y : Nat} (hx : x < width) (hy : y < rows) :
    (packed stride width rows plane)[y * width + x]? = plane[y * stride + x]? := by
  induction rows with
  | zero => exact absurd hy (Nat.not_lt_zero y)
  | succ rows ih =>
      have hfirst : ∀ y < rows, y * stride + width ≤ plane.length := fun y hy =>
        h y (Nat.lt_succ_of_lt hy)
      have hlength := length_packed hfirst
      rw [packed_succ]
      rcases Nat.lt_or_eq_of_le (Nat.le_of_lt_succ hy) with hlt | rfl
      · have hbefore := position_lt hx hlt
        rw [List.getElem?_append_left (by omega)]
        exact ih hfirst hlt
      · rw [List.getElem?_append_right (by omega), hlength, Nat.add_sub_cancel_left,
          List.getElem?_take_of_lt hx, List.getElem?_drop]

end StridedPlane
