import Mathlib.Tactic.Linarith

/-!
# Serial numbers

Numbers that count up modulo `2 * half`. `Newer` compares two of them by their distance, and
`newer_of_lt` and `newer_of_le` say what this means for their plain order.
-/

namespace SerialNumber

/-- `current` is less than half the range ahead of `last`. -/
def Newer (half last current : Nat) : Prop :=
  0 < ((current : Int) - last) % (2 * half) ∧ ((current : Int) - last) % (2 * half) < half

instance (half last current : Nat) : Decidable (Newer half last current) :=
  inferInstanceAs (Decidable (_ ∧ _))

variable {half last current : Nat}

/-- A greater number is newer unless it is half the range ahead. -/
theorem newer_of_lt (h : last < current) (hcurrent : current < 2 * half) :
    Newer half last current ↔ current - last < half := by
  have hmod : ((current : Int) - last) % (2 * half) = current - last :=
    Int.emod_eq_of_lt (by omega) (by omega)
  rw [Newer, hmod]
  omega

/-- A smaller number is newer when it is more than half the range behind. -/
theorem newer_of_le (h : current ≤ last) (hlast : last < 2 * half) :
    Newer half last current ↔ half < last - current := by
  rcases Nat.eq_or_lt_of_le h with rfl | hlt
  · simp [Newer]
  · have hmod : ((current : Int) - last) % (2 * half) = current - last + 2 * half := by
      rw [← Int.add_emod_right]
      exact Int.emod_eq_of_lt (by omega) (by omega)
    rw [Newer, hmod]
    omega

end SerialNumber
