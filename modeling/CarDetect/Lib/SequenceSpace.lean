import Mathlib.Tactic.Linarith

/-!
# Counters modulo 2^32

A protocol that counts without bound keeps only 32 bits of a counter. `ahead` is how far one such
value is ahead of another, as a signed number, and `ahead_ofNat` says that it is the difference of
the unbounded counters while these are less than 2^31 apart.
-/

namespace SequenceSpace

/-- How far the first value is ahead of the second; negative if it is behind. -/
def ahead (later earlier : UInt32) : Int :=
  (later - earlier).toInt32.toInt

theorem ahead_eq_bmod (later earlier : UInt32) :
    ahead later earlier = ((later.toNat : Int) - earlier.toNat).bmod (2 ^ 32) := by
  have hlater := later.toNat_lt
  have hearlier := earlier.toNat_lt
  unfold ahead
  rw [Int32.toInt, UInt32.toBitVec_toInt32, BitVec.toInt_eq_toNat_bmod]
  show ((later - earlier).toNat : Int).bmod (2 ^ 32) = _
  rw [UInt32.toNat_sub, Int.natCast_emod, Int.emod_bmod]
  have hshift : ((2 ^ 32 - earlier.toNat + later.toNat : Nat) : Int) =
      (later.toNat : Int) - earlier.toNat + (2 ^ 32 : Nat) := by
    omega
  rw [hshift, Int.add_bmod_right]

theorem ahead_self (value : UInt32) : ahead value value = 0 := by
  rw [ahead_eq_bmod, Int.sub_self]
  rfl

/-- Counters that are less than half the range apart compare as the numbers they count. -/
theorem ahead_ofNat {later earlier : Nat} (hlow : earlier ≤ later + 2 ^ 31)
    (hhigh : later < earlier + 2 ^ 31) :
    ahead (UInt32.ofNat later) (UInt32.ofNat earlier) = (later : Int) - earlier := by
  rw [ahead_eq_bmod, UInt32.toNat_ofNat', UInt32.toNat_ofNat', Int.natCast_emod, Int.natCast_emod,
    Int.emod_sub_bmod, Int.sub_emod_bmod, Int.bmod_eq_of_le_mul_two] <;> omega

/-- The distance from a base upwards. -/
def offset (base value : UInt32) : Nat := (value - base).toNat

theorem offset_eq (base value : UInt32) :
    (offset base value : Int) = ((value.toNat : Int) - base.toNat) % 2 ^ 32 := by
  have hbase := base.toNat_lt
  rw [offset, UInt32.toNat_sub]
  omega

@[simp] theorem offset_self (base : UInt32) : offset base base = 0 := by
  rw [offset, UInt32.sub_self]
  rfl

theorem offset_lt (base value : UInt32) : offset base value < 2 ^ 32 :=
  (value - base).toNat_lt

theorem offset_inj {base a b : UInt32} (h : offset base a = offset base b) : a = b := by
  have ha := offset_eq base a
  have hb := offset_eq base b
  have halt := a.toNat_lt
  have hblt := b.toNat_lt
  apply UInt32.toNat.inj
  omega

theorem offset_eq_zero {base value : UInt32} : offset base value = 0 ↔ value = base := by
  constructor
  · intro h
    exact @offset_inj base _ _ (h.trans (offset_self base).symm)
  · rintro rfl
    exact offset_self _

/-- A base that moves up by one comes one closer to what is above it. -/
theorem offset_succ {base value : UInt32} (h : value ≠ base) :
    offset (base + 1) value + 1 = offset base value := by
  have hpos : 0 < offset base value := Nat.pos_of_ne_zero fun hzero => h (offset_eq_zero.1 hzero)
  have hold := offset_eq base value
  have hnew := offset_eq (base + 1) value
  have hsucc : (base + 1).toNat = (base.toNat + 1) % 2 ^ 32 := UInt32.toNat_add base 1
  have hbase := base.toNat_lt
  omega

/-- Distances from a higher base. -/
theorem offset_rebase {base higher value : UInt32}
    (h : offset base higher ≤ offset base value) :
    offset base higher + offset higher value = offset base value := by
  have hhigher := offset_eq base higher
  have hvalue := offset_eq base value
  have hrest := offset_eq higher value
  omega

/-- Values in the half of the range above a base compare as their distances from it. -/
theorem ahead_offset {base a b : UInt32} (ha : offset base a < 2 ^ 31)
    (hb : offset base b < 2 ^ 31) : ahead a b = (offset base a : Int) - offset base b := by
  have haeq := offset_eq base a
  have hbeq := offset_eq base b
  rw [ahead_eq_bmod, ← Int.emod_bmod]
  have hmod : ((a.toNat : Int) - b.toNat) % (2 ^ 32 : Nat) =
      ((offset base a : Int) - offset base b) % (2 ^ 32 : Nat) := by
    push_cast
    omega
  rw [hmod, Int.emod_bmod, Int.bmod_eq_of_le_mul_two] <;> omega

/-- The distance to a value in the half of the range above a base. -/
theorem offset_of_ahead {base value : UInt32} (h : 0 ≤ ahead value base) :
    offset base value < 2 ^ 31 := by
  have hoffset := offset_eq base value
  rw [ahead_eq_bmod, Int.bmod_def] at h
  push_cast at h
  split at h <;> omega

theorem ahead_base {base value : UInt32} (h : offset base value < 2 ^ 31) :
    ahead value base = offset base value := by
  rw [ahead_offset h (by rw [offset_self]; decide), offset_self]
  exact Int.sub_zero _

theorem offset_add (base size : UInt32) : offset base (base + size) = size.toNat := by
  rw [offset, UInt32.add_comm, UInt32.add_sub_cancel]

/-- A value is not behind the base and before the end of a window exactly when its distance from the
base is less than the size of the window. -/
theorem within_iff {base size value : UInt32} (hsize : size.toNat < 2 ^ 31) :
    (0 ≤ ahead value base ∧ ahead value (base + size) < 0) ↔ offset base value < size.toNat := by
  have hend : offset base (base + size) < 2 ^ 31 := by rwa [offset_add]
  constructor
  · rintro ⟨hlow, hhigh⟩
    rw [ahead_offset (offset_of_ahead hlow) hend, offset_add] at hhigh
    omega
  · intro h
    have hvalue : offset base value < 2 ^ 31 := Nat.lt_trans h hsize
    rw [ahead_base hvalue, ahead_offset hvalue hend, offset_add]
    omega

theorem offset_ofNat {base value : Nat} (hlow : base ≤ value) (hhigh : value < base + 2 ^ 32) :
    offset (UInt32.ofNat base) (UInt32.ofNat value) = value - base := by
  have hoffset := offset_eq (UInt32.ofNat base) (UInt32.ofNat value)
  rw [UInt32.toNat_ofNat', UInt32.toNat_ofNat'] at hoffset
  omega

/-- The counter of a value above that of a base. -/
theorem ofNat_add_offset {base : Nat} (value : UInt32) :
    UInt32.ofNat (base + offset (UInt32.ofNat base) value) = value := by
  have hoffset := offset_eq (UInt32.ofNat base) value
  have hvalue := value.toNat_lt
  apply UInt32.toNat.inj
  rw [UInt32.toNat_ofNat'] at hoffset ⊢
  omega

/-- Counters that are less than the range apart are the same value only if they are equal. -/
theorem ofNat_inj {a b : Nat} (hab : a < b + 2 ^ 32) (hba : b < a + 2 ^ 32)
    (h : UInt32.ofNat a = UInt32.ofNat b) : a = b := by
  have hmod := congrArg UInt32.toNat h
  rw [UInt32.toNat_ofNat', UInt32.toNat_ofNat'] at hmod
  omega

/-- The counter after one more. -/
theorem ofNat_succ (n : Nat) : UInt32.ofNat n + 1 = UInt32.ofNat (n + 1) := by
  rw [UInt32.ofNat_add]
  rfl

end SequenceSpace
