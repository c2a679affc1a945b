import CarDetect.Lib.OrderedMap
import CarDetect.Qt.Reassembler

/-!
# The completeness test of fragmented NAL units

`isFuComplete` walks the buffer in key order and counts 16-bit numbers up from the start
fragment's. `is_fu_complete_iff` states what it accepts: a run of consecutive keys that begins at
the start fragment, ends at the current packet, and stays below 65535. The last condition is the
price of an ordered map with wrapping keys and of a subtraction on `int`.
-/

namespace CarDetect.Qt

open OrderedMap

/-- Walking a run of consecutive keys succeeds and counts its length. -/
theorem scan_seqRun (expected : UInt16) (n : Nat) :
    scanFuKeys expected (seqRun expected n) = (true, expected + UInt16.ofNat n) := by
  induction n generalizing expected with
  | zero => simp [seqRun, scanFuKeys]
  | succ n ih => simp [seqRun, scanFuKeys, ih, succ_add_ofNat]

/-- Walking succeeds on nothing but runs of consecutive keys. -/
theorem eq_seqRun_of_scan {expected : UInt16} {keys : List UInt16}
    (h : (scanFuKeys expected keys).1 = true) : keys = seqRun expected keys.length := by
  induction keys generalizing expected with
  | nil => rfl
  | cons key rest ih =>
      simp only [scanFuKeys] at h
      split at h
      · rename_i hkey
        rw [List.length_cons, seqRun, hkey, ← ih h]
      · cases h

/-- What the completeness test accepts. -/
theorem is_fu_complete_iff {s : H264RtpReassembler} {currentSeq : UInt16} :
    isFuComplete s currentSeq = true ↔
      s.fuBuffer.keys = seqRun s.fuStartSeq s.fuBuffer.size ∧
        s.fuStartSeq.toNat + s.fuBuffer.size ≤ 65535 ∧
        currentSeq.toNat + 1 = s.fuStartSeq.toNat + s.fuBuffer.size := by
  have hlength : s.fuBuffer.keys.length = s.fuBuffer.size := Std.TreeMap.length_keys
  have hstart := s.fuStartSeq.toNat_lt
  constructor
  · intro h
    simp only [isFuComplete, Bool.and_eq_true, decide_eq_true_eq] at h
    obtain ⟨hscan, hend⟩ := h
    have hkeys := eq_seqRun_of_scan hscan
    rw [hlength] at hkeys
    have hfits := seqRun_fits (hkeys ▸ Std.TreeMap.ordered_keys (t := s.fuBuffer))
    rw [hkeys, scan_seqRun] at hend
    -- a run that reaches 65535 leaves `expectedSeq` at 0, and no number equals -1
    by_cases hwrap : s.fuStartSeq.toNat + s.fuBuffer.size = 65536
    · simp only [UInt16.toNat_add, UInt16.toNat_ofNat'] at hend
      omega
    · rw [toNat_add_ofNat (by omega)] at hend
      exact ⟨hkeys, by omega, by omega⟩
  · rintro ⟨hkeys, hfits, hend⟩
    simp only [isFuComplete, hkeys, scan_seqRun, Bool.true_and, decide_eq_true_eq]
    rw [toNat_add_ofNat (by omega)]
    omega

end CarDetect.Qt
