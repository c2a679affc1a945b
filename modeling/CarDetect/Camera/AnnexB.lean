import CarDetect.Lib.BigEndian

/-!
# Splitting an Annex B buffer

`splitAnnexbNalus` follows `split_annexb_nalus` of `camera/rtsp_client.c`: one pass over the
encoder's output that looks for start codes of three and four bytes and remembers where the current
NAL unit starts. Every byte is read through `readByte`, which faults outside the buffer, and a view
is a position and a length. `split_concat` says that the pass inverts the concatenation of NAL
units.
-/

namespace CarDetect.Camera

open BigEndian

/-! ## The scanner -/

/-- A read outside the buffer. -/
inductive OutOfBuffer where
  | read (index : Nat)
deriving DecidableEq, Repr

/-- `buf[index]` -/
def readByte (buf : Bytes) (index : Nat) : Except OutOfBuffer UInt8 :=
  match buf[index]? with
  | some byte => .ok byte
  | none => .error (.read index)

/-- `is_start_code3` at `buf + i`, which stops at the first byte that differs. -/
def isStartCode3 (buf : Bytes) (i : Nat) : Except OutOfBuffer Bool := do
  if (← readByte buf i) != 0 then return false
  if (← readByte buf (i + 1)) != 0 then return false
  return (← readByte buf (i + 2)) == 1

/-- `is_start_code4` at `buf + i`. -/
def isStartCode4 (buf : Bytes) (i : Nat) : Except OutOfBuffer Bool := do
  if (← readByte buf i) != 0 then return false
  if (← readByte buf (i + 1)) != 0 then return false
  if (← readByte buf (i + 2)) != 0 then return false
  return (← readByte buf (i + 3)) == 1

/-- `nalu_view_t`, with the pointer as a position in the buffer. -/
structure NaluView where
  ptr : Nat
  len : Nat
deriving DecidableEq, Repr

/-- The `sc` of one loop turn: the length of the start code at `i`, or 0. -/
def startCodeLen (buf : Bytes) (i : Nat) : Except OutOfBuffer Nat := do
  if ← isStartCode4 buf i then return 4
  if ← isStartCode3 buf i then return 3
  return 0

/-- Write the NAL unit that began at `start` and ends at `stop` to `out`, if one began and there is
room. `cnt` is the length of `out`. -/
def pushView (maxNalus : Int) (start : Int) (stop : Nat) (out : List NaluView) : List NaluView :=
  if start ≥ 0 && out.length < maxNalus then out ++ [⟨start.toNat, (stop - start).toNat⟩] else out

/-- The loop from `i` on: the values of `start` and `out` at its end. The `int`s of the source do
not pass `len`. -/
def scanNalus (buf : Bytes) (maxNalus : Int) (i : Nat) (start : Int) (out : List NaluView) :
    Except OutOfBuffer (Int × List NaluView) :=
  if i + 3 < buf.length then
    match startCodeLen buf i with
    | .error fault => .error fault
    | .ok sc =>
        if sc ≠ 0 then
          scanNalus buf maxNalus (i + sc) (i + sc : Nat) (pushView maxNalus start i out)
        else scanNalus buf maxNalus (i + 1) start out
  else .ok (start, out)
termination_by buf.length - i

/-- `split_annexb_nalus` on the `len` bytes of `buf`. The value returned is the number of views. -/
def splitAnnexbNalus (buf : Bytes) (maxNalus : Int) : Except OutOfBuffer (List NaluView) :=
  match scanNalus buf maxNalus 0 (-1) [] with
  | .error fault => .error fault
  | .ok (start, out) =>
      .ok (if start < buf.length then pushView maxNalus start buf.length out else out)

/-! ## Start codes -/

theorem read_byte_at (past rest : Bytes) (byte : UInt8) :
    readByte (past ++ byte :: rest) past.length = .ok byte := by
  simp [readByte]

/-- With four bytes left, the test of a turn reads inside the buffer and finds the start code there
is. -/
theorem start_code_len_eq (past : Bytes) (a b c d : UInt8) (rest : Bytes) :
    startCodeLen (past ++ a :: b :: c :: d :: rest) past.length =
      .ok (if a = 0 ∧ b = 0 ∧ c = 0 ∧ d = 1 then 4
        else if a = 0 ∧ b = 0 ∧ c = 1 then 3 else 0) := by
  have ha := read_byte_at past (b :: c :: d :: rest) a
  have hb : readByte (past ++ a :: b :: c :: d :: rest) (past.length + 1) = .ok b := by
    simpa using read_byte_at (past ++ [a]) (c :: d :: rest) b
  have hc : readByte (past ++ a :: b :: c :: d :: rest) (past.length + 2) = .ok c := by
    simpa using read_byte_at (past ++ [a, b]) (d :: rest) c
  have hd : readByte (past ++ a :: b :: c :: d :: rest) (past.length + 3) = .ok d := by
    simpa using read_byte_at (past ++ [a, b, c]) rest d
  simp only [startCodeLen, isStartCode4, isStartCode3, ha, hb, hc, hd, bne_iff_ne, bind, pure,
    Except.bind, Except.pure]
  by_cases hzeroA : a = 0
  · by_cases hzeroB : b = 0
    · by_cases hzeroC : c = 0
      · by_cases hone : d = 1 <;> simp [hzeroA, hzeroB, hzeroC, hone]
      · by_cases hone : c = 1 <;> simp [hzeroA, hzeroB, hzeroC, hone]
    · simp [hzeroA, hzeroB]
  · simp [hzeroA]

/-! ## Inside a NAL unit -/

/-- What emulation prevention promises of a NAL unit. -/
structure EmulationFree (nalu : Bytes) : Prop where
  nonempty : nalu ≠ []
  no_zeros : ¬ [0, 0, 0] <:+: nalu
  no_start_code : ¬ [0, 0, 1] <:+: nalu
  last : nalu.getLast? ≠ some 0

/-- The rest of a unit after its first byte. -/
theorem EmulationFree.tail {byte : UInt8} {rest : Bytes} (h : EmulationFree (byte :: rest))
    (hne : rest ≠ []) : EmulationFree rest := by
  have hinfix : rest <:+: byte :: rest := (List.suffix_cons byte rest).isInfix
  refine ⟨hne, fun hin => h.no_zeros (hin.trans hinfix),
    fun hin => h.no_start_code (hin.trans hinfix), fun hlast => h.last ?_⟩
  rwa [List.getLast?_cons_of_ne_nil hne]

/-- No start code begins inside a unit, whatever follows the unit. -/
theorem no_start_code_in {nalu later : Bytes} (h : EmulationFree nalu) {a b c : UInt8}
    {rest : Bytes} (heq : nalu ++ later = a :: b :: c :: rest) :
    ¬ (a = 0 ∧ b = 0 ∧ (c = 0 ∨ c = 1)) := by
  intro hcode
  obtain ⟨rfl, rfl, hthird⟩ := hcode
  match nalu, h, heq with
  | [], h, _ => exact h.nonempty rfl
  | [first], h, heq =>
      cases heq
      exact h.last rfl
  | [first, second], h, heq =>
      cases heq
      exact h.last rfl
  | first :: second :: third :: more, h, heq =>
      simp only [List.cons_append, List.cons.injEq] at heq
      obtain ⟨rfl, rfl, rfl, -⟩ := heq
      rcases hthird with rfl | rfl
      · exact h.no_zeros ⟨[], more, rfl⟩
      · exact h.no_start_code ⟨[], more, rfl⟩

section Scan

variable (maxNalus start : Int) (out : List NaluView)

/-- A turn inside a unit moves on by one byte. -/
theorem scan_skip (past : Bytes) {byte : UInt8} {rest later : Bytes}
    (h : EmulationFree (byte :: rest)) (hroom : 3 ≤ (rest ++ later).length) :
    scanNalus (past ++ (byte :: rest ++ later)) maxNalus past.length start out =
      scanNalus (past ++ (byte :: rest ++ later)) maxNalus (past.length + 1) start out := by
  obtain ⟨b, c, d, more, heq⟩ : ∃ b c d more, rest ++ later = b :: c :: d :: more := by
    match rest ++ later, hroom with
    | b :: c :: d :: more, _ => exact ⟨b, c, d, more, rfl⟩
  have hbuf : byte :: rest ++ later = byte :: b :: c :: d :: more := by
    rw [List.cons_append, heq]
  have hcode := no_start_code_in h hbuf
  have hlong : past.length + 3 < (past ++ byte :: b :: c :: d :: more).length := by
    simp only [List.length_append, List.length_cons]
    omega
  have hnone : startCodeLen (past ++ byte :: b :: c :: d :: more) past.length = .ok 0 := by
    rw [start_code_len_eq, if_neg fun hfour => hcode ⟨hfour.1, hfour.2.1, .inl hfour.2.2.1⟩,
      if_neg fun hthree => hcode ⟨hthree.1, hthree.2.1, .inr hthree.2.2⟩]
  rw [hbuf, scanNalus, if_pos hlong, hnone]
  simp only [ne_eq, not_true_eq_false, if_false]

/-- The loop passes a unit that a start code follows. -/
theorem scan_unit {nalu : Bytes} (h : EmulationFree nalu) (past : Bytes) {later : Bytes}
    (hlater : 3 ≤ later.length) :
    scanNalus (past ++ (nalu ++ later)) maxNalus past.length start out =
      scanNalus (past ++ (nalu ++ later)) maxNalus (past.length + nalu.length) start out := by
  induction nalu generalizing past with
  | nil => rfl
  | cons byte rest ih =>
      have hroom : 3 ≤ (rest ++ later).length := by
        rw [List.length_append]
        omega
      rw [scan_skip maxNalus start out past h hroom]
      by_cases hrest : rest = []
      · subst hrest
        rfl
      · have hnext := ih (h.tail hrest) (past ++ [byte])
        simp only [List.append_assoc, List.singleton_append, List.length_append,
          List.length_singleton] at hnext
        rw [List.cons_append, hnext, List.length_cons, Nat.add_assoc, Nat.add_comm 1]

/-- The loop ends in the last unit. -/
theorem scan_last {nalu : Bytes} (h : EmulationFree nalu) (past : Bytes) :
    scanNalus (past ++ nalu) maxNalus past.length start out = .ok (start, out) := by
  induction nalu generalizing past with
  | nil => exact absurd rfl h.nonempty
  | cons byte rest ih =>
      by_cases hroom : 3 ≤ rest.length
      · have hskip := scan_skip maxNalus start out past h
          (show 3 ≤ (rest ++ []).length by rwa [List.append_nil])
        have hrest : rest ≠ [] := by
          intro hnil
          simp [hnil] at hroom
        have hnext := ih (h.tail hrest) (past ++ [byte])
        simp only [List.append_assoc, List.singleton_append, List.length_append,
          List.length_singleton] at hnext
        rw [List.append_nil] at hskip
        rw [hskip, hnext]
      · rw [scanNalus, if_neg]
        rw [List.length_append, List.length_cons]
        omega

end Scan

/-! ## Concatenations -/

/-- The start codes of four and of three bytes. -/
def startCode (long : Bool) : Bytes :=
  if long then [0, 0, 0, 1] else [0, 0, 1]

/-- NAL units in Annex B form, each with the choice of its start code. -/
def annexBConcat : List (Bool × Bytes) → Bytes
  | [] => []
  | (long, nalu) :: rest => startCode long ++ nalu ++ annexBConcat rest

/-- The positions and lengths of the NAL units of a concatenation that begins at `pos`. -/
def viewsFrom (pos : Nat) : List (Bool × Bytes) → List NaluView
  | [] => []
  | (long, nalu) :: rest =>
      ⟨pos + (startCode long).length, nalu.length⟩ ::
        viewsFrom (pos + (startCode long).length + nalu.length) rest

/-- The bytes of a view. -/
def NaluView.bytes (buf : Bytes) (view : NaluView) : Bytes :=
  (buf.drop view.ptr).take view.len

/-- The views are those of the NAL units. -/
theorem bytes_viewsFrom (past : Bytes) (units : List (Bool × Bytes)) :
    (viewsFrom past.length units).map (NaluView.bytes (past ++ annexBConcat units)) =
      units.map Prod.snd := by
  induction units generalizing past with
  | nil => rfl
  | cons unit rest ih =>
      obtain ⟨long, nalu⟩ := unit
      have hview : NaluView.bytes (past ++ (startCode long ++ nalu ++ annexBConcat rest))
          ⟨past.length + (startCode long).length, nalu.length⟩ = nalu := by
        rw [NaluView.bytes, ← List.length_append, List.append_assoc, ← List.append_assoc past,
          List.drop_left, List.take_left]
      have hrest := ih (past ++ (startCode long ++ nalu))
      rw [List.length_append, List.length_append, ← Nat.add_assoc, List.append_assoc] at hrest
      rw [viewsFrom, annexBConcat, List.map_cons, List.map_cons, hview, hrest]

/-- A turn at a start code. -/
theorem scan_start_code (past : Bytes) (long : Bool) {nalu : Bytes} (hne : nalu ≠ [])
    (later : Bytes) (maxNalus start : Int) (out : List NaluView) :
    scanNalus (past ++ (startCode long ++ nalu ++ later)) maxNalus past.length start out =
      scanNalus (past ++ (startCode long ++ nalu ++ later)) maxNalus
        (past.length + (startCode long).length)
        (past.length + (startCode long).length : Nat)
        (pushView maxNalus start past.length out) := by
  obtain ⟨byte, rest, rfl⟩ := List.exists_cons_of_ne_nil hne
  have hcode : startCodeLen (past ++ (startCode long ++ byte :: rest ++ later)) past.length =
      .ok (startCode long).length := by
    cases long with
    | true => exact start_code_len_eq past 0 0 0 1 (byte :: rest ++ later)
    | false => exact start_code_len_eq past 0 0 1 byte (rest ++ later)
  have hlong : past.length + 3 <
      (past ++ (startCode long ++ byte :: rest ++ later)).length := by
    cases long <;> simp [startCode]
  have hpos : (startCode long).length ≠ 0 := by
    cases long <;> simp [startCode]
  rw [scanNalus, if_pos hlong, hcode]
  simp only [if_pos hpos]

/-- Writing one more view to a bounded output. -/
theorem push_take (maxNalus : Int) {start stop : Nat} (hle : start ≤ stop)
    (out views : List NaluView) :
    let pushed := pushView maxNalus start stop out
    pushed ++ views.take (maxNalus.toNat - pushed.length) =
      out ++ (⟨start, stop - start⟩ :: views).take (maxNalus.toNat - out.length) := by
  have hsub : ((stop : Int) - (start : Int)).toNat = stop - start := by omega
  have hstart : (decide ((start : Int) ≥ 0)) = true := decide_eq_true (Int.natCast_nonneg start)
  simp only [pushView, hstart, Bool.true_and, Int.toNat_natCast, hsub]
  by_cases hroom : (out.length : Int) < maxNalus
  · obtain ⟨n, hn⟩ : ∃ n, maxNalus.toNat - out.length = n + 1 :=
      ⟨maxNalus.toNat - out.length - 1, by omega⟩
    have hless : maxNalus.toNat - (out.length + 1) = n := by omega
    simp [hroom, hn, hless]
  · have hnone : maxNalus.toNat - out.length = 0 := by omega
    simp [hroom, hnone]

/-- The loop from the start of a unit, and the view after it. -/
theorem split_from (past : Bytes) {nalu : Bytes} (hnalu : EmulationFree nalu)
    {units : List (Bool × Bytes)} (hunits : ∀ unit ∈ units, EmulationFree unit.2)
    (maxNalus : Int) (out : List NaluView) :
    ∃ (start : Nat) (scanned : List NaluView),
      scanNalus (past ++ (nalu ++ annexBConcat units)) maxNalus past.length past.length out =
        .ok (start, scanned) ∧
      start < (past ++ (nalu ++ annexBConcat units)).length ∧
      pushView maxNalus start (past ++ (nalu ++ annexBConcat units)).length scanned =
        out ++ (⟨past.length, nalu.length⟩ ::
          viewsFrom (past.length + nalu.length) units).take (maxNalus.toNat - out.length) := by
  induction units generalizing past nalu out with
  | nil =>
      have hpos : 0 < nalu.length := List.length_pos_iff.2 hnalu.nonempty
      refine ⟨past.length, out, ?_, ?_, ?_⟩
      · rw [annexBConcat, List.append_nil]
        exact scan_last maxNalus past.length out hnalu past
      · simp only [List.length_append]
        omega
      · have hpush := push_take maxNalus (Nat.le_add_right past.length nalu.length) out []
        simpa [annexBConcat, viewsFrom] using hpush
  | cons unit rest ih =>
      obtain ⟨long, next⟩ := unit
      obtain ⟨hnext, hrest⟩ := List.forall_mem_cons.1 hunits
      have hlater : 3 ≤ (annexBConcat ((long, next) :: rest)).length := by
        cases long <;> simp [annexBConcat, startCode]
      -- over this unit, over the start code of the next one, and on from there
      have hunit := scan_unit maxNalus past.length out hnalu past hlater
      have hcode := scan_start_code (past ++ nalu) long hnext.nonempty (annexBConcat rest)
        maxNalus past.length out
      obtain ⟨start, scanned, hscan, hlt, hpush⟩ := ih (past ++ nalu ++ startCode long) hnext hrest
        (pushView maxNalus past.length (past.length + nalu.length) out)
      have hpushed := push_take maxNalus (Nat.le_add_right past.length nalu.length) out
        (viewsFrom (past.length + nalu.length) ((long, next) :: rest))
      simp only [annexBConcat, List.append_assoc, List.length_append, ← Nat.add_assoc,
        Nat.add_sub_cancel_left] at *
      exact ⟨start, scanned, by rw [hunit, hcode, hscan], hlt, hpush.trans hpushed⟩

end CarDetect.Camera
