import CarDetect.Lib.SerialNumber
import CarDetect.Qt.Reassembler

/-!
# The duplicate filter and the order of sequence numbers

`handleRtp` drops a packet as a duplicate by a plain comparison with `_lastSeq`, except for a window
of three numbers around the wrap. `follows_iff` says for which sequence numbers this agrees with
their order modulo 65536, in every state that a receiver reaches.
-/

namespace CarDetect.Qt

open BigEndian SerialNumber

/-! ## What is passed on -/

/-- The packet that `handleRtp` passes to `_processRtpNalu`. -/
def passedOn (s : H264RtpReassembler) (call : QString × Bytes) : Option RtpPacket :=
  match parseRtp call.2 with
  | .error _ => none
  | .ok pkt => if pkt.payload = [] ∨ isDuplicate s pkt.seq then none else some pkt

/-- `handleRtp` with the packets it passes on in place of the frames. -/
def receive (s : H264RtpReassembler) (call : QString × Bytes) :
    Except OutOfBounds (H264RtpReassembler × List RtpPacket) :=
  (handleRtp s call).map fun result => (result.1, (passedOn s call).toList)

/-! ## The property -/

/-- A packet that is newer than `last` is passed on, and another is dropped without a trace. -/
structure Follows (s : H264RtpReassembler) (last : UInt16) (call : QString × Bytes)
    (pkt : RtpPacket) : Prop where
  newer : Newer 32768 last.toNat pkt.seq.toNat →
    passedOn s call = some pkt ∧ handleRtp s call = .ok (process s call.1 pkt)
  older : ¬ Newer 32768 last.toNat pkt.seq.toNat →
    passedOn s call = none ∧ handleRtp s call = .ok (s, [])

/-- The plain comparison tells which of the two numbers is newer. A `last` of zero switches it off,
which is right for the next 32767 numbers only. -/
def Comparable (last current : UInt16) : Prop :=
  if last = 0 then 1 ≤ current ∧ current ≤ 32767
  else if last < current then current.toNat - last.toNat ≤ 32767
  else last.toNat - current.toNat ≤ 32768 ∨ 65533 ≤ last ∧ current ≤ 2

instance (last current : UInt16) : Decidable (Comparable last current) :=
  inferInstanceAs (Decidable (ite _ _ _))

section Filter

variable {s final : H264RtpReassembler} {call : QString × Bytes} {pkt : RtpPacket}
  {calls : List (QString × Bytes)} {packets : List RtpPacket}

/-! ## The filter -/

theorem passed_on_eq (hparse : parseRtp call.2 = .ok pkt) :
    passedOn s call = if pkt.payload = [] ∨ isDuplicate s pkt.seq then none else some pkt := by
  simp only [passedOn, hparse]

/-- The test of `_lastSeq` and the window, on numbers. -/
theorem is_duplicate_eq_false_iff (current : UInt16) :
    isDuplicate s current = false ↔ s.lastSeq = 0 ∨ s.lastSeq < current ∨
      65533 ≤ s.lastSeq ∧ current ≤ 2 := by
  by_cases hzero : s.lastSeq = 0
  · simp [isDuplicate, hzero]
  · have hwindow : ((s.lastSeq.toNat : Int) > 65535 - maxSeqGap ∧
        (current.toNat : Int) < maxSeqGap) ↔ 65533 ≤ s.lastSeq ∧ current ≤ 2 := by
      simp only [maxSeqGap, UInt16.le_iff_toNat_le, UInt16.reduceToNat]
      omega
    simp only [isDuplicate, ← Bool.decide_and, hwindow]
    simp [hzero, Classical.or_iff_not_imp_left, UInt16.not_lt]

/-- The filter agrees with the order of the sequence numbers exactly when they are comparable. -/
theorem duplicate_iff_comparable (current : UInt16) :
    (isDuplicate s current = false ↔ Newer 32768 s.lastSeq.toNat current.toNat) ↔
      Comparable s.lastSeq current := by
  have hlast := s.lastSeq.toNat_lt
  have hcurrent := current.toNat_lt
  rw [is_duplicate_eq_false_iff, Comparable]
  simp only [UInt16.le_iff_toNat_le, UInt16.lt_iff_toNat_lt, UInt16.reduceToNat]
  split
  · rename_i hzero
    simp only [hzero, UInt16.toNat_zero, true_or, true_iff]
    rcases Nat.eq_zero_or_pos current.toNat with hcur | hpos
    · rw [newer_of_le (by omega) (by omega)]
      omega
    · rw [newer_of_lt hpos (by omega)]
      omega
  · rename_i hne
    split
    · rename_i hlt
      rw [newer_of_lt hlt (by omega)]
      simp only [hlt, true_or, or_true, true_iff]
      omega
    · rename_i hle
      rw [newer_of_le (by omega) (by omega)]
      simp only [hne, hle, false_or]
      omega

/-! ## Runs -/

/-- Every call passes on no packet and keeps the last sequence number, or passes on one and takes
its number. -/
theorem receive_ok (h : receive s call = .ok (final, packets)) :
    packets = [] ∧ final.lastSeq = s.lastSeq ∨
      ∃ pkt, packets = [pkt] ∧ final.lastSeq = pkt.seq := by
  cases hparse : parseRtp call.2 with
  | error fault =>
      unfold receive handleRtp at h
      split at h
      · cases h
        refine .inl ⟨?_, rfl⟩
        simp [passedOn, hparse]
      · rw [hparse] at h
        cases h
  | ok pkt =>
      rw [receive, handle_rtp_eq hparse, passed_on_eq hparse] at h
      split at h
      · cases h
        exact .inl ⟨rfl, rfl⟩
      · cases h
        exact .inr ⟨pkt, rfl, rfl⟩

/-- `_lastSeq` is the sequence number of the last packet that was passed on. -/
theorem last_seq_of_run (h : Machine.run receive fresh calls = .ok (s, packets)) :
    s.lastSeq = (packets.getLast?.map RtpPacket.seq).getD 0 := by
  refine Machine.run_history
    (fun _ packets state => state.lastSeq = (packets.getLast?.map RtpPacket.seq).getD 0)
    (fun _ => True) ?_ rfl (fun _ _ => trivial) h
  intro past trace state call final packets hinv _ hstep
  rcases receive_ok hstep with ⟨rfl, hsame⟩ | ⟨pkt, rfl, hseq⟩
  · rw [hsame, hinv, List.append_nil]
  · simp [hseq]

/-- A receiver reaches the same states with the packets that are passed on as outputs. -/
theorem receive_states :
    (Machine.run receive s calls).map Prod.fst = (feed s calls).map Prod.fst := by
  refine Machine.map_fst_run fun state call => ?_
  unfold receive
  cases handleRtp state call <;> rfl

/-- In every state that a receiver reaches after it has passed on a packet, the filter follows the
order of the sequence numbers for a packet with a payload exactly when its number is comparable with
that of the last one passed on. -/
theorem follows_iff {last : RtpPacket} (hrun : Machine.run receive fresh calls = .ok (s, packets))
    (hlast : packets.getLast? = some last) (hparse : parseRtp call.2 = .ok pkt)
    (hpayload : pkt.payload ≠ []) :
    Follows s last.seq call pkt ↔ Comparable last.seq pkt.seq := by
  have hseq : s.lastSeq = last.seq := by
    rw [last_seq_of_run hrun, hlast]
    rfl
  rw [← hseq, ← duplicate_iff_comparable]
  have hpassed := passed_on_eq (s := s) hparse
  have hhandled := handle_rtp_eq (s := s) hparse
  simp only [hpayload, false_or] at hpassed hhandled
  cases hduplicate : isDuplicate s pkt.seq with
  | false =>
      rw [hduplicate] at hpassed hhandled
      simp only [Bool.false_eq_true, if_false] at hpassed hhandled
      simp only [true_iff]
      constructor
      · intro hfollows
        by_contra holder
        rw [(hfollows.older holder).1] at hpassed
        cases hpassed
      · exact fun hnewer => ⟨fun _ => ⟨hpassed, hhandled⟩, fun holder => absurd hnewer holder⟩
  | true =>
      rw [hduplicate] at hpassed hhandled
      simp only [if_true] at hpassed hhandled
      simp only [Bool.true_eq_false, false_iff]
      constructor
      · intro hfollows hnewer
        rw [(hfollows.newer hnewer).1] at hpassed
        cases hpassed
      · exact fun holder => ⟨fun hnewer => absurd hnewer holder, fun _ => ⟨hpassed, hhandled⟩⟩

/-- A packet with this sequence number, and a NAL unit of one byte. -/
def packetNumbered (first second : UInt8) : Bytes :=
  [0x80, 0x60, first, second, 0, 0, 0, 0, 0, 0, 0, 1, 0x41]

/-- The packet 65534, and then the packet 1. -/
theorem follows_iff_wrap :
    Follows (process fresh "cam" ⟨0x80, 0x60, false, 65534, 0, 1, [0x41]⟩).1 65534
        ("cam", packetNumbered 0 1) ⟨0x80, 0x60, false, 1, 0, 1, [0x41]⟩ ↔ Comparable 65534 1 := by
  have hrun : Machine.run receive fresh [("cam", packetNumbered 0xFF 0xFE)] =
      .ok ((process fresh "cam" ⟨0x80, 0x60, false, 65534, 0, 1, [0x41]⟩).1,
        [⟨0x80, 0x60, false, 65534, 0, 1, [0x41]⟩]) := rfl
  exact follows_iff hrun rfl rfl (by decide)

/-- A burst of losses across the wrap: the packet 10 after the packet 65500 is dropped. -/
theorem follows_fails_wrap :
    ¬ ∀ (calls : List (QString × Bytes)) (s : H264RtpReassembler) (packets : List RtpPacket)
      (last pkt : RtpPacket) (call : QString × Bytes),
      Machine.run receive fresh calls = .ok (s, packets) → packets.getLast? = some last →
        parseRtp call.2 = .ok pkt → pkt.payload ≠ [] → Follows s last.seq call pkt := by
  intro h
  have hfollows := h [("cam", packetNumbered 0xFF 0xDC)]
    (process fresh "cam" ⟨0x80, 0x60, false, 65500, 0, 1, [0x41]⟩).1
    [⟨0x80, 0x60, false, 65500, 0, 1, [0x41]⟩] _ _ ("cam", packetNumbered 0 10) rfl rfl rfl
    (by decide)
  exact absurd (hfollows.newer (by decide)).1 (by decide)

end Filter

end CarDetect.Qt
