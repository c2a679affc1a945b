import Mathlib.Data.List.Induction
import CarDetect.Qt.Reassembler

/-!
# What the buffer of fragments holds

The fields `_fuBuffer`, `_fuStarted`, `_fuStartSeq` and `_fuExpectedSeq` are set and reset in many
places. `inserts` lists what a call of `handleRtp` inserts into the buffer, branch by branch, and
`represents_feed` says what the fields are after any packets: a buffer of a bounded size that the
insertions since the last start packet have made.
-/

namespace CarDetect.Qt

open BigEndian

/-- A `_fuBuffer.insert`, and the two bits of the FU header that came with it. -/
structure FuInsert where
  unit : RtpUnit
  isFuStart : Bool
  isFuEnd : Bool
deriving DecidableEq, Repr

/-- What `processFuStart` inserts. -/
def insertsFuStart (pkt : RtpPacket) (isFuEnd : Bool) (nalHeader : UInt8) (data : Bytes) :
    List FuInsert :=
  if data = [] then [] else [⟨⟨pkt.seq, nalHeader :: data⟩, true, isFuEnd⟩]

/-- What `processFuNext` inserts. -/
def insertsFuNext (s : H264RtpReassembler) (pkt : RtpPacket) (isFuEnd : Bool) (data : Bytes) :
    List FuInsert :=
  let seqGap : Int := pkt.seq.toNat - s.fuExpectedSeq.toNat
  if seqGap < 0 then []
  else if seqGap > maxSeqGap then []
  else [⟨⟨pkt.seq, data⟩, false, isFuEnd⟩]

/-- What `processFuA` inserts. -/
def insertsFuA (s : H264RtpReassembler) (pkt : RtpPacket) (fuIndicator : UInt8) (rest : Bytes) :
    List FuInsert :=
  match rest with
  | [] => []
  | fuHeader :: data =>
      let isFuStart := (fuHeader &&& 0x80) != 0
      let isFuEnd := (fuHeader &&& 0x40) != 0
      let realNalType := fuHeader &&& 0x1F
      if realNalType = 0 || realNalType ≥ 24 then []
      else if isFuStart then
        insertsFuStart pkt isFuEnd ((fuIndicator &&& 0xE0) ||| realNalType) data
      else if s.fuStarted then insertsFuNext s pkt isFuEnd data
      else []

/-- What `processRtpNalu` inserts. -/
def insertsRtpNalu (s : H264RtpReassembler) (pkt : RtpPacket) : List FuInsert :=
  match pkt.payload with
  | [] => []
  | first :: rest =>
      let nalType := first &&& 0x1F
      if nalType > 0 && nalType < 24 then []
      else if nalType = 28 then insertsFuA s pkt first rest
      else []

/-- What `handleRtp` inserts. -/
def inserts (s : H264RtpReassembler) (call : QString × Bytes) : List FuInsert :=
  match parseRtp call.2 with
  | .error _ => []
  | .ok pkt =>
      if pkt.payload = [] ∨ isDuplicate s pkt.seq then []
      else
        insertsRtpNalu (if isLargeGap s pkt.seq then resetFu { s with frame := [] } else s) pkt

/-- `handleRtp`, with its insertions in place of its frames. -/
def collect (s : H264RtpReassembler) (call : QString × Bytes) :
    Except OutOfBounds (H264RtpReassembler × List FuInsert) :=
  (handleRtp s call).map fun result => (result.1, inserts s call)

/-- The buffer that insertions into an empty one make. -/
def replay (log : List FuInsert) : QMap UInt16 RtpUnit :=
  log.foldl (fun buffer one => buffer.insert one.unit.seq one.unit) ∅

/-! ## The property -/

/-- The fields of a reassembler, after these insertions. -/
structure Represents (s : H264RtpReassembler) (log : List FuInsert) : Prop where
  bounded : s.fuBuffer.size ≤ maxFuBufferSize
  stopped : s.fuStarted = false → s.fuBuffer.isEmpty = true
  startKey : s.fuStarted = true → s.fuStartSeq ∈ s.fuBuffer
  expected : s.fuStarted = true → ∃ earlier last, log = earlier ++ [last] ∧
    s.fuExpectedSeq = last.unit.seq + 1
  others : s.fuStarted = true → ∃ before start later, log = before ++ start :: later ∧
    start.isFuStart = true ∧ start.unit.seq = s.fuStartSeq ∧ s.fuBuffer = replay (start :: later) ∧
      ∀ key unit, s.fuBuffer[key]? = some unit → key ≠ s.fuStartSeq → ∃ one ∈ later,
        one.unit = unit ∧ one.unit.seq = key ∧ one.isFuStart = false ∧ one.isFuEnd = false

/-! ## The insertions since the start packet -/

/-- The buffer has been filled by a start packet and by middle packets after it. -/
structure Collected (s : H264RtpReassembler) (start : FuInsert) (later : List FuInsert) :
    Prop where
  opens : start.isFuStart = true
  first : start.unit.seq = s.fuStartSeq
  middle : ∀ one ∈ later, one.isFuStart = false ∧ one.isFuEnd = false
  buffer : s.fuBuffer = replay (start :: later)
  last : s.fuExpectedSeq = (later.getLastD start).unit.seq + 1

/-- What every step keeps. -/
structure FuHistory (s : H264RtpReassembler) (log : List FuInsert) : Prop where
  bounded : s.fuBuffer.size ≤ maxFuBufferSize
  stopped : s.fuStarted = false → s.fuBuffer = ∅
  started : s.fuStarted = true → ∃ before start later, log = before ++ start :: later ∧
    Collected s start later

section Replay

variable {log : List FuInsert} {key : UInt16} {unit : RtpUnit}

theorem replay_append (log : List FuInsert) (one : FuInsert) :
    replay (log ++ [one]) = (replay log).insert one.unit.seq one.unit := by
  unfold replay
  rw [List.foldl_append]
  rfl

/-- What a buffer has under a key was inserted under it. -/
theorem get_replay (h : (replay log)[key]? = some unit) :
    ∃ one ∈ log, one.unit = unit ∧ one.unit.seq = key := by
  induction log using List.reverseRecOn with
  | nil => simp [replay] at h
  | append_singleton log one ih =>
      rw [replay_append, Std.TreeMap.getElem?_insert] at h
      split at h
      · rename_i hkey
        cases h
        exact ⟨one, List.mem_append_right _ (List.mem_singleton.2 rfl), rfl,
          Std.compare_eq_iff_eq.1 hkey⟩
      · obtain ⟨earlier, hmem, hearlier⟩ := ih h
        exact ⟨earlier, List.mem_append_left _ hmem, hearlier⟩

/-- Every key that was inserted is in the buffer. -/
theorem mem_replay {one : FuInsert} (h : one ∈ log) : one.unit.seq ∈ replay log := by
  induction log using List.reverseRecOn with
  | nil => cases h
  | append_singleton log other ih =>
      rw [replay_append, Std.TreeMap.mem_insert]
      rcases List.mem_append.1 h with hold | hnew
      · exact .inr (ih hold)
      · cases List.mem_singleton.1 hnew
        exact .inl Std.ReflOrd.compare_self

end Replay

section History

variable {s t : H264RtpReassembler} {log : List FuInsert}

/-- What the insertions since the start packet say about the fields. -/
theorem FuHistory.represents (h : FuHistory s log) : Represents s log := by
  refine ⟨h.bounded, fun hstopped => ?_, fun hstarted => ?_, fun hstarted => ?_,
    fun hstarted => ?_⟩
  · rw [h.stopped hstopped]
    exact Std.TreeMap.isEmpty_emptyc
  · obtain ⟨before, start, later, -, hcollected⟩ := h.started hstarted
    rw [hcollected.buffer, ← hcollected.first]
    exact mem_replay List.mem_cons_self
  · obtain ⟨before, start, later, hlog, hcollected⟩ := h.started hstarted
    rw [hcollected.last, hlog]
    cases later using List.reverseRecOn with
    | nil => exact ⟨before, start, rfl, rfl⟩
    | append_singleton later one =>
        refine ⟨before ++ start :: later, one, ?_, ?_⟩
        · rw [List.append_assoc]
          rfl
        · rw [List.getLastD_concat]
  · obtain ⟨before, start, later, hlog, hcollected⟩ := h.started hstarted
    refine ⟨before, start, later, hlog, hcollected.opens, hcollected.first, hcollected.buffer, ?_⟩
    intro key unit hget hkey
    rw [hcollected.buffer] at hget
    obtain ⟨one, hmem, hunit, hseq⟩ := get_replay hget
    rcases List.mem_cons.1 hmem with rfl | hlater
    · exact absurd (hseq.symm.trans hcollected.first) hkey
    · exact ⟨one, hlater, hunit, hseq, hcollected.middle one hlater⟩

theorem history_fresh : FuHistory fresh [] where
  bounded := Nat.zero_le _
  stopped := fun _ => rfl
  started := nofun

/-- A reset leaves nothing behind. -/
theorem history_reset (s : H264RtpReassembler) (log : List FuInsert) :
    FuHistory (resetFu s) log where
  bounded := Nat.zero_le _
  stopped := fun _ => rfl
  started := nofun

/-- The history is about four of the fields. -/
theorem FuHistory.of_eq (h : FuHistory s log) (hbuffer : t.fuBuffer = s.fuBuffer)
    (hstarted : t.fuStarted = s.fuStarted) (hstart : t.fuStartSeq = s.fuStartSeq)
    (hexpected : t.fuExpectedSeq = s.fuExpectedSeq) : FuHistory t log := by
  refine ⟨hbuffer ▸ h.bounded, fun hstopped => ?_, fun hcollecting => ?_⟩
  · rw [hbuffer]
    exact h.stopped (hstarted ▸ hstopped)
  · obtain ⟨before, start, later, hlog, hcollected⟩ := h.started (hstarted ▸ hcollecting)
    exact ⟨before, start, later, hlog, hcollected.opens, hstart ▸ hcollected.first,
      hcollected.middle, hbuffer ▸ hcollected.buffer, hexpected ▸ hcollected.last⟩

theorem history_flush (h : FuHistory s log) (streamName : QString) (marker : Bool) :
    FuHistory (flush s streamName marker).1 log := by
  unfold flush
  split
  · exact h.of_eq rfl rfl rfl rfl
  · exact h

theorem history_save (h : FuHistory s log) (nalType : UInt8) (data : Bytes) :
    FuHistory (checkAndSaveSpsPps s nalType data) log := by
  unfold checkAndSaveSpsPps
  split
  · exact h.of_eq rfl rfl rfl rfl
  · split
    · exact h.of_eq rfl rfl rfl rfl
    · exact h

/-- A fragment that joins the buffer. -/
theorem Collected.insert {start : FuInsert} {later : List FuInsert} (h : Collected s start later)
    (seq : UInt16) (data : Bytes) :
    Collected { s with
      fuBuffer := s.fuBuffer.insert seq ⟨seq, data⟩
      fuExpectedSeq := seq + 1 } start (later ++ [⟨⟨seq, data⟩, false, false⟩]) := by
  refine ⟨h.opens, h.first, fun one hone => ?_, ?_, ?_⟩
  · rcases List.mem_append.1 hone with hearlier | hnew
    · exact h.middle one hearlier
    · cases List.mem_singleton.1 hnew
      exact ⟨rfl, rfl⟩
  · show s.fuBuffer.insert seq ⟨seq, data⟩ =
      replay ((start :: later) ++ [⟨⟨seq, data⟩, false, false⟩])
    rw [replay_append, ← h.buffer]
  · rw [List.getLastD_concat]

/-- The end of a fragmented unit. -/
theorem history_finish (currentSeq : UInt16) (nalType : UInt8) :
    FuHistory (finishFu s currentSeq nalType) log :=
  history_reset _ log

end History

/-! ## What one packet does -/

section Packets

variable {s : H264RtpReassembler} {log : List FuInsert} {streamName : QString} {pkt : RtpPacket}

/-- A start packet begins a buffer of its own, or leaves none. -/
theorem history_start (isFuEnd : Bool) (nalHeader : UInt8) (data : Bytes) :
    FuHistory (processFuStart s streamName pkt nalHeader data).1
      (log ++ insertsFuStart pkt isFuEnd nalHeader data) := by
  unfold processFuStart insertsFuStart
  split
  · exact history_reset s _
  · have hsize :
        ((∅ : QMap UInt16 RtpUnit).insert pkt.seq ⟨pkt.seq, nalHeader :: data⟩).size = 1 := by
      simp [Std.TreeMap.size_insert]
    have hsmall : ¬ 1 > maxFuBufferSize := by decide
    simp only [hsize, if_neg hsmall]
    refine history_flush ⟨?_, fun hstopped => ?_, fun _ => ?_⟩ streamName pkt.marker
    · rw [hsize]
      exact Nat.le_of_not_lt hsmall
    · cases hstopped
    · exact ⟨log, _, [], rfl, rfl, rfl, nofun, rfl, rfl⟩

/-- A middle packet joins the buffer, an end packet empties it. -/
theorem history_next (h : FuHistory s log) (hstarted : s.fuStarted = true) (isFuEnd : Bool)
    (nalType : UInt8) (data : Bytes) :
    FuHistory (processFuNext s streamName pkt isFuEnd nalType data).1
      (log ++ insertsFuNext s pkt isFuEnd data) := by
  obtain ⟨before, start, later, hlog, hcollected⟩ := h.started hstarted
  simp only [processFuNext, insertsFuNext]
  by_cases hold : (pkt.seq.toNat : Int) - s.fuExpectedSeq.toNat < 0
  · rw [if_pos hold, if_pos hold, List.append_nil]
    exact h
  · rw [if_neg hold, if_neg hold]
    by_cases hgap : (pkt.seq.toNat : Int) - s.fuExpectedSeq.toNat > maxSeqGap
    · rw [if_pos hgap, if_pos hgap]
      exact history_reset s _
    · have hexpected : pkt.seq ≥ s.fuExpectedSeq := UInt16.le_iff_toNat_le.2 (by omega)
      rw [if_neg hgap, if_neg hgap]
      simp only [if_pos hexpected]
      split
      · exact history_reset _ _
      · rename_i hsize
        refine history_flush ?_ streamName pkt.marker
        cases isFuEnd with
        | true => exact history_finish pkt.seq nalType
        | false =>
            simp only [Bool.false_eq_true, if_false]
            refine ⟨Nat.le_of_not_lt hsize, fun hstopped => ?_, fun _ => ?_⟩
            · cases hstarted.symm.trans hstopped
            · refine ⟨before, start, later ++ [⟨⟨pkt.seq, data⟩, false, false⟩], ?_,
                hcollected.insert pkt.seq data⟩
              rw [hlog, List.append_assoc]
              rfl

/-- A fragment. -/
theorem history_fu_a (h : FuHistory s log) (fuIndicator : UInt8) (rest : Bytes) :
    FuHistory (processFuA s streamName pkt fuIndicator rest).1
      (log ++ insertsFuA s pkt fuIndicator rest) := by
  cases rest with
  | nil => exact history_reset s _
  | cons fuHeader data =>
      simp only [processFuA, insertsFuA]
      split
      · exact history_reset s _
      · split
        · exact history_start _ _ data
        · split
          · rename_i hstarted
            exact history_next h hstarted _ _ data
          · rw [List.append_nil]
            exact history_flush h streamName pkt.marker

/-- A packet with a whole NAL unit abandons the buffer. -/
theorem history_single (h : FuHistory s log) (nalType : UInt8) :
    FuHistory (processSingle s streamName pkt nalType).1 log := by
  have habandoned : FuHistory (if s.fuStarted then resetFu s else s) log := by
    split
    · exact history_reset s log
    · exact h
  have hsaved := history_save habandoned nalType (annexB pkt.payload)
  have happended (frame : Bytes) : FuHistory { checkAndSaveSpsPps
      (if s.fuStarted then resetFu s else s) nalType (annexB pkt.payload) with
        frame := frame } log := hsaved.of_eq rfl rfl rfl rfl
  exact history_flush (history_flush (happended _) streamName pkt.marker) streamName pkt.marker

/-- A packet that is passed on. -/
theorem history_nalu (h : FuHistory s log) :
    FuHistory (processRtpNalu s streamName pkt).1 (log ++ insertsRtpNalu s pkt) := by
  cases hpayload : pkt.payload with
  | nil =>
      simp only [processRtpNalu, insertsRtpNalu, hpayload, List.append_nil]
      exact h
  | cons first rest =>
      simp only [processRtpNalu, insertsRtpNalu, hpayload]
      split
      · rw [List.append_nil]
        exact history_single h _
      · split
        · exact history_fu_a h first rest
        · rw [List.append_nil]
          exact history_flush h streamName pkt.marker

/-- A call of `handleRtp`. -/
theorem history_call {call : QString × Bytes} {final : H264RtpReassembler} {made : List FuInsert}
    (h : FuHistory s log) (hcall : collect s call = .ok (final, made)) :
    FuHistory final (log ++ made) := by
  unfold collect at hcall
  cases hparse : parseRtp call.2 with
  | error fault =>
      by_cases hempty : call.2 = []
      · simp only [handleRtp, if_pos hempty, inserts, hparse, Except.map] at hcall
        cases hcall
        rw [List.append_nil]
        exact h
      · simp only [handleRtp, if_neg hempty, hparse, Except.map, reduceCtorEq] at hcall
  | ok pkt =>
      rw [handle_rtp_eq hparse] at hcall
      simp only [inserts, hparse, Except.map] at hcall
      split at hcall
      · cases hcall
        rw [List.append_nil]
        exact h
      · cases hcall
        have hgap : FuHistory
            (if isLargeGap s pkt.seq then resetFu { s with frame := [] } else s) log := by
          split
          · exact history_reset _ log
          · exact h
        exact (history_nalu hgap).of_eq rfl rfl rfl rfl

/-- A packet of twelve bytes or more is handled. -/
theorem collect_total {call : QString × Bytes} (h : 12 ≤ call.2.length) :
    ∃ result, collect s call = .ok result := by
  have hparse : ∃ pkt, parseRtp call.2 = .ok pkt := by
    match call.2, h with
    | p0 :: p1 :: p2 :: p3 :: p4 :: p5 :: p6 :: p7 :: p8 :: p9 :: p10 :: p11 :: payload, _ =>
        exact ⟨_, rfl⟩
  obtain ⟨pkt, hpkt⟩ := hparse
  rw [collect, handle_rtp_eq hpkt]
  exact ⟨_, rfl⟩

end Packets

/-! ## Any packets -/

/-- Noting the insertions does not change what the reassembler does. -/
theorem feed_of_collect {s final : H264RtpReassembler} {calls : List (QString × Bytes)}
    {log : List FuInsert} (h : Machine.run collect s calls = .ok (final, log)) :
    ∃ frames, feed s calls = .ok (final, frames) := by
  have hsame : (Machine.run collect s calls).map Prod.fst =
      (Machine.run handleRtp s calls).map Prod.fst := by
    refine Machine.map_fst_run fun state call => ?_
    unfold collect
    cases handleRtp state call <;> rfl
  rw [h] at hsame
  exact Machine.of_map_fst hsame.symm

/-- After any packets of at least twelve bytes the buffer is bounded, it is empty when no unit has
been started, and otherwise it is what the start packet and the middle packets after it have made,
with the expected number behind the last one. -/
theorem represents_feed (calls : List (QString × Bytes))
    (hlong : ∀ call ∈ calls, 12 ≤ call.2.length) :
    ∃ final frames log, feed fresh calls = .ok (final, frames) ∧
      Machine.run collect fresh calls = .ok (final, log) ∧ Represents final log := by
  have htotal : ∃ result, Machine.run collect fresh calls = .ok result :=
    Machine.run_total (fun call => 12 ≤ call.2.length) (fun _ _ h => collect_total h) hlong
  obtain ⟨⟨final, log⟩, hrun⟩ := htotal
  obtain ⟨frames, hfeed⟩ := feed_of_collect hrun
  have hhistory : FuHistory final log :=
    Machine.run_history (fun _ log s => FuHistory s log) (fun _ => True)
      (fun _ _ _ _ _ _ hinv _ hstep => history_call hinv hstep) history_fresh
      (fun _ _ => trivial) hrun
  exact ⟨final, frames, log, hfeed, hrun, hhistory.represents⟩

/-- A start packet with the number 9 and a middle packet. -/
def twoFragments : List (QString × Bytes) :=
  [("cam", [0x80, 96, 0, 9, 0, 0, 0, 0, 0, 0, 0, 1, 0x7C, 0x85, 1]),
    ("cam", [0x80, 96, 0, 10, 0, 0, 0, 0, 0, 0, 0, 1, 0x7C, 0x05, 2])]

theorem represents_two_fragments : ∃ final frames log,
    feed fresh twoFragments = .ok (final, frames) ∧
      Machine.run collect fresh twoFragments = .ok (final, log) ∧ Represents final log :=
  represents_feed twoFragments (by decide)

end CarDetect.Qt
