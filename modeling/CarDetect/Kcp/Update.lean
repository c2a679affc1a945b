import CarDetect.Kcp.Flush

/-!
# Scheduling of flushes

`ikcp_update`, which flushes when `ts_flush` has come, and `ikcp_check`, which tells when to call it
again. `update_flush` and `update_quiet` say when an update flushes. `check_le` and
`check_before_flush` say that the answer of `ikcp_check` is at most an interval ahead and not past
`ts_flush`, and `quiet_before_flush` that no update before `ts_flush` flushes.
-/

namespace CarDetect.Kcp

open BigEndian SequenceSpace

/-- The block at the beginning of `ikcp_update`. -/
def started (kcp : Ikcpcb) (current : UInt32) : Ikcpcb :=
  { kcp with
    current := current
    updated := true
    tsFlush := if kcp.updated then kcp.tsFlush else current }

/-- `slap` is too large in one direction or the other. -/
def adrift (current tsFlush : UInt32) : Bool :=
  itimediff current tsFlush ≥ 10000 || itimediff current tsFlush < -10000

/-- `ts_flush` after the check of `slap`. -/
def synchronized (current tsFlush : UInt32) : UInt32 :=
  if adrift current tsFlush then current else tsFlush

/-- `ts_flush` after a flush. -/
def nextFlush (current tsFlush interval : UInt32) : UInt32 :=
  if itimediff current (tsFlush + interval) ≥ 0 then current + interval else tsFlush + interval

/-- `ikcp_update`: the block after it and the datagrams that went to the output callback. -/
def ikcpUpdate (kcp : Ikcpcb) (current : UInt32) : Ikcpcb × List Bytes :=
  let kcp := started kcp current
  let tsFlush := synchronized current kcp.tsFlush
  if itimediff current tsFlush ≥ 0 then
    ikcpFlush { kcp with tsFlush := nextFlush current tsFlush kcp.interval }
  else ({ kcp with tsFlush := tsFlush }, [])

/-- The loop of `ikcp_check` over `snd_buf`: `tm_packet`, or nothing if a segment is due. -/
def packetTime (current : UInt32) : List IkcpSeg → Int → Option Int
  | [], tmPacket => some tmPacket
  | seg :: rest, tmPacket =>
      if itimediff seg.resendts current ≤ 0 then none
      else packetTime current rest (min (itimediff seg.resendts current) tmPacket)

/-- `ikcp_check` -/
def ikcpCheck (kcp : Ikcpcb) (current : UInt32) : UInt32 :=
  if !kcp.updated then current
  else if itimediff current (synchronized current kcp.tsFlush) ≥ 0 then current
  else
    match packetTime current kcp.sndBuf 0x7fffffff with
    | none => current
    | some tmPacket =>
        let minimal := UInt32.ofNat
          (min tmPacket (itimediff (synchronized current kcp.tsFlush) current)).toNat
        current + (if minimal ≥ kcp.interval then kcp.interval else minimal)

section Update

variable {kcp : Ikcpcb} {current now : UInt32}

/-- `ts_flush` is in the future of a reading, by at most `most`. -/
def FlushWithin (current tsFlush : UInt32) (most : Nat) : Prop :=
  0 < offset current tsFlush ∧ offset current tsFlush ≤ most

/-- A time is ahead of a reading when the reading is behind it. -/
theorem offset_of_behind {tsFlush : UInt32} (hbehind : itimediff current tsFlush < 0)
    (hnear : -10000 ≤ itimediff current tsFlush) :
    (offset current tsFlush : Int) = -itimediff current tsFlush ∧ 0 < offset current tsFlush ∧
      offset current tsFlush ≤ 10000 := by
  have hoffset := offset_eq current tsFlush
  rw [itimediff, ahead_eq_bmod] at *
  have hcurrent := current.toNat_lt
  have hflush := tsFlush.toNat_lt
  rw [Int.bmod_def] at *
  push_cast at *
  split at hbehind <;> omega

/-- The reading that is adjusted is not adrift any more. -/
theorem synchronized_near (current tsFlush : UInt32) :
    -10000 ≤ itimediff current (synchronized current tsFlush) ∧
      itimediff current (synchronized current tsFlush) < 10000 := by
  unfold synchronized
  split
  · rw [itimediff, ahead_self]
    exact ⟨by decide, by decide⟩
  · rename_i hnear
    unfold adrift at hnear
    rw [Bool.or_eq_true, decide_eq_true_iff, decide_eq_true_iff, not_or] at hnear
    omega

/-- After a flush the next one is at most an interval ahead. -/
theorem nextFlush_within {tsFlush interval : UInt32} (hpos : 0 < interval.toNat)
    (hmost : interval.toNat ≤ 5000) (hdue : 0 ≤ itimediff current tsFlush) :
    FlushWithin current (nextFlush current tsFlush interval) interval.toNat := by
  unfold nextFlush FlushWithin
  split
  · rw [offset_add]
    exact ⟨hpos, Nat.le_refl _⟩
  · rename_i hlate
    rw [not_le] at hlate
    -- both readings count from the old `ts_flush`
    have hcurrent : offset tsFlush current < 2 ^ 31 := offset_of_ahead hdue
    have hbase : offset tsFlush (tsFlush + interval) = interval.toNat := offset_add _ _
    rw [itimediff, ahead_offset hcurrent (by omega), hbase] at hlate
    have hrebase := @offset_rebase tsFlush current (tsFlush + interval) (by omega)
    omega

/-- An update flushes when the adjusted `ts_flush` has come. -/
theorem update_flush (hdue : 0 ≤ itimediff now (synchronized now (started kcp now).tsFlush)) :
    ikcpUpdate kcp now = ikcpFlush { started kcp now with
      tsFlush := nextFlush now (synchronized now (started kcp now).tsFlush) kcp.interval } := by
  unfold ikcpUpdate
  exact if_pos hdue

theorem update_quiet (hearly : itimediff now (synchronized now (started kcp now).tsFlush) < 0) :
    ikcpUpdate kcp now = ({ started kcp now with
      tsFlush := synchronized now (started kcp now).tsFlush }, []) := by
  unfold ikcpUpdate
  exact if_neg (Int.not_le.2 hearly)

/-- An update overwrites the time of the last one. -/
theorem update_current (kcp : Ikcpcb) (current now : UInt32) :
    ikcpUpdate { kcp with current := current } now = ikcpUpdate kcp now := rfl

/-! ## `ikcp_check` -/

/-- The answer of `ikcp_check` is at most an interval ahead. -/
theorem check_le (kcp : Ikcpcb) (current : UInt32) :
    offset current (ikcpCheck kcp current) ≤ kcp.interval.toNat := by
  have hnow : offset current current ≤ kcp.interval.toNat := by
    rw [offset_self]
    exact Nat.zero_le _
  unfold ikcpCheck
  split
  · exact hnow
  · split
    · exact hnow
    · split
      · exact hnow
      · simp only [offset_add]
        split
        · exact Nat.le_refl _
        · rename_i hless
          exact Nat.le_of_lt (UInt32.lt_iff_toNat_lt.1 (UInt32.not_le.1 hless))

/-- An answer in the future is not behind `ts_flush`, which is not adrift. -/
theorem check_before_flush (hfuture : offset current (ikcpCheck kcp current) ≠ 0) :
    kcp.updated = true ∧ -10000 ≤ itimediff current kcp.tsFlush ∧
      itimediff current kcp.tsFlush < 0 ∧
      offset current (ikcpCheck kcp current) ≤ offset current kcp.tsFlush := by
  unfold ikcpCheck at hfuture ⊢
  split at hfuture
  · exact absurd (offset_self _) hfuture
  · rename_i hupdated
    split at hfuture
    · exact absurd (offset_self _) hfuture
    · rename_i hearly
      rw [not_le] at hearly
      have hsync : synchronized current kcp.tsFlush = kcp.tsFlush := by
        unfold synchronized at hearly ⊢
        split at hearly
        · rw [itimediff, ahead_self] at hearly
          exact absurd hearly (by decide)
        · rename_i hnear
          exact if_neg hnear
      have hnear := (synchronized_near current kcp.tsFlush).1
      rw [hsync] at hearly hnear
      obtain ⟨hahead, hpos, hmost⟩ := offset_of_behind hearly hnear
      split at hfuture
      · exact absurd (offset_self _) hfuture
      · rename_i tmPacket hpacket
        refine ⟨by simpa using hupdated, hnear, hearly, ?_⟩
        have htmFlush : itimediff kcp.tsFlush current = offset current kcp.tsFlush :=
          ahead_base (by omega)
        rw [if_neg hupdated, if_neg (by rw [hsync]; omega)]
        simp only [offset_add, hsync, htmFlush]
        have hminimal : (UInt32.ofNat
            (min tmPacket (offset current kcp.tsFlush : Int)).toNat).toNat ≤
            offset current kcp.tsFlush := by
          rw [UInt32.toNat_ofNat']
          omega
        split
        · rename_i hle
          exact Nat.le_trans (UInt32.le_iff_toNat_le.1 hle) hminimal
        · exact hminimal

/-- No update before a `ts_flush` that is not adrift flushes. -/
theorem quiet_before_flush (hupdated : kcp.updated = true)
    (hnear : -10000 ≤ itimediff current kcp.tsFlush) (hearly : itimediff current kcp.tsFlush < 0)
    (hbefore : offset current now < offset current kcp.tsFlush) :
    ikcpUpdate kcp now = ({ kcp with current := now }, []) := by
  obtain ⟨hahead, hpos, hmost⟩ := offset_of_behind hearly hnear
  have hflush : (started kcp now).tsFlush = kcp.tsFlush := by
    show (if kcp.updated then kcp.tsFlush else now) = _
    rw [if_pos hupdated]
  -- both readings are in the half of the range above the first
  have hdiff : itimediff now kcp.tsFlush = (offset current now : Int) - offset current kcp.tsFlush :=
    ahead_offset (by omega) (by omega)
  have hsync : synchronized now kcp.tsFlush = kcp.tsFlush := by
    unfold synchronized adrift
    rw [if_neg]
    rw [Bool.or_eq_true, decide_eq_true_iff, decide_eq_true_iff, hdiff]
    omega
  rw [update_quiet (by rw [hflush, hsync]; omega), hflush, hsync]
  simp only [started, hupdated]

end Update

end CarDetect.Kcp
