import CarDetect.Kcp.Endpoint
import CarDetect.Lib.Machine
import CarDetect.Camera.KcpSchedule

/-!
# Updates in time

The programs call `ikcp_update` in three ways: the timer of the Qt client and the threads of the
media server at intervals, and the main loop of the camera when `ikcp_check` tells it to. Other
threads call `ikcp_send`, `ikcp_flush` and `ikcp_input` in between.

`quiet_until_check` is what the camera relies on, `polls_paced` says how often the updates flush,
and `drive_driven` puts the real block into the loop of `CarDetect.Camera.KcpSchedule`.
-/

namespace CarDetect.Kcp

open SequenceSpace

/-! ## After a call of `ikcp_check` -/

section Check

variable {kcp after : Ikcpcb} {current now : UInt32} {calls past rest : List Call}

theorem timer_of_settings (h : after.settings = kcp.settings) :
    after.updated = kcp.updated ∧ after.tsFlush = kcp.tsFlush ∧ after.interval = kcp.interval := by
  have hupdated := congrArg Ikcpcb.updated h
  have hflush := congrArg Ikcpcb.tsFlush h
  have hinterval := congrArg Ikcpcb.interval h
  exact ⟨hupdated, hflush, hinterval⟩

/-- Calls whose updates come before `ts_flush` leave it alone. -/
theorem timer_calls (hupdated : kcp.updated = true)
    (hnear : -10000 ≤ itimediff current kcp.tsFlush) (hearly : itimediff current kcp.tsFlush < 0)
    (hbefore : ∀ now, .update now ∈ calls → offset current now < offset current kcp.tsFlush) :
    (calls.foldl Call.apply kcp).updated = true ∧
      (calls.foldl Call.apply kcp).tsFlush = kcp.tsFlush := by
  induction calls generalizing kcp with
  | nil => exact ⟨hupdated, rfl⟩
  | cons call rest ih =>
      have hother (call : Call) (hcall : ¬ call.IsUpdate) :
          (call.apply kcp).updated = true ∧ (call.apply kcp).tsFlush = kcp.tsFlush := by
        obtain ⟨hsame, hflush, -⟩ := timer_of_settings (settings_call kcp hcall)
        exact ⟨hsame.trans hupdated, hflush⟩
      have hcall : (call.apply kcp).updated = true ∧ (call.apply kcp).tsFlush = kcp.tsFlush := by
        cases call with
        | update now =>
            have hquiet := quiet_before_flush hupdated hnear hearly
              (hbefore now List.mem_cons_self)
            show (ikcpUpdate kcp now).1.updated = true ∧ (ikcpUpdate kcp now).1.tsFlush = _
            rw [hquiet]
            exact ⟨hupdated, rfl⟩
        | send | recv | input | flush => exact hother _ id
      obtain ⟨hsame, hflush⟩ := hcall
      have hrest := @ih (call.apply kcp) hsame (by rwa [hflush]) (by rwa [hflush])
        (fun now hmem => by rw [hflush]; exact hbefore now (List.mem_cons_of_mem _ hmem))
      exact ⟨hrest.1, hrest.2.trans hflush⟩

/-- `ikcp_check` names a time at most an interval ahead. Until then, whatever the program calls and
whatever arrives, no update does more than to read the clock. -/
theorem quiet_until_check (kcp : Ikcpcb) (current : UInt32) (calls : List Call)
    (hbefore : ∀ now, .update now ∈ calls →
      offset current now < offset current (ikcpCheck kcp current)) :
    offset current (ikcpCheck kcp current) ≤ kcp.interval.toNat ∧
      ∀ past now rest, calls = past ++ .update now :: rest →
        ikcpUpdate (past.foldl Call.apply kcp) now =
          ({ past.foldl Call.apply kcp with current := now }, []) := by
  refine ⟨check_le kcp current, fun past now rest hcalls => ?_⟩
  subst hcalls
  have hnow := hbefore now (List.mem_append_right _ List.mem_cons_self)
  have hfuture : offset current (ikcpCheck kcp current) ≠ 0 := by omega
  obtain ⟨hupdated, hnear, hearly, hle⟩ := check_before_flush hfuture
  have hpast (now : UInt32) (hmem : .update now ∈ past) :
      offset current now < offset current kcp.tsFlush :=
    Nat.lt_of_lt_of_le (hbefore now (List.mem_append_left _ hmem)) hle
  obtain ⟨hsame, hflush⟩ := timer_calls hupdated hnear hearly hpast
  refine @quiet_before_flush _ current _ hsame ?_ ?_ ?_ <;> rw [hflush]
  · exact hnear
  · exact hearly
  · omega

/-- An update, a message, and updates until the flush is due. -/
def early : List Call := [.send [1, 2, 3], .update 1003, .input [], .update 1009]

theorem quiet_until_check_early :
    offset 1000 (ikcpCheck (ikcpUpdate (wideConfig.block 9) 1000).1 1000) ≤ 10 ∧
      ∀ past now rest, early = past ++ .update now :: rest →
        ikcpUpdate (past.foldl Call.apply (ikcpUpdate (wideConfig.block 9) 1000).1) now =
          ({ past.foldl Call.apply (ikcpUpdate (wideConfig.block 9) 1000).1 with current := now },
            []) := by
  have hdue : offset 1000 (ikcpCheck (ikcpUpdate (wideConfig.block 9) 1000).1 1000) = 10 := by rfl
  refine quiet_until_check _ 1000 early fun now hnow => ?_
  rw [hdue]
  simp only [early, List.mem_cons, Call.update.injEq, reduceCtorEq, false_or, List.not_mem_nil,
    or_false] at hnow
  rcases hnow with rfl | rfl <;> decide

end Check

/-! ## Updates at intervals -/

/-- `ikcp_update` flushes. -/
def flushDue (kcp : Ikcpcb) (current : UInt32) : Bool :=
  itimediff current (synchronized current (started kcp current).tsFlush) ≥ 0

/-- A block, and the clock of the program that owns it in milliseconds. -/
structure Polled where
  kcp : Ikcpcb
  clock : Nat

/-- The calls before an update, and how long after the last update it comes. -/
structure Poll where
  calls : List Call
  wait : Nat

/-- The calls and the update. The output is the time of the update if it flushes. -/
def Polled.poll : Machine.Step Polled Poll Nat Empty
  | polled, poll =>
      let kcp := poll.calls.foldl Call.apply polled.kcp
      let clock := polled.clock + poll.wait
      .ok (⟨(ikcpUpdate kcp (UInt32.ofNat clock)).1, clock⟩,
        if flushDue kcp (UInt32.ofNat clock) then [clock] else [])

/-- Less than 2^30 ms pass, and the other calls are no updates. -/
def Poll.Regular (poll : Poll) : Prop :=
  poll.wait < 2 ^ 30 ∧ ∀ call ∈ poll.calls, ¬ call.IsUpdate

/-- Between the first and the last of some consecutive times there are more than the intervals
between those in the middle. -/
def Spaced (interval : Nat) (times : List Nat) : Prop :=
  ∀ first middle last, first :: middle ++ [last] <:+: times →
    first + middle.length * interval < last

/-- Every later time has to be at or after `next`. -/
def Reserved (interval : Nat) (times : List Nat) (next : Nat) : Prop :=
  ∀ first later, first :: later <:+ times → first + later.length * interval < next

section Pacing

variable {interval next time : Nat} {times : List Nat}

theorem spaced_append (hspaced : Spaced interval times) (hreserved : Reserved interval times next)
    (hle : next ≤ time) : Spaced interval (times ++ [time]) := by
  intro first middle last hinfix
  rcases List.infix_concat_iff.1 hinfix with hsuffix | hinfix
  · rcases List.suffix_concat_iff.1 hsuffix with hnil | ⟨front, heq, hfront⟩
    · cases hnil
    · obtain ⟨rfl, hlast⟩ := List.append_inj' heq rfl
      obtain rfl := List.singleton_inj.1 hlast
      exact Nat.lt_of_lt_of_le (hreserved first middle hfront) hle
  · exact hspaced first middle last hinfix

theorem reserved_append {after : Nat} (hreserved : Reserved interval times next)
    (htime : time < after) (hafter : times = [] ∨ next + interval ≤ after) :
    Reserved interval (times ++ [time]) after := by
  intro first later hsuffix
  rcases List.suffix_concat_iff.1 hsuffix with hnil | ⟨front, heq, hfront⟩
  · cases hnil
  · cases later using List.reverseRecOn with
    | nil =>
        have heq : [] ++ [first] = front ++ [time] := heq
        obtain ⟨-, hfirst⟩ := List.append_inj' heq rfl
        rw [List.singleton_inj.1 hfirst, List.length_nil, Nat.zero_mul]
        exact htime
    | append_singleton later last =>
        have heq : (first :: later) ++ [last] = front ++ [time] := heq
        obtain ⟨rfl, -⟩ := List.append_inj' heq rfl
        rcases hafter with rfl | hafter
        · cases List.suffix_nil.1 hfront
        · have hless := hreserved first later hfront
          rw [List.length_append, List.length_singleton, Nat.succ_mul]
          omega

end Pacing

section Polls

variable {kcp : Ikcpcb} {polled following : Polled} {poll : Poll} {flushes out : List Nat}
  {interval clock now next : Nat}

/-- The last flush was less than an interval before the reading of the clock. -/
def Recent (interval clock : Nat) (flushes : List Nat) : Prop :=
  ∃ last, flushes.getLast? = some last ∧ last ≤ clock ∧ clock < last + interval

/-- The state of the timer between updates: `ts_flush` counts the time `next`. -/
structure Timed (interval : Nat) (flushes : List Nat) (polled : Polled) (next : Nat) : Prop where
  updated : polled.kcp.updated = true
  tsFlush : polled.kcp.tsFlush = UInt32.ofNat next
  future : polled.clock < next
  reserved : Reserved interval flushes next
  recent : ∃ last, flushes.getLast? = some last ∧ last ≤ polled.clock ∧ next ≤ last + interval

/-- What holds between updates. -/
structure Paced (interval : Nat) (flushes : List Nat) (polled : Polled) : Prop where
  interval_eq : polled.kcp.interval.toNat = interval
  interval_le : 10 ≤ interval ∧ interval ≤ 5000
  spaced : Spaced interval flushes
  timed : (polled.kcp.updated = false ∧ flushes = []) ∨ ∃ next, Timed interval flushes polled next

/-- What an update leaves in the timer. -/
theorem timer_update (kcp : Ikcpcb) (current : UInt32) :
    (ikcpUpdate kcp current).1.updated = true ∧
      (ikcpUpdate kcp current).1.tsFlush =
        (if flushDue kcp current then nextFlush current
          (synchronized current (started kcp current).tsFlush) kcp.interval
        else synchronized current (started kcp current).tsFlush) := by
  by_cases hdue : 0 ≤ itimediff current (synchronized current (started kcp current).tsFlush)
  · rw [update_flush hdue, flushDue, decide_eq_true hdue, if_pos rfl]
    obtain ⟨hupdated, hflush, -⟩ := timer_of_settings (settings_flush { started kcp current with
      tsFlush := nextFlush current (synchronized current (started kcp current).tsFlush)
        kcp.interval })
    exact ⟨hupdated, hflush⟩
  · rw [update_quiet (Int.not_le.1 hdue), flushDue, decide_eq_false hdue]
    exact ⟨rfl, rfl⟩

/-- The time that `ts_flush` counts after a flush. -/
theorem nextFlush_counts (hlow : next ≤ now) (hhigh : now < next + 2 ^ 30)
    {step : UInt32} (hpos : 0 < step.toNat) (hmost : step.toNat ≤ 5000) :
    ∃ after, nextFlush (UInt32.ofNat now) (UInt32.ofNat next) step = UInt32.ofNat after ∧
      now < after ∧ after ≤ now + step.toNat ∧ next + step.toNat ≤ after := by
  have hstep (time : Nat) : UInt32.ofNat time + step = UInt32.ofNat (time + step.toNat) := by
    rw [UInt32.ofNat_add, UInt32.ofNat_toNat]
  unfold nextFlush
  rw [hstep, hstep, itimediff, ahead_ofNat (by omega) (by omega)]
  split
  · exact ⟨_, rfl, by omega, by omega, by omega⟩
  · exact ⟨_, rfl, by omega, by omega, by omega⟩

/-- An update at or after the time that `ts_flush` counts flushes. -/
theorem due_late (hkcp : kcp.updated = true) (hflush : kcp.tsFlush = UInt32.ofNat next)
    (hlow : next ≤ now) (hhigh : now < next + 2 ^ 30) :
    flushDue kcp (UInt32.ofNat now) = true ∧ ∃ counted,
      synchronized (UInt32.ofNat now) (started kcp (UInt32.ofNat now)).tsFlush =
        UInt32.ofNat counted ∧ next ≤ counted ∧ counted ≤ now := by
  have hstarted : (started kcp (UInt32.ofNat now)).tsFlush = UInt32.ofNat next := by
    show (if kcp.updated then kcp.tsFlush else _) = _
    rw [if_pos hkcp, hflush]
  have hahead : itimediff (UInt32.ofNat now) (UInt32.ofNat next) = (now : Int) - next :=
    ahead_ofNat (by omega) (by omega)
  unfold flushDue
  rw [hstarted]
  unfold synchronized
  split
  · rw [itimediff, ahead_self]
    exact ⟨rfl, now, rfl, hlow, Nat.le_refl _⟩
  · rw [hahead]
    exact ⟨decide_eq_true (by omega), next, rfl, Nat.le_refl _, hlow⟩

/-- An update before that time does not, and keeps it. -/
theorem due_early (hkcp : kcp.updated = true) (hflush : kcp.tsFlush = UInt32.ofNat next)
    (hlow : now < next) (hhigh : next ≤ now + 5000) :
    flushDue kcp (UInt32.ofNat now) = false ∧
      synchronized (UInt32.ofNat now) (started kcp (UInt32.ofNat now)).tsFlush =
        UInt32.ofNat next := by
  have hstarted : (started kcp (UInt32.ofNat now)).tsFlush = UInt32.ofNat next := by
    show (if kcp.updated then kcp.tsFlush else _) = _
    rw [if_pos hkcp, hflush]
  have hahead : itimediff (UInt32.ofNat now) (UInt32.ofNat next) = (now : Int) - next :=
    ahead_ofNat (by omega) (by omega)
  have hnear : adrift (UInt32.ofNat now) (UInt32.ofNat next) = false := by
    unfold adrift
    rw [hahead, Bool.or_eq_false_iff, decide_eq_false_iff_not, decide_eq_false_iff_not]
    omega
  unfold flushDue
  rw [hstarted, synchronized, hnear]
  exact ⟨decide_eq_false (by rw [if_neg Bool.false_ne_true, hahead]; omega), rfl⟩

/-- The first update flushes. -/
theorem due_first (hkcp : kcp.updated = false) (current : UInt32) :
    flushDue kcp current = true ∧
      synchronized current (started kcp current).tsFlush = current := by
  have hstarted : (started kcp current).tsFlush = current := by
    show (if kcp.updated then kcp.tsFlush else current) = _
    rw [hkcp]
    rfl
  have hsync : synchronized current current = current := ite_self _
  unfold flushDue
  rw [hstarted, hsync, itimediff, ahead_self]
  exact ⟨rfl, rfl⟩

theorem paced_poll (hpaced : Paced interval flushes polled) (hregular : poll.Regular)
    (hstep : polled.poll poll = .ok (following, out)) :
    Paced interval (flushes ++ out) following ∧
      Recent interval following.clock (flushes ++ out) := by
  cases hstep
  obtain ⟨hinterval, hbounds, hspaced, htimed⟩ := hpaced
  obtain ⟨hwait, hcalls⟩ := hregular
  obtain ⟨hupdated, hflush, hsame⟩ := timer_of_settings (settings_calls polled.kcp hcalls)
  generalize poll.calls.foldl Call.apply polled.kcp = kcp at hupdated hflush hsame ⊢
  have hinterval : kcp.interval.toNat = interval := by rw [hsame, hinterval]
  obtain ⟨hafter, htsFlush⟩ := timer_update kcp (UInt32.ofNat (polled.clock + poll.wait))
  have hkept : (ikcpUpdate kcp (UInt32.ofNat (polled.clock + poll.wait))).1.interval.toNat =
      interval := by
    rw [(parameters_fields (parameters_update _ _)).2.2.1, hinterval]
  -- a flush at the new reading, after the time that `ts_flush` counts
  have hflushed (next : Nat) (hdue : flushDue kcp (UInt32.ofNat (polled.clock + poll.wait)) = true)
      (hcounted : synchronized (UInt32.ofNat (polled.clock + poll.wait))
        (started kcp (UInt32.ofNat (polled.clock + poll.wait))).tsFlush = UInt32.ofNat next)
      (hlow : next ≤ polled.clock + poll.wait)
      (hhigh : polled.clock + poll.wait < next + 2 ^ 30)
      (hreserved : flushes = [] ∨ Reserved interval flushes next) :
      Paced interval (flushes ++ [polled.clock + poll.wait])
          ⟨(ikcpUpdate kcp (UInt32.ofNat (polled.clock + poll.wait))).1,
            polled.clock + poll.wait⟩ ∧
        Recent interval (polled.clock + poll.wait) (flushes ++ [polled.clock + poll.wait]) := by
    have hpos : 0 < kcp.interval.toNat := by omega
    have hsmall : kcp.interval.toNat ≤ 5000 := by omega
    obtain ⟨after, hnext, hfuture, hmost, hleast⟩ := nextFlush_counts hlow hhigh hpos hsmall
    rw [hinterval] at hmost hleast
    rw [hdue, if_pos rfl, hcounted, hnext] at htsFlush
    have hreserved' : Reserved interval flushes next := by
      rcases hreserved with rfl | hreserved
      · intro first later hsuffix
        cases List.suffix_nil.1 hsuffix
      · exact hreserved
    have hlast : (flushes ++ [polled.clock + poll.wait]).getLast? =
        some (polled.clock + poll.wait) := List.getLast?_concat
    refine ⟨⟨hkept, hbounds, spaced_append hspaced hreserved' hlow, Or.inr ⟨after, hafter, htsFlush,
      hfuture, reserved_append hreserved' hfuture (Or.inr hleast), _, hlast, Nat.le_refl _, hmost⟩⟩,
      _, hlast, Nat.le_refl _, by omega⟩
  rcases htimed with ⟨hnot, rfl⟩ | ⟨next, htimed⟩
  · obtain ⟨hdue, hcounted⟩ := due_first (hupdated.trans hnot)
      (UInt32.ofNat (polled.clock + poll.wait))
    rw [hdue]
    exact hflushed _ hdue hcounted (Nat.le_refl _) (by omega) (Or.inl rfl)
  · have hupdated := hupdated.trans htimed.updated
    have hflush := hflush.trans htimed.tsFlush
    have hfuture := htimed.future
    obtain ⟨last, hlast, hbefore, hmost⟩ := htimed.recent
    rcases Nat.lt_or_ge (polled.clock + poll.wait) next with hearly | hlate
    · obtain ⟨hdue, hcounted⟩ := due_early hupdated hflush hearly (by omega)
      rw [hdue, if_neg Bool.false_ne_true, hcounted] at htsFlush
      rw [hdue, if_neg Bool.false_ne_true, List.append_nil]
      exact ⟨⟨hkept, hbounds, hspaced, Or.inr ⟨next, hafter, htsFlush, hearly, htimed.reserved,
        last, hlast, Nat.le_trans hbefore (Nat.le_add_right _ _), hmost⟩⟩,
        last, hlast, Nat.le_trans hbefore (Nat.le_add_right _ _), Nat.lt_of_lt_of_le hearly hmost⟩
    · obtain ⟨hdue, counted, hcounted, hlow, hhigh⟩ := due_late hupdated hflush hlate (by omega)
      rw [hdue]
      exact hflushed counted hdue hcounted hhigh (by omega)
        (Or.inr fun first later hsuffix =>
          Nat.lt_of_lt_of_le (htimed.reserved first later hsuffix) hlow)

/-- A program that polls its block, at whatever times and with whatever calls in between, flushes no
more often than the interval allows and is never an interval behind. -/
theorem polls_paced {config : Config} {conv : UInt32} {polls : List Poll} {final : Polled}
    (hpolls : ∀ poll ∈ polls, poll.Regular)
    (hrun : Machine.run Polled.poll ⟨config.block conv, clock⟩ polls = .ok (final, flushes)) :
    Spaced (config.block conv).interval.toNat flushes ∧
      (polls = [] ∨ Recent (config.block conv).interval.toNat final.clock flushes) := by
  have hsound := configured_sound config conv
  have hupdated := (configured_fields config conv).2.2.2.2.2.2.1
  have hempty : Spaced (config.block conv).interval.toNat [] := fun first middle last hinfix =>
    absurd (List.infix_nil.1 hinfix) (List.cons_ne_nil _ _)
  have hinit : Paced (config.block conv).interval.toNat [] ⟨config.block conv, clock⟩ :=
    ⟨rfl, ⟨hsound.interval_ge, hsound.interval_le⟩, hempty, Or.inl ⟨hupdated, rfl⟩⟩
  obtain ⟨hpaced, hrecent⟩ := Machine.run_history
    (fun polls flushes polled => Paced (config.block conv).interval.toNat flushes polled ∧
      (polls = [] ∨ Recent (config.block conv).interval.toNat polled.clock flushes))
    Poll.Regular
    (fun past flushes polled poll following out hinv hregular hstep =>
      have hstep := paced_poll hinv.1 hregular hstep
      ⟨hstep.1, Or.inr hstep.2⟩)
    ⟨hinit, Or.inl rfl⟩ hpolls hrun
  exact ⟨hpaced.spaced, hrecent⟩

/-- Updates that come too early and too late, and a message that is flushed by hand. -/
def irregular : List Poll :=
  [⟨[], 0⟩, ⟨[.send [1, 2, 3], .flush], 4⟩, ⟨[.input [0]], 7⟩, ⟨[], 8⟩, ⟨[.recv 1500], 20000⟩]

theorem polls_paced_irregular : ∃ final,
    Machine.run Polled.poll ⟨wideConfig.block 7, 100⟩ irregular =
        .ok (final, [100, 111, 20119]) ∧
      Spaced 10 [100, 111, 20119] ∧ (irregular = [] ∨ Recent 10 final.clock [100, 111, 20119]) := by
  have hregular : ∀ poll ∈ irregular, poll.Regular := by
    unfold irregular Poll.Regular
    simp [Call.IsUpdate]
  refine ⟨_, rfl, ?_⟩
  have hinterval : (wideConfig.block 7).interval.toNat = 10 := rfl
  rw [← hinterval]
  exact polls_paced hregular rfl

end Polls

/-! ## The main loop of the camera -/

open Camera (KcpLoop KcpRound Tick SameTurn)

/-- The block of the session, and the loop that updates it. -/
structure Drive where
  kcp : Ikcpcb
  loop : KcpLoop

/-- The calls since the last reading of the clock, how far the clock has advanced, and the calls of
the sending thread between `ikcp_update` and `ikcp_check`. -/
structure Turn where
  before : List Call
  advance : UInt32
  between : List Call

/-- Before the loop. -/
def Drive.start (kcp : Ikcpcb) (iclock : UInt32) : Drive := ⟨kcp, KcpLoop.start iclock⟩

/-- An iteration up to the call of `select`. -/
def Drive.iterate : Machine.Step Drive Turn KcpRound Empty
  | ⟨kcp, loop⟩, turn =>
      let kcp := turn.before.foldl Call.apply kcp
      let currentMs := loop.currentMs + turn.advance
      let updated := decide (currentMs ≥ loop.nextKcpUpdateTime)
      let kcp := if updated then turn.between.foldl Call.apply (ikcpUpdate kcp currentMs).1 else kcp
      let nextKcpUpdateTime :=
        if updated then ikcpCheck kcp currentMs else loop.nextKcpUpdateTime
      let waitMs := KcpLoop.waitMs currentMs nextKcpUpdateTime
      .ok (⟨kcp, currentMs, nextKcpUpdateTime⟩,
        [⟨loop.nextKcpUpdateTime, currentMs, updated, waitMs / 1000, waitMs % 1000 * 1000⟩])

section Camera

variable {kcp : Ikcpcb} {drive following final : Drive} {turn : Turn} {turns : List Turn}
  {rounds out : List KcpRound} {conv iclock base now : UInt32}

/-- The clock advances by less than 2^31 ms, and the other calls are no updates. -/
def Turn.Regular (turn : Turn) : Prop :=
  turn.advance.toNat < 2 ^ 31 ∧ (∀ call ∈ turn.before, ¬ call.IsUpdate) ∧
    ∀ call ∈ turn.between, ¬ call.IsUpdate

/-- What `KcpLoop` sees of an iteration. -/
def Turn.tick (drive : Drive) (turn : Turn) : Tick :=
  let currentMs := drive.loop.currentMs + turn.advance
  let kcp := turn.between.foldl Call.apply
    (ikcpUpdate (turn.before.foldl Call.apply drive.kcp) currentMs).1
  ⟨turn.advance, ikcpCheck kcp currentMs - currentMs⟩

/-- The counter does not wrap around between the scheduled time and a reading at or past it. -/
def SameTurnAs (drive : Drive) (turn : Turn) : Prop := SameTurn drive.loop (turn.tick drive)

/-- When an iteration does not call `ikcp_update`, the call would only have read the clock. -/
def Skips (drive : Drive) (turn : Turn) : Prop :=
  drive.loop.currentMs + turn.advance < drive.loop.nextKcpUpdateTime →
    ikcpUpdate (turn.before.foldl Call.apply drive.kcp) (drive.loop.currentMs + turn.advance) =
      ({ turn.before.foldl Call.apply drive.kcp with
        current := drive.loop.currentMs + turn.advance }, [])

/-- An iteration of the loop with the block is one of the loop alone. -/
theorem iterate_loop (hstep : drive.iterate turn = .ok (following, out)) :
    drive.loop.iterate (turn.tick drive) = .ok (following.loop, out) := by
  have hcancel (a b : UInt32) : a + (b - a) = b := by rw [UInt32.add_comm, UInt32.sub_add_cancel]
  cases hstep
  unfold KcpLoop.iterate Turn.tick
  simp only [hcancel]
  by_cases hupdated : drive.loop.currentMs + turn.advance ≥ drive.loop.nextKcpUpdateTime
  · simp only [decide_eq_true hupdated, if_true]
  · simp only [decide_eq_false hupdated, Bool.false_eq_true, if_false]

theorem tick_regular (hinterval : drive.kcp.interval.toNat ≤ 10) (hregular : turn.Regular) :
    (turn.tick drive).Regular := by
  refine ⟨hregular.1, ?_⟩
  have hcheck := check_le (turn.between.foldl Call.apply
    (ikcpUpdate (turn.before.foldl Call.apply drive.kcp) (drive.loop.currentMs + turn.advance)).1)
    (drive.loop.currentMs + turn.advance)
  have hparameters := (parameters_calls _ turn.between).trans
    ((parameters_update _ (drive.loop.currentMs + turn.advance)).trans
      (parameters_calls drive.kcp turn.before))
  rw [(parameters_fields hparameters).2.2.1] at hcheck
  exact Nat.le_trans hcheck hinterval

/-- `ts_flush` is ahead of a reading, and the scheduled time is not past it. -/
structure Armed (drive : Drive) (base : UInt32) : Prop where
  updated : drive.kcp.updated = true
  near : -10000 ≤ itimediff base drive.kcp.tsFlush
  early : itimediff base drive.kcp.tsFlush < 0
  scheduled : offset base drive.loop.nextKcpUpdateTime ≤ offset base drive.kcp.tsFlush
  reading : offset base drive.loop.currentMs ≤ offset base drive.loop.nextKcpUpdateTime

/-- The state between iterations: the scheduled time has come, or the block is armed. -/
structure Ready (drive : Drive) : Prop where
  interval : drive.kcp.interval.toNat ≤ 10
  armed : drive.loop.nextKcpUpdateTime = drive.loop.currentMs ∨ ∃ base, Armed drive base

/-- An iteration that does not call `ikcp_update` reads a time before the scheduled one. -/
theorem skipped_before (hready : Ready drive) (hregular : turn.Regular)
    (hsame : SameTurnAs drive turn)
    (hless : drive.loop.currentMs + turn.advance < drive.loop.nextKcpUpdateTime) :
    ∃ base, Armed drive base ∧ offset base (drive.loop.currentMs + turn.advance) <
      offset base drive.loop.nextKcpUpdateTime := by
  obtain ⟨hadvance, -⟩ := hregular
  have hsum : (drive.loop.currentMs + turn.advance).toNat =
      (drive.loop.currentMs.toNat + turn.advance.toNat) % 2 ^ 32 := UInt32.toNat_add _ _
  have hlate : ((drive.loop.currentMs + turn.advance - drive.loop.nextKcpUpdateTime).toNat : Int) =
      ((drive.loop.currentMs + turn.advance).toNat - drive.loop.nextKcpUpdateTime.toNat) % 2 ^ 32 :=
    offset_eq _ _
  have hless := UInt32.lt_iff_toNat_lt.1 hless
  change (drive.loop.currentMs + turn.advance - drive.loop.nextKcpUpdateTime).toNat < 2 ^ 31 →
    drive.loop.nextKcpUpdateTime.toNat +
      (drive.loop.currentMs + turn.advance - drive.loop.nextKcpUpdateTime).toNat < 2 ^ 32 at hsame
  have hcurrent := drive.loop.currentMs.toNat_lt
  have hnext := drive.loop.nextKcpUpdateTime.toNat_lt
  rcases hready.armed with heq | ⟨base, harmed⟩
  · rw [heq] at hless hlate hsame
    omega
  · obtain ⟨-, -, hmost⟩ := offset_of_behind harmed.early harmed.near
    have hscheduled := harmed.scheduled
    have hreading := offset_rebase harmed.reading
    have hold := offset_eq base drive.loop.currentMs
    have hahead := offset_eq drive.loop.currentMs drive.loop.nextKcpUpdateTime
    have hnow := offset_eq base (drive.loop.currentMs + turn.advance)
    refine ⟨base, harmed, ?_⟩
    omega

theorem skips_of_ready (hready : Ready drive) (hregular : turn.Regular)
    (hsame : SameTurnAs drive turn) : Skips drive turn := by
  intro hless
  obtain ⟨base, harmed, hbefore⟩ := skipped_before hready hregular hsame hless
  obtain ⟨hupdated, hflush, -⟩ := timer_of_settings (settings_calls drive.kcp hregular.2.1)
  refine @quiet_before_flush _ base _ (hupdated.trans harmed.updated) ?_ ?_ ?_ <;> rw [hflush]
  · exact harmed.near
  · exact harmed.early
  · exact Nat.lt_of_lt_of_le hbefore harmed.scheduled

theorem ready_iterate (hready : Ready drive) (hregular : turn.Regular)
    (hsame : SameTurnAs drive turn) (hstep : drive.iterate turn = .ok (following, out)) :
    Ready following := by
  cases hstep
  have hbefore := parameters_calls drive.kcp turn.before
  by_cases hupdated : drive.loop.currentMs + turn.advance ≥ drive.loop.nextKcpUpdateTime
  · have hafter := (parameters_calls _ turn.between).trans
      ((parameters_update _ (drive.loop.currentMs + turn.advance)).trans hbefore)
    simp only [decide_eq_true hupdated, if_true]
    refine ⟨?_, ?_⟩
    · rw [(parameters_fields hafter).2.2.1]
      exact hready.interval
    · generalize turn.between.foldl Call.apply _ = kcp
      by_cases hzero : offset (drive.loop.currentMs + turn.advance)
          (ikcpCheck kcp (drive.loop.currentMs + turn.advance)) = 0
      · exact Or.inl (offset_eq_zero.1 hzero)
      · obtain ⟨hsent, hnear, hearly, hle⟩ := check_before_flush hzero
        refine Or.inr ⟨_, hsent, hnear, hearly, hle, ?_⟩
        rw [offset_self]
        exact Nat.zero_le _
  · obtain ⟨base, harmed, hless⟩ :=
      skipped_before hready hregular hsame (UInt32.not_le.1 hupdated)
    obtain ⟨hsent, hflush, -⟩ := timer_of_settings (settings_calls drive.kcp hregular.2.1)
    simp only [decide_eq_false hupdated, Bool.false_eq_true, if_false]
    refine ⟨?_, Or.inr ⟨base, hsent.trans harmed.updated, ?_, ?_, ?_, Nat.le_of_lt hless⟩⟩
    · rw [(parameters_fields hbefore).2.2.1]
      exact hready.interval
    · rw [hflush]
      exact harmed.near
    · rw [hflush]
      exact harmed.early
    · rw [hflush]
      exact harmed.scheduled

/-- A turn that keeps a drive ready. -/
def Steady (drive : Drive) (turn : Turn) : Prop := SameTurnAs drive turn ∧ turn.Regular

/-- The rounds so far, and the state on which the next ones rest. -/
def Driving (rounds : List KcpRound) (drive : Drive) : Prop :=
  KcpLoop.OnTime rounds drive.loop ∧ Ready drive

theorem driving_start (hinterval : kcp.interval.toNat ≤ 10) (iclock : UInt32) :
    Driving [] (Drive.start kcp iclock) := by
  refine ⟨⟨List.forall_mem_nil _, ?_⟩, hinterval, Or.inl rfl⟩
  show (iclock - iclock).toNat ≤ 10
  rw [UInt32.sub_self]
  exact Nat.zero_le 10

theorem driving_iterate (hdriving : Driving rounds drive) (hsteady : Steady drive turn)
    (hstep : drive.iterate turn = .ok (following, out)) : Driving (rounds ++ out) following := by
  obtain ⟨hontime, hready⟩ := hdriving
  obtain ⟨hsame, hregular⟩ := hsteady
  refine ⟨?_, ready_iterate hready hregular hsame hstep⟩
  have hfine := (KcpLoop.iterate_iff ⟨fun _ _ h => h, fun _ _ h => h.driven⟩ hontime
    (tick_regular hready.interval hregular)).2 hsame
  rw [iterate_loop hstep] at hfine
  exact hfine

/-- In the camera's loop every iteration updates when the scheduled time has come, no timeout is
longer than 10 ms, and no update that is left out would have flushed: whatever the sending thread
and the network do, as long as the counter does not wrap around at a scheduled time. -/
theorem drive_driven (hturns : ∀ turn ∈ turns, turn.Regular)
    (hsame : Machine.Guarded Drive.iterate SameTurnAs
      (Drive.start (wideConfig.block conv) iclock) turns)
    (hrun : Machine.run Drive.iterate (Drive.start (wideConfig.block conv) iclock) turns =
      .ok (final, rounds)) :
    (∀ round ∈ rounds, round.Driven) ∧
      Machine.Guarded Drive.iterate Skips (Drive.start (wideConfig.block conv) iclock) turns := by
  have hguarded : Machine.Guarded Drive.iterate Steady
      (Drive.start (wideConfig.block conv) iclock) turns :=
    Machine.guarded_and hsame (Machine.guarded_of_forall fun _ => hturns)
  have hstart : Driving [] (Drive.start (wideConfig.block conv) iclock) :=
    driving_start (show (10 : UInt32).toNat ≤ 10 by decide) iclock
  have hdriving := Machine.run_guarded_history Driving
    (fun _ _ _ _ _ hdriving hsteady hstep => driving_iterate hdriving hsteady hstep) []
    hstart hguarded hrun
  have hskips := Machine.guarded_of_invariant Ready
    (fun _ _ _ _ hready hsteady hstep => ready_iterate hready hsteady.2 hsteady.1 hstep)
    (fun _ _ hready hsteady => skips_of_ready hready hsteady.2 hsteady.1) hstart.2 hguarded
  exact ⟨hdriving.1.driven, hskips⟩

/-- The first update, a message that is flushed by hand before the next, and an update while another
message is sent. -/
def streaming : List Turn :=
  [⟨[], 0, []⟩, ⟨[.send [1, 2, 3], .flush], 4, []⟩, ⟨[.input [0]], 7, [.send [4], .flush]⟩]

theorem drive_driven_streaming : ∃ final rounds,
    Machine.run Drive.iterate (Drive.start (wideConfig.block 7) 100) streaming =
        .ok (final, rounds) ∧
      rounds.map KcpRound.updated = [true, false, true] ∧ (∀ round ∈ rounds, round.Driven) ∧
      Machine.Guarded Drive.iterate Skips (Drive.start (wideConfig.block 7) 100) streaming := by
  have hregular : ∀ turn ∈ streaming, turn.Regular := by
    unfold streaming Turn.Regular
    simp [Call.IsUpdate]
  have hsame : Machine.Guarded Drive.iterate SameTurnAs (Drive.start (wideConfig.block 7) 100)
      streaming := by
    have hcheck (drive : Drive) (turn : Turn) :
        decide (SameTurn drive.loop (turn.tick drive)) = true → SameTurnAs drive turn :=
      of_decide_eq_true
    exact Machine.guarded_of_check hcheck rfl
  exact ⟨_, _, rfl, rfl, drive_driven hregular hsame rfl⟩

end Camera

end CarDetect.Kcp
