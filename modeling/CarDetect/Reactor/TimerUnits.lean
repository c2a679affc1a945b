import Mathlib.Data.List.TakeWhile
import CarDetect.Reactor.TimerPlaces

/-!
# Seconds and milliseconds

`addTimer` and `addPeriodicTimer` promise seconds, and the table counts milliseconds. `observe` is a
step of the timers that also notes the calls and the firings. `measured_milliseconds` says that in
milliseconds no timer is fired too early; `measured_seconds` says in which runs none is in seconds:
those in which `handleRead` finds a timer only when 999 ms more have passed for each second.
-/

namespace CarDetect.Reactor

/-- A call of `addTimer` or of `addPeriodicTimer`, with its reading of the clock. The interval of
`addTimer` is 0. -/
structure TimerCall where
  clock : UInt64
  delaySec : Int32
  intervalSec : Int32
deriving DecidableEq, Repr

/-- A call of a callback: the call of `addTimer` or `addPeriodicTimer` that it comes from, and the
time that `handleRead` has read. -/
structure Firing where
  call : Nat
  now : UInt64
deriving DecidableEq, Repr

section Definitions

variable {Callback : Type}

/-- The call that a step is. -/
def TimerStep.call : TimerStep Callback → Option TimerCall
  | .addTimer clock delaySec _ _ => some ⟨clock, delaySec, 0⟩
  | .addPeriodicTimer clock delaySec intervalSec _ _ => some ⟨clock, delaySec, intervalSec⟩
  | .removeTimer _ _ | .handleRead _ | .next | .returns | .finish _ => none

/-- The step with a number in place of its callback. -/
def TimerStep.numbered (number : Nat) : TimerStep Callback → TimerStep Nat
  | .addTimer clock delaySec callback later =>
      .addTimer clock delaySec (callback.map fun _ => number) later
  | .addPeriodicTimer clock delaySec intervalSec callback later =>
      .addPeriodicTimer clock delaySec intervalSec (callback.map fun _ => number) later
  | .removeTimer timerId later => .removeTimer timerId later
  | .handleRead now => .handleRead now
  | .next => .next
  | .returns => .returns
  | .finish later => .finish later

/-- The reading of the clock that `handleRead` goes by. -/
def ReadStage.now : ReadStage Callback → UInt64
  | .idle => 0
  | .between now _ => now
  | .calling now _ _ _ => now

end Definitions

/-- The timers, the calls so far, and the firings so far. A callback is the number of its call. -/
structure Observed where
  manager : TimerManager Nat
  calls : List TimerCall
  firings : List Firing

/-- After the constructor. -/
def Observed.start : Observed := ⟨.created, [], []⟩

section Definitions

variable {Callback : Type}

/-- One step, with its call and its firings noted. -/
def observe (seen : Observed) (input : TimerStep Callback) :
    Except Machine.Suspended (Observed × List (Fired Nat)) :=
  match seen.manager.step (input.numbered seen.calls.length) with
  | .error fault => .error fault
  | .ok (next, fired) =>
      .ok (⟨next, seen.calls ++ input.call.toList,
        seen.firings ++ fired.map fun one => ⟨one.callback, seen.manager.stage.now⟩⟩, fired)

/-! ## The property -/

/-- So many times `unit` milliseconds lie between two readings, if 64 bits hold their end. -/
def Waited (unit : Nat) (since : UInt64) (count : Int32) (now : UInt64) : Prop :=
  since.toNat + unit * count.toInt < 2 ^ 64 → since.toNat + unit * count.toInt ≤ now.toNat

/-- No timer was fired before its delay, and no periodic timer again before its interval, in units
of so many milliseconds. -/
structure Measured (unit : Nat) (seen : Observed) : Prop where
  delay : ∀ (number : Nat) call now, seen.calls[number]? = some call →
    ⟨number, now⟩ ∈ seen.firings → 0 ≤ call.delaySec → Waited unit call.clock call.delaySec now
  interval : seen.firings.Pairwise fun first second => first.call = second.call →
    ∀ call, seen.calls[first.call]? = some call → 0 < call.intervalSec →
      Waited unit first.now call.intervalSec second.now

/-- The clock has not gone back since a firing. -/
def Forward (seen : Observed) (input : TimerStep Callback) : Prop :=
  ∀ now, input = .handleRead now → ∀ one ∈ seen.firings, one.now ≤ now

/-- The rest of every unit has passed since an expiry that counts each as one millisecond. -/
def Passed (unit : Nat) (expireTime : UInt64) (count : Int32) (now : UInt64) : Prop :=
  count.toInt ≤ expireTime.toNat →
    expireTime.toNat + ((unit : Int) - 1) * count.toInt < 2 ^ 64 →
      expireTime.toNat + ((unit : Int) - 1) * count.toInt ≤ now.toNat

/-- A reading comes late enough after the expiry of a timer in the table: by the units of its delay,
and after it has been fired by those of its interval. -/
structure Overdue (unit : Nat) (seen : Observed) (number : Nat) (call : TimerCall)
    (expireTime now : UInt64) : Prop where
  delay : (∀ one ∈ seen.firings, one.call ≠ number) → 0 ≤ call.delaySec →
    Passed unit expireTime call.delaySec now
  interval : (∃ one ∈ seen.firings, one.call = number) → 0 < call.intervalSec →
    Passed unit expireTime call.intervalSec now

/-- A `handleRead` finds only timers whose expiry in the table is past by so much. -/
def ReadsLate (unit : Nat) (seen : Observed) (input : TimerStep Callback) : Prop :=
  ∀ now, input = .handleRead now → ∀ entry ∈ seen.manager.expired now,
    ∀ (number : Nat) call, entry.2.2.callback = some number → seen.calls[number]? = some call →
      Overdue unit seen number call entry.2.1 now

end Definitions

/-! ## The arithmetic of the table -/

section Arithmetic

variable {unit : Nat} {since expireTime now : UInt64} {count : Int32}

/-- What is added to a reading is the number itself when it is not negative. -/
theorem toNat_added_ms (h : 0 ≤ count.toInt) : ((addedMs count).toNat : Int) = count.toInt := by
  have hwide : count.toInt64.toInt = count.toInt := Int32.toInt_toInt64 count
  have hlt : count.toInt64.toInt < 2 ^ 63 := Int64.toInt_lt _
  rw [← hwide] at h ⊢
  show (count.toInt64.toBitVec.toNat : Int) = count.toInt64.toBitVec.toInt
  rw [← Int64.toInt_toBitVec] at h
  rw [BitVec.toInt_eq_toNat_cond] at h ⊢
  split
  · rfl
  · exfalso
    omega

/-- When the expiry that the table has for a reading is past by the rest of every unit, the units
have passed since the reading. -/
theorem Passed.waited (hunit : 1 ≤ unit) (hcount : 0 ≤ count.toInt)
    (h : Passed unit (since + addedMs count) count now) : Waited unit since count now := by
  intro hfits
  have hle : 1 * count.toInt ≤ unit * count.toInt :=
    Int.mul_le_mul_of_nonneg_right (by omega) hcount
  have hadded := toNat_added_ms hcount
  have hexpire : ((since + addedMs count).toNat : Int) = since.toNat + count.toInt := by
    rw [UInt64.toNat_add, Nat.mod_eq_of_lt (by omega)]
    omega
  have hrest : ((unit : Int) - 1) * count.toInt = unit * count.toInt - count.toInt := by
    rw [Int.sub_mul, Int.one_mul]
  rw [Passed, hexpire, hrest] at h
  have hpassed := h (by omega) (by omega)
  omega

/-- An expiry counts milliseconds. -/
theorem passed_one (h : expireTime ≤ now) : Passed 1 expireTime count now := by
  intro _ _
  have hle : expireTime.toNat ≤ now.toNat := UInt64.le_iff_toNat_le.1 h
  rw [Nat.cast_one, Int.sub_self, Int.zero_mul, Int.add_zero]
  exact Int.ofNat_le.2 hle

/-- A later reading. -/
theorem Waited.trans {later : UInt64} (h : Waited unit since count now) (hle : now ≤ later) :
    Waited unit since count later := by
  intro hfits
  have hlater : now.toNat ≤ later.toNat := UInt64.le_iff_toNat_le.1 hle
  exact (h hfits).trans (Int.ofNat_le.2 hlater)

end Arithmetic

/-! ## What is known of a timer -/

/-- A timer comes from a call, and its callback is the call's number. -/
structure ComesFrom (seen : Observed) (timer : Timer Nat) (number : Nat) (call : TimerCall) :
    Prop where
  callback : timer.callback = some number
  call : seen.calls[number]? = some call

/-- The units of a timer have passed: those of its delay, and those of its interval since each of
its firings. -/
structure Ripe (unit : Nat) (seen : Observed) (number : Nat) (call : TimerCall) (now : UInt64) :
    Prop where
  delay : 0 ≤ call.delaySec → Waited unit call.clock call.delaySec now
  interval : 0 < call.intervalSec → ∀ one ∈ seen.firings, one.call = number →
    Waited unit one.now call.intervalSec now

/-- A timer was last fired at this time. -/
structure Latest (unit : Nat) (seen : Observed) (number : Nat) (call : TimerCall)
    (last : UInt64) : Prop where
  fired : ⟨number, last⟩ ∈ seen.firings
  others : 0 < call.intervalSec → ∀ one ∈ seen.firings, one.call = number →
    one.now = last ∨ Waited unit one.now call.intervalSec last

/-- The expiry in the table counts milliseconds from the call, or from the last firing. -/
inductive Due (unit : Nat) (seen : Observed) (number : Nat) (call : TimerCall) :
    UInt64 → Prop where
  | delay (hnew : ∀ one ∈ seen.firings, one.call ≠ number) :
      Due unit seen number call (call.clock + addedMs call.delaySec)
  | interval {last : UInt64} (hlast : Latest unit seen number call last) :
      Due unit seen number call (last + addedMs call.intervalSec)

/-- Nothing has happened to a timer. -/
structure Untouched (seen after : Observed) (number : Nat) : Prop where
  call : after.calls[number]? = seen.calls[number]?
  firings : ∀ one, one.call = number → (one ∈ after.firings ↔ one ∈ seen.firings)

section Timers

variable {unit number : Nat} {seen after : Observed} {call : TimerCall} {timer : Timer Nat}
  {expireTime now last : UInt64}

/-- A timer that `handleRead` finds late enough is ripe. -/
theorem Due.ripe (hunit : 1 ≤ unit) (h : Due unit seen number call expireTime)
    (hmeasured : Measured unit seen) (hcall : seen.calls[number]? = some call)
    (hforward : ∀ one ∈ seen.firings, one.now ≤ now)
    (hoverdue : Overdue unit seen number call expireTime now) :
    Ripe unit seen number call now := by
  cases h with
  | delay hnew =>
      refine ⟨fun hdelay => ?_, fun _ one hone hsame => absurd hsame (hnew one hone)⟩
      exact (hoverdue.delay hnew hdelay).waited hunit (Int32.le_iff_toInt_le.1 hdelay)
  | @interval last hlast =>
      have hlater : last ≤ now := hforward _ hlast.fired
      refine ⟨fun hdelay => ?_, fun hinterval one hone hsame => ?_⟩
      · exact (hmeasured.delay number call last hcall hlast.fired hdelay).trans hlater
      · rcases hlast.others hinterval one hone hsame with heq | hwaited
        · rw [heq]
          exact (hoverdue.interval ⟨_, hlast.fired, rfl⟩ hinterval).waited hunit
            (Int.le_of_lt (Int32.lt_iff_toInt_lt.1 hinterval))
        · exact hwaited.trans hlater

theorem ComesFrom.before (hsame : Untouched seen after number)
    (h : ComesFrom after timer number call) : ComesFrom seen timer number call :=
  ⟨h.callback, hsame.call ▸ h.call⟩

theorem Ripe.of_untouched (hsame : Untouched seen after number)
    (h : Ripe unit seen number call now) : Ripe unit after number call now :=
  ⟨h.delay, fun hinterval one hone howner =>
    h.interval hinterval one ((hsame.firings one howner).1 hone) howner⟩

theorem Latest.of_untouched (hsame : Untouched seen after number)
    (h : Latest unit seen number call last) : Latest unit after number call last :=
  ⟨(hsame.firings _ rfl).2 h.fired, fun hinterval one hone howner =>
    h.others hinterval one ((hsame.firings one howner).1 hone) howner⟩

theorem Due.of_untouched (hsame : Untouched seen after number)
    (h : Due unit seen number call expireTime) : Due unit after number call expireTime := by
  cases h with
  | delay hnew =>
      exact .delay fun one hone howner => hnew one ((hsame.firings one howner).1 hone) howner
  | interval hlast => exact .interval (hlast.of_untouched hsame)

end Timers

/-! ## What one step keeps -/

/-- The timers of a batch whose turn is to come. -/
def InBatch (unit : Nat) (seen : Observed) (now : UInt64) (expired : List (TimerId × Timer Nat)) :
    Prop :=
  ∀ entry ∈ expired, ∀ number call, ComesFrom seen entry.2 number call →
    entry.2.interval = call.intervalSec ∧ Ripe unit seen number call now

/-- What is known in a stage of `handleRead`. -/
def StageKept (unit : Nat) (seen : Observed) : ReadStage Nat → Prop
  | .idle => True
  | .between now expired => InBatch unit seen now expired
  | .calling now _ timer expired =>
      (∀ number call, ComesFrom seen timer number call →
        timer.interval = call.intervalSec ∧ Latest unit seen number call now) ∧
      InBatch unit seen now expired

/-- The property, with what it rests on: a callback is in one place, and what is known of the table
and of the batch. -/
structure Kept (unit : Nat) (seen : Observed) : Prop where
  measured : Measured unit seen
  fired : ∀ one ∈ seen.firings, one.call < seen.calls.length
  known : ∀ number ∈ seen.manager.owners, number < seen.calls.length
  nodup : seen.manager.owners.Nodup
  table : ∀ entry ∈ seen.manager.timers.toList, ∀ number call,
    ComesFrom seen entry.2.2 number call →
      entry.2.2.interval = call.intervalSec ∧ Due unit seen number call entry.2.1
  stage : StageKept unit seen seen.manager.stage

theorem kept_start (unit : Nat) : Kept unit .start where
  measured := ⟨nofun, .nil⟩
  fired := nofun
  known := nofun
  nodup := .nil
  table := nofun
  stage := trivial

section Steps

variable {Callback : Type} {unit number : Nat} {seen after : Observed}
  {input : TimerStep Callback} {following : TimerManager Nat} {fired : List (Fired Nat)}
  {now : UInt64}

theorem observe_ok (h : observe seen input = .ok (after, fired)) :
    ∃ next, seen.manager.step (input.numbered seen.calls.length) = .ok (next, fired) ∧
      after = ⟨next, seen.calls ++ input.call.toList,
        seen.firings ++ fired.map fun one => ⟨one.callback, seen.manager.stage.now⟩⟩ := by
  unfold observe at h
  split at h
  · cases h
  · rename_i next out hstep
    cases h
    exact ⟨next, hstep, rfl⟩

theorem call_numbered (number : Nat) : (input.numbered number).call = input.call := by
  cases input <;> rfl

theorem numbered_handle_read (h : input.numbered number = .handleRead now) :
    input = .handleRead now := by
  cases input <;> cases h
  rfl

/-- What a call enters: its number, its interval, and the milliseconds of its delay. -/
theorem numbered_entry {expireTime : UInt64} {timer : Timer Nat}
    (h : (input.numbered number).entry = some (expireTime, timer)) :
    ∃ call, input.call = some call ∧ expireTime = call.clock + addedMs call.delaySec ∧
      timer.interval = call.intervalSec ∧
        ∀ owner, timer.callback = some owner → owner = number := by
  cases input with
  | addTimer clock delaySec callback later =>
      cases h
      refine ⟨_, rfl, rfl, rfl, fun owner howner => ?_⟩
      obtain ⟨-, -, hnumber⟩ := Option.map_eq_some_iff.1 howner
      exact hnumber.symm
  | addPeriodicTimer clock delaySec intervalSec callback later =>
      cases h
      refine ⟨_, rfl, rfl, rfl, fun owner howner => ?_⟩
      obtain ⟨-, -, hnumber⟩ := Option.map_eq_some_iff.1 howner
      exact hnumber.symm
  | removeTimer timerId later => cases h
  | handleRead now => cases h
  | next => cases h
  | returns => cases h
  | finish later => cases h

/-- Only a call brings a callback, and it is the number of the call. -/
theorem numbered_owner {owner : Nat} (h : (input.numbered number).owner = some owner) :
    owner = number ∧ input.call.toList.length = 1 := by
  obtain ⟨entry, hentry, hcallback⟩ := Option.bind_eq_some_iff.1 h
  obtain ⟨call, hcall, -, -, howner⟩ := numbered_entry hentry
  rw [hcall]
  exact ⟨howner owner hcallback, rfl⟩

/-- The callbacks of the timers stay in one place each, and they are numbers of calls. -/
theorem Kept.owners (h : Kept unit seen)
    (hstep : seen.manager.step (input.numbered seen.calls.length) = .ok (following, fired)) :
    following.owners.Nodup ∧
      ∀ number ∈ following.owners, number < (seen.calls ++ input.call.toList).length := by
  refine ⟨TimerManager.nodup_owners_step hstep h.nodup fun owner howner hmem => ?_,
    fun number hmem => ?_⟩
  · have hlt := h.known owner hmem
    have heq := (numbered_owner howner).1
    omega
  · rw [List.length_append]
    rcases TimerManager.mem_owners_step hstep hmem with hnew | hold
    · obtain ⟨heq, hlength⟩ := numbered_owner hnew
      omega
    · exact Nat.lt_add_right _ (h.known number hold)

/-- A step that fires nothing does not touch the timers of earlier calls. -/
theorem untouched_silent (following : TimerManager Nat) (more : List TimerCall)
    (h : number < seen.calls.length) :
    Untouched seen ⟨following, seen.calls ++ more, seen.firings⟩ number :=
  ⟨List.getElem?_append_left h, fun _ _ => Iff.rfl⟩

/-- What is known of an entry of the table whose timer has not been touched. -/
theorem Kept.entry (h : Kept unit seen) {entry : TimerId × UInt64 × Timer Nat} {call : TimerCall}
    (hentry : entry ∈ seen.manager.timers.toList) (hfrom : ComesFrom after entry.2.2 number call)
    (hsame : Untouched seen after number) :
    entry.2.2.interval = call.intervalSec ∧ Due unit after number call entry.2.1 := by
  obtain ⟨hinterval, hdue⟩ := h.table entry hentry number call (hfrom.before hsame)
  exact ⟨hinterval, hdue.of_untouched hsame⟩

theorem InBatch.of_untouched {expired : List (TimerId × Timer Nat)}
    (h : InBatch unit seen now expired)
    (hsame : ∀ entry ∈ expired, ∀ number, entry.2.callback = some number →
      Untouched seen after number) : InBatch unit after now expired := by
  intro entry hentry number call hfrom
  have huntouched := hsame entry hentry number hfrom.callback
  obtain ⟨hinterval, hripe⟩ := h entry hentry number call (hfrom.before huntouched)
  exact ⟨hinterval, hripe.of_untouched huntouched⟩

theorem StageKept.of_untouched {stage : ReadStage Nat} (h : StageKept unit seen stage)
    (hsame : ∀ entry ∈ stage.held, ∀ number, entry.2.callback = some number →
      Untouched seen after number) : StageKept unit after stage := by
  cases stage with
  | idle => trivial
  | between now expired => exact InBatch.of_untouched h hsame
  | calling now timerId timer expired =>
      refine ⟨fun number call hfrom => ?_, InBatch.of_untouched h.2 fun entry hentry =>
        hsame entry (List.mem_cons_of_mem _ hentry)⟩
      have huntouched := hsame _ List.mem_cons_self number hfrom.callback
      obtain ⟨hinterval, hlatest⟩ := h.1 number call (hfrom.before huntouched)
      exact ⟨hinterval, hlatest.of_untouched huntouched⟩

/-- The property after a step that fires nothing. -/
theorem Measured.silent (h : Measured unit seen)
    (hfired : ∀ one ∈ seen.firings, one.call < seen.calls.length)
    (following : TimerManager Nat) (more : List TimerCall) :
    Measured unit ⟨following, seen.calls ++ more, seen.firings⟩ := by
  refine ⟨fun number call now hcall hmem hdelay => ?_, ?_⟩
  · rw [List.getElem?_append_left (hfired _ hmem)] at hcall
    exact h.delay number call now hcall hmem hdelay
  · refine h.interval.imp_of_mem fun {first second} hfirst _ hbefore hsame call hcall => ?_
    rw [List.getElem?_append_left (hfired _ hfirst)] at hcall
    exact hbefore hsame call hcall

/-- One more firing of a ripe timer. -/
theorem Measured.fire (h : Measured unit seen)
    (hripe : ∀ call, seen.calls[number]? = some call → Ripe unit seen number call now)
    (following : TimerManager Nat) :
    Measured unit ⟨following, seen.calls, seen.firings ++ [⟨number, now⟩]⟩ := by
  refine ⟨fun other call later hcall hmem hdelay => ?_, ?_⟩
  · rcases List.mem_append.1 hmem with hold | hnew
    · exact h.delay other call later hcall hold hdelay
    · cases List.mem_singleton.1 hnew
      exact (hripe call hcall).delay hdelay
  · refine List.pairwise_append.2 ⟨h.interval, List.pairwise_singleton _ _, ?_⟩
    intro first hfirst second hsecond hsame call hcall hinterval
    cases List.mem_singleton.1 hsecond
    rw [hsame] at hcall
    exact (hripe call hcall).interval hinterval first hfirst hsame

/-- A step that fires nothing, with what is known of the table and of the batch after it. -/
theorem Kept.silent (h : Kept unit seen)
    (hmanager : seen.manager.step (input.numbered seen.calls.length) = .ok (following, []))
    (htable : ∀ entry ∈ following.timers.toList, ∀ number call,
      ComesFrom ⟨following, seen.calls ++ input.call.toList, seen.firings⟩ entry.2.2 number call →
        entry ∉ seen.manager.timers.toList → entry.2.2.interval = call.intervalSec ∧
          Due unit ⟨following, seen.calls ++ input.call.toList, seen.firings⟩ number call entry.2.1)
    (hstage : StageKept unit ⟨following, seen.calls ++ input.call.toList, seen.firings⟩
      following.stage) :
    Kept unit ⟨following, seen.calls ++ input.call.toList, seen.firings⟩ := by
  obtain ⟨hnodup, hknown⟩ := h.owners hmanager
  refine ⟨h.measured.silent h.fired following _, fun one hone => ?_, hknown, hnodup,
    fun entry hentry number call hfrom => ?_, hstage⟩
  · rw [List.length_append]
    exact Nat.lt_add_right _ (h.fired one hone)
  · by_cases hold : entry ∈ seen.manager.timers.toList
    · have hlt := h.known number (TimerManager.mem_owners_table hold hfrom.callback)
      exact h.entry hold hfrom (untouched_silent following _ hlt)
    · exact htable entry hentry number call hfrom hold

/-- What is known of the batch after a step that fires nothing and leaves it as it is. -/
theorem Kept.same_stage (h : Kept unit seen) (following : TimerManager Nat)
    (more : List TimerCall) :
    StageKept unit ⟨following, seen.calls ++ more, seen.firings⟩ seen.manager.stage :=
  h.stage.of_untouched fun _ hentry number hcallback =>
    untouched_silent following more (h.known number (TimerManager.mem_owners_held hentry hcallback))

/-- The entry of a call counts milliseconds from it. -/
theorem Kept.new_entry (h : Kept unit seen) (following : TimerManager Nat) {expireTime : UInt64}
    {timer : Timer Nat} {call : TimerCall}
    (hentry : (input.numbered seen.calls.length).entry = some (expireTime, timer))
    (hfrom : ComesFrom ⟨following, seen.calls ++ input.call.toList, seen.firings⟩ timer number
      call) :
    timer.interval = call.intervalSec ∧ Due unit
      ⟨following, seen.calls ++ input.call.toList, seen.firings⟩ number call expireTime := by
  obtain ⟨made, hmade, hexpire, hinterval, howner⟩ := numbered_entry hentry
  have hnumber := howner number hfrom.callback
  have hcall := hfrom.call
  rw [hmade, hnumber, Option.toList_some, List.getElem?_concat_length] at hcall
  cases hcall
  refine ⟨hinterval, hexpire ▸ .delay fun one hone hsame => ?_⟩
  have hlt := h.fired one hone
  omega

/-- A callback is not in the batch twice. -/
theorem Kept.callback_once (h : Kept unit seen) {timerId : TimerId} {timer : Timer Nat}
    {rest : List (TimerId × Timer Nat)}
    (hstage : seen.manager.stage = .between now ((timerId, timer) :: rest))
    (hcallback : timer.callback = some number) :
    number ∉ seen.manager.waiting.filterMap (fun entry => entry.2.callback) ∧
      number ∉ rest.filterMap (fun entry => entry.2.callback) := by
  have hall := h.nodup
  rw [TimerManager.owners, hstage, List.filterMap_append] at hall
  obtain ⟨-, hbatch, hapart⟩ := List.nodup_append.1 hall
  have hheld : (number :: rest.filterMap fun entry => entry.2.callback).Nodup := by
    simpa [ReadStage.held, hcallback] using hbatch
  refine ⟨fun hmem => ?_, (List.nodup_cons.1 hheld).1⟩
  refine hapart number hmem number ?_ rfl
  simp [ReadStage.held, hcallback]

/-- A firing does not touch the other timers. -/
theorem untouched_fires (following : TimerManager Nat) {other : Nat} (hne : other ≠ number) :
    Untouched seen ⟨following, seen.calls, seen.firings ++ [⟨number, now⟩]⟩ other := by
  refine ⟨rfl, fun one howner => ⟨fun hone => ?_, List.mem_append_left _⟩⟩
  rcases List.mem_append.1 hone with hold | hnew
  · exact hold
  · cases List.mem_singleton.1 hnew
    exact absurd howner.symm hne

section Callback

variable {timerId : TimerId} {timer : Timer Nat} {rest : List (TimerId × Timer Nat)}

/-- The turn of a timer without a callback. -/
theorem Kept.next_empty (h : Kept unit seen)
    (hstage : seen.manager.stage = .between now ((timerId, timer) :: rest))
    (hcallback : timer.callback = none) :
    Kept unit ⟨{ seen.manager with stage := .calling now timerId timer rest }, seen.calls,
      seen.firings⟩ := by
  have hbatch : InBatch unit seen now ((timerId, timer) :: rest) := by
    have hbefore := h.stage
    rwa [hstage] at hbefore
  have hsame (number : Nat) : Untouched seen ⟨{ seen.manager with
      stage := .calling now timerId timer rest }, seen.calls, seen.firings⟩ number :=
    ⟨rfl, fun _ _ => Iff.rfl⟩
  refine ⟨⟨h.measured.delay, h.measured.interval⟩, h.fired, ?_, ?_,
    fun entry hentry number call hfrom => h.entry hentry hfrom (hsame number),
    fun number call hfrom => ?_, ?_⟩
  · rw [TimerManager.owners_calling hstage]
    exact h.known
  · rw [TimerManager.owners_calling hstage]
    exact h.nodup
  · cases hcallback.symm.trans hfrom.callback
  · exact InBatch.of_untouched (fun entry hentry => hbatch entry (List.mem_cons_of_mem _ hentry))
      fun _ _ number _ => hsame number

/-- The beginning of a callback. -/
theorem Kept.next_fires (h : Kept unit seen)
    (hstage : seen.manager.stage = .between now ((timerId, timer) :: rest))
    (hcallback : timer.callback = some number) :
    Kept unit ⟨{ seen.manager with stage := .calling now timerId timer rest }, seen.calls,
      seen.firings ++ [⟨number, now⟩]⟩ := by
  have hbatch : InBatch unit seen now ((timerId, timer) :: rest) := by
    have hbefore := h.stage
    rwa [hstage] at hbefore
  have hself (call : TimerCall) (hcall : seen.calls[number]? = some call) :=
    hbatch _ List.mem_cons_self number call ⟨hcallback, hcall⟩
  obtain ⟨htable, hrest⟩ := h.callback_once hstage hcallback
  have hknown : number < seen.calls.length := by
    have hfirst : (timerId, timer) ∈ seen.manager.stage.held := by
      rw [hstage]
      exact List.mem_cons_self
    exact h.known number (TimerManager.mem_owners_held hfirst hcallback)
  refine ⟨h.measured.fire (fun call hcall => (hself call hcall).2) _, fun one hone => ?_, ?_, ?_,
    fun entry hentry other call hfrom => ?_, fun other call hfrom => ?_, ?_⟩
  · rcases List.mem_append.1 hone with hold | hnew
    · exact h.fired one hold
    · cases List.mem_singleton.1 hnew
      exact hknown
  · rw [TimerManager.owners_calling hstage]
    exact h.known
  · rw [TimerManager.owners_calling hstage]
    exact h.nodup
  · have hne : other ≠ number := by
      rintro rfl
      exact htable (List.mem_filterMap.2 ⟨_, List.mem_map_of_mem hentry, hfrom.callback⟩)
    exact h.entry hentry hfrom (untouched_fires _ hne)
  · cases hcallback.symm.trans hfrom.callback
    obtain ⟨hinterval, hripe⟩ := hself call hfrom.call
    refine ⟨hinterval, List.mem_append_right _ (List.mem_singleton.2 rfl),
      fun hpositive one hone howner => ?_⟩
    rcases List.mem_append.1 hone with hold | hnew
    · exact .inr (hripe.interval hpositive one hold howner)
    · cases List.mem_singleton.1 hnew
      exact .inl rfl
  · refine InBatch.of_untouched (fun entry hentry => hbatch entry (List.mem_cons_of_mem _ hentry))
      fun entry hentry other hother => untouched_fires _ ?_
    rintro rfl
    exact hrest (List.mem_filterMap.2 ⟨entry, hentry, hother⟩)

/-- The turn of the next timer of the batch. -/
theorem Kept.next (h : Kept unit seen)
    (hstage : seen.manager.stage = .between now ((timerId, timer) :: rest)) :
    Kept unit ⟨{ seen.manager with stage := .calling now timerId timer rest }, seen.calls,
      seen.firings ++ (firedBy (timerId, timer)).toList.map fun one => ⟨one.callback, now⟩⟩ := by
  cases hcallback : timer.callback with
  | none =>
      have hsilent : (firedBy (timerId, timer)).toList = [] := by
        rw [firedBy, hcallback]
        rfl
      rw [hsilent, List.map_nil, List.append_nil]
      exact h.next_empty hstage hcallback
  | some number =>
      have hfires : (firedBy (timerId, timer)).toList = [⟨timerId, number⟩] := by
        rw [firedBy, hcallback]
        rfl
      rw [hfires]
      exact h.next_fires hstage hcallback

end Callback

/-- What `handleRead` finds late enough is ripe. -/
theorem Kept.detached (h : Kept unit seen) (hunit : 1 ≤ unit)
    (hforward : ∀ one ∈ seen.firings, one.now ≤ now)
    (hlate : ∀ entry ∈ seen.manager.expired now, ∀ (number : Nat) call,
      entry.2.2.callback = some number → seen.calls[number]? = some call →
        Overdue unit seen number call entry.2.1 now) (more : List TimerCall) :
    StageKept unit ⟨seen.manager.detach now, seen.calls ++ more, seen.firings⟩
      (seen.manager.detach now).stage := by
  intro entry hentry number call hfrom
  obtain ⟨found, hfound, rfl⟩ := List.mem_map.1 hentry
  have hlisted : found ∈ seen.manager.timers.toList := (List.takeWhile_sublist _).subset hfound
  have hlt := h.known number (TimerManager.mem_owners_table hlisted hfrom.callback)
  have hsame := untouched_silent (seen.manager.detach now) more hlt
  have hbefore := hfrom.before hsame
  obtain ⟨hinterval, hdue⟩ := h.table found hlisted number call hbefore
  have hoverdue := hlate found hfound number call hbefore.callback hbefore.call
  have hripe := hdue.ripe hunit h.measured hbefore.call hforward hoverdue
  exact ⟨hinterval, hripe.of_untouched hsame⟩

/-- The entry that a periodic timer gets behind its callback counts milliseconds from its last
firing. -/
theorem due_reinserted {manager : TimerManager Nat} {timerId : TimerId} {timer : Timer Nat}
    {entry : TimerId × UInt64 × Timer Nat} {call : TimerCall}
    (hcalling : ∀ number call, ComesFrom after timer number call →
      timer.interval = call.intervalSec ∧ Latest unit after number call now)
    (hentry : entry ∈ (manager.reinsert now timerId timer).timers.toList)
    (hnew : entry ∉ manager.timers.toList) (hfrom : ComesFrom after entry.2.2 number call) :
    entry.2.2.interval = call.intervalSec ∧ Due unit after number call entry.2.1 := by
  unfold TimerManager.reinsert at hentry
  split at hentry
  · rcases TimerManager.mem_emplace hentry with rfl | hold
    · obtain ⟨hinterval, hlatest⟩ := hcalling number call hfrom
      refine ⟨hinterval, ?_⟩
      show Due unit after number call (now + addedMs timer.interval)
      rw [hinterval]
      exact .interval hlatest
    · exact absurd hold hnew
  · exact absurd hentry hnew

/-- One step, when the clock does not go back and `handleRead` reads it late enough. -/
theorem Kept.step (h : Kept unit seen) (hunit : 1 ≤ unit) (hforward : Forward seen input)
    (hlate : ReadsLate unit seen input) (hstep : observe seen input = .ok (after, fired)) :
    Kept unit after := by
  obtain ⟨next, hmanager, rfl⟩ := observe_ok hstep
  have hsilent (hmanager : seen.manager.step (input.numbered seen.calls.length) = .ok (next, [])) :=
    h.silent hmanager
  obtain ⟨numbered, hnumbered⟩ : ∃ numbered, input.numbered seen.calls.length = numbered :=
    ⟨_, rfl⟩
  rw [hnumbered] at hmanager hsilent
  have hstage := h.same_stage next input.call.toList
  cases TimerManager.step_ok hmanager with
  | @add _ expireTime timer later hadded hcall =>
      rw [List.map_nil, List.append_nil]
      have hentry : (input.numbered seen.calls.length).entry = some (expireTime, timer) := by
        rw [hnumbered]
        exact hadded
      refine hsilent hmanager (fun entry hmem number call hfrom hnew => ?_) hstage
      rcases TimerManager.mem_emplace hmem with rfl | hold
      · exact h.new_entry _ hentry hfrom
      · exact absurd hold hnew
  | removeTimer timerId later hcall =>
      rw [List.map_nil, List.append_nil]
      refine hsilent hmanager (fun entry hmem number call _ hnew => ?_) ?_
      · exact absurd (TimerManager.mem_remove_timer hmem) hnew
      · rw [TimerManager.remove_timer_stage]
        exact hstage
  | handleRead now hidle =>
      rw [List.map_nil, List.append_nil]
      have hread := numbered_handle_read hnumbered
      refine hsilent hmanager (fun entry hmem number call _ hnew => ?_) ?_
      · exact absurd (TimerManager.mem_detach hmem).2 hnew
      · exact h.detached hunit (hforward now hread) (hlate now hread) _
  | @next now timerId timer rest hbetween =>
      have hcall : input.call = none := by
        rw [← call_numbered seen.calls.length, hnumbered]
        rfl
      have hnow : seen.manager.stage.now = now := by
        rw [hbetween]
        rfl
      rw [hcall, hnow, Option.toList_none, List.append_nil]
      exact h.next hbetween
  | @returns now timerId timer rest hcalling =>
      rw [List.map_nil, List.append_nil]
      rw [hcalling] at hstage
      exact hsilent hmanager (fun entry hmem number call hfrom hnew =>
        due_reinserted hstage.1 hmem hnew hfrom) hstage.2
  | finish later hbetween =>
      rw [List.map_nil, List.append_nil]
      exact hsilent hmanager (fun entry hmem number call _ hnew => absurd hmem hnew) trivial

end Steps

/-! ## Runs -/

section Runs

variable {Callback : Type} {inputs : List (TimerStep Callback)} {final : Observed}
  {fired : List (Fired Nat)}

/-- What is known holds in every run in which the clock does not go back and is read late enough. -/
theorem kept_of_run {unit : Nat} (hunit : 1 ≤ unit)
    (hforward : Machine.Guarded observe Forward .start inputs)
    (hlate : Machine.Guarded observe (ReadsLate unit) .start inputs)
    (h : Machine.run observe .start inputs = .ok (final, fired)) : Kept unit final :=
  Machine.run_guarded (Kept unit)
    (fun _ _ _ _ hinv hguard hstep => hinv.step hunit hguard.1 hguard.2 hstep) (kept_start unit)
    (Machine.guarded_and hforward hlate) h

/-- A reading is late enough for milliseconds when the timer is due. -/
theorem reads_late_one (seen : Observed) (input : TimerStep Callback) : ReadsLate 1 seen input := by
  intro now _ entry hentry number call _ _
  have hdue : entry.2.1 ≤ now := by
    simpa using List.mem_takeWhile_imp hentry
  exact ⟨fun _ _ => passed_one hdue, fun _ _ => passed_one hdue⟩

/-- In milliseconds no timer is fired too early. -/
theorem measured_milliseconds (hforward : Machine.Guarded observe Forward .start inputs)
    (h : Machine.run observe .start inputs = .ok (final, fired)) : Measured 1 final :=
  (kept_of_run (Nat.le_refl 1) hforward
    (Machine.guarded_of_forall fun state input _ => reads_late_one state input) h).measured

end Runs

/-- A periodic timer with a delay of 1 and an interval of 2. -/
def poll : TimerStep String := .addPeriodicTimer 0 1 2 (some "poll") 0

end CarDetect.Reactor
