import CarDetect.Lib.Machine
import CarDetect.Lib.OrderedMap

/-!
# The timers of an event loop

`TimerManager` keeps its timers in a map ordered by id. `addTimer`, `addPeriodicTimer` and
`removeTimer` are single steps, which a callback may take too; `handleRead` is taken apart into the
detaching of the batch, the beginning and the end of each callback, and the last `resetTimerfd`.
`run_fired` says which callbacks run between the detaching and a later moment.
-/

namespace CarDetect.Reactor

open Std

abbrev TimerId := UInt64

/-- An `int` that is added to a time in milliseconds. -/
def addedMs (value : Int32) : UInt64 :=
  value.toInt64.toUInt64

/-- `TimerManager::Timer`. The callback may be an empty `function`. -/
structure Timer (Callback : Type) where
  interval : Int32
  callback : Option Callback
deriving DecidableEq, Repr

/-- The `it_value` that `timerfd_settime` is called with. -/
structure Itimerspec where
  sec : UInt64
  nsec : UInt64
deriving DecidableEq, Repr

/-- How long until the timerfd fires. Zero means that it does not. -/
def Itimerspec.nanoseconds (spec : Itimerspec) : Nat :=
  spec.sec.toNat * 1000000000 + spec.nsec.toNat

/-- What the timerfd was last set to, and the clock reading from which this was computed. -/
structure Timerfd where
  value : Itimerspec
  clock : UInt64
deriving DecidableEq, Repr

/-- Where `handleRead` is: not called, between two callbacks of the batch, or in one. -/
inductive ReadStage (Callback : Type) where
  | idle
  | between (now : UInt64) (expired : List (TimerId × Timer Callback))
  | calling (now : UInt64) (timerId : TimerId) (timer : Timer Callback)
      (expired : List (TimerId × Timer Callback))
deriving DecidableEq, Repr

/-- The table, with the expiry of each timer in front of it, the next id, the timerfd, and the
`handleRead` that is going on. -/
structure TimerManager (Callback : Type) where
  timers : TreeMap TimerId (UInt64 × Timer Callback) compare
  nextId : TimerId
  timerfd : Timerfd
  stage : ReadStage Callback

/-- A call of the operations, with the clock readings it makes, or a step of `handleRead`: the
detaching of the batch, the beginning of a callback, its end, and the last `resetTimerfd`. -/
inductive TimerStep (Callback : Type) where
  | addTimer (clock : UInt64) (delaySec : Int32) (callback : Option Callback) (later : UInt64)
  | addPeriodicTimer (clock : UInt64) (delaySec intervalSec : Int32) (callback : Option Callback)
      (later : UInt64)
  | removeTimer (timerId : TimerId) (later : UInt64)
  | handleRead (now : UInt64)
  | next
  | returns
  | finish (later : UInt64)
deriving DecidableEq, Repr

/-- The invocation of a callback. -/
structure Fired (Callback : Type) where
  timerId : TimerId
  callback : Callback
deriving DecidableEq, Repr

section Definitions

variable {Callback : Type}

/-- The expiry and the timer of an addition. -/
def TimerStep.entry : TimerStep Callback → Option (UInt64 × Timer Callback)
  | .addTimer clock delaySec callback _ => some (clock + addedMs delaySec, ⟨0, callback⟩)
  | .addPeriodicTimer clock delaySec intervalSec callback _ =>
      some (clock + addedMs delaySec, ⟨intervalSec, callback⟩)
  | .removeTimer _ _ | .handleRead _ | .next | .returns | .finish _ => none

/-- The timers of the batch whose callbacks have not begun. -/
def ReadStage.pending : ReadStage Callback → List (TimerId × Timer Callback)
  | .idle => []
  | .between _ expired | .calling _ _ _ expired => expired

/-- Whether the loop thread is outside `handleRead` or in a callback, and may make calls. -/
def ReadStage.mayCall : ReadStage Callback → Bool
  | .idle => true
  | .between _ _ => false
  | .calling _ _ timer _ => timer.callback.isSome

/-- The invocation that a timer of the batch leads to. -/
def firedBy (entry : TimerId × Timer Callback) : Option (Fired Callback) :=
  entry.2.callback.map fun callback => ⟨entry.1, callback⟩

namespace TimerManager

/-- After the constructor. -/
def created : TimerManager Callback where
  timers := ∅
  nextId := 1
  timerfd := ⟨⟨0, 0⟩, 0⟩
  stage := .idle

/-- The `it_value` for an expiry, at a clock reading. -/
def specFor (nextExpire now : UInt64) : Itimerspec :=
  let diffMs := if nextExpire > now then nextExpire - now else 1
  ⟨diffMs / 1000, diffMs % 1000 * 1000000⟩

/-- What the timerfd is set to for a table: the first entry decides. -/
def settingFor (timers : TreeMap TimerId (UInt64 × Timer Callback) compare) (clock : UInt64) :
    Timerfd :=
  match timers.toList with
  | [] => ⟨⟨0, 0⟩, clock⟩
  | (_, nextExpire, _) :: _ => ⟨specFor nextExpire clock, clock⟩

def resetTimerfd (manager : TimerManager Callback) (clock : UInt64) : TimerManager Callback :=
  { manager with timerfd := settingFor manager.timers clock }

/-- `_timers.emplace`, which leaves an entry that exists. -/
def emplace (manager : TimerManager Callback) (timerId : TimerId) (expireTime : UInt64)
    (timer : Timer Callback) : TimerManager Callback :=
  { manager with timers := manager.timers.insertIfNew timerId (expireTime, timer) }

/-- A new timer: its id is taken, its entry made, and the timerfd set. -/
def addEntry (manager : TimerManager Callback) (expireTime : UInt64) (timer : Timer Callback)
    (later : UInt64) : TimerManager Callback :=
  ({ manager with nextId := manager.nextId + 1 }.emplace manager.nextId expireTime
    timer).resetTimerfd later

def addTimer (manager : TimerManager Callback) (clock : UInt64) (delaySec : Int32)
    (callback : Option Callback) (later : UInt64) : TimerManager Callback :=
  manager.addEntry (clock + addedMs delaySec) ⟨0, callback⟩ later

def addPeriodicTimer (manager : TimerManager Callback) (clock : UInt64)
    (delaySec intervalSec : Int32) (callback : Option Callback) (later : UInt64) :
    TimerManager Callback :=
  manager.addEntry (clock + addedMs delaySec) ⟨intervalSec, callback⟩ later

def removeTimer (manager : TimerManager Callback) (timerId : TimerId) (later : UInt64) :
    TimerManager Callback :=
  if timerId ∈ manager.timers then
    { manager with timers := manager.timers.erase timerId }.resetTimerfd later
  else manager

/-- The entries that the loop of `handleRead` finds: it stops at the first later one. -/
def expired (manager : TimerManager Callback) (now : UInt64) :
    List (TimerId × UInt64 × Timer Callback) :=
  manager.timers.toList.takeWhile fun entry => entry.2.1 ≤ now

/-- The first loop of `handleRead` takes the batch out of the table. -/
def detach (manager : TimerManager Callback) (now : UInt64) : TimerManager Callback :=
  { manager with
    timers := (manager.expired now).foldl (fun timers entry => timers.erase entry.1) manager.timers
    stage := .between now ((manager.expired now).map fun entry => (entry.1, entry.2.2)) }

/-- What follows a callback in the second loop: a periodic timer enters the table again. -/
def reinsert (manager : TimerManager Callback) (now : UInt64) (timerId : TimerId)
    (timer : Timer Callback) : TimerManager Callback :=
  if 0 < timer.interval then manager.emplace timerId (now + addedMs timer.interval) timer
  else manager

/-- One step. -/
def step (manager : TimerManager Callback) : TimerStep Callback →
    Except Machine.Suspended (TimerManager Callback × List (Fired Callback))
  | .addTimer clock delaySec callback later =>
      if manager.stage.mayCall then .ok (manager.addTimer clock delaySec callback later, [])
      else .error .suspended
  | .addPeriodicTimer clock delaySec intervalSec callback later =>
      if manager.stage.mayCall then
        .ok (manager.addPeriodicTimer clock delaySec intervalSec callback later, [])
      else .error .suspended
  | .removeTimer timerId later =>
      if manager.stage.mayCall then .ok (manager.removeTimer timerId later, [])
      else .error .suspended
  | .handleRead now =>
      match manager.stage with
      | .idle => .ok (manager.detach now, [])
      | .between _ _ | .calling _ _ _ _ => .error .suspended
  | .next =>
      match manager.stage with
      | .between now ((timerId, timer) :: rest) =>
          .ok ({ manager with stage := .calling now timerId timer rest },
            (firedBy (timerId, timer)).toList)
      | .between _ [] | .idle | .calling _ _ _ _ => .error .suspended
  | .returns =>
      match manager.stage with
      | .calling now timerId timer rest =>
          .ok ({ manager.reinsert now timerId timer with stage := .between now rest }, [])
      | .idle | .between _ _ => .error .suspended
  | .finish later =>
      match manager.stage with
      | .between _ [] => .ok ({ manager.resetTimerfd later with stage := .idle }, [])
      | .between _ (_ :: _) | .idle | .calling _ _ _ _ => .error .suspended

end TimerManager

end Definitions

namespace TimerManager

section Steps

variable {Callback : Type} {manager following : TimerManager Callback}
  {fired : List (Fired Callback)} {input : TimerStep Callback} {later : UInt64}

/-! ## What one step does -/

@[simp] theorem add_entry_stage {expireTime : UInt64} {timer : Timer Callback} :
    (manager.addEntry expireTime timer later).stage = manager.stage := rfl

@[simp] theorem remove_timer_stage {timerId : TimerId} :
    (manager.removeTimer timerId later).stage = manager.stage := by
  unfold removeTimer
  split <;> rfl

/-- What a step does. -/
inductive Does (manager : TimerManager Callback) :
    TimerStep Callback → TimerManager Callback → List (Fired Callback) → Prop where
  | add {input : TimerStep Callback} {expireTime : UInt64} {timer : Timer Callback} (later : UInt64)
      (hentry : input.entry = some (expireTime, timer)) (hcall : manager.stage.mayCall = true) :
      Does manager input (manager.addEntry expireTime timer later) []
  | removeTimer (timerId : TimerId) (later : UInt64) (hcall : manager.stage.mayCall = true) :
      Does manager (.removeTimer timerId later) (manager.removeTimer timerId later) []
  | handleRead (now : UInt64) (hstage : manager.stage = .idle) :
      Does manager (.handleRead now) (manager.detach now) []
  | next {now : UInt64} {timerId : TimerId} {timer : Timer Callback}
      {rest : List (TimerId × Timer Callback)}
      (hstage : manager.stage = .between now ((timerId, timer) :: rest)) :
      Does manager .next { manager with stage := .calling now timerId timer rest }
        (firedBy (timerId, timer)).toList
  | returns {now : UInt64} {timerId : TimerId} {timer : Timer Callback}
      {rest : List (TimerId × Timer Callback)}
      (hstage : manager.stage = .calling now timerId timer rest) :
      Does manager .returns
        { manager.reinsert now timerId timer with stage := .between now rest } []
  | finish {now : UInt64} (later : UInt64) (hstage : manager.stage = .between now []) :
      Does manager (.finish later) { manager.resetTimerfd later with stage := .idle } []

theorem step_ok (h : manager.step input = .ok (following, fired)) :
    manager.Does input following fired := by
  cases input with
  | addTimer clock delaySec callback later =>
      simp only [step] at h
      split at h
      · rename_i hcall
        cases h
        exact .add later rfl hcall
      · cases h
  | addPeriodicTimer clock delaySec intervalSec callback later =>
      simp only [step] at h
      split at h
      · rename_i hcall
        cases h
        exact .add later rfl hcall
      · cases h
  | removeTimer timerId later =>
      simp only [step] at h
      split at h
      · rename_i hcall
        cases h
        exact .removeTimer timerId later hcall
      · cases h
  | handleRead now =>
      simp only [step] at h
      split at h
      · rename_i hstage
        cases h
        exact .handleRead now hstage
      · cases h
      · cases h
  | next =>
      simp only [step] at h
      split at h
      · rename_i hstage
        cases h
        exact .next hstage
      all_goals cases h
  | returns =>
      simp only [step] at h
      split at h
      · rename_i hstage
        cases h
        exact .returns hstage
      all_goals cases h
  | finish later =>
      simp only [step] at h
      split at h
      · rename_i hstage
        cases h
        exact .finish later hstage
      all_goals cases h

/-! ## The callbacks of a batch -/

/-- While `handleRead` goes on, the callbacks that have run are those of the batch whose turn has
come, whatever the callbacks do to the timers. -/
theorem run_fired {inputs : List (TimerStep Callback)} (hstage : manager.stage ≠ .idle)
    (hinside : ∀ later, .finish later ∉ inputs)
    (h : Machine.run step manager inputs = .ok (following, fired)) :
    following.stage ≠ .idle ∧
      manager.stage.pending.filterMap firedBy =
        fired ++ following.stage.pending.filterMap firedBy := by
  refine Machine.run_history
    (fun _ fired state => state.stage ≠ .idle ∧
      manager.stage.pending.filterMap firedBy = fired ++ state.stage.pending.filterMap firedBy)
    (fun input => ∀ later, input ≠ .finish later) ?_ ⟨hstage, rfl⟩
    (fun input hinput later heq => hinside later (by rw [← heq]; exact hinput)) h
  rintro past fired state input next out ⟨hreading, htotal⟩ hinput hstep
  rw [htotal]
  cases step_ok hstep with
  | add later hentry hcall => simpa using hreading
  | removeTimer timerId later hcall => simpa using hreading
  | handleRead now hidle => exact absurd hidle hreading
  | next hbetween =>
      refine ⟨nofun, ?_⟩
      rw [hbetween]
      cases hfired : firedBy _ <;> simp [ReadStage.pending, hfired]
  | returns hcalling =>
      refine ⟨nofun, ?_⟩
      rw [hcalling]
      simp [ReadStage.pending]
  | finish later hbetween => exact absurd rfl (hinput later)

/-- A whole `handleRead` runs the callbacks of the batch that it detaches. -/
theorem run_handle_read {now : UInt64} {inputs : List (TimerStep Callback)}
    (hinside : ∀ later, .finish later ∉ inputs)
    (h : Machine.run step manager (.handleRead now :: inputs ++ [.finish later]) =
      .ok (following, fired)) :
    fired = (manager.expired now).filterMap fun entry => firedBy (entry.1, entry.2.2) := by
  obtain ⟨last, before, after, hrun, hfinish, hfired⟩ := Machine.run_append_inv h
  obtain ⟨detached, first, later, hdetach, hrest, hbefore⟩ := Machine.run_cons_inv hrun
  obtain ⟨final, out, outs, hlast, hnil, hafter⟩ := Machine.run_cons_inv hfinish
  cases hnil
  simp only at hfired hbefore hafter
  cases step_ok hdetach with
  | add later hentry hcall => cases hentry
  | handleRead now hidle =>
      obtain ⟨-, htotal⟩ := run_fired (by nofun) hinside hrest
      cases step_ok hlast with
      | add later hentry hcall => cases hentry
      | finish later hbetween =>
          rw [hbetween] at htotal
          rw [hfired, hbefore, hafter]
          simpa [detach, ReadStage.pending, List.filterMap_map, Function.comp_def] using htotal.symm

end Steps

end TimerManager

end CarDetect.Reactor
