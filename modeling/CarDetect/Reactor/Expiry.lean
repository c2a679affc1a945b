import CarDetect.Reactor.TimerManager

/-!
# When timers fire

`handleRead` and `resetTimerfd` take the first entry of the table for the earliest, and the table is
ordered by id. `punctual_iff` says for which runs every table lets `handleRead` run the callbacks of
all timers that are due, with the timerfd set for the earliest one: those in which no timer is
entered with an expiry before that of a smaller id, or after that of a greater one.
-/

namespace CarDetect.Reactor.TimerManager

open OrderedMap Std

section Definitions

variable {Callback : Type}

/-! ## The property -/

/-- The timers whose expiry is at most `now`. -/
def due (manager : TimerManager Callback) (now : UInt64) :
    List (TimerId × UInt64 × Timer Callback) :=
  manager.timers.toList.filter fun entry => entry.2.1 ≤ now

/-- The timerfd was set for the earliest expiry in the table, with one millisecond when it was past,
or not to fire when the table is empty. -/
structure Armed (manager : TimerManager Callback) : Prop where
  empty : manager.timers.toList = [] → manager.timerfd.value.nanoseconds = 0
  earliest : ∀ entry ∈ manager.timers.toList,
    (∀ other ∈ manager.timers.toList, entry.2.1 ≤ other.2.1) →
      manager.timerfd.value.nanoseconds =
        (if manager.timerfd.clock < entry.2.1 then
          entry.2.1.toNat - manager.timerfd.clock.toNat else 1) * 1000000

/-- At any time, `handleRead` would detach the timers that are due, and a whole `handleRead` runs
their callbacks and no others; and outside `handleRead` the timerfd is set for the earliest. -/
structure Punctual (manager : TimerManager Callback) : Prop where
  detached : ∀ now, manager.expired now = manager.due now
  fires : ∀ now inputs later final fired, (∀ later, .finish later ∉ inputs) →
    Machine.run step manager (.handleRead now :: inputs ++ [.finish later]) = .ok (final, fired) →
      fired = (manager.due now).filterMap fun entry => firedBy (entry.1, entry.2.2)
  armed : manager.stage = .idle → manager.Armed

/-- A new entry with this id and expiry keeps the expiries in the order of the ids. -/
def Fits (timers : TreeMap TimerId (UInt64 × Timer Callback) compare) (timerId : TimerId)
    (expireTime : UInt64) : Prop :=
  timers[timerId]? = none → ∀ entry : TimerId × UInt64 × Timer Callback,
    timers[entry.1]? = some entry.2 →
      (entry.1 < timerId → entry.2.1 ≤ expireTime) ∧ (timerId < entry.1 → expireTime ≤ entry.2.1)

/-- A new timer, and a periodic timer that enters the table again, fits into the table. -/
structure InOrder (manager : TimerManager Callback) (input : TimerStep Callback) : Prop where
  added : ∀ expireTime timer, manager.stage.mayCall = true →
    input.entry = some (expireTime, timer) → Fits manager.timers manager.nextId expireTime
  reinserted : ∀ now timerId timer rest, input = .returns →
    manager.stage = .calling now timerId timer rest → 0 < timer.interval →
      Fits manager.timers timerId (now + addedMs timer.interval)

/-! ## The order of the table -/

/-- The expiries come in the order of the ids. -/
def Ordered (timers : TreeMap TimerId (UInt64 × Timer Callback) compare) : Prop :=
  ∀ a b : TimerId × UInt64 × Timer Callback, timers[a.1]? = some a.2 → timers[b.1]? = some b.2 →
    a.1 < b.1 → a.2.1 ≤ b.2.1

end Definitions

section Order

variable {Callback : Type} {manager next : TimerManager Callback} {fired : List (Fired Callback)}
  {input : TimerStep Callback} {timers : TreeMap TimerId (UInt64 × Timer Callback) compare}
  {timerId : TimerId} {expireTime : UInt64}

theorem ordered_iff_pairwise :
    Ordered timers ↔ timers.toList.Pairwise fun a b => a.2.1 ≤ b.2.1 := by
  rw [pairwise_toList_iff]
  simp only [Ordered, compare_eq_lt]

/-- The scan of `handleRead` finds all timers that are due, at any time, exactly when the table is
ordered. -/
theorem detached_iff : (∀ now, manager.expired now = manager.due now) ↔ Ordered manager.timers := by
  rw [ordered_iff_pairwise]
  exact takeWhile_eq_filter_iff fun entry : TimerId × UInt64 × Timer Callback => entry.2.1

/-- An order survives the removal of entries. -/
theorem Ordered.of_sub {smaller : TreeMap TimerId (UInt64 × Timer Callback) compare}
    (h : Ordered timers) (hsub : ∀ (timerId : TimerId) entry, smaller[timerId]? = some entry →
      timers[timerId]? = some entry) : Ordered smaller :=
  fun a b ha hb hlt => h a b (hsub _ _ ha) (hsub _ _ hb) hlt

/-- An entry keeps the order exactly when it fits. -/
theorem ordered_insert_iff (h : Ordered timers) {timer : Timer Callback} :
    Ordered (timers.insertIfNew timerId (expireTime, timer)) ↔ Fits timers timerId expireTime := by
  constructor
  · intro hordered hnone entry hentry
    have hself : (timers.insertIfNew timerId (expireTime, timer))[timerId]? =
        some (expireTime, timer) := get_insertIfNew.2 (.inr ⟨rfl, hnone, rfl⟩)
    have hother : (timers.insertIfNew timerId (expireTime, timer))[entry.1]? = some entry.2 :=
      get_insertIfNew.2 (.inl hentry)
    exact ⟨hordered entry (timerId, expireTime, timer) hother hself,
      hordered (timerId, expireTime, timer) entry hself hother⟩
  · rintro hfits a b ha hb hlt
    rcases get_insertIfNew.1 ha with ha | ⟨hida, hnone, hvalue⟩
    · rcases get_insertIfNew.1 hb with hb | ⟨hidb, hnone, hvalue⟩
      · exact h a b ha hb hlt
      · rw [← hvalue]
        exact (hfits hnone a ha).1 (by rw [hidb]; exact hlt)
    · rcases get_insertIfNew.1 hb with hb | ⟨hidb, -, -⟩
      · rw [← hvalue]
        exact (hfits hnone b hb).2 (by rw [hida]; exact hlt)
      · rw [← hida, ← hidb] at hlt
        exact absurd hlt (UInt64.lt_irrefl _)

/-- A step keeps the order exactly when its entry fits. -/
theorem ordered_step_iff (h : Ordered manager.timers)
    (hstep : manager.step input = .ok (next, fired)) :
    Ordered next.timers ↔ manager.InOrder input := by
  cases step_ok hstep with
  | @add _ expireTime timer later hentry hcall =>
      simp only [addEntry, emplace, resetTimerfd, ordered_insert_iff h]
      constructor
      · intro hfits
        refine ⟨fun other timer _ hother => ?_, fun _ _ _ _ hreturns => ?_⟩
        · rw [hentry] at hother
          cases hother
          exact hfits
        · rw [hreturns] at hentry
          cases hentry
      · exact fun hinorder => hinorder.added expireTime timer hcall hentry
  | removeTimer timerId later hcall =>
      refine iff_of_true ?_ ⟨nofun, nofun⟩
      unfold removeTimer
      split
      · refine h.of_sub fun other entry hentry => ?_
        simp only [resetTimerfd, TreeMap.getElem?_erase] at hentry
        exact (Option.ite_none_left_eq_some.1 hentry).2
      · exact h
  | handleRead now hidle =>
      refine iff_of_true ?_ ⟨nofun, nofun⟩
      exact h.of_sub fun other entry hentry => ((get_foldl_erase _ _).1 hentry).2
  | next hbetween => exact iff_of_true h ⟨nofun, nofun⟩
  | @returns now timerId timer rest hcalling =>
      have hiff : manager.InOrder .returns ↔
          (0 < timer.interval → Fits manager.timers timerId (now + addedMs timer.interval)) := by
        constructor
        · exact fun hinorder => hinorder.reinserted now timerId timer rest rfl hcalling
        · intro hfits
          refine ⟨nofun, fun _ _ _ _ _ hstage hinterval => ?_⟩
          rw [hcalling] at hstage
          cases hstage
          exact hfits hinterval
      rw [hiff]
      simp only [reinsert]
      split
      · rename_i hinterval
        simp only [emplace, ordered_insert_iff h, hinterval, forall_const]
      · rename_i hinterval
        exact iff_of_true h fun hpositive => absurd hpositive hinterval
  | finish later hbetween => exact iff_of_true h ⟨nofun, nofun⟩

/-- A step that cannot be taken enters nothing. -/
theorem in_order_of_suspended {fault : Machine.Suspended}
    (hstep : manager.step input = .error fault) : manager.InOrder input := by
  refine ⟨fun expireTime timer hcall hentry => ?_,
    fun now timerId timer rest hreturns hcalling => ?_⟩
  · cases input with
    | addTimer clock delaySec callback later =>
        simp only [step, hcall, if_true] at hstep
        cases hstep
    | addPeriodicTimer clock delaySec intervalSec callback later =>
        simp only [step, hcall, if_true] at hstep
        cases hstep
    | _ => cases hentry
  · subst hreturns
    simp only [step, hcalling] at hstep
    cases hstep

/-! ## The timerfd -/

/-- `resetTimerfd` sets the timerfd for the difference, or for one millisecond. -/
theorem nanoseconds_spec_for (nextExpire now : UInt64) :
    (specFor nextExpire now).nanoseconds =
      (if now < nextExpire then nextExpire.toNat - now.toNat else 1) * 1000000 := by
  have hsplit (diff : UInt64) :
      (⟨diff / 1000, diff % 1000 * 1000000⟩ : Itimerspec).nanoseconds = diff.toNat * 1000000 := by
    simp only [Itimerspec.nanoseconds, UInt64.toNat_div, UInt64.toNat_mul, UInt64.toNat_mod,
      UInt64.reduceToNat]
    omega
  simp only [specFor, hsplit, gt_iff_lt]
  split
  · rename_i hlt
    rw [UInt64.toNat_sub_of_le _ _ (UInt64.le_of_lt hlt)]
  · rfl

/-- Outside `handleRead` the timerfd is set for the table. -/
def Current (manager : TimerManager Callback) : Prop :=
  manager.stage = .idle → manager.timerfd = settingFor manager.timers manager.timerfd.clock

theorem current_created : (created : TimerManager Callback).Current := fun _ => rfl

@[simp] theorem setting_for_clock (later : UInt64) : (settingFor timers later).clock = later := by
  unfold settingFor
  split <;> rfl

theorem current_reset (manager : TimerManager Callback) (later : UInt64) :
    (manager.resetTimerfd later).Current := fun _ => by simp [resetTimerfd]

theorem Current.step (h : manager.Current) (hstep : manager.step input = .ok (next, fired)) :
    next.Current := by
  cases step_ok hstep with
  | add later hentry hcall => exact current_reset _ later
  | removeTimer timerId later hcall =>
      unfold removeTimer
      split
      · exact current_reset _ later
      · exact h
  | handleRead now hidle => nofun
  | next hbetween => nofun
  | returns hcalling => nofun
  | finish later hbetween => exact current_reset { manager with stage := .idle } later

/-- In an ordered table the first entry is the earliest. -/
theorem armed_of_ordered (hordered : Ordered manager.timers)
    (hcurrent : manager.timerfd = settingFor manager.timers manager.timerfd.clock) :
    manager.Armed := by
  rw [ordered_iff_pairwise] at hordered
  refine ⟨fun hempty => ?_, fun entry hentry hearliest => ?_⟩
  · rw [hcurrent]
    simp [settingFor, hempty, Itimerspec.nanoseconds]
  · cases hlist : manager.timers.toList with
    | nil =>
        rw [hlist] at hentry
        cases hentry
    | cons first rest =>
        rw [hlist] at hordered hentry hearliest
        have hfirst : first.2.1 ≤ entry.2.1 := by
          rcases List.mem_cons.1 hentry with rfl | hrest
          · exact UInt64.le_refl _
          · exact (List.pairwise_cons.1 hordered).1 entry hrest
        have hsame : entry.2.1 = first.2.1 :=
          UInt64.le_antisymm (hearliest first List.mem_cons_self) hfirst
        have hvalue : manager.timerfd.value = specFor first.2.1 manager.timerfd.clock := by
          rw [hcurrent]
          simp [settingFor, hlist]
        rw [hvalue, nanoseconds_spec_for, hsame]

/-! ## Runs -/

/-- A table is punctual exactly when it is ordered. -/
theorem punctual_iff_ordered (hcurrent : manager.Current) :
    manager.Punctual ↔ Ordered manager.timers := by
  constructor
  · exact fun hpunctual => detached_iff.1 hpunctual.detached
  · intro hordered
    have hdetached := detached_iff.2 hordered
    refine ⟨hdetached, fun now inputs later final fired hinside h => ?_,
      fun hidle => armed_of_ordered hordered (hcurrent hidle)⟩
    rw [← hdetached]
    exact run_handle_read hinside h

/-- In every state that a run reaches the timerfd is set for the table. -/
theorem current_of_run {inputs : List (TimerStep Callback)}
    (h : Machine.run step created inputs = .ok (manager, fired)) : manager.Current :=
  (Machine.run_invariant Current (fun _ => True) (fun _ => True)
    (fun _ _ _ _ hcurrent _ hstep => ⟨hcurrent.step hstep, fun _ _ => trivial⟩) current_created
    (fun _ _ => trivial) h).1

/-- Every reachable table is punctual exactly when every entry fits into the table. -/
theorem punctual_iff (inputs : List (TimerStep Callback)) :
    Machine.Guarded step InOrder created inputs ↔
      ∀ past, past <+: inputs → ∀ (final : TimerManager Callback) fired,
        Machine.run step created past = .ok (final, fired) → final.Punctual := by
  have hstart : Ordered (created : TimerManager Callback).timers ∧
      (created : TimerManager Callback).Current :=
    ⟨fun a b ha => by simp [created] at ha, current_created⟩
  have hstep : ∀ (trace : List (Fired Callback)) (manager : TimerManager Callback) input,
      Ordered manager.timers ∧ manager.Current →
        (Machine.Fine (fun _ manager => Ordered manager.timers ∧ manager.Current) (fun _ => False)
          trace (step manager input) ↔ manager.InOrder input) := by
    rintro trace manager input ⟨hordered, hcurrent⟩
    cases hstep : step manager input with
    | error fault => exact iff_of_true nofun (in_order_of_suspended hstep)
    | ok result =>
        obtain ⟨next, fired⟩ := result
        rw [← ordered_step_iff hordered hstep]
        exact and_iff_left (hcurrent.step hstep)
  have hfine : Machine.Guarded step InOrder created inputs ↔ ∀ past, past <+: inputs →
      Machine.Fine (fun _ manager => Ordered manager.timers ∧ manager.Current) (fun _ => False)
        ([] : List (Fired Callback)) (Machine.run step created past) :=
    Machine.guarded_iff hstep hstart
  rw [hfine]
  refine forall₂_congr fun past hpast => ?_
  cases hrun : Machine.run step created past with
  | error fault => simp [Machine.Fine]
  | ok result =>
      obtain ⟨final, fired⟩ := result
      have hcurrent := current_of_run hrun
      simp [Machine.Fine, punctual_iff_ordered hcurrent, hcurrent]

/-- A timer with a delay of 100, and then one with a delay of 10. -/
def shorterDelay : List (TimerStep String) :=
  [.addTimer 0 100 (some "close") 0, .addTimer 0 10 (some "resend") 0]

/-- At 50 the second timer is due, and `handleRead` does not find it behind the first. -/
theorem punctual_fails_shorter_delay :
    ¬ ∀ (inputs : List (TimerStep String)) final fired,
      Machine.run step created inputs = .ok (final, fired) → final.Punctual := by
  intro h
  have hpunctual := h shorterDelay
    ((created.addTimer 0 100 (some "close") 0).addTimer 0 10 (some "resend") 0) [] rfl
  exact absurd (hpunctual.detached 50) (by decide)

end Order

end CarDetect.Reactor.TimerManager
