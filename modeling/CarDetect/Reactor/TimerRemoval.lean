import CarDetect.Reactor.TimerManager

/-!
# Removed timers

`removeTimer` only looks into the table, while the batch of `handleRead` is a copy and a periodic
timer enters the table again behind its callback. `removed_iff` says when a removed timer stays
removed, whatever follows: unless it is still to come in the batch, or is the periodic timer whose
callback calls `removeTimer`.
-/

namespace CarDetect.Reactor

open OrderedMap Std

section Definitions

variable {Callback : Type}

/-- The rest of `handleRead` still has to do with a timer: its callback is to come, or it enters the
table again. -/
def ReadStage.Outstanding (stage : ReadStage Callback) (timerId : TimerId) : Prop :=
  (∃ timer, (timerId, timer) ∈ stage.pending ∧ (timer.callback.isSome ∨ 0 < timer.interval)) ∨
    ∃ now timer rest, stage = .calling now timerId timer rest ∧ 0 < timer.interval

namespace TimerManager

/-- No new timer gets this id. -/
def Spares (timerId : TimerId) (manager : TimerManager Callback) (input : TimerStep Callback) :
    Prop :=
  input.entry.isSome → manager.nextId ≠ timerId

/-- The callback of a timer is not invoked, and outside `handleRead` it is not in the table. -/
structure Gone (timerId : TimerId) (fired : List (Fired Callback))
    (manager : TimerManager Callback) : Prop where
  silent : ∀ callback, ⟨timerId, callback⟩ ∉ fired
  absent : manager.stage = .idle → manager.timers[timerId]? = none

end TimerManager

end Definitions

namespace TimerManager

section Removal

variable {Callback : Type} {manager next removed : TimerManager Callback}
  {fired out : List (Fired Callback)} {input : TimerStep Callback} {timerId : TimerId}
  {later : UInt64}

/-! ## A timer that is nowhere stays nowhere -/

@[simp] theorem outstanding_idle : ¬ (.idle : ReadStage Callback).Outstanding timerId := by
  simp [ReadStage.Outstanding, ReadStage.pending]

theorem outstanding_between {now : UInt64} {expired : List (TimerId × Timer Callback)} :
    (ReadStage.between now expired).Outstanding timerId ↔
      ∃ timer, (timerId, timer) ∈ expired ∧ (timer.callback.isSome ∨ 0 < timer.interval) := by
  simp [ReadStage.Outstanding, ReadStage.pending]

theorem outstanding_calling {now : UInt64} {other : TimerId} {timer : Timer Callback}
    {expired : List (TimerId × Timer Callback)} :
    (ReadStage.calling now other timer expired).Outstanding timerId ↔
      (ReadStage.between now expired).Outstanding timerId ∨
        other = timerId ∧ 0 < timer.interval := by
  simp only [ReadStage.Outstanding, ReadStage.pending, ReadStage.calling.injEq, reduceCtorEq,
    false_and, exists_false, or_false]
  refine or_congr_right ⟨?_, ?_⟩
  · rintro ⟨_, _, _, ⟨rfl, rfl, rfl, rfl⟩, hinterval⟩
    exact ⟨rfl, hinterval⟩
  · rintro ⟨rfl, hinterval⟩
    exact ⟨now, timer, expired, ⟨rfl, rfl, rfl, rfl⟩, hinterval⟩

theorem outstanding_between_cons {now : UInt64} {other : TimerId} {timer : Timer Callback}
    {expired : List (TimerId × Timer Callback)} :
    (ReadStage.between now ((other, timer) :: expired)).Outstanding timerId ↔
      other = timerId ∧ (timer.callback.isSome ∨ 0 < timer.interval) ∨
        (ReadStage.between now expired).Outstanding timerId := by
  simp only [outstanding_between, List.mem_cons, Prod.mk.injEq]
  constructor
  · rintro ⟨timer, ⟨rfl, rfl⟩ | hrest, hacts⟩
    · exact .inl ⟨rfl, hacts⟩
    · exact .inr ⟨timer, hrest, hacts⟩
  · rintro (⟨rfl, hacts⟩ | ⟨timer, hrest, hacts⟩)
    · exact ⟨timer, .inl ⟨rfl, rfl⟩, hacts⟩
    · exact ⟨timer, .inr hrest, hacts⟩

/-- A timer that is not in the table and of which nothing is outstanding. -/
structure Nowhere (timerId : TimerId) (manager : TimerManager Callback) : Prop where
  table : manager.timers[timerId]? = none
  stage : ¬ manager.stage.Outstanding timerId

/-- An entry under another id. -/
theorem get_emplace_ne {other : TimerId} {expireTime : UInt64} {timer : Timer Callback}
    (hne : other ≠ timerId) (h : manager.timers[timerId]? = none) :
    (manager.emplace other expireTime timer).timers[timerId]? = none := by
  rw [Option.eq_none_iff_forall_ne_some]
  intro entry hentry
  rcases get_insertIfNew.1 hentry with hold | ⟨heq, -, -⟩
  · rw [h] at hold
    cases hold
  · exact hne heq

/-- After a removal the timer is not in the table. -/
theorem get_remove_timer : (manager.removeTimer timerId later).timers[timerId]? = none := by
  unfold removeTimer
  split
  · exact TreeMap.getElem?_erase_self
  · rename_i habsent
    exact TreeMap.getElem?_eq_none habsent

/-- A removal makes no entry. -/
theorem get_remove_timer_other {other : TimerId} (h : manager.timers[timerId]? = none) :
    (manager.removeTimer other later).timers[timerId]? = none := by
  unfold removeTimer
  split
  · simp only [resetTimerfd, TreeMap.getElem?_erase, h, ite_self]
  · exact h

/-- One step of a timer that is nowhere: its callback is not invoked, and it stays nowhere. -/
theorem Nowhere.step (h : manager.Nowhere timerId) (hspares : manager.Spares timerId input)
    (hstep : manager.step input = .ok (next, fired)) :
    (∀ callback, ⟨timerId, callback⟩ ∉ fired) ∧ next.Nowhere timerId := by
  obtain ⟨htable, hstage⟩ := h
  cases step_ok hstep with
  | add later hentry hcall =>
      refine ⟨by simp, get_emplace_ne (hspares (by rw [hentry]; rfl)) htable, ?_⟩
      rwa [add_entry_stage]
  | removeTimer other later hcall =>
      refine ⟨by simp, get_remove_timer_other htable, ?_⟩
      rwa [remove_timer_stage]
  | handleRead now hidle =>
      have hnone : ∀ entry, manager.timers[timerId]? ≠ some entry := by simp [htable]
      refine ⟨by simp, ?_, fun houtstanding => ?_⟩
      · rw [Option.eq_none_iff_forall_ne_some]
        exact fun entry hentry => hnone entry ((get_foldl_erase _ _).1 hentry).2
      · obtain ⟨timer, hmem, -⟩ := outstanding_between.1 houtstanding
        obtain ⟨⟨id, expireTime, timer⟩, hexpired, heq⟩ := List.mem_map.1 hmem
        cases heq
        have hlisted := (List.takeWhile_sublist _).subset hexpired
        exact hnone _ (TreeMap.mem_toList_iff_getElem?_eq_some.1 hlisted)
  | @next now other timer rest hbetween =>
      rw [hbetween, outstanding_between_cons] at hstage
      obtain ⟨hother, hrest⟩ := not_or.1 hstage
      refine ⟨fun callback hfired => ?_, htable, ?_⟩
      · obtain ⟨found, hfound, hcallback⟩ := Option.map_eq_some_iff.1 (Option.mem_toList.1 hfired)
        cases hcallback
        exact hother ⟨rfl, .inl (by rw [hfound]; rfl)⟩
      · rw [outstanding_calling]
        rintro (hlater | ⟨heq, hinterval⟩)
        · exact hrest hlater
        · exact hother ⟨heq, .inr hinterval⟩
  | @returns now other timer rest hcalling =>
      rw [hcalling, outstanding_calling] at hstage
      obtain ⟨hrest, hother⟩ := not_or.1 hstage
      refine ⟨by simp, ?_, hrest⟩
      simp only [reinsert]
      split
      · rename_i hinterval
        exact get_emplace_ne (fun heq => hother ⟨heq, hinterval⟩) htable
      · exact htable
  | finish later hbetween => exact ⟨by simp, htable, outstanding_idle⟩

/-- A whole run of a timer that is nowhere. -/
theorem Nowhere.run {inputs : List (TimerStep Callback)} (h : manager.Nowhere timerId)
    (hspares : Machine.Guarded TimerManager.step (Spares timerId) manager inputs)
    (hrun : Machine.run TimerManager.step manager inputs = .ok (next, fired)) :
    Gone timerId fired next := by
  have hinv : (∀ callback, ⟨timerId, callback⟩ ∉ [] ++ fired) ∧ next.Nowhere timerId :=
    Machine.run_guarded_history
      (fun fired manager => (∀ callback, ⟨timerId, callback⟩ ∉ fired) ∧ manager.Nowhere timerId)
      (fun trace manager input next out hinv hguard hstep => by
        obtain ⟨hsilent, hnowhere⟩ := hinv.2.step hguard hstep
        refine ⟨fun callback hmem => ?_, hnowhere⟩
        rcases List.mem_append.1 hmem with hold | hnew
        · exact hinv.1 callback hold
        · exact hsilent callback hnew)
      [] ⟨by simp, h⟩ hspares hrun
  exact ⟨hinv.1, fun _ => hinv.2.table⟩

/-! ## The rest of the batch -/

/-- The steps of `handleRead` through the rest of the batch, when the callbacks leave the timers
alone. -/
def restOfBatch (expired : List (TimerId × Timer Callback)) : List (TimerStep Callback) :=
  expired.flatMap fun _ => [.next, .returns]

/-- What enters the table again stays there. -/
theorem get_reinsert_of_some {now : UInt64} {other : TimerId} {timer : Timer Callback}
    (h : manager.timers[timerId]? ≠ none) :
    (manager.reinsert now other timer).timers[timerId]? ≠ none := by
  obtain ⟨entry, hentry⟩ := Option.ne_none_iff_exists'.1 h
  unfold reinsert
  split
  · exact Option.ne_none_iff_exists'.2 ⟨entry, get_insertIfNew.2 (.inl hentry)⟩
  · exact h

theorem get_reinsert_self {now : UInt64} {timer : Timer Callback} (h : 0 < timer.interval) :
    (manager.reinsert now timerId timer).timers[timerId]? ≠ none := by
  rw [reinsert, if_pos h]
  cases hget : manager.timers[timerId]? with
  | none => exact Option.ne_none_iff_exists'.2 ⟨_, get_insertIfNew.2 (.inr ⟨rfl, hget, rfl⟩)⟩
  | some entry => exact Option.ne_none_iff_exists'.2 ⟨_, get_insertIfNew.2 (.inl hget)⟩

/-- The rest of the batch runs, invokes the callbacks that are to come, and enters the periodic
timers again. -/
theorem run_rest_of_batch (manager : TimerManager Callback) {now : UInt64}
    {expired : List (TimerId × Timer Callback)} (hstage : manager.stage = .between now expired) :
    ∃ final, Machine.run step manager (restOfBatch expired) =
        .ok (final, expired.filterMap firedBy) ∧ final.stage = .between now [] ∧
      ∀ timerId, (manager.timers[timerId]? ≠ none ∨
        ∃ timer, (timerId, timer) ∈ expired ∧ 0 < timer.interval) →
          final.timers[timerId]? ≠ none := by
  induction expired generalizing manager with
  | nil => exact ⟨manager, rfl, hstage, by simp⟩
  | cons entry rest ih =>
      obtain ⟨other, timer⟩ := entry
      obtain ⟨final, hrun, hfinal, hkept⟩ := ih
        { manager.reinsert now other timer with stage := .between now rest } rfl
      refine ⟨final, ?_, hfinal, fun timerId h => hkept timerId ?_⟩
      · have hnext : manager.step .next =
            .ok ({ manager with stage := .calling now other timer rest },
              (firedBy (other, timer)).toList) := by
          simp only [step, hstage]
        have hreturns : step { manager with stage := .calling now other timer rest } .returns =
            .ok ({ manager.reinsert now other timer with stage := .between now rest }, []) := by
          simp only [step, reinsert]
          split <;> rfl
        have htwo := Machine.run_cons_ok hnext (Machine.run_cons_ok hreturns hrun)
        rw [restOfBatch, List.flatMap_cons]
        refine htwo.trans ?_
        cases hfired : firedBy (other, timer) <;> simp [hfired]
      · rcases h with hold | ⟨found, hfound, hinterval⟩
        · exact .inl (get_reinsert_of_some hold)
        · rcases List.mem_cons.1 hfound with heq | hrest
          · cases heq
            exact .inl (get_reinsert_self hinterval)
          · exact .inr ⟨found, hrest, hinterval⟩

/-- Something outstanding shows up when the callbacks leave the timers alone. -/
theorem not_gone_of_outstanding (manager : TimerManager Callback)
    (h : manager.stage.Outstanding timerId)
    (hcall : manager.stage.mayCall = true) :
    ∃ rest final fired, Machine.Guarded step (Spares timerId) manager rest ∧
      Machine.run step manager rest = .ok (final, fired) ∧ ¬ Gone timerId fired final := by
  cases hstage : manager.stage with
  | idle =>
      rw [hstage] at h
      exact absurd h outstanding_idle
  | between now expired =>
      rw [hstage] at hcall
      cases hcall
  | calling now other timer expired =>
      rw [hstage, outstanding_calling] at h
      have hreturns : manager.step .returns =
          .ok ({ manager.reinsert now other timer with stage := .between now expired }, []) := by
        simp only [step, hstage]
      obtain ⟨last, hrun, hlast, hkept⟩ := run_rest_of_batch
        { manager.reinsert now other timer with stage := .between now expired } rfl
      have hfinish : last.step (.finish 0) =
          .ok ({ last.resetTimerfd 0 with stage := .idle }, []) := by
        simp only [step, hlast]
      have hwhole := Machine.run_cons_ok hreturns
        (Machine.run_append_ok hrun (Machine.run_cons_ok hfinish Machine.run_nil))
      refine ⟨_, _, _, ?_, hwhole, fun hgone => ?_⟩
      · refine Machine.guarded_of_forall fun state input hinput hentry => ?_
        have hnone : input.entry = none := by
          simp only [restOfBatch, List.mem_cons, List.mem_append, List.mem_flatMap,
            List.not_mem_nil, or_false] at hinput
          rcases hinput with rfl | ⟨_, -, rfl | rfl⟩ | rfl <;> rfl
        rw [hnone] at hentry
        cases hentry
      · rcases h with hrest | ⟨rfl, hinterval⟩
        · obtain ⟨found, hfound, hcallback | hinterval⟩ := outstanding_between.1 hrest
          · obtain ⟨callback, hcallback⟩ := Option.isSome_iff_exists.1 hcallback
            refine hgone.silent callback ?_
            have hfired : firedBy (timerId, found) = some ⟨timerId, callback⟩ := by
              rw [firedBy, hcallback]
              rfl
            simpa using ⟨_, _, hfound, hfired⟩
          · exact hkept timerId (.inr ⟨found, hfound, hinterval⟩) (hgone.absent rfl)
        · exact hkept other (.inl (get_reinsert_self hinterval)) (hgone.absent rfl)

/-! ## When a removed timer stays removed -/

/-- After `removeTimer` the timer is gone in every run in which its id is not given to a new timer,
exactly when nothing of it was outstanding. -/
theorem removed_iff (hremove : manager.step (.removeTimer timerId later) = .ok (removed, out)) :
    (∀ rest final fired, Machine.Guarded step (Spares timerId) removed rest →
      Machine.run step removed rest = .ok (final, fired) → Gone timerId fired final) ↔
      ¬ manager.stage.Outstanding timerId := by
  cases step_ok hremove with
  | add later hentry hcall => cases hentry
  | removeTimer _ later hcall =>
      constructor
      · intro hgone houtstanding
        obtain ⟨rest, final, fired, hspares, hrun, hnot⟩ := not_gone_of_outstanding
          (manager.removeTimer timerId later) (by rwa [remove_timer_stage])
          (by rwa [remove_timer_stage])
        exact hnot (hgone rest final fired hspares hrun)
      · intro hfree rest final fired hspares hrun
        have hnowhere : (manager.removeTimer timerId later).Nowhere timerId :=
          ⟨get_remove_timer, by rwa [remove_timer_stage]⟩
        exact hnowhere.run hspares hrun

/-- A periodic timer with a delay and an interval of 10. -/
def periodic : TimerManager String :=
  created.addPeriodicTimer 0 10 10 (some "poll") 0

/-- It is removed between two calls of `handleRead`. -/
theorem removed_iff_periodic :
    (∀ rest final fired, Machine.Guarded step (Spares 1) (periodic.removeTimer 1 5) rest →
      Machine.run step (periodic.removeTimer 1 5) rest = .ok (final, fired) → Gone 1 fired final) ↔
      ¬ periodic.stage.Outstanding 1 := by
  have hremove : periodic.step (.removeTimer 1 5) = .ok (periodic.removeTimer 1 5, []) := rfl
  exact removed_iff hremove

/-- The timer is removed by its own callback: it enters the table again behind the callback, and the
next `handleRead` invokes its callback again. -/
theorem removed_fails_itself :
    ¬ ∀ (past rest : List (TimerStep String)) (timerId : TimerId) (later : UInt64)
      (removed final : TimerManager String) (before fired : List (Fired String)),
      Machine.run step created (past ++ [.removeTimer timerId later]) = .ok (removed, before) →
        Machine.run step removed rest = .ok (final, fired) → Gone timerId fired final := by
  intro h
  have hgone := h [.addPeriodicTimer 0 10 10 (some "poll") 0, .handleRead 10, .next]
    [.returns, .finish 10, .handleRead 20, .next] 1 10 _ _ _ [⟨1, "poll"⟩] rfl rfl
  exact hgone.silent "poll" List.mem_cons_self

end Removal

end TimerManager

end CarDetect.Reactor
