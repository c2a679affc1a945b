import Mathlib.Data.List.Nodup
import Mathlib.Data.List.Perm.Subperm
import CarDetect.Reactor.TimerManager

/-!
# Every timer is in one place

When every call of `addTimer` and `addPeriodicTimer` brings a callback of its own, here a number,
the callbacks of the table and of the batch are different. `owners_step` is what a step keeps of
this: it puts no callback into a second place.
-/

namespace CarDetect.Reactor

open OrderedMap Std

section Places

variable {manager next : TimerManager Nat} {input : TimerStep Nat} {fired : List (Fired Nat)}

/-- The callback of the timer that a step adds. -/
def TimerStep.owner (input : TimerStep Nat) : Option Nat :=
  input.entry.bind fun entry => entry.2.callback

/-- The timers of the batch whose callbacks have not returned. -/
def ReadStage.held : ReadStage Nat → List (TimerId × Timer Nat)
  | .idle => []
  | .between _ expired => expired
  | .calling _ timerId timer expired => (timerId, timer) :: expired

namespace TimerManager

/-- The timers of the table. -/
def waiting (manager : TimerManager Nat) : List (TimerId × Timer Nat) :=
  manager.timers.toList.map fun entry => (entry.1, entry.2.2)

/-- The calls that the timers of the table and of the batch come from. -/
def owners (manager : TimerManager Nat) : List Nat :=
  (manager.waiting ++ manager.stage.held).filterMap fun entry => entry.2.callback

theorem mem_owners_table {number : Nat} {entry : TimerId × UInt64 × Timer Nat}
    (h : entry ∈ manager.timers.toList) (hcallback : entry.2.2.callback = some number) :
    number ∈ manager.owners :=
  List.mem_filterMap.2 ⟨_, List.mem_append_left _ (List.mem_map_of_mem h), hcallback⟩

theorem mem_owners_held {number : Nat} {entry : TimerId × Timer Nat}
    (h : entry ∈ manager.stage.held) (hcallback : entry.2.callback = some number) :
    number ∈ manager.owners :=
  List.mem_filterMap.2 ⟨_, List.mem_append_right _ h, hcallback⟩

/-- Where a subpermutation of the timers comes from, one of the owners does. -/
theorem owners_subperm (manager : TimerManager Nat) {entries : List (TimerId × Timer Nat)}
    (h : (manager.waiting ++ manager.stage.held).Subperm entries) :
    manager.owners.Subperm (entries.filterMap fun entry => entry.2.callback) := by
  obtain ⟨same, hperm, hsub⟩ := h
  exact ⟨_, hperm.filterMap _, hsub.filterMap _⟩

theorem waiting_subperm {entries : List (TimerId × UInt64 × Timer Nat)}
    (h : ∀ entry ∈ next.timers.toList, entry ∈ entries) :
    next.waiting.Subperm (entries.map fun entry => (entry.1, entry.2.2)) := by
  obtain ⟨same, hperm, hsub⟩ := (nodup_toList next.timers).subperm h
  exact ⟨_, hperm.map _, hsub.map _⟩

theorem mem_emplace {timerId : TimerId} {expireTime : UInt64} {timer : Timer Nat}
    {entry : TimerId × UInt64 × Timer Nat}
    (h : entry ∈ (manager.emplace timerId expireTime timer).timers.toList) :
    entry = (timerId, expireTime, timer) ∨ entry ∈ manager.timers.toList := by
  rw [TreeMap.mem_toList_iff_getElem?_eq_some] at h
  rcases get_insertIfNew.1 h with hold | ⟨hid, -, hvalue⟩
  · exact .inr (TreeMap.mem_toList_iff_getElem?_eq_some.2 hold)
  · exact .inl (Prod.ext hid.symm hvalue.symm)

theorem mem_remove_timer {timerId : TimerId} {later : UInt64}
    {entry : TimerId × UInt64 × Timer Nat}
    (h : entry ∈ (manager.removeTimer timerId later).timers.toList) :
    entry ∈ manager.timers.toList := by
  unfold removeTimer at h
  split at h
  · rw [TreeMap.mem_toList_iff_getElem?_eq_some] at h ⊢
    simp only [resetTimerfd, TreeMap.getElem?_erase] at h
    exact (Option.ite_none_left_eq_some.1 h).2
  · exact h

theorem mem_detach {now : UInt64} {entry : TimerId × UInt64 × Timer Nat}
    (h : entry ∈ (manager.detach now).timers.toList) :
    entry.1 ∉ (manager.expired now).map Prod.fst ∧ entry ∈ manager.timers.toList := by
  rw [TreeMap.mem_toList_iff_getElem?_eq_some] at h ⊢
  exact (get_foldl_erase _ _).1 h

/-- An entry adds at most its own timer. -/
theorem waiting_emplace (timerId : TimerId) (expireTime : UInt64) (timer : Timer Nat) :
    (manager.emplace timerId expireTime timer).waiting.Subperm
      ((timerId, timer) :: manager.waiting) := by
  have hmem : ∀ entry ∈ (manager.emplace timerId expireTime timer).timers.toList,
      entry ∈ (timerId, expireTime, timer) :: manager.timers.toList :=
    fun entry hentry => List.mem_cons.2 (mem_emplace hentry)
  exact waiting_subperm hmem

theorem waiting_remove_timer (timerId : TimerId) (later : UInt64) :
    (manager.removeTimer timerId later).waiting.Subperm manager.waiting :=
  waiting_subperm fun _ hentry => mem_remove_timer hentry

/-- The batch and what it leaves in the table were in the table. -/
theorem waiting_detach (now : UInt64) :
    ((manager.detach now).waiting ++ (manager.detach now).stage.held).Subperm manager.waiting := by
  have hexpired : (manager.expired now).Sublist manager.timers.toList := List.takeWhile_sublist _
  have hnodup : ((manager.detach now).timers.toList ++ manager.expired now).Nodup := by
    refine List.Nodup.append (nodup_toList _) (hexpired.nodup (nodup_toList _)) ?_
    intro entry hentry hbatch
    exact (mem_detach hentry).1 (List.mem_map_of_mem hbatch)
  have hall : ∀ entry ∈ (manager.detach now).timers.toList ++ manager.expired now,
      entry ∈ manager.timers.toList := by
    intro entry hentry
    rcases List.mem_append.1 hentry with hentry | hentry
    · exact (mem_detach hentry).2
    · exact hexpired.subset hentry
  obtain ⟨same, hperm, hsub⟩ := hnodup.subperm hall
  have hmap := hperm.map fun entry : TimerId × UInt64 × Timer Nat => (entry.1, entry.2.2)
  rw [List.map_append] at hmap
  exact ⟨_, hmap, hsub.map _⟩

/-- A callback that begins stays where it is. -/
theorem owners_calling {now : UInt64} {timerId : TimerId} {timer : Timer Nat}
    {rest : List (TimerId × Timer Nat)}
    (hstage : manager.stage = .between now ((timerId, timer) :: rest)) :
    owners { manager with stage := .calling now timerId timer rest } = manager.owners := by
  rw [owners, owners, hstage]
  rfl

/-- No step puts a callback into a second place. -/
theorem owners_step (hstep : manager.step input = .ok (next, fired)) :
    next.owners.Subperm (input.owner.toList ++ manager.owners) := by
  cases step_ok hstep with
  | @add _ expireTime timer later hentry hcall =>
      have hwaiting : (manager.addEntry expireTime timer later).waiting.Subperm
          ((manager.nextId, timer) :: manager.waiting) := waiting_emplace _ expireTime timer
      have hall := owners_subperm (manager.addEntry expireTime timer later)
        (hwaiting.append (List.Subperm.refl manager.stage.held))
      rw [TimerStep.owner, hentry]
      cases hcallback : timer.callback <;> simpa [owners, hcallback] using hall
  | removeTimer timerId later hcall =>
      have hall := owners_subperm (manager.removeTimer timerId later)
        ((waiting_remove_timer timerId later).append (List.Subperm.refl _))
      rwa [remove_timer_stage] at hall
  | handleRead now hstage =>
      have hall := owners_subperm (manager.detach now) (waiting_detach now)
      show (manager.detach now).owners.Subperm manager.owners
      simpa [owners, hstage, ReadStage.held] using hall
  | @next now timerId timer rest hstage =>
      show (owners { manager with stage := .calling now timerId timer rest }).Subperm manager.owners
      rw [owners_calling hstage]
  | @returns now timerId timer rest hstage =>
      show (owners { manager.reinsert now timerId timer with stage := .between now rest }).Subperm
        manager.owners
      refine owners_subperm _ ?_
      show ((manager.reinsert now timerId timer).waiting ++ rest).Subperm
        (manager.waiting ++ manager.stage.held)
      rw [hstage]
      have hwaiting : (manager.reinsert now timerId timer).waiting.Subperm
          ((timerId, timer) :: manager.waiting) := by
        unfold reinsert
        split
        · exact waiting_emplace timerId _ timer
        · exact (List.sublist_cons_self _ _).subperm
      exact (hwaiting.append (List.Subperm.refl rest)).trans List.perm_middle.symm.subperm
  | @finish now later hstage =>
      show (owners { manager.resetTimerfd later with stage := .idle }).Subperm manager.owners
      rw [owners, owners, hstage]
      exact List.Subperm.refl _

/-- A callback that a step does not bring was there before. -/
theorem mem_owners_step {number : Nat} (hstep : manager.step input = .ok (next, fired))
    (h : number ∈ next.owners) : input.owner = some number ∨ number ∈ manager.owners := by
  rcases List.mem_append.1 ((owners_step hstep).subset h) with hnew | hold
  · exact .inl (Option.mem_toList.1 hnew)
  · exact .inr hold

/-- The callbacks stay different when a new one is. -/
theorem nodup_owners_step (hstep : manager.step input = .ok (next, fired))
    (h : manager.owners.Nodup)
    (hfresh : ∀ number, input.owner = some number → number ∉ manager.owners) :
    next.owners.Nodup := by
  have hall : (input.owner.toList ++ manager.owners).Nodup := by
    cases howner : input.owner with
    | none => exact h
    | some number => exact List.nodup_cons.2 ⟨hfresh number howner, h⟩
  obtain ⟨same, hperm, hsub⟩ := owners_step hstep
  exact hperm.nodup_iff.1 (hsub.nodup hall)

end TimerManager

end Places

end CarDetect.Reactor
