import Mathlib.Algebra.Order.Group.Multiset
import Mathlib.Data.Multiset.Filter
import Mathlib.Tactic.Abel

/-!
# Processes that wait on a condition variable

A list of processes, some of which are asleep on a condition variable. `notifyOne` wakes one of them
when there is one, of the system's choice, and `notifyAll` wakes all. Waking up without a
notification is not modelled here. `filterMap_set` follows what the processes hold when one of them
moves. `Covered` is the invariant that rules out a missed signal: while a process sleeps, there are
as many processes awake as there are things to wait for.
-/

namespace CondVar

universe u v

variable {α : Type u} {β : Type v} {isWaiting : α → Bool} {wake : α → α} {processes after : List α}

/-- `notify_one`, for the choice `woken`: nothing when this choice is not possible. -/
def notifyOne (isWaiting : α → Bool) (wake : α → α) (processes : List α) :
    Option Nat → Option (List α)
  | none => if processes.any isWaiting then none else some processes
  | some index =>
      match processes[index]? with
      | none => none
      | some process =>
          if isWaiting process then some (processes.set index (wake process)) else none

/-- `notify_all` -/
def notifyAll (isWaiting : α → Bool) (wake : α → α) (processes : List α) : List α :=
  processes.map fun process => if isWaiting process then wake process else process

/-- What `notify_one` does: nothing when nobody waits, or one process that waits wakes up. -/
theorem notify_one_cases {woken : Option Nat}
    (h : notifyOne isWaiting wake processes woken = some after) :
    (processes.any isWaiting = false ∧ after = processes) ∨
      ∃ index process, processes[index]? = some process ∧
        isWaiting process = true ∧ after = processes.set index (wake process) := by
  cases woken with
  | none =>
      rw [notifyOne] at h
      split at h
      · cases h
      · rename_i hnobody
        cases h
        exact .inl ⟨by simpa using hnobody, rfl⟩
  | some index =>
      rw [notifyOne] at h
      cases hprocess : processes[index]? with
      | none =>
          rw [hprocess] at h
          cases h
      | some process =>
          rw [hprocess] at h
          simp only at h
          split at h
          · rename_i hwaiting
            cases h
            exact .inr ⟨index, process, hprocess, hwaiting, rfl⟩
          · cases h

/-- What `notify_one` does: nothing, or one process that waits wakes up. -/
theorem notify_one_some {woken : Option Nat}
    (h : notifyOne isWaiting wake processes woken = some after) :
    after = processes ∨ ∃ index process, processes[index]? = some process ∧
      isWaiting process = true ∧ after = processes.set index (wake process) :=
  (notify_one_cases h).imp And.right id

/-- After `notify_all` nobody waits. -/
theorem not_waiting_of_mem_notify_all {process : α}
    (hwake : ∀ process, isWaiting (wake process) = false)
    (h : process ∈ notifyAll isWaiting wake processes) : isWaiting process = false := by
  obtain ⟨before, -, rfl⟩ := List.mem_map.1 h
  split
  · exact hwake before
  · rename_i hwaiting
    simpa using hwaiting

/-- What the processes hold changes by what the one that moves holds. -/
theorem filterMap_set {holds : α → Option β} {index : Nat} {process : α}
    (h : processes[index]? = some process) (moved : α) :
    ((processes.set index moved).filterMap holds : Multiset β) + (holds process).toList =
      (processes.filterMap holds : Multiset β) + (holds moved).toList := by
  obtain ⟨hlt, hget⟩ := List.getElem?_eq_some_iff.1 h
  have hbefore : processes = processes.take index ++ process :: processes.drop (index + 1) := by
    rw [← hget, List.cons_getElem_drop_succ, List.take_append_drop]
  have hhead : ∀ (first : α) (rest : List α),
      (first :: rest).filterMap holds = (holds first).toList ++ rest.filterMap holds := by
    intro first rest
    rw [List.filterMap_cons]
    cases holds first <;> rfl
  rw [List.set_eq_take_cons_drop moved hlt]
  conv_rhs => rw [hbefore]
  simp only [List.filterMap_append, hhead, ← Multiset.coe_add]
  abel

/-! ## No missed signal -/

/-- While a process sleeps, at least `n` are awake and on their way to test. -/
def Covered (isWaiting isAwake : α → Bool) (n : Nat) (processes : List α) : Prop :=
  processes.any isWaiting = true → n ≤ processes.countP isAwake

/-- The number of processes of a kind changes by the one that moves. -/
theorem countP_set_add {p : α → Bool} {index : Nat} {process : α}
    (h : processes[index]? = some process) (moved : α) :
    (processes.set index moved).countP p + (p process).toNat =
      processes.countP p + (p moved).toNat := by
  obtain ⟨hlt, rfl⟩ := List.getElem?_eq_some_iff.1 h
  have hpos : p processes[index] = true → 0 < processes.countP p := fun hp =>
    List.countP_pos_iff.2 ⟨_, List.getElem_mem hlt, hp⟩
  rw [List.countP_set hlt]
  cases hold : p processes[index] <;> cases p moved <;>
    simp only [hold, Bool.toNat_true, Bool.toNat_false, if_true, Bool.false_eq_true, if_false,
      true_implies] at hpos ⊢ <;> omega

/-- A process that waits after another one has moved waited before, unless it is the one. -/
theorem any_set {p : α → Bool} {index : Nat} {process moved : α}
    (h : processes[index]? = some process) (hmoved : p moved = true → p process = true)
    (hany : (processes.set index moved).any p = true) : processes.any p = true := by
  obtain ⟨other, hmem, hother⟩ := List.any_eq_true.1 hany
  rcases List.mem_or_eq_of_mem_set hmem with hmem | rfl
  · exact List.any_eq_true.2 ⟨other, hmem, hother⟩
  · exact List.any_eq_true.2 ⟨process, List.mem_of_getElem? h, hmoved hother⟩

section Covered

variable {isAwake : α → Bool} {n m : Nat}

/-- A process that does not go to sleep moves. -/
theorem Covered.move {index : Nat} {process moved : α} (h : Covered isWaiting isAwake n processes)
    (hprocess : processes[index]? = some process)
    (hmoved : isWaiting moved = true → isWaiting process = true)
    (hle : m + (isAwake process).toNat ≤ n + (isAwake moved).toNat) :
    Covered isWaiting isAwake m (processes.set index moved) := by
  intro hany
  have hn := h (any_set hprocess hmoved hany)
  have hcount : _ + (isAwake process).toNat = _ := countP_set_add hprocess moved
  omega

/-- There is nothing to wait for. -/
theorem covered_zero : Covered isWaiting isAwake 0 processes := fun _ => Nat.zero_le _

/-- One more thing to wait for, and a notification. -/
theorem Covered.notify {woken : Option Nat} (h : Covered isWaiting isAwake n processes)
    (hasleep : ∀ process, isWaiting process = true → isAwake process = false)
    (hwake : ∀ process, isWaiting process = true → isAwake (wake process) = true)
    (hnotify : notifyOne isWaiting wake processes woken = some after) :
    Covered isWaiting isAwake (n + 1) after := by
  rcases notify_one_cases hnotify with ⟨hnobody, rfl⟩ | ⟨index, process, hprocess, hwaits, rfl⟩
  · intro hany
    rw [hnobody] at hany
    cases hany
  · refine h.move hprocess (fun _ => hwaits) ?_
    rw [hasleep process hwaits, hwake process hwaits]
    exact Nat.le_refl _

/-- A notification on another condition variable. -/
theorem Covered.frame {isOther : α → Bool} {woken : Option Nat}
    (h : Covered isWaiting isAwake n processes)
    (hwake : ∀ process, isOther process = true →
      isWaiting (wake process) = false ∧ isAwake process = false)
    (hnotify : notifyOne isOther wake processes woken = some after) :
    Covered isWaiting isAwake n after := by
  rcases notify_one_some hnotify with rfl | ⟨index, process, hprocess, hother, rfl⟩
  · exact h
  · obtain ⟨hawake, hasleep⟩ := hwake process hother
    refine h.move hprocess (fun hwaits => ?_) ?_
    · rw [hawake] at hwaits
      cases hwaits
    · rw [hasleep]
      exact Nat.le_add_right _ _

end Covered

end CondVar
