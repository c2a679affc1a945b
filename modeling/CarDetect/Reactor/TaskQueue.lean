import CarDetect.Lib.CondVar
import CarDetect.Lib.Machine

/-!
# The task queue

`TaskQueue` before `wakeUp`, with any number of threads that call `push` and `pop` as they like.
What a thread does under the mutex, up to its release at the end of the function or in `wait`, is
one step. A thread that has been notified, or wakes up without a notification, is again on its way
to the mutex and tests its condition there.

`bounded_fifo` says that tasks are popped in the order in which they were pushed, that the queue
never holds more than `_queueSize` of them, and that no thread sleeps for want of a signal.
-/

namespace CarDetect.Reactor

open CondVar

/-- Where a thread is: outside of the queue's functions, in `push` or `pop` on its way to the mutex,
or asleep on `_notFull` or `_notEmpty`. -/
inductive QueueThread (Task : Type) where
  | outside
  | pushing (task : Task)
  | popping
  | awaitingRoom (task : Task)
  | awaitingTask
deriving DecidableEq, Repr

/-- The members of `TaskQueue`, and the threads that use it. -/
structure TaskQueue (Task : Type) where
  queueSize : Nat
  queue : List Task
  threads : List (QueueThread Task)
deriving DecidableEq, Repr

/-- A task enters the queue, or is returned by `pop`. -/
inductive QueueEvent (Task : Type) where
  | pushed (task : Task)
  | popped (task : Task)
deriving DecidableEq, Repr

/-- A thread calls `push` or `pop`, takes the mutex, or wakes up without a notification. `woken` is
the thread that `notify_one` wakes up in the step, if any. -/
inductive QueueTurn (Task : Type) where
  | callPush (index : Nat) (task : Task)
  | callPop (index : Nat)
  | lock (index : Nat) (woken : Option Nat)
  | wake (index : Nat)
deriving DecidableEq, Repr

section Definitions

variable {Task : Type}

namespace QueueThread

/-- Asleep on `_notFull`. -/
def awaitsRoom : QueueThread Task → Bool
  | .awaitingRoom _ => true
  | _ => false

/-- Asleep on `_notEmpty`. -/
def awaitsTask : QueueThread Task → Bool
  | .awaitingTask => true
  | _ => false

/-- On the way to test `isFull`. -/
def isPushing : QueueThread Task → Bool
  | .pushing _ => true
  | _ => false

/-- On the way to test `isEmpty`. -/
def isPopping : QueueThread Task → Bool
  | .popping => true
  | _ => false

/-- A thread that sleeps wakes up. -/
def awakened : QueueThread Task → QueueThread Task
  | .awaitingRoom task => .pushing task
  | .awaitingTask => .popping
  | thread => thread

end QueueThread

/-- The task of an event, when it entered the queue. -/
def QueueEvent.pushedTask : QueueEvent Task → Option Task
  | .pushed task => some task
  | .popped _ => none

/-- The task of an event, when `pop` returned it. -/
def QueueEvent.poppedTask : QueueEvent Task → Option Task
  | .pushed _ => none
  | .popped task => some task

namespace TaskQueue

/-- A new queue, and threads that have not used it yet. -/
def created (queueSize threadNum : Nat) : TaskQueue Task where
  queueSize := queueSize
  queue := []
  threads := List.replicate threadNum .outside

/-- `isFull` -/
def isFull (state : TaskQueue Task) : Bool := state.queue.length = state.queueSize

/-- A thread moves. -/
def move (state : TaskQueue Task) (index : Nat) (thread : QueueThread Task) : TaskQueue Task :=
  { state with threads := state.threads.set index thread }

/-- `push` under the mutex. -/
def push (state : TaskQueue Task) (index : Nat) (task : Task) (woken : Option Nat) :
    Except Machine.Suspended (TaskQueue Task × List (QueueEvent Task)) :=
  if state.isFull then .ok (state.move index (.awaitingRoom task), [])
  else
    let next := { state with queue := state.queue ++ [task] }
    match notifyOne QueueThread.awaitsTask QueueThread.awakened (next.move index .outside).threads
        woken with
    | none => .error .suspended
    | some threads => .ok ({ next with threads := threads }, [.pushed task])

/-- `pop` under the mutex. -/
def pop (state : TaskQueue Task) (index : Nat) (woken : Option Nat) :
    Except Machine.Suspended (TaskQueue Task × List (QueueEvent Task)) :=
  match state.queue with
  | [] => .ok (state.move index .awaitingTask, [])
  | task :: rest =>
      let next := { state with queue := rest }
      match notifyOne QueueThread.awaitsRoom QueueThread.awakened (next.move index .outside).threads
          woken with
      | none => .error .suspended
      | some threads => .ok ({ next with threads := threads }, [.popped task])

/-- One step. -/
def step (state : TaskQueue Task) :
    QueueTurn Task → Except Machine.Suspended (TaskQueue Task × List (QueueEvent Task))
  | .callPush index task =>
      match state.threads[index]? with
      | some .outside => .ok (state.move index (.pushing task), [])
      | _ => .error .suspended
  | .callPop index =>
      match state.threads[index]? with
      | some .outside => .ok (state.move index .popping, [])
      | _ => .error .suspended
  | .lock index woken =>
      match state.threads[index]? with
      | some (.pushing task) => state.push index task woken
      | some .popping => state.pop index woken
      | _ => .error .suspended
  | .wake index =>
      match state.threads[index]? with
      | some (.awaitingRoom task) => .ok (state.move index (.pushing task), [])
      | some .awaitingTask => .ok (state.move index .popping, [])
      | _ => .error .suspended

/-- The queue holds what has been pushed and not popped, no more than `_queueSize` tasks, and while
a thread sleeps there are as many threads on their way to test as there are tasks, or as there is
room. -/
structure Bounded (queueSize : Nat) (history : List (QueueEvent Task)) (state : TaskQueue Task) :
    Prop where
  fixed : state.queueSize = queueSize
  fifo : history.filterMap QueueEvent.pushedTask =
    history.filterMap QueueEvent.poppedTask ++ state.queue
  size : state.queue.length ≤ state.queueSize
  tasks : Covered QueueThread.awaitsTask QueueThread.isPopping state.queue.length state.threads
  room : Covered QueueThread.awaitsRoom QueueThread.isPushing
    (state.queueSize - state.queue.length) state.threads

end TaskQueue

end Definitions

namespace TaskQueue

section Steps

variable {Task : Type} {history : List (QueueEvent Task)} {state next : TaskQueue Task}
  {events : List (QueueEvent Task)} {queueSize index : Nat} {woken : Option Nat}

/-- A thread moves without a task, and does not go to sleep. -/
theorem Bounded.move {thread moved : QueueThread Task} (h : Bounded queueSize history state)
    (hthread : state.threads[index]? = some thread)
    (htasks : moved.awaitsTask = false) (hroom : moved.awaitsRoom = false)
    (hpopping : thread.isPopping = false) (hpushing : thread.isPushing = false) :
    Bounded queueSize history (state.move index moved) := by
  refine ⟨h.fixed, h.fifo, h.size, h.tasks.move hthread ?_ ?_, h.room.move hthread ?_ ?_⟩
  · simp [htasks]
  · rw [hpopping]
    exact Nat.le_add_right _ _
  · simp [hroom]
  · rw [hpushing]
    exact Nat.le_add_right _ _

/-- `push` -/
theorem Bounded.push {task : Task} (h : Bounded queueSize history state)
    (hthread : state.threads[index]? = some (.pushing task))
    (hstep : state.push index task woken = .ok (next, events)) :
    Bounded queueSize (history ++ events) next := by
  unfold TaskQueue.push at hstep
  split at hstep
  · rename_i hfull
    have hsize : state.queue.length = state.queueSize := of_decide_eq_true hfull
    cases hstep
    rw [List.append_nil]
    refine ⟨h.fixed, h.fifo, h.size, h.tasks.move hthread nofun (Nat.le_refl _), ?_⟩
    show Covered _ _ (state.queueSize - state.queue.length) _
    rw [hsize, Nat.sub_self]
    exact covered_zero
  · rename_i hfull
    have hsize : state.queue.length ≠ state.queueSize := fun heq => hfull (decide_eq_true heq)
    have hle := h.size
    simp only at hstep
    split at hstep
    · cases hstep
    · rename_i threads hnotify
      cases hstep
      have htasks : Covered QueueThread.awaitsTask QueueThread.isPopping state.queue.length
          (state.threads.set index .outside) :=
        h.tasks.move hthread nofun (Nat.le_refl _)
      have hroom : Covered QueueThread.awaitsRoom QueueThread.isPushing
          (state.queueSize - (state.queue.length + 1)) (state.threads.set index .outside) :=
        h.room.move hthread nofun
          (show state.queueSize - (state.queue.length + 1) + 1 ≤
            state.queueSize - state.queue.length + 0 by omega)
      refine ⟨h.fixed, ?_, ?_, ?_, ?_⟩
      · rw [List.filterMap_append, List.filterMap_append, h.fifo, List.append_assoc]
        simp [QueueEvent.pushedTask, QueueEvent.poppedTask]
      · show (state.queue ++ [task]).length ≤ state.queueSize
        rw [List.length_append, List.length_singleton]
        omega
      · show Covered _ _ (state.queue ++ [task]).length _
        rw [List.length_append, List.length_singleton]
        refine htasks.notify ?_ ?_ hnotify
        · rintro (_ | _ | _ | _ | _) <;> simp [QueueThread.awaitsTask, QueueThread.isPopping]
        · rintro (_ | _ | _ | _ | _) <;>
            simp [QueueThread.awaitsTask, QueueThread.isPopping, QueueThread.awakened]
      · show Covered _ _ (state.queueSize - (state.queue ++ [task]).length) _
        rw [List.length_append, List.length_singleton]
        refine hroom.frame ?_ hnotify
        rintro (_ | _ | _ | _ | _) <;>
          simp [QueueThread.awaitsTask, QueueThread.awaitsRoom, QueueThread.isPushing,
            QueueThread.awakened]

/-- `pop` -/
theorem Bounded.pop (h : Bounded queueSize history state)
    (hthread : state.threads[index]? = some .popping)
    (hstep : state.pop index woken = .ok (next, events)) :
    Bounded queueSize (history ++ events) next := by
  unfold TaskQueue.pop at hstep
  split at hstep
  · rename_i hempty
    cases hstep
    rw [List.append_nil]
    refine ⟨h.fixed, h.fifo, h.size, ?_, h.room.move hthread nofun (Nat.le_refl _)⟩
    show Covered _ _ state.queue.length _
    rw [hempty, List.length_nil]
    exact covered_zero
  · rename_i task rest hqueue
    simp only at hstep
    split at hstep
    · cases hstep
    · rename_i threads hnotify
      cases hstep
      have hlength : state.queue.length = rest.length + 1 := by rw [hqueue, List.length_cons]
      have hle := h.size
      have htasks : Covered QueueThread.awaitsTask QueueThread.isPopping rest.length
          (state.threads.set index .outside) :=
        h.tasks.move hthread nofun (show rest.length + 1 ≤ state.queue.length + 0 by omega)
      have hroom : Covered QueueThread.awaitsRoom QueueThread.isPushing
          (state.queueSize - state.queue.length) (state.threads.set index .outside) :=
        h.room.move hthread nofun (Nat.le_refl _)
      have hmore : state.queueSize - rest.length = state.queueSize - state.queue.length + 1 := by
        omega
      refine ⟨h.fixed, ?_, ?_, ?_, ?_⟩
      · rw [List.filterMap_append, List.filterMap_append, h.fifo, hqueue, List.append_assoc]
        simp [QueueEvent.pushedTask, QueueEvent.poppedTask]
      · show rest.length ≤ state.queueSize
        omega
      · refine htasks.frame ?_ hnotify
        rintro (_ | _ | _ | _ | _) <;>
          simp [QueueThread.awaitsTask, QueueThread.awaitsRoom, QueueThread.isPopping,
            QueueThread.awakened]
      · show Covered _ _ (state.queueSize - rest.length) _
        rw [hmore]
        refine hroom.notify ?_ ?_ hnotify
        · rintro (_ | _ | _ | _ | _) <;> simp [QueueThread.awaitsRoom, QueueThread.isPushing]
        · rintro (_ | _ | _ | _ | _) <;>
            simp [QueueThread.awaitsRoom, QueueThread.isPushing, QueueThread.awakened]

theorem Bounded.step {turn : QueueTurn Task} (h : Bounded queueSize history state)
    (hstep : state.step turn = .ok (next, events)) :
    Bounded queueSize (history ++ events) next := by
  cases turn with
  | callPush index task =>
      simp only [TaskQueue.step] at hstep
      split at hstep
      · rename_i hthread
        cases hstep
        rw [List.append_nil]
        exact h.move hthread rfl rfl rfl rfl
      · cases hstep
  | callPop index =>
      simp only [TaskQueue.step] at hstep
      split at hstep
      · rename_i hthread
        cases hstep
        rw [List.append_nil]
        exact h.move hthread rfl rfl rfl rfl
      · cases hstep
  | lock index woken =>
      simp only [TaskQueue.step] at hstep
      split at hstep
      · rename_i hthread
        exact h.push hthread hstep
      · rename_i hthread
        exact h.pop hthread hstep
      · cases hstep
  | wake index =>
      simp only [TaskQueue.step] at hstep
      split at hstep
      · rename_i hthread
        cases hstep
        rw [List.append_nil]
        exact h.move hthread rfl rfl rfl rfl
      · rename_i hthread
        cases hstep
        rw [List.append_nil]
        exact h.move hthread rfl rfl rfl rfl
      · cases hstep

end Steps

section Runs

variable {Task : Type}

theorem created_bounded (queueSize threadNum : Nat) :
    Bounded queueSize [] (created queueSize threadNum : TaskQueue Task) := by
  refine ⟨rfl, rfl, Nat.zero_le _, fun _ => Nat.zero_le _, fun hany => ?_⟩
  obtain ⟨thread, hmem, hawaits⟩ := List.any_eq_true.1 hany
  cases List.eq_of_mem_replicate hmem
  cases hawaits

/-- The queue is a bounded first-in first-out queue, and no thread misses a signal. -/
theorem bounded_fifo (queueSize threadNum : Nat) {turns : List (QueueTurn Task)}
    {final : TaskQueue Task} {events : List (QueueEvent Task)}
    (h : Machine.run step (created queueSize threadNum) turns = .ok (final, events)) :
    events.filterMap QueueEvent.poppedTask <+: events.filterMap QueueEvent.pushedTask ∧
      final.queue.length ≤ queueSize ∧
      (.awaitingTask ∈ final.threads → final.queue ≠ [] → .popping ∈ final.threads) ∧
      ((∃ task, .awaitingRoom task ∈ final.threads) → final.queue.length < queueSize →
        ∃ task, .pushing task ∈ final.threads) := by
  have hbounded : Bounded queueSize events final :=
    Machine.run_history (fun _ => Bounded queueSize) (fun _ => True)
      (fun _ _ _ _ _ _ hstate _ hstep => hstate.step hstep)
      (created_bounded queueSize threadNum) (fun _ _ => trivial) h
  refine ⟨⟨final.queue, hbounded.fifo.symm⟩, ?_, ?_, ?_⟩
  · rw [← hbounded.fixed]
    exact hbounded.size
  · intro hasleep hqueue
    have hcount := hbounded.tasks (List.any_eq_true.2 ⟨_, hasleep, rfl⟩)
    have hpos := List.length_pos_iff.2 hqueue
    obtain ⟨thread, hmem, hpopping⟩ := List.countP_pos_iff.1 (lt_of_lt_of_le hpos hcount)
    cases thread with
    | popping => exact hmem
    | outside => cases hpopping
    | pushing task => cases hpopping
    | awaitingRoom task => cases hpopping
    | awaitingTask => cases hpopping
  · rintro ⟨task, hasleep⟩ hroom
    have hcount := hbounded.room (List.any_eq_true.2 ⟨_, hasleep, rfl⟩)
    rw [hbounded.fixed] at hcount
    obtain ⟨thread, hmem, hpushing⟩ :=
      List.countP_pos_iff.1 (lt_of_lt_of_le (Nat.sub_pos_of_lt hroom) hcount)
    cases thread with
    | pushing task => exact ⟨task, hmem⟩
    | outside => cases hpushing
    | popping => cases hpushing
    | awaitingRoom task => cases hpushing
    | awaitingTask => cases hpushing

/-- A consumer falls asleep, two tasks are pushed into a queue of size 1, the second one after the
consumer has been woken up and has taken the first. -/
def handOver : List (QueueTurn Nat) :=
  [.callPop 0, .lock 0 none, .callPush 1 10, .lock 1 (some 0), .callPush 1 11, .lock 1 none,
    .lock 0 (some 1), .lock 1 none]

theorem bounded_fifo_hand_over :
    ∃ final events, Machine.run step (created 1 2) handOver = .ok (final, events) ∧
      events.filterMap QueueEvent.poppedTask = [10] ∧ final.queue = [11] ∧
      final.queue.length ≤ 1 := by
  have hrun : Machine.run step (created 1 2) handOver =
      .ok (⟨1, [11], [.outside, .outside]⟩, [.pushed 10, .popped 10, .pushed 11]) := rfl
  exact ⟨_, _, hrun, rfl, rfl, (bounded_fifo 1 2 hrun).2.1⟩

end Runs

end TaskQueue

end CarDetect.Reactor
