import CarDetect.Lib.CondVar
import CarDetect.Lib.Machine

/-!
# Stopping the thread pool

The workers of `ThreadPool`, threads that add tasks and the thread that calls `stop` as processes
that take turns. A section under the mutex of `TaskQueue` is one step, except that a worker's test
of the queue and its going to sleep are two: `wakeUp` clears `_notExit` and notifies without the
mutex. `stop_completes` says that stopping neither hangs nor drops a task when `wakeUp` finds the
queue empty and no worker between these two steps, and `undrained_stays` that it hangs for ever when
the queue is not empty.
-/

namespace CarDetect.Reactor

open CondVar

/-- Where a worker is in `doTask`: at the test of `_isExit`, at the lock in `pop`, behind the test
of the queue on its way to sleep, asleep on `_notEmpty`, in a task, or at its end. -/
inductive Worker (Task : Type) where
  | testing
  | locking
  | parking
  | waiting
  | running (task : Task)
  | ended
deriving DecidableEq, Repr

/-- A thread that calls `addTask` for these tasks, one after another. -/
structure Producer (Task : Type) where
  tasks : List Task
  waiting : Bool
deriving DecidableEq, Repr

/-- Where `stop` is: not called yet, at the two writes of `_isExit` and `_notExit` and at
`notify_all`, in the loop that waits for an empty queue, at the join of a worker, or at its end. -/
inductive Stopper where
  | notCalled
  | clearing
  | notifying
  | draining
  | joining (index : Nat)
  | returned
deriving DecidableEq, Repr

/-- The members of `ThreadPool` and of its `TaskQueue`, and the processes that use them. -/
structure ThreadPool (Task : Type) where
  queueSize : Nat
  queue : List Task
  isExit : Bool
  notExit : Bool
  workers : List (Worker Task)
  producers : List (Producer Task)
  stopper : Stopper
deriving DecidableEq, Repr

/-- What a step adds to the history: a task enters the queue, a task has been executed, or `stop`
returns. -/
inductive PoolEvent (Task : Type) where
  | pushed (task : Task)
  | executed (task : Task)
  | stopped
deriving DecidableEq, Repr

/-- Whose turn it is. `woken` is the process that `notify_one` wakes up in the step, if any. -/
inductive Turn where
  | worker (index : Nat) (woken : Option Nat)
  | producer (index : Nat) (woken : Option Nat)
  | stop
deriving DecidableEq, Repr

/-- How many of the workers `stop` has joined. -/
def Stopper.joined (threadNum : Nat) : Stopper → Nat
  | .joining index => index
  | .returned => threadNum
  | _ => 0

section Definitions

variable {Task : Type}

/-- Asleep on `_notEmpty`. -/
def Worker.isWaiting : Worker Task → Bool
  | .waiting => true
  | _ => false

/-- On the way to sleep, with the mutex. -/
def Worker.isParking : Worker Task → Bool
  | .parking => true
  | _ => false

/-- The task that a worker has taken. -/
def Worker.task : Worker Task → Option Task
  | .running task => some task
  | _ => none

/-- The task of an event, when it entered the queue. -/
def PoolEvent.pushedTask : PoolEvent Task → Option Task
  | .pushed task => some task
  | _ => none

/-- The task of an event, when it has been executed. -/
def PoolEvent.executedTask : PoolEvent Task → Option Task
  | .executed task => some task
  | _ => none

/-- Not the return of `stop`. -/
def PoolEvent.goesOn : PoolEvent Task → Bool
  | .stopped => false
  | _ => true

namespace ThreadPool

/-- After `start`, with these threads that add tasks. -/
def started (threadNum queueSize : Nat) (tasks : List (List Task)) : ThreadPool Task where
  queueSize := queueSize
  queue := []
  isExit := false
  notExit := true
  workers := List.replicate threadNum .testing
  producers := tasks.map fun tasks => ⟨tasks, false⟩
  stopper := .notCalled

/-! ## Steps -/

/-- Nobody holds the mutex between two steps but a worker on its way to sleep. -/
def mutexFree (pool : ThreadPool Task) : Bool :=
  !pool.workers.any Worker.isParking

/-- A worker moves. -/
def move (pool : ThreadPool Task) (index : Nat) (worker : Worker Task) : ThreadPool Task :=
  { pool with workers := pool.workers.set index worker }

/-- A section of `pop` under the mutex: the test of the queue, and what follows when the worker does
not go to sleep. -/
def popStep (pool : ThreadPool Task) (index : Nat) (woken : Option Nat) :
    Except Machine.Suspended (ThreadPool Task) :=
  if pool.mutexFree then
    if pool.notExit then
      match pool.queue with
      | [] => .ok (pool.move index .parking)
      | task :: rest =>
          match notifyOne Producer.waiting (fun producer => { producer with waiting := false })
              pool.producers woken with
          | none => .error .suspended
          | some producers =>
              .ok { pool.move index (.running task) with queue := rest, producers := producers }
    else .ok (pool.move index .testing)
  else .error .suspended

/-- One step of a worker. -/
def workerStep (pool : ThreadPool Task) (index : Nat) (woken : Option Nat) :
    Except Machine.Suspended (ThreadPool Task × List (PoolEvent Task)) :=
  match pool.workers[index]? with
  | some .testing => .ok (pool.move index (if pool.isExit then .ended else .locking), [])
  | some .locking => (pool.popStep index woken).map fun next => (next, [])
  | some .parking => .ok (pool.move index .waiting, [])
  | some (.running task) => .ok (pool.move index .testing, [.executed task])
  | some .waiting | some .ended | none => .error .suspended

/-- `push`: the thread waits on `_notFull` when the queue is full. -/
def producerStep (pool : ThreadPool Task) (index : Nat) (woken : Option Nat) :
    Except Machine.Suspended (ThreadPool Task × List (PoolEvent Task)) :=
  match pool.producers[index]? with
  | some ⟨task :: rest, false⟩ =>
      if pool.mutexFree then
        if pool.queue.length = pool.queueSize then
          .ok ({ pool with producers := pool.producers.set index ⟨task :: rest, true⟩ }, [])
        else
          match notifyOne Worker.isWaiting (fun _ => .locking) pool.workers woken with
          | none => .error .suspended
          | some workers =>
              .ok ({ pool with
                queue := pool.queue ++ [task], workers := workers,
                producers := pool.producers.set index ⟨rest, false⟩ }, [.pushed task])
      else .error .suspended
  | _ => .error .suspended

/-- One step of `stop`. The loop that waits for an empty queue changes nothing in a round. -/
def stopStep (pool : ThreadPool Task) :
    Except Machine.Suspended (ThreadPool Task × List (PoolEvent Task)) :=
  match pool.stopper with
  | .notCalled => .ok ({ pool with isExit := true, stopper := .clearing }, [])
  | .clearing => .ok ({ pool with notExit := false, stopper := .notifying }, [])
  | .notifying =>
      .ok ({ pool with
        workers := notifyAll Worker.isWaiting (fun _ => .locking) pool.workers,
        stopper := .draining }, [])
  | .draining =>
      if pool.queue = [] then .ok ({ pool with stopper := .joining 0 }, []) else .error .suspended
  | .joining index =>
      match pool.workers[index]? with
      | some .ended => .ok ({ pool with stopper := .joining (index + 1) }, [])
      | some _ => .error .suspended
      | none => .ok ({ pool with stopper := .returned }, [.stopped])
  | .returned => .error .suspended

/-- One step. -/
def step (pool : ThreadPool Task) :
    Turn → Except Machine.Suspended (ThreadPool Task × List (PoolEvent Task))
  | .worker index woken => pool.workerStep index woken
  | .producer index woken => pool.producerStep index woken
  | .stop => pool.stopStep

/-! ## The property -/

/-- `stop` waits, for the queue to empty or for a worker to end, and no process can take a step. -/
structure Stuck (pool : ThreadPool Task) : Prop where
  stopping : pool.stopper = .draining ∨ ∃ index, pool.stopper = .joining index
  blocked : ∀ turn result, pool.step turn ≠ .ok result

/-- Stopping does not hang, and once `stop` has returned, the tasks that entered the queue before
have been executed, each once. -/
structure Completes (history : List (PoolEvent Task)) (pool : ThreadPool Task) : Prop where
  free : ¬ pool.Stuck
  executed : pool.stopper = .returned →
    (history.filterMap PoolEvent.executedTask).Perm
      ((history.takeWhile PoolEvent.goesOn).filterMap PoolEvent.pushedTask)

/-- The queue is empty when `wakeUp` clears `_notExit`, no worker is on its way to sleep when it
notifies, and no task enters the queue between the clearing and the return of `stop`. -/
def Quiet (pool : ThreadPool Task) : Turn → Prop
  | .worker _ _ => True
  | .producer _ _ => pool.notExit = true ∨ pool.stopper = .returned ∨
      pool.queue.length = pool.queueSize
  | .stop => (pool.stopper = .clearing → pool.queue = []) ∧
      (pool.stopper = .notifying → ∀ worker ∈ pool.workers, worker.isParking = false)

instance (pool : ThreadPool Task) [DecidableEq Task] (turn : Turn) :
    Decidable (pool.Quiet turn) := by
  cases turn
  · exact inferInstanceAs (Decidable True)
  · exact inferInstanceAs (Decidable (_ ∨ _ ∨ _))
  · exact inferInstanceAs (Decidable (_ ∧ _))

end ThreadPool

end Definitions

namespace ThreadPool

section Steps

variable {Task : Type} {pool next : ThreadPool Task} {events : List (PoolEvent Task)}
  {index : Nat} {woken : Option Nat}

/-! ## What one step does -/

/-- What a worker's step does to the worker and to the queue. -/
inductive WorkerMove (pool : ThreadPool Task) :
    Worker Task → Worker Task → List Task → List (PoolEvent Task) → Prop where
  | test : WorkerMove pool .testing (if pool.isExit then .ended else .locking) pool.queue []
  | park (hqueue : pool.queue = []) (hnotExit : pool.notExit = true) :
      WorkerMove pool .locking .parking pool.queue []
  | pop {task : Task} {rest : List Task} (hqueue : pool.queue = task :: rest)
      (hnotExit : pool.notExit = true) : WorkerMove pool .locking (.running task) rest []
  | leave (hnotExit : pool.notExit = false) : WorkerMove pool .locking .testing pool.queue []
  | sleep : WorkerMove pool .parking .waiting pool.queue []
  | execute (task : Task) : WorkerMove pool (.running task) .testing pool.queue [.executed task]

/-- A worker's step moves it, and touches nothing but the queue and threads that wait to add
tasks. -/
theorem worker_step_ok (h : pool.workerStep index woken = .ok (next, events)) :
    ∃ worker moved queue producers, pool.workers[index]? = some worker ∧
      WorkerMove pool worker moved queue events ∧
      next = { pool.move index moved with queue := queue, producers := producers } := by
  unfold workerStep at h
  split at h
  · rename_i hworker
    cases h
    exact ⟨_, _, _, pool.producers, hworker, .test, rfl⟩
  · rename_i hworker
    unfold popStep at h
    split at h
    · split at h
      · rename_i hnotExit
        split at h
        · rename_i hqueue
          cases h
          exact ⟨_, _, _, pool.producers, hworker, .park hqueue hnotExit, rfl⟩
        · rename_i task rest hqueue
          split at h
          · cases h
          · rename_i producers hproducers
            cases h
            exact ⟨_, _, _, producers, hworker, .pop hqueue hnotExit, rfl⟩
      · rename_i hnotExit
        cases h
        exact ⟨_, _, _, pool.producers, hworker, .leave (by simpa using hnotExit), rfl⟩
    · cases h
  · rename_i hworker
    cases h
    exact ⟨_, _, _, pool.producers, hworker, .sleep, rfl⟩
  · rename_i task hworker
    cases h
    exact ⟨_, _, _, pool.producers, hworker, .execute task, rfl⟩
  · cases h
  · cases h
  · cases h

/-- A step of a thread that adds tasks: it goes to sleep, or a task enters the queue and a worker
that sleeps may be woken. -/
theorem producer_step_ok (h : pool.producerStep index woken = .ok (next, events)) :
    ∃ producers, (next = { pool with producers := producers } ∧ events = []) ∨
      ∃ task workers, pool.queue.length ≠ pool.queueSize ∧
        notifyOne Worker.isWaiting (fun _ => .locking) pool.workers woken = some workers ∧
        next = { pool with
          queue := pool.queue ++ [task], workers := workers, producers := producers } ∧
        events = [.pushed task] := by
  unfold producerStep at h
  split at h
  · split at h
    · split at h
      · cases h
        exact ⟨_, .inl ⟨rfl, rfl⟩⟩
      · rename_i hfull
        split at h
        · cases h
        · rename_i workers hworkers
          cases h
          exact ⟨_, .inr ⟨_, _, hfull, hworkers, rfl, rfl⟩⟩
    · cases h
  · cases h

/-- The step of a thread that calls `stop`. -/
inductive StopMove (pool : ThreadPool Task) : ThreadPool Task → List (PoolEvent Task) → Prop where
  | call (h : pool.stopper = .notCalled) :
      StopMove pool { pool with isExit := true, stopper := .clearing } []
  | clear (h : pool.stopper = .clearing) :
      StopMove pool { pool with notExit := false, stopper := .notifying } []
  | notify (h : pool.stopper = .notifying) :
      StopMove pool { pool with
        workers := notifyAll Worker.isWaiting (fun _ => .locking) pool.workers,
        stopper := .draining } []
  | drained (h : pool.stopper = .draining) (hqueue : pool.queue = []) :
      StopMove pool { pool with stopper := .joining 0 } []
  | join {index : Nat} (h : pool.stopper = .joining index)
      (hended : pool.workers[index]? = some .ended) :
      StopMove pool { pool with stopper := .joining (index + 1) } []
  | finish {index : Nat} (h : pool.stopper = .joining index)
      (hall : pool.workers[index]? = none) :
      StopMove pool { pool with stopper := .returned } [.stopped]

theorem stop_step_ok (h : pool.stopStep = .ok (next, events)) : StopMove pool next events := by
  unfold stopStep at h
  split at h
  · rename_i hstopper
    cases h
    exact .call hstopper
  · rename_i hstopper
    cases h
    exact .clear hstopper
  · rename_i hstopper
    cases h
    exact .notify hstopper
  · rename_i hstopper
    split at h
    · rename_i hqueue
      cases h
      exact .drained hstopper hqueue
    · cases h
  · rename_i index hstopper
    split at h
    · rename_i hended
      cases h
      exact .join hstopper hended
    · cases h
    · rename_i hall
      cases h
      exact .finish hstopper hall
  · cases h

end Steps

/-! ## The invariant -/

section Invariant

variable {Task : Type} {pool next : ThreadPool Task} {history events : List (PoolEvent Task)}

/-- The tasks that entered the queue, those that have been executed, and those of the workers. -/
def pushedTasks (history : List (PoolEvent Task)) : Multiset Task :=
  history.filterMap PoolEvent.pushedTask

def executedTasks (history : List (PoolEvent Task)) : Multiset Task :=
  history.filterMap PoolEvent.executedTask

def heldTasks (workers : List (Worker Task)) : Multiset Task :=
  workers.filterMap Worker.task

/-- In a run that meets the condition: the queue is empty and nobody sleeps once `wakeUp` has run,
the workers joined have ended, and every task is in the queue, with a worker or executed. -/
structure Stopping (history : List (PoolEvent Task)) (pool : ThreadPool Task) : Prop where
  flag : pool.notExit = true ↔ pool.stopper = .notCalled ∨ pool.stopper = .clearing
  empty : pool.notExit = false → pool.stopper ≠ .returned → pool.queue = []
  awake : pool.notExit = false → pool.stopper ≠ .notifying →
    ∀ worker ∈ pool.workers, worker.isParking = false ∧ worker.isWaiting = false
  joined : ∀ index < pool.stopper.joined pool.workers.length,
    pool.workers[index]? = some .ended
  balance : pushedTasks history = executedTasks history + heldTasks pool.workers + pool.queue
  ongoing : pool.stopper ≠ .returned → ∀ event ∈ history, event.goesOn = true
  complete : pool.stopper = .returned → (∃ event ∈ history, event.goesOn = false) ∧
    executedTasks history = pushedTasks (history.takeWhile PoolEvent.goesOn)

theorem pushed_append (history events : List (PoolEvent Task)) :
    pushedTasks (history ++ events) = pushedTasks history + pushedTasks events := by
  rw [pushedTasks, List.filterMap_append, ← Multiset.coe_add]
  rfl

theorem executed_append (history events : List (PoolEvent Task)) :
    executedTasks (history ++ events) = executedTasks history + executedTasks events := by
  rw [executedTasks, List.filterMap_append, ← Multiset.coe_add]
  rfl

theorem held_set {workers : List (Worker Task)} {index : Nat} {worker : Worker Task}
    (h : workers[index]? = some worker) (moved : Worker Task) :
    heldTasks (workers.set index moved) + worker.task.toList =
      heldTasks workers + moved.task.toList :=
  filterMap_set h moved

/-- Once the return of `stop` is in the history, later events do not move it. -/
theorem take_goes_on (h : ∃ event ∈ history, event.goesOn = false)
    (events : List (PoolEvent Task)) :
    (history ++ events).takeWhile PoolEvent.goesOn = history.takeWhile PoolEvent.goesOn := by
  induction history with
  | nil => simp at h
  | cons first rest ih =>
      rw [List.cons_append, List.takeWhile_cons, List.takeWhile_cons]
      by_cases hfirst : first.goesOn = true
      · obtain ⟨event, hmem, hstops⟩ := h
        rcases List.mem_cons.1 hmem with rfl | hmem
        · rw [hfirst] at hstops
          cases hstops
        · rw [if_pos hfirst, if_pos hfirst, ih ⟨event, hmem, hstops⟩]
      · rw [if_neg hfirst, if_neg hfirst]

/-- The pool starts in order. -/
theorem stopping_started (threadNum queueSize : Nat) (tasks : List (List Task)) :
    Stopping [] (started threadNum queueSize tasks) where
  flag := by simp [started]
  empty h := by cases h
  awake h := by cases h
  joined index h := by cases h
  balance := by
    have hheld : heldTasks (List.replicate threadNum (Worker.testing : Worker Task)) = 0 := by
      rw [heldTasks, List.filterMap_replicate_of_none rfl]
      rfl
    show pushedTasks [] = executedTasks [] + heldTasks (List.replicate threadNum .testing) + _
    rw [hheld]
    rfl
  ongoing _ := by simp
  complete h := by cases h

/-- No worker moves after `stop` has returned, and a worker that moves has not ended. -/
theorem WorkerMove.not_ended {worker moved : Worker Task} {queue : List Task}
    (h : WorkerMove pool worker moved queue events) : worker ≠ .ended := by
  cases h <;> exact fun heq => by cases heq

/-- What a worker's step does to the tasks. -/
theorem WorkerMove.balance {worker moved : Worker Task} {queue : List Task}
    (h : WorkerMove pool worker moved queue events) :
    (moved.task.toList : Multiset Task) + queue + executedTasks events =
        worker.task.toList + pool.queue ∧
      pushedTasks events = 0 ∧ ∀ event ∈ events, event.goesOn = true := by
  cases h with
  | test =>
      refine ⟨?_, rfl, by simp⟩
      split <;> simp [Worker.task, executedTasks]
  | park hqueue hnotExit => exact ⟨by simp [Worker.task, executedTasks], rfl, by simp⟩
  | pop hqueue hnotExit => exact ⟨by simp [Worker.task, executedTasks, hqueue], rfl, by simp⟩
  | leave hnotExit => exact ⟨by simp [Worker.task, executedTasks], rfl, by simp⟩
  | sleep => exact ⟨by simp [Worker.task, executedTasks], rfl, by simp⟩
  | execute task =>
      refine ⟨?_, rfl, List.forall_mem_singleton.2 rfl⟩
      simp [Worker.task, executedTasks, PoolEvent.executedTask, add_comm]

/-- Behind `wakeUp` a worker takes no task and does not go to sleep. -/
theorem WorkerMove.awake {worker moved : Worker Task} {queue : List Task}
    (h : WorkerMove pool worker moved queue events) (hnotExit : pool.notExit = false) :
    queue = pool.queue ∧ (worker.isParking = false →
      moved.isParking = false ∧ moved.isWaiting = false) := by
  cases h with
  | test =>
      refine ⟨rfl, fun _ => ?_⟩
      split <;> exact ⟨rfl, rfl⟩
  | park hqueue hset => simp [hnotExit] at hset
  | pop hqueue hset => simp [hnotExit] at hset
  | leave hset => exact ⟨rfl, fun _ => ⟨rfl, rfl⟩⟩
  | sleep => exact ⟨rfl, fun hparking => by cases hparking⟩
  | execute task => exact ⟨rfl, fun _ => ⟨rfl, rfl⟩⟩

/-- A step of a worker. -/
theorem Stopping.worker (hinv : Stopping history pool) {index : Nat} {woken : Option Nat}
    (h : pool.workerStep index woken = .ok (next, events)) : Stopping (history ++ events) next := by
  obtain ⟨worker, moved, queue, producers, hworker, hmove, rfl⟩ := worker_step_ok h
  obtain ⟨htasks, hpushed, hgoes⟩ := hmove.balance
  have hheld := held_set hworker moved
  have hmem := List.mem_of_getElem? hworker
  have hnotReturned : pool.stopper ≠ .returned := by
    intro hreturned
    have hlt := (List.getElem?_eq_some_iff.1 hworker).1
    have hended := hinv.joined index (by rw [hreturned]; exact hlt)
    rw [hworker] at hended
    exact hmove.not_ended (by cases hended; rfl)
  refine ⟨hinv.flag, ?_, ?_, ?_, ?_, ?_, ?_⟩
  · intro hnotExit hstopper
    rw [(hmove.awake hnotExit).1]
    exact hinv.empty hnotExit hstopper
  · intro hnotExit hstopper other hother
    rcases List.mem_or_eq_of_mem_set hother with hother | rfl
    · exact hinv.awake hnotExit hstopper other hother
    · exact (hmove.awake hnotExit).2 (hinv.awake hnotExit hstopper worker hmem).1
  · intro other hother
    simp only [move, List.length_set] at hother
    have hended := hinv.joined other hother
    have hne : index ≠ other := by
      rintro rfl
      rw [hworker] at hended
      exact hmove.not_ended (by cases hended; rfl)
    simp only [move, List.getElem?_set_ne hne, hended]
  · have hbalance := hinv.balance
    show pushedTasks (history ++ events) =
      executedTasks (history ++ events) + heldTasks (pool.workers.set index moved) + queue
    rw [pushed_append, executed_append, hpushed, hbalance, add_zero]
    refine add_right_cancel (b := (worker.task.toList : Multiset Task)) ?_
    calc
      _ = executedTasks history + heldTasks pool.workers + (worker.task.toList + pool.queue) := by
        abel
      _ = executedTasks history + (heldTasks pool.workers + moved.task.toList) + queue +
          executedTasks events := by
        rw [← htasks]
        abel
      _ = _ := by
        rw [← hheld]
        abel
  · intro _ event hevent
    exact (List.mem_append.1 hevent).elim (hinv.ongoing hnotReturned event) (hgoes event)
  · exact fun hreturned => absurd hreturned hnotReturned

/-- `notify_one` on `_notEmpty` moves at most one worker, from its sleep to the lock. -/
theorem woken_workers {workers after : List (Worker Task)} {woken : Option Nat}
    (h : notifyOne Worker.isWaiting (fun _ => .locking) workers woken = some after) :
    heldTasks after = heldTasks workers ∧ after.length = workers.length ∧
      (∀ worker ∈ after, worker ∈ workers ∨ worker = .locking) ∧
      ∀ index : Nat, workers[index]? = some .ended → after[index]? = some .ended := by
  rcases notify_one_some h with rfl | ⟨asleep, worker, hworker, hwaiting, rfl⟩
  · exact ⟨rfl, rfl, fun worker hmem => .inl hmem, fun _ hended => hended⟩
  · have hasleep : worker = .waiting := by
      cases worker <;> first | rfl | cases hwaiting
    subst hasleep
    refine ⟨?_, List.length_set, fun worker hmem => List.mem_or_eq_of_mem_set hmem, ?_⟩
    · simpa [Worker.task] using held_set hworker .locking
    · intro index hended
      have hne : asleep ≠ index := by
        rintro rfl
        rw [hworker] at hended
        cases hended
      rw [List.getElem?_set_ne hne, hended]

/-- A step of a thread that adds tasks. -/
theorem Stopping.producer (hinv : Stopping history pool) {index : Nat} {woken : Option Nat}
    (hquiet : pool.Quiet (.producer index woken))
    (h : pool.producerStep index woken = .ok (next, events)) :
    Stopping (history ++ events) next := by
  obtain ⟨producers, ⟨rfl, rfl⟩ | ⟨task, workers, hfull, hnotify, rfl, rfl⟩⟩ := producer_step_ok h
  · rw [List.append_nil]
    exact ⟨hinv.flag, hinv.empty, hinv.awake, hinv.joined, hinv.balance, hinv.ongoing,
      hinv.complete⟩
  · have hreturned : pool.notExit = false → pool.stopper = .returned := by
      intro hnotExit
      rcases hquiet with h | h | h
      · rw [hnotExit] at h
        cases h
      · exact h
      · exact absurd h hfull
    obtain ⟨hheld, hlength, hmem, hended⟩ := woken_workers hnotify
    refine ⟨hinv.flag, fun hnotExit hstopper => absurd (hreturned hnotExit) hstopper, ?_, ?_, ?_,
      ?_, ?_⟩
    · intro hnotExit hstopper worker hworker
      rcases hmem worker hworker with hworker | rfl
      · exact hinv.awake hnotExit hstopper worker hworker
      · exact ⟨rfl, rfl⟩
    · intro other hother
      simp only [hlength] at hother
      exact hended other (hinv.joined other hother)
    · show pushedTasks (history ++ [.pushed task]) = executedTasks (history ++ [.pushed task]) +
        heldTasks workers + ((pool.queue ++ [task] : List Task) : Multiset Task)
      rw [pushed_append, executed_append, hinv.balance, hheld, ← Multiset.coe_add]
      show _ + (([task] : List Task) : Multiset Task) = _ + 0 + _ + _
      abel
    · intro hstopper event hevent
      rcases List.mem_append.1 hevent with hevent | hevent
      · exact hinv.ongoing hstopper event hevent
      · rw [List.mem_singleton.1 hevent]
        rfl
    · intro hstopper
      obtain ⟨⟨event, hevent, hstops⟩, hexecuted⟩ := hinv.complete hstopper
      refine ⟨⟨event, List.mem_append_left _ hevent, hstops⟩, ?_⟩
      rw [take_goes_on ⟨event, hevent, hstops⟩, executed_append, hexecuted]
      exact add_zero _

/-- `notify_all` on `_notEmpty` takes no task from a worker. -/
theorem held_notify_all (workers : List (Worker Task)) :
    heldTasks (notifyAll Worker.isWaiting (fun _ => .locking) workers) = heldTasks workers := by
  unfold heldTasks notifyAll
  rw [List.filterMap_map]
  congr 2
  funext worker
  cases worker <;> rfl

/-- When all workers have ended, they hold no task. -/
theorem held_ended {workers : List (Worker Task)} {threadNum : Nat}
    (h : ∀ index < threadNum, workers[index]? = some .ended) (hall : workers[threadNum]? = none) :
    heldTasks workers = 0 := by
  have hlength := List.getElem?_eq_none_iff.1 hall
  have hnone : ∀ worker ∈ workers, worker.task = none := by
    intro worker hworker
    obtain ⟨index, hlt, hget⟩ := List.getElem_of_mem hworker
    have hended := h index (by omega)
    rw [List.getElem?_eq_getElem hlt, hget] at hended
    cases hended
    rfl
  rw [heldTasks, List.filterMap_eq_nil_iff.2 hnone]
  rfl

/-- `stop` returns when all threads have ended. -/
theorem Stopping.finished (hinv : Stopping history pool) {index : Nat}
    (hstopper : pool.stopper = .joining index) (hall : pool.workers[index]? = none) :
    Stopping (history ++ [.stopped]) { pool with stopper := .returned } := by
  have hflag := hinv.flag
  have hset : pool.notExit = false := by simpa [hstopper] using hflag
  have hongoing := hinv.ongoing (by simp [hstopper])
  have hjoined := hinv.joined
  rw [hstopper] at hjoined
  have hlength := List.getElem?_eq_none_iff.1 hall
  have hqueue := hinv.empty hset (by simp [hstopper])
  refine ⟨by simp [hset], fun _ hreturned => absurd rfl hreturned, ?_, ?_, ?_, ?_, fun _ => ?_⟩
  · exact fun _ _ => hinv.awake hset (by simp [hstopper])
  · exact fun other hother => hjoined other (hother.trans_le hlength)
  · rw [pushed_append, executed_append, hinv.balance]
    show _ + 0 = _ + 0 + _ + _
    abel
  · exact fun hreturned => absurd rfl hreturned
  · refine ⟨⟨.stopped, by simp, rfl⟩, ?_⟩
    have htake : (history ++ [PoolEvent.stopped]).takeWhile PoolEvent.goesOn = history :=
      List.takeWhile_append_of_pos hongoing |>.trans (by simp [PoolEvent.goesOn])
    rw [htake, executed_append, hinv.balance, held_ended hjoined hall, hqueue]
    show _ + 0 = _ + 0 + 0
    abel

/-- A step of `stop`. -/
theorem Stopping.stop (hinv : Stopping history pool) (hquiet : pool.Quiet .stop)
    (h : pool.stopStep = .ok (next, events)) : Stopping (history ++ events) next := by
  have hflag := hinv.flag
  obtain ⟨hclear, hnotify⟩ := hquiet
  cases stop_step_ok h with
  | call hstopper =>
      have hset : pool.notExit = true := hflag.2 (.inl hstopper)
      rw [List.append_nil]
      refine ⟨iff_of_true hset (.inr rfl), ?_, ?_, ?_, hinv.balance, ?_, ?_⟩
      · exact fun hnotExit => by simp [hset] at hnotExit
      · exact fun hnotExit => by simp [hset] at hnotExit
      · exact fun _ hindex => absurd hindex (Nat.not_lt_zero _)
      · exact fun _ => hinv.ongoing (by simp [hstopper])
      · exact fun hreturned => by cases hreturned
  | clear hstopper =>
      rw [List.append_nil]
      refine ⟨by simp, fun _ _ => hclear hstopper, ?_, ?_, hinv.balance, ?_, ?_⟩
      · exact fun _ hnotifying => absurd rfl hnotifying
      · exact fun _ hindex => absurd hindex (Nat.not_lt_zero _)
      · exact fun _ => hinv.ongoing (by simp [hstopper])
      · exact fun hreturned => by cases hreturned
  | notify hstopper =>
      have hset : pool.notExit = false := by simpa [hstopper] using hflag
      rw [List.append_nil]
      refine ⟨by simp [hset], fun _ _ => hinv.empty hset (by simp [hstopper]), ?_, ?_, ?_, ?_, ?_⟩
      · intro _ _ worker hworker
        refine ⟨?_, not_waiting_of_mem_notify_all (fun _ => rfl) hworker⟩
        obtain ⟨before, hbefore, rfl⟩ := List.mem_map.1 hworker
        split
        · rfl
        · exact hnotify hstopper before hbefore
      · exact fun _ hindex => absurd hindex (Nat.not_lt_zero _)
      · rw [held_notify_all]
        exact hinv.balance
      · exact fun _ => hinv.ongoing (by simp [hstopper])
      · exact fun hreturned => by cases hreturned
  | drained hstopper hqueue =>
      have hset : pool.notExit = false := by simpa [hstopper] using hflag
      rw [List.append_nil]
      refine ⟨by simp [hset], fun _ _ => hqueue, ?_, ?_, hinv.balance, ?_, ?_⟩
      · exact fun _ _ => hinv.awake hset (by simp [hstopper])
      · exact fun _ hindex => absurd hindex (Nat.not_lt_zero _)
      · exact fun _ => hinv.ongoing (by simp [hstopper])
      · exact fun hreturned => by cases hreturned
  | @join index hstopper hended =>
      have hset : pool.notExit = false := by simpa [hstopper] using hflag
      have hjoined := hinv.joined
      rw [hstopper] at hjoined
      rw [List.append_nil]
      refine ⟨by simp [hset], fun _ _ => hinv.empty hset (by simp [hstopper]), ?_, ?_,
        hinv.balance, ?_, ?_⟩
      · exact fun _ _ => hinv.awake hset (by simp [hstopper])
      · intro other hother
        rcases Nat.lt_succ_iff_lt_or_eq.1 hother with hother | rfl
        · exact hjoined other hother
        · exact hended
      · exact fun _ => hinv.ongoing (by simp [hstopper])
      · exact fun hreturned => by cases hreturned
  | finish hstopper hall => exact hinv.finished hstopper hall

/-- A step that meets the condition. -/
theorem Stopping.step (hinv : Stopping history pool) {turn : Turn} (hquiet : pool.Quiet turn)
    (h : pool.step turn = .ok (next, events)) : Stopping (history ++ events) next := by
  cases turn with
  | worker index woken => exact hinv.worker h
  | producer index woken => exact hinv.producer hquiet h
  | stop => exact hinv.stop hquiet h

/-- Behind `wakeUp`, a worker that has not ended can take a step. -/
theorem worker_enabled {index : Nat} {worker : Worker Task} (hfree : pool.mutexFree = true)
    (hset : pool.notExit = false) (hworker : pool.workers[index]? = some worker)
    (hasleep : worker.isWaiting = false) (hended : worker ≠ .ended) :
    ∃ result, pool.workerStep index none = .ok result := by
  unfold workerStep
  cases worker with
  | testing => simp only [hworker, Except.ok.injEq, exists_eq']
  | locking =>
      simp only [hworker, popStep, hfree, hset]
      exact ⟨_, rfl⟩
  | parking => simp only [hworker, Except.ok.injEq, exists_eq']
  | waiting => cases hasleep
  | running task => simp only [hworker, Except.ok.injEq, exists_eq']
  | ended => exact absurd rfl hended

/-- `stop` never waits for nothing: either it goes on, or the worker that it joins can take a
step. -/
theorem Stopping.not_stuck (hinv : Stopping history pool) : ¬ pool.Stuck := by
  rintro ⟨hstopper, hblocked⟩
  have hset : pool.notExit = false := by
    have hflag := hinv.flag
    rcases hstopper with hstopper | ⟨index, hstopper⟩ <;> simpa [hstopper] using hflag
  have hreturned : pool.stopper ≠ .returned ∧ pool.stopper ≠ .notifying := by
    rcases hstopper with hstopper | ⟨index, hstopper⟩ <;> simp [hstopper]
  have hawake := hinv.awake hset hreturned.2
  have hfree : pool.mutexFree = true := by
    simp only [mutexFree, Bool.not_eq_true', List.any_eq_false, Bool.not_eq_true]
    exact fun worker hworker => (hawake worker hworker).1
  suffices henabled : ∃ turn result, pool.step turn = .ok result by
    obtain ⟨turn, result, hstep⟩ := henabled
    exact hblocked turn result hstep
  rcases hstopper with hstopper | ⟨index, hstopper⟩
  · refine ⟨.stop, ({ pool with stopper := .joining 0 }, []), ?_⟩
    simp only [ThreadPool.step, stopStep, hstopper]
    exact if_pos (hinv.empty hset hreturned.1)
  cases hworker : pool.workers[index]? with
  | none =>
      refine ⟨.stop, ({ pool with stopper := .returned }, [.stopped]), ?_⟩
      simp only [ThreadPool.step, stopStep, hstopper, hworker]
  | some worker =>
      by_cases hended : worker = .ended
      · subst hended
        refine ⟨.stop, ({ pool with stopper := .joining (index + 1) }, []), ?_⟩
        simp only [ThreadPool.step, stopStep, hstopper, hworker]
      · exact ⟨.worker index none, worker_enabled hfree hset hworker
          (hawake worker (List.mem_of_getElem? hworker)).2 hended⟩

/-- The pool stops, in every run that meets the condition. -/
theorem stop_completes (threadNum queueSize : Nat) (tasks : List (List Task)) (turns : List Turn)
    {final : ThreadPool Task} {history : List (PoolEvent Task)}
    (hquiet : Machine.Guarded ThreadPool.step Quiet (started threadNum queueSize tasks) turns)
    (h : Machine.run ThreadPool.step (started threadNum queueSize tasks) turns =
      .ok (final, history)) : Completes history final := by
  have hinv : Stopping history final := Machine.run_guarded_history Stopping
    (fun _ _ _ _ _ hinv hquiet hstep => hinv.step hquiet hstep) []
    (stopping_started threadNum queueSize tasks) hquiet h
  exact ⟨hinv.not_stuck, fun hreturned => Multiset.coe_eq_coe.1 (hinv.complete hreturned).2⟩

/-- One worker takes two tasks, and then `stop` is called. -/
def idlePool : List Turn :=
  [.producer 0 none, .worker 0 none, .worker 0 none, .worker 0 none, .worker 0 none,
    .worker 0 none, .worker 0 none, .producer 0 (some 0), .worker 0 none, .worker 0 none,
    .stop, .stop, .stop, .worker 0 none, .stop, .stop, .stop]

theorem stop_completes_idle :
    Completes [.pushed 7, .executed 7, .pushed 9, .executed 9, .stopped]
      ⟨8, [], true, false, [.ended], [⟨[], false⟩], .returned⟩ :=
  stop_completes 1 8 [[7, 9]] idlePool
    (Machine.guarded_of_check (fun _ _ => of_decide_eq_true) (by decide)) (by decide)

/-! ## When the condition fails -/

/-- `wakeUp` has cleared the flag with tasks in the queue. -/
structure Undrained (pool : ThreadPool Task) : Prop where
  notExit : pool.notExit = false
  queue : pool.queue ≠ []
  stopper : pool.stopper = .notifying ∨ pool.stopper = .draining

/-- Then no worker takes the tasks any more, and `stop` waits for ever. -/
theorem undrained_stays {turns : List Turn} {final : ThreadPool Task} (hundrained : pool.Undrained)
    (h : Machine.run ThreadPool.step pool turns = .ok (final, events)) : final.Undrained := by
  refine (Machine.run_invariant Undrained (fun _ => True) (fun _ => True) ?_ hundrained
    (fun _ _ => trivial) h).1
  clear h hundrained
  rintro pool turn next events ⟨hset, hqueue, hstopper⟩ - hstep
  refine ⟨?_, fun _ _ => trivial⟩
  cases turn with
  | worker index woken =>
      obtain ⟨worker, moved, queue, producers, -, hmove, rfl⟩ := worker_step_ok hstep
      exact ⟨hset, by rw [← (hmove.awake hset).1] at hqueue; exact hqueue, hstopper⟩
  | producer index woken =>
      obtain ⟨producers, ⟨rfl, -⟩ | ⟨task, workers, -, -, rfl, -⟩⟩ := producer_step_ok hstep
      · exact ⟨hset, hqueue, hstopper⟩
      · exact ⟨hset, by simp, hstopper⟩
  | stop =>
      cases stop_step_ok hstep with
      | notify h => exact ⟨hset, hqueue, .inr rfl⟩
      | drained h hempty => exact absurd hempty hqueue
      | call h => simp [h] at hstopper
      | clear h => simp [h] at hstopper
      | join h hended => simp [h] at hstopper
      | finish h hall => simp [h] at hstopper

/-- `wakeUp` has notified while a worker was between its test of the queue and its sleep, or asleep
again. -/
structure Asleep (index : Nat) (pool : ThreadPool Task) : Prop where
  worker : pool.workers[index]? = some .parking ∨ pool.workers[index]? = some .waiting
  stopper : pool.stopper = .draining ∨ ∃ joined ≤ index, pool.stopper = .joining joined

/-- Then nothing but a new task wakes the worker, and `stop` does not get past its join. -/
theorem asleep_stays {index : Nat} {turns : List Turn} {final : ThreadPool Task}
    (hasleep : pool.Asleep index) (hturns : ∀ other woken, .producer other woken ∉ turns)
    (h : Machine.run ThreadPool.step pool turns = .ok (final, events)) : final.Asleep index := by
  refine (Machine.run_invariant (Asleep index) (fun _ => True)
    (fun turn => ∀ other woken, turn ≠ .producer other woken) ?_ hasleep
    (fun turn hturn other woken heq => hturns other woken (by rw [← heq]; exact hturn)) h).1
  clear h hasleep
  rintro pool turn next events ⟨hworker, hstopper⟩ hturn hstep
  refine ⟨?_, fun _ _ => trivial⟩
  cases turn with
  | producer other woken => exact absurd rfl (hturn other woken)
  | worker other woken =>
      obtain ⟨worker, moved, queue, producers, hother, hmove, rfl⟩ := worker_step_ok hstep
      refine ⟨?_, hstopper⟩
      simp only [move]
      by_cases heq : other = index
      · subst heq
        rw [hother] at hworker
        have hlt := (List.getElem?_eq_some_iff.1 hother).1
        rw [List.getElem?_set_self hlt]
        rcases hworker with hworker | hworker
        · cases hworker
          cases hmove
          exact .inr rfl
        · cases hworker
          cases hmove
      · rw [List.getElem?_set_ne heq]
        exact hworker
  | stop =>
      have hsome : ∃ worker, pool.workers[index]? = some worker := by
        rcases hworker with h | h <;> exact ⟨_, h⟩
      obtain ⟨worker, hsome⟩ := hsome
      have hlt := (List.getElem?_eq_some_iff.1 hsome).1
      cases stop_step_ok hstep with
      | drained h hempty => exact ⟨hworker, .inr ⟨0, Nat.zero_le _, rfl⟩⟩
      | @join joined h hended =>
          have hle : joined ≤ index := by simpa [h] using hstopper
          have hne : joined ≠ index := by
            rintro rfl
            rw [hended] at hworker
            simp at hworker
          exact ⟨hworker, .inr ⟨joined + 1, by omega, rfl⟩⟩
      | @finish joined h hall =>
          have hle : joined ≤ index := by simpa [h] using hstopper
          have hlength := List.getElem?_eq_none_iff.1 hall
          omega
      | call h => simp [h] at hstopper
      | clear h => simp [h] at hstopper
      | notify h => simp [h] at hstopper

/-- One worker, and one task that it has not taken when `stop` is called. -/
def queuedTask : List Turn :=
  [.producer 0 none, .stop, .stop, .stop, .worker 0 none]

/-- The worker ends without the task, and `stop` waits for an empty queue. -/
theorem stop_completes_fails_queued :
    ¬ ∀ (threadNum queueSize : Nat) (tasks : List (List Nat)) (turns : List Turn)
      (final : ThreadPool Nat) (history : List (PoolEvent Nat)),
      Machine.run ThreadPool.step (started threadNum queueSize tasks) turns =
        .ok (final, history) → Completes history final := by
  intro h
  have hcompletes := h 1 8 [[7]] queuedTask
    ⟨8, [7], true, false, [.ended], [⟨[], false⟩], .draining⟩ [.pushed 7] (by decide)
  refine hcompletes.free ⟨.inl rfl, fun turn result hstep => ?_⟩
  cases turn with
  | worker index woken => cases index <;> cases hstep
  | producer index woken => cases index <;> cases hstep
  | stop => cases hstep

end Invariant

end ThreadPool

end CarDetect.Reactor
