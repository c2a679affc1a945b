import CarDetect.Reactor.ThreadPool

/-!
# Starting the server

`MultiThreadEventLoop::start` up to `ThreadPool::start`: the main thread adds one task for each sub
loop to the thread pool, whose queue has room for 10, and only then creates the threads.
`starts_up_iff` says for which numbers of threads it gets there.
-/

namespace CarDetect.Reactor

/-- `MultiThreadEventLoop`, as far as `start` uses it: the thread pool with the main thread as the
thread that adds tasks, and whether `ThreadPool::start` has created the workers. A task is the index
of its loop. -/
structure Startup where
  threadNum : Nat
  pool : ThreadPool Nat
  started : Bool
deriving DecidableEq, Repr

/-- A step of the main thread, or of a worker; `woken` is the thread that `notify_one` wakes up in
the step, if any. -/
inductive StartTurn where
  | main (woken : Option Nat)
  | worker (index : Nat) (woken : Option Nat)
deriving DecidableEq, Repr

/-- `ThreadPool::start` -/
def ThreadPool.start (pool : ThreadPool Nat) (threadNum : Nat) : ThreadPool Nat :=
  { pool with workers := List.replicate threadNum .testing }

namespace Startup

/-- The main thread has added the first `added` tasks, and may sleep in `push`. -/
def adding (threadNum added : Nat) (waiting : Bool) : Startup where
  threadNum := threadNum
  pool :=
    { queueSize := 10
      queue := List.range added
      isExit := false
      notExit := true
      workers := []
      producers := [⟨(List.range threadNum).drop added, waiting⟩]
      stopper := .notCalled }
  started := false

/-- The beginning of `start`. -/
def created (threadNum : Nat) : Startup := adding threadNum 0 false

/-- One step. -/
def step (startup : Startup) :
    StartTurn → Except Machine.Suspended (Startup × List (PoolEvent Nat))
  | .main woken =>
      match startup.pool.producers with
      | [⟨[], _⟩] =>
          if startup.started then .error .suspended
          else
            .ok ({ startup with
              pool := startup.pool.start startup.threadNum, started := true }, [])
      | _ =>
          (startup.pool.producerStep 0 woken).map fun result =>
            ({ startup with pool := result.1 }, result.2)
  | .worker index woken =>
      (startup.pool.workerStep index woken).map fun result =>
        ({ startup with pool := result.1 }, result.2)

/-- The main thread sleeps in `push` before `ThreadPool::start`, and there is no worker. -/
def Blocked (startup : Startup) : Prop :=
  startup.started = false ∧ startup.pool.workers = [] ∧
    ∃ producer ∈ startup.pool.producers, producer.waiting = true

/-- The main thread gets to `ThreadPool::start` in as many steps as there are tasks and one, and
does not block on the way. -/
structure StartsUp (threadNum : Nat) : Prop where
  reaches : ∃ final events, Machine.run step (created threadNum)
    (List.replicate (threadNum + 1) (.main none)) = .ok (final, events) ∧ final.started = true
  free : ∀ turns final events, Machine.run step (created threadNum) turns = .ok (final, events) →
    ¬ final.Blocked

section Steps

variable {threadNum added : Nat} {turn : StartTurn} {next : Startup}
  {events : List (PoolEvent Nat)} {woken : Option Nat}

theorem drop_range (h : added < threadNum) :
    (List.range threadNum).drop added = added :: (List.range threadNum).drop (added + 1) := by
  rw [List.drop_eq_getElem_cons (by simpa using h), List.getElem_range]

/-- A task is added while there is room. -/
theorem main_adds (h : added < threadNum) (hroom : added < 10) :
    (adding threadNum added false).step (.main none) =
      .ok (adding threadNum (added + 1) false, [.pushed added]) := by
  have hfull : ¬ added = 10 := by omega
  simp [step, adding, ThreadPool.producerStep, ThreadPool.mutexFree, CondVar.notifyOne,
    drop_range h, hfull, List.range_succ, Except.map]

/-- The main thread sleeps when the queue is full. -/
theorem main_blocks (woken : Option Nat) (h : 10 < threadNum) :
    (adding threadNum 10 false).step (.main woken) = .ok (adding threadNum 10 true, []) := by
  simp [step, adding, ThreadPool.producerStep, ThreadPool.mutexFree, drop_range h, Except.map]

/-- Once it sleeps, nobody takes a step any more. -/
theorem blocked_stays (h : added < threadNum) (turn : StartTurn) :
    (adding threadNum added true).step turn = .error .suspended := by
  cases turn with
  | main woken => simp [step, adding, ThreadPool.producerStep, drop_range h, Except.map]
  | worker index woken => simp [step, adding, ThreadPool.workerStep, Except.map]

/-- All tasks are added. -/
theorem main_starts (threadNum : Nat) (woken : Option Nat) :
    ∃ final, (adding threadNum threadNum false).step (.main woken) = .ok (final, []) ∧
      final.started = true := by
  have hall : (List.range threadNum).drop threadNum = [] := by simp
  simp [step, adding, hall]

/-- Nobody can be woken up before there are workers. -/
theorem main_wakes_nobody (index : Nat) (h : added < threadNum) (hroom : added < 10) :
    (adding threadNum added false).step (.main (some index)) = .error .suspended := by
  have hfull : ¬ added = 10 := by omega
  simp [step, adding, ThreadPool.producerStep, ThreadPool.mutexFree, CondVar.notifyOne,
    drop_range h, hfull, Except.map]

/-- There are no workers that could take a step. -/
theorem worker_suspended (index : Nat) :
    (adding threadNum added false).step (.worker index woken) = .error .suspended := by
  simp [step, adding, ThreadPool.workerStep, Except.map]

/-- The workers exist, or the main thread adds the next task. -/
def Underway (threadNum : Nat) (startup : Startup) : Prop :=
  startup.started = true ∨ ∃ added, added ≤ threadNum ∧ startup = adding threadNum added false

/-- `ThreadPool::start` is not undone. -/
theorem started_stays {startup : Startup} (hstarted : startup.started = true)
    (h : startup.step turn = .ok (next, events)) : next.started = true := by
  cases turn with
  | main woken =>
      simp only [step] at h
      split at h
      · rw [if_pos hstarted] at h
        cases h
      · cases hpush : startup.pool.producerStep 0 woken with
        | error fault =>
            rw [hpush] at h
            cases h
        | ok result =>
            rw [hpush] at h
            cases h
            exact hstarted
  | worker index woken =>
      simp only [step] at h
      cases hwork : startup.pool.workerStep index woken with
      | error fault =>
          rw [hwork] at h
          cases h
      | ok result =>
          rw [hwork] at h
          cases h
          exact hstarted

theorem Underway.step {startup : Startup} (hunderway : Underway threadNum startup)
    (hle : threadNum ≤ 10) (h : startup.step turn = .ok (next, events)) :
    Underway threadNum next := by
  rcases hunderway with hstarted | ⟨added, hadded, rfl⟩
  · exact .inl (started_stays hstarted h)
  · cases turn with
    | worker index woken =>
        rw [worker_suspended] at h
        cases h
    | main woken =>
        rcases Nat.eq_or_lt_of_le hadded with rfl | hlt
        · obtain ⟨final, hstart, hstarted⟩ := main_starts added woken
          rw [hstart] at h
          cases h
          exact .inl hstarted
        · have hroom : added < 10 := by omega
          cases woken with
          | none =>
              rw [main_adds hlt hroom] at h
              cases h
              exact .inr ⟨added + 1, hlt, rfl⟩
          | some index =>
              rw [main_wakes_nobody index hlt hroom] at h
              cases h

/-- The main thread adds tasks one after another. -/
theorem run_adds (threadNum added count : Nat) (h : added + count ≤ threadNum)
    (hroom : added + count ≤ 10) :
    ∃ events, Machine.run step (adding threadNum added false)
      (List.replicate count (.main none)) =
        .ok (adding threadNum (added + count) false, events) := by
  induction count generalizing added with
  | zero => exact ⟨[], rfl⟩
  | succ count ih =>
      have hrun : ∃ events, Machine.run step (adding threadNum (added + 1) false)
          (List.replicate count (.main none)) =
            .ok (adding threadNum (added + 1 + count) false, events) :=
        ih (added + 1) (by omega) (by omega)
      obtain ⟨events, hrun⟩ := hrun
      rw [List.replicate_succ, show added + (count + 1) = added + 1 + count by omega]
      exact ⟨_, Machine.run_cons_ok (main_adds (by omega) (by omega)) hrun⟩

end Steps

/-- The server starts with at most 10 worker threads, and with no more. -/
theorem starts_up_iff (threadNum : Nat) : StartsUp threadNum ↔ threadNum ≤ 10 := by
  constructor
  · intro h
    by_contra hgt
    have hlt : 10 < threadNum := by omega
    obtain ⟨events, hrun⟩ := run_adds threadNum 0 10 (by omega) (Nat.le_refl 10)
    have hblocked := Machine.run_append_ok hrun
      (Machine.run_cons_ok (main_blocks none hlt) Machine.run_nil)
    have hwaits : (adding threadNum 10 true).Blocked :=
      ⟨rfl, rfl, _, List.mem_singleton_self _, rfl⟩
    exact h.free _ _ _ hblocked hwaits
  · intro hle
    constructor
    · obtain ⟨events, hrun⟩ := run_adds threadNum 0 threadNum (by omega) (by omega)
      obtain ⟨final, hstart, hstarted⟩ := main_starts threadNum none
      rw [Nat.zero_add] at hrun
      rw [List.replicate_succ']
      exact ⟨final, _, Machine.run_append_ok hrun (Machine.run_cons_ok hstart Machine.run_nil),
        hstarted⟩
    · intro turns final events hrun
      have hunderway : Underway threadNum final :=
        (Machine.run_invariant (Underway threadNum) (fun _ => True) (fun _ => True)
          (fun _ _ _ _ hstate _ hstep => ⟨hstate.step hle hstep, fun _ _ => trivial⟩)
          (.inr ⟨0, Nat.zero_le _, rfl⟩) (fun _ _ => trivial) hrun).1
      rintro ⟨hnot, -, producer, hmem, hwaiting⟩
      rcases hunderway with hstarted | ⟨added, -, rfl⟩
      · rw [hstarted] at hnot
        cases hnot
      · cases List.mem_singleton.1 hmem
        cases hwaiting

/-- With 11 worker threads the main thread sleeps for ever. -/
theorem starts_up_fails_eleven : ¬ ∀ threadNum, StartsUp threadNum := by
  intro hclaim
  have hrun : Machine.run step (created 11) (List.replicate 11 (.main none)) =
      .ok (adding 11 10 true, (List.range 10).map .pushed) := rfl
  have hwaits : (adding 11 10 true).Blocked := ⟨rfl, rfl, _, List.mem_singleton_self _, rfl⟩
  exact (hclaim 11).free _ _ _ hrun hwaits

end Startup

end CarDetect.Reactor
