import CarDetect.Lib.Machine
import Mathlib.Data.List.Infix
import Mathlib.Tactic.ByContra

/-!
# Functors handed to the loop thread

`Eventor` hands functors from any thread to the loop thread: `addEventcb` appends to a list under a
mutex and writes to an eventfd, and `handleRead` reads the eventfd, takes the list under the mutex
and executes it. The read is outside the mutex, so the steps of the two sides are kept apart here.
`functors_in_order` says that the functors are executed in the order in which they were appended,
each at most once, and that the eventfd is readable whenever the loop thread is elsewhere and
functors wait, but for the moment between the append and the write.
-/

namespace CarDetect.Reactor

/-- A thread: the loop thread, or another. -/
inductive Caller where
  | loop
  | other (thread : Nat)
deriving DecidableEq, Repr

/-- Where the call of `addEventcb` that holds the mutex is: before the append, between the append
and the write to the eventfd, or behind the write. -/
inductive CallStage (Functor : Type) where
  | locked (functor : Functor)
  | appended
  | woken
deriving DecidableEq, Repr

/-- Where the loop thread is: not in `handleRead`, between the read of the eventfd and the swap,
between two functors of the batch, or in one. -/
inductive LoopStage (Functor : Type) where
  | elsewhere
  | read
  | batch (rest : List Functor)
  | running (rest : List Functor)
deriving DecidableEq, Repr

/-- The members of `Eventor`, with the call that holds `_mutex`, and the loop thread. -/
structure Eventor (Functor : Type) where
  evtfd : Nat
  pendings : List Functor
  mutex : Option (Caller × CallStage Functor)
  loop : LoopStage Functor
deriving DecidableEq, Repr

/-- What a step adds to the history: a functor is appended to `_pendings`, the loop thread begins to
execute one of its batch, or `runInLoop` calls one without `Eventor`. -/
inductive EventorEvent (Functor : Type) where
  | appended (functor : Functor)
  | executed (functor : Functor)
  | called (functor : Functor)
deriving DecidableEq, Repr

/-- Whose turn it is: a thread that calls `addEventcb` or `runInLoop`, the call that holds the
mutex, or the loop thread in `handleRead`. -/
inductive EventorTurn (Functor : Type) where
  | addEventcb (caller : Caller) (functor : Functor)
  | runInLoop (caller : Caller) (functor : Functor)
  | proceed
  | handleRead
deriving DecidableEq, Repr

section Definitions

variable {Functor : Type}

/-- The functors of the batch that have not been executed. -/
@[simp] def LoopStage.rest : LoopStage Functor → List Functor
  | .batch rest | .running rest => rest
  | .elsewhere | .read => []

/-- Whether the loop thread is in a functor or another event's handler, and may make calls. -/
def LoopStage.inCallback : LoopStage Functor → Bool
  | .elsewhere | .running _ => true
  | .read | .batch _ => false

/-- The functor of an event, when it was appended. -/
@[simp] def EventorEvent.appendedFunctor : EventorEvent Functor → Option Functor
  | .appended functor => some functor
  | .executed _ | .called _ => none

/-- The functor of an event, when it was executed from a batch. -/
@[simp] def EventorEvent.executedFunctor : EventorEvent Functor → Option Functor
  | .executed functor => some functor
  | .appended _ | .called _ => none

/-- Not the beginning of a call. -/
def EventorTurn.goesOn : EventorTurn Functor → Bool
  | .proceed | .handleRead => true
  | .addEventcb _ _ | .runInLoop _ _ => false

namespace Eventor

/-- After the constructor. -/
def created : Eventor Functor where
  evtfd := 0
  pendings := []
  mutex := none
  loop := .elsewhere

/-! ## Steps -/

/-- The loop thread is not in a call of `addEventcb` of its own. -/
def loopFree (eventor : Eventor Functor) : Bool :=
  match eventor.mutex with
  | some (.loop, _) => false
  | _ => true

/-- The lock of `addEventcb`. The loop thread can only call it from a callback. -/
def addEventcb (eventor : Eventor Functor) (caller : Caller) (functor : Functor) :
    Except Machine.Suspended (Eventor Functor × List (EventorEvent Functor)) :=
  if eventor.mutex = none ∧ (caller = .loop → eventor.loop.inCallback) then
    .ok ({ eventor with mutex := some (caller, .locked functor) }, [])
  else .error .suspended

/-- The loop thread calls the functor itself. -/
def runInLoop (eventor : Eventor Functor) (caller : Caller) (functor : Functor) :
    Except Machine.Suspended (Eventor Functor × List (EventorEvent Functor)) :=
  match caller with
  | .loop =>
      if eventor.loopFree ∧ eventor.loop.inCallback then .ok (eventor, [.called functor])
      else .error .suspended
  | .other thread => eventor.addEventcb (.other thread) functor

/-- The next step of the call that holds the mutex: the append, `wakeUp`, the unlock. -/
def proceed (eventor : Eventor Functor) :
    Except Machine.Suspended (Eventor Functor × List (EventorEvent Functor)) :=
  match eventor.mutex with
  | some (caller, .locked functor) =>
      .ok ({ eventor with
        pendings := eventor.pendings ++ [functor],
        mutex := some (caller, .appended) }, [.appended functor])
  | some (caller, .appended) =>
      .ok ({ eventor with evtfd := eventor.evtfd + 1, mutex := some (caller, .woken) }, [])
  | some (_, .woken) => .ok ({ eventor with mutex := none }, [])
  | none => .error .suspended

/-- The next step of the loop thread in `handleRead` and `doPenddingFunctors`: the read of the
eventfd once it is readable, the swap under the mutex, and the functors one after another. -/
def handleRead (eventor : Eventor Functor) :
    Except Machine.Suspended (Eventor Functor × List (EventorEvent Functor)) :=
  match eventor.loop with
  | .elsewhere =>
      if eventor.evtfd ≠ 0 ∧ eventor.loopFree then
        .ok ({ eventor with evtfd := 0, loop := .read }, [])
      else .error .suspended
  | .read =>
      match eventor.mutex with
      | none => .ok ({ eventor with pendings := [], loop := .batch eventor.pendings }, [])
      | some _ => .error .suspended
  | .batch [] => .ok ({ eventor with loop := .elsewhere }, [])
  | .batch (functor :: rest) => .ok ({ eventor with loop := .running rest }, [.executed functor])
  | .running rest =>
      if eventor.loopFree then .ok ({ eventor with loop := .batch rest }, [])
      else .error .suspended

/-- One step. -/
def step (eventor : Eventor Functor) : EventorTurn Functor →
    Except Machine.Suspended (Eventor Functor × List (EventorEvent Functor))
  | .addEventcb caller functor => eventor.addEventcb caller functor
  | .runInLoop caller functor => eventor.runInLoop caller functor
  | .proceed => eventor.proceed
  | .handleRead => eventor.handleRead

/-! ## The property -/

/-- The functors appended to `_pendings` so far. -/
def appended (history : List (EventorEvent Functor)) : List Functor :=
  history.filterMap EventorEvent.appendedFunctor

/-- The functors executed from batches so far. -/
def executed (history : List (EventorEvent Functor)) : List Functor :=
  history.filterMap EventorEvent.executedFunctor

/-- A call of `addEventcb` is between its append and its write to the eventfd. -/
def Announcing (eventor : Eventor Functor) : Prop :=
  ∃ caller, eventor.mutex = some (caller, .appended)

/-- No thread is in a call, and the loop thread has nothing to read. -/
def Resting (eventor : Eventor Functor) : Prop :=
  ∀ turn result, turn.goesOn = true → eventor.step turn ≠ .ok result

/-- The functors are executed in order and at most once, the eventfd is readable when functors wait,
and none is left when nothing goes on. -/
structure Served [DecidableEq Functor] (history : List (EventorEvent Functor))
    (eventor : Eventor Functor) : Prop where
  order : executed history <+: appended history
  once : ∀ functor, (executed history).count functor ≤ (appended history).count functor
  readable : eventor.loop = .elsewhere → eventor.pendings ≠ [] →
    eventor.evtfd ≠ 0 ∨ eventor.Announcing
  complete : eventor.Resting → executed history = appended history

end Eventor

end Definitions

namespace Eventor

section Invariant

variable {Functor : Type} {eventor next : Eventor Functor}
  {events history : List (EventorEvent Functor)} {turn : EventorTurn Functor}

/-! ## What one step does -/

/-- What a step does. -/
inductive Does (eventor : Eventor Functor) :
    Eventor Functor → List (EventorEvent Functor) → Prop where
  | lock {caller : Caller} {functor : Functor} (hmutex : eventor.mutex = none) :
      Does eventor { eventor with mutex := some (caller, .locked functor) } []
  | call (functor : Functor) : Does eventor eventor [.called functor]
  | append {caller : Caller} {functor : Functor}
      (hmutex : eventor.mutex = some (caller, .locked functor)) :
      Does eventor { eventor with
        pendings := eventor.pendings ++ [functor],
        mutex := some (caller, .appended) } [.appended functor]
  | write {caller : Caller} (hmutex : eventor.mutex = some (caller, .appended)) :
      Does eventor { eventor with
        evtfd := eventor.evtfd + 1, mutex := some (caller, .woken) } []
  | unlock {caller : Caller} (hmutex : eventor.mutex = some (caller, .woken)) :
      Does eventor { eventor with mutex := none } []
  | read (hloop : eventor.loop = .elsewhere) (hevtfd : eventor.evtfd ≠ 0) :
      Does eventor { eventor with evtfd := 0, loop := .read } []
  | swap (hloop : eventor.loop = .read) (hmutex : eventor.mutex = none) :
      Does eventor { eventor with pendings := [], loop := .batch eventor.pendings } []
  | leave (hloop : eventor.loop = .batch []) : Does eventor { eventor with loop := .elsewhere } []
  | execute {functor : Functor} {rest : List Functor}
      (hloop : eventor.loop = .batch (functor :: rest)) :
      Does eventor { eventor with loop := .running rest } [.executed functor]
  | returns {rest : List Functor} (hloop : eventor.loop = .running rest) :
      Does eventor { eventor with loop := .batch rest } []

theorem add_eventcb_ok {caller : Caller} {functor : Functor}
    (h : eventor.addEventcb caller functor = .ok (next, events)) : eventor.Does next events := by
  unfold addEventcb at h
  split at h
  · rename_i hfree
    cases h
    exact .lock hfree.1
  · cases h

theorem run_in_loop_ok {caller : Caller} {functor : Functor}
    (h : eventor.runInLoop caller functor = .ok (next, events)) : eventor.Does next events := by
  cases caller with
  | loop =>
      simp only [runInLoop] at h
      split at h
      · cases h
        exact .call functor
      · cases h
  | other thread => exact add_eventcb_ok h

theorem proceed_ok (h : eventor.proceed = .ok (next, events)) : eventor.Does next events := by
  unfold proceed at h
  split at h
  · rename_i caller functor hmutex
    cases h
    exact .append hmutex
  · rename_i caller hmutex
    cases h
    exact .write hmutex
  · rename_i caller hmutex
    cases h
    exact .unlock hmutex
  · cases h

theorem handle_read_ok (h : eventor.handleRead = .ok (next, events)) :
    eventor.Does next events := by
  unfold handleRead at h
  split at h
  · rename_i hloop
    split at h
    · rename_i hready
      cases h
      exact .read hloop hready.1
    · cases h
  · rename_i hloop
    split at h
    · rename_i hmutex
      cases h
      exact .swap hloop hmutex
    · cases h
  · rename_i hloop
    cases h
    exact .leave hloop
  · rename_i functor rest hloop
    cases h
    exact .execute hloop
  · rename_i rest hloop
    split at h
    · cases h
      exact .returns hloop
    · cases h

theorem step_ok (h : eventor.step turn = .ok (next, events)) : eventor.Does next events := by
  cases turn with
  | addEventcb caller functor => exact add_eventcb_ok h
  | runInLoop caller functor => exact run_in_loop_ok h
  | proceed => exact proceed_ok h
  | handleRead => exact handle_read_ok h

/-! ## The invariant -/

/-- The appended functors are those executed, those of the batch and those that wait, in this order;
and when functors wait, the eventfd is readable, about to be written, or just read. -/
structure Conserves (history : List (EventorEvent Functor)) (eventor : Eventor Functor) : Prop where
  order : appended history = executed history ++ (eventor.loop.rest ++ eventor.pendings)
  awake : eventor.pendings = [] ∨ eventor.evtfd ≠ 0 ∨ eventor.Announcing ∨ eventor.loop = .read

theorem conserves_created : (created : Eventor Functor).Conserves [] where
  order := rfl
  awake := .inl rfl

theorem appended_append : appended (history ++ events) = appended history ++ appended events :=
  List.filterMap_append

theorem executed_append : executed (history ++ events) = executed history ++ executed events :=
  List.filterMap_append

@[simp] theorem appended_nil : appended ([] : List (EventorEvent Functor)) = [] := rfl

@[simp] theorem executed_nil : executed ([] : List (EventorEvent Functor)) = [] := rfl

@[simp] theorem appended_singleton (event : EventorEvent Functor) :
    appended [event] = event.appendedFunctor.toList := by
  cases event <;> rfl

@[simp] theorem executed_singleton (event : EventorEvent Functor) :
    executed [event] = event.executedFunctor.toList := by
  cases event <;> rfl

/-- Every step keeps the order: an append extends the waiting functors, the swap turns them into the
batch, and an execution takes the first functor of the batch. -/
theorem Does.order (hdoes : eventor.Does next events)
    (horder : appended history = executed history ++ (eventor.loop.rest ++ eventor.pendings)) :
    appended (history ++ events) =
      executed (history ++ events) ++ (next.loop.rest ++ next.pendings) := by
  rw [appended_append, executed_append, horder]
  cases hdoes with
  | lock hmutex => simp
  | call functor => simp
  | append hmutex => simp
  | write hmutex => simp
  | unlock hmutex => simp
  | read hloop hevtfd => simp [hloop]
  | swap hloop hmutex => simp [hloop]
  | leave hloop => simp [hloop]
  | execute hloop => simp [hloop]
  | returns hloop => simp [hloop]

/-- No step loses a wake-up. The read clears the eventfd before the swap, and the swap waits for a
call that has appended and not written yet. -/
theorem Does.awake (hdoes : eventor.Does next events)
    (hawake : eventor.pendings = [] ∨ eventor.evtfd ≠ 0 ∨ eventor.Announcing ∨
      eventor.loop = .read) :
    next.pendings = [] ∨ next.evtfd ≠ 0 ∨ next.Announcing ∨ next.loop = .read := by
  cases hdoes with
  | lock hmutex => simpa [Announcing, hmutex] using hawake
  | call functor => exact hawake
  | append hmutex => exact .inr (.inr (.inl ⟨_, rfl⟩))
  | write hmutex => exact .inr (.inl (Nat.succ_ne_zero _))
  | unlock hmutex => simpa [Announcing, hmutex] using hawake
  | read hloop hevtfd => exact .inr (.inr (.inr rfl))
  | swap hloop hmutex => exact .inl rfl
  | leave hloop => simpa [Announcing, hloop] using hawake
  | execute hloop => simpa [Announcing, hloop] using hawake
  | returns hloop => simpa [Announcing, hloop] using hawake

theorem Conserves.step (hinv : eventor.Conserves history)
    (h : eventor.step turn = .ok (next, events)) : next.Conserves (history ++ events) where
  order := (step_ok h).order hinv.order
  awake := (step_ok h).awake hinv.awake

/-! ## Nothing is left behind -/

/-- A state at rest: the loop thread is elsewhere, nobody holds the mutex and the eventfd is not
readable. -/
theorem Resting.idle (h : eventor.Resting) :
    eventor.mutex = none ∧ eventor.loop = .elsewhere ∧ eventor.evtfd = 0 := by
  obtain ⟨evtfd, pendings, mutex, loop⟩ := eventor
  have hmutex : mutex = none := by
    match mutex with
    | none => rfl
    | some (caller, .locked functor) => exact absurd rfl (h .proceed _ rfl)
    | some (caller, .appended) => exact absurd rfl (h .proceed _ rfl)
    | some (caller, .woken) => exact absurd rfl (h .proceed _ rfl)
  subst hmutex
  refine ⟨rfl, ?_⟩
  match loop with
  | .elsewhere =>
      refine ⟨rfl, ?_⟩
      by_contra hevtfd
      exact absurd (if_pos ⟨hevtfd, rfl⟩) (h .handleRead _ rfl)
  | .read => exact absurd rfl (h .handleRead _ rfl)
  | .batch [] => exact absurd rfl (h .handleRead _ rfl)
  | .batch (functor :: rest) => exact absurd rfl (h .handleRead _ rfl)
  | .running rest => exact absurd rfl (h .handleRead _ rfl)

theorem Conserves.complete (hinv : eventor.Conserves history) (hresting : eventor.Resting) :
    executed history = appended history := by
  obtain ⟨hmutex, hloop, hevtfd⟩ := hresting.idle
  have hpendings : eventor.pendings = [] := by
    simpa [Announcing, hmutex, hloop, hevtfd] using hinv.awake
  rw [hinv.order, hloop, hpendings]
  simp

/-- In every run, with any calls from any threads, the loop thread among them. -/
theorem functors_in_order [DecidableEq Functor] (turns : List (EventorTurn Functor))
    (h : Machine.run Eventor.step created turns = .ok (eventor, history)) :
    eventor.Served history := by
  have hinv : eventor.Conserves history :=
    Machine.run_history (fun _ history eventor => eventor.Conserves history) (fun _ => True)
      (fun _ _ _ _ _ _ hinv _ hstep => hinv.step hstep) conserves_created (fun _ _ => trivial) h
  have horder : executed history <+: appended history := ⟨_, hinv.order.symm⟩
  refine ⟨horder, fun functor => horder.sublist.count_le functor, fun hloop hpendings => ?_,
    hinv.complete⟩
  simpa [hpendings, hloop] using hinv.awake

/-- Two threads hand over functors, and the second call comes between the read and the swap; the
first functor hands over another, which waits for the next read. -/
def twoThreads : List (EventorTurn Nat) :=
  [.addEventcb (.other 1) 7, .proceed, .proceed, .proceed, .handleRead, .runInLoop (.other 2) 8,
    .proceed, .proceed, .proceed, .handleRead, .handleRead, .addEventcb .loop 9, .proceed, .proceed,
    .proceed, .handleRead, .handleRead, .handleRead, .handleRead]

theorem functors_in_order_two_threads :
    Served [.appended 7, .appended 8, .executed 7, .appended 9, .executed 8]
      (⟨2, [9], none, .elsewhere⟩ : Eventor Nat) :=
  functors_in_order twoThreads (by decide)

/-- While a call has appended its functor and not written yet, the functor waits and the eventfd is
not readable. -/
theorem functors_in_order_fails_announcing :
    ¬ ∀ (turns : List (EventorTurn Nat)) (eventor : Eventor Nat)
      (history : List (EventorEvent Nat)),
      Machine.run Eventor.step created turns = .ok (eventor, history) →
        executed history <+: appended history ∧
        (∀ functor, (executed history).count functor ≤ (appended history).count functor) ∧
        (eventor.loop = .elsewhere → eventor.pendings ≠ [] → eventor.evtfd ≠ 0) := by
  intro h
  have hreadable := (h [.addEventcb (.other 1) 7, .proceed]
    ⟨0, [7], some (.other 1, .appended), .elsewhere⟩ [.appended 7] (by decide)).2.2
  exact hreadable rfl (by decide) rfl

end Invariant

end Eventor

end CarDetect.Reactor
