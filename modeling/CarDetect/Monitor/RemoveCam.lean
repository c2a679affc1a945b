import CarDetect.Monitor.MonitorServer

/-!
# Removing a camera while its update threads run

`removeCam` and the `kcp_update_thread` of each session of the camera as processes that take turns.
The removal locks the mutex of a session, clears its flag and joins its thread with the mutex held,
and the thread tests the flag before it takes the mutex. `removal_free` says that the removal does
not hang when it keeps out of the window between test and lock, `deadlock_stays` that it hangs for
ever otherwise, and `returned_stops` that the removal stops the sessions as `UdpSession.stop` says
when it returns.
-/

namespace CarDetect.Monitor

open BigEndian ByteString Reactor Std

/-- The holder of a session's `_kcpMutex`. -/
inductive Owner where
  | updateThread
  | removeCam
deriving DecidableEq, Repr

/-- Where `kcp_update_thread` is: at the test of `kcp_runing`, at the lock of the mutex, behind it,
in its sleep, or at its end. -/
inductive UpdateThread where
  | testing
  | locking
  | updating
  | sleeping
  | ended
deriving DecidableEq, Repr

/-- Where `removeCam` is in its block for a session: at the lock of the mutex, at the assignment to
`kcp_runing`, at the join, at the release of the control block and of the mutex, or behind the
block. -/
inductive Removal where
  | locking
  | clearing
  | joining
  | releasing
  | removed
deriving DecidableEq, Repr

/-- A session of the camera, and where the two processes are that use it. -/
structure KcpSession where
  session : UdpSession
  owner : Option Owner
  updateThread : UpdateThread
  removal : Removal
deriving DecidableEq, Repr

/-- The processes. A thread is named by the position of its session. -/
inductive Process where
  | removeCam
  | kcpUpdateThread (index : Nat)
deriving DecidableEq, Repr

/-- The process cannot take a step. -/
inductive Blocked where
  | blocked
deriving DecidableEq, Repr

/-! ## Steps -/

/-- One step of `kcp_update_thread`. -/
def KcpSession.update (kcp : KcpSession) : Except Blocked KcpSession :=
  match kcp.updateThread with
  | .testing =>
      .ok { kcp with updateThread := if kcp.session.kcpRuning then .locking else .ended }
  | .locking =>
      if kcp.owner = none then
        .ok { kcp with owner := some .updateThread, updateThread := .updating }
      else .error .blocked
  | .updating => .ok { kcp with owner := none, updateThread := .sleeping }
  | .sleeping => .ok { kcp with updateThread := .testing }
  | .ended => .error .blocked

/-- One step of `removeCam` in its block for a session. The join waits for the end of the thread. -/
def KcpSession.remove (kcp : KcpSession) : Except Blocked (KcpSession × List Event) :=
  match kcp.removal with
  | .locking =>
      if kcp.owner = none then
        .ok ({ kcp with owner := some .removeCam, removal := .clearing }, [])
      else .error .blocked
  | .clearing =>
      .ok ({ kcp with session := { kcp.session with kcpRuning := false }, removal := .joining }, [])
  | .joining =>
      match kcp.session.kcpThread with
      | none => .ok ({ kcp with removal := .releasing }, [])
      | some thread =>
          if kcp.updateThread = .ended then
            .ok ({ kcp with
              session := { kcp.session with kcpThread := none }, removal := .releasing },
              [.joinThread thread])
          else .error .blocked
  | .releasing =>
      .ok ({ kcp with
        session := { kcp.session with ikcp := none }, owner := none, removal := .removed },
        kcp.session.ikcp.toList.map .ikcpRelease)
  | .removed => .error .blocked

/-- One step of `removeCam`, in its block for the first session that it has not removed. -/
def removeStep : List KcpSession → Except Blocked (List KcpSession × List Event)
  | [] => .error .blocked
  | kcp :: rest =>
      if kcp.removal = .removed then
        (removeStep rest).map fun result => (kcp :: result.1, result.2)
      else kcp.remove.map fun result => (result.1 :: rest, result.2)

/-- One step of a process. -/
def processStep (sessions : List KcpSession) :
    Process → Except Blocked (List KcpSession × List Event)
  | .removeCam => removeStep sessions
  | .kcpUpdateThread index =>
      match sessions[index]? with
      | none => .error .blocked
      | some kcp => kcp.update.map fun kcp => (sessions.set index kcp, [])

/-- The sessions of the camera before `removeCam`. -/
def startRemoval (sessions : List UdpSession) : List KcpSession :=
  sessions.map fun session => ⟨session, none, .testing, .locking⟩

/-! ## The property -/

/-- `removeCam` waits for the end of the thread, which waits for the mutex that `removeCam`
holds. -/
structure KcpSession.Deadlock (kcp : KcpSession) : Prop where
  joining : kcp.removal = .joining
  locking : kcp.updateThread = .locking
  owner : kcp.owner = some .removeCam

/-- There is no deadlock, and until `removeCam` has returned some process can take a step:
`removeCam` or the thread of the session that it is at. -/
structure NoDeadlock (sessions : List KcpSession) : Prop where
  free : ∀ kcp ∈ sessions, ¬ kcp.Deadlock
  enabled : (∃ kcp ∈ sessions, kcp.removal ≠ .removed) →
    ∃ process result, processStep sessions process = .ok result ∧
      (process = .removeCam ∨ ∃ past kcp rest, process = .kcpUpdateThread past.length ∧
        sessions = past ++ kcp :: rest ∧ (∀ other ∈ past, other.removal = .removed) ∧
        kcp.removal ≠ .removed)

/-- The step is outside the window: `removeCam` does not lock the mutex of a session whose thread is
between its test and its lock, and a thread does not test the flag between the lock of `removeCam`
and its assignment to the flag. -/
def OutsideWindow (sessions : List KcpSession) : Process → Prop
  | .removeCam => ∀ kcp ∈ sessions.find? fun kcp => kcp.removal ≠ .removed,
      kcp.removal = .locking → kcp.updateThread ≠ .locking
  | .kcpUpdateThread index => ∀ kcp ∈ sessions[index]?, kcp.updateThread = .testing →
      kcp.removal ≠ .clearing

/-! ## What one step does -/

section Steps

variable {sessions next : List KcpSession} {kcp after : KcpSession} {process : Process}
  {events : List Event}

/-- `removeCam` works on the first session that it has not removed. -/
theorem remove_step_ok (h : removeStep sessions = .ok (next, events)) :
    ∃ past kcp rest after, sessions = past ++ kcp :: rest ∧ next = past ++ after :: rest ∧
      (∀ other ∈ past, other.removal = .removed) ∧ kcp.removal ≠ .removed ∧
      kcp.remove = .ok (after, events) := by
  induction sessions generalizing next with
  | nil => cases h
  | cons kcp rest ih =>
      rw [removeStep] at h
      split at h
      · rename_i hremoved
        cases hrest : removeStep rest with
        | error fault =>
            rw [hrest] at h
            cases h
        | ok result =>
            rw [hrest] at h
            cases h
            obtain ⟨past, current, later, after, rfl, hnext, hpast, hcurrent, hstep⟩ := ih hrest
            refine ⟨kcp :: past, current, later, after, rfl, ?_, ?_, hcurrent, hstep⟩
            · rw [List.cons_append, ← hnext]
            · exact List.forall_mem_cons.2 ⟨hremoved, hpast⟩
      · rename_i hremoved
        cases hstep : kcp.remove with
        | error fault =>
            rw [hstep] at h
            cases h
        | ok result =>
            rw [hstep] at h
            cases h
            exact ⟨[], kcp, rest, result.1, rfl, rfl, by simp, hremoved, hstep⟩

/-- The step of `removeCam` is the step of its block for the first session that is left. -/
theorem remove_step_eq {past : List KcpSession} (rest : List KcpSession)
    (hpast : ∀ other ∈ past, other.removal = .removed) (hcurrent : kcp.removal ≠ .removed) :
    removeStep (past ++ kcp :: rest) =
      kcp.remove.map fun result => (past ++ result.1 :: rest, result.2) := by
  induction past with
  | nil =>
      rw [List.nil_append, removeStep, if_neg hcurrent]
      rfl
  | cons first past ih =>
      obtain ⟨hfirst, hpast⟩ := List.forall_mem_cons.1 hpast
      rw [List.cons_append, removeStep, if_pos hfirst, ih hpast]
      cases kcp.remove <;> rfl

/-- A step changes one session, as `removeCam` or its thread does. -/
theorem process_step_ok (h : processStep sessions process = .ok (next, events)) :
    ∃ past kcp rest after, sessions = past ++ kcp :: rest ∧ next = past ++ after :: rest ∧
      (process = .removeCam ∧ (∀ other ∈ past, other.removal = .removed) ∧
          kcp.removal ≠ .removed ∧ kcp.remove = .ok (after, events) ∨
        process = .kcpUpdateThread past.length ∧ kcp.update = .ok after ∧ events = []) := by
  cases process with
  | removeCam =>
      obtain ⟨past, kcp, rest, after, hsessions, hnext, hpast, hcurrent, hstep⟩ :=
        remove_step_ok h
      exact ⟨past, kcp, rest, after, hsessions, hnext, .inl ⟨rfl, hpast, hcurrent, hstep⟩⟩
  | kcpUpdateThread index =>
      unfold processStep at h
      simp only at h
      cases hkcp : sessions[index]? with
      | none =>
          rw [hkcp] at h
          cases h
      | some kcp =>
          rw [hkcp] at h
          simp only at h
          cases hstep : kcp.update with
          | error fault =>
              rw [hstep] at h
              cases h
          | ok after =>
              rw [hstep] at h
              cases h
              obtain ⟨hlt, hget⟩ := List.getElem?_eq_some_iff.1 hkcp
              have hlength : (sessions.take index).length = index := by
                rw [List.length_take]
                omega
              refine ⟨sessions.take index, kcp, sessions.drop (index + 1), after, ?_, ?_,
                .inr ⟨by rw [hlength], hstep, rfl⟩⟩
              · rw [← hget, List.cons_getElem_drop_succ, List.take_append_drop]
              · exact List.set_eq_take_cons_drop after hlt

end Steps

/-! ## One session -/

/-- The mutex has the holder that the positions of the two processes say, and the flag is cleared
when `removeCam` joins. -/
structure KcpSession.Exclusive (kcp : KcpSession) : Prop where
  updating : kcp.updateThread = .updating ↔ kcp.owner = some .updateThread
  removing : kcp.removal = .clearing ∨ kcp.removal = .joining ∨ kcp.removal = .releasing ↔
    kcp.owner = some .removeCam
  cleared : kcp.removal = .joining → kcp.session.kcpRuning = false

/-- Moreover, the thread does not wait for the mutex while `removeCam` holds it and has not
joined. -/
structure KcpSession.Safe (kcp : KcpSession) : Prop extends kcp.Exclusive where
  outside : kcp.removal = .clearing ∨ kcp.removal = .joining → kcp.updateThread ≠ .locking

section Session

variable {kcp after : KcpSession} {events : List Event}

/-- A step of the thread outside the window keeps the session safe. -/
theorem KcpSession.Safe.update (hsafe : kcp.Safe)
    (houtside : kcp.updateThread = .testing → kcp.removal ≠ .clearing)
    (h : kcp.update = .ok after) : after.Safe := by
  obtain ⟨⟨hupdating, hremoving, hcleared⟩, hwindow⟩ := hsafe
  unfold KcpSession.update at h
  cases hthread : kcp.updateThread with
  | testing =>
      rw [hthread] at h hupdating
      cases h
      have hclearing := houtside hthread
      refine ⟨⟨?_, hremoving, hcleared⟩, ?_⟩
      · show (if kcp.session.kcpRuning then UpdateThread.locking else .ended) = .updating ↔ _
        rw [← hupdating]
        split <;> simp
      · -- a thread that tests the flag while it is joined finds it cleared
        rintro (hphase | hphase)
        · exact absurd hphase hclearing
        · show (if kcp.session.kcpRuning then UpdateThread.locking else .ended) ≠ .locking
          rw [hcleared hphase]
          simp
  | locking =>
      rw [hthread] at h hupdating
      simp only at h
      split at h
      · rename_i hfree
        cases h
        rw [hfree] at hremoving
        exact ⟨⟨by simp, by simpa using hremoving, hcleared⟩, by simp⟩
      · cases h
  | updating =>
      rw [hthread] at h hupdating
      cases h
      rw [hupdating.1 rfl] at hremoving
      exact ⟨⟨by simp, by simpa using hremoving, hcleared⟩, by simp⟩
  | sleeping =>
      rw [hthread] at h hupdating
      cases h
      exact ⟨⟨by simpa using hupdating, hremoving, hcleared⟩, by simp⟩
  | ended =>
      rw [hthread] at h
      cases h

/-- A step of `removeCam` outside the window keeps the session safe. -/
theorem KcpSession.Safe.remove (hsafe : kcp.Safe)
    (houtside : kcp.removal = .locking → kcp.updateThread ≠ .locking)
    (h : kcp.remove = .ok (after, events)) : after.Safe := by
  obtain ⟨⟨hupdating, hremoving, hcleared⟩, hwindow⟩ := hsafe
  unfold KcpSession.remove at h
  cases hphase : kcp.removal with
  | locking =>
      rw [hphase] at h
      simp only at h
      split at h
      · rename_i hfree
        cases h
        rw [hfree] at hupdating
        exact ⟨⟨by simpa using hupdating, by simp, by simp⟩, fun _ => houtside hphase⟩
      · cases h
  | clearing =>
      rw [hphase] at h hremoving
      cases h
      exact ⟨⟨hupdating, by simpa using hremoving, fun _ => rfl⟩, fun _ => hwindow (.inl hphase)⟩
  | joining =>
      rw [hphase] at h hremoving
      simp only at h
      split at h
      · cases h
        exact ⟨⟨hupdating, by simpa using hremoving, by simp⟩, by simp⟩
      · split at h
        · cases h
          exact ⟨⟨hupdating, by simpa using hremoving, by simp⟩, by simp⟩
        · cases h
  | releasing =>
      rw [hphase] at h hremoving
      cases h
      rw [hremoving.1 (by simp)] at hupdating
      exact ⟨⟨by simpa using hupdating, by simp, by simp⟩, by simp⟩
  | removed =>
      rw [hphase] at h
      cases h

/-- A safe session that is not removed lets `removeCam` or its thread take a step. -/
theorem KcpSession.Safe.progress (hsafe : kcp.Safe) (h : kcp.removal ≠ .removed) :
    (∃ result, kcp.remove = .ok result) ∨ ∃ after, kcp.update = .ok after := by
  obtain ⟨⟨hupdating, hremoving, hcleared⟩, hwindow⟩ := hsafe
  unfold KcpSession.remove KcpSession.update
  cases hphase : kcp.removal with
  | locking =>
      rw [hphase] at hremoving
      -- the mutex is free, or the thread has it and gives it back
      cases howner : kcp.owner with
      | none => exact .inl ⟨_, rfl⟩
      | some owner =>
          cases owner with
          | updateThread =>
              rw [hupdating.2 howner]
              exact .inr ⟨_, rfl⟩
          | removeCam => simpa using hremoving.2 howner
  | clearing => exact .inl ⟨_, rfl⟩
  | joining =>
      cases hthread : kcp.updateThread with
      | testing => exact .inr ⟨_, rfl⟩
      | locking => exact absurd hthread (hwindow (.inr hphase))
      | updating => exact .inr ⟨_, rfl⟩
      | sleeping => exact .inr ⟨_, rfl⟩
      | ended =>
          left
          cases kcp.session.kcpThread with
          | none => exact ⟨_, rfl⟩
          | some thread => exact ⟨_, rfl⟩
  | releasing => exact .inl ⟨_, rfl⟩
  | removed => exact absurd hphase h

end Session

/-! ## Runs -/

section Runs

variable {sessions final : List KcpSession} {trace : List Event}

/-- A step outside the window keeps all sessions safe. -/
theorem safe_step {next : List KcpSession} {process : Process} {events : List Event}
    (hsafe : ∀ kcp ∈ sessions, kcp.Safe) (houtside : OutsideWindow sessions process)
    (h : processStep sessions process = .ok (next, events)) : ∀ kcp ∈ next, kcp.Safe := by
  obtain ⟨past, kcp, rest, after, rfl, rfl, hcases⟩ := process_step_ok h
  have hkcp := hsafe kcp (by simp)
  have hafter : after.Safe := by
    rcases hcases with ⟨rfl, hpast, hcurrent, hstep⟩ | ⟨rfl, hstep, -⟩
    · have hfirst : (past ++ kcp :: rest).find? (fun kcp => kcp.removal ≠ .removed) = some kcp := by
        rw [List.find?_append, List.find?_eq_none.2 (by simpa using hpast)]
        simp [hcurrent]
      exact hkcp.remove (houtside kcp hfirst) hstep
    · exact hkcp.update (houtside kcp (by simp)) hstep
  intro other hother
  rcases List.mem_append.1 hother with hother | hother
  · exact hsafe other (List.mem_append_left _ hother)
  · rcases List.mem_cons.1 hother with rfl | hother
    · exact hafter
    · exact hsafe other (List.mem_append_right _ (List.mem_cons_of_mem _ hother))

/-- The first session that is not removed. -/
theorem first_left (h : ∃ kcp ∈ sessions, kcp.removal ≠ .removed) :
    ∃ past kcp rest, sessions = past ++ kcp :: rest ∧
      (∀ other ∈ past, other.removal = .removed) ∧ kcp.removal ≠ .removed := by
  induction sessions with
  | nil => simp at h
  | cons kcp rest ih =>
      by_cases hkcp : kcp.removal = .removed
      · have hrest : ∃ other ∈ rest, other.removal ≠ .removed := by simpa [hkcp] using h
        obtain ⟨past, current, later, rfl, hpast, hcurrent⟩ := ih hrest
        exact ⟨kcp :: past, current, later, rfl, List.forall_mem_cons.2 ⟨hkcp, hpast⟩, hcurrent⟩
      · exact ⟨[], kcp, rest, rfl, by simp, hkcp⟩

/-- Safe sessions are not in a deadlock. -/
theorem safe_free (hsafe : ∀ kcp ∈ sessions, kcp.Safe) : NoDeadlock sessions := by
  refine ⟨fun kcp hkcp hdeadlock => ?_, fun hleft => ?_⟩
  · exact (hsafe kcp hkcp).outside (.inr hdeadlock.joining) hdeadlock.locking
  · obtain ⟨past, kcp, rest, rfl, hpast, hcurrent⟩ := first_left hleft
    rcases (hsafe kcp (by simp)).progress hcurrent with ⟨⟨after, events⟩, hstep⟩ | ⟨after, hstep⟩
    · refine ⟨.removeCam, (past ++ after :: rest, events), ?_, .inl rfl⟩
      show removeStep (past ++ kcp :: rest) = _
      rw [remove_step_eq rest hpast hcurrent, hstep]
      rfl
    · refine ⟨.kcpUpdateThread past.length, (past ++ after :: rest, []), ?_,
        .inr ⟨past, kcp, rest, rfl, rfl, hpast, hcurrent⟩⟩
      simp [processStep, hstep, Except.map]

end Runs

/-- In every run of `removeCam` and the threads whose steps are all outside the window, no state
that is reached is a deadlock. -/
theorem removal_free (sessions : List UdpSession) (processes : List Process)
    (final : List KcpSession) (trace : List Event)
    (houtside : Machine.Guarded processStep OutsideWindow (startRemoval sessions) processes)
    (h : Machine.run processStep (startRemoval sessions) processes = .ok (final, trace)) :
    NoDeadlock final := by
  refine safe_free (Machine.run_guarded (fun sessions => ∀ kcp ∈ sessions, kcp.Safe)
    (fun _ _ _ _ hsafe hguard hstep => safe_step hsafe hguard hstep) ?_ houtside h)
  intro kcp hkcp
  obtain ⟨session, -, rfl⟩ := List.mem_map.1 hkcp
  exact ⟨⟨by simp, by simp, by simp⟩, by simp⟩

/-- `removeCam` takes the mutex while the thread sleeps, clears the flag and waits. -/
theorem removal_free_sleeping :
    let session := UdpSession.create (ascii "10.0.0.5") 5000 5001 1001 0
    NoDeadlock [⟨{ session with kcpRuning := false }, some .removeCam, .sleeping, .joining⟩] := by
  let session := UdpSession.create (ascii "10.0.0.5") 5000 5001 1001 0
  refine removal_free [session] [.kcpUpdateThread 0, .kcpUpdateThread 0, .kcpUpdateThread 0,
    .removeCam, .removeCam] _ [] ?_ rfl
  have hthread : ∀ owner updateThread, OutsideWindow [⟨session, owner, updateThread, .locking⟩]
      (.kcpUpdateThread 0) := by
    rintro owner updateThread kcp hkcp -
    cases hkcp
    simp
  refine Machine.guarded_cons (hthread _ _) rfl (Machine.guarded_cons (hthread _ _) rfl
    (Machine.guarded_cons (hthread _ _) rfl (Machine.guarded_cons ?_ rfl
      (Machine.guarded_cons ?_ rfl trivial))))
  · intro kcp hkcp hlocking
    cases hkcp
    simp
  · intro kcp hkcp hlocking
    cases hkcp
    cases hlocking

/-- The thread has tested its flag when `removeCam` takes the mutex: the thread waits for the mutex,
and `removeCam` for the thread. -/
theorem removal_free_fails_window :
    ¬ ∀ (sessions : List UdpSession) (processes : List Process) (final : List KcpSession)
      (trace : List Event),
      Machine.run processStep (startRemoval sessions) processes = .ok (final, trace) →
      NoDeadlock final := by
  intro h
  let session := UdpSession.create (ascii "10.0.0.5") 5000 5001 1001 0
  let waiting : KcpSession :=
    ⟨{ session with kcpRuning := false }, some .removeCam, .locking, .joining⟩
  have hdeadlock := h [session] [.kcpUpdateThread 0, .removeCam, .removeCam] [waiting] [] rfl
  exact hdeadlock.free waiting List.mem_cons_self ⟨rfl, rfl, rfl⟩

/-! ## After the window -/

section Deadlock

variable {sessions next final : List KcpSession} {kcp : KcpSession} {trace : List Event}

/-- A thread leaves its session and the position of `removeCam` alone. -/
theorem KcpSession.update_frame {after : KcpSession} (h : kcp.update = .ok after) :
    after.session = kcp.session ∧ after.removal = kcp.removal := by
  unfold KcpSession.update at h
  split at h
  · cases h
    exact ⟨rfl, rfl⟩
  · split at h
    · cases h
      exact ⟨rfl, rfl⟩
    · cases h
  · cases h
    exact ⟨rfl, rfl⟩
  · cases h
    exact ⟨rfl, rfl⟩
  · cases h

/-- Neither process of a session in a deadlock can take a step. -/
theorem KcpSession.Deadlock.blocked (h : kcp.Deadlock) (hthread : kcp.session.kcpThread ≠ none) :
    kcp.remove = .error .blocked ∧ kcp.update = .error .blocked := by
  unfold KcpSession.remove KcpSession.update
  rw [h.joining, h.locking, h.owner]
  obtain ⟨thread, hsome⟩ := Option.ne_none_iff_exists'.1 hthread
  rw [hsome]
  exact ⟨rfl, rfl⟩

/-- A deadlock stays: `removeCam` does not get behind the session. -/
theorem deadlock_stays {past rest : List KcpSession} {processes : List Process}
    (hpast : ∀ other ∈ past, other.removal = .removed) (hdeadlock : kcp.Deadlock)
    (hthread : kcp.session.kcpThread ≠ none)
    (h : Machine.run processStep (past ++ kcp :: rest) processes = .ok (final, trace)) :
    ∃ before after, final = before ++ kcp :: after ∧
      ∀ other ∈ before, other.removal = .removed := by
  obtain ⟨hremove, hupdate⟩ := hdeadlock.blocked hthread
  have hcurrent : kcp.removal ≠ .removed := by
    rw [hdeadlock.joining]
    simp
  refine (Machine.run_invariant (fun sessions => ∃ before after, sessions = before ++ kcp :: after ∧
    ∀ other ∈ before, other.removal = .removed) (fun _ => True) (fun _ => True) ?_
    ⟨past, rest, rfl, hpast⟩ (fun _ _ => trivial) h).1
  rintro sessions process next events ⟨before, after, rfl, hbefore⟩ - hstep
  refine ⟨?_, fun _ _ => trivial⟩
  cases process with
  | removeCam =>
      have hblocked := remove_step_eq after hbefore hcurrent
      rw [hremove] at hblocked
      change removeStep _ = _ at hstep
      rw [hblocked] at hstep
      cases hstep
  | kcpUpdateThread index =>
      obtain ⟨first, other, last, changed, hsessions, rfl, hcases⟩ := process_step_ok hstep
      obtain ⟨-, hchanged, -⟩ := hcases.resolve_left fun hother => by cases hother.1
      obtain ⟨-, hremoval⟩ := KcpSession.update_frame hchanged
      -- the thread is one of a session before or behind the one in the deadlock
      have hother : other ≠ kcp := by
        rintro rfl
        rw [hupdate] at hchanged
        cases hchanged
      rcases List.append_eq_append_iff.1 hsessions.symm with ⟨middle, rfl, hsplit⟩ |
        ⟨middle, rfl, hsplit⟩
      · cases middle with
        | nil => exact absurd (List.cons.inj hsplit).1 hother
        | cons head middle =>
            obtain ⟨rfl, rfl⟩ := List.cons.inj hsplit
            refine ⟨first ++ changed :: middle, after, by simp, fun kcp hkcp => ?_⟩
            rcases List.mem_append.1 hkcp with hkcp | hkcp
            · exact hbefore kcp (List.mem_append_left _ hkcp)
            · rcases List.mem_cons.1 hkcp with rfl | hkcp
              · rw [hremoval]
                exact hbefore other (by simp)
              · exact hbefore kcp (by simp [hkcp])
      · cases middle with
        | nil => exact absurd (List.cons.inj hsplit).1.symm hother
        | cons head middle =>
            obtain ⟨rfl, rfl⟩ := List.cons.inj hsplit
            exact ⟨before, middle ++ changed :: last, by simp, hbefore⟩

end Deadlock

/-! ## When `removeCam` returns -/

/-- What `removeCam` has made of a session, and the calls it has made for it, at each position. -/
def stopped (session : UdpSession) : Removal → UdpSession × List Event
  | .locking => (session, [])
  | .clearing => (session, [])
  | .joining => ({ session with kcpRuning := false }, [])
  | .releasing =>
      ({ session with kcpRuning := false, kcpThread := none },
        session.kcpThread.toList.map .joinThread)
  | .removed => session.stop

/-- The sessions before `removeCam` beside what has become of them, with the calls made so far:
behind a session that is not removed, none has been touched. -/
structure Stopping (entries : List (UdpSession × KcpSession)) (trace : List Event) : Prop where
  sessions : ∀ entry ∈ entries, entry.2.session = (stopped entry.1 entry.2.removal).1
  calls : trace = entries.flatMap fun entry => (stopped entry.1 entry.2.removal).2
  order : entries.Pairwise fun entry later =>
    entry.2.removal = .removed ∨ later.2.removal = .locking

section Returned

variable {sessions next final : List KcpSession} {kcp after : KcpSession} {session : UdpSession}
  {events trace : List Event}

/-- A step of `removeCam` takes a session to the next position. -/
theorem KcpSession.remove_stopped (hsession : kcp.session = (stopped session kcp.removal).1)
    (h : kcp.remove = .ok (after, events)) :
    after.session = (stopped session after.removal).1 ∧
      (stopped session after.removal).2 = (stopped session kcp.removal).2 ++ events := by
  unfold KcpSession.remove at h
  cases hphase : kcp.removal with
  | locking =>
      rw [hphase] at h hsession
      simp only at h
      split at h
      · cases h
        exact ⟨hsession, rfl⟩
      · cases h
  | clearing =>
      rw [hphase] at h hsession
      cases h
      exact ⟨congrArg (fun session : UdpSession =>
        { session with kcpRuning := false }) hsession, rfl⟩
  | joining =>
      rw [hphase] at h hsession
      simp only [stopped] at h hsession ⊢
      split at h
      · rename_i hthread
        cases h
        rw [hsession] at hthread
        simp only at hthread
        simp [hsession, hthread]
      · rename_i thread hthread
        split at h
        · cases h
          rw [hsession] at hthread
          simp only at hthread
          simp [hsession, hthread]
        · cases h
  | releasing =>
      rw [hphase] at h hsession
      cases h
      simp [stopped, UdpSession.stop, hsession]
  | removed =>
      rw [hphase] at h
      cases h

/-- A step of a process keeps the record of what `removeCam` has done. -/
theorem Stopping.step {entries : List (UdpSession × KcpSession)} {process : Process}
    (h : Stopping entries trace)
    (hstep : processStep (entries.map Prod.snd) process = .ok (next, events)) :
    ∃ following : List (UdpSession × KcpSession), following.map Prod.snd = next ∧
      following.map Prod.fst = entries.map Prod.fst ∧ Stopping following (trace ++ events) := by
  obtain ⟨past, kcp, rest, after, hsplit, rfl, hcases⟩ := process_step_ok hstep
  obtain ⟨before, later, rfl, rfl, hlater⟩ := List.map_eq_append_iff.1 hsplit
  obtain ⟨⟨session, kcp⟩, later, rfl, rfl, rfl⟩ := List.map_eq_cons_iff.1 hlater
  obtain ⟨hsessions, hcalls, horder⟩ := h
  obtain ⟨hbefore, hbehind, hcross⟩ := List.pairwise_append.1 horder
  obtain ⟨hnext, hrest⟩ := List.pairwise_cons.1 hbehind
  have hsession := hsessions (session, kcp) (by simp)
  -- the record of one session, with the calls of the step
  have hone : after.session = (stopped session after.removal).1 ∧
      trace ++ events = (before ++ (session, after) :: later).flatMap
        (fun entry => (stopped entry.1 entry.2.removal).2) ∧
      (∀ entry ∈ before, entry.2.removal = .removed ∨ after.removal = .locking) ∧
      ∀ entry ∈ later, after.removal = .removed ∨ entry.2.removal = .locking := by
    rcases hcases with ⟨-, hpast, hcurrent, hremove⟩ | ⟨-, hupdate, rfl⟩
    · obtain ⟨hafter, hevents⟩ := KcpSession.remove_stopped hsession hremove
      have hlocking : ∀ entry ∈ later, entry.2.removal = .locking := fun entry hentry =>
        (hnext entry hentry).resolve_left hcurrent
      have hnone : later.flatMap (fun entry => (stopped entry.1 entry.2.removal).2) = [] := by
        refine List.flatMap_eq_nil_iff.2 fun entry hentry => ?_
        rw [hlocking entry hentry]
        rfl
      refine ⟨hafter, ?_, fun entry hentry => ?_, fun entry hentry => .inr (hlocking entry hentry)⟩
      · rw [hcalls, List.flatMap_append, List.flatMap_append, List.flatMap_cons, List.flatMap_cons,
          hnone, hevents]
        simp
      · exact .inl (hpast entry.2 (List.mem_map_of_mem hentry))
    · obtain ⟨hsame, hremoval⟩ := KcpSession.update_frame hupdate
      rw [hsame, hremoval]
      refine ⟨hsession, ?_, fun entry hentry => hcross entry hentry _ List.mem_cons_self, hnext⟩
      rw [hcalls, List.append_nil, List.flatMap_append, List.flatMap_append, List.flatMap_cons,
        List.flatMap_cons, hremoval]
  obtain ⟨hafter, htrace, hleft, hright⟩ := hone
  refine ⟨before ++ (session, after) :: later, by simp, by simp, fun entry hentry => ?_, htrace, ?_⟩
  · rcases List.mem_append.1 hentry with hentry | hentry
    · exact hsessions entry (List.mem_append_left _ hentry)
    · rcases List.mem_cons.1 hentry with rfl | hentry
      · exact hafter
      · exact hsessions entry (List.mem_append_right _ (List.mem_cons_of_mem _ hentry))
  · refine List.pairwise_append.2 ⟨hbefore, List.pairwise_cons.2 ⟨hright, hrest⟩, ?_⟩
    intro entry hentry other hother
    rcases List.mem_cons.1 hother with rfl | hother
    · exact hleft entry hentry
    · exact hcross entry hentry other (List.mem_cons_of_mem _ hother)

/-- When `removeCam` has returned, it has stopped every session, in their order. -/
theorem returned_stops {sessions : List UdpSession} {processes : List Process}
    (h : Machine.run processStep (startRemoval sessions) processes = .ok (final, trace))
    (hreturned : ∀ kcp ∈ final, kcp.removal = .removed) :
    final.map (fun kcp => kcp.session) = sessions.map (fun session => session.stop.1) ∧
      trace = sessions.flatMap fun session => session.stop.2 := by
  have hrecord : ∃ entries : List (UdpSession × KcpSession), entries.map Prod.snd = final ∧
      entries.map Prod.fst = sessions ∧ Stopping entries trace := by
    refine Machine.run_history (fun _ trace state => ∃ entries : List (UdpSession × KcpSession),
      entries.map Prod.snd = state ∧ entries.map Prod.fst = sessions ∧ Stopping entries trace)
      (fun _ => True) ?_ ?_ (fun _ _ => trivial) h
    · rintro - trace state process following out ⟨entries, rfl, hfirst, hstopping⟩ - hstep
      obtain ⟨next, hnext, hsame, hfollowing⟩ := hstopping.step hstep
      exact ⟨next, hnext, hsame.trans hfirst, hfollowing⟩
    · refine ⟨sessions.map fun session => (session, ⟨session, none, .testing, .locking⟩), ?_, ?_,
        ?_, ?_, ?_⟩
      · rw [List.map_map]
        rfl
      · rw [List.map_map]
        exact List.map_id sessions
      · intro entry hentry
        obtain ⟨session, -, rfl⟩ := List.mem_map.1 hentry
        rfl
      · simp [stopped]
      · rw [List.pairwise_map]
        exact List.pairwise_of_forall fun _ _ => .inr rfl
  obtain ⟨entries, rfl, rfl, hsessions, rfl, -⟩ := hrecord
  have hremoved : ∀ entry ∈ entries, entry.2.removal = .removed := fun entry hentry =>
    hreturned entry.2 (List.mem_map_of_mem hentry)
  rw [List.map_map, List.map_map, List.flatMap_map]
  refine ⟨List.map_congr_left fun entry hentry => ?_, ?_⟩
  · show entry.2.session = entry.1.stop.1
    rw [hsessions entry hentry, hremoved entry hentry]
    rfl
  · refine List.flatMap_congr fun entry hentry => ?_
    rw [hremoved entry hentry]
    rfl

/-- The sessions of a camera, in the order of the clients' descriptors. -/
def MonitorServer.camSessions (server : MonitorServer) (sessionId : Bytes) : List UdpSession :=
  server.qtClients.toList.filterMap fun entry => entry.2.sessionMap[sessionId]?

/-- The calls other than `send`. -/
def stopCalls (events : List Event) : List Event :=
  events.filter fun event => match event with
    | .send _ _ => false
    | _ => true

/-- When the processes of a server's sessions have let `removeCam` return, it has made the calls
that `MonitorServer.removeCam` lists. -/
theorem remove_cam_returns (server : MonitorServer) (sessionId : Bytes) {processes : List Process}
    (h : Machine.run processStep (startRemoval (server.camSessions sessionId)) processes =
      .ok (final, trace))
    (hreturned : ∀ kcp ∈ final, kcp.removal = .removed) :
    trace = stopCalls (server.removeCam sessionId).2 := by
  rw [(returned_stops h hreturned).2]
  unfold MonitorServer.camSessions MonitorServer.removeCam MonitorServer.forClients stopCalls
  simp only
  induction server.qtClients.toList with
  | nil => rfl
  | cons entry rest ih =>
      rw [List.flatMap_cons, List.filter_append, ← ih, List.filterMap_cons]
      unfold MonitorServer.withdrawCam
      cases hsession : entry.2.sessionMap[sessionId]? with
      | none => simp
      | some session =>
          have hstop : (session.stop.2).filter (fun event => match event with
              | .send _ _ => false
              | _ => true) = session.stop.2 := by
            refine List.filter_eq_self.2 fun event hevent => ?_
            unfold UdpSession.stop at hevent
            rcases List.mem_append.1 hevent with hevent | hevent
            · obtain ⟨thread, -, rfl⟩ := List.mem_map.1 hevent
              rfl
            · obtain ⟨block, -, rfl⟩ := List.mem_map.1 hevent
              rfl
          simp only [List.flatMap_cons, List.filter_cons, hstop]
          simp

end Returned

end CarDetect.Monitor
