import CarDetect.Monitor.Registration

/-!
# Readiness of the sockets of the monitor loop

`loopStep` puts `MonitorServer::acceptLoop` beside the kernel: sockets that fill, the edges that
`epoll` has not reported yet, and the batch of events that the loop works through. A socket or the
listening socket is reported once after each arrival, and the loop accepts one connection or makes
one `recv` for each report. `no_edge_lost` says for which runs nothing is left unread without an
edge when the loop returns to `epoll_wait`.
-/

namespace CarDetect.Monitor

open BigEndian ByteString Reactor Std

/-! ## The loop and the kernel -/

/-- A connection as the kernel keeps it: the bytes that have not been read, whether the peer has
closed it, and whether an edge has not been reported yet. -/
structure Socket where
  clientIp : Bytes
  unread : Bytes
  closed : Bool
  edge : Bool
deriving DecidableEq, Repr

/-- `recv` would return at once. -/
def Socket.Readable (socket : Socket) : Prop :=
  socket.unread ≠ [] ∨ socket.closed = true

instance (socket : Socket) : Decidable socket.Readable :=
  inferInstanceAs (Decidable (_ ∨ _))

/-- What a peer does. -/
inductive Arrival where
  | bytes (chunk : Bytes)
  | close
deriving DecidableEq, Repr

/-- Each arrival is an edge. -/
def Socket.arrive (socket : Socket) : Arrival → Socket
  | .bytes chunk => { socket with unread := socket.unread ++ chunk, edge := true }
  | .close => { socket with closed := true, edge := true }

/-- An event that `epoll_wait` reports. -/
inductive Ready where
  | listen
  | client (fd : Int)
deriving DecidableEq, Repr

/-- The server, the connections that are not accepted yet, the sockets in the `epoll` set, and the
events of the batch that are left. With an empty batch the loop is at `epoll_wait`. -/
structure Loop where
  server : MonitorServer
  pending : List Socket
  listenEdge : Bool
  sockets : TreeMap Int Socket
  batch : List Ready

/-- What can happen next: a connection or something on it, a call of `addCam` or `removeCam`, the
return of `epoll_wait` with a batch, or the next turn of the loop, with the descriptor that `accept`
would return. -/
inductive LoopInput where
  | connect (clientIp : Bytes)
  | arrivePending (index : Nat) (arrival : Arrival)
  | arrive (fd : Int) (arrival : Arrival)
  | addCam (sessionId stringName : Bytes)
  | removeCam (sessionId : Bytes)
  | wait (batch : List Ready)
  | turn (connfd : Int)
deriving DecidableEq, Repr

/-- The program ends, the call blocks, or the input cannot happen. -/
inductive LoopHalt where
  | server (halt : Halt)
  | blocks
  | notReported
  | noEvent
deriving DecidableEq, Repr

/-- The size of `buf`. -/
def recvSize : Nat := 256

namespace Loop

/-- Before the first connection. -/
def start (text : Bytes) : Loop := ⟨.start text, [], false, ∅, []⟩

/-- `epoll_wait` can report this event: there is an edge, and something to be read or accepted. -/
def Reports (loop : Loop) : Ready → Prop
  | .listen => loop.listenEdge = true ∧ loop.pending ≠ []
  | .client fd => ∃ socket ∈ loop.sockets[fd]?, socket.edge = true ∧ socket.Readable

instance (loop : Loop) : DecidablePred loop.Reports
  | .listen => inferInstanceAs (Decidable (_ ∧ _))
  | .client _ => inferInstanceAs (Decidable (∃ socket ∈ _, _))

/-- The edges that are left when a batch has been reported. -/
def report (loop : Loop) (batch : List Ready) : Loop :=
  { loop with
    listenEdge := loop.listenEdge && !batch.contains .listen
    sockets := loop.sockets.map fun fd socket =>
      { socket with edge := socket.edge && !batch.contains (.client fd) }
    batch := batch }

/-- A call into the server, with the loop as it is afterwards. -/
def call (loop : Loop) (input : Input) : Except LoopHalt (Loop × List Event) :=
  match loop.server.step input with
  | .error halt => .error (.server halt)
  | .ok (server, events) => .ok ({ loop with server := server }, events)

/-- The branch of the listening socket: one `accept`. A socket that is readable when it is added to
the `epoll` set has an edge. -/
def acceptOne (loop : Loop) (rest : List Ready) (connfd : Int) :
    Except LoopHalt (Loop × List Event) :=
  match loop.pending with
  | [] => .error .blocks
  | socket :: pending =>
      call { loop with
        pending := pending
        sockets := loop.sockets.insert connfd { socket with edge := decide socket.Readable }
        batch := rest } (.accept connfd socket.clientIp)

/-- The branch of a client: one `recv`. At the end of the stream the loop is left, and the rest of
the batch with it. -/
def receiveOne (loop : Loop) (rest : List Ready) (fd : Int) (socket : Socket) :
    Except LoopHalt (Loop × List Event) :=
  if socket.unread ≠ [] then
    call { loop with
      sockets := loop.sockets.insert fd { socket with unread := socket.unread.drop recvSize }
      batch := rest } (.receive fd (.bytes (socket.unread.take recvSize)))
  else if socket.closed then
    call { loop with sockets := loop.sockets.erase fd, batch := [] } (.receive fd (.bytes []))
  else .error .blocks

/-- One turn of the loop over the batch. -/
def turn (loop : Loop) (connfd : Int) : Except LoopHalt (Loop × List Event) :=
  match loop.batch with
  | [] => .error .noEvent
  | .listen :: rest => loop.acceptOne rest connfd
  | .client fd :: rest =>
      match loop.sockets[fd]? with
      | none => .ok ({ loop with batch := rest }, [])
      | some socket => loop.receiveOne rest fd socket

/-- One event. -/
def step (loop : Loop) : LoopInput → Except LoopHalt (Loop × List Event)
  | .connect clientIp =>
      .ok ({ loop with
        pending := loop.pending ++ [⟨clientIp, [], false, false⟩], listenEdge := true }, [])
  | .arrivePending index arrival =>
      .ok ({ loop with pending := loop.pending.modify index (·.arrive arrival) }, [])
  | .arrive fd arrival =>
      .ok ({ loop with sockets := loop.sockets.modify fd (·.arrive arrival) }, [])
  | .addCam sessionId stringName => loop.call (.addCam sessionId stringName)
  | .removeCam sessionId => loop.call (.removeCam sessionId)
  | .wait batch =>
      if loop.batch = [] ∧ batch.Nodup ∧ ∀ ready ∈ batch, loop.Reports ready then
        .ok (loop.report batch, [])
      else .error .notReported
  | .turn connfd => loop.turn connfd

end Loop

/-! ## The property -/

/-- The turn leaves nothing behind: at most one connection is pending at the listening socket, at
most 256 bytes are unread at a client's socket, and a closed connection comes last in its batch,
each unless there is a new edge. -/
def LeavesNothing (loop : Loop) : LoopInput → Prop
  | .turn _ =>
      match loop.batch with
      | [] => True
      | .listen :: _ => loop.pending.length ≤ 1 ∨ loop.listenEdge = true
      | .client fd :: rest => ∀ socket ∈ loop.sockets[fd]?,
          (socket.unread.length ≤ recvSize ∨ socket.edge = true) ∧
          (socket.unread = [] →
            (.listen ∈ rest → loop.pending = [] ∨ loop.listenEdge = true) ∧
            ∀ (other : Int) (behind : Socket), .client other ∈ rest →
              loop.sockets[other]? = some behind → behind.unread = [] ∨ behind.edge = true)
  | _ => True

/-! ## Steps -/

/-- What is pending or unread has an edge, or its event is in the batch. -/
structure Covered (loop : Loop) : Prop where
  listening : loop.pending ≠ [] → loop.listenEdge = true ∨ .listen ∈ loop.batch
  clients : ∀ (fd : Int) (socket : Socket), loop.sockets[fd]? = some socket →
    socket.unread ≠ [] → socket.edge = true ∨ .client fd ∈ loop.batch

section Steps

variable {loop next : Loop} {events : List Event} {rest : List Ready} {fd connfd : Int}
  {socket : Socket}

/-- A call into the server leaves the kernel alone. -/
theorem Loop.call_ok {input : Input} (h : loop.call input = .ok (next, events)) :
    ∃ server, loop.server.step input = .ok (server, events) ∧
      next = { loop with server := server } := by
  unfold Loop.call at h
  split at h
  · cases h
  · rename_i server out hstep
    cases h
    exact ⟨server, hstep, rfl⟩

theorem Covered.call {input : Input} (hcovered : Covered loop)
    (h : loop.call input = .ok (next, events)) : Covered next := by
  obtain ⟨server, -, rfl⟩ := Loop.call_ok h
  exact ⟨hcovered.listening, hcovered.clients⟩

/-- An arrival is an edge. -/
theorem Covered.arrive (hcovered : Covered loop) (fd : Int) (arrival : Arrival) :
    Covered { loop with sockets := loop.sockets.modify fd (·.arrive arrival) } := by
  refine ⟨hcovered.listening, fun other socket hsocket hunread => ?_⟩
  simp only at hsocket
  rw [TreeMap.getElem?_modify] at hsocket
  split at hsocket
  · obtain ⟨before, -, rfl⟩ := Option.map_eq_some_iff.1 hsocket
    cases arrival <;> exact .inl rfl
  · exact hcovered.clients other socket hsocket hunread

/-- At `epoll_wait` everything has an edge, which is left or in the batch that is reported. -/
theorem Covered.report (hcovered : Covered loop) (hwaiting : loop.batch = []) (batch : List Ready) :
    Covered (loop.report batch) := by
  obtain ⟨hlistening, hclients⟩ := hcovered
  rw [hwaiting] at hlistening hclients
  refine ⟨fun hpending => ?_, fun fd socket hsocket hunread => ?_⟩
  · have hedge := (hlistening hpending).resolve_right (by simp)
    show (loop.listenEdge && !batch.contains .listen) = true ∨ .listen ∈ batch
    by_cases hreported : .listen ∈ batch
    · exact .inr hreported
    · exact .inl (by simp [hedge, hreported])
  · unfold Loop.report at hsocket
    simp only at hsocket
    rw [TreeMap.getElem?_map] at hsocket
    obtain ⟨before, hbefore, rfl⟩ := Option.map_eq_some_iff.1 hsocket
    have hedge := (hclients fd before hbefore hunread).resolve_right (by simp)
    show (before.edge && !batch.contains (.client fd)) = true ∨ .client fd ∈ batch
    by_cases hreported : .client fd ∈ batch
    · exact .inr hreported
    · exact .inl (by simp [hedge, hreported])

/-- One `accept` is enough for one connection. -/
theorem Covered.acceptOne (hcovered : Covered loop) (hbatch : loop.batch = .listen :: rest)
    (hguard : loop.pending.length ≤ 1 ∨ loop.listenEdge = true)
    (h : loop.acceptOne rest connfd = .ok (next, events)) : Covered next := by
  obtain ⟨hlistening, hclients⟩ := hcovered
  rw [hbatch] at hclients
  unfold Loop.acceptOne at h
  split at h
  · cases h
  · rename_i socket pending hpending
    refine Covered.call ⟨fun hleft => ?_, fun fd other hother hunread => ?_⟩ h
    · rw [hpending] at hguard
      refine .inl (hguard.resolve_left fun hone => hleft ?_)
      exact List.eq_nil_of_length_eq_zero (by simpa using hone)
    · simp only at hother
      rw [TreeMap.getElem?_insert] at hother
      split at hother
      · cases hother
        have hreadable : socket.Readable := .inl hunread
        exact .inl (decide_eq_true hreadable)
      · exact (hclients fd other hother hunread).imp_right fun hmem => by simpa using hmem

/-- One `recv` is enough for 256 bytes, and the end of a stream when nothing is behind it in the
batch. -/
theorem Covered.receiveOne (hcovered : Covered loop) (hbatch : loop.batch = .client fd :: rest)
    (hsocket : loop.sockets[fd]? = some socket)
    (hguard : LeavesNothing loop (.turn connfd))
    (h : loop.receiveOne rest fd socket = .ok (next, events)) : Covered next := by
  obtain ⟨hlistening, hclients⟩ := hcovered
  unfold LeavesNothing at hguard
  rw [hbatch] at hguard hlistening hclients
  obtain ⟨hshort, hlast⟩ := hguard socket hsocket
  unfold Loop.receiveOne at h
  split at h
  · refine Covered.call ⟨fun hpending => ?_, fun other behind hbehind hunread => ?_⟩ h
    · exact (hlistening hpending).imp_right fun hmem => by simpa using hmem
    · simp only at hbehind
      rw [TreeMap.getElem?_insert] at hbehind
      split at hbehind
      · cases hbehind
        refine .inl (hshort.resolve_left fun hle => hunread ?_)
        exact List.drop_eq_nil_of_le hle
      · rename_i hother
        -- another client is reported by its edge or by its turn, which is still to come
        refine (hclients other behind hbehind hunread).imp_right fun hmem => ?_
        rcases List.mem_cons.1 hmem with heq | hmem
        · cases heq
          exact absurd (by simp) hother
        · exact hmem
  · rename_i hempty
    split at h
    · -- the loop is left: what was behind in the batch must have an edge
      obtain ⟨hlisten, hothers⟩ := hlast (not_not.1 hempty)
      refine Covered.call ⟨fun hpending => .inl ?_, fun other behind hbehind hunread => .inl ?_⟩ h
      · rcases hlistening hpending with hedge | hmem
        · exact hedge
        · exact (hlisten (by simpa using hmem)).resolve_left hpending
      · simp only at hbehind
        rw [TreeMap.getElem?_erase] at hbehind
        split at hbehind
        · cases hbehind
        · rename_i hother
          rcases hclients other behind hbehind hunread with hedge | hmem
          · exact hedge
          · rcases List.mem_cons.1 hmem with heq | hmem
            · cases heq
              exact absurd (by simp) hother
            · exact (hothers other behind hmem hbehind).resolve_left hunread
    · cases h

/-- A step that leaves nothing behind keeps everything covered. -/
theorem Covered.step {input : LoopInput} (hcovered : Covered loop)
    (hguard : LeavesNothing loop input) (h : loop.step input = .ok (next, events)) :
    Covered next := by
  cases input with
  | connect clientIp =>
      cases h
      exact ⟨fun _ => .inl rfl, hcovered.clients⟩
  | arrivePending index arrival =>
      cases h
      refine ⟨fun hpending => hcovered.listening fun hnone => hpending ?_, hcovered.clients⟩
      simp [hnone]
  | arrive fd arrival =>
      cases h
      exact hcovered.arrive fd arrival
  | addCam sessionId stringName =>
      change loop.call (.addCam sessionId stringName) = _ at h
      exact hcovered.call h
  | removeCam sessionId =>
      change loop.call (.removeCam sessionId) = _ at h
      exact hcovered.call h
  | wait batch =>
      unfold Loop.step at h
      simp only at h
      split at h
      · rename_i hreports
        cases h
        exact hcovered.report hreports.1 batch
      · cases h
  | turn connfd =>
      change loop.turn connfd = _ at h
      unfold Loop.turn at h
      split at h
      · cases h
      · rename_i rest hbatch
        unfold LeavesNothing at hguard
        rw [hbatch] at hguard
        exact hcovered.acceptOne hbatch hguard h
      · -- the client has gone since the wait: its turn is skipped
        rename_i fd rest hbatch
        split at h
        · rename_i hnone
          cases h
          obtain ⟨hlistening, hclients⟩ := hcovered
          rw [hbatch] at hlistening hclients
          refine ⟨fun hpending => ?_, fun other behind hbehind hunread => ?_⟩
          · exact (hlistening hpending).imp_right fun hmem => by simpa using hmem
          · refine (hclients other behind hbehind hunread).imp_right fun hmem => ?_
            rcases List.mem_cons.1 hmem with heq | hmem
            · cases heq
              rw [hnone] at hbehind
              cases hbehind
            · exact hmem
        · rename_i socket hsocket
          exact hcovered.receiveOne hbatch hsocket hguard h

/-- A turn that leaves something behind loses an edge: nothing reports it until more arrives. -/
theorem turn_loses (hnodup : loop.batch.Nodup) (h : loop.step (.turn connfd) = .ok (next, events))
    (hguard : ¬ LeavesNothing loop (.turn connfd)) : ¬ Covered next := by
  rintro ⟨hlistening, hclients⟩
  change loop.turn connfd = _ at h
  unfold LeavesNothing at hguard
  unfold Loop.turn at h
  split at h
  · cases h
  · rename_i rest hbatch
    rw [hbatch] at hguard hnodup
    simp only [not_or, Nat.not_le] at hguard
    unfold Loop.acceptOne at h
    split at h
    · cases h
    · rename_i socket pending hpending
      obtain ⟨server, -, rfl⟩ := Loop.call_ok h
      rw [hpending, List.length_cons] at hguard
      have hwaiting : pending ≠ [] := fun hnone => by simp [hnone] at hguard
      -- another connection waits, without an edge and with no later turn for it
      rcases hlistening hwaiting with hedge | hmem
      · exact hguard.2 hedge
      · exact (List.nodup_cons.1 hnodup).1 hmem
  · rename_i fd rest hbatch
    rw [hbatch] at hguard hnodup
    split at h
    · rename_i hnone
      simp [hnone] at hguard
    · rename_i socket hsocket
      simp only [hsocket, Option.mem_some_iff, forall_eq'] at hguard
      unfold Loop.receiveOne at h
      split at h
      · rename_i hunread
        obtain ⟨server, -, rfl⟩ := Loop.call_ok h
        -- more bytes than one recv takes, and no edge for them
        have hlong : ¬ (socket.unread.length ≤ recvSize ∨ socket.edge = true) := fun hshort =>
          hguard ⟨hshort, fun hempty => absurd hempty hunread⟩
        obtain ⟨hlong, hedge⟩ := not_or.1 hlong
        have hleft : socket.unread.drop recvSize ≠ [] := fun hnil =>
          hlong (List.drop_eq_nil_iff.1 hnil)
        rcases hclients fd _ TreeMap.getElem?_insert_self hleft with hnew | hmem
        · exact hedge hnew
        · exact (List.nodup_cons.1 hnodup).1 hmem
      · rename_i hunread
        split at h
        · -- the end of a stream ends the loop over the batch
          obtain ⟨server, -, rfl⟩ := Loop.call_ok h
          have hempty := not_not.1 hunread
          refine hguard ⟨.inl (by simp [hempty]), fun _ =>
            ⟨fun _ => ?_, fun other behind hmem hbehind => ?_⟩⟩
          · by_cases hpending : loop.pending = []
            · exact .inl hpending
            · exact .inr ((hlistening hpending).resolve_right (by simp))
          · by_cases hnone : behind.unread = []
            · exact .inl hnone
            · have hother : compare fd other ≠ .eq := by
                intro heq
                rw [LawfulEqOrd.compare_eq_iff_eq.1 heq] at hnodup
                exact (List.nodup_cons.1 hnodup).1 hmem
              have hkept : (loop.sockets.erase fd)[other]? = some behind := by
                rw [TreeMap.getElem?_erase, if_neg hother, hbehind]
              exact .inr ((hclients other behind hkept hnone).resolve_right (by simp))
        · cases h

end Steps

/-- The sockets in the `epoll` set are those of the server's clients. -/
def SameDescriptors (loop : Loop) : Prop :=
  ∀ fd : Int, fd ∈ loop.sockets ↔ fd ∈ loop.server.qtClients

section SameDescriptors

variable {loop next : Loop} {events : List Event} {rest : List Ready} {fd connfd : Int}
  {socket : Socket}

theorem same_accept (hsame : SameDescriptors loop)
    (h : loop.acceptOne rest connfd = .ok (next, events)) : SameDescriptors next := by
  unfold Loop.acceptOne at h
  split at h
  · cases h
  · obtain ⟨server, hstep, rfl⟩ := Loop.call_ok h
    unfold MonitorServer.step at hstep
    simp only at hstep
    split at hstep
    · cases hstep
    · cases hstep
      intro other
      simp only [TreeMap.mem_insert, hsame other]

theorem same_receive (hsame : SameDescriptors loop) (hsocket : loop.sockets[fd]? = some socket)
    (h : loop.receiveOne rest fd socket = .ok (next, events)) : SameDescriptors next := by
  have hmem : fd ∈ loop.sockets := by
    rw [TreeMap.mem_iff_isSome_getElem?, hsocket]
    rfl
  have hclient := (hsame fd).1 hmem
  rw [TreeMap.mem_iff_isSome_getElem?] at hclient
  obtain ⟨client, hclient⟩ := Option.isSome_iff_exists.1 hclient
  have hreceive : ∀ {server : MonitorServer} {result : Recv},
      loop.server.step (.receive fd result) = .ok (server, events) →
      loop.server.receive fd client result = .ok (server, events) := by
    intro server result hstep
    unfold MonitorServer.step at hstep
    simp only [hclient] at hstep
    split at hstep
    · cases hstep
    · rename_i outcome hok
      cases hstep
      exact hok
  unfold Loop.receiveOne at h
  split at h
  · rename_i hunread
    obtain ⟨server, hstep, rfl⟩ := Loop.call_ok h
    have hne : socket.unread.take recvSize ≠ [] := by
      rw [Ne, List.take_eq_nil_iff, not_or]
      exact ⟨by decide, hunread⟩
    obtain ⟨-, after, created, -, -, -, rfl, -⟩ := MonitorServer.receive_ok hne (hreceive hstep)
    intro other
    simp only [TreeMap.mem_insert, hsame other]
  · split at h
    · obtain ⟨server, hstep, rfl⟩ := Loop.call_ok h
      cases hreceive hstep
      intro other
      simp only [TreeMap.mem_erase, hsame other]
    · cases h

/-- In every run the loop's sockets and the server's clients are the same descriptors. -/
theorem same_descriptors_run {text : Bytes} {inputs : List LoopInput} {trace : List Event}
    (h : Machine.run Loop.step (.start text) inputs = .ok (loop, trace)) :
    SameDescriptors loop := by
  refine (Machine.run_invariant SameDescriptors (fun _ => True) (fun _ => True) ?_ (fun fd => ?_)
    (fun _ _ => trivial) h).1
  · -- every input that changes one table changes the other
    rintro loop input next events hsame - hstep
    refine ⟨?_, fun _ _ => trivial⟩
    cases input with
    | connect clientIp =>
        cases hstep
        exact hsame
    | arrivePending index arrival =>
        cases hstep
        exact hsame
    | arrive fd arrival =>
        cases hstep
        intro other
        simp only [TreeMap.mem_modify, hsame other]
    | addCam sessionId stringName =>
        change loop.call (.addCam sessionId stringName) = _ at hstep
        obtain ⟨server, hserver, rfl⟩ := Loop.call_ok hstep
        cases hserver
        intro other
        exact (hsame other).trans TreeMap.mem_map.symm
    | removeCam sessionId =>
        change loop.call (.removeCam sessionId) = _ at hstep
        obtain ⟨server, hserver, rfl⟩ := Loop.call_ok hstep
        cases hserver
        intro other
        exact (hsame other).trans TreeMap.mem_map.symm
    | wait batch =>
        unfold Loop.step at hstep
        simp only at hstep
        split at hstep
        · cases hstep
          intro other
          simp only [Loop.report, TreeMap.mem_map, hsame other]
        · cases hstep
    | turn connfd =>
        change loop.turn connfd = _ at hstep
        unfold Loop.turn at hstep
        split at hstep
        · cases hstep
        · exact same_accept hsame hstep
        · split at hstep
          · cases hstep
            exact hsame
          · rename_i socket hsocket
            exact same_receive hsame hsocket hstep
  · simp [Loop.start, MonitorServer.start]

end SameDescriptors

end CarDetect.Monitor
