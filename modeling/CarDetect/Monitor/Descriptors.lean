import CarDetect.Monitor.SessionLedger
import Mathlib.Data.Finset.Erase
import Mathlib.Data.Finset.SDiff

/-!
# The descriptors of the monitor's clients

`Descriptors` puts the server beside the kernel: the client sockets that are open and those in the
`epoll` set. `accept` adds to both, the end of a connection takes its socket from the `epoll` set
only, and `onNaluTcp` closes a socket on which it cannot send. `books_exact` says for which runs
the two sets are the keys of `_qtClients`, with no session left behind; `step_exact_iff` says that
these are all.
-/

namespace CarDetect.Monitor

open BigEndian ByteString Reactor Std

/-! ## onNaluTcp -/

/-- What `onNaluTcp` sends: the length of the name in 16 bits, the name and the data. -/
def naluText (streamName data : Bytes) : Bytes :=
  let nameLen := streamName.length.toUInt16
  [(nameLen >>> 8).toUInt8, (nameLen &&& 0xFF).toUInt8] ++ streamName.take nameLen.toNat ++ data

namespace MonitorServer

/-- `_qtClients.erase(fd)` in `onNaluTcp`, which destroys the client with its sessions. -/
def dropClient (server : MonitorServer) (fd : Int) : Except Fault MonitorServer :=
  match server.qtClients[fd]? with
  | none => .ok server
  | some client =>
      if client.sessionMap.toList.any fun session => session.2.kcpThread.isSome then
        .error .joinableThread
      else .ok { server with qtClients := server.qtClients.erase fd }

/-- The loop over `badFds`. -/
def dropClients (server : MonitorServer) : List Int → Except Fault MonitorServer
  | [] => .ok server
  | fd :: rest =>
      match server.dropClient fd with
      | .error fault => .error fault
      | .ok server => server.dropClients rest

/-- `onNaluTcp`, with the sockets on which `send` fails, and the sockets that it closes. -/
def onNaluTcp (server : MonitorServer) (streamName data : Bytes) (failing : List Int) :
    Except Fault (MonitorServer × List Event × List Int) :=
  if streamName = [] ∨ data = [] then .ok (server, [], [])
  else
    let badFds := server.qtClients.keys.filter (· ∈ failing)
    (server.dropClients badFds).map fun dropped =>
      (dropped, server.qtClients.keys.map fun fd => .send fd (naluText streamName data), badFds)

end MonitorServer

/-! ## The server and the kernel -/

/-- The server, the client sockets that are open, and those in the `epoll` set. -/
structure Descriptors where
  server : MonitorServer
  opened : Finset Int
  watched : Finset Int

/-- What can happen next: an input of the server, or a call of `onNaluTcp` with the sockets on which
`send` fails. -/
inductive SocketInput where
  | server (input : Input)
  | onNaluTcp (streamName data : Bytes) (failing : List Int)
deriving DecidableEq, Repr

/-- The program ends, or the input cannot happen. -/
inductive SocketHalt where
  | server (halt : Halt)
  | onNaluTcp (fault : Fault)
  | descriptorInUse
deriving DecidableEq, Repr

namespace Descriptors

/-- Before the first client. -/
def start (text : Bytes) : Descriptors := ⟨.start text, ∅, ∅⟩

/-- What an input of the server does to the kernel's sets. A new descriptor is open and in the
`epoll` set. At the end of the stream `acceptLoop` takes the socket out of the `epoll` set and does
not close it. -/
def kernel (descriptors : Descriptors) : Input → Finset Int × Finset Int
  | .accept fd _ => (insert fd descriptors.opened, insert fd descriptors.watched)
  | .receive fd (.bytes []) => (descriptors.opened, descriptors.watched.erase fd)
  | _ => (descriptors.opened, descriptors.watched)

/-- `accept` would return a descriptor that is open. -/
def inUse (descriptors : Descriptors) : Input → Bool
  | .accept fd _ => fd ∈ descriptors.opened
  | _ => false

/-- One input. The kernel gives out only descriptors that are not open, and takes a socket that is
closed out of the `epoll` set. -/
def step (descriptors : Descriptors) :
    SocketInput → Except SocketHalt (Descriptors × List Event)
  | .server input =>
      if descriptors.inUse input then .error .descriptorInUse
      else
        match descriptors.server.step input with
        | .error halt => .error (.server halt)
        | .ok (server, events) =>
            let (opened, watched) := descriptors.kernel input
            .ok (⟨server, opened, watched⟩, events)
  | .onNaluTcp streamName data failing =>
      match descriptors.server.onNaluTcp streamName data failing with
      | .error fault => .error (.onNaluTcp fault)
      | .ok (server, events, closed) =>
          .ok (⟨server, descriptors.opened \ closed.toFinset,
            descriptors.watched \ closed.toFinset⟩, events)

end Descriptors

/-! ## The property -/

/-- The keys of `_qtClients` are the client sockets that are open and those in the `epoll` set, and
every thread and every control block that has been made is held by a session of these clients, or
has been joined or released, once. -/
structure BooksExact (trace : List Event) (descriptors : Descriptors) : Prop where
  opened : ∀ fd, fd ∈ descriptors.opened ↔ fd ∈ descriptors.server.qtClients
  watched : ∀ fd, fd ∈ descriptors.watched ↔ fd ∈ descriptors.server.qtClients
  owned : Owned trace descriptors.server

/-- No client's connection ends, and `onNaluTcp` fails to send only to clients without sessions. -/
def LeavesNoSocket (descriptors : Descriptors) : SocketInput → Prop
  | .server (.receive fd result) => fd ∈ descriptors.server.qtClients → result ≠ .bytes []
  | .server _ => True
  | .onNaluTcp streamName data failing => streamName ≠ [] → data ≠ [] →
      ∀ fd ∈ failing, ∀ client ∈ descriptors.server.qtClients[fd]?, client.sessionMap.isEmpty

section Steps

variable {server next : MonitorServer} {descriptors after : Descriptors} {trace events : List Event}

/-! ## Dropped clients -/

/-- The test for a joinable thread finds every session, when every session has its thread. -/
theorem any_joinable {client : QtClient} (hintact : Intact client) :
    (client.sessionMap.toList.any fun session => session.2.kcpThread.isSome) =
      !client.sessionMap.isEmpty := by
  rw [← TreeMap.isEmpty_toList]
  cases hlist : client.sessionMap.toList with
  | nil => rfl
  | cons entry rest =>
      have hentry : client.sessionMap[entry.1]? = some entry.2 := by
        rw [← TreeMap.mem_toList_iff_getElem?_eq_some, hlist]
        exact List.mem_cons_self
      simp [hintact entry.1 entry.2 hentry]

/-- Nothing is lost with a client that has no session. -/
theorem Owned.drop {fd : Int} {client : QtClient} (h : Owned trace server)
    (hclient : server.qtClients[fd]? = some client) (hempty : client.sessionMap.isEmpty) :
    Owned trace { server with qtClients := server.qtClients.erase fd } := by
  have hnone (r : Resource) : r.heldBy client = [] := by
    have hlist : client.sessionMap.toList = [] := by
      rw [← List.isEmpty_iff, TreeMap.isEmpty_toList]
      exact hempty
    rw [Resource.heldBy, hlist]
    rfl
  have hkept (r : Resource) (hbalanced : Balanced r trace server) :
      Balanced r trace { server with qtClients := server.qtClients.erase fd } := by
    refine ⟨hbalanced.made, hbalanced.kept.trans ?_⟩
    have hperm := held_erase (r := r) hclient
    rw [hnone r, List.nil_append] at hperm
    exact hperm.append_right _
  refine ⟨fun key other hother => ?_, hkept _ h.blocks, hkept _ h.threads⟩
  rw [TreeMap.getElem?_erase] at hother
  split at hother
  · cases hother
  · exact h.intact key other hother

namespace MonitorServer

/-- A client can be destroyed exactly when it has no session. -/
theorem drop_client_iff (h : Owned trace server) (fd : Int) :
    (∃ next, server.dropClient fd = .ok next) ↔
      ∀ client ∈ server.qtClients[fd]?, client.sessionMap.isEmpty := by
  unfold dropClient
  cases hclient : server.qtClients[fd]? with
  | none => simp
  | some client =>
      simp only [any_joinable (h.intact fd client hclient), Option.mem_some_iff, forall_eq']
      cases client.sessionMap.isEmpty <;> simp

/-- What is left when a client has been destroyed. -/
theorem drop_client_ok {fd : Int} (h : Owned trace server)
    (hdrop : server.dropClient fd = .ok next) :
    (∀ key, next.qtClients[key]? = if key = fd then none else server.qtClients[key]?) ∧
      Owned trace next := by
  have hempty := (drop_client_iff h fd).1 ⟨next, hdrop⟩
  unfold dropClient at hdrop
  cases hclient : server.qtClients[fd]? with
  | none =>
      rw [hclient] at hdrop
      cases hdrop
      refine ⟨fun key => ?_, h⟩
      split
      · rename_i heq
        rw [heq, hclient]
      · rfl
  | some client =>
      simp only [hclient] at hdrop
      split at hdrop
      · cases hdrop
      · cases hdrop
        refine ⟨fun key => ?_, h.drop hclient (hempty client hclient)⟩
        rw [TreeMap.getElem?_erase]
        exact if_congr (LawfulEqOrd.compare_eq_iff_eq.trans eq_comm) rfl rfl

/-- The loop over `badFds` goes through exactly when none of these clients has a session. -/
theorem drop_clients_iff (h : Owned trace server) (fds : List Int) :
    (∃ next, server.dropClients fds = .ok next) ↔
      ∀ fd ∈ fds, ∀ client ∈ server.qtClients[fd]?, client.sessionMap.isEmpty := by
  induction fds generalizing server with
  | nil => simp [dropClients]
  | cons fd rest ih =>
      rw [List.forall_mem_cons, ← drop_client_iff h]
      unfold dropClients
      cases hfirst : server.dropClient fd with
      | error fault => simp
      | ok dropped =>
          obtain ⟨hkeys, howned⟩ := drop_client_ok h hfirst
          have hone := (drop_client_iff h fd).1 ⟨dropped, hfirst⟩
          simp only [ih howned, Except.ok.injEq, exists_eq', true_and, hkeys]
          refine forall₂_congr fun key _ => ?_
          split
          · rename_i heq
            simpa [heq] using hone
          · rfl

/-- The clients of `badFds` are gone, and nothing is lost with them. -/
theorem drop_clients_ok {fds : List Int} (h : Owned trace server)
    (hdrop : server.dropClients fds = .ok next) :
    (∀ key, key ∈ next.qtClients ↔ key ∈ server.qtClients ∧ key ∉ fds) ∧ Owned trace next := by
  induction fds generalizing server with
  | nil =>
      cases hdrop
      exact ⟨by simp, h⟩
  | cons fd rest ih =>
      unfold dropClients at hdrop
      split at hdrop
      · cases hdrop
      rename_i dropped hfirst
      obtain ⟨hkeys, howned⟩ := drop_client_ok h hfirst
      obtain ⟨hrest, hlast⟩ := ih howned hdrop
      refine ⟨fun key => ?_, hlast⟩
      have hfirst : key ∈ dropped.qtClients ↔ key ∈ server.qtClients ∧ key ≠ fd := by
        rw [TreeMap.mem_iff_isSome_getElem?, TreeMap.mem_iff_isSome_getElem?, hkeys]
        split <;> simp [*]
      rw [hrest, hfirst, List.mem_cons, not_or, and_assoc]

end MonitorServer

/-! ## Steps -/

/-- A loop over the clients keeps them. -/
theorem MonitorServer.mem_for_clients (body : Int → QtClient → QtClient × List Event) (key : Int) :
    key ∈ (server.forClients body).1.qtClients ↔ key ∈ server.qtClients := by
  rw [MonitorServer.forClients, TreeMap.mem_map]

/-- Which clients a step of the server adds or removes. -/
theorem MonitorServer.step_clients {input : Input} (h : server.step input = .ok (next, events))
    (key : Int) :
    key ∈ next.qtClients ↔
      (∃ clientIp, input = .accept key clientIp) ∨
        key ∈ server.qtClients ∧ input ≠ .receive key (.bytes []) := by
  have hkey (fd : Int) : compare fd key = .eq ↔ fd = key := LawfulEqOrd.compare_eq_iff_eq
  cases MonitorServer.step_ok h with
  | accept fd clientIp hfree =>
      rw [TreeMap.mem_insert, hkey]
      simp
  | close fd client hclient =>
      rw [MonitorServer.closeClient, TreeMap.mem_erase, ne_eq, hkey]
      simp [and_comm]
  | bytes fd client chunk _ _ hclient hne hreceive =>
      obtain ⟨parsed, after, created, calls, -, -, rfl, -⟩ :=
        MonitorServer.receive_ok hne hreceive
      have hmem : fd ∈ server.qtClients := by simp [TreeMap.mem_iff_isSome_getElem?, hclient]
      rw [TreeMap.mem_insert, hkey]
      simp only [reduceCtorEq, exists_false, false_or, ne_eq, Input.receive.injEq, Recv.bytes.injEq,
        hne, and_false, not_false_eq_true, and_true, or_iff_right_iff_imp]
      rintro rfl
      exact hmem
  | datagram stale datagram _ hevents => simp
  | addCam sessionId stringName =>
      rw [MonitorServer.addCam, MonitorServer.mem_for_clients]
      simp
  | removeCam sessionId =>
      rw [MonitorServer.removeCam, MonitorServer.mem_for_clients]
      simp

/-- Sending makes and gives back nothing. -/
theorem Owned.sends (h : Owned trace server) (text : Bytes)
    (hevents : ∀ event ∈ events, ∃ fd, event = .send fd text) : Owned (trace ++ events) server := by
  have hkept (r : Resource) (hbalanced : Balanced r trace server) :
      Balanced r (trace ++ events) server := by
    have hmade : events.filterMap r.made = [] := List.filterMap_eq_nil_iff.2 fun event hevent => by
      obtain ⟨fd, rfl⟩ := hevents event hevent
      exact (r.quiet fd text).2.2.1
    have hgone : events.filterMap r.gone = [] := List.filterMap_eq_nil_iff.2 fun event hevent => by
      obtain ⟨fd, rfl⟩ := hevents event hevent
      exact (r.quiet fd text).2.2.2
    refine ⟨?_, ?_⟩
    · rw [List.filterMap_append, hmade, List.append_nil, hbalanced.made]
    · rw [List.filterMap_append, hgone, List.append_nil]
      exact hbalanced.kept
  exact ⟨h.intact, hkept _ h.blocks, hkept _ h.threads⟩

/-- What `onNaluTcp` leaves. -/
theorem MonitorServer.on_nalu_tcp_ok {streamName data : Bytes} {failing closed : List Int}
    (h : Owned trace server)
    (hcall : server.onNaluTcp streamName data failing = .ok (next, events, closed)) :
    (∀ key, key ∈ next.qtClients ↔ key ∈ server.qtClients ∧ key ∉ closed) ∧
      Owned (trace ++ events) next := by
  unfold onNaluTcp at hcall
  split at hcall
  · cases hcall
    exact ⟨by simp, by simpa using h⟩
  · simp only at hcall
    cases hdrop : server.dropClients (server.qtClients.keys.filter (· ∈ failing)) with
    | error fault =>
        rw [hdrop] at hcall
        cases hcall
    | ok dropped =>
        rw [hdrop] at hcall
        cases hcall
        obtain ⟨hkeys, howned⟩ := drop_clients_ok h hdrop
        refine ⟨hkeys, howned.sends (naluText streamName data) fun event hevent => ?_⟩
        obtain ⟨fd, -, rfl⟩ := List.mem_map.1 hevent
        exact ⟨fd, rfl⟩

/-- `onNaluTcp` goes through exactly when it fails to send only to clients without sessions. -/
theorem MonitorServer.on_nalu_tcp_iff (h : Owned trace server) (streamName data : Bytes)
    (failing : List Int) :
    (∃ result, server.onNaluTcp streamName data failing = .ok result) ↔
      (streamName ≠ [] → data ≠ [] →
        ∀ fd ∈ failing, ∀ client ∈ server.qtClients[fd]?, client.sessionMap.isEmpty) := by
  unfold onNaluTcp
  split
  · rename_i hnothing
    refine iff_of_true ⟨_, rfl⟩ fun hname hdata => ?_
    exact absurd hnothing (not_or.2 ⟨hname, hdata⟩)
  · rename_i hsomething
    obtain ⟨hname, hdata⟩ := not_or.1 hsomething
    simp only [Machine.exists_map_ok, drop_clients_iff h, hname, hdata, ne_eq, not_false_eq_true,
      forall_const, List.mem_filter, TreeMap.mem_keys, decide_eq_true_eq]
    refine ⟨fun hall fd hfd client hclient => ?_, fun hall fd hfd => hall fd hfd.2⟩
    refine hall fd ⟨?_, hfd⟩ client hclient
    rw [TreeMap.mem_iff_isSome_getElem?, Option.mem_def.1 hclient]
    rfl

/-- A step keeps the books exact when it leaves no socket behind, and only then. -/
theorem BooksExact.step_iff (h : BooksExact trace descriptors) {input : SocketInput}
    (hstep : descriptors.step input = .ok (after, events)) :
    BooksExact (trace ++ events) after ↔ LeavesNoSocket descriptors input := by
  cases input with
  | onNaluTcp streamName data failing =>
      simp only [Descriptors.step] at hstep
      split at hstep
      · cases hstep
      rename_i server calls closed hcall
      cases hstep
      obtain ⟨hkeys, howned⟩ := MonitorServer.on_nalu_tcp_ok h.owned hcall
      refine iff_of_true ⟨fun fd => ?_, fun fd => ?_, howned⟩
        ((MonitorServer.on_nalu_tcp_iff h.owned streamName data failing).1 ⟨_, hcall⟩)
      · simp [hkeys, h.opened]
      · simp [hkeys, h.watched]
  | server input =>
      simp only [Descriptors.step] at hstep
      split at hstep
      · cases hstep
      split at hstep
      · cases hstep
      rename_i server calls hserver
      cases hstep
      have hkeys := MonitorServer.step_clients hserver
      have howned := h.owned.step hserver
      -- only an accept and the end of a stream change the sets
      have hsame (hkernel : descriptors.kernel input = (descriptors.opened, descriptors.watched))
          (hclients : ∀ key, key ∈ server.qtClients ↔ key ∈ descriptors.server.qtClients) :
          BooksExact (trace ++ events)
            ⟨server, (descriptors.kernel input).1, (descriptors.kernel input).2⟩ := by
        rw [hkernel]
        exact ⟨fun fd => (h.opened fd).trans (hclients fd).symm,
          fun fd => (h.watched fd).trans (hclients fd).symm, howned⟩
      cases input with
      | accept fd clientIp =>
          have hnew (set : Finset Int) (hset : ∀ key, key ∈ set ↔
              key ∈ descriptors.server.qtClients) (key : Int) :
              key ∈ insert fd set ↔ key ∈ server.qtClients := by
            rw [hkeys, Finset.mem_insert, hset]
            simp [eq_comm]
          exact iff_of_true ⟨hnew _ h.opened, hnew _ h.watched, howned⟩ trivial
      | receive fd result =>
          cases result with
          | failed => exact iff_of_true (hsame rfl fun key => by simp [hkeys]) (fun _ => by simp)
          | bytes chunk =>
              cases chunk with
              | cons byte rest =>
                  exact iff_of_true (hsame rfl fun key => by simp [hkeys]) (fun _ => by simp)
              | nil =>
                  have hclient : fd ∈ descriptors.server.qtClients := by
                    cases MonitorServer.step_ok hserver with
                    | close fd client hclient => simp [TreeMap.mem_iff_isSome_getElem?, hclient]
                    | bytes fd client chunk _ _ hclient hne => exact absurd rfl hne
                  refine iff_of_false (fun hexact => ?_) fun hguard => hguard hclient rfl
                  have hopen := (hexact.opened fd).1 ((h.opened fd).2 hclient)
                  simp [hkeys] at hopen
      | datagram stale datagram =>
          exact iff_of_true (hsame rfl fun key => by simp [hkeys]) trivial
      | addCam sessionId stringName =>
          exact iff_of_true (hsame rfl fun key => by simp [hkeys]) trivial
      | removeCam sessionId =>
          exact iff_of_true (hsame rfl fun key => by simp [hkeys]) trivial

/-- A fault of `onNaluTcp` comes from a client with sessions, and the other faults are not of its
making. -/
theorem BooksExact.fault_iff (h : BooksExact trace descriptors) {input : SocketInput}
    {halt : SocketHalt} (hstep : descriptors.step input = .error halt) :
    (¬ ∃ fault, halt = .onNaluTcp fault) ↔ LeavesNoSocket descriptors input := by
  cases input with
  | onNaluTcp streamName data failing =>
      have hiff := MonitorServer.on_nalu_tcp_iff h.owned streamName data failing
      simp only [Descriptors.step] at hstep
      split at hstep
      · rename_i fault hcall
        cases hstep
        refine iff_of_false (fun hnot => hnot ⟨fault, rfl⟩) fun hguard => ?_
        obtain ⟨result, hresult⟩ := hiff.2 hguard
        rw [hcall] at hresult
        cases hresult
      · cases hstep
  | server input =>
      have hguard : LeavesNoSocket descriptors (.server input) := by
        cases input with
        | receive fd result =>
            rintro hclient rfl
            rw [TreeMap.mem_iff_isSome_getElem?, Option.isSome_iff_exists] at hclient
            obtain ⟨client, hclient⟩ := hclient
            simp [Descriptors.step, Descriptors.inUse, MonitorServer.step, hclient,
              MonitorServer.receive] at hstep
        | _ => trivial
      refine iff_of_true ?_ hguard
      simp only [Descriptors.step] at hstep
      split at hstep
      · cases hstep
        rintro ⟨fault, ⟨⟩⟩
      · split at hstep
        · cases hstep
          rintro ⟨fault, ⟨⟩⟩
        · cases hstep

end Steps

/-! ## Runs -/

theorem books_exact_start (text : Bytes) : BooksExact [] (.start text) where
  opened fd := by simp [Descriptors.start, MonitorServer.start]
  watched fd := by simp [Descriptors.start, MonitorServer.start]
  owned := owned_start text

/-- The steps of a run leave no socket behind exactly when the books are exact in every state that
the run reaches and `onNaluTcp` does not end the program. -/
theorem books_exact_iff (text : Bytes) (inputs : List SocketInput) :
    Machine.Guarded Descriptors.step LeavesNoSocket (.start text) inputs ↔
      ∀ past, past <+: inputs →
        (∀ fault, Machine.run Descriptors.step (.start text) past ≠ .error (.onNaluTcp fault)) ∧
          ∀ descriptors trace,
            Machine.run Descriptors.step (.start text) past = .ok (descriptors, trace) →
            BooksExact trace descriptors := by
  have hstep : ∀ trace descriptors input, BooksExact trace descriptors →
      (Machine.Fine BooksExact (fun halt => ∃ fault, halt = .onNaluTcp fault) trace
        (descriptors.step input) ↔ LeavesNoSocket descriptors input) := by
    intro trace descriptors input hexact
    cases hresult : descriptors.step input with
    | error halt => exact hexact.fault_iff hresult
    | ok result => exact hexact.step_iff hresult
  rw [Machine.guarded_iff hstep (books_exact_start text)]
  refine forall₂_congr fun past _ => ?_
  cases Machine.run Descriptors.step (.start text) past with
  | error halt => simp [Machine.Fine]
  | ok result =>
      obtain ⟨descriptors, trace⟩ := result
      simp [Machine.Fine]

/-- A client connects and leaves: its socket is still open when the client is gone. -/
theorem books_exact_fails_disconnect :
    ¬ ∀ (text : Bytes) (inputs : List SocketInput) (descriptors : Descriptors) (trace : List Event),
      Machine.run Descriptors.step (.start text) inputs = .ok (descriptors, trace) →
        BooksExact trace descriptors := by
  intro h
  let inputs : List SocketInput :=
    [.server (.accept 5 (ascii "10.0.0.5")), .server (.receive 5 (.bytes []))]
  have hleft : (Machine.run Descriptors.step (.start (ascii "10.0.0.1:9000")) inputs).map
      (fun result => (decide (5 ∈ result.1.opened), result.1.server.qtClients.contains 5)) =
      .ok (true, false) := by
    decide +kernel
  cases hrun : Machine.run Descriptors.step (.start (ascii "10.0.0.1:9000")) inputs with
  | error halt =>
      rw [hrun] at hleft
      cases hleft
  | ok result =>
      obtain ⟨descriptors, trace⟩ := result
      have hexact := (h _ _ _ _ hrun).opened 5
      rw [hrun] at hleft
      simp only [Except.map, Except.ok.injEq, Prod.mk.injEq, decide_eq_true_eq] at hleft
      have hgone := hexact.1 hleft.1
      rw [← TreeMap.contains_iff_mem, hleft.2] at hgone
      cases hgone

end CarDetect.Monitor
