import CarDetect.Lib.OrderedMap
import CarDetect.Monitor.Registration
import Mathlib.Data.List.Nodup
import Mathlib.Data.List.Perm.Basic

/-!
# Control blocks and threads of the sessions

Requests, removed cameras and ended connections create and destroy sessions, each with a control
block and a thread. `Balanced` is the ledger of one of these resources: what has been made is held
by the sessions or gone, each number once. `never_overwritten` says that every run keeps both
ledgers, and that it does not end in a joinable thread's destruction as long as no request names
a camera for which its client has a session.
-/

namespace CarDetect.Monitor

open BigEndian ByteString Reactor Std

/-! ## Resources -/

/-- What a session can hold under a number, and the calls that make it and give it back. -/
structure Resource where
  held : UdpSession → Option Nat
  made : Event → Option Nat
  gone : Event → Option Nat
  /-- A new session holds the number under which it is created. -/
  created : ∀ clientIp rtpPort rtcpPort conv n,
    held (.create clientIp rtpPort rtcpPort conv n) = some n
  makes : ∀ n conv, [Event.ikcpCreate n conv, .startThread n].filterMap made = [n] ∧
    [Event.ikcpCreate n conv, .startThread n].filterMap gone = []
  /-- A session that is stopped gives back what it holds. -/
  stops : ∀ session : UdpSession, session.stop.2.filterMap made = [] ∧
    session.stop.2.filterMap gone = (held session).toList
  quiet : ∀ fd text, made (.parseRequest fd text) = none ∧ gone (.parseRequest fd text) = none ∧
    made (.send fd text) = none ∧ gone (.send fd text) = none
  input : ∀ fd sessionId datagram, made (.ikcpInput fd sessionId datagram) = none ∧
    gone (.ikcpInput fd sessionId datagram) = none

/-- The control block of KCP. -/
def kcpBlock : Resource where
  held := UdpSession.ikcp
  made
    | .ikcpCreate block _ => some block
    | _ => none
  gone
    | .ikcpRelease block => some block
    | _ => none
  created _ _ _ _ _ := rfl
  makes _ _ := ⟨rfl, rfl⟩
  stops session := by
    obtain ⟨_, _, ikcp, _, _, kcpThread⟩ := session
    cases ikcp <;> cases kcpThread <;> exact ⟨rfl, rfl⟩
  quiet _ _ := ⟨rfl, rfl, rfl, rfl⟩
  input _ _ _ := ⟨rfl, rfl⟩

/-- The thread that updates KCP. -/
def updateThread : Resource where
  held := UdpSession.kcpThread
  made
    | .startThread thread => some thread
    | _ => none
  gone
    | .joinThread thread => some thread
    | _ => none
  created _ _ _ _ _ := rfl
  makes _ _ := ⟨rfl, rfl⟩
  stops session := by
    obtain ⟨_, _, ikcp, _, _, kcpThread⟩ := session
    cases ikcp <;> cases kcpThread <;> exact ⟨rfl, rfl⟩
  quiet _ _ := ⟨rfl, rfl, rfl, rfl⟩
  input _ _ _ := ⟨rfl, rfl⟩

namespace Resource

variable (r : Resource)

/-- What the sessions of a client hold. -/
def heldBy (client : QtClient) : List Nat :=
  client.sessionMap.toList.filterMap fun session => r.held session.2

/-- What the sessions of all clients hold. -/
def heldAmong (clients : TreeMap Int QtClient) : List Nat :=
  clients.toList.flatMap fun entry => r.heldBy entry.2

end Resource

/-- The ledger of a resource: the calls have made the numbers below `created`, in order, and these
are the ones that sessions hold together with those that are gone. -/
structure Balanced (r : Resource) (trace : List Event) (server : MonitorServer) : Prop where
  made : trace.filterMap r.made = List.range server.created
  kept : (List.range server.created).Perm
    (r.heldAmong server.qtClients ++ trace.filterMap r.gone)

/-- What one step does to a ledger. -/
structure LedgerStep (r : Resource) (server next : MonitorServer) (events : List Event) : Prop where
  made : List.range next.created = List.range server.created ++ events.filterMap r.made
  kept : (r.heldAmong server.qtClients ++ events.filterMap r.made).Perm
    (r.heldAmong next.qtClients ++ events.filterMap r.gone)

/-- Every session has a thread. -/
def Intact (client : QtClient) : Prop :=
  ∀ (sessionId : Bytes) session, client.sessionMap[sessionId]? = some session →
    session.kcpThread.isSome

/-- Every session has its thread, and the ledgers of control blocks and of threads are balanced. -/
structure Owned (trace : List Event) (server : MonitorServer) : Prop where
  intact : ∀ (fd : Int) client, server.qtClients[fd]? = some client → Intact client
  blocks : Balanced kcpBlock trace server
  threads : Balanced updateThread trace server

section Ledger

variable {r : Resource} {trace events : List Event} {server next : MonitorServer}

/-- A step that keeps its own account keeps the ledger. -/
theorem Balanced.step (h : Balanced r trace server) (hstep : LedgerStep r server next events) :
    Balanced r (trace ++ events) next where
  made := by rw [List.filterMap_append, h.made, hstep.made]
  kept := by
    have hbefore := h.kept
    have hchange := hstep.kept
    rw [hstep.made, List.filterMap_append]
    rw [List.perm_iff_count] at hbefore hchange ⊢
    intro number
    have hcount := hbefore number
    have hdelta := hchange number
    simp only [List.count_append] at hcount hdelta ⊢
    omega

/-- In a balanced ledger every number that has been made is held by one session and not gone, or
gone once and held by none. -/
theorem Balanced.once (h : Balanced r trace server) {number : Nat}
    (hmade : number < server.created) :
    (r.heldAmong server.qtClients).count number = 1 ∧ (trace.filterMap r.gone).count number = 0 ∨
      (r.heldAmong server.qtClients).count number = 0 ∧
        (trace.filterMap r.gone).count number = 1 := by
  have hone := List.count_eq_one_of_mem List.nodup_range (List.mem_range.2 hmade)
  rw [h.kept.count_eq, List.count_append] at hone
  omega

/-! ## Clients -/

section Clients

variable {clients : TreeMap Int QtClient} {fd : Int} {client after : QtClient}

theorem held_new (h : clients[fd]? = none) :
    (r.heldAmong (clients.insert fd after)).Perm (r.heldBy after ++ r.heldAmong clients) :=
  (OrderedMap.toList_insert_new h after).flatMap_right _

theorem held_insert (clients : TreeMap Int QtClient) (fd : Int) (after : QtClient) :
    (r.heldAmong (clients.insert fd after)).Perm
      (r.heldBy after ++ r.heldAmong (clients.erase fd)) :=
  (OrderedMap.toList_insert_perm clients fd after).flatMap_right _

theorem held_erase (h : clients[fd]? = some client) :
    (r.heldAmong clients).Perm (r.heldBy client ++ r.heldAmong (clients.erase fd)) :=
  (OrderedMap.toList_erase_perm h).flatMap_right _

/-- What a loop over the clients gives back. -/
theorem held_loop (server : MonitorServer) (cams : TreeMap Bytes Bytes)
    {body : Int → QtClient → QtClient × List Event}
    (hmade : ∀ fd client, (body fd client).2.filterMap r.made = [])
    (hgone : ∀ fd client, (r.heldBy client).Perm
      (r.heldBy (body fd client).1 ++ (body fd client).2.filterMap r.gone)) :
    LedgerStep r server (MonitorServer.forClients { server with cams := cams } body).1
      (MonitorServer.forClients { server with cams := cams } body).2 := by
  have hquiet : (MonitorServer.forClients { server with cams := cams } body).2.filterMap r.made =
      [] := by
    rw [MonitorServer.forClients, List.filterMap_flatMap, List.flatMap_eq_nil_iff]
    exact fun entry _ => hmade _ _
  refine ⟨by rw [hquiet, List.append_nil]; rfl, ?_⟩
  rw [hquiet, List.append_nil, MonitorServer.forClients, List.filterMap_flatMap]
  unfold Resource.heldAmong
  rw [TreeMap.toList_map, List.flatMap_map]
  refine (List.Perm.flatMap_left _ fun entry _ => hgone entry.1 entry.2).trans ?_
  exact (List.flatMap_append_perm _ _ _).symm

end Clients

/-! ## Sessions -/

/-- A stopped session gives back what it holds. -/
theorem held_stopped {client : QtClient} {sessionId : Bytes} {session : UdpSession}
    (h : client.sessionMap[sessionId]? = some session) :
    (r.heldBy client).Perm
      (r.heldBy { client with sessionMap := client.sessionMap.erase sessionId } ++
        session.stop.2.filterMap r.gone) := by
  rw [(r.stops session).2]
  refine ((OrderedMap.toList_erase_perm h).filterMap _).trans ?_
  rw [List.filterMap_cons]
  cases r.held session with
  | none => simp [Resource.heldBy]
  | some number => exact (List.perm_append_singleton _ _).symm

/-- A new session holds its number. -/
theorem held_registered {client : QtClient} {sessionId : Bytes}
    (hnew : client.sessionMap[sessionId]? = none) (rtpPort rtcpPort conv created : Nat) :
    (r.heldBy { client with
        sessionMap := client.sessionMap.insert sessionId
          (.create client.clientIp rtpPort rtcpPort conv created) }).Perm
      (created :: r.heldBy client) := by
  refine ((OrderedMap.toList_insert_new hnew _).filterMap _).trans ?_
  rw [List.filterMap_cons, r.created]
  rfl

/-- The account of the registrations of one request. -/
structure Registered (r : Resource) (client : QtClient) (created : Nat) (events : List Event)
    (state : QtClient × Nat) : Prop where
  intact : Intact state.1
  made : List.range state.2 = List.range created ++ events.filterMap r.made
  gone : events.filterMap r.gone = []
  kept : (r.heldBy client ++ events.filterMap r.made).Perm (r.heldBy state.1)

theorem Intact.register {client : QtClient} (h : Intact client) (sessionId : Bytes)
    (rtpPort rtcpPort conv created : Nat) :
    Intact { client with
      sessionMap := client.sessionMap.insert sessionId
        (.create client.clientIp rtpPort rtcpPort conv created) } := by
  intro other session hsession
  rw [TreeMap.getElem?_insert] at hsession
  split at hsession
  · cases hsession
    rfl
  · exact h other session hsession

/-- Each header that is registered makes one number, which its session holds. -/
theorem registered {client after : QtClient} {created next : Nat} {headers : Headers}
    (hintact : Intact client)
    (h : registerCams client created headers = .ok ((after, next), events)) :
    Registered r client created events (after, next) := by
  refine Machine.run_history (fun _ => Registered r client created) (fun _ => True) ?_
    ⟨hintact, by simp, rfl, by simp⟩ (fun _ _ => trivial) h
  rintro past trace ⟨before, count⟩ header ⟨following, later⟩ out hbefore - hstep
  rcases register_cam_ok hstep with ⟨-, rfl, rfl, rfl⟩ | ⟨-, rtpPort, rtcpPort, conv, -, hfree, rfl,
    rfl, rfl⟩
  · simpa only [List.append_nil] using hbefore
  · obtain ⟨hmakes, hkeeps⟩ := r.makes count conv.toUInt32
    have hnew : before.sessionMap[header.1]? = none := by
      cases hold : before.sessionMap[header.1]? with
      | none => rfl
      | some old =>
          have hthread := hbefore.intact header.1 old hold
          rw [hfree old hold] at hthread
          cases hthread
    refine ⟨hbefore.intact.register header.1 rtpPort rtcpPort conv count, ?_, ?_, ?_⟩
    · rw [List.filterMap_append, hmakes, ← List.append_assoc, ← hbefore.made, List.range_succ]
    · rw [List.filterMap_append, hbefore.gone, hkeeps, List.append_nil]
    · rw [List.filterMap_append, hmakes, ← List.append_assoc]
      refine (hbefore.kept.append_right _).trans ?_
      refine (List.perm_append_singleton _ _).trans ?_
      exact (held_registered hnew rtpPort rtcpPort conv count).symm

/-! ## Steps -/

theorem step_accept {fd : Int} {clientIp : Bytes} (hfree : server.qtClients[fd]? = none) :
    LedgerStep r server
      { server with qtClients := server.qtClients.insert fd ⟨clientIp, ∅, [], 0⟩ } [] where
  made := (List.append_nil _).symm
  kept := by
    have hnew : (r.heldAmong (server.qtClients.insert fd ⟨clientIp, ∅, [], 0⟩)).Perm
        ([] ++ r.heldAmong server.qtClients) := held_new hfree
    simpa only [List.filterMap_nil, List.append_nil, List.nil_append] using hnew.symm

theorem step_close {fd : Int} {client : QtClient} (hclient : server.qtClients[fd]? = some client) :
    LedgerStep r server (server.closeClient fd client).1 (server.closeClient fd client).2 := by
  have hquiet : (server.closeClient fd client).2.filterMap r.made = [] := by
    rw [MonitorServer.closeClient, List.filterMap_flatMap, List.flatMap_eq_nil_iff]
    exact fun session _ => (r.stops session.2).1
  have hgone : (server.closeClient fd client).2.filterMap r.gone = r.heldBy client := by
    rw [MonitorServer.closeClient, List.filterMap_flatMap, Resource.heldBy,
      List.filterMap_eq_flatMap_toList]
    exact congrArg (List.flatMap · _) (funext fun session => (r.stops session.2).2)
  refine ⟨by rw [hquiet, List.append_nil]; rfl, ?_⟩
  rw [hquiet, hgone, List.append_nil]
  exact (held_erase hclient).trans List.perm_append_comm

theorem step_bytes {fd : Int} {client : QtClient} {chunk : Bytes} (hne : chunk ≠ [])
    (hclient : server.qtClients[fd]? = some client) (hintact : Intact client)
    (h : server.receive fd client (.bytes chunk) = .ok (next, events)) :
    LedgerStep r server next events ∧
      ∃ after, next.qtClients = server.qtClients.insert fd after ∧ Intact after := by
  obtain ⟨parsed, after, created, calls, -, hcases, rfl, rfl⟩ := MonitorServer.receive_ok hne h
  obtain ⟨hmadeParse, hgoneParse, -⟩ := r.quiet fd (takeRequest client.buffer chunk).1
  have hreading : Intact (client.reading chunk) := hintact
  have hcalls : Registered r (client.reading chunk) server.created calls (after, created) := by
    rcases hcases with ⟨-, hregister⟩ | ⟨-, rfl, rfl, hsent⟩
    · exact registered hreading hregister
    · have hnone (what : Event → Option Nat)
          (hwhat : ∀ text, what (.send fd text) = none) : calls.filterMap what = [] :=
        List.filterMap_eq_nil_iff.2 fun call hcall => by rw [hsent call hcall, hwhat]
      have hmade := hnone r.made fun text => (r.quiet fd text).2.2.1
      refine ⟨hreading, by rw [hmade, List.append_nil], hnone r.gone fun text =>
        (r.quiet fd text).2.2.2, ?_⟩
      rw [hmade, List.append_nil]
  have hmade :
      (Event.parseRequest fd (takeRequest client.buffer chunk).1 :: calls).filterMap r.made =
      calls.filterMap r.made := List.filterMap_cons_none hmadeParse
  have hgone :
      (Event.parseRequest fd (takeRequest client.buffer chunk).1 :: calls).filterMap r.gone =
      [] := by
    rw [List.filterMap_cons_none hgoneParse, hcalls.gone]
  refine ⟨⟨by rw [hmade]; exact hcalls.made, ?_⟩, after, rfl, hcalls.intact⟩
  rw [hmade, hgone, List.append_nil]
  have hold := held_erase (r := r) hclient
  have hnew := held_insert (r := r) server.qtClients fd after
  have hkept : (r.heldBy client ++ calls.filterMap r.made).Perm (r.heldBy after) := hcalls.kept
  rw [List.perm_iff_count] at hold hnew hkept ⊢
  intro number
  have holdCount := hold number
  have hnewCount := hnew number
  have hkeptCount := hkept number
  simp only [List.count_append] at holdCount hnewCount hkeptCount ⊢
  omega

theorem announce_held (text sessionId : Bytes) (fd : Int) (client : QtClient) :
    (MonitorServer.announceCam text sessionId fd client).2.filterMap r.made = [] ∧
      (r.heldBy client).Perm (r.heldBy (MonitorServer.announceCam text sessionId fd client).1 ++
        (MonitorServer.announceCam text sessionId fd client).2.filterMap r.gone) := by
  unfold MonitorServer.announceCam
  split
  · simp
  · obtain ⟨-, -, hmade, hgone⟩ := r.quiet fd (addCamReq text sessionId (client.cseq + 1))
    rw [List.filterMap_cons_none hmade, List.filterMap_cons_none hgone]
    simp [Resource.heldBy]

theorem withdraw_held (text sessionId : Bytes) (fd : Int) (client : QtClient) :
    (MonitorServer.withdrawCam text sessionId fd client).2.filterMap r.made = [] ∧
      (r.heldBy client).Perm (r.heldBy (MonitorServer.withdrawCam text sessionId fd client).1 ++
        (MonitorServer.withdrawCam text sessionId fd client).2.filterMap r.gone) := by
  unfold MonitorServer.withdrawCam
  cases hsession : client.sessionMap[sessionId]? with
  | none => simp
  | some session =>
      obtain ⟨-, -, hmade, hgone⟩ := r.quiet fd (removeCamReq text sessionId client.cseq)
      simp only [List.filterMap_cons_none hmade, List.filterMap_cons_none hgone]
      exact ⟨(r.stops session).1, held_stopped hsession⟩

end Ledger

/-! ## Runs -/

section Runs

variable {trace events : List Event} {server next : MonitorServer}

/-- Loops over the clients keep the sessions that are left intact. -/
theorem intact_loop {body : Int → QtClient → QtClient × List Event}
    (hbody : ∀ fd client, Intact client → Intact (body fd client).1)
    (h : ∀ (fd : Int) client, server.qtClients[fd]? = some client → Intact client) :
    ∀ (fd : Int) client, (server.forClients body).1.qtClients[fd]? = some client →
      Intact client := by
  intro fd client hclient
  rw [MonitorServer.forClients, TreeMap.getElem?_map, Option.map_eq_some_iff] at hclient
  obtain ⟨before, hbefore, rfl⟩ := hclient
  exact hbody fd before (h fd before hbefore)

/-- A table in which one client has been replaced. -/
theorem intact_insert {fd : Int} {after : QtClient} (hafter : Intact after)
    (h : ∀ (fd : Int) client, server.qtClients[fd]? = some client → Intact client) :
    ∀ (key : Int) client, (server.qtClients.insert fd after)[key]? = some client →
      Intact client := by
  intro key client hclient
  rw [TreeMap.getElem?_insert] at hclient
  split at hclient
  · cases hclient
    exact hafter
  · exact h key client hclient

/-- A datagram makes and gives back nothing. -/
theorem step_datagram (r : Resource) {datagram : Bytes} (hevents : ∀ event ∈ events,
      ∃ fd sessionId, event = .ikcpInput fd sessionId datagram) :
    LedgerStep r server server events := by
  have hnone : events.filterMap r.made = [] ∧ events.filterMap r.gone = [] := by
    refine ⟨List.filterMap_eq_nil_iff.2 fun event hevent => ?_,
      List.filterMap_eq_nil_iff.2 fun event hevent => ?_⟩
    · obtain ⟨fd, sessionId, rfl⟩ := hevents event hevent
      exact (r.input fd sessionId datagram).1
    · obtain ⟨fd, sessionId, rfl⟩ := hevents event hevent
      exact (r.input fd sessionId datagram).2
  exact ⟨by rw [hnone.1, List.append_nil], by rw [hnone.1, hnone.2]⟩

theorem Owned.step (h : Owned trace server) {input : Input}
    (hstep : server.step input = .ok (next, events)) : Owned (trace ++ events) next := by
  cases MonitorServer.step_ok hstep with
  | accept fd clientIp hfree =>
      have hnew : Intact ⟨clientIp, ∅, [], 0⟩ := by
        intro sessionId session hsession
        simp at hsession
      exact ⟨intact_insert hnew h.intact, h.blocks.step (step_accept hfree),
        h.threads.step (step_accept hfree)⟩
  | close fd client hclient =>
      refine ⟨fun key other hother => ?_, h.blocks.step (step_close hclient),
        h.threads.step (step_close hclient)⟩
      change (server.qtClients.erase fd)[key]? = some other at hother
      rw [TreeMap.getElem?_erase] at hother
      split at hother
      · cases hother
      · exact h.intact key other hother
  | bytes fd client chunk _ _ hclient hne hreceive =>
      have hintact := h.intact fd client hclient
      obtain ⟨hblocks, after, hnext, hafter⟩ := step_bytes hne hclient hintact hreceive
      refine ⟨?_, h.blocks.step hblocks,
        h.threads.step (step_bytes hne hclient hintact hreceive).1⟩
      rw [hnext]
      exact intact_insert hafter h.intact
  | datagram stale datagram _ hevents =>
      exact ⟨h.intact, h.blocks.step (step_datagram kcpBlock hevents),
        h.threads.step (step_datagram updateThread hevents)⟩
  | addCam sessionId stringName =>
      have hloop (r : Resource) := held_loop (r := r) server
        (server.cams.insert sessionId stringName)
        (fun fd client => (announce_held server.server sessionId fd client).1)
        (fun fd client => (announce_held server.server sessionId fd client).2)
      refine ⟨intact_loop (fun fd client hclient => ?_) h.intact, h.blocks.step (hloop kcpBlock),
        h.threads.step (hloop updateThread)⟩
      unfold Intact
      rw [(MonitorServer.announce_frame server.server sessionId fd client).1]
      exact hclient
  | removeCam sessionId =>
      have hloop (r : Resource) := held_loop (r := r) server (server.cams.erase sessionId)
        (fun fd client => (withdraw_held server.server sessionId fd client).1)
        (fun fd client => (withdraw_held server.server sessionId fd client).2)
      refine ⟨intact_loop (fun fd client hclient => ?_) h.intact, h.blocks.step (hloop kcpBlock),
        h.threads.step (hloop updateThread)⟩
      intro other session hsession
      exact hclient other session
        ((MonitorServer.withdraw_frame server.server sessionId fd client).1 other session hsession)

theorem owned_start (text : Bytes) : Owned [] (.start text) where
  intact := by simp [MonitorServer.start]
  blocks := ⟨rfl, List.Perm.refl _⟩
  threads := ⟨rfl, List.Perm.refl _⟩

/-- Every run keeps the ledgers. -/
theorem owned_run {text : Bytes} {inputs : List Input}
    (h : Machine.run MonitorServer.step (.start text) inputs = .ok (server, trace)) :
    Owned trace server :=
  Machine.run_history (fun _ => Owned) (fun _ => True)
    (fun _ _ _ _ _ _ howned _ hstep => howned.step hstep) (owned_start text) (fun _ _ => trivial) h

/-- Only a request that registers a camera destroys a joinable thread. -/
theorem step_joinable {input : Input} (h : server.step input = .error (.fault .joinableThread)) :
    ∃ fd chunk client parsed, input = .receive fd (.bytes chunk) ∧
      server.qtClients[fd]? = some client ∧
      parseRequest (takeRequest client.buffer chunk).1 = .ok parsed ∧ parsed.Registers ∧
      registerCams (client.reading chunk) server.created parsed.headers =
        .error .joinableThread := by
  cases input with
  | accept fd clientIp =>
      simp only [MonitorServer.step] at h
      split at h <;> cases h
  | receive fd result =>
      simp only [MonitorServer.step] at h
      split at h
      · cases h
      rename_i client hclient
      split at h
      · rename_i fault hfault
        cases h
        cases result with
        | failed => cases hfault
        | bytes chunk =>
            by_cases hchunk : chunk = []
            · subst hchunk
              cases hfault
            rcases MonitorServer.receive_error hchunk hfault with hparse | ⟨parsed, hparse, hrest⟩
            · cases parse_error hparse
            · exact ⟨fd, chunk, client, parsed, rfl, hclient, hparse, hrest⟩
      · cases h
  | datagram stale datagram =>
      simp only [MonitorServer.step] at h
      split at h
      · rename_i fault hfault
        cases h
        unfold MonitorServer.receiveDatagram at hfault
        simp only at hfault
        split at hfault
        · cases hfault
        · split at hfault <;> cases hfault
      · cases h
  | addCam sessionId stringName => cases h
  | removeCam sessionId => cases h

end Runs

/-- Every MESSAGE and ADDCAM in the run names only cameras for which its client has no session at
that point. -/
def NamesOnlyNew (text : Bytes) (inputs : List Input) : Prop :=
  ∀ past fd chunk rest server trace client, inputs = past ++ .receive fd (.bytes chunk) :: rest →
    Machine.run MonitorServer.step (.start text) past = .ok (server, trace) →
    server.qtClients[fd]? = some client →
    ∀ parsed, parseRequest (takeRequest client.buffer chunk).1 = .ok parsed → parsed.Registers →
      ∀ name ∈ parsed.headers, name ≠ ascii "cseq" → client.sessionMap[name]? = none

/-- When every request names only cameras without a session, no run destroys a joinable thread, and
every state that a run reaches is one whose sessions own their threads and control blocks. -/
theorem never_overwritten (text : Bytes) (inputs : List Input) (h : NamesOnlyNew text inputs) :
    Machine.run MonitorServer.step (.start text) inputs ≠ .error (.fault .joinableThread) ∧
      ∀ server trace, Machine.run MonitorServer.step (.start text) inputs = .ok (server, trace) →
        Owned trace server := by
  refine ⟨fun hrun => ?_, fun server trace hrun => owned_run hrun⟩
  obtain ⟨past, input, rest, server, trace, heq, hpast, hstep⟩ := Machine.run_error_inv hrun
  obtain ⟨fd, chunk, client, parsed, rfl, hclient, hparse, hregisters, hjoinable⟩ :=
    step_joinable hstep
  refine register_new (fun name hname hcseq => ?_) hjoinable
  exact h past fd chunk rest server trace client heq hpast hclient parsed hparse hregisters name
    hname hcseq

/-- A client that registers its first camera. -/
theorem never_overwritten_first :
    Machine.run MonitorServer.step (.start (ascii "10.0.0.1:9000")) [.accept 5 (ascii "10.0.0.5"),
        .receive 5 (.bytes (clientText ["MESSAGE 10.0.0.5:40000", "Cseq: 1",
          "66a1-1: 5000 5001 1001"]))] ≠ .error (.fault .joinableThread) := by
  refine (never_overwritten _ _ ?_).1
  intro past fd chunk rest server trace client heq hpast hclient parsed _ _ name _ _
  rcases past with _ | ⟨first, _ | ⟨second, past⟩⟩
  · cases heq
  · simp only [List.cons_append, List.nil_append, List.cons.injEq] at heq
    obtain ⟨rfl, heq, -⟩ := heq
    cases heq
    cases hpast
    have hnew : (⟨ascii "10.0.0.5", ∅, [], 0⟩ : QtClient) = client := by
      simpa [MonitorServer.start] using hclient
    rw [← hnew]
    simp
  · simp at heq

/-- A camera is added while a client connects: the client is told of it twice, by ADDCAM and by the
answer to its SETUP, and registers it twice. -/
theorem never_overwritten_fails_told_twice :
    ¬ ∀ (text : Bytes) (inputs : List Input),
      Machine.run MonitorServer.step (.start text) inputs ≠ .error (.fault .joinableThread) := by
  intro h
  let inputs : List Input :=
    [.accept 5 (ascii "10.0.0.5"), .addCam (ascii "66a1-1") (ascii "gate"),
      .receive 5 (.bytes (clientText ["SETUP 10.0.0.5:40000", "Cseq: 1"])),
      .receive 5 (.bytes (clientText ["ADDCAM 10.0.0.5:40000", "Cseq: 2",
        "66a1-1: 5000 5001 1001"])),
      .receive 5 (.bytes (clientText ["MESSAGE 10.0.0.5:40000", "Cseq: 3",
        "66a1-1: 5002 5003 1002"]))]
  have hhalt : (Machine.run MonitorServer.step (.start (ascii "10.0.0.1:9000")) inputs).map
      (fun _ => ()) = .error (.fault .joinableThread) := by
    decide +kernel
  cases hrun : Machine.run MonitorServer.step (.start (ascii "10.0.0.1:9000")) inputs with
  | error halt =>
      rw [hrun] at hhalt
      cases hhalt
      exact h _ _ hrun
  | ok result =>
      rw [hrun] at hhalt
      cases hhalt

end CarDetect.Monitor
