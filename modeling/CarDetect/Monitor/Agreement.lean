import CarDetect.Monitor.LinkProtocol

/-!
# The tables of cameras of the server and of its clients

`cams_agree` says that the tables are alike whenever no message is in flight, in runs that remove no
camera while a message names it. Every link of such a run follows the protocol of `CamStep`. In
`cams_agree_fails_in_flight` a camera is removed while its ADDCAM is in flight, and the client and
its session keep it.
-/

namespace CarDetect.Monitor

open BigEndian ByteString Reactor Std

/-- A camera is removed only when no message in flight names it, and there are never 2^31
cameras. -/
def Separate (system : MonitorSystem) : Action → Prop
  | .addCam sessionId stringName =>
      (system.server.cams.insert sessionId.text stringName).size < 2 ^ 31
  | .removeCam sessionId =>
      ∀ (fd : Int) link, system.links[fd]? = some link → ¬ link.Names sessionId.text
  | _ => True

/-! ## Runs of the system -/

/-- The link is in a consistent state of the protocol. -/
def LinkOk (cams : TreeMap Bytes Bytes) (client : QtClient) (link : Link) : Prop :=
  ∃ tables, Represents cams client link tables ∧ Consistent tables

/-- The server has a client for every link, and every link is in a consistent state. -/
structure SystemOk (system : MonitorSystem) : Prop where
  server : ServerOk system.server
  links : ∀ (fd : Int) link, system.links[fd]? = some link →
    ∃ client, system.server.qtClients[fd]? = some client ∧ LinkOk system.server.cams client link

section Systems

variable {system next : MonitorSystem} {server : MonitorServer} {fd : Int} {client : QtClient}
  {link : Link} {events : List Event} {cams : TreeMap Bytes Bytes}
  {body : Int → QtClient → QtClient × List Event}

/-- A step of the protocol keeps a link in order. -/
theorem LinkOk.step {after : QtClient} {link' : Link} (h : LinkOk system.server.cams client link)
    (hstep : ∀ tables, Represents system.server.cams client link tables →
      ∃ tables', Represents cams after link' tables' ∧ Tables.CamStep tables tables') :
    LinkOk cams after link' := by
  obtain ⟨tables, hrep, hconsistent⟩ := h
  obtain ⟨tables', hrep', hcam⟩ := hstep tables hrep
  exact ⟨tables', hrep', hconsistent.step hcam⟩

/-- What a loop over the clients sends to one of them. -/
theorem sent_for_clients (server : MonitorServer) (hown : ∀ key client, ∀ other text, other ≠ key →
      .send other text ∉ (body key client).2)
    (hclient : server.qtClients[fd]? = some client) :
    sentTo fd (server.forClients body).2 = sentTo fd (body fd client).2 := by
  unfold MonitorServer.forClients
  show List.filterMap _ (server.qtClients.toList.flatMap _) = _
  rw [List.filterMap_flatMap]
  refine OrderedMap.flatMap_of_get (f := fun entry => sentTo fd (body entry.1 entry.2).2) hclient
    fun entry hne => ?_
  exact sent_to_nil fun text hmem => hown entry.1 entry.2 fd text hne.symm hmem

/-- A loop over the clients that is a step of the protocol on every link. -/
theorem SystemOk.loop (h : SystemOk system) (cams : TreeMap Bytes Bytes)
    (body : Int → QtClient → QtClient × List Event)
    (hserver : ServerOk { system.server with cams := cams })
    (hown : ∀ key client, ∀ other text, other ≠ key → .send other text ∉ (body key client).2)
    (hlinks : ∀ (fd : Int) client link tables, system.links[fd]? = some link →
      Represents system.server.cams client link tables →
      ∃ tables', Represents cams (body fd client).1
        (link.deliver (sentTo fd (body fd client).2)) tables' ∧ Tables.CamStep tables tables')
    (hnext : next = ⟨(MonitorServer.forClients { system.server with cams := cams } body).1,
      system.links.map fun fd link => link.deliver
        (sentTo fd (MonitorServer.forClients { system.server with cams := cams } body).2)⟩) :
    SystemOk next := by
  subst hnext
  refine ⟨⟨hserver.address, hserver.camIds, hserver.size⟩, fun fd link hlink => ?_⟩
  obtain ⟨before, hbefore, rfl⟩ :=
    Option.map_eq_some_iff.1 ((TreeMap.getElem?_map ..).symm.trans hlink)
  obtain ⟨client, hclient, hok⟩ := h.links fd before hbefore
  refine ⟨(body fd client).1, ?_, ?_⟩
  · show (system.server.qtClients.map _)[fd]? = _
    rw [TreeMap.getElem?_map, hclient]
    rfl
  · rw [sent_for_clients { system.server with cams := cams } hown hclient]
    exact hok.step fun tables hrep => hlinks fd client before tables hbefore hrep

/-- Only a new name is new among the cameras. -/
theorem cam_ids_insert {id : Bytes} (hids : ∀ id ∈ cams, IsSessionId id) (hid : IsSessionId id)
    (stringName : Bytes) : ∀ other ∈ cams.insert id stringName, IsSessionId other := by
  intro other hother
  rcases TreeMap.mem_insert.1 hother with heq | hold
  · exact LawfulEqOrd.compare_eq_iff_eq.1 heq ▸ hid
  · exact hids other hold

/-- The server adds a camera. -/
theorem SystemOk.addCam (h : SystemOk system) (sessionId : SessionId) (stringName : Bytes)
    (hsize : (system.server.cams.insert sessionId.text stringName).size < 2 ^ 31)
    (hstep : system.step (.addCam sessionId stringName) = .ok (next, events)) : SystemOk next := by
  cases hstep
  refine h.loop (system.server.cams.insert sessionId.text stringName)
    (MonitorServer.announceCam system.server.server sessionId.text)
    ⟨h.server.address, cam_ids_insert h.server.camIds sessionId.valid stringName, hsize⟩
    (fun key client other text hne hmem => ?_) (fun fd client link tables _ hrep =>
      add_cam_link h.server sessionId.valid stringName hrep) rfl
  cases (MonitorServer.announce_frame _ sessionId.text key client).2.2 _ hmem
  exact hne rfl

/-- The server removes a camera that no message in flight names. -/
theorem SystemOk.removeCam (h : SystemOk system) (sessionId : SessionId)
    (hquiet : ∀ (fd : Int) link, system.links[fd]? = some link → ¬ link.Names sessionId.text)
    (hstep : system.step (.removeCam sessionId) = .ok (next, events)) : SystemOk next := by
  cases hstep
  refine h.loop (system.server.cams.erase sessionId.text)
    (MonitorServer.withdrawCam system.server.server sessionId.text)
    ⟨h.server.address, fun other hother => h.server.camIds other (TreeMap.mem_of_mem_erase hother),
      TreeMap.size_erase_le.trans_lt h.server.size⟩
    (fun key client other text hne hmem => ?_) (fun fd client link tables hlink hrep =>
      remove_cam_link h.server sessionId.valid hrep
        (quiet_of_not_names hrep (hquiet fd link hlink)))
    rfl
  rcases (MonitorServer.withdraw_frame _ sessionId.text key client).2.2 _ hmem with
    heq | ⟨_, heq⟩ | ⟨_, heq⟩
  · cases heq
    exact hne rfl
  · cases heq
  · cases heq

/-- The link of another client. -/
theorem SystemOk.other (h : SystemOk system) {other : Int} (hne : fd ≠ other)
    (hlink : system.links[other]? = some link) (after : QtClient) :
    ∃ client, (system.server.qtClients.insert fd after)[other]? = some client ∧
      LinkOk system.server.cams client link := by
  rw [TreeMap.getElem?_insert, if_neg (fun heq => hne (LawfulEqOrd.compare_eq_iff_eq.1 heq))]
  exact h.links other link hlink

/-- A link after its own insertion, or another one. -/
theorem link_cases {links : TreeMap Int Link} {new : Link} {other : Int}
    (h : (links.insert fd new)[other]? = some link) :
    fd = other ∧ link = new ∨ fd ≠ other ∧ links[other]? = some link := by
  rw [TreeMap.getElem?_insert] at h
  split at h
  · rename_i heq
    exact .inl ⟨LawfulEqOrd.compare_eq_iff_eq.1 heq, (Option.some.inj h).symm⟩
  · rename_i hne
    exact .inr ⟨fun heq => hne (LawfulEqOrd.compare_eq_iff_eq.2 heq), h⟩

/-- A client connects, and sends SETUP. -/
theorem SystemOk.connect {clientIp : Bytes} {localAddress : AddressText} (h : SystemOk system)
    (hstep : system.step (.connect fd clientIp localAddress) = .ok (next, events)) :
    SystemOk next := by
  unfold MonitorSystem.step at hstep
  simp only at hstep
  cases hserve : system.serve (.accept fd clientIp) with
  | error stuck =>
      rw [hserve] at hstep
      cases hstep
  | ok result =>
      obtain ⟨after, calls⟩ := result
      rw [hserve] at hstep
      cases hstep
      obtain ⟨server, haccept, rfl⟩ := MonitorSystem.serve_ok hserve
      cases MonitorServer.step_ok haccept with
      | accept _ _ _ =>
          refine ⟨⟨h.server.address, h.server.camIds, h.server.size⟩, fun other link hlink => ?_⟩
          rcases link_cases hlink with ⟨rfl, rfl⟩ | ⟨hne, hlink⟩
          · refine ⟨_, TreeMap.getElem?_insert_self, .connected {id | id ∈ system.server.cams}, ?_,
              .connected _⟩
            refine ⟨rfl, rfl, fun id hid => ?_, rfl, ?_, ?_, .cons (.setup localAddress 1) .nil,
              .nil⟩
            · exact absurd hid (by simp [MonitorClientWidget.sendSetup, MonitorClientWidget.start])
            · funext id
              rfl
            · funext id
              rfl
          · obtain ⟨before, hbefore, rfl⟩ :=
              Option.map_eq_some_iff.1 ((TreeMap.getElem?_map ..).symm.trans hlink)
            rw [show sentTo other [] = [] from rfl, Link.deliver_nil]
            exact h.other hne hbefore _

/-- The server reads the oldest request of a client. -/
theorem SystemOk.serverReads (h : SystemOk system)
    (hstep : system.step (.serverReads fd) = .ok (next, events)) : SystemOk next := by
  unfold MonitorSystem.step at hstep
  simp only at hstep
  split at hstep
  · rename_i widget text up down hlink
    obtain ⟨client, hclient, tables, hrep, hconsistent⟩ := h.links fd _ hlink
    obtain ⟨server, hserved, rfl⟩ := MonitorSystem.serve_ok hstep
    have hreceive : system.server.receive fd client (.bytes text) = .ok (server, events) := by
      unfold MonitorServer.step at hserved
      simp only [hclient] at hserved
      split at hserved
      · cases hserved
      · rename_i outcome houtcome
        cases hserved
        exact houtcome
    obtain ⟨after, created, rfl, hothers, tables', hrep', hcam⟩ :=
      server_reads_link h.server hrep hreceive
    refine ⟨⟨h.server.address, h.server.camIds, h.server.size⟩, fun other link hafter => ?_⟩
    obtain ⟨before, hbefore, rfl⟩ :=
      Option.map_eq_some_iff.1 ((TreeMap.getElem?_map ..).symm.trans hafter)
    rcases link_cases hbefore with ⟨rfl, rfl⟩ | ⟨hne, hbefore⟩
    · exact ⟨after, TreeMap.getElem?_insert_self, tables', hrep', hconsistent.step hcam⟩
    · -- the other links neither send nor receive
      rw [sent_to_nil fun text => hothers other text hne.symm, Link.deliver_nil]
      exact h.other hne hbefore after
  · cases hstep

/-- A client reads the oldest message of the server. -/
theorem SystemOk.clientReads {sockets : Nat → UInt16 × UInt16} (h : SystemOk system)
    (hstep : system.step (.clientReads fd sockets) = .ok (next, events)) : SystemOk next := by
  unfold MonitorSystem.step at hstep
  simp only at hstep
  split at hstep
  · rename_i widget up text down hlink
    obtain ⟨client, hclient, tables, hrep, hconsistent⟩ := h.links fd _ hlink
    obtain ⟨tables', hrep', hcam⟩ := client_reads_link hrep sockets
    cases hstep
    refine ⟨h.server, fun other link hafter => ?_⟩
    rcases link_cases hafter with ⟨rfl, rfl⟩ | ⟨-, hbefore⟩
    · exact ⟨client, hclient, tables', hrep', hconsistent.step hcam⟩
    · exact h.links other link hbefore
  · cases hstep

/-- A step that removes no camera while a message names it keeps every link in order. -/
theorem SystemOk.step {action : Action} (h : SystemOk system) (hseparate : Separate system action)
    (hstep : system.step action = .ok (next, events)) : SystemOk next := by
  cases action with
  | connect fd clientIp localAddress => exact h.connect hstep
  | addCam sessionId stringName => exact h.addCam sessionId stringName hseparate hstep
  | removeCam sessionId => exact h.removeCam sessionId hseparate hstep
  | serverReads fd => exact h.serverReads hstep
  | clientReads fd sockets => exact h.clientReads hstep

/-- The server has started, and no client is connected. -/
theorem SystemOk.start (ip : AddressText) (port : UInt16) : SystemOk (.start ip port) := by
  refine ⟨⟨⟨?_, fun byte hbyte => ?_⟩, fun id hid => ?_, show 0 < 2 ^ 31 by decide⟩,
    fun fd link hlink => ?_⟩
  · simp [MonitorSystem.start, MonitorServer.start, InetAddress.toString, print_ne_nil]
  · rcases List.mem_append.1 hbyte with hbyte | hbyte
    · rcases List.mem_append.1 hbyte with hbyte | hbyte
      · exact ip.visible byte hbyte
      · cases List.mem_singleton.1 hbyte
        rfl
    · exact print_visible _ byte hbyte
  · exact absurd hid (by simp [MonitorSystem.start, MonitorServer.start])
  · exact absurd hlink (by simp [MonitorSystem.start])

end Systems

/-! ## Agreement -/

/-- The sessions of a client, its own table and the table of the server name the same cameras, and
the two sides have the same conversations. -/
def Alike (cams : TreeMap Bytes Bytes) (client : QtClient) (widget : MonitorClientWidget) : Prop :=
  ∀ id, (id ∈ client.sessionMap ↔ id ∈ cams) ∧ (id ∈ widget.camMap ↔ id ∈ cams) ∧
    sessionConvs client.sessionMap id = convs widget.camMap id

/-- No message is in flight. -/
def Link.Idle (link : Link) : Prop :=
  link.up = [] ∧ link.down = []

/-- An idle link has been answered, and its tables are alike. -/
theorem LinkOk.alike {cams : TreeMap Bytes Bytes} {client : QtClient} {link : Link}
    (h : LinkOk cams client link) (hidle : link.Idle) : Alike cams client link.widget := by
  obtain ⟨tables, hrep, hconsistent⟩ := h
  have hup : tables.up = [] := List.forall₂_nil_left_iff.1 (hidle.1 ▸ hrep.up)
  have hdown : tables.down = [] := List.forall₂_nil_left_iff.1 (hidle.2 ▸ hrep.down)
  intro id
  obtain ⟨hsession, hcam⟩ := hconsistent.agree hup hdown id
  rw [hrep.cams, hrep.sessions] at hsession
  rw [hrep.camMap, hrep.sessions] at hcam
  have hmem : id ∈ client.sessionMap ↔ sessionConvs client.sessionMap id ≠ none := by
    rw [TreeMap.mem_iff_isSome_getElem?, Option.isSome_iff_ne_none, sessionConvs, ne_eq, ne_eq,
      Option.map_eq_none_iff]
  have hstored : id ∈ link.widget.camMap ↔ convs link.widget.camMap id ≠ none := by
    rw [TreeMap.mem_iff_isSome_getElem?, Option.isSome_iff_ne_none, convs, ne_eq, ne_eq,
      Option.map_eq_none_iff]
  exact ⟨hmem.trans hsession, (hstored.trans (by rw [hcam])).trans hsession, hcam.symm⟩

/-- In every state of a run that removes no camera while a message names it, the tables of an idle
link are alike. -/
theorem cams_agree {ip : AddressText} {port : UInt16} {actions : List Action}
    {system : MonitorSystem} {events : List Event} {fd : Int} {link : Link}
    (hseparate : Machine.Guarded MonitorSystem.step Separate (.start ip port) actions)
    (h : Machine.run MonitorSystem.step (.start ip port) actions = .ok (system, events))
    (hlink : system.links[fd]? = some link) (hidle : link.Idle) :
    ∃ client, system.server.qtClients[fd]? = some client ∧
      Alike system.server.cams client link.widget := by
  have hok : SystemOk system := Machine.run_guarded SystemOk
    (fun _ _ _ _ hinv hguard hstep => hinv.step hguard hstep) (.start ip port) hseparate h
  obtain ⟨client, hclient, hlinkOk⟩ := hok.links fd link hlink
  exact ⟨client, hclient, hlinkOk.alike hidle⟩

section Examples

/-- An id with this counter. -/
def generatedId (sessionCounter : Nat) : SessionId :=
  ⟨generateSessionId 26273 sessionCounter, generated_session_id 26273 sessionCounter⟩

def firstCam : SessionId := generatedId 1

def secondCam : SessionId := generatedId 2

def serverIp : AddressText := ⟨ascii "10.0.0.1", forall_byte (by decide)⟩

/-- A client connects, and reads the empty answer to its SETUP. -/
def handshakeActions : List Action :=
  [.connect 5 (ascii "10.0.0.5") ⟨ascii "10.0.0.5:40000", forall_byte (by decide)⟩, .serverReads 5,
    .clientReads 5 fun _ => (0, 0)]

/-- Two cameras are added, and the first is removed when the client has answered for both. -/
def separateActions : List Action :=
  handshakeActions ++ [.addCam firstCam [], .addCam secondCam [],
    .clientReads 5 fun _ => (5000, 5001), .clientReads 5 fun _ => (5002, 5003), .serverReads 5,
    .serverReads 5, .removeCam firstCam, .clientReads 5 fun _ => (0, 0)]

/-- A camera is removed while its ADDCAM is in flight. -/
def racingActions : List Action :=
  handshakeActions ++ [.addCam firstCam [], .removeCam firstCam,
    .clientReads 5 fun _ => (5000, 5001), .serverReads 5]

/-- What the test of a removal asks: that no message is in flight at all. -/
def idleRemovals (system : MonitorSystem) : Action → Bool
  | .addCam sessionId stringName =>
      (system.server.cams.insert sessionId.text stringName).size < 2 ^ 31
  | .removeCam _ =>
      system.links.toList.all fun entry => entry.2.up.isEmpty && entry.2.down.isEmpty
  | _ => true

theorem idle_of_all {links : TreeMap Int Link} {fd : Int} {link : Link}
    (h : (links.toList.all fun entry => entry.2.up.isEmpty && entry.2.down.isEmpty) = true)
    (hlink : links[fd]? = some link) : link.Idle := by
  have hentry := List.all_eq_true.1 h (fd, link) (TreeMap.mem_toList_iff_getElem?_eq_some.2 hlink)
  rwa [Bool.and_eq_true, List.isEmpty_iff, List.isEmpty_iff] at hentry

theorem separate_of_idle {system : MonitorSystem} {action : Action}
    (h : idleRemovals system action = true) : Separate system action := by
  cases action with
  | addCam sessionId stringName =>
      have hsize : (system.server.cams.insert sessionId.text stringName).size < 2 ^ 31 :=
        of_decide_eq_true h
      exact hsize
  | removeCam sessionId =>
      intro fd link hlink
      obtain ⟨hup, hdown⟩ := idle_of_all h hlink
      rintro (⟨text, htext, -⟩ | ⟨text, htext, -⟩)
      · simp [hup] at htext
      · simp [hdown] at htext
  | connect | serverReads | clientReads => trivial

/-- After the removal, the second camera is left in the three tables. -/
theorem cams_agree_two_cams :
    ∃ system events client link,
      Machine.run MonitorSystem.step (.start serverIp 9000) separateActions = .ok (system, events) ∧
      system.links[(5 : Int)]? = some link ∧ system.server.qtClients[(5 : Int)]? = some client ∧
      secondCam.text ∈ system.server.cams ∧ Alike system.server.cams client link.widget := by
  have hguarded : Machine.Guarded MonitorSystem.step Separate (.start serverIp 9000)
      separateActions :=
    Machine.guarded_of_check (fun _ _ => separate_of_idle)
      (show Machine.guardedBy MonitorSystem.step idleRemovals _ _ = true by decide +kernel)
  have hview : (Machine.run MonitorSystem.step (.start serverIp 9000) separateActions).map
      (fun result => (result.1.links[(5 : Int)]?.map fun link => (link.up, link.down),
        result.1.server.cams.contains secondCam.text)) = .ok (some ([], []), true) := by
    decide +kernel
  cases hrun : Machine.run MonitorSystem.step (.start serverIp 9000) separateActions with
  | error stuck =>
      rw [hrun] at hview
      cases hview
  | ok result =>
      obtain ⟨system, events⟩ := result
      rw [hrun] at hview
      obtain ⟨hidle, hcam⟩ := Prod.mk.inj (Except.ok.inj hview)
      obtain ⟨link, hlink, hqueues⟩ := Option.map_eq_some_iff.1 hidle
      obtain ⟨hup, hdown⟩ := Prod.mk.inj hqueues
      obtain ⟨client, hclient, halike⟩ := cams_agree hguarded hrun hlink ⟨hup, hdown⟩
      exact ⟨system, events, client, link, rfl, hlink, hclient, TreeMap.contains_iff_mem.1 hcam,
        halike⟩

/-- The ADDCAM of a camera that has been removed makes the client and the server store it. -/
theorem cams_agree_fails_in_flight :
    ¬ ∀ (ip : AddressText) (port : UInt16) (actions : List Action) (system : MonitorSystem)
      (events : List Event),
      Machine.run MonitorSystem.step (.start ip port) actions = .ok (system, events) →
      (∀ (fd : Int) link, system.links[fd]? = some link → link.Idle) →
      ∀ (fd : Int) link, system.links[fd]? = some link →
        ∃ client, system.server.qtClients[fd]? = some client ∧
          Alike system.server.cams client link.widget := by
  intro h
  have hview : (Machine.run MonitorSystem.step (.start serverIp 9000) racingActions).map
      (fun result => (result.1.links.toList.all fun entry =>
          entry.2.up.isEmpty && entry.2.down.isEmpty,
        result.1.links[(5 : Int)]?.map fun link => link.widget.camMap.contains firstCam.text,
        result.1.server.cams.contains firstCam.text)) = .ok (true, some true, false) := by
    decide +kernel
  cases hrun : Machine.run MonitorSystem.step (.start serverIp 9000) racingActions with
  | error stuck =>
      rw [hrun] at hview
      cases hview
  | ok result =>
      obtain ⟨system, events⟩ := result
      rw [hrun] at hview
      obtain ⟨hidle, hrest⟩ := Prod.mk.inj (Except.ok.inj hview)
      obtain ⟨hstored, hcam⟩ := Prod.mk.inj hrest
      obtain ⟨link, hlink, hmem⟩ := Option.map_eq_some_iff.1 hstored
      obtain ⟨client, -, halike⟩ := h serverIp 9000 racingActions system events hrun
        (fun fd other hother => idle_of_all hidle hother) 5 link hlink
      have hkept := (halike firstCam.text).2.1.1 (TreeMap.contains_iff_mem.1 hmem)
      rw [← TreeMap.contains_iff_mem, hcam] at hkept
      cases hkept

end Examples

end CarDetect.Monitor
