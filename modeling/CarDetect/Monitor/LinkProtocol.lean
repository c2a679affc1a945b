import CarDetect.Monitor.CamProtocol
import CarDetect.Monitor.Handshake
import CarDetect.Monitor.MonitorSystem

/-!
# The messages of a link and the protocol

`Represents` relates a client of the server, its link and the cameras to a state of `CamStep`, and
the theorems `server_reads_link`, `add_cam_link`, `remove_cam_link` and `client_reads_link` say that
what the two programs do with their texts is a step of the protocol.
-/

namespace CarDetect.Monitor

open BigEndian ByteString Reactor Std

/-! ## Messages that name a camera -/

/-- A request of the client registers the camera. -/
def NamesUp (text id : Bytes) : Prop :=
  ∃ parsed, parseRequest (takeRequest [] text).1 = .ok parsed ∧ parsed.Registers ∧
    id ∈ parsed.headers

/-- An answer that lists the camera, or an ADDCAM for it. -/
def ParsedRespond.Names (respond : ParsedRespond) (id : Bytes) : Prop :=
  id ∈ answeredCams respond.headers ∨
    respond.first = ascii "ADDCAM" ∧ respond.headers[ascii "SessionId"]? = some id

/-- A message of the server announces the camera. -/
def NamesDown (text id : Bytes) : Prop :=
  (parseRespond (takeRespond [] text).1).Names id

/-- A message in flight names the camera. -/
def Link.Names (link : Link) (id : Bytes) : Prop :=
  (∃ text ∈ link.up, NamesUp text id) ∨ ∃ text ∈ link.down, NamesDown text id

/-! ## Messages as messages of the protocol -/

/-- The conversations of a table of cameras. -/
def convs (camMap : TreeMap Bytes TransUdpPort) (id : Bytes) : Option UInt32 :=
  camMap[id]?.map fun udpPort => udpPort.conv

/-- What a request of the client says. -/
inductive CarriesUp : Bytes → Up Bytes UInt32 → Prop where
  | setup (localAddress cseq) : CarriesUp (camsText (ascii "SETUP") localAddress cseq []) .setup
  | register (method localAddress cseq) (camMap : TreeMap Bytes TransUdpPort)
      (hmethod : method = ascii "MESSAGE" ∨ method = ascii "ADDCAM")
      (hids : ∀ id ∈ camMap, IsSessionId id) :
      CarriesUp (camsText method localAddress cseq camMap.toList) (.register (convs camMap))

/-- What a message of the server says. -/
inductive CarriesDown : Bytes → Down Bytes → Prop where
  | answer (cams : TreeMap Bytes Bytes) (cseq) (hids : ∀ id ∈ cams, IsSessionId id)
      (hsize : cams.size < 2 ^ 31) :
      CarriesDown (respondText (setupHeaders cams) cseq) (.answer {id | id ∈ cams})
  | addCam (server id cseq) (hserver : server ≠ [] ∧ ∀ byte ∈ server, isspace byte = false)
      (hid : IsSessionId id) : CarriesDown (addCamReq server id cseq) (.addCam id)
  | delCam (server id cseq) (hserver : server ≠ [] ∧ ∀ byte ∈ server, isspace byte = false)
      (hid : IsSessionId id) : CarriesDown (removeCamReq server id cseq) (.delCam id)

section Messages

variable {text id : Bytes} {camMap : TreeMap Bytes TransUdpPort}

/-- The entries of a table have distinct names. -/
theorem cam_names_nodup (camMap : TreeMap Bytes TransUdpPort) :
    (camMap.toList.map Prod.fst).Nodup := by
  rw [TreeMap.map_fst_toList_eq_keys]
  exact TreeMap.nodup_keys

theorem cam_entries (hids : ∀ id ∈ camMap, IsSessionId id) :
    ∀ cam ∈ camMap.toList, IsSessionId cam.1 := fun _ hcam =>
  hids _ (TreeMap.mem_iff_isSome_getElem?.2
    (Option.isSome_iff_exists.2 ⟨_, TreeMap.mem_toList_iff_getElem?_eq_some.1 hcam⟩))

/-- A request that registers a camera names it. -/
theorem CarriesUp.names {table : Bytes → Option UInt32} (h : CarriesUp text (.register table))
    (hid : table id ≠ none) : NamesUp text id := by
  cases h with
  | register method localAddress cseq camMap hmethod hids =>
      obtain ⟨parsed, -, hparse, hregisters, hheaders⟩ := server_reads_register (cam_entries hids)
        (cam_names_nodup camMap) hmethod localAddress cseq
      refine ⟨parsed, hparse, hregisters, ?_⟩
      obtain ⟨udpPort, hport⟩ := Option.ne_none_iff_exists'.1 (fun hnone => hid (by
        rw [convs, hnone]
        rfl) : camMap[id]? ≠ none)
      rw [TreeMap.mem_iff_isSome_getElem?]
      refine Option.isSome_iff_exists.2 ⟨portsText udpPort, (hheaders _ _).2 (.inr ?_)⟩
      exact ⟨(id, udpPort), TreeMap.mem_toList_iff_getElem?_eq_some.2 hport, rfl⟩

/-- An answer names the cameras that it lists. -/
theorem CarriesDown.answer_names {ids : Set Bytes} (h : CarriesDown text (.answer ids))
    (hid : id ∈ ids) : NamesDown text id := by
  cases h with
  | answer cams cseq hids hsize =>
      have hlisted := answered_cams hids cseq hsize
      unfold answerRead at hlisted
      unfold NamesDown ParsedRespond.Names
      rw [hlisted, TreeMap.mem_keys]
      exact .inl hid

theorem CarriesDown.add_names (h : CarriesDown text (.addCam id)) : NamesDown text id := by
  cases h with
  | addCam server id cseq hserver hid =>
      obtain ⟨respond, -, hparse, hfirst, hsession, -⟩ := client_reads_cam_request
        (show ascii "ADDCAM" ≠ [] ∧ ∀ byte ∈ ascii "ADDCAM", isspace byte = false from
          ⟨by decide, forall_byte (by decide)⟩) hserver
        hid cseq
      unfold NamesDown addCamReq
      rw [show ascii "ADDCAM " = ascii "ADDCAM" ++ [32] from rfl, hparse]
      exact .inr ⟨hfirst, hsession⟩

end Messages

/-! ## What the client does with a message -/

section Reading

variable {widget : MonitorClientWidget} (hbuffer : widget.buffer = [])

include hbuffer in
/-- An answer without cameras changes nothing. -/
theorem on_ready_read_empty {cams : TreeMap Bytes Bytes} (hids : ∀ id ∈ cams, IsSessionId id)
    (hempty : cams.size = 0) (cseq : Nat) (sockets : Nat → UInt16 × UInt16) :
    widget.onReadyRead (respondText (setupHeaders cams) cseq) sockets = (widget, []) := by
  obtain ⟨hrest, hfirst, hheaders⟩ := client_reads_answer hids cseq
  have hnum : (answerRead cams cseq).headers.getD (ascii "CamNum") (ascii "0") = ascii "0" := by
    rw [TreeMap.getD_eq_getD_getElem?, (hheaders _ (printNat cams.size) (by decide)).2
      ((setup_headers_iff cams _ _).2 (.inr ⟨rfl, rfl⟩)), hempty]
    rfl
  unfold MonitorClientWidget.onReadyRead
  unfold answerRead at hfirst hnum
  simp only [hbuffer, hrest, hfirst, hnum]
  rw [if_neg (by decide), if_neg (by decide), if_neg (by decide), ← hbuffer]

variable {server id : Bytes} (hserver : server ≠ [] ∧ ∀ byte ∈ server, isspace byte = false)
  (hid : IsSessionId id)

include hbuffer hserver hid in
/-- A new camera is stored and answered. -/
theorem on_ready_read_add (cseq : Nat) (sockets : Nat → UInt16 × UInt16) :
    let udpPort : TransUdpPort := ⟨(sockets 0).1, (sockets 0).2, widget.conv + 1⟩
    widget.onReadyRead (addCamReq server id cseq) sockets =
      ({ widget with
          camMap := widget.camMap.insert id udpPort
          conv := widget.conv + 1
          cseq := widget.cseq + 1 },
        [camsText (ascii "ADDCAM") widget.localAddress (widget.cseq + 1) [(id, udpPort)]]) := by
  obtain ⟨respond, hrest, hparse, hfirst, hsession, hnum⟩ := client_reads_cam_request
    (show ascii "ADDCAM" ≠ [] ∧ ∀ byte ∈ ascii "ADDCAM", isspace byte = false from
      ⟨by decide, forall_byte (by decide)⟩) hserver
    hid cseq
  have hzero : respond.headers.getD (ascii "CamNum") (ascii "0") = ascii "0" := by
    rw [TreeMap.getD_eq_getD_getElem?, hnum]
    rfl
  unfold MonitorClientWidget.onReadyRead addCamReq
  rw [show ascii "ADDCAM " = ascii "ADDCAM" ++ [32] from rfl]
  simp only [hbuffer, hrest, hparse, hzero, hfirst, hsession]
  rw [if_neg (by decide), if_pos trivial]
  unfold MonitorClientWidget.sendAddCamRespond
  simp only [TreeMap.getElem?_insert_self]
  rfl

include hbuffer hserver hid in
/-- A removed camera is erased. -/
theorem on_ready_read_del (cseq : Nat) (sockets : Nat → UInt16 × UInt16) :
    widget.onReadyRead (removeCamReq server id cseq) sockets =
      ({ widget with camMap := widget.camMap.erase id }, []) := by
  obtain ⟨respond, hrest, hparse, hfirst, hsession, hnum⟩ := client_reads_cam_request
    (show ascii "DELCAM" ≠ [] ∧ ∀ byte ∈ ascii "DELCAM", isspace byte = false from
      ⟨by decide, forall_byte (by decide)⟩) hserver
    hid cseq
  have hzero : respond.headers.getD (ascii "CamNum") (ascii "0") = ascii "0" := by
    rw [TreeMap.getD_eq_getD_getElem?, hnum]
    rfl
  unfold MonitorClientWidget.onReadyRead removeCamReq
  rw [show ascii "DELCAM " = ascii "DELCAM" ++ [32] from rfl]
  simp only [hbuffer, hrest, hparse, hzero, hfirst, hsession]
  rw [if_neg (by decide), if_neg (by decide), if_pos trivial, ← hbuffer]

end Reading

/-! ## Links as states of the protocol -/

/-- The conversations of the sessions. -/
def sessionConvs (sessionMap : TreeMap Bytes UdpSession) (id : Bytes) : Option UInt32 :=
  sessionMap[id]?.map fun session => session.conv

/-- A client and its link, as a state of the protocol. -/
structure Represents (cams : TreeMap Bytes Bytes) (client : QtClient) (link : Link)
    (tables : Tables Bytes UInt32) : Prop where
  serverBuffer : client.buffer = []
  clientBuffer : link.widget.buffer = []
  camIds : ∀ id ∈ link.widget.camMap, IsSessionId id
  cams : tables.cams = {id | id ∈ cams}
  sessions : tables.sessions = sessionConvs client.sessionMap
  camMap : tables.camMap = convs link.widget.camMap
  up : List.Forall₂ CarriesUp link.up tables.up
  down : List.Forall₂ CarriesDown link.down tables.down

/-- The server has an address to write into its requests, and cameras that an answer can list. -/
structure ServerOk (server : MonitorServer) : Prop where
  address : server.server ≠ [] ∧ ∀ byte ∈ server.server, isspace byte = false
  camIds : ∀ id ∈ server.cams, IsSessionId id
  size : server.cams.size < 2 ^ 31

section Links

variable {server next : MonitorServer} {fd : Int} {client : QtClient} {widget : MonitorClientWidget}
  {link : Link} {up down : List Bytes} {text : Bytes} {tables : Tables Bytes UInt32}
  {cams : TreeMap Bytes Bytes} {events : List Event}

theorem sent_to_send (fd : Int) (text : Bytes) (events : List Event) :
    sentTo fd (.send fd text :: events) = text :: sentTo fd events := by
  simp [sentTo]

theorem sent_to_nil (h : ∀ text, .send fd text ∉ events) : sentTo fd events = [] := by
  refine List.filterMap_eq_nil_iff.2 fun event hevent => ?_
  split
  · rename_i other text
    by_cases heq : other = fd
    · exact absurd (heq ▸ hevent) (h text)
    · rw [if_neg heq]
  · rfl

/-- The sessions after a MESSAGE or an ADDCAM. -/
theorem session_convs_register {camMap : TreeMap Bytes TransUdpPort} {clientIp : Bytes}
    {before after : TreeMap Bytes UdpSession}
    (hsessions : ∀ cam ∈ camMap.toList, ∃ session, after[cam.1]? = some session ∧
      SessionFor clientIp cam.2 session)
    (hothers : ∀ name, name ∉ camMap.toList.map Prod.fst → after[name]? = before[name]?)
    (id : Bytes) : sessionConvs after id = (convs camMap id).or (sessionConvs before id) := by
  unfold sessionConvs convs
  cases hport : camMap[id]? with
  | some udpPort =>
      obtain ⟨session, hsession, hfor⟩ :=
        hsessions (id, udpPort) (TreeMap.mem_toList_iff_getElem?_eq_some.2 hport)
      rw [hsession, Option.map_some, Option.map_some, Option.some_or, hfor.conv]
  | none =>
      have hnot : id ∉ camMap.toList.map Prod.fst := by
        rw [TreeMap.map_fst_toList_eq_keys, TreeMap.mem_keys, TreeMap.mem_iff_isSome_getElem?,
          hport]
        simp
      rw [hothers id hnot, Option.map_none, Option.none_or]

/-- The server reads the oldest request of a client. -/
theorem server_reads_link (hserver : ServerOk server)
    (hrep : Represents server.cams client ⟨widget, text :: up, down⟩ tables)
    (h : server.receive fd client (.bytes text) = .ok (next, events)) :
    ∃ after created, next =
        { server with qtClients := server.qtClients.insert fd after, created := created } ∧
      (∀ other text, other ≠ fd → .send other text ∉ events) ∧
      ∃ tables', Represents server.cams after
        (Link.deliver ⟨widget, up, down⟩ (sentTo fd events)) tables' ∧
        Tables.CamStep tables tables' := by
  obtain ⟨message, rest, hcarries, hrest, htables⟩ := List.forall₂_cons_left_iff.1 hrep.up
  cases hcarries with
  | setup localAddress cseq =>
      obtain ⟨request, after, hreceive, hbuffer, hsessions⟩ :=
        receive_setup server fd hrep.serverBuffer localAddress cseq
      rw [hreceive] at h
      cases h
      refine ⟨after, server.created, rfl, fun other text hne hsend => ?_, _, ?_,
        .answerSetup tables rest htables⟩
      · simp [hne] at hsend
      · have hanswer : CarriesDown (respondText (setupHeaders server.cams) (client.cseq + 1))
            (.answer tables.cams) := hrep.cams ▸ .answer server.cams _ hserver.camIds hserver.size
        refine ⟨hbuffer, hrep.clientBuffer, hrep.camIds, hrep.cams, ?_, hrep.camMap, hrest, ?_⟩
        · show tables.sessions = _
          rw [hrep.sessions, hsessions]
        · have hsent : ∀ request answer, sentTo fd [.parseRequest fd request, .send fd answer] =
              sentTo fd [.send fd answer] := fun _ _ => rfl
          rw [hsent, sent_to_send]
          exact List.rel_append hrep.down (.cons hanswer .nil)
  | register method localAddress cseq camMap hmethod hids =>
      obtain ⟨after, created, hnext, hbuffer, -, hsessions, hothers, hsends⟩ :=
        receive_cams (cam_entries hids) (cam_names_nodup camMap) hmethod hrep.serverBuffer h
      refine ⟨after, created, hnext, fun other text _ => hsends other text, _, ?_,
        .register tables (convs camMap) rest htables⟩
      rw [sent_to_nil (hsends fd), Link.deliver_nil]
      refine ⟨hbuffer, hrep.clientBuffer, hrep.camIds, hrep.cams, ?_, hrep.camMap, hrest, hrep.down⟩
      funext id
      rw [session_convs_register hsessions hothers, hrep.sessions]

/-- The server adds a camera. -/
theorem add_cam_link {id : Bytes} (hserver : ServerOk server) (hid : IsSessionId id)
    (stringName : Bytes) (hrep : Represents server.cams client link tables) :
    ∃ tables', Represents (server.cams.insert id stringName)
        (MonitorServer.announceCam server.server id fd client).1
        (link.deliver (sentTo fd (MonitorServer.announceCam server.server id fd client).2))
        tables' ∧
      Tables.CamStep tables tables' := by
  have hcams : insert id tables.cams = {other | other ∈ server.cams.insert id stringName} := by
    ext other
    rw [hrep.cams, Set.mem_insert_iff, Set.mem_ofPred_eq, Set.mem_ofPred_eq, TreeMap.mem_insert,
      LawfulEqOrd.compare_eq_iff_eq]
    exact or_congr_left eq_comm
  have hsession : tables.sessions id = client.sessionMap[id]?.map fun session => session.conv := by
    rw [hrep.sessions]
    rfl
  unfold MonitorServer.announceCam
  by_cases hcontains : client.sessionMap.contains id = true
  · have hknown : tables.sessions id ≠ none := by
      rw [TreeMap.contains_eq_isSome_getElem?] at hcontains
      rw [hsession]
      simpa [Option.isSome_iff_ne_none] using hcontains
    rw [if_pos hcontains, show sentTo fd [] = [] from rfl, Link.deliver_nil]
    exact ⟨{ tables with cams := insert id tables.cams }, ⟨hrep.serverBuffer, hrep.clientBuffer,
      hrep.camIds, hcams, hrep.sessions, hrep.camMap, hrep.up, hrep.down⟩,
      .addKnown tables id hknown⟩
  · have hnew : tables.sessions id = none := by
      rw [TreeMap.contains_eq_isSome_getElem?] at hcontains
      rw [hsession]
      simpa using hcontains
    rw [if_neg hcontains]
    refine ⟨{ tables with cams := insert id tables.cams, down := tables.down ++ [.addCam id] },
      ⟨hrep.serverBuffer, hrep.clientBuffer, hrep.camIds, hcams, hrep.sessions, hrep.camMap,
        hrep.up, ?_⟩, .addNew tables id hnew⟩
    rw [sent_to_send]
    exact List.rel_append hrep.down (.cons (.addCam _ _ _ hserver.address hid) .nil)

/-- A link that names no camera is quiet for it. -/
theorem quiet_of_not_names {id : Bytes} (hrep : Represents cams client link tables)
    (h : ¬ link.Names id) : tables.Quiet id := by
  have hfound : ∀ {γ δ : Type} {R : γ → δ → Prop} {lefts : List γ} {rights : List δ} {right : δ},
      List.Forall₂ R lefts rights → right ∈ rights → ∃ left ∈ lefts, R left right := by
    intro γ δ R lefts rights right hall hmem
    induction hall with
    | nil => cases hmem
    | cons hfirst _ ih =>
        rcases List.mem_cons.1 hmem with rfl | hmem
        · exact ⟨_, List.mem_cons_self, hfirst⟩
        · obtain ⟨left, hleft, hR⟩ := ih hmem
          exact ⟨left, List.mem_cons_of_mem _ hleft, hR⟩
  refine ⟨?_, ?_⟩
  · rintro ⟨table, htable, hne⟩
    obtain ⟨text, htext, hcarries⟩ := hfound hrep.up htable
    exact h (.inl ⟨text, htext, hcarries.names hne⟩)
  · rintro (⟨ids, hmem, hid⟩ | hmem)
    · obtain ⟨text, htext, hcarries⟩ := hfound hrep.down hmem
      exact h (.inr ⟨text, htext, hcarries.answer_names hid⟩)
    · obtain ⟨text, htext, hcarries⟩ := hfound hrep.down hmem
      exact h (.inr ⟨text, htext, hcarries.add_names⟩)

/-- The conversations when a key is erased. -/
theorem map_erase {α β : Type} (map : TreeMap Bytes α) (f : α → β) (id other : Bytes) :
    (map.erase id)[other]?.map f =
      Function.update (fun name => map[name]?.map f) id none other := by
  rw [TreeMap.getElem?_erase]
  by_cases heq : other = id
  · rw [if_pos (LawfulEqOrd.compare_eq_iff_eq.2 heq.symm), heq, Function.update_self,
      Option.map_none]
  · rw [if_neg (fun hsame => heq (LawfulEqOrd.compare_eq_iff_eq.1 hsame).symm),
      Function.update_of_ne heq]

/-- The server removes a camera that no message of the link names. -/
theorem remove_cam_link {id : Bytes} (hserver : ServerOk server) (hid : IsSessionId id)
    (hrep : Represents server.cams client link tables) (hquiet : tables.Quiet id) :
    ∃ tables', Represents (server.cams.erase id)
        (MonitorServer.withdrawCam server.server id fd client).1
        (link.deliver (sentTo fd (MonitorServer.withdrawCam server.server id fd client).2))
        tables' ∧
      Tables.CamStep tables tables' := by
  have hcams : tables.cams \ {id} = {other | other ∈ server.cams.erase id} := by
    ext other
    rw [hrep.cams, Set.mem_sdiff, Set.mem_ofPred_eq, Set.mem_ofPred_eq, TreeMap.mem_erase,
      Set.mem_singleton_iff, and_comm]
    refine and_congr_left fun _ => ⟨fun hne heq => ?_, fun hne heq => ?_⟩
    · exact hne (LawfulEqOrd.compare_eq_iff_eq.1 heq).symm
    · exact hne (LawfulEqOrd.compare_eq_iff_eq.2 heq.symm)
  have hsession : tables.sessions id = client.sessionMap[id]?.map fun session => session.conv := by
    rw [hrep.sessions]
    rfl
  unfold MonitorServer.withdrawCam
  cases hfound : client.sessionMap[id]? with
  | none =>
      have hunknown : tables.sessions id = none := by rw [hsession, hfound, Option.map_none]
      have hdown : List.Forall₂ CarriesDown (link.deliver (sentTo fd [])).down tables.down := by
        rw [show sentTo fd [] = [] from rfl, Link.deliver_nil]
        exact hrep.down
      exact ⟨{ tables with cams := tables.cams \ {id} }, ⟨hrep.serverBuffer, hrep.clientBuffer,
        hrep.camIds, hcams, hrep.sessions, hrep.camMap, hrep.up, hdown⟩,
        .removeUnknown tables id hquiet hunknown⟩
  | some session =>
      have hknown : tables.sessions id ≠ none := by
        rw [hsession, hfound]
        simp
      refine ⟨{ tables with
          cams := tables.cams \ {id}
          sessions := Function.update tables.sessions id none
          down := tables.down ++ [.delCam id] },
        ⟨hrep.serverBuffer, hrep.clientBuffer, hrep.camIds, hcams, ?_, hrep.camMap, hrep.up, ?_⟩,
        .removeKnown tables id hquiet hknown⟩
      · funext other
        rw [hrep.sessions]
        exact (map_erase client.sessionMap _ id other).symm
      · have hstop : sentTo fd session.stop.2 = [] := by
          refine sent_to_nil fun text hmem => ?_
          rcases MonitorServer.stop_events session _ hmem with ⟨_, heq⟩ | ⟨_, heq⟩
          · cases heq
          · cases heq
        rw [sent_to_send, hstop]
        exact List.rel_append hrep.down (.cons (.delCam _ _ _ hserver.address hid) .nil)

/-- The table when a camera is stored. -/
theorem convs_insert (camMap : TreeMap Bytes TransUdpPort) (id : Bytes) (udpPort : TransUdpPort) :
    convs (camMap.insert id udpPort) = Function.update (convs camMap) id (some udpPort.conv) := by
  funext other
  unfold convs
  rw [TreeMap.getElem?_insert]
  by_cases heq : other = id
  · rw [if_pos (LawfulEqOrd.compare_eq_iff_eq.2 heq.symm), heq, Function.update_self,
      Option.map_some]
  · rw [if_neg (fun hsame => heq (LawfulEqOrd.compare_eq_iff_eq.1 hsame).symm),
      Function.update_of_ne heq]

/-- The client reads an answer that lists cameras. -/
theorem client_reads_answer_link {listed : TreeMap Bytes Bytes} {cseq : Nat}
    {rest : List (Down Bytes)}
    (hids : ∀ id ∈ listed, IsSessionId id) (hsize : listed.size < 2 ^ 31) (hne : listed.size ≠ 0)
    (hrep : Represents cams client
      ⟨widget, up, respondText (setupHeaders listed) cseq :: down⟩ tables)
    (hrest : List.Forall₂ CarriesDown down rest)
    (htables : tables.down = .answer {id | id ∈ listed} :: rest) (sockets : Nat → UInt16 × UInt16) :
    ∃ tables', Represents cams client
        ⟨(widget.onReadyRead (respondText (setupHeaders listed) cseq) sockets).1,
          up ++ (widget.onReadyRead (respondText (setupHeaders listed) cseq) sockets).2, down⟩
        tables' ∧ Tables.CamStep tables tables' := by
  let udpPort (i : Nat) : TransUdpPort :=
    ⟨(sockets i).1, (sockets i).2, widget.conv + (i + 1).toUInt32⟩
  let answered := widget.answered (respondText (setupHeaders listed) cseq) udpPort
  have hbuffer : widget.buffer = [] := hrep.clientBuffer
  obtain ⟨hempty, -, -⟩ := client_reads_answer hids cseq
  have hstored : ∀ id port, answered.camMap[id]? = some port ↔
      (∃ i, listed.keys[i]? = some id ∧ port = udpPort i) ∨
        id ∉ listed ∧ widget.camMap[id]? = some port := by
    intro id port
    rw [← store_cams_iff hids cseq hsize udpPort widget.camMap id port]
    unfold answered MonitorClientWidget.answered answerRead
    rw [hbuffer]
  have hcamIds : ∀ id ∈ answered.camMap, IsSessionId id := by
    intro id hid
    obtain ⟨port, hport⟩ := Option.isSome_iff_exists.1 (TreeMap.mem_iff_isSome_getElem?.1 hid)
    rcases (hstored id port).1 hport with ⟨i, hkey, -⟩ | ⟨-, hold⟩
    · exact hids id (TreeMap.mem_keys.1 (List.mem_of_getElem? hkey))
    · exact hrep.camIds id (TreeMap.mem_iff_isSome_getElem?.2
        (Option.isSome_iff_exists.2 ⟨_, hold⟩))
  have hlisted : ∀ id ∈ {id | id ∈ listed}, convs answered.camMap id ≠ none := by
    intro id hid
    obtain ⟨i, hkey⟩ := List.mem_iff_getElem?.1 (TreeMap.mem_keys.2 hid)
    unfold convs
    rw [(hstored id _).2 (.inl ⟨i, hkey, rfl⟩)]
    simp
  have hkept : ∀ id, id ∉ {id | id ∈ listed} → convs answered.camMap id = tables.camMap id := by
    intro id hid
    rw [hrep.camMap]
    unfold convs
    refine congrArg (Option.map _) (Option.ext fun port => ?_)
    rw [hstored id port]
    constructor
    · rintro (⟨i, hkey, -⟩ | ⟨-, hold⟩)
      · exact absurd (TreeMap.mem_keys.1 (List.mem_of_getElem? hkey)) hid
      · exact hold
    · exact fun hold => .inr ⟨hid, hold⟩
  rw [on_ready_read_answer hids hne hbuffer cseq sockets]
  refine ⟨_, ?_, .readAnswer tables {id | id ∈ listed} rest (convs answered.camMap) htables hlisted
    hkept⟩
  refine ⟨hrep.serverBuffer, ?_, hcamIds, hrep.cams, hrep.sessions, rfl, ?_, hrest⟩
  · show (takeRespond widget.buffer _).2 = []
    rw [hbuffer, hempty]
  · refine List.rel_append hrep.up (.cons ?_ .nil)
    exact .register _ widget.localAddress (widget.cseq + 1) answered.camMap (.inl rfl) hcamIds

/-- The client reads the oldest message of the server. -/
theorem client_reads_link (hrep : Represents cams client ⟨widget, up, text :: down⟩ tables)
    (sockets : Nat → UInt16 × UInt16) :
    ∃ tables', Represents cams client
        ⟨(widget.onReadyRead text sockets).1, up ++ (widget.onReadyRead text sockets).2, down⟩
        tables' ∧ Tables.CamStep tables tables' := by
  have hbuffer : widget.buffer = [] := hrep.clientBuffer
  obtain ⟨message, rest, hcarries, hrest, htables⟩ := List.forall₂_cons_left_iff.1 hrep.down
  cases hcarries with
  | answer listed cseq hids hsize =>
      by_cases hempty : listed.size = 0
      · have hnone : {id | id ∈ listed} = (∅ : Set Bytes) := by
          ext id
          have hnot : id ∉ listed := TreeMap.isEmpty_iff_forall_not_mem.1
            (by rw [TreeMap.isEmpty_eq_size_eq_zero, hempty]; rfl) id
          simpa using hnot
        rw [hnone] at htables
        rw [on_ready_read_empty hbuffer hids hempty, List.append_nil]
        exact ⟨{ tables with down := rest }, ⟨hrep.serverBuffer, hbuffer, hrep.camIds, hrep.cams,
          hrep.sessions, hrep.camMap, hrep.up, hrest⟩, .readEmpty tables rest htables⟩
      · exact client_reads_answer_link hids hsize hempty hrep hrest htables sockets
  | addCam server id cseq hserver hid =>
      let udpPort : TransUdpPort := ⟨(sockets 0).1, (sockets 0).2, widget.conv + 1⟩
      rw [on_ready_read_add hbuffer hserver hid]
      refine ⟨_, ?_, .readAdd tables id udpPort.conv rest htables⟩
      refine ⟨hrep.serverBuffer, hbuffer, fun other hother => ?_, hrep.cams, hrep.sessions, ?_, ?_,
        hrest⟩
      · rcases TreeMap.mem_insert.1 hother with heq | hold
        · exact LawfulEqOrd.compare_eq_iff_eq.1 heq ▸ hid
        · exact hrep.camIds other hold
      · show Function.update tables.camMap id (some udpPort.conv) = _
        rw [convs_insert, hrep.camMap]
      · have hsingle : ((∅ : TreeMap Bytes TransUdpPort).insert id udpPort).toList =
            [(id, udpPort)] := OrderedMap.toList_insert_of_lt (by simp)
        have htable : Function.update (fun _ => none) id (some udpPort.conv) =
            convs ((∅ : TreeMap Bytes TransUdpPort).insert id udpPort) := by
          rw [convs_insert]
          rfl
        refine List.rel_append hrep.up (.cons ?_ .nil)
        rw [htable, ← hsingle]
        refine .register _ _ _ _ (.inr rfl) fun other hother => ?_
        rcases TreeMap.mem_insert.1 hother with heq | hold
        · exact LawfulEqOrd.compare_eq_iff_eq.1 heq ▸ hid
        · simp at hold
  | delCam server id cseq hserver hid =>
      rw [on_ready_read_del hbuffer hserver hid, List.append_nil]
      refine ⟨_, ?_, .readDel tables id rest htables⟩
      refine ⟨hrep.serverBuffer, hbuffer, fun other hother => ?_, hrep.cams, hrep.sessions, ?_,
        hrep.up, hrest⟩
      · exact hrep.camIds other (TreeMap.mem_of_mem_erase hother)
      · show Function.update tables.camMap id none = _
        rw [hrep.camMap]
        funext other
        exact (map_erase widget.camMap _ id other).symm

end Links

end CarDetect.Monitor
