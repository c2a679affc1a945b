import CarDetect.Monitor.CamMessages

/-!
# The handshake of a Qt client

The tables of the server and of a client after SETUP, its answer and MESSAGE, each sent and received
whole. `handshake_agrees` holds for tables of fewer than 2^31 cameras, for which `QString::toInt`
reads the number of cameras.
-/

namespace CarDetect.Monitor

open BigEndian ByteString Reactor Std

/-- The client after the answer, with these ports and conversations for its cameras. -/
def MonitorClientWidget.answered (widget : MonitorClientWidget) (answer : Bytes)
    (udpPort : Nat → TransUdpPort) : MonitorClientWidget :=
  { widget with
    buffer := (takeRespond widget.buffer answer).2
    camMap := storeCams (parseRespond (takeRespond widget.buffer answer).1).headers udpPort
      widget.camMap }

/-- The client finds the keys of `_cams` in the answer, and its MESSAGE makes the server store, for
each of these cameras and no other, a session with the ports and the conversation that the client
has chosen. -/
structure TablesAgree (server : MonitorServer) (fd : Int) (client : QtClient)
    (widget : MonitorClientWidget) (cseq : Nat) (udpPort : Nat → TransUdpPort) : Prop where
  listed : answeredCams (parseRespond (takeRespond widget.buffer
    (respondText (setupHeaders server.cams) cseq)).1).headers = server.cams.keys
  installed : ∃ text next events after,
    ((widget.answered (respondText (setupHeaders server.cams) cseq) udpPort).sendMessage).2 =
      [text] ∧
    server.receive fd client (.bytes text) = .ok (next, events) ∧
    next.qtClients[fd]? = some after ∧
    ∀ id, (id ∉ server.cams → after.sessionMap[id]? = none) ∧
      ∀ i, server.cams.keys[i]? = some id →
        ∃ session, after.sessionMap[id]? = some session ∧
          SessionFor client.clientIp (udpPort i) session

section Handshake

variable {server : MonitorServer} {client : QtClient} {widget : MonitorClientWidget}

/-- With its own choice of conversations, the next ones of its counter, this is what `onReadyRead`
does with an answer that names cameras. -/
theorem on_ready_read_answer {cams : TreeMap Bytes Bytes} (hids : ∀ id ∈ cams, IsSessionId id)
    (hne : cams.size ≠ 0) (hbuffer : widget.buffer = []) (cseq : Nat)
    (sockets : Nat → UInt16 × UInt16) :
    widget.onReadyRead (respondText (setupHeaders cams) cseq) sockets =
      MonitorClientWidget.sendMessage
        { widget.answered (respondText (setupHeaders cams) cseq)
            (fun i => ⟨(sockets i).1, (sockets i).2, widget.conv + (i + 1).toUInt32⟩) with
          conv := widget.conv + (toInt (printNat cams.size)).toNat.toUInt32 } := by
  obtain ⟨-, -, hheaders⟩ := client_reads_answer hids cseq
  have hnum : (answerRead cams cseq).headers.getD (ascii "CamNum") (ascii "0") =
      printNat cams.size := by
    rw [TreeMap.getD_eq_getD_getElem?, (hheaders _ (printNat cams.size) (by decide)).2
      ((setup_headers_iff cams _ _).2 (.inr ⟨rfl, rfl⟩))]
    rfl
  have hzero : printNat cams.size ≠ ascii "0" := fun heq => hne (print_inj (heq.trans (by decide)))
  have hread : parseRespond (takeRespond widget.buffer (respondText (setupHeaders cams) cseq)).1 =
      answerRead cams cseq := by
    rw [hbuffer]
    rfl
  unfold MonitorClientWidget.onReadyRead MonitorClientWidget.answered
  simp only [hread, hnum]
  rw [if_pos hzero]

/-- A client whose sessions are none. -/
theorem intact_empty (h : client.sessionMap = ∅) : Intact client := by
  intro name session hsession
  rw [h] at hsession
  simp at hsession

/-- The tables of the server and of a freshly connected client agree after the handshake, for any
table of fewer than 2^31 cameras and any choice of ports and conversations. -/
theorem handshake_agrees (server : MonitorServer) (fd : Int) (client : QtClient)
    (widget : MonitorClientWidget) (cseq : Nat) (udpPort : Nat → TransUdpPort)
    (hids : ∀ id ∈ server.cams, IsSessionId id) (hsize : server.cams.size < 2 ^ 31)
    (hclient : client.sessionMap = ∅ ∧ client.buffer = [])
    (hwidget : widget.camMap = ∅ ∧ widget.buffer = []) :
    TablesAgree server fd client widget cseq udpPort := by
  let answered := widget.answered (respondText (setupHeaders server.cams) cseq) udpPort
  have hcams : ∀ id port, answered.camMap[id]? = some port ↔
      ∃ i, server.cams.keys[i]? = some id ∧ port = udpPort i := by
    intro id port
    have hstored := store_cams_iff hids cseq hsize udpPort widget.camMap id port
    rw [hwidget.1] at hstored
    have hmap : answered.camMap =
        MonitorClientWidget.storeCams (answerRead server.cams cseq).headers udpPort ∅ := by
      unfold answered MonitorClientWidget.answered answerRead
      rw [hwidget.1, hwidget.2]
    rw [hmap]
    simpa using hstored
  have hlisted : ∀ cam ∈ answered.camMap.toList, IsSessionId cam.1 := by
    intro cam hcam
    obtain ⟨i, hkey, -⟩ := (hcams _ _).1 (TreeMap.mem_toList_iff_getElem?_eq_some.1 hcam)
    exact hids _ (TreeMap.mem_keys.1 (List.mem_of_getElem? hkey))
  have hdistinct : (answered.camMap.toList.map Prod.fst).Nodup := by
    rw [TreeMap.map_fst_toList_eq_keys]
    exact TreeMap.nodup_keys
  refine ⟨?_, ?_⟩
  · rw [hwidget.2]
    exact answered_cams hids cseq hsize
  · let text := camsText (ascii "MESSAGE") answered.localAddress (answered.cseq + 1)
      answered.camMap.toList
    have hfree : ∀ cam ∈ answered.camMap.toList, client.sessionMap[cam.1]? = none :=
      fun cam _ => by simp [hclient.1]
    obtain ⟨⟨next, events⟩, hreceive⟩ := (receive_cams_ok_iff hlisted hdistinct server fd
      (intact_empty hclient.1) (.inl rfl) hclient.2 answered.localAddress
        (answered.cseq + 1)).2 hfree
    obtain ⟨after, created, rfl, -, -, hsessions, hothers, -⟩ :=
      receive_cams hlisted hdistinct (.inl rfl) hclient.2 hreceive
    refine ⟨text, _, events, after, rfl, hreceive, TreeMap.getElem?_insert_self,
      fun id => ⟨fun hid => ?_, fun i hkey => ?_⟩⟩
    · rw [hothers id, hclient.1, TreeMap.getElem?_emptyc]
      rw [TreeMap.map_fst_toList_eq_keys, TreeMap.mem_keys, TreeMap.mem_iff_isSome_getElem?]
      intro hsome
      obtain ⟨port, hport⟩ := Option.isSome_iff_exists.1 hsome
      obtain ⟨i, hkey, -⟩ := (hcams id port).1 hport
      exact hid (TreeMap.mem_keys.1 (List.mem_of_getElem? hkey))
    · have hport := (hcams id (udpPort i)).2 ⟨i, hkey, rfl⟩
      exact hsessions (id, udpPort i) (TreeMap.mem_toList_iff_getElem?_eq_some.2 hport)

/-- Two cameras. -/
theorem handshake_agrees_two_cams :
    let cams : TreeMap Bytes Bytes :=
      ((∅ : TreeMap Bytes Bytes).insert (ascii "66a1-1") []).insert (ascii "66a1-2") []
    TablesAgree { MonitorServer.start (ascii "10.0.0.1:9000") with cams := cams } 5
      ⟨ascii "10.0.0.5", ∅, [], 1⟩ (.start ⟨ascii "10.0.0.5:40000", forall_byte (by decide)⟩) 1
      (fun i => ⟨5000, 5001, 1001 + i.toUInt32⟩) := by
  refine handshake_agrees _ 5 _ _ 1 _ (fun id hid => ?_) (by decide +kernel) ⟨rfl, rfl⟩ ⟨rfl, rfl⟩
  have hcases : ascii "66a1-2" = id ∨ ascii "66a1-1" = id := by
    simpa [TreeMap.mem_insert] using hid
  rcases hcases with rfl | rfl
  · exact ⟨ascii "66a1", ascii "2", by decide, by decide, by decide, forall_byte (by decide)⟩
  · exact ⟨ascii "66a1", ascii "1", by decide, by decide, by decide, forall_byte (by decide)⟩

/-- A table with this many cameras. -/
theorem many_cams (number : Nat) :
    ∃ cams : TreeMap Bytes Bytes, cams.size = number ∧
      ∀ id ∈ cams, ∃ sessionCounter, sessionCounter ≠ 0 ∧ sessionCounter ≤ number ∧
        id = generateSessionId 26273 sessionCounter := by
  induction number with
  | zero => exact ⟨∅, rfl, by simp⟩
  | succ number ih =>
      obtain ⟨cams, hsize, hids⟩ := ih
      let id := generateSessionId 26273 (number + 1)
      have hnew : id ∉ cams := by
        intro hmem
        obtain ⟨sessionCounter, -, hle, heq⟩ := hids id hmem
        have hsame := print_hex_inj (List.append_cancel_left heq)
        omega
      refine ⟨cams.insert id [], ?_, fun other hother => ?_⟩
      · rw [TreeMap.size_insert, if_neg (by simpa using hnew), hsize]
      · rcases TreeMap.mem_insert.1 hother with heq | hmem
        · exact ⟨number + 1, by omega, le_rfl, (LawfulEqOrd.compare_eq_iff_eq.1 heq).symm⟩
        · obtain ⟨sessionCounter, hpos, hle, heq⟩ := hids other hmem
          exact ⟨sessionCounter, hpos, by omega, heq⟩

/-- With 2^31 cameras their number does not fit an `int`, and the client finds none. -/
theorem handshake_agrees_fails_int :
    ¬ ∀ (server : MonitorServer) (fd : Int) (client : QtClient) (widget : MonitorClientWidget)
      (cseq : Nat) (udpPort : Nat → TransUdpPort), (∀ id ∈ server.cams, IsSessionId id) →
      server.cams.size ≠ 0 → client.sessionMap = ∅ ∧ client.buffer = [] →
      widget.camMap = ∅ ∧ widget.buffer = [] →
      TablesAgree server fd client widget cseq udpPort := by
  intro h
  obtain ⟨cams, hsize, hnames⟩ := many_cams (2 ^ 31)
  have hids : ∀ id ∈ cams, IsSessionId id := by
    intro id hid
    obtain ⟨sessionCounter, -, -, rfl⟩ := hnames id hid
    exact generated_session_id 26273 sessionCounter
  have hagree := h { MonitorServer.start (ascii "10.0.0.1:9000") with cams := cams } 5
    ⟨ascii "10.0.0.5", ∅, [], 1⟩ (.start ⟨ascii "10.0.0.5:40000", forall_byte (by decide)⟩) 1
    (fun _ => ⟨5000, 5001, 1001⟩) hids (by rw [hsize]; decide) ⟨rfl, rfl⟩ ⟨rfl, rfl⟩
  have hlisted : answeredCams (answerRead cams 1).headers = cams.keys := hagree.listed
  obtain ⟨-, -, hheaders⟩ := client_reads_answer hids 1
  have hnum : (answerRead cams 1).headers.getD (ascii "CamNum") [] = printNat (2 ^ 31) := by
    rw [TreeMap.getD_eq_getD_getElem?, (hheaders _ (printNat cams.size) (by decide)).2
      ((setup_headers_iff cams _ _).2 (.inr ⟨rfl, rfl⟩)), hsize]
    rfl
  have hnone : toInt (printNat (2 ^ 31)) = 0 := by decide +kernel
  unfold answeredCams at hlisted
  rw [hnum, hnone] at hlisted
  have hlength := congrArg List.length hlisted
  rw [TreeMap.length_keys, hsize] at hlength
  simp at hlength

end Handshake

end CarDetect.Monitor
