import CarDetect.Lib.Delimited
import CarDetect.Monitor.Registration

/-!
# The request buffer of a Qt client

`acceptLoop` parses one text for each `recv`, whether or not a request is complete.
`run_parses` says that a run of the server parses what `takeRequest` reads from the client's
chunks, and `reassembled_iff` says when these are the requests that the client sent.
-/

namespace CarDetect.Monitor

open BigEndian ByteString Reactor Std

/-- The requests are parsed in order, each once, and no byte of the stream is lost or kept after its
request: after every `recv` the buffer is what has arrived after the requests parsed. -/
structure Reassembled (requests chunks : List Bytes) : Prop where
  inOrder : InOrder takeRequest CRLFCRLF requests chunks
  complete : (readAll takeRequest [] chunks).1 = requests

/-- There are as many chunks as requests, and each chunk completes the next request at the
latest. -/
structure InTime (requests chunks : List Bytes) : Prop where
  count : chunks.length = requests.length
  complete : ∀ k, wire CRLFCRLF (requests.take k) <+: (chunks.take k).flatten

section Buffer

variable {requests chunks : List Bytes}

theorem crlfcrlf_ne : CRLFCRLF ≠ [] := by decide

/-- A complete request at the front of the buffer is taken. -/
theorem take_request_delimited {request buffer chunk rest : Bytes}
    (h : Delimited CRLFCRLF request) (hbuffer : buffer ++ chunk = request ++ CRLFCRLF ++ rest) :
    takeRequest buffer chunk = (request, rest) := by
  unfold takeRequest
  simp only [hbuffer, find_delimited crlfcrlf_ne h rest]
  have hlength : request.length + 4 = (request ++ CRLFCRLF).length := by
    rw [List.length_append]
    rfl
  rw [hlength, List.drop_left, List.append_assoc, List.take_left]

/-- While every chunk completes the next request, the requests are taken in order. -/
theorem read_in_time (hrequests : ∀ request ∈ requests, Delimited CRLFCRLF request)
    (h : InTime requests chunks) {k : Nat} (hk : k ≤ chunks.length) :
    (readAll takeRequest [] (chunks.take k)).1 = requests.take k ∧
      (chunks.take k).flatten = wire CRLFCRLF (requests.take k) ++
        (readAll takeRequest [] (chunks.take k)).2 := by
  induction k with
  | zero => exact ⟨rfl, rfl⟩
  | succ k ih =>
      obtain ⟨htexts, hflatten⟩ := ih (by omega)
      have hlt : k < requests.length := by
        have hcount := h.count
        omega
      obtain ⟨hread, hbytes⟩ := read_next hk htexts hflatten
      obtain ⟨rest, hrest⟩ := h.complete (k + 1)
      have hsplit : requests.take (k + 1) = requests.take k ++ [requests[k]] := by simp
      rw [hsplit, wire_append, wire_singleton, hbytes, List.append_assoc] at hrest
      have hfront := List.append_cancel_left hrest
      have htake := take_request_delimited (hrequests _ (List.getElem_mem hlt)) hfront.symm
      rw [hread, hbytes, htake, hsplit, wire_append, wire_singleton, ← hfront]
      exact ⟨rfl, by simp only [List.append_assoc]⟩

/-- The requests of a client are parsed as they were sent, over any chunks, exactly when there is
one chunk for each request and each chunk completes the next request at the latest. -/
theorem reassembled_iff (requests chunks : List Bytes)
    (hrequests : ∀ request ∈ requests, Delimited CRLFCRLF request)
    (hall : chunks.flatten = wire CRLFCRLF requests) :
    Reassembled requests chunks ↔ InTime requests chunks := by
  constructor
  · intro h
    have hcount : chunks.length = requests.length := by
      rw [← length_read takeRequest [] chunks, h.complete]
    refine ⟨hcount, fun k => ?_⟩
    rcases Nat.le_total k chunks.length with hle | hge
    · exact ⟨_, (h.inOrder.take hle).2.symm⟩
    · rw [List.take_of_length_le hge, List.take_of_length_le (hcount ▸ hge), hall]
  · intro h
    refine ⟨fun arrived hleading => ⟨arrived.length, ?_⟩, ?_⟩
    · have hlength := hleading.length_le
      obtain ⟨rest, rfl⟩ := hleading
      have hread := read_in_time hrequests h hlength
      rwa [List.take_left] at hread
    · have hread := (read_in_time hrequests h le_rfl).1
      rwa [List.take_length, h.count, List.take_length] at hread

/-- Two requests, each in a chunk of its own. -/
theorem reassembled_separate :
    Reassembled [ascii "SETUP a", ascii "PING b"]
      [ascii "SETUP a" ++ CRLFCRLF, ascii "PING b" ++ CRLFCRLF] := by
  refine (reassembled_iff _ _ (by decide) (by decide)).2 ⟨rfl, fun k => ?_⟩
  rcases k with _ | _ | k
  · exact List.prefix_rfl
  · exact List.prefix_rfl
  · simp only [List.take_succ_cons, List.take_nil]
    exact List.prefix_rfl

/-- A request that arrives in two parts is parsed in two parts. -/
theorem reassembled_fails_two_chunks :
    ¬ ∀ requests chunks : List Bytes, (∀ request ∈ requests, Delimited CRLFCRLF request) →
      (∀ chunk ∈ chunks, 1 ≤ chunk.length ∧ chunk.length ≤ 256) →
      chunks.flatten = wire CRLFCRLF requests → Reassembled requests chunks := by
  intro h
  have hread := (h [ascii "SETUP a"] [ascii "SET", ascii "UP a" ++ CRLFCRLF] (by decide) (by decide)
    (by decide)).complete
  exact absurd hread (by decide)

end Buffer

/-! ## Runs of the server -/

/-- The text that an event parses for this client. -/
def parsedFor (fd : Int) : Event → Option Bytes
  | .parseRequest other request => if other = fd then some request else none
  | _ => none

/-- The chunks that `recv` returns for this client. -/
def chunksFor (fd : Int) (inputs : List Input) : List Bytes :=
  inputs.filterMap fun input =>
    match input with
    | .receive other (.bytes chunk) => if other = fd then some chunk else none
    | _ => none

section Runs

variable {server next final : MonitorServer} {fd : Int} {client : QtClient} {events : List Event}

theorem parsed_none {calls : List Event} (h : ∀ call ∈ calls, parsedFor fd call = none) :
    calls.filterMap (parsedFor fd) = [] :=
  List.filterMap_eq_nil_iff.2 h

/-- Loops over the clients that leave the buffers alone and parse nothing. -/
theorem for_clients_frame {body : Int → QtClient → QtClient × List Event}
    (hbuffer : ∀ fd client, (body fd client).1.buffer = client.buffer)
    (hquiet : ∀ key client, ∀ event ∈ (body key client).2, parsedFor fd event = none)
    (hclient : server.qtClients[fd]? = some client) :
    (∃ after, (server.forClients body).1.qtClients[fd]? = some after ∧
      after.buffer = client.buffer) ∧
      (server.forClients body).2.filterMap (parsedFor fd) = [] := by
  constructor
  · refine ⟨(body fd client).1, ?_, hbuffer fd client⟩
    rw [MonitorServer.forClients, TreeMap.getElem?_map, hclient]
    rfl
  · refine parsed_none fun event hevent => ?_
    obtain ⟨entry, -, hevent⟩ := List.mem_flatMap.1 hevent
    exact hquiet _ _ event hevent

/-- The end of a client's stream parses nothing. -/
theorem close_quiet (server : MonitorServer) (key : Int) (client : QtClient) :
    (server.closeClient key client).2.filterMap (parsedFor fd) = [] := by
  refine parsed_none fun event hevent => ?_
  obtain ⟨session, -, hevent⟩ := List.mem_flatMap.1 hevent
  rcases MonitorServer.stop_events _ event hevent with ⟨_, rfl⟩ | ⟨_, rfl⟩ <;> rfl

/-- The bytes of one `recv` parse one text, which is taken from the buffer. -/
theorem receive_parses {key : Int} {chunk : Bytes} (hne : chunk ≠ [])
    (h : server.receive key client (.bytes chunk) = .ok (next, events)) :
    ∃ after, next.qtClients = server.qtClients.insert key after ∧
      after.buffer = (takeRequest client.buffer chunk).2 ∧
      events.filterMap (parsedFor fd) =
        if key = fd then [(takeRequest client.buffer chunk).1] else [] := by
  obtain ⟨parsed, after, created, calls, -, hcases, rfl, rfl⟩ := MonitorServer.receive_ok hne h
  have hcalls : after.buffer = (client.reading chunk).buffer ∧
      ∀ call ∈ calls, parsedFor fd call = none := by
    rcases hcases with ⟨-, hregister⟩ | ⟨-, rfl, -, hsent⟩
    · obtain ⟨⟨-, hbuffer, -⟩, hevents⟩ := register_frame hregister
      refine ⟨hbuffer, fun call hcall => ?_⟩
      rcases hevents call hcall with ⟨block, conv, rfl⟩ | ⟨thread, rfl⟩ <;> rfl
    · refine ⟨rfl, fun call hcall => ?_⟩
      rw [hsent call hcall]
      rfl
  refine ⟨after, rfl, hcalls.1, ?_⟩
  rw [List.filterMap_cons, parsed_none hcalls.2]
  by_cases hkey : key = fd <;> simp [parsedFor, hkey]

/-- The texts that the bytes of a `recv` add, when they are for this client and when they are
not. -/
theorem chunks_for_bytes (fd key : Int) (chunk : Bytes) :
    chunksFor fd [.receive key (.bytes chunk)] = if key = fd then [chunk] else [] := by
  by_cases hkey : key = fd <;> simp [chunksFor, hkey]

/-- One step parses what is taken from the client's chunk, if it has one. -/
theorem step_parses {input : Input} (hclient : server.qtClients[fd]? = some client)
    (hopen : input ≠ .receive fd (.bytes [])) (h : server.step input = .ok (next, events)) :
    (∃ after, next.qtClients[fd]? = some after ∧
      after.buffer = (readAll takeRequest client.buffer (chunksFor fd [input])).2) ∧
      events.filterMap (parsedFor fd) =
        (readAll takeRequest client.buffer (chunksFor fd [input])).1 := by
  cases MonitorServer.step_ok h with
  | accept key clientIp hfree =>
      have hne : key ≠ fd := by
        rintro rfl
        rw [hclient] at hfree
        cases hfree
      refine ⟨⟨client, ?_, rfl⟩, rfl⟩
      rw [TreeMap.getElem?_insert, if_neg (by simpa using hne), hclient]
  | close key sender hsender =>
      have hne : key ≠ fd := by
        rintro rfl
        exact hopen rfl
      rw [chunks_for_bytes, if_neg hne]
      refine ⟨⟨client, ?_, rfl⟩, close_quiet server key sender⟩
      show (server.qtClients.erase key)[fd]? = some client
      rw [TreeMap.getElem?_erase, if_neg (by simpa using hne), hclient]
  | bytes key sender chunk _ _ hsender hne hreceive =>
      obtain ⟨after, hnext, hbuffer, hevents⟩ := receive_parses hne hreceive
      rw [chunks_for_bytes, hevents, hnext]
      by_cases hkey : key = fd
      · subst hkey
        rw [hclient] at hsender
        cases hsender
        rw [if_pos rfl, if_pos rfl]
        exact ⟨⟨after, TreeMap.getElem?_insert_self, hbuffer⟩, rfl⟩
      · rw [if_neg hkey, if_neg hkey]
        refine ⟨⟨client, ?_, rfl⟩, rfl⟩
        rw [TreeMap.getElem?_insert, if_neg (by simpa using hkey), hclient]
  | datagram stale datagram _ hevents =>
      refine ⟨⟨client, hclient, rfl⟩, parsed_none fun event hevent => ?_⟩
      obtain ⟨_, _, rfl⟩ := hevents event hevent
      rfl
  | addCam sessionId stringName =>
      have hframe := MonitorServer.announce_frame server.server sessionId
      refine for_clients_frame (fun key other => (hframe key other).2.1)
        (fun key other event hevent => ?_) hclient
      rw [(hframe key other).2.2 event hevent]
      rfl
  | removeCam sessionId =>
      have hframe := MonitorServer.withdraw_frame server.server sessionId
      refine for_clients_frame (fun key other => (hframe key other).2.1)
        (fun key other event hevent => ?_) hclient
      rcases (hframe key other).2.2 event hevent with rfl | ⟨_, rfl⟩ | ⟨_, rfl⟩
      · rfl
      · rfl
      · rfl

/-- As long as a client is connected, a run of the server parses for it the texts that are taken
from its chunks. -/
theorem run_parses {inputs : List Input} (hclient : server.qtClients[fd]? = some client)
    (hopen : .receive fd (.bytes []) ∉ inputs)
    (h : Machine.run MonitorServer.step server inputs = .ok (final, events)) :
    (∃ after, final.qtClients[fd]? = some after ∧
      after.buffer = (readAll takeRequest client.buffer (chunksFor fd inputs)).2) ∧
      events.filterMap (parsedFor fd) =
        (readAll takeRequest client.buffer (chunksFor fd inputs)).1 := by
  induction inputs generalizing server client events with
  | nil =>
      cases h
      exact ⟨⟨client, hclient, rfl⟩, rfl⟩
  | cons input rest ih =>
      obtain ⟨middle, first, later, hstep, hrest, hall⟩ := Machine.run_cons_inv h
      simp only at hall hrest
      obtain ⟨hinput, hlater⟩ := not_or.1 (mt List.mem_cons.2 hopen)
      obtain ⟨⟨after, hafter, hbuffer⟩, hfirst⟩ :=
        step_parses hclient (Ne.symm hinput) hstep
      obtain ⟨hfinal, hparsed⟩ := ih hafter hlater hrest
      have hchunks : chunksFor fd (input :: rest) = chunksFor fd [input] ++ chunksFor fd rest :=
        (List.filterMap_append (l := [input]))
      rw [hall, List.filterMap_append, hchunks, read_append, hfirst, hparsed, hbuffer]
      rw [hbuffer] at hfinal
      exact ⟨hfinal, rfl⟩

end Runs

end CarDetect.Monitor
