import CarDetect.Lib.Delimited
import CarDetect.Reactor.TcpConnection

/-!
# The reader of the Qt client

`takeRespond` follows the start of `MonitorClientWidget::onReadyRead`, which takes one text for each
signal and removes one byte more than the terminator. `received_iff` says when the client's texts
are the messages that the server sent.
-/

namespace CarDetect.Monitor

open BigEndian ByteString Reactor

/-- The text that `onReadyRead` hands to `parseRespond`, and `_buffer` after it. Without an empty
line `indexOf` returns -1: the text is the whole buffer, and four bytes are removed. -/
def takeRespond (buffer chunk : Bytes) : Bytes × Bytes :=
  let buffer := buffer ++ chunk
  match find CRLFCRLF buffer with
  | some requestEnd => (buffer.take requestEnd, buffer.drop (requestEnd + 5))
  | none => (buffer, buffer.drop 4)

/-- The messages are handed on in order, each once, and after every signal the buffer is what has
arrived after them. -/
structure Received (messages chunks : List Bytes) : Prop where
  inOrder : InOrder takeRespond CRLFCRLF messages chunks
  complete : (readAll takeRespond [] chunks).1 = messages

section Reader

variable {messages chunks : List Bytes} {message buffer chunk rest : Bytes}

/-- A complete message at the front of the buffer is taken, and one byte after it is lost. -/
theorem take_respond_delimited (h : Delimited CRLFCRLF message)
    (hbuffer : buffer ++ chunk = message ++ CRLFCRLF ++ rest) :
    takeRespond buffer chunk = (message, rest.drop 1) := by
  unfold takeRespond
  simp only [hbuffer, find_delimited (by decide : CRLFCRLF ≠ []) h rest]
  have hlength : message.length + 5 = (message ++ CRLFCRLF).length + 1 := by
    rw [List.length_append]
    rfl
  rw [hlength, ← List.drop_drop, List.drop_left, List.append_assoc, List.take_left]

/-- In order, every chunk leaves an empty buffer: a byte behind the message would be lost. -/
theorem buffer_empty (hmessages : ∀ message ∈ messages, Delimited CRLFCRLF message)
    (h : Received messages chunks) {k : Nat} (hk : k < chunks.length)
    (hlt : k < messages.length) :
    (readAll takeRespond [] (chunks.take (k + 1))).2 = [] ∧
      (readAll takeRespond [] (chunks.take k)).2 ++ chunks[k] = messages[k] ++ CRLFCRLF := by
  obtain ⟨htexts, hflatten⟩ := h.inOrder.take hk.le
  obtain ⟨-, hnext⟩ := h.inOrder.take hk
  obtain ⟨hread, hbytes⟩ := read_next hk htexts hflatten
  have hsplit : messages.take (k + 1) = messages.take k ++ [messages[k]] := by simp
  rw [hbytes, hsplit, wire_append, wire_singleton, List.append_assoc] at hnext
  have hfront := List.append_cancel_left hnext
  have hlost := take_respond_delimited (hmessages _ (List.getElem_mem hlt)) hfront
  have hafter : (readAll takeRespond [] (chunks.take (k + 1))).2 =
      (readAll takeRespond [] (chunks.take (k + 1))).2.drop 1 := by
    conv_lhs => rw [hread]
    rw [hlost]
  have hempty : (readAll takeRespond [] (chunks.take (k + 1))).2 = [] := by
    have hlength := congrArg List.length hafter
    rw [List.length_drop] at hlength
    exact List.eq_nil_of_length_eq_zero (by omega)
  rw [hempty, List.append_nil] at hfront
  exact ⟨hempty, hfront⟩

/-- Messages that arrive one by one are read. -/
theorem read_messages (hmessages : ∀ message ∈ messages, Delimited CRLFCRLF message) :
    readAll takeRespond [] (messages.map (· ++ CRLFCRLF)) = (messages, []) := by
  induction messages with
  | nil => rfl
  | cons message rest ih =>
      obtain ⟨hmessage, hrest⟩ := List.forall_mem_cons.1 hmessages
      have hbuffer : [] ++ (message ++ CRLFCRLF) = message ++ CRLFCRLF ++ [] := by simp
      simp only [List.map_cons, readAll, take_respond_delimited hmessage hbuffer, List.drop_nil,
        ih hrest]

/-- The Qt client hands on the messages as they were sent, over any chunks, exactly when every chunk
is one message. -/
theorem received_iff (messages chunks : List Bytes)
    (hmessages : ∀ message ∈ messages, Delimited CRLFCRLF message)
    (hall : chunks.flatten = wire CRLFCRLF messages) :
    Received messages chunks ↔ chunks = messages.map (· ++ CRLFCRLF) := by
  constructor
  · intro h
    have hcount : chunks.length = messages.length := by
      rw [← length_read takeRespond [] chunks, h.complete]
    refine List.ext_getElem (by rw [hcount, List.length_map]) fun k hk hmap => ?_
    have hlt : k < messages.length := hcount ▸ hk
    have hbuffer : (readAll takeRespond [] (chunks.take k)).2 = [] := by
      cases k with
      | zero => rfl
      | succ k => exact (buffer_empty hmessages h (by omega) (by omega)).1
    have hchunk := (buffer_empty hmessages h hk hlt).2
    rw [hbuffer, List.nil_append] at hchunk
    rw [hchunk, List.getElem_map]
  · rintro rfl
    refine ⟨fun arrived hleading => ⟨arrived.length, ?_⟩, by rw [read_messages hmessages]⟩
    have harrived : arrived = (messages.take arrived.length).map (· ++ CRLFCRLF) := by
      rw [List.map_take]
      exact List.prefix_iff_eq_take.1 hleading
    have hfirst : ∀ message ∈ messages.take arrived.length, Delimited CRLFCRLF message :=
      fun message hmessage => hmessages message (List.mem_of_mem_take hmessage)
    have hread := read_messages hfirst
    rw [← harrived] at hread
    rw [hread]
    refine ⟨rfl, ?_⟩
    conv_lhs => rw [harrived]
    rw [List.append_nil, wire, List.flatMap_def]

/-- Two messages, each with a signal of its own. -/
theorem received_separate :
    Received [ascii "200 OK", ascii "DELCAM b"]
      [ascii "200 OK" ++ CRLFCRLF, ascii "DELCAM b" ++ CRLFCRLF] :=
  (received_iff _ _ (by decide) (by decide)).2 rfl

/-- Two messages that arrive together: only the first is handed on, and the second loses a byte. -/
theorem received_fails_together :
    ¬ ∀ messages chunks : List Bytes, (∀ message ∈ messages, Delimited CRLFCRLF message) →
      chunks.flatten = wire CRLFCRLF messages → Received messages chunks := by
  intro h
  have hread := (h [ascii "200 OK", ascii "DELCAM b"]
    [ascii "200 OK" ++ CRLFCRLF ++ ascii "DELCAM b" ++ CRLFCRLF] (by decide) (by decide)).complete
  exact absurd hread (by decide)

end Reader

end CarDetect.Monitor
