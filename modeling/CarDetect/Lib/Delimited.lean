import CarDetect.Lib.ByteString

/-!
# Streams of messages that end in a terminator

A sender writes messages one after another, each followed by a terminator that does not occur
earlier. `find_delimited` finds the end of the first. A reader turns its buffer and the next chunk
into a text and a new buffer; `readAll` lets it read a list of chunks, and `InOrder` says that after
every chunk the texts are the first messages and the buffer is what follows them.
-/

namespace ByteString

open BigEndian

variable {terminator message : Bytes} {messages : List Bytes}

/-- The terminator first occurs at the end of the message that it follows. -/
def Delimited (terminator message : Bytes) : Prop :=
  find terminator (message ++ terminator) = some message.length

instance (terminator message : Bytes) : Decidable (Delimited terminator message) :=
  inferInstanceAs (Decidable (_ = _))

/-- The bytes of messages that are sent one after another. -/
def wire (terminator : Bytes) (messages : List Bytes) : Bytes :=
  messages.flatMap fun message => message ++ terminator

theorem wire_append (terminator : Bytes) (messages others : List Bytes) :
    wire terminator (messages ++ others) = wire terminator messages ++ wire terminator others :=
  List.flatMap_append

theorem wire_singleton (terminator message : Bytes) :
    wire terminator [message] = message ++ terminator := by
  simp [wire]

/-- The first terminator is found behind the first message, whatever comes after it. -/
theorem find_delimited (hne : terminator ≠ []) (h : Delimited terminator message) (rest : Bytes) :
    find terminator (message ++ terminator ++ rest) = some message.length := by
  obtain ⟨-, hfirst⟩ := (find_eq_some_iff hne).1 h
  refine (find_eq_some_iff hne).2 ⟨?_, fun earlier hearlier hleading => hfirst earlier hearlier ?_⟩
  · rw [List.append_assoc, List.drop_left]
    exact List.prefix_append _ _
  · -- an occurrence before the end of the message ends before the end of the terminator
    have hdrop : (message ++ terminator ++ rest).drop earlier =
        (message ++ terminator).drop earlier ++ rest :=
      List.drop_append_of_le_length (by rw [List.length_append]; omega)
    rw [hdrop] at hleading
    refine List.prefix_of_prefix_length_le hleading (List.prefix_append _ _) ?_
    rw [List.length_drop, List.length_append]
    omega

/-! ## Readers -/

/-- A reader: from the buffer and the next chunk to a text and the new buffer. -/
abbrev Reader := Bytes → Bytes → Bytes × Bytes

/-- The texts that a reader takes from its chunks, and the buffer at the end. -/
def readAll (read : Reader) : Bytes → List Bytes → List Bytes × Bytes
  | buffer, [] => ([], buffer)
  | buffer, chunk :: rest =>
      let (text, buffer) := read buffer chunk
      let (texts, buffer) := readAll read buffer rest
      (text :: texts, buffer)

section Read

variable {read : Reader} {chunks : List Bytes}

theorem read_append (read : Reader) (buffer : Bytes) (chunks others : List Bytes) :
    readAll read buffer (chunks ++ others) =
      ((readAll read buffer chunks).1 ++ (readAll read (readAll read buffer chunks).2 others).1,
        (readAll read (readAll read buffer chunks).2 others).2) := by
  induction chunks generalizing buffer with
  | nil => rfl
  | cons first rest ih => simp only [List.cons_append, readAll, ih]

theorem read_snoc (read : Reader) (buffer : Bytes) (chunks : List Bytes) (chunk : Bytes) :
    readAll read buffer (chunks ++ [chunk]) =
      ((readAll read buffer chunks).1 ++ [(read (readAll read buffer chunks).2 chunk).1],
        (read (readAll read buffer chunks).2 chunk).2) :=
  read_append read buffer chunks [chunk]

/-- A reader takes one text from each chunk. -/
theorem length_read (read : Reader) (buffer : Bytes) (chunks : List Bytes) :
    (readAll read buffer chunks).1.length = chunks.length := by
  induction chunks generalizing buffer with
  | nil => rfl
  | cons chunk rest ih => simp only [readAll, List.length_cons, ih]

/-- After every chunk the texts are the first messages, and the buffer is what has arrived after
them. -/
def InOrder (read : Reader) (terminator : Bytes) (messages chunks : List Bytes) : Prop :=
  ∀ arrived, arrived <+: chunks → ∃ count,
    (readAll read [] arrived).1 = messages.take count ∧
      arrived.flatten = wire terminator (messages.take count) ++ (readAll read [] arrived).2

/-- In order, one message is taken from each chunk. -/
theorem InOrder.take (h : InOrder read terminator messages chunks) {k : Nat}
    (hk : k ≤ chunks.length) :
    (readAll read [] (chunks.take k)).1 = messages.take k ∧
      (chunks.take k).flatten = wire terminator (messages.take k) ++
        (readAll read [] (chunks.take k)).2 := by
  obtain ⟨count, htexts, hflatten⟩ := h _ (List.take_prefix k chunks)
  have hlength : (messages.take count).length = k := by
    rw [← htexts, length_read, List.length_take, Nat.min_eq_left hk]
  have hcount : messages.take count = messages.take k := by
    rw [List.length_take] at hlength
    rcases Nat.le_total count messages.length with hle | hle
    · rw [Nat.min_eq_left hle] at hlength
      rw [hlength]
    · rw [List.take_of_length_le hle, List.take_of_length_le (by omega)]
  rw [← hcount]
  exact ⟨htexts, hflatten⟩

/-- A reader that has been in order for `k` chunks reads the next. -/
theorem read_next {k : Nat} (hk : k < chunks.length)
    (htexts : (readAll read [] (chunks.take k)).1 = messages.take k)
    (hflatten : (chunks.take k).flatten = wire terminator (messages.take k) ++
      (readAll read [] (chunks.take k)).2) :
    (readAll read [] (chunks.take (k + 1))) =
        (messages.take k ++ [(read (readAll read [] (chunks.take k)).2 chunks[k]).1],
          (read (readAll read [] (chunks.take k)).2 chunks[k]).2) ∧
      (chunks.take (k + 1)).flatten = wire terminator (messages.take k) ++
        ((readAll read [] (chunks.take k)).2 ++ chunks[k]) := by
  have hsplit : chunks.take (k + 1) = chunks.take k ++ [chunks[k]] := by simp
  constructor
  · rw [hsplit, read_snoc, htexts]
  · rw [hsplit, List.flatten_append, hflatten, List.append_assoc]
    simp

end Read

end ByteString
