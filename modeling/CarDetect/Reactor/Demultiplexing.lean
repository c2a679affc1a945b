import CarDetect.Reactor.Framing

/-!
# Runs of receive events

A stream of requests and frames arrives in chunks, one for each readable event. `framed_iff` says
in which runs every event treats the item at the front of the buffer as its framing demands. It
has two readings: `demultiplexed_iff`, for mixed streams, and `none_stranded_iff`, for streams of
requests, where in addition no complete request may be left in the buffer after an event.
-/

namespace CarDetect.Reactor

open BigEndian ByteString Camera

/-- The bytes of items sent one after another. -/
def stream (items : List SentItem) : Bytes :=
  (items.map SentItem.bytes).flatten

@[simp] theorem stream_nil : stream [] = [] := rfl

@[simp] theorem stream_cons (item : SentItem) (rest : List SentItem) :
    stream (item :: rest) = item.bytes ++ stream rest := rfl

theorem stream_append (first second : List SentItem) :
    stream (first ++ second) = stream first ++ stream second := by
  simp [stream]

variable (Q : List SentItem → Bytes → Prop)

/-- After every event of the run, the calls made are those of the first items sent, the buffer
holds the bytes received after these items, and `Q` holds of the other items and the buffer. -/
def Framed (recvBuffer : Bytes) (items : List SentItem) (chunks : List Bytes) : Prop :=
  ∀ done, done <+: chunks → ∃ taken left,
    receive recvBuffer done = .ok (left, (items.take taken).map SentItem.call) ∧
    stream (items.take taken) ++ left = recvBuffer ++ done.flatten ∧ Q (items.drop taken) left

/-- The items that remain after an event whose buffer begins with this item. -/
def itemsLeft (item : SentItem) (rest : List SentItem) (buffer : Bytes) : List SentItem :=
  if buffer.length < item.bytes.length then item :: rest else rest

/-- Every event of the run finds a buffer that it accepts, when each takes the item at the front of
the stream as soon as it is complete, and `Q` holds between the events. -/
def Clean : Bytes → List SentItem → List Bytes → Prop
  | recvBuffer, items, [] => Q items recvBuffer
  | recvBuffer, [], _ :: _ => Q [] recvBuffer
  | recvBuffer, item :: rest, chunk :: chunks =>
      Q (item :: rest) recvBuffer ∧ Accepts item (recvBuffer ++ chunk) ∧
        Clean (takeFirst item (recvBuffer ++ chunk)).1
          (itemsLeft item rest (recvBuffer ++ chunk)) chunks

variable {Q} {recvBuffer : Bytes} {items : List SentItem} {chunks : List Bytes}

/-- Before the first event. -/
theorem framed_start (h : Framed Q recvBuffer items chunks) : Q items recvBuffer := by
  obtain ⟨taken, left, hreceive, -, hq⟩ := h [] (List.nil_prefix)
  have hstart : receive recvBuffer [] = .ok (recvBuffer, []) := rfl
  rw [hstart] at hreceive
  have hpair := Prod.mk.inj (Except.ok.inj hreceive)
  have htaken : items.take taken = [] := List.map_eq_nil_iff.1 hpair.2.symm
  have hdrop := List.take_append_drop taken items
  rw [htaken, List.nil_append] at hdrop
  rw [← hdrop, hpair.1]
  exact hq

/-- One event that takes the first `count` items, and the run after it. -/
theorem framed_cons {chunk next : Bytes} {count : Nat} (hcount : count ≤ items.length)
    (hstep : onMessage recvBuffer chunk = .ok (next, (items.take count).map SentItem.call))
    (hbytes : stream (items.take count) ++ next = recvBuffer ++ chunk) :
    Framed Q recvBuffer items (chunk :: chunks) ↔
      Q items recvBuffer ∧ Framed Q next (items.drop count) chunks := by
  constructor
  · intro h
    refine ⟨framed_start h, fun done hdone => ?_⟩
    obtain ⟨taken, left, hreceive, hleft, hq⟩ := h (chunk :: done)
      (List.cons_prefix_cons.2 ⟨rfl, hdone⟩)
    obtain ⟨middle, out, outs, hfirst, hrest, hcalls⟩ := Machine.run_cons_inv hreceive
    rw [hstep] at hfirst
    obtain ⟨rfl, rfl⟩ := Prod.mk.inj (Except.ok.inj hfirst)
    simp only at hcalls hrest
    -- the first step has taken its items, so later ones have taken at least these
    have hle : count ≤ taken := by
      have hlength := congrArg List.length hcalls
      simp only [List.length_append, List.length_map, List.length_take] at hlength
      omega
    obtain ⟨more, rfl⟩ := Nat.exists_eq_add_of_le hle
    rw [List.take_add] at hcalls hleft
    rw [List.map_append, List.append_cancel_left_eq] at hcalls
    refine ⟨more, left, ?_, ?_, ?_⟩
    · rw [hcalls]
      exact hrest
    · have hsplit : stream (items.take count) ++ (stream ((items.drop count).take more) ++ left) =
          stream (items.take count) ++ (next ++ done.flatten) := by
        calc stream (items.take count) ++ (stream ((items.drop count).take more) ++ left)
            = recvBuffer ++ (chunk :: done).flatten := by
              rw [← hleft, stream_append, List.append_assoc]
          _ = stream (items.take count) ++ (next ++ done.flatten) := by
              rw [List.flatten_cons, ← List.append_assoc, ← hbytes, List.append_assoc]
      exact List.append_cancel_left hsplit
    · rwa [List.drop_drop]
  · rintro ⟨hq, h⟩ done hdone
    rcases List.prefix_cons_iff.1 hdone with rfl | ⟨tail, rfl, htail⟩
    · exact ⟨0, recvBuffer, rfl, by simp, by simpa using hq⟩
    · obtain ⟨taken, left, hreceive, hleft, hqleft⟩ := h tail htail
      refine ⟨count + taken, left, ?_, ?_, ?_⟩
      · rw [List.take_add, List.map_append]
        exact Machine.run_cons_ok hstep hreceive
      · rw [List.take_add, stream_append, List.append_assoc, hleft, ← List.append_assoc, hbytes,
          List.append_assoc, List.flatten_cons]
      · rwa [← List.drop_drop]

/-- An accepted event, and the run after it. -/
theorem framed_accepts {item : SentItem} {rest : List SentItem} {chunk : Bytes}
    (h : item.WellFormed) (hchunk : chunk ≠ [])
    (hleading : recvBuffer ++ chunk <+: item.bytes ++ stream rest)
    (haccepts : Accepts item (recvBuffer ++ chunk)) :
    Framed Q recvBuffer (item :: rest) (chunk :: chunks) ↔
      Q (item :: rest) recvBuffer ∧
        Framed Q (takeFirst item (recvBuffer ++ chunk)).1
          (itemsLeft item rest (recvBuffer ++ chunk)) chunks := by
  have hne : recvBuffer ++ chunk ≠ [] := by simp [hchunk]
  have hstep := on_message_accepts h hne hleading haccepts
  rw [← on_message_eq recvBuffer hchunk] at hstep
  by_cases hshort : (recvBuffer ++ chunk).length < item.bytes.length
  · rw [takeFirst, if_pos hshort] at hstep ⊢
    rw [itemsLeft, if_pos hshort]
    exact framed_cons (Nat.zero_le _) hstep rfl
  · rw [takeFirst, if_neg hshort] at hstep ⊢
    rw [itemsLeft, if_neg hshort]
    have hwhole : item.bytes <+: recvBuffer ++ chunk :=
      List.prefix_of_prefix_length_le (List.prefix_append _ _) hleading (by omega)
    obtain ⟨left, hleft⟩ := hwhole
    have hbytes : stream ((item :: rest).take 1) ++ (recvBuffer ++ chunk).drop item.bytes.length =
        recvBuffer ++ chunk := by
      rw [← hleft, List.drop_left]
      simp
    exact framed_cons (Nat.succ_le_succ (Nat.zero_le _)) hstep hbytes

/-- After an event that is not accepted the run is not framed. -/
theorem framed_rejects {item : SentItem} {rest : List SentItem} {chunk : Bytes}
    (h : item.WellFormed) (hchunk : chunk ≠ [])
    (hleading : recvBuffer ++ chunk <+: item.bytes ++ stream rest)
    (hrejects : ¬ Accepts item (recvBuffer ++ chunk)) :
    ¬ Framed Q recvBuffer (item :: rest) (chunk :: chunks) := by
  intro hframed
  have hne : recvBuffer ++ chunk ≠ [] := by simp [hchunk]
  obtain ⟨taken, left, hreceive, hleft, -⟩ := hframed [chunk]
    (List.cons_prefix_cons.2 ⟨rfl, List.nil_prefix⟩)
  obtain ⟨middle, out, outs, hstep, hrest, hcalls⟩ := Machine.run_cons_inv hreceive
  cases hrest
  rw [on_message_eq recvBuffer hchunk] at hstep
  obtain ⟨call, rfl, hwrong⟩ := on_message_rejects h hne hleading hrejects hstep
  simp only [List.append_nil] at hcalls
  -- the one call made is that of the first item, so exactly this item was taken
  cases taken with
  | zero => cases hcalls
  | succ taken =>
      rw [List.take_succ_cons, List.map_cons, List.cons.injEq, List.map_eq_nil_iff] at hcalls
      obtain ⟨hcall, hnone⟩ := hcalls
      rw [List.take_succ_cons, hnone, stream_cons, stream_nil, List.append_nil,
        List.flatten_singleton] at hleft
      exact hwrong ⟨hcall.symm, hleft.symm⟩

/-- After an accepted event the buffer and the bytes still to come are those of the items left. -/
theorem sent_left {item : SentItem} {rest : List SentItem} {buffer later : Bytes}
    (hsent : buffer ++ later <+: item.bytes ++ stream rest) :
    (takeFirst item buffer).1 ++ later <+: stream (itemsLeft item rest buffer) := by
  rw [takeFirst, itemsLeft]
  by_cases hshort : buffer.length < item.bytes.length
  · rw [if_pos hshort, if_pos hshort]
    exact hsent
  · rw [if_neg hshort, if_neg hshort]
    obtain ⟨left, rfl⟩ : item.bytes <+: buffer :=
      List.prefix_of_prefix_length_le (List.prefix_append _ _)
        ((List.prefix_append _ _).trans hsent) (by omega)
    rw [List.append_assoc] at hsent
    show (item.bytes ++ left).drop item.bytes.length ++ later <+: stream rest
    rw [List.drop_left]
    exact (List.prefix_append_right_inj _).1 hsent

/-- The items left are some of the items sent. -/
theorem mem_itemsLeft {item other : SentItem} {rest : List SentItem} {buffer : Bytes}
    (h : other ∈ itemsLeft item rest buffer) : other ∈ item :: rest := by
  rw [itemsLeft] at h
  split at h
  · exact h
  · exact List.mem_cons_of_mem _ h

/-- The runs in which every event treats the front of the buffer as its framing demands. -/
theorem framed_iff (hitems : ∀ item ∈ items, item.WellFormed)
    (hchunks : ∀ chunk ∈ chunks, chunk ≠ [])
    (hsent : recvBuffer ++ chunks.flatten <+: stream items) :
    Framed Q recvBuffer items chunks ↔ Clean Q recvBuffer items chunks := by
  induction chunks generalizing recvBuffer items with
  | nil =>
      refine ⟨framed_start, fun hq done hdone => ?_⟩
      obtain rfl := List.prefix_nil.1 hdone
      exact ⟨0, recvBuffer, rfl, by simp, hq⟩
  | cons chunk chunks ih =>
      obtain ⟨hchunk, hothers⟩ := List.forall_mem_cons.1 hchunks
      rw [List.flatten_cons, ← List.append_assoc] at hsent
      cases items with
      | nil =>
          have hnil := List.prefix_nil.1 hsent
          simp [hchunk] at hnil
      | cons item rest =>
          obtain ⟨hitem, hrest⟩ := List.forall_mem_cons.1 hitems
          have hleading : recvBuffer ++ chunk <+: item.bytes ++ stream rest :=
            (List.prefix_append _ _).trans hsent
          rw [Clean]
          by_cases haccepts : Accepts item (recvBuffer ++ chunk)
          · rw [framed_accepts hitem hchunk hleading haccepts]
            have hafter := ih (fun other hother => hitems other (mem_itemsLeft hother)) hothers
              (sent_left hsent)
            rw [hafter]
            exact ⟨fun h => ⟨h.1, haccepts, h.2⟩, fun h => ⟨h.1, h.2.2⟩⟩
          · exact iff_of_false (framed_rejects hitem hchunk hleading haccepts)
              fun hclean => haccepts hclean.2.1

/-! ## Mixed streams -/

/-- After every event, the calls made are those of the first items sent, in order, and the buffer
holds exactly the bytes received after these items. -/
def Demultiplexed (items : List SentItem) (chunks : List Bytes) : Prop :=
  ∀ done, done <+: chunks → ∃ taken left,
    receive [] done = .ok (left, (items.take taken).map SentItem.call) ∧
    stream (items.take taken) ++ left = done.flatten

theorem demultiplexed_iff_framed (items : List SentItem) (chunks : List Bytes) :
    Demultiplexed items chunks ↔ Framed (fun _ _ => True) [] items chunks := by
  simp only [Demultiplexed, Framed, List.nil_append, and_true]

/-- A run demultiplexes by framing alone exactly when every event finds a buffer that is
accepted. -/
theorem demultiplexed_iff (items : List SentItem) (chunks : List Bytes)
    (hitems : ∀ item ∈ items, item.WellFormed) (hchunks : ∀ chunk ∈ chunks, chunk ≠ [])
    (hsent : chunks.flatten <+: stream items) :
    Demultiplexed items chunks ↔ Clean (fun _ _ => True) [] items chunks := by
  rw [demultiplexed_iff_framed, framed_iff hitems hchunks hsent]

/-- A request of one line with one character. -/
def shortest : RtspRequest := ⟨[[79]], []⟩

theorem shortest_wf : shortest.WellFormed where
  lines_ne := by decide
  line_free := by decide
  header_end := by decide
  length := .inl (by decide)
  not_dollar := by decide
  fits := by
    rw [maxSize]
    decide

/-- A request and a frame without an empty line in its payload, each in a chunk of its own. -/
theorem demultiplexed_separate :
    Demultiplexed [.request shortest, .frame 1 [7]]
      [[79, 13, 10, 13, 10], [0x24, 1, 0, 1, 7]] := by
  have hitems : ∀ item ∈ [SentItem.request shortest, .frame 1 [7]], item.WellFormed :=
    List.forall_mem_cons.2 ⟨shortest_wf, by simp [SentItem.WellFormed]⟩
  refine (demultiplexed_iff _ _ hitems (by decide) (by decide)).2 ⟨trivial, ?_, ?_⟩
  · exact .inr (.inl (by decide))
  · refine ⟨trivial, ?_, trivial⟩
    have hnone : find CRLFCRLF [0x24, 1, 0, 1, 7] = none := by decide
    intro headerEnd hend
    exact absurd (hnone.symm.trans hend) (by simp)

/-- A frame whose payload is an empty line is handed on as an RTSP request. -/
theorem demultiplexed_fails_empty_line :
    ¬ ∀ (items : List SentItem) (chunks : List Bytes), (∀ item ∈ items, item.WellFormed) →
      (∀ chunk ∈ chunks, chunk ≠ []) → chunks.flatten <+: stream items →
      Demultiplexed items chunks := by
  intro h
  have hwf : (SentItem.frame 0 CRLFCRLF).WellFormed := by simp [SentItem.WellFormed, CRLFCRLF]
  have hbytes : (SentItem.frame 0 CRLFCRLF).bytes = [0x24, 0, 0, 4, 13, 10, 13, 10] := by decide
  have hdemultiplexed := h [.frame 0 CRLFCRLF] [[0x24, 0, 0, 4, 13, 10, 13, 10]]
    (List.forall_mem_singleton.2 hwf) (by decide) (by simp [hbytes])
  rw [demultiplexed_iff_framed] at hdemultiplexed
  refine framed_rejects hwf (by decide) (by simp [hbytes]) ?_ hdemultiplexed
  intro haccepts
  -- the header block that ends after the frame's payload announces no body
  have hfound : find CRLFCRLF [0x24, 0, 0, 4, 13, 10, 13, 10] = some 4 := rfl
  have hlength : contentLength [0x24, 0, 0, 4, 13, 10, 13, 10] = 0 := by
    show contentLength (endLines [[0x24, 0, 0, 4]] ++ CRLF) = 0
    exact content_length_none (List.forall_mem_singleton.2 rfl)
      (List.forall_mem_singleton.2 (by decide))
  have hreach := (haccepts 4 hfound).2
  rw [List.nil_append, List.take_of_length_le (by decide), hlength, sizeRange] at hreach
  simp at hreach

/-! ## Streams of requests -/

/-- The calls that hand these requests on. -/
def handled (requests : List RtspRequest) : List RtspCall :=
  requests.map fun request => .handleRequest request.bytes

/-- The bytes of requests sent one after another. -/
def sentBytes (requests : List RtspRequest) : Bytes :=
  (requests.map RtspRequest.bytes).flatten

/-- After every event, the first requests sent have been handed on, in order, the buffer holds
exactly the bytes received after them, and it does not hold the next request completely. -/
def NoneStranded (requests : List RtspRequest) (chunks : List Bytes) : Prop :=
  ∀ done, done <+: chunks → ∃ taken left,
    receive [] done = .ok (left, handled (requests.take taken)) ∧
    sentBytes (requests.take taken) ++ left = done.flatten ∧
    ∀ next ∈ (requests.drop taken).head?, left.length < next.bytes.length

/-- The buffer does not hold the next item completely. -/
def Unfinished (items : List SentItem) (left : Bytes) : Prop :=
  ∀ next ∈ items.head?, left.length < next.bytes.length

theorem none_stranded_iff_framed (requests : List RtspRequest) (chunks : List Bytes) :
    NoneStranded requests chunks ↔ Framed Unfinished [] (requests.map .request) chunks := by
  have hcalls (taken : Nat) :
      ((requests.map SentItem.request).take taken).map SentItem.call =
        handled (requests.take taken) := by
    rw [← List.map_take, List.map_map]
    rfl
  have hbytes (taken : Nat) :
      stream ((requests.map SentItem.request).take taken) = sentBytes (requests.take taken) := by
    rw [← List.map_take, stream, List.map_map]
    rfl
  have hnext (taken : Nat) (left : Bytes) :
      Unfinished ((requests.map SentItem.request).drop taken) left ↔
        ∀ next ∈ (requests.drop taken).head?, left.length < next.bytes.length := by
    rw [← List.map_drop, Unfinished, List.head?_map]
    simp [SentItem.bytes]
  simp only [NoneStranded, Framed, hcalls, hbytes, hnext, List.nil_append]

/-- When all bytes have arrived, all requests have been handed on. -/
theorem NoneStranded.complete {requests : List RtspRequest} {chunks : List Bytes}
    (h : NoneStranded requests chunks) (hall : chunks.flatten = sentBytes requests) :
    receive [] chunks = .ok ([], handled requests) := by
  obtain ⟨taken, left, hreceive, hbytes, hnext⟩ := h chunks List.prefix_rfl
  have hleft : left = sentBytes (requests.drop taken) := by
    have hsplit := List.take_append_drop taken requests
    rw [hall] at hbytes
    nth_rewrite 2 [← hsplit] at hbytes
    rw [sentBytes, sentBytes, List.map_append, List.flatten_append] at hbytes
    exact List.append_cancel_left hbytes
  cases hrest : requests.drop taken with
  | nil =>
      have hdone := List.take_append_drop taken requests
      rw [hrest, List.append_nil] at hdone
      rw [hrest] at hleft
      rw [hreceive, hdone, hleft]
      rfl
  | cons next later =>
      have hshort := hnext next (by rw [hrest]; rfl)
      rw [hleft, hrest, sentBytes, List.map_cons, List.flatten_cons, List.length_append] at hshort
      omega

/-- A run strands no request exactly when every event finds a buffer that is accepted and completes
at most one request. -/
theorem none_stranded_iff (requests : List RtspRequest) (chunks : List Bytes)
    (hrequests : ∀ request ∈ requests, request.WellFormed)
    (hchunks : ∀ chunk ∈ chunks, chunk ≠ []) (hsent : chunks.flatten <+: sentBytes requests) :
    NoneStranded requests chunks ↔ Clean Unfinished [] (requests.map .request) chunks := by
  have hitems : ∀ item ∈ requests.map SentItem.request, item.WellFormed := by
    intro item hitem
    obtain ⟨request, hrequest, rfl⟩ := List.mem_map.1 hitem
    exact hrequests request hrequest
  have hstream : stream (requests.map SentItem.request) = sentBytes requests := by
    rw [stream, List.map_map]
    rfl
  rw [none_stranded_iff_framed, framed_iff hitems hchunks (by rw [hstream]; exact hsent)]

/-- Two requests without a body, each in a chunk of its own. -/
theorem none_stranded_separate :
    NoneStranded [shortest, shortest] [shortest.bytes, shortest.bytes] := by
  have hrequests : ∀ request ∈ [shortest, shortest], request.WellFormed := by
    simp [shortest_wf]
  have haccepts : Accepts (.request shortest) ([] ++ shortest.bytes) := .inr (.inl (by decide))
  refine (none_stranded_iff _ _ hrequests (by decide) (by decide)).2 ?_
  have hwaits (rest : List SentItem) : Unfinished (.request shortest :: rest) [] := by
    intro next hnext
    cases hnext
    decide
  exact ⟨hwaits _, haccepts, hwaits _, haccepts, by intro next hnext; cases hnext⟩

/-- Two requests without a body that arrive in one chunk: the second stays in the buffer. -/
theorem none_stranded_fails_two_requests :
    ¬ ∀ (requests : List RtspRequest) (chunks : List Bytes),
      (∀ request ∈ requests, request.WellFormed) → (∀ chunk ∈ chunks, chunk ≠ []) →
      chunks.flatten = sentBytes requests → NoneStranded requests chunks := by
  intro h
  have hstranded := h [shortest, shortest] [shortest.bytes ++ shortest.bytes]
    (by simp [shortest_wf]) (by decide) (by decide)
  have hcomplete := hstranded.complete (by decide)
  have hfound : find CRLFCRLF (shortest.bytes ++ shortest.bytes) = some 1 := by decide
  have hone : onMessage [] (shortest.bytes ++ shortest.bytes) =
      .ok (shortest.bytes, [.handleRequest shortest.bytes]) := by
    exact on_message_request (by decide) (extract_request shortest_wf.delimits (by decide))
  have hrun : receive [] [shortest.bytes ++ shortest.bytes] =
      .ok (shortest.bytes, [.handleRequest shortest.bytes]) := Machine.run_cons_ok hone rfl
  rw [hrun] at hcomplete
  cases hcomplete

end CarDetect.Reactor
