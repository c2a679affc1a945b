import CarDetect.Reactor.Demultiplexing

/-!
# Extraction until nothing is left

`drain` calls `tryExtractRtsp` until it returns false, and `receiveAll` does so after each chunk
that is appended to the buffer. `receive_all_requests` says that a stream of requests in which
the text `TEARDOWN` does not occur comes out as it was sent, however it is cut into chunks. Between
two chunks the buffer is a part of the next request that does not complete it.
-/

namespace CarDetect.Reactor

open BigEndian ByteString

/-- How a series of calls of `tryExtractRtsp` fails to end: a call faults, or no call of the number
allowed returns false. -/
inductive DrainFault where
  | assign (fault : AssignFault)
  | exhausted
deriving DecidableEq, Repr

/-- Call `tryExtractRtsp` until it returns false, at most this many times: the buffer left and the
requests extracted. -/
def drain : Nat → Bytes → Except DrainFault (Bytes × List Bytes)
  | 0, _ => .error .exhausted
  | fuel + 1, recvBuffer =>
      match tryExtractRtsp recvBuffer with
      | .error fault => .error (.assign fault)
      | .ok none => .ok (recvBuffer, [])
      | .ok (some (req, recvBuffer)) =>
          match drain fuel recvBuffer with
          | .error fault => .error fault
          | .ok (left, reqs) => .ok (left, req :: reqs)

/-- A chunk is appended to the buffer, and what is complete is extracted. -/
def appendChunk (fuel : Nat) (recvBuffer chunk : Bytes) :
    Except DrainFault (Bytes × List Bytes) :=
  drain fuel (recvBuffer ++ chunk)

/-- Successive chunks: the buffer left at the end and all requests extracted. -/
def receiveAll (fuel : Nat) (recvBuffer : Bytes) (chunks : List Bytes) :
    Except DrainFault (Bytes × List Bytes) :=
  Machine.run (appendChunk fuel) recvBuffer chunks

/-- The buffer does not hold the next request whole. -/
def Waiting (requests : List RtspRequest) (recvBuffer : Bytes) : Prop :=
  ∀ next ∈ requests.head?, recvBuffer.length < next.bytes.length

@[simp] theorem sentBytes_nil : sentBytes [] = [] := rfl

@[simp] theorem sentBytes_cons (request : RtspRequest) (rest : List RtspRequest) :
    sentBytes (request :: rest) = request.bytes ++ sentBytes rest := rfl

/-- What one call returns on a buffer that begins with a request or with a part of it. -/
theorem extract_front {request : RtspRequest} (h : request.Delimits) {recvBuffer later : Bytes}
    (hfree : ¬ TEARDOWN <:+: recvBuffer) (hleading : recvBuffer <+: request.bytes ++ later) :
    tryExtractRtsp recvBuffer =
      .ok (if recvBuffer.length < request.bytes.length then none
        else some (request.bytes, recvBuffer.drop request.bytes.length)) := by
  have hbytes : request.bytes.length = request.header.length + request.body.length := by
    rw [RtspRequest.bytes, List.length_append]
  rcases find_header_cases h hleading with ⟨hshort, hnone⟩ | ⟨rest, rfl, hrest, -⟩
  · rw [tryExtractRtsp, hnone, if_pos (by omega)]
  · rw [extract_request h (rfind_eq_none_iff.2 hfree), hbytes, List.length_append,
      List.drop_length_add_append]
    simp only [Nat.add_lt_add_iff_left]
    split
    · rfl
    · have hbody : request.body <+: rest :=
        List.prefix_of_prefix_length_le (List.prefix_append _ _) hrest (by omega)
      rw [← List.prefix_iff_eq_take.1 hbody, RtspRequest.bytes]

/-- The calls after one chunk extract the requests that are complete, and end. -/
theorem drain_requests {requests : List RtspRequest} (h : ∀ request ∈ requests, request.Delimits)
    {recvBuffer later : Bytes} (hfree : ¬ TEARDOWN <:+: recvBuffer)
    (hsent : recvBuffer ++ later = sentBytes requests) {fuel : Nat}
    (hfuel : requests.length < fuel) :
    ∃ complete others left, requests = complete ++ others ∧
      drain fuel recvBuffer = .ok (left, complete.map RtspRequest.bytes) ∧
      left ++ later = sentBytes others ∧ Waiting others left := by
  induction requests generalizing recvBuffer fuel with
  | nil =>
      obtain ⟨fuel, rfl⟩ : ∃ n, fuel = n + 1 := ⟨fuel - 1, by omega⟩
      obtain ⟨rfl, hlater⟩ := List.append_eq_nil_iff.1 hsent
      exact ⟨[], [], [], rfl, rfl, by simp [hlater], by simp [Waiting]⟩
  | cons request rest ih =>
      obtain ⟨fuel, rfl⟩ : ∃ n, fuel = n + 1 := ⟨fuel - 1, by omega⟩
      obtain ⟨hrequest, hrest⟩ := List.forall_mem_cons.1 h
      have hleading : recvBuffer <+: request.bytes ++ sentBytes rest := ⟨later, hsent⟩
      have hcall := extract_front hrequest hfree hleading
      by_cases hshort : recvBuffer.length < request.bytes.length
      · rw [if_pos hshort] at hcall
        refine ⟨[], request :: rest, recvBuffer, rfl, ?_, hsent, ?_⟩
        · simp only [drain, hcall, List.map_nil]
        · intro next hnext
          cases hnext
          exact hshort
      · rw [if_neg hshort] at hcall
        obtain ⟨left, rfl⟩ : request.bytes <+: recvBuffer :=
          List.prefix_of_prefix_length_le (List.prefix_append _ _) hleading (by omega)
        have hafter : left ++ later = sentBytes rest := by
          simpa using hsent
        have hfreeLeft : ¬ TEARDOWN <:+: left := fun hoccurs =>
          hfree (hoccurs.trans (List.suffix_append _ _).isInfix)
        obtain ⟨complete, others, final, rfl, hdrain, hbytes, hwaiting⟩ :=
          ih hrest hfreeLeft hafter (Nat.lt_of_succ_lt_succ hfuel)
        refine ⟨request :: complete, others, final, rfl, ?_, hbytes, hwaiting⟩
        rw [List.drop_left] at hcall
        simp only [drain, hcall, hdrain, List.map_cons]

/-- From a buffer that waits for the next request, the chunks yield all requests sent. -/
theorem receive_all_from {requests : List RtspRequest} {chunks : List Bytes}
    (h : ∀ request ∈ requests, request.Delimits) {recvBuffer : Bytes}
    (hfree : ¬ TEARDOWN <:+: sentBytes requests)
    (hsent : recvBuffer ++ chunks.flatten = sentBytes requests)
    (hwaiting : Waiting requests recvBuffer) {fuel : Nat} (hfuel : requests.length < fuel) :
    receiveAll fuel recvBuffer chunks = .ok ([], requests.map RtspRequest.bytes) := by
  induction chunks generalizing requests recvBuffer with
  | nil =>
      rw [List.flatten_nil, List.append_nil] at hsent
      cases requests with
      | nil =>
          rw [hsent]
          rfl
      | cons next rest =>
          have hshort := hwaiting next rfl
          rw [hsent, sentBytes_cons, List.length_append] at hshort
          omega
  | cons chunk chunks ih =>
      rw [List.flatten_cons, ← List.append_assoc] at hsent
      have hbuffer : ¬ TEARDOWN <:+: recvBuffer ++ chunk := fun hoccurs =>
        hfree (hoccurs.trans ⟨[], chunks.flatten, by simpa using hsent⟩)
      obtain ⟨complete, others, left, rfl, hdrain, hleft, hwaits⟩ :=
        drain_requests h hbuffer hsent hfuel
      have hothers : ¬ TEARDOWN <:+: sentBytes others := by
        intro hoccurs
        refine hfree (hoccurs.trans ⟨sentBytes complete, [], ?_⟩)
        simp [sentBytes]
      have hlength : others.length < fuel := by
        rw [List.length_append] at hfuel
        omega
      have hrun := ih (fun request hmem => h request (List.mem_append_right _ hmem)) hothers hleft
        hwaits hlength
      rw [List.map_append]
      exact Machine.run_cons_ok hdrain hrun

/-- A stream of requests without the text `TEARDOWN` comes out byte for byte and in order, and the
buffer is empty at the end, however the stream is cut into chunks. -/
theorem receive_all_requests (requests : List RtspRequest) (chunks : List Bytes) (fuel : Nat)
    (h : ∀ request ∈ requests, request.Delimits) (hfree : ¬ TEARDOWN <:+: sentBytes requests)
    (hsent : chunks.flatten = sentBytes requests) (hfuel : requests.length < fuel) :
    receiveAll fuel [] chunks = .ok ([], requests.map RtspRequest.bytes) := by
  refine receive_all_from h hfree (by simpa using hsent) (fun next hnext => ?_) hfuel
  exact List.length_pos_iff.2 (bytes_ne_nil (.request next))

/-- A request whose body is an empty line. -/
def blankBody : RtspRequest := ⟨[ascii "content-length:4"], CRLFCRLF⟩

theorem blankBody_delimits : blankBody.Delimits where
  line_free := by decide
  header_end := by decide
  length := .inr ⟨[], ascii "content-length:4", [], rfl, by simp,
    [], ascii "content-length:", [], [52], [], rfl, by simp, by simp, rfl, by simp,
    fun byte hbyte => by cases List.mem_singleton.1 hbyte; rfl, by simp, rfl⟩
  fits := by
    rw [maxSize]
    decide

/-- Two such requests, cut inside the first empty line and inside the second body. -/
theorem receive_all_requests_cut :
    receiveAll 3 [] [blankBody.bytes.take 17, blankBody.bytes.drop 17 ++ blankBody.bytes.take 21,
      blankBody.bytes.drop 21] = .ok ([], [blankBody.bytes, blankBody.bytes]) := by
  refine receive_all_requests [blankBody, blankBody] _ 3 ?_ ?_ (by decide) (by decide)
  · simp [blankBody_delimits]
  · exact mt find_isSome_iff.2 (by decide)

end CarDetect.Reactor
