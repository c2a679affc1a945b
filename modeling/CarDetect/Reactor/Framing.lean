import CarDetect.Reactor.Extraction

/-!
# One receive event

A peer sends RTSP requests and interleaved frames one after another. `Accepts` says for which
buffers `onMessage` treats the first item as its framing demands, and `on_message_accepts` and
`on_message_rejects` are the two halves of the statement that it does so for no others.
-/

namespace CarDetect.Reactor

open BigEndian ByteString Camera

/-- What the peer sends. -/
inductive SentItem where
  | request (rtsp : RtspRequest)
  | frame (channel : UInt8) (payload : Bytes)
deriving DecidableEq, Repr

/-- The bytes of an item. The camera sends frames with `send_rtp_over_tcp`. -/
def SentItem.bytes : SentItem → Bytes
  | .request rtsp => rtsp.bytes
  | .frame channel payload => sendRtpOverTcp payload channel

/-- Requests are well formed, and frames have at most 15000 bytes of payload. -/
def SentItem.WellFormed : SentItem → Prop
  | .request rtsp => rtsp.WellFormed
  | .frame _ payload => payload.length ≤ 15000

/-- The call that an item must lead to. A frame is handed on with its header bytes. -/
def SentItem.call : SentItem → RtspCall
  | .request rtsp => .handleRequest rtsp.bytes
  | .frame channel payload => .onInterleavedFrame channel (sendRtpOverTcp payload channel)

/-- The buffers at whose front `onMessage` finds this item, or waits for it. For a request: a
buffer with both an empty line and the text `TEARDOWN` in it is one request without a body, and
its last `TEARDOWN` is at the beginning. For a frame: a buffer with an empty line has no `TEARDOWN`
in it, and its bytes up to the empty line announce a body that reaches past the buffer. -/
def Accepts (item : SentItem) (buffer : Bytes) : Prop :=
  match item with
  | .request rtsp =>
      find CRLFCRLF buffer = none ∨ rfind TEARDOWN buffer = none ∨
        buffer = rtsp.bytes ∧ rtsp.body = [] ∧ rfind TEARDOWN buffer = some 0
  | .frame _ _ =>
      ∀ headerEnd, find CRLFCRLF buffer = some headerEnd →
        rfind TEARDOWN buffer = none ∧
          buffer.length < (headerEnd + 4 + contentLength (buffer.take (headerEnd + 4))) % sizeRange

theorem bytes_ne_nil (item : SentItem) : item.bytes ≠ [] := by
  cases item with
  | request rtsp => simp [SentItem.bytes, RtspRequest.bytes, RtspRequest.header, CRLF]
  | frame channel payload => simp [SentItem.bytes, sendRtpOverTcp]

/-! ## Frames -/

theorem length_sendRtpOverTcp (payload : Bytes) (channel : UInt8) :
    (sendRtpOverTcp payload channel).length = payload.length + 4 := by
  simp [sendRtpOverTcp]

/-- What is extracted from a buffer that begins with the header of a frame. -/
theorem extract_header {payload : Bytes} (hshort : payload.length ≤ 15000) (channel : UInt8)
    (rest : Bytes) :
    tryExtractInterleaved ((sendRtpOverTcp payload channel).take 4 ++ rest) =
      if rest.length < payload.length then
        (none, (sendRtpOverTcp payload channel).take 4 ++ rest)
      else
        (some (channel, (sendRtpOverTcp payload channel).take 4 ++ rest.take payload.length),
          rest.drop payload.length) := by
  have hlen := join16_length (n := payload.length) (by omega)
  have hlarge : ¬ 15000 < payload.length := by omega
  have htake : payload.length + 4 = payload.length + 1 + 1 + 1 + 1 := rfl
  have hdrop : 4 + payload.length = payload.length + 1 + 1 + 1 + 1 := by omega
  simp only [sendRtpOverTcp, List.cons_append, List.nil_append, List.take_succ_cons,
    List.take_zero, tryExtractInterleaved, hlen, ne_eq, not_true_eq_false, if_false, gt_iff_lt,
    hlarge, htake, hdrop, List.length_cons, List.drop_succ_cons, Nat.add_lt_add_iff_right]

theorem sendRtpOverTcp_eq (payload : Bytes) (channel : UInt8) :
    sendRtpOverTcp payload channel = (sendRtpOverTcp payload channel).take 4 ++ payload := rfl

/-- A complete frame is extracted. -/
theorem extract_frame {payload : Bytes} (hshort : payload.length ≤ 15000) (channel : UInt8)
    (rest : Bytes) :
    tryExtractInterleaved (sendRtpOverTcp payload channel ++ rest) =
      (some (channel, sendRtpOverTcp payload channel), rest) := by
  have hcomplete : ¬ (payload ++ rest).length < payload.length := by simp
  rw [sendRtpOverTcp_eq, List.append_assoc, extract_header hshort, if_neg hcomplete,
    List.take_left, List.drop_left]

/-- An incomplete frame stays in the buffer. -/
theorem extract_frame_short {payload buffer : Bytes} {channel : UInt8}
    (hshort : payload.length ≤ 15000) (hleading : buffer <+: sendRtpOverTcp payload channel)
    (hincomplete : buffer.length < (sendRtpOverTcp payload channel).length) :
    tryExtractInterleaved buffer = (none, buffer) := by
  rw [length_sendRtpOverTcp] at hincomplete
  by_cases hheader : buffer.length < 4
  · -- the four bytes of the header are not there yet
    unfold tryExtractInterleaved
    split
    · simp only [List.length_cons] at hheader
      omega
    · rfl
  · obtain ⟨missing, hmissing⟩ := hleading
    have htake : buffer.take 4 = (sendRtpOverTcp payload channel).take 4 := by
      rw [← hmissing, List.take_append_of_le_length (by omega)]
    have hbuffer : buffer = (sendRtpOverTcp payload channel).take 4 ++ buffer.drop 4 := by
      rw [← htake, List.take_append_drop]
    have hrest : (buffer.drop 4).length < payload.length := by
      rw [List.length_drop]
      omega
    rw [hbuffer, extract_header hshort, if_pos hrest]

/-- A buffer that does not begin with `'$'` has no frame. -/
theorem extract_frame_none {buffer : Bytes} (h : buffer.head? ≠ some 0x24) :
    tryExtractInterleaved buffer = (none, buffer) := by
  unfold tryExtractInterleaved
  split
  · rename_i dollar channel high low rest
    have hne : dollar ≠ 0x24 := fun heq => h (by rw [heq]; rfl)
    simp [hne]
  · rfl

/-! ## The outcome of an event -/

section Outcome

variable {buffer rest : Bytes}

/-- Only the buffer with the new bytes appended matters. -/
theorem on_message_eq (recvBuffer : Bytes) {temp : Bytes} (h : temp ≠ []) :
    onMessage recvBuffer temp = onMessage [] (recvBuffer ++ temp) := by
  have happend : recvBuffer ++ temp ≠ [] := by simp [h]
  simp only [onMessage, recvOneItem, if_neg h, if_neg happend, List.nil_append]

theorem on_message_request {req : Bytes} (hne : buffer ≠ [])
    (hrtsp : tryExtractRtsp buffer = .ok (some (req, rest))) :
    onMessage [] buffer = .ok (rest, [.handleRequest req]) := by
  simp only [onMessage, recvOneItem, if_neg hne, List.nil_append, hrtsp]

theorem on_message_frame {channel : UInt8} {payload : Bytes} (hne : buffer ≠ [])
    (hrtsp : tryExtractRtsp buffer = .ok none)
    (hframe : tryExtractInterleaved buffer = (some (channel, payload), rest)) :
    onMessage [] buffer = .ok (rest, [.onInterleavedFrame channel payload]) := by
  simp only [onMessage, recvOneItem, if_neg hne, List.nil_append, hrtsp, hframe]

theorem on_message_wait (hne : buffer ≠ []) (hrtsp : tryExtractRtsp buffer = .ok none)
    (hframe : tryExtractInterleaved buffer = (none, rest)) :
    onMessage [] buffer = .ok (rest, []) := by
  simp only [onMessage, recvOneItem, if_neg hne, List.nil_append, hrtsp, hframe]

theorem on_message_fault {fault : AssignFault} (hne : buffer ≠ [])
    (hrtsp : tryExtractRtsp buffer = .error fault) : onMessage [] buffer = .error fault := by
  simp only [onMessage, recvOneItem, if_neg hne, List.nil_append, hrtsp]

end Outcome

/-! ## A request at the front -/

section Request

variable {request : RtspRequest} {buffer later : Bytes}

/-- A buffer that begins with the header block, as the search for its end finds it. -/
theorem find_header_cases (h : request.Delimits) (hleading : buffer <+: request.bytes ++ later) :
    buffer.length < request.header.length ∧ find CRLFCRLF buffer = none ∨
      ∃ rest, buffer = request.header ++ rest ∧ rest <+: request.body ++ later ∧
        find CRLFCRLF buffer = some (request.header.length - 4) := by
  rw [RtspRequest.bytes, List.append_assoc] at hleading
  by_cases hshort : buffer.length < request.header.length
  · have hheader : buffer <+: request.header :=
      List.prefix_of_prefix_length_le hleading (List.prefix_append _ _) hshort.le
    exact .inl ⟨hshort, find_header_short h hheader hshort⟩
  · obtain ⟨rest, rfl⟩ : request.header <+: buffer :=
      List.prefix_of_prefix_length_le (List.prefix_append _ _) hleading (by omega)
    exact .inr ⟨rest, rfl, (List.prefix_append_right_inj _).1 hleading, find_header_end h rest⟩

/-- Without the text `TEARDOWN` in the buffer a request is extracted when it is complete. -/
theorem extract_request (h : request.Delimits) {rest : Bytes}
    (hteardown : rfind TEARDOWN (request.header ++ rest) = none) :
    tryExtractRtsp (request.header ++ rest) =
      .ok (if rest.length < request.body.length then none
        else some (request.header ++ rest.take request.body.length,
          rest.drop request.body.length)) := by
  have hge := header_length_ge h
  have hend : request.header.length - 4 + 4 = request.header.length := by omega
  have hfits := h.fits
  rw [RtspRequest.bytes, List.length_append, maxSize] at hfits
  have htotal : (request.header.length + request.body.length) % sizeRange =
      request.header.length + request.body.length := by
    rw [sizeRange]
    omega
  simp only [tryExtractRtsp, find_header_end h rest, hteardown, extractByLength, hend,
    List.take_left, content_length_header h, htotal, List.length_append, Nat.add_lt_add_iff_left,
    List.take_length_add_append, List.drop_length_add_append]

/-- What `assign` returns, when it returns. -/
theorem assign_ok {pos count : Nat} {out : Bytes} (h : assign buffer pos count = .ok out) :
    out = (buffer.drop pos).take count ∧ out.length = count ∧ pos + out.length ≤ buffer.length := by
  unfold assign at h
  split at h
  · cases h
  split at h
  · cases h
  · cases h
    have hlength : ((buffer.drop pos).take count).length = count := by
      rw [List.length_take, List.length_drop]
      omega
    exact ⟨rfl, hlength, by omega⟩

/-- With the text `TEARDOWN` in the buffer the request extracted reaches from there to the end of
the header block, and the buffer is emptied. -/
theorem extract_teardown_ok {headerEnd tpos : Nat} {result : Option (Bytes × Bytes)}
    (h : extractTeardown buffer headerEnd tpos = .ok result) :
    ∃ out, result = some (out, []) ∧ tpos + out.length ≤ buffer.length ∧
      out.length = (headerEnd + sizeRange - tpos + 4) % sizeRange := by
  rw [extractTeardown] at h
  cases hassign : assign buffer tpos ((headerEnd + sizeRange - tpos + 4) % sizeRange) with
  | error fault =>
      rw [hassign] at h
      cases h
  | ok out =>
      rw [hassign] at h
      cases h
      obtain ⟨-, hlength, hle⟩ := assign_ok hassign
      exact ⟨out, rfl, hle, hlength⟩

/-- A `TEARDOWN` request without a body and alone in the buffer is extracted whole. -/
theorem extract_teardown_alone (h : request.Delimits) (hbody : request.body = []) :
    extractTeardown request.bytes (request.header.length - 4) 0 =
      .ok (some (request.bytes, [])) := by
  have hge := header_length_ge h
  have hbytes : request.bytes.length = request.header.length := by
    rw [RtspRequest.bytes, hbody, List.append_nil]
  rw [extract_teardown_inside h.fits (by omega) (Nat.zero_le _), List.drop_zero,
    List.take_of_length_le (by omega)]

end Request

/-! ## What is accepted and what is not -/

/-- The buffer left and the calls made when the first item is treated as its framing demands. -/
def takeFirst (item : SentItem) (buffer : Bytes) : Bytes × List RtspCall :=
  if buffer.length < item.bytes.length then (buffer, [])
  else (buffer.drop item.bytes.length, [item.call])

variable {item : SentItem} {buffer later : Bytes}

/-- A nonempty prefix has the same first byte. -/
theorem head_of_leading {whole : Bytes} (h : buffer <+: whole) (hne : buffer ≠ []) :
    buffer.head? = whole.head? := by
  obtain ⟨rest, rfl⟩ := h
  cases buffer with
  | nil => exact absurd rfl hne
  | cons byte buffer => rfl

/-- A request does not look like a frame. -/
theorem head_request {rtsp : RtspRequest} (h : rtsp.WellFormed) (hne : buffer ≠ [])
    (hleading : buffer <+: rtsp.bytes ++ later) : buffer.head? ≠ some 0x24 := by
  have hbytes : rtsp.bytes ≠ [] := bytes_ne_nil (.request rtsp)
  rw [head_of_leading hleading hne, List.head?_append_of_ne_nil _ hbytes]
  exact h.not_dollar

theorem accepts_request {rtsp : RtspRequest} (h : rtsp.WellFormed) (hne : buffer ≠ [])
    (hleading : buffer <+: rtsp.bytes ++ later) (haccepts : Accepts (.request rtsp) buffer) :
    onMessage [] buffer = .ok (takeFirst (.request rtsp) buffer) := by
  have hframe := extract_frame_none (head_request h hne hleading)
  have hbytes : (SentItem.request rtsp).bytes.length = rtsp.header.length + rtsp.body.length := by
    rw [SentItem.bytes, RtspRequest.bytes, List.length_append]
  rcases find_header_cases h.delimits hleading with ⟨hshort, hnone⟩ | ⟨rest, rfl, hrest, hend⟩
  · have hincomplete : buffer.length < (SentItem.request rtsp).bytes.length := by omega
    have hrtsp : tryExtractRtsp buffer = .ok none := by
      simp only [tryExtractRtsp, hnone]
    rw [takeFirst, if_pos hincomplete]
    exact on_message_wait hne hrtsp hframe
  · rcases haccepts with hnone | hteardown | ⟨hwhole, hbody, hteardown⟩
    · rw [hend] at hnone
      cases hnone
    · have hrtsp := extract_request h.delimits hteardown
      by_cases hshort : rest.length < rtsp.body.length
      · rw [if_pos hshort] at hrtsp
        rw [takeFirst, if_pos (by rw [hbytes, List.length_append]; omega)]
        exact on_message_wait hne hrtsp hframe
      · have htake : rest.take rtsp.body.length = rtsp.body := by
          have hbody : rtsp.body <+: rest :=
            List.prefix_of_prefix_length_le (List.prefix_append _ _) hrest (by omega)
          exact (List.prefix_iff_eq_take.1 hbody).symm
        rw [if_neg hshort, htake] at hrtsp
        rw [takeFirst, if_neg (by rw [hbytes, List.length_append]; omega), hbytes,
          List.drop_length_add_append]
        exact on_message_request hne hrtsp
    · rw [hwhole] at hend hteardown hne ⊢
      have hrtsp : tryExtractRtsp rtsp.bytes = .ok (some (rtsp.bytes, [])) := by
        simp only [tryExtractRtsp, hend, hteardown]
        exact extract_teardown_alone h.delimits hbody
      have hcomplete : ¬ rtsp.bytes.length < (SentItem.request rtsp).bytes.length :=
        lt_irrefl _
      rw [takeFirst, if_neg hcomplete, SentItem.bytes, List.drop_length]
      exact on_message_request hne hrtsp

/-- In any other buffer that begins with a request, what is extracted is not that request with the
buffer after it. -/
theorem rejects_request {rtsp : RtspRequest} (h : rtsp.WellFormed) (hne : buffer ≠ [])
    (hleading : buffer <+: rtsp.bytes ++ later) (hrejects : ¬ Accepts (.request rtsp) buffer)
    {left : Bytes} {calls : List RtspCall} (hstep : onMessage [] buffer = .ok (left, calls)) :
    ∃ req, calls = [.handleRequest req] ∧ ¬ (req = rtsp.bytes ∧ buffer = rtsp.bytes ++ left) := by
  simp only [Accepts, not_or] at hrejects
  obtain ⟨hfound, hteardown, hother⟩ := hrejects
  rcases find_header_cases h.delimits hleading with ⟨-, hnone⟩ | ⟨rest, rfl, -, hend⟩
  · exact absurd hnone hfound
  obtain ⟨tpos, htpos⟩ := Option.ne_none_iff_exists'.1 hteardown
  have hrtsp : tryExtractRtsp (rtsp.header ++ rest) =
      extractTeardown (rtsp.header ++ rest) (rtsp.header.length - 4) tpos := by
    simp only [tryExtractRtsp, hend, htpos]
  cases hresult : extractTeardown (rtsp.header ++ rest) (rtsp.header.length - 4) tpos with
  | error fault =>
      rw [on_message_fault hne (hrtsp.trans hresult)] at hstep
      cases hstep
  | ok result =>
      obtain ⟨out, rfl, hle, hlength⟩ := extract_teardown_ok hresult
      rw [on_message_request hne (hrtsp.trans hresult)] at hstep
      cases hstep
      refine ⟨out, rfl, ?_⟩
      rintro ⟨rfl, hwhole⟩
      -- the whole buffer can only be extracted from its beginning
      rw [List.append_nil] at hwhole
      obtain rfl : tpos = 0 := by
        rw [hwhole] at hle
        omega
      have hbody : rtsp.body = [] := by
        have hge := header_length_ge h.delimits
        have hfits := h.fits
        rw [RtspRequest.bytes, List.length_append] at hlength hfits
        rw [maxSize] at hfits
        rw [sizeRange] at hlength
        exact List.eq_nil_of_length_eq_zero (by omega)
      exact hother ⟨hwhole, hbody, htpos⟩

theorem accepts_frame {channel : UInt8} {payload : Bytes} (hshort : payload.length ≤ 15000)
    (hne : buffer ≠ []) (hleading : buffer <+: sendRtpOverTcp payload channel ++ later)
    (haccepts : Accepts (.frame channel payload) buffer) :
    onMessage [] buffer = .ok (takeFirst (.frame channel payload) buffer) := by
  have hrtsp : tryExtractRtsp buffer = .ok none := by
    cases hend : find CRLFCRLF buffer with
    | none => simp only [tryExtractRtsp, hend]
    | some headerEnd =>
        obtain ⟨hteardown, hreach⟩ := haccepts headerEnd hend
        simp only [tryExtractRtsp, hend, hteardown, extractByLength, if_pos hreach]
  by_cases hincomplete : buffer.length < (sendRtpOverTcp payload channel).length
  · have hframe : buffer <+: sendRtpOverTcp payload channel :=
      List.prefix_of_prefix_length_le hleading (List.prefix_append _ _) hincomplete.le
    rw [takeFirst, SentItem.bytes, if_pos hincomplete]
    exact on_message_wait hne hrtsp (extract_frame_short hshort hframe hincomplete)
  · obtain ⟨rest, rfl⟩ : sendRtpOverTcp payload channel <+: buffer :=
      List.prefix_of_prefix_length_le (List.prefix_append _ _) hleading (by omega)
    rw [takeFirst, SentItem.bytes, if_neg hincomplete, List.drop_left]
    exact on_message_frame hne hrtsp (extract_frame hshort channel rest)

/-- In any other buffer that begins with a frame, a request is extracted. -/
theorem rejects_frame {channel : UInt8} {payload : Bytes} (hne : buffer ≠ [])
    (hrejects : ¬ Accepts (.frame channel payload) buffer) {left : Bytes} {calls : List RtspCall}
    (hstep : onMessage [] buffer = .ok (left, calls)) : ∃ req, calls = [.handleRequest req] := by
  simp only [Accepts, not_forall] at hrejects
  obtain ⟨headerEnd, hend, hrejects⟩ := hrejects
  cases hteardown : rfind TEARDOWN buffer with
  | some tpos =>
      have hrtsp : tryExtractRtsp buffer = extractTeardown buffer headerEnd tpos := by
        simp only [tryExtractRtsp, hend, hteardown]
      cases hresult : extractTeardown buffer headerEnd tpos with
      | error fault =>
          rw [on_message_fault hne (hrtsp.trans hresult)] at hstep
          cases hstep
      | ok result =>
          obtain ⟨out, rfl, -, -⟩ := extract_teardown_ok hresult
          rw [on_message_request hne (hrtsp.trans hresult)] at hstep
          cases hstep
          exact ⟨out, rfl⟩
  | none =>
      have hreach : ¬ buffer.length <
          (headerEnd + 4 + contentLength (buffer.take (headerEnd + 4))) % sizeRange :=
        fun hreach => hrejects ⟨hteardown, hreach⟩
      have hrtsp : tryExtractRtsp buffer = .ok (extractByLength buffer headerEnd) := by
        simp only [tryExtractRtsp, hend, hteardown]
      rw [extractByLength, if_neg hreach] at hrtsp
      rw [on_message_request hne hrtsp] at hstep
      cases hstep
      exact ⟨_, rfl⟩

/-- In an accepted buffer the first item is treated as its framing demands. -/
theorem on_message_accepts (h : item.WellFormed) (hne : buffer ≠ [])
    (hleading : buffer <+: item.bytes ++ later) (haccepts : Accepts item buffer) :
    onMessage [] buffer = .ok (takeFirst item buffer) := by
  cases item with
  | request rtsp => exact accepts_request h hne hleading haccepts
  | frame channel payload => exact accepts_frame h hne hleading haccepts

/-- In any other buffer a request is handed on that is not the first item with the buffer after
it. -/
theorem on_message_rejects (h : item.WellFormed) (hne : buffer ≠ [])
    (hleading : buffer <+: item.bytes ++ later) (hrejects : ¬ Accepts item buffer) {left : Bytes}
    {calls : List RtspCall} (hstep : onMessage [] buffer = .ok (left, calls)) :
    ∃ call, calls = [call] ∧ ¬ (call = item.call ∧ buffer = item.bytes ++ left) := by
  cases item with
  | request rtsp =>
      obtain ⟨req, hcalls, hwrong⟩ := rejects_request h hne hleading hrejects hstep
      refine ⟨_, hcalls, fun hright => hwrong ⟨?_, hright.2⟩⟩
      simpa [SentItem.call] using hright.1
  | frame channel payload =>
      obtain ⟨req, hcalls⟩ := rejects_frame hne hrejects hstep
      refine ⟨_, hcalls, fun hright => ?_⟩
      simp [SentItem.call] at hright

end CarDetect.Reactor
