import CarDetect.Lib.ByteString
import CarDetect.Lib.Machine

/-!
# The receiving side of a TCP connection

`onMessage` follows `MultiThreadEventLoop::onMessage` and `TcpConnection::recvOneItem`: one `recv`
is appended to the connection's buffer, and at most one item is taken out of it, an RTSP request
(`tryExtractRtsp`) or else an interleaved frame (`tryExtractInterleaved`). Lengths are computed in
`size_t`, and a `std::string::assign` outside the buffer is a fault.
-/

namespace CarDetect.Reactor

open BigEndian ByteString

/-- `"\r\n"` -/
def CRLF : Bytes := [13, 10]

/-- `"\r\n\r\n"` -/
def CRLFCRLF : Bytes := [13, 10, 13, 10]

/-- `"TEARDOWN"` -/
def TEARDOWN : Bytes := ascii "TEARDOWN"

/-- `"content-length:"` -/
def contentLengthKey : Bytes := ascii "content-length:"

/-- The number of values of `size_t`. -/
def sizeRange : Nat := 2 ^ 64

/-- `std::string::max_size()` -/
def maxSize : Nat := 2 ^ 63 - 1

/-- How `std::string::assign(data + pos, count)` goes wrong: it throws, or it reads past the end of
the buffer. -/
inductive AssignFault where
  | lengthError
  | outOfBounds
deriving DecidableEq, Repr

/-- `out.assign(buffer.data() + pos, count)` -/
def assign (buffer : Bytes) (pos count : Nat) : Except AssignFault Bytes :=
  if count > maxSize then .error .lengthError
  else if pos + count > buffer.length then .error .outOfBounds
  else .ok ((buffer.drop pos).take count)

/-- `iequals_prefix` -/
def iequalsPrefix (s key : Bytes) : Bool :=
  decide (key.length ≤ s.length) && (s.take key.length).map tolower == key.map tolower

/-- The number after `content-length:` in a line that begins with it; 0 when there is none or
`std::stoul` throws. -/
def contentLengthValue (ltrim : Bytes) : Nat :=
  let digits := ((ltrim.drop contentLengthKey.length).dropWhile isspace).takeWhile isdigit
  if digits = [] then 0
  else
    match stoul 64 digits with
    | .ok value => value
    | .error _ => 0

/-- The line loop of `tryExtractRtsp`, on the header from `pos` on: the `contentLength` it ends
with. -/
def contentLength (header : Bytes) : Nat :=
  if header = [] then 0
  else
    let eol := find CRLF header
    let line := header.take (eol.getD header.length)
    let ltrim := line.dropWhile isspace
    if iequalsPrefix ltrim contentLengthKey then contentLengthValue ltrim
    else
      match eol with
      | none => 0
      | some eol => contentLength (header.drop (eol + 2))
termination_by header.length
decreasing_by
  have hpos : 0 < header.length := List.length_pos_iff.2 ‹_›
  simp only [List.length_drop]
  omega

/-- The branch of `tryExtractRtsp` for a buffer with `TEARDOWN` at `tpos`: the text from there to
the end of the header block is the request, and the buffer is emptied. -/
def extractTeardown (recvBuffer : Bytes) (headerEnd tpos : Nat) :
    Except AssignFault (Option (Bytes × Bytes)) :=
  let total := (headerEnd + sizeRange - tpos + 4) % sizeRange
  (assign recvBuffer tpos total).map fun out => some (out, [])

/-- The other branch of `tryExtractRtsp`: the header block and as many bytes as it announces, once
they are there. -/
def extractByLength (recvBuffer : Bytes) (headerEnd : Nat) : Option (Bytes × Bytes) :=
  let header := recvBuffer.take (headerEnd + 4)
  let total := (headerEnd + 4 + contentLength header) % sizeRange
  if recvBuffer.length < total then none
  else some (recvBuffer.take total, recvBuffer.drop total)

/-- `tryExtractRtsp`: the request and the buffer left, or nothing. -/
def tryExtractRtsp (recvBuffer : Bytes) : Except AssignFault (Option (Bytes × Bytes)) :=
  match find CRLFCRLF recvBuffer with
  | none => .ok none
  | some headerEnd =>
      match rfind TEARDOWN recvBuffer with
      | some tpos => extractTeardown recvBuffer headerEnd tpos
      | none => .ok (extractByLength recvBuffer headerEnd)

/-- `tryExtractInterleaved`: the channel and the payload, which includes the four header bytes, and
the buffer left. A frame of more than 15000 bytes loses its first byte. -/
def tryExtractInterleaved (recvBuffer : Bytes) : Option (UInt8 × Bytes) × Bytes :=
  match recvBuffer with
  | dollar :: channel :: high :: low :: _ =>
      let len := ((high.toUInt16 <<< 8) ||| low.toUInt16).toNat
      if dollar ≠ 0x24 then (none, recvBuffer)
      else if len > 15000 then (none, recvBuffer.drop 1)
      else if recvBuffer.length < 4 + len then (none, recvBuffer)
      else (some (channel, recvBuffer.take (len + 4)), recvBuffer.drop (4 + len))
  | _ => (none, recvBuffer)

/-- `RecvItem` -/
inductive RecvItem where
  | none
  | rtspRequest (rtsp : Bytes)
  | interleavedFrame (channel : UInt8) (payload : Bytes)
deriving DecidableEq, Repr

/-- `recvOneItem` on the bytes `temp` that `recv` returns; it returns none at the end of the stream
and when there are no data. -/
def recvOneItem (recvBuffer temp : Bytes) : Except AssignFault (Bytes × RecvItem) :=
  if temp = [] then .ok (recvBuffer, .none)
  else
    let recvBuffer := recvBuffer ++ temp
    match tryExtractRtsp recvBuffer with
    | .error fault => .error fault
    | .ok (some (req, recvBuffer)) => .ok (recvBuffer, .rtspRequest req)
    | .ok none =>
        match tryExtractInterleaved recvBuffer with
        | (some (channel, payload), recvBuffer) =>
            .ok (recvBuffer, .interleavedFrame channel payload)
        | (none, recvBuffer) => .ok (recvBuffer, .none)

/-- The member functions of `RtspConnect` that `onMessage` calls. -/
inductive RtspCall where
  | handleRequest (request : Bytes)
  | onInterleavedFrame (channel : UInt8) (data : Bytes)
deriving DecidableEq, Repr

/-- `onMessage`, for one `recv` that returns `temp`: the buffer left and the call made. -/
def onMessage (recvBuffer temp : Bytes) : Except AssignFault (Bytes × List RtspCall) :=
  match recvOneItem recvBuffer temp with
  | .error fault => .error fault
  | .ok (recvBuffer, .none) => .ok (recvBuffer, [])
  | .ok (recvBuffer, .rtspRequest rtsp) => .ok (recvBuffer, [.handleRequest rtsp])
  | .ok (recvBuffer, .interleavedFrame channel payload) =>
      .ok (recvBuffer, [.onInterleavedFrame channel payload])

/-- Successive readable events of one connection, each with the bytes that its `recv` returns. -/
def receive (recvBuffer : Bytes) (chunks : List Bytes) :
    Except AssignFault (Bytes × List RtspCall) :=
  Machine.run onMessage recvBuffer chunks

end CarDetect.Reactor
