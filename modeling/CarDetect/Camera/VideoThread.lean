import CarDetect.Camera.AnnexB
import CarDetect.Camera.Encoder
import CarDetect.Camera.Rtp
import CarDetect.Lib.Machine

/-!
# The video thread

`turn` is a turn of the loop of `video_stream_thread` in `camera/rtsp_client.c`: a buffer comes
from the driver, its picture goes through `mjpeg_to_h264`, `split_annexb_nalus` and
`rtp_send_h264`, and the buffer goes back. What the driver and the two libraries answer is the
input of a turn.

`thread_packets` says what the packets of a run of the thread are, and `buffers_of_run` where the
driver's buffers are.
-/

namespace CarDetect.Camera

open BigEndian Machine

/-! ## The loop -/

/-- The number of frame buffers. -/
def FRAMEBUFFER_COUNT : Nat := 3

def DEFAULT_FPS : UInt32 := 60

/-- `infer_interval` -/
def INFER_INTERVAL : Nat := 10

/-- The views that a turn has room for. -/
def MAX_NALUS : Int := 32

/-- `timestamp_increment`: the ticks of a clock of 90 kHz in a frame. -/
def TIMESTAMP_INCREMENT : UInt32 := 90000 / DEFAULT_FPS

/-- The encoder and the size of its pictures. -/
structure VideoStream where
  encoder : H264Encoder
  width : Nat
  height : Nat
deriving DecidableEq, Repr

/-- The arguments that a turn calls `mjpeg_to_h264` with. -/
def VideoStream.args (stream : VideoStream) : EncodeArgs where
  encoder := some stream.encoder
  h264Data := true
  h264BufSize := stream.width * stream.height * 2
  h264Len := true

/-- What a turn is answered. `dqbuf` is the buffer that the driver hands out, if one has a picture,
and `qbuf` says whether it takes the buffer back. -/
structure Turn where
  dqbuf : Option Nat
  answers : Answers
  qbuf : Bool
deriving DecidableEq, Repr

/-- The thread, and the buffers that the driver has. -/
structure VideoThread where
  session : RtspSession
  codec : CodecState
  timestamp : UInt32
  frameCounter : Nat
  queue : List Nat
deriving DecidableEq, Repr

/-- After `v4l2_init_buffer` all buffers are queued. -/
def VideoThread.start (session : RtspSession) (codec : CodecState) : VideoThread where
  session := session
  codec := codec
  timestamp := 0
  frameCounter := 0
  queue := List.range FRAMEBUFFER_COUNT

/-- Every tenth frame starts the count again. -/
def countFrame (frameCounter : Nat) : Nat :=
  if frameCounter + 1 ≥ INFER_INTERVAL then 0 else frameCounter + 1

/-- What is done with the encoder's output: the units go out one by one with the same time stamp,
and then the time stamp advances. -/
def VideoThread.sendFrame (thread : VideoThread) :
    Option Bytes → Except OutOfBuffer (VideoThread × List Bytes)
  | none => .ok (thread, [])
  | some h264Data =>
      if h264Data.length > 0 then
        match splitAnnexbNalus h264Data MAX_NALUS with
        | .error fault => .error fault
        | .ok nalus =>
            let sent := sendNalus thread.session
              (nalus.map fun view => (thread.timestamp, view.bytes h264Data))
            .ok ({ thread with
              session := sent.1
              timestamp := thread.timestamp + TIMESTAMP_INCREMENT }, sent.2)
      else .ok (thread, [])

/-- `v4l2_qbuf`: nothing looks at what it returns. -/
def VideoThread.v4l2Qbuf (thread : VideoThread) (index : Nat) (succeeds : Bool) : VideoThread :=
  if succeeds then { thread with queue := thread.queue ++ [index] } else thread

/-- A turn of the loop, and the packets that it hands to the transport. -/
def turn (stream : VideoStream) : Step VideoThread Turn Bytes OutOfBuffer
  | thread, ⟨none, _, _⟩ => .ok (thread, [])
  | thread, ⟨some index, answers, qbuf⟩ =>
      let encoded := ((mjpegToH264 stream.args answers).run thread.codec).run
      let taken := { thread with
        codec := encoded.2
        frameCounter := countFrame thread.frameCounter
        queue := thread.queue.erase index }
      match taken.sendFrame encoded.1 with
      | .error fault => .error fault
      | .ok (following, packets) => .ok (following.v4l2Qbuf index qbuf, packets)

/-- A driver hands out a buffer that it has. -/
def VideoThread.Admits (thread : VideoThread) (input : Turn) : Prop :=
  ∀ index, input.dqbuf = some index → index ∈ thread.queue

/-! ## What the encoder leaves in the buffer -/

/-- What x264 is configured to produce: a start code and a unit without another one. -/
def IsNal (nal : Bytes) : Prop :=
  ∃ long nalu, nal = startCode long ++ nalu ∧ EmulationFree nalu

/-- A unit without its start code. -/
def unitOf (nal : Bytes) : Bytes :=
  if nal.take 4 = startCode true then nal.drop 4 else nal.drop 3

/-- The NALUs that find room, up to the first one that does not. -/
def fitting (room : Nat) : List Bytes → List Bytes
  | [] => []
  | nal :: nals => if nal.length > room then [] else nal :: fitting (room - nal.length) nals

theorem fitting_nals (room : Nat) (nals : List Bytes) : fitting room nals <+: nals := by
  induction nals generalizing room with
  | nil => exact List.prefix_rfl
  | cons nal nals ih =>
      rw [fitting]
      split
      · exact List.nil_prefix
      · exact (List.prefix_cons_inj nal).2 (ih _)

theorem copy_nals_eq {size : Nat} (nals : List Bytes) {copied : Bytes}
    (hfits : copied.length ≤ size) :
    copyNals size nals copied = copied ++ (fitting (size - copied.length) nals).flatten := by
  induction nals generalizing copied with
  | nil => exact (List.append_nil copied).symm
  | cons nal nals ih =>
      rw [copyNals, fitting]
      by_cases hroom : copied.length + nal.length > size
      · have hlong : nal.length > size - copied.length := by omega
        rw [if_pos hroom, if_pos hlong, List.flatten_nil, List.append_nil]
      · have hshort : ¬ nal.length > size - copied.length := by omega
        have hnext : (copied ++ nal).length ≤ size := by
          rw [List.length_append]
          omega
        rw [if_neg hroom, if_neg hshort, ih hnext, List.length_append, Nat.sub_add_eq,
          List.flatten_cons, List.append_assoc]

/-- The NALUs of a call of `mjpeg_to_h264` that are copied. -/
def copied (args : EncodeArgs) (answers : Answers) (state : CodecState) : List Bytes :=
  if Reaches args answers state then
    fitting args.h264BufSize (answers.x264EncoderEncode.getD [])
  else []

section Call

variable {args : EncodeArgs} {answers : Answers} {state : CodecState}

theorem encoded_ready (hready : Ready args answers state) :
    ((mjpegToH264 args answers).run state).run.1 =
      ((encodePictures args.h264BufSize answers).run { state with tjDecoder := true }).run.1 := by
  obtain ⟨encoder, hargs, hgood⟩ := valid_iff.1 hready.1
  simp [mjpegToH264, hargs, hgood, hready.2]

theorem encoded_not_ready (hready : ¬ Ready args answers state) :
    ((mjpegToH264 args answers).run state).run.1 = none := by
  unfold mjpegToH264
  cases hargs : args.encoder with
  | none => rfl
  | some encoder =>
      cases hbad : !encoder.initialized || !args.h264Data || !args.h264Len with
      | true => simp [hbad]
      | false =>
          have hdecoder : (state.tjDecoder || answers.tjInitDecompress) = false :=
            Bool.eq_false_iff.2 fun hsome => hready ⟨valid_iff.2 ⟨encoder, hargs, hbad⟩, hsome⟩
          simp [hbad, hdecoder]

/-- Whether a call returns 0 or not, what can be sent are the NALUs that it has copied. -/
theorem encoded_eq (args : EncodeArgs) (answers : Answers) (state : CodecState) :
    (((mjpegToH264 args answers).run state).run.1).getD [] =
      (copied args answers state).flatten := by
  unfold copied
  by_cases hready : Ready args answers state
  · rw [encoded_ready hready]
    by_cases hreaches : Reaches args answers state
    · have halloc := hreaches.allocIn
      have hdecode := hreaches.decoded
      rw [if_pos hreaches]
      cases hencode : answers.x264EncoderEncode with
      | none => simp [encodePictures, halloc, hdecode, hencode, fitting]
      | some nals =>
          have hcopied : copyNals args.h264BufSize nals [] =
              (fitting args.h264BufSize nals).flatten := copy_nals_eq nals (Nat.zero_le _)
          simp [encodePictures, halloc, hdecode, hencode, hcopied]
    · rw [if_neg hreaches]
      cases halloc : answers.allocIn with
      | false => simp [encodePictures, halloc]
      | true =>
          have hdecode : answers.tjDecompressToYUVPlanes = false :=
            Bool.eq_false_iff.2 fun hdecoded => hreaches ⟨⟨hready, halloc⟩, hdecoded⟩
          simp [encodePictures, halloc, hdecode]
  · have hreaches : ¬ Reaches args answers state := fun h => hready h.ready
    rw [encoded_not_ready hready, if_neg hreaches]
    rfl

end Call

/-! ## What a frame is split into -/

section Units

variable {nals : List Bytes}

theorem unitOf_startCode (long : Bool) {nalu : Bytes} (hfree : EmulationFree nalu) :
    unitOf (startCode long ++ nalu) = nalu := by
  unfold unitOf
  cases long with
  | true => rfl
  | false =>
      rw [if_neg]
      · rfl
      · intro hcode
        obtain ⟨byte, rest, rfl⟩ := List.exists_cons_of_ne_nil hfree.nonempty
        simp [startCode] at hcode

/-- NALUs are a concatenation as `split_annexb_nalus` expects it. -/
theorem exists_units (hnals : ∀ nal ∈ nals, IsNal nal) :
    ∃ units : List (Bool × Bytes), nals.flatten = annexBConcat units ∧
      (∀ unit ∈ units, EmulationFree unit.2) ∧ units.map Prod.snd = nals.map unitOf := by
  induction nals with
  | nil => exact ⟨[], rfl, nofun, rfl⟩
  | cons nal nals ih =>
      obtain ⟨⟨long, nalu, rfl, hfree⟩, hrest⟩ := List.forall_mem_cons.1 hnals
      obtain ⟨units, hconcat, hunits, hmap⟩ := ih hrest
      refine ⟨(long, nalu) :: units, ?_, List.forall_mem_cons.2 ⟨hfree, hunits⟩, ?_⟩
      · rw [List.flatten_cons, hconcat, annexBConcat]
      · rw [List.map_cons, List.map_cons, hmap, unitOf_startCode long hfree]

/-- The scanner finds the first 32 of them. -/
theorem split_nals (hnals : ∀ nal ∈ nals, IsNal nal) (hne : nals ≠ []) :
    ∃ views, splitAnnexbNalus nals.flatten MAX_NALUS = .ok views ∧
      views.map (NaluView.bytes nals.flatten) = (nals.map unitOf).take 32 := by
  obtain ⟨units, hconcat, hunits, hmap⟩ := exists_units hnals
  rw [hconcat, ← hmap]
  match units, hunits, hmap with
  | [], _, hmap =>
      exact absurd (List.map_eq_nil_iff.1 hmap.symm) hne
  | (long, nalu) :: rest, hunits, _ =>
      obtain ⟨hnalu, hrest⟩ := List.forall_mem_cons.1 hunits
      have hcode := scan_start_code [] long hnalu.nonempty (annexBConcat rest) MAX_NALUS (-1) []
      obtain ⟨start, scanned, hscan, hlt, hpush⟩ :=
        split_from (startCode long) hnalu hrest MAX_NALUS []
      have hbytes := bytes_viewsFrom [] ((long, nalu) :: rest)
      have hnothing : pushView MAX_NALUS (-1) 0 [] = [] := rfl
      refine ⟨(viewsFrom 0 ((long, nalu) :: rest)).take 32, ?_, ?_⟩
      · simp only [List.nil_append, List.length_nil, Nat.zero_add, List.append_assoc, hnothing]
          at hcode
        rw [annexBConcat, List.append_assoc, splitAnnexbNalus, hcode, hscan]
        simp only [Int.ofNat_lt, hlt, if_true, hpush]
        simp [viewsFrom, MAX_NALUS]
      · rw [List.map_take]
        exact congrArg (List.take 32) hbytes

/-- Every read of the scanner is inside the buffer, whatever the encoder has left there. -/
theorem start_code_total {buf : Bytes} {i : Nat} (hroom : i + 3 < buf.length) :
    ∃ sc, startCodeLen buf i = .ok sc ∧ sc ≤ 4 := by
  obtain ⟨a, b, c, d, rest, hrest⟩ : ∃ a b c d rest, buf.drop i = a :: b :: c :: d :: rest := by
    have hlength : 4 ≤ (buf.drop i).length := by
      rw [List.length_drop]
      omega
    match buf.drop i, hlength with
    | a :: b :: c :: d :: rest, _ => exact ⟨a, b, c, d, rest, rfl⟩
  have hbuf : buf = buf.take i ++ a :: b :: c :: d :: rest := by
    rw [← hrest, List.take_append_drop]
  have htake : (buf.take i).length = i := List.length_take_of_le (by omega)
  have hcode := start_code_len_eq (buf.take i) a b c d rest
  rw [htake, ← hbuf] at hcode
  refine ⟨_, hcode, ?_⟩
  split_ifs <;> omega

/-- Views of a buffer whose first `i` bytes have been scanned. -/
structure Within (i : Nat) (start : Int) (views : List NaluView) : Prop where
  start : start ≤ i
  views : ∀ view ∈ views, view.ptr + view.len ≤ i

theorem within_push {i : Nat} {start : Int} {views : List NaluView} (maxNalus : Int)
    (hwithin : Within i start views) :
    ∀ view ∈ pushView maxNalus start i views, view.ptr + view.len ≤ i := by
  unfold pushView
  split
  · next hroom =>
      have hstart := hwithin.start
      have hpos : 0 ≤ start := of_decide_eq_true (Bool.and_eq_true_iff.1 hroom).1
      intro view hview
      rcases List.mem_append.1 hview with hold | hnew
      · exact hwithin.views view hold
      · rw [List.mem_singleton.1 hnew]
        show start.toNat + ((i : Int) - start).toNat ≤ i
        omega
  · exact hwithin.views

theorem scan_within (buf : Bytes) (maxNalus : Int) (i : Nat) (start : Int) (views : List NaluView)
    (hwithin : Within i start views) (hbuf : i ≤ buf.length) :
    ∃ last scanned, scanNalus buf maxNalus i start views = .ok (last, scanned) ∧
      Within buf.length last scanned := by
  induction hleft : buf.length - i using Nat.strong_induction_on
    generalizing i start views with
  | h left ih =>
      rw [scanNalus]
      by_cases hroom : i + 3 < buf.length
      · obtain ⟨sc, hcode, hshort⟩ := start_code_total hroom
        rw [if_pos hroom, hcode]
        by_cases hsc : sc = 0
        · simp only [hsc, ne_eq, not_true_eq_false, if_false]
          have hwithin : Within (i + 1) start views :=
            ⟨Int.le_trans hwithin.start (by omega), fun view hview =>
              Nat.le_succ_of_le (hwithin.views view hview)⟩
          exact ih _ (by omega) (i + 1) start views hwithin (by omega) rfl
        · simp only [ne_eq, hsc, not_false_eq_true, if_true]
          have hpushed := within_push maxNalus hwithin
          have hwithin : Within (i + sc) (i + sc : Nat) (pushView maxNalus start i views) :=
            ⟨Int.le_refl _, fun view hview =>
              Nat.le_trans (hpushed view hview) (Nat.le_add_right i sc)⟩
          exact ih _ (by omega) (i + sc) (i + sc : Nat) _ hwithin (by omega) rfl
      · rw [if_neg hroom]
        refine ⟨start, views, rfl, Int.le_trans hwithin.start (Int.ofNat_le.2 hbuf), ?_⟩
        exact fun view hview => Nat.le_trans (hwithin.views view hview) hbuf

/-- The scanner ends on any buffer, and its views are inside. -/
theorem split_within (buf : Bytes) (maxNalus : Int) :
    ∃ views, splitAnnexbNalus buf maxNalus = .ok views ∧
      ∀ view ∈ views, view.ptr + view.len ≤ buf.length := by
  have hnothing : Within 0 (-1) [] := ⟨by decide, nofun⟩
  obtain ⟨last, scanned, hscan, hwithin⟩ :=
    scan_within buf maxNalus 0 (-1) [] hnothing (Nat.zero_le _)
  rw [splitAnnexbNalus, hscan]
  refine ⟨_, rfl, ?_⟩
  split
  · exact within_push maxNalus hwithin
  · exact hwithin.views

end Units

/-! ## Runs of the thread -/

section Runs

variable {stream : VideoStream} {thread following final : VideoThread} {input : Turn}
  {turns : List Turn} {out : List Bytes}

/-- The codec after a turn. -/
def codecAfter (stream : VideoStream) (codec : CodecState) (input : Turn) : CodecState :=
  if input.dqbuf.isSome then after stream.args input.answers codec else codec

/-- The units of what is sent in a turn: one frame, or none. -/
def framesOf (stream : VideoStream) (codec : CodecState) (input : Turn) : List (List Bytes) :=
  let units := ((copied stream.args input.answers codec).map unitOf).take 32
  if input.dqbuf.isSome ∧ units ≠ [] then [units] else []

/-- The units of each frame that is sent. -/
def sentFrames (stream : VideoStream) : CodecState → List Turn → List (List Bytes)
  | _, [] => []
  | codec, input :: turns =>
      framesOf stream codec input ++ sentFrames stream (codecAfter stream codec input) turns

/-- Each unit of each frame with the time stamp of its frame. -/
def stamped (timestamp : UInt32) : List (List Bytes) → List (UInt32 × Bytes)
  | [] => []
  | units :: frames =>
      units.map (fun nalu => (timestamp, nalu)) ++
        stamped (timestamp + TIMESTAMP_INCREMENT) frames

/-- The buffers that the driver has not taken back. -/
def lost (turns : List Turn) : List Nat :=
  turns.filterMap fun input => if input.qbuf then none else input.dqbuf

/-- The encoder of a turn answers with NALUs. -/
def Turn.Encodes (input : Turn) : Prop :=
  ∀ nals, input.answers.x264EncoderEncode = some nals → ∀ nal ∈ nals, IsNal nal

theorem send_nalus_append (session : RtspSession) (first second : List (UInt32 × Bytes)) :
    sendNalus session (first ++ second) =
      ((sendNalus (sendNalus session first).1 second).1,
        (sendNalus session first).2 ++ (sendNalus (sendNalus session first).1 second).2) := by
  induction first generalizing session with
  | nil => rfl
  | cons head rest ih =>
      obtain ⟨timestamp, nalu⟩ := head
      simp only [List.cons_append, sendNalus, ih, List.append_assoc]

theorem stamped_append (timestamp : UInt32) (first second : List (List Bytes)) :
    stamped timestamp (first ++ second) = stamped timestamp first ++
      stamped (timestamp + TIMESTAMP_INCREMENT * UInt32.ofNat first.length) second := by
  induction first generalizing timestamp with
  | nil => simp [stamped]
  | cons units rest ih =>
      have hnext : timestamp + TIMESTAMP_INCREMENT +
          TIMESTAMP_INCREMENT * UInt32.ofNat rest.length =
            timestamp + TIMESTAMP_INCREMENT * UInt32.ofNat (rest.length + 1) := by
        rw [UInt32.ofNat_add, UInt32.mul_add, UInt32.add_assoc, UInt32.add_comm TIMESTAMP_INCREMENT]
        rfl
      rw [List.cons_append, stamped, stamped, ih, hnext, List.append_assoc, List.length_cons]

/-- The session and the clock when frames have been sent. -/
def VideoThread.sent (thread : VideoThread) (frames : List (List Bytes)) : VideoThread :=
  { thread with
    session := (sendNalus thread.session (stamped thread.timestamp frames)).1
    timestamp := thread.timestamp + TIMESTAMP_INCREMENT * UInt32.ofNat frames.length }

/-- The packets of frames. -/
def VideoThread.packets (thread : VideoThread) (frames : List (List Bytes)) : List Bytes :=
  (sendNalus thread.session (stamped thread.timestamp frames)).2

theorem sent_nil (thread : VideoThread) : thread.sent [] = thread := by
  simp [VideoThread.sent, stamped, sendNalus]

/-- A frame whose NALUs are as x264 makes them. -/
theorem send_frame_eq {nals : List Bytes} {encoded : Option Bytes}
    (hencoded : encoded.getD [] = nals.flatten) (hnals : ∀ nal ∈ nals, IsNal nal) :
    let units := (nals.map unitOf).take 32
    let frames := if units ≠ [] then [units] else []
    thread.sendFrame encoded = .ok (thread.sent frames, thread.packets frames) := by
  by_cases hempty : nals = []
  · subst hempty
    have hnothing : thread.sendFrame encoded = .ok (thread, []) := by
      cases encoded with
      | none => rfl
      | some h264Data =>
          obtain rfl : h264Data = [] := hencoded
          rfl
    simpa [sent_nil, VideoThread.packets, stamped, sendNalus] using hnothing
  · obtain ⟨nal, rest, rfl⟩ := List.exists_cons_of_ne_nil hempty
    obtain ⟨views, hsplit, hviews⟩ := split_nals hnals hempty
    have hdata : (nal :: rest).flatten ≠ [] := by
      obtain ⟨long, nalu, rfl, -⟩ := hnals nal List.mem_cons_self
      cases long <;> simp [startCode]
    cases encoded with
    | none => exact absurd hencoded.symm hdata
    | some h264Data =>
        obtain rfl : h264Data = (nal :: rest).flatten := hencoded
        have hpos := List.length_pos_iff.2 hdata
        have hunits : ((nal :: rest).map unitOf).take 32 ≠ [] := by simp
        have hstamped : views.map (fun view => (thread.timestamp,
            view.bytes (nal :: rest).flatten)) =
              stamped thread.timestamp [((nal :: rest).map unitOf).take 32] := by
          rw [stamped, stamped, List.append_nil, ← hviews, List.map_map]
          rfl
        simp only [hunits, ne_eq, not_false_eq_true, if_true]
        simp only [VideoThread.sendFrame, if_pos hpos, hsplit, hstamped]
        simp [VideoThread.sent, VideoThread.packets]

/-- The encoder's output can be anything for a frame to be sent without a read outside of it. -/
theorem send_frame_total (thread : VideoThread) (encoded : Option Bytes) :
    ∃ following packets, thread.sendFrame encoded = .ok (following, packets) ∧
      following.queue = thread.queue ∧ following.frameCounter = thread.frameCounter := by
  cases encoded with
  | none => exact ⟨thread, [], rfl, rfl, rfl⟩
  | some h264Data =>
      rw [VideoThread.sendFrame]
      split
      · obtain ⟨views, hsplit, -⟩ := split_within h264Data MAX_NALUS
        rw [hsplit]
        exact ⟨_, _, rfl, rfl, rfl⟩
      · exact ⟨thread, [], rfl, rfl, rfl⟩

/-- A buffer that a turn takes from the driver goes back to it, or is lost. -/
theorem turn_keeps (stream : VideoStream) (hadmits : thread.Admits input) :
    ∃ following packets, turn stream thread input = .ok (following, packets) ∧
      (following.queue ++ lost [input]).Perm thread.queue ∧
      (thread.frameCounter < INFER_INTERVAL → following.frameCounter < INFER_INTERVAL) := by
  obtain ⟨dqbuf, answers, qbuf⟩ := input
  cases dqbuf with
  | none =>
      have hnone : lost [⟨none, answers, qbuf⟩] = [] := by cases qbuf <;> rfl
      refine ⟨thread, [], rfl, ?_, id⟩
      rw [hnone, List.append_nil]
  | some index =>
      have hmem : index ∈ thread.queue := hadmits index rfl
      have hback : (thread.queue.erase index ++ [index]).Perm thread.queue :=
        (List.perm_append_singleton index _).trans (List.perm_cons_erase hmem).symm
      have hcount : countFrame thread.frameCounter < INFER_INTERVAL := by
        have hpositive : 0 < INFER_INTERVAL := by decide
        unfold countFrame
        split <;> omega
      let encoded := ((mjpegToH264 stream.args answers).run thread.codec).run
      let taken := { thread with
        codec := encoded.2
        frameCounter := countFrame thread.frameCounter
        queue := thread.queue.erase index }
      obtain ⟨following, packets, hsend, hqueue, hcounter⟩ := send_frame_total taken encoded.1
      refine ⟨following.v4l2Qbuf index qbuf, packets, ?_, ?_, fun _ => ?_⟩
      · simp only [taken, encoded] at hsend
        simp only [turn, hsend]
      · cases qbuf with
        | false =>
            show (following.queue ++ [index]).Perm thread.queue
            rwa [hqueue]
        | true =>
            show ((following.queue ++ [index]) ++ []).Perm thread.queue
            rwa [hqueue, List.append_nil]
      · have hkept : (following.v4l2Qbuf index qbuf).frameCounter = following.frameCounter := by
          cases qbuf <;> rfl
        rw [hkept, hcounter]
        exact hcount

/-- A turn sends its frame, whatever becomes of the buffer. -/
theorem turn_sends (stream : VideoStream) (thread : VideoThread) (hencodes : input.Encodes) :
    ∃ following, turn stream thread input =
        .ok (following, thread.packets (framesOf stream thread.codec input)) ∧
      following.session = (thread.sent (framesOf stream thread.codec input)).session ∧
      following.timestamp = (thread.sent (framesOf stream thread.codec input)).timestamp ∧
      following.codec = codecAfter stream thread.codec input := by
  obtain ⟨dqbuf, answers, qbuf⟩ := input
  cases dqbuf with
  | none =>
      refine ⟨thread, rfl, ?_, ?_, rfl⟩
      · exact congrArg VideoThread.session (sent_nil thread).symm
      · exact congrArg VideoThread.timestamp (sent_nil thread).symm
  | some index =>
      have hnals : ∀ nal ∈ copied stream.args answers thread.codec, IsNal nal := by
        intro nal hnal
        unfold copied at hnal
        split at hnal
        · have hanswer := (fitting_nals _ _).subset hnal
          cases hencode : answers.x264EncoderEncode with
          | none => simp [hencode] at hanswer
          | some nals =>
              rw [hencode] at hanswer
              exact hencodes nals hencode nal hanswer
        · cases hnal
      let frames := framesOf stream thread.codec ⟨some index, answers, qbuf⟩
      have hframes : frames =
          if ((copied stream.args answers thread.codec).map unitOf).take 32 ≠ [] then
            [((copied stream.args answers thread.codec).map unitOf).take 32] else [] := by
        simp [frames, framesOf]
      have hsend (taken : VideoThread) :=
        @send_frame_eq taken _ _ (encoded_eq stream.args answers thread.codec) hnals
      simp only [← hframes] at hsend
      simp only [turn, hsend]
      refine ⟨_, rfl, ?_, ?_, ?_⟩ <;> cases qbuf <;> rfl

theorem sends_run (stream : VideoStream) (thread : VideoThread)
    (hencodes : ∀ input ∈ turns, input.Encodes) :
    ∃ final, Machine.run (turn stream) thread turns = .ok (final,
        (sendNalus thread.session
          (stamped thread.timestamp (sentFrames stream thread.codec turns))).2) := by
  induction turns generalizing thread with
  | nil => exact ⟨thread, rfl⟩
  | cons input turns ih =>
      obtain ⟨hfirst, hrest⟩ := List.forall_mem_cons.1 hencodes
      obtain ⟨following, hturn, hsession, htimestamp, hcodec⟩ :=
        turn_sends stream thread hfirst
      obtain ⟨final, hrun⟩ := ih following hrest
      refine ⟨final, ?_⟩
      rw [sentFrames, stamped_append, send_nalus_append]
      rw [hsession, htimestamp, hcodec] at hrun
      exact run_cons_ok hturn hrun

theorem keeps_run (stream : VideoStream) (hcounter : thread.frameCounter < INFER_INTERVAL)
    (hadmits : Guarded (turn stream) VideoThread.Admits thread turns) :
    ∃ final out, Machine.run (turn stream) thread turns = .ok (final, out) ∧
      (final.queue ++ lost turns).Perm thread.queue ∧ final.frameCounter < INFER_INTERVAL := by
  induction turns generalizing thread with
  | nil =>
      refine ⟨thread, [], rfl, ?_, hcounter⟩
      show (thread.queue ++ []).Perm thread.queue
      rw [List.append_nil]
  | cons input turns ih =>
      obtain ⟨hinput, hrest⟩ := hadmits
      obtain ⟨following, packets, hturn, hqueue, hbelow⟩ := turn_keeps stream hinput
      obtain ⟨final, out, hrun, hfinal, hlast⟩ := ih (hbelow hcounter) (hrest _ _ hturn)
      refine ⟨final, packets ++ out, run_cons_ok hturn hrun, ?_, hlast⟩
      have hlost : lost (input :: turns) = lost [input] ++ lost turns :=
        @List.filterMap_append _ _ [input] turns _
      have hswap : (final.queue ++ (lost [input] ++ lost turns)).Perm
          ((final.queue ++ lost turns) ++ lost [input]) := by
        rw [List.append_assoc]
        exact List.perm_append_comm.append_left _
      rw [hlost]
      exact hswap.trans ((hfinal.append_right _).trans hqueue)

/-- The packets of the thread are those of its frames, the frames one after another, the units of a
frame with the same time stamp, and the time stamp counted on by 1500 for each frame that is sent. -/
theorem thread_packets (stream : VideoStream) (session : RtspSession) (codec : CodecState)
    (hencodes : ∀ input ∈ turns, input.Encodes) :
    ∃ final, Machine.run (turn stream) (VideoThread.start session codec) turns =
      .ok (final, (sendNalus session (stamped 0 (sentFrames stream codec turns))).2) :=
  sends_run stream (VideoThread.start session codec) hencodes

/-- A camera with small pictures. -/
def smallStream : VideoStream := ⟨⟨true⟩, 4, 4⟩

/-- An answer of the libraries when everything goes well. -/
def encodedAs (nals : List Bytes) : Answers := ⟨true, true, true, true, some nals⟩

/-- Three pictures, the second of which cannot be decoded, and once no buffer has a picture. -/
def threePictures : List Turn :=
  [⟨some 0, encodedAs [[0, 0, 0, 1, 0x67, 0x42], [0, 0, 1, 0x65, 0x88]], true⟩,
    ⟨none, encodedAs [], true⟩,
    ⟨some 1, ⟨true, true, true, false, none⟩, true⟩,
    ⟨some 2, encodedAs [[0, 0, 0, 1, 0x41, 0x9A]], true⟩]

theorem encodes_pictures : ∀ input ∈ threePictures, input.Encodes := by
  have hunit (long : Bool) (first second : UInt8) (hfree : EmulationFree [first, second]) :
      IsNal (startCode long ++ [first, second]) := ⟨long, [first, second], rfl, hfree⟩
  have hparameters : EmulationFree [0x67, 0x42] := by refine ⟨?_, ?_, ?_, ?_⟩ <;> decide
  have hkey : EmulationFree [0x65, 0x88] := by refine ⟨?_, ?_, ?_, ?_⟩ <;> decide
  have hslice : EmulationFree [0x41, 0x9A] := by refine ⟨?_, ?_, ?_, ?_⟩ <;> decide
  simp only [threePictures, List.forall_mem_cons, Turn.Encodes, encodedAs, Option.some.injEq,
    forall_eq', reduceCtorEq, false_implies, implies_true, List.not_mem_nil, and_true]
  exact ⟨⟨hunit true _ _ hparameters, hunit false _ _ hkey⟩, trivial, trivial,
    hunit true _ _ hslice⟩

theorem thread_packets_pictures :
    ∃ final, Machine.run (turn smallStream) (VideoThread.start ⟨1, 0, "udp", 0⟩ .initial)
        threePictures =
      .ok (final, (sendNalus ⟨1, 0, "udp", 0⟩
        [(0, [0x67, 0x42]), (0, [0x65, 0x88]), (1500, [0x41, 0x9A])]).2) :=
  thread_packets smallStream ⟨1, 0, "udp", 0⟩ .initial encodes_pictures

/-- Whatever the libraries answer, the thread reads nothing outside of the encoder's output, and the
driver has each of its buffers once, but for those that it has not taken back. -/
theorem buffers_of_run (stream : VideoStream) (session : RtspSession) (codec : CodecState)
    (hadmits : Guarded (turn stream) VideoThread.Admits (VideoThread.start session codec) turns) :
    ∃ final out, Machine.run (turn stream) (VideoThread.start session codec) turns =
        .ok (final, out) ∧
      (final.queue ++ lost turns).Perm (List.range FRAMEBUFFER_COUNT) ∧
      final.frameCounter < INFER_INTERVAL :=
  keeps_run stream (show 0 < 10 by decide) hadmits

/-- The answers of a driver whose `v4l2_qbuf` always succeeds. -/
def Turn.Returned (input : Turn) : Prop :=
  input.qbuf = true ∧ ∀ index ∈ input.dqbuf, index < FRAMEBUFFER_COUNT

/-- Such a driver always has all buffers. -/
theorem admits_returned {session : RtspSession} {codec : CodecState}
    (hreturned : ∀ input ∈ turns, input.Returned) :
    Guarded (turn stream) VideoThread.Admits (VideoThread.start session codec) turns := by
  have hmem (thread : VideoThread) (input : Turn)
      (hqueue : thread.queue.Perm (List.range FRAMEBUFFER_COUNT)) (hinput : input.Returned) :
      thread.Admits input := fun index hindex =>
    hqueue.mem_iff.2 (List.mem_range.2 (hinput.2 index hindex))
  refine guarded_of_invariant (fun thread => thread.queue.Perm (List.range FRAMEBUFFER_COUNT))
    (fun thread input following out hqueue hinput hturn => ?_) hmem (List.Perm.refl _)
    (guarded_of_forall (fun _ input => hreturned input))
  obtain ⟨after, packets, hafter, hkept, -⟩ := turn_keeps stream (hmem thread input hqueue hinput)
  rw [hturn] at hafter
  cases hafter
  have hlost : lost [input] = [] := by simp [lost, hinput.1]
  rw [hlost, List.append_nil] at hkept
  exact hkept.trans hqueue

theorem buffers_of_run_pictures :
    ∃ final out, Machine.run (turn smallStream) (VideoThread.start ⟨1, 0, "udp", 0⟩ .initial)
        threePictures = .ok (final, out) ∧
      (final.queue ++ []).Perm [0, 1, 2] ∧ final.frameCounter < 10 := by
  have hreturned : ∀ input ∈ threePictures, input.Returned := by
    simp [threePictures, Turn.Returned, FRAMEBUFFER_COUNT]
  exact buffers_of_run smallStream ⟨1, 0, "udp", 0⟩ .initial (admits_returned hreturned)

end Runs

end CarDetect.Camera
