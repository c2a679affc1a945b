import CarDetect.Camera.Chroma
import CarDetect.Lib.Machine

/-!
# The decoder of a stream

`decode` follows `H264Decoder::decode` of `car_detect_qt/h264decoder.cpp`, and `onPacket` is that of
`decoderworker.cpp`. What libavcodec answers is an argument. A frame comes as three planes with
strides, and `toYuvFrame` copies them into one buffer without padding. The state counts the buffers
and the frames that have to be released.

`decode_eq` says what a call hands on, and that it keeps nothing of what it has allocated.
-/

namespace CarDetect.Qt

open BigEndian CountedLoop StridedPlane
open Camera (Plane Yuv PlaneFault rowOffset memcpy row_offset_ok)

/-! ## Frames -/

/-- `AVFrame`: its size and its planes, with `data` and `linesize`. -/
structure AVFrame where
  width : Nat
  height : Nat
  planes : Yuv
deriving DecidableEq, Repr

/-- `YUVFrame`. `data` is a shared pointer, and null in a frame that nobody has filled. -/
structure YUVFrame where
  data : Option Bytes
  width : Nat
  height : Nat
  yLinesize : Nat
  uLinesize : Nat
  vLinesize : Nat
  ySize : Nat
  uSize : Nat
  vSize : Nat
deriving DecidableEq, Repr

/-- A frame with the defaults of the header. -/
def YUVFrame.empty : YUVFrame := ⟨none, 0, 0, 0, 0, 0, 0, 0, 0⟩

/-- The sum of two sizes, as an `int`. -/
def addSizes (a b : Nat) : Except PlaneFault Nat :=
  if a + b < 2 ^ 31 then .ok (a + b) else .error .overflow

/-- `memcpy(dst + i * w, src + i * stride, w)` -/
def copyPlaneRow (src : Plane) (base width i : Nat) (dst : Bytes) : Except PlaneFault Bytes := do
  let dstOffset ← rowOffset i width
  let srcOffset ← rowOffset i src.stride
  memcpy dst (base + dstOffset) src.data srcOffset width

/-- The rows of a plane, one by one. -/
def copyPlane (src : Plane) (base width rows : Nat) (dst : Bytes) : Except PlaneFault Bytes :=
  forUpTo (copyPlaneRow src base width) rows dst

/-- The body of the loop of `decode`, from the sizes of the planes to the new frame. -/
def toYuvFrame (frame : AVFrame) : Except PlaneFault YUVFrame := do
  let w := frame.width
  let h := frame.height
  let uvW := w / 2
  let uvH := h / 2
  let ySize ← rowOffset w h
  let uSize ← rowOffset uvW uvH
  let vSize ← rowOffset uvW uvH
  let luma ← addSizes ySize uSize
  let total ← addSizes luma vSize
  -- `resize` leaves the bytes as they are, and each of them is written
  let dst ← copyPlane frame.planes.y 0 w h (List.replicate total 0)
  let dst ← copyPlane frame.planes.u ySize uvW uvH dst
  let dst ← copyPlane frame.planes.v (ySize + uSize) uvW uvH dst
  pure ⟨some dst, w, h, w, uvW, uvW, ySize, uSize, vSize⟩

/-! ## The decoder -/

/-- `AVERROR(EAGAIN)` -/
def EAGAIN : Int := -11

/-- `AVERROR_EOF` -/
def AVERROR_EOF : Int := -541478725

/-- What libavcodec answers in a call of `decode`. `avcodec_receive_frame` returns the frames one
after another, and then `last`, which is negative. -/
structure Answers where
  avMalloc : Bool
  packetFromData : Int
  sendPacket : Int
  frames : List AVFrame
  last : Int
deriving DecidableEq, Repr

/-- `H264Decoder`. `packet` and `frame` say whether `_packet` and `_frame` have anything to release,
`buffers` counts what `av_malloc` has returned and nobody has freed, and `received` the frames that
libavcodec has lent and nobody has given back. -/
structure H264Decoder where
  ok : Bool
  packet : Bool
  frame : Bool
  buffers : Nat
  received : Nat
deriving DecidableEq, Repr

/-- After `initCodec`. -/
def H264Decoder.start (ok : Bool) : H264Decoder := ⟨ok, false, false, 0, 0⟩

namespace H264Decoder

/-- `av_packet_unref(_packet)` -/
def avPacketUnref (decoder : H264Decoder) : H264Decoder :=
  { decoder with packet := false, buffers := decoder.buffers - decoder.packet.toNat }

/-- `av_frame_unref(_frame)` -/
def avFrameUnref (decoder : H264Decoder) : H264Decoder :=
  { decoder with frame := false, received := decoder.received - decoder.frame.toNat }

/-- `avcodec_receive_frame`, when it has a frame. It releases the one before. -/
def avcodecReceiveFrame (decoder : H264Decoder) : H264Decoder :=
  { decoder.avFrameUnref with frame := true, received := decoder.avFrameUnref.received + 1 }

/-- The loop of `decode`: what it returns, and what it hands to `onFrame`. -/
def receiveFrames (last : Int) : H264Decoder → List AVFrame →
    Except PlaneFault (H264Decoder × Bool × List YUVFrame)
  | decoder, [] =>
      if last = EAGAIN ∨ last = AVERROR_EOF then .ok (decoder.avPacketUnref, true, [])
      else .ok (decoder.avFrameUnref.avPacketUnref, false, [])
  | decoder, frame :: frames =>
      match toYuvFrame frame with
      | .error fault => .error fault
      | .ok yuvFrame =>
          match receiveFrames last decoder.avcodecReceiveFrame.avFrameUnref frames with
          | .error fault => .error fault
          | .ok (final, ret, later) => .ok (final, ret, yuvFrame :: later)

/-- `H264Decoder::decode` -/
def decode (decoder : H264Decoder) (data : Bytes) (answers : Answers) :
    Except PlaneFault (H264Decoder × Bool × List YUVFrame) :=
  if decoder.ok = false ∨ data = [] then .ok (decoder, false, [])
  else
    let decoder := decoder.avPacketUnref
    if answers.avMalloc = false then .ok (decoder, false, [])
    else
      let decoder := { decoder with buffers := decoder.buffers + 1 }
      if answers.packetFromData < 0 then
        -- `av_free(buf)`
        .ok ({ decoder with buffers := decoder.buffers - 1 }, false, [])
      else
        let decoder := { decoder with packet := true }
        if answers.sendPacket < 0 then .ok (decoder.avPacketUnref, false, [])
        else receiveFrames answers.last decoder answers.frames

end H264Decoder

/-- `DecoderWorker`, with what its own call of `initCodec` returned. -/
structure DecoderWorker where
  decoder : H264Decoder
  ok : Bool
deriving DecidableEq, Repr

/-- `DecoderWorker::onPacket`: the frames that it emits. -/
def DecoderWorker.onPacket (worker : DecoderWorker) (ba : Bytes) (answers : Answers) :
    Except PlaneFault (DecoderWorker × List YUVFrame) :=
  if worker.ok = false ∨ ba = [] then .ok (worker, [])
  else
    match worker.decoder.decode ba answers with
    | .error fault => .error fault
    | .ok (decoder, _, frames) =>
        .ok ({ worker with decoder := decoder }, frames.filter fun frame => frame.data.isSome)

/-! ## The planes of a frame -/

/-- A plane with rows of this many samples, of which an `int` holds the offsets. -/
structure Sampled (plane : Plane) (width rows : Nat) : Prop where
  inside : ∀ y < rows, y * plane.stride + width ≤ plane.data.length
  offsets : ∀ y < rows, y * plane.stride < 2 ^ 31

/-- A frame in the format YUV420P. -/
structure AVFrame.Shaped (frame : AVFrame) : Prop where
  y : Sampled frame.planes.y frame.width frame.height
  u : Sampled frame.planes.u (frame.width / 2) (frame.height / 2)
  v : Sampled frame.planes.v (frame.width / 2) (frame.height / 2)
  size : frame.width * frame.height + 2 * (frame.width / 2 * (frame.height / 2)) < 2 ^ 31

/-- The rows of a plane, one behind the other. -/
def planeOf (plane : Plane) (width rows : Nat) : Bytes :=
  packed plane.stride width rows plane.data

/-- The frame that is made of a frame of libavcodec. -/
def AVFrame.yuvFrame (frame : AVFrame) : YUVFrame :=
  let w := frame.width
  let h := frame.height
  ⟨some (planeOf frame.planes.y w h ++ planeOf frame.planes.u (w / 2) (h / 2) ++
      planeOf frame.planes.v (w / 2) (h / 2)),
    w, h, w, w / 2, w / 2, w * h, w / 2 * (h / 2), w / 2 * (h / 2)⟩

theorem length_planeOf {plane : Plane} {width rows : Nat} (hplane : Sampled plane width rows) :
    (planeOf plane width rows).length = width * rows := by
  rw [planeOf, length_packed hplane.inside, Nat.mul_comm]

/-- The rows of a plane land behind each other. -/
theorem copy_plane_eq {src : Plane} {base width rows : Nat} {dst : Bytes}
    (hsrc : Sampled src width rows) (hdst : base + width * rows ≤ dst.length)
    (hfits : width * rows < 2 ^ 31) :
    copyPlane src base width rows dst = .ok (overwrite base (planeOf src width rows) dst) := by
  have hloop : ∃ final, forUpTo (copyPlaneRow src base width) rows dst = .ok final ∧
      final = overwrite base (packed src.stride width rows src.data) dst := by
    refine for_up_to_invariant (fun y copied =>
      copied = overwrite base (packed src.stride width y src.data) dst) ?_
      (overwrite_nil base dst).symm
    intro y hy copied hcopied
    have hrow := hsrc.inside y hy
    have hbefore : (packed src.stride width y src.data).length = y * width :=
      length_packed fun i hi => hsrc.inside i (Nat.lt_trans hi hy)
    have hposition : y * width + width ≤ width * rows := by
      rw [Nat.mul_comm width, ← Nat.succ_mul]
      exact Nat.mul_le_mul_right width hy
    have hlength : copied.length = dst.length := by
      rw [hcopied, length_overwrite (by omega)]
    refine ⟨_, ?_, rfl⟩
    have hdstOffset : rowOffset y width = .ok (y * width) := by
      refine row_offset_ok ?_
      omega
    simp only [copyPlaneRow, hdstOffset, row_offset_ok (hsrc.offsets y hy), bind, Except.bind]
    rw [memcpy, if_pos ⟨hrow, by omega⟩, hcopied, ← hbefore, overwrite_append (by omega),
      packed_succ]
  obtain ⟨final, hrun, rfl⟩ := hloop
  exact hrun

/-- Three planes fill a buffer of their size. -/
theorem overwrite_planes {first second third dst : Bytes}
    (h : dst.length = first.length + second.length + third.length) :
    overwrite (first.length + second.length) third
        (overwrite first.length second (overwrite 0 first dst)) = first ++ second ++ third := by
  have hfirst : overwrite first.length second (overwrite 0 first dst) =
      overwrite 0 (first ++ second) dst := by
    have happend := @overwrite_append _ 0 first second dst (by omega)
    rwa [Nat.zero_add] at happend
  have hsecond := @overwrite_append _ 0 (first ++ second) third dst (by
    rw [List.length_append]
    omega)
  rw [Nat.zero_add, List.length_append] at hsecond
  rw [hfirst, hsecond, overwrite, List.take_zero, List.nil_append, List.drop_of_length_le,
    List.append_nil]
  simp only [List.length_append]
  omega

/-- The planes of a frame in the format YUV420P are copied without a read or a write outside, and
without an overflow. -/
theorem to_yuv_frame_eq {frame : AVFrame} (hshaped : frame.Shaped) :
    toYuvFrame frame = .ok frame.yuvFrame := by
  obtain ⟨w, h, planes⟩ := frame
  obtain ⟨hy, hu, hv, hsize⟩ := hshaped
  simp only at hy hu hv hsize
  have hySize : rowOffset w h = .ok (w * h) := row_offset_ok (by omega)
  have huSize : rowOffset (w / 2) (h / 2) = .ok (w / 2 * (h / 2)) := row_offset_ok (by omega)
  have hluma : addSizes (w * h) (w / 2 * (h / 2)) = .ok (w * h + w / 2 * (h / 2)) :=
    if_pos (by omega)
  have htotal : addSizes (w * h + w / 2 * (h / 2)) (w / 2 * (h / 2)) =
      .ok (w * h + w / 2 * (h / 2) + w / 2 * (h / 2)) := if_pos (by omega)
  have hlengthY := length_planeOf hy
  have hlengthU := length_planeOf hu
  have hlengthV := length_planeOf hv
  let buffer : Bytes := List.replicate (w * h + w / 2 * (h / 2) + w / 2 * (h / 2)) 0
  have hbuffer : buffer.length = w * h + w / 2 * (h / 2) + w / 2 * (h / 2) :=
    List.length_replicate
  have hfirst := @copy_plane_eq planes.y 0 w h buffer hy (by omega) (by omega)
  have hfirstLength : (overwrite 0 (planeOf planes.y w h) buffer).length = buffer.length :=
    length_overwrite (by omega)
  have hsecond := @copy_plane_eq planes.u (w * h) (w / 2) (h / 2)
    (overwrite 0 (planeOf planes.y w h) buffer) hu (by omega) (by omega)
  have hsecondLength : (overwrite (w * h) (planeOf planes.u (w / 2) (h / 2))
      (overwrite 0 (planeOf planes.y w h) buffer)).length = buffer.length := by
    rw [length_overwrite (by omega), hfirstLength]
  have hthird := @copy_plane_eq planes.v (w * h + w / 2 * (h / 2)) (w / 2) (h / 2)
    (overwrite (w * h) (planeOf planes.u (w / 2) (h / 2))
      (overwrite 0 (planeOf planes.y w h) buffer)) hv (by omega) (by omega)
  have hplanes := @overwrite_planes (planeOf planes.y w h) (planeOf planes.u (w / 2) (h / 2))
    (planeOf planes.v (w / 2) (h / 2)) buffer (by omega)
  rw [hlengthY, hlengthU] at hplanes
  simp only [toYuvFrame, hySize, huSize, hluma, htotal, bind, Except.bind]
  simp only [buffer] at hfirst hsecond hthird hplanes
  simp only [hfirst, hsecond, hthird, hplanes]
  rfl

/-! ## Calls -/

section Calls

variable {decoder : H264Decoder} {worker : DecoderWorker} {data : Bytes} {answers : Answers}

/-- Between two calls nothing is held. -/
structure H264Decoder.Idle (decoder : H264Decoder) : Prop where
  packet : decoder.packet = false
  frame : decoder.frame = false
  buffers : decoder.buffers = 0
  received : decoder.received = 0

/-- A call that gets as far as to ask for frames. -/
structure Decodes (decoder : H264Decoder) (data : Bytes) (answers : Answers) : Prop where
  ok : decoder.ok = true
  data : data ≠ []
  malloc : answers.avMalloc = true
  packetFromData : ¬ answers.packetFromData < 0
  sendPacket : ¬ answers.sendPacket < 0

instance (decoder : H264Decoder) (data : Bytes) (answers : Answers) :
    Decidable (Decodes decoder data answers) :=
  decidable_of_iff (decoder.ok = true ∧ data ≠ [] ∧ answers.avMalloc = true ∧
      ¬ answers.packetFromData < 0 ∧ ¬ answers.sendPacket < 0)
    ⟨fun h => ⟨h.1, h.2.1, h.2.2.1, h.2.2.2.1, h.2.2.2.2⟩,
      fun h => ⟨h.ok, h.data, h.malloc, h.packetFromData, h.sendPacket⟩⟩

/-- The loop gives every frame back before it asks for the next, and the packet at its end. -/
theorem receive_frames_eq {last : Int} {frames : List AVFrame}
    (hshaped : ∀ frame ∈ frames, frame.Shaped) (hframe : decoder.frame = false) :
    decoder.receiveFrames last frames =
      .ok (decoder.avPacketUnref, decide (last = EAGAIN ∨ last = AVERROR_EOF),
        frames.map AVFrame.yuvFrame) := by
  obtain ⟨ok, packet, frame, buffers, received⟩ := decoder
  obtain rfl : frame = false := hframe
  induction frames with
  | nil =>
      rw [H264Decoder.receiveFrames]
      by_cases hlast : last = EAGAIN ∨ last = AVERROR_EOF
      · rw [if_pos hlast, decide_eq_true hlast]
        rfl
      · rw [if_neg hlast, decide_eq_false hlast]
        rfl
  | cons frame frames ih =>
      obtain ⟨hfirst, hrest⟩ := List.forall_mem_cons.1 hshaped
      have hback (decoder : H264Decoder) (hframe : decoder.frame = false) :
          decoder.avcodecReceiveFrame.avFrameUnref = decoder := by
        obtain ⟨ok, packet, frame, buffers, received⟩ := decoder
        obtain rfl : frame = false := hframe
        rfl
      rw [H264Decoder.receiveFrames, to_yuv_frame_eq hfirst, hback _ rfl]
      simp only [ih hrest, List.map_cons]

/-- A call hands on every frame that libavcodec has for it, and keeps neither the packet nor a
frame, whichever way it returns. -/
theorem decode_eq (hidle : decoder.Idle) (hshaped : ∀ frame ∈ answers.frames, frame.Shaped) :
    ∃ ret, decoder.decode data answers = .ok (decoder, ret,
      if Decodes decoder data answers then answers.frames.map AVFrame.yuvFrame else []) := by
  obtain ⟨ok, packet, frame, buffers, received⟩ := decoder
  obtain ⟨rfl, rfl, rfl, rfl⟩ := hidle
  unfold H264Decoder.decode
  by_cases hready : ok = false ∨ data = []
  · have hnot : ¬ Decodes ⟨ok, false, false, 0, 0⟩ data answers := fun h =>
      hready.elim (fun hbad => Bool.false_ne_true (hbad.symm.trans h.ok)) h.data
    rw [if_pos hready, if_neg hnot]
    exact ⟨false, rfl⟩
  · obtain ⟨hok, hdata⟩ := not_or.1 hready
    obtain rfl : ok = true := Bool.eq_true_of_not_eq_false hok
    rw [if_neg hready]
    by_cases hmalloc : answers.avMalloc = false
    · have hnot : ¬ Decodes ⟨true, false, false, 0, 0⟩ data answers := fun h =>
        Bool.false_ne_true (hmalloc.symm.trans h.malloc)
      simp only [if_pos hmalloc, if_neg hnot]
      exact ⟨false, rfl⟩
    · by_cases hpacket : answers.packetFromData < 0
      · simp only [if_neg hmalloc, if_pos hpacket,
          if_neg fun h : Decodes ⟨true, false, false, 0, 0⟩ data answers => h.packetFromData hpacket]
        exact ⟨false, rfl⟩
      · by_cases hsend : answers.sendPacket < 0
        · simp only [if_neg hmalloc, if_neg hpacket, if_pos hsend,
            if_neg fun h : Decodes ⟨true, false, false, 0, 0⟩ data answers => h.sendPacket hsend]
          exact ⟨false, rfl⟩
        · have hdecodes : Decodes ⟨true, false, false, 0, 0⟩ data answers :=
            ⟨rfl, hdata, Bool.eq_true_of_not_eq_false hmalloc, hpacket, hsend⟩
          simp only [if_neg hmalloc, if_neg hpacket, if_neg hsend, if_pos hdecodes]
          have hloop := @receive_frames_eq ⟨true, true, false, 1, 0⟩ answers.last answers.frames
            hshaped rfl
          exact ⟨_, hloop⟩

/-- What a worker emits for a packet. -/
def DecoderWorker.emits (worker : DecoderWorker) (ba : Bytes) (answers : Answers) : List AVFrame :=
  if worker.ok = true ∧ Decodes worker.decoder ba answers then answers.frames else []

theorem on_packet_eq (hidle : worker.decoder.Idle)
    (hshaped : ∀ frame ∈ answers.frames, frame.Shaped) :
    worker.onPacket data answers =
      .ok (worker, (worker.emits data answers).map AVFrame.yuvFrame) := by
  obtain ⟨ret, hdecode⟩ := @decode_eq worker.decoder data answers hidle hshaped
  have hfilled (frames : List AVFrame) :
      (frames.map AVFrame.yuvFrame).filter (fun frame => frame.data.isSome) =
        frames.map AVFrame.yuvFrame := by
    refine List.filter_eq_self.2 fun yuvFrame hmem => ?_
    obtain ⟨frame, -, rfl⟩ := List.mem_map.1 hmem
    rfl
  unfold DecoderWorker.onPacket DecoderWorker.emits
  by_cases hready : worker.ok = false ∨ data = []
  · have hnot : ¬ (worker.ok = true ∧ Decodes worker.decoder data answers) := fun h =>
      hready.elim (fun hbad => Bool.false_ne_true (hbad.symm.trans h.1)) h.2.data
    rw [if_pos hready, if_neg hnot]
    rfl
  · have hok : worker.ok = true := Bool.eq_true_of_not_eq_false (not_or.1 hready).1
    rw [if_neg hready, hdecode]
    by_cases hdecodes : Decodes worker.decoder data answers
    · simp only [if_pos hdecodes, if_pos (And.intro hok hdecodes), hfilled]
    · have hnot : ¬ (worker.ok = true ∧ Decodes worker.decoder data answers) := fun h =>
        hdecodes h.2
      simp only [if_neg hdecodes, if_neg hnot]
      rfl

end Calls

end CarDetect.Qt
