import Mathlib.Data.List.Pairwise
import CarDetect.Lib.BigEndian

/-!
# A frame of the camera becomes a frame of H.264

`mjpegToH264` follows `mjpeg_to_h264` of `camera/v4l2.c`, with its five places to return from. The
state has what outlives a call, and it counts what the calls do with their pictures. How libx264
and libturbojpeg answer is an argument, and what the samples become is the subject of
`Camera/Chroma.lean`. `increasing_iff` is about the time stamps that the encoder gets,
`released_iff` about the pictures that a call leaves behind.
-/

namespace CarDetect.Camera

open BigEndian

/-- `x264_picture_t`: its time stamp, and whether it has planes. -/
structure X264Picture where
  iPts : Int
  allocated : Bool
deriving DecidableEq, Repr

/-- `h264_encoder_t`, as far as a call reads it itself. -/
structure H264Encoder where
  initialized : Bool
deriving DecidableEq, Repr

/-- The arguments of a call. No encoder is a null pointer, and so are an absent buffer and an
absent length. -/
structure EncodeArgs where
  encoder : Option H264Encoder
  h264Data : Bool
  h264BufSize : Nat
  h264Len : Bool
deriving DecidableEq, Repr

/-- What the libraries answer in a call, if they are asked. An encoder that fails has no NALUs. -/
structure Answers where
  tjInitDecompress : Bool
  allocIn : Bool
  alloc420 : Bool
  tjDecompressToYUVPlanes : Bool
  x264EncoderEncode : Option (List Bytes)
deriving DecidableEq, Repr

/-- What outlives a call. `live` counts the pictures that are allocated and not cleaned,
`failedUses` how often a picture without planes was used, and `encoded` has the time stamps of the
pictures that the encoder got. -/
structure CodecState where
  pts : Int
  tjDecoder : Bool
  live : Int
  failedUses : Nat
  encoded : List Int
deriving DecidableEq, Repr

/-- Before the first call. -/
def CodecState.initial : CodecState where
  pts := 0
  tjDecoder := false
  live := 0
  failedUses := 0
  encoded := []

/-- `x264_picture_alloc`. The time stamp is 0, whether there is memory or not. -/
def x264PictureAlloc (succeeds : Bool) : StateM CodecState X264Picture := do
  if succeeds then modify fun state => { state with live := state.live + 1 }
  return ⟨0, succeeds⟩

/-- `x264_picture_clean` -/
def x264PictureClean (picture : X264Picture) : StateM CodecState Unit := do
  if picture.allocated then modify fun state => { state with live := state.live - 1 }

/-- The planes of a picture are read or written. -/
def usePlanes (picture : X264Picture) : StateM CodecState Unit := do
  if !picture.allocated then modify fun state => { state with failedUses := state.failedUses + 1 }

/-- `x264_encoder_encode` -/
def x264EncoderEncode (picture : X264Picture) (answer : Option (List Bytes)) :
    StateM CodecState (Option (List Bytes)) := do
  usePlanes picture
  modify fun state => { state with encoded := state.encoded ++ [picture.iPts] }
  return answer

/-- `ensure_tj_decoder`: the decoder of an earlier call is kept. -/
def ensureTjDecoder (tjInitDecompress : Bool) : StateM CodecState Bool := do
  if (← get).tjDecoder then return true
  modify fun state => { state with tjDecoder := tjInitDecompress }
  return tjInitDecompress

/-- The NALUs that fit into the buffer, up to the first one that does not. -/
def copyNals (h264BufSize : Nat) : List Bytes → Bytes → Bytes
  | [], copied => copied
  | nal :: nals, copied =>
      if copied.length + nal.length > h264BufSize then copied
      else copyNals h264BufSize nals (copied ++ nal)

/-- The pictures of a call, from the first allocation on. -/
def encodePictures (h264BufSize : Nat) (answers : Answers) : StateM CodecState (Option Bytes) := do
  let picIn ← x264PictureAlloc answers.allocIn
  if !picIn.allocated then return none
  -- what the second allocation returns is not looked at
  let pic420 ← x264PictureAlloc answers.alloc420
  usePlanes picIn
  if !answers.tjDecompressToYUVPlanes then
    x264PictureClean picIn
    return none
  -- `yuv422p_to_yuv420p` reads the planes of one picture and writes those of the other
  usePlanes picIn
  usePlanes pic420
  -- the time stamp goes to the picture that is not encoded
  let picIn := { picIn with iPts := (← get).pts }
  modify fun state => { state with pts := state.pts + 1 }
  let some nals ← x264EncoderEncode pic420 answers.x264EncoderEncode | return none
  x264PictureClean picIn
  x264PictureClean pic420
  return some (copyNals h264BufSize nals [])

/-- What is copied fits into the buffer. -/
theorem copy_nals_fits {size : Nat} (nals : List Bytes) {copied : Bytes}
    (h : copied.length ≤ size) : (copyNals size nals copied).length ≤ size := by
  induction nals generalizing copied with
  | nil => exact h
  | cons nal nals ih =>
      rw [copyNals]
      split
      · exact h
      · refine ih ?_
        rw [List.length_append]
        omega

/-- `mjpeg_to_h264`: what is in the buffer when it returns 0, and nothing when it returns -1. -/
def mjpegToH264 (args : EncodeArgs) (answers : Answers) : StateM CodecState (Option Bytes) := do
  let some encoder := args.encoder | return none
  if !encoder.initialized || !args.h264Data || !args.h264Len then return none
  if !(← ensureTjDecoder answers.tjInitDecompress) then return none
  encodePictures args.h264BufSize answers

/-! ## What a call does -/

section Pictures

variable (state : CodecState)

@[simp]
theorem run_x264_picture_alloc (succeeds : Bool) : (x264PictureAlloc succeeds).run state =
    pure (⟨0, succeeds⟩, { state with live := state.live + succeeds.toNat }) := by
  cases succeeds with
  | false =>
      show (_, state) = (_, { state with live := state.live + 0 })
      rw [Int.add_zero]
  | true => rfl

@[simp]
theorem run_x264_picture_clean (picture : X264Picture) : (x264PictureClean picture).run state =
    pure ((), { state with live := state.live - picture.allocated.toNat }) := by
  obtain ⟨iPts, allocated⟩ := picture
  cases allocated with
  | false =>
      show ((), state) = ((), { state with live := state.live - 0 })
      rw [Int.sub_zero]
  | true => rfl

@[simp]
theorem run_use_planes (picture : X264Picture) : (usePlanes picture).run state =
    pure ((), { state with failedUses := state.failedUses + (!picture.allocated).toNat }) := by
  obtain ⟨iPts, allocated⟩ := picture
  cases allocated with
  | false => rfl
  | true => rfl

@[simp]
theorem run_ensure_tj_decoder (succeeds : Bool) : (ensureTjDecoder succeeds).run state =
    pure (state.tjDecoder || succeeds,
      { state with tjDecoder := state.tjDecoder || succeeds }) := by
  obtain ⟨pts, tjDecoder, live, failedUses, encoded⟩ := state
  cases tjDecoder with
  | false => rfl
  | true => rfl

@[simp]
theorem run_x264_encoder_encode (picture : X264Picture) (answer : Option (List Bytes)) :
    (x264EncoderEncode picture answer).run state =
      pure (answer, { state with
        failedUses := state.failedUses + (!picture.allocated).toNat
        encoded := state.encoded ++ [picture.iPts] }) := by
  obtain ⟨iPts, allocated⟩ := picture
  cases allocated with
  | false => rfl
  | true => rfl

end Pictures

/-- The arguments pass the check at the start. -/
def EncodeArgs.valid (args : EncodeArgs) : Bool :=
  (args.encoder.any fun encoder => encoder.initialized) && args.h264Data && args.h264Len

/-- A call has arguments and a decoder to work with. -/
def Ready (args : EncodeArgs) (answers : Answers) (state : CodecState) : Prop :=
  args.valid = true ∧ (state.tjDecoder || answers.tjInitDecompress) = true

instance (args : EncodeArgs) (answers : Answers) (state : CodecState) :
    Decidable (Ready args answers state) := inferInstanceAs (Decidable (_ ∧ _))

/-- The state after a call. -/
def after (args : EncodeArgs) (answers : Answers) (state : CodecState) : CodecState :=
  ((mjpegToH264 args answers).run state).run.2

/-- A call whose first picture has memory. -/
structure Allocates (args : EncodeArgs) (answers : Answers) (state : CodecState) : Prop where
  ready : Ready args answers state
  allocIn : answers.allocIn = true

/-- A call whose frame gets as far as the encoder. -/
structure Reaches (args : EncodeArgs) (answers : Answers) (state : CodecState) : Prop extends
    Allocates args answers state where
  decoded : answers.tjDecompressToYUVPlanes = true

section Call

variable {args : EncodeArgs} {answers : Answers} {state : CodecState} {h264BufSize : Nat}

/-- Without a first picture there is nothing to clean. -/
theorem pictures_not_allocated (halloc : answers.allocIn = false) :
    ((encodePictures h264BufSize answers).run state).run.2 = state := by
  simp [encodePictures, halloc]

/-- When a picture is not decoded, the second one is left behind. -/
theorem pictures_not_decoded (halloc : answers.allocIn = true)
    (hdecode : answers.tjDecompressToYUVPlanes = false) :
    ((encodePictures h264BufSize answers).run state).run.2 =
      { state with live := state.live + answers.alloc420.toNat } := by
  have hlive : state.live + 1 + answers.alloc420.toNat - 1 =
      state.live + answers.alloc420.toNat := by omega
  simp [encodePictures, halloc, hdecode, hlive]

/-- When a picture is not encoded, both are. -/
theorem pictures_not_encoded (halloc : answers.allocIn = true)
    (hdecode : answers.tjDecompressToYUVPlanes = true)
    (hencode : answers.x264EncoderEncode = none) :
    ((encodePictures h264BufSize answers).run state).run.2 =
      { state with
        pts := state.pts + 1
        live := state.live + 1 + answers.alloc420.toNat
        failedUses := state.failedUses + (!answers.alloc420).toNat + (!answers.alloc420).toNat
        encoded := state.encoded ++ [0] } := by
  simp [encodePictures, halloc, hdecode, hencode]

/-- What is encoded is cleaned. -/
theorem pictures_encoded {nals : List Bytes} (halloc : answers.allocIn = true)
    (hdecode : answers.tjDecompressToYUVPlanes = true)
    (hencode : answers.x264EncoderEncode = some nals) :
    ((encodePictures h264BufSize answers).run state).run.2 =
      { state with
        pts := state.pts + 1
        failedUses := state.failedUses + (!answers.alloc420).toNat + (!answers.alloc420).toNat
        encoded := state.encoded ++ [0] } := by
  have hlive : state.live + 1 + answers.alloc420.toNat - 1 - answers.alloc420.toNat =
      state.live := by omega
  simp [encodePictures, halloc, hdecode, hencode, hlive]

theorem valid_iff : args.valid = true ↔ ∃ encoder, args.encoder = some encoder ∧
    (!encoder.initialized || !args.h264Data || !args.h264Len) = false := by
  unfold EncodeArgs.valid
  cases args.encoder with
  | none => simp
  | some encoder => simp [and_assoc]

/-- A call that has nothing to work with leaves everything as it is. -/
theorem after_not_ready (h : ¬ Ready args answers state) : after args answers state = state := by
  unfold after mjpegToH264
  cases hargs : args.encoder with
  | none => rfl
  | some encoder =>
      cases hbad : !encoder.initialized || !args.h264Data || !args.h264Len with
      | true => simp [hbad]
      | false =>
          have hvalid : args.valid = true := valid_iff.2 ⟨encoder, hargs, hbad⟩
          have hdecoder : (state.tjDecoder || answers.tjInitDecompress) = false :=
            Bool.eq_false_iff.2 fun hsome => h ⟨hvalid, hsome⟩
          have hnone : { state with tjDecoder := false } = state := by
            rw [← (Bool.or_eq_false_iff.1 hdecoder).1]
          simp [hbad, hdecoder, hnone]

/-- Another one goes on with a decoder. -/
theorem after_ready (h : Ready args answers state) : after args answers state =
    ((encodePictures args.h264BufSize answers).run { state with tjDecoder := true }).run.2 := by
  obtain ⟨encoder, hargs, hgood⟩ := valid_iff.1 h.1
  simp [after, mjpegToH264, hargs, hgood, h.2]

/-- What is encoded fits into the buffer. -/
theorem pictures_data {data : Bytes}
    (h : ((encodePictures h264BufSize answers).run state).run.1 = some data) :
    data.length ≤ h264BufSize := by
  cases halloc : answers.allocIn with
  | false => simp [encodePictures, halloc] at h
  | true =>
      cases hdecode : answers.tjDecompressToYUVPlanes with
      | false => simp [encodePictures, halloc, hdecode] at h
      | true =>
          cases hencode : answers.x264EncoderEncode with
          | none => simp [encodePictures, halloc, hdecode, hencode] at h
          | some nals =>
              have hdata : copyNals h264BufSize nals [] = data := by
                simpa [encodePictures, halloc, hdecode, hencode] using h
              rw [← hdata]
              exact copy_nals_fits nals (Nat.zero_le _)

/-- A call never writes behind the buffer. -/
theorem data_fits {data : Bytes} (h : ((mjpegToH264 args answers).run state).run.1 = some data) :
    data.length ≤ args.h264BufSize := by
  unfold mjpegToH264 at h
  cases hargs : args.encoder with
  | none => simp [hargs] at h
  | some encoder =>
      cases hbad : !encoder.initialized || !args.h264Data || !args.h264Len with
      | true => simp [hargs, hbad] at h
      | false =>
          cases hdecoder : state.tjDecoder || answers.tjInitDecompress with
          | false => simp [hargs, hbad, hdecoder] at h
          | true =>
              have hpictures : ((encodePictures args.h264BufSize answers).run
                  { state with tjDecoder := true }).run.1 = some data := by
                simpa [hargs, hbad, hdecoder] using h
              exact pictures_data hpictures

/-! ## Time stamps -/

/-- A frame that reaches the encoder adds a time stamp of 0 and counts `pts` on. -/
theorem after_reaches (h : Reaches args answers state) :
    (after args answers state).encoded = state.encoded ++ [0] ∧
      (after args answers state).pts = state.pts + 1 := by
  rw [after_ready h.ready]
  cases hencode : answers.x264EncoderEncode with
  | none =>
      rw [pictures_not_encoded h.allocIn h.decoded hencode]
      exact ⟨rfl, rfl⟩
  | some nals =>
      rw [pictures_encoded h.allocIn h.decoded hencode]
      exact ⟨rfl, rfl⟩

/-- Any other frame does neither. -/
theorem after_not_reaches (h : ¬ Reaches args answers state) :
    (after args answers state).encoded = state.encoded ∧
      (after args answers state).pts = state.pts := by
  by_cases hready : Ready args answers state
  · rw [after_ready hready]
    cases halloc : answers.allocIn with
    | false =>
        rw [pictures_not_allocated halloc]
        exact ⟨rfl, rfl⟩
    | true =>
        have hdecode : answers.tjDecompressToYUVPlanes = false :=
          Bool.eq_false_iff.2 fun hdecoded => h ⟨⟨hready, halloc⟩, hdecoded⟩
        rw [pictures_not_decoded halloc hdecode]
        exact ⟨rfl, rfl⟩
  · rw [after_not_ready hready]
    exact ⟨rfl, rfl⟩

end Call

/-- Calls one after another. -/
def run : List (EncodeArgs × Answers) → CodecState → CodecState
  | [], state => state
  | call :: calls, state => run calls (after call.1 call.2 state)

instance (args : EncodeArgs) (answers : Answers) (state : CodecState) :
    Decidable (Reaches args answers state) :=
  decidable_of_iff ((Ready args answers state ∧ answers.allocIn = true) ∧
      answers.tjDecompressToYUVPlanes = true)
    ⟨fun h => ⟨⟨h.1.1, h.1.2⟩, h.2⟩, fun h => ⟨⟨h.ready, h.allocIn⟩, h.decoded⟩⟩

/-- How many of the frames reach the encoder. -/
def framesReaching : List (EncodeArgs × Answers) → CodecState → Nat
  | [], _ => 0
  | call :: calls, state =>
      (if Reaches call.1 call.2 state then 1 else 0) +
        framesReaching calls (after call.1 call.2 state)

/-- The encoder gets the time stamp 0 with each frame. -/
theorem encoded_run (calls : List (EncodeArgs × Answers)) (state : CodecState) :
    (run calls state).encoded =
      state.encoded ++ List.replicate (framesReaching calls state) 0 := by
  induction calls generalizing state with
  | nil => exact (List.append_nil _).symm
  | cons call calls ih =>
      rw [run, ih, framesReaching]
      by_cases h : Reaches call.1 call.2 state
      · rw [(after_reaches h).1, if_pos h, Nat.add_comm, List.replicate_succ, List.append_assoc,
          List.singleton_append]
      · rw [(after_not_reaches h).1, if_neg h, Nat.zero_add]

/-- What would be the next time stamp counts the frames. -/
theorem pts_run (calls : List (EncodeArgs × Answers)) (state : CodecState) :
    (run calls state).pts = state.pts + framesReaching calls state := by
  induction calls generalizing state with
  | nil => exact (Int.add_zero _).symm
  | cons call calls ih =>
      rw [run, ih, framesReaching]
      by_cases h : Reaches call.1 call.2 state
      · rw [(after_reaches h).2, if_pos h, Nat.cast_add, Nat.cast_one, Int.add_assoc]
      · rw [(after_not_reaches h).2, if_neg h, Nat.zero_add]

/-- The time stamps that the encoder gets increase exactly when it gets no more than one. -/
theorem increasing_iff (calls : List (EncodeArgs × Answers)) :
    (run calls .initial).encoded.Pairwise (· < ·) ↔ framesReaching calls .initial ≤ 1 := by
  have hencoded : (run calls .initial).encoded =
      List.replicate (framesReaching calls .initial) 0 := encoded_run calls .initial
  rw [hencoded, List.pairwise_replicate]
  simp only [lt_irrefl, or_false]

/-- The arguments of the video thread. -/
def videoThread : EncodeArgs where
  encoder := some ⟨true⟩
  h264Data := true
  h264BufSize := 1000000
  h264Len := true

/-- Libraries that do what they are asked for. -/
def willing : Answers where
  tjInitDecompress := true
  allocIn := true
  alloc420 := true
  tjDecompressToYUVPlanes := true
  x264EncoderEncode := some [[0, 0, 0, 1, 0x65]]

/-- The second frame has the time stamp of the first one. -/
theorem increasing_fails_two : ¬ ∀ calls : List (EncodeArgs × Answers),
    (∀ call ∈ calls, ∃ encoder, call.1.encoder = some encoder ∧ encoder.initialized = true) →
      (run calls .initial).encoded.Pairwise (· < ·) := by
  intro h
  have hinitialized : ∀ call ∈ [(videoThread, willing), (videoThread, willing)],
      ∃ encoder, call.1.encoder = some encoder ∧ encoder.initialized = true := by
    intro call hcall
    simp only [List.mem_cons, List.not_mem_nil, or_false, or_self] at hcall
    rw [hcall]
    exact ⟨_, rfl, rfl⟩
  have hstamps : [(0 : Int), 0].Pairwise (· < ·) := h _ hinitialized
  exact absurd hstamps (by decide)

/-! ## Pictures that are left behind -/

/-- Every picture that a call allocates is cleaned, and one without planes is not used. -/
structure Released (args : EncodeArgs) (answers : Answers) (state : CodecState) : Prop where
  live : (after args answers state).live = state.live
  failedUses : (after args answers state).failedUses = state.failedUses

/-- After the first picture, either the second one has no memory and decoding fails as well, or
nothing fails any more. -/
def AllOrNothing (answers : Answers) : Prop :=
  (answers.alloc420 = false ∧ answers.tjDecompressToYUVPlanes = false) ∨
    (answers.alloc420 = true ∧ answers.tjDecompressToYUVPlanes = true ∧
      answers.x264EncoderEncode.isSome = true)

section Release

variable {args : EncodeArgs} {answers : Answers} {state : CodecState}

theorem released_of_not_allocates (h : ¬ Allocates args answers state) :
    Released args answers state := by
  by_cases hready : Ready args answers state
  · have halloc : answers.allocIn = false := Bool.eq_false_iff.2 fun halloc => h ⟨hready, halloc⟩
    have hafter := after_ready hready
    rw [pictures_not_allocated halloc] at hafter
    exact ⟨by rw [hafter], by rw [hafter]⟩
  · have hafter := after_not_ready hready
    exact ⟨by rw [hafter], by rw [hafter]⟩

/-- When decoding fails, only a second picture without memory is no loss. -/
theorem released_not_decoded (h : Allocates args answers state)
    (hdecode : answers.tjDecompressToYUVPlanes = false) :
    Released args answers state ↔ answers.alloc420 = false := by
  have hafter := after_ready h.ready
  rw [pictures_not_decoded h.allocIn hdecode] at hafter
  have hlive : (after args answers state).live = state.live + answers.alloc420.toNat := by
    rw [hafter]
  have hused : (after args answers state).failedUses = state.failedUses := by rw [hafter]
  constructor
  · intro hreleased
    have hkept := hreleased.live
    have hnone : answers.alloc420.toNat = 0 := by omega
    exact Bool.toNat_eq_zero.1 hnone
  · intro hnone
    rw [hnone] at hlive
    exact ⟨hlive.trans (Int.add_zero _), hused⟩

/-- When encoding fails, the first picture is lost. -/
theorem not_released_of_not_encoded (h : Allocates args answers state)
    (hdecode : answers.tjDecompressToYUVPlanes = true)
    (hencode : answers.x264EncoderEncode = none) : ¬ Released args answers state := by
  intro hreleased
  have hafter := after_ready h.ready
  rw [pictures_not_encoded h.allocIn hdecode hencode] at hafter
  have hlive : (after args answers state).live = state.live + 1 + answers.alloc420.toNat := by
    rw [hafter]
  have hkept := hreleased.live
  omega

/-- When encoding succeeds, all that may have gone wrong is the second allocation. -/
theorem released_encoded {nals : List Bytes} (h : Allocates args answers state)
    (hdecode : answers.tjDecompressToYUVPlanes = true)
    (hencode : answers.x264EncoderEncode = some nals) :
    Released args answers state ↔ answers.alloc420 = true := by
  have hafter := after_ready h.ready
  rw [pictures_encoded h.allocIn hdecode hencode] at hafter
  have hlive : (after args answers state).live = state.live := by rw [hafter]
  have hused : (after args answers state).failedUses =
      state.failedUses + (!answers.alloc420).toNat + (!answers.alloc420).toNat := by
    rw [hafter]
  constructor
  · intro hreleased
    have hkept := hreleased.failedUses
    have hplanes : (!answers.alloc420).toNat = 0 := by omega
    have hfailed : (!answers.alloc420) = false := Bool.toNat_eq_zero.1 hplanes
    simpa using hfailed
  · intro hplanes
    rw [hplanes] at hused
    exact ⟨hlive, hused⟩

theorem released_of_allocates (h : Allocates args answers state) :
    Released args answers state ↔ AllOrNothing answers := by
  unfold AllOrNothing
  cases hdecode : answers.tjDecompressToYUVPlanes with
  | false =>
      rw [released_not_decoded h hdecode]
      simp only [and_true, reduceCtorEq, false_and, and_false, or_false]
  | true =>
      cases hencode : answers.x264EncoderEncode with
      | none =>
          refine iff_of_false (not_released_of_not_encoded h hdecode hencode) ?_
          rintro (⟨-, hfailed⟩ | ⟨-, -, hencoded⟩)
          · cases hfailed
          · cases hencoded
      | some nals =>
          rw [released_encoded h hdecode hencode]
          simp only [reduceCtorEq, and_false, Option.isSome_some, and_true, false_or]

/-- A call leaves no picture behind and uses none without planes exactly when the first allocation
is not reached or fails, or when all or nothing of the rest succeeds. -/
theorem released_iff (args : EncodeArgs) (answers : Answers) (state : CodecState) :
    Released args answers state ↔ (Allocates args answers state → AllOrNothing answers) := by
  by_cases h : Allocates args answers state
  · rw [released_of_allocates h]
    exact ⟨fun hall _ => hall, fun hall => hall h⟩
  · exact ⟨fun _ hallocates => absurd hallocates h, fun _ => released_of_not_allocates h⟩

end Release

/-- A frame of the camera that is not a picture costs a picture. -/
theorem released_fails_corrupt : ¬ ∀ (args : EncodeArgs) (answers : Answers) (state : CodecState),
    Released args answers state := by
  intro h
  have hlive : (1 : Int) = 0 :=
    (h videoThread { willing with tjDecompressToYUVPlanes := false } .initial).live
  exact absurd hlive (by decide)

end CarDetect.Camera
