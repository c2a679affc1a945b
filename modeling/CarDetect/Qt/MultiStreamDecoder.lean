import CarDetect.Qt.Reassembler
import CarDetect.Qt.VideoOpenGLWidget

/-!
# Many streams

`MultiStreamDecoder` follows the class of `car_detect_qt/multistreamdecoder.cpp`: every stream has a
worker in a thread of its own, packets reach it through the queue of its thread, and its frames come
back through the queue of the main thread. The threads take their steps in any order.

`played_in_order` is about any calls of `addStream`, `removeStream` and `pushFrame`.
-/

namespace CarDetect.Qt

open BigEndian Machine
open Camera (PlaneFault)

/-! ## Workers -/

/-- Libavcodec and its memory: what a call of `decode` is answered. -/
structure Avcodec (σ : Type*) where
  start : σ
  answer : σ → Bytes → Answers × σ

/-- A `DecoderWorker` with its thread: the calls of `onPacket` that wait, and the frames of the last
call that are still to be emitted. `pushed` has all the packets that it has got. -/
structure StreamWorker (σ : Type*) where
  widget : Nat
  worker : DecoderWorker
  codec : σ
  running : Bool
  packets : List Bytes
  emitting : List YUVFrame
  pushed : List Bytes

/-- The calls of `updateFrame` with a worker's frames: those that are done, and those that wait. -/
structure MultiStreamDecoder (σ : Type*) where
  streams : QString → Option Nat
  workers : List (StreamWorker σ)
  shown : List (Nat × YUVFrame)
  posted : List (Nat × YUVFrame)
  widgets : Nat → VideoOpenGLWidget

/-- A call, or a step of one of the threads. -/
inductive Play where
  | addStream (name : QString) (widget : Nat) (initCodec : Bool × Bool)
  | removeStream (name : QString)
  | pushFrame (name : QString) (frame : Bytes)
  | work (index : Nat)
  | emit (index : Nat)
  | deliver
  | paint (widget : Nat)
deriving DecidableEq, Repr

/-- A new worker. `initCodec` is called twice. -/
def StreamWorker.start {σ : Type*} (avcodec : Avcodec σ) (widget : Nat) (initCodec : Bool × Bool) :
    StreamWorker σ where
  widget := widget
  worker := ⟨.start initCodec.1, initCodec.2⟩
  codec := avcodec.start
  running := true
  packets := []
  emitting := []
  pushed := []

namespace MultiStreamDecoder

section Steps

variable {σ : Type*}

/-- Before the first stream. -/
def start : MultiStreamDecoder σ := ⟨fun _ => none, [], [], [], fun _ => .start⟩

/-- A name belongs to another worker, or to none. -/
def put (decoder : MultiStreamDecoder σ) (name : QString) (index : Option Nat) :
    MultiStreamDecoder σ :=
  { decoder with streams := fun asked => if asked = name then index else decoder.streams asked }

/-- `addStream` -/
def addStream (avcodec : Avcodec σ) (decoder : MultiStreamDecoder σ) (name : QString) (widget : Nat)
    (initCodec : Bool × Bool) : MultiStreamDecoder σ :=
  if (decoder.streams name).isSome then decoder
  else
    { decoder.put name (some decoder.workers.length) with
      workers := decoder.workers ++ [.start avcodec widget initCodec] }

/-- `quit` and `wait`: the thread ends when the call that it is in has emitted its frames. -/
def quit (decoder : MultiStreamDecoder σ) (index : Nat) : MultiStreamDecoder σ :=
  match decoder.workers[index]? with
  | none => decoder
  | some worker =>
      { decoder with
        workers := decoder.workers.set index { worker with running := false, emitting := [] }
        posted := decoder.posted ++ worker.emitting.map fun frame => (index, frame) }

/-- `removeStream` -/
def removeStream (decoder : MultiStreamDecoder σ) (name : QString) : MultiStreamDecoder σ :=
  match decoder.streams name with
  | none => decoder
  | some index => (decoder.put name none).quit index

/-- A call of `onPacket` is queued. -/
def invokeMethod (decoder : MultiStreamDecoder σ) (index : Nat) (ba : Bytes) :
    MultiStreamDecoder σ :=
  match decoder.workers[index]? with
  | none => decoder
  | some worker =>
      { decoder with
        workers := decoder.workers.set index { worker with
          packets := worker.packets ++ [ba]
          pushed := worker.pushed ++ [ba] } }

/-- `pushFrame` -/
def pushFrame (decoder : MultiStreamDecoder σ) (name : QString) (frame : Bytes) :
    MultiStreamDecoder σ :=
  match decoder.streams name with
  | none => decoder
  | some index => decoder.invokeMethod index frame

/-- A thread calls `onPacket`, when the call before has ended. -/
def work (avcodec : Avcodec σ) (decoder : MultiStreamDecoder σ) (index : Nat) :
    Except PlaneFault (MultiStreamDecoder σ) :=
  match decoder.workers[index]? with
  | some ⟨widget, worker, codec, true, ba :: packets, [], pushed⟩ =>
      match worker.onPacket ba (avcodec.answer codec ba).1 with
      | .error fault => .error fault
      | .ok (following, frames) =>
          .ok { decoder with
            workers := decoder.workers.set index
              ⟨widget, following, (avcodec.answer codec ba).2, true, packets, frames, pushed⟩ }
  | _ => .ok decoder

/-- A thread emits a frame. -/
def emit (decoder : MultiStreamDecoder σ) (index : Nat) : MultiStreamDecoder σ :=
  match decoder.workers[index]? with
  | some ⟨widget, worker, codec, running, packets, frame :: emitting, pushed⟩ =>
      { decoder with
        workers := decoder.workers.set index
          ⟨widget, worker, codec, running, packets, emitting, pushed⟩
        posted := decoder.posted ++ [(index, frame)] }
  | _ => decoder

/-- The main thread calls `updateFrame`. -/
def deliver (decoder : MultiStreamDecoder σ) : MultiStreamDecoder σ :=
  match decoder.posted with
  | [] => decoder
  | (index, frame) :: posted =>
      { decoder with
        shown := decoder.shown ++ [(index, frame)]
        posted := posted
        widgets := fun asked =>
          if (decoder.workers[index]?).map StreamWorker.widget = some asked then
            (decoder.widgets asked).updateFrame frame
          else decoder.widgets asked }

/-- The main thread paints a widget. -/
def paint (decoder : MultiStreamDecoder σ) (widget : Nat) :
    Except PlaneFault (MultiStreamDecoder σ) :=
  match (decoder.widgets widget).paint with
  | .error fault => .error fault
  | .ok (painted, _) =>
      .ok { decoder with
        widgets := fun asked => if asked = widget then painted else decoder.widgets asked }

/-- One step. -/
def step (avcodec : Avcodec σ) : Step (MultiStreamDecoder σ) Play Empty PlaneFault
  | decoder, .addStream name widget initCodec =>
      .ok (decoder.addStream avcodec name widget initCodec, [])
  | decoder, .removeStream name => .ok (decoder.removeStream name, [])
  | decoder, .pushFrame name frame => .ok (decoder.pushFrame name frame, [])
  | decoder, .work index => (decoder.work avcodec index).map fun following => (following, [])
  | decoder, .emit index => .ok (decoder.emit index, [])
  | decoder, .deliver => .ok (decoder.deliver, [])
  | decoder, .paint widget => (decoder.paint widget).map fun following => (following, [])

end Steps

end MultiStreamDecoder

/-! ## What a worker makes of its packets -/

section Decoding

variable {σ : Type*} (avcodec : Avcodec σ) (worker : DecoderWorker)

/-- The frames of some packets, one after another. -/
def decodeAll : σ → List Bytes → List AVFrame
  | _, [] => []
  | codec, ba :: packets =>
      worker.emits ba (avcodec.answer codec ba).1 ++ decodeAll (avcodec.answer codec ba).2 packets

/-- The state of libavcodec after them. -/
def codecOf (codec : σ) (packets : List Bytes) : σ :=
  packets.foldl (fun codec ba => (avcodec.answer codec ba).2) codec

theorem decode_all_append (codec : σ) (first second : List Bytes) :
    decodeAll avcodec worker codec (first ++ second) =
      decodeAll avcodec worker codec first ++
        decodeAll avcodec worker (codecOf avcodec codec first) second := by
  induction first generalizing codec with
  | nil => rfl
  | cons ba first ih =>
      rw [List.cons_append, decodeAll, ih, decodeAll, List.append_assoc]
      rfl

theorem codec_of_append (codec : σ) (first second : List Bytes) :
    codecOf avcodec codec (first ++ second) =
      codecOf avcodec (codecOf avcodec codec first) second := List.foldl_append

/-- Libavcodec returns frames of the format YUV420P that have pixels. -/
def Avcodec.Conforms (avcodec : Avcodec σ) : Prop :=
  ∀ codec ba, ∀ frame ∈ (avcodec.answer codec ba).1.frames, frame.Valid

theorem decode_all_valid (hconforms : avcodec.Conforms) (codec : σ) (packets : List Bytes) :
    ∀ frame ∈ decodeAll avcodec worker codec packets, frame.Valid := by
  induction packets generalizing codec with
  | nil => exact nofun
  | cons ba packets ih =>
      intro frame hframe
      rcases List.mem_append.1 hframe with hfirst | hlater
      · unfold DecoderWorker.emits at hfirst
        split at hfirst
        · exact hconforms codec ba frame hfirst
        · cases hfirst
      · exact ih _ frame hlater

end Decoding

/-- A frame of two rows of two pixels, with a byte of padding behind each. -/
def grey (level : UInt8) : AVFrame where
  width := 2
  height := 2
  planes := ⟨⟨[level, level, 0, level, level, 0], 3⟩, ⟨[128], 1⟩, ⟨[128], 1⟩⟩

/-- Libavcodec with a stream whose pictures are grey: a parameter set has no picture. -/
def greyCodec : Avcodec Nat where
  start := 0
  answer calls ba :=
    (⟨true, 0, 0, if ba[4]? = some 0x67 then [] else [grey (ba.getLastD 0)], EAGAIN⟩, calls + 1)

theorem grey_conforms : greyCodec.Conforms := by
  intro calls ba frame hframe
  have hgrey : ∃ level, frame = grey level := by
    change frame ∈ (if ba[4]? = some 0x67 then [] else [grey (ba.getLastD 0)]) at hframe
    split at hframe
    · cases hframe
    · exact ⟨_, List.mem_singleton.1 hframe⟩
  obtain ⟨level, rfl⟩ := hgrey
  refine ⟨⟨⟨?_, ?_⟩, ⟨?_, ?_⟩, ⟨?_, ?_⟩, ?_⟩, ?_, ?_⟩ <;> simp [grey]
  all_goals omega

/-! ## The invariant -/

section Invariant

variable {σ : Type*} {avcodec : Avcodec σ} {decoder following final : MultiStreamDecoder σ}
  {worker changed : StreamWorker σ} {index : Nat} {frames added : List YUVFrame}

/-- The frames of a worker that have reached the queue of the main thread. -/
def MultiStreamDecoder.framesOf (decoder : MultiStreamDecoder σ) (index : Nat) : List YUVFrame :=
  ((decoder.shown ++ decoder.posted).filter fun entry => entry.1 = index).map Prod.snd

/-- The widget of a worker. -/
def MultiStreamDecoder.widgetOf (decoder : MultiStreamDecoder σ) (index : Nat) : Option Nat :=
  decoder.workers[index]?.map StreamWorker.widget

/-- The frames that a widget has got. -/
def MultiStreamDecoder.shownOn (decoder : MultiStreamDecoder σ) (widget : Nat) : List YUVFrame :=
  (decoder.shown.filter fun entry => decoder.widgetOf entry.1 = some widget).map Prod.snd

/-- A worker that has got packets and has sent frames: what its packets are decoded to has been
sent, or is still to come. -/
structure Serving (avcodec : Avcodec σ) (worker : StreamWorker σ) (frames : List YUVFrame) :
    Prop where
  idle : worker.worker.decoder.Idle
  codec : codecOf avcodec avcodec.start worker.pushed = codecOf avcodec worker.codec worker.packets
  frames : (decodeAll avcodec worker.worker avcodec.start worker.pushed).map AVFrame.yuvFrame =
    frames ++ (worker.emitting ++
      (decodeAll avcodec worker.worker worker.codec worker.packets).map AVFrame.yuvFrame)

/-- What holds between two steps. -/
structure Playing (avcodec : Avcodec σ) (decoder : MultiStreamDecoder σ) : Prop where
  serving : ∀ index worker, decoder.workers[index]? = some worker →
    Serving avcodec worker (decoder.framesOf index)
  known : ∀ entry ∈ decoder.shown ++ decoder.posted, entry.1 < decoder.workers.length
  sized : ∀ widget, (decoder.widgets widget).Sized
  current : ∀ widget, (decoder.widgets widget).currentFrame =
    (decoder.shownOn widget).getLast?.getD .empty

theorem playing_start (avcodec : Avcodec σ) : Playing avcodec MultiStreamDecoder.start where
  serving _ _ hworker := by simp [MultiStreamDecoder.start] at hworker
  known := nofun
  sized _ := Or.inl rfl
  current _ := rfl

/-- A worker has changed, and some of its frames have been posted. -/
theorem playing_worker (hplaying : Playing avcodec decoder)
    (hworker : decoder.workers[index]? = some worker) (hwidget : changed.widget = worker.widget)
    (hserving : Serving avcodec changed (decoder.framesOf index ++ added)) :
    Playing avcodec { decoder with
      workers := decoder.workers.set index changed
      posted := decoder.posted ++ added.map fun frame => (index, frame) } := by
  have hlt : index < decoder.workers.length := (List.getElem?_eq_some_iff.1 hworker).1
  let following : MultiStreamDecoder σ := { decoder with
    workers := decoder.workers.set index changed
    posted := decoder.posted ++ added.map fun frame => (index, frame) }
  have hwidgets (asked : Nat) : following.widgetOf asked = decoder.widgetOf asked := by
    show ((decoder.workers.set index changed)[asked]?).map StreamWorker.widget = _
    by_cases hsame : index = asked
    · subst hsame
      rw [List.getElem?_set_self hlt, MultiStreamDecoder.widgetOf, hworker, Option.map_some,
        Option.map_some, hwidget]
    · rw [List.getElem?_set_ne hsame]
      rfl
  have hframes (asked : Nat) : following.framesOf asked =
      decoder.framesOf asked ++ if asked = index then added else [] := by
    have hlog : following.shown ++ following.posted = (decoder.shown ++ decoder.posted) ++
        added.map fun frame => (index, frame) := (List.append_assoc _ _ _).symm
    rw [MultiStreamDecoder.framesOf, hlog, List.filter_append, List.map_append]
    congr 1
    by_cases hsame : asked = index
    · subst hsame
      have hall : (added.map fun frame => (asked, frame)).filter
          (fun entry => decide (entry.1 = asked)) = added.map fun frame => (asked, frame) :=
        List.filter_eq_self.2 (by simp)
      rw [if_pos rfl, hall, List.map_map]
      exact List.map_id _
    · simp [hsame, Ne.symm hsame]
  refine ⟨fun asked other hother => ?_, fun entry hentry => ?_, hplaying.sized, fun widget => ?_⟩
  · rw [hframes]
    by_cases hsame : asked = index
    · subst hsame
      rw [if_pos rfl]
      change (decoder.workers.set asked changed)[asked]? = some other at hother
      rw [List.getElem?_set_self hlt] at hother
      obtain rfl : changed = other := Option.some.inj hother
      exact hserving
    · rw [if_neg hsame, List.append_nil]
      change (decoder.workers.set index changed)[asked]? = some other at hother
      rw [List.getElem?_set_ne (Ne.symm hsame)] at hother
      exact hplaying.serving asked other hother
  · show entry.1 < (decoder.workers.set index changed).length
    rw [List.length_set]
    change entry ∈ decoder.shown ++ (decoder.posted ++ _) at hentry
    rw [← List.append_assoc] at hentry
    rcases List.mem_append.1 hentry with hold | hnew
    · exact hplaying.known entry hold
    · obtain ⟨frame, -, rfl⟩ := List.mem_map.1 hnew
      exact hlt
  · have hshown : following.shownOn widget = decoder.shownOn widget := by
      unfold MultiStreamDecoder.shownOn
      simp only [hwidgets]
      rfl
    show (decoder.widgets widget).currentFrame = (following.shownOn widget).getLast?.getD .empty
    rw [hshown]
    exact hplaying.current widget

/-- A worker has changed, and has posted nothing. -/
theorem playing_silent (hplaying : Playing avcodec decoder)
    (hworker : decoder.workers[index]? = some worker) (hwidget : changed.widget = worker.widget)
    (hserving : Serving avcodec changed (decoder.framesOf index)) :
    Playing avcodec { decoder with workers := decoder.workers.set index changed } := by
  have h := @playing_worker σ avcodec decoder worker changed index [] hplaying hworker hwidget
    (by rwa [List.append_nil])
  rwa [List.map_nil, List.append_nil] at h

theorem playing_put (hplaying : Playing avcodec decoder) (name : QString) (found : Option Nat) :
    Playing avcodec (decoder.put name found) :=
  ⟨hplaying.serving, hplaying.known, hplaying.sized, hplaying.current⟩

theorem serving_start (avcodec : Avcodec σ) (widget : Nat) (initCodec : Bool × Bool) :
    Serving avcodec (.start avcodec widget initCodec) [] :=
  ⟨⟨rfl, rfl, rfl, rfl⟩, rfl, rfl⟩

/-- A new worker has no frames. -/
theorem playing_append (hplaying : Playing avcodec decoder) (widget : Nat)
    (initCodec : Bool × Bool) :
    Playing avcodec { decoder with
      workers := decoder.workers ++ [.start avcodec widget initCodec] } := by
  let following : MultiStreamDecoder σ := { decoder with
    workers := decoder.workers ++ [.start avcodec widget initCodec] }
  refine ⟨fun asked other hother => ?_, fun entry hentry => ?_, hplaying.sized, fun asked => ?_⟩
  · change (decoder.workers ++ [_])[asked]? = some other at hother
    rcases Nat.lt_or_ge asked decoder.workers.length with hlt | hge
    · rw [List.getElem?_append_left hlt] at hother
      exact hplaying.serving asked other hother
    · rw [List.getElem?_append_right hge] at hother
      have hnone : decoder.framesOf asked = [] := by
        refine List.map_eq_nil_iff.2 (List.filter_eq_nil_iff.2 fun entry hentry => ?_)
        have hknown := hplaying.known entry hentry
        simp only [decide_eq_true_eq]
        omega
      show Serving avcodec other (decoder.framesOf asked)
      rw [hnone]
      obtain rfl : .start avcodec widget initCodec = other :=
        (List.mem_singleton.1 (List.mem_of_getElem? hother)).symm
      exact serving_start avcodec widget initCodec
  · show entry.1 < (decoder.workers ++ [_]).length
    have hknown := hplaying.known entry hentry
    rw [List.length_append]
    omega
  · have hshown : following.shownOn asked = decoder.shownOn asked := by
      refine congrArg (List.map Prod.snd) (List.filter_congr fun entry hentry => ?_)
      have hknown := hplaying.known entry (List.mem_append_left _ hentry)
      show decide (((decoder.workers ++ [_])[entry.1]?).map StreamWorker.widget = some asked) = _
      rw [List.getElem?_append_left hknown]
      rfl
    show (decoder.widgets asked).currentFrame = (following.shownOn asked).getLast?.getD .empty
    rw [hshown]
    exact hplaying.current asked

theorem playing_add (hplaying : Playing avcodec decoder) (name : QString) (widget : Nat)
    (initCodec : Bool × Bool) :
    Playing avcodec (decoder.addStream avcodec name widget initCodec) := by
  unfold MultiStreamDecoder.addStream
  split
  · exact hplaying
  · exact playing_put (playing_append hplaying widget initCodec) name _

theorem playing_quit (hplaying : Playing avcodec decoder) (index : Nat) :
    Playing avcodec (decoder.quit index) := by
  unfold MultiStreamDecoder.quit
  cases hworker : decoder.workers[index]? with
  | none => exact hplaying
  | some worker =>
      obtain ⟨hidle, hcodec, hframes⟩ := hplaying.serving index worker hworker
      refine playing_worker hplaying hworker ?_ ⟨hidle, hcodec, ?_⟩
      · rfl
      · show _ = (decoder.framesOf index ++ worker.emitting) ++ ([] ++ _)
        rw [hframes, List.nil_append, List.append_assoc]

theorem playing_remove (hplaying : Playing avcodec decoder) (name : QString) :
    Playing avcodec (decoder.removeStream name) := by
  unfold MultiStreamDecoder.removeStream
  cases hstream : decoder.streams name with
  | none => exact hplaying
  | some index => exact playing_quit (playing_put hplaying name none) index

theorem playing_invoke (hplaying : Playing avcodec decoder) (index : Nat) (ba : Bytes) :
    Playing avcodec (decoder.invokeMethod index ba) := by
  unfold MultiStreamDecoder.invokeMethod
  cases hworker : decoder.workers[index]? with
  | none => exact hplaying
  | some worker =>
      obtain ⟨hidle, hcodec, hframes⟩ := hplaying.serving index worker hworker
      refine playing_silent hplaying hworker ?_ ⟨hidle, ?_, ?_⟩
      · rfl
      · show codecOf avcodec avcodec.start (worker.pushed ++ [ba]) =
          codecOf avcodec worker.codec (worker.packets ++ [ba])
        rw [codec_of_append, codec_of_append, hcodec]
      · show (decodeAll avcodec worker.worker avcodec.start (worker.pushed ++ [ba])).map
            AVFrame.yuvFrame =
          decoder.framesOf index ++ (worker.emitting ++
            (decodeAll avcodec worker.worker worker.codec (worker.packets ++ [ba])).map
              AVFrame.yuvFrame)
        rw [decode_all_append, decode_all_append, List.map_append, List.map_append, hframes,
          hcodec, List.append_assoc, List.append_assoc]

theorem playing_push (hplaying : Playing avcodec decoder) (name : QString) (frame : Bytes) :
    Playing avcodec (decoder.pushFrame name frame) := by
  unfold MultiStreamDecoder.pushFrame
  cases hstream : decoder.streams name with
  | none => exact hplaying
  | some index => exact playing_invoke hplaying index frame

theorem playing_work (hconforms : avcodec.Conforms) (hplaying : Playing avcodec decoder)
    (index : Nat) :
    ∃ following, decoder.work avcodec index = .ok following ∧ Playing avcodec following := by
  unfold MultiStreamDecoder.work
  split
  · next widget worker codec ba packets pushed hworker =>
      obtain ⟨hidle, hcodec, hframes⟩ := hplaying.serving index _ hworker
      have hshaped : ∀ frame ∈ (avcodec.answer codec ba).1.frames, frame.Shaped :=
        fun frame hframe => (hconforms codec ba frame hframe).toShaped
      rw [on_packet_eq hidle hshaped]
      refine ⟨_, rfl, playing_silent hplaying hworker rfl ⟨hidle, hcodec, ?_⟩⟩
      rw [hframes, List.nil_append, decodeAll, List.map_append]
  · exact ⟨decoder, rfl, hplaying⟩

theorem playing_emit (hplaying : Playing avcodec decoder) (index : Nat) :
    Playing avcodec (decoder.emit index) := by
  unfold MultiStreamDecoder.emit
  split
  · next widget worker codec running packets frame emitting pushed hworker =>
      obtain ⟨hidle, hcodec, hframes⟩ := hplaying.serving index _ hworker
      have hserving : Serving avcodec ⟨widget, worker, codec, running, packets, emitting, pushed⟩
          (decoder.framesOf index ++ [frame]) := by
        refine ⟨hidle, hcodec, ?_⟩
        rw [hframes, List.append_assoc]
        rfl
      exact @playing_worker _ _ _ _ _ _ [frame] hplaying hworker rfl hserving
  · exact hplaying

/-- A frame in the queues of the main thread is one of libavcodec. -/
theorem posted_valid (hconforms : avcodec.Conforms) (hplaying : Playing avcodec decoder)
    {entry : Nat × YUVFrame} (hentry : entry ∈ decoder.shown ++ decoder.posted) :
    ∃ frame : AVFrame, frame.Valid ∧ entry.2 = frame.yuvFrame := by
  have hworker := List.getElem?_eq_getElem (hplaying.known entry hentry)
  have hframes := (hplaying.serving _ _ hworker).frames
  have hmem : entry.2 ∈ decoder.framesOf entry.1 :=
    List.mem_map_of_mem (List.mem_filter.2 ⟨hentry, decide_eq_true rfl⟩)
  have hall := hframes ▸ List.mem_append_left _ hmem
  obtain ⟨frame, hframe, heq⟩ := List.mem_map.1 hall
  exact ⟨frame, decode_all_valid avcodec _ hconforms _ _ frame hframe, heq.symm⟩

theorem playing_deliver (hplaying : Playing avcodec decoder) :
    Playing avcodec decoder.deliver := by
  obtain ⟨streams, workers, shown, posted, widgets⟩ := decoder
  cases posted with
  | nil => exact hplaying
  | cons entry posted =>
      obtain ⟨index, frame⟩ := entry
      let decoder : MultiStreamDecoder σ := ⟨streams, workers, shown, (index, frame) :: posted, widgets⟩
      have hlog : decoder.deliver.shown ++ decoder.deliver.posted =
          decoder.shown ++ decoder.posted := List.append_assoc _ _ _
      refine ⟨fun asked worker hworker => ?_, fun entry hentry => ?_, fun widget => ?_,
        fun widget => ?_⟩
      · have hsame : decoder.deliver.framesOf asked = decoder.framesOf asked := by
          rw [MultiStreamDecoder.framesOf, hlog]
          rfl
        show Serving avcodec worker (decoder.deliver.framesOf asked)
        rw [hsame]
        exact hplaying.serving asked worker hworker
      · change entry ∈ decoder.deliver.shown ++ decoder.deliver.posted at hentry
        rw [hlog] at hentry
        exact hplaying.known entry hentry
      · show VideoOpenGLWidget.Sized (if decoder.widgetOf index = some widget then
          (widgets widget).updateFrame frame else widgets widget)
        split
        · exact hplaying.sized widget
        · exact hplaying.sized widget
      · show VideoOpenGLWidget.currentFrame (if decoder.widgetOf index = some widget then
          (widgets widget).updateFrame frame else widgets widget) =
            (decoder.deliver.shownOn widget).getLast?.getD .empty
        have hshown : decoder.deliver.shownOn widget = decoder.shownOn widget ++
            if decoder.widgetOf index = some widget then [frame] else [] := by
          show ((shown ++ [(index, frame)]).filter fun entry =>
            decoder.widgetOf entry.1 = some widget).map Prod.snd = _
          rw [List.filter_append, List.map_append]
          congr 1
          split
          · next hmine => simp [hmine]
          · next hother => simp [hother]
        rw [hshown]
        split
        · rw [List.getLast?_concat]
          rfl
        · rw [List.append_nil]
          exact hplaying.current widget

/-- What a widget paints: nothing, or the planes of the last frame that it has got. -/
theorem paint_widget (hconforms : avcodec.Conforms) (hplaying : Playing avcodec decoder)
    (widget : Nat) :
    ∃ painted draws, (decoder.widgets widget).paint = .ok (painted, draws) ∧ painted.Sized ∧
      painted.currentFrame = (decoder.widgets widget).currentFrame ∧
      ∀ last, (decoder.shownOn widget).getLast? = some last → ∃ frame : AVFrame,
        frame.Valid ∧ last = frame.yuvFrame ∧ draws = true ∧
          painted.textures = some frame.textures := by
  have hsized := hplaying.sized widget
  have hcurrent := hplaying.current widget
  cases hlast : (decoder.shownOn widget).getLast? with
  | none =>
      rw [hlast] at hcurrent
      obtain ⟨painted, hpaint, hempty, hafter⟩ := paint_empty hcurrent hsized
      refine ⟨painted, false, hpaint, hafter, ?_, nofun⟩
      rw [hempty, hcurrent]
      rfl
  | some last =>
      rw [hlast] at hcurrent
      obtain ⟨entry, hentry, rfl⟩ := List.mem_map.1 (List.mem_of_getLast? hlast)
      have hshown := List.mem_append_left decoder.posted (List.mem_filter.1 hentry).1
      obtain ⟨frame, hvalid, hframe⟩ := posted_valid hconforms hplaying hshown
      have hfound : (decoder.widgets widget).currentFrame = frame.yuvFrame :=
        hcurrent.trans hframe
      refine ⟨_, true, paint_frame hsized hvalid hfound, sized_painted frame, hfound.symm, ?_⟩
      intro other hother
      obtain rfl := Option.some.inj hother
      exact ⟨frame, hvalid, hframe, rfl, rfl⟩

theorem playing_paint (hconforms : avcodec.Conforms) (hplaying : Playing avcodec decoder)
    (widget : Nat) :
    ∃ following, decoder.paint widget = .ok following ∧ Playing avcodec following := by
  obtain ⟨painted, draws, hpaint, hsized, hcurrent, -⟩ := paint_widget hconforms hplaying widget
  unfold MultiStreamDecoder.paint
  rw [hpaint]
  refine ⟨_, rfl, hplaying.serving, hplaying.known, fun asked => ?_, fun asked => ?_⟩
  · show VideoOpenGLWidget.Sized (if asked = widget then painted else decoder.widgets asked)
    split
    · exact hsized
    · exact hplaying.sized asked
  · show VideoOpenGLWidget.currentFrame
        (if asked = widget then painted else decoder.widgets asked) =
      (decoder.shownOn asked).getLast?.getD .empty
    split
    · next hsame =>
        rw [hcurrent, hsame]
        exact hplaying.current widget
    · exact hplaying.current asked

theorem playing_step (hconforms : avcodec.Conforms) (hplaying : Playing avcodec decoder)
    (play : Play) :
    ∃ following, decoder.step avcodec play = .ok (following, []) ∧ Playing avcodec following := by
  cases play with
  | addStream name widget initCodec => exact ⟨_, rfl, playing_add hplaying name widget initCodec⟩
  | removeStream name => exact ⟨_, rfl, playing_remove hplaying name⟩
  | pushFrame name frame => exact ⟨_, rfl, playing_push hplaying name frame⟩
  | work index =>
      obtain ⟨following, hwork, hnext⟩ := playing_work hconforms hplaying index
      refine ⟨following, ?_, hnext⟩
      rw [MultiStreamDecoder.step, hwork]
      rfl
  | emit index => exact ⟨_, rfl, playing_emit hplaying index⟩
  | deliver => exact ⟨_, rfl, playing_deliver hplaying⟩
  | paint widget =>
      obtain ⟨following, hpaint, hnext⟩ := playing_paint hconforms hplaying widget
      refine ⟨following, ?_, hnext⟩
      rw [MultiStreamDecoder.step, hpaint]
      rfl

theorem playing_run (hconforms : avcodec.Conforms) (hplaying : Playing avcodec decoder)
    (plays : List Play) :
    ∃ final, run (MultiStreamDecoder.step avcodec) decoder plays = .ok (final, []) ∧
      Playing avcodec final := by
  induction plays generalizing decoder with
  | nil => exact ⟨decoder, rfl, hplaying⟩
  | cons play plays ih =>
      obtain ⟨following, hstep, hnext⟩ := playing_step hconforms hplaying play
      obtain ⟨final, hrun, hfinal⟩ := ih hnext
      exact ⟨final, run_cons_ok hstep hrun, hfinal⟩

/-- The frames that a worker's widget has got from it. -/
def MultiStreamDecoder.shownBy (decoder : MultiStreamDecoder σ) (index : Nat) : List YUVFrame :=
  (decoder.shown.filter fun entry => entry.1 = index).map Prod.snd

/-- Those that are under way. -/
def MultiStreamDecoder.waitingFor (decoder : MultiStreamDecoder σ) (index : Nat) :
    List YUVFrame :=
  (decoder.posted.filter fun entry => entry.1 = index).map Prod.snd

theorem framesOf_eq (decoder : MultiStreamDecoder σ) (index : Nat) :
    decoder.framesOf index = decoder.shownBy index ++ decoder.waitingFor index := by
  rw [MultiStreamDecoder.framesOf, List.filter_append, List.map_append]
  rfl

/-- What becomes of the packets of a worker, whatever happens to other streams: its widget has got
the first of the frames that a decoder of its own makes of them, in their order, and the others are
in the queues. -/
theorem played_in_order (hconforms : avcodec.Conforms) (plays : List Play) :
    ∃ final, run (MultiStreamDecoder.step avcodec) .start plays = .ok (final, []) ∧
      ∀ index worker, final.workers[index]? = some worker →
        (decodeAll avcodec worker.worker avcodec.start worker.pushed).map AVFrame.yuvFrame =
          final.shownBy index ++ (final.waitingFor index ++ (worker.emitting ++
            (decodeAll avcodec worker.worker worker.codec worker.packets).map
              AVFrame.yuvFrame)) := by
  obtain ⟨final, hrun, hplaying⟩ := playing_run hconforms (playing_start avcodec) plays
  refine ⟨final, hrun, fun index worker hworker => ?_⟩
  rw [(hplaying.serving index worker hworker).frames, framesOf_eq, List.append_assoc]

/-- A stream ends while its second picture waits for its thread, and begins anew. -/
def restarted : List Play :=
  [.addStream "door" 0 (true, true), .pushFrame "door" [0, 0, 0, 1, 0x65, 7],
    .pushFrame "door" [0, 0, 0, 1, 0x41, 8], .work 0, .removeStream "door", .deliver,
    .addStream "door" 0 (true, true), .pushFrame "door" [0, 0, 0, 1, 0x65, 9], .work 1, .emit 1]

theorem played_in_order_restarted :
    ∃ final, run (MultiStreamDecoder.step greyCodec) .start restarted = .ok (final, []) ∧
      ∀ index worker, final.workers[index]? = some worker →
        (decodeAll greyCodec worker.worker greyCodec.start worker.pushed).map AVFrame.yuvFrame =
          final.shownBy index ++ (final.waitingFor index ++ (worker.emitting ++
            (decodeAll greyCodec worker.worker worker.codec worker.packets).map
              AVFrame.yuvFrame)) :=
  played_in_order grey_conforms restarted

end Invariant

end CarDetect.Qt
