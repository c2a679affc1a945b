import CarDetect.Qt.MultiStreamDecoder

/-!
# The grid of widgets

`handleFrame` follows `MonitorClientWidget::handleFrame` of `car_detect_qt/monitorclientwidget.cpp`:
the first frame of a stream creates a widget in the next cell of the grid, and a worker for it.
`viewed_in_order` says what the widgets show, whatever order the threads take their steps in.
-/

namespace CarDetect.Qt

open BigEndian Machine
open Camera (PlaneFault)

/-- The members of `MonitorClientWidget` that `handleFrame` uses: the streams in the order in which
they got a widget, the cells of the widgets, and the decoders. -/
structure VideoGrid (σ : Type*) where
  videoWidgets : List QString
  cells : List (Nat × Nat)
  decoderMgr : MultiStreamDecoder σ

/-- A frame of the reassembler, or a step of one of the threads. -/
inductive View where
  | frame (streamName : QString) (frame : Bytes) (initCodec : Bool × Bool)
  | work (index : Nat)
  | emit (index : Nat)
  | deliver
  | paint (index : Nat)
deriving DecidableEq, Repr

namespace VideoGrid

section Steps

variable {σ : Type*}

/-- Before the first frame. -/
def start : VideoGrid σ := ⟨[], [], .start⟩

/-- A widget for a new stream. -/
def addWidget (avcodec : Avcodec σ) (grid : VideoGrid σ) (streamName : QString)
    (initCodec : Bool × Bool) : VideoGrid σ :=
  let idx := grid.videoWidgets.length
  { videoWidgets := grid.videoWidgets ++ [streamName]
    cells := grid.cells ++ [(idx / 2, idx % 2)]
    decoderMgr := grid.decoderMgr.addStream avcodec streamName idx initCodec }

/-- `handleFrame` -/
def handleFrame (avcodec : Avcodec σ) (grid : VideoGrid σ) (streamName : QString) (frame : Bytes)
    (initCodec : Bool × Bool) : VideoGrid σ :=
  let shown := if streamName ∈ grid.videoWidgets then grid
    else grid.addWidget avcodec streamName initCodec
  { shown with decoderMgr := shown.decoderMgr.pushFrame streamName frame }

/-- One step. -/
def step (avcodec : Avcodec σ) : Step (VideoGrid σ) View Empty PlaneFault
  | grid, .frame streamName frame initCodec =>
      .ok (grid.handleFrame avcodec streamName frame initCodec, [])
  | grid, .work index => (grid.decoderMgr.work avcodec index).map fun decoderMgr =>
      ({ grid with decoderMgr := decoderMgr }, [])
  | grid, .emit index => .ok ({ grid with decoderMgr := grid.decoderMgr.emit index }, [])
  | grid, .deliver => .ok ({ grid with decoderMgr := grid.decoderMgr.deliver }, [])
  | grid, .paint index => (grid.decoderMgr.paint index).map fun decoderMgr =>
      ({ grid with decoderMgr := decoderMgr }, [])

end Steps

end VideoGrid

section Views

variable {σ : Type*} {avcodec : Avcodec σ} {decoder following : MultiStreamDecoder σ}
  {grid : VideoGrid σ} {views : List View} {log : List (QString × Bytes)} {index : Nat}

/-- The frames that the reassembler emits. -/
def received (views : List View) : List (QString × Bytes) :=
  views.filterMap fun view => match view with
    | .frame streamName frame _ => some (streamName, frame)
    | _ => none

/-- The frames of a stream. -/
def framesFor (streamName : QString) (log : List (QString × Bytes)) : List Bytes :=
  (log.filter fun entry => entry.1 = streamName).map Prod.snd

/-- What no thread changes: who has which stream, and what the workers have got. -/
structure Kept (decoder following : MultiStreamDecoder σ) : Prop where
  streams : following.streams = decoder.streams
  workers : following.workers.map (fun worker => (worker.widget, worker.pushed)) =
    decoder.workers.map fun worker => (worker.widget, worker.pushed)

/-- The streams with their widgets and workers, all three in the same order. -/
structure Arranged (grid : VideoGrid σ) (log : List (QString × Bytes)) : Prop where
  nodup : grid.videoWidgets.Nodup
  streams : ∀ streamName index, grid.decoderMgr.streams streamName = some index ↔
    grid.videoWidgets[index]? = some streamName
  workers : grid.decoderMgr.workers.map (fun worker => (worker.widget, worker.pushed)) =
    grid.videoWidgets.mapIdx fun index streamName => (index, framesFor streamName log)
  unknown : ∀ entry ∈ log, entry.1 ∈ grid.videoWidgets
  cells : grid.cells = (List.range grid.videoWidgets.length).map fun idx => (idx / 2, idx % 2)

theorem kept_set {worker changed : StreamWorker σ}
    (hworker : decoder.workers[index]? = some worker) (hwidget : changed.widget = worker.widget)
    (hpushed : changed.pushed = worker.pushed) (posted : List (Nat × YUVFrame)) :
    Kept decoder { decoder with
      workers := decoder.workers.set index changed
      posted := posted } := by
  refine ⟨rfl, List.ext_getElem? fun asked => ?_⟩
  show ((decoder.workers.set index changed).map _)[asked]? = _
  rw [List.getElem?_map, List.getElem?_map]
  by_cases hsame : index = asked
  · subst hsame
    rw [List.getElem?_set_self (List.getElem?_eq_some_iff.1 hworker).1, hworker, Option.map_some,
      Option.map_some, hwidget, hpushed]
  · rw [List.getElem?_set_ne hsame]

theorem kept_work (hwork : decoder.work avcodec index = .ok following) :
    Kept decoder following := by
  unfold MultiStreamDecoder.work at hwork
  split at hwork
  · next hworker =>
      split at hwork
      · cases hwork
      · cases hwork
        refine kept_set hworker ?_ ?_ decoder.posted
        · rfl
        · rfl
  · cases hwork
    exact ⟨rfl, rfl⟩

theorem kept_emit (decoder : MultiStreamDecoder σ) (index : Nat) :
    Kept decoder (decoder.emit index) := by
  unfold MultiStreamDecoder.emit
  split
  · next hworker =>
      refine kept_set hworker ?_ ?_ _
      · rfl
      · rfl
  · exact ⟨rfl, rfl⟩

theorem kept_deliver (decoder : MultiStreamDecoder σ) : Kept decoder decoder.deliver := by
  unfold MultiStreamDecoder.deliver
  split
  · exact ⟨rfl, rfl⟩
  · exact ⟨rfl, rfl⟩

theorem kept_paint (hpaint : decoder.paint index = .ok following) : Kept decoder following := by
  unfold MultiStreamDecoder.paint at hpaint
  split at hpaint
  · cases hpaint
  · cases hpaint
    exact ⟨rfl, rfl⟩

theorem arranged_kept (harranged : Arranged grid log) (hkept : Kept grid.decoderMgr following) :
    Arranged { grid with decoderMgr := following } log where
  nodup := harranged.nodup
  streams streamName index := by
    rw [hkept.streams]
    exact harranged.streams streamName index
  workers := hkept.workers.trans harranged.workers
  unknown := harranged.unknown
  cells := harranged.cells

theorem framesFor_append (streamName other : QString) (log : List (QString × Bytes))
    (frame : Bytes) : framesFor streamName (log ++ [(other, frame)]) =
      framesFor streamName log ++ if other = streamName then [frame] else [] := by
  rw [framesFor, List.filter_append, List.map_append]
  congr 1
  split
  · next hsame => simp [hsame]
  · next hother => simp [hother]

/-- A stream that has no frames yet gets a widget. -/
theorem arranged_add (harranged : Arranged grid log) {streamName : QString}
    (hnew : streamName ∉ grid.videoWidgets) (initCodec : Bool × Bool) :
    Arranged (grid.addWidget avcodec streamName initCodec) log := by
  have hnone : grid.decoderMgr.streams streamName = none := by
    refine Option.eq_none_iff_forall_ne_some.2 fun index hindex => hnew ?_
    exact List.mem_of_getElem? ((harranged.streams streamName index).1 hindex)
  have hlength : grid.decoderMgr.workers.length = grid.videoWidgets.length := by
    have hsame := congrArg List.length harranged.workers
    rwa [List.length_map, List.length_mapIdx] at hsame
  have hframes : framesFor streamName log = [] := by
    refine List.map_eq_nil_iff.2 (List.filter_eq_nil_iff.2 fun entry hentry hsame => hnew ?_)
    rw [← of_decide_eq_true hsame]
    exact harranged.unknown entry hentry
  unfold VideoGrid.addWidget MultiStreamDecoder.addStream
  simp only [hnone, Option.isSome_none, Bool.false_eq_true, if_false]
  refine ⟨?_, fun asked index => ?_, ?_, fun entry hentry => ?_, ?_⟩
  · refine List.nodup_append.2 ⟨harranged.nodup, List.pairwise_singleton _ _, ?_⟩
    intro name hname other hother hsame
    rw [List.mem_singleton.1 hother] at hsame
    exact hnew (hsame ▸ hname)
  · show (if asked = streamName then some grid.decoderMgr.workers.length
      else grid.decoderMgr.streams asked) = some index ↔
        (grid.videoWidgets ++ [streamName])[index]? = some asked
    rw [hlength]
    by_cases hsame : asked = streamName
    · subst hsame
      rw [if_pos rfl, Option.some.injEq]
      refine ⟨fun hindex => ?_, fun hfound => ?_⟩
      · rw [← hindex, List.getElem?_concat_length]
      · by_contra hother
        rcases Nat.lt_or_gt_of_ne hother with hgt | hlt
        · have hbeyond : (grid.videoWidgets ++ [asked]).length ≤ index := by
            rw [List.length_append, List.length_singleton]
            omega
          rw [List.getElem?_eq_none hbeyond] at hfound
          cases hfound
        · rw [List.getElem?_append_left hlt] at hfound
          exact hnew (List.mem_of_getElem? hfound)
    · rw [if_neg hsame, harranged.streams]
      rcases Nat.lt_or_ge index grid.videoWidgets.length with hlt | hge
      · rw [List.getElem?_append_left hlt]
      · rw [List.getElem?_append_right hge, List.getElem?_eq_none hge]
        refine ⟨nofun, fun hfound => absurd ?_ hsame⟩
        exact List.mem_singleton.1 (List.mem_of_getElem? hfound)
  · show (grid.decoderMgr.workers ++ [_]).map _ = (grid.videoWidgets ++ [streamName]).mapIdx _
    rw [List.map_append, harranged.workers, List.mapIdx_append]
    simp [StreamWorker.start, hframes]
  · exact List.mem_append_left _ (harranged.unknown entry hentry)
  · show grid.cells ++ [_] = (List.range (grid.videoWidgets ++ [streamName]).length).map _
    rw [List.length_append, harranged.cells, List.length_singleton, List.range_succ,
      List.map_append]
    rfl

/-- A frame reaches the worker of its stream. -/
theorem arranged_push (harranged : Arranged grid log) {streamName : QString}
    (hknown : streamName ∈ grid.videoWidgets) (frame : Bytes) :
    Arranged { grid with decoderMgr := grid.decoderMgr.pushFrame streamName frame }
      (log ++ [(streamName, frame)]) := by
  obtain ⟨index, hindex⟩ := List.mem_iff_getElem?.1 hknown
  have hstream := (harranged.streams streamName index).2 hindex
  have hentry := congrArg (fun workers => workers[index]?) harranged.workers
  simp only [List.getElem?_map, List.getElem?_mapIdx, hindex, Option.map_some] at hentry
  obtain ⟨worker, hworker, hpair⟩ := Option.map_eq_some_iff.1 hentry
  obtain ⟨hwidget, hpushed⟩ := Prod.mk.inj hpair
  unfold MultiStreamDecoder.pushFrame MultiStreamDecoder.invokeMethod
  simp only [hstream, hworker]
  refine ⟨harranged.nodup, harranged.streams, List.ext_getElem? fun asked => ?_,
    fun entry hmem => ?_, harranged.cells⟩
  · have hlt := (List.getElem?_eq_some_iff.1 hworker).1
    show ((grid.decoderMgr.workers.set index _).map _)[asked]? = _
    rw [List.getElem?_map, List.getElem?_mapIdx]
    by_cases hsame : index = asked
    · subst hsame
      rw [List.getElem?_set_self hlt, hindex, Option.map_some, Option.map_some, framesFor_append,
        if_pos rfl, hwidget, hpushed]
    · have hold := congrArg (fun workers => workers[asked]?) harranged.workers
      simp only [List.getElem?_map, List.getElem?_mapIdx] at hold
      rw [List.getElem?_set_ne hsame, hold]
      refine Option.map_congr fun other hother => ?_
      have hdiffer : streamName ≠ other := by
        rintro rfl
        exact hsame (Option.some.inj (hstream.symm.trans
          ((harranged.streams streamName asked).2 hother)))
      rw [framesFor_append, if_neg hdiffer, List.append_nil]
  · rcases List.mem_append.1 hmem with hold | hnew
    · exact harranged.unknown entry hold
    · rw [List.mem_singleton.1 hnew]
      exact hknown

theorem arranged_frame (harranged : Arranged grid log) (streamName : QString) (frame : Bytes)
    (initCodec : Bool × Bool) :
    Arranged (grid.handleFrame avcodec streamName frame initCodec)
      (log ++ [(streamName, frame)]) := by
  unfold VideoGrid.handleFrame
  by_cases hknown : streamName ∈ grid.videoWidgets
  · simp only [if_pos hknown]
    exact arranged_push harranged hknown frame
  · simp only [if_neg hknown]
    exact arranged_push (arranged_add harranged hknown initCodec)
      (List.mem_append_right _ (List.mem_singleton_self _)) frame

/-- What holds of the grid when these frames have been received. -/
structure Viewing (avcodec : Avcodec σ) (grid : VideoGrid σ) (log : List (QString × Bytes)) :
    Prop where
  playing : Playing avcodec grid.decoderMgr
  arranged : Arranged grid log

theorem viewing_start (avcodec : Avcodec σ) : Viewing avcodec VideoGrid.start [] where
  playing := playing_start avcodec
  arranged := ⟨List.nodup_nil, fun _ _ => by simp [VideoGrid.start, MultiStreamDecoder.start], rfl,
    nofun, rfl⟩

theorem viewing_step (hconforms : avcodec.Conforms) (hviewing : Viewing avcodec grid log)
    (view : View) :
    ∃ following, grid.step avcodec view = .ok (following, []) ∧
      Viewing avcodec following (log ++ received [view]) := by
  obtain ⟨hplaying, harranged⟩ := hviewing
  have hquiet : log ++ [] = log := List.append_nil log
  cases view with
  | frame streamName frame initCodec =>
      refine ⟨_, rfl, ?_, arranged_frame harranged streamName frame initCodec⟩
      unfold VideoGrid.handleFrame
      by_cases hknown : streamName ∈ grid.videoWidgets
      · simp only [if_pos hknown]
        exact playing_push hplaying streamName frame
      · simp only [if_neg hknown]
        exact playing_push (playing_add hplaying streamName _ initCodec) streamName frame
  | work index =>
      obtain ⟨following, hwork, hnext⟩ := playing_work hconforms hplaying index
      refine ⟨{ grid with decoderMgr := following }, ?_, hnext, ?_⟩
      · rw [VideoGrid.step, hwork]
        rfl
      · exact hquiet.symm ▸ arranged_kept harranged (kept_work hwork)
  | emit index =>
      exact ⟨_, rfl, playing_emit hplaying index,
        hquiet.symm ▸ arranged_kept harranged (kept_emit _ index)⟩
  | deliver =>
      exact ⟨_, rfl, playing_deliver hplaying,
        hquiet.symm ▸ arranged_kept harranged (kept_deliver _)⟩
  | paint index =>
      obtain ⟨following, hpaint, hnext⟩ := playing_paint hconforms hplaying index
      refine ⟨{ grid with decoderMgr := following }, ?_, hnext, ?_⟩
      · rw [VideoGrid.step, hpaint]
        rfl
      · exact hquiet.symm ▸ arranged_kept harranged (kept_paint hpaint)

theorem viewing_run (hconforms : avcodec.Conforms) (hviewing : Viewing avcodec grid log)
    (views : List View) :
    ∃ final, run (VideoGrid.step avcodec) grid views = .ok (final, []) ∧
      Viewing avcodec final (log ++ received views) := by
  induction views generalizing grid log with
  | nil =>
      refine ⟨grid, rfl, ?_⟩
      show Viewing avcodec grid (log ++ [])
      rwa [List.append_nil]
  | cons view views ih =>
      obtain ⟨following, hstep, hnext⟩ := viewing_step hconforms hviewing view
      obtain ⟨final, hrun, hfinal⟩ := ih hnext
      have hsplit : received (view :: views) = received [view] ++ received views :=
        @List.filterMap_append _ _ [view] views _
      refine ⟨final, run_cons_ok hstep hrun, ?_⟩
      rw [hsplit, ← List.append_assoc]
      exact hfinal

/-- The workers are the ones of the widgets. -/
theorem worker_of (harranged : Arranged grid log) {streamName : QString}
    (hindex : grid.videoWidgets[index]? = some streamName) :
    ∃ worker, grid.decoderMgr.workers[index]? = some worker ∧ worker.widget = index ∧
      worker.pushed = framesFor streamName log := by
  have hentry := congrArg (fun workers => workers[index]?) harranged.workers
  simp only [List.getElem?_map, List.getElem?_mapIdx, hindex, Option.map_some] at hentry
  obtain ⟨worker, hworker, hpair⟩ := Option.map_eq_some_iff.1 hentry
  exact ⟨worker, hworker, Prod.mk.inj hpair⟩

theorem shownOn_eq (hviewing : Viewing avcodec grid log) (index : Nat) :
    grid.decoderMgr.shownOn index = grid.decoderMgr.shownBy index := by
  have hlength : grid.decoderMgr.workers.length = grid.videoWidgets.length := by
    have hsame := congrArg List.length hviewing.arranged.workers
    rwa [List.length_map, List.length_mapIdx] at hsame
  refine congrArg (List.map Prod.snd) (List.filter_congr fun entry hentry => ?_)
  have hknown := hviewing.playing.known entry (List.mem_append_left _ hentry)
  rw [hlength] at hknown
  obtain ⟨worker, hworker, hwidget, -⟩ :=
    worker_of hviewing.arranged (List.getElem?_eq_getElem hknown)
  have hmine : grid.decoderMgr.widgetOf entry.1 = some entry.1 := by
    rw [MultiStreamDecoder.widgetOf, hworker, Option.map_some, hwidget]
  simp only [hmine, Option.some.injEq]

/-- What becomes of the frames of a stream: its widget has a cell of its own, has got the first of
the pictures that a decoder of its own makes of them, in their order, and paints the last of these,
with all three planes. -/
structure Viewed (avcodec : Avcodec σ) (grid : VideoGrid σ) (index : Nat) (frames : List Bytes) :
    Prop where
  cell : grid.cells[index]? = some (index / 2, index % 2)
  order : ∃ worker, grid.decoderMgr.workers[index]? = some worker ∧
    (decodeAll avcodec worker.worker avcodec.start frames).map AVFrame.yuvFrame =
      grid.decoderMgr.shownOn index ++ (grid.decoderMgr.waitingFor index ++ (worker.emitting ++
        (decodeAll avcodec worker.worker worker.codec worker.packets).map AVFrame.yuvFrame))
  paints : ∃ painted draws, (grid.decoderMgr.widgets index).paint = .ok (painted, draws) ∧
    ∀ last, (grid.decoderMgr.shownOn index).getLast? = some last → ∃ frame : AVFrame,
      frame.Valid ∧ last = frame.yuvFrame ∧ draws = true ∧
        painted.textures = some frame.textures

theorem viewed_of (hconforms : avcodec.Conforms) (hviewing : Viewing avcodec grid log)
    {streamName : QString} (hindex : grid.videoWidgets[index]? = some streamName) :
    Viewed avcodec grid index (framesFor streamName log) := by
  obtain ⟨worker, hworker, -, hpushed⟩ := worker_of hviewing.arranged hindex
  obtain ⟨painted, draws, hpaint, -, -, hlast⟩ := paint_widget hconforms hviewing.playing index
  refine ⟨?_, ⟨worker, hworker, ?_⟩, painted, draws, hpaint, hlast⟩
  · have hlt := (List.getElem?_eq_some_iff.1 hindex).1
    rw [hviewing.arranged.cells, List.getElem?_map, List.getElem?_range hlt]
    rfl
  · rw [← hpushed, (hviewing.playing.serving index worker hworker).frames, framesOf_eq,
      shownOn_eq hviewing, List.append_assoc]

/-- Whatever order the threads take their steps in, every stream with a frame has one widget, and
what the widget shows is made of the frames of this stream alone. -/
theorem viewed_in_order (hconforms : avcodec.Conforms) (views : List View) :
    ∃ final, run (VideoGrid.step avcodec) .start views = .ok (final, []) ∧
      final.videoWidgets.Nodup ∧ (∀ entry ∈ received views, entry.1 ∈ final.videoWidgets) ∧
      ∀ index streamName, final.videoWidgets[index]? = some streamName →
        Viewed avcodec final index (framesFor streamName (received views)) := by
  obtain ⟨final, hrun, hviewing⟩ := viewing_run hconforms (viewing_start avcodec) views
  rw [List.nil_append] at hviewing
  exact ⟨final, hrun, hviewing.arranged.nodup, hviewing.arranged.unknown,
    fun index streamName hindex => viewed_of hconforms hviewing hindex⟩

/-- Frames of two cameras, of which the second one is faster. -/
def twoCameras : List View :=
  [.frame "door" [0, 0, 0, 1, 0x67, 0x42] (true, true),
    .frame "door" [0, 0, 0, 1, 0x65, 7] (true, true),
    .frame "yard" [0, 0, 0, 1, 0x65, 9] (true, true),
    .work 1, .emit 1, .work 0, .deliver, .work 0, .paint 1, .emit 0, .paint 0]

theorem viewed_in_order_cameras :
    ∃ final, run (VideoGrid.step greyCodec) .start twoCameras = .ok (final, []) ∧
      final.videoWidgets.Nodup ∧
      (∀ entry ∈ received twoCameras, entry.1 ∈ final.videoWidgets) ∧
      ∀ index streamName, final.videoWidgets[index]? = some streamName →
        Viewed greyCodec final index (framesFor streamName (received twoCameras)) :=
  viewed_in_order grey_conforms twoCameras

end Views

end CarDetect.Qt
