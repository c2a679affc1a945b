import CarDetect.Qt.H264Decoder

/-!
# The widget of a stream

`updateFrame` and `paintGL` follow `VideoOpenGLWidget` in `car_detect_qt/videoopenglwidget.cpp`. A
texture has a size and the pixels that were last uploaded, and an upload reads as many bytes as the
texture has pixels. `paint_frame` says that what is painted are the planes of the decoded frame.
-/

namespace CarDetect.Qt

open BigEndian StridedPlane
open Camera (PlaneFault rowOffset row_offset_ok)

/-- `QOpenGLTexture`: a size, and what has been uploaded. -/
structure Texture where
  width : Nat
  height : Nat
  pixels : Option Bytes
deriving DecidableEq, Repr

/-- `m_textureY`, `m_textureU` and `m_textureV` -/
structure Textures where
  y : Texture
  u : Texture
  v : Texture
deriving DecidableEq, Repr

/-- `VideoOpenGLWidget`. There are no textures and no shaders before `initializeGL`. -/
structure VideoOpenGLWidget where
  currentFrame : YUVFrame
  width : Nat
  height : Nat
  textures : Option Textures
deriving DecidableEq, Repr

/-- `createTextures` -/
def createTextures (width height : Nat) : Textures where
  y := ⟨width, height, none⟩
  u := ⟨width / 2, height / 2, none⟩
  v := ⟨width / 2, height / 2, none⟩

/-- `QOpenGLTexture::setData` with a pointer into a buffer. -/
def Texture.setData (texture : Texture) (buffer : Bytes) (offset : Nat) :
    Except PlaneFault Texture :=
  if offset + texture.width * texture.height ≤ buffer.length then
    .ok { texture with pixels := some ((buffer.drop offset).take (texture.width * texture.height)) }
  else .error .outOfBounds

namespace VideoOpenGLWidget

/-- A new widget. -/
def start : VideoOpenGLWidget := ⟨.empty, 0, 0, none⟩

/-- `initializeGL` -/
def initializeGL (widget : VideoOpenGLWidget) : VideoOpenGLWidget :=
  { widget with textures := some (createTextures 16 16) }

/-- `updateFrame` -/
def updateFrame (widget : VideoOpenGLWidget) (frame : YUVFrame) : VideoOpenGLWidget :=
  { widget with currentFrame := frame }

/-- The uploads of `paintGL`. -/
def upload (textures : Textures) (data : Bytes) (w h : Nat) : Except PlaneFault Textures := do
  let ySize ← rowOffset w h
  let uvSize ← rowOffset (w / 2) (h / 2)
  let y ← textures.y.setData data 0
  let u ← textures.u.setData data ySize
  let v ← textures.v.setData data (ySize + uvSize)
  pure ⟨y, u, v⟩

/-- The textures that `paintGL` uploads to: new ones, when the size is not that of the last frame. -/
def fitted (widget : VideoOpenGLWidget) (textures : Textures) : Textures :=
  if widget.currentFrame.width ≠ widget.width ∨ widget.currentFrame.height ≠ widget.height then
    createTextures widget.currentFrame.width widget.currentFrame.height
  else textures

/-- `paintGL`, and whether it draws. -/
def paintGL (widget : VideoOpenGLWidget) : Except PlaneFault (VideoOpenGLWidget × Bool) :=
  match widget.currentFrame.data, widget.textures with
  | some data, some textures =>
      match upload (widget.fitted textures) data widget.currentFrame.width
          widget.currentFrame.height with
      | .error fault => .error fault
      | .ok uploaded =>
          .ok ({ widget with
            width := widget.currentFrame.width
            height := widget.currentFrame.height
            textures := some uploaded }, true)
  | _, _ => .ok (widget, false)

/-- What Qt does to paint a widget: `initializeGL` comes before the first `paintGL`. -/
def paint (widget : VideoOpenGLWidget) : Except PlaneFault (VideoOpenGLWidget × Bool) :=
  if widget.textures = none then widget.initializeGL.paintGL else widget.paintGL

end VideoOpenGLWidget

/-! ## What is painted -/

/-- Textures with the planes of a frame. -/
def AVFrame.textures (frame : AVFrame) : Textures :=
  let w := frame.width
  let h := frame.height
  ⟨⟨w, h, some (planeOf frame.planes.y w h)⟩,
    ⟨w / 2, h / 2, some (planeOf frame.planes.u (w / 2) (h / 2))⟩,
    ⟨w / 2, h / 2, some (planeOf frame.planes.v (w / 2) (h / 2))⟩⟩

/-- A frame that libavcodec can return. -/
structure AVFrame.Valid (frame : AVFrame) : Prop extends frame.Shaped where
  width : 0 < frame.width
  height : 0 < frame.height

/-- The sizes of textures. -/
def Textures.HaveSize (textures : Textures) (width height : Nat) : Prop :=
  (textures.y.width = width ∧ textures.y.height = height) ∧
    (textures.u.width = width / 2 ∧ textures.u.height = height / 2) ∧
      textures.v.width = width / 2 ∧ textures.v.height = height / 2

/-- The textures of a widget have the size it has noted, if it has noted one. -/
def VideoOpenGLWidget.Sized (widget : VideoOpenGLWidget) : Prop :=
  widget.width = 0 ∨ ∃ textures, widget.textures = some textures ∧
    textures.HaveSize widget.width widget.height

section Paint

variable {widget : VideoOpenGLWidget} {textures : Textures} {frame : AVFrame} {texture : Texture}

theorem set_data_eq {first second third : Bytes}
    (hsize : texture.width * texture.height = second.length) :
    texture.setData (first ++ second ++ third) first.length =
      .ok { texture with pixels := some second } := by
  unfold Texture.setData
  rw [hsize, if_pos, List.append_assoc, List.drop_left, List.take_left]
  simp only [List.length_append]
  omega

/-- The three uploads read the three planes, and not a byte behind them. -/
theorem upload_frame (hvalid : frame.Valid)
    (hsize : textures.HaveSize frame.width frame.height) :
    VideoOpenGLWidget.upload textures
        (planeOf frame.planes.y frame.width frame.height ++
          planeOf frame.planes.u (frame.width / 2) (frame.height / 2) ++
            planeOf frame.planes.v (frame.width / 2) (frame.height / 2))
        frame.width frame.height = .ok frame.textures := by
  obtain ⟨⟨hyWidth, hyHeight⟩, ⟨huWidth, huHeight⟩, hvWidth, hvHeight⟩ := hsize
  have hlengthY := length_planeOf hvalid.y
  have hlengthU := length_planeOf hvalid.u
  have hlengthV := length_planeOf hvalid.v
  have hbelow := hvalid.size
  have hySize : rowOffset frame.width frame.height = .ok (frame.width * frame.height) :=
    row_offset_ok (by omega)
  have huvSize : rowOffset (frame.width / 2) (frame.height / 2) =
      .ok (frame.width / 2 * (frame.height / 2)) := row_offset_ok (by omega)
  have hy := @set_data_eq textures.y [] (planeOf frame.planes.y frame.width frame.height)
    (planeOf frame.planes.u (frame.width / 2) (frame.height / 2) ++
      planeOf frame.planes.v (frame.width / 2) (frame.height / 2))
    (by rw [hyWidth, hyHeight, hlengthY])
  have hu := @set_data_eq textures.u (planeOf frame.planes.y frame.width frame.height)
    (planeOf frame.planes.u (frame.width / 2) (frame.height / 2))
    (planeOf frame.planes.v (frame.width / 2) (frame.height / 2))
    (by rw [huWidth, huHeight, hlengthU])
  have hv := @set_data_eq textures.v
    (planeOf frame.planes.y frame.width frame.height ++
      planeOf frame.planes.u (frame.width / 2) (frame.height / 2))
    (planeOf frame.planes.v (frame.width / 2) (frame.height / 2)) []
    (by rw [hvWidth, hvHeight, hlengthV])
  rw [List.nil_append, List.length_nil, ← List.append_assoc] at hy
  rw [hlengthY] at hu
  rw [List.append_nil, List.length_append, hlengthY, hlengthU] at hv
  simp only [VideoOpenGLWidget.upload, hySize, huvSize, hy, hu, hv, bind, Except.bind]
  rw [hyWidth, hyHeight, huWidth, huHeight, hvWidth, hvHeight]
  rfl

theorem fitted_size (hsized : widget.Sized) (hvalid : frame.Valid)
    (hframe : widget.currentFrame = frame.yuvFrame) (htextures : widget.textures = some textures) :
    (widget.fitted textures).HaveSize frame.width frame.height := by
  have hwidth : widget.currentFrame.width = frame.width := congrArg YUVFrame.width hframe
  have hheight : widget.currentFrame.height = frame.height := congrArg YUVFrame.height hframe
  unfold VideoOpenGLWidget.fitted
  rw [hwidth, hheight]
  by_cases hnew : frame.width ≠ widget.width ∨ frame.height ≠ widget.height
  · rw [if_pos hnew]
    exact ⟨⟨rfl, rfl⟩, ⟨rfl, rfl⟩, rfl, rfl⟩
  · obtain ⟨hsameWidth, hsameHeight⟩ := not_or.1 hnew
    rw [if_neg hnew, not_not.1 hsameWidth, not_not.1 hsameHeight]
    rcases hsized with hzero | ⟨noted, hnoted, hsize⟩
    · -- a size of 0 is no frame's
      have hpos := hvalid.width
      omega
    · obtain rfl : textures = noted := Option.some.inj (htextures.symm.trans hnoted)
      exact hsize

/-- A widget paints the planes of the frame it has, whatever size the frame before had. -/
theorem paint_frame (hsized : widget.Sized) (hvalid : frame.Valid)
    (hframe : widget.currentFrame = frame.yuvFrame) :
    widget.paint = .ok (⟨frame.yuvFrame, frame.width, frame.height, some frame.textures⟩, true) := by
  obtain ⟨currentFrame, width, height, noted⟩ := widget
  obtain rfl : currentFrame = frame.yuvFrame := hframe
  have hpaint (noted : Textures)
      (hsized : VideoOpenGLWidget.Sized ⟨frame.yuvFrame, width, height, some noted⟩) :
      VideoOpenGLWidget.paintGL ⟨frame.yuvFrame, width, height, some noted⟩ =
        .ok (⟨frame.yuvFrame, frame.width, frame.height, some frame.textures⟩, true) := by
    have hupload := upload_frame hvalid (fitted_size hsized hvalid rfl rfl)
    unfold VideoOpenGLWidget.paintGL
    simp only [AVFrame.yuvFrame] at hupload ⊢
    simp only [hupload]
  unfold VideoOpenGLWidget.paint
  cases noted with
  | none =>
      have hzero : width = 0 := by
        rcases hsized with hzero | ⟨textures, hnone, -⟩
        · exact hzero
        · cases hnone
      rw [if_pos rfl]
      exact hpaint _ (Or.inl hzero)
  | some noted =>
      rw [if_neg (by simp)]
      exact hpaint noted hsized

/-- A widget without a frame stays black. -/
theorem paint_empty (hframe : widget.currentFrame = .empty) (hsized : widget.Sized) :
    ∃ final, widget.paint = .ok (final, false) ∧ final.currentFrame = .empty ∧ final.Sized := by
  obtain ⟨currentFrame, width, height, noted⟩ := widget
  obtain rfl : currentFrame = .empty := hframe
  unfold VideoOpenGLWidget.paint
  cases noted with
  | none =>
      rcases hsized with hzero | ⟨textures, hnone, -⟩
      · exact ⟨_, rfl, rfl, Or.inl hzero⟩
      · cases hnone
  | some noted => exact ⟨_, rfl, rfl, hsized⟩

theorem sized_painted (frame : AVFrame) :
    VideoOpenGLWidget.Sized
      ⟨frame.yuvFrame, frame.width, frame.height, some frame.textures⟩ :=
  Or.inr ⟨frame.textures, rfl, ⟨rfl, rfl⟩, ⟨rfl, rfl⟩, rfl, rfl⟩

/-- The pixels of a texture are the samples of the plane. -/
theorem sample_planeOf {plane : Camera.Plane} {width rows x y : Nat}
    (hplane : Sampled plane width rows) (hx : x < width) (hy : y < rows) :
    (planeOf plane width rows)[y * width + x]? = some (plane.sample x y) := by
  have hrow := hplane.inside y hy
  have hlt : y * plane.stride + x < plane.data.length := by omega
  rw [planeOf, getElem?_packed hplane.inside hx hy, Camera.Plane.sample,
    List.getD_eq_getElem?_getD, List.getElem?_eq_getElem hlt]
  rfl

end Paint

end CarDetect.Qt
