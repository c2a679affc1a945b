import CarDetect.Lib.BigEndian
import CarDetect.Lib.CountedLoop
import CarDetect.Lib.StridedPlane

/-!
# From 4:2:2 to 4:2:0

`yuv422pToYuv420p` follows `yuv422p_to_yuv420p` of `camera/v4l2.c`: the rows of the luma plane are
copied, and a chroma sample is the mean of the samples in two rows. A read or a write outside of a
plane is a fault, and so is an offset that an `int` does not hold. `converted_iff` says for which
sizes the planes are converted without one.
-/

namespace CarDetect.Camera

open BigEndian CountedLoop StridedPlane

/-- How the conversion goes wrong. -/
inductive PlaneFault where
  | overflow
  | outOfBounds
deriving DecidableEq, Repr

/-- A plane of a picture: what its pointer points to, and its stride. -/
structure Plane where
  data : Bytes
  stride : Nat
deriving DecidableEq, Repr

/-- The planes of a picture. -/
structure Yuv where
  y : Plane
  u : Plane
  v : Plane
deriving DecidableEq, Repr

/-- The sample in a column and a row. -/
def Plane.sample (plane : Plane) (x y : Nat) : UInt8 := plane.data.getD (y * plane.stride + x) 0

/-- A plane of `stride * rows` bytes whose rows hold this many samples. -/
def Plane.Holds (plane : Plane) (width rows : Nat) : Prop :=
  width ≤ plane.stride ∧ plane.data.length = plane.stride * rows

instance (plane : Plane) (width rows : Nat) : Decidable (plane.Holds width rows) :=
  inferInstanceAs (Decidable (_ ∧ _))

/-- A row's number times the stride, as an `int`. Behind the largest one C promises nothing. -/
def rowOffset (row stride : Nat) : Except PlaneFault Nat :=
  if row * stride < 2 ^ 31 then .ok (row * stride) else .error .overflow

/-- `src[i]` -/
def readAt (src : Bytes) (i : Nat) : Except PlaneFault UInt8 :=
  match src[i]? with
  | some byte => .ok byte
  | none => .error .outOfBounds

/-- `dst[i] = byte` -/
def writeAt (dst : Bytes) (i : Nat) (byte : UInt8) : Except PlaneFault Bytes :=
  if i < dst.length then .ok (dst.set i byte) else .error .outOfBounds

/-- `memcpy(dst + dstOffset, src + srcOffset, n)` -/
def memcpy (dst : Bytes) (dstOffset : Nat) (src : Bytes) (srcOffset n : Nat) :
    Except PlaneFault Bytes :=
  if srcOffset + n ≤ src.length ∧ dstOffset + n ≤ dst.length then
    .ok (overwrite dstOffset ((src.drop srcOffset).take n) dst)
  else .error .outOfBounds

/-- `(a + b + 1) >> 1`, computed as an `int` and stored as a byte. -/
def roundedMean (a b : UInt8) : UInt8 := UInt8.ofNat ((a.toNat + b.toNat + 1) >>> 1)

/-- A row of the luma plane. -/
def copyRow (src : Plane) (strideY420 width y : Nat) (y420 : Bytes) : Except PlaneFault Bytes := do
  let dstOffset ← rowOffset y strideY420
  let srcOffset ← rowOffset y src.stride
  memcpy y420 dstOffset src.data srcOffset width

/-- `dst[x] = (src0[x] + src1[x] + 1) >> 1` -/
def meanAt (src : Bytes) (src0 src1 dstOffset x : Nat) (dst : Bytes) : Except PlaneFault Bytes := do
  let a ← readAt src (src0 + x)
  let b ← readAt src (src1 + x)
  writeAt dst (dstOffset + x) (roundedMean a b)

/-- A sample of the two chroma planes. -/
def chromaSample (src : Yuv) (uSrc0 uSrc1 uDst vSrc0 vSrc1 vDst x : Nat) (chroma : Bytes × Bytes) :
    Except PlaneFault (Bytes × Bytes) := do
  let u ← meanAt src.u.data uSrc0 uSrc1 uDst x chroma.1
  let v ← meanAt src.v.data vSrc0 vSrc1 vDst x chroma.2
  pure (u, v)

/-- A row of the two chroma planes. -/
def chromaRow (src dst : Yuv) (chromaWidth y : Nat) (chroma : Bytes × Bytes) :
    Except PlaneFault (Bytes × Bytes) := do
  let uSrc0 ← rowOffset (2 * y) src.u.stride
  let uSrc1 ← rowOffset (2 * y + 1) src.u.stride
  let uDst ← rowOffset y dst.u.stride
  let vSrc0 ← rowOffset (2 * y) src.v.stride
  let vSrc1 ← rowOffset (2 * y + 1) src.v.stride
  let vDst ← rowOffset y dst.v.stride
  forUpTo (chromaSample src uSrc0 uSrc1 uDst vSrc0 vSrc1 vDst) chromaWidth chroma

/-- `yuv422p_to_yuv420p` -/
def yuv422pToYuv420p (src dst : Yuv) (width height : Nat) : Except PlaneFault Yuv := do
  let y ← forUpTo (copyRow src.y dst.y.stride width) height dst.y.data
  let chroma ← forUpTo (chromaRow src dst (width / 2)) (height / 2) (dst.u.data, dst.v.data)
  pure ⟨⟨y, dst.y.stride⟩, ⟨chroma.1, dst.u.stride⟩, ⟨chroma.2, dst.v.stride⟩⟩

/-! ## The property -/

/-- Planes of the sizes that a picture of this width and height has. -/
structure Shaped (src dst : Yuv) (width height : Nat) : Prop where
  srcY : src.y.Holds width height
  srcU : src.u.Holds (width / 2) height
  srcV : src.v.Holds (width / 2) height
  dstY : dst.y.Holds width height
  dstU : dst.u.Holds (width / 2) ((height + 1) / 2)
  dstV : dst.v.Holds (width / 2) ((height + 1) / 2)

/-- The samples of a plane are the given ones, and its padding is as before. -/
def Plane.FilledWith (before after : Plane) (width rows : Nat) (value : Nat → Nat → UInt8) : Prop :=
  after.stride = before.stride ∧
    Filled before.stride (fun x y => x < width ∧ y < rows) value before.data after.data

/-- The mean of two rows, in numbers. -/
def MeanOfRows (src : Plane) (width rows : Nat) (value : Nat → Nat → UInt8) : Prop :=
  ∀ x < width, ∀ y < rows, (value x y).toNat =
    ((src.sample x (2 * y)).toNat + (src.sample x (2 * y + 1)).toNat + 1) / 2

/-- The luma samples are copied, the chroma samples are means of two rows, and the padding has not
changed. -/
structure Converted (src dst result : Yuv) (width height : Nat) : Prop where
  y : dst.y.FilledWith result.y width height src.y.sample
  u : ∃ value, MeanOfRows src.u (width / 2) (height / 2) value ∧
    dst.u.FilledWith result.u (width / 2) (height / 2) value
  v : ∃ value, MeanOfRows src.v (width / 2) (height / 2) value ∧
    dst.v.FilledWith result.v (width / 2) (height / 2) value

/-- An `int` holds the offsets of the rows. -/
structure OffsetsFit (src dst : Yuv) (height : Nat) : Prop where
  luma : ∀ y < height, y * src.y.stride < 2 ^ 31 ∧ y * dst.y.stride < 2 ^ 31
  u : ∀ y < height / 2, (2 * y + 1) * src.u.stride < 2 ^ 31 ∧ y * dst.u.stride < 2 ^ 31
  v : ∀ y < height / 2, (2 * y + 1) * src.v.stride < 2 ^ 31 ∧ y * dst.v.stride < 2 ^ 31

/-! ## Single samples and rows -/

/-- The mean fits in a byte. -/
theorem toNat_rounded_mean (a b : UInt8) :
    (roundedMean a b).toNat = (a.toNat + b.toNat + 1) / 2 := by
  have ha := a.toNat_lt
  have hb := b.toNat_lt
  rw [roundedMean, Nat.shiftRight_eq_div_pow, UInt8.toNat_ofNat', Nat.pow_one]
  exact Nat.mod_eq_of_lt (by omega)

theorem row_offset_ok {row stride : Nat} (h : row * stride < 2 ^ 31) :
    rowOffset row stride = .ok (row * stride) := if_pos h

theorem row_offset_error {row stride : Nat} (h : ¬ row * stride < 2 ^ 31) :
    rowOffset row stride = .error .overflow := if_neg h

theorem read_at_ok {src : Bytes} {i : Nat} (h : i < src.length) :
    readAt src i = .ok (src.getD i 0) := by
  rw [readAt, List.getD_eq_getElem?_getD, List.getElem?_eq_getElem h]
  rfl

theorem mean_at_ok {src dst : Bytes} {src0 src1 dstOffset x : Nat} (h0 : src0 + x < src.length)
    (h1 : src1 + x < src.length) (hdst : dstOffset + x < dst.length) :
    meanAt src src0 src1 dstOffset x dst = .ok (dst.set (dstOffset + x)
      (roundedMean (src.getD (src0 + x) 0) (src.getD (src1 + x) 0))) := by
  simp only [meanAt, read_at_ok h0, read_at_ok h1, writeAt, if_pos hdst, bind, Except.bind]

/-- The rows of the luma plane are copied. -/
theorem luma_loop {src dst : Plane} {width height : Nat} (hsrc : src.Holds width height)
    (hdst : dst.Holds width height)
    (hfits : ∀ y < height, y * src.stride < 2 ^ 31 ∧ y * dst.stride < 2 ^ 31) :
    ∃ final, forUpTo (copyRow src dst.stride width) height dst.data = .ok final ∧
      Filled dst.stride (Started width height 0) src.sample dst.data final := by
  refine for_up_to_invariant (fun y y420 =>
    Filled dst.stride (Started width y 0) src.sample dst.data y420) ?_
    (filled_nothing fun x y => by simp [Started])
  intro y hy y420 hfilled
  obtain ⟨hsrcOffset, hdstOffset⟩ := hfits y hy
  have hsrcRow : y * src.stride + width ≤ src.data.length := by
    rw [hsrc.2, Nat.mul_comm src.stride]
    exact row_end_le hsrc.1 hy
  have hdstRow : y * dst.stride + width ≤ dst.data.length := by
    rw [hdst.2, Nat.mul_comm dst.stride]
    exact row_end_le hdst.1 hy
  have hrow : ((src.data.drop (y * src.stride)).take width).length = width := by
    rw [List.length_take, List.length_drop]
    omega
  refine ⟨_, ?_, hfilled.overwrite hdst.1 hrow (fun x hx => ?_) hdstRow⟩
  · simp only [copyRow, row_offset_ok hdstOffset, row_offset_ok hsrcOffset, bind, Except.bind]
    exact if_pos ⟨hsrcRow, by rw [hfilled.length]; exact hdstRow⟩
  · have hlt : y * src.stride + x < src.data.length := by omega
    rw [List.getElem?_take_of_lt hx, List.getElem?_drop, Plane.sample, List.getD_eq_getElem?_getD,
      List.getElem?_eq_getElem hlt]
    rfl

/-- The samples of a chroma plane after the conversion. -/
def meanSample (src : Plane) (x y : Nat) : UInt8 :=
  roundedMean (src.sample x (2 * y)) (src.sample x (2 * y + 1))

/-- A chroma plane whose first rows, and first samples of the next one, are means. -/
def ChromaStarted (src dst : Plane) (chromaWidth rows columns : Nat) (chroma : Bytes) : Prop :=
  Filled dst.stride (Started chromaWidth rows columns) (meanSample src) dst.data chroma

/-- One sample of a chroma plane. -/
theorem chroma_sample {src dst : Plane} {chromaWidth height x y : Nat} {chroma : Bytes}
    (hsrc : src.Holds chromaWidth height) (hdst : dst.Holds chromaWidth ((height + 1) / 2))
    (hx : x < chromaWidth) (hy : y < height / 2)
    (h : ChromaStarted src dst chromaWidth y x chroma) :
    ∃ next, meanAt src.data (2 * y * src.stride) ((2 * y + 1) * src.stride) (y * dst.stride) x
        chroma = .ok next ∧ ChromaStarted src dst chromaWidth y (x + 1) next := by
  have hsrcPlane : src.data.length = height * src.stride := by rw [hsrc.2, Nat.mul_comm]
  have hdstPlane : dst.data.length = (height + 1) / 2 * dst.stride := by rw [hdst.2, Nat.mul_comm]
  have hsrcColumn : x < src.stride := lt_of_lt_of_le hx hsrc.1
  have hfirst : 2 * y * src.stride + x < src.data.length := by
    rw [hsrcPlane]
    exact position_lt hsrcColumn (by omega)
  have hsecond : (2 * y + 1) * src.stride + x < src.data.length := by
    rw [hsrcPlane]
    exact position_lt hsrcColumn (by omega)
  have hposition : y * dst.stride + x < dst.data.length := by
    rw [hdstPlane]
    exact position_lt (lt_of_lt_of_le hx hdst.1) (by omega)
  refine ⟨_, mean_at_ok hfirst hsecond ?_, Filled.set h hdst.1 hx hposition⟩
  rw [h.length]
  exact hposition

/-- A row of the chroma planes. -/
theorem chroma_row {src dst : Yuv} {chromaWidth height y : Nat} {chroma : Bytes × Bytes}
    (hsrcU : src.u.Holds chromaWidth height) (hdstU : dst.u.Holds chromaWidth ((height + 1) / 2))
    (hsrcV : src.v.Holds chromaWidth height) (hdstV : dst.v.Holds chromaWidth ((height + 1) / 2))
    (hy : y < height / 2)
    (hfitsU : (2 * y + 1) * src.u.stride < 2 ^ 31 ∧ y * dst.u.stride < 2 ^ 31)
    (hfitsV : (2 * y + 1) * src.v.stride < 2 ^ 31 ∧ y * dst.v.stride < 2 ^ 31)
    (hu : ChromaStarted src.u dst.u chromaWidth y 0 chroma.1)
    (hv : ChromaStarted src.v dst.v chromaWidth y 0 chroma.2) :
    ∃ next, chromaRow src dst chromaWidth y chroma = .ok next ∧
      ChromaStarted src.u dst.u chromaWidth (y + 1) 0 next.1 ∧
      ChromaStarted src.v dst.v chromaWidth (y + 1) 0 next.2 := by
  have hfirstU : 2 * y * src.u.stride < 2 ^ 31 :=
    lt_of_le_of_lt (Nat.mul_le_mul_right _ (Nat.le_succ _)) hfitsU.1
  have hfirstV : 2 * y * src.v.stride < 2 ^ 31 :=
    lt_of_le_of_lt (Nat.mul_le_mul_right _ (Nat.le_succ _)) hfitsV.1
  simp only [chromaRow, row_offset_ok hfirstU, row_offset_ok hfirstV, row_offset_ok hfitsU.1,
    row_offset_ok hfitsU.2, row_offset_ok hfitsV.1, row_offset_ok hfitsV.2, bind, Except.bind]
  have hloop : ∃ final, forUpTo (chromaSample src (2 * y * src.u.stride)
      ((2 * y + 1) * src.u.stride) (y * dst.u.stride) (2 * y * src.v.stride)
      ((2 * y + 1) * src.v.stride) (y * dst.v.stride)) chromaWidth chroma = .ok final ∧
      ChromaStarted src.u dst.u chromaWidth y chromaWidth final.1 ∧
      ChromaStarted src.v dst.v chromaWidth y chromaWidth final.2 := by
    refine for_up_to_invariant (fun x (chroma : Bytes × Bytes) =>
      ChromaStarted src.u dst.u chromaWidth y x chroma.1 ∧
        ChromaStarted src.v dst.v chromaWidth y x chroma.2) ?_ ⟨hu, hv⟩
    rintro x hx chroma ⟨hu, hv⟩
    obtain ⟨u, hmeanU, hnextU⟩ := chroma_sample hsrcU hdstU hx hy hu
    obtain ⟨v, hmeanV, hnextV⟩ := chroma_sample hsrcV hdstV hx hy hv
    refine ⟨(u, v), ?_, hnextU, hnextV⟩
    simp only [chromaSample, hmeanU, hmeanV, bind, Except.bind, pure, Except.pure]
  obtain ⟨final, hrun, hfinalU, hfinalV⟩ := hloop
  exact ⟨final, hrun, hfinalU.congr started_next, hfinalV.congr started_next⟩

/-- The rows of the chroma planes. -/
theorem chroma_loop {src dst : Yuv} {width height : Nat} (h : Shaped src dst width height)
    (hfits : OffsetsFit src dst height) :
    ∃ final, forUpTo (chromaRow src dst (width / 2)) (height / 2) (dst.u.data, dst.v.data) =
        .ok final ∧
      ChromaStarted src.u dst.u (width / 2) (height / 2) 0 final.1 ∧
      ChromaStarted src.v dst.v (width / 2) (height / 2) 0 final.2 := by
  refine for_up_to_invariant (fun y (chroma : Bytes × Bytes) =>
    ChromaStarted src.u dst.u (width / 2) y 0 chroma.1 ∧
      ChromaStarted src.v dst.v (width / 2) y 0 chroma.2) ?_
    ⟨filled_nothing fun x y => by simp [Started], filled_nothing fun x y => by simp [Started]⟩
  rintro y hy chroma ⟨hu, hv⟩
  exact chroma_row h.srcU h.dstU h.srcV h.dstV hy (hfits.u y hy) (hfits.v y hy) hu hv

/-- All rows of a plane. -/
theorem started_rows {width rows : Nat} (x y : Nat) :
    (x < width ∧ y < rows) ↔ Started width rows 0 x y := by
  unfold Started
  omega

theorem mean_of_rows (src : Plane) (width rows : Nat) :
    MeanOfRows src width rows (meanSample src) :=
  fun _ _ _ _ => toNat_rounded_mean _ _

/-! ## Offsets that do not fit -/

section Errors

variable {α : Type} {row stride : Nat} {next : Nat → Except PlaneFault α}

/-- An offset that does not fit ends the computation. -/
theorem offset_error (h : ¬ row * stride < 2 ^ 31) :
    ∃ fault, (rowOffset row stride >>= next) = .error fault := by
  rw [row_offset_error h]
  exact ⟨_, rfl⟩

/-- What follows an offset fails. -/
theorem error_after_offset (h : ∀ offset, ∃ fault, next offset = .error fault) :
    ∃ fault, (rowOffset row stride >>= next) = .error fault := by
  unfold rowOffset
  split
  · exact h _
  · exact ⟨_, rfl⟩

end Errors

theorem copy_row_error {src : Plane} {stride width y : Nat}
    (h : ¬ (y * src.stride < 2 ^ 31 ∧ y * stride < 2 ^ 31)) (y420 : Bytes) :
    ∃ fault, copyRow src stride width y y420 = .error fault := by
  rcases not_and_or.1 h with hsrc | hdst
  · exact error_after_offset fun _ => offset_error hsrc
  · exact offset_error hdst

theorem chroma_row_error {src dst : Yuv} {chromaWidth y : Nat}
    (h : ¬ (((2 * y + 1) * src.u.stride < 2 ^ 31 ∧ y * dst.u.stride < 2 ^ 31) ∧
      (2 * y + 1) * src.v.stride < 2 ^ 31 ∧ y * dst.v.stride < 2 ^ 31))
    (chroma : Bytes × Bytes) : ∃ fault, chromaRow src dst chromaWidth y chroma = .error fault := by
  refine error_after_offset fun _ => ?_
  rcases not_and_or.1 h with hu | hv
  · rcases not_and_or.1 hu with hsrc | hdst
    · exact offset_error hsrc
    · exact error_after_offset fun _ => offset_error hdst
  · refine error_after_offset fun _ => error_after_offset fun _ => error_after_offset fun _ => ?_
    rcases not_and_or.1 hv with hsrc | hdst
    · exact offset_error hsrc
    · exact error_after_offset fun _ => offset_error hdst

section OffsetsOfRun

variable {src dst result : Yuv} {width height : Nat}

/-- The luma rows of a conversion that ends have offsets that fit. -/
theorem luma_offsets_fit (h : yuv422pToYuv420p src dst width height = .ok result) :
    ∀ y < height, y * src.y.stride < 2 ^ 31 ∧ y * dst.y.stride < 2 ^ 31 := by
  intro y hy
  by_contra hfits
  have hrow : ∀ y420, ∃ fault, copyRow src.y dst.y.stride width y y420 = .error fault :=
    copy_row_error hfits
  obtain ⟨fault, hfault⟩ : ∃ fault,
      forUpTo (copyRow src.y dst.y.stride width) height dst.y.data = .error fault :=
    for_up_to_error hy hrow
  simp only [yuv422pToYuv420p, hfault, bind, Except.bind, reduceCtorEq] at h

/-- So do the chroma rows. -/
theorem chroma_offsets_fit (h : yuv422pToYuv420p src dst width height = .ok result) :
    ∀ y < height / 2, ((2 * y + 1) * src.u.stride < 2 ^ 31 ∧ y * dst.u.stride < 2 ^ 31) ∧
      (2 * y + 1) * src.v.stride < 2 ^ 31 ∧ y * dst.v.stride < 2 ^ 31 := by
  intro y hy
  by_contra hfits
  have hrow : ∀ chroma, ∃ fault, chromaRow src dst (width / 2) y chroma = .error fault :=
    chroma_row_error hfits
  obtain ⟨fault, hfault⟩ : ∃ fault,
      forUpTo (chromaRow src dst (width / 2)) (height / 2) (dst.u.data, dst.v.data) =
        .error fault :=
    for_up_to_error hy hrow
  rw [yuv422pToYuv420p] at h
  cases hluma : forUpTo (copyRow src.y dst.y.stride width) height dst.y.data with
  | error e => simp only [hluma, bind, Except.bind, reduceCtorEq] at h
  | ok luma => simp only [hluma, hfault, bind, Except.bind, reduceCtorEq] at h

end OffsetsOfRun

/-- The conversion stays inside of the planes and does what it should exactly when an `int` holds
the offsets of the rows. -/
theorem converted_iff {src dst : Yuv} {width height : Nat} (h : Shaped src dst width height) :
    (∃ result, yuv422pToYuv420p src dst width height = .ok result ∧
      Converted src dst result width height) ↔ OffsetsFit src dst height := by
  constructor
  · rintro ⟨result, hresult, -⟩
    have hchroma := chroma_offsets_fit hresult
    exact ⟨luma_offsets_fit hresult, fun y hy => (hchroma y hy).1, fun y hy => (hchroma y hy).2⟩
  · intro hfits
    obtain ⟨luma, hluma, hfilled⟩ := luma_loop h.srcY h.dstY hfits.luma
    obtain ⟨chroma, hchroma, hu, hv⟩ := chroma_loop h hfits
    refine ⟨⟨⟨luma, dst.y.stride⟩, ⟨chroma.1, dst.u.stride⟩, ⟨chroma.2, dst.v.stride⟩⟩, ?_, ?_⟩
    · simp only [yuv422pToYuv420p, hluma, hchroma, bind, Except.bind, pure, Except.pure]
    · exact ⟨⟨rfl, hfilled.congr started_rows⟩,
        ⟨_, mean_of_rows _ _ _, rfl, hu.congr started_rows⟩,
        ⟨_, mean_of_rows _ _ _, rfl, hv.congr started_rows⟩⟩

/-- A picture of three by three samples, with one more byte in each row. -/
def paddedPicture : Yuv where
  y := ⟨[10, 20, 30, 0, 40, 50, 60, 0, 70, 80, 90, 0], 4⟩
  u := ⟨[255, 0, 254, 0, 7, 0], 2⟩
  v := ⟨[1, 0, 2, 0, 3, 0], 2⟩

/-- What it is converted into. -/
def paddedTarget : Yuv where
  y := ⟨List.replicate 15 9, 5⟩
  u := ⟨[9, 9, 9, 9], 2⟩
  v := ⟨[9, 9, 9, 9], 2⟩

theorem converted_padded : ∃ result, yuv422pToYuv420p paddedPicture paddedTarget 3 3 = .ok result ∧
    Converted paddedPicture paddedTarget result 3 3 := by
  have hshaped : Shaped paddedPicture paddedTarget 3 3 :=
    ⟨by decide, by decide, by decide, by decide, by decide, by decide⟩
  exact (converted_iff hshaped).2 ⟨by decide, by decide, by decide⟩

/-- A black plane without padding. -/
def blackPlane (width rows : Nat) : Plane := ⟨List.replicate (width * rows) 0, width⟩

theorem black_plane_holds (width rows : Nat) : (blackPlane width rows).Holds width rows :=
  ⟨Nat.le_refl _, List.length_replicate⟩

/-- A black picture, with chroma planes of so many rows. -/
def blackPicture (width height chromaHeight : Nat) : Yuv where
  y := blackPlane width height
  u := blackPlane (width / 2) chromaHeight
  v := blackPlane (width / 2) chromaHeight

/-- The last luma row of 46342 rows of 46342 samples begins behind the largest `int`. -/
theorem converted_fails_large : ¬ ∀ (src dst : Yuv) (width height : Nat),
    Shaped src dst width height →
      ∃ result, yuv422pToYuv420p src dst width height = .ok result ∧
        Converted src dst result width height := by
  intro h
  have hshaped (width height : Nat) : Shaped (blackPicture width height height)
      (blackPicture width height ((height + 1) / 2)) width height :=
    ⟨black_plane_holds _ _, black_plane_holds _ _, black_plane_holds _ _, black_plane_holds _ _,
      black_plane_holds _ _, black_plane_holds _ _⟩
  obtain ⟨result, hresult, -⟩ := h _ _ 46342 46342 (hshaped 46342 46342)
  have hoffset : 46341 * 46342 < 2 ^ 31 := (luma_offsets_fit hresult 46341 (by omega)).1
  omega

end CarDetect.Camera
