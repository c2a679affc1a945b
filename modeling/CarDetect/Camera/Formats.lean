import CarDetect.Lib.ByteString
import CarDetect.Lib.SentinelTable

/-!
# The pixel formats of a camera

`v4l2EnumFormats` and `v4l2PrintFormats` follow the functions of these names in `camera/v4l2.c`:
the first asks the driver for its formats and stores them in the ten entries of `cam_fmts`, and the
second prints the entries up to one with the code zero. `formats_iff` says for which drivers both
stay inside of the table.
-/

namespace CarDetect.Camera

open BigEndian ByteString SentinelTable

/-- How the two functions go wrong. -/
inductive FormatFault where
  | outOfBounds
  | divisionByZero
deriving DecidableEq, Repr

/-- A string in an array of 32 bytes, with a zero behind it. -/
abbrev Description := {text : Bytes // text.length < 32}

/-- `cam_fmt` -/
structure CamFmt where
  description : Description
  pixelformat : UInt32
deriving DecidableEq, Repr

/-- The answer to `VIDIOC_ENUM_FMT`. -/
structure FmtDesc where
  description : Description
  pixelformat : UInt32
deriving DecidableEq, Repr

/-- The answer to `VIDIOC_ENUM_FRAMESIZES`. -/
structure FrmSize where
  width : UInt32
  height : UInt32
deriving DecidableEq, Repr

/-- The answer to `VIDIOC_ENUM_FRAMEINTERVALS`, in seconds. -/
structure FrmIval where
  numerator : UInt32
  denominator : UInt32
deriving DecidableEq, Repr

/-- What is answered for the indices 0, 1, …, until the driver refuses. An index has 32 bits, so
that fewer than 2 ^ 32 are answered when one is refused. -/
abbrev Enumeration (α : Type) := {answers : List α // answers.length < 2 ^ 32}

/-- A driver: its formats, the frame sizes of a pixel format, and the intervals of these. -/
structure Driver where
  formats : List FmtDesc
  frameSizes : UInt32 → Enumeration FrmSize
  frameIntervals : UInt32 → FrmSize → Enumeration FrmIval

/-- `cam_fmts`, as the program starts with it. -/
def camFmts : List CamFmt := List.replicate 10 ⟨⟨[], by decide⟩, 0⟩

/-- `%x` -/
def printCode (value : UInt32) : Bytes :=
  (Nat.toDigits 16 value.toNat).map fun digit => digit.toNat.toUInt8

/-- `%d` of an unsigned number, which is printed as an `int`. -/
def printUnsigned (value : UInt32) : Bytes := printInt value.toInt32.toInt

/-! ## Enumeration -/

/-- The entry that is stored for an answer: `strcpy` stops behind the zero. -/
def FmtDesc.stored (fmtdesc : FmtDesc) : CamFmt := ⟨fmtdesc.description, fmtdesc.pixelformat⟩

/-- `v4l2_enum_formats` -/
def v4l2EnumFormats (driver : Driver) (table : List CamFmt) : Except FormatFault (List CamFmt) :=
  writeAll .outOfBounds 0 (driver.formats.map FmtDesc.stored) table

/-! ## Printing -/

/-- The frame rate of an interval. -/
def intervalText (frmival : FrmIval) : Bytes :=
  ascii "<" ++ printUnsigned (frmival.denominator / frmival.numerator) ++ ascii "fps>"

/-- A round of the innermost loop. -/
def printInterval (printed : Bytes) (frmival : FrmIval) : Except FormatFault Bytes :=
  if frmival.numerator = 0 then .error .divisionByZero else .ok (printed ++ intervalText frmival)

/-- A frame size. -/
def sizeText (frmsize : FrmSize) : Bytes :=
  ascii "size<" ++ printUnsigned frmsize.width ++ ascii "*" ++ printUnsigned frmsize.height ++
    ascii "> "

/-- A round of the loop over the frame sizes. -/
def printSize (driver : Driver) (pixelformat : UInt32) (printed : Bytes) (frmsize : FrmSize) :
    Except FormatFault Bytes :=
  ((driver.frameIntervals pixelformat frmsize).1.foldlM printInterval
    (printed ++ sizeText frmsize)).map (· ++ ascii "\n")

/-- The line of an entry. -/
def formatText (entry : CamFmt) : Bytes :=
  ascii "format<0x" ++ printCode entry.pixelformat ++ ascii ">, description<" ++
    entry.description.1 ++ ascii ">\n"

/-- A round of the loop over the table. -/
def printFormat (driver : Driver) (printed : Bytes) (entry : CamFmt) : Except FormatFault Bytes :=
  ((driver.frameSizes entry.pixelformat).1.foldlM (printSize driver entry.pixelformat)
    (printed ++ formatText entry)).map (· ++ ascii "\n")

/-- `v4l2_print_formats`, as the text that it prints. -/
def v4l2PrintFormats (driver : Driver) (table : List CamFmt) : Except FormatFault Bytes :=
  untilSentinel (fun entry => entry.pixelformat == 0) .outOfBounds (printFormat driver) table []

/-! ## The property -/

/-- No interval of a format that the driver has is zero seconds long. -/
def Driver.Timed (driver : Driver) (pixelformat : UInt32) : Prop :=
  ∀ frmsize ∈ (driver.frameSizes pixelformat).1,
    ∀ frmival ∈ (driver.frameIntervals pixelformat frmsize).1, frmival.numerator ≠ 0

instance (driver : Driver) (pixelformat : UInt32) : Decidable (driver.Timed pixelformat) :=
  inferInstanceAs (Decidable (∀ frmsize ∈ (driver.frameSizes pixelformat).1,
    ∀ frmival ∈ (driver.frameIntervals pixelformat frmsize).1, frmival.numerator ≠ 0))

/-- All that is printed for an entry. -/
def entryText (driver : Driver) (entry : CamFmt) : Bytes :=
  formatText entry ++ ((driver.frameSizes entry.pixelformat).1.flatMap fun frmsize =>
    sizeText frmsize ++ (driver.frameIntervals entry.pixelformat frmsize).1.flatMap intervalText ++
      ascii "\n") ++ ascii "\n"

/-! ## What is printed -/

theorem interval_prints (frmival : FrmIval) :
    Prints (printInterval · frmival) (frmival.numerator ≠ 0) (intervalText frmival) where
  ok hgood _ := if_neg hgood
  error hzero _ := ⟨_, if_pos (not_not.1 hzero)⟩

theorem size_prints (driver : Driver) (pixelformat : UInt32) (frmsize : FrmSize) :
    Prints (printSize driver pixelformat · frmsize)
      (∀ frmival ∈ (driver.frameIntervals pixelformat frmsize).1, frmival.numerator ≠ 0)
      (sizeText frmsize ++
        (driver.frameIntervals pixelformat frmsize).1.flatMap intervalText ++ ascii "\n") :=
  (Prints.loop interval_prints).between (sizeText frmsize) (ascii "\n")

theorem format_prints (driver : Driver) (entry : CamFmt) :
    Prints (printFormat driver · entry) (driver.Timed entry.pixelformat)
      (entryText driver entry) :=
  (Prints.loop (size_prints driver entry.pixelformat)).between (formatText entry) (ascii "\n")

section Formats

variable {driver : Driver}

/-- No entry stored for a format is taken for the end of the table. -/
theorem stored_ne_end (hcodes : ∀ fmtdesc ∈ driver.formats, fmtdesc.pixelformat ≠ 0) :
    ∀ entry ∈ driver.formats.map FmtDesc.stored, (entry.pixelformat == 0) = false := by
  intro entry hentry
  obtain ⟨fmtdesc, hfmtdesc, rfl⟩ := List.mem_map.1 hentry
  exact beq_eq_false_iff_ne.2 (hcodes fmtdesc hfmtdesc)

/-- Nine formats at most are printed in the order of the driver. -/
theorem formats_printed (hcodes : ∀ fmtdesc ∈ driver.formats, fmtdesc.pixelformat ≠ 0)
    (hlength : driver.formats.length ≤ 9)
    (htimed : ∀ fmtdesc ∈ driver.formats, driver.Timed fmtdesc.pixelformat) :
    ∃ table, v4l2EnumFormats driver camFmts = .ok table ∧
      v4l2PrintFormats driver table =
        .ok ((driver.formats.map FmtDesc.stored).flatMap (entryText driver)) := by
  have hlt : (driver.formats.map FmtDesc.stored).length < 10 := by
    rw [List.length_map]
    omega
  obtain ⟨table, htable, hread⟩ : ∃ table, v4l2EnumFormats driver camFmts = .ok table ∧
      v4l2PrintFormats driver table =
        (driver.formats.map FmtDesc.stored).foldlM (printFormat driver) [] :=
    read_back rfl (stored_ne_end hcodes) hlt
  refine ⟨table, htable, hread.trans ?_⟩
  exact (Prints.loop (format_prints driver)).ok (List.forall_mem_map.2 htimed) []

/-- Both functions stay inside of the table and come to their ends exactly when the driver has nine
formats at most, none of them with an interval of zero seconds. -/
theorem formats_iff (hcodes : ∀ fmtdesc ∈ driver.formats, fmtdesc.pixelformat ≠ 0) :
    (∃ table printed, v4l2EnumFormats driver camFmts = .ok table ∧
      v4l2PrintFormats driver table = .ok printed) ↔
      driver.formats.length ≤ 9 ∧
        ∀ fmtdesc ∈ driver.formats, driver.Timed fmtdesc.pixelformat := by
  have hread : (∃ table printed, v4l2EnumFormats driver camFmts = .ok table ∧
      v4l2PrintFormats driver table = .ok printed) ↔
      (driver.formats.map FmtDesc.stored).length < 10 ∧ ∃ printed,
        (driver.formats.map FmtDesc.stored).foldlM (printFormat driver) [] = .ok printed :=
    read_back_iff rfl (stored_ne_end hcodes)
  have hprinted : (∃ printed,
      (driver.formats.map FmtDesc.stored).foldlM (printFormat driver) [] = .ok printed) ↔
      ∀ entry ∈ driver.formats.map FmtDesc.stored, driver.Timed entry.pixelformat :=
    (Prints.loop (format_prints driver)).ok_iff []
  rw [hread, hprinted, List.length_map, List.forall_mem_map, Nat.lt_succ_iff]
  rfl

/-- A camera with two formats, one of them with a frame size and two intervals. -/
def webcam : Driver where
  formats := [⟨⟨ascii "Motion-JPEG", by decide⟩, 0x47504A4D⟩,
    ⟨⟨ascii "YUYV 4:2:2", by decide⟩, 0x56595559⟩]
  frameSizes pixelformat := if pixelformat = 0x47504A4D then ⟨[⟨640, 480⟩], by decide⟩
    else ⟨[], by decide⟩
  frameIntervals _ _ := ⟨[⟨1, 30⟩, ⟨1, 15⟩], by decide⟩

theorem formats_webcam : ∃ table printed, v4l2EnumFormats webcam camFmts = .ok table ∧
    v4l2PrintFormats webcam table = .ok printed :=
  (formats_iff (by decide)).2 ⟨by decide, by decide⟩

/-- A camera with this many formats, which names no frame sizes. -/
def plainDriver (count : Nat) : Driver where
  formats := (List.range count).map fun i => ⟨⟨ascii "Format", by decide⟩, 0x30303041 + i.toUInt32⟩
  frameSizes _ := ⟨[], by decide⟩
  frameIntervals _ _ := ⟨[], by decide⟩

/-- Ten formats fill the table, and the entry behind it is read. -/
theorem formats_fail_ten : ¬ ∀ driver : Driver,
    (∀ fmtdesc ∈ driver.formats, fmtdesc.pixelformat ≠ 0) →
      ∃ table printed, v4l2EnumFormats driver camFmts = .ok table ∧
        v4l2PrintFormats driver table = .ok printed := by
  intro h
  obtain ⟨table, printed, htable, hprinted⟩ := h (plainDriver 10) (by decide)
  have hlength : ((plainDriver 10).formats.map FmtDesc.stored).length < 10 :=
    not_read_back (stored_ne_end (by decide)) htable hprinted
  exact absurd hlength (by decide)

end Formats

end CarDetect.Camera
