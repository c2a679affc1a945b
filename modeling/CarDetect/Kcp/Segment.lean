import CarDetect.Camera.RtspClient
import CarDetect.Lib.SequenceSpace

/-!
# KCP segments

The header of a KCP segment as `ikcp_encode_seg` of `ikcp.c` writes it and as `ikcp_input` reads it
field by field, with the constants of the file and its comparison of serial numbers. The camera,
the media server and the Qt client have the same copy of the file. `header_encode` says that what
is read is what was written.
-/

namespace CarDetect.Kcp

open BigEndian
open Camera (ikcpEncode32u ikcpDecode32u ikcp_decode_encode IKCP_OVERHEAD)

/-! ## Constants -/

/-- The minimal `rx_rto` without delay. -/
def IKCP_RTO_NDL : UInt32 := 30

/-- The minimal `rx_rto`. -/
def IKCP_RTO_MIN : UInt32 := 100

def IKCP_RTO_DEF : UInt32 := 200

def IKCP_RTO_MAX : UInt32 := 60000

/-- The command of a segment with data. -/
def IKCP_CMD_PUSH : UInt32 := 81

def IKCP_CMD_ACK : UInt32 := 82

/-- The command that asks for the size of the window. -/
def IKCP_CMD_WASK : UInt32 := 83

/-- The command that tells the size of the window. -/
def IKCP_CMD_WINS : UInt32 := 84

/-- The bit of `probe` that asks for an `IKCP_CMD_WASK`. -/
def IKCP_ASK_SEND : UInt32 := 1

/-- The bit of `probe` that asks for an `IKCP_CMD_WINS`. -/
def IKCP_ASK_TELL : UInt32 := 2

def IKCP_WND_SND : UInt32 := 32

def IKCP_WND_RCV : UInt32 := 128

def IKCP_MTU_DEF : UInt32 := 1400

def IKCP_INTERVAL : UInt32 := 100

def IKCP_DEADLINK : UInt32 := 20

def IKCP_THRESH_INIT : UInt32 := 2

def IKCP_THRESH_MIN : UInt32 := 2

def IKCP_PROBE_INIT : UInt32 := 7000

def IKCP_PROBE_LIMIT : UInt32 := 120000

def IKCP_FASTACK_LIMIT : UInt32 := 5

/-- `_itimediff` -/
abbrev itimediff (later earlier : UInt32) : Int := SequenceSpace.ahead later earlier

/-! ## Segments -/

/-- `IKCPSEG` without its place in a list. `len` is the length of `data`. -/
structure IkcpSeg where
  conv : UInt32
  cmd : UInt32
  frg : UInt32
  wnd : UInt32
  ts : UInt32
  sn : UInt32
  una : UInt32
  resendts : UInt32
  rto : UInt32
  fastack : UInt32
  xmit : UInt32
  data : Bytes
deriving DecidableEq, Repr

/-- The fields of a header as `ikcp_input` holds them. -/
structure Header where
  conv : UInt32
  cmd : UInt8
  frg : UInt8
  wnd : UInt16
  ts : UInt32
  sn : UInt32
  una : UInt32
  len : UInt32
deriving DecidableEq, Repr

/-- `ikcp_encode8u` -/
def ikcpEncode8u (c : UInt8) : Bytes := [c]

/-- `ikcp_decode8u` -/
def ikcpDecode8u : Bytes → UInt8
  | byte :: _ => byte
  | _ => 0

/-- `ikcp_encode16u`: the least significant byte first. -/
def ikcpEncode16u (w : UInt16) : Bytes := [w.toUInt8, (w >>> 8).toUInt8]

/-- `ikcp_decode16u` -/
def ikcpDecode16u : Bytes → UInt16
  | byte0 :: byte1 :: _ => byte0.toUInt16 + (byte1.toUInt16 <<< 8)
  | _ => 0

/-- `ikcp_encode_seg`. The fields of fewer than 32 bits are cast. -/
def ikcpEncodeSeg (seg : IkcpSeg) : Bytes :=
  ikcpEncode32u seg.conv ++ ikcpEncode8u seg.cmd.toUInt8 ++ ikcpEncode8u seg.frg.toUInt8 ++
    ikcpEncode16u seg.wnd.toUInt16 ++ ikcpEncode32u seg.ts ++ ikcpEncode32u seg.sn ++
    ikcpEncode32u seg.una ++ ikcpEncode32u (UInt32.ofNat seg.data.length)

/-- The header at the front of `data`, field by field as `ikcp_input` decodes it. -/
def decodeHeader (data : Bytes) : Header where
  conv := ikcpDecode32u data
  cmd := ikcpDecode8u (data.drop 4)
  frg := ikcpDecode8u (data.drop 5)
  wnd := ikcpDecode16u (data.drop 6)
  ts := ikcpDecode32u (data.drop 8)
  sn := ikcpDecode32u (data.drop 12)
  una := ikcpDecode32u (data.drop 16)
  len := ikcpDecode32u (data.drop 20)

/-- The header that `ikcp_encode_seg` writes for a segment. -/
def IkcpSeg.header (seg : IkcpSeg) : Header :=
  ⟨seg.conv, seg.cmd.toUInt8, seg.frg.toUInt8, seg.wnd.toUInt16, seg.ts, seg.sn, seg.una,
    UInt32.ofNat seg.data.length⟩

/-- A segment in a datagram: the header and the data behind it. -/
def IkcpSeg.wire (seg : IkcpSeg) : Bytes := ikcpEncodeSeg seg ++ seg.data

/-! ## Round trip -/

theorem decode16u_encode (w : UInt16) (rest : Bytes) :
    ikcpDecode16u (ikcpEncode16u w ++ rest) = w := by
  simp only [ikcpEncode16u, List.cons_append, ikcpDecode16u]
  apply UInt16.toNat.inj
  have hw := w.toNat_lt
  simp [UInt16.toNat_add, UInt16.toNat_shiftLeft, UInt16.toNat_shiftRight,
    Nat.shiftRight_eq_div_pow, Nat.shiftLeft_eq]
  omega

@[simp] theorem length_encode32u (l : UInt32) : (ikcpEncode32u l).length = 4 := rfl

@[simp] theorem length_encodeSeg (seg : IkcpSeg) : (ikcpEncodeSeg seg).length = IKCP_OVERHEAD := rfl

theorem drop_encode8u (c : UInt8) (rest : Bytes) (n : Nat) :
    (ikcpEncode8u c ++ rest).drop (n + 1) = rest.drop n := rfl

theorem drop_encode16u (w : UInt16) (rest : Bytes) (n : Nat) :
    (ikcpEncode16u w ++ rest).drop (n + 2) = rest.drop n := rfl

theorem drop_encode32u (l : UInt32) (rest : Bytes) (n : Nat) :
    (ikcpEncode32u l ++ rest).drop (n + 4) = rest.drop n := rfl

theorem decode8u_encode (c : UInt8) (rest : Bytes) :
    ikcpDecode8u (ikcpEncode8u c ++ rest) = c := rfl

/-- `ikcp_input` reads the header that `ikcp_encode_seg` wrote. -/
theorem header_encode (seg : IkcpSeg) (rest : Bytes) :
    decodeHeader (ikcpEncodeSeg seg ++ rest) = seg.header := by
  unfold decodeHeader IkcpSeg.header ikcpEncodeSeg
  -- each field is decoded behind the bytes of the fields before it
  simp only [List.append_assoc, drop_encode8u, drop_encode16u, drop_encode32u, List.drop_zero,
    decode8u_encode, decode16u_encode, ikcp_decode_encode]

/-- Behind the header stands what follows it. -/
theorem drop_header (seg : IkcpSeg) (rest : Bytes) :
    (ikcpEncodeSeg seg ++ rest).drop IKCP_OVERHEAD = rest :=
  List.drop_left' (length_encodeSeg seg)

theorem length_wire (seg : IkcpSeg) : seg.wire.length = IKCP_OVERHEAD + seg.data.length := by
  rw [IkcpSeg.wire, List.length_append, length_encodeSeg]

end CarDetect.Kcp
