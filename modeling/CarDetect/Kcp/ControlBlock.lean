import CarDetect.Kcp.Segment

/-!
# The control block of KCP

`IKCPCB` of `ikcp.h`, with `ikcp_create` and the functions that configure a block. The log, the
user pointer and `ts_recent` and `ts_lastack`, which nothing reads, are left out; the output
callback is what a function returns in datagrams. Where a signed expression of C would overflow,
it wraps around here. `configured_sound` says what every configured block has.
-/

namespace CarDetect.Kcp

open BigEndian
open Camera (IKCP_OVERHEAD)

/-- The fields of `IKCPCB` that `ikcp_recv` and `ikcp_parse_data` use. -/
structure Receiver where
  rcvNxt : UInt32
  rcvWnd : UInt32
  nrcvQue : UInt32
  nrcvBuf : UInt32
  rcvQueue : List IkcpSeg
  rcvBuf : List IkcpSeg
deriving DecidableEq, Repr

/-- The fields of `IKCPCB` of the segments to send and of those not acknowledged. -/
structure Sender where
  sndUna : UInt32
  sndNxt : UInt32
  nsndQue : UInt32
  nsndBuf : UInt32
  sndQueue : List IkcpSeg
  sndBuf : List IkcpSeg
deriving DecidableEq, Repr

/-- The fields of `IKCPCB` that `ikcp_update_ack` uses. -/
structure RoundTrip where
  rxRttval : Int32
  rxSrtt : Int32
  rxRto : Int32
  rxMinrto : Int32
deriving DecidableEq, Repr

/-- The fields of `IKCPCB` of congestion control and of the remote window. -/
structure Congestion where
  ssthresh : UInt32
  rmtWnd : UInt32
  cwnd : UInt32
  incr : UInt32
deriving DecidableEq, Repr

/-- `IKCPCB`. The length of `acklist` is `ackcount`. -/
structure Ikcpcb extends Receiver, Sender, RoundTrip, Congestion where
  conv : UInt32
  mtu : UInt32
  mss : UInt32
  state : UInt32
  sndWnd : UInt32
  probe : UInt32
  current : UInt32
  interval : UInt32
  tsFlush : UInt32
  xmit : UInt32
  nodelay : UInt32
  updated : Bool
  tsProbe : UInt32
  probeWait : UInt32
  deadLink : UInt32
  acklist : List (UInt32 × UInt32)
  fastresend : Int32
  fastlimit : Int32
  nocwnd : Int32
  stream : Int32
deriving DecidableEq, Repr

/-- `ikcp_create` -/
def ikcpCreate (conv : UInt32) : Ikcpcb where
  conv := conv
  sndUna := 0
  sndNxt := 0
  rcvNxt := 0
  tsProbe := 0
  probeWait := 0
  sndWnd := IKCP_WND_SND
  rcvWnd := IKCP_WND_RCV
  rmtWnd := IKCP_WND_RCV
  cwnd := 0
  incr := 0
  probe := 0
  mtu := IKCP_MTU_DEF
  mss := IKCP_MTU_DEF - UInt32.ofNat IKCP_OVERHEAD
  stream := 0
  sndQueue := []
  rcvQueue := []
  sndBuf := []
  rcvBuf := []
  nrcvBuf := 0
  nsndBuf := 0
  nrcvQue := 0
  nsndQue := 0
  state := 0
  acklist := []
  rxSrtt := 0
  rxRttval := 0
  rxRto := IKCP_RTO_DEF.toInt32
  rxMinrto := IKCP_RTO_MIN.toInt32
  current := 0
  interval := IKCP_INTERVAL
  tsFlush := IKCP_INTERVAL
  nodelay := 0
  updated := false
  ssthresh := IKCP_THRESH_INIT
  fastresend := 0
  fastlimit := IKCP_FASTACK_LIMIT.toInt32
  nocwnd := 0
  xmit := 0
  deadLink := IKCP_DEADLINK

/-- `ikcp_setmtu`, with its return code. -/
def ikcpSetmtu (kcp : Ikcpcb) (mtu : Int32) : Int × Ikcpcb :=
  if mtu < 50 || mtu < Int32.ofNat IKCP_OVERHEAD then (-1, kcp)
  else (0, { kcp with mtu := mtu.toUInt32, mss := mtu.toUInt32 - UInt32.ofNat IKCP_OVERHEAD })

/-- The interval between 10 ms and 5000 ms that `ikcp_interval` and `ikcp_nodelay` set. -/
def boundInterval (interval : Int32) : UInt32 :=
  if interval > 5000 then 5000 else if interval < 10 then 10 else interval.toUInt32

/-- `ikcp_nodelay` with `nodelay` alone. -/
def setNodelay (kcp : Ikcpcb) (nodelay : Int32) : Ikcpcb :=
  if nodelay ≥ 0 then
    { kcp with
      nodelay := nodelay.toUInt32
      rxMinrto := if nodelay ≠ 0 then IKCP_RTO_NDL.toInt32 else IKCP_RTO_MIN.toInt32 }
  else kcp

/-- `ikcp_nodelay` -/
def ikcpNodelay (kcp : Ikcpcb) (nodelay interval resend nc : Int32) : Ikcpcb :=
  let kcp := setNodelay kcp nodelay
  { kcp with
    interval := if interval ≥ 0 then boundInterval interval else kcp.interval
    fastresend := if resend ≥ 0 then resend else kcp.fastresend
    nocwnd := if nc ≥ 0 then nc else kcp.nocwnd }

/-- `_imax_` -/
def imax (a b : UInt32) : UInt32 := if a ≥ b then a else b

/-- `_imin_` -/
def imin (a b : UInt32) : UInt32 := if a ≤ b then a else b

/-- `_ibound_` -/
def ibound (lower middle upper : UInt32) : UInt32 := imin (imax lower middle) upper

/-- `ikcp_wndsize` -/
def ikcpWndsize (kcp : Ikcpcb) (sndwnd rcvwnd : Int32) : Ikcpcb :=
  { kcp with
    sndWnd := if sndwnd > 0 then sndwnd.toUInt32 else kcp.sndWnd
    rcvWnd := if rcvwnd > 0 then imax rcvwnd.toUInt32 IKCP_WND_RCV else kcp.rcvWnd }

/-- `ikcp_waitsnd` -/
def ikcpWaitsnd (kcp : Ikcpcb) : UInt32 := kcp.nsndBuf + kcp.nsndQue

/-- The arguments with which a program configures a block. -/
structure Config where
  nodelay : Int32
  interval : Int32
  resend : Int32
  nc : Int32
  sndwnd : Int32
  rcvwnd : Int32
  mtu : Int32
deriving DecidableEq, Repr

/-- A new block, configured in the order of `kcp_init` of the camera and of the media server, of
`initCamKcp` and of `initKcp`. -/
def Config.block (config : Config) (conv : UInt32) : Ikcpcb :=
  (ikcpSetmtu (ikcpWndsize
    (ikcpNodelay (ikcpCreate conv) config.nodelay config.interval config.resend config.nc)
    config.sndwnd config.rcvwnd) config.mtu).2

/-- The configuration of the camera, of the server towards the Qt clients, and of a Qt client. -/
def wideConfig : Config := ⟨1, 10, 2, 0, 256, 256, 1450⟩

/-- The configuration of the server towards the camera, in `initCamKcp`. -/
def camConfig : Config := ⟨1, 10, 2, 0, 128, 128, 1450⟩

theorem rcvwnd_wideConfig : wideConfig.rcvwnd.toInt ≤ 2 ^ 30 := by decide

theorem rcvwnd_camConfig : camConfig.rcvwnd.toInt ≤ 2 ^ 30 := by decide

/-! ## Configured blocks -/

/-- The bounds of the parameters of a block. -/
structure Sound (kcp : Ikcpcb) : Prop where
  mtu_ge : 50 ≤ kcp.mtu.toNat
  mtu_lt : kcp.mtu.toNat < 2 ^ 31
  mss : kcp.mss.toNat + IKCP_OVERHEAD = kcp.mtu.toNat
  interval_ge : 10 ≤ kcp.interval.toNat
  interval_le : kcp.interval.toNat ≤ 5000
  minrto : kcp.rxMinrto = IKCP_RTO_NDL.toInt32 ∨ kcp.rxMinrto = IKCP_RTO_MIN.toInt32
  rcvWnd_ge : 128 ≤ kcp.rcvWnd.toNat
  rcvWnd_lt : kcp.rcvWnd.toNat < 2 ^ 31

theorem imax_toNat (a b : UInt32) : (imax a b).toNat = max a.toNat b.toNat := by
  unfold imax
  split
  · rename_i h
    exact (Nat.max_eq_left (UInt32.le_iff_toNat_le.1 h)).symm
  · rename_i h
    exact (Nat.max_eq_right (Nat.le_of_not_le fun hle => h (UInt32.le_iff_toNat_le.2 hle))).symm

theorem imin_toNat (a b : UInt32) : (imin a b).toNat = min a.toNat b.toNat := by
  unfold imin
  split
  · rename_i h
    exact (Nat.min_eq_left (UInt32.le_iff_toNat_le.1 h)).symm
  · rename_i h
    exact (Nat.min_eq_right (Nat.le_of_not_le fun hle => h (UInt32.le_iff_toNat_le.2 hle))).symm

theorem ibound_toNat (lower middle upper : UInt32) :
    (ibound lower middle upper).toNat = min (max lower.toNat middle.toNat) upper.toNat := by
  rw [ibound, imin_toNat, imax_toNat]

/-- A number that is not negative keeps its value as an unsigned one. -/
theorem toNat_toUInt32 {value : Int32} (h : 0 ≤ value) :
    (value.toUInt32.toNat : Int) = value.toInt ∧ value.toUInt32.toNat < 2 ^ 31 := by
  have hnonneg := Int32.le_iff_toInt_le.1 h
  have htoNat : value.toUInt32.toNat = value.toBitVec.toNat := rfl
  have htoInt : value.toInt = value.toBitVec.toInt := rfl
  rw [htoInt, BitVec.toInt_eq_toNat_cond] at hnonneg ⊢
  have hzero : (0 : Int32).toInt = 0 := rfl
  have hlt := value.toBitVec.isLt
  rw [hzero] at hnonneg
  rw [htoNat]
  split at hnonneg <;> rename_i hcase
  · rw [if_pos hcase]
    omega
  · omega

theorem interval_bounded (interval : Int32) :
    10 ≤ (boundInterval interval).toNat ∧ (boundInterval interval).toNat ≤ 5000 := by
  unfold boundInterval
  split
  · exact ⟨by decide, by decide⟩
  · split
    · exact ⟨by decide, by decide⟩
    · rename_i hhigh hlow
      have hlow := Int32.le_iff_toInt_le.1 (Int32.not_lt.1 hlow)
      have hhigh := Int32.le_iff_toInt_le.1 (Int32.not_lt.1 hhigh)
      have hten : (10 : Int32).toInt = 10 := rfl
      have hmost : (5000 : Int32).toInt = 5000 := rfl
      have hnonneg : (0 : Int32) ≤ interval := by
        apply Int32.le_iff_toInt_le.2
        show (0 : Int) ≤ _
        omega
      have hvalue := (toNat_toUInt32 hnonneg).1
      omega

theorem sound_create (conv : UInt32) : Sound (ikcpCreate conv) where
  mtu_ge := show 50 ≤ IKCP_MTU_DEF.toNat by decide
  mtu_lt := show IKCP_MTU_DEF.toNat < 2 ^ 31 by decide
  mss := rfl
  interval_ge := show 10 ≤ IKCP_INTERVAL.toNat by decide
  interval_le := show IKCP_INTERVAL.toNat ≤ 5000 by decide
  minrto := Or.inr rfl
  rcvWnd_ge := show 128 ≤ IKCP_WND_RCV.toNat by decide
  rcvWnd_lt := show IKCP_WND_RCV.toNat < 2 ^ 31 by decide

variable {kcp : Ikcpcb}

theorem sound_nodelay (hsound : Sound kcp) (nodelay interval resend nc : Int32) :
    Sound (ikcpNodelay kcp nodelay interval resend nc) := by
  have hset : Sound (setNodelay kcp nodelay) := by
    unfold setNodelay
    split
    · refine { hsound with minrto := ?_ }
      show (if nodelay ≠ 0 then _ else _) = _ ∨ _
      split
      · exact Or.inl rfl
      · exact Or.inr rfl
    · exact hsound
  have hkept : (setNodelay kcp nodelay).interval = kcp.interval := by
    unfold setNodelay
    split <;> rfl
  have hinterval : 10 ≤ (if interval ≥ 0 then boundInterval interval
      else (setNodelay kcp nodelay).interval).toNat ∧
      (if interval ≥ 0 then boundInterval interval
        else (setNodelay kcp nodelay).interval).toNat ≤ 5000 := by
    split
    · exact interval_bounded interval
    · rw [hkept]
      exact ⟨hsound.interval_ge, hsound.interval_le⟩
  exact { hset with interval_ge := hinterval.1, interval_le := hinterval.2 }

theorem sound_wndsize (hsound : Sound kcp) (sndwnd rcvwnd : Int32) :
    Sound (ikcpWndsize kcp sndwnd rcvwnd) := by
  have hdefault : IKCP_WND_RCV.toNat = 128 := rfl
  have hwnd : 128 ≤ (ikcpWndsize kcp sndwnd rcvwnd).rcvWnd.toNat ∧
      (ikcpWndsize kcp sndwnd rcvwnd).rcvWnd.toNat < 2 ^ 31 := by
    show 128 ≤ (if rcvwnd > 0 then _ else _ : UInt32).toNat ∧
      (if rcvwnd > 0 then _ else _ : UInt32).toNat < _
    split
    · rename_i hpos
      have hvalue := (toNat_toUInt32 (Int32.le_of_lt hpos)).2
      rw [imax_toNat, hdefault]
      omega
    · exact ⟨hsound.rcvWnd_ge, hsound.rcvWnd_lt⟩
  exact { hsound with rcvWnd_ge := hwnd.1, rcvWnd_lt := hwnd.2 }

theorem sound_setmtu (hsound : Sound kcp) (mtu : Int32) : Sound (ikcpSetmtu kcp mtu).2 := by
  unfold ikcpSetmtu
  split
  · exact hsound
  · rename_i hlarge
    rw [Bool.or_eq_true, decide_eq_true_iff, decide_eq_true_iff, not_or] at hlarge
    have hleast := Int32.le_iff_toInt_le.1 (Int32.not_lt.1 hlarge.1)
    have hfifty : (50 : Int32).toInt = 50 := rfl
    have hnonneg : (0 : Int32) ≤ mtu := by
      apply Int32.le_iff_toInt_le.2
      show (0 : Int) ≤ _
      omega
    obtain ⟨hvalue, hlt⟩ := toNat_toUInt32 hnonneg
    have hoverhead : (UInt32.ofNat IKCP_OVERHEAD).toNat = 24 := rfl
    have hmss : (mtu.toUInt32 - UInt32.ofNat IKCP_OVERHEAD).toNat + IKCP_OVERHEAD =
        mtu.toUInt32.toNat := by
      rw [UInt32.toNat_sub_of_le _ _ (UInt32.le_iff_toNat_le.2 (by omega)), hoverhead]
      show _ - 24 + 24 = _
      omega
    have hge : 50 ≤ mtu.toUInt32.toNat := by omega
    exact { hsound with mtu_ge := hge, mtu_lt := hlt, mss := hmss }

/-- Every configured block is sound. -/
theorem configured_sound (config : Config) (conv : UInt32) : Sound (config.block conv) :=
  sound_setmtu (sound_wndsize (sound_nodelay (sound_create conv) _ _ _ _) _ _) _

/-- The receive window is as configured, but not less than its default. -/
theorem rcvWnd_configured (config : Config) (conv : UInt32) :
    (config.block conv).rcvWnd.toNat ≤ max 128 config.rcvwnd.toInt.toNat := by
  have hdefault : IKCP_WND_RCV.toNat = 128 := rfl
  have hnodelay (kcp : Ikcpcb) (nodelay interval resend nc : Int32) :
      (ikcpNodelay kcp nodelay interval resend nc).rcvWnd = kcp.rcvWnd := by
    show (setNodelay kcp nodelay).rcvWnd = _
    unfold setNodelay
    split <;> rfl
  have hsetmtu (kcp : Ikcpcb) (mtu : Int32) : (ikcpSetmtu kcp mtu).2.rcvWnd = kcp.rcvWnd := by
    unfold ikcpSetmtu
    split <;> rfl
  rw [Config.block, hsetmtu]
  show (if config.rcvwnd > 0 then _ else _ : UInt32).toNat ≤ _
  split
  · rename_i hpos
    have hvalue := (toNat_toUInt32 (Int32.le_of_lt hpos)).1
    rw [imax_toNat, hdefault]
    omega
  · rw [hnodelay]
    exact Nat.le_max_left 128 _

end CarDetect.Kcp
