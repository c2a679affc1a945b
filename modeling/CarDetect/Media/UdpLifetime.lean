import CarDetect.Media.MediaServer

/-!
# The life of UDP connections in the event loop

A session adds its UDP connections to the loop when it is set up and takes them out when it is
released. `Kept` is the invariant of the loop and of all sessions; it says whose connections are
where. `Tracked` ties the slots of one session to the requests it has had.
-/

namespace CarDetect.Media

open BigEndian ByteString Reactor RtspConnect MediaServer

/-! ## The invariant -/

/-- The calls of all sessions so far, together with the state they have led to. -/
structure Kept (trace : List (Nat × Event)) (server : MediaServer) : Prop where
  inStep : server.loop.InStep
  /-- New sockets get new numbers. -/
  numbered : ∀ i udp, (i, .addUdpConnection udp) ∈ trace → udp.socket.serial < server.sockets
  /-- A connection has one session. -/
  owner : ∀ i j udp other, (i, .addUdpConnection udp) ∈ trace →
    (j, .addUdpConnection other) ∈ trace →
    udp.socket.serial = other.socket.serial → i = j ∧ udp = other
  slotAdded : ∀ (i : Nat) (conn : RtspConnect) udp, server.sessions[i]? = some (some conn) →
    udp ∈ conn.slots →
    (i, .addUdpConnection udp) ∈ trace
  mapAdded : ∀ fd udp, server.loop.udpConns fd = some udp → ∃ i, (i, .addUdpConnection udp) ∈ trace
  /-- A connection in a slot keeps its descriptor from all others. -/
  slotOpen : ∀ (i : Nat) (conn : RtspConnect) udp other, server.sessions[i]? = some (some conn) →
    udp ∈ conn.slots →
    server.loop.udpConns udp.fd = some other → other = udp
  kept : ∀ i udp, (i, .addUdpConnection udp) ∈ trace → (i, .removeUdpConnection udp) ∉ trace →
    server.loop.udpConns udp.fd = some udp

theorem kept_start : Kept [] start where
  inStep := EventLoop.empty_in_step
  numbered := by simp
  owner := by simp
  slotAdded := by simp [start]
  mapAdded := by simp [start, EventLoop.empty]
  slotOpen := by simp [start]
  kept := by simp

/-- A connection that a session adds keeps its descriptor as long as it is in the loop or in a
slot. -/
theorem not_in_use {server : MediaServer} {fd : Int} (h : server.inUse fd = false) :
    server.loop.udpConns fd = none ∧
      ∀ (i : Nat) (conn : RtspConnect) udp, server.sessions[i]? = some (some conn) →
        udp ∈ conn.slots → udp.fd ≠ fd := by
  rw [inUse, Bool.or_eq_false_iff] at h
  refine ⟨by simpa using h.1, fun i conn udp hconn hudp hfd => ?_⟩
  have hsession := List.any_eq_false.1 h.2 (some conn) (List.mem_of_getElem? hconn)
  simp only [List.any_eq_true, not_exists, not_and] at hsession
  exact hsession udp hudp (by simpa using hfd)

/-- Loops without the entries of some connections. -/
theorem remove_all {loop : EventLoop} (h : loop.InStep) (conns : List UdpConnection) :
    (conns.foldl EventLoop.removeUdpConnection loop).InStep ∧
      ∀ fd, (conns.foldl EventLoop.removeUdpConnection loop).udpConns fd =
        if ∃ udp ∈ conns, udp.fd = fd then none else loop.udpConns fd := by
  induction conns generalizing loop with
  | nil => exact ⟨h, by simp⟩
  | cons udp rest ih =>
      obtain ⟨hinStep, hmap⟩ := EventLoop.remove_entry udp h
      obtain ⟨hrest, hentries⟩ := ih hinStep
      refine ⟨hrest, fun fd => ?_⟩
      rw [List.foldl_cons, hentries fd, hmap]
      by_cases hlater : ∃ other ∈ rest, other.fd = fd
      · rw [if_pos hlater, if_pos (hlater.imp fun _ hother => ⟨List.mem_cons_of_mem _ hother.1,
          hother.2⟩)]
      · rw [if_neg hlater]
        by_cases hfd : udp.fd = fd
        · rw [if_pos ⟨udp, List.mem_cons_self, hfd⟩, ← hfd, Function.update_self]
        · rw [Function.update_of_ne (Ne.symm hfd), if_neg]
          rintro ⟨other, hother, hotherFd⟩
          rcases List.mem_cons.1 hother with rfl | hother
          · exact hfd hotherFd
          · exact hlater ⟨other, hother, hotherFd⟩

section Steps

variable {trace extra : List (Nat × Event)} {server next : MediaServer}

/-- Every slot holds a connection that the same session held before. -/
def SlotsFrom (server next : MediaServer) : Prop :=
  ∀ (i : Nat) (after : RtspConnect) udp, next.sessions[i]? = some (some after) →
    udp ∈ after.slots → ∃ conn, server.sessions[i]? = some (some conn) ∧ udp ∈ conn.slots

/-- A step that neither adds nor removes a connection. -/
theorem kept_quiet (h : Kept trace server) (hslots : SlotsFrom server next)
    (hloop : next.loop = server.loop) (hsockets : server.sockets ≤ next.sockets)
    (hextra : ∀ i udp, (i, .addUdpConnection udp) ∉ extra) : Kept (trace ++ extra) next where
  inStep := hloop ▸ h.inStep
  numbered := by
    intro i udp hudp
    simp only [List.mem_append, hextra, or_false] at hudp
    exact (h.numbered i udp hudp).trans_le hsockets
  owner := by
    intro i j udp other hudp hother
    simp only [List.mem_append, hextra, or_false] at hudp hother
    exact h.owner i j udp other hudp hother
  slotAdded := by
    intro i after udp hafter hudp
    obtain ⟨conn, hconn, hmem⟩ := hslots i after udp hafter hudp
    exact List.mem_append_left _ (h.slotAdded i conn udp hconn hmem)
  mapAdded := by
    intro fd udp hudp
    rw [hloop] at hudp
    exact (h.mapAdded fd udp hudp).imp fun i hadded => List.mem_append_left _ hadded
  slotOpen := by
    intro i after udp other hafter hudp hother
    obtain ⟨conn, hconn, hmem⟩ := hslots i after udp hafter hudp
    rw [hloop] at hother
    exact h.slotOpen i conn udp other hconn hmem hother
  kept := by
    intro i udp hudp hremoved
    simp only [List.mem_append, hextra, or_false, not_or] at hudp hremoved
    rw [hloop]
    exact h.kept i udp hudp hremoved.1

/-- A session adds a connection on a new socket and takes it into a slot. -/
theorem kept_added (h : Kept trace server) (i : Nat) {udp : UdpConnection}
    (hserial : udp.socket.serial = server.sockets) (hfd : 0 ≤ udp.fd)
    (hfree : server.inUse udp.fd = false)
    (hslots : ∀ (j : Nat) (after : RtspConnect) other, next.sessions[j]? = some (some after) →
      other ∈ after.slots → j = i ∧ other = udp ∨
        ∃ conn, server.sessions[j]? = some (some conn) ∧ other ∈ conn.slots)
    (hloop : next.loop = server.loop.addUdpConnection udp)
    (hsockets : next.sockets = server.sockets + 1)
    (hextra : ∀ j other, (j, .addUdpConnection other) ∈ extra ↔ j = i ∧ other = udp) :
    Kept (trace ++ extra) next := by
  obtain ⟨hnone, hother⟩ := not_in_use hfree
  obtain ⟨hinStep, hmap⟩ := EventLoop.add_new h.inStep hfd hnone
  have hlookup (fd : Int) (other : UdpConnection) (hentry : server.loop.udpConns fd = some other) :
      next.loop.udpConns fd = some other := by
    have hne : fd ≠ udp.fd := by
      rintro rfl
      rw [hnone] at hentry
      cases hentry
    rw [hloop, hmap, Function.update_of_ne hne, hentry]
  -- serials count upwards, so no earlier connection has the new one's
  have hold (j : Nat) (other : UdpConnection) (hadded : (j, .addUdpConnection other) ∈ trace) :
      other.socket.serial ≠ udp.socket.serial := by
    have hlt := h.numbered j other hadded
    omega
  refine ⟨hloop ▸ hinStep, ?_, ?_, ?_, ?_, ?_, ?_⟩
  · intro j other hadded
    rcases List.mem_append.1 hadded with hadded | hadded
    · have hlt := h.numbered j other hadded
      omega
    · obtain ⟨-, rfl⟩ := (hextra j other).1 hadded
      omega
  · -- one owner for each serial: two old ones, an old and the new one, or twice the new one
    intro j k first second hfirst hsecond hsame
    rcases List.mem_append.1 hfirst with hfirst | hfirst
    · rcases List.mem_append.1 hsecond with hsecond | hsecond
      · exact h.owner j k first second hfirst hsecond hsame
      · obtain ⟨-, rfl⟩ := (hextra k second).1 hsecond
        exact absurd hsame (hold j first hfirst)
    · obtain ⟨rfl, rfl⟩ := (hextra j first).1 hfirst
      rcases List.mem_append.1 hsecond with hsecond | hsecond
      · exact absurd hsame.symm (hold k second hsecond)
      · obtain ⟨rfl, rfl⟩ := (hextra k second).1 hsecond
        exact ⟨rfl, rfl⟩
  · intro j after other hafter hmem
    rcases hslots j after other hafter hmem with ⟨rfl, rfl⟩ | ⟨conn, hconn, hheld⟩
    · exact List.mem_append_right _ ((hextra j other).2 ⟨rfl, rfl⟩)
    · exact List.mem_append_left _ (h.slotAdded j conn other hconn hheld)
  · -- the entry of the loop is the new one or an old one
    intro fd other hentry
    rw [hloop, hmap] at hentry
    by_cases hsame : fd = udp.fd
    · rw [hsame, Function.update_self] at hentry
      cases hentry
      exact ⟨i, List.mem_append_right _ ((hextra i udp).2 ⟨rfl, rfl⟩)⟩
    · rw [Function.update_of_ne hsame] at hentry
      exact (h.mapAdded fd other hentry).imp fun j hadded => List.mem_append_left _ hadded
  · intro j after other entry hafter hmem hentry
    rw [hloop, hmap] at hentry
    rcases hslots j after other hafter hmem with ⟨rfl, rfl⟩ | ⟨conn, hconn, hheld⟩
    · rw [Function.update_self] at hentry
      cases hentry
      rfl
    · rw [Function.update_of_ne (hother j conn other hconn hheld)] at hentry
      exact h.slotOpen j conn other entry hconn hheld hentry
  · intro j other hadded hremoved
    have hbefore : (j, .removeUdpConnection other) ∉ trace :=
      fun hmem => hremoved (List.mem_append_left _ hmem)
    rcases List.mem_append.1 hadded with hadded | hadded
    · exact hlookup other.fd other (h.kept j other hadded hbefore)
    · obtain ⟨rfl, rfl⟩ := (hextra j other).1 hadded
      rw [hloop, hmap, Function.update_self]

/-- A session removes the connections in its slots. -/
theorem kept_removed (h : Kept trace server) {i : Nat} {conn : RtspConnect}
    (hconn : server.sessions[i]? = some (some conn)) (hslots : SlotsFrom server next)
    (hloop : next.loop = conn.slots.foldl EventLoop.removeUdpConnection server.loop)
    (hsockets : server.sockets ≤ next.sockets)
    (hextra : ∀ j udp, (j, .addUdpConnection udp) ∉ extra)
    (hremoved : ∀ udp ∈ conn.slots, (i, .removeUdpConnection udp) ∈ extra) :
    Kept (trace ++ extra) next := by
  obtain ⟨hinStep, hmap⟩ := remove_all h.inStep conn.slots
  have hentry (fd : Int) (udp : UdpConnection) (hnext : next.loop.udpConns fd = some udp) :
      server.loop.udpConns fd = some udp := by
    rw [hloop, hmap] at hnext
    split at hnext
    · cases hnext
    · exact hnext
  refine ⟨hloop ▸ hinStep, ?_, ?_, ?_, ?_, ?_, ?_⟩
  · intro j udp hadded
    simp only [List.mem_append, hextra, or_false] at hadded
    exact (h.numbered j udp hadded).trans_le hsockets
  · intro j k udp other hadded hother
    simp only [List.mem_append, hextra, or_false] at hadded hother
    exact h.owner j k udp other hadded hother
  · intro j after udp hafter hudp
    obtain ⟨before, hbefore, hmem⟩ := hslots j after udp hafter hudp
    exact List.mem_append_left _ (h.slotAdded j before udp hbefore hmem)
  · intro fd udp hudp
    exact (h.mapAdded fd udp (hentry fd udp hudp)).imp
      fun j hadded => List.mem_append_left _ hadded
  · intro j after udp other hafter hudp hother
    obtain ⟨before, hbefore, hmem⟩ := hslots j after udp hafter hudp
    exact h.slotOpen j before udp other hbefore hmem (hentry udp.fd other hother)
  · intro j udp hadded hkept
    simp only [List.mem_append, hextra, or_false, not_or] at hadded hkept
    have hregistered := h.kept j udp hadded hkept.1
    rw [hloop, hmap, if_neg, hregistered]
    rintro ⟨held, hheld, hfd⟩
    -- the descriptor is that of a connection of session `i`, so the connection is that one
    rw [← hfd] at hregistered
    obtain rfl := h.slotOpen i conn held udp hconn hheld hregistered
    obtain ⟨rfl, -⟩ := h.owner j i udp udp hadded (h.slotAdded i conn udp hconn hheld) rfl
    exact hkept.2 (hremoved udp hheld)

end Steps

/-! ## One session -/

/-- The tracks with a SETUP over UDP since the start or the last TEARDOWN. -/
structure OpenTracks where
  video : Bool
  audio : Bool

def OpenTracks.contains (tracks : OpenTracks) : Track → Bool
  | .video => tracks.video
  | .audio => tracks.audio

/-- After one more request. -/
def OpenTracks.next (tracks : OpenTracks) (asked : Action) : OpenTracks :=
  match asked with
  | .setup url transport =>
      match udpTrack url transport with
      | some .video => { tracks with video := true }
      | some .audio => { tracks with audio := true }
      | none => tracks
  | .teardown => ⟨false, false⟩
  | _ => tracks

/-- The open tracks after some requests. -/
def openTracks (sessionId : Bytes) (requests : List Bytes) : OpenTracks :=
  requests.foldl (fun tracks request => tracks.next (action sessionId request)) ⟨false, false⟩

/-- The request sets up this track over UDP. -/
def Opens (sessionId request : Bytes) (track : Track) : Prop :=
  ∃ url transport, action sessionId request = .setup url transport ∧
    udpTrack url transport = some track

/-- No track is set up over UDP twice without a TEARDOWN in between. -/
def NoneReopened (sessionId : Bytes) (requests : List Bytes) : Prop :=
  ∀ before request, before ++ [request] <+: requests → ∀ track, Opens sessionId request track →
    (openTracks sessionId before).contains track = false

theorem none_reopened_nil (sessionId : Bytes) : NoneReopened sessionId [] := by
  intro before request hleading
  simp at hleading

theorem none_reopened_snoc (sessionId : Bytes) (requests : List Bytes) (request : Bytes) :
    NoneReopened sessionId (requests ++ [request]) ↔
      NoneReopened sessionId requests ∧ ∀ track, Opens sessionId request track →
        (openTracks sessionId requests).contains track = false := by
  constructor
  · intro h
    exact ⟨fun before earlier hleading =>
      h before earlier (hleading.trans (List.prefix_append _ _)),
      h requests request List.prefix_rfl⟩
  · rintro ⟨hrequests, hlast⟩ before earlier hleading
    rcases List.prefix_concat_iff.1 hleading with heq | hleading
    · obtain ⟨rfl, hsame⟩ := List.append_inj' heq rfl
      cases hsame
      exact hlast
    · exact hrequests before earlier hleading

theorem open_tracks_snoc (sessionId : Bytes) (requests : List Bytes) (request : Bytes) :
    openTracks sessionId (requests ++ [request]) =
      (openTracks sessionId requests).next (action sessionId request) := by
  rw [openTracks, List.foldl_append]
  rfl

/-- What a session's requests so far say about its slots: `added` are the connections that it has
added to the loop. -/
structure Tracked (requests : List Bytes) (added : UdpConnection → Prop)
    (udpConns : Int → Option UdpConnection) (conn : RtspConnect) : Prop where
  rtcp : conn.videoRtcpConn = none ∧ conn.audioRtcpConn = none
  distinct : ∀ udp, conn.videoRtpConn = some udp → conn.audioRtpConn ≠ some udp
  opened : ∀ track, (openTracks conn.sessionId requests).contains track = true ↔
    ∃ udp, conn.slot track = some udp ∧ udpConns udp.fd = some udp
  held : NoneReopened conn.sessionId requests ↔
    ∀ udp, added udp → udpConns udp.fd = some udp → udp ∈ conn.slots

section Session

variable {requests : List Bytes} {request : Bytes} {added added' : UdpConnection → Prop}
  {udpConns udpConns' : Int → Option UdpConnection} {conn after : RtspConnect}

/-- The connections of a session without RTCP connections. -/
theorem mem_slots (h : conn.videoRtcpConn = none ∧ conn.audioRtcpConn = none)
    (udp : UdpConnection) : udp ∈ conn.slots ↔ ∃ track, conn.slot track = some udp := by
  have hslots : conn.slots = conn.videoRtpConn.toList ++ conn.audioRtpConn.toList := by
    unfold slots
    rw [h.1, h.2]
    cases conn.videoRtpConn <;> cases conn.audioRtpConn <;> rfl
  rw [hslots, List.mem_append, Option.mem_toList, Option.mem_toList]
  constructor
  · rintro (hvideo | haudio)
    · exact ⟨.video, hvideo⟩
    · exact ⟨.audio, haudio⟩
  · rintro ⟨track, hslot⟩
    cases track with
    | video => exact .inl hslot
    | audio => exact .inr hslot

/-- What does not change the session's connections in the loop keeps it tracked. -/
theorem Tracked.frame (h : Tracked requests added udpConns conn)
    (hslots : ∀ udp ∈ conn.slots, added udp)
    (hsame : ∀ udp, added udp → (udpConns' udp.fd = some udp ↔ udpConns udp.fd = some udp)) :
    Tracked requests added udpConns' conn where
  rtcp := h.rtcp
  distinct := h.distinct
  opened := by
    intro track
    rw [h.opened track]
    refine exists_congr fun udp => and_congr_right fun hslot => ?_
    exact (hsame udp (hslots udp ((mem_slots h.rtcp udp).2 ⟨track, hslot⟩))).symm
  held := by
    rw [h.held]
    exact forall_congr' fun udp => imp_congr_right fun hadded => by rw [hsame udp hadded]

/-- A request that opens and closes nothing. -/
theorem Tracked.quiet (h : Tracked requests added udpConns conn)
    (hid : after.sessionId = conn.sessionId)
    (hslots : after.slots = conn.slots ∧ after.slot = conn.slot ∧
      after.videoRtcpConn = conn.videoRtcpConn ∧ after.audioRtcpConn = conn.audioRtcpConn)
    (hopens : ∀ track, ¬ Opens conn.sessionId request track)
    (hnext : (openTracks conn.sessionId requests).next (action conn.sessionId request) =
      openTracks conn.sessionId requests) :
    Tracked (requests ++ [request]) added udpConns after where
  rtcp := ⟨hslots.2.2.1.trans h.rtcp.1, hslots.2.2.2.trans h.rtcp.2⟩
  distinct := by
    intro udp hvideo haudio
    have hslot := hslots.2.1
    exact h.distinct udp ((congrFun hslot .video).symm.trans hvideo)
      ((congrFun hslot .audio).symm.trans haudio)
  opened := by
    intro track
    rw [hid, open_tracks_snoc, hnext, h.opened track, hslots.2.1]
  held := by
    rw [hid, none_reopened_snoc, h.held, hslots.1]
    exact ⟨fun hheld => hheld.1, fun hheld =>
      ⟨hheld, fun track hopen => absurd hopen (hopens track)⟩⟩

theorem slot_setSlot (track other : Track) (udp : UdpConnection) (transport : Transport) :
    ((conn.setUp transport).setSlot track udp).slot other =
      if other = track then some udp else conn.slot other := by
  cases track <;> cases other <;> rfl

theorem contains_next {url : Bytes} {transport : Transport} {track : Track}
    (htrack : udpTrack url transport = some track) (tracks : OpenTracks) (other : Track) :
    (tracks.next (.setup url transport)).contains other =
      if other = track then true else tracks.contains other := by
  unfold OpenTracks.next
  simp only [htrack]
  cases track <;> cases other <;> rfl

/-- Slots of different tracks hold different connections. -/
theorem slot_ne (h : Tracked requests added udpConns conn) {track other : Track}
    (hne : other ≠ track) {udp : UdpConnection} (hslot : conn.slot track = some udp) :
    conn.slot other ≠ some udp := by
  cases track with
  | video =>
      cases other with
      | video => exact absurd rfl hne
      | audio => exact h.distinct udp hslot
  | audio =>
      cases other with
      | video => exact fun hvideo => h.distinct udp hvideo hslot
      | audio => exact absurd rfl hne

/-- The entry of another connection is not affected by a new one. -/
theorem entry_of_other {udp other : UdpConnection} (hnone : udpConns udp.fd = none)
    (hne : other ≠ udp) :
    Function.update udpConns udp.fd (some udp) other.fd = some other ↔
      udpConns other.fd = some other := by
  by_cases hsame : other.fd = udp.fd
  · rw [hsame, Function.update_self, hnone]
    exact iff_of_false (fun heq => hne (Option.some.inj heq).symm) (by simp)
  · rw [Function.update_of_ne hsame]

/-- A request opens one track at most. -/
theorem opens_unique {sessionId : Bytes} {track other : Track}
    (h : Opens sessionId request track) (hother : Opens sessionId request other) :
    other = track := by
  obtain ⟨url, transport, haction, htrack⟩ := h
  obtain ⟨url', transport', haction', htrack'⟩ := hother
  rw [haction] at haction'
  cases haction'
  rw [htrack] at htrack'
  exact (Option.some.inj htrack').symm

/-- A SETUP that opens a track, on a new socket. -/
theorem Tracked.reopened (h : Tracked requests added udpConns conn) {url : Bytes}
    {transport : Transport} {track : Track} {udp : UdpConnection}
    (haction : action conn.sessionId request = .setup url transport)
    (htrack : udpTrack url transport = some track)
    (hnew : ¬ added udp) (hslots : ∀ other ∈ conn.slots, added other)
    (hfd : ∀ other ∈ conn.slots, other.fd ≠ udp.fd) (hnone : udpConns udp.fd = none) :
    Tracked (requests ++ [request]) (fun other => added other ∨ other = udp)
      (Function.update udpConns udp.fd (some udp))
      ((conn.setUp transport).setSlot track udp) := by
  have hid : ((conn.setUp transport).setSlot track udp).sessionId = conn.sessionId := by
    cases track <;> rfl
  have hrtcp : ((conn.setUp transport).setSlot track udp).videoRtcpConn = none ∧
      ((conn.setUp transport).setSlot track udp).audioRtcpConn = none := by
    cases track <;> exact h.rtcp
  have hheld (track : Track) (other : UdpConnection) (hslot : conn.slot track = some other) :
      other ∈ conn.slots := (mem_slots h.rtcp other).2 ⟨track, hslot⟩
  have hopens : Opens conn.sessionId request track := ⟨url, transport, haction, htrack⟩
  have hentry (other : UdpConnection) (hadded : added other) :
      Function.update udpConns udp.fd (some udp) other.fd = some other ↔
        udpConns other.fd = some other :=
    entry_of_other hnone fun heq => hnew (heq ▸ hadded)
  refine ⟨hrtcp, ?_, ?_, ?_⟩
  · intro other hvideo haudio
    cases track with
    | video =>
        cases hvideo
        exact hnew (hslots udp (hheld .audio udp haudio))
    | audio =>
        cases haudio
        exact hnew (hslots udp (hheld .video udp hvideo))
  · intro other
    rw [hid, open_tracks_snoc, haction, contains_next htrack, slot_setSlot]
    by_cases hother : other = track
    · rw [if_pos hother, if_pos hother]
      exact iff_of_true rfl ⟨udp, rfl, Function.update_self _ _ _⟩
    · rw [if_neg hother, if_neg hother, h.opened other]
      refine exists_congr fun old => and_congr_right fun hslot => ?_
      exact (hentry old (hslots old (hheld other old hslot))).symm
  · rw [hid, none_reopened_snoc, h.held]
    constructor
    · rintro ⟨hall, hclosed⟩ other hadded hregistered
      rw [mem_slots hrtcp]
      rcases hadded with hadded | rfl
      · rw [hentry other hadded] at hregistered
        obtain ⟨held, hslot⟩ := (mem_slots h.rtcp other).1 (hall other hadded hregistered)
        by_cases hsame : held = track
        · -- the slot overwritten would hold a connection of an open track
          have hopen := (h.opened held).2 ⟨other, hslot, hregistered⟩
          rw [hsame, hclosed track hopens] at hopen
          cases hopen
        · exact ⟨held, by rw [slot_setSlot, if_neg hsame, hslot]⟩
      · exact ⟨track, by rw [slot_setSlot, if_pos rfl]⟩
    · intro hall
      have hkept (other : UdpConnection) (hadded : added other)
          (hregistered : udpConns other.fd = some other) :
          ∃ held, held ≠ track ∧ conn.slot held = some other := by
        obtain ⟨held, hslot⟩ := (mem_slots hrtcp other).1
          (hall other (.inl hadded) ((hentry other hadded).2 hregistered))
        rw [slot_setSlot] at hslot
        split at hslot
        · cases hslot
          exact absurd hadded hnew
        · rename_i hne
          exact ⟨held, hne, hslot⟩
      constructor
      · intro other hadded hregistered
        obtain ⟨held, -, hslot⟩ := hkept other hadded hregistered
        exact hheld held other hslot
      · intro other hother
        rw [opens_unique hopens hother, Bool.eq_false_iff]
        intro hopen
        obtain ⟨old, hslot, hregistered⟩ := (h.opened track).1 hopen
        obtain ⟨held, hne, hagain⟩ := hkept old (hslots old (hheld track old hslot)) hregistered
        exact slot_ne h hne hslot hagain

/-- A TEARDOWN. -/
theorem Tracked.tornDown (h : Tracked requests added udpConns conn)
    (haction : action conn.sessionId request = .teardown)
    (hopen : ∀ udp ∈ conn.slots, ∀ other, udpConns udp.fd = some other → other = udp)
    (hmap : ∀ fd, udpConns' fd = if ∃ udp ∈ conn.slots, udp.fd = fd then none else udpConns fd) :
    Tracked (requests ++ [request]) added udpConns' conn.released where
  rtcp := h.rtcp
  distinct := h.distinct
  opened := by
    intro track
    show (openTracks conn.sessionId (requests ++ [request])).contains track = true ↔
      ∃ udp, conn.slot track = some udp ∧ udpConns' udp.fd = some udp
    rw [open_tracks_snoc, haction]
    refine iff_of_false (by cases track <;> simp [OpenTracks.next, OpenTracks.contains]) ?_
    rintro ⟨udp, hslot, hregistered⟩
    rw [hmap, if_pos ⟨udp, (mem_slots h.rtcp udp).2 ⟨track, hslot⟩, rfl⟩] at hregistered
    cases hregistered
  held := by
    show NoneReopened conn.sessionId (requests ++ [request]) ↔
      ∀ udp, added udp → udpConns' udp.fd = some udp → udp ∈ conn.slots
    have hquiet (track : Track) : ¬ Opens conn.sessionId request track := by
      rintro ⟨url, transport, hsetup, -⟩
      rw [haction] at hsetup
      cases hsetup
    rw [none_reopened_snoc, h.held]
    constructor
    · rintro ⟨hall, -⟩ udp hadded hregistered
      rw [hmap] at hregistered
      split at hregistered
      · cases hregistered
      · exact hall udp hadded hregistered
    · intro hall
      refine ⟨fun udp hadded hregistered => ?_, fun track hopens => absurd hopens (hquiet track)⟩
      by_cases hsame : ∃ slot ∈ conn.slots, slot.fd = udp.fd
      · obtain ⟨slot, hslot, hfd⟩ := hsame
        rw [← hfd] at hregistered
        rwa [hopen slot hslot udp hregistered]
      · exact hall udp hadded (by rw [hmap, if_neg hsame, hregistered])

end Session

end CarDetect.Media
