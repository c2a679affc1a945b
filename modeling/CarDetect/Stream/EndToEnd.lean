import CarDetect.Camera.VideoThread
import CarDetect.Qt.VideoGrid
import CarDetect.Stream.Interference
import CarDetect.Stream.Pipeline

/-!
# From the encoder to the screen

What `video_stream_thread` sends goes through the networks and the server to a client, whose
reassembler hands frames to `handleFrame`. `watched_in_order` puts the parts together: what a widget
shows are the first of the pictures that libavcodec makes of the beginning of the stream that the
encoder has produced.
-/

namespace CarDetect.Stream

open BigEndian Kcp Machine Qt
open Camera (RtspSession VideoStream VideoThread CodecState turn stamped sentFrames sends_run)

section Frames

variable {s final : H264RtpReassembler} {streamName : QString} {packets : List Bytes}
  {frames : List FrameReady}

/-- The frames that are made of the packets of a stream have its name. -/
theorem feed_names (hfeed : feed s (callsFor streamName packets) = .ok (final, frames)) :
    ∀ frame ∈ frames, frame.1 = streamName := by
  refine (run_invariant (fun _ => True) (fun frame : FrameReady => frame.1 = streamName)
    (fun call => call.1 = streamName) (fun state call following out _ hcall hstep => ?_) trivial
    (fun call hcall => ?_) hfeed).2
  · exact ⟨trivial, fun frame hframe => (handle_names hstep hframe).trans hcall⟩
  · obtain ⟨packet, -, rfl⟩ := List.mem_map.1 hcall
    rfl

/-- So they are all frames of this stream. -/
theorem framesFor_all (hnames : ∀ frame ∈ frames, frame.1 = streamName) :
    framesFor streamName frames = frames.map Prod.snd := by
  rw [framesFor, List.filter_eq_self.2]
  exact fun frame hframe => decide_eq_true (hnames frame hframe)

end Frames

section Watching

variable {κ σ : Type*} [DecidableEq κ] {stream : VideoStream} {session : RtspSession}
  {codec : CodecState} {turns : List Camera.Turn} {thread : VideoThread} {packets : List Bytes}
  {conv : UInt32} {moves : List (Move κ)} {final : Pipeline κ} {out : List Empty} {client : κ}
  {viewer : Viewer} {avcodec : Avcodec σ}

/-- A client that has watched from the beginning shows the pictures of what the encoder has
produced, from its first frame on and in its order, whatever the networks do, whatever the other
clients do and in whatever order the threads of the client take their steps. -/
theorem watched_in_order (hencodes : ∀ input ∈ turns, input.Encodes)
    (hthread : Machine.run (turn stream) (VideoThread.start session codec) turns =
      .ok (thread, packets))
    (hsend : Sendable (stamped 0 (sentFrames stream codec turns)))
    (hcaptures : captures moves <+: packets)
    (hfresh : Guarded Pipeline.step Pipeline.Admits (Pipeline.start conv) moves)
    (hrun : run Pipeline.step (Pipeline.start conv) moves = .ok (final, out))
    (hviewer : final.viewers client = some viewer) (hsince : viewer.since = 0)
    (hconforms : avcodec.Conforms) (streamName : QString) :
    ∃ reassembler frames,
      feed fresh (callsFor streamName viewer.handed) = .ok (reassembler, frames) ∧
      emitted frames <+: deliveredStream session.rtpSeq
        (stamped 0 (sentFrames stream codec turns)) ∧
      ∀ views, received views = frames →
        ∃ grid, run (VideoGrid.step avcodec) .start views = .ok (grid, []) ∧
          ∀ index, grid.videoWidgets[index]? = some streamName →
            Viewed avcodec grid index (frames.map Prod.snd) := by
  obtain ⟨last, hsent⟩ := sends_run stream (VideoThread.start session codec) hencodes
  rw [hthread] at hsent
  obtain ⟨-, hpackets⟩ := Prod.mk.inj (Except.ok.inj hsent)
  obtain ⟨reassembler, frames, hfeed, hemitted⟩ := decoded_in_order hsend
    (hpackets ▸ hcaptures) hfresh hrun hviewer hsince streamName
  refine ⟨reassembler, frames, hfeed, hemitted, fun views hviews => ?_⟩
  obtain ⟨grid, hgrid, hviewing⟩ := viewing_run hconforms (viewing_start avcodec) views
  rw [List.nil_append, hviews] at hviewing
  refine ⟨grid, hgrid, fun index hindex => ?_⟩
  have hview := viewed_of hconforms hviewing hindex
  rwa [framesFor_all (feed_names hfeed)] at hview

/-- A frame of the stream, and the steps that put it on the screen. -/
def onScreen (frames : List FrameReady) : List View :=
  frames.map (fun frame => .frame frame.1 frame.2 (true, true)) ++
    [.work 0, .emit 0, .deliver, .paint 0]

theorem received_onScreen (frames : List FrameReady) : received (onScreen frames) = frames := by
  induction frames with
  | nil => rfl
  | cons frame frames ih =>
      show frame :: received (onScreen frames) = frame :: frames
      rw [ih]

theorem watched_in_order_broadcast :
    ∃ final viewer, run Pipeline.step (Pipeline.start 7) broadcast = .ok (final, []) ∧
      final.viewers true = some viewer ∧
      ∃ reassembler frames,
        feed fresh (callsFor "door" viewer.handed) = .ok (reassembler, frames) ∧
        emitted frames <+: deliveredStream 1
          [(0, [0x67, 0x42]), (0, [0x65, 0x88]), (1500, [0x41, 0x9A])] ∧
        ∃ grid, run (VideoGrid.step greyCodec) .start (onScreen frames) = .ok (grid, []) ∧
          ∀ index, grid.videoWidgets[index]? = some "door" →
            Viewed greyCodec grid index (frames.map Prod.snd) := by
  obtain ⟨final, hrun, hviewer⟩ := broadcast_handed
  obtain ⟨viewer, hviewer, heq⟩ := Option.map_eq_some_iff.1 hviewer
  obtain ⟨thread, hthread⟩ := sends_run Camera.smallStream
    (VideoThread.start ⟨1, 0, "udp", 0⟩ .initial) Camera.encodes_pictures
  have hsend : Sendable [(0, [0x67, 0x42]), (0, [0x65, 0x88]), (1500, [0x41, 0x9A])] := by decide
  have hcaptures : captures broadcast <+: (Camera.sendNalus ⟨1, 0, "udp", 0⟩
      [(0, [0x67, 0x42]), (0, [0x65, 0x88]), (1500, [0x41, 0x9A])]).2 := ⟨_, rfl⟩
  obtain ⟨reassembler, frames, hfeed, hemitted, hviews⟩ :=
    watched_in_order Camera.encodes_pictures hthread hsend hcaptures broadcast_fresh hrun hviewer
      (Prod.mk.inj heq).2 grey_conforms "door"
  exact ⟨final, viewer, hrun, hviewer, reassembler, frames, hfeed, hemitted,
    hviews (onScreen frames) (received_onScreen frames)⟩

end Watching

end CarDetect.Stream
