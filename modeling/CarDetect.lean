import CarDetect.Stream.RoundTrip
import CarDetect.Stream.Fabrication
import CarDetect.Stream.Interference
import CarDetect.Stream.AccessUnits
import CarDetect.Stream.Markers
import CarDetect.Qt.SerialOrder
import CarDetect.Qt.PacketReads
import CarDetect.Qt.Representation
import CarDetect.Media.KcpRelay
import CarDetect.Reactor.Chunking
import CarDetect.Reactor.ThreadPool
import CarDetect.Reactor.WriteErrors
import CarDetect.Reactor.TaskQueue
import CarDetect.Reactor.Startup
import CarDetect.Reactor.Eventor
import CarDetect.Reactor.Expiry
import CarDetect.Reactor.TimerRemoval
import CarDetect.Reactor.TimerUnits
import CarDetect.Media.BodyAgreement
import CarDetect.Media.TransportForms
import CarDetect.Media.Lifecycle
import CarDetect.Media.UdpRelease
import CarDetect.Media.PortAllocation
import CarDetect.Media.SessionIds
import CarDetect.Monitor.Dispatch
import CarDetect.Monitor.Handshake
import CarDetect.Monitor.RemoveCam
import CarDetect.Monitor.Readiness
import CarDetect.Monitor.Agreement
import CarDetect.Monitor.Descriptors
import CarDetect.Monitor.TwoParsers
import CarDetect.Camera.SetupExchange
import CarDetect.Camera.AnnexB
import CarDetect.Camera.Chroma
import CarDetect.Camera.Encoder
import CarDetect.Camera.KcpSchedule
import CarDetect.Camera.Formats
import CarDetect.Camera.Describe
import CarDetect.Kcp.Datagram
import CarDetect.Kcp.Delivery
import CarDetect.Kcp.Schedule
import CarDetect.Stream.Pipeline
import CarDetect.Camera.VideoThread
import CarDetect.Qt.VideoGrid
import CarDetect.Stream.EndToEnd
