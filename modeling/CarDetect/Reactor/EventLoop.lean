import CarDetect.Lib.BigEndian
import Mathlib.Logic.Function.Basic

/-!
# UDP connections in the event loop

`addUdpConnection` and `removeUdpConnection` follow the functions of `EventLoop`: the map
`_udpConns` from descriptors to connections, and the descriptors registered with epoll. A
connection in the map is kept open by it. `InStep` says that the two hold the same connections;
`add_new` and `remove_entry` say that the two functions keep it and which entry they change.
-/

namespace CarDetect.Reactor

open BigEndian

/-- What `socket()` returns: the descriptor, negative when it fails, and a number that no other
socket has. -/
structure Socket where
  fd : Int
  serial : Nat
deriving DecidableEq, Repr

/-- `UdpConnection`, with the local and the peer address. -/
structure UdpConnection where
  socket : Socket
  localIp : Bytes
  localPort : UInt16
  peerIp : Bytes
  peerPort : UInt16
deriving DecidableEq, Repr

/-- `getUdpFd` -/
def UdpConnection.fd (conn : UdpConnection) : Int := conn.socket.fd

/-- The UDP side of `EventLoop`: `_udpConns`, and the socket registered under each descriptor. -/
structure EventLoop where
  udpConns : Int → Option UdpConnection
  epoll : Int → Option UdpConnection

namespace EventLoop

/-- A loop without UDP connections. -/
def empty : EventLoop := ⟨fun _ => none, fun _ => none⟩

/-- `addEpollReadFd`. The kernel refuses an invalid descriptor and one that is registered. -/
def addEpollReadFd (loop : EventLoop) (conn : UdpConnection) : EventLoop :=
  if conn.fd < 0 ∨ (loop.epoll conn.fd).isSome then loop
  else { loop with epoll := Function.update loop.epoll conn.fd (some conn) }

/-- `delEpollReadFd` -/
def delEpollReadFd (loop : EventLoop) (fd : Int) : EventLoop :=
  { loop with epoll := Function.update loop.epoll fd none }

/-- `_udpConns.erase(fd)` -/
def erase (loop : EventLoop) (fd : Int) : EventLoop :=
  { loop with udpConns := Function.update loop.udpConns fd none }

/-- `addUdpConnection` -/
def addUdpConnection (loop : EventLoop) (conn : UdpConnection) : EventLoop :=
  let loop :=
    if (loop.udpConns conn.fd).isSome then (loop.delEpollReadFd conn.fd).erase conn.fd else loop
  addEpollReadFd { loop with udpConns := Function.update loop.udpConns conn.fd (some conn) } conn

/-- `removeUdpConnection` -/
def removeUdpConnection (loop : EventLoop) (conn : UdpConnection) : EventLoop :=
  (loop.erase conn.fd).delEpollReadFd conn.fd

/-- Every connection in the map stands under its own descriptor. -/
def Keyed (udpConns : Int → Option UdpConnection) : Prop :=
  ∀ fd conn, udpConns fd = some conn → conn.fd = fd

/-- The map and epoll hold the same connections. -/
structure InStep (loop : EventLoop) : Prop where
  registered : loop.epoll = loop.udpConns
  keyed : Keyed loop.udpConns

theorem empty_in_step : empty.InStep := ⟨rfl, by simp [empty, Keyed]⟩

variable {loop : EventLoop} {conn : UdpConnection} {udpConns : Int → Option UdpConnection}

theorem Keyed.insert (h : Keyed udpConns) (conn : UdpConnection) :
    Keyed (Function.update udpConns conn.fd (some conn)) := by
  intro fd other hother
  by_cases heq : fd = conn.fd
  · subst heq
    rw [Function.update_self] at hother
    cases hother
    rfl
  · rw [Function.update_of_ne heq] at hother
    exact h fd other hother

theorem Keyed.erase (h : Keyed udpConns) (fd : Int) :
    Keyed (Function.update udpConns fd none) := by
  intro key other hother
  by_cases heq : key = fd
  · rw [heq, Function.update_self] at hother
    cases hother
  · rw [Function.update_of_ne heq] at hother
    exact h key other hother

/-- A connection with a new descriptor is added to the map and to epoll. -/
theorem add_new (h : loop.InStep) (hfd : 0 ≤ conn.fd) (hnew : loop.udpConns conn.fd = none) :
    (loop.addUdpConnection conn).InStep ∧
      (loop.addUdpConnection conn).udpConns =
        Function.update loop.udpConns conn.fd (some conn) := by
  have hfree : ¬ (conn.fd < 0 ∨ (loop.epoll conn.fd).isSome) := by
    rw [h.registered, hnew]
    simpa using hfd
  have hadd : loop.addUdpConnection conn =
      ⟨Function.update loop.udpConns conn.fd (some conn),
        Function.update loop.epoll conn.fd (some conn)⟩ := by
    simp [addUdpConnection, addEpollReadFd, hnew, if_neg hfree]
  rw [hadd]
  exact ⟨⟨by rw [h.registered], h.keyed.insert conn⟩, rfl⟩

/-- The entry under the connection's descriptor is removed from the map and from epoll. -/
theorem remove_entry (conn : UdpConnection) (h : loop.InStep) :
    (loop.removeUdpConnection conn).InStep ∧
      (loop.removeUdpConnection conn).udpConns = Function.update loop.udpConns conn.fd none := by
  refine ⟨⟨?_, h.keyed.erase conn.fd⟩, rfl⟩
  simp [removeUdpConnection, erase, delEpollReadFd, h.registered]

end EventLoop

end CarDetect.Reactor
