import Tun2Proxy.Tcp.State
import Tun2Proxy.Udp.Pack

open tun2proxy.udppackage

namespace tun2proxy.core

/-- `udpConnState`. -/
inductive UdpConnState where
  | udpConnecting
  | udpConnected
  | udpClosed
  deriving DecidableEq, Repr

/-- The errors that `ReceiveTo` and `WriteFrom` return. -/
inductive UdpError where
  -- "connection closed"
  | closed
  -- "not connected"
  | notConnected
  -- "write proxy failed: %v"
  | writeProxyFailed
  -- the error of `ipAddrATON`
  | invalidAddress
  deriving DecidableEq, Repr

/-- A Go byte slice, as far as its content goes; `none` is nil. -/
abbrev Bytes := Option (List UInt8)

def Bytes.content (data : Bytes) : List UInt8 := data.getD []

/-- `append([]byte(nil), data...)`: a copy of nothing is nil. -/
def Bytes.copy (data : Bytes) : Bytes := if data.content = [] then none else some data.content

@[simp] theorem Bytes.content_copy (data : Bytes) : data.copy.content = data.content := by
  unfold Bytes.copy
  split
  · rename_i hnil
    exact hnil.symm
  · rfl

/-- `udpConnId`, the key of `udpConns`. -/
structure UdpConnId where
  src : String
  deriving DecidableEq, Repr

/-- Connections are numbered in the order `newUDPConn` makes them. -/
abbrev UdpNo := Nat

/-- `udpPacket`. The number of the `ReceiveTo` call that it came with is not in the
    source. -/
structure UdpPacket where
  call : Nat
  data : Bytes
  addr : UDPAddr
  deriving DecidableEq, Repr

/-- The capacity of `pending`. -/
def pendingCap : Nat := 64

/-- A call of `ReceiveTo` or `WriteFrom` that returned. -/
structure UdpReturn where
  call : Nat
  err : Option UdpError
  deriving DecidableEq, Repr

/-- `udpConn`. The fields from `closed` on are not in the source. They record whether
    `Close` has changed the state; how many calls of `ReceiveTo` and `WriteFrom` were
    made, which numbers them; with what `ReceiveTo` was called; which calls returned;
    what was put into `pending`; with what `handler.ReceiveTo` was called, and whether
    it returned an error; and which calls came to `udp_sendto`. -/
structure UdpConn where
  -- `udpConnId` made from `localAddr.String()`
  connId : UdpConnId
  state : UdpConnState
  -- the content of the channel; `none` is a nil channel
  pending : Option (List UdpPacket)
  closed : Bool
  calls : Nat
  arrived : List UdpPacket
  returned : List UdpReturn
  queued : List UdpPacket
  invoked : List UdpPacket
  handlerErr : Bool
  sent : List Nat
  deriving DecidableEq, Repr

/-- Where the goroutine of `newUDPConn` stands. -/
inductive Connector where
  -- inside `handler.Connect`
  | connecting
  -- `Connect` failed, in `Close` before `conn.Lock`
  | close
  -- in `Close` before `udpConns.Delete`
  | unregister
  -- `Connect` succeeded, before `conn.Lock`
  | connected
  -- at the `select` of the drain loop
  | drain
  -- inside `handler.ReceiveTo` with a packet from `pending`
  | handle (pkt : UdpPacket)
  -- the loop was left after an error
  | stopped
  -- `pending` was found empty, before it is set to nil
  | clear
  -- the loop was left after that
  | drained
  -- `Close` has returned
  | failed
  deriving DecidableEq, Repr

/-- The goroutine has ended. -/
def Connector.ended : Connector → Bool
  | .stopped | .drained | .failed => true
  | _ => false

/-- A value of `UdpConMap` with its dynamic type. -/
inductive TimeoutVal where
  | int32 (v : Int32)
  | int (v : Int)
  deriving DecidableEq, Repr

/-- `timeout`. -/
def timeout : Int32 := 10 * 60 * 12

/-- Where a goroutine stands that runs code of this package on UDP connections. -/
inductive UdpProc where
  | idle
  -- `udpRecvFn` before `udpConns.Load`
  | load (id : UdpConnId) (data : Bytes) (addr : UDPAddr)
  -- nothing found, before `newUDPConn`
  | create (id : UdpConnId) (data : Bytes) (addr : UDPAddr)
  -- before `udpConns.Store`
  | store (c : UdpNo) (data : Bytes) (addr : UDPAddr)
  -- before `UdpConMap.Store`
  | touch (c : UdpNo) (data : Bytes) (addr : UDPAddr)
  -- before `ReceiveTo`
  | receive (c : UdpNo) (data : Bytes) (addr : UDPAddr)
  -- `ReceiveTo` before `checkState`
  | check (c : UdpNo) (pkt : UdpPacket)
  -- inside `handler.ReceiveTo`
  | handle (c : UdpNo) (pkt : UdpPacket)
  -- `WriteFrom` before `checkState`
  | writeCheck (c : UdpNo) (call : Nat) (data : List UInt8) (addr : UDPAddr)
  -- before `ipAddrATON` and `udp_sendto`
  | send (c : UdpNo) (call : Nat) (data : List UInt8) (addr : UDPAddr)
  -- `Close` before `conn.Lock`, called by `onAction` or not
  | close (c : UdpNo) (byAction : Bool)
  -- before `udpConns.Delete`
  | unregister (c : UdpNo) (byAction : Bool)
  -- `onAction` in `Range`, holding `Udplock`
  | range
  -- after `Close`, before `UdpConMap.Delete`
  | forget (c : UdpNo)
  -- before its own `udpConns.Delete`
  | unregisterAgain (c : UdpNo)
  deriving DecidableEq, Repr

/-- The package state for UDP, with every goroutine. -/
structure UdpStack where
  created : Nat
  conns : UdpNo → UdpConn
  connectors : UdpNo → Connector
  udpConns : UdpConnId → Option UdpNo
  udpConMap : UdpNo → Option TimeoutVal
  -- the goroutine that runs `udpRecvFn`, which holds `lwipMutex`
  lwip : Option Tid
  udplock : Option Tid
  procs : Tid → UdpProc

namespace UdpStack

def modConn (s : UdpStack) (c : UdpNo) (f : UdpConn → UdpConn) : UdpStack :=
  { s with conns := Function.update s.conns c (f (s.conns c)) }

def setConnector (s : UdpStack) (c : UdpNo) (g : Connector) : UdpStack :=
  { s with connectors := Function.update s.connectors c g }

def setProc (s : UdpStack) (t : Tid) (p : UdpProc) : UdpStack :=
  { s with procs := Function.update s.procs t p }

/-- `udpConns.Delete` with the key of `c`. -/
def unregister (s : UdpStack) (c : UdpNo) : UdpStack :=
  { s with udpConns := Function.update s.udpConns (s.conns c).connId none }

/-- The goroutine returns from `udpRecvFn`, if it runs it, or from its call. -/
def finish (s : UdpStack) (t : Tid) : UdpStack :=
  { s.setProc t .idle with lwip := if s.lwip = some t then none else s.lwip }

section
variable (s : UdpStack) (c c' : UdpNo) (t t' : Tid) (p : UdpProc) (g : Connector) (id : UdpConnId)
  (f : UdpConn → UdpConn)

@[simp] theorem modConn_conns :
    (s.modConn c f).conns c' = if c' = c then f (s.conns c) else s.conns c' := by
  simp [modConn, Function.update_apply]

@[simp] theorem modConn_created : (s.modConn c f).created = s.created := rfl
@[simp] theorem modConn_connectors : (s.modConn c f).connectors = s.connectors := rfl
@[simp] theorem modConn_udpConns : (s.modConn c f).udpConns = s.udpConns := rfl
@[simp] theorem modConn_udpConMap : (s.modConn c f).udpConMap = s.udpConMap := rfl
@[simp] theorem modConn_lwip : (s.modConn c f).lwip = s.lwip := rfl
@[simp] theorem modConn_procs : (s.modConn c f).procs = s.procs := rfl

@[simp] theorem setConnector_connectors :
    (s.setConnector c g).connectors c' = if c' = c then g else s.connectors c' := by
  simp [setConnector, Function.update_apply]

@[simp] theorem setConnector_created : (s.setConnector c g).created = s.created := rfl
@[simp] theorem setConnector_conns : (s.setConnector c g).conns = s.conns := rfl
@[simp] theorem setConnector_udpConns : (s.setConnector c g).udpConns = s.udpConns := rfl
@[simp] theorem setConnector_udpConMap : (s.setConnector c g).udpConMap = s.udpConMap := rfl
@[simp] theorem setConnector_lwip : (s.setConnector c g).lwip = s.lwip := rfl
@[simp] theorem setConnector_procs : (s.setConnector c g).procs = s.procs := rfl

@[simp] theorem setProc_procs : (s.setProc t p).procs t' = if t' = t then p else s.procs t' := by
  simp [setProc, Function.update_apply]

@[simp] theorem setProc_created : (s.setProc t p).created = s.created := rfl
@[simp] theorem setProc_conns : (s.setProc t p).conns = s.conns := rfl
@[simp] theorem setProc_connectors : (s.setProc t p).connectors = s.connectors := rfl
@[simp] theorem setProc_udpConns : (s.setProc t p).udpConns = s.udpConns := rfl
@[simp] theorem setProc_udpConMap : (s.setProc t p).udpConMap = s.udpConMap := rfl
@[simp] theorem setProc_lwip : (s.setProc t p).lwip = s.lwip := rfl

@[simp] theorem unregister_udpConns : (s.unregister c).udpConns id =
    if id = (s.conns c).connId then none else s.udpConns id := by
  simp [unregister, Function.update_apply]

@[simp] theorem unregister_created : (s.unregister c).created = s.created := rfl
@[simp] theorem unregister_conns : (s.unregister c).conns = s.conns := rfl
@[simp] theorem unregister_connectors : (s.unregister c).connectors = s.connectors := rfl
@[simp] theorem unregister_lwip : (s.unregister c).lwip = s.lwip := rfl
@[simp] theorem unregister_procs : (s.unregister c).procs = s.procs := rfl

@[simp] theorem finish_procs :
    (s.finish t).procs t' = if t' = t then .idle else s.procs t' := by
  simp [finish]

@[simp] theorem finish_lwip :
    (s.finish t).lwip = if s.lwip = some t then none else s.lwip := rfl
@[simp] theorem finish_created : (s.finish t).created = s.created := rfl
@[simp] theorem finish_conns : (s.finish t).conns = s.conns := rfl
@[simp] theorem finish_connectors : (s.finish t).connectors = s.connectors := rfl
@[simp] theorem finish_udpConns : (s.finish t).udpConns = s.udpConns := rfl

end

end UdpStack

end tun2proxy.core
