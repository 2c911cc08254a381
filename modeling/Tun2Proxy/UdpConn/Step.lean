import Tun2Proxy.UdpConn.State

open tun2proxy.machine tun2proxy.udppackage

namespace tun2proxy.core

/-- The calls that handlers, and for `close` also `lwipStack.Close`, make on a
    connection. -/
inductive UdpCall where
  | receiveTo (c : UdpNo) (data : Bytes) (addr : UDPAddr)
  | writeFrom (c : UdpNo) (data : List UInt8) (addr : UDPAddr)
  | close (c : UdpNo)
  deriving DecidableEq, Repr

def UdpCall.conn : UdpCall → UdpNo
  | .receiveTo c _ _ | .writeFrom c _ _ | .close c => c

/-- The atomic sections, with the answers of handler, timer and network. -/
inductive UdpAct where
  -- lwIP calls `udpRecvFn` under `lwipMutex`; `none` when one of the addresses is invalid
  | recvFn (t : Tid) (id : Option UdpConnId) (data : Bytes) (addr : UDPAddr)
  -- `newUDPConn`, or the return when no handler is registered
  | create (t : Tid) (registered : Bool)
  | call (t : Tid) (op : UdpCall)
  -- `handler.ReceiveTo`, called by `ReceiveTo`, returns nil or an error
  | handled (t : Tid) (nilErr : Bool)
  -- `ipAddrATON`, and `udp_sendto` if it succeeds
  | sendto (t : Tid) (nilErr : Bool)
  -- the next section of goroutine `t` in all other places
  | run (t : Tid)
  -- the timer calls `onAction`
  | action (t : Tid)
  -- `Range` comes to the entry of `c`
  | visit (t : Tid) (c : UdpNo)
  -- `handler.Connect` returns nil or an error
  | connect (c : UdpNo) (nilErr : Bool)
  -- the next section of the goroutine of `newUDPConn`
  | connector (c : UdpNo)
  -- `handler.ReceiveTo`, called by the drain loop, returns nil or an error
  | drained (c : UdpNo) (nilErr : Bool)
  deriving DecidableEq, Repr

/-- `newUDPConn`. -/
def newUDPConn (id : UdpConnId) : UdpConn :=
  { connId := id
    state := .udpConnecting
    pending := some []
    closed := false
    calls := 0
    arrived := []
    returned := []
    queued := []
    invoked := []
    handlerErr := false
    sent := [] }

/-- `checkState`; `none` is a nil error. -/
def UdpConnState.checkState : UdpConnState → Option UdpError
  | .udpClosed => some .closed
  | .udpConnected => none
  | .udpConnecting => some .notConnected

/-- `enqueueEarlyPacket`; `none` where it returns false. -/
def UdpConn.enqueueEarlyPacket (conn : UdpConn) (pkt : UdpPacket) : Option UdpConn :=
  if conn.state = .udpConnecting then
    match conn.pending with
    | some packets =>
      let copy := { pkt with data := pkt.data.copy }
      if packets.length < pendingCap then
        some { conn with pending := some (packets ++ [copy]), queued := conn.queued ++ [copy] }
      else none
    | none => none
  else none

namespace UdpConn

/-- A call of `WriteFrom` begins. -/
def called (conn : UdpConn) : UdpConn := { conn with calls := conn.calls + 1 }

/-- A call of `ReceiveTo` begins. -/
def arrive (conn : UdpConn) (pkt : UdpPacket) : UdpConn :=
  { conn with calls := conn.calls + 1, arrived := conn.arrived ++ [pkt] }

/-- A call returns. -/
def ret (conn : UdpConn) (call : Nat) (err : Option UdpError) : UdpConn :=
  { conn with returned := ⟨call, err⟩ :: conn.returned }

/-- The call of `handler.ReceiveTo`. -/
def invoke (conn : UdpConn) (pkt : UdpPacket) : UdpConn :=
  { conn with invoked := conn.invoked ++ [pkt] }

/-- Its return. -/
def handled (conn : UdpConn) (nilErr : Bool) : UdpConn :=
  { conn with handlerErr := conn.handlerErr || !nilErr }

/-- `conn.state = udpClosed` in `Close`. -/
def setClosed (conn : UdpConn) : UdpConn := { conn with state := .udpClosed, closed := true }

end UdpConn

namespace UdpStack

/-- The section of `ReceiveTo` up to the result of `enqueueEarlyPacket`. -/
def receiveTo (s : UdpStack) (t : Tid) (c : UdpNo) (data : Bytes) (addr : UDPAddr) : UdpStack :=
  let pkt : UdpPacket := ⟨(s.conns c).calls, data, addr⟩
  match ((s.conns c).arrive pkt).enqueueEarlyPacket pkt with
  | some conn => (s.modConn c fun _ => conn.ret pkt.call none).finish t
  | none => (s.modConn c fun conn => conn.arrive pkt).setProc t (.check c pkt)

/-- The next section of a goroutine. -/
def procStep (s : UdpStack) (t : Tid) : Option UdpStack :=
  match s.procs t with
  | .load id data addr =>
    match s.udpConns id with
    | some c => some (s.setProc t (.touch c data addr))
    | none => some (s.setProc t (.create id data addr))
  | .store c data addr =>
    some ({ s with udpConns := Function.update s.udpConns (s.conns c).connId (some c) }.setProc t
      (.touch c data addr))
  | .touch c data addr =>
    if s.udplock = none then
      some ({ s with udpConMap := Function.update s.udpConMap c (some (.int32 timeout)) }.setProc t
        (.receive c data addr))
    else none
  | .receive c data addr => some (s.receiveTo t c data addr)
  | .check c pkt =>
    match (s.conns c).state.checkState with
    | some e => some ((s.modConn c fun conn => conn.ret pkt.call (some e)).finish t)
    | none => some ((s.modConn c fun conn => conn.invoke pkt).setProc t (.handle c pkt))
  | .writeCheck c call data addr =>
    match (s.conns c).state.checkState with
    | some e => some ((s.modConn c fun conn => conn.ret call (some e)).finish t)
    | none => some (s.setProc t (.send c call data addr))
  | .close c byAction => some ((s.modConn c UdpConn.setClosed).setProc t (.unregister c byAction))
  | .unregister c byAction =>
    some ((s.unregister c).setProc t (if byAction then .forget c else .idle))
  | .range => some { s.setProc t .idle with udplock := none }
  | .forget c =>
    some ({ s with udpConMap := Function.update s.udpConMap c none }.setProc t (.unregisterAgain c))
  | .unregisterAgain c => some ((s.unregister c).setProc t .range)
  | _ => none

/-- The next section of the goroutine of `newUDPConn`. -/
def connectorStep (s : UdpStack) (c : UdpNo) : Option UdpStack :=
  match s.connectors c with
  | .close => some ((s.modConn c UdpConn.setClosed).setConnector c .unregister)
  | .unregister => some ((s.unregister c).setConnector c .failed)
  | .connected =>
    some ((s.modConn c fun conn => { conn with state := .udpConnected }).setConnector c .drain)
  | .drain =>
    match (s.conns c).pending with
    | some (pkt :: rest) =>
      some ((s.modConn c fun conn => { conn with pending := some rest }.invoke pkt).setConnector c
        (.handle pkt))
    | some [] | none => some (s.setConnector c .clear)
  | .clear => some ((s.modConn c fun conn => { conn with pending := none }).setConnector c .drained)
  | _ => none

/-- One atomic section. -/
def step (s : UdpStack) : UdpAct → Option UdpStack
  | .recvFn t id data addr =>
    if s.procs t = .idle ∧ s.lwip = none then
      match id with
      | none => some s
      | some id => some { s.setProc t (.load id data addr) with lwip := some t }
    else none
  | .create t registered =>
    match s.procs t with
    | .create id data addr =>
      if registered then
        some { s.setProc t (.store s.created data addr) with
          created := s.created + 1
          conns := Function.update s.conns s.created (newUDPConn id)
          connectors := Function.update s.connectors s.created .connecting }
      else some (s.finish t)
    | _ => none
  | .call t op =>
    if s.procs t = .idle ∧ op.conn < s.created then
      match op with
      | .receiveTo c data addr => some (s.receiveTo t c data addr)
      | .writeFrom c data addr =>
        if data = [] then some s
        else some ((s.modConn c UdpConn.called).setProc t (.writeCheck c (s.conns c).calls data addr))
      | .close c => some (s.setProc t (.close c false))
    else none
  | .handled t nilErr =>
    match s.procs t with
    | .handle c pkt =>
      some ((s.modConn c fun conn => (conn.handled nilErr).ret pkt.call
        (if nilErr then none else some .writeProxyFailed)).finish t)
    | _ => none
  | .sendto t nilErr =>
    match s.procs t with
    | .send c call _ _ =>
      if nilErr then
        some ((s.modConn c fun conn => { conn with sent := call :: conn.sent }.ret call none).finish t)
      else
        some ((s.modConn c fun conn => conn.ret call (some .invalidAddress)).finish t)
    | _ => none
  | .run t => s.procStep t
  | .action t =>
    if s.procs t = .idle ∧ s.udplock = none then some { s.setProc t .range with udplock := some t }
    else none
  | .visit t c =>
    match s.procs t, s.udpConMap c with
    | .range, some (.int32 _) => some s
    | .range, some (.int v) =>
      if v ≤ 0 then some (s.setProc t (.close c true))
      else some { s with udpConMap := Function.update s.udpConMap c (some (.int (v - 1))) }
    | _, _ => none
  | .connect c nilErr =>
    if c < s.created ∧ s.connectors c = .connecting then
      some (s.setConnector c (if nilErr then .connected else .close))
    else none
  | .connector c => if c < s.created then s.connectorStep c else none
  | .drained c nilErr =>
    match s.connectors c with
    | .handle _ =>
      some ((s.modConn c fun conn => conn.handled nilErr).setConnector c
        (if nilErr then .drain else .stopped))
    | _ => none

def init : UdpStack :=
  { created := 0
    conns := fun _ => newUDPConn ⟨""⟩
    connectors := fun _ => .failed
    udpConns := fun _ => none
    udpConMap := fun _ => none
    lwip := none
    udplock := none
    procs := fun _ => .idle }

end UdpStack

/-- The machine of the package for UDP: any interleaving of its atomic sections. -/
def udpMachine : Machine UdpStack UdpAct := ⟨UdpStack.init, UdpStack.step⟩

end tun2proxy.core
