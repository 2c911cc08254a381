import Mathlib.Data.List.Perm.Basic
import Tun2Proxy.Dns.Shared
import Tun2Proxy.Socks.Responses

open tun2proxy.core tun2proxy.dns tun2proxy.go tun2proxy.machine tun2proxy.machine.Machine
open tun2proxy.udppackage

namespace tun2proxy.socks

/-- `timeoutSecond`. -/
def timeoutSecond : Int32 := 30 * 60 * 12

/-- Sockets are numbered in the order `Connect` dials them. -/
abbrev SockNo := Nat

/-- A socket to the proxy, with the connection it was dialled for and the datagrams that
    were written to it. -/
structure ProxySocket where
  conn : UdpNo
  closed : Bool
  sent : List (List UInt8)
  deriving DecidableEq

/-- Who is in the handler: the goroutine of `newUDPConn`, or one in `udpConn.ReceiveTo`. -/
inductive Caller where
  | connector (c : UdpNo)
  | proc (t : Tid)
  deriving DecidableEq

/-- Where a call of the handler stands. Its calls of `WriteFrom` and `Close` run as
    goroutine `t` of the connections' machine. -/
inductive HandlerAt where
  -- at the beginning, or not in the handler
  | entry
  -- `Connect`: before the entry in `connectionTimeMap`, the one in `udpSocks`, and the return
  | dialled (k : SockNo)
  | timed (k : SockNo)
  | stored (k : SockNo)
  -- `ReceiveTo`: with a socket, before the look at the DNS cache
  | found (k : SockNo)
  -- with the message of entry `p`, before `PackBuffer`
  | answer (p : Nat)
  | replying (t : Tid) (call : Nat)
  -- before `PackUDPData` and `udpsocks.Write`
  | forward (k : SockNo)
  -- `Close`: before and inside `conn.Close`
  | close (e : HandlerError)
  | closing (t : Tid) (e : HandlerError)
  -- before the return of `ReceiveTo`
  | ret (e : Option HandlerError)
  deriving DecidableEq

/-- Where `fetchSocksData` stands for one socket. -/
inductive Fetcher where
  | absent
  | reading
  -- before `WriteFrom`
  | unpacked (raw payload : List UInt8)
  | writing (raw : List UInt8) (t : Tid) (call : Nat)
  -- before the look at the port
  | written (raw : List UInt8)
  | ended
  deriving DecidableEq

/-- What a call of `WriteFrom` by the handler is for. -/
inductive Origin where
  -- the datagram that was read from the socket
  | response (k : SockNo) (raw : List UInt8)
  -- the packet with the DNS query, and the message that was packed
  | answer (pkt : UdpPacket) (packed : Msg)
  deriving DecidableEq

/-- A call of `WriteFrom` by the handler. -/
structure HandlerWrite where
  conn : UdpNo
  call : Nat
  data : List UInt8
  addr : UDPAddr
  origin : Origin
  deriving DecidableEq

/-- A datagram that `udp_sendto` wrote to the TUN side for a call of `WriteFrom`; `addr` is
    its source. -/
structure TunWrite where
  conn : UdpNo
  call : Nat
  data : List UInt8
  addr : UDPAddr
  deriving DecidableEq

/-- What the handler is given: the DNS library, the address behind the key of a
    connection, and the cache with whatever is in it. -/
structure Env where
  lib : Library
  localAddr : UdpConnId → UDPAddr
  dnsCache : SharedCache

/-- `udpHandler` and the variables of its package, over the connections. `remoteAddr` is
    what `newUDPConn` was called with. `toTun` and `writes` are not in the source. -/
structure SocksStack where
  udp : UdpStack
  remoteAddr : UdpNo → UDPAddr
  dialled : Nat
  sockets : SockNo → ProxySocket
  udpSocks : UdpNo → Option SockNo
  connectionTimeMap : SockNo → Option Int32
  dnsCache : SharedCache
  calls : Caller → HandlerAt
  fetchers : SockNo → Fetcher
  toTun : List TunWrite
  writes : List HandlerWrite

/-- The atomic sections, with the answers of network and clock. -/
inductive SocksAct where
  -- a section of the connections' code, outside the handler
  | udp (a : UdpAct)
  -- `Connect`
  | dial (c : UdpNo) (nilErr : Bool)
  | time (c : UdpNo)
  | store (c : UdpNo)
  | fetch (c : UdpNo)
  -- `ReceiveTo`
  | lookup (g : Caller)
  | query (g : Caller) (now : Nat)
  | pack (g : Caller) (t : Tid)
  | replied (g : Caller)
  | forward (g : Caller) (nilErr : Bool)
  | ret (g : Caller)
  -- `Close`
  | close (g : Caller) (t : Tid)
  | closed (g : Caller)
  -- `fetchSocksData`, with the buffer and, unless `Read` fails, the datagram
  | read (k : SockNo) (buf : List UInt8) (data : Option (List UInt8))
  | write (k : SockNo) (t : Tid)
  | wrote (k : SockNo)
  | cache (k : SockNo) (now : Nat)
  -- the loop of `initTimer`, with the order of the entries
  | tick (order : List SockNo)

/-- The handler decides when these come. -/
def byHandler : UdpAct → Bool
  | .connect _ _ | .handled _ _ | .drained _ _ => true
  | _ => false

/-- How `ReceiveTo` returns to its caller. -/
def Caller.returns (nilErr : Bool) : Caller → UdpAct
  | .connector c => .drained c nilErr
  | .proc t => .handled t nilErr

namespace SocksStack

/-- The connection and the packet that a caller is in `ReceiveTo` with. -/
def receiving (s : SocksStack) : Caller → Option (UdpNo × UdpPacket)
  | .connector c =>
    match s.udp.connectors c with
    | .handle pkt => some (c, pkt)
    | _ => none
  | .proc t =>
    match s.udp.procs t with
    | .handle c pkt => some (c, pkt)
    | _ => none

/-- The `target` of `Connect` and `fetchSocksData`. -/
def target (s : SocksStack) (k : SockNo) : UDPAddr := s.remoteAddr (s.sockets k).conn

def setCall (s : SocksStack) (g : Caller) (place : HandlerAt) : SocksStack :=
  { s with calls := Function.update s.calls g place }

def setFetcher (s : SocksStack) (k : SockNo) (f : Fetcher) : SocksStack :=
  { s with fetchers := Function.update s.fetchers k f }

def modSocket (s : SocksStack) (k : SockNo) (f : ProxySocket → ProxySocket) : SocksStack :=
  { s with sockets := Function.update s.sockets k (f (s.sockets k)) }

/-- `Close` of a socket. -/
def closeSocket (s : SocksStack) (k : SockNo) : SocksStack :=
  s.modSocket k fun sock => { sock with closed := true }

/-- The socket of `c` in `udpSocks`, if any, is closed and removed. -/
def dropSocket (s : SocksStack) (c : UdpNo) : SocksStack :=
  { s with
    sockets := (s.udpSocks c).elim s.sockets fun k => (s.closeSocket k).sockets
    udpSocks := Function.update s.udpSocks c none }

def setTime (s : SocksStack) (k : SockNo) (t : Option Int32) : SocksStack :=
  { s with connectionTimeMap := Function.update s.connectionTimeMap k t }

/-- `net.Dial` succeeds. -/
def dialSocket (s : SocksStack) (c : UdpNo) : SocksStack :=
  { s with
    dialled := s.dialled + 1
    sockets := Function.update s.sockets s.dialled ⟨c, false, []⟩ }

/-- `udpsocks.Write`. -/
def send (s : SocksStack) (k : SockNo) (full : List UInt8) : SocksStack :=
  s.modSocket k fun sock => { sock with sent := sock.sent ++ [full] }

/-- `WriteFrom` is called; it returns at once when there are no data. -/
def logWrite (s : SocksStack) (c : UdpNo) (data : List UInt8) (addr : UDPAddr) (origin : Origin) :
    SocksStack :=
  { s with writes := s.writes ++ [⟨c, (s.udp.conns c).calls, data, addr, origin⟩] }

/-- The result of a call of `WriteFrom` that has returned. -/
def writeResult (s : SocksStack) (c : UdpNo) (call : Nat) : Option (Option UdpError) :=
  ((s.udp.conns c).returned.find? fun r => r.call = call).map UdpReturn.err

/-- The body of the loop over `connectionTimeMap`; `t--` counts down a copy of the value. -/
def tickEntry (entries : (SockNo → Option Int32) × (SockNo → ProxySocket)) (con : SockNo) :
    (SockNo → Option Int32) × (SockNo → ProxySocket) :=
  match entries.1 con with
  | some t =>
    if t - 1 = 0 then
      (Function.update entries.1 con none,
        Function.update entries.2 con { entries.2 con with closed := true })
    else entries
  | none => entries

/-- The loop, with the order in which it comes to the entries. -/
def tick (s : SocksStack) (order : List SockNo) : SocksStack :=
  let entries := order.foldl tickEntry (s.connectionTimeMap, s.sockets)
  { s with connectionTimeMap := entries.1, sockets := entries.2 }

/-- The keys of `connectionTimeMap`. -/
def timedSockets (s : SocksStack) : List SockNo :=
  (List.range s.dialled).filter fun k => s.connectionTimeMap k ≠ none

/-- What a section of `Connect` does in the handler. -/
def connectStep (s : SocksStack) : SocksAct → Option SocksStack
  | .dial c nilErr =>
    if c < s.udp.created ∧ s.udp.connectors c = .connecting ∧ s.calls (.connector c) = .entry then
      if nilErr then some ((s.dialSocket c).setCall (.connector c) (.dialled s.dialled)) else some s
    else none
  | .time c =>
    match s.calls (.connector c) with
    | .dialled k =>
      some ((s.setTime k (some timeoutSecond)).setCall (.connector c) (.timed k))
    | _ => none
  | .store c =>
    match s.calls (.connector c) with
    | .timed k =>
      some ({ s.dropSocket c with udpSocks := Function.update s.udpSocks c (some k) }.setCall
        (.connector c) (.stored k))
    | _ => none
  | .fetch c =>
    match s.calls (.connector c) with
    | .stored k => some ((s.setFetcher k .reading).setCall (.connector c) .entry)
    | _ => none
  | _ => none

/-- What a section of `ReceiveTo`, or of the `Close` that it calls, does in the handler. -/
def receiveStep (env : Env) (s : SocksStack) (g : Caller) (c : UdpNo) (pkt : UdpPacket) :
    SocksAct → Option SocksStack
  | .lookup _ =>
    match s.calls g, s.udpSocks c with
    | .entry, some k => some (s.setCall g (.found k))
    | .entry, none => some (s.setCall g (.close .canNotFindRemoteAddress))
    | _, _ => none
  | .query _ now =>
    match s.calls g with
    | .found k =>
      if pkt.addr.Port = commonDnsPort then
        match s.dnsCache.query env.lib now pkt.data.content with
        | (some p, dnsCache) =>
          some ({ s with dnsCache }.setCall g (.answer p))
        | (none, dnsCache) => some ({ s with dnsCache }.setCall g (.forward k))
      else some (s.setCall g (.forward k))
    | _ => none
  | .pack _ t =>
    match s.calls g with
    | .answer p =>
      let packed := (s.dnsCache.cells p).msg
      let resp := env.lib.packBuffer packed
      if resp = [] then some (s.setCall g (.ret none))
      else
        some ((s.logWrite c resp pkt.addr (.answer pkt packed)).setCall g
          (.replying t (s.udp.conns c).calls))
    | _ => none
  | .replied _ =>
    match s.calls g with
    | .replying _ call =>
      match s.writeResult c call with
      | some none => some (s.setCall g (.ret none))
      | some (some _) => some (s.setCall g (.close .writeRemoteFailed))
      | none => none
    | _ => none
  | .forward _ nilErr =>
    match s.calls g with
    | .forward k =>
      match packUDPData (some pkt.addr) (some (env.localAddr (s.udp.conns c).connId)) pkt.data with
      | .error _ => some (s.setCall g (.close .packUdpDataFailed))
      | .ok full =>
        if nilErr ∧ (s.sockets k).closed = false then some ((s.send k full).setCall g (.ret none))
        else some (s.setCall g (.close .writeToProxyFailed))
    | _ => none
  | .close _ t =>
    match s.calls g with
    | .close e => some (s.setCall g (.closing t e))
    | _ => none
  | .closed _ =>
    match s.calls g with
    | .closing t e =>
      if s.udp.procs t = .idle then some ((s.dropSocket c).setCall g (.ret (some e))) else none
    | _ => none
  | .ret _ =>
    match s.calls g with
    | .ret _ => some (s.setCall g .entry)
    | _ => none
  | _ => none

/-- What a section of `fetchSocksData` does in the handler. A panic ends the program. -/
def fetchStep (env : Env) (s : SocksStack) : SocksAct → Option SocksStack
  | .read k buf data =>
    if s.fetchers k = .reading ∧ bufSize ≤ buf.length then
      match data with
      | none => some (s.setFetcher k .ended)
      | some data =>
        if (s.sockets k).closed then none
        else
          match unpackUDPData (readDatagram buf buf.length data) with
          | .panic => none
          | .ret (.error _) => some (s.setFetcher k .ended)
          | .ret (.ok fields) =>
            some (s.setFetcher k (.unpacked (readDatagram buf buf.length data).bytes fields.payload))
    else none
  | .write k t =>
    match s.fetchers k with
    | .unpacked raw payload =>
      if payload = [] then some (s.setFetcher k (.written raw))
      else
        some ((s.logWrite (s.sockets k).conn payload (s.target k) (.response k raw)).setFetcher k
          (.writing raw t (s.udp.conns (s.sockets k).conn).calls))
    | _ => none
  | .wrote k =>
    match s.fetchers k with
    | .writing raw _ call =>
      match s.writeResult (s.sockets k).conn call with
      | some none => some (s.setFetcher k (.written raw))
      | some (some _) => some (s.setFetcher k .ended)
      | none => none
    | _ => none
  | .cache k now =>
    match s.fetchers k with
    | .written raw =>
      if (s.target k).Port = commonDnsPort then
        some ({ s with dnsCache := s.dnsCache.store env.lib now raw }.setFetcher k .ended)
      else some (s.setFetcher k .ended)
    | _ => none
  | _ => none

/-- What an act does in the handler; `none` where it cannot come. -/
def handle (env : Env) (s : SocksStack) (act : SocksAct) : Option SocksStack :=
  match act with
  | .udp a => if byHandler a then none else some s
  | .dial _ _ | .time _ | .store _ | .fetch _ => s.connectStep act
  | .lookup g | .query g _ | .pack g _ | .replied g | .forward g _ | .ret g | .close g _ | .closed g =>
    (s.receiving g).bind fun (c, pkt) => s.receiveStep env g c pkt act
  | .read _ _ _ | .write _ _ | .wrote _ | .cache _ _ => s.fetchStep env act
  | .tick order => if order.Perm s.timedSockets then some (s.tick order) else none

/-- The section of the connections' code that belongs to an act. -/
def udpAct (env : Env) (s : SocksStack) : SocksAct → Option UdpAct
  | .udp a => some a
  | .dial c false => some (.connect c false)
  | .fetch c => some (.connect c true)
  | .pack g t =>
    match s.receiving g, s.calls g with
    | some (c, pkt), .answer p =>
      some (.call t (.writeFrom c (env.lib.packBuffer (s.dnsCache.cells p).msg) pkt.addr))
    | _, _ => none
  | .close g t => (s.receiving g).map fun (c, _) => .call t (.close c)
  | .ret g =>
    match s.calls g with
    | .ret e => some (g.returns e.isNone)
    | _ => none
  | .write k t =>
    match s.fetchers k with
    | .unpacked _ payload => some (.call t (.writeFrom (s.sockets k).conn payload (s.target k)))
    | _ => none
  | _ => none

/-- What a section of the connections' code writes to the TUN side. -/
def sends (s : SocksStack) : UdpAct → List TunWrite
  | .sendto t true =>
    match s.udp.procs t with
    | .send c call data addr => [⟨c, call, data, addr⟩]
    | _ => []
  | _ => []

/-- The destination of the datagram for which `newUDPConn` makes a connection. -/
def createAddr (s : SocksStack) : UdpAct → UdpNo → UDPAddr
  | .create t true =>
    match s.udp.procs t with
    | .create _ _ addr => Function.update s.remoteAddr s.udp.created addr
    | _ => s.remoteAddr
  | _ => s.remoteAddr

/-- One atomic section. -/
def step (env : Env) (s : SocksStack) (act : SocksAct) : Option SocksStack :=
  (s.handle env act).bind fun next =>
    match s.udpAct env act with
    | none => some next
    | some a =>
      (udpMachine.step s.udp a).map fun udp =>
        { next with udp, remoteAddr := s.createAddr a, toTun := s.toTun ++ s.sends a }

def init (env : Env) : SocksStack :=
  { udp := .init
    remoteAddr := fun _ => ⟨[], 0, ""⟩
    dialled := 0
    sockets := fun _ => ⟨0, true, []⟩
    udpSocks := fun _ => none
    connectionTimeMap := fun _ => none
    dnsCache := env.dnsCache
    calls := fun _ => .entry
    fetchers := fun _ => .absent
    toTun := []
    writes := [] }

end SocksStack

/-- The machine of the SOCKS handler for UDP over the connections. -/
def socksMachine (env : Env) : Machine SocksStack SocksAct := ⟨SocksStack.init env, SocksStack.step env⟩

end tun2proxy.socks
