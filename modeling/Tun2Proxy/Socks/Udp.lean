import Tun2Proxy.Dns.Cache
import Tun2Proxy.UdpConn.Early

open tun2proxy.core tun2proxy.dns tun2proxy.machine.Machine tun2proxy.udppackage

namespace tun2proxy.socks

/-- `COMMON_DNS_PORT`. -/
def commonDnsPort : Int64 := 53

/-- The errors of `udpHandler.ReceiveTo`. -/
inductive HandlerError where
  -- "can not find remote address"
  | canNotFindRemoteAddress
  -- "write remote failed"
  | writeRemoteFailed
  -- "pack udp data failed"
  | packUdpDataFailed
  -- "write to proxy failed"
  | writeToProxyFailed
  deriving DecidableEq, Repr

/-- What the handler keeps for one connection and what it has done with it. `toProxy`
    and `toTun` record the datagrams that were written and are not in the source. -/
structure UdpAssoc where
  -- `conn.LocalAddr()`
  localAddr : UDPAddr
  -- the state of the connection is `udpClosed`
  closed : Bool
  -- `udpSocks` has a socket for the connection
  udpSocks : Bool
  dnsCache : DNSCache
  toProxy : List (List UInt8)
  toTun : List (List UInt8 × UDPAddr)

/-- A datagram from the client, with the answers that its handling gets: the time, and
    whether `udpsocks.Write` and, in `WriteFrom`, `ipAddrATON` return nil. -/
structure Datagram where
  payload : List UInt8
  addr : UDPAddr
  now : Nat
  written : Bool
  validAddr : Bool

namespace UdpAssoc

/-- `udpHandler.Close`. -/
def close (h : UdpAssoc) : UdpAssoc := { h with closed := true, udpSocks := false }

/-- `udpConn.WriteFrom` on a connection that is not connecting; false is an error. -/
def writeFrom (h : UdpAssoc) (data : List UInt8) (addr : UDPAddr) (validAddr : Bool) :
    UdpAssoc × Bool :=
  if data = [] then (h, true)
  else if h.closed then (h, false)
  else if validAddr then ({ h with toTun := h.toTun ++ [(data, addr)] }, true)
  else (h, false)

/-- The part of `udpHandler.ReceiveTo` after the DNS cache. -/
def forward (h : UdpAssoc) (d : Datagram) (data : Bytes) : UdpAssoc × Option HandlerError :=
  match packUDPData (some d.addr) (some h.localAddr) data with
  | .error _ => (h.close, some .packUdpDataFailed)
  | .ok full =>
    if d.written then ({ h with toProxy := h.toProxy ++ [full] }, none)
    else (h.close, some .writeToProxyFailed)

/-- `udpHandler.ReceiveTo` with the slice `data`. -/
def receiveTo (lib : Library) (h : UdpAssoc) (d : Datagram) (data : Bytes) :
    UdpAssoc × Option HandlerError :=
  if h.udpSocks = false then (h.close, some .canNotFindRemoteAddress)
  else if d.addr.Port = commonDnsPort then
    match h.dnsCache.query lib d.now data.content with
    | (some answer, dnsCache) =>
      match { h with dnsCache }.writeFrom (lib.packBuffer answer) d.addr d.validAddr with
      | (h, true) => (h, none)
      | (h, false) => (h.close, some .writeRemoteFailed)
    | (none, dnsCache) => { h with dnsCache }.forward d data
  else h.forward d data

/-- The datagram arrives when the connection is connected: `udpConn.ReceiveTo`. -/
def direct (lib : Library) (h : UdpAssoc) (d : Datagram) : UdpAssoc :=
  if h.closed then h else (h.receiveTo lib d (some d.payload)).1

/-- The drain loop of `newUDPConn` on packets that `enqueueEarlyPacket` has copied. -/
def drain (lib : Library) (h : UdpAssoc) : List Datagram → UdpAssoc
  | [] => h
  | d :: rest =>
    match h.receiveTo lib d (Bytes.copy (some d.payload)) with
    | (h, none) => h.drain lib rest
    | (h, some _) => h

variable {lib : Library} {h h' : UdpAssoc} {d : Datagram} {data : Bytes}

private theorem writeFrom_closed {resp : List UInt8} {addr : UDPAddr} {validAddr ok : Bool}
    (hwrite : h.writeFrom resp addr validAddr = (h', ok)) : h'.closed = h.closed := by
  unfold writeFrom at hwrite
  split_ifs at hwrite <;> cases hwrite <;> rfl

private theorem forward_closed {err : Option HandlerError} (hforward : h.forward d data = (h', err)) :
    h'.closed = (h.closed || err.isSome) := by
  unfold forward at hforward
  split at hforward
  · cases hforward
    simp [close]
  · split_ifs at hforward <;> cases hforward <;> simp [close]

/-- Every error closes the connection, and nothing else does. -/
theorem receiveTo_closed {err : Option HandlerError}
    (hreceive : h.receiveTo lib d data = (h', err)) : h'.closed = (h.closed || err.isSome) := by
  unfold receiveTo at hreceive
  split_ifs at hreceive
  · cases hreceive
    simp [close]
  · split at hreceive
    · split at hreceive
      · rename_i hwrite
        cases hreceive
        simpa using writeFrom_closed hwrite
      · cases hreceive
        simp [close]
    · have hclosed := forward_closed hreceive
      exact hclosed
  · exact forward_closed hreceive

/-- A closed connection refuses every later datagram. -/
theorem foldl_direct_closed (hclosed : h.closed = true) (ds : List Datagram) :
    ds.foldl (direct lib) h = h := by
  induction ds with
  | nil => rfl
  | cons d rest ih => rw [List.foldl_cons, direct, if_pos hclosed, ih]

private theorem copy_of_ne_nil {payload : List UInt8} (hne : payload ≠ []) :
    Bytes.copy (some payload) = some payload := if_neg hne

/-- Datagrams that are not empty may arrive early. -/
theorem drain_eq_foldl (ds : List Datagram) (hne : ∀ d ∈ ds, d.payload ≠ []) :
    ∀ {h : UdpAssoc}, h.closed = false → h.drain lib ds = ds.foldl (direct lib) h := by
  induction ds with
  | nil => exact fun _ => rfl
  | cons d rest ih =>
    intro h hopen
    have hcopy := copy_of_ne_nil (hne d List.mem_cons_self)
    rw [drain, hcopy, List.foldl_cons, direct, hopen]
    cases hreceive : h.receiveTo lib d (some d.payload) with
    | mk h' err =>
      have hclosed := receiveTo_closed hreceive
      cases err with
      | none =>
        rw [hopen] at hclosed
        exact ih (fun d' hd' => hne d' (List.mem_cons_of_mem _ hd')) hclosed
      | some e =>
        rw [Option.isSome_some, Bool.or_true] at hclosed
        exact (foldl_direct_closed hclosed rest).symm

/-- `PackUDPData` refuses the nil slice and takes the empty one. -/
theorem forward_nil_ne (h : UdpAssoc) (d : Datagram) : h.forward d none ≠ h.forward d (some []) := by
  intro heq
  have herr := congrArg Prod.snd heq
  cases hwritten : d.written <;> simp [forward, packUDPData, hwritten] at herr

private theorem receiveTo_copy_eq_iff (lib : Library) (h : UdpAssoc) (d : Datagram) :
    h.receiveTo lib d (Bytes.copy (some d.payload)) = h.receiveTo lib d (some d.payload) ↔
      d.payload ≠ [] ∨ h.udpSocks = false ∨
        d.addr.Port = commonDnsPort ∧ (h.dnsCache.query lib d.now d.payload).1.isSome := by
  by_cases hnil : d.payload = []
  · have hcopy : Bytes.copy (some d.payload) = none := if_pos hnil
    have hnone : Bytes.content none = [] := rfl
    have hempty : Bytes.content (some []) = [] := rfl
    rw [hcopy, hnil, receiveTo, receiveTo, hnone, hempty]
    simp only [ne_eq, not_true_eq_false, false_or]
    by_cases hsock : h.udpSocks = false
    · simp [hsock]
    by_cases hport : d.addr.Port = commonDnsPort
    · rw [if_neg hsock, if_neg hsock, if_pos hport, if_pos hport]
      cases hquery : h.dnsCache.query lib d.now [] with
      | mk answer dnsCache =>
        cases answer with
        | some answer => simp [hport]
        | none =>
          have hne := forward_nil_ne { h with dnsCache } d
          exact ⟨fun heq => absurd heq hne, fun hany => absurd hany (by simp [hsock])⟩
    · simpa [hsock, hport] using forward_nil_ne h d
  · simp [copy_of_ne_nil hnil, hnil]

/-- The handler does the same with a packet from `pending` and with the same packet on
    a connected connection exactly when the packet is not empty, or does not come to
    `PackUDPData`. Packets that are not empty are handled the same in any number. -/
theorem queued_agrees_iff (lib : Library) (h : UdpAssoc) :
    (∀ d : Datagram,
      h.receiveTo lib d (Bytes.copy (some d.payload)) = h.receiveTo lib d (some d.payload) ↔
        d.payload ≠ [] ∨ h.udpSocks = false ∨
          d.addr.Port = commonDnsPort ∧ (h.dnsCache.query lib d.now d.payload).1.isSome) ∧
    (h.closed = false → ∀ ds : List Datagram, (∀ d ∈ ds, d.payload ≠ []) →
      h.drain lib ds = ds.foldl (direct lib) h) :=
  ⟨receiveTo_copy_eq_iff lib h, fun hopen ds hne => drain_eq_foldl ds hne hopen⟩

/-- A DNS library that takes nothing for a message. -/
def noDns : Library := ⟨fun _ => none, fun _ => []⟩

/-- A connection with a socket and nothing written. -/
def fresh : UdpAssoc :=
  { localAddr := ⟨[10, 0, 0, 2], 5000, ""⟩
    closed := false
    udpSocks := true
    dnsCache := newDNSCache
    toProxy := []
    toTun := [] }

/-- A datagram to port 9 whose writes all succeed. -/
def toDiscard (payload : List UInt8) : Datagram :=
  { payload, addr := ⟨[8, 8, 8, 8], 9, ""⟩, now := 0, written := true, validAddr := true }

theorem queued_agrees_two : fresh.drain noDns [toDiscard [1], toDiscard [2]] =
    [toDiscard [1], toDiscard [2]].foldl (direct noDns) fresh :=
  (queued_agrees_iff noDns fresh).2 rfl _ (by decide)

/-- An empty datagram that was queued closes the connection, and the datagram behind it
    is lost. Both are written to the proxy when they arrive later. -/
theorem queued_empty_closes :
    (fresh.receiveTo noDns (toDiscard []) (Bytes.copy (some []))).2 = some .packUdpDataFailed ∧
    (fresh.receiveTo noDns (toDiscard []) (some [])).2 = none ∧
    (fresh.drain noDns [toDiscard [], toDiscard [1]]).closed = true ∧
    (fresh.drain noDns [toDiscard [], toDiscard [1]]).toProxy = [] ∧
    ([toDiscard [], toDiscard [1]].foldl (direct noDns) fresh).closed = false ∧
    ([toDiscard [], toDiscard [1]].foldl (direct noDns) fresh).toProxy.length = 2 := by
  decide

end UdpAssoc

end tun2proxy.socks
