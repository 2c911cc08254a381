import Tun2Proxy.Go.IP
import Tun2Proxy.Gvisor.Responses
import Tun2Proxy.Udp.RoundTrip

open tun2proxy.go tun2proxy.udppackage

namespace tun2proxy.proxy

/-- One end of a forwarded connection, as `stack.TransportEndpointID` has it. -/
structure Endpoint where
  IP : List UInt8
  Port : UInt16
  ip_len : IP.length = 4 ∨ IP.length = 16

/-- `stack.TransportEndpointID`: the client is remote, the destination local. -/
structure TransportEndpointID where
  remote : Endpoint
  localEnd : Endpoint

/-- The address stands for that end. Package net may hold an IPv4 address in 16 bytes. -/
structure Denotes (addr : UDPAddr) (e : Endpoint) : Prop where
  ip : addr.IP = e.IP ∨ e.IP.length = 4 ∧ addr.IP = v4InV6Prefix ++ e.IP
  port : addr.Port = Int64.ofNat e.Port.toNat
  zone : addr.Zone = ""

/-- What is known of package net: the printed form of an IP and a port resolves to them. -/
def Resolves (resolve : Endpoint → Option UDPAddr) : Prop :=
  ∀ e, ∃ addr, resolve e = some addr ∧ Denotes addr e

/-- `sendUdpPacket2RemoteDestination` with a pooled buffer and the datagrams that arrive on
    the connection, counted from `i` on, before a deadline passes. It returns the packets
    handed to `Write` of the socket, each with the number of its datagram; `written i` is
    whether that `Write` returns nil. -/
def sendUdpPacket2RemoteDestination (written : Nat → Bool) (destAddr srcAddr : UDPAddr)
    (buf : List UInt8) (i : Nat) : List (List UInt8) → List (Nat × List UInt8)
  | [] => []
  | data :: rest =>
    let raw := readDatagram buf triplePage data
    match packUDPData (some destAddr) (some srcAddr) (some raw.bytes) with
    | .error _ => sendUdpPacket2RemoteDestination written destAddr srcAddr raw.mem (i + 1) rest
    | .ok packedData =>
      (i, packedData) ::
        if written i then
          sendUdpPacket2RemoteDestination written destAddr srcAddr raw.mem (i + 1) rest
        else []

/-- The packets that `HandleUDP` sends for the datagrams of one connection. `resolve` is
    `net.ResolveUDPAddr` of the printed form, `dialed` whether `UdpDailNetString` returns a
    socket, and `buf` the buffer that the sending goroutine gets from the pool. -/
def handleUDP (resolve : Endpoint → Option UDPAddr) (dialed : Bool) (written : Nat → Bool)
    (id : TransportEndpointID) (buf : List UInt8) (incoming : List (List UInt8)) :
    List (Nat × List UInt8) :=
  match resolve id.localEnd, resolve id.remote with
  | some destUDPAddr, some srcUDPAddr =>
    if dialed then sendUdpPacket2RemoteDestination written destUDPAddr srcUDPAddr buf 0 incoming
    else []
  | _, _ => []

/-- The packet unpacks to this payload between the two ends of the connection. -/
def Carries (id : TransportEndpointID) (packet payload : List UInt8) : Prop :=
  ∃ target src, unpackUDPData (.ofBytes packet) = .ret (.ok ⟨target, src, payload⟩) ∧
    Denotes target id.localEnd ∧ Denotes src id.remote

/-- Whatever datagrams come before and after it, whatever buffer is used and whichever
    writes fail: a packet that is sent for the datagram carries the whole of it. -/
def LeavesWhole (resolve : Endpoint → Option UDPAddr) (id : TransportEndpointID)
    (data : List UInt8) : Prop :=
  ∀ (dialed : Bool) (written : Nat → Bool) (buf : List UInt8) (before after : List (List UInt8))
    (packet : List UInt8), buf.length = quadruplePage →
    (before.length, packet) ∈ handleUDP resolve dialed written id buf (before ++ data :: after) →
    Carries id packet data

theorem Denotes.packable {addr : UDPAddr} {e : Endpoint} (h : Denotes addr e) : addr.Packable := by
  have hport := e.Port.toNat_lt
  have hto : (Int64.ofNat e.Port.toNat).toInt = e.Port.toNat :=
    Int64.toInt_ofNat_of_lt (by omega)
  refine ⟨?_, ?_, ?_, h.zone⟩
  · obtain hip | ⟨hlen, hip⟩ := h.ip
    · rw [hip]
      have := e.ip_len
      omega
    · rw [hip, List.length_append, hlen]
      decide
  · rw [h.port, Int64.le_iff_toInt_le, hto]
    exact Int.natCast_nonneg _
  · rw [h.port, Int64.le_iff_toInt_le, hto]
    change (e.Port.toNat : Int) ≤ 65535
    omega

/-- What is packed is what was read, and unpacking gives it back. -/
theorem unpack_packed {target src : UDPAddr} (htarget : target.Packable) (hsrc : src.Packable)
    {payload packet : List UInt8} (hlen : payload.length < 2 ^ 32)
    (hpack : packUDPData (some target) (some src) (some payload) = .ok packet) :
    unpackUDPData (.ofBytes packet) = .ret (.ok ⟨target, src, payload⟩) := by
  have hfields : UDPData.Packable ⟨target, src, payload⟩ := ⟨htarget, hsrc, hlen⟩
  have hform : WireForm (Slice.ofBytes packet).bytes ⟨target, src, payload⟩ [] := by
    rw [Slice.bytes_ofBytes]
    simpa using hfields.wireForm hpack []
  exact hform.unpackUDPData_eq

/-- `PackUDPData` of what was read never fails. -/
theorem send_cons (written : Nat → Bool) (destAddr srcAddr : UDPAddr) (buf : List UInt8) (i : Nat)
    (data : List UInt8) (rest : List (List UInt8)) : ∃ packet,
    packUDPData (some destAddr) (some srcAddr) (some (data.take triplePage)) = .ok packet ∧
    sendUdpPacket2RemoteDestination written destAddr srcAddr buf i (data :: rest) =
      (i, packet) ::
        if written i then
          sendUdpPacket2RemoteDestination written destAddr srcAddr
            (readDatagram buf triplePage data).mem (i + 1) rest
        else [] := by
  refine ⟨_, rfl, ?_⟩
  simp only [sendUdpPacket2RemoteDestination, packUDPData, bytes_readDatagram]

private theorem le_of_mem_send {written : Nat → Bool} {destAddr srcAddr : UDPAddr}
    (incoming : List (List UInt8)) : ∀ {buf : List UInt8} {i : Nat} {x : Nat × List UInt8},
      x ∈ sendUdpPacket2RemoteDestination written destAddr srcAddr buf i incoming → i ≤ x.1 := by
  induction incoming with
  | nil =>
    intro buf i x hx
    cases hx
  | cons data rest ih =>
    intro buf i x hx
    obtain ⟨packet, -, hsend⟩ := send_cons written destAddr srcAddr buf i data rest
    rw [hsend] at hx
    obtain rfl | hx := List.mem_cons.mp hx
    · exact Nat.le_refl i
    · split at hx
      · exact Nat.le_of_succ_le (ih hx)
      · cases hx

/-- A packet for a datagram is the packed form of the part of it that was read. -/
theorem packed_of_mem {written : Nat → Bool} {destAddr srcAddr : UDPAddr} {data : List UInt8}
    {after : List (List UInt8)} {packet : List UInt8} (before : List (List UInt8)) :
    ∀ {buf : List UInt8} {i : Nat},
      (i + before.length, packet) ∈ sendUdpPacket2RemoteDestination written destAddr srcAddr buf i
        (before ++ data :: after) →
      packUDPData (some destAddr) (some srcAddr) (some (data.take triplePage)) = .ok packet := by
  induction before with
  | nil =>
    intro buf i hmem
    obtain ⟨packet', hpack, hsend⟩ := send_cons written destAddr srcAddr buf i data after
    rw [List.nil_append, hsend] at hmem
    obtain heq | hlater := List.mem_cons.mp hmem
    · cases heq
      exact hpack
    · split at hlater
      · exact absurd (le_of_mem_send after hlater) (Nat.not_succ_le_self i)
      · cases hlater
  | cons first before ih =>
    intro buf i hmem
    obtain ⟨packet', -, hsend⟩ :=
      send_cons written destAddr srcAddr buf i first (before ++ data :: after)
    rw [List.cons_append, hsend] at hmem
    obtain heq | hlater := List.mem_cons.mp hmem
    · have hnum := congrArg Prod.fst heq
      simp only [List.length_cons] at hnum
      omega
    · split at hlater
      · rw [List.length_cons, Nat.add_comm before.length, ← Nat.add_assoc] at hlater
        exact ih hlater
      · cases hlater

/-- The packed form of what was read carries the whole datagram only if that was read. -/
theorem fits_of_carries {id : TransportEndpointID} {target src : UDPAddr}
    (htarget : target.Packable) (hsrc : src.Packable) {data packet : List UInt8}
    (hpack : packUDPData (some target) (some src) (some (data.take triplePage)) = .ok packet)
    (h : Carries id packet data) : data.length ≤ triplePage := by
  obtain ⟨target', src', hunpack, -⟩ := h
  have hshort : (data.take triplePage).length < 2 ^ 32 :=
    Nat.lt_of_le_of_lt (List.length_take_le _ _) (by decide)
  rw [unpack_packed htarget hsrc hshort hpack] at hunpack
  simp only [Outcome.ret.injEq, Except.ok.injEq, UDPData.mk.injEq] at hunpack
  exact List.take_eq_self_iff _ |>.mp hunpack.2.2

/-- A datagram of any length: every packet sent for it carries the whole of it
    exactly if it fits the part of the buffer that is read into. -/
theorem leavesWhole_iff {resolve : Endpoint → Option UDPAddr} (hresolve : Resolves resolve)
    (id : TransportEndpointID) (data : List UInt8) :
    LeavesWhole resolve id data ↔ data.length ≤ triplePage := by
  obtain ⟨target, htarget, hdest⟩ := hresolve id.localEnd
  obtain ⟨src, hsrc, hsource⟩ := hresolve id.remote
  have hshort : (data.take triplePage).length < 2 ^ 32 :=
    Nat.lt_of_le_of_lt (List.length_take_le _ _) (by decide)
  have hhandle (dialed : Bool) (written : Nat → Bool) (buf : List UInt8)
      (incoming : List (List UInt8)) : handleUDP resolve dialed written id buf incoming =
        if dialed then sendUdpPacket2RemoteDestination written target src buf 0 incoming
        else [] := by
    simp only [handleUDP, htarget, hsrc]
  constructor
  · -- the datagram alone, with a socket whose writes succeed
    intro h
    obtain ⟨packet, hpack, hsend⟩ := send_cons (fun _ => true) target src
      (List.replicate quadruplePage 0) 0 data []
    have hmem : (0, packet) ∈ handleUDP resolve true (fun _ => true) id
        (List.replicate quadruplePage 0) [data] := by
      rw [hhandle, if_pos rfl, hsend]
      exact List.mem_cons_self
    exact fits_of_carries hdest.packable hsource.packable hpack
      (h true _ _ [] [] packet List.length_replicate hmem)
  · intro hfits dialed written buf before after packet _ hmem
    rw [hhandle] at hmem
    split at hmem
    · have hpack := packed_of_mem (i := 0) before (by simpa using hmem)
      have hunpack := unpack_packed hdest.packable hsource.packable hshort hpack
      rw [List.take_of_length_le hfits] at hunpack
      exact ⟨target, src, hunpack, hdest, hsource⟩
    · cases hmem

/-- Package net, as far as it matters here: it keeps 16 bytes for every address. -/
def resolveUDPAddr (e : Endpoint) : Option UDPAddr :=
  (to16 e.IP).map fun ip => ⟨ip, Int64.ofNat e.Port.toNat, ""⟩

private theorem resolves_resolveUDPAddr : Resolves resolveUDPAddr := by
  intro e
  obtain hlen | hlen := e.ip_len
  · have h16 : to16 e.IP = some (v4InV6Prefix ++ e.IP) := if_pos hlen
    exact ⟨_, by rw [resolveUDPAddr, h16, Option.map_some], .inr ⟨hlen, rfl⟩, rfl, rfl⟩
  · have h16 : to16 e.IP = some e.IP := by rw [to16, if_neg (by omega), if_pos hlen]
    exact ⟨_, by rw [resolveUDPAddr, h16, Option.map_some], .inl rfl, rfl, rfl⟩

/-- A connection from 10.0.0.2:5000 to 8.8.8.8:53. -/
def query : TransportEndpointID := ⟨⟨[10, 0, 0, 2], 5000, .inl rfl⟩, ⟨[8, 8, 8, 8], 53, .inl rfl⟩⟩

theorem leavesWhole_page : LeavesWhole resolveUDPAddr query (List.replicate triplePage 7) :=
  (leavesWhole_iff resolves_resolveUDPAddr query _).mpr (Nat.le_of_eq List.length_replicate)

/-- One byte more, and the packet carries a datagram that nobody sent. -/
theorem leaves_cut : ∃ packet,
    (0, packet) ∈ handleUDP resolveUDPAddr true (fun _ => true) query
      (List.replicate quadruplePage 0) [List.replicate (triplePage + 1) 7] ∧
    ¬Carries query packet (List.replicate (triplePage + 1) 7) := by
  obtain ⟨target, htarget, hdest⟩ := resolves_resolveUDPAddr query.localEnd
  obtain ⟨src, hsrc, hsource⟩ := resolves_resolveUDPAddr query.remote
  obtain ⟨packet, hpack, hsend⟩ := send_cons (fun _ => true) target src
    (List.replicate quadruplePage 0) 0 (List.replicate (triplePage + 1) 7) []
  refine ⟨packet, ?_, fun hcarries => ?_⟩
  · simp only [handleUDP, htarget, hsrc, if_true, hsend]
    exact List.mem_cons_self
  · have hfits := fits_of_carries hdest.packable hsource.packable hpack hcarries
    rw [List.length_replicate] at hfits
    exact Nat.not_succ_le_self _ hfits

end tun2proxy.proxy
