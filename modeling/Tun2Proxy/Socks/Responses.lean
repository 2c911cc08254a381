import Tun2Proxy.Lwip.Buffers
import Tun2Proxy.Socks.Udp
import Tun2Proxy.Udp.Read

open tun2proxy.core (bufSize)
open tun2proxy.go tun2proxy.dns tun2proxy.udppackage

namespace tun2proxy.socks

/-- What `fetchSocksData` leaves: the payloads written to the TUN side, each with the
    number of its datagram, and the DNS cache. -/
structure Fetched where
  toTun : List (Nat × List UInt8)
  dnsCache : DNSCache

/-- `fetchSocksData` at time `now`, with a pooled buffer and the datagrams that arrive on
    the socket before its deadline. `written` is whether `WriteFrom` of a payload that is
    not empty returns nil. -/
def fetchSocksData (lib : Library) (now : Nat) (dnsCache : DNSCache) (target : UDPAddr)
    (written : Bool) (buf : List UInt8) : List (List UInt8) → Outcome Fetched
  | [] => .ret ⟨[], dnsCache⟩
  | data :: _ => do
    let raw := readDatagram buf buf.length data
    match ← unpackUDPData raw with
    | .error _ => return ⟨[], dnsCache⟩
    | .ok fields =>
      if fields.payload ≠ [] ∧ written = false then return ⟨[], dnsCache⟩
      let toTun := if fields.payload = [] then [] else [(0, fields.payload)]
      return ⟨toTun, if target.Port = commonDnsPort then dnsCache.store lib now raw.bytes
        else dnsCache⟩

/-- Whatever buffer it gets, `fetchSocksData` writes what is owed. -/
def Fetches (incoming : List (List UInt8)) : Prop :=
  ∀ (lib : Library) (now : Nat) (dnsCache : DNSCache) (target : UDPAddr) (buf : List UInt8),
    bufSize ≤ buf.length → ∃ fetched,
      fetchSocksData lib now dnsCache target true buf incoming = .ret fetched ∧
      fetched.toTun = responses 0 incoming

/-- The first datagram is too short for the parser to look at, or well-formed with a
    payload that is not empty and fits the smallest buffer; and no later one is
    well-formed. -/
def FetchedWhole : List (List UInt8) → Prop
  | [] => True
  | data :: rest =>
    (data.length < 4 ∨ WellFormed data ∧ headerLen data + payloadLen data ≤ bufSize ∧
      payloadLen data ≠ 0) ∧ ∀ later ∈ rest, ¬WellFormed later

theorem fetchSocksData_short {lib : Library} {now : Nat} {dnsCache : DNSCache} {target : UDPAddr}
    {written : Bool} {buf data : List UInt8} (hshort : data.length < 4)
    (rest : List (List UInt8)) :
    fetchSocksData lib now dnsCache target written buf (data :: rest) = .ret ⟨[], dnsCache⟩ := by
  simp [fetchSocksData, unpack_readDatagram_short hshort]

private theorem fetchSocksData_ok {lib : Library} {now : Nat} {dnsCache : DNSCache} {target : UDPAddr}
    {buf data : List UInt8} {fields : UDPData} (rest : List (List UInt8))
    (hunpack : unpackUDPData (readDatagram buf buf.length data) = .ret (.ok fields)) :
    ∃ fetched, fetchSocksData lib now dnsCache target true buf (data :: rest) = .ret fetched ∧
      fetched.toTun = if fields.payload = [] then [] else [(0, fields.payload)] := by
  simp [fetchSocksData, hunpack]

theorem Fetches.whole {incoming : List (List UInt8)} (h : Fetches incoming) :
    FetchedWhole incoming := by
  cases incoming with
  | nil => trivial
  | cons data rest =>
    obtain ⟨buf, hsize⟩ : ∃ buf : List UInt8, buf.length = bufSize :=
      ⟨.replicate bufSize 0, List.length_replicate⟩
    obtain ⟨fetched, hrun, hout⟩ :=
      h UdpAssoc.noDns 0 newDNSCache ⟨[], 0, ""⟩ buf (Nat.le_of_eq hsize.symm)
    by_cases hshort : data.length < 4
    · rw [fetchSocksData_short hshort] at hrun
      cases hrun
      have hnone := responses_eq_nil_iff.mp hout.symm
      exact ⟨.inl hshort, fun later hlater => hnone later (List.mem_cons_of_mem _ hlater)⟩
    have hroom : 4 ≤ buf.length := by
      rw [hsize]
      decide
    cases hunpack : unpackUDPData (readDatagram buf buf.length data) with
    | panic => simp [fetchSocksData, hunpack] at hrun
    | ret result =>
      obtain ⟨hheader, hcap, fields, rfl, hpayload⟩ := unpack_readDatagram_ret
        (Nat.le_of_not_lt hshort) hroom hunpack
      obtain ⟨fetched', hrun', hwritten⟩ := @fetchSocksData_ok UdpAssoc.noDns 0 newDNSCache
        ⟨[], 0, ""⟩ buf data fields rest hunpack
      obtain rfl : fetched' = fetched := Outcome.ret.inj (hrun'.symm.trans hrun)
      have hlen : fields.payload.length = payloadLen data := by
        rw [hpayload, length_take_drop hcap]
      rw [length_readDatagram (Nat.le_refl _), hsize] at hcap
      rw [hout] at hwritten
      split at hwritten
      · -- an empty payload is not written, though its datagram is well-formed
        rename_i hempty
        rw [hempty, List.length_nil] at hlen
        have hnone := responses_eq_nil_iff.mp hwritten data List.mem_cons_self
        refine absurd ?_ hnone
        rw [WellFormed, ← hlen]
        exact (Nat.le_min.mp hheader).1
      · rename_i hne
        obtain ⟨hform, _, hrest⟩ := wellFormed_of_responses hwritten.symm
        refine ⟨.inr ⟨hform, hcap, ?_⟩, responses_eq_nil_iff.mp hrest.symm⟩
        rw [← hlen]
        exact fun hzero => hne (List.length_eq_zero_iff.mp hzero)

theorem fetches_iff (incoming : List (List UInt8)) : Fetches incoming ↔ FetchedWhole incoming := by
  refine ⟨Fetches.whole, fun hwhole lib now dnsCache target buf hbuf => ?_⟩
  cases incoming with
  | nil => exact ⟨_, rfl, rfl⟩
  | cons data rest =>
    obtain ⟨hfirst, hrest⟩ := hwhole
    obtain hshort | ⟨hform, hsize, hpayload⟩ := hfirst
    · refine ⟨_, fetchSocksData_short hshort rest, ?_⟩
      rw [responses_cons, if_neg (not_wellFormed_of_short hshort), responses_eq_nil_iff.mpr hrest]
    · obtain ⟨fetched, hrun, hout⟩ := @fetchSocksData_ok lib now dnsCache target buf data _ rest
        (unpack_readDatagram_fits hform (hsize.trans hbuf))
      refine ⟨fetched, hrun, ?_⟩
      have hne : (fieldsOf data).payload ≠ [] := by
        rw [← List.length_pos_iff, fieldsOf, length_take_drop hform]
        exact Nat.pos_of_ne_zero hpayload
      rw [hout, if_neg hne, responses_cons, if_pos hform, responses_eq_nil_iff.mpr hrest]

end tun2proxy.socks
