import Tun2Proxy.Dns.Answer
import Tun2Proxy.Socks.Responses

open tun2proxy.core (bufSize)
open tun2proxy.go tun2proxy.dns tun2proxy.udppackage

namespace tun2proxy.socks

/-- What `fetchSocksData` gives to `Store` of a datagram, if it comes that far with a buffer
    of `n` bytes. -/
def toCache (n : Nat) (data : List UInt8) : Option (List UInt8) :=
  if headerLen data ≤ min data.length n ∧ headerLen data + payloadLen data ≤ n then
    some (data.take n)
  else none

theorem fetchSocksData_toCache {buf data raw : List UInt8} (hraw : toCache buf.length data = some raw)
    (lib : Library) (now : Nat) (c : DNSCache) (target : UDPAddr) (rest : List (List UInt8)) :
    ∃ fetched, fetchSocksData lib now c target true buf (data :: rest) = .ret fetched ∧
      fetched.dnsCache = if target.Port = commonDnsPort then c.store lib now raw else c := by
  simp only [toCache, Option.ite_none_right_eq_some, Option.some.injEq] at hraw
  obtain ⟨⟨hheader, hpayload⟩, rfl⟩ := hraw
  rw [← length_readDatagram (Nat.le_refl _) data] at hpayload
  obtain ⟨fields, hunpack⟩ := unpack_readDatagram_header hheader hpayload
  simp [fetchSocksData, hunpack, bytes_readDatagram]

/-- The cache is left as it was, or given what was read. -/
theorem fetchSocksData_dnsCache {lib : Library} {now : Nat} {c : DNSCache} {target : UDPAddr}
    {written : Bool} {buf data : List UInt8} {rest : List (List UInt8)} {fetched : Fetched}
    (hroom : 4 ≤ buf.length)
    (hrun : fetchSocksData lib now c target written buf (data :: rest) = .ret fetched) :
    fetched.dnsCache = c ∨ target.Port = commonDnsPort ∧
      ∃ raw, toCache buf.length data = some raw ∧ fetched.dnsCache = c.store lib now raw := by
  by_cases hshort : data.length < 4
  · rw [fetchSocksData_short hshort] at hrun
    cases hrun
    exact .inl rfl
  cases hunpack : unpackUDPData (readDatagram buf buf.length data) with
  | panic => simp [fetchSocksData, hunpack] at hrun
  | ret result =>
    obtain ⟨hheader, hpayload, fields, rfl, _⟩ :=
      unpack_readDatagram_ret (Nat.le_of_not_lt hshort) hroom hunpack
    rw [length_readDatagram (Nat.le_refl _)] at hpayload
    simp only [fetchSocksData, hunpack, Outcome.ret_bind, Outcome.pure_eq] at hrun
    split at hrun
    · cases hrun
      exact .inl rfl
    · cases hrun
      by_cases hport : target.Port = commonDnsPort
      · exact .inr ⟨hport, data.take buf.length, if_pos ⟨hheader, hpayload⟩, by
          simp only [if_pos hport, bytes_readDatagram]⟩
      · exact .inl (if_neg hport)

/-! ### The answer that was relayed -/

/-- The payload of a well-formed response is a DNS answer worth caching. -/
structure RelaysAnswer (lib : Library) (data : List UInt8) (resp : Msg) : Prop where
  wellFormed : WellFormed data
  acceptable : lib.acceptable (fieldsOf data).payload = some resp
  ttl : ∀ rr ∈ resp.Answer, 0 < rr.Ttl.toNat

/-- What `fetchSocksData` owes to the cache for one datagram on a connection to a DNS
    server, whatever arrives after it: the answer that it relays is found until it
    expires, and nothing else gets into the cache. -/
structure CachesRelayed (lib : Library) (target : UDPAddr) (data : List UInt8) : Prop where
  found : ∀ resp, RelaysAnswer lib data resp →
    ∀ (now : Nat) (c : DNSCache) (buf : List UInt8) (rest : List (List UInt8)),
    bufSize ≤ buf.length → ∃ fetched,
      fetchSocksData lib now c target true buf (data :: rest) = .ret fetched ∧
      ∀ (query : List UInt8) (request : Msg) (time : Nat), lib.unpack query = some request →
        request.Question.head? = resp.Question.head? → now ≤ time →
        (∀ rr ∈ resp.Answer, time < now + rr.Ttl.toNat * 1000000000) →
        (fetched.dnsCache.query lib time query).1 = some { resp with Id := request.Id }
  unchanged : (∀ resp, ¬RelaysAnswer lib data resp) →
    ∀ (now : Nat) (c : DNSCache) (written : Bool) (buf : List UInt8) (rest : List (List UInt8))
      (fetched : Fetched), bufSize ≤ buf.length →
      fetchSocksData lib now c target written buf (data :: rest) = .ret fetched →
      fetched.dnsCache = c

/-- The DNS library takes the datagram as it was read, with the header of the proxy, for
    the same message as its payload. -/
structure ReadLikePayload (lib : Library) (data : List UInt8) : Prop where
  same : ∀ resp, RelaysAnswer lib data resp → ∀ n, bufSize ≤ n →
    ∃ raw stored, toCache n data = some raw ∧ lib.acceptable raw = some stored ∧
      stored.SameApartFromId resp
  none : (∀ resp, ¬RelaysAnswer lib data resp) → ∀ n, bufSize ≤ n →
    ∀ raw, toCache n data = some raw → lib.acceptable raw = none

private theorem exists_buffer {n : Nat} (hn : bufSize ≤ n) :
    ∃ buf : List UInt8, buf.length = n ∧ bufSize ≤ buf.length ∧ 4 ≤ buf.length := by
  have hsize : 4 ≤ bufSize := by decide
  refine ⟨.replicate n 0, List.length_replicate, ?_, ?_⟩ <;> rw [List.length_replicate] <;> omega

/-- What an accepted message leaves in an empty cache. -/
theorem store_newDNSCache_ne {lib : Library} {now : Nat} {raw : List UInt8} {resp : Msg}
    (hacc : lib.acceptable raw = some resp) : newDNSCache.store lib now raw ≠ newDNSCache := by
  obtain ⟨_, _, ⟨question, questions, hquestion⟩, _⟩ := acceptable_eq_some hacc
  intro hsame
  have hstorage := congrArg (fun c => c.storage (cacheKey question)) hsame
  simp only [store_storage] at hstorage
  simp [Library.stores, hacc, Option.filter_some, Msg.asks, hquestion, newDNSCache] at hstorage

/-- An empty cache finds what it was just given, and nothing else. -/
theorem query_store_newDNSCache {lib : Library} {now time : Nat} {raw query : List UInt8} {m : Msg}
    (hfound : ((newDNSCache.store lib now raw).query lib time query).1 = some m) :
    ∃ stored, lib.acceptable raw = some stored ∧ m.SameApartFromId stored := by
  obtain ⟨request, question, entry, _, _, hentry, _, rfl, _⟩ := query_eq_some (Prod.ext hfound rfl)
  rw [store_storage] at hentry
  cases hstored : lib.stores now raw (cacheKey question) with
  | none =>
    rw [hstored] at hentry
    cases hentry
  | some written =>
    rw [hstored] at hentry
    cases hentry
    simp only [Library.stores, Option.map_eq_some_iff, Option.filter_eq_some_iff] at hstored
    obtain ⟨resp, ⟨hacc, _⟩, rfl⟩ := hstored
    exact ⟨resp, hacc, rfl⟩

private theorem CachesRelayed.readLikePayload {lib : Library} {target : UDPAddr} {data : List UInt8}
    (hport : target.Port = commonDnsPort) (h : CachesRelayed lib target data) :
    ReadLikePayload lib data where
  same resp hrelays n hn := by
    obtain ⟨buf, rfl, hbuf, hroom⟩ := exists_buffer hn
    obtain ⟨fetched, hrun, hquery⟩ := h.found resp hrelays 0 newDNSCache buf [] hbuf
    -- the payload is itself a query for its own question
    have hfound := hquery (fieldsOf data).payload resp 0 (acceptable_eq_some hrelays.acceptable).1
      rfl (Nat.le_refl 0) fun rr hrr => by
        have hpos := hrelays.ttl rr hrr
        omega
    obtain hsame | ⟨_, raw, hraw, hstore⟩ := fetchSocksData_dnsCache hroom hrun
    · rw [hsame] at hfound
      obtain ⟨_, _, entry, _, _, hentry, _⟩ := query_eq_some (Prod.ext hfound rfl)
      cases hentry
    · rw [hstore] at hfound
      obtain ⟨stored, hacc, hsame⟩ := query_store_newDNSCache hfound
      exact ⟨raw, stored, hraw, hacc, hsame.symm⟩
  none hnone n hn raw hraw := by
    obtain ⟨buf, rfl, hbuf, _⟩ := exists_buffer hn
    obtain ⟨fetched, hrun, hcache⟩ := fetchSocksData_toCache hraw lib 0 newDNSCache target []
    have hsame := h.unchanged hnone 0 newDNSCache true buf [] fetched hbuf hrun
    rw [hcache, if_pos hport] at hsame
    cases hacc : lib.acceptable raw with
    | none => rfl
    | some resp => exact absurd hsame (store_newDNSCache_ne hacc)

private theorem ReadLikePayload.cachesRelayed {lib : Library} {target : UDPAddr} {data : List UInt8}
    (hport : target.Port = commonDnsPort) (h : ReadLikePayload lib data) :
    CachesRelayed lib target data where
  found resp hrelays now c buf rest hbuf := by
    obtain ⟨raw, stored, hraw, hacc, hsame⟩ := h.same resp hrelays buf.length hbuf
    obtain ⟨fetched, hrun, hcache⟩ := fetchSocksData_toCache hraw lib now c target rest
    refine ⟨fetched, hrun, fun query request time hunpack hask _ hfresh => ?_⟩
    obtain ⟨_, _, ⟨question, questions, hquestion⟩, first, answers, hanswer⟩ :=
      acceptable_eq_some hrelays.acceptable
    have hstored : stored.Question = resp.Question ∧ stored.Answer = resp.Answer := by
      rw [hsame]
      exact ⟨rfl, rfl⟩
    have hentry : fetched.dnsCache.storage (cacheKey question) =
        some ⟨stored, stored.expiry now⟩ := by
      rw [hcache, if_pos hport, store_storage]
      simp [Library.stores, hacc, Option.filter_some, Msg.asks, hstored.1, hquestion]
    have hexp : time ≤ stored.expiry now := by
      have hlt := hfresh first (hanswer ▸ List.mem_cons_self)
      rw [Msg.expiry, hstored.2, hanswer]
      exact Nat.le_of_lt hlt
    rw [hquestion, List.head?_cons] at hask
    rw [query_hit hunpack hask hentry hexp, hsame]
  unchanged hnone now c written buf rest fetched hbuf hrun := by
    have hroom : 4 ≤ buf.length := Nat.le_trans (by decide) hbuf
    obtain hsame | ⟨_, raw, hraw, hstore⟩ := fetchSocksData_dnsCache hroom hrun
    · exact hsame
    · rw [hstore, store_of_refused (h.none hnone buf.length hbuf raw hraw)]

/-- The cache gets the relayed answer, and nothing else, exactly when the DNS library reads
    the whole datagram like its payload. On connections to other ports it is not touched. -/
theorem cachesRelayed_iff (lib : Library) (target : UDPAddr) (data : List UInt8) :
    (target.Port = commonDnsPort → (CachesRelayed lib target data ↔ ReadLikePayload lib data)) ∧
    (target.Port ≠ commonDnsPort → ∀ (now : Nat) (c : DNSCache) (written : Bool)
      (buf : List UInt8) (rest : List (List UInt8)) (fetched : Fetched), bufSize ≤ buf.length →
      fetchSocksData lib now c target written buf (data :: rest) = .ret fetched →
      fetched.dnsCache = c) := by
  refine ⟨fun hport => ⟨CachesRelayed.readLikePayload hport,
    ReadLikePayload.cachesRelayed hport⟩, ?_⟩
  intro hport now c written buf rest fetched hbuf hrun
  obtain hsame | ⟨hdns, _⟩ := fetchSocksData_dnsCache (Nat.le_trans (by decide) hbuf) hrun
  · exact hsame
  · exact absurd hdns hport

def dnsServer : UDPAddr := ⟨[8, 8, 8, 8], 53, ""⟩

/-- A response of the proxy from `dnsServer`, with the header of the request. -/
def proxied (payload : List UInt8) : List UInt8 :=
  packAddr dnsServer ++ packAddr ⟨[10, 0, 0, 2], 5000, ""⟩ ++
    packLen (UInt32.ofNat payload.length) ++ payload

theorem toCache_proxied {payload : List UInt8} (hshort : (proxied payload).length ≤ bufSize) {n : Nat}
    (hn : bufSize ≤ n) {raw : List UInt8} (hraw : toCache n (proxied payload) = some raw) :
    raw = proxied payload := by
  simp only [toCache, Option.ite_none_right_eq_some, Option.some.injEq] at hraw
  rw [← hraw.2, List.take_of_length_le (hshort.trans hn)]

/-- A payload that is no DNS message stays out of the cache. -/
theorem cachesRelayed_no_dns : CachesRelayed txtLib dnsServer (proxied [7]) := by
  refine ((cachesRelayed_iff txtLib dnsServer (proxied [7])).1 rfl).mpr ⟨?_, ?_⟩
  · intro resp hrelays
    have hnone : txtLib.acceptable (fieldsOf (proxied [7])).payload = none := by decide
    rw [hrelays.acceptable] at hnone
    cases hnone
  · intro _ n hn raw hraw
    rw [toCache_proxied (by decide) hn hraw]
    decide

/-- A DNS answer is stored with the header of the proxy in front, which is no DNS message,
    so it is not found. -/
theorem relayed_answer_not_cached :
    RelaysAnswer txtLib (proxied (0 :: 1 :: (txtResponse 1).1)) { (txtResponse 1).2 with Id := 1 } ∧
      ¬CachesRelayed txtLib dnsServer (proxied (0 :: 1 :: (txtResponse 1).1)) := by
  have hrelays : RelaysAnswer txtLib (proxied (0 :: 1 :: (txtResponse 1).1))
      { (txtResponse 1).2 with Id := 1 } := ⟨by decide, by decide, by decide⟩
  refine ⟨hrelays, fun h => ?_⟩
  obtain ⟨raw, stored, hraw, hacc, _⟩ :=
    (CachesRelayed.readLikePayload rfl h).same _ hrelays bufSize (Nat.le_refl _)
  rw [toCache_proxied (by decide) (Nat.le_refl _) hraw] at hacc
  revert hacc
  have hnone : txtLib.acceptable (proxied (0 :: 1 :: (txtResponse 1).1)) = none := by decide
  rw [hnone]
  exact nofun

end tun2proxy.socks
