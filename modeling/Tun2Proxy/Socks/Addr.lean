import Tun2Proxy.Go.IP
import Tun2Proxy.Go.Slice
import Tun2Proxy.Lib.BigEndian

open tun2proxy.go tun2proxy.bigendian

namespace tun2proxy.socks

def socks5IP4 : UInt8 := 1
def socks5Domain : UInt8 := 3
def socks5IP6 : UInt8 := 4

/-- `MaxAddrLen`. -/
def maxAddrLen : Nat := 1 + 1 + 255 + 2

/-- `ATYP`. -/
def atyp (b : UInt8) : UInt8 := b &&& ~~~0x8

/-- The port that stands at `i`, in decimal. -/
def portText (a : Slice) (i : Nat) : Outcome (List UInt8) := do
  let high ← a.index i
  let low ← a.index (i + 1)
  return itoa (high.toNat <<< 8 ||| low.toNat)

/-- `Addr.String`. -/
def addrString (a : Slice) : Outcome (List UInt8) := do
  let t := atyp (← a.index 0)
  if t = socks5Domain then
    let n ← a.index 1
    let host ← a.slice 2 (2 + n.toNat)
    return joinHostPort host.bytes (← portText a (2 + n.toNat))
  else if t = socks5IP4 then
    let ip ← a.slice 1 5
    return joinHostPort (ipString ip.bytes) (← portText a 5)
  else if t = socks5IP6 then
    let ip ← a.slice 1 17
    return joinHostPort (ipString ip.bytes) (← portText a 17)
  else
    return joinHostPort [] []

/-- The type and the host of the address for a host name or an IP. -/
def hostAddr (host : List UInt8) : Option (List UInt8) :=
  match parseIP host with
  | some ip =>
    match to4 ip with
    | some ip4 => some (socks5IP4 :: ip4)
    | none => some (socks5IP6 :: ip)
  | none =>
    if 255 < host.length then none
    else some (socks5Domain :: UInt8.ofNat host.length :: host)

/-- `ParseAddr`; `none` is a nil address. -/
def parseAddr (s : List UInt8) : Option (List UInt8) :=
  match splitHostPort s with
  | none => none
  | some (host, port) =>
    match hostAddr host with
    | none => none
    | some addr =>
      match parseUint port 16 with
      | none => none
      | some portnum => some (addr ++ [UInt8.ofNat (portnum >>> 8), UInt8.ofNat portnum])

/-- The end of `SplitAddr`: `b[:addrLen]`, if it is that long. -/
def takeAddr (b : Slice) (addrLen : Nat) : Outcome (Option Slice) := do
  if b.len < addrLen then
    return none
  return some (← b.slice 0 addrLen)

/-- `SplitAddr`; `none` is a nil address. -/
def splitAddr (b : Slice) : Outcome (Option Slice) := do
  if b.len < 1 then
    return none
  let t := atyp (← b.index 0)
  if t = socks5Domain then
    if b.len < 2 then
      return none
    let n ← b.index 1
    takeAddr b (1 + 1 + n.toNat + 2)
  else if t = socks5IP4 then takeAddr b (1 + 4 + 2)
  else if t = socks5IP6 then takeAddr b (1 + 16 + 2)
  else return none

/-! ### Slices by their bytes -/

theorem index_of_bytes {s : Slice} (xs : List UInt8) {ys : List UInt8} {x : UInt8} {i : Nat}
    (hbytes : s.bytes = xs ++ x :: ys) (hi : xs.length = i) : s.index i = .ret x := by
  have hlen : i < s.len := by
    rw [← s.length_bytes, hbytes, List.length_append, List.length_cons]
    omega
  have hget : s.bytes[i]? = some x := by
    rw [hbytes, List.getElem?_append_right (by omega), hi]
    simp
  rw [Slice.bytes, List.getElem?_take_of_lt hlen] at hget
  rw [Slice.index_of_lt hlen, List.getD, hget]
  rfl

private theorem slice_of_bytes {s : Slice} (xs : List UInt8) {ys zs : List UInt8} {i j : Nat}
    (hbytes : s.bytes = xs ++ ys ++ zs) (hi : xs.length = i) (hj : i + ys.length = j) :
    ∃ d, s.slice i j = .ret d ∧ d.bytes = ys := by
  have hcap := s.len_le
  have hlen : j ≤ s.len := by
    rw [← s.length_bytes, hbytes, List.length_append, List.length_append]
    omega
  refine ⟨_, Slice.slice_of_le (by omega) (by omega), ?_⟩
  have hdrop : (s.bytes.drop i).take (j - i) = ys := by
    rw [hbytes, List.append_assoc, List.drop_left' hi, List.take_left' (by omega)]
  refine Eq.trans ?_ hdrop
  rw [Slice.bytes, Slice.bytes, List.drop_take, List.take_take]
  congr 1
  dsimp only
  omega

/-! ### `SplitAddr` -/

/-- The length that the first bytes of an address give it. -/
def addrLen : List UInt8 → Option Nat
  | [] => none
  | t :: rest =>
    if atyp t = socks5Domain then rest.head?.map fun n => 1 + 1 + n.toNat + 2
    else if atyp t = socks5IP4 then some (1 + 4 + 2)
    else if atyp t = socks5IP6 then some (1 + 16 + 2)
    else none

/-- An address of exactly that length stands at the front of the bytes. -/
def frontAddr (data : List UInt8) : Option (List UInt8) :=
  (addrLen data).bind fun n => if n ≤ data.length then some (data.take n) else none

private theorem takeAddr_eq (b : Slice) (n : Nat) : ∃ o, takeAddr b n = .ret o ∧
    o.map Slice.bytes = if n ≤ b.bytes.length then some (b.bytes.take n) else none := by
  unfold takeAddr
  rw [Slice.length_bytes]
  by_cases hshort : b.len < n
  · refine ⟨none, by rw [if_pos hshort]; rfl, ?_⟩
    rw [if_neg (by omega)]
    rfl
  · have hsplit : b.bytes = [] ++ b.bytes.take n ++ b.bytes.drop n := by simp
    have hend : 0 + (b.bytes.take n).length = n := by
      rw [List.length_take, Slice.length_bytes]
      omega
    obtain ⟨d, hslice, hd⟩ := slice_of_bytes [] (i := 0) hsplit rfl hend
    refine ⟨some d, by rw [if_neg hshort, hslice]; rfl, ?_⟩
    rw [if_pos (by omega), Option.map_some, hd]

/-- `SplitAddr` never fails on an index, and returns the address at the front. -/
theorem splitAddr_eq (b : Slice) :
    ∃ o, splitAddr b = .ret o ∧ o.map Slice.bytes = frontAddr b.bytes := by
  cases hbytes : b.bytes with
  | nil =>
    have hlen : b.len < 1 := by
      rw [← b.length_bytes, hbytes]
      exact Nat.zero_lt_one
    exact ⟨none, by rw [splitAddr, if_pos hlen]; rfl, rfl⟩
  | cons t rest =>
    have hlen : b.len = rest.length + 1 := by rw [← b.length_bytes, hbytes, List.length_cons]
    have hfirst : b.index 0 = .ret t := index_of_bytes [] hbytes rfl
    have htake (n : Nat) := takeAddr_eq b n
    rw [hbytes] at htake
    unfold splitAddr frontAddr addrLen
    rw [if_neg (by omega), hfirst, Outcome.ret_bind]
    dsimp only
    by_cases hdomain : atyp t = socks5Domain
    · rw [if_pos hdomain, if_pos hdomain]
      cases rest with
      | nil => exact ⟨none, by rw [hlen]; rfl, rfl⟩
      | cons n rest =>
        have hsecond : b.index 1 = .ret n := index_of_bytes [t] hbytes rfl
        rw [if_neg (by rw [hlen, List.length_cons]; omega), hsecond]
        exact htake _
    · rw [if_neg hdomain, if_neg hdomain]
      by_cases hip4 : atyp t = socks5IP4
      · rw [if_pos hip4, if_pos hip4]
        exact htake _
      · rw [if_neg hip4, if_neg hip4]
        by_cases hip6 : atyp t = socks5IP6
        · rw [if_pos hip6, if_pos hip6]
          exact htake _
        · rw [if_neg hip6, if_neg hip6]
          exact ⟨none, rfl, rfl⟩

/-! ### `ParseAddr` -/

private theorem portText_eq {a : Slice} {front : List UInt8} {high low : UInt8} {i : Nat}
    (hbytes : a.bytes = front ++ [high, low]) (hi : front.length = i) :
    portText a i = .ret (itoa (high.toNat * 2 ^ 8 + low.toNat)) := by
  have hnext : a.bytes = (front ++ [high]) ++ low :: [] := by simpa using hbytes
  rw [portText, index_of_bytes _ hbytes hi, Outcome.ret_bind,
    index_of_bytes _ hnext (by simpa using hi), Outcome.ret_bind,
    shiftLeft_or_eq_add 8 low.toNat_lt]
  rfl

/-- What is known of the front part of an address: the length it announces, and a host
    without brackets that is printed for it and gives it again. -/
structure HostPart (addr : List UInt8) (host : List UInt8) : Prop where
  noBracket : NoBracket host
  hostAddr_eq : hostAddr host = some addr
  addrLen_eq : ∀ rest, addrLen (addr ++ rest) = some (addr.length + 2)
  addrString_eq : ∀ (a : Slice) (high low : UInt8), a.bytes = addr ++ [high, low] →
    addrString a = .ret (joinHostPort host (itoa (high.toNat * 2 ^ 8 + low.toNat)))

private theorem to4_v4InV6 {ip4 : List UInt8} (hlen : ip4.length = 4) :
    to4 (v4InV6Prefix ++ ip4) = some ip4 := by
  have hprefix : v4InV6Prefix.length = 12 := rfl
  rw [to4, if_neg (by rw [List.length_append]; omega),
    if_pos ⟨by rw [List.length_append]; omega, List.take_left' hprefix⟩, List.drop_left' hprefix]

private theorem hostPart_ip4 {ip4 : List UInt8} (hlen : ip4.length = 4) :
    HostPart (socks5IP4 :: ip4) (ipString ip4) where
  noBracket := noBracket_ipString (.inl hlen)
  hostAddr_eq := by
    rw [hostAddr, parseIP_ipString (.inl hlen), to16, if_pos hlen]
    simp only [to4_v4InV6 hlen]
  addrLen_eq rest := by
    rw [List.length_cons, hlen]
    rfl
  addrString_eq a high low hbytes := by
    have hfirst : a.index 0 = .ret socks5IP4 := index_of_bytes [] hbytes rfl
    obtain ⟨d, hslice, hd⟩ := slice_of_bytes [socks5IP4] (i := 1) (j := 5) hbytes rfl
      (by rw [hlen])
    rw [addrString, hfirst, Outcome.ret_bind]
    dsimp only
    rw [if_neg (by decide), if_pos (by decide), hslice, Outcome.ret_bind,
      portText_eq hbytes (by rw [List.length_cons, hlen]), Outcome.ret_bind, hd]
    rfl

private theorem hostPart_ip6 {ip : List UInt8} (hlen : ip.length = 16) (h4 : to4 ip = none) :
    HostPart (socks5IP6 :: ip) (ipString ip) where
  noBracket := noBracket_ipString (.inr hlen)
  hostAddr_eq := by
    rw [hostAddr, parseIP_ipString (.inr hlen), to16, if_neg (by omega), if_pos hlen]
    simp only [h4]
  addrLen_eq rest := by
    rw [List.length_cons, hlen]
    rfl
  addrString_eq a high low hbytes := by
    have hfirst : a.index 0 = .ret socks5IP6 := index_of_bytes [] hbytes rfl
    obtain ⟨d, hslice, hd⟩ := slice_of_bytes [socks5IP6] (i := 1) (j := 17) hbytes rfl
      (by rw [hlen])
    rw [addrString, hfirst, Outcome.ret_bind]
    dsimp only
    rw [if_neg (by decide), if_neg (by decide), if_pos (by decide), hslice, Outcome.ret_bind,
      portText_eq hbytes (by rw [List.length_cons, hlen]), Outcome.ret_bind, hd]
    rfl

private theorem hostPart_domain {host : List UInt8} (hbracket : NoBracket host)
    (hip : parseIP host = none) (hlen : ¬255 < host.length) :
    HostPart (socks5Domain :: UInt8.ofNat host.length :: host) host where
  noBracket := hbracket
  hostAddr_eq := by
    rw [hostAddr, hip]
    simp only [if_neg hlen]
  addrLen_eq rest := by
    have hnat : (UInt8.ofNat host.length).toNat = host.length :=
      UInt8.toNat_ofNat_of_lt' (by simp only [UInt8.size]; omega)
    simp only [List.cons_append, addrLen, List.head?_cons, Option.map_some, hnat, List.length_cons]
    rw [if_pos (by decide)]
    congr 1
    omega
  addrString_eq a high low hbytes := by
    have hnat : (UInt8.ofNat host.length).toNat = host.length :=
      UInt8.toNat_ofNat_of_lt' (by simp only [UInt8.size]; omega)
    have hfirst : a.index 0 = .ret socks5Domain := index_of_bytes [] hbytes rfl
    have hsecond : a.index 1 = .ret (UInt8.ofNat host.length) :=
      index_of_bytes [socks5Domain] hbytes rfl
    obtain ⟨d, hslice, hd⟩ := slice_of_bytes [socks5Domain, UInt8.ofNat host.length]
      (i := 2) (j := 2 + host.length) hbytes rfl rfl
    rw [addrString, hfirst, Outcome.ret_bind]
    dsimp only
    rw [if_pos (by decide), hsecond, Outcome.ret_bind, hnat, hslice, Outcome.ret_bind,
      portText_eq hbytes (by simp only [List.length_cons]; omega), Outcome.ret_bind, hd]
    rfl

private theorem exists_hostPart {host addr : List UInt8} (hbracket : NoBracket host)
    (h : hostAddr host = some addr) : ∃ host', HostPart addr host' := by
  unfold hostAddr at h
  split at h
  case _ ip hip =>
    split at h
    case _ ip4 h4 =>
      cases h
      exact ⟨_, hostPart_ip4 (to4_spec h4).1⟩
    case _ h4 =>
      cases h
      exact ⟨_, hostPart_ip6 (length_parseIP hip) h4⟩
  case _ hip =>
    split at h
    · cases h
    case isFalse hlen =>
      cases h
      exact ⟨_, hostPart_domain hbracket hip hlen⟩

/-- What `ParseAddr` has put together. -/
theorem parseAddr_eq_some {s a : List UInt8} (h : parseAddr s = some a) :
    ∃ host addr high low, HostPart addr host ∧ a = addr ++ [high, low] := by
  unfold parseAddr at h
  split at h
  · cases h
  case _ host port hsplit =>
    split at h
    · cases h
    case _ addr hhost =>
      split at h
      · cases h
      · cases h
        obtain ⟨host', hpart⟩ := exists_hostPart (noBracket_of_splitHostPort hsplit) hhost
        exact ⟨host', addr, _, _, hpart, rfl⟩

private theorem frontAddr_parseAddr {s a : List UInt8} (h : parseAddr s = some a) (rest : List UInt8) :
    frontAddr (a ++ rest) = some a := by
  obtain ⟨host, addr, high, low, hpart, rfl⟩ := parseAddr_eq_some h
  have hlen : addrLen (addr ++ [high, low] ++ rest) = some (addr ++ [high, low]).length := by
    rw [List.append_assoc, hpart.addrLen_eq, List.length_append]
    rfl
  have hfits : (addr ++ [high, low]).length ≤ (addr ++ [high, low] ++ rest).length := by
    exact (List.prefix_append _ rest).length_le
  rw [frontAddr, hlen, Option.bind_some, if_pos hfits, List.take_left]

/-- The port that is printed is the one in the last two bytes. -/
theorem parseAddr_join {addr host : List UInt8} (hpart : HostPart addr host) (high low : UInt8) :
    parseAddr (joinHostPort host (itoa (high.toNat * 2 ^ 8 + low.toNat))) =
      some (addr ++ [high, low]) := by
  have hhigh := high.toNat_lt
  have hlow := low.toNat_lt
  have hport : NoBracket (itoa (high.toNat * 2 ^ 8 + low.toNat)) :=
    ⟨not_mem_itoa (by decide), not_mem_itoa (by decide)⟩
  have hfst : UInt8.ofNat ((high.toNat * 2 ^ 8 + low.toNat) >>> 8) = high := by
    have hshift : (high.toNat * 2 ^ 8 + low.toNat) >>> 8 = high.toNat := by
      rw [Nat.shiftRight_eq_div_pow]
      omega
    rw [hshift, UInt8.ofNat_toNat]
  have hsnd : UInt8.ofNat (high.toNat * 2 ^ 8 + low.toNat) = low := by
    apply UInt8.toNat_inj.mp
    rw [UInt8.toNat_ofNat']
    omega
  rw [parseAddr, splitHostPort_joinHostPort hpart.noBracket hport (not_mem_itoa (by decide))]
  have hsmall : high.toNat * 2 ^ 8 + low.toNat < 2 ^ 16 := by omega
  simp only [hpart.hostAddr_eq, parseUint_itoa hsmall, hfst, hsnd]

/-- An address that `ParseAddr` made is split off whatever follows it, so none of them is a
    prefix of another one, and its text gives it again. -/
theorem parseAddr_round_trip {s a : List UInt8} (h : parseAddr s = some a) :
    (∀ (b : Slice) (rest : List UInt8), b.bytes = a ++ rest →
      ∃ c, splitAddr b = .ret (some c) ∧ c.bytes = a) ∧
    (∀ c : Slice, c.bytes = a → ∃ text, addrString c = .ret text ∧ parseAddr text = some a) ∧
    ∀ s' a', parseAddr s' = some a' → a <+: a' → a = a' := by
  refine ⟨?_, ?_, ?_⟩
  · intro b rest hbytes
    obtain ⟨o, hsplit, hfront⟩ := splitAddr_eq b
    rw [hbytes, frontAddr_parseAddr h rest] at hfront
    obtain ⟨c, rfl, hc⟩ := Option.map_eq_some_iff.mp hfront
    exact ⟨c, hsplit, hc⟩
  · intro c hbytes
    obtain ⟨host, addr, high, low, hpart, rfl⟩ := parseAddr_eq_some h
    exact ⟨_, hpart.addrString_eq c high low hbytes, parseAddr_join hpart high low⟩
  · rintro s' a' h' ⟨rest, rfl⟩
    have hwhole := frontAddr_parseAddr h' []
    rw [List.append_nil, frontAddr_parseAddr h rest] at hwhole
    exact Option.some.inj hwhole

/-- "[::1]:80". -/
theorem parseAddr_round_trip_loopback :
    let s := "[::1]:80".toList.map ascii
    let a := socks5IP6 :: List.replicate 15 0 ++ [1, 0, 80]
    parseAddr s = some a ∧
    (∀ (b : Slice) (rest : List UInt8), b.bytes = a ++ rest →
      ∃ c, splitAddr b = .ret (some c) ∧ c.bytes = a) ∧
    (∀ c : Slice, c.bytes = a → ∃ text, addrString c = .ret text ∧ parseAddr text = some a) ∧
    ∀ s' a', parseAddr s' = some a' → a <+: a' → a = a' := by
  have hparse : parseAddr ("[::1]:80".toList.map ascii) =
      some (socks5IP6 :: List.replicate 15 0 ++ [1, 0, 80]) := by decide +kernel
  exact ⟨hparse, parseAddr_round_trip hparse⟩

end tun2proxy.socks
