import Tun2Proxy.Go.Reader
import Tun2Proxy.Socks.Addr

open tun2proxy.go tun2proxy.memory

namespace tun2proxy.socks

/-- What a call of `readAddr` returns, with the reader after it and the ends of the slices of
    `b` that it has made. -/
structure ReadAddrRet where
  addr : Option Slice
  err : Option ReadErr
  r : Reader
  ends : List Nat

/-- The last steps for an IP: the rest is read into `b[1:j]`, and the address is `b[:j]`. -/
def readIP (r : Reader) (b : Slice) (j : Nat) : Outcome ReadAddrRet := do
  let full ← readFull r b 1 j
  let addr ← full.b.slice 0 j
  return ⟨some addr, full.err, full.r, [1, j, j]⟩

/-- `readAddr`. -/
def readAddr (r : Reader) (b : Slice) : Outcome ReadAddrRet := do
  if b.len < maxAddrLen then
    return ⟨none, some .shortBuffer, r, []⟩
  let first ← readFull r b 0 1
  if first.err ≠ none then
    return ⟨none, first.err, first.r, [1]⟩
  let t := atyp (← first.b.index 0)
  if t = socks5Domain then
    let second ← readFull first.r first.b 1 2
    if second.err ≠ none then
      return ⟨none, second.err, second.r, [1, 2]⟩
    let n ← second.b.index 1
    let third ← readFull second.r second.b 2 (2 + n.toNat + 2)
    -- the length byte is read again for the result
    let n' ← third.b.index 1
    let addr ← third.b.slice 0 (1 + 1 + n'.toNat + 2)
    return ⟨some addr, third.err, third.r, [1, 2, 2 + n.toNat + 2, 1 + 1 + n'.toNat + 2]⟩
  else if t = socks5IP4 then readIP first.r first.b (1 + 4 + 2)
  else if t = socks5IP6 then readIP first.r first.b (1 + 16 + 2)
  else return ⟨none, some (.other "address type not supported"), first.r, [1]⟩

/-- The first `i` bytes of the reader, or all if there are fewer, stand at the front of the
    buffer. -/
structure Filled (data : List UInt8) (b₀ : Slice) (i : Nat) (r : Reader) (b : Slice) : Prop where
  mem : copyAt b₀.mem 0 (data.take i) = some b.mem
  len : b.len = b₀.len
  rest : r.data = data.drop i

namespace Filled

variable {data : List UInt8} {b₀ b : Slice} {i : Nat} {r : Reader}

theorem readFull (h : Filled data b₀ i r b) (hi : i ≤ data.length) {j : Nat} (hij : i ≤ j)
    (hj : j ≤ b₀.len) : ∃ ret, go.readFull r b i j = .ret ret ∧ Filled data b₀ j ret.r ret.b ∧
      (ret.err = none ↔ j ≤ data.length) := by
  have hcap := b₀.len_le
  have hmem := length_of_copyAt h.mem
  obtain ⟨ret, hret, hcopy, hlen, hleft, herr⟩ := readFull_eq r b hij (by omega)
  have hfront : (data.take i).length = i := List.length_take_of_le hi
  have htake : data.take i ++ (data.drop i).take (j - i) = data.take j := by
    rw [← List.take_add, Nat.add_sub_cancel' hij]
  refine ⟨ret, hret, ⟨?_, hlen.trans h.len, ?_⟩, ?_⟩
  · rw [← htake, ← copyAt_append h.mem, hfront, Nat.zero_add, ← h.rest]
    exact hcopy
  · rw [hleft, h.rest, List.drop_drop, Nat.add_sub_cancel' hij]
  · rw [herr, h.rest, List.length_drop]
    omega

private theorem take_mem (h : Filled data b₀ i r b) (hi : i ≤ data.length) :
    b.mem.take i = data.take i := by
  have hfront := take_of_copyAt_zero h.mem
  rwa [List.length_take_of_le hi] at hfront

theorem index (h : Filled data b₀ i r b) (hib : i ≤ b₀.len) {k : Nat} (hk : k < i) {x : UInt8}
    (hx : data[k]? = some x) : b.index k = .ret x := by
  have hlt : k < (data.take i).length := by
    rw [List.length_take]
    exact Nat.lt_min.mpr ⟨hk, (List.getElem?_eq_some_iff.mp hx).1⟩
  have hget : b.mem[k]? = some x := by
    rw [← List.getElem?_take_of_lt hlt, take_of_copyAt_zero h.mem, List.getElem?_take_of_lt hk, hx]
  rw [Slice.index_of_lt (by rw [h.len]; omega), List.getD, hget]
  rfl

theorem slice (h : Filled data b₀ i r b) (hib : i ≤ b₀.len) :
    ∃ c, b.slice 0 i = .ret c ∧ (i ≤ data.length → c.bytes = data.take i) := by
  have hcap := b₀.len_le
  have hmem := length_of_copyAt h.mem
  exact ⟨_, Slice.slice_of_le (Nat.zero_le i) (by omega), h.take_mem⟩

end Filled

/-- What `readAddr` returns for the bytes of a reader. -/
structure Agrees (data : List UInt8) (ret : ReadAddrRet) : Prop where
  ends : ∀ n ∈ ret.ends, n ≤ maxAddrLen
  accepts : ret.err = none →
    ∃ c, ret.addr = some c ∧ frontAddr data = some c.bytes ∧ data = c.bytes ++ ret.r.data
  refuses : ret.err ≠ none → frontAddr data = none

/-- The last part of an address whose length is known has been read. -/
theorem Filled.agrees {data : List UInt8} {b₀ b c : Slice} {r : Reader} {j : Nat}
    {err : Option ReadErr} {ends : List Nat} (h : Filled data b₀ j r b)
    (hlen : addrLen data = some j) (herr : err = none ↔ j ≤ data.length)
    (hc : j ≤ data.length → c.bytes = data.take j) (hends : ∀ n ∈ ends, n ≤ maxAddrLen) :
    Agrees data ⟨some c, err, r, ends⟩ where
  ends := hends
  accepts hnone := by
    have hfull := herr.mp hnone
    refine ⟨c, rfl, ?_, ?_⟩
    · rw [frontAddr, hlen, Option.bind_some, if_pos hfull, hc hfull]
    · rw [hc hfull]
      exact (List.take_append_drop j data).symm.trans (by rw [h.rest])
  refuses hsome := by
    rw [frontAddr, hlen, Option.bind_some, if_neg (fun hfull => hsome (herr.mpr hfull))]

private theorem readIP_eq {data : List UInt8} {b₀ b : Slice} {r : Reader} {j : Nat}
    (h : Filled data b₀ 1 r b) (hpos : 1 ≤ data.length) (hb : maxAddrLen ≤ b₀.len) (hj : 1 ≤ j)
    (hmax : j ≤ maxAddrLen) (hlen : addrLen data = some j) :
    ∃ ret, readIP r b j = .ret ret ∧ Agrees data ret := by
  obtain ⟨full, hfull, hfilled, herr⟩ := h.readFull hpos hj (by omega)
  obtain ⟨c, hslice, hc⟩ := hfilled.slice (by omega)
  refine ⟨_, by rw [readIP, hfull, Outcome.ret_bind, hslice]; rfl, hfilled.agrees hlen herr hc ?_⟩
  intro n hn
  have hn : n = 1 ∨ n = j := by simpa using hn
  omega

/-- An error before the length of the address is known. -/
theorem Agrees.refused {data : List UInt8} {addr : Option Slice} {err : Option ReadErr}
    {r : Reader} {ends : List Nat} (herr : err ≠ none) (hfront : frontAddr data = none)
    (hends : ∀ n ∈ ends, n ≤ 2) : Agrees data ⟨addr, err, r, ends⟩ where
  ends n hn := Nat.le_trans (hends n hn) (by decide)
  accepts hnone := absurd hnone herr
  refuses _ := hfront

/-- The domain case, after its length byte. -/
theorem readDomain_eq {t n : UInt8} {rest : List UInt8} {b₀ b : Slice} {r : Reader}
    (ht : atyp t = socks5Domain) (h : Filled (t :: n :: rest) b₀ 2 r b)
    (hb : maxAddrLen ≤ b₀.len) :
    ∃ third c, readFull r b 2 (2 + n.toNat + 2) = .ret third ∧ third.b.index 1 = .ret n ∧
      third.b.slice 0 (1 + 1 + n.toNat + 2) = .ret c ∧
      Agrees (t :: n :: rest) ⟨some c, third.err, third.r,
        [1, 2, 2 + n.toNat + 2, 1 + 1 + n.toNat + 2]⟩ := by
  have hmax : maxAddrLen = 259 := rfl
  have hn := n.toNat_lt
  obtain ⟨third, hthird, hfilled, herr⟩ :=
    h.readFull (j := 2 + n.toNat + 2) (by simp) (by omega) (by omega)
  obtain ⟨c, hslice, hc⟩ := hfilled.slice (by omega)
  have hagain : third.b.index 1 = .ret n := hfilled.index (by omega) (by omega) rfl
  refine ⟨third, c, hthird, hagain, hslice, hfilled.agrees ?_ herr hc ?_⟩
  · rw [addrLen, if_pos ht]
    rfl
  · intro k hk
    have hk : k = 1 ∨ k = 2 ∨ k = 2 + n.toNat + 2 ∨ k = 1 + 1 + n.toNat + 2 := by simpa using hk
    omega

private theorem readAddr_eq (r : Reader) (b : Slice) (hb : maxAddrLen ≤ b.len) :
    ∃ ret, readAddr r b = .ret ret ∧ Agrees r.data ret := by
  have hmax : maxAddrLen = 259 := rfl
  have hstart : Filled r.data b 0 r b :=
    ⟨by rw [List.take_zero]; exact copyAt_nil (Nat.zero_le _), rfl, rfl⟩
  obtain ⟨first, hfirst, hfilled, herr⟩ :=
    hstart.readFull (Nat.zero_le _) (Nat.zero_le 1) (by omega)
  unfold readAddr
  rw [if_neg (by omega), hfirst, Outcome.ret_bind]
  cases hdata : r.data with
  | nil =>
    have hsome : first.err ≠ none := fun hnone => by
      have hlen := herr.mp hnone
      rw [hdata] at hlen
      exact absurd hlen (by decide)
    exact ⟨_, if_pos hsome, .refused hsome rfl (by simp)⟩
  | cons t rest =>
    rw [hdata] at hfilled herr
    have hnone : first.err = none := herr.mpr (by simp)
    have hindex : first.b.index 0 = .ret t := hfilled.index (by omega) (by omega) rfl
    rw [if_neg (by simpa using hnone), hindex, Outcome.ret_bind]
    dsimp only
    by_cases hdomain : atyp t = socks5Domain
    · obtain ⟨second, hsecond, hfilled', herr'⟩ :=
        hfilled.readFull (by simp) (Nat.le_succ 1) (by omega)
      rw [if_pos hdomain, hsecond, Outcome.ret_bind]
      cases rest with
      | nil =>
        have hsome : second.err ≠ none := fun hnone => absurd (herr'.mp hnone) (by simp)
        refine ⟨_, if_pos hsome, .refused hsome ?_ (by simp)⟩
        rw [frontAddr, addrLen, if_pos hdomain]
        rfl
      | cons n rest =>
        have hnone' : second.err = none := herr'.mpr (by simp)
        have hindex' : second.b.index 1 = .ret n :=
          hfilled'.index (by omega) (by omega) rfl
        obtain ⟨third, c, hthird, hagain, hslice, hagrees⟩ := readDomain_eq hdomain hfilled' hb
        rw [if_neg (by simpa using hnone'), hindex', Outcome.ret_bind, hthird, Outcome.ret_bind,
          hagain, Outcome.ret_bind, hslice]
        exact ⟨_, rfl, hagrees⟩
    · rw [if_neg hdomain]
      by_cases hip4 : atyp t = socks5IP4
      · rw [if_pos hip4]
        refine readIP_eq hfilled (by simp) hb (by omega) (by omega) ?_
        rw [addrLen, if_neg hdomain, if_pos hip4]
      · rw [if_neg hip4]
        by_cases hip6 : atyp t = socks5IP6
        · rw [if_pos hip6]
          refine readIP_eq hfilled (by simp) hb (by omega) (by omega) ?_
          rw [addrLen, if_neg hdomain, if_neg hip4, if_pos hip6]
        · rw [if_neg hip6]
          refine ⟨_, rfl, .refused (by simp) ?_ (by simp)⟩
          rw [frontAddr, addrLen, if_neg hdomain, if_neg hip4, if_neg hip6]
          rfl

/-! ### `Addr.String` of what was read -/

private theorem exists_index {s : Slice} {i : Nat} (hi : i < s.len) : ∃ x, s.index i = .ret x :=
  ⟨_, Slice.index_of_lt hi⟩

private theorem exists_slice {s : Slice} {i j : Nat} (hij : i ≤ j) (hj : j ≤ s.len) :
    ∃ d, s.slice i j = .ret d := ⟨_, Slice.slice_of_le hij (Nat.le_trans hj s.len_le)⟩

private theorem exists_portText {a : Slice} {i : Nat} (hi : i + 2 ≤ a.len) :
    ∃ text, portText a i = .ret text := by
  obtain ⟨high, hhigh⟩ := exists_index (s := a) (i := i) (by omega)
  obtain ⟨low, hlow⟩ := exists_index (s := a) (i := i + 1) (by omega)
  exact ⟨_, by rw [portText, hhigh, Outcome.ret_bind, hlow]; rfl⟩

/-- No index or slice of `Addr.String` fails for an address as long as it says. -/
theorem exists_addrString {a : Slice} {t : UInt8} {rest : List UInt8}
    (hbytes : a.bytes = t :: rest) (hlen : addrLen (t :: rest) = some a.len) :
    ∃ text, addrString a = .ret text := by
  have hfirst : a.index 0 = .ret t := index_of_bytes [] hbytes rfl
  rw [addrLen] at hlen
  rw [addrString, hfirst, Outcome.ret_bind]
  dsimp only
  by_cases hdomain : atyp t = socks5Domain
  · rw [if_pos hdomain] at hlen ⊢
    obtain ⟨n, hn, hlen⟩ := Option.map_eq_some_iff.mp hlen
    obtain ⟨rest', rfl⟩ := List.head?_eq_some_iff.mp hn
    have hsecond : a.index 1 = .ret n := index_of_bytes [t] hbytes rfl
    obtain ⟨host, hhost⟩ := exists_slice (s := a) (i := 2) (j := 2 + n.toNat) (by omega) (by omega)
    obtain ⟨port, hport⟩ := exists_portText (a := a) (i := 2 + n.toNat) (by omega)
    exact ⟨_, by rw [hsecond, Outcome.ret_bind, hhost, Outcome.ret_bind, hport]; rfl⟩
  · rw [if_neg hdomain] at hlen ⊢
    by_cases hip4 : atyp t = socks5IP4
    · rw [if_pos hip4] at hlen ⊢
      have hlen := Option.some.inj hlen
      obtain ⟨ip, hip⟩ := exists_slice (s := a) (i := 1) (j := 5) (by omega) (by omega)
      obtain ⟨port, hport⟩ := exists_portText (a := a) (i := 5) (by omega)
      exact ⟨_, by rw [hip, Outcome.ret_bind, hport]; rfl⟩
    · rw [if_neg hip4] at hlen ⊢
      by_cases hip6 : atyp t = socks5IP6
      · rw [if_pos hip6] at hlen ⊢
        have hlen := Option.some.inj hlen
        obtain ⟨ip, hip⟩ := exists_slice (s := a) (i := 1) (j := 17) (by omega) (by omega)
        obtain ⟨port, hport⟩ := exists_portText (a := a) (i := 17) (by omega)
        exact ⟨_, by rw [hip, Outcome.ret_bind, hport]; rfl⟩
      · rw [if_neg hip6] at hlen
        cases hlen

/-- The part at the front gives itself the same length. -/
theorem exists_cons_of_frontAddr {data a : List UInt8} (h : frontAddr data = some a) :
    ∃ t rest, a = t :: rest ∧ addrLen a = some a.length := by
  obtain ⟨n, hlen, hfront⟩ := Option.bind_eq_some_iff.mp h
  obtain ⟨hle, heq⟩ := Option.ite_none_right_eq_some.mp hfront
  cases heq
  rw [List.length_take_of_le hle]
  cases data with
  | nil => cases hlen
  | cons t rest =>
    have hpos : 2 ≤ n := by
      rw [addrLen] at hlen
      split at hlen
      · obtain ⟨k, -, hk⟩ := Option.map_eq_some_iff.mp hlen
        omega
      · split at hlen
        · have := Option.some.inj hlen
          omega
        · obtain ⟨-, heq⟩ := Option.ite_none_right_eq_some.mp hlen
          have := Option.some.inj heq
          omega
    obtain ⟨n, rfl⟩ := Nat.exists_eq_add_of_le' hpos
    refine ⟨t, rest.take (n + 1), rfl, ?_⟩
    have hhead : (rest.take (n + 1)).head? = rest.head? := by
      cases rest with
      | nil => rfl
      | cons x rest => rfl
    rw [← hlen, List.take_succ_cons, addrLen, addrLen, hhead]

/-- The two readers accept the same addresses: `readAddr` on a reader and `SplitAddr` on its
    bytes. -/
theorem readAddr_iff_splitAddr (r : Reader) (b : Slice) (hb : maxAddrLen ≤ b.len) :
    ∃ ret, readAddr r b = .ret ret ∧ (∀ n ∈ ret.ends, n ≤ maxAddrLen) ∧
      (ret.err = none → ret.addr ≠ none) ∧
      (∀ data : Slice, data.bytes = r.data → ∃ o, splitAddr data = .ret o ∧
        ∀ a : List UInt8, (ret.err = none ∧ ret.addr.map Slice.bytes = some a) ↔
          o.map Slice.bytes = some a) ∧
      ∀ c, ret.err = none → ret.addr = some c →
        r.data = c.bytes ++ ret.r.data ∧ ∃ text, addrString c = .ret text := by
  obtain ⟨ret, hret, hagrees⟩ := readAddr_eq r b hb
  refine ⟨ret, hret, hagrees.ends, fun hnone => ?_, fun data hdata => ?_, fun c hnone hc => ?_⟩
  · obtain ⟨c, hc, -⟩ := hagrees.accepts hnone
    rw [hc]
    exact Option.some_ne_none c
  · obtain ⟨o, ho, hfront⟩ := splitAddr_eq data
    refine ⟨o, ho, fun a => ?_⟩
    rw [hfront, hdata]
    by_cases herr : ret.err = none
    · obtain ⟨c, hc, hsplit, -⟩ := hagrees.accepts herr
      rw [hc, hsplit, Option.map_some]
      exact and_iff_right herr
    · rw [hagrees.refuses herr]
      exact ⟨fun h => absurd h.1 herr, fun h => by cases h⟩
  · obtain ⟨c', hc', hsplit, hdata⟩ := hagrees.accepts hnone
    cases hc.symm.trans hc'
    obtain ⟨t, rest, hbytes, hlen⟩ := exists_cons_of_frontAddr hsplit
    rw [Slice.length_bytes, hbytes] at hlen
    exact ⟨hdata, exists_addrString hbytes hlen⟩

/-- The address of the domain "a" on port 80, in pieces of 1, 0, 3 and 2 bytes. -/
def domainReader : Reader := ⟨[[3], [], [1, 97, 0], [80, 7]], false⟩

theorem readAddr_iff_splitAddr_domain :
    let b := Slice.ofBytes (List.replicate maxAddrLen 0)
    maxAddrLen ≤ b.len ∧ ∃ ret, readAddr domainReader b = .ret ret ∧
      (∀ n ∈ ret.ends, n ≤ maxAddrLen) ∧ (ret.err = none → ret.addr ≠ none) ∧
      (∀ data : Slice, data.bytes = domainReader.data → ∃ o, splitAddr data = .ret o ∧
        ∀ a : List UInt8, (ret.err = none ∧ ret.addr.map Slice.bytes = some a) ↔
          o.map Slice.bytes = some a) ∧
      ∀ c, ret.err = none → ret.addr = some c →
        domainReader.data = c.bytes ++ ret.r.data ∧ ∃ text, addrString c = .ret text := by
  have hb : maxAddrLen ≤ (Slice.ofBytes (List.replicate maxAddrLen 0)).len := by
    exact Nat.le_of_eq List.length_replicate.symm
  exact ⟨hb, readAddr_iff_splitAddr domainReader _ hb⟩

end tun2proxy.socks
