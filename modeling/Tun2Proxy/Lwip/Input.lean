import Tun2Proxy.Go.Slice
import Tun2Proxy.Lib.BigEndian
import Tun2Proxy.Lwip.Pbuf

open tun2proxy.go

namespace tun2proxy.core

/-! ### The peek helpers -/

/-- `peekIPVer`. -/
def peekIPVer (p : Slice) : Outcome (Except String UInt8) := do
  if p.len < 1 then
    return .error "short IP packet"
  return .ok (((← p.index 0) &&& 0xf0) >>> 4)

/-- `moreFrags`. -/
def moreFrags (ipv : UInt8) (p : Slice) : Outcome Bool :=
  match ipv with
  | 4 => do
    if ((← p.index 6) &&& 0x20) > 0 then
      return true
    return false
  | 6 => return true
  | _ => return false

/-- `fragOffset`, with `binary.BigEndian.Uint16` of the slice. -/
def fragOffset (ipv : UInt8) (p : Slice) : Outcome UInt16 :=
  match ipv with
  | 4 => do
    let b ← p.slice 6 8
    let high ← b.index 0
    let low ← b.index 1
    return (high.toUInt16 <<< 8 ||| low.toUInt16) &&& 0x1fff
  | 6 => return 1
  | _ => return 0

/-- `peekNextProto`. -/
def peekNextProto (ipv : UInt8) (p : Slice) : Outcome (Except String UInt8) :=
  match ipv with
  | 4 => do
    if p.len < 9 then
      return .error "short IPv4 packet"
    return .ok (← p.index 9)
  | 6 => do
    if p.len < 6 then
      return .error "short IPv6 packet"
    return .ok (← p.index 6)
  | _ => return .error "unknown IP version"

/-! ### `input` -/

/-- What a call of `input` returns, and the pbuf that it has handed to lwIP, if any. -/
structure InputRet where
  n : Nat
  err : Option String
  handed : Option (List PbufSeg)

/-- `pbuf_alloc_reference(&pkt[0], length, PBUF_REF)`: one pbuf on the bytes of `pkt` itself. -/
def pbuf_alloc_reference (mem : List UInt8) (length : UInt16) : List PbufSeg :=
  [{ payload := mem.take length.toNat
     tot_len := length
     len_lt := Nat.lt_of_le_of_lt (List.length_take_le _ _) length.toNat_lt }]

/-- The pbuf for a packet, on the reference path or on the copy path. -/
def packetPbuf (junk : Nat → UInt8) (reference : Bool) (mem : List UInt8) (length : UInt16) :
    List PbufSeg :=
  if reference then pbuf_alloc_reference mem length
  else pbuf_take (pbuf_alloc junk 0 length.toNat) (mem.take length.toNat)

/-- `input`. `junk` is what stands in the memory that `pbuf_alloc` gets, and `ierr` what lwIP
    returns. -/
def input (junk : Nat → UInt8) (ierr : ErrT) (pkt : Slice) : Outcome InputRet := do
  if pkt.len = 0 then
    return ⟨0, none, none⟩
  match ← peekIPVer pkt with
  | .error e => return ⟨0, some e, none⟩
  | .ok ipv =>
    match ← peekNextProto ipv pkt with
    | .error e => return ⟨0, some e, none⟩
    | .ok nextProto =>
      -- `||` and `&&` look at their right side only if they have to
      let reference ←
        if nextProto = 17 then do
          if ← moreFrags ipv pkt then pure false
          else
            let offset ← fragOffset ipv pkt
            pure (decide ¬offset > 0)
        else pure false
      -- `&pkt[0]`
      let _ ← pkt.index 0
      let buf := packetPbuf junk reference pkt.mem (UInt16.ofNat pkt.len)
      if ierr ≠ .ERR_OK then
        return ⟨0, some "packet not handled", some buf⟩
      return ⟨pkt.len, none, some buf⟩

/-- Whatever lwIP answers and its memory holds: no index expression fails, and the call hands
    nothing to lwIP and returns an error (0 and nil for an empty packet), or hands it a
    pbuf with exactly the bytes of the packet. -/
def InputFaithful (pkt : Slice) : Prop :=
  ∀ junk ierr, ∃ r, input junk ierr pkt = .ret r ∧
    (r.handed = none ∧ (r.err ≠ none ∨ pkt.len = 0 ∧ r.n = 0 ∧ r.err = none) ∨
      ∃ buf, r.handed = some buf ∧ chainBytes buf = pkt.bytes)

/-- The version in the first byte. -/
def ipVersion (pkt : Slice) : UInt8 := (pkt.mem.getD 0 0 &&& 0xf0) >>> 4

/-- The length up to which `peekNextProto` returns an error; it is also the index that it
    looks at. -/
def peekBound (ipv : UInt8) : Option Nat :=
  match ipv with
  | 4 => some 9
  | 6 => some 6
  | _ => none

/-- The length is not the one at which `peekNextProto` looks past the end, and `u16_t` can
    hold it. -/
def LengthOk (pkt : Slice) : Prop :=
  ∀ bound ∈ peekBound (ipVersion pkt), pkt.len ≠ bound ∧ pkt.len < UInt16.size

theorem peekIPVer_eq {p : Slice} (hpos : p.len ≠ 0) : peekIPVer p = .ret (.ok (ipVersion p)) := by
  have hpos : 0 < p.len := Nat.pos_of_ne_zero hpos
  have hlong : ¬p.len < 1 := by omega
  simp only [peekIPVer, hlong, if_false, Slice.index_of_lt hpos, Outcome.ret_bind,
    Outcome.pure_eq, ipVersion]

private theorem peekNextProto_unknown {ipv : UInt8} (hbound : peekBound ipv = none) (p : Slice) :
    peekNextProto ipv p = .ret (.error "unknown IP version") := by
  unfold peekBound at hbound
  unfold peekNextProto
  split at hbound
  · cases hbound
  · cases hbound
  · rfl

/-- `len(p) < bound` is checked, and then `p[bound]` is read. -/
theorem peekNextProto_bound {ipv : UInt8} {bound : Nat} (hbound : peekBound ipv = some bound)
    (p : Slice) : ∃ msg, peekNextProto ipv p =
      if p.len < bound then .ret (.error msg) else p.index bound >>= fun b => .ret (.ok b) := by
  unfold peekBound at hbound
  unfold peekNextProto
  split at hbound
  · cases hbound
    exact ⟨"short IPv4 packet", by split_ifs <;> rfl⟩
  · cases hbound
    exact ⟨"short IPv6 packet", by split_ifs <;> rfl⟩
  · cases hbound

/-- Once the protocol was read, the flags and the offset can be read too. -/
theorem peekFrags_eq {ipv : UInt8} {bound : Nat} (hbound : peekBound ipv = some bound) {p : Slice}
    (hlong : bound < p.len) :
    (∃ more, moreFrags ipv p = .ret more) ∧ ∃ offset, fragOffset ipv p = .ret offset := by
  have hcap := p.len_le
  unfold peekBound at hbound
  unfold moreFrags fragOffset
  split at hbound
  · cases hbound
    rw [Slice.index_of_lt (by omega), Slice.slice_of_le (by omega) (by omega), Outcome.ret_bind,
      Outcome.ret_bind, Slice.index_of_lt Nat.zero_lt_two, Outcome.ret_bind,
      Slice.index_of_lt Nat.one_lt_two, Outcome.ret_bind]
    constructor
    · split
      · exact ⟨true, rfl⟩
      · exact ⟨false, rfl⟩
    · exact ⟨_, rfl⟩
  · exact ⟨⟨true, rfl⟩, ⟨1, rfl⟩⟩
  · cases hbound

private theorem pbuf_alloc_first (junk : Nat → UInt8) (start rem : Nat) :
    ∃ q next, pbuf_alloc junk start rem = q :: next ∧ q.tot_len = UInt16.ofNat rem := by
  rw [pbuf_alloc]
  split
  · exact ⟨_, _, rfl, rfl⟩
  · exact ⟨_, _, rfl, rfl⟩

/-- Either path gives a pbuf with the first `length` bytes. -/
theorem chainBytes_packetPbuf (junk : Nat → UInt8) (reference : Bool) {mem : List UInt8}
    {length : UInt16} (hlen : length.toNat ≤ mem.length) :
    chainBytes (packetPbuf junk reference mem length) = mem.take length.toNat := by
  unfold packetPbuf
  split
  · rw [pbuf_alloc_reference, chainBytes_cons, chainBytes_nil, List.append_nil]
  · obtain ⟨q, next, halloc, htot⟩ := pbuf_alloc_first junk 0 length.toNat
    have htake : (mem.take length.toNat).length = length.toNat := by
      rw [List.length_take]
      omega
    have hfits : (mem.take length.toNat).length ≤ q.tot_len.toNat := by
      rw [htake, htot, UInt16.ofNat_toNat]
    have hchain := length_pbuf_alloc junk 0 length.toNat
    rw [halloc] at hchain ⊢
    rw [pbuf_take]
    simp only [hfits, if_true]
    exact chainBytes_takeLoop _ (hchain.trans htake.symm)

/-- A packet that is longer than the bound is handed to lwIP, as long as `u16_t` says. -/
theorem input_handed {pkt : Slice} {bound : Nat} (hbound : peekBound (ipVersion pkt) = some bound)
    (hlong : bound < pkt.len) (junk : Nat → UInt8) (ierr : ErrT) :
    ∃ r buf, input junk ierr pkt = .ret r ∧ r.handed = some buf ∧
      chainBytes buf = pkt.mem.take (pkt.len % UInt16.size) := by
  have hcap := pkt.len_le
  have hpos : pkt.len ≠ 0 := by omega
  obtain ⟨msg, hproto⟩ := peekNextProto_bound hbound pkt
  rw [if_neg (by omega), Slice.index_of_lt hlong, Outcome.ret_bind] at hproto
  obtain ⟨⟨more, hmore⟩, offset, hoffset⟩ := peekFrags_eq hbound hlong
  have hbytes (reference : Bool) :
      chainBytes (packetPbuf junk reference pkt.mem (UInt16.ofNat pkt.len)) =
        pkt.mem.take (pkt.len % UInt16.size) := by
    have hmod : (UInt16.ofNat pkt.len).toNat = pkt.len % UInt16.size := UInt16.toNat_ofNat'
    have hle := Nat.mod_le pkt.len UInt16.size
    rw [chainBytes_packetPbuf junk reference (by omega), hmod]
  unfold input
  simp only [hpos, if_false, peekIPVer_eq hpos, hproto, hmore, hoffset, Outcome.ret_bind,
    Outcome.pure_eq, Slice.index_of_lt (i := 0) (Nat.pos_of_ne_zero hpos)]
  split_ifs <;> exact ⟨_, _, rfl, rfl, hbytes _⟩

/-- Everything else that `input` can do with a packet that is not empty. -/
theorem input_not_handed {pkt : Slice} (hpos : pkt.len ≠ 0) (junk : Nat → UInt8) (ierr : ErrT) :
    (peekBound (ipVersion pkt) = none → ∃ e, input junk ierr pkt = .ret ⟨0, some e, none⟩) ∧
    ∀ bound, peekBound (ipVersion pkt) = some bound →
      (pkt.len < bound → ∃ e, input junk ierr pkt = .ret ⟨0, some e, none⟩) ∧
      (pkt.len = bound → input junk ierr pkt = .panic) := by
  refine ⟨fun hnone => ?_, fun bound hbound => ?_⟩
  · refine ⟨"unknown IP version", ?_⟩
    simp only [input, hpos, if_false, peekIPVer_eq hpos, peekNextProto_unknown hnone,
      Outcome.ret_bind, Outcome.pure_eq]
  · obtain ⟨msg, hproto⟩ := peekNextProto_bound hbound pkt
    constructor
    · intro hshort
      rw [if_pos hshort] at hproto
      refine ⟨msg, ?_⟩
      simp only [input, hpos, if_false, peekIPVer_eq hpos, hproto, Outcome.ret_bind,
        Outcome.pure_eq]
    · intro heq
      rw [if_neg (by omega), Slice.index_of_ge (Nat.le_of_eq heq), Outcome.panic_bind] at hproto
      simp only [input, hpos, if_false, peekIPVer_eq hpos, hproto, Outcome.ret_bind,
        Outcome.panic_bind]

private theorem peekBound_lt {ipv : UInt8} {bound : Nat} (hbound : peekBound ipv = some bound) :
    0 < bound ∧ bound < UInt16.size := by
  unfold peekBound at hbound
  split at hbound
  · cases hbound
    decide
  · cases hbound
    decide
  · cases hbound

private theorem LengthOk.inputFaithful {pkt : Slice} (h : LengthOk pkt) : InputFaithful pkt := by
  intro junk ierr
  by_cases hempty : pkt.len = 0
  · refine ⟨⟨0, none, none⟩, ?_, .inl ⟨rfl, .inr ⟨hempty, rfl, rfl⟩⟩⟩
    simp only [input, hempty, if_true, Outcome.pure_eq]
  · obtain ⟨hunknown, hknown⟩ := input_not_handed hempty junk ierr
    cases hbound : peekBound (ipVersion pkt) with
    | none =>
      obtain ⟨e, hret⟩ := hunknown hbound
      exact ⟨_, hret, .inl ⟨rfl, .inl (by simp)⟩⟩
    | some bound =>
      obtain ⟨hne, hlt⟩ := h bound hbound
      by_cases hshort : pkt.len < bound
      · obtain ⟨e, hret⟩ := (hknown bound hbound).1 hshort
        exact ⟨_, hret, .inl ⟨rfl, .inl (by simp)⟩⟩
      · obtain ⟨r, buf, hret, hhanded, hbytes⟩ := input_handed hbound (by omega) junk ierr
        rw [Nat.mod_eq_of_lt hlt] at hbytes
        exact ⟨r, hret, .inr ⟨buf, hhanded, hbytes⟩⟩

private theorem InputFaithful.lengthOk {pkt : Slice} (h : InputFaithful pkt) : LengthOk pkt := by
  intro bound hbound
  have hbound : peekBound (ipVersion pkt) = some bound := hbound
  obtain ⟨hpos, hsmall⟩ := peekBound_lt hbound
  obtain ⟨r, hret, hr⟩ := h (fun _ => 0) .ERR_OK
  constructor
  · intro heq
    have hpanic := ((input_not_handed (by omega) (fun _ => 0) .ERR_OK).2 bound hbound).2 heq
    rw [hpanic] at hret
    cases hret
  · -- the pbuf has only what `u16_t` leaves of the length
    by_contra hlong
    obtain ⟨r', buf, hret', hhanded, hbytes⟩ :=
      input_handed hbound (by omega) (fun _ => 0) .ERR_OK
    cases hret.symm.trans hret'
    obtain ⟨hnone, -⟩ | ⟨buf', hhanded', hbytes'⟩ := hr
    · cases hnone.symm.trans hhanded
    · cases hhanded.symm.trans hhanded'
      have hlen := congrArg List.length (hbytes.symm.trans hbytes')
      have hmod := Nat.mod_lt pkt.len (Nat.lt_trans hpos hsmall)
      rw [List.length_take, Slice.length_bytes] at hlen
      omega

/-- `input` does what is asked of it for exactly the packets of these lengths. -/
theorem inputFaithful_iff (pkt : Slice) : InputFaithful pkt ↔ LengthOk pkt :=
  ⟨InputFaithful.lengthOk, LengthOk.inputFaithful⟩

/-- Nine bytes that begin like an IPv4 packet: the check lets them pass, and there is no
    tenth one. -/
theorem input_nine_panics :
    input (fun _ => 0) .ERR_OK (.ofBytes (0x45 :: List.replicate 8 0)) = .panic ∧
    ¬InputFaithful (.ofBytes (0x45 :: List.replicate 8 0)) := by
  have hpanic : input (fun _ => 0) .ERR_OK (.ofBytes (0x45 :: List.replicate 8 0)) = .panic := rfl
  refine ⟨hpanic, fun h => ?_⟩
  obtain ⟨r, hret, -⟩ := h (fun _ => 0) .ERR_OK
  rw [hpanic] at hret
  cases hret

end tun2proxy.core
