import Tun2Proxy.Lib.BigEndian
import Tun2Proxy.Lib.OnesComplement
import Tun2Proxy.Lwip.Pbuf
import Tun2Proxy.Lwip.Receive

open tun2proxy.bigendian tun2proxy.onescomplement

namespace tun2proxy.core

def FOLD_U32T (u : BitVec 32) : BitVec 32 := (u >>> 16) + (u &&& 0xffff)

def SWAP_BYTES_IN_WORD (w : BitVec 32) : BitVec 32 := ((w &&& 0xff) <<< 8) ||| ((w &&& 0xff00) >>> 8)

/-- `lwip_htons` on a little-endian machine. -/
def lwip_htons (n : BitVec 16) : BitVec 16 := ((n &&& 0xff) <<< 8) ||| ((n &&& 0xff00) >>> 8)

/-- A `u16_t` read from memory. -/
def wordAt (low high : UInt8) : BitVec 32 := BitVec.ofNat 32 (low.toNat + 256 * high.toNat)

/-- The loop of `lwip_standard_chksum` over whole words, with the bytes that it leaves. -/
def addWords (sum : BitVec 32) : List UInt8 → BitVec 32 × List UInt8
  | low :: high :: ps => addWords (sum + wordAt low high) ps
  | ps => (sum, ps)

/-- The second byte of `t` and the data from the next even address. -/
def alignData (odd : Bool) (dataptr : List UInt8) : UInt8 × List UInt8 :=
  if odd then (dataptr.headD 0, dataptr.tail) else (0, dataptr)

/-- `lwip_standard_chksum` of `LWIP_CHKSUM_ALGORITHM` 2. `odd` is the address of the data
    modulo 2. -/
def lwip_standard_chksum (odd : Bool) (dataptr : List UInt8) : BitVec 16 :=
  let (t1, pb) := alignData odd dataptr
  let (sum, ps) := addWords 0 pb
  let t0 := ps.headD 0
  let sum := sum + wordAt t0 t1
  let sum := FOLD_U32T (FOLD_U32T sum)
  let sum := if odd then SWAP_BYTES_IN_WORD sum else sum
  sum.setWidth 16

def inet_chksum (odd : Bool) (dataptr : List UInt8) : BitVec 16 :=
  ~~~ lwip_standard_chksum odd dataptr

/-- A pbuf and the address of its payload modulo 2. -/
structure PbufAt extends PbufSeg where
  odd : Bool

private theorem length_take_lt (data : List UInt8) : (data.take 65535).length < UInt16.size :=
  Nat.lt_of_le_of_lt (List.length_take_le _ _) (Nat.lt_succ_self 65535)

/-- A pbuf for data whose length 16 bits hold. -/
def PbufAt.of (odd : Bool) (data : List UInt8) : PbufAt :=
  { payload := data.take 65535
    tot_len := UInt16.ofNat data.length
    len_lt := length_take_lt data
    odd }

theorem PbufAt.payload_of (odd : Bool) {data : List UInt8} (h : data.length < 2 ^ 16) :
    (PbufAt.of odd data).payload = data := List.take_of_length_le (by omega)

/-- The bytes of a chain. -/
def flatBytes (p : List PbufAt) : List UInt8 := p.flatMap fun q => q.payload

@[simp] theorem flatBytes_nil : flatBytes [] = [] := rfl

@[simp] theorem flatBytes_cons (q : PbufAt) (next : List PbufAt) :
    flatBytes (q :: next) = q.payload ++ flatBytes next := rfl

/-- The loop over a chain in `inet_cksum_pseudo_base`. -/
def chksumLoop (acc : BitVec 32) (swapped : Bool) : List PbufAt → BitVec 32 × Bool
  | [] => (acc, swapped)
  | q :: next =>
    let acc := FOLD_U32T (acc + (lwip_standard_chksum q.odd q.payload).setWidth 32)
    if q.len % 2 ≠ 0 then chksumLoop (SWAP_BYTES_IN_WORD acc) (!swapped) next
    else chksumLoop acc swapped next

/-- The end of `inet_cksum_pseudo_base` and `inet_cksum_pseudo_partial_base`. -/
def pseudoEnd (acc : BitVec 32) (swapped : Bool) (proto : BitVec 8) (proto_len : BitVec 16) :
    BitVec 16 :=
  let acc := if swapped then SWAP_BYTES_IN_WORD acc else acc
  let acc := acc + (lwip_htons (proto.setWidth 16)).setWidth 32
  let acc := acc + (lwip_htons proto_len).setWidth 32
  let acc := FOLD_U32T (FOLD_U32T acc)
  ~~~ acc.setWidth 16

def inet_cksum_pseudo_base (p : List PbufAt) (proto : BitVec 8) (proto_len : BitVec 16)
    (acc : BitVec 32) : BitVec 16 :=
  let (acc, swapped) := chksumLoop acc false p
  pseudoEnd acc swapped proto proto_len

/-- The loop of `inet_cksum_pseudo_partial_base`. -/
def partialLoop (acc : BitVec 32) (swapped : Bool) (chksum_len : BitVec 16) :
    List PbufAt → Option (BitVec 32 × Bool)
  | [] => some (acc, swapped)
  | q :: next =>
    if chksum_len = 0 then some (acc, swapped)
    else do
      let chklen := min q.payload.length chksum_len.toNat
      let acc := acc + (lwip_standard_chksum q.odd (q.payload.take chklen)).setWidth 32
      let chksum_len := chksum_len - BitVec.ofNat 16 chklen
      LWIP_ASSERT (chksum_len < 0x7fff)
      let acc := FOLD_U32T acc
      if q.len % 2 ≠ 0 then partialLoop (SWAP_BYTES_IN_WORD acc) (!swapped) chksum_len next
      else partialLoop acc swapped chksum_len next

def inet_cksum_pseudo_partial_base (p : List PbufAt) (proto : BitVec 8) (proto_len : BitVec 16)
    (chksum_len : BitVec 16) (acc : BitVec 32) : Option (BitVec 16) := do
  let (acc, swapped) ← partialLoop acc false chksum_len p
  return pseudoEnd acc swapped proto proto_len

/-- The two words of a part of an address, in network byte order, are added. -/
def addAddr (acc addr : BitVec 32) : BitVec 32 :=
  let acc := acc + (addr &&& (0xffff : BitVec 32))
  acc + ((addr >>> 16) &&& (0xffff : BitVec 32))

/-- `ip_addr_t`: four words of an IPv6 address, or the first one for IPv4. -/
structure IpAddrT where
  addr : Fin 4 → BitVec 32
  v6 : Bool

/-- The part of the sum that the addresses make, as `inet_chksum_pseudo` and `ip6_chksum_pseudo`
    and their partial versions compute it. -/
def inetAddrSum (src dest : BitVec 32) : BitVec 32 :=
  FOLD_U32T (FOLD_U32T (addAddr (addAddr 0 src) dest))

def ip6AddrSum (src dest : Fin 4 → BitVec 32) : BitVec 32 :=
  let acc := addAddr (addAddr 0 (src 0)) (dest 0)
  let acc := addAddr (addAddr acc (src 1)) (dest 1)
  let acc := addAddr (addAddr acc (src 2)) (dest 2)
  let acc := addAddr (addAddr acc (src 3)) (dest 3)
  FOLD_U32T (FOLD_U32T acc)

def inet_chksum_pseudo (p : List PbufAt) (proto : BitVec 8) (proto_len : BitVec 16)
    (src dest : BitVec 32) : BitVec 16 :=
  inet_cksum_pseudo_base p proto proto_len (inetAddrSum src dest)

def ip6_chksum_pseudo (p : List PbufAt) (proto : BitVec 8) (proto_len : BitVec 16)
    (src dest : Fin 4 → BitVec 32) : BitVec 16 :=
  inet_cksum_pseudo_base p proto proto_len (ip6AddrSum src dest)

def ip_chksum_pseudo (p : List PbufAt) (proto : BitVec 8) (proto_len : BitVec 16)
    (src dest : IpAddrT) : BitVec 16 :=
  if dest.v6 then ip6_chksum_pseudo p proto proto_len src.addr dest.addr
  else inet_chksum_pseudo p proto proto_len (src.addr 0) (dest.addr 0)

def inet_chksum_pseudo_partial (p : List PbufAt) (proto : BitVec 8) (proto_len : BitVec 16)
    (chksum_len : BitVec 16) (src dest : BitVec 32) : Option (BitVec 16) :=
  inet_cksum_pseudo_partial_base p proto proto_len chksum_len (inetAddrSum src dest)

def ip6_chksum_pseudo_partial (p : List PbufAt) (proto : BitVec 8) (proto_len : BitVec 16)
    (chksum_len : BitVec 16) (src dest : Fin 4 → BitVec 32) : Option (BitVec 16) :=
  inet_cksum_pseudo_partial_base p proto proto_len chksum_len (ip6AddrSum src dest)

def ip_chksum_pseudo_partial (p : List PbufAt) (proto : BitVec 8) (proto_len : BitVec 16)
    (chksum_len : BitVec 16) (src dest : IpAddrT) : Option (BitVec 16) :=
  if dest.v6 then ip6_chksum_pseudo_partial p proto proto_len chksum_len src.addr dest.addr
  else inet_chksum_pseudo_partial p proto proto_len chksum_len (src.addr 0) (dest.addr 0)

/-! ### The operations on words as sums -/

private theorem toNat_and_mask {w : Nat} (u : BitVec w) {k : Nat} (hk : k ≤ w) :
    (u &&& BitVec.ofNat w (2 ^ k - 1)).toNat = u.toNat % 2 ^ k := by
  have hpow : 2 ^ k ≤ 2 ^ w := Nat.pow_le_pow_right (by omega) hk
  have hpos : 0 < 2 ^ k := Nat.two_pow_pos k
  rw [BitVec.toNat_and, BitVec.toNat_ofNat, Nat.mod_eq_of_lt (by omega),
    Nat.and_two_pow_sub_one_eq_mod]

@[simp] theorem toNat_FOLD_U32T (u : BitVec 32) : (FOLD_U32T u).toNat = fold u.toNat := by
  have hlt := u.isLt
  have hlow : (u &&& 0xffff).toNat = u.toNat % 2 ^ 16 :=
    toNat_and_mask u (show 16 ≤ 32 by omega)
  rw [FOLD_U32T, BitVec.toNat_add, BitVec.toNat_ushiftRight, hlow, Nat.shiftRight_eq_div_pow, fold]
  omega

/-- The lower two bytes change places. -/
theorem toNat_swapBytes {w : Nat} (hw : 16 ≤ w) (n : BitVec w) :
    (((n &&& BitVec.ofNat w 0xff) <<< 8) ||| ((n &&& BitVec.ofNat w 0xff00) >>> 8)).toNat =
      swap (n.toNat % 65536) := by
  have hpow : 2 ^ 16 ≤ 2 ^ w := Nat.pow_le_pow_right (by omega) hw
  have hmask : BitVec.ofNat w 0xff00 >>> 8 = BitVec.ofNat w 0xff := by
    apply BitVec.eq_of_toNat_eq
    rw [BitVec.toNat_ushiftRight, BitVec.toNat_ofNat, BitVec.toNat_ofNat,
      Nat.mod_eq_of_lt (by omega), Nat.mod_eq_of_lt (by omega)]
    rfl
  have hlow : (n &&& BitVec.ofNat w 0xff).toNat = n.toNat % 2 ^ 8 :=
    toNat_and_mask n (show 8 ≤ w by omega)
  have hhigh : (n >>> 8 &&& BitVec.ofNat w 0xff).toNat = (n >>> 8).toNat % 2 ^ 8 :=
    toNat_and_mask (n >>> 8) (show 8 ≤ w by omega)
  rw [BitVec.ushiftRight_and_distrib, hmask, BitVec.toNat_or, BitVec.toNat_shiftLeft, hlow, hhigh,
    BitVec.toNat_ushiftRight, Nat.shiftRight_eq_div_pow, Nat.shiftLeft_eq,
    Nat.mod_eq_of_lt (by omega), ← Nat.shiftLeft_eq, shiftLeft_or_eq_add 8 (by omega), swap]
  omega

@[simp] theorem toNat_SWAP_BYTES_IN_WORD (w : BitVec 32) :
    (SWAP_BYTES_IN_WORD w).toNat = swap (w.toNat % 65536) := toNat_swapBytes (by omega) w

@[simp] theorem toNat_lwip_htons (n : BitVec 16) : (lwip_htons n).toNat = swap n.toNat := by
  have hlt := n.isLt
  have hswap : (lwip_htons n).toNat = swap (n.toNat % 65536) := toNat_swapBytes (by omega) n
  rw [hswap, Nat.mod_eq_of_lt (by omega)]

theorem toNat_wordAt (low high : UInt8) : (wordAt low high).toNat = low.toNat + 256 * high.toNat := by
  have hlow := low.toNat_lt
  have hhigh := high.toNat_lt
  rw [wordAt, BitVec.toNat_ofNat, Nat.mod_eq_of_lt (by omega)]

/-- The loop adds up the words, and leaves at most one byte. -/
theorem addWords_spec : ∀ {ps : List UInt8} {sum : BitVec 32}, sum.toNat + weigh false ps < 2 ^ 32 →
    (addWords sum ps).1.toNat + weigh false [(addWords sum ps).2.headD 0] = sum.toNat + weigh false ps
  | [], _, _ => rfl
  | [_], _, _ => rfl
  | low :: high :: ps, sum, h => by
    rw [weigh_even_cons low, weigh_odd_cons] at h ⊢
    have hadd : (sum + wordAt low high).toNat = sum.toNat + (low.toNat + 256 * high.toNat) := by
      rw [BitVec.toNat_add, toNat_wordAt, Nat.mod_eq_of_lt (by omega)]
    rw [addWords, addWords_spec (by omega), hadd]
    omega

theorem setWidth_toNat (sum : BitVec 32) (h : sum.toNat ≤ 65535) :
    (sum.setWidth 16).toNat = sum.toNat := by
  rw [BitVec.toNat_setWidth, Nat.mod_eq_of_lt (by omega)]

/-- Two folds of a 32-bit sum. -/
theorem toNat_fold_fold (sum : BitVec 32) : (FOLD_U32T (FOLD_U32T sum)).toNat = norm sum.toNat := by
  rw [toNat_FOLD_U32T, toNat_FOLD_U32T, fold_fold sum.isLt]

private theorem toNat_turn {sum : BitVec 32} (h : sum.toNat ≤ 65535) (odd : Bool) :
    (if odd then SWAP_BYTES_IN_WORD sum else sum).toNat = turn odd sum.toNat := by
  obtain _ | _ := odd
  · rfl
  · rw [if_pos rfl, toNat_SWAP_BYTES_IN_WORD, Nat.mod_eq_of_lt (by omega)]
    rfl

private theorem alignData_spec (odd : Bool) (data : List UInt8) :
    weigh odd data = 256 * (alignData odd data).1.toNat + weigh false (alignData odd data).2 := by
  obtain _ | _ := odd
  · exact (Nat.zero_add _).symm
  · obtain _ | ⟨b, pb⟩ := data
    · rfl
    · rfl

/-- The sum of the bytes, wherever they lie in memory. -/
theorem lwip_standard_chksum_spec (odd : Bool) {data : List UInt8} (h : data.length < 2 ^ 16) :
    (lwip_standard_chksum odd data).toNat = norm (weigh false data) := by
  have hle := weigh_le odd data
  have halign := alignData_spec odd data
  rw [lwip_standard_chksum]
  generalize alignData odd data = aligned at halign ⊢
  obtain ⟨t1, pb⟩ := aligned
  dsimp only at halign ⊢
  have hzero : (0 : BitVec 32).toNat = 0 := rfl
  have hwords : (addWords 0 pb).1.toNat + weigh false [(addWords 0 pb).2.headD 0] =
      (0 : BitVec 32).toNat + weigh false pb := addWords_spec (by omega)
  rw [weigh_even_cons, weigh_nil] at hwords
  have hsum : ((addWords 0 pb).1 + wordAt ((addWords 0 pb).2.headD 0) t1).toNat =
      weigh odd data := by
    rw [BitVec.toNat_add, toNat_wordAt, Nat.mod_eq_of_lt (by omega)]
    omega
  have hbound := norm_le ((addWords 0 pb).1 + wordAt ((addWords 0 pb).2.headD 0) t1).toNat
  rw [← toNat_fold_fold] at hbound
  have hturn := turn_le hbound odd
  rw [← toNat_turn hbound] at hturn
  rw [setWidth_toNat _ hturn, toNat_turn hbound, toNat_fold_fold, hsum, turn_norm_weigh,
    Bool.xor_self]

private theorem setWidth_lwip_standard_chksum (odd swapped : Bool) {data : List UInt8}
    (h : data.length < 2 ^ 16) : ((lwip_standard_chksum odd data).setWidth 32).toNat =
      turn swapped (norm (weigh swapped data)) := by
  have hlt := (lwip_standard_chksum odd data).isLt
  rw [BitVec.toNat_setWidth, Nat.mod_eq_of_lt (by omega), lwip_standard_chksum_spec odd h,
    norm_weigh_false swapped]

private theorem oddLength_payload (q : PbufSeg) : oddLength q.payload = true ↔ q.len % 2 ≠ 0 := by
  have htwo : (q.len % 2).toNat = q.payload.length % 2 := by
    rw [UInt16.toNat_mod, PbufSeg.toNat_len]
    rfl
  rw [oddLength, bne_iff_ne, ne_eq, ← htwo, ne_eq, ← UInt16.toNat_inj]
  rfl

/-- One buffer more, in the loops over a chain: `sum` is what the bytes so far add up to. -/
theorem chksumStep {acc : BitVec 32} {swapped : Bool} {sum : Nat}
    (hacc : acc.toNat = turn swapped (norm sum)) (odd : Bool) {data : List UInt8}
    (hlen : data.length < 2 ^ 16) :
    (FOLD_U32T (acc + (lwip_standard_chksum odd data).setWidth 32)).toNat =
      turn swapped (norm (sum + weigh swapped data)) := by
  have hle := turn_le (norm_le sum) swapped
  have hle' := turn_le (norm_le (weigh swapped data)) swapped
  have hadd : (acc + (lwip_standard_chksum odd data).setWidth 32).toNat =
      turn swapped (norm sum) + turn swapped (norm (weigh swapped data)) := by
    rw [BitVec.toNat_add, hacc, setWidth_lwip_standard_chksum odd swapped hlen,
      Nat.mod_eq_of_lt (by omega)]
  rw [toNat_FOLD_U32T, hadd, fold_eq_norm (by omega), norm_turn_add_turn]

private theorem swap_acc {acc : BitVec 32} {swapped : Bool} {sum : Nat}
    (hacc : acc.toNat = turn swapped (norm sum)) :
    (SWAP_BYTES_IN_WORD acc).toNat = turn (!swapped) (norm sum) := by
  have hle := turn_le (norm_le sum) swapped
  rw [toNat_SWAP_BYTES_IN_WORD, Nat.mod_eq_of_lt (by omega), hacc, swap_turn (norm_le sum)]

private theorem chksumLoop_spec (p : List PbufAt) : ∀ {acc : BitVec 32} {swapped : Bool} {sum : Nat},
    acc.toNat = turn swapped (norm sum) →
    (chksumLoop acc swapped p).1.toNat =
      turn (chksumLoop acc swapped p).2 (norm (sum + weigh swapped (flatBytes p))) := by
  induction p with
  | nil =>
    intro acc swapped sum hacc
    exact hacc
  | cons q next ih =>
    intro acc swapped sum hacc
    have hstep := chksumStep hacc q.odd q.len_lt
    rw [chksumLoop, flatBytes_cons, weigh_append, ← Nat.add_assoc]
    by_cases hodd : q.len % 2 ≠ 0
    · rw [if_pos hodd, (oddLength_payload q.toPbufSeg).mpr hodd, Bool.xor_true]
      exact ih (swap_acc hstep)
    · have heven : oddLength q.payload = false :=
        Bool.eq_false_iff.mpr fun h => hodd ((oddLength_payload q.toPbufSeg).mp h)
      rw [if_neg hodd, heven, Bool.xor_false]
      exact ih hstep

theorem toNat_not_setWidth {acc : BitVec 32} (h : acc.toNat ≤ 65535) :
    (~~~ acc.setWidth 16).toNat = 65535 - acc.toNat := by
  rw [BitVec.toNat_not, setWidth_toNat _ h]

/-- The end of a checksum takes the words of the pseudo header in. -/
theorem pseudoEnd_spec {acc : BitVec 32} {swapped : Bool} {sum : Nat}
    (hacc : acc.toNat = turn swapped (norm sum)) (proto : BitVec 8) (proto_len : BitVec 16) :
    (pseudoEnd acc swapped proto proto_len).toNat =
      65535 - norm (sum + swap proto.toNat + swap proto_len.toNat) := by
  have hbound := turn_le (norm_le sum) swapped
  have hsum := norm_le sum
  have hproto := proto.isLt
  have hlen := proto_len.isLt
  have hswapProto : swap proto.toNat ≤ 65535 := swap_le (by omega)
  have hswapLen : swap proto_len.toNat ≤ 65535 := swap_le (by omega)
  have hturned : (if swapped then SWAP_BYTES_IN_WORD acc else acc).toNat = norm sum := by
    rw [toNat_turn (hacc ▸ hbound), hacc, turn_turn hsum]
  have hword {n : BitVec 16} : ((lwip_htons n).setWidth 32).toNat = swap n.toNat := by
    have hlt := (lwip_htons n).isLt
    rw [BitVec.toNat_setWidth, Nat.mod_eq_of_lt (by omega), toNat_lwip_htons]
  have hproto' : (proto.setWidth 16).toNat = proto.toNat := by
    rw [BitVec.toNat_setWidth, Nat.mod_eq_of_lt (by omega)]
  rw [pseudoEnd, toNat_not_setWidth, toNat_fold_fold, BitVec.toNat_add, BitVec.toNat_add, hturned, hword, hword,
    hproto', Nat.mod_eq_of_lt (by omega), Nat.mod_eq_of_lt (by omega), Nat.add_assoc, norm_norm_add,
    Nat.add_assoc]
  rw [toNat_fold_fold]
  exact norm_le _

/-! ### The pseudo headers -/

/-- An address word as it lies in memory. -/
def addrBytes (addr : BitVec 32) : List UInt8 :=
  [UInt8.ofNat addr.toNat, UInt8.ofNat (addr.toNat / 2 ^ 8), UInt8.ofNat (addr.toNat / 2 ^ 16),
    UInt8.ofNat (addr.toNat / 2 ^ 24)]

/-- A 16-bit number in network byte order. -/
def networkBytes (n : Nat) : List UInt8 := [UInt8.ofNat (n / 256), UInt8.ofNat n]

def addrsBytes (src dest : IpAddrT) : List UInt8 :=
  if dest.v6 then
    addrBytes (src.addr 0) ++ addrBytes (src.addr 1) ++ addrBytes (src.addr 2) ++
      addrBytes (src.addr 3) ++ addrBytes (dest.addr 0) ++ addrBytes (dest.addr 1) ++
      addrBytes (dest.addr 2) ++ addrBytes (dest.addr 3)
  else addrBytes (src.addr 0) ++ addrBytes (dest.addr 0)

/-- The pseudo header of RFC 2460 for IPv6, and that of RFC 793. -/
def pseudoHeader (src dest : IpAddrT) (proto : BitVec 8) (proto_len : BitVec 16) : List UInt8 :=
  if dest.v6 then
    addrsBytes src dest ++ [0, 0] ++ networkBytes proto_len.toNat ++ [0, 0] ++
      networkBytes proto.toNat
  else addrsBytes src dest ++ networkBytes proto.toNat ++ networkBytes proto_len.toNat

private theorem weigh_addrBytes (addr : BitVec 32) :
    weigh false (addrBytes addr) = addr.toNat % 65536 + addr.toNat / 65536 := by
  have hlt := addr.isLt
  rw [addrBytes, weigh_even_cons, weigh_odd_cons, weigh_even_cons, weigh_odd_cons, weigh_nil,
    UInt8.toNat_ofNat', UInt8.toNat_ofNat', UInt8.toNat_ofNat', UInt8.toNat_ofNat']
  omega

private theorem weigh_addrBytes_append (addr : BitVec 32) (more : List UInt8) :
    weigh false (addrBytes addr ++ more) = weigh false (addrBytes addr) + weigh false more := by
  have hodd : oddLength (addrBytes addr) = false := by simp [addrBytes, oddLength_cons]
  rw [weigh_append, hodd, Bool.xor_false]

private theorem weigh_networkBytes {n : Nat} (h : n < 2 ^ 16) (more : List UInt8) :
    weigh false (networkBytes n ++ more) = swap n + weigh false more := by
  have hodd : oddLength (networkBytes n) = false := by simp [networkBytes, oddLength_cons]
  rw [weigh_append, hodd, Bool.xor_false, networkBytes, weigh_even_cons, weigh_odd_cons, weigh_nil,
    UInt8.toNat_ofNat', UInt8.toNat_ofNat', swap]
  omega

private theorem toNat_addAddr {acc addr : BitVec 32} (h : acc.toNat < 2 ^ 31) :
    (addAddr acc addr).toNat = acc.toNat + weigh false (addrBytes addr) := by
  have hlt := addr.isLt
  have hlow : (addr &&& 0xffff).toNat = addr.toNat % 2 ^ 16 :=
    toNat_and_mask addr (show 16 ≤ 32 by omega)
  have hhigh : ((addr >>> 16) &&& 0xffff).toNat = (addr >>> 16).toNat % 2 ^ 16 :=
    toNat_and_mask (addr >>> 16) (show 16 ≤ 32 by omega)
  rw [BitVec.toNat_ushiftRight, Nat.shiftRight_eq_div_pow, Nat.mod_eq_of_lt (by omega)] at hhigh
  rw [weigh_addrBytes, addAddr, BitVec.toNat_add, BitVec.toNat_add, hlow, hhigh,
    Nat.mod_eq_of_lt (by omega), Nat.mod_eq_of_lt (by omega)]
  omega

private theorem foldl_addAddr (addrs : List (BitVec 32)) : ∀ {acc : BitVec 32},
    acc.toNat + 131070 * addrs.length < 2 ^ 31 →
    (addrs.foldl addAddr acc).toNat = acc.toNat + weigh false (addrs.flatMap addrBytes) := by
  induction addrs with
  | nil =>
    intro acc _
    exact (Nat.add_zero _).symm
  | cons addr rest ih =>
    intro acc hacc
    have hlt := addr.isLt
    have hpart := weigh_addrBytes addr
    have hadd : (addAddr acc addr).toNat = acc.toNat + weigh false (addrBytes addr) :=
      toNat_addAddr (by omega)
    rw [List.length_cons] at hacc
    rw [List.foldl_cons, List.flatMap_cons, ih (by omega), hadd, weigh_addrBytes_append, Nat.add_assoc]

/-- The sum that the addresses make. -/
def addrSum (src dest : IpAddrT) : BitVec 32 :=
  if dest.v6 then ip6AddrSum src.addr dest.addr else inetAddrSum (src.addr 0) (dest.addr 0)

theorem addrSum_spec (src dest : IpAddrT) :
    (addrSum src dest).toNat = norm (weigh false (addrsBytes src dest)) := by
  have hzero : (0 : BitVec 32).toNat = 0 := rfl
  rw [addrSum, addrsBytes]
  by_cases hv6 : dest.v6 = true
  · have hsum := foldl_addAddr [src.addr 0, dest.addr 0, src.addr 1, dest.addr 1, src.addr 2,
      dest.addr 2, src.addr 3, dest.addr 3] (show (0 : BitVec 32).toNat + _ < _ by simp)
    simp only [List.flatMap_cons, List.flatMap_nil, weigh_addrBytes_append, List.append_nil] at hsum
    rw [if_pos hv6, if_pos hv6, ip6AddrSum, toNat_fold_fold]
    simp only [List.append_assoc, weigh_addrBytes_append]
    apply congrArg norm
    refine hsum.trans ?_
    omega
  · have hsum := foldl_addAddr [src.addr 0, dest.addr 0]
      (show (0 : BitVec 32).toNat + _ < _ by simp)
    simp only [List.flatMap_cons, List.flatMap_nil, weigh_addrBytes_append, List.append_nil] at hsum
    rw [if_neg hv6, if_neg hv6, inetAddrSum, toNat_fold_fold, weigh_addrBytes_append]
    apply congrArg norm
    refine hsum.trans ?_
    omega

theorem weigh_pseudoHeader (src dest : IpAddrT) (proto : BitVec 8) (proto_len : BitVec 16)
    (more : List UInt8) :
    weigh false (pseudoHeader src dest proto proto_len ++ more) =
      weigh false (addrsBytes src dest) + swap proto.toNat + swap proto_len.toNat +
        weigh false more := by
  have hproto := proto.isLt
  have hpad (more : List UInt8) : weigh false ([0, 0] ++ more) = weigh false more := by
    rw [List.cons_append, List.singleton_append, weigh_even_cons, weigh_odd_cons]
    exact (Nat.zero_add _).trans (Nat.zero_add _)
  have haddrs (more : List UInt8) : weigh false (addrsBytes src dest ++ more) =
      weigh false (addrsBytes src dest) + weigh false more := by
    rw [addrsBytes]
    by_cases hv6 : dest.v6 = true
    · rw [if_pos hv6]
      simp only [List.append_assoc, weigh_addrBytes_append, Nat.add_assoc]
    · rw [if_neg hv6]
      simp only [List.append_assoc, weigh_addrBytes_append, Nat.add_assoc]
  rw [pseudoHeader]
  by_cases hv6 : dest.v6 = true
  · rw [if_pos hv6]
    simp only [List.append_assoc]
    rw [haddrs, hpad, weigh_networkBytes proto_len.isLt, hpad, weigh_networkBytes (by omega)]
    omega
  · rw [if_neg hv6]
    simp only [List.append_assoc]
    rw [haddrs, weigh_networkBytes (by omega), weigh_networkBytes proto_len.isLt]
    omega

/-! ### The checksums -/

theorem inet_chksum_spec (odd : Bool) {data : List UInt8} (h : data.length < 2 ^ 16) :
    (inet_chksum odd data).toNat = 65535 - norm (weigh false data) := by
  rw [inet_chksum, BitVec.toNat_not, lwip_standard_chksum_spec odd h]

private theorem ip_chksum_pseudo_eq (p : List PbufAt) (proto : BitVec 8) (proto_len : BitVec 16)
    (src dest : IpAddrT) : ip_chksum_pseudo p proto proto_len src dest =
      inet_cksum_pseudo_base p proto proto_len (addrSum src dest) := by
  rw [ip_chksum_pseudo, addrSum]
  by_cases hv6 : dest.v6 = true
  · rw [if_pos hv6, if_pos hv6]
    rfl
  · rw [if_neg hv6, if_neg hv6]
    rfl

/-- The checksum with a pseudo header is that of the flat bytes behind the header. -/
theorem ip_chksum_pseudo_spec (p : List PbufAt) (proto : BitVec 8) (proto_len : BitVec 16)
    (src dest : IpAddrT) : (ip_chksum_pseudo p proto proto_len src dest).toNat =
      65535 - norm (weigh false (pseudoHeader src dest proto proto_len ++ flatBytes p)) := by
  have haddrs : (addrSum src dest).toNat =
      turn false (norm (weigh false (addrsBytes src dest))) := addrSum_spec src dest
  rw [ip_chksum_pseudo_eq, inet_cksum_pseudo_base, pseudoEnd_spec (chksumLoop_spec p haddrs),
    weigh_pseudoHeader]
  congr 2
  omega

/-- A chain has the checksum of its bytes in one buffer, however they are split and wherever
    the parts lie. -/
theorem ip_chksum_pseudo_flat (p : List PbufAt) (proto : BitVec 8) (proto_len : BitVec 16)
    (src dest : IpAddrT) (odd : Bool)
    (h : (pseudoHeader src dest proto proto_len ++ flatBytes p).length < 2 ^ 16) :
    ip_chksum_pseudo p proto proto_len src dest =
      inet_chksum odd (pseudoHeader src dest proto proto_len ++ flatBytes p) := by
  apply BitVec.eq_of_toNat_eq
  rw [ip_chksum_pseudo_spec, inet_chksum_spec odd h]

/-- Twelve bytes in three buffers, two of them of odd length, one at an odd address. -/
def splitChain (low high : UInt8) : List PbufAt :=
  [.of false [0x45, 0, 0], .of true [7, low, high, 1, 2, 3], .of false [4, 5, 6]]

/-- 10.0.0.1 and 10.0.0.2. -/
def hostA : IpAddrT := ⟨fun _ => 0x0100000a, false⟩

def hostB : IpAddrT := ⟨fun _ => 0x0200000a, false⟩

theorem ip_chksum_pseudo_flat_split : ip_chksum_pseudo (splitChain 0 0) 6 12 hostA hostB =
    inet_chksum true
      (pseudoHeader hostA hostB 6 12 ++ [0x45, 0, 0, 7, 0, 0, 1, 2, 3, 4, 5, 6]) :=
  ip_chksum_pseudo_flat (splitChain 0 0) 6 12 hostA hostB true (by decide)

/-- A `u16_t` as it lies in memory. -/
def storedBytes (n : BitVec 16) : List UInt8 := [UInt8.ofNat n.toNat, UInt8.ofNat (n.toNat / 256)]

private theorem weigh_storedBytes (n : BitVec 16) (more : List UInt8) :
    weigh false (storedBytes n ++ more) = n.toNat + weigh false more := by
  have hlt := n.isLt
  rw [storedBytes, List.cons_append, List.singleton_append, weigh_even_cons, weigh_odd_cons,
    UInt8.toNat_ofNat', UInt8.toNat_ofNat']
  omega

/-- A field at an even place adds what it holds to the sum. -/
theorem weigh_field {before after : List UInt8} (heven : oddLength before = false) (n : BitVec 16) :
    weigh false (before ++ storedBytes n ++ after) =
      weigh false (before ++ storedBytes 0 ++ after) + n.toNat := by
  have hzero : (0 : BitVec 16).toNat = 0 := rfl
  rw [List.append_assoc, List.append_assoc, weigh_append false before, weigh_append false before, heven,
    Bool.xor_false, weigh_storedBytes, weigh_storedBytes, hzero]
  omega

/-- The field that makes the sum full. -/
theorem norm_weigh_field {before after : List UInt8} (heven : oddLength before = false) {n : BitVec 16}
    (h : n.toNat = 65535 - norm (weigh false (before ++ storedBytes 0 ++ after))) :
    norm (weigh false (before ++ storedBytes n ++ after)) = 65535 := by
  rw [weigh_field heven, h, norm_add_complement]

theorem oddLength_pseudoHeader (src dest : IpAddrT) (proto : BitVec 8) (proto_len : BitVec 16) :
    oddLength (pseudoHeader src dest proto proto_len) = false := by
  rw [pseudoHeader, addrsBytes]
  by_cases hv6 : dest.v6 = true
  · rw [if_pos hv6, if_pos hv6]
    simp [oddLength, addrBytes, networkBytes]
  · rw [if_neg hv6, if_neg hv6]
    simp [oddLength, addrBytes, networkBytes]

/-- Who checks a chain with its checksum filled in, split in any other way, gets 0. -/
theorem ip_chksum_pseudo_verifies {p p' : List PbufAt} {before after : List UInt8}
    {proto : BitVec 8} {proto_len : BitVec 16} {src dest : IpAddrT}
    (heven : before.length % 2 = 0) (hp : flatBytes p = before ++ storedBytes 0 ++ after)
    (hp' : flatBytes p' =
      before ++ storedBytes (ip_chksum_pseudo p proto proto_len src dest) ++ after) :
    ip_chksum_pseudo p' proto proto_len src dest = 0 := by
  have hodd : oddLength (pseudoHeader src dest proto proto_len ++ before) = false := by
    rw [oddLength_append, oddLength_pseudoHeader, Bool.false_xor, oddLength, heven]
    rfl
  have hsum := ip_chksum_pseudo_spec p proto proto_len src dest
  rw [hp, ← List.append_assoc, ← List.append_assoc] at hsum
  apply BitVec.eq_of_toNat_eq
  rw [ip_chksum_pseudo_spec, hp', ← List.append_assoc, ← List.append_assoc,
    norm_weigh_field hodd hsum]
  rfl

/-- The same bytes in four buffers, with the field in two of them. -/
def resplitChain (low high : UInt8) : List PbufAt :=
  [.of true [0x45], .of false [0, 0, 7, low], .of true [high, 1, 2, 3, 4], .of true [5, 6]]

theorem ip_chksum_pseudo_verifies_split :
    ip_chksum_pseudo (resplitChain 0x9d 0xd7) 6 12 hostA hostB = 0 := by
  have heven : ([0x45, 0, 0, 7] : List UInt8).length % 2 = 0 := rfl
  have hp : flatBytes (splitChain 0 0) = [0x45, 0, 0, 7] ++ storedBytes 0 ++ [1, 2, 3, 4, 5, 6] := rfl
  have hp' : flatBytes (resplitChain 0x9d 0xd7) = [0x45, 0, 0, 7] ++
      storedBytes (ip_chksum_pseudo (splitChain 0 0) 6 12 hostA hostB) ++ [1, 2, 3, 4, 5, 6] := by decide
  exact ip_chksum_pseudo_verifies heven hp hp'

/-! ### The first bytes of a chain -/

private theorem partialLoop_zero (acc : BitVec 32) (swapped : Bool) (p : List PbufAt) :
    partialLoop acc swapped 0 p = some (acc, swapped) := by
  obtain _ | ⟨q, next⟩ := p
  · rfl
  · rw [partialLoop, if_pos rfl]

/-- The loop over the first `chksum_len` bytes; the last buffer may be longer. -/
theorem partialLoop_spec (p : List PbufAt) : ∀ {acc : BitVec 32} {swapped : Bool} {sum : Nat}
    {chksum_len : BitVec 16}, chksum_len.toNat < 0x7fff → acc.toNat = turn swapped (norm sum) →
    ∃ acc' swapped', partialLoop acc swapped chksum_len p = some (acc', swapped') ∧
      acc'.toNat = turn swapped'
        (norm (sum + weigh swapped ((flatBytes p).take chksum_len.toNat))) := by
  induction p with
  | nil =>
    intro acc swapped sum chksum_len _ hacc
    refine ⟨_, _, rfl, ?_⟩
    rw [flatBytes_nil, List.take_nil, weigh_nil, Nat.add_zero]
    exact hacc
  | cons q next ih =>
    intro acc swapped sum chksum_len hsmall hacc
    by_cases hzero : chksum_len = 0
    · subst hzero
      exact ⟨_, _, partialLoop_zero _ _ _, hacc⟩
    · have hshort : (q.payload.take (min q.payload.length chksum_len.toNat)).length < 2 ^ 16 := by
        rw [List.length_take]
        omega
      have hstep := chksumStep hacc q.odd hshort
      have hleft : (chksum_len - BitVec.ofNat 16 (min q.payload.length chksum_len.toNat)).toNat =
          chksum_len.toNat - q.payload.length := by
        have hlt := chksum_len.isLt
        rw [BitVec.toNat_sub_of_le, BitVec.toNat_ofNat, Nat.mod_eq_of_lt (by omega)]
        · omega
        · rw [BitVec.le_def, BitVec.toNat_ofNat, Nat.mod_eq_of_lt (by omega)]
          exact Nat.min_le_right _ _
      have hassert : chksum_len - BitVec.ofNat 16 (min q.payload.length chksum_len.toNat) <
          0x7fff := by
        rw [BitVec.lt_def, hleft]
        exact Nat.lt_of_le_of_lt (Nat.sub_le _ _) hsmall
      rw [flatBytes_cons, List.take_append, partialLoop, if_neg hzero]
      dsimp only
      rw [LWIP_ASSERT_of hassert, Option.bind_eq_bind, Option.bind_some]
      obtain hwhole | hpart := Nat.le_total q.payload.length chksum_len.toNat
      · rw [Nat.min_eq_left hwhole] at hleft ⊢
        have hstep := chksumStep hacc q.odd q.len_lt
        rw [List.take_of_length_le le_rfl, List.take_of_length_le hwhole, weigh_append, ← Nat.add_assoc,
          ← hleft]
        by_cases hodd : q.len % 2 ≠ 0
        · rw [if_pos hodd, (oddLength_payload q.toPbufSeg).mpr hodd, Bool.xor_true]
          exact ih (by omega) (swap_acc hstep)
        · have heven : oddLength q.payload = false :=
            Bool.eq_false_iff.mpr fun h => hodd ((oddLength_payload q.toPbufSeg).mp h)
          rw [if_neg hodd, heven, Bool.xor_false]
          exact ih (by omega) hstep
      · have hdone : chksum_len - BitVec.ofNat 16 (min q.payload.length chksum_len.toNat) = 0 := by
          apply BitVec.eq_of_toNat_eq
          rw [hleft, Nat.sub_eq_zero_of_le hpart]
          rfl
        rw [hdone, partialLoop_zero, partialLoop_zero, Nat.sub_eq_zero_of_le hpart, List.take_zero,
          List.append_nil]
        rw [Nat.min_eq_right hpart] at hstep ⊢
        by_cases hodd : q.len % 2 ≠ 0
        · rw [if_pos hodd]
          exact ⟨_, _, rfl, swap_acc hstep⟩
        · rw [if_neg hodd]
          exact ⟨_, _, rfl, hstep⟩

end tun2proxy.core
