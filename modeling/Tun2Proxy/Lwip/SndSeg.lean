import Tun2Proxy.Lwip.Chksum

open tun2proxy.onescomplement

namespace tun2proxy.core

/-- `chksum` and `chksum_swapped` of a `struct tcp_seg`. -/
structure SegChksum where
  chksum : BitVec 16
  chksum_swapped : Bool
  deriving DecidableEq, Repr

def tcp_seg_add_chksum (chksum : BitVec 16) (len : Nat) (seg : SegChksum) : SegChksum :=
  let helper := chksum.setWidth 32 + seg.chksum.setWidth 32
  let chksum := (FOLD_U32T helper).setWidth 16
  if len % 2 ≠ 0 then
    ⟨(SWAP_BYTES_IN_WORD (chksum.setWidth 32)).setWidth 16, !seg.chksum_swapped⟩
  else ⟨chksum, seg.chksum_swapped⟩

/-- The copied bytes are added. By `lwip_standard_chksum_address`, the address of the copy
    makes no difference. -/
def TCP_DATA_COPY2 (data : List UInt8) (seg : SegChksum) : SegChksum :=
  tcp_seg_add_chksum (lwip_standard_chksum false data) data.length seg

/-- The sum with its bytes in the order of the header. -/
def SegChksum.unswapped (seg : SegChksum) : BitVec 16 :=
  if seg.chksum_swapped then (SWAP_BYTES_IN_WORD (seg.chksum.setWidth 32)).setWidth 16
  else seg.chksum

/-- `struct tcp_seg` on a send queue: the data in each pbuf of `p`, behind the headers in the
    first one, and the free bytes behind the data of the last one. `oversize_left` is there because
    `LWIP_DEBUG` is defined, as 0. -/
structure SndSeg where
  seqno : BitVec 32
  p : List (List UInt8)
  fin : Bool
  psh : Bool
  sum : SegChksum
  -- `TF_SEG_DATA_CHECKSUMMED`
  checksummed : Bool
  room : Nat
  oversize_left : Nat
  deriving DecidableEq, Repr

namespace SndSeg

def data (seg : SndSeg) : List UInt8 := seg.p.flatten

def len (seg : SndSeg) : Nat := seg.data.length

/-- `TCP_TCPLEN`. -/
def tcplen (seg : SndSeg) : Nat := seg.len + seg.fin.toNat

def ends (seg : SndSeg) : BitVec 32 := seg.seqno + BitVec.ofNat 32 seg.tcplen

/-- `pbuf_clen`. -/
def clen (seg : SndSeg) : Nat := seg.p.length

/-- Nothing is added to a segment that was sent. -/
def spent (seg : SndSeg) : SndSeg := { seg with oversize_left := 0 }

/-- The segment as the other end gets it. -/
def received (seg : SndSeg) : TcpSeg := ⟨seg.seqno, seg.data, seg.fin⟩

end SndSeg

/-- `struct tcp_hdr` without options. `chksum` is as it lies in memory. -/
structure TcpHdr where
  src : BitVec 16
  dest : BitVec 16
  seqno : BitVec 32
  ackno : BitVec 32
  fin : Bool
  psh : Bool
  ack : Bool
  wnd : BitVec 16
  chksum : BitVec 16
  urgp : BitVec 16
  deriving DecidableEq, Repr

namespace TcpHdr

/-- `TCPH_HDRLEN_FLAGS_SET` with a header of five words. -/
def hdrlen_rsvd_flags (hdr : TcpHdr) : Nat :=
  5 * 2 ^ 12 + hdr.fin.toNat + 8 * hdr.psh.toNat + 16 * hdr.ack.toNat

def beforeChksum (hdr : TcpHdr) : List UInt8 :=
  networkBytes hdr.src.toNat ++ networkBytes hdr.dest.toNat ++
    networkBytes (hdr.seqno.toNat / 65536) ++ networkBytes (hdr.seqno.toNat % 65536) ++
    networkBytes (hdr.ackno.toNat / 65536) ++ networkBytes (hdr.ackno.toNat % 65536) ++
    networkBytes hdr.hdrlen_rsvd_flags ++ networkBytes hdr.wnd.toNat

def bytes (hdr : TcpHdr) : List UInt8 :=
  hdr.beforeChksum ++ storedBytes hdr.chksum ++ networkBytes hdr.urgp.toNat

@[simp] theorem length_bytes (hdr : TcpHdr) : hdr.bytes.length = 20 := rfl

private theorem oddLength_bytes (hdr : TcpHdr) : oddLength hdr.bytes = false := by
  rw [oddLength, length_bytes]
  rfl

/-- The checksum adds what it holds to the sum over the header. -/
theorem weigh_bytes {before : List UInt8} (heven : oddLength before = false) (hdr : TcpHdr)
    (chksum : BitVec 16) (data : List UInt8) :
    weigh false (before ++ ({ hdr with chksum }.bytes ++ data)) =
      weigh false (before ++ ({ hdr with chksum := 0 }.bytes ++ data)) + chksum.toNat := by
  have hlen : hdr.beforeChksum.length = 16 := rfl
  have hodd : oddLength (before ++ hdr.beforeChksum) = false := by
    rw [oddLength_append, heven, Bool.false_xor, oddLength, hlen]
    rfl
  have hfield : weigh false (before ++ hdr.beforeChksum ++ storedBytes chksum ++
      (networkBytes hdr.urgp.toNat ++ data)) = weigh false (before ++ hdr.beforeChksum ++
      storedBytes 0 ++ (networkBytes hdr.urgp.toNat ++ data)) + chksum.toNat := weigh_field hodd chksum
  simp only [List.append_assoc] at hfield
  simp only [bytes, List.append_assoc]
  exact hfield

end TcpHdr

/-- The addresses and ports of a pcb. -/
structure Endpoints where
  local_ip : IpAddrT
  remote_ip : IpAddrT
  local_port : BitVec 16
  remote_port : BitVec 16

/-- A segment on the wire. -/
structure WireSeg where
  hdr : TcpHdr
  data : List UInt8
  deriving DecidableEq, Repr

def WireSeg.received (w : WireSeg) : TcpSeg := ⟨w.hdr.seqno, w.data, w.hdr.fin⟩

/-- The header of a segment before `chksum` is filled in. `tcp_output` sets TCP_ACK in all
    states but SYN_SENT. -/
def SndSeg.header (seg : SndSeg) (pcb : Endpoints) (ackno : BitVec 32) (wnd : BitVec 16) : TcpHdr :=
  { src := pcb.local_port
    dest := pcb.remote_port
    seqno := seg.seqno
    ackno
    fin := seg.fin
    psh := seg.psh
    ack := true
    wnd
    chksum := 0
    urgp := 0 }

/-- The pbufs of a segment with its header. -/
def SndSeg.chain (seg : SndSeg) (hdr : TcpHdr) : List PbufAt :=
  .of false (hdr.bytes ++ seg.p.headD []) :: seg.p.tail.map (.of false)

/-- `tcp_output_segment`, up to the call of `ip_output_if`. -/
def tcp_output_segment (seg : SndSeg) (pcb : Endpoints) (ackno : BitVec 32) (wnd : BitVec 16) :
    Option WireSeg := do
  let tcphdr := seg.header pcb ackno wnd
  let tot_len := 20 + seg.len
  LWIP_ASSERT (seg.checksummed = true ∨ tot_len = 20)
  let acc ← ip_chksum_pseudo_partial (seg.chain tcphdr) 6 (BitVec.ofNat 16 tot_len) 20 pcb.local_ip
    pcb.remote_ip
  let acc := (~~~ acc).setWidth 32 + seg.sum.unswapped.setWidth 32
  return ⟨{ tcphdr with chksum := ~~~ (FOLD_U32T acc).setWidth 16 }, seg.data⟩

/-! ### Sums over copied data -/

theorem lwip_standard_chksum_address (odd odd' : Bool) {data : List UInt8} (h : data.length < 2 ^ 16) :
    lwip_standard_chksum odd data = lwip_standard_chksum odd' data := by
  apply BitVec.eq_of_toNat_eq
  rw [lwip_standard_chksum_spec odd h, lwip_standard_chksum_spec odd' h]

/-- `seg` holds the sum over `data`, with swapped bytes if the length is odd. -/
structure SegChksum.Sums (data : List UInt8) (seg : SegChksum) : Prop where
  swapped : seg.chksum_swapped = oddLength data
  chksum : seg.chksum.toNat = turn seg.chksum_swapped (norm (weigh false data))

private theorem toNat_setWidth_32 (n : BitVec 16) : (n.setWidth 32).toNat = n.toNat := by
  have hlt := n.isLt
  rw [BitVec.toNat_setWidth, Nat.mod_eq_of_lt (by omega)]

private theorem toNat_swap_16 (n : BitVec 16) :
    ((SWAP_BYTES_IN_WORD (n.setWidth 32)).setWidth 16).toNat = swap n.toNat := by
  have hlt := n.isLt
  have hswap : swap n.toNat ≤ 65535 := swap_le (by omega)
  have hword : (SWAP_BYTES_IN_WORD (n.setWidth 32)).toNat = swap n.toNat := by
    rw [toNat_SWAP_BYTES_IN_WORD, toNat_setWidth_32, Nat.mod_eq_of_lt (by omega)]
  rw [setWidth_toNat _ (by omega), hword]

namespace SegChksum.Sums

variable {data more : List UInt8} {seg : SegChksum}

theorem nil : Sums [] ⟨0, false⟩ := ⟨rfl, rfl⟩

/-- The bytes that are added may have been summed up on their own. -/
theorem add {chksum : BitVec 16} (h : Sums data seg) (hmore : chksum.toNat = norm (weigh false more)) :
    Sums (data ++ more) (tcp_seg_add_chksum chksum more.length seg) := by
  have hle := turn_le (norm_le (weigh false data)) seg.chksum_swapped
  have hle' := norm_le (weigh false more)
  have hhelper : (chksum.setWidth 32 + seg.chksum.setWidth 32).toNat =
      turn seg.chksum_swapped (norm (weigh false data)) +
        turn seg.chksum_swapped (norm (weigh seg.chksum_swapped more)) := by
    rw [BitVec.toNat_add, toNat_setWidth_32, toNat_setWidth_32, h.chksum, hmore,
      ← norm_weigh_false seg.chksum_swapped, Nat.add_comm, Nat.mod_eq_of_lt (by omega)]
  have hsum : ((FOLD_U32T (chksum.setWidth 32 + seg.chksum.setWidth 32)).setWidth 16).toNat =
      turn seg.chksum_swapped (norm (weigh false (data ++ more))) := by
    have hfold : (FOLD_U32T (chksum.setWidth 32 + seg.chksum.setWidth 32)).toNat =
        turn seg.chksum_swapped (norm (weigh false (data ++ more))) := by
      rw [toNat_FOLD_U32T, hhelper, fold_eq_norm, norm_turn_add_turn, weigh_append, Bool.false_xor,
        ← h.swapped]
      rw [← norm_weigh_false]
      omega
    have hbound := turn_le (norm_le (weigh false (data ++ more))) seg.chksum_swapped
    rw [setWidth_toNat _ (by omega), hfold]
  rw [tcp_seg_add_chksum]
  by_cases hodd : more.length % 2 ≠ 0
  · have hlen : oddLength more = true := by rw [oddLength, bne_iff_ne]; exact hodd
    rw [if_pos hodd]
    refine ⟨?_, ?_⟩
    · rw [oddLength_append, hlen, Bool.xor_true, h.swapped]
    · dsimp only
      rw [toNat_swap_16, hsum, swap_turn (norm_le _)]
  · have hlen : oddLength more = false := by rw [oddLength, bne_eq_false_iff_eq]; omega
    rw [if_neg hodd]
    refine ⟨?_, hsum⟩
    rw [oddLength_append, hlen, Bool.xor_false, h.swapped]

theorem copy (h : Sums data seg) (hlen : more.length < 2 ^ 16) :
    Sums (data ++ more) (TCP_DATA_COPY2 more seg) := h.add (lwip_standard_chksum_spec false hlen)

theorem unswapped (h : Sums data seg) : seg.unswapped.toNat = norm (weigh false data) := by
  have hsum := h.chksum
  rw [SegChksum.unswapped]
  by_cases hswapped : seg.chksum_swapped = true
  · rw [if_pos hswapped, toNat_swap_16, hsum, hswapped]
    exact swap_swap (norm_le _)
  · rw [if_neg hswapped, hsum, Bool.eq_false_iff.mpr hswapped]
    rfl

end SegChksum.Sums

/-! ### The checksum of a segment on the wire -/

private theorem flatBytes_chain_take (seg : SndSeg) (hdr : TcpHdr) :
    (flatBytes (seg.chain hdr)).take 20 = hdr.bytes := by
  have hlen : hdr.bytes.length = 20 := hdr.length_bytes
  rw [SndSeg.chain, flatBytes_cons, PbufAt.of, List.take_append_of_le_length, List.take_take,
    Nat.min_eq_left (by omega), ← hlen, List.take_left]
  rw [List.length_take, List.length_append]
  omega

private theorem ip_chksum_pseudo_partial_eq (p : List PbufAt) (proto : BitVec 8)
    (proto_len chksum_len : BitVec 16) (src dest : IpAddrT) :
    ip_chksum_pseudo_partial p proto proto_len chksum_len src dest =
      inet_cksum_pseudo_partial_base p proto proto_len chksum_len (addrSum src dest) := by
  unfold ip_chksum_pseudo_partial addrSum
  by_cases hv6 : dest.v6 = true
  · rw [if_pos hv6, if_pos hv6]
    rfl
  · rw [if_neg hv6, if_neg hv6]
    rfl

/-- The checksum of the first bytes of a chain. -/
theorem ip_chksum_pseudo_partial_spec (p : List PbufAt) (proto : BitVec 8)
    (proto_len : BitVec 16) {chksum_len : BitVec 16} (src dest : IpAddrT) (h : chksum_len.toNat < 0x7fff) :
    ∃ chksum, ip_chksum_pseudo_partial p proto proto_len chksum_len src dest = some chksum ∧
      chksum.toNat = 65535 - norm (weigh false
        (pseudoHeader src dest proto proto_len ++ (flatBytes p).take chksum_len.toNat)) := by
  have haddrs : (addrSum src dest).toNat =
      turn false (norm (weigh false (addrsBytes src dest))) := addrSum_spec src dest
  obtain ⟨acc, swapped, hloop, hacc⟩ := partialLoop_spec p h haddrs
  refine ⟨_, ?_, pseudoEnd_spec hacc proto proto_len |>.trans ?_⟩
  · rw [ip_chksum_pseudo_partial_eq, inet_cksum_pseudo_partial_base, hloop]
    rfl
  · rw [weigh_pseudoHeader]
    congr 2
    omega

/-- Whoever checks the segment gets 0, in whatever pbufs it arrives. -/
def WireSeg.Verifies (w : WireSeg) (pcb : Endpoints) : Prop :=
  ∀ p : List PbufAt, flatBytes p = w.hdr.bytes ++ w.data →
    ip_chksum_pseudo p 6 (BitVec.ofNat 16 (20 + w.data.length)) pcb.local_ip pcb.remote_ip = 0

/-- The checksum of a header that holds 0 in its place, filled in. -/
theorem WireSeg.verifies_of {hdr : TcpHdr} {data : List UInt8} {pcb : Endpoints} {chksum : BitVec 16}
    (hzero : hdr.chksum = 0) (hchksum : chksum.toNat = 65535 - norm (weigh false
      (pseudoHeader pcb.local_ip pcb.remote_ip 6 (BitVec.ofNat 16 (20 + data.length)) ++
        (hdr.bytes ++ data)))) : WireSeg.Verifies ⟨{ hdr with chksum }, data⟩ pcb := by
  intro p hp
  have heven : oddLength (pseudoHeader pcb.local_ip pcb.remote_ip 6
      (BitVec.ofNat 16 (20 + data.length))) = false := oddLength_pseudoHeader _ _ _ _
  have hsame : { hdr with chksum := 0 } = hdr := by rw [← hzero]
  apply BitVec.eq_of_toNat_eq
  rw [ip_chksum_pseudo_spec, hp]
  dsimp only
  rw [TcpHdr.weigh_bytes heven, hsame, hchksum, norm_add_complement]
  rfl

/-- The sum that was made while copying gives the checksum of the whole segment. -/
theorem tcp_output_segment_spec {seg : SndSeg} (pcb : Endpoints) (ackno : BitVec 32) (wnd : BitVec 16)
    (hsum : seg.sum.Sums seg.data) (hchecked : seg.checksummed = true ∨ seg.data = []) :
    ∃ chksum, tcp_output_segment seg pcb ackno wnd =
        some ⟨{ seg.header pcb ackno wnd with chksum }, seg.data⟩ ∧
      WireSeg.Verifies ⟨{ seg.header pcb ackno wnd with chksum }, seg.data⟩ pcb := by
  generalize hhdr : seg.header pcb ackno wnd = hdr
  generalize hpseudo : pseudoHeader pcb.local_ip pcb.remote_ip 6 (BitVec.ofNat 16 (20 + seg.len)) =
    pseudo
  have hassert : seg.checksummed = true ∨ 20 + seg.len = 20 := by
    refine hchecked.imp_right fun hnil => ?_
    rw [SndSeg.len, hnil]
    rfl
  have htwenty : (20 : BitVec 16).toNat = 20 := rfl
  have hsmall : (20 : BitVec 16).toNat < 0x7fff := by omega
  obtain ⟨acc, hpartial, hacc⟩ := ip_chksum_pseudo_partial_spec (seg.chain hdr) 6
    (BitVec.ofNat 16 (20 + seg.len)) pcb.local_ip pcb.remote_ip hsmall
  rw [htwenty, flatBytes_chain_take, hpseudo] at hacc
  have heven : oddLength pseudo = false := hpseudo ▸ oddLength_pseudoHeader _ _ _ _
  have hodd : oddLength (pseudo ++ hdr.bytes) = false := by
    rw [oddLength_append, heven, hdr.oddLength_bytes]
    rfl
  have hdata := norm_le (weigh false seg.data)
  have hhead := norm_le (weigh false (pseudo ++ hdr.bytes))
  have hnot : (~~~ acc).toNat = norm (weigh false (pseudo ++ hdr.bytes)) := by
    rw [BitVec.toNat_not, hacc]
    omega
  have hfold : (FOLD_U32T ((~~~ acc).setWidth 32 + seg.sum.unswapped.setWidth 32)).toNat =
      norm (weigh false (pseudo ++ (hdr.bytes ++ seg.data))) := by
    rw [toNat_FOLD_U32T, BitVec.toNat_add, toNat_setWidth_32, toNat_setWidth_32, hnot, hsum.unswapped,
      Nat.mod_eq_of_lt (by omega), fold_eq_norm (by omega), norm_norm_add, norm_add_norm,
      ← List.append_assoc, weigh_append _ _ seg.data, hodd, Bool.xor_false]
  have hbound := norm_le (weigh false (pseudo ++ (hdr.bytes ++ seg.data)))
  have hchksum := toNat_not_setWidth (hfold ▸ hbound)
  rw [hfold] at hchksum
  refine ⟨~~~ (FOLD_U32T ((~~~ acc).setWidth 32 + seg.sum.unswapped.setWidth 32)).setWidth 16, ?_, ?_⟩
  · rw [tcp_output_segment]
    dsimp only
    rw [LWIP_ASSERT_of hassert, Option.bind_eq_bind, Option.bind_some, hhdr, hpartial,
      Option.bind_eq_bind, Option.bind_some]
    rfl
  · apply WireSeg.verifies_of
    · rw [← hhdr]
      rfl
    · rw [hchksum, ← hpseudo]
      rfl

end tun2proxy.core
