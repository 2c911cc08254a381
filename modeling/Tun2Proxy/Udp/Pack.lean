import Tun2Proxy.Go.Slice
import Tun2Proxy.Lib.BigEndian

open tun2proxy.go tun2proxy.bigendian

namespace tun2proxy.udppackage

/-- `net.UDPAddr`. The port is a Go `int`, 64 bits wide. -/
structure UDPAddr where
  IP : List UInt8
  Port : Int64
  Zone : String
  deriving DecidableEq, Repr

/-- The three results of a successful `UnpackUDPData`. -/
structure UDPData where
  target : UDPAddr
  src : UDPAddr
  payload : List UInt8
  deriving DecidableEq, Repr

/-- What `PackUDPData` writes for one address: the length of the IP cut to a
    byte, the IP, and the two low bytes of the port. -/
def packAddr (addr : UDPAddr) : List UInt8 :=
  UInt8.ofNat addr.IP.length :: addr.IP ++
    [(addr.Port >>> 8).toUInt64.toUInt8, (addr.Port &&& 0xff).toUInt64.toUInt8]

/-- The four bytes `PackUDPData` writes for the payload length. -/
def packLen (payloadLen : UInt32) : List UInt8 :=
  [((payloadLen >>> 24) &&& 0xff).toUInt8, ((payloadLen >>> 16) &&& 0xff).toUInt8,
    ((payloadLen >>> 8) &&& 0xff).toUInt8, (payloadLen &&& 0xff).toUInt8]

/-- `PackUDPData`; `none` is a nil pointer or a nil slice. -/
def packUDPData (target src : Option UDPAddr) (payload : Option (List UInt8)) :
    Except String (List UInt8) :=
  match target, src, payload with
  | some target, some src, some payload =>
    .ok (packAddr target ++ packAddr src ++ packLen (UInt32.ofNat payload.length) ++ payload)
  | _, _, _ => .error "invalid UDP address"

/-- The part of `UnpackUDPData` that reads one address from `idx` on, written
    out twice in the source. Every index and slice expression can panic. -/
def unpackAddr (data : Slice) (idx : Nat) : Outcome (UDPAddr × Nat) := do
  let ipLen := (← data.index idx).toNat
  let idx := idx + 1
  let ip ← data.slice idx (idx + ipLen)
  let idx := idx + ipLen
  let port := join16 (← data.index idx) (← data.index (idx + 1))
  return ({ IP := ip.bytes, Port := port, Zone := "" }, idx + 2)

/-- The part of `UnpackUDPData` that reads the payload length. -/
def unpackLen (data : Slice) (idx : Nat) : Outcome UInt32 := do
  return join32 (← data.index idx) (← data.index (idx + 1)) (← data.index (idx + 2))
    (← data.index (idx + 3))

/-- `UnpackUDPData`. Only the length check up front returns an error. -/
def unpackUDPData (data : Slice) : Outcome (Except String UDPData) := do
  if data.len < 4 then
    return .error "data too short"
  let (target, idx) ← unpackAddr data 0
  let (src, idx) ← unpackAddr data idx
  let payloadLen ← unpackLen data idx
  let idx := idx + 4
  let payload ← data.slice idx (idx + payloadLen.toNat)
  return .ok { target, src, payload := payload.bytes }

/-- The IP length announced by the byte at `idx`. -/
def ipLenAt (data : List UInt8) (idx : Nat) : Nat := (data.getD idx 0).toNat

/-- The address that starts at `idx`. -/
def addrAt (data : List UInt8) (idx : Nat) : UDPAddr :=
  { IP := (data.drop (idx + 1)).take (ipLenAt data idx)
    Port := join16 (data.getD (idx + 1 + ipLenAt data idx) 0)
      (data.getD (idx + 2 + ipLenAt data idx) 0)
    Zone := "" }

/-- Where the source address starts. -/
def srcIdx (data : List UInt8) : Nat := 3 + ipLenAt data 0

/-- Where the payload length starts. -/
def lenIdx (data : List UInt8) : Nat := srcIdx data + 3 + ipLenAt data (srcIdx data)

/-- Length of both addresses and the payload length field, as announced by the
    two IP length bytes. -/
def headerLen (data : List UInt8) : Nat := lenIdx data + 4

/-- The announced payload length. -/
def payloadLen (data : List UInt8) : Nat :=
  (join32 (data.getD (lenIdx data) 0) (data.getD (lenIdx data + 1) 0)
    (data.getD (lenIdx data + 2) 0) (data.getD (lenIdx data + 3) 0)).toNat

/-- The fields that stand in `data`, as far as it is long enough for them. -/
def fieldsOf (data : List UInt8) : UDPData :=
  { target := addrAt data 0
    src := addrAt data (srcIdx data)
    payload := (data.drop (headerLen data)).take (payloadLen data) }

private theorem unpackAddr_success {data : Slice} {idx : Nat}
    (hfits : idx + 3 + ipLenAt data.mem idx ≤ data.len) :
    unpackAddr data idx = .ret (addrAt data.mem idx, idx + 3 + ipLenAt data.mem idx) := by
  have hlen := data.len_le
  unfold ipLenAt at hfits
  unfold unpackAddr
  rw [Slice.index_of_lt (by omega), Outcome.ret_bind]
  dsimp only
  rw [Slice.slice_of_le (by omega) (by omega), Outcome.ret_bind]
  rw [Slice.index_of_lt (by omega), Outcome.ret_bind, Slice.index_of_lt (by omega),
    Outcome.ret_bind, Outcome.pure_eq]
  have hip : idx + 1 + (data.mem.getD idx 0).toNat - (idx + 1) = (data.mem.getD idx 0).toNat := by
    omega
  have hport : idx + 1 + (data.mem.getD idx 0).toNat + 1 =
      idx + 2 + (data.mem.getD idx 0).toNat := by
    omega
  have hnext : idx + 1 + (data.mem.getD idx 0).toNat + 2 =
      idx + 3 + (data.mem.getD idx 0).toNat := by
    omega
  simp only [addrAt, ipLenAt, Slice.bytes, hip, hport, hnext]

/-- An address that does not fit the length makes one of the index expressions
    panic, whether or not the IP slice reaches into the spare capacity. -/
theorem unpackAddr_panic {data : Slice} {idx : Nat}
    (hshort : data.len < idx + 3 + ipLenAt data.mem idx) : unpackAddr data idx = .panic := by
  unfold ipLenAt at hshort
  unfold unpackAddr
  by_cases hidx : idx < data.len
  · rw [Slice.index_of_lt hidx, Outcome.ret_bind]
    dsimp only
    by_cases hcap : idx + 1 + (data.mem.getD idx 0).toNat ≤ data.mem.length
    · rw [Slice.slice_of_le (by omega) hcap, Outcome.ret_bind]
      by_cases hport : idx + 1 + (data.mem.getD idx 0).toNat < data.len
      · rw [Slice.index_of_lt hport, Outcome.ret_bind, Slice.index_of_ge (by omega),
          Outcome.panic_bind]
      · rw [Slice.index_of_ge (by omega), Outcome.panic_bind]
    · rw [Slice.slice_of_gt (by omega), Outcome.panic_bind]
  · rw [Slice.index_of_ge (by omega), Outcome.panic_bind]

private theorem unpackLen_success {data : Slice} {idx : Nat} (hfits : idx + 4 ≤ data.len) :
    unpackLen data idx = .ret (join32 (data.mem.getD idx 0) (data.mem.getD (idx + 1) 0)
      (data.mem.getD (idx + 2) 0) (data.mem.getD (idx + 3) 0)) := by
  unfold unpackLen
  rw [Slice.index_of_lt (by omega), Outcome.ret_bind, Slice.index_of_lt (by omega),
    Outcome.ret_bind, Slice.index_of_lt (by omega), Outcome.ret_bind, Slice.index_of_lt (by omega),
    Outcome.ret_bind, Outcome.pure_eq]

private theorem unpackLen_panic {data : Slice} {idx : Nat} (hshort : data.len < idx + 4) :
    unpackLen data idx = .panic := by
  unfold unpackLen
  by_cases h0 : idx < data.len
  · rw [Slice.index_of_lt h0, Outcome.ret_bind]
    by_cases h1 : idx + 1 < data.len
    · rw [Slice.index_of_lt h1, Outcome.ret_bind]
      by_cases h2 : idx + 2 < data.len
      · rw [Slice.index_of_lt h2, Outcome.ret_bind, Slice.index_of_ge (by omega),
          Outcome.panic_bind]
      · rw [Slice.index_of_ge (by omega), Outcome.panic_bind]
    · rw [Slice.index_of_ge (by omega), Outcome.panic_bind]
  · rw [Slice.index_of_ge (by omega), Outcome.panic_bind]

theorem unpackUDPData_short {data : Slice} (hshort : data.len < 4) :
    unpackUDPData data = .ret (.error "data too short") := by
  simp [unpackUDPData, hshort]

private theorem unpackAddr_target {data : Slice} (hfits : srcIdx data.mem ≤ data.len) :
    unpackAddr data 0 = .ret (addrAt data.mem 0, srcIdx data.mem) := by
  rw [unpackAddr_success (by simpa only [srcIdx, Nat.zero_add] using hfits), srcIdx, Nat.zero_add]

private theorem unpackAddr_src {data : Slice} (hfits : lenIdx data.mem ≤ data.len) :
    unpackAddr data (srcIdx data.mem) =
      .ret (addrAt data.mem (srcIdx data.mem), lenIdx data.mem) := by
  rw [unpackAddr_success (by simpa only [lenIdx] using hfits), lenIdx]

theorem srcIdx_le_lenIdx (data : List UInt8) : srcIdx data + 3 ≤ lenIdx data := by
  unfold lenIdx
  omega

theorem three_le_srcIdx (data : List UInt8) : 3 ≤ srcIdx data := by
  unfold srcIdx
  omega

/-- Once the header fits the length, everything is decided by the payload slice. -/
private theorem unpackUDPData_header {data : Slice} (hheader : headerLen data.mem ≤ data.len) :
    unpackUDPData data =
      (data.slice (headerLen data.mem) (headerLen data.mem + payloadLen data.mem) >>= fun payload =>
        .ret (.ok { target := addrAt data.mem 0, src := addrAt data.mem (srcIdx data.mem),
                    payload := payload.bytes })) := by
  have hsrc := srcIdx_le_lenIdx data.mem
  have hthree := three_le_srcIdx data.mem
  have hlen : lenIdx data.mem + 4 ≤ data.len := hheader
  have h4 : ¬ data.len < 4 := by omega
  have htarget := @unpackAddr_target data (by omega)
  have hsource := @unpackAddr_src data (by omega)
  simp only [unpackUDPData, h4, if_false, htarget, hsource, unpackLen_success hlen,
    Outcome.ret_bind, Outcome.pure_eq, headerLen, payloadLen]

/-- With a complete header, only the capacity bounds the payload slice. The
    fields are then read from the backing array, past the length if need be. -/
theorem unpackUDPData_success {data : Slice} (hheader : headerLen data.mem ≤ data.len)
    (hpayload : headerLen data.mem + payloadLen data.mem ≤ data.cap) :
    unpackUDPData data = .ret (.ok (fieldsOf data.mem)) := by
  rw [unpackUDPData_header hheader, Slice.slice_of_le (by omega) hpayload, Outcome.ret_bind]
  simp [fieldsOf, Slice.bytes]

/-- Every other input of at least four bytes panics: a header that does not fit
    the length, or a payload that does not fit the capacity. -/
theorem unpackUDPData_panic {data : Slice} (hlong : 4 ≤ data.len)
    (hshort : headerLen data.mem ≤ data.len → data.cap < headerLen data.mem + payloadLen data.mem) :
    unpackUDPData data = .panic := by
  by_cases hheader : headerLen data.mem ≤ data.len
  · rw [unpackUDPData_header hheader, Slice.slice_of_gt (hshort hheader), Outcome.panic_bind]
  · have h4 : ¬ data.len < 4 := by omega
    simp only [unpackUDPData, h4, if_false]
    by_cases htarget : srcIdx data.mem ≤ data.len
    · simp only [unpackAddr_target htarget, Outcome.ret_bind]
      by_cases hsrc : lenIdx data.mem ≤ data.len
      · simp only [unpackAddr_src hsrc, Outcome.ret_bind]
        rw [unpackLen_panic (by unfold headerLen at hheader; omega), Outcome.panic_bind]
      · rw [unpackAddr_panic (by unfold lenIdx at hsrc; omega), Outcome.panic_bind]
    · rw [unpackAddr_panic (by unfold srcIdx at htarget; omega), Outcome.panic_bind]

end tun2proxy.udppackage
