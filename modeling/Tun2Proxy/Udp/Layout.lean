import Tun2Proxy.Udp.Pack

open tun2proxy.go tun2proxy.bigendian

namespace tun2proxy.udppackage

/-- The wire form of one address: a length byte, the IP, and the port in big
    endian. -/
structure AddrForm (wire : List UInt8) (addr : UDPAddr) : Prop where
  ip_lt : addr.IP.length < 256
  zone_eq : addr.Zone = ""
  exists_port : ∃ high low : UInt8, wire = UInt8.ofNat addr.IP.length :: addr.IP ++ [high, low] ∧
    addr.Port = Int64.ofNat (high.toNat * 256 + low.toNat)

/-- The wire form of a payload length: four bytes in big endian. -/
structure LenForm (wire : List UInt8) (n : Nat) : Prop where
  exists_bytes : ∃ b3 b2 b1 b0 : UInt8, wire = [b3, b2, b1, b0] ∧
    n = b3.toNat * 2 ^ 24 + b2.toNat * 2 ^ 16 + b1.toNat * 2 ^ 8 + b0.toNat

/-- The datagram `len1 IP1 port1 len2 IP2 port2 n payload rest` with its fields. -/
def WireForm (data : List UInt8) (fields : UDPData) (rest : List UInt8) : Prop :=
  ∃ target src len : List UInt8, AddrForm target fields.target ∧ AddrForm src fields.src ∧
    LenForm len fields.payload.length ∧ data = target ++ src ++ len ++ fields.payload ++ rest

theorem join16_eq_ofNat (high low : UInt8) :
    join16 high low = Int64.ofNat (high.toNat * 256 + low.toNat) := by
  have hhigh := high.toNat_lt
  have hlow := low.toNat_lt
  apply Int64.toBitVec_inj.mp
  apply BitVec.eq_of_toNat_eq
  rw [toNat_join16]
  simp
  omega

theorem AddrForm.length_wire {wire : List UInt8} {addr : UDPAddr} (h : AddrForm wire addr) :
    wire.length = 3 + addr.IP.length := by
  obtain ⟨high, low, rfl, _⟩ := h.exists_port
  simp
  omega

/-- The element after a known part of a list, read by position. -/
private theorem getD_after {data : List UInt8} {byte : UInt8} {idx : Nat}
    (before after : List UInt8) (hdata : data = before ++ byte :: after)
    (hidx : idx = before.length) :
    data.getD idx 0 = byte := by
  subst hdata hidx
  simp [List.getD_eq_getElem?_getD]

/-- An address in wire form is what the parser finds at its start. -/
theorem AddrForm.addrAt_eq {wire : List UInt8} {addr : UDPAddr} (h : AddrForm wire addr)
    (before after : List UInt8) :
    ipLenAt (before ++ wire ++ after) before.length = addr.IP.length ∧
      addrAt (before ++ wire ++ after) before.length = addr := by
  obtain ⟨high, low, hwire, hport⟩ := h.exists_port
  have hlen : ipLenAt (before ++ wire ++ after) before.length = addr.IP.length := by
    have hbyte : (before ++ wire ++ after).getD before.length 0 = UInt8.ofNat addr.IP.length := by
      apply getD_after before (addr.IP ++ [high, low] ++ after) _ rfl
      simp [hwire]
    have hlt := h.ip_lt
    rw [ipLenAt, hbyte]
    simp
    omega
  have hhigh : (before ++ wire ++ after).getD (before.length + 1 + addr.IP.length) 0 = high := by
    apply getD_after (before ++ UInt8.ofNat addr.IP.length :: addr.IP) (low :: after)
    · simp [hwire]
    · simp; omega
  have hlow : (before ++ wire ++ after).getD (before.length + 2 + addr.IP.length) 0 = low := by
    apply getD_after (before ++ UInt8.ofNat addr.IP.length :: addr.IP ++ [high]) after
    · simp [hwire]
    · simp; omega
  have hip : ((before ++ wire ++ after).drop (before.length + 1)).take addr.IP.length =
      addr.IP := by
    have hdata : before ++ wire ++ after =
        (before ++ [UInt8.ofNat addr.IP.length]) ++ (addr.IP ++ [high, low] ++ after) := by
      simp [hwire]
    rw [hdata, List.drop_left' (by simp), List.append_assoc, List.take_left' rfl]
  refine ⟨hlen, ?_⟩
  simp only [addrAt, hlen, hip, hhigh, hlow, join16_eq_ofNat, ← hport, ← h.zone_eq]

/-- Taking one more byte from position `idx` on reads that byte first. -/
private theorem take_drop_succ {data : List UInt8} {idx : Nat} (count : Nat)
    (hidx : idx < data.length) :
    (data.drop idx).take (count + 1) = data.getD idx 0 :: (data.drop (idx + 1)).take count := by
  rw [List.drop_eq_getElem_cons hidx, List.take_succ_cons, List.getD_eq_getElem data 0 hidx]

private theorem take_append_take_drop {data : List UInt8} {i j : Nat} (hij : i ≤ j) :
    data.take i ++ (data.drop i).take (j - i) = data.take j := by
  rw [← List.take_add, Nat.add_sub_cancel' hij]

/-- Where an address fits, the bytes from its start on are its wire form. -/
theorem addrForm_addrAt {data : List UInt8} {idx : Nat}
    (hfits : idx + 3 + ipLenAt data idx ≤ data.length) :
    AddrForm ((data.drop idx).take (3 + ipLenAt data idx)) (addrAt data idx) := by
  have hlt : ipLenAt data idx < 256 := (data.getD idx 0).toNat_lt
  have hip : (addrAt data idx).IP.length = ipLenAt data idx := by
    simp [addrAt]
    omega
  refine ⟨by omega, rfl, data.getD (idx + 1 + ipLenAt data idx) 0,
    data.getD (idx + 2 + ipLenAt data idx) 0, ?_, ?_⟩
  · have hcount : 3 + ipLenAt data idx = ipLenAt data idx + 2 + 1 := by omega
    have hport : idx + 1 + ipLenAt data idx + 1 = idx + 2 + ipLenAt data idx := by omega
    rw [hip, hcount, take_drop_succ _ (by omega), List.take_add, List.drop_drop,
      take_drop_succ 1 (by omega), take_drop_succ 0 (by omega), hport]
    simp [addrAt, ipLenAt]
  · simp only [addrAt, join16_eq_ofNat]

theorem LenForm.length_wire {wire : List UInt8} {n : Nat} (h : LenForm wire n) :
    wire.length = 4 := by
  obtain ⟨b3, b2, b1, b0, rfl, _⟩ := h.exists_bytes
  rfl

/-- The bytes of a length field, found at its start, join to the length. -/
theorem LenForm.join32_eq {wire : List UInt8} {n : Nat} (h : LenForm wire n)
    (before after : List UInt8) :
    (join32 ((before ++ wire ++ after).getD before.length 0)
      ((before ++ wire ++ after).getD (before.length + 1) 0)
      ((before ++ wire ++ after).getD (before.length + 2) 0)
      ((before ++ wire ++ after).getD (before.length + 3) 0)).toNat = n := by
  obtain ⟨b3, b2, b1, b0, rfl, hn⟩ := h.exists_bytes
  have h3 : (before ++ [b3, b2, b1, b0] ++ after).getD before.length 0 = b3 :=
    getD_after before (b2 :: b1 :: b0 :: after) (by simp) rfl
  have h2 : (before ++ [b3, b2, b1, b0] ++ after).getD (before.length + 1) 0 = b2 :=
    getD_after (before ++ [b3]) (b1 :: b0 :: after) (by simp) (by simp)
  have h1 : (before ++ [b3, b2, b1, b0] ++ after).getD (before.length + 2) 0 = b1 :=
    getD_after (before ++ [b3, b2]) (b0 :: after) (by simp) (by simp)
  have h0 : (before ++ [b3, b2, b1, b0] ++ after).getD (before.length + 3) 0 = b0 :=
    getD_after (before ++ [b3, b2, b1]) after (by simp) (by simp)
  rw [h3, h2, h1, h0, join32_toNat, hn]

/-- The parser's offsets in a datagram of the wire form are those of its parts. -/
theorem WireForm.offsets {data rest : List UInt8} {fields : UDPData}
    (h : WireForm data fields rest) :
    headerLen data + payloadLen data + rest.length = data.length ∧ fieldsOf data = fields := by
  obtain ⟨target, src, len, htarget, hsrc, hlen, hdata⟩ := h
  obtain ⟨htlen, htaddr⟩ := htarget.addrAt_eq [] (src ++ len ++ fields.payload ++ rest)
  obtain ⟨hslen, hsaddr⟩ := hsrc.addrAt_eq target (len ++ fields.payload ++ rest)
  have hn := hlen.join32_eq (target ++ src) (fields.payload ++ rest)
  have htw := htarget.length_wire
  have hsw := hsrc.length_wire
  have hlw := hlen.length_wire
  have hfirst : [] ++ target ++ (src ++ len ++ fields.payload ++ rest) = data := by simp [hdata]
  have hsecond : target ++ src ++ (len ++ fields.payload ++ rest) = data := by simp [hdata]
  have hthird : target ++ src ++ len ++ (fields.payload ++ rest) = data := by simp [hdata]
  rw [hfirst, List.length_nil] at htlen htaddr
  rw [hsecond] at hslen hsaddr
  rw [hthird] at hn
  have hsrcIdx : srcIdx data = target.length := by rw [srcIdx, htlen, htw]
  have hlenIdx : lenIdx data = (target ++ src).length := by
    rw [lenIdx, hsrcIdx, hslen, List.length_append, hsw]
    omega
  have hpayload : payloadLen data = fields.payload.length := by rw [payloadLen, hlenIdx, hn]
  have hheader : headerLen data = (target ++ src ++ len).length := by
    simp only [headerLen, hlenIdx, List.length_append, hlw]
  constructor
  · rw [hheader, hpayload, hdata]
    simp
    omega
  · have hbody : (data.drop (headerLen data)).take (payloadLen data) = fields.payload := by
      rw [hheader, hpayload, ← hthird, List.drop_left' rfl, List.take_left' rfl]
    rw [fieldsOf, htaddr, hsrcIdx, hsaddr, hbody]

/-- The wire form is decided by the announced lengths: it is there exactly when
    header and payload fit, and then its fields are the ones at the offsets. -/
theorem exists_wireForm_iff (data : List UInt8) (fields : UDPData) :
    (∃ rest, WireForm data fields rest) ↔
      headerLen data + payloadLen data ≤ data.length ∧ fields = fieldsOf data := by
  constructor
  · rintro ⟨rest, h⟩
    obtain ⟨hlen, hfields⟩ := h.offsets
    exact ⟨by omega, hfields.symm⟩
  · rintro ⟨hfits, rfl⟩
    have hsrc := srcIdx_le_lenIdx data
    have hlenFits : lenIdx data + 4 ≤ data.length := by unfold headerLen at hfits; omega
    refine ⟨data.drop (headerLen data + payloadLen data), data.take (srcIdx data),
      (data.drop (srcIdx data)).take (lenIdx data - srcIdx data),
      (data.drop (lenIdx data)).take 4, ?_, ?_, ?_, ?_⟩
    · have h := @addrForm_addrAt data 0 (by unfold srcIdx at hsrc; omega)
      simpa [srcIdx, fieldsOf] using h
    · have h := @addrForm_addrAt data (srcIdx data) (by unfold lenIdx at hlenFits; omega)
      have hcount : lenIdx data - srcIdx data = 3 + ipLenAt data (srcIdx data) := by
        unfold lenIdx
        omega
      rw [hcount]
      exact h
    · refine ⟨data.getD (lenIdx data) 0, data.getD (lenIdx data + 1) 0,
        data.getD (lenIdx data + 2) 0, data.getD (lenIdx data + 3) 0, ?_, ?_⟩
      · rw [take_drop_succ 3 (by omega), take_drop_succ 2 (by omega), take_drop_succ 1 (by omega),
          take_drop_succ 0 (by omega), List.take_zero]
      · have hlen : (fieldsOf data).payload.length = payloadLen data := by
          simp [fieldsOf]
          omega
        rw [hlen, payloadLen, join32_toNat]
    · have hpayload : (data.drop (lenIdx data + 4)).take (payloadLen data) =
          (data.drop (lenIdx data + 4)).take
            (headerLen data + payloadLen data - (lenIdx data + 4)) := by
        rw [headerLen, Nat.add_sub_cancel_left]
      have hlen : (data.drop (lenIdx data)).take 4 =
          (data.drop (lenIdx data)).take (lenIdx data + 4 - lenIdx data) := by
        rw [Nat.add_sub_cancel_left]
      simp only [fieldsOf]
      rw [take_append_take_drop (by omega), hlen, take_append_take_drop (by omega), headerLen,
        hpayload, take_append_take_drop (by unfold headerLen; omega), headerLen, List.take_append_drop]

end tun2proxy.udppackage
