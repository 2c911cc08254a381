import Tun2Proxy.Udp.Layout

open tun2proxy.go tun2proxy.bigendian

namespace tun2proxy.udppackage

/-- An address the wire format can carry: the IP length fits its byte, the port
    is a port, and there is no zone. -/
structure UDPAddr.Packable (addr : UDPAddr) : Prop where
  ip_le : addr.IP.length ≤ 255
  port_nonneg : 0 ≤ addr.Port
  port_le : addr.Port ≤ 65535
  zone_eq : addr.Zone = ""

/-- A datagram the wire format can carry. -/
structure UDPData.Packable (fields : UDPData) : Prop where
  target : fields.target.Packable
  src : fields.src.Packable
  payload_lt : fields.payload.length < 2 ^ 32

/-- `PackUDPData` on non-nil arguments. -/
def UDPData.pack (fields : UDPData) : Except String (List UInt8) :=
  packUDPData (some fields.target) (some fields.src) (some fields.payload)

theorem addrForm_packAddr {addr : UDPAddr} (h : addr.Packable) : AddrForm (packAddr addr) addr := by
  have hlen := h.ip_le
  refine ⟨by omega, h.zone_eq, (addr.Port >>> 8).toUInt64.toUInt8,
    (addr.Port &&& 0xff).toUInt64.toUInt8, rfl, ?_⟩
  rw [← join16_eq_ofNat, join16_split h.port_nonneg h.port_le]

private theorem lenForm_packLen {n : Nat} (hn : n < 2 ^ 32) : LenForm (packLen (UInt32.ofNat n)) n := by
  refine ⟨_, _, _, _, rfl, ?_⟩
  have hjoin := congrArg UInt32.toNat (join32_split (UInt32.ofNat n))
  rw [join32_toNat, UInt32.toNat_ofNat', Nat.mod_eq_of_lt hn] at hjoin
  exact hjoin.symm

/-- A packed datagram, with anything after it, has the wire form. -/
theorem UDPData.Packable.wireForm {fields : UDPData} (h : fields.Packable) {full : List UInt8}
    (hpack : fields.pack = .ok full) (rest : List UInt8) : WireForm (full ++ rest) fields rest := by
  simp only [UDPData.pack, packUDPData, Except.ok.injEq] at hpack
  refine ⟨packAddr fields.target, packAddr fields.src, packLen (UInt32.ofNat fields.payload.length),
    addrForm_packAddr h.target, addrForm_packAddr h.src, lenForm_packLen h.payload_lt, ?_⟩
  rw [← hpack]

/-- More bytes behind a datagram only lengthen its rest. -/
theorem WireForm.append {data rest : List UInt8} {fields : UDPData} (h : WireForm data fields rest)
    (more : List UInt8) : WireForm (data ++ more) fields (rest ++ more) := by
  obtain ⟨target, src, len, htarget, hsrc, hlen, rfl⟩ := h
  exact ⟨target, src, len, htarget, hsrc, hlen, by simp⟩

/-- A datagram of the wire form is parsed, whatever spare capacity its slice has. -/
theorem WireForm.unpackUDPData_eq {data : Slice} {rest : List UInt8} {fields : UDPData}
    (h : WireForm data.bytes fields rest) : unpackUDPData data = .ret (.ok fields) := by
  obtain ⟨spare, hmem⟩ := data.bytes_isPrefix_mem
  have hform := h.append spare
  rw [hmem] at hform
  obtain ⟨hlen, hfields⟩ := hform.offsets
  have hcap := congrArg List.length hmem
  simp only [List.length_append, Slice.length_bytes] at hcap hlen
  rw [unpackUDPData_success (by omega) (by unfold Slice.cap; omega), hfields]

end tun2proxy.udppackage
