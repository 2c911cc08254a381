import Tun2Proxy.Udp.Layout

open tun2proxy.go

namespace tun2proxy.udppackage

/-- The parser's answer on `buf[:len(d)]` for a buffer that starts with the
    datagram `d`. -/
def unpackPrefix (data buf : List UInt8) (hbuf : data <+: buf) : Outcome (Except String UDPData) :=
  unpackUDPData (.prefixOf buf data.length hbuf.length_le)

/-- No over-read of a datagram received into buffers of the given capacities:
    what follows it in the buffer has no influence, and every byte returned
    lies inside the datagram. -/
structure NoOverread (caps : Nat → Prop) (data : List UInt8) : Prop where
  same : ∀ (a b : List UInt8) (ha : data <+: a) (hb : data <+: b),
    caps a.length → caps b.length → data.length < a.length → data.length < b.length →
    (unpackPrefix data a ha).success = (unpackPrefix data b hb).success
  inside : ∀ (a : List UInt8) (ha : data <+: a), caps a.length → data.length < a.length →
    ∀ fields, (unpackPrefix data a ha).success = some fields →
      fields.target.IP <:+: data ∧ fields.src.IP <:+: data ∧ fields.payload <:+: data

private theorem getD_of_prefix {data buf : List UInt8} (hbuf : data <+: buf) {i : Nat}
    (hi : i < data.length) : buf.getD i 0 = data.getD i 0 := by
  obtain ⟨more, rfl⟩ := hbuf
  exact List.getD_append data more 0 i hi

private theorem ipLenAt_of_prefix {data buf : List UInt8} (hbuf : data <+: buf) {idx : Nat}
    (hidx : idx < data.length) : ipLenAt buf idx = ipLenAt data idx := by
  rw [ipLenAt, ipLenAt, getD_of_prefix hbuf hidx]

/-- A header that fits the datagram is read from the datagram alone. -/
theorem lenIdx_of_prefix {data buf : List UInt8} (hbuf : data <+: buf)
    (hfits : lenIdx data < data.length ∨ lenIdx buf < data.length) :
    srcIdx buf = srcIdx data ∧ lenIdx buf = lenIdx data := by
  have hd := srcIdx_le_lenIdx data
  have hb := srcIdx_le_lenIdx buf
  have hd3 := three_le_srcIdx data
  have hb3 := three_le_srcIdx buf
  have hsrc : srcIdx buf = srcIdx data := by
    rw [srcIdx, srcIdx, ipLenAt_of_prefix hbuf (by omega)]
  have hlen : ipLenAt buf (srcIdx buf) = ipLenAt data (srcIdx data) := by
    rw [hsrc, ipLenAt_of_prefix hbuf (by omega)]
  exact ⟨hsrc, by rw [lenIdx, lenIdx, hlen, hsrc]⟩

theorem headerLen_of_prefix {data buf : List UInt8} (hbuf : data <+: buf)
    (hfits : headerLen data ≤ data.length ∨ headerLen buf ≤ data.length) :
    headerLen buf = headerLen data ∧ payloadLen buf = payloadLen data := by
  simp only [headerLen] at hfits
  obtain ⟨_, hlen⟩ := lenIdx_of_prefix hbuf (by omega)
  refine ⟨by rw [headerLen, headerLen, hlen], ?_⟩
  rw [payloadLen, payloadLen, hlen, getD_of_prefix hbuf (by omega), getD_of_prefix hbuf (by omega),
    getD_of_prefix hbuf (by omega), getD_of_prefix hbuf (by omega)]

/-- Without a header inside the datagram the parser fails in every buffer. -/
theorem unpackPrefix_no_header {data buf : List UInt8} (hbuf : data <+: buf)
    (hheader : data.length < headerLen data) : (unpackPrefix data buf hbuf).success = none := by
  by_cases hshort : data.length < 4
  · rw [unpackPrefix, unpackUDPData_short (by exact hshort), Outcome.success_error]
  · have hnot : ¬ headerLen buf ≤ data.length := by
      intro hfits
      obtain ⟨heq, _⟩ := headerLen_of_prefix hbuf (Or.inr hfits)
      omega
    rw [unpackPrefix, unpackUDPData_panic (by change 4 ≤ data.length; omega)
      (fun h => absurd h hnot), Outcome.success_panic]

/-- A complete header whose payload does not fit the capacity panics. -/
theorem unpackPrefix_no_capacity {data buf : List UInt8} (hbuf : data <+: buf)
    (hheader : headerLen data ≤ data.length)
    (hcap : buf.length < headerLen data + payloadLen data) :
    (unpackPrefix data buf hbuf).success = none := by
  obtain ⟨hh, hp⟩ := headerLen_of_prefix hbuf (Or.inl hheader)
  have hten : 4 ≤ headerLen data := by unfold headerLen; omega
  rw [unpackPrefix, unpackUDPData_panic (by change 4 ≤ data.length; omega)
    (fun _ => by change buf.length < headerLen buf + payloadLen buf; omega), Outcome.success_panic]

/-- A complete header whose payload fits the capacity succeeds, with the payload
    taken from the buffer even where the datagram has ended. -/
theorem unpackPrefix_success {data buf : List UInt8} (hbuf : data <+: buf)
    (hheader : headerLen data ≤ data.length)
    (hcap : headerLen data + payloadLen data ≤ buf.length) :
    (unpackPrefix data buf hbuf).success =
      some { fieldsOf data with payload := (buf.drop (headerLen data)).take (payloadLen data) } := by
  obtain ⟨hh, hp⟩ := headerLen_of_prefix hbuf (Or.inl hheader)
  have haddr {idx : Nat} (hidx : idx + 3 + ipLenAt data idx ≤ data.length) :
      addrAt buf idx = addrAt data idx := by
    have hlen := ipLenAt_of_prefix hbuf (show idx < data.length by omega)
    have hip : (buf.drop (idx + 1)).take (ipLenAt data idx) =
        (data.drop (idx + 1)).take (ipLenAt data idx) := by
      obtain ⟨more, rfl⟩ := hbuf
      rw [List.drop_append_of_le_length (by omega), List.take_append_of_le_length (by simp; omega)]
    rw [addrAt, addrAt, hlen, hip, getD_of_prefix hbuf (by omega), getD_of_prefix hbuf (by omega)]
  obtain ⟨hs, _⟩ := lenIdx_of_prefix hbuf (Or.inl (by unfold headerLen at hheader; omega))
  have hsrcLe := srcIdx_le_lenIdx data
  have hfields : fieldsOf buf =
      { fieldsOf data with payload := (buf.drop (headerLen data)).take (payloadLen data) } := by
    unfold headerLen lenIdx at hheader
    simp only [fieldsOf]
    rw [hs, hh, hp, haddr (by unfold srcIdx at hheader; omega), haddr (by omega)]
  rw [unpackPrefix, unpackUDPData_success (by change headerLen buf ≤ data.length; omega)
    (by change headerLen buf + payloadLen buf ≤ buf.length; omega), Outcome.success_ok]
  exact congrArg some hfields

/-- Filling the spare capacity with one byte value: the first payload byte behind
    the datagram is the filler. -/
private theorem payload_filler {data : List UInt8} {cap : Nat} (filler : UInt8)
    (hheader : headerLen data ≤ data.length)
    (hlong : data.length < headerLen data + payloadLen data)
    (hcap : headerLen data + payloadLen data ≤ cap) :
    (((data ++ List.replicate (cap - data.length) filler).drop (headerLen data)).take
      (payloadLen data))[data.length - headerLen data]? = some filler := by
  have hpos : data.length - headerLen data < payloadLen data := by omega
  have hspare : 0 < cap - data.length := by omega
  rw [List.getElem?_take_of_lt hpos, List.getElem?_drop]
  simp [Nat.add_sub_cancel' hheader, hspare]

private theorem length_filled {data : List UInt8} {cap : Nat} (hcap : data.length ≤ cap)
    (filler : UInt8) :
    (data ++ List.replicate (cap - data.length) filler).length = cap := by
  simp
  omega

/-- Two buffers of one capacity that differ behind the datagram give different
    payloads when the header is complete and the payload reaches past the end. -/
theorem unpackPrefix_differs {data : List UInt8} {cap : Nat}
    (hheader : headerLen data ≤ data.length)
    (hlong : data.length < headerLen data + payloadLen data)
    (hcap : headerLen data + payloadLen data ≤ cap) :
    (unpackPrefix data (data ++ List.replicate (cap - data.length) 0)
      (List.prefix_append _ _)).success ≠
      (unpackPrefix data (data ++ List.replicate (cap - data.length) 1)
        (List.prefix_append _ _)).success := by
  intro hsame
  have hlen := @length_filled data cap (by omega)
  rw [unpackPrefix_success _ hheader (by rw [hlen]; exact hcap),
    unpackPrefix_success _ hheader (by rw [hlen]; exact hcap)] at hsame
  have hpayload := congrArg (fun fields => (Option.map UDPData.payload fields)) hsame
  simp only [Option.map_some, Option.some.injEq] at hpayload
  have hzero := payload_filler 0 hheader hlong hcap
  have hone := payload_filler 1 hheader hlong hcap
  rw [hpayload, hone] at hzero
  simp at hzero

/-- The parser leaves the bytes behind a datagram alone exactly when the header
    is incomplete, the payload it announces is there, or it is too long for
    every buffer. Otherwise stale bytes of the buffer are returned as payload. -/
theorem noOverread_iff (caps : Nat → Prop) (data : List UInt8) :
    NoOverread caps data ↔
      (headerLen data ≤ data.length → headerLen data + payloadLen data ≤ data.length ∨
        ∀ cap, caps cap → cap < headerLen data + payloadLen data) := by
  constructor
  · intro hno hheader
    by_contra hnot
    push Not at hnot
    obtain ⟨hlong, cap, hcaps, hcap⟩ := hnot
    have hlen := @length_filled data cap (by omega)
    apply unpackPrefix_differs hheader hlong hcap
    apply hno.same <;> rw [hlen] <;> first | exact hcaps | omega
  · intro hsafe
    by_cases hheader : headerLen data ≤ data.length
    · rcases hsafe hheader with hfits | hlarge
      · have hrun {buf : List UInt8} (hbuf : data <+: buf) :
            (unpackPrefix data buf hbuf).success = some (fieldsOf data) := by
          rw [unpackPrefix_success hbuf hheader (hfits.trans hbuf.length_le)]
          obtain ⟨more, rfl⟩ := hbuf
          rw [List.drop_append_of_le_length hheader, List.take_append_of_le_length (by simp; omega)]
          rfl
        refine ⟨fun a b ha hb _ _ _ _ => by rw [hrun ha, hrun hb],
          fun a ha _ _ fields hfields => ?_⟩
        rw [hrun ha] at hfields
        cases hfields
        have hinside (i n : Nat) : (data.drop i).take n <:+: data :=
          (List.take_prefix _ _).isInfix.trans (List.drop_suffix _ _).isInfix
        exact ⟨hinside _ _, hinside _ _, hinside _ _⟩
      · have hrun {buf : List UInt8} (hbuf : data <+: buf) (hcaps : caps buf.length) :
            (unpackPrefix data buf hbuf).success = none :=
          unpackPrefix_no_capacity hbuf hheader (hlarge _ hcaps)
        refine ⟨fun a b ha hb hca hcb _ _ => by rw [hrun ha hca, hrun hb hcb],
          fun a ha hca _ fields hfields => ?_⟩
        rw [hrun ha hca] at hfields
        cases hfields
    · have hrun {buf : List UInt8} (hbuf : data <+: buf) :
          (unpackPrefix data buf hbuf).success = none :=
        unpackPrefix_no_header hbuf (by omega)
      refine ⟨fun a b ha hb _ _ _ _ => by rw [hrun ha, hrun hb], fun a ha _ _ fields hfields => ?_⟩
      rw [hrun ha] at hfields
      cases hfields

/-- A ten-byte datagram with empty IPs that announces one payload byte, received
    into a pooled buffer: the payload is a stale byte of the buffer. -/
theorem overread_pooled :
    ¬ NoOverread (fun cap => cap = 4096) [0, 0, 0, 0, 0, 0, 0, 0, 0, 1] := by
  intro hno
  have hheader : headerLen [0, 0, 0, 0, 0, 0, 0, 0, 0, 1] = 10 := by decide
  have hpayload : payloadLen [0, 0, 0, 0, 0, 0, 0, 0, 0, 1] = 1 := by decide
  have hlen := @length_filled [0, 0, 0, 0, 0, 0, 0, 0, 0, 1] 4096 (by decide)
  have hdiff := @unpackPrefix_differs [0, 0, 0, 0, 0, 0, 0, 0, 0, 1] 4096 (by rw [hheader]; decide)
    (by rw [hheader, hpayload]; decide) (by rw [hheader, hpayload]; decide)
  exact hdiff (hno.same _ _ _ _ (hlen 0) (hlen 1) (by rw [hlen 0]; decide) (by rw [hlen 1]; decide))

end tun2proxy.udppackage
