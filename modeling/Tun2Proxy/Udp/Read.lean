import Tun2Proxy.Udp.Overread
import Tun2Proxy.Udp.Unpack

open tun2proxy.go

namespace tun2proxy.udppackage

/-! ### One read -/

/-- `Read` of one datagram into the first `room` bytes of `buf`, and the slice of the
    bytes read. What does not fit is lost. -/
def readDatagram (buf : List UInt8) (room : Nat) (data : List UInt8) : Slice :=
  .prefixOf (data.take room ++ buf.drop (data.take room).length) (data.take room).length (by simp)

theorem bytes_readDatagram (buf : List UInt8) (room : Nat) (data : List UInt8) :
    (readDatagram buf room data).bytes = data.take room := by
  change (data.take room ++ buf.drop _).take (data.take room).length = data.take room
  rw [List.take_left]

/-- The lengths of the datagram announce no more than it has. -/
def WellFormed (data : List UInt8) : Prop := headerLen data + payloadLen data ≤ data.length

instance (data : List UInt8) : Decidable (WellFormed data) :=
  inferInstanceAs (Decidable (headerLen data + payloadLen data ≤ data.length))

theorem ten_le_headerLen (data : List UInt8) : 10 ≤ headerLen data := by
  have hsrc := three_le_srcIdx data
  have hlen := srcIdx_le_lenIdx data
  unfold headerLen
  omega

theorem not_wellFormed_of_short {data : List UInt8} (hshort : data.length < 4) :
    ¬WellFormed data := by
  have hten := ten_le_headerLen data
  unfold WellFormed
  omega

/-- These are the datagrams that `UnpackUDPData` accepts. -/
theorem success_unpackUDPData (data : List UInt8) :
    (unpackUDPData (.ofBytes data)).success =
      if WellFormed data then some (fieldsOf data) else none := by
  split
  · rename_i hfits
    rw [@unpackUDPData_success (.ofBytes data) (Nat.le_trans (Nat.le_add_right _ _) hfits) hfits]
    rfl
  · rename_i hnot
    by_cases hshort : data.length < 4
    · rw [@unpackUDPData_short (.ofBytes data) hshort]
      rfl
    · rw [@unpackUDPData_panic (.ofBytes data) (Nat.le_of_not_lt hshort)
        fun _ => Nat.lt_of_not_le hnot]
      rfl

private theorem eq_ret_of_success {ε α : Type} {o : Outcome (Except ε α)} {value : α}
    (h : o.success = some value) : o = .ret (.ok value) := by
  cases o with
  | ret result =>
    cases result with
    | ok _ =>
      cases h
      rfl
    | error _ => cases h
  | panic => cases h

/-- A payload inside a prefix is the same in everything that has this prefix. -/
theorem take_drop_of_eq_take {chunk full : List UInt8} (hfront : chunk <+: full) {i n : Nat}
    (hfits : i + n ≤ chunk.length) : (full.drop i).take n = (chunk.drop i).take n := by
  obtain ⟨more, rfl⟩ := hfront
  rw [List.drop_append_of_le_length (by omega), List.take_append_of_le_length]
  rw [List.length_drop]
  omega

/-- A well-formed datagram that fits is read as it is. -/
theorem unpack_readDatagram_fits {buf : List UInt8} {room : Nat} {data : List UInt8}
    (hform : WellFormed data) (hroom : headerLen data + payloadLen data ≤ room) :
    unpackUDPData (readDatagram buf room data) = .ret (.ok (fieldsOf data)) := by
  have hdata : data.take room <+: data := List.take_prefix room data
  have hmem : data.take room <+: (readDatagram buf room data).mem := List.prefix_append _ _
  have hchunk : headerLen data + payloadLen data ≤ (data.take room).length := by
    rw [List.length_take]
    exact Nat.le_min.mpr ⟨hroom, hform⟩
  obtain ⟨hheader, hpayload⟩ := headerLen_of_prefix hdata (.inr (by omega))
  rw [hheader, hpayload] at hchunk
  have hread := unpackPrefix_success hmem (by omega) (hchunk.trans hmem.length_le)
  have hwhole := unpackPrefix_success hdata (by omega) (hchunk.trans hdata.length_le)
  have hfields : (unpackPrefix (data.take room) data hdata).success = some (fieldsOf data) := by
    rw [unpackPrefix, unpackUDPData_success]
    · rfl
    · change headerLen data ≤ (data.take room).length
      omega
    · exact hform
  rw [hfields, take_drop_of_eq_take hdata hchunk] at hwhole
  rw [take_drop_of_eq_take hmem hchunk, ← hwhole] at hread
  exact eq_ret_of_success hread

theorem unpack_readDatagram_short {buf : List UInt8} {room : Nat} {data : List UInt8}
    (hshort : data.length < 4) :
    unpackUDPData (readDatagram buf room data) = .ret (.error "data too short") := by
  refine unpackUDPData_short ?_
  change (data.take room).length < 4
  rw [List.length_take]
  omega

/-- A longer datagram is not refused. If the parser returns, the header was complete
    and the payload, as announced, fitted the buffer. -/
theorem unpack_readDatagram_ret {buf : List UInt8} {room : Nat} {data : List UInt8}
    {result : Except String UDPData} (hlong : 4 ≤ data.length) (hroom : 4 ≤ room)
    (hret : unpackUDPData (readDatagram buf room data) = .ret result) :
    headerLen data ≤ min data.length room ∧
      headerLen data + payloadLen data ≤ (readDatagram buf room data).mem.length ∧
      ∃ fields, result = .ok fields ∧
        fields.payload = ((readDatagram buf room data).mem.drop (headerLen data)).take
          (payloadLen data) := by
  have hdata : data.take room <+: data := List.take_prefix room data
  have hmem : data.take room <+: (readDatagram buf room data).mem := List.prefix_append _ _
  have hlen : (data.take room).length = min data.length room := by
    rw [List.length_take, Nat.min_comm]
  have hfour : 4 ≤ (readDatagram buf room data).len := by
    change 4 ≤ (data.take room).length
    omega
  by_cases hfits : headerLen (readDatagram buf room data).mem ≤ (data.take room).length ∧
      headerLen (readDatagram buf room data).mem + payloadLen (readDatagram buf room data).mem ≤
        (readDatagram buf room data).mem.length
  · obtain ⟨hheader, hcap⟩ := hfits
    obtain ⟨hh, hp⟩ := headerLen_of_prefix hmem (.inr hheader)
    obtain ⟨hh', hp'⟩ := headerLen_of_prefix hdata (.inl (hh ▸ hheader))
    rw [unpackUDPData_success hheader hcap] at hret
    cases hret
    rw [hh', hp', ← hh, ← hp, ← hlen]
    exact ⟨hheader, hcap, _, rfl, rfl⟩
  · have hpanic := unpackUDPData_panic hfour fun hheader => by
      by_contra hcap
      exact hfits ⟨hheader, Nat.le_of_not_lt hcap⟩
    rw [hpanic] at hret
    cases hret

/-- With a complete header, it is enough that the announced payload fits the buffer. -/
theorem unpack_readDatagram_header {buf : List UInt8} {room : Nat} {data : List UInt8}
    (hheader : headerLen data ≤ min data.length room)
    (hcap : headerLen data + payloadLen data ≤ (readDatagram buf room data).mem.length) :
    ∃ fields, unpackUDPData (readDatagram buf room data) = .ret (.ok fields) := by
  have hdata : data.take room <+: data := List.take_prefix room data
  have hmem : data.take room <+: (readDatagram buf room data).mem := List.prefix_append _ _
  have hchunk : headerLen data ≤ (data.take room).length := by
    rw [List.length_take, Nat.min_comm]
    exact hheader
  obtain ⟨hh, hp⟩ := headerLen_of_prefix hdata (.inr hchunk)
  obtain ⟨hh', hp'⟩ := headerLen_of_prefix hmem (.inl (hh ▸ hchunk))
  have hsuccess := @unpackUDPData_success (readDatagram buf room data)
    (by rw [hh', ← hh]; exact hchunk) (by rw [hh', hp', ← hh, ← hp]; exact hcap)
  exact ⟨_, hsuccess⟩

theorem length_take_drop {mem : List UInt8} {i n : Nat} (hfits : i + n ≤ mem.length) :
    ((mem.drop i).take n).length = n := by
  rw [List.length_take, List.length_drop]
  omega

/-- The buffer keeps its length. -/
theorem length_readDatagram {buf : List UInt8} {room : Nat} (hroom : room ≤ buf.length)
    (data : List UInt8) : (readDatagram buf room data).mem.length = buf.length := by
  change (data.take room ++ buf.drop (data.take room).length).length = buf.length
  rw [List.length_append, List.length_drop, List.length_take]
  omega

/-! ### What is owed to the client -/

/-- The payloads of the well-formed datagrams of a sequence, in order, each with the
    number of its datagram. -/
def responses (i : Nat) : List (List UInt8) → List (Nat × List UInt8)
  | [] => []
  | data :: rest =>
    match (unpackUDPData (.ofBytes data)).success with
    | some fields => (i, fields.payload) :: responses (i + 1) rest
    | none => responses (i + 1) rest

theorem responses_cons (i : Nat) (data : List UInt8) (rest : List (List UInt8)) :
    responses i (data :: rest) =
      if WellFormed data then (i, (fieldsOf data).payload) :: responses (i + 1) rest
      else responses (i + 1) rest := by
  rw [responses, success_unpackUDPData]
  split_ifs <;> rfl

private theorem le_of_mem_responses {incoming : List (List UInt8)} :
    ∀ {i : Nat} {x : Nat × List UInt8}, x ∈ responses i incoming → i ≤ x.1 := by
  induction incoming with
  | nil =>
    intro i x hx
    cases hx
  | cons data rest ih =>
    intro i x hx
    rw [responses_cons] at hx
    split at hx
    · obtain rfl | hx := List.mem_cons.mp hx
      · exact Nat.le_refl _
      · exact Nat.le_of_succ_le (ih hx)
    · exact Nat.le_of_succ_le (ih hx)

theorem responses_eq_nil_iff {incoming : List (List UInt8)} :
    ∀ {i : Nat}, responses i incoming = [] ↔ ∀ data ∈ incoming, ¬WellFormed data := by
  induction incoming with
  | nil => simp [responses]
  | cons data rest ih =>
    intro i
    rw [responses_cons]
    by_cases hform : WellFormed data
    · simp [hform]
    · simp [hform, ih]

/-- A payload for a datagram is owed only if that datagram is well-formed. -/
theorem wellFormed_of_responses {i : Nat} {data payload : List UInt8}
    {rest : List (List UInt8)} {more : List (Nat × List UInt8)}
    (h : (i, payload) :: more = responses i (data :: rest)) :
    WellFormed data ∧ payload = (fieldsOf data).payload ∧ more = responses (i + 1) rest := by
  rw [responses_cons] at h
  split at h
  · rename_i hform
    obtain ⟨hhead, hmore⟩ := List.cons.inj h
    exact ⟨hform, (Prod.mk.inj hhead).2, hmore⟩
  · have hle := @le_of_mem_responses rest (i + 1) (i, payload) (h ▸ List.mem_cons_self)
    exact absurd hle (Nat.not_succ_le_self i)

end tun2proxy.udppackage
