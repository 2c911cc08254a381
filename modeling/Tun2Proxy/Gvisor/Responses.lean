import Tun2Proxy.Socks.Responses

open tun2proxy.go tun2proxy.socks tun2proxy.udppackage

namespace tun2proxy.proxy

/-- `TriplePage`, the part of a buffer that is read into. -/
def triplePage : Nat := 3 * 1024

/-- `QuadruplePage`, the length of every pooled buffer. -/
def quadruplePage : Nat := 4 * 1024

/-- `copyFromRemote2LocalDestination` with a pooled buffer and the datagrams that arrive
    on the socket, counted from `i` on, before a deadline passes. It returns the payloads
    written to the TUN side, each with the number of its datagram; `written i` is whether
    `WriteTo` of the payload of datagram `i` returns nil. -/
def copyFromRemote2LocalDestination (written : Nat → Bool) (buf : List UInt8) (i : Nat) :
    List (List UInt8) → Outcome (List (Nat × List UInt8))
  | [] => .ret []
  | data :: rest => do
    let raw := readDatagram buf triplePage data
    if raw.len = 0 then
      copyFromRemote2LocalDestination written raw.mem (i + 1) rest
    else
      match ← unpackUDPData raw with
      | .error _ => return []
      | .ok fields =>
        if written i then
          let more ← copyFromRemote2LocalDestination written raw.mem (i + 1) rest
          return (i, fields.payload) :: more
        else return []

/-- Whatever buffer it gets, `copyFromRemote2LocalDestination` writes what is owed. -/
def Copies (incoming : List (List UInt8)) : Prop :=
  ∀ buf : List UInt8, buf.length = quadruplePage →
    copyFromRemote2LocalDestination (fun _ => true) buf 0 incoming = .ret (responses 0 incoming)

/-- Every datagram is empty, or well-formed within the part of the buffer that is read
    into, up to one of less than four bytes after which none is well-formed. -/
def CopiedWhole : List (List UInt8) → Prop
  | [] => True
  | data :: rest =>
    data = [] ∧ CopiedWhole rest ∨
    0 < data.length ∧ data.length < 4 ∧ (∀ later ∈ rest, ¬WellFormed later) ∨
    WellFormed data ∧ headerLen data + payloadLen data ≤ triplePage ∧ CopiedWhole rest

private theorem copies_nil (i : Nat) (buf : List UInt8) (rest : List (List UInt8)) :
    copyFromRemote2LocalDestination (fun _ => true) buf i ([] :: rest) =
      copyFromRemote2LocalDestination (fun _ => true) buf (i + 1) rest := by
  rfl

private theorem len_readDatagram (buf data : List UInt8) :
    (readDatagram buf triplePage data).len = min triplePage data.length := List.length_take

theorem copies_short {data : List UInt8} (hpos : 0 < data.length) (hshort : data.length < 4) (i : Nat)
    (buf : List UInt8) (rest : List (List UInt8)) :
    copyFromRemote2LocalDestination (fun _ => true) buf i (data :: rest) = .ret [] := by
  have hlen : ¬(readDatagram buf triplePage data).len = 0 := by
    rw [len_readDatagram, triplePage]
    omega
  simp [copyFromRemote2LocalDestination, hlen, unpack_readDatagram_short hshort]

private theorem copies_long {data : List UInt8} (hlong : 4 ≤ data.length) (i : Nat) (buf : List UInt8)
    (rest : List (List UInt8)) :
    copyFromRemote2LocalDestination (fun _ => true) buf i (data :: rest) =
      (unpackUDPData (readDatagram buf triplePage data) >>= fun result =>
        match result with
        | .error _ => .ret []
        | .ok fields =>
          copyFromRemote2LocalDestination (fun _ => true) (readDatagram buf triplePage data).mem
            (i + 1) rest >>= fun more => .ret ((i, fields.payload) :: more)) := by
  have hlen : ¬(readDatagram buf triplePage data).len = 0 := by
    rw [len_readDatagram, triplePage]
    omega
  simp [copyFromRemote2LocalDestination, hlen]

/-- A datagram of four bytes or more that does no harm is well-formed and read whole,
    and the rest of the loop does no harm either. -/
theorem copies_step {data : List UInt8} (hlong : 4 ≤ data.length) {i : Nat} {buf : List UInt8}
    {rest : List (List UInt8)}
    (h : copyFromRemote2LocalDestination (fun _ => true) buf i (data :: rest) =
      .ret (responses i (data :: rest))) :
    WellFormed data ∧
      headerLen data + payloadLen data ≤ (readDatagram buf triplePage data).mem.length ∧
      headerLen data ≤ triplePage ∧
      (fieldsOf data).payload = ((readDatagram buf triplePage data).mem.drop (headerLen data)).take
        (payloadLen data) ∧
      copyFromRemote2LocalDestination (fun _ => true) (readDatagram buf triplePage data).mem (i + 1)
        rest = .ret (responses (i + 1) rest) := by
  rw [copies_long hlong] at h
  cases hunpack : unpackUDPData (readDatagram buf triplePage data) with
  | panic =>
    rw [hunpack] at h
    cases h
  | ret result =>
    obtain ⟨hheader, hcap, fields, rfl, hpayload⟩ :=
      unpack_readDatagram_ret hlong (by decide) hunpack
    rw [hunpack, Outcome.ret_bind] at h
    cases hmore : copyFromRemote2LocalDestination (fun _ => true)
        (readDatagram buf triplePage data).mem (i + 1) rest with
    | panic =>
      simp only [hmore] at h
      cases h
    | ret more =>
      simp only [hmore, Outcome.ret_bind, Outcome.ret.injEq] at h
      obtain ⟨hform, hsame, rfl⟩ := wellFormed_of_responses h
      exact ⟨hform, hcap, (Nat.le_min.mp hheader).2, hsame ▸ hpayload, rfl⟩

/-- The last quarter of the buffer is never read into. -/
theorem readDatagram_front {front tail : List UInt8} (hfront : front.length = triplePage)
    (data : List UInt8) : (readDatagram (front ++ tail) triplePage data).mem =
      (data.take triplePage ++ front.drop (data.take triplePage).length) ++ tail := by
  change data.take triplePage ++ (front ++ tail).drop (data.take triplePage).length = _
  rw [List.drop_append_of_le_length, List.append_assoc]
  rw [hfront, List.length_take]
  exact Nat.min_le_left _ _

theorem length_front {front : List UInt8} (hfront : front.length = triplePage) (data : List UInt8) :
    (data.take triplePage ++ front.drop (data.take triplePage).length).length = triplePage := by
  rw [List.length_append, List.length_drop, List.length_take, hfront]
  omega

/-- A payload that reaches into the last quarter depends on what stood there. -/
theorem payload_fits {data front : List UInt8} (hfront : front.length = triplePage)
    (hheader : headerLen data ≤ triplePage)
    (hsame : ∀ tail : List UInt8, tail.length = 1024 → (fieldsOf data).payload =
      ((readDatagram (front ++ tail) triplePage data).mem.drop (headerLen data)).take
        (payloadLen data)) : headerLen data + payloadLen data ≤ triplePage := by
  by_contra hover
  have hlen := length_front hfront data
  have hstale (filler : UInt8) :
      (fieldsOf data).payload[triplePage - headerLen data]? = some filler := by
    rw [hsame (.replicate 1024 filler) List.length_replicate, readDatagram_front hfront,
      List.getElem?_take_of_lt (by omega), List.getElem?_drop, Nat.add_sub_cancel' hheader,
      List.getElem?_append_right (Nat.le_of_eq hlen), hlen, Nat.sub_self, List.getElem?_replicate,
      if_pos (by decide)]
  have hzero := hstale 0
  rw [hstale 1] at hzero
  cases hzero

private theorem whole_of_copies (incoming : List (List UInt8)) :
    ∀ {i : Nat} {f : List UInt8}, f.length = triplePage →
      (∀ tail : List UInt8, tail.length = 1024 →
        copyFromRemote2LocalDestination (fun _ => true) (f ++ tail) i incoming =
          .ret (responses i incoming)) → CopiedWhole incoming := by
  induction incoming with
  | nil => exact fun _ _ => trivial
  | cons data rest ih =>
    intro i front hfront h
    by_cases hshort : data.length < 4
    · by_cases hnil : data = []
      · subst hnil
        refine .inl ⟨rfl, ih (i := i + 1) hfront fun tail htail => ?_⟩
        have hrun := h tail htail
        rwa [copies_nil, responses_cons, if_neg (not_wellFormed_of_short hshort)] at hrun
      · have hpos := List.length_pos_iff.mpr hnil
        have hrun := h (.replicate 1024 0) List.length_replicate
        rw [copies_short hpos hshort, Outcome.ret.injEq, eq_comm, responses_eq_nil_iff] at hrun
        exact .inr (.inl ⟨hpos, hshort, fun later hlater =>
          hrun later (List.mem_cons_of_mem _ hlater)⟩)
    · have hlong : 4 ≤ data.length := Nat.le_of_not_lt hshort
      have hstep := fun tail htail => copies_step hlong (h tail htail)
      obtain ⟨hform, _, hheader, _⟩ := hstep (.replicate 1024 0) List.length_replicate
      refine .inr (.inr ⟨hform, ?_, ?_⟩)
      · exact payload_fits hfront hheader fun tail htail => (hstep tail htail).2.2.2.1
      · refine ih (i := i + 1) (length_front hfront data) fun tail htail => ?_
        rw [← readDatagram_front hfront]
        exact (hstep tail htail).2.2.2.2

private theorem copies_of_whole (incoming : List (List UInt8)) :
    ∀ {i : Nat} {buf : List UInt8}, CopiedWhole incoming →
      copyFromRemote2LocalDestination (fun _ => true) buf i incoming =
        .ret (responses i incoming) := by
  induction incoming with
  | nil => exact fun _ => rfl
  | cons data rest ih =>
    intro i buf hwhole
    obtain ⟨rfl, hrest⟩ | ⟨hpos, hshort, hrest⟩ | ⟨hform, hroom, hrest⟩ := hwhole
    · rw [copies_nil, responses_cons, if_neg (not_wellFormed_of_short (by decide)), ih hrest]
    · rw [copies_short hpos hshort, responses_cons, if_neg (not_wellFormed_of_short hshort),
        responses_eq_nil_iff.mpr hrest]
    · have hten := ten_le_headerLen data
      have hlong : 4 ≤ data.length := by
        unfold WellFormed at hform
        omega
      rw [copies_long hlong, unpack_readDatagram_fits hform hroom, Outcome.ret_bind]
      simp only [ih hrest, Outcome.ret_bind]
      rw [responses_cons, if_pos hform]

private theorem copies_iff (incoming : List (List UInt8)) : Copies incoming ↔ CopiedWhole incoming := by
  constructor
  · intro h
    refine whole_of_copies incoming (i := 0) (f := .replicate triplePage 0) List.length_replicate ?_
    intro tail htail
    refine h _ ?_
    rw [List.length_append, List.length_replicate, htail]
    rfl
  · exact fun hwhole _ _ => copies_of_whole incoming hwhole

/-- Which sequences of datagrams from the proxy reach the client whole, on either
    stack. -/
theorem responses_relayed_iff (incoming : List (List UInt8)) :
    (Fetches incoming ↔ FetchedWhole incoming) ∧ (Copies incoming ↔ CopiedWhole incoming) :=
  ⟨fetches_iff incoming, copies_iff incoming⟩

/-- A response with empty addresses and the payload 7. -/
def response : List UInt8 := [0, 0, 0, 0, 0, 0, 0, 0, 0, 1, 7]

/-- Of two responses `fetchSocksData` writes one. A datagram of one byte ends the loop of
    `copyFromRemote2LocalDestination`, and the response behind it is lost. -/
theorem responses_lost : ¬Fetches [response, response] ∧ ¬Copies [[1], response] := by
  have hform : WellFormed response := by decide
  refine ⟨fun h => ?_, fun h => ?_⟩
  · obtain ⟨_, hrest⟩ := (fetches_iff _).mp h
    exact hrest response (List.mem_singleton_self _) hform
  · obtain ⟨hnil, _⟩ | ⟨_, _, hrest⟩ | ⟨hform', _⟩ := (copies_iff _).mp h
    · cases hnil
    · exact hrest response (List.mem_singleton_self _) hform
    · exact not_wellFormed_of_short (by decide) hform'

end tun2proxy.proxy
