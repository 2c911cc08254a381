import Tun2Proxy.Lwip.Outgoing

open tun2proxy.circular tun2proxy.split

namespace tun2proxy.core

/-! ### The last unsent segment -/

private theorem flatten_appendLast {p : List (List UInt8)} (hp : p ≠ []) (data : List UInt8) :
    (appendLast p data).flatten = p.flatten ++ data ∧ (appendLast p data).length = p.length := by
  induction p with
  | nil => exact absurd rfl hp
  | cons q next ih =>
    obtain _ | ⟨q', next⟩ := next
    · simp [appendLast]
    · obtain ⟨hflat, hlen⟩ := ih (by simp)
      have happend : appendLast (q :: q' :: next) data = q :: appendLast (q' :: next) data := rfl
      rw [happend, List.flatten_cons, hflat, List.length_cons, hlen, ← List.append_assoc]
      exact ⟨rfl, rfl⟩

/-- `seg'` is `seg` with more data behind what it has. -/
structure Grown (seg seg' : SndSeg) (more : List UInt8) : Prop where
  seqno : seg'.seqno = seg.seqno
  fin : seg'.fin = seg.fin
  data : seg'.data = seg.data ++ more
  sound : seg'.Sound

theorem Grown.trans {seg seg' seg'' : SndSeg} {more more' : List UInt8} (h : Grown seg seg' more)
    (h' : Grown seg' seg'' more') : Grown seg seg'' (more ++ more') where
  seqno := h'.seqno.trans h.seqno
  fin := h'.fin.trans h.fin
  data := by rw [h'.data, h.data, List.append_assoc]
  sound := h'.sound

theorem Grown.tcplen {seg seg' : SndSeg} {more : List UInt8} (h : Grown seg seg' more) :
    seg'.tcplen = seg.tcplen + more.length := by
  rw [SndSeg.tcplen, SndSeg.len, h.data, h.fin, List.length_append, SndSeg.tcplen, SndSeg.len]
  omega

/-- The first phase copies into the room that the last pbuf has. -/
theorem copyDirect_spec {seg : SndSeg} {data : List UInt8} (hsound : seg.Sound)
    (hroom : data.length ≤ seg.room) (hleft : data.length ≤ seg.oversize_left)
    (hlen : data.length < 2 ^ 16) :
    ∃ seg', seg.copyDirect data = some seg' ∧ Grown seg seg' data ∧ seg'.clen = seg.clen ∧
      seg'.room = seg.room - data.length ∧ seg'.oversize_left = seg.oversize_left - data.length := by
  rw [SndSeg.copyDirect]
  by_cases hnil : data = []
  · rw [if_pos hnil, hnil]
    exact ⟨seg, rfl, ⟨rfl, rfl, (List.append_nil _).symm, hsound⟩, rfl, rfl, rfl⟩
  · obtain ⟨hflat, hclen⟩ := flatten_appendLast hsound.p data
    rw [if_neg hnil, if_pos hroom, LWIP_ASSERT_of hleft]
    refine ⟨_, rfl, ⟨rfl, rfl, hflat, ?_, .inl rfl, ?_⟩, hclen, rfl, rfl⟩
    · rw [SndSeg.data]
      dsimp only
      rw [hflat]
      exact hsound.sum.copy hlen
    · intro hempty
      have hzero := congrArg List.length hempty
      have hpos := List.length_pos_iff.mpr hsound.p
      rw [hclen, List.length_nil] at hzero
      omega

/-- The second phase chains a pbuf to it. -/
theorem concatTail_spec {seg : SndSeg} {concat : List UInt8} (hsound : seg.Sound)
    (hlen : concat.length < 2 ^ 16) (oversize : Nat) :
    Grown seg (seg.concatTail concat oversize) concat ∧
      (seg.concatTail concat oversize).clen = seg.clen + (if concat = [] then 0 else 1) ∧
      (seg.concatTail concat oversize).oversize_left = seg.oversize_left ∧
      (concat = [] → (seg.concatTail concat oversize).room = seg.room) ∧
      (concat ≠ [] → (seg.concatTail concat oversize).room = oversize) := by
  rw [SndSeg.concatTail]
  by_cases hnil : concat = []
  · rw [if_pos hnil, if_pos hnil, hnil]
    exact ⟨⟨rfl, rfl, (List.append_nil _).symm, hsound⟩, rfl, rfl, fun _ => rfl,
      fun hne => absurd rfl hne⟩
  · have hflat : (seg.p ++ [concat]).flatten = seg.p.flatten ++ concat := by simp
    rw [if_neg hnil, if_neg hnil]
    refine ⟨⟨rfl, rfl, hflat, ?_, .inl rfl, by simp⟩, by simp [SndSeg.clen], rfl,
      fun h => absurd h hnil, fun _ => rfl⟩
    rw [SndSeg.data]
    dsimp only
    rw [hflat]
    have hcopy := SegChksum.Sums.nil.copy hlen
    exact hsound.sum.add hcopy.unswapped

/-- What the first two phases take of the data. -/
structure SndPcb.Filled.Of (pcb : SndPcb) (last : SndSeg) (data : List UInt8) (f : SndPcb.Filled) : Prop where
  concat : f.concat = (data.drop f.oversize_used).take f.concat.length
  pos : f.oversize_used + f.concat.length ≤ data.length
  used : f.oversize_used ≤ pcb.unsent_oversize
  len : last.len + f.oversize_used + f.concat.length + f.oversize ≤ pcb.mss_local
  queuelen : f.queuelen = pcb.snd_queuelen + if f.concat = [] then 0 else 1
  oversize : f.concat = [] → f.oversize + f.oversize_used = pcb.unsent_oversize
  full : f.concat ≠ [] → f.oversize_used = pcb.unsent_oversize

private theorem fillTail_nil {pcb : SndPcb} {data : List UInt8} {more : Bool} {mem : Nat}
    {res : Option SndPcb.Filled} (hnil : pcb.unsent = [])
    (h : pcb.fillTail data more mem = some res) :
    res = some ⟨0, [], 0, pcb.snd_queuelen, mem⟩ ∧ pcb.unsent_oversize = 0 := by
  rw [SndPcb.fillTail, hnil, List.getLast?_nil] at h
  obtain ⟨_, hassert, h⟩ := Option.bind_eq_some_iff.mp h
  cases h
  exact ⟨rfl, LWIP_ASSERT_eq_some.mp hassert⟩

theorem fillTail_spec {pcb : SndPcb} {last : SndSeg} {data : List UInt8} {more : Bool} {mem : Nat}
    {f : SndPcb.Filled} (hlast : pcb.unsent.getLast? = some last)
    (h : pcb.fillTail data more mem = some (some f)) : f.Of pcb last data := by
  rw [SndPcb.fillTail, hlast] at h
  dsimp only at h
  obtain ⟨_, hfits, h⟩ := Option.bind_eq_some_iff.mp h
  obtain ⟨_, -, h⟩ := Option.bind_eq_some_iff.mp h
  obtain ⟨_, hspace, h⟩ := Option.bind_eq_some_iff.mp h
  obtain ⟨_, hdone, h⟩ := Option.bind_eq_some_iff.mp h
  rw [LWIP_ASSERT_eq_some] at hfits hspace hdone
  generalize hused : min (pcb.mss_local - last.len) (min pcb.unsent_oversize data.length) = used at h hdone
  obtain ⟨hchain, h⟩ | ⟨-, h⟩ := ite_eq_iff.mp h
  · obtain ⟨-, h⟩ | ⟨-, h⟩ := ite_eq_iff.mp h
    · cases h
    · cases h
      generalize hseglen : min (pcb.mss_local - last.len - used) (data.drop used).length = seglen
      rw [List.length_drop] at hseglen
      have htake : ((data.drop used).take seglen).length = seglen := by
        rw [List.length_take, List.length_drop]
        omega
      have hleft : 0 < (data.drop used).length := List.length_pos_iff.mpr hchain.1
      rw [List.length_drop] at hleft
      have hprealloc := pcb.tcp_pbuf_prealloc_le
        (show seglen ≤ pcb.mss_local - last.len - used by omega) more true
      have hne : (data.drop used).take seglen ≠ [] := by
        apply List.length_pos_iff.mp
        omega
      refine ⟨?_, ?_, ?_, ?_, ?_, ?_, ?_⟩
      · dsimp only
        rw [htake]
      · dsimp only
        omega
      · dsimp only
        omega
      · dsimp only
        omega
      · dsimp only
        rw [if_neg hne]
      · intro hnil
        exact absurd hnil hne
      · intro _
        dsimp only
        omega
  · cases h
    exact ⟨by simp, by simp; omega, by dsimp only; omega, by simp; omega, by simp, fun _ => by
      dsimp only; omega, fun hne => absurd rfl hne⟩

/-! ### The new end of `unsent` -/

namespace NewSegs

variable {stream : List UInt8} {iss : BitVec 32} {a mss oversize queuelen queuelen' : Nat}
  {q : SndPcb.Queued}

/-- The new segments stand behind the old last one, which may have grown. -/
theorem cons {seg seg' : SndSeg} {more : List UInt8} {prior : List UInt8} {clen room : Nat}
    (h : NewSegs (prior ++ more ++ stream) iss (prior.length + more.length) mss oversize queuelen q)
    (hseg : SegOf prior iss a seg.received) (hend : a + seg.len = prior.length) (hpos : 0 < seg.tcplen)
    (hfin : seg.fin = false) (hgrown : Grown seg seg' more) (hclen : seg'.clen = clen)
    (hmss : mss ≤ TCP_MSS) (hlen : seg'.len + room ≤ mss) (hroom : seg'.Left room)
    (hnil : q.queue = [] → oversize = room) (hqueuelen : queuelen = queuelen' + clen) :
    NewSegs (prior ++ more ++ stream) iss a mss room queuelen' { q with queue := seg' :: q.queue } := by
  have htcplen : a + seg'.tcplen = prior.length + more.length := by
    rw [hgrown.tcplen, SndSeg.tcplen, hfin, Bool.toNat_false]
    omega
  have hdata : (prior ++ more ++ stream).drop a = seg.data ++ (more ++ stream) := by
    have hwhole : seg.data = prior.drop a := by
      apply hseg.data.eq_of_length
      rw [List.length_drop, SndSeg.received_data, ← SndSeg.len]
      omega
    rw [List.append_assoc, List.drop_append_of_le_length hseg.place, hwhole]
  have hsmall : TCP_MSS = 1460 := rfl
  refine ⟨⟨⟨?_, ?_, ?_, ?_, ?_⟩, ?_, ?_⟩, ?_, ?_, ?_, ?_, ?_⟩
  · rw [SndSeg.received_seqno, hgrown.seqno]
    exact hseg.seqno
  · rw [SndSeg.received_data, hgrown.data, hdata, ← List.append_assoc]
    exact List.prefix_append _ _
  · intro hfin'
    rw [SndSeg.received_fin, hgrown.fin, hfin] at hfin'
    cases hfin'
  · rw [List.append_assoc, List.length_append]
    omega
  · rw [SndSeg.received_data, ← SndSeg.len]
    omega
  · rw [hgrown.tcplen]
    omega
  · rw [htcplen]
    exact h.tiles
  · intro s hs
    rcases List.mem_cons.mp hs with rfl | hs
    · exact hgrown.sound
    · exact h.sound s hs
  · intro s hs
    rcases List.mem_cons.mp hs with rfl | hs
    · omega
    · exact h.len s hs
  · have hsum := h.queuelen
    rw [List.map_cons, List.sum_cons, hclen]
    dsimp only
    omega
  · simp
  · intro last hlast
    rw [List.getLast?_cons] at hlast
    rcases hrest : q.queue.getLast? with _ | s
    · rw [hrest] at hlast
      cases hlast
      have hempty := List.getLast?_eq_none_iff.mp hrest
      rw [Option.getD_none]
      dsimp only
      rw [h.nil hempty, hnil hempty]
      exact ⟨hroom, hlen⟩
    · rw [hrest] at hlast
      cases hlast
      exact h.last s hrest

/-- PSH makes no difference. -/
theorem push (h : NewSegs stream iss a mss oversize queuelen q) :
    NewSegs stream iss a mss oversize queuelen { q with queue := pushLast q.queue } := by
  obtain hnil | ⟨init, x, hq⟩ := List.eq_nil_or_concat q.queue
  · have hsame : { q with queue := pushLast q.queue } = q := by
      rw [hnil, pushLast, ← hnil]
    rw [hsame]
    exact h
  · have hpush : ∀ init : List SndSeg, pushLast (init ++ [x]) = init ++ [{ x with psh := true }] := by
      intro init
      induction init with
      | nil => rfl
      | cons s rest ih =>
        obtain _ | ⟨s', rest⟩ := rest
        · rfl
        · exact congrArg (s :: ·) ih
    have htiles := h.tiles
    have hsound := h.sound
    have hlen := h.len
    have hqueuelen := h.queuelen
    have hlast := h.last
    rw [List.concat_eq_append] at hq
    rw [hq, hpush]
    rw [hq] at htiles hsound hlen hqueuelen hlast
    obtain ⟨b, hinit, hx⟩ := Tiles.append_iff.mp htiles
    refine ⟨Tiles.append_iff.mpr ⟨b, hinit, hx⟩, ?_, ?_, ?_, by simp, ?_⟩
    · intro s hs
      rcases List.mem_append.mp hs with hs | hs
      · exact hsound s (List.mem_append_left _ hs)
      · cases List.mem_singleton.mp hs
        have hx := hsound x (by simp)
        exact ⟨hx.sum, hx.checksummed, hx.p⟩
    · intro s hs
      rcases List.mem_append.mp hs with hs | hs
      · exact hlen s (List.mem_append_left _ hs)
      · cases List.mem_singleton.mp hs
        exact hlen x (by simp)
    · rw [List.map_append] at hqueuelen ⊢
      exact hqueuelen
    · intro last hlast'
      rw [List.getLast?_concat] at hlast'
      cases hlast'
      exact hlast x List.getLast?_concat

end NewSegs

namespace Outgoing

variable {fixed wide : Prop} {stream data : List UInt8} {iss : BitVec 32} {all : List SndSeg}
  {una ack nxt : Nat} {pcb pcb' : SndPcb}

/-- The queues with a new end of `unsent`. -/
theorem replaceTail {init rest : List SndSeg} {m oversize : Nat} {q : SndPcb.Queued}
    (h : Outgoing fixed wide stream iss all una ack nxt pcb) (hfin : pcb.fin = false)
    (hsplit : Split rest pcb.unacked init) (htiles : Tiles stream iss una m rest)
    (hm : m ≤ stream.length) (hrest : ∀ seg ∈ rest, seg ∈ all)
    (hnew : NewSegs (stream ++ data) iss m pcb.mss_local oversize (rest.map SndSeg.clen).sum q)
    (hnil : q.queue = [] → init = [] ∧ q.oversize = 0)
    (hpending : pcb.persist_backoff = 0 → ∀ seg tail, rest ++ q.queue = seg :: tail → ack ≤ una + seg.len)
    (hdata : data.length ≤ pcb.snd_buf) :
    Outgoing fixed wide (stream ++ data) iss (rest ++ q.queue) una ack nxt
      { pcb with
        unsent := init ++ q.queue
        unsent_oversize := q.oversize
        snd_lbb := pcb.snd_lbb + BitVec.ofNat 32 data.length
        snd_buf := pcb.snd_buf - data.length
        snd_queuelen := q.queuelen } := by
  have hlast : ∀ last ∈ (init ++ q.queue).getLast?, last.Left q.oversize ∧
      last.len + q.oversize ≤ pcb.mss_local := by
    intro last hlast
    rcases hq : q.queue.getLast? with _ | x
    · have hempty := List.getLast?_eq_none_iff.mp hq
      rw [hempty, (hnil hempty).1] at hlast
      cases hlast
    · rw [List.getLast?_append, hq] at hlast
      cases hlast
      exact hnew.last _ hq
  have happend := hsplit.append (Split.all_right q.queue)
  rw [List.append_nil] at happend
  refine ⟨happend, ?_, ?_, h.una_le, hpending, h.ack_le, ?_, h.lastack, h.snd_nxt, ?_, ?_, ?_,
    h.closed, fun last hmem => (hlast last hmem).1, h.spent, ?_, ?_, ?_⟩
  · rw [hfin, Bool.toNat_false, Nat.add_zero]
    exact (htiles.extend data hm).append hnew.tiles
  · intro seg hseg
    rcases List.mem_append.mp hseg with hseg | hseg
    · exact h.sound seg (hrest seg hseg)
    · exact hnew.sound seg hseg
  · have hle := h.nxt_le
    dsimp only
    rw [List.length_append]
    omega
  · intro _
    dsimp only
    rw [h.snd_lbb hfin, after_add, List.length_append]
  · have hbuf := h.snd_buf
    have hle := htiles.le
    dsimp only
    rw [List.length_append]
    omega
  · dsimp only
    rw [hnew.queuelen, List.map_append, List.sum_append]
  · intro hempty
    exact (hnil (List.append_eq_nil_iff.mp hempty).2).2
  · intro hfixed seg hseg
    rcases List.mem_append.mp hseg with hseg | hseg
    · exact h.len hfixed seg (hrest seg hseg)
    · exact Nat.le_trans (hnew.len seg hseg) pcb.mss_local_le
  · intro hfixed hwide
    have hroomy := h.roomy hfixed hwide
    refine ⟨hroomy.snd_wnd_max, ?_, fun last hmem => (hlast last hmem).2⟩
    intro seg hseg
    rcases List.mem_append.mp hseg with hseg | hseg
    · exact hroomy.len seg (hrest seg hseg)
    · exact hnew.len seg hseg

end Outgoing

private theorem pushLast_cons (seg : SndSeg) (rest : List SndSeg) :
    ∃ seg' rest', pushLast (seg :: rest) = seg' :: rest' ∧ seg'.len = seg.len := by
  obtain _ | ⟨next, rest⟩ := rest
  · exact ⟨_, _, rfl, rfl⟩
  · exact ⟨_, _, rfl, rfl⟩

private theorem tcp_write_checks_spec {pcb pcb' : SndPcb} {len : Nat} {err : ErrT}
    (h : pcb.tcp_write_checks len = some (pcb', err)) :
    (err = .ERR_OK ∧ pcb.canSend = true ∧ len ≤ pcb.snd_buf) ∨
      (err ≠ .ERR_OK ∧ (pcb' = pcb ∨ pcb' = { pcb with nagleMemErr := true })) := by
  rw [SndPcb.tcp_write_checks] at h
  obtain ⟨-, h⟩ | ⟨hsend, h⟩ := ite_eq_iff.mp h
  · cases h
    exact .inr ⟨by simp, .inl rfl⟩
  · have hcan := Bool.of_not_eq_false hsend
    obtain ⟨hzero, h⟩ | ⟨-, h⟩ := ite_eq_iff.mp h
    · cases h
      exact .inl ⟨rfl, hcan, by omega⟩
    · obtain ⟨-, h⟩ | ⟨hbuf, h⟩ := ite_eq_iff.mp h
      · cases h
        exact .inr ⟨by simp, .inr rfl⟩
      · obtain ⟨-, h⟩ | ⟨-, h⟩ := ite_eq_iff.mp h
        · cases h
          exact .inr ⟨by simp, .inr rfl⟩
        · obtain ⟨_, -, h⟩ := Option.bind_eq_some_iff.mp h
          obtain ⟨_, -, h⟩ := Option.bind_eq_some_iff.mp h
          cases h
          exact .inl ⟨rfl, hcan, by omega⟩

theorem writeFailed_spec {pcb pcb' : SndPcb} {err : ErrT} (h : pcb.writeFailed = some (pcb', err)) :
    err ≠ .ERR_OK ∧ pcb' = { pcb with nagleMemErr := true } := by
  obtain ⟨_, -, h⟩ := Option.bind_eq_some_iff.mp h
  cases h
  exact ⟨by simp, rfl⟩

/-- A successful `tcp_write` went through all its phases. -/
theorem tcp_write_ok {pcb pcb' : SndPcb} {data : List UInt8} {more : Bool} {mem : Nat} {err : ErrT}
    (h : pcb.tcp_write data more mem = some (pcb', err)) :
    (err ≠ .ERR_OK ∧ (pcb' = pcb ∨ pcb' = { pcb with nagleMemErr := true })) ∨
      (err = .ERR_OK ∧ pcb.canSend = true ∧ data.length ≤ pcb.snd_buf ∧ ∃ f q unsent,
        pcb.fillTail data more mem = some (some f) ∧
        pcb.newSegs more data.length (data.drop (f.oversize_used + f.concat.length))
          (pcb.snd_lbb + BitVec.ofNat 32 (f.oversize_used + f.concat.length)) true f.oversize f.queuelen
          f.mem = some q ∧
        pcb.newUnsent data more f q.queue = some unsent ∧
        pcb' = { pcb with
          unsent
          unsent_oversize := q.oversize
          snd_lbb := pcb.snd_lbb + BitVec.ofNat 32 data.length
          snd_buf := pcb.snd_buf - data.length
          snd_queuelen := q.queuelen }) := by
  obtain ⟨⟨checked, err'⟩, hchecks, h⟩ := Option.bind_eq_some_iff.mp h
  obtain ⟨hne, h⟩ | ⟨hok, h⟩ := ite_eq_iff.mp h
  · cases h
    obtain ⟨hok, -⟩ | hfailed := tcp_write_checks_spec hchecks
    · exact absurd hok hne
    · exact .inl hfailed
  · rw [ne_eq, not_not] at hok
    obtain ⟨-, hsend, hbuf⟩ | ⟨hne, -⟩ := tcp_write_checks_spec hchecks
    · obtain ⟨filled, hfill, h⟩ := Option.bind_eq_some_iff.mp h
      obtain _ | f := filled
      · obtain ⟨hne, hsame⟩ := writeFailed_spec h
        exact .inl ⟨hne, .inr hsame⟩
      · dsimp only at h
        rcases hnew : pcb.newSegs more data.length (data.drop (f.oversize_used + f.concat.length))
          (pcb.snd_lbb + BitVec.ofNat 32 (f.oversize_used + f.concat.length)) true f.oversize f.queuelen
          f.mem with _ | q
        · rw [hnew] at h
          obtain ⟨hne, hsame⟩ := writeFailed_spec h
          exact .inl ⟨hne, .inr hsame⟩
        · rw [hnew] at h
          obtain ⟨unsent, hunsent, h⟩ := Option.bind_eq_some_iff.mp h
          obtain ⟨_, -, h⟩ := Option.bind_eq_some_iff.mp h
          cases h
          exact .inr ⟨rfl, hsend, hbuf, f, q, unsent, hfill, hnew, hunsent, rfl⟩
    · exact absurd hok hne

/-- The last unsent segment with what the first two phases add. -/
theorem growTail_spec {pcb : SndPcb} {last : SndSeg} {data : List UInt8} {f : SndPcb.Filled}
    (hf : f.Of pcb last data) (hsound : last.Sound) (hroom : last.Left pcb.unsent_oversize)
    (hlen : data.length < 2 ^ 16) :
    ∃ seg last', { last with oversize_left := last.oversize_left + f.oversize_add }.copyDirect
        (data.take f.oversize_used) = some seg ∧
      last' = seg.concatTail f.concat f.oversize ∧
      Grown last last' (data.take (f.oversize_used + f.concat.length)) ∧
      last'.clen = last.clen + (if f.concat = [] then 0 else 1) ∧ last'.Left f.oversize := by
  obtain ⟨hleft, hroom⟩ := hroom
  have hpos := hf.pos
  have hused := hf.used
  have htake : (data.take f.oversize_used).length = f.oversize_used := by
    rw [List.length_take]
    omega
  have hsound' : { last with oversize_left := last.oversize_left + f.oversize_add }.Sound :=
    ⟨hsound.sum, hsound.checksummed, hsound.p⟩
  obtain ⟨seg, hcopy, hgrown, hclen, hroom', hleft'⟩ := copyDirect_spec hsound'
    (show (data.take f.oversize_used).length ≤ last.room by omega)
    (show _ ≤ last.oversize_left + f.oversize_add by omega) (by omega)
  obtain ⟨hgrown', hclen', hleft'', hsame, hnew⟩ := concatTail_spec hgrown.sound
    (show f.concat.length < 2 ^ 16 by omega) f.oversize
  have hdata : data.take f.oversize_used ++ f.concat =
      data.take (f.oversize_used + f.concat.length) := by
    rw [List.take_add, ← hf.concat]
  have hboth := hgrown.trans hgrown'
  rw [hdata] at hboth
  refine ⟨seg, _, hcopy, rfl, ⟨hboth.seqno, hboth.fin, hboth.data, hboth.sound⟩, ?_, ?_, ?_⟩
  · rw [hclen', hclen]
    rfl
  · rw [hleft'', hleft', htake, SndPcb.Filled.oversize_add]
    dsimp only
    by_cases hnil : f.concat = []
    · have hoversize := hf.oversize hnil
      rw [if_pos hnil]
      omega
    · have hfull := hf.full hnil
      rw [if_neg hnil]
      omega
  · by_cases hnil : f.concat = []
    · have hoversize := hf.oversize hnil
      rw [hsame hnil, hroom', htake]
      dsimp only
      omega
    · rw [hnew hnil]

namespace Outgoing

variable {fixed wide : Prop} {stream data : List UInt8} {iss : BitVec 32} {all : List SndSeg}
  {una ack nxt : Nat} {pcb pcb' : SndPcb} {more : Bool} {mem : Nat}

/-- The queues begin where they began. -/
theorem pending_append {rest new : List SndSeg}
    (h : Outgoing fixed wide stream iss all una ack nxt pcb) (hrest : ∃ more, all = rest ++ more)
    (hnew : pcb.persist_backoff = 0 → ∀ seg tail, new = seg :: tail → rest = [] → ack ≤ una + seg.len) :
    pcb.persist_backoff = 0 → ∀ seg tail, rest ++ new = seg :: tail → ack ≤ una + seg.len := by
  intro hzero seg tail heq
  obtain ⟨more, rfl⟩ := hrest
  obtain _ | ⟨first, rest⟩ := rest
  · exact hnew hzero seg tail heq rfl
  · rw [List.cons_append, List.cons_eq_cons] at heq
    rw [← heq.1]
    exact h.pending hzero first (rest ++ more) rfl

/-- `tcp_write` with an empty `unsent`. -/
theorem write_nil {f : SndPcb.Filled} {q : SndPcb.Queued} {unsent : List SndSeg}
    (h : Outgoing fixed wide stream iss all una ack nxt pcb) (hfin : pcb.fin = false) (hnil : pcb.unsent = [])
    (hbuf : data.length ≤ pcb.snd_buf) (hfill : pcb.fillTail data more mem = some (some f))
    (hnew : pcb.newSegs more data.length (data.drop (f.oversize_used + f.concat.length))
      (pcb.snd_lbb + BitVec.ofNat 32 (f.oversize_used + f.concat.length)) true f.oversize f.queuelen
      f.mem = some q)
    (hunsent : pcb.newUnsent data more f q.queue = some unsent) :
    ∃ all', Outgoing fixed wide (stream ++ data) iss all' una ack nxt
      { pcb with
        unsent
        unsent_oversize := q.oversize
        snd_lbb := pcb.snd_lbb + BitVec.ofNat 32 data.length
        snd_buf := pcb.snd_buf - data.length
        snd_queuelen := q.queuelen } := by
  obtain ⟨hf, -⟩ := fillTail_nil hnil hfill
  cases hf
  have hend : stream.length + pcb.fin.toNat = stream.length := by rw [hfin]; rfl
  have hsplit := h.split
  have htiles := h.tiles
  have hlbb := h.snd_lbb hfin
  rw [hnil] at hsplit
  rw [hend] at htiles
  have hdrop : (stream ++ data).drop stream.length = data := List.drop_left
  rw [List.length_nil, Nat.add_zero, List.drop_zero, ← hdrop, hlbb] at hnew
  have hzero : after iss stream.length + BitVec.ofNat 32 0 = after iss stream.length := by
    rw [after_add, Nat.add_zero]
  rw [hzero, hdrop] at hnew
  rw [← hdrop] at hnew
  have hsegs : NewSegs (stream ++ data) iss stream.length pcb.mss_local 0 pcb.snd_queuelen q := by
    apply newSegs_spec _ ?_ ?_ hnew
    · rw [List.length_append]
      omega
    · rw [hdrop, List.length_append]
      omega
  obtain ⟨q', hq', hqueue, hoversize, hqueuelen⟩ : ∃ q',
      NewSegs (stream ++ data) iss stream.length pcb.mss_local 0 pcb.snd_queuelen q' ∧
      q'.queue = unsent ∧ q'.oversize = q.oversize ∧ q'.queuelen = q.queuelen := by
    rw [SndPcb.newUnsent, hnil, List.getLast?_nil] at hunsent
    dsimp only at hunsent
    by_cases hmore : more = true
    · rw [if_pos hmore] at hunsent
      cases hunsent
      exact ⟨q, hsegs, rfl, rfl, rfl⟩
    · rw [if_neg hmore] at hunsent
      cases hunsent
      exact ⟨_, hsegs.push, rfl, rfl, rfl⟩
  rw [h.snd_queuelen] at hq'
  have hall : pcb.persist_backoff = 0 → ∀ seg tail, all ++ q'.queue = seg :: tail →
      ack ≤ una + seg.len := by
    apply h.pending_append ⟨[], (List.append_nil _).symm⟩
    rintro - seg tail - rfl
    have hle := h.ack_le
    have hnxt := h.nxt_le
    have huna : una = stream.length := htiles
    omega
  have hres := h.replaceTail hfin hsplit htiles le_rfl (fun _ hseg => hseg) hq'
    (fun hempty => ⟨rfl, hq'.nil hempty⟩) hall hbuf
  rw [List.nil_append, hqueue, hoversize, hqueuelen] at hres
  exact ⟨_, hres⟩

/-- `tcp_write` behind the last unsent segment. -/
theorem write_tail {f : SndPcb.Filled} {q : SndPcb.Queued} {unsent init : List SndSeg} {last : SndSeg}
    (h : Outgoing fixed wide stream iss all una ack nxt pcb) (hfin : pcb.fin = false)
    (htail : pcb.unsent = init ++ [last]) (hnewest : pcb.TailNewest) (hlen : data.length < 2 ^ 16)
    (hbuf : data.length ≤ pcb.snd_buf) (hfill : pcb.fillTail data more mem = some (some f))
    (hnew : pcb.newSegs more data.length (data.drop (f.oversize_used + f.concat.length))
      (pcb.snd_lbb + BitVec.ofNat 32 (f.oversize_used + f.concat.length)) true f.oversize f.queuelen
      f.mem = some q)
    (hunsent : pcb.newUnsent data more f q.queue = some unsent) :
    ∃ all', Outgoing fixed wide (stream ++ data) iss all' una ack nxt
      { pcb with
        unsent
        unsent_oversize := q.oversize
        snd_lbb := pcb.snd_lbb + BitVec.ofNat 32 data.length
        snd_buf := pcb.snd_buf - data.length
        snd_queuelen := q.queuelen } := by
  have hlast : pcb.unsent.getLast? = some last := by rw [htail, List.getLast?_concat]
  have hf := fillTail_spec hlast hfill
  have hpos := hf.pos
  have hend : stream.length + pcb.fin.toNat = stream.length := by rw [hfin]; rfl
  have hlbb := h.snd_lbb hfin
  have hsplit := h.split
  have htiles := h.tiles
  rw [hend] at htiles
  rw [htail] at hsplit
  obtain ⟨rest, rfl, hrest⟩ := hsplit.last h.pairwise (hnewest last hlast)
  obtain ⟨m, hrestTiles, hseg, hsegPos, hsegEnd⟩ := Tiles.append_iff.mp htiles
  have hsegEnd : m + last.tcplen = stream.length := hsegEnd
  have hsegLen := hseg.end_le
  have hnot : last.fin = false := by
    rw [← Bool.not_eq_true]
    intro hlastFin
    have hwhole := hseg.fin hlastFin
    rw [SndSeg.received_data, ← SndSeg.len] at hwhole
    rw [SndSeg.tcplen, hlastFin, Bool.toNat_true] at hsegEnd
    omega
  have htcplen : last.tcplen = last.len := by rw [SndSeg.tcplen, hnot]; rfl
  obtain ⟨seg, last', hcopy, hconcat, hgrown, hclen, hroom⟩ := growTail_spec hf
    (h.sound last (by simp)) (h.room last hlast) hlen
  have hsplitData : stream ++ data.take (f.oversize_used + f.concat.length) ++
      data.drop (f.oversize_used + f.concat.length) = stream ++ data := by
    rw [List.append_assoc, List.take_append_drop]
  have htake : (data.take (f.oversize_used + f.concat.length)).length =
      f.oversize_used + f.concat.length := by
    rw [List.length_take]
    omega
  have hsegs : NewSegs (stream ++ data) iss
      (stream.length + (data.take (f.oversize_used + f.concat.length)).length) pcb.mss_local f.oversize
      f.queuelen q := by
    have hdrop : (stream ++ data).drop (stream.length + (f.oversize_used + f.concat.length)) =
        data.drop (f.oversize_used + f.concat.length) := by
      rw [← List.drop_drop, List.drop_left]
    rw [hlbb, after_add, ← hdrop] at hnew
    rw [htake]
    apply newSegs_spec _ ?_ ?_ hnew
    · rw [List.length_append]
      omega
    · rw [List.length_append]
      omega
  rw [← hsplitData] at hsegs
  have hmss := Nat.le_trans pcb.mss_local_le pcb.mss_le
  have hfilled := hf.len
  have hqueuelen := hf.queuelen
  have hsum := h.snd_queuelen
  rw [List.map_append, List.sum_append, List.map_singleton, List.sum_singleton] at hsum
  have hlast'Len : last'.len = last.len + (f.oversize_used + f.concat.length) := by
    rw [SndSeg.len, hgrown.data, List.length_append, htake, SndSeg.len]
  have hcons : NewSegs _ iss m pcb.mss_local f.oversize (rest.map SndSeg.clen).sum
      { q with queue := last' :: q.queue } :=
    hsegs.cons hseg (by omega) hsegPos hnot hgrown hclen hmss (by omega) hroom (fun _ => rfl) (by omega)
  rw [hsplitData] at hcons
  obtain ⟨q', hq', hqueue, hoversize, hq'len, hfirst⟩ : ∃ q',
      NewSegs (stream ++ data) iss m pcb.mss_local f.oversize (rest.map SndSeg.clen).sum q' ∧
      init ++ q'.queue = unsent ∧ q'.oversize = q.oversize ∧ q'.queuelen = q.queuelen ∧
      ∃ first tail, q'.queue = first :: tail ∧ first.len = last'.len := by
    rw [SndPcb.newUnsent, hlast] at hunsent
    dsimp only at hunsent
    rw [hcopy, Option.bind_eq_bind, Option.bind_some, ← hconcat, htail, List.dropLast_concat] at hunsent
    by_cases hpush : more = false ∧ (0 < pcb.unsent_oversize ∨ f.concat ≠ [] ∨ q.queue ≠ [])
    · rw [if_pos hpush] at hunsent
      cases hunsent
      exact ⟨_, hcons.push, rfl, rfl, rfl, pushLast_cons last' q.queue⟩
    · rw [if_neg hpush] at hunsent
      cases hunsent
      exact ⟨_, hcons, rfl, rfl, rfl, last', q.queue, rfl, rfl⟩
  obtain ⟨first, tail, hcons', hfirstLen⟩ := hfirst
  have hall : pcb.persist_backoff = 0 → ∀ seg more, rest ++ q'.queue = seg :: more →
      ack ≤ una + seg.len := by
    apply h.pending_append ⟨[last], rfl⟩
    rintro hzero seg more heq rfl
    rw [hcons', List.cons_eq_cons] at heq
    have hpending := h.pending hzero last [] rfl
    rw [← heq.1, hfirstLen, hlast'Len]
    omega
  have hres := h.replaceTail hfin hrest hrestTiles (by omega)
    (fun seg hmem => List.mem_append_left _ hmem) hq' (fun hempty => by simp [hcons'] at hempty) hall hbuf
  rw [hqueue, hoversize, hq'len] at hres
  exact ⟨_, hres⟩

/-- `tcp_write` puts the data behind the stream, or changes nothing but a flag. -/
theorem tcp_write {err : ErrT} (h : Outgoing fixed wide stream iss all una ack nxt pcb)
    (hnewest : pcb.TailNewest) (hlen : data.length < 2 ^ 16)
    (hwrite : pcb.tcp_write data more mem = some (pcb', err)) :
    (err = .ERR_OK ∧ pcb.canSend = true ∧ ∃ all' unsent oversize queuelen,
      pcb' = { pcb with
        unsent
        unsent_oversize := oversize
        snd_lbb := pcb.snd_lbb + BitVec.ofNat 32 data.length
        snd_buf := pcb.snd_buf - data.length
        snd_queuelen := queuelen } ∧
      Outgoing fixed wide (stream ++ data) iss all' una ack nxt pcb') ∨
    (err ≠ .ERR_OK ∧ (pcb' = pcb ∨ pcb' = { pcb with nagleMemErr := true })) := by
  obtain hfailed | ⟨rfl, hsend, hbuf, f, q, unsent, hfill, hnew, hunsent, rfl⟩ := tcp_write_ok hwrite
  · exact .inr hfailed
  · have hfin : pcb.fin = false := by
      rw [← Bool.not_eq_true]
      intro hfin
      rw [h.closed hfin] at hsend
      cases hsend
    obtain hnil | ⟨init, last, htail⟩ := List.eq_nil_or_concat pcb.unsent
    · obtain ⟨all', hall⟩ := h.write_nil hfin hnil hbuf hfill hnew hunsent
      exact .inl ⟨rfl, hsend, all', _, _, _, rfl, hall⟩
    · rw [List.concat_eq_append] at htail
      obtain ⟨all', hall⟩ := h.write_tail hfin htail hnewest hlen hbuf hfill hnew hunsent
      exact .inl ⟨rfl, hsend, all', _, _, _, rfl, hall⟩

end Outgoing

/-! ### `tcp_write` never aborts -/

namespace Outgoing

variable {fixed wide : Prop} {stream : List UInt8} {iss : BitVec 32} {all : List SndSeg}
  {una ack nxt : Nat} {pcb : SndPcb}

theorem tcp_write_checks_total (h : Outgoing fixed wide stream iss all una ack nxt pcb) (len : Nat) :
    ∃ res, pcb.tcp_write_checks len = some res := by
  rw [SndPcb.tcp_write_checks]
  by_cases hsend : pcb.canSend = false
  · exact ⟨_, if_pos hsend⟩
  · rw [if_neg hsend]
    by_cases hzero : len = 0
    · exact ⟨_, if_pos hzero⟩
    · rw [if_neg hzero]
      by_cases hbuf : pcb.snd_buf < len
      · exact ⟨_, if_pos hbuf⟩
      · rw [if_neg hbuf]
        by_cases hqueue : TCP_SND_QUEUELEN ≤ pcb.snd_queuelen
        · exact ⟨_, if_pos hqueue⟩
        · rw [if_neg hqueue, LWIP_ASSERT_of h.validQueuelen, LWIP_ASSERT_of h.queuelen_zero]
          exact ⟨_, rfl⟩

private theorem writeFailed_total (h : Outgoing fixed wide stream iss all una ack nxt pcb) :
    ∃ res, pcb.writeFailed = some res := by
  rw [SndPcb.writeFailed, LWIP_ASSERT_of h.validQueuelen]
  exact ⟨_, rfl⟩

private theorem fillTail_total (h : Outgoing fixed wide stream iss all una ack nxt pcb) (hfixed : fixed)
    (hwide : wide) (data : List UInt8) (more : Bool) (mem : Nat) : ∃ res, pcb.fillTail data more mem = some res := by
  rw [SndPcb.fillTail]
  rcases hlast : pcb.unsent.getLast? with _ | last
  · dsimp only
    rw [LWIP_ASSERT_of (h.oversize (List.getLast?_eq_none_iff.mp hlast))]
    exact ⟨_, rfl⟩
  · have hroomy := (h.roomy hfixed hwide).tail last hlast
    dsimp only
    rw [LWIP_ASSERT_of (show last.len ≤ pcb.mss_local by omega),
      LWIP_ASSERT_of (h.room last hlast).1.symm,
      LWIP_ASSERT_of (show pcb.unsent_oversize ≤ pcb.mss_local - last.len by omega),
      LWIP_ASSERT_of (by omega)]
    simp only [Option.bind_eq_bind, Option.bind_some]
    split
    · split
      · exact ⟨_, rfl⟩
      · exact ⟨_, rfl⟩
    · exact ⟨_, rfl⟩

private theorem newUnsent_total {data : List UInt8} {more : Bool} {mem : Nat} {f : SndPcb.Filled}
    (h : Outgoing fixed wide stream iss all una ack nxt pcb) (hlen : data.length < 2 ^ 16)
    (hfill : pcb.fillTail data more mem = some (some f)) (queue : List SndSeg) :
    ∃ unsent, pcb.newUnsent data more f queue = some unsent := by
  rw [SndPcb.newUnsent]
  rcases hlast : pcb.unsent.getLast? with _ | last
  · exact ⟨_, rfl⟩
  · have hmem : last ∈ all := h.split.mem_iff.mpr (.inr (List.mem_of_getLast? hlast))
    obtain ⟨seg, last', hcopy, -⟩ := growTail_spec (fillTail_spec hlast hfill) (h.sound last hmem)
      (h.room last hlast) hlen
    dsimp only
    rw [hcopy]
    exact ⟨_, rfl⟩

/-- No assertion in `tcp_write` fails, and no copy leaves its pbuf, if no segment is longer than the
    MSS. -/
theorem tcp_write_total {data : List UInt8} (h : Outgoing fixed wide stream iss all una ack nxt pcb)
    (hfixed : fixed) (hwide : wide) (hnewest : pcb.TailNewest) (hlen : data.length < 2 ^ 16) (more : Bool)
    (mem : Nat) :
    ∃ res, pcb.tcp_write data more mem = some res := by
  obtain ⟨⟨checked, err⟩, hchecks⟩ := h.tcp_write_checks_total data.length
  obtain ⟨filled, hfill⟩ := h.fillTail_total hfixed hwide data more mem
  rw [SndPcb.tcp_write, hchecks, Option.bind_eq_bind, Option.bind_some]
  dsimp only
  obtain ⟨rfl, hsend, hbuf⟩ | ⟨hne, -⟩ := tcp_write_checks_spec hchecks
  · have hfin : pcb.fin = false := by
      rw [← Bool.not_eq_true]
      intro hfin
      rw [h.closed hfin] at hsend
      cases hsend
    rw [if_neg (by simp), hfill, Option.bind_eq_bind, Option.bind_some]
    obtain _ | f := filled
    · exact h.writeFailed_total
    · dsimp only
      rcases hnew : pcb.newSegs more data.length (data.drop (f.oversize_used + f.concat.length))
        (pcb.snd_lbb + BitVec.ofNat 32 (f.oversize_used + f.concat.length)) true f.oversize f.queuelen
        f.mem with _ | q
      · exact h.writeFailed_total
      · obtain ⟨unsent, hunsent⟩ := h.newUnsent_total hlen hfill q.queue
        dsimp only
        rw [SndPcb.commit, hunsent, Option.bind_eq_bind, Option.bind_some]
        dsimp only
        obtain hnil | ⟨init, last, htail⟩ := List.eq_nil_or_concat pcb.unsent
        · obtain ⟨all', hall⟩ := h.write_nil hfin hnil hbuf hfill hnew hunsent
          rw [LWIP_ASSERT_of hall.validQueuelen]
          exact ⟨_, rfl⟩
        · rw [List.concat_eq_append] at htail
          obtain ⟨all', hall⟩ := h.write_tail hfin htail hnewest hlen hbuf hfill hnew hunsent
          rw [LWIP_ASSERT_of hall.validQueuelen]
          exact ⟨_, rfl⟩
  · rw [if_pos hne]
    exact ⟨_, rfl⟩

end Outgoing

end tun2proxy.core
