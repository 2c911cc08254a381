import Tun2Proxy.Lwip.Output

open tun2proxy.circular tun2proxy.split

namespace tun2proxy.core

/-- What leaves: bytes of the stream at their place, not far from its end, neither beyond `wnd`
    bytes behind `ack` nor beyond `nxt`, and with a checksum that whoever gets them finds right. -/
structure WireSeg.Emitted (stream : List UInt8) (iss : BitVec 32) (nxt ack wnd : Nat) (ends : Endpoints)
    (w : WireSeg) : Prop where
  place : ∃ p, SegOf stream iss p w.received ∧ stream.length ≤ p + 2 ^ 20 ∧
    p + w.data.length ≤ ack + wnd ∧ p + w.data.length + w.hdr.fin.toNat ≤ nxt
  verifies : w.Verifies ends

theorem WireSeg.Emitted.mono {stream : List UInt8} {iss : BitVec 32} {nxt nxt' ack wnd wnd' : Nat}
    {ends : Endpoints} {w : WireSeg} (h : w.Emitted stream iss nxt ack wnd ends) (hnxt : nxt ≤ nxt')
    (hwnd : wnd ≤ wnd') : w.Emitted stream iss nxt' ack wnd' ends := by
  obtain ⟨p, hseg, hlow, hp, hend⟩ := h.place
  exact ⟨⟨p, hseg, hlow, by omega, by omega⟩, h.verifies⟩

/-- The retransmission timer runs while segments are in flight, the persist timer only while none
    are, and while the MSS is fixed, every segment fits into the congestion window. -/
structure SndPcb.Paced (fixed : Prop) (pcb : SndPcb) : Prop where
  timed : pcb.unacked ≠ [] → 0 ≤ pcb.rtime
  persist : 0 < pcb.persist_backoff → pcb.unacked = []
  backoff : pcb.persist_backoff ≤ 7
  cwnd : fixed → pcb.mss ≤ pcb.cwnd
  ssthresh : fixed → pcb.infr = true → pcb.mss ≤ pcb.ssthresh
  snd_wnd : pcb.snd_wnd < 2 ^ 16

/-- A timer runs while there is anything to send. -/
def SndPcb.Awake (pcb : SndPcb) : Prop :=
  pcb.unacked = [] ∧ pcb.unsent = [] ∨ 0 ≤ pcb.rtime ∨ 0 < pcb.persist_backoff

instance (pcb : SndPcb) : Decidable pcb.Awake := inferInstanceAs (Decidable (_ ∨ _))

private theorem enqueueUnacked_spec {all unacked next : List SndSeg} {seg : SndSeg}
    (h : Split all unacked (seg :: next))
    (hall : all.Pairwise fun seg seg' => Tiles.before seg seg' ∧ ¬ Tiles.before seg' seg) :
    Split all (SndPcb.enqueueUnacked unacked seg) next := by
  have hinsert := h.insert hall
  rw [SndPcb.enqueueUnacked]
  obtain rfl | ⟨init, useg, rfl⟩ := List.eq_nil_or_concat unacked
  · exact hinsert
  · rw [List.concat_eq_append] at h hinsert ⊢
    rw [List.getLast?_concat]
    dsimp only
    by_cases hbefore : Tiles.before seg useg
    · rw [if_pos hbefore]
      exact hinsert
    · rw [if_neg hbefore, ← h.insertSorted_last hall hbefore]
      exact hinsert

private theorem mem_enqueueUnacked {unacked : List SndSeg} {seg s : SndSeg}
    (h : s ∈ SndPcb.enqueueUnacked unacked seg) : s = seg ∨ s ∈ unacked := by
  rw [SndPcb.enqueueUnacked] at h
  split at h
  · exact .inl (List.mem_singleton.mp h)
  · split at h
    · exact Split.mem_of_insertSorted h
    · rcases List.mem_append.mp h with h | h
      · exact .inr h
      · exact .inl (List.mem_singleton.mp h)

/-- The ways through one round of the loop. -/
theorem outputLoop_cases {ends : Endpoints} {rcv : RcvHeader} {wnd room : Nat} {seg : SndSeg}
    {next : List SndSeg} {pcb pcb' : SndPcb} {out : List WireSeg} {err : ErrT}
    (h : pcb.outputLoop ends rcv wnd (seg :: next) room = some (pcb', out, err)) :
    (pcb' = pcb ∧ out = [] ∧ err = .ERR_OK ∧
      ¬ (pcb.reach seg ≤ wnd ∧ pcb.tcp_do_output_nagle = true)) ∨
    ∃ w, pcb.reach seg ≤ wnd ∧ tcp_output_segment seg ends rcv.rcv_nxt rcv.rcv_ann_wnd = some w ∧
      ((room = 0 ∧ pcb' = { pcb.startTimer with nagleMemErr := true } ∧ out = [] ∧ err = .ERR_BUF) ∨
        ∃ out', room ≠ 0 ∧ (pcb.startTimer.sent seg next).outputLoop ends rcv wnd next (room - 1) =
          some (pcb', out', err) ∧ out = w :: out') := by
  rw [SndPcb.outputLoop] at h
  obtain ⟨⟨hreach, -⟩, h⟩ | ⟨hstop, h⟩ := ite_eq_iff.mp h
  · obtain ⟨w, hw, h⟩ := Option.bind_eq_some_iff.mp h
    refine .inr ⟨w, hreach, hw, ?_⟩
    obtain ⟨hroom, h⟩ | ⟨hroom, h⟩ := ite_eq_iff.mp h
    · cases h
      exact .inl ⟨hroom, rfl, rfl, rfl⟩
    · obtain ⟨⟨pcb'', out', err'⟩, hloop, h⟩ := Option.bind_eq_some_iff.mp h
      cases h
      exact .inr ⟨out', hroom, hloop, rfl⟩
  · cases h
    exact .inl ⟨rfl, rfl, rfl, fun ⟨hreach, hnagle⟩ => hstop ⟨hreach, .inl hnagle⟩⟩

theorem SndPcb.resetOversize_eq {pcb : SndPcb} (h : pcb.unsent ≠ []) : pcb.resetOversize = pcb := by
  rw [SndPcb.resetOversize, if_neg h]

namespace Outgoing

variable {fixed wide : Prop} {stream : List UInt8} {iss : BitVec 32} {all : List SndSeg}
  {una ack nxt : Nat} {pcb pcb' : SndPcb}

/-- The place that the window is compared with. -/
theorem reach_eq {seg : SndSeg} {p : Nat} (h : Outgoing fixed wide stream iss all una ack nxt pcb)
    (hseg : SegOf stream iss p seg.received) :
    pcb.reach seg = (after iss (p + seg.len) - after iss ack).toNat := by
  have hseqno : seg.seqno = after iss p := hseg.seqno
  rw [SndPcb.reach, hseqno, h.lastack, ← after_add, BitVec.sub_eq_add_neg, BitVec.sub_eq_add_neg,
    BitVec.add_assoc, BitVec.add_assoc, BitVec.add_comm (-after iss ack)]

/-- A segment that fits into the window ends behind what was acknowledged, and not beyond the
    window. -/
theorem within {seg : SndSeg} {p wnd : Nat} (h : Outgoing fixed wide stream iss all una ack nxt pcb)
    (hseg : SegOf stream iss p seg.received) (hlow : una ≤ p) (hwnd : wnd < 2 ^ 31)
    (hreach : pcb.reach seg ≤ wnd) : ack ≤ p + seg.len ∧ p + seg.len ≤ ack + wnd := by
  have hnear := h.near
  have huna := h.una_le
  have hack := h.ack_le
  have hnxt := h.nxt_le
  have hend := hseg.end_le
  rw [SndSeg.received_data, ← SndSeg.len] at hend
  have hdist : circular.dist (after iss (p + seg.len)) (after iss ack) = (p + seg.len : Nat) - (ack : Int) :=
    dist_after iss (by omega) (by omega)
  rw [circular.dist, BitVec.toInt_eq_toNat_cond, ← h.reach_eq hseg, if_pos (by omega)] at hdist
  omega

theorem resetOversize (h : Outgoing fixed wide stream iss all una ack nxt pcb) :
    Outgoing fixed wide stream iss all una ack nxt pcb.resetOversize := by
  by_cases hnil : pcb.unsent = []
  · have hzero := h.oversize hnil
    have hsame : pcb.resetOversize = pcb := by
      rw [SndPcb.resetOversize, if_pos hnil, ← hzero]
    rw [hsame]
    exact h
  · rw [SndPcb.resetOversize_eq hnil]
    exact h

/-- A segment among the others without its free bytes. -/
theorem spend {front back : List SndSeg} {seg : SndSeg}
    (h : Outgoing fixed wide stream iss (front ++ seg :: back) una ack nxt pcb) :
    Tiles stream iss una (stream.length + pcb.fin.toNat) (front ++ seg.spent :: back) ∧
      (∀ s ∈ front ++ seg.spent :: back, s.Sound) ∧
      (pcb.persist_backoff = 0 → ∀ s rest, front ++ seg.spent :: back = s :: rest → ack ≤ una + s.len) ∧
      pcb.snd_queuelen = ((front ++ seg.spent :: back).map SndSeg.clen).sum ∧
      (∀ n, (∀ s ∈ front ++ seg :: back, s.len ≤ n) → ∀ s ∈ front ++ seg.spent :: back, s.len ≤ n) := by
  have hold {P : SndSeg → Prop} (hseg : P seg → P seg.spent) (hall : ∀ s ∈ front ++ seg :: back, P s) :
      ∀ s ∈ front ++ seg.spent :: back, P s := by
    intro s hs
    rcases List.mem_append.mp hs with hs | hs
    · exact hall s (List.mem_append_left _ hs)
    · rcases List.mem_cons.mp hs with rfl | hs
      · exact hseg (hall seg (by simp))
      · exact hall s (List.mem_append_right _ (List.mem_cons_of_mem _ hs))
  obtain ⟨m, hfront, hseg, hpos, hback⟩ := Tiles.append_iff.mp h.tiles
  refine ⟨hfront.append ⟨hseg, hpos, hback⟩, hold (fun hs => ⟨hs.sum, hs.checksummed, hs.p⟩) h.sound, ?_,
    ?_, fun n => hold fun hlen => hlen⟩
  · intro hzero s rest heq
    obtain _ | ⟨first, front⟩ := front
    · cases heq
      exact h.pending hzero seg back rfl
    · rw [List.cons_append, List.cons_eq_cons] at heq
      rw [← heq.1]
      exact h.pending hzero first (front ++ seg :: back) rfl
  · rw [h.snd_queuelen, List.map_append, List.map_append]
    rfl

/-- The first unsent segment goes out. -/
theorem sent {seg : SndSeg} {next : List SndSeg}
    (h : Outgoing fixed wide stream iss all una ack nxt pcb.resetOversize) (hunsent : pcb.unsent = seg :: next) :
    ∃ all' p, SegOf stream iss p seg.received ∧ una ≤ p ∧
      Outgoing fixed wide stream iss all' una ack (max nxt (p + seg.tcplen))
        (pcb.startTimer.sent seg next).resetOversize := by
  rw [SndPcb.resetOversize_eq (by simp [hunsent])] at h
  have hsplit := h.split
  have hnear := h.near
  have huna := h.una_le
  have hack := h.ack_le
  have hle := h.nxt_le
  rw [hunsent] at hsplit
  obtain ⟨p, hp, hend, hpos, hseg⟩ := h.tiles.mem (hsplit.mem_iff.mpr (.inr List.mem_cons_self))
  have hlast : ∀ last ∈ next.getLast?, last ∈ pcb.unsent.getLast? ∧ next ≠ [] := by
    intro last hlast
    obtain _ | ⟨first, next⟩ := next
    · cases hlast
    · refine ⟨?_, by simp⟩
      rw [hunsent, List.getLast?_cons_cons]
      exact hlast
  have hends : seg.ends = after iss (p + seg.tcplen) := by
    rw [SndSeg.ends, ← after_add, ← hseg.seqno]
    rfl
  have hlt : TCP_SEQ_LT (after iss nxt) (after iss (p + seg.tcplen)) ↔ nxt < p + seg.tcplen :=
    Tiles.seq_lt_iff (a := una) (by omega) (by omega)
  have hunacked : (if 0 < seg.tcplen then SndPcb.enqueueUnacked pcb.unacked seg.spent else pcb.unacked) =
      SndPcb.enqueueUnacked pcb.unacked seg.spent := if_pos hpos
  obtain ⟨front, back, rfl, hspent⟩ := hsplit.replace seg.spent
  obtain ⟨htiles, hsound, hfirst, hqueuelen, hlen⟩ := h.spend
  have hsent := enqueueUnacked_spec hspent (htiles.pairwise (by omega))
  refine ⟨front ++ seg.spent :: back, p, hseg, hp, ?_⟩
  refine ⟨?_, htiles, hsound, huna, hfirst, by omega, ?_, h.lastack, ?_, h.snd_lbb, h.snd_buf,
    hqueuelen, h.closed, ?_, ?_, ?_, fun hfixed => hlen _ (h.len hfixed), ?_⟩
  · show Split _ (if 0 < seg.tcplen then SndPcb.enqueueUnacked pcb.unacked seg.spent else pcb.unacked) next
    rw [hunacked]
    exact hsent
  · show max nxt (p + seg.tcplen) ≤ stream.length + pcb.fin.toNat
    omega
  · show (if TCP_SEQ_LT pcb.snd_nxt seg.ends then seg.ends else pcb.snd_nxt) =
      after iss (max nxt (p + seg.tcplen))
    rw [h.snd_nxt, hends]
    by_cases hadvance : nxt < p + seg.tcplen
    · rw [if_pos (hlt.mpr hadvance), Nat.max_eq_right (by omega)]
    · rw [if_neg (fun hseq => hadvance (hlt.mp hseq)), Nat.max_eq_left (by omega)]
  · intro last hmem
    obtain ⟨hmem', hne⟩ := hlast last hmem
    show last.Left (if next = [] then 0 else pcb.unsent_oversize)
    rw [if_neg hne]
    exact h.room last hmem'
  · show ∀ s ∈ if 0 < seg.tcplen then SndPcb.enqueueUnacked pcb.unacked seg.spent else pcb.unacked,
      s.oversize_left = 0
    rw [hunacked]
    intro s hs
    rcases mem_enqueueUnacked hs with rfl | hs
    · rfl
    · exact h.spent s hs
  · intro hnil
    exact if_pos hnil
  · intro hfixed hwide
    have hroomy := h.roomy hfixed hwide
    refine ⟨hroomy.snd_wnd_max, hlen _ hroomy.len, ?_⟩
    intro last hmem
    obtain ⟨hmem', hne⟩ := hlast last hmem
    show last.len + (if next = [] then 0 else pcb.unsent_oversize) ≤ pcb.mss_local
    rw [if_neg hne]
    exact hroomy.tail last hmem'

/-- A segment that fits goes out as it is in the stream. -/
theorem emitted {seg : SndSeg} {next : List SndSeg} {p wnd : Nat} {ends : Endpoints} {rcv : RcvHeader}
    {w : WireSeg} (h : Outgoing fixed wide stream iss all una ack nxt pcb) (hunsent : pcb.unsent = seg :: next)
    (hseg : SegOf stream iss p seg.received) (hp : una ≤ p) (hwnd : wnd < 2 ^ 31)
    (hreach : pcb.reach seg ≤ wnd)
    (hw : tcp_output_segment seg ends rcv.rcv_nxt rcv.rcv_ann_wnd = some w) :
    w.Emitted stream iss (p + seg.tcplen) ack wnd ends := by
  have hmem : seg ∈ all := h.split.mem_iff.mpr (.inr (hunsent ▸ List.mem_cons_self))
  have hwithin := h.within hseg hp hwnd hreach
  have hnear := h.near
  obtain ⟨chksum, hout, hverifies⟩ := tcp_output_segment_spec ends rcv.rcv_nxt rcv.rcv_ann_wnd
    (h.sound seg hmem).sum (h.sound seg hmem).checksummed
  rw [hw] at hout
  cases hout
  exact ⟨⟨p, hseg, by omega, hwithin.2, Nat.le_of_eq (Nat.add_assoc _ _ _)⟩, hverifies⟩

/-- What the loop of `tcp_output` sends and leaves. -/
theorem outputLoop {ends : Endpoints} {rcv : RcvHeader} {wnd : Nat} (hwnd : wnd < 2 ^ 31)
    (segs : List SndSeg) : ∀ {all : List SndSeg} {pcb pcb' : SndPcb} {nxt room : Nat} {out : List WireSeg} {err : ErrT},
      pcb.unsent = segs → Outgoing fixed wide stream iss all una ack nxt pcb.resetOversize →
      pcb.outputLoop ends rcv wnd segs room = some (pcb', out, err) →
      ∃ all' nxt', nxt ≤ nxt' ∧ Outgoing fixed wide stream iss all' una ack nxt' pcb'.resetOversize ∧
        (err ≠ .ERR_OK → pcb'.unsent ≠ []) ∧ ∀ w ∈ out, w.Emitted stream iss nxt' ack wnd ends := by
  induction segs with
  | nil =>
    intro all pcb pcb' nxt room out err hunsent h hloop
    rw [SndPcb.outputLoop] at hloop
    cases hloop
    exact ⟨all, nxt, le_rfl, h, fun hne => absurd rfl hne, by simp⟩
  | cons seg next ih =>
    intro all pcb pcb' nxt room out err hunsent h hloop
    obtain ⟨rfl, rfl, rfl, -⟩ | ⟨w, hreach, hw, hrest⟩ := outputLoop_cases hloop
    · exact ⟨all, nxt, le_rfl, h, fun hne => absurd rfl hne, by simp⟩
    · obtain ⟨-, rfl, rfl, rfl⟩ | ⟨out', -, hloop', rfl⟩ := hrest
      · exact ⟨all, nxt, le_rfl, h.frame, fun _ => by simp [SndPcb.startTimer, hunsent], by simp⟩
      · obtain ⟨all', p, hseg, hp, hsent⟩ := h.sent hunsent
        obtain ⟨all'', nxt', hle, h', herr, hout⟩ := ih rfl hsent hloop'
        refine ⟨all'', nxt', by omega, h', herr, ?_⟩
        intro w' hw'
        rcases List.mem_cons.mp hw' with rfl | hw'
        · exact (h.emitted hunsent hseg hp hwnd hreach hw).mono (by omega) le_rfl
        · exact hout w' hw'

theorem startPersist (h : Outgoing fixed wide stream iss all una ack nxt pcb) (wnd : Nat) :
    Outgoing fixed wide stream iss all una ack nxt (pcb.startPersist wnd) := by
  rw [SndPcb.startPersist]
  split
  · exact (h.backoff fun hzero => absurd hzero Nat.one_ne_zero).frame
  · exact h

/-- The persist timer stops when the first segment fits into the window. -/
theorem stopPersist {seg : SndSeg} {next : List SndSeg} {wnd : Nat}
    (h : Outgoing fixed wide stream iss all una ack nxt pcb) (hpaced : pcb.Paced fixed)
    (hunsent : pcb.unsent = seg :: next) (hwnd : wnd < 2 ^ 31) (hreach : pcb.reach seg ≤ wnd) :
    Outgoing fixed wide stream iss all una ack nxt pcb.stopPersist := by
  apply h.backoff
  rintro - first rest rfl
  by_cases hzero : pcb.persist_backoff = 0
  · exact h.pending hzero first rest rfl
  · have hsplit := h.split
    rw [hpaced.persist (Nat.pos_of_ne_zero hzero), hunsent] at hsplit
    cases hsplit.eq_right
    exact (h.within h.tiles.1 le_rfl hwnd hreach).1

theorem outputIdle {net : Netif} {out : List WireSeg} {err : ErrT}
    (h : Outgoing fixed wide stream iss all una ack nxt pcb) (hout : pcb.outputIdle net = (pcb', out, err)) :
    Outgoing fixed wide stream iss all una ack nxt pcb' ∧ out = [] := by
  rw [SndPcb.outputIdle] at hout
  obtain ⟨-, hout⟩ | ⟨-, hout⟩ := ite_eq_iff.mp hout
  · obtain ⟨-, hout⟩ | ⟨-, hout⟩ := ite_eq_iff.mp hout
    · cases hout
      exact ⟨h.frame, rfl⟩
    · cases hout
      exact ⟨h, rfl⟩
  · cases hout
    exact ⟨h.frame, rfl⟩

/-- `tcp_output` sends the stream within the window, and keeps all until it is acknowledged. -/
theorem tcp_output {ends : Endpoints} {rcv : RcvHeader} {net : Netif} {out : List WireSeg} {err : ErrT}
    (h : Outgoing fixed wide stream iss all una ack nxt pcb) (hpaced : pcb.Paced fixed)
    (hout : pcb.tcp_output ends rcv net = some (pcb', out, err)) :
    ∃ all' nxt', nxt ≤ nxt' ∧ Outgoing fixed wide stream iss all' una ack nxt' pcb' ∧
      ∀ w ∈ out, w.Emitted stream iss nxt' ack (min pcb.snd_wnd pcb.cwnd) ends := by
  rw [SndPcb.tcp_output] at hout
  rcases hunsent : pcb.unsent with _ | ⟨seg, next⟩
  · rw [hunsent] at hout
    obtain ⟨h', rfl⟩ := h.outputIdle (Option.some.inj hout)
    exact ⟨all, nxt, le_rfl, h', by simp⟩
  · rw [hunsent] at hout
    dsimp only at hout
    obtain ⟨-, hout⟩ | ⟨-, hout⟩ := ite_eq_iff.mp hout
    · cases hout
      exact ⟨all, nxt, le_rfl, h, by simp⟩
    · have hwnd : min pcb.snd_wnd pcb.cwnd < 2 ^ 31 := by
        have hsmall := hpaced.snd_wnd
        omega
      obtain ⟨-, hout⟩ | ⟨hfits, hout⟩ := ite_eq_iff.mp hout
      · obtain ⟨h', rfl⟩ := (h.startPersist _).outputIdle (Option.some.inj hout)
        exact ⟨all, nxt, le_rfl, h', by simp⟩
      · obtain ⟨⟨pcb'', out', err'⟩, hloop, hout⟩ := Option.bind_eq_some_iff.mp hout
        have hstopped : pcb.stopPersist.unsent = seg :: next := hunsent
        have hstop := h.stopPersist hpaced hunsent hwnd (Nat.le_of_not_lt hfits)
        obtain ⟨all', nxt', hle, h', herr, hemitted⟩ :=
          Outgoing.outputLoop hwnd _ hstopped hstop.resetOversize hloop
        obtain ⟨hne, hout⟩ | ⟨-, hout⟩ := ite_eq_iff.mp hout
        · cases hout
          rw [SndPcb.resetOversize_eq (herr hne)] at h'
          exact ⟨all', nxt', hle, h', hemitted⟩
        · cases hout
          exact ⟨all', nxt', hle, h'.frame, hemitted⟩

private theorem outputLoop_total {ends : Endpoints} {rcv : RcvHeader} {wnd : Nat} (segs : List SndSeg) :
    ∀ {all : List SndSeg} {pcb : SndPcb} {nxt room : Nat}, pcb.unsent = segs →
      Outgoing fixed wide stream iss all una ack nxt pcb.resetOversize →
      ∃ res, pcb.outputLoop ends rcv wnd segs room = some res := by
  induction segs with
  | nil =>
    intro all pcb nxt room _ _
    exact ⟨_, rfl⟩
  | cons seg next ih =>
    intro all pcb nxt room hunsent h
    have hmem : seg ∈ all := h.split.mem_iff.mpr (.inr (show seg ∈ pcb.unsent by simp [hunsent]))
    obtain ⟨chksum, hw, -⟩ := tcp_output_segment_spec ends rcv.rcv_nxt rcv.rcv_ann_wnd
      (h.sound seg hmem).sum (h.sound seg hmem).checksummed
    obtain ⟨all', p, -, -, hsent⟩ := h.sent hunsent
    obtain ⟨⟨pcb', out, err⟩, hloop⟩ :
        ∃ res, (pcb.startTimer.sent seg next).outputLoop ends rcv wnd next (room - 1) = some res :=
      ih rfl hsent
    rw [SndPcb.outputLoop]
    split
    · rw [hw, Option.bind_eq_bind, Option.bind_some]
      split
      · exact ⟨_, rfl⟩
      · rw [hloop]
        exact ⟨_, rfl⟩
    · exact ⟨_, rfl⟩

/-- No assertion in `tcp_output` fails. -/
theorem tcp_output_total (h : Outgoing fixed wide stream iss all una ack nxt pcb) (hpaced : pcb.Paced fixed)
    (ends : Endpoints) (rcv : RcvHeader) (net : Netif) : ∃ res, pcb.tcp_output ends rcv net = some res := by
  rw [SndPcb.tcp_output]
  rcases hunsent : pcb.unsent with _ | ⟨seg, next⟩
  · exact ⟨_, rfl⟩
  · dsimp only
    split
    · exact ⟨_, rfl⟩
    · have hwnd : min pcb.snd_wnd pcb.cwnd < 2 ^ 31 := by
        have hsmall := hpaced.snd_wnd
        omega
      split
      · exact ⟨_, rfl⟩
      · rename_i hfits
        have hstopped : pcb.stopPersist.unsent = seg :: next := hunsent
        have hstop := h.stopPersist hpaced hunsent hwnd (Nat.le_of_not_lt hfits)
        obtain ⟨⟨pcb', out, err⟩, hloop⟩ := Outgoing.outputLoop_total _ hstopped hstop.resetOversize
        rw [hloop, Option.bind_eq_bind, Option.bind_some]
        dsimp only
        split
        · exact ⟨_, rfl⟩
        · exact ⟨_, rfl⟩

end Outgoing

/-! ### The timers -/

/-- What one round of the loop keeps, the loop keeps. -/
theorem outputLoop_invariant {P : SndPcb → Prop} {ends : Endpoints} {rcv : RcvHeader} {wnd : Nat}
    (hsent : ∀ pcb seg next, P pcb → P (pcb.startTimer.sent seg next))
    (hfail : ∀ pcb, P pcb → P { pcb.startTimer with nagleMemErr := true }) (segs : List SndSeg) :
    ∀ {pcb pcb' : SndPcb} {room : Nat} {out : List WireSeg} {err : ErrT},
      pcb.outputLoop ends rcv wnd segs room = some (pcb', out, err) → P pcb → P pcb' := by
  induction segs with
  | nil =>
    intro pcb pcb' room out err hloop hP
    rw [SndPcb.outputLoop] at hloop
    cases hloop
    exact hP
  | cons seg next ih =>
    intro pcb pcb' room out err hloop hP
    obtain ⟨rfl, -⟩ | ⟨w, -, -, hrest⟩ := outputLoop_cases hloop
    · exact hP
    · obtain ⟨-, rfl, -⟩ | ⟨out', -, hloop', -⟩ := hrest
      · exact hfail pcb hP
      · exact ih hloop' (hsent pcb seg next hP)

namespace SndPcb

variable {fixed : Prop} {pcb pcb' : SndPcb} {ends : Endpoints} {rcv : RcvHeader} {net : Netif} {out : List WireSeg}
  {err : ErrT}

private theorem startTimer_rtime (pcb : SndPcb) : 0 ≤ pcb.startTimer.rtime := by
  rw [startTimer]
  dsimp only
  split <;> omega

theorem Paced.startTimer (h : pcb.Paced fixed) : pcb.startTimer.Paced fixed :=
  ⟨fun _ => pcb.startTimer_rtime, h.persist, h.backoff, h.cwnd, h.ssthresh, h.snd_wnd⟩

theorem Paced.sent {seg : SndSeg} {next : List SndSeg} (h : pcb.Paced fixed) (hzero : pcb.persist_backoff = 0)
    (htime : 0 ≤ pcb.rtime) : (pcb.sent seg next).Paced fixed where
  timed _ := htime
  persist hpos := by
    have hzero' : (pcb.sent seg next).persist_backoff = 0 := hzero
    omega
  backoff := h.backoff
  cwnd := h.cwnd
  ssthresh := h.ssthresh
  snd_wnd := h.snd_wnd

private theorem outputLoop_paced {wnd room : Nat} {segs : List SndSeg}
    (hloop : pcb.outputLoop ends rcv wnd segs room = some (pcb', out, err)) (h : pcb.Paced fixed)
    (hzero : pcb.persist_backoff = 0) : pcb'.Paced fixed := by
  apply And.left
  apply outputLoop_invariant (P := fun pcb => pcb.Paced fixed ∧ pcb.persist_backoff = 0) ?_ ?_ segs hloop
  · exact ⟨h, hzero⟩
  · rintro pcb seg next ⟨hpaced, hzero⟩
    exact ⟨hpaced.startTimer.sent hzero pcb.startTimer_rtime, hzero⟩
  · rintro pcb ⟨hpaced, hzero⟩
    have hstarted := hpaced.startTimer
    exact ⟨⟨hstarted.timed, hstarted.persist, hstarted.backoff, hstarted.cwnd, hstarted.ssthresh,
      hstarted.snd_wnd⟩, hzero⟩

private theorem outputLoop_rtime {wnd room : Nat} {segs : List SndSeg}
    (hloop : pcb.outputLoop ends rcv wnd segs room = some (pcb', out, err)) (h : 0 ≤ pcb.rtime) :
    0 ≤ pcb'.rtime := by
  apply outputLoop_invariant (P := fun pcb => 0 ≤ pcb.rtime) ?_ ?_ segs hloop h
  · intro pcb seg next _
    exact pcb.startTimer_rtime
  · intro pcb _
    exact pcb.startTimer_rtime

theorem Paced.startPersist (h : pcb.Paced fixed) (wnd : Nat) : (pcb.startPersist wnd).Paced fixed := by
  rw [SndPcb.startPersist]
  split
  · rename_i hstart
    exact ⟨h.timed, fun _ => hstart.2.1, by simp, h.cwnd, h.ssthresh, h.snd_wnd⟩
  · exact h

/-- `outputIdle` changes only flags. -/
theorem outputIdle_spec (hout : pcb.outputIdle net = (pcb', out, err)) :
    ∃ nagleMemErr ackNow, pcb' = { pcb with nagleMemErr, ackNow } := by
  rw [SndPcb.outputIdle] at hout
  obtain ⟨-, hout⟩ | ⟨-, hout⟩ := ite_eq_iff.mp hout
  · obtain ⟨-, hout⟩ | ⟨-, hout⟩ := ite_eq_iff.mp hout
    · cases hout
      exact ⟨_, _, rfl⟩
    · cases hout
      exact ⟨_, _, rfl⟩
  · cases hout
    exact ⟨_, _, rfl⟩

theorem Paced.flags {nagleMemErr ackNow : Bool} (h : pcb.Paced fixed) : { pcb with nagleMemErr, ackNow }.Paced fixed :=
  ⟨h.timed, h.persist, h.backoff, h.cwnd, h.ssthresh, h.snd_wnd⟩

theorem Paced.tcp_output (h : pcb.Paced fixed) (hout : pcb.tcp_output ends rcv net = some (pcb', out, err)) :
    pcb'.Paced fixed := by
  rw [SndPcb.tcp_output] at hout
  rcases hunsent : pcb.unsent with _ | ⟨seg, next⟩
  · rw [hunsent] at hout
    obtain ⟨_, _, rfl⟩ := outputIdle_spec (Option.some.inj hout)
    exact h.flags
  · rw [hunsent] at hout
    dsimp only at hout
    obtain ⟨-, hout⟩ | ⟨-, hout⟩ := ite_eq_iff.mp hout
    · cases hout
      exact h
    · obtain ⟨-, hout⟩ | ⟨-, hout⟩ := ite_eq_iff.mp hout
      · obtain ⟨_, _, rfl⟩ := outputIdle_spec (Option.some.inj hout)
        exact (h.startPersist _).flags
      · obtain ⟨⟨pcb'', out', err'⟩, hloop, hout⟩ := Option.bind_eq_some_iff.mp hout
        have hstopped : pcb.stopPersist.Paced fixed :=
          ⟨h.timed, fun hpos => absurd hpos (Nat.lt_irrefl 0), Nat.zero_le _, h.cwnd, h.ssthresh, h.snd_wnd⟩
        have hloop' := outputLoop_paced hloop hstopped rfl
        obtain ⟨-, hout⟩ | ⟨-, hout⟩ := ite_eq_iff.mp hout
        · cases hout
          exact hloop'
        · cases hout
          exact ⟨hloop'.timed, hloop'.persist, hloop'.backoff, hloop'.cwnd, hloop'.ssthresh, hloop'.snd_wnd⟩

end SndPcb

/-- Behind `tcp_output` a timer runs while there is anything to send, if no segment is longer than
    the MSS and the congestion window is not shorter. -/
theorem Outgoing.tcp_output_awake {fixed wide : Prop} {stream : List UInt8} {iss : BitVec 32}
    {all : List SndSeg} {una ack nxt : Nat} {pcb pcb' : SndPcb} {ends : Endpoints} {rcv : RcvHeader}
    {net : Netif} {out : List WireSeg} {err : ErrT} (h : Outgoing fixed wide stream iss all una ack nxt pcb)
    (hpaced : pcb.Paced fixed) (hfixed : fixed) (hroute : net.route = true)
    (hout : pcb.tcp_output ends rcv net = some (pcb', out, err)) : pcb'.Awake := by
  rw [SndPcb.tcp_output] at hout
  rcases hunsent : pcb.unsent with _ | ⟨seg, next⟩
  · rw [hunsent] at hout
    obtain ⟨_, _, rfl⟩ := SndPcb.outputIdle_spec (Option.some.inj hout)
    by_cases hunacked : pcb.unacked = []
    · exact .inl ⟨hunacked, hunsent⟩
    · exact .inr (.inl (hpaced.timed hunacked))
  · rw [hunsent] at hout
    dsimp only at hout
    rw [if_neg (by simp [hroute])] at hout
    obtain ⟨hwnd, hout⟩ | ⟨hwnd, hout⟩ := ite_eq_iff.mp hout
    · obtain ⟨_, _, rfl⟩ := SndPcb.outputIdle_spec (Option.some.inj hout)
      by_cases hunacked : pcb.unacked = []
      · have hsplit := h.split
        rw [hunacked, hunsent] at hsplit
        have hall := hsplit.eq_right
        refine .inr (.inr ?_)
        dsimp only
        rw [SndPcb.startPersist]
        by_cases hbackoff : pcb.persist_backoff = 0
        · have htiles := h.tiles
          have hpending := h.pending hbackoff seg next hall
          rw [hall] at htiles
          have huna := h.una_le
          have hnear := h.near
          have hle := htiles.2.2.le
          have htcplen : seg.tcplen = seg.len + seg.fin.toNat := rfl
          have hlen := h.len hfixed seg (hall ▸ List.mem_cons_self)
          have hcwnd := hpaced.cwnd hfixed
          rw [h.reach_eq htiles.1, toNat_after_sub_after iss hpending (by omega)] at hwnd
          have hwhole : min pcb.snd_wnd pcb.cwnd = pcb.snd_wnd := by omega
          rw [if_pos ⟨hwhole, hunacked, hbackoff⟩]
          exact Nat.one_pos
        · rw [if_neg (fun hstart => hbackoff hstart.2.2)]
          omega
      · have htimed := hpaced.timed hunacked
        refine .inr (.inl ?_)
        dsimp only
        rw [SndPcb.startPersist]
        split
        · exact htimed
        · exact htimed
    · obtain ⟨⟨pcb'', out', err'⟩, hloop, hout⟩ := Option.bind_eq_some_iff.mp hout
      have htime : 0 ≤ pcb''.rtime := by
        obtain ⟨rfl, -, -, hstop⟩ | ⟨w, -, -, hrest⟩ := outputLoop_cases hloop
        · have hreach : pcb.stopPersist.reach seg ≤ min pcb.snd_wnd pcb.cwnd := Nat.le_of_not_lt hwnd
          apply hpaced.timed
          intro hunacked
          apply hstop
          refine ⟨hreach, ?_⟩
          rw [SndPcb.tcp_do_output_nagle]
          simp [SndPcb.stopPersist, hunacked]
        · obtain ⟨-, rfl, -⟩ | ⟨out'', -, hloop', -⟩ := hrest
          · exact SndPcb.startTimer_rtime _
          · exact SndPcb.outputLoop_rtime hloop' (SndPcb.startTimer_rtime _)
      obtain ⟨-, hout⟩ | ⟨-, hout⟩ := ite_eq_iff.mp hout
      · cases hout
        exact .inr (.inl htime)
      · cases hout
        exact .inr (.inl htime)

end tun2proxy.core
