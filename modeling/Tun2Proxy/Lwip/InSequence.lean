import Tun2Proxy.Lib.Machine
import Tun2Proxy.Lwip.Ooseq

open tun2proxy.circular tun2proxy.machine tun2proxy.machine.Machine

namespace tun2proxy.core

namespace RcvPcb

theorem tcp_update_rcv_ann_wnd_frame {pcb pcb' : RcvPcb}
    (h : pcb.tcp_update_rcv_ann_wnd = some pcb') :
    ∃ rcv_ann_wnd, pcb' = { pcb with rcv_ann_wnd } := by
  unfold tcp_update_rcv_ann_wnd at h
  split at h
  · exact ⟨_, (Option.some.inj h).symm⟩
  · split at h
    · exact ⟨_, (Option.some.inj h).symm⟩
    · obtain ⟨u, -, h⟩ := Option.bind_eq_some_iff.mp h
      exact ⟨_, (Option.some.inj h).symm⟩

theorem advance_eq_some {pcb pcb' : RcvPcb} {seg : TcpSeg} (h : pcb.advance seg = some pcb') :
    seg.tcplen ≤ pcb.rcv_wnd ∧ ∃ rcv_ann_wnd, pcb' =
      { pcb with
        rcv_nxt := pcb.rcv_nxt + BitVec.ofNat 32 seg.tcplen
        rcv_wnd := pcb.rcv_wnd - seg.tcplen
        rcv_ann_wnd } := by
  obtain ⟨u, hfits, h⟩ := Option.bind_eq_some_iff.mp h
  exact ⟨LWIP_ASSERT_eq_some.mp hfits, tcp_update_rcv_ann_wnd_frame h⟩

end RcvPcb

section

variable {stream : List UInt8} {irs : BitVec 32}

/-- `n` bytes of the stream and, with `fin`, its FIN were taken; the right edge of the
    window is at `edge` and `ooseq` ends before `hi`. -/
structure TakenTo (stream : List UInt8) (irs : BitVec 32) (edge hi n : Nat) (fin : Bool)
    (pcb : RcvPcb) : Prop where
  le : n ≤ stream.length
  last : fin = true → n = stream.length ∧ pcb.ooseq = []
  rcv_nxt : pcb.rcv_nxt = after irs (n + fin.toNat)
  rcv_wnd : n + fin.toNat + pcb.rcv_wnd = edge
  queue : Queued stream irs hi (n + fin.toNat + 1) pcb.ooseq

/-- A step over a segment that is next in sequence. -/
theorem advance_spec {edge n : Nat} {pcb pcb' : RcvPcb} {seg : TcpSeg}
    (hnxt : pcb.rcv_nxt = after irs n) (hwnd : n + pcb.rcv_wnd = edge) (h : pcb.advance seg = some pcb') :
    pcb'.rcv_nxt = after irs (n + seg.data.length + seg.fin.toNat) ∧
      n + seg.data.length + seg.fin.toNat + pcb'.rcv_wnd = edge ∧
      pcb'.mss = pcb.mss ∧ pcb'.rcv_ann_right_edge = pcb.rcv_ann_right_edge ∧
      pcb'.receives = pcb.receives := by
  have htcplen : seg.tcplen = seg.data.length + seg.fin.toNat := by
    rw [TcpSeg.tcplen]
    cases seg.fin <;> rfl
  obtain ⟨hfits, ann, rfl⟩ := RcvPcb.advance_eq_some h
  refine ⟨?_, ?_, rfl, rfl, rfl⟩
  · rw [hnxt, after_add, htcplen, Nat.add_assoc]
  · dsimp only
    omega

/-- The loop over `ooseq` takes what continues the stream, and leaves a queue that
    begins behind a hole. -/
theorem dequeue_spec {edge hi n₀ : Nat} {queue : List TcpSeg} :
    ∀ {n : Nat} {pcb pcb' : RcvPcb} {recv recv' : RecvData},
      n ≤ stream.length → (recv.gotFin = true → n = stream.length ∧ queue = []) →
      pcb.rcv_nxt = after irs (n + recv.gotFin.toNat) →
      n + recv.gotFin.toNat + pcb.rcv_wnd = edge →
      Queued stream irs hi n queue → hi < n + 2 ^ 30 →
      stream.take n₀ ++ recv.data = stream.take n →
      pcb.dequeue recv queue = some (pcb', recv') →
      ∃ n', n ≤ n' ∧ TakenTo stream irs edge hi n' recv'.gotFin pcb' ∧
        stream.take n₀ ++ recv'.data = stream.take n' ∧ (recv.gotFin = true → recv'.gotFin = true) ∧
        (∀ next rest, queue = next :: rest → next.seqno = after irs n → n + next.data.length ≤ n') ∧
        pcb'.mss = pcb.mss ∧ pcb'.rcv_ann_right_edge = pcb.rcv_ann_right_edge ∧
        pcb'.receives = pcb.receives := by
  induction queue with
  | nil =>
    intro n pcb pcb' recv recv' hle hfin hnxt hwnd _ _ hdata h
    cases h
    exact ⟨n, le_rfl, ⟨hle, fun hf => ⟨(hfin hf).1, rfl⟩, hnxt, hwnd, trivial⟩, hdata, id, by simp,
      rfl, rfl, rfl⟩
  | cons cseg rest ih =>
    intro n pcb pcb' recv recv' hle hfin hnxt hwnd hqueue hhi hdata h
    obtain ⟨p, hp, hpend, hpos, hseg, hsegFin, hrest⟩ := hqueue
    have hopen : recv.gotFin = false := by
      by_contra hf
      exact absurd (hfin (Bool.eq_true_of_not_eq_false hf)).2 (by simp)
    rw [hopen, Bool.toNat_false, Nat.add_zero] at hnxt hwnd
    have hsame : cseg.seqno = pcb.rcv_nxt ↔ p = n := by
      rw [hseg.seqno, hnxt, after_inj irs (by omega) (by omega)]
    rw [RcvPcb.dequeue] at h
    by_cases hnext : p = n
    · subst hnext
      rw [if_pos (hsame.mpr rfl)] at h
      obtain ⟨mid, hadv, h⟩ := Option.bind_eq_some_iff.mp h
      obtain ⟨hmidNxt, hmidWnd, hmss, hann, hrcv⟩ := advance_spec hnxt hwnd hadv
      have hstream := hseg.end_le
      have hor : (recv.gotFin || cseg.fin) = cseg.fin := by rw [hopen, Bool.false_or]
      rw [hor] at h
      obtain ⟨n', hn', htaken, hdata', -, -, hmss', hann', hrcv'⟩ :=
        ih hstream (fun hf => ⟨hseg.fin hf, hsegFin hf⟩) hmidNxt hmidWnd hrest (by omega)
          (by rw [← List.append_assoc, hdata, hseg.take_append]) h
      refine ⟨n', by omega, htaken, hdata', by simp [hopen], ?_, hmss'.trans hmss,
        hann'.trans hann, hrcv'.trans hrcv⟩
      rintro next rest' hcons -
      cases hcons
      exact hn'
    · rw [if_neg (fun h => hnext (hsame.mp h))] at h
      cases h
      refine ⟨n, le_rfl, ⟨hle, by simp [hopen], ?_, ?_, ?_⟩, hdata, id, ?_, rfl, rfl, rfl⟩
      · rw [hopen]
        exact hnxt
      · rw [hopen]
        exact hwnd
      · rw [hopen]
        exact ⟨p, by simp only [Bool.toNat_false]; omega, hpend, hpos, hseg, hsegFin, hrest⟩
      · intro next rest' hcons hplace
        cases hcons
        exact absurd (hsame.mp (hplace.trans hnxt.symm)) hnext

/-- What fits the window stays of a segment. -/
theorem fitWindow_spec {n rcv_wnd : Nat} {seg : TcpSeg} (hseg : SegOf stream irs n seg)
    (hpos : 0 < seg.tcplen) (hwnd : 0 < rcv_wnd) :
    ∃ cut, seg.fitWindow (after irs n) rcv_wnd = some cut ∧ SegOf stream irs n cut ∧
      0 < cut.tcplen ∧ cut.tcplen = min seg.tcplen rcv_wnd ∧
      min seg.data.length rcv_wnd ≤ cut.data.length ∧
      (seg.tcplen ≤ rcv_wnd → cut = seg) := by
  have hle := seg.tcplen_le_succ
  by_cases hover : rcv_wnd < seg.tcplen
  · have hcut := hseg.take rcv_wnd
    have hcutLen : (seg.data.take rcv_wnd).length = rcv_wnd := by
      rw [List.length_take]
      omega
    have htcplen : ({ seg with data := seg.data.take rcv_wnd, fin := false } : TcpSeg).tcplen =
        rcv_wnd := by rw [TcpSeg.tcplen_of_not_fin rfl, hcutLen]
    have hasserted : ({ seg with data := seg.data.take rcv_wnd, fin := false } : TcpSeg).ends =
        after irs n + BitVec.ofNat 32 rcv_wnd := by rw [hcut.ends_eq, htcplen, after_add]
    refine ⟨_, ?_, hcut, by omega, by omega, ?_, by omega⟩
    · rw [TcpSeg.fitWindow, if_pos hover]
      dsimp only
      rw [LWIP_ASSERT_of hasserted]
      rfl
    · dsimp only
      omega
  · refine ⟨seg, by rw [TcpSeg.fitWindow, if_neg hover], hseg, hpos, by omega, by omega,
      fun _ => rfl⟩

/-- A segment that is next in sequence and the queue are cut so that they do not overlap. -/
theorem adjustOoseq_spec {hi n : Nat} {pcb : RcvPcb} {inseg : TcpSeg}
    (hseg : SegOf stream irs n inseg) (hpos : 0 < inseg.tcplen) (hend : n + inseg.tcplen ≤ hi)
    (hqueue : Queued stream irs hi (n + 1) pcb.ooseq) (hhi : hi < n + 2 ^ 30) :
    ∃ cut queue, pcb.adjustOoseq inseg = some (cut, queue) ∧ SegOf stream irs n cut ∧
      0 < cut.tcplen ∧ n + cut.tcplen ≤ hi ∧ (cut.fin = true → queue = []) ∧
      Queued stream irs hi (n + cut.data.length) queue ∧
      (cut.data.length < inseg.data.length → ∃ next rest, queue = next :: rest ∧
        next.seqno = after irs (n + cut.data.length) ∧
        inseg.data.length < cut.data.length + next.data.length) ∧
      (inseg.fin = true → cut.fin = true) := by
  unfold RcvPcb.adjustOoseq
  by_cases hfin : inseg.fin = true
  · rw [if_pos hfin]
    exact ⟨_, _, rfl, hseg, hpos, hend, fun _ => rfl, trivial, by omega, fun _ => hfin⟩
  · have hfin' := Bool.eq_false_iff.mpr hfin
    have hlen := TcpSeg.tcplen_of_not_fin hfin'
    rw [if_neg hfin]
    obtain ⟨seg', queue', heq, hdata, hseg', hend', hlast, hqueue', hbeyond⟩ :=
      dropCovered_spec (fun _ h hf => h.ends_of_not_fin hf) hseg hfin' (by omega) hqueue
        (by omega) hhi
    have hsameLen : seg'.data.length = inseg.data.length := by rw [hdata]
    have hle := seg'.len_le_tcplen
    rw [heq]
    cases queue' with
    | nil =>
      exact ⟨_, _, rfl, hseg', by omega, hend', fun _ => rfl, trivial, by omega, by simp [hfin']⟩
    | cons next rest =>
      have hopen : seg'.fin = false := by
        by_contra hf
        exact absurd (hlast (Bool.eq_true_of_not_eq_false hf)) (by simp)
      have hlen' := TcpSeg.tcplen_of_not_fin hopen
      obtain ⟨q, hq, hqend, hqpos, hnext, hnextFin, hrest⟩ := hqueue'
      have hcov := hbeyond next rest rfl q hnext.seqno hq (by omega)
      have hgt : TCP_SEQ_GT seg'.ends next.seqno ↔ q < n + inseg.data.length := by
        rw [TCP_SEQ_GT, hseg'.ends_eq, hnext.seqno, dist_after irs (by omega) (by omega)]
        omega
      dsimp only
      by_cases hover : q < n + inseg.data.length
      · obtain ⟨hcut, hcutLen, hcutFin⟩ := hseg'.trimTo (q := q) (by omega) (by omega) hopen
        have hcutTcp := TcpSeg.tcplen_of_not_fin hcutFin
        have hplace : n + (seg'.trimTo (after irs q)).data.length = q := by omega
        have hasserted : (seg'.trimTo (after irs q)).ends = after irs q := by
          rw [hcut.ends_eq, hcutTcp, hplace]
        rw [if_pos (hgt.mpr hover), hnext.seqno, LWIP_ASSERT_of hasserted]
        refine ⟨_, _, rfl, hcut, by omega, by omega, by simp [hcutFin], ?_, ?_, by simp [hfin']⟩
        · rw [hplace]
          exact ⟨q, le_rfl, hqend, hqpos, hnext, hnextFin, hrest⟩
        · intro _
          exact ⟨next, rest, rfl, by rw [hplace, hnext.seqno], by omega⟩
      · rw [if_neg (fun h => hover (hgt.mp h))]
        refine ⟨_, _, rfl, hseg', by omega, hend', by simp [hopen], ?_, by omega, by simp [hfin']⟩
        exact ⟨q, by omega, hqend, hqpos, hnext, hnextFin, hrest⟩

/-- A segment that is next in sequence is taken, with everything of `ooseq` that it
    brings into sequence. -/
theorem receiveNext_spec {edge hi n : Nat} {pcb pcb' : RcvPcb} {inseg : TcpSeg} {recv : RecvData}
    (htaken : TakenTo stream irs edge hi n false pcb) (hseg : SegOf stream irs n inseg)
    (hpos : 0 < inseg.tcplen) (hwnd : 0 < pcb.rcv_wnd)
    (hend : n + min inseg.tcplen pcb.rcv_wnd ≤ hi) (hhi : hi < n + 2 ^ 30)
    (h : pcb.receiveNext inseg = some (pcb', recv)) :
    ∃ n', n < n' + recv.gotFin.toNat ∧ n ≤ n' ∧ TakenTo stream irs edge hi n' recv.gotFin pcb' ∧
      stream.take n ++ recv.data = stream.take n' ∧ min (n + inseg.data.length) edge ≤ n' ∧
      (inseg.fin = true → n + inseg.tcplen ≤ edge → recv.gotFin = true) ∧ pcb'.mss = pcb.mss ∧
      pcb'.rcv_ann_right_edge = pcb.rcv_ann_right_edge ∧ pcb'.receives = pcb.receives := by
  have hnxt : pcb.rcv_nxt = after irs n := htaken.rcv_nxt
  have hright : n + pcb.rcv_wnd = edge := htaken.rcv_wnd
  obtain ⟨fit, hfit, hfitSeg, hfitPos, hfitEnd, hfitData, hfitSame⟩ :=
    fitWindow_spec hseg hpos hwnd
  obtain ⟨cut, queue, hcut, hcutSeg, hcutPos, hcutEnd, hcutFin, hqueue, hcutNext, hkeep⟩ :=
    adjustOoseq_spec hfitSeg hfitPos (by omega) htaken.queue hhi
  obtain ⟨mid, hadv, h⟩ : ∃ mid, pcb.advance cut = some mid ∧
      mid.dequeue ⟨cut.data, cut.fin⟩ queue = some (pcb', recv) := by
    rw [RcvPcb.receiveNext, hnxt, hfit, Option.bind_eq_bind, Option.bind_some, hcut,
      Option.bind_eq_bind, Option.bind_some] at h
    exact Option.bind_eq_some_iff.mp h
  obtain ⟨hmidNxt, hmidWnd, hmss, hann, hrcv⟩ := advance_spec hnxt hright hadv
  obtain ⟨n', hn', htaken', hdata, hgot, hhead, hmss', hann', hrcv'⟩ :=
    dequeue_spec hcutSeg.end_le (fun hf => ⟨hcutSeg.fin hf, hcutFin hf⟩) hmidNxt hmidWnd hqueue
      (by omega) hcutSeg.take_append h
  refine ⟨n', ?_, by omega, htaken', hdata, ?_, ?_, hmss'.trans hmss, hann'.trans hann,
    hrcv'.trans hrcv⟩
  · by_cases hf : cut.fin = true
    · rw [hgot hf, Bool.toNat_true]
      omega
    · have hlen := TcpSeg.tcplen_of_not_fin (Bool.eq_false_iff.mpr hf)
      omega
  · by_cases hshort : cut.data.length < fit.data.length
    · obtain ⟨next, rest, hcons, hplace, hbeyond⟩ := hcutNext hshort
      have hbehind := hhead next rest hcons hplace
      clear hcutNext
      omega
    · clear hcutNext
      omega
  · intro hf hroom
    apply hgot
    apply hkeep
    rw [hfitSame (by omega)]
    exact hf

/-! ### The three ways of a segment through `tcp_receive` -/

section

variable {edge hi n p : Nat} {pcb : RcvPcb} {seg : TcpSeg}
  (htaken : TakenTo stream irs edge hi n false pcb) (hrcv : pcb.receives = true)
  (hseg : SegOf stream irs p seg) (hpos : 0 < seg.tcplen) (hnear : p < n + 2 ^ 30)
  (hold : n < p + 2 ^ 30) (hwnd : pcb.rcv_wnd ≤ TCP_WND) (copied : Bool)

include htaken hseg hpos hnear hold in
private theorem between_trim :
    TCP_SEQ_BETWEEN pcb.rcv_nxt (seg.seqno + 1) (seg.ends - 1) ↔ p < n ∧ n < p + seg.tcplen := by
  have hsmall := hseg.small
  have hle := seg.tcplen_le_succ
  have hnxt : pcb.rcv_nxt = after irs n := htaken.rcv_nxt
  have hlow : seg.seqno + 1 = after irs (p + 1) := by
    rw [hseg.seqno]
    exact after_add irs p 1
  have hhigh : seg.ends - 1 = after irs (p + seg.tcplen) - BitVec.ofNat 32 1 := by
    rw [hseg.ends_eq]
    rfl
  rw [TCP_SEQ_BETWEEN, TCP_SEQ_GEQ, TCP_SEQ_LEQ, hnxt, hlow, hhigh,
    dist_after irs (by omega) (by omega), dist_after_pred irs (by omega) (by omega)]
  omega

include htaken hnear hold hwnd in
private theorem between_window (hseqno : seg.seqno = after irs p) :
    TCP_SEQ_BETWEEN seg.seqno pcb.rcv_nxt (pcb.rightEdge - 1) ↔ n ≤ p ∧ p < edge := by
  have hnxt : pcb.rcv_nxt = after irs n := htaken.rcv_nxt
  have hright : n + pcb.rcv_wnd = edge := htaken.rcv_wnd
  have hhigh : pcb.rightEdge - 1 = after irs edge - BitVec.ofNat 32 1 := by
    rw [RcvPcb.rightEdge, hnxt, after_add, hright]
    rfl
  unfold TCP_WND at hwnd
  rw [TCP_SEQ_BETWEEN, TCP_SEQ_GEQ, TCP_SEQ_LEQ, hnxt, hhigh, hseqno,
    dist_after irs (by omega) (by omega), dist_after_pred irs (by omega) (by omega)]
  omega

include htaken hseg hpos hnear hold in
/-- A segment with the next byte, or the FIN when that is next, is in sequence after
    its front was cut off. -/
theorem firstEdge_next (hpn : p ≤ n) (hn : n < p + seg.tcplen) :
    ∃ cut, pcb.firstEdge seg = some cut ∧ SegOf stream irs n cut ∧ cut.fin = seg.fin ∧
      n + cut.data.length = p + seg.data.length ∧ 0 < cut.tcplen := by
  have hnxt : pcb.rcv_nxt = after irs n := htaken.rcv_nxt
  have htrim := between_trim htaken hseg hpos hnear hold
  rw [RcvPcb.firstEdge]
  obtain hlt | rfl := Nat.lt_or_eq_of_le hpn
  · rw [if_pos (htrim.mpr ⟨hlt, hn⟩), hnxt]
    exact hseg.trimFront hpn hn
  · rw [if_neg (fun h => absurd (htrim.mp h).1 (by omega))]
    exact ⟨seg, rfl, hseg, rfl, rfl, hpos⟩

include htaken hseg hpos hnear hold in
theorem firstEdge_other (hother : ¬(p ≤ n ∧ n < p + seg.tcplen)) : pcb.firstEdge seg = some seg := by
  have htrim := between_trim htaken hseg hpos hnear hold
  rw [RcvPcb.firstEdge, if_neg (by rw [htrim]; omega)]

include htaken hrcv hseg hpos hnear hold hwnd in
theorem tcp_receive_next (hpn : p ≤ n) (hn : n < p + seg.tcplen) (hopen : n < edge) :
    ∃ cut, SegOf stream irs n cut ∧ cut.fin = seg.fin ∧
      n + cut.data.length = p + seg.data.length ∧ 0 < cut.tcplen ∧
      pcb.tcp_receive seg copied = pcb.receiveNext cut := by
  have hnxt : pcb.rcv_nxt = after irs n := htaken.rcv_nxt
  obtain ⟨cut, hcut, hcutSeg, hcutFin, hcutLen, hcutPos⟩ :=
    firstEdge_next htaken hseg hpos hnear hold hpn hn
  have hinside := (between_window htaken (p := n) (by omega) (by omega) hwnd hcutSeg.seqno).mpr
    ⟨le_rfl, hopen⟩
  refine ⟨cut, hcutSeg, hcutFin, hcutLen, hcutPos, ?_⟩
  rw [RcvPcb.tcp_receive, if_pos ⟨hpos, hrcv⟩, hcut, Option.bind_some, if_pos hinside,
    if_pos (hnxt.trans hcutSeg.seqno.symm)]

include htaken hrcv hseg hpos hnear hold hwnd in
/-- A segment that begins behind the next byte goes to `ooseq`. -/
theorem tcp_receive_ahead (hpn : n < p) (hedge : p < edge) :
    pcb.tcp_receive seg copied =
      if copied then
        (enqueueOos (after irs edge) seg pcb.ooseq).map fun ooseq => ({ pcb with ooseq }, ⟨[], false⟩)
      else some (pcb, ⟨[], false⟩) := by
  have hnxt : pcb.rcv_nxt = after irs n := htaken.rcv_nxt
  have hright : pcb.rightEdge = after irs edge := by
    rw [RcvPcb.rightEdge, hnxt, after_add]
    exact congrArg (after irs) htaken.rcv_wnd
  have hinside := between_window htaken hnear hold hwnd hseg.seqno
  have hother : pcb.rcv_nxt ≠ seg.seqno := by
    rw [hnxt, hseg.seqno, Ne, after_inj irs (by omega) (by omega)]
    omega
  rw [RcvPcb.tcp_receive, if_pos ⟨hpos, hrcv⟩,
    firstEdge_other htaken hseg hpos hnear hold (by omega), Option.bind_some,
    if_pos (hinside.mpr ⟨hpn.le, hedge⟩), if_neg hother, hright]

include htaken hseg hpos hnear hold hwnd in
/-- Any other segment changes nothing. -/
theorem tcp_receive_other (hnext : ¬(p ≤ n ∧ n < p + seg.tcplen ∧ n < edge))
    (hahead : ¬(n < p ∧ p < edge)) : pcb.tcp_receive seg copied = some (pcb, ⟨[], false⟩) := by
  unfold RcvPcb.tcp_receive
  by_cases hrcv : pcb.receives = true
  · rw [if_pos ⟨hpos, hrcv⟩]
    by_cases hin : p ≤ n ∧ n < p + seg.tcplen
    · obtain ⟨cut, hfront, hcut, -⟩ := firstEdge_next htaken hseg hpos hnear hold hin.1 hin.2
      have hinside := between_window htaken (p := n) (by omega) (by omega) hwnd hcut.seqno
      rw [hfront, Option.bind_some, if_neg (by rw [hinside]; omega)]
    · have hinside := between_window htaken hnear hold hwnd hseg.seqno
      rw [firstEdge_other htaken hseg hpos hnear hold hin, Option.bind_some,
        if_neg (by rw [hinside]; omega)]
  · rw [if_neg (fun h => hrcv h.2)]

end

end

end tun2proxy.core
