import Tun2Proxy.Lwip.InSequence

open tun2proxy.circular

namespace tun2proxy.core

/-- The headers so far have announced the window up to place `a` of the stream and not
    further, and the next one takes nothing of it back. `n` is the place of `rcv_nxt`. -/
structure Announced (irs : BitVec 32) (a n : Nat) (pcb : RcvPcb) : Prop where
  rcv_nxt : pcb.rcv_nxt = after irs n
  rightEdge : pcb.rcv_ann_right_edge = after irs a
  le : n ≤ a
  kept : a ≤ n + pcb.rcv_ann_wnd
  ann : pcb.rcv_ann_wnd ≤ pcb.rcv_wnd
  wnd : pcb.rcv_wnd ≤ TCP_WND

section

variable {stream : List UInt8} {irs : BitVec 32} {a n : Nat} {pcb : RcvPcb}

namespace Announced

theorem at_rcv_nxt (h : Announced irs a n pcb) {m : Nat} (hnxt : pcb.rcv_nxt = after irs m)
    (hle : m < n + 2 ^ 32) (hge : n < m + 2 ^ 32) : n = m :=
  (after_inj irs hge hle).mp (h.rcv_nxt.symm.trans hnxt)

theorem le_edge (h : Announced irs a n pcb) : a ≤ n + pcb.rcv_wnd := by
  have hkept := h.kept
  have hann := h.ann
  omega

end Announced

theorem accepted_announced (irs : BitVec 32) (mss : Nat) :
    Announced irs TCP_WND 0 (.accepted irs mss) where
  rcv_nxt := (after_zero irs).symm
  rightEdge := rfl
  le := Nat.zero_le _
  kept := by simp [RcvPcb.accepted]
  ann := le_rfl
  wnd := le_rfl

/-- `tcp_update_rcv_ann_wnd` when the window reaches at least as far as was announced. -/
theorem tcp_update_rcv_ann_wnd_announced (hnxt : pcb.rcv_nxt = after irs n)
    (hright : pcb.rcv_ann_right_edge = after irs a) (hle : n ≤ a) (hedge : a ≤ n + pcb.rcv_wnd)
    (hwnd : pcb.rcv_wnd ≤ TCP_WND) :
    ∃ pcb', pcb.tcp_update_rcv_ann_wnd = some pcb' ∧ Announced irs a n pcb' := by
  have hbound := hwnd
  unfold TCP_WND at hbound
  have hlow : ¬TCP_SEQ_GT pcb.rcv_nxt pcb.rcv_ann_right_edge := by
    rw [TCP_SEQ_GT, hnxt, hright, dist_after irs (by omega) (by omega)]
    omega
  have hnew : (pcb.rcv_ann_right_edge - pcb.rcv_nxt).toNat = a - n := by
    rw [hnxt, hright, toNat_after_sub_after irs hle (by omega)]
  unfold RcvPcb.tcp_update_rcv_ann_wnd
  by_cases hopened : TCP_SEQ_GEQ pcb.rightEdge
      (pcb.rcv_ann_right_edge + BitVec.ofNat 32 (min (TCP_WND / 2) pcb.mss))
  · rw [if_pos hopened]
    exact ⟨_, rfl, hnxt, hright, hle, hedge, le_rfl, hwnd⟩
  · have hasserted : (pcb.rcv_ann_right_edge - pcb.rcv_nxt).toNat ≤ 0xffff := by omega
    rw [if_neg hopened, if_neg hlow]
    dsimp only
    rw [LWIP_ASSERT_of hasserted, hnew]
    exact ⟨_, rfl, hnxt, hright, hle, by dsimp only; omega, by dsimp only; omega, hwnd⟩

/-- A segment inside the announced window is taken: no assertion fails. -/
theorem advance_announced {seg : TcpSeg} (h : Announced irs a n pcb) (hend : n + seg.tcplen ≤ a) :
    ∃ pcb', pcb.advance seg = some pcb' ∧ Announced irs a (n + seg.tcplen) pcb' := by
  have hedge := h.le_edge
  have hwnd := h.wnd
  have hfits : seg.tcplen ≤ pcb.rcv_wnd := by omega
  rw [RcvPcb.advance, LWIP_ASSERT_of hfits, Option.bind_eq_bind, Option.bind_some]
  apply tcp_update_rcv_ann_wnd_announced
  · dsimp only
    rw [h.rcv_nxt, after_add]
  · exact h.rightEdge
  · exact hend
  · dsimp only
    omega
  · dsimp only
    omega

private theorem dequeue_announced {queue : List TcpSeg} :
    ∀ {n : Nat} {pcb : RcvPcb} {recv : RecvData}, Announced irs a n pcb →
      Queued stream irs a n queue → a < n + 2 ^ 30 →
      ∃ pcb' recv', pcb.dequeue recv queue = some (pcb', recv') ∧
        ∃ n', n ≤ n' ∧ Announced irs a n' pcb' := by
  induction queue with
  | nil =>
    intro n pcb recv h _ _
    exact ⟨_, _, rfl, n, le_rfl, h.rcv_nxt, h.rightEdge, h.le, h.kept, h.ann, h.wnd⟩
  | cons cseg rest ih =>
    intro n pcb recv h hqueue hnear
    obtain ⟨p, hp, hend, -, hseg, hfin, hrest⟩ := hqueue
    have hsame : cseg.seqno = pcb.rcv_nxt ↔ p = n := by
      rw [hseg.seqno, h.rcv_nxt, after_inj irs (by omega) (by omega)]
    rw [RcvPcb.dequeue]
    by_cases hnext : p = n
    · subst hnext
      obtain ⟨mid, hmid, hannounced⟩ := advance_announced h hend
      -- a FIN is the end of the queue
      have hafter : Queued stream irs a (p + cseg.tcplen) rest := by
        by_cases hf : cseg.fin = true
        · rw [hfin hf]
          trivial
        · rw [TcpSeg.tcplen_of_not_fin (Bool.eq_false_iff.mpr hf)]
          exact hrest
      have hle := hannounced.le
      rw [if_pos (hsame.mpr rfl), hmid, Option.bind_eq_bind, Option.bind_some]
      obtain ⟨pcb', recv', heq, n', hn', hannounced'⟩ := ih hannounced hafter (by omega)
      exact ⟨pcb', recv', heq, n', by omega, hannounced'⟩
    · rw [if_neg (fun hs => hnext (hsame.mp hs))]
      exact ⟨_, _, rfl, n, le_rfl, h.rcv_nxt, h.rightEdge, h.le, h.kept, h.ann, h.wnd⟩

private theorem receiveNext_announced {inseg : TcpSeg} (h : Announced irs a n pcb)
    (hseg : SegOf stream irs n inseg) (hpos : 0 < inseg.tcplen) (hend : n + inseg.tcplen ≤ a)
    (hqueue : Queued stream irs a (n + 1) pcb.ooseq) :
    ∃ pcb' recv, pcb.receiveNext inseg = some (pcb', recv) ∧
      ∃ n', n ≤ n' ∧ Announced irs a n' pcb' := by
  have hedge := h.le_edge
  have hwnd := h.wnd
  unfold TCP_WND at hwnd
  obtain ⟨fit, hfit, -, -, -, -, hsame⟩ := fitWindow_spec hseg hpos
    (show 0 < pcb.rcv_wnd by omega)
  obtain rfl := hsame (by omega)
  obtain ⟨cut, queue, hcut, hcutSeg, hcutPos, hcutEnd, hcutFin, hqueue', -, -⟩ :=
    adjustOoseq_spec hseg hpos hend hqueue (by omega)
  obtain ⟨mid, hmid, hannounced⟩ := advance_announced h hcutEnd
  have hafter : Queued stream irs a (n + cut.tcplen) queue := by
    by_cases hf : cut.fin = true
    · rw [hcutFin hf]
      trivial
    · rw [TcpSeg.tcplen_of_not_fin (Bool.eq_false_iff.mpr hf)]
      exact hqueue'
  obtain ⟨pcb', recv, heq, n', hn', hannounced'⟩ := dequeue_announced hannounced hafter (by omega)
  refine ⟨pcb', recv, ?_, n', by omega, hannounced'⟩
  rw [RcvPcb.receiveNext, h.rcv_nxt, hfit, Option.bind_eq_bind, Option.bind_some, hcut,
    Option.bind_eq_bind, Option.bind_some]
  dsimp only
  rw [hmid, Option.bind_eq_bind, Option.bind_some, heq]

/-- A segment of the stream inside the announced window never fails an assertion, and
    nothing that was announced is taken back. -/
theorem tcp_receive_announced {edge p : Nat} {seg : TcpSeg} (h : Announced irs a n pcb)
    (htaken : TakenTo stream irs edge a n false pcb) (hseg : SegOf stream irs p seg)
    (hend : p + seg.tcplen ≤ a) (hold : n < p + 2 ^ 30) (copied : Bool) :
    ∃ pcb' recv, pcb.tcp_receive seg copied = some (pcb', recv) ∧
      ∃ n', n ≤ n' ∧ Announced irs a n' pcb' := by
  have hright : n + pcb.rcv_wnd = edge := htaken.rcv_wnd
  have hedge := h.le_edge
  have hwnd := h.wnd
  have hbound := h.wnd
  unfold TCP_WND at hbound
  have hsame : ∃ pcb' recv, some (pcb, (⟨[], false⟩ : RecvData)) = some (pcb', recv) ∧
      ∃ n', n ≤ n' ∧ Announced irs a n' pcb' := ⟨_, _, rfl, n, le_rfl, h⟩
  by_cases hactive : 0 < seg.tcplen ∧ pcb.receives = true
  · obtain ⟨hpos, hrcv⟩ := hactive
    by_cases hnext : p ≤ n ∧ n < p + seg.tcplen ∧ n < edge
    · obtain ⟨cut, hcut, hfin, hlen, hcutPos, heq⟩ := tcp_receive_next htaken hrcv hseg hpos
        (by omega) hold hwnd copied hnext.1 hnext.2.1 hnext.2.2
      rw [heq]
      apply receiveNext_announced h hcut hcutPos ?_ htaken.queue
      rw [TcpSeg.tcplen] at hend ⊢
      rw [hfin]
      omega
    · by_cases hahead : n < p ∧ p < edge
      · rw [tcp_receive_ahead htaken hrcv hseg hpos (by omega) hold hwnd copied hahead.1 hahead.2]
        cases copied with
        | false => exact hsame
        | true =>
          obtain ⟨queue, heq, -⟩ := enqueueOos_spec hseg hpos hend (show n + 1 ≤ p by omega)
            hahead.2 (by omega) (by omega) htaken.queue
          rw [if_pos rfl, heq]
          exact ⟨_, _, rfl, n, le_rfl, h.rcv_nxt, h.rightEdge, h.le, h.kept, h.ann, h.wnd⟩
      · rw [tcp_receive_other htaken hseg hpos (by omega) hold hwnd copied hnext hahead]
        exact hsame
  · rw [RcvPcb.tcp_receive, if_neg hactive]
    exact hsame

/-- The window that `tcp_recved` opens. -/
theorem recved_wnd {wnd len : Nat} (hwnd : wnd ≤ TCP_WND) (hlen : len < 2 ^ 16) :
    (if TCP_WND < (wnd + len) % 2 ^ 16 ∨ (wnd + len) % 2 ^ 16 < wnd then TCP_WND
      else (wnd + len) % 2 ^ 16) = min TCP_WND (wnd + len) := by
  unfold TCP_WND at *
  split <;> omega

theorem tcp_recved_announced {len : Nat} (h : Announced irs a n pcb) (hlen : len < 2 ^ 16) :
    ∃ pcb', pcb.tcp_recved len = some pcb' ∧ Announced irs a n pcb' := by
  have hedge := h.le_edge
  have hwnd := h.wnd
  rw [RcvPcb.tcp_recved, recved_wnd hwnd hlen]
  apply tcp_update_rcv_ann_wnd_announced
  · exact h.rcv_nxt
  · exact h.rightEdge
  · exact h.le
  · dsimp only
    omega
  · exact Nat.min_le_left _ _

/-- A header announces the window up to `rcv_ann_wnd`. -/
theorem announce_announced (h : Announced irs a n pcb) :
    Announced irs (max a (n + pcb.rcv_ann_wnd)) n pcb.announce := by
  have hkept := h.kept
  rw [Nat.max_eq_right hkept]
  refine ⟨h.rcv_nxt, ?_, by omega, le_rfl, h.ann, h.wnd⟩
  rw [RcvPcb.announce, h.rcv_nxt, after_add]

end

end tun2proxy.core
