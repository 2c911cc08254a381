import Tun2Proxy.Lwip.Transmit

open tun2proxy.circular tun2proxy.split

namespace tun2proxy.core

/-- `TCP_WND_INC`. -/
def TCP_WND_INC (wnd inc : Nat) : Nat :=
  if wnd ≤ (wnd + inc) % 2 ^ 16 then (wnd + inc) % 2 ^ 16 else 2 ^ 16 - 1

/-- What the sending half reads of a segment. `tcplen` counts its data, SYN and FIN. -/
structure AckSeg where
  -- TCP_ACK
  ack : Bool
  seqno : BitVec 32
  ackno : BitVec 32
  wnd : BitVec 16
  tcplen : Nat
  -- the last MSS option
  mss : Option (BitVec 16)
  deriving DecidableEq, Repr

/-- `tcp_free_acked_segments`. The result has the list that is left, `snd_queuelen` and
    `recv_acked`. -/
def tcp_free_acked_segments (ackno : BitVec 32) (other : List SndSeg) :
    List SndSeg → Nat → Nat → Option (List SndSeg × Nat × Nat)
  | [], queuelen, recv_acked => some ([], queuelen, recv_acked)
  | next :: rest, queuelen, recv_acked =>
    if TCP_SEQ_LEQ next.ends ackno then do
      LWIP_ASSERT (next.clen ≤ queuelen)
      let queuelen := queuelen - next.clen
      let recv_acked := (recv_acked + next.len) % 2 ^ 16
      LWIP_ASSERT (queuelen ≠ 0 → rest ≠ [] ∨ other ≠ [])
      tcp_free_acked_segments ackno other rest queuelen recv_acked
    else some (next :: rest, queuelen, recv_acked)

namespace SndPcb

/-- `tcp_parseopt`. It takes the MSS option of every segment, also behind the SYN. -/
def tcp_parseopt (pcb : SndPcb) : Option (BitVec 16) → SndPcb
  | none => pcb
  | some mss => { pcb with mss := optMss mss, mss_pos := optMss_pos mss, mss_le := optMss_le mss }

/-- The segment leaves the MSS as it is. -/
def KeepsMss (pcb : SndPcb) (seg : AckSeg) : Prop := (pcb.tcp_parseopt seg.mss).mss = pcb.mss

instance (pcb : SndPcb) (seg : AckSeg) : Decidable (pcb.KeepsMss seg) := inferInstanceAs (Decidable (_ = _))

/-- The window update of `tcp_receive`. -/
def updateWindow (pcb : SndPcb) (seg : AckSeg) : SndPcb :=
  if TCP_SEQ_LT pcb.snd_wl1 seg.seqno ∨
      (pcb.snd_wl1 = seg.seqno ∧ TCP_SEQ_LT pcb.snd_wl2 seg.ackno) ∨
      (pcb.snd_wl2 = seg.ackno ∧ pcb.snd_wnd < seg.wnd.toNat) then
    { pcb with
      snd_wnd := seg.wnd.toNat
      snd_wnd_max := max pcb.snd_wnd_max seg.wnd.toNat
      snd_wl1 := seg.seqno
      snd_wl2 := seg.ackno }
  else pcb

/-- `tcp_rexmit`. No segment is busy, as the netif keeps no pbuf. -/
def tcp_rexmit (pcb : SndPcb) : SndPcb × ErrT :=
  match pcb.unacked with
  | [] => (pcb, .ERR_VAL)
  | seg :: next =>
    ({ pcb with
      unacked := next
      unsent := insertSorted Tiles.before seg pcb.unsent
      unsent_oversize :=
        if ∀ cur_seg ∈ pcb.unsent, Tiles.before cur_seg seg then 0 else pcb.unsent_oversize
      nrtx := if pcb.nrtx < 0xff then pcb.nrtx + 1 else pcb.nrtx }, .ERR_OK)

def tcp_rexmit_fast (pcb : SndPcb) : SndPcb :=
  if pcb.unacked ≠ [] ∧ pcb.infr = false then
    let (pcb, err) := pcb.tcp_rexmit
    if err = .ERR_OK then
      let ssthresh := max (min pcb.cwnd pcb.snd_wnd / 2) (2 * pcb.mss)
      { pcb with
        ssthresh
        cwnd := (ssthresh + 3 * pcb.mss) % 2 ^ 16
        infr := true
        rtime := 0 }
    else pcb
  else pcb

def countDup (pcb : SndPcb) : SndPcb :=
  let dupacks := if pcb.dupacks < 0xff then pcb.dupacks + 1 else pcb.dupacks
  { pcb with
    dupacks
    cwnd := if 3 < dupacks then TCP_WND_INC pcb.cwnd pcb.mss else pcb.cwnd }

/-- `tcp_receive` for an ACK of nothing new. -/
def receiveDup (pcb : SndPcb) (right_wnd_edge : BitVec 32) (seg : AckSeg) : SndPcb :=
  if seg.tcplen = 0 ∧ pcb.snd_wl2 + BitVec.ofNat 32 pcb.snd_wnd = right_wnd_edge ∧ 0 ≤ pcb.rtime ∧
      pcb.lastack = seg.ackno then
    let pcb := pcb.countDup
    if 3 ≤ pcb.dupacks then pcb.tcp_rexmit_fast else pcb
  else { pcb with dupacks := 0 }

/-- The congestion window after an ACK of `acked` new bytes. -/
def growCwnd (pcb : SndPcb) (acked : Nat) : SndPcb :=
  if pcb.cwnd < pcb.ssthresh then
    let num_seg := if pcb.inRto = true then 1 else 2
    { pcb with cwnd := TCP_WND_INC pcb.cwnd (min acked (num_seg * pcb.mss)) }
  else
    let bytes_acked := TCP_WND_INC pcb.bytes_acked acked
    if pcb.cwnd ≤ bytes_acked then
      { pcb with bytes_acked := bytes_acked - pcb.cwnd, cwnd := TCP_WND_INC pcb.cwnd pcb.mss }
    else { pcb with bytes_acked }

/-- The ACK takes the connection out of fast retransmit. -/
def leaveInfr (pcb : SndPcb) : SndPcb :=
  if pcb.infr = true then { pcb with infr := false, cwnd := pcb.ssthresh, bytes_acked := 0 } else pcb

/-- The ACK ends the retransmission of what was in flight at a timeout. -/
def endRto (pcb : SndPcb) : SndPcb :=
  let ended := match pcb.unacked, pcb.unsent with
    | [], [] => true
    | [], seg :: _ => decide (TCP_SEQ_LEQ pcb.rto_end seg.seqno)
    | seg :: _, _ => decide (TCP_SEQ_LEQ pcb.rto_end seg.seqno)
  { pcb with inRto := pcb.inRto && !ended }

/-- The queues and counters behind `tcp_free_acked_segments`. -/
def freed (pcb : SndPcb) (unacked unsent : List SndSeg) (queuelen recv_acked : Nat) : SndPcb :=
  { pcb with
    unacked
    unsent
    snd_queuelen := queuelen
    rtime := if unacked = [] then -1 else 0
    unsent_oversize := if unsent = [] then 0 else pcb.unsent_oversize
    snd_buf := (pcb.snd_buf + recv_acked) % 2 ^ 16 }

/-- The queues without what the ACK covers. -/
def freeAcked (pcb : SndPcb) (ackno : BitVec 32) : Option SndPcb := do
  let (unacked, queuelen, recv_acked) ←
    tcp_free_acked_segments ackno pcb.unsent pcb.unacked pcb.snd_queuelen 0
  let (unsent, queuelen, recv_acked) ←
    tcp_free_acked_segments ackno unacked pcb.unsent queuelen recv_acked
  return pcb.freed unacked unsent queuelen recv_acked

/-- `tcp_receive` for an ACK of new data. -/
def receiveNew (pcb : SndPcb) (ackno : BitVec 32) : Option SndPcb := do
  let acked := (ackno - pcb.lastack).toNat % 2 ^ 16
  let pcb := { pcb.leaveInfr with nrtx := 0, dupacks := 0, lastack := ackno }.growCwnd acked
  let pcb ← pcb.freeAcked ackno
  return pcb.endRto

/-- `tcp_receive` for the sending half. `ackSent` is whether an empty ACK goes out. -/
def tcp_receive (pcb : SndPcb) (seg : AckSeg) (ackSent : Bool) : Option SndPcb :=
  if seg.ack = false then some pcb
  else
  let right_wnd_edge := BitVec.ofNat 32 pcb.snd_wnd + pcb.snd_wl2
  let pcb := pcb.updateWindow seg
  if TCP_SEQ_LEQ seg.ackno pcb.lastack then some (pcb.receiveDup right_wnd_edge seg)
  else if TCP_SEQ_BETWEEN seg.ackno (pcb.lastack + 1) pcb.snd_nxt then pcb.receiveNew seg.ackno
  -- `tcp_send_empty_ack`
  else some { pcb with ackNow := !ackSent }

end SndPcb

/-! ### The queues behind an ACK -/

private theorem getLast_dropWhile {α : Type} {p : α → Bool} {l : List α} {last : α}
    (h : last ∈ (l.dropWhile p).getLast?) : last ∈ l.getLast? ∧ l.dropWhile p ≠ [] := by
  have hne : l.dropWhile p ≠ [] := by
    intro hnil
    rw [hnil] at h
    cases h
  obtain ⟨front, hfront⟩ := List.dropWhile_suffix (l := l) p
  refine ⟨?_, hne⟩
  rw [← hfront, List.getLast?_append_of_ne_nil _ hne]
  exact h

/-- The counters follow what is freed, and nothing in the way is out of count. -/
theorem tcp_free_acked_segments_eq (ackno : BitVec 32) (other l : List SndSeg) :
    ∀ queuelen recv_acked : Nat, queuelen = (l.map SndSeg.clen).sum + (other.map SndSeg.clen).sum →
      recv_acked + (l.map SndSeg.len).sum < 2 ^ 16 →
      ∃ queuelen' recv_acked', tcp_free_acked_segments ackno other l queuelen recv_acked =
          some (l.dropWhile (Tiles.acked ackno), queuelen', recv_acked') ∧
        queuelen' = ((l.dropWhile (Tiles.acked ackno)).map SndSeg.clen).sum +
          (other.map SndSeg.clen).sum ∧
        recv_acked' + ((l.dropWhile (Tiles.acked ackno)).map SndSeg.len).sum =
          recv_acked + (l.map SndSeg.len).sum := by
  induction l with
  | nil =>
    intro queuelen recv_acked hqueuelen _
    exact ⟨queuelen, recv_acked, rfl, hqueuelen, rfl⟩
  | cons next rest ih =>
    intro queuelen recv_acked hqueuelen hsmall
    rw [List.map_cons, List.sum_cons] at hqueuelen hsmall
    by_cases hacked : TCP_SEQ_LEQ next.ends ackno
    · have hdrop : (next :: rest).dropWhile (Tiles.acked ackno) = rest.dropWhile (Tiles.acked ackno) :=
        List.dropWhile_cons_of_pos (decide_eq_true hacked)
      have hvalid : queuelen - next.clen ≠ 0 → rest ≠ [] ∨ other ≠ [] := by
        intro hne
        by_contra hnone
        push Not at hnone
        rw [hnone.1, hnone.2] at hqueuelen
        simp only [List.map_nil, List.sum_nil] at hqueuelen
        omega
      obtain ⟨queuelen', recv_acked', heq, hqueuelen', hrecv⟩ :=
        ih (queuelen - next.clen) ((recv_acked + next.len) % 2 ^ 16) (by omega) (by omega)
      refine ⟨queuelen', recv_acked', ?_, ?_, ?_⟩
      · rw [tcp_free_acked_segments, if_pos hacked, LWIP_ASSERT_of (by omega), Option.bind_eq_bind,
          Option.bind_some]
        dsimp only
        rw [LWIP_ASSERT_of hvalid, Option.bind_some, hdrop, heq]
      · rw [hdrop, hqueuelen']
      · rw [hdrop, hrecv, List.map_cons, List.sum_cons]
        omega
    · have hdrop : (next :: rest).dropWhile (Tiles.acked ackno) = next :: rest :=
        List.dropWhile_cons_of_neg (by simpa [Tiles.acked] using hacked)
      rw [hdrop]
      refine ⟨queuelen, recv_acked, ?_, ?_, rfl⟩
      · rw [tcp_free_acked_segments, if_neg hacked]
      · rw [hqueuelen, List.map_cons, List.sum_cons]

/-- An ACK that `tcp_receive` takes is one of a place behind `ack`. -/
theorem ackno_place {iss ackno : BitVec 32} {ack nxt : Nat} (hle : ack ≤ nxt) (hnear : nxt < ack + 2 ^ 31)
    (hnew : ¬ TCP_SEQ_LEQ ackno (after iss ack)) (hsent : TCP_SEQ_LEQ ackno (after iss nxt)) :
    ∃ ack', ackno = after iss ack' ∧ ack < ack' ∧ ack' ≤ nxt := by
  generalize hsteps : (ackno - after iss ack).toNat = steps
  have hplace : ackno = after iss (ack + steps) := by
    rw [← after_add, ← hsteps, BitVec.ofNat_toNat, BitVec.setWidth_eq, BitVec.add_comm,
      BitVec.sub_add_cancel]
  rw [TCP_SEQ_LEQ, circular.dist, BitVec.toInt_eq_toNat_cond, hsteps] at hnew
  have hsteps' : 0 < steps ∧ steps < 2 ^ 31 := by
    have hlt := (ackno - after iss ack).isLt
    split at hnew <;> omega
  rw [hplace, TCP_SEQ_LEQ, dist_after iss (by omega) (by omega)] at hsent
  exact ⟨ack + steps, hplace, by omega, by omega⟩

theorem SndPcb.freed_oversize {pcb : SndPcb} {unacked unsent : List SndSeg} {queuelen recv_acked : Nat}
    (h : unsent ≠ []) :
    (pcb.freed unacked unsent queuelen recv_acked).unsent_oversize = pcb.unsent_oversize := if_neg h

/-- A larger window makes no segment smaller. -/
theorem SndPcb.mss_local_mono (pcb : SndPcb) {snd_wnd_max : Nat} (hmax : 2 ≤ pcb.snd_wnd_max)
    (hle : pcb.snd_wnd_max ≤ snd_wnd_max) : pcb.mss_local ≤ { pcb with snd_wnd_max }.mss_local := by
  have hpos := pcb.mss_pos
  rw [mss_local, mss_local]
  dsimp only
  rw [if_pos (by omega), if_pos (by omega)]
  omega

namespace Outgoing

variable {fixed wide : Prop} {stream : List UInt8} {iss : BitVec 32} {all : List SndSeg}
  {una ack nxt : Nat} {pcb : SndPcb}

/-- Where the MSS is not fixed, an option may change it. -/
theorem tcp_parseopt {mss : Option (BitVec 16)} (h : Outgoing fixed wide stream iss all una ack nxt pcb)
    (hmss : fixed → (pcb.tcp_parseopt mss).mss = pcb.mss) :
    Outgoing fixed wide stream iss all una ack nxt (pcb.tcp_parseopt mss) := by
  obtain _ | mss := mss
  · exact h
  · refine ⟨h.split, h.tiles, h.sound, h.una_le, h.pending, h.ack_le, h.nxt_le, h.lastack, h.snd_nxt,
      h.snd_lbb, h.snd_buf, h.snd_queuelen, h.closed, h.room, h.spent, h.oversize, ?_, ?_⟩
    · intro hfixed
      rw [hmss hfixed]
      exact h.len hfixed
    · intro hfixed hwide
      have hroomy := h.roomy hfixed hwide
      have hlocal : (pcb.tcp_parseopt (some mss)).mss_local = pcb.mss_local := by
        rw [SndPcb.mss_local, SndPcb.mss_local, hmss hfixed]
        rfl
      refine ⟨hroomy.snd_wnd_max, ?_, ?_⟩
      · rw [hlocal]
        exact hroomy.len
      · rw [hlocal]
        exact hroomy.tail

/-- A window update keeps the queues. -/
theorem updateWindow (h : Outgoing fixed wide stream iss all una ack nxt pcb) (seg : AckSeg) :
    Outgoing fixed wide stream iss all una ack nxt (pcb.updateWindow seg) := by
  rw [SndPcb.updateWindow]
  split
  · refine ⟨h.split, h.tiles, h.sound, h.una_le, h.pending, h.ack_le, h.nxt_le, h.lastack, h.snd_nxt,
      h.snd_lbb, h.snd_buf, h.snd_queuelen, h.closed, h.room, h.spent, h.oversize, h.len, ?_⟩
    intro hfixed hwide
    have hroomy := h.roomy hfixed hwide
    have hmax := hroomy.snd_wnd_max
    have hmono := pcb.mss_local_mono hmax (Nat.le_max_left pcb.snd_wnd_max seg.wnd.toNat)
    exact ⟨Nat.le_trans hmax (Nat.le_max_left _ _), fun s hs => Nat.le_trans (hroomy.len s hs) hmono,
      fun last hlast => Nat.le_trans (hroomy.tail last hlast) hmono⟩
  · exact h

/-- A retransmission goes to its place on `unsent`. -/
theorem tcp_rexmit (h : Outgoing fixed wide stream iss all una ack nxt pcb) :
    Outgoing fixed wide stream iss all una ack nxt pcb.tcp_rexmit.1 := by
  rw [SndPcb.tcp_rexmit]
  rcases hunacked : pcb.unacked with _ | ⟨seg, next⟩
  · exact h
  · have hsplit := h.split
    rw [hunacked] at hsplit
    have hmem : seg ∈ all := hsplit.mem_iff.mpr (.inl List.mem_cons_self)
    have hlast : ∀ last ∈ (insertSorted Tiles.before seg pcb.unsent).getLast?,
        (∀ cur_seg ∈ pcb.unsent, Tiles.before cur_seg seg) ∧ last = seg ∨
        (¬ ∀ cur_seg ∈ pcb.unsent, Tiles.before cur_seg seg) ∧ last ∈ pcb.unsent.getLast? := by
      intro last hlast
      by_cases hbehind : ∀ cur_seg ∈ pcb.unsent, Tiles.before cur_seg seg
      · rw [Split.insertSorted_behind hbehind, List.getLast?_concat] at hlast
        exact .inl ⟨hbehind, (Option.some.inj hlast).symm⟩
      · rw [Split.getLast_insertSorted hbehind] at hlast
        exact .inr ⟨hbehind, hlast⟩
    refine ⟨(hsplit.symm.insert h.pairwise).symm, h.tiles, h.sound, h.una_le, h.pending, h.ack_le, h.nxt_le,
      h.lastack, h.snd_nxt, h.snd_lbb, h.snd_buf, h.snd_queuelen, h.closed, ?_, ?_, ?_, h.len, ?_⟩
    · intro last hmem'
      dsimp only
      obtain ⟨hbehind, rfl⟩ | ⟨hnot, hlast'⟩ := hlast last hmem'
      · rw [if_pos hbehind]
        exact ⟨h.spent last (by simp [hunacked]), Nat.zero_le _⟩
      · rw [if_neg hnot]
        exact h.room last hlast'
    · intro s hs
      exact h.spent s (hunacked ▸ List.mem_cons_of_mem _ hs)
    · intro hnil
      have hseg : seg ∈ insertSorted Tiles.before seg pcb.unsent := Split.mem_insertSorted _ _
      exact absurd hnil (List.ne_nil_of_mem hseg)
    · intro hfixed hwide
      have hroomy := h.roomy hfixed hwide
      refine ⟨hroomy.snd_wnd_max, hroomy.len, ?_⟩
      intro last hmem'
      dsimp only
      obtain ⟨hbehind, rfl⟩ | ⟨hnot, hlast'⟩ := hlast last hmem'
      · rw [if_pos hbehind]
        exact hroomy.len last hmem
      · rw [if_neg hnot]
        exact hroomy.tail last hlast'

/-- The queues begin behind what the ACK covers. -/
theorem freeAcked {ack' : Nat} (h : Outgoing fixed wide stream iss all una ack nxt pcb) (hlow : ack ≤ ack')
    (hhigh : ack' ≤ nxt) :
    ∃ pcb' una', { pcb with lastack := after iss ack' }.freeAcked (after iss ack') = some pcb' ∧
      Outgoing fixed wide stream iss (all.dropWhile (Tiles.acked (after iss ack'))) una' ack' nxt pcb' := by
  have hnear := h.near
  have huna := h.una_le
  have hnxt := h.nxt_le
  have hpairwise : all.Pairwise fun seg seg' => Tiles.acked (after iss ack') seg' = true →
      Tiles.acked (after iss ack') seg = true :=
    h.tiles.pairwise_acked (by omega) (by omega) (by omega)
  have hsplit := h.split.dropWhile hpairwise
  have hlow' : una ≤ ack' := by omega
  obtain ⟨una', hle, hle', htiles, hpending⟩ := h.tiles.dropWhile_acked (by omega) hlow' (by omega)
  have hlens := h.split.sum_map SndSeg.len
  have hlens' := hsplit.sum_map SndSeg.len
  have hsum := h.tiles.sum_len
  have hsum' := htiles.sum_len
  have hbuf := h.snd_buf
  have hsize : TCP_SND_BUF = 32768 := rfl
  have hqueuelen := h.snd_queuelen
  rw [h.split.sum_map] at hqueuelen
  obtain ⟨queuelen, recv_acked, hfree, hcount, hrecv⟩ :=
    tcp_free_acked_segments_eq (after iss ack') pcb.unsent pcb.unacked _ 0 hqueuelen (by omega)
  obtain ⟨queuelen', recv_acked', hfree', hcount', hrecv'⟩ :=
    tcp_free_acked_segments_eq (after iss ack') (pcb.unacked.dropWhile (Tiles.acked (after iss ack')))
      pcb.unsent queuelen recv_acked (hcount.trans (Nat.add_comm _ _)) (by omega)
  have hsub {seg : SndSeg} (hseg : seg ∈ all.dropWhile (Tiles.acked (after iss ack'))) : seg ∈ all :=
    (List.dropWhile_sublist _).subset hseg
  refine ⟨{ pcb with lastack := after iss ack' }.freed (pcb.unacked.dropWhile (Tiles.acked (after iss ack')))
    (pcb.unsent.dropWhile (Tiles.acked (after iss ack'))) queuelen' recv_acked', una', ?_, ?_⟩
  · rw [SndPcb.freeAcked]
    dsimp only
    rw [hfree, Option.bind_eq_bind, Option.bind_some]
    dsimp only
    rw [hfree', Option.bind_some]
    rfl
  · refine ⟨hsplit, htiles, fun seg hseg => h.sound seg (hsub hseg), hle', ?_, hhigh, h.nxt_le, rfl,
      h.snd_nxt, h.snd_lbb, ?_, ?_, h.closed, ?_, ?_, ?_, fun hfixed seg hseg => h.len hfixed seg (hsub hseg), ?_⟩
    · rintro - seg rest heq
      have hfirst := hpending seg rest heq
      have htcplen : seg.tcplen = seg.len + seg.fin.toNat := rfl
      have hfin := Bool.toNat_le seg.fin
      omega
    · show (pcb.snd_buf + recv_acked') % 2 ^ 16 + (stream.length - una') = TCP_SND_BUF
      omega
    · show queuelen' = _
      rw [hcount', hsplit.sum_map, Nat.add_comm]
    · intro last hlast
      obtain ⟨hlast', hne⟩ := getLast_dropWhile hlast
      rw [SndPcb.freed_oversize hne]
      exact h.room last hlast'
    · intro seg hseg
      exact h.spent seg ((List.dropWhile_sublist _).subset hseg)
    · intro hnil
      exact if_pos hnil
    · intro hfixed hwide
      have hroomy := h.roomy hfixed hwide
      refine ⟨hroomy.snd_wnd_max, fun seg hseg => hroomy.len seg (hsub hseg), ?_⟩
      intro last hlast
      obtain ⟨hlast', hne⟩ := getLast_dropWhile hlast
      rw [SndPcb.freed_oversize hne]
      exact hroomy.tail last hlast'

/-- A fast retransmission keeps the queues. -/
theorem tcp_rexmit_fast (h : Outgoing fixed wide stream iss all una ack nxt pcb) :
    Outgoing fixed wide stream iss all una ack nxt pcb.tcp_rexmit_fast := by
  rw [SndPcb.tcp_rexmit_fast]
  split
  · dsimp only
    split
    · exact h.tcp_rexmit.frame
    · exact h.tcp_rexmit
  · exact h

/-- A duplicate ACK keeps the queues. -/
theorem receiveDup (h : Outgoing fixed wide stream iss all una ack nxt pcb) (right_wnd_edge : BitVec 32)
    (seg : AckSeg) : Outgoing fixed wide stream iss all una ack nxt (pcb.receiveDup right_wnd_edge seg) := by
  have hcount : Outgoing fixed wide stream iss all una ack nxt pcb.countDup := h.frame
  rw [SndPcb.receiveDup]
  split
  · dsimp only
    split
    · exact hcount.tcp_rexmit_fast
    · exact hcount
  · exact h.frame

end Outgoing

/-- The congestion control of an ACK of new data. -/
theorem growCwnd_frame (pcb : SndPcb) (ackno : BitVec 32) (acked : Nat) :
    ∃ infr cwnd bytes_acked,
      { pcb.leaveInfr with nrtx := 0, dupacks := 0, lastack := ackno }.growCwnd acked =
        { { pcb with infr, cwnd, bytes_acked, nrtx := 0, dupacks := 0 } with lastack := ackno } := by
  rw [SndPcb.growCwnd, SndPcb.leaveInfr]
  split
  · split
    · exact ⟨_, _, _, rfl⟩
    · dsimp only
      split
      · exact ⟨_, _, _, rfl⟩
      · exact ⟨_, _, _, rfl⟩
  · split
    · exact ⟨_, _, _, rfl⟩
    · dsimp only
      split
      · exact ⟨_, _, _, rfl⟩
      · exact ⟨_, _, _, rfl⟩

namespace Outgoing

variable {fixed wide : Prop} {stream : List UInt8} {iss : BitVec 32} {all : List SndSeg}
  {una ack nxt : Nat} {pcb : SndPcb}

/-- A new ACK takes the acknowledged segments off the queues, and no assertion fails. -/
theorem receiveNew {ack' : Nat} (h : Outgoing fixed wide stream iss all una ack nxt pcb) (hlow : ack ≤ ack')
    (hhigh : ack' ≤ nxt) :
    ∃ pcb' all' una', pcb.receiveNew (after iss ack') = some pcb' ∧
      Outgoing fixed wide stream iss all' una' ack' nxt pcb' := by
  obtain ⟨infr, cwnd, bytes_acked, hgrow⟩ :=
    growCwnd_frame pcb (after iss ack') ((after iss ack' - pcb.lastack).toNat % 2 ^ 16)
  have hframe : Outgoing fixed wide stream iss all una ack nxt
      { pcb with infr, cwnd, bytes_acked, nrtx := 0, dupacks := 0 } := h.frame
  obtain ⟨pcb', una', hfree, h'⟩ := hframe.freeAcked hlow hhigh
  refine ⟨pcb'.endRto, _, una', ?_, h'.frame⟩
  rw [SndPcb.receiveNew]
  dsimp only
  rw [hgrow, hfree]
  rfl

/-- No assertion of `tcp_receive` fails, whatever the client sends, and what it leaves in the queues
    is the stream from a place on that the ACK has reached. -/
theorem tcp_receive (h : Outgoing fixed wide stream iss all una ack nxt pcb) (seg : AckSeg) (ackSent : Bool) :
    ∃ pcb' all' una' ack', pcb.tcp_receive seg ackSent = some pcb' ∧ ack ≤ ack' ∧
      Outgoing fixed wide stream iss all' una' ack' nxt pcb' := by
  have hwindow := h.updateWindow seg
  have hnear := h.near
  have huna := h.una_le
  have hack := h.ack_le
  have hnxt := h.nxt_le
  rw [SndPcb.tcp_receive]
  by_cases hnone : seg.ack = false
  · rw [if_pos hnone]
    exact ⟨pcb, all, una, ack, rfl, le_rfl, h⟩
  rw [if_neg hnone]
  by_cases hdup : TCP_SEQ_LEQ seg.ackno (pcb.updateWindow seg).lastack
  · rw [if_pos hdup]
    exact ⟨_, all, una, ack, rfl, le_rfl, hwindow.receiveDup _ seg⟩
  · rw [if_neg hdup]
    by_cases hnew : TCP_SEQ_BETWEEN seg.ackno ((pcb.updateWindow seg).lastack + 1)
      (pcb.updateWindow seg).snd_nxt
    · rw [if_pos hnew]
      have hsent := hnew.2
      rw [hwindow.snd_nxt] at hsent
      rw [hwindow.lastack] at hdup
      obtain ⟨ack', hplace, hlow, hhigh⟩ := ackno_place hack (by omega) hdup hsent
      obtain ⟨pcb', all', una', hreceive, h'⟩ := hwindow.receiveNew (Nat.le_of_lt hlow) hhigh
      rw [← hplace] at hreceive
      exact ⟨pcb', all', una', ack', hreceive, Nat.le_of_lt hlow, h'⟩
    · rw [if_neg hnew]
      exact ⟨_, all, una, ack, rfl, le_rfl, hwindow.frame⟩

end Outgoing

/-! ### The timers behind an ACK -/

/-- A window of at least one MSS stays so when it grows, also where the sum overflows. -/
theorem TCP_WND_INC_ge {wnd : Nat} (inc : Nat) {mss : Nat} (h : mss ≤ wnd) (hmss : mss < 2 ^ 16) :
    mss ≤ TCP_WND_INC wnd inc := by
  rw [TCP_WND_INC]
  split <;> omega

namespace SndPcb.Paced

variable {fixed : Prop} {pcb : SndPcb}

private theorem mss_small (pcb : SndPcb) : pcb.mss ≤ 1460 := pcb.mss_le

theorem tcp_parseopt {mss : Option (BitVec 16)} (h : pcb.Paced fixed)
    (hmss : fixed → (pcb.tcp_parseopt mss).mss = pcb.mss) : (pcb.tcp_parseopt mss).Paced fixed := by
  obtain _ | mss := mss
  · exact h
  · refine ⟨h.timed, h.persist, h.backoff, ?_, ?_, h.snd_wnd⟩
    · intro hfixed
      rw [hmss hfixed]
      exact h.cwnd hfixed
    · intro hfixed
      rw [hmss hfixed]
      exact h.ssthresh hfixed

theorem updateWindow (h : pcb.Paced fixed) (seg : AckSeg) : (pcb.updateWindow seg).Paced fixed := by
  rw [SndPcb.updateWindow]
  split
  · exact ⟨h.timed, h.persist, h.backoff, h.cwnd, h.ssthresh, seg.wnd.isLt⟩
  · exact h

theorem countDup (h : pcb.Paced fixed) : pcb.countDup.Paced fixed := by
  have hmss := mss_small pcb
  refine ⟨h.timed, h.persist, h.backoff, fun hfixed => ?_, h.ssthresh, h.snd_wnd⟩
  have hinc := TCP_WND_INC_ge pcb.mss (h.cwnd hfixed) (by omega)
  show pcb.mss ≤ if 3 < pcb.countDup.dupacks then TCP_WND_INC pcb.cwnd pcb.mss else pcb.cwnd
  split
  · exact hinc
  · exact h.cwnd hfixed

theorem tcp_rexmit_fast (h : pcb.Paced fixed) : pcb.tcp_rexmit_fast.Paced fixed := by
  rw [SndPcb.tcp_rexmit_fast]
  split
  · rename_i hstart
    have hmss := mss_small pcb
    have hwnd := h.snd_wnd
    generalize hthresh : max (min pcb.cwnd pcb.snd_wnd / 2) (2 * pcb.mss) = ssthresh
    have hsmall : 2 * pcb.mss ≤ ssthresh ∧ ssthresh < 2 ^ 15 := by
      rw [← hthresh]
      omega
    rw [SndPcb.tcp_rexmit]
    rcases hunacked : pcb.unacked with _ | ⟨seg, next⟩
    · exact absurd hunacked hstart.1
    · refine ⟨fun _ => le_rfl, ?_, h.backoff, fun _ => ?_, fun _ _ => ?_, hwnd⟩
      · intro hpos
        exact absurd (h.persist hpos) hstart.1
      · show pcb.mss ≤ (max (min pcb.cwnd pcb.snd_wnd / 2) (2 * pcb.mss) + 3 * pcb.mss) % 2 ^ 16
        rw [hthresh, Nat.mod_eq_of_lt (by omega)]
        omega
      · show pcb.mss ≤ max (min pcb.cwnd pcb.snd_wnd / 2) (2 * pcb.mss)
        omega
  · exact h

theorem receiveDup (h : pcb.Paced fixed) (right_wnd_edge : BitVec 32) (seg : AckSeg) :
    (pcb.receiveDup right_wnd_edge seg).Paced fixed := by
  rw [SndPcb.receiveDup]
  split
  · dsimp only
    split
    · exact h.countDup.tcp_rexmit_fast
    · exact h.countDup
  · exact ⟨h.timed, h.persist, h.backoff, h.cwnd, h.ssthresh, h.snd_wnd⟩

theorem leaveInfr (h : pcb.Paced fixed) : pcb.leaveInfr.Paced fixed := by
  rw [SndPcb.leaveInfr]
  split
  · rename_i hinfr
    exact ⟨h.timed, h.persist, h.backoff, fun hfixed => h.ssthresh hfixed hinfr, by simp, h.snd_wnd⟩
  · exact h

theorem growCwnd (h : pcb.Paced fixed) (acked : Nat) : (pcb.growCwnd acked).Paced fixed := by
  have hmss : pcb.mss < 2 ^ 16 := Nat.lt_of_le_of_lt (mss_small pcb) (by omega)
  rw [SndPcb.growCwnd]
  split
  · exact ⟨h.timed, h.persist, h.backoff, fun hfixed => TCP_WND_INC_ge _ (h.cwnd hfixed) hmss, h.ssthresh,
      h.snd_wnd⟩
  · dsimp only
    split
    · exact ⟨h.timed, h.persist, h.backoff, fun hfixed => TCP_WND_INC_ge _ (h.cwnd hfixed) hmss, h.ssthresh,
        h.snd_wnd⟩
    · exact ⟨h.timed, h.persist, h.backoff, h.cwnd, h.ssthresh, h.snd_wnd⟩

theorem freeAcked {pcb' : SndPcb} {ackno : BitVec 32} (h : pcb.Paced fixed)
    (hfree : pcb.freeAcked ackno = some pcb') : pcb'.Paced fixed := by
  obtain ⟨⟨unacked, queuelen, recv_acked⟩, hunacked, hfree⟩ := Option.bind_eq_some_iff.mp hfree
  obtain ⟨⟨unsent, queuelen', recv_acked'⟩, -, hfree⟩ := Option.bind_eq_some_iff.mp hfree
  cases hfree
  refine ⟨?_, ?_, h.backoff, h.cwnd, h.ssthresh, h.snd_wnd⟩
  · intro hne
    have hzero : (pcb.freed unacked unsent queuelen' recv_acked').rtime = 0 := if_neg hne
    rw [hzero]
  · intro hpos
    rw [h.persist hpos, tcp_free_acked_segments] at hunacked
    cases hunacked
    rfl

theorem receiveNew {pcb' : SndPcb} {ackno : BitVec 32} (h : pcb.Paced fixed)
    (hreceive : pcb.receiveNew ackno = some pcb') : pcb'.Paced fixed := by
  obtain ⟨pcb'', hfree, hreceive⟩ := Option.bind_eq_some_iff.mp hreceive
  cases hreceive
  have hleave := h.leaveInfr
  have hstart : { pcb.leaveInfr with nrtx := 0, dupacks := 0, lastack := ackno }.Paced fixed :=
    ⟨hleave.timed, hleave.persist, hleave.backoff, hleave.cwnd, hleave.ssthresh, hleave.snd_wnd⟩
  have hfreed := (hstart.growCwnd _).freeAcked hfree
  exact ⟨hfreed.timed, hfreed.persist, hfreed.backoff, hfreed.cwnd, hfreed.ssthresh, hfreed.snd_wnd⟩

theorem tcp_receive {pcb' : SndPcb} {seg : AckSeg} {ackSent : Bool} (h : pcb.Paced fixed)
    (hreceive : pcb.tcp_receive seg ackSent = some pcb') : pcb'.Paced fixed := by
  have hwindow := h.updateWindow seg
  rw [SndPcb.tcp_receive] at hreceive
  obtain ⟨-, hreceive⟩ | ⟨-, hreceive⟩ := ite_eq_iff.mp hreceive
  · cases hreceive
    exact h
  obtain ⟨-, hreceive⟩ | ⟨-, hreceive⟩ := ite_eq_iff.mp hreceive
  · cases hreceive
    exact hwindow.receiveDup _ seg
  · obtain ⟨-, hreceive⟩ | ⟨-, hreceive⟩ := ite_eq_iff.mp hreceive
    · exact hwindow.receiveNew hreceive
    · cases hreceive
      exact ⟨hwindow.timed, hwindow.persist, hwindow.backoff, hwindow.cwnd, hwindow.ssthresh,
        hwindow.snd_wnd⟩

end SndPcb.Paced

end tun2proxy.core
