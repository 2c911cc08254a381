import Tun2Proxy.Lwip.Acked
import Tun2Proxy.Lwip.Fin

open tun2proxy.circular tun2proxy.split tun2proxy.onescomplement

namespace tun2proxy.core

/-- `TCP_MAXRTX`. -/
def TCP_MAXRTX : Nat := 12

/-- `tcp_persist_backoff`. -/
def tcp_persist_backoff : List Nat := [3, 6, 12, 24, 48, 96, 120]

/-- `pbuf_realloc` of the pbufs of a segment to `n` bytes of data. -/
def realloc : Nat → List (List UInt8) → List (List UInt8)
  | _, [] => []
  | n, q :: next => if q.length < n then q :: realloc (n - q.length) next else [q.take n]

/-- A further pbuf is added to the sum. -/
def sumPbuf (sum : SegChksum) (q : List UInt8) : SegChksum :=
  tcp_seg_add_chksum (~~~ inet_chksum false q) q.length sum

/-- The segment that a zero window probe sends: one byte, or the FIN. -/
def SndSeg.probe (seg : SndSeg) (ends : Endpoints) (rcv : RcvHeader) : WireSeg :=
  let is_fin := seg.fin && seg.len == 0
  let data := if is_fin = true then [] else seg.data.take 1
  let tcphdr := { seg.header ends rcv.rcv_nxt rcv.rcv_ann_wnd with fin := is_fin, psh := false }
  let chksum := ip_chksum_pseudo [.of false (tcphdr.bytes ++ data)] 6 (BitVec.ofNat 16 (20 + data.length))
    ends.local_ip ends.remote_ip
  ⟨{ tcphdr with chksum }, data⟩

/-- The segment that `tcp_split_unsent_seg` makes of what is behind `split`. -/
def SndSeg.remainder (useg : SndSeg) (split : Nat) : SndSeg :=
  { seqno := useg.seqno + BitVec.ofNat 32 split
    p := [useg.data.drop split]
    fin := useg.fin
    psh := useg.psh
    sum := sumPbuf ⟨0, false⟩ (useg.data.drop split)
    checksummed := true
    room := 0
    oversize_left := 0 }

/-- The head that `tcp_split_unsent_seg` leaves. `TCPH_SET_FLAG` clears no flag. -/
def SndSeg.trimmed (useg : SndSeg) (split : Nat) : SndSeg :=
  { useg with
    p := realloc split useg.p
    sum := (realloc split useg.p).foldl sumPbuf ⟨0, false⟩
    oversize_left := 0 }

namespace SndPcb

/-- All that is in flight is older than what is unsent. -/
def InOrder (pcb : SndPcb) : Prop := ∀ seg ∈ pcb.unacked, ∀ seg' ∈ pcb.unsent, Tiles.before seg seg'

instance (pcb : SndPcb) : Decidable pcb.InOrder := inferInstanceAs (Decidable (∀ _ ∈ _, _))

/-- `tcp_rexmit_rto_prepare`. No segment is busy. -/
def tcp_rexmit_rto_prepare (pcb : SndPcb) : SndPcb × ErrT :=
  match pcb.unacked.getLast? with
  | none => (pcb, .ERR_VAL)
  | some seg =>
    ({ pcb with
      unsent := pcb.unacked ++ pcb.unsent
      unsent_oversize := if pcb.unsent = [] then seg.oversize_left else pcb.unsent_oversize
      unacked := []
      inRto := true
      rto_end := seg.ends }, .ERR_OK)

def tcp_rexmit_rto_commit (pcb : SndPcb) (ends : Endpoints) (rcv : RcvHeader) (net : Netif) :
    Option (SndPcb × List WireSeg) := do
  let pcb := { pcb with nrtx := if pcb.nrtx < 0xff then pcb.nrtx + 1 else pcb.nrtx }
  let (pcb, out, _) ← pcb.tcp_output ends rcv net
  return (pcb, out)

/-- The queue behind a split of its head. -/
def splitHead (pcb : SndPcb) (useg : SndSeg) (next : List SndSeg) (split : Nat) : SndPcb :=
  let useg' := useg.trimmed split
  let seg := useg.remainder split
  { pcb with
    unsent := useg' :: seg :: next
    unsent_oversize := if next = [] then 0 else pcb.unsent_oversize
    snd_queuelen := pcb.snd_queuelen - useg.clen + useg'.clen + seg.clen }

def tcp_split_unsent_seg (pcb : SndPcb) (split mem : Nat) : Option (SndPcb × ErrT) :=
  match pcb.unsent with
  | [] => some (pcb, .ERR_MEM)
  | useg :: next => do
    LWIP_ASSERT (split ≠ 0)
    if useg.len ≤ split then return (pcb, .ERR_OK)
    else
      LWIP_ASSERT (split ≤ pcb.mss)
      LWIP_ASSERT (0 < useg.len)
      -- a pbuf and a `tcp_seg`
      if mem = 0 then return (pcb, .ERR_MEM)
      else
        -- `tcp_create_segment` frees `p` when it fails, and `memerr` frees it again
        LWIP_ASSERT (mem ≠ 1)
        return (pcb.splitHead useg next split, .ERR_OK)

/-- A probe is counted, also when it is not sent. -/
def countProbe (pcb : SndPcb) : SndPcb :=
  { pcb with persist_probe := if pcb.persist_probe < 0xff then pcb.persist_probe + 1 else pcb.persist_probe }

def tcp_zero_window_probe (pcb : SndPcb) (ends : Endpoints) (rcv : RcvHeader) (net : Netif) (mem : Nat) :
    SndPcb × List WireSeg × ErrT :=
  match pcb.unsent with
  | [] => (pcb, [], .ERR_OK)
  | seg :: _ =>
    let pcb := pcb.countProbe
    if mem = 0 then (pcb, [], .ERR_MEM)
    else
      let snd_nxt := seg.seqno + 1
      let pcb := { pcb with snd_nxt := if TCP_SEQ_LT pcb.snd_nxt snd_nxt then snd_nxt else pcb.snd_nxt }
      if net.route = false then (pcb, [], .ERR_RTE)
      else if net.room = 0 then (pcb, [], .ERR_BUF)
      else (pcb, [seg.probe ends rcv], .ERR_OK)

/-- `next_slot` of `tcp_slowtmr`. -/
def nextSlot (pcb : SndPcb) : SndPcb :=
  { pcb with
    persist_cnt := 0
    persist_backoff :=
      if pcb.persist_backoff < tcp_persist_backoff.length then pcb.persist_backoff + 1
      else pcb.persist_backoff }

/-- The persist timer has run out. -/
def persistExpired (pcb : SndPcb) (ends : Endpoints) (rcv : RcvHeader) (net : Netif) (mem : Nat) :
    Option (SndPcb × List WireSeg) :=
  if pcb.snd_wnd = 0 then
    let (pcb, out, err) := pcb.tcp_zero_window_probe ends rcv net mem
    some (if err = .ERR_OK then pcb.nextSlot else pcb, out)
  else do
    let (pcb, err) ← pcb.tcp_split_unsent_seg pcb.snd_wnd mem
    if err ≠ .ERR_OK then return (pcb.nextSlot, [])
    else
      let (pcb, out, err) ← pcb.tcp_output ends rcv net
      return (if err = .ERR_OK then pcb else pcb.nextSlot, out)

/-- The windows after a timeout. -/
def reduceCwnd (pcb : SndPcb) : SndPcb :=
  { pcb with
    rtime := 0
    ssthresh := max (min pcb.cwnd pcb.snd_wnd / 2) (2 * pcb.mss)
    cwnd := pcb.mss
    bytes_acked := 0 }

/-- The retransmission timer has run out. -/
def rexmitExpired (pcb : SndPcb) (ends : Endpoints) (rcv : RcvHeader) (net : Netif) :
    Option (SndPcb × List WireSeg) :=
  let (pcb, err) := pcb.tcp_rexmit_rto_prepare
  if err = .ERR_OK ∨ pcb.unacked = [] ∧ pcb.unsent ≠ [] then
    pcb.reduceCwnd.tcp_rexmit_rto_commit ends rcv net
  else some (pcb, [])

/-- One more tick of the persist timer. -/
def countPersist (pcb : SndPcb) (backoff_cnt : Nat) : SndPcb :=
  { pcb with persist_cnt := if pcb.persist_cnt < backoff_cnt then pcb.persist_cnt + 1 else pcb.persist_cnt }

/-- One more tick of the retransmission timer. -/
def countRtime (pcb : SndPcb) : SndPcb :=
  { pcb with rtime := if 0 ≤ pcb.rtime ∧ pcb.rtime < 0x7fff then pcb.rtime + 1 else pcb.rtime }

/-- `tcp_slowtmr` for what a connection sends. The inner `none` is `pcb_remove`. `rto` follows
    from the measured round trips. -/
def tcp_slowtmr (pcb : SndPcb) (rto : Int) (ends : Endpoints) (rcv : RcvHeader) (net : Netif) (mem : Nat) :
    Option (Option (SndPcb × List WireSeg)) :=
  if TCP_MAXRTX ≤ pcb.nrtx then some none
  else if 0 < pcb.persist_backoff then do
    LWIP_ASSERT (pcb.unacked = [])
    LWIP_ASSERT (pcb.unsent ≠ [])
    if TCP_MAXRTX ≤ pcb.persist_probe then return none
    else
      let backoff_cnt ← tcp_persist_backoff[pcb.persist_backoff - 1]?
      let pcb := pcb.countPersist backoff_cnt
      if backoff_cnt ≤ pcb.persist_cnt then
        let res ← pcb.persistExpired ends rcv net mem
        return some res
      else return some (pcb, [])
  else if rto ≤ pcb.countRtime.rtime then do
    let res ← pcb.countRtime.rexmitExpired ends rcv net
    return some res
  else some (some (pcb.countRtime, []))

end SndPcb

/-! ### A split segment -/

private theorem flatten_realloc (p : List (List UInt8)) :
    ∀ n, (realloc n p).flatten = p.flatten.take n := by
  induction p with
  | nil =>
    intro n
    simp [realloc]
  | cons q next ih =>
    intro n
    rw [realloc, List.flatten_cons]
    by_cases hlt : q.length < n
    · have hwhole : q.take n = q := List.take_of_length_le (by omega)
      rw [if_pos hlt, List.flatten_cons, ih, List.take_append, hwhole]
    · rw [if_neg hlt, List.flatten_singleton, List.take_append_of_le_length (by omega)]

private theorem realloc_ne_nil {p : List (List UInt8)} (h : p ≠ []) (n : Nat) : realloc n p ≠ [] := by
  obtain _ | ⟨q, next⟩ := p
  · exact absurd rfl h
  · rw [realloc]
    split <;> simp

theorem SegChksum.Sums.pbuf {data q : List UInt8} {sum : SegChksum} (h : Sums data sum)
    (hlen : q.length < 2 ^ 16) : Sums (data ++ q) (sumPbuf sum q) := by
  apply h.add
  have hle := norm_le (weigh false q)
  rw [BitVec.toNat_not, inet_chksum_spec false hlen]
  omega

theorem SegChksum.Sums.pbufs {p : List (List UInt8)} (hlen : ∀ q ∈ p, q.length < 2 ^ 16) :
    ∀ {data : List UInt8} {sum : SegChksum}, Sums data sum →
      Sums (data ++ p.flatten) (p.foldl sumPbuf sum) := by
  induction p with
  | nil =>
    intro data sum h
    rw [List.flatten_nil, List.append_nil]
    exact h
  | cons q next ih =>
    intro data sum h
    obtain ⟨hq, hnext⟩ := List.forall_mem_cons.mp hlen
    rw [List.flatten_cons, ← List.append_assoc, List.foldl_cons]
    exact ih hnext (h.pbuf hq)

private theorem SndSeg.trimmed_data (useg : SndSeg) (split : Nat) :
    (useg.trimmed split).data = useg.data.take split := flatten_realloc useg.p split

theorem SndSeg.trimmed_sound {useg : SndSeg} (h : useg.Sound) (hlen : useg.len < 2 ^ 16) (split : Nat) :
    (useg.trimmed split).Sound where
  sum := by
    have hsmall : ∀ q ∈ realloc split useg.p, q.length < 2 ^ 16 := by
      intro q hq
      have hsub := (List.sublist_flatten_of_mem hq).length_le
      rw [flatten_realloc, List.length_take] at hsub
      have hle : useg.p.flatten.length < 2 ^ 16 := hlen
      omega
    have hsum := SegChksum.Sums.nil.pbufs hsmall
    rw [List.nil_append] at hsum
    exact hsum
  checksummed := by
    refine h.checksummed.imp_right fun hnil => ?_
    rw [SndSeg.trimmed_data, hnil, List.take_nil]
  p := realloc_ne_nil h.p split

private theorem SndSeg.remainder_data (useg : SndSeg) (split : Nat) :
    (useg.remainder split).data = useg.data.drop split := List.flatten_singleton

private theorem SndSeg.remainder_sound {useg : SndSeg} (hlen : useg.len < 2 ^ 16) (split : Nat) :
    (useg.remainder split).Sound where
  sum := by
    have hsmall : (useg.data.drop split).length < 2 ^ 16 := by
      have hle : useg.data.length < 2 ^ 16 := hlen
      rw [List.length_drop]
      omega
    have hsum := SegChksum.Sums.nil.pbuf hsmall
    rw [List.nil_append] at hsum
    rw [SndSeg.remainder_data]
    exact hsum
  checksummed := .inl rfl
  p := by simp [SndSeg.remainder]

namespace Outgoing

variable {fixed wide : Prop} {stream : List UInt8} {iss : BitVec 32} {all : List SndSeg}
  {una ack nxt : Nat} {pcb pcb' : SndPcb}

/-- The two parts of a head without FIN stand in its place. -/
theorem splitHead {useg : SndSeg} {next : List SndSeg} {split : Nat}
    (h : Outgoing fixed wide stream iss all una ack nxt pcb) (hunacked : pcb.unacked = [])
    (hunsent : pcb.unsent = useg :: next) (hfin : useg.fin = false) (hpos : 0 < split)
    (hlt : split < useg.len) (hbackoff : 0 < pcb.persist_backoff) :
    Outgoing fixed wide stream iss (useg.trimmed split :: useg.remainder split :: next) una ack nxt
      (pcb.splitHead useg next split) := by
  have hsplit := h.split
  rw [hunacked, hunsent] at hsplit
  cases hsplit.eq_right
  obtain ⟨hseg, -, hrest⟩ := h.tiles
  have hmem : useg ∈ useg :: next := List.mem_cons_self
  have hend := hseg.end_le
  have hsmall := hseg.small
  have hdata : useg.data.length = useg.len := rfl
  rw [SndSeg.received_data] at hend hsmall
  have htcplen : useg.tcplen = useg.len := by rw [SndSeg.tcplen, hfin]; rfl
  have htrimmed : (useg.trimmed split).len = split := by
    rw [SndSeg.len, SndSeg.trimmed_data, List.length_take]
    omega
  have hremainder : (useg.remainder split).len = useg.len - split := by
    rw [SndSeg.len, SndSeg.remainder_data, List.length_drop]
    omega
  have htrimmedTcplen : (useg.trimmed split).tcplen = split := by
    rw [SndSeg.tcplen, htrimmed]
    show split + useg.fin.toNat = split
    rw [hfin]
    rfl
  have hremainderTcplen : (useg.remainder split).tcplen = useg.len - split := by
    rw [SndSeg.tcplen, hremainder]
    show useg.len - split + useg.fin.toNat = useg.len - split
    rw [hfin]
    rfl
  have hhead : SegOf stream iss una (useg.trimmed split).received := by
    refine ⟨hseg.seqno, ?_, fun hfin' => ?_, hseg.place, ?_⟩
    · rw [SndSeg.received_data, SndSeg.trimmed_data]
      exact (List.take_prefix _ _).trans hseg.data
    · have hopen : (useg.trimmed split).received.fin = false := hfin
      rw [hopen] at hfin'
      cases hfin'
    · rw [SndSeg.received_data, ← SndSeg.len, htrimmed]
      omega
  have hbehind : SegOf stream iss (una + split) (useg.remainder split).received := by
    refine ⟨?_, ?_, fun hfin' => ?_, by omega, ?_⟩
    · have hseqno : useg.seqno = after iss una := hseg.seqno
      show useg.seqno + BitVec.ofNat 32 split = after iss (una + split)
      rw [hseqno, after_add]
    · have hprefix := hseg.data.drop split
      rw [List.drop_drop] at hprefix
      rw [SndSeg.received_data, SndSeg.remainder_data]
      exact hprefix
    · have hopen : (useg.remainder split).received.fin = false := hfin
      rw [hopen] at hfin'
      cases hfin'
    · rw [SndSeg.received_data, ← SndSeg.len, hremainder]
      omega
  have hold {P : SndSeg → Prop} (hfirst : P (useg.trimmed split)) (hsecond : P (useg.remainder split))
      (hall : ∀ s ∈ useg :: next, P s) :
      ∀ s ∈ useg.trimmed split :: useg.remainder split :: next, P s :=
    List.forall_mem_cons.mpr ⟨hfirst, List.forall_mem_cons.mpr
      ⟨hsecond, fun s hs => hall s (List.mem_cons_of_mem _ hs)⟩⟩
  have hlast : ∀ last ∈ (useg.trimmed split :: useg.remainder split :: next).getLast?,
      next = [] ∧ last = useg.remainder split ∨ next ≠ [] ∧ last ∈ pcb.unsent.getLast? := by
    intro last hlast
    rw [List.getLast?_cons_cons] at hlast
    obtain _ | ⟨s, next⟩ := next
    · exact .inl ⟨rfl, (Option.some.inj hlast).symm⟩
    · refine .inr ⟨by simp, ?_⟩
      rw [List.getLast?_cons_cons] at hlast
      rw [hunsent, List.getLast?_cons_cons]
      exact hlast
  have hoversize : (pcb.splitHead useg next split).unsent_oversize =
      if next = [] then 0 else pcb.unsent_oversize := rfl
  refine ⟨?_, ?_, ?_, h.una_le, ?_, h.ack_le, h.nxt_le, h.lastack, h.snd_nxt, h.snd_lbb, h.snd_buf, ?_,
    h.closed, ?_, h.spent, fun hnil => absurd hnil (by simp [SndPcb.splitHead]), ?_, ?_⟩
  · show Split _ pcb.unacked _
    rw [hunacked]
    exact Split.all_right _
  · refine ⟨hhead, by omega, ?_⟩
    rw [htrimmedTcplen]
    refine ⟨hbehind, by omega, ?_⟩
    have hplace : una + split + (useg.remainder split).tcplen = una + useg.tcplen := by omega
    rw [hplace]
    exact hrest
  · exact hold (SndSeg.trimmed_sound (h.sound useg hmem) (by omega) split)
      (SndSeg.remainder_sound (by omega) split) h.sound
  · intro hzero
    have hsame : (pcb.splitHead useg next split).persist_backoff = pcb.persist_backoff := rfl
    omega
  · have hqueuelen := h.snd_queuelen
    rw [List.map_cons, List.sum_cons] at hqueuelen
    show pcb.snd_queuelen - useg.clen + (useg.trimmed split).clen + (useg.remainder split).clen = _
    rw [List.map_cons, List.map_cons, List.sum_cons, List.sum_cons]
    omega
  · intro last hmem'
    rw [hoversize]
    obtain ⟨hnil, rfl⟩ | ⟨hne, hlast'⟩ := hlast last hmem'
    · rw [if_pos hnil]
      exact ⟨rfl, le_rfl⟩
    · rw [if_neg hne]
      exact h.room last hlast'
  · intro hfixed
    have hlen := h.len hfixed useg hmem
    have hmss : (pcb.splitHead useg next split).mss = pcb.mss := rfl
    exact hold (by omega) (by omega) (h.len hfixed)
  · intro hfixed hwide
    have hroomy := h.roomy hfixed hwide
    have hlen := hroomy.len useg hmem
    have hlocal : (pcb.splitHead useg next split).mss_local = pcb.mss_local := rfl
    refine ⟨hroomy.snd_wnd_max, hold (by omega) (by omega) hroomy.len, ?_⟩
    intro last hmem'
    rw [hoversize, hlocal]
    obtain ⟨hnil, rfl⟩ | ⟨hne, hlast'⟩ := hlast last hmem'
    · rw [if_pos hnil]
      omega
    · rw [if_neg hne]
      exact hroomy.tail last hlast'

/-- All that is in flight goes back before what is unsent. -/
theorem tcp_rexmit_rto_prepare (h : Outgoing fixed wide stream iss all una ack nxt pcb) (horder : pcb.InOrder) :
    Outgoing fixed wide stream iss all una ack nxt pcb.tcp_rexmit_rto_prepare.1 := by
  rw [SndPcb.tcp_rexmit_rto_prepare]
  rcases hlast : pcb.unacked.getLast? with _ | seg
  · exact h
  · have hmem := List.mem_of_getLast? hlast
    have hsplit : Split all [] (pcb.unacked ++ pcb.unsent) := by
      rw [← h.split.eq_append h.pairwise horder]
      exact Split.all_right all
    have hend : ∀ last ∈ (pcb.unacked ++ pcb.unsent).getLast?,
        pcb.unsent = [] ∧ last = seg ∨ pcb.unsent ≠ [] ∧ last ∈ pcb.unsent.getLast? := by
      intro last hlast'
      by_cases hnil : pcb.unsent = []
      · rw [hnil, List.append_nil, hlast] at hlast'
        exact .inl ⟨hnil, (Option.some.inj hlast').symm⟩
      · rw [List.getLast?_append_of_ne_nil _ hnil] at hlast'
        exact .inr ⟨hnil, hlast'⟩
    refine ⟨hsplit, h.tiles, h.sound, h.una_le, h.pending, h.ack_le, h.nxt_le, h.lastack, h.snd_nxt, h.snd_lbb,
      h.snd_buf, h.snd_queuelen, h.closed, ?_, by simp, ?_, h.len, ?_⟩
    · intro last hlast'
      dsimp only
      obtain ⟨hnil, rfl⟩ | ⟨hne, hlast'⟩ := hend last hlast'
      · rw [if_pos hnil, h.spent last hmem]
        exact ⟨h.spent last hmem, Nat.zero_le _⟩
      · rw [if_neg hne]
        exact h.room last hlast'
    · intro hnil
      rw [(List.append_eq_nil_iff.mp hnil).1] at hmem
      cases hmem
    · intro hfixed hwide
      have hroomy := h.roomy hfixed hwide
      refine ⟨hroomy.snd_wnd_max, hroomy.len, ?_⟩
      intro last hlast'
      dsimp only
      obtain ⟨hnil, rfl⟩ | ⟨hne, hlast'⟩ := hend last hlast'
      · rw [if_pos hnil, h.spent last hmem]
        exact hroomy.len last (h.split.mem_iff.mpr (.inl hmem))
      · rw [if_neg hne]
        exact hroomy.tail last hlast'

/-- A probe is a byte of the stream, or its FIN. -/
theorem probe {seg : SndSeg} {next : List SndSeg} (h : Outgoing fixed wide stream iss all una ack nxt pcb)
    (hunacked : pcb.unacked = []) (hunsent : pcb.unsent = seg :: next) (ends : Endpoints)
    (rcv : RcvHeader) : (seg.probe ends rcv).Emitted stream iss (una + 1) ack 1 ends := by
  have hsplit := h.split
  rw [hunacked, hunsent] at hsplit
  cases hsplit.eq_right
  obtain ⟨hseg, -, -⟩ := h.tiles
  have huna := h.una_le
  have hnear := h.near
  generalize hw : seg.probe ends rcv = w
  have hdata : w.data = if (seg.fin && seg.len == 0) = true then [] else seg.data.take 1 := by
    rw [← hw]
    rfl
  have hfin : w.hdr.fin = (seg.fin && seg.len == 0) := by
    rw [← hw]
    rfl
  have hseqno : w.hdr.seqno = seg.seqno := by
    rw [← hw]
    rfl
  have hlen : w.data.length + w.hdr.fin.toNat ≤ 1 := by
    rw [hdata, hfin]
    by_cases hlast : (seg.fin && seg.len == 0) = true
    · rw [if_pos hlast, hlast]
      exact le_rfl
    · rw [if_neg hlast, Bool.eq_false_iff.mpr hlast]
      exact List.length_take_le _ _
  refine ⟨⟨una, ⟨hseqno.trans hseg.seqno, ?_, ?_, hseg.place, ?_⟩, by omega, by omega, by omega⟩, ?_⟩
  · show w.data <+: stream.drop una
    rw [hdata]
    split
    · exact List.nil_prefix
    · exact (List.take_prefix _ _).trans hseg.data
  · intro hlast
    have hlast' : (seg.fin && seg.len == 0) = true := hfin ▸ hlast
    obtain ⟨hsegFin, hzero⟩ := Bool.and_eq_true_iff.mp hlast'
    have hwhole := hseg.fin hsegFin
    rw [SndSeg.received_data, ← SndSeg.len, eq_of_beq hzero] at hwhole
    show una + w.data.length = stream.length
    rw [hdata, if_pos hlast']
    exact hwhole
  · show w.data.length + 20 < 2 ^ 16
    omega
  · rw [← hw]
    apply WireSeg.verifies_of
    · rfl
    · rw [ip_chksum_pseudo_spec, flatBytes_cons, flatBytes_nil, List.append_nil, PbufAt.payload_of]
      have hshort : w.data.length ≤ 1 := by omega
      rw [← hw] at hshort
      rw [List.length_append, TcpHdr.length_bytes]
      exact Nat.lt_of_le_of_lt (Nat.add_le_add_left hshort 20) (by omega)

end Outgoing

end tun2proxy.core
