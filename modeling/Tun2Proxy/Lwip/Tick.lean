import Tun2Proxy.Lwip.Persist

open tun2proxy.circular tun2proxy.split

namespace tun2proxy.core

namespace SndPcb

/-- The persist timer runs out at this tick. -/
def PersistDue (pcb : SndPcb) : Prop :=
  pcb.nrtx < TCP_MAXRTX ∧ 0 < pcb.persist_backoff ∧ pcb.persist_probe < TCP_MAXRTX ∧
    ∃ backoff_cnt ∈ tcp_persist_backoff[pcb.persist_backoff - 1]?,
      backoff_cnt ≤ (pcb.countPersist backoff_cnt).persist_cnt

instance (pcb : SndPcb) : Decidable pcb.PersistDue := inferInstanceAs (Decidable (_ ∧ _ ∧ _ ∧ _))

/-- The retransmission timer runs out at this tick. -/
def RexmitDue (pcb : SndPcb) (rto : Int) : Prop :=
  pcb.nrtx < TCP_MAXRTX ∧ pcb.persist_backoff = 0 ∧ rto ≤ pcb.countRtime.rtime

instance (pcb : SndPcb) (rto : Int) : Decidable (pcb.RexmitDue rto) :=
  inferInstanceAs (Decidable (_ ∧ _ ∧ _))

/-- The segment that the persist timer would split has no FIN. -/
def HeadOpen (pcb : SndPcb) : Prop := ∀ useg ∈ pcb.unsent.head?, pcb.snd_wnd < useg.len → useg.fin = false

instance (pcb : SndPcb) : Decidable pcb.HeadOpen := inferInstanceAs (Decidable (∀ _ ∈ _, _))

/-- Where the persist timer would split a segment, there is not memory for its pbuf alone. -/
def SplitFits (pcb : SndPcb) (mem : Nat) : Prop :=
  ∀ useg ∈ pcb.unsent.head?, pcb.snd_wnd < useg.len → mem ≠ 1

instance (pcb : SndPcb) (mem : Nat) : Decidable (pcb.SplitFits mem) := inferInstanceAs (Decidable (∀ _ ∈ _, _))

/-- `ip_output_if` takes all of the queue, also when its head is split, or nothing. -/
def TakesAll (pcb : SndPcb) (net : Netif) : Prop := net.room = 0 ∨ pcb.unsent.length < net.room

instance (pcb : SndPcb) (net : Netif) : Decidable (pcb.TakesAll net) := inferInstanceAs (Decidable (_ ∨ _))

variable {fixed : Prop} {pcb pcb' : SndPcb} {ends : Endpoints} {rcv : RcvHeader} {net : Netif} {mem split : Nat}
  {out : List WireSeg} {err : ErrT}

private theorem nextSlot_pos (pcb : SndPcb) : 0 < pcb.nextSlot.persist_backoff := by
  have hlen : tcp_persist_backoff.length = 7 := rfl
  rw [nextSlot]
  dsimp only
  split <;> omega

theorem Paced.nextSlot (h : pcb.Paced fixed) (hunacked : pcb.unacked = []) : pcb.nextSlot.Paced fixed := by
  have hle := h.backoff
  have hlen : tcp_persist_backoff.length = 7 := rfl
  refine ⟨h.timed, fun _ => hunacked, ?_, h.cwnd, h.ssthresh, h.snd_wnd⟩
  rw [SndPcb.nextSlot]
  dsimp only
  split <;> omega

private theorem tcp_zero_window_probe_cases
    (h : pcb.tcp_zero_window_probe ends rcv net mem = (pcb', out, err)) :
    (∃ persist_probe, pcb' = { pcb with persist_probe } ∧ out = []) ∨
      ∃ seg next persist_probe, pcb.unsent = seg :: next ∧
        pcb' = { pcb with
          persist_probe
          snd_nxt := if TCP_SEQ_LT pcb.snd_nxt (seg.seqno + 1) then seg.seqno + 1 else pcb.snd_nxt } ∧
        (out = [] ∨ out = [seg.probe ends rcv]) := by
  rw [tcp_zero_window_probe] at h
  obtain ⟨unsent, hunsent⟩ : ∃ unsent, pcb.unsent = unsent := ⟨_, rfl⟩
  rw [hunsent] at h
  obtain _ | ⟨seg, next⟩ := unsent
  · cases h
    exact .inl ⟨pcb.persist_probe, rfl, rfl⟩
  · dsimp only at h
    obtain ⟨-, h⟩ | ⟨-, h⟩ := ite_eq_iff.mp h
    · cases h
      exact .inl ⟨pcb.countProbe.persist_probe, rfl, rfl⟩
    · refine .inr ⟨seg, next, pcb.countProbe.persist_probe, hunsent, ?_⟩
      obtain ⟨-, h⟩ | ⟨-, h⟩ := ite_eq_iff.mp h
      · cases h
        exact ⟨rfl, .inl rfl⟩
      · obtain ⟨-, h⟩ | ⟨-, h⟩ := ite_eq_iff.mp h
        · cases h
          exact ⟨rfl, .inl rfl⟩
        · cases h
          exact ⟨rfl, .inr rfl⟩

private theorem tcp_split_unsent_seg_cases (h : pcb.tcp_split_unsent_seg split mem = some (pcb', err)) :
    pcb' = pcb ∨ ∃ useg next, pcb.unsent = useg :: next ∧ 0 < split ∧ split < useg.len ∧ mem ≠ 0 ∧
      pcb' = pcb.splitHead useg next split := by
  rw [tcp_split_unsent_seg] at h
  rcases hunsent : pcb.unsent with _ | ⟨useg, next⟩
  · rw [hunsent] at h
    cases h
    exact .inl rfl
  · rw [hunsent] at h
    dsimp only at h
    obtain ⟨_, hpos, h⟩ := Option.bind_eq_some_iff.mp h
    obtain ⟨-, h⟩ | ⟨hlt, h⟩ := ite_eq_iff.mp h
    · cases h
      exact .inl rfl
    · obtain ⟨_, -, h⟩ := Option.bind_eq_some_iff.mp h
      obtain ⟨_, -, h⟩ := Option.bind_eq_some_iff.mp h
      obtain ⟨-, h⟩ | ⟨hmem, h⟩ := ite_eq_iff.mp h
      · cases h
        exact .inl rfl
      · obtain ⟨_, -, h⟩ := Option.bind_eq_some_iff.mp h
        cases h
        have hzero : split ≠ 0 := LWIP_ASSERT_eq_some.mp hpos
        exact .inr ⟨useg, next, rfl, by omega, by omega, hmem, rfl⟩

/-- The loop of `tcp_output` fails only when `ip_output_if` takes no more. -/
theorem outputLoop_room {wnd : Nat} (segs : List SndSeg) :
    ∀ {pcb pcb' : SndPcb} {room : Nat} {out : List WireSeg} {err : ErrT}, segs.length ≤ room →
      pcb.outputLoop ends rcv wnd segs room = some (pcb', out, err) → err = .ERR_OK := by
  induction segs with
  | nil =>
    intro pcb pcb' room out err _ hloop
    rw [outputLoop] at hloop
    cases hloop
    rfl
  | cons seg next ih =>
    intro pcb pcb' room out err hle hloop
    rw [List.length_cons] at hle
    obtain ⟨-, -, hok, -⟩ | ⟨w, -, -, hrest⟩ := outputLoop_cases hloop
    · exact hok
    · obtain ⟨hzero, -⟩ | ⟨out', -, hloop', -⟩ := hrest
      · omega
      · exact ih (by omega) hloop'

/-- Where `ip_output_if` takes all or nothing, a failed `tcp_output` has sent nothing. -/
theorem tcp_output_failed (hout : pcb.tcp_output ends rcv net = some (pcb', out, err))
    (herr : err ≠ .ERR_OK) (hnet : net.room = 0 ∨ pcb.unsent.length ≤ net.room) :
    pcb'.unacked = pcb.unacked := by
  rw [tcp_output] at hout
  rcases hunsent : pcb.unsent with _ | ⟨seg, next⟩
  · rw [hunsent] at hout
    obtain ⟨_, _, rfl⟩ := outputIdle_spec (Option.some.inj hout)
    rfl
  · rw [hunsent] at hout hnet
    dsimp only at hout
    obtain ⟨-, hout⟩ | ⟨-, hout⟩ := ite_eq_iff.mp hout
    · cases hout
      rfl
    · obtain ⟨-, hout⟩ | ⟨-, hout⟩ := ite_eq_iff.mp hout
      · obtain ⟨_, _, rfl⟩ := outputIdle_spec (Option.some.inj hout)
        dsimp only
        rw [startPersist]
        split <;> rfl
      · obtain ⟨⟨pcb'', out', err'⟩, hloop, hout⟩ := Option.bind_eq_some_iff.mp hout
        dsimp only at hout
        by_cases hok : err' = .ERR_OK
        · rw [if_neg (not_not_intro hok)] at hout
          cases hout
          exact absurd rfl herr
        · rw [if_pos hok] at hout
          cases hout
          obtain hzero | hle := hnet
          · obtain ⟨-, -, hok', -⟩ | ⟨w, -, -, hrest⟩ := outputLoop_cases hloop
            · exact absurd hok' hok
            · obtain ⟨-, rfl, -⟩ | ⟨out'', hne, -⟩ := hrest
              · rfl
              · exact absurd hzero hne
          · exact absurd (outputLoop_room (seg :: next) hle hloop) hok

theorem Paced.splitHead (h : pcb.Paced fixed) (useg : SndSeg) (next : List SndSeg) (split : Nat) :
    (pcb.splitHead useg next split).Paced fixed :=
  ⟨h.timed, h.persist, h.backoff, h.cwnd, h.ssthresh, h.snd_wnd⟩

theorem Paced.persistExpired (h : pcb.Paced fixed) (hbackoff : 0 < pcb.persist_backoff)
    (hnet : pcb.snd_wnd ≠ 0 → pcb.TakesAll net) (hres : pcb.persistExpired ends rcv net mem = some (pcb', out)) :
    pcb'.Paced fixed := by
  have hunacked := h.persist hbackoff
  rw [SndPcb.persistExpired] at hres
  obtain ⟨-, hres⟩ | ⟨hwnd, hres⟩ := ite_eq_iff.mp hres
  · generalize hprobe : pcb.tcp_zero_window_probe ends rcv net mem = probe at hres
    obtain ⟨probed, out', err⟩ := probe
    have hprobed : probed.Paced fixed ∧ probed.unacked = [] := by
      obtain ⟨_, rfl, -⟩ | ⟨_, _, _, -, rfl, -⟩ := tcp_zero_window_probe_cases hprobe
      · exact ⟨⟨h.timed, h.persist, h.backoff, h.cwnd, h.ssthresh, h.snd_wnd⟩, hunacked⟩
      · exact ⟨⟨h.timed, h.persist, h.backoff, h.cwnd, h.ssthresh, h.snd_wnd⟩, hunacked⟩
    cases hres
    split
    · exact hprobed.1.nextSlot hprobed.2
    · exact hprobed.1
  · obtain ⟨⟨head, err⟩, hsplit, hres⟩ := Option.bind_eq_some_iff.mp hres
    have hhead : head.Paced fixed ∧ head.unacked = [] ∧ head.unsent.length ≤ pcb.unsent.length + 1 := by
      obtain rfl | ⟨useg, next, hunsent, -, -, -, rfl⟩ := tcp_split_unsent_seg_cases hsplit
      · exact ⟨h, hunacked, Nat.le_succ _⟩
      · refine ⟨h.splitHead useg next _, hunacked, ?_⟩
        rw [hunsent]
        exact le_rfl
    obtain ⟨hpaced, hnone, hlen⟩ := hhead
    dsimp only at hres
    obtain ⟨-, hres⟩ | ⟨-, hres⟩ := ite_eq_iff.mp hres
    · cases hres
      exact hpaced.nextSlot hnone
    · obtain ⟨⟨pcb'', out', err'⟩, hout, hres⟩ := Option.bind_eq_some_iff.mp hres
      cases hres
      dsimp only
      split
      · exact hpaced.tcp_output hout
      · rename_i herr
        apply (hpaced.tcp_output hout).nextSlot
        rw [tcp_output_failed hout herr ((hnet hwnd).imp_right fun hlt => by omega), hnone]

theorem Paced.tcp_rexmit_rto_prepare (h : pcb.Paced fixed) : pcb.tcp_rexmit_rto_prepare.1.Paced fixed := by
  rw [SndPcb.tcp_rexmit_rto_prepare]
  rcases pcb.unacked.getLast? with _ | seg
  · exact h
  · exact ⟨fun hne => absurd rfl hne, fun _ => rfl, h.backoff, h.cwnd, h.ssthresh, h.snd_wnd⟩

theorem Paced.reduceCwnd (h : pcb.Paced fixed) : pcb.reduceCwnd.Paced fixed where
  timed _ := le_rfl
  persist := h.persist
  backoff := h.backoff
  cwnd _ := le_rfl
  ssthresh _ _ := by
    show pcb.mss ≤ max (min pcb.cwnd pcb.snd_wnd / 2) (2 * pcb.mss)
    omega
  snd_wnd := h.snd_wnd

/-- The timers and the congestion window after a retransmission timeout. -/
theorem Paced.rexmitExpired (h : pcb.Paced fixed)
    (hres : pcb.rexmitExpired ends rcv net = some (pcb', out)) : pcb'.Paced fixed := by
  have hprepare := h.tcp_rexmit_rto_prepare
  rw [SndPcb.rexmitExpired] at hres
  dsimp only at hres
  obtain ⟨-, hres⟩ | ⟨-, hres⟩ := ite_eq_iff.mp hres
  · obtain ⟨⟨pcb'', out', err'⟩, hout, hres⟩ := Option.bind_eq_some_iff.mp hres
    cases hres
    have hreduced := hprepare.reduceCwnd
    have hcount {nrtx : Nat} : { pcb.tcp_rexmit_rto_prepare.1.reduceCwnd with nrtx }.Paced fixed :=
      ⟨hreduced.timed, hreduced.persist, hreduced.backoff, hreduced.cwnd, hreduced.ssthresh,
        hreduced.snd_wnd⟩
    exact hcount.tcp_output hout
  · cases hres
    exact hprepare

theorem Paced.countRtime (h : pcb.Paced fixed) : pcb.countRtime.Paced fixed := by
  refine ⟨fun hne => ?_, h.persist, h.backoff, h.cwnd, h.ssthresh, h.snd_wnd⟩
  have htime := h.timed hne
  rw [SndPcb.countRtime]
  dsimp only
  split <;> omega

/-- What the ticks of `tcp_slowtmr` do. -/
theorem tcp_slowtmr_cases {rto : Int}
    (h : pcb.tcp_slowtmr rto ends rcv net mem = some (some (pcb', out))) :
    (∃ backoff_cnt, pcb.PersistDue ∧
      (pcb.countPersist backoff_cnt).persistExpired ends rcv net mem = some (pcb', out)) ∨
    (∃ backoff_cnt, 0 < pcb.persist_backoff ∧ pcb' = pcb.countPersist backoff_cnt ∧ out = []) ∨
    (pcb.RexmitDue rto ∧ pcb.countRtime.rexmitExpired ends rcv net = some (pcb', out)) ∨
    (pcb.persist_backoff = 0 ∧ pcb' = pcb.countRtime ∧ out = []) := by
  rw [tcp_slowtmr] at h
  obtain ⟨-, h⟩ | ⟨hrtx, h⟩ := ite_eq_iff.mp h
  · cases h
  · obtain ⟨hpos, h⟩ | ⟨hzero, h⟩ := ite_eq_iff.mp h
    · obtain ⟨_, -, h⟩ := Option.bind_eq_some_iff.mp h
      obtain ⟨_, -, h⟩ := Option.bind_eq_some_iff.mp h
      obtain ⟨-, h⟩ | ⟨hprobe, h⟩ := ite_eq_iff.mp h
      · cases h
      · obtain ⟨backoff_cnt, hslot, h⟩ := Option.bind_eq_some_iff.mp h
        dsimp only at h
        obtain ⟨hcnt, h⟩ | ⟨-, h⟩ := ite_eq_iff.mp h
        · obtain ⟨res, hres, h⟩ := Option.bind_eq_some_iff.mp h
          cases h
          have hdue : pcb.PersistDue :=
            ⟨Nat.lt_of_not_le hrtx, hpos, Nat.lt_of_not_le hprobe, backoff_cnt, hslot, hcnt⟩
          exact .inl ⟨backoff_cnt, hdue, hres⟩
        · cases h
          exact .inr (.inl ⟨backoff_cnt, hpos, rfl, rfl⟩)
    · have hnone : pcb.persist_backoff = 0 := by omega
      obtain ⟨hrtime, h⟩ | ⟨-, h⟩ := ite_eq_iff.mp h
      · obtain ⟨res, hres, h⟩ := Option.bind_eq_some_iff.mp h
        cases h
        exact .inr (.inr (.inl ⟨⟨Nat.lt_of_not_le hrtx, hnone, hrtime⟩, hres⟩))
      · cases h
        exact .inr (.inr (.inr ⟨hnone, rfl, rfl⟩))

theorem Paced.countPersist (h : pcb.Paced fixed) (backoff_cnt : Nat) :
    (pcb.countPersist backoff_cnt).Paced fixed :=
  ⟨h.timed, h.persist, h.backoff, h.cwnd, h.ssthresh, h.snd_wnd⟩

/-- The timers and the congestion window after a tick. -/
theorem Paced.tcp_slowtmr {rto : Int} (h : pcb.Paced fixed)
    (hnet : pcb.PersistDue → pcb.snd_wnd ≠ 0 → pcb.TakesAll net)
    (hres : pcb.tcp_slowtmr rto ends rcv net mem = some (some (pcb', out))) : pcb'.Paced fixed := by
  obtain ⟨backoff_cnt, hdue, hres⟩ | ⟨backoff_cnt, -, rfl, -⟩ | ⟨-, hres⟩ | ⟨-, rfl, -⟩ :=
    tcp_slowtmr_cases hres
  · exact (h.countPersist backoff_cnt).persistExpired hdue.2.1 (hnet hdue) hres
  · exact h.countPersist backoff_cnt
  · exact h.countRtime.rexmitExpired hres
  · exact h.countRtime

end SndPcb

namespace Outgoing

variable {fixed wide : Prop} {stream : List UInt8} {iss : BitVec 32} {all : List SndSeg}
  {una ack nxt : Nat} {pcb pcb' : SndPcb} {ends : Endpoints} {rcv : RcvHeader} {net : Netif}
  {mem : Nat} {out : List WireSeg} {err : ErrT}

theorem nextSlot (h : Outgoing fixed wide stream iss all una ack nxt pcb) :
    Outgoing fixed wide stream iss all una ack nxt pcb.nextSlot := by
  have hbackoff : Outgoing fixed wide stream iss all una ack nxt
      { pcb with persist_backoff := pcb.nextSlot.persist_backoff } := by
    apply h.backoff
    intro hzero
    have hpos := pcb.nextSlot_pos
    omega
  exact hbackoff.frame

/-- A probe takes `snd_nxt` over the byte that it sends. -/
theorem tcp_zero_window_probe (h : Outgoing fixed wide stream iss all una ack nxt pcb)
    (hunacked : pcb.unacked = [])
    (hprobe : pcb.tcp_zero_window_probe ends rcv net mem = (pcb', out, err)) :
    ∃ nxt', nxt ≤ nxt' ∧ Outgoing fixed wide stream iss all una ack nxt' pcb' ∧
      ∀ w ∈ out, w.Emitted stream iss nxt' ack 1 ends := by
  obtain ⟨_, rfl, rfl⟩ | ⟨seg, next, persist_probe, hunsent, rfl, hout⟩ :=
    SndPcb.tcp_zero_window_probe_cases hprobe
  · exact ⟨nxt, le_rfl, h.frame, by simp⟩
  · have hemitted := h.probe hunacked hunsent ends rcv
    have hsplit := h.split
    rw [hunacked, hunsent] at hsplit
    cases hsplit.eq_right
    obtain ⟨hseg, hpos, hrest⟩ := h.tiles
    have hend := hrest.le
    have hnear := h.near
    have huna := h.una_le
    have hack := h.ack_le
    have hle := h.nxt_le
    have hseqno : seg.seqno + 1 = after iss (una + 1) := by
      rw [← after_add, ← hseg.seqno]
      rfl
    have hlt : TCP_SEQ_LT (after iss nxt) (after iss (una + 1)) ↔ nxt < una + 1 :=
      Tiles.seq_lt_iff (a := una) (by omega) (by omega)
    have hnext : (if TCP_SEQ_LT pcb.snd_nxt (seg.seqno + 1) then seg.seqno + 1 else pcb.snd_nxt) =
        after iss (max nxt (una + 1)) := by
      rw [h.snd_nxt, hseqno]
      by_cases hadvance : nxt < una + 1
      · rw [if_pos (hlt.mpr hadvance), Nat.max_eq_right (by omega)]
      · rw [if_neg (fun hseq => hadvance (hlt.mp hseq)), Nat.max_eq_left (by omega)]
    refine ⟨max nxt (una + 1), Nat.le_max_left _ _, ⟨h.split, h.tiles, h.sound, h.una_le, h.pending,
      by omega, ?_, h.lastack, hnext, h.snd_lbb, h.snd_buf, h.snd_queuelen, h.closed, h.room, h.spent,
      h.oversize, h.len, fun hfixed hwide => ⟨(h.roomy hfixed hwide).snd_wnd_max, (h.roomy hfixed hwide).len,
        (h.roomy hfixed hwide).tail⟩⟩, ?_⟩
    · show max nxt (una + 1) ≤ stream.length + pcb.fin.toNat
      omega
    · intro w hw
      obtain rfl | rfl := hout
      · cases hw
      · rw [List.mem_singleton.mp hw]
        exact hemitted.mono (Nat.le_max_right _ _) le_rfl

/-- The persist timer sends a byte of the stream, or as much as the window has room for. -/
theorem persistExpired (h : Outgoing fixed wide stream iss all una ack nxt pcb) (hpaced : pcb.Paced fixed)
    (hbackoff : 0 < pcb.persist_backoff) (hhead : pcb.snd_wnd ≠ 0 → mem ≠ 0 → pcb.HeadOpen)
    (hres : pcb.persistExpired ends rcv net mem = some (pcb', out)) :
    ∃ all' nxt', nxt ≤ nxt' ∧ Outgoing fixed wide stream iss all' una ack nxt' pcb' ∧
      ∀ w ∈ out, w.Emitted stream iss nxt' ack (max 1 (min pcb.snd_wnd pcb.cwnd)) ends := by
  have hunacked := hpaced.persist hbackoff
  rw [SndPcb.persistExpired] at hres
  obtain ⟨-, hres⟩ | ⟨hopen, hres⟩ := ite_eq_iff.mp hres
  · generalize hprobe : pcb.tcp_zero_window_probe ends rcv net mem = probe at hres
    obtain ⟨probed, out', err⟩ := probe
    obtain ⟨nxt', hle, hprobed, hemitted⟩ := h.tcp_zero_window_probe hunacked hprobe
    cases hres
    refine ⟨all, nxt', hle, ?_, fun w hw => (hemitted w hw).mono le_rfl (Nat.le_max_left _ _)⟩
    split
    · exact hprobed.nextSlot
    · exact hprobed
  · obtain ⟨⟨head, err⟩, hsplit, hres⟩ := Option.bind_eq_some_iff.mp hres
    have hsplitted : ∃ all', Outgoing fixed wide stream iss all' una ack nxt head ∧ head.Paced fixed ∧
        head.snd_wnd = pcb.snd_wnd ∧ head.cwnd = pcb.cwnd := by
      obtain rfl | ⟨useg, next, hunsent, hpos, hlt, hmem, rfl⟩ := SndPcb.tcp_split_unsent_seg_cases hsplit
      · exact ⟨all, h, hpaced, rfl, rfl⟩
      · have hfin : useg.fin = false := hhead hopen hmem useg (by rw [hunsent]; rfl) hlt
        exact ⟨_, h.splitHead hunacked hunsent hfin hpos hlt hbackoff, hpaced.splitHead useg next _,
          rfl, rfl⟩
    obtain ⟨all', hhead', hpaced', hwnd, hcwnd⟩ := hsplitted
    dsimp only at hres
    obtain ⟨-, hres⟩ | ⟨-, hres⟩ := ite_eq_iff.mp hres
    · cases hres
      exact ⟨all', nxt, le_rfl, hhead'.nextSlot, by simp⟩
    · obtain ⟨⟨pcb'', out', err'⟩, hout, hres⟩ := Option.bind_eq_some_iff.mp hres
      obtain ⟨all'', nxt', hle, hsent, hemitted⟩ := hhead'.tcp_output hpaced' hout
      cases hres
      rw [hwnd, hcwnd] at hemitted
      refine ⟨all'', nxt', hle, ?_, fun w hw => (hemitted w hw).mono le_rfl (Nat.le_max_right _ _)⟩
      dsimp only
      split
      · exact hsent
      · exact hsent.nextSlot

/-- A timeout sends again what is in flight. -/
theorem rexmitExpired (h : Outgoing fixed wide stream iss all una ack nxt pcb) (hpaced : pcb.Paced fixed)
    (horder : pcb.InOrder) (hres : pcb.rexmitExpired ends rcv net = some (pcb', out)) :
    ∃ all' nxt', nxt ≤ nxt' ∧ Outgoing fixed wide stream iss all' una ack nxt' pcb' ∧
      ∀ w ∈ out, w.Emitted stream iss nxt' ack (min pcb.snd_wnd pcb.mss) ends := by
  have hprepare := h.tcp_rexmit_rto_prepare horder
  have hprepared := hpaced.tcp_rexmit_rto_prepare
  have hsame : pcb.tcp_rexmit_rto_prepare.1.snd_wnd = pcb.snd_wnd ∧
      pcb.tcp_rexmit_rto_prepare.1.mss = pcb.mss := by
    rw [SndPcb.tcp_rexmit_rto_prepare]
    rcases pcb.unacked.getLast? with _ | seg
    · exact ⟨rfl, rfl⟩
    · exact ⟨rfl, rfl⟩
  rw [SndPcb.rexmitExpired] at hres
  dsimp only at hres
  generalize pcb.tcp_rexmit_rto_prepare = prepared at hprepare hprepared hsame hres
  obtain ⟨hwnd, hmss⟩ := hsame
  obtain ⟨-, hres⟩ | ⟨-, hres⟩ := ite_eq_iff.mp hres
  · obtain ⟨⟨pcb'', out', err'⟩, hout, hres⟩ := Option.bind_eq_some_iff.mp hres
    cases hres
    have hreduced := hprepared.reduceCwnd
    have hframe : Outgoing fixed wide stream iss all una ack nxt
        { prepared.1.reduceCwnd with
          nrtx := if prepared.1.nrtx < 0xff then prepared.1.nrtx + 1 else prepared.1.nrtx } :=
      hprepare.frame
    obtain ⟨all', nxt', hle, hsent, hemitted⟩ := hframe.tcp_output ⟨hreduced.timed, hreduced.persist,
      hreduced.backoff, hreduced.cwnd, hreduced.ssthresh, hreduced.snd_wnd⟩ hout
    rw [← hwnd, ← hmss]
    exact ⟨all', nxt', hle, hsent, hemitted⟩
  · cases hres
    exact ⟨all, nxt, le_rfl, hprepare, by simp⟩

/-- A tick keeps the queues, and what it sends is of the stream. -/
theorem tcp_slowtmr {rto : Int} (h : Outgoing fixed wide stream iss all una ack nxt pcb)
    (hpaced : pcb.Paced fixed) (horder : pcb.RexmitDue rto → pcb.InOrder)
    (hhead : pcb.PersistDue → pcb.snd_wnd ≠ 0 → mem ≠ 0 → pcb.HeadOpen)
    (hres : pcb.tcp_slowtmr rto ends rcv net mem = some (some (pcb', out))) :
    ∃ all' nxt', nxt ≤ nxt' ∧ Outgoing fixed wide stream iss all' una ack nxt' pcb' ∧
      ∀ w ∈ out, w.Emitted stream iss nxt' ack (max 1 (min pcb.snd_wnd (max pcb.cwnd pcb.mss))) ends := by
  have hpersist {backoff_cnt : Nat} :
      Outgoing fixed wide stream iss all una ack nxt (pcb.countPersist backoff_cnt) := h.frame
  have hrtime : Outgoing fixed wide stream iss all una ack nxt pcb.countRtime := h.frame
  obtain ⟨backoff_cnt, hdue, hres⟩ | ⟨backoff_cnt, -, rfl, rfl⟩ | ⟨hdue, hres⟩ | ⟨-, rfl, rfl⟩ :=
    SndPcb.tcp_slowtmr_cases hres
  · obtain ⟨all', nxt', hle, hsent, hemitted⟩ :=
      hpersist.persistExpired (hpaced.countPersist backoff_cnt) hdue.2.1 (hhead hdue) hres
    refine ⟨all', nxt', hle, hsent, fun w hw => (hemitted w hw).mono le_rfl ?_⟩
    have hwnd : (pcb.countPersist backoff_cnt).snd_wnd = pcb.snd_wnd ∧
        (pcb.countPersist backoff_cnt).cwnd = pcb.cwnd := ⟨rfl, rfl⟩
    omega
  · exact ⟨all, nxt, le_rfl, hpersist, by simp⟩
  · obtain ⟨all', nxt', hle, hsent, hemitted⟩ := hrtime.rexmitExpired hpaced.countRtime (horder hdue) hres
    refine ⟨all', nxt', hle, hsent, fun w hw => (hemitted w hw).mono le_rfl ?_⟩
    have hwnd : pcb.countRtime.snd_wnd = pcb.snd_wnd ∧ pcb.countRtime.mss = pcb.mss := ⟨rfl, rfl⟩
    omega
  · exact ⟨all, nxt, le_rfl, hrtime, by simp⟩

end Outgoing

/-! ### The persist timer waits for something -/

namespace SndPcb

/-- The persist timer runs only while there is something to send. -/
def Waiting (pcb : SndPcb) : Prop := 0 < pcb.persist_backoff → pcb.unsent ≠ []

variable {pcb pcb' : SndPcb} {ends : Endpoints} {rcv : RcvHeader} {net : Netif} {mem : Nat}
  {out : List WireSeg} {err : ErrT}

private theorem outputLoop_backoff {wnd room : Nat} {segs : List SndSeg}
    (hloop : pcb.outputLoop ends rcv wnd segs room = some (pcb', out, err))
    (hzero : pcb.persist_backoff = 0) : pcb'.persist_backoff = 0 := by
  apply outputLoop_invariant (P := fun pcb => pcb.persist_backoff = 0) ?_ ?_ segs hloop hzero
  · exact fun _ _ _ hzero => hzero
  · exact fun _ hzero => hzero

/-- A loop that failed leaves what it could not send. -/
theorem outputLoop_error {wnd : Nat} (segs : List SndSeg) :
    ∀ {pcb pcb' : SndPcb} {room : Nat} {out : List WireSeg} {err : ErrT}, pcb.unsent = segs →
      pcb.outputLoop ends rcv wnd segs room = some (pcb', out, err) → err ≠ .ERR_OK → pcb'.unsent ≠ [] := by
  induction segs with
  | nil =>
    intro pcb pcb' room out err _ hloop herr
    rw [outputLoop] at hloop
    cases hloop
    exact absurd rfl herr
  | cons seg next ih =>
    intro pcb pcb' room out err hunsent hloop herr
    obtain ⟨-, -, hok, -⟩ | ⟨w, -, -, hrest⟩ := outputLoop_cases hloop
    · exact absurd hok herr
    · obtain ⟨-, rfl, -⟩ | ⟨out', -, hloop', -⟩ := hrest
      · show pcb.unsent ≠ []
        rw [hunsent]
        exact List.cons_ne_nil _ _
      · exact ih (by rfl) hloop' herr

/-- `tcp_output` leaves the persist timer running only with something to send, and it does not
    empty the queue when it fails. -/
theorem Waiting.tcp_output (h : pcb.Waiting) (hout : pcb.tcp_output ends rcv net = some (pcb', out, err)) :
    pcb'.Waiting ∧ (pcb.unsent ≠ [] → err ≠ .ERR_OK → pcb'.unsent ≠ []) := by
  rw [SndPcb.tcp_output] at hout
  obtain ⟨unsent, hunsent⟩ : ∃ unsent, pcb.unsent = unsent := ⟨_, rfl⟩
  rw [hunsent] at hout
  obtain _ | ⟨seg, next⟩ := unsent
  · obtain ⟨_, _, rfl⟩ := outputIdle_spec (Option.some.inj hout)
    exact ⟨h, fun hne _ => hne⟩
  · have hne : pcb.unsent ≠ [] := by
      rw [hunsent]
      exact List.cons_ne_nil _ _
    dsimp only at hout
    obtain ⟨-, hout⟩ | ⟨-, hout⟩ := ite_eq_iff.mp hout
    · cases hout
      exact ⟨h, fun hne _ => hne⟩
    · obtain ⟨-, hout⟩ | ⟨-, hout⟩ := ite_eq_iff.mp hout
      · obtain ⟨_, _, rfl⟩ := outputIdle_spec (Option.some.inj hout)
        have hstarted : (pcb.startPersist (min pcb.snd_wnd pcb.cwnd)).unsent ≠ [] := by
          rw [startPersist]
          split
          · exact hne
          · exact hne
        exact ⟨fun _ => hstarted, fun _ _ => hstarted⟩
      · obtain ⟨⟨pcb'', out', err'⟩, hloop, hout⟩ := Option.bind_eq_some_iff.mp hout
        have hzero := outputLoop_backoff hloop rfl
        have hstopped : pcb.stopPersist.unsent = seg :: next := hunsent
        dsimp only at hout
        obtain ⟨herr, hout⟩ | ⟨-, hout⟩ := ite_eq_iff.mp hout
        · cases hout
          exact ⟨fun hpos => absurd hzero (Nat.ne_of_gt hpos), fun _ _ => outputLoop_error _ hstopped hloop herr⟩
        · cases hout
          exact ⟨fun hpos => absurd hzero (Nat.ne_of_gt hpos), fun _ herr => absurd rfl herr⟩

/-- When the persist timer runs out, it goes on only with something to send. -/
theorem Waiting.persistExpired (h : pcb.Waiting) (hbackoff : 0 < pcb.persist_backoff)
    (hres : pcb.persistExpired ends rcv net mem = some (pcb', out)) : pcb'.Waiting := by
  have hne := h hbackoff
  rw [SndPcb.persistExpired] at hres
  obtain ⟨-, hres⟩ | ⟨-, hres⟩ := ite_eq_iff.mp hres
  · generalize hprobe : pcb.tcp_zero_window_probe ends rcv net mem = probe at hres
    obtain ⟨probed, out', err⟩ := probe
    have hprobed : probed.unsent ≠ [] := by
      obtain ⟨_, rfl, -⟩ | ⟨_, _, _, -, rfl, -⟩ := tcp_zero_window_probe_cases hprobe
      · exact hne
      · exact hne
    cases hres
    split
    · exact fun _ => hprobed
    · exact fun _ => hprobed
  · obtain ⟨⟨head, err⟩, hsplit, hres⟩ := Option.bind_eq_some_iff.mp hres
    have hhead : head.unsent ≠ [] := by
      obtain rfl | ⟨useg, next, -, -, -, -, rfl⟩ := tcp_split_unsent_seg_cases hsplit
      · exact hne
      · exact List.cons_ne_nil _ _
    dsimp only at hres
    obtain ⟨-, hres⟩ | ⟨-, hres⟩ := ite_eq_iff.mp hres
    · cases hres
      exact fun _ => hhead
    · obtain ⟨⟨pcb'', out', err'⟩, hout, hres⟩ := Option.bind_eq_some_iff.mp hres
      have hwaiting : head.Waiting := fun _ => hhead
      obtain ⟨hwaiting', hleft⟩ := hwaiting.tcp_output hout
      cases hres
      dsimp only
      split
      · exact hwaiting'
      · rename_i herr
        exact fun _ => hleft hhead herr

theorem Waiting.rexmitExpired (hzero : pcb.persist_backoff = 0)
    (hres : pcb.rexmitExpired ends rcv net = some (pcb', out)) : pcb'.Waiting := by
  have hprepare : pcb.tcp_rexmit_rto_prepare.1.persist_backoff = 0 := by
    rw [SndPcb.tcp_rexmit_rto_prepare]
    rcases pcb.unacked.getLast? with _ | seg
    · exact hzero
    · exact hzero
  rw [SndPcb.rexmitExpired] at hres
  dsimp only at hres
  obtain ⟨-, hres⟩ | ⟨-, hres⟩ := ite_eq_iff.mp hres
  · obtain ⟨⟨pcb'', out', err'⟩, hout, hres⟩ := Option.bind_eq_some_iff.mp hres
    cases hres
    have hwaiting {nrtx : Nat} : { pcb.tcp_rexmit_rto_prepare.1.reduceCwnd with nrtx }.Waiting :=
      fun hpos => absurd hprepare (Nat.ne_of_gt hpos)
    exact (hwaiting.tcp_output hout).1
  · cases hres
    exact fun hpos => absurd hprepare (Nat.ne_of_gt hpos)

/-- A tick leaves the persist timer running only with something to send. -/
theorem Waiting.tcp_slowtmr {rto : Int} (h : pcb.Waiting)
    (hres : pcb.tcp_slowtmr rto ends rcv net mem = some (some (pcb', out))) : pcb'.Waiting := by
  have hcount {backoff_cnt : Nat} : (pcb.countPersist backoff_cnt).Waiting := h
  obtain ⟨backoff_cnt, hdue, hres⟩ | ⟨backoff_cnt, -, rfl, -⟩ | ⟨hdue, hres⟩ | ⟨-, rfl, -⟩ :=
    tcp_slowtmr_cases hres
  · exact hcount.persistExpired hdue.2.1 hres
  · exact hcount
  · have hzero : pcb.countRtime.persist_backoff = 0 := hdue.2.1
    exact Waiting.rexmitExpired hzero hres
  · exact h

end SndPcb

namespace Outgoing

variable {fixed wide : Prop} {stream : List UInt8} {iss : BitVec 32} {all : List SndSeg}
  {una ack nxt : Nat} {pcb : SndPcb}

/-- No assertion of a split fails. -/
theorem tcp_split_unsent_seg_total {mem : Nat} (h : Outgoing fixed wide stream iss all una ack nxt pcb)
    (hfixed : fixed) (hwnd : pcb.snd_wnd ≠ 0) (hmem : pcb.SplitFits mem) :
    ∃ res, pcb.tcp_split_unsent_seg pcb.snd_wnd mem = some res := by
  rw [SndPcb.tcp_split_unsent_seg]
  rcases hunsent : pcb.unsent with _ | ⟨useg, next⟩
  · exact ⟨_, rfl⟩
  · have hlen := h.len hfixed useg (h.split.mem_iff.mpr (.inr (hunsent ▸ List.mem_cons_self)))
    dsimp only
    rw [LWIP_ASSERT_of hwnd, Option.bind_eq_bind, Option.bind_some]
    split
    · exact ⟨_, rfl⟩
    · rename_i hlong
      have hmss : pcb.snd_wnd ≤ pcb.mss := by omega
      have hpos : 0 < useg.len := by omega
      have hboth : mem ≠ 1 := hmem useg (by rw [hunsent]; rfl) (by omega)
      rw [LWIP_ASSERT_of hmss, LWIP_ASSERT_of hpos, Option.bind_some, Option.bind_some]
      split
      · exact ⟨_, rfl⟩
      · rw [LWIP_ASSERT_of hboth]
        exact ⟨_, rfl⟩

/-- No assertion fails when the persist timer runs out. -/
theorem persistExpired_total {mem : Nat} (h : Outgoing fixed wide stream iss all una ack nxt pcb)
    (hpaced : pcb.Paced fixed) (hfixed : fixed) (hbackoff : 0 < pcb.persist_backoff)
    (hhead : pcb.snd_wnd ≠ 0 → mem ≠ 0 → pcb.HeadOpen) (hmem : pcb.snd_wnd ≠ 0 → pcb.SplitFits mem)
    (ends : Endpoints) (rcv : RcvHeader) (net : Netif) :
    ∃ res, pcb.persistExpired ends rcv net mem = some res := by
  have hunacked := hpaced.persist hbackoff
  rw [SndPcb.persistExpired]
  split
  · exact ⟨_, rfl⟩
  · rename_i hwnd
    obtain ⟨⟨head, err⟩, hsplit⟩ := h.tcp_split_unsent_seg_total hfixed hwnd (hmem hwnd)
    have houtput : ∃ res, head.tcp_output ends rcv net = some res := by
      obtain rfl | ⟨useg, next, hunsent, hpos, hlt, hsome, rfl⟩ := SndPcb.tcp_split_unsent_seg_cases hsplit
      · exact h.tcp_output_total hpaced ends rcv net
      · have hfin : useg.fin = false := hhead hwnd hsome useg (by rw [hunsent]; rfl) hlt
        exact (h.splitHead hunacked hunsent hfin hpos hlt hbackoff).tcp_output_total
          (hpaced.splitHead useg next _) ends rcv net
    obtain ⟨res, hout⟩ := houtput
    rw [hsplit, Option.bind_eq_bind, Option.bind_some]
    dsimp only
    split
    · exact ⟨_, rfl⟩
    · rw [hout]
      exact ⟨_, rfl⟩

/-- No assertion fails when the retransmission timer runs out. -/
theorem rexmitExpired_total (h : Outgoing fixed wide stream iss all una ack nxt pcb) (hpaced : pcb.Paced fixed)
    (horder : pcb.InOrder) (ends : Endpoints) (rcv : RcvHeader) (net : Netif) :
    ∃ res, pcb.rexmitExpired ends rcv net = some res := by
  have hprepare := h.tcp_rexmit_rto_prepare horder
  have hreduced := hpaced.tcp_rexmit_rto_prepare.reduceCwnd
  rw [SndPcb.rexmitExpired]
  generalize pcb.tcp_rexmit_rto_prepare = prepared at hprepare hreduced
  dsimp only
  split
  · have hframe {nrtx : Nat} :
        Outgoing fixed wide stream iss all una ack nxt { prepared.1.reduceCwnd with nrtx } := hprepare.frame
    have hcount {nrtx : Nat} : { prepared.1.reduceCwnd with nrtx }.Paced fixed :=
      ⟨hreduced.timed, hreduced.persist, hreduced.backoff, hreduced.cwnd, hreduced.ssthresh,
        hreduced.snd_wnd⟩
    rw [SndPcb.tcp_rexmit_rto_commit]
    obtain ⟨res, hout⟩ := hframe.tcp_output_total hcount ends rcv net
    rw [hout]
    exact ⟨_, rfl⟩
  · exact ⟨_, rfl⟩

/-- No assertion of `tcp_slowtmr` fails while the persist timer waits for something. -/
theorem tcp_slowtmr_total {rto : Int} {mem : Nat} (h : Outgoing fixed wide stream iss all una ack nxt pcb)
    (hpaced : pcb.Paced fixed) (hfixed : fixed) (hwaiting : pcb.Waiting)
    (horder : pcb.RexmitDue rto → pcb.InOrder)
    (hhead : pcb.PersistDue → pcb.snd_wnd ≠ 0 → mem ≠ 0 → pcb.HeadOpen)
    (hmem : pcb.PersistDue → pcb.snd_wnd ≠ 0 → pcb.SplitFits mem) (ends : Endpoints) (rcv : RcvHeader)
    (net : Netif) : ∃ res, pcb.tcp_slowtmr rto ends rcv net mem = some res := by
  rw [SndPcb.tcp_slowtmr]
  split
  · exact ⟨_, rfl⟩
  · rename_i hrtx
    split
    · rename_i hpos
      rw [LWIP_ASSERT_of (hpaced.persist hpos), Option.bind_eq_bind, Option.bind_some,
        LWIP_ASSERT_of (hwaiting hpos), Option.bind_eq_bind, Option.bind_some]
      split
      · exact ⟨_, rfl⟩
      · rename_i hprobe
        have hlen : tcp_persist_backoff.length = 7 := rfl
        have hbackoff := hpaced.backoff
        have hslot : pcb.persist_backoff - 1 < tcp_persist_backoff.length := by omega
        rw [List.getElem?_eq_getElem hslot, Option.bind_eq_bind, Option.bind_some]
        dsimp only
        split
        · rename_i hcnt
          have hdue : pcb.PersistDue :=
            ⟨Nat.lt_of_not_le hrtx, hpos, Nat.lt_of_not_le hprobe, _, List.getElem?_eq_getElem hslot, hcnt⟩
          have hcount {backoff_cnt : Nat} :
              Outgoing fixed wide stream iss all una ack nxt (pcb.countPersist backoff_cnt) := h.frame
          obtain ⟨res, hres⟩ := hcount.persistExpired_total (hpaced.countPersist _) hfixed hpos (hhead hdue)
            (hmem hdue) ends rcv net
          rw [hres]
          exact ⟨_, rfl⟩
        · exact ⟨_, rfl⟩
    · rename_i hzero
      split
      · rename_i hrtime
        have hdue : pcb.RexmitDue rto := ⟨Nat.lt_of_not_le hrtx, by omega, hrtime⟩
        have hcount : Outgoing fixed wide stream iss all una ack nxt pcb.countRtime := h.frame
        obtain ⟨res, hres⟩ := hcount.rexmitExpired_total hpaced.countRtime (horder hdue) ends rcv net
        rw [hres]
        exact ⟨_, rfl⟩
      · exact ⟨_, rfl⟩

/-! ### A timer runs -/

/-- With a route, the persist timer is followed by a timer again. -/
theorem persistExpired_awake {pcb' : SndPcb} {ends : Endpoints} {rcv : RcvHeader} {net : Netif} {mem : Nat}
    {out : List WireSeg} (h : Outgoing fixed wide stream iss all una ack nxt pcb) (hpaced : pcb.Paced fixed)
    (hfixed : fixed) (hbackoff : 0 < pcb.persist_backoff)
    (hhead : pcb.snd_wnd ≠ 0 → mem ≠ 0 → pcb.HeadOpen) (hroute : net.route = true)
    (hres : pcb.persistExpired ends rcv net mem = some (pcb', out)) : pcb'.Awake := by
  have hunacked := hpaced.persist hbackoff
  rw [SndPcb.persistExpired] at hres
  obtain ⟨-, hres⟩ | ⟨hopen, hres⟩ := ite_eq_iff.mp hres
  · generalize hprobe : pcb.tcp_zero_window_probe ends rcv net mem = probe at hres
    obtain ⟨probed, out', err⟩ := probe
    have hprobed : 0 < probed.persist_backoff := by
      obtain ⟨_, rfl, -⟩ | ⟨_, _, _, -, rfl, -⟩ := SndPcb.tcp_zero_window_probe_cases hprobe
      · exact hbackoff
      · exact hbackoff
    cases hres
    split
    · exact .inr (.inr probed.nextSlot_pos)
    · exact .inr (.inr hprobed)
  · obtain ⟨⟨head, err⟩, hsplit, hres⟩ := Option.bind_eq_some_iff.mp hres
    have hsplitted : ∃ all', Outgoing fixed wide stream iss all' una ack nxt head ∧ head.Paced fixed := by
      obtain rfl | ⟨useg, next, hunsent, hpos, hlt, hmem, rfl⟩ := SndPcb.tcp_split_unsent_seg_cases hsplit
      · exact ⟨all, h, hpaced⟩
      · have hfin : useg.fin = false := hhead hopen hmem useg (by rw [hunsent]; rfl) hlt
        exact ⟨_, h.splitHead hunacked hunsent hfin hpos hlt hbackoff, hpaced.splitHead useg next _⟩
    obtain ⟨all', hhead', hpaced'⟩ := hsplitted
    dsimp only at hres
    obtain ⟨-, hres⟩ | ⟨-, hres⟩ := ite_eq_iff.mp hres
    · cases hres
      exact .inr (.inr head.nextSlot_pos)
    · obtain ⟨⟨pcb'', out', err'⟩, hout, hres⟩ := Option.bind_eq_some_iff.mp hres
      cases hres
      dsimp only
      split
      · exact hhead'.tcp_output_awake hpaced' hfixed hroute hout
      · exact .inr (.inr pcb''.nextSlot_pos)

private theorem rexmitExpired_awake {pcb' : SndPcb} {ends : Endpoints} {rcv : RcvHeader} {net : Netif}
    {out : List WireSeg} (h : Outgoing fixed wide stream iss all una ack nxt pcb) (hpaced : pcb.Paced fixed)
    (hfixed : fixed) (horder : pcb.InOrder) (hroute : net.route = true)
    (hres : pcb.rexmitExpired ends rcv net = some (pcb', out)) : pcb'.Awake := by
  have hprepare := h.tcp_rexmit_rto_prepare horder
  have hreduced := hpaced.tcp_rexmit_rto_prepare.reduceCwnd
  rw [SndPcb.rexmitExpired] at hres
  dsimp only at hres
  obtain ⟨-, hres⟩ | ⟨hnone, hres⟩ := ite_eq_iff.mp hres
  · obtain ⟨⟨pcb'', out', err'⟩, hout, hres⟩ := Option.bind_eq_some_iff.mp hres
    cases hres
    have hframe {nrtx : Nat} : Outgoing fixed wide stream iss all una ack nxt
        { pcb.tcp_rexmit_rto_prepare.1.reduceCwnd with nrtx } := hprepare.frame
    have hcount {nrtx : Nat} : { pcb.tcp_rexmit_rto_prepare.1.reduceCwnd with nrtx }.Paced fixed :=
      ⟨hreduced.timed, hreduced.persist, hreduced.backoff, hreduced.cwnd, hreduced.ssthresh,
        hreduced.snd_wnd⟩
    exact hframe.tcp_output_awake hcount hfixed hroute hout
  · cases hres
    -- nothing was in flight, and nothing is unsent
    rw [not_or] at hnone
    have hempty : pcb.tcp_rexmit_rto_prepare.1.unacked = [] := by
      rw [SndPcb.tcp_rexmit_rto_prepare]
      rcases hlast : pcb.unacked.getLast? with _ | seg
      · exact List.getLast?_eq_none_iff.mp hlast
      · rfl
    refine .inl ⟨hempty, ?_⟩
    by_contra hne
    exact hnone.2 ⟨hempty, hne⟩

/-- A tick leaves no pcb without a timer that has something to send. -/
theorem tcp_slowtmr_awake {rto : Int} {pcb' : SndPcb} {ends : Endpoints} {rcv : RcvHeader} {net : Netif}
    {mem : Nat} {out : List WireSeg} (h : Outgoing fixed wide stream iss all una ack nxt pcb)
    (hpaced : pcb.Paced fixed) (hfixed : fixed) (horder : pcb.RexmitDue rto → pcb.InOrder)
    (hhead : pcb.PersistDue → pcb.snd_wnd ≠ 0 → mem ≠ 0 → pcb.HeadOpen) (hroute : net.route = true)
    (hawake : pcb.Awake) (hres : pcb.tcp_slowtmr rto ends rcv net mem = some (some (pcb', out))) :
    pcb'.Awake := by
  have hpersist {backoff_cnt : Nat} :
      Outgoing fixed wide stream iss all una ack nxt (pcb.countPersist backoff_cnt) := h.frame
  have hrtime : Outgoing fixed wide stream iss all una ack nxt pcb.countRtime := h.frame
  obtain ⟨backoff_cnt, hdue, hres⟩ | ⟨backoff_cnt, hpos, rfl, -⟩ | ⟨hdue, hres⟩ | ⟨-, rfl, -⟩ :=
    SndPcb.tcp_slowtmr_cases hres
  · exact hpersist.persistExpired_awake (hpaced.countPersist backoff_cnt) hfixed hdue.2.1 (hhead hdue) hroute
      hres
  · exact .inr (.inr hpos)
  · exact hrtime.rexmitExpired_awake hpaced.countRtime hfixed (horder hdue) hroute hres
  · obtain hidle | htime | hrunning := hawake
    · exact .inl hidle
    · refine .inr (.inl ?_)
      rw [SndPcb.countRtime]
      dsimp only
      split <;> omega
    · exact .inr (.inr hrunning)

end Outgoing

end tun2proxy.core
