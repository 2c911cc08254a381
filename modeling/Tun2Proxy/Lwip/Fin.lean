import Tun2Proxy.Lwip.Transmit

open tun2proxy.circular tun2proxy.split

namespace tun2proxy.core

namespace Outgoing

variable {fixed wide : Prop} {stream : List UInt8} {iss : BitVec 32} {all : List SndSeg}
  {una ack nxt : Nat} {pcb pcb' : SndPcb}

/-- The queues with the FIN on their last segment. -/
theorem finish {rest init : List SndSeg} {m oversize queuelen : Nat} {snd_lbb : BitVec 32} {seg : SndSeg}
    (h : Outgoing fixed wide stream iss all una ack nxt pcb) (hsplit : Split rest pcb.unacked init)
    (htiles : Tiles stream iss una m rest) (hrest : ∀ seg ∈ rest, seg ∈ all)
    (hseg : SegOf stream iss m seg.received) (hend : m + seg.tcplen = stream.length + 1)
    (hsound : seg.Sound) (hpending : pcb.persist_backoff = 0 → ∀ first tail, rest ++ [seg] = first :: tail →
      ack ≤ una + first.len)
    (hroom : seg.Left oversize) (hqueuelen : queuelen = ((rest ++ [seg]).map SndSeg.clen).sum)
    (hlen : fixed → seg.len ≤ pcb.mss) (hroomy : fixed → wide → seg.len + oversize ≤ pcb.mss_local) :
    Outgoing fixed wide stream iss (rest ++ [seg]) una ack nxt
      { pcb with
        canSend := false
        fin := true
        unsent := init ++ [seg]
        unsent_oversize := oversize
        snd_lbb
        snd_queuelen := queuelen } := by
  have happend := hsplit.append (Split.all_right [seg])
  rw [List.append_nil] at happend
  have hnxt := h.nxt_le
  have hfin := Bool.toNat_le pcb.fin
  have hplace := hseg.place
  refine ⟨happend, htiles.append ⟨hseg, by omega, hend⟩, ?_, h.una_le, hpending, h.ack_le, ?_,
    h.lastack, h.snd_nxt, fun hnot => absurd hnot (by simp), h.snd_buf, hqueuelen, fun _ => rfl, ?_,
    h.spent, by simp, ?_, ?_⟩
  · intro s hs
    rcases List.mem_append.mp hs with hs | hs
    · exact h.sound s (hrest s hs)
    · rw [List.mem_singleton.mp hs]
      exact hsound
  · dsimp only
    rw [Bool.toNat_true]
    omega
  · intro last hlast
    dsimp only at hlast
    rw [List.getLast?_concat] at hlast
    cases hlast
    exact hroom
  · intro hfixed s hs
    rcases List.mem_append.mp hs with hs | hs
    · exact h.len hfixed s (hrest s hs)
    · rw [List.mem_singleton.mp hs]
      exact hlen hfixed
  · intro hfixed hwide
    refine ⟨(h.roomy hfixed hwide).snd_wnd_max, ?_, ?_⟩
    · intro s hs
      rcases List.mem_append.mp hs with hs | hs
      · exact (h.roomy hfixed hwide).len s (hrest s hs)
      · rw [List.mem_singleton.mp hs]
        exact Nat.le_trans (Nat.le_add_right _ _) (hroomy hfixed hwide)
    · intro last hlast
      dsimp only at hlast
      rw [List.getLast?_concat] at hlast
      cases hlast
      exact hroomy hfixed hwide

/-- A FIN in a segment of its own. -/
theorem tcp_enqueue_fin {mem : Nat} {err : ErrT} (h : Outgoing fixed wide stream iss all una ack nxt pcb)
    (hfin : pcb.fin = false) (hsend : pcb.tcp_enqueue_fin mem = some (pcb', err)) :
    (err = .ERR_OK ∧ ∃ all', Outgoing fixed wide stream iss all' una ack nxt { pcb' with canSend := false }) ∨
      (err ≠ .ERR_OK ∧ pcb' = { pcb with nagleMemErr := true }) := by
  rw [SndPcb.tcp_enqueue_fin] at hsend
  obtain ⟨-, hsend⟩ | ⟨-, hsend⟩ := ite_eq_iff.mp hsend
  · cases hsend
    exact .inr ⟨by simp, rfl⟩
  · obtain ⟨_, -, hsend⟩ := Option.bind_eq_some_iff.mp hsend
    cases hsend
    have hsplit := h.split
    have htiles := h.tiles
    have hnxt := h.nxt_le
    have hack := h.ack_le
    rw [hfin, Bool.toNat_false, Nat.add_zero] at htiles hnxt
    refine .inl ⟨rfl, _, h.finish hsplit htiles (fun _ hmem => hmem) ?_ rfl
      ⟨SegChksum.Sums.nil, .inr rfl, by simp⟩ ?_ ⟨rfl, le_rfl⟩ ?_ (fun _ => Nat.zero_le _) fun _ _ => Nat.zero_le _⟩
    · exact ⟨h.snd_lbb hfin, List.nil_prefix, fun _ => rfl, le_rfl,
        by simp [SndSeg.received, SndSeg.data]⟩
    · apply h.pending_append ⟨[], (List.append_nil _).symm⟩
      rintro - seg tail - rfl
      have huna : una = stream.length := htiles
      omega
    · rw [List.map_append, List.sum_append, h.snd_queuelen]
      rfl

/-- The FIN goes to the end of the stream. -/
theorem tcp_send_fin {mem : Nat} {err : ErrT} (h : Outgoing fixed wide stream iss all una ack nxt pcb)
    (hnewest : pcb.TailNewest) (hcan : pcb.canSend = true)
    (hsend : pcb.tcp_send_fin mem = some (pcb', err)) :
    (err = .ERR_OK ∧ ∃ all', Outgoing fixed wide stream iss all' una ack nxt { pcb' with canSend := false }) ∨
      (err ≠ .ERR_OK ∧ pcb' = { pcb with nagleMemErr := true }) := by
  have hfin : pcb.fin = false := by
    rw [← Bool.not_eq_true]
    intro hfin
    rw [h.closed hfin] at hcan
    cases hcan
  rw [SndPcb.tcp_send_fin] at hsend
  obtain hnil | ⟨init, last, htail⟩ := List.eq_nil_or_concat pcb.unsent
  · rw [hnil, List.getLast?_nil] at hsend
    exact h.tcp_enqueue_fin hfin hsend
  · rw [List.concat_eq_append] at htail
    have hlast : pcb.unsent.getLast? = some last := by rw [htail, List.getLast?_concat]
    have hsplit := h.split
    have htiles := h.tiles
    rw [htail] at hsplit
    rw [hfin, Bool.toNat_false, Nat.add_zero] at htiles
    obtain ⟨rest, rfl, hrest⟩ := hsplit.last h.pairwise (hnewest last hlast)
    obtain ⟨m, hrestTiles, hseg, hpos, hend⟩ := Tiles.append_iff.mp htiles
    have hend : m + last.tcplen = stream.length := hend
    have hnot : last.fin = false := by
      rw [← Bool.not_eq_true]
      intro hlastFin
      have hwhole := hseg.fin hlastFin
      rw [SndSeg.received_data, ← SndSeg.len] at hwhole
      rw [SndSeg.tcplen, hlastFin, Bool.toNat_true] at hend
      omega
    have hmem : last ∈ rest ++ [last] := by simp
    have hsound := h.sound last hmem
    have hwhole : m + last.len = stream.length := by
      rw [SndSeg.tcplen, hnot] at hend
      exact hend
    rw [hlast] at hsend
    dsimp only at hsend
    rw [if_pos hnot] at hsend
    cases hsend
    rw [htail, List.dropLast_concat]
    refine .inl ⟨rfl, _, h.finish hrest hrestTiles (fun _ hmem => List.mem_append_left _ hmem) ?_ ?_
      ⟨hsound.sum, hsound.checksummed, hsound.p⟩ ?_ (h.room last hlast) ?_ (fun hfixed => h.len hfixed last hmem)
      fun hfixed hwide => (h.roomy hfixed hwide).tail last hlast⟩
    · exact ⟨hseg.seqno, hseg.data, fun _ => hwhole, hseg.place, hseg.small⟩
    · show m + (last.len + 1) = stream.length + 1
      omega
    · apply h.pending_append ⟨[last], rfl⟩
      rintro hzero seg tail heq rfl
      cases heq
      exact h.pending hzero last [] rfl
    · rw [h.snd_queuelen, List.map_append, List.map_append]
      rfl

end Outgoing

theorem tcp_send_fin_total (pcb : SndPcb) (mem : Nat) : ∃ res, pcb.tcp_send_fin mem = some res := by
  have hvalid (pcb : SndPcb) (hne : pcb.unsent ≠ []) : pcb.ValidQueuelen := fun _ => .inr hne
  have henqueue : ∃ res, pcb.tcp_enqueue_fin mem = some res := by
    rw [SndPcb.tcp_enqueue_fin]
    split
    · exact ⟨_, rfl⟩
    · dsimp only
      rw [LWIP_ASSERT_of (hvalid _ (by simp))]
      exact ⟨_, rfl⟩
  rw [SndPcb.tcp_send_fin]
  split
  · exact henqueue
  · split
    · exact ⟨_, rfl⟩
    · exact henqueue

end tun2proxy.core
