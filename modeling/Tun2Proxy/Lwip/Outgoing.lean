import Mathlib.Algebra.Order.BigOperators.Group.List
import Tun2Proxy.Lwip.Tiles
import Tun2Proxy.Lwip.Write

open tun2proxy.circular tun2proxy.split

namespace tun2proxy.core

/-- What a queued segment holds fits together. -/
structure SndSeg.Sound (seg : SndSeg) : Prop where
  sum : seg.sum.Sums seg.data
  checksummed : seg.checksummed = true ∨ seg.data = []
  p : seg.p ≠ []

/-- No retransmission is stuck on `unsent`: its last segment is the newest of all. -/
def SndPcb.TailNewest (pcb : SndPcb) : Prop :=
  ∀ last ∈ pcb.unsent.getLast?, ∀ seg ∈ pcb.unacked, Tiles.before seg last

instance (pcb : SndPcb) : Decidable pcb.TailNewest := inferInstanceAs (Decidable (∀ _ ∈ _, _))

/-- `n` bytes are free behind the data of the segment, as `oversize_left` says. -/
def SndSeg.Left (seg : SndSeg) (n : Nat) : Prop := seg.oversize_left = n ∧ n ≤ seg.room

/-- No segment is longer than `tcp_write` still allows. -/
structure SndPcb.Roomy (all : List SndSeg) (pcb : SndPcb) : Prop where
  snd_wnd_max : 2 ≤ pcb.snd_wnd_max
  len : ∀ seg ∈ all, seg.len ≤ pcb.mss_local
  tail : ∀ last ∈ pcb.unsent.getLast?, last.len + pcb.unsent_oversize ≤ pcb.mss_local

/-- The queues hold the stream from place `una` on: of it, the other end has acknowledged what
    is before `ack`, and what is before `nxt` was sent. `fixed` is for connections whose MSS stays
    as the handshake left it, `wide` for those whose window had room for two bytes from the
    beginning. -/
structure Outgoing (fixed wide : Prop) (stream : List UInt8) (iss : BitVec 32) (all : List SndSeg)
    (una ack nxt : Nat) (pcb : SndPcb) : Prop where
  split : Split all pcb.unacked pcb.unsent
  tiles : Tiles stream iss una (stream.length + pcb.fin.toNat) all
  sound : ∀ seg ∈ all, seg.Sound
  una_le : una ≤ ack
  pending : pcb.persist_backoff = 0 → ∀ seg rest, all = seg :: rest → ack ≤ una + seg.len
  ack_le : ack ≤ nxt
  nxt_le : nxt ≤ stream.length + pcb.fin.toNat
  lastack : pcb.lastack = after iss ack
  snd_nxt : pcb.snd_nxt = after iss nxt
  -- `tcp_send_fin` may add a FIN without counting it
  snd_lbb : pcb.fin = false → pcb.snd_lbb = after iss stream.length
  snd_buf : pcb.snd_buf + (stream.length - una) = TCP_SND_BUF
  snd_queuelen : pcb.snd_queuelen = (all.map SndSeg.clen).sum
  closed : pcb.fin = true → pcb.canSend = false
  room : ∀ last ∈ pcb.unsent.getLast?, last.Left pcb.unsent_oversize
  spent : ∀ seg ∈ pcb.unacked, seg.oversize_left = 0
  oversize : pcb.unsent = [] → pcb.unsent_oversize = 0
  len : fixed → ∀ seg ∈ all, seg.len ≤ pcb.mss
  roomy : fixed → wide → pcb.Roomy all

namespace Outgoing

variable {fixed wide : Prop} {stream : List UInt8} {iss : BitVec 32} {all : List SndSeg} {una ack nxt : Nat} {pcb : SndPcb}

/-- The queues are short, so that sequence numbers tell the order. -/
theorem near (h : Outgoing fixed wide stream iss all una ack nxt pcb) :
    stream.length + pcb.fin.toNat ≤ una + 2 ^ 20 := by
  have hbuf := h.snd_buf
  have hfin := Bool.toNat_le pcb.fin
  have hsize : TCP_SND_BUF = 32768 := rfl
  omega

theorem pairwise (h : Outgoing fixed wide stream iss all una ack nxt pcb) :
    all.Pairwise fun seg seg' => Tiles.before seg seg' ∧ ¬ Tiles.before seg' seg := by
  have hnear := h.near
  exact h.tiles.pairwise (by omega)

theorem validQueuelen (h : Outgoing fixed wide stream iss all una ack nxt pcb) : pcb.ValidQueuelen := by
  intro hne
  by_contra hnone
  push Not at hnone
  have hsplit := h.split
  rw [hnone.1, hnone.2] at hsplit
  apply hne
  rw [h.snd_queuelen, hsplit.eq_right]
  rfl

/-- Windows, timers and flags are not part of it. -/
theorem frame {nagleMemErr infr inRto ackNow : Bool} {rto_end snd_wl1 snd_wl2 : BitVec 32}
    {snd_wnd cwnd ssthresh bytes_acked dupacks nrtx persist_cnt persist_probe : Nat} {rtime : Int}
    (h : Outgoing fixed wide stream iss all una ack nxt pcb) :
    Outgoing fixed wide stream iss all una ack nxt
      { pcb with
        nagleMemErr, infr, inRto, ackNow, rto_end, snd_wl1, snd_wl2, snd_wnd, cwnd, ssthresh, bytes_acked
        dupacks, nrtx, persist_cnt, persist_probe, rtime } :=
  ⟨h.split, h.tiles, h.sound, h.una_le, h.pending, h.ack_le, h.nxt_le, h.lastack, h.snd_nxt, h.snd_lbb,
    h.snd_buf, h.snd_queuelen, h.closed, h.room, h.spent, h.oversize, h.len, fun hfixed hwide =>
    ⟨(h.roomy hfixed hwide).snd_wnd_max, (h.roomy hfixed hwide).len, (h.roomy hfixed hwide).tail⟩⟩

/-- The persist timer starts and goes on at any time. It stops when what it waited for is behind
    what was acknowledged. -/
theorem backoff {persist_backoff : Nat} (h : Outgoing fixed wide stream iss all una ack nxt pcb)
    (hpending : persist_backoff = 0 → ∀ seg rest, all = seg :: rest → ack ≤ una + seg.len) :
    Outgoing fixed wide stream iss all una ack nxt { pcb with persist_backoff } :=
  ⟨h.split, h.tiles, h.sound, h.una_le, hpending, h.ack_le, h.nxt_le, h.lastack, h.snd_nxt, h.snd_lbb,
    h.snd_buf, h.snd_queuelen, h.closed, h.room, h.spent, h.oversize, h.len, fun hfixed hwide =>
    ⟨(h.roomy hfixed hwide).snd_wnd_max, (h.roomy hfixed hwide).len, (h.roomy hfixed hwide).tail⟩⟩

/-- Every queued segment has a pbuf. -/
theorem queuelen_zero (h : Outgoing fixed wide stream iss all una ack nxt pcb) (hzero : pcb.snd_queuelen = 0) :
    pcb.unacked = [] ∧ pcb.unsent = [] := by
  have hempty : all = [] := by
    apply List.eq_nil_iff_forall_not_mem.mpr
    intro seg hseg
    have hclen : seg.clen ≤ (all.map SndSeg.clen).sum :=
      List.single_le_sum (fun _ _ => Nat.zero_le _) _ (List.mem_map_of_mem hseg)
    have hpos := List.length_pos_iff.mpr (h.sound seg hseg).p
    rw [← h.snd_queuelen, hzero, SndSeg.clen] at hclen
    omega
  have hsplit := h.split
  rw [hempty] at hsplit
  constructor
  · apply List.eq_nil_iff_forall_not_mem.mpr
    intro seg hseg
    exact List.not_mem_nil (hsplit.mem_iff.mpr (.inl hseg))
  · apply List.eq_nil_iff_forall_not_mem.mpr
    intro seg hseg
    exact List.not_mem_nil (hsplit.mem_iff.mpr (.inr hseg))

end Outgoing

namespace SndPcb

variable {pcb : SndPcb}

theorem mss_local_le (pcb : SndPcb) : pcb.mss_local ≤ pcb.mss := by
  rw [mss_local]
  split <;> omega

private theorem mss_local_pos (pcb : SndPcb) : 0 < pcb.mss_local := by
  have hpos := pcb.mss_pos
  rw [mss_local]
  split <;> omega

private theorem mss_local_small (pcb : SndPcb) : pcb.mss_local ≤ 1460 :=
  Nat.le_trans pcb.mss_local_le pcb.mss_le

theorem tcp_pbuf_prealloc_le {length max_length : Nat} (h : length ≤ max_length) (more first_seg : Bool) :
    length + pcb.tcp_pbuf_prealloc length max_length more first_seg ≤ max_length := by
  rw [tcp_pbuf_prealloc]
  split <;> omega

end SndPcb

/-! ### The segments of the third phase -/

theorem newSeg_sound (seqno : BitVec 32) {data : List UInt8} (hlen : data.length < 2 ^ 16) (oversize : Nat) :
    (SndPcb.newSeg seqno data oversize).Sound where
  sum := by
    have hsum := SegChksum.Sums.nil.copy hlen
    rw [SndSeg.data]
    simpa [SndPcb.newSeg] using hsum
  checksummed := .inl rfl
  p := by simp [SndPcb.newSeg]

@[simp] theorem newSeg_data (seqno : BitVec 32) (data : List UInt8) (oversize : Nat) :
    (SndPcb.newSeg seqno data oversize).data = data := by
  simp [SndPcb.newSeg, SndSeg.data]

@[simp] theorem newSeg_tcplen (seqno : BitVec 32) (data : List UInt8) (oversize : Nat) :
    (SndPcb.newSeg seqno data oversize).tcplen = data.length := by
  rw [SndSeg.tcplen, SndSeg.len, newSeg_data]
  rfl

/-- What the third phase makes of the stream from place `a` on. -/
structure NewSegs (stream : List UInt8) (iss : BitVec 32) (a : Nat) (mss : Nat) (oversize queuelen : Nat)
    (q : SndPcb.Queued) : Prop where
  tiles : Tiles stream iss a stream.length q.queue
  sound : ∀ seg ∈ q.queue, seg.Sound
  len : ∀ seg ∈ q.queue, seg.len ≤ mss
  queuelen : q.queuelen = queuelen + (q.queue.map SndSeg.clen).sum
  nil : q.queue = [] → q.oversize = oversize
  last : ∀ last ∈ q.queue.getLast?, last.Left q.oversize ∧ last.len + q.oversize ≤ mss

theorem newSegs_spec {stream : List UInt8} {iss : BitVec 32} {pcb : SndPcb} {more : Bool} (fuel : Nat) :
    ∀ {a oversize queuelen mem : Nat} {first : Bool} {q : SndPcb.Queued}, a ≤ stream.length →
      stream.length - a ≤ fuel →
      pcb.newSegs more fuel (stream.drop a) (after iss a) first oversize queuelen mem = some q →
      NewSegs stream iss a pcb.mss_local oversize queuelen q := by
  induction fuel with
  | zero =>
    intro a oversize queuelen mem first q hle hfuel h
    rw [SndPcb.newSegs] at h
    cases h
    exact ⟨show a = stream.length by omega, by simp, by simp, rfl, fun _ => rfl, by simp⟩
  | succ fuel ih =>
    intro a oversize queuelen mem first q hle hfuel h
    rw [SndPcb.newSegs] at h
    by_cases hdone : stream.drop a = []
    · rw [if_pos hdone] at h
      cases h
      have hend := List.drop_eq_nil_iff.mp hdone
      exact ⟨show a = stream.length by omega, by simp, by simp, rfl, fun _ => rfl, by simp⟩
    · have hsmall := pcb.mss_local_small
      have hpos := pcb.mss_local_pos
      have hleft : 0 < (stream.drop a).length := List.length_pos_iff.mpr hdone
      rw [if_neg hdone] at h
      dsimp only at h
      generalize hseglen : min (stream.drop a).length pcb.mss_local = seglen at h
      rw [List.length_drop] at hseglen hleft
      obtain ⟨-, h⟩ := Option.ite_none_left_eq_some.mp h
      obtain ⟨rest, hrest, h⟩ := Option.bind_eq_some_iff.mp h
      cases h
      rw [List.drop_drop, after_add] at hrest
      have hspec := ih (by omega) (by omega) hrest
      have htake : ((stream.drop a).take seglen).length = seglen := by
        rw [List.length_take, List.length_drop]
        omega
      have hprealloc := pcb.tcp_pbuf_prealloc_le (show seglen ≤ pcb.mss_local by omega) more first
      refine ⟨⟨⟨rfl, ?_, by simp [SndPcb.newSeg], hle, ?_⟩, ?_, ?_⟩, ?_, ?_, ?_, ?_, ?_⟩
      · rw [SndSeg.received_data, newSeg_data]
        exact List.take_prefix _ _
      · rw [SndSeg.received_data, newSeg_data, htake]
        omega
      · rw [newSeg_tcplen, htake]
        omega
      · rw [newSeg_tcplen, htake]
        exact hspec.tiles
      · intro seg hmem
        rcases List.mem_cons.mp hmem with rfl | hmem
        · exact newSeg_sound _ (by omega) _
        · exact hspec.sound seg hmem
      · intro seg hmem
        rcases List.mem_cons.mp hmem with rfl | hmem
        · rw [SndSeg.len, newSeg_data, htake]
          omega
        · exact hspec.len seg hmem
      · have hqueuelen := hspec.queuelen
        have hclen : (SndPcb.newSeg (after iss a) ((stream.drop a).take seglen)
            (pcb.tcp_pbuf_prealloc seglen pcb.mss_local more first)).clen = 1 := rfl
        rw [List.map_cons, List.sum_cons, hclen]
        dsimp only
        omega
      · simp
      · intro last hlast
        rw [List.getLast?_cons] at hlast
        rcases hrestLast : rest.queue.getLast? with _ | seg
        · rw [hrestLast] at hlast
          cases hlast
          have hnil := hspec.nil (List.getLast?_eq_none_iff.mp hrestLast)
          dsimp only
          rw [hnil, Option.getD_none, SndSeg.len, newSeg_data, htake]
          exact ⟨⟨rfl, le_rfl⟩, hprealloc⟩
        · rw [hrestLast] at hlast
          cases hlast
          exact hspec.last seg hrestLast

end tun2proxy.core
