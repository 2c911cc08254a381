import Tun2Proxy.Lib.Split
import Tun2Proxy.Lwip.Ooseq
import Tun2Proxy.Lwip.SndSeg

open tun2proxy.circular tun2proxy.split

namespace tun2proxy.core

@[simp] theorem SndSeg.received_seqno (seg : SndSeg) : seg.received.seqno = seg.seqno := rfl

@[simp] theorem SndSeg.received_data (seg : SndSeg) : seg.received.data = seg.data := rfl

@[simp] theorem SndSeg.received_fin (seg : SndSeg) : seg.received.fin = seg.fin := rfl

/-- A segment without FIN is one of a longer stream, too. -/
theorem SegOf.extend {stream : List UInt8} {irs : BitVec 32} {p : Nat} {seg : TcpSeg}
    (h : SegOf stream irs p seg) (hfin : seg.fin = false) (more : List UInt8) :
    SegOf (stream ++ more) irs p seg := by
  have hplace := h.place
  refine ⟨h.seqno, ?_, fun hset => ?_, ?_, h.small⟩
  · rw [List.drop_append_of_le_length hplace]
    exact h.data.trans (List.prefix_append _ _)
  · rw [hfin] at hset
    cases hset
  · rw [List.length_append]
    omega

/-- The segments carry the stream from place `a` to place `b`, one behind the other. -/
def Tiles (stream : List UInt8) (iss : BitVec 32) (a b : Nat) : List SndSeg → Prop
  | [] => a = b
  | seg :: rest => SegOf stream iss a seg.received ∧ 0 < seg.tcplen ∧
      Tiles stream iss (a + seg.tcplen) b rest

namespace Tiles

variable {stream : List UInt8} {iss : BitVec 32} {a b c : Nat} {segs segs' : List SndSeg}

theorem le : ∀ {segs : List SndSeg} {a : Nat}, Tiles stream iss a b segs → a ≤ b
  | [], _, h => Nat.le_of_eq h
  | _ :: _, _, ⟨_, _, hrest⟩ => Nat.le_trans (Nat.le_add_right _ _) hrest.le

theorem append_iff : ∀ {segs : List SndSeg} {a : Nat},
    Tiles stream iss a c (segs ++ segs') ↔ ∃ b, Tiles stream iss a b segs ∧ Tiles stream iss b c segs'
  | [], a => by
    constructor
    · intro h
      exact ⟨a, rfl, h⟩
    · rintro ⟨b, rfl, h⟩
      exact h
  | seg :: rest, a => by
    rw [List.cons_append, Tiles, append_iff]
    constructor
    · rintro ⟨hseg, hpos, b, hrest, h⟩
      exact ⟨b, ⟨hseg, hpos, hrest⟩, h⟩
    · rintro ⟨b, ⟨hseg, hpos, hrest⟩, h⟩
      exact ⟨hseg, hpos, b, hrest, h⟩

theorem append (h : Tiles stream iss a b segs) (h' : Tiles stream iss b c segs') :
    Tiles stream iss a c (segs ++ segs') := append_iff.mpr ⟨b, h, h'⟩

/-- Bytes written later change nothing before the FIN. -/
theorem extend (more : List UInt8) : ∀ {segs : List SndSeg} {a : Nat},
    Tiles stream iss a b segs → b ≤ stream.length → Tiles (stream ++ more) iss a b segs
  | [], _, h, _ => h
  | seg :: rest, a, ⟨hseg, hpos, hrest⟩, hb => by
    have hle := hrest.le
    have hnot : seg.fin = false := by
      rw [← Bool.not_eq_true]
      intro hfin
      have hend := hseg.fin hfin
      rw [SndSeg.tcplen, hfin] at hle
      rw [SndSeg.received_data, ← SndSeg.len] at hend
      simp only [Bool.toNat_true] at hle
      omega
    exact ⟨hseg.extend hnot more, hpos, hrest.extend more hb⟩

theorem mem {seg : SndSeg} : ∀ {segs : List SndSeg} {a : Nat}, Tiles stream iss a b segs → seg ∈ segs →
    ∃ p, a ≤ p ∧ p + seg.tcplen ≤ b ∧ 0 < seg.tcplen ∧ SegOf stream iss p seg.received
  | [], _, _, hmem => absurd hmem List.not_mem_nil
  | first :: rest, a, ⟨hfirst, hpos, hrest⟩, hmem => by
    rcases List.mem_cons.mp hmem with rfl | hmem
    · exact ⟨a, le_rfl, hrest.le, hpos, hfirst⟩
    · obtain ⟨p, hp, hend, hseg⟩ := hrest.mem hmem
      exact ⟨p, by omega, hend, hseg⟩

/-- The bytes in the segments. -/
theorem sum_len : ∀ {segs : List SndSeg} {a : Nat}, Tiles stream iss a b segs →
    (segs.map SndSeg.len).sum + (stream.length - b) = stream.length - a
  | [], _, h => by
    rw [Tiles] at h
    rw [h, List.map_nil, List.sum_nil, Nat.zero_add]
  | seg :: rest, a, ⟨hseg, hpos, hrest⟩ => by
    have hsum := hrest.sum_len
    have hend := hseg.end_le
    rw [SndSeg.received_data, ← SndSeg.len] at hend
    rw [List.map_cons, List.sum_cons]
    by_cases hfin : seg.fin = true
    · have hlast := hseg.fin hfin
      rw [SndSeg.received_data, ← SndSeg.len] at hlast
      rw [SndSeg.tcplen, hfin, Bool.toNat_true] at hsum
      omega
    · rw [SndSeg.tcplen, Bool.eq_false_iff.mpr hfin, Bool.toNat_false] at hsum
      omega

/-- All the bytes in the segments. -/
theorem flatMap_data :
    ∀ {segs : List SndSeg} {a : Nat}, Tiles stream iss a b segs → stream.length ≤ b →
      segs.flatMap SndSeg.data = stream.drop a
  | [], a, h, hb => by
    have hplace : a = b := h
    rw [List.flatMap_nil, List.drop_eq_nil_of_le (by omega)]
  | seg :: rest, a, ⟨hseg, _, hrest⟩, hb => by
    have hdata : stream.drop a = seg.data ++ stream.drop (a + seg.len) := by
      obtain ⟨behind, hbehind⟩ := hseg.data
      have hdrop : (stream.drop a).drop seg.len = behind := by
        rw [← hbehind, SndSeg.received_data, SndSeg.len, List.drop_left]
      rw [← List.drop_drop, hdrop, ← hbehind, SndSeg.received_data]
    have hnext : stream.drop (a + seg.tcplen) = stream.drop (a + seg.len) := by
      rw [SndSeg.tcplen]
      by_cases hfin : seg.fin = true
      · have hlast := hseg.fin hfin
        rw [SndSeg.received_data, ← SndSeg.len] at hlast
        rw [List.drop_eq_nil_of_le (by omega), List.drop_eq_nil_of_le (by omega)]
      · rw [Bool.eq_false_iff.mpr hfin, Bool.toNat_false, Nat.add_zero]
    rw [List.flatMap_cons, hrest.flatMap_data hb, hnext, hdata]

/-- Two places of the queues, compared by their sequence numbers. -/
theorem seq_lt_iff {p q : Nat} (hp : a ≤ p ∧ p ≤ a + 2 ^ 30) (hq : a ≤ q ∧ q ≤ a + 2 ^ 30) :
    TCP_SEQ_LT (after iss p) (after iss q) ↔ p < q := by
  rw [TCP_SEQ_LT, dist_after iss (by omega) (by omega)]
  omega

theorem seq_leq_iff {p q : Nat} (hp : a ≤ p ∧ p ≤ a + 2 ^ 30) (hq : a ≤ q ∧ q ≤ a + 2 ^ 30) :
    TCP_SEQ_LEQ (after iss p) (after iss q) ↔ p ≤ q := by
  rw [TCP_SEQ_LEQ, dist_after iss (by omega) (by omega)]
  omega

/-- The order of the queues. -/
def before (seg seg' : SndSeg) : Prop := TCP_SEQ_LT seg.seqno seg'.seqno

instance (seg seg' : SndSeg) : Decidable (before seg seg') :=
  inferInstanceAs (Decidable (TCP_SEQ_LT _ _))

theorem pairwise : ∀ {segs : List SndSeg} {a : Nat}, Tiles stream iss a b segs → b ≤ a + 2 ^ 30 →
    segs.Pairwise fun seg seg' => before seg seg' ∧ ¬ before seg' seg
  | [], _, _, _ => .nil
  | seg :: rest, a, ⟨hseg, hpos, hrest⟩, hb => by
    refine .cons ?_ (hrest.pairwise (by omega))
    intro seg' hmem
    obtain ⟨p, hp, hend, -, hseg'⟩ := hrest.mem hmem
    have hplace : seg.seqno = after iss a := hseg.seqno
    have hplace' : seg'.seqno = after iss p := hseg'.seqno
    rw [before, before, hplace, hplace', seq_lt_iff (a := a) (by omega) (by omega),
      seq_lt_iff (a := a) (by omega) (by omega)]
    omega

/-- Every byte from `a` on is in one of the segments. -/
theorem cover : ∀ {segs : List SndSeg} {a i : Nat}, Tiles stream iss a b segs → a ≤ i → i < b →
    ∃ seg ∈ segs, ∃ p, p ≤ i ∧ i < p + seg.tcplen ∧ SegOf stream iss p seg.received
  | [], _, _, h, hlow, hhigh => by
    rw [Tiles] at h
    omega
  | seg :: rest, a, i, ⟨hseg, hpos, hrest⟩, hlow, hhigh => by
    by_cases hin : i < a + seg.tcplen
    · exact ⟨seg, List.mem_cons_self, a, hlow, hin, hseg⟩
    · obtain ⟨seg', hmem, p, hp⟩ := hrest.cover (by omega) hhigh
      exact ⟨seg', List.mem_cons_of_mem _ hmem, p, hp⟩

/-- `tcp_free_acked_segments` frees what an ACK covers. -/
def acked (ackno : BitVec 32) (seg : SndSeg) : Bool := decide (TCP_SEQ_LEQ seg.ends ackno)

private theorem acked_iff {p ack : Nat} {seg : SndSeg} (hseg : SegOf stream iss p seg.received)
    (hp : a ≤ p ∧ p + seg.tcplen ≤ a + 2 ^ 30) (hack : a ≤ ack ∧ ack ≤ a + 2 ^ 30) :
    acked (after iss ack) seg = true ↔ p + seg.tcplen ≤ ack := by
  have hends : seg.ends = after iss (p + seg.tcplen) := by
    rw [SndSeg.ends, ← after_add, ← hseg.seqno]
    rfl
  rw [acked, decide_eq_true_iff, hends, seq_leq_iff (a := a) (by omega) hack]

/-- What is not covered goes on being in the queues, from a place that the ACK has reached. -/
theorem dropWhile_acked {ack : Nat} : ∀ {segs : List SndSeg} {a : Nat}, Tiles stream iss a b segs →
    b ≤ a + 2 ^ 30 → a ≤ ack → ack ≤ b →
    ∃ a', a ≤ a' ∧ a' ≤ ack ∧ Tiles stream iss a' b (segs.dropWhile (acked (after iss ack))) ∧
      ∀ seg rest, segs.dropWhile (acked (after iss ack)) = seg :: rest → ack < a' + seg.tcplen
  | [], a, h, _, hlow, _ => ⟨a, le_rfl, hlow, h, by simp⟩
  | seg :: rest, a, ⟨hseg, hpos, hrest⟩, hb, hlow, hhigh => by
    have hle := hrest.le
    have hiff : acked (after iss ack) seg = true ↔ a + seg.tcplen ≤ ack :=
      acked_iff (a := a) hseg (by omega) (by omega)
    by_cases hacked : acked (after iss ack) seg = true
    · have hreach := hiff.mp hacked
      obtain ⟨a', hle', hrest'⟩ := hrest.dropWhile_acked (by omega) hreach hhigh
      rw [List.dropWhile_cons_of_pos hacked]
      exact ⟨a', by omega, hrest'⟩
    · rw [List.dropWhile_cons_of_neg hacked]
      refine ⟨a, le_rfl, hlow, ⟨hseg, hpos, hrest⟩, ?_⟩
      rintro seg' rest' heq
      cases heq
      rw [hiff] at hacked
      omega

/-- An ACK covers nothing behind a segment that it does not cover. -/
theorem pairwise_acked {ack : Nat} : ∀ {segs : List SndSeg} {a : Nat}, Tiles stream iss a b segs →
    b ≤ a + 2 ^ 29 → ack ≤ a + 2 ^ 29 → b ≤ ack + 2 ^ 29 →
    segs.Pairwise fun seg seg' =>
      acked (after iss ack) seg' = true → acked (after iss ack) seg = true
  | [], _, _, _, _, _ => .nil
  | seg :: rest, a, ⟨hseg, hpos, hrest⟩, hb, hlow, hhigh => by
    have hle := hrest.le
    refine .cons ?_ (hrest.pairwise_acked (by omega) (by omega) (by omega))
    intro seg' hmem hacked'
    obtain ⟨p, hp, hend, -, hseg'⟩ := hrest.mem hmem
    have hends : seg.ends = after iss (a + seg.tcplen) := by
      rw [SndSeg.ends, ← after_add, ← hseg.seqno]
      rfl
    have hends' : seg'.ends = after iss (p + seg'.tcplen) := by
      rw [SndSeg.ends, ← after_add, ← hseg'.seqno]
      rfl
    rw [acked, decide_eq_true_iff, hends', TCP_SEQ_LEQ, dist_after iss (by omega) (by omega)] at hacked'
    rw [acked, decide_eq_true_iff, hends, TCP_SEQ_LEQ, dist_after iss (by omega) (by omega)]
    omega

end Tiles

end tun2proxy.core
