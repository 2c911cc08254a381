import Mathlib.Data.List.Infix
import Mathlib.Data.List.TakeDrop
import Tun2Proxy.Lwip.Receive

open tun2proxy.circular

namespace tun2proxy.core

/-- The segment carries the bytes of the stream from place `p` on, and a FIN only
    behind the last byte. `irs` is the sequence number of the first byte. Data and
    TCP header together have a 16-bit length. -/
structure SegOf (stream : List UInt8) (irs : BitVec 32) (p : Nat) (seg : TcpSeg) : Prop where
  seqno : seg.seqno = after irs p
  data : seg.data <+: stream.drop p
  fin : seg.fin = true → p + seg.data.length = stream.length
  place : p ≤ stream.length
  small : seg.data.length + 20 < 2 ^ 16

instance (stream : List UInt8) (irs : BitVec 32) (p : Nat) (seg : TcpSeg) :
    Decidable (SegOf stream irs p seg) :=
  decidable_of_iff (seg.seqno = after irs p ∧ seg.data <+: stream.drop p ∧
      (seg.fin = true → p + seg.data.length = stream.length) ∧ p ≤ stream.length ∧
      seg.data.length + 20 < 2 ^ 16)
    ⟨fun ⟨hseqno, hdata, hfin, hplace, hsmall⟩ => ⟨hseqno, hdata, hfin, hplace, hsmall⟩,
      fun h => ⟨h.seqno, h.data, h.fin, h.place, h.small⟩⟩

namespace TcpSeg

/-- A segment takes as many numbers as it has bytes, or one more. -/
theorem len_le_tcplen (seg : TcpSeg) : seg.data.length ≤ seg.tcplen := Nat.le_add_right _ _

/-- The FIN takes a number. -/
theorem tcplen_of_fin {seg : TcpSeg} (h : seg.fin = true) : seg.tcplen = seg.data.length + 1 := by
  rw [tcplen, if_pos h]

theorem tcplen_of_not_fin {seg : TcpSeg} (h : seg.fin = false) : seg.tcplen = seg.data.length := by
  rw [tcplen, if_neg (by simp [h]), Nat.add_zero]

theorem tcplen_le_succ (seg : TcpSeg) : seg.tcplen ≤ seg.data.length + 1 := by
  rw [tcplen]
  split <;> omega

end TcpSeg

namespace SegOf

variable {stream : List UInt8} {irs : BitVec 32} {p : Nat} {seg : TcpSeg}

/-- A segment of a stream ends within it. -/
theorem end_le (h : SegOf stream irs p seg) : p + seg.data.length ≤ stream.length := by
  have hlen := h.data.length_le
  have hplace := h.place
  rw [List.length_drop] at hlen
  omega

theorem behind (h : SegOf stream irs p seg) :
    seg.seqno + seg.len = after irs (p + seg.data.length) := by
  rw [h.seqno, TcpSeg.len, after_add]

/-- The number behind a segment. -/
theorem ends_eq (h : SegOf stream irs p seg) : seg.ends = after irs (p + seg.tcplen) := by
  rw [TcpSeg.ends, h.seqno, after_add]

theorem ends_of_not_fin (h : SegOf stream irs p seg) (hfin : seg.fin = false) :
    seg.ends = after irs (p + seg.data.length) := by
  rw [h.ends_eq, TcpSeg.tcplen_of_not_fin hfin]

/-- The bytes of a segment continue what comes before them. -/
theorem take_append (h : SegOf stream irs p seg) :
    stream.take p ++ seg.data = stream.take (p + seg.data.length) := by
  rw [List.take_add, List.prefix_iff_eq_take.mp h.data, List.length_take, List.length_drop,
    Nat.min_eq_left (by have := h.end_le; omega)]

/-- A cut at the end. -/
theorem take (h : SegOf stream irs p seg) (n : Nat) :
    SegOf stream irs p { seg with data := seg.data.take n, fin := false } where
  seqno := h.seqno
  data := (List.take_prefix _ _).trans h.data
  fin := by simp
  place := h.place
  small := by
    have hsmall := h.small
    rw [List.length_take]
    omega

/-- A segment without FIN is cut where another one begins. -/
theorem trimTo (h : SegOf stream irs p seg) {q : Nat} (hpq : p ≤ q) (hq : q < p + seg.data.length)
    (hfin : seg.fin = false) :
    SegOf stream irs p (seg.trimTo (after irs q)) ∧
      (seg.trimTo (after irs q)).data.length = q - p ∧ (seg.trimTo (after irs q)).fin = false := by
  have hsmall := h.small
  have hn : (after irs q - seg.seqno).toNat % 2 ^ 16 = q - p := by
    rw [h.seqno, toNat_after_sub_after irs hpq (by omega), Nat.mod_eq_of_lt (by omega)]
  have hcut : seg.trimTo (after irs q) =
      { seg with data := seg.data.take (q - p), fin := false } := by
    rw [TcpSeg.trimTo, hn, ← hfin]
  rw [hcut]
  refine ⟨h.take _, ?_, rfl⟩
  rw [List.length_take]
  omega

/-- A segment that begins before the next byte and ends behind it is cut at the front. -/
theorem trimFront (h : SegOf stream irs p seg) {n : Nat} (hpn : p ≤ n) (hn : n < p + seg.tcplen) :
    ∃ cut, seg.trimFront (after irs n) = some cut ∧ SegOf stream irs n cut ∧
      cut.fin = seg.fin ∧ n + cut.data.length = p + seg.data.length ∧ 0 < cut.tcplen := by
  have hsmall := h.small
  have hle := seg.tcplen_le_succ
  have hoff : (after irs n - seg.seqno).toNat = n - p := by
    rw [h.seqno, toNat_after_sub_after irs hpn (by omega)]
  have hlen : n ≤ p + seg.data.length := by omega
  refine ⟨{ seg with seqno := after irs n, data := seg.data.drop (n - p) }, ?_, ⟨rfl, ?_, ?_, ?_, ?_⟩,
    rfl, ?_, ?_⟩
  · simp only [TcpSeg.trimFront, hoff]
    rw [LWIP_ASSERT_of (by omega), LWIP_ASSERT_of (by omega)]
    rfl
  · obtain ⟨tail, htail⟩ := h.data
    refine ⟨tail, ?_⟩
    have hdrop : stream.drop n = (stream.drop p).drop (n - p) := by
      rw [List.drop_drop]
      congr 1
      omega
    rw [hdrop, ← htail, List.drop_append_of_le_length (by omega)]
  · intro hfin
    have hend := h.fin hfin
    rw [List.length_drop]
    omega
  · exact hlen.trans h.end_le
  · rw [List.length_drop]
    omega
  · rw [List.length_drop]
    omega
  · rw [TcpSeg.tcplen] at hn ⊢
    rw [List.length_drop]
    dsimp only at hn ⊢
    omega

end SegOf

/-- `ooseq` holds segments of the stream in order and without overlap, from place `lo`
    on and up to place `hi`, each with data or FIN, and a FIN only in the last one. -/
def Queued (stream : List UInt8) (irs : BitVec 32) (hi : Nat) : Nat → List TcpSeg → Prop
  | _, [] => True
  | lo, seg :: rest =>
    ∃ p, lo ≤ p ∧ p + seg.tcplen ≤ hi ∧ 0 < seg.tcplen ∧ SegOf stream irs p seg ∧
      (seg.fin = true → rest = []) ∧ Queued stream irs hi (p + seg.data.length) rest

namespace Queued

variable {stream : List UInt8} {irs : BitVec 32} {lo lo' hi hi' : Nat} {queue : List TcpSeg}

/-- The lower bound may be lowered. -/
theorem mono (h : Queued stream irs hi lo queue) (hlo : lo' ≤ lo) : Queued stream irs hi lo' queue := by
  cases queue with
  | nil => trivial
  | cons seg rest =>
    obtain ⟨p, hp, hseg⟩ := h
    exact ⟨p, hlo.trans hp, hseg⟩

/-- The upper bound may be raised. -/
theorem widen (h : Queued stream irs hi lo queue) (hhi : hi ≤ hi') :
    Queued stream irs hi' lo queue := by
  induction queue generalizing lo with
  | nil => trivial
  | cons seg rest ih =>
    obtain ⟨p, hp, hend, hpos, hseg, hfin, hrest⟩ := h
    exact ⟨p, hp, hend.trans hhi, hpos, hseg, hfin, ih hrest⟩

/-- Nothing begins before `lo` but a FIN of its own begins at its place. -/
theorem succ_of_data {seg : TcpSeg} {rest : List TcpSeg} {p : Nat} (hpos : 0 < seg.tcplen)
    (hfin : seg.fin = true → rest = [])
    (hrest : Queued stream irs hi (p + seg.data.length) rest) :
    Queued stream irs hi (p + 1) rest := by
  by_cases hf : seg.fin = true
  · rw [hfin hf]
    trivial
  · have hlen := TcpSeg.tcplen_of_not_fin (Bool.eq_false_iff.mpr hf)
    exact hrest.mono (by omega)

end Queued

section

variable {stream : List UInt8} {irs : BitVec 32}

/-- Dropping what a segment covers leaves its bytes, a queue that ends behind it, and
    a FIN only if the segment ends the stream. -/
theorem dropCovered_spec {hi : Nat} {extent : TcpSeg → BitVec 32} {p : Nat}
    (hextent : ∀ seg, SegOf stream irs p seg → seg.fin = false →
      extent seg = after irs (p + seg.data.length))
    {queue : List TcpSeg} : ∀ {lo : Nat} {seg : TcpSeg}, SegOf stream irs p seg → seg.fin = false →
    p + seg.data.length ≤ hi → Queued stream irs hi lo queue → p ≤ lo → hi < p + 2 ^ 30 →
    ∃ seg' queue', seg.dropCovered extent queue = (seg', queue') ∧ seg'.data = seg.data ∧
      SegOf stream irs p seg' ∧ p + seg'.tcplen ≤ hi ∧ (seg'.fin = true → queue' = []) ∧
      Queued stream irs hi lo queue' ∧
      (∀ next rest, queue' = next :: rest → ∀ q, next.seqno = after irs q → lo ≤ q → q < hi →
        p + seg.data.length < q + next.data.length) := by
  induction queue with
  | nil =>
    intro lo seg hseg hfin hend _ _ _
    refine ⟨seg, [], rfl, rfl, hseg, ?_, fun _ => rfl, trivial, by simp⟩
    rw [TcpSeg.tcplen_of_not_fin hfin]
    exact hend
  | cons next rest ih =>
    intro lo seg hseg hfin hend hqueue hlo hhi
    obtain ⟨q, hq, hqend, hqpos, hnext, hnextFin, hrest⟩ := hqueue
    have hle := next.len_le_tcplen
    have hgeq : TCP_SEQ_GEQ (extent seg) (next.seqno + next.len) ↔
        q + next.data.length ≤ p + seg.data.length := by
      rw [TCP_SEQ_GEQ, hextent seg hseg hfin, hnext.behind, dist_after irs (by omega) (by omega)]
      omega
    by_cases hcov : q + next.data.length ≤ p + seg.data.length
    · rw [TcpSeg.dropCovered, if_pos (hgeq.mpr hcov)]
      by_cases hf : next.fin = true
      · -- the stream ends with `next`, and so with `seg`
        have hstream := hnext.fin hf
        have hsegEnd := hseg.end_le
        rw [hnextFin hf, hf, Bool.or_true]
        refine ⟨_, [], rfl, rfl, ⟨hseg.seqno, hseg.data, fun _ => ?_, hseg.place, ?_⟩, ?_,
          fun _ => rfl, trivial, by simp⟩
        · dsimp only
          omega
        · exact hseg.small
        · rw [TcpSeg.tcplen_of_fin rfl]
          rw [TcpSeg.tcplen_of_fin hf] at hqend
          dsimp only
          omega
      · have hf' := Bool.eq_false_iff.mpr hf
        have hsame : { seg with fin := seg.fin || next.fin } = seg := by rw [hf', Bool.or_false]
        have hlen := TcpSeg.tcplen_of_not_fin hf'
        rw [hsame]
        obtain ⟨seg', queue', heq, hdata, hseg', hend', hfin', hqueue', hbeyond⟩ :=
          ih hseg hfin hend hrest (by omega) hhi
        refine ⟨seg', queue', heq, hdata, hseg', hend', hfin', hqueue'.mono (by omega), ?_⟩
        intro next' rest' hcons q' hq' _ hlt
        subst hcons
        obtain ⟨r, hr, hrend, hrpos, hnext', -⟩ := hqueue'
        have hsame : q' = r := by
          rw [hnext'.seqno, after_inj irs (by omega) (by omega)] at hq'
          omega
        subst hsame
        exact hbeyond next' rest' rfl q' hnext'.seqno hr hlt
    · rw [TcpSeg.dropCovered, if_neg (fun h => hcov (hgeq.mp h))]
      refine ⟨seg, next :: rest, rfl, rfl, hseg, ?_, by simp [hfin],
        ⟨q, hq, hqend, hqpos, hnext, hnextFin, hrest⟩, ?_⟩
      · rw [TcpSeg.tcplen_of_not_fin hfin]
        exact hend
      · rintro next' rest' hcons r hr _ hlt
        cases hcons
        have hsame : q = r := by
          rw [hnext.seqno, after_inj irs (by omega) (by omega)] at hr
          exact hr
        omega

/-- A segment goes before the ones that begin behind its first place. -/
theorem tcp_oos_insert_segment_spec {lo hi p : Nat} {cseg : TcpSeg} {next : List TcpSeg}
    (hseg : SegOf stream irs p cseg) (hpos : 0 < cseg.tcplen) (hend : p + cseg.tcplen ≤ hi)
    (hlo : lo ≤ p) (hhi : hi < p + 2 ^ 30) (hnext : Queued stream irs hi (p + 1) next) :
    Queued stream irs hi lo (tcp_oos_insert_segment cseg next) := by
  unfold tcp_oos_insert_segment
  by_cases hfin : cseg.fin = true
  · rw [if_pos hfin]
    exact ⟨p, hlo, hend, hpos, hseg, fun _ => rfl, trivial⟩
  · have hfin' := Bool.eq_false_iff.mpr hfin
    have hlen := TcpSeg.tcplen_of_not_fin hfin'
    rw [if_neg hfin]
    obtain ⟨seg', queue', heq, hdata, hseg', hend', hlast, hqueue, hbeyond⟩ :=
      dropCovered_spec (fun _ h _ => h.behind) hseg hfin' (by omega) hnext (by omega) hhi
    have hsameLen : seg'.data.length = cseg.data.length := by rw [hdata]
    have hpos' : 0 < seg'.tcplen := by
      have := seg'.len_le_tcplen
      omega
    rw [heq]
    cases queue' with
    | nil => exact ⟨p, hlo, hend', hpos', hseg', fun _ => rfl, trivial⟩
    | cons next rest =>
      have hopen : seg'.fin = false := by
        by_contra hf
        exact absurd (hlast (Bool.eq_true_of_not_eq_false hf)) (by simp)
      obtain ⟨q, hq, hqend, hqpos, hnext', hnextFin, hrest⟩ := hqueue
      have hqhi : q < hi := by omega
      have hcov := hbeyond next rest rfl q hnext'.seqno hq hqhi
      have hgt : TCP_SEQ_GT (seg'.seqno + seg'.len) next.seqno ↔ q < p + cseg.data.length := by
        rw [TCP_SEQ_GT, hseg'.behind, hnext'.seqno, dist_after irs (by omega) (by omega)]
        omega
      dsimp only
      by_cases hover : q < p + cseg.data.length
      · rw [if_pos (hgt.mpr hover), hnext'.seqno]
        obtain ⟨hcut, hcutLen, hcutFin⟩ := hseg'.trimTo (q := q) (by omega) (by omega) hopen
        have hcutTcp := TcpSeg.tcplen_of_not_fin hcutFin
        refine ⟨p, hlo, by omega, by omega, hcut, by simp [hcutFin], q, by omega, hqend, hqpos,
          hnext', hnextFin, hrest⟩
      · rw [if_neg (fun h => hover (hgt.mp h))]
        refine ⟨p, hlo, hend', hpos', hseg', by simp [hopen], q, by omega, hqend, hqpos,
          hnext', hnextFin, hrest⟩

/-- A shorter segment at the same place is replaced. -/
theorem tcp_oos_insert_segment_replace {p : Nat} {cseg next : TcpSeg} {rest : List TcpSeg}
    (hseg : SegOf stream irs p cseg) (hnext : SegOf stream irs p next)
    (hlen : next.data.length ≤ cseg.data.length) (hfin : next.fin = true → rest = []) :
    tcp_oos_insert_segment cseg (next :: rest) =
      tcp_oos_insert_segment { cseg with fin := cseg.fin || next.fin } rest := by
  have hsmall := hseg.small
  have hgeq : TCP_SEQ_GEQ (cseg.seqno + cseg.len) (next.seqno + next.len) := by
    rw [TCP_SEQ_GEQ, hseg.behind, hnext.behind, dist_after irs (by omega) (by omega)]
    omega
  obtain ⟨seqno, data, fin⟩ := cseg
  dsimp only at hgeq ⊢
  cases fin with
  | true => simp only [tcp_oos_insert_segment, Bool.true_or, if_true]
  | false =>
    rw [tcp_oos_insert_segment, if_neg Bool.false_ne_true, TcpSeg.dropCovered, if_pos hgeq,
      Bool.false_or]
    by_cases hf : next.fin = true
    · rw [hfin hf, hf, TcpSeg.dropCovered, tcp_oos_insert_segment, if_pos rfl]
    · rw [Bool.eq_false_iff.mpr hf, tcp_oos_insert_segment, if_neg Bool.false_ne_true]

/-- What a queue becomes that has a longer segment put in place of its head. -/
theorem insert_same_spec {lo hi p : Nat} {cseg next : TcpSeg} {rest : List TcpSeg}
    (hseg : SegOf stream irs p cseg) (hend : p + cseg.tcplen ≤ hi)
    (hlo : lo ≤ p) (hhi : hi < p + 2 ^ 30) (hnext : SegOf stream irs p next)
    (hqpos : 0 < next.tcplen) (hlen : next.data.length < cseg.data.length)
    (hfin : next.fin = true → rest = [])
    (hrest : Queued stream irs hi (p + next.data.length) rest) :
    Queued stream irs hi lo (tcp_oos_insert_segment cseg (next :: rest)) := by
  have hcsegEnd := hseg.end_le
  have hopen : next.fin = false := by
    by_contra hf
    have := hnext.fin (Bool.eq_true_of_not_eq_false hf)
    omega
  have hsame : { cseg with fin := cseg.fin || next.fin } = cseg := by rw [hopen, Bool.or_false]
  have hle := cseg.len_le_tcplen
  rw [tcp_oos_insert_segment_replace hseg hnext hlen.le hfin, hsame]
  exact tcp_oos_insert_segment_spec hseg (by omega) hend hlo hhi
    (Queued.succ_of_data hqpos hfin hrest)

/-- A segment that goes to the end is cut to the window, and nothing is lost of one
    that fits it. -/
theorem fitEdge_spec {p edge : Nat} {seg : TcpSeg} (hseg : SegOf stream irs p seg)
    (hpos : 0 < seg.tcplen) (hedge : p < edge) (hfar : edge < p + 2 ^ 30) :
    ∃ cut, seg.fitEdge (after irs edge) = some cut ∧ SegOf stream irs p cut ∧ 0 < cut.tcplen ∧
      p + cut.tcplen ≤ p + seg.tcplen := by
  have hsmall := hseg.small
  have hle := seg.tcplen_le_succ
  have hgt : TCP_SEQ_GT seg.ends (after irs edge) ↔ edge < p + seg.tcplen := by
    rw [TCP_SEQ_GT, hseg.ends_eq, dist_after irs (by omega) (by omega)]
    omega
  by_cases hover : edge < p + seg.tcplen
  · have hn : (after irs edge - seg.seqno).toNat % 2 ^ 16 = edge - p := by
      rw [hseg.seqno, toNat_after_sub_after irs (by omega) (by omega), Nat.mod_eq_of_lt (by omega)]
    have hcut := hseg.take (edge - p)
    have hcutLen : (seg.data.take (edge - p)).length = edge - p := by
      rw [List.length_take]
      omega
    have htcplen : ({ seg with data := seg.data.take (edge - p), fin := false } : TcpSeg).tcplen =
        edge - p := by rw [TcpSeg.tcplen_of_not_fin rfl, hcutLen]
    refine ⟨_, ?_, hcut, by omega, by omega⟩
    rw [TcpSeg.fitEdge, if_pos (hgt.mpr hover), hn]
    have hasserted : ({ seg with data := seg.data.take (edge - p), fin := false } : TcpSeg).ends =
        after irs edge := by
      rw [hcut.ends_eq, htcplen]
      congr 1
      omega
    dsimp only
    rw [LWIP_ASSERT_of hasserted]
    rfl
  · refine ⟨seg, ?_, hseg, hpos, le_rfl⟩
    rw [TcpSeg.fitEdge, if_neg (fun h => hover (hgt.mp h))]

/-- The walk behind a segment of the queue keeps the queue in order. -/
theorem insertBehind_spec {hi edge p : Nat} {cseg : TcpSeg} (hseg : SegOf stream irs p cseg)
    (hpos : 0 < cseg.tcplen) (hend : p + cseg.tcplen ≤ hi) (hedge : p < edge)
    (hfar : edge < p + 2 ^ 30) {rest : List TcpSeg} :
    ∀ {lo pp : Nat} {prev : TcpSeg}, SegOf stream irs pp prev → lo ≤ pp → pp < p →
      0 < prev.tcplen → pp + prev.tcplen ≤ hi → hi < pp + 2 ^ 30 →
      (prev.fin = true → rest = []) →
      Queued stream irs hi (pp + prev.data.length) rest →
      ∃ queue, insertBehind (after irs edge) cseg prev rest = some queue ∧
        Queued stream irs hi lo queue := by
  induction rest with
  | nil =>
    intro lo pp prev hprev hlo hpp hprevPos hprevEnd hhi _ _
    have hsmall := hprev.small
    have hgt : TCP_SEQ_GT cseg.seqno prev.seqno := by
      rw [TCP_SEQ_GT, hseg.seqno, hprev.seqno, dist_after irs (by omega) (by omega)]
      omega
    have hover : TCP_SEQ_GT (prev.seqno + prev.len) cseg.seqno ↔ p < pp + prev.data.length := by
      rw [TCP_SEQ_GT, hseg.seqno, hprev.behind, dist_after irs (by omega) (by omega)]
      omega
    rw [insertBehind]
    by_cases hfin : prev.fin = true
    · rw [if_neg (by simp [hfin])]
      exact ⟨_, rfl, pp, hlo, hprevEnd, hprevPos, hprev, fun _ => rfl, trivial⟩
    · have hfin' := Bool.eq_false_iff.mpr hfin
      have hlen := TcpSeg.tcplen_of_not_fin hfin'
      obtain ⟨last, hlast, hlastSeg, hlastPos, hlastEnd⟩ := fitEdge_spec hseg hpos hedge hfar
      rw [if_pos ⟨hgt, hfin'⟩, hlast]
      simp only [Option.bind_eq_bind, Option.bind_some]
      by_cases hcut : p < pp + prev.data.length
      · obtain ⟨hprev', hcutLen, hcutFin⟩ := hprev.trimTo hpp.le hcut hfin'
        have hcutTcp := TcpSeg.tcplen_of_not_fin hcutFin
        rw [if_pos (hover.mpr hcut), hseg.seqno]
        exact ⟨_, rfl, pp, hlo, by omega, by omega, hprev', by simp [hcutFin], p, by omega, by omega,
          hlastPos, hlastSeg, fun _ => rfl, trivial⟩
      · rw [if_neg (fun h => hcut (hover.mp h))]
        exact ⟨_, rfl, pp, hlo, hprevEnd, hprevPos, hprev, by simp [hfin'], p, by omega, by omega,
          hlastPos, hlastSeg, fun _ => rfl, trivial⟩
  | cons next rest ih =>
    intro lo pp prev hprev hlo hpp hprevPos hprevEnd hhi hprevFin hqueue
    have hsmall := hprev.small
    have hfin : prev.fin = false := by
      by_contra hf
      exact absurd (hprevFin (Bool.eq_true_of_not_eq_false hf)) (by simp)
    have hlen := TcpSeg.tcplen_of_not_fin hfin
    obtain ⟨q, hq, hqend, hqpos, hnext, hnextFin, hrest⟩ := hqueue
    have hsame : cseg.seqno = next.seqno ↔ p = q := by
      rw [hseg.seqno, hnext.seqno, after_inj irs (by omega) (by omega)]
    have hbetween : TCP_SEQ_BETWEEN cseg.seqno (prev.seqno + 1) (next.seqno - 1) ↔ p < q := by
      have hlow : prev.seqno + 1 = after irs (pp + 1) := by
        rw [hprev.seqno]
        exact after_add irs pp 1
      have hhigh : next.seqno - 1 = after irs (q - 1) := by
        rw [hnext.seqno]
        exact after_sub irs (show 1 ≤ q by omega)
      rw [TCP_SEQ_BETWEEN, TCP_SEQ_GEQ, TCP_SEQ_LEQ, hlow, hhigh, hseg.seqno,
        dist_after irs (by omega) (by omega), dist_after irs (by omega) (by omega)]
      omega
    have hover : TCP_SEQ_GT (prev.seqno + prev.len) cseg.seqno ↔ p < pp + prev.data.length := by
      rw [TCP_SEQ_GT, hseg.seqno, hprev.behind, dist_after irs (by omega) (by omega)]
      omega
    rw [insertBehind]
    obtain hlt | heq | hgt := Nat.lt_trichotomy p q
    · rw [if_neg (by rw [hsame]; omega), if_pos (hbetween.mpr hlt)]
      have hnextQueue : Queued stream irs hi (p + 1) (next :: rest) :=
        ⟨q, by omega, hqend, hqpos, hnext, hnextFin, hrest⟩
      by_cases hcut : p < pp + prev.data.length
      · obtain ⟨hprev', hcutLen, hcutFin⟩ := hprev.trimTo hpp.le hcut hfin
        have hcutTcp := TcpSeg.tcplen_of_not_fin hcutFin
        rw [if_pos (hover.mpr hcut), hseg.seqno]
        exact ⟨_, rfl, pp, hlo, by omega, by omega, hprev', by simp [hcutFin],
          tcp_oos_insert_segment_spec hseg hpos hend (by omega) (by omega) hnextQueue⟩
      · rw [if_neg (fun h => hcut (hover.mp h))]
        exact ⟨_, rfl, pp, hlo, hprevEnd, hprevPos, hprev, by simp [hfin],
          tcp_oos_insert_segment_spec hseg hpos hend (by omega) (by omega) hnextQueue⟩
    · subst heq
      rw [if_pos (hsame.mpr rfl)]
      by_cases hlonger : next.data.length < cseg.data.length
      · rw [if_pos hlonger]
        exact ⟨_, rfl, pp, hlo, hprevEnd, hprevPos, hprev, by simp [hfin],
          insert_same_spec hseg hend hq (by omega) hnext hqpos hlonger hnextFin hrest⟩
      · rw [if_neg hlonger]
        exact ⟨_, rfl, pp, hlo, hprevEnd, hprevPos, hprev, by simp [hfin], p, hq, hqend, hqpos,
          hnext, hnextFin, hrest⟩
    · rw [if_neg (by rw [hsame]; omega), if_neg (by rw [hbetween]; omega)]
      have hafter : pp + prev.data.length ≤ q := hq
      obtain ⟨queue, heq, hqueue⟩ := ih hnext hafter hgt hqpos hqend (by omega) hnextFin hrest
      rw [heq]
      exact ⟨_, rfl, pp, hlo, hprevEnd, hprevPos, hprev, by simp [hfin], hqueue⟩

/-- An out-of-sequence segment joins the queue: no assertion fails, and the queue
    stays in order. -/
theorem enqueueOos_spec {lo hi edge p : Nat} {cseg : TcpSeg} {queue : List TcpSeg}
    (hseg : SegOf stream irs p cseg) (hpos : 0 < cseg.tcplen) (hend : p + cseg.tcplen ≤ hi)
    (hlo : lo ≤ p) (hedge : p < edge) (hfar : edge < lo + 2 ^ 30) (hhi : hi < lo + 2 ^ 30)
    (hqueue : Queued stream irs hi lo queue) :
    ∃ queue', enqueueOos (after irs edge) cseg queue = some queue' ∧
      Queued stream irs hi lo queue' := by
  cases queue with
  | nil => exact ⟨_, rfl, p, hlo, hend, hpos, hseg, fun _ => rfl, trivial⟩
  | cons next rest =>
    obtain ⟨q, hq, hqend, hqpos, hnext, hnextFin, hrest⟩ := hqueue
    have hsame : cseg.seqno = next.seqno ↔ p = q := by
      rw [hseg.seqno, hnext.seqno, after_inj irs (by omega) (by omega)]
    have hlt : TCP_SEQ_LT cseg.seqno next.seqno ↔ p < q := by
      rw [TCP_SEQ_LT, hseg.seqno, hnext.seqno, dist_after irs (by omega) (by omega)]
      omega
    rw [enqueueOos]
    obtain hless | heq | hgt := Nat.lt_trichotomy p q
    · rw [if_neg (by rw [hsame]; omega), if_pos (hlt.mpr hless)]
      exact ⟨_, rfl, tcp_oos_insert_segment_spec hseg hpos hend hlo (by omega)
        ⟨q, by omega, hqend, hqpos, hnext, hnextFin, hrest⟩⟩
    · subst heq
      rw [if_pos (hsame.mpr rfl)]
      by_cases hlonger : next.data.length < cseg.data.length
      · rw [if_pos hlonger]
        exact ⟨_, rfl, insert_same_spec hseg hend hlo (by omega) hnext hqpos hlonger hnextFin hrest⟩
      · rw [if_neg hlonger]
        exact ⟨_, rfl, p, hlo, hqend, hqpos, hnext, hnextFin, hrest⟩
    · rw [if_neg (by rw [hsame]; omega), if_neg (by rw [hlt]; omega)]
      exact insertBehind_spec hseg hpos hend hedge (by omega) hnext hq hgt hqpos hqend (by omega)
        hnextFin hrest

end

end tun2proxy.core
