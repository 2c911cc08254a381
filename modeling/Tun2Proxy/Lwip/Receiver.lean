import Tun2Proxy.Lwip.Window

open tun2proxy.circular tun2proxy.machine tun2proxy.machine.Machine

namespace tun2proxy.core

/-- What `tcp_receive` does with any segment of the stream. -/
theorem tcp_receive_spec {stream : List UInt8} {irs : BitVec 32} {edge hi n p : Nat}
    {pcb pcb' : RcvPcb} {seg : TcpSeg} {recv : RecvData} {copied : Bool}
    (htaken : TakenTo stream irs edge hi n false pcb) (hseg : SegOf stream irs p seg)
    (hnear : p < n + 2 ^ 30) (hold : n < p + 2 ^ 30) (hend : p < edge → p + seg.tcplen ≤ hi)
    (hfar : edge < n + 2 ^ 29) (hhi : hi < n + 2 ^ 29) (hwnd : pcb.rcv_wnd ≤ TCP_WND)
    (h : pcb.tcp_receive seg copied = some (pcb', recv)) :
    ∃ n', n ≤ n' ∧ TakenTo stream irs edge hi n' recv.gotFin pcb' ∧
      stream.take n ++ recv.data = stream.take n' ∧ pcb'.mss = pcb.mss ∧
      pcb'.rcv_ann_right_edge = pcb.rcv_ann_right_edge ∧ pcb'.receives = pcb.receives := by
  have hsame (hcons : some (pcb, (⟨[], false⟩ : RecvData)) = some (pcb', recv)) :
      ∃ n', n ≤ n' ∧ TakenTo stream irs edge hi n' recv.gotFin pcb' ∧
        stream.take n ++ recv.data = stream.take n' ∧ pcb'.mss = pcb.mss ∧
        pcb'.rcv_ann_right_edge = pcb.rcv_ann_right_edge ∧ pcb'.receives = pcb.receives := by
    cases hcons
    exact ⟨n, le_rfl, htaken, List.append_nil _, rfl, rfl, rfl⟩
  by_cases hactive : 0 < seg.tcplen ∧ pcb.receives = true
  · obtain ⟨hpos, hrcv⟩ := hactive
    by_cases hnext : p ≤ n ∧ n < p + seg.tcplen ∧ n < edge
    · obtain ⟨cut, hcut, hfin, hlen, hcutPos, heq⟩ := tcp_receive_next htaken hrcv hseg hpos hnear
        hold hwnd copied hnext.1 hnext.2.1 hnext.2.2
      have hright : n + pcb.rcv_wnd = edge := htaken.rcv_wnd
      have hcutEnd : n + cut.tcplen = p + seg.tcplen := by
        rw [TcpSeg.tcplen, TcpSeg.tcplen, hfin]
        omega
      rw [heq] at h
      obtain ⟨n', -, hn', htaken', hdata, -, -, hmss, hann, hrcv'⟩ :=
        receiveNext_spec htaken hcut hcutPos (by omega) (by omega) (by omega) h
      exact ⟨n', hn', htaken', hdata, hmss, hann, hrcv'⟩
    · by_cases hahead : n < p ∧ p < edge
      · rw [tcp_receive_ahead htaken hrcv hseg hpos hnear hold hwnd copied hahead.1 hahead.2] at h
        by_cases hcopied : copied = true
        · obtain ⟨queue, heq, hqueue⟩ := enqueueOos_spec hseg hpos (hend hahead.2)
            (show n + 1 ≤ p by omega) hahead.2 (by omega) (by omega) htaken.queue
          rw [if_pos hcopied, heq] at h
          cases h
          exact ⟨n, le_rfl, ⟨htaken.le, by simp, htaken.rcv_nxt, htaken.rcv_wnd, hqueue⟩,
            List.append_nil _, rfl, rfl, rfl⟩
        · rw [if_neg hcopied] at h
          exact hsame h
      · rw [tcp_receive_other htaken hseg hpos hnear hold hwnd copied hnext hahead] at h
        exact hsame h
  · rw [RcvPcb.tcp_receive, if_neg hactive] at h
    exact hsame h

/-! ### The receiving half of a connection -/

/-- A receiving pcb and what it has handed to the application so far. -/
structure Receiver where
  pcb : RcvPcb
  delivered : List UInt8
  gotFin : Bool
  -- `TCP_EVENT_CLOSED` is still to come
  finHeld : Bool
  -- the sum of what `tcp_recved` was called with
  credited : Nat
  -- the furthest right edge in a header so far, as a place in the stream
  announced : Nat
  deriving DecidableEq, Repr

/-- What the network, lwIP and the application do next. -/
inductive RcvAct where
  | segment (seg : TcpSeg) (copied : Bool)
  | recved (len : Nat)
  -- before `TCP_EVENT_CLOSED`
  | closed
  -- `tcp_free_ooseq`, from a timer or when memory is short
  | freeOoseq
  | announce
  -- `tcp_parseopt`, on any segment with the MSS option
  | parseopt (mss : BitVec 16)
  deriving DecidableEq, Repr

/-- The FIN's place in the window is given back, as nobody calls `tcp_recved` for it. -/
def RcvPcb.finReported (pcb : RcvPcb) : RcvPcb :=
  if pcb.rcv_wnd ≠ TCP_WND then { pcb with rcv_wnd := pcb.rcv_wnd + 1 } else pcb

namespace Receiver

def accepted (irs : BitVec 32) (mss : Nat) : Receiver :=
  { pcb := .accepted irs mss
    delivered := []
    gotFin := false
    finHeld := false
    credited := 0
    announced := TCP_WND }

/-- The place of `rcv_nxt` in the stream. -/
def pos (r : Receiver) : Nat := r.delivered.length + r.gotFin.toNat

/-- The place of the right edge of the window. -/
def edge (r : Receiver) : Nat := r.pos + r.pcb.rcv_wnd

/-- `tcp_process` after `tcp_receive`: a FIN takes the pcb to a state that receives no more. -/
def take (r : Receiver) (pcb : RcvPcb) (recv : RecvData) : Receiver :=
  { r with
    pcb := { pcb with receives := pcb.receives && !recv.gotFin }
    delivered := r.delivered ++ recv.data
    gotFin := r.gotFin || recv.gotFin
    finHeld := r.finHeld || recv.gotFin }

/-- `none` is a failed assertion, or `closed` without a FIN to report. -/
def step (r : Receiver) : RcvAct → Option Receiver
  | .segment seg copied => (r.pcb.tcp_receive seg copied).map fun res => r.take res.1 res.2
  | .recved len => (r.pcb.tcp_recved len).map fun pcb => { r with pcb, credited := r.credited + len }
  | .closed => if r.finHeld then some { r with pcb := r.pcb.finReported, finHeld := false } else none
  | .freeOoseq => some { r with pcb := { r.pcb with ooseq := [] } }
  | .announce => some { r with
      pcb := r.pcb.announce
      announced := max r.announced (r.pos + r.pcb.rcv_ann_wnd) }
  | .parseopt mss => some { r with pcb := { r.pcb with mss := optMss mss } }

end Receiver

/-- Only segments bring bytes or the FIN. -/
theorem Receiver.step_other {r r' : Receiver} {a : RcvAct}
    (hnot : ∀ seg copied, a ≠ .segment seg copied) (hstep : r.step a = some r') :
    r'.delivered = r.delivered ∧ r'.gotFin = r.gotFin := by
  cases a with
  | segment seg copied => exact absurd rfl (hnot seg copied)
  | recved len =>
    obtain ⟨pcb, -, rfl⟩ := Option.map_eq_some_iff.mp hstep
    exact ⟨rfl, rfl⟩
  | closed =>
    obtain ⟨-, hstep⟩ := Option.ite_none_right_eq_some.mp hstep
    cases hstep
    exact ⟨rfl, rfl⟩
  | freeOoseq | announce | parseopt _ =>
    cases hstep
    exact ⟨rfl, rfl⟩

/-- The receiving half of a connection whose first byte has number `irs`. -/
def receiverMachine (irs : BitVec 32) (mss : Nat) : Machine Receiver RcvAct :=
  ⟨.accepted irs mss, Receiver.step⟩

/-- Every segment carries bytes of one stream, at most 2 ^ 30 places from the next byte. -/
def FromStream (stream : List UInt8) (irs : BitVec 32) (r : Receiver) : RcvAct → Prop
  | .segment seg _ => ∃ p, SegOf stream irs p seg ∧ p < r.pos + 2 ^ 30 ∧ r.pos < p + 2 ^ 30
  | .recved len => len < 2 ^ 16
  | _ => True

/-- The other end keeps to the window that was announced, and the application gives back
    no more than it got. -/
def InWindow (stream : List UInt8) (irs : BitVec 32) (r : Receiver) : RcvAct → Prop
  | .segment seg _ =>
    ∃ p, SegOf stream irs p seg ∧ p + seg.tcplen ≤ r.announced ∧ r.pos < p + 2 ^ 30
  | .recved len => r.credited + len ≤ r.delivered.length ∧ len < 2 ^ 16
  | _ => True

/-- What was delivered is a prefix of the stream, and `ooseq` holds what comes later. -/
structure Upstream (stream : List UInt8) (irs : BitVec 32) (hi : Nat) (r : Receiver) : Prop where
  taken : TakenTo stream irs r.edge hi r.delivered.length r.gotFin r.pcb
  delivered : r.delivered <+: stream
  receives : r.pcb.receives = !r.gotFin
  wnd : r.pcb.rcv_wnd ≤ TCP_WND
  finHeld : r.finHeld = true → r.gotFin = true

section

variable {stream : List UInt8} {irs : BitVec 32}

/-- A window of another size. -/
theorem TakenTo.resize {edge hi n : Nat} {fin : Bool} {pcb pcb' : RcvPcb}
    (h : TakenTo stream irs edge hi n fin pcb) (hnxt : pcb'.rcv_nxt = pcb.rcv_nxt)
    (hooseq : pcb'.ooseq = pcb.ooseq) :
    TakenTo stream irs (n + fin.toNat + pcb'.rcv_wnd) hi n fin pcb' where
  le := h.le
  last hf := by
    rw [hooseq]
    exact h.last hf
  rcv_nxt := hnxt.trans h.rcv_nxt
  rcv_wnd := rfl
  queue := by
    rw [hooseq]
    exact h.queue

theorem RcvPcb.tcp_recved_frame {pcb pcb' : RcvPcb} {len : Nat} (h : pcb.tcp_recved len = some pcb')
    (hwnd : pcb.rcv_wnd ≤ TCP_WND) (hlen : len < 2 ^ 16) :
    pcb'.rcv_nxt = pcb.rcv_nxt ∧ pcb'.rcv_wnd = min TCP_WND (pcb.rcv_wnd + len) ∧
      pcb'.ooseq = pcb.ooseq ∧ pcb'.receives = pcb.receives := by
  rw [RcvPcb.tcp_recved, recved_wnd hwnd hlen] at h
  obtain ⟨ann, rfl⟩ := RcvPcb.tcp_update_rcv_ann_wnd_frame h
  exact ⟨rfl, rfl, rfl, rfl⟩

private theorem RcvPcb.finReported_frame (pcb : RcvPcb) (hwnd : pcb.rcv_wnd ≤ TCP_WND) :
    pcb.finReported = { pcb with rcv_wnd := min TCP_WND (pcb.rcv_wnd + 1) } := by
  by_cases hfull : pcb.rcv_wnd = TCP_WND
  · rw [RcvPcb.finReported, if_neg (fun hne => hne hfull), Nat.min_eq_left (by omega), ← hfull]
  · rw [RcvPcb.finReported, if_pos hfull, Nat.min_eq_right (by omega)]

namespace Upstream

variable {hi : Nat} {r r' : Receiver}

theorem accepted (hi mss : Nat) : Upstream stream irs hi (.accepted irs mss) where
  taken := ⟨Nat.zero_le _, by simp [Receiver.accepted], (after_zero irs).symm, rfl, trivial⟩
  delivered := List.nil_prefix
  receives := rfl
  wnd := le_rfl
  finHeld := by simp [Receiver.accepted]

theorem widen {hi' : Nat} (h : Upstream stream irs hi r) (hle : hi ≤ hi') :
    Upstream stream irs hi' r where
  taken := ⟨h.taken.le, h.taken.last, h.taken.rcv_nxt, h.taken.rcv_wnd, h.taken.queue.widen hle⟩
  delivered := h.delivered
  receives := h.receives
  wnd := h.wnd
  finHeld := h.finHeld

/-- After the FIN nothing more is received. -/
theorem segment_closed {seg : TcpSeg} {copied : Bool} (h : Upstream stream irs hi r)
    (hfin : r.gotFin = true) : r.step (.segment seg copied) = some r := by
  have hrcv : r.pcb.receives = false := by rw [h.receives, hfin, Bool.not_true]
  have hstay : r.take r.pcb ⟨[], false⟩ = r := by
    rw [Receiver.take, List.append_nil, Bool.or_false, Bool.or_false, Bool.not_false, Bool.and_true]
  rw [Receiver.step, RcvPcb.tcp_receive, if_neg (by simp [hrcv]), Option.map_some, hstay]

theorem segment {seg : TcpSeg} {copied : Bool} {p : Nat} (h : Upstream stream irs hi r)
    (hseg : SegOf stream irs p seg) (hnear : p < r.pos + 2 ^ 30) (hold : r.pos < p + 2 ^ 30)
    (hend : p < r.edge → p + seg.tcplen ≤ hi) (hhi : hi < r.pos + 2 ^ 29)
    (hstep : r.step (.segment seg copied) = some r') :
    Upstream stream irs hi r' ∧ r'.edge = r.edge ∧ r.pos ≤ r'.pos := by
  by_cases hfin : r.gotFin = true
  · rw [h.segment_closed hfin] at hstep
    cases hstep
    exact ⟨h, rfl, le_rfl⟩
  · have hopen := Bool.eq_false_iff.mpr hfin
    obtain ⟨⟨pcb, recv⟩, hreceive, rfl⟩ := Option.map_eq_some_iff.mp hstep
    have hpos : r.pos = r.delivered.length := by rw [Receiver.pos, hopen, Bool.toNat_false, Nat.add_zero]
    have hwnd := h.wnd
    have hedge : r.edge = r.delivered.length + r.pcb.rcv_wnd := by rw [Receiver.edge, hpos]
    unfold TCP_WND at hwnd
    have htaken := h.taken
    rw [hopen] at htaken
    obtain ⟨n', hn', htaken', hdata, -, -, hrcv⟩ := tcp_receive_spec htaken hseg (by omega)
      (by omega) hend (by omega) (by omega) h.wnd hreceive
    have hpre : r.delivered ++ recv.data = stream.take n' := by
      rw [← hdata, ← List.prefix_iff_eq_take.mp h.delivered]
    have hlen : (r.delivered ++ recv.data).length = n' := by
      rw [hpre, List.length_take, Nat.min_eq_left htaken'.le]
    have hedge' : (r.take pcb recv).edge = r.edge := by
      rw [Receiver.edge, Receiver.pos, Receiver.take, hopen, Bool.false_or]
      dsimp only
      rw [hlen, htaken'.rcv_wnd]
    have hfin' : (r.take pcb recv).gotFin = recv.gotFin := by rw [Receiver.take, hopen, Bool.false_or]
    refine ⟨⟨?_, ?_, ?_, ?_, ?_⟩, hedge', ?_⟩
    · rw [hfin', hedge']
      have hplace := htaken'.rcv_wnd
      rw [← hlen] at htaken'
      exact ⟨htaken'.le, htaken'.last, htaken'.rcv_nxt, htaken'.rcv_wnd, htaken'.queue⟩
    · rw [Receiver.take, hpre]
      exact List.take_prefix _ _
    · rw [hfin', Receiver.take, hrcv, h.receives, hopen, Bool.not_false, Bool.true_and]
    · have hplace := htaken'.rcv_wnd
      have hbound : pcb.rcv_wnd ≤ TCP_WND := by
        unfold TCP_WND
        omega
      exact hbound
    · intro hheld
      rw [hfin']
      rw [Receiver.take, Bool.or_eq_true] at hheld
      obtain hheld | hgot := hheld
      · exact absurd (h.finHeld hheld) hfin
      · exact hgot
    · rw [hpos, Receiver.pos, Receiver.take]
      dsimp only
      omega

/-- The window changes its size, and nothing else does. -/
theorem resize {pcb : RcvPcb} {credited announced : Nat} {finHeld : Bool}
    (h : Upstream stream irs hi r) (hnxt : pcb.rcv_nxt = r.pcb.rcv_nxt)
    (hooseq : pcb.ooseq = r.pcb.ooseq) (hreceives : pcb.receives = r.pcb.receives)
    (hwnd : pcb.rcv_wnd ≤ TCP_WND) (hheld : finHeld = true → r.finHeld = true) :
    Upstream stream irs hi { r with pcb, credited, announced, finHeld } where
  taken := h.taken.resize hnxt hooseq
  delivered := h.delivered
  receives := hreceives.trans h.receives
  wnd := hwnd
  finHeld hf := h.finHeld (hheld hf)

/-- Every other step. -/
theorem other {a : RcvAct} (h : Upstream stream irs hi r) (hnot : ∀ seg copied, a ≠ .segment seg copied)
    (hlen : ∀ len, a = .recved len → len < 2 ^ 16) (hstep : r.step a = some r') :
    Upstream stream irs hi r' ∧ r.edge ≤ r'.edge ∧ r'.pos = r.pos := by
  have hwnd := h.wnd
  cases a with
  | segment seg copied => exact absurd rfl (hnot seg copied)
  | recved len =>
    obtain ⟨pcb, hrecved, rfl⟩ := Option.map_eq_some_iff.mp hstep
    obtain ⟨hnxt, hsize, hooseq, hreceives⟩ := RcvPcb.tcp_recved_frame hrecved hwnd (hlen len rfl)
    refine ⟨h.resize hnxt hooseq hreceives (by omega) id, ?_, rfl⟩
    rw [Receiver.edge, Receiver.edge, Receiver.pos, Receiver.pos, hsize]
    dsimp only
    omega
  | closed =>
    obtain ⟨hheld, hstep⟩ := Option.ite_none_right_eq_some.mp hstep
    cases hstep
    rw [RcvPcb.finReported_frame _ hwnd]
    refine ⟨h.resize rfl rfl rfl (Nat.min_le_left _ _) (by simp), ?_, rfl⟩
    rw [Receiver.edge, Receiver.edge, Receiver.pos, Receiver.pos]
    dsimp only
    omega
  | freeOoseq =>
    cases hstep
    refine ⟨⟨⟨h.taken.le, fun hf => ⟨(h.taken.last hf).1, rfl⟩, h.taken.rcv_nxt, h.taken.rcv_wnd,
      trivial⟩, h.delivered, h.receives, h.wnd, h.finHeld⟩, le_rfl, rfl⟩
  | announce | parseopt _ =>
    cases hstep
    exact ⟨h.resize rfl rfl rfl h.wnd id, le_rfl, rfl⟩

end Upstream

/-- What a run delivers is a prefix of what the other end sends, whatever is lost, copied
    or reordered on the way. -/
theorem receiver_upstream {mss : Nat} {r : Receiver}
    (h : Reach (receiverMachine irs mss) (FromStream stream irs) r) :
    Upstream stream irs (r.edge + 2 ^ 16) r := by
  apply h.invariant (P := fun r => Upstream stream irs (r.edge + 2 ^ 16) r)
  · exact Upstream.accepted _ _
  · intro r a r' _ hr hok hstep
    have hwnd := hr.wnd
    unfold TCP_WND at hwnd
    have hedge : r.edge = r.pos + r.pcb.rcv_wnd := rfl
    by_cases hseg : ∃ seg copied, a = .segment seg copied
    · obtain ⟨seg, copied, rfl⟩ := hseg
      obtain ⟨p, hp, hnear, hold⟩ := hok
      have hsmall := hp.small
      have hle := seg.tcplen_le_succ
      obtain ⟨hr', hedge', -⟩ := hr.segment hp hnear hold (by omega) (by omega) hstep
      rw [hedge']
      exact hr'
    · push Not at hseg
      obtain ⟨hr', hedge', -⟩ := hr.other hseg (fun len hlen => by subst hlen; exact hok) hstep
      exact hr'.widen (by omega)

theorem Upstream.whole {hi : Nat} {r : Receiver} (h : Upstream stream irs hi r)
    (hfin : r.gotFin = true) : r.delivered = stream :=
  h.delivered.eq_of_length (h.taken.last hfin).1

/-- What the application gets is a prefix of the stream, and with the FIN all of it. The
    segments may come in any order, in part and more than once, within or beyond the window;
    only the stream they are cut from is assumed, within 2^30 bytes. -/
theorem receiver_delivers_prefix {mss : Nat} {r : Receiver}
    (h : Reach (receiverMachine irs mss) (FromStream stream irs) r) :
    r.delivered <+: stream ∧ r.pcb.rcv_nxt = after irs r.pos ∧
      (r.gotFin = true → r.delivered = stream) := by
  have hup := receiver_upstream h
  exact ⟨hup.delivered, hup.taken.rcv_nxt, hup.whole⟩

/-- Three bytes and a FIN, of which the end arrives before the beginning. -/
theorem segOf_late : SegOf [1, 2, 3] 7 1 ⟨8, [2, 3], true⟩ where
  seqno := rfl
  data := by decide
  fin := by decide
  place := by decide
  small := by decide

private theorem segOf_early : SegOf [1, 2, 3] 7 0 ⟨7, [1], false⟩ where
  seqno := rfl
  data := by decide
  fin := by decide
  place := by decide
  small := by decide

/-- The receiver with the end of the stream on its `ooseq`. -/
def lateHeld : Receiver :=
  { Receiver.accepted 7 1460 with
    pcb := { RcvPcb.accepted 7 1460 with ooseq := [⟨8, [2, 3], true⟩] } }

private theorem lateHeld_reach {ok : Receiver → RcvAct → Prop}
    (hok : ok (.accepted 7 1460) (.segment ⟨8, [2, 3], true⟩ true)) :
    Reach (receiverMachine 7 1460) ok lateHeld :=
  have hstep : (Receiver.accepted 7 1460).step (.segment ⟨8, [2, 3], true⟩ true) = some lateHeld :=
    rfl
  Reach.init.step hok hstep

private theorem lateHeld_inWindow : Reach (receiverMachine 7 1460) (InWindow [1, 2, 3] 7) lateHeld := by
  apply lateHeld_reach
  exact ⟨1, segOf_late, by decide, by decide⟩

theorem receiver_delivers_prefix_reordered : ∃ r : Receiver, r.delivered = [1, 2, 3] ∧
    r.gotFin = true ∧ r.delivered <+: [1, 2, 3] ∧ r.pcb.rcv_nxt = after 7 r.pos ∧
      (r.gotFin = true → r.delivered = [1, 2, 3]) := by
  have hlate : FromStream [1, 2, 3] 7 (.accepted 7 1460) (.segment ⟨8, [2, 3], true⟩ true) :=
    ⟨1, segOf_late, by decide, by decide⟩
  have hearly : FromStream [1, 2, 3] 7 lateHeld (.segment ⟨7, [1], false⟩ true) :=
    ⟨0, segOf_early, by decide, by decide⟩
  have hstep : lateHeld.step (.segment ⟨7, [1], false⟩ true) =
      some (lateHeld.take { RcvPcb.accepted 7 1460 with
        rcv_nxt := 11, rcv_wnd := 32764, rcv_ann_wnd := 32764 } ⟨[1, 2, 3], true⟩) := rfl
  exact ⟨_, rfl, rfl, receiver_delivers_prefix ((lateHeld_reach hlate).step hearly hstep)⟩

/-! ### The other end keeps to the window -/

/-- What the window still has open, what the application has not given back and a FIN
    that was not reported make up the whole window. -/
structure Credited (r : Receiver) : Prop where
  le : r.credited ≤ r.delivered.length
  whole : r.pcb.rcv_wnd + (r.delivered.length - r.credited) + r.finHeld.toNat = TCP_WND

theorem Announced.receive {a n : Nat} {pcb : RcvPcb} {receives : Bool} {ooseq : List TcpSeg}
    (h : Announced irs a n pcb) : Announced irs a n { pcb with receives, ooseq } where
  rcv_nxt := h.rcv_nxt
  rightEdge := h.rightEdge
  le := h.le
  kept := h.kept
  ann := h.ann
  wnd := h.wnd

/-- A receiver of which the other end and the application do what is expected of them. -/
structure Windowed (stream : List UInt8) (irs : BitVec 32) (r : Receiver) : Prop where
  upstream : Upstream stream irs r.announced r
  announced : Announced irs r.announced r.pos r.pcb
  credited : Credited r

namespace Windowed

variable {r r' : Receiver}

theorem accepted (mss : Nat) : Windowed stream irs (.accepted irs mss) where
  upstream := .accepted _ _
  announced := accepted_announced irs mss
  credited := ⟨le_rfl, rfl⟩

private theorem segment_ok {seg : TcpSeg} {copied : Bool} (h : Windowed stream irs r)
    (hok : InWindow stream irs r (.segment seg copied)) :
    ∃ r', r.step (.segment seg copied) = some r' ∧ Windowed stream irs r' := by
  obtain ⟨p, hseg, hend, hold⟩ := hok
  have hle := h.announced.le_edge
  have hwnd := h.announced.wnd
  unfold TCP_WND at hwnd
  by_cases hfin : r.gotFin = true
  · exact ⟨r, h.upstream.segment_closed hfin, h⟩
  · have hopen := Bool.eq_false_iff.mpr hfin
    have hpos : r.pos = r.delivered.length := by rw [Receiver.pos, hopen, Bool.toNat_false, Nat.add_zero]
    have htaken := h.upstream.taken
    have hannounced := h.announced
    rw [hopen] at htaken
    rw [hpos] at hannounced
    obtain ⟨pcb, recv, heq, n', hn', hannounced'⟩ :=
      tcp_receive_announced hannounced htaken hseg hend (by omega) copied
    have hstep : r.step (.segment seg copied) = some (r.take pcb recv) := by
      rw [Receiver.step, heq, Option.map_some]
    obtain ⟨hup, hedge, hmono⟩ := h.upstream.segment hseg (by omega) hold (fun _ => hend) (by omega) hstep
    have hedge' : (r.take pcb recv).pos + pcb.rcv_wnd = r.pos + r.pcb.rcv_wnd := hedge
    have hplace : n' = (r.take pcb recv).pos := by
      have hbound := hannounced'.le
      exact hannounced'.at_rcv_nxt hup.taken.rcv_nxt (by omega) (by omega)
    refine ⟨_, hstep, hup, ?_, ?_⟩
    · rw [← hplace]
      exact hannounced'.receive
    · have hcredit := h.credited.whole
      have hcle := h.credited.le
      have hlen : (r.take pcb recv).delivered.length = r.delivered.length + recv.data.length :=
        List.length_append
      have hheld : (r.take pcb recv).finHeld = (r.take pcb recv).gotFin := by
        rw [Receiver.take, hopen]
        have hnone := Bool.eq_false_iff.mpr (fun hf => hfin (h.upstream.finHeld hf))
        rw [hnone]
      have hzero : r.finHeld = false := Bool.eq_false_iff.mpr (fun hf => hfin (h.upstream.finHeld hf))
      have hpos' : (r.take pcb recv).pos =
          (r.take pcb recv).delivered.length + (r.take pcb recv).gotFin.toNat := rfl
      have hkept : (r.take pcb recv).credited = r.credited := rfl
      have hsize : (r.take pcb recv).pcb.rcv_wnd = pcb.rcv_wnd := rfl
      rw [hzero, Bool.toNat_false] at hcredit
      constructor
      · omega
      · rw [hheld, hkept, hsize]
        omega

theorem recved_ok {len : Nat} (h : Windowed stream irs r) (hok : InWindow stream irs r (.recved len)) :
    ∃ r', r.step (.recved len) = some r' ∧ Windowed stream irs r' := by
  obtain ⟨hcredit, hlen⟩ := hok
  obtain ⟨pcb, heq, hannounced⟩ := tcp_recved_announced h.announced hlen
  have hstep : r.step (.recved len) = some { r with pcb, credited := r.credited + len } := by
    rw [Receiver.step, heq, Option.map_some]
  obtain ⟨hup, -, -⟩ := h.upstream.other (by simp) (fun _ hl => by cases hl; exact hlen) hstep
  obtain ⟨-, hsize, -, -⟩ := RcvPcb.tcp_recved_frame heq h.announced.wnd hlen
  have hwhole := h.credited.whole
  have hle := h.credited.le
  refine ⟨_, hstep, hup, hannounced, hcredit, ?_⟩
  dsimp only
  rw [hsize]
  omega

private theorem closed_ok (h : Windowed stream irs r) (hheld : r.finHeld = true) :
    ∃ r', r.step .closed = some r' ∧ Windowed stream irs r' := by
  have hstep : r.step .closed = some { r with pcb := r.pcb.finReported, finHeld := false } := by
    rw [Receiver.step, if_pos hheld]
  obtain ⟨hup, -, -⟩ := h.upstream.other (by simp) (by simp) hstep
  have hwhole := h.credited.whole
  rw [hheld, Bool.toNat_true] at hwhole
  rw [RcvPcb.finReported_frame _ h.announced.wnd, Nat.min_eq_right (by omega)] at hstep hup
  have hann := h.announced.ann
  refine ⟨_, hstep, hup, ⟨h.announced.rcv_nxt, h.announced.rightEdge, h.announced.le,
    h.announced.kept, ?_, ?_⟩, h.credited.le, ?_⟩
  · dsimp only
    omega
  · dsimp only
    omega
  · dsimp only
    rw [Bool.toNat_false]
    omega

private theorem freeOoseq_ok (h : Windowed stream irs r) :
    ∃ r', r.step .freeOoseq = some r' ∧ Windowed stream irs r' := by
  have hstep : r.step .freeOoseq = some { r with pcb := { r.pcb with ooseq := [] } } := rfl
  obtain ⟨hup, -, -⟩ := h.upstream.other (by simp) (by simp) hstep
  exact ⟨_, hstep, hup, h.announced.receive, h.credited.le, h.credited.whole⟩

private theorem announce_ok (h : Windowed stream irs r) :
    ∃ r', r.step .announce = some r' ∧ Windowed stream irs r' := by
  have hstep : r.step .announce = some { r with
      pcb := r.pcb.announce
      announced := max r.announced (r.pos + r.pcb.rcv_ann_wnd) } := rfl
  obtain ⟨hup, -, -⟩ := h.upstream.other (by simp) (by simp) hstep
  exact ⟨_, hstep, hup.widen (Nat.le_max_left _ _), announce_announced h.announced,
    h.credited.le, h.credited.whole⟩

/-- The MSS only says when a larger window is announced. -/
theorem parseopt_ok (h : Windowed stream irs r) (mss : BitVec 16) :
    ∃ r', r.step (.parseopt mss) = some r' ∧ Windowed stream irs r' := by
  have hstep : r.step (.parseopt mss) = some { r with pcb := { r.pcb with mss := optMss mss } } := rfl
  obtain ⟨hup, -, -⟩ := h.upstream.other (by simp) (by simp) hstep
  have hannounced := h.announced
  exact ⟨_, hstep, hup, ⟨hannounced.rcv_nxt, hannounced.rightEdge, hannounced.le, hannounced.kept,
    hannounced.ann, hannounced.wnd⟩, h.credited.le, h.credited.whole⟩

/-- No step fails an assertion, and every one keeps the window. -/
theorem step_ok {a : RcvAct} (h : Windowed stream irs r) (hok : InWindow stream irs r a)
    (hclosed : a = .closed → r.finHeld = true) : ∃ r', r.step a = some r' ∧ Windowed stream irs r' := by
  cases a with
  | segment seg copied => exact h.segment_ok hok
  | recved len => exact h.recved_ok hok
  | closed => exact h.closed_ok (hclosed rfl)
  | freeOoseq => exact h.freeOoseq_ok
  | announce => exact h.announce_ok
  | parseopt mss => exact h.parseopt_ok mss

end Windowed

private theorem receiver_windowed {mss : Nat} {r : Receiver}
    (h : Reach (receiverMachine irs mss) (InWindow stream irs) r) : Windowed stream irs r := by
  apply h.invariant (P := Windowed stream irs)
  · exact .accepted mss
  · intro r a r' _ hr hok hstep
    have hclosed (ha : a = .closed) : r.finHeld = true := by
      subst ha
      exact (Option.ite_none_right_eq_some.mp hstep).1
    obtain ⟨r'', heq, hr''⟩ := hr.step_ok hok hclosed
    cases heq.symm.trans hstep
    exact hr''

/-- No assertion of the receive path fails while the other end keeps to the window that
    was announced and the application gives back only what it got. -/
theorem receiver_never_aborts {mss : Nat} {r : Receiver} {a : RcvAct}
    (h : Reach (receiverMachine irs mss) (InWindow stream irs) r) (hok : InWindow stream irs r a)
    (hclosed : a = .closed → r.finHeld = true) : ∃ r', r.step a = some r' := by
  obtain ⟨r', hstep, -⟩ := (receiver_windowed h).step_ok hok hclosed
  exact ⟨r', hstep⟩

theorem receiver_never_aborts_early :
    ∃ r', lateHeld.step (.segment ⟨7, [1], false⟩ false) = some r' := by
  apply receiver_never_aborts lateHeld_inWindow (a := .segment ⟨7, [1], false⟩ false)
  · exact ⟨0, segOf_early, by decide, by decide⟩
  · simp

/-- While the other end keeps to the window that was announced, no byte of the window is lost:
    what is open, what the application has not given back and an unreported FIN make up the
    whole window. What a header announces never goes back behind what was announced before, nor
    beyond the window. -/
theorem receiver_window {mss : Nat} {r : Receiver}
    (h : Reach (receiverMachine irs mss) (InWindow stream irs) r) :
    r.pcb.rcv_wnd + (r.delivered.length - r.credited) + r.finHeld.toNat = TCP_WND ∧
      r.pcb.rcv_ann_right_edge = after irs r.announced ∧
      r.announced ≤ r.pos + r.pcb.rcv_ann_wnd ∧ r.pcb.rcv_ann_wnd ≤ r.pcb.rcv_wnd := by
  have hr := receiver_windowed h
  exact ⟨hr.credited.whole, hr.announced.rightEdge, hr.announced.kept, hr.announced.ann⟩

theorem receiver_window_late :
    lateHeld.pcb.rcv_wnd + (lateHeld.delivered.length - lateHeld.credited) + lateHeld.finHeld.toNat =
        TCP_WND ∧
      lateHeld.pcb.rcv_ann_right_edge = after 7 lateHeld.announced ∧
      lateHeld.announced ≤ lateHeld.pos + lateHeld.pcb.rcv_ann_wnd ∧
      lateHeld.pcb.rcv_ann_wnd ≤ lateHeld.pcb.rcv_wnd :=
  receiver_window lateHeld_inWindow

/-- While the other end keeps to the window that was announced, a segment with the next byte, or
    the FIN when that is next, is taken to its end, whatever came ahead of it. -/
theorem receiver_progress {mss p : Nat} {r : Receiver} {seg : TcpSeg}
    (h : Reach (receiverMachine irs mss) (InWindow stream irs) r) (hseg : SegOf stream irs p seg)
    (hend : p + seg.tcplen ≤ r.announced) (hp : p ≤ r.pos) (hnext : r.pos < p + seg.tcplen)
    (copied : Bool) :
    ∃ r', r.step (.segment seg copied) = some r' ∧ p + seg.tcplen ≤ r'.pos := by
  have hr := receiver_windowed h
  have hle := hr.announced.le_edge
  have hwnd := hr.announced.wnd
  have hbound := hr.announced.wnd
  unfold TCP_WND at hbound
  have hsmall := hseg.small
  have hlen := seg.tcplen_le_succ
  have hopen : r.gotFin = false := by
    by_contra hfin
    have hfin := Bool.eq_true_of_not_eq_false hfin
    have hlast := (hr.upstream.taken.last hfin).1
    have hstream := hseg.end_le
    rw [Receiver.pos, hfin, Bool.toNat_true] at hnext
    omega
  have hpos : r.pos = r.delivered.length := by rw [Receiver.pos, hopen, Bool.toNat_false, Nat.add_zero]
  have htaken := hr.upstream.taken
  have hrcv := hr.upstream.receives
  rw [hopen] at htaken hrcv
  have hedge : r.edge = r.pos + r.pcb.rcv_wnd := rfl
  obtain ⟨cut, hcut, hfin, hlen, hcutPos, heq⟩ := tcp_receive_next htaken hrcv hseg (by omega)
    (by omega) (by omega) hwnd copied (by omega) (by omega) (by omega)
  have hcutEnd : r.delivered.length + cut.tcplen = p + seg.tcplen := by
    rw [TcpSeg.tcplen, TcpSeg.tcplen, hfin]
    omega
  have hinWindow : InWindow stream irs r (.segment seg copied) := ⟨p, hseg, hend, by omega⟩
  obtain ⟨r', hstep, hr'⟩ := hr.segment_ok hinWindow
  obtain ⟨⟨pcb, recv⟩, hreceive, rfl⟩ := Option.map_eq_some_iff.mp hstep
  rw [heq] at hreceive
  obtain ⟨n', -, -, htaken', hdata, hfar, hgot, -⟩ :=
    receiveNext_spec htaken hcut hcutPos (by omega) (by omega) (by omega) hreceive
  have hdelivered : (r.take pcb recv).delivered.length = n' := by
    have hpre : r.delivered ++ recv.data = stream.take n' := by
      rw [← hdata, ← List.prefix_iff_eq_take.mp hr.upstream.delivered]
    rw [Receiver.take, hpre, List.length_take, Nat.min_eq_left htaken'.le]
  have hgotFin : (r.take pcb recv).gotFin = recv.gotFin := by rw [Receiver.take, hopen, Bool.false_or]
  have hpos' : (r.take pcb recv).pos = n' + recv.gotFin.toNat := by
    rw [Receiver.pos, hdelivered, hgotFin]
  refine ⟨_, hstep, ?_⟩
  rw [hpos']
  by_cases hf : cut.fin = true
  · rw [hgot hf (by omega), Bool.toNat_true]
    have hcutLen := TcpSeg.tcplen_of_fin hf
    omega
  · have hcutLen := TcpSeg.tcplen_of_not_fin (Bool.eq_false_iff.mpr hf)
    omega

theorem receiver_progress_early :
    ∃ r', lateHeld.step (.segment ⟨7, [1], false⟩ false) = some r' ∧ 1 ≤ r'.pos :=
  receiver_progress lateHeld_inWindow segOf_early (by decide) (by decide) (by decide) false

/-! ### The other end does not keep to the window -/

/-- The first segment of an empty `ooseq` is not cut to the window: once the hole before
    it is filled, an assertion fails. -/
theorem receiver_overrun_aborts {mss p : Nat} {r : Receiver} {seg hole : TcpSeg}
    (h : Reach (receiverMachine irs mss) (FromStream stream irs) r) (hempty : r.pcb.ooseq = [])
    (hopen : r.gotFin = false) (hseg : SegOf stream irs p seg) (hp : r.pos < p) (hedge : p < r.edge)
    (hover : r.edge < p + seg.tcplen) (hhole : SegOf stream irs r.pos hole)
    (hfill : r.pos + hole.data.length = p) (hholeFin : hole.fin = false) (copied : Bool) :
    ∃ r', r.step (.segment seg true) = some r' ∧ r'.step (.segment hole copied) = none := by
  have hup := receiver_upstream h
  have hwnd := hup.wnd
  have hbound := hup.wnd
  unfold TCP_WND at hbound
  have hpos : r.pos = r.delivered.length := by rw [Receiver.pos, hopen, Bool.toNat_false, Nat.add_zero]
  have hright : r.edge = r.pos + r.pcb.rcv_wnd := rfl
  have htaken := hup.taken
  have hrcv := hup.receives
  have hlen := seg.tcplen_le_succ
  have hsmall := hseg.small
  rw [hopen, Bool.not_false] at hrcv
  rw [hopen] at htaken
  -- the segment becomes the whole of `ooseq`, uncut
  have hreceive : r.pcb.tcp_receive seg true = some ({ r.pcb with ooseq := [seg] }, ⟨[], false⟩) := by
    rw [tcp_receive_ahead htaken hrcv hseg (by omega) (by omega) (by omega) hwnd true (by omega) hedge,
      if_pos rfl, hempty, enqueueOos, Option.map_some]
  have htaken' : TakenTo stream irs r.edge (p + seg.tcplen) r.delivered.length false
      { r.pcb with ooseq := [seg] } :=
    ⟨htaken.le, by simp, htaken.rcv_nxt, htaken.rcv_wnd, p, by simp only [Bool.toNat_false]; omega,
      le_rfl, by omega, hseg, fun _ => rfl, trivial⟩
  have hholeLen := TcpSeg.tcplen_of_not_fin hholeFin
  have hholeSmall := hhole.small
  obtain ⟨cut, hcut, hcutFin, hcutLen, hcutPos, heq⟩ := tcp_receive_next htaken' hrcv hhole (by omega)
    (by omega) (by omega) hwnd copied (by omega) (by omega) (by omega)
  rw [hholeFin] at hcutFin
  have hcutTcp := TcpSeg.tcplen_of_not_fin hcutFin
  refine ⟨_, by rw [Receiver.step, hreceive, Option.map_some], ?_⟩
  have hstate : (r.take { r.pcb with ooseq := [seg] } ⟨[], false⟩).pcb = { r.pcb with ooseq := [seg] } := by
    rw [Receiver.take, Bool.not_false, Bool.and_true]
  rw [Receiver.step, hstate, heq, Option.map_eq_none_iff, RcvPcb.receiveNext]
  have hfit : cut.fitWindow r.pcb.rcv_nxt r.pcb.rcv_wnd = some cut := by
    rw [TcpSeg.fitWindow, if_neg (by omega)]
  have hadjust : ({ r.pcb with ooseq := [seg] } : RcvPcb).adjustOoseq cut = some (cut, [seg]) := by
    have hends := hcut.ends_eq
    have hcover : ¬TCP_SEQ_GEQ cut.ends (seg.seqno + seg.len) := by
      rw [TCP_SEQ_GEQ, hends, hseg.behind, dist_after irs (by omega) (by omega)]
      omega
    have hoverlap : ¬TCP_SEQ_GT cut.ends seg.seqno := by
      rw [TCP_SEQ_GT, hends, hseg.seqno, dist_after irs (by omega) (by omega)]
      omega
    rw [RcvPcb.adjustOoseq, if_neg (by simp [hcutFin]), TcpSeg.dropCovered, if_neg hcover]
    dsimp only
    rw [if_neg hoverlap]
  rw [hfit, Option.bind_eq_bind, Option.bind_some, hadjust, Option.bind_eq_bind, Option.bind_some]
  dsimp only
  rw [Option.bind_eq_bind, Option.bind_eq_none_iff]
  intro mid hmid
  obtain ⟨hfits, ann, rfl⟩ := RcvPcb.advance_eq_some hmid
  have hplace : r.pcb.rcv_nxt + BitVec.ofNat 32 cut.tcplen = seg.seqno := by
    rw [htaken.rcv_nxt, after_add, hseg.seqno, Bool.toNat_false]
    congr 1
    omega
  have hfail : ¬seg.tcplen ≤ r.pcb.rcv_wnd - cut.tcplen := by omega
  rw [RcvPcb.dequeue, if_pos hplace.symm, RcvPcb.advance, LWIP_ASSERT, if_neg hfail]
  rfl

/-- A part of a stream of zeros. -/
theorem segOf_replicate {len p n : Nat} (hn : p + n ≤ len) (hsmall : n + 20 < 2 ^ 16) :
    SegOf (List.replicate len 0) irs p ⟨after irs p, List.replicate n 0, false⟩ where
  seqno := rfl
  data := by
    rw [List.drop_replicate]
    refine ⟨List.replicate (len - p - n) 0, ?_⟩
    rw [List.replicate_append_replicate]
    congr 1
    omega
  fin := by simp
  place := by
    rw [List.length_replicate]
    omega
  small := by
    rw [List.length_replicate]
    exact hsmall

/-- Three bytes of which the last two are beyond the window. -/
theorem receiver_overrun_aborts_three : ∃ r',
    (Receiver.accepted 7 1460).step (.segment ⟨after 7 32767, List.replicate 3 0, false⟩ true) =
        some r' ∧
      r'.step (.segment ⟨after 7 0, List.replicate 32767 0, false⟩ true) = none := by
  have hlen : (List.replicate 32767 (0 : UInt8)).length = 32767 := List.length_replicate
  have hthree : TcpSeg.tcplen ⟨after 7 32767, List.replicate 3 0, false⟩ = 3 := rfl
  have hedge : (Receiver.accepted 7 1460).edge = 32768 := rfl
  have hpos : (Receiver.accepted 7 1460).pos = 0 := rfl
  have hseg : SegOf (List.replicate 32770 0) 7 32767
      ⟨after 7 32767, List.replicate 3 0, false⟩ := segOf_replicate (by omega) (by omega)
  have hreach : Reach (receiverMachine 7 1460) (FromStream (List.replicate 32770 0) 7)
      (.accepted 7 1460) := Reach.init
  apply receiver_overrun_aborts hreach
  · rfl
  · rfl
  · exact hseg
  · omega
  · omega
  · omega
  · rw [hpos]
    exact segOf_replicate (by omega) (by omega)
  · rw [hpos, hlen]
  · rfl

end

end tun2proxy.core
