import Mathlib.Data.List.Basic
import Tun2Proxy.Lib.Circular

open tun2proxy.circular

namespace tun2proxy.core

/-- `LWIP_ASSERT`, which ends the process when it fails. -/
def LWIP_ASSERT (p : Prop) [Decidable p] : Option Unit := if p then some () else none

theorem LWIP_ASSERT_eq_some {p : Prop} [Decidable p] {u : Unit} :
    LWIP_ASSERT p = some u ↔ p := by
  simp [LWIP_ASSERT]

@[simp] theorem LWIP_ASSERT_of {p : Prop} [Decidable p] (h : p) : LWIP_ASSERT p = some () := if_pos h

def TCP_SEQ_LT (a b : BitVec 32) : Prop := dist a b < 0

def TCP_SEQ_LEQ (a b : BitVec 32) : Prop := dist a b ≤ 0

def TCP_SEQ_GT (a b : BitVec 32) : Prop := 0 < dist a b

def TCP_SEQ_GEQ (a b : BitVec 32) : Prop := 0 ≤ dist a b

def TCP_SEQ_BETWEEN (a b c : BitVec 32) : Prop := TCP_SEQ_GEQ a b ∧ TCP_SEQ_LEQ a c

instance (a b : BitVec 32) : Decidable (TCP_SEQ_LT a b) := inferInstanceAs (Decidable (_ < _))

instance (a b : BitVec 32) : Decidable (TCP_SEQ_LEQ a b) := inferInstanceAs (Decidable (_ ≤ _))

instance (a b : BitVec 32) : Decidable (TCP_SEQ_GT a b) := inferInstanceAs (Decidable (_ < _))

instance (a b : BitVec 32) : Decidable (TCP_SEQ_GEQ a b) := inferInstanceAs (Decidable (_ ≤ _))

instance (a b c : BitVec 32) : Decidable (TCP_SEQ_BETWEEN a b c) :=
  inferInstanceAs (Decidable (_ ∧ _))

/-- `struct tcp_seg` of a received segment: the sequence number of its header, in
    host byte order, the `len` bytes of its pbuf and its FIN flag. -/
structure TcpSeg where
  seqno : BitVec 32
  data : List UInt8
  fin : Bool
  deriving DecidableEq, Repr

namespace TcpSeg

def len (seg : TcpSeg) : BitVec 32 := BitVec.ofNat 32 seg.data.length

/-- `TCP_TCPLEN`. -/
def tcplen (seg : TcpSeg) : Nat := seg.data.length + if seg.fin then 1 else 0

/-- The sequence number behind the segment, with its FIN. -/
def ends (seg : TcpSeg) : BitVec 32 := seg.seqno + BitVec.ofNat 32 seg.tcplen

/-- The end of a segment is cut off where `edge` begins. -/
def trimTo (seg : TcpSeg) (edge : BitVec 32) : TcpSeg :=
  { seg with data := seg.data.take ((edge - seg.seqno).toNat % 2 ^ 16) }

/-- The first edge of a segment that begins before `rcv_nxt` is cut off. -/
def trimFront (seg : TcpSeg) (rcv_nxt : BitVec 32) : Option TcpSeg := do
  let off := (rcv_nxt - seg.seqno).toNat
  LWIP_ASSERT (off < 0xffff)
  LWIP_ASSERT (off ≤ seg.data.length)
  return { seg with seqno := rcv_nxt, data := seg.data.drop off }

/-- A segment that the other end has sent beyond the window is cut to it; the FIN
    is lost with its end. -/
def fitWindow (seg : TcpSeg) (rcv_nxt : BitVec 32) (rcv_wnd : Nat) : Option TcpSeg :=
  if rcv_wnd < seg.tcplen then do
    let cut := { seg with data := seg.data.take rcv_wnd, fin := false }
    LWIP_ASSERT (cut.ends = rcv_nxt + BitVec.ofNat 32 rcv_wnd)
    return cut
  else some seg

/-- The loops that drop the segments of `ooseq` that `seg` covers; a FIN among them
    moves to `seg`. -/
def dropCovered (reach : TcpSeg → BitVec 32) (seg : TcpSeg) : List TcpSeg → TcpSeg × List TcpSeg
  | [] => (seg, [])
  | next :: rest =>
    if TCP_SEQ_GEQ (reach seg) (next.seqno + next.len) then
      dropCovered reach { seg with fin := seg.fin || next.fin } rest
    else (seg, next :: rest)

end TcpSeg

/-- `tcp_oos_insert_segment`. -/
def tcp_oos_insert_segment (cseg : TcpSeg) (next : List TcpSeg) : List TcpSeg :=
  if cseg.fin then [cseg]
  else
    match cseg.dropCovered (fun seg => seg.seqno + seg.len) next with
    | (cseg, []) => [cseg]
    | (cseg, next :: rest) =>
      if TCP_SEQ_GT (cseg.seqno + cseg.len) next.seqno then cseg.trimTo next.seqno :: next :: rest
      else cseg :: next :: rest

/-- A segment that goes to the end of `ooseq` is cut to the window. -/
def TcpSeg.fitEdge (seg : TcpSeg) (edge : BitVec 32) : Option TcpSeg :=
  if TCP_SEQ_GT seg.ends edge then do
    let cut := { seg with data := seg.data.take ((edge - seg.seqno).toNat % 2 ^ 16), fin := false }
    LWIP_ASSERT (cut.ends = edge)
    return cut
  else some seg

/-- The walk through `ooseq` behind `prev`, for a segment that is not before it.
    `edge` is the right edge of the window. -/
def insertBehind (edge : BitVec 32) (cseg prev : TcpSeg) : List TcpSeg → Option (List TcpSeg)
  | [] =>
    if TCP_SEQ_GT cseg.seqno prev.seqno ∧ prev.fin = false then do
      let last ← cseg.fitEdge edge
      if TCP_SEQ_GT (prev.seqno + prev.len) cseg.seqno then return [prev.trimTo cseg.seqno, last]
      else return [prev, last]
    else some [prev]
  | next :: rest =>
    if cseg.seqno = next.seqno then
      if next.data.length < cseg.data.length then
        some (prev :: tcp_oos_insert_segment cseg (next :: rest))
      else some (prev :: next :: rest)
    else if TCP_SEQ_BETWEEN cseg.seqno (prev.seqno + 1) (next.seqno - 1) then
      if TCP_SEQ_GT (prev.seqno + prev.len) cseg.seqno then
        some (prev.trimTo cseg.seqno :: tcp_oos_insert_segment cseg (next :: rest))
      else some (prev :: tcp_oos_insert_segment cseg (next :: rest))
    else do
      let rest ← insertBehind edge cseg next rest
      return prev :: rest

/-- An out-of-sequence segment is put on `ooseq`. -/
def enqueueOos (edge : BitVec 32) (cseg : TcpSeg) : List TcpSeg → Option (List TcpSeg)
  | [] => some [cseg]
  | next :: rest =>
    if cseg.seqno = next.seqno then
      if next.data.length < cseg.data.length then
        some (tcp_oos_insert_segment cseg (next :: rest))
      else some (next :: rest)
    else if TCP_SEQ_LT cseg.seqno next.seqno then
      some (tcp_oos_insert_segment cseg (next :: rest))
    else insertBehind edge cseg next rest

/-- `TCP_WND`. -/
def TCP_WND : Nat := 32 * 1024

/-- `TCP_MSS`. -/
def TCP_MSS : Nat := 1460

/-- What `tcp_parseopt` takes from an MSS option. -/
def optMss (mss : BitVec 16) : Nat := if TCP_MSS < mss.toNat ∨ mss = 0 then TCP_MSS else mss.toNat

theorem optMss_pos (mss : BitVec 16) : 0 < optMss mss := by
  rw [optMss]
  split
  · decide
  · rename_i hmss
    rw [not_or] at hmss
    exact Nat.pos_of_ne_zero fun hzero => hmss.2 (BitVec.eq_of_toNat_eq hzero)

theorem optMss_le (mss : BitVec 16) : optMss mss ≤ TCP_MSS := by
  rw [optMss]
  split <;> omega

/-- The part of `struct tcp_pcb` that receives. `receives` says that the state is below
    `CLOSE_WAIT`. -/
structure RcvPcb where
  rcv_nxt : BitVec 32
  rcv_wnd : Nat
  rcv_ann_wnd : Nat
  rcv_ann_right_edge : BitVec 32
  mss : Nat
  ooseq : List TcpSeg
  receives : Bool
  deriving DecidableEq, Repr

/-- `recv_data` and `TF_GOT_FIN` after `tcp_receive`. -/
structure RecvData where
  data : List UInt8
  gotFin : Bool
  deriving DecidableEq, Repr

namespace RcvPcb

/-- A pcb when its connection is accepted: the SYN|ACK has announced the window. -/
def accepted (rcv_nxt : BitVec 32) (mss : Nat) : RcvPcb :=
  { rcv_nxt
    rcv_wnd := TCP_WND
    rcv_ann_wnd := TCP_WND
    rcv_ann_right_edge := rcv_nxt + BitVec.ofNat 32 TCP_WND
    mss
    ooseq := []
    receives := true }

/-- The right edge of the window. -/
def rightEdge (pcb : RcvPcb) : BitVec 32 := pcb.rcv_nxt + BitVec.ofNat 32 pcb.rcv_wnd

/-- `tcp_update_rcv_ann_wnd`. -/
def tcp_update_rcv_ann_wnd (pcb : RcvPcb) : Option RcvPcb :=
  if TCP_SEQ_GEQ pcb.rightEdge (pcb.rcv_ann_right_edge + BitVec.ofNat 32 (min (TCP_WND / 2) pcb.mss)) then
    some { pcb with rcv_ann_wnd := pcb.rcv_wnd }
  else if TCP_SEQ_GT pcb.rcv_nxt pcb.rcv_ann_right_edge then some { pcb with rcv_ann_wnd := 0 }
  else do
    let new_rcv_ann_wnd := (pcb.rcv_ann_right_edge - pcb.rcv_nxt).toNat
    LWIP_ASSERT (new_rcv_ann_wnd ≤ 0xffff)
    return { pcb with rcv_ann_wnd := new_rcv_ann_wnd }

/-- `rcv_nxt` and the window move over a segment that is next in sequence. -/
def advance (pcb : RcvPcb) (seg : TcpSeg) : Option RcvPcb := do
  LWIP_ASSERT (seg.tcplen ≤ pcb.rcv_wnd)
  { pcb with
    rcv_nxt := pcb.rcv_nxt + BitVec.ofNat 32 seg.tcplen
    rcv_wnd := pcb.rcv_wnd - seg.tcplen }.tcp_update_rcv_ann_wnd

/-- The loop over the segments of `ooseq` that are in sequence now. -/
def dequeue (pcb : RcvPcb) (recv : RecvData) : List TcpSeg → Option (RcvPcb × RecvData)
  | [] => some ({ pcb with ooseq := [] }, recv)
  | cseg :: rest =>
    if cseg.seqno = pcb.rcv_nxt then do
      let pcb ← pcb.advance cseg
      pcb.dequeue ⟨recv.data ++ cseg.data, recv.gotFin || cseg.fin⟩ rest
    else some ({ pcb with ooseq := cseg :: rest }, recv)

/-- What `ooseq` already has of a segment that is next in sequence is cut off one of
    the two. -/
def adjustOoseq (pcb : RcvPcb) (inseg : TcpSeg) : Option (TcpSeg × List TcpSeg) :=
  if inseg.fin then some (inseg, [])
  else
    match inseg.dropCovered TcpSeg.ends pcb.ooseq with
    | (inseg, []) => some (inseg, [])
    | (inseg, next :: rest) =>
      if TCP_SEQ_GT inseg.ends next.seqno then do
        let cut := inseg.trimTo next.seqno
        LWIP_ASSERT (cut.ends = next.seqno)
        return (cut, next :: rest)
      else some (inseg, next :: rest)

/-- The segment is next in sequence. -/
def receiveNext (pcb : RcvPcb) (inseg : TcpSeg) : Option (RcvPcb × RecvData) := do
  let inseg ← inseg.fitWindow pcb.rcv_nxt pcb.rcv_wnd
  let (inseg, ooseq) ← pcb.adjustOoseq inseg
  let pcb ← pcb.advance inseg
  pcb.dequeue ⟨inseg.data, inseg.fin⟩ ooseq

/-- The first edge is cut off if the segment begins before `rcv_nxt` and ends behind it. -/
def firstEdge (pcb : RcvPcb) (inseg : TcpSeg) : Option TcpSeg :=
  if TCP_SEQ_BETWEEN pcb.rcv_nxt (inseg.seqno + 1) (inseg.ends - 1) then inseg.trimFront pcb.rcv_nxt
  else some inseg

/-- `tcp_receive` for the data and the FIN of a segment without SYN; `copied` says
    whether `tcp_seg_copy` gets its memory. -/
def tcp_receive (pcb : RcvPcb) (inseg : TcpSeg) (copied : Bool) : Option (RcvPcb × RecvData) :=
  if 0 < inseg.tcplen ∧ pcb.receives = true then
    (pcb.firstEdge inseg).bind fun inseg =>
      if TCP_SEQ_BETWEEN inseg.seqno pcb.rcv_nxt (pcb.rightEdge - 1) then
        if pcb.rcv_nxt = inseg.seqno then pcb.receiveNext inseg
        else if copied then
          (enqueueOos pcb.rightEdge inseg pcb.ooseq).map fun ooseq => ({ pcb with ooseq }, ⟨[], false⟩)
        else some (pcb, ⟨[], false⟩)
      else some (pcb, ⟨[], false⟩)
  else some (pcb, ⟨[], false⟩)

/-- `tcp_recved`. -/
def tcp_recved (pcb : RcvPcb) (len : Nat) : Option RcvPcb :=
  let rcv_wnd := (pcb.rcv_wnd + len) % 2 ^ 16
  { pcb with
    rcv_wnd := if TCP_WND < rcv_wnd ∨ rcv_wnd < pcb.rcv_wnd then TCP_WND else rcv_wnd }.tcp_update_rcv_ann_wnd

/-- A segment goes out, with `rcv_ann_wnd` in its header. -/
def announce (pcb : RcvPcb) : RcvPcb :=
  { pcb with rcv_ann_right_edge := pcb.rcv_nxt + BitVec.ofNat 32 pcb.rcv_ann_wnd }

end RcvPcb

end tun2proxy.core
