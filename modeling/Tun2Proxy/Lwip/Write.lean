import Tun2Proxy.Lwip.Receive
import Tun2Proxy.Lwip.SndSeg
import Tun2Proxy.Tcp.State

namespace tun2proxy.core

/-- `TCP_SND_BUF`. -/
def TCP_SND_BUF : Nat := TCP_WND

/-- `TCP_SND_QUEUELEN`. -/
def TCP_SND_QUEUELEN : Nat := (4 * TCP_SND_BUF + (TCP_MSS - 1)) / TCP_MSS

/-- `TCP_OVERSIZE`. -/
def TCP_OVERSIZE : Nat := TCP_MSS

/-- The part of a `struct tcp_pcb` from which a connection sends. -/
structure SndPcb where
  -- the state is ESTABLISHED or CLOSE_WAIT
  canSend : Bool
  mss : Nat
  -- `tcp_parseopt` sets nothing else
  mss_pos : 0 < mss
  mss_le : mss ≤ TCP_MSS
  nodelay : Bool
  nagleMemErr : Bool
  -- `TF_FIN`
  fin : Bool
  infr : Bool
  -- `TF_RTO`
  inRto : Bool
  ackNow : Bool
  snd_nxt : BitVec 32
  lastack : BitVec 32
  snd_lbb : BitVec 32
  snd_wl1 : BitVec 32
  snd_wl2 : BitVec 32
  snd_wnd : Nat
  snd_wnd_max : Nat
  snd_buf : Nat
  snd_queuelen : Nat
  unsent_oversize : Nat
  unsent : List SndSeg
  unacked : List SndSeg
  cwnd : Nat
  ssthresh : Nat
  bytes_acked : Nat
  dupacks : Nat
  nrtx : Nat
  rtime : Int
  rto_end : BitVec 32
  persist_cnt : Nat
  persist_backoff : Nat
  persist_probe : Nat
  deriving DecidableEq, Repr

namespace SndPcb

/-- `mss_local`: half the largest window that the other end announced, if that is less. -/
def mss_local (pcb : SndPcb) : Nat :=
  let mss_local := min pcb.mss (pcb.snd_wnd_max / 2)
  if mss_local ≠ 0 then mss_local else pcb.mss

/-- Pbufs are queued only with segments. -/
def ValidQueuelen (pcb : SndPcb) : Prop :=
  pcb.snd_queuelen ≠ 0 → pcb.unacked ≠ [] ∨ pcb.unsent ≠ []

instance (pcb : SndPcb) : Decidable pcb.ValidQueuelen := inferInstanceAs (Decidable (_ → _))

def tcp_write_checks (pcb : SndPcb) (len : Nat) : Option (SndPcb × ErrT) :=
  if pcb.canSend = false then some (pcb, .ERR_CONN)
  else if len = 0 then some (pcb, .ERR_OK)
  else if pcb.snd_buf < len then some ({ pcb with nagleMemErr := true }, .ERR_MEM)
  else if TCP_SND_QUEUELEN ≤ pcb.snd_queuelen then some ({ pcb with nagleMemErr := true }, .ERR_MEM)
  else do
    LWIP_ASSERT pcb.ValidQueuelen
    LWIP_ASSERT (pcb.snd_queuelen = 0 → pcb.unacked = [] ∧ pcb.unsent = [])
    return (pcb, .ERR_OK)

/-- The `oversize` of `tcp_pbuf_prealloc`. `more` is `TCP_WRITE_FLAG_MORE`. -/
def tcp_pbuf_prealloc (pcb : SndPcb) (length max_length : Nat) (more first_seg : Bool) : Nat :=
  let alloc :=
    if length < max_length ∧ (more = true ∨ pcb.nodelay = false ∧
        (first_seg = false ∨ pcb.unsent ≠ [] ∨ pcb.unacked ≠ [])) then
      min max_length (length + TCP_OVERSIZE)
    else length
  alloc - length

/-- The variables of `tcp_write` behind its second phase: `concat` is the data in `concat_p`,
    `mem` the number of allocations that still succeed. -/
structure Filled where
  oversize_used : Nat
  concat : List UInt8
  oversize : Nat
  queuelen : Nat
  mem : Nat

/-- The free bytes of `concat_p`. -/
def Filled.oversize_add (filled : Filled) : Nat := if filled.concat = [] then 0 else filled.oversize

/-- The first two phases of `tcp_write` with `TCP_WRITE_FLAG_COPY`. The inner `none` is
    `memerr`. -/
def fillTail (pcb : SndPcb) (data : List UInt8) (more : Bool) (mem : Nat) : Option (Option Filled) :=
  match pcb.unsent.getLast? with
  | none => do
    LWIP_ASSERT (pcb.unsent_oversize = 0)
    return some ⟨0, [], 0, pcb.snd_queuelen, mem⟩
  | some last => do
    LWIP_ASSERT (last.len ≤ pcb.mss_local)
    LWIP_ASSERT (pcb.unsent_oversize = last.oversize_left)
    let space := pcb.mss_local - last.len
    LWIP_ASSERT (pcb.unsent_oversize ≤ space)
    let oversize_used := min space (min pcb.unsent_oversize data.length)
    let oversize := pcb.unsent_oversize - oversize_used
    let space := space - oversize_used
    LWIP_ASSERT (oversize = 0 ∨ oversize_used = data.length)
    let left := data.drop oversize_used
    if left ≠ [] ∧ 0 < space ∧ 0 < last.len then
      let seglen := min space left.length
      if mem = 0 then return none
      else return some ⟨oversize_used, left.take seglen,
        pcb.tcp_pbuf_prealloc seglen space more true, pcb.snd_queuelen + 1, mem - 1⟩
    else return some ⟨oversize_used, [], oversize, pcb.snd_queuelen, mem⟩

/-- The `queue` of the third phase, with `oversize` and `queuelen` behind it. -/
structure Queued where
  queue : List SndSeg
  oversize : Nat
  queuelen : Nat

/-- A segment of the third phase, from `tcp_create_segment`. -/
def newSeg (seqno : BitVec 32) (data : List UInt8) (oversize : Nat) : SndSeg :=
  { seqno
    p := [data]
    fin := false
    psh := false
    sum := TCP_DATA_COPY2 data ⟨0, false⟩
    checksummed := true
    room := oversize
    oversize_left := oversize }

/-- The third phase, for the `data` that is left. `none` is `memerr`. Every round takes a byte
    at least, so `fuel` is their number. -/
def newSegs (pcb : SndPcb) (more : Bool) :
    Nat → List UInt8 → BitVec 32 → Bool → Nat → Nat → Nat → Option Queued
  | 0, _, _, _, oversize, queuelen, _ => some ⟨[], oversize, queuelen⟩
  | fuel + 1, data, seqno, first, oversize, queuelen, mem =>
    if data = [] then some ⟨[], oversize, queuelen⟩
    else
      let seglen := min data.length pcb.mss_local
      let oversize := pcb.tcp_pbuf_prealloc seglen pcb.mss_local more first
      -- a pbuf and a `tcp_seg`
      if mem < 2 ∨ TCP_SND_QUEUELEN < queuelen + 1 then none
      else do
        let rest ← newSegs pcb more fuel (data.drop seglen) (seqno + BitVec.ofNat 32 seglen) false
          oversize (queuelen + 1) (mem - 2)
        return { rest with queue := newSeg seqno (data.take seglen) oversize :: rest.queue }

/-- `memerr`. -/
def writeFailed (pcb : SndPcb) : Option (SndPcb × ErrT) := do
  LWIP_ASSERT pcb.ValidQueuelen
  return ({ pcb with nagleMemErr := true }, .ERR_MEM)

end SndPcb

/-- The last pbuf of a chain is made longer. -/
def appendLast : List (List UInt8) → List UInt8 → List (List UInt8)
  | [], _ => []
  | [q], data => [q ++ data]
  | q :: next, data => q :: appendLast next data

namespace SndSeg

/-- The first phase on `last_unsent`. `none` is a copy beyond its last pbuf. -/
def copyDirect (seg : SndSeg) (data : List UInt8) : Option SndSeg :=
  if data = [] then some seg
  else if data.length ≤ seg.room then do
    LWIP_ASSERT (data.length ≤ seg.oversize_left)
    return { seg with
      p := appendLast seg.p data
      sum := TCP_DATA_COPY2 data seg.sum
      checksummed := true
      room := seg.room - data.length
      oversize_left := seg.oversize_left - data.length }
  else none

/-- The second phase on `last_unsent`, with the sum that was made over `concat_p`. -/
def concatTail (seg : SndSeg) (concat : List UInt8) (oversize : Nat) : SndSeg :=
  if concat = [] then seg
  else
    { seg with
      p := seg.p ++ [concat]
      sum := tcp_seg_add_chksum (TCP_DATA_COPY2 concat ⟨0, false⟩).unswapped concat.length seg.sum
      checksummed := true
      room := oversize }

end SndSeg

/-- PSH on the last segment. -/
def pushLast : List SndSeg → List SndSeg
  | [] => []
  | [seg] => [{ seg with psh := true }]
  | seg :: rest => seg :: pushLast rest

namespace SndPcb

/-- The `unsent` queue that `tcp_write` leaves. -/
def newUnsent (pcb : SndPcb) (data : List UInt8) (more : Bool) (filled : Filled)
    (queue : List SndSeg) : Option (List SndSeg) :=
  match pcb.unsent.getLast? with
  | none => some (if more = true then queue else pushLast queue)
  | some last => do
    let seg := { last with oversize_left := last.oversize_left + filled.oversize_add }
    let seg ← seg.copyDirect (data.take filled.oversize_used)
    let seg := seg.concatTail filled.concat filled.oversize
    let touched := 0 < pcb.unsent_oversize ∨ filled.concat ≠ [] ∨ queue ≠ []
    return pcb.unsent.dropLast ++
      if more = false ∧ touched then pushLast (seg :: queue) else seg :: queue

/-- The end of `tcp_write`, when nothing can fail any more. -/
def commit (pcb : SndPcb) (data : List UInt8) (more : Bool) (filled : Filled) (queued : Queued) :
    Option (SndPcb × ErrT) := do
  let unsent ← pcb.newUnsent data more filled queued.queue
  let pcb := { pcb with
    unsent
    unsent_oversize := queued.oversize
    snd_lbb := pcb.snd_lbb + BitVec.ofNat 32 data.length
    snd_buf := pcb.snd_buf - data.length
    snd_queuelen := queued.queuelen }
  LWIP_ASSERT pcb.ValidQueuelen
  return (pcb, .ERR_OK)

/-- `tcp_write` with `TCP_WRITE_FLAG_COPY`. The first `mem` allocations succeed. -/
def tcp_write (pcb : SndPcb) (data : List UInt8) (more : Bool) (mem : Nat) :
    Option (SndPcb × ErrT) := do
  let (checked, err) ← pcb.tcp_write_checks data.length
  if err ≠ .ERR_OK then return (checked, err)
  else
    match ← pcb.fillTail data more mem with
    | none => pcb.writeFailed
    | some filled =>
      let pos := filled.oversize_used + filled.concat.length
      match pcb.newSegs more data.length (data.drop pos) (pcb.snd_lbb + BitVec.ofNat 32 pos) true
        filled.oversize filled.queuelen filled.mem with
      | none => pcb.writeFailed
      | some queued => pcb.commit data more filled queued

end SndPcb

end tun2proxy.core
