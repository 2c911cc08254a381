import Tun2Proxy.Lwip.Enqueue

open tun2proxy.circular tun2proxy.split

namespace tun2proxy.core

/-- What the header of a segment takes from the receiving half of the pcb. -/
structure RcvHeader where
  rcv_nxt : BitVec 32
  rcv_ann_wnd : BitVec 16

/-- The answers of what lies below TCP: whether there is a route, how many segments
    `ip_output_if` takes before it fails, and whether an empty ACK goes out. -/
structure Netif where
  route : Bool
  room : Nat
  ackSent : Bool

namespace SndPcb

def tcp_do_output_nagle (pcb : SndPcb) : Bool :=
  pcb.unacked = [] || pcb.nodelay || pcb.infr ||
    (match pcb.unsent with
      | [] => false
      | seg :: next => next ≠ [] || pcb.mss ≤ seg.len) ||
    pcb.snd_buf = 0 || TCP_SND_QUEUELEN ≤ pcb.snd_queuelen

/-- How far the segment reaches beyond `lastack`, its FIN left out. -/
def reach (pcb : SndPcb) (seg : SndSeg) : Nat :=
  (seg.seqno - pcb.lastack + BitVec.ofNat 32 seg.len).toNat

/-- A sent segment goes to its place on `unacked`. -/
def enqueueUnacked (unacked : List SndSeg) (seg : SndSeg) : List SndSeg :=
  match unacked.getLast? with
  | none => [seg]
  | some useg =>
    if Tiles.before seg useg then insertSorted Tiles.before seg unacked else unacked ++ [seg]

/-- The retransmission timer runs from now on. -/
def startTimer (pcb : SndPcb) : SndPcb := { pcb with rtime := if pcb.rtime < 0 then 0 else pcb.rtime }

/-- The first segment of `unsent` has gone out. -/
def sent (pcb : SndPcb) (seg : SndSeg) (next : List SndSeg) : SndPcb :=
  { pcb with
    unsent := next
    ackNow := false
    snd_nxt := if TCP_SEQ_LT pcb.snd_nxt seg.ends then seg.ends else pcb.snd_nxt
    unacked := if 0 < seg.tcplen then enqueueUnacked pcb.unacked seg.spent else pcb.unacked }

/-- The loop of `tcp_output` over `unsent`. -/
def outputLoop (ends : Endpoints) (rcv : RcvHeader) (wnd : Nat) :
    List SndSeg → SndPcb → Nat → Option (SndPcb × List WireSeg × ErrT)
  | [], pcb, _ => some (pcb, [], .ERR_OK)
  | seg :: next, pcb, room =>
    if pcb.reach seg ≤ wnd ∧
        (pcb.tcp_do_output_nagle = true ∨ pcb.nagleMemErr = true ∨ pcb.fin = true) then do
      let w ← tcp_output_segment seg ends rcv.rcv_nxt rcv.rcv_ann_wnd
      if room = 0 then return ({ pcb.startTimer with nagleMemErr := true }, [], .ERR_BUF)
      else
        let (pcb, out, err) ← outputLoop ends rcv wnd next (pcb.startTimer.sent seg next) (room - 1)
        return (pcb, w :: out, err)
    else some (pcb, [], .ERR_OK)

/-- The last unsent segment is gone, and the room behind it. -/
def resetOversize (pcb : SndPcb) : SndPcb :=
  { pcb with unsent_oversize := if pcb.unsent = [] then 0 else pcb.unsent_oversize }

/-- `output_done`. -/
def outputDone (pcb : SndPcb) : SndPcb := { pcb with nagleMemErr := false }

/-- The persist timer runs when the window is too small and nothing is in flight. -/
def startPersist (pcb : SndPcb) (wnd : Nat) : SndPcb :=
  if wnd = pcb.snd_wnd ∧ pcb.unacked = [] ∧ pcb.persist_backoff = 0 then
    { pcb with persist_cnt := 0, persist_backoff := 1, persist_probe := 0 }
  else pcb

def stopPersist (pcb : SndPcb) : SndPcb := { pcb with persist_backoff := 0 }

/-- The ends of `tcp_output` when there is nothing to send. -/
def outputIdle (pcb : SndPcb) (net : Netif) : SndPcb × List WireSeg × ErrT :=
  if pcb.ackNow = true then
    -- `tcp_send_empty_ack`
    if net.ackSent = true then ({ pcb with ackNow := false }, [], .ERR_OK) else (pcb, [], .ERR_BUF)
  else (pcb.outputDone, [], .ERR_OK)

/-- `tcp_output`, with the segments that carry data or a FIN. -/
def tcp_output (pcb : SndPcb) (ends : Endpoints) (rcv : RcvHeader) (net : Netif) :
    Option (SndPcb × List WireSeg × ErrT) :=
  let wnd := min pcb.snd_wnd pcb.cwnd
  match pcb.unsent with
  | [] => some (pcb.outputIdle net)
  | seg :: next =>
    if net.route = false then some (pcb, [], .ERR_RTE)
    else if wnd < pcb.reach seg then some ((pcb.startPersist wnd).outputIdle net)
    else do
      let (pcb, out, err) ← outputLoop ends rcv wnd (seg :: next) pcb.stopPersist net.room
      if err ≠ .ERR_OK then return (pcb, out, err)
      else return (pcb.resetOversize.outputDone, out, .ERR_OK)

/-- `tcp_enqueue_flags` with TCP_FIN. -/
def tcp_enqueue_fin (pcb : SndPcb) (mem : Nat) : Option (SndPcb × ErrT) :=
  -- a pbuf and a `tcp_seg`
  if mem < 2 then some ({ pcb with nagleMemErr := true }, .ERR_MEM)
  else
    let seg : SndSeg :=
      { seqno := pcb.snd_lbb, p := [[]], fin := true, psh := false, sum := ⟨0, false⟩,
        checksummed := false, room := 0, oversize_left := 0 }
    let pcb := { pcb with
      unsent := pcb.unsent ++ [seg]
      unsent_oversize := 0
      snd_lbb := pcb.snd_lbb + 1
      fin := true
      snd_queuelen := pcb.snd_queuelen + seg.clen }
    do
      LWIP_ASSERT pcb.ValidQueuelen
      return (pcb, .ERR_OK)

def tcp_send_fin (pcb : SndPcb) (mem : Nat) : Option (SndPcb × ErrT) :=
  match pcb.unsent.getLast? with
  | none => pcb.tcp_enqueue_fin mem
  | some last =>
    if last.fin = false then
      some ({ pcb with unsent := pcb.unsent.dropLast ++ [{ last with fin := true }], fin := true }, .ERR_OK)
    else pcb.tcp_enqueue_fin mem

/-- `tcp_close_shutdown_fin`. On ERR_MEM, TF_CLOSEPEND makes `tcp_fasttmr` call it again. -/
def tcp_close_shutdown_fin (pcb : SndPcb) (mem : Nat) (ends : Endpoints) (rcv : RcvHeader) (net : Netif) :
    Option (SndPcb × List WireSeg) :=
  if pcb.canSend = false then some (pcb, [])
  else do
    let (pcb, err) ← pcb.tcp_send_fin mem
    if err ≠ .ERR_OK then return (pcb, [])
    else
      let (pcb, out, _) ← { pcb with canSend := false }.tcp_output ends rcv net
      return (pcb, out)

end SndPcb

end tun2proxy.core
