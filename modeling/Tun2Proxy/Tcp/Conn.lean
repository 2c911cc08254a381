import Tun2Proxy.Tcp.State

namespace tun2proxy.core

/-! ### lwIP's API, as far as Go calls it -/

/-- A use of the pcb from Go. On a pcb that is gone it is only recorded: what
    lwIP would do with freed memory has no meaning. -/
def TcpPcb.use (p : TcpPcb) (u : PcbUse) : TcpPcb :=
  if p.gone then { p with late := u :: p.late } else p

/-- `tcp_close_shutdown_fin`, when the FIN could be enqueued. -/
def TcpState.fin : TcpState → TcpState
  | .ESTABLISHED => .FIN_WAIT_1
  | .CLOSE_WAIT => .LAST_ACK
  | st => st

/-- `tcp_abandon`: the pcb is purged and freed. -/
def TcpPcb.abandon (p : TcpPcb) : TcpPcb :=
  if p.gone then p.use .tcp_abort
  else { p with gone := true, refused_data := none, tcb := { p.tcb with freed := true } }

/-- `tcp_close`. The pcb is lwIP's own from here on and may be freed at any time. -/
def TcpPcb.tcp_close (p : TcpPcb) : TcpPcb :=
  if p.gone then p.use .tcp_close
  else { p with gone := true, refused_data := none,
                tcb := { p.tcb with rxClosed := true, state := p.tcb.state.fin } }

/-- `tcp_shutdown(pcb, 1, 0)`: no more data is received, refused data is freed. -/
def TcpPcb.shutdownRx (p : TcpPcb) : TcpPcb :=
  if p.gone then p.use .tcp_shutdown
  else { p with refused_data := none, tcb := { p.tcb with rxClosed := true } }

/-- `tcp_shutdown(pcb, 0, 1)`. Without memory for the FIN (`finSent` is false) it
    stays pending; in all but two states nothing is left to shut down. -/
def TcpPcb.shutdownTx (p : TcpPcb) (finSent : Bool) : TcpPcb :=
  if p.gone then p.use .tcp_shutdown
  else if p.tcb.state = .ESTABLISHED ∨ p.tcb.state = .CLOSE_WAIT then
    if finSent then { p with tcb := { p.tcb with state := p.tcb.state.fin } }
    else { p with tcb := { p.tcb with closePend := true } }
  else p

/-- A successful `tcp_write` followed by `tcp_output`. -/
def TcpPcb.tcp_write (p : TcpPcb) (data : List UInt8) : TcpPcb :=
  if p.gone then (p.use .tcp_write).use .tcp_output
  else { p with sndQueue := p.sndQueue ++ data }

/-- `pcb->refused_data = NULL` at the start of `tcp_process_refused_data`. -/
def TcpPcb.takeRefused (p : TcpPcb) : TcpPcb := { p with refused_data := none }

namespace Stack

/-! ### The methods of `tcpConn`

Each function here is one section under `conn.Mutex`, or a part of one. -/

/-- `release`. `Delete` of an absent key changes nothing. -/
def release (s : Stack) (c : ConnId) : Stack :=
  let key := (s.conns c).connKey
  let found := (s.tcpConns key).isSome
  { s with
    tcpConns := Function.update s.tcpConns key none
    conns := Function.update s.conns c
      { s.conns c with
        connKeyArgFrees := (s.conns c).connKeyArgFrees + (if found then 1 else 0)
        sndPipeWriterClosed := true
        sndPipeReaderClosed := true
        state := .tcpClosed } }

/-- `Err`. -/
def Err (s : Stack) (c : ConnId) : Stack :=
  ((s.release c).modConn c fun conn => { conn with state := .tcpErrored }).broadcast c

/-- `tcpErrFn` for the pcb of `c`. The code only selects the text of an error
    that `Err` ignores. -/
def tcpErrFn (s : Stack) (c : ConnId) : Stack :=
  match s.tcpConns (s.conns c).connKey with
  | some found => s.Err found
  | none => s

/-- `tcp_abort`: the pcb is freed, then its err callback runs, unless the pcb was
    in TIME_WAIT. -/
def tcp_abort (s : Stack) (c : ConnId) : Stack :=
  let pcb := s.pcbs c
  let s := (s.modPcb c TcpPcb.abandon).record fun e => { e with aborts := c :: e.aborts }
  if pcb.gone ∨ pcb.tcb.state = .TIME_WAIT then s else s.tcpErrFn c

/-- `tcp_recved`. `len` is an `u16_t`. -/
def tcp_recved (s : Stack) (c : ConnId) (len : Nat) : Stack :=
  (s.modPcb c fun pcb => pcb.use .tcp_recved).record fun e =>
    { e with credit := e.credit + len % UInt16.size }

/-- `pbuf_free` of the pbuf that the recv callback got. -/
def pbuf_free (s : Stack) : Stack := s.record fun e => { e with frees := e.frees + 1 }

/-- `closeInternal`. Its first five calls clear the callbacks of the pcb, so that
    lwIP runs none of them after `tcp_close`. -/
def closeInternal (s : Stack) (c : ConnId) : Stack :=
  (s.release c).modPcb c TcpPcb.tcp_close

/-- `abortInternal`. -/
def abortInternal (s : Stack) (c : ConnId) : Stack :=
  (s.release c).tcp_abort c

/-- `receiveCheck`. Its default case cannot be written down: the state is always
    one of the nine constants. -/
def receiveCheck (s : Stack) (c : ConnId) : Stack × Option LwipError :=
  match (s.conns c).state with
  | .tcpConnected | .tcpWriteClosed => (s, none)
  | .tcpNewConn | .tcpConnecting => (s, some .LWIP_ERR_CONN)
  | .tcpAborting | .tcpClosed | .tcpReceiveClosed | .tcpClosing => (s, some .LWIP_ERR_CLSD)
  | .tcpErrored => (s.abortInternal c, some .LWIP_ERR_ABRT)

/-- `checkClosing`. -/
def checkClosing (s : Stack) (c : ConnId) : Stack × Option LwipError :=
  if (s.conns c).state = .tcpClosing then (s.closeInternal c, some .LWIP_ERR_OK) else (s, none)

/-- `checkAborting`. -/
def checkAborting (s : Stack) (c : ConnId) : Stack × Option LwipError :=
  if (s.conns c).state = .tcpAborting then (s.abortInternal c, some .LWIP_ERR_ABRT) else (s, none)

/-- `setLocalClosed`. -/
def setLocalClosed (s : Stack) (c : ConnId) : Stack :=
  if (s.conns c).state ≥ .tcpClosing ∨ (s.conns c).state = .tcpReceiveClosed then s
  else
    (s.modConn c fun conn =>
      { conn with
        sndPipeWriterClosed := true
        state := if conn.state = .tcpWriteClosed then .tcpClosing
          else .tcpReceiveClosed }).broadcast c

end Stack

/-- `writeCheck`; `none` is a nil error. -/
def TcpConnState.writeCheck : TcpConnState → Option GoError
  | .tcpConnecting | .tcpConnected | .tcpReceiveClosed => none
  | .tcpWriteClosed | .tcpClosing | .tcpClosed | .tcpErrored | .tcpAborting => some .ErrClosedPipe
  | .tcpNewConn => some .ErrShortWrite

/-- The state `CloseWrite` sets; `none` where it returns at once. -/
def TcpConnState.closeWrite (st : TcpConnState) : Option TcpConnState :=
  if st ≥ .tcpClosing ∨ st = .tcpWriteClosed then none
  else if st = .tcpReceiveClosed then some .tcpClosing
  else some .tcpWriteClosed

/-- The state `Abort` sets. -/
def TcpConnState.abort (st : TcpConnState) : TcpConnState :=
  if st < .tcpAborting then .tcpAborting else st

/-- What `Read` returns without looking at the pipe; `none` where it reads. -/
def TcpConnState.readCheck (st : TcpConnState) : Option GoError :=
  if st = .tcpReceiveClosed then some .EOF
  else if st ≥ .tcpClosing then some .ErrClosedPipe
  else none

namespace Stack

/-! ### What the composed methods do to each part of the state -/

section
variable (s : Stack) (c c' : ConnId) (key : UInt32)

@[simp] theorem release_conns : (s.release c).conns c' =
    if c' = c then
      { s.conns c with
        connKeyArgFrees := (s.conns c).connKeyArgFrees +
          (if (s.tcpConns (s.conns c).connKey).isSome then 1 else 0)
        sndPipeWriterClosed := true
        sndPipeReaderClosed := true
        state := .tcpClosed }
    else s.conns c' := by
  simp [release, Function.update_apply]

@[simp] theorem release_tcpConns : (s.release c).tcpConns key =
    if key = (s.conns c).connKey then none else s.tcpConns key := by
  simp [release, Function.update_apply]

@[simp] theorem release_accepted : (s.release c).accepted = s.accepted := rfl
@[simp] theorem release_pcbs : (s.release c).pcbs = s.pcbs := rfl
@[simp] theorem release_holder : (s.release c).holder = s.holder := rfl
@[simp] theorem release_procs : (s.release c).procs = s.procs := rfl
@[simp] theorem release_effect : (s.release c).effect = s.effect := rfl
@[simp] theorem release_rets : (s.release c).rets = s.rets := rfl

/-- The err callback inside `abortInternal` finds nothing: `release` has just
    deleted the key. -/
theorem abortInternal_eq : s.abortInternal c =
    ((s.release c).modPcb c TcpPcb.abandon).record fun e => { e with aborts := c :: e.aborts } := by
  simp only [abortInternal, tcp_abort]
  split
  · rfl
  · simp [tcpErrFn]

/-- `tcp_abort` on a pcb whose key is not in `tcpConns` only frees the pcb. -/
theorem tcp_abort_eq (hnone : s.tcpConns (s.conns c).connKey = none) : s.tcp_abort c =
    (s.modPcb c TcpPcb.abandon).record fun e => { e with aborts := c :: e.aborts } := by
  simp only [tcp_abort]
  split
  · rfl
  · simp [tcpErrFn, hnone]

end

end Stack

end tun2proxy.core
