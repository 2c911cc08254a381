import Tun2Proxy.Lib.Machine

namespace tun2proxy.core

/-- `tcpConnState`, in the order of the constants. -/
inductive TcpConnState where
  | tcpNewConn
  | tcpConnecting
  | tcpConnected
  | tcpWriteClosed
  | tcpReceiveClosed
  | tcpClosing
  | tcpAborting
  | tcpClosed
  | tcpErrored
  deriving DecidableEq, Repr

namespace TcpConnState

/-- The value of the constant. -/
def num : TcpConnState → Nat
  | tcpNewConn => 0
  | tcpConnecting => 1
  | tcpConnected => 2
  | tcpWriteClosed => 3
  | tcpReceiveClosed => 4
  | tcpClosing => 5
  | tcpAborting => 6
  | tcpClosed => 7
  | tcpErrored => 8

instance : LE TcpConnState := ⟨fun a b => a.num ≤ b.num⟩

instance : LT TcpConnState := ⟨fun a b => a.num < b.num⟩

instance (a b : TcpConnState) : Decidable (a ≤ b) := inferInstanceAs (Decidable (a.num ≤ b.num))

instance (a b : TcpConnState) : Decidable (a < b) := inferInstanceAs (Decidable (a.num < b.num))

/-- The two states of a connection whose resources were freed. -/
def released (st : TcpConnState) : Prop := st = tcpClosed ∨ st = tcpErrored

instance (st : TcpConnState) : Decidable st.released := inferInstanceAs (Decidable (_ ∨ _))

end TcpConnState

/-- The codes of `*lwipError`. A nil error is `none` where it can occur. -/
inductive LwipError where
  | LWIP_ERR_OK
  | LWIP_ERR_ABRT
  | LWIP_ERR_CONN
  | LWIP_ERR_CLSD
  deriving DecidableEq, Repr

/-- lwIP's `err_t`. -/
inductive ErrT where
  | ERR_OK
  | ERR_MEM
  | ERR_BUF
  | ERR_TIMEOUT
  | ERR_RTE
  | ERR_INPROGRESS
  | ERR_VAL
  | ERR_WOULDBLOCK
  | ERR_USE
  | ERR_ALREADY
  | ERR_ISCONN
  | ERR_CONN
  | ERR_IF
  | ERR_ABRT
  | ERR_RST
  | ERR_CLSD
  | ERR_ARG
  deriving DecidableEq, Repr

/-- The errors that `Read` and `Write` return. -/
inductive GoError where
  | EOF
  | ErrClosedPipe
  | ErrShortWrite
  | tcpWriteFailed (code : ErrT)
  deriving DecidableEq, Repr

/-- The contents of a pbuf chain. `tot_len` is a `u16_t`, so the length fits it. -/
structure Pbuf where
  data : List UInt8
  len_lt : data.length < UInt16.size
  deriving DecidableEq, Repr

def Pbuf.tot_len (p : Pbuf) : Nat := p.data.length

/-- Connections are numbered in the order they are accepted. Every accepted pcb
    gets exactly one `tcpConn`, so the number names both. -/
abbrev ConnId := Nat

/-- A goroutine. -/
abbrev Tid := Nat

/-- How far `closeOnce` is. -/
inductive Once where
  | fresh
  | running
  | done
  deriving DecidableEq, Repr

/-- `tcpConn`. The last two fields are not in the source: they record what the
    calls of `Read` have returned so far. -/
structure TcpConn where
  connKey : UInt32
  state : TcpConnState
  -- how often the cell `connKeyArg` was freed
  connKeyArgFrees : Nat
  -- the goroutine that holds `canWrite.L`
  canWriteL : Option Tid
  sndPipeReaderClosed : Bool
  sndPipeWriterClosed : Bool
  closeOnce : Once
  -- the connect goroutine was started, so the handler knows the connection
  started : Bool
  readBytes : List UInt8
  readEOF : Bool
  deriving DecidableEq, Repr

/-- Either end of the pipe was closed: `done` of `io.Pipe` is closed. -/
def TcpConn.pipeDone (conn : TcpConn) : Bool := conn.sndPipeReaderClosed || conn.sndPipeWriterClosed

/-- lwIP's `enum tcp_state`, for connections that were accepted. -/
inductive TcpState where
  | ESTABLISHED
  | FIN_WAIT_1
  | FIN_WAIT_2
  | CLOSE_WAIT
  | CLOSING
  | LAST_ACK
  | TIME_WAIT
  deriving DecidableEq, Repr

/-- The uses of a pcb from Go. -/
inductive PcbUse where
  | snd_buf
  | refused_data
  | tcp_write
  | tcp_output
  | tcp_shutdown
  | tcp_process_refused_data
  | tcp_recved
  | tcp_close
  | tcp_abort
  deriving DecidableEq, Repr

/-- The part of `struct tcp_pcb` that only lwIP itself reads and writes. -/
structure Tcb where
  state : TcpState
  -- `TF_RXCLOSED`
  rxClosed : Bool
  -- `TF_CLOSEPEND`
  closePend : Bool
  -- `PBUF_FLAG_TCP_FIN` of the data that was refused last
  refusedFin : Bool
  -- `tcp_free` has run
  freed : Bool
  deriving DecidableEq, Repr

/-- `struct tcp_pcb`, with a record of its uses. -/
structure TcpPcb where
  -- `tcp_abort` or `closeInternal`'s `tcp_close` has run, or the err callback
  gone : Bool
  -- uses of the pcb after it was gone, the latest first
  late : List PcbUse
  refused_data : Option Pbuf
  -- bytes enqueued with `tcp_write`
  sndQueue : List UInt8
  -- bytes handed to the recv callback for the first time, in order
  stream : List UInt8
  -- the recv callback was called with a nil pbuf
  finReported : Bool
  tcb : Tcb
  deriving DecidableEq, Repr

/-- Where `tcpConn.Write` stands. -/
inductive WriteAt where
  -- taking `canWrite.L`
  | lock
  -- at the loop head, before `writeCheck`
  | check
  -- before the section under `lwipMutex`
  | lwip
  -- before `canWrite.Wait`
  | wait
  -- registered in `canWrite`, no `Broadcast` since
  | waiting
  -- woken, taking `canWrite.L` again
  | woken
  deriving DecidableEq, Repr

/-- A goroutine that runs code of this package. -/
inductive Proc where
  | idle
  -- the connect goroutine inside `handler.Handle`
  | handle (c : ConnId)
  -- `Handle` returned nil, before `conn.Lock`
  | connected (c : ConnId)
  -- state set to `tcpConnected`, before `lwipMutex.Lock`
  | refused (c : ConnId)
  -- inside `tcp_process_refused_data`, holding `lwipMutex`
  | processing (c : ConnId)
  -- `Abort` before `conn.Lock`
  | abort (c : ConnId)
  -- `Abort` before `lwipMutex.Lock`
  | abortLwip (c : ConnId)
  -- `Abort` inside `checkState`, holding `lwipMutex`
  | abortCheck (c : ConnId)
  -- `Abort` has returned
  | aborted (c : ConnId)
  | write (c : ConnId) (pos : WriteAt) (data : List UInt8) (totalWritten : Nat)
  -- `Write` has returned
  | wrote (c : ConnId) (totalWritten : Nat) (err : Option GoError)
  -- `CloseWrite` before `conn.Lock`, called by `close` or not
  | closeWrite (c : ConnId) (byClose : Bool)
  -- `CloseWrite` before `lwipMutex.Lock`
  | shutdown (c : ConnId) (byClose : Bool)
  | closeRead (c : ConnId)
  | close (c : ConnId)
  -- `Read` before `conn.Lock`
  | read (c : ConnId) (len : Nat)
  -- `Read` at the pipe, before its first look at `done`
  | readPipe (c : ConnId) (len : Nat)
  -- blocked in the pipe
  | readBlocked (c : ConnId) (len : Nat)
  deriving DecidableEq, Repr

/-- `Broadcast` on `canWrite` of connection `c`. -/
def Proc.wake (c : ConnId) : Proc → Proc
  | .write c' .waiting data n => .write c' (if c' = c then .woken else .waiting) data n
  | p => p

/-- Who runs the Go code that holds `lwipMutex`: a callback, which returns to
    lwIP code run by goroutine `owner` (`none` for input and timers), or `Abort`. -/
inductive Caller where
  | recv (tpcb : ConnId) (p : Option Pbuf) (owner : Option Tid)
  | sent (tpcb : ConnId) (owner : Option Tid)
  | poll (tpcb : ConnId) (owner : Option Tid)
  | abort (t : Tid)
  deriving DecidableEq, Repr

/-- Where that code stands, each time before its next atomic section. -/
inductive Stage where
  | receiveCheck
  -- `sndPipeWriter.Write` before its first look at `done`
  | pipeStart
  -- in the loop of the pipe's `write`, with `n` bytes taken by readers so far
  | pipeWrite (rest : List UInt8) (n : Nat)
  -- before `tcp_recved`
  | recved (n : Nat)
  | setLocalClosed
  | isClosed
  | checkClosing
  | checkAborting
  | broadcast
  -- the `TCPConn` method has returned
  | ret (e : Option LwipError)
  deriving DecidableEq, Repr

/-- What was called since the last callback returned: `tcp_abort` with its pcbs, `pbuf_free`,
    the sum of the calls of `tcp_recved`, and the bytes that readers took from the pipe. -/
structure Effect where
  aborts : List ConnId
  frees : Nat
  credit : Nat
  piped : Nat
  deriving DecidableEq, Repr

def Effect.empty : Effect := ⟨[], 0, 0, 0⟩

structure Task where
  caller : Caller
  conn : ConnId
  stage : Stage
  deriving DecidableEq, Repr

/-- The holder of `lwipMutex`. -/
inductive Holder where
  | free
  -- lwIP code, between callbacks; `owner` as in `Caller`
  | lwip (owner : Option Tid)
  -- `newTCPConn` between `tcpConns.Store` and the change to `tcpConnecting`
  | accept (c : ConnId) (owner : Option Tid)
  | task (k : Task)
  deriving DecidableEq, Repr

/-- A callback that returned: its code, or `none` for a failed type assertion. -/
structure CbRet where
  caller : Caller
  code : Option ErrT
  effect : Effect
  deriving DecidableEq, Repr

/-- The whole package state, with every goroutine. `effect` and `rets` are not in the source:
    they record the calls into lwIP and what the callbacks returned. -/
structure Stack where
  accepted : Nat
  conns : ConnId → TcpConn
  pcbs : ConnId → TcpPcb
  tcpConns : UInt32 → Option ConnId
  holder : Holder
  procs : Tid → Proc
  effect : Effect
  rets : List CbRet

namespace Stack

def modConn (s : Stack) (c : ConnId) (f : TcpConn → TcpConn) : Stack :=
  { s with conns := Function.update s.conns c (f (s.conns c)) }

def modPcb (s : Stack) (c : ConnId) (f : TcpPcb → TcpPcb) : Stack :=
  { s with pcbs := Function.update s.pcbs c (f (s.pcbs c)) }

def setProc (s : Stack) (t : Tid) (p : Proc) : Stack :=
  { s with procs := Function.update s.procs t p }

def setHolder (s : Stack) (h : Holder) : Stack := { s with holder := h }

/-- A call is recorded. -/
def record (s : Stack) (f : Effect → Effect) : Stack := { s with effect := f s.effect }

/-- `canWrite.Broadcast()` on connection `c`. -/
def broadcast (s : Stack) (c : ConnId) : Stack :=
  { s with procs := fun t => (s.procs t).wake c }

section
variable (s : Stack) (c c' : ConnId) (t t' : Tid) (p : Proc) (h : Holder)

@[simp] theorem modConn_conns (f : TcpConn → TcpConn) :
    (s.modConn c f).conns c' = if c' = c then f (s.conns c) else s.conns c' := by
  simp [modConn, Function.update_apply]

@[simp] theorem modConn_accepted (f : TcpConn → TcpConn) : (s.modConn c f).accepted = s.accepted :=
  rfl
@[simp] theorem modConn_pcbs (f : TcpConn → TcpConn) : (s.modConn c f).pcbs = s.pcbs := rfl
@[simp] theorem modConn_tcpConns (f : TcpConn → TcpConn) : (s.modConn c f).tcpConns = s.tcpConns :=
  rfl
@[simp] theorem modConn_holder (f : TcpConn → TcpConn) : (s.modConn c f).holder = s.holder := rfl
@[simp] theorem modConn_procs (f : TcpConn → TcpConn) : (s.modConn c f).procs = s.procs := rfl
@[simp] theorem modConn_rets (f : TcpConn → TcpConn) : (s.modConn c f).rets = s.rets := rfl
@[simp] theorem modConn_effect (f : TcpConn → TcpConn) : (s.modConn c f).effect = s.effect := rfl

@[simp] theorem modPcb_pcbs (f : TcpPcb → TcpPcb) :
    (s.modPcb c f).pcbs c' = if c' = c then f (s.pcbs c) else s.pcbs c' := by
  simp [modPcb, Function.update_apply]

@[simp] theorem modPcb_accepted (f : TcpPcb → TcpPcb) : (s.modPcb c f).accepted = s.accepted := rfl
@[simp] theorem modPcb_conns (f : TcpPcb → TcpPcb) : (s.modPcb c f).conns = s.conns := rfl
@[simp] theorem modPcb_tcpConns (f : TcpPcb → TcpPcb) : (s.modPcb c f).tcpConns = s.tcpConns := rfl
@[simp] theorem modPcb_holder (f : TcpPcb → TcpPcb) : (s.modPcb c f).holder = s.holder := rfl
@[simp] theorem modPcb_procs (f : TcpPcb → TcpPcb) : (s.modPcb c f).procs = s.procs := rfl
@[simp] theorem modPcb_rets (f : TcpPcb → TcpPcb) : (s.modPcb c f).rets = s.rets := rfl
@[simp] theorem modPcb_effect (f : TcpPcb → TcpPcb) : (s.modPcb c f).effect = s.effect := rfl

@[simp] theorem setProc_procs : (s.setProc t p).procs t' = if t' = t then p else s.procs t' := by
  simp [setProc, Function.update_apply]

@[simp] theorem setProc_accepted : (s.setProc t p).accepted = s.accepted := rfl
@[simp] theorem setProc_conns : (s.setProc t p).conns = s.conns := rfl
@[simp] theorem setProc_pcbs : (s.setProc t p).pcbs = s.pcbs := rfl
@[simp] theorem setProc_tcpConns : (s.setProc t p).tcpConns = s.tcpConns := rfl
@[simp] theorem setProc_holder : (s.setProc t p).holder = s.holder := rfl
@[simp] theorem setProc_rets : (s.setProc t p).rets = s.rets := rfl
@[simp] theorem setProc_effect : (s.setProc t p).effect = s.effect := rfl

@[simp] theorem setHolder_holder : (s.setHolder h).holder = h := rfl
@[simp] theorem setHolder_accepted : (s.setHolder h).accepted = s.accepted := rfl
@[simp] theorem setHolder_conns : (s.setHolder h).conns = s.conns := rfl
@[simp] theorem setHolder_pcbs : (s.setHolder h).pcbs = s.pcbs := rfl
@[simp] theorem setHolder_tcpConns : (s.setHolder h).tcpConns = s.tcpConns := rfl
@[simp] theorem setHolder_procs : (s.setHolder h).procs = s.procs := rfl
@[simp] theorem setHolder_rets : (s.setHolder h).rets = s.rets := rfl
@[simp] theorem setHolder_effect : (s.setHolder h).effect = s.effect := rfl

@[simp] theorem broadcast_procs : (s.broadcast c).procs t = (s.procs t).wake c := rfl
@[simp] theorem broadcast_accepted : (s.broadcast c).accepted = s.accepted := rfl
@[simp] theorem broadcast_conns : (s.broadcast c).conns = s.conns := rfl
@[simp] theorem broadcast_pcbs : (s.broadcast c).pcbs = s.pcbs := rfl
@[simp] theorem broadcast_tcpConns : (s.broadcast c).tcpConns = s.tcpConns := rfl
@[simp] theorem broadcast_holder : (s.broadcast c).holder = s.holder := rfl
@[simp] theorem broadcast_rets : (s.broadcast c).rets = s.rets := rfl
@[simp] theorem broadcast_effect : (s.broadcast c).effect = s.effect := rfl

@[simp] theorem record_effect (f : Effect → Effect) : (s.record f).effect = f s.effect := rfl
@[simp] theorem record_accepted (f : Effect → Effect) : (s.record f).accepted = s.accepted := rfl
@[simp] theorem record_conns (f : Effect → Effect) : (s.record f).conns = s.conns := rfl
@[simp] theorem record_pcbs (f : Effect → Effect) : (s.record f).pcbs = s.pcbs := rfl
@[simp] theorem record_tcpConns (f : Effect → Effect) : (s.record f).tcpConns = s.tcpConns := rfl
@[simp] theorem record_holder (f : Effect → Effect) : (s.record f).holder = s.holder := rfl
@[simp] theorem record_procs (f : Effect → Effect) : (s.record f).procs = s.procs := rfl
@[simp] theorem record_rets (f : Effect → Effect) : (s.record f).rets = s.rets := rfl

end

end Stack

end tun2proxy.core
