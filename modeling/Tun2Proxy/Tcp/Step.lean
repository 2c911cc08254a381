import Tun2Proxy.Tcp.Conn

open tun2proxy.machine

namespace tun2proxy.core

/-- The calls a handler can make on a connection; `abort` is also what
    `lwipStack.Close` calls on every connection it finds in `tcpConns`. -/
inductive Call where
  | read (c : ConnId) (len : Nat)
  | write (c : ConnId) (data : List UInt8)
  | closeRead (c : ConnId)
  | closeWrite (c : ConnId)
  | close (c : ConnId)
  | abort (c : ConnId)
  deriving DecidableEq, Repr

def Call.conn : Call → ConnId
  | .read c _ | .write c _ | .closeRead c | .closeWrite c | .close c | .abort c => c

def Call.start : Call → Proc
  | .read c len => .read c len
  | .write c data => .write c .lock data 0
  | .closeRead c => .closeRead c
  | .closeWrite c => .closeWrite c false
  | .close c => .close c
  | .abort c => .abort c

/-- The atomic sections, with the answers of handler, lwIP and network. -/
inductive Act where
  -- `input` or `sys_check_timeouts` takes and gives back `lwipMutex`
  | lwipLock
  | lwipUnlock
  -- `newTCPConn` up to `tcpConns.Store`, with the value of `rand.Uint32`
  | accept (key : UInt32)
  -- the rest of `newTCPConn`, starting connect goroutine `t`
  | acceptDone (t : Tid)
  -- lwIP calls `tcpRecvFn` with new data, with nil, or with refused data again
  | recv (c : ConnId) (p : Pbuf)
  | recvFin (c : ConnId)
  | refused (c : ConnId)
  | sent (c : ConnId)
  | poll (c : ConnId)
  | err (c : ConnId) (code : ErrT)
  -- lwIP changes what only lwIP sees
  | tcp (c : ConnId) (tcb : Tcb)
  -- the next section of the Go code that holds `lwipMutex`
  | task
  | call (t : Tid) (op : Call)
  -- `handler.Handle` returns nil or an error
  | handled (t : Tid) (nilErr : Bool)
  -- the section of `Write` under `lwipMutex`
  | write (t : Tid) (snd_buf : UInt16) (res : ErrT)
  -- the section of `CloseWrite` under `lwipMutex`
  | shutdown (t : Tid) (finSent : Bool)
  -- the next section of goroutine `t` in all other places
  | run (t : Tid)
  -- the pipe hands bytes from the blocked writer to the blocked reader `t`
  | pipe (t : Tid)
  deriving DecidableEq, Repr

def newConn (key : UInt32) : TcpConn :=
  { connKey := key
    state := .tcpNewConn
    connKeyArgFrees := 0
    canWriteL := none
    sndPipeReaderClosed := false
    sndPipeWriterClosed := false
    closeOnce := .fresh
    started := false
    readBytes := []
    readEOF := false }

def newPcb : TcpPcb :=
  { gone := false
    late := []
    refused_data := none
    sndQueue := []
    stream := []
    finReported := false
    tcb :=
      { state := .ESTABLISHED
        rxClosed := false
        closePend := false
        refusedFin := false
        freed := false } }

namespace Stack

/-- lwIP runs callbacks of a pcb only while it is an accepted one that is not
    gone: `tcp_abort` and the err callback end it, and `closeInternal` clears
    the callbacks before `tcp_close`. -/
def live (s : Stack) (c : ConnId) : Prop := c < s.accepted ∧ (s.pcbs c).gone = false

instance (s : Stack) (c : ConnId) : Decidable (s.live c) := inferInstanceAs (Decidable (_ ∧ _))

/-- `tcpConns.Load(getConnKeyVal(arg))` for the pcb of `c`. -/
def lookup (s : Stack) (c : ConnId) : Option ConnId := s.tcpConns (s.conns c).connKey

/-- A callback returns with what was called since the one before. -/
def logRet (s : Stack) (caller : Caller) (code : Option ErrT) : Stack :=
  { s with rets := ⟨caller, code, s.effect⟩ :: s.rets, effect := .empty }

/-- The deferred function of `tcpRecvFn`, with its `p` and `shouldFreePbuf`. -/
def deferred (s : Stack) (p : Option Pbuf) (shouldFreePbuf : Bool) : Stack :=
  if p.isSome ∧ shouldFreePbuf then s.pbuf_free else s

/-- The callbacks' answer for a connection that is not in `tcpConns`. -/
def unknownConn (s : Stack) (caller : Caller) (tpcb : ConnId) (p : Option Pbuf)
    (owner : Option Tid) : Stack :=
  (((s.tcp_abort tpcb).deferred p true).logRet caller (some .ERR_ABRT)).setHolder (.lwip owner)

/-- `tcpRecvFn` up to the call of `Receive` or `LocalClosed`. -/
def tcpRecvFn (s : Stack) (tpcb : ConnId) (p : Option Pbuf) (owner : Option Tid) : Stack :=
  match s.lookup tpcb with
  | none => s.unknownConn (.recv tpcb p owner) tpcb p owner
  | some found =>
    let stage : Stage := if p.isSome then .receiveCheck else .setLocalClosed
    s.setHolder (.task ⟨.recv tpcb p owner, found, stage⟩)

/-- `tcpSentFn` up to the call of `Sent`. -/
def tcpSentFn (s : Stack) (tpcb : ConnId) (owner : Option Tid) : Stack :=
  match s.lookup tpcb with
  | none => s.unknownConn (.sent tpcb owner) tpcb none owner
  | some found => s.setHolder (.task ⟨.sent tpcb owner, found, .isClosed⟩)

/-- `tcpPollFn` up to the call of `Poll`. -/
def tcpPollFn (s : Stack) (tpcb : ConnId) (owner : Option Tid) : Stack :=
  match s.lookup tpcb with
  | none => s.unknownConn (.poll tpcb owner) tpcb none owner
  | some found => s.setHolder (.task ⟨.poll tpcb owner, found, .isClosed⟩)

/-- The code that `tcpSentFn`, `tcpPollFn` and `tcpRecvFn` at end of stream
    return; the type assertion on a nil error panics. -/
def stateRet : Option LwipError → Option ErrT
  | some .LWIP_ERR_ABRT => some .ERR_ABRT
  | some .LWIP_ERR_OK => some .ERR_OK
  | some _ => some .ERR_ABRT
  | none => none

/-- The rest of `tcpRecvFn` after `Receive`. -/
def recvRet (s : Stack) (tpcb : ConnId) (p : Pbuf) (owner : Option Tid) (e : Option LwipError) :
    Stack :=
  let caller := Caller.recv tpcb (some p) owner
  let s := s.setHolder (.lwip owner)
  match e with
  | some .LWIP_ERR_CONN =>
    -- the pbuf stays with lwIP, which keeps it as refused data
    ((s.deferred (some p) false).modPcb tpcb fun pcb => { pcb with refused_data := some p }).logRet
      caller (some .ERR_CONN)
  | some .LWIP_ERR_CLSD =>
    (((s.tcp_recved tpcb p.tot_len).modPcb tpcb fun pcb => pcb.shutdownRx).deferred (some p) true).logRet
      caller (some .ERR_OK)
  | some .LWIP_ERR_ABRT => (s.deferred (some p) true).logRet caller (some .ERR_ABRT)
  | some .LWIP_ERR_OK | none => (s.deferred (some p) true).logRet caller (some .ERR_OK)

/-- The code that called a `TCPConn` method goes on after its return. -/
def methodRet (s : Stack) (k : Task) (e : Option LwipError) : Stack :=
  match k.caller with
  | .recv tpcb (some p) owner => s.recvRet tpcb p owner e
  | .recv _ none owner => ((s.deferred none true).setHolder (.lwip owner)).logRet k.caller (stateRet e)
  | .sent _ owner | .poll _ owner => (s.setHolder (.lwip owner)).logRet k.caller (stateRet e)
  | .abort t =>
    ((s.record fun _ => .empty).setHolder .free).setProc t (.aborted k.conn)

/-- The bytes a task writes into the pipe. -/
def taskData (k : Task) : List UInt8 :=
  match k.caller with
  | .recv _ (some p) _ => p.data
  | _ => []

/-- The code goes on at another place. -/
def goto (s : Stack) (k : Task) (stage : Stage) : Stack := s.setHolder (.task { k with stage })

/-- The next section of the Go code that holds `lwipMutex`. -/
def taskStep (s : Stack) (k : Task) : Option Stack :=
  match k.stage with
  | .receiveCheck =>
    match s.receiveCheck k.conn with
    | (s, none) => some (s.goto k .pipeStart)
    | (s, some e) => some (s.goto k (.ret (some e)))
  | .pipeStart =>
    if (s.conns k.conn).pipeDone then some (s.goto k (.ret (some .LWIP_ERR_CLSD)))
    else some (s.goto k (.pipeWrite (taskData k) 0))
  | .pipeWrite _ _ =>
    -- blocked until a reader comes or an end of the pipe is closed
    if (s.conns k.conn).pipeDone then some (s.goto k (.ret (some .LWIP_ERR_CLSD))) else none
  | .recved n => some ((s.tcp_recved k.conn n).goto k (.ret (some .LWIP_ERR_OK)))
  | .setLocalClosed => some ((s.setLocalClosed k.conn).goto k .isClosed)
  | .isClosed =>
    if (s.conns k.conn).state = .tcpClosed then some (s.goto k (.ret none))
    else some (s.goto k .checkClosing)
  | .checkClosing =>
    match s.checkClosing k.conn with
    | (s, none) => some (s.goto k .checkAborting)
    | (s, some e) => some (s.goto k (.ret (some e)))
  | .checkAborting =>
    match s.checkAborting k.conn with
    | (s, none) => some (s.goto k .broadcast)
    | (s, some e) => some (s.goto k (.ret (some e)))
  | .broadcast => some ((s.broadcast k.conn).goto k (.ret (some .LWIP_ERR_OK)))
  | .ret e => some (s.methodRet k e)

def unlockWrite (s : Stack) (c : ConnId) : Stack :=
  s.modConn c fun conn => { conn with canWriteL := none }

/-- The section of `Write` under `lwipMutex`, with `snd_buf` as lwIP has it and
    the result of `tcp_write`, if it is called. -/
def writeSection (s : Stack) (t : Tid) (c : ConnId) (data : List UInt8) (n : Nat) (snd_buf : UInt16)
    (res : ErrT) : Stack :=
  let s := s.modPcb c fun pcb => pcb.use .snd_buf
  let toWrite := min data.length snd_buf.toNat
  if toWrite = 0 then s.setProc t (.write c .wait data n)
  else
    match res with
    | .ERR_OK =>
      let s := s.modPcb c fun pcb => pcb.tcp_write (data.take toWrite)
      if data.drop toWrite = [] then (s.unlockWrite c).setProc t (.wrote c (n + toWrite) none)
      else s.setProc t (.write c .wait (data.drop toWrite) (n + toWrite))
    | .ERR_MEM => (s.modPcb c fun pcb => pcb.use .tcp_write).setProc t (.write c .wait data n)
    | code =>
      ((s.modPcb c fun pcb => pcb.use .tcp_write).unlockWrite c).setProc t
        (.wrote c n (some (.tcpWriteFailed code)))

/-- The end of `CloseWrite`, and of `closeOnce.Do` when `close` called it. -/
def closeWriteDone (s : Stack) (t : Tid) (c : ConnId) (byClose : Bool) : Stack :=
  (s.modConn c fun conn => { conn with closeOnce := if byClose then .done else conn.closeOnce }).setProc t .idle

/-- The next section of a goroutine that does not hold `lwipMutex`. -/
def procStep (s : Stack) (t : Tid) : Option Stack :=
  match s.procs t with
  | .connected c =>
    if (s.conns c).state = .tcpConnecting then
      some ((s.modConn c fun conn => { conn with state := .tcpConnected }).setProc t (.refused c))
    else some (s.setProc t .idle)
  | .refused c =>
    if s.holder = .free then
      match (s.pcbs c).refused_data with
      | none => some ((s.modPcb c fun pcb => pcb.use .refused_data).setProc t .idle)
      | some p =>
        some (((s.modPcb c fun pcb =>
          ((pcb.use .refused_data).use .tcp_process_refused_data).takeRefused).setProc t
            (.processing c)).tcpRecvFn
            c (some p) (some t))
    else none
  | .abort c =>
    some ((s.modConn c fun conn => { conn with state := conn.state.abort }).setProc t
      (.abortLwip c))
  | .abortLwip c =>
    if s.holder = .free then
      some ((s.setProc t (.abortCheck c)).setHolder (.task ⟨.abort t, c, .isClosed⟩))
    else none
  | .write c .lock data n =>
    if (s.conns c).canWriteL = none then
      some ((s.modConn c fun conn => { conn with canWriteL := some t }).setProc t
        (.write c .check data n))
    else none
  | .write c .check data n =>
    if data = [] then
      some ((s.unlockWrite c).setProc t (.wrote c n none))
    else
      match (s.conns c).state.writeCheck with
      | none => some (s.setProc t (.write c .lwip data n))
      | some e => some ((s.unlockWrite c).setProc t (.wrote c n (some e)))
  | .write c .wait data n =>
    some ((s.unlockWrite c).setProc t (.write c .waiting data n))
  | .write c .woken data n =>
    if (s.conns c).canWriteL = none then
      some ((s.modConn c fun conn => { conn with canWriteL := some t }).setProc t
        (.write c .check data n))
    else none
  | .closeWrite c byClose =>
    match (s.conns c).state.closeWrite with
    | none => some (s.closeWriteDone t c byClose)
    | some st =>
      some ((s.modConn c fun conn => { conn with state := st }).setProc t (.shutdown c byClose))
  | .closeRead c =>
    some ((s.modConn c fun conn => { conn with sndPipeReaderClosed := true }).setProc t .idle)
  | .close c =>
    match (s.conns c).closeOnce with
    | .fresh =>
      some ((s.modConn c fun conn => { conn with closeOnce := .running, sndPipeReaderClosed := true }).setProc t
        (.closeWrite c true))
    | .running => none
    | .done => some (s.setProc t .idle)
  | .read c len =>
    match (s.conns c).state.readCheck with
    | none => some (s.setProc t (.readPipe c len))
    | some e =>
      some ((s.modConn c fun conn => { conn with readEOF := conn.readEOF || e = .EOF }).setProc t .idle)
  | .readPipe c len =>
    if (s.conns c).pipeDone then
      some ((s.modConn c fun conn => { conn with readEOF := true }).setProc t .idle)
    else some (s.setProc t (.readBlocked c len))
  | .readBlocked c _ =>
    -- blocked until the writer comes or an end of the pipe is closed; `Read`
    -- turns `io.ErrClosedPipe` into `io.EOF`
    if (s.conns c).pipeDone then
      some ((s.modConn c fun conn => { conn with readEOF := true }).setProc t .idle)
    else none
  | _ => none

/-- The rendezvous of the pipe: the reader gets as much as its buffer holds. -/
def pipeTransfer (s : Stack) (t : Tid) : Option Stack :=
  match s.holder, s.procs t with
  | .task k, .readBlocked c len =>
    match k.stage with
    | .pipeWrite rest n =>
      if k.conn = c then
        let m := min len rest.length
        let stage : Stage :=
          if rest.drop m = [] then .recved (n + m) else .pipeWrite (rest.drop m) (n + m)
        let s := s.modConn c fun conn => { conn with readBytes := conn.readBytes ++ rest.take m }
        some (((s.setProc t .idle).record fun e => { e with piped := e.piped + m }).goto k stage)
      else none
    | _ => none
  | _, _ => none

/-- One atomic section. -/
def step (s : Stack) : Act → Option Stack
  | .lwipLock => if s.holder = .free then some (s.setHolder (.lwip none)) else none
  | .lwipUnlock =>
    match s.holder with
    | .lwip none => some (s.setHolder .free)
    | .lwip (some t) => some ((s.setHolder .free).setProc t .idle)
    | _ => none
  | .accept key =>
    match s.holder with
    | .lwip owner =>
      some { s with
        accepted := s.accepted + 1
        conns := Function.update s.conns s.accepted (newConn key)
        pcbs := Function.update s.pcbs s.accepted newPcb
        tcpConns := Function.update s.tcpConns key (some s.accepted)
        holder := .accept s.accepted owner }
    | _ => none
  | .acceptDone t =>
    match s.holder with
    | .accept c owner =>
      if s.procs t = .idle then
        some (((s.modConn c fun conn => { conn with state := .tcpConnecting, started := true }).setProc t
          (.handle c)).setHolder (.lwip owner))
      else none
    | _ => none
  | .recv c p =>
    match s.holder with
    | .lwip owner =>
      if s.live c then
        some ((s.modPcb c fun pcb => { pcb with stream := pcb.stream ++ p.data }).tcpRecvFn c
          (some p) owner)
      else none
    | _ => none
  | .recvFin c =>
    match s.holder with
    | .lwip owner =>
      if s.live c then
        some ((s.modPcb c fun pcb => { pcb with finReported := true }).tcpRecvFn c none owner)
      else none
    | _ => none
  | .refused c =>
    match s.holder, (s.pcbs c).refused_data with
    | .lwip owner, some p =>
      if s.live c then some ((s.modPcb c TcpPcb.takeRefused).tcpRecvFn c (some p) owner) else none
    | _, _ => none
  | .sent c =>
    match s.holder with
    | .lwip owner => if s.live c then some (s.tcpSentFn c owner) else none
    | _ => none
  | .poll c =>
    match s.holder with
    | .lwip owner => if s.live c then some (s.tcpPollFn c owner) else none
    | _ => none
  | .err c _ =>
    match s.holder with
    | .lwip _ => if s.live c then some ((s.modPcb c TcpPcb.abandon).tcpErrFn c) else none
    | _ => none
  | .tcp c tcb =>
    match s.holder with
    | .lwip _ => some (s.modPcb c fun pcb => { pcb with tcb })
    | _ => none
  | .task =>
    match s.holder with
    | .task k => s.taskStep k
    | _ => none
  | .call t op =>
    if s.procs t = .idle ∧ op.conn < s.accepted ∧
        ((s.conns op.conn).started ∨ op = .abort op.conn) then
      some (s.setProc t op.start)
    else none
  | .handled t nilErr =>
    match s.procs t with
    | .handle c => some (s.setProc t (if nilErr then .connected c else .abort c))
    | _ => none
  | .write t snd_buf res =>
    match s.procs t with
    | .write c .lwip data n =>
      if s.holder = .free then some (s.writeSection t c data n snd_buf res) else none
    | _ => none
  | .shutdown t finSent =>
    match s.procs t with
    | .shutdown c byClose =>
      if s.holder = .free then
        some ((s.modPcb c fun pcb => pcb.shutdownTx finSent).closeWriteDone t c byClose)
      else none
    | _ => none
  | .run t => s.procStep t
  | .pipe t => s.pipeTransfer t

def init : Stack :=
  { accepted := 0
    conns := fun _ => newConn 0
    pcbs := fun _ => newPcb
    tcpConns := fun _ => none
    holder := .free
    procs := fun _ => .idle
    effect := .empty
    rets := [] }

end Stack

/-- The machine of the package: any interleaving of its atomic sections. -/
def tcpMachine : Machine Stack Act := ⟨Stack.init, Stack.step⟩

end tun2proxy.core
