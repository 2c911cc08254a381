import Tun2Proxy.Tcp.Step

namespace tun2proxy.core

namespace Stack

section
variable (s : Stack) (c : ConnId) (k : Task) (stage : Stage) (caller : Caller) (code : Option ErrT)

@[simp] theorem logRet_accepted : (s.logRet caller code).accepted = s.accepted := rfl
@[simp] theorem logRet_conns : (s.logRet caller code).conns = s.conns := rfl
@[simp] theorem logRet_pcbs : (s.logRet caller code).pcbs = s.pcbs := rfl
@[simp] theorem logRet_tcpConns : (s.logRet caller code).tcpConns = s.tcpConns := rfl
@[simp] theorem logRet_holder : (s.logRet caller code).holder = s.holder := rfl
@[simp] theorem logRet_procs : (s.logRet caller code).procs = s.procs := rfl
@[simp] theorem logRet_effect : (s.logRet caller code).effect = .empty := rfl
@[simp] theorem logRet_rets : (s.logRet caller code).rets = ⟨caller, code, s.effect⟩ :: s.rets := rfl

@[simp] theorem goto_holder : (s.goto k stage).holder = .task { k with stage } := rfl
@[simp] theorem goto_accepted : (s.goto k stage).accepted = s.accepted := rfl
@[simp] theorem goto_conns : (s.goto k stage).conns = s.conns := rfl
@[simp] theorem goto_pcbs : (s.goto k stage).pcbs = s.pcbs := rfl
@[simp] theorem goto_tcpConns : (s.goto k stage).tcpConns = s.tcpConns := rfl
@[simp] theorem goto_procs : (s.goto k stage).procs = s.procs := rfl
@[simp] theorem goto_rets : (s.goto k stage).rets = s.rets := rfl
@[simp] theorem goto_effect : (s.goto k stage).effect = s.effect := rfl

section
variable (n : Nat) (p : Option Pbuf) (shouldFreePbuf : Bool)

@[simp] theorem tcp_recved_accepted : (s.tcp_recved c n).accepted = s.accepted := rfl
@[simp] theorem tcp_recved_conns : (s.tcp_recved c n).conns = s.conns := rfl
@[simp] theorem tcp_recved_pcbs : (s.tcp_recved c n).pcbs =
    (s.modPcb c fun pcb => pcb.use .tcp_recved).pcbs := rfl
@[simp] theorem tcp_recved_tcpConns : (s.tcp_recved c n).tcpConns = s.tcpConns := rfl
@[simp] theorem tcp_recved_holder : (s.tcp_recved c n).holder = s.holder := rfl
@[simp] theorem tcp_recved_procs : (s.tcp_recved c n).procs = s.procs := rfl
@[simp] theorem tcp_recved_effect : (s.tcp_recved c n).effect =
    { s.effect with credit := s.effect.credit + n % UInt16.size } := rfl
@[simp] theorem tcp_recved_rets : (s.tcp_recved c n).rets = s.rets := rfl

theorem tcp_recved_modPcb (f : TcpPcb → TcpPcb) : (s.tcp_recved c n).modPcb c f =
    (s.modPcb c fun pcb => f (pcb.use .tcp_recved)).record fun e =>
      { e with credit := e.credit + n % UInt16.size } := by
  simp [tcp_recved, record, modPcb, Function.update_idem]

/-- The deferred function frees the pbuf at most. -/
theorem deferred_eq : s.deferred p shouldFreePbuf = s.record fun e =>
    { e with frees := e.frees + if p.isSome ∧ shouldFreePbuf = true then 1 else 0 } := by
  rw [deferred]
  split <;> rfl

@[simp] theorem deferred_accepted : (s.deferred p shouldFreePbuf).accepted = s.accepted := by
  rw [deferred_eq]
  rfl
@[simp] theorem deferred_conns : (s.deferred p shouldFreePbuf).conns = s.conns := by
  rw [deferred_eq]
  rfl
@[simp] theorem deferred_pcbs : (s.deferred p shouldFreePbuf).pcbs = s.pcbs := by
  rw [deferred_eq]
  rfl
@[simp] theorem deferred_tcpConns : (s.deferred p shouldFreePbuf).tcpConns = s.tcpConns := by
  rw [deferred_eq]
  rfl
@[simp] theorem deferred_holder : (s.deferred p shouldFreePbuf).holder = s.holder := by
  rw [deferred_eq]
  rfl
@[simp] theorem deferred_procs : (s.deferred p shouldFreePbuf).procs = s.procs := by
  rw [deferred_eq]
  rfl
@[simp] theorem deferred_rets : (s.deferred p shouldFreePbuf).rets = s.rets := by
  rw [deferred_eq]
  rfl

end

end

/-- The calls of a callback that finds no connection. -/
def unknownEffect (s : Stack) (tpcb : ConnId) (p : Option Pbuf) : Effect :=
  { s.effect with
    aborts := tpcb :: s.effect.aborts
    frees := s.effect.frees + if p.isSome then 1 else 0 }

/-- The callbacks that find no connection only free the pcb. -/
theorem unknownConn_eq {s : Stack} {tpcb : ConnId} (hnone : s.lookup tpcb = none) (caller : Caller)
    (p : Option Pbuf) (owner : Option Tid) :
    s.unknownConn caller tpcb p owner =
      (((s.modPcb tpcb TcpPcb.abandon).record fun _ => s.unknownEffect tpcb p).logRet
        caller (some .ERR_ABRT)).setHolder (.lwip owner) := by
  rw [unknownConn, tcp_abort_eq s tpcb hnone, deferred_eq]
  simp [unknownEffect, record]

end Stack

/-- How lwIP starts a callback on the pcb of `c`: the label, who calls, the first
    section of the connection's code and what lwIP does to the pcb before. -/
inductive CbStart (pcb : TcpPcb) (c : ConnId) (owner : Option Tid) :
    Act → Caller → Stage → (TcpPcb → TcpPcb) → Prop where
  | recv (p : Pbuf) : CbStart pcb c owner (.recv c p) (.recv c (some p) owner) .receiveCheck
      fun pcb => { pcb with stream := pcb.stream ++ p.data }
  | recvFin : CbStart pcb c owner (.recvFin c) (.recv c none owner) .setLocalClosed
      fun pcb => { pcb with finReported := true }
  | refused {p : Pbuf} (hrefused : pcb.refused_data = some p) :
      CbStart pcb c owner (.refused c) (.recv c (some p) owner) .receiveCheck TcpPcb.takeRefused
  | sent : CbStart pcb c owner (.sent c) (.sent c owner) .isClosed id
  | poll : CbStart pcb c owner (.poll c) (.poll c owner) .isClosed id

/-- The sections of the code that holds `lwipMutex` which only move on. -/
inductive TaskMove (s : Stack) (k : Task) : Stage → Stage → Prop where
  | receiveOk
      (hstate : (s.conns k.conn).state = .tcpConnected ∨ (s.conns k.conn).state = .tcpWriteClosed) :
      TaskMove s k .receiveCheck .pipeStart
  | receiveConn
      (hstate : (s.conns k.conn).state = .tcpNewConn ∨ (s.conns k.conn).state = .tcpConnecting) :
      TaskMove s k .receiveCheck (.ret (some .LWIP_ERR_CONN))
  | receiveClsd
      (hstate : (s.conns k.conn).state = .tcpAborting ∨ (s.conns k.conn).state = .tcpClosed ∨
        (s.conns k.conn).state = .tcpReceiveClosed ∨ (s.conns k.conn).state = .tcpClosing) :
      TaskMove s k .receiveCheck (.ret (some .LWIP_ERR_CLSD))
  | pipeClosed (hdone : (s.conns k.conn).pipeDone = true) :
      TaskMove s k .pipeStart (.ret (some .LWIP_ERR_CLSD))
  | pipeOpen (hdone : (s.conns k.conn).pipeDone = false) :
      TaskMove s k .pipeStart (.pipeWrite (Stack.taskData k) 0)
  | pipeBroken {rest : List UInt8} {n : Nat} (hdone : (s.conns k.conn).pipeDone = true) :
      TaskMove s k (.pipeWrite rest n) (.ret (some .LWIP_ERR_CLSD))
  | isClosed (hstate : (s.conns k.conn).state = .tcpClosed) : TaskMove s k .isClosed (.ret none)
  | notClosed (hstate : (s.conns k.conn).state ≠ .tcpClosed) : TaskMove s k .isClosed .checkClosing
  | notClosing (hstate : (s.conns k.conn).state ≠ .tcpClosing) :
      TaskMove s k .checkClosing .checkAborting
  | notAborting (hstate : (s.conns k.conn).state ≠ .tcpAborting) :
      TaskMove s k .checkAborting .broadcast

/-- The sections of a goroutine that only move on. -/
inductive ProcMove (s : Stack) (t : Tid) : Act → Proc → Proc → Prop where
  | call {op : Call} (haccepted : op.conn < s.accepted)
      (hstarted : (s.conns op.conn).started = true ∨ op = .abort op.conn) :
      ProcMove s t (.call t op) .idle op.start
  | handledNil {c : ConnId} : ProcMove s t (.handled t true) (.handle c) (.connected c)
  | handledErr {c : ConnId} : ProcMove s t (.handled t false) (.handle c) (.abort c)
  | notConnecting {c : ConnId} (hstate : (s.conns c).state ≠ .tcpConnecting) :
      ProcMove s t (.run t) (.connected c) .idle
  | writeCheck {c : ConnId} {data : List UInt8} {n : Nat}
      (hcheck : (s.conns c).state.writeCheck = none) :
      ProcMove s t (.run t) (.write c .check data n) (.write c .lwip data n)
  | closeAgain {c : ConnId} : ProcMove s t (.run t) (.close c) .idle
  | readCheck {c : ConnId} {len : Nat} (hcheck : (s.conns c).state.readCheck = none) :
      ProcMove s t (.run t) (.read c len) (.readPipe c len)
  | readOpen {c : ConnId} {len : Nat} (hdone : (s.conns c).pipeDone = false) :
      ProcMove s t (.run t) (.readPipe c len) (.readBlocked c len)

/-- The sections of a goroutine on its connection, without `lwipMutex`. -/
inductive ConnMove (s : Stack) (t : Tid) (c : ConnId) :
    Proc → Proc → (TcpConn → TcpConn) → Prop where
  | connected (hstate : (s.conns c).state = .tcpConnecting) :
      ConnMove s t c (.connected c) (.refused c) fun conn => { conn with state := .tcpConnected }
  | abort : ConnMove s t c (.abort c) (.abortLwip c) fun conn =>
      { conn with state := conn.state.abort }
  | writeLock {data : List UInt8} {n : Nat} (hfree : (s.conns c).canWriteL = none) :
      ConnMove s t c (.write c .lock data n) (.write c .check data n) fun conn =>
        { conn with canWriteL := some t }
  | writeAll {n : Nat} :
      ConnMove s t c (.write c .check [] n) (.wrote c n none) fun conn =>
        { conn with canWriteL := none }
  | writeRefused {data : List UInt8} {n : Nat} {e : GoError}
      (hcheck : (s.conns c).state.writeCheck = some e) :
      ConnMove s t c (.write c .check data n) (.wrote c n (some e)) fun conn =>
        { conn with canWriteL := none }
  | writeWait {data : List UInt8} {n : Nat} :
      ConnMove s t c (.write c .wait data n) (.write c .waiting data n) fun conn =>
        { conn with canWriteL := none }
  | writeWoken {data : List UInt8} {n : Nat} (hfree : (s.conns c).canWriteL = none) :
      ConnMove s t c (.write c .woken data n) (.write c .check data n) fun conn =>
        { conn with canWriteL := some t }
  | closeWriteAgain {byClose : Bool} (hnone : (s.conns c).state.closeWrite = none) :
      ConnMove s t c (.closeWrite c byClose) .idle
        fun conn => { conn with closeOnce := if byClose then .done else conn.closeOnce }
  | closeWrite {byClose : Bool} {st : TcpConnState}
      (hstate : (s.conns c).state.closeWrite = some st) :
      ConnMove s t c (.closeWrite c byClose) (.shutdown c byClose) fun conn =>
        { conn with state := st }
  | closeRead : ConnMove s t c (.closeRead c) .idle fun conn =>
      { conn with sndPipeReaderClosed := true }
  | close (honce : (s.conns c).closeOnce = .fresh) :
      ConnMove s t c (.close c) (.closeWrite c true)
        fun conn => { conn with closeOnce := .running, sndPipeReaderClosed := true }
  | readErr {len : Nat} {e : GoError} (hcheck : (s.conns c).state.readCheck = some e) :
      ConnMove s t c (.read c len) .idle fun conn =>
        { conn with readEOF := conn.readEOF || e = .EOF }
  | readDone {len : Nat} (hdone : (s.conns c).pipeDone = true) :
      ConnMove s t c (.readPipe c len) .idle fun conn => { conn with readEOF := true }
  | readBroken {len : Nat} (hdone : (s.conns c).pipeDone = true) :
      ConnMove s t c (.readBlocked c len) .idle fun conn => { conn with readEOF := true }

/-- The sections of a goroutine under `lwipMutex` that run no callback. -/
inductive PcbMove (s : Stack) (t : Tid) (c : ConnId) :
    Act → Proc → Proc → (TcpPcb → TcpPcb) → (TcpConn → TcpConn) → Prop where
  | noRefused (hrefused : (s.pcbs c).refused_data = none) :
      PcbMove s t c (.run t) (.refused c) .idle (fun pcb => pcb.use .refused_data) id
  | writeFull {data : List UInt8} {n : Nat} {snd_buf : UInt16} {res : ErrT}
      (hzero : min data.length snd_buf.toNat = 0) :
      PcbMove s t c (.write t snd_buf res) (.write c .lwip data n) (.write c .wait data n)
        (fun pcb => pcb.use .snd_buf) id
  | writeLast {data : List UInt8} {n : Nat} {snd_buf : UInt16}
      (hpos : min data.length snd_buf.toNat ≠ 0)
      (hrest : data.drop (min data.length snd_buf.toNat) = []) :
      PcbMove s t c (.write t snd_buf .ERR_OK) (.write c .lwip data n)
        (.wrote c (n + min data.length snd_buf.toNat) none)
        (fun pcb => (pcb.use .snd_buf).tcp_write (data.take (min data.length snd_buf.toNat)))
        fun conn => { conn with canWriteL := none }
  | writePart {data : List UInt8} {n : Nat} {snd_buf : UInt16}
      (hpos : min data.length snd_buf.toNat ≠ 0)
      (hrest : data.drop (min data.length snd_buf.toNat) ≠ []) :
      PcbMove s t c (.write t snd_buf .ERR_OK) (.write c .lwip data n)
        (.write c .wait (data.drop (min data.length snd_buf.toNat))
          (n + min data.length snd_buf.toNat))
        (fun pcb => (pcb.use .snd_buf).tcp_write (data.take (min data.length snd_buf.toNat))) id
  | writeMem {data : List UInt8} {n : Nat} {snd_buf : UInt16}
      (hpos : min data.length snd_buf.toNat ≠ 0) :
      PcbMove s t c (.write t snd_buf .ERR_MEM) (.write c .lwip data n) (.write c .wait data n)
        (fun pcb => (pcb.use .snd_buf).use .tcp_write) id
  | writeErr {data : List UInt8} {n : Nat} {snd_buf : UInt16} {res : ErrT}
      (hpos : min data.length snd_buf.toNat ≠ 0) (hres : res ≠ .ERR_OK ∧ res ≠ .ERR_MEM) :
      PcbMove s t c (.write t snd_buf res) (.write c .lwip data n)
        (.wrote c n (some (.tcpWriteFailed res)))
        (fun pcb => (pcb.use .snd_buf).use .tcp_write) fun conn => { conn with canWriteL := none }
  | shutdown {byClose finSent : Bool} :
      PcbMove s t c (.shutdown t finSent) (.shutdown c byClose) .idle
        (fun pcb => pcb.shutdownTx finSent)
        fun conn => { conn with closeOnce := if byClose then .done else conn.closeOnce }

/-- The pbuf that lwIP handed to the callback. -/
def Caller.pbuf : Caller → Option Pbuf
  | .recv _ p _ => p
  | _ => none

/-- Everything a step of the machine can do, with the guards it has passed. -/
inductive Section (s : Stack) : Act → Stack → Prop where
  | lwipLock (hholder : s.holder = .free) : Section s .lwipLock (s.setHolder (.lwip none))
  | lwipUnlock (hholder : s.holder = .lwip none) : Section s .lwipUnlock (s.setHolder .free)
  | procUnlock {t : Tid} (hholder : s.holder = .lwip (some t)) :
      Section s .lwipUnlock ((s.setHolder .free).setProc t .idle)
  | accept {key : UInt32} {owner : Option Tid} (hholder : s.holder = .lwip owner) :
      Section s (.accept key)
        { s with
          accepted := s.accepted + 1
          conns := Function.update s.conns s.accepted (newConn key)
          pcbs := Function.update s.pcbs s.accepted newPcb
          tcpConns := Function.update s.tcpConns key (some s.accepted)
          holder := .accept s.accepted owner }
  | acceptDone {t : Tid} {c : ConnId} {owner : Option Tid} (hholder : s.holder = .accept c owner)
      (hidle : s.procs t = .idle) :
      Section s (.acceptDone t)
        (((s.modConn c fun conn => { conn with state := .tcpConnecting, started := true }).setProc t
          (.handle c)).setHolder (.lwip owner))
  | cbFound {a : Act} {c found : ConnId} {owner : Option Tid} {caller : Caller} {stage : Stage}
      {f : TcpPcb → TcpPcb} (hcb : CbStart (s.pcbs c) c owner a caller stage f)
      (hholder : s.holder = .lwip owner) (hlive : s.live c) (hfound : s.lookup c = some found) :
      Section s a ((s.modPcb c f).setHolder (.task ⟨caller, found, stage⟩))
  | cbUnknown {a : Act} {c : ConnId} {owner : Option Tid} {caller : Caller} {stage : Stage}
      {f : TcpPcb → TcpPcb} (hcb : CbStart (s.pcbs c) c owner a caller stage f)
      (hholder : s.holder = .lwip owner) (hlive : s.live c) (hnone : s.lookup c = none) :
      Section s a
        (((((s.modPcb c f).modPcb c TcpPcb.abandon).record fun _ => s.unknownEffect c caller.pbuf).logRet
          caller (some .ERR_ABRT)).setHolder (.lwip owner))
  | procFound {t : Tid} {c found : ConnId} {p : Pbuf} (hproc : s.procs t = .refused c)
      (hholder : s.holder = .free) (hrefused : (s.pcbs c).refused_data = some p)
      (hfound : s.lookup c = some found) :
      Section s (.run t)
        (((s.modPcb c fun pcb =>
          ((pcb.use .refused_data).use .tcp_process_refused_data).takeRefused).setProc t
          (.processing c)).setHolder
          (.task ⟨.recv c (some p) (some t), found, .receiveCheck⟩))
  | procUnknown {t : Tid} {c : ConnId} {p : Pbuf} (hproc : s.procs t = .refused c)
      (hholder : s.holder = .free) (hrefused : (s.pcbs c).refused_data = some p)
      (hnone : s.lookup c = none) :
      Section s (.run t)
        ((((((s.modPcb c fun pcb =>
          ((pcb.use .refused_data).use .tcp_process_refused_data).takeRefused).setProc t
          (.processing c)).modPcb c TcpPcb.abandon).record fun _ => s.unknownEffect c (some p)).logRet
          (.recv c (some p) (some t)) (some .ERR_ABRT)).setHolder (.lwip (some t)))
  | errFound {c found : ConnId} {code : ErrT} {owner : Option Tid}
      (hholder : s.holder = .lwip owner) (hlive : s.live c) (hfound : s.lookup c = some found) :
      Section s (.err c code) ((s.modPcb c TcpPcb.abandon).Err found)
  | errUnknown {c : ConnId} {code : ErrT} {owner : Option Tid} (hholder : s.holder = .lwip owner)
      (hlive : s.live c) (hnone : s.lookup c = none) :
      Section s (.err c code) (s.modPcb c TcpPcb.abandon)
  | tcp {c : ConnId} {tcb : Tcb} {owner : Option Tid} (hholder : s.holder = .lwip owner) :
      Section s (.tcp c tcb) (s.modPcb c fun pcb => { pcb with tcb })
  | task {k : Task} {stage : Stage} (hholder : s.holder = .task k)
      (hmove : TaskMove s k k.stage stage) :
      Section s .task (s.goto k stage)
  | receiveErrored {k : Task} (hholder : s.holder = .task k) (hstage : k.stage = .receiveCheck)
      (hstate : (s.conns k.conn).state = .tcpErrored) :
      Section s .task ((s.abortInternal k.conn).goto k (.ret (some .LWIP_ERR_ABRT)))
  | recved {k : Task} {n : Nat} (hholder : s.holder = .task k) (hstage : k.stage = .recved n) :
      Section s .task ((s.tcp_recved k.conn n).goto k (.ret (some .LWIP_ERR_OK)))
  | localClosed {k : Task} (hholder : s.holder = .task k) (hstage : k.stage = .setLocalClosed) :
      Section s .task ((s.setLocalClosed k.conn).goto k .isClosed)
  | closing {k : Task} (hholder : s.holder = .task k) (hstage : k.stage = .checkClosing)
      (hstate : (s.conns k.conn).state = .tcpClosing) :
      Section s .task ((s.closeInternal k.conn).goto k (.ret (some .LWIP_ERR_OK)))
  | aborting {k : Task} (hholder : s.holder = .task k) (hstage : k.stage = .checkAborting)
      (hstate : (s.conns k.conn).state = .tcpAborting) :
      Section s .task ((s.abortInternal k.conn).goto k (.ret (some .LWIP_ERR_ABRT)))
  | broadcast {k : Task} (hholder : s.holder = .task k) (hstage : k.stage = .broadcast) :
      Section s .task ((s.broadcast k.conn).goto k (.ret (some .LWIP_ERR_OK)))
  | ret {k : Task} {e : Option LwipError} (hholder : s.holder = .task k)
      (hstage : k.stage = .ret e) :
      Section s .task (s.methodRet k e)
  | proc {a : Act} {t : Tid} {p' : Proc} (hmove : ProcMove s t a (s.procs t) p') :
      Section s a (s.setProc t p')
  | conn {t : Tid} {c : ConnId} {p' : Proc} {f : TcpConn → TcpConn}
      (hmove : ConnMove s t c (s.procs t) p' f) :
      Section s (.run t) ((s.modConn c f).setProc t p')
  | pcb {a : Act} {t : Tid} {c : ConnId} {p' : Proc} {f : TcpPcb → TcpPcb} {g : TcpConn → TcpConn}
      (hholder : s.holder = .free) (hmove : PcbMove s t c a (s.procs t) p' f g) :
      Section s a (((s.modPcb c f).modConn c g).setProc t p')
  | abortLwip {t : Tid} {c : ConnId} (hproc : s.procs t = .abortLwip c)
      (hholder : s.holder = .free) :
      Section s (.run t)
        ((s.setProc t (.abortCheck c)).setHolder (.task ⟨.abort t, c, .isClosed⟩))
  | pipe {t : Tid} {k : Task} {len : Nat} {rest : List UInt8} {n : Nat} {stage : Stage}
      (hholder : s.holder = .task k) (hstage : k.stage = .pipeWrite rest n)
      (hproc : s.procs t = .readBlocked k.conn len)
      (hnext : stage =
        if rest.drop (min len rest.length) = [] then .recved (n + min len rest.length)
        else .pipeWrite (rest.drop (min len rest.length)) (n + min len rest.length)) :
      Section s (.pipe t)
        ((((s.modConn k.conn fun conn =>
          { conn with readBytes := conn.readBytes ++ rest.take (min len rest.length) }).setProc t
          .idle).record fun e => { e with piped := e.piped + min len rest.length }).goto k stage)

/-- What `accept` does, as the only section with this label. -/
theorem Section.accept_eq {s s' : Stack} {key : UInt32} (hsec : Section s (.accept key) s') :
    ∃ owner, s.holder = .lwip owner ∧
      s' = { s with
        accepted := s.accepted + 1
        conns := Function.update s.conns s.accepted (newConn key)
        pcbs := Function.update s.pcbs s.accepted newPcb
        tcpConns := Function.update s.tcpConns key (some s.accepted)
        holder := .accept s.accepted owner } := by
  cases hsec with
  | accept hholder => exact ⟨_, hholder, rfl⟩
  | cbFound hcb _ _ _ | cbUnknown hcb _ _ _ => cases hcb
  | @proc _ t _ hmove =>
    generalize s.procs t = p at hmove
    cases hmove
  | @pcb _ t _ _ _ _ _ hmove =>
    generalize s.procs t = p at hmove
    cases hmove

namespace Stack

/-! ### Every step is one of these sections -/

@[simp] theorem modPcb_id (s : Stack) (c : ConnId) : s.modPcb c id = s := by
  simp [modPcb, Function.update_eq_self]

@[simp] theorem modConn_id (s : Stack) (c : ConnId) : s.modConn c id = s := by
  simp [modConn, Function.update_eq_self]

theorem modPcb_modPcb (s : Stack) (c : ConnId) (f g : TcpPcb → TcpPcb) :
    (s.modPcb c f).modPcb c g = s.modPcb c fun pcb => g (f pcb) := by
  simp [modPcb, Function.update_idem]

/-- A callback that lwIP starts ends at the lookup or goes on with the connection
    it found. -/
theorem callback_section {s : Stack} {a : Act} {c : ConnId} {owner : Option Tid} {caller : Caller}
    {stage : Stage} {f : TcpPcb → TcpPcb} (hcb : CbStart (s.pcbs c) c owner a caller stage f)
    (hholder : s.holder = .lwip owner) (hlive : s.live c) :
    Section s a (match s.lookup c with
      | none => (s.modPcb c f).unknownConn caller c caller.pbuf owner
      | some found => (s.modPcb c f).setHolder (.task ⟨caller, found, stage⟩)) := by
  cases hlookup : s.lookup c with
  | none =>
    have hsame : (s.modPcb c f).lookup c = none := hlookup
    simp only [unknownConn_eq hsame]
    exact .cbUnknown hcb hholder hlive hlookup
  | some found => exact .cbFound hcb hholder hlive hlookup

private theorem taskStep_section {s s' : Stack} {k : Task} (hholder : s.holder = .task k)
    (hstep : s.taskStep k = some s') : Section s .task s' := by
  unfold taskStep at hstep
  cases hstage : k.stage with
  | receiveCheck =>
    simp only [hstage, receiveCheck] at hstep
    cases hstate : (s.conns k.conn).state <;> simp only [hstate, Option.some.injEq] at hstep <;>
      subst hstep
    case tcpErrored => exact .receiveErrored hholder hstage hstate
    case tcpConnected | tcpWriteClosed =>
      exact .task hholder (hstage ▸ .receiveOk (by simp [hstate]))
    case tcpNewConn | tcpConnecting =>
      exact .task hholder (hstage ▸ .receiveConn (by simp [hstate]))
    all_goals exact .task hholder (hstage ▸ .receiveClsd (by simp [hstate]))
  | pipeStart =>
    simp only [hstage] at hstep
    cases hdone : (s.conns k.conn).pipeDone with
    | true =>
      simp only [hdone, if_true, Option.some.injEq] at hstep
      subst hstep
      exact .task hholder (hstage ▸ .pipeClosed hdone)
    | false =>
      simp only [hdone, Bool.false_eq_true, if_false, Option.some.injEq] at hstep
      subst hstep
      exact .task hholder (hstage ▸ .pipeOpen hdone)
  | pipeWrite rest n =>
    simp only [hstage, Option.ite_none_right_eq_some, Option.some.injEq] at hstep
    obtain ⟨hdone, rfl⟩ := hstep
    exact .task hholder (hstage ▸ .pipeBroken hdone)
  | recved n =>
    simp only [hstage, Option.some.injEq] at hstep
    subst hstep
    exact .recved hholder hstage
  | setLocalClosed =>
    simp only [hstage, Option.some.injEq] at hstep
    subst hstep
    exact .localClosed hholder hstage
  | isClosed =>
    simp only [hstage] at hstep
    split at hstep <;> simp only [Option.some.injEq] at hstep <;> subst hstep
    · exact .task hholder (hstage ▸ .isClosed ‹_›)
    · exact .task hholder (hstage ▸ .notClosed ‹_›)
  | checkClosing =>
    simp only [hstage, checkClosing] at hstep
    by_cases hstate : (s.conns k.conn).state = .tcpClosing
    · simp only [hstate, if_true, Option.some.injEq] at hstep
      subst hstep
      exact .closing hholder hstage hstate
    · simp only [hstate, if_false, Option.some.injEq] at hstep
      subst hstep
      exact .task hholder (hstage ▸ .notClosing hstate)
  | checkAborting =>
    simp only [hstage, checkAborting] at hstep
    by_cases hstate : (s.conns k.conn).state = .tcpAborting
    · simp only [hstate, if_true, Option.some.injEq] at hstep
      subst hstep
      exact .aborting hholder hstage hstate
    · simp only [hstate, if_false, Option.some.injEq] at hstep
      subst hstep
      exact .task hholder (hstage ▸ .notAborting hstate)
  | broadcast =>
    simp only [hstage, Option.some.injEq] at hstep
    subst hstep
    exact .broadcast hholder hstage
  | ret e =>
    simp only [hstage, Option.some.injEq] at hstep
    subst hstep
    exact .ret hholder hstage

/-- The connect goroutine under `lwipMutex`. -/
theorem refused_section {s s' : Stack} {t : Tid} {c : ConnId} (hproc : s.procs t = .refused c)
    (hstep : s.procStep t = some s') : Section s (.run t) s' := by
  simp only [procStep, hproc] at hstep
  split at hstep
  · rename_i hholder
    cases hrefused : (s.pcbs c).refused_data with
    | none =>
      simp only [hrefused, Option.some.injEq] at hstep
      subst hstep
      have hmove : PcbMove s t c (.run t) (s.procs t) .idle (fun pcb => pcb.use .refused_data) id :=
        hproc ▸ .noRefused hrefused
      simpa using Section.pcb hholder hmove
    | some p =>
      simp only [hrefused, Option.some.injEq, tcpRecvFn] at hstep
      subst hstep
      cases hlookup : s.lookup c with
      | none =>
        have hsame : ((s.modPcb c fun pcb =>
            ((pcb.use .refused_data).use .tcp_process_refused_data).takeRefused).setProc t
              (.processing c)).lookup c = none := hlookup
        simp only [hsame, unknownConn_eq hsame]
        exact .procUnknown hproc hholder hrefused hlookup
      | some found =>
        have hsame : ((s.modPcb c fun pcb =>
            ((pcb.use .refused_data).use .tcp_process_refused_data).takeRefused).setProc t
              (.processing c)).lookup c = some found := hlookup
        simp only [hsame]
        exact .procFound hproc hholder hrefused hlookup
  · cases hstep

/-- `Write` before and after its section under `lwipMutex`. -/
theorem write_section {s s' : Stack} {t : Tid} {c : ConnId} {pos : WriteAt} {data : List UInt8}
    {n : Nat} (hproc : s.procs t = .write c pos data n) (hstep : s.procStep t = some s') :
    Section s (.run t) s' := by
  simp only [procStep, hproc] at hstep
  cases pos with
  | lock =>
    simp only [Option.ite_none_right_eq_some, Option.some.injEq] at hstep
    obtain ⟨hfree, rfl⟩ := hstep
    exact .conn (hproc ▸ .writeLock hfree)
  | check =>
    cases data with
    | nil =>
      simp only [if_true, Option.some.injEq] at hstep
      subst hstep
      exact .conn (hproc ▸ .writeAll)
    | cons b rest =>
      cases hcheck : (s.conns c).state.writeCheck with
      | none =>
        simp only [hcheck, reduceCtorEq, if_false, Option.some.injEq] at hstep
        subst hstep
        exact .proc (hproc ▸ .writeCheck hcheck)
      | some e =>
        simp only [hcheck, reduceCtorEq, if_false, Option.some.injEq] at hstep
        subst hstep
        exact .conn (hproc ▸ .writeRefused hcheck)
  | lwip => cases hstep
  | wait =>
    simp only [Option.some.injEq] at hstep
    subst hstep
    exact .conn (hproc ▸ .writeWait)
  | waiting => cases hstep
  | woken =>
    simp only [Option.ite_none_right_eq_some, Option.some.injEq] at hstep
    obtain ⟨hfree, rfl⟩ := hstep
    exact .conn (hproc ▸ .writeWoken hfree)

/-- `Read` at its three places. -/
theorem readPipe_section {s s' : Stack} {t : Tid} {c : ConnId} {len : Nat}
    (hproc : s.procs t = .readPipe c len) (hstep : s.procStep t = some s') :
    Section s (.run t) s' := by
  simp only [procStep, hproc] at hstep
  cases hdone : (s.conns c).pipeDone with
  | true =>
    simp only [hdone, if_true, Option.some.injEq] at hstep
    subst hstep
    exact .conn (hproc ▸ .readDone hdone)
  | false =>
    simp only [hdone, Bool.false_eq_true, if_false, Option.some.injEq] at hstep
    subst hstep
    exact .proc (hproc ▸ .readOpen hdone)

theorem procStep_section {s s' : Stack} {t : Tid} (hstep : s.procStep t = some s') :
    Section s (.run t) s' := by
  cases hproc : s.procs t with
  | idle | handle _ | processing _ | abortCheck _ | aborted _ | wrote _ _ _ | shutdown _ _ =>
    simp [procStep, hproc] at hstep
  | connected c =>
    simp only [procStep, hproc] at hstep
    split at hstep <;> simp only [Option.some.injEq] at hstep <;> subst hstep
    · exact .conn (hproc ▸ .connected ‹_›)
    · exact .proc (hproc ▸ .notConnecting ‹_›)
  | refused c => exact refused_section hproc hstep
  | abort c =>
    simp only [procStep, hproc, Option.some.injEq] at hstep
    subst hstep
    exact .conn (hproc ▸ .abort)
  | abortLwip c =>
    simp only [procStep, hproc, Option.ite_none_right_eq_some, Option.some.injEq] at hstep
    obtain ⟨hholder, rfl⟩ := hstep
    exact .abortLwip hproc hholder
  | write c pos data n => exact write_section hproc hstep
  | closeWrite c byClose =>
    cases hstate : (s.conns c).state.closeWrite with
    | none =>
      simp only [procStep, hproc, hstate, closeWriteDone, Option.some.injEq] at hstep
      subst hstep
      exact .conn (hproc ▸ .closeWriteAgain hstate)
    | some st =>
      simp only [procStep, hproc, hstate, Option.some.injEq] at hstep
      subst hstep
      exact .conn (hproc ▸ .closeWrite hstate)
  | closeRead c =>
    simp only [procStep, hproc, Option.some.injEq] at hstep
    subst hstep
    exact .conn (hproc ▸ .closeRead)
  | close c =>
    cases honce : (s.conns c).closeOnce with
    | fresh =>
      simp only [procStep, hproc, honce, Option.some.injEq] at hstep
      subst hstep
      exact .conn (hproc ▸ .close honce)
    | running => simp [procStep, hproc, honce] at hstep
    | done =>
      simp only [procStep, hproc, honce, Option.some.injEq] at hstep
      subst hstep
      exact .proc (hproc ▸ .closeAgain)
  | read c len =>
    cases hcheck : (s.conns c).state.readCheck with
    | none =>
      simp only [procStep, hproc, hcheck, Option.some.injEq] at hstep
      subst hstep
      exact .proc (hproc ▸ .readCheck hcheck)
    | some e =>
      simp only [procStep, hproc, hcheck, Option.some.injEq] at hstep
      subst hstep
      exact .conn (hproc ▸ .readErr hcheck)
  | readPipe c len => exact readPipe_section hproc hstep
  | readBlocked c len =>
    simp only [procStep, hproc, Option.ite_none_right_eq_some, Option.some.injEq] at hstep
    obtain ⟨hdone, rfl⟩ := hstep
    exact .conn (hproc ▸ .readBroken hdone)

/-- The section of `Write` under `lwipMutex`. -/
theorem writeSection_section {s : Stack} {t : Tid} {c : ConnId} {data : List UInt8} {n : Nat}
    {snd_buf : UInt16} {res : ErrT} (hproc : s.procs t = .write c .lwip data n)
    (hholder : s.holder = .free) :
    Section s (.write t snd_buf res) (s.writeSection t c data n snd_buf res) := by
  have hmove {p' : Proc} {f : TcpPcb → TcpPcb} {g : TcpConn → TcpConn}
      (h : PcbMove s t c (.write t snd_buf res) (.write c .lwip data n) p' f g) :
      Section s (.write t snd_buf res) (((s.modPcb c f).modConn c g).setProc t p') :=
    .pcb hholder (hproc ▸ h)
  unfold writeSection
  by_cases hzero : min data.length snd_buf.toNat = 0
  · simp only [hzero, if_true]
    simpa using hmove (.writeFull hzero)
  · simp only [hzero, if_false]
    cases res with
    | ERR_OK =>
      by_cases hrest : data.drop (min data.length snd_buf.toNat) = []
      · simp only [hrest, if_true, unlockWrite, modPcb_modPcb]
        exact hmove (.writeLast hzero hrest)
      · simp only [hrest, if_false, modPcb_modPcb]
        simpa using hmove (.writePart hzero hrest)
    | ERR_MEM =>
      simp only [modPcb_modPcb]
      simpa using hmove (.writeMem hzero)
    | _ =>
      simp only [unlockWrite, modPcb_modPcb]
      exact hmove (.writeErr hzero ⟨by simp, by simp⟩)

theorem pipeTransfer_section {s s' : Stack} {t : Tid} (hstep : s.pipeTransfer t = some s') :
    Section s (.pipe t) s' := by
  unfold pipeTransfer at hstep
  split at hstep
  · rename_i k c len hholder hproc
    cases hstage : k.stage with
    | pipeWrite rest n =>
      simp only [hstage, Option.ite_none_right_eq_some, Option.some.injEq] at hstep
      obtain ⟨rfl, rfl⟩ := hstep
      exact .pipe hholder hstage hproc rfl
    | _ => simp [hstage] at hstep
  · cases hstep

/-- The guard of every callback: lwIP runs, and the pcb is there. -/
private theorem of_lwip_live {s s' : Stack} {c : ConnId} {next : Option Tid → Stack}
    (hstep : (match s.holder with
      | .lwip owner => if s.live c then some (next owner) else none
      | _ => none) = some s') :
    ∃ owner, s.holder = .lwip owner ∧ s.live c ∧ next owner = s' := by
  split at hstep
  · simp only [Option.ite_none_right_eq_some, Option.some.injEq] at hstep
    exact ⟨_, ‹_›, hstep⟩
  · cases hstep

/-- The whole machine: a step is one of the sections above. -/
theorem step_section {s s' : Stack} {a : Act} (hstep : s.step a = some s') : Section s a s' := by
  cases a with
  | lwipLock =>
    simp only [step, Option.ite_none_right_eq_some, Option.some.injEq] at hstep
    obtain ⟨hholder, rfl⟩ := hstep
    exact .lwipLock hholder
  | lwipUnlock =>
    simp only [step] at hstep
    split at hstep <;> cases hstep
    · exact .lwipUnlock ‹_›
    · exact .procUnlock ‹_›
  | accept key =>
    simp only [step] at hstep
    split at hstep <;> cases hstep
    exact .accept ‹_›
  | acceptDone t =>
    simp only [step] at hstep
    split at hstep
    · simp only [Option.ite_none_right_eq_some, Option.some.injEq] at hstep
      obtain ⟨hidle, rfl⟩ := hstep
      exact .acceptDone ‹_› hidle
    · cases hstep
  | recv c p =>
    obtain ⟨owner, hholder, hlive, rfl⟩ := of_lwip_live hstep
    exact callback_section (.recv p) hholder hlive
  | recvFin c =>
    obtain ⟨owner, hholder, hlive, rfl⟩ := of_lwip_live hstep
    exact callback_section .recvFin hholder hlive
  | refused c =>
    simp only [step] at hstep
    split at hstep
    · simp only [Option.ite_none_right_eq_some, Option.some.injEq] at hstep
      obtain ⟨hlive, rfl⟩ := hstep
      exact callback_section (.refused ‹_›) ‹_› hlive
    · cases hstep
  | sent c =>
    obtain ⟨owner, hholder, hlive, rfl⟩ := of_lwip_live hstep
    have hsection := callback_section .sent hholder hlive
    simp only [modPcb_id] at hsection
    exact hsection
  | poll c =>
    obtain ⟨owner, hholder, hlive, rfl⟩ := of_lwip_live hstep
    have hsection := callback_section .poll hholder hlive
    simp only [modPcb_id] at hsection
    exact hsection
  | err c code =>
    obtain ⟨owner, hholder, hlive, rfl⟩ := of_lwip_live hstep
    cases hlookup : s.lookup c with
    | none =>
      have hsame : (s.modPcb c TcpPcb.abandon).lookup c = none := hlookup
      rw [lookup] at hsame
      simp only [tcpErrFn, hsame]
      exact .errUnknown hholder hlive hlookup
    | some found =>
      have hsame : (s.modPcb c TcpPcb.abandon).lookup c = some found := hlookup
      rw [lookup] at hsame
      simp only [tcpErrFn, hsame]
      exact .errFound hholder hlive hlookup
  | tcp c tcb =>
    simp only [step] at hstep
    split at hstep <;> cases hstep
    exact .tcp ‹_›
  | task =>
    simp only [step] at hstep
    split at hstep
    · exact taskStep_section ‹_› hstep
    · cases hstep
  | call t op =>
    simp only [step, Option.ite_none_right_eq_some, Option.some.injEq] at hstep
    obtain ⟨⟨hidle, haccepted, hstarted⟩, rfl⟩ := hstep
    exact .proc (hidle ▸ .call haccepted hstarted)
  | handled t nilErr =>
    simp only [step] at hstep
    split at hstep
    · rename_i c hproc
      cases hstep
      cases nilErr
      · exact .proc (hproc ▸ .handledErr)
      · exact .proc (hproc ▸ .handledNil)
    · cases hstep
  | write t snd_buf res =>
    simp only [step] at hstep
    split at hstep
    · simp only [Option.ite_none_right_eq_some, Option.some.injEq] at hstep
      obtain ⟨hholder, rfl⟩ := hstep
      exact writeSection_section ‹_› hholder
    · cases hstep
  | shutdown t finSent =>
    simp only [step] at hstep
    split at hstep
    · rename_i c byClose hproc
      simp only [Option.ite_none_right_eq_some, Option.some.injEq] at hstep
      obtain ⟨hholder, rfl⟩ := hstep
      exact .pcb hholder (hproc ▸ .shutdown)
    · cases hstep
  | run t => exact procStep_section hstep
  | pipe t => exact pipeTransfer_section hstep

end Stack

end tun2proxy.core
