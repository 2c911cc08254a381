import Tun2Proxy.Tcp.Section

namespace tun2proxy.core

/-- The changes of one connection's state that do not release it. -/
inductive StateMove (s : Stack) (a : Act) (c : ConnId) : TcpConnState → TcpConnState → Prop where
  | same {st : TcpConnState} : StateMove s a c st st
  | connecting {st : TcpConnState} {t : Tid} {owner : Option Tid} (hact : a = .acceptDone t)
      (hholder : s.holder = .accept c owner) : StateMove s a c st .tcpConnecting
  | connected : StateMove s a c .tcpConnecting .tcpConnected
  | abort {st : TcpConnState} : StateMove s a c st st.abort
  | closeWrite {st st' : TcpConnState} (hstate : st.closeWrite = some st') : StateMove s a c st st'
  | localClosing : StateMove s a c .tcpWriteClosed .tcpClosing
  | localClosed {st : TcpConnState} (hlt : st < .tcpReceiveClosed) :
      StateMove s a c st .tcpReceiveClosed

/-- Why a step released connection `c`, ending the pcb of `tpcb`: lwIP called the
    err callback, or a check of the code that holds `lwipMutex` did it. -/
inductive ReleaseCause (s : Stack) : Act → (c tpcb : ConnId) → Prop where
  | err {c tpcb : ConnId} {code : ErrT} (hlive : s.live tpcb) (hfound : s.lookup tpcb = some c) :
      ReleaseCause s (.err tpcb code) c tpcb
  | task {k : Task} (hholder : s.holder = .task k)
      (hstage : (k.stage = .receiveCheck ∧ (s.conns k.conn).state = .tcpErrored) ∨
        (k.stage = .checkClosing ∧ (s.conns k.conn).state = .tcpClosing) ∨
        (k.stage = .checkAborting ∧ (s.conns k.conn).state = .tcpAborting)) :
      ReleaseCause s .task k.conn k.conn

/-- What a step does to the life of the connections: which of them are accepted,
    how they are registered, in which states they are and which pcbs are gone. -/
inductive Life (s : Stack) (a : Act) (s' : Stack) : Prop where
  | keep (haccepted : s'.accepted = s.accepted) (htcpConns : s'.tcpConns = s.tcpConns)
      (hkey : ∀ c, (s'.conns c).connKey = (s.conns c).connKey)
      (hmove : ∀ c, StateMove s a c (s.conns c).state (s'.conns c).state)
      (hgone : ∀ c, (s'.pcbs c).gone = (s.pcbs c).gone)
  | accept (key : UInt32) (hact : a = .accept key) (haccepted : s'.accepted = s.accepted + 1)
      (htcpConns : s'.tcpConns = Function.update s.tcpConns key (some s.accepted))
      (hconns : s'.conns = Function.update s.conns s.accepted (newConn key))
      (hpcbs : s'.pcbs = Function.update s.pcbs s.accepted newPcb)
  -- a callback or the err callback for a pcb that has no connection
  | unknown (tpcb : ConnId) (hnone : s.lookup tpcb = none)
      (htpcb : s.live tpcb ∨ ∃ t p, s.procs t = .refused tpcb ∧ (s.pcbs tpcb).refused_data = some p)
      (haccepted : s'.accepted = s.accepted) (htcpConns : s'.tcpConns = s.tcpConns)
      (hconns : s'.conns = s.conns)
      (hgone : ∀ c, (s'.pcbs c).gone = if c = tpcb then true else (s.pcbs c).gone)
  | release (c tpcb : ConnId) (st : TcpConnState) (hreleased : st.released)
      (hcause : ReleaseCause s a c tpcb)
      (haccepted : s'.accepted = s.accepted)
      (htcpConns : s'.tcpConns = Function.update s.tcpConns (s.conns c).connKey none)
      (hkey : ∀ c', (s'.conns c').connKey = (s.conns c').connKey)
      (hstate : ∀ c', (s'.conns c').state = if c' = c then st else (s.conns c').state)
      (hgone : ∀ c', (s'.pcbs c').gone = if c' = tpcb then true else (s.pcbs c').gone)

namespace Life

/-- Steps that touch neither the connections nor the registry. -/
theorem of_eq {s s' : Stack} {a : Act} (haccepted : s'.accepted = s.accepted)
    (htcpConns : s'.tcpConns = s.tcpConns) (hconns : s'.conns = s.conns)
    (hgone : ∀ c, (s'.pcbs c).gone = (s.pcbs c).gone) : Life s a s' :=
  .keep haccepted htcpConns (fun c => by rw [hconns]) (fun c => by rw [hconns]; exact .same) hgone

/-- Steps that change one connection, but not its key. -/
theorem of_modConn {s s' : Stack} {a : Act} (c : ConnId) (f : TcpConn → TcpConn)
    (haccepted : s'.accepted = s.accepted) (htcpConns : s'.tcpConns = s.tcpConns)
    (hconns : s'.conns = (s.modConn c f).conns)
    (hkey : (f (s.conns c)).connKey = (s.conns c).connKey)
    (hmove : StateMove s a c (s.conns c).state (f (s.conns c)).state)
    (hgone : ∀ c, (s'.pcbs c).gone = (s.pcbs c).gone) : Life s a s' := by
  refine .keep haccepted htcpConns (fun c' => ?_) (fun c' => ?_) hgone
  · rw [hconns, Stack.modConn_conns]
    split
    · rename_i heq
      rw [hkey, heq]
    · rfl
  · rw [hconns, Stack.modConn_conns]
    split
    · rename_i heq
      rw [heq]
      exact hmove
    · exact .same

end Life

namespace TcpPcb

variable (p : TcpPcb)

@[simp] theorem use_gone (u : PcbUse) : (p.use u).gone = p.gone := by unfold use; split <;> rfl

@[simp] theorem abandon_gone : p.abandon.gone = true := by
  unfold abandon
  split
  · rw [use_gone]
    assumption
  · rfl

@[simp] theorem tcp_close_gone : p.tcp_close.gone = true := by
  unfold tcp_close
  split
  · rw [use_gone]
    assumption
  · rfl

@[simp] theorem shutdownRx_gone : p.shutdownRx.gone = p.gone := by
  unfold shutdownRx
  split
  · rw [use_gone]
  · rfl

@[simp] theorem shutdownTx_gone (finSent : Bool) : (p.shutdownTx finSent).gone = p.gone := by
  unfold shutdownTx
  split
  · rw [use_gone]
  · split
    · split <;> rfl
    · rfl

@[simp] theorem tcp_write_gone (data : List UInt8) : (p.tcp_write data).gone = p.gone := by
  unfold tcp_write
  split
  · rw [use_gone, use_gone]
  · rfl

@[simp] theorem takeRefused_gone : p.takeRefused.gone = p.gone := rfl

end TcpPcb

/-- A change of one pcb that does not end it. -/
theorem Stack.modPcb_gone {s : Stack} {c : ConnId} {f : TcpPcb → TcpPcb}
    (hf : (f (s.pcbs c)).gone = (s.pcbs c).gone) (c' : ConnId) :
    ((s.modPcb c f).pcbs c').gone = (s.pcbs c').gone := by
  rw [Stack.modPcb_pcbs]
  split
  · rename_i heq
    rw [hf, heq]
  · rfl

/-- No callback begins by freeing its pcb. -/
theorem CbStart.gone {pcb : TcpPcb} {c : ConnId} {owner : Option Tid} {a : Act} {caller : Caller}
    {stage : Stage} {f : TcpPcb → TcpPcb} (hcb : CbStart pcb c owner a caller stage f)
    (p : TcpPcb) :
    (f p).gone = p.gone := by
  cases hcb <;> rfl

/-- No section of a goroutine frees the pcb by itself. -/
theorem PcbMove.gone {s : Stack} {t : Tid} {c : ConnId} {a : Act} {p p' : Proc}
    {f : TcpPcb → TcpPcb} {g : TcpConn → TcpConn} (hmove : PcbMove s t c a p p' f g)
    (pcb : TcpPcb) : (f pcb).gone = pcb.gone := by
  cases hmove <;> simp

namespace Stack

private theorem release_tcpConns_eq (s : Stack) (c : ConnId) :
    (s.release c).tcpConns = Function.update s.tcpConns (s.conns c).connKey none := rfl

@[simp] theorem Err_accepted (s : Stack) (c : ConnId) : (s.Err c).accepted = s.accepted := rfl
@[simp] theorem Err_pcbs (s : Stack) (c : ConnId) : (s.Err c).pcbs = s.pcbs := rfl
@[simp] theorem Err_holder (s : Stack) (c : ConnId) : (s.Err c).holder = s.holder := rfl
@[simp] theorem Err_rets (s : Stack) (c : ConnId) : (s.Err c).rets = s.rets := rfl
@[simp] theorem Err_procs (s : Stack) (c : ConnId) (t : Tid) :
    (s.Err c).procs t = (s.procs t).wake c :=
  rfl

/-- `Err` takes its own key out of `tcpConns` and leaves the others. -/
theorem Err_tcpConns (s : Stack) (c : ConnId) :
    (s.Err c).tcpConns = Function.update s.tcpConns (s.conns c).connKey none := rfl

@[simp] theorem Err_conns (s : Stack) (c c' : ConnId) : (s.Err c).conns c' =
    if c' = c then { (s.release c).conns c with state := .tcpErrored } else s.conns c' := by
  simp only [Err, broadcast_conns, modConn_conns, release_conns]
  split <;> simp [*]

section
variable (s : Stack) (c c' : ConnId)

@[simp] theorem setLocalClosed_tcpConns : (s.setLocalClosed c).tcpConns = s.tcpConns := by
  unfold setLocalClosed; split <;> rfl
@[simp] theorem setLocalClosed_pcbs : (s.setLocalClosed c).pcbs = s.pcbs := by
  unfold setLocalClosed; split <;> rfl
@[simp] theorem setLocalClosed_effect : (s.setLocalClosed c).effect = s.effect := by
  unfold setLocalClosed; split <;> rfl
@[simp] theorem setLocalClosed_rets : (s.setLocalClosed c).rets = s.rets := by
  unfold setLocalClosed; split <;> rfl

/-- `setLocalClosed` changes nothing, or it closes the pipe and moves on. -/
theorem setLocalClosed_cases :
    (s.setLocalClosed c = s ∧
      ((s.conns c).state ≥ .tcpClosing ∨ (s.conns c).state = .tcpReceiveClosed)) ∨
    (s.setLocalClosed c = (s.modConn c fun conn =>
        { conn with
          sndPipeWriterClosed := true
          state :=
            if conn.state = .tcpWriteClosed then .tcpClosing else .tcpReceiveClosed }).broadcast c ∧
      (s.conns c).state < .tcpReceiveClosed) := by
  unfold setLocalClosed
  split
  · rename_i hclosed
    exact .inl ⟨rfl, hclosed⟩
  · rename_i hopen
    refine .inr ⟨rfl, ?_⟩
    revert hopen
    cases (s.conns c).state <;> decide

end

section
variable (s : Stack) (k : Task) (e : Option LwipError)

@[simp] theorem methodRet_accepted : (s.methodRet k e).accepted = s.accepted := by
  unfold methodRet recvRet; split <;> (try split) <;> rfl
@[simp] theorem methodRet_tcpConns : (s.methodRet k e).tcpConns = s.tcpConns := by
  unfold methodRet recvRet; split <;> (try split) <;> rfl
@[simp] theorem methodRet_conns : (s.methodRet k e).conns = s.conns := by
  unfold methodRet recvRet; split <;> (try split) <;> rfl

private theorem methodRet_gone (c : ConnId) : ((s.methodRet k e).pcbs c).gone = (s.pcbs c).gone := by
  unfold methodRet recvRet
  split
  · split <;> simp only [logRet_pcbs, deferred_pcbs, setHolder_pcbs]
    · rw [modPcb_gone rfl c, deferred_pcbs]
      rfl
    · exact (modPcb_gone (by simp) c).trans (modPcb_gone (TcpPcb.use_gone _ _) c)
  all_goals simp

/-- The return of a method ends the task. -/
theorem methodRet_not_task (k' : Task) : (s.methodRet k e).holder ≠ .task k' := by
  unfold methodRet recvRet
  split <;> (try split) <;> simp

/-- A method that returns does not go on in `tcpAcceptFn`. -/
theorem methodRet_not_accept (c : ConnId) (owner : Option Tid) :
    (s.methodRet k e).holder ≠ .accept c owner := by
  unfold methodRet recvRet
  split <;> (try split) <;> simp

end

end Stack

/-- No section changes the key of a connection. -/
theorem ConnMove.key {s : Stack} {t : Tid} {c : ConnId} {p p' : Proc} {f : TcpConn → TcpConn}
    (hmove : ConnMove s t c p p' f) (conn : TcpConn) : (f conn).connKey = conn.connKey := by
  cases hmove <;> rfl

/-- The state that a section leaves is one that `StateMove` allows. -/
theorem ConnMove.state {s : Stack} {t : Tid} {c : ConnId} {p p' : Proc} {f : TcpConn → TcpConn}
    (a : Act) (hmove : ConnMove s t c p p' f) :
    StateMove s a c (s.conns c).state (f (s.conns c)).state := by
  cases hmove with
  | connected hstate =>
    rw [hstate]
    exact .connected
  | abort => exact .abort
  | closeWrite hstate => exact .closeWrite hstate
  | _ => exact .same

/-- No call into lwIP changes the key of a connection. -/
theorem PcbMove.key {s : Stack} {t : Tid} {c : ConnId} {a : Act} {p p' : Proc} {f : TcpPcb → TcpPcb}
    {g : TcpConn → TcpConn} (hmove : PcbMove s t c a p p' f g) (conn : TcpConn) :
    (g conn).connKey = conn.connKey := by
  cases hmove <;> rfl

/-- No call into lwIP changes the state of a connection. -/
theorem PcbMove.state {s : Stack} {t : Tid} {c : ConnId} {a : Act} {p p' : Proc}
    {f : TcpPcb → TcpPcb} {g : TcpConn → TcpConn} (hmove : PcbMove s t c a p p' f g)
    (conn : TcpConn) :
    (g conn).state = conn.state := by
  cases hmove <;> rfl

/-- `closeInternal` and `abortInternal` release the connection. -/
theorem Life.of_release {s s' : Stack} {k : Task} (hcause : ReleaseCause s .task k.conn k.conn)
    (haccepted : s'.accepted = s.accepted) (htcpConns : s'.tcpConns = (s.release k.conn).tcpConns)
    (hconns : s'.conns = (s.release k.conn).conns)
    (hgone : ∀ c, (s'.pcbs c).gone = if c = k.conn then true else (s.pcbs c).gone) :
    Life s .task s' := by
  refine .release k.conn k.conn .tcpClosed (.inl rfl) hcause haccepted
    (htcpConns.trans (s.release_tcpConns_eq k.conn)) (fun c => ?_) (fun c => ?_) hgone
  · rw [hconns, Stack.release_conns]
    split <;> simp [*]
  · rw [hconns, Stack.release_conns]
    split <;> simp [*]

/-- The pcb of one connection ends. -/
theorem Stack.modPcb_gone_true {s : Stack} {c : ConnId} {f : TcpPcb → TcpPcb}
    (hf : (f (s.pcbs c)).gone = true) (c' : ConnId) :
    ((s.modPcb c f).pcbs c').gone = if c' = c then true else (s.pcbs c').gone := by
  rw [Stack.modPcb_pcbs]
  split
  · exact hf
  · rfl

/-- What a section does to the keys, the states and the pcbs of all connections. -/
theorem Section.life {s s' : Stack} {a : Act} (hsec : Section s a s') : Life s a s' := by
  cases hsec with
  | accept hholder => exact .accept _ rfl rfl rfl rfl rfl
  | @acceptDone t c owner hholder hidle =>
    exact .of_modConn c (fun conn => { conn with state := .tcpConnecting, started := true }) rfl rfl rfl rfl
      (.connecting rfl hholder) fun _ => rfl
  | cbFound hcb hholder hlive hfound => exact .of_eq rfl rfl rfl (Stack.modPcb_gone (hcb.gone _))
  | @cbUnknown a c owner caller stage f hcb hholder hlive hnone =>
    refine .unknown _ hnone (.inl hlive) rfl rfl rfl fun c' => ?_
    simp only [Stack.setHolder_pcbs, Stack.logRet_pcbs, Stack.record_pcbs, Stack.modPcb_modPcb]
    exact Stack.modPcb_gone_true (f := fun pcb => (f pcb).abandon) (TcpPcb.abandon_gone _) c'
  | procFound hproc hholder hrefused hfound =>
    refine .of_eq rfl rfl rfl fun c => ?_
    simp only [Stack.setHolder_pcbs, Stack.setProc_pcbs]
    exact Stack.modPcb_gone (by simp) c
  | procUnknown hproc hholder hrefused hnone =>
    refine .unknown _ hnone (.inr ⟨_, _, hproc, hrefused⟩) rfl rfl rfl fun c' => ?_
    simp only [Stack.setHolder_pcbs, Stack.logRet_pcbs, Stack.record_pcbs, Stack.modPcb_pcbs,
      Stack.setProc_pcbs]
    split
    · exact TcpPcb.abandon_gone _
    · rfl
  | @errFound c found code owner hholder hlive hfound =>
    refine .release found c .tcpErrored (.inr rfl) (.err hlive hfound) rfl
      (Stack.Err_tcpConns _ _) (fun c => ?_) (fun c => ?_) ?_
    · rw [Stack.Err_conns]
      split <;> simp [*]
    · rw [Stack.Err_conns]
      split <;> simp [*]
    · exact Stack.modPcb_gone_true (TcpPcb.abandon_gone _)
  | errUnknown hholder hlive hnone =>
    exact .unknown _ hnone (.inl hlive) rfl rfl rfl (Stack.modPcb_gone_true (TcpPcb.abandon_gone _))
  | tcp hholder => exact .of_eq rfl rfl rfl (Stack.modPcb_gone rfl)
  | receiveErrored hholder hstage hstate =>
    rw [Stack.abortInternal_eq]
    exact .of_release (.task hholder (.inl ⟨hstage, hstate⟩)) rfl rfl rfl
      (Stack.modPcb_gone_true (TcpPcb.abandon_gone _))
  | recved hholder hstage => exact .of_eq rfl rfl rfl (Stack.modPcb_gone (TcpPcb.use_gone _ _))
  | closing hholder hstage hstate =>
    exact .of_release (.task hholder (.inr (.inl ⟨hstage, hstate⟩))) rfl rfl rfl
      (Stack.modPcb_gone_true (TcpPcb.tcp_close_gone _))
  | aborting hholder hstage hstate =>
    rw [Stack.abortInternal_eq]
    exact .of_release (.task hholder (.inr (.inr ⟨hstage, hstate⟩))) rfl rfl rfl
      (Stack.modPcb_gone_true (TcpPcb.abandon_gone _))
  | @localClosed k hholder hstage =>
    obtain ⟨hsame, -⟩ | ⟨hclosed, hlt⟩ := s.setLocalClosed_cases k.conn
    · rw [hsame]
      exact .of_eq rfl rfl rfl fun _ => rfl
    · rw [hclosed]
      refine .of_modConn k.conn (fun conn => { conn with
        sndPipeWriterClosed := true
        state := if conn.state = .tcpWriteClosed then .tcpClosing else .tcpReceiveClosed })
        rfl rfl rfl rfl ?_ fun _ => rfl
      by_cases hwrite : (s.conns k.conn).state = .tcpWriteClosed
      · simp only [hwrite, if_true]
        exact .localClosing
      · simp only [hwrite, if_false]
        exact .localClosed hlt
  | ret hholder hstage => exact .of_eq (by simp) (by simp) (by simp) (Stack.methodRet_gone _ _ _)
  | conn hmove => exact .of_modConn _ _ rfl rfl rfl (hmove.key _) (hmove.state _) fun _ => rfl
  | pcb hholder hmove =>
    refine .of_modConn _ _ rfl rfl rfl (hmove.key _) ?_ (Stack.modPcb_gone (hmove.gone _))
    rw [hmove.state]
    exact .same
  | @pipe t k len rest n stage hholder hstage hproc hnext =>
    exact .of_modConn k.conn
      (fun conn => { conn with readBytes := conn.readBytes ++ rest.take (min len rest.length) })
      rfl rfl rfl rfl .same fun _ => rfl
  | _ => exact .of_eq rfl rfl rfl fun _ => rfl

end tun2proxy.core
