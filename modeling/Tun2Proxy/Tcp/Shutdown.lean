import Tun2Proxy.Tcp.Owned

open tun2proxy.machine tun2proxy.machine.Machine

namespace tun2proxy.core

/-- `CloseWrite`, `Abort` or a release has ended writing. -/
def TcpConnState.txClosed : TcpConnState → Bool
  | .tcpNewConn | .tcpConnecting | .tcpConnected | .tcpReceiveClosed => false
  | .tcpWriteClosed | .tcpClosing | .tcpAborting | .tcpClosed | .tcpErrored => true

/-- lwIP has enqueued no FIN. -/
def TcpState.txOpen : TcpState → Bool
  | .ESTABLISHED | .CLOSE_WAIT => true
  | .FIN_WAIT_1 | .FIN_WAIT_2 | .CLOSING | .LAST_ACK | .TIME_WAIT => false

/-- The calls on connection `c` that end in `tcp_shutdown`. -/
def Proc.shuts (c : ConnId) : Proc → Prop
  | .close c' => c' = c
  | .closeWrite c' _ => c' = c
  | .shutdown c' _ => c' = c
  | _ => False

/-- lwIP has sent a FIN for `c`, or will. -/
inductive Shutting (s : Stack) (c : ConnId) : Prop where
  | state (hstate : (s.pcbs c).tcb.state.txOpen = false)
  | closePend (hpend : (s.pcbs c).tcb.closePend = true)
  | shutdown (t : Tid) (byClose : Bool) (hproc : s.procs t = .shutdown c byClose)

/-- A FIN is sent only for connections that are closed for writing. -/
structure TxInv (s : Stack) : Prop where
  closed : ∀ c, c < s.accepted → Shutting s c → (s.conns c).state.txClosed = true
  started : ∀ t c, (s.procs t).shuts c → (s.conns c).started = true
  accept : ∀ c owner, s.holder = .accept c owner → (s.conns c).started = false ∧
    (s.pcbs c).tcb.state = .ESTABLISHED ∧ (s.pcbs c).tcb.closePend = false

/-- A change of lwIP's own fields that sends no new FIN. -/
structure TcbKeep (tcb tcb' : Tcb) : Prop where
  state : tcb'.state.txOpen = false → tcb.state.txOpen = false ∨ tcb.closePend = true
  closePend : tcb'.closePend = true → tcb.closePend = true

theorem TcbKeep.of_eq {tcb tcb' : Tcb} (hstate : tcb'.state = tcb.state)
    (hpend : tcb'.closePend = tcb.closePend) : TcbKeep tcb tcb' where
  state h := .inl (hstate ▸ h)
  closePend h := hpend ▸ h

private theorem Proc.conn_of_shuts {p : Proc} {c : ConnId} (hshuts : p.shuts c) : p.conn = some c := by
  cases p <;> simp_all [Proc.shuts, Proc.conn]

/-- A `Broadcast` starts and ends no such call. -/
theorem Proc.shuts_of_wake {c c' : ConnId} {p : Proc} (hshuts : (p.wake c').shuts c) :
    p.shuts c := by
  unfold Proc.wake at hshuts
  split at hshuts
  · exact hshuts.elim
  · exact hshuts

namespace TcpPcb

variable (p : TcpPcb)

@[simp] theorem use_tcb (u : PcbUse) : (p.use u).tcb = p.tcb := by unfold use; split <;> rfl

@[simp] theorem takeRefused_tcb : p.takeRefused.tcb = p.tcb := rfl

@[simp] theorem tcp_write_tcb (data : List UInt8) : (p.tcp_write data).tcb = p.tcb := by
  unfold tcp_write
  split
  · rw [use_tcb, use_tcb]
  · rfl

private theorem abandon_keep : TcbKeep p.tcb p.abandon.tcb := by
  unfold abandon
  split
  · rw [use_tcb]
    exact .of_eq rfl rfl
  · exact .of_eq rfl rfl

private theorem shutdownRx_keep : TcbKeep p.tcb p.shutdownRx.tcb := by
  unfold shutdownRx
  split
  · rw [use_tcb]
    exact .of_eq rfl rfl
  · exact .of_eq rfl rfl

end TcpPcb

theorem CbStart.tcb {pcb : TcpPcb} {c : ConnId} {owner : Option Tid} {a : Act} {caller : Caller}
    {stage : Stage} {f : TcpPcb → TcpPcb} (hcb : CbStart pcb c owner a caller stage f)
    (p : TcpPcb) :
    (f p).tcb = p.tcb := by
  cases hcb <;> rfl

private theorem TcpConnState.txClosed_abort (st : TcpConnState) : st.abort.txClosed = true := by
  cases st <;> decide

theorem TcpConnState.txClosed_closeWrite {st st' : TcpConnState} (h : st.closeWrite = some st') :
    st'.txClosed = true := by
  revert h
  cases st <;> cases st' <;> decide

/-- A connection that is closed for writing stays so, once `newTCPConn` is done. -/
theorem Section.txClosed {s s' : Stack} {a : Act} {c : ConnId} (hsec : Section s a s')
    (hc : c < s.accepted) (haccept : ∀ owner, s.holder ≠ .accept c owner)
    (hclosed : (s.conns c).state.txClosed = true) :
    (s'.conns c).state.txClosed = true := by
  have hstep := hsec.conns c
  generalize s'.conns c = conn' at hstep ⊢
  cases hstep with
  | same => exact hclosed
  | accept _ hnew => exact absurd hnew (Nat.ne_of_lt hc)
  | acceptDone hholder => exact absurd hholder (haccept _)
  | err _ _ _ => rfl
  | release _ _ _ =>
    rw [Stack.release_conns, if_pos rfl]
    rfl
  | localClosed _ _ _ hlt =>
    revert hlt hclosed
    simp only
    cases (s.conns c).state <;> decide
  | own hmove =>
    generalize s.procs _ = p at hmove
    cases hmove with
    | connected hstate =>
      rw [hstate] at hclosed
      cases hclosed
    | abort => exact TcpConnState.txClosed_abort _
    | closeWrite hstate => exact TcpConnState.txClosed_closeWrite hstate
    | _ => exact hclosed
  | pcb hmove =>
    rw [hmove.state]
    exact hclosed
  | pipe _ _ _ => exact hclosed

theorem Section.started {s s' : Stack} {a : Act} {c : ConnId} (hsec : Section s a s')
    (hc : c < s.accepted) (hstarted : (s.conns c).started = true) :
    (s'.conns c).started = true := by
  have hstep := hsec.conns c
  generalize s'.conns c = conn' at hstep ⊢
  cases hstep with
  | same | acceptDone _ | err _ _ _ | localClosed _ _ _ _ | pipe _ _ _ => simp [hstarted]
  | accept _ hnew => exact absurd hnew (Nat.ne_of_lt hc)
  | release _ _ _ => simp [hstarted]
  | own hmove =>
    generalize s.procs _ = p at hmove
    cases hmove <;> exact hstarted
  | pcb hmove =>
    generalize s.procs _ = p at hmove
    cases hmove <;> exact hstarted

/-- Handlers close the write side only of connections that they know. -/
theorem Section.shuts_started {s s' : Stack} {a : Act} (hsec : Section s a s') (hbounds : Bounds s)
    (hinv : ∀ t c, (s.procs t).shuts c → (s.conns c).started = true) (t : Tid) (c : ConnId)
    (hshuts : (s'.procs t).shuts c) : (s'.conns c).started = true := by
  have hc := hbounds.procs_step hsec t c (Proc.conn_of_shuts hshuts)
  have hbefore (h : (s.procs t).shuts c) : (s'.conns c).started = true :=
    hsec.started hc (hinv t c h)
  have hstep := hsec.procs t
  generalize hp' : s'.procs t = p' at hstep hshuts
  generalize hp : s.procs t = p at hstep hbefore
  cases hstep with
  | same => exact hbefore hshuts
  | woken c' => exact hbefore (Proc.shuts_of_wake hshuts)
  | own hown =>
    cases hown with
    | proc hmove =>
      cases hmove with
      | @call op _ hstarted =>
        cases op with
        | closeWrite c' | close c' =>
          obtain rfl : c' = c := hshuts
          obtain h | h := hstarted
          · exact hsec.started hc h
          · cases h
        | _ => exact hshuts.elim
      | _ => exact hshuts.elim
    | conn _ hmove hconn =>
      cases hmove with
      | closeWrite _ => exact hbefore hshuts
      | close _ => exact hbefore hshuts
      | _ => exact hshuts.elim
    | pcb _ hmove => cases hmove <;> exact hshuts.elim
    | _ => exact hshuts.elim

/-- Until `newTCPConn` is done, the handler does not know its connection. -/
theorem Section.accept_started {s s' : Stack} {a : Act} (hsec : Section s a s')
    (hinv : ∀ c owner, s.holder = .accept c owner → (s.conns c).started = false) (c : ConnId)
    (owner : Option Tid) (hc : s'.holder = .accept c owner) : (s'.conns c).started = false := by
  cases hsec with
  | accept hholder =>
    cases hc
    simp [newConn]
  | proc hmove => exact hinv c owner hc
  | @conn t c' p' f hmove =>
    have hstarted (conn : TcpConn) : (f conn).started = conn.started := by
      generalize s.procs t = p at hmove
      cases hmove <;> rfl
    simp only [Stack.setProc_conns, Stack.modConn_conns]
    split
    · rename_i heq
      rw [hstarted, ← heq]
      exact hinv c owner hc
    · exact hinv c owner hc
  | errFound hholder _ _ | errUnknown hholder _ _ | tcp hholder | pcb hholder _ =>
    cases hholder.symm.trans hc
  | ret _ _ => exact absurd hc (Stack.methodRet_not_accept _ _ _ _ _)
  | _ => cases hc

/-- What handlers know of a connection, in every run. -/
theorem reach_known {s : Stack} (h : Reach tcpMachine any s) :
    (∀ t c, (s.procs t).shuts c → (s.conns c).started = true) ∧
      ∀ c owner, s.holder = .accept c owner → (s.conns c).started = false := by
  refine Reach.invariant (P := fun s => (∀ t c, (s.procs t).shuts c → (s.conns c).started = true) ∧
    ∀ c owner, s.holder = .accept c owner → (s.conns c).started = false) ?_ ?_ h
  · exact ⟨fun t c hshuts => hshuts.elim, fun c owner hholder => by cases hholder⟩
  · intro s a s' hreach hinv _ hstep
    have hsec := Stack.step_section hstep
    exact ⟨hsec.shuts_started (reach_bounds hreach) hinv.1, hsec.accept_started hinv.2⟩

namespace TxInv

theorem init : TxInv Stack.init where
  closed c hc := absurd hc (Nat.not_lt_zero c)
  started t c h := h.elim
  accept c owner h := by cases h

/-- Before `newTCPConn` is done, the handler does not know the connection. -/
theorem not_shutting {s : Stack} (hinv : TxInv s) {c : ConnId} {owner : Option Tid}
    (hholder : s.holder = .accept c owner) : ¬Shutting s c := by
  obtain ⟨hstarted, hopen, hpend⟩ := hinv.accept c owner hholder
  intro hshut
  cases hshut with
  | state hstate =>
    rw [hopen] at hstate
    cases hstate
  | closePend htrue =>
    rw [hpend] at htrue
    cases htrue
  | shutdown t byClose hproc =>
    have htrue := hinv.started t c (by rw [hproc]; exact rfl)
    rw [hstarted] at htrue
    cases htrue

/-- What a step does to lwIP's own fields. -/
theorem shutting_pcb {s s' : Stack} {a : Act} {c : ConnId} (hsec : Section s a s')
    (hc : c < s.accepted) (htcp : ∀ tcb, a = .tcp c tcb → TcbKeep (s.pcbs c).tcb tcb) :
    TcbKeep (s.pcbs c).tcb (s'.pcbs c).tcb ∨ Shutting s c ∨
      ((s.conns c).state.txClosed = true ∧ ∃ k, s.holder = .task k) := by
  have hstep := hsec.pcbs c
  generalize s'.pcbs c = pcb' at hstep ⊢
  cases hstep with
  | same => exact .inl (.of_eq rfl rfl)
  | accept _ hnew => exact absurd hnew (Nat.ne_of_lt hc)
  | callback hcb _ _ =>
    rw [hcb.tcb]
    exact .inl (.of_eq rfl rfl)
  | @unknown owner caller stage f hcb _ _ =>
    have hkeep := (f (s.pcbs c)).abandon_keep
    rw [hcb.tcb] at hkeep
    exact .inl hkeep
  | refused _ _ _ => exact .inl (.of_eq (by simp) (by simp))
  | refusedUnknown _ _ _ =>
    have hkeep := ((s.pcbs c).use .refused_data |>.use .tcp_process_refused_data).takeRefused.abandon_keep
    simp only [TcpPcb.takeRefused_tcb, TcpPcb.use_tcb] at hkeep
    exact .inl hkeep
  | err _ _ => exact .inl (TcpPcb.abandon_keep _)
  | tcp hact => exact .inl (htcp _ hact)
  | abort _ _ _ => exact .inl (TcpPcb.abandon_keep _)
  | close hholder _ _ hstate => exact .inr (.inr ⟨by rw [hstate]; rfl, _, hholder⟩)
  | recved _ _ _ => exact .inl (.of_eq (by simp) (by simp))
  | retConn _ _ _ => exact .inl (.of_eq rfl rfl)
  | retClsd _ _ _ =>
    have hkeep := ((s.pcbs c).use .tcp_recved).shutdownRx_keep
    rw [TcpPcb.use_tcb] at hkeep
    exact .inl hkeep
  | @proc t p' f g hmove =>
    generalize hp : s.procs t = p at hmove
    cases hmove with
    | shutdown => exact .inr (.inl (.shutdown _ _ hp))
    | _ => exact .inl (.of_eq (by simp) (by simp))

/-- `tcp_shutdown` comes after `CloseWrite` has set the state. -/
theorem shutting_proc {s s' : Stack} {a : Act} {t : Tid} {c : ConnId} {byClose : Bool}
    (hsec : Section s a s') (hproc : s'.procs t = .shutdown c byClose) :
    Shutting s c ∨ (s'.conns c).state.txClosed = true := by
  have hstep := hsec.procs t
  rw [hproc] at hstep
  generalize hp : s.procs t = p at hstep
  generalize hp' : Proc.shutdown c byClose = p' at hstep
  cases hstep with
  | same => exact .inl (.shutdown t byClose (hp.trans hp'.symm))
  | woken c' =>
    have hsame := Proc.eq_of_wake_eq hp'.symm (by simp)
    exact .inl (.shutdown t byClose (hp.trans hsame))
  | own hown =>
    cases hown with
    | proc hmove =>
      cases hmove with
      | @call op _ _ => cases op <;> cases hp'
      | _ => cases hp'
    | conn _ hmove hconn =>
      cases hmove with
      | closeWrite hstate =>
        cases hp'
        rw [hconn]
        exact .inr (TcpConnState.txClosed_closeWrite hstate)
      | _ => cases hp'
    | pcb _ hmove => cases hmove <;> cases hp'
    | _ => cases hp'

private theorem closed_old {s s' : Stack} {a : Act} (hinv : TxInv s) (hsec : Section s a s')
    (htcp : ∀ c tcb, a = .tcp c tcb → TcbKeep (s.pcbs c).tcb tcb) {c : ConnId} (hc : c < s.accepted)
    (hshut : Shutting s' c) : (s'.conns c).state.txClosed = true := by
  -- a FIN that was on its way before
  have hbefore (h : Shutting s c) : (s'.conns c).state.txClosed = true :=
    hsec.txClosed hc (fun _ hholder => hinv.not_shutting hholder h) (hinv.closed c hc h)
  have hpcb := shutting_pcb hsec hc (htcp c)
  cases hshut with
  | shutdown t byClose hproc =>
    obtain h | h := shutting_proc hsec hproc
    · exact hbefore h
    · exact h
  | state hstate =>
    obtain hkeep | h | ⟨hclosed, k, hholder⟩ := hpcb
    · obtain h | h := hkeep.state hstate
      · exact hbefore (.state h)
      · exact hbefore (.closePend h)
    · exact hbefore h
    · exact hsec.txClosed hc (by simp [hholder]) hclosed
  | closePend hpend =>
    obtain hkeep | h | ⟨hclosed, k, hholder⟩ := hpcb
    · exact hbefore (.closePend (hkeep.closePend hpend))
    · exact hbefore h
    · exact hsec.txClosed hc (by simp [hholder]) hclosed

/-- A new connection is as lwIP and `newTCPConn` make it. -/
theorem closed_step {s s' : Stack} {a : Act} (hinv : TxInv s) (hbounds : Bounds s)
    (hsec : Section s a s') (htcp : ∀ c tcb, a = .tcp c tcb → TcbKeep (s.pcbs c).tcb tcb)
    (c : ConnId) (hc : c < s'.accepted) (hshut : Shutting s' c) :
    (s'.conns c).state.txClosed = true := by
  by_cases hold : c < s.accepted
  · exact hinv.closed_old hsec htcp hold hshut
  · have hlife := hsec.life
    cases hlife with
    | accept key _ haccepted _ _ hpcbs =>
      rw [haccepted] at hc
      obtain rfl : c = s.accepted := Nat.le_antisymm (Nat.le_of_lt_succ hc) (Nat.not_lt.mp hold)
      cases hshut with
      | state hstate => simp [hpcbs, newPcb, TcpState.txOpen] at hstate
      | closePend hpend => simp [hpcbs, newPcb] at hpend
      | shutdown t byClose hproc =>
        have hlt := hbounds.procs_step hsec t s.accepted (by rw [hproc]; rfl)
        exact absurd hlt hold
    | keep haccepted _ _ _ _ => exact absurd (haccepted ▸ hc) hold
    | unknown _ _ _ haccepted _ _ => exact absurd (haccepted ▸ hc) hold
    | release _ _ _ _ _ haccepted _ _ _ _ => exact absurd (haccepted ▸ hc) hold

theorem accept_step {s s' : Stack} {a : Act} (hinv : TxInv s) (hsec : Section s a s') (c : ConnId)
    (owner : Option Tid) (hc : s'.holder = .accept c owner) :
    (s'.conns c).started = false ∧ (s'.pcbs c).tcb.state = .ESTABLISHED ∧
      (s'.pcbs c).tcb.closePend = false := by
  refine ⟨hsec.accept_started (fun c owner h => (hinv.accept c owner h).1) c owner hc, ?_⟩
  cases hsec with
  | accept hholder =>
    cases hc
    simp [newPcb]
  | proc hmove => exact (hinv.accept c owner hc).2
  | conn hmove => exact (hinv.accept c owner hc).2
  | errFound hholder _ _ | errUnknown hholder _ _ | tcp hholder | pcb hholder _ =>
    cases hholder.symm.trans hc
  | ret _ _ => exact absurd hc (Stack.methodRet_not_accept _ _ _ _ _)
  | _ => cases hc

theorem step {s s' : Stack} {a : Act} (hinv : TxInv s) (hbounds : Bounds s) (hsec : Section s a s')
    (htcp : ∀ c tcb, a = .tcp c tcb → TcbKeep (s.pcbs c).tcb tcb) : TxInv s' where
  closed := hinv.closed_step hbounds hsec htcp
  started := hsec.shuts_started hbounds hinv.started
  accept := hinv.accept_step hsec

end TxInv

end tun2proxy.core
