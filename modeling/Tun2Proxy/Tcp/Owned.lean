import Tun2Proxy.Tcp.Procs

open tun2proxy.machine tun2proxy.machine.Machine

namespace tun2proxy.core

/-- How a step changes the pcb of `c`. -/
inductive PcbStep (s : Stack) (a : Act) (c : ConnId) : TcpPcb → TcpPcb → Prop where
  | same {pcb : TcpPcb} : PcbStep s a c pcb pcb
  | accept {pcb : TcpPcb} {key : UInt32} (hact : a = .accept key) (hc : c = s.accepted) :
      PcbStep s a c pcb newPcb
  | callback {pcb : TcpPcb} {owner : Option Tid} {caller : Caller} {stage : Stage}
      {f : TcpPcb → TcpPcb} (hcb : CbStart pcb c owner a caller stage f)
      (hholder : s.holder = .lwip owner) (hlive : s.live c) :
      PcbStep s a c pcb (f pcb)
  | unknown {pcb : TcpPcb} {owner : Option Tid} {caller : Caller} {stage : Stage}
      {f : TcpPcb → TcpPcb} (hcb : CbStart pcb c owner a caller stage f) (hlive : s.live c)
      (hnone : s.lookup c = none) :
      PcbStep s a c pcb (f pcb).abandon
  | refused {pcb : TcpPcb} {t : Tid} {p : Pbuf} (hact : a = .run t) (hproc : s.procs t = .refused c)
      (hrefused : pcb.refused_data = some p) (hholder : s.holder = .free) :
      PcbStep s a c pcb ((pcb.use .refused_data).use .tcp_process_refused_data).takeRefused
  | refusedUnknown {pcb : TcpPcb} {t : Tid} {p : Pbuf} (hproc : s.procs t = .refused c)
      (hrefused : pcb.refused_data = some p) (hnone : s.lookup c = none) :
      PcbStep s a c pcb ((pcb.use .refused_data).use .tcp_process_refused_data).takeRefused.abandon
  | err {pcb : TcpPcb} {code : ErrT} (hact : a = .err c code) (hlive : s.live c) :
      PcbStep s a c pcb pcb.abandon
  | tcp {pcb : TcpPcb} {tcb : Tcb} (hact : a = .tcp c tcb) : PcbStep s a c pcb { pcb with tcb }
  | abort {pcb : TcpPcb} {k : Task} (hholder : s.holder = .task k) (hconn : k.conn = c)
      (hstage : (k.stage = .receiveCheck ∧ (s.conns c).state = .tcpErrored) ∨
        (k.stage = .checkAborting ∧ (s.conns c).state = .tcpAborting)) :
      PcbStep s a c pcb pcb.abandon
  | close {pcb : TcpPcb} {k : Task} (hholder : s.holder = .task k) (hconn : k.conn = c)
      (hstage : k.stage = .checkClosing) (hstate : (s.conns c).state = .tcpClosing) :
      PcbStep s a c pcb pcb.tcp_close
  | recved {pcb : TcpPcb} {k : Task} {n : Nat} (hholder : s.holder = .task k) (hconn : k.conn = c)
      (hstage : k.stage = .recved n) : PcbStep s a c pcb (pcb.use .tcp_recved)
  | retConn {pcb : TcpPcb} {k : Task} {p : Pbuf} {owner : Option Tid} (hholder : s.holder = .task k)
      (hcaller : k.caller = .recv c (some p) owner) (hstage : k.stage = .ret (some .LWIP_ERR_CONN))
      (hact : a = .task) : PcbStep s a c pcb { pcb with refused_data := some p }
  | retClsd {pcb : TcpPcb} {k : Task} {p : Pbuf} {owner : Option Tid} (hholder : s.holder = .task k)
      (hcaller : k.caller = .recv c (some p) owner) (hstage : k.stage = .ret (some .LWIP_ERR_CLSD))
      (hact : a = .task) : PcbStep s a c pcb (pcb.use .tcp_recved).shutdownRx
  | proc {pcb : TcpPcb} {t : Tid} {p' : Proc} {f : TcpPcb → TcpPcb} {g : TcpConn → TcpConn}
      (hmove : PcbMove s t c a (s.procs t) p' f g) (hholder : s.holder = .free) :
      PcbStep s a c pcb (f pcb)

/-- Steps that change one pcb. -/
theorem PcbStep.of_modPcb {s s' : Stack} {a : Act} {c : ConnId} (f : TcpPcb → TcpPcb)
    (hpcbs : s'.pcbs = (s.modPcb c f).pcbs) (hstep : PcbStep s a c (s.pcbs c) (f (s.pcbs c)))
    (c' : ConnId) :
    PcbStep s a c' (s.pcbs c') (s'.pcbs c') := by
  rw [hpcbs, Stack.modPcb_pcbs]
  split
  · rename_i heq
    rw [heq]
    exact hstep
  · exact .same

private theorem Stack.methodRet_pcbs {s : Stack} {k : Task} {e : Option LwipError}
    (hholder : s.holder = .task k) (hstage : k.stage = .ret e) (c : ConnId) :
    PcbStep s .task c (s.pcbs c) ((s.methodRet k e).pcbs c) := by
  unfold Stack.methodRet Stack.recvRet
  split
  · rename_i tpcb p owner hcaller
    split
    · exact .of_modPcb (fun pcb => { pcb with refused_data := some p }) rfl
        (.retConn hholder hcaller hstage rfl) c
    · refine .of_modPcb (fun pcb => (pcb.use .tcp_recved).shutdownRx) ?_
        (.retClsd hholder hcaller hstage rfl) c
      simp [Stack.tcp_recved_modPcb]
      rfl
    · exact .same
    · exact .same
    · exact .same
  all_goals exact .same

/-- What one section does to a pcb. -/
theorem Section.pcbs {s s' : Stack} {a : Act} (hsec : Section s a s') (c : ConnId) :
    PcbStep s a c (s.pcbs c) (s'.pcbs c) := by
  cases hsec with
  | accept hholder =>
    simp only [Function.update_apply]
    split
    · exact .accept rfl ‹_›
    · exact .same
  | cbFound hcb hholder hlive hfound => exact .of_modPcb _ rfl (.callback hcb hholder hlive) c
  | @cbUnknown a c' owner caller stage f hcb hholder hlive hnone =>
    have hpcbs := Stack.modPcb_modPcb s c' f TcpPcb.abandon
    exact .of_modPcb _ (congrArg Stack.pcbs hpcbs) (.unknown hcb hlive hnone) c
  | procFound hproc hholder hrefused hfound =>
    exact .of_modPcb (fun pcb => ((pcb.use .refused_data).use .tcp_process_refused_data).takeRefused) rfl
      (.refused rfl hproc hrefused hholder) c
  | @procUnknown t c' p hproc hholder hrefused hnone =>
    have hpcbs := Stack.modPcb_modPcb s c'
      (fun pcb => ((pcb.use .refused_data).use .tcp_process_refused_data).takeRefused) TcpPcb.abandon
    exact .of_modPcb _ (congrArg Stack.pcbs hpcbs) (.refusedUnknown hproc hrefused hnone) c
  | errFound hholder hlive hfound => exact .of_modPcb TcpPcb.abandon rfl (.err rfl hlive) c
  | errUnknown hholder hlive hnone => exact .of_modPcb TcpPcb.abandon rfl (.err rfl hlive) c
  | @tcp c' tcb owner hholder => exact .of_modPcb (fun pcb => { pcb with tcb }) rfl (.tcp rfl) c
  | receiveErrored hholder hstage hstate =>
    rw [Stack.abortInternal_eq]
    exact .of_modPcb TcpPcb.abandon rfl (.abort hholder rfl (.inl ⟨hstage, hstate⟩)) c
  | recved hholder hstage =>
    exact .of_modPcb (fun pcb => pcb.use .tcp_recved) rfl (.recved hholder rfl hstage) c
  | closing hholder hstage hstate =>
    exact .of_modPcb TcpPcb.tcp_close rfl (.close hholder rfl hstage hstate) c
  | aborting hholder hstage hstate =>
    rw [Stack.abortInternal_eq]
    exact .of_modPcb TcpPcb.abandon rfl (.abort hholder rfl (.inr ⟨hstage, hstate⟩)) c
  | localClosed hholder hstage =>
    simp only [Stack.goto_pcbs, Stack.setLocalClosed_pcbs]
    exact .same
  | ret hholder hstage => exact Stack.methodRet_pcbs hholder hstage c
  | pcb hholder hmove => exact .of_modPcb _ rfl (.proc hmove hholder) c
  | _ => exact .same

/-- How a step changes connection `c`. -/
inductive ConnStep (s : Stack) (a : Act) (c : ConnId) : TcpConn → TcpConn → Prop where
  | same {conn : TcpConn} : ConnStep s a c conn conn
  | accept {conn : TcpConn} {key : UInt32} (hact : a = .accept key) (hc : c = s.accepted) :
      ConnStep s a c conn (newConn key)
  | acceptDone {conn : TcpConn} {owner : Option Tid} (hholder : s.holder = .accept c owner) :
      ConnStep s a c conn { conn with state := .tcpConnecting, started := true }
  | err {tpcb : ConnId} {code : ErrT} (hact : a = .err tpcb code) (hlive : s.live tpcb)
      (hfound : s.lookup tpcb = some c) :
      ConnStep s a c (s.conns c) { (s.release c).conns c with state := .tcpErrored }
  | release {k : Task} (hholder : s.holder = .task k) (hconn : k.conn = c)
      (hstate : .tcpReceiveClosed ≤ (s.conns c).state) :
      ConnStep s a c (s.conns c) ((s.release c).conns c)
  | localClosed {conn : TcpConn} {k : Task} (hholder : s.holder = .task k) (hconn : k.conn = c)
      (hstage : k.stage = .setLocalClosed) (hlt : conn.state < .tcpReceiveClosed) :
      ConnStep s a c conn
        { conn with
          sndPipeWriterClosed := true
          state := if conn.state = .tcpWriteClosed then .tcpClosing else .tcpReceiveClosed }
  | own {t : Tid} {p' : Proc} {f : TcpConn → TcpConn} (hmove : ConnMove s t c (s.procs t) p' f) :
      ConnStep s a c (s.conns c) (f (s.conns c))
  | pcb {conn : TcpConn} {t : Tid} {p' : Proc} {f : TcpPcb → TcpPcb} {g : TcpConn → TcpConn}
      (hmove : PcbMove s t c a (s.procs t) p' f g) : ConnStep s a c conn (g conn)
  | pipe {conn : TcpConn} {k : Task} {rest bytes : List UInt8} {n : Nat}
      (hholder : s.holder = .task k) (hconn : k.conn = c) (hstage : k.stage = .pipeWrite rest n) :
      ConnStep s a c conn { conn with readBytes := conn.readBytes ++ bytes }

/-- Steps that change one connection. -/
theorem ConnStep.of_modConn {s s' : Stack} {a : Act} {c : ConnId} (f : TcpConn → TcpConn)
    (hconns : s'.conns = (s.modConn c f).conns) (hstep : ConnStep s a c (s.conns c) (f (s.conns c)))
    (c' : ConnId) : ConnStep s a c' (s.conns c') (s'.conns c') := by
  rw [hconns, Stack.modConn_conns]
  split
  · rename_i heq
    rw [heq]
    exact hstep
  · exact .same

/-- Steps that release one connection. -/
theorem ConnStep.of_release {s s' : Stack} {a : Act} {c : ConnId}
    (hconns : s'.conns = (s.release c).conns)
    (hstep : ConnStep s a c (s.conns c) ((s.release c).conns c)) (c' : ConnId) :
    ConnStep s a c' (s.conns c') (s'.conns c') := by
  rw [hconns]
  by_cases hc : c' = c
  · rw [hc]
    exact hstep
  · rw [Stack.release_conns, if_neg hc]
    exact .same

/-- What one section does to a connection. -/
theorem Section.conns {s s' : Stack} {a : Act} (hsec : Section s a s') (c : ConnId) :
    ConnStep s a c (s.conns c) (s'.conns c) := by
  cases hsec with
  | accept hholder =>
    simp only [Function.update_apply]
    split
    · exact .accept rfl ‹_›
    · exact .same
  | acceptDone hholder hidle =>
    exact .of_modConn (fun conn => { conn with state := .tcpConnecting, started := true }) rfl
      (.acceptDone hholder) c
  | @errFound tpcb found code owner hholder hlive hfound =>
    rw [Stack.Err_conns]
    split
    · rename_i heq
      subst heq
      exact .err rfl hlive hfound
    · exact .same
  | receiveErrored hholder hstage hstate | aborting hholder hstage hstate =>
    rw [Stack.abortInternal_eq]
    exact .of_release rfl (.release hholder rfl (by rw [hstate]; decide)) c
  | closing hholder hstage hstate =>
    exact .of_release rfl (.release hholder rfl (by rw [hstate]; decide)) c
  | @localClosed k hholder hstage =>
    obtain ⟨hsame, -⟩ | ⟨hclosed, hlt⟩ := s.setLocalClosed_cases k.conn
    · rw [hsame]
      exact .same
    · rw [hclosed]
      exact .of_modConn (fun conn => { conn with
        sndPipeWriterClosed := true
        state := if conn.state = .tcpWriteClosed then .tcpClosing else .tcpReceiveClosed }) rfl
        (.localClosed hholder rfl hstage hlt) c
  | ret hholder hstage =>
    rw [Stack.methodRet_conns]
    exact .same
  | conn hmove => exact .of_modConn _ rfl (.own hmove) c
  | pcb hholder hmove => exact .of_modConn _ rfl (.pcb hmove) c
  | @pipe t k len rest n stage hholder hstage hproc hnext =>
    exact .of_modConn (fun conn => { conn with readBytes := conn.readBytes ++ rest.take (min len rest.length) }) rfl
      (.pipe hholder rfl hstage) c
  | _ => exact .same

/-- `rand.Uint32` draws no key that is in `tcpConns`. -/
def FreshKey (s : Stack) : Act → Prop
  | .accept key => s.tcpConns key = none
  | _ => True

instance (s : Stack) : (a : Act) → Decidable (FreshKey s a)
  | .accept key => inferInstanceAs (Decidable (s.tcpConns key = none))
  | .lwipLock | .lwipUnlock | .acceptDone _ | .recv _ _ | .recvFin _ | .refused _ | .sent _ | .poll _
  | .err _ _ | .tcp _ _ | .task | .call _ _ | .handled _ _ | .write _ _ _ | .shutdown _ _ | .run _ | .pipe _
    => inferInstanceAs (Decidable True)

/-- The pcb for which lwIP called the callback. -/
def Caller.tpcb : Caller → Option ConnId
  | .recv tpcb _ _ | .sent tpcb _ | .poll tpcb _ => some tpcb
  | .abort _ => none

/-- A callback is called with the pcb it is for. -/
theorem CbStart.tpcb {pcb : TcpPcb} {c : ConnId} {owner : Option Tid} {a : Act} {caller : Caller}
    {stage : Stage} {f : TcpPcb → TcpPcb} (hcb : CbStart pcb c owner a caller stage f) :
    caller.tpcb = some c := by
  cases hcb <;> rfl

/-- The return of a method touches at most the pcb of its callback. -/
theorem Stack.methodRet_pcbs_of_ne {s : Stack} {k : Task} {e : Option LwipError} {c : ConnId}
    (hne : k.caller.tpcb ≠ some c) : (s.methodRet k e).pcbs c = s.pcbs c := by
  unfold Stack.methodRet Stack.recvRet
  split
  · rename_i tpcb p owner hcaller
    have htpcb : c ≠ tpcb := by
      intro heq
      rw [hcaller, heq] at hne
      exact hne rfl
    split <;> simp [htpcb]
  all_goals rfl

/-- A connection is in `tcpConns`, has its pcb and is not released, or none of
    the three; so a callback works on the connection of its pcb. -/
structure Owned (s : Stack) : Prop where
  gone_iff : ∀ c, c < s.accepted → ((s.pcbs c).gone = true ↔ (s.conns c).state.released)
  lookup_iff : ∀ c, c < s.accepted → (s.lookup c = some c ↔ ¬(s.conns c).state.released)
  accepting : ∀ c owner, s.holder = .accept c owner → ¬(s.conns c).state.released
  tpcb : ∀ k c, s.holder = .task k → k.caller.tpcb = some c → k.conn = c
  refused : ∀ c, (s.pcbs c).gone = true → (s.pcbs c).refused_data = none

/-- A step that is not a release keeps a connection released or not, unless it is just being
    accepted. -/
theorem StateMove.released_iff {s : Stack} {a : Act} {c : ConnId} {st' : TcpConnState}
    (hmove : StateMove s a c (s.conns c).state st')
    (haccepting : ∀ owner, s.holder = .accept c owner → ¬(s.conns c).state.released) :
    st'.released ↔ (s.conns c).state.released := by
  refine ⟨hmove.released_of_released, ?_⟩
  generalize hst : (s.conns c).state = st at hmove haccepting
  intro hreleased
  cases hmove with
  | same => exact hreleased
  | connecting hact hholder => exact absurd hreleased (haccepting _ hholder)
  | connected | localClosing => cases hreleased <;> contradiction
  | abort => revert hreleased; cases st <;> decide
  | closeWrite hstate => revert hstate hreleased; cases st <;> cases st' <;> decide
  | localClosed hlt => revert hlt hreleased; cases st <;> decide

namespace TcpPcb

variable (p : TcpPcb)

@[simp] theorem use_refused_data (u : PcbUse) : (p.use u).refused_data = p.refused_data := by
  unfold use; split <;> rfl

@[simp] theorem shutdownTx_refused_data (finSent : Bool) :
    (p.shutdownTx finSent).refused_data = p.refused_data := by
  unfold shutdownTx
  split
  · rw [use_refused_data]
  · split
    · split <;> rfl
    · rfl

@[simp] theorem tcp_write_refused_data (data : List UInt8) :
    (p.tcp_write data).refused_data = p.refused_data := by
  unfold tcp_write
  split
  · rw [use_refused_data, use_refused_data]
  · rfl

variable {p}

theorem abandon_refused_data (hp : p.gone = true → p.refused_data = none) :
    p.abandon.refused_data = none := by
  unfold abandon
  split
  · rw [use_refused_data]
    exact hp ‹_›
  · rfl

theorem tcp_close_refused_data (hp : p.gone = true → p.refused_data = none) :
    p.tcp_close.refused_data = none := by
  unfold tcp_close
  split
  · rw [use_refused_data]
    exact hp ‹_›
  · rfl

theorem shutdownRx_refused_data (hp : p.gone = true → p.refused_data = none) :
    p.shutdownRx.refused_data = none := by
  unfold shutdownRx
  split
  · rw [use_refused_data]
    exact hp ‹_›
  · rfl

end TcpPcb

namespace Owned

theorem init : Owned Stack.init where
  gone_iff c hc := absurd hc (Nat.not_lt_zero c)
  lookup_iff c hc := absurd hc (Nat.not_lt_zero c)
  accepting c owner h := by cases h
  tpcb k c h := by cases h
  refused c h := by cases h

/-- A callback that lwIP can run finds the connection of its own pcb. -/
theorem lookup_live {s : Stack} (hinv : Owned s) {c : ConnId} (hlive : s.live c) :
    s.lookup c = some c := by
  rw [hinv.lookup_iff c hlive.1, ← hinv.gone_iff c hlive.1, hlive.2]
  simp

/-- The key of a pcb with refused data leads to its own connection. -/
theorem lookup_refused {s : Stack} (hinv : Owned s) {c : ConnId} {p : Pbuf} (hc : c < s.accepted)
    (hrefused : (s.pcbs c).refused_data = some p) : s.lookup c = some c := by
  rw [hinv.lookup_iff c hc, ← hinv.gone_iff c hc]
  intro hgone
  rw [hinv.refused c hgone] at hrefused
  cases hrefused

/-- Registered connections have their pcb. -/
theorem not_gone_of_lookup {s : Stack} (hinv : Owned s) {c : ConnId} (hc : c < s.accepted)
    (hlookup : s.lookup c = some c) : (s.pcbs c).gone = false := by
  rw [Bool.eq_false_iff, Ne, hinv.gone_iff c hc]
  exact (hinv.lookup_iff c hc).mp hlookup

/-- No callback finds its connection missing. -/
theorem not_unknown {s : Stack} (hinv : Owned s) (hbounds : Bounds s) {tpcb : ConnId}
    (hnone : s.lookup tpcb = none)
    (htpcb : s.live tpcb ∨ ∃ t p, s.procs t = .refused tpcb ∧ (s.pcbs tpcb).refused_data = some p) :
    False := by
  have hfound : s.lookup tpcb = some tpcb := by
    obtain hlive | ⟨t, p, hproc, hrefused⟩ := htpcb
    · exact hinv.lookup_live hlive
    · exact hinv.lookup_refused (hbounds.procs t tpcb (by rw [hproc]; rfl)) hrefused
  rw [hnone] at hfound
  cases hfound

/-- The step that releases a connection ends its own pcb. -/
theorem tpcb_of_cause {s : Stack} {a : Act} {c tpcb : ConnId} (hinv : Owned s)
    (hcause : ReleaseCause s a c tpcb) : tpcb = c := by
  cases hcause with
  | err hlive hfound => exact Option.some.inj ((hinv.lookup_live hlive).symm.trans hfound)
  | task _ _ => rfl

private theorem lookup_release {s s' : Stack} {c : ConnId} (hinv : Owned s) (hc : c < s.accepted)
    (hopen : ¬(s.conns c).state.released)
    (htcpConns : s'.tcpConns = Function.update s.tcpConns (s.conns c).connKey none)
    (hkey : ∀ c', (s'.conns c').connKey = (s.conns c').connKey) {c' : ConnId} (hne : c' ≠ c) :
    s'.lookup c' = some c' ↔ s.lookup c' = some c' := by
  rw [Stack.lookup, hkey, htcpConns, Function.update_apply]
  split
  · rename_i heq
    -- the key is taken by `c`
    have hreg : s.lookup c' = some c := by
      rw [Stack.lookup, heq]
      exact (hinv.lookup_iff c hc).mpr hopen
    rw [hreg]
    simp [Ne.symm hne]
  · rfl

private theorem lookup_accept {s s' : Stack} {key : UInt32} (hfresh : s.tcpConns key = none)
    (htcpConns : s'.tcpConns = Function.update s.tcpConns key (some s.accepted))
    (hconns : s'.conns = Function.update s.conns s.accepted (newConn key)) {c : ConnId}
    (hc : c < s.accepted) :
    s'.lookup c = some c ↔ s.lookup c = some c := by
  have hne : c ≠ s.accepted := Nat.ne_of_lt hc
  rw [Stack.lookup, hconns, Function.update_of_ne hne, htcpConns, Function.update_apply,
    Stack.lookup]
  split
  · rename_i heq
    rw [heq, hfresh]
    simp [hne.symm]
  · rfl

private theorem iff_step {s s' : Stack} {a : Act} (hreg : Registry s) (htask : TaskInv s)
    (hbounds : Bounds s) (hinv : Owned s) (hfresh : FreshKey s a) (hlife : Life s a s') (c : ConnId)
    (hc : c < s'.accepted) :
    ((s'.pcbs c).gone = true ↔ (s'.conns c).state.released) ∧
      (s'.lookup c = some c ↔ ¬(s'.conns c).state.released) := by
  cases hlife with
  | keep haccepted htcpConns hkey hmove hgone =>
    rw [haccepted] at hc
    have hreleased := (hmove c).released_iff (hinv.accepting c)
    have hlookup : s'.lookup c = s.lookup c := by rw [Stack.lookup, hkey, htcpConns, Stack.lookup]
    rw [hgone, hreleased, hlookup]
    exact ⟨hinv.gone_iff c hc, hinv.lookup_iff c hc⟩
  | accept key hact haccepted htcpConns hconns hpcbs =>
    subst hact
    obtain hlt | rfl := Nat.lt_succ_iff_lt_or_eq.mp (haccepted ▸ hc)
    · have hne : c ≠ s.accepted := Nat.ne_of_lt hlt
      rw [lookup_accept hfresh htcpConns hconns hlt, hpcbs, hconns, Function.update_of_ne hne,
        Function.update_of_ne hne]
      exact ⟨hinv.gone_iff c hlt, hinv.lookup_iff c hlt⟩
    · simp [Stack.lookup, htcpConns, hconns, hpcbs, newConn, newPcb, TcpConnState.released]
  | unknown tpcb hnone htpcb _ _ _ => exact (hinv.not_unknown hbounds hnone htpcb).elim
  | release c' tpcb st hreleased hcause haccepted htcpConns hkey hstate hgone =>
    obtain rfl := hinv.tpcb_of_cause hcause
    have hopen := hcause.not_released hreg htask
    have hc' := hcause.lt_accepted hreg hbounds
    rw [haccepted] at hc
    rw [hgone, hstate]
    by_cases heq : c = tpcb
    · subst heq
      simp [Stack.lookup, hkey, htcpConns, hreleased]
    · simp only [heq, if_false]
      rw [hinv.lookup_release hc' hopen htcpConns hkey heq]
      exact ⟨hinv.gone_iff c hc, hinv.lookup_iff c hc⟩

private theorem accepting_step {s s' : Stack} {a : Act} (hinv : Owned s) (hsec : Section s a s')
    (c : ConnId) (owner : Option Tid) (hc : s'.holder = .accept c owner) :
    ¬(s'.conns c).state.released := by
  cases hsec with
  | accept hholder =>
    cases hc
    simp [newConn, TcpConnState.released]
  | proc hmove => exact hinv.accepting c owner hc
  | @conn t c' p' f hmove =>
    intro hreleased
    have hopen := hinv.accepting c owner hc
    simp only [Stack.setProc_conns, Stack.modConn_conns] at hreleased
    split at hreleased
    · rename_i heq
      subst heq
      exact hopen ((hmove.state .task).released_of_released hreleased)
    · exact hopen hreleased
  | errFound hholder _ _ | errUnknown hholder _ _ | tcp hholder | pcb hholder _ =>
    cases hholder.symm.trans hc
  | ret _ _ => exact absurd hc (Stack.methodRet_not_accept _ _ _ _ _)
  | _ => cases hc

private theorem tpcb_step {s s' : Stack} {a : Act} (hinv : Owned s) (hbounds : Bounds s)
    (hsec : Section s a s') (k' : Task) (c : ConnId) (hk' : s'.holder = .task k')
    (htpcb : k'.caller.tpcb = some c) : k'.conn = c := by
  cases hsec with
  | cbFound hcb hholder hlive hfound =>
    cases hk'
    cases hcb.tpcb.symm.trans htpcb
    exact Option.some.inj (hfound.symm.trans (hinv.lookup_live hlive))
  | procFound hproc hholder hrefused hfound =>
    cases hk'
    cases htpcb
    have hc := hbounds.procs _ _ (by rw [hproc]; rfl)
    exact Option.some.inj (hfound.symm.trans (hinv.lookup_refused hc hrefused))
  | abortLwip _ _ =>
    cases hk'
    cases htpcb
  | task hholder _ | receiveErrored hholder _ _ | recved hholder _ | closing hholder _ _
  | aborting hholder _ _ | broadcast hholder _ | localClosed hholder _ | pipe hholder _ _ _ =>
    have hsame := hinv.tpcb _ c hholder
    cases hk'
    exact hsame htpcb
  | ret hholder _ => exact absurd hk' (Stack.methodRet_not_task _ _ _ _)
  | errFound _ _ _ | errUnknown _ _ _ | tcp _ | proc _ | conn _ | pcb _ _ =>
    exact hinv.tpcb _ _ hk' htpcb
  | _ => cases hk'

/-- Refused data belongs to a pcb that is not gone. -/
theorem refused_step {s s' : Stack} {a : Act} (hinv : Owned s) (htask : TaskInv s)
    (hbounds : Bounds s) (hsec : Section s a s') (c : ConnId) (hgone : (s'.pcbs c).gone = true) :
    (s'.pcbs c).refused_data = none := by
  have hold := hinv.refused c
  have hstep := hsec.pcbs c
  generalize hpcb : s.pcbs c = pcb at hstep hold
  generalize s'.pcbs c = pcb' at hstep hgone
  cases hstep with
  | same => exact hold hgone
  | accept _ _ => rfl
  | callback hcb _ hlive =>
    cases hcb with
    | refused _ => rfl
    | _ => exact hold hgone
  | unknown hcb _ _ =>
    cases hcb with
    | refused _ => exact TcpPcb.abandon_refused_data fun _ => rfl
    | _ => exact TcpPcb.abandon_refused_data hold
  | refused _ _ _ => rfl
  | refusedUnknown _ _ _ => exact TcpPcb.abandon_refused_data fun _ => rfl
  | err _ _ => exact TcpPcb.abandon_refused_data hold
  | tcp _ => exact hold hgone
  | abort _ _ _ => exact TcpPcb.abandon_refused_data hold
  | close _ _ _ _ => exact TcpPcb.tcp_close_refused_data hold
  | recved _ _ _ =>
    rw [TcpPcb.use_refused_data]
    exact hold (by simpa using hgone)
  | @retConn k p owner hholder hcaller hstage =>
    -- `Receive` still has its connection, so the pcb is not gone
    have hmethod : k.caller.method = .Receive := by rw [hcaller]; rfl
    have hfound := (htask k hholder).receiveFound hmethod
    have hnot := hinv.not_gone_of_lookup (hbounds.task k hholder) hfound
    rw [hinv.tpcb k c hholder (by rw [hcaller]; rfl), hpcb] at hnot
    rw [hnot] at hgone
    cases hgone
  | retClsd _ _ _ => exact TcpPcb.shutdownRx_refused_data (by simpa using hold)
  | @proc t p' f g hmove =>
    generalize s.procs t = p at hmove
    cases hmove <;> simp_all

theorem step {s s' : Stack} {a : Act} (hreg : Registry s) (htask : TaskInv s) (hbounds : Bounds s)
    (hinv : Owned s) (hfresh : FreshKey s a) (hsec : Section s a s') : Owned s' where
  gone_iff c hc := (iff_step hreg htask hbounds hinv hfresh hsec.life c hc).1
  lookup_iff c hc := (iff_step hreg htask hbounds hinv hfresh hsec.life c hc).2
  accepting := hinv.accepting_step hsec
  tpcb := hinv.tpcb_step hbounds hsec
  refused := hinv.refused_step htask hbounds hsec

end Owned

/-- In every run with fresh keys, the keys lead the callbacks to their own connections. -/
theorem reach_owned {s : Stack} (h : Reach tcpMachine FreshKey s) : Owned s := by
  refine Reach.invariant Owned.init ?_ h
  intro s a s' hreach hinv hfresh hstep
  have hany := hreach.mono fun _ _ _ => trivial
  exact hinv.step (reach_registry hany).1 (reach_registry hany).2 (reach_bounds hany) hfresh
    (Stack.step_section hstep)

end tun2proxy.core
