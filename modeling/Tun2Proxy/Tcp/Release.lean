import Tun2Proxy.Tcp.Shutdown
import Tun2Proxy.Tcp.Net

open tun2proxy.machine tun2proxy.machine.Machine

namespace tun2proxy.core

/-- Connection `c` is in `tcpConns`, under its own key. -/
def Stack.registered (s : Stack) (c : ConnId) : Prop := s.lookup c = some c

instance (s : Stack) (c : ConnId) : Decidable (s.registered c) :=
  inferInstanceAs (Decidable (_ = _))

namespace Registry

variable {s : Stack} {c : ConnId}

/-- What a key leads to is registered. -/
theorem registered (hinv : Registry s) {key : UInt32} (hkey : s.tcpConns key = some c) :
    s.registered c := by
  rw [Stack.registered, Stack.lookup, hinv.connKey hkey]
  exact hkey

theorem registered_lt (hinv : Registry s) (hc : s.registered c) : c < s.accepted := hinv.accepted hc

/-- What is registered is not released. -/
theorem registered_open (hinv : Registry s) (hc : s.registered c) : ¬(s.conns c).state.released :=
  hinv.notReleased hc

end Registry

/-- A released connection is not registered, and neither is another one that was
    under its key. -/
theorem Stack.not_registered_release {s s' : Stack} {c c' : ConnId}
    (htcpConns : s'.tcpConns = Function.update s.tcpConns (s.conns c).connKey none)
    (hkey : ∀ c, (s'.conns c).connKey = (s.conns c).connKey)
    (hsame : (s.conns c').connKey = (s.conns c).connKey) :
    ¬s'.registered c' := by
  rw [Stack.registered, Stack.lookup, hkey, htcpConns, hsame, Function.update_self]
  simp

/-- A connection is registered from its acceptance on, never again later. -/
theorem Section.registered {s s' : Stack} {a : Act} {c : ConnId} (hsec : Section s a s')
    (hc : s'.registered c) : s.registered c ∨ ∃ key, a = .accept key ∧ c = s.accepted := by
  have hlife := hsec.life
  rw [Stack.registered, Stack.lookup] at hc ⊢
  cases hlife with
  | keep _ htcpConns hkey _ _ =>
    rw [hkey, htcpConns] at hc
    exact .inl hc
  | accept key hact _ htcpConns hconns _ =>
    by_cases hnew : c = s.accepted
    · exact .inr ⟨key, hact, hnew⟩
    · rw [hconns, Function.update_of_ne hnew, htcpConns, Function.update_apply] at hc
      split at hc
      · exact absurd (Option.some.inj hc).symm hnew
      · exact .inl hc
  | unknown _ _ _ _ htcpConns hconns =>
    rw [hconns, htcpConns] at hc
    exact .inl hc
  | release c' _ _ _ _ _ htcpConns hkey _ _ =>
    rw [hkey, htcpConns, Function.update_apply] at hc
    split at hc
    · cases hc
    · exact .inl hc

/-- Go has not ended the pcb of a registered connection. -/
theorem Section.live {s s' : Stack} {a : Act} {c : ConnId} (hreg : Registry s)
    (hsec : Section s a s') (hlive : s.registered c → (s.pcbs c).gone = false)
    (hc : s'.registered c) : (s'.pcbs c).gone = false := by
  have hold := hsec.registered hc
  have hlife := hsec.life
  cases hlife with
  | accept key _ _ _ _ hpcbs =>
    rw [hpcbs, Function.update_apply]
    split
    · rfl
    · rename_i hne
      obtain h | ⟨_, _, hnew⟩ := hold
      · exact hlive h
      · exact absurd hnew hne
  | keep _ htcpConns hkey _ hgone =>
    rw [Stack.registered, Stack.lookup, hkey, htcpConns] at hc
    rw [hgone]
    exact hlive hc
  | unknown tpcb hnone _ _ htcpConns hconns hgone =>
    rw [Stack.registered, Stack.lookup, hconns, htcpConns] at hc
    rw [hgone, if_neg]
    · exact hlive hc
    · rintro rfl
      rw [Stack.lookup, hc] at hnone
      cases hnone
  | release c' tpcb _ _ hcause _ htcpConns hkey _ hgone =>
    have hnot {c'' : ConnId} (hsame : (s.conns c'').connKey = (s.conns c').connKey) : c ≠ c'' := by
      rintro rfl
      exact Stack.not_registered_release htcpConns hkey hsame hc
    have hne : c ≠ tpcb := by
      cases hcause with
      | err _ hfound => exact hnot (hreg.connKey hfound).symm
      | task _ _ => exact hnot rfl
    rw [hgone, if_neg hne]
    obtain h | ⟨key, hact, -⟩ := hold
    · exact hlive h
    · subst hact
      cases hcause

/-- How a section of Go changes the pcb of a connection that stays registered. -/
inductive GoPcb (s : Stack) (a : Act) (c : ConnId) : TcpPcb → TcpPcb → Prop where
  | keep {pcb pcb' : TcpPcb} (htcb : pcb'.tcb = pcb.tcb)
      (hrefused : pcb'.refused_data = pcb.refused_data) :
      GoPcb s a c pcb pcb'
  | take {pcb pcb' : TcpPcb} {t : Tid} {p : Pbuf} (hact : a = .run t)
      (hproc : s.procs t = .refused c) (hholder : s.holder = .free)
      (hsome : pcb.refused_data = some p) (htcb : pcb'.tcb = pcb.tcb)
      (hrefused : pcb'.refused_data = none) : GoPcb s a c pcb pcb'
  | retConn {pcb pcb' : TcpPcb} {k : Task} {p : Pbuf} {owner : Option Tid}
      (hholder : s.holder = .task k) (hcaller : k.caller = .recv c (some p) owner)
      (hstage : k.stage = .ret (some .LWIP_ERR_CONN)) (hact : a = .task)
      (htcb : pcb'.tcb = pcb.tcb) : GoPcb s a c pcb pcb'
  | retClsd {pcb pcb' : TcpPcb} {k : Task} {p : Pbuf} {owner : Option Tid}
      (hholder : s.holder = .task k) (hcaller : k.caller = .recv c (some p) owner)
      (hstage : k.stage = .ret (some .LWIP_ERR_CLSD)) (hact : a = .task)
      (htcb : pcb'.tcb = { pcb.tcb with rxClosed := true }) (hrefused : pcb'.refused_data = none) :
      GoPcb s a c pcb pcb'
  | shutdown {pcb pcb' : TcpPcb} {t : Tid} {byClose : Bool} (hholder : s.holder = .free)
      (hproc : s.procs t = .shutdown c byClose)
      (htcb : pcb'.tcb = { pcb.tcb with state := pcb.tcb.state.fin } ∨
        pcb'.tcb = { pcb.tcb with closePend := true })
      (hrefused : pcb'.refused_data = pcb.refused_data) : GoPcb s a c pcb pcb'

/-- `tcp_shutdown(pcb, 0, 1)` on a pcb that is there. -/
theorem TcpPcb.shutdownTx_cases {p : TcpPcb} (hgone : p.gone = false) (finSent : Bool) :
    (p.shutdownTx finSent).tcb = p.tcb ∨
      (p.shutdownTx finSent).tcb = { p.tcb with state := p.tcb.state.fin } ∨
      (p.shutdownTx finSent).tcb = { p.tcb with closePend := true } := by
  rw [shutdownTx, if_neg (by simp [hgone])]
  split
  · split
    · exact .inr (.inl rfl)
    · exact .inr (.inr rfl)
  · exact .inl rfl

/-- What Go code does to a pcb that is there before and after. -/
theorem Section.goPcb {s s' : Stack} {a : Act} {c : ConnId} (hsec : Section s a s')
    (hgo : a.ofGo = true) (hc : c < s.accepted) (hgone : (s.pcbs c).gone = false)
    (hgone' : (s'.pcbs c).gone = false) :
    GoPcb s a c (s.pcbs c) (s'.pcbs c) := by
  have hstep := hsec.pcbs c
  generalize s'.pcbs c = pcb' at hstep hgone' ⊢
  cases hstep with
  | same => exact .keep rfl rfl
  | accept _ hnew => exact absurd hnew (Nat.ne_of_lt hc)
  | callback hcb _ _ | unknown hcb _ _ => cases hcb <;> cases hgo
  | refused hact hproc hrefused hholder => exact .take hact hproc hholder hrefused (by simp) rfl
  | refusedUnknown _ _ _ => simp at hgone'
  | err hact _ | tcp hact =>
    subst hact
    cases hgo
  | abort _ _ _ => simp at hgone'
  | close _ _ _ _ => simp at hgone'
  | recved _ _ _ => exact .keep (by simp) (by simp)
  | retConn hholder hcaller hstage hact => exact .retConn hholder hcaller hstage hact rfl
  | retClsd hholder hcaller hstage hact =>
    refine .retClsd hholder hcaller hstage hact ?_ ?_
    · rw [TcpPcb.shutdownRx, if_neg (by simp [hgone])]
      simp
    · rw [TcpPcb.shutdownRx, if_neg (by simp [hgone])]
  | @proc t p' f g hmove hholder =>
    generalize hp : s.procs t = p at hmove
    cases hmove with
    | shutdown =>
      obtain hsame | hshut := TcpPcb.shutdownTx_cases hgone _
      · exact .keep hsame (by simp)
      · exact .shutdown hholder hp hshut (by simp)
    | _ => exact .keep (by simp) (by simp)

/-- With the state `st`, code at this place goes on to release its connection. -/
def TcpConnState.closesAt (st : TcpConnState) : Stage → Bool
  | .setLocalClosed => st.txClosed
  | .isClosed | .checkClosing => st = .tcpClosing || st = .tcpAborting
  | .checkAborting => st = .tcpAborting
  | _ => false

/-- The code that holds `lwipMutex` is about to release connection `c`. -/
def Closes (s : Stack) (c : ConnId) : Prop :=
  ∃ k, s.holder = .task k ∧ k.conn = c ∧ (s.conns c).state.closesAt k.stage = true

/-- It is about to mark connection `c` as closed by the peer. -/
def LocalClosing (s : Stack) (c : ConnId) : Prop :=
  ∃ k, s.holder = .task k ∧ k.conn = c ∧ k.stage = .setLocalClosed

private theorem TcpConnState.closesAt_abort {st : TcpConnState} {stage : Stage}
    (h : st.closesAt stage = true) :
    st.abort.closesAt stage = true := by
  cases stage with
  | setLocalClosed | isClosed | checkClosing | checkAborting =>
    revert h
    cases st <;> decide
  | _ => cases h

/-- `CloseWrite` changes no state in which a release is under way. -/
theorem TcpConnState.closeWrite_of_closesAt {st : TcpConnState} {stage : Stage}
    (h : st.closesAt stage = true) :
    st.closeWrite = none := by
  cases stage with
  | setLocalClosed | isClosed | checkClosing | checkAborting =>
    revert h
    cases st <;> decide
  | _ => cases h

/-- The goroutines that do not hold `lwipMutex` do not stop a release. -/
theorem ConnMove.closesAt {s : Stack} {t : Tid} {c : ConnId} {p p' : Proc} {f : TcpConn → TcpConn}
    {stage : Stage} (hmove : ConnMove s t c p p' f) (h : (s.conns c).state.closesAt stage = true) :
    (f (s.conns c)).state.closesAt stage = true := by
  cases hmove with
  | connected hstate =>
    rw [hstate] at h
    cases stage <;> cases h
  | abort => exact TcpConnState.closesAt_abort h
  | closeWrite hstate =>
    rw [TcpConnState.closeWrite_of_closesAt h] at hstate
    cases hstate
  | _ => exact h

/-- `setLocalClosed` on a connection that is closed for writing. -/
theorem Stack.setLocalClosed_closesAt {s : Stack} {c : ConnId}
    (htx : (s.conns c).state.txClosed = true) (hopen : ¬(s.conns c).state.released) :
    ((s.setLocalClosed c).conns c).state.closesAt .isClosed = true := by
  obtain ⟨hsame, hpast⟩ | ⟨hclosed, hlt⟩ := s.setLocalClosed_cases c
  · rw [hsame]
    revert htx hopen hpast
    cases (s.conns c).state <;> decide
  · have hstate : (s.conns c).state = .tcpWriteClosed := by
      revert hlt htx
      cases (s.conns c).state <;> decide
    simp [hclosed, hstate, TcpConnState.closesAt]

theorem TaskMove.closesAt {s : Stack} {k : Task} {stage stage' : Stage}
    (hmove : TaskMove s k stage stage') (h : (s.conns k.conn).state.closesAt stage = true) :
    (s.conns k.conn).state.closesAt stage' = true := by
  cases hmove with
  | isClosed hstate => simp [hstate, TcpConnState.closesAt] at h
  | notClosed _ => exact h
  | notClosing hstate => simpa [TcpConnState.closesAt, hstate] using h
  | notAborting hstate => simp [hstate, TcpConnState.closesAt] at h
  | _ => cases h

/-- A release under way ends in the release. -/
theorem Closes.step {s s' : Stack} {a : Act} {c : ConnId} (hsec : Section s a s')
    (hinv : Closes s c) (hopen : ¬(s.conns c).state.released) (hc : s'.registered c) :
    Closes s' c := by
  obtain ⟨k, hk, rfl, hcloses⟩ := hinv
  have hstage {stage : Stage} (h : k.stage = stage) :
      (s.conns k.conn).state.closesAt stage = true := h ▸ hcloses
  cases hsec with
  | lwipLock hholder | lwipUnlock hholder | procUnlock hholder | accept hholder | acceptDone hholder _
  | cbFound _ hholder _ _ | cbUnknown _ hholder _ _ | procFound _ hholder _ _ | procUnknown _ hholder _ _
  | errFound hholder _ _ | errUnknown hholder _ _ | tcp hholder | pcb hholder _ | abortLwip _ hholder =>
    cases hholder.symm.trans hk
  | task hholder hmove =>
    cases hholder.symm.trans hk
    exact ⟨_, rfl, rfl, hmove.closesAt hcloses⟩
  | receiveErrored hholder hat _ | recved hholder hat | broadcast hholder hat | ret hholder hat
  | pipe hholder hat _ _ =>
    cases hholder.symm.trans hk
    cases hstage hat
  | localClosed hholder hat =>
    cases hholder.symm.trans hk
    exact ⟨_, rfl, rfl, Stack.setLocalClosed_closesAt (hstage hat) hopen⟩
  | closing hholder _ _ =>
    cases hholder.symm.trans hk
    have hkey (c : ConnId) : ((s.closeInternal k.conn).conns c).connKey = (s.conns c).connKey := by
      simp [Stack.closeInternal]
      split <;> simp [*]
    exact absurd hc (Stack.not_registered_release rfl hkey rfl)
  | aborting hholder _ _ =>
    cases hholder.symm.trans hk
    rw [Stack.abortInternal_eq] at hc
    exact absurd hc (Stack.not_registered_release rfl (fun c => by simp; split <;> simp [*]) rfl)
  | proc _ => exact ⟨k, hk, rfl, hcloses⟩
  | @conn t c p' f hmove =>
    refine ⟨k, hk, rfl, ?_⟩
    simp only [Stack.setProc_conns, Stack.modConn_conns]
    split
    · rename_i heq
      subst heq
      exact hmove.closesAt hcloses
    · exact hcloses

/-- A connection that the peer has closed stays so, once `newTCPConn` is done. -/
theorem Section.rxClosed {s s' : Stack} {a : Act} {c : ConnId} (hsec : Section s a s')
    (hc : c < s.accepted) (haccept : ∀ owner, s.holder ≠ .accept c owner)
    (hclosed : .tcpReceiveClosed ≤ (s.conns c).state) :
    .tcpReceiveClosed ≤ (s'.conns c).state := by
  have hstep := hsec.conns c
  generalize s'.conns c = conn' at hstep ⊢
  cases hstep with
  | same => exact hclosed
  | accept _ hnew => exact absurd hnew (Nat.ne_of_lt hc)
  | acceptDone hholder => exact absurd hholder (haccept _)
  | err _ _ _ =>
    simp only
    decide
  | release _ _ _ =>
    simp only [Stack.release_conns, if_true]
    decide
  | localClosed _ _ _ hlt => exact absurd hclosed (Nat.not_le.mpr hlt)
  | own hmove =>
    generalize s.procs _ = p at hmove
    cases hmove with
    | connected hstate =>
      rw [hstate] at hclosed
      exact absurd hclosed (by decide)
    | abort =>
      revert hclosed
      simp only
      cases (s.conns c).state <;> decide
    | @closeWrite byClose st hstate =>
      revert hclosed hstate
      simp only
      cases (s.conns c).state <;> cases st <;> decide
    | _ => exact hclosed
  | pcb hmove =>
    rw [hmove.state]
    exact hclosed
  | pipe _ _ _ => exact hclosed

private theorem Stack.setLocalClosed_rxClosed (s : Stack) (c : ConnId) :
    .tcpReceiveClosed ≤ ((s.setLocalClosed c).conns c).state := by
  obtain ⟨hsame, hpast⟩ | ⟨hclosed, -⟩ := s.setLocalClosed_cases c
  · rw [hsame]
    revert hpast
    cases (s.conns c).state <;> decide
  · rw [hclosed, Stack.broadcast_conns, Stack.modConn_conns, if_pos rfl]
    simp only
    split <;> decide

/-- A `LocalClosed` that has begun goes on, or has moved the state. -/
theorem LocalClosing.step {s s' : Stack} {a : Act} {c : ConnId} (hsec : Section s a s')
    (hinv : LocalClosing s c) :
    LocalClosing s' c ∨ .tcpReceiveClosed ≤ (s'.conns c).state := by
  obtain ⟨k, hk, rfl, hstage⟩ := hinv
  cases hsec with
  | lwipLock hholder | lwipUnlock hholder | procUnlock hholder | accept hholder | acceptDone hholder _
  | cbFound _ hholder _ _ | cbUnknown _ hholder _ _ | procFound _ hholder _ _ | procUnknown _ hholder _ _
  | errFound hholder _ _ | errUnknown hholder _ _ | tcp hholder | pcb hholder _ | abortLwip _ hholder =>
    cases hholder.symm.trans hk
  | task hholder hmove =>
    cases hholder.symm.trans hk
    rw [hstage] at hmove
    cases hmove
  | receiveErrored hholder hat _ | recved hholder hat | closing hholder hat _ | aborting hholder hat _
  | broadcast hholder hat | ret hholder hat | pipe hholder hat _ _ =>
    cases hholder.symm.trans hk
    cases hat.symm.trans hstage
  | localClosed hholder _ =>
    cases hholder.symm.trans hk
    exact .inr (s.setLocalClosed_rxClosed _)
  | proc _ => exact .inl ⟨k, hk, rfl, hstage⟩
  | conn _ => exact .inl ⟨k, hk, rfl, hstage⟩

/-- Where a callback on the pcb of `c` that a section of Go leaves running comes
    from: it ran before, or the connect goroutine has started it. -/
inductive GoTask (s : Stack) (a : Act) (c : ConnId) (k' : Task) : Prop where
  | going (k : Task) (hholder : s.holder = .task k) (hcaller : k'.caller = k.caller)
      (hconn : k'.conn = k.conn)
      (hret : k'.stage = .ret (some .LWIP_ERR_CONN) →
        k.stage = .ret (some .LWIP_ERR_CONN) ∨ (s.conns k.conn).state < .tcpConnected)
  | take (t : Tid) (p : Pbuf) (hact : a = .run t) (hproc : s.procs t = .refused c)
      (hholder : s.holder = .free)
      (hrefused : (s.pcbs c).refused_data = some p) (hfound : s.lookup c = some k'.conn)
      (hcaller : k'.caller = .recv c (some p) (some t)) (hstage : k'.stage = .receiveCheck)

theorem Section.goTask {s s' : Stack} {a : Act} {c : ConnId} {k' : Task} (hsec : Section s a s')
    (hgo : a.ofGo = true) (hk' : s'.holder = .task k') (htpcb : k'.caller.tpcb = some c) :
    GoTask s a c k' := by
  cases hsec with
  | lwipLock _ | lwipUnlock _ | procUnlock _ | accept _ | acceptDone _ _ | cbUnknown _ _ _ _
  | procUnknown _ _ _ _ => cases hk'
  | errFound hholder _ _ | errUnknown hholder _ _ | tcp hholder => cases hholder.symm.trans hk'
  | pcb hholder _ => cases hholder.symm.trans hk'
  | cbFound hcb _ _ _ => cases hcb <;> cases hgo
  | procFound hproc hholder hrefused hfound =>
    cases hk'
    cases htpcb
    exact .take _ _ rfl hproc hholder hrefused hfound rfl rfl
  | @task k stage hholder hmove =>
    cases hk'
    refine .going k hholder rfl rfl fun hret => ?_
    generalize k.stage = here at hmove
    simp only at hret
    subst hret
    cases hmove with
    | receiveConn hstate =>
      refine .inr ?_
      obtain h | h := hstate <;> rw [h] <;> decide
  | receiveErrored hholder _ _ | aborting hholder _ _ =>
    cases hk'
    exact .going _ hholder rfl rfl (by simp)
  | recved hholder _ | closing hholder _ _ | broadcast hholder _ | localClosed hholder _ =>
    cases hk'
    exact .going _ hholder rfl rfl (by simp)
  | ret hholder _ => exact absurd hk' (Stack.methodRet_not_task _ _ _ _)
  | proc _ => exact .going k' hk' rfl rfl .inl
  | conn _ => exact .going k' hk' rfl rfl .inl
  | abortLwip _ _ =>
    cases hk'
    cases htpcb
  | pipe hholder _ _ hnext =>
    cases hk'
    refine .going _ hholder rfl rfl fun hret => ?_
    simp only [hnext] at hret
    split at hret <;> cases hret

/-- The return of a method gives `lwipMutex` back to lwIP, or frees it. -/
theorem Section.ret_holder {s s' : Stack} {k : Task} {e : Option LwipError}
    (hsec : Section s .task s') (hk : s.holder = .task k) (hstage : k.stage = .ret e) (k' : Task) :
    s'.holder ≠ .task k' := by
  cases hsec with
  | ret _ _ => exact Stack.methodRet_not_task _ _ _ _
  | task hholder hmove =>
    cases hholder.symm.trans hk
    rw [hstage] at hmove
    cases hmove
  | receiveErrored hholder hat _ | recved hholder hat | localClosed hholder hat | closing hholder hat _
  | aborting hholder hat _ | broadcast hholder hat =>
    cases hholder.symm.trans hk
    cases hat.symm.trans hstage
  | cbFound hcb _ _ _ | cbUnknown hcb _ _ _ => cases hcb
  | pcb _ hmove =>
    generalize s.procs _ = p at hmove
    cases hmove
  | proc hmove =>
    generalize s.procs _ = p at hmove
    cases hmove

/-- lwIP or one of its callbacks has `lwipMutex`. -/
inductive Busy (s : Stack) : Prop where
  | lwip (owner : Option Tid) (hholder : s.holder = .lwip owner)
  | callback (k : Task) (tpcb : ConnId) (hholder : s.holder = .task k)
      (htpcb : k.caller.tpcb = some tpcb)

/-- Only a section between two calls of lwIP ends this. -/
theorem Busy.step {s s' : Stack} {a : Act} (hinv : Busy s) (hsec : Section s a s')
    (hbetween : a.between = false) : Busy s' := by
  have hnot {h : Holder} (hholder : s.holder = h) (hlwip : ∀ owner, h ≠ .lwip owner)
      (htask : ∀ k, h ≠ .task k) :
      Busy s' := by
    cases hinv with
    | lwip owner h => exact absurd (hholder.symm.trans h) (hlwip owner)
    | callback k _ h _ => exact absurd (hholder.symm.trans h) (htask k)
  have hgoing {k k' : Task} (hholder : s.holder = .task k) (hholder' : s'.holder = .task k')
      (hcaller : k'.caller = k.caller) : Busy s' := by
    cases hinv with
    | lwip owner h => cases hholder.symm.trans h
    | callback k'' tpcb h htpcb =>
      cases hholder.symm.trans h
      exact .callback k' tpcb hholder' (hcaller ▸ htpcb)
  have hframe (h : s'.holder = s.holder) : Busy s' := by
    cases hinv with
    | lwip owner hholder => exact .lwip owner (h.trans hholder)
    | callback k tpcb hholder htpcb => exact .callback k tpcb (h.trans hholder) htpcb
  cases hsec with
  | lwipUnlock _ | procUnlock _ | accept _ => cases hbetween
  | lwipLock hholder => exact hnot hholder (by simp) (by simp)
  | acceptDone _ _ => exact .lwip _ rfl
  | cbFound hcb _ _ _ => exact .callback _ _ rfl hcb.tpcb
  | cbUnknown _ _ _ _ | procUnknown _ _ _ _ => exact .lwip _ rfl
  | procFound _ hholder _ _ | pcb hholder _ | abortLwip _ hholder =>
    exact hnot hholder (by simp) (by simp)
  | errFound _ _ _ | errUnknown _ _ _ | tcp _ | proc _ | conn _ => exact hframe rfl
  | task hholder _ | receiveErrored hholder _ _ | recved hholder _ | localClosed hholder _ | closing hholder _ _
  | aborting hholder _ _ | broadcast hholder _ | pipe hholder _ _ _ => exact hgoing hholder rfl rfl
  | @ret k e hholder _ =>
    cases hinv with
    | lwip owner h => cases hholder.symm.trans h
    | callback k' tpcb h htpcb =>
      cases hholder.symm.trans h
      unfold Stack.methodRet Stack.recvRet
      split
      · split <;> exact .lwip _ rfl
      · exact .lwip _ rfl
      · exact .lwip _ rfl
      · exact .lwip _ rfl
      · rename_i hcaller
        rw [hcaller] at htpcb
        cases htpcb

/-! ### Sections that lwIP runs on its own -/

/-- The pcb a section of lwIP is about, when it runs a callback other than err. -/
def Act.callback : Act → Option ConnId
  | .recv c _ | .recvFin c | .refused c | .sent c | .poll c => some c
  | _ => none

/-- The pcb a section of lwIP is about. -/
def Act.tpcb : Act → Option ConnId
  | .err c _ | .tcp c _ => some c
  | a => a.callback

private theorem Act.tpcb_of_callback {a : Act} {c : ConnId} (h : a.callback = some c) :
    a.tpcb = some c := by
  cases a <;> first | exact h | cases h

/-- A section that begins a callback is one of lwIP's, for this pcb. -/
theorem CbStart.act {pcb : TcpPcb} {c : ConnId} {owner : Option Tid} {a : Act} {caller : Caller}
    {stage : Stage} {f : TcpPcb → TcpPcb} (hcb : CbStart pcb c owner a caller stage f) :
    a.callback = some c := by
  cases hcb <;> rfl

theorem ProcMove.act {s : Stack} {t : Tid} {a : Act} {p p' : Proc} (hmove : ProcMove s t a p p') :
    a.tpcb = none := by
  cases hmove <;> rfl

theorem PcbMove.act {s : Stack} {t : Tid} {c : ConnId} {a : Act} {p p' : Proc} {f : TcpPcb → TcpPcb}
    {g : TcpConn → TcpConn} (hmove : PcbMove s t c a p p' f g) : a.tpcb = none := by
  cases hmove <;> rfl

theorem Section.tcp_eq {s s' : Stack} {c : ConnId} {tcb : Tcb} (hsec : Section s (.tcp c tcb) s') :
    s' = s.modPcb c fun pcb => { pcb with tcb } := by
  cases hsec with
  | tcp _ => rfl
  | cbFound hcb _ _ _ | cbUnknown hcb _ _ _ => cases hcb
  | proc hmove => cases hmove.act
  | pcb _ hmove => cases hmove.act

/-- A callback for a registered connection reaches its code. -/
theorem Section.callback_eq {s s' : Stack} {a : Act} {c : ConnId} (hsec : Section s a s')
    (hact : a.callback = some c) (hc : s.registered c) :
    ∃ owner caller stage f, CbStart (s.pcbs c) c owner a caller stage f ∧
      s' = (s.modPcb c f).setHolder (.task ⟨caller, c, stage⟩) := by
  have htpcb := Act.tpcb_of_callback hact
  cases hsec with
  | cbFound hcb _ _ hfound =>
    cases hcb.act.symm.trans hact
    cases hc.symm.trans hfound
    exact ⟨_, _, _, _, hcb, rfl⟩
  | cbUnknown hcb _ _ hnone =>
    cases hcb.act.symm.trans hact
    cases hc.symm.trans hnone
  | proc hmove => cases hmove.act.symm.trans htpcb
  | pcb _ hmove => cases hmove.act.symm.trans htpcb
  | _ => cases hact

/-- The err callback ends the registration. -/
theorem Section.err_not_registered {s s' : Stack} {c : ConnId} {code : ErrT}
    (hsec : Section s (.err c code) s') (hc : s.registered c) : ¬s'.registered c := by
  cases hsec with
  | errFound _ _ hfound =>
    cases hc.symm.trans hfound
    exact Stack.not_registered_release (Stack.Err_tcpConns _ _)
      (fun c => by rw [Stack.Err_conns]; split <;> simp [*]) rfl
  | errUnknown _ _ hnone => cases hc.symm.trans hnone
  | cbFound hcb _ _ _ | cbUnknown hcb _ _ _ => cases hcb
  | proc hmove => cases hmove.act
  | pcb _ hmove => cases hmove.act

/-- A section of lwIP leaves the other registered connections and their pcbs alone. -/
theorem Section.beside {s s' : Stack} {a : Act} {c c' : ConnId} (hsec : Section s a s')
    (hact : a.tpcb = some c') (hne : c ≠ c') (hc : s'.registered c) :
    s'.pcbs c = s.pcbs c ∧ s'.conns c = s.conns c ∧ ∀ k, s'.holder = .task k →
      k.caller.tpcb ≠ some c := by
  have hpcb (f : TcpPcb → TcpPcb) : (s.modPcb c' f).pcbs c = s.pcbs c := by simp [hne]
  have hlwip {owner : Option Tid} (hholder : s.holder = .lwip owner) (k : Task) :
      s.holder ≠ .task k := by
    simp [hholder]
  cases hsec with
  | cbFound hcb _ _ _ =>
    cases (Act.tpcb_of_callback hcb.act).symm.trans hact
    refine ⟨hpcb _, rfl, ?_⟩
    rintro k hk
    cases hk
    rw [hcb.tpcb]
    exact fun h => hne (Option.some.inj h).symm
  | cbUnknown hcb _ _ _ =>
    cases (Act.tpcb_of_callback hcb.act).symm.trans hact
    refine ⟨?_, rfl, by simp⟩
    simp [hne]
  | @errFound c'' found code owner hholder _ _ =>
    cases hact
    refine ⟨hpcb _, ?_, fun k hk => absurd hk (hlwip hholder k)⟩
    rw [Stack.Err_conns, if_neg]
    · rfl
    · rintro rfl
      exact Stack.not_registered_release (Stack.Err_tcpConns _ _)
        (fun c => by rw [Stack.Err_conns]; split <;> simp [*]) rfl hc
  | errUnknown hholder _ _ =>
    cases hact
    exact ⟨hpcb _, rfl, fun k hk => absurd hk (hlwip hholder k)⟩
  | tcp hholder =>
    cases hact
    exact ⟨hpcb _, rfl, fun k hk => absurd hk (hlwip hholder k)⟩
  | proc hmove => cases hmove.act.symm.trans hact
  | pcb _ hmove => cases hmove.act.symm.trans hact
  | _ => cases hact

end tun2proxy.core
