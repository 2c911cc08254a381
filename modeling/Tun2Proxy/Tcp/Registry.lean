import Tun2Proxy.Tcp.Life

open tun2proxy.machine tun2proxy.machine.Machine

namespace tun2proxy.core

/-- A state that is not released does not become so without `release`. -/
theorem StateMove.released_of_released {s : Stack} {a : Act} {c : ConnId} {st st' : TcpConnState}
    (hmove : StateMove s a c st st') (hreleased : st'.released) : st.released := by
  cases hmove with
  | same => exact hreleased
  | connecting _ _ | connected | localClosing | localClosed _ => cases hreleased <;> contradiction
  | abort => revert hreleased; cases st <;> decide
  | closeWrite hstate => revert hstate hreleased; cases st <;> cases st' <;> decide

/-- What `tcpConns` holds: accepted connections under their own keys, none of
    them released. -/
structure Registry (s : Stack) : Prop where
  accepted : ∀ {key : UInt32} {c : ConnId}, s.tcpConns key = some c → c < s.accepted
  connKey : ∀ {key : UInt32} {c : ConnId}, s.tcpConns key = some c → (s.conns c).connKey = key
  notReleased : ∀ {key : UInt32} {c : ConnId}, s.tcpConns key = some c → ¬(s.conns c).state.released

namespace Registry

theorem init : Registry Stack.init where
  accepted h := by cases h
  connKey h := by cases h
  notReleased h := by cases h

/-- The connection that a callback finds is registered under its own key. -/
theorem lookup_found {s : Stack} (hinv : Registry s) {c found : ConnId}
    (hfound : s.lookup c = some found) :
    s.lookup found = some found := by
  have hkey : (s.conns found).connKey = (s.conns c).connKey := hinv.connKey hfound
  rw [Stack.lookup, hkey]
  exact hfound

/-- A step that registers and releases nothing keeps the invariant. -/
theorem keep {s s' : Stack} {a : Act} (hinv : Registry s) (haccepted : s'.accepted = s.accepted)
    (htcpConns : s'.tcpConns = s.tcpConns) (hkey : ∀ c, (s'.conns c).connKey = (s.conns c).connKey)
    (hmove : ∀ c, StateMove s a c (s.conns c).state (s'.conns c).state) : Registry s' where
  accepted h := by
    rw [haccepted]
    exact hinv.accepted (htcpConns ▸ h)
  connKey h := by
    rw [hkey]
    exact hinv.connKey (htcpConns ▸ h)
  notReleased h hreleased := hinv.notReleased (htcpConns ▸ h)
    ((hmove _).released_of_released hreleased)

/-- To register a new connection keeps the invariant, whatever was under its key. -/
theorem accept {s s' : Stack} {key : UInt32} (hinv : Registry s)
    (haccepted : s'.accepted = s.accepted + 1)
    (htcpConns : s'.tcpConns = Function.update s.tcpConns key (some s.accepted))
    (hconns : s'.conns = Function.update s.conns s.accepted (newConn key)) : Registry s' := by
  -- an entry of the new map is the new connection, or an older one that kept everything
  have hcases {key' : UInt32} {c : ConnId} (h : s'.tcpConns key' = some c) :
      (key' = key ∧ c = s.accepted) ∨ (s.tcpConns key' = some c ∧ s'.conns c = s.conns c) := by
    rw [htcpConns, Function.update_apply] at h
    split at h
    · cases h
      exact .inl ⟨‹_›, rfl⟩
    · have hne : c ≠ s.accepted := Nat.ne_of_lt (hinv.accepted h)
      exact .inr ⟨h, by rw [hconns, Function.update_of_ne hne]⟩
  have hnew : s'.conns s.accepted = newConn key := by rw [hconns, Function.update_self]
  constructor
  · intro key' c h
    rw [haccepted]
    obtain ⟨-, rfl⟩ | ⟨hold, -⟩ := hcases h
    · exact Nat.lt_succ_self _
    · exact Nat.lt_succ_of_lt (hinv.accepted hold)
  · intro key' c h
    obtain ⟨rfl, rfl⟩ | ⟨hold, hsame⟩ := hcases h
    · rw [hnew]
      rfl
    · rw [hsame]
      exact hinv.connKey hold
  · intro key' c h
    obtain ⟨rfl, rfl⟩ | ⟨hold, hsame⟩ := hcases h
    · rw [hnew]
      simp [newConn, TcpConnState.released]
    · rw [hsame]
      exact hinv.notReleased hold

/-- To take a connection out of `tcpConns` keeps the invariant, whatever state that leaves it
    in. -/
theorem release {s s' : Stack} {c : ConnId} {st : TcpConnState} (hinv : Registry s)
    (haccepted : s'.accepted = s.accepted)
    (htcpConns : s'.tcpConns = Function.update s.tcpConns (s.conns c).connKey none)
    (hkey : ∀ c', (s'.conns c').connKey = (s.conns c').connKey)
    (hstate : ∀ c', (s'.conns c').state = if c' = c then st else (s.conns c').state) :
    Registry s' := by
  have hold {key : UInt32} {c' : ConnId} (h : s'.tcpConns key = some c') :
      key ≠ (s.conns c).connKey ∧ s.tcpConns key = some c' := by
    rw [htcpConns, Function.update_apply] at h
    split at h
    · cases h
    · exact ⟨‹_›, h⟩
  constructor
  · intro key c' h
    rw [haccepted]
    exact hinv.accepted (hold h).2
  · intro key c' h
    rw [hkey]
    exact hinv.connKey (hold h).2
  · intro key c' h
    obtain ⟨hne, hreg⟩ := hold h
    have hother : c' ≠ c := by
      intro heq
      exact hne (heq ▸ (hinv.connKey hreg).symm)
    rw [hstate, if_neg hother]
    exact hinv.notReleased hreg

theorem step {s s' : Stack} {a : Act} (hinv : Registry s) (hlife : Life s a s') : Registry s' := by
  cases hlife with
  | keep haccepted htcpConns hkey hmove _ => exact hinv.keep haccepted htcpConns hkey hmove
  | accept key hact haccepted htcpConns hconns _ => exact hinv.accept haccepted htcpConns hconns
  | unknown tpcb _ _ haccepted htcpConns hconns =>
    refine hinv.keep (a := a) haccepted htcpConns (fun c => by rw [hconns]) fun c => ?_
    rw [hconns]
    exact .same
  | release c tpcb st hreleased hcause haccepted htcpConns hkey hstate _ =>
    exact hinv.release haccepted htcpConns hkey hstate

end Registry

/-- The methods of `TCPConn` that run while `lwipMutex` is held. -/
inductive Method where
  | Receive
  | LocalClosed
  | Sent
  | Poll
  | Abort
  deriving DecidableEq, Repr

/-- The method of `tcpConn` that a callback calls. -/
def Caller.method : Caller → Method
  | .recv _ (some _) _ => .Receive
  | .recv _ none _ => .LocalClosed
  | .sent _ _ => .Sent
  | .poll _ _ => .Poll
  | .abort _ => .Abort

/-- The places that belong to `Receive`. -/
def Stage.ofReceive : Stage → Bool
  | .receiveCheck | .pipeStart | .pipeWrite _ _ | .recved _ => true
  | _ => false

/-- What holds of the code that has `lwipMutex`: until its method returns, a
    callback's connection is registered, and these are the codes it can return. -/
structure TaskOk (s : Stack) (k : Task) : Prop where
  found : k.caller.method ≠ .Abort → (∀ e, k.stage ≠ .ret e) → s.lookup k.conn = some k.conn
  -- `Receive` does not release its connection
  receiveFound : k.caller.method = .Receive → s.lookup k.conn = some k.conn
  ofReceive : (∀ e, k.stage ≠ .ret e) → (k.stage.ofReceive = true ↔ k.caller.method = .Receive)
  receiveRet : ∀ e, k.stage = .ret e → k.caller.method = .Receive →
    e = some .LWIP_ERR_CONN ∨ e = some .LWIP_ERR_CLSD ∨ e = some .LWIP_ERR_OK
  checkRet : ∀ e, k.stage = .ret e → k.caller.method ≠ .Receive → k.caller.method ≠ .Abort →
    e = some .LWIP_ERR_OK ∨ e = some .LWIP_ERR_ABRT

namespace TaskOk

/-- Steps of other goroutines. -/
theorem frame {s s' : Stack} {k : Task} (hinv : TaskOk s k) (htcpConns : s'.tcpConns = s.tcpConns)
    (hkey : ∀ c, (s'.conns c).connKey = (s.conns c).connKey) : TaskOk s' k where
  found hcallback hstage := by
    rw [Stack.lookup, hkey, htcpConns]
    exact hinv.found hcallback hstage
  receiveFound hmethod := by
    rw [Stack.lookup, hkey, htcpConns]
    exact hinv.receiveFound hmethod
  ofReceive := hinv.ofReceive
  receiveRet := hinv.receiveRet
  checkRet := hinv.checkRet

/-- A task that goes on to a place before the return of its method. -/
theorem goto {s s' : Stack} {k k' : Task} (hinv : TaskOk s k) (hstage : ∀ e, k.stage ≠ .ret e)
    (hcaller : k'.caller = k.caller) (hconn : k'.conn = k.conn) (hnext : ∀ e, k'.stage ≠ .ret e)
    (hreceive : k'.stage.ofReceive = k.stage.ofReceive) (htcpConns : s'.tcpConns = s.tcpConns)
    (hkey : (s'.conns k.conn).connKey = (s.conns k.conn).connKey) :
    TaskOk s' k' where
  found hcallback _ := by
    rw [Stack.lookup, hconn, hkey, htcpConns]
    exact hinv.found (hcaller ▸ hcallback) hstage
  receiveFound hmethod := by
    rw [Stack.lookup, hconn, hkey, htcpConns]
    exact hinv.receiveFound (hcaller ▸ hmethod)
  ofReceive _ := by
    rw [hreceive, hcaller]
    exact hinv.ofReceive hstage
  receiveRet e hret := absurd hret (hnext e)
  checkRet e hret := absurd hret (hnext e)

/-- `Receive` returns. -/
theorem ret_receive {s s' : Stack} {k k' : Task} {e : Option LwipError} (hinv : TaskOk s k)
    (hstage : ∀ e, k.stage ≠ .ret e) (hreceive : k.stage.ofReceive = true)
    (hcaller : k'.caller = k.caller) (hconn : k'.conn = k.conn) (hret : k'.stage = .ret e)
    (htcpConns : s'.tcpConns = s.tcpConns) (hconns : s'.conns = s.conns)
    (he : e = some .LWIP_ERR_CONN ∨ e = some .LWIP_ERR_CLSD ∨ e = some .LWIP_ERR_OK) :
    TaskOk s' k' := by
  have hmethod : k'.caller.method = .Receive := hcaller ▸ (hinv.ofReceive hstage).mp hreceive
  constructor
  · intro _ hno
    exact absurd hret (hno e)
  · intro _
    rw [Stack.lookup, hconn, hconns, htcpConns]
    exact hinv.receiveFound (hcaller ▸ hmethod)
  · intro hno
    exact absurd hret (hno e)
  · intro e' he' _
    cases hret.symm.trans he'
    exact he
  · intro _ _ hne
    exact absurd hmethod hne

/-- One of the other methods returns. -/
theorem ret_check {s s' : Stack} {k k' : Task} {e : Option LwipError} (hinv : TaskOk s k)
    (hstage : ∀ e, k.stage ≠ .ret e) (hreceive : k.stage.ofReceive = false)
    (hcaller : k'.caller = k.caller) (hret : k'.stage = .ret e)
    (he : k.caller.method ≠ .Abort → e = some .LWIP_ERR_OK ∨ e = some .LWIP_ERR_ABRT) :
    TaskOk s' k' := by
  have hmethod : k'.caller.method ≠ .Receive := by
    intro heq
    have htrue := (hinv.ofReceive hstage).mpr (hcaller ▸ heq)
    rw [hreceive] at htrue
    cases htrue
  constructor
  · intro _ hno
    exact absurd hret (hno e)
  · intro heq
    exact absurd heq hmethod
  · intro hno
    exact absurd hret (hno e)
  · intro _ _ heq
    exact absurd heq hmethod
  · intro e' he' _ hcallback
    cases hret.symm.trans he'
    exact he (hcaller ▸ hcallback)

theorem move {s : Stack} {k : Task} {stage : Stage} (hreg : Registry s) (hinv : TaskOk s k)
    (hmove : TaskMove s k k.stage stage) : TaskOk (s.goto k stage) { k with stage } := by
  generalize hstage : k.stage = here at hmove
  have hgoing {st : Stage} (h : k.stage = st) (hne : ∀ e, st ≠ .ret e) : ∀ e, k.stage ≠ .ret e := by
    intro e
    rw [h]
    exact hne e
  cases hmove with
  | receiveOk _ | pipeOpen _ | notClosed _ | notClosing _ | notAborting _ =>
    exact hinv.goto (hgoing hstage (by simp)) rfl rfl (by simp) (by rw [hstage]; rfl) rfl rfl
  | receiveConn _ | receiveClsd _ | pipeClosed _ | pipeBroken _ =>
    exact hinv.ret_receive (hgoing hstage (by simp)) (by rw [hstage]; rfl) rfl rfl rfl rfl rfl
      (by simp)
  | isClosed hstate =>
    refine hinv.ret_check (hgoing hstage (by simp)) (by rw [hstage]; rfl) rfl rfl ?_
    intro hcallback
    have hfound := hinv.found hcallback (hgoing hstage (by simp))
    exact absurd (.inl hstate) (hreg.notReleased hfound)

end TaskOk

/-- The code that holds `lwipMutex` is at a place its method has, with what that place relies
    on. -/
def TaskInv (s : Stack) : Prop := ∀ k, s.holder = .task k → TaskOk s k

/-- A callback begins at the beginning of its method. -/
theorem CbStart.taskOk {s : Stack} {pcb : TcpPcb} {c found : ConnId} {owner : Option Tid} {a : Act}
    {caller : Caller} {stage : Stage} {f : TcpPcb → TcpPcb}
    (hcb : CbStart pcb c owner a caller stage f) (hfound : s.lookup found = some found) :
    TaskOk s ⟨caller, found, stage⟩ := by
  cases hcb <;> exact ⟨fun _ _ => hfound, fun _ => hfound,
    fun _ => by simp [Stage.ofReceive, Caller.method],
    fun e h => by simp at h, fun e h => by simp at h⟩

theorem TaskInv.step {s s' : Stack} {a : Act} (hreg : Registry s) (hinv : TaskInv s)
    (hsec : Section s a s') :
    TaskInv s' := by
  intro k' hk'
  cases hsec with
  | lwipLock _ | lwipUnlock _ | procUnlock _ | accept _ | acceptDone _ _ | cbUnknown _ _ _ _
  | procUnknown _ _ _ _ => cases hk'
  | errFound hholder _ _ | errUnknown hholder _ _ | tcp hholder => cases hholder.symm.trans hk'
  | pcb hholder _ => cases hholder.symm.trans hk'
  | cbFound hcb hholder hlive hfound =>
    cases hk'
    exact hcb.taskOk (hreg.lookup_found hfound)
  | procFound hproc hholder hrefused hfound =>
    cases hk'
    exact ⟨fun _ _ => hreg.lookup_found hfound, fun _ => hreg.lookup_found hfound,
      fun _ => by simp [Stage.ofReceive, Caller.method],
      fun e h => by simp at h, fun e h => by simp at h⟩
  | task hholder hmove =>
    cases hk'
    exact (hinv _ hholder).move hreg hmove
  | @receiveErrored k hholder hstage hstate =>
    -- a registered connection is not in `tcpErrored`
    have hok := hinv _ hholder
    have hgoing : ∀ e, k.stage ≠ .ret e := by simp [hstage]
    have hmethod := (hok.ofReceive hgoing).mp (by rw [hstage]; rfl)
    have hfound := hok.found (by simp [hmethod]) hgoing
    exact absurd (.inr hstate) (hreg.notReleased hfound)
  | recved hholder hstage =>
    cases hk'
    exact (hinv _ hholder).ret_receive (by simp [hstage]) (by rw [hstage]; rfl) rfl rfl rfl rfl rfl
      (by simp)
  | @localClosed k hholder hstage =>
    cases hk'
    have hkey : ((s.setLocalClosed k.conn).conns k.conn).connKey = (s.conns k.conn).connKey := by
      obtain ⟨hsame, -⟩ | ⟨hclosed, -⟩ := s.setLocalClosed_cases k.conn
      · rw [hsame]
      · simp [hclosed]
    exact (hinv _ hholder).goto (by simp [hstage]) rfl rfl (by simp) (by rw [hstage]; rfl)
      (by simp) hkey
  | closing hholder hstage hstate =>
    cases hk'
    exact (hinv _ hholder).ret_check (by simp [hstage]) (by rw [hstage]; rfl) rfl rfl (by simp)
  | aborting hholder hstage hstate =>
    cases hk'
    exact (hinv _ hholder).ret_check (by simp [hstage]) (by rw [hstage]; rfl) rfl rfl (by simp)
  | broadcast hholder hstage =>
    cases hk'
    exact (hinv _ hholder).ret_check (by simp [hstage]) (by rw [hstage]; rfl) rfl rfl (by simp)
  | ret hholder hstage => exact absurd hk' (Stack.methodRet_not_task _ _ _ _)
  | proc hmove => exact (hinv k' hk').frame rfl fun _ => rfl
  | conn hmove =>
    refine (hinv k' hk').frame rfl fun c => ?_
    simp only [Stack.setProc_conns, Stack.modConn_conns]
    split
    · rename_i heq
      rw [hmove.key, heq]
    · rfl
  | abortLwip hproc hholder =>
    cases hk'
    exact ⟨fun h => absurd rfl h, fun h => absurd h (by simp [Caller.method]),
      fun _ => by simp [Stage.ofReceive, Caller.method],
      fun e h => by simp at h, fun e h => by simp at h⟩
  | pipe hholder hstage hproc hnext =>
    cases hk'
    have hnot (rest : List UInt8) (n : Nat) (cond : Prop) [Decidable cond] :
        (∀ e, (if cond then Stage.recved n else .pipeWrite rest n) ≠ .ret e) ∧
          (if cond then Stage.recved n else .pipeWrite rest n).ofReceive = true := by
      split <;> exact ⟨by simp, rfl⟩
    refine (hinv _ hholder).goto (by simp [hstage]) rfl rfl ?_ ?_ rfl (by simp)
    · rw [hnext]
      exact (hnot _ _ _).1
    · rw [hnext, hstage]
      exact (hnot _ _ _).2

/-- Both invariants hold in every reachable state, whatever keys are drawn. -/
theorem reach_registry {s : Stack} (h : Reach tcpMachine any s) : Registry s ∧ TaskInv s := by
  refine Reach.invariant (P := fun s => Registry s ∧ TaskInv s) ⟨Registry.init, ?_⟩ ?_ h
  · intro k hk
    cases hk
  · intro s a s' _ hinv _ hstep
    have hsec := Stack.step_section hstep
    exact ⟨hinv.1.step hsec.life, hinv.2.step hinv.1 hsec⟩

/-- The sections left until a method other than `Receive` returns. -/
def Stage.rank : Stage → Nat
  | .setLocalClosed => 5
  | .isClosed => 4
  | .checkClosing => 3
  | .checkAborting => 2
  | .broadcast => 1
  | _ => 0

/-- Outside `Receive` nothing blocks the code that holds `lwipMutex`. -/
theorem taskStep_progress {s : Stack} {k : Task} (hholder : s.holder = .task k)
    (hreceive : k.stage.ofReceive = false) (hgoing : ∀ e, k.stage ≠ .ret e) :
    ∃ s' k', s.step .task = some s' ∧ s'.holder = .task k' ∧ k'.caller = k.caller ∧
      k'.stage.ofReceive = false ∧ k'.stage.rank < k.stage.rank := by
  simp only [Stack.step, hholder, Stack.taskStep]
  cases hstage : k.stage with
  | receiveCheck | pipeStart | pipeWrite _ _ | recved _ =>
    simp [hstage, Stage.ofReceive] at hreceive
  | ret e => exact absurd hstage (hgoing e)
  | setLocalClosed => exact ⟨_, _, rfl, rfl, rfl, rfl, by simp [Stage.rank]⟩
  | broadcast => exact ⟨_, _, rfl, rfl, rfl, rfl, by simp [Stage.rank]⟩
  | isClosed =>
    simp only
    split
    · exact ⟨_, _, rfl, rfl, rfl, rfl, by simp [Stage.rank]⟩
    · exact ⟨_, _, rfl, rfl, rfl, rfl, by simp [Stage.rank]⟩
  | checkClosing =>
    simp only [Stack.checkClosing]
    split
    · exact ⟨_, _, rfl, rfl, rfl, rfl, by simp [Stage.rank]⟩
    · exact ⟨_, _, rfl, rfl, rfl, rfl, by simp [Stage.rank]⟩
  | checkAborting =>
    simp only [Stack.checkAborting]
    split
    · exact ⟨_, _, rfl, rfl, rfl, rfl, by simp [Stage.rank]⟩
    · exact ⟨_, _, rfl, rfl, rfl, rfl, by simp [Stage.rank]⟩

private theorem task_returns {s : Stack} {k : Task} (hholder : s.holder = .task k)
    (hreceive : k.stage.ofReceive = false) :
    ∃ n s' k' e, tcpMachine.run any s (List.replicate n .task) = some s' ∧ s'.holder = .task k' ∧
      k'.caller = k.caller ∧ k'.stage = .ret e := by
  -- on the sections left
  induction hrank : k.stage.rank using Nat.strongRecOn generalizing s k with
  | _ r ih =>
    by_cases hret : ∃ e, k.stage = .ret e
    · obtain ⟨e, he⟩ := hret
      exact ⟨0, s, k, e, rfl, hholder, rfl, he⟩
    · obtain ⟨mid, k', hstep, hholder', hcaller, hreceive', hlt⟩ :=
        taskStep_progress hholder hreceive fun e he => hret ⟨e, he⟩
      obtain ⟨n, s', k'', e, hrun, hend, hcaller', he⟩ := ih _ (hrank ▸ hlt) hholder' hreceive' rfl
      refine ⟨n + 1, s', k'', e, ?_, hend, hcaller'.trans hcaller, he⟩
      rw [List.replicate_succ, run_cons trivial hstep]
      exact hrun

/-- In every reachable state of any interleaving, no connection in `tcpConns` is released; keys
    may be drawn twice. So `LocalClosed`, `Sent` and `Poll` return to the callback that called
    them, with code OK or ABRT and never nil, and `receiveCheck` takes neither of its two
    branches for an unexpected state. -/
theorem registry_invariant (s : Stack) (h : Reach tcpMachine any s) :
    (∀ key c, s.tcpConns key = some c → ¬(s.conns c).state.released) ∧
    (∀ k, s.holder = .task k →
      k.caller.method = .LocalClosed ∨ k.caller.method = .Sent ∨ k.caller.method = .Poll →
      (∀ e, k.stage = .ret e → e = some .LWIP_ERR_OK ∨ e = some .LWIP_ERR_ABRT) ∧
      ∃ n s' k' e, tcpMachine.run any s (List.replicate n .task) = some s' ∧ s'.holder = .task k' ∧
        k'.caller = k.caller ∧ k'.stage = .ret e ∧
        (e = some .LWIP_ERR_OK ∨ e = some .LWIP_ERR_ABRT)) ∧
    (∀ k, s.holder = .task k → k.caller.method = .Receive → k.stage = .receiveCheck →
      (s.conns k.conn).state ≠ .tcpErrored ∧ (s.receiveCheck k.conn).2 ≠ some .LWIP_ERR_ABRT) := by
  obtain ⟨hreg, htask⟩ := reach_registry h
  refine ⟨fun key c => hreg.notReleased, ?_, ?_⟩
  · intro k hholder hmethod
    have hcheck : k.caller.method ≠ .Receive ∧ k.caller.method ≠ .Abort := by
      obtain h | h | h := hmethod <;> simp [h]
    have hok := htask k hholder
    refine ⟨fun e he => hok.checkRet e he hcheck.1 hcheck.2, ?_⟩
    by_cases hret : ∃ e, k.stage = .ret e
    · obtain ⟨e, he⟩ := hret
      exact ⟨0, s, k, e, rfl, hholder, rfl, he, hok.checkRet e he hcheck.1 hcheck.2⟩
    · have hreceive : k.stage.ofReceive = false := by
        rw [Bool.eq_false_iff]
        intro htrue
        exact hcheck.1 ((hok.ofReceive fun e he => hret ⟨e, he⟩).mp htrue)
      obtain ⟨n, s', k', e, hrun, hend, hcaller, he⟩ := task_returns hholder hreceive
      have hok' := (reach_registry (h.run hrun)).2 k' hend
      exact ⟨n, s', k', e, hrun, hend, hcaller, he,
        hok'.checkRet e he (hcaller ▸ hcheck.1) (hcaller ▸ hcheck.2)⟩
  · intro k hholder hmethod hstage
    have hfound := (htask k hholder).found (by simp [hmethod]) (by simp [hstage])
    have hstate : (s.conns k.conn).state ≠ .tcpErrored :=
      fun heq => hreg.notReleased hfound (.inr heq)
    refine ⟨hstate, ?_⟩
    unfold Stack.receiveCheck
    split <;> simp_all

/-- A sent callback that returns. -/
theorem registry_invariant_sent : ∃ s k e, Reach tcpMachine any s ∧ s.holder = .task k ∧
    k.caller = .sent 0 none ∧ k.stage = .ret e ∧ (e = some .LWIP_ERR_OK ∨
      e = some .LWIP_ERR_ABRT) := by
  obtain ⟨s, hreach, hholder⟩ := exists_reach_of_run tcpMachine any
    [.lwipLock, .accept 7, .acceptDone 0, .sent 0, .task, .task, .task, .task]
    (fun s => s.holder = .task ⟨.sent 0 none, 0, .ret (some .LWIP_ERR_OK)⟩) (by decide)
  exact ⟨s, _, _, hreach, hholder, rfl, rfl,
    ((registry_invariant s hreach).2.1 _ hholder (.inr (.inl rfl))).1 _ rfl⟩

end tun2proxy.core
