import Tun2Proxy.Tcp.Procs

open tun2proxy.machine tun2proxy.machine.Machine

namespace tun2proxy.core

/-- The connection that `newTCPConn` is working on. -/
def Holder.accepting : Holder → Option ConnId
  | .accept c _ => some c
  | _ => none

/-- No `Abort` came between `tcpConns.Store` and the change to `tcpConnecting`
    that `newTCPConn` makes whatever the state is. -/
def AcceptUndisturbed (s : Stack) : Act → Prop
  | .acceptDone _ => ∀ c ∈ s.holder.accepting, (s.conns c).state = .tcpNewConn
  | _ => True

instance (s : Stack) : (a : Act) → Decidable (AcceptUndisturbed s a)
  | .acceptDone _ =>
    inferInstanceAs (Decidable (∀ c ∈ s.holder.accepting, (s.conns c).state = .tcpNewConn))
  | .lwipLock | .lwipUnlock | .accept _ | .recv _ _ | .recvFin _ | .refused _ | .sent _ | .poll _ | .err _ _
  | .tcp _ _ | .task | .call _ _ | .handled _ _ | .write _ _ _ | .shutdown _ _ | .run _ | .pipe _
    => inferInstanceAs (Decidable True)

/-- An accept that was not disturbed finds the connection as `newTCPConn` has left it. -/
theorem AcceptUndisturbed.state {s : Stack} {t : Tid} {c : ConnId} {owner : Option Tid}
    (hok : AcceptUndisturbed s (.acceptDone t)) (hholder : s.holder = .accept c owner) :
    (s.conns c).state = .tcpNewConn := by
  apply hok c
  rw [hholder]
  rfl

/-- Such a step does not lower the state. -/
theorem StateMove.le {s : Stack} {a : Act} {c : ConnId} {st' : TcpConnState}
    (hmove : StateMove s a c (s.conns c).state st') (hok : AcceptUndisturbed s a) :
    (s.conns c).state ≤ st' := by
  generalize hst : (s.conns c).state = st at hmove
  cases hmove with
  | same => exact Nat.le_refl _
  | connecting hact hholder =>
    subst hact
    rw [← hst, hok.state hholder]
    decide
  | connected => decide
  | abort => cases st <;> decide
  | closeWrite hstate => revert hstate; cases st <;> cases st' <;> decide
  | localClosing => decide
  | localClosed hlt => exact Nat.le_of_lt hlt

private theorem TcpConnState.le_of_released {st st' : TcpConnState} (hold : ¬st.released)
    (hreleased : st'.released) :
    st ≤ st' := by
  revert hold hreleased
  cases st <;> cases st' <;> decide

/-- One step, in an undisturbed run. -/
theorem step_state_le {s s' : Stack} {a : Act} (hreg : Registry s) (htask : TaskInv s)
    (hok : AcceptUndisturbed s a) (hsec : Section s a s') {c : ConnId} (hc : c < s.accepted) :
    (s.conns c).state ≤ (s'.conns c).state := by
  cases hsec.life with
  | keep _ _ _ hmove _ => exact (hmove c).le hok
  | accept key _ _ _ hconns _ =>
    rw [hconns, Function.update_of_ne (Nat.ne_of_lt hc)]
    exact Nat.le_refl _
  | unknown _ _ _ _ _ hconns =>
    rw [hconns]
    exact Nat.le_refl _
  | release c' tpcb st hreleased hcause _ _ _ hstate _ =>
    rw [hstate]
    split
    · rename_i heq
      subst heq
      exact TcpConnState.le_of_released (hcause.not_released hreg htask) hreleased
    · exact Nat.le_refl _

/-- How far an `Abort` has come: its state change is not lost, and past
    `checkAborting` the connection is released. -/
structure AbortInv (s : Stack) : Prop where
  lwip : ∀ t c, s.procs t = .abortLwip c → .tcpAborting ≤ (s.conns c).state
  check : ∀ k t, s.holder = .task k → k.caller = .abort t → .tcpAborting ≤ (s.conns k.conn).state
  checked : ∀ k t, s.holder = .task k → k.caller = .abort t →
    k.stage = .broadcast ∨ (∃ e, k.stage = .ret e) → (s.conns k.conn).state.released
  aborted : ∀ t c, s.procs t = .aborted c → (s.conns c).state.released

private theorem TcpConnState.tcpAborting_le_abort (st : TcpConnState) : .tcpAborting ≤ st.abort := by
  cases st <;> decide

private theorem TcpConnState.released_of_ne {st : TcpConnState} (hle : .tcpAborting ≤ st)
    (hne : st ≠ .tcpAborting) :
    st.released := by
  revert hle hne
  cases st <;> decide

/-- The released states are the last ones. -/
theorem TcpConnState.released_iff {st : TcpConnState} : st.released ↔ .tcpClosed ≤ st := by
  cases st <;> decide

namespace AbortInv

theorem init : AbortInv Stack.init where
  lwip t c h := by cases h
  check k t h := by cases h
  checked k t h := by cases h
  aborted t c h := by cases h

section
variable {s s' : Stack} {a : Act} (hinv : AbortInv s)
  (hle : ∀ c, c < s.accepted → (s.conns c).state ≤ (s'.conns c).state) (hbounds : Bounds s)
  (hsec : Section s a s')
include hinv hle hbounds hsec

private theorem lwip_step (t : Tid) (c : ConnId) (hproc' : s'.procs t = .abortLwip c) :
    .tcpAborting ≤ (s'.conns c).state := by
  have hkeep (hproc : s.procs t = .abortLwip c) : .tcpAborting ≤ (s'.conns c).state :=
    Nat.le_trans (hinv.lwip t c hproc) (hle c (hbounds.procs t c (by rw [hproc]; rfl)))
  have hstep := hsec.procs t
  generalize hp : s.procs t = p at hstep
  generalize s'.procs t = p' at hstep hproc'
  cases hstep with
  | same => exact hkeep (hp.trans hproc')
  | woken c' => exact hkeep (hp.trans (Proc.eq_of_wake_eq hproc' (by simp)))
  | own hown =>
    cases hown with
    | conn _ hmove hconn =>
      cases hmove with
      | abort =>
        cases hproc'
        rw [hconn]
        exact TcpConnState.tcpAborting_le_abort _
      | _ => cases hproc'
    | proc hmove =>
      cases hmove with
      | @call op _ _ => cases op <;> cases hproc'
      | _ => cases hproc'
    | pcb _ hmove => cases hmove <;> cases hproc'
    | _ => cases hproc'

private theorem aborted_step (t : Tid) (c : ConnId) (hproc' : s'.procs t = .aborted c) :
    (s'.conns c).state.released := by
  have hkeep (hc : c < s.accepted) (hreleased : (s.conns c).state.released) :
      (s'.conns c).state.released :=
    TcpConnState.released_iff.mpr (Nat.le_trans (TcpConnState.released_iff.mp hreleased) (hle c hc))
  have hsame (hproc : s.procs t = .aborted c) : (s'.conns c).state.released :=
    hkeep (hbounds.procs t c (by rw [hproc]; rfl)) (hinv.aborted t c hproc)
  have hstep := hsec.procs t
  generalize hp : s.procs t = p at hstep
  generalize s'.procs t = p' at hstep hproc'
  cases hstep with
  | same => exact hsame (hp.trans hproc')
  | woken c' => exact hsame (hp.trans (Proc.eq_of_wake_eq hproc' (by simp)))
  | own hown =>
    cases hown with
    | @aborted _ k e hholder hcaller hstage =>
      cases hproc'
      exact hkeep (hbounds.task k hholder) (hinv.checked k t hholder hcaller (.inr ⟨e, hstage⟩))
    | conn _ hmove _ => cases hmove <;> cases hproc'
    | proc hmove =>
      cases hmove with
      | @call op _ _ => cases op <;> cases hproc'
      | _ => cases hproc'
    | pcb _ hmove => cases hmove <;> cases hproc'
    | _ => cases hproc'

theorem check_step (k' : Task) (t : Tid) (hk' : s'.holder = .task k')
    (hcaller : k'.caller = .abort t) :
    .tcpAborting ≤ (s'.conns k'.conn).state := by
  have hkeep {k : Task} (hholder : s.holder = .task k) (habort : k.caller = .abort t) :
      .tcpAborting ≤ (s'.conns k.conn).state :=
    Nat.le_trans (hinv.check k t hholder habort) (hle _ (hbounds.task k hholder))
  cases hsec with
  | cbFound hcb _ _ _ =>
    cases hk'
    cases hcb <;> cases hcaller
  | procFound _ _ _ _ =>
    cases hk'
    cases hcaller
  | abortLwip hproc hholder =>
    cases hk'
    exact hinv.lwip _ _ hproc
  | task hholder _ | receiveErrored hholder _ _ | recved hholder _ | closing hholder _ _
  | aborting hholder _ _ | broadcast hholder _ | localClosed hholder _ | pipe hholder _ _ _ =>
    have hstate := @hkeep _ hholder
    cases hk'
    exact hstate hcaller
  | ret hholder _ => exact absurd hk' (Stack.methodRet_not_task _ _ _ _)
  | errFound _ _ _ | errUnknown _ _ _ | tcp _ | proc _ | conn _ | pcb _ _ => exact hkeep hk' hcaller
  | _ => cases hk'

private theorem checked_step (htask : TaskInv s) (k' : Task) (t : Tid) (hk' : s'.holder = .task k')
    (hcaller : k'.caller = .abort t) (hstage' : k'.stage = .broadcast ∨ ∃ e, k'.stage = .ret e) :
    (s'.conns k'.conn).state.released := by
  have hsame {k : Task} (hholder : s.holder = .task k) (habort : k.caller = .abort t)
      (hchecked : k.stage = .broadcast ∨ ∃ e, k.stage = .ret e) :
        (s'.conns k.conn).state.released := by
    have hreleased := hinv.checked k t hholder habort hchecked
    exact TcpConnState.released_iff.mpr
      (Nat.le_trans (TcpConnState.released_iff.mp hreleased) (hle _ (hbounds.task k hholder)))
  -- `Abort` is never in `Receive`
  have hreceive {k : Task} (hholder : s.holder = .task k) (habort : k.caller = .abort t)
      (hgoing : ∀ e, k.stage ≠ .ret e) : k.stage.ofReceive = false := by
    rw [Bool.eq_false_iff]
    intro htrue
    have hmethod := ((htask k hholder).ofReceive hgoing).mp htrue
    rw [habort] at hmethod
    cases hmethod
  cases hsec with
  | cbFound hcb _ _ _ =>
    cases hk'
    cases hcb <;> cases hcaller
  | procFound _ _ _ _ =>
    cases hk'
    cases hcaller
  | abortLwip _ _ | localClosed _ _ =>
    cases hk'
    simp at hstage'
  | @task k stage hholder hmove =>
    cases hk'
    have hcheck := hinv.check k t hholder hcaller
    generalize hstage : k.stage = here at hmove
    cases hmove with
    | isClosed hstate => exact .inl hstate
    | notAborting hstate => exact TcpConnState.released_of_ne hcheck hstate
    | notClosed _ | notClosing _ => simp at hstage'
    | _ =>
      have hfalse := hreceive hholder hcaller (by simp [hstage])
      simp [hstage, Stage.ofReceive] at hfalse
  | receiveErrored _ _ _ | aborting _ _ _ =>
    cases hk'
    simp [Stack.abortInternal_eq, TcpConnState.released]
  | closing _ _ _ =>
    cases hk'
    simp [Stack.closeInternal, TcpConnState.released]
  | recved hholder hstage =>
    cases hk'
    have hfalse := hreceive hholder hcaller (by simp [hstage])
    simp [hstage, Stage.ofReceive] at hfalse
  | @broadcast k hholder hstage =>
    have hreleased := @hsame k hholder
    cases hk'
    exact hreleased hcaller (.inl hstage)
  | pipe hholder hstage _ _ =>
    cases hk'
    have hfalse := hreceive hholder hcaller (by simp [hstage])
    simp [hstage, Stage.ofReceive] at hfalse
  | ret hholder _ => exact absurd hk' (Stack.methodRet_not_task _ _ _ _)
  | errFound _ _ _ | errUnknown _ _ _ | tcp _ | proc _ | conn _ | pcb _ _ =>
    exact hsame hk' hcaller hstage'
  | _ => cases hk'

end

/-- Every section keeps what an `Abort` that has begun relies on. -/
theorem step {s s' : Stack} {a : Act} (hreg : Registry s) (htask : TaskInv s) (hbounds : Bounds s)
    (hinv : AbortInv s) (hok : AcceptUndisturbed s a) (hsec : Section s a s') : AbortInv s' := by
  have hle : ∀ c, c < s.accepted → (s.conns c).state ≤ (s'.conns c).state :=
    fun c hc => step_state_le hreg htask hok hsec hc
  exact ⟨hinv.lwip_step hle hbounds hsec, hinv.check_step hle hbounds hsec,
    hinv.checked_step hle hbounds hsec htask, hinv.aborted_step hle hbounds hsec⟩

end AbortInv

/-- In every run in which no accept is disturbed, an `Abort` that has begun is not lost. -/
theorem reach_abortInv {s : Stack} (h : Reach tcpMachine AcceptUndisturbed s) : AbortInv s := by
  refine Reach.invariant AbortInv.init ?_ h
  intro s a s' hreach hinv hok hstep
  have hany := hreach.mono fun _ _ _ => trivial
  exact hinv.step (reach_registry hany).1 (reach_registry hany).2 (reach_bounds hany) hok
    (Stack.step_section hstep)

/-- In every run in which no `Abort` disturbs an accept, each step keeps or raises
    the state of every connection, and an `Abort` that has returned left its
    connection released and out of `tcpConns`. -/
theorem state_forward (s : Stack) (h : Reach tcpMachine AcceptUndisturbed s) :
    (∀ a s', AcceptUndisturbed s a → s.step a = some s' →
      ∀ c, c < s.accepted → (s.conns c).state ≤ (s'.conns c).state) ∧
    (∀ t c, s.procs t = .aborted c → (s.conns c).state.released ∧
      ∀ key, s.tcpConns key ≠ some c) := by
  have hany := h.mono fun _ _ _ => trivial
  obtain ⟨hreg, htask⟩ := reach_registry hany
  constructor
  · intro a s' hok hstep c hc
    exact step_state_le hreg htask hok (Stack.step_section hstep) hc
  · intro t c hproc
    have hreleased := (reach_abortInv h).aborted t c hproc
    exact ⟨hreleased, fun key hkey => hreg.notReleased hkey hreleased⟩

/-- A handler that aborts its connection. -/
theorem state_forward_abort : ∃ s, Reach tcpMachine AcceptUndisturbed s ∧ s.procs 1 = .aborted 0 ∧
    (s.conns 0).state.released ∧ ∀ key, s.tcpConns key ≠ some 0 := by
  obtain ⟨s, hreach, hproc⟩ := exists_reach_of_run tcpMachine AcceptUndisturbed
    [.lwipLock, .accept 7, .acceptDone 0, .lwipUnlock, .call 1 (.abort 0), .run 1, .run 1, .task,
      .task, .task, .task]
    (fun s => s.procs 1 = .aborted 0) (by decide)
  exact ⟨s, hreach, hproc, (state_forward s hreach).2 1 0 hproc⟩

/-- `lwipStack.Close` aborts a connection between `tcpConns.Store` and the change
    to `tcpConnecting`: that change lowers the state, and the `Abort` returns with
    the connection registered and open. -/
theorem abort_lost :
    (∃ s s' a, Reach tcpMachine any s ∧ s.step a = some s' ∧ 0 < s.accepted ∧
      (s.conns 0).state = .tcpAborting ∧ (s'.conns 0).state = .tcpConnecting) ∧
    (∃ s, Reach tcpMachine any s ∧ s.procs 1 = .aborted 0 ∧ (s.conns 0).state = .tcpConnecting ∧
      s.tcpConns 7 = some 0) := by
  constructor
  · obtain ⟨s, hreach, hstate, hnext⟩ := exists_reach_of_run tcpMachine any
      [.lwipLock, .accept 7, .call 1 (.abort 0), .run 1]
      (fun s => (0 < s.accepted ∧ (s.conns 0).state = .tcpAborting) ∧
        (s.step (.acceptDone 0)).any (fun s' => decide ((s'.conns 0).state = .tcpConnecting)) = true)
      (by decide)
    obtain ⟨s', hstep, hstate'⟩ := (Option.any_eq_true _ _).mp hnext
    exact ⟨s, s', _, hreach, hstep, hstate.1, hstate.2, of_decide_eq_true hstate'⟩
  · exact exists_reach_of_run tcpMachine any
      [.lwipLock, .accept 7, .call 1 (.abort 0), .run 1, .acceptDone 0, .lwipUnlock, .run 1, .task,
        .task, .task, .task, .task]
      (fun s => s.procs 1 = .aborted 0 ∧ (s.conns 0).state = .tcpConnecting ∧ s.tcpConns 7 = some 0)
      (by decide)

end tun2proxy.core
