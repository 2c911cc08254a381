import Tun2Proxy.Lib.Trace
import Tun2Proxy.Tcp.Eof
import Tun2Proxy.Tcp.Handler

open tun2proxy.machine tun2proxy.machine.Machine

namespace tun2proxy.core

/-- Nobody closes the read side of `c` or aborts it, and lwIP reports no error to
    it. A `Handle` that returns an error has the connection aborted. -/
def Undisturbed (c : ConnId) (s : Stack) : Act → Prop
  | .call _ op => op ≠ .closeRead c ∧ op ≠ .close c ∧ op ≠ .abort c
  | .handled t nilErr => nilErr = true ∨ s.procs t ≠ .handle c
  | .err tpcb _ => s.lookup tpcb ≠ some c
  | _ => True

instance (c : ConnId) (s : Stack) : (a : Act) → Decidable (Undisturbed c s a)
  | .call _ op => inferInstanceAs (Decidable (op ≠ .closeRead c ∧ op ≠ .close c ∧ op ≠ .abort c))
  | .handled t nilErr => inferInstanceAs (Decidable (nilErr = true ∨ s.procs t ≠ .handle c))
  | .err tpcb _ => inferInstanceAs (Decidable (s.lookup tpcb ≠ some c))
  | .lwipLock | .lwipUnlock | .accept _ | .acceptDone _ | .recv _ _ | .recvFin _ | .refused _ | .sent _
  | .poll _ | .tcp _ _ | .task | .write _ _ _ | .shutdown _ _ | .run _ | .pipe _ =>
    inferInstanceAs (Decidable True)

/-- The section of `setLocalClosed` on `c`: the FIN of the client is delivered. -/
inductive FinDelivered (c : ConnId) (s : Stack) : Act → Prop where
  | task {k : Task} (hholder : s.holder = .task k) (hconn : k.conn = c)
      (hstage : k.stage = .setLocalClosed) : FinDelivered c s .task

/-- The section of a `CloseWrite` on `c` under `conn.Lock`. -/
inductive WriteEnded (c : ConnId) (s : Stack) : Act → Prop where
  | run {t : Tid} {byClose : Bool} (hproc : s.procs t = .closeWrite c byClose) :
      WriteEnded c s (.run t)

instance (c : ConnId) (s : Stack) : (a : Act) → Decidable (WriteEnded c s a)
  | .run t =>
    decidable_of_iff (∃ byClose, s.procs t = .closeWrite c byClose)
      ⟨fun ⟨_, hproc⟩ => .run hproc, fun ⟨hproc⟩ => ⟨_, hproc⟩⟩
  | .lwipLock | .lwipUnlock | .accept _ | .acceptDone _ | .recv _ _ | .recvFin _ | .refused _ | .sent _
  | .poll _ | .err _ _ | .tcp _ _ | .task | .call _ _ | .handled _ _ | .write _ _ _ | .shutdown _ _ | .pipe _ =>
    isFalse nofun

/-! ### What a `Read` returns -/

/-- What the `Read` of goroutine `t` returns in this section, if it returns in it. -/
def Stack.readReturn (s : Stack) (t : Tid) : Act → Option (Nat × Option GoError)
  | .run t' =>
    if t' = t then
      match s.procs t with
      | .read c _ => (s.conns c).state.readCheck.map fun e => (0, some e)
      | .readPipe c _ | .readBlocked c _ =>
        -- the pipe's error is `io.EOF`, or `io.ErrClosedPipe` which `Read` turns into it
        if (s.conns c).pipeDone then some (0, some .EOF) else none
      | _ => none
    else none
  | .pipe t' =>
    if t' = t then
      match s.holder, s.procs t with
      | .task k, .readBlocked _ len =>
        match k.stage with
        | .pipeWrite rest _ => some (min len rest.length, none)
        | _ => none
      | _, _ => none
    else none
  | _ => none

/-- The calls of `Read` on `c` that have not returned. -/
def Proc.reads (c : ConnId) : Proc → Prop
  | .read c' _ | .readPipe c' _ | .readBlocked c' _ => c' = c
  | _ => False

private theorem Proc.wake_eq_of_reads {p : Proc} {c : ConnId} (hreads : p.reads c) (c' : ConnId) :
    p.wake c' = p := by
  cases p <;> first | rfl | exact hreads.elim

/-- A `Read` is moved by its own sections and by the pipe. -/
theorem Section.reads_frame {s s' : Stack} {a : Act} {t : Tid} {c : ConnId} (hsec : Section s a s')
    (hrunner : RunnerInv s) (hreads : (s.procs t).reads c) (hrun : a ≠ .run t)
    (hpipe : a ≠ .pipe t) : s'.procs t = s.procs t := by
  have houtside : (s.procs t).inLwip = false := by
    revert hreads
    cases s.procs t <;> simp [Proc.reads, Proc.inLwip]
  have hother {t' : Tid} (p' : Proc) (hne : t ≠ t') : Function.update s.procs t' p' t = s.procs t :=
    Function.update_of_ne hne _ _
  have hne {t' : Tid} (hnot : ¬(s.procs t').reads c) : t ≠ t' := by
    rintro rfl
    exact hnot hreads
  cases hsec with
  | procUnlock hholder =>
    refine hother _ ?_
    rintro rfl
    exact hrunner.not_unlock houtside hholder
  | acceptDone _ hidle => exact hother _ (hne (by rw [hidle]; exact id))
  | procFound hproc _ _ _ | procUnknown hproc _ _ _ | abortLwip hproc _ =>
    exact hother _ (hne (by rw [hproc]; exact id))
  | errFound _ _ _ | broadcast _ _ => exact Proc.wake_eq_of_reads hreads _
  | receiveErrored _ _ _ | aborting _ _ _ =>
    rw [Stack.abortInternal_eq]
    rfl
  | @localClosed k _ _ =>
    obtain ⟨hsame, -⟩ | ⟨hclosed, -⟩ := s.setLocalClosed_cases k.conn
    · rw [hsame]
      rfl
    · rw [hclosed]
      exact Proc.wake_eq_of_reads hreads _
  | @ret k e hholder _ =>
    obtain hsame | ⟨t', hcaller, hprocs⟩ := s.methodRet_procs k e
    · rw [hsame]
    · rw [hprocs]
      refine hother _ ?_
      rintro rfl
      exact hrunner.not_abort houtside hholder hcaller
  | proc hmove =>
    refine hother _ ?_
    rintro rfl
    generalize s.procs t = p at hmove hreads
    cases hmove <;> first | exact hreads.elim | exact hrun rfl
  | conn _ =>
    refine hother _ ?_
    rintro rfl
    exact hrun rfl
  | pcb _ hmove =>
    refine hother _ ?_
    rintro rfl
    generalize s.procs t = p at hmove hreads
    cases hmove <;> exact hreads.elim
  | pipe _ _ _ _ =>
    refine hother _ ?_
    rintro rfl
    exact hpipe rfl
  | _ => rfl

/-- The sections of `Read` itself. -/
theorem Stack.readReturn_run {s s' : Stack} {t : Tid} {c : ConnId} (hreads : (s.procs t).reads c)
    (hstep : s.step (.run t) = some s') :
    (s.readReturn t (.run t) = none ∧ (s'.procs t).reads c) ∨
      ((s.readReturn t (.run t)).isSome ∧ s'.procs t = .idle) := by
  simp only [Stack.step] at hstep
  simp only [Stack.readReturn, if_true]
  generalize hproc : s.procs t = p at hreads
  cases p with
  | read c' len =>
    cases hcheck : (s.conns c').state.readCheck with
    | none =>
      simp only [Stack.procStep, hproc, hcheck, Option.some.injEq] at hstep
      subst hstep
      exact .inl ⟨by simp [hcheck], by simpa [Proc.reads] using hreads⟩
    | some e =>
      simp only [Stack.procStep, hproc, hcheck, Option.some.injEq] at hstep
      subst hstep
      exact .inr ⟨by simp [hcheck], by simp⟩
  | readPipe c' len =>
    cases hdone : (s.conns c').pipeDone with
    | false =>
      simp only [Stack.procStep, hproc, hdone, Bool.false_eq_true, if_false, Option.some.injEq] at hstep
      subst hstep
      exact .inl ⟨by simp [hdone], by simpa [Proc.reads] using hreads⟩
    | true =>
      simp only [Stack.procStep, hproc, hdone, if_true, Option.some.injEq] at hstep
      subst hstep
      exact .inr ⟨by simp [hdone], by simp⟩
  | readBlocked c' len =>
    simp only [Stack.procStep, hproc, Option.ite_none_right_eq_some, Option.some.injEq] at hstep
    obtain ⟨hdone, rfl⟩ := hstep
    exact .inr ⟨by simp [hdone], by simp⟩
  | _ => exact hreads.elim

/-- The rendezvous of the pipe with a writer that has bytes. -/
theorem Stack.pipe_holder {s s' : Stack} {t : Tid} (hstep : s.step (.pipe t) = some s') :
    ∃ k len rest n, s.holder = .task k ∧ k.stage = .pipeWrite rest n ∧
      s.procs t = .readBlocked k.conn len ∧ s'.procs t = .idle := by
  cases Stack.pipeTransfer_section hstep with
  | pipe hholder hstage hproc hnext => exact ⟨_, _, _, _, hholder, hstage, hproc, by simp⟩
  | proc hmove =>
    generalize s.procs _ = p at hmove
    cases hmove
  | pcb _ hmove =>
    generalize s.procs _ = p at hmove
    cases hmove
  | cbFound hcb _ _ _ => cases hcb
  | cbUnknown hcb _ _ _ => cases hcb

/-- `readReturn` says when a `Read` returns: the step that it is about ends the call,
    and every other step leaves the goroutine in it. -/
theorem Stack.readReturn_step {s s' : Stack} {a : Act} {t : Tid} {c : ConnId} (hrunner : RunnerInv s)
    (hreads : (s.procs t).reads c) (hstep : s.step a = some s') :
    (s.readReturn t a = none ∧ (s'.procs t).reads c) ∨
      ((s.readReturn t a).isSome ∧ s'.procs t = .idle) := by
  by_cases hrun : a = .run t
  · subst hrun
    exact Stack.readReturn_run hreads hstep
  by_cases hpipe : a = .pipe t
  · subst hpipe
    obtain ⟨k, len, rest, n, hholder, hstage, hproc, hidle⟩ := Stack.pipe_holder hstep
    exact .inr ⟨by simp [Stack.readReturn, hholder, hproc, hstage], hidle⟩
  · refine .inl ⟨?_, ?_⟩
    · cases a <;> simp_all [Stack.readReturn]
    · rw [(Stack.step_section hstep).reads_frame hrunner hreads hrun hpipe]
      exact hreads

/-- The section in which a `Read` returns can run. -/
theorem Stack.readReturn_enabled {s : Stack} {t : Tid} {r : Nat × Option GoError}
    (hreturn : s.readReturn t (.run t) = some r) :
    ∃ s', s.step (.run t) = some s' ∧ s'.procs t = .idle := by
  simp only [Stack.readReturn, if_true] at hreturn
  cases hproc : s.procs t with
  | read c len =>
    simp only [hproc, Option.map_eq_some_iff] at hreturn
    obtain ⟨e, hcheck, -⟩ := hreturn
    simp [Stack.step, Stack.procStep, hproc, hcheck]
  | readPipe c len | readBlocked c len =>
    simp only [hproc, Option.ite_none_right_eq_some] at hreturn
    simp [Stack.step, Stack.procStep, hproc, hreturn.1]
  | _ => simp [hproc] at hreturn

/-- The `Read` of goroutine `t` returns `(0, io.EOF)` in its next section, and no
    step lets it return anything else. -/
structure Stack.ReadsEOF (s : Stack) (t : Tid) : Prop where
  returns : ∃ s', s.step (.run t) = some s' ∧ s'.procs t = .idle ∧
    s.readReturn t (.run t) = some (0, some .EOF)
  only : ∀ a s', s.step a = some s' → s'.procs t = .idle → s.readReturn t a = some (0, some .EOF)

private theorem Stack.ReadsEOF.of_return {s : Stack} {t : Tid} {c : ConnId} (hrunner : RunnerInv s)
    (hreads : (s.procs t).reads c) (hreturn : s.readReturn t (.run t) = some (0, some .EOF))
    (hpipe : ∀ s', s.step (.pipe t) ≠ some s') : s.ReadsEOF t := by
  obtain ⟨s', hstep, hidle⟩ := Stack.readReturn_enabled hreturn
  refine ⟨⟨s', hstep, hidle, hreturn⟩, ?_⟩
  intro a s'' hstep' hidle'
  by_cases hrun : a = .run t
  · rw [hrun]
    exact hreturn
  by_cases hact : a = .pipe t
  · rw [hact] at hstep'
    exact absurd hstep' (hpipe s'')
  · obtain ⟨-, hstill⟩ | ⟨hsome, -⟩ := Stack.readReturn_step hrunner hreads hstep'
    · rw [hidle'] at hstill
      exact hstill.elim
    · cases a <;> simp_all [Stack.readReturn]

/-! ### The two halves of a connection -/

/-- The state that `setLocalClosed` sets. -/
def TcpConnState.localClosed (st : TcpConnState) : TcpConnState :=
  if st ≥ .tcpClosing ∨ st = .tcpReceiveClosed then st
  else if st = .tcpWriteClosed then .tcpClosing
  else .tcpReceiveClosed

private theorem Stack.setLocalClosed_state (s : Stack) (c : ConnId) :
    ((s.setLocalClosed c).conns c).state = (s.conns c).state.localClosed := by
  unfold Stack.setLocalClosed TcpConnState.localClosed
  split
  · rfl
  · simp

/-- How a step changes the state of `c`, with its cause. -/
inductive StateStep (s : Stack) (c : ConnId) : Act → TcpConnState → TcpConnState → Prop where
  | same {a : Act} {st : TcpConnState} : StateStep s c a st st
  | accept {key : UInt32} {st : TcpConnState} (hc : c = s.accepted) :
      StateStep s c (.accept key) st .tcpNewConn
  | acceptDone {t : Tid} {owner : Option Tid} {st : TcpConnState}
      (hholder : s.holder = .accept c owner) : StateStep s c (.acceptDone t) st .tcpConnecting
  | err {tpcb : ConnId} {code : ErrT} {st : TcpConnState} (hfound : s.lookup tpcb = some c) :
      StateStep s c (.err tpcb code) st .tcpErrored
  | release {st : TcpConnState} (hst : st = .tcpClosing ∨ st = .tcpAborting ∨ st = .tcpErrored) :
      StateStep s c .task st .tcpClosed
  | fin {a : Act} {st : TcpConnState} (hfin : FinDelivered c s a) : StateStep s c a st st.localClosed
  | connected {t : Tid} : StateStep s c (.run t) .tcpConnecting .tcpConnected
  | abort {t : Tid} {st : TcpConnState} (hproc : s.procs t = .abort c) :
      StateStep s c (.run t) st st.abort
  | written {a : Act} {st : TcpConnState} (hwrite : WriteEnded c s a) :
      StateStep s c a st (st.closeWrite.getD st)

/-- Steps that change one connection. -/
theorem StateStep.of_modConn {s s' : Stack} {a : Act} {c : ConnId} (f : TcpConn → TcpConn)
    (hconns : s'.conns = (s.modConn c f).conns)
    (hstep : StateStep s c a (s.conns c).state (f (s.conns c)).state) (c' : ConnId) :
    StateStep s c' a (s.conns c').state (s'.conns c').state := by
  rw [hconns, Stack.modConn_conns]
  split
  · rename_i heq
    rw [heq]
    exact hstep
  · exact .same

/-- Steps that release one connection. -/
theorem StateStep.of_release {s s' : Stack} {c : ConnId} (hconns : s'.conns = (s.release c).conns)
    (hst : (s.conns c).state = .tcpClosing ∨ (s.conns c).state = .tcpAborting ∨
      (s.conns c).state = .tcpErrored) (c' : ConnId) :
    StateStep s c' .task (s.conns c').state (s'.conns c').state := by
  rw [hconns, Stack.release_conns]
  split
  · rename_i heq
    rw [heq]
    exact .release hst
  · exact .same

theorem ConnMove.stateStep {s : Stack} {t : Tid} {c : ConnId} {p' : Proc} {f : TcpConn → TcpConn}
    (hmove : ConnMove s t c (s.procs t) p' f) :
    StateStep s c (.run t) (s.conns c).state (f (s.conns c)).state := by
  generalize hproc : s.procs t = p at hmove
  cases hmove with
  | connected hstate =>
    rw [hstate]
    exact .connected
  | abort => exact .abort hproc
  | closeWrite hstate =>
    have hwritten : StateStep s c (.run t) (s.conns c).state
        ((s.conns c).state.closeWrite.getD (s.conns c).state) := .written (.run hproc)
    rwa [hstate] at hwritten
  | _ => exact .same

theorem Section.state {s s' : Stack} {a : Act} (hsec : Section s a s') (c : ConnId) :
    StateStep s c a (s.conns c).state (s'.conns c).state := by
  cases hsec with
  | accept _ =>
    simp only [Function.update_apply]
    split
    · exact .accept ‹_›
    · exact .same
  | acceptDone hholder _ =>
    exact .of_modConn (fun conn => { conn with state := .tcpConnecting, started := true }) rfl
      (.acceptDone hholder) c
  | errFound _ _ hfound =>
    rw [Stack.Err_conns]
    split
    · rename_i heq
      subst heq
      exact .err hfound
    · exact .same
  | receiveErrored _ _ hstate =>
    rw [Stack.abortInternal_eq]
    exact .of_release rfl (.inr (.inr hstate)) c
  | aborting _ _ hstate =>
    rw [Stack.abortInternal_eq]
    exact .of_release rfl (.inr (.inl hstate)) c
  | closing _ _ hstate => exact .of_release rfl (.inl hstate) c
  | @localClosed k hholder hstage =>
    by_cases hc : c = k.conn
    · subst hc
      rw [Stack.goto_conns, Stack.setLocalClosed_state]
      exact .fin (.task hholder rfl hstage)
    · obtain ⟨hsame, -⟩ | ⟨hclosed, -⟩ := s.setLocalClosed_cases k.conn
      · rw [hsame]
        exact .same
      · rw [hclosed]
        simp only [Stack.goto_conns, Stack.broadcast_conns, Stack.modConn_conns, if_neg hc]
        exact .same
  | ret _ _ =>
    rw [Stack.methodRet_conns]
    exact .same
  | conn hmove => exact .of_modConn _ rfl hmove.stateStep c
  | @pcb _ t c' _ _ g _ hmove =>
    refine .of_modConn g rfl ?_ c
    rw [hmove.state]
    exact .same
  | @pipe _ k len rest _ _ _ _ _ _ =>
    exact .of_modConn (fun conn => { conn with readBytes := conn.readBytes ++ rest.take (min len rest.length) }) rfl
      .same c
  | _ => exact .same

/-- The state of an undisturbed connection, from what has happened to its halves. -/
inductive Halves (fin written : Prop) : TcpConnState → Prop where
  | both {st : TcpConnState} (hfin : ¬fin) (hwritten : ¬written) (hlt : st < .tcpWriteClosed) :
      Halves fin written st
  | read (hfin : ¬fin) (hwritten : written) : Halves fin written .tcpWriteClosed
  | write (hfin : fin) (hwritten : ¬written) : Halves fin written .tcpReceiveClosed
  | neither {st : TcpConnState} (hfin : fin) (hwritten : written)
      (hst : st = .tcpClosing ∨ st = .tcpClosed) : Halves fin written st

namespace Halves

variable {fin written : Prop} {st : TcpConnState}

theorem congr {fin' written' : Prop} (hfin : fin' ↔ fin) (hwritten : written' ↔ written)
    (h : Halves fin written st) : Halves fin' written' st := by
  rw [propext hfin, propext hwritten]
  exact h

theorem localClosed {fin' : Prop} (hfin' : fin') (h : Halves fin written st) :
    Halves fin' written st.localClosed := by
  cases h with
  | both _ hwritten hlt =>
    have hst : st.localClosed = .tcpReceiveClosed := by
      revert hlt
      cases st <;> decide
    rw [hst]
    exact .write hfin' hwritten
  | read _ hwritten => exact .neither hfin' hwritten (.inl rfl)
  | write _ hwritten => exact .write hfin' hwritten
  | neither _ hwritten hst =>
    obtain rfl | rfl := hst
    · exact .neither hfin' hwritten (.inl rfl)
    · exact .neither hfin' hwritten (.inr rfl)

theorem closeWrite {written' : Prop} (hwritten' : written') (h : Halves fin written st) :
    Halves fin written' (st.closeWrite.getD st) := by
  cases h with
  | both hfin _ hlt =>
    have hst : st.closeWrite.getD st = .tcpWriteClosed := by
      revert hlt
      cases st <;> decide
    rw [hst]
    exact .read hfin hwritten'
  | read hfin _ => exact .read hfin hwritten'
  | write hfin _ => exact .neither hfin hwritten' (.inl rfl)
  | neither hfin _ hst =>
    obtain rfl | rfl := hst
    · exact .neither hfin hwritten' (.inl rfl)
    · exact .neither hfin hwritten' (.inr rfl)

/-- Neither `Abort` nor the err callback has run. -/
theorem calm (h : Halves fin written st) : st ≠ .tcpAborting ∧ st ≠ .tcpErrored := by
  cases h with
  | both _ _ hlt =>
    revert hlt
    cases st <;> decide
  | neither _ _ hst => obtain rfl | rfl := hst <;> decide
  | _ => decide

theorem fin_of_receiveClosed_le (h : Halves fin written st) (hle : .tcpReceiveClosed ≤ st) : fin := by
  cases h with
  | both _ _ hlt => exact absurd hlt (Nat.not_lt.mpr (Nat.le_of_succ_le hle))
  | read _ _ => exact absurd hle (by decide)
  | write hfin _ => exact hfin
  | neither hfin _ _ => exact hfin

theorem receiveClosed_le (h : Halves fin written st) (hfin : fin) : .tcpReceiveClosed ≤ st := by
  cases h with
  | both hnot _ _ => exact absurd hfin hnot
  | read hnot _ => exact absurd hfin hnot
  | write _ _ => decide
  | neither _ _ hst => obtain rfl | rfl := hst <;> decide

/-- After the FIN, `Read` reports EOF at its check of the state exactly when the
    write side is open. -/
theorem readCheck_iff (h : Halves fin written st) (hfin : fin) :
    st.readCheck = some .EOF ↔ ¬written := by
  cases h with
  | both hnot _ _ => exact absurd hfin hnot
  | read hnot _ => exact absurd hfin hnot
  | write _ hwritten => simpa [TcpConnState.readCheck] using hwritten
  | neither _ hwritten hst =>
    refine iff_of_false ?_ (not_not.mpr hwritten)
    obtain rfl | rfl := hst <;> decide

end Halves

/-- The task is at work in the pipe. -/
def Stage.inPipe : Stage → Bool
  | .pipeStart | .pipeWrite _ _ => true
  | _ => false

/-- What holds of an undisturbed connection, where `fin` says that its FIN was
    delivered and `written` that its write side was closed. -/
structure HalfInv (s : Stack) (c : ConnId) (fin written : Prop) : Prop where
  halves : Halves fin written (s.conns c).state
  pipe : fin → (s.conns c).sndPipeWriterClosed = true
  known : fin ∨ written → c < s.accepted ∧ (s.conns c).started = true
  procs : ∀ t, s.procs t ≠ .abort c ∧ s.procs t ≠ .closeRead c ∧ s.procs t ≠ .close c
  stage : fin → ∀ k, s.holder = .task k → k.conn = c → k.stage.inPipe = false

/-- The step of a FIN. -/
theorem FinDelivered.next {s s' : Stack} {a : Act} {c : ConnId} (hfin : FinDelivered c s a)
    (hstep : s.step a = some s') :
    ∃ k, s.holder = .task k ∧ k.conn = c ∧ a = .task ∧ s' = (s.setLocalClosed c).goto k .isClosed := by
  cases hfin with
  | @task k hholder hconn hstage =>
    subst hconn
    simp only [Stack.step, hholder, Stack.taskStep, hstage, Option.some.injEq] at hstep
    exact ⟨k, hholder, rfl, rfl, hstep.symm⟩

/-- The step of a `CloseWrite`. -/
theorem WriteEnded.next {s s' : Stack} {a : Act} {c : ConnId} (hwrite : WriteEnded c s a)
    (hstep : s.step a = some s') :
    (s'.conns c).state = (s.conns c).state.closeWrite.getD (s.conns c).state := by
  cases hwrite with
  | run hproc =>
    simp only [Stack.step, Stack.procStep, hproc] at hstep
    cases hstate : (s.conns c).state.closeWrite with
    | none =>
      simp only [hstate, Option.some.injEq] at hstep
      subst hstep
      simp [Stack.closeWriteDone]
    | some st =>
      simp only [hstate, Option.some.injEq] at hstep
      subst hstep
      simp

namespace HalfInv

variable {s s' : Stack} {a : Act} {c : ConnId} {fin written : Prop}

theorem init (c : ConnId) (hfin : ¬fin) (hwritten : ¬written) :
    HalfInv Stack.init c fin written where
  halves := .both hfin hwritten (show TcpConnState.tcpNewConn < .tcpWriteClosed by decide)
  pipe h := absurd h hfin
  known h := (h.elim hfin hwritten).elim
  procs t := by simp [Stack.init]
  stage h := absurd h hfin

/-- Steps other than a FIN or a `CloseWrite` keep the halves as they are. -/
theorem halves_other (hinv : HalfInv s c fin written) (hclear : Undisturbed c s a)
    (hsec : Section s a s') (hnofin : ¬FinDelivered c s a) (hnowrite : ¬WriteEnded c s a)
    (haccept : ∀ owner, s.holder = .accept c owner → (s.conns c).started = false) :
    Halves fin written (s'.conns c).state := by
  have hhalves := hinv.halves
  have hcalm := hhalves.calm
  -- before the handler knows the connection nothing has happened to it
  have hnew (hunknown : ¬(c < s.accepted ∧ (s.conns c).started = true)) {st : TcpConnState}
      (hlt : st < .tcpWriteClosed) : Halves fin written st :=
    .both (fun h => hunknown (hinv.known (.inl h))) (fun h => hunknown (hinv.known (.inr h))) hlt
  have hstep := hsec.state c
  generalize (s'.conns c).state = st' at hstep ⊢
  generalize (s.conns c).state = st at hstep hhalves hcalm
  cases hstep with
  | same => exact hhalves
  | accept hc => exact hnew (fun h => Nat.ne_of_lt h.1 hc) (by decide)
  | acceptDone hholder => exact hnew (by simp [haccept _ hholder]) (by decide)
  | err hfound => exact absurd hfound hclear
  | release hst =>
    obtain rfl | hst | hst := hst
    · cases hhalves with
      | both _ _ hlt => exact absurd hlt (by decide)
      | neither hfin hwritten _ => exact .neither hfin hwritten (.inr rfl)
    · exact absurd hst hcalm.1
    · exact absurd hst hcalm.2
  | fin hfin => exact absurd hfin hnofin
  | connected =>
    cases hhalves with
    | both hfin hwritten _ => exact .both hfin hwritten (by decide)
    | neither _ _ hst => simp at hst
  | abort hproc => exact absurd hproc (hinv.procs _).1
  | written hwrite => exact absurd hwrite hnowrite

private theorem halves_step (hinv : HalfInv s c fin written) (hclear : Undisturbed c s a)
    (hstep : s.step a = some s')
    (haccept : ∀ owner, s.holder = .accept c owner → (s.conns c).started = false) :
    Halves (fin ∨ FinDelivered c s a) (written ∨ WriteEnded c s a) (s'.conns c).state := by
  by_cases hfin : FinDelivered c s a
  · obtain ⟨k, hholder, hconn, rfl, rfl⟩ := hfin.next hstep
    have hnowrite : ¬WriteEnded c s .task := by
      intro h
      cases h
    rw [Stack.goto_conns, Stack.setLocalClosed_state]
    exact (hinv.halves.localClosed (.inr hfin)).congr Iff.rfl (or_iff_left hnowrite)
  · by_cases hwrite : WriteEnded c s a
    · rw [hwrite.next hstep]
      exact (hinv.halves.closeWrite (.inr hwrite)).congr (or_iff_left hfin) Iff.rfl
    · exact (hinv.halves_other hclear (Stack.step_section hstep) hfin hwrite haccept).congr
        (or_iff_left hfin) (or_iff_left hwrite)

private theorem pipe_step (hinv : HalfInv s c fin written) (hstep : s.step a = some s')
    (hfin : fin ∨ FinDelivered c s a) : (s'.conns c).sndPipeWriterClosed = true := by
  have hsec := Stack.step_section hstep
  have hold (h : fin) : (s'.conns c).sndPipeWriterClosed = true :=
    (hsec.pipe_mono (hinv.known (.inl h)).1).2 (hinv.pipe h)
  obtain hfin | hfin := hfin
  · exact hold hfin
  · obtain ⟨k, -, -, rfl, rfl⟩ := hfin.next hstep
    obtain ⟨hsame, hclosed⟩ | ⟨hclosed, -⟩ := s.setLocalClosed_cases c
    · -- `setLocalClosed` returns at once only after another FIN
      refine hold (hinv.halves.fin_of_receiveClosed_le ?_)
      obtain hle | heq := hclosed
      · exact Nat.le_of_succ_le hle
      · rw [heq]
        decide
    · simp [hclosed]

private theorem known_step (hinv : HalfInv s c fin written) (hreach : Reach tcpMachine any s)
    (hsec : Section s a s')
    (hevent : (fin ∨ FinDelivered c s a) ∨ (written ∨ WriteEnded c s a)) :
    c < s'.accepted ∧ (s'.conns c).started = true := by
  have hbounds := reach_bounds hreach
  have hbefore : c < s.accepted ∧ (s.conns c).started = true := by
    obtain (hfin | hfin) | (hwritten | hwrite) := hevent
    · exact hinv.known (.inl hfin)
    · cases hfin with
      | task hholder hconn hstage =>
        subst hconn
        have hc := hbounds.task _ hholder
        refine ⟨hc, (reach_started hreach hc).resolve_right ?_⟩
        simp [hholder]
    · exact hinv.known (.inr hwritten)
    · cases hwrite with
      | @run t byClose hproc =>
        exact ⟨hbounds.procs t c (by rw [hproc]; rfl), (reach_known hreach).1 t c (by rw [hproc]; rfl)⟩
  exact ⟨Nat.lt_of_lt_of_le hbefore.1 hsec.life.accepted_le, hsec.started hbefore.1 hbefore.2⟩

/-- After the FIN nothing goes into the pipe. -/
theorem stage_old (hinv : HalfInv s c fin written) (hfin : fin) (hsec : Section s a s') (k' : Task)
    (hk' : s'.holder = .task k') (hconn : k'.conn = c) : k'.stage.inPipe = false := by
  have hold := hinv.stage hfin
  cases hsec with
  | cbFound hcb _ _ _ =>
    cases hk'
    cases hcb <;> rfl
  | @task k stage hholder hmove =>
    cases hk'
    have hnot := hold k hholder hconn
    have hle := hinv.halves.receiveClosed_le hfin
    generalize k.stage = here at hmove hnot
    cases hmove with
    | receiveOk hstate =>
      rw [← show k.conn = c from hconn] at hle
      obtain hstate | hstate := hstate <;> rw [hstate] at hle <;> exact absurd hle (by decide)
    | pipeOpen _ => cases hnot
    | _ => rfl
  | @pipe _ k _ _ _ _ hholder hstage _ _ =>
    cases hk'
    have hnot := hold k hholder hconn
    rw [hstage] at hnot
    cases hnot
  | ret _ _ => exact absurd hk' (Stack.methodRet_not_task _ _ _ _)
  | errFound _ _ _ | errUnknown _ _ _ | tcp _ | proc _ | conn _ | pcb _ _ => exact hold k' hk' hconn
  | _ => cases hk' <;> rfl

private theorem stage_step (hinv : HalfInv s c fin written) (hstep : s.step a = some s')
    (hfin : fin ∨ FinDelivered c s a) (k' : Task) (hk' : s'.holder = .task k') (hconn : k'.conn = c) :
    k'.stage.inPipe = false := by
  obtain hfin | hfin := hfin
  · exact hinv.stage_old hfin (Stack.step_section hstep) k' hk' hconn
  · obtain ⟨k, -, -, rfl, rfl⟩ := hfin.next hstep
    cases hk'
    rfl

theorem step (hinv : HalfInv s c fin written) (hreach : Reach tcpMachine any s)
    (hclear : Undisturbed c s a) (hstep : s.step a = some s') :
    HalfInv s' c (fin ∨ FinDelivered c s a) (written ∨ WriteEnded c s a) where
  halves := hinv.halves_step hclear hstep ((reach_known hreach).2 c)
  pipe := hinv.pipe_step hstep
  known := hinv.known_step hreach (Stack.step_section hstep)
  procs t := by
    refine (Stack.step_section hstep).spared (hinv.procs t) ?_ ?_
    · rintro op rfl
      exact hclear
    · rintro rfl
      exact hclear.resolve_left (by simp)
  stage := hinv.stage_step hstep

theorem congr {fin' written' : Prop} (hfin : fin' ↔ fin) (hwritten : written' ↔ written)
    (hinv : HalfInv s c fin written) : HalfInv s c fin' written' := by
  rw [propext hfin, propext hwritten]
  exact hinv

/-- Along a whole run. -/
theorem trace {schedule : List Act} (htrace : Trace tcpMachine schedule s)
    (hsteps : Steps tcpMachine (Undisturbed c) schedule) :
    HalfInv s c (Happened tcpMachine (FinDelivered c) schedule)
      (Happened tcpMachine (WriteEnded c) schedule) := by
  induction htrace with
  | nil => exact .init c not_happened_nil not_happened_nil
  | snoc htrace hstep ih =>
    have hclear := hsteps _ _ [] _ rfl htrace
    exact ((ih hsteps.init).step htrace.reach hclear hstep).congr htrace.happened_snoc
      htrace.happened_snoc

/-- A `Read` that is past its check of the state gets EOF. -/
theorem readsEOF_pipe (hinv : HalfInv s c fin written) (hrunner : RunnerInv s) (hfin : fin)
    {t : Tid} {len : Nat} (hproc : s.procs t = .readPipe c len ∨ s.procs t = .readBlocked c len) :
    s.ReadsEOF t := by
  have hdone : (s.conns c).pipeDone = true := by simp [TcpConn.pipeDone, hinv.pipe hfin]
  have hreads : (s.procs t).reads c := by
    obtain hproc | hproc := hproc <;> rw [hproc] <;> exact rfl
  refine .of_return hrunner hreads ?_ ?_
  · obtain hproc | hproc := hproc <;> simp [Stack.readReturn, hproc, hdone]
  · -- no writer is left in the pipe
    intro s' hstep
    obtain ⟨k, len', rest, n, hholder, hstage, hblocked, -⟩ := Stack.pipe_holder hstep
    have hconn : k.conn = c := by
      obtain hproc | hproc := hproc <;> cases hproc.symm.trans hblocked
      rfl
    have hnot := hinv.stage hfin k hholder hconn
    rw [hstage] at hnot
    cases hnot

/-- A `Read` before its check of the state. -/
theorem readsEOF_read (hinv : HalfInv s c fin written) (hrunner : RunnerInv s) (hfin : fin)
    {t : Tid} {len : Nat} (hproc : s.procs t = .read c len) : s.ReadsEOF t ↔ ¬written := by
  have hreturn : s.readReturn t (.run t) = (s.conns c).state.readCheck.map fun e => (0, some e) := by
    simp [Stack.readReturn, hproc]
  rw [← hinv.halves.readCheck_iff hfin]
  constructor
  · intro heof
    obtain ⟨-, -, -, hsome⟩ := heof.returns
    rw [hreturn] at hsome
    obtain ⟨e, he, hr⟩ := Option.map_eq_some_iff.mp hsome
    cases hr
    exact he
  · intro hcheck
    have hreads : (s.procs t).reads c := by
      rw [hproc]
      exact rfl
    refine .of_return hrunner hreads (by rw [hreturn, hcheck]; rfl) ?_
    intro s' hstep
    obtain ⟨k, len', rest, n, -, -, hblocked, -⟩ := Stack.pipe_holder hstep
    cases hproc.symm.trans hblocked

end HalfInv

/-- In every run in which nobody closes the read side of `c` or aborts it and lwIP
    reports no error to it, after the FIN was delivered: a `Read` before its check
    of the state returns `(0, io.EOF)` exactly when no `CloseWrite` has run its
    section, and a `Read` in the pipe returns `(0, io.EOF)` in any case. -/
theorem readsEOF_iff (c : ConnId) (schedule : List Act) (s : Stack)
    (htrace : Trace tcpMachine schedule s) (hsteps : Steps tcpMachine (Undisturbed c) schedule)
    (hfin : Happened tcpMachine (FinDelivered c) schedule) (t : Tid) (len : Nat) :
    (s.procs t = .read c len →
      (s.ReadsEOF t ↔ ¬Happened tcpMachine (WriteEnded c) schedule)) ∧
    (s.procs t = .readPipe c len ∨ s.procs t = .readBlocked c len → s.ReadsEOF t) := by
  have hinv := HalfInv.trace htrace hsteps
  have hrunner := reach_runner htrace.reach
  exact ⟨hinv.readsEOF_read hrunner hfin, hinv.readsEOF_pipe hrunner hfin⟩

/-- The client sends three bytes, which are read, and then its FIN, while a second
    `Read` is blocked; a third one starts after the FIN. -/
theorem readsEOF_iff_open : ∃ schedule s, Trace tcpMachine schedule s ∧
    Steps tcpMachine (Undisturbed 0) schedule ∧ Happened tcpMachine (FinDelivered 0) schedule ∧
    (s.conns 0).readBytes = [1, 2, 3] ∧ s.procs 1 = .read 0 9 ∧ s.procs 2 = .readBlocked 0 9 ∧
    s.ReadsEOF 1 ∧ s.ReadsEOF 2 := by
  let front : List Act :=
    [.lwipLock, .accept 7, .acceptDone 0, .lwipUnlock, .handled 0 true, .run 0, .run 0, .lwipLock,
      .recv 0 ⟨[1, 2, 3], by decide⟩, .task, .task, .call 1 (.read 0 9), .run 1, .run 1, .pipe 1, .task,
      .task, .call 2 (.read 0 9), .run 2, .run 2, .recvFin 0]
  obtain ⟨mid, hmid, -, hholder⟩ := exists_trace_of_run tcpMachine any front
    (fun s => s.holder = .task ⟨.recv 0 none none, 0, .setLocalClosed⟩) (by decide)
  obtain ⟨s, htrace, hsteps, hread, h₁, h₂⟩ := exists_trace_of_run tcpMachine
    (fun s a => Undisturbed 0 s a ∧ ¬WriteEnded 0 s a) (front ++ .task :: [.call 1 (.read 0 9)])
    (fun s => (s.conns 0).readBytes = [1, 2, 3] ∧ s.procs 1 = .read 0 9 ∧
      s.procs 2 = .readBlocked 0 9) (by decide)
  have hclear : Steps tcpMachine (Undisturbed 0) _ := fun front a back s hsplit hfront =>
    (hsteps front a back s hsplit hfront).1
  have hopen : ¬Happened tcpMachine (WriteEnded 0) _ := not_happened_iff.mpr
    fun front a back s hsplit hfront => (hsteps front a back s hsplit hfront).2
  have hfin : Happened tcpMachine (FinDelivered 0) (front ++ .task :: [.call 1 (.read 0 9)]) :=
    ⟨front, .task, _, mid, rfl, hmid, .task hholder rfl rfl⟩
  exact ⟨_, s, htrace, hclear, hfin, hread, h₁, h₂,
    ((readsEOF_iff 0 _ s htrace hclear hfin 1 9).1 h₁).mpr hopen,
    (readsEOF_iff 0 _ s htrace hclear hfin 2 9).2 (.inr h₂)⟩

/-- The handler closes its write side first: after the same bytes and the same FIN
    the next `Read` fails with `io.ErrClosedPipe`. -/
theorem read_after_closeWrite_fails : ∃ schedule s, Trace tcpMachine schedule s ∧
    Steps tcpMachine (Undisturbed 0) schedule ∧ Happened tcpMachine (FinDelivered 0) schedule ∧
    (s.pcbs 0).finReported = true ∧ (s.conns 0).readBytes = (s.pcbs 0).stream ∧
    s.procs 1 = .read 0 9 ∧ s.readReturn 1 (.run 1) = some (0, some .ErrClosedPipe) ∧
    ¬s.ReadsEOF 1 := by
  let front : List Act :=
    [.lwipLock, .accept 7, .acceptDone 0, .lwipUnlock, .handled 0 true, .run 0, .run 0,
      .call 2 (.closeWrite 0), .run 2, .shutdown 2 true, .lwipLock,
      .recv 0 ⟨[1, 2, 3], by decide⟩, .task, .task, .call 1 (.read 0 9), .run 1, .run 1, .pipe 1, .task,
      .task, .recvFin 0]
  obtain ⟨mid, hmid, -, hholder⟩ := exists_trace_of_run tcpMachine any front
    (fun s => s.holder = .task ⟨.recv 0 none none, 0, .setLocalClosed⟩) (by decide)
  obtain ⟨s, htrace, hsteps, hfinal, hread, hproc, hreturn⟩ := exists_trace_of_run tcpMachine
    (Undisturbed 0) (front ++ .task :: [.call 1 (.read 0 9)])
    (fun s => (s.pcbs 0).finReported = true ∧ (s.conns 0).readBytes = (s.pcbs 0).stream ∧
      s.procs 1 = .read 0 9 ∧ s.readReturn 1 (.run 1) = some (0, some .ErrClosedPipe)) (by decide)
  refine ⟨_, s, htrace, hsteps, ⟨front, .task, _, mid, rfl, hmid, .task hholder rfl rfl⟩, hfinal,
    hread, hproc, hreturn, ?_⟩
  intro heof
  obtain ⟨-, -, -, hsome⟩ := heof.returns
  rw [hreturn] at hsome
  cases hsome

end tun2proxy.core
