import Tun2Proxy.Tcp.Registry

open tun2proxy.machine tun2proxy.machine.Machine

namespace tun2proxy.core

/-- How a goroutine gets from one place to another by a section of its own, or by
    the lwIP code that runs on its behalf. -/
inductive ProcOwn (s : Stack) (a : Act) (s' : Stack) (t : Tid) : Proc → Proc → Prop where
  | unlock {p : Proc} (hholder : s.holder = .lwip (some t)) : ProcOwn s a s' t p .idle
  | start {c : ConnId} {owner : Option Tid} (hact : a = .acceptDone t)
      (hholder : s.holder = .accept c owner) :
      ProcOwn s a s' t .idle (.handle c)
  | processing {c : ConnId} (hholder : s.holder = .free) :
      ProcOwn s a s' t (.refused c) (.processing c)
  | aborted {p : Proc} {k : Task} {e : Option LwipError} (hholder : s.holder = .task k)
      (hcaller : k.caller = .abort t) (hstage : k.stage = .ret e) :
      ProcOwn s a s' t p (.aborted k.conn)
  | proc {p p' : Proc} (hmove : ProcMove s t a p p') : ProcOwn s a s' t p p'
  | conn {c : ConnId} {p p' : Proc} {f : TcpConn → TcpConn} (hact : a = .run t)
      (hmove : ConnMove s t c p p' f) (hconn : s'.conns c = f (s.conns c)) : ProcOwn s a s' t p p'
  | pcb {c : ConnId} {p p' : Proc} {f : TcpPcb → TcpPcb} {g : TcpConn → TcpConn}
      (hholder : s.holder = .free) (hmove : PcbMove s t c a p p' f g) : ProcOwn s a s' t p p'
  | abortLwip {c : ConnId} (hholder : s.holder = .free) :
      ProcOwn s a s' t (.abortLwip c) (.abortCheck c)
  | piped {c : ConnId} {len : Nat} : ProcOwn s a s' t (.readBlocked c len) .idle

/-- How a step moves goroutine `t`: not at all, by a `Broadcast`, or by a section
    of its own. -/
inductive ProcStep (s : Stack) (a : Act) (s' : Stack) (t : Tid) : Proc → Proc → Prop where
  | same {p : Proc} : ProcStep s a s' t p p
  | woken {p : Proc} (c : ConnId) : ProcStep s a s' t p (p.wake c)
  | own {p p' : Proc} (hown : ProcOwn s a s' t p p') : ProcStep s a s' t p p'

namespace ProcStep

/-- Steps that move goroutine `t'` alone. -/
theorem of_setProc {s s' : Stack} {a : Act} {t t' : Tid} {p' : Proc}
    (hprocs : s'.procs = Function.update s.procs t' p') (hown : ProcOwn s a s' t' (s.procs t') p') :
    ProcStep s a s' t (s.procs t) (s'.procs t) := by
  rw [hprocs, Function.update_apply]
  split
  · rename_i heq
    rw [heq]
    exact .own hown
  · exact .same

end ProcStep

/-- The return of a method moves only the goroutine that called `Abort`. -/
theorem Stack.methodRet_procs (s : Stack) (k : Task) (e : Option LwipError) :
    (s.methodRet k e).procs = s.procs ∨
      ∃ t, k.caller = .abort t ∧ (s.methodRet k e).procs = Function.update s.procs t
        (.aborted k.conn) := by
  unfold Stack.methodRet Stack.recvRet
  split
  · exact .inl (by split <;> rfl)
  · exact .inl rfl
  · exact .inl rfl
  · exact .inl rfl
  · rename_i t hcaller
    exact .inr ⟨t, hcaller, rfl⟩

/-- What one section does to a goroutine, whichever goroutine runs it. -/
theorem Section.procs {s s' : Stack} {a : Act} (hsec : Section s a s') (t : Tid) :
    ProcStep s a s' t (s.procs t) (s'.procs t) := by
  cases hsec with
  | procUnlock hholder => exact .of_setProc rfl (.unlock hholder)
  | acceptDone hholder hidle => exact .of_setProc rfl (hidle ▸ .start rfl hholder)
  | procFound hproc hholder hrefused hfound => exact .of_setProc rfl (hproc ▸ .processing hholder)
  | procUnknown hproc hholder hrefused hnone => exact .of_setProc rfl (hproc ▸ .processing hholder)
  | errFound hholder hlive hfound => exact .woken _
  | receiveErrored hholder hstage hstate | aborting hholder hstage hstate =>
    rw [Stack.abortInternal_eq]
    exact .same
  | @localClosed k hholder hstage =>
    obtain ⟨hsame, -⟩ | ⟨hclosed, -⟩ := s.setLocalClosed_cases k.conn
    · rw [hsame]
      exact .same
    · rw [hclosed]
      exact .woken _
  | broadcast hholder hstage => exact .woken _
  | @ret k e hholder hstage =>
    obtain hsame | ⟨t', hcaller, hprocs⟩ := s.methodRet_procs k e
    · rw [hsame]
      exact .same
    · exact .of_setProc hprocs (.aborted hholder hcaller hstage)
  | proc hmove => exact .of_setProc rfl (.proc hmove)
  | conn hmove => exact .of_setProc rfl (.conn rfl hmove (by simp))
  | pcb hholder hmove => exact .of_setProc rfl (.pcb hholder hmove)
  | abortLwip hproc hholder => exact .of_setProc rfl (hproc ▸ .abortLwip hholder)
  | pipe hholder hstage hproc hnext => exact .of_setProc rfl (hproc ▸ .piped)
  | _ => exact .same

/-- The connection a goroutine works on. -/
def Proc.conn : Proc → Option ConnId
  | .idle => none
  | .handle c | .connected c | .refused c | .processing c | .abort c | .abortLwip c | .abortCheck c
  | .aborted c | .write c _ _ _ | .wrote c _ _ | .closeWrite c _ | .shutdown c _ | .closeRead c | .close c
  | .read c _ | .readPipe c _ | .readBlocked c _ => some c

@[simp] theorem Proc.wake_conn (c : ConnId) (p : Proc) : (p.wake c).conn = p.conn := by
  unfold Proc.wake
  split <;> rfl

/-- A `Broadcast` moves only writers. -/
theorem Proc.eq_of_wake_eq {c : ConnId} {p q : Proc} (hwake : p.wake c = q)
    (hq : ∀ c' pos data n, q ≠ .write c' pos data n) : p = q := by
  unfold Proc.wake at hwake
  split at hwake
  · exact absurd hwake.symm (hq _ _ _ _)
  · exact hwake

private theorem Call.start_conn (op : Call) : op.start.conn = some op.conn := by
  cases op <;> rfl

/-- Only accepted connections are worked on. -/
structure Bounds (s : Stack) : Prop where
  procs : ∀ t c, (s.procs t).conn = some c → c < s.accepted
  accept : ∀ c owner, s.holder = .accept c owner → c < s.accepted
  task : ∀ k, s.holder = .task k → k.conn < s.accepted

/-- Connections are counted upwards. -/
theorem Life.accepted_le {s s' : Stack} {a : Act} (hlife : Life s a s') :
    s.accepted ≤ s'.accepted := by
  cases hlife with
  | keep haccepted _ _ _ _ => exact Nat.le_of_eq haccepted.symm
  | accept key _ haccepted _ _ _ => exact Nat.le.intro haccepted.symm
  | unknown _ _ _ haccepted _ _ => exact Nat.le_of_eq haccepted.symm
  | release c tpcb st _ _ haccepted _ _ _ _ => exact Nat.le_of_eq haccepted.symm

namespace Bounds

theorem init : Bounds Stack.init where
  procs t c h := by cases h
  accept c owner h := by cases h
  task k h := by cases h

/-- The section of a goroutine leads it to no connection that was not accepted. -/
theorem own {s s' : Stack} {a : Act} {t : Tid} {p p' : Proc} {c : ConnId} (hinv : Bounds s)
    (hp : ∀ c, p.conn = some c → c < s.accepted) (hown : ProcOwn s a s' t p p')
    (hc : p'.conn = some c) :
    c < s.accepted := by
  cases hown with
  | unlock _ | piped => cases hc
  | start _ hholder =>
    cases hc
    exact hinv.accept _ _ hholder
  | aborted hholder _ _ =>
    cases hc
    exact hinv.task _ hholder
  | processing _ | abortLwip _ => exact hp c hc
  | proc hmove =>
    cases hmove with
    | call haccepted hstarted =>
      rw [Call.start_conn] at hc
      cases hc
      exact haccepted
    | _ => first | exact hp c hc | cases hc
  | conn _ hmove _ => cases hmove <;> first | exact hp c hc | cases hc
  | pcb _ hmove => cases hmove <;> first | exact hp c hc | cases hc

/-- No section leads any goroutine to a connection that was not accepted. -/
theorem procs_step {s s' : Stack} {a : Act} (hinv : Bounds s) (hsec : Section s a s') (t : Tid)
    (c : ConnId) (hc : (s'.procs t).conn = some c) : c < s.accepted := by
  have hproc := hsec.procs t
  generalize s'.procs t = p' at hproc hc
  cases hproc with
  | same => exact hinv.procs t c hc
  | woken c' => exact hinv.procs t c (by simpa using hc)
  | own hown => exact hinv.own (hinv.procs t) hown hc

theorem step {s s' : Stack} {a : Act} (hreg : Registry s) (hinv : Bounds s)
    (hsec : Section s a s') :
    Bounds s' := by
  have hle := hsec.life.accepted_le
  refine ⟨fun t c hc => Nat.lt_of_lt_of_le (hinv.procs_step hsec t c hc) hle, ?_, ?_⟩
  · intro c owner hc
    cases hsec with
    | accept hholder =>
      cases hc
      exact Nat.lt_succ_self _
    | errFound _ _ _ | errUnknown _ _ _ | tcp _ | proc _ | conn _ | pcb _ _ =>
      exact hinv.accept _ _ hc
    | ret _ _ => exact absurd hc (Stack.methodRet_not_accept _ _ _ _ _)
    | _ => cases hc
  · intro k' hk'
    cases hsec with
    | cbFound _ _ _ hfound =>
      cases hk'
      exact hreg.accepted hfound
    | procFound _ _ _ hfound =>
      cases hk'
      exact hreg.accepted hfound
    | abortLwip hproc _ =>
      cases hk'
      exact hinv.procs _ _ (by rw [hproc]; rfl)
    | task hholder _ | receiveErrored hholder _ _ | recved hholder _ | closing hholder _ _
    | aborting hholder _ _ | broadcast hholder _ | localClosed hholder _ | pipe hholder _ _ _ =>
      have hlt := hinv.task _ hholder
      cases hk'
      exact Nat.lt_of_lt_of_le hlt hle
    | ret hholder _ => exact absurd hk' (Stack.methodRet_not_task _ _ _ _)
    | errFound _ _ _ | errUnknown _ _ _ | tcp _ | proc _ | conn _ | pcb _ _ => exact hinv.task _ hk'
    | _ => cases hk'

end Bounds

/-- In every run, only accepted connections are worked on. -/
theorem reach_bounds {s : Stack} (h : Reach tcpMachine any s) : Bounds s := by
  refine Reach.invariant Bounds.init ?_ h
  intro s a s' hreach hinv _ hstep
  exact hinv.step (reach_registry hreach).1 (Stack.step_section hstep)

/-- A connection that is released was not released before. `receiveCheck` could
    take a connection from `tcpErrored` back to `tcpClosed`, but a callback never
    finds one there. -/
theorem ReleaseCause.not_released {s : Stack} {a : Act} {c tpcb : ConnId} (hreg : Registry s)
    (htask : TaskInv s) (hcause : ReleaseCause s a c tpcb) : ¬(s.conns c).state.released := by
  cases hcause with
  | err hlive hfound => exact hreg.notReleased hfound
  | @task k hholder hstage =>
    obtain ⟨hreceive, -⟩ | ⟨-, hstate⟩ | ⟨-, hstate⟩ := hstage
    · have hgoing : ∀ e, k.stage ≠ .ret e := by simp [hreceive]
      have hmethod := ((htask k hholder).ofReceive hgoing).mp (by rw [hreceive]; rfl)
      exact hreg.notReleased ((htask k hholder).receiveFound hmethod)
    · simp [hstate, TcpConnState.released]
    · simp [hstate, TcpConnState.released]

/-- Only an accepted connection is released. -/
theorem ReleaseCause.lt_accepted {s : Stack} {a : Act} {c tpcb : ConnId} (hreg : Registry s)
    (hbounds : Bounds s) (hcause : ReleaseCause s a c tpcb) : c < s.accepted := by
  cases hcause with
  | err hlive hfound => exact hreg.accepted hfound
  | task hholder _ => exact hbounds.task _ hholder

/-- The goroutine whose call into lwIP the callback is part of, if any. -/
def Caller.runner : Caller → Option Tid
  | .recv _ _ owner | .sent _ owner | .poll _ owner => owner
  | .abort t => some t

/-- The goroutine that holds `lwipMutex`; `none` also for input and timers. -/
def Holder.runner : Holder → Option Tid
  | .free => none
  | .lwip owner | .accept _ owner => owner
  | .task k => k.caller.runner

/-- The places inside lwIP code or inside a callback. -/
def Proc.inLwip : Proc → Bool
  | .processing _ | .abortCheck _ => true
  | _ => false

@[simp] theorem Proc.wake_inLwip (c : ConnId) (p : Proc) : (p.wake c).inLwip = p.inLwip := by
  unfold Proc.wake
  split <;> rfl

/-- A goroutine that holds `lwipMutex` is inside lwIP or a callback. -/
def RunnerInv (s : Stack) : Prop := ∀ t, s.holder.runner = some t → (s.procs t).inLwip = true

/-- A callback is run by the goroutine whose call has led to it. -/
theorem CbStart.runner {pcb : TcpPcb} {c : ConnId} {owner : Option Tid} {a : Act} {caller : Caller}
    {stage : Stage} {f : TcpPcb → TcpPcb} (hcb : CbStart pcb c owner a caller stage f) :
    caller.runner = owner := by
  cases hcb <;> rfl

private theorem Stack.methodRet_runner (s : Stack) (k : Task) (e : Option LwipError) :
    ((s.methodRet k e).holder.runner = k.caller.runner ∧ (s.methodRet k e).procs = s.procs) ∨
      (s.methodRet k e).holder = .free := by
  unfold Stack.methodRet Stack.recvRet
  split
  all_goals rename_i hcaller
  · left
    rw [hcaller]
    split <;> exact ⟨rfl, rfl⟩
  · exact .inl ⟨by rw [hcaller]; rfl, rfl⟩
  · exact .inl ⟨by rw [hcaller]; rfl, rfl⟩
  · exact .inl ⟨by rw [hcaller]; rfl, rfl⟩
  · exact .inr rfl

/-- A goroutine that moves on its own is not inside lwIP. -/
theorem ProcMove.not_inLwip {s : Stack} {t : Tid} {a : Act} {p p' : Proc}
    (hmove : ProcMove s t a p p') : p.inLwip = false := by
  cases hmove <;> rfl

/-- A goroutine that works on the fields of a connection is not inside lwIP. -/
theorem ConnMove.not_inLwip {s : Stack} {t : Tid} {c : ConnId} {p p' : Proc}
    {f : TcpConn → TcpConn} (hmove : ConnMove s t c p p' f) : p.inLwip = false := by
  cases hmove <;> rfl

/-- A goroutine that is not inside lwIP does not run what is held there. -/
theorem RunnerInv.ne {s : Stack} {t : Tid} (hinv : RunnerInv s) (hp : (s.procs t).inLwip = false) :
    s.holder.runner ≠ some t := by
  intro ht
  rw [hinv t ht] at hp
  cases hp

/-- A goroutine outside lwIP is moved neither by the end of lwIP's work nor by the end of
    an `Abort`. -/
theorem RunnerInv.not_unlock {s : Stack} {t : Tid} (hinv : RunnerInv s)
    (hp : (s.procs t).inLwip = false) : s.holder ≠ .lwip (some t) := by
  intro hholder
  exact hinv.ne hp (by rw [hholder]; rfl)

/-- A goroutine that is not inside lwIP is not in `Abort`. -/
theorem RunnerInv.not_abort {s : Stack} {t : Tid} {k : Task} (hinv : RunnerInv s)
    (hp : (s.procs t).inLwip = false) (hholder : s.holder = .task k) : k.caller ≠ .abort t := by
  intro hcaller
  refine hinv.ne hp ?_
  rw [hholder]
  exact congrArg Caller.runner hcaller

/-- Whoever runs lwIP code keeps running it when another goroutine moves. -/
theorem RunnerInv.setProc {s : Stack} {t t' : Tid} {p' : Proc} (hinv : RunnerInv s)
    (hp : (s.procs t').inLwip = false) (ht : s.holder.runner = some t) :
    (Function.update s.procs t' p' t).inLwip = true := by
  have hne : t ≠ t' := by
    rintro rfl
    exact hinv.ne hp ht
  rw [Function.update_of_ne hne]
  exact hinv t ht

theorem RunnerInv.step {s s' : Stack} {a : Act} (hinv : RunnerInv s) (hsec : Section s a s') :
    RunnerInv s' := by
  intro t ht
  cases hsec with
  | lwipLock _ | lwipUnlock _ | procUnlock _ => cases ht
  | accept hholder => exact hinv t (by rw [hholder]; exact ht)
  | acceptDone hholder hidle =>
    exact hinv.setProc (by rw [hidle]; rfl) (by rw [hholder]; exact ht)
  | cbFound hcb hholder _ _ =>
    exact hinv t (by rw [hholder]; exact hcb.runner.symm.trans ht)
  | cbUnknown _ hholder _ _ => exact hinv t (by rw [hholder]; exact ht)
  | procFound _ _ _ _ | procUnknown _ _ _ _ =>
    cases ht
    simp [Proc.inLwip]
  | errFound hholder _ _ => exact (Proc.wake_inLwip _ _).trans (hinv t ht)
  | errUnknown _ _ _ | tcp _ => exact hinv t ht
  | task hholder _ | recved hholder _ => exact hinv t (by rw [hholder]; exact ht)
  | receiveErrored hholder _ _ | aborting hholder _ _ =>
    rw [Stack.abortInternal_eq]
    exact hinv t (by rw [hholder]; exact ht)
  | closing hholder _ _ => exact hinv t (by rw [hholder]; exact ht)
  | @localClosed k hholder _ =>
    have hin := hinv t (by rw [hholder]; exact ht)
    obtain ⟨hsame, -⟩ | ⟨hclosed, -⟩ := s.setLocalClosed_cases k.conn
    · rw [hsame]
      exact hin
    · rw [hclosed]
      exact (Proc.wake_inLwip _ _).trans hin
  | broadcast hholder _ =>
    exact (Proc.wake_inLwip _ _).trans (hinv t (by rw [hholder]; exact ht))
  | @ret k e hholder _ =>
    obtain ⟨hrunner, hprocs⟩ | hfree := s.methodRet_runner k e
    · rw [hprocs]
      exact hinv t (by rw [hholder]; exact hrunner.symm.trans ht)
    · rw [hfree] at ht
      cases ht
  | proc hmove => exact hinv.setProc hmove.not_inLwip ht
  | conn hmove => exact hinv.setProc hmove.not_inLwip ht
  | pcb hholder _ =>
    change s.holder.runner = some t at ht
    rw [hholder] at ht
    cases ht
  | abortLwip _ _ =>
    cases ht
    simp [Proc.inLwip]
  | pipe hholder _ hproc _ =>
    exact hinv.setProc (by rw [hproc]; rfl) (by rw [hholder]; exact ht)

/-- In every run, a goroutine that holds `lwipMutex` is inside lwIP or a callback. -/
theorem reach_runner {s : Stack} (h : Reach tcpMachine any s) : RunnerInv s := by
  refine Reach.invariant ?_ ?_ h
  · intro t ht
    cases ht
  · intro s a s' _ hinv _ hstep
    exact hinv.step (Stack.step_section hstep)

end tun2proxy.core
