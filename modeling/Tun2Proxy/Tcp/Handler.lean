import Tun2Proxy.Tcp.Shutdown
import Tun2Proxy.Tcp.Download

open tun2proxy.machine tun2proxy.machine.Machine

namespace tun2proxy.core

/-! ### What holds of goroutines and pipes in every run -/

/-- The goroutine that a step starts. -/
def Act.starts : Act → Option Tid
  | .call t _ | .acceptDone t => some t
  | _ => none

/-- An idle goroutine stays so until it is called. -/
theorem Section.idle {s s' : Stack} {a : Act} (hsec : Section s a s') (hrunner : RunnerInv s)
    {t : Tid} (hidle : s.procs t = .idle) (hstarts : a.starts ≠ some t) : s'.procs t = .idle := by
  have hstep := hsec.procs t
  generalize s'.procs t = p' at hstep
  rw [hidle] at hstep
  cases hstep with
  | same | woken _ => rfl
  | own hown =>
    cases hown with
    | unlock _ => rfl
    | start hact _ => exact absurd (congrArg Act.starts hact) hstarts
    | aborted hholder hcaller _ => exact absurd hcaller (hrunner.not_abort (by rw [hidle]; rfl) hholder)
    | proc hmove =>
      cases hmove with
      | call _ _ => exact absurd rfl hstarts
    | conn _ hmove _ => cases hmove
    | pcb _ hmove => cases hmove

/-- Only finitely many goroutines were started. -/
theorem reach_idle {s : Stack} (h : Reach tcpMachine any s) : ∃ n, ∀ t, n ≤ t → s.procs t = .idle := by
  induction h with
  | init => exact ⟨0, fun _ _ => rfl⟩
  | @step s s' a hreach _ hstep ih =>
    obtain ⟨n, hn⟩ := ih
    refine ⟨max n ((a.starts.elim 0 id) + 1), fun t ht => ?_⟩
    refine (Stack.step_section hstep).idle (reach_runner hreach) (hn t (Nat.le_trans (Nat.le_max_left _ _) ht)) ?_
    intro hstarts
    rw [hstarts] at ht
    exact Nat.not_succ_le_self t (Nat.le_trans (Nat.le_max_right _ _) ht)

/-- Only `newTCPConn` itself ends its work on the connection. -/
theorem Section.accept_holder {s s' : Stack} {a : Act} (hsec : Section s a s') {c : ConnId}
    {owner : Option Tid} (hholder : s.holder = .accept c owner) :
    s'.holder = .accept c owner ∨ (s'.conns c).started = true := by
  cases hsec with
  | acceptDone hholder' _ =>
    cases hholder.symm.trans hholder'
    exact .inr (by simp)
  | proc _ | conn _ => exact .inl hholder
  | _ =>
    have hother := ‹s.holder = _›
    simp_all

/-- Handlers know every connection except the one `newTCPConn` is working on. -/
theorem reach_started {s : Stack} (h : Reach tcpMachine any s) {c : ConnId} (hc : c < s.accepted) :
    (s.conns c).started = true ∨ ∃ owner, s.holder = .accept c owner := by
  refine Reach.invariant (P := fun s => ∀ c, c < s.accepted → (s.conns c).started = true ∨
    ∃ owner, s.holder = .accept c owner) ?_ ?_ h c hc
  · intro c hc
    exact absurd hc (Nat.not_lt_zero c)
  · intro s a s' _ hinv _ hstep c hc'
    have hsec := Stack.step_section hstep
    by_cases hc : c < s.accepted
    · obtain hstarted | ⟨owner, hholder⟩ := hinv c hc
      · exact .inl (hsec.started hc hstarted)
      · exact (hsec.accept_holder hholder).symm.imp_right fun h => ⟨owner, h⟩
    · cases hsec.life with
      | keep haccepted _ _ _ _ => exact absurd (haccepted ▸ hc') hc
      | unknown _ _ _ haccepted _ _ => exact absurd (haccepted ▸ hc') hc
      | release _ _ _ _ _ haccepted _ _ _ _ => exact absurd (haccepted ▸ hc') hc
      | accept key hact haccepted _ _ _ =>
        subst hact
        rw [haccepted] at hc'
        cases Nat.le_antisymm (Nat.le_of_lt_succ hc') (Nat.le_of_not_lt hc)
        obtain ⟨owner, -, rfl⟩ := hsec.accept_eq
        exact .inr ⟨owner, rfl⟩

/-- The ends of the pipe stay closed. -/
theorem Section.pipe_mono {s s' : Stack} {a : Act} (hsec : Section s a s') {c : ConnId}
    (hc : c < s.accepted) :
    ((s.conns c).sndPipeReaderClosed = true → (s'.conns c).sndPipeReaderClosed = true) ∧
      ((s.conns c).sndPipeWriterClosed = true → (s'.conns c).sndPipeWriterClosed = true) := by
  have hstep := hsec.conns c
  generalize s'.conns c = conn' at hstep ⊢
  cases hstep with
  | same | acceptDone _ | pipe _ _ _ => exact ⟨id, id⟩
  | localClosed _ _ _ _ => exact ⟨id, fun _ => rfl⟩
  | accept _ hnew => exact absurd hnew (Nat.ne_of_lt hc)
  | err _ _ _ | release _ _ _ => simp
  | own hmove =>
    generalize s.procs _ = p at hmove
    cases hmove <;> first | exact ⟨id, id⟩ | exact ⟨fun _ => rfl, id⟩
  | pcb hmove =>
    generalize s.procs _ = p at hmove
    cases hmove <;> exact ⟨id, id⟩

/-- `close` of connection `c`, after its `CloseRead`. -/
def Proc.closing (c : ConnId) : Proc → Prop
  | .closeWrite c' byClose | .shutdown c' byClose => c' = c ∧ byClose = true
  | _ => False

/-- Once `closeOnce` was entered, the reading end of the pipe is closed. -/
structure ReaderInv (s : Stack) : Prop where
  once : ∀ c, (s.conns c).closeOnce ≠ .fresh → (s.conns c).sndPipeReaderClosed = true
  closing : ∀ t c, (s.procs t).closing c → (s.conns c).sndPipeReaderClosed = true

theorem ReaderInv.step {s s' : Stack} {a : Act} (hbounds : Bounds s) (hinv : ReaderInv s)
    (hsec : Section s a s') : ReaderInv s' := by
  have hclosing (t : Tid) (c : ConnId) (h : (s.procs t).closing c) :
      (s'.conns c).sndPipeReaderClosed = true := by
    have hc : (s.procs t).conn = some c := by
      revert h
      cases s.procs t <;> simp_all [Proc.closing, Proc.conn]
    exact (hsec.pipe_mono (hbounds.procs t c hc)).1 (hinv.closing t c h)
  constructor
  · intro c honce
    have hstep := hsec.conns c
    generalize s'.conns c = conn' at hstep honce
    cases hstep with
    | same | acceptDone _ | localClosed _ _ _ _ | pipe _ _ _ => exact hinv.once c honce
    | accept _ _ => exact absurd rfl honce
    | err _ _ _ | release _ _ _ => simp
    | own hmove =>
      generalize hp : s.procs _ = p at hmove
      cases hmove with
      | @closeWriteAgain byClose _ =>
        cases byClose with
        | true => exact hinv.closing _ c (by rw [hp]; exact ⟨rfl, rfl⟩)
        | false => exact hinv.once c honce
      | closeRead | close _ => rfl
      | _ => exact hinv.once c honce
    | pcb hmove =>
      generalize hp : s.procs _ = p at hmove
      cases hmove with
      | @shutdown byClose _ =>
        cases byClose with
        | true => exact hinv.closing _ c (by rw [hp]; exact ⟨rfl, rfl⟩)
        | false => exact hinv.once c honce
      | _ => exact hinv.once c honce
  · intro t c h
    have hstep := hsec.procs t
    generalize hp : s.procs t = p at hstep
    generalize s'.procs t = p' at hstep h
    cases hstep with
    | same => exact hclosing t c (hp ▸ h)
    | woken c' =>
      refine hclosing t c ?_
      rw [hp]
      revert h
      unfold Proc.wake
      split <;> simp [Proc.closing]
    | own hown =>
      cases hown with
      | proc hmove =>
        cases hmove with
        | @call op _ _ => cases op <;> simp [Call.start, Proc.closing] at h
        | _ => exact h.elim
      | conn _ hmove hconn =>
        cases hmove with
        | closeWrite _ => exact hclosing t c (hp ▸ h)
        | close _ =>
          obtain ⟨rfl, -⟩ := h
          rw [hconn]
        | _ => exact h.elim
      | pcb _ hmove => cases hmove <;> exact h.elim
      | _ => exact h.elim

/-- In every run, the reading end of the pipe is closed once `closeOnce` was entered. -/
theorem reach_reader {s : Stack} (h : Reach tcpMachine any s) : ReaderInv s := by
  refine Reach.invariant ⟨fun _ h => absurd rfl h, fun _ _ h => h.elim⟩ ?_ h
  intro s a s' hreach hinv _ hstep
  exact hinv.step (reach_bounds hreach) (Stack.step_section hstep)

/-- The places of `Write` on connection `c` that hold `canWrite.L`. -/
def Proc.locks (c : ConnId) : Proc → Prop
  | .write c' pos _ _ => c' = c ∧ (pos = .check ∨ pos = .lwip ∨ pos = .wait)
  | _ => False

/-- `canWrite.L` is held by a `Write` that is past its `Lock`. -/
def LockInv (s : Stack) : Prop :=
  ∀ c t, (s.conns c).canWriteL = some t → (s.procs t).locks c

/-- Who holds `canWrite.L` still does after a broadcast. -/
theorem Proc.wake_locks {c c' : ConnId} {p : Proc} (hlocks : p.locks c) : (p.wake c').locks c := by
  unfold Proc.wake
  split
  · obtain ⟨-, h | h | h⟩ := hlocks <;> cases h
  · exact hlocks

theorem Proc.conn_of_locks {p : Proc} {c : ConnId} (hlocks : p.locks c) : p.conn = some c := by
  cases p <;> simp_all [Proc.locks, Proc.conn]

theorem Stack.release_canWriteL (s : Stack) (c c' : ConnId) :
    ((s.release c).conns c').canWriteL = (s.conns c').canWriteL := by
  rw [Stack.release_conns]
  split <;> simp_all

/-- A goroutine that does not hold `canWrite.L` moves. -/
theorem Proc.update_locks {procs : Tid → Proc} {c : ConnId} {t t' : Tid} {p p' : Proc}
    (hlocks : (procs t).locks c) (hp : procs t' = p) (hnot : ¬p.locks c) :
    (Function.update procs t' p' t).locks c := by
  rw [Function.update_of_ne]
  · exact hlocks
  · rintro rfl
    exact hnot (hp ▸ hlocks)

private theorem Proc.not_locks {p : Proc} {c : ConnId} (hin : p.inLwip = true) : ¬p.locks c := by
  intro h
  cases p <;> first | exact h | cases hin

theorem ConnMove.proc_conn {s : Stack} {t : Tid} {c : ConnId} {p p' : Proc}
    {f : TcpConn → TcpConn} (hmove : ConnMove s t c p p' f) : p.conn = some c := by
  cases hmove <;> rfl

theorem PcbMove.proc_conn {s : Stack} {t : Tid} {c : ConnId} {a : Act} {p p' : Proc}
    {f : TcpPcb → TcpPcb} {g : TcpConn → TcpConn} (hmove : PcbMove s t c a p p' f g) :
    p.conn = some c := by
  cases hmove <;> rfl

namespace LockInv

variable {s : Stack} {t : Tid} {c : ConnId}

/-- A goroutine at work on another connection moves. -/
theorem other {t' : Tid} {c' : ConnId} {p' : Proc} (hinv : LockInv s)
    (hconn : (s.procs t').conn = some c') (hne : c ≠ c') (hlock : (s.conns c).canWriteL = some t) :
    (Function.update s.procs t' p' t).locks c := by
  refine Proc.update_locks (hinv c t hlock) rfl fun hlocks => ?_
  have hsame := Proc.conn_of_locks hlocks
  exact hne (Option.some.inj (hsame.symm.trans hconn))

private theorem proc_step {a : Act} {t' : Tid} {p' : Proc} (hinv : LockInv s)
    (hmove : ProcMove s t' a (s.procs t') p') (hlock : (s.conns c).canWriteL = some t) :
    (Function.update s.procs t' p' t).locks c := by
  have hlocks := hinv c t hlock
  by_cases hw : (s.procs t').locks c
  · generalize hp : s.procs t' = p at hmove hw
    cases hmove with
    | writeCheck _ =>
      rw [Function.update_apply]
      split
      · exact ⟨hw.1, .inr (.inl rfl)⟩
      · exact hlocks
    | _ => exact hw.elim
  · exact Proc.update_locks hlocks rfl hw

theorem conn_step {t' : Tid} {c' : ConnId} {p' : Proc} {f : TcpConn → TcpConn} (hinv : LockInv s)
    (hmove : ConnMove s t' c' (s.procs t') p' f)
    (hlock : ((s.modConn c' f).conns c).canWriteL = some t) :
    (Function.update s.procs t' p' t).locks c := by
  rw [Stack.modConn_conns] at hlock
  split at hlock
  · rename_i heq
    subst heq
    generalize hp : s.procs t' = p at hmove
    have hother (hlock : (s.conns c).canWriteL = some t) (hnot : ¬p.locks c) :
        (Function.update s.procs t' p' t).locks c :=
      Proc.update_locks (hinv c t hlock) hp hnot
    cases hmove with
    | writeLock _ | writeWoken _ =>
      cases hlock
      rw [Function.update_self]
      exact ⟨rfl, .inl rfl⟩
    | writeAll | writeRefused _ | writeWait => cases hlock
    | _ => exact hother hlock id
  · rename_i hne
    exact hinv.other hmove.proc_conn hne hlock

theorem pcb_step {a : Act} {t' : Tid} {c' : ConnId} {p' : Proc} {f : TcpPcb → TcpPcb}
    {g : TcpConn → TcpConn} (hinv : LockInv s) (hmove : PcbMove s t' c' a (s.procs t') p' f g)
    (hlock : ((s.modConn c' g).conns c).canWriteL = some t) :
    (Function.update s.procs t' p' t).locks c := by
  rw [Stack.modConn_conns] at hlock
  split at hlock
  · rename_i heq
    subst heq
    generalize hp : s.procs t' = p at hmove
    have hwait {data : List UInt8} {n : Nat} (hlock : (s.conns c).canWriteL = some t) :
        (Function.update s.procs t' (.write c .wait data n) t).locks c := by
      rw [Function.update_apply]
      split
      · exact ⟨rfl, .inr (.inr rfl)⟩
      · exact hinv c t hlock
    cases hmove with
    | writeFull _ | writePart _ _ | writeMem _ => exact hwait hlock
    | writeLast _ _ | writeErr _ _ => cases hlock
    | noRefused _ | shutdown => exact Proc.update_locks (hinv c t hlock) hp id
  · rename_i hne
    exact hinv.other hmove.proc_conn hne hlock

theorem step {s' : Stack} {a : Act} (hrunner : RunnerInv s) (hinv : LockInv s)
    (hsec : Section s a s') : LockInv s' := by
  intro c t hlock
  cases hsec with
  | proc hmove => exact hinv.proc_step hmove hlock
  | conn hmove => exact hinv.conn_step hmove hlock
  | pcb _ hmove => exact hinv.pcb_step hmove hlock
  | procUnlock hholder =>
    exact Proc.update_locks (hinv c t hlock) rfl (Proc.not_locks (hrunner _ (by rw [hholder]; rfl)))
  | accept _ =>
    simp only [Function.update_apply] at hlock
    split at hlock
    · cases hlock
    · exact hinv c t hlock
  | @acceptDone t' c' _ _ hidle =>
    have hold : (s.conns c).canWriteL = some t := by
      revert hlock
      simp only [Stack.setHolder_conns, Stack.setProc_conns, Stack.modConn_conns]
      split <;> simp_all
    exact Proc.update_locks (hinv c t hold) hidle id
  | procFound hproc _ _ _ | procUnknown hproc _ _ _ =>
    exact Proc.update_locks (hinv c t hlock) hproc id
  | errFound _ _ _ =>
    have hold : (s.conns c).canWriteL = some t := by
      rw [Stack.Err_conns] at hlock
      split at hlock <;> simp_all
    exact Proc.wake_locks (hinv c t hold)
  | receiveErrored _ _ _ | aborting _ _ _ =>
    rw [Stack.abortInternal_eq] at hlock ⊢
    exact hinv c t ((s.release_canWriteL _ c).symm.trans hlock)
  | closing _ _ _ => exact hinv c t ((s.release_canWriteL _ c).symm.trans hlock)
  | @localClosed k _ _ =>
    obtain ⟨hsame, -⟩ | ⟨hclosed, -⟩ := s.setLocalClosed_cases k.conn
    · rw [hsame] at hlock ⊢
      exact hinv c t hlock
    · rw [hclosed] at hlock ⊢
      have hold : (s.conns c).canWriteL = some t := by
        revert hlock
        simp only [Stack.goto_conns, Stack.broadcast_conns, Stack.modConn_conns]
        split <;> simp_all
      exact Proc.wake_locks (hinv c t hold)
  | broadcast _ _ => exact Proc.wake_locks (hinv c t hlock)
  | @ret k e hholder hstage =>
    rw [Stack.methodRet_conns] at hlock
    have hlocks := hinv c t hlock
    obtain hsame | ⟨t', hcaller, hprocs⟩ := s.methodRet_procs k e
    · rw [hsame]
      exact hlocks
    · rw [hprocs]
      have hin := hrunner t' (by rw [hholder]; exact congrArg Caller.runner hcaller)
      exact Proc.update_locks hlocks rfl (Proc.not_locks hin)
  | abortLwip hproc _ => exact Proc.update_locks (hinv c t hlock) hproc id
  | @pipe t' k _ _ _ _ _ _ hproc _ =>
    have hold : (s.conns c).canWriteL = some t := by
      revert hlock
      simp only [Stack.goto_conns, Stack.record_conns, Stack.setProc_conns, Stack.modConn_conns]
      split <;> simp_all
    exact Proc.update_locks (hinv c t hold) hproc id
  | _ => exact hinv c t hlock

end LockInv

/-- In every run, `canWrite.L` is held by a `Write` that is past its `Lock`. -/
theorem reach_lock {s : Stack} (h : Reach tcpMachine any s) : LockInv s := by
  refine Reach.invariant ?_ ?_ h
  · intro c t hlock
    cases hlock
  · intro s a s' hreach hinv _ hstep
    exact hinv.step (reach_runner hreach) (Stack.step_section hstep)

/-! ### A handler that makes its calls one after the other -/

/-- What a handler may do with its connection. -/
inductive HandlerOp where
  | read (len : Nat)
  | write (data : List UInt8)
  | closeRead
  | closeWrite
  | close
  | abort
  deriving DecidableEq, Repr

/-- The call of a method on connection `c`. -/
def HandlerOp.call (c : ConnId) : HandlerOp → Call
  | .read len => .read c len
  | .write data => .write c data
  | .closeRead => .closeRead c
  | .closeWrite => .closeWrite c
  | .close => .close c
  | .abort => .abort c

/-- The call has returned. -/
def Proc.returned : Proc → Bool
  | .idle | .wrote _ _ _ | .aborted _ => true
  | _ => false

/-- The stack, with one goroutine that runs a program on a connection. -/
structure HandlerSys where
  stack : Stack
  -- the calls that the goroutine has not made yet
  prog : List HandlerOp
  -- where its last call runs
  cur : Option Tid

/-- The next call of the handler, or any other section. -/
inductive HandlerAct where
  -- the goroutine makes its next call
  | next (t : Tid)
  -- any other section
  | other (a : Act)
  deriving DecidableEq, Repr

namespace HandlerSys

/-- What the rest of the program may do: everything, but on connection `c` only the
    `Abort` of `lwipStack.Close`. -/
def allowed (c : ConnId) (s : HandlerSys) : Act → Prop
  | .call t op => s.cur ≠ some t ∧ (op.conn = c → op = .abort c)
  | .acceptDone t => s.cur ≠ some t
  | _ => True

instance (c : ConnId) (s : HandlerSys) : (a : Act) → Decidable (s.allowed c a)
  | .call t op => inferInstanceAs (Decidable (s.cur ≠ some t ∧ (op.conn = c → op = .abort c)))
  | .acceptDone t => inferInstanceAs (Decidable (s.cur ≠ some t))
  | .lwipLock | .lwipUnlock | .accept _ | .recv _ _ | .recvFin _ | .refused _ | .sent _ | .poll _ | .err _ _
  | .tcp _ _ | .task | .handled _ _ | .write _ _ _ | .shutdown _ _ | .run _ | .pipe _ =>
    inferInstanceAs (Decidable True)

/-- The goroutine is between two calls. -/
def ready (s : HandlerSys) : Bool := s.cur.all fun t => (s.stack.procs t).returned

def step (c : ConnId) (s : HandlerSys) : HandlerAct → Option HandlerSys
  | .next t =>
    match s.prog with
    | [] => none
    | op :: rest =>
      if s.ready then
        (s.stack.step (.call t (op.call c))).map fun stack => ⟨stack, rest, some t⟩
      else none
  | .other a =>
    if s.allowed c a then (s.stack.step a).map fun stack => { s with stack } else none

end HandlerSys

/-- The machine of the package with a handler that runs `prog` on connection `c`. -/
def handlerMachine (c : ConnId) (prog : List HandlerOp) : Machine HandlerSys HandlerAct :=
  ⟨⟨Stack.init, prog, none⟩, HandlerSys.step c⟩

/-- Everything a step of that machine can do. -/
theorem HandlerSys.step_cases {c : ConnId} {s s' : HandlerSys} {a : HandlerAct}
    (hstep : s.step c a = some s') :
    (∃ t op, s.prog = op :: s'.prog ∧ s.ready = true ∧ s'.cur = some t ∧
      s.stack.step (.call t (op.call c)) = some s'.stack) ∨
    (∃ act, s.allowed c act ∧ s'.prog = s.prog ∧ s'.cur = s.cur ∧ s.stack.step act = some s'.stack) := by
  cases a with
  | next t =>
    cases hprog : s.prog with
    | nil => simp [HandlerSys.step, hprog] at hstep
    | cons op rest =>
      simp only [HandlerSys.step, hprog, Option.ite_none_right_eq_some] at hstep
      obtain ⟨hready, hmap⟩ := hstep
      obtain ⟨stack, hcall, rfl⟩ := Option.map_eq_some_iff.mp hmap
      exact .inl ⟨t, op, rfl, hready, rfl, hcall⟩
  | other act =>
    simp only [HandlerSys.step, Option.ite_none_right_eq_some] at hstep
    obtain ⟨hallowed, hmap⟩ := hstep
    obtain ⟨stack, hact, rfl⟩ := Option.map_eq_some_iff.mp hmap
    exact .inr ⟨act, hallowed, rfl, rfl, hact⟩

/-- A run with a handler is a run of the connections. -/
theorem HandlerSys.reach_stack {c : ConnId} {prog : List HandlerOp} {s : HandlerSys}
    (h : Reach (handlerMachine c prog) any s) : Reach tcpMachine any s.stack := by
  induction h with
  | init => exact .init
  | step _ _ hstep ih =>
    obtain ⟨t, op, -, -, -, hcall⟩ | ⟨act, -, -, -, hact⟩ := HandlerSys.step_cases hstep
    · exact ih.step (a := .call t (op.call c)) trivial hcall
    · exact ih.step (a := act) trivial hact

end tun2proxy.core
