import Tun2Proxy.Tcp.Handler

open tun2proxy.machine tun2proxy.machine.Machine

namespace tun2proxy.core

/-- The places before `lwipMutex.Lock`. -/
def Proc.wantsLwip : Proc → Bool
  | .write _ .lwip _ _ | .shutdown _ _ | .abortLwip _ | .refused _ => true
  | _ => false

/-- The recv callback holds `lwipMutex` and is blocked in the pipe of `c` with unread
    bytes, the handler's goroutine or an `Abort` waits for `lwipMutex`, and nobody
    can read or close the pipe: whatever runs next, the callback stays there. -/
structure Deadlock (c : ConnId) (prog : List HandlerOp) (s : HandlerSys) : Prop where
  blocked : ∃ k rest n, s.stack.holder = .task k ∧ k.conn = c ∧ k.stage = .pipeWrite rest n ∧ rest ≠ []
  waits : (∃ t, s.cur = some t ∧ (s.stack.procs t).wantsLwip = true) ∨
    ∃ t c', s.stack.procs t = .abortLwip c'
  stays : ∀ acts s', (handlerMachine c prog).run any s acts = some s' →
    s'.stack.holder = s.stack.holder

/-- The program reads until it closes the reading side: only `Read`s and `Write`s
    of nothing come before the first `CloseRead` or `Close`, and there is one. -/
def Drains : List HandlerOp → Prop
  | [] => False
  | .closeRead :: _ | .close :: _ => True
  | .read _ :: rest => Drains rest
  | .write data :: rest => data = [] ∧ Drains rest
  | .closeWrite :: _ | .abort :: _ => False

/-! ### Programs that drain the pipe -/

/-- The same for a program whose current call is at `p`, with `rest` to come. -/
def Proc.drains (c : ConnId) (rest : List HandlerOp) : Proc → Prop
  | .idle | .wrote _ _ _ => Drains rest
  | .read c' _ | .readPipe c' _ | .readBlocked c' _ => c' = c ∧ Drains rest
  | .write c' pos data _ => c' = c ∧ data = [] ∧ (pos = .lock ∨ pos = .check) ∧ Drains rest
  | .closeRead c' | .close c' => c' = c
  | _ => False

private theorem Proc.not_inLwip_of_drains {c : ConnId} {rest : List HandlerOp} {p : Proc}
    (hdrains : p.drains c rest) : p.inLwip = false := by
  cases p <;> first | rfl | exact hdrains.elim

private theorem Proc.wake_drains {c c' : ConnId} {rest : List HandlerOp} {p : Proc}
    (hdrains : p.drains c rest) : (p.wake c').drains c rest := by
  unfold Proc.wake
  split
  · obtain ⟨-, -, h | h, -⟩ := hdrains <;> cases h
  · exact hdrains

private theorem Stack.step_write_nil {s s' : Stack} {t : Tid} {c : ConnId} {n : Nat}
    (hproc : s.procs t = .write c .check [] n) (hstep : s.step (.run t) = some s') :
    s' = (s.unlockWrite c).setProc t (.wrote c n none) := by
  simp only [Stack.step, Stack.procStep, hproc, if_true, Option.some.injEq] at hstep
  exact hstep.symm

/-- The reading side is closed, or the handler is on its way to close it. -/
def HandlerSys.Draining (c : ConnId) (s : HandlerSys) : Prop :=
  ((s.stack.conns c).sndPipeReaderClosed = true ∧ c < s.stack.accepted) ∨
    s.cur.elim (Drains s.prog) fun t => (s.stack.procs t).drains c s.prog

/-- A section of the handler's current call. -/
theorem draining_own {s s' : Stack} {a : Act} {c : ConnId} {rest : List HandlerOp} {t : Tid}
    (h : Reach tcpMachine any s) (hstep : s.step a = some s') (hstarts : a.starts ≠ some t)
    (hdrains : (s.procs t).drains c rest) :
    ((s'.conns c).sndPipeReaderClosed = true ∧ c < s'.accepted) ∨ (s'.procs t).drains c rest := by
  have hsec := Stack.step_section hstep
  have hmove := hsec.procs t
  generalize hp : s.procs t = p at hmove hdrains
  generalize hp' : s'.procs t = p' at hmove
  have hnot := (reach_runner h).ne (t := t) (by rw [hp]; exact Proc.not_inLwip_of_drains hdrains)
  have haccepted (hconn : p.conn = some c) : c < s'.accepted :=
    Nat.lt_of_lt_of_le ((reach_bounds h).procs t c (hp ▸ hconn)) hsec.life.accepted_le
  cases hmove with
  | same => exact .inr hdrains
  | woken c' => exact .inr (Proc.wake_drains hdrains)
  | own hown =>
    cases hown with
    | unlock hholder => exact (hnot (by rw [hholder]; rfl)).elim
    | start hact _ => exact absurd (congrArg Act.starts hact) hstarts
    | aborted hholder hcaller _ =>
      exact (hnot (by rw [hholder]; exact congrArg Caller.runner hcaller)).elim
    | processing _ | abortLwip _ => exact hdrains.elim
    | proc hmove =>
      cases hmove with
      | call _ _ => exact absurd rfl hstarts
      | handledNil | handledErr | notConnecting _ => exact hdrains.elim
      | writeCheck _ =>
        obtain ⟨rfl, rfl, -⟩ := hdrains
        rw [Stack.step_write_nil hp hstep, Stack.setProc_procs, if_pos rfl] at hp'
        cases hp'
      | closeAgain =>
        subst hdrains
        have hc := (reach_bounds h).procs t _ (by rw [hp]; rfl)
        left
        refine ⟨(hsec.pipe_mono hc).1 ((reach_reader h).once _ fun hfresh => ?_), haccepted rfl⟩
        simp only [Stack.step, Stack.procStep, hp, hfresh, Option.some.injEq] at hstep
        subst hstep
        simp at hp'
      | readCheck _ | readOpen _ => exact .inr hdrains
    | conn _ hmove hconn =>
      cases hmove with
      | writeLock _ => exact .inr ⟨hdrains.1, hdrains.2.1, .inr rfl, hdrains.2.2.2⟩
      | writeAll | writeRefused _ => exact .inr hdrains.2.2.2
      | writeWait | writeWoken _ => obtain ⟨-, -, h | h, -⟩ := hdrains <;> cases h
      | closeRead | close _ =>
        subst hdrains
        exact .inl ⟨by rw [hconn], haccepted rfl⟩
      | readErr _ | readDone _ | readBroken _ => exact .inr hdrains.2
      | _ => exact hdrains.elim
    | pcb _ hmove =>
      cases hmove with
      | noRefused _ | shutdown => exact hdrains.elim
      | _ => obtain ⟨-, -, h | h, -⟩ := hdrains <;> cases h
    | piped => exact .inr hdrains.2

theorem Drains.start {op : HandlerOp} {rest : List HandlerOp} (hdrains : Drains (op :: rest))
    (c : ConnId) : (op.call c).start.drains c rest := by
  cases op with
  | read len => exact ⟨rfl, hdrains⟩
  | write data => exact ⟨rfl, hdrains.1, .inl rfl, hdrains.2⟩
  | closeRead | close => exact rfl
  | closeWrite | abort => exact hdrains.elim

/-- A call that is over has left the rest of the program to run. -/
theorem Proc.drains_of_returned {c : ConnId} {rest : List HandlerOp} {p : Proc}
    (hdrains : p.drains c rest) (hreturned : p.returned = true) : Drains rest := by
  cases p <;> first | exact hdrains.elim | exact hdrains | cases hreturned

theorem HandlerSys.Draining.step {c : ConnId} {s s' : HandlerSys} {a : HandlerAct}
    (h : Reach tcpMachine any s.stack) (hinv : s.Draining c) (hstep : s.step c a = some s') :
    s'.Draining c := by
  obtain ⟨t, op, hprog, hready, hcur, hcall⟩ | ⟨act, hallowed, hprog, hcur, hact⟩ :=
    HandlerSys.step_cases hstep
  · have hsec := Stack.step_section hcall
    obtain ⟨hclosed, hc⟩ | hdrains := hinv
    · exact .inl ⟨(hsec.pipe_mono hc).1 hclosed, Nat.lt_of_lt_of_le hc hsec.life.accepted_le⟩
    · have hrest : Drains s.prog := by
        revert hdrains hready
        rw [HandlerSys.ready]
        cases s.cur with
        | none => exact fun _ hdrains => hdrains
        | some t => exact fun hready hdrains => Proc.drains_of_returned hdrains hready
      have hproc : s'.stack.procs t = (op.call c).start := by
        simp only [Stack.step, Option.ite_none_right_eq_some, Option.some.injEq] at hcall
        rw [← hcall.2, Stack.setProc_procs, if_pos rfl]
      refine .inr ?_
      rw [hcur, Option.elim_some, hproc]
      exact Drains.start (hprog ▸ hrest) c
  · have hsec := Stack.step_section hact
    obtain ⟨hclosed, hc⟩ | hdrains := hinv
    · exact .inl ⟨(hsec.pipe_mono hc).1 hclosed, Nat.lt_of_lt_of_le hc hsec.life.accepted_le⟩
    · rw [HandlerSys.Draining, hcur, hprog]
      cases hcur' : s.cur with
      | none =>
        rw [hcur'] at hdrains
        exact .inr hdrains
      | some t =>
        rw [hcur'] at hdrains
        refine draining_own h hact ?_ hdrains
        intro hstarts
        cases act with
        | call t' op =>
          cases hstarts
          exact hallowed.1 hcur'
        | acceptDone t' =>
          cases hstarts
          exact hallowed hcur'
        | _ => cases hstarts

/-- Only the handler's current call writes to the connection. -/
def HandlerSys.Sole (c : ConnId) (s : HandlerSys) : Prop :=
  ∀ t pos data n, s.stack.procs t = .write c pos data n → s.cur = some t

theorem Section.writes {s s' : Stack} {a : Act} (hsec : Section s a s') {t : Tid} {c : ConnId}
    {pos : WriteAt} {data : List UInt8} {n : Nat} (hproc' : s'.procs t = .write c pos data n) :
    (∃ pos data n, s.procs t = .write c pos data n) ∨ a = .call t (.write c data) := by
  have hstep := hsec.procs t
  generalize s.procs t = p at hstep
  generalize s'.procs t = p' at hstep hproc'
  cases hstep with
  | same => exact .inl ⟨_, _, _, hproc'⟩
  | woken c' =>
    unfold Proc.wake at hproc'
    split at hproc'
    · cases hproc'
      exact .inl ⟨_, _, _, rfl⟩
    · exact .inl ⟨_, _, _, hproc'⟩
  | own hown =>
    cases hown with
    | proc hmove =>
      cases hmove with
      | @call op _ _ =>
        cases op <;> cases hproc'
        exact .inr rfl
      | writeCheck _ =>
        cases hproc'
        exact .inl ⟨_, _, _, rfl⟩
      | _ => cases hproc'
    | conn _ hmove _ => cases hmove <;> cases hproc' <;> exact .inl ⟨_, _, _, rfl⟩
    | pcb _ hmove => cases hmove <;> cases hproc' <;> exact .inl ⟨_, _, _, rfl⟩
    | _ => cases hproc'

theorem HandlerSys.Sole.step {c : ConnId} {s s' : HandlerSys} {a : HandlerAct}
    (hinv : s.Sole c) (hstep : s.step c a = some s') : s'.Sole c := by
  intro t pos data n hproc'
  obtain ⟨t', op, hprog, hready, hcur, hcall⟩ | ⟨act, hallowed, hprog, hcur, hact⟩ :=
    HandlerSys.step_cases hstep
  · obtain ⟨pos, data, n, hproc⟩ | heq := (Stack.step_section hcall).writes hproc'
    · rw [HandlerSys.ready, hinv t pos data n hproc, Option.all_some, hproc] at hready
      cases hready
    · injection heq with ht _
      rw [hcur, ht]
  · rw [hcur]
    obtain ⟨pos, data, n, hproc⟩ | heq := (Stack.step_section hact).writes hproc'
    · exact hinv t pos data n hproc
    · subst heq
      cases hallowed.2 rfl

/-- What holds of a handler whose program drains the pipe. -/
theorem HandlerSys.reach_draining {c : ConnId} {prog : List HandlerOp} (hprog : Drains prog)
    {s : HandlerSys} (h : Reach (handlerMachine c prog) any s) : s.Draining c ∧ s.Sole c := by
  refine Reach.invariant (P := fun s => s.Draining c ∧ s.Sole c) ⟨.inr hprog, ?_⟩ ?_ h
  · intro t pos data n hproc
    cases hproc
  · intro s a s' hreach hinv _ hstep
    exact ⟨hinv.1.step (HandlerSys.reach_stack hreach) hstep, hinv.2.step hstep⟩

/-- The sections left in a call that drains the pipe. -/
def Proc.left : Proc → Nat
  | .read _ _ => 3
  | .readPipe _ _ | .write _ .lock _ _ => 2
  | .readBlocked _ _ | .write _ .check _ _ | .closeRead _ | .close _ => 1
  | _ => 0

def HandlerSys.left (s : HandlerSys) : Nat :=
  4 * s.prog.length + s.cur.elim 0 fun t => (s.stack.procs t).left

/-- From `s` the handler can take a step that lets the callback go on or that has
    fewer sections left. -/
def HandlerSys.Advances (c : ConnId) (k : Task) (s : HandlerSys) : Prop :=
  ∃ a s', s.step c a = some s' ∧
    (s'.stack.holder ≠ .task k ∨ (s'.stack.holder = .task k ∧ s'.left < s.left))

section
variable {c : ConnId} {prog : List HandlerOp} {s : HandlerSys} {k : Task}

private theorem HandlerSys.advances_run {t : Tid} {stack : Stack} (hcur : s.cur = some t)
    (hstep : s.stack.procStep t = some stack) (hholder : stack.holder = .task k)
    (hleft : (stack.procs t).left < (s.stack.procs t).left) : s.Advances c k := by
  refine ⟨.other (.run t), { s with stack }, ?_, .inr ⟨hholder, ?_⟩⟩
  · simp [HandlerSys.step, HandlerSys.allowed, Stack.step, hstep]
  · simpa [HandlerSys.left, hcur] using hleft

private theorem HandlerOp.start_left (op : HandlerOp) (c : ConnId) : (op.call c).start.left < 4 := by
  cases op <;> simp [HandlerOp.call, Call.start, Proc.left]

/-- The handler is between two calls. -/
theorem HandlerSys.advances_next (h : Reach tcpMachine any s.stack)
    (hholder : s.stack.holder = .task k) (hconn : k.conn = c) (hready : s.ready = true)
    (hdrains : Drains s.prog) : s.Advances c k := by
  have hc : c < s.stack.accepted := hconn ▸ (reach_bounds h).task k hholder
  have hstarted : (s.stack.conns c).started = true := by
    obtain hstarted | ⟨owner, haccept⟩ := reach_started h hc
    · exact hstarted
    · rw [hholder] at haccept
      cases haccept
  cases hprog : s.prog with
  | nil =>
    rw [hprog] at hdrains
    exact hdrains.elim
  | cons op rest =>
    obtain ⟨n, hidle⟩ := reach_idle h
    have hop : (op.call c).conn = c := by cases op <;> rfl
    have hcall : s.stack.step (.call n (op.call c)) =
        some (s.stack.setProc n (op.call c).start) := by
      simp [Stack.step, hidle n (Nat.le_refl n), hop, hc, hstarted]
    refine ⟨.next n, ⟨s.stack.setProc n (op.call c).start, rest, some n⟩, ?_, .inr ⟨hholder, ?_⟩⟩
    · simp [HandlerSys.step, hprog, hready, hcall]
    · have hleft := op.start_left c
      simp only [HandlerSys.left, hprog, List.length_cons, Option.elim_some, Stack.setProc_procs,
        if_true]
      omega

/-- The pipe was closed, so the callback itself goes on. -/
theorem HandlerSys.advances_done (hholder : s.stack.holder = .task k) {rest : List UInt8} {n : Nat}
    (hstage : k.stage = .pipeWrite rest n) (hdone : (s.stack.conns k.conn).pipeDone = true) :
    s.Advances c k := by
  refine ⟨.other .task, { s with stack := s.stack.goto k (.ret (some .LWIP_ERR_CLSD)) }, ?_, .inl ?_⟩
  · simp [HandlerSys.step, HandlerSys.allowed, Stack.step, hholder, Stack.taskStep, hstage, hdone]
  · intro heq
    injection heq with heq
    rw [← heq] at hstage
    cases hstage

/-- A reader takes what its buffer holds, unless that is nothing. -/
theorem HandlerSys.advances_pipe (hholder : s.stack.holder = .task k) (hconn : k.conn = c)
    {rest : List UInt8} {n : Nat} (hstage : k.stage = .pipeWrite rest n) {t : Tid} {len : Nat}
    (hcur : s.cur = some t) (hproc : s.stack.procs t = .readBlocked c len) : s.Advances c k := by
  subst hconn
  obtain ⟨stack, hstep, hproc'⟩ :
      ∃ stack, s.stack.pipeTransfer t = some stack ∧ stack.procs t = .idle := by
    simp [Stack.pipeTransfer, hholder, hproc, hstage]
  refine ⟨.other (.pipe t), { s with stack }, ?_, ?_⟩
  · simp [HandlerSys.step, HandlerSys.allowed, Stack.step, hstep]
  · by_cases hsame : stack.holder = .task k
    · refine .inr ⟨hsame, ?_⟩
      simp [HandlerSys.left, hcur, hproc, hproc', Proc.left]
    · exact .inl hsame

private theorem HandlerSys.advances (h : Reach (handlerMachine c prog) any s) (hprog : Drains prog)
    (hholder : s.stack.holder = .task k) (hconn : k.conn = c) {rest : List UInt8} {n : Nat}
    (hstage : k.stage = .pipeWrite rest n) : s.Advances c k := by
  have hreach := HandlerSys.reach_stack h
  obtain ⟨hdraining, hsole⟩ := HandlerSys.reach_draining hprog h
  cases hdone : (s.stack.conns c).pipeDone with
  | true => exact HandlerSys.advances_done hholder hstage (hconn ▸ hdone)
  | false =>
    have hopen : (s.stack.conns c).sndPipeReaderClosed = false := by
      simp only [TcpConn.pipeDone, Bool.or_eq_false_iff] at hdone
      exact hdone.1
    have hfresh : (s.stack.conns c).closeOnce = .fresh := by
      by_contra hne
      rw [(reach_reader hreach).once c hne] at hopen
      cases hopen
    obtain ⟨hclosed, -⟩ | hdrains := hdraining
    · rw [hclosed] at hopen
      cases hopen
    · cases hcur : s.cur with
      | none =>
        rw [hcur] at hdrains
        exact HandlerSys.advances_next hreach hholder hconn (by simp [HandlerSys.ready, hcur]) hdrains
      | some t =>
        rw [hcur, Option.elim_some] at hdrains
        cases hproc : s.stack.procs t with
        | idle | wrote _ _ _ =>
          rw [hproc] at hdrains
          exact HandlerSys.advances_next hreach hholder hconn
            (by simp [HandlerSys.ready, hcur, hproc, Proc.returned]) hdrains
        | read c' len =>
          rw [hproc] at hdrains
          obtain ⟨rfl, -⟩ := hdrains
          cases hcheck : (s.stack.conns c').state.readCheck with
          | none =>
            have hstep : s.stack.procStep t = some (s.stack.setProc t (.readPipe c' len)) := by
              simp only [Stack.procStep, hproc, hcheck]
            exact HandlerSys.advances_run hcur hstep hholder (by simp [hproc, Proc.left])
          | some e =>
            have hstep : s.stack.procStep t = some ((s.stack.modConn c' fun conn =>
                { conn with readEOF := conn.readEOF || e = .EOF }).setProc t .idle) := by
              simp only [Stack.procStep, hproc, hcheck]
            exact HandlerSys.advances_run hcur hstep hholder (by simp [hproc, Proc.left])
        | readPipe c' len =>
          rw [hproc] at hdrains
          obtain ⟨rfl, -⟩ := hdrains
          have hstep : s.stack.procStep t = some (s.stack.setProc t (.readBlocked c' len)) := by
            simp [Stack.procStep, hproc, hdone]
          exact HandlerSys.advances_run hcur hstep hholder (by simp [hproc, Proc.left])
        | readBlocked c' len =>
          rw [hproc] at hdrains
          obtain ⟨rfl, -⟩ := hdrains
          exact HandlerSys.advances_pipe hholder hconn hstage hcur hproc
        | write c' pos data n =>
          rw [hproc] at hdrains
          obtain ⟨rfl, rfl, rfl | rfl, -⟩ := hdrains
          · have hfree : (s.stack.conns c').canWriteL = none := by
              refine Option.eq_none_iff_forall_not_mem.mpr fun t' hlock => ?_
              have hlocks := reach_lock hreach c' t' hlock
              cases hother : s.stack.procs t' with
              | write c'' pos data n =>
                rw [hother] at hlocks
                obtain ⟨rfl, hpos⟩ := hlocks
                cases hcur.symm.trans (hsole t' pos data n hother)
                rw [hproc] at hother
                cases hother
                obtain h | h | h := hpos <;> cases h
              | _ =>
                rw [hother] at hlocks
                exact hlocks
            have hstep : s.stack.procStep t = some ((s.stack.modConn c' fun conn =>
                { conn with canWriteL := some t }).setProc t (.write c' .check [] n)) := by
              simp [Stack.procStep, hproc, hfree]
            exact HandlerSys.advances_run hcur hstep hholder (by simp [hproc, Proc.left])
          · have hstep : s.stack.procStep t =
                some ((s.stack.unlockWrite c').setProc t (.wrote c' n none)) := by
              simp [Stack.procStep, hproc]
            exact HandlerSys.advances_run hcur hstep hholder (by simp [hproc, Proc.left])
        | closeRead c' =>
          have hstep : s.stack.procStep t = some ((s.stack.modConn c' fun conn =>
              { conn with sndPipeReaderClosed := true }).setProc t .idle) := by
            simp only [Stack.procStep, hproc]
          exact HandlerSys.advances_run hcur hstep hholder (by simp [hproc, Proc.left])
        | close c' =>
          rw [hproc] at hdrains
          cases hdrains
          have hstep : s.stack.procStep t = some ((s.stack.modConn c fun conn =>
              { conn with closeOnce := .running, sndPipeReaderClosed := true }).setProc t
                (.closeWrite c true)) := by
            simp only [Stack.procStep, hproc, hfresh]
          exact HandlerSys.advances_run hcur hstep hholder (by simp [hproc, Proc.left])
        | _ =>
          rw [hproc] at hdrains
          exact hdrains.elim

end

/-- A blocked callback goes on after finitely many sections of the handler. -/
theorem HandlerSys.unblocks {c : ConnId} {prog : List HandlerOp} (hprog : Drains prog)
    {s : HandlerSys} {k : Task} {rest : List UInt8} {n : Nat}
    (h : Reach (handlerMachine c prog) any s) (hholder : s.stack.holder = .task k)
    (hconn : k.conn = c) (hstage : k.stage = .pipeWrite rest n) :
    ∃ acts s', (handlerMachine c prog).run any s acts = some s' ∧ s'.stack.holder ≠ .task k := by
  induction hleft : s.left using Nat.strongRecOn generalizing s with
  | _ left ih =>
    obtain ⟨a, mid, hstep, hmoved | ⟨hsame, hlt⟩⟩ := HandlerSys.advances h hprog hholder hconn hstage
    · exact ⟨[a], mid, (run_cons trivial hstep []).trans rfl, hmoved⟩
    · obtain ⟨acts, s', hrun, hmoved⟩ := ih mid.left (hleft ▸ hlt) (h.step trivial hstep) hsame rfl
      exact ⟨a :: acts, s', (run_cons trivial hstep acts).trans hrun, hmoved⟩

/-! ### Programs that do not -/

/-- The calls that can still read or close the pipe of `c`. -/
def Proc.usesPipe (c : ConnId) : Proc → Prop
  | .read c' _ | .readPipe c' _ | .readBlocked c' _ | .closeRead c' | .close c' => c' = c
  | _ => False

/-- The callback is blocked, no call can read or close the pipe, and the handler
    makes none any more: its program is over or it waits for `lwipMutex` itself. -/
structure HandlerSys.Stuck (c : ConnId) (k : Task) (s : HandlerSys) : Prop where
  holder : s.stack.holder = .task k
  conn : k.conn = c
  stage : ∃ rest n, k.stage = .pipeWrite rest n
  pipe : (s.stack.conns c).pipeDone = false
  nobody : ∀ t, ¬(s.stack.procs t).usesPipe c
  halted : s.prog = [] ∨ ∃ t, s.cur = some t ∧ (s.stack.procs t).wantsLwip = true

theorem ProcMove.wantsLwip {s : Stack} {t : Tid} {a : Act} {p p' : Proc}
    (hmove : ProcMove s t a p p') : p.wantsLwip = false := by
  cases hmove <;> rfl

theorem ConnMove.wantsLwip {s : Stack} {t : Tid} {c : ConnId} {p p' : Proc} {f : TcpConn → TcpConn}
    (hmove : ConnMove s t c p p' f) : p.wantsLwip = false := by
  cases hmove <;> rfl

/-- A goroutine that waits for `lwipMutex` is not the one that moved. -/
theorem Proc.update_wantsLwip {procs : Tid → Proc} {t t' : Tid} {p' : Proc}
    (hwants : (procs t).wantsLwip = true) (hnot : (procs t').wantsLwip = false) :
    (Function.update procs t' p' t).wantsLwip = true := by
  rw [Function.update_of_ne]
  · exact hwants
  · rintro rfl
    rw [hwants] at hnot
    cases hnot

private theorem Proc.update_usesPipe {procs : Tid → Proc} {c : ConnId} {t' : Tid} {p' : Proc}
    (hnobody : ∀ t, ¬(procs t).usesPipe c) (hnot : ¬p'.usesPipe c) (t : Tid) :
    ¬(Function.update procs t' p' t).usesPipe c := by
  rw [Function.update_apply]
  split
  · exact hnot
  · exact hnobody t

theorem ProcMove.usesPipe {s : HandlerSys} {t : Tid} {a : Act} {p p' : Proc} {c : ConnId}
    (hmove : ProcMove s.stack t a p p') (hallowed : s.allowed c a) (hp : ¬p.usesPipe c) :
    ¬p'.usesPipe c := by
  cases hmove with
  | @call op _ _ =>
    intro huses
    have hconn : op.conn = c := by cases op <;> first | exact huses | exact huses.elim
    rw [hallowed.2 hconn] at huses
    exact huses
  | readCheck _ | readOpen _ => exact hp
  | _ => exact id

theorem ConnMove.usesPipe {s : Stack} {t : Tid} {c c' : ConnId} {p p' : Proc}
    {f : TcpConn → TcpConn} (hmove : ConnMove s t c' p p' f) : ¬p'.usesPipe c := by
  cases hmove <;> exact id

/-- Only calls that use the pipe of `c` close its reading end. -/
theorem ConnMove.pipeDone_eq {s : Stack} {t : Tid} {c : ConnId} {p p' : Proc} {f : TcpConn → TcpConn}
    (hmove : ConnMove s t c p p' f) (hp : ¬p.usesPipe c) (conn : TcpConn) :
    (f conn).pipeDone = conn.pipeDone := by
  cases hmove with
  | closeRead | close _ => exact absurd rfl hp
  | _ => rfl

private theorem Proc.not_returned {p : Proc} (hwants : p.wantsLwip = true) : p.returned = false := by
  cases p <;> first | rfl | cases hwants

/-- What other code can do while the callback is blocked. -/
theorem HandlerSys.Stuck.other {c : ConnId} {k : Task} {s : HandlerSys} {act : Act} {stack : Stack}
    (hinv : s.Stuck c k) (hallowed : s.allowed c act) (hsec : Section s.stack act stack) :
    stack.holder = .task k ∧ (stack.conns c).pipeDone = false ∧
    (∀ t, ¬(stack.procs t).usesPipe c) ∧
    ∀ t, (s.stack.procs t).wantsLwip = true → (stack.procs t).wantsLwip = true := by
  obtain ⟨hholder, rfl, ⟨rest, n, hstage⟩, hpipe, hnobody, -⟩ := hinv
  cases hsec with
  | proc hmove =>
    exact ⟨hholder, hpipe, Proc.update_usesPipe hnobody (hmove.usesPipe hallowed (hnobody _)),
      fun t hwants => Proc.update_wantsLwip hwants hmove.wantsLwip⟩
  | @conn t' c' p' f hmove =>
    refine ⟨hholder, ?_, Proc.update_usesPipe hnobody hmove.usesPipe,
      fun t hwants => Proc.update_wantsLwip hwants hmove.wantsLwip⟩
    rw [Stack.setProc_conns, Stack.modConn_conns]
    split
    · rename_i heq
      subst heq
      rw [hmove.pipeDone_eq (hnobody t')]
      exact hpipe
    · exact hpipe
  | @task k' stage hholder' hmove =>
    cases hholder.symm.trans hholder'
    rw [hstage] at hmove
    cases hmove with
    | pipeBroken hdone =>
      rw [hpipe] at hdone
      cases hdone
  | @pipe t' k' _ _ _ _ hholder' _ hproc _ =>
    cases hholder.symm.trans hholder'
    exact (hnobody t' (by rw [hproc]; exact rfl)).elim
  | _ =>
    have hother := ‹s.stack.holder = _›
    rw [hholder] at hother
    cases hother
    try simp_all

/-- Nothing ends it. -/
theorem HandlerSys.Stuck.step {c : ConnId} {k : Task} {s s' : HandlerSys} {a : HandlerAct}
    (hinv : s.Stuck c k) (hstep : s.step c a = some s') : s'.Stuck c k := by
  obtain ⟨t, op, hprog, hready, -, -⟩ | ⟨act, hallowed, hprog, hcur, hact⟩ :=
    HandlerSys.step_cases hstep
  · obtain hnil | ⟨t', hcur, hwants⟩ := hinv.halted
    · rw [hnil] at hprog
      cases hprog
    · rw [HandlerSys.ready, hcur, Option.all_some, Proc.not_returned hwants] at hready
      cases hready
  · obtain ⟨hholder, hpipe, hnobody, hwants⟩ := hinv.other hallowed (Stack.step_section hact)
    refine ⟨hholder, hinv.conn, hinv.stage, hpipe, hnobody, ?_⟩
    rw [hprog, hcur]
    exact hinv.halted.imp_right fun ⟨t, ht, hw⟩ => ⟨t, ht, hwants t hw⟩

theorem HandlerSys.Stuck.deadlock {c : ConnId} (prog : List HandlerOp) {k : Task} {s : HandlerSys}
    {rest : List UInt8} {n : Nat} (hinv : s.Stuck c k) (hstage : k.stage = .pipeWrite rest n)
    (hrest : rest ≠ [])
    (hwaits : (∃ t, s.cur = some t ∧ (s.stack.procs t).wantsLwip = true) ∨
      ∃ t c', s.stack.procs t = .abortLwip c') :
    Deadlock c prog s where
  blocked := ⟨k, rest, n, hinv.holder, hinv.conn, hstage, hrest⟩
  waits := hwaits
  stays acts s' hrun := by
    have hstuck := run_invariant (m := handlerMachine c prog) (P := fun s => s.Stuck c k)
      (fun _ _ _ h _ hstep => HandlerSys.Stuck.step h hstep) hrun hinv
    exact hstuck.holder.trans hinv.holder.symm

/-- The section starts no goroutine. -/
def startsNone (_ : Stack) (a : Act) : Prop := a.starts = none

instance (s : Stack) (a : Act) : Decidable (startsNone s a) := inferInstanceAs (Decidable (_ = _))

/-- Allowed sections of the stack go on beside the handler. -/
theorem HandlerSys.reach_other {c : ConnId} {prog ops : List HandlerOp} {cur : Option Tid}
    {ok : Stack → Act → Prop} [∀ s a, Decidable (ok s a)] {acts : List Act}
    (hok : ∀ s a, ok s a → HandlerSys.allowed c ⟨s, ops, cur⟩ a) {s s' : Stack}
    (h : Reach (handlerMachine c prog) any ⟨s, ops, cur⟩) (hrun : tcpMachine.run ok s acts = some s') :
    Reach (handlerMachine c prog) any ⟨s', ops, cur⟩ := by
  refine run_invariant (m := tcpMachine) (P := fun s => Reach (handlerMachine c prog) any ⟨s, ops, cur⟩)
    ?_ hrun h
  intro s a s' hreach hoka hstep
  refine hreach.step (a := .other a) trivial ?_
  change HandlerSys.step c ⟨s, ops, cur⟩ (.other a) = _
  rw [HandlerSys.step, if_pos (hok s a hoka), show s.step a = some s' from hstep]
  rfl

private theorem HandlerSys.allowed_of_startsNone {c : ConnId} {s : HandlerSys} {m : Stack} {a : Act}
    (hstarts : startsNone m a) : s.allowed c a := by
  cases a <;> trivial

/-- Connection 0 is connected, its pipe is open, and no call is under way. -/
structure Stack.Quiet (s : Stack) : Prop where
  state : (s.conns 0).state = .tcpConnected
  pipe : (s.conns 0).pipeDone = false
  lock : (s.conns 0).canWriteL = none
  lookup : s.lookup 0 = some 0
  live : s.live 0
  returned : ∀ t, (s.procs t).returned = true

/-- A recv callback waits for a reader of connection 0. -/
structure Stack.Parked (s : Stack) (k : Task) (rest : List UInt8) (n : Nat) : Prop where
  holder : s.holder = .task k
  caller : ∃ p, k.caller = .recv 0 (some p) none
  conn : k.conn = 0
  stage : k.stage = .pipeWrite rest n

namespace Stack.Quiet

variable {s : Stack}

/-- `Read` takes bytes from the blocked callback. -/
theorem read_run (hquiet : s.Quiet) {k : Task} {rest : List UInt8} {n : Nat}
    (hparked : s.Parked k rest n) (t : Tid) (len : Nat) :
    ∃ s' k', tcpMachine.run startsNone (s.setProc t (.read 0 len)) [.run t, .run t, .pipe t] =
        some s' ∧
      s'.Quiet ∧ s'.holder = .task k' ∧ k'.caller = k.caller ∧ k'.conn = 0 ∧
      k'.stage =
        if rest.drop (min len rest.length) = [] then .recved (n + min len rest.length)
        else .pipeWrite (rest.drop (min len rest.length)) (n + min len rest.length) := by
  have hcheck : TcpConnState.tcpConnected.readCheck = none := by decide
  let m := min len rest.length
  let blocked := ((s.setProc t (.read 0 len)).setProc t (.readPipe 0 len)).setProc t (.readBlocked 0 len)
  let stage : Stage := if rest.drop m = [] then .recved (n + m) else .pipeWrite (rest.drop m) (n + m)
  let filled := blocked.modConn 0 fun conn => { conn with readBytes := conn.readBytes ++ rest.take m }
  let moved := ((filled.setProc t .idle).record fun e => { e with piped := e.piped + m }).goto k stage
  refine ⟨moved, { k with stage }, ?_, ?_, rfl, rfl, hparked.conn, rfl⟩
  · have hblocked : blocked.pipeTransfer t = some moved := by
      simp [Stack.pipeTransfer, moved, filled, blocked, hparked.holder, hparked.stage, hparked.conn, stage, m]
    simp [Machine.run, tcpMachine, startsNone, Act.starts, Stack.step, Stack.procStep, hquiet.state, hcheck,
      hquiet.pipe]
    exact hblocked
  · refine ⟨by simpa [moved, filled, blocked] using hquiet.state,
      by simpa [moved, filled, blocked, TcpConn.pipeDone] using hquiet.pipe,
      by simpa [moved, filled, blocked] using hquiet.lock,
      by simpa [moved, filled, blocked, Stack.lookup] using hquiet.lookup, hquiet.live, fun t' => ?_⟩
    by_cases ht : t' = t
    · simp [moved, ht, Proc.returned]
    · simpa [moved, filled, blocked, ht] using hquiet.returned t'

/-- The callback ends, and the next segment starts one that waits again. -/
theorem refill_run (hquiet : s.Quiet) {k : Task} {n : Nat} (hholder : s.holder = .task k)
    (hcaller : ∃ p, k.caller = .recv 0 (some p) none) (hconn : k.conn = 0)
    (hstage : k.stage = .recved n) :
    ∃ s' k', tcpMachine.run startsNone s
        [.task, .task, .recv 0 ⟨[0], by decide⟩, .task, .task] = some s' ∧
      s'.Quiet ∧ s'.Parked k' [0] 0 := by
  obtain ⟨p, hcaller⟩ := hcaller
  let p0 : Pbuf := ⟨[0], by decide⟩
  let k1 : Task := { k with stage := .ret (some .LWIP_ERR_OK) }
  let s1 := (s.tcp_recved 0 n).setHolder (.task k1)
  let s2 := ((s1.setHolder (.lwip none)).deferred (some p) true).logRet k.caller (some .ERR_OK)
  let k3 : Task := ⟨.recv 0 (some p0) none, 0, .receiveCheck⟩
  let s3 := (s2.modPcb 0 fun pcb => { pcb with stream := pcb.stream ++ p0.data }).setHolder (.task k3)
  have h1 : s.step .task = some s1 := by
    simp [Stack.step, hholder, Stack.taskStep, hstage, hconn, Stack.goto, s1, k1]
  have h2 : s1.step .task = some s2 := by
    simp [Stack.step, s1, s2, k1, Stack.taskStep, Stack.methodRet, hcaller, Stack.recvRet]
  have hlive : s2.live 0 := by
    simpa [s2, s1, Stack.live] using hquiet.live
  have hlookup : s2.lookup 0 = some 0 := hquiet.lookup
  have h3 : s2.step (.recv 0 p0) = some s3 := by
    have hholder2 : s2.holder = .lwip none := rfl
    have hsame : (s2.modPcb 0 fun pcb => { pcb with stream := pcb.stream ++ p0.data }).lookup 0 =
        some 0 := hlookup
    simp only [Stack.step, hholder2, if_pos hlive, Stack.tcpRecvFn, hsame]
    rfl
  have h4 : s3.step .task = some (s3.goto k3 .pipeStart) := by
    have hstate : (s3.conns 0).state = .tcpConnected := hquiet.state
    have hholder3 : s3.holder = .task k3 := rfl
    simp only [Stack.step, hholder3, Stack.taskStep, k3, Stack.receiveCheck, hstate]
  have h5 : (s3.goto k3 .pipeStart).step .task =
      some (s3.goto { k3 with stage := .pipeStart } (.pipeWrite [0] 0)) := by
    have hpipe : ((s3.goto k3 .pipeStart).conns 0).pipeDone = false := hquiet.pipe
    simp only [Stack.step, Stack.goto_holder, Stack.taskStep, k3, hpipe]
    rfl
  have hrun : tcpMachine.run startsNone s [.task, .task, .recv 0 p0, .task, .task] =
      some (s3.goto { k3 with stage := .pipeStart } (.pipeWrite [0] 0)) := by
    have hok (st : Stack) {a : Act} (hstarts : a.starts = none) : startsNone st a := hstarts
    rw [run_cons (hok s rfl) h1, run_cons (hok s1 rfl) h2, run_cons (hok s2 rfl) h3,
      run_cons (hok s3 rfl) h4, run_cons (hok _ rfl) h5]
    rfl
  refine ⟨_, _, hrun, ?_, ⟨rfl, ⟨p0, rfl⟩, rfl, rfl⟩⟩
  exact ⟨hquiet.state, hquiet.pipe, hquiet.lock, hquiet.lookup,
    by simpa [s3, s2, s1, Stack.live] using hquiet.live, hquiet.returned⟩

end Stack.Quiet

/-- A run of `prog` in which the calls up to `ops` are over and a callback waits with
    unread bytes. -/
def Blocks (prog ops : List HandlerOp) : Prop :=
  ∃ s cur k rest n, Reach (handlerMachine 0 prog) any ⟨s, ops, cur⟩ ∧ s.Quiet ∧ s.Parked k rest n ∧
    rest ≠ []

/-- The section starts no goroutine but the connect goroutine of connection 0. -/
def startsFirst (_ : Stack) (a : Act) : Prop := a.starts = none ∨ a = .acceptDone 0

instance (s : Stack) (a : Act) : Decidable (startsFirst s a) := inferInstanceAs (Decidable (_ ∨ _))

/-- Connection 0 is accepted and connected, and its first segment arrives before the
    handler has done anything. -/
theorem blocks_first (prog : List HandlerOp) : Blocks prog prog := by
  let p0 : Pbuf := ⟨[0], by decide⟩
  let k : Task := ⟨.recv 0 (some p0) none, 0, .pipeWrite [0] 0⟩
  obtain ⟨s, hrun, hs⟩ := (Option.any_eq_true _ _).mp (show
    ((tcpMachine.run startsFirst Stack.init [.lwipLock, .accept 7, .acceptDone 0, .lwipUnlock,
      .handled 0 true, .run 0, .run 0, .lwipLock, .recv 0 p0, .task, .task]).any fun s => decide
        ((s.conns 0).state = .tcpConnected ∧ (s.conns 0).pipeDone = false ∧
          (s.conns 0).canWriteL = none ∧ s.lookup 0 = some 0 ∧ s.live 0 ∧ s.procs 0 = .idle ∧
          s.holder = .task k)) = true by decide)
  obtain ⟨hstate, hpipe, hlock, hlookup, hlive, hproc, hholder⟩ := of_decide_eq_true hs
  have hothers : Reach tcpMachine any s ∧ ∀ t, t ≠ 0 → s.procs t = .idle := by
    refine run_invariant (P := fun s => Reach tcpMachine any s ∧ ∀ t, t ≠ 0 → s.procs t = .idle) ?_ hrun
      ⟨.init, fun _ _ => rfl⟩
    intro s a s' hinv hok hstep
    refine ⟨hinv.1.step trivial hstep, fun t ht => ?_⟩
    refine (Stack.step_section hstep).idle (reach_runner hinv.1) (hinv.2 t ht) ?_
    obtain hnone | rfl := hok
    · rw [hnone]
      simp
    · simpa [Act.starts] using ht.symm
  have hquiet : s.Quiet := by
    refine ⟨hstate, hpipe, hlock, hlookup, hlive, fun t => ?_⟩
    by_cases ht : t = 0
    · rw [ht, hproc]
      rfl
    · rw [hothers.2 t ht]
      rfl
  refine ⟨s, none, k, [0], 0, ?_, hquiet, ⟨hholder, ⟨p0, rfl⟩, rfl, rfl⟩, by simp⟩
  refine HandlerSys.reach_other ?_ (.init (m := handlerMachine 0 prog)) hrun
  intro s a hok
  obtain hnone | rfl := hok
  · exact HandlerSys.allowed_of_startsNone (m := s) hnone
  · exact fun h => by cases h

/-- The handler's next call starts. -/
theorem Blocks.next {prog ops : List HandlerOp} {op : HandlerOp} (h : Blocks prog (op :: ops)) :
    ∃ (s : Stack) (t : Tid) (k : Task) (rest : List UInt8) (n : Nat),
      Reach (handlerMachine 0 prog) any ⟨s.setProc t (op.call 0).start, ops, some t⟩ ∧
      s.Quiet ∧ s.Parked k rest n ∧ rest ≠ [] := by
  obtain ⟨s, cur, k, rest, n, hreach, hquiet, hparked, hrest⟩ := h
  have hstack := HandlerSys.reach_stack hreach
  obtain ⟨t, hidle⟩ := reach_idle hstack
  have hstarted : (s.conns 0).started = true := by
    obtain hstarted | ⟨owner, haccept⟩ := reach_started hstack hquiet.live.1
    · exact hstarted
    · cases hparked.holder.symm.trans haccept
  have hready : HandlerSys.ready ⟨s, op :: ops, cur⟩ = true := by
    cases cur with
    | none => rfl
    | some t => exact hquiet.returned t
  have hop : (op.call 0).conn = 0 := by cases op <;> rfl
  have hcall : s.step (.call t (op.call 0)) = some (s.setProc t (op.call 0).start) := by
    have hfree : s.procs t = .idle := hidle t (Nat.le_refl t)
    simp [Stack.step, hfree, hop, hquiet.live.1, hstarted]
  refine ⟨s, t, k, rest, n, hreach.step (a := .next t) trivial ?_, hquiet, hparked, hrest⟩
  simp [handlerMachine, HandlerSys.step, hready, hcall]

theorem Blocks.read {prog ops : List HandlerOp} {len : Nat} (h : Blocks prog (.read len :: ops)) :
    Blocks prog ops := by
  obtain ⟨s, t, k, rest, n, hreach, hquiet, hparked, hrest⟩ := h.next
  obtain ⟨s', k', hrun, hquiet', hholder, hcaller, hconn, hstage⟩ := hquiet.read_run hparked t len
  have hread := HandlerSys.reach_other (fun _ _ => HandlerSys.allowed_of_startsNone) hreach hrun
  by_cases hall : rest.drop (min len rest.length) = []
  · rw [if_pos hall] at hstage
    obtain ⟨s'', k'', hrun', hquiet'', hparked''⟩ :=
      hquiet'.refill_run hholder (hcaller ▸ hparked.caller) hconn hstage
    exact ⟨s'', some t, k'', [0], 0,
      HandlerSys.reach_other (fun _ _ => HandlerSys.allowed_of_startsNone) hread hrun', hquiet'', hparked'',
      by simp⟩
  · rw [if_neg hall] at hstage
    exact ⟨s', some t, k', _, _, hread, hquiet', ⟨hholder, hcaller ▸ hparked.caller, hconn, hstage⟩, hall⟩

theorem Blocks.write_nil {prog ops : List HandlerOp} (h : Blocks prog (.write [] :: ops)) :
    Blocks prog ops := by
  obtain ⟨s, t, k, rest, n, hreach, hquiet, hparked, hrest⟩ := h.next
  let s1 := ((s.setProc t (.write 0 .lock [] 0)).modConn 0 fun conn => { conn with canWriteL := some t }).setProc t
    (.write 0 .check [] 0)
  let s2 := (s1.unlockWrite 0).setProc t (.wrote 0 0 none)
  have h1 : (s.setProc t (.write 0 .lock [] 0)).step (.run t) = some s1 := by
    simp [Stack.step, Stack.procStep, hquiet.lock, s1]
  have h2 : s1.step (.run t) = some s2 := by
    simp [Stack.step, Stack.procStep, s1, s2]
  have hrun : tcpMachine.run startsNone (s.setProc t (.write 0 .lock [] 0)) [.run t, .run t] = some s2 := by
    have hok (st : Stack) : startsNone st (.run t) := rfl
    rw [run_cons (hok _) h1, run_cons (hok _) h2]
    rfl
  refine ⟨s2, some t, k, rest, n,
    HandlerSys.reach_other (fun _ _ => HandlerSys.allowed_of_startsNone) hreach hrun, ?_,
    ⟨hparked.holder, hparked.caller, hparked.conn, hparked.stage⟩, hrest⟩
  refine ⟨by simpa [s2, s1, Stack.unlockWrite] using hquiet.state,
    by simpa [s2, s1, Stack.unlockWrite, TcpConn.pipeDone] using hquiet.pipe,
    by simp [s2, s1, Stack.unlockWrite], by simpa [s2, s1, Stack.unlockWrite, Stack.lookup] using hquiet.lookup,
    hquiet.live, fun t' => ?_⟩
  by_cases ht : t' = t
  · simp [s2, ht, Proc.returned]
  · simpa [s2, s1, Stack.unlockWrite, ht] using hquiet.returned t'

/-- One goroutine waits for `lwipMutex`, all others have returned, and the handler is
    that goroutine or its program is over. -/
theorem Stack.Parked.deadlock {prog ops : List HandlerOp} {cur : Option Tid} {s : Stack} {t : Tid}
    {k : Task} {rest : List UInt8} {n : Nat} (hparked : s.Parked k rest n) (hrest : rest ≠ [])
    (hpipe : (s.conns 0).pipeDone = false)
    (hothers : ∀ t', t' ≠ t → (s.procs t').returned = true)
    (hwants : (s.procs t).wantsLwip = true)
    (hhalted : cur = some t ∨ (ops = [] ∧ s.procs t = .abortLwip 0)) :
    Deadlock 0 prog ⟨s, ops, cur⟩ := by
  have hstuck : HandlerSys.Stuck 0 k ⟨s, ops, cur⟩ := by
    refine ⟨hparked.holder, hparked.conn, ⟨rest, n, hparked.stage⟩, hpipe, ?_, ?_⟩
    · intro t' huses
      have hneither : (s.procs t').returned = true ∨ (s.procs t').wantsLwip = true := by
        by_cases ht : t' = t
        · exact .inr (ht ▸ hwants)
        · exact .inl (hothers t' ht)
      revert huses hneither
      cases s.procs t' <;> simp [Proc.usesPipe, Proc.returned, Proc.wantsLwip]
    · exact hhalted.symm.imp And.left fun hcur => ⟨t, hcur, hwants⟩
  exact hstuck.deadlock prog hparked.stage hrest
    (hhalted.imp (fun hcur => ⟨t, hcur, hwants⟩) fun h => ⟨t, 0, h.2⟩)

/-- The program is over: the `Abort` of `lwipStack.Close` waits. -/
theorem Blocks.deadlock_nil {prog : List HandlerOp} (h : Blocks prog []) :
    ∃ s, Reach (handlerMachine 0 prog) any s ∧ Deadlock 0 prog s := by
  obtain ⟨s, cur, k, rest, n, hreach, hquiet, hparked, hrest⟩ := h
  obtain ⟨m, hidle⟩ := reach_idle (HandlerSys.reach_stack hreach)
  obtain ⟨t, hm, ht⟩ : ∃ t, m ≤ t ∧ cur ≠ some t := by
    cases cur with
    | none => exact ⟨m, Nat.le_refl m, by simp⟩
    | some t =>
      refine ⟨max m (t + 1), Nat.le_max_left _ _, fun heq => ?_⟩
      injection heq with heq
      exact Nat.not_succ_le_self t (Nat.le_trans (Nat.le_max_right m (t + 1)) (Nat.le_of_eq heq.symm))
  let s1 := s.setProc t (.abort 0)
  let s2 := (s1.modConn 0 fun conn => { conn with state := conn.state.abort }).setProc t (.abortLwip 0)
  have h1 : (handlerMachine 0 prog).step ⟨s, [], cur⟩ (.other (.call t (.abort 0))) =
      some ⟨s1, [], cur⟩ := by
    have hfree : s.procs t = .idle := hidle t hm
    simp [handlerMachine, HandlerSys.step, HandlerSys.allowed, ht, Stack.step, hfree, Call.conn, hquiet.live.1, Call.start, s1]
  have h2 : (handlerMachine 0 prog).step ⟨s1, [], cur⟩ (.other (.run t)) = some ⟨s2, [], cur⟩ := by
    simp [handlerMachine, HandlerSys.step, HandlerSys.allowed, Stack.step, Stack.procStep, s1, s2]
  refine ⟨⟨s2, [], cur⟩, (hreach.step trivial h1).step trivial h2, ?_⟩
  have hparked' : s2.Parked k rest n :=
    ⟨hparked.holder, hparked.caller, hparked.conn, hparked.stage⟩
  refine hparked'.deadlock (t := t) hrest (by simpa [s2, s1, TcpConn.pipeDone] using hquiet.pipe) ?_
    (by simp [s2, Proc.wantsLwip]) (.inr ⟨rfl, by simp [s2]⟩)
  intro t' hne
  simpa [s2, s1, hne] using hquiet.returned t'

/-- The handler itself waits: its next call comes to a place before `lwipMutex.Lock`. -/
theorem Blocks.deadlock_call {prog ops : List HandlerOp} {op : HandlerOp}
    (h : Blocks prog (op :: ops))
    (hcall : ∀ (s : Stack) (t : Tid), s.Quiet → ∃ acts s',
      tcpMachine.run startsNone (s.setProc t (op.call 0).start) acts = some s' ∧ s'.holder = s.holder ∧
      (s'.conns 0).pipeDone = (s.conns 0).pipeDone ∧ (∀ t', t' ≠ t → s'.procs t' = s.procs t') ∧
      (s'.procs t).wantsLwip = true) :
    ∃ s, Reach (handlerMachine 0 prog) any s ∧ Deadlock 0 prog s := by
  obtain ⟨s, t, k, rest, n, hreach, hquiet, hparked, hrest⟩ := h.next
  obtain ⟨acts, s', hrun, hholder, hpipe, hothers, hwants⟩ := hcall s t hquiet
  refine ⟨⟨s', ops, some t⟩,
    HandlerSys.reach_other (fun _ _ => HandlerSys.allowed_of_startsNone) hreach hrun, ?_⟩
  have hparked' : s'.Parked k rest n :=
    ⟨hholder.trans hparked.holder, hparked.caller, hparked.conn, hparked.stage⟩
  refine hparked'.deadlock hrest (hpipe.trans hquiet.pipe) ?_ hwants (.inl rfl)
  intro t' ht
  rw [hothers t' ht]
  exact hquiet.returned t'

private theorem Blocks.deadlock_write {prog ops : List HandlerOp} {b : UInt8} {data : List UInt8}
    (h : Blocks prog (.write (b :: data) :: ops)) :
    ∃ s, Reach (handlerMachine 0 prog) any s ∧ Deadlock 0 prog s := by
  refine h.deadlock_call fun s t hquiet => ?_
  have hcheck : TcpConnState.tcpConnected.writeCheck = none := rfl
  let s0 := s.setProc t (.write 0 .lock (b :: data) 0)
  let s1 := (s0.modConn 0 fun conn => { conn with canWriteL := some t }).setProc t (.write 0 .check (b :: data) 0)
  let s2 := s1.setProc t (.write 0 .lwip (b :: data) 0)
  have h1 : s0.step (.run t) = some s1 := by
    simp [Stack.step, Stack.procStep, s0, s1, hquiet.lock]
  have h2 : s1.step (.run t) = some s2 := by
    simp [Stack.step, Stack.procStep, s0, s1, s2, hquiet.state, hcheck]
  have hok (st : Stack) : startsNone st (.run t) := rfl
  refine ⟨[.run t, .run t], s2, ?_, rfl, ?_, ?_, ?_⟩
  · exact (run_cons (hok s0) h1 _).trans ((run_cons (hok s1) h2 _).trans rfl)
  · simp [s2, s1, s0, TcpConn.pipeDone]
  · intro t' ht
    simp [s2, s1, s0, ht]
  · simp [s2, Proc.wantsLwip]

theorem Blocks.deadlock_closeWrite {prog ops : List HandlerOp} (h : Blocks prog (.closeWrite :: ops)) :
    ∃ s, Reach (handlerMachine 0 prog) any s ∧ Deadlock 0 prog s := by
  refine h.deadlock_call fun s t hquiet => ?_
  have hclose : TcpConnState.tcpConnected.closeWrite = some .tcpWriteClosed := by decide
  let s0 := s.setProc t (.closeWrite 0 false)
  let s1 := (s0.modConn 0 fun conn => { conn with state := .tcpWriteClosed }).setProc t (.shutdown 0 false)
  have h1 : s0.step (.run t) = some s1 := by
    simp [Stack.step, Stack.procStep, s0, s1, hquiet.state, hclose]
  have hok : startsNone s0 (.run t) := rfl
  refine ⟨[.run t], s1, (run_cons hok h1 _).trans rfl, rfl, by simp [s1, s0, TcpConn.pipeDone], ?_,
    by simp [s1, Proc.wantsLwip]⟩
  intro t' ht
  simp [s1, s0, ht]

private theorem Blocks.deadlock_abort {prog ops : List HandlerOp} (h : Blocks prog (.abort :: ops)) :
    ∃ s, Reach (handlerMachine 0 prog) any s ∧ Deadlock 0 prog s := by
  refine h.deadlock_call fun s t _ => ?_
  let s0 := s.setProc t (.abort 0)
  let s1 := (s0.modConn 0 fun conn => { conn with state := conn.state.abort }).setProc t (.abortLwip 0)
  have h1 : s0.step (.run t) = some s1 := by
    simp [Stack.step, Stack.procStep, s0, s1]
  have hok : startsNone s0 (.run t) := rfl
  refine ⟨[.run t], s1, (run_cons hok h1 _).trans rfl, rfl, by simp [s1, s0, TcpConn.pipeDone], ?_,
    by simp [s1, Proc.wantsLwip]⟩
  intro t' ht
  simp [s1, s0, ht]

/-- A program that does not drain the pipe can deadlock. -/
theorem Blocks.deadlock {prog ops : List HandlerOp} (h : Blocks prog ops) (hdrains : ¬Drains ops) :
    ∃ s, Reach (handlerMachine 0 prog) any s ∧ Deadlock 0 prog s := by
  induction ops with
  | nil => exact h.deadlock_nil
  | cons op ops ih =>
    cases op with
    | read len => exact ih h.read hdrains
    | write data =>
      cases data with
      | nil => exact ih h.write_nil fun hops => hdrains ⟨rfl, hops⟩
      | cons b data => exact h.deadlock_write
    | closeRead | close => exact absurd trivial hdrains
    | closeWrite => exact h.deadlock_closeWrite
    | abort => exact h.deadlock_abort

/-- A handler of one goroutine cannot deadlock with the lwIP thread, whatever segments
    arrive and whenever `lwipStack.Close` is called, exactly if its program drains
    the pipe: it only reads until it closes the reading side. -/
theorem deadlock_free_iff (prog : List HandlerOp) :
    (∀ c s, Reach (handlerMachine c prog) any s → ¬Deadlock c prog s) ↔ Drains prog := by
  constructor
  · intro hfree
    by_contra hdrains
    obtain ⟨s, hreach, hdead⟩ := (blocks_first prog).deadlock hdrains
    exact hfree 0 s hreach hdead
  · intro hprog c s hreach hdead
    obtain ⟨k, rest, n, hholder, hconn, hstage, -⟩ := hdead.blocked
    obtain ⟨acts, s', hrun, hmoved⟩ := HandlerSys.unblocks hprog hreach hholder hconn hstage
    exact hmoved ((hdead.stays acts s' hrun).trans hholder)

/-- A handler that reads one byte of each segment and then writes; one that writes at
    once; one that does nothing, when `lwipStack.Close` is called. -/
theorem deadlock_reachable :
    (∃ c s, Reach (handlerMachine c [.read 1, .write [0]]) any s ∧
      Deadlock c [.read 1, .write [0]] s) ∧
    (∃ c s, Reach (handlerMachine c [.write [0]]) any s ∧ Deadlock c [.write [0]] s) ∧
    ∃ c s, Reach (handlerMachine c []) any s ∧ Deadlock c [] s :=
  ⟨⟨0, (blocks_first _).read.deadlock_write⟩, ⟨0, (blocks_first _).deadlock_write⟩,
    ⟨0, (blocks_first _).deadlock_nil⟩⟩

end tun2proxy.core
