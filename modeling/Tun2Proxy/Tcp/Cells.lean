import Tun2Proxy.Tcp.Keys

open tun2proxy.machine tun2proxy.machine.Machine

namespace tun2proxy.core

/-- A call of `getConnKeyVal` on the cell of a connection, with whether the cell is allocated
    at that moment. -/
structure CellRead where
  conn : ConnId
  allocated : Bool
  deriving DecidableEq, Repr

namespace Stack

/-- `getConnKeyVal(arg)` in a callback of the pcb of `c`. -/
def cellRead (s : Stack) (c : ConnId) : CellRead := ⟨c, (s.conns c).connKeyArgFrees = 0⟩

/-- The reads inside `tcp_abort`: after it has freed the pcb it runs `tcpErrFn`, unless the
    pcb was in TIME_WAIT. -/
def tcpAbortReads (s : Stack) (c : ConnId) : List CellRead :=
  if (s.pcbs c).gone ∨ (s.pcbs c).tcb.state = .TIME_WAIT then []
  else [(s.modPcb c TcpPcb.abandon).cellRead c]

/-- The reads of a callback that lwIP starts: its own, and those of the `tcp_abort` with which
    it answers for a connection that it does not find. -/
def callbackReads (s : Stack) (c : ConnId) : List CellRead :=
  s.cellRead c :: if s.lookup c = none then s.tcpAbortReads c else []

/-- The next section of the task runs `abortInternal`. -/
def abortsNow (s : Stack) (k : Task) : Prop :=
  (k.stage = .receiveCheck ∧ (s.conns k.conn).state = .tcpErrored) ∨
  (k.stage = .checkAborting ∧ (s.conns k.conn).state = .tcpAborting)

instance (s : Stack) (k : Task) : Decidable (s.abortsNow k) := inferInstanceAs (Decidable (_ ∨ _))

/-- All reads of key cells in a step. -/
def reads (s : Stack) : Act → List CellRead
  | .err c _ => [s.cellRead c]
  | .task =>
    match s.holder with
    -- `abortInternal` releases the connection, and then calls `tcp_abort`
    | .task k => if s.abortsNow k then (s.release k.conn).tcpAbortReads k.conn else []
    | _ => []
  | .pipe _ => []
  | a =>
    match s.callbackOf a with
    | some c => s.callbackReads c
    | none => []

end Stack

/-- Each cell was freed as often as its connection was released, which is at most once. -/
def CellInv (s : Stack) : Prop :=
  ∀ c, c < s.accepted →
    (s.conns c).connKeyArgFrees = if (s.conns c).state.released then 1 else 0

/-- Every step of the run reads allocated cells only, and the cells are freed once, by the
    release of their connection. -/
def CellsOk (schedule : List Act) : Prop :=
  Steps tcpMachine (fun s a => (∀ r ∈ s.reads a, r.allocated = true) ∧
    ∀ s', s.step a = some s' → CellInv s') schedule

/-- If the step runs `abortInternal`, the pcb is in TIME_WAIT. -/
def AbortInTimeWait (s : Stack) (a : Act) : Prop :=
  a = .task → ∀ k, s.holder = .task k → s.abortsNow k → (s.pcbs k.conn).tcb.state = .TIME_WAIT

/-- A released connection stays released. -/
theorem Life.released {s s' : Stack} {a : Act} (hinv : Owned s) (hlife : Life s a s') {c : ConnId}
    (hc : c < s.accepted) (hreleased : (s.conns c).state.released) :
    (s'.conns c).state.released := by
  cases hlife with
  | keep _ _ _ hmove _ => exact ((hmove c).released_iff (hinv.accepting c)).mpr hreleased
  | accept _ _ _ _ hconns _ =>
    rw [hconns, Function.update_of_ne (Nat.ne_of_lt hc)]
    exact hreleased
  | unknown _ _ _ _ _ hconns _ => rwa [hconns]
  | release c₀ _ st hst _ _ _ _ hstate _ =>
    rw [hstate]
    split
    · exact hst
    · exact hreleased

theorem CellInv.step {s s' : Stack} {a : Act} (hreg : Registry s) (htask : TaskInv s)
    (hbounds : Bounds s) (hinv : Owned s) (hcells : CellInv s) (hsec : Section s a s') :
    CellInv s' := by
  intro c hc
  by_cases hold : c < s.accepted
  · rw [(hsec.freed hreg htask hbounds hinv hold).eq, hcells c hold]
    by_cases hreleased : (s.conns c).state.released
    · simp [hreleased, hsec.life.released hinv hold hreleased]
    · simp [hreleased]
  · cases hsec.life with
    | accept key hact haccepted htcpConns hconns hpcbs =>
      have heq : c = s.accepted := by
        rw [haccepted] at hc
        exact Nat.le_antisymm (Nat.le_of_lt_succ hc) (Nat.not_lt.mp hold)
      rw [hconns, heq, Function.update_self]
      simp [newConn, TcpConnState.released]
    | keep haccepted _ _ _ _ | unknown _ _ _ haccepted _ _ _
    | release _ _ _ _ _ haccepted _ _ _ _ => exact absurd (haccepted ▸ hc) hold

private theorem reach_cellInv {s : Stack} (h : Reach tcpMachine FreshKey s) : CellInv s := by
  refine h.invariant (fun c hc => absurd hc (Nat.not_lt_zero c)) ?_
  intro s a s' hreach hcells _ hstep
  have hany : Reach tcpMachine any _ := hreach.mono fun _ _ _ => trivial
  exact hcells.step (reach_registry hany).1 (reach_registry hany).2 (reach_bounds hany)
    (reach_owned hreach) (Stack.step_section hstep)

/-! ### The reads of one step -/

/-- lwIP starts a callback, other than err: the connection is there. -/
theorem Section.callback_lookup {s s' : Stack} {a : Act} (hbounds : Bounds s) (hinv : Owned s)
    (hsec : Section s a s') {c : ConnId} (hc : s.callbackOf a = some c) (htask : a ≠ .task)
    (hpipe : ∀ t, a ≠ .pipe t) : c < s.accepted ∧ s.lookup c = some c := by
  cases hsec with
  | lwipLock _ | lwipUnlock _ | procUnlock _ | accept _ | acceptDone _ _ | tcp _ => cases hc
  | cbFound hcb _ hlive _ | cbUnknown hcb _ hlive _ =>
    cases hcb.callbackOf.symm.trans hc
    exact ⟨hlive.1, hinv.lookup_live hlive⟩
  | procFound hproc _ hrefused _ | procUnknown hproc _ hrefused _ =>
    simp only [Stack.callbackOf, hproc, hrefused, Option.map_some] at hc
    cases hc
    have hlt := hbounds.procs _ _ (by rw [hproc]; rfl)
    exact ⟨hlt, hinv.lookup_refused hlt hrefused⟩
  | errFound _ hlive _ | errUnknown _ hlive _ =>
    cases hc
    exact ⟨hlive.1, hinv.lookup_live hlive⟩
  | task _ _ | broadcast _ _ | receiveErrored _ _ _ | aborting _ _ _ | recved _ _ | closing _ _ _
  | localClosed _ _ | ret _ _ => exact absurd rfl htask
  | pipe _ _ _ _ => exact absurd rfl (hpipe _)
  | abortLwip hproc _ =>
    simp only [Stack.callbackOf, hproc] at hc
    cases hc
  | @proc _ t _ hmove =>
    cases hmove.callbackOf.symm.trans hc
  | conn hmove => cases hmove.callbackOf.symm.trans hc
  | pcb _ hmove => cases hmove.callbackOf.symm.trans hc

theorem CellInv.cellRead {s : Stack} (hreg : Registry s) (hcells : CellInv s) {c : ConnId}
    (hlookup : s.lookup c = some c) : (s.cellRead c).allocated = true := by
  have hopen := hreg.notReleased hlookup
  have hzero := hcells c (hreg.accepted hlookup)
  rw [if_neg hopen] at hzero
  simp [Stack.cellRead, hzero]

/-- Every callback that lwIP starts reads an allocated cell. -/
theorem callback_reads_ok {s s' : Stack} {a : Act} (hreg : Registry s) (hbounds : Bounds s)
    (hinv : Owned s) (hcells : CellInv s) (hsec : Section s a s') (htask : a ≠ .task) :
    ∀ r ∈ s.reads a, r.allocated = true := by
  have hread {c : ConnId} (hc : s.callbackOf a = some c) (hpipe : ∀ t, a ≠ .pipe t) :
      ∀ r ∈ s.callbackReads c, r.allocated = true := by
    obtain ⟨-, hlookup⟩ := hsec.callback_lookup hbounds hinv hc htask hpipe
    intro r hr
    rw [Stack.callbackReads, if_neg (by rw [hlookup]; exact Option.some_ne_none c),
      List.mem_singleton] at hr
    rw [hr]
    exact hcells.cellRead hreg hlookup
  have hstart (hreads : s.reads a = match s.callbackOf a with
      | some c => s.callbackReads c
      | none => []) (hpipe : ∀ t, a ≠ .pipe t) : ∀ r ∈ s.reads a, r.allocated = true := by
    rw [hreads]
    cases hc : s.callbackOf a with
    | none => exact fun r hr => absurd hr List.not_mem_nil
    | some c => exact hread hc hpipe
  cases a with
  | err c code =>
    obtain ⟨-, hlookup⟩ := hsec.callback_lookup hbounds hinv rfl htask (by simp)
    intro r hr
    rw [List.mem_singleton.mp hr]
    exact hcells.cellRead hreg hlookup
  | task => exact absurd rfl htask
  | pipe t => exact fun r hr => absurd hr List.not_mem_nil
  | _ => exact hstart rfl (by simp)

/-- `abortInternal` frees the cell and then runs the err callback, which reads it. -/
theorem task_reads {s : Stack} {k : Task} (hreg : Registry s) (htask : TaskInv s)
    (hbounds : Bounds s) (hinv : Owned s) (hholder : s.holder = .task k) :
    s.reads .task =
      if s.abortsNow k ∧ (s.pcbs k.conn).tcb.state ≠ .TIME_WAIT then [⟨k.conn, false⟩] else [] := by
  simp only [Stack.reads, hholder]
  by_cases haborts : s.abortsNow k
  · have hcause : ReleaseCause s .task k.conn k.conn := by
      obtain herr | habort := haborts
      · exact .task hholder (.inl herr)
      · exact .task hholder (.inr (.inr habort))
    have hc := hbounds.task k hholder
    have hopen := hcause.not_released hreg htask
    have hlookup : s.tcpConns (s.conns k.conn).connKey = some k.conn :=
      (hinv.lookup_iff k.conn hc).mpr hopen
    have hgone : (s.pcbs k.conn).gone = false := hinv.not_gone_of_lookup hc hlookup
    have hread : (((s.release k.conn).modPcb k.conn TcpPcb.abandon).cellRead k.conn) =
        ⟨k.conn, false⟩ := by
      simp [Stack.cellRead, hlookup]
    rw [if_pos haborts, Stack.tcpAbortReads, Stack.release_pcbs, hgone, hread]
    by_cases hwait : (s.pcbs k.conn).tcb.state = .TIME_WAIT
    · simp [hwait]
    · simp [hwait, haborts]
  · rw [if_neg haborts, if_neg fun h => haborts h.1]

private theorem reads_ok_iff {s s' : Stack} {a : Act} (hreg : Registry s) (htask : TaskInv s)
    (hbounds : Bounds s) (hinv : Owned s) (hcells : CellInv s) (hsec : Section s a s') :
    (∀ r ∈ s.reads a, r.allocated = true) ↔ AbortInTimeWait s a := by
  by_cases ha : a = .task
  · subst ha
    obtain ⟨k, hholder⟩ : ∃ k, s.holder = .task k := by
      cases hsec with
      | task h _ | broadcast h _ | receiveErrored h _ _ | aborting h _ _ | recved h _
      | closing h _ _ | localClosed h _ | ret h _ => exact ⟨_, h⟩
      | cbFound hcb _ _ _ | cbUnknown hcb _ _ _ => cases hcb
      | @proc _ t _ hmove =>
        generalize s.procs t = p at hmove
        cases hmove
      | @pcb _ t _ _ _ _ _ hmove =>
        generalize s.procs t = p at hmove
        cases hmove
    rw [task_reads hreg htask hbounds hinv hholder]
    constructor
    · intro hreads _ k' hk' haborts
      cases hholder.symm.trans hk'
      by_contra hwait
      rw [if_pos ⟨haborts, hwait⟩] at hreads
      exact absurd (hreads _ List.mem_cons_self) (by simp)
    · intro hwait
      rw [if_neg fun h => h.2 (hwait rfl k hholder h.1)]
      exact fun r hr => absurd hr List.not_mem_nil
  · exact iff_of_true (callback_reads_ok hreg hbounds hinv hcells hsec ha) fun h => absurd h ha

/-- In every run whose keys are fresh: the cells are read only while they are allocated, and
    freed once, if and only if `abortInternal` runs on pcbs in TIME_WAIT only. -/
theorem cellsOk_iff {schedule : List Act} {s : Stack} (h : Trace tcpMachine schedule s)
    (hfresh : Steps tcpMachine FreshKey schedule) :
    CellsOk schedule ↔ Steps tcpMachine AbortInTimeWait schedule := by
  have hreads {s s' : Stack} {a : Act} (hreach : Reach tcpMachine FreshKey s)
      (hstep : s.step a = some s') :
      (∀ r ∈ s.reads a, r.allocated = true) ↔ AbortInTimeWait s a := by
    have hany : Reach tcpMachine any _ := hreach.mono fun _ _ _ => trivial
    exact reads_ok_iff (reach_registry hany).1 (reach_registry hany).2 (reach_bounds hany)
      (reach_owned hreach) (reach_cellInv hreach) (Stack.step_section hstep)
  have hstep : Steps tcpMachine (fun s a => ((∀ r ∈ s.reads a, r.allocated = true) ∧
      ∀ s', s.step a = some s' → CellInv s') ↔ AbortInTimeWait s a) schedule := by
    refine h.steps hfresh fun s a s' hreach hok hnext => ?_
    rw [hreads hreach hnext]
    exact and_iff_left fun s'' hnext' => reach_cellInv (hreach.step hok hnext')
  constructor
  · intro hok front a back mid hsplit htrace
    exact (hstep front a back mid hsplit htrace).mp (hok front a back mid hsplit htrace)
  · intro hok front a back mid hsplit htrace
    exact (hstep front a back mid hsplit htrace).mpr (hok front a back mid hsplit htrace)

/-- The handler cannot dial, so the connection is aborted, while its pcb is in `state`. -/
def failedDial (state : TcpState) : List Act :=
  [.lwipLock, .accept 1, .acceptDone 0, .tcp 0 { newPcb.tcb with state }, .lwipUnlock,
    .handled 0 false, .run 0, .run 0, .task, .task, .task]

theorem cellsOk_iff_timeWait : ∃ s, Trace tcpMachine (failedDial .TIME_WAIT) s ∧
    Steps tcpMachine FreshKey (failedDial .TIME_WAIT) ∧
    (CellsOk (failedDial .TIME_WAIT) ↔
      Steps tcpMachine AbortInTimeWait (failedDial .TIME_WAIT)) := by
  obtain ⟨s, htrace, hfresh, -⟩ := exists_trace_of_run tcpMachine FreshKey (failedDial .TIME_WAIT)
    (fun _ => True) (by decide)
  exact ⟨s, htrace, hfresh, cellsOk_iff htrace hfresh⟩

/-- While the pcb is established, the err callback inside `tcp_abort` reads the freed cell. -/
theorem abort_reads_freed_cell : ¬CellsOk (failedDial .ESTABLISHED) ∧
    ∃ s, Trace tcpMachine (failedDial .ESTABLISHED).dropLast s ∧ s.reads .task = [⟨0, false⟩] := by
  obtain ⟨s, htrace, -, hreads⟩ := exists_trace_of_run tcpMachine any
    (failedDial .ESTABLISHED).dropLast (fun s => s.reads .task = [⟨0, false⟩]) (by decide)
  refine ⟨fun hok => ?_, s, htrace, hreads⟩
  have hallocated := (hok (failedDial .ESTABLISHED).dropLast .task [] s rfl htrace).1 ⟨0, false⟩
  exact absurd (hallocated (by rw [hreads]; exact List.mem_cons_self)) (by simp)

end tun2proxy.core
