import Tun2Proxy.Tcp.Procs

open tun2proxy.machine tun2proxy.machine.Machine

namespace tun2proxy.core

/-- Goroutine `t` waits on `canWrite` of `c`, and no `Broadcast` came since. -/
def Stack.Waiting (s : Stack) (t : Tid) (c : ConnId) : Prop :=
  ∃ data n, s.procs t = .write c .waiting data n

/-- No writer sleeps on a released connection. -/
def NoSleeper (s : Stack) : Prop := ∀ t c, s.Waiting t c → ¬(s.conns c).state.released

/-- The next section of this code is the one of `checkClosing` or `checkAborting`
    that releases the connection, without a `Broadcast`. -/
def Stack.releasesSilently (s : Stack) (k : Task) : Prop :=
  (k.stage = .checkClosing ∧ (s.conns k.conn).state = .tcpClosing) ∨
    (k.stage = .checkAborting ∧ (s.conns k.conn).state = .tcpAborting)

instance (s : Stack) (k : Task) : Decidable (s.releasesSilently k) :=
  inferInstanceAs (Decidable (_ ∨ _))

/-- `Write` calls `Wait` only before its connection is released, and the two
    checks release a connection only while no `Write` waits on it. -/
def WokenInTime (s : Stack) (a : Act) : Prop :=
  (∀ t c data n, a = .run t → s.procs t = .write c .wait data n → ¬(s.conns c).state.released) ∧
    (∀ k, a = .task → s.holder = .task k → s.releasesSilently k → ∀ t, ¬s.Waiting t k.conn)

private theorem Proc.wake_ne_waiting {p : Proc} {c : ConnId} {data : List UInt8} {n : Nat} :
    p.wake c ≠ .write c .waiting data n := by
  unfold Proc.wake
  split
  · split <;> simp_all
  · rename_i hp
    intro heq
    exact hp _ _ _ heq

private theorem Proc.waiting_of_wake {p : Proc} {c c' : ConnId} {data : List UInt8} {n : Nat}
    (hwake : p.wake c' = .write c .waiting data n) : p = .write c .waiting data n := by
  unfold Proc.wake at hwake
  split at hwake
  · split at hwake
    · cases hwake
    · exact hwake
  · exact hwake

/-- A writer that waits waited before, or has just called `Wait`. -/
theorem Section.waiting {s s' : Stack} {a : Act} (hsec : Section s a s') {t : Tid} {c : ConnId}
    (hwaiting : s'.Waiting t c) :
    s.Waiting t c ∨ (a = .run t ∧ ∃ data n, s.procs t = .write c .wait data n) := by
  obtain ⟨data, n, hproc'⟩ := hwaiting
  have hstep := hsec.procs t
  generalize hp : s.procs t = p at hstep
  generalize s'.procs t = p' at hstep hproc'
  cases hstep with
  | same => exact .inl ⟨data, n, hp.trans hproc'⟩
  | woken c' => exact .inl ⟨data, n, hp.trans (Proc.waiting_of_wake hproc')⟩
  | own hown =>
    cases hown with
    | conn hact hmove _ =>
      cases hmove with
      | writeWait =>
        cases hproc'
        exact .inr ⟨hact, data, n, rfl⟩
      | _ => cases hproc'
    | proc hmove =>
      cases hmove with
      | @call op _ _ => cases op <;> cases hproc'
      | _ => cases hproc'
    | pcb _ hmove => cases hmove <;> cases hproc'
    | _ => cases hproc'

/-- The err callback wakes every writer of the connection it finds. -/
theorem Section.err_wakes {s s' : Stack} {tpcb c : ConnId} {code : ErrT}
    (hsec : Section s (.err tpcb code) s') (hfound : s.lookup tpcb = some c) (t : Tid) :
    s'.procs t = (s.procs t).wake c := by
  cases hsec with
  | errFound hholder hlive hfound' =>
    cases hfound.symm.trans hfound'
    rfl
  | errUnknown hholder hlive hnone => cases hfound.symm.trans hnone
  | cbFound hcb _ _ _ => cases hcb
  | cbUnknown hcb _ _ _ => cases hcb
  | proc hmove =>
    generalize s.procs _ = p at hmove
    cases hmove
  | pcb _ hmove =>
    generalize s.procs _ = p at hmove
    cases hmove

private theorem noSleeper_step {s s' : Stack} {a : Act} (hreg : Registry s) (htask : TaskInv s)
    (hbounds : Bounds s) (hinv : NoSleeper s) (hok : WokenInTime s a) (hsec : Section s a s') :
    NoSleeper s' := by
  intro t c hwaiting
  have hbefore := hsec.waiting hwaiting
  have hopen : ¬(s.conns c).state.released := by
    obtain hold | ⟨hact, data, n, hproc⟩ := hbefore
    · exact hinv t c hold
    · exact hok.1 t c data n hact hproc
  have hc : c < s.accepted := by
    obtain ⟨data, n, hproc⟩ | ⟨-, data, n, hproc⟩ :=
      hbefore <;> exact hbounds.procs t c (by rw [hproc]; rfl)
  cases hsec.life with
  | keep _ _ _ hmove _ => exact fun hreleased => hopen ((hmove c).released_of_released hreleased)
  | accept key _ _ _ hconns _ =>
    rw [hconns, Function.update_of_ne (Nat.ne_of_lt hc)]
    exact hopen
  | unknown _ _ _ _ _ hconns =>
    rw [hconns]
    exact hopen
  | release c' tpcb st hreleased hcause _ _ _ hstate _ =>
    rw [hstate]
    split
    · rename_i heq
      subst heq
      exfalso
      cases hcause with
      | err hlive hfound =>
        obtain ⟨data, n, hproc'⟩ := hwaiting
        rw [hsec.err_wakes hfound] at hproc'
        exact Proc.wake_ne_waiting hproc'
      | @task k hholder hstage =>
        have hcause : ReleaseCause s .task k.conn k.conn := .task hholder hstage
        obtain ⟨hreceive, hstate⟩ | hsilent := hstage
        · exact hcause.not_released hreg htask (.inr hstate)
        · obtain hold | ⟨hact, -⟩ := hbefore
          · exact hok.2 k rfl hholder hsilent t hold
          · cases hact
    · exact hopen

/-- A step that breaks the condition leaves a sleeping writer. -/
theorem wokenInTime_of_noSleeper {s s' : Stack} {a : Act} (hstep : s.step a = some s')
    (hinv : NoSleeper s') :
    WokenInTime s a := by
  constructor
  · rintro t c data n rfl hproc hreleased
    simp only [Stack.step, Stack.procStep, hproc, Option.some.injEq] at hstep
    subst hstep
    refine hinv t c ⟨data, n, by simp⟩ ?_
    simpa [Stack.unlockWrite] using hreleased
  · rintro k rfl hholder hsilent t ⟨data, n, hproc⟩
    simp only [Stack.step, hholder, Stack.taskStep] at hstep
    obtain ⟨hstage, hstate⟩ | ⟨hstage, hstate⟩ := hsilent
    · simp only [hstage, Stack.checkClosing, hstate, if_true, Option.some.injEq] at hstep
      subst hstep
      refine hinv t k.conn ⟨data, n, by simpa [Stack.closeInternal] using hproc⟩ ?_
      simp [Stack.closeInternal, TcpConnState.released]
    · simp only [hstage, Stack.checkAborting, hstate, if_true, Option.some.injEq] at hstep
      subst hstep
      rw [Stack.abortInternal_eq] at hinv
      refine hinv t k.conn ⟨data, n, by simpa using hproc⟩ ?_
      simp [TcpConnState.released]

private theorem reach_noSleeper {s : Stack} (h : Reach tcpMachine WokenInTime s) : NoSleeper s := by
  refine Reach.invariant ?_ ?_ h
  · rintro t c ⟨data, n, hproc⟩
    cases hproc
  · intro s a s' hreach hinv hok hstep
    have hany := hreach.mono fun _ _ _ => trivial
    exact noSleeper_step (reach_registry hany).1 (reach_registry hany).2 (reach_bounds hany) hinv
      hok (Stack.step_section hstep)

/-- In every run that meets the condition no writer sleeps on a released
    connection, and the first step that breaks it puts one to sleep. -/
theorem no_sleeping_writer (s : Stack) (h : Reach tcpMachine WokenInTime s) :
    (∀ t c, s.Waiting t c → ¬(s.conns c).state.released) ∧
    ∀ a s', s.step a = some s' →
      ((∀ t c, s'.Waiting t c → ¬(s'.conns c).state.released) ↔ WokenInTime s a) := by
  have hany := h.mono fun _ _ _ => trivial
  refine ⟨reach_noSleeper h, ?_⟩
  intro a s' hstep
  constructor
  · exact wokenInTime_of_noSleeper hstep
  · intro hok
    exact noSleeper_step (reach_registry hany).1 (reach_registry hany).2 (reach_bounds hany)
      (reach_noSleeper h) hok (Stack.step_section hstep)

/-- A step that could put a writer to sleep: `Wait` after the release, or a silent
    release. -/
def Stack.mayDoze (s : Stack) : Act → Bool
  | .run t =>
    match s.procs t with
    | .write c .wait _ _ => (s.conns c).state.released
    | _ => false
  | .task =>
    match s.holder with
    | .task k => s.releasesSilently k
    | _ => false
  | _ => false

/-- A run without such steps meets the condition. -/
theorem wokenInTime_of_mayDoze {s : Stack} {a : Act} (hok : s.mayDoze a = false) :
    WokenInTime s a := by
  constructor
  · rintro t c data n rfl hproc
    simpa [Stack.mayDoze, hproc] using hok
  · rintro k rfl hholder hsilent
    simp only [Stack.mayDoze, hholder, decide_eq_false_iff_not] at hok
    exact absurd hsilent hok

/-- A writer waits for a full send buffer. -/
theorem no_sleeping_writer_full :
    ∃ s, Reach tcpMachine WokenInTime s ∧ s.procs 1 = .write 0 .waiting [1] 0 ∧
    ¬(s.conns 0).state.released := by
  obtain ⟨s, hreach, hproc⟩ := exists_reach_of_run tcpMachine (fun s a => s.mayDoze a = false)
    [.lwipLock, .accept 7, .acceptDone 0, .lwipUnlock, .call 1 (.write 0 [1]), .run 1, .run 1,
      .write 1 0 .ERR_OK, .run 1]
    (fun s => s.procs 1 = .write 0 .waiting [1] 0) (by decide)
  have hreach := hreach.mono fun _ _ h => wokenInTime_of_mayDoze h
  exact ⟨s, hreach, hproc, (no_sleeping_writer s hreach).1 1 0 ⟨_, _, hproc⟩⟩

/-- A writer waits for a full send buffer, another goroutine calls `Abort`: the
    connection is released and nothing wakes the writer. -/
theorem sleeping_writer_aborted :
    ∃ s, Reach tcpMachine any s ∧ s.procs 1 = .write 0 .waiting [1] 0 ∧
    (s.conns 0).state = .tcpClosed ∧ s.tcpConns 7 = none := by
  exact exists_reach_of_run tcpMachine any
    [.lwipLock, .accept 7, .acceptDone 0, .lwipUnlock, .call 1 (.write 0 [1]), .run 1, .run 1,
      .write 1 0 .ERR_OK, .run 1, .call 2 (.abort 0), .run 2, .run 2, .task, .task, .task, .task]
    (fun s => s.procs 1 = .write 0 .waiting [1] 0 ∧ (s.conns 0).state = .tcpClosed ∧
      s.tcpConns 7 = none) (by decide)

end tun2proxy.core
