import Tun2Proxy.Tcp.Owned

open tun2proxy.machine tun2proxy.machine.Machine

namespace tun2proxy.core

/-- What a callback has called so far, at each place of its code. -/
def EffectAt (k : Task) (effect : Effect) : Stage → Prop
  | .receiveCheck | .pipeStart | .setLocalClosed | .isClosed | .checkClosing | .checkAborting | .broadcast =>
    effect = .empty
  | .pipeWrite rest n =>
    effect.aborts = [] ∧ effect.frees = 0 ∧ effect.credit = 0 ∧
      n + rest.length = (Stack.taskData k).length
  | .recved n =>
    effect.aborts = [] ∧ effect.frees = 0 ∧ effect.credit = 0 ∧ n = (Stack.taskData k).length
  | .ret (some .LWIP_ERR_ABRT) => effect.aborts = [k.conn] ∧ effect.frees = 0
  | .ret (some .LWIP_ERR_CONN) => effect = .empty
  | .ret (some .LWIP_ERR_CLSD) => effect.aborts = [] ∧ effect.frees = 0 ∧ effect.credit = 0
  | .ret (some .LWIP_ERR_OK) =>
    effect.aborts = [] ∧ effect.frees = 0 ∧
      (k.caller.method = .Receive → effect.credit = (Stack.taskData k).length)
  | .ret none => True

/-- The code that holds `lwipMutex` has called what belongs to its place, and nothing was called
    since the last callback if there is none. -/
structure EffectInv (s : Stack) : Prop where
  task : ∀ k, s.holder = .task k → EffectAt k s.effect k.stage
  idle : (∀ k, s.holder ≠ .task k) → s.effect = .empty

private theorem taskData_lt (k : Task) : (Stack.taskData k).length < UInt16.size := by
  unfold Stack.taskData
  split
  · exact Pbuf.len_lt _
  · simp

theorem EffectAt.move {s : Stack} {k : Task} {stage : Stage} (hinv : EffectAt k s.effect k.stage)
    (hmove : TaskMove s k k.stage stage) : EffectAt k s.effect stage := by
  generalize k.stage = here at hmove hinv
  cases hmove with
  | receiveOk _ | notClosed _ | notClosing _ | notAborting _ | receiveConn _ => exact hinv
  | receiveClsd _ | pipeClosed _ | pipeOpen _ =>
    have hempty : s.effect = .empty := hinv
    simp [EffectAt, hempty, Effect.empty]
  | pipeBroken _ => exact ⟨hinv.1, hinv.2.1, hinv.2.2.1⟩
  | isClosed _ => exact trivial

/-- A reader takes bytes from the pipe. -/
theorem EffectAt.pipe {k : Task} {effect : Effect} {rest : List UInt8} {n m : Nat}
    (hinv : EffectAt k effect (.pipeWrite rest n)) (hm : m ≤ rest.length) (stage : Stage)
    (hnext : stage = if rest.drop m = [] then .recved (n + m)
      else .pipeWrite (rest.drop m) (n + m)) :
    EffectAt k { effect with piped := effect.piped + m } stage := by
  obtain ⟨haborts, hfrees, hcredit, hlen⟩ := hinv
  subst hnext
  split
  · rename_i hdrop
    have hall : rest.length ≤ m := List.drop_eq_nil_iff.mp hdrop
    exact ⟨haborts, hfrees, hcredit, by omega⟩
  · refine ⟨haborts, hfrees, hcredit, ?_⟩
    rw [List.length_drop]
    omega

namespace EffectInv

variable {s s' : Stack}

/-- Code that begins, or goes on, has called what belongs to its place. -/
theorem of_task {k : Task} (hholder : s.holder = .task k) (h : EffectAt k s.effect k.stage) :
    EffectInv s where
  task k' hk' := by
    cases hholder.symm.trans hk'
    exact h
  idle hnone := absurd hholder (hnone k)

/-- A section of lwIP or of a goroutine outside the callbacks calls nothing. -/
theorem of_idle (hnone : ∀ k, s.holder ≠ .task k) (heffect : s.effect = .empty) : EffectInv s where
  task k hk := absurd hk (hnone k)
  idle _ := heffect

theorem of_eq (hinv : EffectInv s) (hholder : s'.holder = s.holder) (heffect : s'.effect = s.effect) :
    EffectInv s' := by
  refine ⟨fun k hk => ?_, fun hnone => ?_⟩
  · rw [heffect]
    exact hinv.task k (hholder ▸ hk)
  · rw [heffect]
    exact hinv.idle fun k hk => hnone k (hholder.trans hk)

end EffectInv

private theorem Stack.methodRet_effect (s : Stack) (k : Task) (e : Option LwipError) :
    (s.methodRet k e).effect = .empty := by
  unfold methodRet recvRet
  split <;> (try split) <;> rfl

theorem EffectInv.step {s s' : Stack} {a : Act} (htask : TaskInv s) (hinv : EffectInv s)
    (hsec : Section s a s') : EffectInv s' := by
  -- outside `Receive` the code that runs is not `Receive`
  have hother {k : Task} (hholder : s.holder = .task k) (hgoing : ∀ e, k.stage ≠ .ret e)
      (hreceive : k.stage.ofReceive = false) : k.caller.method ≠ .Receive := by
    intro hmethod
    have htrue := ((htask k hholder).ofReceive hgoing).mpr hmethod
    rw [hreceive] at htrue
    cases htrue
  have hidle (h : ∀ k, s.holder ≠ .task k) : s.effect = .empty := hinv.idle h
  cases hsec with
  | lwipLock hholder | lwipUnlock hholder | procUnlock hholder | accept hholder
  | acceptDone hholder _ => exact .of_idle (by simp) (hidle (by simp [hholder]))
  | cbFound hcb hholder _ _ =>
    have hempty := hidle (by simp [hholder])
    refine .of_task rfl ?_
    cases hcb <;> exact hempty
  | procFound _ hholder _ _ | abortLwip _ hholder => exact .of_task rfl (hidle (by simp [hholder]))
  | cbUnknown _ _ _ _ | procUnknown _ _ _ _ => exact .of_idle (by simp) rfl
  | task hholder hmove => exact .of_task rfl ((hinv.task _ hholder).move hmove)
  | receiveErrored hholder hstage _ | aborting hholder hstage _ =>
    have hat := hinv.task _ hholder
    rw [hstage] at hat
    have hempty : s.effect = Effect.empty := hat
    refine .of_task rfl ?_
    rw [Stack.abortInternal_eq]
    simp [EffectAt, hempty, Effect.empty]
  | @recved k n hholder hstage =>
    have hat := hinv.task _ hholder
    rw [hstage] at hat
    obtain ⟨haborts, hfrees, hcredit, hn⟩ := hat
    refine .of_task rfl ⟨haborts, hfrees, fun _ => ?_⟩
    show s.effect.credit + n % UInt16.size = (Stack.taskData k).length
    rw [hcredit, hn, Nat.mod_eq_of_lt (taskData_lt k), Nat.zero_add]
  | @localClosed k hholder hstage =>
    have hat := hinv.task _ hholder
    rw [hstage] at hat
    refine .of_task rfl ?_
    show (s.setLocalClosed k.conn).effect = .empty
    rw [Stack.setLocalClosed_effect]
    exact hat
  | closing hholder hstage _ | broadcast hholder hstage =>
    have hat := hinv.task _ hholder
    have hne := hother hholder (by simp [hstage]) (by rw [hstage]; rfl)
    rw [hstage] at hat
    have hempty : s.effect = Effect.empty := hat
    refine .of_task rfl ⟨?_, ?_, fun hmethod => absurd hmethod hne⟩
    · exact congrArg Effect.aborts hempty
    · exact congrArg Effect.frees hempty
  | pipe hholder hstage _ hnext =>
    have hat := hinv.task _ hholder
    rw [hstage] at hat
    exact .of_task rfl (hat.pipe (Nat.min_le_right _ _) _ hnext)
  | ret hholder _ => exact .of_idle (Stack.methodRet_not_task _ _ _) (Stack.methodRet_effect _ _ _)
  | errFound _ _ _ | errUnknown _ _ _ | tcp _ | proc _ | conn _ | pcb _ _ => exact hinv.of_eq rfl rfl

/-- What lwIP relies on when a callback returns. -/
structure CbRet.Contract (r : CbRet) (tpcb : ConnId) (code : ErrT) : Prop where
  tpcb_eq : r.caller.tpcb = some tpcb
  code_eq : r.code = some code
  -- `ERR_ABRT` says that this pcb was aborted, once, and nothing else is
  abort_iff : code = .ERR_ABRT ↔ r.effect.aborts = [tpcb]
  no_abort : code ≠ .ERR_ABRT → r.effect.aborts = []
  -- the pbuf, if there is one, is freed once or left to lwIP
  frees : r.effect.frees =
    if (code = .ERR_OK ∨ code = .ERR_ABRT) ∧ r.caller.pbuf.isSome then 1 else 0
  -- the window is given back exactly
  credit : ∀ p owner, r.caller = .recv tpcb (some p) owner → code = .ERR_OK →
    r.effect.credit = p.tot_len
  refused : ∀ p owner, r.caller = .recv tpcb (some p) owner → code = .ERR_CONN →
    r.effect.credit = 0 ∧ r.effect.piped = 0

/-- The data were taken: the pbuf is freed and the window given back. -/
theorem taken_contract {tpcb : ConnId} {p : Pbuf} {owner : Option Tid} {effect : Effect}
    (haborts : effect.aborts = []) (hfrees : effect.frees = 1)
    (hcredit : effect.credit = p.tot_len) :
    CbRet.Contract ⟨.recv tpcb (some p) owner, some .ERR_OK, effect⟩ tpcb .ERR_OK := by
  refine ⟨rfl, rfl, ?_, ?_, ?_, ?_, ?_⟩
  · simp [haborts]
  · simp [haborts]
  · simp [hfrees, Caller.pbuf]
  · intro p' owner' hrecv _
    cases hrecv
    exact hcredit
  · simp

/-- The return of `Receive` to `tcpRecvFn`. -/
theorem recvRet_contract {s : Stack} {k : Task} {tpcb : ConnId} {p : Pbuf} {owner : Option Tid}
    {e : Option LwipError} (hcaller : k.caller = .recv tpcb (some p) owner)
    (hat : EffectAt k s.effect (.ret e))
    (he : e = some .LWIP_ERR_CONN ∨ e = some .LWIP_ERR_CLSD ∨ e = some .LWIP_ERR_OK) :
    ∃ r code, (s.recvRet tpcb p owner e).rets = r :: s.rets ∧ r.Contract tpcb code := by
  have hdata : Stack.taskData k = p.data := by rw [Stack.taskData, hcaller]
  obtain rfl | rfl | rfl := he
  · have hempty : s.effect = .empty := hat
    refine ⟨⟨_, some .ERR_CONN, s.effect⟩, .ERR_CONN, rfl, rfl, rfl, ?_, ?_, ?_, ?_, ?_⟩ <;>
      simp [hempty, Effect.empty]
  · obtain ⟨haborts, hfrees, hcredit⟩ := hat
    refine ⟨⟨_, some .ERR_OK, ⟨s.effect.aborts, s.effect.frees + 1,
      s.effect.credit + p.tot_len % UInt16.size, s.effect.piped⟩⟩, .ERR_OK, rfl,
      taken_contract haborts ?_ ?_⟩
    · show s.effect.frees + 1 = 1
      rw [hfrees]
    · show s.effect.credit + p.tot_len % UInt16.size = p.tot_len
      rw [hcredit, Nat.zero_add]
      exact Nat.mod_eq_of_lt p.len_lt
  · obtain ⟨haborts, hfrees, hcredit⟩ := hat
    refine ⟨⟨_, some .ERR_OK, { s.effect with frees := s.effect.frees + 1 }⟩, .ERR_OK, rfl,
      taken_contract haborts ?_ ?_⟩
    · show s.effect.frees + 1 = 1
      rw [hfrees]
    · show s.effect.credit = p.data.length
      rw [hcredit (by rw [hcaller]; rfl), hdata]

/-- The return of the other methods to their callbacks. -/
theorem stateRet_contract {k : Task} {tpcb : ConnId} {effect : Effect} {e : Option LwipError}
    (htpcb : k.caller.tpcb = some tpcb) (hconn : k.conn = tpcb)
    (hmethod : k.caller.method ≠ .Receive) (hat : EffectAt k effect (.ret e))
    (he : e = some .LWIP_ERR_OK ∨ e = some .LWIP_ERR_ABRT) :
    ∃ code, CbRet.Contract ⟨k.caller, Stack.stateRet e, effect⟩ tpcb code := by
  have hpbuf : k.caller.pbuf = none := by
    generalize k.caller = caller at hmethod
    obtain ⟨_, p, _⟩ | _ | _ | _ := caller
    · obtain _ | p := p
      · rfl
      · exact absurd rfl hmethod
    all_goals rfl
  have hnot {p : Pbuf} {owner : Option Tid} (hrecv : k.caller = .recv tpcb (some p) owner) :
      False := by
    rw [hrecv] at hmethod
    exact hmethod rfl
  obtain rfl | rfl := he
  · obtain ⟨haborts, hfrees, -⟩ := hat
    refine ⟨.ERR_OK, htpcb, rfl, ?_, ?_, ?_, ?_, ?_⟩
    · simp [haborts]
    · simp [haborts]
    · simp [hfrees, hpbuf]
    · intro p owner hrecv
      exact (hnot hrecv).elim
    · intro p owner hrecv
      exact (hnot hrecv).elim
  · obtain ⟨haborts, hfrees⟩ := hat
    refine ⟨.ERR_ABRT, htpcb, rfl, ?_, ?_, ?_, ?_, ?_⟩
    · simp [haborts, hconn]
    · simp
    · simp [hfrees, hpbuf]
    · intro p owner hrecv
      exact (hnot hrecv).elim
    · intro p owner hrecv
      exact (hnot hrecv).elim

private theorem methodRet_contract {s : Stack} {k : Task} {e : Option LwipError} (hok : TaskOk s k)
    (hstage : k.stage = .ret e) (hat : EffectAt k s.effect (.ret e))
    (htpcb : ∀ c, k.caller.tpcb = some c → k.conn = c) :
    ∀ r ∈ (s.methodRet k e).rets, r ∈ s.rets ∨ ∃ tpcb code, r.Contract tpcb code := by
  intro r hr
  have hstate (tpcb : ConnId) (hcaller : k.caller.tpcb = some tpcb)
      (hmethod : k.caller.method ≠ .Receive) (hcallback : k.caller.method ≠ .Abort)
      (hr : r ∈ ⟨k.caller, Stack.stateRet e, s.effect⟩ :: s.rets) :
      r ∈ s.rets ∨ ∃ tpcb code, r.Contract tpcb code := by
    obtain rfl | hold := List.mem_cons.mp hr
    · obtain ⟨code, hcontract⟩ := stateRet_contract hcaller (htpcb tpcb hcaller) hmethod hat
        (hok.checkRet e hstage hmethod hcallback)
      exact .inr ⟨tpcb, code, hcontract⟩
    · exact .inl hold
  cases hcaller : k.caller with
  | recv tpcb p owner =>
    cases p with
    | none =>
      simp only [Stack.methodRet, hcaller] at hr
      exact hstate tpcb (by rw [hcaller]; rfl) (by simp [hcaller, Caller.method])
        (by simp [hcaller, Caller.method]) (hcaller ▸ hr)
    | some p =>
      simp only [Stack.methodRet, hcaller] at hr
      obtain ⟨r', code, hrets, hcontract⟩ := recvRet_contract (s := s) hcaller hat
        (hok.receiveRet e hstage (by rw [hcaller]; rfl))
      rw [hrets] at hr
      obtain rfl | hold := List.mem_cons.mp hr
      · exact .inr ⟨tpcb, code, hcontract⟩
      · exact .inl hold
  | sent tpcb owner =>
    simp only [Stack.methodRet, hcaller] at hr
    exact hstate tpcb (by rw [hcaller]; rfl) (by simp [hcaller, Caller.method])
      (by simp [hcaller, Caller.method]) (hcaller ▸ hr)
  | poll tpcb owner =>
    simp only [Stack.methodRet, hcaller] at hr
    exact hstate tpcb (by rw [hcaller]; rfl) (by simp [hcaller, Caller.method])
      (by simp [hcaller, Caller.method]) (hcaller ▸ hr)
  | abort t =>
    simp only [Stack.methodRet, hcaller] at hr
    exact .inl hr

def RetsInv (s : Stack) : Prop := ∀ r ∈ s.rets, ∃ tpcb code, r.Contract tpcb code

theorem RetsInv.step {s s' : Stack} {a : Act} (htask : TaskInv s) (hbounds : Bounds s)
    (hown : Owned s) (heffect : EffectInv s) (hinv : RetsInv s) (hsec : Section s a s') :
    RetsInv s' := by
  cases hsec with
  | cbUnknown _ _ hlive hnone => exact (hown.not_unknown hbounds hnone (.inl hlive)).elim
  | procUnknown hproc _ hrefused hnone =>
    exact (hown.not_unknown hbounds hnone (.inr ⟨_, _, hproc, hrefused⟩)).elim
  | receiveErrored _ _ _ | aborting _ _ _ =>
    rw [Stack.abortInternal_eq]
    exact hinv
  | localClosed _ _ =>
    intro r hr
    simp only [Stack.goto_rets, Stack.setLocalClosed_rets] at hr
    exact hinv r hr
  | @ret k e hholder hstage =>
    intro r hr
    have hat := heffect.task k hholder
    rw [hstage] at hat
    obtain hold | hnew := methodRet_contract (htask k hholder) hstage hat
      (fun c => hown.tpcb k c hholder) r hr
    · exact hinv r hold
    · exact hnew
  | _ => exact hinv

theorem reach_contract {s : Stack} (h : Reach tcpMachine FreshKey s) : EffectInv s ∧ RetsInv s := by
  refine Reach.invariant (P := fun s => EffectInv s ∧ RetsInv s) ⟨.of_idle ?_ rfl, ?_⟩ ?_ h
  · intro k hk
    cases hk
  · intro r hr
    cases hr
  · intro s a s' hreach hinv hfresh hstep
    have hany := hreach.mono fun _ _ _ => trivial
    have htask := (reach_registry hany).2
    have hsec := Stack.step_section hstep
    exact ⟨hinv.1.step htask hsec, hinv.2.step htask (reach_bounds hany)
      (reach_owned hreach) hinv.1 hsec⟩

/-- With fresh keys, every callback that has returned in any run kept the
    contract. -/
theorem callback_contract (s : Stack) (h : Reach tcpMachine FreshKey s) :
    ∀ r ∈ s.rets, ∃ tpcb code, r.Contract tpcb code :=
  (reach_contract h).2

/-- Data that comes before the handler is connected, and a poll after an abort. -/
theorem callback_contract_refused : ∃ s, Reach tcpMachine FreshKey s ∧
    s.rets = [⟨.poll 0 none, some .ERR_ABRT, ⟨[0], 0, 0, 0⟩⟩,
      ⟨.recv 0 (some ⟨[1, 2], by decide⟩) none, some .ERR_CONN, .empty⟩] ∧
    ∀ r ∈ s.rets, ∃ tpcb code, r.Contract tpcb code := by
  obtain ⟨s, hreach, hrets⟩ := exists_reach_of_run tcpMachine FreshKey
    [.lwipLock, .accept 7, .acceptDone 0, .recv 0 ⟨[1, 2], by decide⟩, .task, .task,
      .call 1 (.abort 0), .run 1, .poll 0, .task, .task, .task, .task]
    (fun s => s.rets = [⟨.poll 0 none, some .ERR_ABRT, ⟨[0], 0, 0, 0⟩⟩,
      ⟨.recv 0 (some ⟨[1, 2], by decide⟩) none, some .ERR_CONN, .empty⟩]) (by decide)
  exact ⟨s, hreach, hrets, callback_contract s hreach⟩

end tun2proxy.core
