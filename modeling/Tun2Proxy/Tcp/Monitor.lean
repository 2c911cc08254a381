import Tun2Proxy.Tcp.Handler

open tun2proxy.machine tun2proxy.machine.Machine

namespace tun2proxy.core

/-- A `Write` that is past its `Lock` and not in `Wait` holds `canWrite.L`. -/
def HeldInv (s : Stack) : Prop :=
  ∀ c t, (s.procs t).locks c → (s.conns c).canWriteL = some t

/-! ### How the lock is taken and given back -/

section
variable {s : Stack} {a : Act} {t : Tid} {c c' : ConnId} {p p' : Proc}

/-- A `Broadcast` gives the lock to nobody. -/
theorem Proc.locks_of_wake (h : (p.wake c').locks c) : p.locks c := by
  unfold Proc.wake at h
  split at h
  · obtain ⟨-, hpos⟩ := h
    split at hpos <;> simp at hpos
  · exact h

/-- Sections that only move on take no lock. -/
theorem ProcMove.locks (hmove : ProcMove s t a p p') (h : p'.locks c) : p.locks c := by
  cases hmove with
  | @call op _ _ =>
    cases op with
    | write c' data =>
      obtain ⟨-, hpos⟩ := h
      simp at hpos
    | _ => exact h.elim
  | writeCheck _ => exact ⟨h.1, .inl rfl⟩
  | _ => exact h.elim

/-- `Lock` sets the holder. -/
theorem ConnMove.taken {f : TcpConn → TcpConn} (hmove : ConnMove s t c p p' f) (h : p'.locks c') :
    c' = c ∧ (f (s.conns c)).canWriteL = some t := by
  cases hmove with
  | writeLock _ | writeWoken _ => exact ⟨h.1.symm, rfl⟩
  | writeWait =>
    obtain ⟨-, hpos⟩ := h
    simp at hpos
  | _ => exact h.elim

/-- `Lock` waits for a free lock, and `Unlock` is called by the holder. -/
theorem ConnMove.canWriteL {f : TcpConn → TcpConn} (hmove : ConnMove s t c p p' f) :
    (f (s.conns c)).canWriteL = (s.conns c).canWriteL ∨ (s.conns c).canWriteL = none ∨ p.locks c := by
  cases hmove with
  | writeLock hfree | writeWoken hfree => exact .inr (.inl hfree)
  | writeAll | writeRefused _ => exact .inr (.inr ⟨rfl, .inl rfl⟩)
  | writeWait => exact .inr (.inr ⟨rfl, .inr (.inr rfl)⟩)
  | _ => exact .inl rfl

/-- Under `lwipMutex` nobody takes a lock. -/
theorem PcbMove.locks {f : TcpPcb → TcpPcb} {g : TcpConn → TcpConn}
    (hmove : PcbMove s t c a p p' f g) (h : p'.locks c') :
    p.locks c' ∧ (g (s.conns c)).canWriteL = (s.conns c).canWriteL := by
  cases hmove with
  | writeFull _ | writePart _ _ | writeMem _ => exact ⟨⟨h.1, .inr (.inl rfl)⟩, rfl⟩
  | _ => exact h.elim

theorem PcbMove.canWriteL {f : TcpPcb → TcpPcb} {g : TcpConn → TcpConn}
    (hmove : PcbMove s t c a p p' f g) :
    (g (s.conns c)).canWriteL = (s.conns c).canWriteL ∨ p.locks c := by
  cases hmove with
  | writeLast _ _ | writeErr _ _ => exact .inr ⟨rfl, .inr (.inl rfl)⟩
  | _ => exact .inl rfl

/-- A goroutine outside `Write` moves. -/
theorem Proc.locks_of_update {procs : Tid → Proc} {t' : Tid} (hnot : ¬p'.locks c)
    (h : (Function.update procs t' p' t).locks c) : (procs t).locks c := by
  rw [Function.update_apply] at h
  split at h
  · exact absurd h hnot
  · exact h

end

namespace HeldInv

variable {s s' : Stack} {c : ConnId} {t : Tid}

/-- No lock is taken or given back. -/
theorem of_eq (hinv : HeldInv s) (hprocs : (s'.procs t).locks c → (s.procs t).locks c)
    (hlock : (s'.conns c).canWriteL = (s.conns c).canWriteL) (h : (s'.procs t).locks c) :
    (s'.conns c).canWriteL = some t := by
  rw [hlock]
  exact hinv c t (hprocs h)

/-- The goroutine that gives back a lock is the one that holds it. -/
theorem kept {t' : Tid} {lock : Option Tid} (hinv : HeldInv s) (h : (s.procs t).locks c) (hne : t ≠ t')
    (hlock : lock = (s.conns c).canWriteL ∨ (s.conns c).canWriteL = none ∨ (s.procs t').locks c) :
    lock = some t := by
  have hheld := hinv c t h
  obtain heq | hfree | hother := hlock
  · rw [heq, hheld]
  · rw [hfree] at hheld
    cases hheld
  · have hheld' := hinv c t' hother
    rw [hheld] at hheld'
    exact absurd (Option.some.inj hheld') hne

theorem conn_step {t' : Tid} {c' : ConnId} {p' : Proc} {f : TcpConn → TcpConn} (hinv : HeldInv s)
    (hmove : ConnMove s t' c' (s.procs t') p' f)
    (h : (Function.update s.procs t' p' t).locks c) : ((s.modConn c' f).conns c).canWriteL = some t := by
  rw [Stack.modConn_conns]
  by_cases ht : t = t'
  · subst ht
    rw [Function.update_self] at h
    obtain ⟨rfl, htaken⟩ := hmove.taken h
    rw [if_pos rfl]
    exact htaken
  · rw [Function.update_of_ne ht] at h
    split
    · rename_i heq
      subst heq
      exact hinv.kept h ht hmove.canWriteL
    · exact hinv c t h

theorem pcb_step {a : Act} {t' : Tid} {c' : ConnId} {p' : Proc} {f : TcpPcb → TcpPcb}
    {g : TcpConn → TcpConn} (hinv : HeldInv s) (hmove : PcbMove s t' c' a (s.procs t') p' f g)
    (h : (Function.update s.procs t' p' t).locks c) : ((s.modConn c' g).conns c).canWriteL = some t := by
  rw [Stack.modConn_conns]
  by_cases ht : t = t'
  · subst ht
    rw [Function.update_self] at h
    obtain ⟨hlocks, hsame⟩ := hmove.locks h
    split
    · rename_i heq
      subst heq
      rw [hsame]
      exact hinv c t hlocks
    · exact hinv c t hlocks
  · rw [Function.update_of_ne ht] at h
    split
    · rename_i heq
      subst heq
      exact hinv.kept h ht (hmove.canWriteL.imp_right .inr)
    · exact hinv c t h

theorem step {a : Act} (hbounds : Bounds s) (hinv : HeldInv s) (hsec : Section s a s') : HeldInv s' := by
  intro c t h
  cases hsec with
  | @proc _ t' p' hmove =>
    have hlocks : (s.procs t).locks c := by
      by_cases ht : t = t'
      · subst ht
        simp only [Stack.setProc_procs, if_true] at h
        exact hmove.locks h
      · simpa [ht] using h
    exact hinv c t hlocks
  | conn hmove => exact hinv.conn_step hmove h
  | pcb _ hmove => exact hinv.pcb_step hmove h
  | procUnlock _ => exact hinv c t (Proc.locks_of_update id h)
  | accept _ =>
    -- nobody works on the new connection
    have hlt : c < s.accepted := hbounds.procs t c (Proc.conn_of_locks h)
    simp only [Function.update_of_ne (Nat.ne_of_lt hlt)]
    exact hinv c t h
  | @acceptDone t' c' _ _ _ =>
    refine hinv.of_eq (Proc.locks_of_update id) ?_ h
    simp only [Stack.setHolder_conns, Stack.setProc_conns, Stack.modConn_conns]
    split <;> simp_all
  | procFound _ _ _ _ | procUnknown _ _ _ _ | abortLwip _ _ => exact hinv c t (Proc.locks_of_update id h)
  | errFound _ _ _ =>
    refine hinv.of_eq Proc.locks_of_wake ?_ h
    rw [Stack.Err_conns]
    split <;> simp_all
  | receiveErrored _ _ _ | aborting _ _ _ =>
    rw [Stack.abortInternal_eq] at h ⊢
    exact hinv.of_eq id (s.release_canWriteL _ c) h
  | closing _ _ _ => exact hinv.of_eq id (s.release_canWriteL _ c) h
  | @localClosed k _ _ =>
    obtain ⟨hsame, -⟩ | ⟨hclosed, -⟩ := s.setLocalClosed_cases k.conn
    · rw [hsame] at h ⊢
      exact hinv c t h
    · rw [hclosed] at h ⊢
      refine hinv.of_eq Proc.locks_of_wake ?_ h
      simp only [Stack.goto_conns, Stack.broadcast_conns, Stack.modConn_conns]
      split <;> simp_all
  | broadcast _ _ => exact hinv c t (Proc.locks_of_wake h)
  | @ret k e _ _ =>
    rw [Stack.methodRet_conns]
    obtain hsame | ⟨t', -, hprocs⟩ := s.methodRet_procs k e
    · rw [hsame] at h
      exact hinv c t h
    · rw [hprocs] at h
      exact hinv c t (Proc.locks_of_update id h)
  | @pipe t' k _ _ _ _ _ _ _ _ =>
    refine hinv.of_eq (Proc.locks_of_update id) ?_ h
    simp only [Stack.goto_conns, Stack.record_conns, Stack.setProc_conns, Stack.modConn_conns]
    split <;> simp_all
  | _ => exact hinv c t h

end HeldInv

private theorem reach_held {s : Stack} (h : Reach tcpMachine any s) : HeldInv s := by
  refine Reach.invariant (fun _ _ hlocks => hlocks.elim) ?_ h
  intro s a s' hreach hinv _ hstep
  exact hinv.step (reach_bounds hreach) (Stack.step_section hstep)

/-- `canWrite.L` excludes: of the `Write`s on a connection, one at most is past its `Lock` and not
    in `Wait`. -/
theorem reach_locks_one {s : Stack} (h : Reach tcpMachine any s) {t t' : Tid} {c : ConnId}
    (ht : (s.procs t).locks c) (ht' : (s.procs t').locks c) : t = t' := by
  have hheld := reach_held h c t ht
  rw [reach_held h c t' ht'] at hheld
  exact (Option.some.inj hheld).symm

/-- A `Write` that asks for the lock has written nothing yet. -/
theorem reach_lock_zero {s : Stack} (h : Reach tcpMachine any s) :
    ∀ t c data n, s.procs t = .write c .lock data n → n = 0 := by
  refine Reach.invariant (P := fun s => ∀ t c data n, s.procs t = .write c .lock data n → n = 0)
    (by simp [tcpMachine, Stack.init]) ?_ h
  intro s a s' _ hinv _ hstep t c data n hproc'
  have hmove := (Stack.step_section hstep).procs t
  generalize hproc : s.procs t = p at hmove
  generalize s'.procs t = p' at hmove hproc'
  cases hmove with
  | same => exact hinv t c data n (hproc.trans hproc')
  | woken c' =>
    unfold Proc.wake at hproc'
    split at hproc'
    · simp only [Proc.write.injEq] at hproc'
      split at hproc' <;> simp at hproc'
    · exact hinv t c data n (hproc.trans hproc')
  | own hown =>
    cases hown with
    | proc hmove =>
      cases hmove with
      | @call op _ _ =>
        cases op with
        | write c' data' =>
          cases hproc'
          rfl
        | _ => cases hproc'
      | _ => cases hproc'
    | conn _ hmove _ => cases hmove <;> cases hproc'
    | pcb _ hmove => cases hmove <;> cases hproc'
    | _ => cases hproc'

end tun2proxy.core
