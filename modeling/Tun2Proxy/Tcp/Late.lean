import Tun2Proxy.Tcp.Owned

open tun2proxy.machine tun2proxy.machine.Machine

namespace tun2proxy.core

/-- The connection whose pcb the goroutine touches in its next section. -/
def Proc.pcbUser : Proc → Option ConnId
  | .write c .lwip _ _ | .shutdown c _ | .refused c => some c
  | _ => none

/-- `Write`, `CloseWrite` and the connect goroutine enter their section under
    `lwipMutex` only while the connection is not released. They checked the state
    before, but under `conn.Mutex`. -/
def UseAlive (s : Stack) : Act → Prop
  | .write t _ _ | .shutdown t _ | .run t => ∀ c ∈ (s.procs t).pcbUser, ¬(s.conns c).state.released
  | _ => True

instance (s : Stack) : (a : Act) → Decidable (UseAlive s a)
  | .write t _ _ | .shutdown t _ | .run t =>
    inferInstanceAs (Decidable (∀ c ∈ (s.procs t).pcbUser, ¬(s.conns c).state.released))
  | .lwipLock | .lwipUnlock | .accept _ | .acceptDone _ | .recv _ _ | .recvFin _ | .refused _ | .sent _
  | .poll _ | .err _ _ | .tcp _ _ | .task | .call _ _ | .handled _ _ | .pipe _ =>
    inferInstanceAs (Decidable True)

private theorem Proc.conn_of_pcbUser {p : Proc} {c : ConnId} (huser : p.pcbUser = some c) :
    p.conn = some c := by
  unfold Proc.pcbUser at huser
  split at huser <;> first | exact huser | cases huser

namespace TcpPcb

variable {p : TcpPcb}

section
variable (hgone : p.gone = false)
include hgone

/-- The use of a pcb that is still there is not late. -/
theorem use_eq (u : PcbUse) : p.use u = p := by simp [use, hgone]

private theorem abandon_late : p.abandon.late = p.late := by simp [abandon, hgone]

private theorem tcp_close_late : p.tcp_close.late = p.late := by simp [tcp_close, hgone]

private theorem shutdownRx_late : p.shutdownRx.late = p.late := by simp [shutdownRx, hgone]

private theorem shutdownTx_late (finSent : Bool) : (p.shutdownTx finSent).late = p.late := by
  simp only [shutdownTx, hgone, Bool.false_eq_true, if_false]
  split
  · split <;> rfl
  · rfl

private theorem tcp_write_late (data : List UInt8) : (p.tcp_write data).late = p.late := by
  simp [tcp_write, hgone]

end

section
variable (hgone : p.gone = true)
include hgone

private theorem use_late (u : PcbUse) : (p.use u).late = u :: p.late := by simp [use, hgone]

private theorem shutdownTx_late_ne (finSent : Bool) : (p.shutdownTx finSent).late ≠ [] := by
  simp [shutdownTx, hgone, use_late hgone]

private theorem use_tcp_write_late_ne (data : List UInt8) :
    ((p.use .snd_buf).tcp_write data).late ≠ [] := by
  have hgone' : (p.use .snd_buf).gone = true := by rw [use_gone, hgone]
  simp [tcp_write, use_late, hgone]

end

end TcpPcb

section
variable {s s' : Stack} {a : Act} {t : Tid} {c : ConnId} {p' : Proc} {f : TcpPcb → TcpPcb}
  {g : TcpConn → TcpConn} {pcb : TcpPcb}

/-- A section that reads or writes a pcb is one of its users. -/
theorem PcbMove.pcbUser (hmove : PcbMove s t c a (s.procs t) p' f g) :
    (s.procs t).pcbUser = some c := by
  generalize s.procs t = p at hmove
  cases hmove <;> rfl

private theorem PcbMove.alive (hmove : PcbMove s t c a (s.procs t) p' f g) (halive : UseAlive s a) :
    ¬(s.conns c).state.released := by
  have huser := hmove.pcbUser
  generalize hp : s.procs t = p at hmove
  cases hmove <;> exact halive c huser

/-- As long as the pcb is there, no use of it is late. -/
theorem PcbMove.late_eq (hmove : PcbMove s t c a (s.procs t) p' f g) (hgone : pcb.gone = false) :
    (f pcb).late = pcb.late := by
  generalize s.procs t = p at hmove
  cases hmove with
  | noRefused _ | writeFull _ | writeMem _ | writeErr _ _ => simp only [TcpPcb.use_eq hgone]
  | writeLast _ _ | writePart _ _ => simp only [TcpPcb.use_eq hgone, TcpPcb.tcp_write_late hgone]
  | shutdown => exact TcpPcb.shutdownTx_late hgone _

private theorem PcbMove.late_ne (hmove : PcbMove s t c a (s.procs t) p' f g) (hgone : pcb.gone = true) :
    (f pcb).late ≠ [] := by
  generalize s.procs t = p at hmove
  cases hmove with
  | noRefused _ | writeFull _ => simp [TcpPcb.use_late hgone]
  | writeLast _ _ | writePart _ _ => exact TcpPcb.use_tcp_write_late_ne hgone _
  | writeMem _ | writeErr _ _ => simp [TcpPcb.use_late, hgone]
  | shutdown => exact TcpPcb.shutdownTx_late_ne hgone _

end

/-- A step that meets the condition makes no late use. -/
theorem late_step {s s' : Stack} {a : Act} (hreg : Registry s) (htask : TaskInv s)
    (hbounds : Bounds s) (hown : Owned s) (halive : UseAlive s a) (hsec : Section s a s')
    {c : ConnId} (hlate : (s.pcbs c).late = []) : (s'.pcbs c).late = [] := by
  -- a connection that is not released has its pcb
  have hopen (hc : c < s.accepted) (hstate : ¬(s.conns c).state.released) :
      (s.pcbs c).gone = false :=
    hown.not_gone_of_lookup hc ((hown.lookup_iff c hc).mpr hstate)
  have hstep := hsec.pcbs c
  generalize s'.pcbs c = pcb' at hstep
  generalize hpcb : s.pcbs c = pcb at hstep hlate hopen
  cases hstep with
  | same => exact hlate
  | accept _ _ => rfl
  | callback hcb _ _ => cases hcb <;> exact hlate
  | unknown hcb hlive hnone => exact (hown.not_unknown hbounds hnone (.inl hlive)).elim
  | @refused t p hact hproc hrefused =>
    subst hact
    have hgone := hopen (hbounds.procs t c (by rw [hproc]; rfl)) (halive c (by rw [hproc]; rfl))
    simp only [TcpPcb.use_eq hgone]
    exact hlate
  | refusedUnknown hproc hrefused hnone =>
    subst hpcb
    exact (hown.not_unknown hbounds hnone (.inr ⟨_, _, hproc, hrefused⟩)).elim
  | err _ hlive =>
    rw [TcpPcb.abandon_late (hpcb ▸ hlive.2)]
    exact hlate
  | tcp _ => exact hlate
  | @abort k hholder hconn hstage =>
    subst hconn
    have hcause : ReleaseCause s .task k.conn k.conn := .task hholder (hstage.imp_right .inr)
    rw [TcpPcb.abandon_late (hopen (hbounds.task k hholder) (hcause.not_released hreg htask))]
    exact hlate
  | @close k hholder hconn hstage hstate =>
    subst hconn
    rw [TcpPcb.tcp_close_late (hopen (hbounds.task k hholder)
      (by simp [hstate, TcpConnState.released]))]
    exact hlate
  | @recved k n hholder hconn hstage =>
    subst hconn
    have hgoing : ∀ e, k.stage ≠ .ret e := by simp [hstage]
    have hmethod := ((htask k hholder).ofReceive hgoing).mp (by rw [hstage]; rfl)
    have hfound := (htask k hholder).receiveFound hmethod
    rw [TcpPcb.use_eq (hpcb ▸ hown.not_gone_of_lookup (hbounds.task k hholder) hfound)]
    exact hlate
  | retConn _ _ _ => exact hlate
  | @retClsd k p owner hholder hcaller hstage =>
    have hfound := (htask k hholder).receiveFound (by rw [hcaller]; rfl)
    have hgone := hown.not_gone_of_lookup (hbounds.task k hholder) hfound
    rw [hown.tpcb k c hholder (by rw [hcaller]; rfl), hpcb] at hgone
    rw [TcpPcb.use_eq hgone, TcpPcb.shutdownRx_late hgone]
    exact hlate
  | @proc t p' f g hmove =>
    have hc := hbounds.procs t c (Proc.conn_of_pcbUser hmove.pcbUser)
    rw [hmove.late_eq (hopen hc (hmove.alive halive))]
    exact hlate

/-- A step that breaks the condition makes one. -/
theorem late_of_not_useAlive {s s' : Stack} {a : Act} (hbounds : Bounds s) (hown : Owned s)
    (halive : ¬UseAlive s a) (hsec : Section s a s') : ∃ c, (s'.pcbs c).late ≠ [] := by
  have hdead {t : Tid} {c : ConnId} (huser : (s.procs t).pcbUser = some c)
      (hreleased : (s.conns c).state.released) : (s.pcbs c).gone = true :=
    (hown.gone_iff c (hbounds.procs t c (Proc.conn_of_pcbUser huser))).mpr hreleased
  have hcases : ∃ t c, (s.procs t).pcbUser = some c ∧ (s.pcbs c).gone = true ∧
      (a = .run t ∨ (∃ snd_buf res, a = .write t snd_buf res) ∨
        ∃ finSent, a = .shutdown t finSent) := by
    unfold UseAlive at halive
    split at halive
    all_goals simp only [not_forall, not_not, not_true] at halive
    all_goals
      obtain ⟨c, huser, hreleased⟩ := halive
      exact ⟨_, c, huser, hdead huser hreleased, by simp⟩
  obtain ⟨t, c, huser, hgone, hact⟩ := hcases
  cases hsec with
  | @pcb a t' c' p' f g hholder hmove =>
    have ht : t' = t := by
      generalize s.procs t' = p at hmove
      cases hmove <;> simpa using hact
    subst ht
    obtain rfl := Option.some.inj (hmove.pcbUser.symm.trans huser)
    exact ⟨c', by simpa using hmove.late_ne hgone⟩
  | procFound hproc _ hrefused _ | procUnknown hproc _ hrefused _ =>
    -- there is no refused data on a pcb that is gone
    simp only [Act.run.injEq, reduceCtorEq, exists_false, or_false] at hact
    subst hact
    rw [hproc] at huser
    cases huser
    rw [hown.refused c hgone] at hrefused
    cases hrefused
  | @proc a t' p' hmove =>
    generalize hp : s.procs t' = p at hmove
    cases hmove <;> simp only [Act.run.injEq, reduceCtorEq, exists_false, or_false] at hact
    all_goals
      rw [← hact, hp] at huser
      cases huser
  | @conn t' c' p' f hmove =>
    simp only [Act.run.injEq, reduceCtorEq, exists_false, or_false] at hact
    subst hact
    generalize s.procs t' = p at hmove huser
    cases hmove <;> cases huser
  | @abortLwip t' c' hproc hholder =>
    simp only [Act.run.injEq, reduceCtorEq, exists_false, or_false] at hact
    subst hact
    rw [hproc] at huser
    cases huser
  | cbFound hcb _ _ _ => cases hcb <;> simp at hact
  | cbUnknown hcb _ _ _ => cases hcb <;> simp at hact
  | _ => simp at hact

private theorem reach_no_late {s : Stack}
    (h : Reach tcpMachine (fun s a => FreshKey s a ∧ UseAlive s a) s) :
    ∀ c, (s.pcbs c).late = [] := by
  refine Reach.invariant (P := fun s => ∀ c, (s.pcbs c).late = []) (fun _ => rfl) ?_ h
  intro s a s' hreach hlate hok hstep c
  have hany := hreach.mono fun _ _ _ => trivial
  have hown := reach_owned (hreach.mono fun _ _ h => h.1)
  exact late_step (reach_registry hany).1 (reach_registry hany).2 (reach_bounds hany) hown hok.2
    (Stack.step_section hstep) (hlate c)

/-- In every run with fresh keys in which `Write`, `CloseWrite` and the connect
    goroutine reach their section under `lwipMutex` before the connection is
    released, no pcb is used after it is gone; and the first of their sections
    that comes later is such a use. -/
theorem no_late_use (s : Stack) (h : Reach tcpMachine (fun s a => FreshKey s a ∧ UseAlive s a) s) :
    (∀ c, (s.pcbs c).late = []) ∧
    ∀ a s', FreshKey s a → s.step a = some s' → ((∀ c, (s'.pcbs c).late = []) ↔ UseAlive s a) := by
  have hany := h.mono fun _ _ _ => trivial
  have hown := reach_owned (h.mono fun _ _ h => h.1)
  refine ⟨reach_no_late h, ?_⟩
  intro a s' hfresh hstep
  have hsec := Stack.step_section hstep
  constructor
  · intro hlate
    by_contra halive
    obtain ⟨c, hc⟩ := late_of_not_useAlive (reach_bounds hany) hown halive hsec
    exact hc (hlate c)
  · intro halive c
    exact late_step (reach_registry hany).1 (reach_registry hany).2 (reach_bounds hany) hown halive
      hsec (reach_no_late h c)

/-- A handler writes one byte while the connection is being set up. -/
theorem no_late_use_write : ∃ s, Reach tcpMachine (fun s a => FreshKey s a ∧ UseAlive s a) s ∧
    s.procs 1 = .wrote 0 1 none ∧ (s.pcbs 0).late = [] := by
  obtain ⟨s, hreach, hproc⟩ := exists_reach_of_run tcpMachine
    (fun s a => FreshKey s a ∧ UseAlive s a)
    [.lwipLock, .accept 7, .acceptDone 0, .lwipUnlock, .call 1 (.write 0 [1]), .run 1, .run 1,
      .write 1 100 .ERR_OK]
    (fun s => s.procs 1 = .wrote 0 1 none) (by decide)
  exact ⟨s, hreach, hproc, (no_late_use s hreach).1 0⟩

/-- A reset that comes between the two locks: `Write` reads `snd_buf` and calls
    `tcp_write` and `tcp_output`, `CloseWrite` calls `tcp_shutdown` and the connect
    goroutine reads `refused_data`, each on a pcb that lwIP has freed. -/
theorem late_use_after_reset :
    (∃ s, Reach tcpMachine FreshKey s ∧ (s.pcbs 0).late = [.tcp_output, .tcp_write, .snd_buf]) ∧
    (∃ s, Reach tcpMachine FreshKey s ∧ (s.pcbs 0).late = [.tcp_shutdown]) ∧
    (∃ s, Reach tcpMachine FreshKey s ∧ (s.pcbs 0).late = [.refused_data]) := by
  refine ⟨?_, ?_, ?_⟩
  · exact exists_reach_of_run tcpMachine FreshKey
      [.lwipLock, .accept 7, .acceptDone 0, .lwipUnlock, .call 1 (.write 0 [1]), .run 1, .run 1,
        .lwipLock, .err 0 .ERR_RST, .lwipUnlock, .write 1 100 .ERR_OK]
      (fun s => (s.pcbs 0).late = [.tcp_output, .tcp_write, .snd_buf]) (by decide)
  · exact exists_reach_of_run tcpMachine FreshKey
      [.lwipLock, .accept 7, .acceptDone 0, .lwipUnlock, .call 1 (.closeWrite 0), .run 1, .lwipLock,
        .err 0 .ERR_RST, .lwipUnlock, .shutdown 1 true]
      (fun s => (s.pcbs 0).late = [.tcp_shutdown]) (by decide)
  · exact exists_reach_of_run tcpMachine FreshKey
      [.lwipLock, .accept 7, .acceptDone 0, .lwipUnlock, .handled 0 true, .run 0, .lwipLock,
        .err 0 .ERR_RST, .lwipUnlock, .run 0]
      (fun s => (s.pcbs 0).late = [.refused_data]) (by decide)

end tun2proxy.core
