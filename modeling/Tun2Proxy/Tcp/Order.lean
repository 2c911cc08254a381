import Tun2Proxy.Tcp.Leak
import Tun2Proxy.Tcp.Eof

open tun2proxy.machine tun2proxy.machine.Machine

namespace tun2proxy.core

/-- The section of the package that a step with lwIP's input path runs, if it runs one. -/
inductive Runs (s : Net) : NetAct → Act → Prop where
  | go {b : Act} (hgo : b.ofGo = true) : Runs s (.go b) b
  | closePend {c : ConnId} :
      Runs s (.closePend c) (.tcp c { (s.stack.pcbs c).tcb with
        closePend := false, state := (s.stack.pcbs c).tcb.state.fin })
  | poll {c : ConnId} : Runs s (.poll c) (.poll c)
  | remove {c : ConnId} : Runs s (.remove c) (.err c .ERR_ABRT)
  | expire {c : ConnId} : Runs s (.expire c) (.tcp c { (s.stack.pcbs c).tcb with freed := true })
  | input {b : Act} {pos : InputAt}
      (hmove : InputMove (s.stack.pcbs s.tpcb) s.tpcb s.pos (some b) pos) : Runs s .input b

/-- The sections that a step runs satisfy `ok`. -/
def OnStack (ok : Stack → Act → Prop) (s : Net) (a : NetAct) : Prop := ∀ b, Runs s a b → ok s.stack b

/-- A step of the stack with the input path is one of the stack, or none. -/
theorem NetMove.runs {s s' : Net} {a : NetAct} (hmove : NetMove s a s') :
    s'.stack = s.stack ∨ ∃ b, Runs s a b ∧ s.stack.step b = some s'.stack := by
  cases hmove with
  | segment _ _ _ | offer _ _ _ | ended _ _ => exact .inl rfl
  | closePend _ _ _ hstep => exact .inr ⟨_, .closePend, hstep⟩
  | poll _ _ hstep => exact .inr ⟨_, .poll, hstep⟩
  | remove _ _ hstep => exact .inr ⟨_, .remove, hstep⟩
  | expire _ _ hstep => exact .inr ⟨_, .expire, hstep⟩
  | take _ _ hstep => exact .inr ⟨_, .go rfl, hstep⟩
  | go hgo _ _ hstep => exact .inr ⟨_, .go hgo, hstep⟩
  | input _ _ hmove hmay =>
    cases hmay with
    | none => exact .inl rfl
    | some hstep => exact .inr ⟨_, .input hmove, hstep⟩

/-- What a run with lwIP's input path keeps to, its sections keep to. -/
theorem reach_onStack {ok : Stack → Act → Prop} {s : Net} (h : Reach netMachine (OnStack ok) s) :
    Reach tcpMachine ok s.stack := by
  apply h.invariant (P := fun s => Reach tcpMachine ok s.stack)
  · exact .init
  · intro s a s' _ ih hok hstep
    obtain hsame | ⟨b, hruns, hstack⟩ := (Net.step_move hstep).runs
    · rw [hsame]
      exact ih
    · exact ih.step (hok b hruns) hstack

/-! ### A pcb that has received the FIN receives no more -/

/-- A state that takes no data takes none after a FIN. -/
theorem TcpState.receives_fin {st : TcpState} (h : st.receives = false) : st.fin.receives = false := by
  cases st <;> first | rfl | cases h

private theorem TcpState.receives_process {st : TcpState} {seg : Segment} :
    ((st.tcp_process seg).2.fin = true → (st.tcp_process seg).1.receives = false) ∧
      (st.receives = false → (st.tcp_process seg).1.receives = false) := by
  cases st with
  | ESTABLISHED => cases hfin : seg.fin <;> simp [tcp_process, tcp_receive, receives, hfin]
  | FIN_WAIT_1 =>
    cases hfin : seg.fin <;> cases hall : seg.ackAll <;>
      simp [tcp_process, tcp_receive, receives, hfin, hall]
  | FIN_WAIT_2 => cases hfin : seg.fin <;> simp [tcp_process, tcp_receive, receives, hfin]
  | CLOSING => cases hall : seg.ackAll <;> simp [tcp_process, tcp_receive, receives, hall]
  | CLOSE_WAIT | LAST_ACK | TIME_WAIT => simp [tcp_process, tcp_receive, receives]

/-- In a state that receives, data and FIN go to the callback. -/
theorem TcpState.process_of_receives {st : TcpState} (h : st.receives = true) (seg : Segment) :
    (st.tcp_process seg).2.data = seg.data ∧ (st.tcp_process seg).2.fin = seg.fin := by
  rw [tcp_process_received (by rintro rfl; cases h), tcp_receive, h]
  exact ⟨rfl, Bool.true_and _⟩

/-- In any other state, nothing does. -/
theorem TcpState.process_of_not_receives {st : TcpState} (h : st.receives = false) (seg : Segment) :
    (st.tcp_process seg).2.data = none ∧ (st.tcp_process seg).2.fin = false := by
  by_cases hst : st = .TIME_WAIT
  · subst hst
    exact ⟨rfl, rfl⟩
  · rw [tcp_process_received hst, tcp_receive, h]
    exact ⟨rfl, Bool.false_and seg.fin⟩

/-- What Go and the callbacks leave of a pcb: it receives no more than before, and it is
    freed only when it is gone. -/
structure Worn (pcb pcb' : TcpPcb) : Prop where
  receives : pcb.tcb.state.receives = false → pcb'.tcb.state.receives = false
  refusedFin : pcb'.tcb.refusedFin = pcb.tcb.refusedFin
  gone : pcb.gone = true → pcb'.gone = true
  freed : pcb.tcb.freed = true → pcb'.tcb.freed = true
  freed_gone : pcb'.tcb.freed = true → pcb.tcb.freed = true ∨ pcb'.gone = true

namespace Worn

variable {pcb pcb' pcb'' : TcpPcb}

private theorem of_tcb (htcb : pcb'.tcb = pcb.tcb) (hgone : pcb'.gone = pcb.gone) : Worn pcb pcb' where
  receives h := by rwa [htcb]
  refusedFin := by rw [htcb]
  gone h := by rwa [hgone]
  freed h := by rwa [htcb]
  freed_gone h := .inl (by rwa [htcb] at h)

theorem trans (h : Worn pcb pcb') (h' : Worn pcb' pcb'') : Worn pcb pcb'' where
  receives hrcv := h'.receives (h.receives hrcv)
  refusedFin := h'.refusedFin.trans h.refusedFin
  gone hgone := h'.gone (h.gone hgone)
  freed hfreed := h'.freed (h.freed hfreed)
  freed_gone hfreed := by
    obtain hfreed | hgone := h'.freed_gone hfreed
    · exact (h.freed_gone hfreed).imp_right h'.gone
    · exact .inr hgone

theorem use (u : PcbUse) : Worn pcb (pcb.use u) := of_tcb (by simp) (by simp)

theorem tcp_write (data : List UInt8) : Worn pcb (pcb.tcp_write data) := of_tcb (by simp) (by simp)

theorem abandon : Worn pcb pcb.abandon := by
  by_cases hgone : pcb.gone = true
  · rw [TcpPcb.abandon, if_pos hgone]
    exact use _
  · rw [TcpPcb.abandon, if_neg hgone]
    exact ⟨id, rfl, fun _ => rfl, fun _ => rfl, fun _ => .inr rfl⟩

theorem tcp_close : Worn pcb pcb.tcp_close := by
  by_cases hgone : pcb.gone = true
  · rw [TcpPcb.tcp_close, if_pos hgone]
    exact use _
  · rw [TcpPcb.tcp_close, if_neg hgone]
    exact ⟨TcpState.receives_fin, rfl, fun _ => rfl, id, .inl⟩

theorem shutdownRx : Worn pcb pcb.shutdownRx := by
  by_cases hgone : pcb.gone = true
  · rw [TcpPcb.shutdownRx, if_pos hgone]
    exact use _
  · rw [TcpPcb.shutdownRx, if_neg hgone]
    exact ⟨id, rfl, id, id, .inl⟩

theorem shutdownTx (finSent : Bool) : Worn pcb (pcb.shutdownTx finSent) := by
  by_cases hgone : pcb.gone = true
  · rw [TcpPcb.shutdownTx, if_pos hgone]
    exact use _
  · obtain hsame | hstate | hpend := TcpPcb.shutdownTx_cases (Bool.eq_false_iff.mpr hgone) finSent
    · exact of_tcb hsame (by simp)
    · refine ⟨fun h => ?_, by rw [hstate], by simp, by rw [hstate]; exact id, fun h => ?_⟩
      · rw [hstate]
        exact TcpState.receives_fin h
      · rw [hstate] at h
        exact .inl h
    · refine ⟨by rw [hpend]; exact id, by rw [hpend], by simp, by rw [hpend]; exact id, fun h => ?_⟩
      rw [hpend] at h
      exact .inl h

end Worn

theorem CbStart.worn {pcb : TcpPcb} {c : ConnId} {owner : Option Tid} {a : Act} {caller : Caller}
    {stage : Stage} {f : TcpPcb → TcpPcb} (hcb : CbStart pcb c owner a caller stage f) :
    Worn pcb (f pcb) := by
  cases hcb <;> exact .of_tcb rfl rfl

theorem PcbStep.worn {s : Stack} {a : Act} {c : ConnId} {pcb pcb' : TcpPcb}
    (hstep : PcbStep s a c pcb pcb') (hold : ∀ key, a = .accept key → c ≠ s.accepted)
    (hact : ∀ tcb, a ≠ .tcp c tcb) : Worn pcb pcb' := by
  have htake {p : TcpPcb} : Worn p p.takeRefused := .of_tcb rfl rfl
  cases hstep with
  | same => exact .of_tcb rfl rfl
  | accept hkey hc => exact absurd hc (hold _ hkey)
  | callback hcb _ _ => exact hcb.worn
  | unknown hcb _ _ => exact hcb.worn.trans .abandon
  | refused _ _ _ _ => exact ((Worn.use _).trans (.use _)).trans htake
  | refusedUnknown _ _ _ => exact (((Worn.use _).trans (.use _)).trans htake).trans .abandon
  | err _ _ | abort _ _ _ => exact .abandon
  | tcp heq => exact absurd heq (hact _)
  | close _ _ _ _ => exact .tcp_close
  | recved _ _ _ => exact .use _
  | retConn _ _ _ _ => exact .of_tcb rfl rfl
  | retClsd _ _ _ _ => exact (Worn.use _).trans .shutdownRx
  | @proc t p' f g hmove =>
    generalize s.procs t = p at hmove
    cases hmove with
    | shutdown => exact .shutdownTx _
    | writeLast _ _ | writePart _ _ => exact (Worn.use _).trans (.tcp_write _)
    | writeMem _ | writeErr _ _ => exact (Worn.use _).trans (.use _)
    | noRefused _ | writeFull _ => exact .use _

/-! ### lwIP keeps the order of data and FIN -/

/-- What holds of the pcb of `c` before `tcp_input` hands data or the FIN over. -/
def Offered (s : Stack) (c : ConnId) : InputAt → Prop
  | .refusedFin _ => (s.pcbs c).refused_data = none
  | .process seg => (s.pcbs c).refused_data = none ∨ seg.tcplen = 0
  | .sent r | .delayedClose r | .data r => r.data.isSome = true →
      (s.pcbs c).refused_data = none ∧ (s.pcbs c).finReported = false
  | _ => True

/-- The FIN was received: it is reported, kept with refused data, or on its way. -/
def FinReceived (s : Stack) (c : ConnId) (pos : InputAt) : Prop :=
  (s.pcbs c).finReported = true ∨ (s.pcbs c).tcb.refusedFin = true ∨ pos.hasFin = true

/-- Data is handed over before the FIN and after refused data. -/
structure Orderly (s : Stack) (c : ConnId) (pos : InputAt) : Prop where
  receive : ∀ k, s.holder = .task k → k.caller.tpcb = some c → k.caller.method = .Receive →
    pos.receiving = true
  offered : Offered s c pos
  fin : FinReceived s c pos → (s.pcbs c).tcb.state.receives = false

/-- A `Receive` that lwIP itself starts. -/
theorem Section.callback_receive {s s' : Stack} {b : Act} {c : ConnId} {owner : Option Tid}
    (hsec : Section s b s') (hholder : s.holder = .lwip owner) {k' : Task} (hk' : s'.holder = .task k')
    (htpcb : k'.caller.tpcb = some c) (hmethod : k'.caller.method = .Receive) :
    (∃ p, b = .recv c p) ∨ b = .refused c := by
  have hnot {h : Holder} (hh : s.holder = h) (hne : ∀ owner, h ≠ .lwip owner) : False :=
    hne owner (hh.symm.trans hholder)
  cases hsec with
  | cbFound hcb _ _ _ =>
    cases hk'
    cases hcb.tpcb.symm.trans htpcb
    cases hcb with
    | recv p => exact .inl ⟨p, rfl⟩
    | refused _ => exact .inr rfl
    | recvFin | sent | poll => cases hmethod
  | errFound _ _ _ | errUnknown _ _ _ | tcp _ | proc _ | conn _ => cases hholder.symm.trans hk'
  | lwipLock hh | procFound _ hh _ _ | procUnknown _ hh _ _ | pcb hh _ | abortLwip _ hh | task hh _
  | receiveErrored hh _ _ | recved hh _ | localClosed hh _ | closing hh _ _ | aborting hh _ _ | broadcast hh _
  | ret hh _ | pipe hh _ _ _ | acceptDone hh _ => exact (hnot hh (by simp)).elim
  | lwipUnlock _ | procUnlock _ | accept _ | cbUnknown _ _ _ _ => cases hk'

/-- Without a `Receive` on `c` its pcb keeps what it needs for data to be handed over. -/
theorem Section.offers {s s' : Stack} {b : Act} {c : ConnId} (hsec : Section s b s')
    (hold : ∀ key, b = .accept key → c ≠ s.accepted)
    (hquiet : ∀ k, s.holder = .task k → k.caller.tpcb = some c → k.caller.method ≠ .Receive) :
    ((s.pcbs c).refused_data = none → (s'.pcbs c).refused_data = none) ∧
      (b ≠ .recvFin c → (s.pcbs c).finReported = false → (s'.pcbs c).finReported = false) := by
  have hstep := hsec.pcbs c
  refine ⟨fun hnone => hstep.refused_data hnone hquiet, fun hnot hfin => ?_⟩
  obtain hsame | ⟨hact, -⟩ := hstep.finReported hold
  · rw [hsame, hfin]
  · exact absurd hact hnot

theorem Offered.keep {s s' : Stack} {c : ConnId} {pos : InputAt} (h : Offered s c pos)
    (hrefused : pos.receiving = false → (s.pcbs c).refused_data = none → (s'.pcbs c).refused_data = none)
    (hfin : pos.receiving = false → (s.pcbs c).finReported = false → (s'.pcbs c).finReported = false) :
    Offered s' c pos := by
  cases pos with
  | idle | refused _ | refusedRet _ _ | fin _ => trivial
  | refusedFin _ => exact hrefused rfl h
  | process _ => exact h.imp_left (hrefused rfl)
  | sent r | delayedClose r | data r =>
    intro hdata
    exact ⟨hrefused rfl (h hdata).1, hfin rfl (h hdata).2⟩

namespace Orderly

variable {s s' : Stack} {c : ConnId} {pos pos' : InputAt} {b : Act}

theorem init : Orderly Stack.init c .idle where
  receive k hk := by cases hk
  offered := trivial
  fin h := by
    obtain h | h | h := h <;> cases h

/-- `tcp_input` is done with the pcb, or works on another one. -/
theorem idle (hinv : Orderly s c pos) (hnot : ∀ k, s.holder ≠ .task k) : Orderly s c .idle where
  receive k hk := absurd hk (hnot k)
  offered := trivial
  fin h := by
    apply hinv.fin
    obtain h | h | h := h
    · exact .inl h
    · exact .inr (.inl h)
    · cases h

/-- A section that changes neither the pcb's state by hand nor begins a connection. -/
theorem step (hinv : Orderly s c pos) (hsec : Section s b s')
    (hold : ∀ key, b = .accept key → c ≠ s.accepted)
    (htcp : ∀ tcb, b ≠ .tcp c tcb)
    (hreceive : ∀ k', s'.holder = .task k' → k'.caller.tpcb = some c → k'.caller.method = .Receive →
      pos'.receiving = true)
    (hoffered : Offered s' c pos')
    (hfin : b = .recvFin c ∨ pos'.hasFin = true → (s.pcbs c).tcb.state.receives = false) :
    Orderly s' c pos' where
  receive := hreceive
  offered := hoffered
  fin h := by
    have hstep := hsec.pcbs c
    have hworn := hstep.worn hold htcp
    apply hworn.receives
    obtain h | h | h := h
    · obtain hsame | ⟨hact, -⟩ := hstep.finReported hold
      · exact hinv.fin (.inl (hsame ▸ h))
      · exact hfin (.inl hact)
    · exact hinv.fin (.inr (.inl (hworn.refusedFin ▸ h)))
    · exact hfin (.inr h)

/-- A section of Go, with `tcp_input` where it was. -/
theorem go (hinv : Orderly s c pos) (hsec : Section s b s') (hgo : b.ofGo = true)
    (hbetween : b.between = true → pos = .idle)
    (hnot : ∀ t p, b = .run t → s.procs t = .refused c → (s.pcbs c).refused_data ≠ some p) :
    Orderly s' c pos := by
  have hreceive (k' : Task) (hk' : s'.holder = .task k') (htpcb : k'.caller.tpcb = some c)
      (hmethod : k'.caller.method = .Receive) : pos.receiving = true := by
    cases hsec.goTask hgo hk' htpcb with
    | going k hholder hcaller _ _ =>
      rw [hcaller] at htpcb hmethod
      exact hinv.receive k hholder htpcb hmethod
    | take t p hact hproc _ hrefused _ _ _ => exact absurd hrefused (hnot t p hact hproc)
  have hquiet (hpos : pos.receiving = false) (k : Task) (hk : s.holder = .task k)
      (htpcb : k.caller.tpcb = some c) : k.caller.method ≠ .Receive := by
    intro hmethod
    rw [hinv.receive k hk htpcb hmethod] at hpos
    cases hpos
  by_cases hnew : ∃ key, b = .accept key ∧ c = s.accepted
  · obtain ⟨key, rfl, rfl⟩ := hnew
    obtain ⟨owner, -, rfl⟩ := hsec.accept_eq
    rw [hbetween rfl] at hreceive ⊢
    refine ⟨hreceive, trivial, fun h => ?_⟩
    rw [FinReceived] at h
    dsimp only at h
    rw [Function.update_self] at h
    obtain h | h | h := h <;> cases h
  · have hold (key : UInt32) (hkey : b = .accept key) : c ≠ s.accepted := fun hc => hnew ⟨key, hkey, hc⟩
    apply hinv.step hsec hold (by rintro tcb rfl; cases hgo) hreceive
    · apply hinv.offered.keep
      · exact fun hpos => (hsec.offers hold (hquiet hpos)).1
      · exact fun hpos => (hsec.offers hold (hquiet hpos)).2 (by rintro rfl; cases hgo)
    · rintro (rfl | hfin)
      · cases hgo
      · exact hinv.fin (.inr (.inr hfin))

/-- A section of lwIP on the pcb of `c` other than a change of its state by hand. -/
theorem callback (hinv : Orderly s c pos) (hsec : Section s b s') {owner : Option Tid}
    (hholder : s.holder = .lwip owner) (hbetween : b.between = false) (htcp : ∀ tcb, b ≠ .tcp c tcb)
    (hreceive : (∃ p, b = .recv c p) ∨ b = .refused c → pos'.receiving = true)
    (hoffered : Offered s c pos')
    (hfin : b = .recvFin c → Offered s' c pos')
    (hhas : b = .recvFin c ∨ pos'.hasFin = true → (s.pcbs c).tcb.state.receives = false) :
    Orderly s' c pos' := by
  have hold (key : UInt32) (hkey : b = .accept key) : c ≠ s.accepted := by
    subst hkey
    cases hbetween
  have hquiet (k : Task) (hk : s.holder = .task k) : k.caller.tpcb = some c → k.caller.method ≠ .Receive :=
    by cases hholder.symm.trans hk
  apply hinv.step hsec hold htcp
  · exact fun k' hk' htpcb hmethod => hreceive (hsec.callback_receive hholder hk' htpcb hmethod)
  · by_cases hact : b = .recvFin c
    · exact hfin hact
    · apply hoffered.keep
      · exact fun _ => (hsec.offers hold hquiet).1
      · exact fun _ => (hsec.offers hold hquiet).2 hact
  · exact hhas

/-- lwIP changes the state by hand. -/
theorem of_tcp {tcb : Tcb} (hsec : Section s (.tcp c tcb) s')
    (hnot : ∀ k, s.holder ≠ .task k) (hoffered : Offered s c pos')
    (hfin : (s.pcbs c).finReported = true ∨ tcb.refusedFin = true ∨ pos'.hasFin = true →
      tcb.state.receives = false) : Orderly s' c pos' := by
  cases hsec.tcp_eq
  refine ⟨fun k hk => absurd hk (hnot k), ?_, ?_⟩
  · apply hoffered.keep
    · intro _ h
      rw [Stack.modPcb_pcbs, if_pos rfl]
      exact h
    · intro _ h
      rw [Stack.modPcb_pcbs, if_pos rfl]
      exact h
  · intro h
    rw [FinReceived, Stack.modPcb_pcbs, if_pos rfl] at h
    rw [Stack.modPcb_pcbs, if_pos rfl]
    exact hfin h

/-- `tcp_input` goes on without a section of the package. -/
theorem onward (hinv : Orderly s c pos) (hnot : ∀ k, s.holder ≠ .task k) (hoffered : Offered s c pos')
    (hfin : pos'.hasFin = true → (s.pcbs c).tcb.state.receives = false) : Orderly s c pos' where
  receive k hk := absurd hk (hnot k)
  offered := hoffered
  fin h := by
    obtain h | h | h := h
    · exact hinv.fin (.inl h)
    · exact hinv.fin (.inr (.inl h))
    · exact hfin h

/-- How `tcp_input` goes on. -/
theorem input {act : Option Act} {owner : Option Tid} (hinv : Orderly s c pos)
    (hholder : s.holder = .lwip owner) (hmove : InputMove (s.pcbs c) c pos act pos')
    (hmay : MayStep s act s') : Orderly s' c pos' := by
  have hnot (k : Task) : s.holder ≠ .task k := by simp [hholder]
  have hhas (h : pos.hasFin = true) : (s.pcbs c).tcb.state.receives = false := hinv.fin (.inr (.inr h))
  have hoffered := hinv.offered
  cases hmay with
  | none =>
    cases hmove with
    | refusedAgain hrefused hpos =>
      obtain rfl | ⟨seg, -, hlen, rfl⟩ := hpos
      · exact hinv.idle hnot
      · exact hinv.onward hnot (.inr hlen) (by simp [InputAt.hasFin])
    | sentNone _ | notClosed _ => exact hinv.onward hnot hoffered hhas
    | dataNone _ => exact hinv.onward hnot trivial hhas
    | finNone _ => exact hinv.idle hnot
  | @some b s' hstep =>
    have hsec := Stack.step_section hstep
    have hbetween := hmove.between
    cases hmove with
    | refused =>
      refine hinv.callback hsec hholder hbetween (by simp) (fun _ => rfl) trivial (by simp) ?_
      rintro (h | h)
      · cases h
      · exact hinv.fin (.inr (.inl h))
    | @refusedTaken fin seg hrefused =>
      apply of_tcp hsec hnot
      · split
        · exact hrefused
        · cases seg with
          | none => trivial
          | some seg => exact .inl hrefused
      · rintro (h | h | h)
        · exact hinv.fin (.inl h)
        · cases h
        · apply hhas
          cases fin with
          | true => rfl
          | false => cases seg <;> cases h
    | @refusedFin seg =>
      have hnone : (s'.pcbs c).refused_data = none :=
        (hsec.offers (by simp) (fun k hk => absurd hk (hnot k))).1 hoffered
      apply hinv.callback hsec hholder hbetween (by simp) (by simp)
      · cases seg with
        | none => trivial
        | some seg => exact .inl hoffered
      · intro _
        cases seg with
        | none => trivial
        | some seg => exact .inl hnone
      · exact fun _ => hhas rfl
    | reset _ | closedErr _ _ | dataAbort _ _ _ =>
      exact hinv.callback hsec hholder hbetween (by simp) (by simp) trivial (by simp)
        (by simp [InputAt.hasFin])
    | @process seg _ =>
      apply of_tcp hsec hnot
      · intro hdata
        have hrcv : (s.pcbs c).tcb.state.receives = true := by
          by_contra hclosed
          rw [(TcpState.process_of_not_receives (Bool.eq_false_iff.mpr hclosed) seg).1] at hdata
          cases hdata
        rw [(TcpState.process_of_receives hrcv seg).1] at hdata
        have hlen := seg.data_len hdata
        have hnone : (s.pcbs c).refused_data = none := hoffered.resolve_right (by omega)
        refine ⟨hnone, Bool.eq_false_iff.mpr fun hfin => ?_⟩
        rw [hinv.fin (.inl hfin)] at hrcv
        cases hrcv
      · rintro (h | h | h)
        · exact TcpState.receives_process.2 (hinv.fin (.inl h))
        · exact TcpState.receives_process.2 (hinv.fin (.inr (.inl h)))
        · exact TcpState.receives_process.1 h
    | sent _ =>
      refine hinv.callback hsec hholder hbetween (by simp) (by simp) hoffered (by simp) ?_
      rintro (h | h)
      · cases h
      · exact hhas h
    | closedSilent _ _ | dataSilent _ _ _ =>
      refine of_tcp hsec hnot trivial ?_
      rintro (h | h | h)
      · exact hinv.fin (.inl h)
      · exact hinv.fin (.inr (.inl h))
      · cases h
    | data _ _ =>
      refine hinv.callback hsec hholder hbetween (by simp) (fun _ => rfl) trivial (by simp) ?_
      rintro (h | h)
      · cases h
      · exact hhas h
    | finRefused hfin _ =>
      exact of_tcp hsec hnot trivial fun _ => hhas hfin
    | fin hfin _ =>
      exact hinv.callback hsec hholder hbetween (by simp) (by simp) trivial (fun _ => trivial)
        fun _ => hhas hfin

end Orderly

/-- The sections that `tcp_input` runs keep the order. -/
theorem InputMove.inOrder {s : Stack} {c : ConnId} {pos pos' : InputAt} {b : Act}
    (hmove : InputMove (s.pcbs c) c pos (some b) pos') (hinv : Orderly s c pos) : InOrder s b := by
  cases hmove with
  | data hdata _ => exact hinv.offered (by rw [hdata]; rfl)
  | refusedFin => exact hinv.offered
  | fin _ hrefused => exact hrefused
  | _ => trivial

/-- Every pcb keeps the order. -/
def OrderInv (s : Net) : Prop := ∀ c, Orderly s.stack c (s.posOf c)

namespace OrderInv

variable {s s' : Net} {a : NetAct}

/-- A section of lwIP on the pcb of `c`, for the other pcbs. -/
theorem beside (hinv : OrderInv s) {b : Act} {c c' : ConnId} {owner : Option Tid} {stack : Stack}
    (hholder : s.stack.holder = .lwip owner) (hstep : s.stack.step b = some stack)
    (hact : b.tpcb = some c) (hne : c' ≠ c) : Orderly stack c' .idle := by
  have hsec := Stack.step_section hstep
  have hidle := (hinv c').idle (by simp [hholder])
  have hother (h : b.tpcb = some c') : False := by
    cases hact.symm.trans h
    exact hne rfl
  apply hidle.callback hsec hholder
  · cases b <;> first | rfl | cases hact
  · rintro tcb rfl
    exact hother rfl
  · rintro (⟨p, rfl⟩ | rfl)
    · exact (hother rfl).elim
    · exact (hother rfl).elim
  · trivial
  · intro _
    trivial
  · rintro (rfl | h)
    · exact (hother rfl).elim
    · cases h

theorem lwip (hinv : OrderInv s) {b : Act} {c : ConnId} {owner : Option Tid} {stack : Stack}
    {pos : InputAt} (hholder : s.stack.holder = .lwip owner) (hstep : s.stack.step b = some stack)
    (hact : b.tpcb = some c) (hown : Orderly stack c pos) : OrderInv ⟨stack, c, pos⟩ := by
  intro c'
  by_cases heq : c' = c
  · subst heq
    rw [Net.posOf, if_pos rfl]
    exact hown
  · rw [Net.posOf, if_neg (Ne.symm heq)]
    exact hinv.beside hholder hstep hact heq

/-- `tcp_input` turns to the pcb of `c`. -/
theorem enter (hinv : OrderInv s) {c : ConnId} {pos : InputAt} (hready : s.ready)
    (hoffered : Offered s.stack c pos) (hfin : pos.hasFin = false) : OrderInv { s with tpcb := c, pos } := by
  have hnot (k : Task) : s.stack.holder ≠ .task k := by simp [hready.1]
  intro c'
  by_cases heq : c' = c
  · subst heq
    rw [Net.posOf, if_pos rfl]
    exact (hinv c').onward hnot hoffered (by simp [hfin])
  · rw [Net.posOf, if_neg (Ne.symm heq)]
    exact (hinv c').idle hnot

/-- lwIP changes the state of the pcb of `c` by hand, between segments. -/
theorem byHand (hinv : OrderInv s) {c : ConnId} {tcb : Tcb} {stack : Stack} (hready : s.ready)
    (hstep : s.stack.step (.tcp c tcb) = some stack)
    (hrefused : tcb.refusedFin = (s.stack.pcbs c).tcb.refusedFin)
    (hrcv : (s.stack.pcbs c).tcb.state.receives = false → tcb.state.receives = false) :
    OrderInv ⟨stack, c, .idle⟩ := by
  apply hinv.lwip hready.1 hstep rfl
  refine Orderly.of_tcp (Stack.step_section hstep) (by simp [hready.1]) trivial ?_
  rintro (h | h | h)
  · exact hrcv ((hinv c).fin (.inl h))
  · exact hrcv ((hinv c).fin (.inr (.inl (hrefused ▸ h))))
  · cases h

/-- Every step of lwIP and of the Go code keeps the callbacks in order. -/
theorem step (hinv : OrderInv s) (hmove : NetMove s a s') : OrderInv s' := by
  cases hmove with
  | segment hready _ hrefused => exact hinv.enter hready (.inl hrefused) rfl
  | offer hready _ _ => exact hinv.enter hready trivial rfl
  | closePend hready _ _ hstep => exact hinv.byHand hready hstep rfl TcpState.receives_fin
  | expire hready _ hstep => exact hinv.byHand hready hstep rfl id
  | poll hready _ hstep | remove hready _ hstep =>
    apply hinv.lwip hready.1 hstep rfl
    exact ((hinv _).idle (by simp [hready.1])).callback (Stack.step_section hstep) hready.1 rfl (by simp)
      (by simp) trivial (by simp) (by simp [InputAt.hasFin])
  | ended hholder _ =>
    intro c
    rw [Net.posOf, ite_self]
    exact (hinv c).idle (by simp [hholder])
  | @input act pos stack owner hholder _ hmove hmay =>
    have hself := hinv s.tpcb
    rw [Net.posOf_self] at hself
    have hown := hself.input hholder hmove hmay
    cases hmay with
    | none =>
      intro c
      by_cases heq : c = s.tpcb
      · rw [heq, Net.posOf, if_pos rfl]
        exact hown
      · rw [Net.posOf, if_neg (Ne.symm heq)]
        exact (hinv c).idle (by simp [hholder])
    | some hstep => exact hinv.lwip hholder hstep hmove.tpcb hown
  | @take t c p stack hproc hrefused hstep =>
    have hsec := Stack.step_section hstep
    intro c'
    by_cases heq : c' = c
    · subst heq
      rw [Net.posOf, if_pos rfl]
      refine (hinv c').step hsec (by simp) (by simp) (fun _ _ _ _ => rfl) trivial ?_
      rintro (h | h)
      · cases h
      · exact (hinv c').fin (.inr (.inl h))
    · rw [Net.posOf, if_neg (Ne.symm heq)]
      refine (hinv c').step hsec (by simp) (by simp) ?_ trivial (by simp [InputAt.hasFin])
      intro k' hk' htpcb
      obtain ⟨-, ⟨-, hholder⟩ | ⟨found, -, rfl⟩⟩ := hsec.take_eq hproc hrefused
      · cases hholder.symm.trans hk'
      · cases hk'
        cases htpcb
        exact absurd rfl heq
  | go hgo hbetween hnot hstep =>
    intro c
    apply (hinv c).go (Stack.step_section hstep) hgo
    · intro h
      exact Net.posOf_idle (hbetween h) c
    · exact fun t p => hnot t c p

end OrderInv

private theorem reach_order {s : Net} (h : Reach netMachine any s) : OrderInv s := by
  apply h.invariant (P := OrderInv)
  · intro c
    have hidle : netMachine.init.posOf c = .idle := Net.posOf_idle rfl c
    rw [hidle]
    exact .init
  · exact fun s a s' _ hinv _ hstep => hinv.step (Net.step_move hstep)

/-- With distinct keys, every section of a run with lwIP's input path keeps the order. -/
theorem Runs.inOrder {s : Net} {a : NetAct} {b : Act} (hruns : Runs s a b) (hinv : OrderInv s)
    (hfresh : FreshKey s.stack b) : InOrder s.stack b := by
  cases hruns with
  | input hmove =>
    have hself := hinv s.tpcb
    rw [Net.posOf_self] at hself
    exact hmove.inOrder hself
  | go hgo =>
    cases b with
    | accept key => exact hfresh
    | recv _ _ | recvFin _ => cases hgo
    | _ => trivial
  | _ => trivial

/-- What `tcpRecvFn` may assume of lwIP, lwIP does: new data comes only when nothing is
    refused and before the FIN. -/
theorem reach_inOrder {ok : Stack → Act → Prop} (hfresh : ∀ s b, ok s b → FreshKey s b) {s : Net}
    (h : Reach netMachine (OnStack ok) s) :
    Reach tcpMachine (fun s b => InOrder s b ∧ ok s b) s.stack := by
  apply reach_onStack
  apply h.invariant (P := Reach netMachine (OnStack fun s b => InOrder s b ∧ ok s b))
  · exact .init
  · intro s a s' _ ih hok hstep
    have hinv := reach_order (ih.mono fun _ _ _ => trivial)
    exact ih.step (fun b hruns => ⟨hruns.inOrder hinv (hfresh _ _ (hok b hruns)), hok b hruns⟩) hstep

end tun2proxy.core
