import Tun2Proxy.Tcp.Upload

open tun2proxy.machine tun2proxy.machine.Machine

namespace tun2proxy.core

/-- The handler does not close the read side of `c`, and `c` is neither aborted
    nor reset: an err callback is lwIP's report of a connection that both sides
    have closed. -/
def Quiet (c : ConnId) (s : Stack) : Act → Prop
  | .call _ op => op ≠ .closeRead c ∧ op ≠ .close c ∧ op ≠ .abort c
  | .handled t nilErr => nilErr = true ∨ s.procs t ≠ .handle c
  | .err c' code => c' = c → code = .ERR_CLSD ∧ (s.pcbs c).finReported = true
  | _ => True

instance (c : ConnId) (s : Stack) : (a : Act) → Decidable (Quiet c s a)
  | .call _ op => inferInstanceAs (Decidable (op ≠ .closeRead c ∧ op ≠ .close c ∧ op ≠ .abort c))
  | .handled t nilErr => inferInstanceAs (Decidable (nilErr = true ∨ s.procs t ≠ .handle c))
  | .err c' code =>
    inferInstanceAs (Decidable (c' = c → code = .ERR_CLSD ∧ (s.pcbs c).finReported = true))
  | .lwipLock | .lwipUnlock | .accept _ | .acceptDone _ | .recv _ _ | .recvFin _ | .refused _ | .sent _
  | .poll _ | .tcp _ _ | .task | .write _ _ _ | .shutdown _ _ | .run _ | .pipe _ =>
    inferInstanceAs (Decidable True)

/-- In a quiet run nothing ends the stream of `c` but its FIN, and by then every
    byte was read. -/
structure QuietInv (s : Stack) (c : ConnId) : Prop where
  fin : (s.pcbs c).finReported = true → (s.conns c).readBytes = (s.pcbs c).stream ∧
    (s.pcbs c).refused_data = none ∧ ∀ k, s.holder = .task k → k.conn = c →
      k.caller.method ≠ .Receive
  closed : ∀ k, s.holder = .task k → k.conn = c → k.stage = .setLocalClosed →
    (s.pcbs c).finReported = true
  cut : (s.conns c).cut → (s.pcbs c).finReported = true
  eof : (s.conns c).readEOF = true → (s.pcbs c).finReported = true
  procs : ∀ t, s.procs t ≠ .abort c ∧ s.procs t ≠ .closeRead c ∧ s.procs t ≠ .close c

section
variable (p : TcpPcb)

@[simp] theorem TcpPcb.use_finReported (u : PcbUse) : (p.use u).finReported = p.finReported := by
  unfold TcpPcb.use; split <;> rfl

@[simp] theorem TcpPcb.abandon_finReported : p.abandon.finReported = p.finReported := by
  unfold TcpPcb.abandon
  split
  · rw [TcpPcb.use_finReported]
  · rfl

@[simp] theorem TcpPcb.tcp_close_finReported : p.tcp_close.finReported = p.finReported := by
  unfold TcpPcb.tcp_close
  split
  · rw [TcpPcb.use_finReported]
  · rfl

@[simp] theorem TcpPcb.shutdownRx_finReported : p.shutdownRx.finReported = p.finReported := by
  unfold TcpPcb.shutdownRx
  split
  · rw [TcpPcb.use_finReported]
  · rfl

@[simp] theorem TcpPcb.shutdownTx_finReported (finSent : Bool) :
    (p.shutdownTx finSent).finReported = p.finReported := by
  unfold TcpPcb.shutdownTx
  split
  · rw [TcpPcb.use_finReported]
  · split
    · split <;> rfl
    · rfl

@[simp] theorem TcpPcb.tcp_write_finReported (data : List UInt8) :
    (p.tcp_write data).finReported = p.finReported := by
  unfold TcpPcb.tcp_write
  split
  · rw [TcpPcb.use_finReported, TcpPcb.use_finReported]
  · rfl

end

/-- The FIN is reported by `recvFin` only, and stays reported. -/
theorem PcbStep.finReported {s : Stack} {a : Act} {c : ConnId} {pcb pcb' : TcpPcb}
    (hstep : PcbStep s a c pcb pcb') (hnew : ∀ key, a = .accept key → c ≠ s.accepted) :
    pcb'.finReported = pcb.finReported ∨ (a = .recvFin c ∧ pcb'.finReported = true) := by
  cases hstep with
  | accept hact hc => exact absurd hc (hnew _ hact)
  | callback hcb _ _ =>
    cases hcb with
    | recvFin => exact .inr ⟨rfl, rfl⟩
    | _ => exact .inl rfl
  | unknown hcb _ _ =>
    cases hcb with
    | recvFin => exact .inr ⟨rfl, by simp⟩
    | _ => exact .inl (by simp [TcpPcb.takeRefused])
  | @proc t p' f g hmove =>
    left
    generalize s.procs t = p at hmove
    cases hmove <;> simp
  | _ => exact .inl (by simp [TcpPcb.takeRefused])

/-- The stream grows by `recv` only. -/
theorem PcbStep.stream {s : Stack} {a : Act} {c : ConnId} {pcb pcb' : TcpPcb}
    (hstep : PcbStep s a c pcb pcb') (hnew : ∀ key, a = .accept key → c ≠ s.accepted)
    (hact : ∀ p, a ≠ .recv c p) : pcb'.stream = pcb.stream := by
  cases hstep with
  | accept hact hc => exact absurd hc (hnew _ hact)
  | callback hcb _ _ | unknown hcb _ _ =>
    cases hcb with
    | recv p => exact absurd rfl (hact p)
    | _ => simp [TcpPcb.takeRefused]
  | @proc t p' f g hmove =>
    generalize s.procs t = p at hmove
    cases hmove <;> simp
  | _ => simp [TcpPcb.takeRefused]

/-- Data is refused only when `Receive` returns. -/
theorem PcbStep.refused_data {s : Stack} {a : Act} {c : ConnId} {pcb pcb' : TcpPcb}
    (hstep : PcbStep s a c pcb pcb') (hnone : pcb.refused_data = none)
    (hreceive : ∀ k, s.holder = .task k → k.caller.tpcb = some c → k.caller.method ≠ .Receive) :
    pcb'.refused_data = none := by
  have hgone : pcb.gone = true → pcb.refused_data = none := fun _ => hnone
  cases hstep with
  | accept _ _ => rfl
  | callback hcb _ _ => cases hcb <;> first | exact hnone | rfl
  | unknown hcb _ _ =>
    cases hcb <;> exact TcpPcb.abandon_refused_data fun _ => by first | exact hnone | rfl
  | retConn hholder hcaller _ =>
    exact absurd (by rw [hcaller]; rfl) (hreceive _ hholder (by rw [hcaller]; rfl))
  | retClsd _ _ _ => exact TcpPcb.shutdownRx_refused_data (by simp [hnone])
  | err _ _ | abort _ _ _ => exact TcpPcb.abandon_refused_data hgone
  | refusedUnknown _ _ _ => exact TcpPcb.abandon_refused_data fun _ => rfl
  | close _ _ _ _ => exact TcpPcb.tcp_close_refused_data hgone
  | @proc t p' f g hmove =>
    generalize s.procs t = p at hmove
    cases hmove <;> simp [hnone]
  | _ => simp [hnone, TcpPcb.takeRefused]

/-- A `Receive` on `c` is not new, or lwIP has just handed it data. -/
theorem Section.receive_start {s s' : Stack} {a : Act} {c : ConnId} (hsec : Section s a s')
    (hbounds : Bounds s) (hown : Owned s) {k' : Task} (hk' : s'.holder = .task k')
    (hconn : k'.conn = c) (hmethod : k'.caller.method = .Receive) :
    (∃ k, s.holder = .task k ∧ k.conn = c ∧ k.caller.method = .Receive) ∨ (∃ p, a = .recv c p) ∨
      ∃ p, (s.pcbs c).refused_data = some p := by
  cases hsec with
  | @cbFound a c' found owner caller stage f hcb hholder hlive hfound =>
    obtain rfl := Option.some.inj ((hown.lookup_live hlive).symm.trans hfound)
    cases hk'
    obtain rfl : c' = c := hconn
    cases hcb with
    | recv p => exact .inr (.inl ⟨p, rfl⟩)
    | refused hrefused => exact .inr (.inr ⟨_, hrefused⟩)
    | _ => cases hmethod
  | @procFound t c' found p hproc hholder hrefused hfound =>
    have hlookup := hown.lookup_refused (hbounds.procs t c' (by rw [hproc]; rfl)) hrefused
    obtain rfl := Option.some.inj (hlookup.symm.trans hfound)
    cases hk'
    obtain rfl : c' = c := hconn
    exact .inr (.inr ⟨p, hrefused⟩)
  | abortLwip _ _ =>
    cases hk'
    cases hmethod
  | @task k _ hholder _ | @receiveErrored k hholder _ _ | @recved k _ hholder _ | @closing k hholder _ _
  | @aborting k hholder _ _ | @broadcast k hholder _ | @localClosed k hholder _ | @pipe _ k _ _ _ _ hholder _ _ _ =>
    cases hk'
    exact .inl ⟨k, hholder, hconn, hmethod⟩
  | ret hholder _ => exact absurd hk' (Stack.methodRet_not_task _ _ _ _)
  | errFound _ _ _ | errUnknown _ _ _ | tcp _ | proc _ | conn _ | pcb _ _ =>
    exact .inl ⟨k', hk', hconn, hmethod⟩
  | _ => cases hk'

private theorem TcpConnState.receiveClosed_le_of_closeWrite {st st' : TcpConnState}
    (hstate : st.closeWrite = some st') (hle : .tcpReceiveClosed ≤ st') :
    .tcpReceiveClosed ≤ st := by
  revert hstate hle
  cases st <;> cases st' <;> decide

/-- Goroutines close the read side of `c` or abort it only when they are told to. -/
theorem Section.spared {s s' : Stack} {a : Act} {c : ConnId} (hsec : Section s a s') {t : Tid}
    (hold : s.procs t ≠ .abort c ∧ s.procs t ≠ .closeRead c ∧ s.procs t ≠ .close c)
    (hcall : ∀ op, a = .call t op → op ≠ .closeRead c ∧ op ≠ .close c ∧ op ≠ .abort c)
    (hhandled : a = .handled t false → s.procs t ≠ .handle c) :
    s'.procs t ≠ .abort c ∧ s'.procs t ≠ .closeRead c ∧ s'.procs t ≠ .close c := by
  have hstep := hsec.procs t
  generalize s.procs t = p at hstep hold hhandled
  generalize s'.procs t = p' at hstep
  cases hstep with
  | same => exact hold
  | woken c' =>
    have hwake {q : Proc} (hq : ∀ c' pos data n, q ≠ .write c' pos data n) (hne : p ≠ q) :
        p.wake c' ≠ q :=
      fun heq => hne (Proc.eq_of_wake_eq heq hq)
    exact ⟨hwake (by simp) hold.1, hwake (by simp) hold.2.1, hwake (by simp) hold.2.2⟩
  | own hown =>
    cases hown with
    | proc hmove =>
      cases hmove with
      | @call op _ _ => cases op <;> simp_all [Call.start]
      | handledErr => simpa using hhandled rfl
      | _ => simp
    | conn _ hmove _ => cases hmove <;> simp
    | pcb _ hmove => cases hmove <;> simp
    | _ => simp

namespace QuietInv

theorem init (c : ConnId) : QuietInv Stack.init c where
  fin h := by cases h
  closed k hk := by cases hk
  cut h := by
    simp [Stack.init, newConn, TcpConn.cut, TcpConn.pipeDone] at h
    exact absurd h (by decide)
  eof h := by cases h
  procs t := by simp [Stack.init]

/-- The FIN stays reported. -/
theorem fin_mono {s s' : Stack} {a : Act} {c : ConnId} (hsec : Section s a s')
    (hnew : ∀ key, a = .accept key → c ≠ s.accepted) (hfin : (s.pcbs c).finReported = true) :
    (s'.pcbs c).finReported = true := by
  obtain hsame | ⟨-, htrue⟩ := (hsec.pcbs c).finReported hnew
  · rw [hsame]
    exact hfin
  · exact htrue

section
variable {s s' : Stack} {a : Act} {c : ConnId} (hinv : QuietInv s c) (hquiet : Quiet c s a)
  (hsec : Section s a s')
include hinv hsec

include hquiet in
theorem procs_step (t : Tid) :
    s'.procs t ≠ .abort c ∧ s'.procs t ≠ .closeRead c ∧ s'.procs t ≠ .close c := by
  refine hsec.spared (hinv.procs t) ?_ ?_
  · rintro op rfl
    exact hquiet
  · rintro rfl
    exact hquiet.resolve_left (by simp)

theorem closed_step (hown : Owned s) (hnew : ∀ key, a = .accept key → c ≠ s.accepted) (k' : Task)
    (hk' : s'.holder = .task k') (hconn : k'.conn = c) (hstage : k'.stage = .setLocalClosed) :
    (s'.pcbs c).finReported = true := by
  cases hsec with
  | @cbFound a c' found owner caller stage f hcb hholder hlive hfound =>
    obtain rfl := Option.some.inj ((hown.lookup_live hlive).symm.trans hfound)
    cases hk'
    obtain rfl : c' = c := hconn
    cases hcb with
    | recvFin => simp
    | _ => cases hstage
  | task hholder hmove =>
    cases hk'
    generalize Task.stage _ = here at hmove
    cases hmove <;> cases hstage
  | pipe _ _ _ hnext =>
    cases hk'
    rw [hnext] at hstage
    simp only [] at hstage
    split at hstage <;> cases hstage
  | ret _ _ => exact absurd hk' (Stack.methodRet_not_task _ _ _ _)
  | proc hmove => exact hinv.closed k' hk' hconn hstage
  | conn hmove => exact hinv.closed k' hk' hconn hstage
  | errFound hholder _ _ | errUnknown hholder _ _ | tcp hholder | pcb hholder _ =>
    cases hholder.symm.trans hk'
  | _ => cases hk' <;> cases hstage

/-- Only the FIN cuts the stream: everything else that could is excluded. -/
theorem cut_before (hquiet : Quiet c s a) (hown : Owned s)
    (hnew : ∀ key, a = .accept key → c ≠ s.accepted) (hcut : (s'.conns c).cut) :
    (s.pcbs c).finReported = true := by
  have hstep := hsec.conns c
  generalize hconn' : s'.conns c = conn' at hstep hcut
  generalize hconn : s.conns c = conn at hstep
  cases hstep with
  | same => exact hinv.cut (hconn ▸ hcut)
  | accept hact hc => exact absurd hc (hnew _ hact)
  | acceptDone hholder =>
    obtain hdone | hle := hcut
    · exact hinv.cut (.inl (hconn ▸ hdone))
    · exact absurd hle (by simp only []; decide)
  | @err tpcb code hact hlive hfound =>
    obtain rfl := Option.some.inj ((hown.lookup_live hlive).symm.trans hfound)
    subst hact
    exact (hquiet rfl).2
  | release _ _ hstate => exact hinv.cut (.inr hstate)
  | localClosed hholder hconn hstage _ => exact hinv.closed _ hholder hconn hstage
  | @own t p' f hmove =>
    have hprocs := hinv.procs t
    obtain hdone | hle := hcut
    · generalize s.procs t = p at hmove hprocs
      cases hmove <;> first | exact hinv.cut (.inl hdone) | simp at hprocs
    · generalize s.procs t = p at hmove hprocs
      cases hmove with
      | connected _ => exact absurd hle (by simp only []; decide)
      | abort => simp at hprocs
      | closeWrite hstate =>
        exact hinv.cut (.inr (TcpConnState.receiveClosed_le_of_closeWrite hstate hle))
      | _ => exact hinv.cut (.inr hle)
  | @pcb _ t p' f g hmove =>
    generalize s.procs t = p at hmove
    cases hmove <;> exact hinv.cut (hconn ▸ hcut)
  | pipe _ _ _ => exact hinv.cut (hconn ▸ hcut)

/-- `Read` reports EOF only on a stream that is cut. -/
theorem eof_before (hnew : ∀ key, a = .accept key → c ≠ s.accepted)
    (heof : (s'.conns c).readEOF = true) :
    (s.pcbs c).finReported = true := by
  have hstep := hsec.conns c
  generalize hconn' : s'.conns c = conn' at hstep heof
  generalize hconn : s.conns c = conn at hstep
  cases hstep with
  | same => exact hinv.eof (hconn ▸ heof)
  | accept hact hc => exact absurd hc (hnew _ hact)
  | acceptDone hholder => exact hinv.eof (hconn ▸ heof)
  | err _ _ _ => exact hinv.eof (by simpa using heof)
  | release _ _ _ => exact hinv.eof (by simpa using heof)
  | localClosed _ _ _ _ => exact hinv.eof (hconn ▸ heof)
  | @own t p' f hmove =>
    generalize s.procs t = p at hmove
    cases hmove with
    | @readErr len e hcheck =>
      obtain hold | hnow := Bool.or_eq_true_iff.mp heof
      · exact hinv.eof hold
      · -- EOF without a look at the pipe is the state `tcpReceiveClosed`
        have he : e = .EOF := by simpa using hnow
        subst he
        refine hinv.cut (.inr ?_)
        revert hcheck
        cases (s.conns c).state <;> decide
    | readDone hdone => exact hinv.cut (.inl hdone)
    | readBroken hdone => exact hinv.cut (.inl hdone)
    | _ => exact hinv.eof heof
  | @pcb _ t p' f g hmove =>
    generalize s.procs t = p at hmove
    cases hmove <;> exact hinv.eof (hconn ▸ heof)
  | pipe _ _ _ => exact hinv.eof (hconn ▸ heof)

/-- After the FIN nothing is received, and when it is reported everything was
    read. -/
theorem fin_step (htask : TaskInv s) (hbounds : Bounds s) (hown : Owned s) (hup : UploadInv s c)
    (hok : InOrder s a) (hnew : ∀ key, a = .accept key → c ≠ s.accepted)
    (hfin' : (s'.pcbs c).finReported = true) :
    (s'.conns c).readBytes = (s'.pcbs c).stream ∧ (s'.pcbs c).refused_data = none ∧
      ∀ k, s'.holder = .task k → k.conn = c → k.caller.method ≠ .Receive := by
  -- before the step everything was read, nothing is refused and no `Receive` runs
  have hbefore : (s.conns c).readBytes = (s.pcbs c).stream ∧ (s.pcbs c).refused_data = none ∧
      (∀ k, s.holder = .task k → k.conn = c → k.caller.method ≠ .Receive) ∧ ∀ p, a ≠ .recv c p := by
    obtain hsame | ⟨hact, -⟩ := (hsec.pcbs c).finReported hnew
    · rw [hsame] at hfin'
      obtain ⟨hread, hnone, hreceive⟩ := hinv.fin hfin'
      refine ⟨hread, hnone, hreceive, ?_⟩
      rintro p rfl
      rw [hok.2] at hfin'
      cases hfin'
    · subst hact
      have hlwip : ∃ owner, s.holder = .lwip owner := by
        cases hsec with
        | cbFound _ hholder _ _ => exact ⟨_, hholder⟩
        | cbUnknown _ hholder _ _ => exact ⟨_, hholder⟩
        | proc hmove =>
          generalize s.procs _ = p at hmove
          cases hmove
        | pcb _ hmove =>
          generalize s.procs _ = p at hmove
          cases hmove
      obtain ⟨owner, hholder⟩ := hlwip
      have hno (k : Task) (hk : s.holder = .task k) : False := by cases hholder.symm.trans hk
      have hnone : (s.pcbs c).refused_data = none := hok
      refine ⟨?_, hnone, fun k hk => (hno k hk).elim, by simp⟩
      obtain hwhole | ⟨-, hcut⟩ := hup.fate
      · rw [hwhole]
        simp [hholder, Holder.pending, TcpPcb.refusedBytes, hnone]
      · rw [Stack.cut_of_not_about (Stack.not_about_lwip hholder _)] at hcut
        exact (hinv.fin (hinv.cut hcut)).1
  obtain ⟨hread, hnone, hreceive, hact⟩ := hbefore
  refine ⟨?_, ?_, ?_⟩
  · rw [(hsec.pcbs c).stream hnew hact, ← hread]
    have hstep := hsec.conns c
    generalize s'.conns c = conn' at hstep
    generalize hconn : s.conns c = conn at hstep
    cases hstep with
    | accept hact hc => exact absurd hc (hnew _ hact)
    | @own t p' f hmove => exact hmove.readBytes _
    | pcb hmove => exact hmove.readBytes _
    | @pipe _ k rest bytes n hholder hk hstage =>
      have hgoing : ∀ e, k.stage ≠ .ret e := by simp [hstage]
      have hmethod := ((htask k hholder).ofReceive hgoing).mp (by rw [hstage]; rfl)
      exact absurd hmethod (hreceive k hholder hk)
    | err _ _ _ | release _ _ _ => simp
    | _ => rfl
  · exact (hsec.pcbs c).refused_data hnone fun k hk htpcb => hreceive k hk (hown.tpcb k c hk htpcb)
  · intro k' hk' hconn hmethod
    obtain ⟨k, hk, hconn, hmethod⟩ | ⟨p, hrecv⟩ | ⟨p, hrefused⟩ :=
      hsec.receive_start hbounds hown hk' hconn hmethod
    · exact hreceive k hk hconn hmethod
    · exact hact p hrecv
    · rw [hnone] at hrefused
      cases hrefused

end

theorem step {s s' : Stack} {a : Act} {c : ConnId} (htask : TaskInv s) (hbounds : Bounds s)
    (hown : Owned s) (hup : UploadInv s c) (hinv : QuietInv s c) (hok : InOrder s a)
    (hquiet : Quiet c s a) (hsec : Section s a s') : QuietInv s' c := by
  by_cases hnew : ∀ key, a = .accept key → c ≠ s.accepted
  · exact ⟨hinv.fin_step hsec htask hbounds hown hup hok hnew, hinv.closed_step hsec hown hnew,
      fun hcut => fin_mono hsec hnew (hinv.cut_before hsec hquiet hown hnew hcut),
      fun heof => fin_mono hsec hnew (hinv.eof_before hsec hnew heof), hinv.procs_step hquiet hsec⟩
  · -- the connection has just been accepted
    simp only [not_forall, not_not] at hnew
    obtain ⟨key, rfl, rfl⟩ := hnew
    have hprocs := hinv.procs_step hquiet hsec
    obtain ⟨owner, -, rfl⟩ := hsec.accept_eq
    refine ⟨?_, ?_, ?_, ?_, hprocs⟩
    · simp [newPcb]
    · intro k hk
      cases hk
    · simp only [Function.update_self, newConn, TcpConn.cut, TcpConn.pipeDone]
      decide
    · simp [newConn]

end QuietInv

theorem reach_upload {s : Stack} (h : Reach tcpMachine InOrder s) (c : ConnId) : UploadInv s c := by
  refine Reach.invariant (P := fun s => UploadInv s c) (UploadInv.init c) ?_ h
  intro s a s' hreach hinv hok hstep
  have hany := hreach.mono fun _ _ _ => trivial
  have hown := reach_owned (hreach.mono fun _ _ h => h.freshKey)
  exact hinv.step (reach_registry hany).2 (reach_bounds hany) hown hok (Stack.step_section hstep)

theorem reach_quiet {s : Stack} {c : ConnId}
    (h : Reach tcpMachine (fun s a => InOrder s a ∧ Quiet c s a) s) :
    QuietInv s c := by
  refine Reach.invariant (P := fun s => QuietInv s c) (QuietInv.init c) ?_ h
  intro s a s' hreach hinv hok hstep
  have hany := hreach.mono fun _ _ _ => trivial
  have hin := hreach.mono fun _ _ h => h.1
  have hown := reach_owned (hin.mono fun _ _ h => h.freshKey)
  exact hinv.step (reach_registry hany).2 (reach_bounds hany) hown (reach_upload hin c) hok.1 hok.2
    (Stack.step_section hstep)

/-- At every moment of every run the bytes that `Read` has returned are a prefix
    of the bytes that lwIP has handed over; and if the handler never closes its
    read side and the connection is neither aborted nor reset, `Read` has reported
    EOF only after the FIN and after all bytes. -/
theorem upload_fidelity (c : ConnId) :
    (∀ s, Reach tcpMachine InOrder s → (s.conns c).readBytes <+: (s.pcbs c).stream) ∧
    (∀ s, Reach tcpMachine (fun s a => InOrder s a ∧ Quiet c s a) s → (s.conns c).readEOF = true →
      (s.pcbs c).finReported = true ∧ (s.conns c).readBytes = (s.pcbs c).stream) := by
  constructor
  · intro s h
    exact (reach_upload h c).prefix_stream
  · intro s h heof
    have hinv := reach_quiet h
    have hfin := hinv.eof heof
    exact ⟨hfin, (hinv.fin hfin).1⟩

/-- Three bytes come before the handler is connected and are refused; the connect
    goroutine has them offered again, two reads take them, and after the FIN a
    third read gets EOF. -/
theorem upload_fidelity_refused :
    ∃ s, Reach tcpMachine (fun s a => InOrder s a ∧ Quiet 0 s a) s ∧ (s.conns 0).readEOF = true ∧
      (s.conns 0).readBytes = [1, 2, 3] ∧ (s.pcbs 0).finReported = true ∧
      (s.conns 0).readBytes = (s.pcbs 0).stream := by
  obtain ⟨s, hreach, heof, hread⟩ := exists_reach_of_run tcpMachine
    (fun s a => InOrder s a ∧ Quiet 0 s a)
    [.lwipLock, .accept 7, .acceptDone 0, .recv 0 ⟨[1, 2, 3], by decide⟩, .task, .task, .lwipUnlock,
      .handled 0 true, .run 0, .run 0, .task, .task, .call 1 (.read 0 2), .run 1, .run 1, .pipe 1,
      .call 1 (.read 0 9), .run 1, .run 1, .pipe 1, .task, .task, .lwipUnlock, .lwipLock,
      .recvFin 0, .task, .call 1 (.read 0 9), .run 1]
    (fun s => (s.conns 0).readEOF = true ∧ (s.conns 0).readBytes = [1, 2, 3]) (by decide)
  obtain ⟨hfin, hall⟩ := (upload_fidelity 0).2 s hreach heof
  exact ⟨s, hreach, heof, hread, hfin, hall⟩

end tun2proxy.core
