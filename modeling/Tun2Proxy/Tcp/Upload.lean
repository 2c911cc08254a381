import Tun2Proxy.Tcp.Owned

open tun2proxy.machine tun2proxy.machine.Machine

namespace tun2proxy.core

/-- What is assumed of an accept and of lwIP: the key drawn for a new connection is
    fresh; lwIP hands new data over only when nothing is refused and the FIN was not
    reported, and it reports the FIN only when nothing is refused. -/
def InOrder (s : Stack) : Act → Prop
  | .accept key => s.tcpConns key = none
  | .recv c _ => (s.pcbs c).refused_data = none ∧ (s.pcbs c).finReported = false
  | .recvFin c => (s.pcbs c).refused_data = none
  | _ => True

instance (s : Stack) : (a : Act) → Decidable (InOrder s a)
  | .accept key => inferInstanceAs (Decidable (s.tcpConns key = none))
  | .recv c _ =>
    inferInstanceAs (Decidable ((s.pcbs c).refused_data = none ∧ (s.pcbs c).finReported = false))
  | .recvFin c => inferInstanceAs (Decidable ((s.pcbs c).refused_data = none))
  | .lwipLock | .lwipUnlock | .acceptDone _ | .refused _ | .sent _ | .poll _ | .err _ _ | .tcp _ _ | .task
  | .call _ _ | .handled _ _ | .write _ _ _ | .shutdown _ _ | .run _ | .pipe _ =>
    inferInstanceAs (Decidable True)

/-- In runs in order, keys are fresh. -/
theorem InOrder.freshKey {s : Stack} {a : Act} (hok : InOrder s a) : FreshKey s a := by
  unfold FreshKey
  split
  · exact hok
  · trivial

/-- The bytes that the code holding `lwipMutex` has not handed to a reader yet. -/
def Task.pending (k : Task) : List UInt8 :=
  match k.stage with
  | .receiveCheck | .pipeStart | .ret (some .LWIP_ERR_CONN) => Stack.taskData k
  | .pipeWrite rest _ => rest
  | _ => []

/-- The bytes that code working on connection `c` has not handed to a reader yet. -/
def Holder.pending (h : Holder) (c : ConnId) : List UInt8 :=
  match h with
  | .task k => if k.conn = c then k.pending else []
  | _ => []

/-- The bytes that lwIP keeps because the callback has refused them. -/
def TcpPcb.refusedBytes (pcb : TcpPcb) : List UInt8 :=
  match pcb.refused_data with
  | some p => p.data
  | none => []

/-- `Receive` refuses data for good: the pipe is closed or the state says so. -/
def TcpConn.cut (conn : TcpConn) : Prop := conn.pipeDone = true ∨ .tcpReceiveClosed ≤ conn.state

/-- No byte handed over from here on gets into the pipe. A `Receive` that has
    passed `receiveCheck` can be stopped only by the pipe. -/
def Stack.cut (s : Stack) (c : ConnId) : Prop :=
  match s.holder with
  | .accept c' _ => c' ≠ c ∧ (s.conns c).cut
  | .task k =>
    if k.conn = c then
      match k.stage with
      | .pipeStart => (s.conns c).pipeDone = true
      | .pipeWrite _ _ => False
      | _ => (s.conns c).cut
    else (s.conns c).cut
  | _ => (s.conns c).cut

/-- Every byte handed over was read, is on its way to the pipe, or is refused. -/
def Stack.whole (s : Stack) (c : ConnId) : Prop :=
  (s.pcbs c).stream = (s.conns c).readBytes ++ s.holder.pending c ++ (s.pcbs c).refusedBytes

/-- Nothing was lost so far, or what was read is what came before the loss. -/
structure UploadInv (s : Stack) (c : ConnId) : Prop where
  fate : s.whole c ∨ ((s.conns c).readBytes <+: (s.pcbs c).stream ∧ s.cut c)
  receiving : ∀ k, s.holder = .task k → k.conn = c → k.caller.method = .Receive →
    (s.pcbs c).refused_data = none

namespace UploadInv

/-- What was read is a prefix of what was handed over. -/
theorem prefix_stream {s : Stack} {c : ConnId} (hinv : UploadInv s c) :
    (s.conns c).readBytes <+: (s.pcbs c).stream := by
  obtain hwhole | ⟨hpre, -⟩ := hinv.fate
  · rw [hwhole, List.append_assoc]
    exact List.prefix_append _ _
  · exact hpre

theorem init (c : ConnId) : UploadInv Stack.init c where
  fate := .inl rfl
  receiving k hk := by cases hk

/-- Steps that change nothing of the stream of `c`. -/
theorem frame {s s' : Stack} {c : ConnId} (hinv : UploadInv s c)
    (hstream : (s'.pcbs c).stream = (s.pcbs c).stream)
    (hread : (s'.conns c).readBytes = (s.conns c).readBytes)
    (hpending : s'.holder.pending c = s.holder.pending c)
    (hrefused : (s'.pcbs c).refused_data = (s.pcbs c).refused_data) (hcut : s.cut c → s'.cut c)
    (hholder : ∀ k, s'.holder = .task k → k.conn = c → k.caller.method = .Receive →
      ∃ k, s.holder = .task k ∧ k.conn = c ∧ k.caller.method = .Receive) : UploadInv s' c where
  fate := by
    have hbytes : (s'.pcbs c).refusedBytes = (s.pcbs c).refusedBytes := by
      simp only [TcpPcb.refusedBytes, hrefused]
    rw [Stack.whole, hstream, hread, hpending, hbytes]
    exact hinv.fate.imp_right fun h => ⟨h.1, hcut h.2⟩
  receiving k hk hconn hmethod := by
    obtain ⟨k₀, hk₀, hconn₀, hmethod₀⟩ := hholder k hk hconn hmethod
    rw [hrefused]
    exact hinv.receiving k₀ hk₀ hconn₀ hmethod₀

/-- Steps after which nothing more gets into the pipe. -/
theorem of_cut {s s' : Stack} {c : ConnId} (hinv : UploadInv s c)
    (hstream : (s'.pcbs c).stream = (s.pcbs c).stream)
    (hread : (s'.conns c).readBytes = (s.conns c).readBytes) (hcut : s'.cut c)
    (hreceiving : ∀ k, s'.holder = .task k → k.conn = c → k.caller.method = .Receive →
      (s'.pcbs c).refused_data = none) : UploadInv s' c where
  fate := by
    rw [hstream, hread]
    exact .inr ⟨hinv.prefix_stream, hcut⟩
  receiving := hreceiving

end UploadInv

/-- The holder of `lwipMutex` works on connection `c`. -/
def Holder.about (h : Holder) (c : ConnId) : Prop :=
  match h with
  | .task k => k.conn = c
  | .accept c' _ => c' = c
  | _ => False

theorem Stack.not_about_lwip {s : Stack} {owner : Option Tid} (hholder : s.holder = .lwip owner)
    (c : ConnId) : ¬s.holder.about c := by
  simp [hholder, Holder.about]

private theorem Stack.not_about_free {s : Stack} (hholder : s.holder = .free) (c : ConnId) :
    ¬s.holder.about c := by
  simp [hholder, Holder.about]

private theorem Holder.pending_of_not_about {h : Holder} {c : ConnId} (hnot : ¬h.about c) :
    h.pending c = [] := by
  unfold Holder.pending
  split
  · exact if_neg hnot
  · rfl

theorem Stack.cut_of_not_about {s : Stack} {c : ConnId} (hnot : ¬s.holder.about c) :
    s.cut c ↔ (s.conns c).cut := by
  unfold Stack.cut
  split
  · rename_i c' owner hholder
    rw [hholder] at hnot
    exact and_iff_right hnot
  · rename_i k hholder
    rw [hholder] at hnot
    have hconn : k.conn ≠ c := hnot
    rw [if_neg hconn]
  · rfl

/-- A cut lasts while the holder of `lwipMutex` stays where it is. -/
theorem Stack.cut_mono {s s' : Stack} {c : ConnId} (hholder : s'.holder = s.holder)
    (hdone : (s.conns c).pipeDone = true → (s'.conns c).pipeDone = true)
    (hstate : (s.conns c).cut → (s'.conns c).cut) (hcut : s.cut c) : s'.cut c := by
  unfold Stack.cut at hcut ⊢
  rw [hholder]
  split
  · simp_all
  · split
    · split <;> simp_all
    · simp_all
  · simp_all

namespace UploadInv

/-- Steps of others: neither before nor after does the holder of `lwipMutex` work
    on `c`. -/
theorem aside {s s' : Stack} {c : ConnId} (hinv : UploadInv s c) (hbefore : ¬s.holder.about c)
    (hafter : ¬s'.holder.about c) (hstream : (s'.pcbs c).stream = (s.pcbs c).stream)
    (hrefused : (s'.pcbs c).refused_data = (s.pcbs c).refused_data)
    (hread : (s'.conns c).readBytes = (s.conns c).readBytes)
    (hcut : (s.conns c).cut → (s'.conns c).cut) : UploadInv s' c := by
  refine hinv.frame hstream hread ?_ hrefused ?_ ?_
  · rw [Holder.pending_of_not_about hbefore, Holder.pending_of_not_about hafter]
  · rw [Stack.cut_of_not_about hbefore, Stack.cut_of_not_about hafter]
    exact hcut
  · intro k hk hconn
    rw [hk] at hafter
    exact absurd hconn hafter

/-- Steps of goroutines that do not hold `lwipMutex`. -/
theorem beside {s s' : Stack} {c : ConnId} (hinv : UploadInv s c) (hholder : s'.holder = s.holder)
    (hpcbs : s'.pcbs = s.pcbs) (hread : (s'.conns c).readBytes = (s.conns c).readBytes)
    (hdone : (s.conns c).pipeDone = true → (s'.conns c).pipeDone = true)
    (hcut : (s.conns c).cut → (s'.conns c).cut) : UploadInv s' c := by
  refine hinv.frame (by rw [hpcbs]) hread (by rw [hholder]) (by rw [hpcbs])
    (Stack.cut_mono hholder hdone hcut) ?_
  intro k hk hconn hmethod
  exact ⟨k, hholder ▸ hk, hconn, hmethod⟩

end UploadInv

theorem StateMove.receiveClosed_le {s : Stack} {a : Act} {c : ConnId} {st st' : TcpConnState}
    (hmove : StateMove s a c st st') (hact : ∀ t, a ≠ .acceptDone t)
    (hle : .tcpReceiveClosed ≤ st) : .tcpReceiveClosed ≤ st' := by
  cases hmove with
  | same => exact hle
  | connecting haccept _ => exact absurd haccept (hact _)
  | connected => revert hle; decide
  | abort => revert hle; cases st <;> decide
  | closeWrite hstate => revert hstate hle; cases st <;> cases st' <;> decide
  | localClosing => decide
  | localClosed _ => decide

section
variable {s : Stack} {t : Tid} {c : ConnId} {p p' : Proc} {f : TcpConn → TcpConn}

/-- Outside the pipe nothing is read. -/
theorem ConnMove.readBytes (hmove : ConnMove s t c p p' f) (conn : TcpConn) :
    (f conn).readBytes = conn.readBytes := by
  cases hmove <;> rfl

theorem ConnMove.pipeDone (hmove : ConnMove s t c p p' f) (conn : TcpConn)
    (hdone : conn.pipeDone = true) :
    (f conn).pipeDone = true := by
  cases hmove <;> first | exact hdone | rfl

/-- `closeWrite` and `abort` never reopen what `cut` looks at. -/
theorem ConnMove.cut (hmove : ConnMove s t c p p' f) (hcut : (s.conns c).cut) :
    (f (s.conns c)).cut := by
  obtain hdone | hle := hcut
  · exact .inl (hmove.pipeDone _ hdone)
  · exact .inr ((hmove.state .task).receiveClosed_le (by simp) hle)

end

section
variable (p : TcpPcb)

@[simp] theorem TcpPcb.use_stream (u : PcbUse) : (p.use u).stream = p.stream := by
  unfold TcpPcb.use; split <;> rfl

@[simp] theorem TcpPcb.abandon_stream : p.abandon.stream = p.stream := by
  unfold TcpPcb.abandon
  split
  · rw [TcpPcb.use_stream]
  · rfl

@[simp] theorem TcpPcb.tcp_close_stream : p.tcp_close.stream = p.stream := by
  unfold TcpPcb.tcp_close
  split
  · rw [TcpPcb.use_stream]
  · rfl

@[simp] theorem TcpPcb.shutdownRx_stream : p.shutdownRx.stream = p.stream := by
  unfold TcpPcb.shutdownRx
  split
  · rw [TcpPcb.use_stream]
  · rfl

@[simp] theorem TcpPcb.shutdownTx_stream (finSent : Bool) :
    (p.shutdownTx finSent).stream = p.stream := by
  unfold TcpPcb.shutdownTx
  split
  · rw [TcpPcb.use_stream]
  · split
    · split <;> rfl
    · rfl

@[simp] theorem TcpPcb.tcp_write_stream (data : List UInt8) :
    (p.tcp_write data).stream = p.stream := by
  unfold TcpPcb.tcp_write
  split
  · rw [TcpPcb.use_stream, TcpPcb.use_stream]
  · rfl

end

section
variable {s : Stack} {t : Tid} {c : ConnId} {a : Act} {p p' : Proc} {f : TcpPcb → TcpPcb}
  {g : TcpConn → TcpConn} (hmove : PcbMove s t c a p p' f g)
include hmove

theorem PcbMove.stream (pcb : TcpPcb) : (f pcb).stream = pcb.stream := by
  cases hmove <;> simp

theorem PcbMove.refused_data (pcb : TcpPcb) : (f pcb).refused_data = pcb.refused_data := by
  cases hmove <;> simp

theorem PcbMove.readBytes (conn : TcpConn) : (g conn).readBytes = conn.readBytes := by
  cases hmove <;> rfl

theorem PcbMove.cut (conn : TcpConn) (hcut : conn.cut) : (g conn).cut := by
  cases hmove <;> exact hcut

end

private theorem Stack.cut_of_task {s : Stack} {c : ConnId} {k : Task} (hholder : s.holder = .task k)
    (hconn : k.conn = c) (hstart : k.stage ≠ .pipeStart)
    (hwrite : ∀ rest n, k.stage ≠ .pipeWrite rest n) :
    s.cut c ↔ (s.conns c).cut := by
  simp only [Stack.cut, hholder, if_pos hconn]

private theorem Stack.methodRet_not_about (s : Stack) (k : Task) (e : Option LwipError) (c : ConnId) :
    ¬(s.methodRet k e).holder.about c := by
  unfold Stack.methodRet Stack.recvRet
  split <;> (try split) <;> simp [Holder.about]

/-- The places at which the data, if there was any, is read, refused or dropped. -/
def Stage.done : Stage → Bool
  | .receiveCheck | .pipeStart | .pipeWrite _ _ | .ret (some .LWIP_ERR_CONN) => false
  | _ => true

private theorem Task.pending_of_done {k : Task} (hdone : k.stage.done = true) : k.pending = [] := by
  unfold Task.pending
  split <;> simp_all [Stage.done]

private theorem Stack.cut_of_done {s : Stack} {c : ConnId} {k : Task} (hholder : s.holder = .task k)
    (hconn : k.conn = c) (hdone : k.stage.done = true) : s.cut c ↔ (s.conns c).cut := by
  refine Stack.cut_of_task hholder hconn ?_ ?_
  · intro hstage
    rw [hstage] at hdone
    cases hdone
  · intro rest n hstage
    rw [hstage] at hdone
    cases hdone

private theorem Holder.pending_of_task {k : Task} {c : ConnId} (hconn : k.conn = c) :
    (Holder.task k).pending c = k.pending := if_pos hconn

namespace UploadInv

section
variable {s s' : Stack} {c : ConnId} (hinv : UploadInv s c)
include hinv

/-- Code that takes `lwipMutex` for `c`, with `extra` bytes that lwIP hands over. -/
theorem start {k : Task} (hbefore : ¬s.holder.about c) (hholder : s'.holder = .task k)
    (hconn : k.conn = c)
    (hstage : k.stage = .receiveCheck ∨ k.stage = .setLocalClosed ∨ k.stage = .isClosed)
    (hconns : s'.conns c = s.conns c) (extra : List UInt8)
    (hstream : (s'.pcbs c).stream = (s.pcbs c).stream ++ extra)
    (hbytes : k.pending ++ (s'.pcbs c).refusedBytes = (s.pcbs c).refusedBytes ++ extra)
    (hrefused : k.caller.method = .Receive → (s'.pcbs c).refused_data = none) : UploadInv s' c := by
  have hcut : s'.cut c ↔ (s'.conns c).cut := by
    refine Stack.cut_of_task hholder hconn ?_ ?_ <;> obtain h | h | h := hstage <;> simp [h]
  constructor
  · rw [Stack.whole, hholder, Holder.pending_of_task hconn, hstream, hconns, hcut, hconns]
    obtain hwhole | ⟨hpre, hold⟩ := hinv.fate
    · left
      rw [hwhole, Holder.pending_of_not_about hbefore, List.append_nil, List.append_assoc, ← hbytes,
        List.append_assoc]
    · right
      exact ⟨hpre.trans (List.prefix_append _ _), (Stack.cut_of_not_about hbefore).mp hold⟩
  · intro k' hk' _ hmethod
    cases hholder.symm.trans hk'
    exact hrefused hmethod

theorem callback {a : Act} {owner : Option Tid} {caller : Caller} {stage : Stage}
    {f : TcpPcb → TcpPcb} (hcb : CbStart (s.pcbs c) c owner a caller stage f) (hok : InOrder s a)
    (hholder : s.holder = .lwip owner) :
    UploadInv ((s.modPcb c f).setHolder (.task ⟨caller, c, stage⟩)) c := by
  have hbefore : ¬s.holder.about c := Stack.not_about_lwip hholder c
  cases hcb with
  | recv p =>
    have hnone : (s.pcbs c).refused_data = none := hok.1
    refine hinv.start hbefore rfl rfl (.inl rfl) rfl p.data (by simp) ?_ ?_
    · simp [Task.pending, Stack.taskData, TcpPcb.refusedBytes, hnone]
    · simp [hnone]
  | recvFin =>
    refine hinv.start hbefore rfl rfl (.inr (.inl rfl)) rfl [] (by simp) ?_ ?_
    · simp [Task.pending, TcpPcb.refusedBytes]
    · simp [Caller.method]
  | refused hrefused =>
    refine hinv.start hbefore rfl rfl (.inl rfl) rfl [] (by simp [TcpPcb.takeRefused]) ?_ ?_
    · simp [Task.pending, Stack.taskData, TcpPcb.refusedBytes, TcpPcb.takeRefused, hrefused]
    · simp [TcpPcb.takeRefused]
  | sent | poll =>
    refine hinv.start hbefore rfl rfl (.inr (.inr rfl)) rfl [] (by simp) ?_ ?_
    · simp [Task.pending]
    · simp [Caller.method]

/-- The code that holds `lwipMutex` only moves on. -/
theorem move {k : Task} {stage : Stage} (hholder : s.holder = .task k) (hconn : k.conn = c)
    (hmove : TaskMove s k k.stage stage) : UploadInv (s.goto k stage) c := by
  have hreceiving (k' : Task) (hk' : (s.goto k stage).holder = .task k') (_ : k'.conn = c)
      (hmethod : k'.caller.method = .Receive) :
      ∃ k, s.holder = .task k ∧ k.conn = c ∧ k.caller.method = .Receive := by
    cases hk'
    exact ⟨k, hholder, hconn, hmethod⟩
  have hpending : s.holder.pending c = k.pending := by rw [hholder, Holder.pending_of_task hconn]
  have hpending' : (s.goto k stage).holder.pending c = ({ k with stage } : Task).pending :=
    Holder.pending_of_task (k := { k with stage }) hconn
  have hframe (hsame : ({ k with stage } : Task).pending = k.pending)
      (hcut : s.cut c → (s.goto k stage).cut c) :
      UploadInv (s.goto k stage) c :=
    hinv.frame rfl rfl (by rw [hpending', hpending, hsame]) rfl hcut hreceiving
  have hlost (hcut : (s.goto k stage).cut c) : UploadInv (s.goto k stage) c :=
    hinv.of_cut rfl rfl hcut fun k' hk' hconn' hmethod =>
      let ⟨k₀, hk₀, hconn₀, hmethod₀⟩ := hreceiving k' hk' hconn' hmethod
      hinv.receiving k₀ hk₀ hconn₀ hmethod₀
  generalize hstage : k.stage = here at hmove
  subst hconn
  cases hmove with
  | receiveOk hstate =>
    -- the state lets data in, so only the pipe can be what cuts the stream
    refine hframe (by simp [Task.pending, hstage, Stack.taskData]) fun hcut => ?_
    rw [Stack.cut_of_task hholder rfl (by simp [hstage]) (by simp [hstage])] at hcut
    obtain hdone | hle := hcut
    · simpa [Stack.cut] using hdone
    · obtain h | h := hstate <;> rw [h] at hle <;> exact absurd hle (by decide)
  | receiveConn hstate =>
    refine hframe (by simp [Task.pending, hstage, Stack.taskData]) fun hcut => ?_
    rw [Stack.cut_of_task hholder rfl (by simp [hstage]) (by simp [hstage])] at hcut
    simpa [Stack.cut] using hcut
  | receiveClsd hstate =>
    refine hlost ?_
    have hle : .tcpReceiveClosed ≤ (s.conns k.conn).state := by
      obtain h | h | h | h := hstate <;> rw [h] <;> decide
    have hcut : (s.conns k.conn).cut := .inr hle
    simpa [Stack.cut] using hcut
  | pipeClosed hdone | pipeBroken hdone =>
    refine hlost ?_
    have hcut : (s.conns k.conn).cut := .inl hdone
    simpa [Stack.cut] using hcut
  | pipeOpen hdone =>
    refine hframe (by simp [Task.pending, hstage, Stack.taskData]) fun hcut => ?_
    simp [Stack.cut, hholder, hstage, hdone] at hcut
  | isClosed _ | notClosed _ | notClosing _ | notAborting _ =>
    refine hframe (by simp [Task.pending, hstage]) fun hcut => ?_
    rw [Stack.cut_of_task hholder rfl (by simp [hstage]) (by simp [hstage])] at hcut
    simpa [Stack.cut] using hcut

/-- The pipe hands bytes to a reader. -/
theorem pipe {t : Tid} {k : Task} {rest : List UInt8} {n m : Nat} {stage : Stage}
    (hholder : s.holder = .task k) (hconn : k.conn = c) (hstage : k.stage = .pipeWrite rest n)
    (hnext : stage = if rest.drop m = [] then .recved (n + m)
      else .pipeWrite (rest.drop m) (n + m)) :
    UploadInv ((((s.modConn k.conn fun conn =>
      { conn with readBytes := conn.readBytes ++ rest.take m }).setProc t .idle).record fun e =>
        { e with piped := e.piped + m }).goto k stage) c := by
  subst hconn
  have hwhole : s.whole k.conn := by
    obtain hwhole | ⟨-, hcut⟩ := hinv.fate
    · exact hwhole
    · simp [Stack.cut, hholder, hstage] at hcut
  have hpending : s.holder.pending k.conn = rest := by
    rw [hholder, Holder.pending_of_task rfl, Task.pending, hstage]
  constructor
  · left
    rw [Stack.whole, hpending] at hwhole
    rw [Stack.whole, Stack.goto_holder, Holder.pending_of_task rfl]
    have hrest : ({ k with stage } : Task).pending = rest.drop m := by
      by_cases hdrop : rest.drop m = []
      · rw [if_pos hdrop] at hnext
        rw [hnext, hdrop]
        rfl
      · rw [if_neg hdrop] at hnext
        rw [hnext]
        rfl
    rw [hrest]
    simp only [Stack.goto_pcbs, Stack.record_pcbs, Stack.setProc_pcbs, Stack.modConn_pcbs,
      Stack.goto_conns, Stack.record_conns, Stack.setProc_conns, Stack.modConn_conns, if_true, hwhole]
    rw [List.append_assoc _ (rest.take m), List.take_append_drop]
  · intro k' hk' _ hmethod
    cases hk'
    exact hinv.receiving k hholder rfl hmethod

/-- A method returns to its caller. -/
theorem ret {k : Task} {e : Option LwipError} (hok : TaskOk s k) (hholder : s.holder = .task k)
    (hconn : k.conn = c) (hstage : k.stage = .ret e)
    (htpcb : ∀ tpcb, k.caller.tpcb = some tpcb → k.conn = tpcb) :
    UploadInv (s.methodRet k e) c := by
  subst hconn
  have hcut : s.cut k.conn ↔ (s.conns k.conn).cut :=
    Stack.cut_of_task hholder rfl (by simp [hstage]) (by simp [hstage])
  have hpending : s.holder.pending k.conn = k.pending := by rw [hholder, Holder.pending_of_task rfl]
  have hframe {s' : Stack} (hholder' : ¬s'.holder.about k.conn)
      (hconns : s'.conns k.conn = s.conns k.conn)
      (hstream : (s'.pcbs k.conn).stream = (s.pcbs k.conn).stream)
      (hbytes : (s'.pcbs k.conn).refusedBytes = k.pending ++ (s.pcbs k.conn).refusedBytes) :
      UploadInv s' k.conn := by
    constructor
    · rw [Stack.whole, hstream, hconns, Holder.pending_of_not_about hholder', hbytes,
        Stack.cut_of_not_about hholder', hconns, List.append_nil, ← List.append_assoc, ← hcut,
          ← hpending]
      exact hinv.fate
    · intro k' hk' hconn' _
      rw [hk'] at hholder'
      exact absurd hconn' hholder'
  cases hcaller : k.caller with
  | recv tpcb p owner =>
    have hself : k.conn = tpcb := htpcb tpcb (by rw [hcaller]; rfl)
    cases p with
    | none =>
      have hdata : Stack.taskData k = [] := by rw [Stack.taskData, hcaller]
      simp only [Stack.methodRet, hcaller]
      refine hframe (Stack.not_about_lwip rfl _) rfl rfl ?_
      simp only [Task.pending, hstage]
      split <;> simp_all
    | some p =>
      have hmethod : k.caller.method = .Receive := by rw [hcaller]; rfl
      have hnone := hinv.receiving k hholder rfl hmethod
      have hdata : Stack.taskData k = p.data := by rw [Stack.taskData, hcaller]
      simp only [Stack.methodRet, hcaller, Stack.recvRet]
      obtain rfl | rfl | rfl := hok.receiveRet e hstage hmethod
      · refine hframe (Stack.not_about_lwip rfl _) rfl ?_ ?_
        · simp [hself]
        · simp [← hself, TcpPcb.refusedBytes, Task.pending, hstage, hdata, hnone]
      · refine hframe (Stack.not_about_lwip rfl _) rfl ?_ ?_
        · simp [hself]
        · have hrefused : ((s.pcbs k.conn).use .tcp_recved).shutdownRx.refused_data = none :=
            TcpPcb.shutdownRx_refused_data (by simp [hnone])
          simp [← hself, TcpPcb.refusedBytes, Task.pending, hstage, hnone, hrefused]
      · refine hframe (Stack.not_about_lwip rfl _) rfl rfl ?_
        simp [Task.pending, hstage, TcpPcb.refusedBytes, hnone]
  | sent tpcb owner | poll tpcb owner | abort t =>
    have hdata : Stack.taskData k = [] := by rw [Stack.taskData, hcaller]
    simp only [Stack.methodRet, hcaller]
    refine hframe (by simp [Holder.about]) rfl rfl ?_
    simp only [Task.pending, hstage]
    split <;> simp_all

end

/-- A task of another connection goes on. -/
theorem task_aside {s s' : Stack} {c : ConnId} (hinv : UploadInv s c) {k : Task}
    (hholder : s.holder = .task k) (hconn : k.conn ≠ c) (hafter : ¬s'.holder.about c)
    (hconns : s'.conns c = s.conns c) (hpcbs : s'.pcbs c = s.pcbs c) : UploadInv s' c := by
  refine hinv.aside ?_ hafter (by rw [hpcbs]) (by rw [hpcbs]) (by rw [hconns])
    (by rw [hconns]; exact id)
  rw [hholder]
  exact hconn

/-- The code of `c` goes on with nothing left to hand over. -/
theorem onward {s s' : Stack} {c : ConnId} (hinv : UploadInv s c) {k k' : Task}
    (hholder : s.holder = .task k) (hconn : k.conn = c) (hdone : k.stage.done = true)
    (hholder' : s'.holder = .task k') (hconn' : k'.conn = c) (hdone' : k'.stage.done = true)
    (hcaller : k'.caller = k.caller) (hstream : (s'.pcbs c).stream = (s.pcbs c).stream)
    (hrefused : (s'.pcbs c).refused_data = (s.pcbs c).refused_data)
    (hread : (s'.conns c).readBytes = (s.conns c).readBytes)
    (hcut : (s.conns c).cut → (s'.conns c).cut) : UploadInv s' c := by
  refine hinv.frame hstream hread ?_ hrefused ?_ ?_
  · rw [hholder, hholder', Holder.pending_of_task hconn, Holder.pending_of_task hconn',
      Task.pending_of_done hdone, Task.pending_of_done hdone']
  · rw [Stack.cut_of_done hholder hconn hdone, Stack.cut_of_done hholder' hconn' hdone']
    exact hcut
  · intro k₁ hk₁ _ hmethod
    cases hholder'.symm.trans hk₁
    exact ⟨k, hholder, hconn, hcaller ▸ hmethod⟩

/-- `closeInternal`, `abortInternal` and `Err` close the pipe for good. -/
theorem released {s s' : Stack} {c : ConnId} (hinv : UploadInv s c)
    (hconn : s'.conns c = (s.release c).conns c ∨
      s'.conns c = { (s.release c).conns c with state := .tcpErrored })
    (hstream : (s'.pcbs c).stream = (s.pcbs c).stream) (hrefused : (s'.pcbs c).refused_data = none)
    (hcut : s'.cut c ↔ (s'.conns c).cut) : UploadInv s' c := by
  refine hinv.of_cut hstream ?_ (hcut.mpr (.inl ?_)) fun _ _ _ _ => hrefused
  · obtain h | h := hconn <;> rw [h, Stack.release_conns, if_pos rfl]
  · obtain h | h := hconn <;> rw [h, Stack.release_conns, if_pos rfl] <;> rfl

/-- Every section keeps the bytes in order. -/
theorem step {s s' : Stack} {a : Act} {c : ConnId} (htask : TaskInv s) (hbounds : Bounds s)
    (hown : Owned s) (hinv : UploadInv s c) (hok : InOrder s a) (hsec : Section s a s') :
    UploadInv s' c := by
  cases hsec with
  | lwipLock hholder =>
    exact hinv.aside (Stack.not_about_free hholder c) (Stack.not_about_lwip rfl c) rfl rfl rfl id
  | lwipUnlock hholder | procUnlock hholder =>
    exact hinv.aside (Stack.not_about_lwip hholder c) (Stack.not_about_free rfl c) rfl rfl rfl id
  | @accept key owner hholder =>
    by_cases hc : c = s.accepted
    · subst hc
      refine ⟨.inl ?_, fun k hk => by cases hk⟩
      simp [Stack.whole, Holder.pending, TcpPcb.refusedBytes, newConn, newPcb]
    · refine hinv.aside (Stack.not_about_lwip hholder c) (Ne.symm hc) ?_ ?_ ?_ ?_ <;>
        simp [hc]
  | @acceptDone t c' owner hholder hidle =>
    by_cases hc : c' = c
    · subst hc
      have hwhole : s.whole c' := by
        obtain hwhole | ⟨-, hcut⟩ := hinv.fate
        · exact hwhole
        · simp [Stack.cut, hholder] at hcut
      refine ⟨.inl ?_, fun k hk => by cases hk⟩
      simpa [Stack.whole, Holder.pending, hholder] using hwhole
    · have hbefore : ¬s.holder.about c := by
        rw [hholder]
        exact hc
      refine hinv.aside hbefore (Stack.not_about_lwip rfl c) rfl rfl ?_ ?_ <;>
        simp [Ne.symm hc]
  | @cbFound a c' found owner caller stage f hcb hholder hlive hfound =>
    obtain rfl := Option.some.inj ((hown.lookup_live hlive).symm.trans hfound)
    by_cases hc : c' = c
    · subst hc
      exact hinv.callback hcb hok hholder
    · refine hinv.aside (Stack.not_about_lwip hholder c) hc ?_ ?_ rfl id <;>
        simp [Ne.symm hc]
  | cbUnknown hcb hholder hlive hnone => exact (hown.not_unknown hbounds hnone (.inl hlive)).elim
  | @procFound t c' found p hproc hholder hrefused hfound =>
    have hlookup := hown.lookup_refused (hbounds.procs t c' (by rw [hproc]; rfl)) hrefused
    obtain rfl := Option.some.inj (hlookup.symm.trans hfound)
    by_cases hc : c' = c
    · subst hc
      refine hinv.start (Stack.not_about_free hholder c') rfl rfl (.inl rfl) rfl [] ?_ ?_ ?_
      · simp [TcpPcb.takeRefused]
      · simp [Task.pending, Stack.taskData, TcpPcb.refusedBytes, TcpPcb.takeRefused, hrefused]
      · simp [TcpPcb.takeRefused]
    · refine hinv.aside (Stack.not_about_free hholder c) hc ?_ ?_ rfl id <;>
        simp [Ne.symm hc]
  | procUnknown hproc hholder hrefused hnone =>
    exact (hown.not_unknown hbounds hnone (.inr ⟨_, _, hproc, hrefused⟩)).elim
  | @errFound c' found code owner hholder hlive hfound =>
    obtain rfl := Option.some.inj ((hown.lookup_live hlive).symm.trans hfound)
    by_cases hc : c' = c
    · subst hc
      refine hinv.released (.inr (by rw [Stack.Err_conns, if_pos rfl]; rfl)) (by simp) ?_
        (Stack.cut_of_not_about (Stack.not_about_lwip hholder _))
      simpa using TcpPcb.abandon_refused_data (hown.refused c')
    · refine hinv.aside (Stack.not_about_lwip hholder c) (Stack.not_about_lwip hholder c)
        ?_ ?_ ?_ ?_ <;>
        simp [Ne.symm hc]
  | errUnknown hholder hlive hnone => exact (hown.not_unknown hbounds hnone (.inl hlive)).elim
  | @tcp c' tcb owner hholder =>
    refine hinv.aside (Stack.not_about_lwip hholder c) (Stack.not_about_lwip hholder c)
      ?_ ?_ rfl id <;>
      simp only [Stack.modPcb_pcbs] <;> split <;> simp [*]
  | @task k stage hholder hmove =>
    by_cases hc : k.conn = c
    · exact hinv.move hholder hc hmove
    · exact hinv.task_aside hholder hc hc rfl rfl
  | @receiveErrored k hholder hstage hstate | @aborting k hholder hstage hstate =>
    rw [Stack.abortInternal_eq]
    by_cases hc : k.conn = c
    · subst hc
      refine hinv.released (.inl (by simp)) (by simp) ?_
        (Stack.cut_of_task rfl rfl (by simp) (by simp))
      simpa using TcpPcb.abandon_refused_data (hown.refused k.conn)
    · exact hinv.task_aside hholder hc hc (by simp [Ne.symm hc]) (by simp [Ne.symm hc])
  | @closing k hholder hstage hstate =>
    by_cases hc : k.conn = c
    · subst hc
      refine hinv.released (.inl (by simp [Stack.closeInternal])) (by simp [Stack.closeInternal]) ?_
        (Stack.cut_of_task rfl rfl (by simp) (by simp))
      simpa [Stack.closeInternal] using TcpPcb.tcp_close_refused_data (hown.refused k.conn)
    · exact hinv.task_aside hholder hc hc (by simp [Stack.closeInternal, Ne.symm hc])
        (by simp [Stack.closeInternal, Ne.symm hc])
  | @recved k n hholder hstage =>
    by_cases hc : k.conn = c
    · subst hc
      exact hinv.onward hholder rfl (by rw [hstage]; rfl) rfl rfl rfl rfl (by simp) (by simp) rfl id
    · exact hinv.task_aside hholder hc hc rfl (by simp [Ne.symm hc])
  | @localClosed k hholder hstage =>
    obtain ⟨hsame, -⟩ | ⟨hclosed, hlt⟩ := s.setLocalClosed_cases k.conn
    · rw [hsame]
      by_cases hc : k.conn = c
      · exact hinv.onward hholder hc (by rw [hstage]; rfl) rfl hc rfl rfl rfl rfl rfl id
      · exact hinv.task_aside hholder hc hc rfl rfl
    · rw [hclosed]
      by_cases hc : k.conn = c
      · subst hc
        refine hinv.onward hholder rfl (by rw [hstage]; rfl) rfl rfl rfl rfl rfl rfl
          (by simp) fun _ => .inl ?_
        simp [TcpConn.pipeDone]
      · exact hinv.task_aside hholder hc hc (by simp [Ne.symm hc]) rfl
  | @broadcast k hholder hstage =>
    by_cases hc : k.conn = c
    · subst hc
      exact hinv.onward hholder rfl (by rw [hstage]; rfl) rfl rfl rfl rfl rfl rfl rfl id
    · exact hinv.task_aside hholder hc hc rfl rfl
  | @ret k e hholder hstage =>
    by_cases hc : k.conn = c
    · exact hinv.ret (htask k hholder) hholder hc hstage fun tpcb => hown.tpcb k tpcb hholder
    · have hpcbs : (s.methodRet k e).pcbs c = s.pcbs c :=
        Stack.methodRet_pcbs_of_ne fun htpcb => hc (hown.tpcb k c hholder htpcb)
      exact hinv.task_aside hholder hc (Stack.methodRet_not_about _ _ _ _) (by simp) hpcbs
  | proc hmove => exact hinv.beside rfl rfl rfl id id
  | @conn t c' p' f hmove =>
    by_cases hc : c' = c
    · subst hc
      refine hinv.beside rfl rfl ?_ ?_ ?_ <;>
        simp only [Stack.setProc_conns, Stack.modConn_conns, if_true]
      · exact hmove.readBytes _
      · exact hmove.pipeDone _
      · exact hmove.cut
    · refine hinv.beside rfl rfl ?_ ?_ ?_ <;> simp [Ne.symm hc]
  | @pcb a t c' p' f g hholder hmove =>
    by_cases hc : c' = c
    · subst hc
      refine hinv.aside (Stack.not_about_free hholder c') (Stack.not_about_free hholder c')
        ?_ ?_ ?_ ?_ <;>
        simp only [Stack.setProc_pcbs, Stack.setProc_conns, Stack.modConn_pcbs, Stack.modConn_conns,
          Stack.modPcb_pcbs, Stack.modPcb_conns, if_true]
      · exact hmove.stream _
      · exact hmove.refused_data _
      · exact hmove.readBytes _
      · exact hmove.cut _
    · refine hinv.aside (Stack.not_about_free hholder c) (Stack.not_about_free hholder c)
        ?_ ?_ ?_ ?_ <;>
        simp [Ne.symm hc]
  | @abortLwip t c' hproc hholder =>
    by_cases hc : c' = c
    · subst hc
      refine hinv.start (Stack.not_about_free hholder c') rfl rfl (.inr (.inr rfl)) rfl [] ?_ ?_ ?_
      · simp
      · simp [Task.pending]
      · simp [Caller.method]
    · exact hinv.aside (Stack.not_about_free hholder c) hc rfl rfl rfl id
  | @pipe t k len rest n stage hholder hstage hproc hnext =>
    by_cases hc : k.conn = c
    · exact hinv.pipe hholder hc hstage hnext
    · exact hinv.task_aside hholder hc hc (by simp [Ne.symm hc]) rfl

end UploadInv

end tun2proxy.core
