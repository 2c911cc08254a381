import Tun2Proxy.Tcp.Late

open tun2proxy.machine tun2proxy.machine.Machine

namespace tun2proxy.core

/-- A call of `tcp_write`: the goroutine, the bytes it passes, `snd_buf` at that
    time and what lwIP returns. -/
structure TcpWrite where
  tid : Tid
  data : List UInt8
  snd_buf : UInt16
  res : ErrT
  deriving DecidableEq, Repr

/-- The bytes of the call that lwIP takes into its queue. -/
def TcpWrite.accepted (w : TcpWrite) : List UInt8 := if w.res = .ERR_OK then w.data else []

namespace Stack

/-- The call of `tcp_write` on the pcb of `c` in this section, if it makes one. -/
def tcpWrite (s : Stack) (c : ConnId) : Act → Option TcpWrite
  | .write t snd_buf res =>
    match s.procs t with
    | .write c' .lwip data _ =>
      let toWrite := min data.length snd_buf.toNat
      if c' = c ∧ toWrite ≠ 0 then some ⟨t, data.take toWrite, snd_buf, res⟩ else none
    | _ => none
  | _ => none

/-- All calls of `tcp_write` on the pcb of `c` in a schedule. -/
def tcpWrites (c : ConnId) : Stack → List Act → List TcpWrite
  | _, [] => []
  | s, a :: rest =>
    (s.tcpWrite c a).toList ++ ((s.step a).elim [] fun s' => tcpWrites c s' rest)

theorem tcpWrites_cons {c : ConnId} {s mid : Stack} {a : Act} (hstep : s.step a = some mid)
    (rest : List Act) :
    s.tcpWrites c (a :: rest) = (s.tcpWrite c a).toList ++ mid.tcpWrites c rest := by
  rw [tcpWrites, hstep]
  rfl

private theorem tcpWrite_lwip {s : Stack} {t : Tid} {c : ConnId} {data : List UInt8} {n : Nat}
    (hproc : s.procs t = .write c .lwip data n) (snd_buf : UInt16) (res : ErrT) :
    s.tcpWrite c (.write t snd_buf res) =
      if min data.length snd_buf.toNat ≠ 0 then
        some ⟨t, data.take (min data.length snd_buf.toNat), snd_buf, res⟩
      else none := by
  simp only [tcpWrite, hproc, true_and]

private theorem tcpWrite_eq {s : Stack} {c : ConnId} {a : Act} {w : TcpWrite}
    (hcall : s.tcpWrite c a = some w) :
    ∃ data n, s.procs w.tid = .write c .lwip data n ∧ a = .write w.tid w.snd_buf w.res ∧
      min data.length w.snd_buf.toNat ≠ 0 ∧ w.data = data.take (min data.length w.snd_buf.toNat) := by
  unfold tcpWrite at hcall
  split at hcall
  · split at hcall
    · rename_i c' data n hproc
      obtain ⟨⟨rfl, hpos⟩, hw⟩ := Option.ite_none_right_eq_some.mp hcall
      cases hw
      exact ⟨data, n, hproc, rfl, hpos, rfl⟩
    · cases hcall
  · cases hcall

end Stack

/-- The chunk is not empty and fits the send buffer, so that converting its length
    to `u16_t` loses nothing. -/
structure TcpWrite.Fits (w : TcpWrite) : Prop where
  nonempty : w.data ≠ []
  length_le : w.data.length ≤ w.snd_buf.toNat
  length_cast : (UInt16.ofNat w.data.length).toNat = w.data.length

private theorem Stack.tcpWrite_fits {s : Stack} {c : ConnId} {a : Act} {w : TcpWrite}
    (hcall : s.tcpWrite c a = some w) : w.Fits := by
  obtain ⟨data, n, -, -, hpos, hdata⟩ := Stack.tcpWrite_eq hcall
  have hlength : w.data.length = min data.length w.snd_buf.toNat := by
    rw [hdata, List.length_take]
    omega
  have hle : w.data.length ≤ w.snd_buf.toNat := by omega
  refine ⟨?_, hle, ?_⟩
  · intro hnil
    rw [hnil] at hlength
    exact hpos hlength.symm
  · exact UInt16.toNat_ofNat_of_lt' (Nat.lt_of_le_of_lt hle w.snd_buf.toNat_lt)

private theorem Stack.tcpWrites_fits {c : ConnId} {acts : List Act} :
    ∀ {s : Stack}, ∀ w ∈ s.tcpWrites c acts, w.Fits := by
  induction acts with
  | nil =>
    intro s w hw
    cases hw
  | cons a rest ih =>
    intro s w hw
    rw [Stack.tcpWrites, List.mem_append, Option.mem_toList] at hw
    obtain hnow | hlater := hw
    · exact Stack.tcpWrite_fits hnow
    · cases hstep : s.step a with
      | none =>
        rw [hstep] at hlater
        cases hlater
      | some s' =>
        rw [hstep] at hlater
        exact ih w hlater

/-- How far a `Write` of `data` is, when lwIP has accepted `sent` from it. -/
inductive WriteProgress (c : ConnId) (data sent : List UInt8) : Proc → Prop where
  | writing {pos : WriteAt} {n : Nat} (hn : n ≤ data.length) (hsent : sent = data.take n) :
      WriteProgress c data sent (.write c pos (data.drop n) n)
  | wrote {n : Nat} {err : Option GoError} (hn : n ≤ data.length) (hsent : sent = data.take n)
      (herr : n = data.length ↔ err = none) :
      WriteProgress c data sent (.wrote c n err)

/-- What the call of `tcp_write` in this section, if goroutine `t` makes it, adds
    to the queue of the pcb of `c`. -/
def Stack.sentBy (s : Stack) (t : Tid) (c : ConnId) (a : Act) : List UInt8 :=
  ((s.tcpWrite c a).toList.filter fun w => w.tid = t).flatMap TcpWrite.accepted

/-- Only the section of `t` under `lwipMutex` calls `tcp_write` for it. -/
theorem Stack.sentBy_eq_nil {s : Stack} {t : Tid} {c : ConnId} {a : Act}
    (hother : ∀ data n, s.procs t = .write c .lwip data n →
      ∀ snd_buf res, a ≠ .write t snd_buf res) :
    s.sentBy t c a = [] := by
  unfold Stack.sentBy
  cases hcall : s.tcpWrite c a with
  | none => rfl
  | some w =>
    have hne : w.tid ≠ t := by
      rintro rfl
      obtain ⟨data, n, hproc, hact, -⟩ := Stack.tcpWrite_eq hcall
      exact hother data n hproc _ _ hact
    simp [hne]

namespace WriteProgress

variable {c : ConnId} {data sent : List UInt8}

/-- The section of `Write` under `lwipMutex`. -/
theorem section_step {s : Stack} {t : Tid} {n : Nat} {snd_buf : UInt16} {res : ErrT}
    (hproc : s.procs t = .write c .lwip (data.drop n) n) (hn : n ≤ data.length)
    (hsent : sent = data.take n) :
    WriteProgress c data (sent ++ s.sentBy t c (.write t snd_buf res))
      ((s.writeSection t c (data.drop n) n snd_buf res).procs t) := by
  generalize hm : min (data.drop n).length snd_buf.toNat = m
  have hmle : n + m ≤ data.length := by
    rw [List.length_drop] at hm
    omega
  by_cases hzero : m = 0
  · have hcall : s.sentBy t c (.write t snd_buf res) = [] := by
      rw [Stack.sentBy, Stack.tcpWrite_lwip hproc, hm, if_neg (not_not.mpr hzero)]
      rfl
    simp only [Stack.writeSection, hm, hzero, if_true, Stack.setProc_procs, hcall, List.append_nil]
    exact .writing hn hsent
  · have hcall : s.sentBy t c (.write t snd_buf res) =
        if res = .ERR_OK then (data.drop n).take m else [] := by
      rw [Stack.sentBy, Stack.tcpWrite_lwip hproc, hm, if_pos hzero]
      simp [TcpWrite.accepted]
    have hlt : n < data.length := by omega
    simp only [Stack.writeSection, hm, hzero, if_false]
    cases res with
    | ERR_OK =>
      have hnext : sent ++ (data.drop n).take m = data.take (n + m) := by
        rw [hsent, List.take_add]
      simp only [hcall, if_true, hnext, List.drop_drop]
      by_cases hlast : data.drop (n + m) = []
      · have hall : n + m = data.length := by
          have := List.drop_eq_nil_iff.mp hlast
          omega
        simp only [hlast, if_true, Stack.setProc_procs]
        exact .wrote hmle rfl (by simp [hall])
      · simp only [hlast, if_false, Stack.setProc_procs, if_true]
        exact .writing hmle rfl
    | ERR_MEM =>
      simp only [hcall, Stack.setProc_procs, if_true, reduceCtorEq, if_false, List.append_nil]
      exact .writing hn hsent
    | _ =>
      simp only [hcall, Stack.setProc_procs, if_true, reduceCtorEq, if_false, List.append_nil]
      exact .wrote hn hsent (by simp [Nat.ne_of_lt hlt])

/-- The other sections that move a goroutine in `Write`. -/
theorem move_step {s s' : Stack} {t : Tid} {a : Act} {pos : WriteAt} {n : Nat}
    (hrunner : RunnerInv s) (hproc : s.procs t = .write c pos (data.drop n) n)
    (hn : n ≤ data.length) (hsent : sent = data.take n)
    (hact : ∀ snd_buf res, a ≠ .write t snd_buf res) (hstep : s.step a = some s') :
    WriteProgress c data sent (s'.procs t) := by
  have houtside : (s.procs t).inLwip = false := by
    rw [hproc]
    rfl
  have hmove := (Stack.step_section hstep).procs t
  generalize hp' : s'.procs t = p' at hmove
  rw [hproc] at hmove
  cases hmove with
  | same => exact .writing hn hsent
  | woken c' =>
    unfold Proc.wake
    split
    · rename_i heq
      cases heq
      exact .writing hn hsent
    · exact .writing hn hsent
  | own hown =>
    cases hown with
    | unlock hholder => exact absurd hholder (hrunner.not_unlock houtside)
    | aborted hholder hcaller _ => exact absurd hcaller (hrunner.not_abort houtside hholder)
    | proc hmove =>
      cases hmove with
      | writeCheck _ => exact .writing hn hsent
    | conn hrun hmove _ =>
      generalize hrest : data.drop n = rest at hmove hproc
      cases hmove with
      | writeLock _ | writeWait | writeWoken _ =>
        subst hrest
        exact .writing hn hsent
      | writeAll =>
        have hall := List.drop_eq_nil_iff.mp hrest
        exact .wrote hn hsent (by simp [Nat.le_antisymm hn hall])
      | @writeRefused _ _ e hcheck =>
        -- with nothing left to write the loop ends before `writeCheck`
        have hne : rest ≠ [] := by
          rintro rfl
          subst hrun
          simp only [Stack.step, Stack.procStep, hproc, if_true, Option.some.injEq] at hstep
          subst hstep
          simp at hp'
        have hlt : n ≠ data.length := by
          rintro rfl
          exact hne (hrest.symm.trans (List.drop_length))
        exact .wrote hn hsent (by simp [hlt])
    | pcb _ hmove => cases hmove <;> exact absurd rfl (hact _ _)

/-- A `Write` that has returned stays so. -/
theorem wrote_step {s s' : Stack} {t : Tid} {a : Act} {n : Nat} {err : Option GoError}
    (hrunner : RunnerInv s) (hproc : s.procs t = .wrote c n err) (hsec : Section s a s') :
    s'.procs t = .wrote c n err := by
  have houtside : (s.procs t).inLwip = false := by
    rw [hproc]
    rfl
  have hmove := hsec.procs t
  generalize s'.procs t = p' at hmove
  rw [hproc] at hmove
  cases hmove with
  | same | woken _ => rfl
  | own hown =>
    cases hown with
    | unlock hholder => exact absurd hholder (hrunner.not_unlock houtside)
    | aborted hholder hcaller _ => exact absurd hcaller (hrunner.not_abort houtside hholder)
    | proc hmove => cases hmove
    | conn _ hmove _ => cases hmove
    | pcb _ hmove => cases hmove

/-- A step of the machine, with what it adds to the queue. -/
theorem step {s s' : Stack} {t : Tid} {a : Act} (hrunner : RunnerInv s)
    (hinv : WriteProgress c data sent (s.procs t)) (hstep : s.step a = some s') :
    WriteProgress c data (sent ++ s.sentBy t c a) (s'.procs t) := by
  generalize hproc : s.procs t = p at hinv
  cases hinv with
  | @writing pos n hn hsent =>
    by_cases hact : ∃ snd_buf res, a = .write t snd_buf res
    · obtain ⟨snd_buf, res, rfl⟩ := hact
      cases pos with
      | lwip =>
        simp only [Stack.step, hproc, Option.ite_none_right_eq_some, Option.some.injEq] at hstep
        obtain ⟨-, rfl⟩ := hstep
        exact section_step hproc hn hsent
      | _ => simp [Stack.step, hproc] at hstep
    · have hother : ∀ snd_buf res, a ≠ .write t snd_buf res := fun snd_buf res heq =>
        hact ⟨snd_buf, res, heq⟩
      rw [Stack.sentBy_eq_nil fun _ _ _ => hother, List.append_nil]
      exact move_step hrunner hproc hn hsent hother hstep
  | @wrote n err hn hsent herr =>
    rw [Stack.sentBy_eq_nil (by simp [hproc]), List.append_nil,
      wrote_step hrunner hproc (Stack.step_section hstep)]
    exact .wrote hn hsent herr

end WriteProgress

/-- A whole run from a call of `Write`. -/
theorem WriteProgress.run {c : ConnId} {data : List UInt8} {t : Tid} {acts : List Act} :
    ∀ {s s' : Stack} {sent : List UInt8}, Reach tcpMachine any s →
      WriteProgress c data sent (s.procs t) → tcpMachine.run any s acts = some s' →
      WriteProgress c data
        (sent ++ ((s.tcpWrites c acts).filter fun w => w.tid = t).flatMap TcpWrite.accepted)
        (s'.procs t) := by
  induction acts with
  | nil =>
    intro s s' sent _ hinv hrun
    cases hrun
    simpa [Stack.tcpWrites] using hinv
  | cons a rest ih =>
    intro s s' sent hreach hinv hrun
    obtain ⟨-, hrun⟩ := Option.ite_none_right_eq_some.mp hrun
    obtain ⟨mid, hstep, hrun⟩ := Option.bind_eq_some_iff.mp hrun
    have hnext := ih (hreach.step trivial hstep) (hinv.step (reach_runner hreach) hstep) hrun
    rw [Stack.tcpWrites_cons hstep, List.filter_append, List.flatMap_append, ← List.append_assoc]
    exact hnext

/-! ### The queue of the pcb -/

/-- A pcb that lost neither itself nor any of its queue. -/
structure TcpPcb.QueueKept (p q : TcpPcb) : Prop where
  gone : q.gone = false → p.gone = false
  sndQueue : q.sndQueue = p.sndQueue

namespace TcpPcb.QueueKept

variable (p : TcpPcb)

theorem use (u : PcbUse) : QueueKept p (p.use u) := by
  unfold TcpPcb.use
  split <;> exact ⟨id, rfl⟩

theorem abandon : QueueKept p p.abandon := by
  unfold TcpPcb.abandon
  split
  · exact use p _
  · exact ⟨by simp, rfl⟩

theorem tcp_close : QueueKept p p.tcp_close := by
  unfold TcpPcb.tcp_close
  split
  · exact use p _
  · exact ⟨by simp, rfl⟩

theorem shutdownRx : QueueKept p p.shutdownRx := by
  unfold TcpPcb.shutdownRx
  split
  · exact use p _
  · exact ⟨id, rfl⟩

theorem shutdownTx (finSent : Bool) : QueueKept p (p.shutdownTx finSent) := by
  unfold TcpPcb.shutdownTx
  split
  · exact use p _
  · split
    · split <;> exact ⟨id, rfl⟩
    · exact ⟨id, rfl⟩

theorem refused :
    QueueKept p ((p.use .refused_data).use .tcp_process_refused_data).takeRefused :=
  ⟨fun h => (use p _).gone ((use _ _).gone h), (use _ _).sndQueue.trans (use p _).sndQueue⟩

variable {p} {q r : TcpPcb}

theorem trans (hpq : QueueKept p q) (hqr : QueueKept q r) : QueueKept p r :=
  ⟨fun h => hpq.gone (hqr.gone h), hqr.sndQueue.trans hpq.sndQueue⟩

end TcpPcb.QueueKept

theorem CbStart.queueKept {pcb : TcpPcb} {c : ConnId} {owner : Option Tid} {a : Act}
    {caller : Caller} {stage : Stage} {f : TcpPcb → TcpPcb}
    (hcb : CbStart pcb c owner a caller stage f) : pcb.QueueKept (f pcb) := by
  cases hcb <;> exact ⟨id, rfl⟩

/-- Sections without a successful `tcp_write` leave the queue alone. -/
theorem PcbStep.queueKept {s : Stack} {a : Act} {c : ConnId} {pcb pcb' : TcpPcb}
    (hstep : PcbStep s a c pcb pcb') (hc : c < s.accepted) (hcall : s.tcpWrite c a = none) :
    pcb.QueueKept pcb' := by
  cases hstep with
  | same | tcp _ | retConn _ _ _ _ => exact ⟨id, rfl⟩
  | accept _ heq => exact absurd heq (Nat.ne_of_lt hc)
  | callback hcb _ _ => exact hcb.queueKept
  | unknown hcb _ _ => exact hcb.queueKept.trans (.abandon _)
  | refused _ _ _ _ => exact .refused pcb
  | refusedUnknown _ _ _ => exact .trans (.refused pcb) (.abandon _)
  | err _ _ | abort _ _ _ => exact .abandon pcb
  | close _ _ _ _ => exact .tcp_close pcb
  | recved _ _ _ => exact .use pcb _
  | retClsd _ _ _ _ => exact .trans (.use pcb _) (.shutdownRx _)
  | @proc t p' f g hmove _ =>
    generalize hproc : s.procs t = p at hmove
    cases hmove with
    | noRefused _ | writeFull _ => exact .use pcb _
    | writeLast hpos _ | writePart hpos _ | writeMem hpos | writeErr hpos _ =>
      rw [Stack.tcpWrite_lwip hproc, if_pos hpos] at hcall
      cases hcall
    | shutdown => exact .shutdownTx pcb _

/-- What the section of `Write` does to the pcb when it calls `tcp_write`. -/
theorem Stack.writeSection_pcbs {s : Stack} {t : Tid} {c : ConnId} {data : List UInt8} {n : Nat}
    {snd_buf : UInt16} {res : ErrT} (hpos : min data.length snd_buf.toNat ≠ 0) :
    (s.writeSection t c data n snd_buf res).pcbs c =
      if res = .ERR_OK then
        ((s.pcbs c).use .snd_buf).tcp_write (data.take (min data.length snd_buf.toNat))
      else ((s.pcbs c).use .snd_buf).use .tcp_write := by
  simp only [Stack.writeSection, hpos, if_false]
  cases res with
  | ERR_OK =>
    simp only [if_true]
    split <;> simp [Stack.unlockWrite]
  | _ => simp [Stack.unlockWrite]

/-- While the pcb is not gone, its queue grows by what `tcp_write` accepts. -/
theorem sndQueue_step {s s' : Stack} {a : Act} {c : ConnId} (hc : c < s.accepted)
    (hstep : s.step a = some s') (hgone : (s'.pcbs c).gone = false) :
    (s.pcbs c).gone = false ∧
    (s'.pcbs c).sndQueue =
      (s.pcbs c).sndQueue ++ (s.tcpWrite c a).toList.flatMap TcpWrite.accepted := by
  cases hcall : s.tcpWrite c a with
  | none =>
    have hkept := ((Stack.step_section hstep).pcbs c).queueKept hc hcall
    exact ⟨hkept.gone hgone, by simp [hkept.sndQueue]⟩
  | some w =>
    obtain ⟨data, n, hproc, rfl, hpos, hdata⟩ := Stack.tcpWrite_eq hcall
    simp only [Stack.step, hproc, Option.ite_none_right_eq_some, Option.some.injEq] at hstep
    obtain ⟨-, rfl⟩ := hstep
    rw [Stack.writeSection_pcbs hpos] at hgone ⊢
    by_cases hres : w.res = .ERR_OK
    · simp only [hres, if_true, TcpPcb.tcp_write_gone, TcpPcb.use_gone] at hgone ⊢
      refine ⟨hgone, ?_⟩
      simp [TcpPcb.tcp_write, TcpPcb.use_eq hgone, hgone, TcpWrite.accepted, hres, hdata]
    · simp only [hres, if_false, TcpPcb.use_gone] at hgone ⊢
      refine ⟨hgone, ?_⟩
      simp [TcpPcb.use_eq hgone, TcpWrite.accepted, hres]

private theorem sndQueue_run {c : ConnId} {acts : List Act} :
    ∀ {s s' : Stack}, c < s.accepted → tcpMachine.run any s acts = some s' →
      (s'.pcbs c).gone = false →
      (s.pcbs c).gone = false ∧ (s'.pcbs c).sndQueue =
        (s.pcbs c).sndQueue ++ (s.tcpWrites c acts).flatMap TcpWrite.accepted := by
  induction acts with
  | nil =>
    intro s s' hc hrun hgone
    cases hrun
    simpa [Stack.tcpWrites] using hgone
  | cons a rest ih =>
    intro s s' hc hrun hgone
    obtain ⟨-, hrun⟩ := Option.ite_none_right_eq_some.mp hrun
    obtain ⟨mid, hstep, hrun⟩ := Option.bind_eq_some_iff.mp hrun
    have hle := (Stack.step_section hstep).life.accepted_le
    obtain ⟨hmid, hqueue⟩ := ih (Nat.lt_of_lt_of_le hc hle) hrun hgone
    obtain ⟨hold, hnow⟩ := sndQueue_step hc hstep hmid
    refine ⟨hold, ?_⟩
    rw [hqueue, hnow, Stack.tcpWrites_cons hstep, List.flatMap_append, List.append_assoc]

/-- From any reachable state, after a call of `Write` and any schedule at whose end it has
    returned `(n, err)`: what `tcp_write` accepted from it is the first `n` bytes of `data` in
    order, `n` is the whole length exactly for a nil error, and every chunk fits. If no other
    goroutine wrote to the connection meanwhile, the queue of a pcb that still exists grew by
    exactly these bytes. Nothing is assumed of `snd_buf`, of the answers of `tcp_write` or of
    other goroutines. -/
theorem write_fidelity (s : Stack) (h : Reach tcpMachine any s) (t : Tid) (c : ConnId)
    (data : List UInt8) (called s' : Stack) (acts : List Act) (n : Nat) (err : Option GoError)
    (hcall : s.step (.call t (.write c data)) = some called)
    (hrun : tcpMachine.run any called acts = some s') (hret : s'.procs t = .wrote c n err) :
    ((called.tcpWrites c acts).filter fun w => w.tid = t).flatMap TcpWrite.accepted = data.take n ∧
    n ≤ data.length ∧ (n = data.length ↔ err = none) ∧
    (∀ w ∈ called.tcpWrites c acts, w.Fits) ∧
    ((∀ w ∈ called.tcpWrites c acts, w.tid = t) → (s'.pcbs c).gone = false →
      (s'.pcbs c).sndQueue = (s.pcbs c).sndQueue ++ data.take n) := by
  have hcalled : called = s.setProc t (.write c .lock data 0) ∧ c < s.accepted := by
    simp only [Stack.step, Option.ite_none_right_eq_some, Option.some.injEq] at hcall
    exact ⟨hcall.2.symm, hcall.1.2.1⟩
  obtain ⟨rfl, hc⟩ := hcalled
  have hstart : WriteProgress c data [] ((s.setProc t (.write c .lock data 0)).procs t) := by
    simpa using WriteProgress.writing (Nat.zero_le data.length) rfl
  have hend := WriteProgress.run (h.step (a := .call t (.write c data)) trivial hcall) hstart hrun
  rw [hret, List.nil_append] at hend
  cases hend with
  | wrote hn hsent herr =>
    refine ⟨hsent, hn, herr, Stack.tcpWrites_fits, ?_⟩
    intro hsole hgone
    obtain ⟨-, hqueue⟩ := sndQueue_run (s := s.setProc t (.write c .lock data 0)) hc hrun hgone
    rw [List.filter_eq_self.mpr (by simpa using hsole)] at hsent
    rw [hqueue, hsent]
    rfl

/-- Two bytes against a send buffer of one: an `ERR_MEM`, a wake-up, one byte, a
    wake-up, the other byte. -/
theorem write_fidelity_backpressure :
    ∃ s called s' acts, Reach tcpMachine any s ∧
    s.step (.call 1 (.write 0 [1, 2])) = some called ∧
    tcpMachine.run any called acts = some s' ∧ s'.procs 1 = .wrote 0 2 none ∧
    (s'.pcbs 0).sndQueue = (s.pcbs 0).sndQueue ++ [1, 2] := by
  let wake : List Act := [.run 1, .lwipLock, .poll 0, .task, .task, .task, .task, .task, .lwipUnlock, .run 1, .run 1]
  let acts : List Act := [.run 1, .run 1, .write 1 1 .ERR_MEM] ++ wake ++ [.write 1 1 .ERR_OK] ++ wake ++
    [.write 1 1 .ERR_OK]
  obtain ⟨s, hreach, hs⟩ := exists_reach_of_run tcpMachine any
    [.lwipLock, .accept 7, .acceptDone 0, .lwipUnlock]
    (fun s => ∃ called ∈ s.step (.call 1 (.write 0 [1, 2])),
      ∃ s' ∈ tcpMachine.run any called acts, s'.procs 1 = .wrote 0 2 none ∧
        (s'.pcbs 0).gone = false ∧ ∀ w ∈ called.tcpWrites 0 acts, w.tid = 1) (by decide)
  obtain ⟨called, hcall, s', hrun, hret, hgone, hsole⟩ := hs
  have hqueue := (write_fidelity s hreach 1 0 [1, 2] called s' acts 2 none hcall hrun hret).2.2.2.2
  exact ⟨s, called, s', acts, hreach, hcall, hrun, hret, hqueue hsole hgone⟩

end tun2proxy.core
