import Tun2Proxy.Lwip.Receiver
import Tun2Proxy.Tcp.Order

open tun2proxy.machine tun2proxy.machine.Machine

namespace tun2proxy.core

/-- What the other end of a connection sends: its bytes, the number of the first one,
    and the segment size it announced. -/
structure Client where
  stream : List UInt8
  irs : BitVec 32
  mss : Nat
  deriving DecidableEq, Repr

/-- `recv_data`. -/
def RecvData.pbuf (recv : RecvData) : Option (List UInt8) :=
  if recv.data = [] then none else some recv.data

/-! ### What the pcb hands over and what the receiving half delivers -/

/-- Data that was received and not handed over yet. -/
def InputAt.inflight : InputAt → List UInt8
  | .sent r | .delayedClose r | .data r => (r.data.map Pbuf.data).getD []
  | _ => []

/-- `tcp_input` has no segment of the pcb at hand. -/
def InputAt.settled : InputAt → Bool
  | .idle | .refusedRet _ none | .refusedFin none => true
  | _ => false

/-- The FIN that was kept with refused data is on its way. -/
def InputAt.keptFin : InputAt → Bool
  | .refusedRet withFin _ => withFin
  | .refusedFin _ => true
  | _ => false

/-- Every byte that the receiving half has delivered was handed over or is about to be,
    unless the pcb has ended; a FIN that was reported or kept came after all bytes. -/
structure Fed (stream : List UInt8) (pcb : TcpPcb) (r : Receiver) (pos : InputAt) : Prop where
  whole : pcb.gone = false → pcb.tcb.freed = false → pcb.stream ++ pos.inflight = r.delivered
  pre : pcb.stream <+: r.delivered
  freed : pcb.tcb.freed = true → pcb.gone = true ∨ pos.settled = true
  fin : pcb.finReported = true ∨ pcb.tcb.refusedFin = true ∨ pos.hasFin = true → r.gotFin = true
  reported : pcb.finReported = true ∨ pcb.tcb.refusedFin = true ∨ pos.keptFin = true → pcb.stream = stream

namespace Fed

variable {stream : List UInt8} {pcb pcb' : TcpPcb} {r : Receiver} {pos pos' : InputAt}

theorem new (hdelivered : r.delivered = []) : Fed stream newPcb r .idle where
  whole _ _ := hdelivered.symm
  pre := List.nil_prefix
  freed h := by cases h
  fin h := by obtain h | h | h := h <;> cases h
  reported h := by obtain h | h | h := h <;> cases h

theorem congr {r' : Receiver} (h : Fed stream pcb r pos) (hdelivered : r'.delivered = r.delivered)
    (hgot : r'.gotFin = r.gotFin) : Fed stream pcb r' pos where
  whole := by rw [hdelivered]; exact h.whole
  pre := by rw [hdelivered]; exact h.pre
  freed := h.freed
  fin := by rw [hgot]; exact h.fin
  reported := h.reported

theorem not_freed (h : Fed stream pcb r pos) (hgone : pcb.gone = false) (hpos : pos.settled = false) :
    pcb.tcb.freed = false := by
  refine Bool.eq_false_iff.mpr fun hfreed => ?_
  obtain hg | hsettled := h.freed hfreed
  · rw [hgone] at hg
    cases hg
  · rw [hpos] at hsettled
    cases hsettled

/-- Steps that hand nothing over. -/
theorem keep (h : Fed stream pcb r pos) (hgone : pcb.gone = true → pcb'.gone = true)
    (hfreed : pcb.tcb.freed = true → pcb'.tcb.freed = true) (hstream : pcb'.stream = pcb.stream)
    (hreported : pcb'.finReported = true → pcb.finReported = true)
    (hrefused : pcb'.tcb.refusedFin = true → pcb.tcb.refusedFin = true)
    (hhas : pos'.hasFin = true → pcb.tcb.refusedFin = true ∨ pos.hasFin = true)
    (hkept : pos'.keptFin = true → pcb.tcb.refusedFin = true ∨ pos.keptFin = true)
    (hflight : pcb'.gone = false → pcb'.tcb.freed = false → pos'.inflight = pos.inflight)
    (hplace : pcb'.tcb.freed = true → pcb'.gone = true ∨ pos'.settled = true) :
    Fed stream pcb' r pos' where
  whole hg hf := by
    have hg' : pcb.gone = false := Bool.eq_false_iff.mpr fun hg' => by simp [hgone hg'] at hg
    have hf' : pcb.tcb.freed = false := Bool.eq_false_iff.mpr fun hf' => by simp [hfreed hf'] at hf
    rw [hstream, hflight hg hf]
    exact h.whole hg' hf'
  pre := by
    rw [hstream]
    exact h.pre
  freed := hplace
  fin hfin := by
    obtain hfin | hfin | hfin := hfin
    · exact h.fin (.inl (hreported hfin))
    · exact h.fin (.inr (.inl (hrefused hfin)))
    · exact h.fin (.inr (hhas hfin))
  reported hfin := by
    rw [hstream]
    obtain hfin | hfin | hfin := hfin
    · exact h.reported (.inl (hreported hfin))
    · exact h.reported (.inr (.inl (hrefused hfin)))
    · exact h.reported (.inr (hkept hfin))

/-- The same steps, for a pcb that Go or a callback leaves worn. -/
theorem worn (h : Fed stream pcb r pos) (hworn : Worn pcb pcb') (hstream : pcb'.stream = pcb.stream)
    (hreported : pcb'.finReported = true → pcb.finReported = true)
    (hhas : pos'.hasFin = true → pcb.tcb.refusedFin = true ∨ pos.hasFin = true)
    (hkept : pos'.keptFin = true → pcb.tcb.refusedFin = true ∨ pos.keptFin = true)
    (hflight : pcb'.gone = false → pos'.inflight = pos.inflight)
    (hsettled : pos.settled = true → pos'.settled = true) : Fed stream pcb' r pos' := by
  apply h.keep hworn.gone hworn.freed hstream hreported
  · exact fun hfin => hworn.refusedFin ▸ hfin
  · exact hhas
  · exact hkept
  · exact fun hgone _ => hflight hgone
  · intro hfreed
    obtain hfreed | hgone := hworn.freed_gone hfreed
    · exact (h.freed hfreed).imp hworn.gone hsettled
    · exact .inl hgone

/-- Data is handed over. -/
theorem recv {recv : Received} {p : Pbuf} (h : Fed stream pcb r (.data recv))
    (hpre : r.delivered <+: stream) (hdata : recv.data = some p) (hgone : pcb.gone = false)
    (hstream : pcb'.stream = pcb.stream ++ p.data) (hworn : Worn pcb pcb')
    (hreported : pcb'.finReported = pcb.finReported) : Fed stream pcb' r (.fin recv) := by
  have hfreed := h.not_freed hgone rfl
  have hwhole : pcb'.stream = r.delivered := by
    rw [hstream, ← h.whole hgone hfreed, InputAt.inflight, hdata]
    rfl
  refine ⟨fun _ _ => ?_, by rw [hwhole], fun hf => ?_, fun hfin => ?_, fun hfin => ?_⟩
  · rw [hwhole]
    exact List.append_nil _
  · obtain hf | hg := hworn.freed_gone hf
    · rw [hfreed] at hf
      cases hf
    · exact .inl hg
  · rw [hreported, hworn.refusedFin] at hfin
    exact h.fin hfin
  · -- nothing can come after the last byte of the stream
    rw [hreported, hworn.refusedFin] at hfin
    have hall := h.reported hfin
    have hlen := hpre.length_le
    rw [← hwhole, hstream, hall, List.length_append] at hlen
    rw [hstream, hall, List.eq_nil_of_length_eq_zero (by omega : p.data.length = 0), List.append_nil]

/-- Before the FIN is reported or kept, all bytes were handed over. -/
theorem complete (h : Fed stream pcb r pos) (hgot : r.gotFin = true → r.delivered = stream)
    (hgone : pcb.gone = false) (hfin : pos.hasFin = true) (hflight : pos.inflight = [])
    (hpos : pos.keptFin = true ∨ pos.settled = false) : pcb.stream = stream := by
  obtain hkept | hpos := hpos
  · exact h.reported (.inr (.inr hkept))
  · have hwhole := h.whole hgone (h.not_freed hgone hpos)
    rw [hflight, List.append_nil] at hwhole
    rw [hwhole]
    exact hgot (h.fin (.inr (.inr hfin)))

/-- The FIN is reported, or kept with refused data. -/
theorem finish (h : Fed stream pcb r pos) (hcomplete : pcb.stream = stream) (hfin : pos.hasFin = true)
    (hstream : pcb'.stream = pcb.stream) (hgone : pcb.gone = true → pcb'.gone = true)
    (hfreed : pcb.tcb.freed = true → pcb'.tcb.freed = true) (hflight : pos'.inflight = pos.inflight)
    (hplace : pcb'.tcb.freed = true → pcb'.gone = true ∨ pos'.settled = true) :
    Fed stream pcb' r pos' where
  whole hg hf := by
    have hg' : pcb.gone = false := Bool.eq_false_iff.mpr fun hg' => by simp [hgone hg'] at hg
    have hf' : pcb.tcb.freed = false := Bool.eq_false_iff.mpr fun hf' => by simp [hfreed hf'] at hf
    rw [hstream, hflight]
    exact h.whole hg' hf'
  pre := by
    rw [hstream]
    exact h.pre
  freed := hplace
  fin _ := h.fin (.inr (.inr hfin))
  reported _ := hstream.trans hcomplete

/-- The receiving half delivers, and `tcp_process` has the data and the FIN to report. -/
theorem process {st : TcpState} {seg : Segment} {pcb₁ : RcvPcb} {recv : RecvData}
    (h : Fed stream pcb r (.process seg)) (hgone : pcb.gone = false)
    (hrcv : pcb.tcb.state.receives = true) (hdata : seg.data.map Pbuf.data = recv.pbuf)
    (hfin : seg.fin = recv.gotFin) :
    Fed stream { pcb with tcb := { pcb.tcb with state := st } } (r.take pcb₁ recv)
      (.sent (pcb.tcb.state.tcp_process seg).2) := by
  have hfreed := h.not_freed hgone rfl
  obtain ⟨hrecvData, hrecvFin⟩ := TcpState.process_of_receives hrcv seg
  have hpbuf : recv.pbuf.getD [] = recv.data := by
    rw [RecvData.pbuf]
    split
    · exact (‹recv.data = []›).symm
    · rfl
  have hwhole : pcb.stream = r.delivered := by
    rw [← h.whole hgone hfreed]
    exact (List.append_nil _).symm
  refine ⟨fun _ _ => ?_, ?_, fun hf => ?_, fun hf => ?_, fun hf => ?_⟩
  · rw [InputAt.inflight, hrecvData, hdata, hpbuf]
    exact congrArg (· ++ recv.data) hwhole
  · exact h.pre.trans (List.prefix_append _ _)
  · rw [hfreed] at hf
    cases hf
  · rw [Receiver.take, Bool.or_eq_true]
    obtain hf | hf | hf := hf
    · exact .inl (h.fin (.inl hf))
    · exact .inl (h.fin (.inr (.inl hf)))
    · right
      rw [InputAt.hasFin, hrecvFin] at hf
      rw [← hfin]
      exact hf
  · exact h.reported hf

end Fed

/-- What a section does to the pcb of `c` when it neither begins a connection, changes its
    state by hand, nor hands data or the FIN over. -/
theorem Section.quiet_pcb {s s' : Stack} {b : Act} {c : ConnId} (hsec : Section s b s')
    (hold : ∀ key, b = .accept key → c ≠ s.accepted) (htcp : ∀ tcb, b ≠ .tcp c tcb)
    (hrecv : ∀ p, b ≠ .recv c p) (hfin : b ≠ .recvFin c) :
    Worn (s.pcbs c) (s'.pcbs c) ∧ (s'.pcbs c).stream = (s.pcbs c).stream ∧
      ((s'.pcbs c).finReported = true → (s.pcbs c).finReported = true) := by
  have hstep := hsec.pcbs c
  refine ⟨hstep.worn hold htcp, hstep.stream hold hrecv, fun hreported => ?_⟩
  obtain hsame | ⟨hact, -⟩ := hstep.finReported hold
  · exact hsame ▸ hreported
  · exact absurd hact hfin

/-- After its err callback a pcb is gone. -/
theorem Section.err_gone {s s' : Stack} {c : ConnId} {code : ErrT} (hsec : Section s (.err c code) s') :
    (s'.pcbs c).gone = true := by
  cases hsec with
  | errFound _ _ _ => simp [Stack.Err]
  | errUnknown _ _ _ => simp
  | cbFound hcb _ _ _ | cbUnknown hcb _ _ _ => cases hcb
  | proc hmove => cases hmove.act
  | pcb _ hmove => cases hmove.act

/-- Data that lwIP hands over. -/
theorem Section.recv_pcb {s s' : Stack} {c : ConnId} {p : Pbuf} (hsec : Section s (.recv c p) s') :
    (s'.pcbs c).stream = (s.pcbs c).stream ++ p.data ∧
      (s'.pcbs c).finReported = (s.pcbs c).finReported := by
  cases hsec with
  | cbFound hcb _ _ _ => cases hcb; simp
  | cbUnknown hcb _ _ _ => cases hcb; simp
  | proc hmove => cases hmove.act
  | pcb _ hmove => cases hmove.act

/-- The pcbs and the receiving halves fit together. -/
structure FedInv (clients : ConnId → Client) (rcv : ConnId → Receiver) (s : Net) : Prop where
  busy : s.pos ≠ .idle → Busy s.stack
  place : s.pos ≠ .idle → s.tpcb < s.stack.accepted
  fresh : ∀ c, s.stack.accepted ≤ c → (rcv c).delivered = []
  fed : ∀ c, Fed (clients c).stream (s.stack.pcbs c) (rcv c) (s.posOf c)

/-- The step in which `tcp_receive` takes data or FIN. -/
def Net.takes (s : Net) (a : NetAct) : Prop :=
  a = .input ∧ ∃ seg, s.pos = .process seg ∧ (s.stack.pcbs s.tpcb).gone = false ∧ seg.rst = false ∧
    (s.stack.pcbs s.tpcb).tcb.state.receives = true

namespace FedInv

variable {clients : ConnId → Client} {rcv : ConnId → Receiver} {s s' : Net} {a : NetAct}

theorem init (hrcv : ∀ c, (rcv c).delivered = []) : FedInv clients rcv Net.init where
  busy h := absurd rfl h
  place h := absurd rfl h
  fresh c _ := hrcv c
  fed c := by
    rw [Net.posOf_idle rfl]
    exact .new (hrcv c)

/-- `tcp_input` turns to the pcb of `c`. -/
theorem enter (hinv : FedInv clients rcv s) {c : ConnId} {pos : InputAt} (hready : s.ready)
    (hactive : s.active c) (hflight : pos.inflight = []) (hfin : pos.hasFin = false)
    (hkept : pos.keptFin = false) :
    FedInv clients rcv { s with tpcb := c, pos } where
  busy _ := .lwip none hready.1
  place _ := hactive.1.1
  fresh := hinv.fresh
  fed c' := by
    have hold := hinv.fed c'
    rw [Net.posOf_idle hready.2] at hold
    by_cases heq : c' = c
    · subst heq
      rw [Net.posOf, if_pos rfl]
      apply hold.keep id id rfl id id
      · intro h
        rw [hfin] at h
        cases h
      · intro h
        rw [hkept] at h
        cases h
      · exact fun _ _ => hflight
      · intro hfreed
        rw [hactive.2.1] at hfreed
        cases hfreed
    · rw [Net.posOf, if_neg (Ne.symm heq)]
      exact hold

/-- A section of lwIP on the pcb of `c`, when `tcp_input` works on no other pcb. -/
theorem of_lwip {stack stack' : Stack} {b : Act} {c : ConnId} {pos : InputAt}
    (hstep : stack.step b = some stack') (hact : b.tpcb = some c) (hc : pos ≠ .idle → c < stack.accepted)
    (hbusy : pos ≠ .idle → Busy stack')
    (hfresh : ∀ c', stack.accepted ≤ c' → (rcv c').delivered = [])
    (hothers : ∀ c', c' ≠ c → Fed (clients c').stream (stack.pcbs c') (rcv c') .idle)
    (hown : Fed (clients c).stream (stack'.pcbs c) (rcv c) pos) :
    FedInv clients rcv ⟨stack', c, pos⟩ := by
  have hsec := Stack.step_section hstep
  have hle := hsec.life.accepted_le
  refine ⟨hbusy, fun hpos => Nat.lt_of_lt_of_le (hc hpos) hle,
    fun c' hc' => hfresh c' (hle.trans hc'), fun c' => ?_⟩
  by_cases heq : c' = c
  · subst heq
    rw [Net.posOf, if_pos rfl]
    exact hown
  · rw [Net.posOf, if_neg (Ne.symm heq)]
    have hother (h : b.tpcb = some c') : False := heq (Option.some.inj (h.symm.trans hact))
    obtain ⟨hworn, hstream, hreported⟩ := hsec.quiet_pcb (c := c') (by rintro key rfl; cases hact)
      (by rintro tcb rfl; exact hother rfl) (by rintro p rfl; exact hother rfl)
      (by rintro rfl; exact hother rfl)
    exact (hothers c' heq).worn hworn hstream hreported .inr .inr (fun _ => rfl) id

theorem lwip (hinv : FedInv clients rcv s) {b : Act} {c : ConnId} {stack : Stack} {pos : InputAt}
    (hstep : s.stack.step b = some stack) (hact : b.tpcb = some c)
    (hc : pos ≠ .idle → c < s.stack.accepted) (hothers : ∀ c', c' ≠ c → s.posOf c' = .idle)
    (hbusy : pos ≠ .idle → Busy stack)
    (hown : Fed (clients c).stream (stack.pcbs c) (rcv c) pos) : FedInv clients rcv ⟨stack, c, pos⟩ := by
  refine of_lwip hstep hact hc hbusy hinv.fresh (fun c' hne => ?_) hown
  rw [← hothers c' hne]
  exact hinv.fed c'

/-- lwIP changes the state of the pcb of `c` by hand, between segments. -/
theorem byHand (hinv : FedInv clients rcv s) {c : ConnId} {tcb : Tcb} {stack : Stack}
    (hready : s.ready) (hstep : s.stack.step (.tcp c tcb) = some stack)
    (hrefused : tcb.refusedFin = (s.stack.pcbs c).tcb.refusedFin)
    (hfreed : (s.stack.pcbs c).tcb.freed = true → tcb.freed = true) :
    FedInv clients rcv ⟨stack, c, .idle⟩ := by
  have hold := hinv.fed c
  rw [Net.posOf_idle hready.2] at hold
  refine hinv.lwip hstep rfl (by simp) (fun c' _ => Net.posOf_idle hready.2 c') (by simp) ?_
  cases (Stack.step_section hstep).tcp_eq
  rw [Stack.modPcb_pcbs, if_pos rfl]
  exact hold.keep id hfreed rfl id (fun h => hrefused ▸ h) .inr .inr (fun _ _ => rfl) fun _ => .inr rfl

/-- A section of Go, with `tcp_input` where it was. -/
theorem go (hinv : FedInv clients rcv s) {b : Act} {stack : Stack} (hgo : b.ofGo = true)
    (hbetween : b.between = true → s.pos = .idle) (hstep : s.stack.step b = some stack) :
    FedInv clients rcv { s with stack } := by
  have hsec := Stack.step_section hstep
  have hle := hsec.life.accepted_le
  refine ⟨fun hpos => ?_, fun hpos => Nat.lt_of_lt_of_le (hinv.place hpos) hle,
    fun c hc => hinv.fresh c (hle.trans hc), fun c => ?_⟩
  · apply (hinv.busy hpos).step hsec
    rw [Bool.eq_false_iff]
    exact fun h => hpos (hbetween h)
  · by_cases hnew : ∃ key, b = .accept key ∧ c = s.stack.accepted
    · obtain ⟨key, rfl, rfl⟩ := hnew
      have hpos : ({ s with stack } : Net).posOf s.stack.accepted = .idle :=
        Net.posOf_idle (hbetween rfl) _
      have hpcb : stack.pcbs s.stack.accepted = newPcb := by
        obtain ⟨owner, -, heq⟩ := hsec.accept_eq
        rw [heq]
        exact Function.update_self _ _ _
      rw [hpos, hpcb]
      exact .new (hinv.fresh _ le_rfl)
    · obtain ⟨hworn, hstream, hreported⟩ := hsec.quiet_pcb (c := c)
        (fun key hkey hc => hnew ⟨key, hkey, hc⟩) (by rintro tcb rfl; cases hgo)
        (by rintro p rfl; cases hgo) (by rintro rfl; cases hgo)
      exact (hinv.fed c).worn hworn hstream hreported .inr .inr (fun _ => rfl) id

/-- The connect goroutine enters `tcp_process_refused_data`. -/
theorem take (hinv : FedInv clients rcv s) (hbounds : Bounds s.stack) {t : Tid} {c : ConnId} {p : Pbuf}
    {stack : Stack} (hproc : s.stack.procs t = .refused c)
    (hrefused : (s.stack.pcbs c).refused_data = some p) (hstep : s.stack.step (.run t) = some stack) :
    FedInv clients rcv ⟨stack, c, .refusedRet (s.stack.pcbs c).tcb.refusedFin none⟩ := by
  have hsec := Stack.step_section hstep
  have hle := hsec.life.accepted_le
  obtain ⟨hfree, hnext⟩ := hsec.take_eq hproc hrefused
  have hidle : s.pos = .idle := by
    by_contra hpos
    exact (hinv.busy hpos).not_free hfree
  have hlt : c < s.stack.accepted := hbounds.procs t c (by rw [hproc]; rfl)
  refine ⟨fun _ => ?_, fun _ => Nat.lt_of_lt_of_le hlt hle, fun c' hc' => hinv.fresh c' (hle.trans hc'),
    fun c' => ?_⟩
  · obtain ⟨-, hholder⟩ | ⟨found, -, rfl⟩ := hnext
    · exact .lwip _ hholder
    · exact .callback _ _ rfl rfl
  · have hold := hinv.fed c'
    rw [Net.posOf_idle hidle] at hold
    obtain ⟨hworn, hstream, hreported⟩ := hsec.quiet_pcb (c := c') (by simp) (by simp) (by simp) (by simp)
    by_cases heq : c' = c
    · subst heq
      rw [Net.posOf, if_pos rfl]
      exact hold.worn hworn hstream hreported .inl .inl (fun _ => rfl) id
    · rw [Net.posOf, if_neg (Ne.symm heq)]
      exact hold.worn hworn hstream hreported .inr .inr (fun _ => rfl) id

/-- A callback of lwIP that neither hands data over nor reports the FIN. -/
theorem callback {b : Act} {c : ConnId} {stack : Stack} {pos pos' : InputAt} (hsec : Section s.stack b stack)
    (hfed : Fed (clients c).stream (s.stack.pcbs c) (rcv c) pos) (hact : b.tpcb = some c)
    (htcp : ∀ tcb, b ≠ .tcp c tcb) (hrecv : ∀ p, b ≠ .recv c p) (hfin : b ≠ .recvFin c)
    (hhas : pos'.hasFin = true → (s.stack.pcbs c).tcb.refusedFin = true ∨ pos.hasFin = true)
    (hkept : pos'.keptFin = true → (s.stack.pcbs c).tcb.refusedFin = true ∨ pos.keptFin = true)
    (hflight : (stack.pcbs c).gone = false → pos'.inflight = pos.inflight)
    (hsettled : pos.settled = true → pos'.settled = true) :
    Fed (clients c).stream (stack.pcbs c) (rcv c) pos' := by
  obtain ⟨hworn, hstream, hreported⟩ := hsec.quiet_pcb (c := c) (by rintro key rfl; cases hact) htcp
    hrecv hfin
  exact hfed.worn hworn hstream hreported hhas hkept hflight hsettled

/-- How `tcp_input` goes on with its pcb, unless `tcp_receive` takes data or FIN. -/
theorem input {stack : Stack} {act : Option Act} {pos pos' : InputAt} {c : ConnId}
    (hpre : (rcv c).delivered <+: (clients c).stream)
    (hgot : (rcv c).gotFin = true → (rcv c).delivered = (clients c).stream)
    (hfed : Fed (clients c).stream (s.stack.pcbs c) (rcv c) pos) (hgone : (s.stack.pcbs c).gone = false)
    (hnot : ∀ seg, pos = .process seg → seg.rst = false → (s.stack.pcbs c).tcb.state.receives = false)
    (hmove : InputMove (s.stack.pcbs c) c pos act pos') (hmay : MayStep s.stack act stack) :
    Fed (clients c).stream (stack.pcbs c) (rcv c) pos' := by
  cases hmay with
  | none =>
    have hsame {pos' : InputAt} (hhas : pos'.hasFin = true → pos.hasFin = true)
        (hkept : pos'.keptFin = true → pos.keptFin = true) (hflight : pos'.inflight = pos.inflight)
        (hsettled : pos.settled = true → pos'.settled = true) :
        Fed (clients c).stream (s.stack.pcbs c) (rcv c) pos' :=
      hfed.keep id id rfl id id (fun h => .inr (hhas h)) (fun h => .inr (hkept h)) (fun _ _ => hflight)
        fun h => (hfed.freed h).imp_right hsettled
    cases hmove with
    | refusedAgain _ hpos =>
      obtain rfl | ⟨seg, rfl, -, rfl⟩ := hpos
      · exact hsame (by simp [InputAt.hasFin]) (by simp [InputAt.keptFin]) rfl (fun _ => rfl)
      · exact hsame (by simp [InputAt.hasFin]) (by simp [InputAt.keptFin]) rfl id
    | sentNone _ | notClosed _ => exact hsame id id rfl id
    | dataNone hdata =>
      refine hsame id id ?_ id
      rw [InputAt.inflight, hdata]
      rfl
    | finNone _ => exact hsame (by simp [InputAt.hasFin]) (by simp [InputAt.keptFin]) rfl (fun _ => rfl)
  | @some b stack hstep =>
    have hsec := Stack.step_section hstep
    have hact := hmove.tpcb
    have herr {code : ErrT} (hb : b = .err c code) (h : (stack.pcbs c).gone = false) : False := by
      subst hb
      rw [hsec.err_gone] at h
      cases h
    cases hmove with
    | refused =>
      exact callback hsec hfed hact (by simp) (by simp) (by simp) .inl .inl (fun _ => rfl)
        (by simp [InputAt.settled])
    | @refusedTaken withFin seg _ =>
      cases hsec.tcp_eq
      rw [Stack.modPcb_pcbs, if_pos rfl]
      refine hfed.keep id id rfl id (by simp) ?_ ?_ ?_ ?_
      · intro h
        cases withFin with
        | true => exact .inr rfl
        | false => cases seg <;> cases h
      · intro h
        cases withFin with
        | true => exact .inr rfl
        | false => cases seg <;> cases h
      · intro _ _
        cases withFin <;> cases seg <;> rfl
      · intro h
        refine (hfed.freed h).imp_right fun hsettled => ?_
        cases seg with
        | none => cases withFin <;> rfl
        | some seg => cases hsettled
    | @refusedFin seg =>
      have hstep' := hsec.pcbs c
      have hworn := hstep'.worn (by simp) (by simp)
      apply hfed.finish (hfed.complete hgot hgone rfl rfl (.inl rfl)) rfl
        (hstep'.stream (by simp) (by simp)) hworn.gone hworn.freed
      · cases seg <;> rfl
      · intro h
        obtain h | h := hworn.freed_gone h
        · refine (hfed.freed h).imp hworn.gone fun hsettled => ?_
          cases seg with
          | none => rfl
          | some seg => cases hsettled
        · exact .inl h
    | reset _ =>
      exact callback hsec hfed hact (by simp) (by simp) (by simp) (by simp [InputAt.hasFin])
        (by simp [InputAt.keptFin]) (fun _ => rfl) (fun _ => rfl)
    | @process seg hrst =>
      obtain ⟨hdata, hfin⟩ := TcpState.process_of_not_receives (hnot seg rfl hrst) seg
      cases hsec.tcp_eq
      rw [Stack.modPcb_pcbs, if_pos rfl]
      refine hfed.keep id id rfl id id ?_ ?_ ?_ ?_
      · intro h
        rw [InputAt.hasFin, hfin] at h
        cases h
      · exact .inr
      · intro _ _
        rw [InputAt.inflight, hdata]
        rfl
      · exact hfed.freed
    | sent _ =>
      exact callback hsec hfed hact (by simp) (by simp) (by simp) .inr .inr (fun _ => rfl) id
    | closedSilent _ _ | dataSilent _ _ _ =>
      cases hsec.tcp_eq
      rw [Stack.modPcb_pcbs, if_pos rfl]
      exact hfed.keep id (fun _ => rfl) rfl id id (by simp [InputAt.hasFin]) (by simp [InputAt.keptFin])
        (by simp) (fun _ => .inr rfl)
    | closedErr _ _ | dataAbort _ _ _ =>
      exact callback hsec hfed hact (by simp) (by simp) (by simp) (by simp [InputAt.hasFin])
        (by simp [InputAt.keptFin]) (fun h => (herr rfl h).elim) (fun _ => rfl)
    | data hdata _ =>
      obtain ⟨hstream, hreported⟩ := hsec.recv_pcb
      exact hfed.recv hpre hdata hgone hstream ((hsec.pcbs c).worn (by simp) (by simp)) hreported
    | finRefused hfin _ =>
      have hcomplete := hfed.complete hgot hgone hfin rfl (.inr rfl)
      cases hsec.tcp_eq
      rw [Stack.modPcb_pcbs, if_pos rfl]
      exact hfed.finish hcomplete hfin rfl id id rfl (fun _ => .inr rfl)
    | fin hfin _ =>
      have hstep' := hsec.pcbs c
      have hworn := hstep'.worn (by simp) (by simp)
      exact hfed.finish (hfed.complete hgot hgone hfin rfl (.inr rfl)) hfin
        (hstep'.stream (by simp) (by simp)) hworn.gone hworn.freed rfl (fun _ => .inr rfl)

/-- A step of the input path in which `tcp_receive` takes nothing. -/
theorem step (hinv : FedInv clients rcv s) (hbounds : Bounds s.stack)
    (hpre : ∀ c, (rcv c).delivered <+: (clients c).stream)
    (hgot : ∀ c, (rcv c).gotFin = true → (rcv c).delivered = (clients c).stream)
    (hnot : ¬s.takes a) (hmove : NetMove s a s') : FedInv clients rcv s' := by
  cases hmove with
  | segment hready hactive _ => exact hinv.enter hready hactive rfl rfl rfl
  | offer hready hactive _ => exact hinv.enter hready hactive rfl rfl rfl
  | closePend hready _ _ hstep => exact hinv.byHand hready hstep rfl id
  | expire hready _ hstep => exact hinv.byHand hready hstep rfl fun _ => rfl
  | @poll c stack hready _ hstep =>
    have hfed := hinv.fed c
    rw [Net.posOf_idle hready.2] at hfed
    refine hinv.lwip hstep rfl (by simp) (fun c' _ => Net.posOf_idle hready.2 c') (by simp) ?_
    exact callback (Stack.step_section hstep) hfed rfl (by simp) (by simp) (by simp) .inr .inr
      (fun _ => rfl) id
  | @remove c stack hready _ hstep =>
    have hfed := hinv.fed c
    rw [Net.posOf_idle hready.2] at hfed
    refine hinv.lwip hstep rfl (by simp) (fun c' _ => Net.posOf_idle hready.2 c') (by simp) ?_
    exact callback (Stack.step_section hstep) hfed rfl (by simp) (by simp) (by simp) .inr .inr
      (fun _ => rfl) id
  | ended hholder hgone =>
    refine ⟨fun h => absurd rfl h, fun h => absurd rfl h, hinv.fresh, fun c => ?_⟩
    have hold := hinv.fed c
    rw [Net.posOf, ite_self]
    by_cases heq : s.tpcb = c
    · subst heq
      refine hold.keep id id rfl id id (by simp [InputAt.hasFin]) (by simp [InputAt.keptFin]) ?_
        fun _ => .inr rfl
      intro h
      rw [hgone] at h
      cases h
    · rw [Net.posOf, if_neg heq] at hold
      exact hold
  | @input act pos stack owner hholder hgone hmove hmay =>
    have hfed := hinv.fed s.tpcb
    rw [Net.posOf_self] at hfed
    have hown := input (hpre _) (hgot _) hfed hgone (by
      intro seg hpos hrst
      by_contra hrcv
      exact hnot ⟨rfl, seg, hpos, hgone, hrst, Bool.eq_true_of_not_eq_false hrcv⟩) hmove hmay
    have hplace : s.tpcb < s.stack.accepted := hinv.place (by rintro hidle; rw [hidle] at hmove; cases hmove)
    cases hmay with
    | none =>
      refine ⟨fun _ => .lwip _ hholder, fun _ => hplace, hinv.fresh, fun c => ?_⟩
      by_cases heq : s.tpcb = c
      · subst heq
        rw [Net.posOf, if_pos rfl]
        exact hown
      · have hold := hinv.fed c
        rw [Net.posOf, if_neg heq] at hold ⊢
        exact hold
    | some hstep =>
      refine hinv.lwip hstep hmove.tpcb (fun _ => hplace) (fun c hne => Net.posOf_ne hne) ?_ hown
      exact fun _ => (Busy.lwip _ hholder).step (Stack.step_section hstep) hmove.between
  | take hproc hrefused hstep => exact hinv.take hbounds hproc hrefused hstep
  | go hgo hbetween _ hstep => exact hinv.go hgo hbetween hstep

/-- The step in which `tcp_receive` takes data or FIN. -/
theorem receive (hinv : FedInv clients rcv s) {seg : Segment} {pcb : RcvPcb} {recv : RecvData}
    (hpos : s.pos = .process seg) (hgone : (s.stack.pcbs s.tpcb).gone = false) (hrst : seg.rst = false)
    (hrcv : (s.stack.pcbs s.tpcb).tcb.state.receives = true)
    (hdata : seg.data.map Pbuf.data = recv.pbuf) (hfin : seg.fin = recv.gotFin)
    (hmove : NetMove s .input s') :
    FedInv clients (Function.update rcv s.tpcb ((rcv s.tpcb).take pcb recv)) s' := by
  have hplace := hinv.place (by simp [hpos])
  have hfed := hinv.fed s.tpcb
  rw [Net.posOf_self, hpos] at hfed
  cases hmove with
  | offer hready _ _ => cases hready.2.symm.trans hpos
  | ended _ hended => cases hgone.symm.trans hended
  | @input act pos stack owner hholder _ hmove hmay =>
    rw [hpos] at hmove
    cases hmove with
    | reset hreset => cases hrst.symm.trans hreset
    | process _ =>
      cases hmay with
      | some hstep =>
        have hsec := Stack.step_section hstep
        refine of_lwip hstep rfl (fun _ => hplace) ?_ ?_ ?_ ?_
        · exact fun _ => (Busy.lwip _ hholder).step hsec rfl
        · intro c hc
          rw [Function.update_of_ne (Nat.ne_of_gt (Nat.lt_of_lt_of_le hplace hc))]
          exact hinv.fresh c hc
        · intro c hne
          rw [Function.update_of_ne hne, ← Net.posOf_ne hne]
          exact hinv.fed c
        · cases hsec.tcp_eq
          rw [Function.update_self, Stack.modPcb_pcbs, if_pos rfl]
          exact hfed.process hgone hrcv hdata hfin

end FedInv

end tun2proxy.core
