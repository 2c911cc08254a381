import Tun2Proxy.Tcp.Owned

open tun2proxy.machine tun2proxy.machine.Machine

namespace tun2proxy.core

/-- What lwIP makes of an incoming segment for a pcb it has: an acceptable RST or
    not, `recv_acked > 0`, whether it acknowledges everything sent with nothing
    left unsent, `tcplen`, and what `tcp_receive` takes of its data and FIN.
    A FIN that is acknowledged is no part of `recv_acked`. -/
structure Segment where
  rst : Bool
  acked : Bool
  ackAll : Bool
  tcplen : Nat
  data : Option Pbuf
  fin : Bool
  data_len : data.isSome = true → 0 < tcplen
  fin_len : fin = true → 0 < tcplen
  deriving DecidableEq, Repr

/-- What `tcp_process` leaves in `recv_acked`, `recv_flags` and `recv_data`. -/
structure Received where
  acked : Bool
  -- `TF_CLOSED`
  closed : Bool
  data : Option Pbuf
  -- `TF_GOT_FIN`
  fin : Bool
  deriving DecidableEq, Repr

/-- `pcb->state < CLOSE_WAIT`: `tcp_receive` takes data and FIN. -/
def TcpState.receives : TcpState → Bool
  | .ESTABLISHED | .FIN_WAIT_1 | .FIN_WAIT_2 => true
  | _ => false

/-- `tcp_receive`. -/
def TcpState.tcp_receive (st : TcpState) (seg : Segment) : Received :=
  { acked := seg.acked
    closed := false
    data := if st.receives then seg.data else none
    fin := st.receives && seg.fin }

/-- `tcp_process` for a segment without RST: the next state and what is left to
    report. -/
def TcpState.tcp_process (st : TcpState) (seg : Segment) : TcpState × Received :=
  let r := st.tcp_receive seg
  match st with
  | .ESTABLISHED | .CLOSE_WAIT => (if r.fin then .CLOSE_WAIT else st, r)
  | .FIN_WAIT_1 =>
    if r.fin then (if seg.ackAll then .TIME_WAIT else .CLOSING, r)
    else (if seg.ackAll then .FIN_WAIT_2 else .FIN_WAIT_1, r)
  | .FIN_WAIT_2 => (if r.fin then .TIME_WAIT else .FIN_WAIT_2, r)
  | .CLOSING => (if seg.ackAll then .TIME_WAIT else .CLOSING, r)
  | .LAST_ACK => (.LAST_ACK, { r with closed := seg.ackAll })
  | .TIME_WAIT => (.TIME_WAIT, ⟨false, false, none, false⟩)

/-- Where `tcp_input` stands, with the segment it works on. The first three places
    are in `tcp_process_refused_data`, which timers and the connect goroutine call
    without a segment. -/
inductive InputAt where
  | idle
  | refused (seg : Option Segment)
  -- after the recv callback, with the FIN flag of the pbuf that was refused
  | refusedRet (fin : Bool) (seg : Option Segment)
  -- before `TCP_EVENT_CLOSED`
  | refusedFin (seg : Option Segment)
  | process (seg : Segment)
  -- before `TCP_EVENT_SENT`
  | sent (r : Received)
  -- before `tcp_input_delayed_close`
  | delayedClose (r : Received)
  -- before `TCP_EVENT_RECV`
  | data (r : Received)
  -- before `TCP_EVENT_CLOSED`
  | fin (r : Received)
  deriving DecidableEq, Repr

/-- `tcp_input` after `tcp_process_refused_data`. -/
def InputAt.next : Option Segment → InputAt
  | none => .idle
  | some seg => .process seg

/-- The package over lwIP's input path: the state of the package and where
    `tcp_input` is with the pcb of `tpcb`. -/
structure Net where
  stack : Stack
  tpcb : ConnId
  pos : InputAt

/-- What the network, lwIP's timers and the goroutines do next. -/
inductive NetAct where
  | segment (c : ConnId) (seg : Segment)
  -- `tcp_input` or `tcp_process_refused_data` goes on
  | input
  -- `tcp_fasttmr` sends a pending FIN or offers refused data again
  | closePend (c : ConnId)
  | retry (c : ConnId)
  -- `tcp_slowtmr` calls the poll callback, gives up, or ends TIME_WAIT
  | poll (c : ConnId)
  | remove (c : ConnId)
  | expire (c : ConnId)
  | go (a : Act)
  deriving DecidableEq

/-- The sections that are not lwIP's own. -/
def Act.ofGo : Act → Bool
  | .recv _ _ | .recvFin _ | .refused _ | .sent _ | .poll _ | .err _ _ | .tcp _ _ => false
  | _ => true

/-- The two sections that `tcp_input` does not run in the middle of a segment. -/
def Act.between : Act → Bool
  | .lwipUnlock | .accept _ => true
  | _ => false

namespace Net

/-- lwIP runs for input or timers, and is not in the middle of a segment. -/
def ready (s : Net) : Prop := s.stack.holder = .lwip none ∧ s.pos = .idle

instance (s : Net) : Decidable s.ready := inferInstanceAs (Decidable (_ ∧ _))

/-- The pcb of `c` is in `tcp_active_pcbs`. -/
def active (s : Net) (c : ConnId) : Prop :=
  s.stack.live c ∧ (s.stack.pcbs c).tcb.freed = false ∧ (s.stack.pcbs c).tcb.state ≠ .TIME_WAIT

instance (s : Net) (c : ConnId) : Decidable (s.active c) := inferInstanceAs (Decidable (_ ∧ _ ∧ _))

/-- A step of the package, after which `tcp_input` is at `pos`. -/
def stackStep (s : Net) (a : Act) (pos : InputAt) : Option Net :=
  (s.stack.step a).map fun stack => { s with stack, pos }

/-- lwIP sets the fields that only it sees. -/
def setTcb (s : Net) (f : Tcb → Tcb) (pos : InputAt) : Option Net :=
  s.stackStep (.tcp s.tpcb (f (s.stack.pcbs s.tpcb).tcb)) pos

/-- `tcp_free` without any callback. -/
def free (s : Net) : Option Net := s.setTcb (fun tcb => { tcb with freed := true }) .idle

/-- `tcp_process_refused_data` after the recv callback. A segment with data or FIN
    is dropped when the data is refused again. -/
def refusedRet (s : Net) (fin : Bool) (seg : Option Segment) : Option Net :=
  match (s.stack.pcbs s.tpcb).refused_data with
  | some _ => some { s with pos := if seg.any fun seg => 0 < seg.tcplen then .idle else .next seg }
  | none =>
    s.setTcb (fun tcb => { tcb with refusedFin := false })
      (if fin then .refusedFin seg else .next seg)

/-- `tcp_process`. Entering TIME_WAIT purges the pcb, which holds no refused data
    then. -/
def process (s : Net) (seg : Segment) : Option Net :=
  if seg.rst then s.stackStep (.err s.tpcb .ERR_RST) .idle
  else
    let res := (s.stack.pcbs s.tpcb).tcb.state.tcp_process seg
    s.setTcb (fun tcb => { tcb with state := res.1 }) (.sent res.2)

/-- `tcp_input_delayed_close`. -/
def delayedClose (s : Net) (r : Received) : Option Net :=
  if r.closed then
    if (s.stack.pcbs s.tpcb).tcb.rxClosed then s.free else s.stackStep (.err s.tpcb .ERR_CLSD) .idle
  else some { s with pos := .data r }

/-- New data is handed to the recv callback. After `TF_RXCLOSED` the pcb is aborted
    instead, and the err callback is not run for one in TIME_WAIT. -/
def recvData (s : Net) (r : Received) : Option Net :=
  match r.data with
  | none => some { s with pos := .fin r }
  | some p =>
    if (s.stack.pcbs s.tpcb).tcb.rxClosed then
      if (s.stack.pcbs s.tpcb).tcb.state = .TIME_WAIT then s.free
      else s.stackStep (.err s.tpcb .ERR_ABRT) .idle
    else s.stackStep (.recv s.tpcb p) (.fin r)

/-- The FIN is reported, or kept for later with the refused data. -/
def recvFin (s : Net) (r : Received) : Option Net :=
  if r.fin then
    if (s.stack.pcbs s.tpcb).refused_data.isSome then
      s.setTcb (fun tcb => { tcb with refusedFin := true }) .idle
    else s.stackStep (.recvFin s.tpcb) .idle
  else some { s with pos := .idle }

/-- The next part of `tcp_input`. It ends early when a callback has ended the pcb:
    by `goto aborted`, or because `closeInternal` has cleared the callbacks. -/
def inputStep (s : Net) : Option Net :=
  match s.stack.holder with
  | .lwip _ =>
    if (s.stack.pcbs s.tpcb).gone then some { s with pos := .idle }
    else
      match s.pos with
      | .idle => none
      | .refused seg =>
        s.stackStep (.refused s.tpcb) (.refusedRet (s.stack.pcbs s.tpcb).tcb.refusedFin seg)
      | .refusedRet fin seg => s.refusedRet fin seg
      | .refusedFin seg => s.stackStep (.recvFin s.tpcb) (.next seg)
      | .process seg => s.process seg
      | .sent r =>
        if r.acked then s.stackStep (.sent s.tpcb) (.delayedClose r)
        else some { s with pos := .delayedClose r }
      | .delayedClose r => s.delayedClose r
      | .data r => s.recvData r
      | .fin r => s.recvFin r
  | _ => none

/-- A section of Go. The connect goroutine may enter `tcp_process_refused_data`. -/
def goStep (s : Net) (a : Act) : Option Net :=
  if a.ofGo = true ∧ (a.between = true → s.pos = .idle) then
    (s.stack.step a).map fun stack =>
      match a with
      | .run t =>
        match s.stack.procs t with
        | .refused c =>
          if (s.stack.pcbs c).refused_data.isSome then
            ⟨stack, c, .refusedRet (s.stack.pcbs c).tcb.refusedFin none⟩
          else { s with stack }
        | _ => { s with stack }
      | _ => { s with stack }
  else none

def step (s : Net) : NetAct → Option Net
  | .segment c seg =>
    if s.ready ∧ s.active c then
      some { s with
        tpcb := c
        pos := if (s.stack.pcbs c).refused_data.isSome then .refused (some seg) else .process seg }
    else none
  | .input => s.inputStep
  | .closePend c =>
    if s.ready ∧ s.active c ∧ (s.stack.pcbs c).tcb.closePend = true then
      { s with tpcb := c }.setTcb (fun tcb => { tcb with closePend := false, state := tcb.state.fin }) .idle
    else none
  | .retry c =>
    if s.ready ∧ s.active c ∧ (s.stack.pcbs c).refused_data.isSome = true then
      some { s with tpcb := c, pos := .refused none }
    else none
  | .poll c => if s.ready ∧ s.active c then { s with tpcb := c }.stackStep (.poll c) .idle else none
  | .remove c =>
    if s.ready ∧ s.active c then { s with tpcb := c }.stackStep (.err c .ERR_ABRT) .idle else none
  | .expire c =>
    if s.ready ∧ s.stack.live c ∧ (s.stack.pcbs c).tcb.freed = false ∧
      (s.stack.pcbs c).tcb.state = .TIME_WAIT then
      { s with tpcb := c }.free
    else none
  | .go a => s.goStep a

def init : Net := ⟨Stack.init, 0, .idle⟩

end Net

/-- The package with lwIP's input path and timers. -/
def netMachine : Machine Net NetAct := ⟨Net.init, Net.step⟩

/-! ### Every step of the input path -/

/-- How `tcp_input` goes on with the pcb of `c`: from where, with which section of
    the package, and to where. -/
inductive InputMove (pcb : TcpPcb) (c : ConnId) : InputAt → Option Act → InputAt → Prop where
  | refused {seg : Option Segment} :
      InputMove pcb c (.refused seg) (some (.refused c)) (.refusedRet pcb.tcb.refusedFin seg)
  | refusedAgain {fin : Bool} {seg : Option Segment} {p : Pbuf} {pos : InputAt}
      (hrefused : pcb.refused_data = some p)
      (hpos : pos = .idle ∨ ∃ seg', seg = some seg' ∧ seg'.tcplen = 0 ∧ pos = .process seg') :
      InputMove pcb c (.refusedRet fin seg) none pos
  | refusedTaken {fin : Bool} {seg : Option Segment} (hrefused : pcb.refused_data = none) :
      InputMove pcb c (.refusedRet fin seg) (some (.tcp c { pcb.tcb with refusedFin := false }))
        (if fin then .refusedFin seg else .next seg)
  | refusedFin {seg : Option Segment} :
      InputMove pcb c (.refusedFin seg) (some (.recvFin c)) (.next seg)
  | reset {seg : Segment} (hrst : seg.rst = true) :
      InputMove pcb c (.process seg) (some (.err c .ERR_RST)) .idle
  | process {seg : Segment} (hrst : seg.rst = false) :
      InputMove pcb c (.process seg)
        (some (.tcp c { pcb.tcb with state := (pcb.tcb.state.tcp_process seg).1 }))
        (.sent (pcb.tcb.state.tcp_process seg).2)
  | sent {r : Received} (hacked : r.acked = true) :
      InputMove pcb c (.sent r) (some (.sent c)) (.delayedClose r)
  | sentNone {r : Received} (hacked : r.acked = false) :
      InputMove pcb c (.sent r) none (.delayedClose r)
  | closedSilent {r : Received} (hclosed : r.closed = true) (hrx : pcb.tcb.rxClosed = true) :
      InputMove pcb c (.delayedClose r) (some (.tcp c { pcb.tcb with freed := true })) .idle
  | closedErr {r : Received} (hclosed : r.closed = true) (hrx : pcb.tcb.rxClosed = false) :
      InputMove pcb c (.delayedClose r) (some (.err c .ERR_CLSD)) .idle
  | notClosed {r : Received} (hclosed : r.closed = false) :
      InputMove pcb c (.delayedClose r) none (.data r)
  | dataNone {r : Received} (hdata : r.data = none) : InputMove pcb c (.data r) none (.fin r)
  | dataSilent {r : Received} {p : Pbuf} (hdata : r.data = some p) (hrx : pcb.tcb.rxClosed = true)
      (hstate : pcb.tcb.state = .TIME_WAIT) :
      InputMove pcb c (.data r) (some (.tcp c { pcb.tcb with freed := true })) .idle
  | dataAbort {r : Received} {p : Pbuf} (hdata : r.data = some p) (hrx : pcb.tcb.rxClosed = true)
      (hstate : pcb.tcb.state ≠ .TIME_WAIT) :
      InputMove pcb c (.data r) (some (.err c .ERR_ABRT)) .idle
  | data {r : Received} {p : Pbuf} (hdata : r.data = some p) (hrx : pcb.tcb.rxClosed = false) :
      InputMove pcb c (.data r) (some (.recv c p)) (.fin r)
  | finRefused {r : Received} {p : Pbuf} (hfin : r.fin = true)
      (hrefused : pcb.refused_data = some p) :
      InputMove pcb c (.fin r) (some (.tcp c { pcb.tcb with refusedFin := true })) .idle
  | fin {r : Received} (hfin : r.fin = true) (hrefused : pcb.refused_data = none) :
      InputMove pcb c (.fin r) (some (.recvFin c)) .idle
  | finNone {r : Received} (hfin : r.fin = false) : InputMove pcb c (.fin r) none .idle

/-- A section of the package, or none. -/
inductive MayStep (s : Stack) : Option Act → Stack → Prop where
  | none : MayStep s none s
  | some {a : Act} {s' : Stack} (hstep : s.step a = some s') : MayStep s (some a) s'

/-- Everything a step with lwIP's input path can do. -/
inductive NetMove (s : Net) : NetAct → Net → Prop where
  | segment {c : ConnId} {seg : Segment} (hready : s.ready) (hactive : s.active c)
      (hrefused : (s.stack.pcbs c).refused_data = none) :
      NetMove s (.segment c seg) { s with tpcb := c, pos := .process seg }
  | offer {a : NetAct} {c : ConnId} {seg : Option Segment} {p : Pbuf} (hready : s.ready)
      (hactive : s.active c) (hrefused : (s.stack.pcbs c).refused_data = some p) :
      NetMove s a { s with tpcb := c, pos := .refused seg }
  | closePend {c : ConnId} {stack : Stack} (hready : s.ready) (hactive : s.active c)
      (hpend : (s.stack.pcbs c).tcb.closePend = true)
      (hstep : s.stack.step (.tcp c { (s.stack.pcbs c).tcb with
        closePend := false, state := (s.stack.pcbs c).tcb.state.fin }) = some stack) :
      NetMove s (.closePend c) ⟨stack, c, .idle⟩
  | poll {c : ConnId} {stack : Stack} (hready : s.ready) (hactive : s.active c)
      (hstep : s.stack.step (.poll c) = some stack) :
      NetMove s (.poll c) ⟨stack, c, .idle⟩
  | remove {c : ConnId} {stack : Stack} (hready : s.ready) (hactive : s.active c)
      (hstep : s.stack.step (.err c .ERR_ABRT) = some stack) :
      NetMove s (.remove c) ⟨stack, c, .idle⟩
  | expire {c : ConnId} {stack : Stack} (hready : s.ready)
      (hstate : (s.stack.pcbs c).tcb.state = .TIME_WAIT)
      (hstep : s.stack.step (.tcp c { (s.stack.pcbs c).tcb with freed := true }) = some stack) :
      NetMove s (.expire c) ⟨stack, c, .idle⟩
  | ended {owner : Option Tid} (hholder : s.stack.holder = .lwip owner)
      (hgone : (s.stack.pcbs s.tpcb).gone = true) : NetMove s .input { s with pos := .idle }
  | input {act : Option Act} {pos : InputAt} {stack : Stack} {owner : Option Tid}
      (hholder : s.stack.holder = .lwip owner) (hgone : (s.stack.pcbs s.tpcb).gone = false)
      (hmove : InputMove (s.stack.pcbs s.tpcb) s.tpcb s.pos act pos)
      (hmay : MayStep s.stack act stack) : NetMove s .input { s with stack, pos }
  | take {t : Tid} {c : ConnId} {p : Pbuf} {stack : Stack} (hproc : s.stack.procs t = .refused c)
      (hrefused : (s.stack.pcbs c).refused_data = some p)
      (hstep : s.stack.step (.run t) = some stack) :
      NetMove s (.go (.run t)) ⟨stack, c, .refusedRet (s.stack.pcbs c).tcb.refusedFin none⟩
  | go {a : Act} {stack : Stack} (hgo : a.ofGo = true) (hbetween : a.between = true → s.pos = .idle)
      (hnot : ∀ t c p, a = .run t → s.stack.procs t = .refused c →
        (s.stack.pcbs c).refused_data ≠ some p)
      (hstep : s.stack.step a = some stack) : NetMove s (.go a) { s with stack }

namespace Net

/-- A step that runs one section of the package. -/
theorem stackStep_eq {s s' : Net} {a : Act} {pos : InputAt} (hstep : s.stackStep a pos = some s') :
    ∃ stack, s.stack.step a = some stack ∧ s' = { s with stack, pos } := by
  obtain ⟨stack, hstack, rfl⟩ := Option.map_eq_some_iff.mp hstep
  exact ⟨stack, hstack, rfl⟩

private theorem input_of_stackStep {s s' : Net} {a : Act} {pos : InputAt} {owner : Option Tid}
    (hholder : s.stack.holder = .lwip owner) (hgone : (s.stack.pcbs s.tpcb).gone = false)
    (hmove : InputMove (s.stack.pcbs s.tpcb) s.tpcb s.pos (some a) pos)
    (hstep : s.stackStep a pos = some s') :
    NetMove s .input s' := by
  obtain ⟨stack, hstack, rfl⟩ := stackStep_eq hstep
  exact .input hholder hgone hmove (.some hstack)

/-- The parts of `tcp_process_refused_data`. -/
theorem refusedRet_move {s s' : Net} {owner : Option Tid} {fin : Bool} {seg : Option Segment}
    (hholder : s.stack.holder = .lwip owner) (hgone : (s.stack.pcbs s.tpcb).gone = false)
    (hpos : s.pos = .refusedRet fin seg) (hstep : s.refusedRet fin seg = some s') :
    NetMove s .input s' := by
  unfold refusedRet at hstep
  cases hrefused : (s.stack.pcbs s.tpcb).refused_data with
  | some p =>
    simp only [hrefused, Option.some.injEq] at hstep
    subst hstep
    refine .input hholder hgone (hpos ▸ .refusedAgain hrefused ?_) .none
    cases seg with
    | none => exact .inl rfl
    | some seg =>
      by_cases hlen : 0 < seg.tcplen
      · exact .inl (by simp [hlen])
      · exact .inr ⟨seg, rfl, Nat.eq_zero_of_not_pos hlen, by simp [hlen, InputAt.next]⟩
  | none =>
    simp only [hrefused, setTcb] at hstep
    exact input_of_stackStep hholder hgone (hpos ▸ .refusedTaken hrefused) hstep

private theorem process_move {s s' : Net} {owner : Option Tid} {seg : Segment}
    (hholder : s.stack.holder = .lwip owner) (hgone : (s.stack.pcbs s.tpcb).gone = false)
    (hpos : s.pos = .process seg) (hstep : s.process seg = some s') : NetMove s .input s' := by
  unfold process at hstep
  split at hstep
  · exact input_of_stackStep hholder hgone (hpos ▸ .reset ‹_›) hstep
  · rename_i hrst
    exact input_of_stackStep hholder hgone (hpos ▸ .process (Bool.eq_false_iff.mpr hrst)) hstep

private theorem delayedClose_move {s s' : Net} {owner : Option Tid} {r : Received}
    (hholder : s.stack.holder = .lwip owner) (hgone : (s.stack.pcbs s.tpcb).gone = false)
    (hpos : s.pos = .delayedClose r) (hstep : s.delayedClose r = some s') :
    NetMove s .input s' := by
  unfold delayedClose at hstep
  split at hstep
  · rename_i hclosed
    split at hstep
    · exact input_of_stackStep hholder hgone (hpos ▸ .closedSilent hclosed ‹_›) hstep
    · rename_i hrx
      exact input_of_stackStep hholder hgone
        (hpos ▸ .closedErr hclosed (Bool.eq_false_iff.mpr hrx)) hstep
  · rename_i hclosed
    cases hstep
    exact .input hholder hgone (hpos ▸ .notClosed (Bool.eq_false_iff.mpr hclosed)) .none

private theorem recvData_move {s s' : Net} {owner : Option Tid} {r : Received}
    (hholder : s.stack.holder = .lwip owner) (hgone : (s.stack.pcbs s.tpcb).gone = false)
    (hpos : s.pos = .data r) (hstep : s.recvData r = some s') :
    NetMove s .input s' := by
  unfold recvData at hstep
  split at hstep
  · rename_i hdata
    cases hstep
    exact .input hholder hgone (hpos ▸ .dataNone hdata) .none
  · rename_i p hdata
    split at hstep
    · rename_i hrx
      split at hstep
      · exact input_of_stackStep hholder hgone (hpos ▸ .dataSilent hdata hrx ‹_›) hstep
      · exact input_of_stackStep hholder hgone (hpos ▸ .dataAbort hdata hrx ‹_›) hstep
    · rename_i hrx
      exact input_of_stackStep hholder hgone (hpos ▸ .data hdata (Bool.eq_false_iff.mpr hrx)) hstep

private theorem recvFin_move {s s' : Net} {owner : Option Tid} {r : Received}
    (hholder : s.stack.holder = .lwip owner) (hgone : (s.stack.pcbs s.tpcb).gone = false)
    (hpos : s.pos = .fin r) (hstep : s.recvFin r = some s') :
    NetMove s .input s' := by
  unfold recvFin at hstep
  split at hstep
  · rename_i hfin
    cases hrefused : (s.stack.pcbs s.tpcb).refused_data with
    | some p =>
      simp only [hrefused, Option.isSome_some, if_true, setTcb] at hstep
      exact input_of_stackStep hholder hgone (hpos ▸ .finRefused hfin hrefused) hstep
    | none =>
      simp only [hrefused, Option.isSome_none, Bool.false_eq_true, if_false] at hstep
      exact input_of_stackStep hholder hgone (hpos ▸ .fin hfin hrefused) hstep
  · rename_i hfin
    cases hstep
    exact .input hholder hgone (hpos ▸ .finNone (Bool.eq_false_iff.mpr hfin)) .none

private theorem inputStep_move {s s' : Net} (hstep : s.inputStep = some s') : NetMove s .input s' := by
  unfold inputStep at hstep
  split at hstep
  · rename_i owner hholder
    by_cases hend : (s.stack.pcbs s.tpcb).gone = true
    · rw [if_pos hend] at hstep
      cases hstep
      exact .ended hholder hend
    · rw [if_neg hend] at hstep
      have hgone := Bool.eq_false_iff.mpr hend
      cases hpos : s.pos with
      | idle => simp [hpos] at hstep
      | refused seg =>
        simp only [hpos] at hstep
        exact input_of_stackStep hholder hgone (hpos ▸ .refused) hstep
      | refusedRet fin seg =>
        simp only [hpos] at hstep
        exact refusedRet_move hholder hgone hpos hstep
      | refusedFin seg =>
        simp only [hpos] at hstep
        exact input_of_stackStep hholder hgone (hpos ▸ .refusedFin) hstep
      | process seg =>
        simp only [hpos] at hstep
        exact process_move hholder hgone hpos hstep
      | sent r =>
        simp only [hpos] at hstep
        split at hstep
        · exact input_of_stackStep hholder hgone (hpos ▸ .sent ‹_›) hstep
        · rename_i hacked
          cases hstep
          exact .input hholder hgone (hpos ▸ .sentNone (Bool.eq_false_iff.mpr hacked)) .none
      | delayedClose r =>
        simp only [hpos] at hstep
        exact delayedClose_move hholder hgone hpos hstep
      | data r =>
        simp only [hpos] at hstep
        exact recvData_move hholder hgone hpos hstep
      | fin r =>
        simp only [hpos] at hstep
        exact recvFin_move hholder hgone hpos hstep
  · cases hstep

private theorem goStep_move {s s' : Net} {a : Act} (hstep : s.goStep a = some s') :
    NetMove s (.go a) s' := by
  unfold goStep at hstep
  rw [Option.ite_none_right_eq_some] at hstep
  obtain ⟨⟨hgo, hbetween⟩, hstep⟩ := hstep
  obtain ⟨stack, hstack, rfl⟩ := Option.map_eq_some_iff.mp hstep
  split
  · rename_i t
    split
    · rename_i c hproc
      cases hrefused : (s.stack.pcbs c).refused_data with
      | some p => exact .take hproc hrefused hstack
      | none =>
        refine .go hgo hbetween (fun t' c' p hact hproc' => ?_) hstack
        cases hact
        cases hproc.symm.trans hproc'
        simp [hrefused]
    · rename_i hproc
      refine .go hgo hbetween (fun t' c' p hact hproc' => ?_) hstack
      cases hact
      exact absurd hproc' (hproc c')
  · rename_i hact
    exact .go hgo hbetween (fun t' c' p h => absurd h (hact t')) hstack

theorem step_move {s s' : Net} {a : NetAct} (hstep : s.step a = some s') : NetMove s a s' := by
  cases a with
  | segment c seg =>
    simp only [step, Option.ite_none_right_eq_some, Option.some.injEq] at hstep
    obtain ⟨⟨hready, hactive⟩, rfl⟩ := hstep
    cases hrefused : (s.stack.pcbs c).refused_data with
    | some p => exact .offer hready hactive hrefused
    | none => exact .segment hready hactive hrefused
  | input => exact inputStep_move hstep
  | closePend c =>
    simp only [step, Option.ite_none_right_eq_some] at hstep
    obtain ⟨⟨hready, hactive, hpend⟩, hstep⟩ := hstep
    obtain ⟨stack, hstack, rfl⟩ := stackStep_eq hstep
    exact .closePend hready hactive hpend hstack
  | retry c =>
    simp only [step, Option.ite_none_right_eq_some, Option.some.injEq] at hstep
    obtain ⟨⟨hready, hactive, hsome⟩, rfl⟩ := hstep
    obtain ⟨p, hrefused⟩ := Option.isSome_iff_exists.mp hsome
    exact .offer hready hactive hrefused
  | poll c =>
    simp only [step, Option.ite_none_right_eq_some] at hstep
    obtain ⟨⟨hready, hactive⟩, hstep⟩ := hstep
    obtain ⟨stack, hstack, rfl⟩ := stackStep_eq hstep
    exact .poll hready hactive hstack
  | remove c =>
    simp only [step, Option.ite_none_right_eq_some] at hstep
    obtain ⟨⟨hready, hactive⟩, hstep⟩ := hstep
    obtain ⟨stack, hstack, rfl⟩ := stackStep_eq hstep
    exact .remove hready hactive hstack
  | expire c =>
    simp only [step, Option.ite_none_right_eq_some] at hstep
    obtain ⟨⟨hready, -, -, hstate⟩, hstep⟩ := hstep
    obtain ⟨stack, hstack, rfl⟩ := stackStep_eq hstep
    exact .expire hready hstate hstack
  | go a => exact goStep_move hstep

end Net

end tun2proxy.core
