import Tun2Proxy.Tcp.Release

open tun2proxy.machine tun2proxy.machine.Machine

namespace tun2proxy.core

/-- The peer's FIN has come while lwIP's own was not out, or not yet answered. -/
def TcpState.passive : TcpState → Bool
  | .CLOSE_WAIT | .LAST_ACK => true
  | _ => false

/-- The peer's FIN has come after lwIP's own was out. -/
def TcpState.finished : TcpState → Bool
  | .CLOSING | .TIME_WAIT => true
  | _ => false

namespace TcpState

variable {st : TcpState} {seg : Segment}

/-- What `tcp_process` leaves to report. -/
theorem tcp_process_received (hst : st ≠ .TIME_WAIT) :
    (st.tcp_process seg).2 = { st.tcp_receive seg with closed := st = .LAST_ACK && seg.ackAll } := by
  cases st with
  | TIME_WAIT => exact absurd rfl hst
  | FIN_WAIT_1 =>
    simp only [tcp_process]
    split <;> rfl
  | _ => rfl

/-- Data and FIN come only with a segment that has a length. -/
theorem tcp_process_len (hst : st ≠ .TIME_WAIT)
    (h : ((st.tcp_process seg).2.data.isSome || (st.tcp_process seg).2.fin) = true) :
    0 < seg.tcplen := by
  rw [tcp_process_received hst, Bool.or_eq_true] at h
  obtain hdata | hfin := h
  · apply seg.data_len
    simp only [tcp_receive] at hdata
    split at hdata
    · exact hdata
    · cases hdata
  · apply seg.fin_len
    simp only [tcp_receive, Bool.and_eq_true] at hfin
    exact hfin.2

/-- The peer's FIN comes after lwIP's own. -/
theorem tcp_process_finished (hst : st.finished = false)
    (h : (st.tcp_process seg).1.finished = true) :
    (st.tcp_process seg).2.fin = true := by
  cases st with
  | CLOSING | TIME_WAIT => cases hst
  | FIN_WAIT_1 =>
    simp only [tcp_process] at h ⊢
    split at h
    · rw [if_pos ‹_›]
      assumption
    · simp only at h
      split at h <;> cases h
  | FIN_WAIT_2 =>
    simp only [tcp_process] at h ⊢
    split at h
    · assumption
    · cases h
  | ESTABLISHED | CLOSE_WAIT =>
    simp only [tcp_process] at h
    split at h <;> cases h
  | LAST_ACK => cases h

/-- The peer's FIN comes first. -/
theorem tcp_process_passive (h : (st.tcp_process seg).1.passive = true) :
    (st.tcp_process seg).2.fin = true ∨ (st.tcp_process seg).1 = st := by
  cases st with
  | CLOSE_WAIT => exact .inr (by simp [tcp_process])
  | LAST_ACK => exact .inr rfl
  | ESTABLISHED =>
    simp only [tcp_process] at h ⊢
    split at h
    · exact .inl ‹_›
    · cases h
  | FIN_WAIT_1 =>
    simp only [tcp_process] at h
    split at h <;> simp only at h <;> split at h <;> cases h
  | FIN_WAIT_2 | CLOSING =>
    simp only [tcp_process] at h
    split at h <;> cases h
  | TIME_WAIT => cases h

theorem tcp_process_timeWait (hst : st.finished = false) (h : (st.tcp_process seg).1 = .TIME_WAIT) :
    (st = .FIN_WAIT_2 ∨ st = .FIN_WAIT_1 ∧ seg.ackAll = true) ∧ seg.fin = true := by
  have hfin : (st.tcp_process seg).2.fin = true := tcp_process_finished hst (by rw [h]; rfl)
  cases st with
  | CLOSING | TIME_WAIT => cases hst
  | LAST_ACK => cases h
  | ESTABLISHED | CLOSE_WAIT =>
    simp only [tcp_process] at h
    split at h <;> cases h
  | FIN_WAIT_1 =>
    rw [tcp_process_received (by simp)] at hfin
    refine ⟨.inr ⟨rfl, ?_⟩, by simpa [tcp_receive, receives] using hfin⟩
    simp only [tcp_process] at h
    split at h <;> simp only at h <;> split at h <;> first | assumption | cases h
  | FIN_WAIT_2 =>
    rw [tcp_process_received (by simp)] at hfin
    exact ⟨.inl rfl, by simpa [tcp_receive, receives] using hfin⟩

/-- lwIP sends no FIN because of a segment. -/
theorem tcp_process_txOpen (h : (st.tcp_process seg).1.txOpen = false) : st.txOpen = false := by
  cases st with
  | ESTABLISHED | CLOSE_WAIT =>
    simp only [tcp_process] at h
    split at h <;> cases h
  | _ => rfl

end TcpState

/-- The segment makes lwIP free a pcb with `TF_RXCLOSED` without a callback: in
    LAST_ACK it acknowledges the FIN and no data; or it ends the connection with data
    that the pcb does not take any more, unless it also acknowledges data and the
    sent callback releases the connection first. -/
def Silences (tcb : Tcb) (st : TcpConnState) (seg : Segment) : Prop :=
  seg.rst = false ∧ tcb.rxClosed = true ∧
  ((tcb.state = .LAST_ACK ∧ seg.ackAll = true ∧ seg.acked = false) ∨
   ((tcb.state = .FIN_WAIT_2 ∨ tcb.state = .FIN_WAIT_1 ∧ seg.ackAll = true) ∧ seg.fin = true ∧
    seg.data.isSome = true ∧ ¬(seg.acked = true ∧ (st = .tcpClosing ∨ st = .tcpAborting))))

instance (tcb : Tcb) (st : TcpConnState) (seg : Segment) : Decidable (Silences tcb st seg) :=
  inferInstanceAs (Decidable (_ ∧ _))

/-- `tcp_input` still has a FIN to report. -/
def InputAt.hasFin : InputAt → Bool
  | .refusedRet withFin _ => withFin
  | .refusedFin _ => true
  | .sent r | .delayedClose r | .data r | .fin r => r.fin
  | .idle | .refused _ | .process _ => false

/-- lwIP still has a FIN to report: on its way, or kept with refused data. -/
def FinPending (pcb : TcpPcb) (pos : InputAt) : Prop :=
  (pcb.tcb.refusedFin = true ∧ pcb.refused_data ≠ none) ∨ pos.hasFin = true

/-- Without refused data, the FIN is on its way whatever becomes of the pcb. -/
theorem FinPending.of_none {pcb : TcpPcb} {pos : InputAt} (h : FinPending pcb pos)
    (hnone : pcb.refused_data = none) (pcb' : TcpPcb) : FinPending pcb' pos := by
  obtain ⟨-, hsome⟩ | hfin := h
  · exact absurd hnone hsome
  · exact .inr hfin

/-- `tcp_input` has called the recv callback with data. -/
def InputAt.receiving : InputAt → Bool
  | .refusedRet _ _ | .fin _ => true
  | _ => false

/-- With this left to report, lwIP frees the pcb without a callback. -/
def Tcb.silent (tcb : Tcb) (r : Received) : Bool :=
  tcb.rxClosed && (r.closed || (r.data.isSome && tcb.state = .TIME_WAIT))

/-- What holds of the pcb of `c` where `tcp_input` stands with it. -/
def PosOk (s : Stack) (c : ConnId) : InputAt → Prop
  | .idle | .fin _ => True
  | .refused _ => (s.pcbs c).tcb.state.finished = false
  | .refusedRet fin _ => (s.pcbs c).tcb.state.finished = false ∧
      ((s.pcbs c).refused_data ≠ none → (s.pcbs c).tcb.state.txOpen = true) ∧
      (fin = true → (s.pcbs c).tcb.refusedFin = true)
  | .refusedFin _ => (s.pcbs c).tcb.state.finished = false ∧ (s.pcbs c).refused_data = none
  | .process seg => (s.pcbs c).tcb.state.finished = false ∧
      ((s.pcbs c).refused_data = none ∨ seg.tcplen = 0 ∧ (s.pcbs c).tcb.state.txOpen = true)
  | .sent r => ((r.data.isSome || r.fin) = true → (s.pcbs c).refused_data = none) ∧
      ((s.pcbs c).tcb.silent r = true → r.acked = true ∧
        (s.conns c).state.closesAt .isClosed = true)
  | .delayedClose r | .data r =>
    ((r.data.isSome || r.fin) = true → (s.pcbs c).refused_data = none) ∧
      ((s.pcbs c).tcb.silent r = true → Closes s c)

/-- `tcp_input` goes on with the segment, if there is one. -/
theorem PosOk.next {s : Stack} {c : ConnId} (hunfinished : (s.pcbs c).tcb.state.finished = false)
    (hnone : (s.pcbs c).refused_data = none) (seg : Option Segment) : PosOk s c (.next seg) := by
  cases seg with
  | none => trivial
  | some seg => exact ⟨hunfinished, .inl hnone⟩

/-- How a registered connection and its pcb go together. -/
structure Linked (s : Stack) (c : ConnId) (pos : InputAt) : Prop where
  gone : (s.pcbs c).gone = false
  freed : (s.pcbs c).tcb.freed = false
  conn : ∀ k, s.holder = .task k → k.caller.tpcb = some c → k.conn = c
  receive : ∀ k p owner, s.holder = .task k → k.caller = .recv c (some p) owner →
    (s.pcbs c).refused_data = none ∧ pos.receiving = true
  ret : ∀ k p owner, s.holder = .task k → k.caller = .recv c (some p) owner →
    k.stage = .ret (some .LWIP_ERR_CONN) → (s.pcbs c).tcb.state.txOpen = true
  -- a FIN that came first is known to the connection, or will be
  passive : (s.pcbs c).tcb.state.passive = true →
    .tcpReceiveClosed ≤ (s.conns c).state ∨ FinPending (s.pcbs c) pos ∨ LocalClosing s c
  -- the FIN that ends the connection releases it
  finished : (s.pcbs c).tcb.state.finished = true →
    (s.pcbs c).refused_data = none ∧ (pos.hasFin = true ∨ Closes s c)
  pos : PosOk s c pos

private theorem TcpConnState.closesAt_isClosed_iff {st : TcpConnState} :
    st.closesAt .isClosed = true ↔ st.txClosed = true ∧ .tcpReceiveClosed ≤ st ∧ ¬st.released := by
  cases st <;> decide

/-- A connection that is closed on both sides stays so until it is released. -/
theorem Section.closesAt {s s' : Stack} {a : Act} {c : ConnId} (hsec : Section s a s')
    (hc : c < s.accepted) (haccept : ∀ owner, s.holder ≠ .accept c owner)
    (hopen' : ¬(s'.conns c).state.released)
    (hcloses : (s.conns c).state.closesAt .isClosed = true) :
    (s'.conns c).state.closesAt .isClosed = true := by
  obtain ⟨htx, hrx, -⟩ := TcpConnState.closesAt_isClosed_iff.mp hcloses
  exact TcpConnState.closesAt_isClosed_iff.mpr
    ⟨hsec.txClosed hc haccept htx, hsec.rxClosed hc haccept hrx, hopen'⟩

theorem Busy.not_free {s : Stack} (hinv : Busy s) : s.holder ≠ .free := by
  cases hinv with
  | lwip owner hholder => simp [hholder]
  | callback k _ hholder _ => simp [hholder]

private theorem Busy.not_accept {s : Stack} (hinv : Busy s) (c : ConnId) (owner : Option Tid) :
    s.holder ≠ .accept c owner := by
  cases hinv with
  | lwip owner hholder => simp [hholder]
  | callback k _ hholder _ => simp [hholder]

private theorem TcpState.txOpen_of_finished {st : TcpState} (h : st.finished = true) :
    st.txOpen = false := by
  cases st <;> first | rfl | cases h

private theorem TcpState.ne_timeWait_of_unfinished {st : TcpState} (h : st.finished = false) :
    st ≠ .TIME_WAIT := by
  intro heq
  rw [heq] at h
  cases h

theorem TcpState.passive_of_fin (st : TcpState) (h : st.fin.passive = true) :
    st.passive = true := by
  cases st <;> first | rfl | cases h

theorem TcpState.finished_of_fin (st : TcpState) (h : st.fin.finished = true) :
    st.finished = true := by
  cases st <;> first | rfl | cases h

/-- A section of Go that leaves connection `c` registered, with `tcp_input` at
    `pos`; it is not the one that enters `tcp_process_refused_data`. -/
structure GoStep (s : Stack) (a : Act) (s' : Stack) (c : ConnId) (pos : InputAt) : Prop where
  reg : Registry s
  tx : TxInv s
  sec : Section s a s'
  go : a.ofGo = true
  busy : pos ≠ .idle → Busy s
  not_take : ∀ t p, a = .run t → s.procs t = .refused c → (s.pcbs c).refused_data ≠ some p
  old : s.registered c
  new : s'.registered c
  new_open : ¬(s'.conns c).state.released
  new_gone : (s'.pcbs c).gone = false

namespace GoStep

variable {s s' : Stack} {a : Act} {c : ConnId} {pos : InputAt}

theorem lt (h : GoStep s a s' c pos) : c < s.accepted := h.reg.registered_lt h.old

theorem closes (h : GoStep s a s' c pos) (hcloses : Closes s c) : Closes s' c :=
  hcloses.step h.sec (h.reg.registered_open h.old) h.new

/-- A callback on the pcb was running before. -/
theorem task (h : GoStep s a s' c pos) {k' : Task} (hk' : s'.holder = .task k')
    (htpcb : k'.caller.tpcb = some c) :
    ∃ k, s.holder = .task k ∧ k'.caller = k.caller ∧ k'.conn = k.conn ∧
      (k'.stage = .ret (some .LWIP_ERR_CONN) →
        k.stage = .ret (some .LWIP_ERR_CONN) ∨ (s.conns k.conn).state < .tcpConnected) := by
  cases h.sec.goTask h.go hk' htpcb with
  | going k hholder hcaller hconn hret => exact ⟨k, hholder, hcaller, hconn, hret⟩
  | take t p hact hproc _ hrefused _ _ _ => exact absurd hrefused (h.not_take t p hact hproc)

/-- A FIN that the connection knows, or lwIP still has, is not lost. -/
theorem passive (h : GoStep s a s' c pos) (hpassive : (s.pcbs c).tcb.state.passive = true)
    {P P' : Prop} (hfin : P → P')
    (hold : .tcpReceiveClosed ≤ (s.conns c).state ∨ P ∨ LocalClosing s c) :
    .tcpReceiveClosed ≤ (s'.conns c).state ∨ P' ∨ LocalClosing s' c := by
  obtain hclosed | hpending | hlocal := hold
  · refine .inl (h.sec.rxClosed h.lt (fun owner hholder => ?_) hclosed)
    rw [(h.tx.accept c owner hholder).2.1] at hpassive
    cases hpassive
  · exact .inr (.inl (hfin hpending))
  · obtain hlocal | hclosed := LocalClosing.step h.sec hlocal
    · exact .inr (.inr hlocal)
    · exact .inl hclosed

end GoStep

namespace Linked

section
variable {s s' : Stack} {a : Act} {c : ConnId} {pos : InputAt}

/-- While no callback runs on the pcb, lwIP itself holds what is left to report. -/
theorem of_quiet (hgone : (s.pcbs c).gone = false) (hfreed : (s.pcbs c).tcb.freed = false)
    (hquiet : ∀ k, s.holder = .task k → k.caller.tpcb ≠ some c)
    (hpassive : (s.pcbs c).tcb.state.passive = true → .tcpReceiveClosed ≤ (s.conns c).state ∨
      FinPending (s.pcbs c) pos)
    (hfinished : (s.pcbs c).tcb.state.finished = true → (s.pcbs c).refused_data = none ∧
      pos.hasFin = true)
    (hpos : PosOk s c pos) : Linked s c pos where
  gone := hgone
  freed := hfreed
  conn k hk htpcb := absurd htpcb (hquiet k hk)
  receive k _ _ hk hcaller := absurd (by rw [hcaller]; rfl) (hquiet k hk)
  ret k _ _ hk hcaller := absurd (by rw [hcaller]; rfl) (hquiet k hk)
  passive h := (hpassive h).imp_right .inl
  finished h := (hfinished h).imp_right .inl
  pos := hpos

theorem passive_quiet (hinv : Linked s c pos) (hquiet : ∀ k, s.holder ≠ .task k)
    (hpassive : (s.pcbs c).tcb.state.passive = true) :
    .tcpReceiveClosed ≤ (s.conns c).state ∨ FinPending (s.pcbs c) pos := by
  obtain h | h | ⟨k, hk, -⟩ := hinv.passive hpassive
  · exact .inl h
  · exact .inr h
  · exact absurd hk (hquiet k)

theorem finished_quiet (hinv : Linked s c pos) (hquiet : ∀ k, s.holder ≠ .task k)
    (hfinished : (s.pcbs c).tcb.state.finished = true) :
    (s.pcbs c).refused_data = none ∧ pos.hasFin = true := by
  obtain ⟨hnone, h | ⟨k, hk, -⟩⟩ := hinv.finished hfinished
  · exact ⟨hnone, h⟩
  · exact absurd hk (hquiet k)

/-- Between two segments no connection is left with both FINs exchanged. -/
theorem unfinished (hinv : Linked s c .idle) (hquiet : ∀ k, s.holder ≠ .task k) :
    (s.pcbs c).tcb.state.finished = false := by
  rw [Bool.eq_false_iff]
  intro hfinished
  cases (hinv.finished_quiet hquiet hfinished).2

/-! ### Sections of Go -/

/-- Nothing changes for `tcp_input` when the pcb does not. -/
theorem pos_go (hinv : Linked s c pos) (h : GoStep s a s' c pos)
    (htcb : (s'.pcbs c).tcb = (s.pcbs c).tcb)
    (hrefused : (s'.pcbs c).refused_data = (s.pcbs c).refused_data) : PosOk s' c pos := by
  have hpos := hinv.pos
  cases pos with
  | idle => trivial
  | fin r => trivial
  | refused seg => simpa only [PosOk, htcb] using hpos
  | refusedRet withFin seg => simpa only [PosOk, htcb, hrefused] using hpos
  | refusedFin seg => simpa only [PosOk, htcb, hrefused] using hpos
  | process seg => simpa only [PosOk, htcb, hrefused] using hpos
  | sent r =>
    obtain ⟨hnone, hsilent⟩ := hpos
    simp only [PosOk, htcb, hrefused]
    refine ⟨hnone, fun hs => ⟨(hsilent hs).1, ?_⟩⟩
    exact h.sec.closesAt h.lt ((h.busy (by simp)).not_accept c) h.new_open (hsilent hs).2
  | delayedClose r | data r =>
    obtain ⟨hnone, hsilent⟩ := hpos
    simp only [PosOk, htcb, hrefused]
    exact ⟨hnone, fun hs => h.closes (hsilent hs)⟩

/-- The handler does not have the connection yet, so it has not closed it. -/
theorem ret_go (hinv : Linked s c pos) (h : GoStep s a s' c pos) {k' : Task} {p : Pbuf}
    {owner : Option Tid} (hk' : s'.holder = .task k')
    (hcaller' : k'.caller = .recv c (some p) owner)
    (hstage' : k'.stage = .ret (some .LWIP_ERR_CONN)) : (s.pcbs c).tcb.state.txOpen = true := by
  obtain ⟨k, hholder, hcaller, -, hret⟩ := h.task hk' (by rw [hcaller']; rfl)
  rw [hcaller] at hcaller'
  obtain hstage | hstate := hret hstage'
  · exact hinv.ret k p owner hholder hcaller' hstage
  · rw [hinv.conn k hholder (by rw [hcaller']; rfl)] at hstate
    rw [← Bool.not_eq_false]
    intro hfalse
    have hclosed := h.tx.closed c h.lt (.state hfalse)
    revert hclosed hstate
    cases (s.conns c).state <;> decide

/-- Sections that leave the pcb as lwIP has it. -/
theorem keep_go (hinv : Linked s c pos) (h : GoStep s a s' c pos)
    (htcb : (s'.pcbs c).tcb = (s.pcbs c).tcb)
    (hrefused : (s'.pcbs c).refused_data = (s.pcbs c).refused_data) : Linked s' c pos := by
  constructor
  · exact h.new_gone
  · rw [htcb]
    exact hinv.freed
  · intro k' hk' htpcb
    obtain ⟨k, hholder, hcaller, hconn, -⟩ := h.task hk' htpcb
    exact hconn.trans (hinv.conn k hholder (hcaller ▸ htpcb))
  · intro k' p owner hk' hcaller'
    rw [hrefused]
    obtain ⟨k, hholder, hcaller, -, -⟩ := h.task (c := c) hk' (by rw [hcaller']; rfl)
    exact hinv.receive k p owner hholder (hcaller ▸ hcaller')
  · intro k' p owner hk' hcaller' hstage'
    rw [htcb]
    exact hinv.ret_go h hk' hcaller' hstage'
  · rw [htcb]
    intro hpassive
    refine h.passive hpassive ?_ (hinv.passive hpassive)
    unfold FinPending
    rw [htcb, hrefused]
    exact id
  · rw [htcb, hrefused]
    intro hfinished
    obtain ⟨hnone, hfin⟩ := hinv.finished hfinished
    exact ⟨hnone, hfin.imp id h.closes⟩
  · exact hinv.pos_go h htcb hrefused

/-- The recv callback refuses its data: lwIP keeps it. -/
theorem retConn_go (hinv : Linked s c pos) (h : GoStep s .task s' c pos) {k : Task} {p : Pbuf}
    {owner : Option Tid} (hholder : s.holder = .task k)
    (hcaller : k.caller = .recv c (some p) owner) (hstage : k.stage = .ret (some .LWIP_ERR_CONN))
    (htcb : (s'.pcbs c).tcb = (s.pcbs c).tcb) :
    Linked s' c pos := by
  have hend := h.sec.ret_holder hholder hstage
  have hopen := hinv.ret k p owner hholder hcaller hstage
  obtain ⟨hnone, hreceiving⟩ := hinv.receive k p owner hholder hcaller
  refine ⟨h.new_gone, htcb ▸ hinv.freed, fun k' hk' => absurd hk' (hend k'),
    fun k' _ _ hk' => absurd hk' (hend k'), fun k' _ _ hk' => absurd hk' (hend k'), ?_, ?_, ?_⟩
  · rw [htcb]
    intro hpassive
    exact h.passive hpassive (fun hfin => hfin.of_none hnone _) (hinv.passive hpassive)
  · rw [htcb]
    intro hfinished
    rw [TcpState.txOpen_of_finished hfinished] at hopen
    cases hopen
  · have hpos := hinv.pos
    cases pos with
    | refusedRet withFin seg =>
      obtain ⟨hnot, -, hfin⟩ := hpos
      simp only [PosOk, htcb]
      exact ⟨hnot, fun _ => hopen, hfin⟩
    | fin r => trivial
    | _ => cases hreceiving

/-- It wants no more data: Go shuts the receiving side down. -/
theorem retClsd_go (hinv : Linked s c pos) (h : GoStep s .task s' c pos) {k : Task} {p : Pbuf}
    {owner : Option Tid} (hholder : s.holder = .task k)
    (hcaller : k.caller = .recv c (some p) owner) (hstage : k.stage = .ret (some .LWIP_ERR_CLSD))
    (htcb : (s'.pcbs c).tcb = { (s.pcbs c).tcb with rxClosed := true })
    (hrefused : (s'.pcbs c).refused_data = none) : Linked s' c pos := by
  have hend := h.sec.ret_holder hholder hstage
  obtain ⟨hnone, hreceiving⟩ := hinv.receive k p owner hholder hcaller
  refine ⟨h.new_gone, ?_, fun k' hk' => absurd hk' (hend k'),
    fun k' _ _ hk' => absurd hk' (hend k'), fun k' _ _ hk' => absurd hk' (hend k'), ?_, ?_, ?_⟩
  · rw [htcb]
    exact hinv.freed
  · rw [htcb]
    intro hpassive
    exact h.passive hpassive (fun hfin => hfin.of_none hnone _) (hinv.passive hpassive)
  · rw [htcb]
    intro hfinished
    exact ⟨hrefused, (hinv.finished hfinished).2.imp id h.closes⟩
  · have hpos := hinv.pos
    cases pos with
    | refusedRet withFin seg =>
      obtain ⟨hnot, -, hfin⟩ := hpos
      simp only [PosOk, htcb]
      exact ⟨hnot, fun hsome => absurd hrefused hsome, hfin⟩
    | fin r => trivial
    | _ => cases hreceiving

/-- `CloseWrite` shuts the sending side down. -/
theorem shutdown_go (hinv : Linked s c pos) (h : GoStep s a s' c pos) (hholder : s.holder = .free)
    (htcb : (s'.pcbs c).tcb = { (s.pcbs c).tcb with state := (s.pcbs c).tcb.state.fin } ∨
      (s'.pcbs c).tcb = { (s.pcbs c).tcb with closePend := true })
    (hrefused : (s'.pcbs c).refused_data = (s.pcbs c).refused_data) : Linked s' c pos := by
  have hquiet (k : Task) : s.holder ≠ .task k := by simp [hholder]
  have hidle : pos = .idle := by
    by_contra hne
    exact (h.busy hne).not_free hholder
  have hstate {P : TcpState → Bool} (hfin : ∀ st, P st.fin = true → P st = true)
      (hP : P (s'.pcbs c).tcb.state = true) : P (s.pcbs c).tcb.state = true := by
    obtain htcb | htcb := htcb
    · rw [htcb] at hP
      exact hfin _ hP
    · rw [htcb] at hP
      exact hP
  have hfinPending : FinPending (s.pcbs c) pos → FinPending (s'.pcbs c) pos := by
    unfold FinPending
    rw [hrefused]
    obtain htcb | htcb := htcb <;> rw [htcb] <;> exact id
  subst hidle
  refine of_quiet h.new_gone ?_ ?_ ?_ ?_ trivial
  · obtain htcb | htcb := htcb <;> rw [htcb] <;> exact hinv.freed
  · intro k' hk' htpcb
    obtain ⟨k, hk, -⟩ := h.task hk' htpcb
    exact hquiet k hk
  · intro hpassive'
    have hpassive := hstate TcpState.passive_of_fin hpassive'
    obtain hclosed | hpending := hinv.passive_quiet hquiet hpassive
    · exact .inl (h.sec.rxClosed h.lt (by simp [hholder]) hclosed)
    · exact .inr (hfinPending hpending)
  · intro hfinished'
    rw [hrefused]
    exact hinv.finished_quiet hquiet (hstate TcpState.finished_of_fin hfinished')

theorem go (hinv : Linked s c pos) (h : GoStep s a s' c pos) : Linked s' c pos := by
  cases h.sec.goPcb h.go h.lt hinv.gone h.new_gone with
  | keep htcb hrefused => exact hinv.keep_go h htcb hrefused
  | take hact hproc _ hsome _ _ => exact absurd hsome (h.not_take _ _ hact hproc)
  | retConn hholder hcaller hstage hact htcb =>
    subst hact
    exact hinv.retConn_go h hholder hcaller hstage htcb
  | retClsd hholder hcaller hstage hact htcb hrefused =>
    subst hact
    exact hinv.retClsd_go h hholder hcaller hstage htcb hrefused
  | shutdown hholder hproc htcb hrefused => exact hinv.shutdown_go h hholder htcb hrefused

/-! ### Sections of lwIP -/

/-- A callback that has just reached the code of its connection. -/
theorem of_callback {caller : Caller} {stage : Stage}
    (hholder : s.holder = .task ⟨caller, c, stage⟩) (hgone : (s.pcbs c).gone = false)
    (hfreed : (s.pcbs c).tcb.freed = false) (hstage : ∀ e, stage ≠ .ret e)
    (hreceive : ∀ p owner, caller = .recv c (some p) owner → (s.pcbs c).refused_data = none ∧
      pos.receiving = true)
    (hpassive : (s.pcbs c).tcb.state.passive = true → .tcpReceiveClosed ≤ (s.conns c).state ∨
      FinPending (s.pcbs c) pos ∨ LocalClosing s c)
    (hfinished : (s.pcbs c).tcb.state.finished = true → (s.pcbs c).refused_data = none ∧
      (pos.hasFin = true ∨ Closes s c))
    (hpos : PosOk s c pos) : Linked s c pos where
  gone := hgone
  freed := hfreed
  conn k hk _ := by
    cases hholder.symm.trans hk
    rfl
  receive k p owner hk hcaller := by
    cases hholder.symm.trans hk
    exact hreceive p owner hcaller
  ret k p owner hk _ hret := by
    cases hholder.symm.trans hk
    exact absurd hret (hstage _)
  passive := hpassive
  finished := hfinished
  pos := hpos

/-- Sections of lwIP on other pcbs. -/
theorem beside (hinv : Linked s c .idle) {owner : Option Tid} (hholder : s.holder = .lwip owner)
    (hpcb : s'.pcbs c = s.pcbs c) (hconn : s'.conns c = s.conns c)
    (hquiet : ∀ k, s'.holder = .task k → k.caller.tpcb ≠ some c) : Linked s' c .idle := by
  have hno (k : Task) : s.holder ≠ .task k := by simp [hholder]
  refine of_quiet ?_ ?_ hquiet ?_ ?_ trivial
  · rw [hpcb]
    exact hinv.gone
  · rw [hpcb]
    exact hinv.freed
  · rw [hpcb, hconn]
    exact hinv.passive_quiet hno
  · rw [hpcb]
    exact hinv.finished_quiet hno

/-- lwIP reports a FIN, which releases a connection that is closed for writing. -/
theorem input_recvFin (hinv : Linked s c pos) (htx : TxInv s) (hlt : c < s.accepted)
    (hc : s.registered c) (hsec : Section s (.recvFin c) s')
    (hnone : (s.pcbs c).refused_data = none) {pos' : InputAt}
    (hpos : ∀ s' : Stack, (s'.pcbs c).tcb = (s.pcbs c).tcb → (s'.pcbs c).refused_data = none →
      PosOk s' c pos') :
    Linked s' c pos' := by
  obtain ⟨_, _, _, _, hcb, rfl⟩ := hsec.callback_eq rfl hc
  cases hcb with
  | recvFin =>
    refine of_callback rfl (by simp [hinv.gone]) (by simp [hinv.freed]) (by simp)
      (fun _ _ h => by cases h) ?_ ?_ ?_
    · exact fun _ => .inr (.inr ⟨_, rfl, rfl, rfl⟩)
    · simp only [Stack.setHolder_pcbs, Stack.modPcb_pcbs, if_true]
      intro hfinished
      refine ⟨hnone, .inr ⟨_, rfl, rfl, ?_⟩⟩
      exact htx.closed c hlt (.state (TcpState.txOpen_of_finished hfinished))
    · exact hpos _ (by simp) (by simp [hnone])

variable {owner : Option Tid} {seg : Option Segment} (hholder : s.holder = .lwip owner)

include hholder

/-- lwIP changes its own fields of the pcb and goes on at `pos'`. -/
theorem tcp (hinv : Linked s c pos) {tcb : Tcb} {pos' : InputAt} (hsec : Section s (.tcp c tcb) s')
    (hfreed : tcb.freed = false)
    (hpassive : tcb.state.passive = true → .tcpReceiveClosed ≤ (s.conns c).state ∨
      FinPending { s.pcbs c with tcb } pos')
    (hfinished : tcb.state.finished = true → (s.pcbs c).refused_data = none ∧ pos'.hasFin = true)
    (hpos : PosOk (s.modPcb c fun pcb => { pcb with tcb }) c pos') : Linked s' c pos' := by
  rw [hsec.tcp_eq]
  have hpcb : (s.modPcb c fun pcb => { pcb with tcb }).pcbs c = { s.pcbs c with tcb } := by simp
  refine of_quiet ?_ ?_ (by simp [hholder]) ?_ ?_ hpos
  · rw [hpcb]
    exact hinv.gone
  · rw [hpcb]
    exact hfreed
  · rw [hpcb]
    exact hpassive
  · rw [hpcb]
    exact hfinished

/-- `tcp_input` goes on without a callback. -/
theorem goOn (hinv : Linked s c pos) {pos' : InputAt}
    (hpassive : FinPending (s.pcbs c) pos → FinPending (s.pcbs c) pos')
    (hfinished : (s.pcbs c).tcb.state.finished = true → (s.pcbs c).refused_data = none →
      pos.hasFin = true → pos'.hasFin = true)
    (hpos : PosOk s c pos') : Linked s c pos' := by
  have hno (k : Task) : s.holder ≠ .task k := by simp [hholder]
  refine of_quiet hinv.gone hinv.freed (fun k hk => absurd hk (hno k)) ?_ ?_ hpos
  · intro h
    exact (hinv.passive_quiet hno h).imp_right hpassive
  · intro h
    obtain ⟨hnone, hfin⟩ := hinv.finished_quiet hno h
    exact ⟨hnone, hfinished h hnone hfin⟩

/-- lwIP offers refused data again. -/
theorem input_refused (hinv : Linked s c (.refused seg)) (hc : s.registered c)
    (hsec : Section s (.refused c) s') :
    Linked s' c (.refusedRet (s.pcbs c).tcb.refusedFin seg) := by
  have hno (k : Task) : s.holder ≠ .task k := by simp [hholder]
  obtain ⟨_, _, _, _, hcb, rfl⟩ := hsec.callback_eq rfl hc
  have hfinished : (s.pcbs c).tcb.state.finished = false := hinv.pos
  cases hcb with
  | @refused p hrefused =>
    refine of_callback rfl (by simp [hinv.gone]) (by simp [hinv.freed]) (by simp)
      (fun _ _ _ => ⟨by simp [TcpPcb.takeRefused], rfl⟩) ?_ ?_ ?_
    · simp only [Stack.setHolder_pcbs, Stack.modPcb_pcbs, if_true, TcpPcb.takeRefused_tcb]
      intro hpassive
      obtain h | h | h := hinv.passive_quiet hno hpassive
      · exact .inl h
      · exact .inr (.inl (.inr h.1))
      · cases h
    · simp [hfinished]
    · simp [PosOk, hfinished, TcpPcb.takeRefused]

/-- The refused data was taken. -/
theorem input_refusedTaken {withFin : Bool} (hinv : Linked s c (.refusedRet withFin seg))
    (hnone : (s.pcbs c).refused_data = none)
    (hsec : Section s (.tcp c { (s.pcbs c).tcb with refusedFin := false }) s') :
    Linked s' c (if withFin then .refusedFin seg else .next seg) := by
  obtain ⟨hunfinished, -⟩ := hinv.pos
  refine hinv.tcp hholder hsec hinv.freed ?_ (fun h => by rw [hunfinished] at h; cases h) ?_
  · intro hpassive
    obtain h | ⟨-, hsome⟩ | h := hinv.passive_quiet (by simp [hholder]) hpassive
    · exact .inl h
    · exact absurd hnone hsome
    · obtain rfl : withFin = true := h
      exact .inr (.inr rfl)
  · split
    · simp [PosOk, hunfinished, hnone]
    · exact .next (by simp [hunfinished]) (by simp [hnone]) seg

/-- lwIP hands over new data. -/
theorem input_data {r : Received} {p : Pbuf} (hinv : Linked s c (.data r)) (hc : s.registered c)
    (hsec : Section s (.recv c p) s') (hdata : r.data = some p) : Linked s' c (.fin r) := by
  have hno (k : Task) : s.holder ≠ .task k := by simp [hholder]
  have hnone : (s.pcbs c).refused_data = none := hinv.pos.1 (by simp [hdata])
  obtain ⟨_, _, _, _, hcb, rfl⟩ := hsec.callback_eq rfl hc
  cases hcb with
  | recv =>
    refine of_callback rfl (by simp [hinv.gone]) (by simp [hinv.freed]) (by simp)
      (fun _ _ _ => ⟨by simp [hnone], rfl⟩) ?_ ?_ trivial
    · simp only [Stack.setHolder_pcbs, Stack.modPcb_pcbs, if_true]
      intro hpassive
      exact (hinv.passive_quiet hno hpassive).imp_right fun h => .inl (h.imp_right id)
    · simp only [Stack.setHolder_pcbs, Stack.modPcb_pcbs, if_true]
      intro hfinished
      exact ⟨hnone, .inl (hinv.finished_quiet hno hfinished).2⟩

/-- The sent callback releases a connection that is closed on both sides. -/
theorem input_sent {r : Received} (hinv : Linked s c (.sent r)) (hc : s.registered c)
    (hsec : Section s (.sent c) s') : Linked s' c (.delayedClose r) := by
  have hno (k : Task) : s.holder ≠ .task k := by simp [hholder]
  obtain ⟨hnone, hsilent⟩ := hinv.pos
  obtain ⟨_, _, _, _, hcb, rfl⟩ := hsec.callback_eq rfl hc
  cases hcb with
  | sent =>
    simp only [Stack.modPcb_id]
    refine of_callback rfl hinv.gone hinv.freed (by simp) (fun _ _ h => by cases h) ?_ ?_ ?_
    · intro hpassive
      exact (hinv.passive_quiet hno hpassive).imp_right fun h => .inl h
    · intro hfinished
      exact (hinv.finished_quiet hno hfinished).imp_right .inl
    · exact ⟨hnone, fun h => ⟨_, rfl, rfl, (hsilent h).2⟩⟩

/-- A poll tick comes between two segments. -/
theorem poll (hinv : Linked s c .idle) (hc : s.registered c) (hsec : Section s (.poll c) s') :
    Linked s' c .idle := by
  have hno (k : Task) : s.holder ≠ .task k := by simp [hholder]
  obtain ⟨_, _, _, _, hcb, rfl⟩ := hsec.callback_eq rfl hc
  cases hcb with
  | poll =>
    simp only [Stack.modPcb_id]
    refine of_callback rfl hinv.gone hinv.freed (by simp) (fun _ _ h => by cases h) ?_ ?_ trivial
    · intro hpassive
      exact (hinv.passive_quiet hno hpassive).imp_right .inl
    · intro hfinished
      exact (hinv.finished_quiet hno hfinished).imp_right .inl

/-- Where lwIP is about to free the pcb silently, the sent callback comes first and
    finds a connection that is closed on both sides. -/
theorem process_silent {seg : Segment} (hreg : Registry s) (htx : TxInv s)
    (hinv : Linked s c (.process seg)) (hc : s.registered c) (hrst : seg.rst = false)
    (hok : ¬Silences (s.pcbs c).tcb (s.conns c).state seg)
    (hsilent : { (s.pcbs c).tcb with state := ((s.pcbs c).tcb.state.tcp_process seg).1 }.silent
      ((s.pcbs c).tcb.state.tcp_process seg).2 = true) :
    seg.acked = true ∧ (s.conns c).state.closesAt .isClosed = true := by
  obtain ⟨hunfinished, hrefused⟩ := hinv.pos
  have hnot := TcpState.ne_timeWait_of_unfinished hunfinished
  rw [TcpState.tcp_process_received hnot] at hsilent
  simp only [Tcb.silent, Bool.and_eq_true, Bool.or_eq_true, decide_eq_true_eq] at hsilent
  obtain ⟨hrx, ⟨hlast, hack⟩ | ⟨hdata, htime⟩⟩ := hsilent
  · have hacked : seg.acked = true := by
      rw [← Bool.not_eq_false]
      exact fun hfalse => hok ⟨hrst, hrx, .inl ⟨hlast, hack, hfalse⟩⟩
    refine ⟨hacked, TcpConnState.closesAt_isClosed_iff.mpr ⟨?_, ?_, hreg.registered_open hc⟩⟩
    · exact htx.closed c (hreg.registered_lt hc) (.state (by rw [hlast]; rfl))
    · obtain h | ⟨-, hsome⟩ | h := hinv.passive_quiet (by simp [hholder]) (by rw [hlast]; rfl)
      · exact h
      · -- data that was refused has been taken before the segment
        obtain hnone | ⟨-, hopen⟩ := hrefused
        · exact absurd hnone hsome
        · rw [hlast] at hopen
          cases hopen
      · cases h
  · obtain ⟨hstate, hfin⟩ := TcpState.tcp_process_timeWait hunfinished htime
    have hsome : seg.data.isSome = true := by
      simp only [TcpState.tcp_receive] at hdata
      split at hdata
      · exact hdata
      · cases hdata
    by_contra hcontra
    refine hok ⟨hrst, hrx, .inr ⟨hstate, hfin, hsome, fun ⟨hacked, hst⟩ => hcontra ⟨hacked, ?_⟩⟩⟩
    obtain h | h := hst <;> rw [h] <;> rfl

/-- `tcp_process`, for a segment that does not silence lwIP. -/
theorem input_process {seg : Segment} (hreg : Registry s) (htx : TxInv s)
    (hinv : Linked s c (.process seg)) (hc : s.registered c) (hrst : seg.rst = false)
    (hok : ¬Silences (s.pcbs c).tcb (s.conns c).state seg)
    (hsec : Section s (.tcp c { (s.pcbs c).tcb with
      state := ((s.pcbs c).tcb.state.tcp_process seg).1 }) s') :
    Linked s' c (.sent ((s.pcbs c).tcb.state.tcp_process seg).2) := by
  have hno (k : Task) : s.holder ≠ .task k := by simp [hholder]
  obtain ⟨hunfinished, hrefused⟩ := hinv.pos
  have hnot := TcpState.ne_timeWait_of_unfinished hunfinished
  have hnone (h : (((s.pcbs c).tcb.state.tcp_process seg).2.data.isSome ||
      ((s.pcbs c).tcb.state.tcp_process seg).2.fin) = true) : (s.pcbs c).refused_data = none := by
    obtain hnone | ⟨hlen, -⟩ := hrefused
    · exact hnone
    · have hpos := TcpState.tcp_process_len hnot h
      rw [hlen] at hpos
      cases hpos
  refine hinv.tcp hholder hsec hinv.freed ?_ ?_ ?_
  · intro hpassive
    obtain hfin | hsame := TcpState.tcp_process_passive hpassive
    · exact .inr (.inr hfin)
    · rw [hsame] at hpassive
      obtain h | h | h := hinv.passive_quiet hno hpassive
      · exact .inl h
      · exact .inr (.inl h)
      · cases h
  · intro hfinished
    have hfin := TcpState.tcp_process_finished hunfinished hfinished
    exact ⟨hnone (by simp [hfin]), hfin⟩
  · simp only [PosOk, Stack.modPcb_pcbs, if_true, Stack.modPcb_conns]
    refine ⟨hnone, fun hsilent => ?_⟩
    rw [TcpState.tcp_process_received hnot]
    exact process_silent hholder hreg htx hinv hc hrst hok hsilent

/-- The next part of `tcp_input` with the pcb of a registered connection. -/
theorem input {act : Option Act} {pos' : InputAt} (hreg : Registry s) (htx : TxInv s)
    (hinv : Linked s c pos) (hc : s.registered c) (hc' : s'.registered c)
    (hok : ∀ seg, pos = .process seg → ¬Silences (s.pcbs c).tcb (s.conns c).state seg)
    (hmove : InputMove (s.pcbs c) c pos act pos') (hmay : MayStep s act s') : Linked s' c pos' := by
  have hno (k : Task) : s.holder ≠ .task k := by simp [hholder]
  have hlt := hreg.registered_lt hc
  cases hmove with
  | refused =>
    cases hmay with
    | some hstep => exact hinv.input_refused hholder hc (Stack.step_section hstep)
  | refusedAgain hrefused hnext =>
    cases hmay
    obtain ⟨hunfinished, hopen, hfin⟩ := hinv.pos
    refine hinv.goOn hholder ?_ (fun h => by rw [hunfinished] at h; cases h) ?_
    · rintro (h | h)
      · exact .inl h
      · exact .inl ⟨hfin h, by simp [hrefused]⟩
    · obtain rfl | ⟨seg', -, hlen, rfl⟩ := hnext
      · trivial
      · exact ⟨hunfinished, .inr ⟨hlen, hopen (by simp [hrefused])⟩⟩
  | @refusedTaken withFin seg hnone =>
    cases hmay with
    | some hstep => exact hinv.input_refusedTaken hholder hnone (Stack.step_section hstep)
  | refusedFin =>
    cases hmay with
    | some hstep =>
      obtain ⟨hunfinished, hnone⟩ := hinv.pos
      refine hinv.input_recvFin htx hlt hc (Stack.step_section hstep) hnone fun s' htcb hnone' =>
        .next ?_ hnone' _
      rw [htcb]
      exact hunfinished
  | reset _ | closedErr _ _ | dataAbort _ _ _ =>
    cases hmay with
    | some hstep => exact absurd hc' ((Stack.step_section hstep).err_not_registered hc)
  | process hrst =>
    cases hmay with
    | some hstep =>
      exact hinv.input_process hholder hreg htx hc hrst (hok _ rfl) (Stack.step_section hstep)
  | sent _ =>
    cases hmay with
    | some hstep => exact hinv.input_sent hholder hc (Stack.step_section hstep)
  | sentNone hacked =>
    cases hmay
    obtain ⟨hnone, hsilent⟩ := hinv.pos
    refine hinv.goOn hholder id (fun _ _ => id) ⟨hnone, fun h => ?_⟩
    rw [(hsilent h).1] at hacked
    cases hacked
  | closedSilent hclosed hrx =>
    obtain ⟨k, hk, -⟩ := hinv.pos.2 (by simp [Tcb.silent, hclosed, hrx])
    exact absurd hk (hno k)
  | notClosed _ =>
    cases hmay
    exact hinv.goOn hholder id (fun _ _ => id) hinv.pos
  | dataNone _ =>
    cases hmay
    exact hinv.goOn hholder id (fun _ _ => id) trivial
  | dataSilent hdata hrx hstate =>
    obtain ⟨k, hk, -⟩ := hinv.pos.2 (by simp [Tcb.silent, hdata, hrx, hstate])
    exact absurd hk (hno k)
  | data hdata _ =>
    cases hmay with
    | some hstep => exact hinv.input_data hholder hc (Stack.step_section hstep) hdata
  | @finRefused r p hfin hrefused =>
    cases hmay with
    | some hstep =>
      refine hinv.tcp hholder (Stack.step_section hstep) hinv.freed (fun _ => ?_)
        (fun h => ?_) trivial
      · exact .inr (.inl ⟨rfl, by simp [hrefused]⟩)
      · rw [(hinv.finished_quiet hno h).1] at hrefused
        cases hrefused
  | fin _ hnone =>
    cases hmay with
    | some hstep =>
      exact hinv.input_recvFin htx hlt hc (Stack.step_section hstep) hnone fun _ _ _ => trivial
  | finNone hfin =>
    cases hmay
    refine hinv.goOn hholder ?_ (fun _ _ h => ?_) trivial
    · rintro (h | h)
      · exact .inl h
      · cases hfin.symm.trans h
    · cases hfin.symm.trans h

end

end Linked

end tun2proxy.core
