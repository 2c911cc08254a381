import Tun2Proxy.Tcp.Linked

open tun2proxy.machine tun2proxy.machine.Machine

namespace tun2proxy.core

/-- A step of the stack with the input path is one of the stack, or none. -/
theorem NetMove.stack {s s' : Net} {a : NetAct} (hmove : NetMove s a s') :
    s'.stack = s.stack ∨ ∃ b, s.stack.step b = some s'.stack := by
  cases hmove with
  | segment _ _ _ | offer _ _ _ | ended _ _ => exact .inl rfl
  | closePend _ _ _ hstep | poll _ _ hstep | remove _ _ hstep | expire _ _ hstep | take _ _ hstep
  | go _ _ _ hstep => exact .inr ⟨_, hstep⟩
  | input _ _ _ hmay =>
    cases hmay with
    | none => exact .inl rfl
    | some hstep => exact .inr ⟨_, hstep⟩

/-- Every run with lwIP's input path is a run of the package. -/
theorem reach_stack {ok : Net → NetAct → Prop} {s : Net} (h : Reach netMachine ok s) :
    Reach tcpMachine any s.stack := by
  refine Reach.invariant (P := fun s => Reach tcpMachine any s.stack) .init ?_ h
  intro s a s' _ ih _ hstep
  obtain hsame | ⟨b, hstack⟩ := (Net.step_move hstep).stack
  · rw [hsame]
    exact ih
  · exact .step ih trivial hstack

/-- Where `tcp_input` stands with the pcb of `c`. -/
def Net.posOf (s : Net) (c : ConnId) : InputAt := if s.tpcb = c then s.pos else .idle

/-- lwIP's input path and the package fit together. -/
structure NetInv (s : Net) : Prop where
  tx : TxInv s.stack
  busy : s.pos ≠ .idle → Busy s.stack
  linked : ∀ c, s.stack.registered c → Linked s.stack c (s.posOf c)

/-- The segment that `tcp_process` works on next. -/
def InputAt.segment : InputAt → Option Segment
  | .process seg => some seg
  | _ => none

/-- The condition on a run: no segment for a registered connection silences lwIP. -/
def NotSilenced (s : Net) : NetAct → Prop
  | .input => s.stack.registered s.tpcb → ∀ seg ∈ s.pos.segment,
      ¬Silences (s.stack.pcbs s.tpcb).tcb (s.stack.conns s.tpcb).state seg
  | _ => True

instance (s : Net) : (a : NetAct) → Decidable (NotSilenced s a)
  | .input => inferInstanceAs (Decidable (_ → ∀ seg ∈ s.pos.segment, _))
  | .segment _ _ | .closePend _ | .retry _ | .poll _ | .remove _ | .expire _ | .go _ =>
    inferInstanceAs (Decidable True)

/-- The segment that is processed does not silence lwIP. -/
theorem NotSilenced.process {s : Net} (hok : NotSilenced s .input) (hc : s.stack.registered s.tpcb)
    (seg : Segment) (hpos : s.pos = .process seg) :
    ¬Silences (s.stack.pcbs s.tpcb).tcb (s.stack.conns s.tpcb).state seg := by
  apply hok hc
  rw [hpos]
  rfl

namespace Net

theorem posOf_self (s : Net) : s.posOf s.tpcb = s.pos := if_pos rfl

theorem posOf_ne {s : Net} {c : ConnId} (hne : c ≠ s.tpcb) : s.posOf c = .idle :=
  if_neg (Ne.symm hne)

theorem posOf_idle {s : Net} (hidle : s.pos = .idle) (c : ConnId) : s.posOf c = .idle := by
  unfold posOf
  rw [hidle, ite_self]

end Net

/-- The connect goroutine under `lwipMutex` with refused data. -/
theorem Section.take_eq {s s' : Stack} {t : Tid} {c : ConnId} {p : Pbuf}
    (hsec : Section s (.run t) s') (hproc : s.procs t = .refused c)
    (hrefused : (s.pcbs c).refused_data = some p) :
    s.holder = .free ∧
      ((s.lookup c = none ∧ s'.holder = .lwip (some t)) ∨
        ∃ found, s.lookup c = some found ∧ s' =
          ((s.modPcb c fun pcb =>
            ((pcb.use .refused_data).use .tcp_process_refused_data).takeRefused).setProc t
            (.processing c)).setHolder
            (.task ⟨.recv c (some p) (some t), found, .receiveCheck⟩)) := by
  cases hsec with
  | cbFound hcb _ _ _ | cbUnknown hcb _ _ _ => cases hcb
  | procFound hproc' hholder hrefused' hfound =>
    cases hproc.symm.trans hproc'
    cases hrefused.symm.trans hrefused'
    exact ⟨hholder, .inr ⟨_, hfound, rfl⟩⟩
  | procUnknown hproc' hholder hrefused' hnone =>
    cases hproc.symm.trans hproc'
    exact ⟨hholder, .inl ⟨hnone, rfl⟩⟩
  | proc hmove =>
    generalize hp : s.procs _ = q at hmove
    cases hmove <;> cases hproc.symm.trans hp
  | conn hmove =>
    rw [hproc] at hmove
    cases hmove
  | pcb _ hmove =>
    generalize hp : s.procs _ = q at hmove
    cases hmove
    cases hproc.symm.trans hp
    rename_i hnone
    cases hrefused.symm.trans hnone
  | abortLwip hproc' _ => cases hproc.symm.trans hproc'

/-- `tcp_input` sends no FIN. -/
theorem InputMove.keep {pcb : TcpPcb} {c c' : ConnId} {pos pos' : InputAt} {tcb : Tcb}
    (hmove : InputMove pcb c pos (some (.tcp c' tcb)) pos') : c' = c ∧ TcbKeep pcb.tcb tcb := by
  cases hmove with
  | process _ => exact ⟨rfl, fun h => .inl (TcpState.tcp_process_txOpen h), id⟩
  | _ => exact ⟨rfl, .of_eq rfl rfl⟩

theorem InputMove.between {pcb : TcpPcb} {c : ConnId} {pos pos' : InputAt} {a : Act}
    (hmove : InputMove pcb c pos (some a) pos') : a.between = false := by
  cases hmove <;> rfl

theorem InputMove.tpcb {pcb : TcpPcb} {c : ConnId} {pos pos' : InputAt} {a : Act}
    (hmove : InputMove pcb c pos (some a) pos') : a.tpcb = some c := by
  cases hmove <;> rfl

namespace NetInv

variable {s s' : Net} {a : NetAct}

theorem init : NetInv Net.init where
  tx := TxInv.init
  busy h := absurd rfl h
  linked c h := by cases h

private theorem tx_step (hinv : NetInv s) (hbounds : Bounds s.stack) (hmove : NetMove s a s') :
    TxInv s'.stack := by
  have hstack {b : Act} {stack : Stack} (hstep : s.stack.step b = some stack)
      (hkeep : ∀ c tcb, b = .tcp c tcb → TcbKeep (s.stack.pcbs c).tcb tcb) : TxInv stack :=
    hinv.tx.step hbounds (Stack.step_section hstep) hkeep
  cases hmove with
  | segment _ _ _ | offer _ _ _ | ended _ _ => exact hinv.tx
  | closePend _ _ hpend hstep =>
    refine hstack hstep ?_
    rintro _ _ ⟨⟩
    exact ⟨fun _ => .inr hpend, fun h => by cases h⟩
  | poll _ _ hstep | remove _ _ hstep | take _ _ hstep => exact hstack hstep (by rintro _ _ ⟨⟩)
  | expire _ _ hstep =>
    refine hstack hstep ?_
    rintro _ _ ⟨⟩
    exact .of_eq rfl rfl
  | go hgo _ _ hstep =>
    refine hstack hstep ?_
    rintro _ _ rfl
    cases hgo
  | input _ _ hmove hmay =>
    cases hmay with
    | none => exact hinv.tx
    | some hstep =>
      refine hstack hstep ?_
      rintro _ _ rfl
      obtain ⟨rfl, hkeep⟩ := hmove.keep
      exact hkeep

private theorem busy_step (hinv : NetInv s) (hmove : NetMove s a s') (hpos : s'.pos ≠ .idle) :
    Busy s'.stack := by
  cases hmove with
  | segment hready _ _ | offer hready _ _ => exact .lwip none hready.1
  | closePend _ _ _ _ | poll _ _ _ | remove _ _ _ | expire _ _ _ | ended _ _ =>
    exact absurd rfl hpos
  | take hproc hrefused hstep =>
    obtain ⟨-, ⟨-, hholder⟩ | ⟨found, -, rfl⟩⟩ := (Stack.step_section hstep).take_eq hproc hrefused
    · exact .lwip _ hholder
    · exact .callback _ _ rfl rfl
  | go _ hbetween _ hstep =>
    refine (hinv.busy hpos).step (Stack.step_section hstep) ?_
    rw [Bool.eq_false_iff]
    exact fun h => hpos (hbetween h)
  | input hholder _ hmove hmay =>
    cases hmay with
    | none => exact .lwip _ hholder
    | some hstep => exact (Busy.lwip _ hholder).step (Stack.step_section hstep) hmove.between

/-- A section of lwIP on the pcb of `c`, after which `tcp_input` is at `pos`. -/
theorem linked_lwip (hinv : NetInv s) {b : Act} {c : ConnId} {owner : Option Tid} {stack : Stack}
    {pos : InputAt} (hholder : s.stack.holder = .lwip owner) (hstep : s.stack.step b = some stack)
    (hact : b.tpcb = some c) (hothers : ∀ c', c' ≠ c → s.posOf c' = .idle)
    (hown : s.stack.registered c → stack.registered c → Linked s.stack c (s.posOf c) →
      Linked stack c pos)
    (c' : ConnId) (hc' : stack.registered c') : Linked stack c' (Net.posOf ⟨stack, c, pos⟩ c') := by
  have hsec := Stack.step_section hstep
  have hold : s.stack.registered c' := by
    obtain h | ⟨key, rfl, -⟩ := hsec.registered hc'
    · exact h
    · cases hact
  have hlinked := hinv.linked c' hold
  by_cases heq : c' = c
  · subst heq
    rw [Net.posOf, if_pos rfl]
    exact hown hold hc' hlinked
  · rw [hothers c' heq] at hlinked
    obtain ⟨hpcb, hconn, hquiet⟩ := hsec.beside hact heq hc'
    rw [Net.posOf, if_neg (Ne.symm heq)]
    exact hlinked.beside hholder hpcb hconn hquiet

/-- Between two segments lwIP turns to the pcb of `c`. -/
theorem linked_enter (hinv : NetInv s) (hready : s.ready) {c : ConnId} {pos : InputAt}
    (hpos : (s.stack.pcbs c).tcb.state.finished = false → PosOk s.stack c pos) (c' : ConnId)
    (hc' : s.stack.registered c') : Linked s.stack c' (Net.posOf ⟨s.stack, c, pos⟩ c') := by
  have hno (k : Task) : s.stack.holder ≠ .task k := by simp [hready.1]
  have hlinked := hinv.linked c' hc'
  rw [Net.posOf_idle hready.2] at hlinked
  unfold Net.posOf
  split
  · rename_i heq
    subst heq
    have hunfinished := hlinked.unfinished hno
    refine hlinked.goOn hready.1 ?_ (fun h => by cases hunfinished.symm.trans h) (hpos hunfinished)
    rintro (h | h)
    · exact .inl h
    · cases h
  · exact hlinked

/-- A pending FIN is sent. -/
theorem linked_closePend (hinv : NetInv s) (hready : s.ready) {c : ConnId} {stack : Stack}
    (hstep : s.stack.step (.tcp c { (s.stack.pcbs c).tcb with
      closePend := false, state := (s.stack.pcbs c).tcb.state.fin }) = some stack)
    (c' : ConnId) (hc' : stack.registered c') :
    Linked stack c' (Net.posOf ⟨stack, c, .idle⟩ c') := by
  have hno (k : Task) : s.stack.holder ≠ .task k := by simp [hready.1]
  refine hinv.linked_lwip hready.1 hstep rfl (fun c _ => Net.posOf_idle hready.2 c)
    (fun _ _ hlinked => ?_) c' hc'
  rw [Net.posOf_idle hready.2] at hlinked
  refine hlinked.tcp hready.1 (Stack.step_section hstep) hlinked.freed (fun h => ?_)
    (fun h => ?_) trivial
  · exact hlinked.passive_quiet hno (TcpState.passive_of_fin _ h)
  · exact hlinked.finished_quiet hno (TcpState.finished_of_fin _ h)

/-- A new connection, while `newTCPConn` runs. -/
theorem linked_new {s s' : Stack} {key : UInt32} (hsec : Section s (.accept key) s') :
    Linked s' s.accepted .idle := by
  obtain ⟨owner, -, rfl⟩ := hsec.accept_eq
  refine Linked.of_quiet ?_ ?_ ?_ ?_ ?_ trivial
  · simp [newPcb]
  · simp [newPcb]
  · simp
  · simp [newPcb, TcpState.passive]
  · simp [newPcb, TcpState.finished]

/-- A section of Go, seen from a connection whose refused data it does not offer. -/
theorem linked_go (hinv : NetInv s) (hreg : Registry s.stack) {b : Act} {stack : Stack}
    (hreg' : Registry stack) (hgo : b.ofGo = true) (hbetween : b.between = true → s.pos = .idle)
    (hstep : s.stack.step b = some stack) (c : ConnId)
    (hnot : ∀ t p, b = .run t → s.stack.procs t = .refused c →
      (s.stack.pcbs c).refused_data ≠ some p)
    (hc : stack.registered c) : Linked stack c (s.posOf c) := by
  have hsec := Stack.step_section hstep
  obtain hold | ⟨key, rfl, rfl⟩ := hsec.registered hc
  · have hbusy : s.posOf c ≠ .idle → Busy s.stack := by
      intro hne
      refine hinv.busy fun hidle => ?_
      exact hne (Net.posOf_idle hidle c)
    have hgone := hsec.live hreg (fun h => (hinv.linked c h).gone) hc
    exact (hinv.linked c hold).go
      ⟨hreg, hinv.tx, hsec, hgo, hbusy, hnot, hold, hc, hreg'.registered_open hc, hgone⟩
  · rw [Net.posOf_idle (hbetween rfl)]
    exact linked_new hsec

/-- The connect goroutine offers refused data. -/
theorem linked_take (hinv : NetInv s) (hreg : Registry s.stack) {t : Tid} {c : ConnId} {p : Pbuf}
    {stack : Stack} (hreg' : Registry stack) (hproc : s.stack.procs t = .refused c)
    (hrefused : (s.stack.pcbs c).refused_data = some p) (hstep : s.stack.step (.run t) = some stack)
    (c' : ConnId) (hc' : stack.registered c') :
    Linked stack c'
      (Net.posOf ⟨stack, c, .refusedRet (s.stack.pcbs c).tcb.refusedFin none⟩ c') := by
  have hsec := Stack.step_section hstep
  obtain ⟨hholder, htake⟩ := hsec.take_eq hproc hrefused
  have hno (k : Task) : s.stack.holder ≠ .task k := by simp [hholder]
  have hidle : s.pos = .idle := by
    by_contra hne
    exact (hinv.busy hne).not_free hholder
  unfold Net.posOf
  split
  · rename_i heq
    obtain rfl : c = c' := heq
    have hold : s.stack.registered c := by
      obtain h | ⟨_, hact, _⟩ := hsec.registered hc'
      · exact h
      · cases hact
    have hlinked := hinv.linked c hold
    rw [Net.posOf_idle hidle] at hlinked
    have hunfinished := hlinked.unfinished hno
    obtain ⟨hnone, -⟩ | ⟨found, hfound, rfl⟩ := htake
    · cases hold.symm.trans hnone
    · cases hold.symm.trans hfound
      refine .of_callback rfl (by simp [hlinked.gone]) (by simp [hlinked.freed]) (by simp)
        (fun _ _ _ => ⟨by simp [TcpPcb.takeRefused], rfl⟩) ?_ ?_ ?_
      · simp only [Stack.setHolder_pcbs, Stack.setProc_pcbs, Stack.modPcb_pcbs, if_true,
          TcpPcb.takeRefused_tcb, TcpPcb.use_tcb]
        intro hpassive
        obtain h | h | h := hlinked.passive_quiet hno hpassive
        · exact .inl h
        · exact .inr (.inl (.inr h.1))
        · cases h
      · simp [hunfinished]
      · simp [PosOk, hunfinished, TcpPcb.takeRefused]
  · rename_i hne
    have hlinked := hinv.linked_go hreg hreg' rfl (fun h => by cases h) hstep c'
      (fun t' p' hact hproc' => ?_) hc'
    · rw [Net.posOf_idle hidle] at hlinked
      exact hlinked
    · cases hact
      cases hproc.symm.trans hproc'
      exact absurd rfl hne

/-- The next part of `tcp_input`. -/
theorem linked_input (hinv : NetInv s) (hreg : Registry s.stack) {act : Option Act} {pos : InputAt}
    {owner : Option Tid} {stack : Stack} (hok : NotSilenced s .input)
    (hholder : s.stack.holder = .lwip owner)
    (hmove : InputMove (s.stack.pcbs s.tpcb) s.tpcb s.pos act pos)
    (hmay : MayStep s.stack act stack) (c : ConnId) (hc : stack.registered c) :
    Linked stack c (Net.posOf ⟨stack, s.tpcb, pos⟩ c) := by
  have hown (hold : s.stack.registered s.tpcb) (hnew : stack.registered s.tpcb)
      (hlinked : Linked s.stack s.tpcb (s.posOf s.tpcb)) : Linked stack s.tpcb pos := by
    rw [Net.posOf_self] at hlinked
    exact hlinked.input hholder hreg hinv.tx hold hnew (hok.process hold) hmove hmay
  cases hmay with
  | some hstep =>
    exact hinv.linked_lwip hholder hstep hmove.tpcb (fun _ hne => Net.posOf_ne hne) hown c hc
  | none =>
    have hlinked := hinv.linked c hc
    by_cases heq : c = s.tpcb
    · subst heq
      rw [Net.posOf, if_pos rfl]
      exact hown hc hc hlinked
    · rw [Net.posOf_ne heq] at hlinked
      rw [Net.posOf, if_neg (Ne.symm heq)]
      exact hlinked

private theorem linked_step (hinv : NetInv s) (hreg : Registry s.stack) (hreg' : Registry s'.stack)
    (hok : NotSilenced s a) (hmove : NetMove s a s') (c : ConnId) (hc : s'.stack.registered c) :
    Linked s'.stack c (s'.posOf c) := by
  cases hmove with
  | @segment c' seg hready _ hnone =>
    have hpos (h : (s.stack.pcbs c').tcb.state.finished = false) :
        PosOk s.stack c' (.process seg) := ⟨h, .inl hnone⟩
    exact hinv.linked_enter hready hpos c hc
  | offer hready _ _ => exact hinv.linked_enter hready id c hc
  | closePend hready _ _ hstep => exact hinv.linked_closePend hready hstep c hc
  | poll hready _ hstep =>
    refine hinv.linked_lwip hready.1 hstep rfl (fun c _ => Net.posOf_idle hready.2 c)
      (fun hold _ hlinked => ?_) c hc
    rw [Net.posOf_idle hready.2] at hlinked
    exact hlinked.poll hready.1 hold (Stack.step_section hstep)
  | remove hready _ hstep =>
    refine hinv.linked_lwip hready.1 hstep rfl (fun c _ => Net.posOf_idle hready.2 c)
      (fun hold hnew _ => ?_) c hc
    exact absurd hnew ((Stack.step_section hstep).err_not_registered hold)
  | expire hready hstate hstep =>
    refine hinv.linked_lwip hready.1 hstep rfl (fun c _ => Net.posOf_idle hready.2 c)
      (fun _ _ hlinked => ?_) c hc
    rw [Net.posOf_idle hready.2] at hlinked
    -- the FIN that led to TIME_WAIT has released the connection
    have hunfinished := hlinked.unfinished (by simp [hready.1])
    rw [hstate] at hunfinished
    cases hunfinished
  | ended hholder hgone =>
    have hlinked := hinv.linked c hc
    have hne : c ≠ s.tpcb := by
      rintro rfl
      cases hlinked.gone.symm.trans hgone
    rw [Net.posOf_ne hne] at hlinked
    rw [Net.posOf, if_neg (Ne.symm hne)]
    exact hlinked
  | input hholder _ hmove hmay => exact hinv.linked_input hreg hok hholder hmove hmay c hc
  | take hproc hrefused hstep => exact hinv.linked_take hreg hreg' hproc hrefused hstep c hc
  | go hgo hbetween hnot hstep =>
    exact hinv.linked_go hreg hreg' hgo hbetween hstep c
      (fun t p hact hproc => hnot t c p hact hproc) hc

end NetInv

private theorem reach_net {s : Net} (h : Reach netMachine NotSilenced s) : NetInv s := by
  refine Reach.invariant NetInv.init ?_ h
  intro s a s' hreach hinv hok hstep
  have hstack := reach_stack hreach
  have hstack' := reach_stack (.step hreach hok hstep)
  have hmove := Net.step_move hstep
  exact ⟨hinv.tx_step (reach_bounds hstack) hmove, hinv.busy_step hmove,
    hinv.linked_step (reach_registry hstack).1 (reach_registry hstack').1 hok hmove⟩

/-- In every run in which no segment silences lwIP, a connection in `tcpConns` has a
    pcb that neither Go nor lwIP has ended. -/
theorem registered_owns_pcb (s : Net) (h : Reach netMachine NotSilenced s) :
    ∀ key c, s.stack.tcpConns key = some c → (s.stack.pcbs c).gone = false ∧
      (s.stack.pcbs c).tcb.freed = false := by
  intro key c hkey
  have hc := (reach_registry (reach_stack h)).1.registered hkey
  have hlinked := (reach_net h).linked c hc
  exact ⟨hlinked.gone, hlinked.freed⟩

/-- Segments of one byte of data, of a FIN alone, and of the ACK of lwIP's own FIN. -/
def dataSegment : Segment :=
  ⟨false, false, false, 1, some ⟨[1], by decide⟩, false, by decide, by decide⟩

/-- A FIN without data. -/
def finSegment : Segment := ⟨false, false, false, 1, none, true, by decide, by decide⟩

/-- An ACK without data. -/
def ackSegment : Segment := ⟨false, false, true, 0, none, false, by decide, by decide⟩

/-- `CloseRead`, data, the peer's FIN and `CloseWrite`: the pcb is in LAST_ACK with
    `TF_RXCLOSED` set, the connection in `tcpClosing`. -/
def closedBothSides : List NetAct :=
  [.go .lwipLock, .go (.accept 7), .go (.acceptDone 0), .go .lwipUnlock, .go (.handled 0 true),
    .go (.run 0), .go (.run 0), .go (.call 1 (.closeRead 0)), .go (.run 1), .go .lwipLock,
    .segment 0 dataSegment, .input, .input, .input, .input, .go .task, .go .task, .go .task, .input,
    .segment 0 finSegment, .input, .input, .input, .input, .input, .go .task, .go .task, .go .task,
    .go .task, .go .task, .go .task, .go .lwipUnlock, .go (.call 1 (.closeWrite 0)), .go (.run 1),
    .go (.shutdown 1 true)]

/-- A connection in LAST_ACK that is still registered. -/
theorem registered_owns_pcb_last_ack : ∃ s, Reach netMachine NotSilenced s ∧
    (s.stack.pcbs 0).tcb.state = .LAST_ACK ∧ (s.stack.pcbs 0).tcb.rxClosed = true ∧
    s.stack.tcpConns 7 = some 0 ∧ (s.stack.pcbs 0).gone = false ∧
    (s.stack.pcbs 0).tcb.freed = false := by
  obtain ⟨s, hreach, hstate, hrx, hkey⟩ := exists_reach_of_run netMachine NotSilenced
    closedBothSides
    (fun s => (s.stack.pcbs 0).tcb.state = .LAST_ACK ∧ (s.stack.pcbs 0).tcb.rxClosed = true ∧
      s.stack.tcpConns 7 = some 0) (by decide)
  exact ⟨s, hreach, hstate, hrx, hkey, registered_owns_pcb s hreach 7 0 hkey⟩

/-- The ACK of the FIN then frees the pcb without a callback. -/
theorem registered_without_pcb : ∃ s, Reach netMachine any s ∧ s.stack.tcpConns 7 = some 0 ∧
    (s.stack.pcbs 0).tcb.freed = true :=
  exists_reach_of_run netMachine any
    (closedBothSides ++ [.go .lwipLock, .segment 0 ackSegment, .input, .input, .input])
    (fun s => s.stack.tcpConns 7 = some 0 ∧ (s.stack.pcbs 0).tcb.freed = true) (by decide)

end tun2proxy.core
