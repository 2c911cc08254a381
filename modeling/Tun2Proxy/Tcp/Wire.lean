import Tun2Proxy.Tcp.Fed

open tun2proxy.machine tun2proxy.machine.Machine

namespace tun2proxy.core

/-! ### The input path with the receiving half of every pcb -/

/-- The package and lwIP's input path over the receiving halves of the pcbs. `inseg` is the
    segment that `tcp_input` works on, and `copied` the answer of `tcp_seg_copy`. -/
structure Wire where
  net : Net
  rcv : ConnId → Receiver
  inseg : TcpSeg
  copied : Bool

/-- A segment of a client arrives, or a step of the stack or of a client's receiving half. -/
inductive WireAct where
  | segment (c : ConnId) (seg : Segment) (inseg : TcpSeg) (copied : Bool)
  -- the window and `ooseq` of a pcb change outside of `tcp_receive`
  | receiver (c : ConnId) (a : RcvAct)
  | net (a : NetAct)

namespace Wire

/-- `tcp_process` calls `tcp_receive` next, in a state that takes data. -/
def receives (w : Wire) : Option Segment :=
  match w.net.stack.holder, w.net.pos with
  | .lwip _, .process seg =>
    if (w.net.stack.pcbs w.net.tpcb).gone = false ∧ seg.rst = false ∧
      (w.net.stack.pcbs w.net.tpcb).tcb.state.receives = true then some seg
    else none
  | _, _ => none

/-- The pcb of `tpcb` takes what `tcp_receive` says, and this is what the step of
    `tcp_process` had as its data and FIN. -/
def receive (w : Wire) (seg : Segment) : Option Wire := do
  let (pcb, recv) ← (w.rcv w.net.tpcb).pcb.tcp_receive w.inseg w.copied
  let net ← w.net.step .input
  if seg.data.map Pbuf.data = recv.pbuf ∧ seg.fin = recv.gotFin then
    some { w with net, rcv := Function.update w.rcv w.net.tpcb ((w.rcv w.net.tpcb).take pcb recv) }
  else none

/-- A segment goes to the input path. Where `tcp_process` calls `tcp_receive`, the receiving
    half of the connection takes it in the same step. -/
def step (w : Wire) : WireAct → Option Wire
  | .segment c seg inseg copied =>
    if seg.tcplen = inseg.tcplen then
      (w.net.step (.segment c seg)).map fun net => { w with net, inseg, copied }
    else none
  | .receiver _ (.segment _ _) => none
  | .receiver c a => ((w.rcv c).step a).map fun r => { w with rcv := Function.update w.rcv c r }
  | .net (.segment _ _) => none
  | .net .input =>
    match w.receives with
    | some seg => w.receive seg
    | none => (w.net.step .input).map fun net => { w with net }
  | .net a => (w.net.step a).map fun net => { w with net }

/-- Nothing has come yet. -/
def init (clients : ConnId → Client) : Wire :=
  { net := Net.init
    rcv := fun c => .accepted (clients c).irs (clients c).mss
    inseg := ⟨0, [], false⟩
    copied := false }

end Wire

/-- The package, lwIP's input path and the receiving halves, against these clients. -/
def wireMachine (clients : ConnId → Client) : Machine Wire WireAct := ⟨.init clients, Wire.step⟩

/-- Every segment that reaches `tcp_receive` is from the stream of its connection, and the
    sections of the package satisfy `ok`. -/
def WireOk (clients : ConnId → Client) (ok : Stack → Act → Prop) (w : Wire) : WireAct → Prop
  | .segment _ _ _ _ => True
  | .receiver c a => FromStream (clients c).stream (clients c).irs (w.rcv c) a
  | .net a => OnStack ok w.net a ∧ (a = .input → w.receives.isSome = true →
      FromStream (clients w.net.tpcb).stream (clients w.net.tpcb).irs (w.rcv w.net.tpcb)
        (.segment w.inseg w.copied))

/-- What a step does to the two parts. -/
inductive WireMove (w : Wire) : WireAct → Wire → Prop where
  | segment {c : ConnId} {seg : Segment} {inseg : TcpSeg} {copied : Bool} {net : Net}
      (hstep : w.net.step (.segment c seg) = some net) :
      WireMove w (.segment c seg inseg copied) { w with net, inseg, copied }
  | receiver {c : ConnId} {a : RcvAct} {r : Receiver} (hnot : ∀ seg copied, a ≠ .segment seg copied)
      (hstep : (w.rcv c).step a = some r) :
      WireMove w (.receiver c a) { w with rcv := Function.update w.rcv c r }
  | receive {seg : Segment} {pcb : RcvPcb} {recv : RecvData} {net : Net}
      (hreceives : w.receives = some seg)
      (hreceive : (w.rcv w.net.tpcb).pcb.tcp_receive w.inseg w.copied = some (pcb, recv))
      (hstep : w.net.step .input = some net) (hdata : seg.data.map Pbuf.data = recv.pbuf)
      (hfin : seg.fin = recv.gotFin) :
      WireMove w (.net .input)
        { w with net, rcv := Function.update w.rcv w.net.tpcb ((w.rcv w.net.tpcb).take pcb recv) }
  | net {a : NetAct} {net : Net} (hnot : ∀ c seg, a ≠ .segment c seg)
      (hreceives : a = .input → w.receives = none) (hstep : w.net.step a = some net) :
      WireMove w (.net a) { w with net }

/-- Every step is one of the moves. -/
theorem Wire.step_move {w w' : Wire} {a : WireAct} (hstep : w.step a = some w') : WireMove w a w' := by
  cases a with
  | segment c seg inseg copied =>
    obtain ⟨-, hstep⟩ := Option.ite_none_right_eq_some.mp hstep
    obtain ⟨net, hnet, rfl⟩ := Option.map_eq_some_iff.mp hstep
    exact .segment hnet
  | receiver c a =>
    have hnot (seg : TcpSeg) (copied : Bool) : a ≠ .segment seg copied := by
      rintro rfl
      cases hstep
    have heq : w.step (.receiver c a) =
        ((w.rcv c).step a).map fun r => { w with rcv := Function.update w.rcv c r } := by
      cases a with
      | segment seg copied => exact absurd rfl (hnot seg copied)
      | _ => rfl
    rw [heq] at hstep
    obtain ⟨r, hr, rfl⟩ := Option.map_eq_some_iff.mp hstep
    exact .receiver hnot hr
  | net a =>
    have hnot (c : ConnId) (seg : Segment) : a ≠ .segment c seg := by
      rintro rfl
      cases hstep
    by_cases hreceive : a = .input ∧ w.receives.isSome = true
    · obtain ⟨rfl, hsome⟩ := hreceive
      obtain ⟨seg, hseg⟩ := Option.isSome_iff_exists.mp hsome
      rw [step, hseg] at hstep
      obtain ⟨⟨pcb, recv⟩, hrecv, hstep⟩ := Option.bind_eq_some_iff.mp hstep
      obtain ⟨net, hnet, hstep⟩ := Option.bind_eq_some_iff.mp hstep
      obtain ⟨⟨hdata, hfin⟩, hstep⟩ := Option.ite_none_right_eq_some.mp hstep
      cases hstep
      exact .receive hseg hrecv hnet hdata hfin
    · have hnone (hinput : a = .input) : w.receives = none := by
        rw [← Option.not_isSome_iff_eq_none]
        exact fun hsome => hreceive ⟨hinput, hsome⟩
      have heq : w.step (.net a) = (w.net.step a).map fun net => { w with net } := by
        cases a with
        | segment c seg => exact absurd rfl (hnot c seg)
        | input => rw [step, hnone rfl]
        | _ => rfl
      rw [heq] at hstep
      obtain ⟨net, hnet, rfl⟩ := Option.map_eq_some_iff.mp hstep
      exact .net hnot hnone hnet

section

variable {clients : ConnId → Client} {ok : Stack → Act → Prop} {w : Wire}

private theorem reach_net_wire (h : Reach (wireMachine clients) (WireOk clients ok) w) :
    Reach netMachine (OnStack ok) w.net := by
  apply h.invariant (P := fun w => Reach netMachine (OnStack ok) w.net)
  · exact .init
  · intro w a w' _ ih hok hwire
    cases Wire.step_move hwire with
    | @segment c seg _ _ _ hstep =>
      have hnone : OnStack ok w.net (.segment c seg) := fun b hruns => by cases hruns
      exact ih.step hnone hstep
    | receiver _ _ => exact ih
    | receive _ _ hstep _ _ => exact ih.step hok.1 hstep
    | net _ _ hstep => exact ih.step hok.1 hstep

/-- The receiving half of every connection gets segments of its own client's stream. -/
theorem reach_receiver_wire (h : Reach (wireMachine clients) (WireOk clients ok) w) (c : ConnId) :
    Reach (receiverMachine (clients c).irs (clients c).mss)
      (FromStream (clients c).stream (clients c).irs) (w.rcv c) := by
  apply h.invariant (P := fun w => Reach (receiverMachine (clients c).irs (clients c).mss)
    (FromStream (clients c).stream (clients c).irs) (w.rcv c))
  · exact .init
  · intro w a w' _ ih hok hwire
    cases Wire.step_move hwire with
    | segment _ => exact ih
    | net _ _ _ => exact ih
    | @receiver c' a r _ hstep =>
      by_cases hc : c = c'
      · subst hc
        dsimp only
        rw [Function.update_self]
        exact ih.step hok hstep
      · dsimp only
        rw [Function.update_of_ne hc]
        exact ih
    | @receive seg pcb recv net hreceives hreceive _ _ _ =>
      by_cases hc : c = w.net.tpcb
      · subst hc
        dsimp only
        rw [Function.update_self]
        have hr : (w.rcv w.net.tpcb).step (.segment w.inseg w.copied) =
            some ((w.rcv w.net.tpcb).take pcb recv) := by
          rw [Receiver.step, hreceive, Option.map_some]
        exact ih.step (hok.2 rfl (by rw [hreceives]; rfl)) hr
      · dsimp only
        rw [Function.update_of_ne hc]
        exact ih

end

private theorem Wire.receives_eq_some {w : Wire} {seg : Segment} (h : w.receives = some seg) :
    w.net.pos = .process seg ∧ (w.net.stack.pcbs w.net.tpcb).gone = false ∧ seg.rst = false ∧
      (w.net.stack.pcbs w.net.tpcb).tcb.state.receives = true := by
  unfold receives at h
  split at h
  · rename_i hpos
    obtain ⟨hall, heq⟩ := Option.ite_none_right_eq_some.mp h
    cases heq
    exact ⟨hpos, hall⟩
  · cases h

/-- A step of the input path in which `tcp_receive` is not called is no such step. -/
theorem Wire.not_takes {w : Wire} {a : NetAct} {net : Net} (hreceives : a = .input → w.receives = none)
    (hmove : NetMove w.net a net) : ¬w.net.takes a := by
  rintro ⟨rfl, seg, hpos, hgone, hrst, hrcv⟩
  have hnone := hreceives rfl
  cases hmove with
  | offer hready _ _ => cases hready.2.symm.trans hpos
  | ended _ hended => cases hgone.symm.trans hended
  | @input act pos stack owner hholder _ _ _ =>
    rw [receives, hholder, hpos] at hnone
    dsimp only at hnone
    rw [if_pos ⟨hgone, hrst, hrcv⟩] at hnone
    cases hnone

/-! ### A run that can be evaluated -/

/-- What `tcp_input` needs, with the place of the segment that its number gives. -/
def Wire.calmAt (clients : ConnId → Client) (w : Wire) : InputAt → Prop
  | .process seg =>
    let client := clients w.net.tpcb
    let p := (w.inseg.seqno - client.irs).toNat
    seg.rst = false ∧ SegOf client.stream client.irs p w.inseg ∧ p < (w.rcv w.net.tpcb).pos + 2 ^ 30 ∧
      (w.rcv w.net.tpcb).pos < p + 2 ^ 30
  | .delayedClose r => r.closed = false
  | .data _ => (w.net.stack.pcbs w.net.tpcb).tcb.rxClosed = false
  | _ => True

/-- Segments come from the streams, keys are fresh, and nothing ends connection `c`. -/
def Wire.calm (clients : ConnId → Client) (c : ConnId) (w : Wire) : WireAct → Prop
  | .receiver _ _ | .net (.remove _) => False
  | .net (.go b) => FreshKey w.net.stack b ∧ Quiet c w.net.stack b
  | .net .input => w.calmAt clients w.net.pos
  | _ => True

instance (clients : ConnId → Client) (w : Wire) : (pos : InputAt) → Decidable (w.calmAt clients pos)
  | .process _ => inferInstanceAs (Decidable (_ ∧ _ ∧ _ ∧ _))
  | .delayedClose _ | .data _ => inferInstanceAs (Decidable (_ = _))
  | .idle | .refused _ | .refusedRet _ _ | .refusedFin _ | .sent _ | .fin _ => inferInstanceAs (Decidable True)

instance (clients : ConnId → Client) (c : ConnId) (w : Wire) :
    (a : WireAct) → Decidable (w.calm clients c a)
  | .receiver _ _ | .net (.remove _) => inferInstanceAs (Decidable False)
  | .net (.go _) => inferInstanceAs (Decidable (_ ∧ _))
  | .net .input => inferInstanceAs (Decidable (w.calmAt clients w.net.pos))
  | .segment _ _ _ _ | .net (.segment _ _) | .net (.closePend _) | .net (.retry _) | .net (.poll _)
  | .net (.expire _) => inferInstanceAs (Decidable True)

private theorem Wire.calm.wireOk {clients : ConnId → Client} {c : ConnId} {w : Wire} {a : WireAct}
    (h : w.calm clients c a) : WireOk clients (fun s b => FreshKey s b ∧ Quiet c s b) w a := by
  cases a with
  | segment _ _ _ _ => trivial
  | receiver _ _ => cases h
  | net a =>
    refine ⟨fun b hruns => ?_, fun hinput hsome => ?_⟩
    · cases hruns with
      | go _ => exact h
      | remove => cases h
      | closePend | poll | expire => exact ⟨trivial, trivial⟩
      | input hmove =>
        have hat : w.calmAt clients w.net.pos := h
        generalize w.net.pos = pos at hmove hat
        cases hmove with
        | reset hrst => cases hrst.symm.trans hat.1
        | closedErr hclosed _ => cases hclosed.symm.trans hat
        | dataAbort _ hrx _ => cases hrx.symm.trans hat
        | _ => exact ⟨trivial, trivial⟩
    · subst hinput
      obtain ⟨seg, hseg⟩ := Option.isSome_iff_exists.mp hsome
      have hat : w.calmAt clients w.net.pos := h
      rw [(Wire.receives_eq_some hseg).1] at hat
      exact ⟨_, hat.2⟩

/-- A segment of `n + 1` sequence numbers that acknowledges nothing. -/
def Segment.incoming (n : Nat) (data : Option Pbuf) (fin : Bool) : Segment :=
  ⟨false, false, false, n + 1, data, fin, fun _ => n.succ_pos, fun _ => n.succ_pos⟩

/-- The end of the stream comes before its beginning; both are refused with the FIN, since the
    handler is not connected. The connect goroutine has them offered again. -/
def lateStream : List WireAct :=
  [.net (.go .lwipLock), .net (.go (.accept 7)), .net (.go (.acceptDone 0)),
    .segment 0 (.incoming 2 none false) ⟨8, [2, 3], true⟩ true,
    .net .input, .net .input, .net .input, .net .input, .net .input,
    .segment 0 (.incoming 0 (some ⟨[1, 2, 3], by decide⟩) true) ⟨7, [1], false⟩ true,
    .net .input, .net .input, .net .input, .net .input, .net (.go .task), .net (.go .task), .net .input,
    .net (.go .lwipUnlock), .net (.go (.handled 0 true)), .net (.go (.run 0)), .net (.go (.run 0)),
    .net (.go .task), .net (.go .task), .net (.go (.call 1 (.read 0 9))), .net (.go (.run 1)),
    .net (.go (.run 1)), .net (.go (.pipe 1)), .net (.go .task), .net (.go .task), .net .input,
    .net .input, .net (.go .task), .net (.go (.call 1 (.read 0 9))), .net (.go (.run 1))]

/-- All clients send the bytes 1, 2 and 3. -/
def lateClients : ConnId → Client := fun _ => ⟨[1, 2, 3], 7, 1460⟩

private theorem lateStream_reach : ∃ w, Reach (wireMachine lateClients)
    (WireOk lateClients fun s b => FreshKey s b ∧ Quiet 0 s b) w ∧
      (w.net.stack.conns 0).readEOF = true := by
  obtain ⟨w, hreach, heof⟩ := exists_reach_of_run (wireMachine lateClients)
    (fun w a => w.calm lateClients 0 a) lateStream (fun w => (w.net.stack.conns 0).readEOF = true)
    (by decide)
  exact ⟨w, hreach.mono fun _ _ h => h.wireOk, heof⟩

/-! ### From the client to the handler -/

section

variable {clients : ConnId → Client} {ok : Stack → Act → Prop} {w : Wire}

private theorem reach_fed (h : Reach (wireMachine clients) (WireOk clients ok) w) :
    FedInv clients w.rcv w.net := by
  apply h.invariant (P := fun w => FedInv clients w.rcv w.net)
  · exact .init fun _ => rfl
  · intro w a w' hreach ih hok hwire
    have hnet := reach_net_wire hreach
    have hbounds := reach_bounds (reach_onStack (hnet.mono fun _ _ _ _ _ => trivial))
    have hup (c : ConnId) := receiver_upstream (reach_receiver_wire hreach c)
    cases Wire.step_move hwire with
    | segment hstep =>
      refine ih.step hbounds (fun c => (hup c).delivered) (fun c => (hup c).whole) ?_ (Net.step_move hstep)
      rintro ⟨hact, -⟩
      cases hact
    | net _ hreceives hstep =>
      exact ih.step hbounds (fun c => (hup c).delivered) (fun c => (hup c).whole)
        (Wire.not_takes hreceives (Net.step_move hstep)) (Net.step_move hstep)
    | receive hreceives _ hstep hdata hfin =>
      obtain ⟨hpos, hgone, hrst, hrcv⟩ := Wire.receives_eq_some hreceives
      exact ih.receive hpos hgone hrst hrcv hdata hfin (Net.step_move hstep)
    | @receiver c a r hnot hstep =>
      obtain ⟨hdelivered, hgot⟩ := Receiver.step_other hnot hstep
      have hother (c' : ConnId) : (Function.update w.rcv c r c').delivered = (w.rcv c').delivered ∧
          (Function.update w.rcv c r c').gotFin = (w.rcv c').gotFin := by
        by_cases heq : c' = c
        · subst heq
          rw [Function.update_self]
          exact ⟨hdelivered, hgot⟩
        · rw [Function.update_of_ne heq]
          exact ⟨rfl, rfl⟩
      refine ⟨ih.busy, ih.place, fun c' hc' => ?_, fun c' => ?_⟩
      · rw [(hother c').1]
        exact ih.fresh c' hc'
      · exact (ih.fed c').congr (hother c').1 (hother c').2

/-- What a handler reads is a prefix of what the client at the other end sends, and lwIP reports
    the FIN only after all bytes. The keys of the connections are fresh; but segments may be
    lost, copied and reordered, data refused, and the goroutines run in any order. -/
theorem client_stream_read (hfresh : ∀ s b, ok s b → FreshKey s b)
    (h : Reach (wireMachine clients) (WireOk clients ok) w) (c : ConnId) :
    (w.net.stack.conns c).readBytes <+: (clients c).stream ∧
      ((w.net.stack.pcbs c).finReported = true → (w.net.stack.pcbs c).stream = (clients c).stream) := by
  have hfed := (reach_fed h).fed c
  have hup := receiver_upstream (reach_receiver_wire h c)
  have hstack := reach_inOrder hfresh (reach_net_wire h)
  have hread := (reach_upload (hstack.mono fun _ _ hok => hok.1) c).prefix_stream
  exact ⟨hread.trans (hfed.pre.trans hup.delivered), fun hfin => hfed.reported (.inl hfin)⟩

/-- The end of the stream comes first. -/
theorem client_stream_read_late : ∃ w : Wire, (w.net.stack.conns 0).readEOF = true ∧
    (w.net.stack.conns 0).readBytes <+: [1, 2, 3] ∧
      ((w.net.stack.pcbs 0).finReported = true → (w.net.stack.pcbs 0).stream = [1, 2, 3]) := by
  obtain ⟨w, hreach, heof⟩ := lateStream_reach
  exact ⟨w, heof, client_stream_read (fun _ _ h => h.1) hreach 0⟩

/-- If keys are fresh, nobody closes the read side and the connection is neither aborted nor
    reset, a handler that gets EOF has read everything the client has sent. -/
theorem client_stream_eof {c : ConnId} (hok : ∀ s b, ok s b → FreshKey s b ∧ Quiet c s b)
    (h : Reach (wireMachine clients) (WireOk clients ok) w)
    (heof : (w.net.stack.conns c).readEOF = true) :
    (w.net.stack.conns c).readBytes = (clients c).stream := by
  have hfresh (s : Stack) (b : Act) (hb : ok s b) : FreshKey s b := (hok s b hb).1
  have hstack := reach_inOrder hfresh (reach_net_wire h)
  have hquiet := reach_quiet (hstack.mono fun s b hb => ⟨hb.1, (hok s b hb.2).2⟩)
  have hfin := hquiet.eof heof
  rw [(hquiet.fin hfin).1]
  have hfed := (reach_fed h).fed c
  exact hfed.reported (.inl hfin)

/-- The end of the stream comes first, and the handler reads all. -/
theorem client_stream_eof_late :
    ∃ w : Wire, (w.net.stack.conns 0).readBytes = [1, 2, 3] := by
  obtain ⟨w, hreach, heof⟩ := lateStream_reach
  exact ⟨w, client_stream_eof (fun _ _ h => h) hreach heof⟩

end

end tun2proxy.core
