import Mathlib.Data.List.TakeWhile
import Tun2Proxy.Lib.Machine
import Tun2Proxy.Lwip.Tick

open tun2proxy.circular tun2proxy.split tun2proxy.machine tun2proxy.machine.Machine

namespace tun2proxy.core

/-- What the handshake settles for the sending half. `iss` is the number of its first byte. -/
structure Handshake where
  mss : Nat
  mss_pos : 0 < mss
  mss_le : mss ≤ TCP_MSS
  nodelay : Bool
  wnd : BitVec 16
  irs : BitVec 32
  iss : BitVec 32

/-- The initial congestion window. -/
def LWIP_TCP_CALC_INITIAL_CWND (mss : Nat) : Nat := min (4 * mss) (max (2 * mss) 4380)

/-- The pcb that `tcp_alloc`, `tcp_listen_input` and `tcp_process` leave behind the handshake. -/
def SndPcb.accepted (hs : Handshake) : SndPcb :=
  { canSend := true
    mss := hs.mss
    mss_pos := hs.mss_pos
    mss_le := hs.mss_le
    nodelay := hs.nodelay
    nagleMemErr := false
    fin := false
    infr := false
    inRto := false
    ackNow := false
    snd_nxt := hs.iss
    lastack := hs.iss
    snd_lbb := hs.iss
    snd_wl1 := hs.irs
    snd_wl2 := hs.iss
    snd_wnd := hs.wnd.toNat
    snd_wnd_max := hs.wnd.toNat
    snd_buf := TCP_SND_BUF
    snd_queuelen := 0
    unsent_oversize := 0
    unsent := []
    unacked := []
    cwnd := LWIP_TCP_CALC_INITIAL_CWND hs.mss
    ssthresh := TCP_SND_BUF
    bytes_acked := 0
    dupacks := 0
    nrtx := 0
    rtime := -1
    rto_end := 0
    persist_cnt := 0
    persist_backoff := 0
    persist_probe := 0 }

/-- TF_ACK_NOW is set if `now`. -/
def SndPcb.tcp_ack_now (pcb : SndPcb) (now : Bool) : SndPcb := { pcb with ackNow := pcb.ackNow || now }

/-- `tcp_process`, before it looks at the state. -/
def SndPcb.heard (pcb : SndPcb) (seg : AckSeg) : SndPcb :=
  { pcb with persist_probe := 0 }.tcp_parseopt seg.mss

/-- A segment that went out, and how much was written by then. -/
structure Departed where
  seg : WireSeg
  written : Nat

/-- A sending pcb, the bytes that `tcp_write` has accepted and the segments that went out. -/
structure Sender where
  pcb : SndPcb
  stream : List UInt8
  wire : List Departed
  -- `pcb_remove` of `tcp_slowtmr`
  removed : Bool

/-- What the application, the network and the timers do next. -/
inductive SndAct where
  | write (data : List UInt8) (more : Bool) (mem : Nat)
  | close (mem : Nat) (rcv : RcvHeader) (net : Netif)
  -- `now`: with `tcp_ack_now` before
  | output (now : Bool) (rcv : RcvHeader) (net : Netif)
  | input (seg : AckSeg) (ackSent : Bool) (rcv : RcvHeader) (net : Netif)
  | tick (rto : Int) (rcv : RcvHeader) (net : Netif) (mem : Nat)

namespace Sender

/-- The sending half after the handshake. -/
def accepted (hs : Handshake) : Sender := ⟨.accepted hs, [], [], false⟩

/-- What goes out is recorded with the length of the stream at that time. -/
def emit (s : Sender) (pcb : SndPcb) (out : List WireSeg) : Sender :=
  { s with pcb, wire := s.wire ++ out.map fun seg => ⟨seg, s.stream.length⟩ }

/-- `none` is a failed assertion, or a pcb that was removed. -/
def step (ends : Endpoints) (s : Sender) (a : SndAct) : Option Sender :=
  if s.removed = true then none
  else match a with
    | .write data more mem => do
      let (pcb, err) ← s.pcb.tcp_write data more mem
      return { s with pcb, stream := if err = .ERR_OK then s.stream ++ data else s.stream }
    | .close mem rcv net => do
      let (pcb, out) ← s.pcb.tcp_close_shutdown_fin mem ends rcv net
      return s.emit pcb out
    | .output now rcv net => do
      let (pcb, out, _) ← (s.pcb.tcp_ack_now now).tcp_output ends rcv net
      return s.emit pcb out
    | .input seg ackSent rcv net => do
      let pcb ← (s.pcb.heard seg).tcp_receive seg ackSent
      -- the end of `tcp_input`
      let (pcb, out, _) ← pcb.tcp_output ends rcv net
      return s.emit pcb out
    | .tick rto rcv net mem => do
      match ← s.pcb.tcp_slowtmr rto ends rcv net mem with
      | none => return { s with removed := true }
      | some (pcb, out) => return s.emit pcb out

end Sender

/-- The sending half of a connection between `ends`, after the handshake `hs`. -/
def senderMachine (ends : Endpoints) (hs : Handshake) : Machine Sender SndAct := ⟨.accepted hs, Sender.step ends⟩

/-- No retransmission is stuck where `tcp_write` and `tcp_send_fin` look for the newest segment, or
    where a timeout sends again what is in flight. Where the persist timer runs out at an open
    window, it splits no FIN off, and `ip_output_if` takes all or nothing. -/
def SndOrderly (s : Sender) : SndAct → Prop
  -- the length is an `u16_t`
  | .write data _ _ => data.length < 2 ^ 16 ∧ s.pcb.TailNewest
  | .close _ _ _ => s.pcb.TailNewest
  | .output _ _ _ | .input _ _ _ _ => True
  | .tick rto _ net mem =>
    (s.pcb.RexmitDue rto → s.pcb.InOrder) ∧ (s.pcb.PersistDue → s.pcb.snd_wnd ≠ 0 → mem ≠ 0 → s.pcb.HeadOpen) ∧
      (s.pcb.PersistDue → s.pcb.snd_wnd ≠ 0 → s.pcb.TakesAll net)

instance (s : Sender) : (a : SndAct) → Decidable (SndOrderly s a)
  | .write _ _ _ => inferInstanceAs (Decidable (_ ∧ _))
  | .close _ _ _ => inferInstanceAs (Decidable (SndPcb.TailNewest _))
  | .output _ _ _ | .input _ _ _ _ => inferInstanceAs (Decidable True)
  | .tick _ _ _ _ => inferInstanceAs (Decidable (_ ∧ _ ∧ _))

/-- No segment changes the MSS that the handshake has left. -/
def MssKept (s : Sender) : SndAct → Prop
  | .input seg _ _ _ => s.pcb.KeepsMss seg
  | .write _ _ _ | .close _ _ _ | .output _ _ _ | .tick _ _ _ _ => True

instance (s : Sender) : (a : SndAct) → Decidable (MssKept s a)
  | .input _ _ _ _ => inferInstanceAs (Decidable (SndPcb.KeepsMss _ _))
  | .write _ _ _ | .close _ _ _ | .output _ _ _ | .tick _ _ _ _ => inferInstanceAs (Decidable True)

/-! ### What was sent -/

/-- A segment that carries the stream up to `nxt` at most, from near the end that it had when the
    segment went out, with a checksum that the other end accepts. -/
structure Departed.Sent (stream : List UInt8) (iss : BitVec 32) (nxt : Nat) (ends : Endpoints)
    (d : Departed) : Prop where
  place : ∃ p, SegOf stream iss p d.seg.received ∧ p ≤ d.written ∧ d.written ≤ p + 2 ^ 20 ∧
    p + d.seg.data.length + d.seg.hdr.fin.toNat ≤ nxt
  verifies : d.seg.Verifies ends

section
variable {stream : List UInt8} {iss : BitVec 32} {nxt nxt' ack wnd : Nat} {ends : Endpoints}

theorem WireSeg.Emitted.sent {w : WireSeg} (h : w.Emitted stream iss nxt ack wnd ends) :
    (Departed.mk w stream.length).Sent stream iss nxt ends := by
  obtain ⟨p, hseg, hlow, -, hend⟩ := h.place
  exact ⟨⟨p, hseg, hseg.place, hlow, hend⟩, h.verifies⟩

namespace Departed

variable {d : Departed}

/-- What was sent once stays sent when `snd_nxt` goes on. -/
theorem Sent.mono (h : d.Sent stream iss nxt ends) (hle : nxt ≤ nxt') : d.Sent stream iss nxt' ends := by
  obtain ⟨p, hseg, hhigh, hlow, hend⟩ := h.place
  exact ⟨⟨p, hseg, hhigh, hlow, Nat.le_trans hend hle⟩, h.verifies⟩

/-- Up to the end of an open stream, no FIN was sent. -/
theorem Sent.fin (h : d.Sent stream iss nxt ends) (hnxt : nxt ≤ stream.length) :
    d.seg.received.fin = false := by
  obtain ⟨p, hseg, -, -, hend⟩ := h.place
  rw [← Bool.not_eq_true]
  intro hfin
  have hlast : p + d.seg.data.length = stream.length := hseg.fin hfin
  have hset : d.seg.hdr.fin = true := hfin
  rw [hset, Bool.toNat_true] at hend
  omega

/-- Before the FIN was sent, the stream may grow. -/
theorem Sent.extend (h : d.Sent stream iss nxt ends) (hnxt : nxt ≤ stream.length) (more : List UInt8) :
    d.Sent (stream ++ more) iss nxt ends := by
  obtain ⟨p, hseg, hhigh, hlow, hend⟩ := h.place
  exact ⟨⟨p, hseg.extend (h.fin hnxt) more, hhigh, hlow, hend⟩, h.verifies⟩

end Departed

end

/-- What holds of a sender in every run. -/
structure Sender.Sends (fixed wide : Prop) (iss : BitVec 32) (ends : Endpoints) (all : List SndSeg)
    (una ack nxt : Nat) (s : Sender) : Prop where
  outgoing : Outgoing fixed wide s.stream iss all una ack nxt s.pcb
  paced : s.pcb.Paced fixed
  wire : ∀ d ∈ s.wire, d.Sent s.stream iss nxt ends

namespace SndPcb

variable {fixed : Prop} {pcb pcb' : SndPcb} {ends : Endpoints} {rcv : RcvHeader} {net : Netif} {mem : Nat}
  {out : List WireSeg} {err : ErrT}

private theorem tcp_enqueue_fin_cases (h : pcb.tcp_enqueue_fin mem = some (pcb', err)) :
    pcb' = { pcb with nagleMemErr := true } ∨ ∃ unsent unsent_oversize snd_lbb snd_queuelen,
      unsent ≠ [] ∧ pcb' = { pcb with unsent, unsent_oversize, snd_lbb, snd_queuelen, fin := true } := by
  rw [tcp_enqueue_fin] at h
  obtain ⟨-, h⟩ | ⟨-, h⟩ := ite_eq_iff.mp h
  · cases h
    exact .inl rfl
  · obtain ⟨_, -, h⟩ := Option.bind_eq_some_iff.mp h
    cases h
    exact .inr ⟨_, _, _, _, by simp, rfl⟩

private theorem tcp_send_fin_cases (h : pcb.tcp_send_fin mem = some (pcb', err)) :
    pcb' = { pcb with nagleMemErr := true } ∨ ∃ unsent unsent_oversize snd_lbb snd_queuelen,
      unsent ≠ [] ∧ pcb' = { pcb with unsent, unsent_oversize, snd_lbb, snd_queuelen, fin := true } := by
  rw [tcp_send_fin] at h
  obtain ⟨newest, hnewest⟩ : ∃ newest, pcb.unsent.getLast? = newest := ⟨_, rfl⟩
  rw [hnewest] at h
  obtain _ | last := newest
  · exact tcp_enqueue_fin_cases h
  · dsimp only at h
    obtain ⟨-, h⟩ | ⟨-, h⟩ := ite_eq_iff.mp h
    · cases h
      exact .inr ⟨_, pcb.unsent_oversize, pcb.snd_lbb, pcb.snd_queuelen, by simp, rfl⟩
    · exact tcp_enqueue_fin_cases h

/-- The timers and the windows after the FIN was queued. -/
theorem Paced.tcp_send_fin (h : pcb.Paced fixed) (hsend : pcb.tcp_send_fin mem = some (pcb', err)) :
    { pcb' with canSend := false }.Paced fixed ∧ pcb'.Paced fixed := by
  obtain rfl | ⟨_, _, _, _, -, rfl⟩ := tcp_send_fin_cases hsend
  · exact ⟨⟨h.timed, h.persist, h.backoff, h.cwnd, h.ssthresh, h.snd_wnd⟩,
      ⟨h.timed, h.persist, h.backoff, h.cwnd, h.ssthresh, h.snd_wnd⟩⟩
  · exact ⟨⟨h.timed, h.persist, h.backoff, h.cwnd, h.ssthresh, h.snd_wnd⟩,
      ⟨h.timed, h.persist, h.backoff, h.cwnd, h.ssthresh, h.snd_wnd⟩⟩

end SndPcb

namespace Sender.Sends

variable {fixed wide : Prop} {iss : BitVec 32} {ends : Endpoints} {all all' : List SndSeg}
  {una una' ack ack' nxt nxt' : Nat} {s s' : Sender} {pcb : SndPcb} {out : List WireSeg}

theorem accepted (ends : Endpoints) (hs : Handshake) :
    (Sender.accepted hs).Sends fixed (2 ≤ hs.wnd.toNat) hs.iss ends [] 0 0 0 where
  outgoing := {
    split := Split.all_left []
    tiles := rfl
    sound := by simp
    una_le := le_rfl
    pending := by simp
    ack_le := le_rfl
    nxt_le := Nat.zero_le _
    lastack := (after_zero hs.iss).symm
    snd_nxt := (after_zero hs.iss).symm
    snd_lbb := fun _ => (after_zero hs.iss).symm
    snd_buf := rfl
    snd_queuelen := rfl
    closed := fun hfin => absurd hfin Bool.false_ne_true
    room := by simp [Sender.accepted, SndPcb.accepted]
    spent := by simp [Sender.accepted, SndPcb.accepted]
    oversize := fun _ => rfl
    len := by simp
    roomy := fun _ hwide => ⟨hwide, by simp, by simp [Sender.accepted, SndPcb.accepted]⟩ }
  paced := {
    timed := fun hne => absurd rfl hne
    persist := fun _ => rfl
    backoff := Nat.zero_le _
    cwnd := by
      intro _
      show hs.mss ≤ min (4 * hs.mss) (max (2 * hs.mss) 4380)
      omega
    ssthresh := fun _ hinfr => absurd hinfr Bool.false_ne_true
    snd_wnd := hs.wnd.isLt }
  wire := by simp [Sender.accepted]

theorem emit (h : s.Sends fixed wide iss ends all una ack nxt) (hle : nxt ≤ nxt')
    (hpcb : Outgoing fixed wide s.stream iss all' una' ack' nxt' pcb) (hpaced : pcb.Paced fixed)
    (hout : ∀ w ∈ out, (Departed.mk w s.stream.length).Sent s.stream iss nxt' ends) :
    (s.emit pcb out).Sends fixed wide iss ends all' una' ack' nxt' := by
  refine ⟨hpcb, hpaced, fun d hd => ?_⟩
  rcases List.mem_append.mp hd with hd | hd
  · exact (h.wire d hd).mono hle
  · obtain ⟨w, hw, rfl⟩ := List.mem_map.mp hd
    exact hout w hw

/-- `tcp_output` on a pcb that holds the stream. -/
theorem output {rcv : RcvHeader} {net : Netif} {pcb' : SndPcb} {err : ErrT}
    (h : s.Sends fixed wide iss ends all una ack nxt)
    (hpcb : Outgoing fixed wide s.stream iss all' una' ack' nxt pcb) (hpaced : pcb.Paced fixed)
    (hout : pcb.tcp_output ends rcv net = some (pcb', out, err)) :
    ∃ all'' nxt', (s.emit pcb' out).Sends fixed wide iss ends all'' una' ack' nxt' := by
  obtain ⟨all'', nxt', hle, hsent, hemitted⟩ := hpcb.tcp_output hpaced hout
  exact ⟨all'', nxt', h.emit hle hsent (hpaced.tcp_output hout) fun w hw => (hemitted w hw).sent⟩

/-- `tcp_write` appends to the queue what it appends to the stream. -/
theorem write {data : List UInt8} {more : Bool} {mem : Nat} {err : ErrT}
    (h : s.Sends fixed wide iss ends all una ack nxt) (hlen : data.length < 2 ^ 16)
    (hnewest : s.pcb.TailNewest) (hwrite : s.pcb.tcp_write data more mem = some (pcb, err)) :
    ∃ all', { s with pcb, stream := if err = ErrT.ERR_OK then s.stream ++ data else s.stream }.Sends
      fixed wide iss ends all' una ack nxt := by
  have hpaced := h.paced
  obtain ⟨rfl, hcan, all', unsent, oversize, queuelen, rfl, hpcb⟩ | ⟨hne, rfl | rfl⟩ :=
    h.outgoing.tcp_write hnewest hlen hwrite
  · have hopen : s.pcb.fin = false := by
      rw [← Bool.not_eq_true]
      intro hfin
      rw [h.outgoing.closed hfin] at hcan
      cases hcan
    have hnxt := h.outgoing.nxt_le
    rw [hopen, Bool.toNat_false, Nat.add_zero] at hnxt
    rw [if_pos rfl]
    exact ⟨all', hpcb, ⟨hpaced.timed, hpaced.persist, hpaced.backoff, hpaced.cwnd, hpaced.ssthresh,
      hpaced.snd_wnd⟩, fun w hw => (h.wire w hw).extend hnxt data⟩
  · rw [if_neg hne]
    exact ⟨all, h.outgoing, hpaced, h.wire⟩
  · rw [if_neg hne]
    exact ⟨all, h.outgoing.frame, ⟨hpaced.timed, hpaced.persist, hpaced.backoff, hpaced.cwnd,
      hpaced.ssthresh, hpaced.snd_wnd⟩, h.wire⟩

/-- `tcp_close` queues a FIN behind the last byte. -/
theorem close {mem : Nat} {rcv : RcvHeader} {net : Netif} (h : s.Sends fixed wide iss ends all una ack nxt)
    (hnewest : s.pcb.TailNewest)
    (hclose : s.pcb.tcp_close_shutdown_fin mem ends rcv net = some (pcb, out)) :
    ∃ all' nxt', (s.emit pcb out).Sends fixed wide iss ends all' una ack nxt' := by
  rw [SndPcb.tcp_close_shutdown_fin] at hclose
  obtain ⟨-, hclose⟩ | ⟨hcan, hclose⟩ := ite_eq_iff.mp hclose
  · cases hclose
    exact ⟨all, nxt, h.emit le_rfl h.outgoing h.paced (by simp)⟩
  · obtain ⟨⟨closed, err⟩, hsend, hclose⟩ := Option.bind_eq_some_iff.mp hclose
    obtain ⟨hpaced, hpaced'⟩ := h.paced.tcp_send_fin hsend
    dsimp only at hclose
    obtain ⟨rfl, all', hpcb⟩ | ⟨hne, rfl⟩ := h.outgoing.tcp_send_fin hnewest (Bool.of_not_eq_false hcan) hsend
    · rw [if_neg (not_not_intro rfl)] at hclose
      obtain ⟨⟨pcb', out', err'⟩, hout, hclose⟩ := Option.bind_eq_some_iff.mp hclose
      cases hclose
      exact h.output hpcb hpaced hout
    · rw [if_pos hne] at hclose
      cases hclose
      exact ⟨all, nxt, h.emit le_rfl h.outgoing.frame hpaced' (by simp)⟩

/-- What every segment does first, an MSS option included, keeps the queues. -/
theorem heard (h : s.Sends fixed wide iss ends all una ack nxt) (seg : AckSeg)
    (hmss : fixed → s.pcb.KeepsMss seg) :
    Outgoing fixed wide s.stream iss all una ack nxt (s.pcb.heard seg) ∧ (s.pcb.heard seg).Paced fixed := by
  have hpaced := h.paced
  have hprobe : Outgoing fixed wide s.stream iss all una ack nxt { s.pcb with persist_probe := 0 } :=
    h.outgoing.frame
  have hprobe' : { s.pcb with persist_probe := 0 }.Paced fixed :=
    ⟨hpaced.timed, hpaced.persist, hpaced.backoff, hpaced.cwnd, hpaced.ssthresh, hpaced.snd_wnd⟩
  have hsame : fixed → ({ s.pcb with persist_probe := 0 }.tcp_parseopt seg.mss).mss = s.pcb.mss := by
    intro hfixed
    rw [← hmss hfixed]
    obtain _ | mss := seg.mss
    · rfl
    · rfl
  exact ⟨hprobe.tcp_parseopt hsame, hprobe'.tcp_parseopt hsame⟩

/-- One step keeps the queues, the stream and what went out together. -/
theorem step {a : SndAct} (h : s.Sends fixed wide iss ends all una ack nxt) (hok : SndOrderly s a)
    (hmss : fixed → MssKept s a) (hstep : s.step ends a = some s') :
    ∃ all' una' ack' nxt', s'.Sends fixed wide iss ends all' una' ack' nxt' := by
  unfold Sender.step at hstep
  obtain ⟨-, hstep⟩ | ⟨-, hstep⟩ := ite_eq_iff.mp hstep
  · cases hstep
  · cases a with
    | write data more mem =>
      obtain ⟨hlen, hnewest⟩ := hok
      obtain ⟨⟨pcb, err⟩, hwrite, hstep⟩ := Option.bind_eq_some_iff.mp hstep
      cases hstep
      obtain ⟨all', h'⟩ := h.write hlen hnewest hwrite
      exact ⟨all', una, ack, nxt, h'⟩
    | close mem rcv net =>
      obtain ⟨⟨pcb, out⟩, hclose, hstep⟩ := Option.bind_eq_some_iff.mp hstep
      cases hstep
      obtain ⟨all', nxt', h'⟩ := h.close hok hclose
      exact ⟨all', una, ack, nxt', h'⟩
    | output now rcv net =>
      obtain ⟨⟨pcb, out, err⟩, hout, hstep⟩ := Option.bind_eq_some_iff.mp hstep
      cases hstep
      have hnow : Outgoing fixed wide s.stream iss all una ack nxt (s.pcb.tcp_ack_now now) := h.outgoing.frame
      have hpaced := h.paced
      have hpaced' : (s.pcb.tcp_ack_now now).Paced fixed :=
        ⟨hpaced.timed, hpaced.persist, hpaced.backoff, hpaced.cwnd, hpaced.ssthresh, hpaced.snd_wnd⟩
      obtain ⟨all', nxt', h'⟩ := h.output hnow hpaced' hout
      exact ⟨all', una, ack, nxt', h'⟩
    | input seg ackSent rcv net =>
      obtain ⟨pcb, hreceive, hstep⟩ := Option.bind_eq_some_iff.mp hstep
      obtain ⟨⟨pcb', out, err⟩, hout, hstep⟩ := Option.bind_eq_some_iff.mp hstep
      cases hstep
      obtain ⟨hheard, hpaced⟩ := h.heard seg hmss
      obtain ⟨pcb'', all', una', ack', hreceive', -, hpcb⟩ := hheard.tcp_receive seg ackSent
      cases hreceive.symm.trans hreceive'
      obtain ⟨all'', nxt', h'⟩ := h.output hpcb (hpaced.tcp_receive hreceive) hout
      exact ⟨all'', una', ack', nxt', h'⟩
    | tick rto rcv net mem =>
      obtain ⟨horder, hhead, hnet⟩ := hok
      obtain ⟨res, htick, hstep⟩ := Option.bind_eq_some_iff.mp hstep
      obtain _ | ⟨pcb, out⟩ := res
      · cases hstep
        exact ⟨all, una, ack, nxt, h.outgoing, h.paced, h.wire⟩
      · cases hstep
        obtain ⟨all', nxt', hle, hpcb, hemitted⟩ := h.outgoing.tcp_slowtmr h.paced horder hhead htick
        exact ⟨all', una, ack, nxt', h.emit hle hpcb (h.paced.tcp_slowtmr hnet htick)
          fun w hw => (hemitted w hw).sent⟩

end Sender.Sends

private theorem reach_sends {ends : Endpoints} {hs : Handshake} {s : Sender} {fixed : Prop}
    {ok : Sender → SndAct → Prop} (hok : ∀ s a, ok s a → SndOrderly s a)
    (hmss : fixed → ∀ s a, ok s a → MssKept s a) (h : Reach (senderMachine ends hs) ok s) :
    ∃ all una ack nxt, s.Sends fixed (2 ≤ hs.wnd.toNat) hs.iss ends all una ack nxt := by
  apply h.invariant
    (P := fun s => ∃ all una ack nxt, s.Sends fixed (2 ≤ hs.wnd.toNat) hs.iss ends all una ack nxt)
  · exact ⟨_, _, _, _, .accepted ends hs⟩
  · rintro s a s' - ⟨all, una, ack, nxt, hs'⟩ ha hstep
    exact hs'.step (hok s a ha) (fun hfixed => hmss hfixed s a ha) hstep

/-- What holds whatever MSS options come. -/
theorem reach_orderly {ends : Endpoints} {hs : Handshake} {s : Sender}
    (h : Reach (senderMachine ends hs) SndOrderly s) :
    ∃ all una ack nxt, s.Sends False (2 ≤ hs.wnd.toNat) hs.iss ends all una ack nxt :=
  reach_sends (fun _ _ hok => hok) False.elim h

/-- lwIP at 10.0.0.1 and the client at 10.0.0.2. -/
def peerEnds : Endpoints := ⟨hostA, hostB, 443, 5000⟩

def peerHandshake : Handshake :=
  { mss := 1460
    mss_pos := by decide
    mss_le := by decide
    nodelay := false
    wnd := 1000
    irs := 100
    iss := 7 }

def peerHeader : RcvHeader := ⟨101, 1000⟩

/-- A route, and a network interface that takes everything. -/
def wideNet : Netif := ⟨true, 100, true⟩

/-- All is sent, and sent again after a timeout. -/
def senderRun : List SndAct :=
  [.write [1, 2, 3] false 9, .output false peerHeader wideNet, .write [4] false 9,
    .close 9 peerHeader wideNet, .tick 1 peerHeader wideNet 9]

/-- Every segment that ever went out carries bytes of what was written, at their place, with a
    checksum that the other end accepts, and a FIN only behind the last byte. Nothing is assumed
    of the ACKs, windows and MSS options that come. -/
theorem sender_segments {ends : Endpoints} {hs : Handshake} {s : Sender}
    (h : Reach (senderMachine ends hs) SndOrderly s) :
    ∀ d ∈ s.wire, (∃ p, SegOf s.stream hs.iss p d.seg.received) ∧ d.seg.Verifies ends := by
  intro d hd
  obtain ⟨all, una, ack, nxt, hsends⟩ := reach_orderly h
  have hsent := hsends.wire d hd
  obtain ⟨p, hseg, -⟩ := hsent.place
  exact ⟨⟨p, hseg⟩, hsent.verifies⟩

/-- Two segments go out twice. -/
theorem sender_segments_again : ∃ s : Sender, s.wire.length = 4 ∧
    ∀ d ∈ s.wire, (∃ p, SegOf s.stream 7 p d.seg.received) ∧ d.seg.Verifies peerEnds := by
  obtain ⟨s, hreach, hlen⟩ := exists_reach_of_run (senderMachine peerEnds peerHandshake) SndOrderly senderRun
    (fun s => s.wire.length = 4) (by decide)
  exact ⟨s, hlen, sender_segments hreach⟩

/-- What the other end has not acknowledged is still queued, in order, to be sent or sent again,
    whatever ACKs, windows and MSS options come. -/
theorem sender_keeps_unacknowledged {ends : Endpoints} {hs : Handshake} {s : Sender}
    (h : Reach (senderMachine ends hs) SndOrderly s) :
    ∃ all una ack, Split all s.pcb.unacked s.pcb.unsent ∧ una ≤ ack ∧
      ack ≤ s.stream.length + s.pcb.fin.toNat ∧ s.pcb.lastack = after hs.iss ack ∧
      all.flatMap SndSeg.data = s.stream.drop una := by
  obtain ⟨all, una, ack, nxt, hsends⟩ := reach_orderly h
  have hpcb := hsends.outgoing
  exact ⟨all, una, ack, hpcb.split, hpcb.una_le, Nat.le_trans hpcb.ack_le hpcb.nxt_le, hpcb.lastack,
    hpcb.tiles.flatMap_data (by omega)⟩

/-- Two segments that are in flight. -/
theorem sender_keeps_unacknowledged_again : ∃ s : Sender, s.pcb.unacked.length = 2 ∧
    ∃ all una ack, Split all s.pcb.unacked s.pcb.unsent ∧ una ≤ ack ∧
      ack ≤ s.stream.length + s.pcb.fin.toNat ∧ s.pcb.lastack = after 7 ack ∧
      all.flatMap SndSeg.data = s.stream.drop una := by
  obtain ⟨s, hreach, hlen⟩ := exists_reach_of_run (senderMachine peerEnds peerHandshake) SndOrderly senderRun
    (fun s => s.pcb.unacked.length = 2) (by decide)
  exact ⟨s, hlen, sender_keeps_unacknowledged hreach⟩

/-! ### Timers -/

/-- There is a route to the client. -/
def SndAct.Routed : SndAct → Prop
  | .write _ _ _ => True
  | .close _ _ net | .output _ _ net | .input _ _ _ net | .tick _ _ net _ => net.route = true

instance : (a : SndAct) → Decidable a.Routed
  | .write _ _ _ => inferInstanceAs (Decidable True)
  | .close _ _ _ | .output _ _ _ | .input _ _ _ _ | .tick _ _ _ _ => inferInstanceAs (Decidable (_ = _))

/-- `tcp_output` follows `tcp_write`, as in `writeInternal`, and the MSS is fixed. -/
def Served (s : Sender) (a : SndAct) : Prop :=
  SndOrderly s a ∧ MssKept s a ∧ a.Routed ∧ (s.pcb.Awake ∨ a matches .output _ _ _)

instance (s : Sender) (a : SndAct) : Decidable (Served s a) := inferInstanceAs (Decidable (_ ∧ _ ∧ _ ∧ _))

/-- Every step but a `tcp_write` ends with a timer that runs or nothing queued. -/
theorem Sender.Sends.awake {fixed wide : Prop} {iss : BitVec 32} {ends : Endpoints} {all : List SndSeg}
    {una ack nxt : Nat} {s s' : Sender} {a : SndAct} (h : s.Sends fixed wide iss ends all una ack nxt)
    (hfixed : fixed) (hok : Served s a) (hwrite : ∀ data more mem, a ≠ .write data more mem)
    (hstep : s.step ends a = some s') : s'.removed = true ∨ s'.pcb.Awake := by
  obtain ⟨horderly, hmss, hroute, hawake⟩ := hok
  have hpaced := h.paced
  unfold Sender.step at hstep
  obtain ⟨-, hstep⟩ | ⟨-, hstep⟩ := ite_eq_iff.mp hstep
  · cases hstep
  · cases a with
    | write data more mem => exact absurd rfl (hwrite data more mem)
    | close mem rcv net =>
      have hawake : s.pcb.Awake := by simpa using hawake
      obtain ⟨⟨pcb, out⟩, hclose, hstep⟩ := Option.bind_eq_some_iff.mp hstep
      cases hstep
      refine .inr ?_
      rw [SndPcb.tcp_close_shutdown_fin] at hclose
      obtain ⟨-, hclose⟩ | ⟨hcan, hclose⟩ := ite_eq_iff.mp hclose
      · cases hclose
        exact hawake
      · obtain ⟨⟨closed, err⟩, hsend, hclose⟩ := Option.bind_eq_some_iff.mp hclose
        dsimp only at hclose
        obtain ⟨rfl, all', hpcb⟩ | ⟨hne, rfl⟩ :=
          h.outgoing.tcp_send_fin horderly (Bool.of_not_eq_false hcan) hsend
        · rw [if_neg (not_not_intro rfl)] at hclose
          obtain ⟨⟨pcb', out', err'⟩, hout, hclose⟩ := Option.bind_eq_some_iff.mp hclose
          cases hclose
          exact hpcb.tcp_output_awake (hpaced.tcp_send_fin hsend).1 hfixed hroute hout
        · rw [if_pos hne] at hclose
          cases hclose
          exact hawake
    | output now rcv net =>
      obtain ⟨⟨pcb, out, err⟩, hout, hstep⟩ := Option.bind_eq_some_iff.mp hstep
      cases hstep
      have hnow : Outgoing fixed wide s.stream iss all una ack nxt (s.pcb.tcp_ack_now now) := h.outgoing.frame
      have hpaced' : (s.pcb.tcp_ack_now now).Paced fixed :=
        ⟨hpaced.timed, hpaced.persist, hpaced.backoff, hpaced.cwnd, hpaced.ssthresh, hpaced.snd_wnd⟩
      exact .inr (hnow.tcp_output_awake hpaced' hfixed hroute hout)
    | input seg ackSent rcv net =>
      obtain ⟨pcb, hreceive, hstep⟩ := Option.bind_eq_some_iff.mp hstep
      obtain ⟨⟨pcb', out, err⟩, hout, hstep⟩ := Option.bind_eq_some_iff.mp hstep
      cases hstep
      obtain ⟨hheard, hpaced'⟩ := h.heard seg fun _ => hmss
      obtain ⟨pcb'', all', una', ack', hreceive', -, hpcb⟩ := hheard.tcp_receive seg ackSent
      cases hreceive.symm.trans hreceive'
      exact .inr (hpcb.tcp_output_awake (hpaced'.tcp_receive hreceive) hfixed hroute hout)
    | tick rto rcv net mem =>
      have hawake : s.pcb.Awake := by simpa using hawake
      obtain ⟨horder, hhead, -⟩ := horderly
      obtain ⟨res, htick, hstep⟩ := Option.bind_eq_some_iff.mp hstep
      obtain _ | ⟨pcb, out⟩ := res
      · cases hstep
        exact .inl rfl
      · cases hstep
        exact .inr (h.outgoing.tcp_slowtmr_awake hpaced hfixed horder hhead hroute hawake htick)

/-- In every state of a run with a route and a fixed MSS, a timer runs or nothing is queued, unless a
    `tcp_write` has just returned: the sending half never waits for nothing. -/
theorem sender_awake {ends : Endpoints} {hs : Handshake} {s : Sender}
    (h : Reach (senderMachine ends hs) Served s) :
    s.removed = true ∨ s.pcb.Awake ∨
      ∃ s₀ data more mem, Reach (senderMachine ends hs) Served s₀ ∧
        s₀.step ends (.write data more mem) = some s := by
  cases h with
  | init => exact .inr (.inl (.inl ⟨rfl, rfl⟩))
  | @step s₀ _ a hreach hok hstep =>
    by_cases hwrite : ∃ data more mem, a = .write data more mem
    · obtain ⟨data, more, mem, rfl⟩ := hwrite
      exact .inr (.inr ⟨s₀, data, more, mem, hreach, hstep⟩)
    · push Not at hwrite
      obtain ⟨all, una, ack, nxt, hsends⟩ := reach_sends (fun _ _ hserved => hserved.1)
        (fun _ : True => fun _ _ hserved => hserved.2.1) hreach
      obtain hremoved | hawake := hsends.awake trivial hok hwrite hstep
      · exact .inl hremoved
      · exact .inr (.inl hawake)

/-- Two segments that are sent again. -/
theorem sender_awake_again : ∃ s : Sender, s.wire.length = 4 ∧ (s.removed = true ∨ s.pcb.Awake ∨
    ∃ s₀ data more mem, Reach (senderMachine peerEnds peerHandshake) Served s₀ ∧
      s₀.step peerEnds (.write data more mem) = some s) := by
  obtain ⟨s, hreach, hlen⟩ := exists_reach_of_run (senderMachine peerEnds peerHandshake) Served
    [.write [1, 2, 3] false 9, .output false peerHeader wideNet, .write [4] false 9,
      .output false peerHeader wideNet, .close 9 peerHeader wideNet, .tick 1 peerHeader wideNet 9]
    (fun s => s.wire.length = 4) (by decide)
  exact ⟨s, hlen, sender_awake hreach⟩

/-! ### Assertions -/

/-- No ACK of all that is queued comes while the persist timer runs. -/
def SndPcb.Unheard (pcb : SndPcb) (seg : AckSeg) : Prop :=
  0 < pcb.persist_backoff → ∀ last ∈ pcb.unsent.getLast?, ¬ TCP_SEQ_LEQ last.ends seg.ackno

instance (pcb : SndPcb) (seg : AckSeg) : Decidable (pcb.Unheard seg) := inferInstanceAs (Decidable (_ → _))

/-- No probe makes the queue empty, and a split has memory for a pbuf and a `tcp_seg` or for
    none. -/
def Spared (s : Sender) : SndAct → Prop
  | .input seg _ _ _ => s.pcb.Unheard seg
  | .tick _ _ _ mem => s.pcb.PersistDue → s.pcb.snd_wnd ≠ 0 → s.pcb.SplitFits mem
  | .write _ _ _ | .close _ _ _ | .output _ _ _ => True

instance (s : Sender) : (a : SndAct) → Decidable (Spared s a)
  | .input _ _ _ _ => inferInstanceAs (Decidable (SndPcb.Unheard _ _))
  | .tick _ _ _ _ => inferInstanceAs (Decidable (_ → _))
  | .write _ _ _ | .close _ _ _ | .output _ _ _ => inferInstanceAs (Decidable True)

/-- The condition of `SndOrderly`, a fixed MSS, and nothing that makes an assertion fail. -/
def SndGuarded (s : Sender) (a : SndAct) : Prop := SndOrderly s a ∧ MssKept s a ∧ Spared s a

instance (s : Sender) (a : SndAct) : Decidable (SndGuarded s a) := inferInstanceAs (Decidable (_ ∧ _ ∧ _))

/-- What is left of a queue begins with the first segment that is not acknowledged. -/
theorem tcp_free_acked_segments_left {ackno : BitVec 32} {other : List SndSeg} (l : List SndSeg) :
    ∀ {l' : List SndSeg} {queuelen recv_acked queuelen' recv_acked' : Nat},
      tcp_free_acked_segments ackno other l queuelen recv_acked = some (l', queuelen', recv_acked') →
        l' = l.dropWhile (Tiles.acked ackno) := by
  induction l with
  | nil =>
    intro l' queuelen recv_acked queuelen' recv_acked' h
    rw [tcp_free_acked_segments] at h
    cases h
    rfl
  | cons seg rest ih =>
    intro l' queuelen recv_acked queuelen' recv_acked' h
    rw [tcp_free_acked_segments] at h
    by_cases hacked : TCP_SEQ_LEQ seg.ends ackno
    · have hset : Tiles.acked ackno seg = true := decide_eq_true hacked
      rw [if_pos hacked] at h
      obtain ⟨_, -, h⟩ := Option.bind_eq_some_iff.mp h
      obtain ⟨_, -, h⟩ := Option.bind_eq_some_iff.mp h
      rw [List.dropWhile_cons_of_pos hset]
      exact ih h
    · have hclear : ¬ Tiles.acked ackno seg = true := fun hset => hacked (of_decide_eq_true hset)
      rw [if_neg hacked] at h
      cases h
      rw [List.dropWhile_cons_of_neg hclear]

namespace SndPcb

variable {pcb pcb' : SndPcb}

/-- What an ACK of something new does to the queue and the timers. -/
theorem receiveNew_spec {ackno : BitVec 32} (h : pcb.receiveNew ackno = some pcb') :
    pcb'.unsent = pcb.unsent.dropWhile (Tiles.acked ackno) ∧
      pcb'.persist_backoff = pcb.persist_backoff ∧ pcb'.nrtx = 0 := by
  obtain ⟨infr, cwnd, bytes_acked, hgrow⟩ :=
    growCwnd_frame pcb ackno ((ackno - pcb.lastack).toNat % 2 ^ 16)
  rw [receiveNew] at h
  dsimp only at h
  rw [hgrow] at h
  obtain ⟨freed, hfree, h⟩ := Option.bind_eq_some_iff.mp h
  obtain ⟨⟨unacked, queuelen, recv_acked⟩, -, hfree⟩ := Option.bind_eq_some_iff.mp hfree
  obtain ⟨⟨unsent, queuelen', recv_acked'⟩, hunsent, hfree⟩ := Option.bind_eq_some_iff.mp hfree
  cases h
  cases hfree
  exact ⟨tcp_free_acked_segments_left _ hunsent, rfl, rfl⟩

private theorem updateWindow_unsent (pcb : SndPcb) (seg : AckSeg) :
    (pcb.updateWindow seg).unsent = pcb.unsent ∧
      (pcb.updateWindow seg).persist_backoff = pcb.persist_backoff ∧
      (pcb.updateWindow seg).lastack = pcb.lastack ∧ (pcb.updateWindow seg).snd_nxt = pcb.snd_nxt := by
  rw [updateWindow]
  split
  · exact ⟨rfl, rfl, rfl, rfl⟩
  · exact ⟨rfl, rfl, rfl, rfl⟩

private theorem heard_unsent (pcb : SndPcb) (seg : AckSeg) :
    (pcb.heard seg).unsent = pcb.unsent ∧ (pcb.heard seg).persist_backoff = pcb.persist_backoff := by
  rw [heard]
  obtain _ | mss := seg.mss
  · exact ⟨rfl, rfl⟩
  · exact ⟨rfl, rfl⟩

theorem Waiting.tcp_rexmit (h : pcb.Waiting) : pcb.tcp_rexmit.1.Waiting := by
  rw [SndPcb.tcp_rexmit]
  rcases pcb.unacked with _ | ⟨seg, next⟩
  · exact h
  · intro _ hnil
    have hmem : seg ∈ insertSorted Tiles.before seg pcb.unsent := Split.mem_insertSorted seg pcb.unsent
    have hempty : insertSorted Tiles.before seg pcb.unsent = [] := hnil
    rw [hempty] at hmem
    cases hmem

theorem Waiting.receiveDup (h : pcb.Waiting) (right_wnd_edge : BitVec 32) (seg : AckSeg) :
    (pcb.receiveDup right_wnd_edge seg).Waiting := by
  have hcount : pcb.countDup.Waiting := h
  rw [SndPcb.receiveDup]
  split
  · dsimp only
    split
    · rw [SndPcb.tcp_rexmit_fast]
      split
      · dsimp only
        split
        · exact hcount.tcp_rexmit
        · exact hcount.tcp_rexmit
      · exact hcount
    · exact hcount
  · exact h

/-- An ACK leaves the persist timer running only with something to send, unless it is of
    everything that is queued. -/
theorem Waiting.tcp_receive {seg : AckSeg} {ackSent : Bool} (h : pcb.Waiting) (hseg : pcb.Unheard seg)
    (hreceive : pcb.tcp_receive seg ackSent = some pcb') : pcb'.Waiting := by
  obtain ⟨hunsent, hbackoff, -, -⟩ := pcb.updateWindow_unsent seg
  have hwindow : (pcb.updateWindow seg).Waiting := by
    rw [Waiting, hunsent, hbackoff]
    exact h
  rw [SndPcb.tcp_receive] at hreceive
  obtain ⟨-, hreceive⟩ | ⟨-, hreceive⟩ := ite_eq_iff.mp hreceive
  · cases hreceive
    exact h
  obtain ⟨-, hreceive⟩ | ⟨-, hreceive⟩ := ite_eq_iff.mp hreceive
  · cases hreceive
    exact hwindow.receiveDup _ seg
  · obtain ⟨-, hreceive⟩ | ⟨-, hreceive⟩ := ite_eq_iff.mp hreceive
    · obtain ⟨hleft, hsame, -⟩ := receiveNew_spec hreceive
      intro hpos
      rw [hsame, hbackoff] at hpos
      rw [hleft, hunsent]
      intro hnil
      obtain ⟨last, hlast⟩ := Option.ne_none_iff_exists'.mp
        (fun hnone => h hpos (List.getLast?_eq_none_iff.mp hnone))
      have hacked := List.dropWhile_eq_nil_iff.mp hnil last (List.mem_of_getLast? hlast)
      exact hseg hpos last hlast (of_decide_eq_true hacked)
    · cases hreceive
      exact hwindow

end SndPcb

/-- With nothing in flight, something is unsent where the stream goes on. -/
theorem Outgoing.unsent_ne_nil {fixed wide : Prop} {stream : List UInt8} {iss : BitVec 32} {all : List SndSeg}
    {una ack nxt : Nat} {pcb : SndPcb} (h : Outgoing fixed wide stream iss all una ack nxt pcb)
    (hunacked : pcb.unacked = []) : pcb.unsent ≠ [] ↔ una < stream.length + pcb.fin.toNat := by
  have hsplit := h.split
  have htiles := h.tiles
  rw [hunacked] at hsplit
  rw [hsplit.eq_right] at htiles
  generalize pcb.unsent = unsent at htiles
  obtain _ | ⟨seg, next⟩ := unsent
  · have hend : una = stream.length + pcb.fin.toNat := htiles
    exact ⟨fun hne => absurd rfl hne, fun hlt => by omega⟩
  · obtain ⟨-, hpos, hrest⟩ := htiles
    have hle := hrest.le
    exact ⟨fun _ => by omega, fun _ => List.cons_ne_nil _ _⟩

namespace Sender.Sends

variable {fixed wide : Prop} {iss : BitVec 32} {ends : Endpoints} {all : List SndSeg} {una ack nxt : Nat}
  {s s' : Sender}

/-- The persist timer still waits for something behind every guarded step. -/
theorem waiting {a : SndAct} (h : s.Sends fixed wide iss ends all una ack nxt) (hwaiting : s.pcb.Waiting)
    (hok : SndOrderly s a) (hspared : Spared s a) (hstep : s.step ends a = some s') : s'.pcb.Waiting := by
  unfold Sender.step at hstep
  obtain ⟨-, hstep⟩ | ⟨-, hstep⟩ := ite_eq_iff.mp hstep
  · cases hstep
  · cases a with
    | write data more mem =>
      obtain ⟨hlen, hnewest⟩ := hok
      obtain ⟨⟨pcb, err⟩, hwrite, hstep⟩ := Option.bind_eq_some_iff.mp hstep
      cases hstep
      obtain ⟨rfl, -, all', unsent, oversize, queuelen, rfl, hpcb⟩ | ⟨-, rfl | rfl⟩ :=
        h.outgoing.tcp_write hnewest hlen hwrite
      · intro hpos
        have hunacked := h.paced.persist hpos
        have hlt := (h.outgoing.unsent_ne_nil hunacked).mp (hwaiting hpos)
        apply (hpcb.unsent_ne_nil hunacked).mpr
        rw [List.length_append]
        exact Nat.lt_of_lt_of_le hlt (by dsimp only; omega)
      · exact hwaiting
      · exact hwaiting
    | close mem rcv net =>
      obtain ⟨⟨pcb, out⟩, hclose, hstep⟩ := Option.bind_eq_some_iff.mp hstep
      cases hstep
      rw [SndPcb.tcp_close_shutdown_fin] at hclose
      obtain ⟨-, hclose⟩ | ⟨-, hclose⟩ := ite_eq_iff.mp hclose
      · cases hclose
        exact hwaiting
      · obtain ⟨⟨closed, err⟩, hsend, hclose⟩ := Option.bind_eq_some_iff.mp hclose
        have hclosed : closed.Waiting := by
          obtain rfl | ⟨_, _, _, _, hne, rfl⟩ := SndPcb.tcp_send_fin_cases hsend
          · exact hwaiting
          · exact fun _ => hne
        have hshut : { closed with canSend := false }.Waiting := hclosed
        dsimp only at hclose
        obtain ⟨-, hclose⟩ | ⟨-, hclose⟩ := ite_eq_iff.mp hclose
        · cases hclose
          exact hclosed
        · obtain ⟨⟨pcb', out', err'⟩, hout, hclose⟩ := Option.bind_eq_some_iff.mp hclose
          cases hclose
          exact (hshut.tcp_output hout).1
    | output now rcv net =>
      obtain ⟨⟨pcb, out, err⟩, hout, hstep⟩ := Option.bind_eq_some_iff.mp hstep
      cases hstep
      have hnow : (s.pcb.tcp_ack_now now).Waiting := hwaiting
      exact (hnow.tcp_output hout).1
    | input seg ackSent rcv net =>
      obtain ⟨pcb, hreceive, hstep⟩ := Option.bind_eq_some_iff.mp hstep
      obtain ⟨⟨pcb', out, err⟩, hout, hstep⟩ := Option.bind_eq_some_iff.mp hstep
      cases hstep
      obtain ⟨hunsent, hbackoff⟩ := s.pcb.heard_unsent seg
      have hheard : (s.pcb.heard seg).Waiting := by
        rw [SndPcb.Waiting, hunsent, hbackoff]
        exact hwaiting
      have hunheard : (s.pcb.heard seg).Unheard seg := by
        rw [SndPcb.Unheard, hunsent, hbackoff]
        exact hspared
      exact ((hheard.tcp_receive hunheard hreceive).tcp_output hout).1
    | tick rto rcv net mem =>
      obtain ⟨res, htick, hstep⟩ := Option.bind_eq_some_iff.mp hstep
      obtain _ | ⟨pcb, out⟩ := res
      · cases hstep
        exact hwaiting
      · cases hstep
        exact hwaiting.tcp_slowtmr htick

/-- Where the guards hold, no assertion fails. -/
theorem step_total {a : SndAct} (h : s.Sends fixed wide iss ends all una ack nxt) (hfixed : fixed)
    (hwide : wide) (hwaiting : s.pcb.Waiting) (hremoved : s.removed = false) (hguarded : SndGuarded s a) :
    ∃ s', s.step ends a = some s' := by
  have hpaced := h.paced
  obtain ⟨hok, hmss, hspared⟩ := hguarded
  unfold Sender.step
  rw [if_neg (by simp [hremoved])]
  cases a with
  | write data more mem =>
    obtain ⟨hlen, hnewest⟩ := hok
    obtain ⟨res, hwrite⟩ := h.outgoing.tcp_write_total hfixed hwide hnewest hlen more mem
    dsimp only
    rw [hwrite]
    exact ⟨_, rfl⟩
  | close mem rcv net =>
    have hclose : ∃ res, s.pcb.tcp_close_shutdown_fin mem ends rcv net = some res := by
      rw [SndPcb.tcp_close_shutdown_fin]
      split
      · exact ⟨_, rfl⟩
      · rename_i hcan
        obtain ⟨⟨closed, err⟩, hsend⟩ := tcp_send_fin_total s.pcb mem
        rw [hsend, Option.bind_eq_bind, Option.bind_some]
        dsimp only
        obtain ⟨rfl, all', hpcb⟩ | ⟨hne, -⟩ :=
          h.outgoing.tcp_send_fin hok (Bool.of_not_eq_false hcan) hsend
        · obtain ⟨res, hout⟩ := hpcb.tcp_output_total (hpaced.tcp_send_fin hsend).1 ends rcv net
          rw [if_neg (not_not_intro rfl), hout]
          exact ⟨_, rfl⟩
        · rw [if_pos hne]
          exact ⟨_, rfl⟩
    obtain ⟨res, hclose⟩ := hclose
    dsimp only
    rw [hclose]
    exact ⟨_, rfl⟩
  | output now rcv net =>
    have hnow : Outgoing fixed wide s.stream iss all una ack nxt (s.pcb.tcp_ack_now now) := h.outgoing.frame
    have hpaced' : (s.pcb.tcp_ack_now now).Paced fixed :=
      ⟨hpaced.timed, hpaced.persist, hpaced.backoff, hpaced.cwnd, hpaced.ssthresh, hpaced.snd_wnd⟩
    obtain ⟨res, hout⟩ := hnow.tcp_output_total hpaced' ends rcv net
    dsimp only
    rw [hout]
    exact ⟨_, rfl⟩
  | input seg ackSent rcv net =>
    obtain ⟨hheard, hpaced'⟩ := h.heard seg fun _ => hmss
    obtain ⟨pcb, all', una', ack', hreceive, -, hpcb⟩ := hheard.tcp_receive seg ackSent
    obtain ⟨res, hout⟩ := hpcb.tcp_output_total (hpaced'.tcp_receive hreceive) ends rcv net
    dsimp only
    rw [hreceive, Option.bind_eq_bind, Option.bind_some, hout]
    exact ⟨_, rfl⟩
  | tick rto rcv net mem =>
    obtain ⟨horder, hhead, -⟩ := hok
    obtain ⟨res, htick⟩ := h.outgoing.tcp_slowtmr_total hpaced hfixed hwaiting horder hhead hspared ends rcv net
    dsimp only
    rw [htick]
    obtain _ | res := res
    · exact ⟨_, rfl⟩
    · exact ⟨_, rfl⟩

end Sender.Sends

/-- Over every run that the guards allow, no assertion of `tcp_write`, `tcp_output`, `tcp_receive`,
    `tcp_slowtmr` and what they call fails, whatever ACKs and windows come. -/
theorem sender_never_aborts {ends : Endpoints} {hs : Handshake} {s : Sender}
    (hwnd : 2 ≤ hs.wnd.toNat) (h : Reach (senderMachine ends hs) SndGuarded s) (hremoved : s.removed = false)
    {a : SndAct} (ha : SndGuarded s a) : ∃ s', s.step ends a = some s' := by
  have hwaiting : s.pcb.Waiting := by
    apply h.invariant (P := fun s => s.pcb.Waiting)
    · exact fun hpos => absurd hpos (Nat.lt_irrefl 0)
    · intro s a s' hreach hs' hok hstep
      obtain ⟨all, una, ack, nxt, hsends⟩ := reach_orderly (hreach.mono fun _ _ hguarded => hguarded.1)
      exact hsends.waiting hs' hok.1 hok.2.2 hstep
  obtain ⟨all, una, ack, nxt, hsends⟩ := reach_sends (fun _ _ hguarded => hguarded.1)
    (fun _ : True => fun _ _ hguarded => hguarded.2.1) h
  exact hsends.step_total trivial hwnd hwaiting hremoved ha

/-- A tick after two segments went out twice. -/
theorem sender_never_aborts_again : ∃ s : Sender, s.wire.length = 4 ∧
    ∃ s', s.step peerEnds (.tick 6 peerHeader wideNet 9) = some s' := by
  obtain ⟨s, hreach, hlen, hremoved, hok⟩ := exists_reach_of_run (senderMachine peerEnds peerHandshake)
    SndGuarded senderRun (fun s => s.wire.length = 4 ∧ s.removed = false ∧
      SndGuarded s (.tick 6 peerHeader wideNet 9)) (by decide)
  exact ⟨s, hlen, sender_never_aborts (by decide) hreach hremoved hok⟩

end tun2proxy.core
