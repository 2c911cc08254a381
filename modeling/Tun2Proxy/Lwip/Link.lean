import Tun2Proxy.Lwip.Receiver
import Tun2Proxy.Lwip.Sender

open tun2proxy.circular tun2proxy.machine tun2proxy.machine.Machine

namespace tun2proxy.core

/-- A connection from lwIP to a client whose receiving half works as lwIP's own. -/
structure Link where
  sender : Sender
  client : Receiver

/-- A step of the sending half, a segment that arrives, or what else the client does. -/
inductive LinkAct where
  | sender (a : SndAct)
  -- a segment that went out arrives, not for the first time perhaps
  | arrive (sent : Nat) (copied : Bool)
  | recved (len : Nat)
  | closed
  | freeOoseq
  | announce

namespace Link

/-- A step of the client. -/
def receive (l : Link) (a : RcvAct) : Option Link := (l.client.step a).map fun client => { l with client }

/-- One step. Of the segments that ever went out, any may arrive, at any time and any number of
    times. -/
def step (ends : Endpoints) (l : Link) : LinkAct → Option Link
  | .sender a => (l.sender.step ends a).map fun sender => { l with sender }
  | .arrive sent copied => do
    let d ← l.sender.wire[sent]?
    l.receive (.segment d.seg.received copied)
  | .recved len => l.receive (.recved len)
  | .closed => l.receive .closed
  | .freeOoseq => l.receive .freeOoseq
  | .announce => l.receive .announce

end Link

/-- lwIP and the client, after the handshake `hs`. -/
def linkMachine (ends : Endpoints) (hs : Handshake) (mss : Nat) : Machine Link LinkAct :=
  ⟨⟨.accepted hs, .accepted hs.iss mss⟩, Link.step ends⟩

/-- What was written when the segment went out ends less than 2 ^ 29 bytes from `pos`. Nothing is
    said about the segment itself. -/
def Departed.Recent (d : Departed) (pos : Nat) : Prop := d.written < pos + 2 ^ 29 ∧ pos < d.written + 2 ^ 29

instance (d : Departed) (pos : Nat) : Decidable (d.Recent pos) := inferInstanceAs (Decidable (_ ∧ _))

/-- The network may lose, copy and reorder, but a segment does not arrive 2 ^ 29 bytes too late. -/
def LinkOk (l : Link) : LinkAct → Prop
  | .sender a => SndOrderly l.sender a
  | .arrive sent _ => ∀ d ∈ l.sender.wire[sent]?, d.Recent l.client.pos
  | .recved len => len < 2 ^ 16
  | .closed | .freeOoseq | .announce => True

instance (l : Link) : (a : LinkAct) → Decidable (LinkOk l a)
  | .sender a => inferInstanceAs (Decidable (SndOrderly l.sender a))
  | .arrive _ _ => inferInstanceAs (Decidable (∀ _ ∈ _, _))
  | .recved _ => inferInstanceAs (Decidable (_ < _))
  | .closed | .freeOoseq | .announce => inferInstanceAs (Decidable True)

/-- What the client gets was on the wire. -/
def FromWire (wire : List Departed) (stream : List UInt8) (iss : BitVec 32) (r : Receiver) (a : RcvAct) :
    Prop :=
  FromStream stream iss r a ∧ ∀ seg copied, a = .segment seg copied → ∃ d ∈ wire, d.seg.received = seg

namespace FromWire

variable {wire : List Departed} {stream : List UInt8} {iss : BitVec 32} {r : Receiver} {a : RcvAct}

theorem append (h : FromWire wire stream iss r a) (out : List Departed) :
    FromWire (wire ++ out) stream iss r a := by
  refine ⟨h.1, fun seg copied ha => ?_⟩
  obtain ⟨d, hd, hreceived⟩ := h.2 seg copied ha
  exact ⟨d, List.mem_append_left _ hd, hreceived⟩

/-- While no FIN was sent, the stream may grow behind what the client gets. -/
theorem extend (h : FromWire wire stream iss r a) (hopen : ∀ d ∈ wire, d.seg.received.fin = false)
    (more : List UInt8) : FromWire wire (stream ++ more) iss r a := by
  refine ⟨?_, h.2⟩
  cases a with
  | segment seg copied =>
    obtain ⟨p, hseg, hnear⟩ := h.1
    obtain ⟨d, hd, rfl⟩ := h.2 seg copied rfl
    exact ⟨p, hseg.extend (hopen d hd) more, hnear⟩
  | recved len => exact h.1
  | closed => exact trivial
  | freeOoseq => exact trivial
  | announce => exact trivial
  | parseopt _ => exact trivial

end FromWire

/-- A step of the sender adds to the wire, or to a stream that has no FIN yet. -/
theorem Sender.step_stream {ends : Endpoints} {s s' : Sender} {a : SndAct}
    (h : s.step ends a = some s') :
    (s'.stream = s.stream ∧ ∃ out, s'.wire = s.wire ++ out) ∨
      ∃ data, s'.stream = s.stream ++ data ∧ s'.wire = s.wire ∧ s.pcb.canSend = true := by
  unfold Sender.step at h
  obtain ⟨-, h⟩ | ⟨-, h⟩ := ite_eq_iff.mp h
  · cases h
  · cases a with
    | write data more mem =>
      obtain ⟨⟨pcb, err⟩, hwrite, h⟩ := Option.bind_eq_some_iff.mp h
      cases h
      obtain ⟨hne, -⟩ | ⟨rfl, hcan, -⟩ := tcp_write_ok hwrite
      · exact .inl ⟨if_neg hne, [], (List.append_nil _).symm⟩
      · have hstream : (if ErrT.ERR_OK = .ERR_OK then s.stream ++ data else s.stream) = s.stream ++ data :=
          if_pos rfl
        exact .inr ⟨data, hstream, rfl, hcan⟩
    | close mem rcv net =>
      obtain ⟨res, -, h⟩ := Option.bind_eq_some_iff.mp h
      cases h
      exact .inl ⟨rfl, _, rfl⟩
    | output now rcv net =>
      obtain ⟨res, -, h⟩ := Option.bind_eq_some_iff.mp h
      cases h
      exact .inl ⟨rfl, _, rfl⟩
    | input seg ackSent rcv net =>
      obtain ⟨pcb, -, h⟩ := Option.bind_eq_some_iff.mp h
      obtain ⟨res, -, h⟩ := Option.bind_eq_some_iff.mp h
      cases h
      exact .inl ⟨rfl, _, rfl⟩
    | tick rto rcv net mem =>
      obtain ⟨res, -, h⟩ := Option.bind_eq_some_iff.mp h
      obtain _ | res := res
      · cases h
        exact .inl ⟨rfl, [], (List.append_nil _).symm⟩
      · cases h
        exact .inl ⟨rfl, _, rfl⟩

/-- Both ends in a run of the link: what the client did is a run of a receiver that gets segments
    of the stream written so far. -/
structure Link.Joined (ends : Endpoints) (hs : Handshake) (mss : Nat) (l : Link) : Prop where
  sender : Reach (senderMachine ends hs) SndOrderly l.sender
  client : Reach (receiverMachine hs.iss mss) (FromWire l.sender.wire l.sender.stream hs.iss) l.client

namespace Link.Joined

variable {ends : Endpoints} {hs : Handshake} {mss : Nat} {l l' : Link}

theorem sender_step {a : SndAct} {sender : Sender} (h : l.Joined ends hs mss) (hok : SndOrderly l.sender a)
    (hstep : l.sender.step ends a = some sender) : { l with sender }.Joined ends hs mss := by
  refine ⟨h.sender.step hok hstep, ?_⟩
  obtain ⟨hstream, out, hwire⟩ | ⟨data, hstream, hwire, hcan⟩ := Sender.step_stream hstep
  · dsimp only
    rw [hstream, hwire]
    exact h.client.mono fun _ _ hfrom => hfrom.append out
  · obtain ⟨all, una, ack, nxt, hsends⟩ := reach_orderly h.sender
    have hopen : l.sender.pcb.fin = false := by
      rw [← Bool.not_eq_true]
      intro hfin
      rw [hsends.outgoing.closed hfin] at hcan
      cases hcan
    have hnxt := hsends.outgoing.nxt_le
    rw [hopen, Bool.toNat_false, Nat.add_zero] at hnxt
    dsimp only
    rw [hstream, hwire]
    exact h.client.mono fun _ _ hfrom => hfrom.extend (fun d hd => (hsends.wire d hd).fin hnxt) data

theorem receive {a : RcvAct} (h : l.Joined ends hs mss)
    (hfrom : FromStream l.sender.stream hs.iss l.client a)
    (hwire : ∀ seg copied, a = .segment seg copied → ∃ d ∈ l.sender.wire, d.seg.received = seg)
    (hstep : l.receive a = some l') : l'.Joined ends hs mss := by
  obtain ⟨client, hclient, rfl⟩ := Option.map_eq_some_iff.mp hstep
  exact ⟨h.sender, h.client.step ⟨hfrom, hwire⟩ hclient⟩

theorem step {a : LinkAct} (h : l.Joined ends hs mss) (hok : LinkOk l a)
    (hstep : l.step ends a = some l') : l'.Joined ends hs mss := by
  cases a with
  | sender a =>
    obtain ⟨sender, hsender, rfl⟩ := Option.map_eq_some_iff.mp hstep
    exact h.sender_step hok hsender
  | arrive sent copied =>
    obtain ⟨d, hd, hstep⟩ := Option.bind_eq_some_iff.mp hstep
    have hmem := List.mem_of_getElem? hd
    obtain ⟨hbefore, hbehind⟩ := hok d hd
    -- the sender made it of the stream, near the end that it had then
    obtain ⟨all, una, ack, nxt, hsends⟩ := reach_orderly h.sender
    obtain ⟨p, hseg, hhigh, hlow, -⟩ := (hsends.wire d hmem).place
    apply h.receive (a := .segment d.seg.received copied) ⟨p, hseg, by omega, by omega⟩ ?_ hstep
    intro seg copied' ha
    cases ha
    exact ⟨d, hmem, rfl⟩
  | recved len => exact h.receive (a := .recved len) hok (by simp) hstep
  | closed => exact h.receive (a := .closed) trivial (by simp) hstep
  | freeOoseq => exact h.receive (a := .freeOoseq) trivial (by simp) hstep
  | announce => exact h.receive (a := .announce) trivial (by simp) hstep

end Link.Joined

/-- Over a network that loses, copies and reorders segments, the client gets a prefix of what was
    written to lwIP, and its FIN says that it got all of it. That the segments carry the stream is
    what the sender does; of the network, only the delay is assumed. -/
theorem link_delivers_written {ends : Endpoints} {hs : Handshake} {mss : Nat} {l : Link}
    (h : Reach (linkMachine ends hs mss) LinkOk l) :
    l.client.delivered <+: l.sender.stream ∧
      (l.client.gotFin = true → l.client.delivered = l.sender.stream) := by
  have hjoined : l.Joined ends hs mss := by
    apply h.invariant (P := fun l => l.Joined ends hs mss)
    · exact ⟨.init, .init⟩
    · exact fun _ _ _ _ hl hok hstep => hl.step hok hstep
  have hup := receiver_upstream (hjoined.client.mono fun _ _ hfrom => hfrom.1)
  exact ⟨hup.delivered, hup.whole⟩

/-- The second segment, with the FIN, arrives first, and the first one only when it is sent again. -/
def reorderedRun : List LinkAct :=
  senderRun.map .sender ++ [.arrive 1 true, .arrive 2 true, .arrive 3 true]

/-- The second segment arrives first, and once more at the end. -/
theorem link_delivers_written_reordered : ∃ l : Link, l.client.delivered = [1, 2, 3, 4] ∧
    l.client.gotFin = true ∧ l.client.delivered <+: l.sender.stream ∧
      (l.client.gotFin = true → l.client.delivered = l.sender.stream) := by
  obtain ⟨l, hreach, hdelivered, hfin⟩ := exists_reach_of_run (linkMachine peerEnds peerHandshake 1460)
    LinkOk reorderedRun (fun l => l.client.delivered = [1, 2, 3, 4] ∧ l.client.gotFin = true) (by decide)
  exact ⟨l, hdelivered, hfin, link_delivers_written hreach⟩

end tun2proxy.core
