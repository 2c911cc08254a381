import Tun2Proxy.Lwip.Stack

open tun2proxy.machine tun2proxy.machine.Machine tun2proxy.udppackage

namespace tun2proxy.core

/-- A new TCP connection. -/
def Act.accepts : Act → Bool
  | .accept _ => true
  | _ => false

/-- A new UDP connection that is registered. -/
def UdpAct.creates : UdpAct → Bool
  | .create _ registered => registered
  | _ => false

/-- `Close` has not begun to walk over `tcpConns`. -/
def CloseAt.beforeTcp : CloseAt → Bool
  | .fresh | .cancelled => true
  | _ => false

/-- `Close` has not begun to walk over `udpConns`. -/
def CloseAt.beforeUdp : CloseAt → Bool
  | .fresh | .cancelled | .tcpRange _ | .tcpAbort _ _ _ => true
  | _ => false

/-- What the TCP part relies on: fresh keys, and no `Abort` in the middle of an accept. -/
def TcpOrderly (s : Stack) (a : Act) : Prop := FreshKey s a ∧ AcceptUndisturbed s a

/-- What the UDP part relies on: no late `Connect`, and no Delete of another's entry. -/
def UdpOrderly (s : UdpStack) (a : UdpAct) : Prop := ConnectInTime s a ∧ OwnEntry s a

/-- No connection is made behind the back of `Close`, and none is disturbed in one of the
    ways that the parts do not withstand. -/
def CloseUndisturbed (s : LwipStack) : StackAct → Prop
  | .tcp a => TcpOrderly s.tcp a ∧ (a.accepts → s.close.beforeTcp)
  | .udp a => UdpOrderly s.udp a ∧ (a.creates → s.close.beforeUdp)
  | .rangeUdp => s.udp.storing = none
  | _ => True

instance (s : Stack) (a : Act) : Decidable (TcpOrderly s a) :=
  inferInstanceAs (Decidable (_ ∧ _))

instance (s : UdpStack) (a : UdpAct) : Decidable (UdpOrderly s a) :=
  inferInstanceAs (Decidable (_ ∧ _))

instance (s : LwipStack) : (a : StackAct) → Decidable (CloseUndisturbed s a)
  | .tcp a =>
    inferInstanceAs (Decidable (TcpOrderly s.tcp a ∧ (a.accepts = true → s.close.beforeTcp = true)))
  | .udp a =>
    inferInstanceAs (Decidable (UdpOrderly s.udp a ∧ (a.creates = true → s.close.beforeUdp = true)))
  | .rangeUdp => inferInstanceAs (Decidable (s.udp.storing = none))
  | .write _ | .input _ | .checkTimeouts | .timeoutsReturn | .leave | .cancel | .rangeTcp
  | .visitTcp _ _ | .aborted | .visitUdp _ _ | .closed | .rangeEnd | .detach =>
    inferInstanceAs (Decidable True)

/-! ### The parts -/

theorem CloseUndisturbed.tcp {s : LwipStack} {a : StackAct} (hok : CloseUndisturbed s a) :
    ∀ b ∈ s.tcpAct a, TcpOrderly s.tcp b := by
  intro b hb
  cases a with
  | input _ | checkTimeouts | leave =>
    cases hb
    exact ⟨trivial, trivial⟩
  | tcp b' =>
    cases hb
    exact hok.1
  | visitTcp key t =>
    obtain ⟨c, _, rfl⟩ := Option.map_eq_some_iff.mp hb
    exact ⟨trivial, trivial⟩
  | _ => cases hb

theorem CloseUndisturbed.udp {s : LwipStack} {a : StackAct} (hok : CloseUndisturbed s a) :
    ∀ b ∈ s.udpAct a, UdpOrderly s.udp b := by
  intro b hb
  cases a with
  | udp b' =>
    cases hb
    exact hok.1
  | visitUdp id t =>
    obtain ⟨c, _, rfl⟩ := Option.map_eq_some_iff.mp hb
    exact ⟨trivial, fun _ hdelete => by cases hdelete⟩
  | _ => cases hb

/-- While `Close` walks, nothing is accepted. -/
theorem CloseUndisturbed.accepts {s : LwipStack} {a : StackAct} {b : Act}
    (hok : CloseUndisturbed s a) (hb : b ∈ s.tcpAct a) (haccepts : b.accepts = true) :
    a = .tcp b ∧ s.close.beforeTcp = true := by
  cases a with
  | input _ | checkTimeouts | leave =>
    cases hb
    cases haccepts
  | tcp b' =>
    cases hb
    exact ⟨rfl, hok.2 haccepts⟩
  | visitTcp key t =>
    obtain ⟨c, _, rfl⟩ := Option.map_eq_some_iff.mp hb
    cases haccepts
  | _ => cases hb

/-- A run of the stack is a run of its TCP part and of its UDP part. -/
theorem reach_parts {s : LwipStack} (h : Reach stackMachine CloseUndisturbed s) :
    Reach tcpMachine TcpOrderly s.tcp ∧ Reach udpMachine UdpOrderly s.udp := by
  refine h.invariant (P := fun s => Reach tcpMachine TcpOrderly s.tcp ∧
    Reach udpMachine UdpOrderly s.udp) ⟨.init, .init⟩ ?_
  intro s a s' _ hinv hok hstep
  have hstack := LwipStack.step_stack hstep
  exact ⟨hinv.1.advance hok.tcp hstack.tcp, hinv.2.advance hok.udp hstack.udp⟩

/-! ### The walk over tcpConns -/

/-- What is left in `tcpConns` while `Close` comes to a place. -/
def TcpWalk (close : CloseAt) (tcpConns : UInt32 → Option ConnId) : Prop :=
  match close with
  | .fresh | .cancelled => True
  | .tcpRange r => r.Covers tcpConns none
  | .tcpAbort r _ c => r.Covers tcpConns (some c)
  | .udpRange _ | .udpClose _ _ _ | .detach | .returned => ∀ key, tcpConns key = none

/-- Every key in use is one of those that the walk begins with. -/
theorem LwipStack.mem_tcpKeys {s : LwipStack} (hreg : Registry s.tcp) {key : UInt32} {c : ConnId}
    (hkey : s.tcp.tcpConns key = some c) : key ∈ s.tcpKeys := by
  have hlookup : s.tcp.lookup c = some c := by
    rw [Stack.lookup, hreg.connKey hkey, hkey]
  refine List.mem_map.mpr ⟨c, List.mem_filter.mpr ⟨?_, decide_eq_true hlookup⟩, hreg.connKey hkey⟩
  exact List.mem_range.mpr (hreg.accepted hkey)

/-- Without an accept no entry is added. -/
theorem tcpConns_shrink {s s' : Stack} {act : Option Act}
    (hstep : tcpMachine.advance s act = some s') (hno : ∀ b ∈ act, b.accepts = false) :
    ∀ key c, s'.tcpConns key = some c → s.tcpConns key = some c := by
  intro key c hkey
  cases act with
  | none =>
    cases hstep
    exact hkey
  | some a =>
    cases (Stack.step_section hstep).life with
    | keep _ htcpConns _ _ _ | unknown _ _ _ _ htcpConns _ _ => exact htcpConns ▸ hkey
    | accept _ hact _ _ _ _ =>
      subst hact
      cases hno _ rfl
    | release c' _ _ _ _ _ htcpConns _ _ _ =>
      rw [htcpConns, Function.update_apply] at hkey
      split at hkey
      · cases hkey
      · exact hkey

namespace TcpWalk

/-- Before the walk begins, nothing is asked. -/
theorem of_before {close : CloseAt} {m : UInt32 → Option ConnId} (h : close.beforeTcp = true) :
    TcpWalk close m := by
  cases close with
  | fresh | cancelled => trivial
  | _ => cases h

/-- Entries may go during the walk. -/
theorem shrink {close : CloseAt} {m m' : UInt32 → Option ConnId} (h : TcpWalk close m)
    (hle : ∀ key c, m' key = some c → m key = some c) : TcpWalk close m' := by
  cases close with
  | fresh | cancelled => trivial
  | tcpRange r | tcpAbort r t c => exact Range.Covers.shrink h hle
  | udpRange _ | udpClose _ _ _ | detach | returned =>
    intro key
    cases hkey : m' key with
    | none => rfl
    | some c => cases (h key).symm.trans (hle key c hkey)

theorem move {s : LwipStack} {a : StackAct} {close : CloseAt} (h : TcpWalk s.close s.tcp.tcpConns)
    (hreach : Reach tcpMachine TcpOrderly s.tcp) (hmove : CloseMove s a s.close close) :
    TcpWalk close s.tcp.tcpConns := by
  have hreg := (reach_registry (hreach.mono fun _ _ _ => trivial)).1
  generalize s.close = here at h hmove
  cases hmove with
  | cancel => trivial
  | rangeTcp => exact .begin fun key c hkey => LwipStack.mem_tcpKeys hreg hkey
  | visitTcp hkey | skipTcp hkey => exact Range.Covers.visit h hkey
  | @aborted r t c hproc =>
    have hreleased := (reach_abortInv (hreach.mono fun _ _ hok => hok.2)).aborted t c hproc
    exact Range.Covers.finish h fun key hkey => hreg.notReleased hkey hreleased
  | rangeUdp hdone => exact Range.Covers.empty h hdone
  | visitUdp _ | skipUdp _ | closed _ | rangeEnd _ | detach _ => exact h

theorem step {s s' : LwipStack} {a : StackAct} (h : TcpWalk s.close s.tcp.tcpConns)
    (hreach : Reach tcpMachine TcpOrderly s.tcp) (hok : CloseUndisturbed s a)
    (hstack : StackStep s a s') : TcpWalk s'.close s'.tcp.tcpConns := by
  by_cases haccept : ∀ b ∈ s.tcpAct a, b.accepts = false
  · refine TcpWalk.shrink ?_ (tcpConns_shrink hstack.tcp haccept)
    obtain hmove | ⟨hsame, _⟩ := hstack.close
    · exact h.move hreach hmove
    · rw [hsame]
      exact h
  · push Not at haccept
    obtain ⟨b, hb, hbool⟩ := haccept
    obtain ⟨rfl, hbefore⟩ := hok.accepts hb (Bool.eq_true_of_not_eq_false hbool)
    obtain hmove | ⟨hsame, _⟩ := hstack.close
    · cases hmove
    · rw [hsame]
      exact of_before hbefore

end TcpWalk

/-! ### Open UDP connections -/

private theorem UdpConnStep.closed_cases {s s' : UdpStack} {a : UdpAct} {c : UdpNo} {conn : UdpConn}
    (hstep : UdpConnStep s a s' c conn) (hclosed : conn.closed) :
    (s.conns c).closed ∨ conn.state = .udpClosed := by
  cases hstep with
  | new _ _ => cases hclosed
  | queue _ hqueue _ =>
    obtain ⟨_, _, _, _, rfl⟩ := UdpConn.enqueueEarlyPacket_eq_some hqueue
    exact .inl hclosed
  | close _ => exact .inr rfl
  | _ => exact .inl hclosed

/-- Without a late `Connect`, a connection on which `Close` was called is closed. -/
theorem reach_closed_state {s : UdpStack} (h : Reach udpMachine ConnectInTime s) :
    ∀ c < s.created, (s.conns c).closed → (s.conns c).state = .udpClosed := by
  refine reach_each (P := fun s c => (s.conns c).closed → (s.conns c).state = .udpClosed) ?_ ?_ h
  · intro s s' a _ hsec hlt hclosed
    obtain ⟨t, id, data, addr, _, rfl⟩ := hsec.created hlt
    simp [newUDPConn] at hclosed
  · intro s s' a c _ hc hinv hok hstep hclosed
    obtain hold | hstate := ((UdpStack.step_section hstep).conns c).closed_cases hclosed
    · exact hok.closed hc (hinv hold) hstep
    · exact hstate

/-- The connection is in `udpConns`. -/
def UdpStack.Registered (s : UdpStack) (c : UdpNo) : Prop := ∃ id, s.udpConns id = some c

/-- A registered connection stays so until it is closed. -/
theorem UdpOrderly.registered {s s' : UdpStack} {a : UdpAct} {c : UdpNo} (hok : UdpOrderly s a)
    (hreach : Reach udpMachine UdpOrderly s) (hstep : udpMachine.step s a = some s')
    (h : s.Registered c) : (s'.conns c).state = .udpClosed ∨ s'.Registered c := by
  obtain ⟨id, hid⟩ := h
  obtain hid' | hclosed := hok.2.kept (hreach.mono fun _ _ hok => hok.2) hstep hid
  · exact .inr ⟨id, hid'⟩
  · have hc := (reach_udpBounds hreach).udpConns id c hid
    have hreach' := (hreach.step hok hstep).mono fun _ _ hok => hok.1
    exact .inl (reach_closed_state hreach' c
      (Nat.lt_of_lt_of_le hc (UdpStack.step_section hstep).created_le) hclosed)

/-- What `udpRecvFn` is about to store stays so until it is in `udpConns`. -/
theorem UdpStack.storing_step {s s' : UdpStack} {a : UdpAct} {c : UdpNo} (hlwip : LwipInv s)
    (hstep : udpMachine.step s a = some s') (h : s.storing = some c) :
    s'.Registered c ∨ s'.storing = some c := by
  have hsec := UdpStack.step_section hstep
  obtain ⟨t, data, addr, hproc⟩ := (UdpStack.storing_eq_some hlwip).mp h
  obtain hsame | hown := hsec.procs t
  · exact .inr ((UdpStack.storing_eq_some (hlwip.step hsec)).mpr ⟨t, data, addr, hsame.trans hproc⟩)
  rw [hproc] at hown
  generalize s'.procs t = p' at hown
  cases hown with
  | store hact =>
    subst hact
    simp only [udpMachine, UdpStack.step, UdpStack.procStep, hproc, Option.some.injEq] at hstep
    subst hstep
    exact .inl ⟨(s.conns c).connId, by simp⟩
  | move hmove => cases hmove
  | queue hstart | receive hstart _ => cases hstart
  | refuse hrefused _ => cases hrefused

/-- A connection that is not closed is in `udpConns`, or `udpRecvFn` is about to store it. -/
theorem reach_open {s : UdpStack} (h : Reach udpMachine UdpOrderly s) :
    ∀ c < s.created, (s.conns c).state = .udpClosed ∨ s.Registered c ∨ s.storing = some c := by
  refine reach_each (P := fun s c => (s.conns c).state = .udpClosed ∨ s.Registered c ∨
    s.storing = some c) ?_ ?_ h
  · intro s s' a hreach hsec hlt
    have hlwip := (reach_lwipInv hreach).step hsec
    obtain ⟨t, id, data, addr, _, rfl⟩ := hsec.created hlt
    exact .inr (.inr ((UdpStack.storing_eq_some hlwip).mpr ⟨t, data, addr, by simp⟩))
  · intro s s' a c hreach hc hinv hok hstep
    obtain hclosed | hregistered | hstoring := hinv
    · exact .inl (hok.1.closed hc hclosed hstep)
    · exact (hok.registered hreach hstep hregistered).imp_right .inl
    · exact .inr (UdpStack.storing_step (reach_lwipInv hreach) hstep hstoring)

/-! ### The walk over udpConns -/

/-- While `Close` walks over `udpConns`, nothing is about to be stored, and what is open
    is there. -/
structure UdpWalking (s : UdpStack) : Prop where
  storing : s.storing = none
  opened : ∀ c < s.created, (s.conns c).state = .udpClosed ∨ s.Registered c

/-- How far `Close` of `c` has come in goroutine `t`. -/
def UdpStack.Closing (s : UdpStack) (t : Tid) (c : UdpNo) : Prop :=
  s.procs t = .close c false ∨ s.procs t = .unregister c false ∨
    s.procs t = .idle ∧ ¬s.Registered c

/-- What is left in `udpConns` while `Close` comes to a place. -/
def UdpWalk (close : CloseAt) (s : UdpStack) : Prop :=
  match close with
  | .fresh | .cancelled | .tcpRange _ | .tcpAbort _ _ _ => True
  | .udpRange r => UdpWalking s ∧ r.Covers s.udpConns none
  | .udpClose r t c => UdpWalking s ∧ r.Covers s.udpConns (some c) ∧ s.Closing t c
  | .detach | .returned => UdpWalking s ∧ ∀ id, s.udpConns id = none

/-- Every key in use is one of those that the walk begins with. -/
theorem LwipStack.mem_udpKeys {s : LwipStack} (hbounds : UdpBounds s.udp) (hreg : UdpRegistry s.udp)
    {id : UdpConnId} {c : UdpNo} (hid : s.udp.udpConns id = some c) : id ∈ s.udpKeys := by
  have hkey : s.udp.udpConns (s.udp.conns c).connId = some c := by
    rw [hreg.key id c hid, hid]
  refine List.mem_map.mpr ⟨c, List.mem_filter.mpr ⟨?_, decide_eq_true hkey⟩, hreg.key id c hid⟩
  exact List.mem_range.mpr (hbounds.udpConns id c hid)

private theorem UdpSection.created_eq {s s' : UdpStack} {a : UdpAct} (hsec : UdpSection s a s')
    (hno : a.creates = false) : s'.created = s.created := by
  cases hsec with
  | create _ => cases hno
  | _ => rfl

namespace UdpWalking

variable {s s' : UdpStack} {a : UdpAct}

theorem step (hinv : UdpWalking s) (hreach : Reach udpMachine UdpOrderly s) (hok : UdpOrderly s a)
    (hno : a.creates = false) (hstep : udpMachine.step s a = some s') : UdpWalking s' := by
  have hsec := UdpStack.step_section hstep
  have hlwip := reach_lwipInv hreach
  have hcreated := hsec.created_eq hno
  constructor
  · rw [Option.eq_none_iff_forall_ne_some]
    intro c hc
    obtain ⟨t, data, addr, hproc⟩ := (UdpStack.storing_eq_some (hlwip.step hsec)).mp hc
    obtain hold | ⟨hnew, _⟩ := hsec.storing hproc
    · have hstoring := (UdpStack.storing_eq_some hlwip).mpr ⟨t, data, addr, hold⟩
      rw [hinv.storing] at hstoring
      cases hstoring
    · rw [hcreated] at hnew
      exact absurd hnew (Nat.ne_of_lt (Nat.lt_succ_self _))
  · intro c hc
    rw [hcreated] at hc
    obtain hclosed | hregistered := hinv.opened c hc
    · exact .inl (hok.1.closed hc hclosed hstep)
    · exact hok.registered hreach hstep hregistered

theorem shrink (hinv : UdpWalking s) (hlwip : LwipInv s) (hsec : UdpSection s a s') :
    ∀ id c, s'.udpConns id = some c → s.udpConns id = some c := by
  intro id c hid
  obtain hold | ⟨_, hstore⟩ := hsec.entry hid
  · exact hold
  · have hstoring := (UdpStack.storing_eq_some hlwip).mpr hstore
    rw [hinv.storing] at hstoring
    cases hstoring

end UdpWalking

/-- Another goroutine's step, or the next one of this `Close`. -/
theorem UdpStack.Closing.step {s s' : UdpStack} {a : UdpAct} {t : Tid} {c : UdpNo}
    (h : s.Closing t c) (hreach : Reach udpMachine UdpOrderly s)
    (hle : ∀ id c, s'.udpConns id = some c → s.udpConns id = some c)
    (hstarts : a.starts ≠ some t) (hstep : udpMachine.step s a = some s') : s'.Closing t c := by
  have hsec := UdpStack.step_section hstep
  obtain hclose | hunregister | ⟨hidle, hgone⟩ := h
  · obtain hsame | hown := hsec.procs t
    · exact .inl (hsame.trans hclose)
    rw [hclose] at hown
    generalize hnext : s'.procs t = p' at hown
    cases hown with
    | close _ => exact .inr (.inl hnext)
    | move hmove => cases hmove
    | queue hstart | receive hstart _ => cases hstart
    | refuse hrefused _ => cases hrefused
  · obtain hsame | ⟨rfl, hidle⟩ := hsec.unregister_procs hunregister
    · exact .inr (.inl hsame)
    refine .inr (.inr ⟨hidle, ?_⟩)
    rintro ⟨id, hid⟩
    have hdelete : s.deletes (.run t) = some c := by simp only [UdpStack.deletes, hunregister]
    have hkey := (reach_udpRegistry hreach).key id c (hle id c hid)
    rw [(UdpStack.deletes_spec hdelete hstep).1, hkey, Function.update_self] at hid
    cases hid
  · refine .inr (.inr ⟨hsec.idle hidle hstarts, ?_⟩)
    rintro ⟨id, hid⟩
    exact hgone ⟨id, hle id c hid⟩

namespace UdpWalk

theorem of_before {close : CloseAt} {s : UdpStack} (h : close.beforeUdp = true) :
    UdpWalk close s := by
  cases close with
  | fresh | cancelled | tcpRange _ | tcpAbort _ _ _ => trivial
  | _ => cases h

/-- A UDP section outside `Close` of the stack. -/
theorem act {close : CloseAt} {s s' : UdpStack} {a : UdpAct} (h : UdpWalk close s)
    (hreach : Reach udpMachine UdpOrderly s) (hok : UdpOrderly s a)
    (hcreates : a.creates = true → close.beforeUdp = true)
    (hslot : ∀ t ∈ a.starts, close.udpSlot ≠ some t) (hstep : udpMachine.step s a = some s') :
    UdpWalk close s' := by
  cases hbefore : close.beforeUdp with
  | true => exact of_before hbefore
  | false =>
    have hno : a.creates = false := by
      rw [Bool.eq_false_iff]
      intro htrue
      rw [hcreates htrue] at hbefore
      cases hbefore
    have hsec := UdpStack.step_section hstep
    have hlwip := reach_lwipInv hreach
    cases close with
    | fresh | cancelled | tcpRange _ | tcpAbort _ _ _ => cases hbefore
    | udpRange r =>
      obtain ⟨hwalking, hcovers⟩ := h
      exact ⟨hwalking.step hreach hok hno hstep, hcovers.shrink (hwalking.shrink hlwip hsec)⟩
    | udpClose r t c =>
      obtain ⟨hwalking, hcovers, hclosing⟩ := h
      have hle := hwalking.shrink hlwip hsec
      exact ⟨hwalking.step hreach hok hno hstep, hcovers.shrink hle,
        hclosing.step hreach hle (fun hstarts => hslot t hstarts rfl) hstep⟩
    | detach | returned =>
      obtain ⟨hwalking, hempty⟩ := h
      refine ⟨hwalking.step hreach hok hno hstep, fun id => ?_⟩
      cases hid : s'.udpConns id with
      | none => rfl
      | some c => cases (hempty id).symm.trans (hwalking.shrink hlwip hsec id c hid)

theorem move {s s' : LwipStack} {a : StackAct} (h : UdpWalk s.close s.udp)
    (hreach : Reach udpMachine UdpOrderly s.udp) (hok : CloseUndisturbed s a)
    (hmove : CloseMove s a s.close s'.close)
    (hudp : udpMachine.advance s.udp (s.udpAct a) = some s'.udp) : UdpWalk s'.close s'.udp := by
  have hsame (hnone : s.udpAct a = none) : s'.udp = s.udp := by
    rw [hnone] at hudp
    exact (Option.some.inj hudp).symm
  generalize s.close = here at h hmove
  generalize s'.close = next at hmove ⊢
  cases hmove with
  | cancel | rangeTcp | visitTcp _ | skipTcp _ | aborted _ => trivial
  | rangeUdp _ =>
    rw [hsame rfl]
    refine ⟨⟨hok, fun c hc => ?_⟩, .begin fun id c => LwipStack.mem_udpKeys (reach_udpBounds hreach)
      (reach_udpRegistry hreach)⟩
    obtain hclosed | hregistered | hstoring := reach_open hreach c hc
    · exact .inl hclosed
    · exact .inr hregistered
    · rw [show s.udp.storing = none from hok] at hstoring
      cases hstoring
  | @visitUdp r id t c hid =>
    obtain ⟨hwalking, hcovers⟩ := h
    have hact : s.udpAct (.visitUdp id t) = some (.call t (.close c)) := by
      simp only [LwipStack.udpAct, hid, Option.map_some]
    rw [hact] at hudp
    have hsec : UdpSection s.udp (.call t (.close c)) s'.udp := UdpStack.step_section hudp
    have hle := hwalking.shrink (reach_lwipInv hreach) hsec
    refine ⟨hwalking.step hreach (hok.udp _ hact) rfl hudp, (hcovers.visit hid).shrink hle, .inl ?_⟩
    obtain ⟨_, hnext⟩ := Option.ite_none_right_eq_some.mp hudp
    rw [← Option.some.inj hnext, UdpStack.setProc_procs, if_pos rfl]
  | skipUdp hid =>
    rw [hsame (by simp [LwipStack.udpAct, hid])]
    exact ⟨h.1, h.2.visit hid⟩
  | closed hproc =>
    rw [hsame rfl]
    obtain ⟨hwalking, hcovers, hclose | hunregister | ⟨_, hgone⟩⟩ := h
    · cases hproc.symm.trans hclose
    · cases hproc.symm.trans hunregister
    · exact ⟨hwalking, hcovers.finish fun id hid => hgone ⟨id, hid⟩⟩
  | rangeEnd hdone =>
    rw [hsame rfl]
    exact ⟨h.1, h.2.empty hdone⟩
  | detach _ =>
    rw [hsame rfl]
    exact h

theorem step {s s' : LwipStack} {a : StackAct} (h : UdpWalk s.close s.udp)
    (hreach : Reach udpMachine UdpOrderly s.udp) (hok : CloseUndisturbed s a)
    (hstack : StackStep s a s') : UdpWalk s'.close s'.udp := by
  obtain hmove | ⟨hsame, hacts⟩ := hstack.close
  · exact h.move hreach hok hmove hstack.udp
  have hudp := hstack.udp
  rw [hsame]
  cases hact : s.udpAct a with
  | none =>
    rw [hact] at hudp
    rw [← Option.some.inj hudp]
    exact h
  | some b =>
    rw [hact] at hudp
    obtain ⟨rfl, hslot, _⟩ := hacts b hact
    exact h.act hreach hok.1 hok.2 hslot hudp

end UdpWalk

/-! ### Close is complete -/

/-- Everything that `Close` is to bring about. -/
structure LwipStack.AllClosed (s : LwipStack) : Prop where
  tcp : ∀ c < s.tcp.accepted, (s.tcp.conns c).state.released
  tcpConns : ∀ key, s.tcp.tcpConns key = none
  udp : ∀ c < s.udp.created, (s.udp.conns c).state = .udpClosed

private theorem reach_walks {s : LwipStack} (h : Reach stackMachine CloseUndisturbed s) :
    TcpWalk s.close s.tcp.tcpConns ∧ UdpWalk s.close s.udp := by
  refine h.invariant (P := fun s => TcpWalk s.close s.tcp.tcpConns ∧ UdpWalk s.close s.udp) ?_ ?_
  · exact ⟨trivial, trivial⟩
  · intro s a s' hreach hinv hok hstep
    obtain ⟨htcp, hudp⟩ := reach_parts hreach
    have hstack := LwipStack.step_stack hstep
    exact ⟨hinv.1.step htcp hok hstack, hinv.2.step hudp hok hstack⟩

private theorem allClosed_of_returned {s : LwipStack} (h : Reach stackMachine CloseUndisturbed s)
    (hreturned : s.close = .returned) : s.AllClosed := by
  obtain ⟨htcp, hudp⟩ := reach_parts h
  obtain ⟨hempty, hwalk⟩ := reach_walks h
  rw [hreturned] at hempty hwalk
  refine ⟨fun c hc => ?_, hempty, fun c hc => ?_⟩
  · -- a connection that is not released is in `tcpConns`
    have hlookup := (reach_owned (htcp.mono fun _ _ hok => hok.1)).lookup_iff c hc
    by_contra hopen
    cases (hempty _).symm.trans (hlookup.mpr hopen)
  · obtain hclosed | ⟨id, hid⟩ := hwalk.1.opened c hc
    · exact hclosed
    · cases (hwalk.2 id).symm.trans hid

/-- `Close` stays returned. -/
theorem StackStep.returned {s s' : LwipStack} {a : StackAct} (hstack : StackStep s a s')
    (hreturned : s.close = .returned) : s'.close = .returned := by
  obtain hmove | ⟨hsame, _⟩ := hstack.close
  · rw [hreturned] at hmove
    cases hmove
  · rw [hsame, hreturned]

/-- Once `Close` has returned, everything is closed, and it is so after every later
    schedule. -/
theorem close_complete {s s' : LwipStack} {schedule : List StackAct}
    (hreach : Reach stackMachine CloseUndisturbed s) (hreturned : s.close = .returned)
    (hrun : stackMachine.run CloseUndisturbed s schedule = some s') :
    s.AllClosed ∧ s'.AllClosed := by
  have hreturned' : s'.close = .returned :=
    run_invariant (P := fun u => u.close = .returned)
      (fun _ _ _ hu _ hstep => (LwipStack.step_stack hstep).returned hu) hrun hreturned
  exact ⟨allClosed_of_returned hreach hreturned,
    allClosed_of_returned (hreach.run hrun) hreturned'⟩

/-- A TCP and a UDP connection, and `Close` on both. -/
theorem close_complete_both : ∃ s s', Reach stackMachine CloseUndisturbed s ∧
    0 < s.tcp.accepted ∧ 0 < s.udp.created ∧ s.close = .returned ∧
    stackMachine.run CloseUndisturbed s [.udp (.connector 0)] = some s' ∧ s.AllClosed ∧
    s'.AllClosed := by
  obtain ⟨s, hreach, htcp, hudp, hreturned, hrun⟩ :=
    exists_reach_of_run stackMachine CloseUndisturbed
      ([.write 0, .input 0, .tcp (.accept 7), .tcp (.acceptDone 1)] ++ dialing.map .udp ++
        [.leave, .udp (.connect 0 true), .udp (.connector 0), .cancel, .rangeTcp, .visitTcp 7 2,
          .tcp (.run 2), .tcp (.run 2), .tcp .task, .tcp .task, .tcp .task, .tcp .task, .aborted,
          .rangeUdp, .visitUdp dialer 1, .udp (.run 1), .udp (.run 1), .closed, .rangeEnd, .detach])
      (fun s => 0 < s.tcp.accepted ∧ 0 < s.udp.created ∧ s.close = .returned ∧
        (stackMachine.run CloseUndisturbed s [.udp (.connector 0)]).isSome) (by decide +kernel)
  obtain ⟨s', hs'⟩ := Option.isSome_iff_exists.mp hrun
  exact ⟨s, s', hreach, htcp, hudp, hreturned, hs', close_complete hreach hreturned hs'⟩

/-- Schedules in which only goroutine 0 calls `Write`. -/
def WriteByFirst (_ : LwipStack) (a : StackAct) : Prop := ∀ t, a = .write t → t = 0

instance (s : LwipStack) : (a : StackAct) → Decidable (WriteByFirst s a)
  | .write t => decidable_of_iff (t = 0) ⟨fun h t' ht' => by cases ht'; exact h, fun h => h t rfl⟩
  | .input _ | .checkTimeouts | .timeoutsReturn | .leave | .tcp _ | .udp _ | .cancel | .rangeTcp
  | .visitTcp _ _ | .aborted | .rangeUdp | .visitUdp _ _ | .closed | .rangeEnd | .detach =>
    .isTrue fun _ h => by cases h

/-- No `Write` is in flight. -/
def LwipStack.WritesDone (s : LwipStack) : Prop :=
  (∀ t, s.writes t = false) ∧ ∀ t, s.runner ≠ some (.write t)

/-- Only its own look at the context puts a `Write` in flight. -/
theorem LwipStack.control_writes {s next : LwipStack} {a : StackAct} {t : Tid}
    (h : s.control a = some next) (hother : a ≠ .write t) (hdone : s.writes t = false) :
    next.writes t = false := by
  cases a with
  | write t' =>
    obtain ⟨_, h⟩ := Option.ite_none_right_eq_some.mp h
    cases h
    have hne : t ≠ t' := fun heq => hother (congrArg StackAct.write heq.symm)
    exact (Function.update_of_ne hne _ _).trans hdone
  | input t' =>
    obtain ⟨_, h⟩ := Option.ite_none_right_eq_some.mp h
    cases h
    simp [Function.update_apply, hdone]
  | checkTimeouts | timeoutsReturn | leave | tcp b | udp b =>
    obtain ⟨_, h⟩ := Option.ite_none_right_eq_some.mp h
    cases h
    exact hdone
  | _ =>
    obtain ⟨close, _, rfl⟩ := Option.map_eq_some_iff.mp h
    exact hdone

private theorem writeByFirst_writes {s : LwipStack} (h : Reach stackMachine WriteByFirst s) :
    ∀ t, t ≠ 0 → s.writes t = false := by
  refine h.invariant (P := fun s => ∀ t, t ≠ 0 → s.writes t = false) (fun _ _ => rfl) ?_
  intro s a s' _ hinv hok hstep t ht
  obtain ⟨next, hcontrol, hnext⟩ := Option.bind_eq_some_iff.mp hstep
  obtain ⟨tcp, _, hnext⟩ := Option.bind_eq_some_iff.mp hnext
  obtain ⟨udp, _, rfl⟩ := Option.map_eq_some_iff.mp hnext
  have hwrites := LwipStack.control_writes hcontrol (fun hact => ht (hok t hact)) (hinv t ht)
  exact hwrites

private theorem writeByFirst_done {s : LwipStack} (h : Reach stackMachine WriteByFirst s)
    (hfirst : s.writes 0 = false) (hrunner : s.runner = none) : s.WritesDone := by
  refine ⟨fun t => ?_, fun t hwrite => ?_⟩
  · by_cases ht : t = 0
    · rw [ht, hfirst]
    · exact writeByFirst_writes h t ht
  · rw [hrunner] at hwrite
    cases hwrite

/-- A `Write` that was past its look at the context accepts a connection after the walk
    over `tcpConns`; and a UDP connection connects after it was closed. -/
theorem close_incomplete :
    (∃ s, Reach stackMachine any s ∧ s.close = .returned ∧ s.WritesDone ∧ 0 < s.tcp.accepted ∧
      ¬(s.tcp.conns 0).state.released ∧ s.tcp.tcpConns 7 = some 0) ∧
    ∃ s, Reach stackMachine any s ∧ s.close = .returned ∧ s.WritesDone ∧ 0 < s.udp.created ∧
      (s.udp.conns 0).state = .udpConnected := by
  constructor
  · obtain ⟨s, hreach, ⟨hfirst, hrunner⟩, hreturned, hopen⟩ :=
      exists_reach_of_run stackMachine WriteByFirst
        [.write 0, .cancel, .rangeTcp, .rangeUdp, .rangeEnd, .input 0, .tcp (.accept 7),
          .tcp (.acceptDone 1), .leave, .detach]
        (fun s => (s.writes 0 = false ∧ s.runner = none) ∧ s.close = .returned ∧
          0 < s.tcp.accepted ∧ ¬(s.tcp.conns 0).state.released ∧ s.tcp.tcpConns 7 = some 0)
        (by decide +kernel)
    exact ⟨s, hreach.mono fun _ _ _ => trivial, hreturned, writeByFirst_done hreach hfirst hrunner,
      hopen⟩
  · obtain ⟨s, hreach, ⟨hfirst, hrunner⟩, hreturned, hopen⟩ :=
      exists_reach_of_run stackMachine WriteByFirst
        ([.write 0, .input 0] ++ dialing.map .udp ++
          [.leave, .cancel, .rangeTcp, .rangeUdp, .visitUdp dialer 1, .udp (.run 1), .udp (.run 1),
            .closed, .rangeEnd, .detach, .udp (.connect 0 true), .udp (.connector 0)])
        (fun s => (s.writes 0 = false ∧ s.runner = none) ∧ s.close = .returned ∧
          0 < s.udp.created ∧ (s.udp.conns 0).state = .udpConnected)
        (by decide +kernel)
    exact ⟨s, hreach.mono fun _ _ _ => trivial, hreturned, writeByFirst_done hreach hfirst hrunner,
      hopen⟩

end tun2proxy.core
