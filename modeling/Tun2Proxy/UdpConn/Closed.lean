import Tun2Proxy.UdpConn.Calls

open tun2proxy.machine tun2proxy.machine.Machine tun2proxy.udppackage

namespace tun2proxy.core

/-- The goroutine of `newUDPConn` does not come to its change of the state after
    `Close` did. -/
def ConnectInTime (s : UdpStack) : UdpAct → Prop
  | .connector c => s.connectors c = .connected → (s.conns c).state ≠ .udpClosed
  | _ => True

instance (s : UdpStack) : (a : UdpAct) → Decidable (ConnectInTime s a)
  | .connector c =>
    inferInstanceAs (Decidable (s.connectors c = .connected → (s.conns c).state ≠ .udpClosed))
  | .recvFn _ _ _ _ | .create _ _ | .call _ _ | .handled _ _ | .sendto _ _ | .run _ | .action _
  | .visit _ _ | .connect _ _ | .drained _ _ => inferInstanceAs (Decidable True)

/-- A closed connection stays so, unless its `Connect` has succeeded and the goroutine
    comes to its change of the state. -/
theorem step_closed_iff {s s' : UdpStack} {a : UdpAct} {c : UdpNo} (hc : c < s.created)
    (hclosed : (s.conns c).state = .udpClosed) (hstep : udpMachine.step s a = some s') :
    (s'.conns c).state = .udpClosed ↔ ¬(a = .connector c ∧ s.connectors c = .connected) := by
  constructor
  · rintro hstate ⟨rfl, hat⟩
    simp only [udpMachine, UdpStack.step, hc, if_true, UdpStack.connectorStep, hat,
      Option.some.injEq] at hstep
    subst hstep
    simp at hstate
  · intro hok
    have hconn := (UdpStack.step_section hstep).conns c
    generalize s'.conns c = conn at hconn
    cases hconn with
    | new hnew _ => exact absurd hc (hnew ▸ Nat.lt_irrefl _)
    | queue _ hqueue _ =>
      have hconnecting : (s.conns c).state = .udpConnecting :=
        (UdpConn.enqueueEarlyPacket_eq_some hqueue).1
      rw [hclosed] at hconnecting
      cases hconnecting
    | connected hact hat => exact absurd ⟨hact, hat⟩ hok
    | close _ => rfl
    | _ => exact hclosed

theorem ConnectInTime.closed {s s' : UdpStack} {a : UdpAct} {c : UdpNo} (hok : ConnectInTime s a)
    (hc : c < s.created) (hclosed : (s.conns c).state = .udpClosed)
    (hstep : udpMachine.step s a = some s') : (s'.conns c).state = .udpClosed := by
  rw [step_closed_iff hc hclosed hstep]
  rintro ⟨rfl, hat⟩
  exact hok hat hclosed

/-- The goroutine is at `checkState`. -/
def UdpProc.checking : UdpProc → Bool
  | .check _ _ | .writeCheck _ _ _ _ => true
  | _ => false

/-- Connection `c` is closed, and the calls from number `first` on came after that. -/
structure SinceClosed (s : UdpStack) (c : UdpNo) (first : Nat) : Prop where
  closed : (s.conns c).state = .udpClosed
  pending : ∀ pkt ∈ (s.conns c).pending.getD [], pkt.call < first
  invoked : ∀ pkt ∈ (s.conns c).invoked, pkt.call < first
  sent : ∀ n ∈ (s.conns c).sent, n < first
  returned : ∀ r ∈ (s.conns c).returned, first ≤ r.call → r.err = some .closed
  procs : ∀ t n, (s.procs t).callOn c = some n → first ≤ n → (s.procs t).checking

namespace SinceClosed

variable {s s' : UdpStack} {a : UdpAct} {c : UdpNo} {first : Nat}

theorem checkState (hinv : SinceClosed s c first) :
    (s.conns c).state.checkState = some .closed := by
  rw [hinv.closed]
  rfl

/-- A call that is past `checkState` is an older one. -/
theorem old (hinv : SinceClosed s c first) {t : Tid} {n : Nat}
    (hcall : (s.procs t).callOn c = some n) (hpast : (s.procs t).checking = false) : n < first := by
  by_contra hle
  have hchecking := hinv.procs t n hcall (Nat.le_of_not_lt hle)
  rw [hpast] at hchecking
  cases hchecking

/-- A call that came after it is refused with the error of a closed connection. -/
theorem refused (hinv : SinceClosed s c first) {t : Tid} {r : UdpReturn}
    (hrefused : Refused s t c a (s.procs t) r) (hle : first ≤ r.call) : r.err = some .closed := by
  generalize hproc : s.procs t = p at hrefused
  cases hrefused with
  | check hcheck | writeCheck hcheck => rw [← hinv.checkState, hcheck]
  | sendto =>
    have hlt := hinv.old (t := t) (by simp [hproc, UdpProc.callOn]; rfl)
      (by simp [hproc, UdpProc.checking])
    exact absurd hle (Nat.not_le_of_lt hlt)

theorem procs_step (hinv : SinceClosed s c first) (hsec : UdpSection s a s') {t : Tid} {n : Nat}
    (hcall : (s'.procs t).callOn c = some n) (hn : first ≤ n) : (s'.procs t).checking := by
  obtain hsame | hown := hsec.procs t
  · rw [hsame] at hcall ⊢
    exact hinv.procs t n hcall hn
  generalize s.procs t = p at hown
  generalize s'.procs t = p' at hown hcall ⊢
  cases hown with
  | receive _ _ | writeFrom _ _ _ => rfl
  | move hmove =>
    cases hmove with
    | writeCheck hcheck =>
      simp only [UdpProc.callOn, Option.ite_none_right_eq_some] at hcall
      obtain ⟨rfl, _⟩ := hcall
      rw [hinv.checkState] at hcheck
      cases hcheck
    | _ => cases hcall
  | invoke hcheck _ =>
    simp only [UdpProc.callOn, Option.ite_none_right_eq_some] at hcall
    obtain ⟨rfl, _⟩ := hcall
    rw [hinv.checkState] at hcheck
    cases hcheck
  | _ => cases hcall

theorem step (hinv : SinceClosed s c first) (hok : ConnectInTime s a) (hc : c < s.created)
    (hstep : udpMachine.step s a = some s') : SinceClosed s' c first := by
  have hclosed := hok.closed hc hinv.closed hstep
  have hsec := UdpStack.step_section hstep
  have hprocs := fun t n => hinv.procs_step hsec (t := t) (n := n)
  have hconn := hsec.conns c
  generalize hnext : s'.conns c = conn at hconn
  have hkept (hpending : ∀ pkt ∈ conn.pending.getD [], pkt.call < first)
      (hinvoked : ∀ pkt ∈ conn.invoked, pkt.call < first) (hsent : ∀ n ∈ conn.sent, n < first)
      (hreturned : ∀ r ∈ conn.returned, first ≤ r.call → r.err = some .closed) :
      SinceClosed s' c first := by
    subst hnext
    exact ⟨hclosed, hpending, hinvoked, hsent, hreturned, hprocs⟩
  cases hconn with
  | new hnew _ => exact absurd hc (hnew ▸ Nat.lt_irrefl _)
  | queue _ hqueue _ =>
    have hconnecting : (s.conns c).state = .udpConnecting :=
      (UdpConn.enqueueEarlyPacket_eq_some hqueue).1
    rw [hinv.closed] at hconnecting
    cases hconnecting
  | refuse hrefused _ =>
    refine hkept hinv.pending hinv.invoked hinv.sent fun r hr hle => ?_
    obtain rfl | hold := List.mem_cons.mp hr
    · exact hinv.refused hrefused hle
    · exact hinv.returned r hold hle
  | invoke _ hcheck _ =>
    rw [hinv.checkState] at hcheck
    cases hcheck
  | @handled t pkt _ hproc _ =>
    have hlt : pkt.call < first :=
      hinv.old (t := t) (by simp [hproc, UdpProc.callOn]) (by simp [hproc, UdpProc.checking])
    refine hkept hinv.pending hinv.invoked hinv.sent fun r hr hle => ?_
    obtain rfl | hold := List.mem_cons.mp hr
    · exact absurd hle (Nat.not_le_of_lt hlt)
    · exact hinv.returned r hold hle
  | @sendto t call _ _ hproc _ =>
    have hlt : call < first :=
      hinv.old (t := t) (by simp [hproc, UdpProc.callOn]) (by simp [hproc, UdpProc.checking])
    refine hkept hinv.pending hinv.invoked (fun n hn => ?_) fun r hr hle => ?_
    · obtain rfl | hold := List.mem_cons.mp hn
      · exact hlt
      · exact hinv.sent n hold
    · obtain rfl | hold := List.mem_cons.mp hr
      · exact absurd hle (Nat.not_le_of_lt hlt)
      · exact hinv.returned r hold hle
  | @drain pkt rest _ _ hpending =>
    have hold : ∀ pkt' ∈ pkt :: rest, pkt'.call < first := by
      have hall := hinv.pending
      rwa [hpending] at hall
    refine hkept (fun pkt' hmem => hold pkt' (List.mem_cons_of_mem _ hmem)) (fun pkt' hmem => ?_)
      hinv.sent hinv.returned
    obtain hinvoked | hhead := List.mem_append.mp hmem
    · exact hinv.invoked pkt' hinvoked
    · obtain rfl := List.mem_singleton.mp hhead
      exact hold pkt' List.mem_cons_self
  | drainEnd _ => exact hkept (by simp) hinv.invoked hinv.sent hinv.returned
  | _ => exact hkept hinv.pending hinv.invoked hinv.sent hinv.returned

/-- When the connection is closed, later calls have left no trace. -/
theorem of_closed (hcalls : CallInv s c) (hclosed : (s.conns c).state = .udpClosed) :
    SinceClosed s c (s.conns c).calls where
  closed := hclosed
  pending _ hmem := hcalls.mentions _ (.inl (List.mem_map_of_mem hmem))
  invoked _ hmem := hcalls.mentions _ (.inr (.inl (List.mem_map_of_mem hmem)))
  sent n hmem := hcalls.mentions n (.inr (.inr (.inl hmem)))
  returned _ hmem hle :=
    absurd hle (Nat.not_le_of_lt (hcalls.mentions _ (.inr (.inr (.inr (List.mem_map_of_mem hmem))))))
  procs t n hcall hle := absurd hle (Nat.not_le_of_lt (hcalls.procs t n hcall))

/-- The next section of a later call returns the error of a closed connection. -/
theorem returns (hinv : SinceClosed s c first) {t : Tid} {n : Nat}
    (hcall : (s.procs t).callOn c = some n) (hn : first ≤ n) :
    ∃ s', udpMachine.step s (.run t) = some s' ∧ ⟨n, some .closed⟩ ∈ (s'.conns c).returned := by
  have hchecking := hinv.procs t n hcall hn
  have hcheck := hinv.checkState
  generalize hproc : s.procs t = p at hcall hchecking
  cases p with
  | check c' pkt | writeCheck c' call data addr =>
    simp only [UdpProc.callOn, Option.ite_none_right_eq_some, Option.some.injEq] at hcall
    obtain ⟨rfl, rfl⟩ := hcall
    simp [udpMachine, UdpStack.step, UdpStack.procStep, hproc, hcheck, UdpConn.ret]
  | _ => cases hchecking

end SinceClosed

/-- Call `n` on `c` comes neither to the handler nor to `udp_sendto`. It has returned the
    error of a closed connection, or this is what its next section does. -/
structure Rejected (s : UdpStack) (c : UdpNo) (n : Nat) : Prop where
  notInvoked : n ∉ (s.conns c).invoked.map UdpPacket.call
  notSent : n ∉ (s.conns c).sent
  err : ∀ e, ⟨n, e⟩ ∈ (s.conns c).returned → e = some .closed
  returns : ⟨n, some .closed⟩ ∈ (s.conns c).returned ∨
    ∃ t s', (s.procs t).callOn c = some n ∧ udpMachine.step s (.run t) = some s' ∧
      ⟨n, some .closed⟩ ∈ (s'.conns c).returned

private theorem SinceClosed.rejected {s : UdpStack} {c : UdpNo} {first n : Nat}
    (hinv : SinceClosed s c first) (hcalls : CallInv s c) (hfirst : first ≤ n)
    (hn : n < (s.conns c).calls) : Rejected s c n where
  notInvoked hmem := by
    obtain ⟨pkt, hpkt, rfl⟩ := List.mem_map.mp hmem
    exact Nat.not_lt_of_le hfirst (hinv.invoked pkt hpkt)
  notSent hmem := Nat.not_lt_of_le hfirst (hinv.sent n hmem)
  err e hmem := hinv.returned _ hmem hfirst
  returns := by
    obtain ⟨t, hcall⟩ | ⟨e, hret⟩ := hcalls.accounted n hn
    · obtain ⟨s', hstep, hret⟩ := hinv.returns hcall hfirst
      exact .inr ⟨t, s', hcall, hstep, hret⟩
    · obtain rfl := hinv.returned _ hret hfirst
      exact .inl hret

/-- A closed connection stays closed, and the calls that start on it from then on are
    rejected. -/
theorem closed_stays_closed {s s' : UdpStack} {c : UdpNo} {schedule : List UdpAct}
    (hreach : Reach udpMachine ConnectInTime s) (hc : c < s.created)
    (hclosed : (s.conns c).state = .udpClosed)
    (hrun : udpMachine.run ConnectInTime s schedule = some s') :
    (s'.conns c).state = .udpClosed ∧
      ∀ n, (s.conns c).calls ≤ n → n < (s'.conns c).calls → Rejected s' c n := by
  have hkept : c < s'.created ∧ SinceClosed s' c (s.conns c).calls := by
    refine run_invariant (P := fun u => c < u.created ∧ SinceClosed u c (s.conns c).calls)
      (fun u a u' hu hok hstep => ⟨?_, hu.2.step hok hu.1 hstep⟩) hrun
      ⟨hc, .of_closed (reach_callInv hreach c hc) hclosed⟩
    exact Nat.lt_of_lt_of_le hu.1 (UdpStack.step_section hstep).created_le
  have hcalls := reach_callInv (hreach.run hrun) c hkept.1
  exact ⟨hkept.2.closed, fun n hfirst hn => hkept.2.rejected hcalls hfirst hn⟩

/-- A datagram arrives; the handler is still connecting when it has been queued. -/
def dialing : List UdpAct :=
  [.recvFn 0 (some ⟨"10.0.0.2:5000"⟩) (some [1]) ⟨[8, 8, 8, 8], 53, ""⟩, .run 0, .create 0 true,
    .run 0, .run 0, .run 0]

/-- `Close` of the first connection and a `WriteFrom` on it. -/
def closing : List UdpAct := [.call 1 (.close 0), .run 1, .run 1]

def writing : List UdpAct := [.call 1 (.writeFrom 0 [2] ⟨[8, 8, 8, 8], 53, ""⟩), .run 1]

theorem closed_stays_closed_write : ∃ s s', Reach udpMachine ConnectInTime s ∧
    (s.conns 0).state = .udpClosed ∧ udpMachine.run ConnectInTime s writing = some s' ∧
    (s'.conns 0).state = .udpClosed ∧ Rejected s' 0 1 := by
  obtain ⟨s, hreach, hc, hclosed, hcalls, hrun⟩ := exists_reach_of_run udpMachine ConnectInTime
    (dialing ++ [.connect 0 true, .connector 0] ++ closing)
    (fun s => 0 < s.created ∧ (s.conns 0).state = .udpClosed ∧ (s.conns 0).calls = 1 ∧
      (udpMachine.run ConnectInTime s writing).any (fun s' => decide ((s'.conns 0).calls = 2)))
    (by decide)
  obtain ⟨s', hs', hcalls'⟩ := (Option.any_eq_true _ _).mp hrun
  obtain ⟨hclosed', hrejected⟩ := closed_stays_closed hreach hc hclosed hs'
  have hn : 1 < (s'.conns 0).calls := by
    rw [of_decide_eq_true hcalls']
    decide
  exact ⟨s, s', hreach, hclosed, hs', hclosed', hrejected 1 (Nat.le_of_eq hcalls) hn⟩

/-- `Connect` succeeds after `Close`: the connection is connected, and a later
    `WriteFrom` comes to `udp_sendto`. -/
theorem closed_reconnects : ∃ s s', Reach udpMachine any s ∧ 0 < s.created ∧
    (s.conns 0).state = .udpClosed ∧ (s.conns 0).calls = 1 ∧
    udpMachine.run any s ([.connect 0 true, .connector 0] ++ writing ++ [.sendto 1 true]) = some s' ∧
    (s'.conns 0).state = .udpConnected ∧ ⟨1, none⟩ ∈ (s'.conns 0).returned ∧
    1 ∈ (s'.conns 0).sent := by
  obtain ⟨s, hreach, hc, hclosed, hcalls, hrun⟩ := exists_reach_of_run udpMachine any
    (dialing ++ closing)
    (fun s => 0 < s.created ∧ (s.conns 0).state = .udpClosed ∧ (s.conns 0).calls = 1 ∧
      (udpMachine.run any s ([.connect 0 true, .connector 0] ++ writing ++ [.sendto 1 true])).any
        fun s' => decide ((s'.conns 0).state = .udpConnected ∧ ⟨1, none⟩ ∈ (s'.conns 0).returned ∧
          1 ∈ (s'.conns 0).sent))
    (by decide)
  obtain ⟨s', hs', hafter⟩ := (Option.any_eq_true _ _).mp hrun
  exact ⟨s, s', hreach, hc, hclosed, hcalls, hs', of_decide_eq_true hafter⟩

end tun2proxy.core
