import Mathlib.Data.List.Nodup
import Mathlib.Data.List.Perm.Subperm
import Tun2Proxy.UdpConn.Closed

open tun2proxy.machine tun2proxy.machine.Machine tun2proxy.udppackage

namespace tun2proxy.core

/-- The packet that `enqueueEarlyPacket` makes. -/
def UdpPacket.early (pkt : UdpPacket) : UdpPacket := { pkt with data := pkt.data.copy }

/-! ### The queue -/

/-- What waits in `pending`. -/
def UdpConn.waiting (conn : UdpConn) : List UdpPacket := conn.pending.getD []

/-- Packets are queued in arrival order and leave the queue in that order to the
    handler. While the state is `udpConnecting` the drain loop has not begun, and when
    it has found the channel empty, it stays so. -/
structure QueueInv (s : UdpStack) (c : UdpNo) : Prop where
  arrival : (s.conns c).queued.Sublist ((s.conns c).arrived.map UdpPacket.early)
  order : ∃ taken, (s.conns c).queued = taken ++ (s.conns c).waiting ∧
    taken.Sublist (s.conns c).invoked
  connecting : (s.conns c).state = .udpConnecting →
    s.connectors c = .connecting ∨ s.connectors c = .close ∨ s.connectors c = .connected
  drained : s.connectors c = .clear ∨ s.connectors c = .drained → (s.conns c).waiting = []
  stopped : s.connectors c = .stopped → (s.conns c).handlerErr

namespace QueueInv

variable {s s' : UdpStack} {a : UdpAct} {c : UdpNo}

theorem new (hsec : UdpSection s a s') (hlt : s.created < s'.created) :
    QueueInv s' s.created := by
  obtain ⟨t, id, data, addr, _, rfl⟩ := hsec.created hlt
  constructor <;> simp [newUDPConn, UdpConn.waiting]

/-- What is queued has arrived in this order. -/
theorem arrival_step (hinv : QueueInv s c) {conn : UdpConn} (hstep : UdpConnStep s a s' c conn) :
    conn.queued.Sublist (conn.arrived.map UdpPacket.early) := by
  cases hstep with
  | new _ _ => exact List.nil_sublist _
  | queue _ hqueue _ =>
    obtain ⟨_, _, _, _, rfl⟩ := UdpConn.enqueueEarlyPacket_eq_some hqueue
    simp only [UdpConn.ret, UdpConn.arrive, List.map_append, List.map_cons, List.map_nil]
    exact hinv.arrival.append (List.Sublist.refl _)
  | receive _ _ _ =>
    simp only [UdpConn.arrive, List.map_append]
    exact hinv.arrival.trans (List.sublist_append_left _ _)
  | _ => exact hinv.arrival

private theorem order_step (hinv : QueueInv s c) {conn : UdpConn} (hstep : UdpConnStep s a s' c conn) :
    ∃ taken, conn.queued = taken ++ conn.waiting ∧ taken.Sublist conn.invoked := by
  obtain ⟨taken, hqueued, htaken⟩ := hinv.order
  unfold UdpConn.waiting at hqueued ⊢
  cases hstep with
  | new _ _ => exact ⟨[], rfl, List.Sublist.refl _⟩
  | queue _ hqueue _ =>
    obtain ⟨_, packets, hpending, _, rfl⟩ := UdpConn.enqueueEarlyPacket_eq_some hqueue
    replace hpending : (s.conns c).pending = some packets := hpending
    refine ⟨taken, ?_, htaken⟩
    simp only [UdpConn.ret, UdpConn.arrive, hqueued, hpending, Option.getD_some, List.append_assoc]
  | invoke _ _ _ => exact ⟨taken, hqueued, htaken.trans (List.sublist_append_left _ _)⟩
  | @drain pkt rest _ _ hpending =>
    refine ⟨taken ++ [pkt], ?_, htaken.append (List.Sublist.refl _)⟩
    simp only [UdpConn.invoke, hqueued, hpending, Option.getD_some, List.append_assoc,
      List.singleton_append]
  | drainEnd hat =>
    have hnil : (s.conns c).pending.getD [] = [] := hinv.drained (.inl hat)
    rw [hnil] at hqueued
    exact ⟨taken, hqueued, htaken⟩
  | _ => exact ⟨taken, hqueued, htaken⟩

private theorem connecting_step (hinv : QueueInv s c) (hc : c < s.created) (hsec : UdpSection s a s')
    (hstate : (s'.conns c).state = .udpConnecting) :
    s'.connectors c = .connecting ∨ s'.connectors c = .close ∨ s'.connectors c = .connected := by
  have hold : (s.conns c).state = .udpConnecting := by
    have hconn := hsec.conns c
    generalize s'.conns c = conn at hconn hstate
    cases hconn with
    | new hnew _ => exact absurd hc (hnew ▸ Nat.lt_irrefl _)
    | queue _ hqueue _ => exact (UdpConn.enqueueEarlyPacket_eq_some hqueue).1
    | close _ | connected _ _ => cases hstate
    | _ => exact hstate
  have hat := hinv.connecting hold
  have hmove := hsec.connectors c
  generalize s.connectors c = g at hat hmove
  generalize s'.connectors c = g' at hmove ⊢
  cases hmove with
  | same => exact hat
  | new _ _ => exact .inl rfl
  | succeed => exact .inr (.inr rfl)
  | fail => exact .inr (.inl rfl)
  | close hafter | connected hafter =>
    rw [hafter] at hstate
    cases hstate
  | _ => simp at hat

/-- Nothing is queued once the drain loop has found the channel empty. -/
theorem drained_step (hinv : QueueInv s c) (hc : c < s.created) (hsec : UdpSection s a s')
    (hat : s'.connectors c = .clear ∨ s'.connectors c = .drained) :
    (s'.conns c).waiting = [] := by
  have hmove := hsec.connectors c
  have hold := hinv.drained
  have hconnecting := hinv.connecting
  have hconn := hsec.conns c
  generalize s.connectors c = g at hold hmove hconnecting
  generalize s'.connectors c = g' at hmove hat
  cases hmove with
  | same =>
    have hnil := hold hat
    generalize s'.conns c = conn at hconn
    cases hconn with
    | new hnew _ => exact absurd hc (hnew ▸ Nat.lt_irrefl _)
    | queue _ hqueue _ =>
      have hstate := hconnecting (UdpConn.enqueueEarlyPacket_eq_some hqueue).1
      obtain rfl | rfl := hat <;> simp at hstate
    | drain _ _ hpending => simp [UdpConn.waiting, hpending] at hnil
    | drainEnd _ => rfl
    | _ => exact hnil
  | empty hpending hafter =>
    rw [hafter, UdpConn.waiting]
    obtain hnil | hnil := hpending <;> rw [hnil] <;> rfl
  | drainEnd hafter =>
    rw [hafter]
    rfl
  | _ => simp at hat

private theorem stopped_step (hinv : QueueInv s c) (hc : c < s.created) (hsec : UdpSection s a s')
    (hat : s'.connectors c = .stopped) : (s'.conns c).handlerErr := by
  have hmove := hsec.connectors c
  have hold := hinv.stopped
  rw [hat] at hmove
  generalize s.connectors c = g at hold hmove
  cases hmove with
  | same =>
    have herr := hold rfl
    have hconn := hsec.conns c
    generalize s'.conns c = conn at hconn
    cases hconn with
    | new hnew _ => exact absurd hc (hnew ▸ Nat.lt_irrefl _)
    | queue _ hqueue _ =>
      obtain ⟨_, _, _, _, rfl⟩ := UdpConn.enqueueEarlyPacket_eq_some hqueue
      exact herr
    | handled _ _ | drained =>
      simp only [UdpConn.ret, UdpConn.handled, herr, Bool.true_or]
    | _ => exact herr
  | stop _ hafter =>
    rw [hafter]
    simp [UdpConn.handled]

theorem step (hinv : QueueInv s c) (hc : c < s.created) (hsec : UdpSection s a s') :
    QueueInv s' c where
  arrival := hinv.arrival_step (hsec.conns c)
  order := hinv.order_step (hsec.conns c)
  connecting := hinv.connecting_step hc hsec
  drained := hinv.drained_step hc hsec
  stopped := hinv.stopped_step hc hsec

end QueueInv

/-- In every run the queued packets are the arrived ones in order, and the drain loop takes them
    from the front. -/
theorem reach_queueInv {ok : UdpStack → UdpAct → Prop} {s : UdpStack} (h : Reach udpMachine ok s) :
    ∀ c < s.created, QueueInv s c :=
  reach_each (fun _ hsec hlt => .new hsec hlt)
    (fun _ hc hinv _ hstep => hinv.step hc (UdpStack.step_section hstep)) h

/-! ### Calls of the handler -/

/-- The calls whose packet went to the handler or waits for it. -/
def UdpConn.taken (conn : UdpConn) : List Nat := (conn.invoked ++ conn.waiting).map UdpPacket.call

/-- The number of the `WriteFrom` call on `c` that the goroutine is in. -/
def UdpProc.writing (c : UdpNo) : UdpProc → Option Nat
  | .writeCheck c' call _ _ | .send c' call _ _ => if c' = c then some call else none
  | _ => none

/-- A goroutine that calls the handler has a call of `ReceiveTo` under way. -/
theorem UdpProc.callOn_of_writing {p : UdpProc} {c : UdpNo} {n : Nat} (h : p.writing c = some n) :
    p.callOn c = some n := by
  cases p <;> simp_all [UdpProc.writing, UdpProc.callOn]

namespace UdpConnStep

variable {s s' : UdpStack} {a : UdpAct} {c : UdpNo} {conn : UdpConn}

/-- A step brings at most one packet, under the next number. -/
theorem arrived (hstep : UdpConnStep s a s' c conn) (hc : c < s.created) :
    conn.arrived = (s.conns c).arrived ∨ ∃ data addr,
      conn.arrived = (s.conns c).arrived ++ [⟨(s.conns c).calls, data, addr⟩] ∧
      conn.calls = (s.conns c).calls + 1 := by
  cases hstep with
  | new hnew _ => exact absurd hc (hnew ▸ Nat.lt_irrefl _)
  | queue _ hqueue _ =>
    obtain ⟨_, _, _, _, rfl⟩ := UdpConn.enqueueEarlyPacket_eq_some hqueue
    exact .inr ⟨_, _, rfl, rfl⟩
  | receive _ _ _ => exact .inr ⟨_, _, rfl, rfl⟩
  | _ => exact .inl rfl

private theorem calls_le (hstep : UdpConnStep s a s' c conn) (hc : c < s.created) :
    (s.conns c).calls ≤ conn.calls := by
  obtain heq | ⟨heq, _⟩ := hstep.calls hc <;> omega

/-- The record of calls of the handler only grows. -/
theorem invoked (hstep : UdpConnStep s a s' c conn) (hc : c < s.created) {pkt : UdpPacket}
    (hpkt : pkt ∈ (s.conns c).invoked) : pkt ∈ conn.invoked := by
  cases hstep with
  | new hnew _ => exact absurd hc (hnew ▸ Nat.lt_irrefl _)
  | queue _ hqueue _ =>
    obtain ⟨_, _, _, _, rfl⟩ := UdpConn.enqueueEarlyPacket_eq_some hqueue
    exact hpkt
  | invoke _ _ _ | drain _ _ _ => exact List.mem_append_left _ hpkt
  | _ => exact hpkt

/-- A packet is taken when it is queued and when a call goes on to the handler. -/
theorem taken (hstep : UdpConnStep s a s' c conn) (hc : c < s.created) :
    conn.taken.Subperm (s.conns c).taken ∨
      conn.taken.Perm ((s.conns c).calls :: (s.conns c).taken) ∧ conn.calls = (s.conns c).calls + 1 ∨
      ∃ t pkt, s.procs t = .check c pkt ∧ s'.procs t = .handle c pkt ∧
        conn.taken.Perm (pkt.call :: (s.conns c).taken) := by
  unfold UdpConn.taken UdpConn.waiting
  cases hstep with
  | new hnew _ => exact absurd hc (hnew ▸ Nat.lt_irrefl _)
  | queue _ hqueue _ =>
    obtain ⟨_, packets, hpending, _, rfl⟩ := UdpConn.enqueueEarlyPacket_eq_some hqueue
    replace hpending : (s.conns c).pending = some packets := hpending
    refine .inr (.inl ⟨?_, rfl⟩)
    simp only [UdpConn.ret, UdpConn.arrive, hpending, Option.getD_some, List.map_append,
      List.map_cons, List.map_nil, ← List.append_assoc]
    exact List.perm_append_singleton _ _
  | @invoke t pkt hproc _ hafter =>
    refine .inr (.inr ⟨t, pkt, hproc, hafter, ?_⟩)
    simp only [UdpConn.invoke, List.map_append, List.map_cons, List.append_assoc,
      List.singleton_append]
    exact List.perm_middle
  | @drain pkt rest _ _ hpending =>
    left
    simp only [UdpConn.invoke, hpending, Option.getD_some, List.append_assoc, List.singleton_append]
    exact List.Subperm.refl _
  | drainEnd _ =>
    left
    simp only [Option.getD_none, List.append_nil, List.map_append]
    exact (List.sublist_append_left _ _).subperm
  | _ => exact .inl (List.Subperm.refl _)

end UdpConnStep

/-- Each call of `ReceiveTo` and `WriteFrom` has its own number and one goroutine. The
    packet of a `ReceiveTo` call that has not passed `checkState` is not taken, and the
    packet of every call that returned nil is queued or went to the handler. -/
structure PacketInv (s : UdpStack) (c : UdpNo) : Prop where
  arrived : ∀ pkt ∈ (s.conns c).arrived, pkt.call < (s.conns c).calls
  distinct : ∀ pkt ∈ (s.conns c).arrived, ∀ pkt' ∈ (s.conns c).arrived, pkt.call = pkt'.call →
    pkt = pkt'
  unique : ∀ t t' n, (s.procs t).callOn c = some n → (s.procs t').callOn c = some n → t = t'
  nodup : (s.conns c).taken.Nodup
  check : ∀ t pkt, s.procs t = .check c pkt →
    pkt ∈ (s.conns c).arrived ∧ pkt.call ∉ (s.conns c).taken
  handle : ∀ t pkt, s.procs t = .handle c pkt →
    pkt ∈ (s.conns c).arrived ∧ pkt ∈ (s.conns c).invoked
  write : ∀ t n, (s.procs t).writing c = some n → ∀ pkt ∈ (s.conns c).arrived, pkt.call ≠ n
  delivered : ∀ pkt ∈ (s.conns c).arrived, ⟨pkt.call, none⟩ ∈ (s.conns c).returned →
    pkt.early ∈ (s.conns c).queued ∨ pkt ∈ (s.conns c).invoked

namespace PacketInv

variable {s s' : UdpStack} {a : UdpAct} {c : UdpNo}

private theorem taken_lt (hcalls : CallInv s c) {n : Nat} (hn : n ∈ (s.conns c).taken) :
    n < (s.conns c).calls := by
  refine hcalls.mentions n ?_
  simp only [UdpConn.taken, List.map_append, List.mem_append] at hn
  exact hn.elim (fun h => .inr (.inl h)) .inl

private theorem unique_step (hinv : PacketInv s c) (hcalls : CallInv s c) (hsec : UdpSection s a s')
    {t t' : Tid} {n : Nat} (ht : (s'.procs t).callOn c = some n)
    (ht' : (s'.procs t').callOn c = some n) : t = t' := by
  obtain hold | ⟨rfl, _⟩ := hsec.callOn ht
  · obtain hold' | ⟨rfl, _⟩ := hsec.callOn ht'
    · exact hinv.unique t t' n hold hold'
    · exact absurd (hcalls.procs t _ hold) (Nat.lt_irrefl _)
  · -- a new call is made by the one goroutine that the step moves
    obtain ⟨t₀, hothers⟩ := hsec.others
    have hmoved (u : Tid) (hu : (s'.procs u).callOn c = some (s.conns c).calls) : u = t₀ := by
      by_contra hne
      rw [hothers u hne] at hu
      exact Nat.lt_irrefl _ (hcalls.procs u _ hu)
    rw [hmoved t ht, hmoved t' ht']

private theorem nodup_step (hinv : PacketInv s c) (hcalls : CallInv s c) (hc : c < s.created)
    {conn : UdpConn} (hstep : UdpConnStep s a s' c conn) : conn.taken.Nodup := by
  obtain ⟨kept, hperm, hsub⟩ | ⟨hperm, _⟩ | ⟨t, pkt, hproc, _, hperm⟩ := hstep.taken hc
  · exact hperm.nodup_iff.mp (hinv.nodup.sublist hsub)
  · refine hperm.nodup_iff.mpr (List.nodup_cons.mpr ⟨fun hmem => ?_, hinv.nodup⟩)
    exact Nat.lt_irrefl _ (taken_lt hcalls hmem)
  · exact hperm.nodup_iff.mpr (List.nodup_cons.mpr ⟨(hinv.check t pkt hproc).2, hinv.nodup⟩)

private theorem arrived_mem (hc : c < s.created) (hsec : UdpSection s a s') {pkt : UdpPacket}
    (hpkt : pkt ∈ (s.conns c).arrived) : pkt ∈ (s'.conns c).arrived := by
  obtain heq | ⟨data, addr, heq, _⟩ := (hsec.conns c).arrived hc
  · rwa [heq]
  · rw [heq]
    exact List.mem_append_left _ hpkt

/-- A packet before `checkState` has arrived and was not taken yet. -/
theorem check_step (hinv : PacketInv s c) (hcalls : CallInv s c) (hc : c < s.created)
    (hsec : UdpSection s a s') {t : Tid} {pkt : UdpPacket} (ht : s'.procs t = .check c pkt) :
    pkt ∈ (s'.conns c).arrived ∧ pkt.call ∉ (s'.conns c).taken := by
  obtain hsame | hown := hsec.procs t
  · have hproc : s.procs t = .check c pkt := hsame ▸ ht
    have hcall : (s.procs t).callOn c = some pkt.call := by simp [hproc, UdpProc.callOn]
    obtain ⟨harrived, hfree⟩ := hinv.check t pkt hproc
    refine ⟨arrived_mem hc hsec harrived, fun hmem => ?_⟩
    obtain hsub | ⟨hperm, _⟩ | ⟨t', pkt', hproc', hafter, hperm⟩ := (hsec.conns c).taken hc
    · exact hfree (hsub.subset hmem)
    · obtain heq | hmem := List.mem_cons.mp (hperm.subset hmem)
      · exact Nat.lt_irrefl _ (heq ▸ hcalls.procs t _ hcall)
      · exact hfree hmem
    · obtain heq | hmem := List.mem_cons.mp (hperm.subset hmem)
      · obtain rfl : t = t' :=
          hinv.unique t t' _ hcall (by simp [hproc', UdpProc.callOn, heq])
        rw [ht] at hafter
        cases hafter
      · exact hfree hmem
  · rw [ht] at hown
    generalize s.procs t = p at hown
    cases hown with
    | receive _ hafter =>
      rw [hafter]
      exact ⟨List.mem_append_right _ (List.mem_singleton_self _),
        fun hmem => Nat.lt_irrefl _ (taken_lt hcalls hmem)⟩
    | move hmove => cases hmove

/-- A packet that the handler is called with has arrived. -/
theorem handle_step (hinv : PacketInv s c) (hc : c < s.created) (hsec : UdpSection s a s') {t : Tid}
    {pkt : UdpPacket} (ht : s'.procs t = .handle c pkt) :
    pkt ∈ (s'.conns c).arrived ∧ pkt ∈ (s'.conns c).invoked := by
  obtain hsame | hown := hsec.procs t
  · obtain ⟨harrived, hinvoked⟩ := hinv.handle t pkt (hsame ▸ ht)
    exact ⟨arrived_mem hc hsec harrived, (hsec.conns c).invoked hc hinvoked⟩
  · rw [ht] at hown
    generalize hproc : s.procs t = p at hown
    cases hown with
    | invoke _ hafter =>
      rw [hafter]
      exact ⟨(hinv.check t pkt hproc).1, List.mem_append_right _ (List.mem_singleton_self _)⟩
    | move hmove => cases hmove

private theorem write_step (hinv : PacketInv s c) (hcalls : CallInv s c) (hc : c < s.created)
    (hsec : UdpSection s a s') {t : Tid} {n : Nat} (ht : (s'.procs t).writing c = some n)
    {pkt : UdpPacket} (hpkt : pkt ∈ (s'.conns c).arrived) : pkt.call ≠ n := by
  have hold (h : (s.procs t).writing c = some n) : pkt.call ≠ n := by
    obtain heq | ⟨data, addr, heq, _⟩ := (hsec.conns c).arrived hc
    · exact hinv.write t n h pkt (heq ▸ hpkt)
    · rw [heq] at hpkt
      obtain hpkt | hpkt := List.mem_append.mp hpkt
      · exact hinv.write t n h pkt hpkt
      · obtain rfl := List.mem_singleton.mp hpkt
        exact Nat.ne_of_gt (hcalls.procs t n (UdpProc.callOn_of_writing h))
  obtain hsame | hown := hsec.procs t
  · exact hold (hsame ▸ ht)
  generalize s.procs t = p at hown hold
  generalize s'.procs t = p' at hown ht
  cases hown with
  | writeFrom _ _ hafter =>
    simp only [UdpProc.writing, Option.ite_none_right_eq_some, Option.some.injEq] at ht
    obtain ⟨rfl, rfl⟩ := ht
    rw [hafter] at hpkt
    exact Nat.ne_of_lt (hinv.arrived pkt hpkt)
  | move hmove =>
    cases hmove with
    | writeCheck _ => exact hold ht
    | _ => cases ht
  | _ => cases ht

private theorem delivered_step (hinv : PacketInv s c) (hcalls : CallInv s c) {conn : UdpConn}
    (hstep : UdpConnStep s a s' c conn) {pkt : UdpPacket} (hpkt : pkt ∈ conn.arrived)
    (hret : ⟨pkt.call, none⟩ ∈ conn.returned) : pkt.early ∈ conn.queued ∨ pkt ∈ conn.invoked := by
  have hold (hpkt : pkt ∈ (s.conns c).arrived) := hinv.delivered pkt hpkt
  have hlt (hret : ⟨pkt.call, none⟩ ∈ (s.conns c).returned) : pkt.call < (s.conns c).calls :=
    hcalls.mentions _ (.inr (.inr (.inr (List.mem_map_of_mem hret))))
  cases hstep with
  | new _ _ => cases hpkt
  | queue _ hqueue _ =>
    obtain ⟨_, _, _, _, rfl⟩ := UdpConn.enqueueEarlyPacket_eq_some hqueue
    simp only [UdpConn.ret, UdpConn.arrive, List.mem_append, List.mem_cons, List.not_mem_nil,
      or_false] at hpkt hret ⊢
    obtain hpkt | rfl := hpkt
    · obtain hnew | hret := hret
      · exact absurd (congrArg UdpReturn.call hnew) (Nat.ne_of_lt (hinv.arrived pkt hpkt))
      · exact (hold hpkt hret).imp .inl id
    · exact .inl (.inr rfl)
  | receive _ _ _ =>
    obtain hpkt | hnew := List.mem_append.mp hpkt
    · exact hold hpkt hret
    · obtain rfl := List.mem_singleton.mp hnew
      exact absurd (hlt hret) (Nat.lt_irrefl _)
  | refuse hrefused _ =>
    obtain hnew | hret := List.mem_cons.mp hret
    · have herr := congrArg UdpReturn.err hnew
      generalize s.procs _ = p at hrefused
      cases hrefused <;> cases herr
    · exact hold hpkt hret
  | invoke _ _ _ | drain _ _ _ => exact (hold hpkt hret).imp id (List.mem_append_left _)
  | @handled t pkt' _ hproc _ =>
    obtain hnew | hret := List.mem_cons.mp hret
    · obtain ⟨harrived, hinvoked⟩ := hinv.handle t pkt' hproc
      obtain rfl := hinv.distinct pkt hpkt pkt' harrived (congrArg UdpReturn.call hnew)
      exact .inr hinvoked
    · exact hold hpkt hret
  | @sendto t call _ _ hproc _ =>
    obtain hnew | hret := List.mem_cons.mp hret
    · have hwriting : (s.procs t).writing c = some call := by simp [hproc, UdpProc.writing]
      exact absurd (congrArg UdpReturn.call hnew) (hinv.write t call hwriting pkt hpkt)
    · exact hold hpkt hret
  | _ => exact hold hpkt hret

private theorem arrived_step (hinv : PacketInv s c) (hc : c < s.created) (hsec : UdpSection s a s') :
    (∀ pkt ∈ (s'.conns c).arrived, pkt.call < (s'.conns c).calls) ∧
      ∀ pkt ∈ (s'.conns c).arrived, ∀ pkt' ∈ (s'.conns c).arrived, pkt.call = pkt'.call →
        pkt = pkt' := by
  have hle := (hsec.conns c).calls_le hc
  have hold := hinv.arrived
  have hdistinct := hinv.distinct
  obtain heq | ⟨data, addr, heq, hcalls⟩ := (hsec.conns c).arrived hc
  · rw [heq]
    exact ⟨fun pkt hpkt => Nat.lt_of_lt_of_le (hold pkt hpkt) hle, hdistinct⟩
  · rw [heq, hcalls]
    simp only [List.mem_append, List.mem_singleton]
    refine ⟨?_, ?_⟩
    · rintro pkt (hpkt | rfl)
      · exact Nat.lt_succ_of_lt (hold pkt hpkt)
      · exact Nat.lt_succ_self _
    · rintro pkt (hpkt | rfl) pkt' (hpkt' | rfl) hcall
      · exact hdistinct pkt hpkt pkt' hpkt' hcall
      · exact absurd hcall (Nat.ne_of_lt (hold pkt hpkt))
      · exact absurd hcall (Nat.ne_of_gt (hold pkt' hpkt'))
      · rfl

theorem step (hinv : PacketInv s c) (hcalls : CallInv s c) (hc : c < s.created)
    (hsec : UdpSection s a s') : PacketInv s' c where
  arrived := (hinv.arrived_step hc hsec).1
  distinct := (hinv.arrived_step hc hsec).2
  unique _ _ _ := hinv.unique_step hcalls hsec
  nodup := hinv.nodup_step hcalls hc (hsec.conns c)
  check _ _ := hinv.check_step hcalls hc hsec
  handle _ _ := hinv.handle_step hc hsec
  write _ _ ht _ := hinv.write_step hcalls hc hsec ht
  delivered _ := hinv.delivered_step hcalls (hsec.conns c)

theorem new (hcalls : CallInv s' s.created) (hsec : UdpSection s a s')
    (hlt : s.created < s'.created) : PacketInv s' s.created := by
  have hnone (t : Tid) (n : Nat) (h : (s'.procs t).callOn s.created = some n) : False := by
    have hn := hcalls.procs t n h
    obtain ⟨_, _, _, _, _, rfl⟩ := hsec.created hlt
    simp [newUDPConn] at hn
  have hcheck (t : Tid) (pkt : UdpPacket) (h : s'.procs t = .check s.created pkt) : False :=
    hnone t pkt.call (by simp [h, UdpProc.callOn])
  have hhandle (t : Tid) (pkt : UdpPacket) (h : s'.procs t = .handle s.created pkt) : False :=
    hnone t pkt.call (by simp [h, UdpProc.callOn])
  refine ⟨?_, ?_, fun t _ n h _ => (hnone t n h).elim, ?_, fun t pkt h => (hcheck t pkt h).elim,
    fun t pkt h => (hhandle t pkt h).elim,
    fun t n h => (hnone t n (UdpProc.callOn_of_writing h)).elim, ?_⟩ <;>
  · obtain ⟨_, _, _, _, _, rfl⟩ := hsec.created hlt
    simp [newUDPConn, UdpConn.taken, UdpConn.waiting]

end PacketInv

private theorem reach_packetInv {ok : UdpStack → UdpAct → Prop} {s : UdpStack}
    (h : Reach udpMachine ok s) : ∀ c < s.created, PacketInv s c := by
  refine reach_each (fun hreach hsec hlt => ?_) (fun hreach hc hinv _ hstep => ?_) h
  · exact .new (.new (reach_udpBounds hreach) hsec hlt) hsec hlt
  · exact hinv.step (reach_callInv hreach _ hc) hc (UdpStack.step_section hstep)

/-! ### Exactly once -/

/-- The handler was called once for the packet, with the bytes and the address it
    arrived with. -/
def UdpConn.DeliveredOnce (conn : UdpConn) (pkt : UdpPacket) : Prop :=
  (conn.invoked.map UdpPacket.call).count pkt.call = 1 ∧
    ∃ pkt' ∈ conn.invoked, pkt'.call = pkt.call ∧ pkt'.data.content = pkt.data.content ∧
      pkt'.addr = pkt.addr

private theorem PacketInv.invoked_nodup {s : UdpStack} {c : UdpNo} (hinv : PacketInv s c) :
    ((s.conns c).invoked.map UdpPacket.call).Nodup := by
  have hnodup := hinv.nodup
  rw [UdpConn.taken, List.map_append] at hnodup
  exact hnodup.sublist (List.sublist_append_left _ _)

private theorem PacketInv.deliveredOnce {s : UdpStack} {c : UdpNo} (hinv : PacketInv s c)
    {pkt pkt' : UdpPacket} (hmem : pkt' ∈ (s.conns c).invoked) (hcall : pkt'.call = pkt.call)
    (hdata : pkt'.data.content = pkt.data.content) (haddr : pkt'.addr = pkt.addr) :
    (s.conns c).DeliveredOnce pkt := by
  refine ⟨?_, pkt', hmem, hcall, hdata, haddr⟩
  exact List.count_eq_one_of_mem hinv.invoked_nodup (List.mem_map.mpr ⟨pkt', hmem, hcall⟩)

/-- A call of `ReceiveTo` that has not returned and not gone to the handler is at
    `checkState`. -/
theorem PacketInv.check_of_callOn {s : UdpStack} {c : UdpNo} (hinv : PacketInv s c)
    {pkt : UdpPacket} (hpkt : pkt ∈ (s.conns c).arrived)
    (hnot : pkt.call ∉ (s.conns c).invoked.map UdpPacket.call) {t : Tid}
    (hcall : (s.procs t).callOn c = some pkt.call) : s.procs t = .check c pkt := by
  have hwrite := hinv.write t pkt.call
  generalize hproc : s.procs t = p at hcall hwrite
  cases p with
  | check c' pkt' =>
    simp only [UdpProc.callOn, Option.ite_none_right_eq_some, Option.some.injEq] at hcall
    obtain ⟨rfl, hcall⟩ := hcall
    rw [hinv.distinct pkt' (hinv.check t pkt' hproc).1 pkt hpkt hcall]
  | handle c' pkt' =>
    simp only [UdpProc.callOn, Option.ite_none_right_eq_some, Option.some.injEq] at hcall
    obtain ⟨rfl, hcall⟩ := hcall
    exact absurd (List.mem_map.mpr ⟨pkt', (hinv.handle t pkt' hproc).2, hcall⟩) hnot
  | writeCheck _ _ _ _ | send _ _ _ _ => exact absurd rfl (hwrite hcall pkt hpkt)
  | _ => cases hcall

/-- Early packets are delivered exactly once: the handler is called at most once for each
    packet. When the drain loop has ended and the handler has returned no error, every packet
    whose `ReceiveTo` returned nil was delivered, the queued ones in arrival order, and a packet
    that was not delivered had its `ReceiveTo` return an error, or is in a call that is still at
    `checkState`. No order of the goroutines is assumed. -/
theorem early_delivery {s : UdpStack} {c : UdpNo} (hreach : Reach udpMachine any s)
    (hc : c < s.created) :
    ((s.conns c).invoked.map UdpPacket.call).Nodup ∧
    (s.connectors c = .drained ∨ s.connectors c = .stopped → (s.conns c).handlerErr = false →
      (∀ pkt ∈ (s.conns c).arrived, ⟨pkt.call, none⟩ ∈ (s.conns c).returned →
        (s.conns c).DeliveredOnce pkt) ∧
      (s.conns c).queued.Sublist ((s.conns c).arrived.map UdpPacket.early) ∧
      (s.conns c).queued.Sublist (s.conns c).invoked ∧
      ∀ pkt ∈ (s.conns c).arrived, pkt.call ∉ (s.conns c).invoked.map UdpPacket.call →
        (∃ e, ⟨pkt.call, some e⟩ ∈ (s.conns c).returned) ∨ ∃ t, s.procs t = .check c pkt) := by
  have hinv := reach_packetInv hreach c hc
  have hqueue := reach_queueInv hreach c hc
  refine ⟨hinv.invoked_nodup, fun hended hnil => ?_⟩
  have hdrained : s.connectors c = .drained := by
    refine hended.resolve_right fun hstopped => ?_
    rw [hqueue.stopped hstopped] at hnil
    cases hnil
  have hqueued : (s.conns c).queued.Sublist (s.conns c).invoked := by
    obtain ⟨taken, heq, hsub⟩ := hqueue.order
    rw [hqueue.drained (.inr hdrained), List.append_nil] at heq
    exact heq ▸ hsub
  have hdelivered (pkt : UdpPacket) (hpkt : pkt ∈ (s.conns c).arrived)
      (hret : ⟨pkt.call, none⟩ ∈ (s.conns c).returned) : (s.conns c).DeliveredOnce pkt := by
    obtain hearly | hdirect := hinv.delivered pkt hpkt hret
    · exact hinv.deliveredOnce (hqueued.subset hearly) rfl (Bytes.content_copy _) rfl
    · exact hinv.deliveredOnce hdirect rfl rfl rfl
  refine ⟨hdelivered, hqueue.arrival, hqueued, fun pkt hpkt hnot => ?_⟩
  obtain ⟨t, hcall⟩ | ⟨e, hret⟩ := (reach_callInv hreach c hc).accounted _ (hinv.arrived pkt hpkt)
  · exact .inr ⟨t, hinv.check_of_callOn hpkt hnot hcall⟩
  · cases e with
    | none =>
      obtain ⟨_, pkt', hmem, hcall, _⟩ := hdelivered pkt hpkt hret
      exact absurd (List.mem_map.mpr ⟨pkt', hmem, hcall⟩) hnot
    | some e => exact .inl ⟨e, hret⟩

/-- The packet of `dialing` is queued and delivered after `Connect`. -/
theorem early_delivery_dialing : ∃ s, Reach udpMachine any s ∧ s.connectors 0 = .drained ∧
    (s.conns 0).queued ≠ [] ∧ (s.conns 0).DeliveredOnce ⟨0, some [1], ⟨[8, 8, 8, 8], 53, ""⟩⟩ := by
  obtain ⟨s, hreach, hc, hat, hnil, hqueued, harrived, hret⟩ := exists_reach_of_run udpMachine any
    (dialing ++ [.connect 0 true, .connector 0, .connector 0, .drained 0 true, .connector 0,
      .connector 0])
    (fun s => 0 < s.created ∧ s.connectors 0 = .drained ∧ (s.conns 0).handlerErr = false ∧
      (s.conns 0).queued ≠ [] ∧ ⟨0, some [1], ⟨[8, 8, 8, 8], 53, ""⟩⟩ ∈ (s.conns 0).arrived ∧
      ⟨0, none⟩ ∈ (s.conns 0).returned) (by decide)
  exact ⟨s, hreach, hat, hqueued,
    ((early_delivery hreach hc).2 (.inl hat) hnil).1 _ harrived hret⟩

end tun2proxy.core
