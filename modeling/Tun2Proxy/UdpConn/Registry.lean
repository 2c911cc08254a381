import Tun2Proxy.UdpConn.Closed

open tun2proxy.machine tun2proxy.machine.Machine tun2proxy.udppackage

namespace tun2proxy.core

/-! ### Store and Delete -/

namespace UdpStack

/-- The connection for whose key the step calls `udpConns.Delete`. -/
def deletes (s : UdpStack) : UdpAct → Option UdpNo
  | .run t =>
    match s.procs t with
    | .unregister c _ | .unregisterAgain c => some c
    | _ => none
  | .connector c => if s.connectors c = .unregister then some c else none
  | _ => none

/-- The connection that `udpRecvFn` has made and not stored yet. -/
def storing (s : UdpStack) : Option UdpNo :=
  s.lwip.bind fun t =>
    match s.procs t with
    | .store c _ _ => some c
    | _ => none

end UdpStack

/-- What a step does to `udpConns`. -/
inductive UdpConnsStep (s : UdpStack) (a : UdpAct) (s' : UdpStack) : Prop where
  | same (hmap : s'.udpConns = s.udpConns)
  | store {t : Tid} {c : UdpNo} {data : Bytes} {addr : UDPAddr} (hproc : s.procs t = .store c data addr)
      (hafter : s'.procs t = .touch c data addr)
      (hmap : s'.udpConns = Function.update s.udpConns (s.conns c).connId (some c))
  | delete {c : UdpNo} (hdelete : s.deletes a = some c)
      (hmap : s'.udpConns = Function.update s.udpConns (s.conns c).connId none)

namespace UdpSection

variable {s s' : UdpStack} {a : UdpAct}

/-- What one section does to `udpConns`. -/
theorem udpConns (hsec : UdpSection s a s') : UdpConnsStep s a s' := by
  cases hsec with
  | store hproc => exact .store hproc (by simp) rfl
  | unregister hproc | unregisterAgain hproc =>
    refine .delete ?_ rfl
    simp only [UdpStack.deletes, hproc]
  | connectorUnregister _ hat =>
    refine .delete ?_ rfl
    simp only [UdpStack.deletes, hat, if_true]
  | _ => exact .same rfl

/-- `lwipMutex` is taken when `udpRecvFn` begins and released when it returns. -/
theorem lwip (hsec : UdpSection s a s') :
    s'.lwip = s.lwip ∨ s.lwip = none ∨
      ∃ t, s.lwip = some t ∧ s'.lwip = none ∧ s'.procs t = .idle := by
  cases hsec with
  | recvFn _ hlwip => exact .inr (.inl hlwip)
  | @noHandler t _ _ _ _ | @queue _ t _ _ _ _ _ _ | @refuse _ t _ _ _ | @handled t _ _ _ _
  | @sendto t _ _ _ _ _ =>
    by_cases hlwip : s.lwip = some t
    · exact .inr (.inr ⟨t, hlwip, by simp [hlwip], by simp⟩)
    · exact .inl (by simp [hlwip])
  | _ => exact .inl rfl

/-- An entry was there or is stored. -/
theorem entry (hsec : UdpSection s a s') {id : UdpConnId} {c : UdpNo}
    (hid : s'.udpConns id = some c) :
    s.udpConns id = some c ∨
      id = (s.conns c).connId ∧ ∃ t data addr, s.procs t = .store c data addr := by
  cases hsec.udpConns with
  | same hmap => exact .inl (hmap ▸ hid)
  | store hproc _ hmap =>
    rw [hmap, Function.update_apply] at hid
    split at hid
    · cases hid
      exact .inr ⟨‹_›, _, _, _, hproc⟩
    · exact .inl hid
  | delete _ hmap =>
    rw [hmap, Function.update_apply] at hid
    split at hid
    · cases hid
    · exact .inl hid

/-- What is about to be stored was so before or is new. -/
theorem storing (hsec : UdpSection s a s') {t : Tid} {c : UdpNo} {data : Bytes} {addr : UDPAddr}
    (ht : s'.procs t = .store c data addr) :
    s.procs t = .store c data addr ∨ s'.created = s.created + 1 ∧ c = s.created := by
  obtain hsame | hown := hsec.procs t
  · exact .inl (hsame ▸ ht)
  rw [ht] at hown
  generalize s.procs t = p at hown
  cases hown with
  | create hafter => exact .inr ⟨hafter, rfl⟩
  | move hmove => cases hmove

end UdpSection

/-- A connection keeps its key. -/
theorem UdpConnStep.connId {s s' : UdpStack} {a : UdpAct} {c : UdpNo} {conn : UdpConn}
    (hstep : UdpConnStep s a s' c conn) (hc : c < s.created) :
    conn.connId = (s.conns c).connId := by
  cases hstep with
  | new hnew _ => exact absurd hc (hnew ▸ Nat.lt_irrefl _)
  | queue _ hqueue _ =>
    obtain ⟨_, _, _, _, rfl⟩ := UdpConn.enqueueEarlyPacket_eq_some hqueue
    rfl
  | _ => rfl

/-! ### udpRecvFn -/

/-- The goroutine runs `udpRecvFn` and has not called `ReceiveTo` yet. -/
def UdpProc.receiving : UdpProc → Bool
  | .load _ _ _ | .create _ _ _ | .store _ _ _ | .touch _ _ _ | .receive _ _ _ => true
  | _ => false

/-- `udpRecvFn` runs under `lwipMutex`. -/
def LwipInv (s : UdpStack) : Prop := ∀ t, (s.procs t).receiving → s.lwip = some t

namespace LwipInv

variable {s s' : UdpStack} {a : UdpAct}

/-- At most one goroutine is in `udpRecvFn`. -/
theorem eq (hinv : LwipInv s) {t t' : Tid} (h : (s.procs t).receiving) (h' : (s.procs t').receiving) :
    t = t' :=
  Option.some.inj ((hinv t h).symm.trans (hinv t' h'))

theorem kept (hinv : LwipInv s) (hsec : UdpSection s a s') {t : Tid} (h : (s.procs t).receiving)
    (h' : (s'.procs t).receiving) : s'.lwip = some t := by
  obtain hsame | hfree | ⟨t', hlwip, _, hidle⟩ := hsec.lwip
  · rw [hsame]
    exact hinv t h
  · rw [hinv t h] at hfree
    cases hfree
  · obtain rfl : t = t' := Option.some.inj ((hinv t h).symm.trans hlwip)
    rw [hidle] at h'
    cases h'

theorem step (hinv : LwipInv s) (hsec : UdpSection s a s') : LwipInv s' := by
  intro t ht
  obtain hsame | hown := hsec.procs t
  · exact hinv.kept hsec (hsame ▸ ht) ht
  have hkept := hinv.kept hsec (t := t)
  generalize s.procs t = p at hown hkept
  generalize s'.procs t = p' at hown hkept ht
  cases hown with
  | recvFn _ hafter => exact hafter
  | create _ | store _ | touch => exact hkept rfl ht
  | move hmove =>
    cases hmove with
    | found _ | absent _ => exact hkept rfl ht
    | _ => cases ht
  | _ => cases ht

end LwipInv

/-- In every run, who is in `udpRecvFn` holds `lwipMutex`. -/
theorem reach_lwipInv {ok : UdpStack → UdpAct → Prop} {s : UdpStack} (h : Reach udpMachine ok s) :
    LwipInv s := by
  refine h.invariant (P := LwipInv) (fun t ht => by cases ht) ?_
  intro s a s' _ hinv _ hstep
  exact hinv.step (UdpStack.step_section hstep)

/-- No entry stands in the way of the connection that `udpRecvFn` is about to make
    or to store; entries have their connection's key; and each is the newest
    connection with that key. -/
structure UdpRegistry (s : UdpStack) : Prop where
  absent : ∀ t id data addr, s.procs t = .create id data addr → s.udpConns id = none
  unstored : ∀ t c data addr, s.procs t = .store c data addr → s.udpConns (s.conns c).connId = none
  key : ∀ id c, s.udpConns id = some c → (s.conns c).connId = id
  newest : ∀ c, (∃ t data addr, s.procs t = .store c data addr) ∨ (∃ id, s.udpConns id = some c) →
    ∀ c' < s.created, (s.conns c').connId = (s.conns c).connId → c' ≤ c

namespace UdpRegistry

variable {s s' : UdpStack} {a : UdpAct}

theorem new (hinv : UdpRegistry s) (hbounds : UdpBounds s) (hlwip : LwipInv s) {t : Tid}
    {id : UdpConnId} {data : Bytes} {addr : UDPAddr} (hproc : s.procs t = .create id data addr)
    (hcreated : s'.created = s.created + 1)
    (hconns : s'.conns = Function.update s.conns s.created (newUDPConn id))
    (hprocs : s'.procs = Function.update s.procs t (.store s.created data addr))
    (hmap : s'.udpConns = s.udpConns) : UdpRegistry s' := by
  have hreceiving : (s.procs t).receiving := by
    rw [hproc]
    rfl
  have hconn (c : UdpNo) (hc : c < s.created) : s'.conns c = s.conns c := by
    rw [hconns, Function.update_of_ne (Nat.ne_of_lt hc)]
  have hnew : (s'.conns s.created).connId = id := by
    rw [hconns, Function.update_self]
    rfl
  have hother (t' : Tid) (ht' : (s'.procs t').receiving) : t' = t := by
    by_contra hne
    rw [hprocs, Function.update_of_ne hne] at ht'
    exact hne (hlwip.eq ht' hreceiving)
  have hstore (t' : Tid) (p : UdpProc) (ht' : s'.procs t' = p) (hp : p.receiving) :
      p = .store s.created data addr := by
    obtain rfl := hother t' (ht' ▸ hp)
    rw [← ht', hprocs, Function.update_self]
  refine ⟨fun t' id' data' addr' ht' => ?_, fun t' c data' addr' ht' => ?_, fun id' c hc => ?_,
    fun c hc c' hlt heq => ?_⟩
  · cases hstore t' _ ht' rfl
  · cases hstore t' _ ht' rfl
    rw [hnew, hmap]
    exact hinv.absent t id data addr hproc
  · rw [hmap] at hc
    rw [hconn c (hbounds.udpConns id' c hc)]
    exact hinv.key id' c hc
  · obtain ⟨t', data', addr', ht'⟩ | ⟨id', hid'⟩ := hc
    · cases hstore t' _ ht' rfl
      rw [hcreated] at hlt
      exact Nat.le_of_lt_succ hlt
    · rw [hmap] at hid'
      have hc := hbounds.udpConns id' c hid'
      rw [hconn c hc] at heq
      by_cases hold : c' < s.created
      · rw [hconn c' hold] at heq
        exact hinv.newest c (.inr ⟨id', hid'⟩) c' hold heq
      · rw [hcreated] at hlt
        obtain rfl : c' = s.created :=
          Nat.le_antisymm (Nat.le_of_lt_succ hlt) (Nat.le_of_not_lt hold)
        rw [hnew, hinv.key id' c hid'] at heq
        subst heq
        rw [hinv.absent t id data addr hproc] at hid'
        cases hid'

/-- No other goroutine stores while one is in `udpRecvFn` before its own Store. -/
theorem none_kept (hlwip : LwipInv s') (hsec : UdpSection s a s') {t : Tid} {id : UdpConnId}
    (hreceiving : (s'.procs t).receiving)
    (hbefore : ∀ c data addr, s'.procs t ≠ .touch c data addr) (hnone : s.udpConns id = none) :
    s'.udpConns id = none := by
  cases hsec.udpConns with
  | same hmap => rw [hmap, hnone]
  | @store t' c data addr _ hafter _ =>
    obtain rfl : t = t' := hlwip.eq hreceiving (by rw [hafter]; rfl)
    exact absurd hafter (hbefore c data addr)
  | delete _ hmap =>
    rw [hmap, Function.update_apply, hnone, ite_self]

/-- A section that makes no connection keeps the invariant. -/
theorem keep (hinv : UdpRegistry s) (hbounds : UdpBounds s) (hlwip : LwipInv s')
    (hsec : UdpSection s a s') (hcreated : s'.created = s.created) : UdpRegistry s' := by
  have hconnId (c : UdpNo) (hc : c < s.created) : (s'.conns c).connId = (s.conns c).connId :=
    (hsec.conns c).connId hc
  have hstore (t : Tid) (c : UdpNo) (data : Bytes) (addr : UDPAddr)
      (ht : s'.procs t = .store c data addr) : s.procs t = .store c data addr := by
    obtain hold | ⟨hafter, _⟩ := hsec.storing ht
    · exact hold
    · rw [hcreated] at hafter
      exact absurd hafter (Nat.ne_of_lt (Nat.lt_succ_self _))
  refine ⟨fun t id data addr ht => ?_, fun t c data addr ht => ?_, fun id c hid => ?_,
    fun c hc c' hlt heq => ?_⟩
  · refine none_kept hlwip hsec (t := t) (by rw [ht]; rfl) (by simp [ht]) ?_
    obtain hsame | hown := hsec.procs t
    · exact hinv.absent t id data addr (hsame ▸ ht)
    rw [ht] at hown
    generalize s.procs t = p at hown
    cases hown with
    | move hmove =>
      cases hmove with
      | absent hnone => exact hnone
  · have hold := hstore t c data addr ht
    rw [hconnId c (hbounds.procs t c (congrArg UdpProc.conn hold))]
    exact none_kept hlwip hsec (t := t) (by rw [ht]; rfl) (by simp [ht])
      (hinv.unstored t c data addr hold)
  · obtain hold | ⟨rfl, t, data, addr, hproc⟩ := hsec.entry hid
    · rw [hconnId c (hbounds.udpConns id c hold)]
      exact hinv.key id c hold
    · exact hconnId c (hbounds.procs t c (congrArg UdpProc.conn hproc))
  · have hold : (∃ t data addr, s.procs t = .store c data addr) ∨ ∃ id, s.udpConns id = some c := by
      obtain ⟨t, data, addr, ht⟩ | ⟨id, hid⟩ := hc
      · exact .inl ⟨t, data, addr, hstore t c data addr ht⟩
      · exact (hsec.entry hid).elim (fun h => .inr ⟨id, h⟩) fun h => .inl h.2
    have hclt : c < s.created := by
      obtain ⟨t, data, addr, ht⟩ | ⟨id, hid⟩ := hold
      · exact hbounds.procs t c (congrArg UdpProc.conn ht)
      · exact hbounds.udpConns id c hid
    rw [hcreated] at hlt
    rw [hconnId c hclt, hconnId c' hlt] at heq
    exact hinv.newest c hold c' hlt heq

end UdpRegistry

/-- In every run, an entry has its connection's key, and is the newest connection with it. -/
theorem reach_udpRegistry {ok : UdpStack → UdpAct → Prop} {s : UdpStack}
    (h : Reach udpMachine ok s) : UdpRegistry s := by
  refine h.invariant (P := UdpRegistry) ?_ ?_
  · exact ⟨fun t id data addr ht => (by cases ht), fun t c data addr ht => (by cases ht),
      fun id c hid => (by cases hid), fun c _ c' hlt => absurd hlt (Nat.not_lt_zero c')⟩
  · intro s a s' hreach hinv _ hstep
    have hsec := UdpStack.step_section hstep
    have hbounds := reach_udpBounds hreach
    have hlwip := reach_lwipInv hreach
    by_cases hlt : s.created < s'.created
    · obtain ⟨t, id, data, addr, hproc, rfl⟩ := hsec.created hlt
      exact hinv.new hbounds hlwip hproc rfl rfl rfl rfl
    · exact hinv.keep hbounds (hlwip.step hsec) hsec
        (Nat.le_antisymm (Nat.le_of_not_lt hlt) hsec.created_le)

end tun2proxy.core
