import Tun2Proxy.UdpConn.Section

open tun2proxy.machine tun2proxy.machine.Machine tun2proxy.udppackage

namespace tun2proxy.core

/-- The connection a goroutine works on. -/
def UdpProc.conn : UdpProc → Option UdpNo
  | .store c _ _ | .touch c _ _ | .receive c _ _ | .check c _ | .handle c _ | .writeCheck c _ _ _
  | .send c _ _ _ | .close c _ | .unregister c _ | .forget c | .unregisterAgain c => some c
  | .idle | .load _ _ _ | .create _ _ _ | .range => none

/-- A call of `ReceiveTo` or `WriteFrom` is one on the connection of its goroutine. -/
theorem UdpProc.conn_of_callOn {p : UdpProc} {c : UdpNo} {n : Nat} (h : p.callOn c = some n) :
    p.conn = some c := by
  cases p <;> simp_all [UdpProc.callOn, UdpProc.conn]

/-- Only connections that were made are worked on and registered. -/
structure UdpBounds (s : UdpStack) : Prop where
  procs : ∀ t c, (s.procs t).conn = some c → c < s.created
  udpConns : ∀ id c, s.udpConns id = some c → c < s.created
  udpConMap : ∀ c v, s.udpConMap c = some v → c < s.created

namespace UdpBounds

theorem init : UdpBounds UdpStack.init where
  procs t c h := by cases h
  udpConns id c h := by cases h
  udpConMap c v h := by cases h

/-- A goroutine comes only to connections that were made, or to the one it makes. -/
theorem own {s s' : UdpStack} {a : UdpAct} {t : Tid} {p p' : UdpProc} (hinv : UdpBounds s)
    (hown : UdpOwn s a s' t p p') (hp : ∀ c, p.conn = some c → c < s.created) {c : UdpNo}
    (hc : p'.conn = some c) : c < s.created ∨ s'.created = s.created + 1 ∧ c = s.created := by
  cases hown with
  | create hafter =>
    cases hc
    exact .inr ⟨hafter, rfl⟩
  | move hmove =>
    left
    cases hmove with
    | found hfound =>
      cases hc
      exact hinv.udpConns _ _ hfound
    | close hlt =>
      cases hc
      exact hlt
    | expire hentry _ =>
      cases hc
      exact hinv.udpConMap _ _ hentry
    | writeCheck _ => exact hp c hc
    | absent _ => cases hc
  | receive hstart _ =>
    cases hc
    cases hstart with
    | recvFn => exact .inl (hp _ rfl)
    | call hlt => exact .inl hlt
  | writeFrom _ hlt _ =>
    cases hc
    exact .inl hlt
  | store _ | touch | invoke _ _ | close _ | unregisterAction _ | forget => exact .inl (hp c hc)
  | _ => cases hc

theorem step {s s' : UdpStack} {a : UdpAct} (hinv : UdpBounds s) (hsec : UdpSection s a s') :
    UdpBounds s' := by
  have hle := hsec.created_le
  refine ⟨fun t c hc => ?_, fun id c hc => ?_, fun c v hv => ?_⟩
  · obtain hsame | hown := hsec.procs t
    · exact Nat.lt_of_lt_of_le (hinv.procs t c (hsame ▸ hc)) hle
    obtain hlt | ⟨hafter, rfl⟩ := hinv.own hown (hinv.procs t) hc
    · exact Nat.lt_of_lt_of_le hlt hle
    · exact hafter ▸ Nat.lt_succ_self _
  · cases hsec with
    | store hproc =>
      simp only [UdpStack.setProc_udpConns, Function.update_apply] at hc
      split at hc
      · cases hc
        exact hinv.procs _ _ (congrArg UdpProc.conn hproc)
      · exact hinv.udpConns id c hc
    | unregister _ | unregisterAgain _ | connectorUnregister _ _ =>
      simp only [UdpStack.setProc_udpConns, UdpStack.setConnector_udpConns,
        UdpStack.unregister_udpConns] at hc
      split at hc
      · cases hc
      · exact hinv.udpConns id c hc
    | _ => exact Nat.lt_of_lt_of_le (hinv.udpConns id c hc) hle
  · cases hsec with
    | touch hproc _ =>
      simp only [UdpStack.setProc_udpConMap, Function.update_apply] at hv
      split at hv
      · rename_i heq
        subst heq
        exact hinv.procs _ _ (congrArg UdpProc.conn hproc)
      · exact hinv.udpConMap c v hv
    | countDown _ hentry =>
      simp only [Function.update_apply] at hv
      split at hv
      · rename_i heq
        subst heq
        exact hinv.udpConMap _ _ hentry
      · exact hinv.udpConMap c v hv
    | forget _ =>
      simp only [UdpStack.setProc_udpConMap, Function.update_apply] at hv
      split at hv
      · cases hv
      · exact hinv.udpConMap c v hv
    | _ => exact Nat.lt_of_lt_of_le (hinv.udpConMap c v hv) hle

end UdpBounds

/-- In every run, only connections that were made are worked on and registered. -/
theorem reach_udpBounds {ok : UdpStack → UdpAct → Prop} {s : UdpStack}
    (h : Reach udpMachine ok s) : UdpBounds s :=
  h.invariant .init fun _ _ _ _ hinv _ hstep => hinv.step (UdpStack.step_section hstep)

/-- An invariant of each connection holds when `newUDPConn` has made it and is kept by
    every admitted step. -/
theorem reach_each {ok : UdpStack → UdpAct → Prop} {P : UdpStack → UdpNo → Prop}
    (hnew : ∀ {s s' : UdpStack} {a : UdpAct}, Reach udpMachine ok s → UdpSection s a s' →
      s.created < s'.created → P s' s.created)
    (hkeep : ∀ {s s' : UdpStack} {a : UdpAct} {c : UdpNo}, Reach udpMachine ok s → c < s.created →
      P s c → ok s a → udpMachine.step s a = some s' → P s' c)
    {s : UdpStack} (h : Reach udpMachine ok s) : ∀ c < s.created, P s c := by
  refine h.invariant (P := fun s => ∀ c < s.created, P s c) ?_ ?_
  · exact fun c hc => absurd hc (Nat.not_lt_zero c)
  · intro s a s' hreach hinv hok hstep c hc
    have hsec := UdpStack.step_section hstep
    by_cases hold : c < s.created
    · exact hkeep hreach hold (hinv c hold) hok hstep
    · obtain rfl : c = s.created :=
        Nat.le_antisymm (Nat.le_of_lt_succ (Nat.lt_of_lt_of_le hc hsec.created_le_succ))
          (Nat.le_of_not_lt hold)
      exact hnew hreach hsec hc

/-! ### Calls -/

/-- The connection has a trace of call `n`. -/
def UdpConn.mentions (conn : UdpConn) (n : Nat) : Prop :=
  n ∈ (conn.pending.getD []).map UdpPacket.call ∨ n ∈ conn.invoked.map UdpPacket.call ∨
    n ∈ conn.sent ∨ n ∈ conn.returned.map UdpReturn.call

section
variable (conn : UdpConn) (n n' : Nat) (e : Option UdpError) (pkt : UdpPacket)

private theorem UdpConn.mentions_ret : (conn.ret n' e).mentions n ↔ n = n' ∨ conn.mentions n := by
  simp only [UdpConn.mentions, UdpConn.ret, List.map_cons, List.mem_cons]
  tauto

private theorem UdpConn.mentions_invoke :
    (conn.invoke pkt).mentions n ↔ n = pkt.call ∨ conn.mentions n := by
  simp only [UdpConn.mentions, UdpConn.invoke, List.map_append, List.map_cons, List.map_nil,
    List.mem_append, List.mem_singleton]
  tauto

end

/-- A packet is queued only while the connection is connecting and `pending` has room, and as a
    copy. -/
theorem UdpConn.enqueueEarlyPacket_eq_some {conn conn' : UdpConn} {pkt : UdpPacket}
    (h : conn.enqueueEarlyPacket pkt = some conn') :
    conn.state = .udpConnecting ∧ ∃ packets, conn.pending = some packets ∧
      packets.length < pendingCap ∧
      conn' = { conn with
        pending := some (packets ++ [{ pkt with data := pkt.data.copy }])
        queued := conn.queued ++ [{ pkt with data := pkt.data.copy }] } := by
  unfold enqueueEarlyPacket at h
  split at h
  · refine ⟨‹_›, ?_⟩
    split at h
    · rename_i packets hpending
      simp only [Option.ite_none_right_eq_some, Option.some.injEq] at h
      exact ⟨packets, hpending, h.1, h.2.symm⟩
    · cases h
  · cases h

/-- Traces are left by calls that were under way and by the one that starts. -/
theorem UdpConnStep.mentions {s s' : UdpStack} {a : UdpAct} {c : UdpNo} {conn : UdpConn}
    (hstep : UdpConnStep s a s' c conn) {n : Nat} (h : conn.mentions n) :
    (s.conns c).mentions n ∨ (∃ t, (s.procs t).callOn c = some n) ∨
      n = (s.conns c).calls ∧ conn.calls = n + 1 := by
  cases hstep with
  | same | close _ | connected _ _ | drained => exact .inl h
  | new _ _ => simp [UdpConn.mentions, newUDPConn] at h
  | queue _ hqueue _ =>
    obtain ⟨_, packets, hpending, _, rfl⟩ := UdpConn.enqueueEarlyPacket_eq_some hqueue
    replace hpending : (s.conns c).pending = some packets := hpending
    simp only [UdpConn.mentions, UdpConn.ret, UdpConn.arrive, hpending] at h ⊢
    grind
  | receive _ _ _ | writeFrom _ => exact .inl h
  | refuse hrefused _ =>
    obtain rfl | h := (UdpConn.mentions_ret ..).mp h
    · exact .inr (.inl ⟨_, hrefused.callOn⟩)
    · exact .inl h
  | @invoke t _ hproc _ _ =>
    obtain rfl | h := (UdpConn.mentions_invoke ..).mp h
    · exact .inr (.inl ⟨t, by simp [hproc, UdpProc.callOn]⟩)
    · exact .inl h
  | @handled t _ _ hproc _ =>
    obtain rfl | h := (UdpConn.mentions_ret ..).mp h
    · exact .inr (.inl ⟨t, by simp [hproc, UdpProc.callOn]⟩)
    · exact .inl h
  | @sendto t call _ _ hproc _ =>
    have hcall : ∃ t, (s.procs t).callOn c = some call := ⟨t, by simp [hproc, UdpProc.callOn]⟩
    obtain rfl | h := (UdpConn.mentions_ret ..).mp h
    · exact .inr (.inl hcall)
    simp only [UdpConn.mentions, List.mem_cons] at h ⊢
    grind
  | @drain pkt rest _ _ hpending =>
    left
    simp only [UdpConn.mentions, UdpConn.invoke, hpending, Option.getD_some, List.map_append,
      List.map_cons, List.map_nil, List.mem_append, List.mem_cons, List.not_mem_nil, or_false] at h ⊢
    tauto
  | drainEnd _ =>
    left
    simp only [UdpConn.mentions, Option.getD_none, List.map_nil, List.not_mem_nil, false_or] at h
    exact .inr h

/-- Only the start of a call counts it. -/
theorem UdpConnStep.calls {s s' : UdpStack} {a : UdpAct} {c : UdpNo} {conn : UdpConn}
    (hstep : UdpConnStep s a s' c conn) (hc : c < s.created) :
    conn.calls = (s.conns c).calls ∨ conn.calls = (s.conns c).calls + 1 ∧
      ((∃ t, (s'.procs t).callOn c = some (s.conns c).calls) ∨
        ⟨(s.conns c).calls, none⟩ ∈ conn.returned) := by
  cases hstep with
  | new hnew _ => exact absurd hc (hnew ▸ Nat.lt_irrefl _)
  | queue _ hqueue _ =>
    obtain ⟨_, packets, hpending, _, rfl⟩ := UdpConn.enqueueEarlyPacket_eq_some hqueue
    exact .inr ⟨rfl, .inr List.mem_cons_self⟩
  | @receive t _ _ _ _ hafter | @writeFrom t _ _ hafter =>
    exact .inr ⟨rfl, .inl ⟨t, by simp [hafter, UdpProc.callOn]⟩⟩
  | _ => exact .inl rfl

/-- What was returned stays in the record. -/
theorem UdpConnStep.returned {s s' : UdpStack} {a : UdpAct} {c : UdpNo} {conn : UdpConn}
    (hstep : UdpConnStep s a s' c conn) (hc : c < s.created) {r : UdpReturn}
    (hr : r ∈ (s.conns c).returned) : r ∈ conn.returned := by
  cases hstep with
  | new hnew _ => exact absurd hc (hnew ▸ Nat.lt_irrefl _)
  | queue _ hqueue _ =>
    obtain ⟨_, packets, hpending, _, rfl⟩ := UdpConn.enqueueEarlyPacket_eq_some hqueue
    exact List.mem_cons_of_mem _ hr
  | refuse _ _ | handled _ _ | sendto _ _ => exact List.mem_cons_of_mem _ hr
  | _ => exact hr

/-- Every trace of a call has the number of a call that was made, and every call
    that was made has returned or is under way. -/
structure CallInv (s : UdpStack) (c : UdpNo) : Prop where
  mentions : ∀ n, (s.conns c).mentions n → n < (s.conns c).calls
  procs : ∀ t n, (s.procs t).callOn c = some n → n < (s.conns c).calls
  accounted : ∀ n < (s.conns c).calls,
    (∃ t, (s.procs t).callOn c = some n) ∨ ∃ e, ⟨n, e⟩ ∈ (s.conns c).returned

namespace CallInv

/-- A connection that was just made has no calls. -/
theorem new {s s' : UdpStack} {a : UdpAct} (hbounds : UdpBounds s) (hsec : UdpSection s a s')
    (hlt : s.created < s'.created) : CallInv s' s.created := by
  obtain ⟨t', id, data, addr, _, rfl⟩ := hsec.created hlt
  refine ⟨fun n hn => ?_, fun t n hn => ?_, fun n hn => ?_⟩
  · simp [UdpConn.mentions, newUDPConn] at hn
  · simp only [UdpStack.setProc_procs] at hn
    split at hn
    · cases hn
    · exact absurd (hbounds.procs t _ (UdpProc.conn_of_callOn hn)) (Nat.lt_irrefl _)
  · simp [newUDPConn] at hn

theorem step {s s' : UdpStack} {a : UdpAct} {c : UdpNo} (hinv : CallInv s c)
    (hc : c < s.created) (hsec : UdpSection s a s') : CallInv s' c := by
  have hstep := hsec.conns c
  have hle : (s.conns c).calls ≤ (s'.conns c).calls := by
    obtain heq | ⟨heq, _⟩ := hstep.calls hc <;> omega
  refine ⟨fun n hn => ?_, fun t n hn => ?_, fun n hn => ?_⟩
  · obtain hold | ⟨t, hold⟩ | ⟨rfl, hnew⟩ := hstep.mentions hn
    · exact Nat.lt_of_lt_of_le (hinv.mentions n hold) hle
    · exact Nat.lt_of_lt_of_le (hinv.procs t n hold) hle
    · omega
  · obtain hold | ⟨rfl, hnew⟩ := hsec.callOn hn
    · exact Nat.lt_of_lt_of_le (hinv.procs t n hold) hle
    · omega
  · by_cases hold : n < (s.conns c).calls
    · obtain ⟨t, ht⟩ | ⟨e, he⟩ := hinv.accounted n hold
      · obtain hkept | hret := hsec.callOn_or_returned ht
        · exact .inl ⟨t, hkept⟩
        · exact .inr hret
      · exact .inr ⟨e, hstep.returned hc he⟩
    · obtain heq | ⟨heq, hnew⟩ := hstep.calls hc
      · omega
      · obtain rfl : n = (s.conns c).calls := by omega
        exact hnew.imp id fun hret => ⟨none, hret⟩

end CallInv

/-- In every run, of which nothing is assumed, a call that was made has returned or is under
    way, and only calls that were made are mentioned. -/
theorem reach_callInv {ok : UdpStack → UdpAct → Prop} {s : UdpStack} (h : Reach udpMachine ok s) :
    ∀ c < s.created, CallInv s c :=
  reach_each (fun hreach hsec hlt => .new (reach_udpBounds hreach) hsec hlt)
    (fun _ hc hinv _ hstep => hinv.step hc (UdpStack.step_section hstep)) h

end tun2proxy.core
