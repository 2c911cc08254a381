import Tun2Proxy.UdpConn.Step

open tun2proxy.machine tun2proxy.udppackage

namespace tun2proxy.core

/-- The sections of a goroutine that only move on. -/
inductive UdpMove (s : UdpStack) (t : Tid) : UdpAct → UdpProc → UdpProc → Prop where
  | found {id : UdpConnId} {data : Bytes} {addr : UDPAddr} {c : UdpNo}
      (hfound : s.udpConns id = some c) :
      UdpMove s t (.run t) (.load id data addr) (.touch c data addr)
  | absent {id : UdpConnId} {data : Bytes} {addr : UDPAddr} (hnone : s.udpConns id = none) :
      UdpMove s t (.run t) (.load id data addr) (.create id data addr)
  | writeCheck {c : UdpNo} {call : Nat} {data : List UInt8} {addr : UDPAddr}
      (hcheck : (s.conns c).state.checkState = none) :
      UdpMove s t (.run t) (.writeCheck c call data addr) (.send c call data addr)
  | close {c : UdpNo} (hc : c < s.created) :
      UdpMove s t (.call t (.close c)) .idle (.close c false)
  | expire {c : UdpNo} {v : Int} (hentry : s.udpConMap c = some (.int v)) (hv : v ≤ 0) :
      UdpMove s t (.visit t c) .range (.close c true)

/-- How `ReceiveTo` is entered: by `udpRecvFn` or by a call. -/
inductive ReceiveStart (s : UdpStack) (t : Tid) (c : UdpNo) (data : Bytes) (addr : UDPAddr) :
    UdpAct → UdpProc → Prop where
  | recvFn : ReceiveStart s t c data addr (.run t) (.receive c data addr)
  | call (hc : c < s.created) : ReceiveStart s t c data addr (.call t (.receiveTo c data addr)) .idle

/-- How a call on `c` returns an error without doing anything. -/
inductive Refused (s : UdpStack) (t : Tid) (c : UdpNo) : UdpAct → UdpProc → UdpReturn → Prop where
  | check {pkt : UdpPacket} {e : UdpError} (hcheck : (s.conns c).state.checkState = some e) :
      Refused s t c (.run t) (.check c pkt) ⟨pkt.call, some e⟩
  | writeCheck {call : Nat} {data : List UInt8} {addr : UDPAddr} {e : UdpError}
      (hcheck : (s.conns c).state.checkState = some e) :
      Refused s t c (.run t) (.writeCheck c call data addr) ⟨call, some e⟩
  | sendto {call : Nat} {data : List UInt8} {addr : UDPAddr} :
      Refused s t c (.sendto t false) (.send c call data addr)
        ⟨call, some .invalidAddress⟩

/-- Everything a step of the machine can do, with the guards it has passed. -/
inductive UdpSection (s : UdpStack) : UdpAct → UdpStack → Prop where
  | skip {a : UdpAct} : UdpSection s a s
  | recvFn {t : Tid} {id : UdpConnId} {data : Bytes} {addr : UDPAddr} (hidle : s.procs t = .idle)
      (hlwip : s.lwip = none) :
      UdpSection s (.recvFn t (some id) data addr)
        { s.setProc t (.load id data addr) with lwip := some t }
  | create {t : Tid} {id : UdpConnId} {data : Bytes} {addr : UDPAddr}
      (hproc : s.procs t = .create id data addr) :
      UdpSection s (.create t true)
        { s.setProc t (.store s.created data addr) with
          created := s.created + 1
          conns := Function.update s.conns s.created (newUDPConn id)
          connectors := Function.update s.connectors s.created .connecting }
  | noHandler {t : Tid} {id : UdpConnId} {data : Bytes} {addr : UDPAddr}
      (hproc : s.procs t = .create id data addr) : UdpSection s (.create t false) (s.finish t)
  | move {a : UdpAct} {t : Tid} {p' : UdpProc} (hmove : UdpMove s t a (s.procs t) p') :
      UdpSection s a (s.setProc t p')
  | store {t : Tid} {c : UdpNo} {data : Bytes} {addr : UDPAddr} (hproc : s.procs t = .store c data addr) :
      UdpSection s (.run t)
        ({ s with udpConns := Function.update s.udpConns (s.conns c).connId (some c) }.setProc t
          (.touch c data addr))
  | touch {t : Tid} {c : UdpNo} {data : Bytes} {addr : UDPAddr} (hproc : s.procs t = .touch c data addr)
      (hlock : s.udplock = none) :
      UdpSection s (.run t)
        ({ s with udpConMap := Function.update s.udpConMap c (some (.int32 timeout)) }.setProc t
          (.receive c data addr))
  | queue {a : UdpAct} {t : Tid} {c : UdpNo} {data : Bytes} {addr : UDPAddr} {conn : UdpConn}
      (hstart : ReceiveStart s t c data addr a (s.procs t))
      (hqueue : ((s.conns c).arrive ⟨(s.conns c).calls, data, addr⟩).enqueueEarlyPacket
        ⟨(s.conns c).calls, data, addr⟩ = some conn) :
      UdpSection s a ((s.modConn c fun _ => conn.ret (s.conns c).calls none).finish t)
  | receive {a : UdpAct} {t : Tid} {c : UdpNo} {data : Bytes} {addr : UDPAddr}
      (hstart : ReceiveStart s t c data addr a (s.procs t))
      (hqueue : ((s.conns c).arrive ⟨(s.conns c).calls, data, addr⟩).enqueueEarlyPacket
        ⟨(s.conns c).calls, data, addr⟩ = none) :
      UdpSection s a
        ((s.modConn c fun conn => conn.arrive ⟨(s.conns c).calls, data, addr⟩).setProc t
          (.check c ⟨(s.conns c).calls, data, addr⟩))
  | writeFrom {t : Tid} {c : UdpNo} {data : List UInt8} {addr : UDPAddr} (hidle : s.procs t = .idle)
      (hc : c < s.created) (hdata : data ≠ []) :
      UdpSection s (.call t (.writeFrom c data addr))
        ((s.modConn c UdpConn.called).setProc t (.writeCheck c (s.conns c).calls data addr))
  | refuse {a : UdpAct} {t : Tid} {c : UdpNo} {r : UdpReturn}
      (hrefused : Refused s t c a (s.procs t) r) :
      UdpSection s a ((s.modConn c fun conn => conn.ret r.call r.err).finish t)
  | invoke {t : Tid} {c : UdpNo} {pkt : UdpPacket} (hproc : s.procs t = .check c pkt)
      (hcheck : (s.conns c).state.checkState = none) :
      UdpSection s (.run t) ((s.modConn c fun conn => conn.invoke pkt).setProc t (.handle c pkt))
  | handled {t : Tid} {c : UdpNo} {pkt : UdpPacket} {nilErr : Bool} (hproc : s.procs t = .handle c pkt) :
      UdpSection s (.handled t nilErr)
        ((s.modConn c fun conn => (conn.handled nilErr).ret pkt.call
          (if nilErr then none else some .writeProxyFailed)).finish t)
  | sendto {t : Tid} {c : UdpNo} {call : Nat} {data : List UInt8} {addr : UDPAddr}
      (hproc : s.procs t = .send c call data addr) :
      UdpSection s (.sendto t true)
        ((s.modConn c fun conn => { conn with sent := call :: conn.sent }.ret call none).finish t)
  | close {t : Tid} {c : UdpNo} {byAction : Bool} (hproc : s.procs t = .close c byAction) :
      UdpSection s (.run t) ((s.modConn c UdpConn.setClosed).setProc t (.unregister c byAction))
  | unregister {t : Tid} {c : UdpNo} {byAction : Bool} (hproc : s.procs t = .unregister c byAction) :
      UdpSection s (.run t) ((s.unregister c).setProc t (if byAction then .forget c else .idle))
  | action {t : Tid} (hidle : s.procs t = .idle) (hlock : s.udplock = none) :
      UdpSection s (.action t) { s.setProc t .range with udplock := some t }
  | rangeEnd {t : Tid} (hproc : s.procs t = .range) :
      UdpSection s (.run t) { s.setProc t .idle with udplock := none }
  | countDown {t : Tid} {c : UdpNo} {v : Int} (hproc : s.procs t = .range)
      (hentry : s.udpConMap c = some (.int v)) :
      UdpSection s (.visit t c)
        { s with udpConMap := Function.update s.udpConMap c (some (.int (v - 1))) }
  | forget {t : Tid} {c : UdpNo} (hproc : s.procs t = .forget c) :
      UdpSection s (.run t)
        ({ s with udpConMap := Function.update s.udpConMap c none }.setProc t (.unregisterAgain c))
  | unregisterAgain {t : Tid} {c : UdpNo} (hproc : s.procs t = .unregisterAgain c) :
      UdpSection s (.run t) ((s.unregister c).setProc t .range)
  | connect {c : UdpNo} {nilErr : Bool} (hc : c < s.created) (hat : s.connectors c = .connecting) :
      UdpSection s (.connect c nilErr) (s.setConnector c (if nilErr then .connected else .close))
  | connectorClose {c : UdpNo} (hc : c < s.created) (hat : s.connectors c = .close) :
      UdpSection s (.connector c) ((s.modConn c UdpConn.setClosed).setConnector c .unregister)
  | connectorUnregister {c : UdpNo} (hc : c < s.created) (hat : s.connectors c = .unregister) :
      UdpSection s (.connector c) ((s.unregister c).setConnector c .failed)
  | connected {c : UdpNo} (hc : c < s.created) (hat : s.connectors c = .connected) :
      UdpSection s (.connector c)
        ((s.modConn c fun conn => { conn with state := .udpConnected }).setConnector c .drain)
  | drain {c : UdpNo} {pkt : UdpPacket} {rest : List UdpPacket} (hc : c < s.created)
      (hat : s.connectors c = .drain) (hpending : (s.conns c).pending = some (pkt :: rest)) :
      UdpSection s (.connector c)
        ((s.modConn c fun conn => { conn with pending := some rest }.invoke pkt).setConnector c
          (.handle pkt))
  | drainEmpty {c : UdpNo} (hc : c < s.created) (hat : s.connectors c = .drain)
      (hpending : (s.conns c).pending = some [] ∨ (s.conns c).pending = none) :
      UdpSection s (.connector c) (s.setConnector c .clear)
  | drainEnd {c : UdpNo} (hc : c < s.created) (hat : s.connectors c = .clear) :
      UdpSection s (.connector c)
        ((s.modConn c fun conn => { conn with pending := none }).setConnector c .drained)
  | drained {c : UdpNo} {pkt : UdpPacket} {nilErr : Bool} (hat : s.connectors c = .handle pkt) :
      UdpSection s (.drained c nilErr)
        ((s.modConn c fun conn => conn.handled nilErr).setConnector c
          (if nilErr then .drain else .stopped))

namespace UdpStack

variable {s s' : UdpStack}

private theorem receiveTo_section {a : UdpAct} {t : Tid} {c : UdpNo} {data : Bytes} {addr : UDPAddr}
    (hstart : ReceiveStart s t c data addr a (s.procs t)) :
    UdpSection s a (s.receiveTo t c data addr) := by
  unfold receiveTo
  cases hqueue : ((s.conns c).arrive ⟨(s.conns c).calls, data, addr⟩).enqueueEarlyPacket
      ⟨(s.conns c).calls, data, addr⟩ with
  | some conn =>
    simp only [hqueue]
    exact .queue hstart hqueue
  | none =>
    simp only [hqueue]
    exact .receive hstart hqueue

theorem procStep_section {t : Tid} (hstep : s.procStep t = some s') : UdpSection s (.run t) s' := by
  unfold procStep at hstep
  cases hproc : s.procs t with
  | load id data addr =>
    simp only [hproc] at hstep
    cases hfound : s.udpConns id with
    | some c =>
      simp only [hfound, Option.some.injEq] at hstep
      subst hstep
      exact .move (hproc ▸ .found hfound)
    | none =>
      simp only [hfound, Option.some.injEq] at hstep
      subst hstep
      exact .move (hproc ▸ .absent hfound)
  | store c data addr =>
    simp only [hproc, Option.some.injEq] at hstep
    subst hstep
    exact .store hproc
  | touch c data addr =>
    simp only [hproc, Option.ite_none_right_eq_some, Option.some.injEq] at hstep
    obtain ⟨hlock, rfl⟩ := hstep
    exact .touch hproc hlock
  | receive c data addr =>
    simp only [hproc, Option.some.injEq] at hstep
    subst hstep
    exact receiveTo_section (hproc ▸ .recvFn)
  | check c pkt =>
    cases hcheck : (s.conns c).state.checkState with
    | some e =>
      simp only [hproc, hcheck, Option.some.injEq] at hstep
      subst hstep
      have hrefused : Refused s t c (.run t) (s.procs t) ⟨pkt.call, some e⟩ :=
        hproc ▸ .check hcheck
      exact .refuse hrefused
    | none =>
      simp only [hproc, hcheck, Option.some.injEq] at hstep
      subst hstep
      exact .invoke hproc hcheck
  | writeCheck c call data addr =>
    cases hcheck : (s.conns c).state.checkState with
    | some e =>
      simp only [hproc, hcheck, Option.some.injEq] at hstep
      subst hstep
      have hrefused : Refused s t c (.run t) (s.procs t) ⟨call, some e⟩ :=
        hproc ▸ .writeCheck hcheck
      exact .refuse hrefused
    | none =>
      simp only [hproc, hcheck, Option.some.injEq] at hstep
      subst hstep
      exact .move (hproc ▸ .writeCheck hcheck)
  | close c byAction =>
    simp only [hproc, Option.some.injEq] at hstep
    subst hstep
    exact .close hproc
  | unregister c byAction =>
    simp only [hproc, Option.some.injEq] at hstep
    subst hstep
    exact .unregister hproc
  | range =>
    simp only [hproc, Option.some.injEq] at hstep
    subst hstep
    exact .rangeEnd hproc
  | forget c =>
    simp only [hproc, Option.some.injEq] at hstep
    subst hstep
    exact .forget hproc
  | unregisterAgain c =>
    simp only [hproc, Option.some.injEq] at hstep
    subst hstep
    exact .unregisterAgain hproc
  | _ => simp [hproc] at hstep

private theorem connectorStep_section {c : UdpNo} (hc : c < s.created)
    (hstep : s.connectorStep c = some s') : UdpSection s (.connector c) s' := by
  unfold connectorStep at hstep
  cases hat : s.connectors c with
  | close =>
    simp only [hat, Option.some.injEq] at hstep
    subst hstep
    exact .connectorClose hc hat
  | unregister =>
    simp only [hat, Option.some.injEq] at hstep
    subst hstep
    exact .connectorUnregister hc hat
  | connected =>
    simp only [hat, Option.some.injEq] at hstep
    subst hstep
    exact .connected hc hat
  | drain =>
    simp only [hat] at hstep
    split at hstep
    · rename_i pkt rest hpending
      cases hstep
      exact .drain hc hat hpending
    · rename_i hpending
      cases hstep
      exact .drainEmpty hc hat (.inl hpending)
    · rename_i hpending
      cases hstep
      exact .drainEmpty hc hat (.inr hpending)
  | clear =>
    simp only [hat, Option.some.injEq] at hstep
    subst hstep
    exact .drainEnd hc hat
  | _ => simp [hat] at hstep

private theorem call_section {t : Tid} {op : UdpCall} (hstep : s.step (.call t op) = some s') :
    UdpSection s (.call t op) s' := by
  simp only [step, Option.ite_none_right_eq_some] at hstep
  obtain ⟨⟨hidle, hc⟩, hstep⟩ := hstep
  cases op with
  | receiveTo c data addr =>
    cases hstep
    exact receiveTo_section (hidle ▸ .call hc)
  | writeFrom c data addr =>
    dsimp only at hstep
    split at hstep
    · cases hstep
      exact .skip
    · cases hstep
      exact .writeFrom hidle hc ‹_›
  | close c =>
    cases hstep
    exact .move (hidle ▸ .close hc)

/-- Every step is one of these sections. -/
theorem step_section {a : UdpAct} (hstep : s.step a = some s') : UdpSection s a s' := by
  cases a with
  | recvFn t id data addr =>
    simp only [step, Option.ite_none_right_eq_some] at hstep
    obtain ⟨⟨hidle, hlwip⟩, hstep⟩ := hstep
    cases id with
    | none =>
      cases hstep
      exact .skip
    | some id =>
      cases hstep
      exact .recvFn hidle hlwip
  | create t registered =>
    simp only [step] at hstep
    split at hstep
    · rename_i hproc
      cases registered <;> cases hstep
      · exact .noHandler hproc
      · exact .create hproc
    · cases hstep
  | call t op => exact call_section hstep
  | handled t nilErr =>
    simp only [step] at hstep
    split at hstep
    · cases hstep
      exact .handled ‹_›
    · cases hstep
  | sendto t nilErr =>
    simp only [step] at hstep
    split at hstep
    · rename_i c call data addr hproc
      cases nilErr <;> cases hstep
      · have hrefused : Refused s t c (.sendto t false) (s.procs t)
            ⟨call, some .invalidAddress⟩ := hproc ▸ .sendto
        exact .refuse hrefused
      · exact .sendto hproc
    · cases hstep
  | run t => exact procStep_section hstep
  | action t =>
    simp only [step, Option.ite_none_right_eq_some, Option.some.injEq] at hstep
    obtain ⟨⟨hidle, hlock⟩, rfl⟩ := hstep
    exact .action hidle hlock
  | visit t c =>
    simp only [step] at hstep
    split at hstep
    · cases hstep
      exact .skip
    · rename_i v hproc hentry
      split at hstep
      · cases hstep
        exact .move (hproc ▸ .expire hentry ‹_›)
      · cases hstep
        exact .countDown hproc hentry
    · cases hstep
  | connect c nilErr =>
    simp only [step, Option.ite_none_right_eq_some, Option.some.injEq] at hstep
    obtain ⟨⟨hc, hat⟩, rfl⟩ := hstep
    exact .connect hc hat
  | connector c =>
    simp only [step, Option.ite_none_right_eq_some] at hstep
    exact connectorStep_section hstep.1 hstep.2
  | drained c nilErr =>
    simp only [step] at hstep
    split at hstep
    · cases hstep
      exact .drained ‹_›
    · cases hstep

end UdpStack

/-! ### One connection -/

/-- What a step from `s` to `s'` does to connection `c`, and where it leaves the
    goroutine that does it. -/
inductive UdpConnStep (s : UdpStack) (a : UdpAct) (s' : UdpStack) (c : UdpNo) : UdpConn → Prop where
  | same : UdpConnStep s a s' c (s.conns c)
  | new {t : Tid} {id : UdpConnId} {data : Bytes} {addr : UDPAddr} (hc : c = s.created)
      (hproc : s.procs t = .create id data addr) : UdpConnStep s a s' c (newUDPConn id)
  | queue {t : Tid} {data : Bytes} {addr : UDPAddr} {conn : UdpConn}
      (hstart : ReceiveStart s t c data addr a (s.procs t))
      (hqueue : ((s.conns c).arrive ⟨(s.conns c).calls, data, addr⟩).enqueueEarlyPacket
        ⟨(s.conns c).calls, data, addr⟩ = some conn)
      (hafter : s'.procs t = .idle) :
      UdpConnStep s a s' c (conn.ret (s.conns c).calls none)
  | receive {t : Tid} {data : Bytes} {addr : UDPAddr}
      (hstart : ReceiveStart s t c data addr a (s.procs t))
      (hqueue : ((s.conns c).arrive ⟨(s.conns c).calls, data, addr⟩).enqueueEarlyPacket
        ⟨(s.conns c).calls, data, addr⟩ = none)
      (hafter : s'.procs t = .check c ⟨(s.conns c).calls, data, addr⟩) :
      UdpConnStep s a s' c ((s.conns c).arrive ⟨(s.conns c).calls, data, addr⟩)
  | writeFrom {t : Tid} {data : List UInt8} {addr : UDPAddr}
      (hafter : s'.procs t = .writeCheck c (s.conns c).calls data addr) :
      UdpConnStep s a s' c (s.conns c).called
  | refuse {t : Tid} {r : UdpReturn} (hrefused : Refused s t c a (s.procs t) r)
      (hafter : s'.procs t = .idle) :
      UdpConnStep s a s' c ((s.conns c).ret r.call r.err)
  | invoke {t : Tid} {pkt : UdpPacket} (hproc : s.procs t = .check c pkt)
      (hcheck : (s.conns c).state.checkState = none) (hafter : s'.procs t = .handle c pkt) :
      UdpConnStep s a s' c ((s.conns c).invoke pkt)
  | handled {t : Tid} {pkt : UdpPacket} {nilErr : Bool} (hproc : s.procs t = .handle c pkt)
      (hafter : s'.procs t = .idle) :
      UdpConnStep s a s' c (((s.conns c).handled nilErr).ret pkt.call
        (if nilErr then none else some .writeProxyFailed))
  | sendto {t : Tid} {call : Nat} {data : List UInt8} {addr : UDPAddr}
      (hproc : s.procs t = .send c call data addr) (hafter : s'.procs t = .idle) :
      UdpConnStep s a s' c ({ s.conns c with sent := call :: (s.conns c).sent }.ret call none)
  | close (hafter : s'.connectors c = .unregister ∨ ∃ t byAction, s'.procs t = .unregister c byAction) :
      UdpConnStep s a s' c (s.conns c).setClosed
  | connected (hact : a = .connector c) (hat : s.connectors c = .connected) :
      UdpConnStep s a s' c { s.conns c with state := .udpConnected }
  | drain {pkt : UdpPacket} {rest : List UdpPacket} (hact : a = .connector c)
      (hat : s.connectors c = .drain) (hpending : (s.conns c).pending = some (pkt :: rest)) :
      UdpConnStep s a s' c ({ s.conns c with pending := some rest }.invoke pkt)
  | drainEnd (hat : s.connectors c = .clear) :
      UdpConnStep s a s' c { s.conns c with pending := none }
  | drained {nilErr : Bool} : UdpConnStep s a s' c ((s.conns c).handled nilErr)

/-- Steps that change one connection. -/
theorem UdpConnStep.of_modConn {s s' : UdpStack} {a : UdpAct} (c : UdpNo) (f : UdpConn → UdpConn)
    (hconns : s'.conns = (s.modConn c f).conns) (hstep : UdpConnStep s a s' c (f (s.conns c)))
    (c' : UdpNo) : UdpConnStep s a s' c' (s'.conns c') := by
  rw [hconns, UdpStack.modConn_conns]
  split
  · rename_i heq
    subst heq
    exact hstep
  · exact .same

theorem UdpSection.conns {s s' : UdpStack} {a : UdpAct} (hsec : UdpSection s a s') (c : UdpNo) :
    UdpConnStep s a s' c (s'.conns c) := by
  cases hsec with
  | create hproc =>
    simp only [Function.update_apply]
    split
    · exact .new ‹_› hproc
    · exact .same
  | @queue _ t c' data addr conn hstart hqueue =>
    refine .of_modConn c' (fun _ => conn.ret (s.conns c').calls none) ?_ ?_ c
    · rfl
    · exact .queue hstart hqueue (by simp)
  | @receive _ t c' data addr hstart hqueue =>
    refine .of_modConn c' (fun conn => conn.arrive ⟨(s.conns c').calls, data, addr⟩) ?_ ?_ c
    · rfl
    · exact .receive hstart hqueue (by simp)
  | @writeFrom t c' data addr _ _ _ =>
    refine .of_modConn c' UdpConn.called ?_ ?_ c
    · rfl
    · exact .writeFrom (UdpStack.setProc_procs _ t t _ |>.trans (if_pos rfl))
  | @refuse _ t c' r hrefused =>
    refine .of_modConn c' (fun conn => conn.ret r.call r.err) ?_ ?_ c
    · rfl
    · exact .refuse hrefused (by simp)
  | @invoke t c' pkt hproc hcheck =>
    refine .of_modConn c' (fun conn => conn.invoke pkt) ?_ ?_ c
    · rfl
    · exact .invoke hproc hcheck (by simp)
  | @handled t c' pkt nilErr hproc =>
    refine .of_modConn c' (fun conn => (conn.handled nilErr).ret pkt.call
      (if nilErr then none else some .writeProxyFailed)) ?_ ?_ c
    · rfl
    · exact .handled hproc (by simp)
  | @sendto t c' call data addr hproc =>
    refine .of_modConn c' (fun conn => { conn with sent := call :: conn.sent }.ret call none) ?_ ?_ c
    · rfl
    · exact .sendto hproc (by simp)
  | @close t c' byAction _ =>
    refine .of_modConn c' UdpConn.setClosed ?_ ?_ c
    · rfl
    · exact .close (.inr ⟨t, byAction, by simp⟩)
  | @connectorClose c' _ _ =>
    refine .of_modConn c' UdpConn.setClosed ?_ ?_ c
    · rfl
    · exact .close (.inl (by simp))
  | @connected c' _ hat =>
    refine .of_modConn c' (fun conn => { conn with state := .udpConnected }) ?_ (.connected rfl hat) c
    rfl
  | @drain c' pkt rest _ hat hpending =>
    refine .of_modConn c' (fun conn => { conn with pending := some rest }.invoke pkt) ?_
      (.drain rfl hat hpending) c
    rfl
  | @drainEnd c' _ hat =>
    refine .of_modConn c' (fun conn => { conn with pending := none }) ?_ (.drainEnd hat) c
    rfl
  | @drained c' _ nilErr _ =>
    refine .of_modConn c' (fun conn => conn.handled nilErr) ?_ .drained c
    rfl
  | _ => exact .same

theorem UdpSection.created_le_succ {s s' : UdpStack} {a : UdpAct} (hsec : UdpSection s a s') :
    s'.created ≤ s.created + 1 := by
  cases hsec with
  | create _ => exact Nat.le_refl _
  | _ => exact Nat.le_succ _

theorem UdpSection.created_le {s s' : UdpStack} {a : UdpAct} (hsec : UdpSection s a s') :
    s.created ≤ s'.created := by
  cases hsec with
  | create _ => exact Nat.le_succ _
  | _ => exact Nat.le_refl _

/-- Only `newUDPConn` makes a connection. -/
theorem UdpSection.created {s s' : UdpStack} {a : UdpAct} (hsec : UdpSection s a s')
    (hlt : s.created < s'.created) :
    ∃ t id data addr, s.procs t = .create id data addr ∧
      s' = { s.setProc t (.store s.created data addr) with
        created := s.created + 1
        conns := Function.update s.conns s.created (newUDPConn id)
        connectors := Function.update s.connectors s.created .connecting } := by
  cases hsec with
  | create hproc => exact ⟨_, _, _, _, hproc, rfl⟩
  | _ => exact absurd hlt (Nat.lt_irrefl _)

/-! ### One connect goroutine -/

/-- How a step from `s` to `s'` moves the goroutine of `newUDPConn` for `c`. -/
inductive ConnectorStep (s : UdpStack) (a : UdpAct) (s' : UdpStack) (c : UdpNo) :
    Connector → Connector → Prop where
  | same {g : Connector} : ConnectorStep s a s' c g g
  | new {g : Connector} (hc : c = s.created) (hafter : s'.created = s.created + 1) :
      ConnectorStep s a s' c g .connecting
  | succeed (hact : a = .connect c true) : ConnectorStep s a s' c .connecting .connected
  | fail (hact : a = .connect c false) : ConnectorStep s a s' c .connecting .close
  | close (hafter : s'.conns c = (s.conns c).setClosed) : ConnectorStep s a s' c .close .unregister
  | unregister (hact : a = .connector c) : ConnectorStep s a s' c .unregister .failed
  | connected (hafter : s'.conns c = { s.conns c with state := .udpConnected }) :
      ConnectorStep s a s' c .connected .drain
  | drain {pkt : UdpPacket} : ConnectorStep s a s' c .drain (.handle pkt)
  | empty (hpending : (s.conns c).pending = some [] ∨ (s.conns c).pending = none)
      (hafter : s'.conns c = s.conns c) : ConnectorStep s a s' c .drain .clear
  | drainEnd (hafter : s'.conns c = { s.conns c with pending := none }) :
      ConnectorStep s a s' c .clear .drained
  | handled {pkt : UdpPacket} (hact : a = .drained c true) :
      ConnectorStep s a s' c (.handle pkt) .drain
  | stop {pkt : UdpPacket} (hact : a = .drained c false)
      (hafter : s'.conns c = (s.conns c).handled false) :
      ConnectorStep s a s' c (.handle pkt) .stopped

/-- Steps that move one connect goroutine. -/
theorem ConnectorStep.of_update {s s' : UdpStack} {a : UdpAct} {c : UdpNo} {g : Connector}
    (hconnectors : s'.connectors = Function.update s.connectors c g)
    (hmove : ConnectorStep s a s' c (s.connectors c) g) (c' : UdpNo) :
    ConnectorStep s a s' c' (s.connectors c') (s'.connectors c') := by
  rw [hconnectors, Function.update_apply]
  split
  · rename_i heq
    subst heq
    exact hmove
  · exact .same

theorem UdpSection.connectors {s s' : UdpStack} {a : UdpAct} (hsec : UdpSection s a s') (c : UdpNo) :
    ConnectorStep s a s' c (s.connectors c) (s'.connectors c) := by
  cases hsec with
  | create _ => exact .of_update rfl (.new rfl rfl) c
  | @connect c' nilErr _ hat =>
    cases nilErr with
    | false => exact .of_update rfl (hat ▸ .fail rfl) c
    | true => exact .of_update rfl (hat ▸ .succeed rfl) c
  | connectorClose _ hat => exact .of_update rfl (hat ▸ .close (by simp)) c
  | connectorUnregister _ hat => exact .of_update rfl (hat ▸ .unregister rfl) c
  | connected _ hat => exact .of_update rfl (hat ▸ .connected (by simp)) c
  | drain _ hat _ => exact .of_update rfl (hat ▸ .drain) c
  | drainEmpty _ hat hpending => exact .of_update rfl (hat ▸ .empty hpending (by simp)) c
  | drainEnd _ hat => exact .of_update rfl (hat ▸ .drainEnd (by simp)) c
  | @drained c' pkt nilErr hat =>
    cases nilErr with
    | false => exact .of_update rfl (hat ▸ .stop rfl (by simp)) c
    | true => exact .of_update rfl (hat ▸ .handled rfl) c
  | _ => exact .same

/-! ### One goroutine -/

/-- The goroutine that enters the package. -/
def UdpAct.starts : UdpAct → Option Tid
  | .recvFn t _ _ _ | .call t _ | .action t => some t
  | _ => none

/-- How a section of goroutine `t` from `s` to `s'` moves it, and what a call makes of
    its connection. -/
inductive UdpOwn (s : UdpStack) (a : UdpAct) (s' : UdpStack) (t : Tid) :
    UdpProc → UdpProc → Prop where
  | recvFn {id : UdpConnId} {data : Bytes} {addr : UDPAddr} (hact : a.starts = some t)
      (hafter : s'.lwip = some t) :
      UdpOwn s a s' t .idle (.load id data addr)
  | create {id : UdpConnId} {data : Bytes} {addr : UDPAddr} (hafter : s'.created = s.created + 1) :
      UdpOwn s a s' t (.create id data addr) (.store s.created data addr)
  | noHandler {id : UdpConnId} {data : Bytes} {addr : UDPAddr} :
      UdpOwn s a s' t (.create id data addr) .idle
  | move {p p' : UdpProc} (hmove : UdpMove s t a p p') : UdpOwn s a s' t p p'
  | store {c : UdpNo} {data : Bytes} {addr : UDPAddr} (hact : a = .run t) :
      UdpOwn s a s' t (.store c data addr) (.touch c data addr)
  | touch {c : UdpNo} {data : Bytes} {addr : UDPAddr} :
      UdpOwn s a s' t (.touch c data addr) (.receive c data addr)
  | queue {p : UdpProc} {c : UdpNo} {data : Bytes} {addr : UDPAddr}
      (hstart : ReceiveStart s t c data addr a p) : UdpOwn s a s' t p .idle
  | receive {p : UdpProc} {c : UdpNo} {data : Bytes} {addr : UDPAddr}
      (hstart : ReceiveStart s t c data addr a p)
      (hafter : s'.conns c = (s.conns c).arrive ⟨(s.conns c).calls, data, addr⟩) :
      UdpOwn s a s' t p (.check c ⟨(s.conns c).calls, data, addr⟩)
  | writeFrom {c : UdpNo} {data : List UInt8} {addr : UDPAddr}
      (hact : a = .call t (.writeFrom c data addr)) (hc : c < s.created)
      (hafter : s'.conns c = (s.conns c).called) :
      UdpOwn s a s' t .idle (.writeCheck c (s.conns c).calls data addr)
  | refuse {p : UdpProc} {c : UdpNo} {r : UdpReturn} (hrefused : Refused s t c a p r)
      (hafter : s'.conns c = (s.conns c).ret r.call r.err) :
      UdpOwn s a s' t p .idle
  | invoke {c : UdpNo} {pkt : UdpPacket} (hcheck : (s.conns c).state.checkState = none)
      (hafter : s'.conns c = (s.conns c).invoke pkt) :
      UdpOwn s a s' t (.check c pkt) (.handle c pkt)
  | handled {c : UdpNo} {pkt : UdpPacket} {nilErr : Bool} (hact : a = .handled t nilErr)
      (hafter : s'.conns c = ((s.conns c).handled nilErr).ret pkt.call
        (if nilErr then none else some .writeProxyFailed)) :
      UdpOwn s a s' t (.handle c pkt) .idle
  | sendto {c : UdpNo} {call : Nat} {data : List UInt8} {addr : UDPAddr}
      (hafter : s'.conns c = { s.conns c with sent := call :: (s.conns c).sent }.ret call none) :
      UdpOwn s a s' t (.send c call data addr) .idle
  | close {c : UdpNo} {byAction : Bool} (hafter : s'.conns c = (s.conns c).setClosed) :
      UdpOwn s a s' t (.close c byAction) (.unregister c byAction)
  | unregister {c : UdpNo} (hact : a = .run t) : UdpOwn s a s' t (.unregister c false) .idle
  | unregisterAction {c : UdpNo} (hact : a = .run t) :
      UdpOwn s a s' t (.unregister c true) (.forget c)
  | action (hact : a.starts = some t) : UdpOwn s a s' t .idle .range
  | rangeEnd : UdpOwn s a s' t .range .idle
  | forget {c : UdpNo} : UdpOwn s a s' t (.forget c) (.unregisterAgain c)
  | unregisterAgain {c : UdpNo} (hact : a = .run t) : UdpOwn s a s' t (.unregisterAgain c) .range

/-- Steps that move one goroutine. -/
theorem UdpOwn.of_update {s s' : UdpStack} {a : UdpAct} {t t' : Tid} {p' : UdpProc}
    (hprocs : s'.procs = Function.update s.procs t' p') (hown : UdpOwn s a s' t' (s.procs t') p') :
    s'.procs t = s.procs t ∨ UdpOwn s a s' t (s.procs t) (s'.procs t) := by
  rw [hprocs, Function.update_apply]
  split
  · rename_i heq
    subst heq
    exact .inr hown
  · exact .inl rfl

theorem UdpSection.procs {s s' : UdpStack} {a : UdpAct} (hsec : UdpSection s a s') (t : Tid) :
    s'.procs t = s.procs t ∨ UdpOwn s a s' t (s.procs t) (s'.procs t) := by
  cases hsec with
  | recvFn hidle _ => exact UdpOwn.of_update rfl (hidle ▸ .recvFn rfl rfl)
  | create hproc => exact UdpOwn.of_update rfl (hproc ▸ .create rfl)
  | noHandler hproc => exact UdpOwn.of_update rfl (hproc ▸ .noHandler)
  | move hmove => exact UdpOwn.of_update rfl (.move hmove)
  | store hproc => exact UdpOwn.of_update rfl (hproc ▸ .store rfl)
  | touch hproc _ => exact UdpOwn.of_update rfl (hproc ▸ .touch)
  | queue hstart _ => exact UdpOwn.of_update rfl (.queue hstart)
  | receive hstart _ => exact UdpOwn.of_update rfl (.receive hstart (by simp))
  | writeFrom hidle hc _ => exact UdpOwn.of_update rfl (hidle ▸ .writeFrom rfl hc (by simp))
  | refuse hrefused => exact UdpOwn.of_update rfl (.refuse hrefused (by simp))
  | invoke hproc hcheck => exact UdpOwn.of_update rfl (hproc ▸ .invoke hcheck (by simp))
  | handled hproc => exact UdpOwn.of_update rfl (hproc ▸ .handled rfl (by simp))
  | sendto hproc => exact UdpOwn.of_update rfl (hproc ▸ .sendto (by simp))
  | close hproc => exact UdpOwn.of_update rfl (hproc ▸ .close (by simp))
  | @unregister t' c byAction hproc =>
    cases byAction with
    | false => exact UdpOwn.of_update rfl (hproc ▸ .unregister rfl)
    | true => exact UdpOwn.of_update rfl (hproc ▸ .unregisterAction rfl)
  | action hidle _ => exact UdpOwn.of_update rfl (hidle ▸ .action rfl)
  | rangeEnd hproc => exact UdpOwn.of_update rfl (hproc ▸ .rangeEnd)
  | forget hproc => exact UdpOwn.of_update rfl (hproc ▸ .forget)
  | unregisterAgain hproc => exact UdpOwn.of_update rfl (hproc ▸ .unregisterAgain rfl)
  | _ => exact .inl rfl

/-- A step moves at most one goroutine. -/
theorem UdpSection.others {s s' : UdpStack} {a : UdpAct} (hsec : UdpSection s a s') :
    ∃ t, ∀ t', t' ≠ t → s'.procs t' = s.procs t' := by
  cases hsec with
  | @recvFn t _ _ _ _ _ | @create t _ _ _ _ | @noHandler t _ _ _ _ | @move _ t _ _ | @store t _ _ _ _
  | @touch t _ _ _ _ _ | @queue _ t _ _ _ _ _ _ | @receive _ t _ _ _ _ _ | @writeFrom t _ _ _ _ _ _
  | @refuse _ t _ _ _ | @invoke t _ _ _ _ | @handled t _ _ _ _ | @sendto t _ _ _ _ _ | @close t _ _ _
  | @unregister t _ _ _ | @action t _ _ | @rangeEnd t _ | @forget t _ _ | @unregisterAgain t _ _ =>
    exact ⟨t, fun t' hne => Function.update_of_ne hne _ _⟩
  | _ => exact ⟨0, fun _ _ => rfl⟩

theorem UdpSection.idle {s s' : UdpStack} {a : UdpAct} (hsec : UdpSection s a s') {t : Tid}
    (hidle : s.procs t = .idle) (hstarts : a.starts ≠ some t) : s'.procs t = .idle := by
  obtain hsame | hown := hsec.procs t
  · rw [hsame, hidle]
  rw [hidle] at hown
  generalize s'.procs t = p' at hown
  cases hown with
  | queue _ => rfl
  | receive hstart _ =>
    cases hstart with
    | call _ => exact absurd rfl hstarts
  | recvFn hact _ | action hact => exact absurd hact hstarts
  | writeFrom hact _ _ =>
    subst hact
    exact absurd rfl hstarts
  | move hmove =>
    cases hmove with
    | close _ => exact absurd rfl hstarts
  | refuse _ _ => rfl

/-- The number of the call on `c` that the goroutine is in. -/
def UdpProc.callOn (c : UdpNo) : UdpProc → Option Nat
  | .check c' pkt | .handle c' pkt => if c' = c then some pkt.call else none
  | .writeCheck c' call _ _ | .send c' call _ _ => if c' = c then some call else none
  | _ => none

theorem Refused.callOn {s : UdpStack} {t : Tid} {c : UdpNo} {a : UdpAct} {p : UdpProc} {r : UdpReturn}
    (hrefused : Refused s t c a p r) : p.callOn c = some r.call := by
  cases hrefused <;> exact if_pos rfl

/-- A call is new or it was under way before. -/
theorem UdpSection.callOn {s s' : UdpStack} {a : UdpAct} (hsec : UdpSection s a s') {t : Tid}
    {c : UdpNo} {n : Nat} (h : (s'.procs t).callOn c = some n) :
    (s.procs t).callOn c = some n ∨ n = (s.conns c).calls ∧ (s'.conns c).calls = n + 1 := by
  obtain hsame | hown := hsec.procs t
  · exact .inl (hsame ▸ h)
  generalize s.procs t = p at hown
  generalize s'.procs t = p' at hown h
  cases hown with
  | receive _ hafter | writeFrom _ _ hafter =>
    simp only [UdpProc.callOn] at h
    split at h
    · rename_i heq
      subst heq
      cases h
      exact .inr ⟨rfl, hafter ▸ rfl⟩
    · cases h
  | move hmove =>
    cases hmove with
    | writeCheck _ => exact .inl h
    | _ => cases h
  | invoke _ _ => exact .inl h
  | _ => cases h

/-- A call that is under way stays so until it returns. -/
theorem UdpSection.callOn_or_returned {s s' : UdpStack} {a : UdpAct} (hsec : UdpSection s a s')
    {t : Tid} {c : UdpNo} {n : Nat} (h : (s.procs t).callOn c = some n) :
    (s'.procs t).callOn c = some n ∨ ∃ e, ⟨n, e⟩ ∈ (s'.conns c).returned := by
  obtain hsame | hown := hsec.procs t
  · exact .inl (hsame ▸ h)
  generalize s.procs t = p at hown h
  generalize s'.procs t = p' at hown
  cases hown with
  | queue hstart | receive hstart _ => cases hstart <;> cases h
  | move hmove =>
    cases hmove with
    | writeCheck _ => exact .inl h
    | _ => cases h
  | invoke _ _ => exact .inl h
  | refuse hrefused hafter =>
    cases hrefused <;>
    · simp only [UdpProc.callOn, Option.ite_none_right_eq_some, Option.some.injEq] at h
      obtain ⟨rfl, rfl⟩ := h
      rw [hafter]
      exact .inr ⟨_, List.mem_cons_self⟩
  | handled _ hafter | sendto hafter =>
    simp only [UdpProc.callOn, Option.ite_none_right_eq_some, Option.some.injEq] at h
    obtain ⟨rfl, rfl⟩ := h
    rw [hafter]
    exact .inr ⟨_, List.mem_cons_self⟩
  | _ => cases h

end tun2proxy.core
