import Tun2Proxy.Lib.Range
import Tun2Proxy.Tcp.Forward
import Tun2Proxy.Tcp.Owned
import Tun2Proxy.UdpConn.Unregister

open tun2proxy.machine tun2proxy.machine.Machine tun2proxy.udppackage

namespace tun2proxy.core

/-- Where `lwipStack.Close` stands. Its `Abort` and `Close` calls run as goroutine `t`
    of the connections' machines. -/
inductive CloseAt where
  -- not called
  | fresh
  -- the context is cancelled, before the walk over `tcpConns`
  | cancelled
  | tcpRange (r : Range UInt32)
  | tcpAbort (r : Range UInt32) (t : Tid) (c : ConnId)
  | udpRange (r : Range UdpConnId)
  | udpClose (r : Range UdpConnId) (t : Tid) (c : UdpNo)
  -- before the section under `lwipMutex`
  | detach
  | returned
  deriving DecidableEq

/-- The goroutine inside `Close` of a UDP connection. -/
def CloseAt.udpSlot : CloseAt → Option Tid
  | .udpClose _ t _ => some t
  | _ => none

/-- Who runs lwIP: a `Write`, or the timeout goroutine. -/
inductive Runner where
  | write (t : Tid)
  | timeouts
  deriving DecidableEq

def Runner.isWrite : Runner → Bool
  | .write _ => true
  | .timeouts => false

/-- The package state after `NewLWIPStack`. -/
structure LwipStack where
  tcp : Stack
  udp : UdpStack
  -- `ctx` is done
  ctxDone : Bool
  -- the timeout goroutine has returned
  timeoutsDone : Bool
  -- `Write` is past its look at `ctx`, before `lwipMutex.Lock`
  writes : Tid → Bool
  runner : Option Runner
  close : CloseAt

/-- The atomic sections of the stack, its connections and their handlers. -/
inductive StackAct where
  -- `Write` looks at `ctx`
  | write (t : Tid)
  -- `input` takes `lwipMutex`
  | input (t : Tid)
  -- the timeout goroutine takes it, or returns
  | checkTimeouts
  | timeoutsReturn
  -- either gives it back
  | leave
  | tcp (a : Act)
  | udp (a : UdpAct)
  -- `Close`
  | cancel
  | rangeTcp
  | visitTcp (key : UInt32) (t : Tid)
  | aborted
  | rangeUdp
  | visitUdp (id : UdpConnId) (t : Tid)
  | closed
  | rangeEnd
  | detach
  deriving DecidableEq

/-- The section belongs to lwIP, or to a callback that lwIP begins. -/
def Act.byLwip : Act → Bool
  | .recv _ _ | .recvFin _ | .refused _ | .sent _ | .poll _ | .err _ _ | .tcp _ _ => true
  | _ => false

/-- The goroutine in which lwIP calls `udpRecvFn`. -/
def UdpAct.recvFnBy : UdpAct → Option Tid
  | .recvFn t _ _ _ => some t
  | _ => none

namespace LwipStack

/-- lwIP is inside a `Write`, between callbacks, with the listeners in place. -/
def listening (s : LwipStack) : Prop :=
  s.close ≠ .returned ∧ s.runner.any Runner.isWrite ∧ s.tcp.holder = .lwip none ∧ s.udp.lwip = none

instance (s : LwipStack) : Decidable s.listening := inferInstanceAs (Decidable (_ ∧ _ ∧ _ ∧ _))

/-- When a TCP section can come; `lwipMutex` is taken and given back by other acts, except
    at the end of `tcp_process_refused_data`. -/
def tcpEnabled (s : LwipStack) : Act → Prop
  | .lwipLock => False
  | .lwipUnlock => s.tcp.holder ≠ .lwip none
  | .accept _ => s.listening
  | .call _ op => (s.tcp.conns op.conn).started
  | a => a.byLwip → s.udp.lwip = none

def udpEnabled (s : LwipStack) (a : UdpAct) : Prop :=
  (∀ t ∈ a.starts, s.close.udpSlot ≠ some t) ∧
    ∀ t ∈ a.recvFnBy, s.listening ∧ s.runner = some (.write t)

instance (s : LwipStack) : (a : Act) → Decidable (s.tcpEnabled a)
  | .lwipLock => inferInstanceAs (Decidable False)
  | .lwipUnlock => inferInstanceAs (Decidable (s.tcp.holder ≠ .lwip none))
  | .accept _ => inferInstanceAs (Decidable s.listening)
  | .call _ op => inferInstanceAs (Decidable ((s.tcp.conns op.conn).started = true))
  | .acceptDone _ | .recv _ _ | .recvFin _ | .refused _ | .sent _ | .poll _ | .err _ _ | .tcp _ _
  | .task | .handled _ _ | .write _ _ _ | .shutdown _ _ | .run _ | .pipe _ =>
    inferInstanceAs (Decidable (_ = true → s.udp.lwip = none))

instance (s : LwipStack) (a : UdpAct) : Decidable (s.udpEnabled a) :=
  inferInstanceAs (Decidable ((∀ t ∈ a.starts, s.close.udpSlot ≠ some t) ∧
    ∀ t ∈ a.recvFnBy, s.listening ∧ s.runner = some (.write t)))

/-- The keys of `tcpConns` and `udpConns`. -/
def tcpKeys (s : LwipStack) : List UInt32 :=
  ((List.range s.tcp.accepted).filter fun c => s.tcp.lookup c = some c).map fun c =>
    (s.tcp.conns c).connKey

def udpKeys (s : LwipStack) : List UdpConnId :=
  ((List.range s.udp.created).filter fun c => s.udp.udpConns (s.udp.conns c).connId = some c).map
    fun c => (s.udp.conns c).connId

/-- The next place in `Close`; `none` where the section does not belong to it or cannot
    come. -/
def closeStep (s : LwipStack) (a : StackAct) : Option CloseAt :=
  match s.close, a with
  | .fresh, .cancel => some .cancelled
  | .cancelled, .rangeTcp => some (.tcpRange ⟨s.tcpKeys, []⟩)
  | .tcpRange r, .visitTcp key t =>
    if key ∈ r.visited then none
    else
      match s.tcp.tcpConns key with
      | some c => some (.tcpAbort (r.visit key) t c)
      | none => some (.tcpRange (r.visit key))
  | .tcpAbort r t c, .aborted => if s.tcp.procs t = .aborted c then some (.tcpRange r) else none
  | .tcpRange r, .rangeUdp => if r.done then some (.udpRange ⟨s.udpKeys, []⟩) else none
  | .udpRange r, .visitUdp id t =>
    if id ∈ r.visited then none
    else
      match s.udp.udpConns id with
      | some c => some (.udpClose (r.visit id) t c)
      | none => some (.udpRange (r.visit id))
  | .udpClose r t _, .closed => if s.udp.procs t = .idle then some (.udpRange r) else none
  | .udpRange r, .rangeEnd => if r.done then some .detach else none
  | .detach, .detach => if s.tcp.holder = .free then some .returned else none
  | _, _ => none

/-- The section of the TCP part that an act consists of. -/
def tcpAct (s : LwipStack) : StackAct → Option Act
  | .input _ | .checkTimeouts => some .lwipLock
  | .leave => some .lwipUnlock
  | .tcp a => some a
  | .visitTcp key t => (s.tcp.tcpConns key).map fun c => .call t (.abort c)
  | _ => none

def udpAct (s : LwipStack) : StackAct → Option UdpAct
  | .udp a => some a
  | .visitUdp id t => (s.udp.udpConns id).map fun c => .call t (.close c)
  | _ => none

/-- What an act does outside the TCP and the UDP part. -/
def control (s : LwipStack) : StackAct → Option LwipStack
  | .write t =>
    if s.writes t = false ∧ s.runner ≠ some (.write t) then
      some { s with writes := Function.update s.writes t (!s.ctxDone) }
    else none
  | .input t =>
    if s.writes t then
      some { s with writes := Function.update s.writes t false, runner := some (.write t) }
    else none
  | .checkTimeouts =>
    if s.timeoutsDone = false then some { s with runner := some .timeouts } else none
  | .timeoutsReturn =>
    if s.ctxDone ∧ s.runner ≠ some .timeouts then some { s with timeoutsDone := true } else none
  | .leave =>
    if s.tcp.holder = .lwip none ∧ s.udp.lwip = none then some { s with runner := none } else none
  | .tcp a => if s.tcpEnabled a then some s else none
  | .udp a => if s.udpEnabled a then some s else none
  | .cancel => (s.closeStep .cancel).map fun close => { s with close, ctxDone := true }
  | a => (s.closeStep a).map fun close => { s with close }

/-- One atomic section. -/
def step (s : LwipStack) (a : StackAct) : Option LwipStack :=
  (s.control a).bind fun next =>
    (tcpMachine.advance s.tcp (s.tcpAct a)).bind fun tcp =>
      (udpMachine.advance s.udp (s.udpAct a)).map fun udp => { next with tcp, udp }

def init : LwipStack :=
  { tcp := .init
    udp := .init
    ctxDone := false
    timeoutsDone := false
    writes := fun _ => false
    runner := none
    close := .fresh }

end LwipStack

/-- The machine of the whole package: any interleaving of its atomic sections. -/
def stackMachine : Machine LwipStack StackAct := ⟨LwipStack.init, LwipStack.step⟩

/-! ### One step -/

/-- What a section of `Close` does. -/
inductive CloseMove (s : LwipStack) : StackAct → CloseAt → CloseAt → Prop where
  | cancel : CloseMove s .cancel .fresh .cancelled
  | rangeTcp : CloseMove s .rangeTcp .cancelled (.tcpRange ⟨s.tcpKeys, []⟩)
  | visitTcp {r : Range UInt32} {key : UInt32} {t : Tid} {c : ConnId}
      (hkey : s.tcp.tcpConns key = some c) :
      CloseMove s (.visitTcp key t) (.tcpRange r) (.tcpAbort (r.visit key) t c)
  | skipTcp {r : Range UInt32} {key : UInt32} {t : Tid} (hkey : s.tcp.tcpConns key = none) :
      CloseMove s (.visitTcp key t) (.tcpRange r) (.tcpRange (r.visit key))
  | aborted {r : Range UInt32} {t : Tid} {c : ConnId} (hproc : s.tcp.procs t = .aborted c) :
      CloseMove s .aborted (.tcpAbort r t c) (.tcpRange r)
  | rangeUdp {r : Range UInt32} (hdone : r.done) :
      CloseMove s .rangeUdp (.tcpRange r) (.udpRange ⟨s.udpKeys, []⟩)
  | visitUdp {r : Range UdpConnId} {id : UdpConnId} {t : Tid} {c : UdpNo}
      (hid : s.udp.udpConns id = some c) :
      CloseMove s (.visitUdp id t) (.udpRange r) (.udpClose (r.visit id) t c)
  | skipUdp {r : Range UdpConnId} {id : UdpConnId} {t : Tid} (hid : s.udp.udpConns id = none) :
      CloseMove s (.visitUdp id t) (.udpRange r) (.udpRange (r.visit id))
  | closed {r : Range UdpConnId} {t : Tid} {c : UdpNo} (hproc : s.udp.procs t = .idle) :
      CloseMove s .closed (.udpClose r t c) (.udpRange r)
  | rangeEnd {r : Range UdpConnId} (hdone : r.done) :
      CloseMove s .rangeEnd (.udpRange r) .detach
  | detach (hfree : s.tcp.holder = .free) : CloseMove s .detach .detach .returned

/-- What one atomic section does to the parts of the stack. -/
structure StackStep (s : LwipStack) (a : StackAct) (s' : LwipStack) : Prop where
  tcp : tcpMachine.advance s.tcp (s.tcpAct a) = some s'.tcp
  udp : udpMachine.advance s.udp (s.udpAct a) = some s'.udp
  close : CloseMove s a s.close s'.close ∨
    s'.close = s.close ∧ ∀ b ∈ s.udpAct a, a = .udp b ∧ s.udpEnabled b

namespace LwipStack

variable {s s' : LwipStack} {a : StackAct}

private theorem closeStep_move {close : CloseAt} (h : s.closeStep a = some close) :
    CloseMove s a s.close close := by
  unfold closeStep at h
  generalize s.close = here at h ⊢
  split at h
  · cases h
    exact .cancel
  · cases h
    exact .rangeTcp
  · obtain ⟨_, h⟩ := Option.ite_none_left_eq_some.mp h
    split at h
    · cases h
      exact .visitTcp ‹_›
    · cases h
      exact .skipTcp ‹_›
  · obtain ⟨hproc, h⟩ := Option.ite_none_right_eq_some.mp h
    cases h
    exact .aborted hproc
  · obtain ⟨hdone, h⟩ := Option.ite_none_right_eq_some.mp h
    cases h
    exact .rangeUdp hdone
  · obtain ⟨_, h⟩ := Option.ite_none_left_eq_some.mp h
    split at h
    · cases h
      exact .visitUdp ‹_›
    · cases h
      exact .skipUdp ‹_›
  · obtain ⟨hproc, h⟩ := Option.ite_none_right_eq_some.mp h
    cases h
    exact .closed hproc
  · obtain ⟨hdone, h⟩ := Option.ite_none_right_eq_some.mp h
    cases h
    exact .rangeEnd hdone
  · obtain ⟨hfree, h⟩ := Option.ite_none_right_eq_some.mp h
    cases h
    exact .detach hfree
  · cases h

/-- An act is a section of `Close`, or it leaves `Close` where it stands. -/
theorem control_close {next : LwipStack} (h : s.control a = some next) :
    CloseMove s a s.close next.close ∨
      next.close = s.close ∧ ∀ b ∈ s.udpAct a, a = .udp b ∧ s.udpEnabled b := by
  have hmove {f : CloseAt → LwipStack} (hf : ∀ close, (f close).close = close)
      (h : (s.closeStep a).map f = some next) : CloseMove s a s.close next.close := by
    obtain ⟨close, hclose, rfl⟩ := Option.map_eq_some_iff.mp h
    rw [hf]
    exact closeStep_move hclose
  cases a with
  | write t | input t | checkTimeouts | timeoutsReturn | leave | tcp b =>
    obtain ⟨_, h⟩ := Option.ite_none_right_eq_some.mp h
    cases h
    exact .inr ⟨rfl, fun b hb => by cases hb⟩
  | udp b =>
    obtain ⟨henabled, h⟩ := Option.ite_none_right_eq_some.mp h
    cases h
    refine .inr ⟨rfl, fun b' hb' => ?_⟩
    cases hb'
    exact ⟨rfl, henabled⟩
  | _ => exact .inl (hmove (fun _ => rfl) h)

theorem step_stack (hstep : stackMachine.step s a = some s') : StackStep s a s' := by
  obtain ⟨next, hcontrol, h⟩ := Option.bind_eq_some_iff.mp hstep
  obtain ⟨tcp, htcp, h⟩ := Option.bind_eq_some_iff.mp h
  obtain ⟨udp, hudp, rfl⟩ := Option.map_eq_some_iff.mp h
  have hclose := control_close hcontrol
  exact ⟨htcp, hudp, hclose⟩

end LwipStack

end tun2proxy.core
