import Tun2Proxy.Lib.Agenda
import Tun2Proxy.Lib.Machine
import Tun2Proxy.Lwip.Receive

open tun2proxy.circular tun2proxy.machine tun2proxy.agenda

namespace tun2proxy.core

def LWIP_UINT32_MAX : BitVec 32 := 0xffffffff

def LWIP_MAX_TIMEOUT : BitVec 32 := 0x7fffffff

/-- `t` lies before `compare_to` on a clock that wraps. -/
def TIME_LESS_THAN (t compare_to : BitVec 32) : Prop := LWIP_MAX_TIMEOUT < t - compare_to

instance (t compare_to : BitVec 32) : Decidable (TIME_LESS_THAN t compare_to) :=
  inferInstanceAs (Decidable (_ < _))

def TCP_TMR_INTERVAL : BitVec 32 := 250

def IP_TMR_INTERVAL : BitVec 32 := 1000

def ND6_TMR_INTERVAL : BitVec 32 := 1000

def IP6_REASS_TMR_INTERVAL : BitVec 32 := 1000

/-- The handlers of the timers that `lwipopts.h` leaves in the table. -/
inductive CyclicHandler where
  | tcp_tmr
  | ip_reass_tmr
  | nd6_tmr
  | ip6_reass_tmr
  deriving DecidableEq, Repr

/-- `struct lwip_cyclic_timer`. -/
structure CyclicTimer where
  interval_ms : BitVec 32
  handler : CyclicHandler
  deriving DecidableEq, Repr

/-- The table of `timeouts.c`, with the timers that this build has. The first entry is that of
    `tcp_tmr`, which `sys_timeouts_init` skips. -/
def lwip_cyclic_timers : List CyclicTimer :=
  [⟨TCP_TMR_INTERVAL, .tcp_tmr⟩, ⟨IP_TMR_INTERVAL, .ip_reass_tmr⟩, ⟨ND6_TMR_INTERVAL, .nd6_tmr⟩,
    ⟨IP6_REASS_TMR_INTERVAL, .ip6_reass_tmr⟩]

/-- A `sys_timeout_handler` and its argument. -/
inductive TimeoutHandler where
  | tcpip_tcp_timer
  | lwip_cyclic_timer (cyclic : CyclicTimer)
  deriving DecidableEq, Repr

/-- `struct sys_timeo`. -/
structure SysTimeo where
  time : BitVec 32
  h : TimeoutHandler
  deriving DecidableEq, Repr

/-- The variables of `timeouts.c`, and how many pcbs are in `tcp_active_pcbs` and
    `tcp_tw_pcbs`. -/
structure Timeouts where
  next_timeout : List SysTimeo
  current_timeout_due_time : BitVec 32
  tcpip_tcp_timer_active : Bool
  pcbs : Nat
  deriving DecidableEq, Repr

/-- The loop of `sys_timeout_abs` over what follows `t`. -/
def linkBehind (timeout : SysTimeo) : List SysTimeo → List SysTimeo
  | [] => [timeout]
  | next :: rest =>
    if TIME_LESS_THAN timeout.time next.time then timeout :: next :: rest
    else next :: linkBehind timeout rest

namespace Timeouts

/-- `allocated` is the answer of `memp_malloc`. -/
def sys_timeout_abs (s : Timeouts) (abs_time : BitVec 32) (handler : TimeoutHandler)
    (allocated : Bool) : Option Timeouts := do
  LWIP_ASSERT (allocated = true)
  let timeout := ⟨abs_time, handler⟩
  match s.next_timeout with
  | [] => return { s with next_timeout := [timeout] }
  | t :: rest =>
    if TIME_LESS_THAN timeout.time t.time then
      return { s with next_timeout := timeout :: t :: rest }
    else
      return { s with next_timeout := t :: linkBehind timeout rest }

/-- The handler is due `msecs` from now. -/
def sys_timeout (s : Timeouts) (sys_now msecs : BitVec 32) (handler : TimeoutHandler)
    (allocated : Bool) : Option Timeouts := do
  LWIP_ASSERT (msecs ≤ LWIP_UINT32_MAX / 4)
  s.sys_timeout_abs (sys_now + msecs) handler allocated

/-- `tcp_timer_needed`, called when a pcb is registered: it starts `tcpip_tcp_timer` unless that
    runs. -/
def tcp_timer_needed (s : Timeouts) (sys_now : BitVec 32) (allocated : Bool) : Option Timeouts :=
  if s.tcpip_tcp_timer_active = false ∧ 0 < s.pcbs then
    { s with tcpip_tcp_timer_active := true }.sys_timeout sys_now TCP_TMR_INTERVAL
      .tcpip_tcp_timer allocated
  else some s

/-- `TCP_REG`; `counted` is false for the bound and the listening pcbs. -/
def TCP_REG (s : Timeouts) (counted : Bool) (sys_now : BitVec 32) (allocated : Bool) :
    Option Timeouts :=
  { s with pcbs := s.pcbs + counted.toNat }.tcp_timer_needed sys_now allocated

/-- `lwip_cyclic_timer` from the end of `cyclic->handler()`. -/
def lwip_cyclic_timer (s : Timeouts) (cyclic : CyclicTimer) (now : BitVec 32) (allocated : Bool) :
    Option Timeouts :=
  let next_timeout_time := s.current_timeout_due_time + cyclic.interval_ms
  if TIME_LESS_THAN next_timeout_time now then
    s.sys_timeout_abs (now + cyclic.interval_ms) (.lwip_cyclic_timer cyclic) allocated
  else s.sys_timeout_abs next_timeout_time (.lwip_cyclic_timer cyclic) allocated

/-- `tcpip_tcp_timer` from the end of `tcp_tmr()`. -/
def tcpip_tcp_timer (s : Timeouts) (sys_now : BitVec 32) (allocated : Bool) : Option Timeouts :=
  if 0 < s.pcbs then s.sys_timeout sys_now TCP_TMR_INTERVAL .tcpip_tcp_timer allocated
  else some { s with tcpip_tcp_timer_active := false }

/-- The end of a handler, which may register itself again. -/
def handled (s : Timeouts) (sys_now : BitVec 32) (allocated : Bool) :
    TimeoutHandler → Option Timeouts
  | .tcpip_tcp_timer => s.tcpip_tcp_timer sys_now allocated
  | .lwip_cyclic_timer cyclic => s.lwip_cyclic_timer cyclic sys_now allocated

/-- A round of the loop of `sys_check_timeouts` up to the call of the handler; `none`
    where the loop returns. -/
def expired (s : Timeouts) (now : BitVec 32) : Option (TimeoutHandler × Timeouts) :=
  match s.next_timeout with
  | [] => none
  | tmptimeout :: next =>
    if TIME_LESS_THAN now tmptimeout.time then none
    else some (tmptimeout.h,
      { s with next_timeout := next, current_timeout_due_time := tmptimeout.time })

/-- The list moves so that its first entry is due now. -/
def sys_restart_timeouts (s : Timeouts) (now : BitVec 32) : Timeouts :=
  match s.next_timeout with
  | [] => s
  | base :: _ =>
    { s with next_timeout :=
        s.next_timeout.map fun t => { t with time := t.time - base.time + now } }

end Timeouts

/-! ### The timers over time -/

/-- The timers and the clock of the machine in milliseconds. `check` is the time that a running
    `sys_check_timeouts` has read, `running` the handler it has called and `inits` what
    `sys_timeouts_init` still registers. The last three fields are a record of the run: the
    time of the last complete check, how often each handler was called, in the whole and
    in the present check, and when each timer was registered. -/
structure Timers where
  timeouts : Timeouts
  clock : Nat
  check : Option Nat
  running : Option TimeoutHandler
  inits : List CyclicTimer
  checked : Nat
  fires : TimeoutHandler → Nat
  rounds : TimeoutHandler → Nat
  since : CyclicTimer → Nat

/-- Time passes, never back, or code runs: a part of `sys_timeouts_init` or `sys_check_timeouts`, `TCP_REG`,
    `TCP_RMV` or `sys_restart_timeouts`. -/
inductive TimerAct where
  | pass (ms : Nat)
  | init (allocated : Bool)
  | check
  | expire
  | handled (allocated : Bool)
  | done
  | reg (counted : Bool) (allocated : Bool)
  | rmv
  | restart
  deriving DecidableEq, Repr

/-- `sys_now` when the clock stands at `clock` milliseconds: it wraps at 2^32. -/
def sys_now (clock : Nat) : BitVec 32 := after 0 clock

namespace Timers

/-- `lwip_init` is still to come. -/
def boot (clock : Nat) : Timers where
  timeouts := ⟨[], 0, false, 0⟩
  clock := clock
  check := none
  running := none
  -- `tcp_tmr()` at index 0 is started on demand
  inits := lwip_cyclic_timers.tail
  checked := clock
  fires := fun _ => 0
  rounds := fun _ => 0
  since := fun _ => clock

/-- lwIP runs outside of `sys_check_timeouts` or in one of its handlers. -/
def Open (s : Timers) : Prop := s.check.isSome = true → s.running.isSome = true

instance (s : Timers) : Decidable s.Open := inferInstanceAs (Decidable (_ → _))

/-- One step of the timers; `none` where it cannot come or an assertion fails. -/
def step (s : Timers) : TimerAct → Option Timers
  | .pass ms => some { s with clock := s.clock + ms }
  | .init allocated =>
    match s.inits with
    | [] => none
    | cyclic :: rest =>
      if s.check = none then
        (s.timeouts.sys_timeout (sys_now s.clock) cyclic.interval_ms (.lwip_cyclic_timer cyclic)
          allocated).map fun timeouts =>
            { s with timeouts, inits := rest, since := Function.update s.since cyclic s.clock }
      else none
  | .check =>
    if s.check = none then some { s with check := some s.clock, rounds := fun _ => 0 } else none
  | .expire =>
    match s.check, s.running with
    | some now, none =>
      (s.timeouts.expired (sys_now now)).map fun r =>
        { s with
          timeouts := r.2
          running := some r.1
          fires := Function.update s.fires r.1 (s.fires r.1 + 1)
          rounds := Function.update s.rounds r.1 (s.rounds r.1 + 1) }
    | _, _ => none
  | .handled allocated =>
    s.running.bind fun h =>
      (s.timeouts.handled (sys_now s.clock) allocated h).map fun timeouts =>
        { s with timeouts, running := none }
  | .done =>
    match s.check, s.running with
    | some now, none =>
      if s.timeouts.expired (sys_now now) = none then some { s with check := none, checked := now }
      else none
    | _, _ => none
  | .reg counted allocated =>
    if s.Open then
      (s.timeouts.TCP_REG counted (sys_now s.clock) allocated).map fun timeouts =>
        { s with timeouts }
    else none
  | .rmv =>
    if s.Open ∧ 0 < s.timeouts.pcbs then
      some { s with timeouts := { s.timeouts with pcbs := s.timeouts.pcbs - 1 } }
    else none
  | .restart =>
    if s.check = none then
      some { s with
        timeouts := s.timeouts.sys_restart_timeouts (sys_now s.clock)
        checked := s.clock }
    else none

end Timers

/-- The timers, from a start of the clock at `clock`. -/
def timerMachine (clock : Nat) : Machine Timers TimerAct := ⟨.boot clock, Timers.step⟩

end tun2proxy.core
