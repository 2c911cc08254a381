import Tun2Proxy.Lwip.Timeouts

open tun2proxy.circular tun2proxy.machine tun2proxy.machine.Machine tun2proxy.agenda

namespace tun2proxy.core

private theorem TIME_LESS_THAN_iff (t compare_to : BitVec 32) :
    TIME_LESS_THAN t compare_to ↔ dist t compare_to < 0 := by
  have hmax : LWIP_MAX_TIMEOUT.toNat = 2 ^ 31 - 1 := rfl
  have hlt := (t - compare_to).isLt
  rw [TIME_LESS_THAN, BitVec.lt_def, hmax, circular.dist, BitVec.toInt_eq_toNat_cond]
  by_cases hhalf : 2 * (t - compare_to).toNat < 2 ^ 32
  · rw [if_pos hhalf]
    omega
  · rw [if_neg hhalf]
    omega

/-- The comparison is right for times less than half a turn apart. -/
theorem TIME_LESS_THAN_sys_now {n m : Nat} (hn : n < m + 2 ^ 31) (hm : m ≤ n + 2 ^ 31) :
    TIME_LESS_THAN (sys_now n) (sys_now m) ↔ n < m := by
  rw [TIME_LESS_THAN_iff, sys_now, sys_now, dist_after _ (by omega) (by omega)]
  omega

/-- The sum of a time and an interval wraps as the clock does. -/
theorem sys_now_add (clock : Nat) (ms : BitVec 32) :
    sys_now clock + ms = sys_now (clock + ms.toNat) := by
  rw [sys_now, sys_now, ← after_add, BitVec.ofNat_toNat, BitVec.setWidth_eq]

private theorem linkBehind_eq (timeout : SysTimeo) (list : List SysTimeo) :
    linkBehind timeout list =
      list.orderedInsert (fun t t' => TIME_LESS_THAN t.time t'.time) timeout := by
  induction list with
  | nil => rfl
  | cons next rest ih => rw [linkBehind, List.orderedInsert_cons, ih]

namespace Timeouts

/-- The list with one more entry. -/
def link (s : Timeouts) (timeout : SysTimeo) : Timeouts :=
  { s with next_timeout :=
      s.next_timeout.orderedInsert (fun t t' => TIME_LESS_THAN t.time t'.time) timeout }

@[simp] theorem link_pcbs (s : Timeouts) (timeout : SysTimeo) : (s.link timeout).pcbs = s.pcbs := rfl

@[simp] theorem link_active (s : Timeouts) (timeout : SysTimeo) :
    (s.link timeout).tcpip_tcp_timer_active = s.tcpip_tcp_timer_active := rfl

@[simp] theorem link_due (s : Timeouts) (timeout : SysTimeo) :
    (s.link timeout).current_timeout_due_time = s.current_timeout_due_time := rfl

private theorem sys_timeout_abs_eq_some {s s' : Timeouts} {abs_time : BitVec 32} {h : TimeoutHandler}
    {allocated : Bool} : s.sys_timeout_abs abs_time h allocated = some s' ↔
      allocated = true ∧ s' = s.link ⟨abs_time, h⟩ := by
  have hlink : s.sys_timeout_abs abs_time h true = some (s.link ⟨abs_time, h⟩) := by
    rw [sys_timeout_abs, link, LWIP_ASSERT_of rfl, Option.bind_eq_bind, Option.bind_some]
    obtain _ | ⟨t, rest⟩ := s.next_timeout
    · rfl
    · dsimp only
      rw [List.orderedInsert_cons, linkBehind_eq]
      by_cases hlt : TIME_LESS_THAN abs_time t.time
      · rw [if_pos hlt, if_pos hlt]
        rfl
      · rw [if_neg hlt, if_neg hlt]
        rfl
  constructor
  · intro heq
    obtain ⟨_, hall, _⟩ := Option.bind_eq_some_iff.mp heq
    obtain rfl := LWIP_ASSERT_eq_some.mp hall
    rw [hlink] at heq
    exact ⟨rfl, (Option.some.inj heq).symm⟩
  · rintro ⟨rfl, rfl⟩
    exact hlink

private theorem sys_timeout_eq_some {s s' : Timeouts} {now msecs : BitVec 32} {h : TimeoutHandler}
    {allocated : Bool} : s.sys_timeout now msecs h allocated = some s' ↔
      msecs ≤ LWIP_UINT32_MAX / 4 ∧ allocated = true ∧ s' = s.link ⟨now + msecs, h⟩ := by
  constructor
  · intro heq
    obtain ⟨_, hle, heq⟩ := Option.bind_eq_some_iff.mp heq
    exact ⟨LWIP_ASSERT_eq_some.mp hle, sys_timeout_abs_eq_some.mp heq⟩
  · rintro ⟨hle, hlink⟩
    rw [sys_timeout, LWIP_ASSERT_of hle, Option.bind_eq_bind, Option.bind_some]
    exact sys_timeout_abs_eq_some.mpr hlink

/-- When a handler is called again. -/
def nextTime (s : Timeouts) (now : BitVec 32) : TimeoutHandler → BitVec 32
  | .tcpip_tcp_timer => now + TCP_TMR_INTERVAL
  | .lwip_cyclic_timer cyclic =>
    if TIME_LESS_THAN (s.current_timeout_due_time + cyclic.interval_ms) now then
      now + cyclic.interval_ms
    else s.current_timeout_due_time + cyclic.interval_ms

/-- A handler is called again, except for that of a TCP without pcbs. -/
theorem handled_eq_some {s s' : Timeouts} {now : BitVec 32} {h : TimeoutHandler} {allocated : Bool}
    (heq : s.handled now allocated h = some s') :
    s' = s.link ⟨s.nextTime now h, h⟩ ∧ (h = .tcpip_tcp_timer → 0 < s.pcbs) ∨
      h = .tcpip_tcp_timer ∧ s.pcbs = 0 ∧ s' = { s with tcpip_tcp_timer_active := false } := by
  obtain _ | cyclic := h
  · by_cases hpcbs : 0 < s.pcbs
    · rw [handled, tcpip_tcp_timer, if_pos hpcbs] at heq
      exact .inl ⟨(sys_timeout_eq_some.mp heq).2.2, fun _ => hpcbs⟩
    · rw [handled, tcpip_tcp_timer, if_neg hpcbs] at heq
      exact .inr ⟨rfl, by omega, (Option.some.inj heq).symm⟩
  · rw [handled, lwip_cyclic_timer] at heq
    refine .inl ⟨?_, nofun⟩
    by_cases hover : TIME_LESS_THAN (s.current_timeout_due_time + cyclic.interval_ms) now
    · rw [if_pos hover] at heq
      rw [nextTime, if_pos hover]
      exact (sys_timeout_abs_eq_some.mp heq).2
    · rw [if_neg hover] at heq
      rw [nextTime, if_neg hover]
      exact (sys_timeout_abs_eq_some.mp heq).2

private theorem TCP_REG_eq_some {s s' : Timeouts} {now : BitVec 32} {counted allocated : Bool}
    (heq : s.TCP_REG counted now allocated = some s') :
    s' = { s with pcbs := s.pcbs + counted.toNat } ∧
        (0 < s'.pcbs → s.tcpip_tcp_timer_active = true) ∨
      s.tcpip_tcp_timer_active = false ∧ 0 < s.pcbs + counted.toNat ∧
        s' = ({ s with
          pcbs := s.pcbs + counted.toNat
          tcpip_tcp_timer_active := true } : Timeouts).link
            ⟨now + TCP_TMR_INTERVAL, .tcpip_tcp_timer⟩ := by
  rw [TCP_REG, tcp_timer_needed] at heq
  by_cases hoff : s.tcpip_tcp_timer_active = false ∧ 0 < s.pcbs + counted.toNat
  · rw [if_pos hoff] at heq
    exact .inr ⟨hoff.1, hoff.2, (sys_timeout_eq_some.mp heq).2.2⟩
  · rw [if_neg hoff] at heq
    obtain rfl := Option.some.inj heq
    refine .inl ⟨rfl, fun hpos => ?_⟩
    by_contra hactive
    exact hoff ⟨Bool.eq_false_iff.mpr hactive, hpos⟩

private theorem expired_eq_some {s s' : Timeouts} {now : BitVec 32} {h : TimeoutHandler}
    (heq : s.expired now = some (h, s')) : ∃ time next,
      s.next_timeout = ⟨time, h⟩ :: next ∧ ¬ TIME_LESS_THAN now time ∧
        s' = { s with next_timeout := next, current_timeout_due_time := time } := by
  rw [expired] at heq
  rcases hlist : s.next_timeout with _ | ⟨t, next⟩
  · rw [hlist] at heq
    cases heq
  · rw [hlist] at heq
    obtain ⟨hdue, heq⟩ := Option.ite_none_left_eq_some.mp heq
    cases heq
    exact ⟨t.time, next, rfl, hdue, rfl⟩

/-- The loop of `sys_check_timeouts` ends at the first entry that is not due. -/
theorem expired_eq_none {s : Timeouts} {now : BitVec 32} (heq : s.expired now = none) :
    s.next_timeout = [] ∨ ∃ t next, s.next_timeout = t :: next ∧ TIME_LESS_THAN now t.time := by
  rw [expired] at heq
  rcases hlist : s.next_timeout with _ | ⟨t, next⟩
  · exact .inl rfl
  · rw [hlist] at heq
    refine .inr ⟨t, next, rfl, ?_⟩
    by_contra hdue
    dsimp only at heq
    rw [if_neg hdue] at heq
    cases heq

end Timeouts

/-- What a step can do. -/
inductive TimerMove (s : Timers) : TimerAct → Timers → Prop where
  | pass (ms : Nat) : TimerMove s (.pass ms) { s with clock := s.clock + ms }
  | init {cyclic : CyclicTimer} {rest : List CyclicTimer} {allocated : Bool}
      (hinits : s.inits = cyclic :: rest) (hcheck : s.check = none) :
      TimerMove s (.init allocated)
        { s with
          timeouts := s.timeouts.link
            ⟨sys_now s.clock + cyclic.interval_ms, .lwip_cyclic_timer cyclic⟩
          inits := rest
          since := Function.update s.since cyclic s.clock }
  | check (hcheck : s.check = none) :
      TimerMove s .check { s with check := some s.clock, rounds := fun _ => 0 }
  | expire {now : Nat} {time : BitVec 32} {h : TimeoutHandler} {next : List SysTimeo}
      (hcheck : s.check = some now) (hrunning : s.running = none)
      (hlist : s.timeouts.next_timeout = ⟨time, h⟩ :: next)
      (hdue : ¬ TIME_LESS_THAN (sys_now now) time) :
      TimerMove s .expire
        { s with
          timeouts :=
            { s.timeouts with next_timeout := next, current_timeout_due_time := time }
          running := some h
          fires := Function.update s.fires h (s.fires h + 1)
          rounds := Function.update s.rounds h (s.rounds h + 1) }
  | again {h : TimeoutHandler} {allocated : Bool} (hrunning : s.running = some h)
      (hneeded : h = .tcpip_tcp_timer → 0 < s.timeouts.pcbs) :
      TimerMove s (.handled allocated)
        { s with
          timeouts := s.timeouts.link ⟨s.timeouts.nextTime (sys_now s.clock) h, h⟩
          running := none }
  | stop {allocated : Bool} (hrunning : s.running = some .tcpip_tcp_timer)
      (hpcbs : s.timeouts.pcbs = 0) :
      TimerMove s (.handled allocated)
        { s with
          timeouts := { s.timeouts with tcpip_tcp_timer_active := false }
          running := none }
  | done {now : Nat} (hcheck : s.check = some now) (hrunning : s.running = none)
      (hnone : s.timeouts.expired (sys_now now) = none) :
      TimerMove s .done { s with check := none, checked := now }
  | reg {counted allocated : Bool} (hopen : s.Open)
      (hneeded : 0 < s.timeouts.pcbs + counted.toNat → s.timeouts.tcpip_tcp_timer_active = true) :
      TimerMove s (.reg counted allocated)
        { s with timeouts := { s.timeouts with pcbs := s.timeouts.pcbs + counted.toNat } }
  | start {counted allocated : Bool} (hopen : s.Open)
      (hoff : s.timeouts.tcpip_tcp_timer_active = false)
      (hpcbs : 0 < s.timeouts.pcbs + counted.toNat) :
      TimerMove s (.reg counted allocated)
        { s with
          timeouts :=
            ({ s.timeouts with
              pcbs := s.timeouts.pcbs + counted.toNat
              tcpip_tcp_timer_active := true } : Timeouts).link
                ⟨sys_now s.clock + TCP_TMR_INTERVAL, .tcpip_tcp_timer⟩ }
  | rmv (hpcbs : 0 < s.timeouts.pcbs) :
      TimerMove s .rmv
        { s with timeouts := { s.timeouts with pcbs := s.timeouts.pcbs - 1 } }
  | restart (hcheck : s.check = none) :
      TimerMove s .restart
        { s with
          timeouts := s.timeouts.sys_restart_timeouts (sys_now s.clock)
          checked := s.clock }

/-- Every step of the timers is one of the moves. -/
theorem Timers.step_move {s s' : Timers} {a : TimerAct} (h : s.step a = some s') :
    TimerMove s a s' := by
  cases a with
  | pass ms =>
    cases h
    exact .pass ms
  | init allocated =>
    rw [Timers.step] at h
    rcases hinits : s.inits with _ | ⟨cyclic, rest⟩
    · rw [hinits] at h
      cases h
    · rw [hinits] at h
      obtain ⟨hcheck, h⟩ := Option.ite_none_right_eq_some.mp h
      obtain ⟨timeouts, hadd, rfl⟩ := Option.map_eq_some_iff.mp h
      obtain ⟨-, -, rfl⟩ := Timeouts.sys_timeout_eq_some.mp hadd
      exact .init hinits hcheck
  | check =>
    obtain ⟨hcheck, h⟩ := Option.ite_none_right_eq_some.mp h
    cases h
    exact .check hcheck
  | expire =>
    rw [Timers.step] at h
    split at h
    next now hcheck hrunning =>
      obtain ⟨⟨h', timeouts⟩, hexpired, rfl⟩ := Option.map_eq_some_iff.mp h
      obtain ⟨time, next, hlist, hdue, rfl⟩ := Timeouts.expired_eq_some hexpired
      exact .expire hcheck hrunning hlist hdue
    next => cases h
  | handled allocated =>
    obtain ⟨h', hrunning, h⟩ := Option.bind_eq_some_iff.mp h
    obtain ⟨timeouts, hhandled, rfl⟩ := Option.map_eq_some_iff.mp h
    obtain ⟨rfl, hneeded⟩ | ⟨rfl, hpcbs, rfl⟩ := Timeouts.handled_eq_some hhandled
    · exact .again hrunning hneeded
    · exact .stop hrunning hpcbs
  | done =>
    rw [Timers.step] at h
    split at h
    next now hcheck hrunning =>
      obtain ⟨hnone, h⟩ := Option.ite_none_right_eq_some.mp h
      cases h
      exact .done hcheck hrunning hnone
    next => cases h
  | reg counted allocated =>
    obtain ⟨hopen, h⟩ := Option.ite_none_right_eq_some.mp h
    obtain ⟨timeouts, hreg, rfl⟩ := Option.map_eq_some_iff.mp h
    obtain ⟨rfl, hneeded⟩ | ⟨hoff, hpcbs, rfl⟩ := Timeouts.TCP_REG_eq_some hreg
    · exact .reg hopen hneeded
    · exact .start hopen hoff hpcbs
  | rmv =>
    obtain ⟨⟨-, hpcbs⟩, h⟩ := Option.ite_none_right_eq_some.mp h
    cases h
    exact .rmv hpcbs
  | restart =>
    obtain ⟨hcheck, h⟩ := Option.ite_none_right_eq_some.mp h
    cases h
    exact .restart hcheck

/-! ### No timer is lost or doubled -/

/-- The intervals of the cyclic timers are between a millisecond and a second. -/
theorem interval_le {cyclic : CyclicTimer} (h : cyclic ∈ lwip_cyclic_timers) :
    cyclic.interval_ms.toNat ≤ 1000 ∧ 0 < cyclic.interval_ms.toNat := by
  revert cyclic
  decide

namespace Timers

/-- How often a handler is in the list, running or still to be registered. -/
def entries (s : Timers) (h : TimeoutHandler) : Nat :=
  (s.timeouts.next_timeout.map SysTimeo.h).count h + s.running.toList.count h +
    (s.inits.map TimeoutHandler.lwip_cyclic_timer).count h

/-- Every cyclic timer has one entry, `tcp_tmr` only while it is active, which it is
    while there are pcbs. -/
structure Registered (s : Timers) : Prop where
  cyclic : ∀ c, s.entries (.lwip_cyclic_timer c) = lwip_cyclic_timers.tail.count c
  tcp : s.entries .tcpip_tcp_timer = s.timeouts.tcpip_tcp_timer_active.toNat
  needed : 0 < s.timeouts.pcbs → s.timeouts.tcpip_tcp_timer_active = true

private theorem count_link (s : Timeouts) (time : BitVec 32) (h h' : TimeoutHandler) :
    ((s.link ⟨time, h⟩).next_timeout.map SysTimeo.h).count h' =
      (s.next_timeout.map SysTimeo.h).count h' + if h == h' then 1 else 0 := by
  have hperm := (List.perm_orderedInsert (fun t t' => TIME_LESS_THAN t.time t'.time) ⟨time, h⟩
    s.next_timeout).map SysTimeo.h
  rw [Timeouts.link, hperm.count_eq, List.map_cons, List.count_cons]

private theorem map_restart (s : Timeouts) (now : BitVec 32) :
    (s.sys_restart_timeouts now).next_timeout.map SysTimeo.h = s.next_timeout.map SysTimeo.h := by
  rw [Timeouts.sys_restart_timeouts]
  rcases hlist : s.next_timeout with _ | ⟨base, rest⟩
  · rw [hlist]
  · rw [List.map_map]
    rfl

private theorem restart_frame (s : Timeouts) (now : BitVec 32) :
    (s.sys_restart_timeouts now).tcpip_tcp_timer_active = s.tcpip_tcp_timer_active ∧
      (s.sys_restart_timeouts now).pcbs = s.pcbs := by
  rw [Timeouts.sys_restart_timeouts]
  obtain _ | ⟨base, rest⟩ := s.next_timeout
  · exact ⟨rfl, rfl⟩
  · exact ⟨rfl, rfl⟩

namespace Registered

variable {s s' : Timers} {a : TimerAct}

/-- Before `sys_timeouts_init` every cyclic timer is still to be registered. -/
theorem boot (clock : Nat) : Registered (.boot clock) where
  cyclic c := by
    have hmap : (lwip_cyclic_timers.tail.map TimeoutHandler.lwip_cyclic_timer).count
        (.lwip_cyclic_timer c) = lwip_cyclic_timers.tail.count c :=
      List.count_map_of_injective _ _ (fun c c' hc => by cases hc; rfl) c
    rw [entries, Timers.boot, hmap, List.map_nil, List.count_nil, Option.toList_none,
      List.count_nil, Nat.zero_add]
  tcp := by
    have hnone : (lwip_cyclic_timers.tail.map TimeoutHandler.lwip_cyclic_timer).count
        .tcpip_tcp_timer = 0 := by decide
    rw [entries, Timers.boot, hnone, List.map_nil, List.count_nil, Option.toList_none,
      List.count_nil, Bool.toNat_false]
  needed hpos := absurd hpos (Nat.lt_irrefl 0)

/-- The same entries with the same TCP timer. -/
theorem congr (h : s.Registered) (hentries : ∀ h', s'.entries h' = s.entries h')
    (hactive : s'.timeouts.tcpip_tcp_timer_active = s.timeouts.tcpip_tcp_timer_active)
    (hneeded : 0 < s'.timeouts.pcbs → s.timeouts.tcpip_tcp_timer_active = true) :
    s'.Registered where
  cyclic c := by rw [hentries, h.cyclic]
  tcp := by rw [hentries, h.tcp, hactive]
  needed hpos := hactive.trans (hneeded hpos)

theorem step (h : s.Registered) (hmove : TimerMove s a s') : s'.Registered := by
  obtain ms | ⟨hinits, -⟩ | _ | ⟨-, hrunning, hlist, -⟩ | ⟨hrunning, hneeded⟩ | ⟨hrunning, hpcbs⟩ |
    _ | ⟨-, hneeded⟩ | @⟨counted, -, -, hoff, -⟩ | hpcbs | _ := hmove
  · exact h.congr (fun _ => rfl) rfl h.needed
  · refine h.congr ?_ rfl fun hpos => h.needed hpos
    intro h'
    rw [entries, entries, count_link, hinits, List.map_cons, List.count_cons]
    dsimp only
    omega
  · exact h.congr (fun _ => rfl) rfl h.needed
  · refine h.congr ?_ rfl fun hpos => h.needed hpos
    intro h'
    rw [entries, entries, hlist, hrunning, List.map_cons, List.count_cons]
    dsimp only [Option.toList_some, Option.toList_none, List.count_nil]
    rw [List.count_singleton]
    omega
  · refine h.congr ?_ rfl fun hpos => h.needed hpos
    intro h'
    rw [entries, entries, count_link, hrunning]
    dsimp only [Option.toList_some, Option.toList_none, List.count_nil]
    rw [List.count_singleton]
    omega
  · have hentries (h' : TimeoutHandler) : s.entries h' =
        entries { s with
          timeouts := { s.timeouts with tcpip_tcp_timer_active := false }
          running := none } h' + [.tcpip_tcp_timer].count h' := by
      rw [entries, entries, hrunning]
      dsimp only [Option.toList_some, Option.toList_none, List.count_nil]
      omega
    constructor
    · intro c
      have hc := h.cyclic c
      rw [hentries] at hc
      exact hc
    · have htcp := h.tcp
      have hle := Bool.toNat_le s.timeouts.tcpip_tcp_timer_active
      rw [hentries] at htcp
      rw [List.count_singleton_self] at htcp
      rw [Bool.toNat_false]
      omega
    · dsimp only
      omega
  · exact h.congr (fun _ => rfl) rfl h.needed
  · exact h.congr (fun _ => rfl) rfl hneeded
  · have hentries (h' : TimeoutHandler) :
        entries { s with
          timeouts :=
            ({ s.timeouts with
              pcbs := s.timeouts.pcbs + counted.toNat
              tcpip_tcp_timer_active := true } : Timeouts).link
                ⟨sys_now s.clock + TCP_TMR_INTERVAL, .tcpip_tcp_timer⟩ } h' =
          s.entries h' + if TimeoutHandler.tcpip_tcp_timer == h' then 1 else 0 := by
      rw [entries, entries, count_link]
      dsimp only
      omega
    constructor
    · intro c
      rw [hentries, h.cyclic]
      rfl
    · rw [hentries, h.tcp, hoff]
      rfl
    · exact fun _ => rfl
  · exact h.congr (fun _ => rfl) rfl fun hpos => h.needed hpcbs
  · obtain ⟨hactive, hsame⟩ := restart_frame s.timeouts (sys_now s.clock)
    apply h.congr ?_ hactive ?_
    · intro h'
      rw [entries, entries, map_restart]
    · rw [hsame]
      exact h.needed

private theorem mem_of_entries (h : s.Registered) {c : CyclicTimer}
    (hpos : 0 < s.entries (.lwip_cyclic_timer c)) : c ∈ lwip_cyclic_timers := by
  rw [h.cyclic] at hpos
  exact List.mem_of_mem_tail (List.count_pos_iff.mp hpos)

/-- A cyclic timer whose handler runs is one of the table. -/
theorem mem_of_running (h : s.Registered) {c : CyclicTimer}
    (hrunning : s.running = some (.lwip_cyclic_timer c)) : c ∈ lwip_cyclic_timers := by
  apply h.mem_of_entries
  rw [entries, hrunning, Option.toList_some, List.count_singleton_self]
  omega

/-- A cyclic timer that is still to be registered is one of the table. -/
theorem mem_of_init (h : s.Registered) {c : CyclicTimer} (hinit : c ∈ s.inits) :
    c ∈ lwip_cyclic_timers := by
  apply h.mem_of_entries
  have hmem := List.mem_map_of_mem (f := TimeoutHandler.lwip_cyclic_timer) hinit
  have hpos := List.count_pos_iff.mpr hmem
  rw [entries]
  omega

/-- No handler is registered twice. -/
theorem entries_le (h : s.Registered) (h' : TimeoutHandler) : s.entries h' ≤ 1 := by
  have hnodup : lwip_cyclic_timers.tail.Nodup := by decide
  obtain _ | c := h'
  · rw [h.tcp]
    exact Bool.toNat_le _
  · rw [h.cyclic]
    exact List.nodup_iff_count_le_one.mp hnodup c

end Registered

end Timers

/-- In every run, of which nothing is assumed, no timer is lost or doubled. -/
theorem reach_registered {clock : Nat} {ok : Timers → TimerAct → Prop} {s : Timers}
    (h : Reach (timerMachine clock) ok s) : s.Registered := by
  apply h.invariant (P := Timers.Registered)
  · exact .boot clock
  · exact fun _ _ _ _ hs _ hstep => hs.step (Timers.step_move hstep)

/-- In every run, of which nothing is assumed, every cyclic timer stays registered exactly once
    or is still to be registered, and the TCP timer is registered from the first pcb on. -/
theorem timers_registered {clock : Nat} {s : Timers} (h : Reach (timerMachine clock) any s) :
    (∀ c ∈ lwip_cyclic_timers.tail, s.entries (.lwip_cyclic_timer c) = 1) ∧
      s.entries .tcpip_tcp_timer = s.timeouts.tcpip_tcp_timer_active.toNat ∧
      (0 < s.timeouts.pcbs → s.entries .tcpip_tcp_timer = 1) := by
  have hreg := reach_registered h
  refine ⟨fun c hc => ?_, hreg.tcp, fun hpos => ?_⟩
  · have hle := hreg.entries_le (.lwip_cyclic_timer c)
    have hcount := hreg.cyclic c
    have hpos := List.count_pos_iff.mpr hc
    omega
  · rw [hreg.tcp, hreg.needed hpos, Bool.toNat_true]

/-- A pcb comes while the timers are registered, and its timer is called. -/
def timerStart : List TimerAct :=
  [.init true, .reg true true, .init true, .init true, .pass 250, .check, .expire]

theorem timers_registered_started :
    ∃ s : Timers, s.running = some .tcpip_tcp_timer ∧
      (∀ c ∈ lwip_cyclic_timers.tail, s.entries (.lwip_cyclic_timer c) = 1) ∧
      s.entries .tcpip_tcp_timer = s.timeouts.tcpip_tcp_timer_active.toNat ∧
      (0 < s.timeouts.pcbs → s.entries .tcpip_tcp_timer = 1) := by
  obtain ⟨s, hreach, hrunning⟩ := exists_reach_of_run (timerMachine 0) any timerStart
    (fun s => s.running = some .tcpip_tcp_timer) (by decide)
  exact ⟨s, hrunning, timers_registered hreach⟩

end tun2proxy.core
