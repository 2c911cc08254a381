import Tun2Proxy.Lwip.Schedule

open tun2proxy.circular tun2proxy.machine tun2proxy.machine.Machine tun2proxy.agenda

namespace tun2proxy.core

namespace Ordered

variable {s s' : Timers} {p : Plan} {a : TimerAct}

/-- The list of the code and the plan have the same handlers. -/
theorem count_eq (h : Ordered s p) (h' : TimeoutHandler) :
    (s.timeouts.next_timeout.map SysTimeo.h).count h' = (p.entries.map Entry.item).count h' := by
  rw [h.next_timeout, image, List.map_map]
  rfl

private theorem count_pos {entries : List (Entry Nat TimeoutHandler)} {e : Entry Nat TimeoutHandler}
    (he : e ∈ entries) : 0 < (entries.map Entry.item).count e.item :=
  List.count_pos_iff.mpr (List.mem_map_of_mem he)

/-- The handler of the first entry has no other. -/
theorem alone (h : Ordered s p) (hreg : s.Registered) {e : Entry Nat TimeoutHandler}
    {rest : List (Entry Nat TimeoutHandler)} (hp : p.entries = e :: rest) :
    ∀ x ∈ rest, x.item ≠ e.item := by
  intro x hx hsame
  have hle := hreg.entries_le e.item
  have hpos := count_pos hx
  rw [Timers.entries, h.count_eq, hp, List.map_cons, List.count_cons_self] at hle
  rw [hsame] at hpos
  omega

private theorem init_alone (h : Ordered s p) (hreg : s.Registered) {c : CyclicTimer}
    (hinit : c ∈ s.inits) : s.running ≠ some (.lwip_cyclic_timer c) ∧
      ∀ x ∈ p.entries, x.item ≠ .lwip_cyclic_timer c := by
  have hle := hreg.entries_le (.lwip_cyclic_timer c)
  have hmem := List.mem_map_of_mem (f := TimeoutHandler.lwip_cyclic_timer) hinit
  have hpos := List.count_pos_iff.mpr hmem
  constructor
  · intro hrunning
    rw [Timers.entries, hrunning, Option.toList_some, List.count_singleton_self] at hle
    omega
  · intro x hx hsame
    have hlisted := count_pos hx
    rw [Timers.entries, h.count_eq] at hle
    rw [hsame] at hlisted
    omega

end Ordered

private theorem reach_ordered {clock : Nat} {ok : Timers → TimerAct → Prop}
    (hok : ∀ s a, ok s a → Punctual s a) {s : Timers} (h : Reach (timerMachine clock) ok s) :
    ∃ p, Ordered s p := by
  apply h.invariant (P := fun s => ∃ p, Ordered s p)
  · exact ⟨_, .boot clock⟩
  · rintro s a s' hreach ⟨p, hp⟩ ha hstep
    exact ⟨_, hp.step (reach_registered hreach) (hok s a ha) (Timers.step_move hstep)⟩

/-- `sys_check_timeouts` takes the earliest entry of the list, never before it is due, and
    ends only when every entry is due later. -/
theorem timers_in_order {clock now : Nat} {s : Timers} (h : Reach (timerMachine clock) Punctual s)
    (hcheck : s.check = some now) (hpunctual : s.clock ≤ s.checked + 2 ^ 30) :
    (∀ s', s.step .expire = some s' →
      ¬ TIME_LESS_THAN (sys_now s.clock) s'.timeouts.current_timeout_due_time ∧
        ∀ t ∈ s'.timeouts.next_timeout,
          ¬ TIME_LESS_THAN t.time s'.timeouts.current_timeout_due_time) ∧
      ∀ s', s.step .done = some s' →
        ∀ t ∈ s.timeouts.next_timeout, TIME_LESS_THAN (sys_now now) t.time := by
  obtain ⟨p, hp⟩ := reach_ordered (fun _ _ => id) h
  obtain ⟨hlow, hhigh⟩ := hp.check now hcheck
  constructor
  · intro s' hstep
    have hexpire : Punctual s .expire := hpunctual
    have hp' := hp.step (reach_registered h) hexpire (Timers.step_move hstep)
    have hlow' := hp'.last_le
    have hsame : s'.checked = s.checked ∧ s'.clock = s.clock ∧
        s.checked ≤ (p.step s .expire).last := by
      cases Timers.step_move hstep with
      | expire _ _ hlist _ => exact ⟨rfl, rfl, (hp'.running _ rfl).1⟩
    obtain ⟨hchecked, hclock, hlast⟩ := hsame
    rw [hp'.last]
    constructor
    · rw [TIME_LESS_THAN_sys_now (by omega) (by omega)]
      omega
    · intro t ht
      rw [hp'.next_timeout] at ht
      obtain ⟨e, he, rfl⟩ := List.mem_map.mp ht
      have hnear := hp'.near e he
      have hafter := hp'.after_last e he
      rw [TIME_LESS_THAN_sys_now (by omega) (by omega)]
      omega
  · intro s' hstep t ht
    cases Timers.step_move hstep with
    | done hcheck' _ hnone =>
      obtain rfl := Option.some.inj (hcheck'.symm.trans hcheck)
      rw [hp.next_timeout] at ht
      obtain ⟨e, he, rfl⟩ := List.mem_map.mp ht
      rw [hp.due_iff hcheck hpunctual he]
      exact hp.done hcheck hpunctual hnone e he

/-! ### Runs of the machine -/

/-- `sys_timeouts_init`. -/
def timerInits : List TimerAct := [.init true, .init true, .init true]

/-- All three cyclic timers are called. -/
def timerRound : List TimerAct :=
  [.check, .expire, .handled true, .expire, .handled true, .expire, .handled true, .done]

/-- After a sleep of 57 days and `sys_restart_timeouts`, the timers go on in order. -/
def timerSleep : List TimerAct :=
  timerInits ++ [.pass 1000] ++ timerRound ++ [.pass 5000000000, .restart, .check]

/-- A sleep of more than half the range of the clock, which ends with `sys_restart_timeouts`. -/
theorem timers_in_order_slept : ∃ s : Timers, s.clock = 5000001000 ∧
    (∀ s', s.step .expire = some s' →
      ¬ TIME_LESS_THAN (sys_now s.clock) s'.timeouts.current_timeout_due_time ∧
        ∀ t ∈ s'.timeouts.next_timeout,
          ¬ TIME_LESS_THAN t.time s'.timeouts.current_timeout_due_time) ∧
      ∀ s', s.step .done = some s' →
        ∀ t ∈ s.timeouts.next_timeout, TIME_LESS_THAN (sys_now 5000001000) t.time := by
  obtain ⟨s, hreach, hclock, hcheck, hpunctual⟩ := exists_reach_of_run (timerMachine 0) Punctual
    timerSleep (fun s => s.clock = 5000001000 ∧ s.check = some 5000001000 ∧
      s.clock ≤ s.checked + 2 ^ 30) (by decide)
  exact ⟨s, hclock, timers_in_order hreach hcheck hpunctual⟩

/-! ### How often a handler is called in one check -/

/-- How often one call of `sys_check_timeouts` calls a handler at most. -/
def maxRounds : TimeoutHandler → Nat
  | .tcpip_tcp_timer => 1
  | .lwip_cyclic_timer _ => 2

/-- What is due in this check was called less often than it may be. -/
structure RoundsInv (s : Timers) (p : Plan) : Prop where
  le : ∀ h, s.rounds h ≤ maxRounds h
  past : ∀ now, s.check = some now → ∀ e ∈ p.entries, e.due < now → s.rounds e.item = 0
  present : ∀ now, s.check = some now → ∀ e ∈ p.entries, e.due = now →
    s.rounds e.item < maxRounds e.item
  running : ∀ now h, s.check = some now → s.running = some h → p.last < now → s.rounds h ≤ 1

namespace RoundsInv

variable {s s' : Timers} {p : Plan} {a : TimerAct}

private theorem maxRounds_pos (h : TimeoutHandler) : 0 < maxRounds h := by
  obtain _ | _ := h
  · exact Nat.one_pos
  · exact Nat.two_pos

theorem boot (clock : Nat) : RoundsInv (.boot clock) ⟨[], 0⟩ where
  le _ := Nat.zero_le _
  past := nofun
  present := nofun
  running := nofun

/-- A check goes on with the same list. -/
theorem congr (h : RoundsInv s p) (hrounds : s'.rounds = s.rounds) (hcheck : s'.check = s.check)
    (hrunning : ∀ h', s'.running = some h' → s.running = some h') : RoundsInv s' p where
  le := hrounds ▸ h.le
  past := hrounds ▸ hcheck ▸ h.past
  present := hrounds ▸ hcheck ▸ h.present
  running now h' hnow hh' := by
    rw [hcheck] at hnow
    rw [hrounds]
    exact h.running now h' hnow (hrunning h' hh')

/-- A new entry, due now only where the handler may be called again. -/
theorem add (h : RoundsInv s p) (hrounds : s'.rounds = s.rounds) (hcheck : s'.check = s.check)
    (hrunning : ∀ h', s'.running = some h' → s.running = some h') {due : Nat} {h' : TimeoutHandler}
    (hdue : ∀ now, s.check = some now → now ≤ due ∧ (due = now → s.rounds h' < maxRounds h')) :
    RoundsInv s' (p.add due h') where
  le := hrounds ▸ h.le
  past now hnow e he hlt := by
    rw [hcheck] at hnow
    rw [hrounds]
    obtain rfl | he := mem_add.mp he
    · obtain ⟨hle, -⟩ := hdue now hnow
      dsimp only at hlt
      omega
    · exact h.past now hnow e he hlt
  present now hnow e he heq := by
    rw [hcheck] at hnow
    rw [hrounds]
    obtain rfl | he := mem_add.mp he
    · exact (hdue now hnow).2 heq
    · exact h.present now hnow e he heq
  running now h'' hnow hh'' := by
    rw [hcheck] at hnow
    rw [hrounds]
    exact h.running now h'' hnow (hrunning h'' hh'')

theorem step (h : RoundsInv s p) (hp : Ordered s p) (hreg : s.Registered)
    (hpunctual : Punctual s a) (hmove : TimerMove s a s') : RoundsInv s' (p.step s a) := by
  cases hmove with
  | pass => exact h.congr rfl rfl fun _ hh' => hh'
  | init hinits hcheck =>
    rw [Plan.step_init hinits]
    refine h.add ?_ ?_ ?_ fun now hnow => ?_
    · rfl
    · rfl
    · exact fun _ hh' => hh'
    · rw [hcheck] at hnow
      cases hnow
  | check hcheck =>
    exact {
      le := fun _ => Nat.zero_le _
      past := fun _ _ _ _ _ => rfl
      present := fun _ _ e _ _ => maxRounds_pos e.item
      running := fun _ _ _ _ _ => Nat.zero_le _ }
  | @expire now time h' next hcheck hrunning hlist hdue =>
    obtain ⟨due, rest, hentries, rfl, rfl⟩ := hp.head hlist
    have hmem {e : Entry Nat TimeoutHandler} (he : e ∈ rest) : e ∈ p.entries :=
      hentries ▸ List.mem_cons_of_mem _ he
    have hself : ⟨due, h'⟩ ∈ p.entries := hentries ▸ List.mem_cons_self
    have hle := mt (hp.due_iff hcheck hpunctual hself).mpr hdue
    have hother {e : Entry Nat TimeoutHandler} (he : e ∈ rest) :
        Function.update s.rounds h' (s.rounds h' + 1) e.item = s.rounds e.item :=
      Function.update_of_ne (hp.alone hreg hentries e he) _ _
    have hless : s.rounds h' < maxRounds h' := by
      obtain hlt | heq := Nat.lt_or_eq_of_le (Nat.not_lt.mp hle)
      · have hzero := h.past now hcheck _ hself hlt
        have hpos := maxRounds_pos h'
        dsimp only at hzero
        omega
      · exact h.present now hcheck _ hself heq
    rw [Plan.step_expire hentries]
    exact {
      le := fun h'' => by
        by_cases heq : h'' = h'
        · subst heq
          dsimp only
          rw [Function.update_self]
          exact hless
        · dsimp only
          rw [Function.update_of_ne heq]
          exact h.le h''
      past := fun now' hnow e he hlt => (hother he).trans (h.past now' hnow e (hmem he) hlt)
      present := fun now' hnow e he heq => by
        dsimp only
        rw [hother he]
        exact h.present now' hnow e (hmem he) heq
      running := fun now' h'' hnow hh'' hlt => by
        cases hh''
        dsimp only
        rw [Function.update_self, h.past now' hnow _ hself hlt] }
  | @again h' _ hrunning hneeded =>
    obtain ⟨-, hlow, -⟩ := hp.next_eq hreg hpunctual hrunning
    rw [Plan.step_again hrunning hneeded]
    refine h.add ?_ ?_ ?_ fun now hnow => ?_
    · rfl
    · rfl
    · rintro _ ⟨⟩
    · obtain ⟨-, hhigh⟩ := hp.check now hnow
      refine ⟨hhigh.trans hlow, fun heq => ?_⟩
      obtain _ | c := h'
      · have htcp : TCP_TMR_INTERVAL.toNat = 250 := rfl
        rw [Plan.next] at heq
        omega
      · have hpos := (interval_le (hreg.mem_of_running hrunning)).2
        have hlast : p.last < now := by
          rw [Plan.next] at heq
          by_cases hover : p.last + c.interval_ms.toNat < s.clock
          · rw [if_pos hover] at heq
            omega
          · rw [if_neg hover] at heq
            omega
        have honce := h.running now _ hnow hrunning hlast
        exact Nat.lt_succ_of_le honce
  | stop hrunning hpcbs =>
    rw [Plan.step_stop hrunning hpcbs]
    refine h.congr rfl rfl ?_
    rintro _ ⟨⟩
  | done =>
    exact {
      le := h.le
      past := by rintro _ ⟨⟩
      present := by rintro _ ⟨⟩
      running := by rintro _ _ ⟨⟩ }
  | reg hopen hneeded =>
    rw [Plan.step_reg hneeded]
    exact h.congr rfl rfl fun _ hh' => hh'
  | start hopen hoff hpcbs =>
    have htcp : TCP_TMR_INTERVAL.toNat = 250 := rfl
    rw [Plan.step_start hoff hpcbs]
    refine h.add ?_ ?_ ?_ fun now hnow => ?_
    · rfl
    · rfl
    · exact fun _ hh' => hh'
    · obtain ⟨-, hhigh⟩ := hp.check now hnow
      refine ⟨by omega, fun heq => ?_⟩
      omega
  | rmv => exact h.congr rfl rfl fun _ hh' => hh'
  | restart hcheck =>
    have hnone (now : Nat) : s.check ≠ some now := by
      rw [hcheck]
      rintro ⟨⟩
    exact {
      le := h.le
      past := fun now hnow => absurd hnow (hnone now)
      present := fun now hnow => absurd hnow (hnone now)
      running := fun now _ hnow => absurd hnow (hnone now) }

end RoundsInv

/-- One call of `sys_check_timeouts` calls the handler of a cyclic timer at most twice and that
    of TCP at most once, so that its loop ends. The handlers may take any time up to 2^30
    milliseconds. -/
theorem check_ends {clock : Nat} {s : Timers} (h : Reach (timerMachine clock) Punctual s)
    (h' : TimeoutHandler) : s.rounds h' ≤ maxRounds h' := by
  have hinv : ∃ p, Ordered s p ∧ RoundsInv s p := by
    apply h.invariant (P := fun s => ∃ p, Ordered s p ∧ RoundsInv s p)
    · exact ⟨_, .boot clock, .boot clock⟩
    · rintro s a s' hreach ⟨p, hp, hrounds⟩ ha hstep
      have hreg := reach_registered hreach
      have hmove := Timers.step_move hstep
      exact ⟨_, hp.step hreg ha hmove, hrounds.step hp hreg ha hmove⟩
  obtain ⟨p, -, hrounds⟩ := hinv
  exact hrounds.le h'

/-- A check that comes exactly one interval late calls a handler a second time. -/
theorem check_ends_twice : ∃ s : Timers, s.rounds (.lwip_cyclic_timer ⟨1000, .ip_reass_tmr⟩) = 2 ∧
    s.rounds (.lwip_cyclic_timer ⟨1000, .ip_reass_tmr⟩) ≤
      maxRounds (.lwip_cyclic_timer ⟨1000, .ip_reass_tmr⟩) := by
  obtain ⟨s, hreach, hrounds⟩ := exists_reach_of_run (timerMachine 0) Punctual
    (timerInits ++ [.pass 2000] ++ timerRound.dropLast ++ [.expire])
    (fun s => s.rounds (.lwip_cyclic_timer ⟨1000, .ip_reass_tmr⟩) = 2) (by decide)
  exact ⟨s, hrounds, check_ends hreach _⟩

/-! ### How often a handler is called at all -/

/-- How the calls of the handlers keep to their intervals. `R` compares the time that the number
    of calls asks for with the time at which the next call is due. -/
structure Paced (R : Nat → Nat → Prop) (s : Timers) (p : Plan) : Prop where
  inits : ∀ c ∈ s.inits, s.fires (.lwip_cyclic_timer c) = 0
  listed : ∀ c due, ⟨due, .lwip_cyclic_timer c⟩ ∈ p.entries →
    R (s.since c + (s.fires (.lwip_cyclic_timer c) + 1) * c.interval_ms.toNat) due
  running : ∀ c, s.running = some (.lwip_cyclic_timer c) →
    R (s.since c + s.fires (.lwip_cyclic_timer c) * c.interval_ms.toNat) p.last

/-- A handler that returns after it is due again, the case that `lwip_cyclic_timer` calls an
    overload. -/
def Timers.Overload (s : Timers) : TimeoutHandler → Prop
  | .tcpip_tcp_timer => False
  | .lwip_cyclic_timer c =>
    TIME_LESS_THAN (s.timeouts.current_timeout_due_time + c.interval_ms) (sys_now s.clock)

instance (s : Timers) : (h : TimeoutHandler) → Decidable (s.Overload h)
  | .tcpip_tcp_timer => inferInstanceAs (Decidable False)
  | .lwip_cyclic_timer _ => inferInstanceAs (Decidable (TIME_LESS_THAN _ _))

/-- No handler returns in an overload. -/
def OnSchedule (s : Timers) : TimerAct → Prop
  | .handled _ => ∀ h ∈ s.running, ¬ s.Overload h
  | .pass _ | .init _ | .check | .expire | .done | .reg _ _ | .rmv | .restart => True

instance (s : Timers) : (a : TimerAct) → Decidable (OnSchedule s a)
  | .handled _ => inferInstanceAs (Decidable (∀ h ∈ s.running, ¬ s.Overload h))
  | .pass _ | .init _ | .check | .expire | .done | .reg _ _ | .rmv | .restart =>
    inferInstanceAs (Decidable True)

namespace Paced

variable {R : Nat → Nat → Prop} {s s' : Timers} {p : Plan} {a : TimerAct}

theorem boot (clock : Nat) : Paced R (.boot clock) ⟨[], 0⟩ where
  inits _ _ := rfl
  listed := nofun
  running := nofun

theorem congr (h : Paced R s p) (hinits : s'.inits = s.inits) (hfires : s'.fires = s.fires)
    (hsince : s'.since = s.since) (hrunning : ∀ h', s'.running = some h' → s.running = some h') :
    Paced R s' p where
  inits := hinits ▸ hfires ▸ h.inits
  listed := hfires ▸ hsince ▸ h.listed
  running c hc := by
    rw [hfires, hsince]
    exact h.running c (hrunning _ hc)

theorem add (h : Paced R s p) (hinits : s'.inits = s.inits) (hfires : s'.fires = s.fires)
    (hsince : s'.since = s.since) (hrunning : ∀ h', s'.running = some h' → s.running = some h')
    {due : Nat} {h' : TimeoutHandler} (hdue : ∀ c, h' = .lwip_cyclic_timer c →
      R (s.since c + (s.fires h' + 1) * c.interval_ms.toNat) due) :
    Paced R s' (p.add due h') where
  inits := hinits ▸ hfires ▸ h.inits
  listed c due' hc := by
    rw [hfires, hsince]
    obtain heq | hc := mem_add.mp hc
    · cases heq
      exact hdue c rfl
    · exact h.listed c due' hc
  running c hc := by
    rw [hfires, hsince]
    exact h.running c (hrunning _ hc)

theorem step (h : Paced R s p) (hp : Ordered s p) (hreg : s.Registered)
    (hrefl : ∀ n, R n n) (hadd : ∀ {n m} k, R n m → R (n + k) (m + k))
    (hlate : OnSchedule s a ∨ ∀ {n m m'}, R n m → m ≤ m' → R n m')
    (hpunctual : Punctual s a) (hrestart : a ≠ .restart) (hmove : TimerMove s a s') :
    Paced R s' (p.step s a) := by
  cases hmove with
  | pass | check | done | rmv => exact h.congr rfl rfl rfl fun _ hh' => hh'
  | @init cyclic rest _ hinits hcheck =>
    have hself : cyclic ∈ s.inits := hinits ▸ List.mem_cons_self
    obtain ⟨hidle, hnone⟩ := hp.init_alone hreg hself
    have hzero := h.inits cyclic hself
    rw [Plan.step_init hinits]
    exact {
      inits := fun c hc => h.inits c (hinits ▸ List.mem_cons_of_mem _ hc)
      listed := fun c due hc => by
        dsimp only
        obtain heq | hc := mem_add.mp hc
        · cases heq
          rw [Function.update_self, hzero, Nat.zero_add, Nat.one_mul]
          exact hrefl _
        · have hne : c ≠ cyclic := fun heq => hnone _ hc (congrArg _ heq)
          rw [Function.update_of_ne hne]
          exact h.listed c due hc
      running := fun c hc => by
        have hne : c ≠ cyclic := fun heq => hidle (heq ▸ hc)
        dsimp only
        rw [Function.update_of_ne hne]
        exact h.running c hc }
  | @expire now time h' next hcheck hrunning hlist hdue =>
    obtain ⟨due, rest, hentries, rfl, rfl⟩ := hp.head hlist
    have hother {h'' : TimeoutHandler} (hne : h'' ≠ h') :
        Function.update s.fires h' (s.fires h' + 1) h'' = s.fires h'' :=
      Function.update_of_ne hne _ _
    rw [Plan.step_expire hentries]
    exact {
      inits := fun c hc => by
        obtain ⟨-, hnone⟩ := hp.init_alone hreg hc
        have hne := hnone ⟨due, h'⟩ (hentries ▸ List.mem_cons_self)
        dsimp only
        rw [hother hne.symm]
        exact h.inits c hc
      listed := fun c due' hc => by
        have hne := hp.alone hreg hentries _ hc
        dsimp only
        rw [hother hne]
        exact h.listed c due' (hentries ▸ List.mem_cons_of_mem _ hc)
      running := fun c hc => by
        cases hc
        dsimp only
        rw [Function.update_self]
        exact h.listed c due (hentries ▸ List.mem_cons_self) }
  | @again h' allocated hrunning hneeded =>
    rw [Plan.step_again hrunning hneeded]
    refine h.add ?_ ?_ ?_ ?_ ?_
    · rfl
    · rfl
    · rfl
    · rintro _ ⟨⟩
    · rintro c rfl
      have hlast := hadd c.interval_ms.toNat (h.running c hrunning)
      rw [Nat.add_mul, Nat.one_mul, ← Nat.add_assoc, Plan.next]
      by_cases hover : p.last + c.interval_ms.toNat < s.clock
      · rw [if_pos hover]
        obtain hontime | hmono := hlate
        · have hcode := hontime _ hrunning
          obtain ⟨hchecked, -⟩ := hp.running _ hrunning
          have hle := hp.last_le
          have hbound : s.clock ≤ s.checked + 2 ^ 30 := hpunctual
          have hinterval := (interval_le (hreg.mem_of_running hrunning)).1
          rw [Timers.Overload, hp.last, sys_now_add,
            TIME_LESS_THAN_sys_now (by omega) (by omega)] at hcode
          exact absurd hover hcode
        · exact hmono hlast (by omega)
      · rw [if_neg hover]
        exact hlast
  | stop hrunning hpcbs =>
    rw [Plan.step_stop hrunning hpcbs]
    refine h.congr rfl rfl rfl ?_
    rintro _ ⟨⟩
  | reg hopen hneeded =>
    rw [Plan.step_reg hneeded]
    exact h.congr rfl rfl rfl fun _ hh' => hh'
  | start hopen hoff hpcbs =>
    rw [Plan.step_start hoff hpcbs]
    refine h.add ?_ ?_ ?_ ?_ ?_
    · rfl
    · rfl
    · rfl
    · exact fun _ hh' => hh'
    · rintro _ ⟨⟩
  | restart => exact absurd rfl hrestart

end Paced

/-- After a complete check nothing is due, and every call so far was due in a check. -/
structure Settled (s : Timers) (p : Plan) : Prop where
  idle : s.check = none → ∀ e ∈ p.entries, s.checked < e.due
  called : ∀ c, s.fires (.lwip_cyclic_timer c) = 0 ∨
    s.since c + s.fires (.lwip_cyclic_timer c) * c.interval_ms.toNat ≤ s.check.getD s.checked

namespace Settled

variable {s s' : Timers} {p : Plan} {a : TimerAct}

theorem boot (clock : Nat) : Settled (.boot clock) ⟨[], 0⟩ where
  idle _ := nofun
  called _ := .inl rfl

theorem congr (h : Settled s p) (hcheck : s'.check = s.check) (hchecked : s'.checked = s.checked)
    (hfires : s'.fires = s.fires) (hsince : s'.since = s.since) : Settled s' p where
  idle := hcheck ▸ hchecked ▸ h.idle
  called := hcheck ▸ hchecked ▸ hfires ▸ hsince ▸ h.called

theorem add (h : Settled s p) (hcheck : s'.check = s.check) (hchecked : s'.checked = s.checked)
    (hfires : s'.fires = s.fires) (hsince : s'.since = s.since) {due : Nat} {h' : TimeoutHandler}
    (hdue : s.check = none → s.checked < due) : Settled s' (p.add due h') where
  idle hnone e he := by
    rw [hcheck] at hnone
    rw [hchecked]
    obtain rfl | he := mem_add.mp he
    · exact hdue hnone
    · exact h.idle hnone e he
  called := hcheck ▸ hchecked ▸ hfires ▸ hsince ▸ h.called

theorem step (h : Settled s p) (hpaced : Paced (· ≤ ·) s p) (hp : Ordered s p) (hreg : s.Registered)
    (hpunctual : Punctual s a) (hrestart : a ≠ .restart) (hmove : TimerMove s a s') :
    Settled s' (p.step s a) := by
  cases hmove with
  | pass | rmv => exact h.congr rfl rfl rfl rfl
  | @init cyclic rest _ hinits hcheck =>
    have hself : cyclic ∈ s.inits := hinits ▸ List.mem_cons_self
    have hpos := (interval_le (hreg.mem_of_init hself)).2
    have hle := hp.checked_le
    rw [Plan.step_init hinits]
    exact {
      idle := fun hnone e he => by
        obtain rfl | he := mem_add.mp he
        · dsimp only
          omega
        · exact h.idle hnone e he
      called := fun c => by
        by_cases heq : c = cyclic
        · subst heq
          exact .inl (hpaced.inits c hself)
        · dsimp only
          rw [Function.update_of_ne heq]
          exact h.called c }
  | check hcheck =>
    have hle := hp.checked_le
    exact {
      idle := nofun
      called := fun c => by
        have hcalled := h.called c
        rw [hcheck, Option.getD_none] at hcalled
        dsimp only [Option.getD_some]
        omega }
  | @expire now time h' next hcheck hrunning hlist hdue =>
    obtain ⟨due, rest, hentries, rfl, rfl⟩ := hp.head hlist
    have hself : ⟨due, h'⟩ ∈ p.entries := hentries ▸ List.mem_cons_self
    have hle := mt (hp.due_iff hcheck hpunctual hself).mpr hdue
    rw [Plan.step_expire hentries]
    exact {
      idle := fun hnone => by
        rw [hcheck] at hnone
        cases hnone
      called := fun c => by
        dsimp only
        by_cases heq : TimeoutHandler.lwip_cyclic_timer c = h'
        · subst heq
          have hasked := hpaced.listed c due hself
          rw [Function.update_self, hcheck, Option.getD_some]
          dsimp only at hle
          omega
        · rw [Function.update_of_ne heq]
          exact h.called c }
  | again hrunning hneeded =>
    obtain ⟨-, hsome⟩ := hp.running _ hrunning
    rw [Plan.step_again hrunning hneeded]
    refine h.add ?_ ?_ ?_ ?_ fun hnone => ?_
    · rfl
    · rfl
    · rfl
    · rfl
    · rw [hnone] at hsome
      cases hsome
  | stop hrunning hpcbs =>
    rw [Plan.step_stop hrunning hpcbs]
    exact h.congr rfl rfl rfl rfl
  | @done now hcheck hrunning hnone =>
    exact {
      idle := fun _ => hp.done hcheck hpunctual hnone
      called := fun c => by
        have hcalled := h.called c
        rw [hcheck] at hcalled
        exact hcalled }
  | reg hopen hneeded =>
    rw [Plan.step_reg hneeded]
    exact h.congr rfl rfl rfl rfl
  | start hopen hoff hpcbs =>
    have htcp : TCP_TMR_INTERVAL.toNat = 250 := rfl
    have hle := hp.checked_le
    rw [Plan.step_start hoff hpcbs]
    refine h.add ?_ ?_ ?_ ?_ fun _ => ?_
    · rfl
    · rfl
    · rfl
    · rfl
    · omega
  | restart => exact absurd rfl hrestart

end Settled

/-- The times in the list are not moved. -/
def Unmoved (s : Timers) (a : TimerAct) : Prop := Punctual s a ∧ a ≠ .restart

instance (s : Timers) (a : TimerAct) : Decidable (Unmoved s a) := inferInstanceAs (Decidable (_ ∧ _))

private theorem reach_paced {clock : Nat} {ok : Timers → TimerAct → Prop} {R : Nat → Nat → Prop}
    (hrefl : ∀ n, R n n) (hadd : ∀ {n m} k, R n m → R (n + k) (m + k))
    (hok : ∀ s a, ok s a → Unmoved s a)
    (hlate : (∀ s a, ok s a → OnSchedule s a) ∨ ∀ {n m m'}, R n m → m ≤ m' → R n m') {s : Timers}
    (h : Reach (timerMachine clock) ok s) :
    ∃ p, Ordered s p ∧ Settled s p ∧ Paced (· ≤ ·) s p ∧ Paced R s p := by
  apply h.invariant (P := fun s => ∃ p, Ordered s p ∧ Settled s p ∧ Paced (· ≤ ·) s p ∧ Paced R s p)
  · exact ⟨_, .boot clock, .boot clock, .boot clock, .boot clock⟩
  · rintro s a s' hreach ⟨p, hp, hsettled, hle, hpaced⟩ ha hstep
    have hreg := reach_registered hreach
    have hmove := Timers.step_move hstep
    obtain ⟨hpunctual, hrestart⟩ := hok s a ha
    refine ⟨_, hp.step hreg hpunctual hmove, hsettled.step hle hp hreg hpunctual hrestart hmove,
      hle.step hp hreg Nat.le_refl (fun k hle => Nat.add_le_add_right hle k) (.inr Nat.le_trans)
        hpunctual hrestart hmove,
      hpaced.step hp hreg hrefl hadd (hlate.imp (fun hontime => hontime s a ha) id)
        hpunctual hrestart hmove⟩

/-- No cyclic handler is called more often than its interval allows, however the checks are
    delayed, up to 2^30 milliseconds, and however long the handlers are. -/
theorem cyclic_timer_rate {clock : Nat} {s : Timers} (h : Reach (timerMachine clock) Unmoved s)
    (c : CyclicTimer) :
    s.fires (.lwip_cyclic_timer c) * c.interval_ms.toNat ≤ s.clock - s.since c := by
  obtain ⟨p, hp, hsettled, -⟩ := reach_paced Nat.le_refl (fun k hle => Nat.add_le_add_right hle k)
    (fun _ _ => id) (.inr Nat.le_trans) h
  have hcalled := hsettled.called c
  have hle : s.check.getD s.checked ≤ s.clock := by
    rcases hcheck : s.check with _ | now
    · exact hp.checked_le
    · exact (hp.check now hcheck).2
  obtain hzero | hcalled := hcalled
  · rw [hzero, Nat.zero_mul]
    exact Nat.zero_le _
  · omega

/-- Two checks come late. -/
theorem cyclic_timer_rate_late : ∃ s : Timers, s.clock = 8500 ∧
    s.fires (.lwip_cyclic_timer ⟨1000, .nd6_tmr⟩) * BitVec.toNat (1000 : BitVec 32) ≤
      s.clock - s.since ⟨1000, .nd6_tmr⟩ := by
  obtain ⟨s, hreach, hclock⟩ := exists_reach_of_run (timerMachine 0) Unmoved
    (timerInits ++ [.pass 7000] ++ timerRound ++ [.pass 1500] ++ timerRound)
    (fun s => s.clock = 8500) (by decide)
  exact ⟨s, hclock, cyclic_timer_rate hreach _⟩

/-- If no handler returns after it is due again, every complete check has called a cyclic handler
    once for each interval that went by since the timer was registered: late checks do not
    add up. -/
theorem cyclic_timer_exact {clock : Nat} {s : Timers}
    (h : Reach (timerMachine clock) (fun s a => Unmoved s a ∧ OnSchedule s a) s)
    (hcheck : s.check = none) {c : CyclicTimer} (hc : c ∈ lwip_cyclic_timers.tail)
    (hinit : c ∉ s.inits) :
    s.fires (.lwip_cyclic_timer c) = (s.checked - s.since c) / c.interval_ms.toNat := by
  obtain ⟨p, hp, hsettled, -, hpaced⟩ := reach_paced (R := (· ≥ ·)) Nat.le_refl
    (fun k hle => Nat.add_le_add_right hle k) (fun _ _ hok => hok.1) (.inl fun _ _ hok => hok.2) h
  have hreg := reach_registered h
  have hrunning : s.running = none := by
    rcases hrunning : s.running with _ | h'
    · rfl
    · have hsome := (hp.running h' hrunning).2
      rw [hcheck] at hsome
      cases hsome
  have hlisted : 0 < (p.entries.map Entry.item).count (.lwip_cyclic_timer c) := by
    have hentries := hreg.cyclic c
    have hpos := List.count_pos_iff.mpr hc
    have hnone : (s.inits.map TimeoutHandler.lwip_cyclic_timer).count
        (.lwip_cyclic_timer c) = 0 := by
      apply List.count_eq_zero.mpr
      intro hmem
      obtain ⟨c', hc', heq⟩ := List.mem_map.mp hmem
      cases heq
      exact hinit hc'
    rw [Timers.entries, hp.count_eq, hrunning, hnone, Option.toList_none,
      List.count_nil] at hentries
    omega
  obtain ⟨⟨due, _⟩, he, rfl⟩ := List.mem_map.mp (List.count_pos_iff.mp hlisted)
  have hpos := (interval_le (List.mem_of_mem_tail hc)).2
  have hdue := hpaced.listed c due he
  have hlate := hsettled.idle hcheck _ he
  have hcalled := hsettled.called c
  rw [hcheck, Option.getD_none] at hcalled
  dsimp only at hlate
  rw [Nat.add_mul, Nat.one_mul] at hdue
  symm
  apply Nat.div_eq_of_lt_le
  · obtain hzero | hcalled := hcalled
    · rw [hzero, Nat.zero_mul]
      exact Nat.zero_le _
    · omega
  · rw [Nat.add_mul, Nat.one_mul]
    omega

/-- A check that comes late. -/
theorem cyclic_timer_exact_late :
    ∃ s : Timers, s.checked = 2300 ∧ s.fires (.lwip_cyclic_timer ⟨1000, .nd6_tmr⟩) =
      (s.checked - s.since ⟨1000, .nd6_tmr⟩) / BitVec.toNat (1000 : BitVec 32) := by
  obtain ⟨s, hreach, hcheck, hinits, hchecked⟩ := exists_reach_of_run (timerMachine 0)
    (fun s a => Unmoved s a ∧ OnSchedule s a)
    (timerInits ++ [.pass 1700] ++ timerRound ++ [.pass 600] ++ timerRound)
    (fun s => s.check = none ∧ s.inits = [] ∧ s.checked = 2300) (by decide)
  have hinit : (⟨1000, .nd6_tmr⟩ : CyclicTimer) ∉ s.inits := by
    rw [hinits]
    exact nofun
  exact ⟨s, hchecked, cyclic_timer_exact hreach hcheck (by decide) hinit⟩

end tun2proxy.core
