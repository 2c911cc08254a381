import Tun2Proxy.Lwip.Timers

open tun2proxy.circular tun2proxy.machine tun2proxy.machine.Machine tun2proxy.agenda

namespace tun2proxy.core

/-! ### The timers on a clock that does not wrap -/

/-- When every handler is called next, and when the last one was due. -/
structure Plan where
  entries : List (Entry Nat TimeoutHandler)
  last : Nat

namespace Plan

/-- The handler is due at `due`, after all that are due at the same time. -/
def add (p : Plan) (due : Nat) (h : TimeoutHandler) : Plan :=
  { p with entries := agenda.add ⟨due, h⟩ p.entries }

/-- When the handler that has just run is due again, on a clock that does not wrap. -/
def next (p : Plan) (clock : Nat) : TimeoutHandler → Nat
  | .tcpip_tcp_timer => clock + TCP_TMR_INTERVAL.toNat
  | .lwip_cyclic_timer cyclic =>
    if p.last + cyclic.interval_ms.toNat < clock then clock + cyclic.interval_ms.toNat
    else p.last + cyclic.interval_ms.toNat

/-- `sys_restart_timeouts`: the first entry is due now, and the others as long after it as
    before. -/
def rebase (p : Plan) (clock : Nat) : Plan :=
  match p.entries with
  | [] => p
  | base :: _ => { p with entries := agenda.rebase (fun due => due - base.due + clock) p.entries }

/-- What a step of the timers does to the plan. -/
def step (p : Plan) (s : Timers) : TimerAct → Plan
  | .init _ =>
    match s.inits with
    | [] => p
    | cyclic :: _ => p.add (s.clock + cyclic.interval_ms.toNat) (.lwip_cyclic_timer cyclic)
  | .expire =>
    match p.entries with
    | [] => p
    | e :: rest => ⟨rest, e.due⟩
  | .handled _ =>
    match s.running with
    | none => p
    | some h =>
      if h = .tcpip_tcp_timer ∧ s.timeouts.pcbs = 0 then p else p.add (p.next s.clock h) h
  | .reg counted _ =>
    if s.timeouts.tcpip_tcp_timer_active = false ∧ 0 < s.timeouts.pcbs + counted.toNat then
      p.add (s.clock + TCP_TMR_INTERVAL.toNat) .tcpip_tcp_timer
    else p
  | .restart => p.rebase s.clock
  | _ => p

variable {p : Plan} {s : Timers}

/-- A cyclic timer is registered for one interval from now. -/
theorem step_init {cyclic : CyclicTimer} {rest : List CyclicTimer} (hinits : s.inits = cyclic :: rest)
    (allocated : Bool) : p.step s (.init allocated) =
      p.add (s.clock + cyclic.interval_ms.toNat) (.lwip_cyclic_timer cyclic) := by
  rw [step, hinits]

/-- The first entry is taken out, and its due time is kept for the next one. -/
theorem step_expire {e : Entry Nat TimeoutHandler} {rest : List (Entry Nat TimeoutHandler)}
    (hp : p.entries = e :: rest) : p.step s .expire = ⟨rest, e.due⟩ := by
  rw [step, hp]

/-- A handler that has run is registered again. -/
theorem step_again {h : TimeoutHandler} (hrunning : s.running = some h)
    (hneeded : h = .tcpip_tcp_timer → 0 < s.timeouts.pcbs) (allocated : Bool) :
    p.step s (.handled allocated) = p.add (p.next s.clock h) h := by
  rw [step, hrunning]
  dsimp only
  rw [if_neg]
  rintro ⟨htcp, hpcbs⟩
  have hpos := hneeded htcp
  omega

/-- `tcpip_tcp_timer` is not registered again when no pcb is left. -/
theorem step_stop (hrunning : s.running = some .tcpip_tcp_timer) (hpcbs : s.timeouts.pcbs = 0)
    (allocated : Bool) : p.step s (.handled allocated) = p := by
  rw [step, hrunning]
  exact if_pos ⟨rfl, hpcbs⟩

/-- A pcb that needs no new timer changes nothing. -/
theorem step_reg {counted : Bool} (hneeded : 0 < s.timeouts.pcbs + counted.toNat →
    s.timeouts.tcpip_tcp_timer_active = true) (allocated : Bool) :
    p.step s (.reg counted allocated) = p := by
  rw [step, if_neg]
  rintro ⟨hoff, hpos⟩
  have hactive := hneeded hpos
  rw [hoff] at hactive
  cases hactive

/-- The first pcb starts `tcpip_tcp_timer`. -/
theorem step_start {counted : Bool} (hoff : s.timeouts.tcpip_tcp_timer_active = false)
    (hpcbs : 0 < s.timeouts.pcbs + counted.toNat) (allocated : Bool) :
    p.step s (.reg counted allocated) =
      p.add (s.clock + TCP_TMR_INTERVAL.toNat) .tcpip_tcp_timer :=
  if_pos ⟨hoff, hpcbs⟩

end Plan

/-- The list that `timeouts.c` keeps of the agenda. -/
def image (entries : List (Entry Nat TimeoutHandler)) : List SysTimeo :=
  entries.map fun e => ⟨sys_now e.due, e.item⟩

private theorem image_add {due : Nat} {h : TimeoutHandler} {entries : List (Entry Nat TimeoutHandler)}
    (hnear : ∀ e ∈ entries, e.due < due + 2 ^ 31 ∧ due < e.due + 2 ^ 31) :
    image (agenda.add ⟨due, h⟩ entries) =
      (image entries).orderedInsert (fun t t' => TIME_LESS_THAN t.time t'.time)
        ⟨sys_now due, h⟩ := by
  apply List.map_orderedInsert
  · intro e he
    obtain ⟨hlow, hhigh⟩ := hnear e he
    exact (TIME_LESS_THAN_sys_now hlow hhigh.le).symm
  · intro e he
    obtain ⟨hlow, hhigh⟩ := hnear e he
    exact (TIME_LESS_THAN_sys_now hhigh hlow.le).symm

namespace Plan

variable {p : Plan} {clock : Nat}

private theorem rebase_nil (hp : p.entries = []) : p.rebase clock = p := by
  rw [rebase, hp]

private theorem rebase_cons {base : Entry Nat TimeoutHandler} {rest : List (Entry Nat TimeoutHandler)}
    (hp : p.entries = base :: rest) :
    p.rebase clock = ⟨agenda.rebase (fun due => due - base.due + clock) (base :: rest), p.last⟩ := by
  rw [rebase, hp]

/-- Every entry after the restart comes from one before it. -/
theorem mem_rebase {e : Entry Nat TimeoutHandler} (he : e ∈ (p.rebase clock).entries) :
    ∃ base rest x, p.entries = base :: rest ∧ x ∈ p.entries ∧
      e = ⟨x.due - base.due + clock, x.item⟩ := by
  rcases hp : p.entries with _ | ⟨base, rest⟩
  · rw [rebase_nil hp, hp] at he
    cases he
  · rw [rebase_cons hp] at he
    dsimp only at he
    obtain ⟨x, hx, rfl⟩ := agenda.mem_rebase.mp he
    exact ⟨base, rest, x, rfl, hx, rfl⟩

private theorem rebase_last : (p.rebase clock).last = p.last := by
  rcases hp : p.entries with _ | ⟨base, rest⟩
  · rw [rebase_nil hp]
  · rw [rebase_cons hp]

private theorem rebase_sorted (h : Sorted p.entries) : Sorted (p.rebase clock).entries := by
  rcases hp : p.entries with _ | ⟨base, rest⟩
  · rw [rebase_nil hp]
    exact h
  · rw [hp] at h
    rw [rebase_cons hp]
    dsimp only
    apply Sorted.rebase h
    intro e _ e' _ hle
    omega

end Plan

/-- `sys_restart_timeouts` computes in 32 bits what the plan does. -/
theorem restart_image {p : Plan} {s : Timeouts} (hlist : s.next_timeout = image p.entries)
    (hsorted : Sorted p.entries) (clock : Nat) :
    (s.sys_restart_timeouts (sys_now clock)).next_timeout = image (p.rebase clock).entries := by
  rcases hp : p.entries with _ | ⟨base, rest⟩
  · rw [hp] at hlist
    rw [Timeouts.sys_restart_timeouts, Plan.rebase_nil hp, hlist, hp]
    exact hlist
  · rw [hp] at hlist hsorted
    have hrest : s.next_timeout = ⟨sys_now base.due, base.item⟩ :: image rest := hlist
    rw [Timeouts.sys_restart_timeouts, Plan.rebase_cons hp, hrest]
    dsimp only
    rw [← hrest, hlist, image, image, agenda.rebase, List.map_map, List.map_map]
    apply List.map_congr_left
    intro e he
    have hle : base.due ≤ e.due := by
      obtain rfl | he := List.mem_cons.mp he
      · exact le_rfl
      · exact hsorted.head_le e he
    dsimp only [Function.comp_apply]
    rw [sys_now, sys_now, after_sub_after 0 hle, BitVec.add_comm, sys_now, after_add, Nat.add_comm]
    rfl

/-- The plan that the list stands for. Nothing is due before the last complete check, nor much
    later than the last call of a handler. -/
structure Ordered (s : Timers) (p : Plan) : Prop where
  next_timeout : s.timeouts.next_timeout = image p.entries
  last : s.timeouts.current_timeout_due_time = sys_now p.last
  sorted : Sorted p.entries
  after_checked : ∀ e ∈ p.entries, s.checked ≤ e.due
  after_last : ∀ e ∈ p.entries, p.last ≤ e.due
  near : ∀ e ∈ p.entries, e.due ≤ s.checked + 2 ^ 30 + 1000
  last_le : p.last ≤ s.clock
  checked_le : s.checked ≤ s.clock
  check : ∀ now, s.check = some now → s.checked ≤ now ∧ now ≤ s.clock
  running : ∀ h, s.running = some h → s.checked ≤ p.last ∧ s.check.isSome = true

/-- Where lwIP looks at the clock, the last complete check is at most 2 ^ 30 ms ago. A sleep of
    any length is allowed if it ends with `sys_restart_timeouts`. -/
def Punctual (s : Timers) : TimerAct → Prop
  | .pass _ | .check | .rmv | .restart => True
  | .init _ | .expire | .handled _ | .done | .reg _ _ => s.clock ≤ s.checked + 2 ^ 30

instance (s : Timers) : (a : TimerAct) → Decidable (Punctual s a)
  | .pass _ | .check | .rmv | .restart => inferInstanceAs (Decidable True)
  | .init _ | .expire | .handled _ | .done | .reg _ _ => inferInstanceAs (Decidable (_ ≤ _))

namespace Ordered

variable {s s' : Timers} {p : Plan} {a : TimerAct}

/-- At first nothing is planned. -/
theorem boot (clock : Nat) : Ordered (.boot clock) ⟨[], 0⟩ where
  next_timeout := rfl
  last := rfl
  sorted := List.Pairwise.nil
  after_checked := nofun
  after_last := nofun
  near := nofun
  last_le := Nat.zero_le clock
  checked_le := le_rfl
  check := nofun
  running := nofun

/-- The same list at another time. -/
theorem congr (h : Ordered s p) (hlist : s'.timeouts.next_timeout = s.timeouts.next_timeout)
    (hdue : s'.timeouts.current_timeout_due_time = s.timeouts.current_timeout_due_time)
    (hchecked : s'.checked = s.checked) (hclock : s.clock ≤ s'.clock)
    (hcheck : ∀ now, s'.check = some now → s.checked ≤ now ∧ now ≤ s'.clock)
    (hrunning : ∀ h', s'.running = some h' → s.running = some h' ∧ s'.check = s.check) :
    Ordered s' p where
  next_timeout := hlist.trans h.next_timeout
  last := hdue.trans h.last
  sorted := h.sorted
  after_checked := hchecked ▸ h.after_checked
  after_last := h.after_last
  near := hchecked ▸ h.near
  last_le := h.last_le.trans hclock
  checked_le := hchecked ▸ h.checked_le.trans hclock
  check := hchecked ▸ hcheck
  running h' hh' := by
    obtain ⟨hrun, hsame⟩ := hrunning h' hh'
    rw [hchecked, hsame]
    exact h.running h' hrun

/-- One more entry. -/
theorem link (h : Ordered s p) (hpunctual : s.clock ≤ s.checked + 2 ^ 30) {due : Nat}
    {h' : TimeoutHandler} (hdue : s.clock ≤ due) (hnear : due ≤ s.clock + 1000)
    (hlist : s'.timeouts.next_timeout = (s.timeouts.link ⟨sys_now due, h'⟩).next_timeout)
    (hlast : s'.timeouts.current_timeout_due_time = s.timeouts.current_timeout_due_time)
    (hchecked : s'.checked = s.checked) (hclock : s'.clock = s.clock) (hcheck : s'.check = s.check)
    (hrunning : ∀ h', s'.running = some h' → s.running = some h') :
    Ordered s' (p.add due h') where
  next_timeout := by
    rw [hlist, Timeouts.link, h.next_timeout, Plan.add, image_add]
    intro e he
    have hchecked := h.after_checked e he
    have hnear := h.near e he
    have hle := h.checked_le
    omega
  last := hlast.trans h.last
  sorted := h.sorted.add _
  after_checked e he := by
    have hle := h.checked_le
    rw [hchecked]
    obtain rfl | he := mem_add.mp he
    · exact hle.trans hdue
    · exact h.after_checked e he
  after_last e he := by
    obtain rfl | he := mem_add.mp he
    · exact h.last_le.trans hdue
    · exact h.after_last e he
  near e he := by
    rw [hchecked]
    obtain rfl | he := mem_add.mp he
    · dsimp only
      omega
    · exact h.near e he
  last_le := hclock ▸ h.last_le
  checked_le := hchecked ▸ hclock ▸ h.checked_le
  check := hchecked ▸ hclock ▸ hcheck ▸ h.check
  running h' hh' := by
    rw [hchecked, hcheck]
    exact h.running h' (hrunning h' hh')

/-- The time which the code computes modulo 2^32 is the one of the plan, and it lies at most a
    second ahead. -/
theorem next_eq (h : Ordered s p) (hreg : s.Registered) (hpunctual : s.clock ≤ s.checked + 2 ^ 30)
    {h' : TimeoutHandler} (hrunning : s.running = some h') :
    s.timeouts.nextTime (sys_now s.clock) h' = sys_now (p.next s.clock h') ∧
      s.clock ≤ p.next s.clock h' ∧ p.next s.clock h' ≤ s.clock + 1000 := by
  obtain ⟨hlast, -⟩ := h.running h' hrunning
  have hle := h.last_le
  obtain _ | c := h'
  · have htcp : TCP_TMR_INTERVAL.toNat = 250 := rfl
    rw [Timeouts.nextTime, Plan.next, sys_now_add]
    refine ⟨rfl, ?_, ?_⟩ <;> omega
  · have hinterval := (interval_le (hreg.mem_of_running hrunning)).1
    rw [Timeouts.nextTime, Plan.next, h.last, sys_now_add, sys_now_add]
    have hless : TIME_LESS_THAN (sys_now (p.last + c.interval_ms.toNat)) (sys_now s.clock) ↔
        p.last + c.interval_ms.toNat < s.clock :=
      TIME_LESS_THAN_sys_now (by omega) (by omega)
    by_cases hover : p.last + c.interval_ms.toNat < s.clock
    · rw [if_pos (hless.mpr hover), if_pos hover]
      refine ⟨rfl, ?_, ?_⟩ <;> omega
    · rw [if_neg (fun hlt => hover (hless.mp hlt)), if_neg hover]
      refine ⟨rfl, ?_, ?_⟩ <;> omega

/-- The head of the list is the first of the plan. -/
theorem head (h : Ordered s p) {time : BitVec 32} {h' : TimeoutHandler} {next : List SysTimeo}
    (hlist : s.timeouts.next_timeout = ⟨time, h'⟩ :: next) : ∃ due rest,
      p.entries = ⟨due, h'⟩ :: rest ∧ time = sys_now due ∧ next = image rest := by
  have himage := h.next_timeout.symm.trans hlist
  rcases hp : p.entries with _ | ⟨e, rest⟩
  · rw [hp] at himage
    cases himage
  · rw [hp] at himage
    cases himage
    exact ⟨e.due, rest, rfl, rfl, rfl⟩

/-- An entry is due when the check says so. -/
theorem due_iff (h : Ordered s p) {now : Nat} (hcheck : s.check = some now)
    (hpunctual : s.clock ≤ s.checked + 2 ^ 30) {e : Entry Nat TimeoutHandler}
    (he : e ∈ p.entries) :
    TIME_LESS_THAN (sys_now now) (sys_now e.due) ↔ now < e.due := by
  obtain ⟨hlow, hhigh⟩ := h.check now hcheck
  have hchecked := h.after_checked e he
  have hnear := h.near e he
  exact TIME_LESS_THAN_sys_now (by omega) (by omega)

/-- A check ends only when nothing is due. -/
theorem done (h : Ordered s p) {now : Nat} (hcheck : s.check = some now)
    (hpunctual : s.clock ≤ s.checked + 2 ^ 30) (hnone : s.timeouts.expired (sys_now now) = none) :
    ∀ e ∈ p.entries, now < e.due := by
  intro e he
  obtain hnil | ⟨t, next, hlist, hlate⟩ := Timeouts.expired_eq_none hnone
  · have himage := h.next_timeout.symm.trans hnil
    rw [List.map_eq_nil_iff.mp himage] at he
    cases he
  · obtain ⟨due, rest, hp, htime, -⟩ := h.head hlist
    have hsorted := h.sorted
    have hfirst := h.due_iff hcheck hpunctual (hp ▸ List.mem_cons_self)
    rw [htime] at hlate
    have hlt := hfirst.mp hlate
    rw [hp] at he hsorted
    obtain rfl | he := List.mem_cons.mp he
    · exact hlt
    · exact hlt.trans_le (hsorted.head_le e he)

/-- What a step of the timers does to the plan. -/
theorem step (h : Ordered s p) (hreg : s.Registered) (hpunctual : Punctual s a)
    (hmove : TimerMove s a s') : Ordered s' (p.step s a) := by
  cases hmove with
  | pass ms =>
    have hle := h.checked_le
    refine h.congr rfl rfl rfl (Nat.le_add_right _ _) ?_ fun _ hh' => ⟨hh', rfl⟩
    intro now hnow
    obtain ⟨hlow, hhigh⟩ := h.check now hnow
    exact ⟨hlow, by dsimp only; omega⟩
  | @init cyclic rest _ hinits hcheck =>
    have hc := (interval_le (hreg.mem_of_init (hinits ▸ List.mem_cons_self))).1
    rw [Plan.step_init hinits]
    refine h.link hpunctual (Nat.le_add_right _ _) (by omega) ?_ rfl rfl rfl rfl fun _ hh' => hh'
    rw [← sys_now_add]
  | check hcheck =>
    refine h.congr rfl rfl rfl le_rfl ?_ ?_
    · rintro _ ⟨⟩
      exact ⟨h.checked_le, le_rfl⟩
    · intro h' hh'
      obtain ⟨-, hsome⟩ := h.running h' hh'
      rw [hcheck] at hsome
      cases hsome
  | @expire now time h' next hcheck hrunning hlist hdue =>
    obtain ⟨due, rest, hp, rfl, rfl⟩ := h.head hlist
    have hmem {e : Entry Nat TimeoutHandler} (he : e ∈ rest) : e ∈ p.entries :=
      hp ▸ List.mem_cons_of_mem _ he
    have hself : ⟨due, h'⟩ ∈ p.entries := hp ▸ List.mem_cons_self
    have hsorted := h.sorted
    have hle := mt (h.due_iff hcheck hpunctual hself).mpr hdue
    obtain ⟨-, hnow⟩ := h.check now hcheck
    rw [hp] at hsorted
    rw [Plan.step_expire hp]
    exact {
      next_timeout := rfl
      last := rfl
      sorted := hsorted.tail
      after_checked := fun e he => h.after_checked e (hmem he)
      after_last := hsorted.head_le
      near := fun e he => h.near e (hmem he)
      last_le := by
        dsimp only at hle ⊢
        omega
      checked_le := h.checked_le
      check := h.check
      running := fun _ _ => ⟨h.after_checked _ hself, by rw [hcheck]; rfl⟩ }
  | @again h' _ hrunning hneeded =>
    obtain ⟨hnext, hlow, hhigh⟩ := h.next_eq hreg hpunctual hrunning
    rw [Plan.step_again hrunning hneeded]
    refine h.link hpunctual hlow hhigh ?_ rfl rfl rfl rfl fun _ hh' => by cases hh'
    rw [← hnext]
  | stop hrunning hpcbs =>
    rw [Plan.step_stop hrunning hpcbs]
    exact h.congr rfl rfl rfl le_rfl h.check nofun
  | @done now hcheck hrunning hnone =>
    have hlate := h.done hcheck hpunctual hnone
    obtain ⟨hlow, hhigh⟩ := h.check now hcheck
    exact {
      next_timeout := h.next_timeout
      last := h.last
      sorted := h.sorted
      after_checked := fun e he => (hlate e he).le
      after_last := h.after_last
      near := fun e he => by
        have hnear := h.near e he
        dsimp only
        omega
      last_le := h.last_le
      checked_le := hhigh
      check := nofun
      running := fun h' hh' => by
        rw [hrunning] at hh'
        cases hh' }
  | reg hopen hneeded =>
    rw [Plan.step_reg hneeded]
    exact h.congr rfl rfl rfl le_rfl h.check fun _ hh' => ⟨hh', rfl⟩
  | start hopen hoff hpcbs =>
    have htcp : TCP_TMR_INTERVAL.toNat = 250 := rfl
    rw [Plan.step_start hoff hpcbs]
    refine h.link hpunctual (Nat.le_add_right _ _) (by omega) ?_ rfl rfl rfl rfl fun _ hh' => hh'
    rw [← sys_now_add]
    rfl
  | rmv hpcbs => exact h.congr rfl rfl rfl le_rfl h.check fun _ hh' => ⟨hh', rfl⟩
  | restart hcheck =>
    have hrunning (h' : TimeoutHandler) : s.running ≠ some h' := by
      intro hh'
      obtain ⟨-, hsome⟩ := h.running h' hh'
      rw [hcheck] at hsome
      cases hsome
    have hdue : (s.timeouts.sys_restart_timeouts (sys_now s.clock)).current_timeout_due_time =
        s.timeouts.current_timeout_due_time := by
      rw [Timeouts.sys_restart_timeouts]
      obtain _ | ⟨base, rest⟩ := s.timeouts.next_timeout
      · rfl
      · rfl
    have hlow {e : Entry Nat TimeoutHandler} (he : e ∈ (p.rebase s.clock).entries) :
        s.clock ≤ e.due ∧ e.due ≤ s.clock + 2 ^ 30 + 1000 := by
      obtain ⟨base, rest, x, hp, hx, rfl⟩ := Plan.mem_rebase he
      have hnear := h.near x hx
      have hchecked := h.after_checked base (hp ▸ List.mem_cons_self)
      dsimp only
      omega
    have hlast : (p.step s .restart).last = p.last := Plan.rebase_last
    exact {
      next_timeout := restart_image h.next_timeout h.sorted s.clock
      last := (hdue.trans h.last).trans (congrArg sys_now hlast.symm)
      sorted := Plan.rebase_sorted h.sorted
      after_checked := fun e he => (hlow he).1
      after_last := fun e he => hlast.le.trans (h.last_le.trans (hlow he).1)
      near := fun e he => (hlow he).2
      last_le := hlast.le.trans h.last_le
      checked_le := le_rfl
      check := fun now hnow => by
        rw [hcheck] at hnow
        cases hnow
      running := fun h' hh' => absurd hh' (hrunning h') }

end Ordered

end tun2proxy.core
