import Tun2Proxy.Lib.Trace
import Tun2Proxy.Relay.HalfClose

open tun2proxy.machine tun2proxy.machine.Machine

namespace tun2proxy.relay

/-- The time that a schedule takes. -/
def clock : List RelayAct → Nat
  | [] => 0
  | .pass n :: rest => n + clock rest
  | _ :: rest => clock rest

/-- When the copy from `y` runs the sections before its first `Read`: it calls
    `SetReadDeadline` on the other side first, then `SetWriteDeadline` on `y`. -/
def opened (y : Side) : Nat → List RelayAct → List Nat
  | _, [] => []
  | now, .pass n :: rest => opened y (now + n) rest
  | now, .prepare x :: rest =>
    if x = y then now :: opened y now rest else opened y now rest
  | now, _ :: rest => opened y now rest

/-- `Read` or `Write` runs after the deadline in force for it. -/
def Late (s : RelayState) : RelayAct → Prop
  | .read x _ _ => expired (s.conns x).readDeadline s.now
  | .write x _ _ => expired (s.conns x.other).writeDeadline s.now
  | _ => False

/-- No `Read` or `Write` of the schedule runs after its deadline. -/
def NotCut (schedule : List RelayAct) : Prop :=
  Steps (relayMachine .handleTCP) (fun s act => ¬Late s act) schedule

/-- Each direction completes a `Write` in every interval of length `timeout`. -/
def Active (schedule : List RelayAct) : Prop :=
  ∀ x t, t + timeout ≤ clock schedule → ∃ front n back,
    schedule = front ++ .write x n none :: back ∧ t ≤ clock front ∧ clock front ≤ t + timeout

/-- Less than `timeout` has passed since the opposite copy began: it is the one that has set
    the deadline for reading from `x`, and that for writing to the other side, too. -/
def InTime (front : List RelayAct) : RelayAct → Prop
  | .read x _ _ => ∀ t ∈ (opened x.other 0 front)[0]?, clock front < t + timeout
  | .write x _ _ => ∀ t ∈ (opened x.other 0 front)[1]?, clock front < t + timeout
  | _ => True

/-- Every `Read` and `Write` of the schedule is that early. -/
def WithinTimeout (schedule : List RelayAct) : Prop :=
  ∀ front act back, schedule = front ++ act :: back → InTime front act

private theorem clock_append (front back : List RelayAct) :
    clock (front ++ back) = clock front + clock back := by
  induction front with
  | nil => simp [clock]
  | cons act front ih =>
    cases act with
    | pass n => simp only [List.cons_append, clock, ih, Nat.add_assoc]
    | _ => exact ih

private theorem opened_append (y : Side) (back : List RelayAct) (front : List RelayAct) :
    ∀ now, opened y now (front ++ back) =
      opened y now front ++ opened y (now + clock front) back := by
  induction front with
  | nil => intro now; rfl
  | cons act front ih =>
    intro now
    cases act with
    | pass n => simp only [List.cons_append, opened, clock, ih, Nat.add_assoc]
    | prepare x =>
      simp only [List.cons_append, opened, clock, ih]
      split <;> rfl
    | _ => exact ih now

/-- The sections are run during the schedule. -/
theorem le_of_mem_opened {y : Side} {t : Nat} (front : List RelayAct) :
    ∀ {now}, t ∈ opened y now front → t ≤ now + clock front := by
  induction front with
  | nil =>
    intro now ht
    cases ht
  | cons act front ih =>
    intro now ht
    cases act with
    | pass n =>
      have hle := ih ht
      rw [clock]
      omega
    | prepare x =>
      rw [opened] at ht
      split at ht
      · obtain rfl | ht := List.mem_cons.mp ht
        · exact Nat.le_add_right _ _
        · exact ih ht
      · exact ih ht
    | _ => exact ih ht

/-- How many of the two sections a copy has run. -/
def CopyAt.prepared : CopyAt → Nat
  | .absent | .setRead => 0
  | .setWrite => 1
  | _ => 2

private theorem afterRead_prepared (data : List UInt8) (err : Option ReadError) :
    (afterRead data err).prepared = 2 := by
  unfold afterRead
  split
  · split <;> rfl
  · rfl

private theorem afterWrite_prepared (data : List UInt8) (err : Option ReadError) (n : Nat)
    (werr : Option WriteError) : (afterWrite data err n werr).prepared = 2 := by
  unfold afterWrite
  split
  · rfl
  · split
    · rfl
    · exact afterRead_prepared [] err

private theorem opened_snoc (y : Side) (schedule : List RelayAct) (act : RelayAct) :
    opened y 0 (schedule ++ [act]) =
      opened y 0 schedule ++ if act = .prepare y then [clock schedule] else [] := by
  rw [opened_append, Nat.zero_add]
  congr 1
  cases act with
  | prepare x => simp [opened]
  | _ => simp [opened]

/-- The deadlines are the ones that the copies have set at their beginning, and no others. -/
structure DeadlineInv (schedule : List RelayAct) (s : RelayState) : Prop where
  now : s.now = clock schedule
  prepared : ∀ y, (opened y 0 schedule).length = (s.copies y).prepared
  readDeadline : ∀ y,
    (s.conns y).readDeadline = (opened y.other 0 schedule)[0]?.map (· + timeout)
  writeDeadline : ∀ y, (s.conns y).writeDeadline = (opened y 0 schedule)[1]?.map (· + timeout)

namespace DeadlineInv

variable {schedule : List RelayAct} {s s' : RelayState} {act : RelayAct}

/-- A section that sets no deadline and takes no time. -/
theorem quiet (hinv : DeadlineInv schedule s) (hact : ∀ y, act ≠ .prepare y)
    (hclock : clock [act] = 0) (hnow : s'.now = s.now)
    (hcopies : ∀ y, (s'.copies y).prepared = (s.copies y).prepared)
    (hread : ∀ y, (s'.conns y).readDeadline = (s.conns y).readDeadline)
    (hwrite : ∀ y, (s'.conns y).writeDeadline = (s.conns y).writeDeadline) :
    DeadlineInv (schedule ++ [act]) s' := by
  have hopened (y : Side) : opened y 0 (schedule ++ [act]) = opened y 0 schedule := by
    rw [opened_snoc, if_neg (hact y), List.append_nil]
  refine ⟨?_, fun y => ?_, fun y => ?_, fun y => ?_⟩
  · rw [hnow, clock_append, hclock, Nat.add_zero]
    exact hinv.now
  · rw [hopened, hcopies]
    exact hinv.prepared y
  · rw [hread, hopened]
    exact hinv.readDeadline y
  · rw [hwrite, hopened]
    exact hinv.writeDeadline y

private theorem prepared_update {x : Side} {place : CopyAt}
    (hplace : place.prepared = (s.copies x).prepared) (y : Side) :
    (Function.update s.copies x place y).prepared = (s.copies y).prepared := by
  rw [Function.update_apply]
  split
  · rename_i heq
    rw [heq, hplace]
  · rfl

/-- A section that sets a deadline: the first of a copy that for reading from the other side,
    the second that for writing to its own. -/
theorem prepare (hinv : DeadlineInv schedule s) {x : Side} {place : CopyAt}
    (hnow : s'.now = s.now) (hcopies : s'.copies = Function.update s.copies x place)
    (hplace : place.prepared = (s.copies x).prepared + 1)
    (hread : ∀ y, (s'.conns y).readDeadline =
      if y.other = x ∧ (s.copies x).prepared = 0 then some (s.now + timeout)
      else (s.conns y).readDeadline)
    (hwrite : ∀ y, (s'.conns y).writeDeadline =
      if y = x ∧ (s.copies x).prepared = 1 then some (s.now + timeout)
      else (s.conns y).writeDeadline) :
    DeadlineInv (schedule ++ [.prepare x]) s' := by
  have hlen := hinv.prepared x
  have hself : opened x 0 (schedule ++ [.prepare x]) = opened x 0 schedule ++ [s.now] := by
    rw [opened_snoc, if_pos rfl, hinv.now]
  have hother {y : Side} (hy : y ≠ x) :
      opened y 0 (schedule ++ [.prepare x]) = opened y 0 schedule := by
    have hact : RelayAct.prepare x ≠ .prepare y := by simpa using hy.symm
    rw [opened_snoc, if_neg hact, List.append_nil]
  have hget (k : Nat) : (opened x 0 schedule ++ [s.now])[k]? =
      if (s.copies x).prepared = k then some s.now else (opened x 0 schedule)[k]? := by
    rw [← hlen]
    split
    · rename_i hk
      rw [← hk, List.getElem?_concat_length]
    · obtain hlt | hgt := Nat.lt_or_gt_of_ne ‹_›
      · rw [List.getElem?_eq_none (by rw [List.length_append]; exact hlt),
          List.getElem?_eq_none (Nat.le_of_lt hlt)]
      · rw [List.getElem?_append_left hgt]
  refine ⟨by rw [hnow, clock_append]; exact hinv.now, fun y => ?_, fun y => ?_, fun y => ?_⟩
  · by_cases hy : y = x
    · subst hy
      rw [hself, hcopies, Function.update_self, List.length_append, hlen, hplace]
      rfl
    · rw [hother hy, hcopies, Function.update_of_ne hy]
      exact hinv.prepared y
  · rw [hread, hinv.readDeadline]
    by_cases hy : y.other = x
    · rw [hy, hself, hget]
      split_ifs <;> first | rfl | simp_all
    · rw [hother hy, if_neg (fun h => hy h.1)]
  · rw [hwrite, hinv.writeDeadline]
    by_cases hy : y = x
    · subst hy
      rw [hself, hget]
      split_ifs <;> first | rfl | simp_all
    · rw [hother hy, if_neg (fun h => hy h.1)]

theorem step (hinv : DeadlineInv schedule s) (hclose : CloseInv .handleTCP s)
    (hsec : RelaySection .handleTCP s act s') : DeadlineInv (schedule ++ [act]) s' := by
  cases hsec with
  | @pass n =>
    refine ⟨?_, fun y => ?_, fun y => ?_, fun y => ?_⟩
    · rw [clock_append]
      exact congrArg (· + n) hinv.now
    · rw [opened_snoc, if_neg (by simp), List.append_nil]
      exact hinv.prepared y
    · rw [opened_snoc, if_neg (by simp), List.append_nil]
      exact hinv.readDeadline y
    · rw [opened_snoc, if_neg (by simp), List.append_nil]
      exact hinv.writeDeadline y
  | @start x rest hmain =>
    have habsent := (hclose.starting _ hmain).2 x List.mem_cons_self
    exact hinv.quiet (by simp) rfl rfl (prepared_update (by rw [habsent]; rfl)) (fun _ => rfl)
      fun _ => rfl
  | @setRead x hat =>
    refine hinv.prepare rfl rfl (by rw [hat]; rfl) (fun y => ?_) fun y => ?_
    · rw [hat]
      cases x <;> cases y <;> rfl
    · rw [hat]
      cases x <;> cases y <;> rfl
  | @setWrite x hat =>
    refine hinv.prepare rfl rfl (by rw [hat]; rfl) (fun y => ?_) fun y => ?_
    · rw [hat]
      cases x <;> cases y <;> rfl
    · rw [hat]
      cases x <;> cases y <;> rfl
  | read hat _ _ =>
    refine hinv.quiet (by simp) rfl rfl
      (prepared_update (s := s) (by rw [hat, afterRead_prepared]; rfl)) (fun y => ?_) fun y => ?_
    · simp only [RelayState.setCopy_conns, RelayState.modConn_field Conn.readDeadline, implies_true]
    · simp only [RelayState.setCopy_conns, RelayState.modConn_field Conn.writeDeadline,
        implies_true]
  | write hat _ _ =>
    refine hinv.quiet (by simp) rfl rfl
      (prepared_update (s := s) (by rw [hat, afterWrite_prepared]; rfl)) (fun y => ?_) fun y => ?_
    · simp only [RelayState.setCopy_conns, RelayState.modConn_field Conn.readDeadline, implies_true]
    · simp only [RelayState.setCopy_conns, RelayState.modConn_field Conn.writeDeadline,
        implies_true]
  | done hat =>
    exact hinv.quiet (by simp) rfl rfl (prepared_update (by rw [hat]; rfl)) (fun _ => rfl)
      fun _ => rfl
  | wait _ _ => exact hinv.quiet (by simp) rfl rfl (fun _ => rfl) (fun _ => rfl) fun _ => rfl
  | close _ =>
    refine hinv.quiet (by simp) rfl rfl (fun _ => rfl) (fun y => ?_) fun y => ?_
    · simp only [RelayState.modConn_field Conn.readDeadline, implies_true]
    · simp only [RelayState.modConn_field Conn.writeDeadline, implies_true]

end DeadlineInv

private theorem trace_deadlineInv {schedule : List RelayAct} {s : RelayState}
    (h : Trace (relayMachine .handleTCP) schedule s) : DeadlineInv schedule s := by
  induction h with
  | nil => exact ⟨rfl, fun _ => rfl, fun _ => rfl, fun _ => rfl⟩
  | snoc htrace hstep ih =>
    exact ih.step (reach_closeInv htrace.reach) (RelayState.step_section hstep)

/-- A `Read` or `Write` is late exactly if it is not within `timeout` of the beginning. -/
theorem DeadlineInv.late_iff {schedule : List RelayAct} {s : RelayState}
    (hinv : DeadlineInv schedule s) (act : RelayAct) : Late s act ↔ ¬InTime schedule act := by
  have hexpired (deadline : Option Nat) :
      expired (deadline.map (· + timeout)) s.now ↔
        ¬∀ t ∈ deadline, clock schedule < t + timeout := by
    rw [hinv.now]
    cases deadline with
    | none => simp [expired]
    | some t => simp [expired]
  cases act with
  | read x data err =>
    rw [Late, InTime, hinv.readDeadline]
    exact hexpired _
  | write x n werr =>
    rw [Late, InTime, hinv.writeDeadline]
    exact hexpired _
  | _ => simp [Late, InTime]

private theorem notCut_iff_withinTimeout {schedule : List RelayAct} {s : RelayState}
    (h : Trace (relayMachine .handleTCP) schedule s) :
    NotCut schedule ↔ WithinTimeout schedule := by
  constructor
  · intro hcut front act back hsplit
    obtain ⟨mid, mid', hfront, -⟩ := h.before hsplit
    by_contra hout
    exact hcut front act back mid hsplit hfront
      (((trace_deadlineInv hfront).late_iff act).mpr hout)
  · intro hwithin front act back mid hsplit hfront hlate
    exact ((trace_deadlineInv hfront).late_iff act).mp hlate (hwithin front act back hsplit)

/-- A copy that has come to a `Write` has set both of its deadlines. -/
theorem opened_of_write {schedule front back : List RelayAct} {s : RelayState} {x : Side} {n : Nat}
    {werr : Option WriteError} (h : Trace (relayMachine .handleTCP) schedule s)
    (hsplit : schedule = front ++ .write x n werr :: back) :
    ∃ t, (opened x 0 front)[1]? = some t ∧ t ≤ clock front := by
  obtain ⟨mid, mid', hfront, hstep⟩ := h.before hsplit
  have hlen := (trace_deadlineInv hfront).prepared x
  have hsec : RelaySection .handleTCP mid (.write x n werr) mid' := RelayState.step_section hstep
  cases hsec with
  | @write _ data err _ _ hat _ _ =>
    rw [hat] at hlen
    have hlt : 1 < (opened x 0 front).length := by
      rw [hlen]
      exact Nat.one_lt_two
    refine ⟨_, List.getElem?_eq_getElem hlt, ?_⟩
    have hle := le_of_mem_opened front (List.getElem_mem hlt)
    rwa [Nat.zero_add] at hle

/-- A `Write` that returns nil is in time. -/
theorem inTime_of_write {schedule front back : List RelayAct} {s : RelayState} {x : Side} {n : Nat}
    (h : Trace (relayMachine .handleTCP) schedule s)
    (hsplit : schedule = front ++ .write x n none :: back) : InTime front (.write x n none) := by
  obtain ⟨mid, mid', hfront, hstep⟩ := h.before hsplit
  have hsec : RelaySection .handleTCP mid (.write x n none) mid' := RelayState.step_section hstep
  cases hsec with
  | write _ _ htime =>
    by_contra hout
    have hlate : expired (mid.conns x.other).writeDeadline mid.now :=
      ((trace_deadlineInv hfront).late_iff (.write x n none)).mpr hout
    rw [if_pos hlate] at htime
    cases htime

/-- No run stays active for long: `timeout` limits the lifetime of the connection. -/
theorem Active.clock_lt {schedule : List RelayAct} {s : RelayState}
    (h : Trace (relayMachine .handleTCP) schedule s) (hactive : Active schedule) :
    clock schedule < 3 * timeout := by
  by_contra hlong
  -- the copy to the TUN side has set its deadlines before `timeout`
  obtain ⟨front, n, back, hsplit, -, hearly⟩ := hactive .tun 0 (by omega)
  obtain ⟨t, hopened, hset⟩ := opened_of_write h hsplit
  -- and the opposite copy still writes after `2 * timeout`
  obtain ⟨front', n', back', hsplit', hlate, -⟩ := hactive .proxy (2 * timeout) (by omega)
  have hpos : 0 < timeout := by decide
  have hprefix : front <+: front' := by
    obtain hle | hle := Nat.le_total front.length front'.length
    · exact List.prefix_of_prefix_length_le ⟨_, hsplit.symm⟩ ⟨_, hsplit'.symm⟩ hle
    · obtain ⟨mid, hmid⟩ := List.prefix_of_prefix_length_le ⟨_, hsplit'.symm⟩ ⟨_, hsplit.symm⟩ hle
      rw [← hmid, clock_append] at hearly
      omega
  obtain ⟨mid, rfl⟩ := hprefix
  have hintime := inTime_of_write h hsplit' t
  rw [Side.other, opened_append, List.getElem?_append_left (List.getElem?_eq_some_iff.mp hopened).1]
    at hintime
  have := hintime hopened
  omega

/-- In every run of the relay: no `Read` or `Write` of an active run is after its deadline if
    and only if each is within `timeout` of the beginning of the copy that has set it; and
    the activity does not help, as no run that is active lasts longer than three times that. -/
theorem active_notCut_iff {schedule : List RelayAct} {s : RelayState}
    (h : Trace (relayMachine .handleTCP) schedule s) :
    ((Active schedule → NotCut schedule) ↔ (Active schedule → WithinTimeout schedule)) ∧
    (Active schedule → clock schedule < 3 * timeout) :=
  ⟨imp_congr_right fun _ => notCut_iff_withinTimeout h, Active.clock_lt h⟩

/-- Both copies start and set their deadlines. -/
def beginning : List RelayAct :=
  [.start, .start, .prepare .proxy, .prepare .proxy, .prepare .tun, .prepare .tun]

/-- Ten seconds pass, and then each direction transfers a byte. -/
def exchange : List RelayAct :=
  [.pass 10000000000, .read .tun [1] none, .write .tun 1 none, .read .proxy [2] none,
    .write .proxy 1 none]

theorem active_notCut_iff_twice : ∃ s,
    let schedule := beginning ++ exchange ++ exchange
    Trace (relayMachine .handleTCP) schedule s ∧
    ((Active schedule → NotCut schedule) ↔ (Active schedule → WithinTimeout schedule)) ∧
    (Active schedule → clock schedule < 3 * timeout) := by
  obtain ⟨s, htrace, -⟩ := exists_trace_of_run (relayMachine .handleTCP) any
    (beginning ++ exchange ++ exchange) (fun _ => True) (by decide)
  exact ⟨s, htrace, active_notCut_iff htrace⟩

/-- Each direction transfers a byte every ten seconds; the third time `Read` fails. -/
theorem active_cut : ∃ s,
    let schedule := beginning ++ exchange ++ exchange ++
      [.pass 10000000000, .read .tun [] (some .timeout)]
    Trace (relayMachine .handleTCP) schedule s ∧ Active schedule ∧ ¬NotCut schedule := by
  obtain ⟨s, htrace, -⟩ := exists_trace_of_run (relayMachine .handleTCP) any
    (beginning ++ exchange ++ exchange ++ [.pass 10000000000, .read .tun [] (some .timeout)])
    (fun _ => True) (by decide)
  refine ⟨s, htrace, fun x t ht => ?_, fun hcut => ?_⟩
  · have hclock : clock (beginning ++ exchange ++ exchange ++
      [.pass 10000000000, .read .tun [] (some .timeout)]) = timeout := by decide
    obtain rfl : t = 0 := by omega
    cases x with
    | tun =>
      exact ⟨beginning ++ exchange.take 2, 1, _, rfl, by decide, by decide⟩
    | proxy =>
      exact ⟨beginning ++ exchange.take 4, 1, _, rfl, by decide, by decide⟩
  · have hwithin := (notCut_iff_withinTimeout htrace).mp hcut
      (beginning ++ exchange ++ exchange ++ [.pass 10000000000]) _ [] rfl
    exact absurd (hwithin 0 (by decide)) (by decide)

end tun2proxy.relay
