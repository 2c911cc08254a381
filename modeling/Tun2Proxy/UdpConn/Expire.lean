import Mathlib.Data.List.Count
import Mathlib.Data.List.Nodup
import Tun2Proxy.UdpConn.Calls

open tun2proxy.machine tun2proxy.machine.Machine tun2proxy.udppackage

namespace tun2proxy.core

/-! ### The counters -/

/-- The goroutine is where `onAction` closes a connection. -/
def UdpProc.expiring : UdpProc → Bool
  | .close _ true | .unregister _ true | .forget _ | .unregisterAgain _ => true
  | _ => false

/-- `udpRecvFn` stores the counters as `int32` and `onAction` looks for `int`: none is ever
    counted down, and no connection is closed for it. -/
structure NeverCounts (s : UdpStack) : Prop where
  values : ∀ c v, s.udpConMap c = some v → v = .int32 timeout
  procs : ∀ t, (s.procs t).expiring = false
  udplock : ∀ t, s.udplock = some t → s.procs t = .range

namespace NeverCounts

variable {s s' : UdpStack} {a : UdpAct}

theorem init : NeverCounts UdpStack.init where
  values c v h := by cases h
  procs t := rfl
  udplock t h := by cases h

theorem not_int (hinv : NeverCounts s) {c : UdpNo} {v : Int} : s.udpConMap c ≠ some (.int v) := by
  intro hentry
  cases hinv.values c _ hentry

private theorem not_forget (hinv : NeverCounts s) {t : Tid} {c : UdpNo} : s.procs t ≠ .forget c := by
  intro hproc
  have hfalse := hinv.procs t
  rw [hproc] at hfalse
  cases hfalse

theorem values_step (hinv : NeverCounts s) (hsec : UdpSection s a s') (c : UdpNo) (v : TimeoutVal)
    (hv : s'.udpConMap c = some v) : v = .int32 timeout := by
  cases hsec with
  | touch _ _ =>
    simp only [UdpStack.setProc_udpConMap, Function.update_apply] at hv
    split at hv
    · cases hv
      rfl
    · exact hinv.values c v hv
  | countDown _ hentry => exact absurd hentry hinv.not_int
  | forget hproc => exact absurd hproc hinv.not_forget
  | _ => exact hinv.values c v hv

theorem procs_step (hinv : NeverCounts s) (hsec : UdpSection s a s') (t : Tid) :
    (s'.procs t).expiring = false := by
  have hold := hinv.procs t
  obtain hsame | hown := hsec.procs t
  · rw [hsame, hold]
  generalize s.procs t = p at hown hold
  generalize s'.procs t = p' at hown
  cases hown with
  | move hmove =>
    cases hmove with
    | expire hentry _ => exact absurd hentry hinv.not_int
    | _ => rfl
  | @close c byAction _ => cases byAction <;> exact hold
  | unregisterAction _ | forget | unregisterAgain _ => cases hold
  | _ => rfl

/-- Only the end of `onAction` takes a goroutine out of `Range`. -/
theorem range_step (hinv : NeverCounts s) (hsec : UdpSection s a s') {t : Tid}
    (hproc : s.procs t = .range) : s'.procs t = .range ∨ s'.udplock = none := by
  have hother : ∀ {t' : Tid} {p p' : UdpProc}, s.procs t' = p → p ≠ .range →
      Function.update s.procs t' p' t = .range := by
    rintro t' p p' rfl hne
    rw [Function.update_of_ne, hproc]
    rintro rfl
    exact hne hproc
  cases hsec with
  | rangeEnd _ => exact .inr rfl
  | move hmove =>
    refine .inl (hother rfl fun hrange => ?_)
    rw [hrange] at hmove
    cases hmove with
    | expire hentry _ => exact hinv.not_int hentry
  | queue hstart _ | receive hstart _ =>
    refine .inl (hother rfl fun hrange => ?_)
    rw [hrange] at hstart
    cases hstart
  | refuse hrefused =>
    refine .inl (hother rfl fun hrange => ?_)
    rw [hrange] at hrefused
    cases hrefused
  | recvFn hat _ | create hat | noHandler hat | store hat | touch hat _ | writeFrom hat _ _
  | invoke hat _ | handled hat | sendto hat | close hat | unregister hat | action hat _ | forget hat
  | unregisterAgain hat => exact .inl (hother hat nofun)
  | _ => exact .inl hproc

private theorem udplock_step (hinv : NeverCounts s) (hsec : UdpSection s a s') (t : Tid)
    (hlock : s'.udplock = some t) : s'.procs t = .range := by
  by_cases hold : s.udplock = some t
  · obtain hrange | hfree := hinv.range_step hsec (hinv.udplock t hold)
    · exact hrange
    · rw [hfree] at hlock
      cases hlock
  cases hsec with
  | action _ _ =>
    cases hlock
    simp
  | rangeEnd _ => cases hlock
  | _ => exact absurd hlock hold

theorem step (hinv : NeverCounts s) (hsec : UdpSection s a s') : NeverCounts s' :=
  ⟨hinv.values_step hsec, hinv.procs_step hsec, hinv.udplock_step hsec⟩

/-- An entry of `UdpConMap` stays. -/
theorem entry_step (hinv : NeverCounts s) (hsec : UdpSection s a s') {c : UdpNo}
    (hentry : s.udpConMap c ≠ none) : s'.udpConMap c ≠ none := by
  cases hsec with
  | touch _ _ | countDown _ _ =>
    simp only [UdpStack.setProc_udpConMap, Function.update_apply]
    split
    · exact nofun
    · exact hentry
  | forget hproc => exact absurd hproc hinv.not_forget
  | _ => exact hentry

end NeverCounts

private theorem reach_neverCounts {ok : UdpStack → UdpAct → Prop} {s : UdpStack}
    (h : Reach udpMachine ok s) : NeverCounts s :=
  h.invariant .init fun _ _ _ _ hinv _ hstep => hinv.step (UdpStack.step_section hstep)

/-- There are always goroutines that do nothing. -/
theorem reach_udpIdle {ok : UdpStack → UdpAct → Prop} {s : UdpStack} (h : Reach udpMachine ok s) :
    ∃ bound, ∀ t, bound ≤ t → s.procs t = .idle := by
  refine h.invariant (P := fun s => ∃ bound, ∀ t, bound ≤ t → s.procs t = .idle)
    ⟨0, fun _ _ => rfl⟩ ?_
  rintro s a s' _ ⟨bound, hidle⟩ _ hstep
  obtain ⟨t', hothers⟩ := (UdpStack.step_section hstep).others
  refine ⟨max bound (t' + 1), fun t ht => ?_⟩
  obtain ⟨hbound, hlt⟩ := Nat.max_le.mp ht
  rw [hothers t (Nat.ne_of_gt hlt), hidle t hbound]

/-! ### Idle connections -/

/-- One execution of `onAction` in goroutine `t`, in which `Range` comes once to every entry. -/
def OnAction (t : Tid) (s s' : UdpStack) : Prop :=
  ∃ body : List UdpAct, (∀ a ∈ body, a = .run t ∨ ∃ c, a = .visit t c) ∧
    (∀ c, s.udpConMap c ≠ none → body.count (.visit t c) = 1) ∧
    udpMachine.run any s (.action t :: body) = some s' ∧ s'.procs t = .idle

/-- No datagram from the source of `c` arrives in this step, and none refreshes `c`. -/
def NoDatagram (c : UdpNo) (s : UdpStack) (a : UdpAct) : Prop :=
  (∀ t data addr, a ≠ .recvFn t (some (s.conns c).connId) data addr) ∧
    ∀ t data addr, a = .run t → s.procs t ≠ .touch c data addr

/-- The runs from `s` on without a datagram from the source of `c`, with the number of
    executions of `onAction`. -/
inductive IdleRun (c : UdpNo) (s : UdpStack) : Nat → UdpStack → Prop where
  | start : IdleRun c s 0 s
  | step {n : Nat} {mid s' : UdpStack} {a : UdpAct} (hrun : IdleRun c s n mid)
      (hquiet : NoDatagram c mid a) (hstep : udpMachine.step mid a = some s') : IdleRun c s n s'
  | onAction {n : Nat} {mid s' : UdpStack} {t : Tid} (hrun : IdleRun c s n mid)
      (haction : OnAction t mid s') : IdleRun c s (n + 1) s'

/-- `c` is closed and in none of the maps. -/
structure Expired (s : UdpStack) (c : UdpNo) : Prop where
  closed : (s.conns c).state = .udpClosed
  udpConMap : s.udpConMap c = none
  udpConns : ∀ id, s.udpConns id ≠ some c

/-- What `onAction` owes a connection that was refreshed in `s` or before. -/
def ExpiresWhenIdle (s : UdpStack) (c : UdpNo) : Prop :=
  ∀ s', IdleRun c s (timeout.toInt.toNat + 1) s' → Expired s' c

private theorem step_rangeEnd {s : UdpStack} {t : Tid} (hproc : s.procs t = .range) :
    udpMachine.step s (.run t) = some { s.setProc t .idle with udplock := none } := by
  simp [udpMachine, UdpStack.step, UdpStack.procStep, hproc]

/-- `Range` passes over the entries. -/
theorem run_visits {s : UdpStack} {t : Tid} (hproc : s.procs t = .range) (keys : List UdpNo)
    (hkeys : ∀ c ∈ keys, s.udpConMap c = some (.int32 timeout)) (rest : List UdpAct) :
    udpMachine.run any s (keys.map (.visit t) ++ rest) = udpMachine.run any s rest := by
  induction keys with
  | nil => rfl
  | cons c keys ih =>
    have hstep : udpMachine.step s (.visit t c) = some s := by
      simp [udpMachine, UdpStack.step, hproc, hkeys c List.mem_cons_self]
    rw [List.map_cons, List.cons_append, run_cons trivial hstep]
    exact ih fun c' hc' => hkeys c' (List.mem_cons_of_mem _ hc')

/-- `onAction` changes nothing. -/
theorem onAction_same {ok : UdpStack → UdpAct → Prop} {s : UdpStack} (hreach : Reach udpMachine ok s)
    {t : Tid} (hidle : s.procs t = .idle) (hfree : s.udplock = none) : OnAction t s s := by
  have hbounds := reach_udpBounds hreach
  have hvalues := (reach_neverCounts hreach).values
  let keys := (List.range s.created).filter fun c => s.udpConMap c ≠ none
  have hkeys : ∀ c, c ∈ keys ↔ s.udpConMap c ≠ none := by
    intro c
    simp only [keys, List.mem_filter, List.mem_range, decide_eq_true_eq, and_iff_right_iff_imp]
    intro hentry
    obtain ⟨v, hv⟩ := Option.ne_none_iff_exists'.mp hentry
    exact hbounds.udpConMap c v hv
  have hnodup : keys.Nodup := List.nodup_range.filter _
  refine ⟨keys.map (.visit t) ++ [.run t], fun a ha => ?_, fun c hc => ?_, ?_, hidle⟩
  · simp only [List.mem_append, List.mem_map, List.mem_singleton] at ha
    obtain ⟨c, _, rfl⟩ | rfl := ha
    · exact .inr ⟨c, rfl⟩
    · exact .inl rfl
  · rw [List.count_append, List.count_map_of_injective _ _ fun _ _ h => by cases h; rfl]
    simp [hnodup.count, hkeys, hc]
  · let inside : UdpStack := { s.setProc t .range with udplock := some t }
    have hbegin : udpMachine.step s (.action t) = some inside := by
      simp [udpMachine, UdpStack.step, hidle, hfree, inside]
    have hrange : inside.procs t = .range := by simp [inside]
    rw [run_cons trivial hbegin, run_visits hrange keys]
    · have hprocs : Function.update (Function.update s.procs t .range) t .idle = s.procs := by
        rw [Function.update_idem, ← hidle, Function.update_eq_self]
      rw [run_cons trivial (step_rangeEnd hrange)]
      simp only [run, inside, UdpStack.setProc, hprocs, ← hfree]
    · intro c hc
      obtain ⟨v, hv⟩ := Option.ne_none_iff_exists'.mp ((hkeys c).mp hc)
      obtain rfl := hvalues c v hv
      exact hv

/-- From every state `onAction` can be executed any number of times, and each connection and
    each entry is then as it was. -/
theorem exists_idleRun {ok : UdpStack → UdpAct → Prop} {s : UdpStack} (hreach : Reach udpMachine ok s)
    (c : UdpNo) (n : Nat) : ∃ s', IdleRun c s n s' ∧ s'.conns = s.conns ∧ s'.udpConMap = s.udpConMap := by
  obtain ⟨mid, hmid, hrun, hfree, hsame⟩ : ∃ mid, Reach udpMachine any mid ∧ IdleRun c s 0 mid ∧
      mid.udplock = none ∧ mid.conns = s.conns ∧ mid.udpConMap = s.udpConMap := by
    replace hreach : Reach udpMachine any s := hreach.mono fun _ _ _ => trivial
    cases hlock : s.udplock with
    | none => exact ⟨s, hreach, .start, hlock, rfl, rfl⟩
    | some t =>
      -- an execution that is under way ends first
      have hproc := (reach_neverCounts hreach).udplock t hlock
      have hquiet : NoDatagram c s (.run t) := by
        refine ⟨fun _ _ _ heq => UdpAct.noConfusion heq, fun t' data addr heq htouch => ?_⟩
        cases heq
        rw [hproc] at htouch
        cases htouch
      exact ⟨_, hreach.step trivial (step_rangeEnd hproc), .step .start hquiet (step_rangeEnd hproc),
        rfl, rfl, rfl⟩
  obtain ⟨t, hidle⟩ := reach_udpIdle hmid
  refine ⟨mid, ?_, hsame⟩
  induction n with
  | zero => exact hrun
  | succ n ih => exact .onAction ih (onAction_same hmid (hidle t (Nat.le_refl t)) hfree)

/-- No connection that was ever refreshed expires: it stays in `UdpConMap`, in every run,
    and `onAction` does not close anything. -/
theorem idle_never_expires {s : UdpStack} {c : UdpNo} (hreach : Reach udpMachine any s)
    (hrefreshed : s.udpConMap c ≠ none) :
    ¬ExpiresWhenIdle s c ∧
    ∀ schedule s', udpMachine.run any s schedule = some s' →
      ¬Expired s' c ∧ ∀ t c', s'.procs t ≠ .close c' true := by
  refine ⟨fun hexpires => ?_, fun schedule s' hrun => ⟨fun hexpired => ?_, fun t c' hclose => ?_⟩⟩
  · obtain ⟨s', hidle, _, hmap⟩ := exists_idleRun hreach c (timeout.toInt.toNat + 1)
    exact hrefreshed (hmap ▸ (hexpires s' hidle).udpConMap)
  · have hkept : NeverCounts s' ∧ s'.udpConMap c ≠ none :=
      run_invariant (P := fun s => NeverCounts s ∧ s.udpConMap c ≠ none)
        (fun _ _ _ hinv _ hstep => ⟨hinv.1.step (UdpStack.step_section hstep),
          hinv.1.entry_step (UdpStack.step_section hstep) hinv.2⟩)
        hrun ⟨reach_neverCounts hreach, hrefreshed⟩
    exact hkept.2 hexpired.udpConMap
  · have hfalse := (reach_neverCounts (hreach.run hrun)).procs t
    rw [hclose] at hfalse
    cases hfalse

/-- A first datagram from 10.0.0.2:5000 up to the refresh of its connection. -/
def firstDatagram : List UdpAct :=
  [.recvFn 0 (some ⟨"10.0.0.2:5000"⟩) (some [1]) ⟨[8, 8, 8, 8], 9, ""⟩, .run 0, .create 0 true,
    .run 0, .run 0]

private theorem firstDatagram_reach :
    ∃ s, Reach udpMachine any s ∧ s.udpConMap 0 ≠ none ∧ (s.conns 0).state = .udpConnecting :=
  exists_reach_of_run udpMachine any firstDatagram
    (fun s => s.udpConMap 0 ≠ none ∧ (s.conns 0).state = .udpConnecting) (by decide)

theorem idle_never_expires_first : ∃ s, s.udpConMap 0 ≠ none ∧ ¬ExpiresWhenIdle s 0 := by
  obtain ⟨s, hreach, hrefreshed, _⟩ := firstDatagram_reach
  exact ⟨s, hrefreshed, (idle_never_expires hreach hrefreshed).1⟩

/-- After 7201 executions of `onAction` the connection is open and in `UdpConMap`. -/
theorem idle_kept : ∃ s s', Reach udpMachine any s ∧ s.udpConMap 0 ≠ none ∧
    IdleRun 0 s (timeout.toInt.toNat + 1) s' ∧ (s'.conns 0).state = .udpConnecting ∧
    ¬Expired s' 0 := by
  obtain ⟨s, hreach, hrefreshed, hstate⟩ := firstDatagram_reach
  obtain ⟨s', hidle, hconns, hmap⟩ := exists_idleRun hreach 0 (timeout.toInt.toNat + 1)
  exact ⟨s, s', hreach, hrefreshed, hidle, hconns ▸ hstate,
    fun hexpired => hrefreshed (hmap ▸ hexpired.udpConMap)⟩

end tun2proxy.core
