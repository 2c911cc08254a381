import Mathlib.Logic.Function.Basic

namespace tun2proxy.machine

/-- A concurrent system as a labelled machine. A label names the atomic section
    that runs next and the answers of its environment; `none` means that this
    section cannot run in this state. -/
structure Machine (σ α : Type) where
  init : σ
  step : σ → α → Option σ

namespace Machine

/-- The states reached by schedules whose every step satisfies `ok`, a condition
    on the state before the step and on the label. -/
inductive Reach {σ α : Type} (m : Machine σ α) (ok : σ → α → Prop) : σ → Prop where
  | init : Reach m ok m.init
  | step {s s' : σ} {a : α} (hreach : Reach m ok s) (hok : ok s a) (hstep : m.step s a = some s') :
      Reach m ok s'

/-- The condition that every step satisfies. -/
def any {σ α : Type} : σ → α → Prop := fun _ _ => True

/-- An invariant holds initially and is kept by every admitted step; the step may
    use that its state is reachable. -/
theorem Reach.invariant {σ α : Type} {m : Machine σ α} {ok : σ → α → Prop} {P : σ → Prop}
    (hinit : P m.init)
    (hkeep : ∀ s a s', Reach m ok s → P s → ok s a → m.step s a = some s' → P s')
    {s : σ} (h : Reach m ok s) : P s := by
  induction h with
  | init => exact hinit
  | step hreach hok hstep ih => exact hkeep _ _ _ hreach ih hok hstep

/-- A weaker condition on the steps reaches at least as much. -/
theorem Reach.mono {σ α : Type} {m : Machine σ α} {ok ok' : σ → α → Prop}
    (hle : ∀ s a, ok s a → ok' s a) {s : σ} (h : Reach m ok s) : Reach m ok' s := by
  induction h with
  | init => exact .init
  | step _ hok hstep ih => exact .step ih (hle _ _ hok) hstep

/-- The state after a schedule, if every one of its sections can run and is
    admitted by `ok`. -/
def run {σ α : Type} (m : Machine σ α) (ok : σ → α → Prop) [∀ s a, Decidable (ok s a)] (s : σ) :
    List α → Option σ
  | [] => some s
  | a :: rest => if ok s a then (m.step s a).bind fun s' => m.run ok s' rest else none

instance {σ α : Type} (s : σ) (a : α) : Decidable (any s a) := inferInstanceAs (Decidable True)

theorem run_cons {σ α : Type} {m : Machine σ α} {ok : σ → α → Prop} [∀ s a, Decidable (ok s a)]
    {s mid : σ} {a : α} (hok : ok s a) (hstep : m.step s a = some mid) (rest : List α) :
    m.run ok s (a :: rest) = m.run ok mid rest := by
  rw [run, if_pos hok, hstep, Option.bind_some]

/-- What every step keeps, a schedule keeps. -/
theorem run_invariant {σ α : Type} {m : Machine σ α} {ok : σ → α → Prop}
    [∀ s a, Decidable (ok s a)] {P : σ → Prop}
    (hkeep : ∀ s a s', P s → ok s a → m.step s a = some s' → P s') :
    ∀ {schedule : List α} {s s' : σ}, m.run ok s schedule = some s' → P s → P s' := by
  intro schedule
  induction schedule with
  | nil =>
    intro s s' hrun hs
    cases hrun
    exact hs
  | cons a rest ih =>
    intro s s' hrun hs
    obtain ⟨hok, hrest⟩ := Option.ite_none_right_eq_some.mp hrun
    obtain ⟨mid, hstep, hrest⟩ := Option.bind_eq_some_iff.mp hrest
    exact ih hrest (hkeep s a mid hs hok hstep)

/-- A schedule that runs continues a reachable state. -/
theorem Reach.run {σ α : Type} {m : Machine σ α} {ok : σ → α → Prop} [∀ s a, Decidable (ok s a)]
    {s s' : σ} (h : Reach m ok s) :
    ∀ {schedule : List α}, m.run ok s schedule = some s' → Reach m ok s' := fun hrun =>
  run_invariant (fun _ _ _ hreach hok hstep => hreach.step hok hstep) hrun h

/-- A step of a larger system is one step of this machine or none. -/
def advance {σ α : Type} (m : Machine σ α) (s : σ) : Option α → Option σ
  | none => some s
  | some a => m.step s a

theorem Reach.advance {σ α : Type} {m : Machine σ α} {ok : σ → α → Prop} {s s' : σ}
    {act : Option α} (h : Reach m ok s) (hok : ∀ a ∈ act, ok s a) (hstep : m.advance s act = some s') :
    Reach m ok s' := by
  cases act with
  | none =>
    cases hstep
    exact h
  | some a => exact h.step (hok a rfl) hstep

/-- A schedule that can be evaluated shows that a state with a given property is
    reachable. -/
theorem exists_reach_of_run {σ α : Type} (m : Machine σ α) (ok : σ → α → Prop)
    [∀ s a, Decidable (ok s a)] (schedule : List α) (P : σ → Prop) [∀ s, Decidable (P s)]
    (hrun : (m.run ok m.init schedule).any (fun s => decide (P s)) = true) :
    ∃ s, Reach m ok s ∧ P s := by
  obtain ⟨s, hs, hP⟩ := (Option.any_eq_true _ _).mp hrun
  exact ⟨s, Reach.init.run hs, of_decide_eq_true hP⟩

end Machine

end tun2proxy.machine
