import Mathlib.Data.List.Basic
import Mathlib.Data.List.Infix
import Tun2Proxy.Lib.Machine

namespace tun2proxy.machine.Machine

variable {σ α : Type} {m : Machine σ α}

/-- A schedule from the initial state on, with the state it leads to. -/
inductive Trace (m : Machine σ α) : List α → σ → Prop where
  | nil : Trace m [] m.init
  | snoc {schedule : List α} {s s' : σ} {a : α} (htrace : Trace m schedule s)
      (hstep : m.step s a = some s') : Trace m (schedule ++ [a]) s'

namespace Trace

theorem reach {schedule : List α} {s : σ} (h : Trace m schedule s) : Reach m any s := by
  induction h with
  | nil => exact .init
  | snoc _ hstep ih => exact ih.step trivial hstep

/-- The state before a step of a trace. -/
theorem before {schedule front back : List α} {a : α} {s : σ} (h : Trace m schedule s)
    (hsplit : schedule = front ++ a :: back) :
    ∃ mid mid', Trace m front mid ∧ m.step mid a = some mid' := by
  induction h generalizing back with
  | nil => simp at hsplit
  | @snoc schedule s s' b htrace hstep ih =>
    cases back using List.reverseRecOn with
    | nil =>
      obtain ⟨rfl, heq⟩ := List.append_inj' hsplit rfl
      cases heq
      exact ⟨s, s', htrace, hstep⟩
    | append_singleton back c =>
      rw [← List.cons_append, ← List.append_assoc] at hsplit
      obtain ⟨hfront, -⟩ := List.append_inj' hsplit rfl
      exact ih hfront

/-- A schedule leads to one state. -/
theorem unique {schedule : List α} {s s' : σ} (h : Trace m schedule s) (h' : Trace m schedule s') :
    s = s' := by
  generalize hsame : schedule = schedule' at h'
  induction h generalizing schedule' s' with
  | nil =>
    cases h' with
    | nil => rfl
    | snoc _ _ => simp at hsame
  | snoc _ hstep ih =>
    cases h' with
    | nil => simp at hsame
    | snoc htrace' hstep' =>
      obtain ⟨hfront, heq⟩ := List.append_inj' hsame rfl
      cases heq
      obtain rfl := ih _ hfront htrace'
      exact Option.some.inj (hstep.symm.trans hstep')

/-- What every step keeps, also of the schedule so far, holds from then on. -/
theorem since {P : List α → σ → Prop} {front : List α} {mid : σ} (hfront : Trace m front mid)
    (hmid : P front mid)
    (hkeep : ∀ schedule s a s', Trace m schedule s → m.step s a = some s' → P schedule s →
      P (schedule ++ [a]) s') {back : List α} {s : σ} (h : Trace m (front ++ back) s) :
    P (front ++ back) s := by
  induction back using List.reverseRecOn generalizing s with
  | nil =>
    rw [List.append_nil] at h ⊢
    rwa [h.unique hfront]
  | append_singleton back a ih =>
    rw [← List.append_assoc] at h ⊢
    generalize hschedule : front ++ back ++ [a] = schedule at h
    cases h with
    | nil => simp at hschedule
    | snoc htrace hstep =>
      obtain ⟨rfl, heq⟩ := List.append_inj' hschedule rfl
      cases heq
      exact hkeep _ _ _ _ htrace hstep (ih htrace)

end Trace

/-- Every step of a schedule meets the condition, in the state before it. -/
def Steps (m : Machine σ α) (ok : σ → α → Prop) (schedule : List α) : Prop :=
  ∀ front a back s, schedule = front ++ a :: back → Trace m front s → ok s a

theorem Steps.init {ok : σ → α → Prop} {schedule : List α} {a : α}
    (h : Steps m ok (schedule ++ [a])) : Steps m ok schedule := by
  intro front b back s hsplit htrace
  refine h front b (back ++ [a]) s ?_ htrace
  rw [hsplit, List.append_assoc, List.cons_append]

/-- A schedule whose steps meet the condition reaches its state under that condition. -/
theorem Trace.reach_of_steps {ok : σ → α → Prop} {schedule : List α} {s : σ}
    (h : Trace m schedule s) (hok : Steps m ok schedule) : Reach m ok s := by
  induction h with
  | nil => exact .init
  | snoc htrace hstep ih => exact (ih hok.init).step (hok _ _ [] _ rfl htrace) hstep

/-- What holds of every step that can run, from a state reached under a condition, holds of
    the steps of a schedule that meets the condition. -/
theorem Trace.steps {ok ok' : σ → α → Prop} {schedule : List α} {s : σ} (h : Trace m schedule s)
    (hok : Steps m ok schedule)
    (hstep : ∀ s a s', Reach m ok s → ok s a → m.step s a = some s' → ok' s a) :
    Steps m ok' schedule := by
  intro front a back mid hsplit hfront
  obtain ⟨mid', next, hfront', hnext⟩ := h.before hsplit
  obtain rfl := hfront.unique hfront'
  refine hstep mid a next (hfront.reach_of_steps ?_) (hok front a back mid hsplit hfront) hnext
  intro front₀ b back₀ s₀ hsplit₀ htrace₀
  refine hok front₀ b (back₀ ++ a :: back) s₀ ?_ htrace₀
  rw [hsplit, hsplit₀, List.append_assoc, List.cons_append]

theorem Steps.snoc {ok : σ → α → Prop} {schedule : List α} {s : σ} {a : α}
    (h : Steps m ok schedule) (htrace : Trace m schedule s) (hok : ok s a) :
    Steps m ok (schedule ++ [a]) := by
  intro front b back s' hsplit hfront
  cases back using List.reverseRecOn with
  | nil =>
    obtain ⟨rfl, heq⟩ := List.append_inj' hsplit rfl
    cases heq
    rwa [hfront.unique htrace]
  | append_singleton back c =>
    rw [← List.cons_append, ← List.append_assoc] at hsplit
    obtain ⟨hschedule, -⟩ := List.append_inj' hsplit rfl
    exact h front b back s' hschedule hfront

/-- Some step of the schedule was of this kind, judged in the state before it. -/
def Happened (m : Machine σ α) (P : σ → α → Prop) (schedule : List α) : Prop :=
  ∃ front a back s, schedule = front ++ a :: back ∧ Trace m front s ∧ P s a

theorem not_happened_iff {P : σ → α → Prop} {schedule : List α} :
    ¬Happened m P schedule ↔ Steps m (fun s a => ¬P s a) schedule := by
  constructor
  · intro hnot front a back s hsplit htrace hP
    exact hnot ⟨front, a, back, s, hsplit, htrace, hP⟩
  · rintro hsteps ⟨front, a, back, s, hsplit, htrace, hP⟩
    exact hsteps front a back s hsplit htrace hP

theorem not_happened_nil {P : σ → α → Prop} : ¬Happened m P [] := by
  rintro ⟨front, a, back, s, hsplit, -, -⟩
  simp at hsplit

/-- A step adds itself to what has happened. -/
theorem Trace.happened_snoc {P : σ → α → Prop} {schedule : List α} {s : σ} {a : α}
    (htrace : Trace m schedule s) :
    Happened m P (schedule ++ [a]) ↔ Happened m P schedule ∨ P s a := by
  rw [← not_iff_not, not_or, not_happened_iff, not_happened_iff]
  constructor
  · intro hsteps
    exact ⟨hsteps.init, hsteps schedule a [] s rfl htrace⟩
  · rintro ⟨hsteps, hnot⟩
    exact hsteps.snoc htrace hnot

/-- A schedule that can be evaluated under a condition is a trace whose steps meet it. -/
theorem Trace.run_steps {ok : σ → α → Prop} [∀ s a, Decidable (ok s a)] {front : List α} {s s' : σ}
    (h : Trace m front s) (hok : Steps m ok front) (schedule : List α) :
    m.run ok s schedule = some s' →
      Trace m (front ++ schedule) s' ∧ Steps m ok (front ++ schedule) := by
  induction schedule generalizing front s with
  | nil =>
    intro hrun
    cases hrun
    rw [List.append_nil]
    exact ⟨h, hok⟩
  | cons a rest ih =>
    intro hrun
    obtain ⟨ha, hrest⟩ := Option.ite_none_right_eq_some.mp hrun
    obtain ⟨mid, hstep, hrest⟩ := Option.bind_eq_some_iff.mp hrest
    have hmid := ih (h.snoc hstep) (hok.snoc h ha) hrest
    rwa [List.append_assoc] at hmid

/-- The same from the initial state, with something known of the last state. -/
theorem exists_trace_of_run (m : Machine σ α) (ok : σ → α → Prop) [∀ s a, Decidable (ok s a)]
    (schedule : List α) (P : σ → Prop) [∀ s, Decidable (P s)]
    (hrun : (m.run ok m.init schedule).any (fun s => decide (P s)) = true) :
    ∃ s, Trace m schedule s ∧ Steps m ok schedule ∧ P s := by
  obtain ⟨s, hs, hP⟩ := (Option.any_eq_true _ _).mp hrun
  have hnil : Steps m ok [] := fun front a back s hsplit => by simp at hsplit
  obtain ⟨htrace, hsteps⟩ := Trace.nil.run_steps hnil schedule hs
  exact ⟨s, htrace, hsteps, of_decide_eq_true hP⟩

end tun2proxy.machine.Machine
