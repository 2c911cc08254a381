import Mathlib.Data.List.Basic

namespace tun2proxy.authored

variable {ι α : Type}

/-- A text with its author at every entry. -/
def sign (i : ι) (xs : List α) : List (ι × α) := xs.map fun x => (i, x)

@[simp] theorem map_snd_sign (i : ι) (xs : List α) : (sign i xs).map Prod.snd = xs := by
  simp [sign, Function.comp_def]

/-- No entry of `j` stands before an entry of `i`. -/
def Before (i j : ι) (log : List (ι × α)) : Prop := log.Pairwise fun p q => ¬(p.1 = j ∧ q.1 = i)

variable [DecidableEq ι]

/-- What one author has written into a log. -/
def own (i : ι) (log : List (ι × α)) : List α := (log.filter fun e => e.1 = i).map Prod.snd

/-- The entries of two authors. -/
def between (i j : ι) (log : List (ι × α)) : List (ι × α) := log.filter fun e => e.1 = i ∨ e.1 = j

section
variable {i j : ι} {log log' : List (ι × α)}

@[simp] theorem own_append : own i (log ++ log') = own i log ++ own i log' := by
  simp [own]

@[simp] theorem own_sign (xs : List α) : own i (sign i xs) = xs := by
  simp [own, sign, List.filter_map, Function.comp_def]

theorem own_sign_of_ne (hne : j ≠ i) (xs : List α) : own i (sign j xs) = [] := by
  simp [own, sign, List.filter_map, Function.comp_def, hne]

/-- A writer has nothing in the log exactly when no entry is its own. -/
theorem own_eq_nil_iff : own i log = [] ↔ ∀ e ∈ log, e.1 ≠ i := by
  simp [own, List.filter_eq_nil_iff]

theorem own_cons (e : ι × α) :
    own i (e :: log) = if e.1 = i then e.2 :: own i log else own i log := by
  by_cases h : e.1 = i <;> simp [own, h]

theorem between_cons (e : ι × α) :
    between i j (e :: log) = if e.1 = i ∨ e.1 = j then e :: between i j log else between i j log := by
  by_cases h : e.1 = i ∨ e.1 = j <;> simp [between, h]

/-- The order of a log that is written in two parts. -/
theorem before_append :
    Before i j (log ++ log') ↔
      Before i j log ∧ Before i j log' ∧ (own j log = [] ∨ own i log' = []) := by
  rw [Before, List.pairwise_append]
  refine and_congr_right fun _ => and_congr_right fun _ => ?_
  rw [own_eq_nil_iff, own_eq_nil_iff]
  constructor
  · intro h
    by_contra hnot
    simp only [not_or, not_forall, not_not] at hnot
    obtain ⟨⟨p, hp, hpj⟩, q, hq, hqi⟩ := hnot
    exact h p hp q hq ⟨hpj, hqi⟩
  · rintro (h | h) p hp q hq ⟨hpj, hqi⟩
    · exact h p hp hpj
    · exact h q hq hqi

/-- Who has written nothing comes before and after everybody. -/
theorem before_of_own_eq_nil (hnil : own i log = [] ∨ own j log = []) : Before i j log := by
  rw [own_eq_nil_iff, own_eq_nil_iff] at hnil
  refine List.pairwise_of_forall_mem_list ?_
  rintro p hp q hq ⟨hpj, hqi⟩
  obtain h | h := hnil
  · exact h q hq hqi
  · exact h p hp hpj

/-- The entries of other authors do not matter. -/
theorem before_between : Before i j (between i j log) ↔ Before i j log := by
  rw [Before, between, List.pairwise_filter]
  refine List.Pairwise.iff fun p q => ?_
  constructor
  · rintro h ⟨hpj, hqi⟩
    exact h (by simp [hpj]) (by simp [hqi]) ⟨hpj, hqi⟩
  · intro h _ _
    exact h

/-- When one writer comes before the other, their entries are all of the one and then all of the
    other. -/
theorem between_eq_of_before (hne : i ≠ j) (h : Before i j log) :
    between i j log = sign i (own i log) ++ sign j (own j log) := by
  induction log with
  | nil => rfl
  | cons e rest ih =>
    obtain ⟨hfirst, hrest⟩ := List.pairwise_cons.mp h
    have hih := ih hrest
    rw [between_cons, own_cons, own_cons]
    by_cases hi : e.1 = i
    · have hj : e.1 ≠ j := fun hj => hne (hi.symm.trans hj)
      rw [if_pos (.inl hi), if_pos hi, if_neg hj, hih, ← hi]
      rfl
    · rw [if_neg hi]
      by_cases hj : e.1 = j
      · -- the first entry of `j` comes after the last one of `i`
        have hnone : own i rest = [] := own_eq_nil_iff.mpr fun q hq hqi => hfirst q hq ⟨hj, hqi⟩
        rw [if_pos (.inr hj), if_pos hj, hih, hnone, ← hj]
        rfl
      · rw [if_neg (not_or.mpr ⟨hi, hj⟩), if_neg hj]
        exact hih

/-- One text after the other is a matter of order. -/
theorem between_eq_iff (hne : i ≠ j) :
    between i j log = sign i (own i log) ++ sign j (own j log) ↔ Before i j log := by
  refine ⟨fun heq => ?_, between_eq_of_before hne⟩
  rw [← before_between, heq, before_append]
  refine ⟨before_of_own_eq_nil (.inr ?_), before_of_own_eq_nil (.inl ?_), .inl ?_⟩
  · exact own_sign_of_ne hne _
  · exact own_sign_of_ne hne.symm _
  · exact own_sign_of_ne hne _

/-- The entries of two writers do not depend on who is named first. -/
theorem between_comm (i j : ι) (log : List (ι × α)) : between i j log = between j i log := by
  simp [between, or_comm]

end

/-- Two authors write in turn: the second one begins when the first is done. -/
inductive InTurn (i j : ι) (idone jdone : Prop) (log : List (ι × α)) : Prop where
  | first (hbefore : Before i j log) (hdone : own j log = [] ∨ idone)
  | second (hbefore : Before j i log) (hdone : own i log = [] ∨ jdone)

namespace InTurn

variable {i j : ι} {idone jdone : Prop} {log new : List (ι × α)}

/-- The two writers may change places. -/
theorem symm (h : InTurn i j idone jdone log) : InTurn j i jdone idone log := by
  cases h with
  | first hbefore hdone => exact .second hbefore hdone
  | second hbefore hdone => exact .first hbefore hdone

/-- In an empty log all are in turn. -/
theorem nil : InTurn i j idone jdone ([] : List (ι × α)) := .first .nil (.inl rfl)

/-- An author that is not done writes while the other has not begun or is done. -/
theorem append {idone' : Prop} (h : InTurn i j idone jdone log) (hnew : own j new = [])
    (hopen : ¬idone) (hother : own j log = [] ∨ jdone) : InTurn i j idone' jdone (log ++ new) := by
  have hbefore : Before i j new := before_of_own_eq_nil (.inr hnew)
  have halone (hnil : own j log = []) : InTurn i j idone' jdone (log ++ new) := by
    refine .first (before_append.mpr ⟨before_of_own_eq_nil (.inr hnil), hbefore, .inl hnil⟩) (.inl ?_)
    rw [own_append, hnil, hnew]
    rfl
  cases h with
  | first _ hdone => exact halone (hdone.resolve_right hopen)
  | second hlog _ =>
    obtain hnil | hdone := hother
    · exact halone hnil
    · refine .second (before_append.mpr ⟨hlog, before_of_own_eq_nil (.inl hnew), .inr hnew⟩) (.inr hdone)

/-- Others write, and an author may come to its end. -/
theorem append_other {idone' jdone' : Prop} (h : InTurn i j idone jdone log) (hi : own i new = [])
    (hj : own j new = []) (hidone : idone → idone') (hjdone : jdone → jdone') :
    InTurn i j idone' jdone' (log ++ new) := by
  cases h with
  | first hlog hdone =>
    refine .first (before_append.mpr ⟨hlog, before_of_own_eq_nil (.inr hj), .inr hi⟩) ?_
    rw [own_append, hj, List.append_nil]
    exact hdone.imp_right hidone
  | second hlog hdone =>
    refine .second (before_append.mpr ⟨hlog, before_of_own_eq_nil (.inr hi), .inr hj⟩) ?_
    rw [own_append, hi, List.append_nil]
    exact hdone.imp_right hjdone

end InTurn

end tun2proxy.authored
