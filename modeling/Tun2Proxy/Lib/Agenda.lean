import Mathlib.Data.List.Sort

namespace tun2proxy.agenda

/-- Something to be done and the time at which it is due. -/
structure Entry (τ α : Type) where
  due : τ
  item : α
  deriving DecidableEq, Repr

variable {τ α : Type}

/-- The times are moved. -/
def rebase (f : τ → τ) (agenda : List (Entry τ α)) : List (Entry τ α) :=
  agenda.map fun e => { e with due := f e.due }

/-- The entries after moving all due times. -/
theorem mem_rebase {f : τ → τ} {x : Entry τ α} {agenda : List (Entry τ α)} :
    x ∈ rebase f agenda ↔ ∃ e ∈ agenda, x = { e with due := f e.due } := by
  simp only [rebase, List.mem_map, eq_comm]

variable [LinearOrder τ]

/-- The entries stand in the order in which they are due. -/
def Sorted (agenda : List (Entry τ α)) : Prop := agenda.Pairwise fun e e' => e.due ≤ e'.due

/-- An entry is put behind all that are due no later. -/
def add (e : Entry τ α) (agenda : List (Entry τ α)) : List (Entry τ α) :=
  agenda.orderedInsert (fun e e' => e.due < e'.due) e

/-- An entry goes before the first one that is due later. -/
theorem add_cons (e x : Entry τ α) (rest : List (Entry τ α)) :
    add e (x :: rest) = if e.due < x.due then e :: x :: rest else x :: add e rest :=
  List.orderedInsert_cons _ e x rest

/-- Nothing is lost when an entry is added. -/
theorem perm_add (e : Entry τ α) (agenda : List (Entry τ α)) : (add e agenda).Perm (e :: agenda) :=
  List.perm_orderedInsert _ e agenda

theorem mem_add {e x : Entry τ α} {agenda : List (Entry τ α)} :
    x ∈ add e agenda ↔ x = e ∨ x ∈ agenda := by
  rw [(perm_add e agenda).mem_iff, List.mem_cons]

/-- The first entry is due before all others. -/
theorem Sorted.head_le {e : Entry τ α} {rest : List (Entry τ α)} (h : Sorted (e :: rest)) :
    ∀ x ∈ rest, e.due ≤ x.due := (List.pairwise_cons.mp h).1

theorem Sorted.tail {e : Entry τ α} {rest : List (Entry τ α)} (h : Sorted (e :: rest)) :
    Sorted rest := (List.pairwise_cons.mp h).2

/-- Adding an entry keeps the order. -/
theorem Sorted.add {agenda : List (Entry τ α)} (h : Sorted agenda) (e : Entry τ α) :
    Sorted (add e agenda) := by
  induction agenda with
  | nil => exact List.pairwise_singleton _ e
  | cons x rest ih =>
    rw [add_cons]
    by_cases hlt : e.due < x.due
    · rw [if_pos hlt]
      apply List.pairwise_cons.mpr ⟨?_, h⟩
      intro y hy
      obtain rfl | hy := List.mem_cons.mp hy
      · exact hlt.le
      · exact hlt.le.trans (h.head_le y hy)
    · rw [if_neg hlt]
      apply List.pairwise_cons.mpr ⟨?_, ih h.tail⟩
      intro y hy
      obtain rfl | hy := mem_add.mp hy
      · exact not_lt.mp hlt
      · exact h.head_le y hy

/-- Moving all due times keeps the order if the move does, at the due times there are. -/
theorem Sorted.rebase {agenda : List (Entry τ α)} (h : Sorted agenda) {f : τ → τ}
    (hmono : ∀ e ∈ agenda, ∀ e' ∈ agenda, e.due ≤ e'.due → f e.due ≤ f e'.due) :
    Sorted (rebase f agenda) := by
  apply List.pairwise_map.mpr
  exact h.imp_of_mem fun he he' hle => hmono _ he _ he' hle

end tun2proxy.agenda
