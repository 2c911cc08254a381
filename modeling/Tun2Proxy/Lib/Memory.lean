import Mathlib.Data.List.Basic
import Mathlib.Data.List.TakeDrop

namespace tun2proxy.memory

variable {α : Type}

/-- Overwriting a piece of a buffer, from `i` on; `none` is a write past its end. -/
def copyAt (mem : List α) (i : Nat) (data : List α) : Option (List α) :=
  if i + data.length ≤ mem.length then some (mem.take i ++ data ++ mem.drop (i + data.length))
  else none

/-- What fits is copied and leaves the rest of the memory. -/
theorem copyAt_of_le (mem : List α) (i : Nat) (data : List α) (hfits : i + data.length ≤ mem.length) :
    copyAt mem i data = some (mem.take i ++ data ++ mem.drop (i + data.length)) := if_pos hfits

/-- A copy fits, and leaves the rest of the memory. -/
theorem copyAt_eq_some {mem mem' data : List α} {i : Nat} (h : copyAt mem i data = some mem') :
    i + data.length ≤ mem.length ∧ mem' = mem.take i ++ data ++ mem.drop (i + data.length) := by
  obtain ⟨hfits, heq⟩ := Option.ite_none_right_eq_some.mp h
  exact ⟨hfits, (Option.some.inj heq).symm⟩

/-- A buffer keeps its length. -/
theorem length_of_copyAt {mem mem' data : List α} {i : Nat} (h : copyAt mem i data = some mem') :
    mem'.length = mem.length := by
  obtain ⟨hfits, rfl⟩ := copyAt_eq_some h
  simp only [List.length_append, List.length_take, List.length_drop]
  omega

/-- What was copied to the front is found there. -/
theorem take_of_copyAt_zero {mem mem' data : List α} (h : copyAt mem 0 data = some mem') :
    mem'.take data.length = data := by
  obtain ⟨-, rfl⟩ := copyAt_eq_some h
  simp

theorem copyAt_nil {mem : List α} {i : Nat} (hi : i ≤ mem.length) :
    copyAt mem i [] = some mem := by
  rw [copyAt_of_le _ _ _ (by simpa using hi)]
  simp

/-- Two pieces next to each other are one piece. -/
theorem copyAt_append {mem mem' first second : List α} {i : Nat}
    (h : copyAt mem i first = some mem') :
    copyAt mem' (i + first.length) second = copyAt mem i (first ++ second) := by
  have hlen := length_of_copyAt h
  obtain ⟨hfits, rfl⟩ := copyAt_eq_some h
  have hi : (mem.take i ++ first).length = i + first.length := by
    rw [List.length_append, List.length_take]
    omega
  unfold copyAt
  rw [hlen, List.length_append, ← Nat.add_assoc]
  split
  · have hdrop : (mem.take i ++ first ++ mem.drop (i + first.length)).drop
        (i + first.length + second.length) = mem.drop (i + first.length + second.length) := by
      rw [← List.drop_drop, List.drop_left' hi, List.drop_drop]
    rw [List.take_left' hi, hdrop]
    simp only [List.append_assoc]
  · rfl

end tun2proxy.memory
