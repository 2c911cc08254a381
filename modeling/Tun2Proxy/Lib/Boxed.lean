import Mathlib.Logic.Function.Basic

namespace tun2proxy.machine

/-- A map that holds pointers to its values. A pointer that was handed out stays good when
    its key is removed or overwritten. -/
structure Boxed (K V : Type) where
  keys : K → Option Nat
  cells : Nat → V
  next : Nat
  keys_lt : ∀ {k : K} {p : Nat}, keys k = some p → p < next
  keys_inj : ∀ {k k' : K} {p : Nat}, keys k = some p → keys k' = some p → k = k'

namespace Boxed

variable {K V : Type} [DecidableEq K] {b : Boxed K V} {k k' : K} {p : Nat} {v : V}

/-- The map as its users see it. -/
def view (b : Boxed K V) : K → Option V := fun k => (b.keys k).map b.cells

/-- The map without keys; the cells are not allocated. -/
def empty (v : V) : Boxed K V where
  keys _ := none
  cells _ := v
  next := 0
  keys_lt h := nomatch h
  keys_inj h := nomatch h

/-- The value gets a new cell. -/
def insert (b : Boxed K V) (k : K) (v : V) : Boxed K V where
  keys := Function.update b.keys k (some b.next)
  cells := Function.update b.cells b.next v
  next := b.next + 1
  keys_lt {k' p} hp := by
    rw [Function.update_apply] at hp
    split at hp
    · cases hp
      exact Nat.lt_succ_self _
    · exact Nat.lt_succ_of_lt (b.keys_lt hp)
  keys_inj {k' k'' p} hp hp' := by
    rw [Function.update_apply] at hp hp'
    split at hp <;> split at hp'
    · simp_all
    · cases hp
      exact absurd (b.keys_lt hp') (Nat.lt_irrefl _)
    · cases hp'
      exact absurd (b.keys_lt hp) (Nat.lt_irrefl _)
    · exact b.keys_inj hp hp'

/-- The key is removed; its cell stays. -/
def erase (b : Boxed K V) (k : K) : Boxed K V where
  keys := Function.update b.keys k none
  cells := b.cells
  next := b.next
  keys_lt {k' p} hp := by
    rw [Function.update_apply] at hp
    split at hp
    · cases hp
    · exact b.keys_lt hp
  keys_inj {k' k'' p} hp hp' := by
    rw [Function.update_apply] at hp hp'
    split at hp <;> split at hp'
    · cases hp
    · cases hp
    · cases hp'
    · exact b.keys_inj hp hp'

/-- A write through a pointer. -/
def modify (b : Boxed K V) (p : Nat) (f : V → V) : Boxed K V :=
  { b with cells := Function.update b.cells p (f (b.cells p)) }

/-- An insertion sets the value of its key and no other. -/
theorem view_insert (b : Boxed K V) (k : K) (v : V) :
    (b.insert k v).view = Function.update b.view k (some v) := by
  funext k'
  by_cases hk : k' = k
  · simp [view, insert, hk]
  · cases hp : b.keys k' with
    | none => simp [view, insert, hk, hp]
    | some p =>
      have hne : p ≠ b.next := Nat.ne_of_lt (b.keys_lt hp)
      simp [view, insert, hk, hp, hne]

/-- A removal takes away its key and no other. -/
theorem view_erase (b : Boxed K V) (k : K) :
    (b.erase k).view = Function.update b.view k none := by
  funext k'
  by_cases hk : k' = k
  · simp [view, erase, hk]
  · simp [view, erase, hk]

/-- A write through the pointer of a key changes the value of that key and no other. -/
theorem view_modify (hp : b.keys k = some p) (f : V → V) :
    (b.modify p f).view = Function.update b.view k (some (f (b.cells p))) := by
  funext k'
  by_cases hk : k' = k
  · simp [view, modify, hk, hp]
  · cases hp' : b.keys k' with
    | none => simp [view, modify, hk, hp']
    | some p' =>
      have hne : p' ≠ p := by
        rintro rfl
        exact hk (b.keys_inj hp' hp)
      simp [view, modify, hk, hp', hne]

/-- A new key leaves the cells that are in use alone. -/
theorem cells_insert (hp : p < b.next) : (b.insert k v).cells p = b.cells p :=
  Function.update_of_ne (Nat.ne_of_lt hp) _ _

end Boxed

end tun2proxy.machine
