import Mathlib.Data.List.Basic
import Mathlib.Data.List.Infix

namespace tun2proxy.go

/-- What a call does: it returns, or an index or slice expression fails at run
    time and the goroutine panics. A Go `error` is an ordinary returned value. -/
inductive Outcome (α : Type) where
  | ret (value : α)
  | panic
  deriving DecidableEq, Repr

namespace Outcome

def bind {α β : Type} : Outcome α → (α → Outcome β) → Outcome β
  | ret value, f => f value
  | panic, _ => panic

instance : Monad Outcome where
  pure := ret
  bind := bind

@[simp] theorem pure_eq {α : Type} (value : α) : (pure value : Outcome α) = ret value := rfl

@[simp] theorem ret_bind {α β : Type} (value : α) (f : α → Outcome β) :
    (ret value >>= f) = f value := rfl

@[simp] theorem panic_bind {α β : Type} (f : α → Outcome β) :
    ((panic : Outcome α) >>= f) = panic := rfl

/-- The value of a call that returned a nil error; a panic and a non-nil error
    both count as failure. -/
def success {ε α : Type} : Outcome (Except ε α) → Option α
  | ret (.ok value) => some value
  | ret (.error _) => none
  | panic => none

@[simp] theorem success_ok {ε α : Type} (value : α) :
    success (ret (.ok value) : Outcome (Except ε α)) = some value := rfl

@[simp] theorem success_error {ε α : Type} (e : ε) :
    success (ret (.error e) : Outcome (Except ε α)) = none := rfl

@[simp] theorem success_panic {ε α : Type} :
    success (panic : Outcome (Except ε α)) = none := rfl

end Outcome

/-- A Go byte slice. `mem` is the backing array from the slice's first element
    on, so its length is the capacity; only the first `len` bytes belong to the
    slice itself. -/
structure Slice where
  mem : List UInt8
  len : Nat
  len_le : len ≤ mem.length

namespace Slice

/-- The bytes of the slice. -/
def bytes (s : Slice) : List UInt8 := s.mem.take s.len

def cap (s : Slice) : Nat := s.mem.length

/-- A slice whose capacity is its length. -/
def ofBytes (data : List UInt8) : Slice := ⟨data, data.length, le_rfl⟩

/-- `buf[:n]` of a longer buffer: the capacity of the buffer is kept. -/
def prefixOf (buf : List UInt8) (n : Nat) (hn : n ≤ buf.length) : Slice := ⟨buf, n, hn⟩

/-- The index expression `s[i]`, bounded by the length. -/
def index (s : Slice) (i : Nat) : Outcome UInt8 :=
  if i < s.len then .ret (s.mem.getD i 0) else .panic

/-- The slice expression `s[i:j]`, bounded by the capacity and not by the length. -/
def slice (s : Slice) (i j : Nat) : Outcome Slice :=
  if h : i ≤ j ∧ j ≤ s.mem.length then
    .ret ⟨s.mem.drop i, j - i, by simp only [List.length_drop]; omega⟩
  else .panic

@[simp] theorem length_bytes (s : Slice) : s.bytes.length = s.len := by
  simp [bytes, s.len_le]

@[simp] theorem bytes_ofBytes (data : List UInt8) : (ofBytes data).bytes = data := by
  simp [bytes, ofBytes]

theorem bytes_isPrefix_mem (s : Slice) : s.bytes <+: s.mem := List.take_prefix _ _

theorem index_of_lt {s : Slice} {i : Nat} (hi : i < s.len) :
    s.index i = .ret (s.mem.getD i 0) := by
  simp [index, hi]

theorem index_of_ge {s : Slice} {i : Nat} (hi : s.len ≤ i) : s.index i = .panic := by
  simp [index, Nat.not_lt.mpr hi]

theorem slice_of_le {s : Slice} {i j : Nat} (hij : i ≤ j) (hj : j ≤ s.mem.length) :
    s.slice i j = .ret ⟨s.mem.drop i, j - i, by simp only [List.length_drop]; omega⟩ := by
  simp [slice, hij, hj]

theorem slice_of_gt {s : Slice} {i j : Nat} (hj : s.mem.length < j) : s.slice i j = .panic := by
  have h : ¬ (i ≤ j ∧ j ≤ s.mem.length) := by omega
  simp [slice, h]

end Slice

end tun2proxy.go
