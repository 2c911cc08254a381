import Mathlib.Data.Nat.Digits.Lemmas
import Mathlib.Data.List.Basic

namespace tun2proxy.numeral

/-- The digits of a number, the most significant one first; zero has one digit. -/
def digits (base n : Nat) : List Nat := if n = 0 then [0] else (Nat.digits base n).reverse

/-- The number that digits stand for, the most significant one first. -/
def value (base : Nat) (ds : List Nat) : Nat := ds.foldl (fun acc d => acc * base + d) 0

/-- The value of a numeral, most significant digit first, in Mathlib's terms. -/
theorem value_eq_ofDigits (base : Nat) (ds : List Nat) :
    value base ds = Nat.ofDigits base ds.reverse := by
  unfold value
  rw [← List.foldr_reverse]
  induction ds.reverse with
  | nil => rfl
  | cons d ds ih =>
    rw [List.foldr_cons, ih, Nat.ofDigits_cons]
    ring

/-- The digits of a number have it as their value. -/
theorem value_digits (base n : Nat) : value base (digits base n) = n := by
  unfold digits
  split
  case isTrue hzero =>
    subst hzero
    simp [value]
  case isFalse =>
    rw [value_eq_ofDigits, List.reverse_reverse, Nat.ofDigits_digits]

/-- Zero has a digit too. -/
theorem digits_ne_nil {base : Nat} (n : Nat) : digits base n ≠ [] := by
  unfold digits
  split
  case isTrue => exact List.cons_ne_nil _ _
  case isFalse hne =>
    intro hnil
    exact hne (Nat.digits_eq_nil_iff_eq_zero.mp (List.reverse_eq_nil_iff.mp hnil))

/-- A digit is below the base. -/
theorem lt_of_mem_digits {base n d : Nat} (hbase : 1 < base) (hd : d ∈ digits base n) :
    d < base := by
  unfold digits at hd
  split at hd
  case isTrue =>
    have hzero : d = 0 := by simpa using hd
    omega
  case isFalse => exact Nat.digits_lt_base hbase (List.mem_reverse.mp hd)

/-- A number below `base ^ k` has at most `k` digits. -/
theorem length_digits_le {base n k : Nat} (hbase : 1 < base) (hk : 0 < k) (hn : n < base ^ k) :
    (digits base n).length ≤ k := by
  unfold digits
  split
  case isTrue => exact hk
  case isFalse =>
    rw [List.length_reverse]
    exact (Nat.digits_length_le_iff hbase n).mpr hn

/-- Only zero begins with the digit zero. -/
theorem digits_eq_zero_cons {base n : Nat} {ds : List Nat} (hdigits : digits base n = 0 :: ds) :
    ds = [] := by
  unfold digits at hdigits
  split at hdigits
  case isTrue => exact (List.cons.inj hdigits).2.symm
  case isFalse hne =>
    have hrev : Nat.digits base n = ds.reverse ++ [0] := by
      rw [← List.reverse_reverse (Nat.digits base n), hdigits, List.reverse_cons]
    have hlast := Nat.getLast_digit_ne_zero base hne
    simp [hrev] at hlast

section Text

variable {α : Type} (base : Nat) (char : Nat → α) (val : α → Option Nat)

/-- The numeral of a number, written with the characters given for the digits. -/
def print (n : Nat) : List α := (digits base n).map char

/-- The number that a numeral stands for; there must be a digit, and nothing else. -/
def read (s : List α) : Option Nat := if s.isEmpty then none else (s.mapM val).map (value base)

variable {base char val}

/-- Digits are read back from their characters. -/
theorem mapM_map_digits (hval : ∀ d < base, val (char d) = some d) {ds : List Nat}
    (hds : ∀ d ∈ ds, d < base) : (ds.map char).mapM val = some ds := by
  induction ds with
  | nil => rfl
  | cons d ds ih =>
    have hhead := hval d (hds d List.mem_cons_self)
    have htail := ih fun d hd => hds d (List.mem_cons_of_mem _ hd)
    simp [List.mapM_cons, hhead, htail]

theorem print_ne_nil (n : Nat) : print base char n ≠ [] := by
  simpa [print] using digits_ne_nil n

/-- What was printed is read back. -/
theorem read_print (hbase : 1 < base) (hval : ∀ d < base, val (char d) = some d) (n : Nat) :
    read base val (print base char n) = some n := by
  have hne : (print base char n).isEmpty = false := by
    simpa using (print_ne_nil n : print base char n ≠ [])
  unfold read
  rw [hne, print, mapM_map_digits hval fun d hd => lt_of_mem_digits hbase hd]
  simp [value_digits]

/-- Every character of a numeral is one of the digits. -/
theorem exists_digit_of_mem_print (hbase : 1 < base) {n : Nat} {c : α}
    (hc : c ∈ print base char n) : ∃ d < base, char d = c := by
  obtain ⟨d, hd, rfl⟩ := List.mem_map.mp hc
  exact ⟨d, lt_of_mem_digits hbase hd, rfl⟩

/-- A number below `base ^ k` is printed with at most `k` characters. -/
theorem length_print_le (hbase : 1 < base) {n k : Nat} (hk : 0 < k) (hn : n < base ^ k) :
    (print base char n).length ≤ k := by
  rw [print, List.length_map]
  exact length_digits_le hbase hk hn

end Text

end tun2proxy.numeral
