import Mathlib.Data.BitVec
import Mathlib.Tactic.Ring

namespace tun2proxy.circular

variable {w : Nat}

/-- The value `n` steps after `base` on the circle of `w`-bit numbers. -/
def after (base : BitVec w) (n : Nat) : BitVec w := base + BitVec.ofNat w n

/-- The difference of two values read as a signed number, `(s32_t)(a - b)` in C. -/
def dist (a b : BitVec w) : Int := (a - b).toInt

@[simp] theorem after_zero (base : BitVec w) : after base 0 = base := BitVec.add_zero base

theorem after_add (base : BitVec w) (n m : Nat) :
    after base n + BitVec.ofNat w m = after base (n + m) := by
  rw [after, after, BitVec.add_assoc, BitVec.ofNat_add]

theorem after_sub (base : BitVec w) {n m : Nat} (h : m ≤ n) :
    after base n - BitVec.ofNat w m = after base (n - m) := by
  obtain ⟨k, rfl⟩ := Nat.exists_eq_add_of_le' h
  rw [← after_add, BitVec.add_sub_cancel, Nat.add_sub_cancel]

theorem after_sub_after (base : BitVec w) {n m : Nat} (h : m ≤ n) :
    after base n - after base m = BitVec.ofNat w (n - m) := by
  obtain ⟨k, rfl⟩ := Nat.exists_eq_add_of_le h
  rw [← after_add, Nat.add_sub_cancel_left, BitVec.add_comm, BitVec.add_sub_cancel]

/-- Unsigned subtraction finds the number of steps between two values, if it is
    less than a full turn. -/
theorem toNat_after_sub_after (base : BitVec w) {n m : Nat} (h : m ≤ n) (hlt : n < m + 2 ^ w) :
    (after base n - after base m).toNat = n - m := by
  rw [after_sub_after base h, BitVec.toNat_ofNat, Nat.mod_eq_of_lt (by omega)]

/-- Values less than a full turn apart are equal only at the same place. -/
theorem after_inj (base : BitVec w) {n m : Nat} (hn : n < m + 2 ^ w) (hm : m < n + 2 ^ w) :
    after base n = after base m ↔ n = m := by
  constructor
  · intro heq
    obtain hle | hle := Nat.le_total m n
    · have hzero := toNat_after_sub_after base hle hn
      rw [heq, BitVec.sub_self, BitVec.toNat_zero] at hzero
      omega
    · have hzero := toNat_after_sub_after base hle hm
      rw [heq, BitVec.sub_self, BitVec.toNat_zero] at hzero
      omega
  · rintro rfl
    rfl

/-- Up to half a turn, the signed difference is the difference of the places. -/
theorem dist_after (base : BitVec w) {n m : Nat} (hn : 2 * n < 2 * m + 2 ^ w)
    (hm : 2 * m ≤ 2 * n + 2 ^ w) : dist (after base n) (after base m) = n - m := by
  have hmod : dist (after base n) (after base m) = ((n : Int) - m).bmod (2 ^ w) := by
    rw [dist, after, after, BitVec.toInt_sub, BitVec.toInt_add, BitVec.toInt_add,
      BitVec.toInt_ofNat', BitVec.toInt_ofNat']
    simp only [Int.bmod_sub_bmod, Int.sub_bmod_bmod, Int.add_bmod_bmod]
    congr 1
    ring
  have hpow : ((2 ^ w : Nat) : Int) = 2 ^ w := by norm_cast
  have hn' : (2 * n : Int) < 2 * m + (2 ^ w : Nat) := by exact_mod_cast hn
  have hm' : (2 * m : Int) ≤ 2 * n + (2 ^ w : Nat) := by exact_mod_cast hm
  rw [hmod]
  apply Int.bmod_eq_of_le_mul_two <;> omega

/-- The distance to the place just before `m`, which may be the one before `base`. -/
theorem dist_after_pred (base : BitVec w) {n m : Nat} (hn : 2 * (n + 1) < 2 * m + 2 ^ w)
    (hm : 2 * m ≤ 2 * (n + 1) + 2 ^ w) :
    dist (after base n) (after base m - BitVec.ofNat w 1) = n + 1 - m := by
  have hleft : after base n = after (base - BitVec.ofNat w 1) (n + 1) := by
    rw [after, after, Nat.add_comm n, BitVec.ofNat_add, ← BitVec.add_assoc, BitVec.sub_add_cancel]
  have hright : after base m - BitVec.ofNat w 1 = after (base - BitVec.ofNat w 1) m := by
    rw [after, after, BitVec.sub_eq_add_neg, BitVec.sub_eq_add_neg, BitVec.add_assoc,
      BitVec.add_assoc, BitVec.add_comm (BitVec.ofNat w m)]
  rw [hleft, hright, dist_after _ hn hm]
  push_cast
  ring

end tun2proxy.circular
