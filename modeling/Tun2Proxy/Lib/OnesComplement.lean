import Mathlib.Data.List.Basic
import Mathlib.Data.Nat.ModEq
import Mathlib.Tactic.Ring

namespace tun2proxy.onescomplement

/-! ### Sums of 16-bit words with the carry added back -/

/-- The 16-bit word that a sum folds to. Only an empty sum is 0; otherwise the multiples of
    65535 fold to 65535. -/
def norm (n : Nat) : Nat := if n = 0 then 0 else (n - 1) % 65535 + 1

@[simp] theorem norm_zero : norm 0 = 0 := rfl

/-- A normal form fits 16 bits. -/
theorem norm_le (n : Nat) : norm n ≤ 65535 := by
  rw [norm]
  by_cases hn : n = 0
  · rw [if_pos hn]
    exact Nat.zero_le _
  · have hlt := Nat.mod_lt (n - 1) (show 0 < 65535 by omega)
    rw [if_neg hn]
    omega

/-- What fits 16 bits is its own normal form. -/
theorem norm_of_le {n : Nat} (h : n ≤ 65535) : norm n = n := by
  rw [norm]
  by_cases hn : n = 0
  · rw [if_pos hn, hn]
  · rw [if_neg hn, Nat.mod_eq_of_lt (by omega)]
    omega

/-- Only zero is normalised to zero; other multiples of 65535 give 65535. -/
theorem norm_eq_zero {n : Nat} : norm n = 0 ↔ n = 0 := by
  rw [norm]
  by_cases hn : n = 0
  · rw [if_pos hn, hn]
  · rw [if_neg hn]
    omega

/-- The normal form keeps the residue modulo 65535. -/
theorem norm_mod (n : Nat) : norm n % 65535 = n % 65535 := by
  rw [norm]
  by_cases hn : n = 0
  · rw [if_pos hn, hn]
  · rw [if_neg hn]
    omega

/-- Two sums fold to one word if they agree modulo 65535 and neither or both are empty. -/
theorem norm_congr {n m : Nat} (hmod : n % 65535 = m % 65535) (hzero : n = 0 ↔ m = 0) :
    norm n = norm m := by
  rw [norm, norm]
  by_cases hn : n = 0
  · rw [if_pos hn, if_pos (hzero.mp hn)]
  · rw [if_neg hn, if_neg (fun hm => hn (hzero.mpr hm))]
    omega

/-- Sums may be normalised in between. -/
theorem norm_add_norm (n m : Nat) : norm (n + norm m) = norm (n + m) := by
  have hmod := norm_mod m
  have hzero := norm_eq_zero (n := m)
  apply norm_congr
  · omega
  · omega

theorem norm_norm_add (n m : Nat) : norm (norm n + m) = norm (n + m) := by
  rw [Nat.add_comm, norm_add_norm, Nat.add_comm]

@[simp] theorem norm_norm (n : Nat) : norm (norm n) = norm n := norm_of_le (norm_le n)

/-- Addition respects normal forms. -/
theorem norm_add_congr {n n' m m' : Nat} (hn : norm n = norm n') (hm : norm m = norm m') :
    norm (n + m) = norm (n' + m') := by
  rw [← norm_norm_add, hn, norm_norm_add, ← norm_add_norm, hm, norm_add_norm]

/-- A carry is added back. -/
def fold (n : Nat) : Nat := n / 65536 + n % 65536

/-- Folding the high half onto the low one keeps the normal form. -/
theorem norm_fold (n : Nat) : norm (fold n) = norm n := by
  apply norm_congr
  · rw [fold]
    omega
  · rw [fold]
    omega

/-- One fold is enough below 2 ^ 17 - 1. -/
theorem fold_eq_norm {n : Nat} (h : n ≤ 131070) : fold n = norm n := by
  rw [← norm_fold, norm_of_le]
  rw [fold]
  omega

/-- Two folds are enough for 32 bits. -/
theorem fold_fold {n : Nat} (h : n < 2 ^ 32) : fold (fold n) = norm n := by
  rw [fold_eq_norm, norm_fold]
  rw [fold]
  omega

/-- The two bytes of a word change places. -/
def swap (n : Nat) : Nat := n % 256 * 256 + n / 256

theorem swap_le {n : Nat} (h : n ≤ 65535) : swap n ≤ 65535 := by
  rw [swap]
  omega

/-- Swapping the bytes of a word twice changes nothing. -/
theorem swap_swap {n : Nat} (h : n ≤ 65535) : swap (swap n) = n := by
  rw [swap, swap]
  omega

/-- To swap the bytes is to multiply by 256. -/
theorem swap_norm (n : Nat) : swap (norm n) = norm (256 * n) := by
  have hle := norm_le n
  have hmod := norm_mod n
  have hzero := norm_eq_zero (n := n)
  rw [← norm_of_le (swap_le hle)]
  apply norm_congr
  · rw [swap]
    omega
  · rw [swap]
    omega

/-- Multiplying by 256 twice keeps the normal form. -/
theorem norm_mul_256_mul_256 (n : Nat) : norm (256 * (256 * n)) = norm n := by
  apply norm_congr
  · omega
  · omega

/-- The complement of the word that a sum folds to makes the sum full. -/
theorem norm_add_complement (n : Nat) : norm (n + (65535 - norm n)) = 65535 := by
  have hle := norm_le n
  rw [← norm_norm_add, Nat.add_sub_cancel' hle]
  exact norm_of_le le_rfl

/-! ### Sums of bytes -/

/-- The sum of the words of a byte string, the first byte of a word the lower one; `odd` if the
    string begins with the second byte of a word. -/
def weigh (odd : Bool) : List UInt8 → Nat
  | [] => 0
  | b :: rest => (if odd then 256 * b.toNat else b.toNat) + weigh (!odd) rest

@[simp] theorem weigh_nil (odd : Bool) : weigh odd [] = 0 := rfl

theorem weigh_even_cons (b : UInt8) (rest : List UInt8) :
    weigh false (b :: rest) = b.toNat + weigh true rest := rfl

theorem weigh_odd_cons (b : UInt8) (rest : List UInt8) :
    weigh true (b :: rest) = 256 * b.toNat + weigh false rest := rfl

/-- The length of a byte string is odd. -/
def oddLength (data : List UInt8) : Bool := data.length % 2 != 0

@[simp] theorem oddLength_nil : oddLength [] = false := rfl

theorem oddLength_cons (b : UInt8) (rest : List UInt8) : oddLength (b :: rest) = !oddLength rest := by
  rw [oddLength, oddLength, List.length_cons]
  obtain h | h := Nat.mod_two_eq_zero_or_one rest.length
  · rw [h, Nat.add_mod, h]
    rfl
  · rw [h, Nat.add_mod, h]
    rfl

/-- Two odd pieces make an even one. -/
theorem oddLength_append (data more : List UInt8) :
    oddLength (data ++ more) = (oddLength data ^^ oddLength more) := by
  induction data with
  | nil => rw [List.nil_append, oddLength_nil, Bool.false_xor]
  | cons b rest ih => rw [List.cons_append, oddLength_cons, oddLength_cons, ih, Bool.not_xor]

/-- After a piece of odd length the high and low bytes change places. -/
theorem weigh_append (odd : Bool) (data more : List UInt8) :
    weigh odd (data ++ more) = weigh odd data + weigh (odd ^^ oddLength data) more := by
  induction data generalizing odd with
  | nil => rw [List.nil_append, weigh_nil, Nat.zero_add, oddLength_nil, Bool.xor_false]
  | cons b rest ih =>
    rw [List.cons_append, weigh, weigh, ih, oddLength_cons, Bool.not_xor, Bool.xor_not, Nat.add_assoc]

/-- To begin one byte later is to multiply by 256. -/
theorem norm_mul_weigh (odd : Bool) (data : List UInt8) :
    norm (256 * weigh odd data) = norm (weigh (!odd) data) := by
  induction data generalizing odd with
  | nil => rfl
  | cons b rest ih =>
    rw [weigh, weigh, Nat.mul_add]
    apply norm_add_congr ?_ (ih !odd)
    obtain _ | _ := odd
    · rfl
    · exact norm_mul_256_mul_256 b.toNat

/-- A byte adds at most 65280. -/
theorem weigh_le (odd : Bool) (data : List UInt8) : weigh odd data ≤ 65280 * data.length := by
  induction data generalizing odd with
  | nil => exact Nat.zero_le _
  | cons b rest ih =>
    have hb := b.toNat_lt
    have hrest := ih !odd
    rw [weigh, List.length_cons]
    obtain _ | _ := odd
    · rw [if_neg Bool.false_ne_true]
      omega
    · rw [if_pos rfl]
      omega

/-- The sum of a byte string, turned if it begins with the second byte of a word. -/
def turn (odd : Bool) (n : Nat) : Nat := if odd then swap n else n

/-- Swapping the sum of some bytes gives the sum at places of the other parity. -/
theorem turn_norm_weigh (odd odd' : Bool) (data : List UInt8) :
    turn odd (norm (weigh odd' data)) = norm (weigh (odd ^^ odd') data) := by
  obtain _ | _ := odd
  · rw [Bool.false_xor]
    rfl
  · rw [Bool.true_xor, ← norm_mul_weigh, ← swap_norm]
    rfl

theorem turn_le {n : Nat} (h : n ≤ 65535) (odd : Bool) : turn odd n ≤ 65535 := by
  obtain _ | _ := odd
  · exact h
  · exact swap_le h

/-- To turn twice changes nothing. -/
theorem turn_turn {n : Nat} (h : n ≤ 65535) (odd : Bool) : turn odd (turn odd n) = n := by
  obtain _ | _ := odd
  · rfl
  · exact swap_swap h

/-- Another swap is a turn of the other parity. -/
theorem swap_turn {n : Nat} (h : n ≤ 65535) (odd : Bool) : swap (turn odd n) = turn (!odd) n := by
  obtain _ | _ := odd
  · rfl
  · exact swap_swap h

/-- Turned sums add up to the turned sum. -/
theorem norm_turn_add_turn (odd : Bool) (n m : Nat) :
    norm (turn odd (norm n) + turn odd (norm m)) = turn odd (norm (n + m)) := by
  obtain _ | _ := odd
  · exact (norm_norm_add _ _).trans (norm_add_norm _ _)
  · rw [turn, if_pos rfl, turn, if_pos rfl, turn, if_pos rfl, swap_norm, swap_norm, swap_norm,
      norm_norm_add, norm_add_norm, Nat.mul_add]

/-- Bytes that begin where `odd` says, summed up as if they began a word. -/
theorem norm_weigh_false (odd : Bool) (data : List UInt8) :
    norm (weigh false data) = turn odd (norm (weigh odd data)) := by
  rw [turn_norm_weigh, Bool.xor_self]

end tun2proxy.onescomplement
