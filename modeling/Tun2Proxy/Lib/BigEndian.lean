import Mathlib.Data.Nat.Bitwise
import Mathlib.Tactic.Ring

namespace tun2proxy.bigendian

/-- Shifting one byte count left and filling in a value below it is addition. -/
theorem shiftLeft_or_eq_add {high low : Nat} (width : Nat) (hlow : low < 2 ^ width) :
    high <<< width ||| low = high * 2 ^ width + low := by
  rw [← Nat.shiftLeft_add_eq_or_of_lt hlow, Nat.shiftLeft_eq]

private theorem and_255_mod (m : Nat) : (m &&& 255) % 256 = m % 256 := by
  have h := Nat.and_two_pow_sub_one_eq_mod m 8
  simp only [Nat.reducePow, Nat.add_one_sub_one] at h
  omega

/-- Four bytes, the most significant one first, as the 32-bit value they encode. -/
def join32 (b3 b2 b1 b0 : UInt8) : UInt32 :=
  b3.toUInt32 <<< 24 ||| b2.toUInt32 <<< 16 ||| b1.toUInt32 <<< 8 ||| b0.toUInt32

/-- Two bytes, the most significant one first, as a 64-bit `int`. -/
def join16 (high low : UInt8) : Int64 :=
  high.toUInt64.toInt64 <<< 8 ||| low.toUInt64.toInt64

theorem join32_toNat (b3 b2 b1 b0 : UInt8) :
    (join32 b3 b2 b1 b0).toNat =
      b3.toNat * 2 ^ 24 + b2.toNat * 2 ^ 16 + b1.toNat * 2 ^ 8 + b0.toNat := by
  have h3 := b3.toNat_lt
  have h2 := b2.toNat_lt
  have h1 := b1.toNat_lt
  have h0 := b0.toNat_lt
  have hshift3 : (b3.toUInt32 <<< 24).toNat = b3.toNat <<< 24 := by
    simp [UInt32.toNat_shiftLeft, Nat.shiftLeft_eq]
    omega
  have hshift2 : (b2.toUInt32 <<< 16).toNat = b2.toNat <<< 16 := by
    simp [UInt32.toNat_shiftLeft, Nat.shiftLeft_eq]
    omega
  have hshift1 : (b1.toUInt32 <<< 8).toNat = b1.toNat <<< 8 := by
    simp [UInt32.toNat_shiftLeft, Nat.shiftLeft_eq]
    omega
  have hlow : b1.toNat <<< 8 ||| b0.toNat = b1.toNat * 2 ^ 8 + b0.toNat :=
    shiftLeft_or_eq_add 8 h0
  have hmid : b2.toNat <<< 16 ||| (b1.toNat <<< 8 ||| b0.toNat) =
      b2.toNat * 2 ^ 16 + (b1.toNat * 2 ^ 8 + b0.toNat) := by
    rw [hlow]
    exact shiftLeft_or_eq_add 16 (by omega)
  simp only [join32, UInt32.toNat_or, hshift3, hshift2, hshift1, UInt8.toNat_toUInt32, Nat.or_assoc]
  rw [hmid, shiftLeft_or_eq_add 24 (by omega)]
  omega

/-- The four bytes of a 32-bit value join to the value. -/
theorem join32_split (n : UInt32) :
    join32 ((n >>> 24) &&& 0xff).toUInt8 ((n >>> 16) &&& 0xff).toUInt8
      ((n >>> 8) &&& 0xff).toUInt8 (n &&& 0xff).toUInt8 = n := by
  have hn := n.toNat_lt
  apply UInt32.toNat_inj.mp
  rw [join32_toNat]
  simp only [UInt32.toNat_toUInt8, UInt32.toNat_and, UInt32.toNat_shiftRight,
    Nat.shiftRight_eq_div_pow]
  simp [and_255_mod]
  omega

theorem toNat_join16 (high low : UInt8) :
    (join16 high low).toBitVec.toNat = high.toNat * 2 ^ 8 + low.toNat := by
  have hhigh := high.toNat_lt
  have hor : high.toNat <<< 8 ||| low.toNat = high.toNat * 2 ^ 8 + low.toNat :=
    shiftLeft_or_eq_add 8 low.toNat_lt
  simp [join16]
  rw [Nat.mod_eq_of_lt (by rw [Nat.shiftLeft_eq]; omega)]
  simpa using hor

/-- A 64-bit `int` in the port range is below `2 ^ 16` as an unsigned number. -/
private theorem toNat_lt_of_port {port : Int64} (hlo : 0 ≤ port) (hhi : port ≤ 65535) :
    port.toBitVec.toNat < 2 ^ 16 := by
  have h0 : 0 ≤ port.toInt := by simpa [Int64.le_iff_toInt_le] using hlo
  have h1 : port.toInt ≤ 65535 := by simpa [Int64.le_iff_toInt_le] using hhi
  rw [← Int64.toInt_toBitVec, BitVec.toInt_eq_toNat_cond] at h0 h1
  have hlt := port.toBitVec.isLt
  split at h0 <;> omega

private theorem toNat_highByte {port : Int64} (hlt : port.toBitVec.toNat < 2 ^ 16) :
    (port >>> 8).toUInt64.toUInt8.toNat = port.toBitVec.toNat / 2 ^ 8 % 2 ^ 8 := by
  have hmsb : port.toBitVec.msb = false := by
    rw [BitVec.msb_eq_decide]
    simp
    omega
  have hshift : (port >>> 8).toUInt64.toNat = port.toBitVec.toNat / 2 ^ 8 := by
    rw [← UInt64.toNat_toBitVec, Int64.toBitVec_toUInt64, Int64.toBitVec_shiftRight]
    simp
    rw [BitVec.sshiftRight_eq_of_msb_false hmsb]
    simp [Nat.shiftRight_eq_div_pow]
  rw [UInt64.toNat_toUInt8, hshift]

private theorem toNat_lowByte (port : Int64) :
    (port &&& 0xff).toUInt64.toUInt8.toNat = port.toBitVec.toNat % 2 ^ 8 := by
  have hand : (port &&& 0xff).toUInt64.toNat = port.toBitVec.toNat &&& 255 := by
    rw [← UInt64.toNat_toBitVec, Int64.toBitVec_toUInt64, Int64.toBitVec_and]
    simp
  rw [UInt64.toNat_toUInt8, hand]
  exact and_255_mod _

/-- The two low bytes of an `int` in the port range join to it. -/
theorem join16_split {port : Int64} (hlo : 0 ≤ port) (hhi : port ≤ 65535) :
    join16 (port >>> 8).toUInt64.toUInt8 (port &&& 0xff).toUInt64.toUInt8 = port := by
  have hlt := toNat_lt_of_port hlo hhi
  apply Int64.toBitVec_inj.mp
  apply BitVec.eq_of_toNat_eq
  rw [toNat_join16, toNat_highByte hlt, toNat_lowByte]
  omega

end tun2proxy.bigendian
