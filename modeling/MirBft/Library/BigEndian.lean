/-
**Fixed-width big-endian byte strings.**

`bigEndian width` maps the numbers below `256 ^ width` onto the byte strings of length `width`, one
to one: `bigEndianValue` is the inverse (`bigEndian_bigEndianValue`, `bigEndianValue_bigEndian`).
-/

import Mathlib.Data.Nat.Basic
import Mathlib.Algebra.Order.Ring.Nat
import Mathlib.Tactic.Ring

namespace MirBft

/-- The big-endian bytes of a number, modulo `256 ^ width`. -/
def bigEndian : (width value : Nat) → List UInt8
  | 0, _ => []
  | width + 1, value => UInt8.ofNat (value / 256 ^ width) :: bigEndian width value

/-- The number a big-endian byte string stands for. -/
def bigEndianValue : List UInt8 → Nat
  | [] => 0
  | byte :: rest => byte.toNat * 256 ^ rest.length + bigEndianValue rest

@[simp] theorem length_bigEndian (width value : Nat) : (bigEndian width value).length = width := by
  induction width with
  | zero => rfl
  | succ width ih => simp [bigEndian, ih]

/-- Only the value modulo `256 ^ width` is written. -/
theorem bigEndian_mul_add (width high low : Nat) :
    bigEndian width (high * 256 ^ width + low) = bigEndian width low := by
  induction width generalizing high with
  | zero => rfl
  | succ width ih =>
    have split : high * 256 ^ (width + 1) + low = high * 256 * 256 ^ width + low := by ring
    show UInt8.ofNat _ :: bigEndian width _ = UInt8.ofNat _ :: bigEndian width low
    rw [split, ih (high * 256)]
    congr 1
    rw [Nat.add_comm, Nat.add_mul_div_right _ _ (Nat.pow_pos (by decide))]
    refine UInt8.toNat.inj ?_
    exact Nat.add_mul_mod_self_right _ _ _

theorem bigEndianValue_lt (bytes : List UInt8) : bigEndianValue bytes < 256 ^ bytes.length := by
  induction bytes with
  | nil => exact Nat.one_pos
  | cons byte rest ih =>
    have top : byte.toNat + 1 ≤ 256 := byte.toNat_lt
    have scaled := Nat.mul_le_mul_right (256 ^ rest.length) top
    show byte.toNat * 256 ^ rest.length + bigEndianValue rest < 256 ^ (rest.length + 1)
    rw [add_mul] at scaled
    omega

/-- **Every byte string is written by its value.** -/
@[simp] theorem bigEndian_bigEndianValue (bytes : List UInt8) :
    bigEndian bytes.length (bigEndianValue bytes) = bytes := by
  induction bytes with
  | nil => rfl
  | cons byte rest ih =>
    show UInt8.ofNat ((byte.toNat * 256 ^ rest.length + bigEndianValue rest) / 256 ^ rest.length) ::
      bigEndian rest.length (byte.toNat * 256 ^ rest.length + bigEndianValue rest) = byte :: rest
    rw [bigEndian_mul_add, ih, Nat.add_comm, Nat.add_mul_div_right _ _ (Nat.pow_pos (by decide)),
      Nat.div_eq_of_lt (bigEndianValue_lt rest), Nat.zero_add, UInt8.ofNat_toNat]

/-- **A number that fits is read back.** -/
theorem bigEndianValue_bigEndian {width value : Nat} (fits : value < 256 ^ width) :
    bigEndianValue (bigEndian width value) = value := by
  induction width generalizing value with
  | zero =>
    rw [pow_zero, Nat.lt_one_iff] at fits
    rw [fits]
    rfl
  | succ width ih =>
    have positive : 0 < 256 ^ width := Nat.pow_pos (by decide)
    have top : value / 256 ^ width < 256 := by
      rw [pow_succ'] at fits
      exact Nat.div_lt_of_lt_mul (by rwa [mul_comm])
    -- The tail only sees the remainder.
    have tail : bigEndian width value = bigEndian width (value % 256 ^ width) := by
      have split : value = value / 256 ^ width * 256 ^ width + value % 256 ^ width := by
        rw [mul_comm]
        exact (Nat.div_add_mod value _).symm
      conv_lhs => rw [split]
      exact bigEndian_mul_add width _ _
    show (UInt8.ofNat (value / 256 ^ width)).toNat * 256 ^ (bigEndian width value).length +
      bigEndianValue (bigEndian width value) = value
    rw [length_bigEndian, UInt8.toNat_ofNat', Nat.mod_eq_of_lt top, tail,
      ih (Nat.mod_lt value positive), mul_comm]
    exact Nat.div_add_mod value _

theorem bigEndian_inj {width first second : Nat} (fitsFirst : first < 256 ^ width)
    (fitsSecond : second < 256 ^ width) (same : bigEndian width first = bigEndian width second) :
    first = second := by
  rw [← bigEndianValue_bigEndian fitsFirst, same, bigEndianValue_bigEndian fitsSecond]

end MirBft
