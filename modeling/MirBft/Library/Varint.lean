/-
**Variable-length numbers, as Go's `encoding/binary` writes and reads them.**

Seven bits to a byte, the lowest first, and the top bit on every byte but the last; a signed number
is folded onto the unsigned ones first (zigzag). `readVarint_eq_ok` says which streams start with a
number, `isUvarint_putVarint` that what is written is one, and `readVarint_cut` that a stream which
breaks off inside a number is an error.
-/

import Mathlib.Data.List.TakeWhile
import Mathlib.Data.Nat.Digits.Defs

namespace MirBft

open List

/-- How reading a number fails. -/
inductive VarintError where
  | eof
  | unexpectedEOF
  | overflow
deriving DecidableEq

/-- `PutUvarint` into a buffer with room for so many bytes. -/
def putUvarint : (room x : Nat) → List UInt8
  | 0, _ => []
  | room + 1, x =>
    if x < 0x80 then [UInt8.ofNat x] else UInt8.ofNat (x % 0x80 + 0x80) :: putUvarint room (x / 0x80)

def putVarint (x : Int) : List UInt8 := putUvarint 10 (if x < 0 then -(2 * x) - 1 else 2 * x).toNat

/-- The number that bytes are. -/
def uvarintValue (bytes : List UInt8) : Nat := Nat.ofDigits 0x80 (bytes.map (·.toNat % 0x80))

/-- `ReadUvarint`: the number, or the error, and what is left of the stream. It reads at most ten
bytes, of which the last has one bit; a stream that ends inside the number is reported as `cut`. -/
def readUvarint (cut : VarintError) (source : List UInt8) : Except VarintError Nat × List UInt8 :=
  let high := source.takeWhile (0x80 ≤ ·.toNat)
  if 10 ≤ high.length then (.error .overflow, source.drop 10)
  else match source.dropWhile (0x80 ≤ ·.toNat) with
    | [] => (.error (if high = [] then .eof else cut), [])
    | last :: rest =>
      if high.length = 9 ∧ 1 < last.toNat then (.error .overflow, rest)
      else (.ok (uvarintValue (high ++ [last])), rest)

/-- The signed number that an unsigned one stands for. -/
def zigzag (ux : Nat) : Int := if ux % 2 = 0 then ux / 2 else -(ux / 2) - 1

def readVarint (cut : VarintError) (source : List UInt8) : Except VarintError Int × List UInt8 :=
  let (ux, source) := readUvarint cut source
  (ux.map zigzag, source)

/-- Bytes that are one number of at most `room` bytes, whether or not in its shortest form. -/
def IsUvarint (room : Nat) (bytes : List UInt8) : Prop :=
  ∃ high last, bytes = high ++ [last] ∧ (∀ byte ∈ high, 0x80 ≤ byte.toNat) ∧ last.toNat < 0x80 ∧
    high.length < room ∧ (high.length + 1 = room → last.toNat ≤ 1)

variable {cut : VarintError} {room n : Nat}

/-- **A number is read exactly if the stream starts with one.** -/
theorem readVarint_eq_ok {source rest : List UInt8} {x : Int} : readVarint cut source = (.ok x, rest) ↔
    ∃ bytes, source = bytes ++ rest ∧ IsUvarint 10 bytes ∧ x = zigzag (uvarintValue bytes) := by
  constructor
  · intro read
    simp only [readVarint, readUvarint] at read
    split at read
    · cases read
    · rename_i short
      split at read
      · cases read
      · rename_i last left isLeft
        have isSource := takeWhile_append_dropWhile (p := fun b : UInt8 => (0x80 ≤ b.toNat : Bool))
          (l := source)
        have ends := head_dropWhile_not (fun b : UInt8 => (0x80 ≤ b.toNat : Bool)) (l := source)
          (by simp [isLeft])
        simp only [isLeft, head_cons, decide_eq_false_iff_not] at ends isSource
        split at read
        · cases read
        · rename_i fits
          cases read
          refine ⟨_, by rw [append_assoc]; exact isSource.symm,
            ⟨_, last, rfl, fun byte isByte => ?_, by omega, by omega, by omega⟩, rfl⟩
          simpa using mem_takeWhile_imp isByte
  · rintro ⟨_, rfl, ⟨high, last, rfl, goesOn, ends, short, top⟩, rfl⟩
    have goesOn' : ∀ byte ∈ high, decide (0x80 ≤ byte.toNat) = true := by simpa using goesOn
    simp only [readVarint, readUvarint, append_assoc, takeWhile_append_of_pos goesOn',
      dropWhile_append_of_pos goesOn', singleton_append, takeWhile_cons, dropWhile_cons,
      Nat.not_le.mpr ends, decide_false, Bool.false_eq_true, if_false, append_nil]
    rw [if_neg (by omega), if_neg (by omega)]
    rfl

theorem isUvarint_putUvarint {x : Nat} (fits : x < 2 * 0x80 ^ room) :
    IsUvarint (room + 1) (putUvarint (room + 1) x) ∧ uvarintValue (putUvarint (room + 1) x) = x := by
  induction room generalizing x with
  | zero =>
    have isByte : (UInt8.ofNat x).toNat = x := by rw [UInt8.toNat_ofNat']; omega
    rw [putUvarint, if_pos (by omega)]
    refine ⟨⟨[], _, rfl, by simp, by omega, by simp, fun _ => by omega⟩, ?_⟩
    simp [uvarintValue, isByte, Nat.mod_eq_of_lt (show x < 128 by omega)]
  | succ room ih =>
    rw [putUvarint]
    split_ifs with small
    · have isByte : (UInt8.ofNat x).toNat = x := by rw [UInt8.toNat_ofNat']; omega
      refine ⟨⟨[], _, rfl, by simp, by omega, by simp, by simp⟩, ?_⟩
      simp [uvarintValue, isByte, Nat.mod_eq_of_lt small]
    · have isByte : (UInt8.ofNat (x % 0x80 + 0x80)).toNat = x % 0x80 + 0x80 := by
        rw [UInt8.toNat_ofNat']
        omega
      obtain ⟨⟨high, last, isPut, goesOn, ends, short, top⟩, value⟩ :=
        @ih (x / 0x80) (by rw [pow_succ] at fits; omega)
      refine ⟨⟨_ :: high, last, congrArg (_ :: ·) isPut, ?_, ends, by simpa using short,
        fun isRoom => ?_⟩, ?_⟩
      · rintro b (_ | ⟨_, isHigh⟩)
        exacts [by omega, goesOn b isHigh]
      · exact top (by simpa using isRoom)
      · show Nat.ofDigits _ (_ % 0x80 :: _) = x
        rw [Nat.ofDigits_cons]
        show _ + _ * uvarintValue _ = x
        rw [value, isByte]
        omega

theorem isUvarint_putVarint (fits : n < 2 ^ 63) :
    IsUvarint 10 (putVarint n) ∧ zigzag (uvarintValue (putVarint n)) = n := by
  have isDouble : (if (n : Int) < 0 then -(2 * (n : Int)) - 1 else 2 * n).toNat = 2 * n := by omega
  obtain ⟨isNumber, value⟩ := @isUvarint_putUvarint 9 (2 * n) (by omega)
  rw [putVarint, isDouble, value, zigzag, if_pos (by omega)]
  exact ⟨isNumber, by omega⟩

/-- **A stream that breaks off inside a number is an error.** -/
theorem readVarint_cut {piece more : List UInt8} (isNumber : IsUvarint 10 (piece ++ more))
    (started : piece ≠ []) (unfinished : more ≠ []) : readVarint cut piece = (.error cut, []) := by
  obtain ⟨high, last, isPut, goesOn, _, short, _⟩ := isNumber
  have lengths : piece.length + more.length = high.length + 1 := by simpa using congrArg List.length isPut
  have some_left := length_pos_iff.mpr unfinished
  have inside : piece <+: high := prefix_of_prefix_length_le (isPut ▸ prefix_append piece more)
    (prefix_append high [last]) (by omega)
  have isHigh : piece.takeWhile (0x80 ≤ ·.toNat) = piece :=
    takeWhile_eq_self_iff.mpr fun byte isByte => by simpa using goesOn byte (inside.subset isByte)
  have noneLeft : piece.dropWhile (0x80 ≤ ·.toNat) = [] := by
    rw [dropWhile_eq_nil_iff]
    exact fun byte isByte => by simpa using goesOn byte (inside.subset isByte)
  simp only [readVarint, readUvarint, isHigh, noneLeft, if_neg (show ¬ 10 ≤ piece.length by omega),
    if_neg started]
  rfl

end MirBft
