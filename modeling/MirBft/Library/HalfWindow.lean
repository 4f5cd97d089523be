/-
**A sliding window kept in two halves.**

A window of `2 * half` slots is kept in two lists of `half` slots each, and position `k` is slot
`k % half` of one of them. It is filled from the left; when the first half is no longer needed the
second one takes its place.

* `Filled`: the slots hold the entries, and nothing after them;
* `Filled.read`, `Filled.push`, `Filled.shift`: what is read at a position, an entry put into the
  first free slot, and the move to the next half.
-/

import Mathlib.Data.List.Basic

namespace MirBft.HalfWindow

open List

variable {α : Type}

/-- The half that position `k` is in. -/
def side (half : Nat) (lower upper : List (Option α)) (k : Nat) : List (Option α) :=
  if k + 1 > half then upper else lower

/-- **The window holds the entries**, from its first slot on. -/
structure Filled (half : Nat) (lower upper : List (Option α)) (entries : List α) : Prop where
  lowerLength : lower.length = half
  upperLength : upper.length = half
  fits : entries.length ≤ 2 * half
  slots : lower ++ upper = entries.map some ++ List.replicate (2 * half - entries.length) none

variable {half : Nat} {lower upper : List (Option α)} {entries : List α}

theorem Filled.empty (half : Nat) :
    Filled half (List.replicate half none) (List.replicate half none) ([] : List α) where
  lowerLength := length_replicate
  upperLength := length_replicate
  fits := Nat.zero_le _
  slots := by
    rw [replicate_append_replicate, map_nil]
    congr 1
    simp only [length_nil]
    omega

/-- The slot of a position is the position's slot in the whole window. -/
theorem side_get (lowerLength : lower.length = half) {k : Nat} (inside : k < 2 * half) :
    (side half lower upper k)[k % half]? = (lower ++ upper)[k]? := by
  unfold side
  by_cases second : k + 1 > half
  · have offset : k % half = k - half := by
      rw [Nat.mod_eq_sub_mod (by omega), Nat.mod_eq_of_lt (by omega)]
    rw [if_pos second, List.getElem?_append_right (by omega), offset, lowerLength]
  · rw [if_neg second, List.getElem?_append_left (by omega), Nat.mod_eq_of_lt (by omega)]

variable (filled : Filled half lower upper entries)
include filled

/-- **What is read at a position**: the entry there, or nothing. -/
theorem Filled.read {k : Nat} (inside : k < 2 * half) :
    (side half lower upper k)[k % half]? = some entries[k]? := by
  rw [side_get filled.lowerLength inside, filled.slots]
  by_cases there : k < entries.length
  · rw [List.getElem?_append_left (by simpa using there), List.getElem?_map,
      List.getElem?_eq_getElem there]
    rfl
  · rw [List.getElem?_append_right (by simpa using there), length_map,
      List.getElem?_eq_none (Nat.le_of_not_lt there), List.getElem?_replicate, if_pos (by omega)]

theorem Filled.set (room : entries.length < 2 * half)
    (entry : α) : (lower ++ upper).set entries.length (some entry) =
      (entries ++ [entry]).map some ++ List.replicate (2 * half - (entries.length + 1)) none := by
  have free : 2 * half - entries.length = 2 * half - (entries.length + 1) + 1 := by omega
  rw [filled.slots, set_append_right _ _ (by simp), length_map, Nat.sub_self, free,
    replicate_succ]
  simp

theorem Filled.pushUpper (room : entries.length < 2 * half)
    (second : entries.length + 1 > half) (entry : α) :
    Filled half lower (upper.set (entries.length % half) (some entry)) (entries ++ [entry]) where
  lowerLength := filled.lowerLength
  upperLength := by rw [length_set, filled.upperLength]
  fits := by
    rw [length_append, length_singleton]
    omega
  slots := by
    have offset : entries.length % half = entries.length - lower.length := by
      rw [filled.lowerLength, Nat.mod_eq_sub_mod (by omega), Nat.mod_eq_of_lt (by omega)]
    have sameSet : (lower ++ upper).set entries.length (some entry) =
        lower ++ upper.set (entries.length - lower.length) (some entry) :=
      set_append_right _ _ (by rw [filled.lowerLength]; omega)
    rw [offset, ← sameSet, filled.set room]
    simp

theorem Filled.pushLower (first : entries.length + 1 ≤ half)
    (entry : α) :
    Filled half (lower.set (entries.length % half) (some entry)) upper (entries ++ [entry]) where
  lowerLength := by rw [length_set, filled.lowerLength]
  upperLength := filled.upperLength
  fits := by
    rw [length_append, length_singleton]
    omega
  slots := by
    have sameSet : (lower ++ upper).set entries.length (some entry) =
        lower.set entries.length (some entry) ++ upper :=
      set_append_left _ _ (by rw [filled.lowerLength]; omega)
    rw [Nat.mod_eq_of_lt (by omega), ← sameSet, filled.set (by omega)]
    simp

/-- **The move to the next half.** -/
theorem Filled.shift :
    Filled half upper (List.replicate half none) (entries.drop half) where
  lowerLength := filled.upperLength
  upperLength := length_replicate
  fits := by
    have := filled.fits
    rw [length_drop]
    omega
  slots := by
    have fits := filled.fits
    have second : upper = (entries.map some ++ List.replicate (2 * half - entries.length) none).drop
        half := by
      rw [← filled.slots, drop_left' filled.lowerLength]
    rw [second, drop_append, ← map_drop, length_map, drop_replicate,
      append_assoc, replicate_append_replicate, length_drop]
    congr 2
    omega

end MirBft.HalfWindow
