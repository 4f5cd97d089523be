/-
**Where a recovering node starts again.**

A node that stops in an active epoch goes on with the first sequence after the next checkpoint. The
loop of `reinitialize` counts up until the remainder is one (`skipToBoundary`):

* `highest_isGreatest`: it starts after the highest sequence of the log's Q-entries and C-entries;
* `boundary_reached_iff`: it ends at the next boundary if and only if the checkpoint interval is not
  one and the boundary fits into 64 bits. With an interval of one no remainder is one
  (`boundary_never_reached`), and a number that overflows starts again at zero.
-/

import MirBft.Model.EpochTracker
import Mathlib.Algebra.Order.Floor.Div
import Mathlib.Data.Nat.ModEq

namespace MirBft

open Proc EpochTracker

namespace RecoveryBoundary

/-- The sequence numbers of the Q-entries and C-entries of a log. -/
def preprepared (log : List Persistent) : Set Nat :=
  {seqNo | ∃ entry ∈ log, (∃ q, entry = .qEntry q ∧ q.seqNo = seqNo) ∨ ∃ c, entry = .cEntry c ∧
  c.seqNo = seqNo}

/-- **The highest sequence that `reinitialize` reads** of a log, which is zero if there is none. -/
theorem highest_isGreatest (log : List Persistent) :
    IsGreatest (insert 0 (preprepared log)) (lastEntries log).highestPreprepared := by
  induction log using List.reverseRecOn with
  | nil => simp [IsGreatest, upperBounds, preprepared, lastEntries, LastEntries.none]
  | append_singleton log entry ih =>
    have read : lastEntries (log ++ [entry]) = (lastEntries log).read entry := List.foldl_append
    have extended (seqNo : Nat) (same : preprepared (log ++ [entry]) = insert seqNo (preprepared log)) :
        IsGreatest (insert 0 (preprepared (log ++ [entry])))
          (max (lastEntries log).highestPreprepared seqNo) := by
      rw [same, Set.insert_comm, max_comm]
      exact ih.insert seqNo
    rw [read]
    cases entry
    case qEntry entry | cEntry entry =>
      refine extended entry.seqNo ?_
      ext
      simp [preprepared, or_and_right, exists_or, eq_comm, or_comm]
    all_goals simpa [preprepared, or_and_right, exists_or, LastEntries.read] using ih

/-- The first sequence after the next checkpoint. -/
def nextBoundary (ci highest : Nat) : Nat := ci * (highest ⌈/⌉ ci) + 1

variable {ci highest fuel seqNo found : Nat} {needs transfer : Bool}

theorem nextBoundary_isLeast (positive : 0 < ci) :
    IsLeast {seqNo | highest < seqNo ∧ ci ∣ seqNo - 1} (nextBoundary ci highest) := by
  refine ⟨⟨Nat.lt_succ_of_le (le_smul_ceilDiv positive), dvd_mul_right _ _⟩, ?_⟩
  rintro seqNo ⟨above, quotient, isMultiple⟩
  have reaches : highest ≤ ci * quotient := by omega
  have least := Nat.mul_le_mul_left ci ((ceilDiv_le_iff_le_mul positive).mpr reaches)
  unfold nextBoundary
  omega

theorem boundary_iff (several : 1 < ci) (positive : 0 < seqNo) : seqNo % ci = 1 ↔ ci ∣ seqNo - 1 := by
  rw [← Nat.modEq_iff_dvd' positive, Nat.ModEq, Nat.mod_eq_of_lt several, eq_comm]

/-- **The loop skips** what is no boundary. -/
theorem skipToBoundary_skips {skipped : Nat} (boundary : (seqNo + skipped) % 2 ^ 64 % ci = 1)
    (none : ∀ fewer < skipped, (seqNo + fewer) % 2 ^ 64 % ci ≠ 1) :
    skipToBoundary ci (skipped + 1) (seqNo % 2 ^ 64) needs =
      some ((seqNo + skipped) % 2 ^ 64, needs || skipped != 0) := by
  induction skipped generalizing seqNo needs with
  | zero => simpa [skipToBoundary] using boundary
  | succ skipped ih =>
    have next : (seqNo % 2 ^ 64 + 1) % 2 ^ 64 = (seqNo + 1) % 2 ^ 64 := Nat.mod_add_mod ..
    have same (fewer : Nat) : seqNo + (fewer + 1) = seqNo + 1 + fewer := by omega
    have here : seqNo % 2 ^ 64 % ci ≠ 1 := none 0 (by omega)
    rw [skipToBoundary, if_pos here, next, same skipped, ih]
    · simp
    · rwa [← same]
    · intro fewer less
      rw [← same]
      exact none _ (by omega)

/-- Where the loop ends. -/
theorem skipToBoundary_eq_some (fits : seqNo < 2 ^ 64)
    (ended : skipToBoundary ci fuel seqNo needs = some (found, transfer)) :
    found < 2 ^ 64 ∧ found % ci = 1 := by
  induction fuel generalizing seqNo needs with
  | zero => cases ended
  | succ fuel ih =>
    unfold skipToBoundary at ended
    split at ended
    · exact ih (Nat.mod_lt _ (by omega)) ended
    · cases ended
      exact ⟨fits, not_not.mp ‹_›⟩

/-- **The loop finds the next boundary** if and only if the checkpoint interval is not one and the
boundary fits into 64 bits. -/
theorem boundary_reached_iff (log : List Persistent) (positive : 0 < ci) (needs : Bool)
    (isHighest : highest = (lastEntries log).highestPreprepared) :
    IsGreatest (insert 0 (preprepared log)) highest ∧
      ((∃ fuel seqNo transfer, skipToBoundary ci fuel ((highest + 1) % 2 ^ 64) needs = some
          (seqNo, transfer) ∧ IsLeast {seqNo | highest < seqNo ∧ ci ∣ seqNo - 1} seqNo ∧
          (transfer = true ↔ needs = true ∨ seqNo ≠ highest + 1)) ↔
        ci ≠ 1 ∧ nextBoundary ci highest < 2 ^ 64) := by
  refine ⟨isHighest ▸ highest_isGreatest log, ⟨?_, ?_⟩⟩
  · rintro ⟨fuel, seqNo, transfer, ended, least, _⟩
    obtain ⟨fits, boundary⟩ := skipToBoundary_eq_some (Nat.mod_lt _ (by omega)) ended
    rw [least.unique (nextBoundary_isLeast positive)] at fits
    refine ⟨?_, fits⟩
    rintro rfl
    rw [Nat.mod_one] at boundary
    cases boundary
  · rintro ⟨several, fits⟩
    have least := @nextBoundary_isLeast ci highest positive
    obtain ⟨skipped, isNext⟩ : ∃ skipped, nextBoundary ci highest = highest + 1 + skipped :=
      Nat.exists_eq_add_of_le least.1.1
    rw [isNext] at least fits
    have isBoundary (more : Nat) := @boundary_iff ci (highest + 1 + more) (by omega) (by omega)
    refine ⟨skipped + 1, _, needs || skipped != 0, ?_, least, by simp⟩
    have isHere := Nat.mod_eq_of_lt fits
    rw [skipToBoundary_skips (isHere.symm ▸ (isBoundary skipped).mpr least.1.2), isHere]
    intro fewer less isEarlier
    rw [Nat.mod_eq_of_lt (show highest + 1 + fewer < 2 ^ 64 by omega)] at isEarlier
    have bound := least.2 ⟨by omega, (isBoundary fewer).mp isEarlier⟩
    omega

/-- **The model goes on where the loop ends.** -/
theorem resume_follows (nEntry : NEntry) (st : TrackerState) :
    wp (resume nEntry highest) st fun final _ _ =>
      ∃ target fuel, final.tracker.currentEpoch = some target ∧
        skipToBoundary st.tracker.networkConfig.checkpointInterval fuel ((highest + 1) % 2 ^ 64)
          st.tracker.needsStateTransfer =
            some (target.startingSeqNo, final.tracker.needsStateTransfer) := by
  refine wp_get_bind ?_
  dsimp only
  split
  · exact wp_fail _ _ _
  rename_i skipped isFound
  obtain ⟨boundary, _, none⟩ := List.find?_range_eq_some.mp isFound
  rw [wp_bind, assign, wp_modify, wp_bind, onShared, wp_zoom]
  refine wp_get_bind (wp_lift_bind fun _ _ => ?_)
  simp only [wp_bind, wp_modify, wp_emit]
  refine ⟨_, _, rfl, skipToBoundary_skips (eq_of_beq boundary) fun fewer less => ?_⟩
  simpa using none fewer less

/-- After sequence three, with five sequences to a checkpoint, the node goes on with sequence
six. -/
theorem sixth_reached : ∃ fuel seqNo transfer, skipToBoundary 5 fuel 4 false = some (seqNo, transfer) ∧
    IsLeast {seqNo | 3 < seqNo ∧ 5 ∣ seqNo - 1} seqNo ∧ (transfer = true ↔ false = true ∨ seqNo ≠ 4) :=
  (boundary_reached_iff [.qEntry ⟨3, [7], []⟩] (by decide) false rfl).2.mpr ⟨by decide, by decide⟩

/-- **With a checkpoint at every sequence** the loop never ends. -/
theorem boundary_never_reached : (lastEntries [.qEntry ⟨3, [7], []⟩]).highestPreprepared = 3 ∧
    ∀ fuel, skipToBoundary 1 fuel ((3 + 1) % 2 ^ 64) false = none := by
  refine ⟨rfl, fun fuel => Option.eq_none_iff_forall_ne_some.mpr fun ⟨found, transfer⟩ ended => ?_⟩
  have boundary := (skipToBoundary_eq_some (by decide) ended).2
  rw [Nat.mod_one] at boundary
  cases boundary

end RecoveryBoundary

end MirBft
