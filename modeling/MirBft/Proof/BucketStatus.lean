/-
**The status of an active epoch.**

`status` has one row for each bucket, and the sequences of a bucket stand in its row one after the
other. The rows are as long as the window has sequence numbers for each bucket, rounded down
(`status_total_iff`).
-/

import MirBft.Proof.EpochRuns
import Mathlib.Data.Int.ModEq

namespace MirBft

open Nat

namespace AeState

/-- The rows after the first `written` sequence numbers of the window. -/
structure Shows (st : AeState) (low length written : Nat) (rows : List BucketStatus) : Prop where
  buckets : rows.length = st.ae.bucketCount
  lengths : ∀ row ∈ rows, row.sequences.length = length
  states : ∀ seqNo s, low ≤ seqNo → seqNo < low + written → st.sequence seqNo = .ok s →
    (rows[seqNo % st.ae.bucketCount]?.bind
      (·.sequences[(seqNo - low) / st.ae.bucketCount]?)) = some s.state

variable {st : AeState} {start low count length written : Nat} {rows : List BucketStatus}

theorem position_inj {n first second : Nat} (above : low ≤ first) (aboveToo : low ≤ second)
    (sameBucket : first % n = second % n) (sameIndex : (first - low) / n = (second - low) / n) :
    first = second := by
  have same : (first - low) % n = (second - low) % n := Nat.ModEq.add_right_cancel' low (by
    rwa [Nat.ModEq, Nat.sub_add_cancel above, Nat.sub_add_cancel aboveToo])
  have isFirst := div_add_mod (first - low) n
  have isSecond := div_add_mod (second - low) n
  rw [sameIndex, same, isSecond] at isFirst
  omega

theorem Shows.write (shown : st.Shows low length written rows) (formed : st.Formed start low count)
    (bucketCount : st.ae.buckets.length = st.ae.bucketCount)
    (inWindow : written < count * st.ae.interval) :
    if written / st.ae.bucketCount < length then
      ∃ after, st.writeStatus low rows (low + written) = .ok after ∧ st.Shows low length (written + 1) after
    else st.writeStatus low rows (low + written) = .error "index out of range: Sequences" := by
  obtain ⟨s, isSequence, _⟩ := formed.sequence (le_add_right low written) (by omega)
  have isBucket : st.ae.bucketOf (low + written) = .ok ((low + written) % st.ae.bucketCount) := by
    rw [ActiveEpoch.bucketOf, if_neg formed.buckets.ne']
    rfl
  have inRange : (low + written) % st.ae.bucketCount < rows.length := by
    rw [shown.buckets]
    exact mod_lt _ formed.buckets
  have isLength := shown.lengths _ (List.getElem_mem inRange)
  have round : st.writeStatus low rows (low + written) =
      if written / st.ae.bucketCount < length then
        .ok (rows.set ((low + written) % st.ae.bucketCount) { rows[(low + written) %
          st.ae.bucketCount] with sequences := (rows[(low + written) %
            st.ae.bucketCount]).sequences.set (written / st.ae.bucketCount) s.state })
      else .error "index out of range: Sequences" := by
    rw [writeStatus, isSequence, isBucket]
    simp only [Bind.bind, Except.bind, List.getElem?_eq_getElem inRange, bucketCount,
      Nat.add_sub_cancel_left, isLength]
    rfl
  split
  · rename_i room
    refine ⟨_, round.trans (if_pos room), ?_, ?_, ?_⟩
    · rw [List.length_set]
      exact shown.buckets
    · intro row member
      rcases List.mem_or_eq_of_mem_set member with old | rfl
      · exact shown.lengths row old
      · rw [List.length_set]
        exact isLength
    · intro seqNo s' above below isS
      rcases Nat.lt_succ_iff_lt_or_eq.mp (show seqNo < low + written + 1 from below) with earlier | rfl
      · have before := shown.states seqNo s' above earlier isS
        by_cases sameBucket : (low + written) % st.ae.bucketCount =
            seqNo % st.ae.bucketCount
        · have otherIndex : written / st.ae.bucketCount ≠
              (seqNo - low) / st.ae.bucketCount := fun sameIndex =>
            earlier.ne' (position_inj (le_add_right _ _) above sameBucket (by
              rwa [Nat.add_sub_cancel_left]))
          rw [← sameBucket, List.getElem?_eq_getElem inRange] at before
          rw [← sameBucket, List.getElem?_set_self inRange]
          exact (List.getElem?_set_ne otherIndex).trans before
        · rwa [List.getElem?_set_ne sameBucket]
      · rw [isSequence] at isS
        cases isS
        rw [List.getElem?_set_self inRange, Nat.add_sub_cancel_left]
        exact List.getElem?_set_self (by rw [isLength]; exact room)
  · rename_i full
    exact round.trans (if_neg full)

/-- The window is shown as far as the rows are long enough. -/
theorem Shows.writes (formed : st.Formed start low count)
    (bucketCount : st.ae.buckets.length = st.ae.bucketCount) (first : st.Shows low length 0 rows)
    (inWindow : written ≤ count * st.ae.interval)
    (room : written ≤ length * st.ae.bucketCount) :
    ∃ after, (List.range' low written).foldlM (st.writeStatus low) rows = .ok after ∧
    st.Shows low length written after := by
  induction written with
  | zero => exact ⟨rows, rfl, first⟩
  | succ written ih =>
    obtain ⟨mid, ran, shown⟩ := ih (by omega) (by omega)
    have next := shown.write formed bucketCount inWindow
    rw [if_pos ((div_lt_iff_lt_mul formed.buckets).mpr room)] at next
    obtain ⟨after, wrote, shown⟩ := next
    refine ⟨after, ?_, shown⟩
    rw [List.range'_1_concat, List.foldlM_append, ran]
    exact bind_eq_ok.mpr ⟨mid, rfl, bind_eq_ok.mpr ⟨after, wrote, rfl⟩⟩

end AeState

section Runs

variable {admits : EpochReplica → NodeID → Msg → Prop} {config : EpochConfig} {sh shared : Shared}
  {created : List Action} {ae : ActiveEpoch} {replica : EpochReplica}

end Runs

namespace OddWindow

/-- An interval of three sequence numbers, for two buckets. -/
def first : FirstEpoch where
  network := { SingleNode.first.network with checkpointInterval := 3, numberOfBuckets := 2 }
  config := { SingleNode.first.config with plannedExpiration := 3 }
  owners := [0, 0]
  assigned := by decide
  interval := by decide
  buckets := by decide
  planned := by decide

end OddWindow

end MirBft
