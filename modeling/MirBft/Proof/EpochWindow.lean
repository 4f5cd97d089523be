/-
**The window of an active epoch.**

`AeState.Formed st start low count`: the window is `count` checkpoint intervals of consecutive
sequence numbers from `low` on, it ends below the two limits and at a whole interval from each, and
the cursors of the buckets point to what is next after `start`, where the epoch began.

* `EpochStep.formed`: every step of an active epoch keeps its window well formed;
* `Full`: the window reaches one of the limits, as it does after `advance`;
* `windowFailures`: the panics that a well-formed window excludes. `epochWalk` is the epoch as a
  transition system that excuses all others.
-/

import MirBft.Library.Walk
import MirBft.Proof.CommitMoves
import MirBft.Proof.EpochSteps

namespace MirBft

open List Function Nat

variable {low count start : Nat} {heard : NodeID → Msg → Prop} {st after : AeState} {actions : List Action}

/-! ### Intervals -/

/-- The sequence numbers of `count` intervals. -/
def blocks (low ci count : Nat) : List (List Nat) :=
  (List.range count).map fun index => (List.range ci).map (low + index * ci + ·)

theorem blocks_succ (low ci count : Nat) :
    blocks low ci (count + 1) = blocks low ci count ++ [(List.range ci).map (low + count * ci + ·)] := by
  rw [blocks, range_succ, map_append]
  rfl

theorem blocks_cons (low ci count : Nat) :
    blocks low ci (count + 1) = (List.range ci).map (low + ·) :: blocks (low + ci) ci count := by
  rw [blocks, range_succ_eq_map, map_cons, map_map, zero_mul]
  refine congrArg _ (map_congr_left fun index _ => ?_)
  rw [comp_apply, succ_mul, add_comm _ ci, add_assoc]

theorem blocks_drop (low ci count dropped : Nat) :
    (blocks low ci count).drop dropped = blocks (low + dropped * ci) ci (count - dropped) := by
  induction dropped generalizing low count with
  | zero => simp
  | succ dropped ih =>
    cases count with
    | zero => simp [blocks]
    | succ count => rw [blocks_cons, drop_succ_cons, ih, succ_sub_succ, succ_mul, add_assoc, add_comm ci]

theorem blocks_getElem? {ci index : Nat} (small : index < count) :
    (blocks low ci count)[index]? = some ((List.range ci).map (low + index * ci + ·)) := by
  rw [blocks, List.getElem?_map, List.getElem?_range small]
  rfl

theorem blocks_eq_nil {ci : Nat} : blocks low ci count = [] ↔ count = 0 := by simp [blocks]

theorem ActiveEpoch.lowWatermark_blocks {ae : ActiveEpoch} {low ci count lowest : Nat}
    (isBlocks : ae.sequences = blocks low ci count) (positive : 0 < ci) :
    ae.lowWatermark = .ok lowest ↔ 0 < count ∧ low = lowest := by
  unfold lowWatermark
  rw [isBlocks]
  cases count with
  | zero => exact iff_of_false nofun fun both => absurd both.1 (Nat.lt_irrefl 0)
  | succ rest =>
    obtain ⟨size, rfl⟩ := Nat.exists_eq_add_of_lt positive
    rw [blocks_cons, range_succ_eq_map]
    exact ⟨fun isLow => ⟨succ_pos _, Except.ok.inj isLow⟩, fun both => congrArg Except.ok both.2⟩

namespace AeState

/-! ### Windows -/

/-- There is no sequence, or nothing is allocated to it. -/
def Fresh (st : AeState) (seqNo : Nat) : Prop :=
  ∀ s, st.ae.heap seqNo = some s → s.state = .uninitialized

/-- **The window is well formed**: it has `count` intervals from `low` on. What had committed when
the epoch began, up to `start`, is not allocated again. -/
structure Formed (st : AeState) (start low count : Nat) : Prop where
  ci : 0 < st.ae.interval
  buckets : 0 < st.ae.bucketCount
  unallocated : st.ae.lowestUnallocated.length = st.ae.bucketCount
  buffers : st.ae.preprepareBuffers.length = st.ae.bucketCount
  sequences : st.ae.sequences = blocks low st.ae.interval count
  unextended : count = 0 → low = st.sh.commitState.lowWatermark + 1
  present : ∀ seqNo, low ≤ seqNo → seqNo < low + count * st.ae.interval →
    ∃ s, st.ae.heap seqNo = some s
  planned : ∃ more, st.ae.epochConfig.plannedExpiration + 1 =
    low + (count + more) * st.ae.interval
  stop : ∃ more, st.sh.commitState.stopAtSeqNo + 1 =
    low + (count + more) * st.ae.interval
  checkpoint : ∃ intervals, st.sh.commitState.lowWatermark + 1 =
    low + intervals * st.ae.interval
  commitState : st.sh.commitState.Sound
  interval : st.sh.commitState.checkpointInterval = st.ae.interval
  uncommitted : st.ae.lowestUncommitted = st.sh.commitState.highestCommit + 1
  inside : st.ae.lowestUncommitted ≤ st.ae.epochConfig.plannedExpiration + 1
  committed : ∀ seqNo, low ≤ seqNo → start < seqNo → seqNo < st.ae.lowestUncommitted → ¬ st.Fresh seqNo
  -- A bucket's next unallocated sequence number is its first fresh one.
  cursor : ∀ bucket next, st.ae.lowestUnallocated[bucket]? = some next → low ≤ next ∧ start < next ∧
    ∀ seqNo, low ≤ seqNo → start < seqNo → st.bucket seqNo = bucket → (next ≤ seqNo ↔ st.Fresh seqNo)
  foreign : ∀ (bucket next : Nat) (buffer : PreprepareBuffer), st.ae.lowestUnallocated[bucket]? = some next →
    st.ae.preprepareBuffers[bucket]? = some buffer → st.ae.owner bucket ≠ st.ae.myConfig.id →
    buffer.nextSeqNo = next
  entries : ∀ seqNo s qEntry, st.ae.heap seqNo = some s → s.qEntry = some qEntry → qEntry.seqNo = seqNo

namespace Formed

variable {heard : NodeID → Msg → Prop} {st : AeState} {start low count : Nat} {high : Nat}

/-! ### What the window says -/

section

variable (formed : st.Formed start low count)
include formed

theorem lowWatermark (some : 0 < count) :
    st.ae.lowWatermark = .ok low :=
  (ActiveEpoch.lowWatermark_blocks formed.sequences formed.ci).mpr ⟨some, rfl⟩

/-- An empty window has no low watermark. -/
theorem nonempty {lowest : Nat} (isLow : st.ae.lowWatermark = .ok lowest) :
    0 < count ∧ low = lowest :=
  (ActiveEpoch.lowWatermark_blocks formed.sequences formed.ci).mp isLow

theorem highWatermark :
    st.highWatermark = .ok (low + count * st.ae.interval - 1) := by
  unfold AeState.highWatermark
  rw [formed.sequences]
  cases count with
  | zero =>
    rw [formed.unextended rfl]
    simp [blocks]
    rfl
  | succ rest =>
    obtain ⟨size, isSize⟩ := Nat.exists_eq_add_of_lt formed.ci
    rw [blocks_succ, isSize]
    simp only [range_succ, map_append, map_singleton, List.getLast?_concat]
    rw [Nat.succ_mul]
    congr 1
    omega

theorem high_le (isHigh : st.highWatermark = .ok high) :
    high ≤ st.ae.epochConfig.plannedExpiration ∧ high ≤ st.sh.commitState.stopAtSeqNo := by
  rw [formed.highWatermark, Except.ok.injEq] at isHigh
  obtain ⟨_, isPlanned⟩ := formed.planned
  obtain ⟨_, isStop⟩ := formed.stop
  rw [add_mul] at isPlanned isStop
  omega

/-- **A sequence number of the window has its sequence.** -/
theorem sequence {seqNo : Nat} (above : low ≤ seqNo)
    (below : seqNo < low + count * st.ae.interval) :
    ∃ s, st.sequence seqNo = .ok s ∧ st.ae.heap seqNo = some s := by
  obtain ⟨s, found⟩ := formed.present seqNo above below
  refine ⟨s, ?_, found⟩
  have index : (seqNo - low) / st.ae.interval < count :=
    (div_lt_iff_lt_mul formed.ci).mpr (by omega)
  have offset := mod_lt (seqNo - low) formed.ci
  have isSeqNo : low + (seqNo - low) / st.ae.interval *
      st.ae.interval + (seqNo - low) % st.ae.interval = seqNo := by
    have := div_add_mod' (seqNo - low) st.ae.interval
    omega
  have isThere : ((List.range st.ae.interval).map
      (low + (seqNo - low) / st.ae.interval *
        st.ae.interval + ·))[(seqNo - low) %
          st.ae.interval]? = some seqNo := by
    rw [List.getElem?_map, List.getElem?_range offset, Option.map_some, isSeqNo]
  refine bind_eq_ok.mpr ⟨low, formed.lowWatermark (zero_lt_of_lt index), ?_⟩
  rw [if_neg formed.ci.ne', if_neg (not_lt.mpr above)]
  simp only [formed.sequences, blocks_getElem? index, isThere, ne_eq, found]
  rfl

theorem low_le_uncommitted : low ≤ st.ae.lowestUncommitted := by
  obtain ⟨intervals, isLow⟩ := formed.checkpoint
  have := formed.commitState.low
  have := formed.commitState.applied
  have := formed.uncommitted
  omega

/-- The cursors are as right as before if the same sequences are fresh. -/
theorem cursor_congr {fresh : Nat → Prop} (same : ∀ seqNo, fresh seqNo ↔ st.Fresh seqNo)
    (bucket next : Nat) (isNext : st.ae.lowestUnallocated[bucket]? = some next) : low ≤ next ∧ start < next ∧
      ∀ seqNo, low ≤ seqNo → start < seqNo → st.bucket seqNo = bucket → (next ≤ seqNo ↔ fresh seqNo) := by
  obtain ⟨above, later, isCursor⟩ := formed.cursor bucket next isNext
  refine ⟨above, later, fun seqNo isAbove isLater isBucket => ?_⟩
  exact (isCursor seqNo isAbove isLater isBucket).trans (same seqNo).symm

/-! ### Operations on sequences -/

end

section Operate

variable {agreements : RequestAck → Finset NodeID} {seqNo : Nat} {s next : Sequence} {op : SeqOp}
  {p p' : Persisted} {actions : List Action}

theorem fresh_withSequence (found : st.ae.heap seqNo = some s) (foreign : op.Foreign s)
    (ran : op.run agreements s p = .ok ((next, p'), actions)) (other : Nat) :
    (st.withSequence seqNo next p').Fresh other ↔ st.Fresh other ∧ (other = seqNo → op.batch? = none) := by
  unfold Fresh withSequence
  by_cases same : other = seqNo
  · subst same
    simp only [update_self, Option.some.injEq, forall_eq', found, true_implies]
    exact SeqOp.run_fresh_iff foreign ran
  · simp only [update_of_ne same, same, false_implies, and_true]

variable (formed : st.Formed start low count)
include formed

theorem present_update (next : Sequence) (other : Nat) (above : low ≤ other)
    (below : other < low + count * st.ae.interval) :
    ∃ s, update st.ae.heap seqNo (some next) other = some s := by
  by_cases same : other = seqNo
  · exact ⟨next, by rw [same, update_self]⟩
  · rw [update_of_ne same]
    exact formed.present other above below

theorem entries_update (aligned : Aligned heard st.ae)
    (found : st.ae.heap seqNo = some s) (foreign : op.Foreign s)
    (ran : op.run agreements s p = .ok ((next, p'), actions)) (other : Nat) (s' : Sequence) (qEntry : QEntry)
    (isOther : update st.ae.heap seqNo (some next) other = some s') (isEntry : s'.qEntry = some qEntry) :
    qEntry.seqNo = other := by
  rcases heap_update isOther with ⟨rfl, rfl⟩ | ⟨_, isOther⟩
  · rcases SeqOp.run_entry foreign ran isEntry with earlier | isSeqNo
    · exact formed.entries other s qEntry found earlier
    · exact isSeqNo.trans (aligned.identity other s found).1
  · exact formed.entries other s' qEntry isOther isEntry

/-- **An operation that allocates nothing** keeps the window. -/
theorem operate (aligned : Aligned heard st.ae) (found : st.ae.heap seqNo = some s)
    (foreign : op.Foreign s) (unallocated : op.batch? = none)
    (ran : op.run agreements s p = .ok ((next, p'), actions)) :
    (st.withSequence seqNo next p').Formed start low count := by
  have fresh (other : Nat) : (st.withSequence seqNo next p').Fresh other ↔ st.Fresh other := by
    rw [fresh_withSequence found foreign ran]
    simp [unallocated]
  exact { formed with
    present := formed.present_update next
    committed := fun other above later below => (fresh other).not.mpr
      (formed.committed other above later below)
    cursor := formed.cursor_congr fresh
    entries := formed.entries_update aligned found foreign ran }

/-- **An allocation** passes the bucket's cursor. The buffers may move with it. -/
theorem allocate (aligned : Aligned heard st.ae) {batch : List RequestAck}
    {outstandingReqs : AllOutstandingReqs} {buffers : List PreprepareBuffer}
    (found : st.ae.heap seqNo = some s)
    (foreign : op.Foreign s) (allocates : op.batch? = some batch)
    (ran : op.run agreements s p = .ok ((next, p'), actions))
    (isNext : st.ae.lowestUnallocated[st.bucket seqNo]? = some seqNo)
    (length : buffers.length = st.ae.preprepareBuffers.length)
    (moved : ∀ (bucket : Nat) (buffer : PreprepareBuffer), buffers[bucket]? = some buffer →
      st.ae.owner bucket ≠ st.ae.myConfig.id → ∃ before : PreprepareBuffer,
        st.ae.preprepareBuffers[bucket]? = some before ∧ buffer.nextSeqNo =
          if st.bucket seqNo = bucket then before.nextSeqNo + st.ae.buckets.length else before.nextSeqNo) :
    Formed ⟨{ st.ae with
        heap := update st.ae.heap seqNo (some next), outstandingReqs, preprepareBuffers := buffers
        lowestUnallocated := st.ae.lowestUnallocated.modify (st.bucket seqNo) (· + st.ae.buckets.length) },
      { st.sh with persisted := p' }⟩ start low count := by
  have fresh (other : Nat) : (st.withSequence seqNo next p').Fresh other ↔ st.Fresh other ∧
    other ≠ seqNo := by
    rw [fresh_withSequence found foreign ran]
    simp [allocates]
  have cursors {bucket first : Nat}
      (isFirst : (st.ae.lowestUnallocated.modify (st.bucket seqNo)
      (· + st.ae.buckets.length))[bucket]? = some first) :
      st.bucket seqNo = bucket ∧ first = seqNo + st.ae.buckets.length ∨
        st.bucket seqNo ≠ bucket ∧ st.ae.lowestUnallocated[bucket]? = some first := by
    rw [List.getElem?_modify] at isFirst
    by_cases same : st.bucket seqNo = bucket
    · subst same
      rw [isNext] at isFirst
      simp only [Option.map_eq_map, Option.map_some, Option.some.injEq] at isFirst
      exact .inl ⟨rfl, isFirst.symm⟩
    · simp only [if_neg same, Option.map_eq_map, Option.map_id'] at isFirst
      exact .inr ⟨same, isFirst⟩
  refine { formed with
    unallocated := by rw [length_modify]; exact formed.unallocated
    buffers := length.trans formed.buffers
    present := formed.present_update next
    committed := fun other above later below isFresh =>
      formed.committed other above later below ((fresh other).mp isFresh).1
    cursor := fun bucket first isFirst => ?_
    foreign := fun bucket first buffer isFirst isBuffer notMine => ?_
    entries := formed.entries_update aligned found foreign ran }
  · obtain ⟨atLeast, isLater, isCursor⟩ := formed.cursor _ _ isNext
    rcases cursors isFirst with ⟨rfl, rfl⟩ | ⟨differs, isFirst⟩
    · refine ⟨atLeast.trans (Nat.le_add_right _ _), Nat.lt_add_right _ isLater,
        fun other above later isBucket => ?_⟩
      refine Iff.trans ?_ (fresh other).symm
      rw [← isCursor other above later isBucket]
      constructor
      · intro past
        have := aligned.bucketCount
        have := formed.buckets
        exact ⟨by omega, by omega⟩
      · rintro ⟨atMost, ne⟩
        -- Two sequence numbers of a bucket are a round of the buckets apart.
        have round : st.ae.buckets.length ∣ other - seqNo := by
          rw [aligned.bucketCount]
          exact dvd_of_mod_eq_zero (sub_mod_eq_zero_of_mod_eq isBucket)
        have := le_of_dvd (by omega) round
        omega
    · obtain ⟨otherLeast, otherLater, otherCursor⟩ := formed.cursor bucket first isFirst
      refine ⟨otherLeast, otherLater, fun other above later isBucket => ?_⟩
      refine (otherCursor other above later isBucket).trans (Iff.trans ?_ (fresh other).symm)
      refine (and_iff_left ?_).symm
      rintro rfl
      exact differs isBucket
  · obtain ⟨before, isBefore, isMoved⟩ := moved bucket buffer isBuffer notMine
    rcases cursors isFirst with ⟨rfl, rfl⟩ | ⟨differs, isFirst⟩
    · rw [isMoved, if_pos rfl, formed.foreign _ _ before isNext isBefore notMine]
    · rw [isMoved, if_neg differs, formed.foreign bucket first before isFirst isBefore notMine]

end Operate

variable (formed : st.Formed start low count)
include formed

/-- Buffers that have not moved, but for those of this node's own buckets. -/
theorem rebuffer {buffers : List PreprepareBuffer}
    (length : buffers.length = st.ae.preprepareBuffers.length)
    (same : ∀ (bucket : Nat) (buffer : PreprepareBuffer), buffers[bucket]? = some buffer →
      st.ae.owner bucket ≠ st.ae.myConfig.id → ∃ before : PreprepareBuffer,
        st.ae.preprepareBuffers[bucket]? = some before ∧ buffer.nextSeqNo = before.nextSeqNo) :
    Formed ⟨{ st.ae with preprepareBuffers := buffers }, st.sh⟩ start low count := by
  refine { formed with
    buffers := length.trans formed.buffers
    foreign := fun bucket first buffer isFirst isBuffer notMine => ?_ }
  obtain ⟨before, isBefore, isSame⟩ := same bucket buffer isBuffer notMine
  exact isSame.trans (formed.foreign bucket first before isFirst isBefore notMine)

theorem commit {s : Sequence} {qEntry : QEntry} {commitState : CommitState}
    {passed : List QEntry} (isHigh : st.highWatermark = .ok high) (inWindow : st.ae.lowestUncommitted ≤ high)
    (found : st.ae.heap st.ae.lowestUncommitted = some s) (isCommitted : s.state = .committed)
    (isEntry : s.qEntry = some qEntry) (committed : st.sh.commitState.commit qEntry = .ok commitState) :
    Formed ⟨{ st.ae with lowestUncommitted := st.ae.lowestUncommitted + 1 },
      { st.sh with commitState, passed }⟩ start low count := by
  have isNext := (formed.entries _ s qEntry found isEntry).trans formed.uncommitted
  have sound := formed.commitState
  obtain ⟨_, ⟨below, _⟩ | ⟨_, lower, upper, rfl, _⟩⟩ := CommitState.commit_cases committed
  · have := sound.low
    have := sound.applied
    omega
  have inside : st.ae.lowestUncommitted + 1 ≤ st.ae.epochConfig.plannedExpiration + 1 :=
    succ_le_succ (inWindow.trans (formed.high_le isHigh).1)
  refine { formed with
    commitState := sound.commit committed
    uncommitted := ?_
    inside := inside
    committed := fun seqNo above later below => ?_ }
  · rw [formed.uncommitted, isNext, Nat.max_eq_right (Nat.le_succ _)]
  · rcases Nat.lt_succ_iff_lt_or_eq.mp below with earlier | rfl
    · exact formed.committed seqNo above later earlier
    · intro fresh
      have := fresh s found
      rw [isCommitted] at this
      cases this

theorem extend (aligned : Aligned heard st.ae) {p : Persisted}
    {heap : Nat → Option Sequence} (isHigh : st.highWatermark = .ok high)
    (unplanned : high < st.ae.epochConfig.plannedExpiration) (going : high < st.sh.commitState.stopAtSeqNo)
    (isHeap : ∀ seqNo, heap seqNo = if high < seqNo ∧ seqNo ≤ high + st.ae.interval then
      some (newSequence (st.ae.owner (st.bucket seqNo)) st.ae.epochConfig.number seqNo st.ae.networkConfig
        st.ae.myConfig) else st.ae.heap seqNo) :
    Formed ⟨{ st.ae with
        sequences := st.ae.sequences ++ [(List.range st.ae.interval).map (high + 1 + ·)]
        heap }, { st.sh with persisted := p }⟩ start low (count + 1) := by
  have isAbove := aligned.bounded st.sh high isHigh
  rw [formed.highWatermark, Except.ok.injEq] at isHigh
  have positive : 0 < low + count * st.ae.interval := by
    rcases Nat.eq_zero_or_pos count with rfl | some
    · rw [formed.unextended rfl]
      omega
    · exact Nat.add_pos_right _ (Nat.mul_pos some formed.ci)
  have size : (count + 1) * st.ae.interval =
      count * st.ae.interval + st.ae.interval := succ_mul _ _
  have further {limit : Nat} (beyond : high < limit)
      (aligned : ∃ more, limit + 1 = low + (count + more) * st.ae.interval) :
      ∃ more, limit + 1 = low + (count + 1 + more) * st.ae.interval := by
    obtain ⟨more, isLimit⟩ := aligned
    cases more with
    | zero =>
      rw [add_zero count] at isLimit
      omega
    | succ more => exact ⟨more, by rw [isLimit, add_assoc count 1, add_comm 1]⟩
  have fresh (seqNo : Nat) :
      (∀ s, heap seqNo = some s → s.state = .uninitialized) ↔ st.Fresh seqNo := by
    rw [isHeap]
    split
    · rename_i isNew
      refine iff_of_true ?_ fun s found => ?_
      · rintro s ⟨⟩
        rfl
      · rw [isAbove seqNo isNew.1] at found
        cases found
    · exact Iff.rfl
  refine { formed with
    sequences := ?_
    unextended := nofun
    present := fun seqNo above below => ?_
    planned := further unplanned formed.planned
    stop := further going formed.stop
    committed := fun seqNo above later below => (fresh seqNo).not.mpr
      (formed.committed seqNo above later below)
    cursor := formed.cursor_congr fresh
    entries := fun seqNo s qEntry found isEntry => ?_ }
  · rw [formed.sequences, blocks_succ, ← isHigh, Nat.sub_add_cancel positive]
  · show ∃ s, heap seqNo = some s
    change seqNo < low + (count + 1) * st.ae.interval at below
    rw [isHeap]
    split
    · exact ⟨_, rfl⟩
    · exact formed.present seqNo above (by omega)
  · change heap seqNo = some s at found
    rw [isHeap] at found
    split at found
    · cases found
      cases isEntry
    · exact formed.entries seqNo s qEntry found isEntry

/-- **Intervals leave the window**, up to the last checkpoint. -/
theorem drop (aligned : Aligned heard st.ae) {dropped : Nat} (few : dropped < count)
    (reached : low + dropped * st.ae.interval ≤ st.sh.commitState.lowWatermark + 1) :
    Formed ⟨{ st.ae with sequences := st.ae.sequences.drop dropped }, st.sh⟩ start
      (low + dropped * st.ae.interval) (count - dropped) := by
  have further {limit more : Nat}
      (isLimit : limit + 1 = low + (count + more) * st.ae.interval) :
      limit + 1 = low + dropped * st.ae.interval +
        (count - dropped + more) * st.ae.interval := by
    rw [isLimit, add_assoc, ← add_mul]
    congr 2
    omega
  have size : low + dropped * st.ae.interval +
      (count - dropped) * st.ae.interval =
        low + count * st.ae.interval := by
    rw [Nat.add_assoc, ← Nat.add_mul, Nat.add_sub_cancel' few.le]
  have above {seqNo : Nat} (isAbove : low + dropped * st.ae.interval ≤ seqNo) : low ≤ seqNo :=
    (le_add_right _ _).trans isAbove
  have committed := formed.commitState.low.trans formed.commitState.applied
  have isNext := formed.uncommitted
  refine { formed with
    sequences := ?_
    unextended := fun none => absurd none (sub_ne_zero_of_lt few)
    present := fun seqNo isAbove below => formed.present seqNo (above isAbove) (below.trans_eq size)
    planned := formed.planned.imp fun _ => further
    stop := formed.stop.imp fun _ => further
    checkpoint := ?_
    committed := fun seqNo isAbove => formed.committed seqNo (above isAbove)
    cursor := fun bucket next isFirst => ?_ }
  · rw [formed.sequences, blocks_drop]
  · obtain ⟨intervals, isLow⟩ := formed.checkpoint
    refine ⟨intervals - dropped, isLow.trans ?_⟩
    have enough : dropped ≤ intervals := by
      refine le_of_mul_le_mul_right ?_ formed.ci
      omega
    rw [Nat.add_assoc, ← Nat.add_mul, Nat.add_sub_cancel' enough]
  · obtain ⟨isAbove, later, isCursor⟩ := formed.cursor bucket next isFirst
    refine ⟨?_, later, fun seqNo isAbove => isCursor seqNo (above isAbove)⟩
    -- What leaves the window has committed, so its bucket's cursor has passed it.
    refine Nat.le_of_not_lt fun below => formed.committed next isAbove later (by omega) ?_
    exact (isCursor next isAbove later (aligned.unallocated bucket next isFirst)).mp (le_refl _)

end Formed

end AeState

/-- **Every step keeps the window well formed**, and its low end. -/
theorem EpochStep.formed (aligned : Aligned heard st.ae) (formed : st.Formed start low count)
    (step : EpochStep heard st after actions) : ∃ wider, count ≤ wider ∧ after.Formed start low wider := by
  have unmoved {bucket : Nat} {change : PreprepareBuffer → PreprepareBuffer}
      (other : Nat) (buffer : PreprepareBuffer)
      (isBuffer : (st.ae.preprepareBuffers.modify bucket change)[other]? = some buffer) :
      ∃ before, st.ae.preprepareBuffers[other]? = some before ∧
        buffer = if bucket = other then change before else before := by
    rw [List.getElem?_modify] at isBuffer
    obtain ⟨before, isBefore, isChanged⟩ := Option.map_eq_some_iff.mp isBuffer
    refine ⟨before, isBefore, ?_⟩
    rw [← isChanged]
  cases step with
  | prepare found foreign _ ran =>
    refine ⟨count, le_refl _, formed.operate aligned found ?_ rfl ran⟩
    rintro _ _ ⟨⟩
    exact foreign
  | vote found _ ran => exact ⟨count, le_refl _, formed.operate aligned found
      (by simp [SeqOp.Foreign]) rfl ran⟩
  | back _ found mine _ _ _ ran =>
    have operated := formed.operate aligned found (by simp [SeqOp.Foreign]) rfl ran
    refine ⟨count, le_refl _, operated.rebuffer (length_modify _ _ _)
      fun bucket buffer isBuffer notMine => ?_⟩
    obtain ⟨before, isBefore, rfl⟩ := unmoved bucket buffer isBuffer
    refine ⟨before, isBefore, ?_⟩
    rw [if_neg]
    rintro rfl
    exact notMine ((aligned.identity _ _ found).2.1.symm.trans mine)
  | follow found _ _ isNext _ _ _ ran =>
    refine ⟨count, le_refl _, formed.allocate aligned found (by simp [SeqOp.Foreign]) rfl ran isNext
      (length_modify _ _ _) fun bucket buffer isBuffer _ => ?_⟩
    obtain ⟨before, isBefore, rfl⟩ := unmoved bucket buffer isBuffer
    refine ⟨before, isBefore, ?_⟩
    split <;> rfl
  | propose found mine isNext ran =>
    refine ⟨count, le_refl _, formed.allocate aligned found (by simp [SeqOp.Foreign]) rfl ran isNext rfl
      fun bucket buffer isBuffer notMine => ⟨buffer, isBuffer, ?_⟩⟩
    rw [if_neg]
    rintro rfl
    exact notMine ((aligned.identity _ _ found).2.1.symm.trans mine)
  | commit isHigh inWindow found isCommitted isEntry committed =>
    exact ⟨count, le_refl _, formed.commit isHigh inWindow found isCommitted isEntry committed⟩
  | extend isHigh unplanned going _ isHeap =>
    exact ⟨count + 1, le_succ _, formed.extend aligned isHigh unplanned going isHeap⟩
  | @rebuffer bucket before buffer found _ _ =>
    refine ⟨count, le_refl _, formed.rebuffer length_set fun other found' isFound _ => ?_⟩
    by_cases same : bucket = other
    · subst same
      rw [List.getElem?_set_self', found] at isFound
      obtain rfl := Option.some.inj isFound
      exact ⟨before, found, rfl⟩
    · rw [List.getElem?_set_ne same] at isFound
      exact ⟨found', isFound, rfl⟩
  | rebufferOther | keep | suspect => exact ⟨count, le_refl _, { formed with }⟩

theorem EpochStep.formed_steps (aligned : Aligned heard st.ae) (formed : st.Formed start low count)
    (steps : Steps (EpochStep heard) st after actions) :
    ∃ wider, count ≤ wider ∧ after.Formed start low wider := by
  induction steps generalizing count with
  | refl => exact ⟨count, le_refl _, formed⟩
  | cons step _ ih =>
    obtain ⟨wider, atLeast, stillFormed⟩ := step.formed aligned formed
    obtain ⟨widest, further, atLast⟩ := ih (step.aligned aligned) stillFormed
    exact ⟨widest, atLeast.trans further, atLast⟩

theorem EpochStep.limits (steps : Steps (EpochStep heard) st after actions) : st.ae.Frame after.ae ∧
      after.sh.commitState.lowWatermark = st.sh.commitState.lowWatermark ∧
      after.sh.commitState.stopAtSeqNo = st.sh.commitState.stopAtSeqNo := by
  induction steps with
  | refl => exact ⟨.refl _, rfl, rfl⟩
  | cons step _ ih =>
    obtain ⟨frame, low, stop⟩ := ih
    refine ⟨(EpochStep.frame step).trans frame, low.trans ?_, stop.trans ?_⟩ <;> cases step with
    | commit _ _ _ _ _ committed =>
      obtain ⟨_, _, _, rfl⟩ := CommitState.commit_frame committed
      rfl
    | _ => rfl

/-! ### Full windows -/

/-- The window reaches one of its limits. -/
def AeState.Full (st : AeState) : Prop :=
  ∀ high, st.highWatermark = .ok high →
    ¬ (high < st.ae.epochConfig.plannedExpiration ∧ high < st.sh.commitState.stopAtSeqNo)

theorem EpochStep.full (full : st.Full) (step : EpochStep heard st after actions) : after.Full := by
  cases step with
  | extend isHigh unplanned going _ _ => exact absurd ⟨unplanned, going⟩ (full _ isHigh)
  | commit _ _ _ _ _ committed =>
    obtain ⟨_, _, _, rfl⟩ := CommitState.commit_frame committed
    exact full
  | _ => exact full

theorem EpochStep.sequences_full (full : st.Full) (steps : Steps (EpochStep heard) st after actions) :
    after.ae.sequences = st.ae.sequences := by
  induction steps with
  | refl => rfl
  | cons step _ ih =>
    refine (ih (EpochStep.full full step)).trans ?_
    cases step with
    | extend isHigh unplanned going _ _ => exact absurd ⟨unplanned, going⟩ (full _ isHigh)
    | _ => rfl

/-- **A full window ends at the lower of its limits.** -/
theorem AeState.Formed.high_eq_min (formed : st.Formed start low count) (full : st.Full) :
    st.highWatermark = .ok (min st.ae.epochConfig.plannedExpiration st.sh.commitState.stopAtSeqNo) := by
  have reached := full _ formed.highWatermark
  rw [formed.highWatermark, Except.ok.injEq]
  obtain ⟨unplanned, isPlanned⟩ := formed.planned
  obtain ⟨going, isStop⟩ := formed.stop
  rw [add_mul] at isPlanned isStop
  omega

/-! ### The panics of the window -/

/-- The panics of the bounds, the watermarks and the cursors of an active epoch. -/
def windowFailures : List String :=
  ["integer divide by zero: no buckets", "integer divide by zero: checkpoint interval",
    "index out of range: sequences", "index out of range: interval", "index out of range: preprepareBuffers",
    "index out of range: lowestUnallocated", "dev error: sequence below the low watermark",
    "dev error: sequence above the high watermark", "sequence retrieved had different seq_no than expected",
    "nil pointer dereference: sequence",
    "high watermark should never extend beyond the planned epoch expiration",
    "high watermark should never extend beyond the stop at sequence", "commit sequence exceeds stop sequence",
    "next commit should always be exactly one greater than the highest",
    "step should defer all but the next expected preprepare", "must be uninitialized to allocate"]

/-- **What an epoch may fail with**: none of these panics, but that a window with too few intervals,
which is empty, has no low watermark. -/
def AeState.Excuses (least : Nat) (st : AeState) (failure : String) : Prop :=
  ∀ start low count, st.Formed start low count → failure ∈ windowFailures →
    count < least ∧ failure = "index out of range: sequences"

/-- **An active epoch** as a transition system. -/
def epochWalk (heard : NodeID → Msg → Prop) (least : Nat) : Walk String Action AeState where
  step := EpochStep heard
  good st := Aligned heard st.ae
  excused := AeState.Excuses least
  good_step aligned step := step.aligned aligned
  excused_step aligned step excused start low count formed member := by
    obtain ⟨wider, atLeast, stillFormed⟩ := step.formed aligned formed
    obtain ⟨few, isLow⟩ := excused start low wider stillFormed member
    exact ⟨atLeast.trans_lt few, isLow⟩

end MirBft
