/-
**Client states and restarts.**

`createCheckpointState` records which requests of a client's window have committed, and goes on with
a slice that is cut at the new low watermark and extended. `newCommittingClient` rebuilds the client
from what was recorded, with a slice of the client's width. What a client does depends on its last
state, on the length of its slice and on which entries are set, never on the sequence numbers in it
(`Alike`).

* `createCheckpointState_recorded`: the recorded mask has exactly the entries that are set.
* `rebuilt_agrees_iff`: a client that went through any history up to a checkpoint and the one
  rebuilt from that checkpoint's record agree on every later history, panics included, if and only
  if the slice of the first one is as long as its width.

Each checkpoint that consumes `c` of the width changes the length by `width - 2c`, and one at which
all of the slice has committed leaves nothing.
-/

import MirBft.Proof.Delivery

namespace MirBft

open List

/-! ### Bits of a mask -/

theorem isBitSet_eq (mask : Bytes) (bit : Nat) :
    isBitSet mask bit = (mask[bit / 8]?.any fun byte => byte &&& bitOf (bit % 8) != 0) := by
  unfold isBitSet
  cases mask[bit / 8]? with
  | none => rfl
  | some byte =>
    simp only [bitOf]
    split <;> rfl

theorem bitOf_and {first second : Nat} (isFirst : first < 8) (isSecond : second < 8) :
    (bitOf first &&& bitOf second != 0) = decide (second = first) := by
  have all : ∀ first < 8, ∀ second < 8,
      (bitOf first &&& bitOf second != 0) = decide (second = first) := by decide
  exact all first isFirst second isSecond

theorem or_and_ne_zero (byte added tested : UInt8) :
    ((byte ||| added) &&& tested != 0) = (byte &&& tested != 0 || added &&& tested != 0) := by
  have split : (byte ||| added) &&& tested = (byte &&& tested) ||| (added &&& tested) :=
    UInt8.toBitVec_inj.mp (by simp [BitVec.and_or_distrib_right])
  rw [split, Bool.eq_iff_iff]
  simp only [bne_iff_ne, Bool.or_eq_true, ne_eq, UInt8.or_eq_zero_iff]
  tauto

variable {mask : Bytes} {bit : Nat}

/-- **`setBit` inside the mask** adds that bit. -/
theorem setBit_spec (inside : bit < 8 * mask.length) :
    ∃ after, setBit mask bit = .ok after ∧ after.length = mask.length ∧
      ∀ other, isBitSet after other = (isBitSet mask other || decide (other = bit)) := by
  have index : bit / 8 < mask.length := by omega
  refine ⟨mask.set (bit / 8) (mask[bit / 8] ||| bitOf (bit % 8)), ?_, length_set, ?_⟩
  · rw [setBit, List.getElem?_eq_getElem index]
    rfl
  · intro other
    rw [isBitSet_eq, isBitSet_eq, List.getElem?_set]
    by_cases sameByte : bit / 8 = other / 8
    · rw [if_pos sameByte, if_pos (by simpa using index), ← sameByte, List.getElem?_eq_getElem index,
        Option.any_some, or_and_ne_zero,
        bitOf_and (Nat.mod_lt _ (by decide)) (Nat.mod_lt _ (by decide))]
      congr 1
      rw [decide_eq_decide]
      omega
    · rw [if_neg sameByte, decide_eq_false (by rintro rfl; exact sameByte rfl), Bool.or_false]

theorem isBitSet_of_le (outside : 8 * mask.length ≤ bit) : isBitSet mask bit = false := by
  rw [isBitSet_eq, List.getElem?_eq_none (by omega)]
  rfl

theorem isBitSet_zeros (length bit : Nat) : isBitSet (List.replicate length 0) bit = false := by
  rw [isBitSet_eq, List.getElem?_replicate]
  split
  · simp
  · rfl

/-! ### Which entries are set -/

/-- The entry at an offset of the slice is set. -/
def isMarked (committed : List (Option Nat)) (offset : Nat) : Bool := committed[offset]?.join.isSome

namespace isMarked

variable {committed : List (Option Nat)}

theorem lt_length {offset : Nat}
    (marked : isMarked committed offset = true) : offset < committed.length := by
  by_contra outside
  rw [isMarked, List.getElem?_eq_none (by omega)] at marked
  cases marked

theorem append_blank (committed : List (Option Nat)) (count offset : Nat) :
    isMarked (committed ++ List.replicate count none) offset = isMarked committed offset := by
  unfold isMarked
  by_cases inside : offset < committed.length
  · rw [List.getElem?_append_left inside]
  · rw [List.getElem?_append_right (by omega), List.getElem?_eq_none (Nat.le_of_not_lt inside),
      List.getElem?_replicate]
    split <;> rfl

theorem drop (committed : List (Option Nat)) (count offset : Nat) :
    isMarked (committed.drop count) offset = isMarked committed (count + offset) := by
  rw [isMarked, List.getElem?_drop, isMarked]

theorem set {index : Nat} (inside : index < committed.length) (seqNo offset : Nat) :
    isMarked (committed.set index (some seqNo)) offset =
      (isMarked committed offset || decide (offset = index)) := by
  unfold isMarked
  rw [List.getElem?_set]
  by_cases same : index = offset
  · rw [if_pos same, if_pos inside, decide_eq_true same.symm, Bool.or_true]
    rfl
  · rw [if_neg same, decide_eq_false (Ne.symm same), Bool.or_false]

theorem replicate (count offset : Nat) : isMarked (List.replicate count none) offset = false := by
  have blank := append_blank [] count offset
  rwa [nil_append] at blank

theorem cons_zero (seqNo : Option Nat) (rest : List (Option Nat)) :
    isMarked (seqNo :: rest) 0 = seqNo.isSome := by
  rw [isMarked, List.getElem?_cons_zero, Option.join_some]

theorem cons_succ (seqNo : Option Nat) (rest : List (Option Nat)) (offset : Nat) :
    isMarked (seqNo :: rest) (offset + 1) = isMarked rest offset := by
  rw [isMarked, List.getElem?_cons_succ, isMarked]

end isMarked

/-- Two slices of one length with the same entries set. -/
structure SameMarks (first second : List (Option Nat)) : Prop where
  length : first.length = second.length
  marks : ∀ offset, isMarked first offset = isMarked second offset

namespace SameMarks

variable {first second : List (Option Nat)}

theorem symm (same : SameMarks first second) : SameMarks second first :=
  ⟨same.length.symm, fun offset => (same.marks offset).symm⟩

theorem tail {a b : Option Nat} (same : SameMarks (a :: first) (b :: second)) :
    a.isSome = b.isSome ∧ SameMarks first second := by
  refine ⟨?_, Nat.succ.inj same.length, fun offset => ?_⟩
  · have head := same.marks 0
    rwa [isMarked.cons_zero] at head
  · have next := same.marks (offset + 1)
    rwa [isMarked.cons_succ] at next

theorem set (same : SameMarks first second) {index : Nat} (inside : index < first.length)
    (seqNo other : Nat) : SameMarks (first.set index (some seqNo)) (second.set index (some other)) where
  length := by rw [length_set, length_set, same.length]
  marks offset := by
    rw [isMarked.set inside, isMarked.set (by rwa [← same.length]), same.marks]

theorem extend (same : SameMarks first second) (cut count : Nat) :
    SameMarks (first.drop cut ++ List.replicate count none)
      (second.drop cut ++ List.replicate count none) where
  length := by simp [same.length]
  marks offset := by
    rw [isMarked.append_blank, isMarked.append_blank, isMarked.drop, isMarked.drop, same.marks]

end SameMarks

namespace CommittingClient

variable {committed : List (Option Nat)} {reqNo : Nat} {state : ClientState} {states : List ClientState}
  {found : Nat} {first second : List (Option Nat)}

/-! ### The scan of a slice -/

/-- The first uncommitted request has a slot that is not set, and all slots before it are set. -/
theorem scan_first (isFirst : (scan reqNo committed).1 = some found) :
    ∃ offset, found = reqNo + offset ∧ offset < committed.length ∧ isMarked committed offset = false ∧
      ∀ before < offset, isMarked committed before = true := by
  induction committed generalizing reqNo with
  | nil => cases isFirst
  | cons seqNo rest ih =>
    cases seqNo with
    | none =>
      have isThis : reqNo = found := Option.some.inj isFirst
      exact ⟨0, isThis.symm, Nat.succ_pos _, rfl, fun before less => absurd less (Nat.not_lt_zero _)⟩
    | some value =>
      obtain ⟨offset, isFound, inside, unmarked, marked⟩ := @ih (reqNo + 1) isFirst
      refine ⟨offset + 1, by omega, Nat.succ_lt_succ inside, ?_, ?_⟩
      · rw [isMarked.cons_succ, unmarked]
      · intro before less
        cases before with
        | zero => rfl
        | succ before =>
          exact marked before (by omega)

theorem scan_no_first (noFirst : (scan reqNo committed).1 = none) :
    ∀ offset < committed.length, isMarked committed offset = true := by
  induction committed generalizing reqNo with
  | nil => exact fun offset inside => absurd inside (Nat.not_lt_zero _)
  | cons seqNo rest ih =>
    cases seqNo with
    | none => cases noFirst
    | some value =>
      intro offset inside
      cases offset with
      | zero => rfl
      | succ offset =>
        exact @ih (reqNo + 1) noFirst offset (Nat.lt_of_succ_lt_succ inside)

theorem scan_cons (reqNo : Nat) (seqNo : Option Nat) (rest : List (Option Nat)) :
    scan reqNo (seqNo :: rest) =
      if seqNo.isSome then
        ((scan (reqNo + 1) rest).1, (scan (reqNo + 1) rest).2.orElse fun _ => some reqNo)
      else (some reqNo, (scan (reqNo + 1) rest).2) := rfl

theorem scan_no_last (noLast : (scan reqNo committed).2 = none) :
    ∀ offset, isMarked committed offset = false := by
  induction committed generalizing reqNo with
  | nil => exact fun offset => rfl
  | cons seqNo rest ih =>
    rw [scan_cons] at noLast
    cases seqNo with
    | some value =>
      cases isRest : (scan (reqNo + 1) rest).2 with
      | none => simp [isRest] at noLast
      | some later => simp [isRest] at noLast
    | none =>
      intro offset
      cases offset with
      | zero => rfl
      | succ offset => rw [isMarked.cons_succ, ih noLast]

/-- The last committed request has a slot that is set, and none after it is. -/
theorem scan_last (isLast : (scan reqNo committed).2 = some found) :
    ∃ offset, found = reqNo + offset ∧ isMarked committed offset = true ∧
      ∀ after, isMarked committed after = true → after ≤ offset := by
  induction committed generalizing reqNo found with
  | nil => cases isLast
  | cons seqNo rest ih =>
    rw [scan_cons] at isLast
    cases isRest : (scan (reqNo + 1) rest).2 with
    | some later =>
      have same : later = found := by
        cases seqNo with
        | none => simpa [isRest] using isLast
        | some value => simpa [isRest] using isLast
      obtain ⟨offset, isFound, marked, greatest⟩ := ih isRest
      refine ⟨offset + 1, by omega, by rw [isMarked.cons_succ, marked], fun after isAfter => ?_⟩
      cases after with
      | zero => exact Nat.zero_le _
      | succ after =>
        exact Nat.succ_le_succ (greatest after isAfter)
    | none =>
      cases seqNo with
      | none => simp [isRest] at isLast
      | some value =>
        have same : reqNo = found := by simpa [isRest] using isLast
        refine ⟨0, same.symm, rfl, fun after isAfter => ?_⟩
        cases after with
        | zero => exact Nat.zero_le _
        | succ after =>
          rw [isMarked.cons_succ, scan_no_last isRest] at isAfter
          cases isAfter

theorem scan_congr (same : SameMarks first second) (reqNo : Nat) :
    scan reqNo first = scan reqNo second := by
  induction first generalizing second reqNo with
  | nil =>
    cases eq_nil_of_length_eq_zero same.length.symm
    rfl
  | cons a rest ih =>
    cases second with
    | nil => cases same.length
    | cons b others =>
      obtain ⟨head, tails⟩ := same.tail
      rw [scan_cons, scan_cons, head, ih tails]

/-! ### The recorded mask -/

/-- **The loop that fills the mask** sets the bits of the set entries among those it goes over. It
does not fail when these lie inside the slice and the mask, and the first entry is not set. -/
theorem fillMask_spec {mask : Bytes} {bits : List Nat} (firstUnset : isMarked committed 0 = false)
    (inside : ∀ bit ∈ bits, bit < committed.length ∧ bit < 8 * mask.length) :
    ∃ after, fillMask committed mask bits = .ok after ∧
      ∀ offset, isBitSet after offset =
        (isBitSet mask offset || (decide (offset ∈ bits) && isMarked committed offset)) := by
  induction bits generalizing mask with
  | nil => exact ⟨mask, rfl, by simp⟩
  | cons bit rest ih =>
    obtain ⟨⟨inSlice, inMask⟩, others⟩ := forall_mem_cons.mp inside
    have entry : committed[bit]? = some committed[bit] := List.getElem?_eq_getElem inSlice
    have isThis : isMarked committed bit = committed[bit].isSome := by rw [isMarked, entry, Option.join_some]
    unfold fillMask
    rw [entry]
    cases value : committed[bit] with
    | none =>
      obtain ⟨after, isAfter, bitsAfter⟩ := ih others
      refine ⟨after, isAfter, fun offset => ?_⟩
      rw [bitsAfter]
      by_cases same : offset = bit
      · simp [same, isThis, value]
      · simp [same]
    | some seqNo =>
      have notFirst : bit ≠ 0 := by
        rintro rfl
        rw [isThis, value] at firstUnset
        cases firstUnset
      obtain ⟨next, isNext, length, bitsNext⟩ := setBit_spec inMask
      obtain ⟨after, isAfter, bitsAfter⟩ := @ih next (by rwa [length])
      refine ⟨after, ?_, fun offset => ?_⟩
      · simp only [if_neg notFirst]
        rw [isNext]
        exact isAfter
      · rw [bitsAfter, bitsNext]
        by_cases same : offset = bit
        · simp [same, isThis, value]
        · simp [same]

theorem fillMask_congr (same : SameMarks first second) (mask : Bytes)
    (bits : List Nat) : fillMask first mask bits = fillMask second mask bits := by
  induction bits generalizing mask with
  | nil => rfl
  | cons bit rest ih =>
    have marks := same.marks bit
    unfold fillMask
    by_cases inside : bit < first.length
    · have alsoInside : bit < second.length := same.length ▸ inside
      unfold isMarked at marks
      rw [List.getElem?_eq_getElem inside, List.getElem?_eq_getElem alsoInside] at marks ⊢
      cases isFirst : first[bit] <;> cases isSecond : second[bit] <;> simp [isFirst, isSecond] at marks
      · exact ih mask
      · simp only [ih]
    · rw [List.getElem?_eq_none (by omega), List.getElem?_eq_none (by rw [← same.length]; omega)]

theorem checkpointMask_congr (same : SameMarks first second)
    (firstUncommitted lastCommitted : Nat) : checkpointMask first firstUncommitted lastCommitted =
      checkpointMask second firstUncommitted lastCommitted := by
  unfold checkpointMask
  simp only [fillMask_congr same]

/-- **The mask of a checkpoint** has exactly the set entries. It can be computed whenever the last
committed request is in the slice. -/
theorem checkpointMask_spec {committed : List (Option Nat)} {firstUncommitted lastCommitted : Nat}
    (firstUnset : isMarked committed 0 = false)
    (near : firstUncommitted ≤ lastCommitted + 1)
    (isLast : firstUncommitted < lastCommitted → lastCommitted - firstUncommitted < committed.length)
    (bound : ∀ offset, isMarked committed offset = true → firstUncommitted + offset ≤ lastCommitted) :
    ∃ mask, checkpointMask committed firstUncommitted lastCommitted = .ok mask ∧
      ∀ offset, isBitSet mask offset = isMarked committed offset := by
  have unmarked (low : lastCommitted ≤ firstUncommitted) (offset : Nat) :
      isMarked committed offset = false := by
    by_contra isSet
    rw [Bool.not_eq_false] at isSet
    have atLast := bound offset isSet
    have isZero : offset = 0 := by omega
    rw [isZero, firstUnset] at isSet
    cases isSet
  unfold checkpointMask
  by_cases equal : lastCommitted = firstUncommitted
  · exact ⟨[], by rw [if_pos equal]; rfl, fun offset => (unmarked equal.le offset).symm⟩
  rw [if_neg equal]
  by_cases less : lastCommitted < firstUncommitted
  · refine ⟨List.replicate (1 - (firstUncommitted - lastCommitted) / 8) 0, ?_, fun offset => ?_⟩
    · rw [if_pos less]
      rw [if_neg (by omega)]
      rfl
    · rw [isBitSet_zeros, unmarked less.le]
  · rw [if_neg less]
    have inside : ∀ bit ∈ List.range (lastCommitted - firstUncommitted + 1), bit < committed.length ∧
        bit < 8 * (List.replicate ((lastCommitted - firstUncommitted) / 8 + 1) (0 : UInt8)).length := by
      intro bit member
      rw [mem_range] at member
      rw [length_replicate]
      omega
    obtain ⟨mask, isMask, bits⟩ := fillMask_spec firstUnset inside
    refine ⟨mask, isMask, fun offset => ?_⟩
    rw [bits, isBitSet_zeros, Bool.false_or]
    cases isSet : isMarked committed offset with
    | false => rw [Bool.and_false]
    | true =>
      have atMost := bound offset isSet
      rw [Bool.and_true, decide_eq_true_eq, mem_range]
      omega

/-! ### One commit -/

variable {cc : CommittingClient} {seqNo : Nat} {event : ClientEvent}

theorem markCommitted_eq_ok {after : CommittingClient} {seqNo reqNo : Nat} :
    cc.markCommitted seqNo reqNo = .ok after ↔ cc.lastState.lowWatermark ≤ reqNo ∧
      reqNo - cc.lastState.lowWatermark < cc.committedSinceLastCheckpoint.length ∧
      after = ⟨cc.lastState, cc.committedSinceLastCheckpoint.set
        (reqNo - cc.lastState.lowWatermark) (some seqNo)⟩ := by
  unfold markCommitted
  by_cases below : reqNo < cc.lastState.lowWatermark
  · rw [if_pos below]
    exact ⟨fun marked => (nomatch marked), fun ⟨above, _⟩ => absurd below (Nat.not_lt.mpr above)⟩
  · rw [if_neg below]
    by_cases outside : cc.committedSinceLastCheckpoint.length ≤ reqNo - cc.lastState.lowWatermark
    · rw [if_pos outside]
      exact ⟨fun marked => (nomatch marked), fun ⟨_, inside, _⟩ => absurd inside (Nat.not_lt.mpr outside)⟩
    · rw [if_neg outside, pure_eq_ok]
      exact ⟨fun isAfter => ⟨Nat.not_lt.mp below, Nat.not_le.mp outside, isAfter.symm⟩,
        fun ⟨_, _, isAfter⟩ => isAfter.symm⟩

/-! ### One checkpoint -/

/-- A slice in which nothing is set. -/
def Blank (committed : List (Option Nat)) : Prop := ∀ offset, isMarked committed offset = false

/-- The first entry that is not set, where some entry is. -/
structure FirstUnset (committed : List (Option Nat)) (consumed : Nat) : Prop where
  inside : consumed < committed.length
  unset : isMarked committed consumed = false
  before : ∀ offset < consumed, isMarked committed offset = true
  marked : ¬ Blank committed

theorem blank_or_full_or_firstUnset (committed : List (Option Nat)) :
    Blank committed ∨ (0 < committed.length ∧ ∀ offset < committed.length, isMarked committed offset = true) ∨
      ∃ consumed, FirstUnset committed consumed := by
  by_cases blank : Blank committed
  · exact Or.inl blank
  · cases isFirst : (scan 0 committed).1 with
    | none =>
      have nonempty : 0 < committed.length := length_pos_iff.mpr fun empty =>
        blank fun offset => by rw [empty]; rfl
      exact Or.inr (Or.inl ⟨nonempty, scan_no_first isFirst⟩)
    | some first =>
      obtain ⟨offset, _, inside, unset, before⟩ := scan_first isFirst
      exact Or.inr (Or.inr ⟨offset, inside, unset, before, blank⟩)

theorem scan_blank (blank : Blank committed) (reqNo : Nat) : (scan reqNo committed).2 = none := by
  cases isLast : (scan reqNo committed).2 with
  | none => rfl
  | some last =>
    obtain ⟨offset, _, marked, _⟩ := scan_last isLast
    rw [blank offset] at marked
    cases marked

theorem scan_full (nonempty : 0 < committed.length)
    (full : ∀ offset < committed.length, isMarked committed offset = true) (reqNo : Nat) :
    scan reqNo committed = (none, some (reqNo + (committed.length - 1))) := by
  apply Prod.ext
  · cases isFirst : (scan reqNo committed).1 with
    | none => rfl
    | some first =>
      obtain ⟨offset, _, inside, unset, _⟩ := scan_first isFirst
      rw [full offset inside] at unset
      cases unset
  · cases isLast : (scan reqNo committed).2 with
    | none =>
      have unset := scan_no_last isLast 0
      rw [full 0 nonempty] at unset
      cases unset
    | some last =>
      obtain ⟨offset, isFound, marked, greatest⟩ := scan_last isLast
      have atEnd := greatest (committed.length - 1) (full _ (by omega))
      have inside := isMarked.lt_length marked
      rw [isFound, show offset = committed.length - 1 by omega]

theorem FirstUnset.scan {consumed : Nat} (first : FirstUnset committed consumed) (reqNo : Nat) :
    ∃ last, CommittingClient.scan reqNo committed = (some (reqNo + consumed), some (reqNo + last)) ∧
      isMarked committed last = true ∧ ∀ after, isMarked committed after = true → after ≤ last := by
  cases isLast : (CommittingClient.scan reqNo committed).2 with
  | none => exact absurd (scan_no_last isLast) first.marked
  | some found =>
    obtain ⟨last, rfl, marked, greatest⟩ := scan_last isLast
    refine ⟨last, Prod.ext ?_ isLast, marked, greatest⟩
    cases isFirst : (CommittingClient.scan reqNo committed).1 with
    | none =>
      have isSet := scan_no_first isFirst consumed first.inside
      rw [first.unset] at isSet
      cases isSet
    | some found =>
      obtain ⟨offset, rfl, inside, unset, before⟩ := scan_first isFirst
      -- Both are the first entry that is not set.
      rcases Nat.lt_trichotomy offset consumed with less | same | more
      · rw [first.before offset less] at unset
        cases unset
      · rw [same]
      · have isSet := before consumed more
        rw [first.unset] at isSet
        cases isSet

/-- The client's state when nothing has committed since the last checkpoint. -/
def unchanged (last : ClientState) : ClientState :=
  { id := last.id, width := last.width, widthConsumedLastCheckpoint := 0,
    lowWatermark := last.lowWatermark, committedMask := [] }

theorem createCheckpointState_blank (blank : Blank cc.committedSinceLastCheckpoint) :
    cc.createCheckpointState =
      .ok (unchanged cc.lastState, { cc with lastState := unchanged cc.lastState }) := by
  unfold createCheckpointState
  have noLast := scan_blank blank cc.lastState.lowWatermark
  cases isScan : scan cc.lastState.lowWatermark cc.committedSinceLastCheckpoint with
  | mk first last =>
    rw [isScan] at noLast
    cases noLast
    simp only [isScan]
    rfl

/-- The client's state when all of the slice has committed. -/
def consumed (last : ClientState) (count : Nat) : ClientState :=
  { id := last.id, width := last.width, widthConsumedLastCheckpoint := last.width,
    lowWatermark := last.lowWatermark + count, committedMask := [] }

theorem createCheckpointState_full (nonempty : 0 < cc.committedSinceLastCheckpoint.length)
    (full : ∀ offset < cc.committedSinceLastCheckpoint.length,
      isMarked cc.committedSinceLastCheckpoint offset = true) :
    cc.createCheckpointState =
      if cc.committedSinceLastCheckpoint.length + cc.lastState.widthConsumedLastCheckpoint ≠
          cc.lastState.width then
        throw "if no client reqs are uncommitted, then all though the high watermark should be committed"
      else
        pure (consumed cc.lastState cc.committedSinceLastCheckpoint.length,
          ⟨consumed cc.lastState cc.committedSinceLastCheckpoint.length, []⟩) := by
  unfold createCheckpointState
  simp only [scan_full nonempty full]
  have next : cc.lastState.lowWatermark + (cc.committedSinceLastCheckpoint.length - 1) + 1 =
      cc.lastState.lowWatermark + cc.committedSinceLastCheckpoint.length := by omega
  rw [next, Nat.add_assoc]
  simp only [ne_eq, Nat.add_left_cancel_iff]
  rfl

/-- The slice after a checkpoint that consumes part of it. -/
def remaining (cc : CommittingClient) (consumed : Nat) : List (Option Nat) :=
  cc.committedSinceLastCheckpoint.drop consumed ++
    List.replicate (cc.lastState.width - consumed) none

theorem isMarked_remaining (consumed offset : Nat) : isMarked (cc.remaining consumed) offset =
    isMarked cc.committedSinceLastCheckpoint (consumed + offset) := by
  rw [remaining, isMarked.append_blank, isMarked.drop]

theorem createCheckpointState_wide {consumed : Nat}
    (first : FirstUnset cc.committedSinceLastCheckpoint consumed)
    (wide : cc.lastState.width < consumed) :
    cc.createCheckpointState = .error "makeslice: len out of range" := by
  obtain ⟨last, isScan, _, _⟩ := first.scan cc.lastState.lowWatermark
  unfold createCheckpointState
  simp only [isScan]
  rw [if_pos (by omega)]
  rfl

/-- **A checkpoint that consumes part of the slice** records exactly what is set above the first
uncommitted request; one zero byte when nothing is. -/
theorem createCheckpointState_firstUnset {consumed : Nat}
    (first : FirstUnset cc.committedSinceLastCheckpoint consumed)
    (narrow : consumed ≤ cc.lastState.width) :
    ∃ mask, let state : ClientState := ⟨cc.lastState.id, cc.lastState.width, consumed,
        cc.lastState.lowWatermark + consumed, mask⟩
      cc.createCheckpointState = .ok (state, ⟨state, cc.remaining consumed⟩) ∧
      (∀ offset, isBitSet mask offset = isMarked (cc.remaining consumed) offset) ∧
      (Blank (cc.remaining consumed) → mask = [0]) := by
  obtain ⟨last, isScan, marked, greatest⟩ := first.scan cc.lastState.lowWatermark
  have isLast : last < cc.committedSinceLastCheckpoint.length := isMarked.lt_length marked
  have length : (cc.remaining consumed).length =
      cc.committedSinceLastCheckpoint.length - consumed + (cc.lastState.width - consumed) := by
    rw [remaining, length_append, length_drop, length_replicate]
  have firstUnset : isMarked (cc.remaining consumed) 0 = false := by
    rw [isMarked_remaining, Nat.add_zero, first.unset]
  -- Below the first entry that is not set every entry is, so the last one that is set is next to it.
  have near : consumed ≤ last + 1 := by
    by_contra far
    have later := greatest (consumed - 1) (first.before _ (by omega))
    omega
  have bound (offset : Nat) (isSet : isMarked (cc.remaining consumed) offset = true) :
      consumed + offset ≤ last := by
    rw [isMarked_remaining] at isSet
    exact greatest _ isSet
  obtain ⟨mask, isMask, bits⟩ := @checkpointMask_spec (cc.remaining consumed)
    (cc.lastState.lowWatermark + consumed) (cc.lastState.lowWatermark + last) firstUnset (by omega)
    (fun _ => by omega) (fun offset isSet => by have := bound offset isSet; omega)
  refine ⟨mask, ?_, bits, fun blank => ?_⟩
  · unfold createCheckpointState
    simp only [isScan]
    rw [Nat.add_sub_cancel_left, if_neg (by omega)]
    change (checkpointMask (cc.remaining consumed) _ _ >>= _) = _
    rw [isMask]
    rfl
  · have below : last < consumed := by
      by_contra above
      have isSet : isMarked (cc.remaining consumed) (last - consumed) = true := by
        rw [isMarked_remaining, Nat.add_sub_cancel' (by omega), marked]
      rw [blank] at isSet
      cases isSet
    unfold checkpointMask at isMask
    rw [if_neg (by omega), if_pos (by omega), Nat.add_sub_add_left,
      show consumed - last = 1 by omega] at isMask
    exact (pure_eq_ok.mp isMask).symm

/-- **What a checkpoint does**, where it does not panic. -/
inductive Checkpointed (cc : CommittingClient) : ClientState → CommittingClient → Prop
  | idle : Blank cc.committedSinceLastCheckpoint →
      Checkpointed cc (unchanged cc.lastState) { cc with lastState := unchanged cc.lastState }
  | full : ¬ Blank cc.committedSinceLastCheckpoint →
      (∀ offset < cc.committedSinceLastCheckpoint.length, isMarked cc.committedSinceLastCheckpoint
      offset = true) →
      cc.committedSinceLastCheckpoint.length + cc.lastState.widthConsumedLastCheckpoint = cc.lastState.width →
      Checkpointed cc (consumed cc.lastState cc.committedSinceLastCheckpoint.length)
        ⟨consumed cc.lastState cc.committedSinceLastCheckpoint.length, []⟩
  | part {count : Nat} {mask : Bytes} {state : ClientState} :
      FirstUnset cc.committedSinceLastCheckpoint count → count ≤ cc.lastState.width →
      (∀ offset, isBitSet mask offset = isMarked (cc.remaining count) offset) →
      (Blank (cc.remaining count) → mask = [0]) → state = ⟨cc.lastState.id, cc.lastState.width, count,
        cc.lastState.lowWatermark + count, mask⟩ → Checkpointed cc state ⟨state, cc.remaining count⟩

theorem checkpointed {after : CommittingClient} (created : cc.createCheckpointState = .ok (state, after)) :
    Checkpointed cc state after := by
  by_cases blank : Blank cc.committedSinceLastCheckpoint
  · rw [createCheckpointState_blank blank] at created
    cases created
    exact .idle blank
  rcases (blank_or_full_or_firstUnset _).resolve_left blank with ⟨nonempty, full⟩ | ⟨count, first⟩
  · rw [createCheckpointState_full nonempty full] at created
    split at created
    · cases created
    · rename_i isWidth
      cases created
      exact .full blank full (not_not.mp isWidth)
  · rcases Nat.lt_or_ge cc.lastState.width count with wide | narrow
    · rw [createCheckpointState_wide first wide] at created
      cases created
    · obtain ⟨mask, isCreated, bits, zero⟩ := createCheckpointState_firstUnset first narrow
      rw [isCreated] at created
      cases created
      exact .part first narrow bits zero rfl

/-- **What a checkpoint records**: the state that the client goes on from, of the same width, with a
bit for each entry that is set; the first entry is not. -/
structure Recorded (cc : CommittingClient) : Prop where
  bits : ∀ offset, isBitSet cc.lastState.committedMask offset =
    isMarked cc.committedSinceLastCheckpoint offset
  firstUnset : isMarked cc.committedSinceLastCheckpoint 0 = false

theorem createCheckpointState_recorded {after : CommittingClient}
    (created : cc.createCheckpointState = .ok (state, after)) :
    Recorded after ∧ state = after.lastState ∧ after.lastState.width = cc.lastState.width := by
  cases checkpointed created with
  | idle blank => exact ⟨⟨fun offset => (blank offset).symm, blank 0⟩, rfl, rfl⟩
  | full _ _ _ => exact ⟨⟨fun offset => rfl, rfl⟩, rfl, rfl⟩
  | part first _ bits _ isState =>
    subst isState
    refine ⟨⟨bits, ?_⟩, rfl, rfl⟩
    rw [isMarked_remaining, Nat.add_zero, first.unset]

/-! ### Rebuilding a client -/

theorem fillCommitted_isOk {mask : Bytes} {committed : List (Option Nat)}
    {bits : List Nat} (inside : ∀ bit ∈ bits, isBitSet mask bit = true → bit < committed.length) :
    ∃ after, fillCommitted seqNo mask committed bits = .ok after := by
  induction bits generalizing committed with
  | nil => exact ⟨committed, rfl⟩
  | cons bit rest ih =>
    obtain ⟨isInside, others⟩ := forall_mem_cons.mp inside
    unfold fillCommitted
    cases isSet : isBitSet mask bit with
    | false => exact ih others
    | true =>
      rw [if_neg (Nat.not_le.mpr (isInside isSet))]
      exact ih (by simpa using others)

theorem fillCommitted_eq_ok {mask : Bytes} {after : List (Option Nat)} {bits : List Nat}
    (filled : fillCommitted seqNo mask committed bits = .ok after) :
    after.length = committed.length ∧ ∀ offset, isMarked after offset =
      (isMarked committed offset || (decide (offset ∈ bits) && isBitSet mask offset)) := by
  induction bits generalizing committed with
  | nil =>
    cases filled
    exact ⟨rfl, by simp⟩
  | cons bit rest ih =>
    unfold fillCommitted at filled
    cases isSet : isBitSet mask bit with
    | false =>
      simp only [isSet] at filled
      obtain ⟨length, marks⟩ := ih filled
      refine ⟨length, fun offset => ?_⟩
      rw [marks]
      by_cases same : offset = bit
      · simp [same, isSet]
      · simp [same]
    | true =>
      simp only [isSet, Bool.not_true, Bool.false_eq_true, if_false] at filled
      split at filled
      · cases filled
      · obtain ⟨length, marks⟩ := ih filled
        refine ⟨by rw [length, length_set], fun offset => ?_⟩
        rw [marks, isMarked.set (by omega)]
        by_cases same : offset = bit
        · simp [same, isSet]
        · simp [same]

/-- **A rebuilt client** has a slice of the client's width with the recorded entries set. -/
theorem newCommittingClient_eq_ok (created : newCommittingClient seqNo state = .ok cc) :
    cc.lastState = state ∧ cc.committedSinceLastCheckpoint.length = state.width ∧
      ∀ offset, isMarked cc.committedSinceLastCheckpoint offset =
        isBitSet state.committedMask offset := by
  obtain ⟨committed, filled, isCreated⟩ := bind_eq_ok.mp created
  cases isCreated
  obtain ⟨length, marks⟩ := fillCommitted_eq_ok filled
  refine ⟨rfl, by rw [length, length_replicate], fun offset => ?_⟩
  rw [marks, isMarked.replicate, Bool.false_or]
  cases isSet : isBitSet state.committedMask offset with
  | false => rw [Bool.and_false]
  | true =>
    have inside : offset < 8 * state.committedMask.length := by
      by_contra outside
      rw [isBitSet_of_le (Nat.le_of_not_lt outside)] at isSet
      cases isSet
    rw [decide_eq_true (mem_range.mpr inside), Bool.and_true]

theorem newCommittingClient_isOk (seqNo : Nat)
    (inside : ∀ bit, isBitSet state.committedMask bit = true → bit < state.width) :
    ∃ cc, newCommittingClient seqNo state = .ok cc := by
  obtain ⟨committed, filled⟩ := @fillCommitted_isOk seqNo state.committedMask
    (List.replicate state.width none) (List.range (8 * state.committedMask.length))
    (fun bit _ isSet => by rw [length_replicate]; exact inside bit isSet)
  exact ⟨⟨state, committed⟩, by rw [newCommittingClient, filled]; rfl⟩

/-! ### Histories -/

/-- What happens to a client: a batch with one of its requests commits, or a checkpoint is
computed. -/
inductive ClientEvent where
  | commit (seqNo reqNo : Nat)
  | checkpoint
deriving DecidableEq, Repr

/-- What one event does to a client, and the client state that a checkpoint records. -/
def apply (cc : CommittingClient) : ClientEvent → Go (List ClientState × CommittingClient)
  | .commit seqNo reqNo => do
    let cc ← cc.markCommitted seqNo reqNo
    pure ([], cc)
  | .checkpoint => do
    let (state, cc) ← cc.createCheckpointState
    pure ([state], cc)

/-- A whole history, with the recorded client states in order. -/
def run (cc : CommittingClient) : List ClientEvent → Go (List ClientState × CommittingClient)
  | [] => pure ([], cc)
  | event :: later => do
    let (states, cc) ← cc.apply event
    let (more, cc) ← cc.run later
    pure (states ++ more, cc)

/-- The requests that may commit before the next checkpoint: those that became valid at the last
one. -/
def ValidRequest (state : ClientState) (reqNo : Nat) : Prop :=
  state.lowWatermark ≤ reqNo ∧
    reqNo < state.lowWatermark + (state.width - state.widthConsumedLastCheckpoint)

/-- A history in which each committed request is in the client's window, where the window is given
by the last recorded state. -/
def InWindow (window : ClientState → Nat → Prop) (cc : CommittingClient) : List ClientEvent → Prop
  | [] => True
  | event :: later =>
    (∀ seqNo reqNo, event = .commit seqNo reqNo → window cc.lastState reqNo) ∧
      ∀ states after, cc.apply event = .ok (states, after) → InWindow window after later

/-- Two computations that record the same states, or both panic. -/
def SameRecords (first second : Go (List ClientState × CommittingClient)) : Prop :=
  ∀ states, (∃ after, first = .ok (states, after)) ↔ ∃ after, second = .ok (states, after)

theorem run_cons_eq_ok {later : List ClientEvent} {after : CommittingClient} :
    cc.run (event :: later) = .ok (states, after) ↔
      ∃ first next more, cc.apply event = .ok (first, next) ∧ next.run later = .ok (more, after) ∧
        states = first ++ more := by
  constructor
  · intro ran
    obtain ⟨⟨first, next⟩, applied, rest⟩ := bind_eq_ok.mp ran
    obtain ⟨⟨more, last⟩, continued, isResult⟩ := bind_eq_ok.mp rest
    cases isResult
    exact ⟨first, next, more, applied, continued, rfl⟩
  · rintro ⟨first, next, more, applied, continued, rfl⟩
    exact bind_eq_ok.mpr ⟨(first, next), applied, bind_eq_ok.mpr ⟨(more, after), continued, rfl⟩⟩

theorem run_append_eq_ok {earlier later : List ClientEvent} {after : CommittingClient} :
    cc.run (earlier ++ later) = .ok (states, after) ↔
      ∃ first next more, cc.run earlier = .ok (first, next) ∧ next.run later = .ok (more, after) ∧
        states = first ++ more := by
  induction earlier generalizing cc states with
  | nil =>
    constructor
    · exact fun ran => ⟨[], cc, states, rfl, ran, rfl⟩
    · rintro ⟨first, next, more, isStart, continued, rfl⟩
      cases isStart
      exact continued
  | cons event rest ih =>
    rw [cons_append, run_cons_eq_ok]
    constructor
    · rintro ⟨first, next, more, applied, continued, rfl⟩
      obtain ⟨second, middle, others, ran, finished, rfl⟩ := ih.mp continued
      exact ⟨first ++ second, middle, others, run_cons_eq_ok.mpr ⟨_, _, _, applied, ran, rfl⟩, finished,
        (append_assoc ..).symm⟩
    · rintro ⟨first, next, more, ran, continued, rfl⟩
      obtain ⟨second, middle, others, applied, finished, rfl⟩ := run_cons_eq_ok.mp ran
      exact ⟨second, middle, others ++ more, applied, ih.mpr ⟨_, _, _, finished, continued, rfl⟩,
        append_assoc ..⟩

theorem apply_width {after : CommittingClient}
    (applied : cc.apply event = .ok (states, after)) : after.lastState.width = cc.lastState.width := by
  cases event with
  | commit seqNo reqNo =>
    obtain ⟨marked, isMarked, isResult⟩ := bind_eq_ok.mp applied
    cases isResult
    rw [markCommitted_id isMarked]
  | checkpoint =>
    obtain ⟨⟨state, next⟩, created, isResult⟩ := bind_eq_ok.mp applied
    cases isResult
    exact (createCheckpointState_recorded created).2.2

theorem run_width {events : List ClientEvent} {after : CommittingClient}
    (ran : cc.run events = .ok (states, after)) : after.lastState.width = cc.lastState.width := by
  induction events generalizing cc states with
  | nil =>
    cases ran
    rfl
  | cons event later ih =>
    obtain ⟨_, next, _, applied, continued, _⟩ := run_cons_eq_ok.mp ran
    rw [ih continued, apply_width applied]

theorem inWindow_append {window : ClientState → Nat → Prop} {earlier later : List ClientEvent} :
    InWindow window cc (earlier ++ later) ↔ InWindow window cc earlier ∧
      ∀ states after, cc.run earlier = .ok (states, after) → InWindow window after later := by
  induction earlier generalizing cc with
  | nil =>
    constructor
    · refine fun inWindow => ⟨trivial, fun states after isStart => ?_⟩
      cases isStart
      exact inWindow
    · exact fun ⟨_, continued⟩ => continued [] cc rfl
  | cons event rest ih =>
    constructor
    · rintro ⟨this, others⟩
      refine ⟨⟨this, fun states after applied => (ih.mp (others states after applied)).1⟩, ?_⟩
      intro states after ran
      obtain ⟨first, next, more, applied, continued, _⟩ := run_cons_eq_ok.mp ran
      exact (ih.mp (others first next applied)).2 more after continued
    · rintro ⟨⟨this, others⟩, continued⟩
      exact ⟨this, fun states after applied => ih.mpr ⟨others states after applied, fun more last ran =>
        continued (states ++ more) last (run_cons_eq_ok.mpr ⟨_, _, _, applied, ran, rfl⟩)⟩⟩

/-! ### Clients that cannot be told apart -/

/-- **Two clients with the same state and the same entries set.** -/
structure Alike (first second : CommittingClient) : Prop where
  lastState : first.lastState = second.lastState
  slices : SameMarks first.committedSinceLastCheckpoint second.committedSinceLastCheckpoint

namespace Alike

variable {first second after : CommittingClient} {states : List ClientState}

variable (alike : Alike first second)
include alike

theorem symm : Alike second first :=
  ⟨alike.lastState.symm, alike.slices.symm⟩

theorem markCommitted {seqNo reqNo : Nat}
    (marked : first.markCommitted seqNo reqNo = .ok after) :
    ∃ other, second.markCommitted seqNo reqNo = .ok other ∧ Alike after other := by
  obtain ⟨above, inside, rfl⟩ := markCommitted_eq_ok.mp marked
  have slices := alike.slices.set inside seqNo seqNo
  rw [alike.lastState] at above inside slices
  rw [alike.slices.length] at inside
  rw [alike.lastState]
  exact ⟨_, markCommitted_eq_ok.mpr ⟨above, inside, rfl⟩, rfl, slices⟩

theorem createCheckpointState {state : ClientState}
    (created : first.createCheckpointState = .ok (state, after)) :
    ∃ other, second.createCheckpointState = .ok (state, other) ∧ Alike after other := by
  unfold CommittingClient.createCheckpointState at created ⊢
  simp only [alike.lastState, scan_congr alike.slices] at created ⊢
  split at created
  · cases created
    exact ⟨_, rfl, rfl, alike.slices⟩
  · split at created
    · cases created
    · rename_i same
      cases created
      rw [if_neg same]
      exact ⟨_, rfl, rfl, rfl, fun _ => rfl⟩
  · split at created
    · cases created
    · rename_i narrow
      obtain ⟨mask, isMask, isCreated⟩ := bind_eq_ok.mp created
      cases isCreated
      have slices := alike.slices.extend
      rw [checkpointMask_congr (slices _ _)] at isMask
      rw [if_neg narrow, isMask]
      exact ⟨_, rfl, rfl, slices _ _⟩

theorem apply {event : ClientEvent}
    (applied : first.apply event = .ok (states, after)) :
    ∃ other, second.apply event = .ok (states, other) ∧ Alike after other := by
  cases event with
  | commit seqNo reqNo =>
    obtain ⟨marked, isMarked, isResult⟩ := bind_eq_ok.mp applied
    cases isResult
    obtain ⟨other, isOther, stillAlike⟩ := alike.markCommitted isMarked
    exact ⟨other, bind_eq_ok.mpr ⟨other, isOther, rfl⟩, stillAlike⟩
  | checkpoint =>
    obtain ⟨⟨state, next⟩, created, isResult⟩ := bind_eq_ok.mp applied
    cases isResult
    obtain ⟨other, isOther, stillAlike⟩ := alike.createCheckpointState created
    exact ⟨other, bind_eq_ok.mpr ⟨(state, other), isOther, rfl⟩, stillAlike⟩

theorem run {events : List ClientEvent}
    (ran : first.run events = .ok (states, after)) :
    ∃ other, second.run events = .ok (states, other) := by
  induction events generalizing first second states with
  | nil =>
    cases ran
    exact ⟨second, rfl⟩
  | cons event later ih =>
    obtain ⟨recorded, next, more, applied, continued, rfl⟩ := run_cons_eq_ok.mp ran
    obtain ⟨other, isOther, stillAlike⟩ := alike.apply applied
    obtain ⟨last, finished⟩ := ih stillAlike continued
    exact ⟨last, run_cons_eq_ok.mpr ⟨_, _, _, isOther, finished, rfl⟩⟩

/-- Clients that are alike record the same states in every history, or both panic in it. -/
theorem sameRecords (events : List ClientEvent) :
    SameRecords (first.run events) (second.run events) :=
  fun _ => ⟨fun ⟨_, ran⟩ => alike.run ran, fun ⟨_, ran⟩ => alike.symm.run ran⟩

end Alike

/-! ### The rebuilt client -/

/-- The history of a client that is rebuilt from a recorded state. -/
def rebuiltRun (seqNo : Nat) (state : ClientState) (events : List ClientEvent) :
    Go (List ClientState × CommittingClient) := do
  let cc ← newCommittingClient seqNo state
  cc.run events

variable {live rebuilt : CommittingClient}

/-- With a slice of the client's width, the rebuilt client cannot be told from the live one. -/
theorem Recorded.alike (recorded : Recorded live)
    (length : live.committedSinceLastCheckpoint.length = live.lastState.width) (seqNo : Nat) :
    ∃ rebuilt, newCommittingClient seqNo live.lastState = .ok rebuilt ∧ Alike live rebuilt := by
  obtain ⟨rebuilt, created⟩ := newCommittingClient_isOk seqNo (fun bit isSet => by
    rw [recorded.bits] at isSet
    rw [← length]
    exact isMarked.lt_length isSet)
  obtain ⟨sameState, width, marks⟩ := newCommittingClient_eq_ok created
  exact ⟨rebuilt, created, sameState.symm, by rw [length, width], fun offset => by
    rw [marks, recorded.bits]⟩

/-! ### A history that tells them apart -/

theorem run_commits {count : Nat} (inside : count ≤ cc.committedSinceLastCheckpoint.length) :
    ∃ after, cc.run ((List.range count).map fun offset =>
        .commit 0 (cc.lastState.lowWatermark + offset)) = .ok ([], after) ∧
      after.lastState = cc.lastState ∧
      after.committedSinceLastCheckpoint.length = cc.committedSinceLastCheckpoint.length ∧
      ∀ offset, isMarked after.committedSinceLastCheckpoint offset =
        (isMarked cc.committedSinceLastCheckpoint offset || decide (offset < count)) := by
  induction count with
  | zero => exact ⟨cc, rfl, rfl, rfl, by simp⟩
  | succ count ih =>
    obtain ⟨before, ran, sameState, length, marks⟩ := ih (by omega)
    have inSlice : count < before.committedSinceLastCheckpoint.length := by omega
    refine ⟨{ before with committedSinceLastCheckpoint :=
      before.committedSinceLastCheckpoint.set count (some 0) }, ?_, sameState, ?_, fun offset => ?_⟩
    · rw [range_succ, map_append, run_append_eq_ok]
      refine ⟨[], before, [], ran, ?_, rfl⟩
      rw [map_singleton, run_cons_eq_ok]
      refine ⟨[], _, [], ?_, rfl, rfl⟩
      have offset : cc.lastState.lowWatermark + count - before.lastState.lowWatermark = count := by
        rw [sameState, Nat.add_sub_cancel_left]
      exact bind_eq_ok.mpr ⟨_, markCommitted_eq_ok.mpr ⟨by rw [sameState]; omega,
        by rwa [offset], by rw [offset]⟩, rfl⟩
    · rw [length_set, length]
    · rw [isMarked.set inSlice, marks, Bool.or_assoc]
      congr 1
      rw [← Bool.decide_or, decide_eq_decide]
      omega

section TellApart

variable {window : ClientState → Nat → Prop} {events : List ClientEvent}
  {first second firstAfter secondAfter : CommittingClient}

/-- The window has at least the requests that are valid before the next checkpoint. -/
def Admits (window : ClientState → Nat → Prop) : Prop :=
  ∀ state reqNo, ValidRequest state reqNo → window state reqNo

/-- A history in the window that two clients do not record the same states in. -/
def ToldApart (window : ClientState → Nat → Prop) (first second : CommittingClient) : Prop :=
  ∃ events, InWindow window first events ∧ ¬ SameRecords (first.run events) (second.run events)

theorem inWindow_checkpoint (cc : CommittingClient) : InWindow window cc [.checkpoint] :=
  ⟨fun _ _ isCommit => ClientEvent.noConfusion isCommit, fun _ _ _ => trivial⟩

theorem inWindow_commits (commits : ∀ event ∈ events,
    ∃ seqNo reqNo, event = .commit seqNo reqNo ∧ window cc.lastState reqNo) :
    InWindow window cc events := by
  induction events generalizing cc with
  | nil => trivial
  | cons event later ih =>
    obtain ⟨⟨seqNo, reqNo, rfl, isIn⟩, others⟩ := forall_mem_cons.mp commits
    refine ⟨fun _ _ isThis => by cases isThis; exact isIn, fun states after applied => ih ?_⟩
    obtain ⟨marked, isMarked, isResult⟩ := bind_eq_ok.mp applied
    cases isResult
    rwa [markCommitted_id isMarked]

/-- Both clients go through the same events and record the same; what tells them apart then did so
before. -/
theorem ToldApart.after {states : List ClientState} (inWindow : InWindow window first events)
    (ran : first.run events = .ok (states, firstAfter))
    (alsoRan : second.run events = .ok (states, secondAfter))
    (told : ToldApart window firstAfter secondAfter) : ToldApart window first second := by
  obtain ⟨later, laterIn, differ⟩ := told
  refine ⟨events ++ later, inWindow_append.mpr ⟨inWindow, fun states after isAfter => ?_⟩, ?_⟩
  · rw [ran] at isAfter
    cases isAfter
    exact laterIn
  · intro same
    refine differ fun more => ?_
    have whole := same (states ++ more)
    have prefixed {cc middle : CommittingClient} (isRun : cc.run events = .ok (states, middle)) :
        (∃ after, cc.run (events ++ later) = .ok (states ++ more, after)) ↔
          ∃ after, middle.run later = .ok (more, after) := by
      constructor
      · rintro ⟨after, isWhole⟩
        obtain ⟨recorded, next, rest, isFirst, isRest, split⟩ := run_append_eq_ok.mp isWhole
        rw [isRun] at isFirst
        cases isFirst
        cases append_cancel_left split
        exact ⟨after, isRest⟩
      · rintro ⟨after, isRest⟩
        exact ⟨after, run_append_eq_ok.mpr ⟨_, _, _, isRun, isRest, rfl⟩⟩
    rwa [prefixed ran, prefixed alsoRan] at whole

/-- Both clients go through the events, but do not record the same. -/
theorem toldApart_of_ne {states others : List ClientState}
    (inWindow : InWindow window first events) (ran : first.run events = .ok (states, firstAfter))
    (alsoRan : second.run events = .ok (others, secondAfter)) (differ : states ≠ others) :
    ToldApart window first second := by
  refine ⟨events, inWindow, fun same => ?_⟩
  obtain ⟨after, isOther⟩ := (same states).mp ⟨firstAfter, ran⟩
  rw [alsoRan] at isOther
  cases isOther
  exact differ rfl

theorem run_checkpoint {state : ClientState} {after : CommittingClient}
    (created : cc.createCheckpointState = .ok (state, after)) :
    cc.run [.checkpoint] = .ok ([state], after) :=
  run_cons_eq_ok.mpr ⟨[state], after, [], bind_eq_ok.mpr ⟨_, created, rfl⟩, rfl, rfl⟩

/-- The requests of the whole window commit. -/
def commitWindow (state : ClientState) : List ClientEvent :=
  (List.range state.width).map fun offset => .commit 0 (state.lowWatermark + offset)

theorem inWindow_commitWindow (admits : Admits window)
    (nothingConsumed : cc.lastState.widthConsumedLastCheckpoint = 0) :
    InWindow window cc (commitWindow cc.lastState) := by
  refine inWindow_commits fun event member => ?_
  obtain ⟨offset, inWidth, rfl⟩ := mem_map.mp member
  refine ⟨0, _, rfl, admits _ _ ⟨Nat.le_add_right _ _, ?_⟩⟩
  have := mem_range.mp inWidth
  omega

/-- The state recorded when the whole width, and nothing else, has committed in a longer slice. -/
def widthConsumed (state : ClientState) : ClientState :=
  ⟨state.id, state.width, state.width, state.lowWatermark + state.width, [0]⟩

/-- **The whole window commits** in a slice that is longer than the width. -/
theorem run_commitWindow_long (positive : 0 < cc.lastState.width)
    (long : cc.lastState.width < cc.committedSinceLastCheckpoint.length)
    (within : ∀ offset, isMarked cc.committedSinceLastCheckpoint offset = true →
      offset < cc.lastState.width) :
    ∃ after, cc.run (commitWindow cc.lastState ++ [.checkpoint]) =
        .ok ([widthConsumed cc.lastState], after) ∧
      after.lastState = widthConsumed cc.lastState ∧ Blank after.committedSinceLastCheckpoint ∧
      after.committedSinceLastCheckpoint.length =
        cc.committedSinceLastCheckpoint.length - cc.lastState.width := by
  obtain ⟨committed, ran, sameState, length, marks⟩ := run_commits long.le
  have below (offset : Nat) : isMarked committed.committedSinceLastCheckpoint offset =
      decide (offset < cc.lastState.width) := by
    rw [marks, Bool.eq_iff_iff, Bool.or_eq_true, decide_eq_true_eq]
    exact ⟨fun isSet => isSet.elim (within offset) id, Or.inr⟩
  have first : FirstUnset committed.committedSinceLastCheckpoint committed.lastState.width := by
    rw [sameState]
    refine ⟨by omega, by rw [below]; simp, fun offset less => by rw [below]; simpa using less, ?_⟩
    intro blank
    have unset := blank 0
    rw [below] at unset
    exact absurd positive (of_decide_eq_false unset)
  obtain ⟨mask, created, _, zero⟩ := createCheckpointState_firstUnset first le_rfl
  have blank : Blank (committed.remaining committed.lastState.width) := fun offset => by
    rw [isMarked_remaining, below, sameState]
    simp
  rw [zero blank] at created
  refine ⟨_, run_append_eq_ok.mpr ⟨[], committed, _, ran, run_checkpoint created, ?_⟩, ?_, blank, ?_⟩
  · rw [sameState]
    rfl
  · rw [sameState]
    rfl
  · simp [remaining, sameState, length]

/-- Two clients with nothing set and slices of different lengths, where one is of the client's
width. -/
theorem toldApart_of_blank (admits : Admits window) (sameState : live.lastState = rebuilt.lastState)
    (positive : 0 < rebuilt.lastState.width) (blank : Blank live.committedSinceLastCheckpoint)
    (alsoBlank : Blank rebuilt.committedSinceLastCheckpoint)
    (width : rebuilt.committedSinceLastCheckpoint.length = rebuilt.lastState.width)
    (length : live.committedSinceLastCheckpoint.length ≠ rebuilt.lastState.width) :
    ToldApart window live rebuilt := by
  have created := createCheckpointState_blank blank
  rw [sameState] at created
  -- A checkpoint at which nothing has committed makes the whole width valid.
  refine .after (inWindow_checkpoint live) (run_checkpoint created)
    (run_checkpoint (createCheckpointState_blank alsoBlank)) ?_
  rcases Nat.lt_or_gt_of_ne length with short | long
  · -- The live client has no slot for a request of the window.
    let reqNo := rebuilt.lastState.lowWatermark + live.committedSinceLastCheckpoint.length
    refine ⟨[.commit 0 reqNo], inWindow_commits fun event member => ?_, fun same => ?_⟩
    · rw [mem_singleton] at member
      exact ⟨0, reqNo, member, admits _ _ ⟨Nat.le_add_right _ _, Nat.add_lt_add_left short _⟩⟩
    · have offset : reqNo - rebuilt.lastState.lowWatermark =
          live.committedSinceLastCheckpoint.length := Nat.add_sub_cancel_left ..
      have committed := @markCommitted_eq_ok { rebuilt with lastState := unchanged rebuilt.lastState } _ 0
        reqNo |>.mpr ⟨Nat.le_add_right _ _, (offset.trans_lt short).trans_eq width.symm, rfl⟩
      obtain ⟨_, ran⟩ := (same []).mpr ⟨_, run_cons_eq_ok.mpr ⟨[], _, [],
        bind_eq_ok.mpr ⟨_, committed, rfl⟩, rfl, rfl⟩⟩
      obtain ⟨_, _, _, applied, _⟩ := run_cons_eq_ok.mp ran
      obtain ⟨_, marked, _⟩ := bind_eq_ok.mp applied
      obtain ⟨_, inside, _⟩ := markCommitted_eq_ok.mp marked
      exact absurd (offset.ge.trans_lt inside) (Nat.lt_irrefl _)
  · -- The live client goes on as if there was more to come.
    have within (offset : Nat) (isSet : isMarked live.committedSinceLastCheckpoint offset = true) :
        offset < (unchanged rebuilt.lastState).width := by
      rw [blank] at isSet
      cases isSet
    obtain ⟨after, ran, _⟩ := @run_commitWindow_long
      { live with lastState := unchanged rebuilt.lastState } positive long within
    obtain ⟨committed, isCommitted, sameCommitted, lengthCommitted, marks⟩ := @run_commits
      { rebuilt with lastState := unchanged rebuilt.lastState } rebuilt.lastState.width width.ge
    have full : ∀ offset < committed.committedSinceLastCheckpoint.length,
        isMarked committed.committedSinceLastCheckpoint offset = true := by
      intro offset inside
      rw [marks, Bool.or_eq_true, decide_eq_true_eq]
      rw [lengthCommitted] at inside
      exact Or.inr (width ▸ inside)
    have alsoCreated := createCheckpointState_full (by rw [lengthCommitted]; exact width ▸ positive) full
    rw [if_neg (by rw [lengthCommitted, sameCommitted]; simpa [unchanged] using width)] at alsoCreated
    refine toldApart_of_ne (inWindow_append.mpr ⟨inWindow_commitWindow admits rfl,
      fun _ _ _ => inWindow_checkpoint _⟩) ran
      (run_append_eq_ok.mpr ⟨[], committed, _, isCommitted, run_checkpoint alsoCreated, rfl⟩) ?_
    intro same
    cases congrArg ClientState.committedMask (List.cons.inj same).1

/-- **A live client whose slice is not as long as its width** is told apart from the one rebuilt
from its last checkpoint. -/
theorem Recorded.toldApart (admits : Admits window) (recorded : Recorded live)
    (positive : 0 < live.lastState.width) {seqNo : Nat}
    (created : newCommittingClient seqNo live.lastState = .ok rebuilt)
    (length : live.committedSinceLastCheckpoint.length ≠ live.lastState.width) :
    ToldApart window live rebuilt := by
  obtain ⟨sameState, width, rebuiltMarks⟩ := newCommittingClient_eq_ok created
  have marks (offset : Nat) : isMarked rebuilt.committedSinceLastCheckpoint offset =
      isMarked live.committedSinceLastCheckpoint offset := by
    rw [rebuiltMarks, recorded.bits]
  by_cases blank : Blank live.committedSinceLastCheckpoint
  · exact toldApart_of_blank admits sameState.symm (sameState ▸ positive) blank
      (fun offset => by rw [marks, blank]) (by rw [width, sameState]) (by rwa [sameState])
  -- The next checkpoint consumes nothing and lengthens both slices by the width.
  have first (cc : CommittingClient)
      (same : ∀ offset, isMarked cc.committedSinceLastCheckpoint offset =
        isMarked live.committedSinceLastCheckpoint offset) :
      FirstUnset cc.committedSinceLastCheckpoint 0 := by
    have isMarkedSome : ¬ Blank cc.committedSinceLastCheckpoint :=
      fun isBlank => blank fun offset => by rw [← same, isBlank]
    refine ⟨?_, by rw [same, recorded.firstUnset], fun _ less => absurd less (Nat.not_lt_zero _),
      isMarkedSome⟩
    by_contra empty
    exact isMarkedSome fun offset => by
      rw [eq_nil_of_length_eq_zero (Nat.eq_zero_of_not_pos empty)]
      rfl
  obtain ⟨mask, isCreated, _⟩ := createCheckpointState_firstUnset (first live fun _ => rfl) (Nat.zero_le _)
  obtain ⟨otherMask, otherCreated, _⟩ :=
    createCheckpointState_firstUnset (first rebuilt marks) (Nat.zero_le _)
  rw [sameState] at otherCreated
  by_cases sameMask : otherMask = mask
  · subst sameMask
    refine .after (inWindow_checkpoint live) (run_checkpoint isCreated) (run_checkpoint otherCreated) ?_
    -- The whole window commits; what is left has nothing set, and the lengths of before.
    have within (cc : CommittingClient)
        (same : ∀ offset, isMarked cc.committedSinceLastCheckpoint offset =
          isMarked live.committedSinceLastCheckpoint offset) (offset : Nat)
        (isSet : isMarked (cc.remaining 0) offset = true) : offset < live.lastState.width := by
      rw [isMarked_remaining, Nat.zero_add, same, ← marks] at isSet
      exact (isMarked.lt_length isSet).trans_eq width
    have remainingLength (cc : CommittingClient) : (cc.remaining 0).length =
        cc.committedSinceLastCheckpoint.length + cc.lastState.width := by simp [remaining]
    have someSlot := (first live fun _ => rfl).inside
    obtain ⟨after, ran, isState, isBlank, isLength⟩ := @run_commitWindow_long
      ⟨⟨live.lastState.id, live.lastState.width, 0, live.lastState.lowWatermark + 0, otherMask⟩,
        live.remaining 0⟩ positive (by rw [remainingLength]; simp only; omega) (within live fun _ => rfl)
    obtain ⟨other, otherRan, otherState, otherBlank, otherLength⟩ := @run_commitWindow_long
      ⟨⟨live.lastState.id, live.lastState.width, 0, live.lastState.lowWatermark + 0, otherMask⟩,
        rebuilt.remaining 0⟩ positive (by rw [remainingLength, sameState]; simp only; omega)
        (within rebuilt marks)
    refine .after (inWindow_append.mpr ⟨inWindow_commitWindow admits rfl,
      fun _ _ _ => inWindow_checkpoint _⟩) ran otherRan ?_
    simp only [remainingLength, sameState, Nat.add_sub_cancel] at isLength otherLength
    refine toldApart_of_blank admits (isState.trans otherState.symm) ?_ isBlank otherBlank ?_ ?_
    · rw [otherState]
      exact positive
    · rw [otherLength, otherState]
      exact width
    · rw [isLength, otherState]
      exact length
  · refine toldApart_of_ne (inWindow_checkpoint live) (run_checkpoint isCreated)
      (run_checkpoint otherCreated) fun same => ?_
    exact sameMask (congrArg ClientState.committedMask (List.cons.inj same).1).symm

end TellApart

/-! ### The main result -/

/-- **Client states survive a restart exactly when the slice has the client's width.** A client that
went through any history up to a checkpoint and one that is rebuilt from the state recorded there
record the same states in every later history in the window, or both panic, if and only if the first
one's slice is as long as its width. The window is any that has the requests valid before the next
checkpoint. -/
theorem rebuilt_agrees_iff {window : ClientState → Nat → Prop} (admits : Admits window)
    {start seqNo : Nat} {initial state : ClientState} (positive : 0 < initial.width)
    {history : List ClientEvent} {earlier : List ClientState}
    (ran : rebuiltRun start initial (history ++ [.checkpoint]) = .ok (earlier ++ [state], live)) :
    (∀ later, InWindow window live later →
      SameRecords (live.run later) (rebuiltRun seqNo state later)) ↔
      live.committedSinceLastCheckpoint.length = state.width := by
  obtain ⟨fresh, created, isRun⟩ := bind_eq_ok.mp ran
  have width : live.lastState.width = initial.width := by
    rw [run_width isRun, (newCommittingClient_eq_ok created).1]
  obtain ⟨first, before, more, _, last, split⟩ := run_append_eq_ok.mp isRun
  obtain ⟨_, _, _, applied, isEnd, rfl⟩ := run_cons_eq_ok.mp last
  cases isEnd
  obtain ⟨⟨recordedState, _⟩, checkpoint, isResult⟩ := bind_eq_ok.mp applied
  cases isResult
  obtain ⟨recorded, isState, _⟩ := createCheckpointState_recorded checkpoint
  have same : state = live.lastState := by
    rw [← isState, singleton_inj.mp (append_inj' split rfl).2]
  subst same
  constructor
  · intro agree
    by_contra length
    obtain ⟨_, isRebuilt⟩ := (agree [] trivial []).mp ⟨live, rfl⟩
    obtain ⟨rebuilt, isCreated, _⟩ := bind_eq_ok.mp isRebuilt
    obtain ⟨later, inWindow, differ⟩ := recorded.toldApart admits (width ▸ positive) isCreated length
    have sameLater := agree later inWindow
    rw [rebuiltRun, isCreated] at sameLater
    exact differ sameLater
  · intro length later _
    obtain ⟨rebuilt, isCreated, alike⟩ := recorded.alike length seqNo
    rw [rebuiltRun, isCreated]
    exact alike.sameRecords later

/-- Half of a window of two commits: the rebuilt client agrees with the live one on whatever
follows. -/
theorem half_window_survives :
    let state : ClientState := ⟨7, 2, 1, 1, [0]⟩
    ∃ live, rebuiltRun 0 ⟨7, 2, 0, 0, []⟩ [.commit 1 0, .checkpoint] = .ok ([state], live) ∧
      ∀ later, InWindow ValidRequest live later →
        SameRecords (live.run later) (rebuiltRun 5 state later) :=
  ⟨_, rfl, (@rebuilt_agrees_iff _ ValidRequest (fun _ _ valid => valid) 0 5 ⟨7, 2, 0, 0, []⟩
    ⟨7, 2, 1, 1, [0]⟩ (by decide) [.commit 1 0] [] rfl).mpr rfl⟩

/-- One request of a window of three commits before a checkpoint, nothing before the next one, and
the whole window before the third: the live client records one zero byte, the rebuilt one no
mask. -/
theorem third_of_window_diverges :
    let initial : ClientState := ⟨7, 3, 0, 0, []⟩
    let later : List ClientEvent := [.checkpoint, .commit 6 1, .commit 7 2, .commit 8 3, .checkpoint]
    ∃ live state, rebuiltRun 0 initial [.commit 1 0, .checkpoint] = .ok ([state], live) ∧
      InWindow ValidRequest ⟨initial, [none, none, none]⟩ [.commit 1 0, .checkpoint] ∧
      InWindow ValidRequest live later ∧
      ¬ SameRecords (live.run later) (rebuiltRun 5 state later) := by
  refine ⟨_, _, rfl, ?_, ?_, ?_⟩
  · refine ⟨fun seqNo reqNo isCommit => ?_, fun states after _ => inWindow_checkpoint after⟩
    cases isCommit
    exact ⟨by decide, by decide⟩
  · refine ⟨fun _ _ isCommit => ClientEvent.noConfusion isCommit, fun states after applied => ?_⟩
    cases applied
    refine (@inWindow_append _ _ [.commit 6 1, .commit 7 2, .commit 8 3] [.checkpoint]).mpr
      ⟨inWindow_commits fun event member => ?_, fun _ after _ => inWindow_checkpoint after⟩
    simp only [mem_cons, not_mem_nil, or_false] at member
    rcases member with rfl | rfl | rfl
    all_goals exact ⟨_, _, rfl, by decide, by decide⟩
  · intro same
    obtain ⟨_, ran⟩ := (same _).mp ⟨_, rfl⟩
    cases ran

end CommittingClient

end MirBft
