/-
**What a client's checkpoint states stand for.**

A client's history is a set of committed request numbers that grows, and checkpoints that record it.
`ClientLedger` keeps that set and what the source keeps beside it: the low watermark, the width
consumed at the last checkpoint, and the *ceiling*, the first request number that the slice has no
entry for. The client that the code computes follows its ledger (`Tracks`), so that

* a recorded state has exactly the committed request numbers (`checkpoint_state_exact`);
* a call panics exactly when the ledger does not admit it (`stays_in_range_iff`): the ceiling starts
  one below the end of the allocated window, and a checkpoint that consumes `c` raises it by
  `width - c`, while the window moves by `c`;
* a recorded mask ends in a zero byte exactly when a run of requests without a gap has committed
  (`mask_canonical_iff`).
-/

import Mathlib.Order.Bounds.Basic
import Mathlib.Data.Set.Finite.Basic
import MirBft.Proof.ClientRestart

namespace MirBft

open List Nat

/-! ### Masks without a trailing zero -/

/-- **A canonical mask** is empty or ends in a byte that is not zero. -/
def CanonicalMask (mask : Bytes) : Prop := mask.getLast? ≠ some 0

instance (mask : Bytes) : Decidable (CanonicalMask mask) := inferInstanceAs (Decidable (_ ≠ _))

theorem byte_ext {first second : UInt8}
    (same : ∀ offset < 8, (first &&& bitOf offset != 0) = (second &&& bitOf offset != 0)) :
    first = second := by
  have restored : ∀ value < 256, (List.range 8).foldl (fun byte offset =>
      if UInt8.ofNat value &&& bitOf offset != 0 then byte ||| bitOf offset else byte) 0 =
        UInt8.ofNat value := by decide +kernel
  have ofFirst := restored first.toNat first.toNat_lt
  have ofSecond := restored second.toNat second.toNat_lt
  rw [UInt8.ofNat_toNat] at ofFirst ofSecond
  rw [← ofFirst, ← ofSecond]
  refine foldl_ext _ _ _ fun byte offset member => ?_
  rw [same offset (mem_range.mp member)]

theorem exists_bit_of_ne_zero {byte : UInt8} (nonzero : byte ≠ 0) :
    ∃ offset < 8, (byte &&& bitOf offset != 0) = true := by
  by_contra none
  refine nonzero (byte_ext fun offset inside => ?_)
  have unset : (byte &&& bitOf offset != 0) = false := by
    by_contra isSet
    exact none ⟨offset, inside, Bool.eq_true_of_not_eq_false isSet⟩
  rw [unset]
  simp

/-- The last byte of a canonical mask has a bit that is set. -/
theorem CanonicalMask.exists_bit {mask : Bytes} (canonical : CanonicalMask mask) (nonempty : mask ≠ []) :
    ∃ bit, 8 * (mask.length - 1) ≤ bit ∧ isBitSet mask bit = true := by
  have isLast : mask.getLast? = some (mask.getLast nonempty) := List.getLast?_eq_some_getLast nonempty
  have nonzero : mask.getLast nonempty ≠ 0 := fun zero => canonical (by rw [isLast, zero])
  obtain ⟨offset, inside, isSet⟩ := exists_bit_of_ne_zero nonzero
  refine ⟨8 * (mask.length - 1) + offset, by omega, ?_⟩
  rw [isBitSet_eq, show (8 * (mask.length - 1) + offset) / 8 = mask.length - 1 by omega,
    show (8 * (mask.length - 1) + offset) % 8 = offset by omega, ← List.getLast?_eq_getElem?, isLast]
  exact isSet

variable {first second : Bytes}

theorem CanonicalMask.length_le (canonical : CanonicalMask first)
    (same : ∀ bit, isBitSet first bit = isBitSet second bit) : first.length ≤ second.length := by
  by_contra longer
  have nonempty : first ≠ [] := by
    rintro rfl
    exact longer (zero_le _)
  obtain ⟨bit, far, isSet⟩ := canonical.exists_bit nonempty
  rw [same, isBitSet_of_le (by omega)] at isSet
  cases isSet

/-- **A canonical mask is determined by its bits.** -/
theorem CanonicalMask.ext (canonical : CanonicalMask first)
    (alsoCanonical : CanonicalMask second) (same : ∀ bit, isBitSet first bit = isBitSet second bit) :
    first = second := by
  have length : first.length = second.length :=
    le_antisymm (canonical.length_le same) (alsoCanonical.length_le fun bit => (same bit).symm)
  refine ext_getElem length fun index inside alsoInside => byte_ext fun offset small => ?_
  have bit := same (8 * index + offset)
  rw [isBitSet_eq, isBitSet_eq, show (8 * index + offset) / 8 = index by omega,
    show (8 * index + offset) % 8 = offset by omega, List.getElem?_eq_getElem inside,
    List.getElem?_eq_getElem alsoInside] at bit
  exact bit

namespace CommittingClient

/-! ### The ledger of a client -/

/-- **What a client's history comes to.** -/
structure ClientLedger where
  width : Nat
  lowWatermark : Nat
  widthConsumed : Nat
  /-- The first request number that there is no entry for. -/
  ceiling : Nat
  committed : Finset Nat

namespace ClientLedger

/-- The ledger of a client that starts from a recorded state. -/
def new (state : ClientState) : ClientLedger where
  width := state.width
  lowWatermark := state.lowWatermark
  widthConsumed := state.widthConsumedLastCheckpoint
  ceiling := state.lowWatermark + state.width
  committed := (Finset.range (state.lowWatermark + state.width + 1)).filter (isCommitted · state)

/-- The least request number that is not committed. -/
def firstUncommitted (ledger : ClientLedger) : Nat :=
  Nat.find (Infinite.exists_notMem_finset ledger.committed)

/-- Nothing of the slice has committed. -/
def Idle (ledger : ClientLedger) : Prop := ∀ reqNo ∈ ledger.committed, reqNo < ledger.lowWatermark

instance (ledger : ClientLedger) : Decidable ledger.Idle := inferInstanceAs (Decidable (∀ _ ∈ _, _))

/-- What an event does: a checkpoint consumes the committed requests up to the first gap. -/
def apply (ledger : ClientLedger) : ClientEvent → ClientLedger
  | .commit _ reqNo => { ledger with committed := insert reqNo ledger.committed }
  | .checkpoint =>
    if ledger.Idle then { ledger with widthConsumed := 0 }
    else if ledger.ceiling ≤ ledger.firstUncommitted then
      { ledger with lowWatermark := ledger.ceiling, widthConsumed := ledger.width }
    else
      let consumed := ledger.firstUncommitted - ledger.lowWatermark
      { ledger with
        lowWatermark := ledger.firstUncommitted, widthConsumed := consumed
        ceiling := ledger.ceiling + (ledger.width - consumed) }

/-- **The event finds room**: a commit is below the ceiling; a checkpoint that consumes something
leaves a gap and consumes at most the width, or all up to the ceiling and then what the last one
left of the width. -/
def Admits (ledger : ClientLedger) : ClientEvent → Prop
  | .commit _ reqNo => reqNo < ledger.ceiling
  | .checkpoint => ledger.Idle ∨
    (ledger.firstUncommitted < ledger.ceiling ∧
      ledger.firstUncommitted ≤ ledger.lowWatermark + ledger.width) ∨
    (ledger.ceiling ≤ ledger.firstUncommitted ∧
      ledger.ceiling + ledger.widthConsumed = ledger.lowWatermark + ledger.width)

/-- **A run of requests without a gap has committed**, and the slice goes on after it. -/
def GapFree (ledger : ClientLedger) : Prop :=
  ¬ ledger.Idle ∧ ledger.firstUncommitted < ledger.ceiling ∧
    ∀ reqNo ∈ ledger.committed, reqNo < ledger.firstUncommitted

end ClientLedger

/-- The ledger after a history. -/
def ledger (initial : ClientState) (events : List ClientEvent) : ClientLedger :=
  events.foldl ClientLedger.apply (.new initial)

theorem ledger_concat (initial : ClientState) (events : List ClientEvent) (event : ClientEvent) :
    ledger initial (events ++ [event]) = (ledger initial events).apply event := by
  rw [ledger, foldl_append]
  rfl

/-- The request numbers that commit in a history. -/
def commits (events : List ClientEvent) : List Nat :=
  events.filterMap fun
    | .commit _ reqNo => some reqNo
    | .checkpoint => none

theorem mem_apply_committed {ledger : ClientLedger} {event : ClientEvent} {reqNo : Nat} :
    reqNo ∈ (ledger.apply event).committed ↔ reqNo ∈ ledger.committed ∨ reqNo ∈ commits [event] := by
  cases event with
  | commit seqNo other =>
    show reqNo ∈ insert other ledger.committed ↔ _ ∨ reqNo ∈ [other]
    rw [Finset.mem_insert, mem_singleton, or_comm]
  | checkpoint =>
    have same : (ledger.apply .checkpoint).committed = ledger.committed := by
      simp only [ClientLedger.apply]
      split
      · rfl
      split
      · rfl
      · rfl
    rw [same]
    exact (or_iff_left (not_mem_nil)).symm

variable {initial : ClientState}

/-- **The ledger has what was committed at the start and what has committed since.** -/
theorem mem_ledger_committed {events : List ClientEvent} {reqNo : Nat} :
    reqNo ∈ (ledger initial events).committed ↔
      isCommitted reqNo initial = true ∨ reqNo ∈ commits events := by
  induction events using List.reverseRecOn with
  | nil =>
    show reqNo ∈ (Finset.range _).filter (isCommitted · initial) ↔ _ ∨ reqNo ∈ []
    rw [Finset.mem_filter, Finset.mem_range, or_iff_left not_mem_nil]
    refine and_iff_right_of_imp fun isIn => ?_
    by_contra beyond
    rw [isCommitted, if_neg (by omega), if_pos (by omega)] at isIn
    cases isIn
  | append_singleton events event ih =>
    rw [ledger_concat, mem_apply_committed, ih, commits, commits, commits, filterMap_append,
      mem_append, or_assoc]

/-! ### The client follows its ledger -/

/-- **The client is the one that the ledger describes.** -/
structure Tracks (ledger : ClientLedger) (cc : CommittingClient) : Prop where
  width : cc.lastState.width = ledger.width
  lowWatermark : cc.lastState.lowWatermark = ledger.lowWatermark
  widthConsumed : cc.lastState.widthConsumedLastCheckpoint = ledger.widthConsumed
  ceiling : ledger.ceiling = ledger.lowWatermark + cc.committedSinceLastCheckpoint.length
  below : ∀ reqNo < ledger.lowWatermark, reqNo ∈ ledger.committed
  marks : ∀ offset, ledger.lowWatermark + offset ∈ ledger.committed ↔
    isMarked cc.committedSinceLastCheckpoint offset = true

theorem tracks_new {seqNo : Nat} {cc : CommittingClient}
    (created : newCommittingClient seqNo initial = .ok cc) : Tracks (.new initial) cc := by
  obtain ⟨rfl, length, marks⟩ := newCommittingClient_eq_ok created
  have committed (reqNo : Nat) :
      reqNo ∈ (ClientLedger.new cc.lastState).committed ↔ isCommitted reqNo cc.lastState = true := by
    have member := @mem_ledger_committed cc.lastState [] reqNo
    exact member.trans (or_iff_left not_mem_nil)
  refine ⟨rfl, rfl, rfl, by rw [length]; rfl, fun reqNo low => ?_, fun offset => ?_⟩
  · rw [committed]
    exact if_pos low
  · show cc.lastState.lowWatermark + offset ∈ _ ↔ _
    rw [committed, isCommitted, if_neg (by omega), Nat.add_sub_cancel_left, ← marks]
    by_cases beyond : cc.lastState.lowWatermark + offset > cc.lastState.lowWatermark + cc.lastState.width
    · rw [if_pos beyond]
      refine ⟨fun isFalse => (nomatch isFalse), fun isSet => ?_⟩
      have inside := isMarked.lt_length isSet
      omega
    · rw [if_neg beyond]

namespace Tracks

variable {ledger : ClientLedger} {cc : CommittingClient} {seqNo reqNo : Nat} {states : List ClientState}
  {after : CommittingClient}

variable (tracks : Tracks ledger cc)
include tracks

theorem idle_iff :
    ledger.Idle ↔ Blank cc.committedSinceLastCheckpoint := by
  constructor
  · intro idle offset
    by_contra isSet
    have low := idle _ ((tracks.marks offset).mpr (Bool.eq_true_of_not_eq_false isSet))
    omega
  · intro blank reqNo member
    by_contra high
    have isSet := (tracks.marks (reqNo - ledger.lowWatermark)).mp (by
      rwa [Nat.add_sub_cancel' (Nat.not_lt.mp high)])
    rw [blank] at isSet
    cases isSet

/-- The first entry that is not set is the first uncommitted request's. -/
theorem firstUncommitted_eq {consumed : Nat}
    (first : FirstUnset cc.committedSinceLastCheckpoint consumed) :
    ledger.firstUncommitted = ledger.lowWatermark + consumed := by
  refine (find_eq_iff _).mpr ⟨fun member => ?_, fun reqNo less => ?_⟩
  · have isSet := (tracks.marks consumed).mp member
    rw [first.unset] at isSet
    cases isSet
  · rw [not_not]
    by_cases low : reqNo < ledger.lowWatermark
    · exact tracks.below reqNo low
    · have isSet := first.before (reqNo - ledger.lowWatermark) (by omega)
      have member := (tracks.marks _).mpr isSet
      rwa [Nat.add_sub_cancel' (Nat.not_lt.mp low)] at member

theorem ceiling_le (full : ∀ offset < cc.committedSinceLastCheckpoint.length,
    isMarked cc.committedSinceLastCheckpoint offset = true) :
    ledger.ceiling ≤ ledger.firstUncommitted := by
  refine (le_find_iff _ _).mpr fun reqNo less => ?_
  rw [not_not]
  by_cases low : reqNo < ledger.lowWatermark
  · exact tracks.below reqNo low
  · have room := tracks.ceiling
    have member := (tracks.marks _).mpr (full (reqNo - ledger.lowWatermark) (by omega))
    rwa [Nat.add_sub_cancel' (Nat.not_lt.mp low)] at member

/-! ### Each event -/

theorem commit
    (applied : cc.apply (.commit seqNo reqNo) = .ok (states, after)) :
    Tracks (ledger.apply (.commit seqNo reqNo)) after := by
  obtain ⟨_, marked, isResult⟩ := bind_eq_ok.mp applied
  cases isResult
  obtain ⟨high, inside, rfl⟩ := markCommitted_eq_ok.mp marked
  rw [tracks.lowWatermark] at high inside ⊢
  refine ⟨tracks.width, tracks.lowWatermark, tracks.widthConsumed, ?_, fun other low => ?_, fun offset => ?_⟩
  · rw [length_set]
    exact tracks.ceiling
  · exact Finset.mem_insert_of_mem (tracks.below other low)
  · show ledger.lowWatermark + offset ∈ insert reqNo ledger.committed ↔ _
    rw [Finset.mem_insert, isMarked.set inside, Bool.or_eq_true, decide_eq_true_eq, tracks.marks, or_comm]
    refine or_congr_right ⟨fun same => ?_, fun same => ?_⟩
    · omega
    · omega

theorem checkpoint
    (applied : cc.apply .checkpoint = .ok (states, after)) : Tracks (ledger.apply .checkpoint) after := by
  obtain ⟨⟨state, _⟩, created, isResult⟩ := bind_eq_ok.mp applied
  cases isResult
  have ceiling := tracks.ceiling
  cases checkpointed created with
  | idle blank =>
    rw [ClientLedger.apply, if_pos (tracks.idle_iff.mpr blank)]
    exact ⟨tracks.width, tracks.lowWatermark, rfl, tracks.ceiling, tracks.below, tracks.marks⟩
  | full busy full _ =>
    rw [ClientLedger.apply, if_neg (mt tracks.idle_iff.mp busy), if_pos (tracks.ceiling_le full)]
    refine ⟨tracks.width, ?_, tracks.width, rfl, fun reqNo low => ?_, fun offset => ?_⟩
    · show cc.lastState.lowWatermark + _ = ledger.ceiling
      rw [ceiling, tracks.lowWatermark]
    · have below := tracks.ceiling_le full
      have uncommitted := Nat.find_min (Infinite.exists_notMem_finset ledger.committed)
        (lt_of_lt_of_le low below)
      rwa [not_not] at uncommitted
    · -- There is no entry above the ceiling.
      refine ⟨fun member => ?_, fun isSet => (by cases isSet)⟩
      have isSet := (tracks.marks (cc.committedSinceLastCheckpoint.length + offset)).mp (by
        rw [← add_assoc, ← ceiling]
        exact member)
      have inside := isMarked.lt_length isSet
      omega
  | @part count _ _ first _ _ _ isState =>
    subst isState
    have isFirst := tracks.firstUncommitted_eq first
    have inside := first.inside
    rw [ClientLedger.apply, if_neg (mt tracks.idle_iff.mp first.marked), if_neg (by omega), isFirst,
      Nat.add_sub_cancel_left]
    refine ⟨tracks.width, ?_, rfl, ?_, fun reqNo low => ?_, fun offset => ?_⟩
    · rw [tracks.lowWatermark]
    · show ledger.ceiling + (ledger.width - count) = ledger.lowWatermark + count + _
      rw [remaining, length_append, length_drop, length_replicate, tracks.width]
      omega
    · have uncommitted := Nat.find_min (Infinite.exists_notMem_finset ledger.committed)
        (show reqNo < ledger.firstUncommitted by rw [isFirst]; exact low)
      rwa [not_not] at uncommitted
    · rw [isMarked_remaining, ← tracks.marks]
      rw [add_assoc]

/-- **The client goes on following its ledger.** -/
theorem apply {event : ClientEvent}
    (applied : cc.apply event = .ok (states, after)) :
    Tracks (ledger.apply event) after := by
  cases event with
  | commit seqNo reqNo => exact tracks.commit applied
  | checkpoint => exact tracks.checkpoint applied

/-- **A commit panics exactly when it is not below the ceiling.** -/
theorem commit_isOk (high : ledger.lowWatermark ≤ reqNo) :
    (∃ result, cc.apply (.commit seqNo reqNo) = .ok result) ↔ ledger.Admits (.commit seqNo reqNo) := by
  have ceiling := tracks.ceiling
  show _ ↔ reqNo < ledger.ceiling
  constructor
  · rintro ⟨result, applied⟩
    obtain ⟨_, marked, _⟩ := bind_eq_ok.mp applied
    obtain ⟨_, inside, _⟩ := markCommitted_eq_ok.mp marked
    rw [tracks.lowWatermark] at inside
    omega
  · intro low
    refine ⟨_, bind_eq_ok.mpr ⟨_, markCommitted_eq_ok.mpr ⟨?_, ?_, rfl⟩, rfl⟩⟩
    · rw [tracks.lowWatermark]
      exact high
    · rw [tracks.lowWatermark]
      omega

/-- **A checkpoint panics exactly when the ledger does not admit it.** -/
theorem checkpoint_isOk :
    (∃ result, cc.apply .checkpoint = .ok result) ↔ ledger.Admits .checkpoint := by
  have ceiling := tracks.ceiling
  have created : (∃ result, cc.apply .checkpoint = .ok result) ↔
      ∃ result, cc.createCheckpointState = .ok result :=
    ⟨fun ⟨_, applied⟩ => have ⟨result, isResult, _⟩ := bind_eq_ok.mp applied; ⟨result, isResult⟩,
      fun ⟨_, isResult⟩ => ⟨_, bind_eq_ok.mpr ⟨_, isResult, rfl⟩⟩⟩
  rw [created]
  show _ ↔ ledger.Idle ∨ _
  by_cases idle : ledger.Idle
  · rw [createCheckpointState_blank (tracks.idle_iff.mp idle)]
    exact ⟨fun _ => .inl idle, fun _ => ⟨_, rfl⟩⟩
  rw [or_iff_right idle]
  rcases (blank_or_full_or_firstUnset _).resolve_left (mt tracks.idle_iff.mpr idle) with ⟨nonempty,
    full⟩ | ⟨count, first⟩
  · have above := tracks.ceiling_le full
    rw [createCheckpointState_full nonempty full, tracks.widthConsumed, tracks.width]
    by_cases exactly : cc.committedSinceLastCheckpoint.length + ledger.widthConsumed = ledger.width
    · rw [if_neg (not_not.mpr exactly)]
      exact ⟨fun _ => .inr ⟨above, by omega⟩, fun _ => ⟨_, rfl⟩⟩
    · rw [if_pos exactly]
      refine ⟨fun ⟨_, isOk⟩ => (nomatch isOk), fun admitted => ?_⟩
      omega
  · have isFirst := tracks.firstUncommitted_eq first
    have inside := first.inside
    by_cases narrow : count ≤ cc.lastState.width
    · obtain ⟨mask, isCreated, _, _⟩ := createCheckpointState_firstUnset first narrow
      rw [isCreated]
      rw [tracks.width] at narrow
      exact ⟨fun _ => .inl ⟨by omega, by omega⟩, fun _ => ⟨_, rfl⟩⟩
    · rw [createCheckpointState_wide first (by omega)]
      rw [tracks.width] at narrow
      refine ⟨fun ⟨_, isOk⟩ => (nomatch isOk), fun admitted => ?_⟩
      omega

end Tracks

/-! ### Histories in the allocated window -/

/-- The request numbers that `client.allocate` and `client.reinitialize` create for a client
state. -/
def AllocatedWindow (state : ClientState) (reqNo : Nat) : Prop :=
  state.lowWatermark ≤ reqNo ∧ reqNo ≤ state.lowWatermark + state.width

/-- What commits is in the allocated window of the client's last state. -/
def Allocated (cc : CommittingClient) : ClientEvent → Prop
  | .commit _ reqNo => AllocatedWindow cc.lastState reqNo
  | .checkpoint => True

/-- **The client that a history leads to**: it started from a client state, and nothing panicked. -/
inductive Reached (initial : ClientState) : List ClientEvent → CommittingClient → Prop
  | start {seqNo : Nat} {cc : CommittingClient} (created : newCommittingClient seqNo initial = .ok cc) :
      Reached initial [] cc
  | step {events : List ClientEvent} {cc after : CommittingClient} {event : ClientEvent}
      {states : List ClientState} (reached : Reached initial events cc) (allocated : Allocated cc event)
      (applied : cc.apply event = .ok (states, after)) : Reached initial (events ++ [event]) after

instance (cc : CommittingClient) (event : ClientEvent) : Decidable (Allocated cc event) :=
  match event with
  | .commit _ reqNo => inferInstanceAs (Decidable (_ ≤ reqNo ∧ reqNo ≤ _))
  | .checkpoint => isTrue trivial

/-- A history in the allocated window, run from a client state. -/
def execute (initial : ClientState) (events : List ClientEvent) : Go CommittingClient := do
  let cc ← newCommittingClient 0 initial
  events.foldlM (fun cc event =>
    if Allocated cc event then do
      let (_, after) ← cc.apply event
      pure after
    else throw "not in the allocated window") cc

namespace Reached

variable {initial : ClientState} {events : List ClientEvent} {cc : CommittingClient}

theorem tracks (reached : Reached initial events cc) : Tracks (ledger initial events) cc := by
  induction reached with
  | start created => exact tracks_new created
  | step _ _ applied tracks =>
    rw [ledger_concat]
    exact tracks.apply applied

theorem of_execute (ran : execute initial events = .ok cc) : Reached initial events cc := by
  obtain ⟨first, created, continued⟩ := bind_eq_ok.mp ran
  induction events using List.reverseRecOn generalizing cc with
  | nil =>
    cases continued
    exact .start created
  | append_singleton events event ih =>
    rw [foldlM_append] at continued
    obtain ⟨before, earlier, last⟩ := bind_eq_ok.mp continued
    rw [foldlM_cons] at last
    obtain ⟨middle, stepped, isEnd⟩ := bind_eq_ok.mp last
    cases isEnd
    have reached := ih (bind_eq_ok.mpr ⟨first, created, earlier⟩) earlier
    by_cases allocated : Allocated before event
    · rw [if_pos allocated] at stepped
      obtain ⟨⟨states, after⟩, applied, isResult⟩ := bind_eq_ok.mp stepped
      cases isResult
      exact reached.step allocated applied
    · rw [if_neg allocated] at stepped
      cases stepped

theorem low_le_apply {ledger : ClientLedger} (tracks : Tracks ledger cc) (event : ClientEvent) :
    ledger.lowWatermark ≤ (ledger.apply event).lowWatermark ∧ (ledger.apply event).width = ledger.width := by
  cases event with
  | commit seqNo reqNo => exact ⟨le_refl _, rfl⟩
  | checkpoint =>
    simp only [ClientLedger.apply]
    split
    · exact ⟨le_refl _, rfl⟩
    split
    · refine ⟨?_, rfl⟩
      rw [tracks.ceiling]
      exact le_add_right _ _
    · refine ⟨(le_find_iff _ _).mpr fun reqNo low => ?_, rfl⟩
      exact not_not.mpr (tracks.below reqNo low)

theorem committed_le (reached : Reached initial events cc) :
    ∀ reqNo ∈ (ledger initial events).committed,
      reqNo ≤ (ledger initial events).lowWatermark + (ledger initial events).width := by
  induction reached with
  | start created =>
    intro reqNo member
    exact Nat.lt_succ_iff.mp (Finset.mem_range.mp (Finset.mem_filter.mp member).1)
  | @step events cc after event states reached allocated applied ih =>
    obtain ⟨low, width⟩ := low_le_apply reached.tracks event
    intro reqNo member
    rw [ledger_concat, mem_apply_committed] at member
    rw [ledger_concat]
    rcases member with member | member
    · have bound := ih reqNo member
      omega
    · cases event with
      | checkpoint => cases member
      | commit seqNo other =>
        obtain rfl := mem_singleton.mp member
        have top := allocated.2
        rw [reached.tracks.lowWatermark, reached.tracks.width] at top
        omega

variable {state : ClientState} {after : CommittingClient}

theorem checkpoint (reached : Reached initial events cc)
    (created : cc.createCheckpointState = .ok (state, after)) :
    Reached initial (events ++ [.checkpoint]) after :=
  reached.step trivial (bind_eq_ok.mpr ⟨_, created, rfl⟩)

theorem isCommitted_iff (reached : Reached initial events cc)
    (created : cc.createCheckpointState = .ok (state, after)) (reqNo : Nat) :
    isCommitted reqNo state = true ↔ reqNo ∈ (ledger initial events).committed := by
  obtain ⟨recorded, rfl, _⟩ := createCheckpointState_recorded created
  have next := reached.checkpoint created
  have tracks := next.tracks
  have same : reqNo ∈ (ledger initial (events ++ [.checkpoint])).committed ↔
      reqNo ∈ (ledger initial events).committed := by
    rw [ledger_concat, mem_apply_committed]
    exact or_iff_left not_mem_nil
  rw [← same, isCommitted]
  by_cases low : reqNo < after.lastState.lowWatermark
  · rw [if_pos low]
    rw [tracks.lowWatermark] at low
    exact ⟨fun _ => tracks.below reqNo low, fun _ => rfl⟩
  rw [if_neg low]
  by_cases high : reqNo > after.lastState.lowWatermark + after.lastState.width
  · rw [if_pos high]
    rw [tracks.lowWatermark, tracks.width] at high
    exact ⟨fun isFalse => (nomatch isFalse), fun member => absurd (next.committed_le reqNo member) (by omega)⟩
  · rw [if_neg high, recorded.bits, ← tracks.marks, ← tracks.lowWatermark,
      Nat.add_sub_cancel' (Nat.not_lt.mp low)]

end Reached

variable {initial state : ClientState} {events : List ClientEvent} {cc after : CommittingClient}
  {committed : List (Option Nat)}

/-! ### Recorded states are exact -/

/-- The low watermark of a recorded state is the least request number that the state does not
have. -/
theorem isLeast_lowWatermark (created : cc.createCheckpointState = .ok (state, after)) :
    IsLeast {reqNo | ¬ isCommitted reqNo state = true} state.lowWatermark := by
  refine ⟨?_, fun reqNo uncommitted => ?_⟩
  · obtain ⟨recorded, rfl, _⟩ := createCheckpointState_recorded created
    show ¬ _
    rw [isCommitted, if_neg (Nat.lt_irrefl _), if_neg (by omega), Nat.sub_self, recorded.bits,
      recorded.firstUnset]
    exact Bool.false_ne_true
  · by_contra below
    refine uncommitted ?_
    rw [isCommitted, if_pos (not_le.mp below)]

/-- **A recorded client state has exactly the committed request numbers**: those committed in the
initial state and those that have committed since. Its low watermark is the least one that is not
committed. -/
theorem checkpoint_state_exact (reached : Reached initial events cc)
    (created : cc.createCheckpointState = .ok (state, after)) :
    (∀ reqNo, isCommitted reqNo state = true ↔
      isCommitted reqNo initial = true ∨ reqNo ∈ commits events) ∧
    IsLeast {reqNo | ¬ (isCommitted reqNo initial = true ∨ reqNo ∈ commits events)} state.lowWatermark := by
  have exact (reqNo : Nat) : isCommitted reqNo state = true ↔
      isCommitted reqNo initial = true ∨ reqNo ∈ commits events :=
    (reached.isCommitted_iff created reqNo).trans mem_ledger_committed
  refine ⟨exact, ?_⟩
  have least := isLeast_lowWatermark created
  simp only [exact] at least
  exact least

/-- Two requests commit out of order, and one more above a gap. -/
theorem checkpoint_state_exact_gap :
    let events : List ClientEvent := [.commit 1 6, .commit 2 5, .checkpoint, .commit 3 9]
    ∃ cc state after, Reached ⟨7, 4, 0, 5, []⟩ events cc ∧ cc.createCheckpointState = .ok (state, after) ∧
      ∀ reqNo, isCommitted reqNo state = true ↔
        isCommitted reqNo ⟨7, 4, 0, 5, []⟩ = true ∨ reqNo ∈ commits events := by
  have reached : Reached ⟨7, 4, 0, 5, []⟩ [.commit 1 6, .commit 2 5, .checkpoint, .commit 3 9] _ :=
    .of_execute rfl
  exact ⟨_, _, _, reached, rfl, (checkpoint_state_exact reached rfl).1⟩

/-! ### Calls that stay in range -/

/-- **When a client's calls stay in range.** A client can be made from a state exactly when every
bit of its mask is below the width. After any history in the allocated window, a commit or a
checkpoint does not panic exactly when the ledger of that history admits it. -/
theorem stays_in_range_iff {event : ClientEvent} (reached : Reached initial events cc)
    (allocated : Allocated cc event) :
    ((∃ result, cc.apply event = .ok result) ↔ (ledger initial events).Admits event) ∧
    ∀ seqNo (recorded : ClientState), (∃ rebuilt, newCommittingClient seqNo recorded = .ok rebuilt) ↔
      ∀ bit, isBitSet recorded.committedMask bit = true → bit < recorded.width := by
  refine ⟨?_, fun seqNo recorded => ⟨?_, newCommittingClient_isOk seqNo⟩⟩
  · cases event with
    | commit seqNo reqNo =>
      refine reached.tracks.commit_isOk ?_
      rw [← reached.tracks.lowWatermark]
      exact allocated.1
    | checkpoint => exact reached.tracks.checkpoint_isOk
  · rintro ⟨rebuilt, created⟩ bit isSet
    obtain ⟨_, length, marks⟩ := newCommittingClient_eq_ok created
    rw [← length]
    exact isMarked.lt_length ((marks bit).trans isSet)

/-- Two of four requests commit and are consumed: the ledger admits the number five, and not the
last one of the window. -/
theorem half_consumed_in_range :
    let history := ledger ⟨7, 4, 0, 0, []⟩ [.commit 1 0, .commit 2 1, .checkpoint]
    ∃ cc, Reached ⟨7, 4, 0, 0, []⟩ [.commit 1 0, .commit 2 1, .checkpoint] cc ∧
      ((∃ result, cc.apply (.commit 3 5) = .ok result) ∧ history.Admits (.commit 3 5)) ∧
      (¬ ∃ result, cc.apply (.commit 3 6) = .ok result) ∧ ¬ history.Admits (.commit 3 6) := by
  have reached : Reached ⟨7, 4, 0, 0, []⟩ [.commit 1 0, .commit 2 1, .checkpoint] _ := .of_execute rfl
  have admitted := (@stays_in_range_iff _ _ _ (.commit 3 5) reached ⟨by decide, by decide⟩).1
  have refused := (@stays_in_range_iff _ _ _ (.commit 3 6) reached ⟨by decide, by decide⟩).1
  exact ⟨_, reached, ⟨⟨_, rfl⟩, admitted.mp ⟨_, rfl⟩⟩, nofun, refused.not.mp nofun⟩

/-- The last request of the allocated window has no entry, whatever the width. Nor has one in the
middle of the window after a checkpoint that consumes more than half of the width; and a state that
such a client records for requests up to the end of its window cannot be started from. -/
theorem leaves_its_range :
    (∃ cc, Reached ⟨7, 1, 0, 0, []⟩ [] cc ∧ Allocated cc (.commit 1 1) ∧
      cc.apply (.commit 1 1) = .error "index out of range: committedSinceLastCheckpoint") ∧
    (∃ cc, Reached ⟨7, 3, 0, 0, []⟩ [.commit 1 0, .commit 2 1, .checkpoint] cc ∧
      Allocated cc (.commit 3 4) ∧
      cc.apply (.commit 3 4) = .error "index out of range: committedSinceLastCheckpoint") ∧
    ∃ cc, Reached ⟨7, 2, 0, 0, []⟩ [.commit 1 1, .checkpoint, .commit 2 2, .checkpoint] cc ∧
      newCommittingClient 2 cc.lastState = .error "index out of range: committedSinceLastCheckpoint" := by
  refine ⟨⟨_, .of_execute rfl, ⟨by decide, by decide⟩, rfl⟩,
    ⟨_, .of_execute rfl, ⟨by decide, by decide⟩, rfl⟩, ⟨_, .of_execute rfl, rfl⟩⟩

/-! ### Canonical states -/

theorem fillMask_length {mask filled : Bytes} {bits : List Nat}
    (isFilled : fillMask committed mask bits = .ok filled) : filled.length = mask.length := by
  induction bits generalizing mask with
  | nil =>
    cases isFilled
    rfl
  | cons bit rest ih =>
    unfold fillMask at isFilled
    split at isFilled
    · cases isFilled
    · exact ih isFilled
    · split at isFilled
      · cases isFilled
      · obtain ⟨next, isNext, continued⟩ := bind_eq_ok.mp isFilled
        rw [ih continued]
        unfold setBit at isNext
        split at isNext
        · cases isNext
        · cases isNext
          exact length_set

/-- The mask of a checkpoint that has a committed request above the first uncommitted one. -/
theorem checkpointMask_canonical {first last : Nat} {mask : Bytes}
    (isMask : checkpointMask committed first last = .ok mask) (above : first < last)
    (isSet : isBitSet mask (last - first) = true) : CanonicalMask mask := by
  unfold checkpointMask at isMask
  rw [if_neg (by omega), if_neg (by omega)] at isMask
  have length := fillMask_length isMask
  rw [length_replicate] at length
  intro isLast
  rw [List.getLast?_eq_getElem?, length, Nat.add_sub_cancel] at isLast
  rw [isBitSet_eq, isLast] at isSet
  simp at isSet

theorem createCheckpointState_mask {consumed : Nat}
    (first : FirstUnset cc.committedSinceLastCheckpoint consumed)
    (created : cc.createCheckpointState = .ok (state, after)) :
    ∃ last, (∀ offset, isMarked cc.committedSinceLastCheckpoint offset = true → offset ≤ last) ∧
      isMarked cc.committedSinceLastCheckpoint last = true ∧
      checkpointMask (cc.remaining consumed) (cc.lastState.lowWatermark + consumed)
        (cc.lastState.lowWatermark + last) = .ok state.committedMask := by
  obtain ⟨last, isScan, marked, greatest⟩ := first.scan cc.lastState.lowWatermark
  refine ⟨last, greatest, marked, ?_⟩
  unfold createCheckpointState at created
  simp only [isScan] at created
  rw [Nat.add_sub_cancel_left] at created
  split at created
  · cases created
  · obtain ⟨mask, isMask, isResult⟩ := bind_eq_ok.mp created
    cases isResult
    exact isMask

/-- The bits of a recorded mask are the committed requests from the low watermark on. -/
theorem recordedBit (reached : Reached initial events cc)
    (created : cc.createCheckpointState = .ok (state, after)) (bit : Nat) :
    isBitSet state.committedMask bit = isCommitted (state.lowWatermark + bit) state := by
  obtain ⟨recorded, rfl, _⟩ := createCheckpointState_recorded created
  rw [isCommitted, if_neg (by omega), Nat.add_sub_cancel_left]
  split
  · rename_i beyond
    have next := reached.checkpoint created
    rw [recorded.bits]
    by_contra isSet
    have member := (next.tracks.marks bit).mpr (Bool.eq_true_of_not_eq_false isSet)
    have bound := next.committed_le _ member
    rw [next.tracks.width] at beyond
    omega
  · rfl

/-- A recorded mask is canonical unless a run of requests without a gap has committed. -/
theorem canonicalMask_iff (reached : Reached initial events cc)
    (created : cc.createCheckpointState = .ok (state, after)) :
    CanonicalMask state.committedMask ↔ ¬ (ledger initial events).GapFree := by
  have tracks := reached.tracks
  cases checkpointed created with
  | idle blank => exact ⟨fun _ gapFree => gapFree.1 (tracks.idle_iff.mpr blank), fun _ isLast =>
      (nomatch isLast)⟩
  | full _ full _ =>
    have above := tracks.ceiling_le full
    exact ⟨fun _ gapFree => absurd gapFree.2.1 (not_lt.mpr above), fun _ isLast => (nomatch isLast)⟩
  | @part count _ _ first _ bits blankMask isState =>
    obtain ⟨last, greatest, marked, isMask⟩ := createCheckpointState_mask first created
    subst isState
    have isFirst := tracks.firstUncommitted_eq first
    have ceiling := tracks.ceiling
    have inside := first.inside
    constructor
    · intro canonical gapFree
      refine canonical ?_
      rw [blankMask fun offset => ?_]
      · rfl
      · by_contra isSet
        rw [isMarked_remaining] at isSet
        have member := (tracks.marks _).mpr (Bool.eq_true_of_not_eq_false isSet)
        have below := gapFree.2.2 _ member
        omega
    · intro gap
      have above : count < last := by
        by_contra low
        refine gap ⟨mt tracks.idle_iff.mp first.marked, by omega, fun reqNo member => ?_⟩
        by_contra high
        have isSet := (tracks.marks (reqNo - (ledger initial events).lowWatermark)).mp (by
          rwa [Nat.add_sub_cancel' (by omega)])
        have atMost := greatest _ isSet
        have isCount : reqNo - (ledger initial events).lowWatermark = count := by omega
        rw [isCount, first.unset] at isSet
        cases isSet
      refine checkpointMask_canonical isMask (by omega) ?_
      rw [bits, isMarked_remaining, Nat.add_sub_add_left, Nat.add_sub_cancel' above.le, marked]

/-- **When a client's states are canonical.** A recorded mask is empty or ends in a byte that is not
zero exactly when what has committed is not a run without a gap that the slice goes on after. Two
states that are recorded in such situations, in whatever histories, are equal as soon as they have
the same id, width, consumed width and committed request numbers. -/
theorem mask_canonical_iff (reached : Reached initial events cc)
    (created : cc.createCheckpointState = .ok (state, after)) :
    (CanonicalMask state.committedMask ↔ ¬ (ledger initial events).GapFree) ∧
    ∀ {otherInitial other : ClientState} {otherEvents : List ClientEvent}
      {otherClient otherAfter : CommittingClient}, Reached otherInitial otherEvents otherClient →
      otherClient.createCheckpointState = .ok (other, otherAfter) →
      ¬ (ledger initial events).GapFree → ¬ (ledger otherInitial otherEvents).GapFree →
      state.id = other.id → state.width = other.width →
      state.widthConsumedLastCheckpoint = other.widthConsumedLastCheckpoint →
      (∀ reqNo, isCommitted reqNo state = isCommitted reqNo other) → state = other := by
  refine ⟨canonicalMask_iff reached created, ?_⟩
  intro otherInitial other otherEvents otherClient otherAfter otherReached otherCreated gap otherGap id width
    consumed same
  have low : state.lowWatermark = other.lowWatermark := by
    have otherLeast := isLeast_lowWatermark otherCreated
    simp only [← same] at otherLeast
    exact (isLeast_lowWatermark created).unique otherLeast
  have bits (bit : Nat) : isBitSet state.committedMask bit = isBitSet other.committedMask bit := by
    rw [recordedBit reached created, recordedBit otherReached otherCreated, low, same]
  have mask : state.committedMask = other.committedMask :=
    ((canonicalMask_iff reached created).mpr gap).ext
      ((canonicalMask_iff otherReached otherCreated).mpr otherGap) bits
  cases state
  cases other
  simp only [ClientState.mk.injEq]
  exact ⟨id, width, consumed, low, mask⟩

/-- The second and the fourth request of a window commit, above a gap: the mask ends in a byte that
is not zero. -/
theorem canonical_above_gap :
    ∃ cc state after, Reached ⟨7, 4, 0, 0, []⟩ [.commit 1 1, .checkpoint, .commit 2 3] cc ∧
      cc.createCheckpointState = .ok (state, after) ∧ state.committedMask ≠ [] ∧
      CanonicalMask state.committedMask := by
  have reached : Reached ⟨7, 4, 0, 0, []⟩ [.commit 1 1, .checkpoint, .commit 2 3] _ := .of_execute rfl
  have gap : ¬ (ledger ⟨7, 4, 0, 0, []⟩ [.commit 1 1, .checkpoint, .commit 2 3]).GapFree := by
    rintro ⟨_, _, below⟩
    have above := below 1 (mem_ledger_committed.mpr (by decide))
    refine Nat.find_min _ (Nat.zero_lt_one.trans above) fun member => ?_
    exact absurd (mem_ledger_committed.mp member) (by decide)
  exact ⟨_, _, _, reached, rfl, by decide, (mask_canonical_iff reached rfl).1.mpr gap⟩

/-- Both requests of a window of two commit, at once or one after the other: the recorded states
have the same id, width, consumed width and committed requests, and one has an empty mask, the other
one zero byte. -/
theorem masks_differ :
    ∃ first second firstAfter secondAfter state other,
      Reached ⟨7, 2, 0, 0, []⟩ [.commit 1 0, .commit 2 1] first ∧
      first.createCheckpointState = .ok (state, firstAfter) ∧
      Reached ⟨7, 2, 0, 0, []⟩ [.commit 1 1, .checkpoint, .commit 2 0] second ∧
      second.createCheckpointState = .ok (other, secondAfter) ∧
      state.id = other.id ∧ state.width = other.width ∧
      state.widthConsumedLastCheckpoint = other.widthConsumedLastCheckpoint ∧
      (∀ reqNo, isCommitted reqNo state = isCommitted reqNo other) ∧
      CanonicalMask state.committedMask ∧ ¬ CanonicalMask other.committedMask := by
  refine ⟨_, _, _, _, _, _, .of_execute rfl, rfl, .of_execute rfl, rfl, rfl, rfl, rfl, fun reqNo => ?_,
    by decide, by decide⟩
  have unset : isBitSet [] (reqNo - 2) = isBitSet [0] (reqNo - 2) :=
    (isBitSet_zeros 0 _).trans (isBitSet_zeros 1 _).symm
  show (if reqNo < 2 then _ else if reqNo > 4 then _ else isBitSet [] (reqNo - 2)) =
    if reqNo < 2 then _ else if reqNo > 4 then _ else isBitSet [0] (reqNo - 2)
  rw [unset]

end CommittingClient

end MirBft
