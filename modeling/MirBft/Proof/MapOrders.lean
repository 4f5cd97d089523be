/-
**Whether the new epoch depends on the order of maps.**

`constructNewEpochConfig` ranges over maps in six places, and Go takes another order each time.
`constructInOrders` has all of them as a parameter. The counts do not depend on it
(`constructInOrders_eq`); the loop over the checkpoints keeps the highest one so far, and panics at
a second one of that height.

`order_independent_iff`: the outcome is the same for all orders if and only if checkpoints of one
height that may be selected are there at the highest height, or nowhere. In between it depends on
the order whether the loop has already passed them.
-/

import MirBft.Proof.FourNodes
import MirBft.Proof.StartingCheckpoint

namespace MirBft

open List

/-! ### Every loop with an order of its own -/

/-- The `range` loops over maps, by what they are executed for. -/
inductive RangeLoop where
  | checkpoints
  | lowWatermarks (key : Checkpoint)
  | a1 (seqNo : Nat) (id : NodeID)
  | a2 (seqNo : Nat) (id : NodeID)
  | views (seqNo : Nat) (id other : NodeID)
  | b (seqNo : Nat)

section Orders

variable (orders : RangeLoop → MapIter) (config : NetworkConfig)
  (epochChanges : GoMap NodeID ParsedEpochChange)

/-- A loop over the epoch changes that increments a counter. -/
def rangeCount (iter : MapIter) (counts : NodeID → ParsedEpochChange → Bool) : Nat :=
  (iter.run epochChanges.entries).foldl
  (fun count entry => if counts entry.1 entry.2 then count + 1 else count) 0

/-- The loop over the checkpoints. -/
def selectCheckpointInOrders :
    List (Σ _ : Checkpoint, List NodeID) → Option Checkpoint → Go (Option Checkpoint)
  | [], maxCheckpoint => pure maxCheckpoint
  | ⟨key, supporters⟩ :: rest, maxCheckpoint =>
    if supporters.length < someCorrectQuorum config then selectCheckpointInOrders rest maxCheckpoint
    else if rangeCount epochChanges (orders (.lowWatermarks key))
        (fun _ change => decide (change.lowWatermark ≤ key.seqNo)) < intersectionQuorum config then
      selectCheckpointInOrders rest maxCheckpoint
    else match maxCheckpoint with
      | none => selectCheckpointInOrders rest (some key)
      | some highest =>
        if highest.seqNo > key.seqNo then selectCheckpointInOrders rest maxCheckpoint
        else if highest.seqNo = key.seqNo then
          throw "two correct quorums have different checkpoints for same seqno"
        else selectCheckpointInOrders rest (some key)

/-- The loop over the nodes for one sequence number. The loop over the views of a node ends at the
first that supports the entry. -/
def selectEntryInOrders (seqNo : Nat) : List NodeID → Option SetEntry
  | [] => none
  | id :: rest =>
    match (epochChanges.lookup id).bind fun epochChange => epochChange.pSet seqNo with
    | none => selectEntryInOrders seqNo rest
    | some entry =>
      if rangeCount epochChanges (orders (.a1 seqNo id)) (fun _ => a1Supports entry seqNo) <
        intersectionQuorum config then selectEntryInOrders seqNo rest
      else if rangeCount epochChanges (orders (.a2 seqNo id)) (fun other change =>
          ((orders (.views seqNo id other)).run (change.qSet seqNo)).any fun view =>
            !decide (view.1 < entry.epoch) && entry.digest == view.2) < someCorrectQuorum config then
        selectEntryInOrders seqNo rest
      else some entry

def selectEntriesInOrders (start : Nat) : List Nat → Option (List (Option SetEntry))
  | [] => some []
  | seqNoOffset :: rest =>
    let seqNo := (seqNoOffset + start + 1) % 2 ^ 64
    match selectEntryInOrders orders config epochChanges seqNo config.nodes with
    | some entry => (selectEntriesInOrders start rest).map (some entry :: ·)
    | none =>
      if rangeCount epochChanges (orders (.b seqNo)) (fun _ => bSupports seqNo) <
        intersectionQuorum config then none
      else (selectEntriesInOrders start rest).map (none :: ·)

/-- **`constructNewEpochConfig`, with the order of every loop over a map.** -/
def constructInOrders (newLeaders : List NodeID) : Go (Option NewEpochConfig) := do
  let (checkpoints, newEpochNumber) := collectCheckpoints epochChanges config.nodes ∅ 0
  match ← selectCheckpointInOrders orders config epochChanges
    ((orders .checkpoints).run checkpoints.entries) none with
  | none => pure none
  | some maxCheckpoint =>
    match selectEntriesInOrders orders config epochChanges maxCheckpoint.seqNo
        (List.range (2 * config.checkpointInterval)) with
    | none => pure none
    | some entries => pure (some
      { config :=
          { number := newEpochNumber
            leaders := newLeaders
            plannedExpiration := (maxCheckpoint.seqNo + config.maxEpochLength) % 2 ^ 64 }
        startingCheckpoint := maxCheckpoint
        finalPreprepares :=
          if entries.any Option.isSome then
            entries.map fun entry => (entry.map SetEntry.digest).getD []
          else [] })

end Orders

/-! ### The counts -/

section Counts

variable {orders : RangeLoop → MapIter} {config : NetworkConfig}
  {epochChanges : GoMap NodeID ParsedEpochChange}

/-- **A count does not depend on the order.** -/
theorem rangeCount_eq (iter : MapIter) (counts : NodeID → ParsedEpochChange → Bool) :
    rangeCount epochChanges iter counts = GoMap.countP epochChanges counts := by
  have loop (entries : List (Σ _ : NodeID, ParsedEpochChange)) (start : Nat) :
      entries.foldl (fun count entry => if counts entry.1 entry.2 then count + 1 else count) start =
        start + entries.countP fun entry => counts entry.1 entry.2 := by
    induction entries generalizing start with
    | nil => rfl
    | cons entry rest ih =>
      rw [foldl_cons, ih, countP_cons]
      split <;> omega
  rw [rangeCount, loop, Nat.zero_add]
  exact (iter.perm _).countP_eq _

theorem selectCheckpointInOrders_eq (entries : List (Σ _ : Checkpoint, List NodeID))
    (highest : Option Checkpoint) :
    selectCheckpointInOrders orders config epochChanges entries highest =
      selectCheckpoint config epochChanges entries highest := by
  induction entries generalizing highest with
  | nil => rfl
  | cons entry rest ih =>
    unfold selectCheckpointInOrders
    simp only [rangeCount_eq, ih]
    rfl

theorem selectEntryInOrders_eq (seqNo : Nat) (ids : List NodeID) :
    selectEntryInOrders orders config epochChanges seqNo ids = selectEntry config epochChanges seqNo ids := by
  induction ids with
  | nil => rfl
  | cons id rest ih =>
    have views (entry : SetEntry) (other : NodeID) (change : ParsedEpochChange) :
        (((orders (.views seqNo id other)).run (change.qSet seqNo)).any fun view =>
          !decide (view.1 < entry.epoch) && entry.digest == view.2) = a2Supports entry seqNo change :=
      ((orders (.views seqNo id other)).perm _).any_eq
    unfold selectEntryInOrders
    simp only [rangeCount_eq, ih, views]
    rfl

theorem selectEntriesInOrders_eq (start : Nat) (offsets : List Nat) :
    selectEntriesInOrders orders config epochChanges start offsets =
    selectEntries config epochChanges start offsets := by
  induction offsets with
  | nil => rfl
  | cons offset rest ih =>
    unfold selectEntriesInOrders
    simp only [rangeCount_eq, ih, selectEntryInOrders_eq]
    rfl

/-- **Only the order of the checkpoints can matter.** -/
theorem constructInOrders_eq (newLeaders : List NodeID) :
    constructInOrders orders config epochChanges newLeaders =
      constructNewEpochConfig (orders .checkpoints) config newLeaders epochChanges := by
  unfold constructInOrders
  simp only [selectCheckpointInOrders_eq, selectEntriesInOrders_eq]
  rfl

end Counts

/-! ### The checkpoints -/

namespace StartingCheckpoint

variable {nc : NetworkConfig} {epochChanges : GoMap NodeID ParsedEpochChange} {checkpoint : Checkpoint}

/-- **A checkpoint that may be selected**: it is listed often enough, and a quorum has not moved
past it. -/
def Candidate (nc : NetworkConfig) (epochChanges : GoMap NodeID ParsedEpochChange)
    (checkpoint : Checkpoint) : Prop :=
  someCorrectQuorum nc ≤ (listings epochChanges checkpoint nc.nodes).length ∧
    intersectionQuorum nc ≤ nodesWithLowerWatermark epochChanges checkpoint.seqNo

/-- Two candidates have this height. -/
def TiedAt (nc : NetworkConfig) (epochChanges : GoMap NodeID ParsedEpochChange) (seqNo : Nat) : Prop :=
  ∃ first second, Candidate nc epochChanges first ∧ Candidate nc epochChanges second ∧ first ≠ second ∧
    first.seqNo = seqNo ∧ second.seqNo = seqNo

/-- The table that the loop ranges over. -/
def table (nc : NetworkConfig) (epochChanges : GoMap NodeID ParsedEpochChange) :
  List (Σ _ : Checkpoint, List NodeID) := (collectCheckpoints epochChanges nc.nodes ∅ 0).1.entries

instance (entry : Σ _ : Checkpoint, List NodeID) : Decidable (Eligible nc epochChanges entry) :=
  inferInstanceAs (Decidable (_ ∧ _))

theorem distinct_table : (table nc epochChanges).Nodup :=
  (collectCheckpoints epochChanges nc.nodes ∅ 0).1.nodupKeys.nodup

theorem candidate_iff : Candidate nc epochChanges checkpoint ↔
    ∃ supporters, ⟨checkpoint, supporters⟩ ∈ table nc epochChanges ∧ Eligible nc epochChanges
    ⟨checkpoint, supporters⟩ := by
  have isListings := lookup_collectCheckpoints epochChanges nc.nodes ∅ 0 checkpoint
  rw [AList.lookup_empty, Option.getD_none, nil_append] at isListings
  constructor
  · intro ⟨listed, reached⟩
    rw [← isListings] at listed
    cases found : (collectCheckpoints epochChanges nc.nodes ∅ 0).1.lookup checkpoint with
    | none =>
      rw [found] at listed
      exact absurd listed (Nat.not_succ_le_zero _)
    | some supporters =>
      rw [found] at listed
      exact ⟨supporters, AList.mem_lookup_iff.mp found, listed, reached⟩
  · intro ⟨supporters, member, listed, reached⟩
    have found : (collectCheckpoints epochChanges nc.nodes ∅ 0).1.lookup checkpoint = some supporters :=
      AList.mem_lookup_iff.mpr member
    rw [found] at isListings
    exact ⟨isListings ▸ listed, reached⟩

theorem entry_unique {supporters others : List NodeID}
    (first : ⟨checkpoint, supporters⟩ ∈ table nc epochChanges)
    (second : ⟨checkpoint, others⟩ ∈ table nc epochChanges) : supporters = others := by
  have one := AList.mem_lookup_iff.mpr first
  have two := AList.mem_lookup_iff.mpr second
  exact Option.some.inj (one.symm.trans two)

theorem exists_highest (candidate : Candidate nc epochChanges checkpoint) :
    ∃ highest, Candidate nc epochChanges highest ∧ ∀ other, Candidate nc epochChanges other →
    other.seqNo ≤ highest.seqNo := by
  obtain ⟨supporters, member, eligible⟩ := candidate_iff.mp candidate
  obtain ⟨⟨highest, listed⟩, isHighest, most⟩ := Finset.exists_max_image
    ((table nc epochChanges).filter (Eligible nc epochChanges)).toFinset (fun entry => entry.1.seqNo)
    ⟨⟨checkpoint, supporters⟩, mem_toFinset.mpr (mem_filter.mpr ⟨member, decide_eq_true eligible⟩)⟩
  obtain ⟨inTable, isEligible⟩ := mem_filter.mp (mem_toFinset.mp isHighest)
  refine ⟨highest, candidate_iff.mpr ⟨listed, inTable, of_decide_eq_true isEligible⟩, fun other isOther => ?_⟩
  obtain ⟨_, otherMember, otherEligible⟩ := candidate_iff.mp isOther
  exact most _ (mem_toFinset.mpr (mem_filter.mpr ⟨otherMember, decide_eq_true otherEligible⟩))

/-- The panic of the loop. -/
def tieFailure : String := "two correct quorums have different checkpoints for same seqno"

/-- The entry is a candidate of the height. -/
def reaches (nc : NetworkConfig) (epochChanges : GoMap NodeID ParsedEpochChange) (top : Nat)
    (entry : Σ _ : Checkpoint, List NodeID) : Bool :=
  decide (Eligible nc epochChanges entry ∧ entry.1.seqNo = top)

/-- **A tie at the highest height is found in every order.** Of the candidates of that height, the
highest checkpoint so far included, there are two. -/
theorem selectCheckpoint_tied {top : Nat} {entries : List (Σ _ : Checkpoint, List NodeID)}
    {highest : Option Checkpoint}
    (atMost : ∀ entry ∈ entries, Eligible nc epochChanges entry → entry.1.seqNo ≤ top)
    (soFar : ∀ checkpoint ∈ highest, checkpoint.seqNo ≤ top)
    (tied : 2 ≤ entries.countP (reaches nc epochChanges top) + if highest.any
      (·.seqNo == top) then 1 else 0) :
    selectCheckpoint nc epochChanges entries highest = .error tieFailure := by
  induction entries generalizing highest with
  | nil =>
    rw [countP_nil] at tied
    split at tied <;> omega
  | cons entry rest ih =>
    have later {highest : Option Checkpoint} := @ih highest fun other member => atMost other
      (mem_cons_of_mem _ member)
    rw [countP_cons] at tied
    by_cases eligible : Eligible nc epochChanges entry
    swap
    · rw [selectCheckpoint_skip eligible]
      refine later soFar ?_
      rwa [if_neg (by simp [reaches, eligible])] at tied
    have bound := atMost entry mem_cons_self eligible
    have counts : reaches nc epochChanges top entry = (entry.1.seqNo == top) := by simp [reaches,
      eligible, Bool.beq_eq_decide_eq]
    rw [counts] at tied
    rw [selectCheckpoint_compare eligible]
    cases highest with
    | none =>
      refine later (by simpa using bound) ?_
      rwa [Option.any_none, if_neg Bool.false_ne_true] at tied
    | some checkpoint =>
      have below := soFar checkpoint rfl
      rw [Option.any_some] at tied
      dsimp only
      split_ifs with higher level
      · refine later soFar ?_
        have lower : ¬ (entry.1.seqNo == top) = true := by
          rw [beq_iff_eq]
          omega
        rwa [if_neg lower] at tied
      · rfl
      · refine later (by simpa using bound) ?_
        have lower : ¬ (checkpoint.seqNo == top) = true := by
          rw [beq_iff_eq]
          omega
        rwa [if_neg lower] at tied

theorem selectCheckpoint_none {entries : List (Σ _ : Checkpoint, List NodeID)}
    (excluded : ∀ entry ∈ entries, ¬ Eligible nc epochChanges entry) :
    selectCheckpoint nc epochChanges entries none = .ok none := by
  induction entries with
  | nil => rfl
  | cons entry rest ih =>
    rw [selectCheckpoint_skip (excluded entry mem_cons_self)]
    exact ih fun other member => excluded other (mem_cons_of_mem _ member)

/-- **Without ties below a highest candidate the order does not matter.** -/
theorem selectCheckpoint_perm {entries : List (Σ _ : Checkpoint, List NodeID)}
    (perm : entries.Perm (table nc epochChanges))
    (settled : ∀ seqNo, TiedAt nc epochChanges seqNo → ∃ top, TiedAt nc epochChanges top ∧
      ∀ other, Candidate nc epochChanges other → other.seqNo ≤ top) :
    selectCheckpoint nc epochChanges entries none = selectCheckpoint nc epochChanges
      (table nc epochChanges) none := by
  have candidate {entry : Σ _ : Checkpoint, List NodeID} (member : entry ∈ table nc epochChanges)
      (eligible : Eligible nc epochChanges entry) : Candidate nc epochChanges entry.1 :=
    candidate_iff.mpr ⟨entry.2, member, eligible⟩
  by_cases ties : ∃ seqNo, TiedAt nc epochChanges seqNo
  · obtain ⟨seqNo, tied⟩ := ties
    obtain ⟨top, ⟨first, second, isFirst, isSecond, differ, rfl, same⟩, most⟩ := settled seqNo tied
    obtain ⟨ofFirst, inFirst, eligibleFirst⟩ := candidate_iff.mp isFirst
    obtain ⟨ofSecond, inSecond, eligibleSecond⟩ := candidate_iff.mp isSecond
    have two : 2 ≤ (table nc epochChanges).countP (reaches nc epochChanges first.seqNo) := by
      have pair : [(⟨first, ofFirst⟩ : Σ _ : Checkpoint, List NodeID), ⟨second, ofSecond⟩].Nodup := by
        simp [differ]
      have subset := subperm_of_subset pair
        (cons_subset.mpr ⟨inFirst, cons_subset.mpr ⟨inSecond, nil_subset _⟩⟩)
      have counted := subset.countP_le (reaches nc epochChanges first.seqNo)
      simpa [reaches, eligibleFirst, eligibleSecond, same] using counted
    have failed {visited : List (Σ _ : Checkpoint, List NodeID)}
      (visits : visited.Perm (table nc epochChanges)) :
        selectCheckpoint nc epochChanges visited none = .error tieFailure := by
      refine @selectCheckpoint_tied nc epochChanges first.seqNo visited none
        (fun entry member eligible => ?_) nofun ?_
      · exact most _ (candidate (visits.mem_iff.mp member) eligible)
      · rw [visits.countP_eq]
        exact two.trans (Nat.le_add_right _ _)
    rw [failed perm, failed (.refl _)]
  · by_cases nonempty : ∃ checkpoint, Candidate nc epochChanges checkpoint
    · obtain ⟨_, isCandidate⟩ := nonempty
      obtain ⟨highest, isHighest, most⟩ := exists_highest isCandidate
      obtain ⟨supporters, inTable, eligible⟩ := candidate_iff.mp isHighest
      have selected {visited : List (Σ _ : Checkpoint, List NodeID)}
        (visits : visited.Perm (table nc epochChanges)) :
          selectCheckpoint nc epochChanges visited none = .ok (some highest) := by
        refine selectCheckpoint_highest
          (List.Nodup.pairwise_of_forall_ne (visits.nodup_iff.mpr distinct_table) ?_)
          (visits.mem_iff.mpr inTable) eligible (fun entry member isEligible => ?_) nofun nofun
        · intro one isOne two isTwo differ eligibleOne eligibleTwo same
          refine ties ⟨one.1.seqNo, one.1, two.1, candidate (visits.mem_iff.mp isOne) eligibleOne,
            candidate (visits.mem_iff.mp isTwo) eligibleTwo, fun sameKey => differ ?_, rfl, same.symm⟩
          obtain ⟨key, ofOne⟩ := one
          obtain rfl : key = _ := sameKey
          rw [entry_unique (visits.mem_iff.mp isOne) (visits.mem_iff.mp isTwo)]
        · exact most _ (candidate (visits.mem_iff.mp member) isEligible)
      rw [selected perm, selected (.refl _)]
    · have selected {visited : List (Σ _ : Checkpoint, List NodeID)}
        (visits : visited.Perm (table nc epochChanges)) :
          selectCheckpoint nc epochChanges visited none = .ok none :=
        selectCheckpoint_none fun entry member eligible => nonempty
          ⟨_, candidate (visits.mem_iff.mp member) eligible⟩
      rw [selected perm, selected (.refl _)]

/-- **A tie below a single highest candidate**: in one order the loop panics, in another one it does
not. -/
theorem selectCheckpoint_differs {seqNo : Nat} (tied : TiedAt nc epochChanges seqNo)
    (unsettled : ¬ ∃ top, TiedAt nc epochChanges top ∧ ∀ other, Candidate nc epochChanges other →
    other.seqNo ≤ top) : ∃ failing passing : MapIter,
      selectCheckpoint nc epochChanges (failing.run (table nc epochChanges)) none = .error tieFailure ∧
      ∃ checkpoint, selectCheckpoint nc epochChanges (passing.run (table nc epochChanges)) none =
      .ok (some checkpoint) := by
  obtain ⟨first, second, isFirst, isSecond, differ, rfl, same⟩ := tied
  obtain ⟨ofFirst, inFirst, eligibleFirst⟩ := candidate_iff.mp isFirst
  obtain ⟨ofSecond, inSecond, eligibleSecond⟩ := candidate_iff.mp isSecond
  obtain ⟨highest, isHighest, most⟩ := exists_highest isFirst
  obtain ⟨ofHighest, inHighest, eligibleHighest⟩ := candidate_iff.mp isHighest
  have second_mem : (⟨second, ofSecond⟩ : Σ _ : Checkpoint, List NodeID) ∈
    (table nc epochChanges).erase ⟨first, ofFirst⟩ :=
    (mem_erase_of_ne (by simpa using fun isSame => absurd isSame.symm differ)).mpr inSecond
  obtain ⟨failing, isFailing⟩ := MapIter.exists_run distinct_table
    (((perm_cons_erase second_mem).cons _).symm.trans (perm_cons_erase inFirst).symm)
  obtain ⟨passing, isPassing⟩ := MapIter.exists_run distinct_table (perm_cons_erase inHighest).symm
  refine ⟨failing, passing, ?_, highest, ?_⟩
  · rw [isFailing, selectCheckpoint_compare eligibleFirst]
    rw [selectCheckpoint_compare eligibleSecond]
    dsimp only
    rw [if_neg (by omega), if_pos same.symm]
    rfl
  · rw [isPassing, selectCheckpoint_compare eligibleHighest]
    refine selectCheckpoint_keeps fun entry member eligible => ?_
    have inTable := mem_of_mem_erase member
    refine lt_of_le_of_ne (most _ (candidate_iff.mpr ⟨entry.2, inTable, eligible⟩)) fun level => ?_
    refine unsettled ⟨highest.seqNo,
      ⟨highest, entry.1, isHighest, candidate_iff.mpr ⟨entry.2, inTable, eligible⟩,
      fun sameKey => ?_, rfl, level⟩, most⟩
    -- The highest candidate has one entry, which has been taken out.
    obtain ⟨key, supporters⟩ := entry
    obtain rfl : highest = key := sameKey
    rw [entry_unique inTable inHighest] at member
    exact absurd member (List.Nodup.not_mem_erase distinct_table)

/-- **The outcome does not depend on the order of maps** if and only if two candidates of one height
are there at the highest height whenever they are somewhere. -/
theorem order_independent_iff (nc : NetworkConfig) (leaders : List NodeID)
    (epochChanges : GoMap NodeID ParsedEpochChange) :
    (∀ orders others, constructInOrders orders nc epochChanges leaders = constructInOrders others nc
    epochChanges leaders) ↔
      ∀ seqNo, TiedAt nc epochChanges seqNo → ∃ top, TiedAt nc epochChanges top ∧
        ∀ other, Candidate nc epochChanges other → other.seqNo ≤ top := by
  constructor
  · intro independent seqNo tied
    by_contra unsettled
    obtain ⟨failing, passing, fails, checkpoint, passes⟩ := selectCheckpoint_differs tied unsettled
    have same := independent (fun _ => failing) fun _ => passing
    rw [constructInOrders_eq, constructInOrders_eq] at same
    unfold table at fails passes
    simp only [constructNewEpochConfig, fails, passes, bind, Except.bind] at same
    split at same <;> cases same
  · intro settled orders others
    rw [constructInOrders_eq, constructInOrders_eq]
    have first := selectCheckpoint_perm ((orders .checkpoints).perm (table nc epochChanges)) settled
    have second := selectCheckpoint_perm ((others .checkpoints).perm (table nc epochChanges)) settled
    have same := first.trans second.symm
    unfold table at same
    simp only [constructNewEpochConfig, same]

/-! ### One faulty node -/

namespace FaultyListing

/-- What the four nodes say: three of them list the checkpoints at `0` and `10`, the faulty one
lists two checkpoints at `5`, each of them twice. -/
def said (id : NodeID) : ParsedEpochChange where
  underlying :=
    { newEpoch := 2
      checkpoints := if id = 3 then [⟨5, [1]⟩, ⟨5, [1]⟩, ⟨5, [2]⟩, ⟨5, [2]⟩] else [⟨0, [9]⟩, ⟨10, [3]⟩]
      pSet := []
      qSet := [] }
  pSet := fun _ => none
  qSet := fun _ => []
  lowWatermark := if id = 3 then 5 else 0
  acks := ∅

def heard : GoMap NodeID ParsedEpochChange := GoMap.ofKeys said [0, 1, 2, 3] (by decide)

def reversed : MapIter := ⟨fun count => (List.range count).reverse, fun _ => reverse_perm _⟩

theorem accepted (id : NodeID) : Accepted (said id) := by
  by_cases faulty : id = 3
  · subst faulty
    rfl
  · simp [Accepted, said, faulty, newParsedEpochChange, parseCheckpoints, parsePSet, parseQSet,
      bind, Except.bind, pure, Except.pure]

/-- **One order panics, another one gives a new epoch.** -/
theorem outcome_depends_on_order :
    (∀ id change, heard.lookup id = some change → Accepted change) ∧
    constructInOrders (fun _ => .inOrder) FourNodes.networkConfig heard [0] = .error tieFailure ∧
    constructInOrders (fun _ => reversed) FourNodes.networkConfig heard [0] =
      .ok (some { config := ⟨2, [0], 30⟩, startingCheckpoint := ⟨10, [3]⟩, finalPreprepares := [] }) := by
  refine ⟨fun id change found => ?_, rfl, rfl⟩
  obtain ⟨_, rfl⟩ := GoMap.lookup_ofKeys.mp found
  exact accepted id

end FaultyListing

end StartingCheckpoint

end MirBft
