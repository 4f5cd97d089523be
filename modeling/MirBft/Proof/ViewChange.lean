/-
**View-change safety of `constructNewEpochConfig`.**

If a quorum prepared a digest for a sequence in some epoch, every configuration the epoch changes
determine keeps that digest, as long as the sequence is in the configuration's window.

* `constructNewEpochConfig_eq_some`: what a returned configuration is made of;
* `selectEntries_get`, `selectEntry_eq_some`: the entry at each offset passed A1 and A2, and an
  offset without one passed B;
* `Honours`: what a correct node's epoch change says about a prepared certificate. The three fields
  are the three relative epochs of the argument: the node's own prepare, a later prepare, a later
  preprepare;
* `bCount_lt`, `selected_digest`: condition B fails against a certificate, and an entry that passes
  A1 and A2 has the certificate's digest.

**The argument is two quorum intersections.** The A1 nodes meet the certificate in a correct node,
whose P-entry is no older than the certificate: either the selected entry is from the same epoch and
has its digest, or it is from a later epoch, and then a correct one of the A2 nodes preprepared it
in an epoch later than the certificate's.
-/

import MirBft.Library.Quorum
import MirBft.Model.NewEpochConfig

namespace MirBft.ViewChange

variable {nc : NetworkConfig} {changes : GoMap NodeID ParsedEpochChange}

/-! ### What a returned configuration is made of -/

variable {iter : MapIter} {newLeaders : List NodeID} {config : NewEpochConfig}

theorem constructNewEpochConfig_eq_some
    (returned : constructNewEpochConfig iter nc newLeaders changes = .ok (some config)) :
    ∃ entries, selectCheckpoint nc changes
        (iter.run (collectCheckpoints changes nc.nodes ∅ 0).1.entries) none =
          .ok (some config.startingCheckpoint) ∧
      selectEntries nc changes config.startingCheckpoint.seqNo
        (List.range (2 * nc.checkpointInterval)) = some entries ∧
      (config.finalPreprepares = if entries.any Option.isSome then
        entries.map fun entry => (entry.map SetEntry.digest).getD [] else []) ∧
      config.config.plannedExpiration = (config.startingCheckpoint.seqNo + nc.maxEpochLength) % 2 ^ 64 := by
  unfold constructNewEpochConfig at returned
  generalize collectCheckpoints changes nc.nodes ∅ 0 = collected at returned
  obtain ⟨checkpoints, newEpochNumber⟩ := collected
  cases chosen : selectCheckpoint nc changes (iter.run checkpoints.entries) none with
  | error text => simp [chosen, bind, Except.bind] at returned
  | ok maxCheckpoint =>
    simp only [chosen, bind, Except.bind] at returned
    cases maxCheckpoint with
    | none => simp [pure, Except.pure] at returned
    | some maxCheckpoint =>
      cases selected : selectEntries nc changes maxCheckpoint.seqNo
          (List.range (2 * nc.checkpointInterval)) with
      | none => simp [selected, pure, Except.pure] at returned
      | some entries =>
        simp only [selected, pure, Except.pure, Except.ok.injEq, Option.some.injEq] at returned
        subst returned
        exact ⟨entries, rfl, selected, rfl, rfl⟩

/-- A selected entry passes A1 and A2. -/
theorem selectEntry_eq_some {seqNo : Nat} {ids : List NodeID} {entry : SetEntry}
    (selected : selectEntry nc changes seqNo ids = some entry) :
    intersectionQuorum nc ≤ a1Count changes entry seqNo ∧
      someCorrectQuorum nc ≤ a2Count changes entry seqNo := by
  induction ids with
  | nil => simp [selectEntry] at selected
  | cons id rest ih =>
    unfold selectEntry at selected
    split at selected
    · exact ih selected
    · split at selected
      · exact ih selected
      · split at selected
        · exact ih selected
        · rename_i _ _ a1 a2
          cases selected
          exact ⟨Nat.le_of_not_lt a1, Nat.le_of_not_lt a2⟩

/-- **The entry at an offset** is what `selectEntry` picks there, and where it picks nothing
condition B holds. -/
theorem selectEntries_get {start : Nat} {offsets : List Nat} {entries : List (Option SetEntry)}
    (selected : selectEntries nc changes start offsets = some entries) {index offset : Nat}
    (there : offsets[index]? = some offset) :
    entries[index]? = some (selectEntry nc changes ((offset + start + 1) % 2 ^ 64) nc.nodes) ∧
      (selectEntry nc changes ((offset + start + 1) % 2 ^ 64) nc.nodes = none →
        intersectionQuorum nc ≤ bCount changes ((offset + start + 1) % 2 ^ 64)) := by
  induction offsets generalizing entries index with
  | nil => simp at there
  | cons head rest ih =>
    unfold selectEntries at selected
    simp only at selected
    -- The head is either selected or null under condition B; in both cases the tail is a `map`.
    have cases : ∃ tail, selectEntries nc changes start rest = some tail ∧
        entries = selectEntry nc changes ((head + start + 1) % 2 ^ 64) nc.nodes :: tail ∧
        (selectEntry nc changes ((head + start + 1) % 2 ^ 64) nc.nodes = none →
          intersectionQuorum nc ≤ bCount changes ((head + start + 1) % 2 ^ 64)) := by
      split at selected
      · rename_i entry found
        obtain ⟨tail, tailSelected, rfl⟩ := Option.map_eq_some_iff.mp selected
        exact ⟨tail, tailSelected, by rw [found], fun absent => nomatch found.symm.trans absent⟩
      · rename_i found
        split at selected
        · cases selected
        · rename_i enough
          obtain ⟨tail, tailSelected, rfl⟩ := Option.map_eq_some_iff.mp selected
          exact ⟨tail, tailSelected, by rw [found], fun _ => Nat.le_of_not_lt enough⟩
    obtain ⟨tail, tailSelected, rfl, condition⟩ := cases
    cases index with
    | zero =>
      simp only [List.getElem?_cons_zero, Option.some.injEq] at there
      subst there
      exact ⟨rfl, condition⟩
    | succ index =>
      exact ih tailSelected there

/-- No node is below sequence zero: no entry satisfies A1 there. -/
theorem a1Count_zero (entry : SetEntry) : a1Count changes entry 0 = 0 := by
  simp [a1Count, a1Supports, GoMap.countP]

theorem bCount_zero : bCount changes 0 = 0 := by
  simp [bCount, bSupports, GoMap.countP]

/-- **The window of a returned configuration is in range.** A window that passes `2 ^ 64` has the
sequence number zero in it, where nothing is selected. -/
theorem window_in_range
    (returned : constructNewEpochConfig iter nc newLeaders changes = .ok (some config))
    (range : config.startingCheckpoint.seqNo < 2 ^ 64) :
    config.startingCheckpoint.seqNo + 2 * nc.checkpointInterval < 2 ^ 64 := by
  obtain ⟨entries, _, selected, _⟩ := constructNewEpochConfig_eq_some returned
  generalize config.startingCheckpoint.seqNo = start at selected range ⊢
  by_contra wraps
  have there : (List.range (2 * nc.checkpointInterval))[2 ^ 64 - 1 - start]? =
      some (2 ^ 64 - 1 - start) := by
    rw [List.getElem?_range]
    omega
  obtain ⟨_, condition⟩ := selectEntries_get selected there
  rw [show (2 ^ 64 - 1 - start + start + 1) % 2 ^ 64 = 0 by omega] at condition
  have positive := intersectionQuorum_pos nc
  cases found : selectEntry nc changes 0 nc.nodes with
  | none =>
    have enough := condition found
    rw [bCount_zero] at enough
    omega
  | some entry =>
    have enough := (selectEntry_eq_some found).1
    rw [a1Count_zero] at enough
    omega

/-! ### A prepared certificate against the three conditions -/

/-- **What a correct node's epoch change says about a certificate** for `digest` at `seqNo` in
`epoch`: a member that is still below the sequence reports a prepare no older than it, and every
later prepare or preprepare has the same digest. -/
structure Honours (seqNo : Nat) (epoch : Nat) (digest : Bytes) (member : Prop)
    (change : ParsedEpochChange) : Prop where
  reports : member → change.lowWatermark < seqNo →
    ∃ entry, change.pSet seqNo = some entry ∧ epoch ≤ entry.epoch
  prepares : ∀ entry, change.pSet seqNo = some entry → epoch ≤ entry.epoch → entry.digest = digest
  preprepares : ∀ view ∈ change.qSet seqNo, epoch < view.1 → view.2 = digest

section Certificate

variable {nc : NetworkConfig} {changes : GoMap NodeID ParsedEpochChange}
  {faulty certificate : Finset NodeID} {seqNo : Nat} {epoch : Nat} {digest : Bytes}

/-- The nodes counted by a predicate on the epoch changes are nodes of the network. -/
theorem holders_subset (known : ∀ id ∈ changes, id ∈ nc.nodes)
    (p : NodeID → ParsedEpochChange → Bool) :
    GoMap.holders changes p ⊆ nc.nodes.toFinset := by
  intro id member
  obtain ⟨change, found, _⟩ := GoMap.mem_holders.mp member
  rw [List.mem_toFinset]
  exact known id (AList.lookup_isSome.mp (by rw [found]; rfl))

/-- A count of `intersectionQuorum` epoch changes meets the certificate in a correct node. -/
theorem exists_correct_certified (known : ∀ id ∈ changes, id ∈ nc.nodes)
    (few : faulty.card ≤ nc.f) (nodes : certificate ⊆ nc.nodes.toFinset)
    (quorum : intersectionQuorum nc ≤ certificate.card) {p : NodeID → ParsedEpochChange → Bool}
    (count : intersectionQuorum nc ≤ GoMap.countP changes p) :
    ∃ id ∈ certificate, id ∉ faulty ∧
      ∃ change, changes.lookup id = some change ∧ p id change = true := by
  have size : nc.nodes.toFinset.card ≤ nc.nodes.length := List.toFinset_card_le _
  have large := lt_two_intersectionQuorum nc
  rw [← GoMap.card_holders] at count
  have outnumber : nc.nodes.toFinset.card + faulty.card <
      (GoMap.holders changes p).card + certificate.card := by omega
  obtain ⟨id, counted, certified, correct⟩ :=
    Quorum.exists_correct_mem_inter (holders_subset known p) nodes outnumber
  exact ⟨id, certified, correct, GoMap.mem_holders.mp counted⟩

variable (honours : ∀ id change, id ∉ faulty → changes.lookup id = some change →
    Honours seqNo epoch digest (id ∈ certificate) change)

include honours

/-- **Condition B fails**: a correct certified node below the sequence has a P-entry. -/
theorem bCount_lt (known : ∀ id ∈ changes, id ∈ nc.nodes) (few : faulty.card ≤ nc.f)
    (nodes : certificate ⊆ nc.nodes.toFinset)
    (quorum : intersectionQuorum nc ≤ certificate.card) :
    bCount changes seqNo < intersectionQuorum nc := by
  by_contra enough
  obtain ⟨id, certified, correct, change, found, null⟩ :=
    exists_correct_certified known few nodes quorum (Nat.le_of_not_lt enough)
  unfold bSupports at null
  split at null
  · cases null
  · rename_i low
    obtain ⟨entry, prepared, _⟩ :=
      (honours id change correct found).reports certified (Nat.lt_of_not_le low)
    rw [prepared] at null
    cases null

/-- **An entry that passes A1 and A2 has the certificate's digest.** -/
theorem selected_digest (known : ∀ id ∈ changes, id ∈ nc.nodes) (few : faulty.card ≤ nc.f)
    (nodes : certificate ⊆ nc.nodes.toFinset)
    (quorum : intersectionQuorum nc ≤ certificate.card) {entry : SetEntry}
    (a1 : intersectionQuorum nc ≤ a1Count changes entry seqNo)
    (a2 : someCorrectQuorum nc ≤ a2Count changes entry seqNo) : entry.digest = digest := by
  obtain ⟨id, certified, correct, change, found, supports⟩ :=
    exists_correct_certified known few nodes quorum a1
  unfold a1Supports at supports
  split at supports
  · cases supports
  rename_i low
  obtain ⟨own, prepared, recent⟩ :=
    (honours id change correct found).reports certified (Nat.lt_of_not_le low)
  simp only [prepared] at supports
  split at supports
  · -- The selected entry is later than the certificate: a correct A2 node preprepared it.
    have voters : faulty.card < (GoMap.holders changes fun _ => a2Supports entry seqNo).card := by
      rw [GoMap.card_holders]
      exact lt_of_le_of_lt few a2
    obtain ⟨voter, counted, honest⟩ := Finset.exists_mem_notMem_of_card_lt_card voters
    obtain ⟨vote, voteFound, preprepared⟩ := GoMap.mem_holders.mp counted
    obtain ⟨view, member, matched⟩ := List.any_eq_true.mp preprepared
    simp only [Bool.and_eq_true, Bool.not_eq_true', decide_eq_false_iff_not, beq_iff_eq]
      at matched
    rw [matched.2]
    exact (honours voter vote honest voteFound).preprepares view member (by omega)
  · split at supports
    · cases supports
    · rw [beq_iff_eq] at supports
      rw [supports]
      exact (honours id change correct found).prepares own prepared recent

end Certificate

/-- **View-change safety.** Let a quorum of nodes have prepared `digest` for `seqNo` in `epoch`, and
let every correct node's epoch change honour that. Then any configuration the epoch changes
determine whose window contains `seqNo` carries `digest` for it. -/
theorem constructNewEpochConfig_keeps_prepared (iter : MapIter) (nc : NetworkConfig)
    (newLeaders : List NodeID) (changes : GoMap NodeID ParsedEpochChange)
    (faulty certificate : Finset NodeID) (seqNo : Nat) (epoch : Nat) (digest : Bytes)
    (config : NewEpochConfig) (known : ∀ id ∈ changes, id ∈ nc.nodes)
    (few : faulty.card ≤ nc.f) (nodes : certificate ⊆ nc.nodes.toFinset)
    (quorum : intersectionQuorum nc ≤ certificate.card)
    (honours : ∀ id change, id ∉ faulty → changes.lookup id = some change →
      Honours seqNo epoch digest (id ∈ certificate) change)
    (returned : constructNewEpochConfig iter nc newLeaders changes = .ok (some config))
    (range : seqNo < 2 ^ 64) (above : config.startingCheckpoint.seqNo < seqNo)
    (inside : seqNo ≤ config.startingCheckpoint.seqNo + 2 * nc.checkpointInterval) :
    config.finalPreprepares ≠ [] ∧
      config.finalPreprepares[seqNo - config.startingCheckpoint.seqNo - 1]? = some digest := by
  obtain ⟨entries, _, selected, finals, _⟩ := constructNewEpochConfig_eq_some returned
  have there : (List.range (2 * nc.checkpointInterval))[
      seqNo - config.startingCheckpoint.seqNo - 1]? =
        some (seqNo - config.startingCheckpoint.seqNo - 1) := by
    rw [List.getElem?_range]
    omega
  obtain ⟨atOffset, condition⟩ := selectEntries_get selected there
  rw [show (seqNo - config.startingCheckpoint.seqNo - 1 + config.startingCheckpoint.seqNo + 1) %
    2 ^ 64 = seqNo by omega] at atOffset condition
  cases found : selectEntry nc changes seqNo nc.nodes with
  | none =>
    exact absurd (condition found) (Nat.not_le.mpr (bCount_lt honours known few nodes quorum))
  | some entry =>
    obtain ⟨a1, a2⟩ := selectEntry_eq_some found
    have same := selected_digest honours known few nodes quorum a1 a2
    rw [found] at atOffset
    have any : entries.any Option.isSome = true :=
      List.any_eq_true.mpr ⟨some entry, List.mem_of_getElem? atOffset, rfl⟩
    rw [if_pos any] at finals
    have value : config.finalPreprepares[seqNo - config.startingCheckpoint.seqNo - 1]? =
        some digest := by
      rw [finals, List.getElem?_map, atOffset]
      simp [same]
    refine ⟨fun empty => ?_, value⟩
    rw [empty] at value
    cases value

/-- A change of a node that prepared and preprepared the digest `[9]` for sequence one in epoch
one. -/
def preparedChange : ParsedEpochChange where
  underlying := { newEpoch := 2, checkpoints := [⟨0, [7]⟩], pSet := [⟨1, 1, [9]⟩],
                  qSet := [⟨1, 1, [9]⟩] }
  pSet := Function.update (fun _ => none) 1 (some ⟨1, 1, [9]⟩)
  qSet := Function.update (fun _ => []) 1 [(1, [9])]
  lowWatermark := 0
  acks := ∅

/-- A change of a node that hides what it prepared. -/
def hidingChange : ParsedEpochChange where
  underlying := { newEpoch := 2, checkpoints := [⟨0, [7]⟩], pSet := [], qSet := [] }
  pSet := fun _ => none
  qSet := fun _ => []
  lowWatermark := 0
  acks := ∅

def fourNodes : NetworkConfig :=
  { nodes := [0, 1, 2, 3], checkpointInterval := 1, maxEpochLength := 10, numberOfBuckets := 1,
    f := 1 }

/-- Nodes `0` to `2` prepared, and the faulty node `3` hides it. -/
def hiddenByOne : GoMap NodeID ParsedEpochChange :=
  (((AList.singleton 0 preparedChange).insert 1 preparedChange).insert 2 preparedChange).insert 3
    hidingChange

theorem preparedChange_honours (member : Prop) : Honours 1 1 [9] member preparedChange where
  reports := fun _ _ => ⟨⟨1, 1, [9]⟩, rfl, le_refl 1⟩
  prepares := by
    intro entry found _
    cases found
    rfl
  preprepares := by
    intro view member late
    simp only [preparedChange, Function.update_self, List.mem_singleton] at member
    subst member
    rfl

/-- The faulty node hides the certificate in vain: the new epoch keeps the prepared digest. -/
theorem hiddenByOne_keeps_prepared :
    ∃ config, constructNewEpochConfig MapIter.inOrder fourNodes [0] hiddenByOne =
        .ok (some config) ∧ config.finalPreprepares ≠ [] ∧
      config.finalPreprepares[0]? = some [9] := by
  refine ⟨{ config := ⟨2, [0], 10⟩, startingCheckpoint := ⟨0, [7]⟩, finalPreprepares := [[9], []] },
    rfl, ?_⟩
  refine constructNewEpochConfig_keeps_prepared MapIter.inOrder fourNodes [0] hiddenByOne {3}
    {0, 1, 2} 1 1 [9] _ ?_ (by decide) (by decide) (by decide) ?_ rfl (by decide) (by decide) (by decide)
  · decide
  · intro id change correct found
    have which : change = preparedChange := by
      simp only [hiddenByOne, Finset.mem_singleton] at correct found
      rw [AList.lookup_insert_ne correct] at found
      by_cases two : id = 2
      · rw [two] at found
        exact (Option.some.inj found).symm
      rw [AList.lookup_insert_ne two] at found
      by_cases one : id = 1
      · rw [one] at found
        exact (Option.some.inj found).symm
      rw [AList.lookup_insert_ne one] at found
      by_cases zero : id = 0
      · subst zero
        exact (Option.some.inj found).symm
      · simp [AList.lookup, zero] at found
    rw [which]
    exact preparedChange_honours _

end MirBft.ViewChange
