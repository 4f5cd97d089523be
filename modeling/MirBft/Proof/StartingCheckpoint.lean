/-
**Who vouches for the starting checkpoint of a new epoch.**

`constructNewEpochConfig` starts from a checkpoint that enough epoch changes list. It counts
listings, and the parser is to see to it that a node lists a checkpoint once; the table the parser
looks repetitions up in stays empty.

* `listings`: the nodes under a checkpoint, as often as they list it (`lookup_collectCheckpoints`);
* `Vouched`: `f + 1` nodes list the checkpoint, so that a correct one does, and a quorum has not
  moved past it;
* `starting_checkpoint_vouched`: **the starting checkpoint is vouched for, if no epoch change lists
  a checkpoint twice.** One change that does, of one node, is enough to have a checkpoint selected
  that no more than `f` nodes list.
-/

import Mathlib.Algebra.BigOperators.Group.Finset.Piecewise
import Mathlib.Algebra.Order.BigOperators.Group.Finset
import Mathlib.Data.Finset.Max
import MirBft.Proof.ViewChange

namespace MirBft.StartingCheckpoint

open List

/-! ### Listings -/

/-- How often a node's epoch change lists a checkpoint. -/
def weight (changes : GoMap NodeID ParsedEpochChange) (key : Checkpoint) (id : NodeID) : Nat :=
  match changes.lookup id with
  | none => 0
  | some change => change.underlying.checkpoints.count key

/-- The nodes under a checkpoint, as often as they list it. -/
def listings (changes : GoMap NodeID ParsedEpochChange) (key : Checkpoint) (nodes : List NodeID) :
    List NodeID :=
  nodes.flatMap fun id => List.replicate (weight changes key id) id

theorem lookup_addCheckpoints (id : NodeID) (checkpoints : List Checkpoint)
    (table : GoMap Checkpoint (List NodeID)) (key : Checkpoint) :
    ((checkpoints.foldl (fun table key => table.insert key ((table.lookup key).getD [] ++ [id]))
      table).lookup key).getD [] =
        (table.lookup key).getD [] ++ List.replicate (checkpoints.count key) id := by
  induction checkpoints generalizing table with
  | nil => simp
  | cons checkpoint rest ih =>
    rw [foldl_cons, ih]
    by_cases same : key = checkpoint
    · subst same
      rw [count_cons_self, replicate_succ]
      simp
    · rw [AList.lookup_insert_ne same, count_cons_of_ne (Ne.symm same)]

/-- **The table has the listings.** -/
theorem lookup_collectCheckpoints (changes : GoMap NodeID ParsedEpochChange) (nodes : List NodeID)
    (table : GoMap Checkpoint (List NodeID)) (number : Nat) (key : Checkpoint) :
    ((collectCheckpoints changes nodes table number).1.lookup key).getD [] =
      (table.lookup key).getD [] ++ listings changes key nodes := by
  induction nodes generalizing table number with
  | nil => simp [collectCheckpoints, listings]
  | cons id rest ih =>
    unfold collectCheckpoints
    have split : listings changes key (id :: rest) =
        List.replicate (weight changes key id) id ++ listings changes key rest := by
      simp [listings]
    cases found : changes.lookup id with
    | none =>
      have none : weight changes key id = 0 := by simp [weight, found]
      rw [split, none]
      exact ih table number
    | some change =>
      have count : weight changes key id = change.underlying.checkpoints.count key := by
        simp [weight, found]
      rw [split, count, ← append_assoc, ← lookup_addCheckpoints]
      exact ih _ _

theorem length_listings {nodes : List NodeID} (distinct : nodes.Nodup)
    (changes : GoMap NodeID ParsedEpochChange) (key : Checkpoint) :
    (listings changes key nodes).length = ∑ id ∈ nodes.toFinset, weight changes key id := by
  rw [sum_toFinset _ distinct]
  simp [listings]

/-! ### The selection -/

section Selection

variable {nc : NetworkConfig} {changes : GoMap NodeID ParsedEpochChange}
variable {entries : List (Σ _ : Checkpoint, List NodeID)} {entry : Σ _ : Checkpoint, List NodeID}
  {checkpoint : Checkpoint}

/-- A checkpoint that may be selected. -/
def Eligible (nc : NetworkConfig) (changes : GoMap NodeID ParsedEpochChange)
    (entry : Σ _ : Checkpoint, List NodeID) : Prop :=
  someCorrectQuorum nc ≤ entry.2.length ∧
    intersectionQuorum nc ≤ nodesWithLowerWatermark changes entry.1.seqNo

theorem selectCheckpoint_skip
    (not : ¬ Eligible nc changes entry) (rest : List (Σ _ : Checkpoint, List NodeID))
    (highest : Option Checkpoint) : selectCheckpoint nc changes (entry :: rest) highest =
      selectCheckpoint nc changes rest highest := by
  obtain ⟨key, supporters⟩ := entry
  by_cases few : supporters.length < someCorrectQuorum nc
  · cases highest <;> simp only [selectCheckpoint, if_pos few]
  · have low : nodesWithLowerWatermark changes key.seqNo < intersectionQuorum nc := by
      by_contra enough
      exact not ⟨Nat.le_of_not_lt few, Nat.le_of_not_lt enough⟩
    cases highest <;> simp only [selectCheckpoint, if_neg few, if_pos low]

theorem selectCheckpoint_compare
    (eligible : Eligible nc changes entry) (rest : List (Σ _ : Checkpoint, List NodeID))
    (highest : Option Checkpoint) : selectCheckpoint nc changes (entry :: rest) highest =
      match highest with
      | none => selectCheckpoint nc changes rest (some entry.1)
      | some highest =>
        if highest.seqNo > entry.1.seqNo then selectCheckpoint nc changes rest (some highest)
        else if highest.seqNo = entry.1.seqNo then
          throw "two correct quorums have different checkpoints for same seqno"
        else selectCheckpoint nc changes rest (some entry.1) := by
  obtain ⟨many, high⟩ := eligible
  cases highest <;>
    simp only [selectCheckpoint, if_neg (Nat.not_lt.mpr many), if_neg (Nat.not_lt.mpr high)]

theorem selectCheckpoint_eq_some {highest : Option Checkpoint} {selected : Checkpoint}
    (returned : selectCheckpoint nc changes entries highest = .ok (some selected)) :
    highest = some selected ∨
      ∃ supporters, ⟨selected, supporters⟩ ∈ entries ∧ Eligible nc changes ⟨selected, supporters⟩ := by
  induction entries generalizing highest with
  | nil =>
    cases returned
    exact .inl rfl
  | cons entry rest ih =>
    have later (found : ∃ supporters, ⟨selected, supporters⟩ ∈ rest ∧
        Eligible nc changes ⟨selected, supporters⟩) : highest = some selected ∨
        ∃ supporters, ⟨selected, supporters⟩ ∈ entry :: rest ∧
          Eligible nc changes ⟨selected, supporters⟩ := by
      obtain ⟨supporters, member, eligible⟩ := found
      exact .inr ⟨supporters, mem_cons_of_mem _ member, eligible⟩
    by_cases eligible : Eligible nc changes entry
    · have here (isEntry : some entry.1 = some selected) : highest = some selected ∨
          ∃ supporters, ⟨selected, supporters⟩ ∈ entry :: rest ∧
            Eligible nc changes ⟨selected, supporters⟩ := by
        cases isEntry
        exact .inr ⟨entry.2, mem_cons_self, eligible⟩
      rw [selectCheckpoint_compare eligible] at returned
      cases highest with
      | none => exact (ih returned).elim here later
      | some highest =>
        simp only at returned
        split at returned
        · rcases ih returned with same | found
          · exact .inl same
          · exact later found
        · split at returned
          · cases returned
          · exact (ih returned).elim here later
    · rw [selectCheckpoint_skip eligible] at returned
      rcases ih returned with same | found
      · exact .inl same
      · exact later found

theorem selectCheckpoint_keeps
    (lower : ∀ entry ∈ entries, Eligible nc changes entry → entry.1.seqNo < checkpoint.seqNo) :
    selectCheckpoint nc changes entries (some checkpoint) = .ok (some checkpoint) := by
  induction entries with
  | nil => rfl
  | cons entry rest ih =>
    have rest := ih fun entry member => lower entry (mem_cons_of_mem _ member)
    by_cases eligible : Eligible nc changes entry
    · rw [selectCheckpoint_compare eligible]
      simp only [if_pos (lower entry mem_cons_self eligible), rest]
    · rw [selectCheckpoint_skip eligible, rest]

/-- **The highest eligible checkpoint is selected**, if no two eligible ones have one sequence
number. -/
theorem selectCheckpoint_highest {supporters : List NodeID}
    (separate : entries.Pairwise fun first second => Eligible nc changes first →
      Eligible nc changes second → first.1.seqNo ≠ second.1.seqNo)
    (member : ⟨checkpoint, supporters⟩ ∈ entries) (eligible : Eligible nc changes ⟨checkpoint, supporters⟩)
    (lower : ∀ entry ∈ entries, Eligible nc changes entry → entry.1.seqNo ≤ checkpoint.seqNo)
    {highest : Option Checkpoint}
    (others : ∀ other, highest = some other → ∀ entry ∈ entries, Eligible nc changes entry →
      other.seqNo ≠ entry.1.seqNo) (below : ∀ other, highest = some other → other.seqNo < checkpoint.seqNo) :
    selectCheckpoint nc changes entries highest = .ok (some checkpoint) := by
  induction entries generalizing highest with
  | nil => cases member
  | cons entry rest ih =>
    obtain ⟨apart, restSeparate⟩ := pairwise_cons.mp separate
    have restLower := fun other isOther => lower other (mem_cons_of_mem _ isOther)
    rcases mem_cons.mp member with rfl | later
    · -- All that comes after it is lower.
      have kept := selectCheckpoint_keeps fun other isOther isEligible =>
        lt_of_le_of_ne (restLower other isOther isEligible)
          (Ne.symm (apart other isOther eligible isEligible))
      rw [selectCheckpoint_compare eligible]
      cases highest with
      | none => exact kept
      | some other =>
        have less : other.seqNo < checkpoint.seqNo := below other rfl
        simp only [if_neg (Nat.not_lt.mpr less.le), if_neg less.ne, kept]
    · have continued {highest : Option Checkpoint} := @ih restSeparate later restLower highest
      have restOthers : ∀ other, highest = some other → ∀ entry ∈ rest,
          Eligible nc changes entry → other.seqNo ≠ entry.1.seqNo :=
        fun other isHighest found isFound => others other isHighest found (mem_cons_of_mem _ isFound)
      by_cases here : Eligible nc changes entry
      · have taken : selectCheckpoint nc changes rest (some entry.1) = .ok (some checkpoint) := by
          refine continued ?_ ?_
          · rintro _ ⟨⟩ found isFound
            exact apart found isFound here
          · rintro _ ⟨⟩
            exact lt_of_le_of_ne (lower entry mem_cons_self here)
              (apart _ later here eligible)
        rw [selectCheckpoint_compare here]
        cases highest with
        | none => exact taken
        | some other =>
          have different := others other rfl entry mem_cons_self here
          by_cases more : other.seqNo > entry.1.seqNo
          · simp only [if_pos more]
            exact continued restOthers below
          · simp only [if_neg more, if_neg different]
            exact taken
      · rw [selectCheckpoint_skip here]
        exact continued restOthers below

end Selection

/-! ### The condition -/

/-- The nodes whose epoch change lists a checkpoint. -/
def supporters (changes : GoMap NodeID ParsedEpochChange) (checkpoint : Checkpoint) :
    Finset NodeID :=
  GoMap.holders changes fun _ change => decide (checkpoint ∈ change.underlying.checkpoints)

/-- **A checkpoint is vouched for**: `f + 1` nodes list it, a correct one among them, and a quorum
has not moved past it. -/
structure Vouched (nc : NetworkConfig) (changes : GoMap NodeID ParsedEpochChange)
    (checkpoint : Checkpoint) : Prop where
  listed : someCorrectQuorum nc ≤ (supporters changes checkpoint).card
  reached : intersectionQuorum nc ≤ (GoMap.holders changes fun _ change =>
    decide (change.lowWatermark ≤ checkpoint.seqNo)).card
  correct : ∀ faulty : Finset NodeID, faulty.card ≤ nc.f → ∃ id ∉ faulty, ∃ change,
    changes.lookup id = some change ∧ checkpoint ∈ change.underlying.checkpoints

/-- The parser accepts the epoch change. -/
def Accepted (change : ParsedEpochChange) : Prop :=
  newParsedEpochChange change.underlying = .ok { change with acks := ∅ }

section Condition

variable {nc : NetworkConfig} {changes : GoMap NodeID ParsedEpochChange}

/-- A node that lists nothing twice is under a checkpoint once, if it supports it. -/
theorem weight_le {key : Checkpoint} {id : NodeID}
    (once : ∀ change, changes.lookup id = some change → change.underlying.checkpoints.Nodup) :
    weight changes key id ≤ if id ∈ supporters changes key then 1 else 0 := by
  unfold weight
  cases found : changes.lookup id with
  | none => exact Nat.zero_le _
  | some change =>
    by_cases lists : key ∈ change.underlying.checkpoints
    · have isSupporter : id ∈ supporters changes key :=
        GoMap.mem_holders.mpr ⟨change, found, decide_eq_true lists⟩
      rw [if_pos isSupporter]
      exact nodup_iff_count_le_one.mp (once change found) key
    · simp only [count_eq_zero_of_not_mem lists]
      exact Nat.zero_le _

/-- **Without repetitions, listings are supporters.** -/
theorem length_listings_le (distinct : nc.nodes.Nodup)
    (once : ∀ id change, changes.lookup id = some change → change.underlying.checkpoints.Nodup)
    (key : Checkpoint) :
    (listings changes key nc.nodes).length ≤ (supporters changes key).card := by
  rw [length_listings distinct]
  calc ∑ id ∈ nc.nodes.toFinset, weight changes key id
      ≤ ∑ id ∈ nc.nodes.toFinset, if id ∈ supporters changes key then 1 else 0 :=
        Finset.sum_le_sum fun id _ => weight_le (once id)
    _ = (nc.nodes.toFinset.filter (· ∈ supporters changes key)).card := by
        rw [Finset.card_filter]
    _ ≤ (supporters changes key).card :=
        Finset.card_le_card fun id member => (Finset.mem_filter.mp member).2

theorem eligible_startingCheckpoint {iter : MapIter} {leaders : List NodeID} {config : NewEpochConfig}
    (returned : constructNewEpochConfig iter nc leaders changes = .ok (some config)) :
    Eligible nc changes
      ⟨config.startingCheckpoint, listings changes config.startingCheckpoint nc.nodes⟩ := by
  obtain ⟨_, selected, _⟩ := ViewChange.constructNewEpochConfig_eq_some returned
  rcases selectCheckpoint_eq_some selected with impossible | ⟨under, member, eligible⟩
  · cases impossible
  have found := AList.mem_lookup_iff.mpr (iter.mem_run.mp member)
  have isListings := lookup_collectCheckpoints changes nc.nodes ∅ 0 config.startingCheckpoint
  rw [Option.mem_def.mp found] at isListings
  simp only [AList.lookup_empty, Option.getD_none, nil_append] at isListings
  rw [← isListings]
  exact eligible

/-- What is listed enough is vouched for. -/
theorem Vouched.of_listed {checkpoint : Checkpoint}
    (listed : someCorrectQuorum nc ≤ (supporters changes checkpoint).card)
    (reached : intersectionQuorum nc ≤ nodesWithLowerWatermark changes checkpoint.seqNo) :
    Vouched nc changes checkpoint where
  listed := listed
  reached := by
    rw [GoMap.card_holders]
    exact reached
  correct faulty few := by
    have more : faulty.card < (supporters changes checkpoint).card := lt_of_le_of_lt few listed
    obtain ⟨id, isSupporter, correct⟩ := Finset.exists_mem_notMem_of_card_lt_card more
    obtain ⟨change, found, lists⟩ := GoMap.mem_holders.mp isSupporter
    exact ⟨id, correct, change, found, of_decide_eq_true lists⟩

end Condition

/-! ### One repetition -/

/-- An epoch change that lists one checkpoint and nothing else. -/
def listingChange (epoch : Nat) (checkpoint : Checkpoint) : ParsedEpochChange where
  underlying := { newEpoch := epoch, checkpoints := [checkpoint], pSet := [], qSet := [] }
  pSet := fun _ => none
  qSet := fun _ => []
  lowWatermark := checkpoint.seqNo
  acks := ∅

theorem listingChange_accepted (epoch : Nat) (checkpoint : Checkpoint) :
    Accepted (listingChange epoch checkpoint) := by
  show newParsedEpochChange ⟨epoch, [checkpoint], [], []⟩ = _
  simp [newParsedEpochChange, parseCheckpoints, parsePSet, parseQSet, bind, Except.bind, pure,
    Except.pure, listingChange]

section Repetition

variable (nc : NetworkConfig) (id : NodeID) (change : ParsedEpochChange) (checkpoint : Checkpoint)

/-- The faulty nodes that list the checkpoint once. -/
def helpers : List NodeID := (nc.nodes.erase id).take (nc.f - 1)

/-- A checkpoint that no other node lists: its value is longer than those that `change` lists. -/
def ownCheckpoint (node : NodeID) : Checkpoint :=
  ⟨0, List.replicate ((change.underlying.checkpoints.map (·.value.length)).sum + 1 + node) 0⟩

/-- What each node says: `id` sends `change`, its helpers list the checkpoint too, and the others
list something else each. -/
def said (node : NodeID) : ParsedEpochChange :=
  if node = id then change
  else if node ∈ helpers nc id then listingChange change.underlying.newEpoch checkpoint
  else listingChange change.underlying.newEpoch (ownCheckpoint change node)

/-- The epoch changes of all nodes. -/
def withRepetition (distinct : nc.nodes.Nodup) : GoMap NodeID ParsedEpochChange :=
  GoMap.ofKeys (said nc id change checkpoint) nc.nodes distinct

variable {nc id change checkpoint} {distinct : nc.nodes.Nodup}
variable {node : NodeID} {key : Checkpoint} {changes : GoMap NodeID ParsedEpochChange}
  {nodes : List NodeID}

theorem ownCheckpoint_notMem (node : NodeID) :
    ownCheckpoint change node ∉ change.underlying.checkpoints := by
  intro member
  have bounded : (ownCheckpoint change node).value.length ≤
      (change.underlying.checkpoints.map (·.value.length)).sum :=
    le_sum_of_mem (mem_map_of_mem member)
  simp only [ownCheckpoint, length_replicate] at bounded
  omega

theorem ownCheckpoint_injective {other : NodeID}
    (same : ownCheckpoint change node = ownCheckpoint change other) : node = other := by
  have lengths : (ownCheckpoint change node).value.length =
      (ownCheckpoint change other).value.length := by rw [same]
  simpa [ownCheckpoint] using lengths

theorem notMem_helpers (distinct : nc.nodes.Nodup) : id ∉ helpers nc id :=
  fun member => distinct.not_mem_erase (mem_of_mem_take member)

theorem weight_withRepetition (member : node ∈ nc.nodes) :
    weight (withRepetition nc id change checkpoint distinct) key node =
      (said nc id change checkpoint node).underlying.checkpoints.count key := by
  have found : (withRepetition nc id change checkpoint distinct).lookup node =
      some (said nc id change checkpoint node) := GoMap.lookup_ofKeys.mpr ⟨member, rfl⟩
  simp [weight, found]

/-- A checkpoint other than the chosen one has one node that lists it, at most. -/
theorem listed_by_one (other : key ≠ checkpoint) {node' : NodeID}
    (lists : key ∈ (said nc id change checkpoint node).underlying.checkpoints)
    (lists' : key ∈ (said nc id change checkpoint node').underlying.checkpoints) : node = node' := by
  have reads {node : NodeID}
      (lists : key ∈ (said nc id change checkpoint node).underlying.checkpoints) :
      node = id ∧ key ∈ change.underlying.checkpoints ∨ key = ownCheckpoint change node := by
    unfold said at lists
    split at lists
    · exact .inl ⟨by assumption, lists⟩
    · split at lists
      · exact absurd (mem_singleton.mp lists) other
      · exact .inr (mem_singleton.mp lists)
  rcases reads lists with ⟨rfl, mine⟩ | rfl
  · rcases reads lists' with ⟨rfl, _⟩ | rfl
    · rfl
    · exact absurd mine (ownCheckpoint_notMem node')
  · rcases reads lists' with ⟨rfl, mine⟩ | same
    · exact absurd mine (ownCheckpoint_notMem node)
    · exact ownCheckpoint_injective same

/-- The nodes that list something else. -/
def quiet (nc : NetworkConfig) (id node : NodeID) : Bool := node ≠ id ∧ node ∉ helpers nc id

theorem said_of_quiet (isQuiet : quiet nc id node = true) :
    said nc id change checkpoint node =
      listingChange change.underlying.newEpoch (ownCheckpoint change node) := by
  obtain ⟨different, noHelper⟩ := of_decide_eq_true isQuiet
  rw [said, if_neg different, if_neg noHelper]

/-- `id` and its helpers are `f` nodes. -/
theorem card_loud (id : NodeID) (byzantine : 0 < nc.f) :
    (insert id (helpers nc id).toFinset).card ≤ nc.f := by
  have few : (helpers nc id).toFinset.card ≤ nc.f - 1 :=
    (toFinset_card_le _).trans (length_take_le _ _)
  have := Finset.card_insert_le id (helpers nc id).toFinset
  omega

theorem countP_quiet (id : NodeID) (distinct : nc.nodes.Nodup) (enough : 3 * nc.f + 1 ≤ nc.nodes.length)
    (byzantine : 0 < nc.f) : intersectionQuorum nc ≤ nc.nodes.countP (quiet nc id) := by
  have loud : (nc.nodes.filter fun node => !quiet nc id node).length ≤ nc.f := by
    rw [← toFinset_card_of_nodup (distinct.filter _)]
    refine (Finset.card_le_card fun node member => ?_).trans (card_loud id byzantine)
    simpa [quiet] using (mem_filter.mp (mem_toFinset.mp member)).2
  have all : nc.nodes.length = nc.nodes.countP (quiet nc id) +
      (nc.nodes.filter fun node => !quiet nc id node).length := by
    rw [← countP_eq_length_filter]
    simpa using length_eq_countP_add_countP (quiet nc id)
  unfold intersectionQuorum
  omega

/-- **A count that the others pass is a quorum.** -/
theorem quorum_of_quiet (distinct : nc.nodes.Nodup) (enough : 3 * nc.f + 1 ≤ nc.nodes.length)
    (byzantine : 0 < nc.f) {p : NodeID → ParsedEpochChange → Bool}
    (passes : ∀ node, p node (listingChange change.underlying.newEpoch (ownCheckpoint change node)) =
      true) :
    intersectionQuorum nc ≤ GoMap.countP (withRepetition nc id change checkpoint distinct) p := by
  refine (countP_quiet id distinct enough byzantine).trans ?_
  rw [withRepetition, GoMap.countP_ofKeys]
  refine countP_mono_left fun node _ isQuiet => ?_
  rw [said_of_quiet isQuiet]
  exact passes node

theorem listed_enough (distinct : nc.nodes.Nodup) (enough : 3 * nc.f + 1 ≤ nc.nodes.length)
    (known : id ∈ nc.nodes) (repeated : 2 ≤ change.underlying.checkpoints.count checkpoint) :
    someCorrectQuorum nc ≤
      (listings (withRepetition nc id change checkpoint distinct) checkpoint nc.nodes).length := by
  have helperCount : (helpers nc id).length = nc.f - 1 := by
    have length := length_erase_of_mem known
    rw [helpers, length_take]
    omega
  have helperCard : (helpers nc id).toFinset.card = nc.f - 1 := by
    have helperDistinct : (helpers nc id).Nodup := (distinct.erase id).take
    rw [toFinset_card_of_nodup helperDistinct, helperCount]
  have mine : said nc id change checkpoint id = change := if_pos rfl
  have theirs {node : NodeID} (member : node ∈ (helpers nc id).toFinset) :
      weight (withRepetition nc id change checkpoint distinct) checkpoint node = 1 := by
    rw [mem_toFinset] at member
    have different : node ≠ id := fun same => notMem_helpers distinct (same ▸ member)
    rw [weight_withRepetition (mem_of_mem_erase (mem_of_mem_take member)), said,
      if_neg different, if_pos member]
    simp [listingChange]
  rw [length_listings distinct]
  calc nc.f + 1 ≤ 2 + (helpers nc id).toFinset.card := by omega
    _ ≤ ∑ node ∈ insert id (helpers nc id).toFinset,
          weight (withRepetition nc id change checkpoint distinct) checkpoint node := by
        rw [Finset.sum_insert (by simpa using notMem_helpers distinct), Finset.card_eq_sum_ones,
          weight_withRepetition known, mine, Finset.sum_congr rfl fun node => theirs]
        omega
    _ ≤ _ := by
        refine Finset.sum_le_sum_of_subset fun node member => ?_
        rw [mem_toFinset]
        rcases Finset.mem_insert.mp member with rfl | member
        · exact known
        · exact mem_of_mem_erase (mem_of_mem_take (mem_toFinset.mp member))

theorem card_supporters (distinct : nc.nodes.Nodup) (byzantine : 0 < nc.f)
    (listed : checkpoint ∈ change.underlying.checkpoints) :
    (supporters (withRepetition nc id change checkpoint distinct) checkpoint).card ≤ nc.f := by
  refine (Finset.card_le_card fun node member => ?_).trans (card_loud id byzantine)
  obtain ⟨found, isFound, lists⟩ := GoMap.mem_holders.mp member
  obtain ⟨_, rfl⟩ := GoMap.lookup_ofKeys.mp isFound
  rw [Finset.mem_insert, mem_toFinset]
  by_contra isQuiet
  have isQuiet : quiet nc id node = true := decide_eq_true (not_or.mp isQuiet)
  rw [said_of_quiet isQuiet] at lists
  have same : checkpoint = ownCheckpoint change node :=
    mem_singleton.mp (of_decide_eq_true lists)
  exact ownCheckpoint_notMem node (same ▸ listed)

theorem repeated_of_listed (distinct : nc.nodes.Nodup) (other : key ≠ checkpoint)
    (listed : 2 ≤ (listings (withRepetition nc id change checkpoint distinct) key nc.nodes).length) :
    2 ≤ change.underlying.checkpoints.count key := by
  rw [length_listings distinct] at listed
  have positive : ∑ node ∈ nc.nodes.toFinset,
      weight (withRepetition nc id change checkpoint distinct) key node ≠ 0 := by omega
  obtain ⟨node, member, lists⟩ := Finset.exists_ne_zero_of_sum_ne_zero positive
  have alone : ∑ node ∈ nc.nodes.toFinset,
      weight (withRepetition nc id change checkpoint distinct) key node =
        weight (withRepetition nc id change checkpoint distinct) key node := by
    refine Finset.sum_eq_single_of_mem node member fun node' member' different => ?_
    rw [weight_withRepetition (mem_toFinset.mp member)] at lists
    rw [weight_withRepetition (mem_toFinset.mp member')]
    by_contra lists'
    exact different (listed_by_one other (count_pos_iff.mp (Nat.pos_of_ne_zero lists'))
      (count_pos_iff.mp (Nat.pos_of_ne_zero lists)))
  rw [alone, weight_withRepetition (mem_toFinset.mp member), said] at listed
  split at listed
  · exact listed
  · split at listed
    · exact absurd (listed.trans count_le_length) (by simp [listingChange])
    · exact absurd (listed.trans count_le_length) (by simp [listingChange])

theorem mem_collected {entry : Σ _ : Checkpoint, List NodeID}
    (member : entry ∈ (collectCheckpoints changes nodes ∅ 0).1.entries) :
    entry.2 = listings changes entry.1 nodes := by
  have found := Option.mem_def.mp (AList.mem_lookup_iff.mpr member)
  have isListings := lookup_collectCheckpoints changes nodes ∅ 0 entry.1
  rwa [found, AList.lookup_empty, Option.getD_none] at isListings

theorem collected_of_listed (listed : listings changes key nodes ≠ []) :
    ⟨key, listings changes key nodes⟩ ∈ (collectCheckpoints changes nodes ∅ 0).1.entries := by
  have isListings := lookup_collectCheckpoints changes nodes ∅ 0 key
  refine AList.mem_lookup_iff.mp ?_
  cases found : (collectCheckpoints changes nodes ∅ 0).1.lookup key with
  | none =>
    rw [found] at isListings
    exact absurd isListings.symm listed
  | some under =>
    rw [found, Option.getD_some] at isListings
    rw [isListings]
    rfl

theorem selectEntry_eq_none {seqNo : Nat}
    (few : ∀ entry, a2Count changes entry seqNo < someCorrectQuorum nc) (nodes : List NodeID) :
    selectEntry nc changes seqNo nodes = none := by
  induction nodes with
  | nil => rfl
  | cons node rest ih =>
    unfold selectEntry
    split
    · exact ih
    · split
      · exact ih
      · rw [if_pos (few _), ih]

theorem selectEntries_null {start : Nat}
    (unselected : ∀ seqNo, selectEntry nc changes seqNo nc.nodes = none)
    (null : ∀ seqNo, 0 < seqNo → intersectionQuorum nc ≤ bCount changes seqNo)
    {offsets : List Nat} (range : ∀ offset ∈ offsets, offset + start + 1 < 2 ^ 64) :
    ∃ entries, selectEntries nc changes start offsets = some entries := by
  induction offsets with
  | nil => exact ⟨[], rfl⟩
  | cons offset rest ih =>
    obtain ⟨entries, selected⟩ := ih fun other member => range other (mem_cons_of_mem _ member)
    have inRange := range offset mem_cons_self
    have enough := Nat.not_lt.mpr (null ((offset + start + 1) % 2 ^ 64) (by omega))
    exact ⟨none :: entries, by
      simp only [selectEntries, unselected, if_neg enough, selected, Option.map_some]⟩

/-- A configuration is returned if a checkpoint and the batches are selected. -/
theorem constructNewEpochConfig_of_selected {iter : MapIter} {leaders : List NodeID}
    {entries : List (Option SetEntry)} (selected : selectCheckpoint nc changes
      (iter.run (collectCheckpoints changes nc.nodes ∅ 0).1.entries) none = .ok (some checkpoint))
    (batches : selectEntries nc changes checkpoint.seqNo
      (List.range (2 * nc.checkpointInterval)) = some entries) :
    ∃ config, constructNewEpochConfig iter nc leaders changes = .ok (some config) ∧
      config.startingCheckpoint = checkpoint := by
  unfold constructNewEpochConfig
  simp only [selected, bind, Except.bind, batches]
  exact ⟨_, rfl, rfl⟩

/-- Only `id` may have preprepared anything. -/
theorem a2Count_withRepetition (byzantine : 0 < nc.f) (entry : SetEntry) (seqNo : Nat) :
    a2Count (withRepetition nc id change checkpoint distinct) entry seqNo < someCorrectQuorum nc := by
  have only : GoMap.holders (withRepetition nc id change checkpoint distinct)
      (fun _ => a2Supports entry seqNo) ⊆ {id} := by
    intro node member
    obtain ⟨found, isFound, supports⟩ := GoMap.mem_holders.mp member
    obtain ⟨_, rfl⟩ := GoMap.lookup_ofKeys.mp isFound
    rw [Finset.mem_singleton]
    by_contra different
    rw [said, if_neg different] at supports
    split at supports <;> simp [a2Supports, listingChange] at supports
  have bounded := Finset.card_le_card only
  rw [Finset.card_singleton, GoMap.card_holders] at bounded
  unfold a2Count someCorrectQuorum
  omega

theorem selectEntries_withRepetition (distinct : nc.nodes.Nodup)
    (enough : 3 * nc.f + 1 ≤ nc.nodes.length) (byzantine : 0 < nc.f) {start : Nat}
    {offsets : List Nat} (range : ∀ offset ∈ offsets, offset + start + 1 < 2 ^ 64) :
    ∃ entries, selectEntries nc (withRepetition nc id change checkpoint distinct) start offsets =
      some entries := by
  refine selectEntries_null
    (fun seqNo => selectEntry_eq_none (fun entry => a2Count_withRepetition byzantine entry seqNo) nc.nodes)
    (fun seqNo positive => quorum_of_quiet distinct enough byzantine fun node => ?_) range
  have below : ¬ seqNo ≤ 0 := by omega
  simp [bSupports, listingChange, ownCheckpoint, below]

/-- **One epoch change that lists a checkpoint twice gets it selected**, with the help of the other
faulty nodes. -/
theorem repeated_is_selected (distinct : nc.nodes.Nodup) (enough : 3 * nc.f + 1 ≤ nc.nodes.length)
    (byzantine : 0 < nc.f) (known : id ∈ nc.nodes)
    (consistent : ∀ first ∈ change.underlying.checkpoints, ∀ second ∈ change.underlying.checkpoints,
      first.seqNo = second.seqNo → first = second)
    (repeated : 2 ≤ change.underlying.checkpoints.count checkpoint)
    (highest : ∀ key, 2 ≤ change.underlying.checkpoints.count key → key.seqNo ≤ checkpoint.seqNo)
    (range : checkpoint.seqNo + 2 * nc.checkpointInterval < 2 ^ 64) (leaders : List NodeID) :
    ∃ config, constructNewEpochConfig .inOrder nc leaders
        (withRepetition nc id change checkpoint distinct) = .ok (some config) ∧
      config.startingCheckpoint = checkpoint := by
  generalize isTable : (collectCheckpoints (withRepetition nc id change checkpoint distinct) nc.nodes
    ∅ 0).1 = table
  have many := listed_enough distinct enough known repeated
  have eligible : Eligible nc (withRepetition nc id change checkpoint distinct)
      ⟨checkpoint, listings (withRepetition nc id change checkpoint distinct) checkpoint nc.nodes⟩ :=
    ⟨many, quorum_of_quiet distinct enough byzantine fun node => by
      simp [listingChange, ownCheckpoint]⟩
  have listed : ⟨checkpoint, listings (withRepetition nc id change checkpoint distinct) checkpoint
      nc.nodes⟩ ∈ table.entries := by
    rw [← isTable]
    exact collected_of_listed (ne_nil_of_length_pos (lt_of_lt_of_le (Nat.succ_pos nc.f) many))
  -- Whatever else is eligible is listed twice by the change, too.
  have twice {entry : Σ _ : Checkpoint, List NodeID} (member : entry ∈ MapIter.inOrder.run table.entries)
      (isEligible : Eligible nc (withRepetition nc id change checkpoint distinct) entry) :
      2 ≤ change.underlying.checkpoints.count entry.1 := by
    by_cases same : entry.1 = checkpoint
    · rw [same]
      exact repeated
    · have member := MapIter.inOrder.mem_run.mp member
      rw [← isTable] at member
      have many : nc.f + 1 ≤ entry.2.length := isEligible.1
      rw [mem_collected member] at many
      exact repeated_of_listed distinct same (le_trans (by omega) many)
  have separate : (MapIter.inOrder.run table.entries).Pairwise fun first second =>
      Eligible nc (withRepetition nc id change checkpoint distinct) first →
      Eligible nc (withRepetition nc id change checkpoint distinct) second →
        first.1.seqNo ≠ second.1.seqNo := by
    have keys : ((MapIter.inOrder.run table.entries).map Sigma.fst).Nodup :=
      ((MapIter.inOrder.perm table.entries).map Sigma.fst).nodup_iff.mpr table.keys_nodup
    refine (pairwise_map.mp keys).imp_of_mem fun first second apart isFirst isSecond sameSeqNo => ?_
    exact apart (consistent _ (count_pos_iff.mp (lt_of_lt_of_le Nat.two_pos (twice first isFirst)))
      _ (count_pos_iff.mp (lt_of_lt_of_le Nat.two_pos (twice second isSecond))) sameSeqNo)
  have selected : selectCheckpoint nc (withRepetition nc id change checkpoint distinct)
      (MapIter.inOrder.run table.entries) none = .ok (some checkpoint) :=
    selectCheckpoint_highest separate (MapIter.inOrder.mem_run.mpr listed) eligible
      (fun entry member isEligible => highest _ (twice member isEligible))
      (fun _ impossible => nomatch impossible) (fun _ impossible => nomatch impossible)
  rw [← isTable] at selected
  have inRange : ∀ offset ∈ List.range (2 * nc.checkpointInterval),
      offset + checkpoint.seqNo + 1 < 2 ^ 64 := by
    intro offset member
    rw [mem_range] at member
    omega
  obtain ⟨entries, batches⟩ := selectEntries_withRepetition distinct enough byzantine inRange
  exact constructNewEpochConfig_of_selected selected batches

end Repetition

/-! ### The result -/

/-- **The starting checkpoint is vouched for, if no epoch change lists a checkpoint twice**; and a
change that does, of one node, is enough to break that: the other changes need not repeat anything.
This takes a repeated checkpoint whose window is in range, as that of every returned configuration
is. -/
theorem starting_checkpoint_vouched {nc : NetworkConfig} (distinct : nc.nodes.Nodup) :
    (∀ (changes : GoMap NodeID ParsedEpochChange) (iter : MapIter) (leaders : List NodeID)
      (config : NewEpochConfig),
      (∀ id change, changes.lookup id = some change → change.underlying.checkpoints.Nodup) →
      constructNewEpochConfig iter nc leaders changes = .ok (some config) →
      Vouched nc changes config.startingCheckpoint) ∧
    (∀ (changes : GoMap NodeID ParsedEpochChange) (iter : MapIter) (leaders : List NodeID)
      (config : NewEpochConfig),
      constructNewEpochConfig iter nc leaders changes = .ok (some config) →
      config.startingCheckpoint.seqNo < 2 ^ 64 →
      config.startingCheckpoint.seqNo + 2 * nc.checkpointInterval < 2 ^ 64) ∧
    ∀ id ∈ nc.nodes, ∀ change, Accepted change → ¬ change.underlying.checkpoints.Nodup →
      (∀ checkpoint, 2 ≤ change.underlying.checkpoints.count checkpoint →
        checkpoint.seqNo + 2 * nc.checkpointInterval < 2 ^ 64) →
      (∀ first ∈ change.underlying.checkpoints, ∀ second ∈ change.underlying.checkpoints,
        first.seqNo = second.seqNo → first = second) →
      0 < nc.f → 3 * nc.f + 1 ≤ nc.nodes.length →
      ∃ changes : GoMap NodeID ParsedEpochChange, changes.lookup id = some change ∧
        (∀ other found, other ≠ id → changes.lookup other = some found →
          Accepted found ∧ found.underlying.checkpoints.Nodup) ∧
        ∀ leaders, ∃ config, constructNewEpochConfig .inOrder nc leaders changes =
          .ok (some config) ∧ ¬ Vouched nc changes config.startingCheckpoint := by
  refine ⟨?_, fun changes iter leaders config => ViewChange.window_in_range, ?_⟩
  · intro changes iter leaders config once returned
    obtain ⟨many, reached⟩ := eligible_startingCheckpoint returned
    exact .of_listed (many.trans (length_listings_le distinct once _)) reached
  · intro id known change accepted notDistinct inRange consistent byzantine enough
    -- The highest of the checkpoints that are listed twice.
    obtain ⟨some, twice⟩ : ∃ key, 2 ≤ change.underlying.checkpoints.count key := by
      by_contra none
      refine notDistinct (nodup_iff_count_le_one.mpr fun key => ?_)
      have := not_exists.mp none key
      omega
    obtain ⟨checkpoint, isRepeated, highest⟩ := Finset.exists_max_image
      (change.underlying.checkpoints.toFinset.filter (2 ≤ change.underlying.checkpoints.count ·))
      Checkpoint.seqNo ⟨some, by
        rw [Finset.mem_filter, mem_toFinset]
        exact ⟨count_pos_iff.mp (by omega), twice⟩⟩
    rw [Finset.mem_filter, mem_toFinset] at isRepeated
    refine ⟨withRepetition nc id change checkpoint distinct,
      GoMap.lookup_ofKeys.mpr ⟨known, (if_pos rfl).symm⟩, ?_, fun leaders => ?_⟩
    · intro other found different isFound
      obtain ⟨_, rfl⟩ := GoMap.lookup_ofKeys.mp isFound
      rw [said, if_neg different]
      split
      · exact ⟨listingChange_accepted _ _, nodup_singleton _⟩
      · exact ⟨listingChange_accepted _ _, nodup_singleton _⟩
    · obtain ⟨config, returned, start⟩ := repeated_is_selected distinct enough byzantine known consistent
        isRepeated.2 (fun key isTwice => highest key (by
          rw [Finset.mem_filter, mem_toFinset]
          exact ⟨count_pos_iff.mp (by omega), isTwice⟩)) (inRange _ isRepeated.2) leaders
      refine ⟨config, returned, fun vouched => ?_⟩
      rw [start] at vouched
      exact absurd (vouched.listed.trans (card_supporters distinct byzantine isRepeated.1))
        (Nat.not_succ_le_self nc.f)

open ViewChange (fourNodes hidingChange hiddenByOne)

/-- The checkpoint of the network's start, which four nodes list. -/
theorem first_checkpoint_vouched : ∃ config,
    constructNewEpochConfig .inOrder fourNodes [0] hiddenByOne = .ok (some config) ∧
    Vouched fourNodes hiddenByOne config.startingCheckpoint := by
  have once : ∀ entry ∈ hiddenByOne.entries, entry.2.underlying.checkpoints.Nodup := by decide
  refine ⟨{ config := ⟨2, [0], 10⟩, startingCheckpoint := ⟨0, [7]⟩, finalPreprepares := [[9], []] },
    rfl, ?_⟩
  have distinct : fourNodes.nodes.Nodup := by decide
  refine (starting_checkpoint_vouched distinct).1 hiddenByOne .inOrder [0] _ (fun id change found => ?_) rfl
  exact once ⟨id, change⟩ (AList.mem_lookup_iff.mp found)

/-- A change of a node that lists a checkpoint nobody computed, twice. -/
def forgingChange : ParsedEpochChange where
  underlying := { newEpoch := 2, checkpoints := [⟨5, [6]⟩, ⟨5, [6]⟩], pSet := [], qSet := [] }
  pSet := fun _ => none
  qSet := fun _ => []
  lowWatermark := 5
  acks := ∅

/-- Three correct nodes have no more than the first checkpoint; the faulty node `3` forges one. -/
def forgedByOne : GoMap NodeID ParsedEpochChange :=
  (((AList.singleton 0 hidingChange).insert 1 hidingChange).insert 2 hidingChange).insert 3 forgingChange

/-- **A forged checkpoint is selected.** -/
theorem forged_checkpoint_is_selected :
    (∀ entry ∈ forgedByOne.entries, Accepted entry.2) ∧ ∃ config,
      constructNewEpochConfig .inOrder fourNodes [0] forgedByOne = .ok (some config) ∧
      supporters forgedByOne config.startingCheckpoint = {3} ∧
      ¬ Vouched fourNodes forgedByOne config.startingCheckpoint := by
  constructor
  · intro entry member
    have which : entry = ⟨3, forgingChange⟩ ∨ entry = ⟨2, hidingChange⟩ ∨ entry = ⟨1, hidingChange⟩ ∨
        entry = ⟨0, hidingChange⟩ := by simpa [forgedByOne] using member
    rcases which with rfl | rfl | rfl | rfl <;> rfl
  · refine ⟨{ config := ⟨2, [0], 15⟩, startingCheckpoint := ⟨5, [6]⟩, finalPreprepares := [] },
      rfl, by decide, fun vouched => ?_⟩
    have listed : 2 ≤ (supporters forgedByOne ⟨5, [6]⟩).card := vouched.listed
    revert listed
    decide

end MirBft.StartingCheckpoint
