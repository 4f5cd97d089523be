/-
**The new epoch configuration a set of epoch changes determines (`constructNewEpochConfig`).**

* `collectCheckpoints`: the nodes that list each checkpoint;
* `selectCheckpoint`: the highest checkpoint with `someCorrectQuorum` supporters which
  `intersectionQuorum` nodes have not moved past;
* `selectEntry`: for one sequence number, the first entry of a P-set that passes conditions A1 and
  A2 of the view change; `bCount` is condition B, which leaves the sequence null.

The order of the `range` loop over the checkpoint table is a parameter: with two checkpoints of one
sequence number the loop may panic or not, depending on it. The three counts are over a map too, but
addition commutes.
-/

import MirBft.Model.EpochChange

namespace MirBft

/-- The first loop: who lists which checkpoint, and the epoch number of the last change. -/
def collectCheckpoints (epochChanges : GoMap NodeID ParsedEpochChange) :
    List NodeID → GoMap Checkpoint (List NodeID) → Nat → GoMap Checkpoint (List NodeID) × Nat
  | [], checkpoints, newEpochNumber => (checkpoints, newEpochNumber)
  | id :: rest, checkpoints, newEpochNumber =>
    match epochChanges.lookup id with
    | none => collectCheckpoints epochChanges rest checkpoints newEpochNumber
    | some epochChange =>
      let checkpoints := epochChange.underlying.checkpoints.foldl
        (fun table key => table.insert key ((table.lookup key).getD [] ++ [id])) checkpoints
      collectCheckpoints epochChanges rest checkpoints epochChange.underlying.newEpoch

def nodesWithLowerWatermark (epochChanges : GoMap NodeID ParsedEpochChange) (seqNo : Nat) : Nat :=
  GoMap.countP epochChanges fun _ epochChange => decide (epochChange.lowWatermark ≤ seqNo)

/-- The loop over the checkpoint table, entry by entry. -/
def selectCheckpoint (config : NetworkConfig) (epochChanges : GoMap NodeID ParsedEpochChange) :
    List (Σ _ : Checkpoint, List NodeID) → Option Checkpoint → Go (Option Checkpoint)
  | [], maxCheckpoint => pure maxCheckpoint
  | ⟨key, supporters⟩ :: rest, maxCheckpoint =>
    if supporters.length < someCorrectQuorum config then
      selectCheckpoint config epochChanges rest maxCheckpoint
    else if nodesWithLowerWatermark epochChanges key.seqNo < intersectionQuorum config then
      selectCheckpoint config epochChanges rest maxCheckpoint
    else match maxCheckpoint with
      | none => selectCheckpoint config epochChanges rest (some key)
      | some highest =>
        if highest.seqNo > key.seqNo then
          selectCheckpoint config epochChanges rest maxCheckpoint
        else if highest.seqNo = key.seqNo then
          throw "two correct quorums have different checkpoints for same seqno"
        else selectCheckpoint config epochChanges rest (some key)

/-- What condition A1 counts: nodes below the sequence whose P-entry for it does not contradict
`entry`. -/
def a1Supports (entry : SetEntry) (seqNo : Nat) (iEpochChange : ParsedEpochChange) : Bool :=
  if iEpochChange.lowWatermark ≥ seqNo then false
  else match iEpochChange.pSet seqNo with
    | none => true
    | some iEntry =>
      if iEntry.epoch < entry.epoch then true
      else if iEntry.epoch > entry.epoch then false
      else entry.digest == iEntry.digest

/-- What condition A2 counts: nodes that preprepared the digest in the epoch of `entry` or later. -/
def a2Supports (entry : SetEntry) (seqNo : Nat) (iEpochChange : ParsedEpochChange) : Bool :=
  (iEpochChange.qSet seqNo).any fun view =>
    !decide (view.1 < entry.epoch) && entry.digest == view.2

/-- What condition B counts: nodes below the sequence that did not prepare it. -/
def bSupports (seqNo : Nat) (epochChange : ParsedEpochChange) : Bool :=
  if epochChange.lowWatermark ≥ seqNo then false else (epochChange.pSet seqNo).isNone

def a1Count (epochChanges : GoMap NodeID ParsedEpochChange) (entry : SetEntry) (seqNo : Nat) :
    Nat := GoMap.countP epochChanges fun _ => a1Supports entry seqNo

def a2Count (epochChanges : GoMap NodeID ParsedEpochChange) (entry : SetEntry) (seqNo : Nat) :
    Nat := GoMap.countP epochChanges fun _ => a2Supports entry seqNo

def bCount (epochChanges : GoMap NodeID ParsedEpochChange) (seqNo : Nat) : Nat :=
  GoMap.countP epochChanges fun _ => bSupports seqNo

/-- The entry selected for a sequence number: the first, in the order of the nodes, that passes A1
and A2. -/
def selectEntry (config : NetworkConfig) (epochChanges : GoMap NodeID ParsedEpochChange)
    (seqNo : Nat) : List NodeID → Option SetEntry
  | [] => none
  | id :: rest =>
    match (epochChanges.lookup id).bind fun epochChange => epochChange.pSet seqNo with
    | none => selectEntry config epochChanges seqNo rest
    | some entry =>
      if a1Count epochChanges entry seqNo < intersectionQuorum config then
        selectEntry config epochChanges seqNo rest
      else if a2Count epochChanges entry seqNo < someCorrectQuorum config then
        selectEntry config epochChanges seqNo rest
      else some entry

/-- The loop over `FinalPreprepares`: the selected entry of each offset, or `none` for the whole
when a sequence satisfies neither condition A nor condition B. -/
def selectEntries (config : NetworkConfig) (epochChanges : GoMap NodeID ParsedEpochChange)
    (start : Nat) : List Nat → Option (List (Option SetEntry))
  | [] => some []
  | seqNoOffset :: rest =>
    let seqNo := (seqNoOffset + start + 1) % 2 ^ 64
    match selectEntry config epochChanges seqNo config.nodes with
    | some entry => (selectEntries config epochChanges start rest).map (some entry :: ·)
    | none =>
      if bCount epochChanges seqNo < intersectionQuorum config then none
      else (selectEntries config epochChanges start rest).map (none :: ·)

/-- **`constructNewEpochConfig`**; `none` is the source's `nil`. -/
def constructNewEpochConfig (iter : MapIter) (config : NetworkConfig) (newLeaders : List NodeID)
    (epochChanges : GoMap NodeID ParsedEpochChange) : Go (Option NewEpochConfig) := do
  let (checkpoints, newEpochNumber) := collectCheckpoints epochChanges config.nodes ∅ 0
  match ← selectCheckpoint config epochChanges (iter.run checkpoints.entries) none with
  | none => pure none
  | some maxCheckpoint =>
    match selectEntries config epochChanges maxCheckpoint.seqNo
        (List.range (2 * config.checkpointInterval)) with
    | none => pure none
    | some entries => pure (some
      { config :=
          { number := newEpochNumber
            leaders := newLeaders
            plannedExpiration := (maxCheckpoint.seqNo + config.maxEpochLength) % 2 ^ 64 }
        startingCheckpoint := maxCheckpoint
        finalPreprepares :=
          if entries.any Option.isSome then
            entries.map fun entry => (entry.map SetEntry.digest).getD []
          else [] })

end MirBft
