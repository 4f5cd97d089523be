/-
**A network of four nodes**, for the runs on fixed inputs.

Every checkpoint has five sequence numbers and every node a bucket; one node may be faulty, and
there are no clients. `shared` is what a node has at the start, `start` is how its state machine
gets there, and `told`, `newEpoch` are what it hears of an epoch change.
-/

import MirBft.Model.Processor
import MirBft.Model.StateMachine

namespace MirBft.FourNodes

def networkConfig : NetworkConfig :=
  { nodes := [0, 1, 2, 3], checkpointInterval := 5, maxEpochLength := 20, numberOfBuckets := 4,
    f := 1 }

def networkState : NetworkState := ⟨networkConfig, [], []⟩

/-- The parameters of one of the nodes. -/
def parameters (id : NodeID) : InitialParameters :=
  { id, batchSize := 1, heartbeatTicks := 0, suspectTicks := 4, newEpochTimeoutTicks := 8,
    bufferSize := 0 }

/-- A log with one entry. -/
def shortLog : Persisted := { nextIndex := 2, log := [⟨1, .ecEntry 0⟩] }

/-- Sequence one of epoch zero, owned by node zero, at the node `id`. -/
def sequence (id : NodeID) : Sequence := newSequence 0 0 1 networkConfig (parameters id)

/-- The components of a node that starts at sequence number zero. -/
def shared (id : NodeID) : Shared where
  myConfig := { parameters id with heartbeatTicks := 1 }
  persisted := shortLog
  commitState :=
    { committingClients := ∅, lowWatermark := 0, lastAppliedCommit := 0, highestCommit := 0,
      stopAtSeqNo := 5, activeState := networkState, lowerHalfCommits := [],
      upperHalfCommits := [], checkpointPending := false, transferring := false }
  clients :=
    { myConfig := parameters id, tracker := ClientTracker.reinitialize, allocatedThrough := 0,
      networkConfig, clientStates := [], msgBuffers := ∅, clients := ∅ }
  batchTracker := .empty
  orders := fun _ => .inOrder
  passed := []
  accepted := []

/-- An epoch that node zero leads alone. -/
def epochConfig : EpochConfig := { number := 1, leaders := [0], plannedExpiration := 5 }

/-- The log that every node joins the network with. -/
def firstLog : List Persistent := dummyWAL networkState [9]

/-- The state machine of a node starts from a log. -/
def start (id : NodeID) (log : List Persistent) : List Event :=
  [.initParameters (parameters id)] ++
    log.mapIdx (fun index entry => .loadPersistedEntry (index + 1) entry) ++ [.completeInitialization]

/-- What is loaded is in the log. -/
theorem mem_of_load_mem_start {id : NodeID} {log : List Persistent} {index : Nat} {entry : Persistent}
    (member : .loadPersistedEntry index entry ∈ start id log) : entry ∈ log := by
  simp only [start, List.mem_append, List.mem_singleton, List.mem_mapIdx, reduceCtorEq, false_or,
    or_false] at member
  obtain ⟨_, below, same⟩ := member
  cases same
  exact List.getElem_mem below

/-- The epoch change of one node, as three nodes tell of it. -/
def told (origin : NodeID) (change : EpochChange) : List Event :=
  [0, 1, 3].flatMap fun source =>
    [.step source (if source = origin then .epochChange change else .epochChangeAck origin change),
      .hashResult [UInt8.ofNat origin] (.epochChange source origin change)]

/-- The leader's new epoch for the changes of three nodes. -/
def newEpoch (leader : NodeID) (config : NewEpochConfig) : Event :=
  .step leader (.newEpoch ⟨config, [⟨0, [0]⟩, ⟨1, [1]⟩, ⟨3, [3]⟩]⟩)

/-- Epoch one, from a checkpoint on. -/
def epochOne (checkpoint : Checkpoint) : NewEpochConfig :=
  ⟨⟨1, [0, 1, 2, 3], checkpoint.seqNo + 20⟩, checkpoint, []⟩

/-- Node two starts, is told of epoch changes that list one checkpoint, and of epoch one. -/
def joining (checkpoint : Checkpoint) : List Event :=
  start 2 firstLog ++ [0, 1, 3].flatMap (told · ⟨1, [checkpoint], [], []⟩) ++
    [newEpoch 1 (epochOne checkpoint)]

end MirBft.FourNodes
