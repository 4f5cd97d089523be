/-
**The data of the protocol: network state, messages, log entries, events and actions.**

One record per message of `protos/msgs/msgs.proto` and `protos/state/state.proto`, with the field
names of the generated Go code.

* A `[]byte` is a `Bytes`; `nil` and the empty slice are the same value except in the fields the
  source compares with `nil`, which are an `Option Bytes`.
* A `uint64` is a `Nat`. Where the width matters (`uint64ToBytes`, the planned expiration) it is
  written out; a record whose numbers all fit is `InRange`.
* An `int32` configuration field is a `Nat`: a network has no negative sizes.
* A panic of the state machine (a failed assertion, a nil dereference, an index out of range) ends
  the computation with `throw`, so a Go function that may panic returns in `Go`.
-/

import Mathlib.Data.Finset.Card

namespace MirBft

/-- A byte string. -/
abbrev Bytes := List UInt8

instance decidableMemDigest (digest : Bytes) (digests : List Bytes) : Decidable (digest ∈ digests) :=
  inferInstance

/-- A Go computation that may panic; the string is the panic's text. -/
abbrev Go := Except String

abbrev NodeID := Nat

/-! ### Network state -/

/-- `NetworkState.Config`. -/
structure NetworkConfig where
  nodes : List NodeID
  checkpointInterval : Nat
  maxEpochLength : Nat
  numberOfBuckets : Nat
  f : Nat
deriving DecidableEq, Repr

/-- `NetworkState.Client`. -/
structure ClientState where
  id : Nat
  width : Nat
  widthConsumedLastCheckpoint : Nat
  lowWatermark : Nat
  committedMask : Bytes
deriving DecidableEq, Repr

inductive Reconfiguration where
  | newClient (id width : Nat)
  | removeClient (id : Nat)
  | newConfig (config : NetworkConfig)
deriving DecidableEq, Repr

structure NetworkState where
  config : NetworkConfig
  clients : List ClientState
  pendingReconfigurations : List Reconfiguration
deriving DecidableEq, Repr

/-! ### Messages -/

/-- The triple a batch is made of. A null request has an empty digest. -/
structure RequestAck where
  clientId : Nat
  reqNo : Nat
  digest : Bytes
deriving DecidableEq, Repr

structure Checkpoint where
  seqNo : Nat
  value : Bytes
deriving DecidableEq, Repr

structure EpochConfig where
  number : Nat
  leaders : List NodeID
  plannedExpiration : Nat
deriving DecidableEq, Repr

/-- `NewEpochConfig`; `finalPreprepares` is empty exactly when the source's slice is `nil`. -/
structure NewEpochConfig where
  config : EpochConfig
  startingCheckpoint : Checkpoint
  finalPreprepares : List Bytes
deriving DecidableEq, Repr

/-- `EpochChange.SetEntry`. -/
structure SetEntry where
  epoch : Nat
  seqNo : Nat
  digest : Bytes
deriving DecidableEq, Repr

structure EpochChange where
  newEpoch : Nat
  checkpoints : List Checkpoint
  pSet : List SetEntry
  qSet : List SetEntry
deriving DecidableEq, Repr

/-- `NewEpoch.RemoteEpochChange`. -/
structure RemoteEpochChange where
  nodeId : NodeID
  digest : Bytes
deriving DecidableEq, Repr

structure NewEpoch where
  newConfig : NewEpochConfig
  epochChanges : List RemoteEpochChange
deriving DecidableEq, Repr

inductive Msg where
  | preprepare (seqNo : Nat) (epoch : Nat) (batch : List RequestAck)
  | prepare (seqNo : Nat) (epoch : Nat) (digest : Bytes)
  | commit (seqNo : Nat) (epoch : Nat) (digest : Bytes)
  | checkpoint (seqNo : Nat) (value : Bytes)
  | suspect (epoch : Nat)
  | epochChange (change : EpochChange)
  | epochChangeAck (originator : NodeID) (change : EpochChange)
  | newEpoch (newEpoch : NewEpoch)
  | newEpochEcho (config : NewEpochConfig)
  | newEpochReady (config : NewEpochConfig)
  | fetchBatch (seqNo : Nat) (digest : Bytes)
  | forwardBatch (seqNo : Nat) (requestAcks : List RequestAck) (digest : Bytes)
  | fetchRequest (ack : RequestAck)
  | forwardRequest (ack : RequestAck) (requestData : Bytes)
  | requestAck (ack : RequestAck)
deriving DecidableEq, Repr

/-- `epochForMsg` (`epoch_tracker.go`): the epoch a message is for. -/
def epochForMsg : Msg → Go Nat
  | .preprepare _ epoch _ => pure epoch
  | .prepare _ epoch _ => pure epoch
  | .commit _ epoch _ => pure epoch
  | .suspect epoch => pure epoch
  | .epochChange change => pure change.newEpoch
  | .epochChangeAck _ change => pure change.newEpoch
  | .newEpoch newEpoch => pure newEpoch.newConfig.config.number
  | .newEpochEcho config => pure config.config.number
  | .newEpochReady config => pure config.config.number
  | _ => throw "unexpected bad epoch message type, this indicates a bug"

/-! ### Log entries -/

structure QEntry where
  seqNo : Nat
  digest : Bytes
  requests : List RequestAck
deriving DecidableEq, Repr

structure PEntry where
  seqNo : Nat
  digest : Bytes
deriving DecidableEq, Repr

structure CEntry where
  seqNo : Nat
  checkpointValue : Bytes
  networkState : NetworkState
deriving DecidableEq, Repr

structure NEntry where
  seqNo : Nat
  epochConfig : EpochConfig
deriving DecidableEq, Repr

/-- An entry of the write-ahead log (`Persistent`). -/
inductive Persistent where
  | qEntry (entry : QEntry)
  | pEntry (entry : PEntry)
  | cEntry (entry : CEntry)
  | nEntry (entry : NEntry)
  | fEntry (endsEpochConfig : EpochConfig)
  | ecEntry (epochNumber : Nat)
  | tEntry (seqNo : Nat) (value : Bytes)
  | suspect (epoch : Nat)
deriving DecidableEq, Repr

/-! ### Actions and events of the state machine -/

/-- Where a hash request comes from; the result carries it back. -/
inductive HashOrigin where
  | batch (source : NodeID) (epoch : Nat) (seqNo : Nat) (requestAcks : List RequestAck)
  | verifyBatch (source : NodeID) (seqNo : Nat) (requestAcks : List RequestAck)
      (expectedDigest : Bytes)
  | epochChange (source origin : NodeID) (change : EpochChange)
deriving DecidableEq, Repr

inductive Action where
  | send (targets : List NodeID) (msg : Msg)
  | hash (data : List Bytes) (origin : HashOrigin)
  | appendWriteAhead (index : Nat) (entry : Persistent)
  | truncateWriteAhead (index : Nat)
  | commit (batch : QEntry)
  | checkpoint (seqNo : Nat) (networkConfig : NetworkConfig) (clientStates : List ClientState)
  | allocatedRequest (clientId reqNo : Nat)
  | correctRequest (ack : RequestAck)
  | forwardRequest (targets : List NodeID) (ack : RequestAck)
  | stateTransfer (seqNo : Nat) (value : Bytes)
deriving DecidableEq, Repr

/-- `EventInitialParameters`. -/
structure InitialParameters where
  id : NodeID
  batchSize : Nat
  heartbeatTicks : Nat
  suspectTicks : Nat
  newEpochTimeoutTicks : Nat
  bufferSize : Nat
deriving DecidableEq, Repr

inductive Event where
  | initParameters (parameters : InitialParameters)
  | loadPersistedEntry (index : Nat) (entry : Persistent)
  | completeInitialization
  | hashResult (digest : Bytes) (origin : HashOrigin)
  | checkpointResult (seqNo : Nat) (value : Bytes) (networkState : NetworkState)
  | requestPersisted (ack : RequestAck)
  | stateTransferComplete (seqNo : Nat) (checkpointValue : Bytes) (networkState : NetworkState)
  | stateTransferFailed (seqNo : Nat) (checkpointValue : Bytes)
  | step (source : NodeID) (msg : Msg)
  | tickElapsed
  | actionsReceived
deriving DecidableEq, Repr

/-- The messages an action list sends. -/
def sentMsgs (actions : List Action) : List Msg :=
  actions.filterMap fun action => match action with
    | .send _ msg => some msg
    | _ => none

@[simp] theorem sentMsgs_nil : sentMsgs [] = [] := rfl

@[simp] theorem sentMsgs_append (first second : List Action) :
    sentMsgs (first ++ second) = sentMsgs first ++ sentMsgs second := by
  simp [sentMsgs]

/-- The hash requests of an action list. -/
def hashRequests (actions : List Action) : List (List Bytes × HashOrigin) :=
  actions.filterMap fun action => match action with
    | .hash data origin => some (data, origin)
    | _ => none

@[simp] theorem hashRequests_nil : hashRequests [] = [] := rfl

@[simp] theorem hashRequests_append (first second : List Action) :
    hashRequests (first ++ second) = hashRequests first ++ hashRequests second := by
  simp [hashRequests]

end MirBft
