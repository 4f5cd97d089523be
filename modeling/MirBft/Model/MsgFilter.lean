/-
**Messages from the wire, and their way to a component (`msgfilter.go`, `state_machine.go`).**

In the messages of `Wire` every pointer of the generated Go code is an `Option`: the payload of a
`oneof`, a message field, an element of a repeated message field. `preProcess` is the filter that
looks at them before a message is stepped, and `SmState.route` is what `StateMachine.step` does with
a message up to and including its classification by the receiving component.

`Wire.ofMsg` has the messages of the state machine's model, in which nothing is `nil`.
-/

import MirBft.Model.StateMachine

namespace MirBft

namespace Wire

/-! ### Messages -/

structure Preprepare where
  seqNo : Nat
  epoch : Nat
  batch : List (Option RequestAck)
deriving DecidableEq, Repr

structure Prepare where
  seqNo : Nat
  epoch : Nat
  digest : Bytes
deriving DecidableEq, Repr

structure Commit where
  seqNo : Nat
  epoch : Nat
  digest : Bytes
deriving DecidableEq, Repr

structure Suspect where
  epoch : Nat
deriving DecidableEq, Repr

structure EpochChange where
  newEpoch : Nat
  checkpoints : List (Option Checkpoint)
  pSet : List (Option SetEntry)
  qSet : List (Option SetEntry)
deriving DecidableEq, Repr

structure EpochChangeAck where
  originator : NodeID
  epochChange : Option EpochChange
deriving DecidableEq, Repr

structure NewEpochConfig where
  config : Option EpochConfig
  startingCheckpoint : Option Checkpoint
  finalPreprepares : List Bytes
deriving DecidableEq, Repr

structure NewEpoch where
  newConfig : Option NewEpochConfig
  epochChanges : List (Option RemoteEpochChange)
deriving DecidableEq, Repr

structure FetchBatch where
  seqNo : Nat
  digest : Bytes
deriving DecidableEq, Repr

structure ForwardBatch where
  seqNo : Nat
  requestAcks : List (Option RequestAck)
  digest : Bytes
deriving DecidableEq, Repr

structure ForwardRequest where
  requestAck : Option RequestAck
  requestData : Bytes
deriving DecidableEq, Repr

/-- `Msg`, by its `Type`; `unset` is a message without one. -/
inductive Msg where
  | unset
  | preprepare (preprepare : Option Preprepare)
  | prepare (prepare : Option Prepare)
  | commit (commit : Option Commit)
  | suspect (suspect : Option Suspect)
  | checkpoint (checkpoint : Option Checkpoint)
  | requestAck (requestAck : Option RequestAck)
  | fetchRequest (fetchRequest : Option RequestAck)
  | forwardRequest (forwardRequest : Option ForwardRequest)
  | fetchBatch (fetchBatch : Option FetchBatch)
  | forwardBatch (forwardBatch : Option ForwardBatch)
  | epochChange (epochChange : Option EpochChange)
  | epochChangeAck (epochChangeAck : Option EpochChangeAck)
  | newEpoch (newEpoch : Option NewEpoch)
  | newEpochEcho (newEpochEcho : Option NewEpochConfig)
  | newEpochReady (newEpochReady : Option NewEpochConfig)
deriving DecidableEq, Repr

/-! ### The filter -/

/-- A pointer that must be set; the text is the error's. -/
def require {α : Type} (text : String) : Option α → Except String α
  | none => throw text
  | some value => pure value

/-- **`preProcess`**: an error is returned, not a panic. -/
def preProcess : Msg → Except String Unit
  | .preprepare preprepare => do
    let _ ← require "message of type Preprepare, but preprepare field is nil" preprepare
  | .prepare prepare => do
    let _ ← require "message of type Prepare, but prepare field is nil" prepare
  | .commit commit => do
    let _ ← require "message of type Commit, but commit field is nil" commit
  | .suspect suspect => do
    let _ ← require "message of type Suspect, but suspect field is nil" suspect
  | .checkpoint checkpoint => do
    let _ ← require "message of type Checkpoint, but checkpoint field is nil" checkpoint
  | .requestAck requestAck => do
    let _ ← require "message of type RequestAck, but request_ack field is nil" requestAck
  | .fetchRequest fetchRequest => do
    let _ ← require "message of type FetchRequest, but fetch_request field is nil" fetchRequest
  | .forwardRequest forwardRequest => do
    let forwardRequest ←
      require "message of type ForwardRequest, but forward_request field is nil" forwardRequest
    let _ ← require "message of type ForwardRequest, but forward_request's request_ack field is nil"
      forwardRequest.requestAck
  | .fetchBatch fetchBatch => do
    let _ ← require "message of type FetchBatch, but fetch_batch field is nil" fetchBatch
  | .forwardBatch forwardBatch => do
    let _ ← require "message of type ForwardBatch, but forward_batch field is nil" forwardBatch
  | .epochChange epochChange => do
    let _ ← require "message of type EpochChange, but epoch_change field is nil" epochChange
  | .epochChangeAck epochChangeAck => do
    let _ ← require "message of type EpochChangeAck, but epoch_change_ack field is nil" epochChangeAck
  | .newEpoch newEpoch => do
    let newEpoch ← require "message of type NewEpoch, but new_epoch field is nil" newEpoch
    let newConfig ← require "NewEpoch has nil NewConfig" newEpoch.newConfig
    let _ ← require "NewEpoch has nil NewConfig.Config" newConfig.config
    let _ ← require "NewEpoch Config has nil StartingCheckpoint" newConfig.startingCheckpoint
  | .newEpochEcho newEpochEcho => do
    let newEpochEcho ←
      require "message of type NewEpochEcho, but new_epoch_echo field is nil" newEpochEcho
    let _ ← require "NewEpochEcho has nil Config" newEpochEcho.config
    let _ ← require "NewEpochEcho has nil StartingCheckpoint" newEpochEcho.startingCheckpoint
  | .newEpochReady newEpochReady => do
    let newEpochReady ←
      require "message of type NewEpochReady, but new_epoch_ready field is nil" newEpochReady
    let _ ← require "NewEpochReady has nil Config" newEpochReady.config
    let _ ← require "NewEpochReady has nil StartingCheckpoint" newEpochReady.startingCheckpoint
  | .unset => throw "unknown type '<nil>' for message"

/-! ### Classification -/

/-- A pointer that is dereferenced. -/
def deref {α : Type} (field : String) : Option α → Go α
  | none => throw ("nil pointer dereference: " ++ field)
  | some value => pure value

/-- `epochForMsg`. -/
def epochForMsg : Msg → Go Nat
  | .preprepare preprepare => do return (← deref "Preprepare" preprepare).epoch
  | .prepare prepare => do return (← deref "Prepare" prepare).epoch
  | .commit commit => do return (← deref "Commit" commit).epoch
  | .suspect suspect => do return (← deref "Suspect" suspect).epoch
  | .epochChange epochChange => do return (← deref "EpochChange" epochChange).newEpoch
  | .epochChangeAck epochChangeAck => do
    let epochChangeAck ← deref "EpochChangeAck" epochChangeAck
    return (← deref "EpochChange" epochChangeAck.epochChange).newEpoch
  | .newEpoch newEpoch => do
    let newEpoch ← deref "NewEpoch" newEpoch
    let newConfig ← deref "NewConfig" newEpoch.newConfig
    return (← deref "Config" newConfig.config).number
  | .newEpochEcho newEpochEcho => do
    let newEpochEcho ← deref "NewEpochEcho" newEpochEcho
    return (← deref "Config" newEpochEcho.config).number
  | .newEpochReady newEpochReady => do
    let newEpochReady ← deref "NewEpochReady" newEpochReady
    return (← deref "Config" newEpochReady.config).number
  | _ => throw "unexpected bad epoch message type, this indicates a bug"

end Wire

/-- The switch of `epochTracker.step`. -/
def EpochTracker.classify (tracker : EpochTracker) (msg : Wire.Msg) : Go Applyable := do
  let epochNumber ← Wire.epochForMsg msg
  let target ← Wire.deref "currentEpoch" tracker.currentEpoch
  if epochNumber < target.number then pure .past
  else if epochNumber > target.number then pure .future
  else pure .current

/-- `clientHashDisseminator.filter`. -/
def Clients.classify (ct : Clients) : Wire.Msg → Go Applyable
  | .requestAck requestAck => do
    let ack ← Wire.deref "RequestAck" requestAck
    match ct.clients.lookup ack.clientId with
    | none => pure .future
    | some client =>
      if client.clientState.lowWatermark > ack.reqNo then pure .past
      else if client.highWatermark < ack.reqNo then pure .future
      else pure .current
  | .fetchRequest _ => pure .current
  | _ => throw "unexpected bad client window message type, this indicates a bug"

/-- `checkpointTracker.filter`. -/
def CheckpointTracker.classify (ct : CheckpointTracker) : Wire.Msg → Go Applyable
  | .checkpoint checkpoint => do
    let cpMsg ← Wire.deref "Checkpoint" checkpoint
    let low ← ct.lowWatermark
    let high ← ct.highWatermark
    if cpMsg.seqNo < low then pure .past
    else if cpMsg.seqNo > high then pure .future
    else pure .current
  | _ => throw "interface conversion: not a checkpoint"

/-- `batchTracker.step`: nothing is kept for later. The requests of a batch are looked at if it is
one that was asked for. -/
def BatchTracker.stepWire (bt : BatchTracker) (source : NodeID) : Wire.Msg → Go (List Action)
  | .fetchBatch fetchBatch => do
    let msg ← Wire.deref "FetchBatch" fetchBatch
    pure (bt.replyFetchBatch source msg.seqNo msg.digest)
  | .forwardBatch forwardBatch => do
    let msg ← Wire.deref "ForwardBatch" forwardBatch
    if msg.digest ∉ bt.fetchInFlight then pure []
    else do
      let requestAcks ← msg.requestAcks.mapM (Wire.deref "RequestAck")
      pure (bt.applyForwardBatchMsg source msg.seqNo msg.digest requestAcks)
  | _ => throw "unexpected bad batch message type, this indicates a bug"

/-- Where a message goes, and how it is classified there. -/
inductive Route where
  | clients (applyable : Applyable)
  | checkpoints (applyable : Applyable)
  | batches (actions : List Action)
  | epochs (applyable : Applyable)
deriving DecidableEq, Repr

/-- **The way of a message through `StateMachine.step`.** -/
def SmState.route (st : SmState) (source : NodeID) (msg : Wire.Msg) : Go Route :=
  match msg with
  | .requestAck _ | .fetchRequest _ | .forwardRequest _ => .clients <$> st.sh.clients.classify msg
  | .checkpoint _ => .checkpoints <$> st.checkpointTracker.classify msg
  | .fetchBatch _ | .forwardBatch _ => .batches <$> st.sh.batchTracker.stepWire source msg
  | .suspect _ | .epochChange _ | .epochChangeAck _ | .newEpoch _ | .newEpochEcho _ | .newEpochReady _
  | .preprepare _ | .prepare _ | .commit _ => .epochs <$> st.tracker.classify msg
  | .unset => throw "unexpected bad message type <nil>"

/-! ### The messages of the model -/

namespace Wire

def ofEpochChange (change : MirBft.EpochChange) : EpochChange where
  newEpoch := change.newEpoch
  checkpoints := change.checkpoints.map some
  pSet := change.pSet.map some
  qSet := change.qSet.map some

def ofNewEpochConfig (config : MirBft.NewEpochConfig) : NewEpochConfig where
  config := some config.config
  startingCheckpoint := some config.startingCheckpoint
  finalPreprepares := config.finalPreprepares

/-- A message in which every pointer is set. -/
def ofMsg : MirBft.Msg → Msg
  | .preprepare seqNo epoch batch => .preprepare (some ⟨seqNo, epoch, batch.map some⟩)
  | .prepare seqNo epoch digest => .prepare (some ⟨seqNo, epoch, digest⟩)
  | .commit seqNo epoch digest => .commit (some ⟨seqNo, epoch, digest⟩)
  | .checkpoint seqNo value => .checkpoint (some ⟨seqNo, value⟩)
  | .suspect epoch => .suspect (some ⟨epoch⟩)
  | .epochChange change => .epochChange (some (ofEpochChange change))
  | .epochChangeAck originator change => .epochChangeAck (some ⟨originator, some (ofEpochChange change)⟩)
  | .newEpoch newEpoch =>
    .newEpoch (some ⟨some (ofNewEpochConfig newEpoch.newConfig), newEpoch.epochChanges.map some⟩)
  | .newEpochEcho config => .newEpochEcho (some (ofNewEpochConfig config))
  | .newEpochReady config => .newEpochReady (some (ofNewEpochConfig config))
  | .fetchBatch seqNo digest => .fetchBatch (some ⟨seqNo, digest⟩)
  | .forwardBatch seqNo requestAcks digest =>
    .forwardBatch (some ⟨seqNo, requestAcks.map some, digest⟩)
  | .fetchRequest ack => .fetchRequest (some ack)
  | .forwardRequest ack requestData => .forwardRequest (some ⟨some ack, requestData⟩)
  | .requestAck ack => .requestAck (some ack)

end Wire

end MirBft
