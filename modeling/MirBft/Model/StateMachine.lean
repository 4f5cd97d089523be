/-
**The state machine (`state_machine.go`).**

A replica is a deterministic machine that applies events and returns actions. It is set up with its
parameters, loads its log entry by entry, and is then initialized from the log.

* The orders of the `range` loops over maps are given with each event.
* After an event the machine advances until nothing comes of it any more; `fuel` bounds the rounds,
  and a run that needs more fails.
* The assertions of `recoverLog` compare a pointer with `nil` after its conversion to an interface,
  and always hold; the dereferences that follow them panic.
-/

import MirBft.Model.Checkpoints
import MirBft.Model.EpochTracker

namespace MirBft

open Proc (emit fail lift zoom)

/-- The components of an initialized state machine. -/
structure SmState where
  tracker : EpochTracker
  checkpointTracker : CheckpointTracker
  sh : Shared

/-- `StateMachine`, by its `state`. -/
inductive StateMachine where
  | uninitialized
  | loadingPersisted (myConfig : InitialParameters) (persisted : Persisted)
  | initialized (st : SmState)

namespace Shared

/-- The components as `initialize` makes them, with the log loaded since. -/
def new (myConfig : InitialParameters) (persisted : Persisted) (networkConfig : NetworkConfig)
    (orders : Nat → MapIter) : Shared where
  myConfig
  persisted
  commitState :=
    { committingClients := ∅, lowWatermark := 0, lastAppliedCommit := 0, highestCommit := 0,
      stopAtSeqNo := 0, activeState := ⟨networkConfig, [], []⟩, lowerHalfCommits := [],
      upperHalfCommits := [], checkpointPending := false, transferring := false }
  clients :=
    { myConfig, tracker := ClientTracker.reinitialize, allocatedThrough := 0, networkConfig,
      clientStates := [], msgBuffers := ∅, clients := ∅ }
  batchTracker := .empty
  orders
  passed := []
  accepted := []

/-- `commitState.drain`. -/
def drain : GoProc Shared Unit := do
  let sh ← Proc.get
  let (commitState, actions) ← lift sh.commitState.drain
  Proc.modify fun sh => { sh with commitState }
  emit actions

/-- `commitState.reinitialize`, `clientTracker.reinitialize` and
`clientHashDisseminator.reinitialize`. -/
def reinitialize : GoProc Shared Unit := do
  let sh ← Proc.get
  let (commitState, actions) ← lift (CommitState.reinitialize sh.commitState sh.persisted)
  Proc.modify fun sh => { sh with
    commitState, clients := { sh.clients with tracker := ClientTracker.reinitialize } }
  emit actions
  onClients (Clients.reinitialize commitState.lowWatermark commitState.activeState)

/-- `clientTracker.allocate` and `clientHashDisseminator.allocate`. -/
def allocate (seqNo : Nat) (networkState : NetworkState) : GoProc Shared Unit := do
  let sh ← Proc.get
  let tracker ← lift (sh.clients.tracker.allocate networkState)
  Proc.modify fun sh => { sh with clients := { sh.clients with tracker } }
  onClients (Clients.allocate seqNo networkState)

/-- `commitState.applyCheckpointResult`, and the new requests if there is room for more
sequences. -/
def applyCheckpointResult (seqNo : Nat) (value : Bytes) (networkState : NetworkState) :
    GoProc Shared Unit := do
  let sh ← Proc.get
  let (commitState, persisted, actions) ←
    lift (sh.commitState.applyCheckpointResult sh.persisted seqNo value networkState)
  Proc.modify fun sh => { sh with commitState, persisted }
  emit actions
  if sh.commitState.stopAtSeqNo < commitState.stopAtSeqNo then allocate seqNo networkState
  else pure ()

end Shared

namespace SmState

/-! ### Parts of the state -/

/-- A method of a shared component. -/
def onShared {α : Type} (method : GoProc Shared α) : GoProc SmState α :=
  zoom SmState.sh (fun st sh => { st with sh }) method

/-- A method of the epoch tracker. -/
def onTracker {α : Type} (method : GoProc TrackerState α) : GoProc SmState α :=
  zoom (fun st => ⟨st.tracker, st.sh⟩)
    (fun st inner => { st with tracker := inner.tracker, sh := inner.sh }) method

/-- A method of the checkpoint tracker. -/
def onCheckpoints {α : Type} (method : GoProc CpState α) : GoProc SmState α :=
  zoom (fun st => ⟨st.checkpointTracker, st.sh⟩)
    (fun st inner => { st with checkpointTracker := inner.ct, sh := inner.sh }) method

/-- A change of the batch tracker. -/
def onBatches (update : BatchTracker → Go BatchTracker) : GoProc SmState Unit := do
  let st ← Proc.get
  let batchTracker ← lift (update st.sh.batchTracker)
  onShared (Proc.modify fun sh => { sh with batchTracker })

/-! ### Starting from the log -/

/-- The callbacks of `recoverLog`: at an F-entry the log is cut at the checkpoint before it. -/
def recoverLog (lastCEntry : Option CEntry) : List Persistent → GoProc SmState Unit
  | [] => pure ()
  | .cEntry entry :: rest => recoverLog (some entry) rest
  | .fEntry _ :: rest => match lastCEntry with
    | none => fail "nil pointer dereference: lastCEntry"
    | some entry => do
      onShared (Shared.onLog fun p => pure (p.truncate entry.seqNo))
      recoverLog lastCEntry rest
  | _ :: rest => recoverLog lastCEntry rest

def reinitialize : GoProc SmState Unit := do
  let st ← Proc.get
  recoverLog none st.sh.persisted.entries
  onShared Shared.reinitialize
  onCheckpoints CheckpointTracker.reinitialize
  let recovered ← Proc.get
  onBatches fun batches => pure (BatchTracker.reinitialize batches recovered.sh.persisted.entries)
  onTracker EpochTracker.reinitialize

/-! ### Events -/

def step (source : NodeID) (msg : Msg) : GoProc SmState Unit :=
  match msg with
  | .requestAck _ | .fetchRequest _ | .forwardRequest .. =>
    onShared (Shared.onClients (Clients.step source msg))
  | .checkpoint .. => onCheckpoints (CheckpointTracker.step source msg)
  | .fetchBatch .. | .forwardBatch .. => do
    let st ← Proc.get
    let actions ← lift (st.sh.batchTracker.step source msg)
    emit actions
  | _ => onTracker (EpochTracker.step source msg)

/-- A verified batch: when it was the last one to be fetched, the new epoch is looked at again. -/
def refetch : GoProc SmState Unit := do
  let st ← Proc.get
  match st.tracker.currentEpoch with
  | none => fail "nil pointer dereference: currentEpoch"
  | some target =>
    if !st.sh.batchTracker.hasFetchInFlight ∧ target.state = .fetching then
      onTracker (EpochTracker.onTarget EpochTarget.fetchNewEpochState)
    else pure ()

def processHashResult (digest : Bytes) : HashOrigin → GoProc SmState Unit
  | .batch _ epoch seqNo requestAcks => do
    onBatches fun batches => pure (batches.addBatch seqNo digest requestAcks)
    onTracker (EpochTracker.applyBatchHashResult epoch seqNo digest)
  | .epochChange source origin change =>
    onTracker (EpochTracker.applyEpochChangeDigest source origin change digest)
  | .verifyBatch _ _ requestAcks expectedDigest => do
    onBatches fun batches => batches.applyVerifyBatchHashResult digest expectedDigest requestAcks
    refetch

def processCheckpointResult (seqNo : Nat) (value : Bytes) (networkState : NetworkState) :
    GoProc SmState Unit := do
  let st ← Proc.get
  let cs := st.sh.commitState
  if seqNo < cs.lowWatermark then pure ()
  else if seqNo ≠ cs.lowWatermark + cs.checkpointInterval then
    fail "new checkpoint results muts be exactly one checkpoint interval after the last"
  else match st.tracker.currentEpoch with
    | none => fail "nil pointer dereference: currentEpoch"
    | some _ => onShared (Shared.applyCheckpointResult seqNo value networkState)

/-- The state transfer that was asked for is over. -/
def completeTransfer (seqNo : Nat) (value : Bytes) (networkState : NetworkState) :
    GoProc SmState Unit := do
  let st ← Proc.get
  if !st.sh.commitState.transferring then
    fail "state transfer event received but the state machine did not request transfer"
  else do
    onShared (Shared.onLog fun p => p.addCEntry { seqNo, checkpointValue := value, networkState })
    SmState.reinitialize

/-- The event itself, before the machine advances. -/
def handle : Event → GoProc SmState Unit
  | .tickElapsed => do
    onShared (Shared.onClients Clients.tick)
    onTracker EpochTracker.tick
  | .step source msg => step source msg
  | .hashResult digest origin => processHashResult digest origin
  | .checkpointResult seqNo value networkState => processCheckpointResult seqNo value networkState
  | .requestPersisted ack => onShared (Shared.onClients (Clients.applyNewRequest ack))
  | .stateTransferFailed .. => fail "XXX handle state transfer failure"
  | .stateTransferComplete seqNo value networkState => completeTransfer seqNo value networkState
  | _ => fail "cannot apply events to an uninitialized state machine"

/-- The watermark moves when a checkpoint is stable. The actions of `truncate` are dropped. -/
def collectGarbage : GoProc SmState Unit := do
  let st ← Proc.get
  if st.checkpointTracker.state = .garbageCollectable then do
    let newLow ← onCheckpoints CheckpointTracker.garbageCollect
    onShared (Proc.modify fun sh => { sh with persisted := (sh.persisted.truncate newLow).1 })
    let ci := st.checkpointTracker.networkConfig.checkpointInterval
    onBatches fun batches => pure (if newLow > ci then batches.truncate (newLow - ci) else batches)
    onTracker (EpochTracker.moveLowWatermark newLow)
  else pure ()

/-- The loop that ends `applyEvent`. -/
def advance : Nat → GoProc SmState Unit
  | 0 => fail "the state machine advances for longer than it may"
  | fuel + 1 => do
    onShared Shared.drain
    let (_, loopActions) ← Proc.listen (onTracker EpochTracker.advanceState)
    if loopActions.isEmpty then pure () else advance fuel

/-- An event of an initialized machine. -/
def applyEvent (fuel : Nat) (event : Event) : GoProc SmState Unit := do
  handle event
  collectGarbage
  advance fuel

/-! ### Effects of the methods -/

open Proc

section Effects

variable {effect : Effect SmState Action}

/-- **The recovery of the log** is a series of cuts. -/
theorem has_recoverLog (cuts : ∀ seqNo, Has effect (onShared (Shared.onLog fun p => pure (p.truncate seqNo))))
    (lastCEntry : Option CEntry) (entries : List Persistent) :
    Has effect (recoverLog lastCEntry entries) := by
  induction entries generalizing lastCEntry with
  | nil => exact has_pure ()
  | cons entry rest ih =>
    cases entry with
    | fEntry config =>
      cases lastCEntry with
      | none => exact has_fail _
      | some last => exact has_bind (cuts last.seqNo) fun _ => ih _
    | _ => exact ih _

/-- The result of a hash goes to the tracker of batches, or to the epoch that has asked for it. -/
theorem has_processHashResult {digest : Bytes}
    (batches : ∀ update : BatchTracker → Go BatchTracker,
      (∀ bt after, update bt = .ok after → bt.Grows after) → Has effect (onBatches update))
    (applies : ∀ epoch seqNo, Has effect (onTracker (EpochTracker.applyBatchHashResult epoch seqNo digest)))
    (changes : ∀ source origin change,
      Has effect (onTracker (EpochTracker.applyEpochChangeDigest source origin change digest)))
    (refetches : Has effect refetch) (origin : HashOrigin) :
      Has effect (processHashResult digest origin) := by
  cases origin with
  | batch _ epoch seqNo requestAcks =>
    refine has_bind (batches _ fun bt _ added => ?_) fun _ => applies epoch seqNo
    cases added
    exact bt.grows_addBatch seqNo digest requestAcks
  | epochChange source origin change => exact changes source origin change
  | verifyBatch _ _ _ _ =>
    exact has_bind (batches _ fun _ _ => BatchTracker.grows_applyVerifyBatchHashResult) fun _ => refetches

theorem has_processCheckpointResult {seqNo : Nat} {value : Bytes} {networkState : NetworkState}
    (applies : Has effect (onShared (Shared.applyCheckpointResult seqNo value networkState))) :
    Has effect (processCheckpointResult seqNo value networkState) := by
  refine has_bind has_get fun st => has_ite (has_pure ()) (has_ite (has_fail _) ?_)
  split
  · exact has_fail _
  · exact applies

/-- **`advance`** drains the commit state and advances the epoch, until that has no more actions. -/
theorem has_advance (drains : Has effect (onShared Shared.drain))
    (advances : Has effect (onTracker EpochTracker.advanceState)) (fuel : Nat) :
    Has effect (advance fuel) := by
  induction fuel with
  | zero => exact has_fail _
  | succ fuel ih =>
    refine has_bind drains fun _ => has_bind (fun st => ?_) fun _ => has_ite (has_pure ()) ih
    rw [wp_listen]
    exact wp_mono (advances st) fun _ _ _ done => done

end Effects

end SmState

namespace StateMachine

/-- The configuration the components have before they are initialized from the log. -/
def dummyConfig (id : NodeID) : NetworkConfig where
  nodes := [id]
  checkpointInterval := 1
  maxEpochLength := 1
  numberOfBuckets := 1
  f := 0

/-- The components, with the log loaded. -/
def components (myConfig : InitialParameters) (persisted : Persisted) (orders : Nat → MapIter) :
    SmState where
  tracker := .new (dummyConfig myConfig.id) myConfig
  checkpointTracker := .new (dummyConfig myConfig.id) myConfig
  sh := .new myConfig persisted (dummyConfig myConfig.id) orders

/-- **`applyEvent`.** -/
def applyEvent (fuel : Nat) (orders : Nat → MapIter) (event : Event) :
    StateMachine → Go (StateMachine × List Action)
  | .uninitialized => match event with
    | .initParameters parameters => pure (.loadingPersisted parameters .empty, [])
    | .actionsReceived => pure (.uninitialized, [])
    | _ => throw "cannot apply events to an uninitialized state machine"
  | .loadingPersisted myConfig persisted => match event with
    | .loadPersistedEntry index entry => do
      let persisted ← persisted.appendInitialLoad index entry
      pure (.loadingPersisted myConfig persisted, [])
    | .completeInitialization => do
      let (st, actions, _) ← SmState.reinitialize (components myConfig persisted orders)
      pure (.initialized st, actions)
    | .actionsReceived => pure (.loadingPersisted myConfig persisted, [])
    | _ => throw "cannot apply events to an uninitialized state machine"
  | .initialized st => match event with
    | .actionsReceived => pure (.initialized st, [])
    | _ => do
      let (st, actions, _) ← SmState.applyEvent fuel event { st with sh := { st.sh with orders } }
      pure (.initialized st, actions)

end StateMachine

end MirBft
