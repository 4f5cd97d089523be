/-
**The current epoch (`epoch_tracker.go`).**

The tracker owns the current `EpochTarget`, routes the messages of its epoch to it, buffers those of
later epochs, and moves to the next target when the current one is done. After a restart, a state
transfer or a reconfiguration it decides from the log which epoch the node is in.

* `reinitialize` looks for a starting sequence after some checkpoint by counting up; with a
  checkpoint interval of one there is none and the source's loop does not end, which is a failure
  here.
* The outcome of the loop of `tick` over `maxEpochs` does not depend on its order: it is a maximum.
* `targets` is never written and is left out.
-/

import MirBft.Model.EpochTarget

namespace MirBft

open Proc (emit fail forEach lift zoom)

structure EpochTracker where
  currentEpoch : Option EpochTarget
  networkConfig : NetworkConfig
  myConfig : InitialParameters
  futureMsgs : GoMap NodeID MsgBuffer
  needsStateTransfer : Bool
  maxEpochs : GoMap NodeID Nat
  maxCorrectEpoch : Nat
  ticksOutOfCorrectEpoch : Nat

/-- The epoch tracker and what it shares. -/
structure TrackerState where
  tracker : EpochTracker
  sh : Shared

namespace EpochTracker

/-- `newEpochTracker`; the network configuration is set by `reinitialize`. -/
def new (networkConfig : NetworkConfig) (myConfig : InitialParameters) : EpochTracker where
  currentEpoch := none
  networkConfig
  myConfig
  futureMsgs := ∅
  needsStateTransfer := false
  maxEpochs := ∅
  maxCorrectEpoch := 0
  ticksOutOfCorrectEpoch := 0

/-! ### Parts of the state -/

/-- A method of a shared component. -/
def onShared {α : Type} (method : GoProc Shared α) : GoProc TrackerState α :=
  zoom TrackerState.sh (fun st sh => { st with sh }) method

/-- An assignment to fields of the tracker. -/
def assign (update : EpochTracker → EpochTracker) : GoProc TrackerState Unit :=
  Proc.modify fun st => { st with tracker := update st.tracker }

/-- `currentEpoch`. -/
def current : GoProc TrackerState EpochTarget := do
  let st ← Proc.get
  match st.tracker.currentEpoch with
  | none => fail "nil pointer dereference: currentEpoch"
  | some target => pure target

/-- A method of the current epoch target. -/
def onTarget {α : Type} (method : GoProc EtState α) : GoProc TrackerState α := do
  let target ← current
  zoom (fun st => ⟨target, st.sh⟩)
    (fun st inner => { tracker := { st.tracker with currentEpoch := some inner.et }, sh := inner.sh })
    method

/-! ### Messages -/

def filter (st : TrackerState) (_ : NodeID) (msg : Msg) : Go Applyable := do
  let epochNumber ← epochForMsg msg
  match st.tracker.currentEpoch with
  | none => throw "nil pointer dereference: currentEpoch"
  | some target =>
    if epochNumber < target.number then pure .past
    else if epochNumber > target.number then pure .future
    else pure .current

def applyMsg (source : NodeID) (msg : Msg) : GoProc TrackerState Unit :=
  match msg with
  | .preprepare .. | .prepare .. | .commit .. => onTarget (EpochTarget.step source msg)
  | .suspect _ => onTarget (EpochTarget.applySuspectMsg source)
  | .epochChange change => onTarget (EpochTarget.applyEpochChangeMsg source change)
  | .epochChangeAck originator change =>
    onTarget (EpochTarget.applyEpochChangeAckMsg source originator change)
  | .newEpoch newEpoch => do
    let st ← Proc.get
    if newEpoch.newConfig.config.number % st.tracker.networkConfig.nodes.length ≠ source then pure ()
    else onTarget (EpochTarget.applyNewEpochMsg newEpoch)
  | .newEpochEcho config => onTarget (EpochTarget.applyNewEpochEchoMsg source config)
  | .newEpochReady config => onTarget (EpochTarget.applyNewEpochReadyMsg source config)
  | _ => fail "unexpected bad epoch message type, this indicates a bug"

/-- A message of a later epoch is remembered. -/
def storeFuture (source : NodeID) (epochNumber : Nat) (msg : Msg) : GoProc TrackerState Unit := do
  let st ← Proc.get
  match st.tracker.futureMsgs.lookup source with
  | none => fail "nil pointer dereference: futureMsgs"
  | some buffer => assign fun tracker => { tracker with
      maxEpochs := tracker.maxEpochs.insert source
        (max ((tracker.maxEpochs.lookup source).getD 0) epochNumber)
      futureMsgs := tracker.futureMsgs.insert source (buffer.store msg) }

def step (source : NodeID) (msg : Msg) : GoProc TrackerState Unit := do
  let st ← Proc.get
  let epochNumber ← lift (epochForMsg msg)
  match ← lift (filter st source msg) with
  | .past | .invalid => pure ()
  | .future => storeFuture source epochNumber msg
  | .current => applyMsg source msg

/-- The messages of one node that were for a later epoch. -/
def drainFuture (id : NodeID) : GoProc TrackerState Unit := do
  let st ← Proc.get
  match st.tracker.futureMsgs.lookup id with
  | none => fail "nil pointer dereference: futureMsgs"
  | some buffer => do
    let rest ← buffer.iterate filter applyMsg
    assign fun tracker => { tracker with futureMsgs := tracker.futureMsgs.insert id rest }

/-- The loop over the nodes that ends `reinitialize` and `advanceState`. -/
def drainFutures : GoProc TrackerState Unit := do
  let st ← Proc.get
  forEach drainFuture st.tracker.networkConfig.nodes

/-! ### Where the log leaves off -/

/-- What `reinitialize` reads of the log. -/
structure LastEntries where
  lastNEntry : Option NEntry
  lastECEntry : Option Nat
  lastFEntry : Option EpochConfig
  highestPreprepared : Nat
deriving DecidableEq

def LastEntries.none : LastEntries where
  lastNEntry := Option.none
  lastECEntry := Option.none
  lastFEntry := Option.none
  highestPreprepared := 0

/-- One callback of the iteration. -/
def LastEntries.read (last : LastEntries) : Persistent → LastEntries
  | .nEntry entry => { last with lastNEntry := some entry }
  | .fEntry endsEpochConfig => { last with lastFEntry := some endsEpochConfig }
  | .ecEntry epochNumber => { last with lastECEntry := some epochNumber }
  | .qEntry entry => { last with highestPreprepared := max last.highestPreprepared entry.seqNo }
  | .cEntry entry => { last with highestPreprepared := max last.highestPreprepared entry.seqNo }
  | _ => last

/-- The first switch of `reinitialize`: there has to be an epoch in the log, and the active one is
later than the last one that ended. -/
def LastEntries.check (last : LastEntries) : Go Unit :=
  match last.lastNEntry, last.lastFEntry with
  | some nEntry, some endsEpochConfig =>
    if nEntry.epochConfig.number ≤ endsEpochConfig.number then
      throw "new epoch number must not be less than last terminated epoch"
    else pure ()
  | .none, .none => throw "no active epoch and no last epoch in log"
  | _, _ => pure ()

/-- No epoch change after epoch `number` is in the log. -/
def LastEntries.unchanged (last : LastEntries) (number : Nat) : Bool :=
  last.lastECEntry.all (· ≤ number)

/-- The loop that looks for the first sequence after a checkpoint, for a number of rounds. The
sequence number is a `uint64`. -/
def skipToBoundary (checkpointInterval : Nat) : Nat → Nat → Bool → Option (Nat × Bool)
  | 0, _, _ => none
  | fuel + 1, startingSeqNo, needsStateTransfer =>
    if startingSeqNo % checkpointInterval ≠ 1 then
      skipToBoundary checkpointInterval fuel ((startingSeqNo + 1) % 2 ^ 64) true
    else some (startingSeqNo, needsStateTransfer)

/-- The node was in the epoch when it stopped: it waits for the epoch to go on, and suspects it.
What the loop of the source ends with is looked for directly (`resume_follows`). -/
def resume (nEntry : NEntry) (highestPreprepared : Nat) : GoProc TrackerState Unit := do
  let st ← Proc.get
  let nc := st.tracker.networkConfig
  let number := nEntry.epochConfig.number
  match (List.range (2 * nc.checkpointInterval)).find? fun skipped =>
      (highestPreprepared + 1 + skipped) % 2 ^ 64 % nc.checkpointInterval == 1 with
  | none => fail "no sequence is the first one after a checkpoint"
  | some skipped => do
    let target := { EpochTarget.new number nc st.tracker.myConfig with
      startingSeqNo := (highestPreprepared + 1 + skipped) % 2 ^ 64, state := .resuming }
    assign fun tracker => { tracker with
      currentEpoch := some target
      needsStateTransfer := tracker.needsStateTransfer || skipped != 0 }
    onShared (Shared.onLog fun p => p.addSuspect number)
    emit [.send nc.nodes (.suspect number)]

/-- A new target for the epoch, with the epoch change the log stands for. -/
def changeTo (number : Nat) (myLeaderChoice : List NodeID) : GoProc TrackerState EpochChange := do
  let st ← Proc.get
  let epochChange ← lift (st.sh.persisted.constructEpochChange number)
  match newParsedEpochChange epochChange with
  | .error _ => fail "could not parse epoch change we generated"
  | .ok myEpochChange => do
    assign fun tracker => { tracker with
      currentEpoch := some { EpochTarget.new number tracker.networkConfig tracker.myConfig with
        myEpochChange := some myEpochChange, myLeaderChoice } }
    pure epochChange

/-- The node has sent its epoch change for the epoch. -/
def continueChange (number : Nat) : GoProc TrackerState Unit := do
  let st ← Proc.get
  if st.tracker.currentEpoch.any (·.number == number) then onTarget EpochTarget.advanceState
  else do
    let _ ← changeTo number st.tracker.networkConfig.nodes
    drainFutures

/-- The second switch of `reinitialize`. -/
def resumeFrom (last : LastEntries) : GoProc TrackerState Unit :=
  match last.lastNEntry.filter fun nEntry => last.unchanged nEntry.epochConfig.number with
  | some nEntry => do
    resume nEntry last.highestPreprepared
    drainFutures
  | none => match last.lastFEntry.filter fun config => last.unchanged config.number with
    | some endsEpochConfig => do
      onShared (Shared.onLog fun p => p.addECEntry (endsEpochConfig.number + 1))
      continueChange (endsEpochConfig.number + 1)
    | none => match last.lastECEntry with
      | some number => continueChange number
      | none => fail "no recorded active epoch, ended epoch, or epoch change in log"

def reinitialize : GoProc TrackerState Unit := do
  let st ← Proc.get
  let networkConfig := st.sh.commitState.activeState.config
  assign fun tracker => { tracker with
    networkConfig
    futureMsgs := reinitializeBuffers ⟨tracker.myConfig⟩ tracker.futureMsgs networkConfig.nodes }
  let last := st.sh.persisted.entries.foldl LastEntries.read LastEntries.none
  lift last.check
  resumeFrom last

/-! ### Moving on -/

/-- The number of the next epoch. -/
def nextNumber (tracker : EpochTracker) (target : EpochTarget) : Nat :=
  max (target.number + 1) tracker.maxCorrectEpoch

def advanceState : GoProc TrackerState Unit := do
  let st ← Proc.get
  let target ← current
  if target.state.rank < EpochTargetState.rank .done then onTarget EpochTarget.advanceState
  else if st.sh.commitState.checkpointPending then pure ()
  else do
    let number := nextNumber st.tracker target
    let epochChange ← changeTo number [st.tracker.myConfig.id]
    onShared (Shared.onLog fun p => p.addECEntry number)
    emit [.send st.tracker.networkConfig.nodes (.epochChange epochChange)]
    drainFutures

def applyBatchHashResult (epoch seqNo : Nat) (digest : Bytes) : GoProc TrackerState Unit := do
  let target ← current
  if epoch ≠ target.number ∨ target.state ≠ .inProgress then pure ()
  else onTarget (EpochTarget.onActive (ActiveEpoch.applyBatchHashResult seqNo digest))

def applyEpochChangeDigest (source origin : NodeID) (change : EpochChange) (digest : Bytes) :
    GoProc TrackerState Unit := do
  let target ← current
  if change.newEpoch < target.number then pure ()
  else if change.newEpoch > target.number then
    fail "got an epoch change digest for an epoch later than the one we are processing"
  else onTarget (EpochTarget.applyEpochChangeDigest source origin change digest)

def moveLowWatermark (seqNo : Nat) : GoProc TrackerState Unit :=
  onTarget (EpochTarget.moveLowWatermark seqNo)

/-- The loop of `tick` over `maxEpochs`: the highest epoch that a correct node has been in. -/
def correctEpoch (nc : NetworkConfig) (maxEpochs : List Nat) (maxCorrectEpoch : Nat) : Nat :=
  maxEpochs.foldl (fun highest maxEpoch =>
    if maxEpoch ≤ highest then highest
    else if maxEpochs.countP (maxEpoch ≤ ·) + 1 < someCorrectQuorum nc then highest
    else maxEpoch) maxCorrectEpoch

/-- The part of `tick` that gives an epoch up. -/
def giveUp : GoProc TrackerState Unit := do
  let st ← Proc.get
  let target ← current
  if target.number < st.tracker.maxCorrectEpoch then do
    assign fun tracker => { tracker with
      ticksOutOfCorrectEpoch := tracker.ticksOutOfCorrectEpoch + 1 }
    if st.tracker.ticksOutOfCorrectEpoch + 1 > 10 then
      onTarget (EpochTarget.assign fun et => { et with state := .done })
    else pure ()
  else pure ()

def tick : GoProc TrackerState Unit := do
  assign fun tracker => { tracker with
    maxCorrectEpoch := correctEpoch tracker.networkConfig
      (tracker.maxEpochs.entries.map Sigma.snd) tracker.maxCorrectEpoch }
  giveUp
  onTarget EpochTarget.tick

end EpochTracker

/-! ### The log and the buffers of a tracker -/

/-- What `reinitialize` reads of a log. -/
def lastEntries (log : List Persistent) : EpochTracker.LastEntries :=
  log.foldl EpochTracker.LastEntries.read EpochTracker.LastEntries.none

/-- The last epoch of a log, if no epoch change comes after it. -/
def activeEntry (log : List Persistent) : Option NEntry :=
  (lastEntries log).lastNEntry.filter fun nEntry =>
    (lastEntries log).unchanged nEntry.epochConfig.number

namespace EpochTracker

theorem forall_reinitializeBuffers {good : NodeID → MsgBuffer → Prop} {buffers : GoMap NodeID MsgBuffer}
    {nodeBuffers : NodeBuffers} (kept : ∀ id buffer, buffers.lookup id = some buffer → good id buffer)
    (new : ∀ id, good id (MsgBuffer.new (nodeBuffers.nodeBuffer id))) (nodes : List NodeID) (id : NodeID)
    (buffer : MsgBuffer) (found : (reinitializeBuffers nodeBuffers buffers nodes).lookup id = some buffer) :
    good id buffer := by
  obtain ⟨id, _, rfl, rfl⟩ := GoMap.lookup_foldl_insert found
  cases isOld : buffers.lookup id with
  | none => exact new id
  | some old => exact kept id old isOld

theorem authentic_reinitializeBuffers {heard : NodeID → Msg → Prop} {buffers : GoMap NodeID MsgBuffer}
    (authentic : Authentic heard buffers) (nodeBuffers : NodeBuffers) (nodes : List NodeID) :
    Authentic heard (reinitializeBuffers nodeBuffers buffers nodes) :=
  forall_reinitializeBuffers authentic (fun _ => ⟨rfl, nofun⟩) nodes

end EpochTracker

end MirBft
