/-
**Checkpoints (`checkpoints.go`).**

The tracker counts the checkpoint messages of the window's checkpoints, and says that the log can be
cut when a later checkpoint than the oldest one is stable: this node and a quorum agree on it.

* A `*checkpoint` pointer is the sequence number it is stored under in `checkpointMap`.
* A `[]byte` that may be `nil` is an `Option`. The empty value of a message is `nil`; the one that
  `reinitialize` makes of a key of `values` is not. The tracker takes the node's own empty value for
  `nil` as well, which it is unless the application returns one that is not.
* `reinitialize` ranges over the old checkpoints and their values in orders of the state's.
-/

import MirBft.Model.Shared

namespace MirBft

open Proc (fail forEach lift zoom)

/-- `checkpointState`. -/
inductive CheckpointState where
  | idle
  | garbageCollectable
  | pendingReconfig
  | stateTransfer
deriving DecidableEq, Repr

/-- `checkpoint`: what is known of one checkpoint. A node may be counted more than once. -/
structure CheckpointVotes where
  seqNo : Nat
  networkConfig : NetworkConfig
  values : GoMap Bytes (List NodeID)
  committedValue : Option Bytes
  myValue : Option Bytes
  stable : Bool

/-- The value of a message as it is decoded: an empty one is `nil`. -/
def nonNil (value : Bytes) : Option Bytes := if value.isEmpty then none else some value

@[simp] theorem nonNil_getD (value : Bytes) : (nonNil value).getD [] = value := by
  cases value <;> rfl

/-- `checkpoint.applyCheckpointMsg`. -/
def CheckpointVotes.applyCheckpointMsg (cw : CheckpointVotes) (myID source : NodeID)
    (value : Option Bytes) : Go CheckpointVotes :=
  let key := value.getD []
  let checkpointValueNodes := (cw.values.lookup key).getD [] ++ [source]
  let agreements := checkpointValueNodes.length
  let cw := { cw with
    values := cw.values.insert key checkpointValueNodes
    committedValue := if agreements = someCorrectQuorum cw.networkConfig then value
      else cw.committedValue
    myValue := if source = myID then value else cw.myValue }
  match cw.committedValue with
  | some committedValue =>
    if cw.myValue.isSome ∧ !cw.stable then
      if key ≠ committedValue then
        throw "my checkpoint disagrees with the committed network view of this checkpoint"
      else pure { cw with stable := agreements ≥ intersectionQuorum cw.networkConfig }
    else pure cw
  | none => pure cw

structure CheckpointTracker where
  state : CheckpointState
  highestCheckpoints : GoMap NodeID Nat
  checkpointMap : GoMap Nat CheckpointVotes
  activeCheckpoints : List Nat
  msgBuffers : GoMap NodeID MsgBuffer
  networkConfig : NetworkConfig
  myConfig : InitialParameters

/-- The checkpoint tracker and what it shares. -/
structure CpState where
  ct : CheckpointTracker
  sh : Shared

namespace CheckpointTracker

/-- `newCheckpointTracker`; the network configuration is set by `reinitialize`. -/
def new (networkConfig : NetworkConfig) (myConfig : InitialParameters) : CheckpointTracker where
  state := .idle
  highestCheckpoints := ∅
  checkpointMap := ∅
  activeCheckpoints := []
  msgBuffers := ∅
  networkConfig
  myConfig

def lowWatermark (ct : CheckpointTracker) : Go Nat :=
  match ct.activeCheckpoints.head? with
  | none => throw "nil pointer dereference: activeCheckpoints"
  | some seqNo => pure seqNo

def highWatermark (ct : CheckpointTracker) : Go Nat :=
  match ct.activeCheckpoints.getLast? with
  | none => throw "nil pointer dereference: activeCheckpoints"
  | some seqNo => pure seqNo

/-- `checkpoint`: the checkpoint of a sequence number, made if it is new. -/
def checkpoint (ct : CheckpointTracker) (seqNo : Nat) : CheckpointVotes :=
  (ct.checkpointMap.lookup seqNo).getD
    { seqNo, networkConfig := ct.networkConfig, values := ∅, committedValue := none, myValue := none,
      stable := false }

def setCheckpoint (ct : CheckpointTracker) (seqNo : Nat) (cp : CheckpointVotes) : CheckpointTracker :=
  { ct with checkpointMap := ct.checkpointMap.insert seqNo cp }

/-- Above the window only the checkpoints that are some node's most recent one are kept. -/
def dropUnreferenced (ct : CheckpointTracker) : CheckpointTracker :=
  let referenced := ct.activeCheckpoints ++ ct.highestCheckpoints.entries.map Sigma.snd
  let dropped := ct.checkpointMap.keys.filter (· ∉ referenced)
  { ct with checkpointMap := dropped.foldl (fun table seqNo => table.erase seqNo) ct.checkpointMap }

/-- `applyCheckpointMsg`. Above the window a node's message is ignored unless it is lower than the
one it sent last. -/
def applyCheckpointMsg (ct : CheckpointTracker) (source : NodeID) (seqNo : Nat)
    (value : Option Bytes) : Go CheckpointTracker := do
  let high ← ct.highWatermark
  let low ← ct.lowWatermark
  if seqNo > high ∧ (ct.highestCheckpoints.lookup source).any (· ≤ seqNo) then pure ct
  else do
    let cp ← (ct.checkpoint seqNo).applyCheckpointMsg ct.myConfig.id source value
    let ct := ct.setCheckpoint seqNo cp
    if seqNo > high then
      pure { ct with highestCheckpoints := ct.highestCheckpoints.insert source seqNo }.dropUnreferenced
    else if cp.stable ∧ seqNo > low then pure { ct with state := .garbageCollectable }
    else pure ct

/-! ### Parts of the state -/

/-- A method of a shared component. -/
def onShared {α : Type} (method : GoProc Shared α) : GoProc CpState α :=
  zoom CpState.sh (fun st sh => { st with sh }) method

/-- A method that may panic and changes the tracker only. -/
def update (method : CheckpointTracker → Go CheckpointTracker) : GoProc CpState Unit := do
  let st ← Proc.get
  let ct ← lift (method st.ct)
  Proc.modify fun st => { st with ct }

/-! ### Messages -/

def filter (st : CpState) (_ : NodeID) (msg : Msg) : Go Applyable :=
  match msg with
  | .checkpoint seqNo _ => do
    let low ← st.ct.lowWatermark
    let high ← st.ct.highWatermark
    if seqNo < low then pure .past
    else if seqNo > high then pure .future
    else pure .current
  | _ => throw "interface conversion: not a checkpoint"

def applyMsg (source : NodeID) (msg : Msg) : GoProc CpState Unit :=
  match msg with
  | .checkpoint seqNo value => update fun ct => ct.applyCheckpointMsg source seqNo (nonNil value)
  | _ => fail "unexpected bad checkpoint message type, this indicates a bug"

/-- A message above the window is stored, and applied as well. -/
def step (source : NodeID) (msg : Msg) : GoProc CpState Unit := do
  let st ← Proc.get
  match ← lift (filter st source msg) with
  | .past | .invalid => pure ()
  | .current => applyMsg source msg
  | .future => match st.ct.msgBuffers.lookup source with
    | none => fail "nil pointer dereference: msgBuffers"
    | some buffer => do
      update fun ct => pure { ct with msgBuffers := ct.msgBuffers.insert source (buffer.store msg) }
      applyMsg source msg

/-! ### Moving the window -/

/-- The stable checkpoints at the front of the window, and the rest of it. -/
def splitStable (ct : CheckpointTracker) : List Nat × List Nat :=
  ct.activeCheckpoints.span fun seqNo => (ct.checkpoint seqNo).stable

/-- The loop that fills the window up to three checkpoints. -/
def extend : Nat → CheckpointTracker → Go CheckpointTracker
  | 0, ct => pure ct
  | fuel + 1, ct =>
    if ct.activeCheckpoints.length < 3 then do
      let high ← ct.highWatermark
      let next := high + ct.networkConfig.checkpointInterval
      extend fuel { ct.setCheckpoint next (ct.checkpoint next) with
        activeCheckpoints := ct.activeCheckpoints ++ [next] }
    else pure ct

/-- The messages of one node that were above the window. -/
def drainBuffer (id : NodeID) : GoProc CpState Unit := do
  let st ← Proc.get
  match st.ct.msgBuffers.lookup id with
  | none => fail "nil pointer dereference: msgBuffers"
  | some buffer => do
    let rest ← buffer.iterate filter applyMsg
    update fun ct => pure { ct with msgBuffers := ct.msgBuffers.insert id rest }

/-- `garbageCollect`: the window starts at the highest of the stable checkpoints at its front. -/
def garbageCollect : GoProc CpState Nat := do
  let st ← Proc.get
  match st.ct.splitStable.1.getLast? with
  | none => fail "nil pointer dereference: highestStable"
  | some highestStable => do
    let dropped := st.ct.splitStable.1.dropLast
    update fun ct => extend 3 { ct with
      checkpointMap := dropped.foldl (fun table seqNo => table.erase seqNo) ct.checkpointMap
      activeCheckpoints := highestStable :: st.ct.splitStable.2 }
    forEach drainBuffer st.ct.networkConfig.nodes
    update fun ct => pure { ct with state := .idle }
    pure highestStable

/-! ### Starting from the log -/

/-- The callback of `reinitialize` for the C-entries of the log. -/
def loadCEntries (ct : CheckpointTracker) : List Persistent → Go CheckpointTracker
  | [] => pure ct
  | .cEntry entry :: rest => do
    let cp ← (ct.checkpoint entry.seqNo).applyCheckpointMsg ct.myConfig.id ct.myConfig.id
      (nonNil entry.checkpointValue)
    loadCEntries { ct.setCheckpoint entry.seqNo cp with
      activeCheckpoints := ct.activeCheckpoints ++ [entry.seqNo] } rest
  | _ :: rest => ct.loadCEntries rest

/-- The configuration of the first C-entry. -/
def firstConfig : List Persistent → Option NetworkConfig
  | [] => none
  | .cEntry entry :: _ => some entry.networkState.config
  | _ :: rest => firstConfig rest

/-- One value of an old checkpoint, with the nodes that sent it and are still there. -/
def restoreValue (seqNo : Nat) (value : Bytes) (agreements : List NodeID) : GoProc CpState Unit := do
  let st ← Proc.get
  forEach (fun node => update fun ct => ct.applyCheckpointMsg node seqNo (some value))
    (agreements.filter (· ∈ st.ct.networkConfig.nodes))

/-- One checkpoint of the time before. -/
def restoreCheckpoint (seqNo : Nat) (cp : CheckpointVotes) : GoProc CpState Unit := do
  let st ← Proc.get
  let low ← lift st.ct.lowWatermark
  if seqNo < low then pure ()
  else do
    let order ← onShared Shared.pickOrder
    forEach (fun entry => restoreValue seqNo entry.1 entry.2) (order.run cp.values.entries)

def reinitialize : GoProc CpState Unit := do
  let old ← Proc.get
  match firstConfig old.sh.persisted.entries with
  | none => fail "nil pointer dereference: activeCheckpoints"
  | some networkConfig => do
    let fresh := { new networkConfig old.ct.myConfig with state := old.ct.state }
    let ct ← lift (loadCEntries fresh old.sh.persisted.entries)
    let low ← lift ct.lowWatermark
    update fun _ => pure { ct.setCheckpoint low { ct.checkpoint low with stable := true } with
      msgBuffers := reinitializeBuffers ⟨ct.myConfig⟩ old.ct.msgBuffers networkConfig.nodes }
    let order ← onShared Shared.pickOrder
    forEach (fun entry => restoreCheckpoint entry.1 entry.2)
      (order.run old.ct.checkpointMap.entries)
    let _ ← garbageCollect

end CheckpointTracker

end MirBft
