/-
**The way into an epoch (`epoch_target.go`).**

An `EpochTarget` collects epoch changes, receives the leader's new epoch, verifies it, fetches what
it needs, and broadcasts its configuration with echos and readies until the epoch is active. Its
methods are procedures on the target and what it shares with the other components (`EtState`).

* The maps `echos` and `readies` are keyed by pointers and searched for a proto-equal configuration,
  so that they are maps from configurations. `readies` and `echos` are ranged over in an order of
  the state's (`Shared.pickOrder`).
* `advanceState` loops until the state does not change, and `verifyNewEpochState` calls it from
  inside the loop. Every change raises the state's rank, so that as many rounds as there are states
  are enough.
* A leader without a `myNewEpoch` sends a `nil` message on a tick, which no receiver accepts; the
  model sends nothing.
* `echoed` is history: the new epoch that was echoed. It is only read for `Shared.accepted`.
-/

import MirBft.Model.ActiveEpoch
import MirBft.Model.NewEpochConfig

namespace MirBft

open Proc (emit fail forEach lift zoom)

/-- `epochTargetState`. -/
inductive EpochTargetState where
  | prepending
  | pending
  | verifying
  | fetching
  | echoing
  | readying
  | resuming
  | ready
  | inProgress
  | ending
  | done
deriving DecidableEq, Repr

/-- The constant's value; the source compares states by it. -/
def EpochTargetState.rank : EpochTargetState → Nat
  | .prepending => 0
  | .pending => 1
  | .verifying => 2
  | .fetching => 3
  | .echoing => 4
  | .readying => 5
  | .resuming => 6
  | .ready => 7
  | .inProgress => 8
  | .ending => 9
  | .done => 10

structure EpochTarget where
  state : EpochTargetState
  stateTicks : Nat
  number : Nat
  startingSeqNo : Nat
  changes : GoMap NodeID EpochChangeAcks
  strongChanges : GoMap NodeID ParsedEpochChange
  echos : GoMap NewEpochConfig (Finset NodeID)
  readies : GoMap NewEpochConfig (Finset NodeID)
  activeEpoch : Option ActiveEpoch
  suspicions : Finset NodeID
  myNewEpoch : Option NewEpoch
  myEpochChange : Option ParsedEpochChange
  myLeaderChoice : List NodeID
  leaderNewEpoch : Option NewEpoch
  networkNewEpoch : Option NewEpochConfig
  isLeader : Bool
  prestartBuffers : GoMap NodeID MsgBuffer
  networkConfig : NetworkConfig
  myConfig : InitialParameters
  echoed : Option NewEpoch

/-- An epoch target and what it shares. -/
structure EtState where
  et : EpochTarget
  sh : Shared

namespace EpochTarget

/-- `newEpochTarget`. -/
def new (number : Nat) (networkConfig : NetworkConfig) (myConfig : InitialParameters) :
    EpochTarget where
  state := .prepending
  stateTicks := 0
  number
  startingSeqNo := 0
  changes := ∅
  strongChanges := ∅
  echos := ∅
  readies := ∅
  activeEpoch := none
  suspicions := ∅
  myNewEpoch := none
  myEpochChange := none
  myLeaderChoice := []
  leaderNewEpoch := none
  networkNewEpoch := none
  isLeader := number % networkConfig.nodes.length == myConfig.id
  prestartBuffers := networkConfig.nodes.foldl (fun table id =>
    table.insert id (.new ((NodeBuffers.mk myConfig).nodeBuffer id))) ∅
  networkConfig
  myConfig
  echoed := none

/-! ### Parts of the state -/

/-- A method of a shared component. -/
def onShared {α : Type} (method : GoProc Shared α) : GoProc EtState α :=
  zoom EtState.sh (fun st sh => { st with sh }) method

/-- An assignment to fields of the target. -/
def assign (update : EpochTarget → EpochTarget) : GoProc EtState Unit :=
  Proc.modify fun st => { st with et := update st.et }

/-- A method of the active epoch. -/
def onActive {α : Type} (method : GoProc AeState α) : GoProc EtState α := do
  let st ← Proc.get
  match st.et.activeEpoch with
  | none => fail "nil pointer dereference: activeEpoch"
  | some ae =>
    zoom (fun st => ⟨ae, st.sh⟩)
      (fun st inner => { et := { st.et with activeEpoch := some inner.ae }, sh := inner.sh }) method

/-- A message to all nodes. -/
def broadcast (msg : Msg) : GoProc EtState Unit := do
  let st ← Proc.get
  emit [.send st.et.networkConfig.nodes msg]

/-- An addition to the log. -/
def log (method : Persisted → Go (Persisted × List Action)) : GoProc EtState Unit :=
  onShared (Shared.onLog method)

/-! ### Sequences in the epoch -/

def step (source : NodeID) (msg : Msg) : GoProc EtState Unit := do
  let st ← Proc.get
  if st.et.state.rank < EpochTargetState.rank .inProgress then
    match st.et.prestartBuffers.lookup source with
    | none => fail "nil pointer dereference: prestartBuffers"
    | some buffer => assign fun et => { et with
        prestartBuffers := et.prestartBuffers.insert source (buffer.store msg) }
  else if st.et.state = .done then pure ()
  else onActive (ActiveEpoch.step source msg)

/-! ### The new epoch message -/

/-- `constructNewEpoch`. Every parsed change has an underlying one. -/
def constructNewEpoch (newLeaders : List NodeID) : GoProc EtState (Option NewEpoch) := do
  let st ← Proc.get
  let nc := st.et.networkConfig
  if st.et.strongChanges.entries.length < intersectionQuorum nc then pure none
  else do
    let order ← onShared Shared.pickOrder
    match ← lift (constructNewEpochConfig order nc newLeaders st.et.strongChanges) with
    | none => pure none
    | some newConfig =>
      let remoteChanges := (nc.nodes.filter (· ∈ st.et.strongChanges)).map fun id =>
        RemoteEpochChange.mk id
          (((st.et.changes.lookup id).bind EpochChangeAcks.strongCert).getD [])
      pure (some { newConfig, epochChanges := remoteChanges })

/-- `checkEpochQuorum`. -/
def checkEpochQuorum : GoProc EtState Unit := do
  let st ← Proc.get
  if st.et.strongChanges.entries.length < intersectionQuorum st.et.networkConfig ∨
      st.et.myEpochChange.isNone then pure ()
  else do
    let myNewEpoch ← constructNewEpoch st.et.myLeaderChoice
    assign fun et => { et with myNewEpoch }
    match myNewEpoch with
    | none => pure ()
    | some newEpoch => do
      assign fun et => { et with stateTicks := 0, state := .pending }
      if st.et.isLeader then broadcast (.newEpoch newEpoch) else pure ()

/-- The loop of `verifyNewEpochState` over the references: the parsed changes, or `none` if one of
them is repeated, unknown, or not acknowledged by a correct node. -/
def referencedChanges (nc : NetworkConfig) (changes : GoMap NodeID EpochChangeAcks)
    (epochChanges : GoMap NodeID ParsedEpochChange) :
    List RemoteEpochChange → Option (GoMap NodeID ParsedEpochChange)
  | [] => some epochChanges
  | remote :: rest =>
    if remote.nodeId ∈ epochChanges then none
    else match changes.lookup remote.nodeId with
      | none => none
      | some change => match change.parsedByDigest.lookup remote.digest with
        | none => none
        | some parsedChange =>
          if parsedChange.acks.card < someCorrectQuorum nc then none
          else referencedChanges nc changes (epochChanges.insert remote.nodeId parsedChange) rest

/-- `verifyNewEpochState`, up to the call of `advanceState`: whether the new epoch is the one that
its epoch changes lead to. -/
def verifyNewEpoch : GoProc EtState Bool := do
  let st ← Proc.get
  match st.et.leaderNewEpoch with
  | none => fail "nil pointer dereference: leaderNewEpoch"
  | some newEpoch =>
    match referencedChanges st.et.networkConfig st.et.changes ∅ newEpoch.epochChanges with
    | none => pure false
    | some epochChanges => do
      let order ← onShared Shared.pickOrder
      let config ← lift (constructNewEpochConfig order st.et.networkConfig
        newEpoch.newConfig.config.leaders epochChanges)
      if config = some newEpoch.newConfig then do
        assign fun et => { et with state := .fetching }
        pure true
      else pure false

/-! ### Fetching -/

/-- The nodes whose referenced epoch change has a batch for the sequence in its `qSet`. -/
def batchSources (changes : GoMap NodeID EpochChangeAcks) (seqNo : Nat) (digest : Bytes) :
    List RemoteEpochChange → Go (List NodeID)
  | [] => pure []
  | remote :: rest => match changes.lookup remote.nodeId with
    | none => throw "nil pointer dereference: change"
    | some change => match change.parsedByDigest.lookup remote.digest with
      | none => throw "nil pointer dereference: parsedChange"
      | some parsedChange => do
        let sources ← batchSources changes seqNo digest rest
        if (parsedChange.qSet seqNo).any fun view => view.2 == digest then
          pure (remote.nodeId :: sources)
        else pure sources

/-- The acks of the sources for a request, and the request they are for. -/
def ackSources (requestAck : RequestAck) : List NodeID → Option ClientRequest →
    GoProc EtState (Option ClientRequest)
  | [], cr => pure cr
  | id :: rest, _ => do
    let cr ← onShared (Shared.onClients (Clients.ack id requestAck))
    ackSources requestAck rest (some cr)

/-- The loop over the requests of a batch: whether one has to be fetched. -/
def fetchRequests (sources : List NodeID) (fetchPending : Bool) :
    List RequestAck → GoProc EtState Bool
  | [] => pure fetchPending
  | requestAck :: rest => do
    match ← ackSources requestAck sources none with
    | none => fail "nil pointer dereference: clientRequest"
    | some cr =>
      if cr.stored then fetchRequests sources fetchPending rest
      else do
        onShared (Shared.onClients (Clients.fetch requestAck))
        fetchRequests sources true rest

/-- One final preprepare that is not committed yet: whether something has to be fetched for it. -/
def fetchPreprepare (newEpoch : NewEpoch) (seqNo : Nat) (digest : Bytes) (fetchPending : Bool) :
    GoProc EtState Bool := do
  let st ← Proc.get
  let sources ← lift (batchSources st.et.changes seqNo digest newEpoch.epochChanges)
  if sources.length < someCorrectQuorum st.et.networkConfig then
    fail "dev only, should never be true, we found too few sources"
  else match st.sh.batchTracker.getBatch digest with
    | none => do
      let (batchTracker, actions) := st.sh.batchTracker.fetchBatch seqNo digest sources
      onShared (Proc.modify fun sh => { sh with batchTracker })
      emit actions
      pure true
    | some batch => do
      onShared (Proc.modify fun sh => { sh with
        batchTracker := sh.batchTracker.observe digest seqNo })
      fetchRequests sources fetchPending batch.requestAcks

/-- The first loop over the final preprepares. -/
def fetchPreprepares (newEpoch : NewEpoch) (seqNo : Nat) (fetchPending : Bool) :
    List Bytes → GoProc EtState Bool
  | [] => pure fetchPending
  | digest :: rest => do
    let st ← Proc.get
    if digest.isEmpty ∨ seqNo ≤ st.sh.commitState.highestCommit then
      fetchPreprepares newEpoch (seqNo + 1) fetchPending rest
    else do
      let fetchPending ← fetchPreprepare newEpoch seqNo digest fetchPending
      fetchPreprepares newEpoch (seqNo + 1) fetchPending rest

/-- The second loop over the final preprepares: their log entries. An empty digest has no
N-entry. -/
def logPreprepares (config : EpochConfig) (seqNo : Nat) : List Bytes → GoProc EtState Unit
  | [] => pure ()
  | digest :: rest => do
    let st ← Proc.get
    if digest.isEmpty then do
      log fun p => p.addQEntry ⟨seqNo, [], []⟩
      logPreprepares config (seqNo + 1) rest
    else match st.sh.batchTracker.getBatch digest with
      | none => fail "dev sanity check -- batch was just found above, not is now missing"
      | some batch => do
        log fun p => p.addQEntry ⟨seqNo, digest, batch.requestAcks⟩
        if seqNo % st.et.networkConfig.checkpointInterval = 0 ∧
            seqNo < st.sh.commitState.stopAtSeqNo then do
          log fun p => p.addNEntry ⟨seqNo + 1, config⟩
          logPreprepares config (seqNo + 1) rest
        else logPreprepares config (seqNo + 1) rest

/-- The configuration goes to the log. -/
def logNewEpoch (newConfig : NewEpochConfig) : GoProc EtState Unit := do
  log fun p => p.addNEntry ⟨newConfig.startingCheckpoint.seqNo + 1, newConfig.config⟩
  logPreprepares newConfig.config (newConfig.startingCheckpoint.seqNo + 1) newConfig.finalPreprepares

/-- The end of `fetchNewEpochState`: the configuration goes to the log and is echoed. -/
def echo (newEpoch : NewEpoch) : GoProc EtState Unit := do
  let st ← Proc.get
  let newConfig := newEpoch.newConfig
  let start := newConfig.startingCheckpoint.seqNo
  assign fun et => { et with state := .echoing, echoed := some newEpoch }
  if start = st.sh.commitState.stopAtSeqNo ∧ newConfig.finalPreprepares.length > 0 then
    fail "deal with this"
  else do
    logNewEpoch newConfig
    assign fun et => { et with startingSeqNo := start + newConfig.finalPreprepares.length + 1 }
    broadcast (.newEpochEcho newConfig)

def fetchNewEpochState : GoProc EtState Unit := do
  let st ← Proc.get
  match st.et.leaderNewEpoch with
  | none => fail "nil pointer dereference: leaderNewEpoch"
  | some newEpoch =>
    let start := newEpoch.newConfig.startingCheckpoint
    if st.sh.commitState.transferring then pure ()
    else if start.seqNo > st.sh.commitState.highestCommit then
      onShared (Shared.transferTo start.seqNo start.value)
    else do
      let fetchPending ← fetchPreprepares newEpoch (start.seqNo + 1) false
        newEpoch.newConfig.finalPreprepares
      if fetchPending then pure ()
      else if start.seqNo > st.sh.commitState.lowWatermark then pure ()
      else echo newEpoch

/-! ### Echos and readies -/

/-- A node's vote for a configuration. -/
def vote (votes : GoMap NewEpochConfig (Finset NodeID)) (config : NewEpochConfig) (source : NodeID) :
    GoMap NewEpochConfig (Finset NodeID) :=
  votes.insert config (insert source ((votes.lookup config).getD ∅))

/-- The configurations with a quorum, in the order of a `range` loop. -/
def withQuorum (order : MapIter) (nc : NetworkConfig) (votes : GoMap NewEpochConfig (Finset NodeID)) :
    List NewEpochConfig :=
  ((order.run votes.entries).filter fun entry => intersectionQuorum nc ≤ entry.2.card).map Sigma.fst

/-- The loop that logs the final preprepares as prepared. -/
def logPrepared (seqNo : Nat) : List Bytes → GoProc EtState Unit
  | [] => pure ()
  | digest :: rest => do
    log fun p => p.addPEntry ⟨seqNo, digest⟩
    logPrepared (seqNo + 1) rest

def checkNewEpochEchoQuorum : GoProc EtState Unit := do
  let order ← onShared Shared.pickOrder
  let st ← Proc.get
  match withQuorum order st.et.networkConfig st.et.echos with
  | [] => pure ()
  | config :: _ => do
    assign fun et => { et with state := .readying }
    logPrepared (config.startingCheckpoint.seqNo + 1) config.finalPreprepares
    broadcast (.newEpochReady config)

/-- The callbacks of `checkNewEpochReadyQuorum` over the log: the batches after the epoch change are
committed. They are returned for the history. -/
def replay (config : NewEpochConfig) : Bool → List Persistent → GoProc EtState (List QEntry)
  | _, [] => pure []
  | currentEpoch, .qEntry qEntry :: rest =>
    if currentEpoch then do
      onShared (Shared.commit qEntry)
      let passed ← replay config currentEpoch rest
      pure (qEntry :: passed)
    else replay config currentEpoch rest
  | currentEpoch, .ecEntry epochNumber :: rest =>
    if epochNumber < config.config.number then replay config currentEpoch rest
    else if config.config.number < epochNumber then
      fail "my epoch change entries cannot exceed the current target epoch"
    else replay config true rest
  | currentEpoch, _ :: rest => replay config currentEpoch rest

/-- A configuration with a quorum of readies is accepted. -/
def accept (config : NewEpochConfig) : GoProc EtState Unit := do
  assign fun et => { et with state := .resuming, networkNewEpoch := some config }
  let st ← Proc.get
  let passed ← replay config false st.sh.persisted.entries
  onShared (Proc.modify fun sh => { sh with
    accepted := sh.accepted ++
      [⟨st.et.number, st.et.echoed, config, st.sh.persisted.entries, passed⟩] })

/-- `checkNewEpochReadyQuorum`: every configuration with a quorum is accepted. -/
def checkNewEpochReadyQuorum : GoProc EtState Unit := do
  let order ← onShared Shared.pickOrder
  let st ← Proc.get
  forEach accept (withQuorum order st.et.networkConfig st.et.readies)

def checkEpochResumed : GoProc EtState Unit := do
  let st ← Proc.get
  if st.sh.commitState.stopAtSeqNo < st.et.startingSeqNo then pure ()
  else if st.sh.commitState.lowWatermark + 1 ≠ st.et.startingSeqNo then pure ()
  else assign fun et => { et with state := .ready }

/-! ### The loop -/

/-- The buffered messages of one node go to the active epoch. -/
def drainPrestart (id : NodeID) : GoProc EtState Unit := do
  let st ← Proc.get
  match st.et.prestartBuffers.lookup id with
  | none => fail "nil pointer dereference: prestartBuffers"
  | some buffer => do
    let rest ← buffer.iterate (fun _ _ _ => pure .current)
      (fun id msg => onActive (ActiveEpoch.step id msg))
    assign fun et => { et with prestartBuffers := et.prestartBuffers.insert id rest }

/-- The epoch begins. -/
def begin : GoProc EtState Unit := do
  let st ← Proc.get
  match st.et.networkNewEpoch with
  | none => fail "nil pointer dereference: networkNewEpoch"
  | some config => do
    let ae ← onShared (ActiveEpoch.new config.config)
    assign fun et => { et with activeEpoch := some ae }
    onActive ActiveEpoch.advance
    assign fun et => { et with state := .inProgress }
    forEach drainPrestart st.et.networkConfig.nodes
    onActive ActiveEpoch.drainBuffers

/-- One round of `advanceState`; `again` is the call of `advanceState` in `verifyNewEpochState`. -/
def advanceOnce (again : GoProc EtState Unit) : GoProc EtState Unit := do
  let st ← Proc.get
  match st.et.state with
  | .prepending => checkEpochQuorum
  | .pending =>
    if st.et.leaderNewEpoch.isNone then pure ()
    else assign fun et => { et with state := .verifying }
  | .verifying => do
    let verified ← verifyNewEpoch
    if verified then again else pure ()
  | .fetching => fetchNewEpochState
  | .echoing => checkNewEpochEchoQuorum
  | .readying => checkNewEpochReadyQuorum
  | .resuming => checkEpochResumed
  | .ready => begin
  | .inProgress => do
    onActive ActiveEpoch.advanceRequests
    onActive ActiveEpoch.advance
  | .done => pure ()
  | .ending => fail "dev sanity test"

/-- The loop of `advanceState`. -/
def advanceLoop : Nat → GoProc EtState Unit
  | 0 => pure ()
  | fuel + 1 => do
    let before ← Proc.get
    advanceOnce (advanceLoop fuel)
    let after ← Proc.get
    if after.et.state = before.et.state then pure () else advanceLoop fuel

def advanceState : GoProc EtState Unit := advanceLoop 12

/-! ### Messages -/

def applyEpochChangeAckMsg (source origin : NodeID) (msg : EpochChange) : GoProc EtState Unit :=
  emit [.hash (epochChangeHashData msg) (.epochChange source origin msg)]

def applyEpochChangeMsg (source : NodeID) (msg : EpochChange) : GoProc EtState Unit := do
  let st ← Proc.get
  if source ≠ st.et.myConfig.id then do
    broadcast (.epochChangeAck source msg)
    applyEpochChangeAckMsg source source msg
  else applyEpochChangeAckMsg source source msg

/-- The originator's change as it is known, or a new one. -/
def changeOf (et : EpochTarget) (origin : NodeID) : EpochChangeAcks :=
  (et.changes.lookup origin).getD
    { networkConfig := et.networkConfig, parsedByDigest := ∅, strongCert := none }

def applyEpochChangeDigest (source origin : NodeID) (msg : EpochChange) (digest : Bytes) :
    GoProc EtState Unit := do
  let st ← Proc.get
  let change := (st.et.changeOf origin).addMsg source msg digest
  assign fun et => { et with changes := et.changes.insert origin change }
  match change.strongCert with
  | none => pure ()
  | some strongCert =>
    if origin ∈ st.et.strongChanges then pure ()
    else match change.parsedByDigest.lookup strongCert with
      | none => fail "nil pointer dereference: parsedChange"
      | some parsedChange => do
        assign fun et => { et with strongChanges := et.strongChanges.insert origin parsedChange }
        advanceState

def applyNewEpochMsg (msg : NewEpoch) : GoProc EtState Unit := do
  assign fun et => { et with leaderNewEpoch := some msg }
  advanceState

def applyNewEpochEchoMsg (source : NodeID) (msg : NewEpochConfig) : GoProc EtState Unit := do
  assign fun et => { et with echos := vote et.echos msg source }
  advanceState

def applyNewEpochReadyMsg (source : NodeID) (msg : NewEpochConfig) : GoProc EtState Unit := do
  let st ← Proc.get
  if EpochTargetState.rank .readying < st.et.state.rank then pure ()
  else do
    let readies := vote st.et.readies msg source
    assign fun et => { et with readies }
    if ((readies.lookup msg).getD ∅).card < someCorrectQuorum st.et.networkConfig then pure ()
    else if st.et.state.rank < EpochTargetState.rank .echoing then advanceState
    else if st.et.state.rank < EpochTargetState.rank .readying then do
      assign fun et => { et with state := .readying }
      broadcast (.newEpochReady msg)
    else advanceState

def applySuspectMsg (source : NodeID) : GoProc EtState Unit := do
  let st ← Proc.get
  let suspicions := insert source st.et.suspicions
  assign fun et => { et with suspicions }
  if intersectionQuorum st.et.networkConfig ≤ suspicions.card then
    assign fun et => { et with state := .done }
  else pure ()

def moveLowWatermark (seqNo : Nat) : GoProc EtState Unit := do
  let st ← Proc.get
  if st.et.state ≠ .inProgress then pure ()
  else do
    let done ← onActive (ActiveEpoch.moveLowWatermark seqNo)
    if done then assign fun et => { et with state := .done } else pure ()

/-! ### Ticks -/

def repeatEpochChangeBroadcast : GoProc EtState Unit := do
  let st ← Proc.get
  match st.et.myEpochChange with
  | none => fail "nil pointer dereference: myEpochChange"
  | some change => broadcast (.epochChange change.underlying)

def tickPrepending : GoProc EtState Unit := do
  let st ← Proc.get
  match st.et.myNewEpoch with
  | none =>
    if st.et.myConfig.newEpochTimeoutTicks / 2 = 0 then fail "integer divide by zero"
    else if st.et.stateTicks % (st.et.myConfig.newEpochTimeoutTicks / 2) = 0 then
      repeatEpochChangeBroadcast
    else pure ()
  | some newEpoch => if st.et.isLeader then broadcast (.newEpoch newEpoch) else pure ()

/-- A node that is not the leader suspects it when the time is up. -/
def suspectLeader : GoProc EtState Unit := do
  let st ← Proc.get
  match st.et.myNewEpoch with
  | none => fail "nil pointer dereference: myNewEpoch"
  | some newEpoch => do
    broadcast (.suspect newEpoch.newConfig.config.number)
    log fun p => p.addSuspect newEpoch.newConfig.config.number

/-- A leader that has resumed the epoch has no new epoch to send again; the source then sends a
message without one, which is no `Msg`. -/
def tickPending : GoProc EtState Unit := do
  let st ← Proc.get
  if st.et.myConfig.newEpochTimeoutTicks = 0 then fail "integer divide by zero"
  else
    let pendingTicks := st.et.stateTicks % st.et.myConfig.newEpochTimeoutTicks
    if st.et.isLeader then
      match st.et.myNewEpoch with
      | some newEpoch => if pendingTicks % 2 = 0 then broadcast (.newEpoch newEpoch) else pure ()
      | none => pure ()
    else if pendingTicks = 0 then suspectLeader
    else if pendingTicks % 2 = 0 then repeatEpochChangeBroadcast
    else pure ()

def tick : GoProc EtState Unit := do
  assign fun et => { et with stateTicks := et.stateTicks + 1 }
  let st ← Proc.get
  if st.et.state = .prepending then tickPrepending
  else if st.et.state.rank ≤ EpochTargetState.rank .resuming then tickPending
  else if st.et.state.rank ≤ EpochTargetState.rank .inProgress then onActive ActiveEpoch.tick
  else pure ()

end EpochTarget

end MirBft
