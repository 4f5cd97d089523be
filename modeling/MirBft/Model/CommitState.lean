/-
**What has committed (`commitstate.go`).**

Committed batches are kept in two halves of a checkpoint interval each until they can be delivered
in order; when all of the lower half is delivered the application is asked for a checkpoint.

* `commit`, `drain`, `applyCheckpointResult` and `transferTo` are the operations of the epoch code
  and of the state machine; `reinitialize` rebuilds the state from the log.
* `CommittingClient` tracks which requests of a client's window have committed. A pointer to a
  sequence number that is only compared with `nil` is an `Option Nat`.
-/

import MirBft.Library.GoMap
import MirBft.Model.MsgBuffers
import MirBft.Model.Persisted
import MirBft.Model.Stateless

namespace MirBft

/-! ### Clients -/

structure CommittingClient where
  lastState : ClientState
  committedSinceLastCheckpoint : List (Option Nat)
deriving DecidableEq, Repr

/-- The loop of `newCommittingClient` over the bits of the mask. -/
def fillCommitted (seqNo : Nat) (mask : Bytes) (committed : List (Option Nat)) :
    List Nat → Go (List (Option Nat))
  | [] => pure committed
  | bit :: rest =>
    if !isBitSet mask bit then fillCommitted seqNo mask committed rest
    else if committed.length ≤ bit then throw "index out of range: committedSinceLastCheckpoint"
    else fillCommitted seqNo mask (committed.set bit (some seqNo)) rest

def newCommittingClient (seqNo : Nat) (clientState : ClientState) : Go CommittingClient := do
  let committedSinceLastCheckpoint ← fillCommitted seqNo clientState.committedMask
    (List.replicate clientState.width none) (List.range (8 * clientState.committedMask.length))
  pure { lastState := clientState, committedSinceLastCheckpoint }

namespace CommittingClient

def markCommitted (cc : CommittingClient) (seqNo reqNo : Nat) : Go CommittingClient :=
  if reqNo < cc.lastState.lowWatermark then
    throw "index out of range: committedSinceLastCheckpoint"
  else
    let offset := reqNo - cc.lastState.lowWatermark
    if cc.committedSinceLastCheckpoint.length ≤ offset then
      throw "index out of range: committedSinceLastCheckpoint"
    else pure { cc with
      committedSinceLastCheckpoint := cc.committedSinceLastCheckpoint.set offset (some seqNo) }

/-- The first uncommitted and the last committed request number, from `reqNo` on. -/
def scan (reqNo : Nat) : List (Option Nat) → Option Nat × Option Nat
  | [] => (none, none)
  | seqNo :: rest =>
    let (firstUncommitted, lastCommitted) := scan (reqNo + 1) rest
    if seqNo.isSome then (firstUncommitted, lastCommitted.orElse fun _ => some reqNo)
    else (some reqNo, lastCommitted)

/-- The loop that fills the mask of committed requests. -/
def fillMask (committed : List (Option Nat)) (mask : Bytes) : List Nat → Go Bytes
  | [] => pure mask
  | bit :: rest => match committed[bit]? with
    | none => throw "index out of range: committedSinceLastCheckpoint"
    | some none => fillMask committed mask rest
    | some (some _) =>
      if bit = 0 then throw "the first uncommitted cannot be marked committed"
      else do
        let mask ← setBit mask bit
        fillMask committed mask rest

/-- The mask of committed requests above the first uncommitted one. The distance is a `uint64`
difference converted to `int`: it is negative when everything committed lies below the first
uncommitted request. -/
def checkpointMask (committed : List (Option Nat)) (firstUncommitted lastCommitted : Nat) :
    Go Bytes :=
  if lastCommitted = firstUncommitted then pure []
  else if lastCommitted < firstUncommitted then
    let distance := firstUncommitted - lastCommitted
    if 16 ≤ distance then throw "makeslice: len out of range"
    else pure (List.replicate (1 - distance / 8) 0)
  else
    let distance := lastCommitted - firstUncommitted
    fillMask committed (List.replicate (distance / 8 + 1) 0) (List.range (distance + 1))

/-- `createCheckpointState`: the client's state at a checkpoint, and the client tracking from it. -/
def createCheckpointState (cc : CommittingClient) : Go (ClientState × CommittingClient) :=
  let last := cc.lastState
  match scan last.lowWatermark cc.committedSinceLastCheckpoint with
  | (_, none) =>
    let newState : ClientState :=
      { id := last.id, width := last.width, widthConsumedLastCheckpoint := 0,
        lowWatermark := last.lowWatermark, committedMask := [] }
    pure (newState, { cc with lastState := newState })
  | (none, some lastCommitted) =>
    -- The source compares with `LowWatermark + Width - WidthConsumedLastCheckpoint - 1`, a `uint64`
    -- difference that may wrap.
    if lastCommitted + 1 + last.widthConsumedLastCheckpoint ≠ last.lowWatermark + last.width then
      throw "if no client reqs are uncommitted, then all though the high watermark should be committed"
    else
      let newState : ClientState :=
        { id := last.id, width := last.width, widthConsumedLastCheckpoint := last.width,
          lowWatermark := lastCommitted + 1, committedMask := [] }
      pure (newState, { lastState := newState, committedSinceLastCheckpoint := [] })
  | (some firstUncommitted, some lastCommitted) => do
    let widthConsumed := firstUncommitted - last.lowWatermark
    if last.width < widthConsumed then throw "makeslice: len out of range"
    else
      let committed := cc.committedSinceLastCheckpoint.drop widthConsumed ++
        List.replicate (last.width - widthConsumed) none
      let committedMask ← checkpointMask committed firstUncommitted lastCommitted
      let newState : ClientState :=
        { id := last.id, width := last.width, widthConsumedLastCheckpoint := widthConsumed,
          lowWatermark := firstUncommitted, committedMask }
      pure (newState, { lastState := newState, committedSinceLastCheckpoint := committed })

end CommittingClient

/-! ### The commit state -/

structure CommitState where
  committingClients : GoMap Nat CommittingClient
  lowWatermark : Nat
  lastAppliedCommit : Nat
  highestCommit : Nat
  stopAtSeqNo : Nat
  activeState : NetworkState
  lowerHalfCommits : List (Option QEntry)
  upperHalfCommits : List (Option QEntry)
  checkpointPending : Bool
  transferring : Bool
deriving DecidableEq

namespace CommitState

def checkpointInterval (cs : CommitState) : Nat := cs.activeState.config.checkpointInterval

/-- The loop of `reinitialize` over the log: the last two C-entries and the last T-entry. -/
def lastEntries (last secondToLast : Option CEntry) (transfer : Option (Nat × Bytes)) :
    List Persistent → Option CEntry × Option CEntry × Option (Nat × Bytes)
  | [] => (last, secondToLast, transfer)
  | .cEntry entry :: rest => lastEntries (some entry) last transfer rest
  | .tEntry seqNo value :: rest => lastEntries last secondToLast (some (seqNo, value)) rest
  | _ :: rest => lastEntries last secondToLast transfer rest

/-- The committing clients of a network state. -/
def newCommittingClients (seqNo : Nat) (clients : GoMap Nat CommittingClient) :
    List ClientState → Go (GoMap Nat CommittingClient)
  | [] => pure clients
  | clientState :: rest => do
    let client ← newCommittingClient seqNo clientState
    newCommittingClients seqNo (clients.insert clientState.id client) rest

/-- `reinitialize`: the new state, and the transfer to resume if one was under way. The field
`checkpointPending` is kept. -/
def reinitialize (cs : CommitState) (p : Persisted) : Go (CommitState × List Action) :=
  match lastEntries none none none p.entries with
  | (none, _, _) => throw "nil pointer dereference: lastCEntry"
  | (some lastCEntry, secondToLast, lastTEntry) => do
    let base := match secondToLast with
      | some entry => if entry.networkState.pendingReconfigurations.isEmpty then lastCEntry else entry
      | none => lastCEntry
    let ci := base.networkState.config.checkpointInterval
    let committingClients ←
      newCommittingClients lastCEntry.seqNo ∅ lastCEntry.networkState.clients
    let cs := { cs with
      committingClients
      lowWatermark := base.seqNo
      lastAppliedCommit := lastCEntry.seqNo
      highestCommit := lastCEntry.seqNo
      stopAtSeqNo := if base.networkState.pendingReconfigurations.isEmpty then
        lastCEntry.seqNo + 2 * ci else lastCEntry.seqNo + ci
      activeState := base.networkState
      lowerHalfCommits := List.replicate ci none
      upperHalfCommits := List.replicate ci none }
    match lastTEntry with
    | some (seqNo, value) =>
      if lastCEntry.seqNo ≥ seqNo then pure ({ cs with transferring := false }, [])
      else pure ({ cs with transferring := true }, [.stateTransfer seqNo value])
    | none => pure ({ cs with transferring := false }, [])

/-- `commit`. -/
def commit (cs : CommitState) (qEntry : QEntry) : Go CommitState :=
  if cs.transferring then throw "we should never commit during state transfer"
  else if cs.stopAtSeqNo < qEntry.seqNo then throw "commit sequence exceeds stop sequence"
  else if qEntry.seqNo ≤ cs.lowWatermark then pure cs
  else if cs.highestCommit < qEntry.seqNo ∧ cs.highestCommit + 1 ≠ qEntry.seqNo then
    throw "next commit should always be exactly one greater than the highest"
  else
    let ci := cs.checkpointInterval
    let upper := qEntry.seqNo - cs.lowWatermark > ci
    let offset := (qEntry.seqNo - (cs.lowWatermark + 1)) % ci
    let commits := if upper then cs.upperHalfCommits else cs.lowerHalfCommits
    let cs := { cs with highestCommit := max cs.highestCommit qEntry.seqNo }
    if ci = 0 then throw "integer divide by zero"
    else match commits[offset]? with
      | none => throw "index out of range: commits"
      | some (some earlier) =>
        if earlier.digest ≠ qEntry.digest then throw "previously committed another digest"
        else pure cs
      | some none =>
        if upper then pure { cs with upperHalfCommits := commits.set offset (some qEntry) }
        else pure { cs with lowerHalfCommits := commits.set offset (some qEntry) }

/-- The clients of `nextNetworkConfig` that were there before, with their checkpoint states. -/
def nextClients (clients : GoMap Nat CommittingClient) :
    List ClientState → Go (List ClientState × GoMap Nat CommittingClient)
  | [] => pure ([], clients)
  | old :: rest => match clients.lookup old.id with
    | none => throw "must have a committing client instance all client states"
    | some cc => do
      let (state, cc) ← cc.createCheckpointState
      let (states, clients) ← nextClients (clients.insert old.id cc) rest
      pure (state :: states, clients)

/-- The reconfigurations of `nextNetworkConfig`. -/
def reconfigure (config : NetworkConfig) (clients : List ClientState) :
    List Reconfiguration → Go (NetworkConfig × List ClientState)
  | [] => pure (config, clients)
  | .newClient id width :: rest => reconfigure config
      (clients ++ [{ id, width, widthConsumedLastCheckpoint := 0, lowWatermark := 0,
                     committedMask := [] }]) rest
  | .removeClient id :: rest =>
    if clients.any (·.id == id) then
      reconfigure config (clients.eraseIdx (clients.findIdx (·.id == id))) rest
    else throw "asked to remove client which doesn't exist"
  | .newConfig newConfig :: rest => reconfigure newConfig clients rest

/-- `drain` asks for a checkpoint (`nextNetworkConfig`). -/
def requestCheckpoint (cs : CommitState) : Go (CommitState × List Action) := do
  let (states, committingClients) ← nextClients cs.committingClients cs.activeState.clients
  let (config, clients) ←
    reconfigure cs.activeState.config states cs.activeState.pendingReconfigurations
  pure ({ cs with committingClients, checkpointPending := true },
    [.checkpoint cs.lastAppliedCommit config clients])

/-- Mark the requests of a delivered batch. -/
def markRequests (seqNo : Nat) (clients : GoMap Nat CommittingClient) :
    List RequestAck → Go (GoMap Nat CommittingClient)
  | [] => pure clients
  | req :: rest => match clients.lookup req.clientId with
    | none => throw "nil pointer dereference: committingClients"
    | some cc => do
      let cc ← cc.markCommitted seqNo req.reqNo
      markRequests seqNo (clients.insert req.clientId cc) rest

/-- One round of the loop of `drain`: an owed checkpoint request, and the next commit if there is
one. -/
def drainOnce (cs : CommitState) : Go (CommitState × List Action × Bool) := do
  let ci := cs.checkpointInterval
  let (cs, requested) ←
    if cs.lastAppliedCommit = cs.lowWatermark + ci ∧ !cs.checkpointPending then
      cs.requestCheckpoint
    else pure (cs, [])
  let nextCommit := cs.lastAppliedCommit + 1
  let commits := if nextCommit - cs.lowWatermark > ci then cs.upperHalfCommits
    else cs.lowerHalfCommits
  match commits[(nextCommit - (cs.lowWatermark + 1)) % ci]? with
  | none => throw "index out of range: commits"
  | some none => pure (cs, requested, false)
  | some (some commit) =>
    if commit.seqNo ≠ nextCommit then throw "attempted out of order commit"
    else do
      let committingClients ← markRequests commit.seqNo cs.committingClients commit.requests
      pure ({ cs with committingClients, lastAppliedCommit := nextCommit },
        requested ++ [.commit commit], true)

/-- The loop of `drain`: each round but the last delivers a commit below the high watermark. -/
def drainLoop (cs : CommitState) : Nat → Go (CommitState × List Action)
  | 0 => pure (cs, [])
  | fuel + 1 =>
    if cs.lastAppliedCommit < cs.lowWatermark + 2 * cs.checkpointInterval then do
      let (cs, actions, more) ← cs.drainOnce
      if more then do
        let (cs, rest) ← cs.drainLoop fuel
        pure (cs, actions ++ rest)
      else pure (cs, actions)
    else pure (cs, [])

def drain (cs : CommitState) : Go (CommitState × List Action) :=
  cs.drainLoop (cs.lowWatermark + 2 * cs.checkpointInterval - cs.lastAppliedCommit + 1)

/-- `transferTo`. -/
def transferTo (cs : CommitState) (p : Persisted) (seqNo : Nat) (value : Bytes) :
    Go (CommitState × Persisted × List Action) :=
  if cs.transferring then throw "multiple state transfers are not supported concurrently"
  else do
    let (p, actions) ← p.addTEntry seqNo value
    pure ({ cs with transferring := true }, p, actions ++ [.stateTransfer seqNo value])

/-- `applyCheckpointResult`; the epoch configuration it is given is not used. -/
def applyCheckpointResult (cs : CommitState) (p : Persisted) (seqNo : Nat) (value : Bytes)
    (networkState : NetworkState) : Go (CommitState × Persisted × List Action) :=
  let ci := cs.checkpointInterval
  if cs.transferring then pure (cs, p, [])
  else if seqNo ≠ cs.lowWatermark + ci then throw "dev sanity test -- stale checkpoint result"
  else do
    let cs := { cs with
      stopAtSeqNo := if networkState.pendingReconfigurations.isEmpty then seqNo + 2 * ci
        else cs.stopAtSeqNo
      activeState := networkState
      lowerHalfCommits := cs.upperHalfCommits
      upperHalfCommits := List.replicate ci none
      lowWatermark := seqNo
      checkpointPending := false }
    let (p, actions) ← p.addCEntry { seqNo, checkpointValue := value, networkState }
    pure (cs, p, actions ++ [.send networkState.config.nodes (.checkpoint seqNo value)])

end CommitState

end MirBft
