/-
**An epoch in progress (`epoch_active.go`).**

An `ActiveEpoch` runs the three-phase commit for a window of sequence numbers, and proposes batches
for the buckets this node owns. Its methods are procedures on the epoch and what it shares with the
other components (`AeState`).

* `sequences` has the sequence numbers of each checkpoint interval of the window; the objects are in
  `heap`, where a sequence that left the window stays for the requests it still waits for.
* `filter` says whether a message is for now, for later, or for the bin; `apply` is what is done
  with a message that is current.
* The bound of each loop is the distance to where its condition fails.
-/

import MirBft.Model.Outstanding

namespace MirBft

open Proc (emit fail forEach lift zoom)

structure PreprepareBuffer where
  nextSeqNo : Nat
  buffer : MsgBuffer
deriving DecidableEq

structure ActiveEpoch where
  epochConfig : EpochConfig
  networkConfig : NetworkConfig
  myConfig : InitialParameters
  outstandingReqs : AllOutstandingReqs
  proposer : Proposer
  buckets : List NodeID
  sequences : List (List Nat)
  heap : Nat → Option Sequence
  preprepareBuffers : List PreprepareBuffer
  otherBuffers : GoMap NodeID MsgBuffer
  lowestUncommitted : Nat
  lowestUnallocated : List Nat
  lastCommittedAtTick : Nat
  ticksSinceProgress : Nat

/-- An active epoch and what it shares. -/
structure AeState where
  ae : ActiveEpoch
  sh : Shared

namespace ActiveEpoch

/-! ### Creation -/

/-- The loop over the buckets in `newActiveEpoch`: a bucket whose node is not a leader goes to the
leaders in turn. -/
def assignBuckets (epochConfig : EpochConfig) (nodes : List NodeID) (overflowIndex : Nat) :
    List Nat → Go (List NodeID)
  | [] => pure []
  | bucket :: rest =>
    match nodes[(bucket + epochConfig.number) % 2 ^ 64 % nodes.length]? with
    | none => throw "integer divide by zero: no nodes"
    | some leader =>
      if leader ∈ epochConfig.leaders then do
        let owners ← assignBuckets epochConfig nodes overflowIndex rest
        pure (leader :: owners)
      else match epochConfig.leaders[overflowIndex % epochConfig.leaders.length]? with
        | none => throw "integer divide by zero: no leaders"
        | some overflow => do
          let owners ← assignBuckets epochConfig nodes (overflowIndex + 1) rest
          pure (overflow :: owners)

/-- The first sequence number of each bucket. -/
def firstUnallocated (startingSeqNo : Nat) (networkConfig : NetworkConfig) : List Nat :=
  (List.range networkConfig.numberOfBuckets).foldl (fun table index =>
    let firstSeqNo := startingSeqNo + (index + 1)
    table.set (seqToBucket firstSeqNo networkConfig) firstSeqNo)
    (List.replicate networkConfig.numberOfBuckets 0)

def new (epochConfig : EpochConfig) : GoProc Shared ActiveEpoch := do
  let sh ← Proc.get
  let networkConfig := sh.commitState.activeState.config
  let startingSeqNo := sh.commitState.highestCommit
  let outstandingReqs ← newOutstandingReqs sh.commitState.activeState
  let buckets ← lift (assignBuckets epochConfig networkConfig.nodes 0
    (List.range networkConfig.numberOfBuckets))
  let lowestUnallocated := firstUnallocated startingSeqNo networkConfig
  let proposer ← newProposer startingSeqNo networkConfig.checkpointInterval buckets
  let nodeBuffers : NodeBuffers := ⟨sh.myConfig⟩
  let preprepareBuffers := List.zipWith
    (fun nextSeqNo owner => PreprepareBuffer.mk nextSeqNo (.new (nodeBuffers.nodeBuffer owner)))
    lowestUnallocated buckets
  let otherBuffers := networkConfig.nodes.foldl
    (fun (table : GoMap NodeID MsgBuffer) node =>
      table.insert node (.new (nodeBuffers.nodeBuffer node))) ∅
  pure
    { epochConfig, networkConfig, myConfig := sh.myConfig, outstandingReqs, proposer, buckets,
      sequences := [], heap := fun _ => none, preprepareBuffers, otherBuffers,
      lowestUncommitted := startingSeqNo + 1, lowestUnallocated, lastCommittedAtTick := 0,
      ticksSinceProgress := 0 }

/-! ### The window -/

/-- `seqToBucket`. -/
def bucketOf (ae : ActiveEpoch) (seqNo : Nat) : Go Nat :=
  if ae.networkConfig.numberOfBuckets = 0 then throw "integer divide by zero: no buckets"
  else pure (seqToBucket seqNo ae.networkConfig)

/-- `buckets[bucket]`; a missing bucket is the zero node. -/
def owner (ae : ActiveEpoch) (bucket : Nat) : NodeID := (ae.buckets[bucket]?).getD 0

def lowWatermark (ae : ActiveEpoch) : Go Nat :=
  match ae.sequences with
  | (seqNo :: _) :: _ => pure seqNo
  | _ => throw "index out of range: sequences"

end ActiveEpoch

namespace AeState

def highWatermark (st : AeState) : Go Nat :=
  match st.ae.sequences.getLast? with
  | none => pure st.sh.commitState.lowWatermark
  | some interval => match interval.getLast? with
    | none => throw "index out of range: interval"
    | some seqNo => pure seqNo

/-- `sequence(seqNo)`. -/
def sequence (st : AeState) (seqNo : Nat) : Go Sequence := do
  let ci := st.ae.networkConfig.checkpointInterval
  let low ← st.ae.lowWatermark
  if ci = 0 then throw "integer divide by zero: checkpoint interval"
  else if seqNo < low then throw "dev error: sequence below the low watermark"
  else match st.ae.sequences[(seqNo - low) / ci]? with
    | none => throw "dev error: sequence above the high watermark"
    | some interval => match interval[(seqNo - low) % ci]? with
      | none => throw "index out of range: interval"
      | some found =>
        if found ≠ seqNo then throw "sequence retrieved had different seq_no than expected"
        else match st.ae.heap seqNo with
          | none => throw "nil pointer dereference: sequence"
          | some seq => pure seq

/-- What `filter` says of a sequence number by the watermarks. -/
def inWindow (st : AeState) (seqNo : Nat) : Go Applyable := do
  let low ← st.ae.lowWatermark
  if seqNo < low then pure .past
  else do
    let high ← st.highWatermark
    if seqNo > high then pure .future else pure .current

/-- `filter`, for a preprepare of a bucket's owner. -/
def filterPreprepare (st : AeState) (bucket seqNo : Nat) : Go Applyable := do
  let high ← st.highWatermark
  if seqNo > high then pure .future
  else do
    let low ← st.ae.lowWatermark
    if seqNo < low then pure .past
    else match st.ae.preprepareBuffers[bucket]? with
      | none => throw "index out of range: preprepareBuffers"
      | some buffer =>
        if seqNo < buffer.nextSeqNo then pure .past
        else if seqNo > buffer.nextSeqNo then pure .future
        else pure .current

def filter (st : AeState) (source : NodeID) (msg : Msg) : Go Applyable :=
  match msg with
  | .preprepare seqNo _ _ => do
    let bucket ← st.ae.bucketOf seqNo
    if st.ae.owner bucket ≠ source then pure .invalid
    else if seqNo > st.ae.epochConfig.plannedExpiration then pure .invalid
    else st.filterPreprepare bucket seqNo
  | .prepare seqNo _ _ => do
    let bucket ← st.ae.bucketOf seqNo
    if st.ae.owner bucket = source then pure .invalid
    else if seqNo > st.ae.epochConfig.plannedExpiration then pure .invalid
    else st.inWindow seqNo
  | .commit seqNo _ _ =>
    if seqNo > st.ae.epochConfig.plannedExpiration then pure .invalid
    else st.inWindow seqNo
  | _ => throw "unexpected msg type"

end AeState

namespace ActiveEpoch

/-! ### Parts of the state -/

/-- A method of a shared component. -/
def onShared {α : Type} (method : GoProc Shared α) : GoProc AeState α :=
  zoom AeState.sh (fun st sh => { st with sh }) method

/-- An assignment to fields of the epoch. -/
def assign (update : ActiveEpoch → ActiveEpoch) : GoProc AeState Unit :=
  Proc.modify fun st => { st with ae := update st.ae }

/-- A method of a sequence object. -/
def onObject (seqNo : Nat) (seq : Sequence) (method : (RequestAck → Finset NodeID) → Sequence →
    Persisted → Go (SeqState × List Action)) : GoProc AeState Unit := do
  let st ← Proc.get
  let ((seq, persisted), actions) ←
    lift (method st.sh.clients.agreements seq st.sh.persisted)
  Proc.modify fun st =>
    { ae := { st.ae with heap := Function.update st.ae.heap seqNo (some seq) },
      sh := { st.sh with persisted } }
  emit actions

/-- A method of `sequence(seqNo)`. -/
def onSequence (seqNo : Nat) (method : (RequestAck → Finset NodeID) → Sequence →
    Persisted → Go (SeqState × List Action)) : GoProc AeState Unit := do
  let st ← Proc.get
  let seq ← lift (st.sequence seqNo)
  onObject seqNo seq method

/-- `lowestUnallocated[bucket]`. -/
def unallocated (bucket : Nat) : GoProc AeState Nat := do
  let st ← Proc.get
  match st.ae.lowestUnallocated[bucket]? with
  | none => fail "index out of range: lowestUnallocated"
  | some seqNo => pure seqNo

/-- `lowestUnallocated[bucket] += len(buckets)`. -/
def moveUnallocated (bucket : Nat) : GoProc AeState Unit :=
  assign fun ae => { ae with
    lowestUnallocated := ae.lowestUnallocated.modify bucket (· + ae.buckets.length) }

/-! ### Messages -/

/-- The branch of `applyPreprepareMsg` for another node's preprepare: the sequence is allocated
while the acks are applied. -/
def allocateFollower (bucket seqNo : Nat) (batch : List RequestAck) : GoProc AeState Unit := do
  let expected ← unallocated bucket
  if seqNo ≠ expected then
    fail "step should defer all but the next expected preprepare"
  else do
    moveUnallocated bucket
    let st ← Proc.get
    let (outstandingReqs, waiting) ←
      lift (st.ae.outstandingReqs.applyAcks bucket seqNo batch)
    assign fun ae => { ae with outstandingReqs }
    onSequence seqNo fun agreements seq p => seq.allocate agreements p batch waiting

def applyPreprepareMsg (source : NodeID) (seqNo : Nat) (batch : List RequestAck) :
    GoProc AeState Unit := do
  let st ← Proc.get
  let seq ← lift (st.sequence seqNo)
  if seq.owner = st.ae.myConfig.id then
    onSequence seqNo fun agreements seq p => seq.applyPrepareMsg agreements p source seq.digest
  else do
    let bucket ← lift (st.ae.bucketOf seqNo)
    allocateFollower bucket seqNo batch

def applyPrepareMsg (source : NodeID) (seqNo : Nat) (digest : Bytes) : GoProc AeState Unit :=
  onSequence seqNo fun agreements seq p => seq.applyPrepareMsg agreements p source (some digest)

/-- The loop of `applyCommitMsg`: the committed sequences go to the commit state, in order. -/
def commitInOrder : Nat → GoProc AeState Unit
  | 0 => pure ()
  | fuel + 1 => do
    let st ← Proc.get
    let high ← lift st.highWatermark
    if st.ae.lowestUncommitted ≤ high then do
      let seq ← lift (st.sequence st.ae.lowestUncommitted)
      if seq.state ≠ .committed then pure ()
      else match seq.qEntry with
        | none => fail "nil pointer dereference: qEntry"
        | some qEntry => do
          onShared (Shared.commit qEntry)
          assign fun ae => { ae with lowestUncommitted := ae.lowestUncommitted + 1 }
          commitInOrder fuel
    else pure ()

/-- `applyCommitMsg`. The actions of the sequence are dropped. -/
def applyCommitMsg (source : NodeID) (seqNo : Nat) (digest : Bytes) : GoProc AeState Unit := do
  Proc.quiet (onSequence seqNo fun agreements seq p => seq.applyCommitMsg agreements p source digest)
  let st ← Proc.get
  let seq ← lift (st.sequence seqNo)
  if seq.state ≠ .committed ∨ seqNo ≠ st.ae.lowestUncommitted then pure ()
  else do
    let high ← lift st.highWatermark
    commitInOrder (high + 1 - seqNo)

/-- `preprepareBuffers[bucket].buffer.next(filter)`. -/
def nextPreprepare (bucket : Nat) : GoProc AeState (Option Msg) := do
  let st ← Proc.get
  match st.ae.preprepareBuffers[bucket]? with
  | none => fail "index out of range: preprepareBuffers"
  | some preprepareBuffer => do
    let (found, buffer) ← lift (preprepareBuffer.buffer.next st.filter)
    assign fun ae => { ae with
      preprepareBuffers := ae.preprepareBuffers.set bucket { preprepareBuffer with buffer } }
    pure found

/-- The loop of `apply` over preprepares. Every round but the first takes a message out of the
bucket's buffer. -/
def applyPreprepares (source : NodeID) (bucket : Nat) : Nat → Msg → GoProc AeState Unit
  | 0, _ => pure ()
  | fuel + 1, msg => match msg with
    | .preprepare seqNo _ batch => do
      applyPreprepareMsg source seqNo batch
      assign fun ae => { ae with
        preprepareBuffers := ae.preprepareBuffers.modify bucket fun buffer =>
          { buffer with nextSeqNo := buffer.nextSeqNo + ae.buckets.length } }
      match ← nextPreprepare bucket with
      | none => pure ()
      | some next => applyPreprepares source bucket fuel next
    | _ => fail "interface conversion: not a preprepare"

def apply (source : NodeID) (msg : Msg) : GoProc AeState Unit :=
  match msg with
  | .preprepare seqNo _ _ => do
    let st ← Proc.get
    let bucket ← lift (st.ae.bucketOf seqNo)
    match st.ae.preprepareBuffers[bucket]? with
    | none => fail "index out of range: preprepareBuffers"
    | some preprepareBuffer =>
      applyPreprepares source bucket (preprepareBuffer.buffer.buffer.length + 1) msg
  | .prepare seqNo _ digest => applyPrepareMsg source seqNo digest
  | .commit seqNo _ digest => applyCommitMsg source seqNo digest
  | _ => fail "unexpected msg type"

/-- A message for later goes to a buffer. -/
def storeFuture (source : NodeID) (msg : Msg) : GoProc AeState Unit := do
  let st ← Proc.get
  match msg with
  | .preprepare seqNo _ _ => do
    let bucket ← lift (st.ae.bucketOf seqNo)
    match st.ae.preprepareBuffers[bucket]? with
    | none => fail "index out of range: preprepareBuffers"
    | some preprepareBuffer =>
      let stored := { preprepareBuffer with buffer := preprepareBuffer.buffer.store msg }
      assign fun ae => { ae with preprepareBuffers := ae.preprepareBuffers.set bucket stored }
  | _ => match st.ae.otherBuffers.lookup source with
    | none => fail "nil pointer dereference: otherBuffers"
    | some buffer =>
      assign fun ae => { ae with otherBuffers := ae.otherBuffers.insert source (buffer.store msg) }

def step (source : NodeID) (msg : Msg) : GoProc AeState Unit := do
  let st ← Proc.get
  match ← lift (st.filter source msg) with
  | .past | .invalid => pure ()
  | .future => storeFuture source msg
  | .current => apply source msg

/-! ### Moving on -/

/-- The part of `drainBuffers` for one bucket. -/
def drainPreprepares (bucket : Nat) : GoProc AeState Unit := do
  match ← nextPreprepare bucket with
  | none => pure ()
  | some msg => do
    let st ← Proc.get
    apply (st.ae.owner bucket) msg

/-- The part of `drainBuffers` for one node. -/
def drainOthers (id : NodeID) : GoProc AeState Unit := do
  let st ← Proc.get
  match st.ae.otherBuffers.lookup id with
  | none => fail "nil pointer dereference: otherBuffers"
  | some buffer => do
    let rest ← buffer.iterate AeState.filter apply
    assign fun ae => { ae with otherBuffers := ae.otherBuffers.insert id rest }

def drainBuffers : GoProc AeState Unit := do
  let st ← Proc.get
  forEach drainPreprepares (List.range st.ae.buckets.length)
  forEach drainOthers st.ae.networkConfig.nodes

/-- The new sequences of one checkpoint interval. -/
def addInterval (high : Nat) : GoProc AeState Unit := do
  let st ← Proc.get
  onShared (Shared.onLog fun p => p.addNEntry ⟨high + 1, st.ae.epochConfig⟩)
  if st.ae.networkConfig.numberOfBuckets = 0 then
    fail "integer divide by zero: no buckets"
  else do
    let interval := (List.range st.ae.networkConfig.checkpointInterval).map (high + 1 + ·)
    let heap := interval.foldl (fun heap seqNo =>
      Function.update heap seqNo (some (newSequence
        (st.ae.owner (seqToBucket seqNo st.ae.networkConfig)) st.ae.epochConfig.number seqNo
        st.ae.networkConfig st.ae.myConfig))) st.ae.heap
    assign fun ae => { ae with sequences := ae.sequences ++ [interval], heap }

/-- The loop of `advance` that extends the window. -/
def extendWindow : Nat → GoProc AeState Unit
  | 0 => pure ()
  | fuel + 1 => do
    let st ← Proc.get
    let high ← lift st.highWatermark
    if high < st.ae.epochConfig.plannedExpiration ∧ high < st.sh.commitState.stopAtSeqNo then do
      addInterval high
      extendWindow fuel
    else pure ()

/-- `proposer.proposalBucket(bucket)`, advanced to the sequence number. -/
def advanceProposal (bucket seqNo : Nat) : GoProc AeState ProposalBucket := do
  let st ← Proc.get
  match st.ae.proposer.proposalBuckets.lookup bucket with
  | none => fail "nil pointer dereference: proposalBucket"
  | some prb => pure (prb.advance seqNo)

def setProposal (bucket : Nat) (prb : ProposalBucket) : GoProc AeState Unit :=
  assign fun ae => { ae with proposer := { ae.proposer with
    proposalBuckets := ae.proposer.proposalBuckets.insert bucket prb } }

/-- An owner allocates its next sequence. -/
def propose (bucket seqNo : Nat) (clientRequests : List RequestAck) : GoProc AeState Unit := do
  onSequence seqNo fun agreements seq p => seq.allocateAsOwner agreements p clientRequests
  moveUnallocated bucket

/-- The loop of `advance` that allocates the full batches of one of this node's buckets. -/
def proposeFull (bucket : Nat) : Nat → GoProc AeState Unit
  | 0 => pure ()
  | fuel + 1 => do
    let st ← Proc.get
    let seqNo ← unallocated bucket
    let high ← lift st.highWatermark
    if seqNo > high then pure ()
    else do
      let prb ← advanceProposal bucket seqNo
      if prb.hasPending then do
        setProposal bucket prb.next.2
        propose bucket seqNo prb.next.1
        proposeFull bucket fuel
      else setProposal bucket prb

/-- The body of `advance`'s loop over the buckets. -/
def proposeBucket (bucket : Nat) : GoProc AeState Unit := do
  let st ← Proc.get
  if st.ae.owner bucket ≠ st.ae.myConfig.id then pure ()
  else do
    let seqNo ← unallocated bucket
    let high ← lift st.highWatermark
    proposeFull bucket (high + 1 - seqNo)

def advance : GoProc AeState Unit := do
  let st ← Proc.get
  let high ← lift st.highWatermark
  if st.ae.epochConfig.plannedExpiration < high then
    fail "high watermark should never extend beyond the planned epoch expiration"
  else if st.sh.commitState.stopAtSeqNo < high then
    fail "high watermark should never extend beyond the stop at sequence"
  else do
    extendWindow (st.sh.commitState.stopAtSeqNo - high)
    drainBuffers
    let drained ← Proc.get
    let proposer ← onShared (drained.ae.proposer.advance drained.ae.lowestUncommitted)
    assign fun ae => { ae with proposer }
    forEach proposeBucket (List.range st.ae.networkConfig.numberOfBuckets)

/-- The loop of `moveLowWatermark`. -/
def dropIntervals (seqNo : Nat) : List (List Nat) → Go (List (List Nat))
  | (low :: interval) :: rest =>
    if seqNo > low then dropIntervals seqNo rest else pure ((low :: interval) :: rest)
  | _ => throw "index out of range: sequences"

/-- `moveLowWatermark`: whether the epoch is over. -/
def moveLowWatermark (seqNo : Nat) : GoProc AeState Bool := do
  let st ← Proc.get
  if seqNo = st.ae.epochConfig.plannedExpiration then pure true
  else if seqNo = st.sh.commitState.stopAtSeqNo then pure true
  else do
    advance
    let advanced ← Proc.get
    let sequences ← lift (dropIntervals seqNo advanced.ae.sequences)
    assign fun ae => { ae with sequences }
    pure false

/-- `applyBatchHashResult`. -/
def applyBatchHashResult (seqNo : Nat) (digest : Bytes) : GoProc AeState Unit := do
  let st ← Proc.get
  match ← lift (st.inWindow seqNo) with
  | .current =>
    onSequence seqNo fun agreements seq p => seq.applyBatchHashResult agreements p (some digest)
  | _ => pure ()

/-- `outstandingReqs.advanceRequests`, for one available request. -/
def advanceRequest (ack : RequestAck) : GoProc AeState Unit := do
  let st ← Proc.get
  match st.ae.outstandingReqs.outstandingRequests.lookup ack.digest with
  | none => assign fun ae => { ae with outstandingReqs := { ae.outstandingReqs with
      correctRequests := ae.outstandingReqs.correctRequests.insert ack.digest ack } }
  | some seqNo => match st.ae.heap seqNo with
    | none => fail "nil pointer dereference: sequence"
    | some seq => do
      assign fun ae => { ae with outstandingReqs := { ae.outstandingReqs with
        outstandingRequests := ae.outstandingReqs.outstandingRequests.erase ack.digest } }
      onObject seqNo seq fun agreements seq p => seq.satisfyOutstanding agreements p ack

/-- `outstandingReqs.advanceRequests`. -/
def advanceRequests : GoProc AeState Unit := do
  let st ← Proc.get
  let available := st.sh.clients.tracker.availableList
  onShared (Proc.modify fun sh => { sh with
    clients := { sh.clients with
      tracker := { sh.clients.tracker with availableList := available.drained } } })
  forEach advanceRequest available.pending

/-! ### Ticks -/

/-- The heartbeat of one bucket: a batch of whatever is pending. -/
def heartbeat (bucket : Nat) : GoProc AeState Unit := do
  let st ← Proc.get
  let seqNo ← unallocated bucket
  let high ← lift st.highWatermark
  if seqNo > high then pure ()
  else if st.ae.owner bucket ≠ st.ae.myConfig.id then pure ()
  else do
    let prb ← advanceProposal bucket seqNo
    if prb.hasOutstanding then do
      setProposal bucket prb.next.2
      propose bucket seqNo prb.next.1
    else do
      setProposal bucket prb
      propose bucket seqNo []

/-- The part of `tick` that suspects the epoch. -/
def suspectAfter (ticksSinceProgress : Nat) : GoProc AeState Unit := do
  let st ← Proc.get
  if ticksSinceProgress > st.ae.myConfig.suspectTicks then do
    emit [.send st.ae.networkConfig.nodes (.suspect st.ae.epochConfig.number)]
    onShared (Shared.onLog fun p => p.addSuspect st.ae.epochConfig.number)
  else pure ()

/-- The part of `tick` that proposes what is pending. -/
def heartbeatAfter (ticksSinceProgress : Nat) : GoProc AeState Unit := do
  let st ← Proc.get
  if st.ae.myConfig.heartbeatTicks = 0 ∨ ticksSinceProgress % st.ae.myConfig.heartbeatTicks ≠ 0 then
    pure ()
  else forEach heartbeat (List.range st.ae.lowestUnallocated.length)

def tick : GoProc AeState Unit := do
  let st ← Proc.get
  if st.ae.lastCommittedAtTick < st.sh.commitState.highestCommit then
    assign fun ae => { ae with
      lastCommittedAtTick := st.sh.commitState.highestCommit, ticksSinceProgress := 0 }
  else do
    assign fun ae => { ae with ticksSinceProgress := st.ae.ticksSinceProgress + 1 }
    suspectAfter (st.ae.ticksSinceProgress + 1)
    heartbeatAfter (st.ae.ticksSinceProgress + 1)

end ActiveEpoch

/-- `status.Bucket`. -/
structure BucketStatus where
  id : Nat
  leader : Bool
  sequences : List SequenceState
deriving DecidableEq

namespace AeState

/-- A round of the loop of `status` over the window. -/
def writeStatus (st : AeState) (low : Nat) (rows : List BucketStatus) (seqNo : Nat) :
    Go (List BucketStatus) := do
  let seq ← st.sequence seqNo
  let bucket ← st.ae.bucketOf seqNo
  let index := (seqNo - low) / st.ae.buckets.length
  match rows[bucket]? with
  | none => throw "index out of range: buckets"
  | some row =>
    if index < row.sequences.length then
      pure (rows.set bucket { row with sequences := row.sequences.set index seq.state })
    else throw "index out of range: Sequences"

end AeState

end MirBft
