/-
**Requests on their way into batches (`outstanding.go`, `proposer.go`).**

* `AllOutstandingReqs` follows, for each bucket and client, the request number the next batch must
  carry, and which sequences wait for requests that are not available yet. A pointer to a sequence
  is its sequence number.
* `Proposer` queues the ready requests of the buckets this node owns and cuts them into batches.
-/

import MirBft.Model.Shared

namespace MirBft

/-! ### Followers: outstanding requests -/

structure ClientOutstandingReqs where
  nextReqNo : Nat
  numBuckets : Nat
  client : ClientState
deriving DecidableEq

/-- The loop of `skipPreviouslyCommitted`. Nothing above the window is committed, so that the
distance to its end bounds the rounds. -/
def skipCommitted (client : ClientState) (numBuckets : Nat) : Nat → Nat → Nat
  | 0, reqNo => reqNo
  | fuel + 1, reqNo =>
    if isCommitted reqNo client then skipCommitted client numBuckets fuel (reqNo + numBuckets)
    else reqNo

def ClientOutstandingReqs.skipPreviouslyCommitted (cors : ClientOutstandingReqs) :
    ClientOutstandingReqs :=
  let rounds := cors.client.lowWatermark + cors.client.width + 1 - cors.nextReqNo
  { cors with nextReqNo := skipCommitted cors.client cors.numBuckets rounds cors.nextReqNo }

structure AllOutstandingReqs where
  buckets : GoMap Nat (GoMap Nat ClientOutstandingReqs)
  correctRequests : GoMap Bytes RequestAck
  outstandingRequests : GoMap Bytes Nat

/-- The first request number of a client's window that falls in a bucket. -/
def firstUncommitted (client : ClientState) (bucket : Nat) (config : NetworkConfig) : Nat :=
  (((List.range config.numberOfBuckets).map (client.lowWatermark + ·)).find? fun reqNo =>
    clientReqToBucket client.id reqNo config == bucket).getD 0

/-- The cursors of one bucket. -/
def bucketOutstandingReqs (networkState : NetworkState) (bucket : Nat) :
    GoMap Nat ClientOutstandingReqs :=
  networkState.clients.foldl (fun clients client =>
    let cors : ClientOutstandingReqs :=
      { nextReqNo := firstUncommitted client bucket networkState.config,
        numBuckets := networkState.config.numberOfBuckets, client }
    clients.insert client.id cors.skipPreviouslyCommitted) ∅

/-- `newOutstandingReqs`. The available requests are all correct requests: no sequence waits yet. -/
def newOutstandingReqs (networkState : NetworkState) : GoProc Shared AllOutstandingReqs := do
  let sh ← Proc.get
  let available := sh.clients.tracker.availableList.resetIterator
  Proc.modify fun sh => { sh with
    clients := { sh.clients with
      tracker := { sh.clients.tracker with availableList := available.drained } } }
  pure
    { buckets := (List.range networkState.config.numberOfBuckets).foldl (fun buckets bucket =>
        buckets.insert bucket (bucketOutstandingReqs networkState bucket)) ∅
      correctRequests := available.pending.foldl (fun table ack => table.insert ack.digest ack) ∅
      outstandingRequests := ∅ }

namespace AllOutstandingReqs

/-- The loop of `applyAcks` over a batch, which collects the digests it has to wait for. -/
def applyAcksFrom (bucket seqNo : Nat) (ao : AllOutstandingReqs) (outstandingReqs : Finset Bytes) :
    List RequestAck → Go (AllOutstandingReqs × Finset Bytes)
  | [] => pure (ao, outstandingReqs)
  | req :: rest => match ao.buckets.lookup bucket with
    | none => throw "told to apply acks for bucket which does not exist"
    | some clients => match clients.lookup req.clientId with
      | none => throw "no such client"
      | some co =>
        if co.nextReqNo ≠ req.reqNo then throw "expected another next request for the bucket"
        else
          let co := ({ co with nextReqNo := co.nextReqNo + co.numBuckets } :
            ClientOutstandingReqs).skipPreviouslyCommitted
          let buckets := ao.buckets.insert bucket (clients.insert req.clientId co)
          if req.digest ∈ ao.correctRequests then
            applyAcksFrom bucket seqNo
              { ao with buckets, correctRequests := ao.correctRequests.erase req.digest }
              outstandingReqs rest
          else
            applyAcksFrom bucket seqNo
              { ao with
                buckets, outstandingRequests := ao.outstandingRequests.insert req.digest seqNo }
              (insert req.digest outstandingReqs) rest

/-- `applyAcks` up to the allocation of the sequence. -/
def applyAcks (ao : AllOutstandingReqs) (bucket seqNo : Nat) (batch : List RequestAck) :
    Go (AllOutstandingReqs × Finset Bytes) :=
  if bucket ∉ ao.buckets then throw "told to apply acks for bucket which does not exist"
  else ao.applyAcksFrom bucket seqNo ∅ batch

end AllOutstandingReqs

/-! ### Owners: proposals -/

/-- `proposalBucket`. A `*clientRequest` is its ack. -/
structure ProposalBucket where
  requestCount : Nat
  pending : List RequestAck
  checkpointInterval : Nat
  currentCheckpoint : Nat
  readyList : List RequestAck
  nextReadyList : List RequestAck
deriving DecidableEq

namespace ProposalBucket

def queueRequest (prb : ProposalBucket) (validAfterSeqNo : Nat) (cr : RequestAck) :
    Go ProposalBucket :=
  if prb.currentCheckpoint ≥ validAfterSeqNo then
    pure { prb with readyList := prb.readyList ++ [cr] }
  else if validAfterSeqNo ≠ prb.currentCheckpoint + prb.checkpointInterval then
    throw "requests should never ready beyond the next checkpoint interval"
  else pure { prb with nextReadyList := prb.nextReadyList ++ [cr] }

def advance (prb : ProposalBucket) (toSeqNo : Nat) : ProposalBucket :=
  let prb := if toSeqNo ≥ prb.currentCheckpoint + prb.checkpointInterval then
    { prb with
      currentCheckpoint := prb.currentCheckpoint + prb.checkpointInterval
      readyList := prb.readyList ++ prb.nextReadyList
      nextReadyList := [] } else prb
  let room := prb.requestCount - prb.pending.length
  { prb with
    pending := prb.pending ++ prb.readyList.take room
    readyList := prb.readyList.drop room }

/-- `hasOutstanding`, on an advanced bucket. -/
def hasOutstanding (prb : ProposalBucket) : Bool := prb.pending.length > 0

/-- `hasPending`, on an advanced bucket. -/
def hasPending (prb : ProposalBucket) : Bool :=
  prb.pending.length > 0 && prb.pending.length == prb.requestCount

/-- `next`: the batch, and the bucket without it. -/
def next (prb : ProposalBucket) : List RequestAck × ProposalBucket :=
  (prb.pending, { prb with pending := [] })

end ProposalBucket

structure Proposer where
  totalBuckets : Nat
  proposalBuckets : GoMap Nat ProposalBucket

/-- `newProposer`. -/
def newProposer (baseCheckpoint checkpointInterval : Nat) (buckets : List NodeID) :
    GoProc Shared Proposer := do
  let sh ← Proc.get
  Proc.modify fun sh => { sh with
    clients := { sh.clients with
      tracker := { sh.clients.tracker with
        readyList := sh.clients.tracker.readyList.resetIterator } } }
  let mine := (List.range buckets.length).filter fun bucket => buckets[bucket]? == some sh.myConfig.id
  pure
    { totalBuckets := buckets.length
      proposalBuckets := mine.foldl (fun table bucket => table.insert bucket
        { requestCount := sh.myConfig.batchSize, pending := [], checkpointInterval,
          currentCheckpoint := baseCheckpoint, readyList := [], nextReadyList := [] }) ∅ }

/-- The request `proposer.advance` queues of a ready request number: the null request if there are
several strong ones. -/
def proposedRequest (crn : ClientReqNo) : Go RequestAck :=
  let requested (digest : Bytes) : Go RequestAck := match crn.requests.lookup digest with
    | none => throw "nil pointer dereference: strongRequests"
    | some cr => pure cr.ack
  match crn.strongRequests with
  | [] => throw "exactly one strong request must exist"
  | [digest] => requested digest
  | several =>
    if [] ∈ several then requested []
    else throw "if multiple requests have quorum, one must be the null request"

/-- One ready request number, in `proposer.advance`. -/
def Proposer.queueReady (p : Proposer) (toSeqNo : Nat) (crn : ClientReqNo) : Go Proposer :=
  if crn.committed then pure p
  else if p.totalBuckets = 0 then throw "integer divide by zero"
  else
    let bucket := (crn.reqNo + crn.clientID) % 2 ^ 64 % p.totalBuckets
    match p.proposalBuckets.lookup bucket with
    | none => pure p
    | some prb => do
      let cr ← proposedRequest crn
      let prb ← (prb.advance toSeqNo).queueRequest crn.validAfterSeqNo cr
      pure { p with proposalBuckets := p.proposalBuckets.insert bucket prb }

/-- The loop of `proposer.advance` over the ready list. -/
def Proposer.queueAll (clients : Clients) (toSeqNo : Nat) (p : Proposer) :
    List (Nat × Nat) → Go Proposer
  | [] => pure p
  | (clientID, reqNo) :: rest =>
    match (clients.clients.lookup clientID).bind fun client => client.reqNos.lookup reqNo with
    | none => throw "nil pointer dereference: clientReqNo"
    | some crn => do
      let p ← p.queueReady toSeqNo crn
      Proposer.queueAll clients toSeqNo p rest

/-- `proposer.advance`: all ready request numbers are consumed. -/
def Proposer.advance (p : Proposer) (toSeqNo : Nat) : GoProc Shared Proposer := do
  let sh ← Proc.get
  let ready := sh.clients.tracker.readyList
  let p ← Proc.lift (p.queueAll sh.clients toSeqNo ready.pending)
  Proc.modify fun sh => { sh with
    clients := { sh.clients with
      tracker := { sh.clients.tracker with readyList := ready.drained } } }
  pure p

end MirBft
