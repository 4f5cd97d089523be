/-
**Clients and their requests (`client_tracker.go`, `client_hash_disseminator.go`).**

The disseminator collects acks for the request numbers of each client's window, and pushes what
becomes available or ready to the two lists of the client tracker, which an active epoch consumes.

* A `clientReqNo` object is reached through its client and request number: the source's pointers to
  it are that pair. A window that moves on drops a request number from `reqNoList` and leaves the
  object in `reqNos`, where the tracker's lists still find it.
* The sub-maps `weakRequests`, `strongRequests` and `myRequests` hold pointers into `requests` under
  the same keys, so they are lists of digests.
* The `range` loops over these maps do nothing that depends on their order.
-/

import Mathlib.Data.List.Sort
import Mathlib.Data.Finset.Sort
import MirBft.Library.GoMap
import MirBft.Model.MsgBuffers
import MirBft.Model.Stateless

namespace MirBft

open Proc (emit fail forEach lift zoom)

/-! ### The tracker's lists -/

/-- `appendList`: a list with one consumer. -/
structure AppendList (α : Type) where
  consumed : List α
  pending : List α
deriving DecidableEq

namespace AppendList

variable {α : Type}

def empty : AppendList α := { consumed := [], pending := [] }

def resetIterator (list : AppendList α) : AppendList α :=
  { consumed := [], pending := list.consumed ++ list.pending }

/-- What a `for hasNext` loop leaves, that reads each pending value with `next`. -/
def drained (list : AppendList α) : AppendList α :=
  { consumed := list.consumed ++ list.pending, pending := [] }

def pushBack (list : AppendList α) (value : α) : AppendList α :=
  { list with pending := list.pending ++ [value] }

/-- `garbageCollect`; the collector may panic. -/
def garbageCollect (list : AppendList α) (gcFunc : α → Go Bool) : Go (AppendList α) := do
  let consumed ← list.consumed.filterM fun value => do pure (!(← gcFunc value))
  let pending ← list.pending.filterM fun value => do pure (!(← gcFunc value))
  pure { consumed, pending }

end AppendList

/-- `clientTracker`. An element of the ready list is a client and a request number. -/
structure ClientTracker where
  readyList : AppendList (Nat × Nat)
  availableList : AppendList RequestAck
deriving DecidableEq

/-- `clientTracker.reinitialize`. -/
def ClientTracker.reinitialize : ClientTracker :=
  { readyList := .empty, availableList := .empty }

/-- `clientTracker.allocate`: committed requests leave both lists. -/
def ClientTracker.allocate (ct : ClientTracker) (state : NetworkState) : Go ClientTracker := do
  let committed (clientId reqNo : Nat) (text : String) : Go Bool :=
    match state.clients.reverse.find? fun client => client.id == clientId with
    | none => throw text
    | some client => pure (isCommitted reqNo client)
  let availableList ← ct.availableList.garbageCollect fun ack =>
    committed ack.clientId ack.reqNo "any available client req must have client in config"
  let readyList ← ct.readyList.garbageCollect fun crn =>
    committed crn.1 crn.2 "client removal not yet supported"
  pure { readyList, availableList }

/-! ### One request number -/

structure ClientRequest where
  ack : RequestAck
  agreements : Finset NodeID
  stored : Bool
  fetching : Bool
  ticksFetching : Nat
  ticksCorrect : Nat
deriving DecidableEq

/-- `clientRequest.fetch`. -/
def ClientRequest.fetch (cr : ClientRequest) : ClientRequest × List Action :=
  if cr.fetching then (cr, [])
  else ({ cr with fetching := true, ticksFetching := 0 },
    [.send (cr.agreements.sort (· ≤ ·)) (.fetchRequest cr.ack)])

structure ClientReqNo where
  networkConfig : NetworkConfig
  clientID : Nat
  reqNo : Nat
  validAfterSeqNo : Nat
  nonNullVoters : Finset NodeID
  requests : GoMap Bytes ClientRequest
  weakRequests : List Bytes
  strongRequests : List Bytes
  myRequests : List Bytes
  committed : Bool
  acksSent : Nat
  ticksSinceAck : Nat

def newClientReqNo (clientID reqNo : Nat) (networkConfig : NetworkConfig) (validAfterSeqNo : Nat) :
    ClientReqNo where
  networkConfig
  clientID
  reqNo
  validAfterSeqNo
  nonNullVoters := ∅
  requests := ∅
  weakRequests := []
  strongRequests := []
  myRequests := []
  committed := false
  acksSent := 0
  ticksSinceAck := 0

namespace ClientReqNo

/-- `clientReq`: the request with the ack's digest, made if it is new. -/
def clientReq (crn : ClientReqNo) (ack : RequestAck) : ClientRequest :=
  (crn.requests.lookup ack.digest).getD
    { ack, agreements := ∅, stored := false, fetching := false, ticksFetching := 0,
      ticksCorrect := 0 }

def setRequest (crn : ClientReqNo) (digest : Bytes) (cr : ClientRequest) : ClientReqNo :=
  { crn with requests := crn.requests.insert digest cr }

/-- A request that is persisted here. -/
def store (crn : ClientReqNo) (ack : RequestAck) : ClientReqNo :=
  { crn.setRequest ack.digest { crn.clientReq ack with stored := true } with
    myRequests := crn.myRequests.insert ack.digest }

def nullAck (crn : ClientReqNo) : RequestAck :=
  { clientId := crn.clientID, reqNo := crn.reqNo, digest := [] }

/-- Broadcast an ack and start its resend timer. -/
def sendAck (crn : ClientReqNo) (ack : RequestAck) : ClientReqNo × List Action :=
  ({ crn with acksSent := 1, ticksSinceAck := 0 },
    [.send crn.networkConfig.nodes (.requestAck ack)])

/-- `applyNewRequest`. With several requests persisted the null request is acked, though only if it
is among them already. -/
def applyNewRequest (crn : ClientReqNo) (ack : RequestAck) : ClientReqNo × List Action :=
  if ack.digest ∈ crn.myRequests then (crn, [])
  else
    let crn := crn.store ack
    if crn.myRequests.length = 1 then crn.sendAck ack
    else if [] ∉ crn.myRequests then (crn, [])
    else (crn.store crn.nullAck).sendAck crn.nullAck

/-- `applyRequestAck`. -/
def applyRequestAck (crn : ClientReqNo) (source : NodeID) (ack : RequestAck) (force : Bool) :
    ClientReqNo :=
  if ack.digest ≠ [] ∧ source ∉ crn.nonNullVoters ∧ !force then crn
  else
    let crn := if ack.digest ≠ [] then
      { crn with nonNullVoters := insert source crn.nonNullVoters } else crn
    let cr := crn.clientReq ack
    let cr := { cr with agreements := insert source cr.agreements }
    let crn := crn.setRequest ack.digest cr
    if cr.agreements.card < someCorrectQuorum crn.networkConfig then crn
    else
      let crn := { crn with weakRequests := crn.weakRequests.insert ack.digest }
      if cr.agreements.card < intersectionQuorum crn.networkConfig then crn
      else { crn with strongRequests := crn.strongRequests.insert ack.digest }

/-- One old request, in `reinitialize`: its acks under the new configuration. -/
def restoreRequest (networkConfig : NetworkConfig) (crn : ClientReqNo)
    (old : Σ _ : Bytes, ClientRequest) : ClientReqNo :=
  let crn := networkConfig.nodes.foldl (fun crn id =>
    if id ∈ old.2.agreements then crn.applyRequestAck id old.2.ack true else crn) crn
  if old.2.stored then
    { crn.setRequest old.2.ack.digest { crn.clientReq old.2.ack with stored := true } with
      myRequests := crn.myRequests.insert old.1 }
  else crn

def reinitialize (crn : ClientReqNo) (networkConfig : NetworkConfig) : ClientReqNo :=
  crn.requests.entries.foldl (restoreRequest networkConfig)
    { crn with
      networkConfig, nonNullVoters := ∅, requests := ∅, weakRequests := [], strongRequests := [],
      myRequests := [] }

/-! The four parts of `tick`. -/

/-- Conflicting correct requests: promote the null request. -/
def tickConflict (crn : ClientReqNo) : ClientReqNo × List Action :=
  if [] ∉ crn.myRequests ∧ crn.weakRequests.length > 1 then
    let (acked, actions) := (crn.store crn.nullAck).sendAck crn.nullAck
    (acked, actions ++ [.correctRequest crn.nullAck])
  else (crn, [])

/-- A single correct request that is not here: fetch it when it has been around long enough. -/
def tickCorrect (crn : ClientReqNo) : ClientReqNo × List Action :=
  match crn.weakRequests with
  | [digest] => match crn.requests.lookup digest with
    | none => (crn, [])
    | some cr =>
      if cr.stored || cr.fetching then (crn, [])
      else if cr.ticksCorrect ≤ 4 then
        (crn.setRequest digest { cr with ticksCorrect := cr.ticksCorrect + 1 }, [])
      else
        let (cr, actions) := cr.fetch
        (crn.setRequest digest cr, actions)
  | _ => (crn, [])

/-- Count the ticks of the requests being fetched; those that took too long are to be fetched
again. -/
def tickFetching (crn : ClientReqNo) : List Bytes → ClientReqNo × List Bytes
  | [] => (crn, [])
  | digest :: rest => match crn.requests.lookup digest with
    | none => crn.tickFetching rest
    | some cr =>
      if !cr.fetching then crn.tickFetching rest
      else if cr.ticksFetching ≤ 4 then
        (crn.setRequest digest { cr with ticksFetching := cr.ticksFetching + 1 }).tickFetching rest
      else
        let (crn, toFetch) :=
          (crn.setRequest digest { cr with fetching := false }).tickFetching rest
        (crn, digest :: toFetch)

/-- Fetch again, in descending order of digests. -/
def refetch (crn : ClientReqNo) : List Bytes → ClientReqNo × List Action
  | [] => (crn, [])
  | digest :: rest => match crn.requests.lookup digest with
    | none => crn.refetch rest
    | some cr =>
      let (cr, actions) := cr.fetch
      let (crn, more) := (crn.setRequest digest cr).refetch rest
      (crn, actions ++ more)

/-- The ack that is sent again: of the only request here, or of the null request. -/
def ackToResend (crn : ClientReqNo) : Go RequestAck :=
  match crn.myRequests with
  | [] => throw "we have sent an ack for a request, but do not have the ack"
  | [digest] => match crn.requests.lookup digest with
    | none => throw "nil pointer dereference: myRequests"
    | some cr => pure cr.ack
  | several => match if [] ∈ several then crn.requests.lookup [] else none with
    | none => throw "nil pointer dereference: myRequests"
    | some cr => pure cr.ack

/-- Resend the ack, with a linear backoff. -/
def tickResend (crn : ClientReqNo) : Go (ClientReqNo × List Action) :=
  if crn.acksSent = 0 then pure (crn, [])
  else if crn.ticksSinceAck ≠ crn.acksSent * 20 then
    pure ({ crn with ticksSinceAck := crn.ticksSinceAck + 1 }, [])
  else do
    let ack ← crn.ackToResend
    pure ({ crn with acksSent := crn.acksSent + 1, ticksSinceAck := 0 },
      [.send crn.networkConfig.nodes (.requestAck ack)])

def tick (crn : ClientReqNo) : Go (ClientReqNo × List Action) :=
  if crn.committed then pure (crn, [])
  else do
    let (crn, promoted) := crn.tickConflict
    let (crn, fetched) := crn.tickCorrect
    let (crn, toFetch) := crn.tickFetching crn.weakRequests
    let (crn, refetched) := crn.refetch (toFetch.insertionSort (· > ·))
    let (crn, resent) ← crn.tickResend
    pure (crn, promoted ++ fetched ++ refetched ++ resent)

end ClientReqNo

/-! ### One client -/

/-- `client`. The keys of `reqNoMap` are the elements of `reqNoList`. -/
structure Client where
  networkConfig : NetworkConfig
  clientState : ClientState
  highWatermark : Nat
  nextReadyMark : Nat
  reqNoList : List Nat
  reqNos : GoMap Nat ClientReqNo

namespace Client

/-- `reqNoMap[reqNo]`. -/
def lookupReqNo (c : Client) (reqNo : Nat) : Option ClientReqNo :=
  if reqNo ∈ c.reqNoList then c.reqNos.lookup reqNo else none

def setReqNo (c : Client) (crn : ClientReqNo) : Client :=
  { c with reqNos := c.reqNos.insert crn.reqNo crn }

/-- A new request number at the end of the window. -/
def pushReqNo (c : Client) (crn : ClientReqNo) : Client :=
  { c.setReqNo crn with reqNoList := c.reqNoList ++ [crn.reqNo] }

def inWatermarks (c : Client) (reqNo : Nat) : Bool :=
  reqNo ≤ c.highWatermark && c.clientState.lowWatermark ≤ reqNo

/-- `reqNo`. -/
def reqNo (c : Client) (reqNo : Nat) : Go ClientReqNo :=
  match c.lookupReqNo reqNo with
  | none => throw "client should have req_no but does not"
  | some crn => pure crn

/-- The loop of `advanceReady`: it goes on as long as the mark moves. -/
def advanceReadyFrom (c : Client) : Nat → GoProc ClientTracker Client
  | 0 => pure c
  | fuel + 1 => do
    let crn ← lift (c.reqNo c.nextReadyMark)
    let moved := { c with nextReadyMark := c.nextReadyMark + 1 }
    if crn.committed then moved.advanceReadyFrom fuel
    else if crn.strongRequests.any (· ∈ crn.myRequests) then do
      Proc.modify fun tracker =>
        { tracker with readyList := tracker.readyList.pushBack (crn.clientID, crn.reqNo) }
      moved.advanceReadyFrom fuel
    else pure c

def advanceReady (c : Client) : GoProc ClientTracker Client :=
  c.advanceReadyFrom (c.highWatermark + 1 - c.nextReadyMark)

def intermediateHighWatermark (state : ClientState) : Nat :=
  state.lowWatermark + state.width - state.widthConsumedLastCheckpoint

/-- The window's new high watermark. -/
def newHighWatermark (state : ClientState) (reconfiguring : Bool) : Nat :=
  if reconfiguring then intermediateHighWatermark state else state.lowWatermark + state.width

/-- A request number of the window: the old one, or a new one. -/
def oldOrNewReqNo (old : Option Client) (seqNo : Nat) (networkConfig : NetworkConfig)
    (clientState : ClientState) (reqNo : Nat) : GoProc ClientTracker ClientReqNo :=
  match old.bind fun client => client.lookupReqNo reqNo with
  | some crn => pure crn
  | none => do
    let validAfterSeqNo := if reqNo > intermediateHighWatermark clientState then
      seqNo + networkConfig.checkpointInterval else seqNo
    emit [.allocatedRequest clientState.id reqNo]
    pure (newClientReqNo clientState.id reqNo networkConfig validAfterSeqNo)

/-- The loop of `reinitialize` over the window's request numbers. -/
def reinitializeReqNos (old : Option Client) (seqNo : Nat) (networkConfig : NetworkConfig)
    (clientState : ClientState) (c : Client) : List Nat → GoProc ClientTracker Client
  | [] => pure c
  | reqNo :: rest => do
    let crn ← oldOrNewReqNo old seqNo networkConfig clientState reqNo
    let crn := { crn with committed := isCommitted reqNo clientState }
    let crn := ClientReqNo.reinitialize crn networkConfig
    (c.pushReqNo crn).reinitializeReqNos old seqNo networkConfig clientState rest

/-- `newClient`, if there is no old one, and `client.reinitialize`. -/
def reinitialize (old : Option Client) (seqNo : Nat) (networkConfig : NetworkConfig)
    (clientState : ClientState) (reconfiguring : Bool) : GoProc ClientTracker Client := do
  let highWatermark := newHighWatermark clientState reconfiguring
  let c : Client :=
    { networkConfig, clientState, highWatermark, nextReadyMark := clientState.lowWatermark,
      reqNoList := [], reqNos := (old.map Client.reqNos).getD ∅ }
  let c ← c.reinitializeReqNos old seqNo networkConfig clientState
    (List.range' clientState.lowWatermark (highWatermark + 1 - clientState.lowWatermark))
  c.advanceReady

/-- The loop of `allocate` over the committed request numbers. -/
def markCommitted (state : ClientState) (c : Client) : List Nat → Go Client
  | [] => pure c
  | reqNo :: rest =>
    if isCommitted reqNo state then do
      match c.lookupReqNo reqNo with
      | none => throw "nil pointer dereference: reqNoMap"
      | some crn => markCommitted state (c.setReqNo { crn with committed := true }) rest
    else markCommitted state c rest

def allocate (c : Client) (seqNo : Nat) (state : ClientState) (reconfiguring : Bool) :
    GoProc ClientTracker Client := do
  let intermediate := intermediateHighWatermark state
  if intermediate ≠ c.highWatermark then
    fail "new intermediate high watermark should always be the old high watermark"
  else
    let newHigh := newHighWatermark state reconfiguring
    let c := { c with
      nextReadyMark := max state.lowWatermark c.nextReadyMark
      reqNoList := c.reqNoList.dropWhile (· ≠ state.lowWatermark) }
    let c ← lift (c.markCommitted state
      (List.range' state.lowWatermark (c.highWatermark + 1 - state.lowWatermark)))
    let fresh := List.range' (intermediate + 1) (newHigh - intermediate)
    emit (fresh.map fun reqNo => .allocatedRequest state.id reqNo)
    let c := fresh.foldl (fun c reqNo => c.pushReqNo (newClientReqNo state.id reqNo c.networkConfig
      (seqNo + c.networkConfig.checkpointInterval))) { c with clientState := state }
    ({ c with highWatermark := newHigh } : Client).advanceReady

/-- `ack`. The result's second part is the request the ack is for. -/
def ack (myID : NodeID) (c : Client) (source : NodeID) (ack : RequestAck) :
    GoProc ClientTracker (Client × ClientRequest) :=
  match c.lookupReqNo ack.reqNo with
  | none => fail "got ack for a request outside of the client's window"
  | some crn => do
    let cr := crn.clientReq ack
    let cr := { cr with agreements := insert source cr.agreements }
    let crn := crn.setRequest ack.digest cr
    let newlyCorrect := cr.agreements.card = someCorrectQuorum c.networkConfig
    let correctAndMyAck := someCorrectQuorum c.networkConfig ≤ cr.agreements.card ∧ source = myID
    let crn := if newlyCorrect then
      { crn with weakRequests := crn.weakRequests.insert ack.digest } else crn
    if newlyCorrect ∧ !cr.stored then emit [.correctRequest ack] else pure ()
    if cr.stored ∧ (newlyCorrect ∨ correctAndMyAck) then
      Proc.modify fun tracker =>
        { tracker with availableList := tracker.availableList.pushBack ack }
    else pure ()
    if cr.agreements.card = intersectionQuorum c.networkConfig then do
      let c ← (c.setReqNo { crn with
        strongRequests := crn.strongRequests.insert ack.digest }).advanceReady
      pure (c, cr)
    else pure (c.setReqNo crn, cr)

/-- `client.tick`: over the request numbers of the window. -/
def tickReqNos (c : Client) : List Nat → GoProc ClientTracker Client
  | [] => pure c
  | reqNo :: rest => match c.reqNos.lookup reqNo with
    | none => c.tickReqNos rest
    | some crn => do
      let (crn, actions) ← lift crn.tick
      emit actions
      (c.setReqNo crn).tickReqNos rest

def tick (c : Client) : GoProc ClientTracker Client := c.tickReqNos c.reqNoList

end Client

/-! ### All clients -/

/-- `clientHashDisseminator` and the tracker it feeds. -/
structure Clients where
  myConfig : InitialParameters
  tracker : ClientTracker
  allocatedThrough : Nat
  networkConfig : NetworkConfig
  clientStates : List ClientState
  msgBuffers : GoMap NodeID MsgBuffer
  clients : GoMap Nat Client

/-- The loop over the nodes' buffers of a component, in the order of the configuration. -/
def reinitializeBuffers (nodeBuffers : NodeBuffers) (old : GoMap NodeID MsgBuffer) (nodes : List NodeID) :
    GoMap NodeID MsgBuffer :=
  nodes.foldl (fun buffers id => buffers.insert id
    ((old.lookup id).getD (MsgBuffer.new (nodeBuffers.nodeBuffer id)))) ∅

namespace Clients

/-- Run a client's method and store the client. -/
def onClient (id : Nat) {α : Type} (method : GoProc ClientTracker (Client × α)) : GoProc Clients α := do
  let (client, value) ← zoom Clients.tracker (fun ct tracker => { ct with tracker }) method
  Proc.modify fun ct => { ct with clients := ct.clients.insert id client }
  pure value

/-- Run a client's method that returns nothing but the client. -/
def updateClient (id : Nat) (method : GoProc ClientTracker Client) : GoProc Clients Unit :=
  onClient id do
    let client ← method
    pure (client, ())

/-- `client.reinitialize` of one client, with what is left of the old clients at hand. -/
def reinitializeClient (old : GoMap Nat Client) (seqNo : Nat) (networkState : NetworkState)
    (clientState : ClientState) : GoProc Clients Unit :=
  let reconfiguring := !networkState.pendingReconfigurations.isEmpty
  updateClient clientState.id <|
    Client.reinitialize (old.lookup clientState.id) seqNo networkState.config clientState reconfiguring

def reinitialize (seqNo : Nat) (networkState : NetworkState) : GoProc Clients Unit := do
  let ct ← Proc.get
  Proc.modify fun ct => { ct with
    allocatedThrough := seqNo, networkConfig := networkState.config, clients := ∅,
    clientStates := networkState.clients }
  forEach (reinitializeClient ct.clients seqNo networkState) networkState.clients
  Proc.modify fun ct => { ct with
    msgBuffers := reinitializeBuffers ⟨ct.myConfig⟩ ct.msgBuffers networkState.config.nodes }

def tick : GoProc Clients Unit := do
  let ct ← Proc.get
  forEach (fun clientState : ClientState => do
    let ct ← Proc.get
    match ct.clients.lookup clientState.id with
    | none => fail "nil pointer dereference: clients"
    | some client => updateClient clientState.id client.tick) ct.clientStates

def filter (ct : Clients) (_ : NodeID) (msg : Msg) : Go Applyable :=
  match msg with
  | .requestAck ack => match ct.clients.lookup ack.clientId with
    | none => pure .future
    | some client =>
      if client.clientState.lowWatermark > ack.reqNo then pure .past
      else if client.highWatermark < ack.reqNo then pure .future
      else pure .current
  | .fetchRequest _ => pure .current
  | _ => throw "unexpected bad client window message type, this indicates a bug"

def ack (source : NodeID) (ack : RequestAck) : GoProc Clients ClientRequest := do
  let ct ← Proc.get
  match ct.clients.lookup ack.clientId with
  | none => fail "the step filtering should delay reqs for non-existent clients"
  | some client => onClient ack.clientId (client.ack ct.myConfig.id source ack)

/-- `fetch` of a request object. -/
def fetch (ack : RequestAck) : GoProc Clients Unit := do
  let ct ← Proc.get
  match ct.clients.lookup ack.clientId with
  | none => fail "nil pointer dereference: client"
  | some client => match client.reqNos.lookup ack.reqNo with
    | none => fail "nil pointer dereference: clientReqNo"
    | some crn => match crn.requests.lookup ack.digest with
      | none => fail "nil pointer dereference: clientRequest"
      | some cr => do
        let client := client.setReqNo (crn.setRequest ack.digest cr.fetch.1)
        Proc.modify fun ct => { ct with clients := ct.clients.insert ack.clientId client }
        emit cr.fetch.2

def replyFetchRequest (source : NodeID) (ack : RequestAck) : GoProc Clients Unit := do
  let ct ← Proc.get
  match ct.clients.lookup ack.clientId with
  | none => pure ()
  | some client =>
    if !client.inWatermarks ack.reqNo then pure ()
    else do
      let crn ← lift (client.reqNo ack.reqNo)
      match crn.requests.lookup ack.digest with
      | none => pure ()
      | some data =>
        if ct.myConfig.id ∉ data.agreements then pure ()
        else emit [.forwardRequest [source] ack]

def applyMsg (source : NodeID) (msg : Msg) : GoProc Clients Unit :=
  match msg with
  | .requestAck ack => do
    let _ ← Clients.ack source ack
  | .fetchRequest ack => replyFetchRequest source ack
  | _ => fail "unexpected bad client window message type, this indicates a bug"

def step (source : NodeID) (msg : Msg) : GoProc Clients Unit := do
  let ct ← Proc.get
  match ← lift (ct.filter source msg) with
  | .past => pure ()
  | .future => match ct.msgBuffers.lookup source with
    | none => fail "nil pointer dereference: msgBuffers"
    | some mb => Proc.modify fun ct =>
        { ct with msgBuffers := ct.msgBuffers.insert source (mb.store msg) }
  | _ => applyMsg source msg

def applyNewRequest (ack : RequestAck) : GoProc Clients Unit := do
  let ct ← Proc.get
  match ct.clients.lookup ack.clientId with
  | none => pure ()
  | some client =>
    if !client.inWatermarks ack.reqNo then pure ()
    else do
      let crn ← lift (client.reqNo ack.reqNo)
      let (crn, actions) := crn.applyNewRequest ack
      emit actions
      Proc.modify fun ct => { ct with clients := ct.clients.insert ack.clientId (client.setReqNo crn) }

/-- One node's buffer, in `allocate`: apply what has become current. -/
def drainBuffer (id : NodeID) : GoProc Clients Unit := do
  let ct ← Proc.get
  match ct.msgBuffers.lookup id with
  | none => fail "nil pointer dereference: msgBuffers"
  | some mb => do
    let mb ← mb.iterate filter applyMsg
    Proc.modify fun ct => { ct with msgBuffers := ct.msgBuffers.insert id mb }

def allocateClient (seqNo : Nat) (networkState : NetworkState) (clientState : ClientState) :
    GoProc Clients Unit := do
  let ct ← Proc.get
  let reconfiguring := !networkState.pendingReconfigurations.isEmpty
  match ct.clients.lookup clientState.id with
  | none => fail "nil pointer dereference: clients"
  | some client => updateClient clientState.id (client.allocate seqNo clientState reconfiguring)

def allocate (seqNo : Nat) (networkState : NetworkState) : GoProc Clients Unit := do
  let ct ← Proc.get
  if seqNo ≠ networkState.config.checkpointInterval + ct.allocatedThrough then
    fail "unexpected skip in allocate, expected next allocation at next checkpoint"
  else do
    Proc.modify fun ct => { ct with allocatedThrough := seqNo }
    forEach (allocateClient seqNo networkState) networkState.clients
    forEach drainBuffer ct.networkConfig.nodes

/-- The nodes that acked a request: what `sequence.prepare` reads of its `clientRequest` objects. -/
def agreements (ct : Clients) (ack : RequestAck) : Finset NodeID :=
  match (ct.clients.lookup ack.clientId).bind fun client => client.reqNos.lookup ack.reqNo with
  | none => ∅
  | some crn => (crn.clientReq ack).agreements

end Clients

end MirBft
