/-
**The processor (`processor.go`).**

`Processor.Process` carries out a list of actions in two passes: first everything that is not a
network send, then, after the WAL is synced, the sends.

* The WAL, the application and the link are a `Backend`, which answers each call after the calls
  that came before it; a call may fail with an error. The calls that were made are returned with the
  outcome.
* A failed state transfer is an event, not an error. `Hasher` is a function.
-/

import MirBft.Model.Msgs

namespace MirBft

/-- A call of the WAL, the application or the link. -/
inductive Call where
  | write (index : Nat) (entry : Persistent)
  | truncate (index : Nat)
  | sync
  | apply (batch : QEntry)
  | snap (networkConfig : NetworkConfig) (clientStates : List ClientState)
  | transferTo (seqNo : Nat) (snap : Bytes)
  | send (dest : NodeID) (msg : Msg)
deriving DecidableEq

structure Backend where
  error : List Call → Call → Option String
  hash : List Bytes → Bytes
  snap : List Call → NetworkConfig → List ClientState → Bytes × List Reconfiguration
  transferTo : List Call → Nat → Bytes → NetworkState

/-- What `dummyWAL` gives a node that joins a fresh network. -/
def dummyWAL (initialNetworkState : NetworkState) (initialCheckpointValue : Bytes) : List Persistent :=
  [.cEntry ⟨0, initialCheckpointValue, initialNetworkState⟩,
    .fEntry ⟨0, initialNetworkState.config.nodes, 0⟩]

/-- The calls that were made, and the events or the error that is returned. -/
abbrev Processed := List Call × Except String (List Event)

namespace Processor

variable (backend : Backend)

/-- A call whose error ends `Process`. -/
def attempt (calls : List Call) (call : Call) (message : String) (next : List Call → Processed) :
    Processed :=
  match backend.error calls call with
  | some err => (calls ++ [call], .error s!"{message}: {err}")
  | none => next (calls ++ [call])

/-- The first pass: everything that is not a network send. -/
def handle (calls : List Call) (events : List Event) : List Action → Processed
  | [] => (calls, .ok events)
  | .send _ _ :: rest => handle calls events rest
  | .hash data origin :: rest => handle calls (events ++ [.hashResult (backend.hash data) origin]) rest
  | .appendWriteAhead index entry :: rest =>
    attempt backend calls (.write index entry) s!"failed to write entry to WAL at index {index}"
      fun calls => handle calls events rest
  | .truncateWriteAhead index :: rest =>
    attempt backend calls (.truncate index) s!"failed to truncate WAL to index {index}"
      fun calls => handle calls events rest
  | .commit batch :: rest =>
    attempt backend calls (.apply batch) "app failed to commit" fun calls => handle calls events rest
  | .checkpoint seqNo networkConfig clientStates :: rest =>
    let (value, pendingReconf) := backend.snap calls networkConfig clientStates
    attempt backend calls (.snap networkConfig clientStates) "app failed to generate snapshot"
      fun calls => handle calls
        (events ++ [.checkpointResult seqNo value ⟨networkConfig, clientStates, pendingReconf⟩]) rest
  | .stateTransfer seqNo value :: rest =>
    let event := match backend.error calls (.transferTo seqNo value) with
      | some _ => Event.stateTransferFailed seqNo value
      | none => .stateTransferComplete seqNo value (backend.transferTo calls seqNo value)
    handle (calls ++ [.transferTo seqNo value]) (events ++ [event]) rest
  | .allocatedRequest .. :: rest | .correctRequest _ :: rest | .forwardRequest .. :: rest =>
    handle calls events rest

/-- One message goes to its targets; the node's own one comes back as an event. -/
def transmitTo (nodeID : NodeID) (msg : Msg) (calls : List Call) (events : List Event) :
    List NodeID → List Call × List Event
  | [] => (calls, events)
  | replica :: rest =>
    if replica = nodeID then transmitTo nodeID msg calls (events ++ [.step replica msg]) rest
    else transmitTo nodeID msg (calls ++ [.send replica msg]) events rest

/-- The second pass: the sends. -/
def transmit (nodeID : NodeID) (calls : List Call) (events : List Event) :
    List Action → List Call × List Event
  | [] => (calls, events)
  | .send targets msg :: rest =>
    let (calls, events) := transmitTo nodeID msg calls events targets
    transmit nodeID calls events rest
  | _ :: rest => transmit nodeID calls events rest

/-- **`Process`.** -/
def process (nodeID : NodeID) (actions : List Action) : Processed :=
  match handle backend [] [] actions with
  | (calls, .error err) => (calls, .error err)
  | (calls, .ok events) => attempt backend calls .sync "failted to sync WAL" fun calls =>
    let (calls, events) := transmit nodeID calls events actions
    (calls, .ok events)

end Processor

end MirBft
