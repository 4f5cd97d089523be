/-
**The replicas of one epoch, and the network between them.**

Every correct replica runs an active epoch of the same configuration. A step is one call of a method
of one replica's active epoch:

* a message may be delivered any number of times, in any order, or never. A correct replica is the
  source of a message only if it sent it; a faulty one is the source of anything;
* a hash request is answered once, at any time, with the hash of its data;
* between two calls, the components an active epoch shares with the rest of its replica may change
  in any way.
-/

import MirBft.Model.ActiveEpoch

namespace MirBft

/-- What the replicas of an epoch agree on, and which of them are faulty. -/
structure EpochNetwork where
  epochConfig : EpochConfig
  networkConfig : NetworkConfig
  faulty : Finset NodeID
  hash : Bytes → Bytes

/-- A replica: its active epoch, what it has received and sent, and its unanswered hash requests. -/
structure EpochReplica where
  st : AeState
  received : List (NodeID × Msg)
  sent : List Msg
  pending : List (List Bytes × HashOrigin)

/-- A call of a method of the active epoch. -/
inductive EpochCall where
  | step (source : NodeID) (msg : Msg)
  | hashResult (data : List Bytes) (origin : HashOrigin)
  | tick
  | advance
  | advanceRequests
  | drainBuffers
  | moveLowWatermark (seqNo : Nat)
deriving DecidableEq

namespace EpochCall

def run (hash : Bytes → Bytes) : EpochCall → GoProc AeState Unit
  | .step source msg => ActiveEpoch.step source msg
  | .hashResult data (.batch _ _ seqNo _) =>
    ActiveEpoch.applyBatchHashResult seqNo (hash (hashInput data))
  | .hashResult _ _ => pure ()
  | .tick => ActiveEpoch.tick
  | .advance => ActiveEpoch.advance
  | .advanceRequests => ActiveEpoch.advanceRequests
  | .drainBuffers => ActiveEpoch.drainBuffers
  | .moveLowWatermark seqNo => do
    let _ ← ActiveEpoch.moveLowWatermark seqNo
    pure ()

/-- The message a call delivers. -/
def delivers : EpochCall → List (NodeID × Msg)
  | .step source msg => [(source, msg)]
  | _ => []

/-- The hash requests that are left. -/
def remaining (pending : List (List Bytes × HashOrigin)) : EpochCall → List (List Bytes × HashOrigin)
  | .hashResult data origin => pending.erase (data, origin)
  | _ => pending

/-- The replica after a call. -/
def after (call : EpochCall) (replica : EpochReplica) (st : AeState) (actions : List Action) :
    EpochReplica where
  st
  received := replica.received ++ call.delivers
  sent := replica.sent ++ sentMsgs actions
  pending := call.remaining replica.pending ++ hashRequests actions

end EpochCall

namespace EpochNetwork

variable (net : EpochNetwork)

/-- **When a replica may be called**: a message is for the epoch, and a correct source has sent it;
a hash result answers a request. -/
def Allowed (world : NodeID → EpochReplica) (id : NodeID) : EpochCall → Prop
  | .step source msg => source ∈ net.networkConfig.nodes ∧
      epochForMsg msg = .ok net.epochConfig.number ∧ (source ∉ net.faulty → msg ∈ (world source).sent)
  | .hashResult data origin => (data, origin) ∈ (world id).pending
  | _ => True

/-- A replica that has just started the epoch. -/
def Started (id : NodeID) (replica : EpochReplica) : Prop :=
  ∃ sh sh' actions ae, sh.myConfig.id = id ∧ sh.commitState.activeState.config = net.networkConfig ∧
    ActiveEpoch.new net.epochConfig sh = .ok (sh', actions, ae) ∧
    replica = { st := ⟨ae, sh'⟩, received := [], sent := [], pending := [] }

/-- **The states the replicas can be in together.** -/
inductive Reachable : (NodeID → EpochReplica) → Prop
  | start {world} : (∀ id ∉ net.faulty, net.Started id (world id)) → Reachable world
  | call {world id call st actions} (sh : Shared) : Reachable world → id ∉ net.faulty →
      net.Allowed world id call →
      call.run net.hash { (world id).st with sh } = .ok (st, actions, ()) →
      Reachable (Function.update world id (call.after (world id) st actions))

instance (world : NodeID → EpochReplica) (id : NodeID) (call : EpochCall) :
    Decidable (net.Allowed world id call) :=
  match call with
  | .step source msg => inferInstanceAs (Decidable (source ∈ net.networkConfig.nodes ∧
      epochForMsg msg = .ok net.epochConfig.number ∧
        (source ∉ net.faulty → msg ∈ (world source).sent)))
  | .hashResult data origin => inferInstanceAs (Decidable ((data, origin) ∈ (world id).pending))
  | .tick | .advance | .advanceRequests | .drainBuffers | .moveLowWatermark _ =>
    inferInstanceAs (Decidable True)

/-- The calls one after the other, with the shared components as each replica left them; `none` if
one is not allowed or panics. -/
def execute (world : NodeID → EpochReplica) : List (NodeID × EpochCall) →
    Option (NodeID → EpochReplica)
  | [] => some world
  | (id, call) :: rest =>
    if id ∉ net.faulty ∧ net.Allowed world id call then
      match call.run net.hash (world id).st with
      | .ok (st, actions, _) =>
        execute (Function.update world id (call.after (world id) st actions)) rest
      | .error _ => none
    else none

theorem Reachable.of_execute {net : EpochNetwork} {world final : NodeID → EpochReplica}
    {calls : List (NodeID × EpochCall)} (reached : net.Reachable world)
    (executed : net.execute world calls = some final) : net.Reachable final := by
  induction calls generalizing world with
  | nil =>
    cases executed
    exact reached
  | cons first rest ih =>
    obtain ⟨id, call⟩ := first
    unfold execute at executed
    split at executed
    swap
    · cases executed
    rename_i allowed
    split at executed
    · rename_i st actions _ ran
      exact ih (.call (world id).st.sh reached allowed.1 allowed.2 ran) executed
    · cases executed

end EpochNetwork

end MirBft
