/-
**The protocol of an epoch target.**

`TargetMove` is what an epoch target does, as a transition system: it counts acks, echos and
readies, it verifies the leader's new epoch, echoes it, gets ready, accepts a configuration, runs
the epoch, and is done. A `TargetView` is the part of a target and of the log that this is about.

* `Surroundings`: the network configuration, and which new epochs, echos and readies reach the
  target;
* `replayedFrom`: what a configuration's acceptance takes out of the log again;
* `Recordable`: what else is written to the log, and when. Batch entries and N-entries are the
  active epoch's.
-/

import MirBft.Library.Steps
import MirBft.Proof.ActiveWrites
import MirBft.Proof.TargetParts

namespace MirBft

/-- The part of an epoch target, and of the log, that its protocol is about. -/
structure TargetView where
  number : Nat
  state : EpochTargetState
  changes : GoMap NodeID EpochChangeAcks
  leaderNewEpoch : Option NewEpoch
  echos : GoMap NewEpochConfig (Finset NodeID)
  readies : GoMap NewEpochConfig (Finset NodeID)
  networkNewEpoch : Option NewEpochConfig
  active : Option EpochConfig
  echoed : Option NewEpoch
  accepted : List Acceptance
  log : List Persistent

def EtState.view (st : EtState) : TargetView where
  number := st.et.number
  state := st.et.state
  changes := st.et.changes
  leaderNewEpoch := st.et.leaderNewEpoch
  echos := st.et.echos
  readies := st.et.readies
  networkNewEpoch := st.et.networkNewEpoch
  active := st.et.activeEpoch.map ActiveEpoch.epochConfig
  echoed := st.et.echoed
  accepted := st.sh.accepted
  log := st.sh.persisted.entries

/-! ### The log of an epoch change -/

/-- What is logged with a ready: a P-entry for each batch. -/
def readyEntries (config : NewEpochConfig) : List Persistent :=
  config.batches.map fun batch => .pEntry ⟨batch.1, batch.2⟩

/-- The Q-entries that the acceptance of a configuration gives to `commitState.commit`: those after
the first epoch change that is not older than it. -/
def replayedFrom (number : Nat) : Bool → List Persistent → List QEntry
  | _, [] => []
  | currentEpoch, .qEntry entry :: rest =>
    if currentEpoch then entry :: replayedFrom number currentEpoch rest
    else replayedFrom number currentEpoch rest
  | currentEpoch, .ecEntry epochNumber :: rest =>
    replayedFrom number (currentEpoch || decide (number ≤ epochNumber)) rest
  | currentEpoch, _ :: rest => replayedFrom number currentEpoch rest

/-! ### The moves -/

/-- What an epoch target meets: the network configuration, and the messages it is given. -/
structure Surroundings where
  networkConfig : NetworkConfig
  newEpoch : TargetView → NewEpoch → Prop
  echo : TargetView → NodeID → NewEpochConfig → Prop
  ready : TargetView → NodeID → NewEpochConfig → Prop

/-- The number of nodes that voted for a configuration. -/
def votesFor (votes : GoMap NewEpochConfig (Finset NodeID)) (config : NewEpochConfig) : Nat :=
  ((votes.lookup config).getD ∅).card

variable (env : Surroundings)

/-- What may be written to the log at any time, and what only the active epoch writes. -/
def Recordable (v : TargetView) : Persistent → Prop
  | .nEntry entry => v.active = some entry.epochConfig
  | .qEntry _ | .pEntry _ => v.active.isSome = true
  | .cEntry entry => entry.networkState.config = env.networkConfig
  | .tEntry .. | .suspect _ => True
  | .ecEntry _ | .fEntry _ => False

/-- **What an epoch target does.** -/
inductive TargetMove : TargetView → TargetView → List Action → Prop
  | write {v : TargetView} {log : List Persistent} {actions : List Action} :
      Wrote (Recordable env v) v.log log actions → TargetMove v { v with log } actions
  | ack (v : TargetView) (origin source : NodeID) (msg : EpochChange) (digest : Bytes) :
      TargetMove v { v with
        changes := v.changes.insert origin
          (((v.changes.lookup origin).getD ⟨env.networkConfig, ∅, none⟩).addMsg source msg digest) } []
  | lead (v : TargetView) (newEpoch : NewEpoch) : env.newEpoch v newEpoch →
      TargetMove v { v with leaderNewEpoch := some newEpoch } []
  | wait (v : TargetView) (state : EpochTargetState) : v.state.rank < state.rank →
      state.rank < EpochTargetState.rank .fetching → TargetMove v { v with state } []
  | verify (v : TargetView) (newEpoch : NewEpoch) (epochChanges : GoMap NodeID ParsedEpochChange)
      (order : MapIter) : v.state = .verifying → v.leaderNewEpoch = some newEpoch →
      EpochTarget.referencedChanges env.networkConfig v.changes ∅ newEpoch.epochChanges =
        some epochChanges →
      constructNewEpochConfig order env.networkConfig newEpoch.newConfig.config.leaders epochChanges =
        .ok (some newEpoch.newConfig) →
      TargetMove v { v with state := .fetching } []
  | echo (v : TargetView) (newEpoch : NewEpoch) (entries : List Persistent) (actions : List Action) :
      v.state = .fetching → v.leaderNewEpoch = some newEpoch →
      EchoEntries newEpoch.newConfig entries → Writes entries actions →
      TargetMove v { v with state := .echoing, echoed := some newEpoch, log := v.log ++ entries }
        (actions ++ [.send env.networkConfig.nodes (.newEpochEcho newEpoch.newConfig)])
  | echoVote (v : TargetView) (source : NodeID) (config : NewEpochConfig) : env.echo v source config →
      TargetMove v { v with echos := EpochTarget.vote v.echos config source } []
  | readyVote (v : TargetView) (source : NodeID) (config : NewEpochConfig) :
      v.state.rank ≤ EpochTargetState.rank .readying → env.ready v source config →
      TargetMove v { v with readies := EpochTarget.vote v.readies config source } []
  | readyByEchos (v : TargetView) (config : NewEpochConfig) (actions : List Action) :
      v.state = .echoing → intersectionQuorum env.networkConfig ≤ votesFor v.echos config →
      Writes (readyEntries config) actions →
      TargetMove v { v with state := .readying, log := v.log ++ readyEntries config }
        (actions ++ [.send env.networkConfig.nodes (.newEpochReady config)])
  | readyByReadies (v : TargetView) (source : NodeID) (config : NewEpochConfig) : v.state = .echoing →
      env.ready v source config →
      someCorrectQuorum env.networkConfig ≤
        votesFor (EpochTarget.vote v.readies config source) config →
      TargetMove v { v with
        state := .readying, readies := EpochTarget.vote v.readies config source }
        [.send env.networkConfig.nodes (.newEpochReady config)]
  | accept (v : TargetView) (config : NewEpochConfig) :
      v.state = .readying ∨ v.state = .resuming ∧ v.networkNewEpoch.isSome = true →
      intersectionQuorum env.networkConfig ≤ votesFor v.readies config →
      TargetMove v { v with
        state := .resuming, networkNewEpoch := some config
        accepted := v.accepted ++
          [⟨v.number, v.echoed, config, v.log, replayedFrom config.config.number false v.log⟩] } []
  | resume (v : TargetView) : v.state = .resuming → TargetMove v { v with state := .ready } []
  | activate (v : TargetView) (config : NewEpochConfig) : v.state = .ready →
      v.networkNewEpoch = some config → TargetMove v { v with active := some config.config } []
  | start (v : TargetView) : v.state = .ready → TargetMove v { v with state := .inProgress } []
  | finish (v : TargetView) : TargetMove v { v with state := .done } []

end MirBft
