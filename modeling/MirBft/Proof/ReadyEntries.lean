/-
**What stands behind a ready.**

A target that gets ready for a configuration tells the others that its batches are prepared, which a
later epoch change relies on. There are two routes to it: a quorum of echos, and `f + 1` readies of
others.

* `ReadyBacked`: the log has an N-entry of the configuration's epoch, and after it a P-entry for
  each of its batches;
* `readies_are_backed`: **every ready is backed, in every run in which an echoing target does not
  get `f + 1` readies.** The second route writes nothing to the log (`ready_without_entries`).
-/

import MirBft.Proof.VerifiedEchos

namespace MirBft

/-- What stands behind a ready for `config` that comes after `before`. -/
def ReadyBacked (config : NewEpochConfig) (before : List Action) : Prop :=
  ∃ (earlier later : List Action) (index : Nat) (nEntry : NEntry),
    before = earlier ++ .appendWriteAhead index (.nEntry nEntry) :: later ∧
    nEntry.epochConfig.number = config.config.number ∧
    ∀ batch ∈ config.batches, ∃ index,
      .appendWriteAhead index (.pEntry ⟨batch.1, batch.2⟩) ∈ later

/-- An action is, if it is a ready, a backed one. -/
def BackedReady (before : List Action) (action : Action) : Prop :=
  ∀ targets config, action = .send targets (.newEpochReady config) → ReadyBacked config before

/-- The tracker gives a target the messages of its epoch. -/
def TargetCall.Addressed (et : EpochTarget) : TargetCall → Prop
  | newEpoch msg => msg.newConfig.config.number = et.number
  | newEpochEcho _ config | newEpochReady _ config => config.config.number = et.number
  | _ => True

/-- **An echoing target does not get `f + 1` readies** for a configuration with batches. -/
def TargetCall.ReadyByEchos (et : EpochTarget) : TargetCall → Prop
  | newEpochReady source config => et.state = .echoing → config.finalPreprepares = [] ∨
      votesFor (EpochTarget.vote et.readies config source) config < someCorrectQuorum et.networkConfig
  | _ => True

/-- The surroundings in which it does not. -/
def backedSurroundings (nc : NetworkConfig) : Surroundings where
  networkConfig := nc
  newEpoch v newEpoch := newEpoch.newConfig.config.number = v.number
  echo v _ config := config.config.number = v.number
  ready v source config := config.config.number = v.number ∧
    (v.state = .echoing → config.finalPreprepares = [] ∨
      votesFor (EpochTarget.vote v.readies config source) config < someCorrectQuorum nc)

/-! ### The invariant -/

/-- The invariant: an echoing target has written an N-entry of its epoch, and every ready is
backed. -/
structure Backed (v : TargetView) (actions : List Action) : Prop where
  leader : ∀ newEpoch, v.leaderNewEpoch = some newEpoch → newEpoch.newConfig.config.number = v.number
  echos : ∀ config ∈ v.echos, config.config.number = v.number
  echoing : v.state = .echoing → ∃ (earlier later : List Action) (index : Nat) (nEntry : NEntry),
    actions = earlier ++ .appendWriteAhead index (.nEntry nEntry) :: later ∧
    nEntry.epochConfig.number = v.number
  readies : EachAfter BackedReady actions

section Backed

variable {nc : NetworkConfig} {v v' : TargetView} {actions more : List Action}

theorem BackedReady.of_routine (routine : ∀ action ∈ actions, action.Routine) :
    ∀ action ∈ actions, ∀ before, BackedReady before action := by
  rintro action member before targets config rfl
  rcases routine _ member with harmless | ⟨_, _, isWrite⟩
  · cases harmless
  · cases isWrite

/-- A move that neither starts to echo nor gets ready. -/
theorem Backed.idle (backed : Backed v actions) (sameNumber : v'.number = v.number)
    (leader : ∀ newEpoch, v'.leaderNewEpoch = some newEpoch →
      v.leaderNewEpoch = some newEpoch ∨ newEpoch.newConfig.config.number = v.number)
    (echos : ∀ config ∈ v'.echos, config ∈ v.echos ∨ config.config.number = v.number)
    (echoing : v'.state = .echoing → v.state = .echoing)
    (silent : ∀ action ∈ more, ∀ before, BackedReady before action) : Backed v' (actions ++ more) where
  leader newEpoch isLeader := by
    rw [sameNumber]
    rcases leader newEpoch isLeader with was | number
    · exact backed.leader newEpoch was
    · exact number
  echos config member := by
    rw [sameNumber]
    rcases echos config member with was | number
    · exact backed.echos config was
    · exact number
  echoing isEchoing := by
    obtain ⟨earlier, later, index, nEntry, rfl, number⟩ := backed.echoing (echoing isEchoing)
    exact ⟨earlier, later ++ more, index, nEntry, by simp, number.trans sameNumber.symm⟩
  readies := backed.readies.append (.of_forall fun action member _ => silent action member _)

theorem Backed.ready {config : NewEpochConfig} {targets : List NodeID} {writes : List Action}
    (backed : Backed v actions) (echoing : v.state = .echoing)
    (sameNumber : v'.number = v.number) (sameLeader : v'.leaderNewEpoch = v.leaderNewEpoch)
    (sameEchos : v'.echos = v.echos) (readying : v'.state = .readying)
    (number : config.config.number = v.number)
    (silent : ∀ action ∈ writes, ∀ before, BackedReady before action)
    (entries : ∀ batch ∈ config.batches, ∃ index,
      .appendWriteAhead index (.pEntry ⟨batch.1, batch.2⟩) ∈ writes) :
    Backed v' (actions ++ (writes ++ [.send targets (.newEpochReady config)])) where
  leader := by
    rw [sameLeader, sameNumber]
    exact backed.leader
  echos := by
    rw [sameEchos, sameNumber]
    exact backed.echos
  echoing impossible := by
    rw [readying] at impossible
    cases impossible
  readies := by
    refine backed.readies.append (.append (.of_forall fun action member _ => silent action member _)
      (.single ?_))
    rintro _ _ ⟨⟩
    obtain ⟨earlier, later, index, nEntry, rfl, sameEpoch⟩ := backed.echoing echoing
    refine ⟨earlier, later ++ writes, index, nEntry, by simp, sameEpoch.trans number.symm, ?_⟩
    intro batch member
    obtain ⟨index, written⟩ := entries batch member
    exact ⟨index, List.mem_append_right later written⟩

variable {votes : GoMap NewEpochConfig (Finset NodeID)}

theorem mem_of_mem_vote {voted config : NewEpochConfig}
    {source : NodeID} (member : config ∈ EpochTarget.vote votes voted source) :
    config ∈ votes ∨ config = voted := by
  rcases (AList.mem_insert votes).mp member with same | was
  · exact .inr same
  · exact .inl was

theorem mem_of_votesFor_pos {config : NewEpochConfig}
    (voted : 0 < votesFor votes config) : config ∈ votes := by
  by_contra absent
  unfold votesFor at voted
  rw [AList.lookup_eq_none.mpr absent] at voted
  exact absurd voted (by simp)

theorem Backed.move (backed : Backed v actions) (move : TargetMove (backedSurroundings nc) v v' more) :
    Backed v' (actions ++ more) := by
  have nothing : ∀ action ∈ ([] : List Action), ∀ before, BackedReady before action := by simp
  have sameLeader (newEpoch : NewEpoch) (is : v.leaderNewEpoch = some newEpoch) :
      v.leaderNewEpoch = some newEpoch ∨ newEpoch.newConfig.config.number = v.number := .inl is
  have sameEchos (config : NewEpochConfig) (is : config ∈ v.echos) :
      config ∈ v.echos ∨ config.config.number = v.number := .inl is
  cases move with
  | write wrote => exact backed.idle rfl sameLeader sameEchos id (BackedReady.of_routine wrote.routine)
  | ack origin source msg digest => exact backed.idle rfl sameLeader sameEchos id nothing
  | lead newEpoch given =>
    refine backed.idle rfl ?_ sameEchos id nothing
    rintro _ ⟨⟩
    exact .inr given
  | wait state _ early =>
    refine backed.idle rfl sameLeader sameEchos ?_ nothing
    intro echoing
    rw [show state = .echoing from echoing] at early
    exact absurd early (by decide)
  | verify newEpoch epochChanges order _ _ _ _ =>
    exact backed.idle rfl sameLeader sameEchos (fun impossible => by cases impossible) nothing
  | echo newEpoch entries writes _ isLeader isEcho isWrites =>
    obtain ⟨index, rest, isFirst⟩ := isWrites.head isEcho.first
    refine ⟨backed.leader, backed.echos, fun _ => ?_, ?_⟩
    · exact ⟨actions, rest ++ [_], index, _, by rw [isFirst]; rfl, backed.leader newEpoch isLeader⟩
    · refine backed.readies.append (.append
        (.of_forall fun action member _ => BackedReady.of_routine isWrites.routine action member _)
        (.single ?_))
      rintro _ _ ⟨⟩
  | echoVote source config given =>
    refine backed.idle rfl sameLeader ?_ id nothing
    intro other member
    rcases mem_of_mem_vote member with was | rfl
    · exact .inl was
    · exact .inr given
  | readyVote source config _ _ => exact backed.idle rfl sameLeader sameEchos id nothing
  | readyByEchos config writes echoing quorum isWrites =>
    have voted := mem_of_votesFor_pos ((intersectionQuorum_pos _).trans_le quorum)
    refine backed.ready echoing rfl rfl rfl rfl (backed.echos config voted)
      (BackedReady.of_routine isWrites.routine) ?_
    intro batch member
    exact isWrites.of_mem (List.mem_map_of_mem member)
  | readyByReadies source config echoing given correct =>
    -- The surroundings leave this route to configurations without batches.
    have none : config.finalPreprepares = [] :=
      (given.2 echoing).resolve_right (Nat.not_lt.mpr correct)
    rw [← List.nil_append [Action.send _ _]]
    refine backed.ready echoing rfl rfl rfl rfl given.1 nothing ?_
    intro batch member
    rw [NewEpochConfig.batches, none] at member
    cases member
  | accept config _ _ =>
    exact backed.idle rfl sameLeader sameEchos (fun impossible => by cases impossible) nothing
  | resume _ =>
    exact backed.idle rfl sameLeader sameEchos (fun impossible => by cases impossible) nothing
  | activate config _ _ => exact backed.idle rfl sameLeader sameEchos id nothing
  | start _ =>
    exact backed.idle rfl sameLeader sameEchos (fun impossible => by cases impossible) nothing
  | finish =>
    exact backed.idle rfl sameLeader sameEchos (fun impossible => by cases impossible) nothing

end Backed

theorem Backed.fresh {v : TargetView} (isState : v.state = .prepending ∨ v.state = .resuming)
    (noLeader : v.leaderNewEpoch = none) (noEchos : v.echos = ∅) : Backed v [] where
  leader newEpoch isLeader := by
    rw [noLeader] at isLeader
    cases isLeader
  echos config member := by
    rw [noEchos] at member
    exact absurd member (AList.notMem_empty config)
  echoing isEchoing := by
    rw [isEchoing] at isState
    rcases isState with impossible | impossible <;> cases impossible
  readies := .nil

/-- The calls of a run: messages of the target's epoch, and no `f + 1` readies while it echoes. -/
def BackedCall (et : EpochTarget) (call : TargetCall) : Prop :=
  call.Addressed et ∧ call.ReadyByEchos et

/-- **Every ready is backed by P-entries**, in every run in which an echoing target does not get
`f + 1` readies. -/
theorem readies_are_backed {nc : NetworkConfig} {et : EpochTarget} {actions before after : List Action}
    {targets : List NodeID} {config : NewEpochConfig} (run : TargetRun nc BackedCall et actions)
    (ready : actions = before ++ .send targets (.newEpochReady config) :: after) :
    ReadyBacked config before := by
  have given (et : EpochTarget) (call : TargetCall) (sh : Shared) (isConfig : et.networkConfig = nc)
      (met : BackedCall et call) : call.Given (backedSurroundings nc) (EtState.view ⟨et, sh⟩) := by
    subst isConfig
    cases call with
    | newEpochReady source config => exact met
    | _ => exact met.1
  have backed := run.invariant rfl given Backed
    (fun _ _ _ _ _ _ _ isState => .fresh isState rfl rfl)
    (fun _ _ _ _ backed => ⟨backed.leader, backed.echos, backed.echoing, backed.readies⟩)
    (fun _ _ _ _ backed move => backed.move move)
  exact (backed.2 (.new et.myConfig .empty nc fun _ => .inOrder)).readies before _ after ready
    targets config rfl

/-! ### Both routes -/

/-- The conditions, as tests. -/
def addressed (et : EpochTarget) : TargetCall → Bool
  | .newEpoch msg => msg.newConfig.config.number == et.number
  | .newEpochEcho _ config | .newEpochReady _ config => config.config.number == et.number
  | _ => true

def readyByEchos (et : EpochTarget) : TargetCall → Bool
  | .newEpochReady source config => et.state ≠ .echoing ∨ config.finalPreprepares = [] ∨
      votesFor (EpochTarget.vote et.readies config source) config < someCorrectQuorum et.networkConfig
  | _ => true

theorem addressed_sound (et : EpochTarget) (call : TargetCall) (holds : addressed et call = true) :
    call.Addressed et := by
  cases call with
  | newEpoch | newEpochEcho | newEpochReady => exact beq_iff_eq.mp holds
  | _ => trivial

theorem readyByEchos_sound (et : EpochTarget) (call : TargetCall) (holds : readyByEchos et call = true) :
    call.ReadyByEchos et := by
  cases call with
  | newEpochReady source config =>
    intro echoing
    exact (of_decide_eq_true holds).resolve_left (not_not.mpr echoing)
  | _ => trivial

namespace ThreeChanges

/-- The batch that node zero has committed in epoch one. -/
def firstBatch : QEntry := ⟨1, [5], [⟨0, 0, [7]⟩]⟩

/-- The log of node zero, when it asks for epoch two. -/
def committedLog : Persisted where
  nextIndex := 8
  log := [⟨1, .cEntry ⟨0, genesis.value, FourNodes.networkState⟩⟩, ⟨2, .fEntry ⟨0, [], 0⟩⟩,
    ⟨3, .ecEntry 1⟩, ⟨4, .nEntry ⟨1, ⟨1, [0, 1, 2, 3], 20⟩⟩⟩, ⟨5, .qEntry firstBatch⟩,
    ⟨6, .pEntry ⟨1, [5]⟩⟩, ⟨7, .ecEntry 2⟩]

def committedShared : Shared :=
  let sh := Shared.new (FourNodes.parameters 0) committedLog FourNodes.networkConfig fun _ => .inOrder
  { sh with
    commitState := { sh.commitState with stopAtSeqNo := 10, highestCommit := 1 }
    batchTracker := sh.batchTracker.addBatch 1 [5] firstBatch.requests }

/-- The configuration of epoch two, with the batch that all have prepared. -/
def preparedEpoch : NewEpoch := newEpochWith ([5] :: List.replicate 9 [])

/-- Node zero echoes the configuration. -/
def echoCalls : List TargetCall := acks [⟨1, 1, [5]⟩] ++ [.newEpoch preparedEpoch]

/-- With a quorum of echos, node zero writes the P-entries and gets ready. -/
theorem ready_after_echos_is_backed : ∃ et actions before after,
    TargetRun FourNodes.networkConfig BackedCall et actions ∧
    actions = before ++ .send [0, 1, 2, 3] (.newEpochReady preparedEpoch.newConfig) :: after ∧
    ReadyBacked preparedEpoch.newConfig before := by
  have called : ∃ result, callAll (fun et call => addressed et call && readyByEchos et call)
      (echoCalls ++ [0, 1, 2].map fun source => .newEpochEcho source preparedEpoch.newConfig)
      ⟨target, committedShared⟩ = some result ∧
        .send [0, 1, 2, 3] (.newEpochReady preparedEpoch.newConfig) ∈ result.2 := by
    decide +kernel
  obtain ⟨⟨st, actions⟩, isResult, member⟩ := called
  have run : TargetRun FourNodes.networkConfig BackedCall st.et ([] ++ actions) :=
    TargetRun.of_callAll (fun et call holds => (Bool.and_eq_true_iff.mp holds).imp
      (addressed_sound et call) (readyByEchos_sound et call)) (target_run _) isResult
  obtain ⟨before, after, split⟩ := List.append_of_mem member
  exact ⟨st.et, actions, before, after, run, split, readies_are_backed run split⟩

/-- An action that writes a P-entry. -/
def writesPEntry : Action → Bool
  | .appendWriteAhead _ (.pEntry _) => true
  | _ => false

/-- **With two readies of others, node zero gets ready and writes no P-entry.** -/
theorem ready_without_entries : ∃ et actions before after,
    TargetRun FourNodes.networkConfig (fun et call => call.Addressed et) et actions ∧
    actions = before ++ .send [0, 1, 2, 3] (.newEpochReady preparedEpoch.newConfig) :: after ∧
    ¬ ReadyBacked preparedEpoch.newConfig before := by
  have called : ∃ result, callAll addressed
      (echoCalls ++ [1, 3].map fun source => .newEpochReady source preparedEpoch.newConfig)
      ⟨target, committedShared⟩ = some result ∧
        .send [0, 1, 2, 3] (.newEpochReady preparedEpoch.newConfig) ∈ result.2 ∧
        ∀ action ∈ result.2, writesPEntry action = false := by
    decide +kernel
  obtain ⟨⟨st, actions⟩, isResult, member, none⟩ := called
  have run := TargetRun.of_callAll addressed_sound (target_run _) isResult
  obtain ⟨before, after, split⟩ := List.append_of_mem member
  refine ⟨st.et, actions, before, after, run, split, ?_⟩
  rintro ⟨earlier, later, _, _, rfl, _, entries⟩
  obtain ⟨index, written⟩ := entries (1, [5]) (by decide)
  have absent := none (.appendWriteAhead index (.pEntry ⟨1, [5]⟩)) (by
    rw [show actions = _ from split]
    simp [written])
  cases absent

end ThreeChanges

end MirBft
