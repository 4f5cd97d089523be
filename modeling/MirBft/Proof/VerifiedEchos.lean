/-
**Which configurations an epoch target echoes.**

A target verifies the leader's new epoch in one state and echoes it in the next one, possibly many
events later. `TargetRun` is a target's life: the calls it gets, each with the components it shares
as the rest of the node left them.

* `constructNewEpochConfig_content`: the configuration does not depend on who acknowledged a change;
* `NewEpoch.Verified`: a new epoch's configuration is the one its epoch changes lead to, and each of
  those is acknowledged by a correct node; later acks do not change that (`NewEpoch.Checked.grown`);
* `echos_are_verified`: **what a target echoes is verified, in every run in which no other new epoch
  arrives while it fetches.** A new epoch that does arrive then is echoed as it is
  (`replaced_new_epoch_is_echoed`).
-/

import MirBft.Proof.FourNodes
import MirBft.Proof.TargetWalk
import MirBft.Proof.ViewChange

namespace MirBft

open Proc EpochTarget

/-! ### Acks -/

/-- A parsed epoch change without its acks. -/
def ParsedEpochChange.content (parsed : ParsedEpochChange) : ParsedEpochChange :=
  { parsed with acks := ∅ }

/-- Epoch changes without their acks. -/
abbrev contents (epochChanges : GoMap NodeID ParsedEpochChange) : GoMap NodeID ParsedEpochChange :=
  GoMap.mapValues ParsedEpochChange.content epochChanges

theorem contents_insert {epochChanges : GoMap NodeID ParsedEpochChange} {id : NodeID}
    {parsed : ParsedEpochChange} (fresh : id ∉ epochChanges) :
    contents (epochChanges.insert id parsed) = (contents epochChanges).insert id parsed.content :=
  GoMap.mapValues_insert fresh

section Content

variable (epochChanges : GoMap NodeID ParsedEpochChange)

theorem collectCheckpoints_content (nodes : List NodeID) (table : GoMap Checkpoint (List NodeID))
    (number : Nat) : collectCheckpoints (contents epochChanges) nodes table number =
      collectCheckpoints epochChanges nodes table number := by
  induction nodes generalizing table number with
  | nil => rfl
  | cons id rest ih =>
    unfold collectCheckpoints
    rw [GoMap.lookup_mapValues]
    cases epochChanges.lookup id with
    | none => exact ih table number
    | some change => exact ih _ _

theorem selectCheckpoint_content (nc : NetworkConfig) (table : List (Σ _ : Checkpoint, List NodeID))
    (highest : Option Checkpoint) : selectCheckpoint nc (contents epochChanges) table highest =
      selectCheckpoint nc epochChanges table highest := by
  have sameCount (seqNo : Nat) : nodesWithLowerWatermark (contents epochChanges) seqNo =
      nodesWithLowerWatermark epochChanges seqNo := GoMap.countP_mapValues _ _ _
  induction table generalizing highest with
  | nil => rfl
  | cons entry rest ih =>
    cases highest <;> simp only [selectCheckpoint, sameCount, ih]

theorem selectEntry_content (nc : NetworkConfig) (seqNo : Nat) (nodes : List NodeID) :
    selectEntry nc (contents epochChanges) seqNo nodes = selectEntry nc epochChanges seqNo nodes := by
  have sameA1 (entry : SetEntry) : a1Count (contents epochChanges) entry seqNo =
      a1Count epochChanges entry seqNo := GoMap.countP_mapValues _ _ _
  have sameA2 (entry : SetEntry) : a2Count (contents epochChanges) entry seqNo =
      a2Count epochChanges entry seqNo := GoMap.countP_mapValues _ _ _
  induction nodes with
  | nil => rfl
  | cons id rest ih =>
    unfold selectEntry
    rw [GoMap.lookup_mapValues, ih]
    cases epochChanges.lookup id with
    | none => rfl
    | some change =>
      simp only [sameA1, sameA2]
      rfl

theorem selectEntries_content (nc : NetworkConfig) (start : Nat) (offsets : List Nat) :
    selectEntries nc (contents epochChanges) start offsets =
      selectEntries nc epochChanges start offsets := by
  have sameB (seqNo : Nat) : bCount (contents epochChanges) seqNo = bCount epochChanges seqNo :=
    GoMap.countP_mapValues _ _ _
  induction offsets with
  | nil => rfl
  | cons offset rest ih => simp only [selectEntries, selectEntry_content, sameB, ih]

/-- **The configuration does not depend on the acks.** -/
theorem constructNewEpochConfig_content (order : MapIter) (nc : NetworkConfig) (leaders : List NodeID) :
    constructNewEpochConfig order nc leaders (contents epochChanges) =
      constructNewEpochConfig order nc leaders epochChanges := by
  unfold constructNewEpochConfig
  simp only [collectCheckpoints_content, selectCheckpoint_content, selectEntries_content]

end Content

/-! ### Verified new epochs -/

/-- **The epoch changes that a new epoch refers to**: each is known, and a correct node acknowledged
it. -/
structure Referenced (nc : NetworkConfig) (changes : GoMap NodeID EpochChangeAcks)
    (references : List RemoteEpochChange) (epochChanges : GoMap NodeID ParsedEpochChange) : Prop where
  acked : ∀ remote ∈ references, ∃ change parsed, changes.lookup remote.nodeId = some change ∧
    change.parsedByDigest.lookup remote.digest = some parsed ∧
    epochChanges.lookup remote.nodeId = some parsed ∧ someCorrectQuorum nc ≤ parsed.acks.card
  only : ∀ id ∈ epochChanges, ∃ remote ∈ references, remote.nodeId = id

/-- **A verified new epoch**: its configuration is the one that the epoch changes it refers to lead
to. -/
def NewEpoch.Verified (nc : NetworkConfig) (changes : GoMap NodeID EpochChangeAcks)
    (newEpoch : NewEpoch) : Prop :=
  ∃ epochChanges, Referenced nc changes newEpoch.epochChanges epochChanges ∧ ∃ order,
    constructNewEpochConfig order nc newEpoch.newConfig.config.leaders epochChanges =
      .ok (some newEpoch.newConfig)

/-- What `verifyNewEpochState` finds out. -/
def NewEpoch.Checked (nc : NetworkConfig) (changes : GoMap NodeID EpochChangeAcks)
    (newEpoch : NewEpoch) : Prop :=
  ∃ epochChanges order,
    referencedChanges nc changes ∅ newEpoch.epochChanges = some epochChanges ∧
    constructNewEpochConfig order nc newEpoch.newConfig.config.leaders epochChanges =
      .ok (some newEpoch.newConfig)

section References

variable {nc : NetworkConfig} {changes after : GoMap NodeID EpochChangeAcks}
variable {known found : GoMap NodeID ParsedEpochChange} {references : List RemoteEpochChange}
  {remote : RemoteEpochChange} {id : NodeID} {parsed : ParsedEpochChange} {newEpoch : NewEpoch}

theorem referencedChanges_cons {rest : List RemoteEpochChange}
    (ran : referencedChanges nc changes known (remote :: rest) = some found) :
    remote.nodeId ∉ known ∧ ∃ change parsed, changes.lookup remote.nodeId = some change ∧
      change.parsedByDigest.lookup remote.digest = some parsed ∧
      someCorrectQuorum nc ≤ parsed.acks.card ∧
      referencedChanges nc changes (known.insert remote.nodeId parsed) rest = some found := by
  unfold referencedChanges at ran
  split at ran
  · cases ran
  rename_i fresh
  split at ran
  · cases ran
  rename_i change isChange
  split at ran
  · cases ran
  rename_i parsed isParsed
  split at ran
  · cases ran
  rename_i acked
  exact ⟨fresh, change, parsed, isChange, isParsed, Nat.le_of_not_lt acked, ran⟩

section

variable (ran : referencedChanges nc changes known references = some found)
include ran

theorem referencedChanges_keeps
    (isKnown : known.lookup id = some parsed) :
    found.lookup id = some parsed := by
  induction references generalizing known with
  | nil =>
    cases ran
    exact isKnown
  | cons remote rest ih =>
    obtain ⟨fresh, _, other, _, _, _, continued⟩ := referencedChanges_cons ran
    refine ih continued ?_
    have different : id ≠ remote.nodeId := by
      rintro rfl
      exact fresh (AList.lookup_isSome.mp (by rw [isKnown]; rfl))
    rw [AList.lookup_insert_ne different, isKnown]

theorem referencedChanges_only
    (member : id ∈ found) : id ∈ known ∨ ∃ remote ∈ references, remote.nodeId = id := by
  induction references generalizing known with
  | nil =>
    cases ran
    exact .inl member
  | cons remote rest ih =>
    obtain ⟨_, _, _, _, _, _, continued⟩ := referencedChanges_cons ran
    rcases ih continued with inserted | ⟨other, isReference, same⟩
    · rcases (AList.mem_insert known).mp inserted with same | isKnown
      · exact .inr ⟨remote, by simp, same.symm⟩
      · exact .inl isKnown
    · exact .inr ⟨other, by simp [isReference], same⟩

theorem referencedChanges_acked
    (member : remote ∈ references) :
    ∃ change parsed, changes.lookup remote.nodeId = some change ∧
      change.parsedByDigest.lookup remote.digest = some parsed ∧
      found.lookup remote.nodeId = some parsed ∧ someCorrectQuorum nc ≤ parsed.acks.card := by
  induction references generalizing known with
  | nil => cases member
  | cons first rest ih =>
    obtain ⟨_, change, parsed, isChange, isParsed, acked, continued⟩ := referencedChanges_cons ran
    rcases List.mem_cons.mp member with rfl | later
    · exact ⟨change, parsed, isChange, isParsed,
        referencedChanges_keeps continued (AList.lookup_insert known), acked⟩
    · exact ih continued later

end

theorem NewEpoch.Checked.verified (checked : newEpoch.Checked nc changes) :
    newEpoch.Verified nc changes := by
  obtain ⟨epochChanges, order, referenced, constructed⟩ := checked
  refine ⟨epochChanges, ⟨fun remote member => referencedChanges_acked referenced member,
    fun id member => ?_⟩, order, constructed⟩
  exact (referencedChanges_only referenced member).resolve_left (AList.notMem_empty id)

/-- **The table of epoch changes grew**: what was parsed is still there, with the acks it had. -/
def Grown (changes after : GoMap NodeID EpochChangeAcks) : Prop :=
  ∀ id change digest parsed, changes.lookup id = some change →
    change.parsedByDigest.lookup digest = some parsed → ∃ change' parsed',
      after.lookup id = some change' ∧ change'.parsedByDigest.lookup digest = some parsed' ∧
      parsed'.content = parsed.content ∧ parsed.acks ⊆ parsed'.acks

/-- An ack leaves what was parsed, or adds to its acks. -/
theorem addMsg_grown (source : NodeID) (msg : EpochChange) (digest : Bytes) {change : EpochChangeAcks}
    {key : Bytes} (found : change.parsedByDigest.lookup key = some parsed) :
    ∃ parsed', (change.addMsg source msg digest).parsedByDigest.lookup key = some parsed' ∧
      parsed'.content = parsed.content ∧ parsed.acks ⊆ parsed'.acks := by
  cases chosen : change.parsedFor msg digest with
  | error text =>
    refine ⟨parsed, ?_, rfl, subset_rfl⟩
    unfold EpochChangeAcks.addMsg
    rw [chosen]
    exact found
  | ok before =>
    rw [EpochChangeAcks.addMsg_parsedByDigest chosen]
    by_cases same : key = digest
    · subst same
      have isParsed : before = parsed := by
        unfold EpochChangeAcks.parsedFor at chosen
        rw [found] at chosen
        cases chosen
        rfl
      subst isParsed
      exact ⟨_, AList.lookup_insert _, rfl, Finset.subset_insert _ _⟩
    · exact ⟨parsed, by rw [AList.lookup_insert_ne same, found], rfl, subset_rfl⟩

theorem grown_insert_addMsg (nc : NetworkConfig) (changes : GoMap NodeID EpochChangeAcks)
    (origin source : NodeID)
    (msg : EpochChange) (digest : Bytes) : Grown changes (changes.insert origin
      (((changes.lookup origin).getD ⟨nc, ∅, none⟩).addMsg source msg digest)) := by
  intro id change key parsed isChange isParsed
  by_cases same : id = origin
  · subst same
    obtain ⟨parsed', found, content, acks⟩ := addMsg_grown source msg digest isParsed
    refine ⟨_, parsed', AList.lookup_insert _, ?_, content, acks⟩
    rw [isChange]
    exact found
  · exact ⟨change, parsed, by rw [AList.lookup_insert_ne same, isChange], isParsed, rfl, subset_rfl⟩

/-- The loop finds the same epoch changes later. -/
theorem referencedChanges_grown (grown : Grown changes after) {known' : GoMap NodeID ParsedEpochChange}
    (same : contents known' = contents known)
    (ran : referencedChanges nc changes known references = some found) :
    ∃ found', referencedChanges nc after known' references = some found' ∧
      contents found' = contents found := by
  induction references generalizing known known' with
  | nil =>
    cases ran
    exact ⟨known', rfl, same⟩
  | cons remote rest ih =>
    obtain ⟨fresh, change, parsed, isChange, isParsed, acked, continued⟩ := referencedChanges_cons ran
    obtain ⟨change', parsed', isChange', isParsed', content, acks⟩ :=
      grown _ _ _ _ isChange isParsed
    have fresh' : remote.nodeId ∉ known' := by
      intro member
      have inContents : remote.nodeId ∈ contents known' := GoMap.mem_mapValues.mpr member
      rw [same] at inContents
      exact fresh (GoMap.mem_mapValues.mp inContents)
    have acked' : ¬ parsed'.acks.card < someCorrectQuorum nc :=
      Nat.not_lt.mpr (acked.trans (Finset.card_le_card acks))
    have stillSame : contents (known'.insert remote.nodeId parsed') =
        contents (known.insert remote.nodeId parsed) := by
      rw [contents_insert fresh, contents_insert fresh', same, content]
    obtain ⟨found', continued', isFound⟩ := ih stillSame continued
    refine ⟨found', ?_, isFound⟩
    unfold referencedChanges
    rw [if_neg fresh', isChange']
    simp only [isParsed', if_neg acked', continued']

/-- **A checked new epoch stays checked** when more acks arrive. -/
theorem NewEpoch.Checked.grown (checked : newEpoch.Checked nc changes)
    (grown : Grown changes after) : newEpoch.Checked nc after := by
  obtain ⟨epochChanges, order, referenced, constructed⟩ := checked
  obtain ⟨epochChanges', referenced', same⟩ := referencedChanges_grown grown rfl referenced
  refine ⟨epochChanges', order, referenced', ?_⟩
  rw [← constructNewEpochConfig_content, same, constructNewEpochConfig_content, constructed]

end References

/-! ### The life of a target -/

/-- What the tracker and the state machine call on a target. -/
inductive TargetCall where
  | step (source : NodeID) (msg : Msg)
  | epochChange (source : NodeID) (change : EpochChange)
  | epochChangeAck (source origin : NodeID) (change : EpochChange)
  | epochChangeDigest (source origin : NodeID) (change : EpochChange) (digest : Bytes)
  | newEpoch (msg : NewEpoch)
  | newEpochEcho (source : NodeID) (config : NewEpochConfig)
  | newEpochReady (source : NodeID) (config : NewEpochConfig)
  | suspect (source : NodeID)
  | batchHashResult (seqNo : Nat) (digest : Bytes)
  | moveLowWatermark (seqNo : Nat)
  | fetchNewEpochState
  | advanceState
  | tick
  | giveUp

def TargetCall.run : TargetCall → GoProc EtState Unit
  | step source msg => EpochTarget.step source msg
  | epochChange source change => EpochTarget.applyEpochChangeMsg source change
  | epochChangeAck source origin change => EpochTarget.applyEpochChangeAckMsg source origin change
  | epochChangeDigest source origin change digest =>
    EpochTarget.applyEpochChangeDigest source origin change digest
  | newEpoch msg => EpochTarget.applyNewEpochMsg msg
  | newEpochEcho source config => EpochTarget.applyNewEpochEchoMsg source config
  | newEpochReady source config => EpochTarget.applyNewEpochReadyMsg source config
  | suspect source => EpochTarget.applySuspectMsg source
  | batchHashResult seqNo digest =>
    EpochTarget.onActive (ActiveEpoch.applyBatchHashResult seqNo digest)
  | moveLowWatermark seqNo => EpochTarget.moveLowWatermark seqNo
  | fetchNewEpochState => do
    -- The state machine looks at the state before it calls this.
    let st ← Proc.get
    if st.et.state = .fetching then EpochTarget.fetchNewEpochState else pure ()
  | advanceState => EpochTarget.advanceState
  | tick => EpochTarget.tick
  | giveUp => EpochTarget.assign fun et => { et with state := .done }

/-- **A target's life**, with all its actions: the tracker makes it for an epoch change or to resume
an epoch, and it is called with the shared components as the rest of the node left them. -/
inductive TargetRun (nc : NetworkConfig) (meets : EpochTarget → TargetCall → Prop) :
    EpochTarget → List Action → Prop
  | change (number : Nat) (myConfig : InitialParameters) (myEpochChange : ParsedEpochChange)
      (myLeaderChoice : List NodeID) : TargetRun nc meets
        { EpochTarget.new number nc myConfig with
          myEpochChange := some myEpochChange, myLeaderChoice } []
  | resume (number : Nat) (myConfig : InitialParameters) (startingSeqNo : Nat) : TargetRun nc meets
      { EpochTarget.new number nc myConfig with startingSeqNo, state := .resuming } []
  | call {et final : EpochTarget} {actions more : List Action} (call : TargetCall) (sh sh' : Shared) :
      TargetRun nc meets et actions → meets et call →
      call.run ⟨et, sh⟩ = .ok (⟨final, sh'⟩, more, ()) → TargetRun nc meets final (actions ++ more)

/-- **The leader does not replace its new epoch while it is fetched.** -/
def NewEpochKept (et : EpochTarget) : TargetCall → Prop
  | .newEpoch msg => et.state = .fetching → et.leaderNewEpoch = some msg
  | _ => True

/-- The surroundings in which it does not. -/
def keptSurroundings (nc : NetworkConfig) : Surroundings where
  networkConfig := nc
  newEpoch v newEpoch := v.state = .fetching → v.leaderNewEpoch = some newEpoch
  echo _ _ _ := True
  ready _ _ _ := True

/-- The surroundings provide what a call brings. -/
def TargetCall.Given (env : Surroundings) (v : TargetView) : TargetCall → Prop
  | newEpoch msg => env.newEpoch v msg
  | newEpochEcho source config => env.echo v source config
  | newEpochReady source config => env.ready v source config
  | _ => True

variable {env : Surroundings}

theorem TargetCall.simulates {call : TargetCall} {st : EtState}
    (given : call.Given env st.view) : wp call.run st fun final actions _ =>
    (Simulates env).rel st final actions := by
  have mayVote : MayVote True (fun _ _ => True) st.sh.myConfig.id := .inl trivial
  suffices proceeds : ProceedsFrom env True (fun _ _ => True) (.of st.sh.myConfig) call.run st from
    wp_mono proceeds fun _ _ _ done => done.1
  cases call with
  | step source msg => exact proceeds_step mayVote trivial _
  | epochChange source change =>
    exact proceeds_of_quiet (quiet_applyEpochChangeMsg source change) _
  | epochChangeAck source origin change =>
    exact proceeds_of_quiet (quiet_applyEpochChangeAckMsg source origin change) _
  | epochChangeDigest source origin change digest =>
    exact proceeds_applyEpochChangeDigest mayVote source origin change digest _
  | newEpoch msg => exact proceeds_applyNewEpochMsg mayVote given
  | newEpochEcho source config => exact proceeds_applyNewEpochEchoMsg mayVote given
  | newEpochReady source config => exact proceeds_applyNewEpochReadyMsg mayVote given
  | suspect source => exact proceeds_applySuspectMsg source _
  | batchHashResult seqNo digest =>
    exact proceeds_onActive mayVote
      (fun _ => (ActiveEpoch.regular_applyBatchHashResult seqNo digest).writes)
      (ActiveEpoch.follows_applyBatchHashResult seqNo digest) _
  | moveLowWatermark seqNo => exact proceeds_moveLowWatermark mayVote seqNo _
  | fetchNewEpochState =>
    refine wp_get_bind ?_
    split
    · exact proceeds_fetchNewEpochState (by assumption)
    · exact has_pure () _
  | advanceState => exact proceeds_advanceState mayVote _
  | tick => exact proceeds_tick mayVote _
  | giveUp =>
    show ProceedsFrom _ _ _ _ (assign fun et => { et with state := .done }) _
    exact proceeds_assign rfl ⟨rfl, rfl, rfl⟩ fun _ => .single (.finish _)

variable {nc : NetworkConfig} {meets : EpochTarget → TargetCall → Prop}

/-- **The rule for a target's life**: an invariant of the protocol's moves that does not depend on
the shared components holds throughout, with all the actions so far. -/
theorem TargetRun.invariant (isConfig : env.networkConfig = nc)
    (given : ∀ et call sh, et.networkConfig = nc → meets et call → call.Given env (EtState.view ⟨et, sh⟩))
    (holds : TargetView → List Action → Prop)
    (fresh : ∀ number myConfig change leaders startingSeqNo state sh,
      state = .prepending ∨ state = .resuming → holds (EtState.view ⟨{ new number nc myConfig with
          myEpochChange := change, myLeaderChoice := leaders, startingSeqNo, state }, sh⟩) [])
    (others : ∀ et sh sh' actions, holds (EtState.view ⟨et, sh⟩) actions →
      holds (EtState.view ⟨et, sh'⟩) actions)
    (moves : ∀ v v' actions more, holds v actions → TargetMove env v v' more →
      holds v' (actions ++ more))
    {et : EpochTarget} {actions : List Action} (run : TargetRun nc meets et actions) :
    et.networkConfig = nc ∧ ∀ sh, holds (EtState.view ⟨et, sh⟩) actions := by
  induction run with
  | change number myConfig myEpochChange leaders =>
    exact ⟨rfl, fun sh => fresh number myConfig (some myEpochChange) leaders 0 .prepending sh (.inl rfl)⟩
  | resume number myConfig startingSeqNo =>
    exact ⟨rfl, fun sh => fresh number myConfig none [] startingSeqNo .resuming sh (.inr rfl)⟩
  | call call sh sh' _ met ran ih =>
    obtain ⟨sameConfig, sound⟩ := ih
    have simulated := TargetCall.simulates (given _ _ sh sameConfig met) _ _ _ ran
    have after := (simulated.steps (sameConfig.trans isConfig.symm)).invariant holds moves (sound sh)
    exact ⟨simulated.networkConfig.trans sameConfig, fun _ => others _ _ _ _ after⟩

/-! ### Echos are verified -/

/-- What there is to an echo of `config` that comes after `before`: it is the configuration of a
checked new epoch, and the entries that were just written are for it. -/
def EchoedBy (nc : NetworkConfig) (changes : GoMap NodeID EpochChangeAcks) (config : NewEpochConfig)
    (before : List Action) : Prop :=
  ∃ (newEpoch : NewEpoch) (earlier writes : List Action) (entries : List Persistent),
    newEpoch.newConfig = config ∧ newEpoch.Checked nc changes ∧ before = earlier ++ writes ∧
    EchoEntries config entries ∧ Writes entries writes

/-- An action is, if it is an echo, one of a checked new epoch. -/
def SoundEcho (nc : NetworkConfig) (changes : GoMap NodeID EpochChangeAcks) (before : List Action)
    (action : Action) : Prop :=
  ∀ targets config, action = .send targets (.newEpochEcho config) → EchoedBy nc changes config before

/-- The invariant: what is fetched is checked, and so is what was echoed. -/
structure Sound (nc : NetworkConfig) (v : TargetView) (actions : List Action) : Prop where
  fetching : v.state = .fetching → ∃ newEpoch, v.leaderNewEpoch = some newEpoch ∧
    newEpoch.Checked nc v.changes
  echos : EachAfter (SoundEcho nc v.changes) actions

section Sound

variable {nc : NetworkConfig} {changes after : GoMap NodeID EpochChangeAcks} {actions : List Action}
  {v v' : TargetView} {actions more : List Action}

theorem SoundEcho.of_routine (routine : ∀ action ∈ actions, action.Routine) :
    ∀ action ∈ actions, ∀ before, SoundEcho nc changes before action := by
  rintro action member before targets config rfl
  rcases routine _ member with harmless | ⟨_, _, isWrite⟩
  · cases harmless
  · cases isWrite

theorem SoundEcho.grown {before : List Action} {action : Action}
    (sound : SoundEcho nc changes before action) (grown : Grown changes after) :
    SoundEcho nc after before action := by
  intro targets config isEcho
  obtain ⟨newEpoch, earlier, writes, entries, isConfig, checked, rest⟩ := sound targets config isEcho
  exact ⟨newEpoch, earlier, writes, entries, isConfig, checked.grown grown, rest⟩

theorem Sound.idle (sound : Sound nc v actions) (same : v'.changes = v.changes)
    (fetching : v'.state = .fetching → v.state = .fetching ∧ v'.leaderNewEpoch = v.leaderNewEpoch)
    (silent : ∀ action ∈ more, ∀ before, SoundEcho nc v.changes before action) :
    Sound nc v' (actions ++ more) := by
  refine ⟨fun isFetching => ?_, ?_⟩
  · obtain ⟨wasFetching, sameLeader⟩ := fetching isFetching
    rw [same, sameLeader]
    exact sound.fetching wasFetching
  · rw [same]
    exact sound.echos.append (.of_forall fun action member before => silent action member _)

theorem Sound.move (sound : Sound nc v actions)
    (move : TargetMove (keptSurroundings nc) v v' more) : Sound nc v' (actions ++ more) := by
  have nothing : ∀ action ∈ ([] : List Action), ∀ before, SoundEcho nc v.changes before action := by
    simp
  cases move with
  | write wrote => exact sound.idle rfl (fun same => ⟨same, rfl⟩) (SoundEcho.of_routine wrote.routine)
  | ack origin source msg digest =>
    have grown := grown_insert_addMsg nc v.changes origin source msg digest
    refine ⟨fun fetching => ?_, ?_⟩
    · obtain ⟨newEpoch, isLeader, checked⟩ := sound.fetching fetching
      exact ⟨newEpoch, isLeader, checked.grown grown⟩
    · rw [List.append_nil]
      exact sound.echos.mono fun before action isSound => isSound.grown grown
  | lead newEpoch given =>
    -- In the state `fetching` it is the new epoch that is already there.
    exact sound.idle rfl (fun fetching => ⟨fetching, (given fetching).symm⟩) nothing
  | wait state _ early =>
    refine sound.idle rfl (fun fetching => ?_) nothing
    rw [show state = .fetching from fetching] at early
    exact absurd early (lt_irrefl _)
  | verify newEpoch epochChanges order _ isLeader referenced constructed =>
    refine ⟨fun _ => ⟨newEpoch, isLeader, epochChanges, order, referenced, constructed⟩, ?_⟩
    rw [List.append_nil]
    exact sound.echos
  | echo newEpoch entries writes fetching isLeader isEcho isWrites =>
    refine ⟨fun impossible => ?_, sound.echos.append (.append
      (.of_forall fun action member before => SoundEcho.of_routine isWrites.routine action member _)
      (.single ?_))⟩
    · cases impossible
    · rintro targets config isSend
      obtain ⟨checkedEpoch, isChecked, checked⟩ := sound.fetching fetching
      rw [isLeader] at isChecked
      cases isChecked
      cases isSend
      exact ⟨newEpoch, actions, writes, entries, rfl, checked, by simp, isEcho, isWrites⟩
  | echoVote source config _ => exact sound.idle rfl (fun same => ⟨same, rfl⟩) nothing
  | readyVote source config _ _ => exact sound.idle rfl (fun same => ⟨same, rfl⟩) nothing
  | readyByEchos config writes _ _ isWrites =>
    refine sound.idle rfl (fun impossible => by cases impossible) ?_
    intro action member before
    rcases List.mem_append.mp member with write | send
    · exact SoundEcho.of_routine isWrites.routine action write before
    · rw [List.mem_singleton.mp send]
      rintro _ _ ⟨⟩
  | readyByReadies source config _ _ _ =>
    refine sound.idle rfl (fun impossible => by cases impossible) ?_
    intro action member before
    rw [List.mem_singleton.mp member]
    rintro _ _ ⟨⟩
  | accept config _ _ => exact sound.idle rfl (fun impossible => by cases impossible) nothing
  | resume _ => exact sound.idle rfl (fun impossible => by cases impossible) nothing
  | activate config _ _ => exact sound.idle rfl (fun same => ⟨same, rfl⟩) nothing
  | start _ => exact sound.idle rfl (fun impossible => by cases impossible) nothing
  | finish => exact sound.idle rfl (fun impossible => by cases impossible) nothing

/-- The invariant holds in every run; it does not depend on the shared components. -/
theorem TargetRun.sound {et : EpochTarget}
    (run : TargetRun nc NewEpochKept et actions) (sh : Shared) :
    Sound nc (EtState.view ⟨et, sh⟩) actions := by
  have given (et : EpochTarget) (call : TargetCall) (sh : Shared) (_ : et.networkConfig = nc)
      (kept : NewEpochKept et call) :
      call.Given (keptSurroundings nc) (EtState.view ⟨et, sh⟩) := by
    cases call <;> exact kept
  refine (run.invariant rfl given (Sound nc) ?_ ?_ fun _ _ _ _ sound move => sound.move move).2 sh
  · rintro number myConfig change leaders startingSeqNo state sh isState
    refine ⟨fun fetching => ?_, .nil⟩
    rcases isState with rfl | rfl <;> cases fetching
  · exact fun _ _ _ _ sound => ⟨sound.fetching, sound.echos⟩

end Sound

/-- **What a target echoes is verified**, and so is what it writes with the echo, in every run in
which the leader's new epoch is not replaced while it is fetched. -/
theorem echos_are_verified {nc : NetworkConfig} {et : EpochTarget} {actions before after : List Action}
    {targets : List NodeID} {config : NewEpochConfig} (run : TargetRun nc NewEpochKept et actions)
    (echoed : actions = before ++ .send targets (.newEpochEcho config) :: after) :
    ∃ (newEpoch : NewEpoch) (earlier writes : List Action) (entries : List Persistent),
      newEpoch.newConfig = config ∧ newEpoch.Verified nc et.changes ∧ before = earlier ++ writes ∧
      EchoEntries config entries ∧ Writes entries writes := by
  have sound := run.sound (.new et.myConfig .empty nc fun _ => .inOrder)
  obtain ⟨newEpoch, earlier, writes, entries, isConfig, checked, rest⟩ :=
    sound.echos _ _ _ echoed targets config rfl
  exact ⟨newEpoch, earlier, writes, entries, isConfig, checked.verified, rest⟩

/-! ### Three epoch changes -/

/-- Calls one after the other, with the components that the last one leaves. -/
def callAll (meets : EpochTarget → TargetCall → Bool) :
    List TargetCall → EtState → Option (EtState × List Action)
  | [], st => some (st, [])
  | call :: rest, st =>
    if meets st.et call then match call.run st with
      | .error _ => none
      | .ok (mid, actions, _) => (callAll meets rest mid).map fun result =>
          (result.1, actions ++ result.2)
    else none

theorem TargetRun.of_callAll
    {test : EpochTarget → TargetCall → Bool} (tested : ∀ et call, test et call = true → meets et call)
    {calls : List TargetCall} {st final : EtState} {actions more : List Action}
    (run : TargetRun nc meets st.et actions) (called : callAll test calls st = some (final, more)) :
    TargetRun nc meets final.et (actions ++ more) := by
  induction calls generalizing st actions more with
  | nil =>
    cases called
    rw [List.append_nil]
    exact run
  | cons call rest ih =>
    unfold callAll at called
    split at called
    · rename_i met
      split at called
      · cases called
      rename_i mid first _ ran
      obtain ⟨⟨last, later⟩, continued, isFinal⟩ := Option.map_eq_some_iff.mp called
      cases isFinal
      rw [← List.append_assoc]
      exact ih (.call call st.sh mid.sh run (tested _ _ met) ran) continued
    · cases called

/-- The condition, as a test. -/
def newEpochKept (et : EpochTarget) : TargetCall → Bool
  | .newEpoch msg => et.state ≠ .fetching ∨ et.leaderNewEpoch = some msg
  | _ => true

theorem newEpochKept_sound (et : EpochTarget) (call : TargetCall) (kept : newEpochKept et call = true) :
    NewEpochKept et call := by
  cases call with
  | newEpoch msg =>
    intro fetching
    simpa [newEpochKept, fetching] using kept
  | _ => trivial

namespace ThreeChanges

/-- The checkpoint that the network starts from. -/
def genesis : Checkpoint := ⟨0, [9]⟩

/-- An epoch change to epoch two. -/
def changeWith (batches : List SetEntry) : EpochChange := ⟨2, [genesis], batches, batches⟩

open FourNodes (networkConfig networkState parameters)

/-- The log of a node that has been in epoch one and asks for epoch two. -/
def changedLog : Persisted where
  nextIndex := 6
  log := [⟨1, .cEntry ⟨0, genesis.value, networkState⟩⟩, ⟨2, .fEntry ⟨0, [], 0⟩⟩,
    ⟨3, .ecEntry 1⟩, ⟨4, .nEntry ⟨1, ⟨1, [0, 1, 2, 3], 20⟩⟩⟩, ⟨5, .ecEntry 2⟩]

/-- The components of node zero, which has committed nothing yet. -/
def shared : Shared :=
  let sh := Shared.new (parameters 0) changedLog networkConfig fun _ => .inOrder
  { sh with commitState := { sh.commitState with stopAtSeqNo := 10 } }

/-- The target of node zero for epoch two, whose leader is node two. -/
def target : EpochTarget :=
  { new 2 networkConfig (parameters 0) with
    myEpochChange := some ⟨changeWith [], fun _ => none, fun _ => [], 0, ∅⟩, myLeaderChoice := [0] }

/-- The nodes one, two and three ask for epoch two, and acknowledge each other. The digest of a
change is the number of its originator here. -/
def acks (batches : List SetEntry) : List TargetCall :=
  [1, 2, 3].flatMap fun origin => [1, 2, 3].map fun source =>
    .epochChangeDigest source origin (changeWith batches) [UInt8.ofNat origin]

/-- The leader's new epoch for the three changes. -/
def newEpochWith (finalPreprepares : List Bytes) : NewEpoch where
  newConfig := ⟨⟨2, [2], 20⟩, genesis, finalPreprepares⟩
  epochChanges := [⟨1, [1]⟩, ⟨2, [2]⟩, ⟨3, [3]⟩]

theorem target_run (meets : EpochTarget → TargetCall → Prop) :
    TargetRun networkConfig meets target [] :=
  .change 2 (parameters 0) ⟨changeWith [], fun _ => none, fun _ => [], 0, ∅⟩ [0]

/-- Without batches the leader's new epoch is echoed at once. -/
theorem empty_new_epoch_is_echoed : ∃ et actions before after,
    TargetRun networkConfig NewEpochKept et actions ∧
    actions = before ++ .send [0, 1, 2, 3] (.newEpochEcho (newEpochWith []).newConfig) :: after ∧
    ∃ (newEpoch : NewEpoch) (earlier writes : List Action) (entries : List Persistent),
      newEpoch.newConfig = (newEpochWith []).newConfig ∧
      newEpoch.Verified networkConfig et.changes ∧ before = earlier ++ writes ∧
      EchoEntries (newEpochWith []).newConfig entries ∧ Writes entries writes := by
  have called : ∃ result, callAll newEpochKept (acks [] ++ [.newEpoch (newEpochWith [])]) ⟨target, shared⟩ =
      some result ∧ .send [0, 1, 2, 3] (.newEpochEcho (newEpochWith []).newConfig) ∈ result.2 := by
    decide +kernel
  obtain ⟨⟨st, actions⟩, isResult, member⟩ := called
  have run := TargetRun.of_callAll newEpochKept_sound (target_run _) isResult
  obtain ⟨before, after, split⟩ := List.append_of_mem member
  exact ⟨st.et, actions, before, after, run, split, echos_are_verified run split⟩

/-- A new epoch that no epoch change leads to: it drops the batch, and expires before it starts. -/
def droppingEpoch : NewEpoch where
  newConfig := ⟨⟨2, [2], 0⟩, genesis, []⟩
  epochChanges := []

/-- Three nodes have prepared the batch `5` with sequence number one, which node zero has not
got. -/
def replacingCalls : List TargetCall :=
  acks [⟨1, 1, [5]⟩] ++
    [.newEpoch (newEpochWith ([5] :: List.replicate 9 [])), .newEpoch droppingEpoch]

/-- **A new epoch that comes while the batches of another one are fetched is echoed**, though it is
not verified. -/
theorem replaced_new_epoch_is_echoed : ∃ et actions before after,
    TargetRun networkConfig (fun _ _ => True) et actions ∧
    actions = before ++ .send [0, 1, 2, 3] (.newEpochEcho droppingEpoch.newConfig) :: after ∧
    ¬ ∃ newEpoch : NewEpoch, newEpoch.newConfig = droppingEpoch.newConfig ∧
      newEpoch.Verified networkConfig et.changes := by
  have called : ∃ result, callAll (fun _ _ => true) replacingCalls ⟨target, shared⟩ = some result ∧
      .send [0, 1, 2, 3] (.newEpochEcho droppingEpoch.newConfig) ∈ result.2 := by
    decide +kernel
  obtain ⟨⟨st, actions⟩, isResult, member⟩ := called
  have run := TargetRun.of_callAll (fun _ _ _ => trivial) (target_run _) isResult
  obtain ⟨before, after, split⟩ := List.append_of_mem member
  refine ⟨st.et, actions, before, after, run, split, ?_⟩
  rintro ⟨newEpoch, isConfig, _, _, _, constructed⟩
  obtain ⟨_, _, _, _, expires⟩ := ViewChange.constructNewEpochConfig_eq_some constructed
  rw [isConfig] at expires
  revert expires
  decide

end ThreeChanges

end MirBft
