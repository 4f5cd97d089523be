/-
**What an accepted new epoch starts with.**

A node accepts the new epoch of a leader if the configuration is the one that the epoch changes lead
to. The leaders are taken from the message itself, and the planned expiration is a sum of 64 bits.

* `bucket_assignment_iff`: the epoch assigns every bucket to a leader that is a node exactly if the
  leaders that the buckets of other nodes fall to are nodes (`Overflows`). With an empty list of
  leaders it panics;
* `expiration_ahead_iff`: the epoch expires after the sequences it starts with exactly if the sum
  does not wrap around. If it does, the first `advance` panics.
-/

import MirBft.Proof.EpochRuns
import MirBft.Proof.VerifiedEchos

namespace MirBft

open List ActiveEpoch

/-! ### Buckets -/

namespace ActiveEpoch

/-- The node whose turn it is to lead a bucket. -/
def rotation (epochConfig : EpochConfig) (nodes : List NodeID) (bucket : Nat) : Option NodeID :=
  nodes[(bucket + epochConfig.number) % 2 ^ 64 % nodes.length]?

/-- The node is not a leader, and the bucket falls to the next of the leaders. -/
def Overflows (epochConfig : EpochConfig) (nodes : List NodeID) (bucket : Nat) : Bool :=
  !(rotation epochConfig nodes bucket).any (· ∈ epochConfig.leaders)

/-- **A total assignment**: every bucket has an owner that is a node and a leader, and a leader has
the buckets whose turn is its own. -/
structure Assignment (epochConfig : EpochConfig) (networkConfig : NetworkConfig)
    (buckets : List NodeID) : Prop where
  count : buckets.length = networkConfig.numberOfBuckets
  owners : ∀ owner ∈ buckets, owner ∈ networkConfig.nodes ∧ owner ∈ epochConfig.leaders
  turns : ∀ bucket leader, bucket < networkConfig.numberOfBuckets →
    rotation epochConfig networkConfig.nodes bucket = some leader → leader ∈ epochConfig.leaders →
    buckets[bucket]? = some leader

variable {epochConfig : EpochConfig} {nodes : List NodeID}

theorem overflows_of_some {bucket : Nat} {leader : NodeID}
    (turn : rotation epochConfig nodes bucket = some leader) :
    Overflows epochConfig nodes bucket = true ↔ leader ∉ epochConfig.leaders := by
  simp [Overflows, turn]

/-- The loop over the buckets: a bucket that overflows takes the next leader. -/
theorem assignBuckets_iff (buckets : List Nat) (overflowIndex : Nat) :
    (∃ owners, assignBuckets epochConfig nodes overflowIndex buckets = .ok owners ∧
      ∀ owner ∈ owners, owner ∈ nodes ∧ owner ∈ epochConfig.leaders) ↔
    ∀ index < buckets.countP (Overflows epochConfig nodes), ∃ leader ∈ nodes,
      epochConfig.leaders[(overflowIndex + index) % epochConfig.leaders.length]? = some leader := by
  induction buckets generalizing overflowIndex with
  | nil => exact iff_of_true ⟨[], rfl, by simp⟩ fun _ below => absurd below (Nat.not_lt_zero _)
  | cons bucket rest ih =>
    unfold assignBuckets
    cases turn : nodes[(bucket + epochConfig.number) % 2 ^ 64 % nodes.length]? with
    | none =>
      -- There is no node, and so none for the bucket.
      have isEmpty : nodes = [] := by
        rw [List.getElem?_eq_none_iff] at turn
        by_contra nonempty
        exact absurd (Nat.mod_lt _ (length_pos_iff.mpr nonempty)) (Nat.not_lt.mpr turn)
      refine iff_of_false (by rintro ⟨_, ⟨⟩, _⟩) fun all => ?_
      have overflows : Overflows epochConfig nodes bucket = true := by simp [Overflows, rotation, isEmpty]
      obtain ⟨leader, member, _⟩ := all 0 (by rw [countP_cons_of_pos overflows]; exact Nat.succ_pos _)
      rw [isEmpty] at member
      exact absurd member not_mem_nil
    | some leader =>
      have isNode : leader ∈ nodes := mem_of_getElem? turn
      by_cases leads : leader ∈ epochConfig.leaders
      · have stays : ¬ Overflows epochConfig nodes bucket = true := fun overflows =>
          (overflows_of_some turn).mp overflows leads
        rw [countP_cons_of_neg stays, ← ih overflowIndex]
        simp only [if_pos leads]
        constructor
        · rintro ⟨owners, assigned, all⟩
          obtain ⟨later, isLater, isOwners⟩ := bind_eq_ok.mp assigned
          rw [pure_eq_ok] at isOwners
          exact ⟨later, isLater, fun owner member => all owner (isOwners ▸ mem_cons_of_mem _ member)⟩
        · rintro ⟨owners, assigned, all⟩
          refine ⟨leader :: owners, bind_eq_ok.mpr ⟨owners, assigned, rfl⟩, fun owner member => ?_⟩
          rcases mem_cons.mp member with isFirst | isLater
          · exact isFirst ▸ ⟨isNode, leads⟩
          · exact all owner isLater
      · have overflows : Overflows epochConfig nodes bucket = true := (overflows_of_some turn).mpr leads
        have rounds : (∀ index < (bucket :: rest).countP (Overflows epochConfig nodes), ∃ leader ∈ nodes,
            epochConfig.leaders[(overflowIndex + index) % epochConfig.leaders.length]? = some leader) ↔
            (∃ leader ∈ nodes, epochConfig.leaders[overflowIndex % epochConfig.leaders.length]? =
            some leader) ∧ ∀ index < rest.countP (Overflows epochConfig nodes), ∃ leader ∈ nodes,
              epochConfig.leaders[(overflowIndex + 1 + index) % epochConfig.leaders.length]? =
              some leader := by
          rw [countP_cons_of_pos overflows, Nat.forall_lt_succ_left]
          simp only [Nat.add_zero, Nat.add_assoc, Nat.add_comm 1]
        rw [rounds, ← ih (overflowIndex + 1)]
        simp only [if_neg leads]
        cases next : epochConfig.leaders[overflowIndex % epochConfig.leaders.length]? with
        | none => exact iff_of_false (by rintro ⟨_, ⟨⟩, _⟩) (by rintro ⟨⟨_, _, ⟨⟩⟩, _⟩)
        | some overflow =>
          constructor
          · rintro ⟨owners, assigned, all⟩
            obtain ⟨later, isLater, isOwners⟩ := bind_eq_ok.mp assigned
            rw [pure_eq_ok] at isOwners
            subst isOwners
            exact ⟨⟨overflow, (all overflow mem_cons_self).1, rfl⟩, later, isLater,
              fun owner member => all owner (mem_cons_of_mem _ member)⟩
          · rintro ⟨⟨leader, isOverflow, same⟩, owners, assigned, all⟩
            cases same
            refine ⟨overflow :: owners, bind_eq_ok.mpr ⟨owners, assigned, rfl⟩, fun owner member => ?_⟩
            rcases mem_cons.mp member with isFirst | isLater
            · exact isFirst ▸ ⟨isOverflow, mem_of_getElem? next⟩
            · exact all owner isLater

theorem assignBuckets_turn {buckets : List Nat} {overflowIndex : Nat} {owners : List NodeID}
    (assigned : assignBuckets epochConfig nodes overflowIndex buckets = .ok owners)
    {index bucket : Nat} {leader : NodeID}
    (isBucket : buckets[index]? = some bucket) (turn : rotation epochConfig nodes bucket = some leader)
    (leads : leader ∈ epochConfig.leaders) : owners[index]? = some leader := by
  induction buckets generalizing overflowIndex owners index with
  | nil => cases isBucket
  | cons first rest ih =>
    unfold assignBuckets at assigned
    split at assigned
    · cases assigned
    rename_i firstLeader firstTurn
    split at assigned
    · obtain ⟨later, isLater, isOwners⟩ := bind_eq_ok.mp assigned
      rw [pure_eq_ok] at isOwners
      subst isOwners
      cases index with
      | zero =>
        cases isBucket
        exact firstTurn.symm.trans turn
      | succ index => exact ih isLater isBucket
    · split at assigned
      · cases assigned
      rename_i follows _ _ _
      obtain ⟨later, isLater, isOwners⟩ := bind_eq_ok.mp assigned
      rw [pure_eq_ok] at isOwners
      subst isOwners
      cases index with
      | zero =>
        cases isBucket
        obtain rfl := Option.some.inj (firstTurn.symm.trans turn)
        exact absurd leads follows
      | succ index => exact ih isLater isBucket

theorem new_eq_ok_iff {sh : Shared} {buckets : List NodeID} :
    (∃ shared actions ae, ActiveEpoch.new epochConfig sh = .ok (shared, actions, ae) ∧ ae.buckets = buckets) ↔
      assignBuckets epochConfig sh.commitState.activeState.config.nodes 0
        (List.range sh.commitState.activeState.config.numberOfBuckets) = .ok buckets := by
  have made {shared : Shared} {actions : List Action} {ae : ActiveEpoch}
      (created : ActiveEpoch.new epochConfig sh = .ok (shared, actions, ae)) :=
    (@wp_new_fresh (fun _ _ => False) epochConfig sh shared actions ae created).buckets
  constructor
  · intro ⟨shared, actions, ae, created, same⟩
    exact same ▸ made created
  · intro assigned
    have isOk := new_isOk_of_assigned assigned
    exact ⟨_, _, _, eq_ok_okValue _ isOk, Except.ok.inj ((made (eq_ok_okValue _ isOk)).symm.trans assigned)⟩

/-- **A new epoch assigns its buckets** to leaders that are nodes if and only if the leaders that
buckets fall to, when the node whose turn it is does not lead, are there and are nodes. -/
theorem bucket_assignment_iff (epochConfig : EpochConfig) (sh : Shared) :
    (∃ shared actions ae, ActiveEpoch.new epochConfig sh = .ok (shared, actions, ae) ∧
      Assignment epochConfig sh.commitState.activeState.config ae.buckets) ↔
    ∀ index < (List.range sh.commitState.activeState.config.numberOfBuckets).countP
        (Overflows epochConfig sh.commitState.activeState.config.nodes),
      ∃ leader ∈ sh.commitState.activeState.config.nodes,
        epochConfig.leaders[index % epochConfig.leaders.length]? = some leader := by
  have loop := @assignBuckets_iff epochConfig sh.commitState.activeState.config.nodes
    (List.range sh.commitState.activeState.config.numberOfBuckets) 0
  simp only [Nat.zero_add] at loop
  rw [← loop]
  constructor
  · intro ⟨shared, actions, ae, created, assignment⟩
    exact ⟨ae.buckets, new_eq_ok_iff.mp ⟨shared, actions, ae, created, rfl⟩, assignment.owners⟩
  · rintro ⟨owners, assigned, all⟩
    obtain ⟨shared, actions, ae, created, rfl⟩ := new_eq_ok_iff.mpr assigned
    refine ⟨shared, actions, ae, created, ?_, all, fun bucket leader below turn leads => ?_⟩
    · rw [length_assignBuckets assigned, length_range]
    · exact assignBuckets_turn assigned (List.getElem?_range below) turn leads

end ActiveEpoch

/-! ### Expiration -/

/-- **The lengths of an epoch that a network may have**: a number of whole intervals, more than two,
or the greatest number of 64 bits, for epochs that do not end by themselves. -/
def NetworkConfig.Admissible (nc : NetworkConfig) : Prop :=
  2 * nc.checkpointInterval < nc.maxEpochLength ∧ nc.maxEpochLength < 2 ^ 64 ∧
    (nc.checkpointInterval ∣ nc.maxEpochLength ∨ nc.maxEpochLength = 2 ^ 64 - 1)

section Expiration

variable {iter : MapIter} {nc : NetworkConfig} {leaders : List NodeID}
  {epochChanges : GoMap NodeID ParsedEpochChange} {config : NewEpochConfig}

theorem length_selectEntries {start : Nat} {offsets : List Nat} {entries : List (Option SetEntry)}
    (selected : selectEntries nc epochChanges start offsets = some entries) :
    entries.length = offsets.length := by
  induction offsets generalizing entries with
  | nil =>
    cases selected
    rfl
  | cons offset rest ih =>
    unfold selectEntries at selected
    dsimp only at selected
    split at selected
    · obtain ⟨later, isLater, rfl⟩ := Option.map_eq_some_iff.mp selected
      exact congrArg (· + 1) (ih isLater)
    · split at selected
      · cases selected
      obtain ⟨later, isLater, rfl⟩ := Option.map_eq_some_iff.mp selected
      exact congrArg (· + 1) (ih isLater)

/-- A new epoch has two intervals of final preprepares at most. -/
theorem length_finalPreprepares_le
    (constructed : constructNewEpochConfig iter nc leaders epochChanges = .ok (some config)) :
    config.finalPreprepares.length ≤ 2 * nc.checkpointInterval := by
  obtain ⟨entries, _, selected, isFinal, _⟩ := ViewChange.constructNewEpochConfig_eq_some constructed
  have length := length_selectEntries selected
  rw [length_range] at length
  rw [isFinal]
  split
  · rw [length_map, length]
  · exact Nat.zero_le _

/-- What the node has when the epoch starts: it has committed what the epoch starts with, and there
is room for more. -/
structure ResumesAt (nc : NetworkConfig) (seqNo : Nat) (sh : Shared) : Prop where
  networkConfig : sh.commitState.activeState.config = nc
  lowWatermark : sh.commitState.lowWatermark = seqNo
  room : seqNo < sh.commitState.stopAtSeqNo

/-- **An epoch expires after what it starts with** if and only if the sum of its starting checkpoint
and its length has 64 bits. Then its first `advance` passes the assertions on the watermarks, and if
it returns there is an interval; if not, it panics. -/
theorem expiration_ahead_iff (interval : 0 < nc.checkpointInterval) (admissible : nc.Admissible)
    (constructed : constructNewEpochConfig iter nc leaders epochChanges = .ok (some config)) :
    (config.startingCheckpoint.seqNo + config.finalPreprepares.length ≤ config.config.plannedExpiration ↔
      config.startingCheckpoint.seqNo + nc.maxEpochLength < 2 ^ 64) ∧
    ∀ sh shared created ae,
      ResumesAt nc (config.startingCheckpoint.seqNo + config.finalPreprepares.length) sh →
      ActiveEpoch.new config.config sh = .ok (shared, created, ae) →
      (config.startingCheckpoint.seqNo + nc.maxEpochLength < 2 ^ 64 →
        (∃ high, AeState.highWatermark ⟨ae, shared⟩ = .ok high ∧ high ≤ ae.epochConfig.plannedExpiration ∧
          high ≤ shared.commitState.stopAtSeqNo) ∧
        ∀ st actions, ActiveEpoch.advance ⟨ae, shared⟩ = .ok (st, actions, ()) → st.ae.sequences ≠ []) ∧
      (¬ config.startingCheckpoint.seqNo + nc.maxEpochLength < 2 ^ 64 →
        ActiveEpoch.advance ⟨ae, shared⟩ =
          .error "high watermark should never extend beyond the planned epoch expiration") := by
  obtain ⟨_, _, _, _, expires⟩ := ViewChange.constructNewEpochConfig_eq_some constructed
  have few := length_finalPreprepares_le constructed
  obtain ⟨long, word, _⟩ := admissible
  have ahead : config.startingCheckpoint.seqNo + nc.maxEpochLength < 2 ^ 64 →
      config.startingCheckpoint.seqNo + config.finalPreprepares.length < config.config.plannedExpiration := by
    intro fits
    omega
  have behind : ¬ config.startingCheckpoint.seqNo + nc.maxEpochLength < 2 ^ 64 →
      config.config.plannedExpiration < config.startingCheckpoint.seqNo := by
    intro wraps
    rw [expires, Nat.mod_eq_sub_mod (Nat.le_of_not_lt wraps)]
    exact (Nat.mod_le _ _).trans_lt (by omega)
  refine ⟨⟨fun isAhead => ?_, fun fits => (ahead fits).le⟩, fun sh shared created ae resumes made => ?_⟩
  · by_contra wraps
    omega
  have fresh : ActiveEpoch.Fresh (fun _ _ => False) config.config sh shared created ae :=
    wp_new_fresh config.config sh shared created ae made
  have isHigh : AeState.highWatermark ⟨ae, shared⟩ =
      .ok (config.startingCheckpoint.seqNo + config.finalPreprepares.length) := by
    unfold AeState.highWatermark
    rw [fresh.sequences]
    exact congrArg Except.ok ((congrArg CommitState.lowWatermark fresh.commitState).trans
      resumes.lowWatermark)
  have stops : config.startingCheckpoint.seqNo + config.finalPreprepares.length <
    shared.commitState.stopAtSeqNo := by
    rw [fresh.commitState]
    exact resumes.room
  refine ⟨fun fits => ⟨⟨_, isHigh, ?_, stops.le⟩, fun st actions ran empty => ?_⟩, fun wraps => ?_⟩
  · rw [fresh.epochConfig]
    exact (ahead fits).le
  · -- A full window reaches a limit, and an empty one would end before both.
    obtain ⟨steps, isFull⟩ := (does_advance ⟨ae, shared⟩ fresh.aligned).2 _ _ _ ran
    have full := isFull (by
      rw [ActiveEpoch.interval, fresh.networkConfig, resumes.networkConfig]
      exact interval)
    obtain ⟨frame, low, stop⟩ := EpochStep.limits steps
    refine full (config.startingCheckpoint.seqNo + config.finalPreprepares.length) ?_ ⟨?_, ?_⟩
    · unfold AeState.highWatermark
      rw [empty]
      rw [low]
      exact congrArg Except.ok ((congrArg CommitState.lowWatermark fresh.commitState).trans
        resumes.lowWatermark)
    · rw [frame.epochConfig]
      rw [fresh.epochConfig]
      exact ahead fits
    · rw [stop]
      exact stops
  · have beyond : ae.epochConfig.plannedExpiration <
        config.startingCheckpoint.seqNo + config.finalPreprepares.length := by
      rw [fresh.epochConfig]
      omega
    unfold ActiveEpoch.advance
    simp only [bind, Proc.get, isHigh, Proc.lift, if_pos beyond]
    rfl

end Expiration

/-! ### Two new epochs -/

namespace StartedEpoch

/-- An epoch change to epoch two of a node that has prepared nothing after its checkpoint. -/
def changeAt (checkpoint : Checkpoint) : EpochChange := ⟨2, [checkpoint], [], []⟩

/-- The components of node zero, which has committed the checkpoint and nothing after it. -/
def shared (nc : NetworkConfig) (seqNo : Nat) : Shared :=
  let sh := Shared.new (FourNodes.parameters 0) ThreeChanges.changedLog nc fun _ => .inOrder
  { sh with commitState := { sh.commitState with
      lowWatermark := seqNo, lastAppliedCommit := seqNo, highestCommit := seqNo, stopAtSeqNo := seqNo + 10 } }

/-- The target of node zero for epoch two. -/
def target (nc : NetworkConfig) (checkpoint : Checkpoint) : EpochTarget :=
  { EpochTarget.new 2 nc (FourNodes.parameters 0) with
    myEpochChange := some ⟨changeAt checkpoint, fun _ => none, fun _ => [], checkpoint.seqNo, ∅⟩,
      myLeaderChoice := [0] }

/-- The new epoch of the leader, for the changes of the nodes one, two and three. -/
def newEpoch (config : EpochConfig) (checkpoint : Checkpoint) : NewEpoch where
  newConfig := ⟨config, checkpoint, []⟩
  epochChanges := [⟨1, [1]⟩, ⟨2, [2]⟩, ⟨3, [3]⟩]

/-- The changes are acknowledged, the new epoch comes, three nodes echo it and two are ready. -/
def calls (config : EpochConfig) (checkpoint : Checkpoint) : List TargetCall :=
  ([1, 2, 3].flatMap fun origin => [1, 2, 3].map fun source =>
      .epochChangeDigest source origin (changeAt checkpoint) [UInt8.ofNat origin]) ++
    .newEpoch (newEpoch config checkpoint) ::
    ([0, 1, 2].map fun id => .newEpochEcho id (newEpoch config checkpoint).newConfig) ++
    [0, 1].map fun id => .newEpochReady id (newEpoch config checkpoint).newConfig

/-- The third node is ready, and the epoch starts with a panic; the new epoch has been verified and
echoed. -/
theorem run_of_panics {nc : NetworkConfig} {config : EpochConfig} {checkpoint : Checkpoint} {failure : String}
    (evaluated : ∃ result, callAll newEpochKept (calls config checkpoint)
        ⟨target nc checkpoint, shared nc checkpoint.seqNo⟩ = some result ∧
      .send [0, 1, 2, 3] (.newEpochEcho (newEpoch config checkpoint).newConfig) ∈ result.2 ∧
      (TargetCall.newEpochReady 2 (newEpoch config checkpoint).newConfig).run result.1 = .error failure) :
    ∃ st actions,
      TargetRun nc NewEpochKept st.et actions ∧
      (∃ accepted : NewEpoch, accepted.newConfig = (newEpoch config checkpoint).newConfig ∧
        accepted.Verified nc st.et.changes) ∧
      (TargetCall.newEpochReady 2 (newEpoch config checkpoint).newConfig).run st = .error failure := by
  obtain ⟨⟨st, actions⟩, called, echoed, failed⟩ := evaluated
  have start : TargetRun nc NewEpochKept (target nc checkpoint) [] :=
    .change 2 (FourNodes.parameters 0) ⟨changeAt checkpoint, fun _ => none, fun _ => [],
    checkpoint.seqNo, ∅⟩ [0]
  have run := TargetRun.of_callAll newEpochKept_sound start called
  obtain ⟨before, after, split⟩ := append_of_mem echoed
  have sound := run.sound (shared nc checkpoint.seqNo)
  obtain ⟨accepted, _, _, _, isConfig, checked, _⟩ := sound.echos _ _ _ split [0, 1, 2, 3] _ rfl
  exact ⟨st, actions, run, ⟨accepted, isConfig, checked.verified⟩, failed⟩

/-- **A new epoch without leaders is accepted, and panics**: a faulty leader sends it. -/
theorem leaderless_epoch_panics : ∃ st actions,
    TargetRun FourNodes.networkConfig NewEpochKept st.et actions ∧
    (∃ accepted : NewEpoch, accepted.newConfig = (newEpoch ⟨2, [], 20⟩ ⟨0, [9]⟩).newConfig ∧
      accepted.Verified FourNodes.networkConfig st.et.changes) ∧
    (TargetCall.newEpochReady 2 (newEpoch ⟨2, [], 20⟩ ⟨0, [9]⟩).newConfig).run st =
      .error "integer divide by zero: no leaders" :=
  run_of_panics (by decide +kernel)

/-- The changes of three nodes at a checkpoint. -/
def changesAt (checkpoint : Checkpoint) : GoMap NodeID ParsedEpochChange :=
  [1, 2, 3].foldl (fun table id =>
    table.insert id ⟨changeAt checkpoint, fun _ => none, fun _ => [], checkpoint.seqNo, ∅⟩) ∅

/-- An epoch of the four nodes that starts after the second checkpoint. -/
theorem expiration_ahead_four :
    constructNewEpochConfig .inOrder FourNodes.networkConfig [2] (changesAt ⟨5, [9]⟩) =
      .ok (some (newEpoch ⟨2, [2], 25⟩ ⟨5, [9]⟩).newConfig) ∧
      (5 + 0 ≤ 25 ↔ 5 + FourNodes.networkConfig.maxEpochLength < 2 ^ 64) := by
  have constructed : constructNewEpochConfig .inOrder FourNodes.networkConfig [2] (changesAt ⟨5, [9]⟩) =
      .ok (some (newEpoch ⟨2, [2], 25⟩ ⟨5, [9]⟩).newConfig) := rfl
  have admissible : FourNodes.networkConfig.Admissible := ⟨by decide, by decide, .inl (by decide)⟩
  exact ⟨constructed, (expiration_ahead_iff (by decide) admissible constructed).1⟩

/-- The four nodes, with epochs that do not end by themselves. -/
def endless : NetworkConfig := { FourNodes.networkConfig with maxEpochLength := 2 ^ 64 - 1 }

/-- **An endless epoch that starts after the first one is accepted, and panics**: it expires before
its starting checkpoint. -/
theorem endless_epoch_panics : ∃ st actions,
    TargetRun endless NewEpochKept st.et actions ∧
    (∃ accepted : NewEpoch, accepted.newConfig = (newEpoch ⟨2, [2], 4⟩ ⟨5, [9]⟩).newConfig ∧
      accepted.Verified endless st.et.changes) ∧
    (TargetCall.newEpochReady 2 (newEpoch ⟨2, [2], 4⟩ ⟨5, [9]⟩).newConfig).run st =
      .error "high watermark should never extend beyond the planned epoch expiration" :=
  run_of_panics (by decide +kernel)

end StartedEpoch

end MirBft
