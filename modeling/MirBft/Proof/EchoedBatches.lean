/-
**The batches of a new epoch that is echoed.**

`fetchNewEpochState` looks for the batches of the final preprepares above the highest commit, and
goes on to log all of them.

* `wp_fetchPreprepares_found`: the first loop ends with nothing pending only if it has found its
  batches;
* `echoed_batches_found_iff`: **every batch is there when the target moves to `etEchoing`**, and the
  log gets its requests, if and only if the batches up to the highest commit are tracked;
* `MachineRun.stays_tracked`: in every run, nothing but the cut at a checkpoint more than an
  interval above its sequence forgets a batch, and `wp_reinitialize_tracks`: a start from the log
  tracks the batches of its Q-entries;
* `transferred_batch_missed`: a node that a state transfer has brought to its highest commit lacks a
  batch.
-/

import MirBft.Proof.MachineSafety
import MirBft.Proof.VerifiedEchos

namespace MirBft

open Proc

/-- What the second loop panics with. -/
def missingBatch : String := "dev sanity check -- batch was just found above, not is now missing"

/-- The requests of the batch with the digest, if it is tracked. -/
def EtState.requestsOf (st : EtState) (digest : Bytes) : Option (List RequestAck) :=
  (st.sh.batchTracker.getBatch digest).map Batch.requestAcks

/-- The same batches are tracked, and nothing was committed. -/
def SameBatches : Effect EtState Action where
  rel before after _ := after.requestsOf = before.requestsOf ∧
    after.sh.commitState.highestCommit = before.sh.commitState.highestCommit
  refl _ := ⟨rfl, rfl⟩
  trans first second := ⟨second.1.trans first.1, second.2.trans first.2⟩

/-- The Q-entries that are written carry the requests of their batches. -/
def Carries (requests : Bytes → Option (List RequestAck)) (actions : List Action) : Prop :=
  ∀ index qEntry, .appendWriteAhead index (.qEntry qEntry) ∈ actions → qEntry.digest ≠ [] →
    requests qEntry.digest = some qEntry.requests

namespace EpochTarget

variable {st mid : EtState} {newEpoch : NewEpoch} {sent : List Action}
  {requests : Bytes → Option (List RequestAck)}

/-! ### The first loop -/

theorem sameBatches_onClients {α : Type} (method : GoProc Clients α) :
    Has SameBatches (onShared (Shared.onClients method)) := by
  intro st
  rw [onShared, wp_zoom, Shared.onClients, wp_zoom]
  exact fun _ _ _ _ => ⟨rfl, rfl⟩

theorem sameBatches_ackSources (requestAck : RequestAck) (sources : List NodeID) (cr : Option ClientRequest) :
    Has SameBatches (ackSources requestAck sources cr) := by
  induction sources generalizing cr with
  | nil => exact has_pure _
  | cons id rest ih => exact has_bind (sameBatches_onClients _) fun _ => ih _

theorem wp_fetchRequests_pending (sources : List NodeID) (fetchPending : Bool) (requests : List RequestAck)
    (st : EtState) : wp (fetchRequests sources fetchPending requests) st fun final sent pending =>
      SameBatches.rel st final sent ∧ (pending = false → fetchPending = false) := by
  induction requests generalizing fetchPending st with
  | nil =>
    rw [fetchRequests, wp_pure]
    exact ⟨⟨rfl, rfl⟩, id⟩
  | cons requestAck rest ih =>
    rw [fetchRequests, wp_bind]
    refine wp_mono (sameBatches_ackSources requestAck sources none st) fun mid _ found same => ?_
    cases found with
    | none => exact wp_fail _ _ _
    | some cr =>
      dsimp only
      split
      · exact wp_mono (ih fetchPending mid) fun _ _ _ later => ⟨SameBatches.trans same later.1, later.2⟩
      · rw [wp_bind]
        refine wp_mono (sameBatches_onClients _ mid) fun next _ _ still => ?_
        refine wp_mono (ih true next) fun _ _ _ later =>
          ⟨SameBatches.trans (SameBatches.trans same still) later.1, ?_⟩
        exact fun isFalse => Bool.noConfusion (later.2 isFalse)

theorem requestsOf_observe (bt : BatchTracker) (digest other : Bytes) (seqNo : Nat) :
    ((bt.observe digest seqNo).getBatch other).map Batch.requestAcks =
    (bt.getBatch other).map Batch.requestAcks := by
  unfold BatchTracker.observe
  split
  · rfl
  rename_i batch found
  unfold BatchTracker.getBatch at found ⊢
  by_cases same : other = digest
  · rw [same, AList.lookup_insert, found]
    rfl
  · rw [AList.lookup_insert_ne same]

theorem wp_fetchPreprepare_found (seqNo : Nat) (digest : Bytes) (fetchPending : Bool) (st : EtState) :
    wp (fetchPreprepare newEpoch seqNo digest fetchPending) st fun final sent pending =>
    SameBatches.rel st final sent ∧
      (pending = false → fetchPending = false ∧ (st.requestsOf digest).isSome) := by
  refine wp_get_bind (wp_lift_bind fun sources _ => ?_)
  split
  · exact wp_fail _ _ _
  split
  · simp only [wp_bind, onShared, wp_zoom, wp_modify, wp_emit, wp_pure]
    refine ⟨⟨funext fun other => ?_, rfl⟩, fun isFalse => Bool.noConfusion isFalse⟩
    unfold EtState.requestsOf BatchTracker.fetchBatch
    dsimp only
    split <;> rfl
  · rename_i batch found
    rw [wp_bind, onShared, wp_zoom, wp_modify]
    refine wp_mono (wp_fetchRequests_pending sources fetchPending batch.requestAcks _)
      fun final _ pending later => ?_
    refine ⟨⟨later.1.1.trans (funext fun other => requestsOf_observe _ _ other _), later.1.2⟩, fun isFalse =>
      ⟨later.2 isFalse, ?_⟩⟩
    rw [EtState.requestsOf, found]
    rfl

/-- **The first loop** has found the batches that are not committed yet, if nothing is pending. -/
theorem wp_fetchPreprepares_found (seqNo : Nat) (fetchPending : Bool) (digests : List Bytes) (st : EtState) :
    wp (fetchPreprepares newEpoch seqNo fetchPending digests) st fun final sent pending =>
      SameBatches.rel st final sent ∧ (pending = false → fetchPending = false ∧
        ∀ batch ∈ numbered seqNo digests, batch.2 ≠ [] → st.sh.commitState.highestCommit < batch.1 →
          (st.requestsOf batch.2).isSome) := by
  induction digests generalizing seqNo fetchPending st with
  | nil =>
    rw [fetchPreprepares, wp_pure]
    exact ⟨⟨rfl, rfl⟩, fun isFalse => ⟨isFalse, by simp [numbered]⟩⟩
  | cons digest rest ih =>
    refine wp_get_bind ?_
    split
    · rename_i skips
      refine wp_mono (ih (seqNo + 1) fetchPending st) fun final _ pending later =>
        ⟨later.1, fun isFalse => ?_⟩
      refine ⟨(later.2 isFalse).1, List.forall_mem_cons.mpr ⟨fun nonempty above => ?_, (later.2 isFalse).2⟩⟩
      rcases skips with isEmpty | committed
      · exact absurd (List.isEmpty_iff.mp isEmpty) nonempty
      · exact absurd above (Nat.not_lt.mpr committed)
    · rw [wp_bind]
      refine wp_mono (wp_fetchPreprepare_found seqNo digest fetchPending st) fun mid _ found first => ?_
      refine wp_mono (ih (seqNo + 1) found mid) fun final _ pending later =>
        ⟨SameBatches.trans first.1 later.1, fun isFalse => ?_⟩
      obtain ⟨isFound, others⟩ := later.2 isFalse
      rw [first.1.1, first.1.2] at others
      exact ⟨(first.2 isFound).1, List.forall_mem_cons.mpr ⟨fun _ _ => (first.2 isFound).2, others⟩⟩

/-! ### The second loop -/

theorem safe_carries_bind {entry : Persistent} {next : Unit → GoProc EtState Unit}
    (stock : st.requestsOf = requests)
    (carried : ∀ qEntry, entry = .qEntry qEntry → qEntry.digest ≠ [] → requests qEntry.digest = some
      qEntry.requests)
    (rest : ∀ mid : EtState, mid.requestsOf = requests →
      safe (· ≠ missingBatch) (next ()) mid fun _ actions _ => Carries requests actions) :
    safe (· ≠ missingBatch) ((log fun p => p.appendLogEntry entry) >>= next) st fun _ actions _ =>
      Carries requests actions := by
  refine safe_bind (safe_zoom (safe_get_bind
    (safe_lift_bind ((st.sh.persisted.appendLogEntry_fails entry).mono ?_)
    fun result appended => ?_)))
  · rintro _ rfl
    decide
  obtain ⟨p, writes⟩ := result
  obtain ⟨_, rfl⟩ := Persisted.appendLogEntry_eq_ok appended
  refine safe_bind (safe_modify (safe_emit
    (safe_mono (rest _ stock) fun _ more _ later index qEntry member => ?_)))
  rcases List.mem_cons.mp member with same | isLater
  · cases same
    exact carried qEntry rfl
  · exact later index qEntry isLater

theorem safe_logPreprepares_found (config : EpochConfig) {seqNo : Nat} {digests : List Bytes}
    (found : ∀ batch ∈ numbered seqNo digests, batch.2 ≠ [] → (requests batch.2).isSome)
    (stock : st.requestsOf = requests) :
    safe (· ≠ missingBatch) (logPreprepares config seqNo digests) st fun _ actions _ =>
    Carries requests actions := by
  induction digests generalizing seqNo st with
  | nil => exact safe_pure (by simp [Carries])
  | cons digest rest ih =>
    obtain ⟨isFound, others⟩ := List.forall_mem_cons.mp found
    refine safe_get_bind (safe_ite (fun _ => ?_) fun nonempty => ?_)
    · refine safe_carries_bind stock ?_ fun mid same => ih others same
      rintro _ ⟨⟩ nonempty
      exact absurd rfl nonempty
    have isSome := isFound fun isEmpty => nonempty (List.isEmpty_iff.mpr isEmpty)
    rw [← stock] at isSome
    split
    · rename_i isNone
      rw [EtState.requestsOf, isNone] at isSome
      cases isSome
    rename_i batch isBatch
    refine safe_carries_bind stock ?_ fun mid same => safe_ite (fun _ => ?_) fun _ => ih others same
    · rintro _ ⟨⟩ _
      rw [← stock, EtState.requestsOf, isBatch]
      rfl
    · exact safe_carries_bind same (by rintro _ ⟨⟩) fun next still => ih others still

theorem safe_echo_found
    (found : ∀ batch ∈ newEpoch.newConfig.batches, batch.2 ≠ [] → (st.requestsOf batch.2).isSome) :
    safe (· ≠ missingBatch) (echo newEpoch) st fun _ actions _ => Carries st.requestsOf actions := by
  refine safe_get_bind (safe_bind
    (safe_modify (safe_ite (fun _ => safe_fail (by decide)) fun _ => safe_bind ?_)))
  refine safe_mono (safe_carries_bind rfl (by rintro _ ⟨⟩) fun mid same =>
    safe_logPreprepares_found _ found same) fun logged actions _ carries => ?_
  refine safe_bind (safe_modify (safe_get_bind
    (safe_emit fun index qEntry member => carries index qEntry ?_)))
  simpa using member

/-! ### Both loops -/

/-- **`fetchNewEpochState` moves to `etEchoing`**: the starting checkpoint is reached and computed,
and the first loop ends with nothing pending. -/
structure Echoes (newEpoch : NewEpoch) (st mid : EtState) (sent : List Action) : Prop where
  isNew : st.et.leaderNewEpoch = some newEpoch
  idle : st.sh.commitState.transferring = false
  reached : newEpoch.newConfig.startingCheckpoint.seqNo ≤ st.sh.commitState.highestCommit
  computed : newEpoch.newConfig.startingCheckpoint.seqNo ≤ st.sh.commitState.lowWatermark
  fetched : fetchPreprepares newEpoch (newEpoch.newConfig.startingCheckpoint.seqNo + 1) false
    newEpoch.newConfig.finalPreprepares st = .ok (mid, sent, false)

theorem safe_fetchNewEpochState_found (echoes : Echoes newEpoch st mid sent)
    (tracked : ∀ batch ∈ newEpoch.newConfig.batches, batch.2 ≠ [] →
      batch.1 ≤ st.sh.commitState.highestCommit → (st.requestsOf batch.2).isSome) :
    (∀ batch ∈ newEpoch.newConfig.batches, batch.2 ≠ [] → (mid.requestsOf batch.2).isSome) ∧
      safe (· ≠ missingBatch) fetchNewEpochState st fun _ actions _ => Carries mid.requestsOf actions := by
  obtain ⟨⟨same, _⟩, found⟩ := wp_fetchPreprepares_found _ _ _ _ _ _ _ echoes.fetched
  rw [same]
  have all : ∀ batch ∈ newEpoch.newConfig.batches, batch.2 ≠ [] → (st.requestsOf batch.2).isSome := by
    intro batch member nonempty
    rcases Nat.lt_or_ge st.sh.commitState.highestCommit batch.1 with above | committed
    · exact (found rfl).2 batch member nonempty above
    · exact tracked batch member nonempty committed
  refine ⟨all, safe_get_bind ?_⟩
  rw [echoes.isNew]
  dsimp only
  rw [echoes.idle, if_neg (by simp), if_neg (Nat.not_lt.mpr echoes.reached)]
  refine safe_bind ⟨by rw [echoes.fetched]; exact .pure _, (wp_of_eq_ok echoes.fetched).mpr ?_⟩
  rw [if_neg (by simp), if_neg (Nat.not_lt.mpr echoes.computed)]
  refine safe_mono (safe_echo_found (same ▸ all)) fun _ more _ carries index qEntry member => ?_
  rcases List.mem_append.mp member with isSent | isMore
  · -- What the first loop sends is plain.
    cases ((quiet_fetchPreprepares _ _ _ _ st).2 _ _ _ echoes.fetched).2.2 _ isSent
  · rw [← same]
    exact carries index qEntry isMore

/-- **Echoing misses no batch** if and only if the batches up to the highest commit are tracked:
then every batch of the final preprepares is there when the target moves to `etEchoing`, the second
loop does not panic, and each Q-entry carries the requests of its batch. -/
theorem echoed_batches_found_iff (echoes : Echoes newEpoch st mid sent) :
    ((∀ batch ∈ newEpoch.newConfig.batches, batch.2 ≠ [] → (mid.requestsOf batch.2).isSome) ∧
      safe (· ≠ missingBatch) fetchNewEpochState st fun _ actions _ => Carries mid.requestsOf actions) ↔
    ∀ batch ∈ newEpoch.newConfig.batches, batch.2 ≠ [] → batch.1 ≤ st.sh.commitState.highestCommit →
      (st.requestsOf batch.2).isSome := by
  refine ⟨fun all batch member nonempty _ => ?_, safe_fetchNewEpochState_found echoes⟩
  rw [← (wp_fetchPreprepares_found _ _ _ _ _ _ _ echoes.fetched).1.1]
  exact all.1 batch member nonempty

end EpochTarget

/-! ### Batches along a run -/

variable {condition : StateMachine → Event → Prop} {events : List Event} {st final : SmState} {digest : Bytes}
  {seqNo : Nat}

/-- **The machine goes on** while the batches of a sequence are spared. -/
inductive SmState.Onward (seqNo : Nat) (st : SmState) : SmState → Prop
  | here : Onward seqNo st st
  | event {mid final : SmState} {event : Event} {actions : List Action} (fuel : Nat)
      (orders : Nat → MapIter) : Onward seqNo st mid →
      (∀ handled sent, handle event { mid with sh := { mid.sh with orders } } = .ok (handled, sent, ()) →
        handled.Spares seqNo) →
      applyEvent fuel event { mid with sh := { mid.sh with orders } } = .ok (final, actions, ()) →
      Onward seqNo st final

theorem SmState.Onward.kept {my : Stock} (onward : st.Onward seqNo final)
    (only : ∀ digest other, my.tracked digest other → other = seqNo) (kept : SmKept (fun _ _ => True) my st) :
    SmKept (fun _ _ => True) my final := by
  induction onward with
  | here => exact kept
  | event fuel orders _ spares ran ih =>
    refine (logs_applyEvent trivial (fun _ _ _ => trivial) fuel ?_ _ _ _ ran (ih.orders orders)).1
    intro digest other isTracked handled sent handles
    exact only digest other isTracked ▸ spares handled sent handles

/-- What a machine keeps, in every run. -/
theorem MachineRun.kept (run : MachineRun condition events (.initialized st)) :
    ∃ my, SmKept (fun _ _ => True) (.of my) st := by
  refine run.initialized (fun _ st => ∃ my, SmKept (fun _ _ => True) (.of my) st) ?_ (fun _ _ => id) ?_
  · intro _ my p orders st actions _ ran
    exact ⟨my, (SmState.logs_reinitialize (Or.inl trivial) _ _ _ _ ran (components_kept _ my p orders)).1⟩
  · rintro _ st st' event fuel orders actions ⟨my, kept⟩ _ ran
    exact ⟨my, (SmState.logs_applyEvent trivial (fun _ _ _ => trivial) fuel
      (fun _ _ isTracked => False.elim isTracked) _ _ _ ran (kept.orders orders)).1⟩

/-- **A tracked batch stays tracked**: nothing but the cut at a checkpoint more than an interval
above it forgets it, and a transfer of the state does not. -/
theorem MachineRun.stays_tracked (run : MachineRun condition events (.initialized st))
    (onward : st.Onward seqNo final) (observed : st.sh.batchTracker.Observes digest seqNo) :
    final.sh.batchTracker.Observes digest seqNo := by
  obtain ⟨my, kept⟩ := run.kept
  have restocked : SmKept (fun _ _ => True) ⟨my, fun other number => other = digest ∧ number = seqNo⟩ st := by
    refine kept.restock rfl ⟨kept.stocked.1, ?_⟩
    rintro _ _ ⟨rfl, rfl⟩
    exact observed
  have atLast := onward.kept (fun _ _ (isTracked : _ ∧ _) => isTracked.2) restocked
  exact atLast.stocked.2 digest seqNo ⟨rfl, rfl⟩

/-- **A machine that starts tracks the batches of its log.** -/
theorem SmState.wp_reinitialize_tracks {heard : NodeID → Msg → Prop} {my : InitialParameters}
    (kept : SmKept heard (.of my) st) :
    wp reinitialize st fun final _ _ => ∀ entry, .qEntry entry ∈ startingLog st.sh.persisted →
      final.sh.batchTracker.Observes entry.digest entry.seqNo := by
  have starts (found : TrackerState) (loaded : Loaded st found) :
      wp EpochTracker.reinitialize found fun final _ _ =>
      ∀ entry, .qEntry entry ∈ startingLog st.sh.persisted →
        final.sh.batchTracker.Observes entry.digest entry.seqNo := by
    intro final _ _ ran entry inLog
    have stocked : found.sh.Stocked ⟨my, fun digest seqNo => ∃ entry,
        .qEntry entry ∈ startingLog st.sh.persisted ∧ entry.digest = digest ∧ entry.seqNo = seqNo⟩ := by
      refine ⟨loaded.parameters.trans kept.stocked.1, ?_⟩
      rintro _ _ ⟨entry, inLog, rfl, rfl⟩
      exact loaded.batches entry inLog
    have atLast := EpochTracker.logs_reinitialize (Or.inl trivial) _ _ _ _ ran
      (kept.restock loaded.tracker stocked)
    exact atLast.1.stocked.2 _ _ ⟨entry, inLog, rfl, rfl⟩
  exact wp_reinitialize_loaded st starts

/-- **Echoing misses no batch** that was tracked in some state and is spared from then on. -/
theorem MachineRun.echoed_batches_spared {et : EpochTarget} {newEpoch : NewEpoch} {mid : EtState}
    {sent : List Action} (run : MachineRun condition events (.initialized st))
    (echoes : EpochTarget.Echoes newEpoch ⟨et, final.sh⟩ mid sent)
    (spared : ∀ batch ∈ newEpoch.newConfig.batches, batch.2 ≠ [] →
      batch.1 ≤ final.sh.commitState.highestCommit →
      ∃ seqNo, st.sh.batchTracker.Observes batch.2 seqNo ∧ st.Onward seqNo final) :
    safe (· ≠ missingBatch) EpochTarget.fetchNewEpochState ⟨et, final.sh⟩ fun _ actions _ =>
      Carries mid.requestsOf actions := by
  refine (EpochTarget.safe_fetchNewEpochState_found echoes fun batch member nonempty committed => ?_).2
  obtain ⟨seqNo, observed, isSpared⟩ := spared batch member nonempty committed
  obtain ⟨_, found, _⟩ := run.stays_tracked isSpared observed
  rw [EtState.requestsOf, found]
  rfl

namespace Skipped

open EpochTarget ThreeChanges

/-- Node zero has committed the batch `5`, whose requests it knows. -/
def committed (tracker : BatchTracker) : EtState where
  et := { target with state := .fetching, leaderNewEpoch := some (newEpochWith [[5]]) }
  sh := { shared with commitState := { shared.commitState with highestCommit := 1 }, batchTracker := tracker }

/-- A batch that is committed and tracked is logged. -/
theorem committed_batch_logged :
    let st := committed (BatchTracker.empty.addBatch 1 [5] [⟨7, 0, [6]⟩])
    safe (· ≠ missingBatch) fetchNewEpochState st fun _ actions _ => Carries st.requestsOf actions :=
  ((@echoed_batches_found_iff (committed (BatchTracker.empty.addBatch 1 [5] [⟨7, 0, [6]⟩])) _
    (newEpochWith [[5]]) [] ⟨rfl, rfl, by decide, by decide, rfl⟩).mpr (by decide)).2

/-- An epoch change of a node that has prepared the batch `5` in epoch one. -/
def change (epoch : Nat) (checkpoints : List Checkpoint) : EpochChange :=
  ⟨epoch, checkpoints, [⟨1, 1, [5]⟩], [⟨1, 1, [5]⟩]⟩

/-- The epoch changes of nodes zero, one and three, as they tell of them: node zero has computed
checkpoint five, node three has not, and node one claims what it likes. -/
def changes (epoch : Nat) (claimed : Checkpoint) : List Event :=
  [(0, [genesis, ⟨5, [8]⟩]), (1, [claimed]), (3, [genesis])].flatMap fun (origin, checkpoints) =>
    FourNodes.told origin (change epoch checkpoints)

/-- The nodes suspect the leader of an epoch. -/
def suspects (epoch : Nat) : List Event := [0, 1, 3].map fun source => .step source (.suspect epoch)

/-- Node two is brought to checkpoint five in epoch three, which ends. -/
def transferred : List Event :=
  FourNodes.start 2 FourNodes.firstLog ++ suspects 1 ++ suspects 2 ++ changes 3 ⟨5, [8]⟩ ++
    [FourNodes.newEpoch 3 ⟨⟨3, [0, 1, 2, 3], 25⟩, ⟨5, [8]⟩, []⟩, .stateTransferComplete 5 [8]
    FourNodes.networkState] ++ suspects 3 ++ changes 4 genesis

/-- **A batch is missed**: epoch four starts from the first checkpoint again. -/
theorem transferred_batch_missed : ∃ st, MachineRun (fun _ _ => True) transferred (.initialized st) ∧
    StateMachine.applyEvent 10 (fun _ => .inOrder)
      (FourNodes.newEpoch 0 ⟨⟨4, [0, 1, 2, 3], 20⟩, genesis, [5] :: List.replicate 9 []⟩) (.initialized st) =
        .error missingBatch := by
  exact MachineRun.exists_of_evaluated 10 transferred _ (by decide +kernel)

end Skipped

end MirBft
