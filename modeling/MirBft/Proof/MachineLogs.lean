/-
**Every event of the state machine moves the log.**

* `MachineStep`: what the application of an event is, by the state of the machine;
* `SmLogs`: the methods of an initialized machine make moves of the log, with the actions that the
  machine returns;
* `SmState.logs_applyEvent`: an event of the machine. The cut at a stable checkpoint has no action,
  so a machine that cuts makes lossy moves.
-/

import MirBft.Proof.LogTracking

namespace MirBft

open Proc EpochTracker

/-- **What the application of an event is.** -/
inductive MachineStep (fuel : Nat) (orders : Nat → MapIter) :
    StateMachine → Event → StateMachine → List Action → Prop
  | begin (my : InitialParameters) : MachineStep fuel orders .uninitialized (.initParameters my)
      (.loadingPersisted my .empty) []
  | received (machine : StateMachine) : MachineStep fuel orders machine .actionsReceived machine []
  | load {my : InitialParameters} {p p' : Persisted} {index : Nat} {entry : Persistent} :
      p.appendInitialLoad index entry = .ok p' → MachineStep fuel orders (.loadingPersisted my p)
        (.loadPersistedEntry index entry) (.loadingPersisted my p') []
  | complete {my : InitialParameters} {p : Persisted} {st : SmState} {actions : List Action} :
      SmState.reinitialize (StateMachine.components my p orders) = .ok (st, actions, ()) →
      MachineStep fuel orders (.loadingPersisted my p) .completeInitialization (.initialized st) actions
  | apply {st st' : SmState} {event : Event} {actions : List Action} :
      SmState.applyEvent fuel event { st with sh := { st.sh with orders } } = .ok (st', actions, ()) →
      MachineStep fuel orders (.initialized st) event (.initialized st') actions

theorem machineStep_of_applyEvent {machine machine' : StateMachine} {event : Event} {fuel : Nat}
    {orders : Nat → MapIter} {actions : List Action}
    (applied : machine.applyEvent fuel orders event = .ok (machine', actions)) :
    MachineStep fuel orders machine event machine' actions := by
  cases machine with
  | uninitialized =>
    cases event <;> cases applied
    · exact .begin _
    · exact .received _
  | loadingPersisted my p =>
    cases event with
    | loadPersistedEntry index entry =>
      obtain ⟨p', appended, returned⟩ := bind_eq_ok.mp applied
      cases returned
      exact .load appended
    | completeInitialization =>
      obtain ⟨⟨st, emitted, _⟩, ran, returned⟩ := bind_eq_ok.mp applied
      cases returned
      exact .complete ran
    | actionsReceived =>
      cases applied
      exact .received _
    | _ => cases applied
  | initialized st =>
    by_cases received : event = .actionsReceived
    · subst received
      cases applied
      exact .received _
    · have runs : (do
          let result ← SmState.applyEvent fuel event { st with sh := { st.sh with orders } }
          pure (StateMachine.initialized result.1, result.2.1)) = .ok (machine', actions) := by
        cases event with
        | actionsReceived => exact absurd rfl received
        | _ => exact applied
      obtain ⟨⟨final, emitted, _⟩, ran, returned⟩ := bind_eq_ok.mp runs
      cases returned
      exact .apply ran

/-- The log and the epoch change of a machine. -/
def SmState.logView (st : SmState) : LogView := TrackerState.logView ⟨st.tracker, st.sh⟩

/-- What the methods of a machine keep. -/
def SmKept (heard : NodeID → Msg → Prop) (my : Stock) (st : SmState) : Prop :=
  TrackerKept heard my ⟨st.tracker, st.sh⟩

theorem components_kept (heard : NodeID → Msg → Prop) (my : InitialParameters) (p : Persisted)
    (orders : Nat → MapIter) : SmKept heard (.of my) (StateMachine.components my p orders) := by
  refine ⟨⟨rfl, nofun⟩, by rintro _ ⟨⟩, fun id buffer found => ?_⟩
  change (∅ : GoMap NodeID MsgBuffer).lookup id = some buffer at found
  rw [AList.lookup_empty] at found
  cases found

theorem SmKept.orders {heard : NodeID → Msg → Prop} {my : Stock} {st : SmState}
    (kept : SmKept heard my st) (orders : Nat → MapIter) :
    SmKept heard my { st with sh := { st.sh with orders } } :=
  kept.restock rfl kept.stocked

/-- **The effect of the methods of a machine.** -/
def SmLogs (lossy : Prop) (heard : NodeID → Msg → Prop) (my : Stock) :
    Effect SmState Action :=
  (stepsEffect SmState.logView (LogMove lossy)).keeping (SmKept heard my)

namespace SmState

variable {lossy : Prop} {heard : NodeID → Msg → Prop} {my : Stock}

/-! ### Parts of the state -/

theorem logs_onShared {α : Type} {method : GoProc Shared α} (logged : Has (Shared.logs lossy) method) :
    Has (SmLogs lossy heard my) (onShared method) := by
  intro st
  rw [onShared, wp_zoom]
  refine wp_mono (logged st.sh) fun sh actions _ done => ?_
  have moved : (TrackerLogs lossy heard my).rel ⟨st.tracker, st.sh⟩ ⟨st.tracker, sh⟩ actions :=
    logs_of_shared rfl done
  exact moved

theorem logs_onTracker {α : Type} {method : GoProc TrackerState α}
    (logged : Has (TrackerLogs lossy heard my) method) : Has (SmLogs lossy heard my) (onTracker method) := by
  intro st
  rw [onTracker, wp_zoom]
  exact logged _

theorem logs_emit {actions : List Action} (plain : ∀ action ∈ actions, action.plain = true) :
    Has (SmLogs lossy heard my) (emit actions : GoProc SmState Unit) := by
  intro st
  rw [wp_emit]
  have moved : (TrackerLogs lossy heard my).rel ⟨st.tracker, st.sh⟩ ⟨st.tracker, st.sh⟩ actions :=
    logs_of_shared rfl (Shared.logs_of_plain (fun _ => id) rfl plain)
  exact moved

theorem logs_onCheckpoints {α : Type} {method : GoProc CpState α} (silent : Keeps CpSilent method) :
    Has (SmLogs lossy heard my) (onCheckpoints method) := by
  intro st
  rw [onCheckpoints, wp_zoom]
  refine wp_mono (silent.has _) ?_
  rintro inner actions _ ⟨rfl, orders, isShared⟩
  have moved : (TrackerLogs lossy heard my).rel ⟨st.tracker, st.sh⟩ ⟨st.tracker, inner.sh⟩ [] := by
    refine logs_of_shared rfl (Shared.logs_of_plain ?_ ?_ (by simp))
    · rw [isShared]
      exact fun _ => id
    · rw [isShared]
  exact moved

/-- A change of the batches keeps what has to stay tracked. -/
theorem logs_onBatches {update : BatchTracker → Go BatchTracker}
    (keeps : ∀ bt after, update bt = .ok after → ∀ digest seqNo, my.tracked digest seqNo →
      bt.Observes digest seqNo → after.Observes digest seqNo) :
      Has (SmLogs lossy heard my) (onBatches update) := by
  refine fun st => wp_get_bind (wp_lift_bind fun batches updated => ?_)
  rw [onShared, wp_zoom, wp_modify]
  exact fun kept => ⟨kept.restock rfl ⟨kept.stocked.1, fun digest seqNo isTracked =>
    keeps _ _ updated _ _ isTracked (kept.stocked.2 digest seqNo isTracked)⟩, .refl _⟩

/-! ### Starting from the log -/

theorem logs_recoverLog (lastCEntry : Option CEntry) (entries : List Persistent) :
    Has (SmLogs lossy heard my) (recoverLog lastCEntry entries) := by
  refine has_recoverLog (fun seqNo => logs_onShared fun sh => ?_) _ _
  refine wp_get_bind (wp_lift_bind fun result isCut => ?_)
  cases isCut
  simp only [wp_bind, wp_modify, wp_emit]
  exact ⟨fun _ => id, fun change => .single (.cut ⟨sh.persisted, change⟩ seqNo)⟩

theorem logs_refetch : Has (SmLogs lossy heard my) refetch := by
  refine fun st => wp_get_bind ?_
  split
  · exact has_fail _ st
  rename_i target isTarget
  split
  · rename_i fetching
    rw [onTracker, wp_zoom]
    refine wp_onTarget_logs fun et isCurrent => ?_
    cases isTarget.symm.trans isCurrent
    have proceeds : ProceedsFrom (.free target.networkConfig) lossy heard my _ ⟨target, st.sh⟩ :=
      EpochTarget.proceeds_fetchNewEpochState fetching.2
    exact wp_mono proceeds fun _ _ _ done => done.2
  · exact has_pure () st

section Heard

variable (mayVote : MayVote lossy heard my.id)
include mayVote

theorem logs_reinitialize : Has (SmLogs lossy heard my) SmState.reinitialize :=
  has_bind has_get fun _ => has_bind (logs_recoverLog _ _) fun _ =>
    has_bind (logs_onShared Shared.logs_reinitialize) fun _ =>
      has_bind (logs_onCheckpoints CheckpointTracker.silent_reinitialized) fun _ =>
        has_bind has_get fun _ => has_bind (logs_onBatches fun bt _ reloaded _ _ _ =>
          Except.ok.inj reloaded ▸ (bt.reinitialize_tracks _).1 _ _) fun _ =>
            logs_onTracker (EpochTracker.logs_reinitialize mayVote)

/-! ### Events -/

theorem logs_step {source : NodeID} {msg : Msg} (isHeard : heard source msg) :
    Has (SmLogs lossy heard my) (step source msg) := by
  unfold step
  split
  · exact logs_onShared (Shared.logs_onClients (Clients.plain_step source _))
  · exact logs_onShared (Shared.logs_onClients (Clients.plain_step source _))
  · exact logs_onShared (Shared.logs_onClients (Clients.plain_step source _))
  · exact logs_onCheckpoints (CheckpointTracker.silent_step source _)
  · exact fun st => wp_get_bind (wp_lift_bind fun actions stepped =>
      logs_emit (BatchTracker.step_plain stepped) st)
  · exact fun st => wp_get_bind (wp_lift_bind fun actions stepped =>
      logs_emit (BatchTracker.step_plain stepped) st)
  · exact logs_onTracker (EpochTracker.logs_step mayVote isHeard)

theorem logs_completeTransfer (seqNo : Nat) (value : Bytes) (networkState : NetworkState) :
    Has (SmLogs lossy heard my) (completeTransfer seqNo value networkState) :=
  has_bind has_get fun _ => has_ite (has_fail _)
    (has_bind (logs_onShared (Shared.logs_onLog _)) fun _ => logs_reinitialize mayVote)

theorem logs_handle {event : Event}
    (isHeard : ∀ source msg, event = .step source msg → heard source msg) :
    Has (SmLogs lossy heard my) (handle event) := by
  cases event with
  | tickElapsed =>
    exact has_bind (logs_onShared (Shared.logs_onClients Clients.plain_tick)) fun _ =>
      logs_onTracker (logs_tick mayVote)
  | step source msg => exact logs_step mayVote (isHeard source msg rfl)
  | hashResult digest origin =>
    exact has_processHashResult (fun _ grows => logs_onBatches fun bt after updated digest seqNo _ =>
        grows bt after updated digest seqNo)
      (fun epoch seqNo => logs_onTracker (logs_applyBatchHashResult mayVote epoch seqNo digest))
      (fun source origin change =>
        logs_onTracker (logs_applyEpochChangeDigest mayVote source origin change digest))
      logs_refetch origin
  | checkpointResult seqNo value networkState =>
    exact has_processCheckpointResult
      (logs_onShared (Shared.logs_applyCheckpointResult seqNo value networkState))
  | requestPersisted ack =>
    exact logs_onShared (Shared.logs_onClients (Clients.plain_applyNewRequest ack))
  | stateTransferFailed _ _ => exact has_fail _
  | stateTransferComplete seqNo value networkState =>
    exact logs_completeTransfer mayVote seqNo value networkState
  | _ => exact has_fail _

theorem logs_advance (fuel : Nat) : Has (SmLogs lossy heard my) (advance fuel) :=
  has_advance (logs_onShared Shared.logs_drain) (logs_onTracker (logs_advanceState mayVote)) fuel

end Heard

/-- **The batches of a sequence are spared**: no stable checkpoint is more than an interval above
it. -/
def Spares (st : SmState) (seqNo : Nat) : Prop :=
  st.checkpointTracker.state = .garbageCollectable →
  ∀ stable, st.checkpointTracker.splitStable.1.getLast? = some stable →
    stable ≤ seqNo + st.checkpointTracker.networkConfig.checkpointInterval

theorem wp_garbageCollect_stable (st : CpState) : wp CheckpointTracker.garbageCollect st fun _ _ newLow =>
    st.ct.splitStable.1.getLast? = some newLow := by
  refine wp_get_bind ?_
  split
  · exact wp_fail _ _ _
  rename_i stable isStable
  simp only [wp_bind, wp_pure]
  exact fun _ _ _ _ _ _ _ _ _ _ _ _ => isStable

section Lossy

variable (isLossy : lossy) {st : SmState}
include isLossy

/-- **The cut at a stable checkpoint** has no action. -/
theorem logs_collectGarbage (spared : ∀ digest seqNo, my.tracked digest seqNo → st.Spares seqNo) :
    wp collectGarbage st fun final actions _ => (SmLogs lossy heard my).rel st final actions := by
  refine wp_get_bind ?_
  split
  · rename_i collectable
    have stable : wp (onCheckpoints CheckpointTracker.garbageCollect) st fun _ _ newLow =>
        st.checkpointTracker.splitStable.1.getLast? = some newLow := by
      rw [onCheckpoints, wp_zoom]
      exact wp_garbageCollect_stable _
    have silent : Has (SmLogs lossy heard my) (onCheckpoints CheckpointTracker.garbageCollect) :=
      logs_onCheckpoints CheckpointTracker.silent_garbageCollect
    refine wp_effect_bind (wp_mono (wp_and (silent st) stable) ?_)
    rintro mid _ newLow ⟨moved, isStable⟩
    refine ⟨moved, has_bind (logs_onShared fun sh => ?_) (fun _ => has_bind (logs_onBatches ?_) fun _ =>
      logs_onTracker (logs_moveLowWatermark (Or.inl isLossy) newLow)) mid⟩
    · rw [wp_modify]
      exact ⟨fun _ => id, fun change => .single (.forget ⟨sh.persisted, change⟩ newLow isLossy)⟩
    · rintro bt _ ⟨⟩ digest seqNo isTracked observed
      split
      · exact BatchTracker.observes_truncate observed
          (Nat.sub_le_iff_le_add.mpr (spared digest seqNo isTracked collectable newLow isStable))
      · exact observed
  · exact has_pure () st

/-- **An event of a machine moves the log**, if losses are allowed. -/
theorem logs_applyEvent {event : Event}
    (isHeard : ∀ source msg, event = .step source msg → heard source msg) (fuel : Nat)
    (spared : ∀ digest seqNo, my.tracked digest seqNo → ∀ handled actions,
      handle event st = .ok (handled, actions, ()) → handled.Spares seqNo) :
    wp (applyEvent fuel event) st fun final actions _ => (SmLogs lossy heard my).rel st final actions := by
  refine wp_effect_bind fun handled actions _ ran => ⟨logs_handle (Or.inl isLossy) isHeard _ _ _ _ ran, ?_⟩
  refine wp_effect_bind (wp_mono (logs_collectGarbage isLossy fun digest seqNo isTracked =>
    spared digest seqNo isTracked handled actions ran) fun collected _ _ moved => ⟨moved, ?_⟩)
  exact logs_advance (Or.inl isLossy) fuel collected

end Lossy

end SmState

end MirBft
