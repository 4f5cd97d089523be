/-
**Runs of a machine, and what its epoch tracker keeps.**

`MachineRun` is a run with the events that were applied, of any machine and from any log.

* `KeepsClaims`: what the nodes claim about epochs (`maxEpochs`, `maxCorrectEpoch`) is changed by a
  message for a later epoch and by a tick only.
* `MachineRun.running`: an initialized machine has a current epoch and a window of checkpoints.
-/

import MirBft.Proof.PersistBeforeSend

namespace MirBft

open Proc EpochTracker

variable {condition : StateMachine → Event → Prop} {events : List Event}

/-- **The runs of a machine**, with the events in order; `condition` restricts which event may come
to which machine. -/
inductive MachineRun (condition : StateMachine → Event → Prop) : List Event → StateMachine → Prop
  | start : MachineRun condition [] .uninitialized
  | event {events : List Event} {machine machine' : StateMachine} {event : Event}
      {actions : List Action} (fuel : Nat) (orders : Nat → MapIter) :
      MachineRun condition events machine → condition machine event →
      machine.applyEvent fuel orders event = .ok (machine', actions) →
      MachineRun condition (events ++ [event]) machine'

/-- **The rule for runs**: what holds of a machine initialized from any log, and is kept by every
event. -/
theorem MachineRun.initialized (invariant : List Event → SmState → Prop)
    (complete : ∀ events my p orders st actions,
      condition (.loadingPersisted my p) .completeInitialization →
      SmState.reinitialize (StateMachine.components my p orders) = .ok (st, actions, ()) →
      invariant (events ++ [.completeInitialization]) st)
    (received : ∀ events st, invariant events st → invariant (events ++ [.actionsReceived]) st)
    (apply : ∀ events st st' event fuel orders actions, invariant events st →
      condition (.initialized st) event →
      SmState.applyEvent fuel event { st with sh := { st.sh with orders } } = .ok (st', actions, ()) →
      invariant (events ++ [event]) st') {st : SmState}
      (run : MachineRun condition events (.initialized st)) :
    invariant events st := by
  generalize isMachine : StateMachine.initialized st = machine at run
  induction run generalizing st with
  | start => cases isMachine
  | event fuel orders _ meets applied ih =>
    cases machineStep_of_applyEvent applied with
    | begin my => cases isMachine
    | received =>
      subst isMachine
      exact received _ _ (ih rfl)
    | load _ => cases isMachine
    | complete ran =>
      cases isMachine
      exact complete _ _ _ _ _ _ meets ran
    | apply ran =>
      cases isMachine
      exact apply _ _ _ _ _ _ _ (ih rfl) meets ran

/-! ### The epoch tracker -/

/-- **The effect of a method that does not touch what the nodes claim**: and a current epoch stays
one. -/
def KeepsClaims : Effect TrackerState Action where
  rel before after _ := after.tracker.maxEpochs = before.tracker.maxEpochs ∧
    after.tracker.maxCorrectEpoch = before.tracker.maxCorrectEpoch ∧
    (before.tracker.currentEpoch ≠ none → after.tracker.currentEpoch ≠ none)
  refl _ := ⟨rfl, rfl, id⟩
  trans := by
    rintro _ _ _ _ _ ⟨epochs, correct, target⟩ ⟨moreEpochs, moreCorrect, moreTarget⟩
    exact ⟨moreEpochs.trans epochs, moreCorrect.trans correct, moreTarget ∘ target⟩

namespace EpochTracker

variable {α : Type}

theorem claims_onShared (method : GoProc Shared α) : Has KeepsClaims (onShared method) := by
  intro st
  rw [onShared, wp_zoom]
  exact fun _ _ _ _ => ⟨rfl, rfl, id⟩

theorem claims_emit (actions : List Action) :
    Has KeepsClaims (emit actions : GoProc TrackerState Unit) := by
  intro st
  rw [wp_emit]
  exact ⟨rfl, rfl, id⟩

variable {update : EpochTracker → EpochTracker}

theorem claims_assign (epochs : ∀ tracker, (update tracker).maxEpochs = tracker.maxEpochs)
    (correct : ∀ tracker, (update tracker).maxCorrectEpoch = tracker.maxCorrectEpoch)
    (target : ∀ tracker, tracker.currentEpoch ≠ none → (update tracker).currentEpoch ≠ none) :
    Has KeepsClaims (assign update) := by
  intro st
  rw [assign, wp_modify]
  exact ⟨epochs _, correct _, target _⟩

theorem claims_current : Has KeepsClaims current := by
  refine has_bind has_get fun st => ?_
  split
  · exact has_fail _
  · exact has_pure _

theorem wp_onTarget_claims (method : GoProc EtState α) (st : TrackerState) :
    wp (onTarget method) st fun final actions _ =>
      KeepsClaims.rel st final actions ∧ final.tracker.currentEpoch ≠ none := by
  unfold onTarget current
  rw [wp_bind]
  refine wp_get_bind ?_
  split
  · exact wp_fail _ _ _
  · rw [wp_pure, wp_zoom]
    exact fun _ _ _ _ => ⟨⟨rfl, rfl, fun _ => Option.some_ne_none _⟩, Option.some_ne_none _⟩

theorem claims_onTarget (method : GoProc EtState α) : Has KeepsClaims (onTarget method) :=
  fun st => wp_mono (wp_onTarget_claims method st) fun _ _ _ done => done.1

theorem claims_applyMsg (source : NodeID) (msg : Msg) : Has KeepsClaims (applyMsg source msg) := by
  unfold applyMsg
  split
  all_goals first
    | exact claims_onTarget _
    | exact has_fail _
    | exact has_bind has_get fun _ => has_ite (has_pure ()) (claims_onTarget _)

theorem claims_drainFutures : Has KeepsClaims drainFutures := by
  refine has_bind has_get fun st => has_forEach fun node _ => has_bind has_get fun _ => ?_
  split
  · exact has_fail _
  · refine has_bind (MsgBuffer.has_iterate claims_applyMsg _) fun rest => ?_
    exact claims_assign (fun _ => rfl) (fun _ => rfl) fun _ => id

/-- The procedure keeps the claims, and leaves a current epoch. -/
def Settles {α : Type} (method : GoProc TrackerState α) : Prop :=
  ∀ st, wp method st fun final actions _ =>
    KeepsClaims.rel st final actions ∧ final.tracker.currentEpoch ≠ none

theorem Settles.has {method : GoProc TrackerState α} (settles : Settles method) :
    Has KeepsClaims method :=
  fun st => wp_mono (settles st) fun _ _ _ done => done.1

variable {α β : Type} {next : α → GoProc TrackerState β}

theorem Settles.bind {method : GoProc TrackerState α}
    (settles : Settles method) (keeps : ∀ value, Has KeepsClaims (next value)) :
    Settles (method >>= next) := by
  intro st
  rw [wp_bind]
  refine wp_mono (settles st) fun mid _ value done => ?_
  refine wp_mono (keeps value mid) fun final _ _ more => ?_
  exact ⟨KeepsClaims.trans done.1 more, more.2.2 done.2⟩

theorem Settles.after {method : GoProc TrackerState α}
    (keeps : Has KeepsClaims method) (settles : ∀ value, Settles (next value)) :
    Settles (method >>= next) := by
  intro st
  rw [wp_bind]
  refine wp_mono (keeps st) fun mid _ value done => ?_
  refine wp_mono (settles value mid) fun final _ _ more => ?_
  exact ⟨KeepsClaims.trans done more.1, more.2⟩

theorem settles_fail (text : String) : Settles (fail text : GoProc TrackerState α) :=
  fun _ => wp_fail _ _ _

theorem settles_assign (epochs : ∀ tracker, (update tracker).maxEpochs = tracker.maxEpochs)
    (correct : ∀ tracker, (update tracker).maxCorrectEpoch = tracker.maxCorrectEpoch)
    (target : ∀ tracker, (update tracker).currentEpoch ≠ none) : Settles (assign update) := by
  intro st
  rw [assign, wp_modify]
  exact ⟨⟨epochs _, correct _, fun _ => target _⟩, target _⟩

theorem settles_resume (nEntry : NEntry) (highestPreprepared : Nat) :
    Settles (resume nEntry highestPreprepared) := by
  refine .after has_get fun st => ?_
  dsimp only
  split
  · exact settles_fail _
  · refine .bind (settles_assign (fun _ => rfl) (fun _ => rfl) fun _ => Option.some_ne_none _) fun _ => ?_
    exact has_bind (claims_onShared _) fun _ => claims_emit _

theorem settles_changeTo (number : Nat) (myLeaderChoice : List NodeID) :
    Settles (changeTo number myLeaderChoice) := by
  refine .after has_get fun st => .after (has_lift _) fun change => ?_
  split
  · exact settles_fail _
  · refine .bind (settles_assign (fun _ => rfl) (fun _ => rfl) fun _ => Option.some_ne_none _) fun _ => ?_
    exact has_pure _

theorem settles_continueChange (number : Nat) : Settles (continueChange number) := by
  refine .after has_get fun st => ?_
  split
  · exact wp_onTarget_claims _
  · exact (settles_changeTo _ _).bind fun _ => claims_drainFutures

/-- **After an initialization there is a current epoch.** -/
theorem settles_reinitialize : Settles EpochTracker.reinitialize := by
  refine .after has_get fun st => .after (claims_assign (fun _ => rfl) (fun _ => rfl) fun _ => id) fun _ =>
    .after (has_lift _) fun _ => ?_
  unfold resumeFrom
  split
  · exact (settles_resume _ _).bind fun _ => claims_drainFutures
  · split
    · exact .after (claims_onShared _) fun _ => settles_continueChange _
    · split
      · exact settles_continueChange _
      · exact settles_fail _

theorem claims_advanceState : Has KeepsClaims advanceState := by
  refine has_bind has_get fun st => has_bind claims_current fun target =>
    has_ite (claims_onTarget _) (has_ite (has_pure ()) ?_)
  exact has_bind (settles_changeTo _ _).has fun _ => has_bind (claims_onShared _) fun _ =>
    has_bind (claims_emit _) fun _ => claims_drainFutures

theorem claims_applyBatchHashResult (epoch seqNo : Nat) (digest : Bytes) :
    Has KeepsClaims (applyBatchHashResult epoch seqNo digest) :=
  has_bind claims_current fun _ => has_ite (has_pure ()) (claims_onTarget _)

theorem claims_applyEpochChangeDigest (source origin : NodeID) (change : EpochChange) (digest : Bytes) :
    Has KeepsClaims (applyEpochChangeDigest source origin change digest) :=
  has_bind claims_current fun _ => has_ite (has_pure ()) (has_ite (has_fail _) (claims_onTarget _))

theorem claims_giveUp : Has KeepsClaims giveUp := by
  refine has_bind has_get fun st => has_bind claims_current fun target => has_ite ?_ (has_pure ())
  exact has_bind (claims_assign (fun _ => rfl) (fun _ => rfl) fun _ => id) fun _ =>
    has_ite (claims_onTarget _) (has_pure ())

theorem wp_step_claims (source : NodeID) (msg : Msg) (st : TrackerState) :
    wp (step source msg) st fun final _ _ =>
      final.tracker.maxCorrectEpoch = st.tracker.maxCorrectEpoch ∧
      (final.tracker.maxEpochs = st.tracker.maxEpochs ∨ ∃ epoch, epochForMsg msg = .ok epoch ∧
        final.tracker.maxEpochs = st.tracker.maxEpochs.insert source
          (max ((st.tracker.maxEpochs.lookup source).getD 0) epoch)) ∧
      (st.tracker.currentEpoch ≠ none → final.tracker.currentEpoch ≠ none) := by
  refine wp_get_bind (wp_lift_bind fun epoch isEpoch => wp_lift_bind fun applyable _ => ?_)
  split
  · rw [wp_pure]
    exact ⟨rfl, Or.inl rfl, id⟩
  · rw [wp_pure]
    exact ⟨rfl, Or.inl rfl, id⟩
  · refine wp_get_bind ?_
    split
    · exact wp_fail _ _ _
    · rw [assign, wp_modify]
      exact ⟨rfl, Or.inr ⟨epoch, isEpoch, rfl⟩, id⟩
  · refine wp_mono (claims_applyMsg source msg st) ?_
    rintro final _ _ ⟨epochs, correct, target⟩
    exact ⟨correct, Or.inl epochs, target⟩

theorem wp_tick_claims (st : TrackerState) : wp tick st fun final _ _ =>
    final.tracker.maxEpochs = st.tracker.maxEpochs ∧
    final.tracker.maxCorrectEpoch = correctEpoch st.tracker.networkConfig
      (st.tracker.maxEpochs.entries.map Sigma.snd) st.tracker.maxCorrectEpoch ∧
    (st.tracker.currentEpoch ≠ none → final.tracker.currentEpoch ≠ none) := by
  unfold tick
  rw [wp_bind, assign, wp_modify]
  exact has_bind claims_giveUp (fun _ => claims_onTarget _) _

end EpochTracker

/-! ### The checkpoint tracker -/

namespace CheckpointTracker

theorem wp_garbageCollect_window (st : CpState) :
    wp garbageCollect st fun final _ _ => final.ct.activeCheckpoints ≠ [] := by
  refine wp_mono (wp_garbageCollect (I := fun ct => ct.activeCheckpoints ≠ []) ?_
    (wp_drainBuffer (I := fun ct => ct.activeCheckpoints ≠ []) ?_ fun _ _ => id) fun _ => id)
    fun _ _ _ done => done.1
  · intro _ _ slid
    obtain ⟨_, _, rfl, _⟩ := extend_eq_ok slid.2
    exact List.cons_ne_nil _ _
  · intro _ _ _ _ _ _ window _ _ vote
    rwa [vote.same.1]

theorem wp_reinitialize_window (st : CpState) :
    wp CheckpointTracker.reinitialize st fun final _ _ => final.ct.activeCheckpoints ≠ [] :=
  wp_reinitialize (I := fun _ => True) (J := fun _ => True) (P := fun ct => ct.activeCheckpoints ≠ [])
    (fun _ _ _ _ _ _ => trivial) (fun _ _ _ _ _ _ _ _ => trivial) fun _ _ _ => wp_garbageCollect_window _

theorem wp_step_window (source : NodeID) (seqNo : Nat) (value : Bytes) (st : CpState) :
    wp (step source (.checkpoint seqNo value)) st fun final _ _ =>
      final.ct.activeCheckpoints = st.ct.activeCheckpoints :=
  wp_step (P := fun ct => ct.activeCheckpoints = st.ct.activeCheckpoints) (fun _ _ _ => rfl)
    (fun _ _ _ _ vote => vote.same.1) fun _ _ _ _ _ _ vote => vote.same.1

end CheckpointTracker

/-! ### The machine -/

/-- **A machine at work**: it has a current epoch and a window of checkpoints. -/
structure SmState.Running (st : SmState) : Prop where
  epoch : st.tracker.currentEpoch ≠ none
  window : st.checkpointTracker.activeCheckpoints ≠ []

/-- **The effect of what does not touch the nodes' claims**. -/
structure SmState.Kept (before after : SmState) : Prop where
  epochs : after.tracker.maxEpochs = before.tracker.maxEpochs
  correct : after.tracker.maxCorrectEpoch = before.tracker.maxCorrectEpoch
  epoch : before.tracker.currentEpoch ≠ none → after.tracker.currentEpoch ≠ none

theorem SmState.Kept.trans {first second third : SmState} (one : first.Kept second)
    (two : second.Kept third) : first.Kept third :=
  ⟨two.epochs.trans one.epochs, two.correct.trans one.correct, two.epoch ∘ one.epoch⟩

def SmKeeps : Effect SmState Action where
  rel before after _ := before.Kept after
  refl _ := ⟨rfl, rfl, id⟩
  trans := SmState.Kept.trans

namespace SmState

variable {α : Type}

theorem keeps_onShared (method : GoProc Shared α) : Has SmKeeps (onShared method) := by
  intro st
  rw [onShared, wp_zoom]
  exact fun _ _ _ _ => ⟨rfl, rfl, id⟩

theorem keeps_onTracker {method : GoProc TrackerState α} (keeps : Has KeepsClaims method) :
    Has SmKeeps (onTracker method) := by
  intro st
  rw [onTracker, wp_zoom]
  refine wp_mono (keeps _) ?_
  rintro inner _ _ ⟨epochs, correct, target⟩
  exact ⟨epochs, correct, target⟩

theorem keeps_onCheckpoints (method : GoProc CpState α) : Has SmKeeps (onCheckpoints method) := by
  intro st
  rw [onCheckpoints, wp_zoom]
  exact fun _ _ _ _ => ⟨rfl, rfl, id⟩

theorem keeps_onBatches (update : BatchTracker → Go BatchTracker) : Has SmKeeps (onBatches update) :=
  has_bind has_get fun _ => has_bind (has_lift _) fun _ => keeps_onShared _

theorem keeps_emit (actions : List Action) : Has SmKeeps (emit actions : GoProc SmState Unit) := by
  intro st
  rw [wp_emit]
  exact ⟨rfl, rfl, id⟩

/-- **An initialization sets the machine to work**, and keeps what the nodes claim. -/
theorem wp_reinitialize_running (st : SmState) : wp reinitialize st fun final _ _ =>
    final.Running ∧ st.Kept final := by
  have settles : wp reinitialize st fun final _ _ => final.tracker.currentEpoch ≠ none ∧ st.Kept final := by
    refine wp_get_bind ?_
    rw [wp_bind]
    refine wp_mono (has_recoverLog (fun _ => keeps_onShared _) none st.sh.persisted.entries st)
      fun recovered _ _ atFirst => ?_
    rw [wp_bind]
    refine wp_mono (keeps_onShared Shared.reinitialize recovered) fun shared _ _ next => ?_
    rw [wp_bind]
    refine wp_mono (keeps_onCheckpoints _ _) fun inner _ _ moved => ?_
    refine wp_get_bind ?_
    rw [wp_bind]
    refine wp_mono (keeps_onBatches _ _) fun batched _ _ later => ?_
    rw [onTracker, wp_zoom]
    refine wp_mono (EpochTracker.settles_reinitialize _) ?_
    rintro last _ _ ⟨⟨epochs, correct, _⟩, target⟩
    exact ⟨target, (((SmState.Kept.trans atFirst next).trans moved).trans later).trans
      ⟨epochs, correct, fun _ => target⟩⟩
  refine wp_mono (wp_and settles (wp_reinitialize_checkpoints (P := fun ct => ct.activeCheckpoints ≠ [])
    fun sh _ => CheckpointTracker.wp_reinitialize_window _)) ?_
  rintro final _ _ ⟨⟨target, kept⟩, window⟩
  exact ⟨⟨target, window⟩, kept⟩

theorem keeps_processHashResult (digest : Bytes) (origin : HashOrigin) :
    Has SmKeeps (processHashResult digest origin) := by
  refine has_processHashResult (fun _ _ => keeps_onBatches _)
    (fun _ _ => keeps_onTracker (claims_applyBatchHashResult _ _ _))
    (fun _ _ _ => keeps_onTracker (claims_applyEpochChangeDigest _ _ _ _))
    (has_bind has_get fun _ => ?_) origin
  split
  · exact has_fail _
  · exact has_ite (keeps_onTracker (claims_onTarget _)) (has_pure ())

theorem keeps_completeTransfer (seqNo : Nat) (value : Bytes) (networkState : NetworkState) :
    Has SmKeeps (completeTransfer seqNo value networkState) := by
  refine has_bind has_get fun st => has_ite (has_fail _) (has_bind (keeps_onShared _) fun _ => ?_)
  exact fun st => wp_mono (wp_reinitialize_running st) fun _ _ _ done => done.2

theorem keeps_collectGarbage : Has SmKeeps collectGarbage := by
  refine has_bind has_get fun st => has_ite ?_ (has_pure ())
  exact has_bind (keeps_onCheckpoints _) fun newLow => has_bind (keeps_onShared _) fun _ =>
    has_bind (keeps_onBatches _) fun _ => keeps_onTracker (claims_onTarget _)

/-- **What an event does to the claims.** -/
def ClaimsMove (st : SmState) (event : Event) (final : SmState) : Prop :=
  match event with
  | .tickElapsed => final.tracker.maxEpochs = st.tracker.maxEpochs ∧
      final.tracker.maxCorrectEpoch = EpochTracker.correctEpoch st.tracker.networkConfig
        (st.tracker.maxEpochs.entries.map Sigma.snd) st.tracker.maxCorrectEpoch
  | .step source msg => final.tracker.maxCorrectEpoch = st.tracker.maxCorrectEpoch ∧
      (final.tracker.maxEpochs = st.tracker.maxEpochs ∨ ∃ epoch, epochForMsg msg = .ok epoch ∧
        final.tracker.maxEpochs = st.tracker.maxEpochs.insert source
          (max ((st.tracker.maxEpochs.lookup source).getD 0) epoch))
  | _ => final.tracker.maxEpochs = st.tracker.maxEpochs ∧
      final.tracker.maxCorrectEpoch = st.tracker.maxCorrectEpoch

variable {event : Event}

theorem ClaimsMove.of_kept {st final : SmState} (kept : st.Kept final)
    (notTick : event ≠ .tickElapsed) : st.ClaimsMove event final := by
  cases event with
  | tickElapsed => exact absurd rfl notTick
  | step source msg => exact ⟨kept.correct, Or.inl kept.epochs⟩
  | _ => exact ⟨kept.epochs, kept.correct⟩

theorem ClaimsMove.kept {st mid final : SmState} (moved : st.ClaimsMove event mid)
    (kept : mid.Kept final) : st.ClaimsMove event final := by
  unfold ClaimsMove at moved ⊢
  rw [kept.epochs, kept.correct]
  exact moved

variable {st : SmState}

theorem wp_step_claims (source : NodeID) (msg : Msg) (epoch : st.tracker.currentEpoch ≠ none) :
    wp (step source msg) st fun final _ _ =>
      final.tracker.currentEpoch ≠ none ∧ st.ClaimsMove (.step source msg) final := by
  have of_keeps {method : GoProc SmState Unit} (keeps : Has SmKeeps method) : wp method st fun final _ _ =>
      final.tracker.currentEpoch ≠ none ∧ st.ClaimsMove (.step source msg) final :=
    wp_mono (keeps st) fun _ _ _ kept => ⟨kept.epoch epoch, .of_kept kept (by simp)⟩
  unfold step
  split
  · exact of_keeps (keeps_onShared _)
  · exact of_keeps (keeps_onShared _)
  · exact of_keeps (keeps_onShared _)
  · exact of_keeps (keeps_onCheckpoints _)
  · exact of_keeps (has_bind has_get fun _ => has_bind (has_lift _) fun _ => keeps_emit _)
  · exact of_keeps (has_bind has_get fun _ => has_bind (has_lift _) fun _ => keeps_emit _)
  · rw [onTracker, wp_zoom]
    refine wp_mono (EpochTracker.wp_step_claims source msg _) ?_
    rintro final _ _ ⟨correct, epochs, target⟩
    exact ⟨target epoch, correct, epochs⟩

theorem wp_handle_claims (event : Event) (epoch : st.tracker.currentEpoch ≠ none) :
    wp (handle event) st fun final _ _ => final.tracker.currentEpoch ≠ none ∧ st.ClaimsMove event final := by
  have of_keeps {method : GoProc SmState Unit} (notTick : event ≠ .tickElapsed) (keeps : Has SmKeeps method) :
      wp method st fun final _ _ => final.tracker.currentEpoch ≠ none ∧ st.ClaimsMove event final :=
    wp_mono (keeps st) fun _ _ _ kept => ⟨kept.epoch epoch, .of_kept kept notTick⟩
  unfold handle
  split
  · rw [wp_bind, onShared, wp_zoom]
    intro clients _ _ _
    rw [onTracker, wp_zoom]
    refine wp_mono (wp_tick_claims _) ?_
    rintro final _ _ ⟨epochs, correct, target⟩
    exact ⟨target epoch, epochs, correct⟩
  · exact wp_step_claims _ _ epoch
  · exact of_keeps (by simp) (keeps_processHashResult _ _)
  · exact of_keeps (by simp) (has_processCheckpointResult (keeps_onShared _))
  · exact of_keeps (by simp) (keeps_onShared _)
  · exact wp_fail _ _ _
  · exact of_keeps (by simp) (keeps_completeTransfer _ _ _)
  · exact wp_fail _ _ _

/-- **A machine at work stays at work**, and the claims change with messages and ticks only. -/
theorem wp_applyEvent_running (fuel : Nat) (event : Event) (running : st.Running) :
    wp (applyEvent fuel event) st fun final _ _ => final.Running ∧ st.ClaimsMove event final := by
  have claims : wp (applyEvent fuel event) st fun final _ _ =>
      final.tracker.currentEpoch ≠ none ∧ st.ClaimsMove event final := by
    unfold applyEvent
    rw [wp_bind]
    refine wp_mono (wp_handle_claims event running.epoch) fun mid _ _ ⟨epoch, moved⟩ => ?_
    have rest : Has SmKeeps (do collectGarbage; advance fuel) :=
      has_bind keeps_collectGarbage fun _ =>
        has_advance (keeps_onShared _) (keeps_onTracker claims_advanceState) fuel
    exact wp_mono (rest mid) fun final _ _ kept => ⟨kept.epoch epoch, moved.kept kept⟩
  have handled : wp (handle event) st fun final _ _ => final.checkpointTracker.activeCheckpoints ≠ [] := by
    refine wp_handle_checkpoints (P := fun ct => ct.activeCheckpoints ≠ []) (fun _ => running.window)
      (fun source seqNo value _ => ?_) fun _ _ _ _ _ _ => CheckpointTracker.wp_reinitialize_window _
    refine wp_mono (CheckpointTracker.wp_step_window source seqNo value _) fun _ _ _ same => ?_
    rw [same]
    exact running.window
  refine wp_mono (wp_and claims (wp_applyEvent_checkpoints
    (I := fun ct => ct.activeCheckpoints ≠ []) fuel handled
    (fun ct sh _ _ => CheckpointTracker.wp_garbageCollect_window _) fun _ window _ => window)) ?_
  exact fun final _ _ ⟨⟨epoch, moved⟩, window⟩ => ⟨⟨epoch, window⟩, moved⟩

end SmState

/-- **An initialized machine is at work**, whatever was loaded and whatever has happened. -/
theorem MachineRun.running {st : SmState} (run : MachineRun condition events (.initialized st)) :
    st.Running := by
  refine run.initialized (fun _ st => st.Running) ?_ (fun _ _ => id) ?_
  · intro _ my p orders st actions _ ran
    exact (SmState.wp_reinitialize_running _ _ _ _ ran).1
  · intro _ st st' event fuel orders actions running _ ran
    have ready : SmState.Running { st with sh := { st.sh with orders } } :=
      ⟨running.epoch, running.window⟩
    exact (SmState.wp_applyEvent_running fuel event ready _ _ _ ran).1

/-! ### Runs that are executed -/

/-- The events one after the other, as long as they pass the check. -/
def StateMachine.executeChecked (check : StateMachine → Event → Bool) (fuel : Nat)
    (orders : Nat → MapIter) : List Event → StateMachine → Option StateMachine
  | [], machine => some machine
  | event :: rest, machine =>
    if check machine event then match machine.applyEvent fuel orders event with
      | .ok (machine, _) => executeChecked check fuel orders rest machine
      | .error _ => none
    else none

theorem MachineRun.of_executeChecked {check : StateMachine → Event → Bool}
    (sound : ∀ machine event, check machine event = true → condition machine event) {fuel : Nat}
    {orders : Nat → MapIter} {earlier : List Event} {machine result : StateMachine}
    (run : MachineRun condition earlier machine)
    (executed : StateMachine.executeChecked check fuel orders events machine = some result) :
    MachineRun condition (earlier ++ events) result := by
  induction events generalizing earlier machine with
  | nil =>
    cases executed
    rwa [List.append_nil]
  | cons event rest ih =>
    unfold StateMachine.executeChecked at executed
    split at executed
    · rename_i passed
      split at executed
      · rename_i machine' actions applied
        have whole := ih (run.event fuel orders (sound _ _ passed) applied) executed
        rwa [List.append_assoc] at whole
      · cases executed
    · cases executed

/-- The events lead to an initialized machine with a property that can be evaluated. -/
def StateMachine.reaches (check : StateMachine → Event → Bool) (fuel : Nat) (events : List Event)
    (property : SmState → Prop) [DecidablePred property] : Bool :=
  (executeChecked check fuel (fun _ => .inOrder) events .uninitialized).any fun machine => match machine with
    | .initialized st => decide (property st)
    | _ => false

/-- **A run that was executed** meets a condition that was checked on the way. -/
theorem MachineRun.exists_of_executed {condition : StateMachine → Event → Prop}
    {check : StateMachine → Event → Bool}
    (sound : ∀ machine event, check machine event = true → condition machine event) (fuel : Nat)
    (events : List Event) (property : SmState → Prop) [DecidablePred property]
    (evaluated : StateMachine.reaches check fuel events property = true) :
    ∃ st, MachineRun condition events (.initialized st) ∧ property st := by
  obtain ⟨machine, executed, holds⟩ := (Option.any_eq_true _ _).mp evaluated
  have run := MachineRun.of_executeChecked sound .start executed
  cases machine with
  | initialized st => exact ⟨st, run, of_decide_eq_true holds⟩
  | uninitialized => cases holds
  | loadingPersisted _ _ => cases holds

theorem MachineRun.exists_of_evaluated (fuel : Nat) (events : List Event) (property : SmState → Prop)
    [DecidablePred property]
    (evaluated : StateMachine.reaches (fun _ _ => true) fuel events property = true) :
    ∃ st, MachineRun (fun _ _ => True) events (.initialized st) ∧ property st :=
  exists_of_executed (fun _ _ _ => trivial) fuel events property evaluated

theorem NewNode.initialized : ∃ st, MachineRun (fun _ _ => True) NewNode.events (.initialized st) := by
  obtain ⟨st, run, _⟩ := MachineRun.exists_of_evaluated 10 events (fun _ => True) (by decide +kernel)
  exact ⟨st, run⟩

end MirBft
