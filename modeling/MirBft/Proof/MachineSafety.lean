/-
**The invariants of the epoch target along a run of the machine.**

A target is made by an epoch change or resumed from the log. The first holds all its data, and it
starts from a commit state with nothing to drain: `advanceState` waits for a checkpoint that was
asked for. What the log leads to is decided where the machine is initialized (`Startable`), from the
log that `recoverLog` leaves.

* `MachineRun.good`: in every run whose events meet the conditions, the target of every state is at
  rest, and the next event fails only as permitted, or for want of fuel.
-/

import MirBft.Proof.MachineRuns
import MirBft.Proof.TargetSafety

namespace MirBft

open Proc EpochTarget CommitState

/-! ### What the log leads to -/

/-- The log that `recoverLog` leaves. -/
def recovered (lastCEntry : Option CEntry) (p : Persisted) : List Persistent → Persisted
  | [] => p
  | .cEntry entry :: rest => recovered (some entry) p rest
  | .fEntry _ :: rest => match lastCEntry with
    | none => p
    | some entry => recovered lastCEntry (p.truncate entry.seqNo).1 rest
  | _ :: rest => recovered lastCEntry p rest

/-- The entries a machine starts from. -/
def startingLog (p : Persisted) : List Persistent := (recovered none p p.entries).entries

/-- **The conditions of a start**: whether an epoch is resumed, and no checkpoint is asked for
again. -/
structure Startable (terms : Terms) (p : Persisted) : Prop where
  epoch : (activeEntry (startingLog p)).isSome = true → terms.resumed
  once : terms.exclusive → ¬ CommitState.RequestsAgain (startingLog p)

variable {terms : Terms} {events : List Event}

namespace TrackerState

/-- **The target of the tracker is at rest.** -/
def Good (terms : Terms) (st : TrackerState) : Prop :=
  ∀ target, st.tracker.currentEpoch = some target →
    EtState.AtRest terms ⟨target, st.sh⟩

end TrackerState

namespace EpochTracker

open TrackerState (Good)

variable {st : TrackerState} {α : Type} {method : GoProc EtState α}

theorem good_same {final : TrackerState} (good : st.Good terms)
    (sameTarget : final.tracker.currentEpoch = st.tracker.currentEpoch)
    (sameCommits : final.sh.commitState = st.sh.commitState) : final.Good terms := by
  intro target isTarget
  have rest := good target (sameTarget ▸ isTarget)
  exact atRest_same rest rfl sameCommits

theorem safe_onTarget_at (inner : ∀ target, st.tracker.currentEpoch = some target →
      safe (Permitted terms) method ⟨target, st.sh⟩ fun final _ _ =>
        final.AtRest terms) :
    safe (Permitted terms) (onTarget method) st fun final _ _ =>
      final.Good terms := by
  refine safe_bind (safe_get_bind ?_)
  split
  · exact safe_other (by simp)
  · rename_i target isTarget
    refine safe_pure (safe_zoom (safe_mono (inner target isTarget) ?_))
    intro final _ _ rest other isOther
    cases isOther
    exact rest

theorem maintains_onTarget (inner : ∀ {et : EtState}, et.AtRest terms →
      safe (Permitted terms) method et fun final _ _ => final.AtRest terms) :
    Maintains (Permitted terms) (Good terms) (onTarget method) :=
  fun _ good => safe_onTarget_at fun target isTarget => inner (good target isTarget)

theorem epochForMsg_elsewhere (msg : Msg) : FailsOnly Elsewhere (epochForMsg msg) := by
  cases msg
  case checkpoint | fetchBatch | forwardBatch | fetchRequest | forwardRequest | requestAck =>
    exact .throw (by simp)
  all_goals exact .pure _

theorem filter_elsewhere (st : TrackerState) (source : NodeID) (msg : Msg) :
    FailsOnly Elsewhere (filter st source msg) := by
  refine .bind (epochForMsg_elsewhere msg) fun _ _ => ?_
  split
  · exact .throw (by simp)
  · exact .pure_else <| .pure_else (.pure _)

theorem maintains_assign {update : EpochTracker → EpochTracker}
    (same : ∀ tracker, (update tracker).currentEpoch = tracker.currentEpoch) :
    Maintains (Permitted terms) (Good terms) (assign update) :=
  maintains_modify fun st good => good_same good (same st.tracker) rfl

theorem maintains_applyMsg (source : NodeID) (msg : Msg) :
    Maintains (Permitted terms) (Good terms) (applyMsg source msg) := by
  cases msg with
  | preprepare _ _ _ | prepare _ _ _ | commit _ _ _ =>
    exact maintains_onTarget (safe_step source _)
  | suspect _ => exact maintains_onTarget (safe_applySuspectMsg source)
  | epochChange change =>
    exact maintains_onTarget fun rest =>
      safe_rest rest (quiet_applyEpochChangeMsg source change).untouched
  | epochChangeAck originator change =>
    exact maintains_onTarget fun rest =>
      safe_rest rest (quiet_applyEpochChangeAckMsg source originator change).untouched
  | newEpoch newEpoch =>
    exact maintains_get_bind fun _ => maintains_ite (maintains_pure _)
      (maintains_onTarget (safe_applyNewEpochMsg newEpoch))
  | newEpochEcho config => exact maintains_onTarget (safe_applyNewEpochEchoMsg source config)
  | newEpochReady config => exact maintains_onTarget (safe_applyNewEpochReadyMsg source config)
  | _ => exact maintains_fail (Elsewhere.permitted (by simp))

theorem maintains_step (source : NodeID) (msg : Msg) :
    Maintains (Permitted terms) (Good terms) (step source msg) := by
  refine maintains_get_bind fun st => maintains_lift_bind (epochForMsg_elsewhere msg).permitted fun _ =>
    maintains_lift_bind (filter_elsewhere _ _ _).permitted fun applyable => ?_
  cases applyable with
  | past | invalid => exact maintains_pure _
  | current => exact maintains_applyMsg source msg
  | future =>
    refine maintains_get_bind fun st => ?_
    split
    · exact maintains_fail (Elsewhere.permitted (by simp))
    · exact maintains_assign fun _ => rfl

theorem maintains_drainFutures :
    Maintains (Permitted terms) (Good terms) drainFutures := by
  refine maintains_get_bind fun st => maintains_forEach fun id _ => maintains_get_bind fun st => ?_
  split
  · exact maintains_fail (Elsewhere.permitted (by simp))
  · exact maintains_bind (MsgBuffer.maintains_iterate
      (fun st id msg => (filter_elsewhere st id msg).permitted)
      maintains_applyMsg _) fun _ => maintains_assign fun _ => rfl

theorem maintains_onLog {method : Persisted → Go (Persisted × List Action)}
    (fails : ∀ p, FailsOnly Elsewhere (method p)) :
    Maintains (Permitted terms) (Good terms) (onShared (Shared.onLog method)) := by
  intro st good
  have kept : Maintains Elsewhere (Shared.CommitsAre st.sh.commitState) (Shared.onLog method) :=
    Shared.keeps_onLog fails
  refine safe_zoom (safe_mono (safe_weaken (kept st.sh rfl) fun _ isOther => isOther.permitted) ?_)
  intro final _ _ same
  exact good_same good rfl same

/-- **The target of an epoch change** holds its data, and starts from a settled commit state. -/
theorem safe_changeTo (number : Nat) (leaders : List NodeID)
    (settled : terms.exclusive → st.sh.commitState.Settled) :
    safe (Permitted terms) (changeTo number leaders) st fun final _ _ =>
      final.Good terms := by
  refine safe_get_bind (safe_lift_bind (st.sh.persisted.constructEpochChange_elsewhere number).permitted
    fun change _ => ?_)
  split
  · exact safe_other (by simp)
  · refine safe_bind (safe_modify (safe_pure ?_))
    intro target isTarget
    cases isTarget
    refine ⟨good_at .prepending rfl ⟨rfl, trivial⟩ fun holds => ⟨fun _ => settled holds, ?_⟩,
      (nomatch ·)⟩
    exact fun _ => ⟨settled holds, .inl (by decide)⟩

theorem safe_continueChange (number : Nat) (good : st.Good terms)
    (settled : terms.exclusive → st.sh.commitState.Settled) :
    safe (Permitted terms) (continueChange number) st fun final _ _ =>
      final.Good terms := by
  refine safe_get_bind (safe_ite (fun _ => ?_) fun _ => safe_bind ?_)
  · exact maintains_onTarget (fun rest => safe_advanceState rest.good) st good
  · refine safe_mono (safe_changeTo number _ settled) ?_
    intro changed _ _ changedGood
    exact maintains_drainFutures changed changedGood

theorem safe_resume (nEntry : NEntry) (highestPreprepared : Nat) (mayBe : terms.resumed)
    (settled : terms.exclusive → st.sh.commitState.Settled) :
    safe (Permitted terms) (resume nEntry highestPreprepared) st fun final _ _ =>
      final.Good terms := by
  refine safe_get_bind ?_
  dsimp only
  split
  · exact safe_other (by simp)
  · refine safe_bind (safe_modify ?_)
    refine maintains_bind (maintains_onLog fun p => p.appendLogEntry_elsewhere _) (fun _ => maintains_emit _)
      _ ?_
    intro target isTarget
    cases isTarget
    refine ⟨⟨.inr ⟨mayBe, rfl, rfl, .inl rfl⟩, fun holds => ⟨fun early => ?_, ?_⟩⟩, (nomatch ·)⟩
    · exact absurd (show EpochTargetState.rank .resuming ≤ EpochTargetState.rank .readying from early)
        (by decide)
    · exact fun _ => ⟨settled holds, .inr (.inr ⟨rfl, rfl, .inl rfl⟩)⟩

theorem check_elsewhere (last : LastEntries) : FailsOnly Elsewhere last.check := by
  unfold LastEntries.check
  split
  · exact .throw_else (by simp) <| .pure _
  · exact .throw (by simp)
  · exact .pure _

/-- **`reinitialize`** of the tracker, from a settled commit state. -/
theorem reinitialize_safe (good : st.Good terms)
    (resumes : (activeEntry st.sh.persisted.entries).isSome = true → terms.resumed)
    (settled : terms.exclusive → st.sh.commitState.Settled) :
    safe (Permitted terms) reinitialize st fun final _ _ =>
      final.Good terms := by
  refine safe_get_bind (safe_bind (safe_modify (safe_lift_bind (check_elsewhere _).permitted fun _ _ => ?_)))
  have started : Good terms { st with tracker := { st.tracker with
      networkConfig := st.sh.commitState.activeState.config
      futureMsgs := reinitializeBuffers ⟨st.tracker.myConfig⟩ st.tracker.futureMsgs
        st.sh.commitState.activeState.config.nodes } } := good_same good rfl rfl
  change safe _ (resumeFrom (lastEntries st.sh.persisted.entries)) _ _
  unfold resumeFrom
  split
  · rename_i nEntry isActive
    have mayBe : terms.resumed := resumes (by rw [activeEntry, isActive]; rfl)
    exact safe_bind (safe_mono (safe_resume nEntry _ mayBe settled) fun mid _ _ midGood =>
      maintains_drainFutures mid midGood)
  · split
    · rename_i endsEpochConfig _
      have kept : Maintains Elsewhere (Shared.CommitsAre st.sh.commitState)
          (Shared.onLog fun p => p.addECEntry (endsEpochConfig.number + 1)) :=
        Shared.keeps_onLog fun p => p.appendLogEntry_elsewhere _
      refine safe_bind (safe_zoom (safe_mono (safe_weaken (kept st.sh rfl)
        fun _ isOther => isOther.permitted) ?_))
      intro logged _ _ same
      exact safe_continueChange _ (good_same started rfl same) (same.symm ▸ settled)
    · split
      · exact safe_continueChange _ started settled
      · exact safe_other (by simp)

/-- **`advanceState`** of the tracker, after a drain. -/
theorem safe_advanceState (good : st.Good terms)
    (drained : terms.exclusive → st.sh.commitState.checkpointPending = false → st.sh.commitState.Settled) :
    safe (Permitted terms) advanceState st fun final _ _ =>
      final.Good terms := by
  refine safe_get_bind (safe_bind (safe_get_bind ?_))
  split
  · exact safe_other (by simp)
  refine safe_pure (safe_ite (fun _ => ?_) fun _ => safe_ite (fun _ => safe_pure good) fun notPending => ?_)
  · exact maintains_onTarget (fun rest => EpochTarget.safe_advanceState rest.good) st good
  have settled (holds : terms.exclusive) : st.sh.commitState.Settled :=
    drained holds (by simpa using notPending)
  refine safe_bind (safe_mono (safe_changeTo _ _ settled) ?_)
  intro changed _ change changedGood
  exact maintains_bind (maintains_onLog fun p => p.appendLogEntry_elsewhere _)
    (fun _ => maintains_bind (maintains_emit _) fun _ => maintains_drainFutures) changed changedGood

theorem maintains_applyBatchHashResult (epoch seqNo : Nat) (digest : Bytes) :
    Maintains (Permitted terms) (Good terms)
      (applyBatchHashResult epoch seqNo digest) := by
  intro st good
  refine safe_bind (safe_get_bind ?_)
  split
  · exact safe_other (by simp)
  rename_i target isTarget
  refine safe_pure (safe_ite (fun _ => safe_pure good) fun current => safe_onTarget_at ?_)
  intro other isOther
  have same : target = other := Option.some.inj (isTarget.symm.trans isOther)
  subst same
  have isProgress : target.state = .inProgress := by
    by_contra notProgress
    exact current (.inr notProgress)
  refine safe_mono (safe_inProgress
    (fun _ => (ActiveEpoch.regular_applyBatchHashResult seqNo digest).maintains)
    (good target isTarget).good isProgress) ?_
  rintro final _ _ ⟨finallyGood, isFinal⟩
  exact ⟨finallyGood, by simp [isFinal]⟩

theorem maintains_applyEpochChangeDigest (source origin : NodeID) (change : EpochChange)
    (digest : Bytes) : Maintains (Permitted terms) (Good terms)
    (applyEpochChangeDigest source origin change digest) := by
  intro st good
  refine safe_bind (safe_get_bind ?_)
  split
  · exact safe_other (by simp)
  refine safe_pure (safe_ite (fun _ => safe_pure good) fun _ =>
    safe_ite (fun _ => safe_other (by simp)) fun _ => ?_)
  exact maintains_onTarget (safe_applyEpochChangeDigest source origin change digest) st good

theorem maintains_tick : Maintains (Permitted terms) (Good terms) tick := by
  refine maintains_bind (maintains_assign fun _ => rfl) fun _ => maintains_bind ?_ fun _ =>
    maintains_onTarget safe_tick
  intro st good
  refine safe_get_bind (safe_bind (safe_get_bind ?_))
  split
  · exact safe_other (by simp)
  refine safe_pure (safe_ite (fun _ => ?_) fun _ => safe_pure good)
  refine safe_bind (safe_modify (safe_ite (fun _ => ?_) fun _ => safe_pure (good_same good rfl rfl)))
  refine maintains_onTarget (fun rest => ?_) _ (good_same good rfl rfl)
  exact safe_modify (atRest_done rest.good rfl rfl rfl rfl rfl)

end EpochTracker

/-! ### The machine -/

theorem CommitState.applyCheckpointResult_transferring {cs after : CommitState} {p persisted : Persisted}
    {seqNo : Nat} {value : Bytes} {networkState : NetworkState} {actions : List Action}
    (applied : cs.applyCheckpointResult p seqNo value networkState = .ok (after, persisted, actions)) :
    after.transferring = cs.transferring := by
  unfold CommitState.applyCheckpointResult at applied
  by_cases isSo : cs.transferring = true
  · rw [if_pos isSo] at applied
    cases applied
    rfl
  rw [if_neg isSo] at applied
  by_cases stale : seqNo ≠ cs.lowWatermark + cs.checkpointInterval
  · rw [if_pos stale] at applied
    cases applied
  rw [if_neg stale] at applied
  obtain ⟨⟨_, _⟩, _, returned⟩ := bind_eq_ok.mp applied
  cases returned
  rfl

namespace SmState

/-- **The target of the machine is at rest.** -/
def Good (terms : Terms) (st : SmState) : Prop :=
  TrackerState.Good terms ⟨st.tracker, st.sh⟩

variable {st : SmState} {α : Type}

theorem maintains_onTracker {method : GoProc TrackerState α}
    (inner : Maintains (Permitted terms) (TrackerState.Good terms) method) :
    Maintains (Permitted terms) (Good terms) (onTracker method) :=
  maintains_zoom inner (fun _ good => good) fun _ _ _ good => good

theorem maintains_onShared {method : GoProc Shared α}
    (inner : ∀ cs, Maintains Elsewhere (Shared.CommitsAre cs) method) :
    Maintains (Permitted terms) (Good terms) (onShared method) := by
  intro st good
  refine safe_zoom (safe_mono (safe_weaken (inner _ st.sh rfl) fun _ isOther => isOther.permitted) ?_)
  intro final _ _ same
  exact EpochTracker.good_same good rfl same

theorem maintains_onCheckpoints {method : GoProc CpState α} (silent : Keeps CpSilent method) :
    Maintains (Permitted terms) (Good terms) (onCheckpoints method) := by
  intro st good
  refine safe_zoom (safe_mono (safe_weaken (silent ⟨st.checkpointTracker, st.sh⟩)
    fun _ isOther => isOther.permitted) ?_)
  intro final _ _ silently
  exact EpochTracker.good_same good rfl (CpSilent.same silently).1

theorem maintains_onBatches {update : BatchTracker → Go BatchTracker}
    (fails : ∀ batches, FailsOnly Elsewhere (update batches)) :
    Maintains (Permitted terms) (Good terms) (onBatches update) :=
  maintains_get_bind fun st => maintains_lift_bind (fails st.sh.batchTracker).permitted fun _ =>
    maintains_onShared fun _ => maintains_modify fun _ holds => holds

theorem maintains_onClients {method : GoProc Clients α} (plain : Keeps (Plain Clients) method) :
    Maintains (Permitted terms) (Good terms)
      (onShared (Shared.onClients method)) :=
  maintains_onShared fun _ => Shared.keeps_onClients plain

theorem maintains_step (source : NodeID) (msg : Msg) :
    Maintains (Permitted terms) (Good terms) (step source msg) := by
  cases msg with
  | requestAck _ | fetchRequest _ | forwardRequest _ _ =>
    exact maintains_onClients (Clients.plain_step source _)
  | checkpoint _ _ => exact maintains_onCheckpoints (CheckpointTracker.silent_step source _)
  | fetchBatch _ _ | forwardBatch _ _ _ =>
    exact maintains_get_bind fun st => maintains_lift_bind
      (st.sh.batchTracker.step_elsewhere source _).permitted fun _ => maintains_emit _
  | _ => exact maintains_onTracker (EpochTracker.maintains_step source _)

theorem maintains_refetch :
    Maintains (Permitted terms) (Good terms) refetch := by
  intro st good
  refine safe_get_bind ?_
  split
  · exact safe_other (by simp)
  rename_i target isTarget
  refine safe_ite (fun condition => safe_zoom (EpochTracker.safe_onTarget_at ?_)) fun _ => safe_pure good
  intro other isOther
  have same : target = other := Option.some.inj (isTarget.symm.trans isOther)
  subst same
  refine safe_mono (safe_fetchNewEpochState (good target isTarget).good condition.2) ?_
  rintro final _ _ ⟨finallyGood, isFinal | isFinal⟩
  · exact ⟨finallyGood, by simp [isFinal]⟩
  · exact ⟨finallyGood, by simp [isFinal]⟩

theorem maintains_processHashResult (digest : Bytes) (origin : HashOrigin) :
    Maintains (Permitted terms) (Good terms)
      (processHashResult digest origin) := by
  cases origin with
  | batch _ epoch seqNo _ =>
    exact maintains_bind (maintains_onBatches fun _ => .pure _) fun _ =>
      maintains_onTracker (EpochTracker.maintains_applyBatchHashResult _ _ _)
  | epochChange source origin change =>
    exact maintains_onTracker (EpochTracker.maintains_applyEpochChangeDigest _ _ _ _)
  | verifyBatch _ _ _ _ =>
    exact maintains_bind (maintains_onBatches fun _ =>
      BatchTracker.applyVerifyBatchHashResult_elsewhere _ _ _ _) fun _ => maintains_refetch

theorem maintains_collectGarbage :
    Maintains (Permitted terms) (Good terms) collectGarbage := by
  refine maintains_get_bind fun st => maintains_ite ?_ (maintains_pure _)
  refine maintains_bind (maintains_onCheckpoints CheckpointTracker.silent_garbageCollect)
    fun newLow => maintains_bind (maintains_onShared fun _ => maintains_modify fun _ holds => holds) fun _ =>
    maintains_bind (maintains_onBatches fun _ => .pure _) fun _ => maintains_onTracker ?_
  exact EpochTracker.maintains_onTarget (safe_moveLowWatermark newLow)

/-! ### Starting from the log -/

theorem safe_recoverLog (lastCEntry : Option CEntry) (entries : List Persistent) (st : SmState) :
    safe Elsewhere (recoverLog lastCEntry entries) st fun final _ _ => final.tracker = st.tracker ∧
      final.sh = { st.sh with persisted := recovered lastCEntry st.sh.persisted entries } := by
  induction entries generalizing lastCEntry st with
  | nil => exact safe_pure ⟨rfl, rfl⟩
  | cons entry rest ih =>
    cases entry with
    | cEntry entry => exact ih (some entry) st
    | fEntry endsEpochConfig =>
      cases lastCEntry with
      | none => exact safe_fail (by simp)
      | some last =>
        refine safe_bind (safe_zoom (safe_get_bind (safe_lift_bind (FailsOnly.pure _) ?_)))
        intro truncated isTruncated
        rw [← pure_eq_ok.mp isTruncated]
        refine safe_bind (safe_modify (safe_emit ?_))
        exact ih (some last) _
    | _ => exact ih lastCEntry st

theorem reinitialize_safe_shared (sh : Shared) :
    safe Elsewhere Shared.reinitialize sh fun final _ _ =>
      final.myConfig = sh.myConfig ∧ final.persisted = sh.persisted ∧ ∃ actions,
        CommitState.reinitialize sh.commitState sh.persisted = .ok (final.commitState, actions) := by
  refine safe_get_bind (safe_lift_bind (reinitialize_elsewhere _ _) ?_)
  rintro ⟨commitState, actions⟩ started
  refine safe_bind (safe_modify (safe_bind (safe_emit ?_)))
  exact safe_zoom (safe_mono (Clients.plain_reinitialize _ _ _) fun _ _ _ _ => ⟨rfl, rfl, actions, started⟩)

/-- **What the epoch tracker finds** when the machine starts from the log. -/
structure Loaded (st : SmState) (found : TrackerState) : Prop where
  tracker : found.tracker = st.tracker
  parameters : found.sh.myConfig = st.sh.myConfig
  log : found.sh.persisted = recovered none st.sh.persisted st.sh.persisted.entries
  commits : ∃ actions, CommitState.reinitialize st.sh.commitState
    (recovered none st.sh.persisted st.sh.persisted.entries) = .ok (found.sh.commitState, actions)
  batches : ∀ entry, .qEntry entry ∈ startingLog st.sh.persisted →
    found.sh.batchTracker.Observes entry.digest entry.seqNo

/-- **The machine starts from the log.** -/
theorem safe_start {allowed : String → Prop} (others : ∀ failure, Elsewhere failure → allowed failure)
    {post : TrackerState → Prop} (starts : ∀ found, Loaded st found →
      safe allowed EpochTracker.reinitialize found fun final _ _ => post final) :
    safe allowed SmState.reinitialize st fun final _ _ => post ⟨final.tracker, final.sh⟩ := by
  refine safe_get_bind (safe_bind (safe_mono (safe_weaken (safe_recoverLog none _ st) others) ?_))
  rintro cut _ _ ⟨sameTracker, isCut⟩
  refine safe_bind (safe_zoom (safe_mono (safe_weaken (reinitialize_safe_shared _) others) ?_))
  rw [isCut]
  rintro shared _ _ ⟨parameters, isLog, started⟩
  refine safe_bind (safe_zoom (safe_mono
    (safe_weaken (CheckpointTracker.silent_reinitialized ⟨_, shared⟩) others) ?_))
  rintro checkpoints _ _ ⟨_, orders, isShared⟩
  refine safe_get_bind (safe_bind (safe_get_bind (safe_lift_bind (FailsOnly.pure _) fun batches reloaded =>
    safe_zoom (safe_modify (safe_zoom (starts _ ?_))))))
  rw [isShared] at reloaded ⊢
  cases reloaded
  refine ⟨sameTracker, parameters, isLog, started, fun entry inLog => ?_⟩
  refine (BatchTracker.reinitialize_tracks _ _).2 entry ?_
  rw [isLog]
  exact inLog

theorem wp_reinitialize_loaded (st : SmState) {post : TrackerState → Prop}
    (starts : ∀ found, Loaded st found → wp EpochTracker.reinitialize found fun final _ _ => post final) :
    wp SmState.reinitialize st fun final _ _ => post ⟨final.tracker, final.sh⟩ :=
  (safe_start (fun _ _ => trivial) fun found loaded => ⟨fun _ _ => trivial, starts found loaded⟩).2

/-- **The targets of a machine that starts are good**: at first, or while a state is transferred. -/
theorem reinitialize_safe (good : st.Good terms) (startable : Startable terms st.sh.persisted)
    (notPending : terms.exclusive → st.sh.commitState.checkpointPending = false)
    (transferring : terms.exclusive → st.tracker.currentEpoch ≠ none →
      st.sh.commitState.transferring = true) :
    safe (Permitted terms) SmState.reinitialize st fun final _ _ =>
      final.Good terms := by
  refine safe_start (fun _ isOther => isOther.permitted) fun found loaded => ?_
  obtain ⟨_, started⟩ := loaded.commits
  have settled (holds : terms.exclusive) : found.sh.commitState.Settled :=
    reinitialize_settled started (notPending holds) (startable.once holds)
  refine EpochTracker.reinitialize_safe ?_ (fun isActive => startable.epoch ?_) settled
  · -- The old target, if there is one, is as far as a transfer lets it be.
    intro target isTarget
    have isOld : st.tracker.currentEpoch = some target := loaded.tracker ▸ isTarget
    have rest := good target isOld
    refine ⟨⟨rest.good.kind, fun holds => ⟨fun _ => settled holds, fun _ => ⟨settled holds, ?_⟩⟩⟩, rest.begun⟩
    exact ((rest.good.transfer holds).transfers
      (transferring holds (isOld ▸ Option.some_ne_none target))).2
  · rwa [loaded.log] at isActive

/-! ### Events -/

/-- The log with one more entry. -/
def withEntry (p : Persisted) (entry : Persistent) : Persisted :=
  { nextIndex := p.nextIndex + 1, log := p.log ++ [⟨p.nextIndex, entry⟩] }

/-- **What an event has to meet**: a start from the log, and that a checkpoint result answers a
request. -/
def Meets (terms : Terms) (st : SmState) : Event → Prop
  | .stateTransferComplete seqNo checkpointValue networkState =>
    Startable terms (withEntry st.sh.persisted (.cEntry { seqNo, checkpointValue, networkState }))
  | .checkpointResult seqNo _ _ => terms.exclusive →
      st.sh.commitState.checkpointPending = true ∨ seqNo < st.sh.commitState.lowWatermark
  | _ => True

/-- While a checkpoint is asked for, nothing is transferred and no epoch change has started. -/
theorem Good.pending (good : st.Good terms) {target : EpochTarget}
    (isTarget : st.tracker.currentEpoch = some target)
    (isPending : st.sh.commitState.checkpointPending = true) (holds : terms.exclusive) :
    st.sh.commitState.transferring = false ∧
      ¬ target.state.rank ≤ EpochTargetState.rank .readying := by
  have exclusiveTarget := (good target isTarget).good.transfer holds
  constructor
  · by_contra isSo
    have settled := (exclusiveTarget.transfers (by simpa using isSo)).1
    exact Bool.false_ne_true (settled.notPending.symm.trans isPending)
  · intro early
    exact Bool.false_ne_true ((exclusiveTarget.waits early).notPending.symm.trans isPending)

theorem safe_processCheckpointResult (seqNo : Nat) (value : Bytes) (networkState : NetworkState)
    (good : st.Good terms)
    (meets : st.Meets terms (.checkpointResult seqNo value networkState)) :
    safe (Permitted terms) (processCheckpointResult seqNo value networkState) st
      fun final _ _ => final.Good terms := by
  refine safe_get_bind (safe_ite (fun _ => safe_pure good) fun notStale =>
    safe_ite (fun _ => safe_other (by simp)) fun _ => ?_)
  split
  · exact safe_other (by simp)
  have isPending (holds : terms.exclusive) : st.sh.commitState.checkpointPending = true :=
    (meets holds).resolve_right notStale
  refine safe_zoom (safe_get_bind (safe_lift_bind
    (applyCheckpointResult_elsewhere _ _ _ _ _).permitted ?_))
  rintro ⟨commitState, persisted, actions⟩ applied
  have sameTransfers := applyCheckpointResult_transferring applied
  have finallyGood (final : Shared) (same : final.commitState = commitState) :
      Good terms { st with sh := final } := by
    intro other isOther
    have rest := good other isOther
    refine ⟨⟨rest.good.kind, fun holds => ?_⟩, rest.begun⟩
    obtain ⟨alone, late⟩ := good.pending isOther (isPending holds) holds
    refine .of_alone ?_ fun early => absurd early late
    rw [same, sameTransfers, alone]
  refine safe_bind (safe_modify (safe_bind (safe_emit (safe_ite (fun _ => ?_) fun _ => ?_))))
  · refine safe_get_bind (safe_lift_bind (ClientTracker.allocate_elsewhere _ _).permitted fun tracker _ => ?_)
    refine safe_bind (safe_modify ?_)
    have kept : Maintains Elsewhere (Shared.CommitsAre commitState)
        (Shared.onClients (Clients.allocate seqNo networkState)) :=
      Shared.keeps_onClients (Clients.plain_allocate _ _)
    refine safe_mono (safe_weaken (kept _ rfl) fun _ isOther => isOther.permitted) ?_
    exact fun final _ _ same => finallyGood final same
  · exact safe_pure (finallyGood _ rfl)

theorem safe_completeTransfer (seqNo : Nat) (value : Bytes) (networkState : NetworkState)
    (good : st.Good terms) (running : st.tracker.currentEpoch ≠ none)
    (meets : st.Meets terms (.stateTransferComplete seqNo value networkState)) :
    safe (Permitted terms) (completeTransfer seqNo value networkState) st
      fun final _ _ => final.Good terms := by
  refine safe_get_bind (safe_ite (fun _ => safe_other (by simp)) fun isSo => ?_)
  have transferring : st.sh.commitState.transferring = true := by simpa using isSo
  refine safe_bind (safe_zoom (safe_get_bind (safe_lift_bind
    (st.sh.persisted.appendLogEntry_elsewhere _).permitted ?_)))
  rintro ⟨persisted, actions⟩ appended
  have isLog : persisted = withEntry st.sh.persisted
      (.cEntry { seqNo, checkpointValue := value, networkState }) := by
    change st.sh.persisted.appendLogEntry _ = _ at appended
    unfold Persisted.appendLogEntry at appended
    split at appended
    · cases appended
    · cases appended
      rfl
  refine safe_bind (safe_modify (safe_emit ?_))
  obtain ⟨target, isTarget⟩ := Option.ne_none_iff_exists'.mp running
  refine reinitialize_safe (EpochTracker.good_same good rfl rfl) ?_ (fun holds => ?_) fun _ _ => transferring
  · rw [isLog]
    exact meets
  · exact (((good target isTarget).good.transfer holds).transfers transferring).1.notPending

theorem safe_handle (event : Event) (good : st.Good terms)
    (running : st.tracker.currentEpoch ≠ none) (meets : st.Meets terms event) :
    safe (Permitted terms) (handle event) st fun final _ _ =>
      final.Good terms := by
  cases event with
  | tickElapsed =>
    exact maintains_bind (maintains_onClients Clients.plain_tick)
      (fun _ => maintains_onTracker EpochTracker.maintains_tick) st good
  | step source msg => exact maintains_step source msg st good
  | hashResult digest origin => exact maintains_processHashResult digest origin st good
  | checkpointResult seqNo value networkState =>
    exact safe_processCheckpointResult seqNo value networkState good meets
  | requestPersisted ack => exact maintains_onClients (Clients.plain_applyNewRequest ack) st good
  | stateTransferFailed _ _ => exact safe_other (by simp)
  | stateTransferComplete seqNo value networkState =>
    exact safe_completeTransfer seqNo value networkState good running meets
  | _ => exact safe_other (by simp)

/-! ### The end of an event -/

/-- The panics that remain, and the end of the fuel. -/
def PermittedOrFuel (terms : Terms) (failure : String) : Prop :=
  Permitted terms failure ∨ failure = fuelFailure

/-- **A drain** leaves a checkpoint to wait for or nothing to drain, and keeps the invariant. -/
theorem safe_drain (good : st.Good terms) :
    safe (Permitted terms) (onShared Shared.drain) st fun final _ _ =>
      final.Good terms ∧ (final.sh.commitState.checkpointPending = false →
        final.sh.commitState.Settled) := by
  refine safe_zoom (safe_get_bind (safe_lift_bind st.sh.commitState.drain_elsewhere.permitted ?_))
  rintro ⟨commitState, actions⟩ drained
  refine safe_bind (safe_modify (safe_emit ⟨?_, settled_of_drain drained⟩))
  intro target isTarget
  have rest := good target isTarget
  refine ⟨⟨rest.good.kind, fun holds => ?_⟩, rest.begun⟩
  have before := rest.good.transfer holds
  by_cases settled : st.sh.commitState.Settled
  · rw [settled.drain drained]
    exact before
  · -- Something was drained: the target is beyond its epoch change, and nothing is transferred.
    refine .of_alone ?_ fun early => absurd (before.waits early) settled
    rw [(drain_drained drained).transferring]
    by_contra isSo
    exact settled (before.transfers (by simpa using isSo)).1

theorem safe_advance (fuel : Nat) (good : st.Good terms) :
    safe (PermittedOrFuel terms) (advance fuel) st
      fun final _ _ => final.Good terms := by
  induction fuel generalizing st with
  | zero => exact safe_fail (show PermittedOrFuel terms fuelFailure from .inr rfl)
  | succ fuel ih =>
    refine safe_bind (safe_mono (safe_weaken (safe_drain good) fun _ => .inl) ?_)
    rintro drained _ _ ⟨drainedGood, settled⟩
    refine safe_bind (safe_listen (safe_zoom (safe_mono (safe_weaken
      (EpochTracker.safe_advanceState drainedGood fun _ => settled) fun _ => .inl) ?_)))
    intro inner actions _ innerGood
    exact safe_ite (fun _ => safe_pure innerGood) fun _ => ih innerGood

/-- **An event keeps the invariant**, and fails only as permitted or for want of fuel. -/
theorem safe_applyEvent (fuel : Nat) (event : Event) (good : st.Good terms)
    (running : st.tracker.currentEpoch ≠ none) (meets : st.Meets terms event) :
    safe (PermittedOrFuel terms)
      (applyEvent fuel event) st fun final _ _ => final.Good terms := by
  refine safe_bind (safe_mono (safe_weaken (safe_handle event good running meets) fun _ => .inl) ?_)
  intro handled _ _ handledGood
  refine safe_bind (safe_mono (safe_weaken (maintains_collectGarbage handled handledGood)
    fun _ => .inl) ?_)
  intro collected _ _ collectedGood
  exact safe_advance fuel collectedGood

end SmState

/-! ### Runs -/

/-- **The conditions on the events of a run.** -/
def StateMachine.Meets (terms : Terms) : StateMachine → Event → Prop
  | .loadingPersisted _ p, .completeInitialization => Startable terms p
  | .initialized st, event => st.Meets terms event
  | _, _ => True

theorem safe_completeInitialization (my : InitialParameters) {p : Persisted} (orders : Nat → MapIter)
    (startable : Startable terms p) :
    safe (Permitted terms) SmState.reinitialize (StateMachine.components my p orders)
      fun final _ _ => final.Good terms :=
  SmState.reinitialize_safe (fun _ isTarget => nomatch isTarget) startable (fun _ => rfl)
    fun _ isTarget => absurd rfl isTarget

/-- **In every run the target is at rest.** -/
theorem MachineRun.good {st : SmState}
    (run : MachineRun (StateMachine.Meets terms) events (.initialized st)) :
    st.Good terms := by
  refine (run.initialized (fun _ st => st.Running ∧ st.Good terms) ?_ (fun _ _ => id) ?_).2
  · intro _ my p orders st actions startable ran
    exact ⟨(SmState.wp_reinitialize_running _ _ _ _ ran).1,
      (safe_completeInitialization my orders startable).2 _ _ _ ran⟩
  · rintro _ st st' event fuel orders actions ⟨running, good⟩ meets ran
    have ready : SmState.Running { st with sh := { st.sh with orders } } := ⟨running.epoch, running.window⟩
    have isMet : SmState.Meets terms { st with sh := { st.sh with orders } } event := by
      cases event <;> exact meets
    have stillGood : SmState.Good terms { st with sh := { st.sh with orders } } :=
      EpochTracker.good_same good rfl rfl
    exact ⟨(SmState.wp_applyEvent_running fuel event ready _ _ _ ran).1,
      (SmState.safe_applyEvent fuel event stillGood ready.epoch isMet).2 _ _ _ ran⟩

/-- **In every run the next event fails only as permitted**, or for want of fuel. -/
theorem MachineRun.failsOnly {machine : StateMachine} {event : Event}
    (run : MachineRun (StateMachine.Meets terms) events machine)
    (meets : machine.Meets terms event) (fuel : Nat) (orders : Nat → MapIter) :
    FailsOnly (SmState.PermittedOrFuel terms) (machine.applyEvent fuel orders event) := by
  have other {α : Type} {failure : String} (isOther : Elsewhere failure) :
      FailsOnly (SmState.PermittedOrFuel terms) (throw failure : Go α) :=
    .throw (.inl isOther.permitted)
  cases machine with
  | uninitialized =>
    cases event with
    | initParameters _ | actionsReceived => exact .pure _
    | _ => exact other (by simp)
  | loadingPersisted my p =>
    cases event with
    | loadPersistedEntry index entry =>
      refine .bind (.ite (fun _ => other (by simp)) fun _ => .pure _) fun _ _ => .pure _
    | completeInitialization =>
      refine .bind ((safe_completeInitialization my orders meets).1.mono fun _ => .inl) fun _ _ => .pure _
    | actionsReceived => exact .pure _
    | _ => exact other (by simp)
  | initialized st =>
    have stillGood : SmState.Good terms { st with sh := { st.sh with orders } } :=
      EpochTracker.good_same run.good rfl rfl
    have applies (isMet : SmState.Meets terms { st with sh := { st.sh with orders } } event) :=
      (SmState.safe_applyEvent fuel event stillGood run.running.epoch isMet).1
    cases event with
    | actionsReceived => exact .pure _
    | _ => exact .bind (applies meets) fun _ _ => .pure _

end MirBft
