/-
**A state transfer is alone.**

* `transfer_exclusive`: in a run in which no start from the log goes back behind its last
  checkpoint, no checkpoint is asked for while a state is transferred, and no event commits or
  starts a second transfer then. A start from a log that ends with a transfer asks for a checkpoint
  exactly if it does go back.
* `Reconfigured.checkpoint_outlasts_transfer`: a node that is brought to the checkpoint at which a
  reconfiguration is applied asks for that checkpoint while it is brought to the next one; the
  result is dropped, and the request is never over.
-/

import MirBft.Proof.EpochData

namespace MirBft

open Proc

/-- **No checkpoint is asked for again**: no start from the log goes back behind its last
checkpoint, and a checkpoint result answers a request. -/
def AsksOnce : StateMachine → Event → Prop
  | .loadingPersisted _ p, .completeInitialization => ¬ CommitState.RequestsAgain (startingLog p)
  | .initialized st, .stateTransferComplete seqNo checkpointValue networkState =>
    ¬ CommitState.RequestsAgain (startingLog (SmState.withEntry st.sh.persisted
      (.cEntry { seqNo, checkpointValue, networkState })))
  | .initialized st, .checkpointResult seqNo _ _ =>
    st.sh.commitState.checkpointPending = true ∨ seqNo < st.sh.commitState.lowWatermark
  | _, _ => True

theorem AsksOnce.meets (machine : StateMachine) (event : Event) (once : AsksOnce machine event) :
    machine.Meets ⟨True, True⟩ event := by
  have startable {p : Persisted} (notAgain : ¬ CommitState.RequestsAgain (startingLog p)) :
      Startable ⟨True, True⟩ p := ⟨fun _ => trivial, fun _ => notAgain⟩
  cases machine with
  | uninitialized => trivial
  | loadingPersisted my p =>
    cases event with
    | completeInitialization => exact startable once
    | _ => trivial
  | initialized st =>
    cases event with
    | stateTransferComplete seqNo value networkState => exact startable once
    | checkpointResult seqNo value networkState => exact fun _ => once
    | _ => trivial

/-! ### A start that goes back -/

theorem EpochTracker.wp_reinitialize_commits {st : TrackerState} (fresh : st.tracker.futureMsgs = ∅)
    (noTarget : st.tracker.currentEpoch = none) :
    wp EpochTracker.reinitialize st fun final _ _ => final.sh.commitState = st.sh.commitState := by
  have logs {method : Persisted → Go (Persisted × List Action)} (mid : TrackerState) :
      wp (onShared (Shared.onLog method)) mid fun final _ _ =>
        final.tracker = mid.tracker ∧ final.sh.commitState = mid.sh.commitState := by
    rw [onShared, wp_zoom]
    refine wp_get_bind (wp_lift_bind fun _ _ => ?_)
    rw [wp_bind, wp_modify, wp_emit]
    exact ⟨rfl, rfl⟩
  have drains (mid : TrackerState) (unheard : mid.tracker.Unheard)
      (same : mid.sh.commitState = st.sh.commitState) :
      wp drainFutures mid fun final _ _ => final.sh.commitState = st.sh.commitState :=
    wp_mono (wp_drainFutures_unheard unheard) fun _ _ _ done => done.2.symm ▸ same
  have continues (number : Nat) (mid : TrackerState) (unheard : mid.tracker.Unheard)
      (none : mid.tracker.currentEpoch = none) (same : mid.sh.commitState = st.sh.commitState) :
      wp (continueChange number) mid fun final _ _ => final.sh.commitState = st.sh.commitState := by
    refine wp_get_bind ?_
    rw [none, if_neg (by simp), wp_bind]
    refine wp_get_bind (wp_lift_bind fun _ _ => ?_)
    split
    · exact wp_fail _ _ _
    · rw [wp_bind, assign, wp_modify, wp_pure]
      exact drains _ unheard same
  have unheard := unheard_reinitialized fresh st.sh.commitState.activeState.config
  refine wp_get_bind ?_
  rw [wp_bind, assign, wp_modify]
  refine wp_lift_bind fun _ _ => ?_
  unfold resumeFrom
  split
  · rw [wp_bind]
    refine wp_get_bind ?_
    dsimp only
    split
    · exact wp_fail _ _ _
    · rw [wp_bind, assign, wp_modify, wp_bind]
      refine wp_mono (logs _) ?_
      rintro mid _ _ ⟨sameTracker, sameCommits⟩
      rw [wp_emit]
      refine drains mid ?_ sameCommits
      rw [sameTracker]
      exact unheard
  · split
    · rw [wp_bind]
      refine wp_mono (logs _) ?_
      rintro mid _ _ ⟨sameTracker, sameCommits⟩
      refine continues _ mid ?_ ?_ sameCommits
      · rw [sameTracker]
        exact unheard
      · rw [sameTracker]
        exact noTarget
    · split
      · exact continues _ _ unheard noTarget rfl
      · exact wp_fail _ _ _

/-- **A commit state made from the log asks for its last checkpoint** exactly if it goes back behind
it. -/
theorem CommitState.reinitialize_asks {cs after drained : CommitState} {p : Persisted}
    {actions sent : List Action} (ran : CommitState.reinitialize cs p = .ok (after, actions))
    (notPending : cs.checkpointPending = false) (positive : 0 < after.checkpointInterval)
    (drains : after.drain = .ok (drained, sent)) :
    drained.checkpointPending = false ↔ ¬ RequestsAgain p.entries := by
  constructor
  · rintro stillNot ⟨last, isLast, second, isSecond, pending, again⟩
    obtain ⟨last', second', transfer, found, fresh, samePending⟩ := reinitialize_fresh ran
    rw [found] at isLast isSecond
    cases isLast
    cases isSecond
    have goesBack : restartEntry last (some second) = second := by simp [restartEntry, pending]
    rw [goesBack] at fresh
    have due : after.lastAppliedCommit = after.lowWatermark + after.checkpointInterval := by
      rw [checkpointInterval, fresh.low, fresh.applied, fresh.active]
      exact again
    unfold CommitState.drain drainLoop at drains
    rw [if_pos (by omega)] at drains
    obtain ⟨⟨mid, asked, more⟩, once, drains⟩ := bind_eq_ok.mp drains
    obtain ⟨_, _, ⟨_, _, _, _, rfl, _⟩ | ⟨notDue, _, _⟩, delivered⟩ := drainOnce_cases once
    · rcases delivered with ⟨rfl, rfl, _, _⟩ | ⟨_, commit, _, slot, _⟩
      · cases drains
        cases stillNot
      · exact fresh.nextSlot commit slot
    · exact notDue ⟨due, by simp [samePending, notPending]⟩
  · intro once
    have settled := reinitialize_settled ran notPending once
    rw [settled.drain drains]
    exact settled.notPending

/-! ### Runs -/

/-- **State transfer is exclusive** in every run in which no checkpoint is asked for again: while a
state is transferred no checkpoint is asked for, nothing is committed and no second transfer starts.
A start from a log that ends with a transfer asks for a checkpoint if and only if it goes back. -/
theorem transfer_exclusive {events : List Event} {machine : StateMachine}
    (run : MachineRun AsksOnce events machine) :
    (∀ st, machine = .initialized st → st.sh.commitState.transferring = true →
      st.sh.commitState.checkpointPending = false) ∧
    (∀ event fuel orders, AsksOnce machine event →
      FailsOnly (· ∉ transferFailures) (machine.applyEvent fuel orders event)) ∧
    (∀ my p st fuel orders actions drained sent, machine = .loadingPersisted my p →
      machine.applyEvent fuel orders .completeInitialization = .ok (.initialized st, actions) →
      st.sh.commitState.transferring = true → 0 < st.sh.commitState.checkpointInterval →
      st.sh.commitState.drain = .ok (drained, sent) →
      (drained.checkpointPending = false ↔ ¬ CommitState.RequestsAgain (startingLog p))) := by
  have meets := run.mono AsksOnce.meets
  refine ⟨?_, fun event fuel orders once => ?_, ?_⟩
  · rintro st rfl transferring
    obtain ⟨target, isTarget⟩ := Option.ne_none_iff_exists'.mp run.running.epoch
    have alone := (meets.good target isTarget).good.transfer trivial
    exact (alone.transfers transferring).1.notPending
  · refine (meets.failsOnly (AsksOnce.meets _ _ once) fuel orders).mono ?_
    rintro failure (permitted | isFuel) isTransfer
    · exact permitted.2.1 isTransfer trivial
    · subst isFuel
      simp [transferFailures, fuelFailure] at isTransfer
  · rintro my p st fuel orders actions drained sent rfl applied _ positive drains
    obtain ⟨⟨started, _, _⟩, ran, returned⟩ := bind_eq_ok.mp applied
    cases returned
    have commits := SmState.wp_reinitialize_loaded (StateMachine.components my p orders) fun _ loaded =>
      wp_mono (EpochTracker.wp_reinitialize_commits (loaded.tracker ▸ rfl) (loaded.tracker ▸ rfl))
        fun final _ _ same =>
        show ∃ actions, _ = Except.ok (final.sh.commitState, actions) from same ▸ loaded.commits
    obtain ⟨_, restarted⟩ := commits _ _ _ ran
    exact CommitState.reinitialize_asks restarted rfl positive drains

/-- The check that no checkpoint is asked for again. -/
def asksOnce (machine : StateMachine) (event : Event) : Bool :=
  match machine, event with
  | .loadingPersisted _ p, .completeInitialization => decide (¬ CommitState.RequestsAgain (startingLog p))
  | .initialized st, .stateTransferComplete seqNo checkpointValue networkState =>
    decide (¬ CommitState.RequestsAgain (startingLog (SmState.withEntry st.sh.persisted
      (.cEntry { seqNo, checkpointValue, networkState }))))
  | .initialized st, .checkpointResult seqNo _ _ =>
    decide (st.sh.commitState.checkpointPending = true ∨ seqNo < st.sh.commitState.lowWatermark)
  | _, _ => true

theorem asksOnce_sound (machine : StateMachine) (event : Event) (checked : asksOnce machine event = true) :
    AsksOnce machine event := by
  unfold asksOnce at checked
  unfold AsksOnce
  split at checked
  · exact of_decide_eq_true checked
  · exact of_decide_eq_true checked
  · exact of_decide_eq_true checked
  · trivial

/-! ### A node in a network of four -/

namespace Reconfigured

/-- What the leader of epoch one sends, to start from a checkpoint. -/
def newEpoch (seqNo : Nat) : Event := FourNodes.newEpoch 1 (FourNodes.epochOne ⟨seqNo, [8]⟩)

/-- Node two is told of the epoch changes and of the new epoch, and is brought to checkpoint
five. -/
def behind : List Event := FourNodes.joining ⟨5, [8]⟩

/-- The network state of checkpoint five: a client is to be added. -/
def pendingState : NetworkState := { FourNodes.networkState with pendingReconfigurations := [.newClient 7 3] }

/-- The leader sends the new epoch twice more, each time to start from the checkpoint after. -/
def moved : List Event :=
  behind ++ [newEpoch 10, .stateTransferComplete 5 [8] pendingState, newEpoch 15,
    .stateTransferComplete 10 [8] FourNodes.networkState]

/-- A transfer without a reconfiguration is alone. -/
theorem transfer_alone : ∃ st, MachineRun AsksOnce behind (.initialized st) ∧
    st.sh.commitState.transferring = true ∧ st.sh.commitState.checkpointPending = false := by
  obtain ⟨st, run, transfers⟩ := MachineRun.exists_of_executed asksOnce_sound 10 behind
    (fun st => st.sh.commitState.transferring = true) (by decide +kernel)
  exact ⟨st, run, transfers, (transfer_exclusive run).1 st rfl transfers⟩

/-- The result is dropped, and the node is brought to checkpoint fifteen. -/
def settled : List Event :=
  moved ++ [.checkpointResult 10 [8] FourNodes.networkState,
    .stateTransferComplete 15 [8] FourNodes.networkState]

/-- **A checkpoint is asked for while a state is transferred**: the result is dropped, and after the
transfer the request is still there. -/
theorem checkpoint_outlasts_transfer :
    (∃ st, MachineRun (fun _ _ => True) moved (.initialized st) ∧
      st.sh.commitState.transferring = true ∧ st.sh.commitState.checkpointPending = true) ∧
    ∃ st, MachineRun (fun _ _ => True) settled (.initialized st) ∧
      st.sh.commitState.transferring = false ∧ st.sh.commitState.lowWatermark = 15 ∧
      st.sh.commitState.checkpointPending = true := by
  constructor
  · exact MachineRun.exists_of_evaluated 10 moved _ (by decide +kernel)
  · exact MachineRun.exists_of_evaluated 10 settled _ (by decide +kernel)

/-- The checkpoint that the node ends at. -/
def latest : CEntry := ⟨15, [8], FourNodes.networkState⟩

def entries : List Persistent :=
  FourNodes.firstLog ++ [.ecEntry 1, .tEntry 5 [8], .cEntry ⟨5, [8], pendingState⟩, .tEntry 10 [8],
    .cEntry ⟨10, [8], FourNodes.networkState⟩, .tEntry 15 [8], .cEntry latest,
    .nEntry ⟨16, ⟨1, [0, 1, 2, 3], 35⟩⟩]

/-- The log of the node then. -/
def log : Persisted := ⟨11, entries.mapIdx fun index entry => ⟨index + 1, entry⟩⟩

/-- Its commit state then: no batch is committed, and a request is outstanding. -/
def waiting : CommitState :=
  { (FourNodes.shared 2).commitState with checkpointPending := true }.restored ∅ latest

open TwoIntervals (batch) in
/-- **The checkpoint after an interval is never asked for**, if a request is outstanding when the
node starts from its log: six batches are delivered, and the request after the fifth is missing. -/
theorem interval_without_checkpoint :
    (∃ st, MachineRun (fun _ _ => True) settled (.initialized st) ∧ st.sh.persisted = log ∧
      st.sh.commitState = waiting) ∧
    CommitRun true latest ⟨waiting, log, [], [], 0⟩ ∧
    ∃ history, CommitRun true latest history ∧
      deliveries history.actions = [.batch 16, .batch 17, .batch 18, .batch 19, .batch 20, .batch 21] ∧
      ¬ InOrder latest history := by
  have start : CommitRun true latest ⟨waiting, log, [], [], 0⟩ :=
    .start rfl rfl rfl (by rintro _ ⟨⟩; rfl)
      (show CommitState.reinitialize waiting log = .ok (waiting, []) from rfl) rfl
  refine ⟨?_, start, ?_⟩
  · exact MachineRun.exists_of_evaluated 10 settled _ (by decide +kernel)
  · have first := start.commit (show Committable _ (batch 16) from ⟨by decide, by decide, by decide⟩) rfl
    have second := first.commit (show Committable _ (batch 17) from ⟨by decide, by decide, by decide⟩) rfl
    have third := second.commit (show Committable _ (batch 18) from ⟨by decide, by decide, by decide⟩) rfl
    have fourth := third.commit (show Committable _ (batch 19) from ⟨by decide, by decide, by decide⟩) rfl
    have fifth := fourth.commit (show Committable _ (batch 20) from ⟨by decide, by decide, by decide⟩) rfl
    have sixth := fifth.commit (show Committable _ (batch 21) from ⟨by decide, by decide, by decide⟩) rfl
    refine ⟨_, sixth.drain rfl, rfl, fun inOrder => ?_⟩
    -- The schedule has the request before the sixth batch.
    obtain ⟨missing, delivered, which⟩ := inOrder.delivered
    rcases which with rfl | rfl
    · exact absurd delivered (by decide)
    · exact absurd delivered (by decide)

end Reconfigured

end MirBft
