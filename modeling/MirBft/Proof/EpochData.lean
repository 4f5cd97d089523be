/-
**The data an epoch target needs.**

* `epoch_data_held`: in a run in which no start from the log resumes an epoch, the target of every
  state has the data that its state needs, and no event dereferences one of its pointers while it is
  nil. A start that resumes an epoch leaves a target without its data.
* `Restarted.restart_dereferences_nil`: a node that has echoed a new epoch, and stops, does not get
  beyond its next event.
-/

import MirBft.Proof.MachineSafety
import MirBft.Proof.WalMirror

namespace MirBft

open Proc

theorem MachineRun.mono {condition weaker : StateMachine → Event → Prop}
    (implies : ∀ machine event, condition machine event → weaker machine event) {events : List Event}
    {machine : StateMachine} (run : MachineRun condition events machine) :
    MachineRun weaker events machine := by
  induction run with
  | start => exact .start
  | event fuel orders _ meets applied ih => exact ih.event fuel orders (implies _ _ meets) applied

/-- **The data that an epoch target's state needs.** -/
structure EpochTarget.HoldsData (et : EpochTarget) : Prop where
  own : EpochTargetState.rank .pending ≤ et.state.rank →
    et.state.rank ≤ EpochTargetState.rank .resuming → et.myNewEpoch ≠ none ∧ et.myEpochChange ≠ none
  leader : EpochTargetState.rank .verifying ≤ et.state.rank →
    et.state.rank ≤ EpochTargetState.rank .echoing → et.leaderNewEpoch ≠ none
  network : et.state = .ready → et.networkNewEpoch ≠ none
  active : et.state = .inProgress → et.activeEpoch ≠ none

theorem EpochTarget.Backed.holdsData {et : EpochTarget} (backed : et.Backed) : et.HoldsData := by
  obtain ⟨change, needs⟩ := backed
  have isChange := Option.isSome_iff_ne_none.mp change
  refine ⟨fun low high => ⟨?_, isChange⟩, fun low high => ?_, fun isReady => ?_, fun isProgress => ?_⟩
  · cases isState : et.state <;>
      simp only [EpochTargetState.rank] at low high needs <;> grind
  · cases isState : et.state <;>
      simp only [isState, EpochTargetState.rank] at low high needs <;> grind
  · rw [isReady] at needs
    exact Option.isSome_iff_ne_none.mp needs
  · rw [isProgress] at needs
    exact Option.isSome_iff_ne_none.mp needs

/-- The target of the machine has its data. -/
def SmState.HoldsData (st : SmState) : Prop :=
  ∀ target, st.tracker.currentEpoch = some target → target.HoldsData

/-- **No start from the log resumes an epoch**: its last epoch is followed by an epoch change. -/
def ResumesNothing : StateMachine → Event → Prop
  | .loadingPersisted _ p, .completeInitialization => activeEntry (startingLog p) = none
  | .initialized st, .stateTransferComplete seqNo checkpointValue networkState =>
    activeEntry (startingLog (SmState.withEntry st.sh.persisted
      (.cEntry { seqNo, checkpointValue, networkState }))) = none
  | _, _ => True

theorem ResumesNothing.meets (machine : StateMachine) (event : Event)
    (nothing : ResumesNothing machine event) : machine.Meets ⟨False, False⟩ event := by
  have startable {p : Persisted} (none : activeEntry (startingLog p) = none) : Startable ⟨False, False⟩ p :=
    ⟨fun isSome => (by simp [none] at isSome), fun impossible => impossible.elim⟩
  cases machine with
  | uninitialized => trivial
  | loadingPersisted my p =>
    cases event with
    | completeInitialization => exact startable nothing
    | _ => trivial
  | initialized st =>
    cases event with
    | stateTransferComplete seqNo value networkState => exact startable nothing
    | checkpointResult seqNo value networkState => exact fun impossible => impossible.elim
    | _ => trivial

/-! ### A start that resumes an epoch -/

/-- No node has sent anything for a later epoch. -/
def EpochTracker.Unheard (tracker : EpochTracker) : Prop :=
  ∀ id buffer, tracker.futureMsgs.lookup id = some buffer → buffer.buffer = []

theorem EpochTracker.wp_drainFutures_unheard {st : TrackerState} (unheard : st.tracker.Unheard) :
    wp drainFutures st fun final _ _ =>
      final.tracker.currentEpoch = st.tracker.currentEpoch ∧ final.sh = st.sh := by
  refine wp_get_bind (wp_mono (wp_forEach (fun mid _ => mid.tracker.Unheard ∧
    mid.tracker.currentEpoch = st.tracker.currentEpoch ∧ mid.sh = st.sh) ⟨unheard, rfl, rfl⟩ ?_)
    fun _ _ _ done => done.2)
  rintro id _ mid _ ⟨empty, same⟩
  refine wp_get_bind ?_
  split
  · exact wp_fail _ _ _
  · rename_i buffer isBuffer
    rw [wp_bind, MsgBuffer.iterate, empty id buffer isBuffer, MsgBuffer.iterateFrom, wp_pure, assign,
      wp_modify]
    refine ⟨fun other found isFound => ?_, same⟩
    rcases GoMap.of_lookup_insert isFound with ⟨_, rfl⟩ | ⟨_, isFound⟩
    · rfl
    · exact empty other found isFound

theorem EpochTracker.unheard_reinitialized {tracker : EpochTracker} (fresh : tracker.futureMsgs = ∅)
    (networkConfig : NetworkConfig) : Unheard { tracker with
      networkConfig
      futureMsgs := reinitializeBuffers ⟨tracker.myConfig⟩ tracker.futureMsgs networkConfig.nodes } := by
  intro id buffer found
  refine @forall_reinitializeBuffers (fun _ buffer => buffer.buffer = []) tracker.futureMsgs
    ⟨tracker.myConfig⟩ ?_ (fun _ => rfl) _ id buffer found
  intro other old isOld
  rw [fresh] at isOld
  cases isOld

/-- **A resumed epoch has no data.** -/
theorem EpochTracker.wp_reinitialize_resumed {st : TrackerState} (fresh : st.tracker.futureMsgs = ∅)
    (isActive : (activeEntry st.sh.persisted.entries).isSome = true) :
    wp EpochTracker.reinitialize st fun final _ _ => ∃ target,
      final.tracker.currentEpoch = some target ∧ target.state = .resuming ∧ target.myNewEpoch = none := by
  obtain ⟨nEntry, isEntry⟩ := Option.isSome_iff_exists.mp isActive
  refine wp_get_bind ?_
  rw [wp_bind, assign, wp_modify]
  refine wp_lift_bind fun _ _ => ?_
  change wp (resumeFrom (lastEntries st.sh.persisted.entries)) _ _
  unfold activeEntry at isEntry
  unfold resumeFrom
  rw [isEntry]
  rw [wp_bind]
  refine wp_get_bind ?_
  dsimp only
  split
  · exact wp_fail _ _ _
  · rw [wp_bind, assign, wp_modify, wp_bind, onShared, wp_zoom]
    intro shared _ _ _
    rw [wp_emit]
    refine wp_mono (wp_drainFutures_unheard (unheard_reinitialized fresh _)) ?_
    intro final _ _ same
    exact ⟨_, same.1, rfl, rfl⟩

/-! ### Runs -/

/-- **Epoch targets hold the data their state needs**, in every run in which no start from the log
resumes an epoch, and no event dereferences one of their pointers while it is nil. A start that does
resume an epoch leaves a target without its data. -/
theorem epoch_data_held {events : List Event} {machine : StateMachine}
    (run : MachineRun ResumesNothing events machine) :
    (∀ st, machine = .initialized st → st.HoldsData) ∧
    (∀ event fuel orders, ResumesNothing machine event →
      FailsOnly (· ∉ pointerFailures) (machine.applyEvent fuel orders event)) ∧
    (∀ my p st fuel orders actions, machine = .loadingPersisted my p →
      machine.applyEvent fuel orders .completeInitialization = .ok (.initialized st, actions) →
      (st.HoldsData ↔ activeEntry (startingLog p) = none)) := by
  have meets := run.mono ResumesNothing.meets
  have holds {st : SmState} (good : st.Good ⟨False, False⟩) : st.HoldsData := by
    intro target isTarget
    rcases (good target isTarget).good.kind with backed | ⟨impossible, _⟩
    · exact backed.holdsData
    · exact impossible.elim
  refine ⟨?_, fun event fuel orders nothing => ?_, ?_⟩
  · rintro st rfl
    exact holds meets.good
  · refine (meets.failsOnly (ResumesNothing.meets _ _ nothing) fuel orders).mono ?_
    rintro failure (permitted | isFuel) isPointer
    · exact permitted.1 isPointer
    · subst isFuel
      simp [pointerFailures, fuelFailure] at isPointer
  · rintro my p st fuel orders actions rfl applied
    obtain ⟨⟨started, sent, _⟩, ran, returned⟩ := bind_eq_ok.mp applied
    cases returned
    constructor
    · intro held
      by_contra isSome
      have resumes := SmState.wp_reinitialize_loaded (StateMachine.components my p orders) fun _ loaded =>
        EpochTracker.wp_reinitialize_resumed (loaded.tracker ▸ rfl)
          (loaded.log ▸ Option.isSome_iff_ne_none.mpr isSome)
      obtain ⟨target, isTarget, isResuming, noOwn⟩ := resumes _ _ _ ran
      exact ((held target isTarget).own (by rw [isResuming]; decide) (by rw [isResuming])).1 noOwn
    · intro nothing
      have startable : Startable ⟨False, False⟩ p :=
        ⟨fun isSome => (by simp [nothing] at isSome), fun impossible => impossible.elim⟩
      exact holds ((safe_completeInitialization my orders startable).2 _ _ _ ran)

/-- The check that no start resumes an epoch. -/
def resumesNothing (machine : StateMachine) (event : Event) : Bool :=
  match machine, event with
  | .loadingPersisted _ p, .completeInitialization => decide (activeEntry (startingLog p) = none)
  | .initialized st, .stateTransferComplete seqNo checkpointValue networkState =>
    decide (activeEntry (startingLog (SmState.withEntry st.sh.persisted
      (.cEntry { seqNo, checkpointValue, networkState }))) = none)
  | _, _ => true

theorem resumesNothing_sound (machine : StateMachine) (event : Event)
    (checked : resumesNothing machine event = true) : ResumesNothing machine event := by
  unfold resumesNothing at checked
  unfold ResumesNothing
  split at checked
  · exact of_decide_eq_true checked
  · exact of_decide_eq_true checked
  · trivial

/-! ### A node in a network of four -/

namespace Restarted

open FourNodes (joining joinedLog)

/-- Epoch one, from the first checkpoint on. -/
def config : NewEpochConfig := FourNodes.epochOne ⟨0, [9]⟩

/-- The votes of three nodes for the new epoch. -/
def votes : List Event :=
  [0, 1, 3].map (fun source => .step source (.newEpochEcho config)) ++
    [0, 1, 3].map (fun source => .step source (.newEpochReady config))

/-- A node that joins an epoch has its data. -/
theorem joined_holds_data : ∃ st target,
    MachineRun ResumesNothing (joining ⟨0, [9]⟩ ++ votes) (.initialized st) ∧
    st.tracker.currentEpoch = some target ∧ target.state = .inProgress ∧ target.HoldsData := by
  obtain ⟨st, run, holds⟩ := MachineRun.exists_of_executed resumesNothing_sound 10
    (joining ⟨0, [9]⟩ ++ votes)
    (fun st => ∃ target : EpochTarget, st.tracker.currentEpoch = some target ∧ target.state = .inProgress)
    (by decide +kernel)
  obtain ⟨target, isTarget, isProgress⟩ := holds
  exact ⟨st, target, run, isTarget, isProgress, (epoch_data_held run).1 st rfl target isTarget⟩

/-- **A node that has echoed a new epoch and stops does not come back**: from the log that it has
written it resumes the epoch without the data, and dereferences nil with the first tick. -/
theorem restart_dereferences_nil :
    (∃ machine wal, WalRun (fun _ _ => True) machine wal ∧ wal.map LogEntry.entry = joinedLog) ∧
    ∃ st target, MachineRun (fun _ _ => True) (FourNodes.start 2 joinedLog) (.initialized st) ∧
      st.tracker.currentEpoch = some target ∧ target.state = .resuming ∧
      target.myNewEpoch = none ∧ target.myEpochChange.isNone = true ∧
      StateMachine.applyEvent 10 (fun _ => .inOrder) .tickElapsed (.initialized st) =
        .error "nil pointer dereference: networkNewEpoch" := by
  constructor
  · have evaluated : ∃ result, StateMachine.executeWal 10 (fun _ => .inOrder)
      (joining ⟨0, [9]⟩) .uninitialized [] =
        some result ∧ result.2.map LogEntry.entry = joinedLog := by
      decide +kernel
    obtain ⟨⟨machine, wal⟩, executed, isLog⟩ := evaluated
    exact ⟨machine, wal, WalRun.start.of_execute (fun _ _ _ => trivial) executed, isLog⟩
  · obtain ⟨st, run, target, resumed⟩ := MachineRun.exists_of_evaluated 10 (FourNodes.start 2 joinedLog)
      (fun st => ∃ target : EpochTarget, st.tracker.currentEpoch = some target ∧ target.state = .resuming ∧
        target.myNewEpoch = none ∧ target.myEpochChange.isNone = true ∧
        StateMachine.applyEvent 10 (fun _ => .inOrder) .tickElapsed (.initialized st) =
          .error "nil pointer dereference: networkNewEpoch") (by decide +kernel)
    exact ⟨st, target, run, resumed⟩

end Restarted

end MirBft
