/-
**Every call of an epoch moves the log.**

The methods of the epoch tracker and of the other components make moves of the log (`LogMove`), with
the actions that they return, as those of the epoch target do (`Proceeds`).

* `TrackerLogs`: the tracker, which records and announces the node's epoch changes;
* `CpSilent`: the checkpoint tracker, which neither writes nor sends.
-/

import MirBft.Proof.Delivery
import MirBft.Proof.TargetWalk

namespace MirBft

open Proc EpochTarget

/-! ### The epoch change of a log -/

namespace Persisted

theorem collectEpochChange_newEpoch {pSkips : Nat → Nat} {logEpoch : Option Nat}
    {change result : EpochChange} {entries : List Persistent}
    (collected : collectEpochChange pSkips logEpoch change entries = .ok result) :
    result.newEpoch = change.newEpoch := by
  induction entries generalizing pSkips logEpoch change with
  | nil =>
    cases collected
    rfl
  | cons entry rest ih =>
    cases entry with
    | pEntry entry =>
      unfold collectEpochChange at collected
      split at collected
      · exact ih collected
      split at collected
      · cases collected
      · have kept := ih collected
        exact kept
    | qEntry entry =>
      unfold collectEpochChange at collected
      split at collected
      · cases collected
      · have kept := ih collected
        exact kept
    | nEntry _ => exact ih collected
    | fEntry _ => exact ih collected
    | cEntry _ =>
      have kept := ih collected
      exact kept
    | ecEntry _ => exact ih collected
    | tEntry _ _ => exact ih collected
    | suspect _ => exact ih collected

/-- The epoch change is for the epoch it is asked for. -/
theorem constructEpochChange_newEpoch {p : Persisted} {number : Nat} {change : EpochChange}
    (constructed : p.constructEpochChange number = .ok change) : change.newEpoch = number :=
  collectEpochChange_newEpoch constructed

end Persisted

/-! ### The epoch tracker -/

/-- The log and the epoch change of the current target. -/
def TrackerState.logView (st : TrackerState) : LogView where
  persisted := st.sh.persisted
  change := st.tracker.currentEpoch.bind fun et => et.myEpochChange.map ParsedEpochChange.underlying

/-- What the methods of the tracker keep. -/
structure TrackerKept (heard : NodeID → Msg → Prop) (my : Stock) (st : TrackerState) :
    Prop where
  stocked : st.sh.Stocked my
  target : ∀ et, st.tracker.currentEpoch = some et → TargetKept heard my ⟨et, st.sh⟩
  future : Authentic heard st.tracker.futureMsgs

/-- The kept tracker, whatever has to stay tracked from now on. -/
theorem TrackerKept.restock {heard : NodeID → Msg → Prop} {my : Stock} {tracked : Bytes → Nat → Prop}
    {st after : TrackerState} (kept : TrackerKept heard my st) (same : after.tracker = st.tracker)
    (stocked : after.sh.Stocked ⟨my.toInitialParameters, tracked⟩) :
    TrackerKept heard ⟨my.toInitialParameters, tracked⟩ after := by
  obtain ⟨_, _⟩ := after
  cases same
  refine ⟨stocked, fun et isTarget => ?_, kept.future⟩
  have target := kept.target et isTarget
  exact ⟨stocked, target.active, target.prestart⟩

/-- **The effect of the methods of the tracker.** -/
def TrackerLogs (lossy : Prop) (heard : NodeID → Msg → Prop) (my : Stock) :
    Effect TrackerState Action :=
  (stepsEffect TrackerState.logView (LogMove lossy)).keeping (TrackerKept heard my)

namespace EpochTracker

variable {lossy : Prop} {heard : NodeID → Msg → Prop} {my : Stock} {α : Type}
  {method : GoProc EtState α}

theorem logs_of_shared {before after : TrackerState} {actions : List Action}
    (same : after.tracker = before.tracker) (logged : (Shared.logs lossy).rel before.sh after.sh actions) :
    (TrackerLogs lossy heard my).rel before after actions := by
  refine fun kept => ⟨kept.restock same (logged.1 my kept.stocked), ?_⟩
  have steps := logged.2 before.logView.change
  show Steps _ before.logView ⟨after.sh.persisted, after.tracker.currentEpoch.bind _⟩ actions
  rw [same]
  exact steps

theorem logs_assign {update : EpochTracker → EpochTracker}
    (target : ∀ tracker, (update tracker).currentEpoch = tracker.currentEpoch)
    (future : ∀ tracker, (update tracker).futureMsgs = tracker.futureMsgs) :
    Has (TrackerLogs lossy heard my) (assign update) := by
  intro st
  rw [assign, wp_modify]
  refine fun kept => ⟨⟨kept.stocked, ?_, ?_⟩, ?_⟩
  · rw [target]
    exact kept.target
  · rw [future]
    exact kept.future
  · show Steps _ st.logView ⟨st.sh.persisted, (update st.tracker).currentEpoch.bind _⟩ []
    rw [target]
    exact .refl _

theorem logs_current : Has (TrackerLogs lossy heard my) current := by
  refine has_bind has_get fun st => ?_
  split
  · exact has_fail _
  · exact has_pure _

theorem wp_onTarget_logs {st : TrackerState}
    (logged : ∀ et, st.tracker.currentEpoch = some et → wp method ⟨et, st.sh⟩ fun final actions _ =>
      (TargetLogs lossy heard my).rel ⟨et, st.sh⟩ final actions) :
    wp (onTarget method) st fun final actions _ => (TrackerLogs lossy heard my).rel st final actions := by
  unfold onTarget current
  rw [wp_bind]
  refine wp_get_bind ?_
  split
  · exact wp_fail _ _ _
  rename_i et isTarget
  rw [wp_pure, wp_zoom]
  refine wp_mono (logged et isTarget) ?_
  intro inner actions _ done kept
  obtain ⟨keptInner, steps⟩ := done (kept.target et isTarget)
  refine ⟨⟨keptInner.stocked, ?_, kept.future⟩, ?_⟩
  · rintro _ ⟨⟩
    exact keptInner
  · have isView : st.logView = EtState.logView ⟨et, st.sh⟩ := by
      unfold TrackerState.logView
      rw [isTarget]
      rfl
    show Steps _ st.logView _ actions
    rw [isView]
    exact steps

/-- **A method of the target**, whatever its surroundings provide. -/
theorem logs_onTarget (proceeds : ∀ st : EtState,
    ProceedsFrom (.free st.et.networkConfig) lossy heard my method st) :
    Has (TrackerLogs lossy heard my) (onTarget method) :=
  fun _ => wp_onTarget_logs fun _ _ => wp_mono (proceeds _) fun _ _ _ done => done.2

section Heard

variable (mayVote : MayVote lossy heard my.id) {source : NodeID} {msg : Msg}
include mayVote

theorem logs_applyMsg (isHeard : heard source msg) :
    Has (TrackerLogs lossy heard my) (applyMsg source msg) := by
  unfold applyMsg
  split
  · exact logs_onTarget fun _ => proceeds_step mayVote isHeard _
  · exact logs_onTarget fun _ => proceeds_step mayVote isHeard _
  · exact logs_onTarget fun _ => proceeds_step mayVote isHeard _
  · exact logs_onTarget fun _ => proceeds_applySuspectMsg source _
  · exact logs_onTarget fun _ => proceeds_of_quiet (quiet_applyEpochChangeMsg source _) _
  · exact logs_onTarget fun _ => proceeds_of_quiet (quiet_applyEpochChangeAckMsg source _ _) _
  · exact has_bind has_get fun _ => has_ite (has_pure ())
      (logs_onTarget fun _ => proceeds_applyNewEpochMsg mayVote trivial)
  · exact logs_onTarget fun _ => proceeds_applyNewEpochEchoMsg mayVote trivial
  · exact logs_onTarget fun _ => proceeds_applyNewEpochReadyMsg mayVote trivial
  · exact has_fail _

theorem logs_step (isHeard : heard source msg) :
    Has (TrackerLogs lossy heard my) (step source msg) := by
  refine has_bind has_get fun st => has_bind (has_lift _) fun number =>
    has_bind (has_lift _) fun applyable => ?_
  split
  · exact has_pure ()
  · exact has_pure ()
  · intro now
    refine wp_get_bind ?_
    split
    · exact has_fail _ now
    rename_i buffer isBuffer
    rw [assign, wp_modify]
    exact fun kept => ⟨⟨kept.stocked, kept.target,
      kept.future.insert ((kept.future source buffer isBuffer).store isHeard)⟩, .refl _⟩
  · exact logs_applyMsg mayVote isHeard

theorem logs_drainFuture (id : NodeID) : Has (TrackerLogs lossy heard my) (drainFuture id) := by
  intro st
  refine wp_keeping fun kept => ?_
  refine wp_get_bind ?_
  split
  · exact wp_fail _ _ _
  rename_i buffer isBuffer
  obtain ⟨isId, wereHeard⟩ := kept.future id buffer isBuffer
  rw [wp_bind]
  refine wp_mono (@MsgBuffer.wp_iterateFrom buffer.nodeBuffer buffer.buffer _
    (TrackerLogs lossy heard my) _ _ st
    fun msg member state _ => logs_applyMsg mayVote (isId ▸ wereHeard msg member) state) ?_
  rintro mid actions left ⟨logged, leftId, remaining⟩
  obtain ⟨keptMid, steps⟩ := logged kept
  rw [assign, wp_modify, List.append_nil]
  refine ⟨⟨keptMid.stocked, keptMid.target, ?_⟩, steps⟩
  exact keptMid.future.insert ⟨leftId.trans isId, fun msg member => wereHeard msg (remaining member)⟩

theorem logs_drainFutures : Has (TrackerLogs lossy heard my) drainFutures :=
  has_bind has_get fun _ => has_forEach fun id _ => logs_drainFuture mayVote id

end Heard

/-! ### New targets -/

theorem kept_newTarget {st after : TrackerState} {et : EpochTarget} (nc : NetworkConfig)
    (parameters : InitialParameters) (kept : TrackerKept heard my st) (shared : after.sh = st.sh)
    (future : after.tracker.futureMsgs = st.tracker.futureMsgs)
    (isTarget : after.tracker.currentEpoch = some et) (inactive : et.activeEpoch = none)
    (isNew : et.prestartBuffers = (EpochTarget.new 0 nc parameters).prestartBuffers) :
    TrackerKept heard my after := by
  have isMy : after.sh.Stocked my := by
    rw [shared]
    exact kept.stocked
  refine ⟨isMy, fun other isOther => ?_, by rw [future]; exact kept.future⟩
  rw [isTarget] at isOther
  cases isOther
  refine ⟨isMy, fun ae isActive => ?_, fun id buffer found => ?_⟩
  · rw [inactive] at isActive
    cases isActive
  · rw [isNew] at found
    obtain ⟨node, _, rfl, rfl⟩ := GoMap.lookup_foldl_insert found
    exact ⟨rfl, by simp [MsgBuffer.new]⟩

/-- The node goes back to the epoch it was in, without an epoch change, and suspects it. -/
theorem logs_resume (nEntry : NEntry) (highestPreprepared : Nat) :
    Has (TrackerLogs lossy heard my) (resume nEntry highestPreprepared) := by
  intro st
  refine wp_get_bind ?_
  simp only
  split
  · exact has_fail _ st
  refine wp_effect_bind ?_
  rw [assign, wp_modify]
  refine ⟨fun kept => ⟨kept_newTarget st.tracker.networkConfig st.tracker.myConfig kept rfl rfl rfl rfl rfl,
    .single (.drop st.logView)⟩, ?_⟩
  rw [wp_bind, onShared, wp_zoom]
  refine wp_get_bind (wp_lift_bind fun result added => ?_)
  simp only [wp_bind, wp_modify, wp_emit]
  exact logs_of_shared rfl ⟨fun _ => id, .write_then (.one added) (by simp [Action.RestsOn, Msg.Backed])⟩

/-- A new target for an epoch change: the epoch change is the log's. -/
structure ChangedTo (number : Nat) (before after : TrackerState) (change : EpochChange) : Prop where
  shared : after.sh = before.sh
  constructed : before.sh.persisted.constructEpochChange change.newEpoch = .ok change
  isNumber : change.newEpoch = number
  view : ∀ sh, TrackerState.logView ⟨after.tracker, sh⟩ = ⟨sh.persisted, some change⟩
  kept : ∀ heard my, TrackerKept heard my before → TrackerKept heard my after

theorem wp_changeTo_logs (number : Nat) (myLeaderChoice : List NodeID) (st : TrackerState) :
    wp (changeTo number myLeaderChoice) st fun final actions change =>
      actions = [] ∧ ChangedTo number st final change := by
  refine wp_get_bind (wp_lift_bind fun change constructed => ?_)
  split
  · exact wp_fail _ _ _
  rename_i myEpochChange parsed
  rw [wp_bind, assign, wp_modify, wp_pure]
  have isNumber := Persisted.constructEpochChange_newEpoch constructed
  refine ⟨rfl, rfl, isNumber ▸ constructed, isNumber, fun sh => ?_, fun heard my kept => ?_⟩
  · rw [← (newParsedEpochChange_eq_ok parsed).1]
    rfl
  · exact kept_newTarget st.tracker.networkConfig st.tracker.myConfig kept rfl rfl rfl rfl rfl

theorem mem_of_lastECEntry {log : List Persistent} {number : Nat}
    (isLast : (lastEntries log).lastECEntry = some number) : .ecEntry number ∈ log := by
  induction log using List.reverseRecOn with
  | nil => cases isLast
  | append_singleton log entry ih =>
    unfold lastEntries at isLast
    rw [List.foldl_append, List.foldl_cons] at isLast
    cases entry with
    | ecEntry epochNumber =>
      cases isLast
      simp
    | _ => exact List.mem_append_left _ (ih isLast)

section Heard

variable (mayVote : MayVote lossy heard my.id)
include mayVote

/-- The node goes on with the epoch change it has recorded. -/
theorem wp_continueChange_logs {st : TrackerState} {number : Nat}
    (recorded : .ecEntry number ∈ st.sh.persisted.entries) :
    wp (continueChange number) st fun final actions _ =>
      (TrackerLogs lossy heard my).rel st final actions := by
  refine wp_get_bind ?_
  split
  · exact logs_onTarget (fun _ => proceeds_advanceState mayVote _) st
  refine wp_effect_bind (wp_mono (wp_changeTo_logs number _ st) ?_)
  rintro mid _ change ⟨rfl, changed⟩
  refine ⟨fun kept => ⟨changed.kept heard my kept, .single ?_⟩, logs_drainFutures mayVote mid⟩
  rw [changed.view, changed.shared]
  refine .goOn changed.constructed ?_
  rw [changed.isNumber]
  exact recorded

theorem wp_resumeFrom_logs (st : TrackerState) :
    wp (resumeFrom (lastEntries st.sh.persisted.entries)) st fun final actions _ =>
      (TrackerLogs lossy heard my).rel st final actions := by
  unfold resumeFrom
  split
  · exact has_bind (logs_resume _ _) (fun _ => logs_drainFutures mayVote) st
  split
  · refine wp_effect_bind ?_
    rw [onShared, wp_zoom]
    refine wp_get_bind (wp_lift_bind fun result added => ?_)
    simp only [wp_bind, wp_modify, wp_emit]
    refine ⟨logs_of_shared rfl ⟨fun _ => id, .append added⟩, wp_continueChange_logs mayVote ?_⟩
    obtain ⟨isLog, _⟩ := Persisted.appendLogEntry_eq_ok added
    rw [isLog]
    simp [Persisted.entries]
  split
  · rename_i number isChange
    exact wp_continueChange_logs mayVote (mem_of_lastECEntry isChange)
  · exact has_fail _ st

/-- **A node starts from its log.** -/
theorem logs_reinitialize : Has (TrackerLogs lossy heard my) EpochTracker.reinitialize := by
  intro st
  refine wp_get_bind (wp_effect_bind ?_)
  rw [assign, wp_modify]
  refine ⟨fun kept => ⟨⟨kept.stocked, kept.target, ?_⟩, .refl _⟩, wp_lift_bind fun _ _ => ?_⟩
  · exact authentic_reinitializeBuffers kept.future _ _
  · have resumes (mid : TrackerState) (same : mid.sh = st.sh) :
        wp (resumeFrom (lastEntries st.sh.persisted.entries)) mid fun final actions _ =>
          (TrackerLogs lossy heard my).rel mid final actions := by
      rw [← same]
      exact wp_resumeFrom_logs mayVote mid
    exact resumes _ rfl

/-! ### Moving on -/

/-- **The node changes to the next epoch**: it records and announces its epoch change. -/
theorem logs_advanceState : Has (TrackerLogs lossy heard my) advanceState := by
  intro st
  refine wp_get_bind ?_
  rw [wp_bind]
  refine wp_get_bind ?_
  split
  · exact wp_fail _ _ _
  rw [wp_pure]
  split
  · exact logs_onTarget (fun _ => proceeds_advanceState mayVote _) st
  split
  · exact has_pure () st
  rw [wp_bind]
  refine wp_mono (wp_changeTo_logs _ _ st) ?_
  rintro mid _ change ⟨rfl, changed⟩
  rw [wp_bind, onShared, wp_zoom]
  refine wp_get_bind (wp_lift_bind fun result added => ?_)
  simp only [wp_bind, wp_modify, wp_emit, List.nil_append]
  refine wp_mono (logs_drainFutures mayVote _) fun final more _ logged => ?_
  rw [← List.append_assoc]
  refine (TrackerLogs lossy heard my).trans (fun kept => ?_) logged
  have keptMid := changed.kept heard my kept
  refine ⟨⟨keptMid.stocked, fun et isTarget => ?_, keptMid.future⟩, .single ?_⟩
  · have target := keptMid.target et isTarget
    exact ⟨target.stocked, target.active, target.prestart⟩
  · rw [changed.shared, ← changed.isNumber] at added
    have move : LogMove lossy st.logView _ _ :=
      .announce st.tracker.networkConfig.nodes changed.constructed added
    rw [changed.view]
    exact move

theorem logs_applyBatchHashResult (epoch seqNo : Nat) (digest : Bytes) :
    Has (TrackerLogs lossy heard my) (applyBatchHashResult epoch seqNo digest) :=
  has_bind logs_current fun _ => has_ite (has_pure ()) (logs_onTarget fun _ =>
    proceeds_onActive mayVote (fun _ => (ActiveEpoch.regular_applyBatchHashResult seqNo digest).writes)
      (ActiveEpoch.follows_applyBatchHashResult seqNo digest) _)

theorem logs_applyEpochChangeDigest (source origin : NodeID) (change : EpochChange) (digest : Bytes) :
    Has (TrackerLogs lossy heard my) (applyEpochChangeDigest source origin change digest) :=
  has_bind logs_current fun _ => has_ite (has_pure ()) (has_ite (has_fail _)
    (logs_onTarget fun _ => proceeds_applyEpochChangeDigest mayVote source origin change digest _))

theorem logs_moveLowWatermark (seqNo : Nat) : Has (TrackerLogs lossy heard my) (moveLowWatermark seqNo) :=
  logs_onTarget fun _ => proceeds_moveLowWatermark mayVote seqNo _

theorem logs_tick : Has (TrackerLogs lossy heard my) tick := by
  refine has_bind (logs_assign (fun _ => rfl) fun _ => rfl) fun _ => has_bind ?_ fun _ =>
    logs_onTarget fun _ => proceeds_tick mayVote _
  refine has_bind has_get fun _ => has_bind logs_current fun _ => has_ite ?_ (has_pure ())
  exact has_bind (logs_assign (fun _ => rfl) fun _ => rfl) fun _ =>
    has_ite (logs_onTarget fun _ => proceeds_assign rfl ⟨rfl, rfl, rfl⟩ fun _ =>
      .single (.finish _)) (has_pure ())

end Heard

end EpochTracker

/-! ### The other components -/

variable {actions : List Action}

theorem CommitState.Drained.plain {cs after : CommitState}
    (drained : Drained cs after actions) : ∀ action ∈ actions, action.plain = true := by
  intro action member
  rcases drained.asks action member with ⟨_, rfl⟩ | ⟨_, _, _, rfl⟩
  · rfl
  · rfl

namespace Shared

variable {lossy : Prop}

theorem logs_drain : Has (logs lossy) drain := by
  intro sh
  refine wp_get_bind (wp_lift_bind fun result drained => ?_)
  simp only [wp_bind, wp_modify, wp_emit]
  exact logs_of_plain (fun _ => id) rfl (CommitState.drain_drained drained).plain

theorem logs_reinitialize : Has (logs lossy) Shared.reinitialize := by
  intro sh
  refine wp_get_bind (wp_lift_bind fun result reinitialized => ?_)
  have plain : ∀ action ∈ result.2, action.plain = true := by
    rcases CommitState.reinitialize_sent reinitialized with sent | ⟨_, _, sent⟩
    · simp [sent]
    · simp [sent, Action.plain]
  refine has_bind (logs_modify ?_ ?_) (fun _ => has_bind (logs_emit plain) fun _ =>
    logs_onClients (Clients.plain_reinitialize _ _)) sh
  · exact fun _ _ => id
  · exact fun _ => rfl

theorem logs_allocate (seqNo : Nat) (networkState : NetworkState) :
    Has (logs lossy) (allocate seqNo networkState) :=
  has_bind has_get fun _ => has_bind (has_lift _) fun _ =>
    has_bind (logs_modify (fun _ _ => id) fun _ => rfl) fun _ => logs_onClients (Clients.plain_allocate _ _)

theorem logs_applyCheckpointResult (seqNo : Nat) (value : Bytes) (networkState : NetworkState) :
    Has (logs lossy) (applyCheckpointResult seqNo value networkState) := by
  intro sh
  refine wp_get_bind (wp_lift_bind fun result applied => ?_)
  have recorded : LogSteps lossy sh.persisted result.2.1 result.2.2 := by
    unfold CommitState.applyCheckpointResult at applied
    simp only at applied
    split at applied
    · cases applied
      exact .refl _
    split at applied
    · cases applied
    obtain ⟨⟨p, writes⟩, added, returned⟩ := bind_eq_ok.mp applied
    cases returned
    refine .write_then (.one added) fun action member => ?_
    rw [List.mem_singleton.mp member]
    exact ⟨_, List.mem_singleton_self _⟩
  obtain ⟨commitState, persisted, actions⟩ := result
  have first : (logs lossy).rel sh { sh with commitState, persisted } actions := ⟨fun _ => id, recorded⟩
  simp only [wp_bind, wp_modify, wp_emit, List.nil_append]
  split
  · have allocates : Has (logs lossy) (allocate seqNo networkState) := logs_allocate seqNo networkState
    exact wp_mono (allocates _) fun final more _ logged => (logs lossy).trans first logged
  · rw [wp_pure, List.append_nil]
    exact first

end Shared

theorem BatchTracker.step_plain {bt : BatchTracker} {source : NodeID} {msg : Msg}
    (stepped : bt.step source msg = .ok actions) : ∀ action ∈ actions, action.plain = true := by
  unfold BatchTracker.step at stepped
  split at stepped
  · cases stepped
    unfold BatchTracker.replyFetchBatch
    split
    · simp
    · simp [Action.plain, Msg.plain]
  · cases stepped
    unfold BatchTracker.applyForwardBatchMsg
    split
    · simp
    · simp [Action.plain]
  · cases stepped

end MirBft
