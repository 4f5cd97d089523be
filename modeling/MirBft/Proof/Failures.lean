/-
**Where the panics of the epoch code cannot come from.**

Three kinds of panics are looked at in the modules that follow: those of the epoch target's own
pointers, those of a state transfer that is not alone, and the end of the fuel of `advance`. The
log, the disseminator, the commit state, the checkpoint tracker and the batch tracker have none of
them (`FailsOnly Elsewhere`), but for `commit` and `transferTo` while a state is transferred.
-/

import MirBft.Library.Safety
import MirBft.Model.StateMachine

namespace MirBft

open Proc

/-- The panics of the pointers of an epoch target. -/
def pointerFailures : List String :=
  ["nil pointer dereference: activeEpoch", "nil pointer dereference: leaderNewEpoch",
    "nil pointer dereference: networkNewEpoch", "nil pointer dereference: myEpochChange",
    "nil pointer dereference: myNewEpoch"]

/-- The assertions of `commit` and `transferTo`. -/
def transferFailures : List String :=
  ["we should never commit during state transfer",
    "multiple state transfers are not supported concurrently"]

/-- What `advance` fails with when it runs out of fuel. -/
def fuelFailure : String := "the state machine advances for longer than it may"

/-- All other failures. -/
def Elsewhere (failure : String) : Prop :=
  failure ∉ pointerFailures ∧ failure ∉ transferFailures ∧ failure ≠ fuelFailure

@[simp] theorem elsewhere_iff {failure : String} :
    Elsewhere failure ↔ failure ≠ "nil pointer dereference: activeEpoch" ∧
      failure ≠ "nil pointer dereference: leaderNewEpoch" ∧
      failure ≠ "nil pointer dereference: networkNewEpoch" ∧
      failure ≠ "nil pointer dereference: myEpochChange" ∧
      failure ≠ "nil pointer dereference: myNewEpoch" ∧
      failure ≠ "we should never commit during state transfer" ∧
      failure ≠ "multiple state transfers are not supported concurrently" ∧
      failure ≠ "the state machine advances for longer than it may" := by
  simp [Elsewhere, pointerFailures, transferFailures, fuelFailure, and_assoc]

/-! ### The log -/

/-- The panics of the log, the outstanding requests and the proposer. -/
def componentFailures : List String :=
  ["nil pointer dereference: logTail", "told to apply acks for bucket which does not exist", "no such client",
    "expected another next request for the bucket", "nil pointer dereference: strongRequests",
    "exactly one strong request must exist", "if multiple requests have quorum, one must be the null request",
    "requests should never ready beyond the next checkpoint interval", "integer divide by zero",
    "nil pointer dereference: clientReqNo"]

variable {α : Type} {result : Go α}

/-- The panics of an epoch's components lie elsewhere. -/
theorem FailsOnly.elsewhere_of_component (fails : FailsOnly (· ∈ componentFailures) result) :
    FailsOnly Elsewhere result := by
  refine fails.mono fun failure member => ?_
  simp only [componentFailures, List.mem_cons, List.not_mem_nil, or_false] at member
  rcases member with rfl | rfl | rfl | rfl | rfl | rfl | rfl | rfl | rfl | rfl <;> simp

theorem FailsOnly.component (fails : FailsOnly (· = "nil pointer dereference: logTail") result) :
    FailsOnly (· ∈ componentFailures) result :=
  fails.mono (by simp [componentFailures])

namespace Persisted

/-- **Appending fails** only while the log is empty. -/
theorem appendLogEntry_fails (p : Persisted) (entry : Persistent) :
    FailsOnly (· = "nil pointer dereference: logTail") (p.appendLogEntry entry) :=
  .ite (fun _ => .throw rfl) fun _ => .pure _

theorem appendLogEntry_elsewhere (p : Persisted) (entry : Persistent) :
    FailsOnly Elsewhere (p.appendLogEntry entry) :=
  (p.appendLogEntry_fails entry).component.elsewhere_of_component

/-- A P- or Q-entry before any epoch is a nil dereference of its own. -/
theorem collectEpochChange_elsewhere (pSkips : Nat → Nat) (logEpoch : Option Nat)
    (change : EpochChange) (entries : List Persistent) :
    FailsOnly Elsewhere (collectEpochChange pSkips logEpoch change entries) := by
  induction entries generalizing pSkips logEpoch change with
  | nil => exact .pure _
  | cons entry rest ih =>
    cases entry with
    | pEntry entry =>
      refine .ite (fun _ => ih _ _ _) fun _ => ?_
      cases logEpoch with
      | none => exact .throw (by simp)
      | some epoch => exact ih _ _ _
    | qEntry entry =>
      cases logEpoch with
      | none => exact .throw (by simp)
      | some epoch => exact ih _ _ _
    | _ => exact ih _ _ _

theorem constructEpochChange_elsewhere (p : Persisted) (newEpoch : Nat) :
    FailsOnly Elsewhere (p.constructEpochChange newEpoch) :=
  collectEpochChange_elsewhere _ _ _ _

end Persisted

/-! ### The disseminator -/

variable {σ : Type}

/-- A pass over a buffer does what `filter` and `apply` do. -/
theorem MsgBuffer.keeps_iterate {guard : Guard String Action σ}
    {filter : σ → NodeID → Msg → Go Applyable} {apply : NodeID → Msg → GoProc σ Unit}
    (filters : ∀ state id msg first, FailsOnly (guard.excused first) (filter state id msg))
    (applies : ∀ id msg, Keeps guard (apply id msg)) (mb : MsgBuffer) :
    Keeps guard (mb.iterate filter apply) := by
  unfold iterate
  generalize mb.nodeBuffer = nb
  induction mb.buffer generalizing nb with
  | nil => exact keeps_pure _
  | cons msg rest ih =>
    refine keeps_get_bind fun state => keeps_lift_bind (filters state nb.id msg) fun applyable _ => ?_
    cases applyable with
    | past | invalid => exact ih _
    | current => exact keeps_bind (applies nb.id msg) fun _ => ih _
    | future => exact keeps_bind (ih _) fun _ => keeps_pure _

theorem MsgBuffer.maintains_iterate {allowed : String → Prop} {good : σ → Prop}
    {filter : σ → NodeID → Msg → Go Applyable} {apply : NodeID → Msg → GoProc σ Unit}
    (filters : ∀ state id msg, FailsOnly allowed (filter state id msg))
    (applies : ∀ id msg, Maintains allowed good (apply id msg)) (mb : MsgBuffer) :
    Maintains allowed good (mb.iterate filter apply) :=
  keeps_between.mp (@keeps_iterate _ (.between allowed good) _ _
    (fun state id msg _ failure failed _ => filters state id msg failure failed)
    (fun id msg => keeps_between.mpr (applies id msg)) mb)

/-- A list is collected with the panics of the callback. -/
theorem AppendList.garbageCollect_elsewhere (list : AppendList α) {gcFunc : α → Go Bool}
    (each : ∀ value, FailsOnly Elsewhere (gcFunc value)) :
    FailsOnly Elsewhere (list.garbageCollect gcFunc) := by
  have filtered (values kept : List α) : FailsOnly Elsewhere
      (values.filterAuxM (fun value => do pure (!(← gcFunc value))) kept) := by
    induction values generalizing kept with
    | nil => exact .pure _
    | cons value rest ih =>
      exact .bind (.bind (each value) fun _ _ => .pure _) fun _ _ => ih _
  exact .bind (.bind (filtered _ _) fun _ _ => .pure _) fun _ _ =>
    .bind (.bind (filtered _ _) fun _ _ => .pure _) fun _ _ => .pure _

theorem ClientTracker.allocate_elsewhere (ct : ClientTracker) (state : NetworkState) :
    FailsOnly Elsewhere (ct.allocate state) := by
  refine .bind (AppendList.garbageCollect_elsewhere _ fun _ => ?_) fun _ _ =>
    .bind (AppendList.garbageCollect_elsewhere _ fun _ => ?_) fun _ _ => .pure _
  all_goals
    dsimp only
    split
    · exact .throw (by simp)
    · exact .pure _

namespace ClientReqNo

/-- Resending panics if the ack that was sent is gone. -/
theorem ackToResend_elsewhere (crn : ClientReqNo) : FailsOnly Elsewhere crn.ackToResend := by
  unfold ackToResend
  split
  · exact .throw (by simp)
  all_goals
    split
    · exact .throw (by simp)
    · exact .pure _

theorem tick_elsewhere (crn : ClientReqNo) : FailsOnly Elsewhere crn.tick := by
  refine .pure_else <| .bind ?_ fun _ _ => .pure _
  exact .pure_else <| .pure_else <|
    .bind (ackToResend_elsewhere _) fun _ _ => .pure _

end ClientReqNo

namespace Client

/-- A request number that is missing is an assertion of the client. -/
theorem reqNo_elsewhere (c : Client) (reqNo : Nat) : FailsOnly Elsewhere (c.reqNo reqNo) := by
  unfold Client.reqNo
  split
  · exact .throw (by simp)
  · exact .pure _

/-- So is a committed one that the window does not have. -/
theorem markCommitted_elsewhere (state : ClientState) (c : Client) (reqNos : List Nat) :
    FailsOnly Elsewhere (markCommitted state c reqNos) := by
  induction reqNos generalizing c with
  | nil => exact .pure _
  | cons reqNo rest ih =>
    refine .ite (fun _ => ?_) fun _ => ih _
    split
    · exact .throw (by simp)
    · exact ih _

end Client

theorem Clients.filter_elsewhere (ct : Clients) (source : NodeID) (msg : Msg) :
    FailsOnly Elsewhere (ct.filter source msg) := by
  cases msg with
  | requestAck ack =>
    unfold filter
    dsimp only
    split
    · exact .pure _
    · exact .pure_else <| .pure_else (.pure _)
  | fetchRequest ack => exact .pure _
  | _ => exact .throw (by simp)

/-! ### The commit state -/

/-- The panics of the clients' bookkeeping: a batch has a request that its client's window has no
room for. -/
def clientFailures : List String :=
  ["nil pointer dereference: committingClients",
    "index out of range: committedSinceLastCheckpoint",
    "if no client reqs are uncommitted, then all though the high watermark should be committed",
    "makeslice: len out of range",
    "the first uncommitted cannot be marked committed",
    "requested to set bit index beyond the byte slice"]

/-- The panics of the committing clients lie elsewhere. -/
theorem FailsOnly.elsewhere_of_clients (fails : FailsOnly (· ∈ clientFailures) result) :
    FailsOnly Elsewhere result := by
  refine fails.mono fun failure member => ?_
  simp only [clientFailures, List.mem_cons, List.not_mem_nil, or_false] at member
  rcases member with rfl | rfl | rfl | rfl | rfl | rfl <;> simp

namespace CommittingClient

theorem markCommitted_fails (cc : CommittingClient) (seqNo reqNo : Nat) :
    FailsOnly (· ∈ clientFailures) (cc.markCommitted seqNo reqNo) :=
  .throw_else (by simp [clientFailures]) <|
    .throw_else (by simp [clientFailures]) <| .pure _

/-- The mask is set in range, or it is the clients' panic. -/
theorem fillMask_fails (committed : List (Option Nat)) (mask : Bytes) (bits : List Nat) :
    FailsOnly (· ∈ clientFailures) (fillMask committed mask bits) := by
  induction bits generalizing mask with
  | nil => exact .pure _
  | cons bit rest ih =>
    unfold fillMask
    split
    · exact .throw (by simp [clientFailures])
    · exact ih _
    · refine .throw_else (by simp [clientFailures]) <| .bind ?_ fun _ _ => ih _
      unfold setBit
      split
      · exact .throw (by simp [clientFailures])
      · exact .pure _

theorem createCheckpointState_fails (cc : CommittingClient) :
    FailsOnly (· ∈ clientFailures) cc.createCheckpointState := by
  unfold createCheckpointState
  dsimp only
  split
  · exact .pure _
  · exact .throw_else (by simp [clientFailures]) <| .pure _
  · refine .throw_else (by simp [clientFailures]) <| .bind ?_ fun _ _ => .pure _
    refine .pure_else <| .ite (fun _ => ?_) fun _ => fillMask_fails _ _ _
    exact .throw_else (by simp [clientFailures]) <| .pure _

end CommittingClient

namespace CommitState

theorem newCommittingClients_elsewhere (seqNo : Nat) (clients : GoMap Nat CommittingClient)
    (states : List ClientState) : FailsOnly Elsewhere (newCommittingClients seqNo clients states) := by
  have fill (mask : Bytes) (committed : List (Option Nat)) (bits : List Nat) :
      FailsOnly Elsewhere (fillCommitted seqNo mask committed bits) := by
    induction bits generalizing committed with
    | nil => exact .pure _
    | cons bit rest ih =>
      exact .ite (fun _ => ih _) fun _ => .throw_else (by simp) <| ih _
  induction states generalizing clients with
  | nil => exact .pure _
  | cons state rest ih => exact .bind (.bind (fill _ _ _) fun _ _ => .pure _) fun _ _ => ih _

/-- **A start from the log** needs a C-entry, and fails without. -/
theorem reinitialize_elsewhere (cs : CommitState) (p : Persisted) :
    FailsOnly Elsewhere (CommitState.reinitialize cs p) := by
  unfold CommitState.reinitialize
  split
  · exact .throw (by simp)
  · rename_i lastCEntry secondToLast lastTEntry _
    refine .bind (newCommittingClients_elsewhere _ _ _) fun _ _ => ?_
    rcases lastTEntry with _ | ⟨seqNo, value⟩
    · exact .pure _
    · exact .pure_else (.pure _)

variable {cs : CommitState}

/-- Without a transfer under way, `commit` has other failures only. -/
theorem commit_elsewhere (alone : cs.transferring = false) (qEntry : QEntry) :
    FailsOnly Elsewhere (cs.commit qEntry) := by
  unfold commit
  rw [alone, if_neg Bool.false_ne_true]
  refine .throw_else (by simp) <| .pure_else ?_
  refine .throw_else (by simp) ?_
  refine .throw_else (by simp) ?_
  split
  · exact .throw (by simp)
  · exact .throw_else (by simp) <| .pure _
  · exact .pure_else (.pure _)

theorem nextClients_elsewhere (clients : GoMap Nat CommittingClient) (states : List ClientState) :
    FailsOnly Elsewhere (nextClients clients states) := by
  induction states generalizing clients with
  | nil => exact .pure _
  | cons state rest ih =>
    unfold nextClients
    split
    · exact .throw (by simp)
    · exact .bind (CommittingClient.createCheckpointState_fails _).elsewhere_of_clients fun _ _ =>
        .bind (ih _) fun _ _ => .pure _

theorem reconfigure_elsewhere (config : NetworkConfig) (clients : List ClientState)
    (reconfigurations : List Reconfiguration) :
    FailsOnly Elsewhere (reconfigure config clients reconfigurations) := by
  induction reconfigurations generalizing config clients with
  | nil => exact .pure _
  | cons reconfiguration rest ih =>
    cases reconfiguration with
    | newClient id width => exact ih _ _
    | removeClient id => exact .ite (fun _ => ih _ _) fun _ => .throw (by simp)
    | newConfig config => exact ih _ _

/-- A delivered batch fails on a client without a window for it. -/
theorem markRequests_fails (seqNo : Nat) (clients : GoMap Nat CommittingClient)
    (acks : List RequestAck) : FailsOnly (· ∈ clientFailures) (markRequests seqNo clients acks) := by
  induction acks generalizing clients with
  | nil => exact .pure _
  | cons ack rest ih =>
    unfold markRequests
    split
    · exact .throw (by simp [clientFailures])
    · exact .bind (CommittingClient.markCommitted_fails _ _ _) fun _ _ => ih _

/-- `drain` fails on a gap or an order of its own. -/
theorem drainOnce_elsewhere (cs : CommitState) : FailsOnly Elsewhere cs.drainOnce := by
  have requests : FailsOnly Elsewhere cs.requestCheckpoint :=
    .bind (nextClients_elsewhere _ _) fun _ _ => .bind (reconfigure_elsewhere _ _ _) fun _ _ => .pure _
  unfold drainOnce
  dsimp only
  -- The next batch is delivered after a checkpoint request or without one.
  split
  on_goal 1 => refine .bind requests fun _ _ => ?_
  on_goal 2 => refine .bind (.pure _) fun _ _ => ?_
  all_goals
    split
    · exact .throw (by simp)
    · exact .pure _
    · exact .throw_else (by simp) <|
        .bind (markRequests_fails _ _ _).elsewhere_of_clients fun _ _ => .pure _

theorem drain_elsewhere (cs : CommitState) : FailsOnly Elsewhere cs.drain := by
  unfold drain
  generalize cs.lowWatermark + 2 * cs.checkpointInterval - cs.lastAppliedCommit + 1 = fuel
  induction fuel generalizing cs with
  | zero => exact .pure _
  | succ fuel ih =>
    refine .ite (fun _ => .bind (drainOnce_elsewhere cs) fun _ _ => ?_) fun _ => .pure _
    exact .ite (fun _ => .bind (ih _) fun _ _ => .pure _) fun _ => .pure _

/-- **A transfer that is alone** keeps its assertion. -/
theorem transferTo_elsewhere (alone : cs.transferring = false) (p : Persisted)
    (seqNo : Nat) (value : Bytes) : FailsOnly Elsewhere (cs.transferTo p seqNo value) := by
  unfold transferTo
  rw [alone]
  exact .bind (p.appendLogEntry_elsewhere _) fun _ _ => .pure _

/-- A stale result, too, has a text of its own. -/
theorem applyCheckpointResult_elsewhere (cs : CommitState) (p : Persisted) (seqNo : Nat)
    (value : Bytes) (networkState : NetworkState) :
    FailsOnly Elsewhere (cs.applyCheckpointResult p seqNo value networkState) :=
  .pure_else <| .throw_else (by simp) <|
    .bind (p.appendLogEntry_elsewhere _) fun _ _ => .pure _

end CommitState

/-! ### The checkpoint tracker -/

/-- A node that disagrees with the network panics, elsewhere. -/
theorem CheckpointVotes.applyCheckpointMsg_elsewhere (cw : CheckpointVotes) (myID source : NodeID)
    (value : Option Bytes) : FailsOnly Elsewhere (cw.applyCheckpointMsg myID source value) := by
  unfold applyCheckpointMsg
  dsimp only
  split
  · exact .ite (fun _ => .throw_else (by simp) <| .pure _) fun _ => .pure _
  · exact .pure _

/-- The methods of the checkpoint tracker do nothing but look at maps, and fail elsewhere if they
fail. -/
def CpSilent : Guard String Action CpState where
  rel before after actions := actions = [] ∧ ∃ orders, after.sh = { before.sh with orders }
  refl st := ⟨rfl, st.sh.orders, rfl⟩
  trans := by
    rintro first second third _ _ ⟨rfl, orders, isSecond⟩ ⟨rfl, orders', isThird⟩
    refine ⟨rfl, orders', ?_⟩
    rw [isThird, isSecond]
  excused _ := Elsewhere
  excused_rel _ isOther := isOther

theorem CpSilent.same {before after : CpState} {actions : List Action}
    (silent : CpSilent.rel before after actions) :
    after.sh.commitState = before.sh.commitState ∧ after.sh.persisted = before.sh.persisted := by
  obtain ⟨_, _, isShared⟩ := silent
  rw [isShared]
  exact ⟨rfl, rfl⟩

namespace CheckpointTracker

theorem lowWatermark_elsewhere (ct : CheckpointTracker) : FailsOnly Elsewhere ct.lowWatermark := by
  unfold lowWatermark
  split
  · exact .throw (by simp)
  · exact .pure _

theorem highWatermark_elsewhere (ct : CheckpointTracker) : FailsOnly Elsewhere ct.highWatermark := by
  unfold highWatermark
  split
  · exact .throw (by simp)
  · exact .pure _

theorem applyCheckpointMsg_elsewhere (ct : CheckpointTracker) (source : NodeID) (seqNo : Nat)
    (value : Option Bytes) : FailsOnly Elsewhere (ct.applyCheckpointMsg source seqNo value) :=
  .bind ct.highWatermark_elsewhere fun _ _ => .bind ct.lowWatermark_elsewhere fun _ _ =>
    .pure_else <|
      .bind (CheckpointVotes.applyCheckpointMsg_elsewhere _ _ _ _) fun _ _ =>
        .pure_else <| .pure_else (.pure _)

theorem filter_elsewhere (st : CpState) (source : NodeID) (msg : Msg) :
    FailsOnly Elsewhere (filter st source msg) := by
  cases msg with
  | checkpoint seqNo value =>
    exact .bind st.ct.lowWatermark_elsewhere fun _ _ => .bind st.ct.highWatermark_elsewhere fun _ _ =>
      .pure_else <| .pure_else (.pure _)
  | _ => exact .throw (by simp)

theorem extend_elsewhere (fuel : Nat) (ct : CheckpointTracker) :
    FailsOnly Elsewhere (extend fuel ct) := by
  induction fuel generalizing ct with
  | zero => exact .pure _
  | succ fuel ih =>
    exact .ite (fun _ => .bind ct.highWatermark_elsewhere fun _ _ => ih _) fun _ => .pure _

theorem loadCEntries_elsewhere (ct : CheckpointTracker) (entries : List Persistent) :
    FailsOnly Elsewhere (ct.loadCEntries entries) := by
  induction entries generalizing ct with
  | nil => exact .pure _
  | cons entry rest ih =>
    cases entry with
    | cEntry entry =>
      exact .bind (CheckpointVotes.applyCheckpointMsg_elsewhere _ _ _ _) fun _ _ => ih _
    | _ => exact ih _

/-- A method on the tracker alone shares nothing. -/
theorem silent_update {method : CheckpointTracker → Go CheckpointTracker}
    (fails : ∀ ct, FailsOnly Elsewhere (method ct)) : Keeps CpSilent (CheckpointTracker.update method) :=
  keeps_get_bind fun st => keeps_lift_bind (fun _ => fails st.ct) fun _ _ => fun _ => safe_modify
    ⟨rfl, _, rfl⟩

theorem silent_pickOrder : Keeps CpSilent (onShared Shared.pickOrder) :=
  fun _ => safe_zoom (safe_get_bind (safe_bind (safe_modify (safe_pure ⟨rfl, _, rfl⟩))))

theorem silent_fail {α : Type} {failure : String} (isOther : Elsewhere failure) :
    Keeps CpSilent (fail failure : GoProc CpState α) := keeps_fail fun _ => isOther

theorem silent_applyMsg (source : NodeID) (msg : Msg) : Keeps CpSilent (applyMsg source msg) := by
  cases msg with
  | checkpoint seqNo value => exact silent_update fun ct => ct.applyCheckpointMsg_elsewhere _ _ _
  | _ => exact silent_fail (by simp)

/-- **A checkpoint message** changes the tracker only. -/
theorem silent_step (source : NodeID) (msg : Msg) : Keeps CpSilent (step source msg) := by
  refine keeps_get_bind fun st => keeps_lift_bind (fun _ => filter_elsewhere _ _ _) fun applyable _ => ?_
  cases applyable with
  | past | invalid => exact keeps_pure _
  | current => exact silent_applyMsg source msg
  | future =>
    dsimp only
    split
    · exact silent_fail (by simp)
    · exact keeps_bind (silent_update fun _ => .pure _) fun _ => silent_applyMsg source msg

theorem silent_garbageCollect : Keeps CpSilent garbageCollect := by
  refine keeps_get_bind fun st => ?_
  split
  · exact silent_fail (by simp)
  refine keeps_bind (silent_update fun ct => extend_elsewhere _ _) fun _ =>
    keeps_bind (keeps_forEach fun id _ => keeps_get_bind fun st => ?_) fun _ =>
    keeps_bind (silent_update fun _ => .pure _) fun _ => keeps_pure _
  split
  · exact silent_fail (by simp)
  · exact keeps_bind (MsgBuffer.keeps_iterate (fun st id msg _ => filter_elsewhere st id msg)
      silent_applyMsg _)
      fun _ => silent_update fun _ => .pure _

/-- A start reads the log, and writes nothing to it. -/
theorem silent_reinitialized : Keeps CpSilent CheckpointTracker.reinitialize := by
  refine keeps_get_bind fun old => ?_
  split
  · exact silent_fail (by simp)
  refine keeps_lift_bind (fun _ => loadCEntries_elsewhere _ _) fun ct _ =>
    keeps_lift_bind (fun _ => ct.lowWatermark_elsewhere) fun low _ =>
    keeps_bind (silent_update fun _ => .pure _) fun _ => keeps_bind silent_pickOrder fun order =>
    keeps_bind (keeps_forEach fun entry _ => ?_) fun _ =>
    keeps_bind silent_garbageCollect fun _ => keeps_pure _
  refine keeps_get_bind fun st => keeps_lift_bind (fun _ => st.ct.lowWatermark_elsewhere) fun low _ =>
    keeps_ite (keeps_pure _) (keeps_bind silent_pickOrder fun order =>
    keeps_forEach fun entry _ => keeps_get_bind fun st => keeps_forEach fun node _ => ?_)
  exact silent_update fun ct => ct.applyCheckpointMsg_elsewhere _ _ _

end CheckpointTracker

/-! ### Sequences -/

namespace Sequence

section Failures

variable {agreements : RequestAck → Finset NodeID} {s : Sequence} {p : Persisted}

/-- **The operations fail** where the log has no tail, but for their assertions. -/
theorem advanceState_failsOnly (s : Sequence) (p : Persisted) :
    FailsOnly (· = "nil pointer dereference: logTail") (s.advanceState agreements p) := by
  refine .untilStable (fun state => ?_) 7 (s, p)
  obtain ⟨s, p⟩ := state
  unfold advanceOnce
  cases here : s.state <;> simp only [here]
  case uninitialized | allocated | pendingRequests | prepared | committed => exact .pure _
  case ready =>
    split
    · exact .bind (p.appendLogEntry_fails _) fun _ _ => .pure _
    · exact .pure _
  case preprepared =>
    unfold checkPrepareQuorum
    split
    · exact .bind (p.appendLogEntry_fails _) fun _ _ => .pure _
    · exact .pure _

/-- A vote fails only where it writes to an empty log. -/
theorem applyPrepareMsg_failsOnly (s : Sequence) (p : Persisted) (source : NodeID) (digest : Option Bytes) :
    FailsOnly (· = "nil pointer dereference: logTail") (s.applyPrepareMsg agreements p source digest) := by
  unfold applyPrepareMsg
  split
  · exact .pure _
  · exact advanceState_failsOnly _ p

theorem applyCommitMsg_failsOnly (s : Sequence) (p : Persisted) (source : NodeID) (digest : Bytes) :
    FailsOnly (· = "nil pointer dereference: logTail") (s.applyCommitMsg agreements p source digest) := by
  unfold applyCommitMsg
  split
  · exact .pure _
  · exact advanceState_failsOnly _ p

/-- The assertion of `allocate` holds for a fresh sequence. -/
theorem allocate_failsOnly {requestAcks : List RequestAck}
    {outstandingReqs : Finset Bytes} (fresh : s.state = .uninitialized) :
    FailsOnly (· = "nil pointer dereference: logTail")
      (s.allocate agreements p requestAcks outstandingReqs) := by
  unfold allocate
  rw [if_neg (not_not.mpr fresh)]
  split
  · exact applyPrepareMsg_failsOnly _ p _ _
  · exact .bind (advanceState_failsOnly _ p) fun _ _ => .pure _

/-- That of `satisfyOutstanding`, for a request that is awaited. -/
theorem satisfyOutstanding_failsOnly {ack : RequestAck} (member : ack.digest ∈ s.outstandingReqs) :
    FailsOnly (· = "nil pointer dereference: logTail") (s.satisfyOutstanding agreements p ack) := by
  unfold satisfyOutstanding
  rw [if_neg (not_not.mpr member)]
  exact advanceState_failsOnly _ p

end Failures

variable (agreements : RequestAck → Finset NodeID)

theorem applyPrepareMsg_elsewhere (s : Sequence) (p : Persisted) (source : NodeID)
    (digest : Option Bytes) : FailsOnly Elsewhere (s.applyPrepareMsg agreements p source digest) :=
  (s.applyPrepareMsg_failsOnly p source digest).component.elsewhere_of_component

theorem allocate_elsewhere (s : Sequence) (p : Persisted) (requestAcks : List RequestAck)
    (outstandingReqs : Finset Bytes) :
    FailsOnly Elsewhere (s.allocate agreements p requestAcks outstandingReqs) :=
  .throw_else (by simp) <|
    .ite (fun _ => applyPrepareMsg_elsewhere _ _ _ _ _) fun _ =>
      .bind (advanceState_failsOnly _ _).component.elsewhere_of_component fun _ _ => .pure _

theorem satisfyOutstanding_elsewhere (s : Sequence) (p : Persisted) (ack : RequestAck) :
    FailsOnly Elsewhere (s.satisfyOutstanding agreements p ack) :=
  .throw_else (by simp) <|
    (advanceState_failsOnly _ _).component.elsewhere_of_component

theorem applyCommitMsg_elsewhere (s : Sequence) (p : Persisted) (source : NodeID) (digest : Bytes) :
    FailsOnly Elsewhere (s.applyCommitMsg agreements p source digest) :=
  (s.applyCommitMsg_failsOnly p source digest).component.elsewhere_of_component

end Sequence

/-! ### Outstanding requests and proposals -/

/-- Acks out of a client's order are refused with a panic. -/
theorem AllOutstandingReqs.applyAcks_failsOnly (ao : AllOutstandingReqs) (bucket seqNo : Nat)
    (batch : List RequestAck) : FailsOnly (· ∈ componentFailures) (ao.applyAcks bucket seqNo batch) := by
  have applies (ao : AllOutstandingReqs) (waiting : Finset Bytes) :
      FailsOnly (· ∈ componentFailures) (ao.applyAcksFrom bucket seqNo waiting batch) := by
    induction batch generalizing ao waiting with
    | nil => exact .pure _
    | cons req rest ih =>
      unfold applyAcksFrom
      split
      · exact .throw (by simp [componentFailures])
      split
      · exact .throw (by simp [componentFailures])
      exact .throw_else (by simp [componentFailures]) <| .ite (fun _ => ih _ _) fun _ => ih _ _
  exact .throw_else (by simp [componentFailures]) <| applies _ _

/-- Of several strong requests one must be the null request. -/
theorem proposedRequest_failsOnly (crn : ClientReqNo) :
    FailsOnly (· ∈ componentFailures) (proposedRequest crn) := by
  unfold proposedRequest
  dsimp only
  split
  · exact .throw (by simp [componentFailures])
  · split
    · exact .throw (by simp [componentFailures])
    · exact .pure _
  · refine .ite (fun _ => ?_) fun _ => .throw (by simp [componentFailures])
    split
    · exact .throw (by simp [componentFailures])
    · exact .pure _

theorem Proposer.queueAll_failsOnly (clients : Clients) (toSeqNo : Nat) (p : Proposer)
    (ready : List (Nat × Nat)) :
    FailsOnly (· ∈ componentFailures) (Proposer.queueAll clients toSeqNo p ready) := by
  induction ready generalizing p with
  | nil => exact .pure _
  | cons crn rest ih =>
    unfold queueAll
    split
    · exact .throw (by simp [componentFailures])
    refine .bind (.pure_else <| .throw_else (by simp [componentFailures]) ?_)
      fun _ _ => ih _
    dsimp only
    split
    · exact .pure _
    refine .bind (proposedRequest_failsOnly _) fun _ _ => .bind ?_ fun _ _ => .pure _
    exact .pure_else <| .throw_else (by simp [componentFailures]) <| .pure _

/-! ### The active epoch -/

namespace ActiveEpoch

theorem assignBuckets_elsewhere (epochConfig : EpochConfig) (nodes : List NodeID) (overflowIndex : Nat)
    (buckets : List Nat) :
    FailsOnly Elsewhere (assignBuckets epochConfig nodes overflowIndex buckets) := by
  induction buckets generalizing overflowIndex with
  | nil => exact .pure _
  | cons bucket rest ih =>
    unfold assignBuckets
    split
    · exact .throw (by simp)
    refine .ite (fun _ => .bind (ih _) fun _ _ => .pure _) fun _ => ?_
    split
    · exact .throw (by simp)
    · exact .bind (ih _) fun _ _ => .pure _

theorem dropIntervals_elsewhere (seqNo : Nat) (sequences : List (List Nat)) :
    FailsOnly Elsewhere (dropIntervals seqNo sequences) := by
  induction sequences with
  | nil => exact .throw (by simp)
  | cons interval rest ih =>
    cases interval with
    | nil => exact .throw (by simp)
    | cons low interval => exact .ite (fun _ => ih) fun _ => .pure _

theorem bucketOf_elsewhere (ae : ActiveEpoch) (seqNo : Nat) : FailsOnly Elsewhere (ae.bucketOf seqNo) :=
  .throw_else (by simp) <| .pure _

theorem lowWatermark_elsewhere (ae : ActiveEpoch) : FailsOnly Elsewhere ae.lowWatermark := by
  unfold lowWatermark
  split
  · exact .pure _
  · exact .throw (by simp)

end ActiveEpoch

namespace AeState

theorem highWatermark_elsewhere (st : AeState) : FailsOnly Elsewhere st.highWatermark := by
  unfold highWatermark
  split
  · exact .pure _
  split
  · exact .throw (by simp)
  · exact .pure _

/-- A sequence outside the window is an assertion of the epoch. -/
theorem sequence_elsewhere (st : AeState) (seqNo : Nat) : FailsOnly Elsewhere (st.sequence seqNo) := by
  refine .bind st.ae.lowWatermark_elsewhere fun low _ => ?_
  refine .throw_else (by simp) <|
    .throw_else (by simp) ?_
  split
  · exact .throw (by simp)
  split
  · exact .throw (by simp)
  refine .throw_else (by simp) ?_
  split
  · exact .throw (by simp)
  · exact .pure _

theorem inWindow_elsewhere (st : AeState) (seqNo : Nat) : FailsOnly Elsewhere (st.inWindow seqNo) :=
  .bind st.ae.lowWatermark_elsewhere fun _ _ => .pure_else <|
    .bind st.highWatermark_elsewhere fun _ _ => .pure_else (.pure _)

theorem filter_elsewhere (st : AeState) (source : NodeID) (msg : Msg) :
    FailsOnly Elsewhere (st.filter source msg) := by
  cases msg with
  | preprepare seqNo epoch batch =>
    refine .bind (st.ae.bucketOf_elsewhere seqNo) fun bucket _ => .pure_else <|
      .pure_else <| .bind st.highWatermark_elsewhere fun _ _ =>
      .pure_else <| .bind st.ae.lowWatermark_elsewhere fun _ _ =>
      .pure_else ?_
    split
    · exact .throw (by simp)
    · exact .pure_else <| .pure_else (.pure _)
  | prepare seqNo epoch digest =>
    exact .bind (st.ae.bucketOf_elsewhere seqNo) fun bucket _ => .pure_else <|
      .pure_else <| st.inWindow_elsewhere seqNo
  | commit seqNo epoch digest => exact .pure_else <| st.inWindow_elsewhere seqNo
  | _ => exact .throw (by simp)

end AeState

/-! ### Batches and configurations -/

theorem BatchTracker.step_elsewhere (bt : BatchTracker) (source : NodeID) (msg : Msg) :
    FailsOnly Elsewhere (bt.step source msg) := by
  cases msg with
  | fetchBatch seqNo digest => exact .pure _
  | forwardBatch seqNo requestAcks digest => exact .pure _
  | _ => exact .throw (by simp)

theorem BatchTracker.applyVerifyBatchHashResult_elsewhere (bt : BatchTracker)
    (digest expectedDigest : Bytes) (requestAcks : List RequestAck) :
    FailsOnly Elsewhere (bt.applyVerifyBatchHashResult digest expectedDigest requestAcks) :=
  .throw_else (by simp) <| .pure_else (.pure _)

/-- Two checkpoints with quorums for one number are a panic here. -/
theorem constructNewEpochConfig_elsewhere (iter : MapIter) (config : NetworkConfig)
    (newLeaders : List NodeID) (epochChanges : GoMap NodeID ParsedEpochChange) :
    FailsOnly Elsewhere (constructNewEpochConfig iter config newLeaders epochChanges) := by
  have selects (table : List (Σ _ : Checkpoint, List NodeID)) (maxCheckpoint : Option Checkpoint) :
      FailsOnly Elsewhere (selectCheckpoint config epochChanges table maxCheckpoint) := by
    induction table generalizing maxCheckpoint with
    | nil => exact .pure _
    | cons entry rest ih =>
      refine .ite (fun _ => ih _) fun _ => .ite (fun _ => ih _) fun _ => ?_
      cases maxCheckpoint with
      | none => exact ih _
      | some highest =>
        exact .ite (fun _ => ih _) fun _ => .throw_else (by simp) <| ih _
  refine .bind (selects _ _) fun maxCheckpoint _ => ?_
  cases maxCheckpoint with
  | none => exact .pure _
  | some maxCheckpoint =>
    dsimp only
    split
    · exact .pure _
    · exact .pure _

end MirBft
