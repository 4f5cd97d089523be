/-
**The application gets every batch once, in order.**

`CommitRun` is a life of the commit state from a log on: committed batches arrive, in any order that
the callers' contract allows, the batches are drained, and the application answers the checkpoint
requests.

* `schedule`: what the application is to get, one batch after the other, and a checkpoint request
  after each interval;
* `Holding`, `Delivered`: the invariant. The two halves of the commit state are one window that
  holds the committed batches above the low watermark, and what has been delivered is a prefix of
  the schedule;
* `delivery_in_order`: **the watermarks stay in order, the application gets a prefix of the
  schedule, and no assertion of `commit` or `drain` fails**: `drain` stops only at requests that the
  clients' windows have no room for (`clientFailures`);
* `replicas_deliver_alike`: of two replicas, one has delivered what the other one has, and maybe
  more.
-/

import MirBft.Library.HalfWindow
import MirBft.Proof.CommitMoves
import MirBft.Proof.Failures

namespace MirBft

open List CommitState HalfWindow

/-! ### What the application gets -/

/-- A batch, or a request for a checkpoint. -/
inductive Delivery where
  | batch (seqNo : Nat)
  | checkpoint (seqNo : Nat)
deriving DecidableEq

/-- What the application gets of a list of actions. -/
def deliveries (actions : List Action) : List Delivery :=
  actions.filterMap fun action => match action with
    | .commit batch => some (.batch batch.seqNo)
    | .checkpoint seqNo _ _ => some (.checkpoint seqNo)
    | _ => none

@[simp] theorem deliveries_append (first second : List Action) :
    deliveries (first ++ second) = deliveries first ++ deliveries second :=
  filterMap_append

/-- The checkpoints that a list of actions asks for. -/
def requested (actions : List Action) : List (Nat × NetworkConfig × List ClientState) :=
  actions.filterMap fun action => match action with
    | .checkpoint seqNo config clients => some (seqNo, config, clients)
    | _ => none

@[simp] theorem requested_append (first second : List Action) :
    requested (first ++ second) = requested first ++ requested second :=
  filterMap_append

/-- **What the application is to get** after the checkpoint `last`, up to `count` batches. -/
def schedule (last interval : Nat) : Nat → List Delivery
  | 0 => []
  | count + 1 => schedule last interval count ++ .batch (last + (count + 1)) ::
      if (count + 1) % interval = 0 then [.checkpoint (last + (count + 1))] else []

/-! ### Runs of the commit state -/

/-- A commit state, the log, and what has happened so far: the batches that were committed, all
actions, and the number of checkpoint requests that were answered. -/
structure CommitHistory where
  cs : CommitState
  log : Persisted
  calls : List QEntry
  actions : List Action
  answered : Nat

/-- The callers' contract of `commit`. -/
structure Committable (history : CommitHistory) (qEntry : QEntry) : Prop where
  next : qEntry.seqNo ≤ history.cs.highestCommit + 1
  stop : qEntry.seqNo ≤ history.cs.stopAtSeqNo
  same : ∀ earlier ∈ history.calls, earlier.seqNo = qEntry.seqNo → earlier.digest = qEntry.digest

/-- **A life of the commit state**, from a log whose last C-entry is `last`: the two C-entries that
`reinitialize` looks at have nothing to reconfigure, and no state transfer is under way.
`outstanding` says whether a checkpoint request from before is unanswered: `reinitialize` does not
reset that. -/
inductive CommitRun (outstanding : Bool) (last : CEntry) : CommitHistory → Prop
  | start {before cs : CommitState} {log : Persisted} {actions : List Action}
      {second : Option CEntry} {transfer : Option (Nat × Bytes)} :
      before.checkpointPending = outstanding →
      CommitState.lastEntries none none none log.entries = (some last, second, transfer) →
      last.networkState.pendingReconfigurations = [] →
      (∀ entry ∈ second, entry.networkState.pendingReconfigurations = []) →
      reinitialize before log = .ok (cs, actions) → cs.transferring = false →
      CommitRun outstanding last ⟨cs, log, [], [], 0⟩
  | commit {history : CommitHistory} {qEntry : QEntry} {cs : CommitState} :
      CommitRun outstanding last history →
      Committable history qEntry → history.cs.commit qEntry = .ok cs →
      CommitRun outstanding last { history with cs, calls := history.calls ++ [qEntry] }
  | drain {history : CommitHistory} {cs : CommitState} {actions : List Action} :
      CommitRun outstanding last history → history.cs.drain = .ok (cs, actions) →
      CommitRun outstanding last { history with cs, actions := history.actions ++ actions }
  | checkpointResult {history : CommitHistory} {cs : CommitState} {log : Persisted}
      {actions : List Action} {seqNo : Nat} {config : NetworkConfig} {clients : List ClientState}
      (value : Bytes) : CommitRun outstanding last history →
      (requested history.actions)[history.answered]? = some (seqNo, config, clients) →
      history.cs.applyCheckpointResult history.log seqNo value ⟨config, clients, []⟩ =
        .ok (cs, log, actions) →
      CommitRun outstanding last
        ⟨cs, log, history.calls, history.actions ++ actions, history.answered + 1⟩

/-! ### The clients -/

/-- Every client is stored under its id, and those of the network state are there. -/
structure ClientsKnown (clients : GoMap Nat CommittingClient) (states : List ClientState) : Prop where
  named : ∀ id client, clients.lookup id = some client → client.lastState.id = id
  known : ∀ state ∈ states, state.id ∈ clients

namespace CommittingClient

variable {cc after : CommittingClient}

theorem markCommitted_id {seqNo reqNo : Nat}
    (marked : cc.markCommitted seqNo reqNo = .ok after) : after.lastState = cc.lastState := by
  unfold markCommitted at marked
  split at marked
  · cases marked
  · simp only at marked
    split at marked
    · cases marked
    · cases marked
      rfl

theorem createCheckpointState_id {state : ClientState}
    (created : cc.createCheckpointState = .ok (state, after)) :
    state.id = cc.lastState.id ∧ after.lastState.id = cc.lastState.id := by
  unfold createCheckpointState at created
  simp only at created
  split at created
  · cases created
    exact ⟨rfl, rfl⟩
  · split at created
    · cases created
    · cases created
      exact ⟨rfl, rfl⟩
  · split at created
    · cases created
    · obtain ⟨mask, _, isState⟩ := bind_eq_ok.mp created
      cases isState
      exact ⟨rfl, rfl⟩

end CommittingClient

namespace ClientsKnown

variable {clients after : GoMap Nat CommittingClient} {states : List ClientState}

variable (known : ClientsKnown clients states)
include known

theorem insert {id : Nat} {client : CommittingClient}
    (named : client.lastState.id = id) : ClientsKnown (clients.insert id client) states where
  named other found isFound := by
    rcases GoMap.of_lookup_insert isFound with ⟨rfl, rfl⟩ | ⟨_, isFound⟩
    · exact named
    · exact known.named other found isFound
  known state member := (AList.mem_insert clients).mpr (Or.inr (known.known state member))

theorem markRequests {seqNo : Nat} {requests : List RequestAck}
    (marked : markRequests seqNo clients requests = .ok after) :
    ClientsKnown after states := by
  induction requests generalizing clients with
  | nil =>
    cases marked
    exact known
  | cons req rest ih =>
    unfold markRequests at marked
    split at marked
    · cases marked
    · rename_i client found
      obtain ⟨updated, isUpdated, continued⟩ := bind_eq_ok.mp marked
      refine ih (known.insert ?_) continued
      rw [CommittingClient.markCommitted_id isUpdated, known.named _ _ found]

theorem nextClients {olds news : List ClientState}
    (created : CommitState.nextClients clients olds = .ok (news, after)) :
    ClientsKnown after states ∧ ∀ state ∈ news, state.id ∈ after := by
  induction olds generalizing clients news states with
  | nil =>
    cases created
    exact ⟨known, by simp⟩
  | cons old rest ih =>
    unfold CommitState.nextClients at created
    split at created
    · cases created
    · rename_i client found
      obtain ⟨⟨state, updated⟩, isCreated, more⟩ := bind_eq_ok.mp created
      obtain ⟨⟨laterStates, later⟩, continued, isResult⟩ := bind_eq_ok.mp more
      cases isResult
      obtain ⟨stateId, updatedId⟩ := CommittingClient.createCheckpointState_id isCreated
      have sameId := known.named _ _ found
      have inserted := known.insert (updatedId.trans sameId)
      -- The rest of the loop keeps the client, since its state is one of those to be kept.
      have withState : ClientsKnown (clients.insert old.id updated) (state :: states) :=
        ⟨inserted.named, forall_mem_cons.mpr ⟨by
          rw [stateId, sameId]
          exact (AList.mem_insert clients).mpr (Or.inl rfl), inserted.known⟩⟩
      obtain ⟨laterKnown, laterStates⟩ := ih withState continued
      exact ⟨⟨laterKnown.named, fun other member => laterKnown.known other (by simp [member])⟩,
        forall_mem_cons.mpr ⟨laterKnown.known state (by simp), laterStates⟩⟩

theorem nextClients_fails :
    FailsOnly (· ∈ clientFailures) (CommitState.nextClients clients states) := by
  induction states generalizing clients with
  | nil => exact .pure _
  | cons old rest ih =>
    unfold CommitState.nextClients
    cases found : clients.lookup old.id with
    | none => exact absurd (known.known old (by simp)) (AList.lookup_eq_none.mp found)
    | some client =>
      refine .bind client.createCheckpointState_fails fun created isCreated => .bind (ih ?_) fun _ _ =>
        .pure _
      obtain ⟨_, updatedId⟩ := CommittingClient.createCheckpointState_id isCreated
      have inserted := known.insert (updatedId.trans (known.named _ _ found))
      exact ⟨inserted.named, fun state member => inserted.known state (by simp [member])⟩

end ClientsKnown

variable {seqNo : Nat}

theorem newCommittingClients_known {clients after : GoMap Nat CommittingClient}
    {earlier states : List ClientState} (known : ClientsKnown clients earlier)
    (created : newCommittingClients seqNo clients states = .ok after) :
    ClientsKnown after (earlier ++ states) := by
  induction states generalizing clients earlier with
  | nil =>
    cases created
    simpa using known
  | cons state rest ih =>
    obtain ⟨client, isClient, continued⟩ := bind_eq_ok.mp created
    obtain ⟨committed, _, isNew⟩ := bind_eq_ok.mp isClient
    cases isNew
    have inserted : ClientsKnown (clients.insert state.id ⟨state, committed⟩) earlier :=
      known.insert rfl
    rw [← singleton_append, ← append_assoc]
    refine ih ⟨inserted.named, fun other member => ?_⟩ continued
    rcases mem_append.mp member with was | new
    · exact inserted.known other was
    · rw [mem_singleton.mp new]
      exact (AList.mem_insert clients).mpr (Or.inl rfl)

/-! ### The invariant -/

/-- The checkpoint request that comes next, if all batches before it have been delivered. -/
def CommitState.owed (cs : CommitState) : List Delivery :=
  if 0 < cs.checkpointInterval ∧ cs.lastAppliedCommit = cs.lowWatermark + cs.checkpointInterval +
      (if cs.checkpointPending then cs.checkpointInterval else 0) then
    [.checkpoint cs.lastAppliedCommit] else []

/-- **The window of the commit state** holds the committed batches above the low watermark. -/
structure Holding (cs : CommitState) (calls entries : List QEntry) : Prop where
  idle : cs.transferring = false
  steady : cs.activeState.pendingReconfigurations = []
  filled : Filled cs.checkpointInterval cs.lowerHalfCommits cs.upperHalfCommits entries
  numbered : ∀ k entry, entries[k]? = some entry → entry.seqNo = cs.lowWatermark + 1 + k
  passed : ∀ entry ∈ entries, entry ∈ calls
  highest : cs.highestCommit = cs.lowWatermark + entries.length
  stop : cs.stopAtSeqNo = cs.lowWatermark + 2 * cs.checkpointInterval
  low_le : cs.lowWatermark ≤ cs.lastAppliedCommit
  applied_le : cs.lastAppliedCommit ≤ cs.highestCommit
  pending : cs.checkpointPending = true → cs.lowWatermark + cs.checkpointInterval ≤ cs.lastAppliedCommit
  running : cs.checkpointPending = false → cs.lastAppliedCommit ≤ cs.lowWatermark + cs.checkpointInterval
  clients : ClientsKnown cs.committingClients cs.activeState.clients

/-- **What has been delivered**, and the checkpoint request that waits for its answer. -/
structure Delivered (last : CEntry) (cs : CommitState) (calls : List QEntry) (actions : List Action)
    (answered : Nat) : Prop where
  interval : cs.checkpointInterval = last.networkState.config.checkpointInterval
  low : ∃ intervals, cs.lowWatermark = last.seqNo + intervals * cs.checkpointInterval
  delivered : deliveries actions ++ cs.owed =
    schedule last.seqNo cs.checkpointInterval (cs.lastAppliedCommit - last.seqNo)
  batches : ∀ batch, .commit batch ∈ actions → batch ∈ calls
  answers : (requested actions).length = answered + if cs.checkpointPending then 1 else 0
  asked : cs.checkpointPending = true → ∃ config clients, (requested actions)[answered]? =
      some (cs.lowWatermark + cs.checkpointInterval, config, clients) ∧
    config.checkpointInterval = cs.checkpointInterval ∧ ClientsKnown cs.committingClients clients

section Steps

variable {last : CEntry} {cs after : CommitState} {calls entries : List QEntry}
  {actions more : List Action} {answered : Nat}

theorem owed_eq_nil (room : cs.lastAppliedCommit < cs.lowWatermark + 2 * cs.checkpointInterval)
    (asked : cs.lastAppliedCommit = cs.lowWatermark + cs.checkpointInterval →
      cs.checkpointPending = true) : cs.owed = [] := by
  unfold owed
  rw [if_neg]
  rintro ⟨positive, reached⟩
  by_cases isPending : cs.checkpointPending = true
  · rw [if_pos isPending] at reached
    omega
  · rw [if_neg isPending] at reached
    exact isPending (asked reached)

/-- What is owed after a batch: a checkpoint request, if it is the last one of an interval. -/
theorem owed_eq (intervals : Nat) (low : cs.lowWatermark = last.seqNo + intervals * cs.checkpointInterval)
    (above : cs.lowWatermark < cs.lastAppliedCommit)
    (inside : cs.lastAppliedCommit ≤ cs.lowWatermark + 2 * cs.checkpointInterval)
    (pending : cs.checkpointPending = true →
      cs.lowWatermark + cs.checkpointInterval < cs.lastAppliedCommit)
    (running : cs.checkpointPending = false →
      cs.lastAppliedCommit ≤ cs.lowWatermark + cs.checkpointInterval) :
    cs.owed = if (cs.lastAppliedCommit - last.seqNo) % cs.checkpointInterval = 0 then
      [.checkpoint cs.lastAppliedCommit] else [] := by
  obtain ⟨distance, isDistance⟩ := Nat.exists_eq_add_of_lt above
  have remainder : (cs.lastAppliedCommit - last.seqNo) % cs.checkpointInterval =
      (distance + 1) % cs.checkpointInterval := by
    rw [show cs.lastAppliedCommit - last.seqNo = distance + 1 + intervals * cs.checkpointInterval by
      omega, Nat.add_mul_mod_self_right]
  refine if_congr ?_ rfl rfl
  rw [remainder]
  by_cases isPending : cs.checkpointPending = true
  · have := pending isPending
    rw [if_pos isPending, Nat.mod_eq_sub_mod (by omega)]
    by_cases full : distance + 1 = 2 * cs.checkpointInterval
    · rw [full, show 2 * cs.checkpointInterval - cs.checkpointInterval = cs.checkpointInterval by omega,
        Nat.mod_self]
      omega
    · rw [Nat.mod_eq_of_lt (by omega)]
      omega
  · have := running (Bool.eq_false_iff.mpr isPending)
    rw [if_neg isPending]
    by_cases full : distance + 1 = cs.checkpointInterval
    · rw [full, Nat.mod_self]
      omega
    · rw [Nat.mod_eq_of_lt (by omega)]
      omega

section

variable (holding : Holding cs calls entries)
include holding

/-- **A checkpoint is asked for**, which was owed. -/
theorem requestCheckpoint_step
    (delivered : Delivered last cs calls actions answered)
    (room : cs.lastAppliedCommit < cs.lowWatermark + 2 * cs.checkpointInterval)
    (reached : cs.lastAppliedCommit = cs.lowWatermark + cs.checkpointInterval)
    (notPending : cs.checkpointPending = false) (ran : cs.requestCheckpoint = .ok (after, more)) :
    Holding after calls entries ∧ Delivered last after calls (actions ++ more) answered ∧
      after.checkpointPending = true ∧ after.lastAppliedCommit = cs.lastAppliedCommit ∧
      after.lowWatermark = cs.lowWatermark ∧ after.checkpointInterval = cs.checkpointInterval := by
  obtain ⟨⟨states, clients⟩, created, rest⟩ := bind_eq_ok.mp ran
  obtain ⟨⟨config, states'⟩, reconfigured, isResult⟩ := bind_eq_ok.mp rest
  rw [holding.steady] at reconfigured
  cases reconfigured
  cases isResult
  obtain ⟨known, statesKnown⟩ := holding.clients.nextClients created
  have wasOwed : cs.owed = [.checkpoint cs.lastAppliedCommit] := by
    unfold owed
    rw [if_pos ⟨by omega, by simp [notPending, reached]⟩]
  have nothing : owed { cs with committingClients := clients, checkpointPending := true } =
      [] := owed_eq_nil room fun _ => rfl
  refine ⟨{ holding with
      pending := fun _ => reached.ge
      running := fun impossible => nomatch impossible
      clients := known }, ?_, rfl, rfl, rfl, rfl⟩
  have answers := delivered.answers
  rw [notPending] at answers
  exact
    { interval := delivered.interval
      low := delivered.low
      delivered := by
        have before := delivered.delivered
        rw [wasOwed] at before
        rw [nothing, append_nil, deliveries_append]
        exact before
      batches := by
        intro batch member
        exact delivered.batches batch (by simpa using member)
      answers := by
        rw [requested_append, length_append, answers]
        rfl
      asked := fun _ => by
        refine ⟨cs.activeState.config, states, ?_, rfl, known.named, statesKnown⟩
        have isLength : (requested actions).length = answered := by simpa using answers
        rw [requested_append, ← isLength, List.getElem?_append_right le_rfl]
        simp [requested, reached, checkpointInterval] }

/-- **A batch is delivered.** -/
theorem deliver_step
    (delivered : Delivered last cs calls actions answered)
    (room : cs.lastAppliedCommit < cs.lowWatermark + 2 * cs.checkpointInterval)
    (asked : cs.lastAppliedCommit = cs.lowWatermark + cs.checkpointInterval →
      cs.checkpointPending = true) {batch : QEntry}
    (here : entries[cs.lastAppliedCommit - cs.lowWatermark]? = some batch)
    {clients : GoMap Nat CommittingClient}
    (marked : markRequests batch.seqNo cs.committingClients batch.requests = .ok clients) :
    Holding { cs with committingClients := clients, lastAppliedCommit := cs.lastAppliedCommit + 1 }
        calls entries ∧
      Delivered last
        { cs with committingClients := clients, lastAppliedCommit := cs.lastAppliedCommit + 1 }
        calls (actions ++ [.commit batch]) answered := by
  have number := holding.numbered _ _ here
  have low := holding.low_le
  have within : cs.lastAppliedCommit - cs.lowWatermark < entries.length :=
    (List.getElem?_eq_some_iff.mp here).1
  have highest := holding.highest
  have running (notPending : cs.checkpointPending = false) :
      cs.lastAppliedCommit + 1 ≤ cs.lowWatermark + cs.checkpointInterval := by
    refine lt_of_le_of_ne (holding.running notPending) fun reached => ?_
    rw [asked reached] at notPending
    cases notPending
  refine ⟨{ holding with
      low_le := Nat.le_succ_of_le holding.low_le
      applied_le := by
        show cs.lastAppliedCommit + 1 ≤ cs.highestCommit
        omega
      pending := fun isPending => Nat.le_succ_of_le (holding.pending isPending)
      running
      clients := holding.clients.markRequests marked }, ?_⟩
  obtain ⟨intervals, isLow⟩ := delivered.low
  have owes : owed { cs with
      committingClients := clients, lastAppliedCommit := cs.lastAppliedCommit + 1 } =
        if (cs.lastAppliedCommit + 1 - last.seqNo) % cs.checkpointInterval = 0 then
          [.checkpoint (cs.lastAppliedCommit + 1)] else [] :=
    owed_eq intervals isLow (Nat.lt_succ_of_le low) room
      (fun isPending => Nat.lt_succ_of_le (holding.pending isPending)) running
  exact
    { interval := delivered.interval
      low := delivered.low
      delivered := by
        have before := delivered.delivered
        rw [owed_eq_nil room asked, append_nil] at before
        have count : cs.lastAppliedCommit + 1 - last.seqNo = cs.lastAppliedCommit - last.seqNo + 1 := by
          omega
        have sameNumber : last.seqNo + (cs.lastAppliedCommit - last.seqNo + 1) =
            cs.lastAppliedCommit + 1 := by omega
        have isBatch : batch.seqNo = cs.lastAppliedCommit + 1 := by omega
        show deliveries (actions ++ [.commit batch]) ++ _ =
          schedule last.seqNo cs.checkpointInterval (cs.lastAppliedCommit + 1 - last.seqNo)
        rw [owes, count, schedule, ← before, sameNumber, ← isBatch, deliveries_append, append_assoc]
        rfl
      batches := by
        intro other member
        rcases mem_append.mp member with was | new
        · exact delivered.batches other was
        · cases mem_singleton.mp new
          exact holding.passed batch (mem_of_getElem? here)
      answers := by
        rw [requested_append, length_append]
        exact delivered.answers
      asked := fun isPending => by
        obtain ⟨config, states, isAsked, sameInterval, known⟩ := delivered.asked isPending
        refine ⟨config, states, ?_, sameInterval, known.markRequests marked⟩
        rw [requested_append]
        exact (append_nil (requested actions)).symm ▸ isAsked }

/-- What `drain` reads: the next batch of the window. -/
theorem read_next
    (room : cs.lastAppliedCommit < cs.lowWatermark + 2 * cs.checkpointInterval) :
    (if cs.lastAppliedCommit + 1 - cs.lowWatermark > cs.checkpointInterval then cs.upperHalfCommits
      else cs.lowerHalfCommits)[(cs.lastAppliedCommit + 1 - (cs.lowWatermark + 1)) %
        cs.checkpointInterval]? = some entries[cs.lastAppliedCommit - cs.lowWatermark]? := by
  have low := holding.low_le
  have read := holding.filled.read (k := cs.lastAppliedCommit - cs.lowWatermark) (by omega)
  rw [side, ← Nat.sub_add_comm low] at read
  rw [Nat.add_sub_add_right]
  exact read

theorem request_step
    (delivered : Delivered last cs calls actions answered)
    (room : cs.lastAppliedCommit < cs.lowWatermark + 2 * cs.checkpointInterval)
    (ran : (if cs.lastAppliedCommit = cs.lowWatermark + cs.checkpointInterval ∧ !cs.checkpointPending then
      cs.requestCheckpoint else pure (cs, [])) = .ok (after, more)) :
    Holding after calls entries ∧ Delivered last after calls (actions ++ more) answered ∧
      (after.lastAppliedCommit = after.lowWatermark + after.checkpointInterval →
        after.checkpointPending = true) ∧
      after.lastAppliedCommit = cs.lastAppliedCommit ∧ after.lowWatermark = cs.lowWatermark ∧
      after.checkpointInterval = cs.checkpointInterval := by
  split at ran
  · rename_i due
    obtain ⟨reached, notPending⟩ := due
    obtain ⟨holding, delivered, isPending, rest⟩ := requestCheckpoint_step holding delivered room reached
      (by simpa using notPending) ran
    exact ⟨holding, delivered, fun _ => isPending, rest⟩
  · rename_i notDue
    cases ran
    refine ⟨holding, by simpa using delivered, fun reached => ?_, rfl, rfl, rfl⟩
    by_contra notPending
    exact notDue ⟨reached, by simpa using notPending⟩

theorem drainOnce_step
    (delivered : Delivered last cs calls actions answered)
    (room : cs.lastAppliedCommit < cs.lowWatermark + 2 * cs.checkpointInterval) {continues : Bool}
    (ran : cs.drainOnce = .ok (after, more, continues)) :
    Holding after calls entries ∧ Delivered last after calls (actions ++ more) answered ∧
      after.lowWatermark = cs.lowWatermark ∧ after.checkpointInterval = cs.checkpointInterval ∧
      (continues = true → after.lastAppliedCommit = cs.lastAppliedCommit + 1) ∧
      (continues = false → after.lastAppliedCommit = after.highestCommit ∧ after.owed = []) := by
  rw [drainOnce_eq] at ran
  obtain ⟨⟨mid, first⟩, requests, rest⟩ := bind_eq_ok.mp ran
  obtain ⟨midHolding, midDelivered, asked, sameApplied, sameLow, sameInterval⟩ :=
    request_step holding delivered room requests
  have midRoom : mid.lastAppliedCommit < mid.lowWatermark + 2 * mid.checkpointInterval := by
    rw [sameApplied, sameLow, sameInterval]
    exact room
  rw [← sameInterval, deliverNext, read_next midHolding midRoom] at rest
  cases here : entries[mid.lastAppliedCommit - mid.lowWatermark]? with
  | none =>
    rw [here] at rest
    cases rest
    refine ⟨midHolding, midDelivered, sameLow, sameInterval, (fun impossible => nomatch impossible),
      fun _ => ?_⟩
    have beyond := List.getElem?_eq_none_iff.mp here
    have highest := midHolding.highest
    have applied := midHolding.applied_le
    have low := midHolding.low_le
    refine ⟨?_, owed_eq_nil midRoom asked⟩
    show mid.lastAppliedCommit = mid.highestCommit
    omega
  | some batch =>
    rw [here] at rest
    simp only at rest
    split at rest
    · cases rest
    obtain ⟨clients, marked, isResult⟩ := bind_eq_ok.mp rest
    cases isResult
    obtain ⟨lastHolding, lastDelivered⟩ :=
      deliver_step midHolding midDelivered midRoom asked here marked
    rw [append_assoc] at lastDelivered
    exact ⟨lastHolding, lastDelivered, sameLow, sameInterval, fun _ => by rw [← sameApplied],
      fun impossible => nomatch impossible⟩

/-- **The loop of `drain`** delivers all that has been committed. -/
theorem drainLoop_step
    (delivered : Delivered last cs calls actions answered) {fuel : Nat}
    (enough : cs.lowWatermark + 2 * cs.checkpointInterval < cs.lastAppliedCommit + fuel)
    (ran : cs.drainLoop fuel = .ok (after, more)) :
    Holding after calls entries ∧ Delivered last after calls (actions ++ more) answered ∧
      after.lastAppliedCommit = after.highestCommit ∧
      (after.checkpointPending = false → after.owed = []) := by
  have applied := holding.applied_le
  have highest := holding.highest
  have fits := holding.filled.fits
  induction fuel generalizing cs actions more with
  | zero => omega
  | succ fuel ih =>
    unfold drainLoop at ran
    split at ran
    · rename_i room
      obtain ⟨⟨mid, first, continues⟩, round, rest⟩ := bind_eq_ok.mp ran
      obtain ⟨midHolding, midDelivered, sameLow, sameInterval, moved, done⟩ :=
        drainOnce_step holding delivered room round
      simp only at rest
      split at rest
      · rename_i isContinues
        obtain ⟨⟨final, later⟩, continued, isResult⟩ := bind_eq_ok.mp rest
        cases isResult
        have isMoved := moved isContinues
        rw [← append_assoc]
        exact ih midHolding midDelivered (by omega) continued
          midHolding.applied_le midHolding.highest midHolding.filled.fits
      · rename_i isDone
        cases rest
        obtain ⟨all, nothing⟩ := done (Bool.eq_false_iff.mpr isDone)
        exact ⟨midHolding, midDelivered, all, fun _ => nothing⟩
    · cases ran
      refine ⟨holding, by simpa using delivered, by omega, fun notPending => ?_⟩
      -- The window is full, and no checkpoint is pending: it has no slots.
      have running := holding.running notPending
      unfold owed
      rw [if_neg (by omega)]

/-- **`drain` fails at requests only.** -/
theorem drainLoop_fails
    (delivered : Delivered last cs calls actions answered) (fuel : Nat) :
    FailsOnly (· ∈ clientFailures) (cs.drainLoop fuel) := by
  induction fuel generalizing cs actions with
  | zero => exact .pure _
  | succ fuel ih =>
    unfold drainLoop
    split
    · rename_i room
      refine .bind ?_ fun round ran => ?_
      · -- One round: the request for a checkpoint, and the marks of the next batch.
        rw [drainOnce_eq]
        refine .bind ?_ fun requests ran => ?_
        · split
          · refine .bind holding.clients.nextClients_fails fun _ _ => .bind ?_ fun _ _ => .pure _
            rw [holding.steady]
            exact .pure _
          · exact .pure _
        · obtain ⟨midHolding, _, _, sameApplied, sameLow, sameInterval⟩ :=
            request_step holding delivered room ran
          have read := read_next midHolding (by rwa [sameApplied, sameLow, sameInterval])
          rw [← sameInterval, deliverNext, read]
          cases here : entries[requests.1.lastAppliedCommit - requests.1.lowWatermark]? with
          | none => exact .pure _
          | some batch =>
            have number := midHolding.numbered _ _ here
            have low := midHolding.low_le
            simp only
            rw [if_neg (by omega)]
            exact .bind (markRequests_fails _ _ _) fun _ _ => .pure _
      · obtain ⟨midHolding, midDelivered, _⟩ := drainOnce_step holding delivered room ran
        simp only
        split
        · exact .bind (ih midHolding midDelivered) fun _ _ => .pure _
        · exact .pure _
    · exact .pure _

/-- **A batch is committed**: it is the next one, or one that is there already, or it is too old. -/
theorem commit_step {qEntry : QEntry}
    (next : qEntry.seqNo ≤ cs.highestCommit + 1) (stop : qEntry.seqNo ≤ cs.stopAtSeqNo)
    (same : ∀ earlier ∈ calls, earlier.seqNo = qEntry.seqNo → earlier.digest = qEntry.digest) :
    ∃ after entries', cs.commit qEntry = .ok after ∧ Holding after (calls ++ [qEntry]) entries' ∧
      after.lastAppliedCommit = cs.lastAppliedCommit ∧ after.lowWatermark = cs.lowWatermark ∧
      after.checkpointPending = cs.checkpointPending ∧ after.activeState = cs.activeState ∧
      after.committingClients = cs.committingClients := by
  have highest := holding.highest
  have isStop := holding.stop
  have grown : ∀ entry ∈ entries, entry ∈ calls ++ [qEntry] :=
    fun entry member => mem_append_left _ (holding.passed entry member)
  unfold CommitState.commit
  rw [if_neg (by rw [holding.idle]; simp), if_neg (Nat.not_lt.mpr stop)]
  by_cases old : qEntry.seqNo ≤ cs.lowWatermark
  · rw [if_pos old]
    exact ⟨cs, entries, rfl, { holding with passed := grown }, rfl, rfl, rfl, rfl, rfl⟩
  -- The position of the batch in the window.
  obtain ⟨k, position⟩ := Nat.exists_eq_add_of_lt (Nat.lt_of_not_le old)
  have inside : k < 2 * cs.checkpointInterval := by omega
  have half : (if qEntry.seqNo - cs.lowWatermark > cs.checkpointInterval then cs.upperHalfCommits
      else cs.lowerHalfCommits) =
        side cs.checkpointInterval cs.lowerHalfCommits cs.upperHalfCommits k := by
    rw [side, show qEntry.seqNo - cs.lowWatermark = k + 1 by omega]
  have offset : qEntry.seqNo - (cs.lowWatermark + 1) = k := by omega
  rw [if_neg old, if_neg (by omega)]
  simp only [half, offset, holding.filled.read inside]
  rw [if_neg (by omega)]
  by_cases there : k < entries.length
  · -- It is there already.
    have here : entries[k]? = some entries[k] := List.getElem?_eq_getElem there
    have sameDigest : entries[k].digest = qEntry.digest := by
      refine same _ (holding.passed _ (getElem_mem there)) ?_
      rw [holding.numbered k _ here]
      omega
    have sameHighest : max cs.highestCommit qEntry.seqNo = cs.highestCommit := by omega
    rw [here]
    simp only [sameDigest, ne_eq, sameHighest]
    exact ⟨cs, entries, rfl, { holding with passed := grown }, rfl, rfl, rfl, rfl, rfl⟩
  · -- It is the next one.
    have isNext : k = entries.length := by omega
    have newHighest : max cs.highestCommit qEntry.seqNo = cs.lowWatermark + (entries.length + 1) := by
      omega
    have numbered : ∀ index entry, (entries ++ [qEntry])[index]? = some entry →
        entry.seqNo = cs.lowWatermark + 1 + index := by
      intro index entry found
      by_cases earlier : index < entries.length
      · rw [List.getElem?_append_left earlier] at found
        exact holding.numbered index entry found
      · rw [List.getElem?_append_right (Nat.le_of_not_lt earlier)] at found
        obtain ⟨bound, isEntry⟩ := List.getElem?_eq_some_iff.mp found
        simp only [length_singleton] at bound
        rw [getElem_singleton] at isEntry
        rw [← isEntry]
        omega
    have passed : ∀ entry ∈ entries ++ [qEntry], entry ∈ calls ++ [qEntry] := by
      intro entry member
      rcases mem_append.mp member with was | new
      · exact grown entry was
      · exact mem_append_right _ new
    have length : (entries ++ [qEntry]).length = entries.length + 1 := by simp
    rw [List.getElem?_eq_none (Nat.le_of_not_lt there)]
    have applied := holding.applied_le
    subst isNext
    by_cases upper : qEntry.seqNo - cs.lowWatermark > cs.checkpointInterval
    · have isSide : side cs.checkpointInterval cs.lowerHalfCommits cs.upperHalfCommits entries.length =
          cs.upperHalfCommits := if_pos (by omega)
      simp only [isSide, if_pos upper, newHighest]
      refine ⟨_, entries ++ [qEntry], rfl, { holding with
        filled := holding.filled.pushUpper inside (by omega) qEntry
        numbered, passed
        highest := by rw [length]
        applied_le := ?_ }, rfl, rfl, rfl, rfl, rfl⟩
      show cs.lastAppliedCommit ≤ cs.lowWatermark + (entries.length + 1)
      omega
    · have isSide : side cs.checkpointInterval cs.lowerHalfCommits cs.upperHalfCommits entries.length =
          cs.lowerHalfCommits := if_neg (by omega)
      simp only [isSide, if_neg upper, newHighest]
      refine ⟨_, entries ++ [qEntry], rfl, { holding with
        filled := holding.filled.pushLower (by omega) qEntry
        numbered, passed
        highest := by rw [length]
        applied_le := ?_ }, rfl, rfl, rfl, rfl, rfl⟩
      show cs.lastAppliedCommit ≤ cs.lowWatermark + (entries.length + 1)
      omega

/-- **The application answers a checkpoint request**: the window moves on by an interval. -/
theorem checkpointResult_step
    (delivered : Delivered last cs calls actions answered) {log : Persisted} (logged : log.log ≠ [])
    {seqNo : Nat} {config : NetworkConfig} {clients : List ClientState} (value : Bytes)
    (asked : (requested actions)[answered]? = some (seqNo, config, clients)) :
    ∃ after log' more, cs.applyCheckpointResult log seqNo value ⟨config, clients, []⟩ =
        .ok (after, log', more) ∧
      Holding after calls (entries.drop cs.checkpointInterval) ∧
      Delivered last after calls (actions ++ more) (answered + 1) ∧ log'.log ≠ [] := by
  have isPending : cs.checkpointPending = true := by
    by_contra notPending
    have answers := delivered.answers
    rw [if_neg notPending] at answers
    rw [List.getElem?_eq_none (by omega)] at asked
    cases asked
  obtain ⟨config', clients', isAsked, sameInterval, known⟩ := delivered.asked isPending
  rw [isAsked, Option.some.injEq, Prod.mk.injEq, Prod.mk.injEq] at asked
  obtain ⟨rfl, rfl, rfl⟩ := asked
  have reached := holding.pending isPending
  have applied := holding.applied_le
  have highest := holding.highest
  have fits := holding.filled.fits
  have answers := delivered.answers
  have before := delivered.delivered
  obtain ⟨intervals, low⟩ := delivered.low
  have appended : log.addCEntry ⟨cs.lowWatermark + cs.checkpointInterval, value, ⟨config', clients', []⟩⟩ =
      .ok _ := if_neg (by simpa using logged)
  unfold applyCheckpointResult
  simp only [holding.idle, ne_eq, appended]
  refine ⟨_, _, _, rfl, ?_, ?_, by simp⟩
  · exact
      { idle := rfl
        steady := rfl
        filled := by
          show Filled config'.checkpointInterval _ _ _
          rw [sameInterval]
          exact holding.filled.shift
        numbered := fun k entry found => by
          rw [List.getElem?_drop] at found
          rw [holding.numbered _ entry found]
          show _ = cs.lowWatermark + cs.checkpointInterval + 1 + k
          omega
        passed := fun entry member => holding.passed entry (mem_of_mem_drop member)
        highest := by
          show cs.highestCommit = cs.lowWatermark + cs.checkpointInterval + _
          rw [length_drop]
          omega
        stop := by
          show cs.lowWatermark + cs.checkpointInterval + 2 * cs.checkpointInterval =
            cs.lowWatermark + cs.checkpointInterval + 2 * config'.checkpointInterval
          rw [sameInterval]
        low_le := reached
        applied_le := applied
        pending := fun impossible => nomatch impossible
        running := fun _ => by
          show cs.lastAppliedCommit ≤ cs.lowWatermark + cs.checkpointInterval + config'.checkpointInterval
          omega
        clients := known }
  · exact
      { interval := sameInterval.trans delivered.interval
        low := ⟨intervals + 1, by
          show cs.lowWatermark + cs.checkpointInterval =
            last.seqNo + (intervals + 1) * config'.checkpointInterval
          rw [sameInterval, Nat.add_mul]
          omega⟩
        delivered := by
          rw [deliveries_append]
          show deliveries actions ++ [] ++ _ =
            schedule last.seqNo config'.checkpointInterval (cs.lastAppliedCommit - last.seqNo)
          rw [append_nil, sameInterval, ← before]
          congr 1
          unfold owed
          rw [if_pos isPending]
          show (if 0 < config'.checkpointInterval ∧ cs.lastAppliedCommit =
              cs.lowWatermark + cs.checkpointInterval + config'.checkpointInterval + 0 then _ else _) = _
          rw [sameInterval]
          rfl
        batches := fun batch member => delivered.batches batch (by simpa using member)
        answers := by
          rw [if_pos isPending] at answers
          rw [requested_append, length_append, answers]
          rfl
        asked := fun impossible => nomatch impossible }

end

/-- What was delivered does not change when a batch is committed. -/
theorem Delivered.of_same {calls' : List QEntry} (delivered : Delivered last cs calls actions answered)
    (sameApplied : after.lastAppliedCommit = cs.lastAppliedCommit)
    (sameLow : after.lowWatermark = cs.lowWatermark)
    (samePending : after.checkpointPending = cs.checkpointPending)
    (sameActive : after.activeState = cs.activeState)
    (sameClients : after.committingClients = cs.committingClients)
    (grown : ∀ entry ∈ calls, entry ∈ calls') : Delivered last after calls' actions answered := by
  have sameInterval : after.checkpointInterval = cs.checkpointInterval := by
    unfold checkpointInterval
    rw [sameActive]
  have sameOwed : after.owed = cs.owed := by
    unfold owed
    rw [sameInterval, sameApplied, sameLow, samePending]
  constructor
  · rw [sameInterval]
    exact delivered.interval
  · rw [sameInterval, sameLow]
    exact delivered.low
  · rw [sameOwed, sameInterval, sameApplied]
    exact delivered.delivered
  · exact fun batch member => grown batch (delivered.batches batch member)
  · rw [samePending]
    exact delivered.answers
  · rw [samePending, sameInterval, sameLow, sameClients]
    exact delivered.asked

end Steps

/-! ### The start -/

variable {transfer : Option (Nat × Bytes)}

/-- The commit state that a log leads to. -/
def CommitState.restored (before : CommitState) (clients : GoMap Nat CommittingClient) (last : CEntry) :
    CommitState :=
  { before with
    committingClients := clients
    lowWatermark := last.seqNo
    lastAppliedCommit := last.seqNo
    highestCommit := last.seqNo
    stopAtSeqNo := last.seqNo + 2 * last.networkState.config.checkpointInterval
    activeState := last.networkState
    lowerHalfCommits := List.replicate last.networkState.config.checkpointInterval none
    upperHalfCommits := List.replicate last.networkState.config.checkpointInterval none
    transferring := false }

variable {actions : List Action}

/-- If no transfer is resumed, the state is the restored one. -/
theorem eq_restored_of_idle (restored : CommitState) {cs : CommitState} (ran : (match transfer with
      | some (target, value) =>
        if seqNo ≥ target then pure ({ restored with transferring := false }, [])
        else pure ({ restored with transferring := true }, [.stateTransfer target value])
      | none => pure ({ restored with transferring := false }, []) : Go (CommitState × List Action)) =
        .ok (cs, actions)) (idle : cs.transferring = false) :
    cs = { restored with transferring := false } := by
  split at ran
  · split at ran
    · cases ran
      rfl
    · cases ran
      cases idle
  · cases ran
    rfl

variable {last : CEntry}

/-- Without reconfigurations, the last C-entry is all that `reinitialize` looks at. -/
theorem reinitialize_eq_restored {before cs : CommitState} {log : Persisted} {second : Option CEntry}
    (found : CommitState.lastEntries none none none log.entries = (some last, second, transfer))
    (steady : last.networkState.pendingReconfigurations = [])
    (secondSteady : ∀ entry ∈ second, entry.networkState.pendingReconfigurations = [])
    (ran : reinitialize before log = .ok (cs, actions)) (idle : cs.transferring = false) :
    ∃ clients, newCommittingClients last.seqNo ∅ last.networkState.clients = .ok clients ∧
      cs = before.restored clients last := by
  unfold reinitialize at ran
  rw [found] at ran
  cases second with
  | none =>
    simp only [steady] at ran
    obtain ⟨clients, created, rest⟩ := bind_eq_ok.mp ran
    exact ⟨clients, created, eq_restored_of_idle (before.restored clients last) rest idle⟩
  | some entry =>
    simp only [secondSteady entry rfl, steady, isEmpty_nil, if_true] at ran
    obtain ⟨clients, created, rest⟩ := bind_eq_ok.mp ran
    exact ⟨clients, created, eq_restored_of_idle (before.restored clients last) rest idle⟩

/-- **The state after `reinitialize`**: nothing has been committed after the last C-entry. -/
theorem restored_invariant {before : CommitState} {clients : GoMap Nat CommittingClient}
    (notPending : before.checkpointPending = false)
    (steady : last.networkState.pendingReconfigurations = [])
    (known : ClientsKnown clients last.networkState.clients) :
    Holding (before.restored clients last) [] [] ∧
      Delivered last (before.restored clients last) [] [] 0 := by
  have stillNotPending : (before.restored clients last).checkpointPending = false := notPending
  have nothing : (before.restored clients last).owed = [] := by
    unfold owed
    rw [if_neg]
    rintro ⟨positive, reached⟩
    change last.seqNo = last.seqNo + (before.restored clients last).checkpointInterval + _ at reached
    omega
  constructor
  · exact
      { idle := rfl
        steady
        filled := .empty _
        numbered := fun k entry impossible => by cases impossible
        passed := fun entry impossible => by cases impossible
        highest := rfl
        stop := rfl
        low_le := le_rfl
        applied_le := le_rfl
        pending := fun isPending => by
          rw [isPending] at stillNotPending
          cases stillNotPending
        running := fun _ => Nat.le_add_right _ _
        clients := known }
  · exact
      { interval := rfl
        low := ⟨0, by simp [restored]⟩
        delivered := by
          rw [nothing]
          show [] ++ [] = schedule last.seqNo _ (last.seqNo - last.seqNo)
          rw [Nat.sub_self]
          rfl
        batches := fun batch impossible => by cases impossible
        answers := by
          rw [stillNotPending]
          rfl
        asked := fun isPending => by
          rw [isPending] at stillNotPending
          cases stillNotPending }

/-! ### The result -/

/-- **In-order delivery**: the watermarks, and what the application has got so far. Only the
checkpoint request for the last batch may still be missing. -/
structure InOrder (last : CEntry) (history : CommitHistory) : Prop where
  low_le : history.cs.lowWatermark ≤ history.cs.lastAppliedCommit
  applied_le : history.cs.lastAppliedCommit ≤ history.cs.highestCommit
  highest_le : history.cs.highestCommit ≤ history.cs.stopAtSeqNo
  stop_le : history.cs.stopAtSeqNo ≤
    history.cs.lowWatermark + 2 * history.cs.activeState.config.checkpointInterval
  delivered : ∃ missing, deliveries history.actions ++ missing =
      schedule last.seqNo last.networkState.config.checkpointInterval
        (history.cs.lastAppliedCommit - last.seqNo) ∧
    (missing = [] ∨ missing = [.checkpoint history.cs.lastAppliedCommit])
  batches : ∀ batch, .commit batch ∈ history.actions → batch ∈ history.calls

variable {history : CommitHistory}

theorem CommitRun.invariant (run : CommitRun false last history) :
    (∃ entries, Holding history.cs history.calls entries) ∧
      Delivered last history.cs history.calls history.actions history.answered ∧
      history.log.log ≠ [] := by
  induction run with
  | @start _ _ log _ _ _ notPending found steady secondSteady ran idle =>
    have logged : log.log ≠ [] := by
      intro empty
      simp [Persisted.entries, empty, CommitState.lastEntries] at found
    obtain ⟨clients, created, rfl⟩ := reinitialize_eq_restored found steady secondSteady ran idle
    have empty : ClientsKnown ∅ [] := ⟨(fun id client found => by cases found), by simp⟩
    obtain ⟨holding, delivered⟩ := restored_invariant notPending steady
      (newCommittingClients_known empty created)
    exact ⟨⟨[], holding⟩, delivered, logged⟩
  | commit _ committable ran ih =>
    obtain ⟨⟨entries, holding⟩, delivered, logged⟩ := ih
    obtain ⟨after, entries', committed, holding', sameApplied, sameLow, samePending, sameActive,
      sameClients⟩ := commit_step holding committable.next committable.stop committable.same
    rw [ran] at committed
    cases committed
    exact ⟨⟨entries', holding'⟩, delivered.of_same sameApplied sameLow samePending sameActive sameClients
      (fun entry member => mem_append_left _ member), logged⟩
  | drain _ ran ih =>
    obtain ⟨⟨entries, holding⟩, delivered, logged⟩ := ih
    obtain ⟨holding', delivered', _⟩ := drainLoop_step holding delivered (by omega) ran
    exact ⟨⟨entries, holding'⟩, delivered', logged⟩
  | checkpointResult value _ asked ran ih =>
    obtain ⟨⟨entries, holding⟩, delivered, logged⟩ := ih
    obtain ⟨_, _, _, applied, holding', delivered', logged'⟩ :=
      checkpointResult_step holding delivered logged value asked
    rw [ran] at applied
    cases applied
    exact ⟨⟨_, holding'⟩, delivered', logged'⟩

/-- **In-order, gap-free, exactly-once delivery.** In every run that starts with no checkpoint
request outstanding, the watermarks are in order and the application has got a prefix of the
schedule; a batch that respects the contract is taken, the answer of the application is taken, and
`drain` delivers all that was committed, with the checkpoint request if none is unanswered, unless a
request does not fit into its client's window. -/
theorem delivery_in_order {last : CEntry} (run : CommitRun false last history) :
    InOrder last history ∧
    (∀ qEntry, Committable history qEntry → ∃ after, history.cs.commit qEntry = .ok after) ∧
    (∀ seqNo config clients value,
      (requested history.actions)[history.answered]? = some (seqNo, config, clients) →
      ∃ result, history.cs.applyCheckpointResult history.log seqNo value ⟨config, clients, []⟩ =
        .ok result) ∧
    (∀ after actions, history.cs.drain = .ok (after, actions) →
      after.lastAppliedCommit = after.highestCommit ∧
      (after.checkpointPending = false → deliveries (history.actions ++ actions) =
        schedule last.seqNo last.networkState.config.checkpointInterval
          (after.lastAppliedCommit - last.seqNo))) ∧
    ∀ text, history.cs.drain = .error text → text ∈ clientFailures := by
  obtain ⟨⟨entries, holding⟩, delivered, logged⟩ := run.invariant
  have highest := holding.highest
  have stop := holding.stop
  have fits := holding.filled.fits
  have low := holding.low_le
  refine ⟨⟨low, holding.applied_le, by omega, stop.le, ⟨history.cs.owed, ?_, ?_⟩, delivered.batches⟩,
    ?_, ?_, ?_, ?_⟩
  · rw [← delivered.interval]
    exact delivered.delivered
  · exact (ite_eq_or_eq _ _ _).symm
  · intro qEntry committable
    obtain ⟨after, _, committed, _⟩ :=
      commit_step holding committable.next committable.stop committable.same
    exact ⟨after, committed⟩
  · intro seqNo config clients value asked
    obtain ⟨after, log, more, applied, _⟩ := checkpointResult_step holding delivered logged value asked
    exact ⟨(after, log, more), applied⟩
  · intro after actions drained
    obtain ⟨_, delivered', all, nothing⟩ := drainLoop_step holding delivered (by omega) drained
    refine ⟨all, fun notPending => ?_⟩
    have schedules := delivered'.delivered
    rwa [nothing notPending, append_nil, delivered'.interval] at schedules
  · intro text failed
    exact drainLoop_fails holding delivered _ text failed

/-! ### Two replicas -/

/-- The batches that the application gets. -/
def applied (actions : List Action) : List QEntry :=
  actions.filterMap fun action => match action with
    | .commit batch => some batch
    | _ => none

/-- The number of a batch that is delivered. -/
def Delivery.batch? : Delivery → Option Nat
  | .batch seqNo => some seqNo
  | .checkpoint _ => none

theorem applied_seqNo (actions : List Action) :
    (applied actions).map QEntry.seqNo = (deliveries actions).filterMap Delivery.batch? := by
  rw [applied, map_filterMap, deliveries, filterMap_filterMap]
  refine congrArg (List.filterMap · actions) (funext fun action => ?_)
  cases action <;> rfl

theorem schedule_batches (last interval count : Nat) :
    (schedule last interval count).filterMap Delivery.batch? = List.range' (last + 1) count := by
  induction count with
  | zero => rfl
  | succ count ih =>
    have request : (if (count + 1) % interval = 0 then [Delivery.checkpoint (last + (count + 1))]
        else []).filterMap Delivery.batch? = [] := by
      split <;> rfl
    rw [schedule, filterMap_append, ih, filterMap_cons, request, List.range'_1_concat]
    simp [Delivery.batch?, Nat.add_comm, Nat.add_left_comm]

/-- The application gets the batches by number. -/
theorem CommitRun.applied_seqNo {last : CEntry}
    (run : CommitRun false last history) :
    ∃ count, (applied history.actions).map QEntry.seqNo = List.range' (last.seqNo + 1) count := by
  obtain ⟨_, delivered, _⟩ := run.invariant
  have batches := congrArg (List.filterMap Delivery.batch?) delivered.delivered
  have owed : history.cs.owed.filterMap Delivery.batch? = [] := by
    unfold owed
    split <;> split <;> rfl
  rw [filterMap_append, owed, append_nil, schedule_batches, ← MirBft.applied_seqNo] at batches
  exact ⟨_, batches⟩

/-- Lists by number that agree, one of them longer. -/
theorem prefix_of_agree {first second : List QEntry} {start count more : Nat} (less : count ≤ more)
    (isFirst : first.map QEntry.seqNo = List.range' start count)
    (isSecond : second.map QEntry.seqNo = List.range' start more)
    (agree : ∀ q ∈ first, ∀ r ∈ second, q.seqNo = r.seqNo → q = r) : first <+: second := by
  have lengths := congrArg List.length isFirst
  have others := congrArg List.length isSecond
  rw [length_map, length_range'] at lengths others
  rw [prefix_iff_getElem]
  refine ⟨by omega, fun index inside => agree _ (getElem_mem _) _ (getElem_mem _) ?_⟩
  have one := getElem_of_eq isFirst (i := index) (by simpa using inside)
  have two := getElem_of_eq isSecond (i := index) (by simp; omega)
  rw [getElem_map, getElem_range'] at one two
  rw [one, two]

/-- **Replicas deliver alike.** Two replicas that start from one checkpoint with no checkpoint
request outstanding, and commit the same batches by number, however often and however far, deliver
the same batches in the same order, as far as both have got. -/
theorem replicas_deliver_alike {last : CEntry} {first second : CommitHistory}
    (isFirst : CommitRun false last first) (isSecond : CommitRun false last second)
    (agree : ∀ q ∈ first.calls, ∀ r ∈ second.calls, q.seqNo = r.seqNo → q = r) :
    applied first.actions <+: applied second.actions ∨
      applied second.actions <+: applied first.actions := by
  have called {history : CommitHistory} (run : CommitRun false last history) {batch : QEntry}
      (member : batch ∈ applied history.actions) : batch ∈ history.calls := by
    obtain ⟨action, isAction, same⟩ := mem_filterMap.mp member
    cases action <;> cases same
    exact run.invariant.2.1.batches _ isAction
  obtain ⟨count, ordered⟩ := isFirst.applied_seqNo
  obtain ⟨more, alsoOrdered⟩ := isSecond.applied_seqNo
  rcases Nat.le_total count more with less | less
  · exact Or.inl (prefix_of_agree less ordered alsoOrdered fun q isQ r isR =>
      agree q (called isFirst isQ) r (called isSecond isR))
  · exact Or.inr (prefix_of_agree less alsoOrdered ordered fun r isR q isQ same =>
      (agree q (called isFirst isQ) r (called isSecond isR) same.symm).symm)

namespace TwoIntervals

/-- A network with an interval of two, and no clients. -/
def networkState : NetworkState := ⟨⟨[0, 1, 2, 3], 2, 20, 1, 1⟩, [], []⟩

/-- The C-entry that the network starts with. -/
def genesis : CEntry := ⟨0, [9], networkState⟩

def log : Persisted := ⟨2, [⟨1, .cEntry genesis⟩]⟩

/-- `newCommitState`. -/
def fresh : CommitState where
  committingClients := ∅
  lowWatermark := 0
  lastAppliedCommit := 0
  highestCommit := 0
  stopAtSeqNo := 0
  activeState := networkState
  lowerHalfCommits := []
  upperHalfCommits := []
  checkpointPending := false
  transferring := false

def batch (seqNo : Nat) : QEntry := ⟨seqNo, [UInt8.ofNat seqNo], []⟩

theorem started : CommitRun false genesis ⟨fresh.restored ∅ genesis, log, [], [], 0⟩ :=
  .start rfl rfl rfl (by rintro _ ⟨⟩)
    (show reinitialize fresh log = .ok (fresh.restored ∅ genesis, []) from rfl) rfl

/-- Four batches are committed and delivered; the request for the second checkpoint waits for the
answer to the first. -/
theorem four_batches_delivered : ∃ history, CommitRun false genesis history ∧
    deliveries history.actions =
      [.batch 1, .batch 2, .checkpoint 2, .batch 3, .batch 4, .checkpoint 4] ∧
    InOrder genesis history := by
  have one := started.commit (show Committable _ (batch 1) from ⟨by decide, by decide, by decide⟩) rfl
  have two := one.commit (show Committable _ (batch 2) from ⟨by decide, by decide, by decide⟩) rfl
  have three := two.commit (show Committable _ (batch 3) from ⟨by decide, by decide, by decide⟩) rfl
  have four := three.commit (show Committable _ (batch 4) from ⟨by decide, by decide, by decide⟩) rfl
  have drained := four.drain rfl
  have answered := drained.checkpointResult [8] rfl rfl
  have last := answered.drain rfl
  exact ⟨_, last, rfl, (delivery_in_order last).1⟩

/-- One replica has delivered the first batch, and another one both. -/
theorem first_batch_delivered_alike : ∃ first second, CommitRun false genesis first ∧
    CommitRun false genesis second ∧
    applied first.actions = [batch 1] ∧ applied second.actions = [batch 1, batch 2] ∧
    (applied first.actions <+: applied second.actions ∨
      applied second.actions <+: applied first.actions) := by
  have one := started.commit (show Committable _ (batch 1) from ⟨by decide, by decide, by decide⟩) rfl
  have two := one.commit (show Committable _ (batch 2) from ⟨by decide, by decide, by decide⟩) rfl
  have first := one.drain rfl
  have second := two.drain rfl
  exact ⟨_, _, first, second, rfl, rfl, replicas_deliver_alike first second (by decide)⟩

end TwoIntervals

end MirBft
