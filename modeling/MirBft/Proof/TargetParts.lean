/-
**What an epoch target does without a change of its own.**

* `Quiet`: the methods that construct a new epoch and fetch its batches act plainly and leave the
  target, the log and the commit state alone;
* `Logged`: the methods that write an epoch change's entries leave the target and the commit state
  alone and add these entries to the log. `EchoEntries` is what is written with an echo.

Both fail elsewhere, if they fail.
-/

import MirBft.Proof.ClientsQuiet

namespace MirBft

open Proc

/-- **What is kept of the shared components**: the parameters, and the batches that are tracked. -/
structure Stock extends InitialParameters where
  tracked : Bytes → Nat → Prop

/-- The parameters alone. -/
def Stock.of (my : InitialParameters) : Stock := { my with tracked := fun _ _ => False }

def Shared.Stocked (my : Stock) (sh : Shared) : Prop :=
  sh.myConfig = my.toInitialParameters ∧
    ∀ digest seqNo, my.tracked digest seqNo → sh.batchTracker.Observes digest seqNo

/-- The parameters are as they were, and what was tracked still is. -/
def Shared.Retains (before after : Shared) : Prop := ∀ my, before.Stocked my → after.Stocked my

/-- A tracker that grows retains its batches. -/
theorem Shared.Retains.of_grows {before after : Shared} (parameters : after.myConfig = before.myConfig)
    (grows : before.batchTracker.Grows after.batchTracker) : before.Retains after :=
  fun _ stocked => ⟨parameters.trans stocked.1,
    fun digest seqNo isTracked => grows digest seqNo (stocked.2 digest seqNo isTracked)⟩

theorem Shared.Retains.of_same {before after : Shared}
    (same : (after.myConfig, after.batchTracker) = (before.myConfig, before.batchTracker)) :
    before.Retains after := by
  obtain ⟨parameters, batches⟩ := Prod.mk.inj same
  refine .of_grows parameters fun digest seqNo => ?_
  rw [batches]
  exact id

variable {entries : List Persistent} {actions : List Action}

/-- The target and the commit state are as they were, what is tracked as well, and nothing was
accepted. -/
structure EtState.Aside (before after : EtState) : Prop where
  target : after.et = before.et
  commitState : after.sh.commitState = before.sh.commitState
  accepted : after.sh.accepted = before.sh.accepted
  retains : before.sh.Retains after.sh

theorem EtState.Aside.trans {first second third : EtState} (one : first.Aside second)
    (two : second.Aside third) : first.Aside third :=
  ⟨two.target.trans one.target, two.commitState.trans one.commitState, two.accepted.trans one.accepted,
    fun my stocked => two.retains my (one.retains my stocked)⟩

/-- The target and the commit state are as they were. -/
def Untouched : Guard String Action EtState where
  rel before after _ := before.Aside after
  refl _ := ⟨rfl, rfl, rfl, fun _ => id⟩
  trans := .trans
  excused _ := Elsewhere
  excused_rel _ isOther := isOther

/-- The log is as it was as well, and the actions are plain. -/
def Quiet : Guard String Action EtState where
  rel before after actions := before.Aside after ∧ after.sh.persisted = before.sh.persisted ∧
    ∀ action ∈ actions, action.plain = true
  refl _ := ⟨⟨rfl, rfl, rfl, fun _ => id⟩, rfl, by simp⟩
  trans first second := ⟨first.1.trans second.1, second.2.1.trans first.2.1,
    List.forall_mem_append.mpr ⟨first.2.2, second.2.2⟩⟩
  excused _ := Elsewhere
  excused_rel _ isOther := isOther

/-- What is quiet leaves the target untouched. -/
theorem Proc.Keeps.untouched {α : Type} {m : GoProc EtState α} (quiet : Keeps Quiet m) : Keeps Untouched m :=
  fun st => safe_mono (quiet st) fun _ _ _ done => done.1

namespace EpochTarget

/-! ### Quiet methods -/

theorem untouched_broadcast (msg : Msg) : Keeps Untouched (broadcast msg) :=
  fun st => safe_get_bind (safe_emit (Untouched.refl st))

theorem quiet_fail {α : Type} {failure : String} (isOther : Elsewhere failure) :
    Keeps Quiet (fail failure : GoProc EtState α) := keeps_fail fun _ => isOther

/-- A plain message rests on no log entry. -/
theorem quiet_broadcast {msg : Msg} (plain : msg.plain = true) : Keeps Quiet (broadcast msg) :=
  fun _ => safe_get_bind (safe_emit ⟨⟨rfl, rfl, rfl, fun _ => id⟩, rfl, by simpa [Action.plain] using plain⟩)

theorem quiet_applyEpochChangeAckMsg (source origin : NodeID) (msg : EpochChange) :
    Keeps Quiet (applyEpochChangeAckMsg source origin msg) :=
  fun _ => safe_emit ⟨⟨rfl, rfl, rfl, fun _ => id⟩, rfl, by simp [Action.plain]⟩

/-- **An epoch change** is acked, or hashed first. -/
theorem quiet_applyEpochChangeMsg (source : NodeID) (msg : EpochChange) :
    Keeps Quiet (applyEpochChangeMsg source msg) :=
  keeps_get_bind fun _ => keeps_ite (keeps_bind (quiet_broadcast rfl) fun _ =>
    quiet_applyEpochChangeAckMsg _ _ _) (quiet_applyEpochChangeAckMsg _ _ _)

theorem quiet_pickOrder : Keeps Quiet (onShared Shared.pickOrder) :=
  fun _ => safe_zoom (safe_get_bind
    (safe_bind (safe_modify (safe_pure ⟨⟨rfl, rfl, rfl, fun _ => id⟩, rfl, by simp⟩))))

theorem quiet_onClients {α : Type} {method : GoProc Clients α} (plain : Keeps (Plain Clients) method) :
    Keeps Quiet (onShared (Shared.onClients method)) :=
  fun st => safe_zoom (safe_zoom (safe_mono (plain st.sh.clients) fun _ _ _ done =>
    ⟨⟨rfl, rfl, rfl, fun _ => id⟩, rfl, done⟩))

theorem quiet_constructNewEpoch (newLeaders : List NodeID) : Keeps Quiet (constructNewEpoch newLeaders) := by
  refine keeps_get_bind fun st => keeps_ite (keeps_pure _) ?_
  refine keeps_bind quiet_pickOrder fun order =>
    keeps_lift_bind (fun _ => constructNewEpochConfig_elsewhere _ _ _ _) fun found _ => ?_
  cases found with
  | none => exact keeps_pure _
  | some newConfig => exact keeps_pure _

/-- A change that is not there is a nil dereference of its own. -/
theorem batchSources_elsewhere (changes : GoMap NodeID EpochChangeAcks) (seqNo : Nat) (digest : Bytes)
    (remotes : List RemoteEpochChange) :
    FailsOnly Elsewhere (batchSources changes seqNo digest remotes) := by
  induction remotes with
  | nil => exact .pure _
  | cons remote rest ih =>
    unfold batchSources
    split
    · exact .throw (by simp)
    split
    · exact .throw (by simp)
    refine .bind ih fun _ _ => ?_
    split
    · exact .pure _
    · exact .pure _

theorem quiet_ackSources (requestAck : RequestAck) (sources : List NodeID) (cr : Option ClientRequest) :
    Keeps Quiet (ackSources requestAck sources cr) := by
  induction sources generalizing cr with
  | nil => exact keeps_pure _
  | cons id rest ih => exact keeps_bind (quiet_onClients (Clients.plain_ack id requestAck)) fun _ => ih _

/-- The requests of a batch that are missing are asked for. -/
theorem quiet_fetchRequests (sources : List NodeID) (fetchPending : Bool) (requests : List RequestAck) :
    Keeps Quiet (fetchRequests sources fetchPending requests) := by
  induction requests generalizing fetchPending with
  | nil => exact keeps_pure _
  | cons requestAck rest ih =>
    refine keeps_bind (quiet_ackSources requestAck sources none) fun found => ?_
    cases found with
    | none => exact quiet_fail (by simp)
    | some cr =>
      exact keeps_ite (ih _) (keeps_bind (quiet_onClients (Clients.plain_fetch requestAck)) fun _ => ih _)

theorem fetchBatch_plain (bt : BatchTracker) (seqNo : Nat) (digest : Bytes) (sources : List NodeID) :
    ∀ action ∈ (bt.fetchBatch seqNo digest sources).2, action.plain = true := by
  unfold BatchTracker.fetchBatch
  simp only
  split
  · simp
  · simp [Action.plain, Msg.plain]

theorem quiet_fetchPreprepare (newEpoch : NewEpoch) (seqNo : Nat) (digest : Bytes) (fetchPending : Bool) :
    Keeps Quiet (fetchPreprepare newEpoch seqNo digest fetchPending) := by
  have batches (update : Shared → BatchTracker) (st : EtState)
    (grows : st.sh.batchTracker.Grows (update st.sh)) :
      safe Elsewhere (onShared (Proc.modify fun sh => { sh with batchTracker := update sh })) st
        fun final actions _ => Quiet.rel st final actions :=
    safe_zoom (safe_modify ⟨⟨rfl, rfl, rfl, .of_grows rfl grows⟩, rfl, by simp⟩)
  refine fun st => safe_get_bind (safe_lift_bind (batchSources_elsewhere _ _ _ _) fun sources _ =>
    safe_ite (fun _ => quiet_fail (by simp) st) fun _ => ?_)
  split
  · refine safe_bind_keeps (batches (fun _ => _) st
      (st.sh.batchTracker.grows_fetchBatch seqNo digest sources)) fun _ =>
      keeps_bind (fun _ => ?_) fun _ => keeps_pure _
    exact safe_emit ⟨⟨rfl, rfl, rfl, fun _ => id⟩, rfl, fetchBatch_plain _ _ _ _⟩
  · exact safe_bind_keeps (batches _ st (st.sh.batchTracker.grows_observe digest seqNo)) fun _ =>
      quiet_fetchRequests _ _ _

/-- **The first loop of `fetchNewEpochState`** writes nothing. -/
theorem quiet_fetchPreprepares (newEpoch : NewEpoch) (seqNo : Nat) (fetchPending : Bool)
    (digests : List Bytes) : Keeps Quiet (fetchPreprepares newEpoch seqNo fetchPending digests) := by
  induction digests generalizing seqNo fetchPending with
  | nil => exact keeps_pure _
  | cons digest rest ih =>
    exact keeps_get_bind fun st => keeps_ite (ih _ _)
      (keeps_bind (quiet_fetchPreprepare _ _ _ _) fun _ => ih _ _)

end EpochTarget

/-! ### The entries of an epoch change -/

/-- The Q-entries of a log. -/
def qEntries (log : List Persistent) : List QEntry :=
  log.filterMap fun entry => match entry with
    | .qEntry entry => some entry
    | _ => none

/-- The sequence number and the digest of an entry. -/
def QEntry.key (entry : QEntry) : Nat × Bytes := (entry.seqNo, entry.digest)

/-- The digests of final preprepares, with their sequence numbers from `seqNo` on. -/
def numbered (seqNo : Nat) : List Bytes → List (Nat × Bytes)
  | [] => []
  | digest :: rest => (seqNo, digest) :: numbered (seqNo + 1) rest

/-- **The batches of a new epoch's configuration**: the final preprepares follow its starting
checkpoint. -/
def NewEpochConfig.batches (config : NewEpochConfig) : List (Nat × Bytes) :=
  numbered (config.startingCheckpoint.seqNo + 1) config.finalPreprepares

/-- **What is logged with an echo**: an N-entry for the configuration, a Q-entry for each of its
batches, and N-entries of the same configuration between them. -/
structure EchoEntries (config : NewEpochConfig) (entries : List Persistent) : Prop where
  first : entries.head? = some (.nEntry ⟨config.startingCheckpoint.seqNo + 1, config.config⟩)
  batches : (qEntries entries).map QEntry.key = config.batches
  only : ∀ entry ∈ entries, (∃ qEntry, entry = .qEntry qEntry) ∨
    ∃ seqNo, entry = .nEntry ⟨seqNo, config.config⟩

/-- The actions are the writes of the entries. -/
def Writes (entries : List Persistent) (actions : List Action) : Prop :=
  List.Forall₂ (fun entry action => ∃ index, action = .appendWriteAhead index entry) entries actions

section

variable (writes : Writes entries actions)
include writes

/-- Each entry has its write. -/
theorem Writes.of_mem {entry : Persistent} (member : entry ∈ entries) :
    ∃ index, .appendWriteAhead index entry ∈ actions := by
  induction writes with
  | nil => cases member
  | cons write _ ih =>
    obtain ⟨index, isWrite⟩ := write
    rcases List.mem_cons.mp member with rfl | later
    · exact ⟨index, by simp [isWrite]⟩
    · obtain ⟨later, found⟩ := ih later
      exact ⟨later, List.mem_cons_of_mem _ found⟩

/-- Each action is a write. -/
theorem Writes.isWrite :
    ∀ action ∈ actions, ∃ index entry, action = .appendWriteAhead index entry := by
  induction writes with
  | nil => simp
  | cons write _ ih =>
    obtain ⟨index, isWrite⟩ := write
    exact List.forall_mem_cons.mpr ⟨⟨index, _, isWrite⟩, ih⟩

theorem Writes.routine : ∀ action ∈ actions, action.Routine :=
  fun action member => Or.inr (writes.isWrite action member)

theorem Writes.head {entry : Persistent} (first : entries.head? = some entry) :
    ∃ index rest, actions = .appendWriteAhead index entry :: rest := by
  cases writes with
  | nil => cases first
  | cons write _ =>
    cases first
    obtain ⟨index, isWrite⟩ := write
    exact ⟨index, _, by rw [isWrite]⟩

/-- Entries are added to the log one after the other. -/
inductive Appended : Persisted → List Persistent → Persisted → List Action → Prop
  | nil (p : Persisted) : Appended p [] p []
  | cons {p mid p' : Persisted} {entry : Persistent} {entries : List Persistent}
      {first more : List Action} : p.appendLogEntry entry = .ok (mid, first) →
      Appended mid entries p' more → Appended p (entry :: entries) p' (first ++ more)

end

namespace Appended

variable {p mid p' : Persisted} {entry : Persistent} {entries others : List Persistent}
  {writes more : List Action}

theorem one (appended : p.appendLogEntry entry = .ok (p', writes)) : Appended p [entry] p' writes := by
  rw [← List.append_nil writes]
  exact .cons appended (.nil p')

theorem trans (first : Appended p entries mid writes) (second : Appended mid others p' more) :
    Appended p (entries ++ others) p' (writes ++ more) := by
  induction first with
  | nil => exact second
  | cons appended _ ih =>
    rw [List.append_assoc]
    exact .cons appended (ih second)

/-- The log ends in the entries. -/
theorem entries_eq (appended : Appended p entries p' writes) : p'.entries = p.entries ++ entries := by
  induction appended with
  | nil => simp
  | cons first _ ih =>
    obtain ⟨rfl, _⟩ := Persisted.appendLogEntry_eq_ok first
    rw [ih]
    simp [Persisted.entries]

/-- The actions are the writes of the entries. -/
theorem writes_eq (appended : Appended p entries p' writes) : Writes entries writes := by
  induction appended with
  | nil => exact .nil
  | cons first _ ih =>
    obtain ⟨_, rfl⟩ := Persisted.appendLogEntry_eq_ok first
    exact .cons ⟨_, rfl⟩ ih

end Appended

/-- **Exactly these entries were written**, and nothing else was done. -/
structure Logged (before after : EtState) (entries : List Persistent) (actions : List Action) : Prop
    extends before.Aside after where
  appended : Appended before.sh.persisted entries after.sh.persisted actions

theorem Logged.refl (st : EtState) : Logged st st [] [] := ⟨⟨rfl, rfl, rfl, fun _ => id⟩, .nil _⟩

theorem Logged.trans {first second third : EtState} {more : List Persistent} {rest : List Action}
    (one : Logged first second entries actions) (two : Logged second third more rest) :
    Logged first third (entries ++ more) (actions ++ rest) :=
  ⟨one.toAside.trans two.toAside, one.appended.trans two.appended⟩

namespace EpochTarget

/-- **One entry is logged**, or the log is empty. -/
theorem safe_log (entry : Persistent) (st : EtState) :
    safe Elsewhere (log fun p => p.appendLogEntry entry) st fun final actions _ =>
    Logged st final [entry] actions :=
  safe_zoom (safe_get_bind (safe_lift_bind (st.sh.persisted.appendLogEntry_elsewhere entry) fun _ appended =>
    safe_bind (safe_modify (safe_emit ⟨⟨rfl, rfl, rfl, fun _ => id⟩, .one appended⟩))))

/-- One entry, before those of the rest. -/
theorem safe_log_bind {entry : Persistent} {st : EtState} {α : Type} {next : Unit → GoProc EtState α}
    {P : List Persistent → Prop}
    (rest : ∀ mid, safe Elsewhere (next ()) mid fun final actions _ =>
      ∃ entries, Logged mid final entries actions ∧ P (entry :: entries)) :
    safe Elsewhere ((log fun p => p.appendLogEntry entry) >>= next) st fun final actions _ =>
      ∃ entries, Logged st final entries actions ∧ P entries := by
  refine safe_bind (safe_mono (safe_log entry st) fun mid actions _ first => safe_mono (rest mid) ?_)
  rintro final more _ ⟨entries, later, holds⟩
  exact ⟨entry :: entries, first.trans later, holds⟩

/-- What the second loop over the final preprepares logs. -/
structure PreprepareEntries (config : EpochConfig) (seqNo : Nat) (digests : List Bytes)
    (entries : List Persistent) : Prop where
  batches : (qEntries entries).map QEntry.key = numbered seqNo digests
  only : ∀ entry ∈ entries, (∃ qEntry, entry = .qEntry qEntry) ∨ ∃ seqNo, entry = .nEntry ⟨seqNo, config⟩

theorem PreprepareEntries.batch {config : EpochConfig} {seqNo : Nat} {digest : Bytes}
    {requests : List RequestAck} {digests : List Bytes} {entries : List Persistent}
    (rest : PreprepareEntries config (seqNo + 1) digests entries) :
    PreprepareEntries config seqNo (digest :: digests) (.qEntry ⟨seqNo, digest, requests⟩ :: entries) := by
  refine ⟨?_, fun entry member => ?_⟩
  · show _ :: (qEntries entries).map _ = _ :: _
    rw [rest.batches]
    rfl
  · rcases List.mem_cons.mp member with rfl | later
    · exact Or.inl ⟨_, rfl⟩
    · exact rest.only entry later

/-- **The second loop** logs a Q-entry for each digest. -/
theorem safe_logPreprepares (config : EpochConfig) (seqNo : Nat) (digests : List Bytes) (st : EtState) :
    safe Elsewhere (logPreprepares config seqNo digests) st fun final actions _ =>
      ∃ entries, Logged st final entries actions ∧ PreprepareEntries config seqNo digests entries := by
  induction digests generalizing seqNo st with
  | nil => exact safe_pure ⟨[], .refl st, rfl, by simp⟩
  | cons digest rest ih =>
    refine safe_get_bind (safe_ite (fun isNull => ?_) fun _ => ?_)
    · rw [List.isEmpty_iff.mp isNull]
      refine safe_log_bind fun mid => safe_mono (ih (seqNo + 1) mid) ?_
      rintro final actions _ ⟨entries, logged, isRest⟩
      exact ⟨entries, logged, isRest.batch⟩
    split
    · exact safe_fail (by simp)
    refine safe_log_bind fun mid => safe_ite (fun _ => ?_) fun _ => ?_
    · -- The batch ends at a checkpoint: the next interval's N-entry follows.
      refine @safe_log_bind _ _ _ _ (fun entries => PreprepareEntries config seqNo (digest :: rest)
        (_ :: entries)) fun next => safe_mono (ih (seqNo + 1) next) ?_
      rintro final actions _ ⟨entries, logged, isRest⟩
      refine ⟨entries, logged, PreprepareEntries.batch ⟨isRest.batches, fun entry member => ?_⟩⟩
      rcases List.mem_cons.mp member with rfl | later
      · exact Or.inr ⟨_, rfl⟩
      · exact isRest.only entry later
    · refine safe_mono (ih (seqNo + 1) mid) ?_
      rintro final actions _ ⟨entries, logged, isRest⟩
      exact ⟨entries, logged, isRest.batch⟩

/-- **With its echo** a node logs the whole configuration. -/
theorem safe_logNewEpoch (newConfig : NewEpochConfig) (st : EtState) :
    safe Elsewhere (logNewEpoch newConfig) st fun final actions _ =>
      ∃ entries, Logged st final entries actions ∧ EchoEntries newConfig entries := by
  refine safe_log_bind fun mid => safe_mono (safe_logPreprepares _ _ _ mid) ?_
  rintro final actions _ ⟨entries, logged, isRest⟩
  refine ⟨entries, logged, rfl, isRest.batches, fun entry member => ?_⟩
  rcases List.mem_cons.mp member with rfl | later
  · exact Or.inr ⟨_, rfl⟩
  · exact isRest.only entry later

/-- **When it is ready**, each batch as prepared. -/
theorem safe_logPrepared (seqNo : Nat) (digests : List Bytes) (st : EtState) :
    safe Elsewhere (logPrepared seqNo digests) st fun final actions _ =>
      Logged st final ((numbered seqNo digests).map fun batch => .pEntry ⟨batch.1, batch.2⟩) actions := by
  induction digests generalizing seqNo st with
  | nil => exact safe_pure (.refl st)
  | cons digest rest ih =>
    refine safe_bind (safe_mono (safe_log _ st) fun mid actions _ first => ?_)
    exact safe_mono (ih (seqNo + 1) mid) fun final more _ later => first.trans later

theorem untouched_log (entry : Persistent) : Keeps Untouched (log fun p => p.appendLogEntry entry) :=
  fun st => safe_mono (safe_log entry st) fun _ _ _ logged => logged.toAside

theorem untouched_logNewEpoch (newConfig : NewEpochConfig) : Keeps Untouched (logNewEpoch newConfig) :=
  fun st => safe_mono (safe_logNewEpoch newConfig st) fun _ _ _ ⟨_, logged, _⟩ => logged.toAside

theorem untouched_logPrepared (seqNo : Nat) (digests : List Bytes) :
    Keeps Untouched (logPrepared seqNo digests) :=
  fun st => safe_mono (safe_logPrepared seqNo digests st) fun _ _ _ logged => logged.toAside

end EpochTarget

end MirBft
