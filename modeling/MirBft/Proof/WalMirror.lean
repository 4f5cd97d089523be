/-
**The WAL and the log in memory.**

* `Wal.fold`: what the WAL holds after a list of actions;
* `Mirrors`: it holds what the log in memory holds, under consecutive indexes. Every move of the log
  that loses nothing keeps this (`Mirrors.move`);
* `SmState.Lossless`: the events after which nothing is lost. A checkpoint that becomes stable cuts
  the log in memory only, and the entries that a node's own commit leads to are not written;
* **`wal_mirrors_log`**: in a run of such events the WAL mirrors the log;
  **`stable_checkpoint_unmirrored`**: after a stable checkpoint it does not;
* **`restart_recovers_log`**: a machine that starts from the WAL has the log of the one that wrote
  it.
-/

import MirBft.Proof.PersistBeforeSend

namespace MirBft

open Proc List

/-! ### The WAL -/

namespace Wal

/-- The WAL after one action. -/
def apply (wal : List LogEntry) : Action → List LogEntry
  | .appendWriteAhead index entry => wal ++ [⟨index, entry⟩]
  | .truncateWriteAhead index => wal.filter fun logEntry => index ≤ logEntry.index
  | _ => wal

/-- **The WAL after a list of actions.** -/
def fold (wal : List LogEntry) (actions : List Action) : List LogEntry := actions.foldl apply wal

@[simp] theorem fold_append (wal : List LogEntry) (actions more : List Action) :
    fold wal (actions ++ more) = fold (fold wal actions) more := foldl_append

theorem fold_of_restsOn {entries : List Persistent} {actions : List Action}
    (rests : ∀ action ∈ actions, action.RestsOn entries) (wal : List LogEntry) :
    fold wal actions = wal := by
  induction actions with
  | nil => rfl
  | cons action rest ih =>
    have unchanged : apply wal action = wal := by
      have restsOn := rests action mem_cons_self
      cases action with
      | appendWriteAhead index entry => exact restsOn.elim
      | truncateWriteAhead index => exact restsOn.elim
      | _ => rfl
    show fold (apply wal action) rest = wal
    rw [unchanged]
    exact ih fun other member => rests other (mem_cons_of_mem _ member)

end Wal

/-- The indexes are consecutive, and the next one follows them. -/
def Persisted.Consecutive (p : Persisted) : Prop :=
  ∃ first, p.log.map LogEntry.index = List.range' first p.log.length ∧
    (p.log ≠ [] → p.nextIndex = first + p.log.length)

/-- **The WAL mirrors the log.** -/
structure Mirrors (wal : List LogEntry) (p : Persisted) : Prop where
  same : wal = p.log
  consecutive : p.Consecutive

namespace Persisted

variable {p : Persisted} {dropped rest : List LogEntry}

theorem Consecutive.append (consecutive : p.Consecutive) {index : Nat} (entry : Persistent)
    (isNext : p.log ≠ [] → p.nextIndex = index) :
    Consecutive ⟨index + 1, p.log ++ [⟨index, entry⟩]⟩ := by
  obtain ⟨first, indexes, next⟩ := consecutive
  by_cases empty : p.log = []
  · exact ⟨index, by simp [empty], by simp [empty]⟩
  · have isIndex : first + p.log.length = index := (next empty).symm.trans (isNext empty)
    refine ⟨first, ?_, fun _ => ?_⟩
    · rw [map_append, indexes, length_append, length_singleton, List.range'_1_concat,
        isIndex]
      rfl
    · rw [length_append, length_singleton, ← isIndex, Nat.add_assoc]

theorem Consecutive.suffix (consecutive : p.Consecutive)
    (split : p.log = dropped ++ rest) : Consecutive { p with log := rest } := by
  obtain ⟨first, indexes, next⟩ := consecutive
  rw [split, map_append, length_append, ← List.range'_append_1] at indexes
  obtain ⟨_, ofRest⟩ := append_inj indexes (by simp)
  refine ⟨first + dropped.length, ofRest, fun nonempty => ?_⟩
  have isNext := next fun empty => nonempty (append_eq_nil_iff.mp (split.symm.trans empty)).2
  rw [split, length_append, ← Nat.add_assoc] at isNext
  exact isNext

/-- A truncation at the index of an entry leaves the log from that entry on. -/
theorem Consecutive.filter_index (consecutive : p.Consecutive)
    {logHead : LogEntry} (split : p.log = dropped ++ logHead :: rest) :
    p.log.filter (fun logEntry => logHead.index ≤ logEntry.index) = logHead :: rest := by
  obtain ⟨first, indexes, _⟩ := consecutive
  have increasing : (p.log.map LogEntry.index).Pairwise (· < ·) := by
    rw [indexes]
    exact pairwise_lt_range'
  rw [split, map_append, pairwise_append, map_cons, pairwise_cons] at increasing
  obtain ⟨_, ⟨above, _⟩, below⟩ := increasing
  rw [split, filter_append, filter_eq_nil_iff.mpr, nil_append, filter_eq_self.mpr]
  · intro logEntry member
    rcases mem_cons.mp member with rfl | later
    · simp
    · simpa using (above _ (mem_map_of_mem later)).le
  · intro logEntry member
    have isBelow := below _ (mem_map_of_mem member) _ mem_cons_self
    simpa using isBelow

end Persisted

namespace Mirrors

variable {wal : List LogEntry} {p p' : Persisted} {actions : List Action} {v after : LogView}

theorem append {entry : Persistent} (mirrors : Mirrors wal p)
    (appended : p.appendLogEntry entry = .ok (p', actions)) : Mirrors (Wal.fold wal actions) p' := by
  obtain ⟨rfl, rfl⟩ := Persisted.appendLogEntry_eq_ok appended
  refine ⟨?_, mirrors.consecutive.append entry fun _ => rfl⟩
  show wal ++ _ = p.log ++ _
  rw [mirrors.same]

theorem appended {entries : List Persistent} (mirrors : Mirrors wal p)
    (added : Appended p entries p' actions) : Mirrors (Wal.fold wal actions) p' := by
  induction added generalizing wal with
  | nil => exact mirrors
  | cons first _ ih =>
    rw [Wal.fold_append]
    exact ih (mirrors.append first)

theorem truncate (mirrors : Mirrors wal p) (low : Nat) :
    Mirrors (Wal.fold wal (p.truncate low).2) (p.truncate low).1 := by
  unfold Persisted.truncate
  split
  · exact mirrors
  rename_i logHead rest cut
  split
  · exact mirrors
  · obtain ⟨dropped, split⟩ : logHead :: rest <:+ p.log := by
      rw [← cut]
      exact dropWhile_suffix _
    refine ⟨?_, mirrors.consecutive.suffix split.symm⟩
    rw [mirrors.same]
    exact mirrors.consecutive.filter_index split.symm

/-- **A move that loses nothing.** -/
theorem move (mirrors : Mirrors wal v.persisted) (moved : LogMove False v after actions) :
    Mirrors (Wal.fold wal actions) after.persisted := by
  cases moved with
  | @write entries p before writes late added rests =>
    have early := Wal.fold_of_restsOn fun action member => rests action (mem_append_left _ member)
    have last := Wal.fold_of_restsOn fun action member => rests action (mem_append_right _ member)
    rw [Wal.fold_append, Wal.fold_append, early, last]
    exact mirrors.appended added
  | announce targets _ added =>
    rw [Wal.fold_append]
    exact mirrors.append added
  | goOn _ _ => exact mirrors
  | drop => exact mirrors
  | rebroadcast targets _ => exact mirrors
  | cut low => exact mirrors.truncate low
  | lose isLossy _ _ => exact isLossy.elim
  | forget low isLossy => exact isLossy.elim

theorem steps (mirrors : Mirrors wal v.persisted)
    (moved : Steps (LogMove False) v after actions) : Mirrors (Wal.fold wal actions) after.persisted := by
  induction moved generalizing wal with
  | refl => exact mirrors
  | cons one _ ih =>
    rw [Wal.fold_append]
    exact ih (mirrors.move one)

end Mirrors

/-! ### Stable checkpoints -/

/-- The message makes its checkpoint stable, or comes when it is: a checkpoint in the window, above
its low end, that a quorum agrees on. -/
def CheckpointTracker.Completes (ct : CheckpointTracker) (seqNo : Nat) (value : Bytes) : Prop :=
  ∃ low high, ct.lowWatermark = .ok low ∧ ct.highWatermark = .ok high ∧ low < seqNo ∧ seqNo ≤ high ∧
    ((ct.checkpoint seqNo).stable = true ∨ intersectionQuorum (ct.checkpoint seqNo).networkConfig ≤
      (((ct.checkpoint seqNo).values.lookup value).getD []).length + 1)

theorem CheckpointVotes.stable_applyCheckpointMsg {cw after : CheckpointVotes} {myID source : NodeID}
    {value : Option Bytes} (applied : cw.applyCheckpointMsg myID source value = .ok after)
    (stable : after.stable = true) : cw.stable = true ∨ intersectionQuorum cw.networkConfig ≤
      ((cw.values.lookup (value.getD [])).getD []).length + 1 := by
  rcases applyCheckpointMsg_eq_ok applied with rfl | ⟨_, _, rfl⟩
  · exact Or.inl stable
  · exact Or.inr (of_decide_eq_true stable)

namespace CheckpointTracker

variable {ct after : CheckpointTracker} {source : NodeID} {seqNo : Nat}

theorem Vote.idle {value : Option Bytes} (vote : Vote ct source seqNo value after)
    (incomplete : ¬ ct.Completes seqNo (value.getD [])) (idle : ct.state = .idle) : after.state = .idle := by
  cases vote with
  | ignored _ _ _ _ => exact idle
  | claimed _ _ _ _ => exact idle
  | counted isLow isHigh inWindow voted =>
    refine (if_neg fun stable => incomplete ?_).trans idle
    exact ⟨_, _, isLow, isHigh, stable.2, inWindow, CheckpointVotes.stable_applyCheckpointMsg voted stable.1⟩

theorem wp_reinitialize_idle (st : CpState) :
    wp CheckpointTracker.reinitialize st fun final _ _ => final.ct.state = .idle := by
  refine wp_reinitialize (I := fun _ => True) (J := fun _ => True) (P := fun ct => ct.state = .idle)
    (fun _ _ _ _ _ _ => trivial)
    (fun _ _ _ _ _ _ _ _ => trivial) fun ct sh _ =>
      wp_mono (wp_garbageCollect (I := fun _ => True) (fun _ _ _ => trivial)
      (wp_drainBuffer (I := fun _ => True) (fun _ _ _ _ _ _ _ _ _ _ => trivial) fun _ _ => id)
        fun _ => id) fun _ _ _ done => done.2

theorem wp_step_idle {st : CpState} {value : Bytes} (incomplete : ¬ st.ct.Completes seqNo value)
    (idle : st.ct.state = .idle) :
    wp (step source (.checkpoint seqNo value)) st fun final _ _ => final.ct.state = .idle := by
  refine wp_step (P := fun ct => ct.state = .idle) (fun _ _ _ => idle)
    (fun _ _ _ _ vote => vote.idle ?_ idle) fun _ _ _ _ _ _ vote => vote.idle ?_ idle
  · rwa [nonNil_getD]
  · rw [nonNil_getD]
    exact incomplete

end CheckpointTracker

/-! ### The commits of the node itself -/

/-- A commit of the node itself comes when its own prepare is counted, or too late. -/
def SmState.Counted (st : SmState) (id : NodeID) (seqNo epoch : Nat) : Prop :=
  ∀ target, st.tracker.currentEpoch = some target → epoch < target.number ∨
    epoch = target.number ∧ (target.state = .done ∨ target.state = .inProgress ∧
      ∀ ae, target.activeEpoch = some ae → (∃ low, ae.lowWatermark = .ok low ∧ seqNo < low) ∨
        ∃ s, ae.heap seqNo = some s ∧ (s.nodeChoices id).state ≠ .uninitialized)

/-- All messages but the commits of the node. -/
def NotOwnCommit (id source : NodeID) (msg : Msg) : Prop :=
  source = id → ∀ seqNo epoch digest, msg ≠ .commit seqNo epoch digest

theorem mayVote_notOwnCommit (id : NodeID) : MayVote False (NotOwnCommit id) id :=
  Or.inr fun seqNo epoch digest isHeard => isHeard rfl seqNo epoch digest rfl

section OwnCommit

variable {heard : NodeID → Msg → Prop} {my : InitialParameters} {source : NodeID} {seqNo epoch : Nat}
  {digest : Bytes} {st : AeState}

/-- **A commit vote that is counted** leaves the log as it is. -/
theorem ActiveEpoch.wp_counted_commit (aligned : Aligned heard st.ae)
    (settled : SettledHeap st.ae.myConfig st.ae.heap)
    (counted : ∀ s, st.ae.heap seqNo = some s → (s.nodeChoices source).state ≠ .uninitialized) :
    wp (quiet (onSequence seqNo fun agreements seq p => seq.applyCommitMsg agreements p source digest)) st
      fun final actions _ => actions = [] ∧ final.sh = st.sh ∧ final.ae.myConfig = st.ae.myConfig ∧
        Aligned heard final.ae ∧ SettledHeap st.ae.myConfig final.ae.heap := by
  rw [wp_quiet]
  refine wp_get_bind (wp_lift_bind fun s isFound => ?_)
  have found : st.ae.heap seqNo = some s := sequence_eq_ok isFound
  refine wp_get_bind (wp_lift_bind fun result ran => ?_)
  obtain ⟨⟨next, p'⟩, actions⟩ := result
  rw [wp_bind, wp_modify, wp_emit]
  have isOp : (SeqOp.applyCommitMsg source digest).run st.sh.clients.agreements s st.sh.persisted =
      .ok ((next, p'), actions) := ran
  have foreign : (SeqOp.applyCommitMsg source digest).Foreign s := by simp [SeqOp.Foreign]
  obtain ⟨_, silent⟩ := (settled seqNo s found).1.applyCommitMsg_silent digest fun _ _ => counted s found
  cases silent.symm.trans ran
  obtain ⟨stillSettled, _⟩ : _ ∧ LogSteps False _ _ _ := settled.run found foreign isOp
  exact ⟨rfl, rfl, rfl, aligned.operate found foreign isOp, stillSettled⟩

theorem ActiveEpoch.wp_step_counted (mayVote : MayVote False heard my.id)
    (aligned : Aligned heard st.ae) (settled : SettledHeap my st.ae.heap) (mine : st.ae.myConfig = my)
    (counted : (∃ low, st.ae.lowWatermark = .ok low ∧ seqNo < low) ∨
      ∃ s, st.ae.heap seqNo = some s ∧ (s.nodeChoices source).state ≠ .uninitialized) :
    wp (step source (.commit seqNo epoch digest)) st fun final actions _ =>
      Aligned heard final.ae ∧ SettledHeap my final.ae.heap ∧ final.ae.myConfig = my ∧
        (Shared.logs False).rel st.sh final.sh actions := by
  have untouched : Aligned heard st.ae ∧ SettledHeap my st.ae.heap ∧ st.ae.myConfig = my ∧
      (Shared.logs False).rel st.sh st.sh [] := ⟨aligned, settled, mine, fun _ => id, .refl _⟩
  refine wp_get_bind (wp_lift_bind fun applyable filtered => ?_)
  change (if seqNo > st.ae.epochConfig.plannedExpiration then pure Applyable.invalid
    else st.inWindow seqNo) = .ok applyable at filtered
  cases applyable with
  | past | invalid =>
    rw [wp_pure]
    exact untouched
  | future =>
    -- A sequence that is there is not above the window.
    split at filtered
    · cases filtered
    obtain ⟨low, isLow, filtered⟩ := bind_eq_ok.mp filtered
    split at filtered
    · cases filtered
    rename_i notBelow
    obtain ⟨high, isHigh, filtered⟩ := bind_eq_ok.mp filtered
    split at filtered
    swap
    · cases filtered
    rename_i above
    rcases counted with ⟨other, isOther, below⟩ | ⟨s, found, _⟩
    · rw [isLow] at isOther
      cases isOther
      exact absurd below notBelow
    · rw [aligned.bounded st.sh high isHigh seqNo above] at found
      cases found
  | current =>
    have isCounted : ∀ s, st.ae.heap seqNo = some s → (s.nodeChoices source).state ≠ .uninitialized := by
      intro s found
      rcases counted with ⟨low, isLow, below⟩ | ⟨other, isOther, started⟩
      · split at filtered
        · cases filtered
        obtain ⟨other, isOther, filtered⟩ := bind_eq_ok.mp filtered
        rw [isLow] at isOther
        cases isOther
        rw [if_pos below] at filtered
        cases filtered
      · rw [found] at isOther
        cases isOther
        exact started
    subst mine
    show wp (applyCommitMsg source seqNo digest) st _
    unfold applyCommitMsg
    rw [wp_bind]
    refine wp_mono (wp_counted_commit aligned settled isCounted) ?_
    rintro voted _ _ ⟨rfl, shared, sameMy, stillAligned, stillSettled⟩
    have rest : Has (Follows heard) (do
        let st ← Proc.get
        let seq ← lift (st.sequence seqNo)
        if seq.state ≠ .committed ∨ seqNo ≠ st.ae.lowestUncommitted then pure ()
        else do
          let high ← lift st.highWatermark
          commitInOrder (high + 1 - seqNo)) :=
      has_bind has_get fun _ => has_bind (has_lift _) fun _ =>
        has_ite (has_pure ()) (has_bind (has_lift _) fun _ => follows_commitInOrder _)
    refine wp_mono (rest voted) fun final actions _ done => ?_
    obtain ⟨finallyAligned, moved⟩ := done stillAligned
    obtain ⟨finalMy, sameShared⟩ := ActiveMove.fixed (moved [])
    have votes : MayVote False heard voted.ae.myConfig.id := sameMy.symm ▸ mayVote
    have allSettled : SettledHeap voted.ae.myConfig voted.ae.heap := sameMy.symm ▸ stillSettled
    obtain ⟨finallySettled, logged⟩ := ActiveMove.logs_steps votes allSettled (moved [])
    have isMy : final.ae.myConfig = st.ae.myConfig := finalMy.trans sameMy
    refine ⟨finallyAligned, isMy ▸ finallySettled, isMy, ?_⟩
    rw [← shared]
    exact ⟨.of_same sameShared, logged⟩

theorem EpochTarget.wp_step_counted (mayVote : MayVote False heard my.id) {st : EtState}
    (counted : st.et.state = .done ∨ st.et.state = .inProgress ∧
      ∀ ae, st.et.activeEpoch = some ae → (∃ low, ae.lowWatermark = .ok low ∧ seqNo < low) ∨
        ∃ s, ae.heap seqNo = some s ∧ (s.nodeChoices source).state ≠ .uninitialized) :
    wp (step source (.commit seqNo epoch digest)) st fun final actions _ =>
      (TargetLogs False heard (.of my)).rel st final actions := by
  refine wp_get_bind ?_
  rcases counted with done | ⟨inProgress, counted⟩
  · rw [if_neg (by simp [done, EpochTargetState.rank]), if_pos done]
    exact has_pure () st
  rw [if_neg (by simp [inProgress]), if_neg (by simp [inProgress])]
  refine wp_get_bind ?_
  split
  · exact wp_fail _ _ _
  rename_i ae isActive
  refine wp_keeping fun kept => ?_
  obtain ⟨aligned, settled, mine⟩ := kept.active ae isActive
  rw [wp_zoom]
  refine wp_mono (ActiveEpoch.wp_step_counted mayVote aligned settled mine (counted ae isActive)) ?_
  rintro inner actions _ ⟨stillAligned, stillSettled, isMy, retains, logged⟩
  refine ⟨⟨retains _ kept.stocked, ?_, kept.prestart⟩, ?_⟩
  · rintro _ ⟨⟩
    exact ⟨stillAligned, stillSettled, isMy⟩
  · exact logged (st.et.myEpochChange.map ParsedEpochChange.underlying)

theorem SmState.wp_step_counted (mayVote : MayVote False heard my.id) {st : SmState}
    (counted : st.Counted source seqNo epoch) :
    wp (step source (.commit seqNo epoch digest)) st fun final actions _ =>
      (SmLogs False heard (.of my)).rel st final actions := by
  show wp (onTracker (EpochTracker.step source (.commit seqNo epoch digest))) st _
  have moved : wp (EpochTracker.step source (.commit seqNo epoch digest)) ⟨st.tracker, st.sh⟩
      fun final actions _ => (TrackerLogs False heard (.of my)).rel ⟨st.tracker, st.sh⟩ final actions := by
    refine wp_get_bind (wp_lift_bind fun number isNumber => wp_lift_bind fun applyable filtered => ?_)
    obtain ⟨number, isNumber, filtered⟩ := bind_eq_ok.mp filtered
    cases isNumber
    split at filtered
    · cases filtered
    rename_i target isTarget
    rcases counted target isTarget with past | ⟨rfl, arrives⟩
    · rw [if_pos past] at filtered
      cases filtered
      exact has_pure () _
    rw [if_neg (lt_irrefl _), if_neg (lt_irrefl _)] at filtered
    cases filtered
    refine EpochTracker.wp_onTarget_logs fun et isCurrent => ?_
    rw [isTarget] at isCurrent
    cases isCurrent
    exact EpochTarget.wp_step_counted mayVote arrives
  rw [onTracker, wp_zoom]
  exact moved

end OwnCommit

/-! ### Events that lose nothing -/

/-- **The events after which nothing is lost**: no checkpoint message completes a quorum above the
low end of the window, and the node's own commits are counted or late. -/
def SmState.Lossless (st : SmState) : Event → Prop
  | .step _ (.checkpoint seqNo value) => ¬ st.checkpointTracker.Completes seqNo value
  | .step source (.commit seqNo epoch _) => source = st.sh.myConfig.id → st.Counted source seqNo epoch
  | _ => True

namespace SmState

variable {my : InitialParameters} {st : SmState} {event : Event}

theorem wp_handle_idle (lossless : st.Lossless event) (idle : st.checkpointTracker.state = .idle) :
    wp (handle event) st fun final _ _ => final.checkpointTracker.state = .idle := by
  refine @wp_handle_checkpoints (fun ct => ct.state = .idle) st event (fun _ => idle)
    (fun source seqNo value same => ?_)
    fun _ _ _ _ sh _ => CheckpointTracker.wp_reinitialize_idle _
  subst same
  exact CheckpointTracker.wp_step_idle lossless idle

/-- **An event that loses nothing** moves the log without losses. -/
theorem wp_handle_lossless (lossless : st.Lossless event) (parameters : st.sh.myConfig = my) :
    wp (handle event) st fun final actions _ =>
      (SmLogs False (NotOwnCommit my.id) (.of my)).rel st final actions := by
  by_cases own : ∃ seqNo epoch digest, event = .step my.id (.commit seqNo epoch digest)
  · obtain ⟨seqNo, epoch, digest, rfl⟩ := own
    exact wp_step_counted (mayVote_notOwnCommit my.id) (lossless (by rw [parameters]))
  · refine logs_handle (mayVote_notOwnCommit my.id) ?_ st
    rintro source msg rfl rfl seqNo epoch digest rfl
    exact own ⟨seqNo, epoch, digest, rfl⟩

theorem wp_applyEvent_lossless (lossless : st.Lossless event)
    (parameters : st.sh.myConfig = my) (idle : st.checkpointTracker.state = .idle) (fuel : Nat) :
    wp (applyEvent fuel event) st fun final actions _ =>
      (SmLogs False (NotOwnCommit my.id) (.of my)).rel st final actions ∧
        final.checkpointTracker.state = .idle := by
  unfold applyEvent
  rw [wp_bind]
  refine wp_mono (wp_and (wp_handle_lossless lossless parameters) (wp_handle_idle lossless idle)) ?_
  rintro handled actions _ ⟨moved, stillIdle⟩
  -- There is no garbage to collect.
  rw [wp_bind]
  refine wp_get_bind ?_
  rw [if_neg (by simp [stillIdle]), wp_pure]
  refine wp_mono (wp_and (@logs_advance _ _ (.of my) (mayVote_notOwnCommit my.id) fuel handled)
    (checkpoints_advance fuel handled)) ?_
  rintro final more _ ⟨advanced, unchanged⟩
  exact ⟨Effect.trans _ moved advanced, unchanged ▸ stillIdle⟩

end SmState

/-! ### Runs -/

/-- The log of a machine. -/
def StateMachine.log : StateMachine → Persisted
  | .uninitialized => .empty
  | .loadingPersisted _ p => p
  | .initialized st => st.sh.persisted

/-- **The runs of a machine**, with the WAL: the entries that were loaded, and then what the actions
make of them. -/
inductive WalRun (condition : SmState → Event → Prop) : StateMachine → List LogEntry → Prop
  | start : WalRun condition .uninitialized []
  | load {machine machine' : StateMachine} {wal : List LogEntry} {index : Nat} {entry : Persistent}
      {actions : List Action} (fuel : Nat) (orders : Nat → MapIter) : WalRun condition machine wal →
      machine.applyEvent fuel orders (.loadPersistedEntry index entry) = .ok (machine', actions) →
      WalRun condition machine' (wal ++ [⟨index, entry⟩])
  | event {machine machine' : StateMachine} {wal : List LogEntry} {event : Event} {actions : List Action}
      (fuel : Nat) (orders : Nat → MapIter) : WalRun condition machine wal →
      (∀ index entry, event ≠ .loadPersistedEntry index entry) →
      (∀ st, machine = .initialized st → condition st event) →
      machine.applyEvent fuel orders event = .ok (machine', actions) →
      WalRun condition machine' (Wal.fold wal actions)

/-- Between events a machine has no garbage to collect, and keeps no commit of its own for later. -/
def StateMachine.AtRest : StateMachine → Prop
  | .initialized st => st.checkpointTracker.state = .idle ∧
      ∃ my : InitialParameters, SmKept (NotOwnCommit my.id) (.of my) st
  | _ => True

/-- What holds in a run of events that lose nothing. -/
structure Mirrored (machine : StateMachine) (wal : List LogEntry) : Prop where
  mirrors : Mirrors wal machine.log
  atRest : machine.AtRest

variable {machine machine' : StateMachine} {wal : List LogEntry} {actions : List Action}
  {orders : Nat → MapIter}

theorem Mirrored.load {index fuel : Nat} {entry : Persistent}
    (mirrored : Mirrored machine wal)
    (applied : machine.applyEvent fuel orders (.loadPersistedEntry index entry) = .ok (machine', actions)) :
    Mirrored machine' (wal ++ [⟨index, entry⟩]) := by
  cases machineStep_of_applyEvent applied with
  | @load my p p' _ _ loaded =>
    obtain ⟨rfl, isNext⟩ := Persisted.appendInitialLoad_eq_ok loaded
    have same : wal = p.log := mirrored.mirrors.same
    refine ⟨⟨?_, mirrored.mirrors.consecutive.append entry isNext⟩, trivial⟩
    rw [same]
    rfl
  | apply ran => cases ran

variable {fuel : Nat}

theorem Mirrored.event {event : Event} (mirrored : Mirrored machine wal)
    (notLoad : ∀ index entry, event ≠ .loadPersistedEntry index entry)
    (lossless : ∀ st, machine = .initialized st → st.Lossless event)
    (applied : machine.applyEvent fuel orders event = .ok (machine', actions)) :
    Mirrored machine' (Wal.fold wal actions) := by
  cases machineStep_of_applyEvent applied with
  | begin my => exact ⟨mirrored.mirrors, trivial⟩
  | received => exact mirrored
  | load _ => exact absurd rfl (notLoad _ _)
  | @complete my p st _ ran =>
    have logged : Has (SmLogs False (NotOwnCommit my.id) (.of my)) SmState.reinitialize :=
      SmState.logs_reinitialize (mayVote_notOwnCommit my.id)
    obtain ⟨kept, moved⟩ := logged _ _ _ _ ran (components_kept _ my p orders)
    have idle := @SmState.wp_reinitialize_checkpoints (fun ct => ct.state = .idle) _
      (fun sh _ => CheckpointTracker.wp_reinitialize_idle _) _ _ _ ran
    have mirrors : Mirrors wal (StateMachine.components my p orders).logView.persisted :=
      mirrored.mirrors
    exact ⟨mirrors.steps moved, idle, my, kept⟩
  | @apply st st' _ _ ran =>
    obtain ⟨idle, my, kept⟩ := mirrored.atRest
    have ready : SmState.Lossless { st with sh := { st.sh with orders } } event := lossless st rfl
    obtain ⟨moves, stillIdle⟩ :=
      SmState.wp_applyEvent_lossless ready kept.stocked.1 idle fuel _ _ _ ran
    obtain ⟨finallyKept, moved⟩ := moves (kept.orders orders)
    have mirrors : Mirrors wal
        (SmState.logView { st with sh := { st.sh with orders } }).persisted := mirrored.mirrors
    exact ⟨mirrors.steps moved, stillIdle, my, finallyKept⟩

theorem WalRun.mirrored (run : WalRun SmState.Lossless machine wal) : Mirrored machine wal := by
  induction run with
  | start => exact ⟨⟨rfl, 0, rfl, fun nonempty => absurd rfl nonempty⟩, trivial⟩
  | load _ _ _ applied ih => exact ih.load applied
  | event _ _ _ notLoad lossless applied ih => exact ih.event notLoad lossless applied

/-- **The WAL mirrors the log** in every run whose events lose nothing. -/
theorem wal_mirrors_log {machine : StateMachine} {wal : List LogEntry}
    (run : WalRun SmState.Lossless machine wal) : Mirrors wal machine.log :=
  run.mirrored.mirrors

/-! ### A new node, and a stable checkpoint -/

/-- The events one after the other, with the WAL. -/
def StateMachine.executeWal (fuel : Nat) (orders : Nat → MapIter) :
    List Event → StateMachine → List LogEntry → Option (StateMachine × List LogEntry)
  | [], machine, wal => some (machine, wal)
  | event :: rest, machine, wal => match machine.applyEvent fuel orders event with
    | .ok (machine, actions) => executeWal fuel orders rest machine (match event with
      | .loadPersistedEntry index entry => wal ++ [⟨index, entry⟩]
      | _ => Wal.fold wal actions)
    | .error _ => none

theorem WalRun.of_execute {condition : SmState → Event → Prop}
    {events : List Event} {machine : StateMachine}
    {result : StateMachine × List LogEntry} (run : WalRun condition machine wal)
    (meets : ∀ event ∈ events, ∀ st, condition st event)
    (executed : StateMachine.executeWal fuel orders events machine wal = some result) :
    WalRun condition result.1 result.2 := by
  induction events generalizing machine wal with
  | nil =>
    cases executed
    exact run
  | cons event rest ih =>
    have others : ∀ event ∈ rest, ∀ st, condition st event := fun event member =>
      meets event (mem_cons_of_mem _ member)
    unfold StateMachine.executeWal at executed
    split at executed
    · rename_i machine' actions applied
      have isMet : ∀ st, machine = .initialized st → condition st event := fun st _ =>
        meets event mem_cons_self st
      cases event with
      | loadPersistedEntry index entry => exact ih (run.load fuel orders applied) others executed
      | _ => exact ih (run.event fuel orders (by simp) isMet applied) others executed
    · cases executed

/-- The log of node two when it has echoed epoch one. -/
def FourNodes.joinedLog : List Persistent :=
  firstLog ++ [.ecEntry 1, .nEntry ⟨1, (epochOne ⟨0, [9]⟩).config⟩]

/-- **Node two joins epoch one**, and writes two entries. None of the messages that it is sent is a
checkpoint or a commit. -/
theorem FourNodes.joining_run : ∃ st wal, WalRun SmState.Lossless (.initialized st) wal ∧
    wal.map LogEntry.entry = joinedLog := by
  have evaluated : ∃ result, StateMachine.executeWal 10 (fun _ => .inOrder)
    (joining ⟨0, [9]⟩) .uninitialized [] =
      some result ∧ (result.1 matches .initialized _) = true ∧ result.2.map LogEntry.entry = joinedLog := by
    decide +kernel
  obtain ⟨⟨machine, wal⟩, executed, isInitialized, isLog⟩ := evaluated
  have noVotes : ∀ event ∈ joining ⟨0, [9]⟩, (match event with
      | .step _ (.checkpoint ..) | .step _ (.commit ..) => false
      | _ => true) = true := by
    decide +kernel
  have run : WalRun SmState.Lossless machine wal := by
    refine WalRun.start.of_execute (fun event member st => ?_) executed
    have isOther := noVotes event member
    unfold SmState.Lossless
    split <;> simp_all
  cases machine with
  | initialized st => exact ⟨st, wal, run, isLog⟩
  | _ => cases isInitialized

/-- The WAL of node two mirrors its log. -/
theorem wal_mirrors_log_joined : ∃ st wal, WalRun SmState.Lossless (.initialized st) wal ∧
    wal.map LogEntry.entry = FourNodes.joinedLog ∧ Mirrors wal st.sh.persisted := by
  obtain ⟨st, wal, run, isLog⟩ := FourNodes.joining_run
  exact ⟨st, wal, run, isLog, wal_mirrors_log run⟩

namespace SecondCheckpoint

/-- Node one joined a fresh network, and was brought to checkpoint five in the change to epoch
one. -/
def log : List Persistent :=
  FourNodes.firstLog ++ [.ecEntry 1, .tEntry 5 [8], .cEntry ⟨5, [8], FourNodes.networkState⟩]

/-- It starts again, and the other nodes tell it of the checkpoint. -/
def events : List Event :=
  FourNodes.start 1 log ++ [0, 2, 3].map fun source => .step source (.checkpoint 5 [8])

/-- **The stable checkpoint cuts the log in memory, and not the WAL.** -/
theorem stable_checkpoint_unmirrored : ∃ machine wal, WalRun (fun _ _ => True) machine wal ∧
    wal.map LogEntry.entry = log ∧ machine.log.entries = log.drop 4 ∧ ¬ Mirrors wal machine.log := by
  have evaluated : ∃ result, StateMachine.executeWal 10 (fun _ => .inOrder) events .uninitialized
      [] = some result ∧ result.2.map LogEntry.entry = log ∧ result.1.log.entries = log.drop 4 := by
    decide +kernel
  obtain ⟨⟨machine, wal⟩, executed, isWal, isLog⟩ := evaluated
  refine ⟨machine, wal, WalRun.start.of_execute (fun _ _ _ => trivial) executed, isWal, isLog, ?_⟩
  intro mirrors
  have lengths := congrArg List.length (congrArg (List.map LogEntry.entry) mirrors.same)
  change _ = machine.log.entries.length at lengths
  rw [isWal, isLog] at lengths
  exact absurd lengths (by decide)

end SecondCheckpoint

/-! ### Restarts -/

/-- The entries of a WAL are loaded one by one. -/
def Wal.loads (wal : List LogEntry) : List Event :=
  wal.map fun logEntry => .loadPersistedEntry logEntry.index logEntry.entry

/-- Entries with consecutive indexes are loaded behind those that a log has. -/
theorem StateMachine.executeWal_loads {first : Nat} {my : InitialParameters} {rest : List LogEntry}
    {p : Persisted}
    (indexes : (p.log ++ rest).map LogEntry.index = List.range' first (p.log ++ rest).length)
    (next : p.log ≠ [] → p.nextIndex = first + p.log.length) :
    ∃ after : Persisted,
      StateMachine.executeWal fuel orders (Wal.loads rest) (.loadingPersisted my p) p.log =
        some (.loadingPersisted my after, after.log) ∧
      after.log = p.log ++ rest ∧ (after.log ≠ [] → after.nextIndex = first + after.log.length) := by
  induction rest generalizing p with
  | nil => exact ⟨p, rfl, (append_nil _).symm, next⟩
  | cons logEntry rest ih =>
    have isIndex : logEntry.index = first + p.log.length := by
      have inside : p.log.length < ((p.log ++ logEntry :: rest).map LogEntry.index).length := by simp
      simpa using getElem_of_eq indexes inside
    have isNext : (if p.log.isEmpty then logEntry.index else p.nextIndex) = logEntry.index := by
      split
      · rfl
      · rename_i nonempty
        rw [next (by simpa using nonempty), isIndex]
    have loaded : p.appendInitialLoad logEntry.index logEntry.entry =
        .ok ⟨logEntry.index + 1, p.log ++ [logEntry]⟩ := if_neg (not_not.mpr isNext)
    have split : p.log ++ logEntry :: rest = p.log ++ [logEntry] ++ rest := (append_cons ..)
    obtain ⟨after, executed, isLog, follows⟩ := @ih ⟨logEntry.index + 1, p.log ++ [logEntry]⟩
      (split ▸ indexes) (fun _ => by rw [isIndex, length_append]; rfl)
    refine ⟨after, ?_, isLog.trans split.symm, follows⟩
    rw [← executed, Wal.loads, map_cons, StateMachine.executeWal, StateMachine.applyEvent, loaded]
    rfl

/-- **A restart recovers the log.** A machine may stop anywhere in a run whose events lose nothing:
one that starts from its WAL has the same log, with the same next index, and leaves the WAL as it
is. -/
theorem restart_recovers_log {machine : StateMachine} {wal : List LogEntry}
    (run : WalRun SmState.Lossless machine wal) (nonempty : wal ≠ []) (my : InitialParameters)
    (fuel : Nat) (orders : Nat → MapIter) :
    StateMachine.executeWal fuel orders (.initParameters my :: Wal.loads wal) .uninitialized [] =
      some (.loadingPersisted my machine.log, wal) := by
  obtain ⟨same, first, indexes, next⟩ := run.mirrored.mirrors
  rw [← same] at indexes next
  obtain ⟨after, executed, isWal, follows⟩ :=
    @StateMachine.executeWal_loads orders fuel first my wal .empty indexes fun loaded => absurd rfl loaded
  change after.log = wal at isWal
  have recovered : after = machine.log := by
    rw [isWal] at follows
    show Persisted.mk after.nextIndex after.log = ⟨machine.log.nextIndex, machine.log.log⟩
    rw [follows nonempty, next nonempty, isWal, same]
  rw [← recovered, ← isWal]
  exact isWal ▸ executed

/-- Node two is stopped when it has echoed epoch one, and starts again. -/
theorem restart_after_echo : ∃ st wal, WalRun SmState.Lossless (.initialized st) wal ∧
    wal.map LogEntry.entry = FourNodes.joinedLog ∧
    StateMachine.executeWal 10 (fun _ => .inOrder)
      (.initParameters (FourNodes.parameters 2) :: Wal.loads wal) .uninitialized [] =
      some (.loadingPersisted (FourNodes.parameters 2) st.sh.persisted, wal) := by
  obtain ⟨st, wal, run, isLog⟩ := FourNodes.joining_run
  have nonempty : wal ≠ [] := by
    rintro rfl
    exact absurd isLog (by decide)
  exact ⟨st, wal, run, isLog, restart_recovers_log run nonempty ..⟩

end MirBft
