/-
**What the calls of the checkpoint tracker do to it.**

* `Vote`: one message, inside the window or above it, where a node's claim may be ignored;
* `wp_step`, `wp_garbageCollect`, `wp_reinitialize`: the rules for the calls. What holds after a
  call is what the move of the window, the votes of the call and the new buffers keep;
* `SmState.wp_handle_checkpoints`: the tracker is called by checkpoint messages and at the end of a
  state transfer.
-/

import MirBft.Model.StateMachine
import MirBft.Proof.CheckpointQuorum

namespace MirBft

open Proc List

namespace CheckpointTracker

variable {ct after : CheckpointTracker} {source : NodeID} {seqNo : Nat} {value : Option Bytes} {high : Nat}
  {st : CpState} {fuel : Nat}

/-! ### Votes -/

/-- **What a vote does.** -/
inductive Vote (ct : CheckpointTracker) (source : NodeID) (seqNo : Nat) (value : Option Bytes) :
    CheckpointTracker → Prop
  | ignored {high highest} : ct.highWatermark = .ok high → high < seqNo →
      ct.highestCheckpoints.lookup source = some highest → highest ≤ seqNo → Vote ct source seqNo value ct
  | claimed {high cp} : ct.highWatermark = .ok high → high < seqNo →
      (∀ highest, ct.highestCheckpoints.lookup source = some highest → seqNo < highest) →
      (ct.checkpoint seqNo).applyCheckpointMsg ct.myConfig.id source value = .ok cp →
      Vote ct source seqNo value (dropUnreferenced { ct.setCheckpoint seqNo cp with
        highestCheckpoints := ct.highestCheckpoints.insert source seqNo })
  | counted {low high cp} : ct.lowWatermark = .ok low → ct.highWatermark = .ok high → seqNo ≤ high →
      (ct.checkpoint seqNo).applyCheckpointMsg ct.myConfig.id source value = .ok cp →
      Vote ct source seqNo value { ct.setCheckpoint seqNo cp with
        state := if cp.stable = true ∧ low < seqNo then .garbageCollectable else ct.state }

theorem vote_of_apply (applied : ct.applyCheckpointMsg source seqNo value = .ok after) :
    Vote ct source seqNo value after := by
  obtain ⟨high, isHigh, applied⟩ := bind_eq_ok.mp applied
  obtain ⟨low, isLow, applied⟩ := bind_eq_ok.mp applied
  split at applied
  · rename_i late
    cases applied
    obtain ⟨highest, isHighest, le⟩ := (Option.any_eq_true _ _).mp late.2
    exact .ignored isHigh late.1 isHighest (of_decide_eq_true le)
  rename_i notLate
  obtain ⟨cp, voted, applied⟩ := bind_eq_ok.mp applied
  split at applied
  · rename_i above
    cases applied
    refine .claimed isHigh above (fun highest isHighest => ?_) voted
    by_contra notAbove
    exact notLate ⟨above, by rw [isHighest]; exact decide_eq_true (Nat.le_of_not_lt notAbove)⟩
  rename_i inside
  have counted := Vote.counted isLow isHigh (Nat.le_of_not_lt inside) voted
  split at applied
  · rename_i stable
    cases applied
    rwa [if_pos stable] at counted
  · rename_i unstable
    cases applied
    rwa [if_neg unstable] at counted

theorem Vote.same (vote : Vote ct source seqNo value after) :
    after.activeCheckpoints = ct.activeCheckpoints ∧ after.networkConfig = ct.networkConfig := by
  cases vote <;> exact ⟨rfl, rfl⟩

theorem checkpoint_setCheckpoint (cp : CheckpointVotes) (other : Nat) :
    (ct.setCheckpoint seqNo cp).checkpoint other = if other = seqNo then cp else ct.checkpoint other := by
  by_cases same : other = seqNo
  · rw [if_pos same, same, checkpoint, setCheckpoint, AList.lookup_insert]
    rfl
  · rw [if_neg same, checkpoint, setCheckpoint, AList.lookup_insert_ne same]
    rfl

/-- Where the checkpoints of some sequence numbers are dropped, they are new again. -/
theorem lookup_erased (dropped : List Nat) (table : GoMap Nat CheckpointVotes) (other : Nat) :
    (dropped.foldl (fun table seqNo => table.erase seqNo) table).lookup other =
      if other ∈ dropped then none else table.lookup other := by
  induction dropped generalizing table with
  | nil => simp
  | cons next rest ih =>
    rw [foldl_cons, ih]
    by_cases later : other ∈ rest
    · rw [if_pos later, if_pos (mem_cons_of_mem _ later)]
    · rw [if_neg later]
      by_cases same : other = next
      · rw [if_pos (by rw [same]; exact mem_cons_self), same, AList.lookup_erase]
      · rw [if_neg (by simp [same, later]), AList.lookup_erase_ne same]

/-! ### A message -/

/-- **The rule for a message.** One above the window is stored as well. -/
theorem wp_step {P : CheckpointTracker → Prop} {value : Bytes}
    (past : ∀ low, st.ct.lowWatermark = .ok low → seqNo < low → P st.ct)
    (inside : ∀ after high, st.ct.highWatermark = .ok high → seqNo ≤ high →
      Vote st.ct source seqNo (nonNil value) after → P after)
    (above : ∀ buffer after high, st.ct.highWatermark = .ok high → high < seqNo →
      st.ct.msgBuffers.lookup source = some buffer → Vote { st.ct with
        msgBuffers := st.ct.msgBuffers.insert source (buffer.store (.checkpoint seqNo value)) } source seqNo
          (nonNil value) after → P after) :
    wp (step source (.checkpoint seqNo value)) st fun final _ _ => P final.ct := by
  refine wp_get_bind (wp_lift_bind fun applyable filtered => ?_)
  obtain ⟨low, isLow, filtered⟩ := bind_eq_ok.mp filtered
  obtain ⟨high, isHigh, filtered⟩ := bind_eq_ok.mp filtered
  have applies (ct : CheckpointTracker)
    (votes : ∀ after, Vote ct source seqNo (nonNil value) after → P after) :
      wp (applyMsg source (.checkpoint seqNo value)) ⟨ct, st.sh⟩ fun final _ _ => P final.ct := by
    refine wp_get_bind (wp_lift_bind fun after applied => ?_)
    rw [wp_modify]
    exact votes after (vote_of_apply applied)
  split at filtered
  · rename_i isPast
    cases filtered
    rw [wp_pure]
    exact past low isLow isPast
  split at filtered
  · rename_i isAbove
    cases filtered
    simp only
    split
    · exact wp_fail _ _ _
    rename_i buffer isBuffer
    rw [wp_bind]
    refine wp_get_bind (wp_lift_bind fun stored isStored => ?_)
    cases isStored
    rw [wp_modify]
    exact applies _ fun after => above buffer after high isHigh isAbove isBuffer
  · rename_i notAbove
    cases filtered
    exact applies _ fun after => inside after high isHigh (Nat.le_of_not_lt notAbove)

/-! ### Moving the window -/

/-- **The window is filled**, with checkpoints as they are. -/
theorem extend_eq_ok (extended : extend fuel ct = .ok after) : ∃ added table,
    after = { ct with checkpointMap := table, activeCheckpoints := ct.activeCheckpoints ++ added } ∧
      ∀ seqNo, table.lookup seqNo = if seqNo ∈ added then some (ct.checkpoint seqNo) else
        ct.checkpointMap.lookup seqNo := by
  induction fuel generalizing ct with
  | zero =>
    cases extended
    exact ⟨[], after.checkpointMap, by rw [append_nil], fun seqNo => by simp⟩
  | succ fuel ih =>
    unfold extend at extended
    split at extended
    · obtain ⟨high, _, extended⟩ := bind_eq_ok.mp extended
      obtain ⟨added, table, rfl, isTable⟩ := ih extended
      refine ⟨(high + ct.networkConfig.checkpointInterval) :: added, table, ?_, fun seqNo => ?_⟩
      · dsimp only [setCheckpoint]
        rw [append_assoc, singleton_append]
      · rw [isTable]
        change (if _ then some ((ct.setCheckpoint _ _).checkpoint seqNo) else
          AList.lookup seqNo (ct.setCheckpoint _ _).checkpointMap) = _
        rw [checkpoint_setCheckpoint, setCheckpoint]
        by_cases same : seqNo = high + ct.networkConfig.checkpointInterval
        · rw [if_pos same, ← same, AList.lookup_insert, ite_self, if_pos mem_cons_self]
        · rw [if_neg same, AList.lookup_insert_ne same]
          simp only [mem_cons, same, false_or]
    · cases extended
      exact ⟨[], after.checkpointMap, by rw [append_nil], fun seqNo => by simp⟩

/-- The tracker after its window has moved to a stable checkpoint. -/
def Slid (ct : CheckpointTracker) (highestStable : Nat) (moved : CheckpointTracker) : Prop :=
  ct.splitStable.1.getLast? = some highestStable ∧ extend 3 { ct with
    checkpointMap := ct.splitStable.1.dropLast.foldl (fun table seqNo => table.erase seqNo) ct.checkpointMap
    activeCheckpoints := highestStable :: ct.splitStable.2 } = .ok moved

section Collect

variable {I : CheckpointTracker → Prop}

/-- The effect of methods that keep what holds of the tracker. -/
def Preserves (I : CheckpointTracker → Prop) : Effect CpState Action where
  rel before after _ := I before.ct → I after.ct
  refl _ := id
  trans first second := second ∘ first

theorem wp_drainBuffer
    (counts : ∀ ct after source seqNo value high, I ct → ct.highWatermark = .ok high → seqNo ≤ high →
      Vote ct source seqNo value after → I after)
    (rebuffers : ∀ ct msgBuffers, I ct → I { ct with msgBuffers }) (id : NodeID) (st : CpState)
    (holds : I st.ct) : wp (drainBuffer id) st fun final _ _ => I final.ct := by
  refine wp_get_bind ?_
  split
  · exact wp_fail _ _ _
  rename_i buffer _
  rw [wp_bind]
  refine wp_mono (@MsgBuffer.wp_iterateFrom buffer.nodeBuffer buffer.buffer _ (Preserves I) _ _ st
    fun msg member state filtered => ?_) fun mid _ left ⟨kept, _⟩ => ?_
  · cases msg with
    | checkpoint seqNo value =>
      obtain ⟨low, _, filtered⟩ := bind_eq_ok.mp filtered
      obtain ⟨high, isHigh, filtered⟩ := bind_eq_ok.mp filtered
      refine wp_get_bind (wp_lift_bind fun after applied => ?_)
      rw [wp_modify]
      refine fun holds => counts _ _ _ _ _ high holds isHigh ?_ (vote_of_apply applied)
      by_contra above
      split at filtered
      · cases filtered
      · rw [if_pos (Nat.lt_of_not_le above)] at filtered
        cases filtered
    | _ => cases filtered
  · refine wp_get_bind (wp_lift_bind fun ct isStored => ?_)
    cases isStored
    rw [wp_modify]
    exact rebuffers mid.ct _ (kept holds)

/-- **The rule for a garbage collection.** -/
theorem wp_garbageCollect {st : CpState}
    (slides : ∀ highestStable moved, st.ct.Slid highestStable moved → I moved)
    (drains : ∀ id (st : CpState), I st.ct → wp (drainBuffer id) st fun final _ _ => I final.ct)
    (idles : ∀ ct, I ct → I { ct with state := .idle }) :
    wp garbageCollect st fun final _ _ => I final.ct ∧ final.ct.state = .idle := by
  refine wp_get_bind ?_
  split
  · exact wp_fail _ _ _
  rename_i highestStable isStable
  rw [wp_bind]
  refine wp_get_bind (wp_lift_bind fun moved extended => ?_)
  rw [wp_modify, wp_bind]
  refine wp_mono (wp_forEach (fun state _ => I state.ct) (slides highestStable moved ⟨isStable, extended⟩)
    fun id _ state _ => drains id state) fun drained _ _ holds => ?_
  rw [wp_bind]
  refine wp_get_bind (wp_lift_bind fun idle isIdle => ?_)
  cases isIdle
  rw [wp_modify, wp_pure]
  exact ⟨idles _ holds, rfl⟩

end Collect

/-! ### Starting from the log -/

theorem votes_of_mem {cp : CheckpointVotes} {entry : Σ _ : Bytes, List NodeID}
    (member : entry ∈ cp.values.entries) : cp.votes entry.1 = entry.2 := by
  rw [CheckpointVotes.votes, AList.mem_lookup_iff.mpr member]
  rfl

theorem checkpoint_of_mem {entry : Σ _ : Nat, CheckpointVotes} (member : entry ∈ ct.checkpointMap.entries) :
    ct.checkpoint entry.1 = entry.2 := by
  rw [checkpoint, AList.mem_lookup_iff.mpr member]
  rfl

/-- The C-entries of a log. -/
def cEntries (log : List Persistent) : List CEntry :=
  log.filterMap fun entry => match entry with
    | .cEntry entry => some entry
    | _ => none

theorem loadCEntries_eq_ok {log : List Persistent} (loaded : ct.loadCEntries log = .ok after) : ∃ table,
    after = { ct with checkpointMap := table, activeCheckpoints := ct.activeCheckpoints ++
      (cEntries log).map CEntry.seqNo } ∧
      ∀ seqNo, (seqNo ∈ (cEntries log).map CEntry.seqNo → table.lookup seqNo ≠ none) ∧
        (seqNo ∉ (cEntries log).map CEntry.seqNo → table.lookup seqNo = ct.checkpointMap.lookup seqNo) := by
  induction log generalizing ct with
  | nil =>
    cases loaded
    exact ⟨after.checkpointMap, by simp [cEntries], fun seqNo => ⟨nofun, fun _ => rfl⟩⟩
  | cons entry rest ih =>
    cases entry with
    | cEntry entry =>
      obtain ⟨cp, _, loaded⟩ := bind_eq_ok.mp loaded
      obtain ⟨table, rfl, isTable⟩ := ih loaded
      refine ⟨table, ?_, fun seqNo => ?_⟩
      · rw [append_assoc]
        rfl
      change (seqNo ∈ entry.seqNo :: (cEntries rest).map CEntry.seqNo → _) ∧
        (seqNo ∉ entry.seqNo :: (cEntries rest).map CEntry.seqNo → _)
      by_cases later : seqNo ∈ (cEntries rest).map CEntry.seqNo
      · exact ⟨fun _ => (isTable seqNo).1 later, fun absent => absurd (mem_cons_of_mem _ later) absent⟩
      · rw [(isTable seqNo).2 later, setCheckpoint]
        by_cases same : seqNo = entry.seqNo
        · rw [same, AList.lookup_insert]
          exact ⟨fun _ => Option.some_ne_none _, fun absent => absurd mem_cons_self absent⟩
        · simp [same, later]
    | _ => exact ih loaded

/-- **The rule for a start from the log**: the votes of the time before are counted in a loop. -/
theorem wp_reinitialize {I J P : CheckpointTracker → Prop}
    (loads : ∀ nc loaded low, firstConfig st.sh.persisted.entries = some nc →
      ({ new nc st.ct.myConfig with state := st.ct.state } : CheckpointTracker).loadCEntries
        st.sh.persisted.entries = .ok loaded → loaded.lowWatermark = .ok low →
      I { loaded.setCheckpoint low { loaded.checkpoint low with stable := true } with
        msgBuffers := reinitializeBuffers ⟨loaded.myConfig⟩ st.ct.msgBuffers nc.nodes })
    (restores : ∀ (order : MapIter) ct sh, I ct → wp (forEach (fun entry => restoreCheckpoint entry.1 entry.2)
      (order.run st.ct.checkpointMap.entries)) ⟨ct, sh⟩ fun final _ _ => J final.ct)
    (collects : ∀ ct sh, J ct → wp garbageCollect ⟨ct, sh⟩ fun final _ _ => P final.ct) :
    wp CheckpointTracker.reinitialize st fun final _ _ => P final.ct := by
  refine wp_get_bind ?_
  split
  · exact wp_fail _ _ _
  rename_i nc isConfig
  refine wp_lift_bind fun loaded isLoaded => wp_lift_bind fun low isLow => ?_
  rw [wp_bind]
  refine wp_get_bind (wp_lift_bind fun started isStarted => ?_)
  rw [pure_eq_ok] at isStarted
  have holds := loads nc loaded low isConfig isLoaded isLow
  rw [isStarted] at holds
  rw [wp_modify, wp_bind, onShared, wp_zoom]
  intro sh _ order _
  rw [wp_bind]
  refine wp_mono (restores order started sh holds) fun restored _ _ still => ?_
  rw [wp_bind]
  refine wp_mono (collects _ restored.sh still) fun final _ _ done => ?_
  rw [wp_pure]
  exact done

end CheckpointTracker

/-! ### The machine -/

namespace Persisted

variable {p : Persisted} {low : Nat}

theorem truncate_suffix : (p.truncate low).1.entries <:+ p.entries := by
  unfold truncate
  split
  · exact suffix_rfl
  rename_i cut
  split
  · exact suffix_rfl
  · refine List.IsSuffix.map _ ?_
    rw [← cut]
    exact dropWhile_suffix _

theorem mem_of_truncate {entry : Persistent} (member : entry ∈ (p.truncate low).1.entries) :
  entry ∈ p.entries := truncate_suffix.subset member

end Persisted

namespace SmState

/-- The effect of methods that leave the checkpoint tracker alone. -/
def SameCheckpoints : Effect SmState Action where
  rel before after _ := after.checkpointTracker = before.checkpointTracker
  refl _ := rfl
  trans first second := second.trans first

variable {α : Type}

theorem checkpoints_onShared (method : GoProc Shared α) : Has SameCheckpoints (onShared method) := by
  intro st
  rw [onShared, wp_zoom]
  exact fun _ _ _ _ => rfl

theorem checkpoints_onTracker (method : GoProc TrackerState α) :
    Has SameCheckpoints (onTracker method) := by
  intro st
  rw [onTracker, wp_zoom]
  exact fun _ _ _ _ => rfl

theorem checkpoints_onBatches (update : BatchTracker → Go BatchTracker) :
    Has SameCheckpoints (onBatches update) :=
  has_bind has_get fun _ => has_bind (has_lift _) fun _ => checkpoints_onShared _

theorem checkpoints_emit (actions : List Action) :
    Has SameCheckpoints (emit actions : GoProc SmState Unit) := by
  intro st
  rw [wp_emit]
  exact rfl

theorem checkpoints_advance (fuel : Nat) : Has SameCheckpoints (advance fuel) :=
  has_advance (checkpoints_onShared _) (checkpoints_onTracker _) fuel

/-- The log was cut. -/
def Cuts : Effect SmState Action where
  rel before after _ := after.checkpointTracker = before.checkpointTracker ∧
    after.sh.persisted.entries <:+ before.sh.persisted.entries
  refl _ := ⟨rfl, suffix_rfl⟩
  trans first second := ⟨second.1.trans first.1, second.2.trans first.2⟩

theorem cuts_recoverLog (lastCEntry : Option CEntry) (entries : List Persistent) :
    Has Cuts (recoverLog lastCEntry entries) := by
  refine has_recoverLog (fun seqNo st => ?_) _ _
  rw [onShared, wp_zoom]
  refine wp_get_bind (wp_lift_bind fun cut isCut => ?_)
  cases isCut
  simp only [wp_bind, wp_modify, wp_emit]
  exact ⟨rfl, Persisted.truncate_suffix⟩

variable {P : CheckpointTracker → Prop} {st : SmState}

/-- **The tracker starts from the end of the log.** -/
theorem wp_reinitialize_checkpoints
    (restarts : ∀ sh : Shared, sh.persisted.entries <:+ st.sh.persisted.entries →
      wp CheckpointTracker.reinitialize ⟨st.checkpointTracker, sh⟩ fun final _ _ => P final.ct) :
    wp SmState.reinitialize st fun final _ _ => P final.checkpointTracker := by
  refine wp_get_bind ?_
  rw [wp_bind]
  refine wp_mono (cuts_recoverLog none st.sh.persisted.entries st) fun recovered _ _ ⟨same, shorter⟩ => ?_
  rw [wp_bind, onShared, wp_zoom]
  refine wp_get_bind (wp_lift_bind fun _ _ => ?_)
  rw [wp_bind, wp_modify, wp_bind, wp_emit, Shared.onClients, wp_zoom]
  intro _ _ _ _
  rw [wp_bind, onCheckpoints, wp_zoom]
  rw [same]
  refine wp_mono (restarts _ shorter) fun inner _ _ holds => ?_
  have rest : Has SameCheckpoints (do
      let recovered ← Proc.get
      onBatches fun batches => pure (BatchTracker.reinitialize batches recovered.sh.persisted.entries)
      onTracker EpochTracker.reinitialize) :=
    has_bind has_get fun _ => has_bind (checkpoints_onBatches _) fun _ => checkpoints_onTracker _
  refine wp_mono (rest _) fun final _ _ unchanged => ?_
  rw [unchanged]
  exact holds

variable {event : Event}

theorem wp_handle_checkpoints
    (rests : (∀ seqNo value networkState, event ≠ .stateTransferComplete seqNo value networkState) →
      P st.checkpointTracker)
    (steps : ∀ source seqNo value, event = .step source (.checkpoint seqNo value) →
      wp (CheckpointTracker.step source (.checkpoint seqNo value)) ⟨st.checkpointTracker, st.sh⟩
      fun final _ _ =>
        P final.ct)
    (restarts : ∀ seqNo value networkState, event = .stateTransferComplete seqNo value
      networkState → ∀ sh : Shared,
      sh.persisted.entries <:+ st.sh.persisted.entries ++ [.cEntry ⟨seqNo, value, networkState⟩] →
      wp CheckpointTracker.reinitialize ⟨st.checkpointTracker, sh⟩ fun final _ _ => P final.ct) :
    wp (handle event) st fun final _ _ => P final.checkpointTracker := by
  have of_same {method : GoProc SmState Unit}
      (others : ∀ seqNo value networkState, event ≠ .stateTransferComplete seqNo value networkState)
      (same : Has SameCheckpoints method) : wp method st fun final _ _ => P final.checkpointTracker :=
    wp_mono (same st) fun _ _ _ unchanged => by
      rw [unchanged]
      exact rests others
  cases event with
  | tickElapsed => exact of_same nofun (has_bind (checkpoints_onShared _) fun _ => checkpoints_onTracker _)
  | step source msg =>
    show wp (step source msg) st _
    unfold step
    split
    · exact of_same nofun (checkpoints_onShared _)
    · exact of_same nofun (checkpoints_onShared _)
    · exact of_same nofun (checkpoints_onShared _)
    · rw [onCheckpoints, wp_zoom]
      exact steps _ _ _ rfl
    · exact of_same nofun (has_bind has_get fun _ => has_bind (has_lift _) fun _ => checkpoints_emit _)
    · exact of_same nofun (has_bind has_get fun _ => has_bind (has_lift _) fun _ => checkpoints_emit _)
    · exact of_same nofun (checkpoints_onTracker _)
  | hashResult digest origin =>
    refine of_same nofun (has_processHashResult (fun _ _ => checkpoints_onBatches _)
      (fun _ _ => checkpoints_onTracker _)
      (fun _ _ _ => checkpoints_onTracker _) (has_bind has_get fun _ => ?_) origin)
    split
    · exact has_fail _
    · exact has_ite (checkpoints_onTracker _) (has_pure ())
  | checkpointResult seqNo value networkState =>
    exact of_same nofun (has_processCheckpointResult (checkpoints_onShared _))
  | requestPersisted ack => exact of_same nofun (checkpoints_onShared _)
  | stateTransferComplete seqNo value networkState =>
    refine wp_get_bind ?_
    split
    · exact wp_fail _ _ _
    rw [wp_bind, onShared, wp_zoom]
    refine wp_get_bind (wp_lift_bind fun logged isLogged => ?_)
    obtain ⟨isLogged, _⟩ := Persisted.appendLogEntry_eq_ok isLogged
    have entries : logged.1.entries = st.sh.persisted.entries ++ [.cEntry ⟨seqNo, value, networkState⟩] := by
      rw [isLogged, Persisted.entries, map_append]
      rfl
    rw [wp_bind, wp_modify, wp_emit]
    exact wp_reinitialize_checkpoints fun sh shorter => restarts _ _ _ rfl sh (entries ▸ shorter)
  | _ => exact wp_fail _ _ _

theorem wp_applyEvent_checkpoints {I P : CheckpointTracker → Prop} (fuel : Nat)
    (handled : wp (handle event) st fun final _ _ => P final.checkpointTracker)
    (collects : ∀ ct sh, P ct → ct.state = .garbageCollectable →
      wp CheckpointTracker.garbageCollect ⟨ct, sh⟩ fun final _ _ => I final.ct)
    (rests : ∀ ct, P ct → ct.state ≠ .garbageCollectable → I ct) :
    wp (applyEvent fuel event) st fun final _ _ => I final.checkpointTracker := by
  unfold applyEvent
  rw [wp_bind]
  refine wp_mono handled fun mid _ _ holds => ?_
  have ends (mid : SmState) (holds : I mid.checkpointTracker) {method : GoProc SmState Unit}
      (same : Has SameCheckpoints method) : wp method mid fun next _ _ => wp (advance fuel) next
      fun final _ _ =>
        I final.checkpointTracker :=
    wp_mono (same mid) fun next _ _ unchanged => wp_mono (checkpoints_advance fuel next) fun _ _ _ still =>
      still ▸ unchanged ▸ holds
  rw [wp_bind]
  refine wp_get_bind ?_
  split
  · rename_i collectable
    rw [wp_bind, onCheckpoints, wp_zoom]
    refine wp_mono (collects _ _ holds collectable) fun collected _ newLow still => ?_
    exact ends _ still (has_bind (checkpoints_onShared _) fun _ => has_bind (checkpoints_onBatches _) fun _ =>
      checkpoints_onTracker _)
  · rename_i resting
    exact ends mid (rests _ holds resting) (has_pure ())

end SmState

end MirBft
