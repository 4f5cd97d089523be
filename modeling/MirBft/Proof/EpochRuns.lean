/-
**The runs of an active epoch, with the commit state that it serves.**

* `EpochStart`: what an epoch starts from, a commit state that the code has reached and limits at
  whole intervals from its checkpoint. `HasRoom` says that the first window has a sequence number;
* `ServedRun`: after the first `advance`, calls of the epoch's methods in any order, and between
  them what the other components do;
* `RunStep`: what the calls are made of, the steps of the epoch and a few more: an operation that
  allocates nothing, for a hash result or an available request, and the intervals that a stable
  checkpoint drops;
* `RunInv`: in every state of a run the window is well formed, and no call fails with a panic of the
  window (`RunInv.call`).

With that `active_window_runs` says when the window is there and when a stable checkpoint moves its
low watermark.
-/

import MirBft.Proof.RequestTracking

namespace MirBft

open Proc Walk ActiveEpoch List Nat

/-! ### Steps of a run -/

/-- **What the calls of an epoch's methods are made of.** -/
inductive RunStep (heard : NodeID → Msg → Prop) : AeState → AeState → List Action → Prop
  | epoch {st after actions} : EpochStep heard st after actions → RunStep heard st after actions
  | operate {st seqNo s next p actions} {op : SeqOp} : st.ae.heap seqNo = some s → op.Foreign s →
      op.batch? = none →
      op.run st.sh.clients.agreements s st.sh.persisted = .ok ((next, p), actions) →
      RunStep heard st (st.withSequence seqNo next p) actions
  -- Requests have become available.
  | requests {st outstandingReqs clients} : (∀ digest seqNo,
        outstandingReqs.outstandingRequests.lookup digest = some seqNo →
          st.ae.outstandingReqs.outstandingRequests.lookup digest = some seqNo) →
      RunStep heard st ⟨{ st.ae with outstandingReqs }, { st.sh with clients }⟩ []
  -- The low watermark moves up to the checkpoint of the commit state at most.
  | drop {st dropped low} : lowWatermark { st.ae with sequences := st.ae.sequences.drop dropped } = .ok low →
      low ≤ st.sh.commitState.lowWatermark + 1 →
      RunStep heard st ⟨{ st.ae with sequences := st.ae.sequences.drop dropped }, st.sh⟩ []

namespace AeState

/-- No sequence is lost, and none is allocated again: it keeps its batch. -/
def Keeps (st after : AeState) : Prop :=
  ∀ seqNo s, st.ae.heap seqNo = some s → ∃ next, after.ae.heap seqNo = some next ∧
    (s.state ≠ .uninitialized → next.state ≠ .uninitialized ∧ next.batch = s.batch)

theorem Keeps.trans {first second third : AeState} (one : first.Keeps second) (two : second.Keeps third) :
    first.Keeps third := by
  intro seqNo s found
  obtain ⟨mid, isMid, kept⟩ := one seqNo s found
  obtain ⟨last, isLast, keptLast⟩ := two seqNo mid isMid
  refine ⟨last, isLast, fun started => ?_⟩
  obtain ⟨stillStarted, sameBatch⟩ := kept started
  obtain ⟨lastStarted, lastBatch⟩ := keptLast stillStarted
  exact ⟨lastStarted, lastBatch.trans sameBatch⟩

/-- What an epoch waits for, it has a sequence for. -/
def Awaited (st : AeState) : Prop :=
  ∀ digest seqNo, st.ae.outstandingReqs.outstandingRequests.lookup digest = some seqNo →
  ∃ s, st.ae.heap seqNo = some s

/-- **The window of a run**, that started after `start` with a window from `base` on. It is empty
only if there was no room for it. -/
def Placed (start base : Nat) (room : Prop) (st : AeState) : Prop :=
  ∃ low count, base ≤ low ∧ st.Formed start low count ∧ (count = 0 → ¬ room ∧ st.Full)

end AeState

namespace RunStep

variable {heard : NodeID → Msg → Prop} {st after : AeState} {actions : List Action}

/-- **What a step does to the sequences**: one of them performs an operation, or they all stay and
nothing is proposed. -/
theorem heap_cases (aligned : Aligned heard st.ae) (step : RunStep heard st after actions) :
    (∃ seqNo s op agreements p next p' sent, st.ae.heap seqNo = some s ∧ SeqOp.Foreign s op ∧
        op.run agreements s p = .ok ((next, p'), sent) ∧
        after.ae.heap = Function.update st.ae.heap seqNo (some next) ∧
        sentMsgs actions ⊆ sentMsgs sent) ∨
      (∀ seqNo s, st.ae.heap seqNo = some s → after.ae.heap seqNo = some s) ∧
        ∀ seqNo epoch batch, .preprepare seqNo epoch batch ∉ sentMsgs actions := by
  cases step with
  | operate found foreign _ ran => exact .inl ⟨_, _, _, _, _, _, _, _, found, foreign, ran, rfl,
      List.Subset.refl _⟩
  | requests | drop => exact .inr ⟨fun _ _ found => found, fun _ _ _ => not_mem_nil⟩
  | epoch step =>
    cases step with
    | prepare found foreign _ ran =>
      refine .inl ⟨_, _, _, _, _, _, _, _, found, ?_, ran, rfl, List.Subset.refl _⟩
      rintro _ _ ⟨⟩
      exact foreign
    | vote found _ ran =>
      exact .inl ⟨_, _, _, _, _, _, _, _, found, by simp [SeqOp.Foreign], ran, rfl, nil_subset _⟩
    | back _ found _ _ _ _ ran | follow found _ _ _ _ _ _ ran | propose found _ _ ran =>
      exact .inl ⟨_, _, _, _, _, _, _, _, found, by simp [SeqOp.Foreign], ran, rfl, List.Subset.refl _⟩
    | extend isHigh _ _ added isHeap =>
      refine .inr ⟨fun seqNo s found => ?_, fun _ _ _ => ?_⟩
      · refine (isHeap seqNo).trans ((if_neg fun new => ?_).trans found)
        rw [aligned.bounded st.sh _ isHigh seqNo new.1] at found
        cases found
      · rw [(Persisted.append_silent added).1]
        exact not_mem_nil
    | suspect added =>
      refine .inr ⟨fun _ _ found => found, fun _ _ _ member => ?_⟩
      rcases mem_cons.mp member with same | later
      · cases same
      · have none := (Persisted.append_silent added).1
        unfold sentMsgs at none
        rw [none] at later
        exact absurd later not_mem_nil
    | commit | rebuffer | rebufferOther | keep =>
      exact .inr ⟨fun _ _ found => found, fun _ _ _ => not_mem_nil⟩

theorem keeps (aligned : Aligned heard st.ae) (step : RunStep heard st after actions) : st.Keeps after := by
  intro other before found
  rcases step.heap_cases aligned with ⟨seqNo, s, op, _, _, next, _, _, isThere, foreign, ran,
    isHeap, _⟩ | ⟨stays, _⟩
  · rw [isHeap]
    by_cases same : other = seqNo
    · subst same
      rw [isThere, Option.some.injEq] at found
      subst found
      exact ⟨next, Function.update_self _ _ _, SeqOp.run_keeps_batch foreign ran⟩
    · exact ⟨before, (Function.update_of_ne same _ _).trans found, fun started => ⟨started, rfl⟩⟩
  · exact ⟨before, stays other before found, fun started => ⟨started, rfl⟩⟩

theorem proposes (aligned : Aligned heard st.ae) (step : RunStep heard st after actions) {seqNo epoch : Nat}
    {batch : List RequestAck} (proposed : .preprepare seqNo epoch batch ∈ sentMsgs actions) :
    ¬ after.Fresh seqNo := by
  rcases step.heap_cases aligned with ⟨other, s, op, _, _, next, _, _, isThere, foreign, ran,
    isHeap, isSent⟩ | ⟨_, none⟩
  · obtain ⟨high, ⟨_, isMsg⟩ | ⟨_, isMsg⟩ | isMsg⟩ := SeqOp.run_sends foreign ran (isSent proposed)
    · obtain ⟨isSeqNo, _⟩ := Msg.preprepare.inj isMsg
      obtain rfl : seqNo = other := isSeqNo.trans (aligned.identity other s isThere).1
      intro fresh
      rw [fresh next (by rw [isHeap, Function.update_self])] at high
      exact absurd high (by decide)
    · cases isMsg
    · cases isMsg
  · exact absurd proposed (none seqNo epoch batch)

theorem awaited (aligned : Aligned heard st.ae) (awaited : st.Awaited)
    (step : RunStep heard st after actions) :
    after.Awaited := by
  intro digest seqNo isFound
  have earlier : ∃ s, st.ae.heap seqNo = some s := by
    cases step with
    | requests fewer => exact awaited digest seqNo (fewer digest seqNo isFound)
    | epoch step =>
      cases step with
      | follow found _ _ _ _ _ applied _ =>
        rcases (AllOutstandingReqs.applyAcksFrom_waits
          (AllOutstandingReqs.applyAcks_eq_ok applied)).2 digest seqNo isFound with ⟨rfl, _⟩ | earlier
        · exact ⟨_, found⟩
        · exact awaited digest seqNo earlier
      | _ => exact awaited digest seqNo isFound
    | _ => exact awaited digest seqNo isFound
  obtain ⟨s, found⟩ := earlier
  obtain ⟨next, isNext, _⟩ := step.keeps aligned seqNo s found
  exact ⟨next, isNext⟩

theorem awaited_steps (aligned : Aligned heard st.ae) (awaited : st.Awaited)
    (steps : Steps (EpochStep heard) st after actions) : after.Awaited := by
  induction steps with
  | refl => exact awaited
  | cons step _ ih => exact ih (step.aligned aligned) (RunStep.awaited aligned awaited (.epoch step))

theorem aligned (aligned : Aligned heard st.ae) (step : RunStep heard st after actions) :
    Aligned heard after.ae := by
  cases step with
  | epoch step => exact step.aligned aligned
  | operate found foreign _ ran => exact aligned.operate found foreign ran
  | requests => exact { aligned with }
  | drop isLow _ =>
    refine aligned.shrink (fun none => ?_) (drop_suffix _ _)
    rw [none] at isLow
    cases isLow

/-- **A step keeps the window**, and an empty one was empty before. -/
theorem formed {start low count : Nat} (aligned : Aligned heard st.ae) (formed : st.Formed start low count)
    (step : RunStep heard st after actions) : ∃ higher wider, low ≤ higher ∧ after.Formed start higher wider ∧
      (wider = 0 → count = 0 ∧ (st.Full → after.Full)) := by
  cases step with
  | epoch step =>
    obtain ⟨wider, atLeast, stillFormed⟩ := step.formed aligned formed
    exact ⟨low, wider, le_refl _, stillFormed, fun none => ⟨le_zero.mp (none ▸ atLeast), step.full⟩⟩
  | operate found foreign unallocated ran =>
    exact ⟨low, count, le_refl _, formed.operate aligned found foreign unallocated ran, fun none =>
      ⟨none, fun full => full⟩⟩
  | requests => exact ⟨low, count, le_refl _, { formed with }, fun none => ⟨none, fun full => full⟩⟩
  | @drop dropped lowest isLow reached =>
    have isBlocks := blocks_drop low st.ae.interval count dropped
    rw [← formed.sequences] at isBlocks
    obtain ⟨left, rfl⟩ := (lowWatermark_blocks isBlocks formed.ci).mp isLow
    exact ⟨_, _, le_add_right _ _, formed.drop aligned (by omega) reached, fun none => absurd none left.ne'⟩

theorem placed {start base : Nat} {room : Prop} (aligned : Aligned heard st.ae)
    (placed : st.Placed start base room)
    (step : RunStep heard st after actions) : after.Placed start base room := by
  obtain ⟨low, count, isBase, formed, isEmpty⟩ := placed
  obtain ⟨higher, wider, atLeast, stillFormed, wasEmpty⟩ := step.formed aligned formed
  refine ⟨higher, wider, isBase.trans atLeast, stillFormed, fun none => ?_⟩
  obtain ⟨noRoom, full⟩ := isEmpty (wasEmpty none).1
  exact ⟨noRoom, (wasEmpty none).2 full⟩

end RunStep

/-! ### Calls -/

/-- What a call of a run may fail with: none of the panics of the window, but that a window for
which there was no room has no low watermark. -/
def Spared (room : Prop) (failure : String) : Prop :=
  failure ∈ windowFailures → ¬ room ∧ failure = "index out of range: sequences"

variable {st : AeState}

theorem Spared.of_excuses {start base : Nat} {room : Prop} {failure : String}
    (placed : st.Placed start base room) (excused : st.Excuses 1 failure) : Spared room failure := by
  intro member
  obtain ⟨low, count, _, formed, isEmpty⟩ := placed
  obtain ⟨few, isLow⟩ := excused start low count formed member
  exact ⟨(isEmpty (lt_one_iff.mp few)).1, isLow⟩

/-- **A run of an epoch** as a transition system. -/
def runWalk (heard : NodeID → Msg → Prop) (start base : Nat) (room : Prop) : Walk String Action AeState where
  step := RunStep heard
  good st := Aligned heard st.ae ∧ st.Awaited ∧ st.Placed start base room
  excused _ := Spared room
  good_step good step := ⟨step.aligned good.1, step.awaited good.1 good.2.1, step.placed good.1 good.2.2⟩
  excused_step _ _ excused := excused

namespace ActiveEpoch

variable {heard : NodeID → Msg → Prop} {start base : Nat} {room : Prop}

theorem does_of_epoch {α : Type} {m : GoProc AeState α} {st : AeState} {post : AeState → α → Prop}
    (does : (epochWalk heard 1).Does m st post) : (runWalk heard start base room).Does m st post :=
  does_within does (fun good => good.1) .epoch fun good _ excused => .of_excuses good.2.2 excused

theorem does_applyBatchHashResult (seqNo : Nat) (digest : Bytes) (st : AeState) :
    (runWalk heard start base room).Does (applyBatchHashResult seqNo digest) st fun _ _ => True := by
  intro good
  refine safe_mono (safe_weaken (safe_applyBatchHashResult seqNo digest st) fun _ excused =>
    .of_excuses good.2.2 excused) ?_
  rintro final actions _ (⟨rfl, rfl⟩ | ⟨s, next, p, found, ran, rfl⟩)
  · exact ⟨.refl _, trivial⟩
  · exact ⟨.single (.operate found (by simp [SeqOp.Foreign]) rfl ran), trivial⟩

theorem does_advanceRequest (ack : RequestAck) (st : AeState) :
    (runWalk heard start base room).Does (advanceRequest ack) st fun _ _ => True := by
  refine does_get_bind ?_
  split
  · exact does_single fun _ => safe_modify ⟨.requests fun _ _ found => found, trivial⟩
  rename_i seqNo isAwaited
  split
  · rename_i none
    refine does_fail fun good => ?_
    obtain ⟨s, found⟩ := good.2.1 _ _ isAwaited
    exact nomatch found.symm.trans none
  rename_i s found
  have fails (agreements : RequestAck → Finset NodeID) (p : Persisted) :
      FailsOnly (Spared room) (s.satisfyOutstanding agreements p ack) := by
    refine .ite (fun _ => .throw fun member => absurd member (by simp [windowFailures])) fun _ => ?_
    refine (Sequence.advanceState_failsOnly _ p).mono fun failure isTail member => absurd member ?_
    rw [isTail]
    simp [windowFailures]
  have erased : (runWalk heard start base room).Does (assign fun ae => { ae with
      outstandingReqs := { ae.outstandingReqs with
        outstandingRequests := ae.outstandingReqs.outstandingRequests.erase ack.digest } }) st
      fun mid _ => mid.ae.heap seqNo = some s := by
    refine does_single fun _ => safe_modify ⟨.requests fun digest other isFound => ?_, found⟩
    by_cases same : digest = ack.digest
    · subst same
      rw [AList.lookup_erase] at isFound
      cases isFound
    · rwa [AList.lookup_erase_ne same] at isFound
  refine does_bind erased fun mid _ _ isThere => does_single fun _ =>
    safe_onObject (fails _ _) fun next p actions ran => ⟨?_, trivial⟩
  have isOp : (SeqOp.satisfyOutstanding ack).run mid.sh.clients.agreements s mid.sh.persisted =
    .ok ((next, p), actions) := ran
  exact .operate isThere (by simp [SeqOp.Foreign]) rfl isOp

theorem does_advanceRequests (st : AeState) :
    (runWalk heard start base room).Does advanceRequests st fun _ _ => True := by
  have consumed (clients : Clients) : (runWalk heard start base room).Does
      (onShared (Proc.modify fun sh => { sh with clients })) st fun _ _ => True :=
    does_single fun _ => safe_zoom (safe_modify ⟨.requests fun _ _ found => found, trivial⟩)
  exact does_get_bind (does_bind (consumed _) fun _ _ _ _ =>
    does_forEach (fun _ => True) trivial fun ack _ mid _ _ => does_advanceRequest ack mid)

/-! ### The low watermark -/

/-- **What `moveLowWatermark` drops**: the intervals that begin before the sequence number. -/
theorem dropIntervals_blocks {ci : Nat} (seqNo : Nat) (positive : 0 < ci) (count low : Nat)
    (within : ∃ index < count, seqNo ≤ low + index * ci) : ∃ dropped < count,
      dropIntervals seqNo (blocks low ci count) = .ok ((blocks low ci count).drop dropped) ∧
        seqNo ≤ low + dropped * ci ∧ ∀ earlier < dropped, low + earlier * ci < seqNo := by
  induction count generalizing low with
  | zero =>
    obtain ⟨_, few, _⟩ := within
    exact absurd few (Nat.not_lt_zero _)
  | succ count ih =>
    obtain ⟨size, rfl⟩ := Nat.exists_eq_add_of_lt positive
    have unfolded : dropIntervals seqNo (blocks low (0 + size + 1) (count + 1)) = if seqNo > low then
        dropIntervals seqNo (blocks (low + (0 + size + 1)) (0 + size + 1) count) else
          pure (blocks low (0 + size + 1) (count + 1)) := by
      rw [blocks_cons, range_succ_eq_map]
      rfl
    rw [unfolded]
    by_cases passed : seqNo > low
    · obtain ⟨index, few, isWithin⟩ := within
      obtain ⟨rest, rfl⟩ : ∃ rest, index = rest + 1 := exists_eq_succ_of_ne_zero (by rintro rfl; omega)
      obtain ⟨dropped, fewer, isDropped, reached, begins⟩ :=
        ih (low + (0 + size + 1)) ⟨rest, by omega, by rw [succ_mul] at isWithin; omega⟩
      refine ⟨dropped + 1, by omega, ?_, by rw [succ_mul]; omega, fun earlier few => ?_⟩
      · rw [if_pos passed, isDropped, blocks_cons, drop_succ_cons]
      · cases earlier with
        | zero => omega
        | succ earlier =>
          have := begins earlier (by omega)
          rw [succ_mul]
          omega
    · exact ⟨0, succ_pos _, by rw [if_neg passed]; rfl, by omega, nofun⟩

end ActiveEpoch

/-- **A stable checkpoint** below the limits drops intervals of a full window up to its own, and
leaves one. The window then begins after the checkpoint if it did not begin later, and its intervals
have two sequence numbers. -/
theorem AeState.Formed.dropIntervals {start low count seqNo intervals : Nat}
    (formed : st.Formed start low count) (full : st.Full) (some : 0 < count)
    (checkpoint : seqNo + intervals * st.ae.interval = st.sh.commitState.lowWatermark)
    (unplanned : seqNo ≠ st.ae.epochConfig.plannedExpiration)
    (going : seqNo ≠ st.sh.commitState.stopAtSeqNo) :
    ∃ dropped < count, dropIntervals seqNo st.ae.sequences = .ok (st.ae.sequences.drop dropped) ∧
      low + dropped * st.ae.interval ≤ st.sh.commitState.lowWatermark + 1 ∧
      (low + dropped * st.ae.interval = seqNo + 1 ↔
        low ≤ seqNo + 1 ∧ (2 ≤ st.ae.interval ∨ low = seqNo + 1)) := by
  have positive := formed.ci
  have isMin := formed.high_eq_min full
  rw [formed.highWatermark, Except.ok.injEq] at isMin
  have committed := formed.commitState.low.trans formed.commitState.applied
  have below := formed.commitState.highest
  have inside := formed.inside
  have isNext := formed.uncommitted
  obtain ⟨later, isLow⟩ := formed.checkpoint
  rw [formed.sequences]
  generalize st.ae.interval = ci at *
  have isAligned : seqNo + 1 < low ∨ ∃ length, seqNo + 1 = low + length * ci := by
    by_cases few : intervals ≤ later
    · refine .inr ⟨later - intervals, ?_⟩
      rw [Nat.sub_mul]
      have := mul_le_mul_right ci few
      omega
    · have := Nat.mul_le_mul_right ci (Nat.succ_le_of_lt (Nat.lt_of_not_le few))
      rw [succ_mul] at this
      exact .inl (by omega)
  rcases isAligned with early | ⟨length, isLength⟩
  · obtain ⟨dropped, few, isDropped, _, begins⟩ :=
      dropIntervals_blocks seqNo positive count low ⟨0, some, by omega⟩
    obtain rfl : dropped = 0 := by
      refine Nat.eq_zero_of_not_pos fun any => ?_
      have := begins 0 any
      omega
    refine ⟨0, few, isDropped, ?_⟩
    exact ⟨by omega, iff_of_false (by omega) (by omega)⟩
  · have short : length < count := by
      refine Nat.lt_of_mul_lt_mul_right (?_ : length * ci < count * ci)
      omega
    obtain ⟨dropped, few, isDropped, reached, begins⟩ :=
      dropIntervals_blocks seqNo positive count low ⟨length, short, by omega⟩
    have atMost : dropped ≤ length := by
      refine Nat.le_of_not_lt fun more => ?_
      have := begins length more
      omega
    have upTo := Nat.mul_le_mul_right ci atMost
    refine ⟨dropped, few, isDropped, by omega, ?_⟩
    have same : low + dropped * ci = seqNo + 1 ↔ dropped = length := by
      rw [isLength, add_left_cancel_iff]
      exact Nat.mul_left_inj positive.ne'
    rw [same]
    constructor
    · rintro rfl
      refine ⟨by omega, ?_⟩
      by_cases any : 0 < dropped
      · obtain ⟨earlier, rfl⟩ := Nat.exists_eq_add_of_lt any
        have := begins (0 + earlier) (Nat.lt_succ_self _)
        rw [succ_mul] at isLength
        exact .inl (by omega)
      · rw [Nat.eq_zero_of_not_pos any] at isLength
        exact .inr (by omega)
    · rintro ⟨_, two | exact⟩
      · refine Nat.le_antisymm atMost (Nat.le_of_not_lt fun fewer => ?_)
        have := Nat.mul_le_mul_right ci (Nat.succ_le_of_lt fewer)
        rw [succ_mul] at this
        omega
      · omega

namespace ActiveEpoch

variable {heard : NodeID → Msg → Prop} {start base : Nat} {room : Prop} {st : AeState} {low count : Nat}

theorem does_advance_formed (formed : st.Formed start low count) :
    (epochWalk heard 1).Does advance st fun final _ => final.Full ∧ st.ae.Frame final.ae ∧
      final.sh.commitState.lowWatermark = st.sh.commitState.lowWatermark ∧
      final.sh.commitState.stopAtSeqNo = st.sh.commitState.stopAtSeqNo ∧
      ∃ wider, count ≤ wider ∧ final.Formed start low wider := by
  intro aligned
  refine safe_mono (does_advance st aligned) ?_
  rintro final actions _ ⟨steps, isFull⟩
  obtain ⟨frame, low, stop⟩ := EpochStep.limits steps
  exact ⟨steps, isFull formed.ci, frame, low, stop, EpochStep.formed_steps aligned formed steps⟩

/-- Where advancing opens a window, it does not fail with a panic of the window. -/
theorem advance_failsOnly (aligned : Aligned heard st.ae) (formed : st.Formed start low count)
    (opens : ∀ mid actions wider, Steps (EpochStep heard) st mid actions → mid.Full →
      mid.Formed start low wider → 0 < wider) : FailsOnly (· ∉ windowFailures) (advance st) := by
  refine (?_ : safe (· ∉ windowFailures) advance st fun _ _ _ => True).1
  refine safe_get_bind (safe_lift_bind (.of_ok formed.highWatermark) fun high isHigh =>
    safe_ite (fun beyond => absurd (formed.high_le isHigh).1 (not_le.mpr beyond)) fun _ =>
      safe_ite (fun beyond => absurd (formed.high_le isHigh).2 (not_le.mpr beyond)) fun _ => ?_)
  have extended := does_frame (@does_extendWindow heard 0 (st.sh.commitState.stopAtSeqNo - high) st) aligned
  refine safe_bind (safe_mono (safe_weaken extended fun failure excused member => ?_) ?_)
  · exact absurd (excused _ _ _ formed member).1 (not_lt_zero _)
  rintro mid _ _ ⟨steps, frame, isFull⟩
  obtain ⟨wider, _, midFormed⟩ := EpochStep.formed_steps aligned formed steps
  have some := opens mid _ wider steps (isFull formed.ci high isHigh (le_refl _)) midFormed
  have midAligned : Aligned heard mid.ae := good_steps aligned steps
  refine safe_mono (safe_weaken (walks_settle _ frame.bucketCount midAligned)
    fun failure excused member => ?_)
    fun _ _ _ _ => trivial
  exact absurd (excused _ _ _ midFormed member).1 (by omega)

/-- **A stable checkpoint** moves the low watermark up behind it, unless the window begins later or
its intervals have one sequence number each. -/
theorem does_moveLowWatermark {seqNo intervals : Nat}
    (checkpoint : seqNo + intervals * st.ae.interval = st.sh.commitState.lowWatermark) :
    (runWalk heard start base room).Does (moveLowWatermark seqNo) st fun final ended => ended = false →
      ∀ low, st.ae.lowWatermark = .ok low → (final.ae.lowWatermark = .ok (seqNo + 1) ↔
        low ≤ seqNo + 1 ∧ (2 ≤ st.ae.interval ∨ low = seqNo + 1)) := by
  refine does_get_bind (does_ite (fun _ => does_pure nofun) fun unplanned =>
    does_ite (fun _ => does_pure nofun) fun going => ?_)
  intro good
  obtain ⟨low, count, _, formed, _⟩ := good.2.2
  refine does_bind (does_of_epoch (does_advance_formed formed)) (fun mid _ midGood advanced => ?_) good
  obtain ⟨full, frame, sameLow, sameStop, wider, _, midFormed⟩ := advanced
  rw [← frame.interval, ← sameLow] at checkpoint
  rw [← frame.epochConfig] at unplanned
  rw [← sameStop] at going
  have drops (some : 0 < wider) := midFormed.dropIntervals full some checkpoint unplanned going
  refine does_get_bind (does_lift_bind (fun _ => ?_) fun sequences isDropped => ?_)
  · rcases Nat.eq_zero_or_pos wider with none | some
    · intro failure failed _
      rw [midFormed.sequences, none] at failed
      cases failed
      obtain ⟨_, other, _, sameFormed, isEmpty⟩ := midGood.2.2
      have nothing := sameFormed.sequences.symm.trans (midFormed.sequences.trans (blocks_eq_nil.mpr none))
      exact ⟨(isEmpty (blocks_eq_nil.mp nothing)).1, rfl⟩
    · obtain ⟨_, _, isDropped, _⟩ := drops some
      exact .of_ok isDropped
  · have some : 0 < wider := by
      refine pos_of_ne_zero fun none => ?_
      rw [midFormed.sequences, none] at isDropped
      cases isDropped
    obtain ⟨dropped, few, same, reached, moved⟩ := drops some
    obtain rfl := Except.ok.inj (same.symm.trans isDropped)
    have isBlocks := blocks_drop low mid.ae.interval wider dropped
    rw [← midFormed.sequences] at isBlocks
    have isLow (lowest : Nat) := @lowWatermark_blocks
      { mid.ae with sequences := mid.ae.sequences.drop dropped } _ _ _ lowest isBlocks midFormed.ci
    have left := Nat.sub_pos_of_lt few
    have assigned : (runWalk heard start base room).Does
        (assign fun ae => { ae with sequences := mid.ae.sequences.drop dropped }) mid fun final _ =>
          final.ae = { mid.ae with sequences := mid.ae.sequences.drop dropped } :=
      does_single fun _ => safe_modify ⟨.drop ((isLow _).mpr ⟨left, rfl⟩) reached, rfl⟩
    refine does_bind assigned fun final _ _ isFinal => does_pure fun _ lowest isLowest => ?_
    obtain ⟨_, rfl⟩ := formed.nonempty isLowest
    rw [isFinal, isLow, and_iff_right left, moved, frame.interval]

end ActiveEpoch

namespace EpochCall

/-- **When a call comes**: with a message that is admitted, or with a stable checkpoint that the
commit state has reached. -/
def Timely (admits : EpochReplica → NodeID → Msg → Prop) (replica : EpochReplica) : EpochCall → Prop
  | .step source msg => admits replica source msg
  | .moveLowWatermark seqNo => seqNo ≤ replica.st.sh.commitState.lowWatermark ∧
      replica.st.ae.interval ∣ replica.st.sh.commitState.lowWatermark - seqNo
  | _ => True

variable {admits : EpochReplica → NodeID → Msg → Prop} {replica : EpochReplica}

theorem Timely.checkpoint {seqNo : Nat}
    (timely : Timely admits replica (.moveLowWatermark seqNo)) : ∃ intervals,
      seqNo + intervals * replica.st.ae.interval = replica.st.sh.commitState.lowWatermark := by
  obtain ⟨below, intervals, isAligned⟩ := timely
  exact ⟨intervals, by rw [Nat.mul_comm, ← isAligned, Nat.add_sub_cancel' below]⟩

/-- **Every call is made of steps.** -/
theorem does {heard : NodeID → Msg → Prop}
    {start base : Nat} {room : Prop} (hash : Bytes → Bytes) (call : EpochCall)
    (timely : call.Timely admits replica)
    (isHeard : ∀ entry ∈ call.delivers, heard entry.1 entry.2) :
    (runWalk heard start base room).Does (call.run hash) replica.st fun _ _ => True := by
  cases call with
  | step source msg =>
    exact does_of_epoch (walks_step (isHeard (source, msg) mem_cons_self) _)
  | hashResult data origin =>
    cases origin with
    | batch => exact does_applyBatchHashResult _ _ _
    | _ => exact does_pure trivial
  | tick => exact does_of_epoch (walks_tick _)
  | advance =>
    exact does_of_epoch (does_mono (does_advance _) fun _ _ _ _ => trivial)
  | advanceRequests => exact does_advanceRequests _
  | drainBuffers => exact does_of_epoch (walks_drainBuffers _)
  | moveLowWatermark seqNo =>
    obtain ⟨intervals, checkpoint⟩ := timely.checkpoint
    exact does_bind (does_moveLowWatermark checkpoint) fun _ _ _ _ => does_pure trivial

end EpochCall

/-! ### Runs -/

/-- **The runs of an epoch**, from its creation: it advances, and then its methods are called.
Between the calls the components that it shares may change, the commit state as other components
change it. -/
inductive ServedRun (admits : EpochReplica → NodeID → Msg → Prop) (first : AeState) : EpochReplica → Prop
  | start {st actions} : advance first = .ok (st, actions, ()) →
      ServedRun admits first ⟨st, [], sentMsgs actions, hashRequests actions⟩
  | call {replica call hash st actions} : ServedRun admits first replica →
      EpochCall.Timely admits replica call →
      call.run hash replica.st = .ok (st, actions, ()) → ServedRun admits first
      (call.after replica st actions)
  | others {replica sh} : ServedRun admits first replica →
      CommitState.Serves replica.st.sh.commitState sh.commitState →
      ServedRun admits first { replica with st := { replica.st with sh } }

/-- **The invariant of a run.** -/
abbrev RunInv (start base : Nat) (room : Prop) (replica : EpochReplica) : Prop :=
  (runWalk (fun source msg => (source, msg) ∈ replica.received) start base room).good replica.st

section Invariant

variable {admits : EpochReplica → NodeID → Msg → Prop} {start base : Nat} {room : Prop}
  {replica : EpochReplica}

theorem RunInv.call (inv : RunInv start base room replica) {call : EpochCall}
    (timely : call.Timely admits replica)
    (hash : Bytes → Bytes) : safe (Spared room) (call.run hash) replica.st fun st actions _ =>
      Steps (RunStep fun source msg => (source, msg) ∈
        (call.after replica st actions).received) replica.st st actions ∧
        RunInv start base room (call.after replica st actions) := by
  have heard : (runWalk (fun source msg => (source, msg) ∈ replica.received ++ call.delivers) start
    base room).good
      replica.st :=
    ⟨inv.1.mono fun _ _ earlier => mem_append_left _ earlier, inv.2⟩
  refine safe_mono (call.does hash timely (fun _ member => mem_append_right _ member) heard) ?_
  rintro st actions _ ⟨steps, _⟩
  exact ⟨steps, good_steps heard steps⟩

/-- **What other components do** keeps the window. -/
theorem AeState.Placed.serve {st : AeState} {sh : Shared} (placed : st.Placed start base room)
    (served : CommitState.Serves st.sh.commitState sh.commitState) :
    Placed start base room ⟨st.ae, sh⟩ := by
  obtain ⟨low, count, isBase, formed, isEmpty⟩ := placed
  obtain ⟨sound, highest, sameInterval, marks⟩ := served.sound formed.commitState
  have interval := formed.interval
  have positive := formed.ci
  -- Without a window nothing commits, and there is no further checkpoint.
  have stays (none : count = 0) : sh.commitState.lowWatermark = st.sh.commitState.lowWatermark ∧
      sh.commitState.stopAtSeqNo = st.sh.commitState.stopAtSeqNo := by
    have full := (isEmpty none).2 _ formed.highWatermark
    have isLow := formed.unextended none
    have := formed.inside
    have := formed.uncommitted
    have := formed.commitState.applied
    have := formed.commitState.highest
    rw [none] at full
    omega
  refine ⟨low, count, isBase, { formed with
    unextended := fun none => (formed.unextended none).trans (congrArg (· + 1) (stays none).1.symm)
    stop := ?_, checkpoint := ?_
    commitState := sound
    interval := sameInterval.trans interval
    uncommitted := formed.uncommitted.trans (congrArg (· + 1) highest.symm) }, fun none =>
      ⟨(isEmpty none).1, ?_⟩⟩
  · obtain ⟨more, isStop⟩ := formed.stop
    rcases marks with ⟨_, same⟩ | ⟨_, next, further⟩
    · exact ⟨more, same ▸ isStop⟩
    · obtain ⟨intervals, isLow⟩ := formed.checkpoint
      obtain ⟨rest, _, isFurther⟩ := sound.stop
      rw [sameInterval, interval] at isFurther
      have total : sh.commitState.stopAtSeqNo + 1 =
          low + (intervals + 1 + rest) * st.ae.interval := by
        rw [add_mul, succ_mul]
        omega
      have enough : count ≤ intervals + 1 + rest := by
        refine le_of_mul_le_mul_right ?_ positive
        rw [Nat.add_mul] at isStop
        omega
      exact ⟨intervals + 1 + rest - count, by rw [Nat.add_sub_cancel' enough]; exact total⟩
  · obtain ⟨intervals, isLow⟩ := formed.checkpoint
    rcases marks with ⟨same, _⟩ | ⟨_, next, _⟩
    · exact ⟨intervals, same ▸ isLow⟩
    · refine ⟨intervals + 1, ?_⟩
      show sh.commitState.lowWatermark + 1 = low + (intervals + 1) * st.ae.interval
      rw [succ_mul]
      omega
  · intro high isHigh
    unfold highWatermark at isHigh
    rw [(stays none).1] at isHigh
    rw [(stays none).2]
    exact (isEmpty none).2 high isHigh

end Invariant

/-! ### The start -/

/-- **What an epoch starts from**: a commit state of the code, nothing of which lies beyond the
planned expiration. The expiration is at a whole interval from the checkpoint. -/
structure EpochStart (config : EpochConfig) (sh : Shared) : Prop where
  interval : 0 < sh.commitState.checkpointInterval
  buckets : 0 < sh.commitState.activeState.config.numberOfBuckets
  reached : sh.commitState.Arisen
  inside : sh.commitState.highestCommit ≤ config.plannedExpiration
  planned : sh.commitState.checkpointInterval ∣ config.plannedExpiration - sh.commitState.lowWatermark

/-- There is a sequence number after the checkpoint and below the limits. -/
def HasRoom (config : EpochConfig) (sh : Shared) : Prop :=
  sh.commitState.lowWatermark < config.plannedExpiration ∧
    sh.commitState.lowWatermark < sh.commitState.stopAtSeqNo

namespace EpochStart

variable {heard : NodeID → Msg → Prop} {config : EpochConfig} {sh shared : Shared} {created : List Action}
  {ae : ActiveEpoch}

theorem formed (starts : EpochStart config sh) (fresh : Fresh heard config sh shared created ae) :
    AeState.Formed ⟨ae, shared⟩ sh.commitState.highestCommit (sh.commitState.lowWatermark + 1) 0 := by
  have sound := starts.reached.sound
  have committed := sound.low.trans sound.applied
  have isInterval : ae.interval = sh.commitState.checkpointInterval := by
    rw [ActiveEpoch.interval, fresh.networkConfig]
    rfl
  have first {bucket next : Nat} (isNext : ae.lowestUnallocated[bucket]? = some next) := by
    rw [fresh.lowestUnallocated] at isNext
    exact firstUnallocated_first isNext
  have isFresh (seqNo : Nat) : AeState.Fresh ⟨ae, shared⟩ seqNo := by
    intro s found
    rw [show ae.heap seqNo = none from fresh.heap seqNo] at found
    cases found
  have length : ae.lowestUnallocated.length = ae.bucketCount := by
    rw [fresh.lowestUnallocated, length_firstUnallocated]
  refine {
    ci := isInterval ▸ starts.interval
    buckets := by rw [bucketCount, fresh.networkConfig]; exact starts.buckets
    unallocated := length
    buffers := by rw [← length, ← fresh.nextSeqNos, length_map]
    sequences := fresh.sequences
    unextended := fun _ => by rw [fresh.commitState]
    present := fun seqNo above below => by omega
    planned := ?_, stop := ?_
    checkpoint := ⟨0, by rw [fresh.commitState, Nat.zero_mul]⟩
    commitState := by rw [fresh.commitState]; exact sound
    interval := by rw [fresh.commitState, isInterval]
    uncommitted := by rw [fresh.commitState]; exact fresh.lowestUncommitted
    inside := ?_
    committed := fun seqNo _ later below => ?_
    cursor := fun bucket next isNext => ?_
    foreign := fun bucket next buffer isNext isBuffer _ => ?_
    entries := fun seqNo s _ found => by
      rw [show ae.heap seqNo = none from fresh.heap seqNo] at found
      cases found }
  · obtain ⟨intervals, isPlanned⟩ := starts.planned
    have := starts.inside
    refine ⟨intervals, ?_⟩
    rw [fresh.epochConfig, isInterval, zero_add, mul_comm]
    omega
  · obtain ⟨intervals, _, isStop⟩ := sound.stop
    refine ⟨intervals, ?_⟩
    rw [fresh.commitState, isInterval, zero_add]
    omega
  · rw [fresh.lowestUncommitted, fresh.epochConfig]
    exact succ_le_succ starts.inside
  · rw [fresh.lowestUncommitted] at below
    omega
  · obtain ⟨isBucket, later, below⟩ := first isNext
    refine ⟨by omega, later, fun seqNo above isLater sameBucket => iff_of_true ?_ (isFresh seqNo)⟩
    -- Two sequence numbers of a bucket are a round of the buckets apart.
    refine Nat.le_of_not_lt fun earlier => ?_
    have round : ae.networkConfig.numberOfBuckets ∣ next - seqNo :=
      Nat.dvd_of_mod_eq_zero (Nat.sub_mod_eq_zero_of_mod_eq (isBucket.trans sameBucket.symm))
    have := le_of_dvd (by omega) round
    omega
  · rw [← fresh.nextSeqNos, List.getElem?_map, isBuffer] at isNext
    exact Option.some.inj isNext

/-- **The first window**: it is there exactly if there is room for it. -/
theorem opens (starts : EpochStart config sh) (made : new config sh = .ok (shared, created, ae)) :
    safe (Spared (HasRoom config sh)) advance ⟨ae, shared⟩ fun st actions _ =>
      RunInv sh.commitState.highestCommit (sh.commitState.lowWatermark + 1) (HasRoom config sh)
        ⟨st, [], sentMsgs actions, hashRequests actions⟩ ∧ st.Full ∧
        (st.ae.sequences ≠ [] ↔ HasRoom config sh) := by
  have fresh : Fresh (fun source msg => (source, msg) ∈
    ([] : List (NodeID × Msg))) config sh shared created ae :=
    wp_new_fresh config sh shared created ae made
  have formed := starts.formed fresh
  -- The limits of a state that the epoch has come to are those it started with.
  have roomIff {st : AeState} {actions : List Action} {count : Nat}
      (steps : Steps (EpochStep fun source msg => (source, msg) ∈ ([] : List (NodeID × Msg)))
      ⟨ae, shared⟩ st actions)
      (full : st.Full) (stFormed : st.Formed sh.commitState.highestCommit
        (sh.commitState.lowWatermark + 1) count)
      (none : count = 0) : ¬ HasRoom config sh := by
    obtain ⟨frame, low, stop⟩ := EpochStep.limits steps
    have isHigh := stFormed.highWatermark
    rw [none, zero_mul] at isHigh
    have noRoom := full _ isHigh
    rw [frame.epochConfig, stop] at noRoom
    rw [show ae.epochConfig = config from fresh.epochConfig,
      show shared.commitState = _ from fresh.commitState] at noRoom
    exact noRoom
  have aligned := fresh.aligned
  have advanced := does_advance ⟨ae, shared⟩ aligned
  refine ⟨?_, wp_mono advanced.2 ?_⟩
  · by_cases room : HasRoom config sh
    · have never := advance_failsOnly aligned formed fun mid actions wider steps full midFormed =>
        pos_of_ne_zero fun none => roomIff steps full midFormed none room
      exact never.mono fun _ other member => absurd member other
    · intro failure failed member
      exact ⟨room, (advanced.1 failure failed _ _ _ formed member).2⟩
  · rintro st actions _ ⟨steps, isFull⟩
    have full := isFull formed.ci
    obtain ⟨count, _, stFormed⟩ := EpochStep.formed_steps aligned formed steps
    have noRoom := roomIff steps full stFormed
    have awaited : st.Awaited := by
      have none : AeState.Awaited ⟨ae, shared⟩ := by
        intro digest seqNo isFound
        rw [show ae.outstandingReqs.outstandingRequests = ∅ from fresh.outstandingRequests] at isFound
        cases isFound
      exact RunStep.awaited_steps aligned none steps
    refine ⟨⟨good_steps aligned steps, awaited, _, count, le_refl _, stFormed, fun none =>
      ⟨noRoom none, full⟩⟩, full,
      fun some => ?_, fun room empty => ?_⟩
    · by_contra isFull
      have startFull : AeState.Full ⟨ae, shared⟩ := by
        intro high isHigh
        rw [formed.highWatermark, Except.ok.injEq, zero_mul] at isHigh
        subst isHigh
        rw [show ae.epochConfig = config from fresh.epochConfig,
          show shared.commitState = _ from fresh.commitState]
        exact isFull
      exact some ((EpochStep.sequences_full startFull steps).trans fresh.sequences)
    · exact noRoom (blocks_eq_nil.mp (stFormed.sequences.symm.trans empty)) room

end EpochStart

/-! ### Windows of runs -/

section Runs

variable {admits : EpochReplica → NodeID → Msg → Prop} {config : EpochConfig} {sh shared : Shared}
  {created : List Action} {ae : ActiveEpoch} {replica : EpochReplica} {start base : Nat} {room : Prop}

theorem ServedRun.inv (starts : EpochStart config sh) (made : new config sh = .ok (shared, created, ae))
    (run : ServedRun admits ⟨ae, shared⟩ replica) :
    RunInv sh.commitState.highestCommit (sh.commitState.lowWatermark + 1) (HasRoom config sh) replica := by
  induction run with
  | start ran => exact ((starts.opens made).2 _ _ _ ran).1
  | call _ timely ran inv => exact ((inv.call timely _).2 _ _ _ ran).2
  | others _ served inv => exact ⟨inv.1, inv.2.1, inv.2.2.serve served⟩

/-- **A window as the methods of the epoch read it**: intervals of consecutive sequence numbers
between the watermarks, and for each number a sequence of the node that owns its bucket. -/
structure AeState.WellFormed (st : AeState) (low count : Nat) : Prop where
  nonempty : 0 < count
  sequences : st.ae.sequences = blocks low st.ae.interval count
  lowWatermark : st.ae.lowWatermark = .ok low
  highWatermark : st.highWatermark = .ok (low + count * st.ae.interval - 1)
  sequence : ∀ seqNo, low ≤ seqNo → seqNo < low + count * st.ae.interval →
    ∃ s, st.sequence seqNo = .ok s ∧ s.seqNo = seqNo ∧
      st.ae.buckets[seqNo % st.ae.bucketCount]? = some s.owner

theorem RunInv.wellFormed (inv : RunInv start base room replica) (isRoom : room) :
    ∃ low count, replica.st.WellFormed low count := by
  obtain ⟨aligned, _, low, count, _, formed, isEmpty⟩ := inv
  have some : 0 < count := pos_of_ne_zero fun none => (isEmpty none).1 isRoom
  refine ⟨low, count, some, formed.sequences, formed.lowWatermark some, formed.highWatermark,
    fun seqNo above below => ?_⟩
  obtain ⟨s, isSequence, found⟩ := formed.sequence above below
  obtain ⟨isSeqNo, isOwner, _⟩ := aligned.identity seqNo s found
  refine ⟨s, isSequence, isSeqNo, ?_⟩
  have inRange : seqNo % replica.st.ae.bucketCount < replica.st.ae.buckets.length := by
    rw [aligned.bucketCount]
    exact mod_lt _ formed.buckets
  rw [isOwner, List.getElem?_eq_getElem inRange]
  exact congrArg Option.some (getElem_eq_getD _)

theorem RunInv.high_advance (inv : RunInv start base room replica) {st : AeState}
    {actions : List Action} (ran : advance replica.st = .ok (st, actions, ())) :
    st.highWatermark = .ok (min st.ae.epochConfig.plannedExpiration st.sh.commitState.stopAtSeqNo) := by
  obtain ⟨aligned, _, low, count, _, formed, _⟩ := inv
  obtain ⟨_, full, _, _, _, _, _, stFormed⟩ := (does_advance_formed formed aligned).2 _ _ _ ran
  exact stFormed.high_eq_min full

/-- **The window of an active epoch**. The first `advance` opens it exactly if there is room. Then
it is well formed in every state of a run, it ends at the lower of its limits after an `advance`,
and none of its assertions fails; and behind a stable checkpoint it begins exactly if it did not
begin later before, and an interval has more than one sequence number or nothing was to be
dropped. -/
theorem active_window_runs (starts : EpochStart config sh)
    (made : new config sh = .ok (shared, created, ae)) :
    (∀ st actions, advance ⟨ae, shared⟩ = .ok (st, actions, ()) →
      (st.ae.sequences ≠ [] ↔ HasRoom config sh)) ∧
    (HasRoom config sh → FailsOnly (· ∉ windowFailures) (advance ⟨ae, shared⟩) ∧
      ∀ admits replica, ServedRun admits ⟨ae, shared⟩ replica →
        (∃ low count, replica.st.WellFormed low count) ∧
        (∀ call hash, EpochCall.Timely admits replica call →
          FailsOnly (· ∉ windowFailures) (call.run hash replica.st)) ∧
        (∀ st actions, advance replica.st = .ok (st, actions, ()) →
          st.highWatermark = .ok (min st.ae.epochConfig.plannedExpiration st.sh.commitState.stopAtSeqNo)) ∧
        ∀ seqNo st actions low, EpochCall.Timely admits replica (.moveLowWatermark seqNo) →
          moveLowWatermark seqNo replica.st = .ok (st, actions, false) →
          replica.st.ae.lowWatermark = .ok low → (st.ae.lowWatermark = .ok (seqNo + 1) ↔
            low ≤ seqNo + 1 ∧ (2 ≤ replica.st.ae.networkConfig.checkpointInterval ∨ low = seqNo + 1))) := by
  have opens := starts.opens made
  have never {failure : String} (room : HasRoom config sh) (spared : Spared (HasRoom config sh) failure) :
      failure ∉ windowFailures := fun member => (spared member).1 room
  refine ⟨fun st actions ran => (opens.2 _ _ _ ran).2.2, fun room => ⟨opens.1.mono fun _ => never room, ?_⟩⟩
  intro admits replica run
  have inv := run.inv starts made
  refine ⟨inv.wellFormed room, fun call hash timely => (inv.call timely hash).1.mono fun _ => never room,
    fun _ _ => inv.high_advance, ?_⟩
  intro seqNo st actions low timely ran isLow
  obtain ⟨intervals, checkpoint⟩ := timely.checkpoint
  obtain ⟨_, moved⟩ := (does_moveLowWatermark checkpoint inv).2 _ _ _ ran
  exact moved rfl low isLow

end Runs

/-! ### A run -/

namespace ServedRun

/-- A call of a method of the epoch, or one of the commit state by the state machine. -/
inductive Event where
  | call (call : EpochCall)
  | drain
  | checkpointResult (seqNo : Nat) (value : Bytes)

/-- A message comes from this node only if it has sent it. -/
def Genuine (replica : EpochReplica) (source : NodeID) (msg : Msg) : Prop :=
  source = replica.st.ae.myConfig.id → msg ∈ replica.sent

instance (replica : EpochReplica) : (call : EpochCall) → Decidable (call.Timely Genuine replica)
  | .step source msg => inferInstanceAs (Decidable (source = replica.st.ae.myConfig.id → msg ∈ replica.sent))
  | .moveLowWatermark seqNo => inferInstanceAs (Decidable (seqNo ≤ replica.st.sh.commitState.lowWatermark ∧
      replica.st.ae.interval ∣ replica.st.sh.commitState.lowWatermark - seqNo))
  | .hashResult _ _ | .tick | .advance | .advanceRequests | .drainBuffers => inferInstanceAs (Decidable True)

/-- The replica after an event; `none` if it is not allowed or panics. A checkpoint result has the
present network state. -/
def Event.after (hash : Bytes → Bytes) (replica : EpochReplica) : Event → Option EpochReplica
  | .call method => if method.Timely Genuine replica then
      match method.run hash replica.st with
      | .ok (st, actions, _) => some (method.after replica st actions)
      | .error _ => none
    else none
  | .drain => match replica.st.sh.commitState.drain with
    | .ok (commitState, _) => some { replica with st := ⟨replica.st.ae, { replica.st.sh with commitState }⟩ }
    | .error _ => none
  | .checkpointResult seqNo value =>
    let cs := replica.st.sh.commitState
    if cs.lowWatermark + cs.checkpointInterval ≤ cs.lastAppliedCommit then
      match cs.applyCheckpointResult replica.st.sh.persisted seqNo value cs.activeState with
      | .ok (commitState, persisted, _) =>
        some { replica with st := ⟨replica.st.ae, { replica.st.sh with commitState, persisted }⟩ }
      | .error _ => none
    else none

variable {first : AeState} {hash : Bytes → Bytes}

theorem Event.run_after {replica next : EpochReplica} {event : Event}
    (run : ServedRun Genuine first replica) (ran : event.after hash replica = some next) :
    ServedRun Genuine first next := by
  cases event with
  | call =>
    dsimp only [after] at ran
    split at ran
    · split at ran
      · exact Option.some.inj ran ▸ .call run ‹_› ‹_›
      · cases ran
    · cases ran
  | drain =>
    dsimp only [after] at ran
    split at ran
    · exact Option.some.inj ran ▸ .others run (.drain ‹_›)
    · cases ran
  | checkpointResult =>
    dsimp only [after] at ran
    split at ran
    · split at ran
      · exact Option.some.inj ran ▸ .others run (.checkpointResult ‹_› rfl ‹_›)
      · cases ran
    · cases ran

theorem of_events {replica final : EpochReplica} {events : List Event}
    (run : ServedRun Genuine first replica)
    (executed : events.foldlM (Event.after hash) replica = some final) :
    ServedRun Genuine first final := by
  induction events generalizing replica with
  | nil => exact Option.some.inj executed ▸ run
  | cons event rest ih =>
    obtain ⟨next, ran, executed⟩ := Option.bind_eq_some_iff.mp executed
    exact ih (Event.run_after run ran) executed

end ServedRun

/-! ### First epochs -/

/-- **The first epoch of node zero**, in a network without clients, with the owners of its
buckets. -/
structure FirstEpoch where
  network : NetworkConfig
  config : EpochConfig
  owners : List NodeID
  assigned : assignBuckets config network.nodes 0 (List.range network.numberOfBuckets) = .ok owners
  interval : 0 < network.checkpointInterval
  buckets : 0 < network.numberOfBuckets
  planned : network.checkpointInterval ∣ config.plannedExpiration

namespace FirstEpoch

variable (first : FirstEpoch)

/-- A log with the first checkpoint. -/
def log : Persisted := { nextIndex := 2, log := [⟨1, .cEntry ⟨0, [1], ⟨first.network, [], []⟩⟩⟩] }

/-- The commit state starts from it. -/
def restart : Go (CommitState × List Action) :=
  CommitState.reinitialize (FourNodes.shared 0).commitState first.log

def components : Shared :=
  let sh := FourNodes.shared 0
  { sh with
    persisted := first.log
    commitState := (okValue first.restart rfl).1
    clients := { sh.clients with networkConfig := first.network } }

theorem epochStart : EpochStart first.config first.components where
  interval := first.interval
  buckets := first.buckets
  reached := .log (eq_ok_okValue first.restart rfl) fun _ _ _ entries => by cases entries
  inside := zero_le _
  planned := first.planned

theorem new_isOk : (new first.config first.components).isOk = true :=
  new_isOk_of_assigned first.assigned

/-- The epoch before its first `advance`. -/
def begun : AeState :=
  let started := okValue (new first.config first.components) first.new_isOk
  ⟨started.2.2, started.1⟩

/-- A run of the epoch that is executed, with a property that can be evaluated. -/
theorem exists_of_executed (events : List ServedRun.Event) (property : EpochReplica → Prop)
    (evaluated : ∃ opened, advance first.begun = .ok opened ∧
      ∃ replica, events.foldlM (ServedRun.Event.after id)
        ⟨opened.1, [], sentMsgs opened.2.1, hashRequests opened.2.1⟩ = some replica ∧ property replica) :
    ∃ replica, ServedRun ServedRun.Genuine first.begun replica ∧ property replica := by
  obtain ⟨_, ran, replica, executed, holds⟩ := evaluated
  exact ⟨replica, ServedRun.of_events (.start ran) executed, holds⟩

end FirstEpoch

namespace SingleNode

/-- The epoch of a node that is alone, with intervals of one sequence number. -/
def first : FirstEpoch where
  network := { nodes := [0], checkpointInterval := 1, maxEpochLength := 4, numberOfBuckets := 1, f := 0 }
  config := { number := 1, leaders := [0], plannedExpiration := 4 }
  owners := [0]
  assigned := by decide
  interval := by decide
  buckets := by decide
  planned := by decide

/-- A null batch is proposed and committed, and the checkpoint after it is computed. -/
def events : List ServedRun.Event :=
  [.call .tick, .call (.step 0 (.preprepare 1 1 [])), .call (.step 0 (.commit 1 1 [])), .drain,
  .checkpointResult 1 [2]]

/-- **Intervals of one sequence number lag behind**: the checkpoint at one is stable, and the window
still begins at one. -/
theorem short_interval_lags : HasRoom first.config first.components ∧ ∃ replica st actions,
    ServedRun ServedRun.Genuine first.begun replica ∧
    EpochCall.Timely ServedRun.Genuine replica (.moveLowWatermark 1) ∧
    moveLowWatermark 1 replica.st = .ok (st, actions, false) ∧ st.ae.lowWatermark = .ok 1 := by
  obtain ⟨replica, run, timely, ⟨st, actions, _⟩, ran, rfl, stays⟩ := first.exists_of_executed events
    (fun replica => EpochCall.Timely ServedRun.Genuine replica (.moveLowWatermark 1) ∧
      ∃ result, moveLowWatermark 1 replica.st = .ok result ∧ result.2.2 = false ∧
        result.1.ae.lowWatermark = .ok 1) (by decide +kernel)
  exact ⟨⟨by decide, by decide⟩, replica, st, actions, run, timely, ran, stays⟩

end SingleNode

namespace FourNodes

/-- An epoch that all nodes lead, with intervals of four sequence numbers. -/
def first : FirstEpoch where
  network := { networkConfig with checkpointInterval := 4 }
  config := { number := 1, leaders := [0, 1, 2, 3], plannedExpiration := 8 }
  owners := [1, 2, 3, 0]
  assigned := by decide
  interval := by decide
  buckets := by decide
  planned := by decide

/-- The messages for a null batch. -/
def agreed (owner : NodeID) (seqNo : Nat) : List ServedRun.Event :=
  .call (.step owner (.preprepare seqNo 1 [])) ::
    (([0, 1, 2, 3].filter (· ≠ owner)).map fun source => .call (.step source (.prepare seqNo 1 []))) ++
    [0, 1, 2].map fun source => .call (.step source (.commit seqNo 1 []))

/-- Every node proposes a null batch, all of them commit, and the checkpoint after them is
computed. -/
def interval : List ServedRun.Event :=
  .call .tick :: agreed 2 1 ++ agreed 3 2 ++ agreed 0 3 ++ agreed 1 4 ++ [.drain, .checkpointResult 4 [2]]

theorem interval_run : ∃ replica, ServedRun ServedRun.Genuine first.begun replica ∧
    replica.st.ae.lowWatermark = .ok 1 ∧ replica.st.highWatermark = .ok 8 ∧
    replica.st.ae.networkConfig = first.network ∧ replica.st.sh.commitState.lowWatermark = 4 ∧
    ∃ result, moveLowWatermark 4 replica.st = .ok result ∧ result.2.2 = false :=
  first.exists_of_executed interval _ (by decide +kernel)

/-- The window of the run is well formed, and then it begins behind the checkpoint. -/
theorem active_window_interval : ∃ replica st actions, ServedRun ServedRun.Genuine first.begun replica ∧
    (∃ low count, replica.st.WellFormed low count) ∧
    moveLowWatermark 4 replica.st = .ok (st, actions, false) ∧ st.ae.lowWatermark = .ok 5 := by
  obtain ⟨replica, run, isLow, _, isNetwork, isCheckpoint, ⟨st, actions, _⟩, ran, rfl⟩ := interval_run
  have runs := (active_window_runs first.epochStart (eq_ok_okValue _ first.new_isOk)).2 ⟨by decide, by decide⟩
  obtain ⟨formed, _, _, moves⟩ := runs.2 _ replica run
  have timely : EpochCall.Timely ServedRun.Genuine replica (.moveLowWatermark 4) :=
    ⟨isCheckpoint.ge, by rw [isCheckpoint]; exact dvd_zero _⟩
  have behind := (moves 4 st actions 1 timely ran isLow).mpr ⟨by decide, .inl (by rw [isNetwork]; decide)⟩
  exact ⟨replica, st, actions, run, formed, ran, behind⟩

end FourNodes

end MirBft
