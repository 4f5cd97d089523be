/-
**The methods of an active epoch are its steps.**

From an aligned epoch every method is a sequence of `EpochStep`s; where the window is well formed,
it does not fail with a panic of the window (`Walks`, for `epochWalk`). A message is applied only if
`filter` says that it is current, and that is where the guards of the steps come from: a prepare is
not the owner's, a preprepare is its bucket's next one.

The results that need more than that say it: `does_advance`, that the window is full.
-/

import MirBft.Proof.EpochWindow
import MirBft.Proof.Failures

namespace MirBft

open Proc Walk AeState List

/-! ### Components -/

/-- The next commit, below the stop, passes the assertions on its number. -/
theorem CommitState.commit_failsOnly {cs : CommitState} {qEntry : QEntry}
    (inside : qEntry.seqNo ≤ cs.stopAtSeqNo)
    (isNext : qEntry.seqNo = cs.highestCommit + 1) : FailsOnly (· ∉ windowFailures) (cs.commit qEntry) := by
  refine .throw_else (by simp [windowFailures]) <| .ite (fun beyond => by omega) fun _ =>
    .pure_else <| .ite (fun skips => absurd isNext.symm skips.2) fun _ => ?_
  refine .throw_else (by simp [windowFailures]) ?_
  split
  · exact .throw (by simp [windowFailures])
  · exact .throw_else (by simp [windowFailures]) <| .pure _
  · exact .pure_else (.pure _)

namespace AeState

variable {α : Type} {least : Nat} {st : AeState} {result : Go α} {seqNo : Nat}

/-! ### What is excused -/

theorem excuses_of_formed (fails : ∀ start low count, st.Formed start low count →
    FailsOnly (· ∉ windowFailures) result) : FailsOnly (st.Excuses least) result :=
  fun failure failed start low count formed member => absurd member
    (fails start low count formed failure failed)

theorem excuses_component (fails : FailsOnly (· ∈ componentFailures) result) :
    FailsOnly (st.Excuses least) result := by
  refine excuses_of_formed fun _ _ _ _ => fails.mono fun failure member => ?_
  simp only [componentFailures, mem_cons, not_mem_nil, or_false] at member
  rcases member with rfl | rfl | rfl | rfl | rfl | rfl | rfl | rfl | rfl | rfl <;> simp [windowFailures]

theorem excuses_logTail (fails : FailsOnly (· = "nil pointer dereference: logTail") result) :
    FailsOnly (st.Excuses least) result :=
  excuses_component fails.component

theorem bucketOf_excuses (seqNo : Nat) : FailsOnly (st.Excuses least) (st.ae.bucketOf seqNo) := by
  refine excuses_of_formed fun _ _ _ formed => ?_
  exact .ite (fun none => absurd none formed.buckets.ne') fun _ => .pure _

theorem highWatermark_excuses : FailsOnly (st.Excuses least) st.highWatermark :=
  excuses_of_formed fun _ _ _ formed => .of_ok formed.highWatermark

theorem lowWatermark_excuses : FailsOnly (st.Excuses 1) st.ae.lowWatermark := by
  intro failure failed start low count formed _
  rcases Nat.eq_zero_or_pos count with empty | some
  · unfold ActiveEpoch.lowWatermark at failed
    rw [formed.sequences, empty] at failed
    cases failed
    exact ⟨by omega, rfl⟩
  · rw [formed.lowWatermark some] at failed
    cases failed

theorem inWindow_excuses (seqNo : Nat) : FailsOnly (st.Excuses 1) (st.inWindow seqNo) :=
  .bind lowWatermark_excuses fun _ _ => .pure_else <|
    .bind highWatermark_excuses fun _ _ => .pure_else (.pure _)

theorem Formed.buffer {start low count : Nat} (formed : st.Formed start low count) (seqNo : Nat) :
    ∃ buffer, st.ae.preprepareBuffers[st.bucket seqNo]? = some buffer := by
  have small : st.bucket seqNo < st.ae.preprepareBuffers.length := by
    rw [formed.buffers]
    exact Nat.mod_lt _ formed.buckets
  exact ⟨_, List.getElem?_eq_getElem small⟩

theorem filter_excuses (source : NodeID) (msg : Msg) : FailsOnly (st.Excuses 1) (st.filter source msg) := by
  cases msg with
  | preprepare seqNo epoch batch =>
    refine .bind (bucketOf_excuses seqNo) fun bucket isBucket => .pure_else <|
      .pure_else <| .bind highWatermark_excuses fun _ _ => .pure_else <|
        .bind lowWatermark_excuses fun _ _ => .pure_else <|
          excuses_of_formed fun _ _ _ formed => ?_
    obtain ⟨buffer, isBuffer⟩ := formed.buffer seqNo
    have same : bucket = st.bucket seqNo := by
      rw [ActiveEpoch.bucketOf, if_neg formed.buckets.ne', pure_eq_ok] at isBucket
      exact isBucket.symm
    rw [same, isBuffer]
    exact .pure_else <| .pure_else (.pure _)
  | prepare seqNo epoch digest =>
    exact .bind (bucketOf_excuses seqNo) fun bucket _ => .pure_else <|
      .pure_else <| inWindow_excuses seqNo
  | commit seqNo epoch digest => exact .pure_else <| inWindow_excuses seqNo
  | _ => exact excuses_of_formed fun _ _ _ _ => .throw (by simp [windowFailures])

/-- The sequence number lies between the watermarks. -/
def Inside (st : AeState) (seqNo : Nat) : Prop :=
  (∀ low, st.ae.lowWatermark = .ok low → low ≤ seqNo) ∧ ∀ high, st.highWatermark = .ok high → seqNo ≤ high

theorem Inside.bounds {seqNo start low count : Nat} (inside : st.Inside seqNo) (some : 0 < count)
    (formed : st.Formed start low count) :
    low ≤ seqNo ∧ seqNo < low + count * st.ae.interval := by
  have below := inside.2 _ formed.highWatermark
  have := Nat.mul_pos some formed.ci
  exact ⟨inside.1 low (formed.lowWatermark some), by omega⟩

theorem sequence_excuses_of (inside : ∀ start low count, 0 < count → st.Formed start low count →
    low ≤ seqNo ∧ seqNo < low + count * st.ae.interval) :
    FailsOnly (st.Excuses 1) (st.sequence seqNo) := by
  refine .bind lowWatermark_excuses fun lowest isLow => excuses_of_formed fun start low count formed => ?_
  obtain ⟨above, below⟩ := inside start low count (formed.nonempty isLow).1 formed
  obtain ⟨s, isSequence, _⟩ := formed.sequence above below
  obtain ⟨_, same, rest⟩ := bind_eq_ok.mp isSequence
  rw [isLow, Except.ok.injEq] at same
  subst same
  exact .of_ok rest

theorem sequence_excuses (inside : st.Inside seqNo) : FailsOnly (st.Excuses 1) (st.sequence seqNo) :=
  sequence_excuses_of fun _ _ _ some formed => inside.bounds some formed

theorem Inside.of_inWindow (current : st.inWindow seqNo = .ok .current) : st.Inside seqNo := by
  obtain ⟨low, isLow, current⟩ := bind_eq_ok.mp current
  split at current
  · cases current
  obtain ⟨high, isHigh, current⟩ := bind_eq_ok.mp current
  split at current
  · cases current
  refine ⟨fun low' same => ?_, fun high' same => ?_⟩
  · rw [isLow, Except.ok.injEq] at same
    omega
  · rw [isHigh, Except.ok.injEq] at same
    omega

end AeState

namespace ActiveEpoch

variable {heard : NodeID → Msg → Prop}
variable {st : AeState} {seqNo bucket epoch : Nat} {source : NodeID} {digest : Bytes}
  {batch : List RequestAck}
  {msg : Msg} {α : Type} {least : Nat} {γ : Type} {post : AeState → γ → Prop}

theorem sequence_eq_ok {s : Sequence} (found : st.sequence seqNo = .ok s) : st.ae.heap seqNo = some s := by
  obtain ⟨low, _, found⟩ := bind_eq_ok.mp found
  split at found
  · cases found
  split at found
  · cases found
  split at found
  · cases found
  split at found
  · cases found
  split at found
  · cases found
  split at found
  · cases found
  · rename_i isFound
    rw [pure_eq_ok] at found
    rw [isFound, found]

/-! ### What the filter says -/

theorem bucketOf_eq_ok {ae : ActiveEpoch} (isBucket : ae.bucketOf seqNo = .ok bucket) :
    seqToBucket seqNo ae.networkConfig = bucket ∧ ae.bucketCount ≠ 0 := by
  unfold bucketOf at isBucket
  split at isBucket
  · cases isBucket
  · exact ⟨pure_eq_ok.mp isBucket, ‹_›⟩

theorem filter_prepare (current : st.filter source (.prepare seqNo epoch digest) = .ok .current) :
    st.ae.owner (st.bucket seqNo) ≠ source ∧ st.Inside seqNo := by
  obtain ⟨bucket, isBucket, current⟩ := bind_eq_ok.mp current
  obtain ⟨rfl, _⟩ := bucketOf_eq_ok isBucket
  split at current
  · cases current
  rename_i foreign
  split at current
  · cases current
  · exact ⟨foreign, .of_inWindow current⟩

theorem filter_commit (current : st.filter source (.commit seqNo epoch digest) = .ok .current) :
    st.Inside seqNo := by
  change (if seqNo > st.ae.epochConfig.plannedExpiration then pure .invalid else st.inWindow
    seqNo) = _ at current
  split at current
  · cases current
  · exact .of_inWindow current

theorem filter_preprepare (current : st.filter source (.preprepare seqNo epoch batch) = .ok .current) :
    st.ae.owner (st.bucket seqNo) = source ∧ st.ae.bucketCount ≠ 0 ∧ st.Inside seqNo ∧
      ∃ buffer, st.ae.preprepareBuffers[st.bucket seqNo]? = some buffer ∧ buffer.nextSeqNo = seqNo := by
  obtain ⟨bucket, isBucket, current⟩ := bind_eq_ok.mp current
  obtain ⟨rfl, anyBucket⟩ := bucketOf_eq_ok isBucket
  split at current
  · cases current
  rename_i isOwner
  split at current
  · cases current
  obtain ⟨high, isHigh, current⟩ := bind_eq_ok.mp current
  split at current
  · cases current
  obtain ⟨low, isLow, current⟩ := bind_eq_ok.mp current
  split at current
  · cases current
  split at current
  · cases current
  rename_i buffer isBuffer
  split at current
  · cases current
  split at current
  · cases current
  refine ⟨not_not.mp isOwner, anyBucket, ⟨fun low' same => ?_, fun high' same => ?_⟩, buffer,
    isBuffer, by omega⟩
  · rw [isLow, Except.ok.injEq] at same
    omega
  · rw [isHigh, Except.ok.injEq] at same
    omega

theorem filter_future (future : st.filter source (.preprepare seqNo epoch batch) = .ok .future) :
    st.ae.owner (st.bucket seqNo) = source := by
  obtain ⟨bucket, isBucket, future⟩ := bind_eq_ok.mp future
  obtain ⟨rfl, _⟩ := bucketOf_eq_ok isBucket
  split at future
  · cases future
  · rename_i isOwner
    exact not_not.mp isOwner

theorem filter_setBuffer {before : PreprepareBuffer} (found : st.ae.preprepareBuffers[bucket]? = some before)
    (buffer : MsgBuffer) (source : NodeID) (msg : Msg) :
    filter { st with ae := { st.ae with
      preprepareBuffers := st.ae.preprepareBuffers.set bucket { before with buffer } } } source msg =
        st.filter source msg := by
  have byBucket (other seqNo : Nat) :
      filterPreprepare { st with ae := { st.ae with
        preprepareBuffers := st.ae.preprepareBuffers.set bucket { before with buffer } } } other seqNo =
          st.filterPreprepare other seqNo := by
    unfold filterPreprepare
    by_cases same : bucket = other
    · subst same
      have isSet : (st.ae.preprepareBuffers.set bucket { before with buffer })[bucket]? =
          some { before with buffer } := by
        rw [List.getElem?_set_self', found]
        rfl
      simp only [isSet, found]
      rfl
    · simp only [List.getElem?_set_ne same]
      rfl
  cases msg with
  | preprepare seqNo epoch batch =>
    unfold AeState.filter
    simp only [byBucket]
    rfl
  | _ => rfl

/-- The epoch does nothing but its steps. -/
abbrev Walks {α : Type} (heard : NodeID → Msg → Prop) (m : GoProc AeState α) (st : AeState) : Prop :=
  (epochWalk heard 1).Does m st fun _ _ => True

theorem does_frame {m : GoProc AeState α} {post : AeState → α → Prop}
    (does : (epochWalk heard least).Does m st post) :
    (epochWalk heard least).Does m st fun final value => st.ae.Frame final.ae ∧ post final value :=
  does_keep (fun mid => st.ae.Frame mid.ae) (.refl _)
    (fun _ _ _ frame step => frame.trans (EpochStep.frame step)) does

theorem walks_pure (value : α) (st : AeState) : Walks heard (pure value) st := does_pure trivial

theorem walks_fail {failure : String} (other : failure ∉ windowFailures) (st : AeState) :
    Walks heard (fail failure : GoProc AeState α) st :=
  does_fail fun _ _ _ _ _ member => absurd member other

/-! ### Operations on sequences -/

section Operate

variable {allowed : String → Prop} {st : AeState} {seqNo : Nat}
  {method : (RequestAck → Finset NodeID) → Sequence → Persisted → Go (SeqState × List Action)}
  {post : AeState → List Action → Unit → Prop}

theorem safe_onObject {s : Sequence}
    (fails : FailsOnly allowed (method st.sh.clients.agreements s st.sh.persisted))
    (holds : ∀ next p actions, method st.sh.clients.agreements s st.sh.persisted = .ok ((next, p), actions) →
      post (st.withSequence seqNo next p) actions ()) : safe allowed (onObject seqNo s method) st post := by
  refine safe_get_bind (safe_lift_bind fails fun result ran => ?_)
  obtain ⟨⟨next, p⟩, actions⟩ := result
  exact safe_bind (safe_modify (safe_emit (holds next p actions ran)))

theorem safe_onSequence (finds : FailsOnly allowed (st.sequence seqNo))
    (fails : ∀ s, st.ae.heap seqNo = some s → FailsOnly allowed
    (method st.sh.clients.agreements s st.sh.persisted))
    (holds : ∀ s next p actions, st.ae.heap seqNo = some s →
      method st.sh.clients.agreements s st.sh.persisted = .ok ((next, p), actions) →
      post (st.withSequence seqNo next p) actions ()) : safe allowed (onSequence seqNo method) st post := by
  refine safe_get_bind (safe_lift_bind finds fun s isSequence => ?_)
  have found := sequence_eq_ok isSequence
  exact safe_onObject (fails s found) fun next p actions ran => holds s next p actions found ran

end Operate

/-! ### Messages -/

theorem walks_applyPrepareMsg (isHeard : heard source (.prepare seqNo epoch digest))
    (foreign : st.ae.owner (st.bucket seqNo) ≠ source) (inside : st.Inside seqNo) :
    Walks heard (applyPrepareMsg source seqNo digest) st := by
  refine does_single fun aligned => safe_onSequence (sequence_excuses inside)
    (fun s _ => excuses_logTail (Sequence.applyPrepareMsg_failsOnly s _ _ _))
    fun s next p actions found ran => ⟨.prepare found ?_ isHeard ran, trivial⟩
  rw [(aligned.identity seqNo s found).2.1]
  exact foreign.symm

theorem walks_commitInOrder (fuel : Nat) (st : AeState) : Walks heard (commitInOrder fuel) st := by
  induction fuel generalizing st with
  | zero => exact walks_pure () st
  | succ fuel ih =>
    refine does_get_bind (does_lift_bind (fun _ => highWatermark_excuses) fun high isHigh =>
      does_ite (fun inWindow => ?_) fun _ => walks_pure () st)
    have inside (start low count : Nat) (some : 0 < count) (formed : st.Formed start low count) :
        low ≤ st.ae.lowestUncommitted ∧
          st.ae.lowestUncommitted < low + count * st.ae.interval := by
      rw [formed.highWatermark, Except.ok.injEq] at isHigh
      have := Nat.mul_pos some formed.ci
      exact ⟨formed.low_le_uncommitted, by omega⟩
    refine does_lift_bind (fun _ => sequence_excuses_of inside) fun s isSequence =>
      does_ite (fun _ => walks_pure () st) fun committed => ?_
    have found := sequence_eq_ok isSequence
    split
    · exact walks_fail (by simp [windowFailures]) st
    rename_i qEntry isEntry
    -- The commit and the step of `lowestUncommitted` are one step.
    have fails : FailsOnly (st.Excuses 1) (st.sh.commitState.commit qEntry) := by
      refine excuses_of_formed fun start low count formed => ?_
      have isNext := formed.entries _ s qEntry found isEntry
      obtain ⟨more, isStop⟩ := formed.stop
      obtain ⟨_, isLow, _⟩ := bind_eq_ok.mp isSequence
      obtain ⟨_, below⟩ := inside start low count (formed.nonempty isLow).1 formed
      rw [Nat.add_mul] at isStop
      exact CommitState.commit_failsOnly (by omega) (isNext.trans formed.uncommitted)
    intro aligned
    refine safe_bind (safe_zoom (safe_get_bind (safe_lift_bind fails fun commitState ran => safe_modify ?_)))
    refine safe_bind (safe_modify (safe_mono (safe_rest aligned
      (.commit isHigh inWindow found (not_not.mp committed) isEntry ran) (ih _)) ?_))
    exact fun _ _ _ done => done

theorem walks_applyCommitMsg (isHeard : heard source (.commit seqNo epoch digest))
    (inside : st.Inside seqNo) : Walks heard (applyCommitMsg source seqNo digest) st := by
  have voted : (epochWalk heard 1).Does (quiet (onSequence seqNo fun agreements seq p =>
      seq.applyCommitMsg agreements p source digest)) st fun final _ => final.Inside seqNo := by
    refine does_single fun aligned => safe_quiet (safe_onSequence (sequence_excuses inside)
      (fun s _ => excuses_logTail (Sequence.applyCommitMsg_failsOnly s _ _ _))
      fun s next p actions found ran => ⟨.vote found isHeard ran, inside⟩)
  refine does_bind voted fun mid _ _ stillInside => does_get_bind (does_lift_bind
    (fun _ => sequence_excuses stillInside) fun s _ => ?_)
  exact does_ite (fun _ => walks_pure () mid) fun _ => does_lift_bind
    (fun _ => highWatermark_excuses) fun high _ => walks_commitInOrder _ mid

theorem allocate_excuses {s copy : Sequence} {requestAcks : List RequestAck} {outstandingReqs : Finset Bytes}
    {agreements : RequestAck → Finset NodeID} {p : Persisted} (found : st.ae.heap seqNo = some s)
    (same : copy.state = s.state) (isNext : st.ae.lowestUnallocated[st.bucket seqNo]? = some seqNo) :
    FailsOnly (st.Excuses 1) (copy.allocate agreements p requestAcks outstandingReqs) := by
  by_cases fresh : s.state = .uninitialized
  · exact excuses_logTail (Sequence.allocate_failsOnly (same.trans fresh))
  · -- In a well-formed window the bucket's cursor is at a fresh sequence.
    refine excuses_of_formed fun start low count formed => absurd ?_ fresh
    obtain ⟨atLeast, isLater, isCursor⟩ := formed.cursor _ _ isNext
    exact (isCursor seqNo atLeast isLater rfl).mp (le_refl _) s found

/-- **A preprepare and the step of its bucket's buffer**: the owner's comes back to it, or a
follower allocates its batch. -/
theorem safe_applyPreprepareMsg (aligned : Aligned heard st.ae)
    (isHeard : heard source (.preprepare seqNo epoch batch))
    (current : st.filter source (.preprepare seqNo epoch batch) = .ok .current) :
    safe (st.Excuses 1) (applyPreprepareMsg source seqNo batch) st fun final actions _ =>
      EpochStep heard st (final.passBuffer (st.bucket seqNo)) actions := by
  obtain ⟨isOwner, anyBucket, inside, buffer, isBuffer, isNext⟩ := filter_preprepare current
  have finds := sequence_excuses inside
  refine safe_get_bind (safe_lift_bind finds fun s isSequence => ?_)
  have found := sequence_eq_ok isSequence
  have owner := (aligned.identity seqNo s found).2.1.trans isOwner
  rw [← owner] at isHeard
  refine safe_ite (fun mine => ?_) fun foreign => safe_lift_bind (bucketOf_excuses seqNo)
    fun bucket isBucket => ?_
  · refine safe_onSequence finds
      (fun _ _ => excuses_logTail (Sequence.applyPrepareMsg_failsOnly _ _ _ _))
      fun s' next p actions found' ran => ?_
    obtain rfl : s = s' := by rwa [found, Option.some.injEq] at found'
    rw [← owner] at ran
    exact .back anyBucket found mine isHeard isBuffer isNext ran
  · obtain ⟨rfl, _⟩ := bucketOf_eq_ok isBucket
    refine safe_bind (safe_get_bind ?_)
    split
    · rename_i none
      refine safe_fail fun _ _ _ formed _ => ?_
      have small : st.bucket seqNo < st.ae.lowestUnallocated.length := by
        rw [formed.unallocated]
        exact Nat.mod_lt _ formed.buckets
      exact nomatch none.symm.trans (List.getElem?_eq_getElem small)
    rename_i expected isExpected
    refine safe_pure (safe_ite (fun differs => safe_fail fun _ _ _ formed _ => ?_) fun same => ?_)
    · exact absurd (isNext.symm.trans (formed.foreign _ _ buffer isExpected isBuffer
        ((isOwner.trans owner.symm).trans_ne foreign))) differs
    obtain rfl := not_not.mp same
    refine safe_bind (safe_modify (safe_get_bind (safe_lift_bind
      (excuses_component (AllOutstandingReqs.applyAcks_failsOnly _ _ _ _)) fun result applied => ?_)))
    refine safe_bind (safe_modify (safe_onSequence finds
      (fun _ found => allocate_excuses found rfl isExpected) fun s' next p actions found' ran => ?_))
    obtain rfl : s = s' := by rwa [found, Option.some.injEq] at found'
    exact .follow found foreign isHeard isExpected isBuffer isNext applied ran

/-- **What `next` takes out of a bucket's buffer** is a current preprepare of the bucket. -/
theorem does_nextPreprepare (inRange : ∀ start low count, st.Formed start low count →
    bucket < st.ae.bucketCount) :
    (epochWalk heard 1).Does (nextPreprepare bucket) st fun final found =>
    final.ae.owner bucket = st.ae.owner bucket ∧
      ∀ msg, found = some msg → heard (st.ae.owner bucket) msg ∧
        final.filter (st.ae.owner bucket) msg = .ok .current ∧
        ∃ seqNo epoch batch, msg = .preprepare seqNo epoch batch ∧ final.bucket seqNo = bucket := by
  refine does_single fun aligned => safe_get_bind ?_
  split
  · rename_i none
    refine safe_fail fun start low count formed _ => ?_
    have small : bucket < st.ae.preprepareBuffers.length := by
      rw [formed.buffers]
      exact inRange start low count formed
    exact nomatch none.symm.trans (List.getElem?_eq_getElem small)
  rename_i before isBefore
  refine safe_lift_bind (MsgBuffer.nextFrom_failsOnly filter_excuses _ _) fun result taken => ?_
  obtain ⟨⟨id, isReceived⟩, preprepares⟩ := aligned.preprepareBuffers bucket before isBefore
  obtain ⟨sameId, subset, isFound⟩ := MsgBuffer.nextFrom_eq_ok taken
  refine safe_bind (safe_modify (safe_pure ⟨.rebuffer isBefore sameId fun msg member =>
    .inl (subset member), rfl,
    fun msg isMsg => ?_⟩))
  obtain ⟨member, current⟩ := isFound msg isMsg
  refine ⟨isReceived msg member, ?_, preprepares msg member⟩
  rw [filter_setBuffer isBefore, ← id]
  exact current

theorem walks_applyPreprepares (fuel : Nat) (isHeard : heard source msg)
    (current : st.filter source msg = .ok .current)
    (isPreprepare : ∃ seqNo epoch batch, msg = .preprepare seqNo epoch batch ∧ st.bucket seqNo = bucket) :
    Walks heard (applyPreprepares source bucket fuel msg) st := by
  induction fuel generalizing st msg with
  | zero => exact walks_pure () st
  | succ fuel ih =>
    obtain ⟨seqNo, epoch, batch, rfl, rfl⟩ := isPreprepare
    intro aligned
    refine safe_bind (safe_mono (safe_applyPreprepareMsg aligned isHeard current)
      fun mid actions _ step => ?_)
    refine safe_bind (safe_modify (safe_rest aligned step ?_))
    change Walks heard _ (mid.passBuffer (st.bucket seqNo))
    have frame := step.frame
    have isOwner := (frame.owner (st.bucket seqNo)).trans (filter_preprepare current).1
    refine does_bind (does_nextPreprepare fun _ _ _ formed => ?_) fun taken found _ holds => ?_
    · rw [frame.bucketCount]
      exact Nat.mod_lt _ (frame.networkConfig ▸ formed.buckets)
    obtain ⟨_, isFound⟩ := holds
    rw [isOwner] at isFound
    cases found with
    | none => exact walks_pure () taken
    | some next =>
      obtain ⟨nextHeard, nextCurrent, isPreprepare⟩ := isFound next rfl
      exact ih nextHeard nextCurrent isPreprepare

section

variable (isHeard : heard source msg)
include isHeard

/-- **A current message is applied in steps.** -/
theorem walks_apply (current : st.filter source msg = .ok .current) :
    Walks heard (apply source msg) st := by
  cases msg with
  | preprepare seqNo epoch batch =>
    obtain ⟨_, _, _, buffer, isBuffer, _⟩ := filter_preprepare current
    refine does_get_bind (does_lift_bind (fun _ => bucketOf_excuses seqNo) fun bucket isBucket => ?_)
    obtain ⟨rfl, _⟩ := bucketOf_eq_ok isBucket
    split
    · rename_i none
      cases isBuffer.symm.trans none
    · exact walks_applyPreprepares _ isHeard current ⟨seqNo, epoch, batch, rfl, rfl⟩
  | prepare seqNo epoch digest =>
    obtain ⟨foreign, inside⟩ := filter_prepare current
    exact walks_applyPrepareMsg isHeard foreign inside
  | commit seqNo epoch digest => exact walks_applyCommitMsg isHeard (filter_commit current)
  | _ => exact walks_fail (by simp [windowFailures]) st

theorem walks_storeOther : Walks heard (match st.ae.otherBuffers.lookup source with
    | none => fail "nil pointer dereference: otherBuffers"
    | some buffer => assign fun ae =>
      { ae with otherBuffers := ae.otherBuffers.insert source (buffer.store msg) }) st := by
  split
  · exact walks_fail (by simp [windowFailures]) st
  rename_i buffer isBuffer
  exact does_single fun aligned => safe_modify
    ⟨.rebufferOther ((aligned.otherBuffers source buffer isBuffer).store isHeard), trivial⟩

theorem walks_storeFuture (future : st.filter source msg = .ok .future) :
    Walks heard (storeFuture source msg) st := by
  refine does_get_bind ?_
  cases msg with
  | preprepare seqNo epoch batch =>
    refine does_lift_bind (fun _ => bucketOf_excuses seqNo) fun bucket isBucket => ?_
    obtain ⟨rfl, _⟩ := bucketOf_eq_ok isBucket
    split
    · rename_i none
      refine does_fail fun _ _ _ _ formed _ => ?_
      obtain ⟨buffer, isBuffer⟩ := formed.buffer seqNo
      cases isBuffer.symm.trans none
    rename_i before isBefore
    refine does_single fun _ => safe_modify
      ⟨.rebuffer isBefore (MsgBuffer.store_id _ _) fun other member => ?_, trivial⟩
    rcases MsgBuffer.mem_store member with rfl | earlier
    · exact .inr ⟨(filter_future future).symm ▸ isHeard, seqNo, epoch, batch, rfl, rfl⟩
    · exact .inl earlier
  | _ => exact walks_storeOther isHeard

/-- **A message that is heard** is handled in steps. -/
theorem walks_step (st : AeState) : Walks heard (step source msg) st := by
  refine does_get_bind (does_lift_bind (fun _ => filter_excuses source msg) fun applyable filtered => ?_)
  cases applyable with
  | past | invalid => exact walks_pure () st
  | future => exact walks_storeFuture isHeard filtered
  | current => exact walks_apply isHeard filtered

/-! ### Moving on -/

end

theorem walks_drainPreprepares (inRange : bucket < st.ae.buckets.length) :
    Walks heard (drainPreprepares bucket) st := by
  refine fun aligned => does_bind (does_nextPreprepare fun _ _ _ _ => aligned.bucketCount ▸ inRange)
    (fun taken found _ holds => ?_) aligned
  obtain ⟨isOwner, isFound⟩ := holds
  cases found with
  | none => exact walks_pure () taken
  | some msg =>
    obtain ⟨isHeard, current, _⟩ := isFound msg rfl
    refine does_get_bind ?_
    rw [isOwner]
    exact walks_apply isHeard current

theorem does_iterate {nb : NodeBuffer} {msgs : List Msg} (areHeard : ∀ msg ∈ msgs, heard nb.id msg) :
    (epochWalk heard 1).Does (MsgBuffer.iterateFrom filter apply nb msgs) st fun _ left =>
      left.nodeBuffer.id = nb.id ∧ left.buffer ⊆ msgs := by
  induction msgs generalizing nb st with
  | nil => exact does_pure ⟨rfl, List.Subset.refl _⟩
  | cons first rest ih =>
    have later (nb' : NodeBuffer) (same : nb'.id = nb.id) (mid : AeState) :
        (epochWalk heard 1).Does (MsgBuffer.iterateFrom filter apply nb' rest) mid fun _ left =>
          left.nodeBuffer.id = nb.id ∧ left.buffer ⊆ first :: rest := by
      refine does_mono (ih fun msg member => same ▸ areHeard msg (mem_cons_of_mem _ member)) ?_
      rintro _ left _ ⟨isId, subset⟩
      exact ⟨isId.trans same, fun msg member => mem_cons_of_mem _ (subset member)⟩
    refine does_get_bind (does_lift_bind (fun _ => filter_excuses nb.id first)
      fun applyable filtered => ?_)
    cases applyable with
    | past | invalid => exact later (nb.msgRemoved first) rfl st
    | current =>
      exact does_bind (walks_apply (areHeard first mem_cons_self) filtered) fun mid _ _ _ =>
        later (nb.msgRemoved first) rfl mid
    | future =>
      refine does_bind (ih fun msg member => areHeard msg (mem_cons_of_mem _ member)) ?_
      rintro mid left _ ⟨isId, subset⟩
      refine does_pure ⟨isId, fun msg member => ?_⟩
      rcases mem_cons.mp member with rfl | member
      · exact mem_cons_self
      · exact mem_cons_of_mem _ (subset member)

theorem walks_drainOthers (id : NodeID) (st : AeState) : Walks heard (drainOthers id) st := by
  refine does_get_bind ?_
  split
  · exact walks_fail (by simp [windowFailures]) st
  rename_i buffer isBuffer
  intro aligned
  obtain ⟨isId, isReceived⟩ := aligned.otherBuffers id buffer isBuffer
  refine does_bind (does_iterate (isId ▸ isReceived)) (fun drained rest _ holds => ?_) aligned
  obtain ⟨restId, subset⟩ := holds
  exact does_single fun _ => safe_modify
    ⟨.rebufferOther ⟨restId.trans isId, fun msg member => isReceived msg (subset member)⟩, trivial⟩

theorem walks_drainBuffers (st : AeState) : Walks heard drainBuffers st := by
  refine does_get_bind (does_bind (does_forEach (fun mid => st.ae.Frame mid.ae) (.refl _)
    fun bucket member mid _ frame => ?_) fun _ _ _ _ => does_forEach (fun _ => True) trivial
      fun id _ mid _ _ => walks_drainOthers id mid)
  have inRange : bucket < mid.ae.buckets.length := by
    rw [frame.buckets]
    exact mem_range.mp member
  exact does_mono (does_frame (walks_drainPreprepares inRange)) fun _ _ _ holds => frame.trans holds.1

/-- **New sequences** and their N-entry are one step. -/
theorem does_addInterval {least high : Nat} (isHigh : st.highWatermark = .ok high)
    (unplanned : high < st.ae.epochConfig.plannedExpiration) (going : high < st.sh.commitState.stopAtSeqNo) :
    (epochWalk heard least).Does (addInterval high) st fun final _ =>
      final.sh.commitState = st.sh.commitState ∧ final.ae.networkConfig = st.ae.networkConfig ∧
        (0 < st.ae.interval →
          final.highWatermark = .ok (high + st.ae.interval)) := by
  refine does_single fun _ => safe_get_bind (safe_bind (safe_zoom (safe_get_bind (safe_lift_bind
    (excuses_logTail (Persisted.appendLogEntry_fails _ _)) fun result added => ?_))))
  refine safe_bind (safe_modify (safe_emit (safe_ite (fun none => safe_fail fun _ _ _ formed _ => ?_) fun _ =>
    safe_modify ?_)))
  · exact absurd none formed.buckets.ne'
  have heap (seqNo : Nat) := @foldl_update_apply
    (fun seqNo => newSequence (st.ae.owner (seqToBucket seqNo st.ae.networkConfig))
      st.ae.epochConfig.number seqNo st.ae.networkConfig st.ae.myConfig)
    ((List.range st.ae.interval).map (high + 1 + ·)) st.ae.heap seqNo
  simp only [mem_interval] at heap
  rw [append_nil]
  refine ⟨.extend isHigh unplanned going added heap, rfl, rfl, fun positive => ?_⟩
  obtain ⟨size, isSize⟩ := Nat.exists_eq_add_of_lt positive
  unfold highWatermark
  simp only [List.getLast?_concat, isSize, range_succ, map_append, map_singleton]
  rw [Nat.add_right_comm]
  rfl

/-- **The window is extended until it is full.** -/
theorem does_extendWindow (fuel : Nat) {st : AeState} :
    (epochWalk heard least).Does (extendWindow fuel) st fun final _ =>
      0 < st.ae.interval → ∀ high, st.highWatermark = .ok high →
        st.sh.commitState.stopAtSeqNo - high ≤ fuel → final.Full := by
  induction fuel generalizing st with
  | zero =>
    refine does_pure fun _ high isHigh enough high' same both => ?_
    rw [isHigh, Except.ok.injEq] at same
    omega
  | succ fuel ih =>
    refine does_get_bind (does_lift_bind (fun _ => highWatermark_excuses) fun high isHigh =>
      does_ite (fun room => ?_) fun full => does_pure fun _ _ _ _ high' same => ?_)
    · refine does_bind (does_addInterval isHigh room.1 room.2) ?_
      rintro mid _ _ ⟨sameCommits, sameConfig, extended⟩
      refine does_mono ih fun final _ _ isFull positive high' same enough => ?_
      rw [isHigh, Except.ok.injEq] at same
      refine isFull (by rwa [ActiveEpoch.interval, sameConfig]) _ (extended positive) ?_
      rw [sameCommits]
      omega
    · rw [isHigh, Except.ok.injEq] at same
      rwa [← same]

theorem walks_setProposal (bucket : Nat) (prb : ProposalBucket) (st : AeState) :
    Walks heard (setProposal bucket prb) st :=
  does_single fun _ => safe_modify ⟨.keep, trivial⟩

/-- **An owner allocates the next sequence of its bucket.** -/
theorem walks_propose {high : Nat} (clientRequests : List RequestAck)
    (isNext : st.ae.lowestUnallocated[bucket]? = some seqNo) (mine : st.ae.owner bucket = st.ae.myConfig.id)
    (isHigh : st.highWatermark = .ok high) (inWindow : seqNo ≤ high) :
    Walks heard (propose bucket seqNo clientRequests) st := by
  intro aligned
  obtain rfl := aligned.unallocated bucket seqNo isNext
  have inside (start low count : Nat) (some : 0 < count) (formed : st.Formed start low count) :
      low ≤ seqNo ∧ seqNo < low + count * st.ae.interval := by
    rw [formed.highWatermark, Except.ok.injEq] at isHigh
    have := Nat.mul_pos some formed.ci
    exact ⟨(formed.cursor _ _ isNext).1, by omega⟩
  refine does_single (fun aligned => safe_bind (safe_onSequence (sequence_excuses_of inside)
    (fun s found => allocate_excuses found rfl isNext) fun s next p actions found ran => safe_modify
    ⟨?_, trivial⟩)) aligned
  rw [append_nil]
  exact .propose found ((aligned.identity seqNo s found).2.1.trans mine) isNext ran

theorem does_unallocated_bind {next : Nat → GoProc AeState γ}
    (inRange : ∀ start low count, st.Formed start low count → bucket < st.ae.lowestUnallocated.length)
    (continued : ∀ seqNo, st.ae.lowestUnallocated[bucket]? = some seqNo →
      (epochWalk heard 1).Does (next seqNo) st post) :
    (epochWalk heard 1).Does (unallocated bucket >>= next) st post := by
  cases isNext : st.ae.lowestUnallocated[bucket]? with
  | none =>
    refine fun aligned => safe_bind (safe_get_bind ?_)
    rw [isNext]
    refine safe_fail fun start low count formed _ => ?_
    exact nomatch isNext.symm.trans (List.getElem?_eq_getElem (inRange start low count formed))
  | some seqNo =>
    refine fun aligned => safe_bind (safe_get_bind ?_)
    rw [isNext]
    exact safe_pure (continued seqNo isNext aligned)

theorem does_advanceProposal_bind {next : ProposalBucket → GoProc AeState γ}
    (continued : ∀ prb, (epochWalk heard 1).Does (next prb) st post) :
    (epochWalk heard 1).Does (advanceProposal bucket seqNo >>= next) st post := by
  refine fun aligned => safe_bind (safe_get_bind ?_)
  split
  · exact safe_fail fun _ _ _ _ member => absurd member (by simp [windowFailures])
  · exact safe_pure (continued _ aligned)

theorem walks_proposeFull (fuel : Nat) (mine : st.ae.owner bucket = st.ae.myConfig.id)
    (inRange : bucket < st.ae.bucketCount) : Walks heard (proposeFull bucket fuel) st := by
  induction fuel generalizing st with
  | zero => exact walks_pure () st
  | succ fuel ih =>
    refine does_get_bind (does_unallocated_bind (fun _ _ _ formed => formed.unallocated ▸ inRange)
      fun seqNo isNext =>
      does_lift_bind (fun _ => highWatermark_excuses) fun high isHigh => does_ite
        (fun _ => walks_pure () st) fun inWindow => does_advanceProposal_bind fun prb => does_ite
        (fun _ => ?_)
          fun _ => walks_setProposal bucket prb st)
    intro aligned
    refine safe_bind (safe_modify (safe_rest aligned .keep ?_))
    refine does_bind (does_frame (walks_propose _ isNext mine isHigh (Nat.le_of_not_lt inWindow))) ?_
    rintro mid _ _ ⟨frame, _⟩
    refine ih ((frame.owner bucket).trans ?_) (frame.bucketCount ▸ inRange)
    rw [frame.myConfig]
    exact mine

theorem walks_proposeBucket (inRange : bucket < st.ae.bucketCount) :
    Walks heard (proposeBucket bucket) st :=
  does_get_bind (does_ite (fun _ => walks_pure () st) fun mine =>
    does_unallocated_bind (fun _ _ _ formed => formed.unallocated ▸ inRange) fun _ _ =>
      does_lift_bind (fun _ => highWatermark_excuses) fun _ _ =>
        walks_proposeFull _ (not_not.mp mine) inRange)

/-- **After the window is extended**: the buffers are drained and what is pending is proposed. -/
theorem walks_settle (nb : Nat) {st : AeState} (count : st.ae.bucketCount = nb) : Walks heard (do
    drainBuffers
    let drained ← Proc.get
    let proposer ← onShared (drained.ae.proposer.advance drained.ae.lowestUncommitted)
    assign fun ae => { ae with proposer }
    forEach proposeBucket (List.range nb)) st := by
  refine does_bind (does_frame (walks_drainBuffers st)) fun drained _ _ holds => does_get_bind ?_
  intro aligned
  refine safe_bind (safe_zoom (safe_get_bind (safe_lift_bind
    (excuses_component (Proposer.queueAll_failsOnly _ _ _ _)) fun proposer _ => safe_bind (safe_modify
      (safe_pure (safe_bind (safe_modify (safe_rest aligned .keep ?_))))))))
  refine does_mono (does_forEach (fun mid => st.ae.Frame mid.ae)
    ⟨holds.1.1, holds.1.2, holds.1.3, holds.1.4, holds.1.5⟩
    fun bucket member mid _ frame => ?_) fun _ _ _ _ => trivial
  have inRange : bucket < mid.ae.bucketCount := by
    rw [frame.bucketCount, count]
    exact mem_range.mp member
  exact does_mono (does_frame (walks_proposeBucket inRange)) fun _ _ _ kept => frame.trans kept.1

theorem does_advance (st : AeState) : (epochWalk heard 1).Does advance st fun final _ =>
    0 < st.ae.interval → final.Full := by
  refine does_get_bind (does_lift_bind (fun _ => highWatermark_excuses) fun high isHigh =>
    does_ite (fun beyond => does_fail fun _ _ _ _ formed _ => ?_) fun _ =>
      does_ite (fun beyond => does_fail fun _ _ _ _ formed _ => ?_) fun _ => ?_)
  · exact absurd (formed.high_le isHigh).1 (Nat.not_le.mpr beyond)
  · exact absurd (formed.high_le isHigh).2 (Nat.not_le.mpr beyond)
  refine does_bind (does_frame (does_extendWindow _)) fun mid _ _ extended => ?_
  obtain ⟨frame, isFull⟩ := extended
  have settled := @walks_settle heard st.ae.bucketCount mid frame.bucketCount
  refine does_mono (does_keep (fun later => 0 < st.ae.interval → later.Full)
    (fun positive => isFull positive high isHigh (le_refl _))
    (fun _ _ _ full step positive => EpochStep.full (full positive) step)
    settled) fun _ _ _ holds => holds.1

/-! ### Ticks -/

theorem walks_heartbeat (inRange : bucket < st.ae.lowestUnallocated.length) :
    Walks heard (heartbeat bucket) st := by
  refine does_get_bind (does_unallocated_bind (fun _ _ _ _ => inRange) fun seqNo isNext =>
    does_lift_bind (fun _ => highWatermark_excuses) fun high isHigh => does_ite
      (fun _ => walks_pure () st) fun inWindow => does_ite (fun _ => walks_pure () st) fun mine =>
        does_advanceProposal_bind fun prb => ?_)
  -- With or without a batch that waits, the bucket's next sequence is allocated.
  have proposes (prb : ProposalBucket) (clientRequests : List RequestAck) : Walks heard (do
      setProposal bucket prb
      propose bucket seqNo clientRequests) st := fun aligned =>
    safe_bind (safe_modify (safe_rest aligned .keep
      (walks_propose clientRequests isNext (not_not.mp mine) isHigh (Nat.le_of_not_lt inWindow))))
  exact does_ite (fun _ => proposes _ _) fun _ => proposes _ _

theorem walks_suspectAfter (ticks : Nat) (st : AeState) : Walks heard (suspectAfter ticks) st := by
  refine does_get_bind (does_ite (fun _ => does_single fun _ => ?_) fun _ => walks_pure () st)
  refine safe_bind (safe_emit (safe_zoom (safe_get_bind (safe_lift_bind
    (excuses_logTail (Persisted.appendLogEntry_fails _ _)) fun result added => ?_))))
  exact safe_bind (safe_modify (safe_emit ⟨.suspect added, trivial⟩))

theorem walks_tick (st : AeState) : Walks heard tick st := by
  have counted {update : ActiveEpoch → ActiveEpoch} (st : AeState)
    (same : ∃ lastCommittedAtTick ticksSinceProgress,
      update st.ae = { st.ae with lastCommittedAtTick, ticksSinceProgress }) :
      Walks heard (assign update) st := by
    obtain ⟨last, ticks, isUpdate⟩ := same
    refine does_single fun _ => safe_modify ⟨?_, trivial⟩
    rw [isUpdate]
    exact .keep
  refine does_get_bind (does_ite (fun _ => counted st ⟨_, _, rfl⟩) fun _ => does_bind
    (counted st ⟨_, _, rfl⟩) fun mid _ _ _ => does_bind (walks_suspectAfter _ mid) fun late _ _ _ =>
      does_get_bind (does_ite (fun _ => walks_pure () late) fun _ => ?_))
  refine does_mono (does_forEach (fun mid => late.ae.Frame mid.ae) (.refl _)
    fun bucket member mid _ frame => ?_)
    fun _ _ _ _ => trivial
  have inRange : bucket < mid.ae.lowestUnallocated.length := by
    rw [frame.cursors]
    exact mem_range.mp member
  exact does_mono (does_frame (walks_heartbeat inRange)) fun _ _ _ kept => frame.trans kept.1

/-! ### Hash results -/

theorem safe_applyBatchHashResult (seqNo : Nat) (digest : Bytes) (st : AeState) :
    safe (st.Excuses 1) (applyBatchHashResult seqNo digest) st fun final actions _ =>
      (final = st ∧ actions = []) ∨ ∃ s next p, st.ae.heap seqNo = some s ∧
        (SeqOp.applyBatchHashResult digest).run st.sh.clients.agreements s st.sh.persisted =
          .ok ((next, p), actions) ∧ final = st.withSequence seqNo next p := by
  refine safe_get_bind (safe_lift_bind (inWindow_excuses seqNo) fun applyable isApplyable => ?_)
  cases applyable with
  | current =>
    exact safe_onSequence (sequence_excuses (.of_inWindow isApplyable))
      (fun s _ => excuses_logTail (Sequence.applyPrepareMsg_failsOnly _ _ _ _))
      fun s next p actions found ran => .inr ⟨s, next, p, found, ran, rfl⟩
  | past | future | invalid => exact safe_pure (.inl ⟨rfl, rfl⟩)

end ActiveEpoch

end MirBft
