/-
**Which requests a follower waits for.**

A follower that gets a batch waits for its requests to become available. Two maps of the epoch and a
set in each sequence say which ones it waits for, all by digest.

* `Tracking`: what holds in every run. A sequence waits exactly while its set is not empty, and a
  digest leads to a sequence that has it in its set, so that `satisfyOutstanding` never fails;
* `Exact`: what holds while no two requests share a digest (`Distinct`). The set of a sequence is
  made of the requests of its batch that were not delivered;
* `requests_tracked`: a sequence has left `pendingRequests` exactly if all of its requests were
  delivered.

Without `Distinct` the epoch takes one request for another: `shared_digest_confuses` has a batch
that is accepted although its request is not available, and one that waits although its request is.
-/

import MirBft.Model.EpochNetwork
import MirBft.Proof.ActiveMoves
import MirBft.Proof.FourNodes

namespace MirBft

open Proc List ActiveEpoch Function

namespace AllOutstandingReqs

variable {ao after : AllOutstandingReqs} {bucket seqNo : Nat} {batch : List RequestAck}
  {outstandingReqs waiting : Finset Bytes}

/-- One request of a batch: its cursor moves, and it is taken from the correct ones or waited
for. -/
theorem applyAcksFrom_cons_eq_ok {req : RequestAck}
    (ran : ao.applyAcksFrom bucket seqNo outstandingReqs (req :: batch) = .ok (after, waiting)) :
    ∃ buckets, (∃ clients co, ao.buckets.lookup bucket = some clients ∧
    clients.lookup req.clientId = some co ∧
        co.nextReqNo = req.reqNo ∧ buckets = ao.buckets.insert bucket (clients.insert req.clientId
          (ClientOutstandingReqs.skipPreviouslyCommitted
          { co with nextReqNo := co.nextReqNo + co.numBuckets }))) ∧
      ((req.digest ∈ ao.correctRequests ∧
        applyAcksFrom bucket seqNo
          { ao with buckets, correctRequests := ao.correctRequests.erase req.digest } outstandingReqs
          batch = .ok (after, waiting)) ∨
      (req.digest ∉ ao.correctRequests ∧
        applyAcksFrom bucket seqNo
          { ao with
            buckets, outstandingRequests := ao.outstandingRequests.insert req.digest seqNo }
          (insert req.digest outstandingReqs) batch = .ok (after, waiting))) := by
  unfold applyAcksFrom at ran
  split at ran
  · cases ran
  rename_i clients isClients
  split at ran
  · cases ran
  rename_i co isCo
  split at ran
  · cases ran
  rename_i isNext
  refine ⟨_, ⟨clients, co, isClients, isCo, not_not.mp isNext, rfl⟩, ?_⟩
  by_cases correct : req.digest ∈ ao.correctRequests
  · rw [if_pos correct] at ran
    exact .inl ⟨correct, ran⟩
  · rw [if_neg correct] at ran
    exact .inr ⟨correct, ran⟩

/-- **What the loop adds to the map** leads to the sequence, which waits for it. -/
theorem applyAcksFrom_waits
    (ran : ao.applyAcksFrom bucket seqNo outstandingReqs batch = .ok (after, waiting)) :
    outstandingReqs ⊆ waiting ∧ ∀ digest found, after.outstandingRequests.lookup digest = some found →
      (found = seqNo ∧ digest ∈ waiting) ∨ ao.outstandingRequests.lookup digest = some found := by
  induction batch generalizing ao outstandingReqs with
  | nil =>
    obtain ⟨rfl, rfl⟩ := ran
    exact ⟨Finset.Subset.refl _, fun _ _ found => .inr found⟩
  | cons req rest ih =>
    obtain ⟨buckets, _, ⟨_, ran⟩ | ⟨_, ran⟩⟩ := applyAcksFrom_cons_eq_ok ran
    · obtain ⟨subset, leads⟩ := ih ran
      exact ⟨subset, leads⟩
    · obtain ⟨subset, leads⟩ := ih ran
      refine ⟨(Finset.subset_insert _ _).trans subset, fun digest found isFound => ?_⟩
      rcases leads digest found isFound with waits | earlier
      · exact .inl waits
      · rcases GoMap.of_lookup_insert earlier with ⟨rfl, rfl⟩ | ⟨_, earlier⟩
        · exact .inl ⟨rfl, subset (Finset.mem_insert_self _ _)⟩
        · exact .inr earlier

/-- **A batch of distinct digests**: those of correct requests are taken from them, and all others
are waited for. -/
theorem applyAcksFrom_distinct (distinct : (batch.map RequestAck.digest).Nodup)
    (ran : ao.applyAcksFrom bucket seqNo outstandingReqs batch = .ok (after, waiting)) :
    (∀ digest, digest ∈ after.correctRequests ↔
        digest ∈ ao.correctRequests ∧ digest ∉ batch.map RequestAck.digest) ∧
      (∀ digest, digest ∈ waiting ↔ digest ∈ outstandingReqs ∨
        digest ∈ batch.map RequestAck.digest ∧ digest ∉ ao.correctRequests) ∧
      ∀ digest, after.outstandingRequests.lookup digest =
        if digest ∈ batch.map RequestAck.digest ∧ digest ∉ ao.correctRequests then some seqNo
        else ao.outstandingRequests.lookup digest := by
  induction batch generalizing ao outstandingReqs with
  | nil =>
    obtain ⟨rfl, rfl⟩ := ran
    simp
  | cons req rest ih =>
    rw [map_cons, nodup_cons] at distinct
    obtain ⟨fresh, restDistinct⟩ := distinct
    obtain ⟨buckets, _, ⟨correct, ran⟩ | ⟨incorrect, ran⟩⟩ := applyAcksFrom_cons_eq_ok ran
    · obtain ⟨corrects, waits, leads⟩ := ih restDistinct ran
      simp only [AList.mem_erase] at corrects waits leads
      refine ⟨fun digest => ?_, fun digest => ?_, fun digest => ?_⟩
      · rw [corrects, map_cons, mem_cons]
        tauto
      · rw [waits, map_cons]
        by_cases same : digest = req.digest
        · subst same
          simp [fresh, correct]
        · simp [same]
      · simp only [leads]
        by_cases same : digest = req.digest
        · subst same
          simp [fresh, correct]
        · simp [same]
    · obtain ⟨corrects, waits, leads⟩ := ih restDistinct ran
      refine ⟨fun digest => ?_, fun digest => ?_, fun digest => ?_⟩
      · rw [corrects, map_cons]
        refine and_congr_right fun isCorrect => ?_
        have ne : digest ≠ req.digest := fun same => incorrect (same ▸ isCorrect)
        simp [ne]
      · rw [waits, map_cons]
        by_cases same : digest = req.digest
        · subst same
          simp [incorrect]
        · simp [same]
      · simp only [leads]
        by_cases same : digest = req.digest
        · subst same
          simp [incorrect]
        · simp [same]

theorem applyAcks_eq_ok (ran : ao.applyAcks bucket seqNo batch = .ok (after, waiting)) :
    ao.applyAcksFrom bucket seqNo ∅ batch = .ok (after, waiting) := by
  unfold applyAcks at ran
  split at ran
  · cases ran
  · exact ran

end AllOutstandingReqs

/-! ### The requests of one sequence -/

namespace Sequence

variable {agreements : RequestAck → Finset NodeID} {s after : Sequence} {p p' : Persisted}
  {actions : List Action}

/-- **A sequence that advances waits exactly while it has outstanding requests.** -/
theorem advanceState_pending_iff
    (advanced : s.advanceState agreements p = .ok ((after, p'), actions))
    (waits : s.outstandingReqs ≠ ∅ → s.state = .pendingRequests) :
    after.state = .pendingRequests ↔ s.outstandingReqs ≠ ∅ := by
  have same : after.outstandingReqs = s.outstandingReqs := by
    rw [(advanceState_eq_ok advanced).1.frame]
  constructor
  · intro pending
    -- A round does not change the end of the loop.
    have stable := advanceState_stable advanced
    unfold advanceOnce at stable
    simp only [pending, pure_eq_ok, Prod.mk.injEq, and_true] at stable
    rw [← same]
    intro none
    unfold checkRequests at stable
    rw [if_neg (by simp [none])] at stable
    rw [← stable] at pending
    cases pending
  · intro outstanding
    have stays : s.state = .pendingRequests ∧ s.outstandingReqs ≠ ∅ →
        after.state = .pendingRequests := by
      refine untilStable_invariant (fun before final _ => before.1.state = .pendingRequests ∧
        before.1.outstandingReqs ≠ ∅ → final.1.state = .pendingRequests) (fun _ both => both.1) ?_
        advanced
      intro before mid final _ _ stepped later both
      rcases advanceOnce_eq_ok stepped with ⟨rfl, _⟩ | step
      · exact later both
      · cases step with
        | requestsReady _ none => exact absurd none both.2
        | preprepare here _ _ | prepare here _ _ | commit here _ =>
          rw [here] at both
          cases both.1
    exact stays ⟨waits outstanding, outstanding⟩

/-- A sequence without a batch waits for nothing, one with a batch while it has outstanding
requests. An owner waits for nothing. -/
structure Awaits (s : Sequence) : Prop where
  fresh : s.state = .uninitialized → s.batch = [] ∧ s.outstandingReqs = ∅
  pending : s.state ≠ .uninitialized → (s.state = .pendingRequests ↔ s.outstandingReqs ≠ ∅)
  owner : s.owner = s.myConfig.id → s.outstandingReqs = ∅

theorem Awaits.waits (awaits : s.Awaits) (outstanding : s.outstandingReqs ≠ ∅) :
    s.state = .pendingRequests :=
  (awaits.pending fun fresh => outstanding (awaits.fresh fresh).2).mpr outstanding

end Sequence

namespace SeqOp

variable {agreements : RequestAck → Finset NodeID} {s next : Sequence} {op : SeqOp}
  {p p' : Persisted} {actions : List Action}

/-- **A vote or a hash leaves the batch and what it waits for.** -/
theorem run_keeps_requests (foreign : op.Foreign s) (quiet : op.batch? = none)
    (unsatisfied : ∀ ack, op ≠ satisfyOutstanding ack) (awaits : s.Awaits)
    (ran : op.run agreements s p = .ok ((next, p'), actions)) :
    next.batch = s.batch ∧ next.outstandingReqs = s.outstandingReqs ∧ next.Awaits := by
  rcases run_advances foreign ran with ⟨rfl, _⟩ | ⟨mid, more, recorded, advanced, _⟩
  · exact ⟨rfl, rfl, awaits⟩
  have kept : mid.state = s.state ∧ mid.batch = s.batch ∧ mid.outstandingReqs = s.outstandingReqs ∧
      mid.owner = s.owner ∧ mid.myConfig = s.myConfig := by
    cases recorded with
    | allocate _ _ isBatch _ | allocateEmpty _ _ isBatch =>
      rw [quiet] at isBatch
      cases isBatch
    | satisfyOutstanding => exact absurd rfl (unsatisfied _)
    | _ => exact ⟨rfl, rfl, rfl, rfl, rfl⟩
  obtain ⟨state, batch, outstanding, owner, my⟩ := kept
  have done := (Sequence.advanceState_eq_ok advanced).1
  have nextBatch : next.batch = s.batch := by rw [done.frame, ← batch]
  have nextOutstanding : next.outstandingReqs = s.outstandingReqs := by rw [done.frame, ← outstanding]
  refine ⟨nextBatch, nextOutstanding, ⟨fun fresh => ?_, fun _ => ?_, fun mine => ?_⟩⟩
  · have low := done.rank_le
    rw [fresh, state] at low
    have wasFresh := SequenceState.eq_uninitialized (Nat.le_zero.mp low)
    rw [nextBatch, nextOutstanding]
    exact awaits.fresh wasFresh
  · rw [Sequence.advanceState_pending_iff advanced ?_, outstanding, nextOutstanding]
    rw [outstanding, state]
    exact awaits.waits
  · rw [done.frame] at mine
    rw [nextOutstanding]
    exact awaits.owner (by rw [← owner, ← my]; exact mine)

end SeqOp

variable {agreements : RequestAck → Finset NodeID} {s next : Sequence} {p p' : Persisted}
  {actions : List Action}

/-- **An allocation gives a sequence its batch** and what it waits for. -/
theorem Sequence.allocate_awaits {batch : List RequestAck} {waiting : Finset Bytes}
    (none : batch = [] → waiting = ∅) (owner : s.owner = s.myConfig.id → waiting = ∅)
    (ran : s.allocate agreements p batch waiting = .ok ((next, p'), actions)) :
    s.state = .uninitialized ∧ next.batch = batch ∧ next.outstandingReqs = waiting ∧ next.Awaits := by
  obtain ⟨fresh, allocated⟩ := SeqOp.allocate_eq_ok ran
  have advancedFrom {mid : Sequence} {more : List Action}
      (advanced : mid.advanceState agreements p = .ok ((next, p'), more))
      (started : 2 ≤ mid.state.rank) (isBatch : mid.batch = batch)
      (isWaiting : mid.outstandingReqs = waiting) (isOwner : mid.owner = s.owner)
      (my : mid.myConfig = s.myConfig) (waits : waiting ≠ ∅ → mid.state = .pendingRequests) :
      next.batch = batch ∧ next.outstandingReqs = waiting ∧ next.Awaits := by
    have done := (advanceState_eq_ok advanced).1
    have nextBatch : next.batch = batch := by rw [done.frame, ← isBatch]
    have nextWaiting : next.outstandingReqs = waiting := by rw [done.frame, ← isWaiting]
    refine ⟨nextBatch, nextWaiting, ⟨fun isFresh => ?_, fun _ => ?_, fun mine => ?_⟩⟩
    · have low := done.rank_le
      rw [isFresh] at low
      have zero : SequenceState.rank .uninitialized = 0 := rfl
      omega
    · rw [advanceState_pending_iff advanced (by rwa [isWaiting]), isWaiting, nextWaiting]
    · rw [done.frame] at mine
      rw [nextWaiting]
      exact owner (by rw [← isOwner, ← my]; exact mine)
  refine ⟨fresh, ?_⟩
  rcases allocated with ⟨rfl, advanced⟩ | ⟨nonempty, more, advanced, _⟩
  · have three : 2 ≤ SequenceState.rank .ready := by decide
    exact advancedFrom advanced three rfl rfl rfl rfl fun some => absurd (none rfl) some
  · have two : 2 ≤ SequenceState.rank .pendingRequests := by decide
    exact advancedFrom advanced two rfl rfl rfl rfl fun _ => rfl

/-- A request that becomes available is not waited for any more. -/
theorem Sequence.satisfyOutstanding_awaits {ack : RequestAck}
    (awaits : s.Awaits) (ran : s.satisfyOutstanding agreements p ack = .ok ((next, p'), actions)) :
    next.batch = s.batch ∧ next.outstandingReqs = s.outstandingReqs.erase ack.digest ∧
      next.Awaits := by
  unfold satisfyOutstanding at ran
  split at ran
  · cases ran
  rename_i member
  rw [not_not] at member
  have pending := awaits.waits (Finset.ne_empty_of_mem member)
  have done := (advanceState_eq_ok ran).1
  have nextOutstanding : next.outstandingReqs = s.outstandingReqs.erase ack.digest := by
    rw [done.frame]
  refine ⟨by rw [done.frame], nextOutstanding, ⟨fun fresh => ?_, fun _ => ?_, fun mine => ?_⟩⟩
  · have low := done.rank_le
    rw [fresh, show Sequence.state _ = .pendingRequests from pending] at low
    exact absurd low (by decide)
  · rw [advanceState_pending_iff ran fun _ => pending, nextOutstanding]
  · rw [done.frame] at mine
    rw [awaits.owner mine] at member
    exact absurd member (Finset.notMem_empty _)

/-! ### The requests of the epoch -/

/-- A follower's sequence has the request in its batch. -/
def Preprepared (heap : Nat → Option Sequence) (seqNo : Nat) (request : RequestAck) : Prop :=
  ∃ s, heap seqNo = some s ∧ s.owner ≠ s.myConfig.id ∧ request ∈ s.batch

/-- **No two requests share a digest**: not two of the batches that were preprepared, and not one of
them and another one that was delivered. -/
structure Distinct (heap : Nat → Option Sequence) (delivered : List RequestAck) : Prop where
  within : ∀ seqNo s, heap seqNo = some s → s.owner ≠ s.myConfig.id →
    (s.batch.map RequestAck.digest).Nodup
  across : ∀ seqNo other request request', Preprepared heap seqNo request →
    Preprepared heap other request' → request.digest = request'.digest → seqNo = other
  delivered : ∀ seqNo request request', Preprepared heap seqNo request → request' ∈ delivered →
    request'.digest = request.digest → request' = request

/-- **What holds of the requests in every run.** -/
structure Tracking (heap : Nat → Option Sequence) (requests : AllOutstandingReqs) : Prop where
  awaits : ∀ seqNo s, heap seqNo = some s → s.Awaits
  leads : ∀ digest seqNo, requests.outstandingRequests.lookup digest = some seqNo →
    ∃ s, heap seqNo = some s ∧ digest ∈ s.outstandingReqs

/-- **What holds of the requests while no two share a digest.** -/
structure Exact (heap : Nat → Option Sequence) (requests : AllOutstandingReqs)
    (delivered : List RequestAck) : Prop where
  outstanding : ∀ seqNo s, heap seqNo = some s → s.owner ≠ s.myConfig.id → ∀ digest,
    digest ∈ s.outstandingReqs ↔ ∃ request ∈ s.batch, request.digest = digest ∧ request ∉ delivered
  waited : ∀ seqNo s, heap seqNo = some s → ∀ digest ∈ s.outstandingReqs,
    requests.outstandingRequests.lookup digest = some seqNo
  correct : ∀ digest ∈ requests.correctRequests, ∃ request ∈ delivered, request.digest = digest
  kept : ∀ request ∈ delivered, request.digest ∈ requests.correctRequests ∨
    ∃ seqNo, Preprepared heap seqNo request

/-- The invariant of an epoch's requests. -/
def RequestInv (heap : Nat → Option Sequence) (requests : AllOutstandingReqs)
    (delivered : List RequestAck) : Prop :=
  Tracking heap requests ∧ (Distinct heap delivered → Exact heap requests delivered)

section Replace

variable {heap : Nat → Option Sequence} {requests : AllOutstandingReqs} {delivered : List RequestAck}
  {seqNo : Nat} {s next : Sequence} {ack : RequestAck}

/-- A sequence keeps its identity, and a follower the batch it has. -/
structure Replaced (s next : Sequence) : Prop where
  owner : next.owner = s.owner
  my : next.myConfig = s.myConfig
  batch : s.owner ≠ s.myConfig.id → s.batch = next.batch ∨ s.batch = []

theorem Replaced.follower (replaced : Replaced s next) (follower : s.owner ≠ s.myConfig.id) :
    next.owner ≠ next.myConfig.id := by
  rw [replaced.owner, replaced.my]
  exact follower

theorem Preprepared.replace (found : heap seqNo = some s) (replaced : Replaced s next)
    {other : Nat} {request : RequestAck} (preprepared : Preprepared heap other request) :
    Preprepared (update heap seqNo (some next)) other request := by
  obtain ⟨t, isOther, follower, member⟩ := preprepared
  by_cases same : other = seqNo
  · subst same
    rw [found, Option.some.injEq] at isOther
    subst isOther
    refine ⟨next, update_self _ _ _, replaced.follower follower, ?_⟩
    rcases replaced.batch follower with isBatch | empty
    · rwa [← isBatch]
    · rw [empty] at member
      cases member
  · exact ⟨t, by rwa [update_of_ne same], follower, member⟩

theorem Distinct.of_replace {more : List RequestAck} (found : heap seqNo = some s)
    (replaced : Replaced s next) (subset : delivered ⊆ more)
    (distinct : Distinct (update heap seqNo (some next)) more) : Distinct heap delivered where
  within other t isOther follower := by
    by_cases same : other = seqNo
    · subst same
      rw [found, Option.some.injEq] at isOther
      subst isOther
      rcases replaced.batch follower with isBatch | empty
      · rw [isBatch]
        exact distinct.within other next (update_self _ _ _) (replaced.follower follower)
      · rw [empty]
        exact nodup_nil
    · exact distinct.within other t (by rwa [update_of_ne same]) follower
  across first second request request' isFirst isSecond :=
    distinct.across first second request request' (isFirst.replace found replaced)
      (isSecond.replace found replaced)
  delivered other request request' isOther member :=
    distinct.delivered other request request' (isOther.replace found replaced) (subset member)

variable (inv : RequestInv heap requests delivered)
include inv

/-- **A sequence that keeps its requests.** -/
theorem RequestInv.replace (found : heap seqNo = some s)
    (replaced : Replaced s next) (sameBatch : s.owner ≠ s.myConfig.id → next.batch = s.batch)
    (same : next.outstandingReqs = s.outstandingReqs) (awaits : next.Awaits) :
    RequestInv (update heap seqNo (some next)) requests delivered := by
  refine ⟨⟨fun other t isOther => ?_, fun digest other isWaiting => ?_⟩, fun distinct => ?_⟩
  · rcases heap_update isOther with ⟨rfl, rfl⟩ | ⟨_, isOther⟩
    · exact awaits
    · exact inv.1.awaits other t isOther
  · obtain ⟨t, isOther, member⟩ := inv.1.leads digest other isWaiting
    by_cases isSeqNo : other = seqNo
    · subst isSeqNo
      rw [found, Option.some.injEq] at isOther
      subst isOther
      exact ⟨next, update_self _ _ _, by rwa [same]⟩
    · exact ⟨t, by rwa [update_of_ne isSeqNo], member⟩
  · have precise := inv.2 (distinct.of_replace found replaced (List.Subset.refl _))
    refine ⟨fun other t isOther follower digest => ?_, fun other t isOther digest member => ?_,
      precise.correct, fun request member => ?_⟩
    · rcases heap_update isOther with ⟨rfl, rfl⟩ | ⟨_, isOther⟩
      · rw [replaced.owner, replaced.my] at follower
        rw [same, sameBatch follower]
        exact precise.outstanding other s found follower digest
      · exact precise.outstanding other t isOther follower digest
    · rcases heap_update isOther with ⟨rfl, rfl⟩ | ⟨_, isOther⟩
      · rw [same] at member
        exact precise.waited other s found digest member
      · exact precise.waited other t isOther digest member
    · rcases precise.kept request member with correct | ⟨other, preprepared⟩
      · exact .inl correct
      · exact .inr ⟨other, preprepared.replace found replaced⟩

/-- **A follower gets a batch.** -/
theorem RequestInv.allocate (found : heap seqNo = some s)
    (follower : s.owner ≠ s.myConfig.id) (replaced : Replaced s next)
    (fresh : s.state = .uninitialized) {bucket : Nat} {after : AllOutstandingReqs}
    {waiting : Finset Bytes} (applied : requests.applyAcks bucket seqNo next.batch = .ok (after, waiting))
    (isWaiting : next.outstandingReqs = waiting) (awaits : next.Awaits) :
    RequestInv (update heap seqNo (some next)) after delivered := by
  have ran := AllOutstandingReqs.applyAcks_eq_ok applied
  obtain ⟨noBatch, nothing⟩ := (inv.1.awaits seqNo s found).fresh fresh
  refine ⟨⟨fun other t isOther => ?_, fun digest other isFound => ?_⟩, fun distinct => ?_⟩
  · rcases heap_update isOther with ⟨rfl, rfl⟩ | ⟨_, isOther⟩
    · exact awaits
    · exact inv.1.awaits other t isOther
  · rcases (AllOutstandingReqs.applyAcksFrom_waits ran).2 digest other isFound with
      ⟨rfl, member⟩ | earlier
    · exact ⟨next, update_self _ _ _, by rwa [isWaiting]⟩
    · obtain ⟨t, isOther, member⟩ := inv.1.leads digest other earlier
      have ne : other ≠ seqNo := by
        rintro rfl
        rw [found, Option.some.injEq] at isOther
        subst isOther
        rw [nothing] at member
        exact absurd member (Finset.notMem_empty _)
      exact ⟨t, by rwa [update_of_ne ne], member⟩
  have precise := inv.2 (distinct.of_replace found replaced (List.Subset.refl _))
  have isNext : update heap seqNo (some next) seqNo = some next := update_self _ _ _
  have nextFollower := replaced.follower follower
  have preprepares {request : RequestAck} (member : request ∈ next.batch) :
      Preprepared (update heap seqNo (some next)) seqNo request :=
    ⟨next, isNext, nextFollower, member⟩
  -- No other batch has a digest of the new one.
  have alone {other : Nat} {request request' : RequestAck} (preprepared : Preprepared heap other request)
      (member : request' ∈ next.batch) : request.digest ≠ request'.digest := by
    intro same
    obtain rfl := distinct.across other seqNo request request' (preprepared.replace found replaced)
      (preprepares member) same
    obtain ⟨t, isOther, _, isRequest⟩ := preprepared
    rw [found, Option.some.injEq] at isOther
    subst isOther
    rw [noBatch] at isRequest
    cases isRequest
  obtain ⟨corrects, waits, leads⟩ :=
    AllOutstandingReqs.applyAcksFrom_distinct (distinct.within seqNo next isNext nextFollower) ran
  simp only [Finset.notMem_empty, false_or] at waits
  -- The requests of the batch that were delivered are the correct ones.
  have delivered_iff {request : RequestAck} (member : request ∈ next.batch) :
      request ∈ delivered ↔ request.digest ∈ requests.correctRequests := by
    constructor
    · intro isDelivered
      rcases precise.kept request isDelivered with correct | ⟨other, preprepared⟩
      · exact correct
      · exact absurd rfl (alone preprepared member)
    · intro correct
      obtain ⟨request', isDelivered, same⟩ := precise.correct _ correct
      rwa [← distinct.delivered seqNo request request' (preprepares member) isDelivered same]
  refine ⟨fun other t isOther isFollower digest => ?_, fun other t isOther digest member => ?_,
    fun digest correct => ?_, fun request member => ?_⟩
  · rcases heap_update isOther with ⟨rfl, rfl⟩ | ⟨_, isOther⟩
    · rw [isWaiting, waits, mem_map]
      constructor
      · rintro ⟨⟨request, member, rfl⟩, incorrect⟩
        exact ⟨request, member, rfl, fun isDelivered => incorrect ((delivered_iff member).mp isDelivered)⟩
      · rintro ⟨request, member, rfl, undelivered⟩
        exact ⟨⟨request, member, rfl⟩, fun correct => undelivered ((delivered_iff member).mpr correct)⟩
    · exact precise.outstanding other t isOther isFollower digest
  · simp only [leads]
    rcases heap_update isOther with ⟨rfl, rfl⟩ | ⟨ne, isOther⟩
    · rw [isWaiting, waits] at member
      rw [if_pos member]
    · rw [if_neg, precise.waited other t isOther digest member]
      rintro ⟨isDigest, _⟩
      obtain ⟨request', inBatch, rfl⟩ := mem_map.mp isDigest
      have otherAwaits := inv.1.awaits other t isOther
      have otherFollower : t.owner ≠ t.myConfig.id := by
        intro mine
        rw [otherAwaits.owner mine] at member
        exact absurd member (Finset.notMem_empty _)
      obtain ⟨request, isRequest, same, _⟩ :=
        (precise.outstanding other t isOther otherFollower request'.digest).mp member
      exact alone ⟨t, isOther, otherFollower, isRequest⟩ inBatch same
  · exact precise.correct digest ((corrects digest).mp correct).1
  · by_cases inBatch : request ∈ next.batch
    · exact .inr ⟨seqNo, preprepares inBatch⟩
    · rcases precise.kept request member with correct | ⟨other, preprepared⟩
      · refine .inl ((corrects _).mpr ⟨correct, fun isDigest => ?_⟩)
        obtain ⟨request', isRequest, same⟩ := mem_map.mp isDigest
        have isSame := distinct.delivered seqNo request' request (preprepares isRequest) member same.symm
        exact inBatch (isSame ▸ isRequest)
      · exact .inr ⟨other, preprepared.replace found replaced⟩

/-- **A request becomes available** that no sequence waits for. -/
theorem RequestInv.available
    (unawaited : requests.outstandingRequests.lookup ack.digest = none) :
    RequestInv heap
      { requests with correctRequests := requests.correctRequests.insert ack.digest ack }
      (delivered ++ [ack]) := by
  refine ⟨⟨inv.1.awaits, inv.1.leads⟩, fun distinct => ?_⟩
  have before : Distinct heap delivered :=
    ⟨distinct.within, distinct.across, fun seqNo request request' preprepared member =>
      distinct.delivered seqNo request request' preprepared (mem_append_left _ member)⟩
  have precise := inv.2 before
  refine ⟨fun seqNo s found follower digest => ?_, precise.waited, fun digest correct => ?_,
    fun request member => ?_⟩
  · rw [precise.outstanding seqNo s found follower]
    constructor
    · rintro ⟨request, member, rfl, undelivered⟩
      refine ⟨request, member, rfl, fun isDelivered => ?_⟩
      rcases mem_append.mp isDelivered with earlier | last
      · exact undelivered earlier
      · -- The request would have been waited for.
        rw [mem_singleton] at last
        subst last
        have waiting := (precise.outstanding seqNo s found follower request.digest).mpr
          ⟨request, member, rfl, undelivered⟩
        rw [precise.waited seqNo s found request.digest waiting] at unawaited
        cases unawaited
    · rintro ⟨request, member, rfl, undelivered⟩
      exact ⟨request, member, rfl, fun isDelivered => undelivered (mem_append_left _ isDelivered)⟩
  · rcases (AList.mem_insert _).mp correct with rfl | earlier
    · exact ⟨ack, by simp, rfl⟩
    · obtain ⟨request, member, same⟩ := precise.correct digest earlier
      exact ⟨request, mem_append_left _ member, same⟩
  · rcases mem_append.mp member with earlier | last
    · rcases precise.kept request earlier with correct | preprepared
      · exact .inl ((AList.mem_insert _).mpr (.inr correct))
      · exact .inr preprepared
    · rw [mem_singleton] at last
      exact .inl ((AList.mem_insert _).mpr (.inl (by rw [last])))

/-- **A request becomes available** that a sequence waits for. -/
theorem RequestInv.satisfy
    (awaited : requests.outstandingRequests.lookup ack.digest = some seqNo)
    (found : heap seqNo = some s) (replaced : Replaced s next) (sameBatch : next.batch = s.batch)
    (isOutstanding : next.outstandingReqs = s.outstandingReqs.erase ack.digest)
    (awaits : next.Awaits) :
    RequestInv (update heap seqNo (some next))
      { requests with outstandingRequests := requests.outstandingRequests.erase ack.digest }
      (delivered ++ [ack]) := by
  have waiting : ack.digest ∈ s.outstandingReqs := by
    obtain ⟨t, isFound, member⟩ := inv.1.leads _ _ awaited
    rw [found, Option.some.injEq] at isFound
    rwa [isFound]
  have follower : s.owner ≠ s.myConfig.id := by
    intro mine
    rw [(inv.1.awaits seqNo s found).owner mine] at waiting
    exact absurd waiting (Finset.notMem_empty _)
  refine ⟨⟨fun other t isOther => ?_, fun digest other isFound => ?_⟩, fun distinct => ?_⟩
  · rcases heap_update isOther with ⟨rfl, rfl⟩ | ⟨_, isOther⟩
    · exact awaits
    · exact inv.1.awaits other t isOther
  · have ne : digest ≠ ack.digest := by
      rintro rfl
      rw [AList.lookup_erase] at isFound
      cases isFound
    rw [AList.lookup_erase_ne ne] at isFound
    obtain ⟨t, isOther, member⟩ := inv.1.leads digest other isFound
    by_cases same : other = seqNo
    · subst same
      rw [found, Option.some.injEq] at isOther
      subst isOther
      exact ⟨next, update_self _ _ _, by rw [isOutstanding]; exact Finset.mem_erase_of_ne_of_mem ne member⟩
    · exact ⟨t, by rwa [update_of_ne same], member⟩
  have precise := inv.2 (distinct.of_replace found replaced (subset_append_left _ _))
  -- The request that is waited for is the one that became available.
  obtain ⟨request, inBatch, sameDigest, undelivered⟩ :=
    (precise.outstanding seqNo s found follower ack.digest).mp waiting
  have preprepared : Preprepared (update heap seqNo (some next)) seqNo request :=
    ⟨next, update_self _ _ _, replaced.follower follower, by rwa [sameBatch]⟩
  obtain rfl := distinct.delivered seqNo request ack preprepared (by simp) sameDigest.symm
  refine ⟨fun other t isOther isFollower digest => ?_, fun other t isOther digest member => ?_,
    fun digest correct => ?_, fun request member => ?_⟩
  · rcases heap_update isOther with ⟨rfl, rfl⟩ | ⟨ne, isOther⟩
    · rw [isOutstanding, Finset.mem_erase, precise.outstanding other s found follower, sameBatch]
      constructor
      · rintro ⟨ne, request, member, rfl, isNew⟩
        refine ⟨request, member, rfl, fun isDelivered => ?_⟩
        rcases mem_append.mp isDelivered with earlier | last
        · exact isNew earlier
        · exact ne (by rw [mem_singleton.mp last])
      · rintro ⟨request, member, rfl, isNew⟩
        refine ⟨fun same => isNew ?_, request, member, rfl,
          fun isDelivered => isNew (mem_append_left _ isDelivered)⟩
        have isRequest : Preprepared (update heap other (some t)) other request :=
          ⟨t, update_self _ _ _, replaced.follower follower, by rwa [sameBatch]⟩
        rw [← distinct.delivered other request ack isRequest (by simp) same.symm]
        simp
    · rw [precise.outstanding other t isOther isFollower]
      constructor
      · rintro ⟨request, member, rfl, isNew⟩
        refine ⟨request, member, rfl, fun isDelivered => ?_⟩
        rcases mem_append.mp isDelivered with earlier | last
        · exact isNew earlier
        · rw [mem_singleton] at last
          subst last
          have second : Preprepared heap other request := ⟨t, isOther, isFollower, member⟩
          exact ne (distinct.across other seqNo request request (second.replace found replaced)
            preprepared rfl)
      · rintro ⟨request, member, rfl, isNew⟩
        exact ⟨request, member, rfl, fun isDelivered => isNew (mem_append_left _ isDelivered)⟩
  · rcases heap_update isOther with ⟨rfl, rfl⟩ | ⟨ne, isOther⟩
    · rw [isOutstanding, Finset.mem_erase] at member
      rw [AList.lookup_erase_ne member.1]
      exact precise.waited other s found digest member.2
    · have isWaited := precise.waited other t isOther digest member
      have differs : digest ≠ ack.digest := by
        rintro rfl
        rw [awaited, Option.some.injEq] at isWaited
        exact ne isWaited.symm
      rw [AList.lookup_erase_ne differs]
      exact isWaited
  · obtain ⟨request, member, same⟩ := precise.correct digest correct
    exact ⟨request, mem_append_left _ member, same⟩
  · rcases mem_append.mp member with earlier | last
    · rcases precise.kept request earlier with correct | ⟨other, isOther⟩
      · exact .inl correct
      · exact .inr ⟨other, isOther.replace found replaced⟩
    · rw [mem_singleton] at last
      subst last
      exact .inr ⟨seqNo, preprepared⟩

/-- **New sequences** have no batch. -/
theorem RequestInv.extend {after : Nat → Option Sequence}
    (fresh : ∀ seqNo, after seqNo = heap seqNo ∨ heap seqNo = none ∧
      ∃ owner epoch nc my, after seqNo = some (newSequence owner epoch seqNo nc my)) :
    RequestInv after requests delivered := by
  have old {seqNo : Nat} {s : Sequence} (found : heap seqNo = some s) : after seqNo = some s := by
    rcases fresh seqNo with same | ⟨none, _⟩
    · rw [same, found]
    · rw [none] at found
      cases found
  have cases {seqNo : Nat} {s : Sequence} (found : after seqNo = some s) : heap seqNo = some s ∨
      s.state = .uninitialized ∧ s.batch = [] ∧ s.outstandingReqs = ∅ := by
    rcases fresh seqNo with same | ⟨_, owner, epoch, nc, my, isNew⟩
    · exact .inl (by rw [← same, found])
    · rw [isNew, Option.some.injEq] at found
      subst found
      exact .inr ⟨rfl, rfl, rfl⟩
  have preprepared {seqNo : Nat} {request : RequestAck} :
      Preprepared after seqNo request ↔ Preprepared heap seqNo request := by
    constructor
    · rintro ⟨s, found, follower, member⟩
      rcases cases found with isOld | ⟨_, empty, _⟩
      · exact ⟨s, isOld, follower, member⟩
      · rw [empty] at member
        cases member
    · rintro ⟨s, found, follower, member⟩
      exact ⟨s, old found, follower, member⟩
  refine ⟨⟨fun seqNo s found => ?_, fun digest seqNo isFound => ?_⟩, fun distinct => ?_⟩
  · rcases cases found with isOld | ⟨state, batch, outstanding⟩
    · exact inv.1.awaits seqNo s isOld
    · exact ⟨fun _ => ⟨batch, outstanding⟩, fun started => absurd state started, fun _ => outstanding⟩
  · obtain ⟨s, found, member⟩ := inv.1.leads digest seqNo isFound
    exact ⟨s, old found, member⟩
  · have before : Distinct heap delivered :=
      ⟨fun seqNo s found => distinct.within seqNo s (old found),
        fun first second request request' isFirst isSecond => distinct.across first second request request'
          (preprepared.mpr isFirst) (preprepared.mpr isSecond),
        fun seqNo request request' isRequest => distinct.delivered seqNo request request'
          (preprepared.mpr isRequest)⟩
    have precise := inv.2 before
    refine ⟨fun seqNo s found follower digest => ?_, fun seqNo s found digest member => ?_,
      precise.correct, fun request member => ?_⟩
    · rcases cases found with isOld | ⟨_, batch, outstanding⟩
      · exact precise.outstanding seqNo s isOld follower digest
      · simp [batch, outstanding]
    · rcases cases found with isOld | ⟨_, _, outstanding⟩
      · exact precise.waited seqNo s isOld digest member
      · rw [outstanding] at member
        exact absurd member (Finset.notMem_empty _)
    · rcases precise.kept request member with correct | ⟨seqNo, isRequest⟩
      · exact .inl correct
      · exact .inr ⟨seqNo, preprepared.mpr isRequest⟩

end Replace

/-! ### Moves and runs -/

variable {heard : NodeID → Msg → Prop} {v after : ActiveView} {actions : List Action} {op : SeqOp}
  {hash : Bytes → Bytes} {st : AeState}

theorem Replaced.of_run (foreign : op.Foreign s)
    (ran : op.run agreements s p = .ok ((next, p'), actions))
    (batch : s.owner ≠ s.myConfig.id → s.batch = next.batch ∨ s.batch = []) : Replaced s next := by
  obtain ⟨_, owner, my, _⟩ := SeqOp.run_identity foreign ran
  exact ⟨owner, my, batch⟩

section

variable (inv : RequestInv v.heap v.requests v.delivered)
include inv

theorem RequestInv.vote {seqNo : Nat}
    (found : v.heap seqNo = some s) (foreign : op.Foreign s) (quiet : op.batch? = none)
    (unsatisfied : ∀ ack, op ≠ .satisfyOutstanding ack)
    (ran : op.run agreements s p = .ok ((next, p'), actions)) :
    RequestInv (update v.heap seqNo (some next)) v.requests v.delivered := by
  obtain ⟨batch, outstanding, awaits⟩ :=
    SeqOp.run_keeps_requests foreign quiet unsatisfied (inv.1.awaits seqNo s found) ran
  exact inv.replace found (.of_run foreign ran fun _ => .inl batch.symm) (fun _ => batch) outstanding
    awaits

theorem RequestInv.move
    (move : ActiveMove heard v after actions) :
    RequestInv after.heap after.requests after.delivered := by
  cases move with
  | @operate seqNo s agreements next p _ op found routine ran =>
    cases op with
    | allocateAsOwner clientRequests =>
      have mine : s.owner = s.myConfig.id := routine
      obtain ⟨fresh, _, outstanding, awaits⟩ :=
        Sequence.allocate_awaits (fun _ => rfl) (fun _ => rfl) ran
      obtain ⟨_, nothing⟩ := (inv.1.awaits seqNo s found).fresh fresh
      exact inv.replace found (.of_run (by simp [SeqOp.Foreign]) ran fun other => absurd mine other)
        (fun other => absurd mine other) (outstanding.trans nothing.symm) awaits
    | applyBatchHashResult digest => exact inv.vote found (by simp [SeqOp.Foreign]) rfl (by simp) ran
    | applyPreprepareBack => exact inv.vote found (by simp [SeqOp.Foreign]) rfl (by simp) ran
    | applyPrepareMsg source digest =>
      have foreign : (SeqOp.applyPrepareMsg source digest).Foreign s := by
        rintro _ _ ⟨⟩
        exact routine.1
      exact inv.vote found foreign rfl (by simp) ran
    | _ => cases routine
  | voteCommit found _ ran => exact inv.vote found (by simp [SeqOp.Foreign]) rfl (by simp) ran
  | @allocate bucket seqNo s batch requests waiting agreements next p _ found follower _ applied ran =>
    have empty : batch = [] → waiting = ∅ := by
      rintro rfl
      have loop := AllOutstandingReqs.applyAcks_eq_ok applied
      rw [AllOutstandingReqs.applyAcksFrom, pure_eq_ok, Prod.mk.injEq] at loop
      exact loop.2.symm
    obtain ⟨fresh, rfl, outstanding, awaits⟩ :=
      Sequence.allocate_awaits empty (fun mine => absurd mine follower) ran
    obtain ⟨noBatch, _⟩ := (inv.1.awaits seqNo s found).fresh fresh
    exact inv.allocate found follower (.of_run (by simp [SeqOp.Foreign]) ran fun _ => .inr noBatch)
      fresh applied outstanding awaits
  | available unawaited => exact inv.available unawaited
  | @satisfy ack seqNo s agreements next p _ awaited found ran =>
    obtain ⟨batch, outstanding, awaits⟩ :=
      Sequence.satisfyOutstanding_awaits (inv.1.awaits seqNo s found) ran
    exact inv.satisfy awaited found
      (.of_run (by simp [SeqOp.Foreign]) ran fun _ => .inl batch.symm) batch outstanding awaits
  | commit => exact inv
  | @extend high p _ heap bounded _ isHeap =>
    refine inv.extend fun seqNo => ?_
    by_cases inside : high < seqNo ∧ seqNo ≤ high + v.networkConfig.checkpointInterval
    · exact .inr ⟨bounded seqNo inside.1, _, _, _, _, (isHeap seqNo).trans (if_pos inside)⟩
    · exact .inl ((isHeap seqNo).trans (if_neg inside))
  | suspect => exact inv

theorem RequestInv.moves
    (moved : Steps (ActiveMove heard) v after actions) :
    RequestInv after.heap after.requests after.delivered := by
  induction moved with
  | refl => exact inv
  | cons move _ ih => exact ih (inv.move move)

/-- The requests a call takes from the `availableList`. -/
def EpochCall.delivered (sh : Shared) : EpochCall → List RequestAck
  | .advanceRequests => sh.clients.tracker.availableList.pending
  | _ => []

/-- **The runs of an active epoch**, with the requests that were delivered to it. Between two calls
the shared components may change in any way. -/
inductive EpochRun (config : EpochConfig) (hash : Bytes → Bytes) : AeState → List RequestAck → Prop
  | start {sh sh' actions ae} : ActiveEpoch.new config sh = .ok (sh', actions, ae) →
      EpochRun config hash ⟨ae, sh'⟩ sh.clients.tracker.availableList.resetIterator.pending
  | call {st delivered st' actions} (sh : Shared) (call : EpochCall) : EpochRun config hash st delivered →
      call.run hash { st with sh } = .ok (st', actions, ()) →
      EpochRun config hash st' (delivered ++ call.delivered sh)

/-! ### A new epoch -/

end

theorem wp_new (config : EpochConfig) (sh : Shared) :
    wp (ActiveEpoch.new config) sh fun _ _ ae => Aligned heard ae ∧
      RequestInv ae.heap ae.outstandingReqs
        sh.clients.tracker.availableList.resetIterator.pending := by
  refine wp_and (wp_mono (wp_new_fresh config sh) fun _ _ _ fresh => fresh.aligned) ?_
  refine wp_get_bind ?_
  rw [wp_bind]
  refine wp_get_bind ?_
  rw [wp_bind, wp_modify, wp_pure]
  refine wp_lift_bind fun buckets _ => ?_
  rw [wp_bind]
  intro _ _ proposer _
  rw [wp_pure]
  refine ⟨⟨fun seqNo s found => (nomatch found), fun digest seqNo found => (nomatch found)⟩, fun _ => ?_⟩
  refine ⟨fun seqNo s found => (nomatch found), fun seqNo s found => (nomatch found),
    fun digest correct => ?_, fun request member => ?_⟩
  · exact GoMap.mem_foldl_insert.mp correct
  · exact .inl (GoMap.mem_foldl_insert.mpr ⟨request, member, rfl⟩)

/-- **A call of a method makes moves.** -/
theorem EpochCall.moves (call : EpochCall) (aligned : Aligned (fun _ _ => True) st.ae) :
    wp (call.run hash) st fun final actions _ => Aligned (fun _ _ => True) final.ae ∧ ∀ delivered,
      Steps (ActiveMove fun _ _ => True) (st.view delivered)
        (final.view (delivered ++ call.delivered st.sh)) actions := by
  -- Every call but `advanceRequests` delivers nothing.
  have silent {m : GoProc AeState Unit} (follows : Has (Follows fun _ _ => True) m) :
      wp m st fun final actions _ => Aligned (fun _ _ => True) final.ae ∧ ∀ delivered,
        Steps (ActiveMove fun _ _ => True) (st.view delivered) (final.view (delivered ++ [])) actions := by
    refine wp_mono (follows st) fun final actions _ done => ?_
    simp only [append_nil]
    exact done aligned
  cases call with
  | step source msg => exact silent (follows_step trivial)
  | hashResult data origin =>
    cases origin with
    | batch source epoch seqNo requestAcks =>
      exact silent (follows_applyBatchHashResult seqNo _)
    | _ => exact silent (has_pure ())
  | tick => exact silent follows_tick
  | advance => exact silent follows_advance
  | drainBuffers => exact silent follows_drainBuffers
  | moveLowWatermark seqNo =>
    exact silent (has_bind (follows_moveLowWatermark seqNo) fun _ => has_pure ())
  | advanceRequests => exact wp_move_advanceRequests aligned

theorem EpochRun.invariant {config : EpochConfig}
    {delivered : List RequestAck} (run : EpochRun config hash st delivered) :
    Aligned (fun _ _ => True) st.ae ∧ RequestInv st.ae.heap st.ae.outstandingReqs delivered := by
  induction run with
  | start created => exact wp_new _ _ _ _ _ created
  | @call st delivered st' actions sh call _ ran ih =>
    obtain ⟨aligned, inv⟩ := ih
    obtain ⟨stillAligned, moved⟩ :=
      @EpochCall.moves hash { st with sh } call aligned st' actions () ran
    exact ⟨stillAligned, RequestInv.moves inv (moved delivered)⟩

/-! ### The assertion of `satisfyOutstanding` -/

/-- **The assertion never fails.** -/
theorem advanceRequests_failsOnly {delivered : List RequestAck}
    (aligned : Aligned (fun _ _ => True) st.ae)
    (inv : RequestInv st.ae.heap st.ae.outstandingReqs delivered) :
    FailsOnly (· ≠ "told request was ready but we weren't waiting for it")
      (ActiveEpoch.advanceRequests st) := by
  refine failsOnly_bind (by rintro _ ⟨⟩) (wp_get _ _ |>.mpr ?_)
  refine failsOnly_bind (by rintro _ ⟨⟩) ?_
  rw [ActiveEpoch.onShared, wp_zoom, wp_modify]
  -- The invariant of the loop: the epoch is aligned, and its requests are tracked.
  refine failsOnly_forEach (fun mid => Aligned (fun _ _ => True) mid.ae ∧
    ∃ delivered, RequestInv mid.ae.heap mid.ae.outstandingReqs delivered) ⟨aligned, delivered, inv⟩ ?_
  rintro ack _ mid ⟨midAligned, done, midInv⟩
  refine ⟨?_, wp_mono (wp_move_advanceRequest ack midAligned) ?_⟩
  · refine failsOnly_bind (by rintro _ ⟨⟩) (wp_get _ _ |>.mpr ?_)
    cases awaited : mid.ae.outstandingReqs.outstandingRequests.lookup ack.digest with
    | none => rintro _ ⟨⟩
    | some seqNo =>
      obtain ⟨s, found, member⟩ := midInv.1.leads _ _ awaited
      simp only [found]
      refine failsOnly_bind (by rintro _ ⟨⟩) ?_
      rw [ActiveEpoch.assign, wp_modify]
      refine failsOnly_bind (by rintro _ ⟨⟩) (wp_get _ _ |>.mpr ?_)
      refine failsOnly_bind (failsOnly_lift ?_ _) fun _ _ _ _ => ?_
      · intro failure failed
        rw [Sequence.satisfyOutstanding_failsOnly member failure failed]
        decide
      · rintro _ ⟨⟩
  · rintro final actions _ ⟨finalAligned, moved⟩
    exact ⟨finalAligned, done ++ [ack], RequestInv.moves midInv (moved done)⟩

/-- **The requests of an active epoch.** In every run the assertion of `satisfyOutstanding` holds;
and while no two requests share a digest, a follower's sequence has left `pendingRequests` exactly
if all the requests of its batch were delivered. -/
theorem requests_tracked {config : EpochConfig} {hash : Bytes → Bytes} {st : AeState}
    {delivered : List RequestAck} (run : EpochRun config hash st delivered) :
    (∀ sh, FailsOnly (· ≠ "told request was ready but we weren't waiting for it")
        (ActiveEpoch.advanceRequests { st with sh })) ∧
      (Distinct st.ae.heap delivered → ∀ seqNo s, st.ae.heap seqNo = some s →
        s.owner ≠ s.myConfig.id → s.state ≠ .uninitialized →
        (s.state ≠ .pendingRequests ↔ ∀ request ∈ s.batch, request ∈ delivered)) := by
  obtain ⟨aligned, inv⟩ := run.invariant
  refine ⟨fun sh => advanceRequests_failsOnly aligned inv, fun distinct seqNo s found follower started => ?_⟩
  have precise := inv.2 distinct
  rw [ne_eq, (inv.1.awaits seqNo s found).pending started, not_not]
  constructor
  · intro nothing request member
    by_contra undelivered
    have waiting := (precise.outstanding seqNo s found follower request.digest).mpr
      ⟨request, member, rfl, undelivered⟩
    rw [nothing] at waiting
    exact absurd waiting (Finset.notMem_empty _)
  · intro all
    refine Finset.eq_empty_of_forall_notMem fun digest waiting => ?_
    obtain ⟨request, member, _, undelivered⟩ :=
      (precise.outstanding seqNo s found follower digest).mp waiting
    exact undelivered (all request member)

/-! ### A follower with two clients -/

namespace TwoClients

/-- The shared components with requests that have become available. -/
def offer (acks : List RequestAck) (sh : Shared) : Shared :=
  { sh with clients := { sh.clients with
      tracker := { sh.clients.tracker with
        availableList := { sh.clients.tracker.availableList with pending := acks } } } }

/-- Calls one after the other, each with the requests that have become available. -/
def execute (hash : Bytes → Bytes) (st : AeState) (delivered : List RequestAck) :
    List (List RequestAck × EpochCall) → Option (AeState × List RequestAck)
  | [] => some (st, delivered)
  | (acks, call) :: rest => match call.run hash { st with sh := offer acks st.sh } with
    | .ok (after, _, _) => execute hash after (delivered ++ call.delivered (offer acks st.sh)) rest
    | .error _ => none

theorem run_of_execute {config : EpochConfig} {hash : Bytes → Bytes} {st : AeState}
    {delivered : List RequestAck} {calls : List (List RequestAck × EpochCall)}
    {result : AeState × List RequestAck} (run : EpochRun config hash st delivered)
    (executed : execute hash st delivered calls = some result) :
    EpochRun config hash result.1 result.2 := by
  induction calls generalizing st delivered with
  | nil =>
    cases executed
    exact run
  | cons first rest ih =>
    obtain ⟨acks, call⟩ := first
    unfold execute at executed
    split at executed
    · rename_i after actions _ ran
      exact ih (.call (offer acks st.sh) call run ran) executed
    · cases executed

def config : EpochConfig := FourNodes.epochConfig

/-- The components of node one, with two clients. -/
def components : Shared :=
  let sh := FourNodes.shared 1
  { sh with commitState := { sh.commitState with
      activeState := ⟨FourNodes.networkConfig, [⟨8, 4, 0, 0, []⟩, ⟨9, 4, 0, 0, []⟩], []⟩ } }

theorem new_isOk : (ActiveEpoch.new config components).isOk = true := by
  have assigned : ActiveEpoch.assignBuckets config FourNodes.networkConfig.nodes 0
      (List.range FourNodes.networkConfig.numberOfBuckets) = .ok [0, 0, 0, 0] := by decide
  exact new_isOk_of_assigned assigned

/-- Node one at the start of the epoch. -/
def begun : AeState :=
  let started := okValue (ActiveEpoch.new config components) new_isOk
  ⟨started.2.2, started.1⟩

theorem begun_run : EpochRun config (fun bytes => bytes) begun [] :=
  .start (eq_ok_okValue _ new_isOk)

/-- The first request of each client. -/
def ofEight (digest : Bytes) : RequestAck := ⟨8, 0, digest⟩

def ofNine (digest : Bytes) : RequestAck := ⟨9, 0, digest⟩

/-- The request of client nine is proposed, and becomes available afterwards. -/
def plainCalls : List (List RequestAck × EpochCall) :=
  [([], .advance), ([], .step 0 (.preprepare 1 1 [ofNine [7]])), ([ofNine [7]], .advanceRequests)]

/-- The request has been delivered, and its sequence is ready. -/
theorem requests_tracked_plain : ∃ st delivered s, EpochRun config (fun bytes => bytes) st delivered ∧
    Distinct st.ae.heap delivered ∧ st.ae.heap 1 = some s ∧ s.batch = [ofNine [7]] ∧
    s.state ≠ .pendingRequests ∧ ∀ request ∈ s.batch, request ∈ delivered := by
  have evaluated : ∃ result, execute (fun bytes => bytes) begun [] plainCalls = some result ∧
      result.2 = [ofNine [7]] ∧ result.1.highWatermark = .ok 5 ∧
      (∀ seqNo < 6, ∀ s ∈ result.1.ae.heap seqNo, s.batch = if seqNo = 1 then [ofNine [7]] else []) ∧
      ∃ s, result.1.ae.heap 1 = some s ∧ s.owner ≠ s.myConfig.id ∧ s.state = .ready := by
    decide +kernel
  obtain ⟨⟨st, _⟩, executed, rfl, high, batches, s, isFirst, follower, ready⟩ := evaluated
  have run := run_of_execute begun_run executed
  have batch : ∀ seqNo s, st.ae.heap seqNo = some s →
      s.batch = if seqNo = 1 then [ofNine [7]] else [] := by
    intro seqNo s found
    by_cases below : seqNo < 6
    · exact batches seqNo below s found
    · have beyond := run.invariant.1.bounded st.sh 5 high seqNo (by omega)
      rw [beyond] at found
      cases found
  have only : ∀ seqNo request, Preprepared st.ae.heap seqNo request →
      seqNo = 1 ∧ request = ofNine [7] := by
    rintro seqNo request ⟨s, found, -, member⟩
    rw [batch seqNo s found] at member
    by_cases isOne : seqNo = 1
    · rw [if_pos isOne] at member
      exact ⟨isOne, mem_singleton.mp member⟩
    · rw [if_neg isOne] at member
      cases member
  have distinct : Distinct st.ae.heap [ofNine [7]] := by
    refine ⟨fun seqNo s found _ => ?_, fun seqNo other request request' first second _ => ?_,
      fun seqNo request request' prepared member _ => ?_⟩
    · rw [batch seqNo s found]
      split <;> simp
    · rw [(only _ _ first).1, (only _ _ second).1]
    · rw [(only _ _ prepared).2, mem_singleton.mp member]
  have left : s.state ≠ .pendingRequests := by
    rw [ready]
    decide
  have delivers := ((requests_tracked run).2 distinct 1 s isFirst follower (by rw [ready]; decide)).mp left
  exact ⟨st, _, s, run, distinct, isFirst, batch 1 s isFirst, left, delivers⟩

/-- The request of client eight becomes available, and the owner proposes that of client nine with
the same digest, and then that of client eight. -/
def confusingCalls : List (List RequestAck × EpochCall) :=
  [([], .advance), ([ofEight [7]], .advanceRequests), ([], .step 0 (.preprepare 1 1 [ofNine [7]])),
    ([], .step 0 (.preprepare 4 1 [ofEight [7]]))]

/-- **A shared digest confuses the requests**: sequence one has left `pendingRequests` although its
request was not delivered, and sequence four waits although its request was. -/
theorem shared_digest_confuses : ∃ st delivered s t, EpochRun config (fun bytes => bytes) st delivered ∧
    st.ae.heap 1 = some s ∧ s.owner ≠ s.myConfig.id ∧ s.state = .ready ∧ s.batch = [ofNine [7]] ∧
    ofNine [7] ∉ delivered ∧ st.ae.heap 4 = some t ∧ t.owner ≠ t.myConfig.id ∧
    t.state = .pendingRequests ∧ ∀ request ∈ t.batch, request ∈ delivered := by
  have evaluated : ∃ result, execute (fun bytes => bytes) begun [] confusingCalls = some result ∧
      (∃ s, result.1.ae.heap 1 = some s ∧ s.owner ≠ s.myConfig.id ∧ s.state = .ready ∧
        s.batch = [ofNine [7]] ∧ ofNine [7] ∉ result.2) ∧
      ∃ t, result.1.ae.heap 4 = some t ∧ t.owner ≠ t.myConfig.id ∧ t.state = .pendingRequests ∧
        ∀ request ∈ t.batch, request ∈ result.2 := by
    decide +kernel
  obtain ⟨⟨st, delivered⟩, executed, ⟨s, isFirst, foreign, ready, batch, undelivered⟩, t, fourth⟩ := evaluated
  exact ⟨st, delivered, s, t, run_of_execute begun_run executed, isFirst, foreign, ready, batch,
    undelivered, fourth⟩

end TwoClients

end MirBft
