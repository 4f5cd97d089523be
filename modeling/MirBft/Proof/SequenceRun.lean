/-
**Runs of one sequence.**

* `Advanced`: what `advanceState` as a whole may have done, in terms of the sequence before it. It
  changes the state and the `qEntry` and nothing else, so every vote stands as it was counted;
* `SeqOp`: the operations an active epoch performs on a sequence, and `Admitted`: when it performs
  them. The hash result of a batch comes once, after its allocation; the owner's preprepare comes
  back to it once, after it was sent; a prepare of the owner is filtered out;
* `Recorded`: what an operation writes before it advances the sequence (`run_eq_ok`);
* `SeqRun`: the runs, with a condition on each step, and `SeqRun.basic`: what holds in all of them.
-/

import MirBft.Model.Sequence

namespace MirBft

open List

theorem Persisted.append_silent {p p' : Persisted} {entry : Persistent} {actions : List Action}
    (appended : p.appendLogEntry entry = .ok (p', actions)) :
    sentMsgs actions = [] ∧ hashRequests actions = [] := by
  obtain ⟨_, rfl⟩ := Persisted.appendLogEntry_eq_ok appended
  exact ⟨rfl, rfl⟩

theorem SequenceState.eq_uninitialized {state : SequenceState} (zero : state.rank = 0) :
    state = .uninitialized := by
  cases state <;> simp [SequenceState.rank] at zero ⊢

namespace Sequence

variable {agreements : RequestAck → Finset NodeID} {s after : Sequence} {p p' : Persisted}
  {actions : List Action}

/-- **What `advanceState` has done** to a sequence, and sent. -/
structure Advanced (s after : Sequence) (sent : List Msg) : Prop where
  frame : after = { s with state := after.state, qEntry := after.qEntry }
  rank_le : s.state.rank ≤ after.state.rank
  idle : s.state.rank < 2 → after.state = s.state
  entered : s.state.rank < 4 → 4 ≤ after.state.rank → (s.digest.isSome || s.batch.isEmpty) = true
  prepared : s.state.rank < 5 → 5 ≤ after.state.rank → s.prepareQuorum = true
  committed : s.state.rank < 6 → 6 ≤ after.state.rank → s.commitQuorum = true
  sentMsg : ∀ msg ∈ sent,
    (s.state.rank < 4 ∧ 4 ≤ after.state.rank ∧
      if s.owner = s.myConfig.id then msg = .preprepare s.seqNo s.epoch s.batch
      else msg = .prepare s.seqNo s.epoch s.digestKey) ∨
    (s.state.rank < 5 ∧ 5 ≤ after.state.rank ∧ msg = .commit s.seqNo s.epoch s.digestKey)
  qEntry : after.qEntry = s.qEntry ∨ s.state.rank < 4 ∧ 4 ≤ after.state.rank ∧
    after.qEntry = some ⟨s.seqNo, s.digestKey, s.batch⟩

theorem Advanced.refl (s : Sequence) : Advanced s s [] where
  frame := rfl
  rank_le := le_refl _
  idle := fun _ => rfl
  entered := fun low high => absurd high (Nat.not_le.mpr low)
  prepared := fun low high => absurd high (Nat.not_le.mpr low)
  committed := fun low high => absurd high (Nat.not_le.mpr low)
  sentMsg := by simp
  qEntry := .inl rfl

theorem sentMsgs_prepareActions (agreements : RequestAck → Finset NodeID) (s : Sequence) :
    sentMsgs (prepareActions agreements s) =
      [if s.owner = s.myConfig.id then .preprepare s.seqNo s.epoch s.batch
        else .prepare s.seqNo s.epoch s.digestKey] ∧ hashRequests (prepareActions agreements s) = [] := by
  have forwards (requests : List RequestAck) (targets : RequestAck → List NodeID) :
      sentMsgs (requests.map fun ack => .forwardRequest (targets ack) ack) = [] ∧
        hashRequests (requests.map fun ack => .forwardRequest (targets ack) ack) = [] := by
    induction requests with
    | nil => exact ⟨rfl, rfl⟩
    | cons ack rest ih => exact ih
  unfold prepareActions
  split
  · rw [sentMsgs_append, hashRequests_append, (forwards _ _).1, (forwards _ _).2]
    exact ⟨rfl, rfl⟩
  · exact ⟨rfl, rfl⟩

theorem Advanced.trans {mid : Sequence} {first second : List Msg} (one : Advanced s mid first)
    (two : Advanced mid after second) : Advanced s after (first ++ second) := by
  have frame := one.frame
  have rank := one.rank_le
  generalize mid.state = state, mid.qEntry = qEntry at frame
  subst frame
  have rankOn : state.rank ≤ after.state.rank := two.rank_le
  refine ⟨two.frame, one.rank_le.trans two.rank_le, fun low => ?_, fun low high => ?_, fun low high => ?_,
    fun low high => ?_, fun msg member => ?_, ?_⟩
  · have same : state = s.state := one.idle low
    subst same
    exact two.idle low
  · by_cases early : state.rank < 4
    · exact two.entered early high
    · exact one.entered low (Nat.le_of_not_lt early)
  · by_cases early : state.rank < 5
    · exact two.prepared early high
    · exact one.prepared low (Nat.le_of_not_lt early)
  · by_cases early : state.rank < 6
    · exact two.committed early high
    · exact one.committed low (Nat.le_of_not_lt early)
  · rcases mem_append.mp member with earlier | later
    · rcases one.sentMsg msg earlier with ⟨low, high, same⟩ | ⟨low, high, same⟩
      · exact .inl ⟨low, high.trans rankOn, same⟩
      · exact .inr ⟨low, high.trans rankOn, same⟩
    · rcases two.sentMsg msg later with ⟨low, high, same⟩ | ⟨low, high, same⟩
      · exact .inl ⟨rank.trans_lt low, high, same⟩
      · exact .inr ⟨rank.trans_lt low, high, same⟩
  · rcases two.qEntry with same | ⟨low, high, same⟩
    · exact one.qEntry.imp same.trans fun ⟨low, high, entered⟩ => ⟨low, high.trans rankOn, same.trans entered⟩
    · exact .inr ⟨rank.trans_lt low, high, same⟩

/-- A sequence that has not started does not start by itself. -/
theorem Advanced.fresh_iff {sent : List Msg} (advanced : Advanced s after sent) :
    after.state = .uninitialized ↔ s.state = .uninitialized := by
  constructor
  · intro fresh
    have rank := advanced.rank_le
    rw [fresh] at rank
    exact SequenceState.eq_uninitialized (Nat.le_zero.mp rank)
  · intro fresh
    rw [advanced.idle (by rw [fresh]; decide), fresh]

theorem Advance.advanced {before next : SeqState} (step : Advance agreements before next actions) :
    Advanced before.1 next.1 (sentMsgs actions) ∧ hashRequests actions = [] := by
  cases step with
  | @requestsReady s p here _ =>
    have rank : s.state.rank = 2 := by rw [here]; rfl
    have three : SequenceState.rank .ready = 3 := rfl
    refine ⟨⟨rfl, ?_, ?_, ?_, ?_, ?_, nofun, .inl rfl⟩, rfl⟩
    all_goals simp only [rank]; omega
  | @preprepare s p p' appended here hashed added =>
    have rank : s.state.rank = 3 := by rw [here]; rfl
    have four : SequenceState.rank s.entered.state = 4 := rfl
    obtain ⟨_, rfl⟩ := Persisted.appendLogEntry_eq_ok added
    obtain ⟨sent, asked⟩ := sentMsgs_prepareActions agreements s
    refine ⟨⟨rfl, ?_, ?_, fun _ _ => hashed, ?_, ?_, fun msg member => ?_, .inr ⟨?_, ?_, rfl⟩⟩, ?_⟩
    any_goals simp only [rank]; omega
    · rw [sentMsgs_append, sent] at member
      have own := mem_singleton.mp member
      split at own <;> simp_all
    · rw [hashRequests_append, asked]
      rfl
  | @prepare s p p' appended here quorum added =>
    have rank : s.state.rank = 4 := by rw [here]; rfl
    have five : SequenceState.rank .prepared = 5 := rfl
    obtain ⟨_, rfl⟩ := Persisted.appendLogEntry_eq_ok added
    refine ⟨⟨rfl, ?_, ?_, ?_, fun _ _ => quorum, ?_, fun msg member => .inr ⟨?_, le_refl _, ?_⟩,
      .inl rfl⟩, rfl⟩
    any_goals simp only [rank]; omega
    exact mem_singleton.mp member
  | @commit s p here quorum =>
    have rank : s.state.rank = 5 := by rw [here]; rfl
    have six : SequenceState.rank .committed = 6 := rfl
    refine ⟨⟨rfl, ?_, ?_, ?_, ?_, fun _ _ => quorum, nofun, .inl rfl⟩, rfl⟩
    all_goals simp only [rank]; omega

/-- **The spec of `advanceState`**, which asks for no hash. -/
theorem advanceState_eq_ok (advanced : s.advanceState agreements p = .ok ((after, p'), actions)) :
    Advanced s after (sentMsgs actions) ∧ hashRequests actions = [] := by
  refine untilStable_invariant (fun before after actions =>
    Advanced before.1 after.1 (sentMsgs actions) ∧ hashRequests actions = [])
    (fun state => ⟨Advanced.refl state.1, rfl⟩) ?_ advanced
  intro before mid final emitted rest stepped done
  rcases advanceOnce_eq_ok stepped with ⟨rfl, rfl⟩ | step
  · exact done
  · rw [sentMsgs_append, hashRequests_append, step.advanced.2, done.2]
    exact ⟨step.advanced.1.trans done.1, rfl⟩

/-- **A settled sequence waits for something**: for requests, for its digest, or for a quorum. -/
structure Settled (s : Sequence) : Prop where
  requests : s.state = .pendingRequests → s.outstandingReqs ≠ ∅
  digest : s.state = .ready → (s.digest.isSome || s.batch.isEmpty) = false
  prepares : s.state = .preprepared → s.prepareQuorum = false

theorem Settled.new (owner : NodeID) (epoch seqNo : Nat) (nc : NetworkConfig)
    (my : InitialParameters) : (newSequence owner epoch seqNo nc my).Settled :=
  ⟨nofun, nofun, nofun⟩

/-- An advance ends in a settled sequence. -/
theorem settled_of_advanceState (advanced : s.advanceState agreements p = .ok ((after, p'), actions)) :
    after.Settled := by
  have stable := advanceState_stable advanced
  unfold advanceOnce at stable
  refine ⟨fun pending => ?_, fun ready => ?_, fun preprepared => ?_⟩
  · simp only [pending, pure_eq_ok, Prod.mk.injEq, and_true, checkRequests] at stable
    intro none
    rw [none] at stable
    have same := congrArg Sequence.state stable
    simp [pending] at same
  · simp only [ready] at stable
    by_contra hashed
    rw [if_pos (Bool.eq_true_of_not_eq_false hashed)] at stable
    obtain ⟨⟨_, _⟩, _, returned⟩ := bind_eq_ok.mp stable
    simp only [pure_eq_ok, Prod.mk.injEq] at returned
    have same := congrArg Sequence.state returned.1.1
    rw [ready] at same
    cases same
  · simp only [preprepared, checkPrepareQuorum] at stable
    by_contra quorum
    rw [if_pos (Bool.eq_true_of_not_eq_false quorum)] at stable
    obtain ⟨⟨_, _⟩, _, returned⟩ := bind_eq_ok.mp stable
    simp only [pure_eq_ok, Prod.mk.injEq] at returned
    have same := congrArg Sequence.state returned.1.1
    rw [preprepared] at same
    cases same

end Sequence

/-! ### The operations of an active epoch on a sequence -/

/-- The operations an active epoch performs on a sequence. `applyPreprepareBack` is the owner's
reaction to its own preprepare (`activeEpoch.applyPreprepareMsg`). -/
inductive SeqOp where
  | allocate (requestAcks : List RequestAck) (outstandingReqs : Finset Bytes)
  | allocateAsOwner (clientRequests : List RequestAck)
  | satisfyOutstanding (ack : RequestAck)
  | applyBatchHashResult (digest : Bytes)
  | applyPrepareMsg (source : NodeID) (digest : Bytes)
  | applyPreprepareBack
  | applyCommitMsg (source : NodeID) (digest : Bytes)
deriving DecidableEq

namespace SeqOp

def run (agreements : RequestAck → Finset NodeID) (s : Sequence) (p : Persisted) :
    SeqOp → Go (SeqState × List Action)
  | .allocate requestAcks outstandingReqs => s.allocate agreements p requestAcks outstandingReqs
  | .allocateAsOwner clientRequests => s.allocateAsOwner agreements p clientRequests
  | .satisfyOutstanding ack => s.satisfyOutstanding agreements p ack
  | .applyBatchHashResult digest => s.applyBatchHashResult agreements p (some digest)
  | .applyPrepareMsg source digest => s.applyPrepareMsg agreements p source (some digest)
  | .applyPreprepareBack => s.applyPrepareMsg agreements p s.owner s.digest
  | .applyCommitMsg source digest => s.applyCommitMsg agreements p source digest

/-- The batch an operation allocates. -/
def batch? : SeqOp → Option (List RequestAck)
  | .allocate requestAcks _ => some requestAcks
  | .allocateAsOwner clientRequests => some clientRequests
  | _ => none

/-- The hash of a batch is requested and its result has not come yet. -/
def AwaitsHash (ops : List SeqOp) : Prop :=
  (∃ op ∈ ops, ∃ batch, op.batch? = some batch ∧ batch ≠ []) ∧
    ∀ digest, applyBatchHashResult digest ∉ ops

/-- The owner's vote has been counted: its batch is hashed, or is empty. -/
def OwnerVoted (ops : List SeqOp) : Prop :=
  (∃ digest, applyBatchHashResult digest ∈ ops) ∨ ∃ op ∈ ops, op.batch? = some []

/-- **When an active epoch performs an operation**, after the operations `ops`. -/
def Admitted (ops : List SeqOp) (s : Sequence) : SeqOp → Prop
  | .allocate _ _ => s.owner ≠ s.myConfig.id
  | .allocateAsOwner _ => s.owner = s.myConfig.id
  | .satisfyOutstanding _ => True
  | .applyBatchHashResult _ => AwaitsHash ops
  | .applyPrepareMsg source _ => source ≠ s.owner
  | .applyPreprepareBack =>
      s.owner = s.myConfig.id ∧ 4 ≤ s.state.rank ∧ applyPreprepareBack ∉ ops
  | .applyCommitMsg _ _ => True

instance (ops : List SeqOp) : Decidable (AwaitsHash ops) :=
  decidable_of_iff ((ops.any fun op => op.batch?.any fun batch => !batch.isEmpty) = true ∧
      (ops.all fun op => match op with | .applyBatchHashResult _ => false | _ => true) = true) (by
    unfold AwaitsHash
    simp only [any_eq_true, Option.any_eq_true, Bool.not_eq_eq_eq_not, Bool.not_true,
      isEmpty_eq_false_iff, all_eq_true]
    refine and_congr_right fun _ => ⟨fun none digest member => ?_, fun none op member => ?_⟩
    · simpa using none _ member
    · cases op with
      | applyBatchHashResult digest => exact absurd member (none digest)
      | _ => rfl)

instance (ops : List SeqOp) (s : Sequence) (op : SeqOp) : Decidable (Admitted ops s op) :=
  match op with
  | .allocate _ _ => inferInstanceAs (Decidable (s.owner ≠ s.myConfig.id))
  | .allocateAsOwner _ => inferInstanceAs (Decidable (s.owner = s.myConfig.id))
  | .satisfyOutstanding _ => inferInstanceAs (Decidable True)
  | .applyBatchHashResult _ => inferInstanceAs (Decidable (AwaitsHash ops))
  | .applyPrepareMsg source _ => inferInstanceAs (Decidable (source ≠ s.owner))
  | .applyPreprepareBack => inferInstanceAs (Decidable
      (s.owner = s.myConfig.id ∧ 4 ≤ s.state.rank ∧ applyPreprepareBack ∉ ops))
  | .applyCommitMsg _ _ => inferInstanceAs (Decidable True)

/-- **What an operation writes** before it advances the sequence. -/
inductive Recorded : SeqOp → Sequence → Sequence → Prop
  | allocate {s op batch outstandingReqs} (clientRequests : List RequestAck) :
      s.state = .uninitialized → op.batch? = some batch → batch ≠ [] →
      Recorded op s (({ s with clientRequests } : Sequence).withBatch batch outstandingReqs
        .pendingRequests)
  | allocateEmpty {s op outstandingReqs} (clientRequests : List RequestAck) :
      s.state = .uninitialized → op.batch? = some [] →
      Recorded op s (({ ({ s with clientRequests } : Sequence).withBatch [] outstandingReqs .ready
        with digest := none } : Sequence).votePrepare s.owner none)
  | satisfyOutstanding {s ack} : Recorded (.satisfyOutstanding ack) s
      { s with outstandingReqs := s.outstandingReqs.erase ack.digest }
  | applyBatchHashResult {s digest} : Recorded (.applyBatchHashResult digest) s
      (({ s with digest := some digest } : Sequence).votePrepare s.owner (some digest))
  | applyPrepareMsg {s source digest} : source ≠ s.owner →
      (s.nodeChoices source).state = .uninitialized →
      Recorded (.applyPrepareMsg source digest) s (s.votePrepare source (some digest))
  | applyPreprepareBack {s} : Recorded .applyPreprepareBack s (s.votePrepare s.owner s.digest)
  | applyCommitMsg {s source digest} : (s.nodeChoices source).state ≠ .prepared →
      Recorded (.applyCommitMsg source digest) s (s.voteCommit source digest)

variable {agreements : RequestAck → Finset NodeID}

/-- The owner's vote is recorded whatever it has said before. -/
theorem applyPrepareMsg_owner {s : Sequence} {p : Persisted} {digest : Option Bytes} :
    s.applyPrepareMsg agreements p s.owner digest =
      (s.votePrepare s.owner digest).advanceState agreements p := by
  unfold Sequence.applyPrepareMsg
  rw [if_neg (fun both => both.1 rfl)]

theorem allocate_eq_ok {s after : Sequence}
    {p p' : Persisted} {batch : List RequestAck} {outstandingReqs : Finset Bytes}
    {actions : List Action}
    (ran : s.allocate agreements p batch outstandingReqs = .ok ((after, p'), actions)) :
    s.state = .uninitialized ∧
      ((batch = [] ∧ (({ s.withBatch [] outstandingReqs .ready with digest := none } :
          Sequence).votePrepare s.owner none).advanceState agreements p =
            .ok ((after, p'), actions)) ∨
        batch ≠ [] ∧ ∃ more, (s.withBatch batch outstandingReqs .pendingRequests).advanceState
          agreements p = .ok ((after, p'), more) ∧
            actions = .hash (batchHashData batch) (.batch s.owner s.epoch s.seqNo batch) :: more) := by
  unfold Sequence.allocate at ran
  by_cases fresh : s.state = .uninitialized
  swap
  · rw [if_pos fresh] at ran
    cases ran
  rw [if_neg (fun ne => ne fresh)] at ran
  refine ⟨fresh, ?_⟩
  by_cases empty : batch = []
  · subst empty
    refine .inl ⟨rfl, ?_⟩
    rw [← ran]
    exact applyPrepareMsg_owner.symm
  · rw [if_neg (by simpa using empty)] at ran
    obtain ⟨⟨state, more⟩, advanced, returned⟩ := bind_eq_ok.mp ran
    obtain ⟨rfl, rfl⟩ := returned
    exact .inr ⟨empty, more, advanced, rfl⟩

/-- The hash requests of an operation. -/
def asks (s : Sequence) (op : SeqOp) : List (List Bytes × HashOrigin) :=
  match op.batch? with
  | some (ack :: rest) =>
    [(batchHashData (ack :: rest), .batch s.owner s.epoch s.seqNo (ack :: rest))]
  | _ => []

/-- A prepare is not the owner's. -/
def Foreign (s : Sequence) (op : SeqOp) : Prop :=
  ∀ source digest, op = applyPrepareMsg source digest → source ≠ s.owner

section Run

variable {agreements : RequestAck → Finset NodeID} {op : SeqOp} {s mid after : Sequence} {p p' : Persisted}
  {actions : List Action} {ops : List SeqOp}

/-- **An operation is ignored, or records and advances.** A hash request may come before what the
sequence does when it advances. -/
theorem run_advances (foreign : op.Foreign s)
    (ran : op.run agreements s p = .ok ((after, p'), actions)) :
    (after = s ∧ p' = p ∧ actions = [] ∧ op.batch? = none ∧
        (∀ digest, op ≠ applyBatchHashResult digest) ∧ ∀ ack, op ≠ satisfyOutstanding ack) ∨
      ∃ mid more, Recorded op s mid ∧ mid.advanceState agreements p = .ok ((after, p'), more) ∧
        (actions = more ∧ op.asks s = [] ∨
          ∃ data origin, actions = .hash data origin :: more ∧ op.asks s = [(data, origin)]) := by
  have allocated {s : Sequence} {batch : List RequestAck} {outstandingReqs : Finset Bytes}
      (clientRequests : List RequestAck) (isBatch : op.batch? = some batch)
      (ran : ({ s with clientRequests } : Sequence).allocate agreements p batch outstandingReqs =
        .ok ((after, p'), actions)) :
      ∃ mid more, Recorded op s mid ∧ mid.advanceState agreements p = .ok ((after, p'), more) ∧
        (actions = more ∧ op.asks s = [] ∨
          ∃ data origin, actions = .hash data origin :: more ∧ op.asks s = [(data, origin)]) := by
    unfold asks
    rw [isBatch]
    obtain ⟨fresh, ⟨rfl, advanced⟩ | ⟨nonempty, more, advanced, rfl⟩⟩ := allocate_eq_ok ran
    · exact ⟨_, _, .allocateEmpty clientRequests fresh isBatch, advanced, .inl ⟨rfl, rfl⟩⟩
    · obtain ⟨ack, rest, rfl⟩ := exists_cons_of_ne_nil nonempty
      exact ⟨_, _, .allocate clientRequests fresh isBatch nonempty, advanced, .inr ⟨_, _, rfl, rfl⟩⟩
  cases op with
  | allocate requestAcks outstandingReqs => exact .inr (allocated s.clientRequests rfl ran)
  | allocateAsOwner clientRequests => exact .inr (allocated clientRequests rfl ran)
  | satisfyOutstanding ack =>
    change s.satisfyOutstanding agreements p ack = _ at ran
    unfold Sequence.satisfyOutstanding at ran
    split at ran
    · cases ran
    · exact .inr ⟨_, _, .satisfyOutstanding, ran, .inl ⟨rfl, rfl⟩⟩
  | applyBatchHashResult digest =>
    have voted := ran
    change ({ s with digest := some digest } : Sequence).applyPrepareMsg agreements p s.owner _ = _
      at voted
    rw [applyPrepareMsg_owner] at voted
    exact .inr ⟨_, _, .applyBatchHashResult, voted, .inl ⟨rfl, rfl⟩⟩
  | applyPrepareMsg source digest =>
    change s.applyPrepareMsg agreements p source (some digest) = _ at ran
    unfold Sequence.applyPrepareMsg at ran
    by_cases duplicate : source ≠ s.owner ∧ (s.nodeChoices source).state ≠ .uninitialized
    · rw [if_pos duplicate, pure_eq_ok] at ran
      obtain ⟨⟨rfl, rfl⟩, rfl⟩ := ran
      exact .inl ⟨rfl, rfl, rfl, rfl, by simp, by simp⟩
    · rw [if_neg duplicate] at ran
      have isForeign := foreign source digest rfl
      have fresh : (s.nodeChoices source).state = .uninitialized :=
        not_not.mp fun said => duplicate ⟨isForeign, said⟩
      exact .inr ⟨_, _, .applyPrepareMsg isForeign fresh, ran, .inl ⟨rfl, rfl⟩⟩
  | applyPreprepareBack =>
    change s.applyPrepareMsg agreements p s.owner s.digest = _ at ran
    rw [applyPrepareMsg_owner] at ran
    exact .inr ⟨_, _, .applyPreprepareBack, ran, .inl ⟨rfl, rfl⟩⟩
  | applyCommitMsg source digest =>
    change s.applyCommitMsg agreements p source digest = _ at ran
    unfold Sequence.applyCommitMsg at ran
    by_cases duplicate : (s.nodeChoices source).state = .prepared
    · rw [if_pos duplicate, pure_eq_ok] at ran
      obtain ⟨⟨rfl, rfl⟩, rfl⟩ := ran
      exact .inl ⟨rfl, rfl, rfl, rfl, by simp, by simp⟩
    · rw [if_neg duplicate] at ran
      exact .inr ⟨_, _, .applyCommitMsg duplicate, ran, .inl ⟨rfl, rfl⟩⟩

theorem Admitted.foreign (admitted : Admitted ops s op) : op.Foreign s := by
  rintro source digest rfl
  exact admitted

theorem run_eq_ok (foreign : op.Foreign s) (ran : op.run agreements s p = .ok ((after, p'), actions)) :
    hashRequests actions = op.asks s ∧
      ((after = s ∧ sentMsgs actions = [] ∧ op.batch? = none ∧ ∀ digest, op ≠ applyBatchHashResult digest) ∨
      ∃ mid, Recorded op s mid ∧ Sequence.Advanced mid after (sentMsgs actions)) := by
  rcases run_advances foreign ran with ⟨same, _, rfl, quiet, unhashed, _⟩ | ⟨mid, more, wrote,
    advanced, isMore⟩
  · refine ⟨?_, .inl ⟨same, rfl, quiet, unhashed⟩⟩
    rw [asks, quiet]
    rfl
  · obtain ⟨done, none⟩ := Sequence.advanceState_eq_ok advanced
    -- The hash request of an allocation is not a message.
    rcases isMore with ⟨rfl, asked⟩ | ⟨data, origin, rfl, asked⟩
    · exact ⟨none.trans asked.symm, .inr ⟨mid, wrote, done⟩⟩
    · refine ⟨?_, .inr ⟨mid, wrote, done⟩⟩
      rw [asked]
      exact congrArg ((data, origin) :: ·) none

/-- **What neither allocates nor hashes** records a vote or a request. -/
theorem Recorded.quiet (wrote : op.Recorded s mid) (quiet : op.batch? = none)
    (unhashed : ∀ digest, op ≠ .applyBatchHashResult digest) :
    mid = { s with
      outstandingReqs := mid.outstandingReqs, nodeChoices := mid.nodeChoices
      prepares := mid.prepares, commits := mid.commits } ∧
      (∀ digest, s.prepares digest ≤ mid.prepares digest) ∧
      ∀ digest, s.commits digest ≤ mid.commits digest := by
  have counts (votes : Bytes → Nat) (vote digest : Bytes) :
      votes digest ≤ Function.update votes vote (votes vote + 1) digest := by
    by_cases same : digest = vote
    · rw [same, Function.update_self]
      omega
    · rw [Function.update_of_ne same]
  cases wrote with
  | allocate _ _ isBatch _ | allocateEmpty _ _ isBatch =>
    rw [quiet] at isBatch
    cases isBatch
  | @applyBatchHashResult _ digest => exact absurd rfl (unhashed digest)
  | satisfyOutstanding => exact ⟨rfl, fun _ => le_rfl, fun _ => le_rfl⟩
  | applyPrepareMsg _ _ | applyPreprepareBack => exact ⟨rfl, counts _ _, fun _ => le_rfl⟩
  | applyCommitMsg _ => exact ⟨rfl, fun _ => le_rfl, counts _ _⟩

theorem Recorded.fresh_iff (wrote : op.Recorded s mid) :
    (mid.state = .uninitialized ↔ s.state = .uninitialized ∧ op.batch? = none) ∧ mid.qEntry = s.qEntry ∧
      mid.seqNo = s.seqNo := by
  cases wrote with
  | allocate _ _ isBatch _ => exact ⟨⟨nofun, fun both => by rw [isBatch] at both; cases both.2⟩, rfl, rfl⟩
  | allocateEmpty _ _ isBatch => exact ⟨⟨nofun, fun both => by rw [isBatch] at both; cases both.2⟩, rfl, rfl⟩
  | _ => exact ⟨(and_iff_left rfl).symm, rfl, rfl⟩

/-- **An operation starts a sequence** if it allocates a batch, and no other does. -/
theorem run_fresh_iff (foreign : op.Foreign s) (ran : op.run agreements s p = .ok ((after, p'), actions)) :
    after.state = .uninitialized ↔ s.state = .uninitialized ∧ op.batch? = none := by
  rcases (run_eq_ok foreign ran).2 with ⟨rfl, _, quiet, _⟩ | ⟨mid, wrote, done⟩
  · rw [quiet]
    exact (and_iff_left rfl).symm
  · rw [← wrote.fresh_iff.1, done.fresh_iff]

/-- A sequence that has started keeps its batch. -/
theorem run_keeps_batch (foreign : op.Foreign s) (ran : op.run agreements s p = .ok ((after, p'), actions))
    (started : s.state ≠ .uninitialized) : after.state ≠ .uninitialized ∧ after.batch = s.batch := by
  refine ⟨fun fresh => started ((run_fresh_iff foreign ran).mp fresh).1, ?_⟩
  rcases (run_eq_ok foreign ran).2 with ⟨rfl, _⟩ | ⟨mid, wrote, done⟩
  · rfl
  · rw [done.frame]
    cases wrote with
    | allocate _ fresh _ _ | allocateEmpty _ fresh _ => exact absurd fresh started
    | _ => rfl

/-- The batch that a sequence has entered in the log has its number. -/
theorem run_entry (foreign : op.Foreign s) (ran : op.run agreements s p = .ok ((after, p'), actions))
    {qEntry : QEntry} (isEntry : after.qEntry = some qEntry) :
    s.qEntry = some qEntry ∨ qEntry.seqNo = s.seqNo := by
  rcases (run_eq_ok foreign ran).2 with ⟨rfl, _⟩ | ⟨mid, wrote, done⟩
  · exact .inl isEntry
  · obtain ⟨_, sameEntry, sameNumber⟩ := wrote.fresh_iff
    rcases done.qEntry with same | ⟨_, _, entered⟩
    · exact .inl (sameEntry ▸ same ▸ isEntry)
    · rw [entered] at isEntry
      cases isEntry
      exact .inr sameNumber

end Run

end SeqOp

/-! ### Runs -/

/-- **The runs of a sequence** from `start`, whose steps all meet a condition on the sequence before
them and the operation. The log and what is known of the requests may be anything at each step. -/
inductive SeqRun (condition : Sequence → SeqOp → Prop) (start : Sequence) :
    List SeqOp → Sequence → Prop
  | nil : SeqRun condition start [] start
  | snoc {ops : List SeqOp} {s after : Sequence} {op : SeqOp} {p' : Persisted}
      {actions : List Action} (agreements : RequestAck → Finset NodeID) (p : Persisted) :
      SeqRun condition start ops s → op.Admitted ops s → condition s op →
      op.run agreements s p = .ok ((after, p'), actions) →
      SeqRun condition start (ops ++ [op]) after

/-- The operations `todo` performed one after the other, after `done`, with no request known to any
other node; `none` if one of them is not admitted or does not meet the condition, or panics. -/
def SeqRun.execute (condition : Sequence → SeqOp → Bool) (done : List SeqOp) :
    SeqState → List SeqOp → Option Sequence
  | (s, _), [] => some s
  | (s, p), op :: todo =>
    if op.Admitted done s ∧ condition s op = true then
      match op.run (fun _ => ∅) s p with
      | .ok (after, _) => execute condition (done ++ [op]) after todo
      | .error _ => none
    else none

variable {start : Sequence}

theorem SeqRun.of_execute {condition : Sequence → SeqOp → Bool}
    {done todo : List SeqOp} {s final : Sequence} {p : Persisted}
    (reached : SeqRun (fun s op => condition s op = true) start done s)
    (executed : SeqRun.execute condition done (s, p) todo = some final) :
    SeqRun (fun s op => condition s op = true) start (done ++ todo) final := by
  induction todo generalizing done s p with
  | nil =>
    rw [append_nil]
    cases executed
    exact reached
  | cons op todo ih =>
    unfold SeqRun.execute at executed
    split at executed
    swap
    · cases executed
    rename_i allowed
    split at executed
    · rename_i after actions ran
      have longer := ih (.snoc (fun _ => ∅) p reached allowed.1 allowed.2 ran) executed
      rwa [append_assoc] at longer
    · cases executed

/-- What holds in every run of a new sequence. -/
structure SeqBasic (start : Sequence) (ops : List SeqOp) (s : Sequence) : Prop where
  owner : s.owner = start.owner
  seqNo : s.seqNo = start.seqNo
  epoch : s.epoch = start.epoch
  myConfig : s.myConfig = start.myConfig
  networkConfig : s.networkConfig = start.networkConfig
  unallocated : s.state = .uninitialized →
    s.digest = none ∧ ∀ op ∈ ops, op.batch? = none
  awaiting : SeqOp.AwaitsHash ops → s.digest = none ∧ s.batch ≠ []
  voted : SeqOp.OwnerVoted ops → s.state ≠ .uninitialized ∧ ¬ SeqOp.AwaitsHash ops
  entered : 4 ≤ s.state.rank → (s.digest.isSome || s.batch.isEmpty) = true
  prepared : 5 ≤ s.state.rank → intersectionQuorum s.networkConfig ≤ s.prepares s.digestKey
  committed : 6 ≤ s.state.rank → intersectionQuorum s.networkConfig ≤ s.commits s.digestKey

variable {ops : List SeqOp} {op : SeqOp}

/-- An operation that answers no hash request and allocates nothing leaves what is awaited. -/
theorem SeqOp.AwaitsHash.of_append (quiet : op.batch? = none)
    (awaits : AwaitsHash (ops ++ [op])) : AwaitsHash ops := by
  obtain ⟨⟨asked, member, batch, isBatch, nonempty⟩, unanswered⟩ := awaits
  refine ⟨⟨asked, ?_, batch, isBatch, nonempty⟩, fun digest answered =>
    unanswered digest (mem_append_left _ answered)⟩
  rcases mem_append.mp member with earlier | last
  · exact earlier
  · rw [mem_singleton] at last
    rw [last, quiet] at isBatch
    cases isBatch

theorem SeqOp.OwnerVoted.of_append
    (unhashed : ∀ digest, op ≠ applyBatchHashResult digest) (nonempty : op.batch? ≠ some [])
    (voted : OwnerVoted (ops ++ [op])) : OwnerVoted ops := by
  rcases voted with ⟨digest, member⟩ | ⟨other, member, isEmpty⟩
  · rcases mem_append.mp member with earlier | last
    · exact .inl ⟨digest, earlier⟩
    · exact absurd (mem_singleton.mp last).symm (unhashed digest)
  · rcases mem_append.mp member with earlier | last
    · exact .inr ⟨other, earlier, isEmpty⟩
    · rw [mem_singleton.mp last] at isEmpty
      exact absurd isEmpty nonempty

namespace SeqBasic

variable {start s mid after : Sequence} {ops : List SeqOp} {op : SeqOp}

/-- A hash result comes before the batch is entered in the log. -/
theorem rank_lt_of_awaits (basic : SeqBasic start ops s) (awaits : SeqOp.AwaitsHash ops) :
    s.state.rank < 4 := by
  by_contra high
  have hashed := basic.entered (Nat.le_of_not_lt high)
  obtain ⟨undigested, nonempty⟩ := basic.awaiting awaits
  simp [undigested, nonempty] at hashed

/-- An operation that neither allocates nor hashes keeps what holds of the same sequence. -/
theorem append_of_quiet (basic : SeqBasic start ops s) (quiet : op.batch? = none)
    (unhashed : ∀ digest, op ≠ .applyBatchHashResult digest) :
    SeqBasic start (ops ++ [op]) s := by
  refine { basic with
    unallocated := fun fresh => ?_, awaiting := fun awaits => ?_, voted := fun voted => ?_ }
  · obtain ⟨undigested, none⟩ := basic.unallocated fresh
    refine ⟨undigested, fun other member => ?_⟩
    rcases mem_append.mp member with earlier | last
    · exact none other earlier
    · rw [mem_singleton.mp last]
      exact quiet
  · exact basic.awaiting (awaits.of_append quiet)
  · obtain ⟨allocated, answered⟩ := basic.voted (voted.of_append unhashed (by simp [quiet]))
    exact ⟨allocated, fun awaits => answered (awaits.of_append quiet)⟩

theorem recorded (basic : SeqBasic start ops s) (admitted : op.Admitted ops s)
    (recorded : op.Recorded s mid) : SeqBasic start (ops ++ [op]) mid := by
  by_cases quiet : op.batch? = none ∧ ∀ digest, op ≠ .applyBatchHashResult digest
  · obtain ⟨frame, prepares, commits⟩ := recorded.quiet quiet.1 quiet.2
    have kept := basic.append_of_quiet quiet.1 quiet.2
    rw [frame]
    exact { kept with
      prepared := fun high => (kept.prepared high).trans (prepares _)
      committed := fun high => (kept.committed high).trans (commits _) }
  cases recorded with
  | allocate clientRequests fresh isBatch nonempty =>
    obtain ⟨undigested, _⟩ := basic.unallocated fresh
    have low : SequenceState.rank .pendingRequests = 2 := rfl
    refine { basic with
      unallocated := fun never => by cases never
      awaiting := fun _ => ⟨undigested, nonempty⟩
      voted := fun voted => absurd fresh (basic.voted (voted.of_append ?_ ?_)).1
      entered := fun high => ?_
      prepared := fun high => ?_
      committed := fun high => ?_ }
    · rintro digest rfl
      cases isBatch
    · rw [isBatch]
      simpa using nonempty
    all_goals exact absurd (low ▸ high) (by omega)
  | allocateEmpty clientRequests fresh isBatch =>
    have low : SequenceState.rank .ready = 3 := rfl
    -- Nothing was allocated before, and the last batch is empty: no hash is awaited.
    have answered : ¬ SeqOp.AwaitsHash (ops ++ [op]) := by
      rintro ⟨⟨asked, member, batch, isAsked, nonempty⟩, _⟩
      rcases mem_append.mp member with earlier | last
      · rw [(basic.unallocated fresh).2 asked earlier] at isAsked
        cases isAsked
      · rw [mem_singleton.mp last, isBatch, Option.some.injEq] at isAsked
        exact nonempty isAsked.symm
    exact { basic with
      unallocated := fun never => by cases never
      awaiting := fun awaits => absurd awaits answered
      voted := fun _ => ⟨(by rintro ⟨⟩), answered⟩
      entered := fun high => absurd (low ▸ high) (by omega)
      prepared := fun high => absurd (low ▸ high) (by omega)
      committed := fun high => absurd (low ▸ high) (by omega) }
  | @applyBatchHashResult _ digest =>
    have low := basic.rank_lt_of_awaits admitted
    obtain ⟨asked, member, batch, isBatch, _⟩ := admitted.1
    have answered : ¬ SeqOp.AwaitsHash (ops ++ [.applyBatchHashResult digest]) :=
      fun awaits => awaits.2 digest (mem_append_right ops (by simp))
    have allocated : s.state ≠ .uninitialized := by
      intro fresh
      rw [(basic.unallocated fresh).2 asked member] at isBatch
      cases isBatch
    exact { basic with
      unallocated := fun fresh => absurd fresh allocated
      awaiting := fun awaits => absurd awaits answered
      voted := fun _ => ⟨allocated, answered⟩
      entered := fun _ => rfl
      prepared := fun high => absurd (show 5 ≤ s.state.rank from high) (by omega)
      committed := fun high => absurd (show 6 ≤ s.state.rank from high) (by omega) }
  | _ => exact absurd ⟨rfl, nofun⟩ quiet

theorem advanced {sent : List Msg} (basic : SeqBasic start ops mid)
    (advanced : Sequence.Advanced mid after sent) : SeqBasic start ops after := by
  have frame := advanced.frame
  have started := advanced.fresh_iff
  generalize after.state = state, after.qEntry = qEntry at frame
  subst frame
  refine { basic with
    unallocated := fun fresh => basic.unallocated (started.mp fresh)
    voted := fun voted => ⟨fun fresh => (basic.voted voted).1 (started.mp fresh), (basic.voted voted).2⟩
    entered := fun high => ?_
    prepared := fun high => ?_
    committed := fun high => ?_ }
  · by_cases low : mid.state.rank < 4
    · exact advanced.entered low high
    · exact basic.entered (Nat.le_of_not_lt low)
  · by_cases low : mid.state.rank < 5
    · have quorum := advanced.prepared low high
      simp only [Sequence.prepareQuorum, Bool.and_eq_true, decide_eq_true_eq] at quorum
      exact quorum.2
    · exact basic.prepared (Nat.le_of_not_lt low)
  · by_cases low : mid.state.rank < 6
    · have quorum := advanced.committed low high
      simp only [Sequence.commitQuorum, Bool.and_eq_true, decide_eq_true_eq] at quorum
      exact quorum.2
    · exact basic.committed (Nat.le_of_not_lt low)

end SeqBasic

variable {condition : Sequence → SeqOp → Prop} {s : Sequence}

/-- **The invariant rule for runs**: an invariant of the operations so far and the sequence that is
kept when an operation is ignored, when it records, and when the sequence advances, holds in every
run. -/
theorem SeqRun.invariant (holds : List SeqOp → Sequence → Prop) (first : holds [] start)
    (ignored : ∀ ops s op, holds ops s → op.batch? = none →
      (∀ digest, op ≠ .applyBatchHashResult digest) → holds (ops ++ [op]) s)
    (recorded : ∀ ops s op mid, holds ops s → op.Admitted ops s → condition s op →
      op.Recorded s mid → holds (ops ++ [op]) mid)
    (advanced : ∀ ops mid after sent, holds ops mid → Sequence.Advanced mid after sent →
      holds ops after)
    (run : SeqRun condition start ops s) : holds ops s := by
  induction run with
  | nil => exact first
  | snoc _ _ _ admitted allowed ran ih =>
    rcases (SeqOp.run_eq_ok admitted.foreign ran).2 with ⟨rfl, _, quiet, unhashed⟩ | ⟨mid, wrote, done⟩
    · exact ignored _ _ _ ih quiet unhashed
    · exact advanced _ _ _ _ (recorded _ _ _ _ ih admitted allowed wrote) done

/-- **What holds in every run of a new sequence.** -/
theorem SeqRun.basic {owner : NodeID} {epoch seqNo : Nat}
    {nc : NetworkConfig} {my : InitialParameters}
    (run : SeqRun condition (newSequence owner epoch seqNo nc my) ops s) :
    SeqBasic (newSequence owner epoch seqNo nc my) ops s := by
  refine run.invariant (SeqBasic _) ?_ (fun _ _ _ basic => basic.append_of_quiet)
    (fun _ _ _ _ basic admitted _ wrote => basic.recorded admitted wrote)
    (fun _ _ _ _ basic done => basic.advanced done)
  have rank : (newSequence owner epoch seqNo nc my).state.rank = 0 := rfl
  exact {
    owner := rfl, seqNo := rfl, epoch := rfl, myConfig := rfl, networkConfig := rfl
    unallocated := fun _ => ⟨rfl, by simp⟩
    awaiting := fun awaits => by simpa using awaits.1
    voted := fun voted => by simp [SeqOp.OwnerVoted] at voted
    entered := fun high => by omega
    prepared := fun high => by omega
    committed := fun high => by omega }

end MirBft
