/-
**What a sequence sends and asks for.**

* `SeqBatch`: in a run whose hash results are right, a sequence has the batch that was allocated and
  the digest of that batch;
* `run_keeps_entered`: once the batch is in the log, the batch and the digest stay;
* `run_sends`: a preprepare or prepare that an operation sends names the batch or the digest of the
  sequence after it, and the sequence has then entered its batch in the log.
-/

import MirBft.Proof.SequenceRun

namespace MirBft

variable {s after : Sequence} {p p' : Persisted} {actions : List Action}
  {agreements : RequestAck → Finset NodeID}

theorem SeqRun.mono {condition weaker : Sequence → SeqOp → Prop} {start : Sequence} {ops : List SeqOp}
    (implies : ∀ s op, condition s op → weaker s op) (run : SeqRun condition start ops s) :
    SeqRun weaker start ops s := by
  induction run with
  | nil => exact .nil
  | snoc agreements p _ admitted allowed ran ih =>
    exact .snoc agreements p ih admitted (implies _ _ allowed) ran

/-- The digest of a batch. -/
def batchDigest (hash : Bytes → Bytes) (batch : List RequestAck) : Bytes :=
  hash (hashInput (batchHashData batch))

/-- A hash result is the digest of the sequence's batch. -/
def Hashes (hash : Bytes → Bytes) (s : Sequence) (op : SeqOp) : Prop :=
  ∀ digest, op = .applyBatchHashResult digest → digest = batchDigest hash s.batch

/-- **A sequence and its batch.** -/
structure SeqBatch (hash : Bytes → Bytes) (ops : List SeqOp) (s : Sequence) : Prop where
  digest : ∀ digest, s.digest = some digest → digest = batchDigest hash s.batch ∧ s.batch ≠ []
  batch : ∀ op ∈ ops, ∀ batch, op.batch? = some batch → s.batch = batch
  allocated : s.state ≠ .uninitialized → ∃ op ∈ ops, ∃ batch, op.batch? = some batch
  fresh : s.state = .uninitialized → s.batch = []
  hashed : ∀ digest, .applyBatchHashResult digest ∈ ops → s.digest ≠ none

namespace SeqBatch

variable {hash : Bytes → Bytes} {start s mid after : Sequence} {ops : List SeqOp} {op : SeqOp}

theorem awaits (batched : SeqBatch hash ops s) (undigested : s.digest = none)
    (nonempty : s.batch ≠ []) : SeqOp.AwaitsHash ops := by
  obtain ⟨op, member, batch, isBatch⟩ := batched.allocated fun fresh => nonempty (batched.fresh fresh)
  refine ⟨⟨op, member, batch, isBatch, ?_⟩, fun digest answered =>
    batched.hashed digest answered undigested⟩
  rw [← batched.batch op member batch isBatch]
  exact nonempty

theorem append_of_quiet (batched : SeqBatch hash ops s) (quiet : op.batch? = none)
    (unhashed : ∀ digest, op ≠ .applyBatchHashResult digest) : SeqBatch hash (ops ++ [op]) s where
  digest := batched.digest
  fresh := batched.fresh
  hashed := by
    intro digest member
    rcases List.mem_append.mp member with earlier | last
    · exact batched.hashed digest earlier
    · exact absurd (List.mem_singleton.mp last).symm (unhashed digest)
  batch := by
    intro other member batch isBatch
    rcases List.mem_append.mp member with earlier | last
    · exact batched.batch other earlier batch isBatch
    · rw [List.mem_singleton.mp last, quiet] at isBatch
      cases isBatch
  allocated := fun started => by
    obtain ⟨other, member, isBatch⟩ := batched.allocated started
    exact ⟨other, List.mem_append_left _ member, isBatch⟩

theorem append_of_batch (basic : SeqBasic start ops s) (fresh : s.state = .uninitialized)
    {batch : List RequestAck} (isBatch : op.batch? = some batch) (digest : mid.digest = none)
    (same : mid.batch = batch) (started : mid.state ≠ .uninitialized) :
    SeqBatch hash (ops ++ [op]) mid where
  fresh := fun isFresh => absurd isFresh started
  hashed := by
    intro found member
    rcases List.mem_append.mp member with earlier | last
    · exact absurd fresh (basic.voted (Or.inl ⟨found, earlier⟩)).1
    · rw [← List.mem_singleton.mp last] at isBatch
      cases isBatch
  digest := fun found some => by rw [digest] at some; cases some
  batch := by
    intro other member found isFound
    rcases List.mem_append.mp member with earlier | last
    · rw [(basic.unallocated fresh).2 other earlier] at isFound
      cases isFound
    · rw [List.mem_singleton.mp last, isBatch, Option.some.injEq] at isFound
      rw [same, isFound]
  allocated := fun _ => ⟨op, List.mem_append_right _ (by simp), batch, isBatch⟩

theorem recorded (batched : SeqBatch hash ops s) (basic : SeqBasic start ops s)
    (admitted : op.Admitted ops s) (hashes : Hashes hash s op) (wrote : op.Recorded s mid) :
    SeqBatch hash (ops ++ [op]) mid := by
  by_cases quiet : op.batch? = none ∧ ∀ digest, op ≠ .applyBatchHashResult digest
  · rw [(wrote.quiet quiet.1 quiet.2).1]
    exact { batched.append_of_quiet quiet.1 quiet.2 with }
  cases wrote with
  | allocate clientRequests fresh isBatch _ =>
    exact append_of_batch basic fresh isBatch (basic.unallocated fresh).1 rfl (by rintro ⟨⟩)
  | allocateEmpty clientRequests fresh isBatch =>
    exact append_of_batch basic fresh isBatch rfl rfl (by rintro ⟨⟩)
  | @applyBatchHashResult _ digest =>
    refine
      { digest := fun found isFound => ?_
        batch := fun other member batch isBatch => ?_
        allocated := fun started => ?_
        fresh := batched.fresh
        hashed := fun _ _ => by simp [Sequence.votePrepare] }
    · have same : digest = found := Option.some.inj isFound
      exact ⟨same ▸ hashes digest rfl, (basic.awaiting admitted).2⟩
    · rcases List.mem_append.mp member with earlier | last
      · exact batched.batch other earlier batch isBatch
      · rw [List.mem_singleton.mp last] at isBatch
        cases isBatch
    · obtain ⟨other, member, isBatch⟩ := batched.allocated started
      exact ⟨other, List.mem_append_left _ member, isBatch⟩
  | _ => exact absurd ⟨rfl, nofun⟩ quiet

theorem advanced {sent : List Msg} (batched : SeqBatch hash ops mid)
    (advanced : Sequence.Advanced mid after sent) : SeqBatch hash ops after := by
  have frame := advanced.frame
  have started := advanced.fresh_iff
  generalize after.state = state, after.qEntry = qEntry at frame
  subst frame
  exact { batched with
    allocated := fun isStarted => batched.allocated fun fresh => isStarted (started.mpr fresh)
    fresh := fun fresh => batched.fresh (started.mp fresh) }

end SeqBatch

/-- **A sequence has the batch that was allocated, and its digest.** -/
theorem SeqRun.batched {hash : Bytes → Bytes} {condition : Sequence → SeqOp → Prop} {owner : NodeID}
    {epoch seqNo : Nat} {nc : NetworkConfig} {my : InitialParameters} {ops : List SeqOp}
    (hashes : ∀ s op, condition s op → Hashes hash s op)
    (run : SeqRun condition (newSequence owner epoch seqNo nc my) ops s) : SeqBatch hash ops s := by
  have firstBasic : SeqBasic (newSequence owner epoch seqNo nc my) [] _ :=
    (SeqRun.nil : SeqRun condition _ _ _).basic
  have firstBatched : SeqBatch hash [] (newSequence owner epoch seqNo nc my) :=
    ⟨by rintro _ ⟨⟩, by simp, fun started => absurd rfl started, fun _ => rfl, by simp⟩
  have both : SeqBasic (newSequence owner epoch seqNo nc my) ops s ∧ SeqBatch hash ops s := by
    refine run.invariant (fun ops s => SeqBasic _ ops s ∧ SeqBatch hash ops s)
      ⟨firstBasic, firstBatched⟩
      (fun _ _ _ both quiet unhashed =>
        ⟨both.1.append_of_quiet quiet unhashed, both.2.append_of_quiet quiet unhashed⟩)
      (fun _ _ _ _ both admitted allowed wrote => ⟨both.1.recorded admitted wrote,
        both.2.recorded both.1 admitted (hashes _ _ allowed) wrote⟩)
      (fun _ _ _ _ both done => ⟨both.1.advanced done, both.2.advanced done⟩)
  exact both.2

namespace SeqOp

variable {agreements : RequestAck → Finset NodeID} {start s mid after : Sequence} {ops : List SeqOp}
  {op : SeqOp} {p p' : Persisted} {actions : List Action}

/-- What is recorded once the batch is in the log leaves the batch and the digest. -/
theorem Recorded.keeps_entered (wrote : op.Recorded s mid) (basic : SeqBasic start ops s)
    (admitted : op.Admitted ops s) (high : 4 ≤ s.state.rank) :
    mid.state = s.state ∧ mid.digest = s.digest ∧ mid.batch = s.batch := by
  have low : SequenceState.rank .uninitialized = 0 := rfl
  cases wrote with
  | allocate _ fresh _ _ | allocateEmpty _ fresh _ =>
    rw [fresh] at high
    omega
  | applyBatchHashResult =>
    have early := basic.rank_lt_of_awaits admitted
    omega
  | _ => exact ⟨rfl, rfl, rfl⟩

/-- **Once the batch is in the log, the batch and the digest stay.** -/
theorem run_keeps_entered (basic : SeqBasic start ops s) (admitted : op.Admitted ops s)
    (ran : op.run agreements s p = .ok ((after, p'), actions)) (high : 4 ≤ s.state.rank) :
    4 ≤ after.state.rank ∧ after.digestKey = s.digestKey ∧ after.batch = s.batch := by
  rcases (run_eq_ok admitted.foreign ran).2 with ⟨rfl, _⟩ | ⟨mid, wrote, done⟩
  · exact ⟨high, rfl, rfl⟩
  · obtain ⟨state, digest, batch⟩ := wrote.keeps_entered basic admitted high
    have raised := done.rank_le
    rw [state] at raised
    refine ⟨high.trans raised, ?_, ?_⟩
    · rw [done.frame]
      show mid.digest.getD [] = s.digest.getD []
      rw [digest]
    · rw [done.frame]
      exact batch

theorem run_keeps_awaiting (admitted : op.Admitted ops s)
    (ran : op.run agreements s p = .ok ((after, p'), actions))
    (unhashed : ∀ digest, op ≠ .applyBatchHashResult digest) (started : s.state ≠ .uninitialized) :
    after.digest = s.digest ∧ after.batch = s.batch := by
  rcases (run_eq_ok admitted.foreign ran).2 with ⟨rfl, _⟩ | ⟨mid, wrote, done⟩
  · exact ⟨rfl, rfl⟩
  · rw [done.frame]
    cases wrote with
    | allocate _ fresh _ _ | allocateEmpty _ fresh _ => exact absurd fresh started
    | @applyBatchHashResult _ digest => exact absurd rfl (unhashed digest)
    | _ => exact ⟨rfl, rfl⟩

theorem run_allocates (basic : SeqBasic start ops s) (admitted : op.Admitted ops s)
    (ran : op.run agreements s p = .ok ((after, p'), actions)) {batch : List RequestAck}
    (isBatch : op.batch? = some batch) :
    s.state = .uninitialized ∧ after.digest = none ∧ after.batch = batch := by
  rcases (run_eq_ok admitted.foreign ran).2 with ⟨_, _, quiet, _⟩ | ⟨mid, wrote, done⟩
  · rw [quiet] at isBatch
    cases isBatch
  · rw [done.frame]
    cases wrote with
    | allocate _ fresh isFound _ =>
      rw [isFound, Option.some.injEq] at isBatch
      exact ⟨fresh, (basic.unallocated fresh).1, isBatch⟩
    | allocateEmpty _ fresh isFound =>
      rw [isFound, Option.some.injEq] at isBatch
      exact ⟨fresh, rfl, isBatch⟩
    | _ => cases isBatch

theorem Recorded.frame (wrote : op.Recorded s mid) :
    mid.owner = s.owner ∧ mid.seqNo = s.seqNo ∧ mid.epoch = s.epoch ∧ mid.myConfig = s.myConfig := by
  cases wrote <;> exact ⟨rfl, rfl, rfl, rfl⟩

/-- **What an operation sends** of a batch: the owner its preprepare, any other node its prepare. -/
theorem run_sends (foreign : op.Foreign s)
    (ran : op.run agreements s p = .ok ((after, p'), actions)) {msg : Msg}
    (sent : msg ∈ sentMsgs actions) :
    4 ≤ after.state.rank ∧
      ((s.owner = s.myConfig.id ∧ msg = .preprepare s.seqNo s.epoch after.batch) ∨
        (s.owner ≠ s.myConfig.id ∧ msg = .prepare s.seqNo s.epoch after.digestKey) ∨
        msg = .commit s.seqNo s.epoch after.digestKey) := by
  rcases (run_eq_ok foreign ran).2 with ⟨rfl, silent, _⟩ | ⟨mid, wrote, done⟩
  · rw [silent] at sent
    cases sent
  · obtain ⟨owner, seqNo, epoch, myConfig⟩ := wrote.frame
    have batch : after.batch = mid.batch := by rw [done.frame]
    have digest : after.digestKey = mid.digestKey := by rw [done.frame]; rfl
    rw [batch, digest, ← owner, ← seqNo, ← epoch, ← myConfig]
    rcases done.sentMsg msg sent with ⟨_, high, own⟩ | ⟨_, high, own⟩
    · refine ⟨high, ?_⟩
      by_cases mine : mid.owner = mid.myConfig.id
      · rw [if_pos mine] at own
        exact Or.inl ⟨mine, own⟩
      · rw [if_neg mine] at own
        exact Or.inr (Or.inl ⟨mine, own⟩)
    · exact ⟨by omega, Or.inr (Or.inr own)⟩

end SeqOp

end MirBft
