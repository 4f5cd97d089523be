/-
**Effects that an active epoch has by its parts.**

`ActiveEpoch.Closed guard` says that the effect holds of the operations an active epoch is made of:
an assignment to its own fields, an operation on a sequence, a commit, the N-entry of a new
interval, a suspicion, and the two lists of the client tracker. All other failures of an active
epoch lie elsewhere. `Regular method`: the method has every such effect. All methods of an active
epoch are regular, so that what they keep is shown once for each operation and not once for each
method.
-/

import MirBft.Proof.Failures

namespace MirBft

open Proc

/-- **The methods of a sequence** that an active epoch calls, but for its commit votes. -/
inductive SequenceMethod :
    ((RequestAck → Finset NodeID) → Sequence → Persisted → Go (SeqState × List Action)) → Prop
  | allocate (batch : List RequestAck) (waiting : Finset Bytes) :
      SequenceMethod fun agreements s p => s.allocate agreements p batch waiting
  | allocateAsOwner (clientRequests : List RequestAck) :
      SequenceMethod fun agreements s p => s.allocateAsOwner agreements p clientRequests
  | satisfyOutstanding (ack : RequestAck) :
      SequenceMethod fun agreements s p => s.satisfyOutstanding agreements p ack
  | applyBatchHashResult (digest : Bytes) :
      SequenceMethod fun agreements s p => s.applyBatchHashResult agreements p (some digest)
  | applyPrepareMsg (source : NodeID) (digest : Bytes) :
      SequenceMethod fun agreements s p => s.applyPrepareMsg agreements p source (some digest)
  | applyPreprepareBack (source : NodeID) :
      SequenceMethod fun agreements s p => s.applyPrepareMsg agreements p source s.digest

namespace ActiveEpoch

/-- What an epoch never changes. -/
structure Same (before after : ActiveEpoch) : Prop where
  epochConfig : after.epochConfig = before.epochConfig
  networkConfig : after.networkConfig = before.networkConfig
  myConfig : after.myConfig = before.myConfig
  buckets : after.buckets = before.buckets

/-- **The effect holds of what an active epoch is made of.** -/
structure Closed (guard : Guard String Action AeState) : Prop where
  elsewhere : ∀ st failure, Elsewhere failure → guard.excused st failure
  assign : ∀ {update : ActiveEpoch → ActiveEpoch}, (∀ ae : ActiveEpoch, ae.Same (update ae)) →
    Keeps guard (assign update)
  operate : ∀ {method}, SequenceMethod method → ∀ seqNo s, Keeps guard (onObject seqNo s method)
  vote : ∀ source seqNo digest, Keeps guard (Proc.quiet (onSequence seqNo fun agreements s p =>
    s.applyCommitMsg agreements p source digest))
  commit : ∀ qEntry, Keeps guard (onShared (Shared.commit qEntry))
  interval : ∀ (st : AeState) seqNo, safe (guard.excused st)
    (onShared (Shared.onLog fun p => p.addNEntry ⟨seqNo, st.ae.epochConfig⟩)) st
    fun final actions _ => guard.rel st final actions
  suspect : ∀ st : AeState, safe (guard.excused st) (do
      emit [.send st.ae.networkConfig.nodes (.suspect st.ae.epochConfig.number)]
      onShared (Shared.onLog fun p => p.addSuspect st.ae.epochConfig.number)) st
    fun final actions _ => guard.rel st final actions
  consume : ∀ availableList, Keeps guard (onShared (Proc.modify fun sh => { sh with
    clients := { sh.clients with tracker := { sh.clients.tracker with availableList } } }))
  queue : ∀ (proposer : Proposer) (toSeqNo : Nat), Keeps guard (onShared (proposer.advance toSeqNo))

/-- **The method has every effect that its parts have.** -/
def Regular {α : Type} (method : GoProc AeState α) : Prop :=
  ∀ guard, Closed guard → Keeps guard method

section Rules

variable {guard : Guard String Action AeState} (closed : Closed guard)

include closed

/-- A failure elsewhere is excused. -/
theorem Closed.fail {α : Type} {failure : String} (isOther : Elsewhere failure) :
    Keeps guard (fail failure : GoProc AeState α) :=
  keeps_fail fun st => closed.elsewhere st _ isOther

/-- So is that of a computation off the state. -/
theorem Closed.lift_bind {α γ : Type} {result : Go α} {next : α → GoProc AeState γ}
    (fails : FailsOnly Elsewhere result) (continued : ∀ value, Keeps guard (next value)) :
    Keeps guard (lift result >>= next) :=
  keeps_lift_bind (fun st => fails.mono (closed.elsewhere st)) fun value _ => continued value

theorem Closed.onSequence {method} (isMethod : SequenceMethod method) (seqNo : Nat) :
    Keeps guard (onSequence seqNo method) :=
  keeps_get_bind fun _ => closed.lift_bind (AeState.sequence_elsewhere _ _) fun s =>
    closed.operate isMethod seqNo s

end Rules

variable {guard : Guard String Action AeState}

section

variable (closed : Closed guard)
include closed

theorem Closed.unallocated (bucket : Nat) : Keeps guard (unallocated bucket) := by
  refine keeps_get_bind fun st => ?_
  split
  · exact closed.fail (by simp)
  · exact keeps_pure _

theorem Closed.moveUnallocated (bucket : Nat) :
    Keeps guard (moveUnallocated bucket) :=
  closed.assign fun _ => ⟨rfl, rfl, rfl, rfl⟩

/-! ### Messages -/

/-- A follower takes the next preprepare of the bucket. -/
theorem Closed.allocateFollower (bucket seqNo : Nat) (batch : List RequestAck) :
    Keeps guard (allocateFollower bucket seqNo batch) := by
  refine keeps_bind (closed.unallocated bucket) fun expected => ?_
  split
  · exact closed.fail (by simp)
  refine keeps_bind (closed.moveUnallocated bucket) fun _ => keeps_get_bind fun st =>
    closed.lift_bind (AllOutstandingReqs.applyAcks_failsOnly _ _ _ _).elsewhere_of_component
      fun _ => keeps_bind (closed.assign fun _ => ⟨rfl, rfl, rfl, rfl⟩) fun _ => ?_
  exact closed.onSequence (.allocate _ _) seqNo

/-- A node's own preprepare counts as its prepare. -/
theorem Closed.applyPreprepareMsg (source : NodeID) (seqNo : Nat)
    (batch : List RequestAck) : Keeps guard (applyPreprepareMsg source seqNo batch) := by
  refine keeps_get_bind fun st => closed.lift_bind (st.sequence_elsewhere seqNo) fun s => ?_
  split
  · exact closed.onSequence (.applyPreprepareBack source) seqNo
  · exact closed.lift_bind (st.ae.bucketOf_elsewhere seqNo) fun bucket =>
      closed.allocateFollower bucket seqNo batch

/-- Each round commits the lowest sequence. -/
theorem Closed.commitInOrder (fuel : Nat) : Keeps guard (commitInOrder fuel) := by
  induction fuel with
  | zero => exact keeps_pure ()
  | succ fuel ih =>
    refine keeps_get_bind fun st => closed.lift_bind st.highWatermark_elsewhere fun high => ?_
    split
    · refine closed.lift_bind (st.sequence_elsewhere _) fun s => ?_
      split
      · exact keeps_pure ()
      split
      · exact closed.fail (by simp)
      · exact keeps_bind (closed.commit _) fun _ =>
          keeps_bind (closed.assign fun _ => ⟨rfl, rfl, rfl, rfl⟩) fun _ => ih
    · exact keeps_pure ()

/-- A vote, then the commits it lets through. -/
theorem Closed.applyCommitMsg (source : NodeID) (seqNo : Nat) (digest : Bytes) :
    Keeps guard (applyCommitMsg source seqNo digest) := by
  refine keeps_bind (closed.vote source seqNo digest) fun _ => keeps_get_bind fun st =>
    closed.lift_bind (st.sequence_elsewhere _) fun s => ?_
  split
  · exact keeps_pure ()
  · exact closed.lift_bind st.highWatermark_elsewhere fun high => closed.commitInOrder _

theorem Closed.nextPreprepare (bucket : Nat) :
    Keeps guard (nextPreprepare bucket) := by
  refine keeps_get_bind fun st => ?_
  split
  · exact closed.fail (by simp)
  · exact closed.lift_bind (MsgBuffer.nextFrom_failsOnly st.filter_elsewhere _ _) fun _ =>
      keeps_bind (closed.assign fun _ => ⟨rfl, rfl, rfl, rfl⟩) fun _ => keeps_pure _

/-- Each round takes the next one out of the buffer. -/
theorem Closed.applyPreprepares (source : NodeID) (bucket fuel : Nat) (msg : Msg) :
    Keeps guard (applyPreprepares source bucket fuel msg) := by
  induction fuel generalizing msg with
  | zero => exact keeps_pure ()
  | succ fuel ih =>
    unfold ActiveEpoch.applyPreprepares
    split
    · refine keeps_bind (closed.applyPreprepareMsg _ _ _) fun _ =>
        keeps_bind (closed.assign fun _ => ⟨rfl, rfl, rfl, rfl⟩) fun _ =>
          keeps_bind (closed.nextPreprepare bucket) fun next => ?_
      split
      · exact keeps_pure ()
      · exact ih _
    · exact closed.fail (by simp)

theorem Closed.apply (source : NodeID) (msg : Msg) :
    Keeps guard (apply source msg) := by
  unfold ActiveEpoch.apply
  split
  · refine keeps_get_bind fun st => closed.lift_bind (st.ae.bucketOf_elsewhere _) fun bucket => ?_
    split
    · exact closed.fail (by simp)
    · exact closed.applyPreprepares _ _ _ _
  · exact closed.onSequence (.applyPrepareMsg _ _) _
  · exact closed.applyCommitMsg _ _ _
  · exact closed.fail (by simp)

/-- A message for later is buffered. -/
theorem Closed.storeFuture (source : NodeID) (msg : Msg) :
    Keeps guard (storeFuture source msg) := by
  refine keeps_get_bind fun st => ?_
  split
  · refine closed.lift_bind (st.ae.bucketOf_elsewhere _) fun bucket => ?_
    split
    · exact closed.fail (by simp)
    · exact closed.assign fun _ => ⟨rfl, rfl, rfl, rfl⟩
  · split
    · exact closed.fail (by simp)
    · exact closed.assign fun _ => ⟨rfl, rfl, rfl, rfl⟩

end

/-- **A message**: for now, for later, or for the bin. -/
theorem regular_step (source : NodeID) (msg : Msg) : Regular (step source msg) := by
  intro guard closed
  refine keeps_get_bind fun st => closed.lift_bind (st.filter_elsewhere source msg) fun applyable => ?_
  split
  · exact keeps_pure ()
  · exact keeps_pure ()
  · exact closed.storeFuture source msg
  · exact closed.apply source msg

/-! ### Moving on -/

/-- **The buffers**: the preprepares, then the others. -/
theorem regular_drainBuffers : Regular drainBuffers := by
  intro guard closed
  refine keeps_get_bind fun st => keeps_bind (keeps_forEach fun bucket _ => ?_) fun _ =>
    keeps_forEach fun id _ => ?_
  · refine keeps_bind (closed.nextPreprepare bucket) fun next => ?_
    split
    · exact keeps_pure ()
    · exact keeps_get_bind fun st => closed.apply _ _
  · refine keeps_get_bind fun st => ?_
    split
    · exact closed.fail (by simp)
    · exact keeps_bind (MsgBuffer.keeps_iterate
        (fun st id msg first => (st.filter_elsewhere id msg).mono
        (closed.elsewhere first)) closed.apply _) fun _ => closed.assign fun _ => ⟨rfl, rfl, rfl, rfl⟩

section

variable (closed : Closed guard)
include closed

/-- An N-entry, and a heap of fresh sequences. -/
theorem Closed.addInterval (high : Nat) : Keeps guard (addInterval high) := by
  intro st
  refine safe_get_bind (safe_bind_keeps (closed.interval st (high + 1)) fun _ => ?_)
  split
  · exact closed.fail (by simp)
  · exact closed.assign fun _ => ⟨rfl, rfl, rfl, rfl⟩

theorem Closed.extendWindow (fuel : Nat) : Keeps guard (extendWindow fuel) := by
  induction fuel with
  | zero => exact keeps_pure ()
  | succ fuel ih =>
    refine keeps_get_bind fun st => closed.lift_bind st.highWatermark_elsewhere fun high => ?_
    split
    · exact keeps_bind (closed.addInterval high) fun _ => ih
    · exact keeps_pure ()

theorem Closed.advanceProposal (bucket seqNo : Nat) :
    Keeps guard (advanceProposal bucket seqNo) := by
  refine keeps_get_bind fun st => ?_
  split
  · exact closed.fail (by simp)
  · exact keeps_pure _

theorem Closed.setProposal (bucket : Nat) (prb : ProposalBucket) :
    Keeps guard (setProposal bucket prb) :=
  closed.assign fun _ => ⟨rfl, rfl, rfl, rfl⟩

/-- An owner allocates, and moves its cursor. -/
theorem Closed.propose (bucket seqNo : Nat) (clientRequests : List RequestAck) :
    Keeps guard (propose bucket seqNo clientRequests) :=
  keeps_bind (closed.onSequence (.allocateAsOwner clientRequests) seqNo) fun _ =>
    closed.moveUnallocated bucket

/-- Each round proposes a full batch. -/
theorem Closed.proposeFull (bucket fuel : Nat) :
    Keeps guard (proposeFull bucket fuel) := by
  induction fuel with
  | zero => exact keeps_pure ()
  | succ fuel ih =>
    refine keeps_get_bind fun st => keeps_bind (closed.unallocated bucket) fun seqNo =>
      closed.lift_bind st.highWatermark_elsewhere fun high => ?_
    split
    · exact keeps_pure ()
    refine keeps_bind (closed.advanceProposal bucket seqNo) fun prb => ?_
    split
    · exact keeps_bind (closed.setProposal _ _) fun _ => keeps_bind (closed.propose _ _ _) fun _ => ih
    · exact closed.setProposal _ _

theorem Closed.proposeBucket (bucket : Nat) :
    Keeps guard (proposeBucket bucket) := by
  refine keeps_get_bind fun st => ?_
  split
  · exact keeps_pure ()
  · exact keeps_bind (closed.unallocated bucket) fun seqNo =>
      closed.lift_bind st.highWatermark_elsewhere fun high => closed.proposeFull _ _

end

/-- **`advance`**: the window, the buffers, the proposals. -/
theorem regular_advance : Regular advance := by
  intro guard closed
  refine keeps_get_bind fun st => closed.lift_bind st.highWatermark_elsewhere fun high => ?_
  split
  · exact closed.fail (by simp)
  split
  · exact closed.fail (by simp)
  refine keeps_bind (closed.extendWindow _) fun _ => keeps_bind (regular_drainBuffers _ closed) fun _ =>
    keeps_get_bind fun drained => ?_
  exact keeps_bind (closed.queue _ _) fun _ => keeps_bind (closed.assign fun _ => ⟨rfl, rfl, rfl, rfl⟩)
    fun _ => keeps_forEach fun bucket _ => closed.proposeBucket bucket

/-- **A stable checkpoint** drops what is below it. -/
theorem regular_moveLowWatermark (seqNo : Nat) : Regular (moveLowWatermark seqNo) := by
  intro guard closed
  refine keeps_get_bind fun st => ?_
  split
  · exact keeps_pure _
  split
  · exact keeps_pure _
  · exact keeps_bind (regular_advance _ closed) fun _ => keeps_get_bind fun _ =>
      closed.lift_bind (dropIntervals_elsewhere _ _) fun _ => keeps_bind
        (closed.assign fun _ => ⟨rfl, rfl, rfl, rfl⟩) fun _ =>
        keeps_pure _

/-- **A digest**, if its sequence is in the window. -/
theorem regular_applyBatchHashResult (seqNo : Nat) (digest : Bytes) :
    Regular (applyBatchHashResult seqNo digest) := by
  intro guard closed
  refine keeps_get_bind fun st => closed.lift_bind (st.inWindow_elsewhere _) fun applyable => ?_
  split
  · exact closed.onSequence (.applyBatchHashResult digest) seqNo
  · exact keeps_pure ()

theorem Closed.advanceRequest (closed : Closed guard) (ack : RequestAck) :
    Keeps guard (advanceRequest ack) := by
  refine keeps_get_bind fun st => ?_
  split
  · exact closed.assign fun _ => ⟨rfl, rfl, rfl, rfl⟩
  split
  · exact closed.fail (by simp)
  · exact keeps_bind (closed.assign fun _ => ⟨rfl, rfl, rfl, rfl⟩) fun _ =>
      closed.operate (.satisfyOutstanding ack) _ _

/-- **Available requests** satisfy the sequences that await them. -/
theorem regular_advanceRequests : Regular advanceRequests :=
  fun _ closed => keeps_get_bind fun _ => keeps_bind (closed.consume _) fun _ =>
    keeps_forEach fun ack _ => closed.advanceRequest ack

/-! ### Ticks -/

/-- A heartbeat proposes what is pending. -/
theorem Closed.heartbeat (closed : Closed guard) (bucket : Nat) : Keeps guard (heartbeat bucket) := by
  refine keeps_get_bind fun st => keeps_bind (closed.unallocated bucket) fun seqNo =>
    closed.lift_bind st.highWatermark_elsewhere fun high => ?_
  split
  · exact keeps_pure ()
  split
  · exact keeps_pure ()
  refine keeps_bind (closed.advanceProposal bucket seqNo) fun prb => ?_
  split
  · exact keeps_bind (closed.setProposal _ _) fun _ => closed.propose _ _ _
  · exact keeps_bind (closed.setProposal _ _) fun _ => closed.propose _ _ _

/-- Without progress the epoch is suspected. -/
theorem Closed.suspectAfter (closed : Closed guard) (ticks : Nat) : Keeps guard (suspectAfter ticks) := by
  intro st
  refine safe_get_bind ?_
  split
  · exact closed.suspect st
  · exact keeps_pure () st

/-- **A tick**: heartbeats, and suspicion. -/
theorem regular_tick : Regular tick := by
  intro guard closed
  refine keeps_get_bind fun st => ?_
  split
  · exact closed.assign fun _ => ⟨rfl, rfl, rfl, rfl⟩
  refine keeps_bind (closed.assign fun _ => ⟨rfl, rfl, rfl, rfl⟩) fun _ =>
    keeps_bind (closed.suspectAfter _) fun _ => keeps_get_bind fun st => ?_
  split
  · exact keeps_pure ()
  · exact keeps_forEach fun bucket _ => closed.heartbeat bucket

end ActiveEpoch

end MirBft
