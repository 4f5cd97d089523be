/-
**Batches by digest (`batch_tracker.go`).**

The tracker remembers which requests a digest stands for, and which batches it has asked other nodes
for. A `*batch` pointer is the digest it is stored under.
-/

import MirBft.Library.GoMap
import MirBft.Model.MsgBuffers
import MirBft.Model.Persisted
import MirBft.Model.Stateless

namespace MirBft

structure Batch where
  observedSequences : Finset Nat
  requestAcks : List RequestAck
deriving DecidableEq

structure BatchTracker where
  batchesByDigest : GoMap Bytes Batch
  fetchInFlight : GoMap Bytes (List Nat)

namespace BatchTracker

/-- `newBatchTracker`. -/
def empty : BatchTracker := { batchesByDigest := ∅, fetchInFlight := ∅ }

def getBatch (bt : BatchTracker) (digest : Bytes) : Option Batch := bt.batchesByDigest.lookup digest

/-- The sequences a batch with the digest was fetched for are observed, and it is in flight no
more. -/
def settle (bt : BatchTracker) (digest : Bytes) (batch : Batch) : BatchTracker :=
  let inFlight := (bt.fetchInFlight.lookup digest).getD []
  { batchesByDigest := bt.batchesByDigest.insert digest
      { batch with observedSequences := batch.observedSequences ∪ inFlight.toFinset }
    fetchInFlight := bt.fetchInFlight.erase digest }

/-- The batch stored under the digest, or a new one with these requests. -/
def batchFor (bt : BatchTracker) (digest : Bytes) (requestAcks : List RequestAck) : Batch :=
  (bt.getBatch digest).getD { observedSequences := ∅, requestAcks }

def addBatch (bt : BatchTracker) (seqNo : Nat) (digest : Bytes) (requestAcks : List RequestAck) :
    BatchTracker :=
  let batch := bt.batchFor digest requestAcks
  bt.settle digest { batch with observedSequences := insert seqNo batch.observedSequences }

/-- `reinitialize`: every batch of the log. -/
def reinitialize (bt : BatchTracker) : List Persistent → BatchTracker
  | [] => bt
  | .qEntry entry :: rest =>
    BatchTracker.reinitialize (bt.addBatch entry.seqNo entry.digest entry.requests) rest
  | _ :: rest => bt.reinitialize rest

/-- `truncate`: batches observed only below a sequence go. -/
def truncate (bt : BatchTracker) (seqNo : Nat) : BatchTracker :=
  { bt with batchesByDigest := bt.batchesByDigest.keys.foldl (fun batches digest =>
      match batches.lookup digest with
      | none => batches
      | some batch =>
        let kept := batch.observedSequences.filter (seqNo ≤ ·)
        if kept = ∅ then batches.erase digest
        else batches.insert digest { batch with observedSequences := kept }) bt.batchesByDigest }

def fetchBatch (bt : BatchTracker) (seqNo : Nat) (digest : Bytes) (sources : List NodeID) :
    BatchTracker × List Action :=
  let inFlight := (bt.fetchInFlight.lookup digest).getD []
  if seqNo ∈ inFlight then (bt, [])
  else ({ bt with fetchInFlight := bt.fetchInFlight.insert digest (inFlight ++ [seqNo]) },
    [.send sources (.fetchBatch seqNo digest)])

def replyFetchBatch (bt : BatchTracker) (source : NodeID) (seqNo : Nat) (digest : Bytes) :
    List Action :=
  match bt.getBatch digest with
  | none => []
  | some batch => [.send [source] (.forwardBatch seqNo batch.requestAcks digest)]

def applyForwardBatchMsg (bt : BatchTracker) (source : NodeID) (seqNo : Nat) (digest : Bytes)
    (requestAcks : List RequestAck) : List Action :=
  if digest ∉ bt.fetchInFlight then []
  else [.hash (batchHashData requestAcks) (.verifyBatch source seqNo requestAcks digest)]

def step (bt : BatchTracker) (source : NodeID) (msg : Msg) : Go (List Action) :=
  match msg with
  | .fetchBatch seqNo digest => pure (bt.replyFetchBatch source seqNo digest)
  | .forwardBatch seqNo requestAcks digest =>
      pure (bt.applyForwardBatchMsg source seqNo digest requestAcks)
  | _ => throw "unexpected bad batch message type, this indicates a bug"

def applyVerifyBatchHashResult (bt : BatchTracker) (digest expectedDigest : Bytes)
    (requestAcks : List RequestAck) : Go BatchTracker :=
  if expectedDigest ≠ digest then throw "byzantine"
  else if digest ∉ bt.fetchInFlight then pure bt
  else pure (bt.settle digest (bt.batchFor digest requestAcks))

def hasFetchInFlight (bt : BatchTracker) : Bool := !bt.fetchInFlight.entries.isEmpty

/-- A sequence is observed for a batch that is known (`fetchNewEpochState`). -/
def observe (bt : BatchTracker) (digest : Bytes) (seqNo : Nat) : BatchTracker :=
  match bt.getBatch digest with
  | none => bt
  | some batch =>
    let batch := { batch with observedSequences := insert seqNo batch.observedSequences }
    { bt with batchesByDigest := bt.batchesByDigest.insert digest batch }

/-! ### What stays tracked -/

/-- The batch with the digest is tracked for the sequence. -/
def Observes (bt : BatchTracker) (digest : Bytes) (seqNo : Nat) : Prop :=
  ∃ batch, bt.getBatch digest = some batch ∧ seqNo ∈ batch.observedSequences

/-- What was tracked still is. -/
def Grows (bt after : BatchTracker) : Prop :=
  ∀ digest seqNo, bt.Observes digest seqNo → after.Observes digest seqNo

variable {bt after : BatchTracker} {digest : Bytes} {batch : Batch}

theorem Grows.of_insert (isAfter : after.batchesByDigest = bt.batchesByDigest.insert digest batch)
    (covers : ∀ old, bt.getBatch digest = some old → old.observedSequences ⊆ batch.observedSequences) :
    bt.Grows after := by
  rintro other seqNo ⟨old, found, member⟩
  unfold Observes getBatch
  rw [isAfter]
  by_cases same : other = digest
  · subst same
    exact ⟨batch, AList.lookup_insert _, covers old found member⟩
  · exact ⟨old, (AList.lookup_insert_ne same).trans found, member⟩

theorem grows_settle
    (covers : ∀ old, bt.getBatch digest = some old → old.observedSequences ⊆ batch.observedSequences) :
    bt.Grows (bt.settle digest batch) :=
  .of_insert rfl fun old found => (covers old found).trans Finset.subset_union_left

theorem grows_addBatch (bt : BatchTracker) (seqNo : Nat) (digest : Bytes) (requestAcks : List RequestAck) :
    bt.Grows (bt.addBatch seqNo digest requestAcks) := by
  refine grows_settle fun old found => ?_
  rw [batchFor, found]
  exact Finset.subset_insert _ _

theorem observes_addBatch (bt : BatchTracker) (seqNo : Nat) (digest : Bytes) (requestAcks : List RequestAck) :
    (bt.addBatch seqNo digest requestAcks).Observes digest seqNo :=
  ⟨_, AList.lookup_insert _, Finset.mem_union_left _ (Finset.mem_insert_self _ _)⟩

theorem grows_observe (bt : BatchTracker) (digest : Bytes) (seqNo : Nat) :
    bt.Grows (bt.observe digest seqNo) := by
  unfold observe
  split
  · exact fun _ _ => id
  · rename_i batch found
    refine .of_insert rfl fun old isOld => ?_
    cases found.symm.trans isOld
    exact Finset.subset_insert _ _

theorem grows_fetchBatch (bt : BatchTracker) (seqNo : Nat) (digest : Bytes) (sources : List NodeID) :
    bt.Grows (bt.fetchBatch seqNo digest sources).1 := by
  unfold fetchBatch
  dsimp only
  split
  · exact fun _ _ => id
  · exact fun _ _ => id

theorem grows_applyVerifyBatchHashResult {requestAcks : List RequestAck} {expectedDigest : Bytes}
    (applied : bt.applyVerifyBatchHashResult digest expectedDigest requestAcks = .ok after) :
    bt.Grows after := by
  unfold applyVerifyBatchHashResult at applied
  split at applied
  · cases applied
  split at applied
  · cases applied
    exact fun _ _ => id
  · cases applied
    refine grows_settle fun old found => ?_
    rw [batchFor, found]
    exact Finset.Subset.refl _

/-- **The batches of the log** are tracked from the start on, and no batch is forgotten. -/
theorem reinitialize_tracks (bt : BatchTracker) (log : List Persistent) : bt.Grows (bt.reinitialize log) ∧
    ∀ entry, .qEntry entry ∈ log → (bt.reinitialize log).Observes entry.digest entry.seqNo := by
  induction log generalizing bt with
  | nil => exact ⟨fun _ _ => id, nofun⟩
  | cons entry rest ih =>
    cases entry with
    | qEntry added =>
      obtain ⟨grows, tracks⟩ := ih (bt.addBatch added.seqNo added.digest added.requests)
      refine ⟨fun _ _ observed => grows _ _ (grows_addBatch _ _ _ _ _ _ observed), fun entry member => ?_⟩
      rcases List.mem_cons.mp member with same | later
      · cases same
        exact grows _ _ (observes_addBatch ..)
      · exact tracks entry later
    | _ => exact ⟨(ih bt).1, fun entry member => (ih bt).2 entry (by simpa using member)⟩

/-- **A cut** leaves what is tracked for a sequence that is not below it. -/
theorem observes_truncate {seqNo low : Nat} (observed : bt.Observes digest seqNo) (above : low ≤ seqNo) :
    (bt.truncate low).Observes digest seqNo := by
  -- Every step of the loop leaves it.
  refine List.foldlRecOn (motive := fun batches : GoMap Bytes Batch =>
    ∃ batch, batches.lookup digest = some batch ∧ seqNo ∈ batch.observedSequences) _ _ observed ?_
  rintro batches ⟨batch, found, member⟩ key _
  split
  · exact ⟨batch, found, member⟩
  rename_i other isOther
  by_cases same : digest = key
  · subst same
    cases found.symm.trans isOther
    have kept : seqNo ∈ batch.observedSequences.filter (low ≤ ·) := Finset.mem_filter.mpr ⟨member, above⟩
    rw [if_neg (Finset.ne_empty_of_mem kept)]
    exact ⟨_, AList.lookup_insert _, kept⟩
  dsimp only
  split
  · exact ⟨batch, (AList.lookup_erase_ne same).trans found, member⟩
  · exact ⟨batch, (AList.lookup_insert_ne same).trans found, member⟩

end BatchTracker

end MirBft
