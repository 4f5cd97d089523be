/-
**The three-phase commit of one sequence number (`sequence.go`).**

A `Sequence` is the state of one sequence number of one epoch at one replica. Its operations also
append to the log, so they run on the pair of both (`SeqState`) and return the actions.

* The pointers to `clientRequest` objects of an owned batch are their acks; what `prepare` reads of
  those objects, the nodes that already have the request, is the parameter `agreements`.
* A node the source's `nodeChoices` map has no entry for is at the zero choice, as `nodeChoice`
  makes it; likewise for the counters.
* `advanceState` loops until the state does not change. Every change raises the state's rank, so
  that seven rounds are enough (`advanceState_stable`).
-/

import MirBft.Model.Persisted
import MirBft.Model.Stateless

namespace MirBft

/-- `sequenceState`. -/
inductive SequenceState where
  | uninitialized
  | allocated
  | pendingRequests
  | ready
  | preprepared
  | prepared
  | committed
deriving DecidableEq, Repr

/-- The constant's value; the source compares states by it. -/
def SequenceState.rank : SequenceState → Nat
  | .uninitialized => 0
  | .allocated => 1
  | .pendingRequests => 2
  | .ready => 3
  | .preprepared => 4
  | .prepared => 5
  | .committed => 6

/-- `nodeSeqState`: what a node has said about the sequence. -/
inductive NodeSeqState where
  | uninitialized
  | preprepared
  | prepared
deriving DecidableEq, Repr

structure NodeSeqChoice where
  state : NodeSeqState
  digest : Option Bytes
deriving DecidableEq, Repr

structure Sequence where
  owner : NodeID
  seqNo : Nat
  epoch : Nat
  myConfig : InitialParameters
  networkConfig : NetworkConfig
  state : SequenceState
  qEntry : Option QEntry
  clientRequests : List RequestAck
  batch : List RequestAck
  outstandingReqs : Finset Bytes
  digest : Option Bytes
  nodeChoices : NodeID → NodeSeqChoice
  prepares : Bytes → Nat
  commits : Bytes → Nat

def newSequence (owner : NodeID) (epoch seqNo : Nat) (networkConfig : NetworkConfig)
    (myConfig : InitialParameters) : Sequence where
  owner
  seqNo
  epoch
  myConfig
  networkConfig
  state := .uninitialized
  qEntry := none
  clientRequests := []
  batch := []
  outstandingReqs := ∅
  digest := none
  nodeChoices := fun _ => ⟨.uninitialized, none⟩
  prepares := fun _ => 0
  commits := fun _ => 0

/-- A sequence and the log it appends to. -/
abbrev SeqState := Sequence × Persisted

namespace Sequence

/-- The digest as the bytes it is counted under: `string(nil)` is the empty string. -/
def digestKey (s : Sequence) : Bytes := s.digest.getD []

/-! ### The transitions of `advanceState` -/

def checkRequests (s : Sequence) : Sequence :=
  if s.outstandingReqs.card > 0 then s else { s with state := .ready }

/-- What `prepare` sends: the owner its preprepare, after forwarding the requests to the nodes that
do not have them, any other node its prepare. -/
def prepareActions (agreements : RequestAck → Finset NodeID) (s : Sequence) : List Action :=
  if s.owner = s.myConfig.id then
    s.clientRequests.map (fun ack =>
        .forwardRequest (s.networkConfig.nodes.filter (· ∉ agreements ack)) ack)
      ++ [.send s.networkConfig.nodes (.preprepare s.seqNo s.epoch s.batch)]
  else [.send s.networkConfig.nodes (.prepare s.seqNo s.epoch s.digestKey)]

/-- The sequence with its batch entered in the log. -/
def entered (s : Sequence) : Sequence :=
  { s with qEntry := some ⟨s.seqNo, s.digestKey, s.batch⟩, state := .preprepared }

def prepare (agreements : RequestAck → Finset NodeID) (s : Sequence) (p : Persisted) :
    Go (SeqState × List Action) := do
  let (p, actions) ← p.addQEntry ⟨s.seqNo, s.digestKey, s.batch⟩
  pure ((s.entered, p), actions ++ prepareActions agreements s)

/-- The condition of `checkPrepareQuorum`: we have prepared the digest ourselves, and a quorum
has. -/
def prepareQuorum (s : Sequence) : Bool :=
  let myChoice := s.nodeChoices s.myConfig.id
  myChoice.state ≠ .uninitialized && myChoice.digest.getD [] == s.digestKey &&
    intersectionQuorum s.networkConfig ≤ s.prepares s.digestKey

def checkPrepareQuorum (s : Sequence) (p : Persisted) : Go (SeqState × List Action) :=
  if s.prepareQuorum then do
    let (p, actions) ← p.addPEntry ⟨s.seqNo, s.digestKey⟩
    pure (({ s with state := .prepared }, p),
      actions ++ [.send s.networkConfig.nodes (.commit s.seqNo s.epoch s.digestKey)])
  else pure ((s, p), [])

/-- The condition of `checkCommitQuorum`: our own commit came back, and a quorum's. -/
def commitQuorum (s : Sequence) : Bool :=
  (s.nodeChoices s.myConfig.id).state = .prepared &&
    intersectionQuorum s.networkConfig ≤ s.commits s.digestKey

def checkCommitQuorum (s : Sequence) : Sequence :=
  if s.commitQuorum then { s with state := .committed } else s

/-- One round of `advanceState`. -/
def advanceOnce (agreements : RequestAck → Finset NodeID) :
    SeqState → Go (SeqState × List Action)
  | (s, p) => match s.state with
    | .uninitialized | .allocated | .committed => pure ((s, p), [])
    | .pendingRequests => pure ((s.checkRequests, p), [])
    | .ready =>
      if s.digest.isSome || s.batch.isEmpty then s.prepare agreements p else pure ((s, p), [])
    | .preprepared => s.checkPrepareQuorum p
    | .prepared => pure ((s.checkCommitQuorum, p), [])

def advanceState (agreements : RequestAck → Finset NodeID) (s : Sequence) (p : Persisted) :
    Go (SeqState × List Action) :=
  untilStable (fun state => state.1.state) (advanceOnce agreements) 7 (s, p)

/-! ### The operations -/

section Operations

variable (agreements : RequestAck → Finset NodeID)

/-- The vote `applyPrepareMsg` records. -/
def votePrepare (s : Sequence) (source : NodeID) (digest : Option Bytes) : Sequence :=
  { s with
    nodeChoices := Function.update s.nodeChoices source ⟨.preprepared, digest⟩
    prepares := Function.update s.prepares (digest.getD []) (s.prepares (digest.getD []) + 1) }

/-- `applyPrepareMsg`. The owner is exempt from the check for duplicates. -/
def applyPrepareMsg (s : Sequence) (p : Persisted) (source : NodeID) (digest : Option Bytes) :
    Go (SeqState × List Action) :=
  if source ≠ s.owner ∧ (s.nodeChoices source).state ≠ .uninitialized then pure ((s, p), [])
  else (s.votePrepare source digest).advanceState agreements p

def applyBatchHashResult (s : Sequence) (p : Persisted) (digest : Option Bytes) :
    Go (SeqState × List Action) :=
  ({ s with digest } : Sequence).applyPrepareMsg agreements p s.owner digest

/-- The sequence with its batch, waiting for requests. -/
def withBatch (s : Sequence) (requestAcks : List RequestAck) (outstandingReqs : Finset Bytes)
    (state : SequenceState) : Sequence :=
  { s with state, batch := requestAcks, outstandingReqs }

def allocate (s : Sequence) (p : Persisted) (requestAcks : List RequestAck)
    (outstandingReqs : Finset Bytes) : Go (SeqState × List Action) :=
  if s.state ≠ .uninitialized then throw "must be uninitialized to allocate"
  else if requestAcks.isEmpty then
    (s.withBatch requestAcks outstandingReqs .ready).applyBatchHashResult agreements p none
  else do
    let (state, actions) ←
      (s.withBatch requestAcks outstandingReqs .pendingRequests).advanceState agreements p
    pure (state, .hash (batchHashData requestAcks)
      (.batch s.owner s.epoch s.seqNo requestAcks) :: actions)

def allocateAsOwner (s : Sequence) (p : Persisted) (clientRequests : List RequestAck) :
    Go (SeqState × List Action) :=
  ({ s with clientRequests } : Sequence).allocate agreements p clientRequests ∅

def satisfyOutstanding (s : Sequence) (p : Persisted) (fr : RequestAck) :
    Go (SeqState × List Action) :=
  if fr.digest ∉ s.outstandingReqs then throw "told request was ready but we weren't waiting for it"
  else ({ s with outstandingReqs := s.outstandingReqs.erase fr.digest } : Sequence).advanceState
    agreements p

/-- The vote `applyCommitMsg` records. The state is set before it is tested, so that the branch that
should count an implicit prepare is never taken (and would add nothing). -/
def voteCommit (s : Sequence) (source : NodeID) (digest : Bytes) : Sequence :=
  { s with
    nodeChoices := Function.update s.nodeChoices source
      { s.nodeChoices source with state := .prepared }
    commits := Function.update s.commits digest (s.commits digest + 1) }

def applyCommitMsg (s : Sequence) (p : Persisted) (source : NodeID) (digest : Bytes) :
    Go (SeqState × List Action) :=
  if (s.nodeChoices source).state = .prepared then pure ((s, p), [])
  else (s.voteCommit source digest).advanceState agreements p

end Operations

/-! ### What a round of `advanceState` can do -/

/-- The rounds that change a sequence, with the log entry and the actions of each. -/
inductive Advance (agreements : RequestAck → Finset NodeID) :
    SeqState → SeqState → List Action → Prop
  | requestsReady {s p} : s.state = .pendingRequests → s.outstandingReqs = ∅ →
      Advance agreements (s, p) ({ s with state := .ready }, p) []
  | preprepare {s p p' actions} : s.state = .ready → (s.digest.isSome || s.batch.isEmpty) = true →
      p.addQEntry ⟨s.seqNo, s.digestKey, s.batch⟩ = .ok (p', actions) →
      Advance agreements (s, p) (s.entered, p') (actions ++ prepareActions agreements s)
  | prepare {s p p' actions} : s.state = .preprepared → s.prepareQuorum = true →
      p.addPEntry ⟨s.seqNo, s.digestKey⟩ = .ok (p', actions) →
      Advance agreements (s, p) ({ s with state := .prepared }, p')
        (actions ++ [.send s.networkConfig.nodes (.commit s.seqNo s.epoch s.digestKey)])
  | commit {s p} : s.state = .prepared → s.commitQuorum = true →
      Advance agreements (s, p) ({ s with state := .committed }, p) []

variable {agreements : RequestAck → Finset NodeID} {before after : SeqState} {actions : List Action}

/-- **A round does nothing, or one of the four transitions.** -/
theorem advanceOnce_eq_ok (stepped : advanceOnce agreements before = .ok (after, actions)) :
    (after = before ∧ actions = []) ∨ Advance agreements before after actions := by
  obtain ⟨s, p⟩ := before
  unfold advanceOnce at stepped
  cases here : s.state <;> simp only [here] at stepped
  case uninitialized | allocated | committed =>
    rw [pure_eq_ok, Prod.mk.injEq] at stepped
    exact Or.inl ⟨stepped.1.symm, stepped.2.symm⟩
  case pendingRequests =>
    obtain ⟨rfl, rfl⟩ := stepped
    unfold checkRequests
    by_cases waiting : s.outstandingReqs.card > 0
    · rw [if_pos waiting]
      exact Or.inl ⟨rfl, rfl⟩
    · rw [if_neg waiting]
      refine Or.inr (.requestsReady here (Finset.card_eq_zero.mp ?_))
      omega
  case ready =>
    by_cases hashed : (s.digest.isSome || s.batch.isEmpty) = true
    · rw [if_pos hashed] at stepped
      obtain ⟨⟨p', appended⟩, added, returned⟩ := bind_eq_ok.mp stepped
      obtain ⟨rfl, rfl⟩ := returned
      exact Or.inr (.preprepare here hashed added)
    · rw [if_neg hashed, pure_eq_ok, Prod.mk.injEq] at stepped
      exact Or.inl ⟨stepped.1.symm, stepped.2.symm⟩
  case preprepared =>
    unfold checkPrepareQuorum at stepped
    by_cases quorum : s.prepareQuorum = true
    · rw [if_pos quorum] at stepped
      obtain ⟨⟨p', appended⟩, added, returned⟩ := bind_eq_ok.mp stepped
      obtain ⟨rfl, rfl⟩ := returned
      exact Or.inr (.prepare here quorum added)
    · rw [if_neg quorum, pure_eq_ok, Prod.mk.injEq] at stepped
      exact Or.inl ⟨stepped.1.symm, stepped.2.symm⟩
  case prepared =>
    obtain ⟨rfl, rfl⟩ := stepped
    unfold checkCommitQuorum
    by_cases quorum : s.commitQuorum = true
    · rw [if_pos quorum]
      exact Or.inr (.commit here quorum)
    · rw [if_neg quorum]
      exact Or.inl ⟨rfl, rfl⟩

theorem Advance.rank_lt (step : Advance agreements before after actions) :
    before.1.state.rank < after.1.state.rank := by
  cases step with
  | requestsReady here _ => simp [here, SequenceState.rank]
  | preprepare here _ _ => simp [here, entered, SequenceState.rank]
  | prepare here _ _ => simp [here, SequenceState.rank]
  | commit here _ => simp [here, SequenceState.rank]

/-- **Seven rounds are enough**: `advanceState` ends where a round does not change the state. -/
theorem advanceState_stable {s : Sequence} {p : Persisted} {after : SeqState}
    (advanced : s.advanceState agreements p = .ok (after, actions)) :
    advanceOnce agreements after = .ok (after, []) := by
  have bounded (state : SeqState) : state.1.state.rank ≤ 6 := by
    cases state.1.state <;> simp [SequenceState.rank]
  obtain ⟨last, more, stepped, same⟩ := untilStable_stable (fun state => state.1.state.rank) 6
    (fun state next emitted stepped changed => by
      rcases advanceOnce_eq_ok stepped with ⟨rfl, _⟩ | step
      · exact absurd rfl changed
      · exact step.rank_lt)
    bounded (by omega) advanced
  rcases advanceOnce_eq_ok stepped with ⟨rfl, rfl⟩ | step
  · exact stepped
  · have raised := step.rank_lt
    simp only [same] at raised
    omega

end Sequence

end MirBft
