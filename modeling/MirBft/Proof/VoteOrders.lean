/-
**The order in which prepares and commits are delivered.**

A sequence counts votes and advances as far as the counts allow. The conditions it tests are never
lost again, so that a delivery of several votes is the same as counting all of them and advancing
once (`deliverAll_eq_ok`).

Whether a vote counts does depend on the order: `applyCommitMsg` marks the node as prepared before
it tests whether the node has prepared, so that a prepare that comes after its node's commit is
never counted.

* `same_outcome_iff`: two orders of the same votes leave the sequence alike if and only if, for each
  digest, they let the commits of as many nodes overtake their prepares;
* `overtaken_prepare_stalls`: one such order leaves a sequence behind that another one prepares.
-/

import Mathlib.Data.List.Pairwise
import MirBft.Proof.FourNodes
import MirBft.Proof.SequenceRun

namespace MirBft

open List Function

/-! ### A sequence at rest -/

namespace Sequence

/-- **The sequence has advanced as far as it can.** -/
structure AtRest (s : Sequence) : Prop extends s.Settled where
  commits : s.state = .prepared → s.commitQuorum = false

theorem AtRest.new (owner : NodeID) (epoch seqNo : Nat) (nc : NetworkConfig) (my : InitialParameters) :
    (newSequence owner epoch seqNo nc my).AtRest := ⟨.new owner epoch seqNo nc my, nofun⟩

variable {agreements : RequestAck → Finset NodeID} {s : Sequence} {p : Persisted} {start : Sequence}

theorem AtRest.of_advanceState {p' : Persisted} {actions : List Action}
    (advanced : start.advanceState agreements p = .ok ((s, p'), actions)) : s.AtRest := by
  refine ⟨settled_of_advanceState advanced, fun prepared => ?_⟩
  have stable := advanceState_stable advanced
  unfold advanceOnce at stable
  simp only [prepared, checkCommitQuorum] at stable
  by_contra quorum
  rw [if_pos (Bool.eq_true_of_not_eq_false quorum), pure_eq_ok] at stable
  have same := congrArg (fun result : SeqState × List Action => result.1.1.state) stable
  exact absurd (same.trans prepared) nofun

/-- **A sequence is at rest between the operations on it.** -/
theorem AtRest.of_run {condition : Sequence → SeqOp → Prop} {ops : List SeqOp} (initial : start.AtRest)
    (run : SeqRun condition start ops s) : s.AtRest := by
  induction run with
  | nil => exact initial
  | snoc agreements p _ admitted _ ran ih =>
    rcases SeqOp.run_advances admitted.foreign ran with ⟨rfl, _⟩ | ⟨_, _, _, advanced, _⟩
    · exact ih
    · exact .of_advanceState advanced

/-- The state that the quorums lead to. -/
def advancedState (prepareQuorum commitQuorum : Bool) : SequenceState → SequenceState
  | .preprepared => if prepareQuorum then (if commitQuorum then .committed else .prepared) else .preprepared
  | .prepared => if commitQuorum then .committed else .prepared
  | state => state

def voted (s : Sequence) : SequenceState := advancedState s.prepareQuorum s.commitQuorum s.state

/-- **Where neither the requests nor the digest are awaited no more, the votes decide.** -/
theorem advanceState_votes (agreements : RequestAck → Finset NodeID)
    (requests : s.state = .pendingRequests → s.outstandingReqs ≠ ∅)
    (digest : s.state = .ready → (s.digest.isSome || s.batch.isEmpty) = false) (logged : p.log ≠ []) :
    ∃ p' actions, p'.log ≠ [] ∧ s.advanceState agreements p = .ok
    (({ s with state := s.voted }, p'), actions) := by
  have stays (same : s.voted = s.state) (once : advanceOnce agreements (s, p) = .ok ((s, p), [])) :
      ∃ p' actions, p'.log ≠ [] ∧ s.advanceState agreements p = .ok
      (({ s with state := s.voted }, p'), actions) := by
    refine ⟨p, [], logged, ?_⟩
    rw [same]
    simp [advanceState, untilStable, once, bind, Except.bind, pure, Except.pure]
  cases here : s.state
  case uninitialized | allocated | committed =>
    exact stays (by simp [voted, advancedState, here]) (by simp [advanceOnce, here, pure, Except.pure])
  case pendingRequests =>
    have waits := Finset.card_pos.mpr (Finset.nonempty_iff_ne_empty.mpr (requests here))
    exact stays (by simp [voted, advancedState, here])
      (by simp [advanceOnce, here, checkRequests, waits, pure, Except.pure])
  case ready =>
    exact stays (by simp [voted, advancedState, here])
      (by simp [advanceOnce, here, digest here, pure, Except.pure])
  case prepared =>
    by_cases quorum : s.commitQuorum = true
    · refine ⟨p, [], logged, ?_⟩
      simp [advanceState, untilStable, advanceOnce, here, checkCommitQuorum, quorum, voted,
        advancedState, bind, Except.bind, pure, Except.pure]
    · exact stays (by simp [voted, advancedState, here, quorum])
        (by simp [advanceOnce, here, checkCommitQuorum, quorum, pure, Except.pure])
  case preprepared =>
    by_cases quorum : s.prepareQuorum = true
    · have later : commitQuorum { s with state := .prepared } = s.commitQuorum := rfl
      by_cases committed : s.commitQuorum = true <;>
        simp [advanceState, untilStable, advanceOnce, here, checkPrepareQuorum, checkCommitQuorum,
          later, quorum, committed, voted,
          advancedState, Persisted.addPEntry, Persisted.appendLogEntry, logged, bind, Except.bind,
          pure, Except.pure]
    · exact stays (by simp [voted, advancedState, here, quorum])
        (by simp [advanceOnce, here, checkPrepareQuorum, quorum, pure, Except.pure])

end Sequence

/-! ### Votes -/

inductive VoteKind where
  | prepare
  | commit
deriving DecidableEq

/-- A `Prepare` or a `Commit`. -/
structure Vote where
  kind : VoteKind
  source : NodeID
  digest : Bytes
deriving DecidableEq

namespace Vote

/-- The operation that delivers the vote. -/
def op : Vote → SeqOp
  | ⟨.prepare, source, digest⟩ => .applyPrepareMsg source digest
  | ⟨.commit, source, digest⟩ => .applyCommitMsg source digest

/-- The delivery does not ignore the vote, after what its node has said. -/
def Counts (vote : Vote) (choice : NodeSeqChoice) : Prop :=
  match vote.kind with
  | .prepare => choice.state = .uninitialized
  | .commit => choice.state ≠ .prepared

instance (vote : Vote) (choice : NodeSeqChoice) : Decidable (vote.Counts choice) := by
  unfold Counts
  split <;> infer_instance

/-- What the node has said, with the vote. -/
def said (choice : NodeSeqChoice) (vote : Vote) : NodeSeqChoice :=
  if vote.Counts choice then
    match vote.kind with
    | .prepare => ⟨.preprepared, some vote.digest⟩
    | .commit => { choice with state := .prepared }
  else choice

/-- What the vote adds to a count. -/
def added (s : Sequence) (vote : Vote) (kind : VoteKind) (digest : Bytes) : Nat :=
  if vote.Counts (s.nodeChoices vote.source) ∧ vote = ⟨kind, vote.source, digest⟩ then 1 else 0

/-- What the delivery counts. -/
def record (s : Sequence) (vote : Vote) : Sequence :=
  { s with
    nodeChoices := update s.nodeChoices vote.source (said (s.nodeChoices vote.source) vote)
    prepares := fun digest => s.prepares digest + added s vote .prepare digest
    commits := fun digest => s.commits digest + added s vote .commit digest }

/-- The votes delivered one after the other. -/
def deliverAll (agreements : RequestAck → Finset NodeID) : List Vote → SeqState → Go SeqState
  | [], state => pure state
  | vote :: rest, state => do
    let (after, _) ← vote.op.run agreements state.1 state.2
    deliverAll agreements rest after

/-- The votes counted one after the other. -/
def recordAll (s : Sequence) (votes : List Vote) : Sequence := votes.foldl record s

/-- Two votes of one node are its prepare and its commit, for one digest. -/
def Compatible (one two : Vote) : Prop := one.source = two.source → one.kind ≠ two.kind ∧
    one.digest = two.digest

instance : Std.Symm Compatible := ⟨fun _ _ once same => ⟨(once same.symm).1.symm, (once same.symm).2.symm⟩⟩

/-- **Votes as the nodes send them**: each node sends a prepare and a commit at most, for one
digest, and the owner does not send a prepare. -/
structure Valid (s : Sequence) (votes : List Vote) : Prop where
  once : votes.Pairwise Compatible
  foreign : ∀ vote ∈ votes, vote.kind = .prepare → vote.source ≠ s.owner

/-- The node's own prepare is not delivered after its own commit. -/
def OwnInOrder (s : Sequence) (votes : List Vote) : Prop :=
  votes.Pairwise fun first second => first.source = s.myConfig.id → second.source = s.myConfig.id →
  second.kind ≠ .prepare

/-- How many nodes' commits overtake their prepares, of the nodes that have not voted before. -/
def overtaken (s : Sequence) (votes : List Vote) (digest : Bytes) : Nat :=
  votes.countP fun vote => decide ((s.nodeChoices vote.source).state = .uninitialized ∧
    vote = ⟨.prepare, vote.source, digest⟩ ∧ votes.idxOf ⟨.commit, vote.source, digest⟩ < votes.idxOf vote)

/-! ### Delivering is counting -/

section Deliver

variable {agreements : RequestAck → Finset NodeID} {s : Sequence} {vote : Vote}

/-- **A vote is ignored, or counted.** -/
theorem record_cases (foreign : vote.kind = .prepare → vote.source ≠ s.owner) :
    (record s vote = s ∧ ∀ p, vote.op.run agreements s p = .ok ((s, p), [])) ∨
      ∀ p, vote.op.run agreements s p = (record s vote).advanceState agreements p := by
  obtain ⟨kind, source, digest⟩ := vote
  have updated (counts : Bytes → Nat) : update counts digest (counts digest + 1) =
      fun other => counts other + if digest = other then 1 else 0 := by
    funext other
    by_cases same : other = digest
    · rw [same, update_self, if_pos rfl]
    · rw [update_of_ne same, if_neg (Ne.symm same), Nat.add_zero]
  cases kind with
  | prepare =>
    by_cases fresh : (s.nodeChoices source).state = .uninitialized
    · have counted : record s ⟨.prepare, source, digest⟩ = s.votePrepare source (some digest) := by
        simp [record, said, added, Counts, fresh, Sequence.votePrepare, updated]
      exact .inr fun p => counted ▸ if_neg fun both => both.2 fresh
    · exact .inl ⟨by simp [record, said, added, Counts, fresh], fun p => if_pos ⟨foreign rfl, fresh⟩⟩
  | commit =>
    by_cases done : (s.nodeChoices source).state = .prepared
    · exact .inl ⟨by simp [record, said, added, Counts, done], fun p => if_pos done⟩
    · have counted : record s ⟨.commit, source, digest⟩ = s.voteCommit source digest := by
        simp [record, said, added, Counts, done, Sequence.voteCommit, updated]
      exact .inr fun p => counted ▸ if_neg done

/-- What a node has said stands, but for its commit. -/
theorem said_of_voted {choice : NodeSeqChoice} (voted : choice.state ≠ .uninitialized) (vote : Vote) :
    (said choice vote).state ≠ .uninitialized ∧ (said choice vote).digest = choice.digest ∧
      (choice.state = .prepared → (said choice vote).state = .prepared) := by
  obtain ⟨kind, source, digest⟩ := vote
  cases kind <;> simp [said, Counts, voted]
  split_ifs <;> simp_all

/-- What votes leave alone, and what they do not undo. -/
structure Grown (s after : Sequence) : Prop where
  frame : after = { s with nodeChoices := after.nodeChoices, prepares := after.prepares, commits :=
    after.commits }
  prepares : s.prepareQuorum = true → after.prepareQuorum = true
  commits : s.commitQuorum = true → after.commitQuorum = true

theorem Grown.record (s : Sequence) (vote : Vote) : Grown s (record s vote) := by
  have own : (Vote.record s vote).nodeChoices s.myConfig.id = s.nodeChoices s.myConfig.id ∨
      (Vote.record s vote).nodeChoices s.myConfig.id = said (s.nodeChoices s.myConfig.id) vote := by
    by_cases mine : s.myConfig.id = vote.source
    · exact .inr (mine ▸ update_self _ _ _)
    · exact .inl (update_of_ne mine _ _)
  refine ⟨rfl, fun quorum => ?_, fun quorum => ?_⟩
  · simp only [Sequence.prepareQuorum, Bool.and_eq_true, decide_eq_true_eq] at quorum ⊢
    obtain ⟨⟨voted, isDigest⟩, enough⟩ := quorum
    refine ⟨?_, enough.trans (Nat.le_add_right _ _)⟩
    rcases own with same | same
    · exact same ▸ ⟨voted, isDigest⟩
    · obtain ⟨stays, sameDigest, _⟩ := said_of_voted voted vote
      exact same ▸ ⟨stays, sameDigest ▸ isDigest⟩
  · simp only [Sequence.commitQuorum, Bool.and_eq_true, decide_eq_true_eq] at quorum ⊢
    refine ⟨?_, quorum.2.trans (Nat.le_add_right _ _)⟩
    rcases own with same | same
    · exact same ▸ quorum.1
    · exact same ▸ (said_of_voted (by simp [quorum.1]) vote).2.2 quorum.1

theorem Grown.trans {after final : Sequence} (first : Grown s after) (second : Grown after final) :
    Grown s final where
  frame := by
    rw [second.frame, first.frame]
  prepares quorum := second.prepares (first.prepares quorum)
  commits quorum := second.commits (first.commits quorum)

/-- **Counted votes grow.** -/
theorem Grown.recordAll (s : Sequence) (votes : List Vote) : Grown s (recordAll s votes) := by
  induction votes generalizing s with
  | nil => exact ⟨rfl, id, id⟩
  | cons vote _ ih => exact (Grown.record s vote).trans (ih _)

theorem recordAll_withState (s : Sequence) (state : SequenceState) (votes : List Vote) :
    recordAll { s with state } votes = { recordAll s votes with state } := by
  induction votes generalizing s with
  | nil => rfl
  | cons vote _ ih => exact ih (record s vote)

/-- Advancing in between makes no difference. -/
theorem voted_voted {after : Sequence} (grown : Grown s after) :
    ({ after with state := s.voted } : Sequence).voted = after.voted := by
  have same : after.state = s.state := by rw [grown.frame]
  have more := grown.prepares
  have further := grown.commits
  show Sequence.advancedState after.prepareQuorum after.commitQuorum s.voted =
    Sequence.advancedState after.prepareQuorum after.commitQuorum after.state
  rw [same, Sequence.voted]
  revert more further
  cases s.prepareQuorum <;> cases after.prepareQuorum <;> cases s.commitQuorum <;>
    cases after.commitQuorum <;> cases s.state <;> simp [Sequence.advancedState]

/-- **Delivering votes is counting them and advancing once.** -/
theorem deliverAll_eq_ok (agreements : RequestAck → Finset NodeID) {votes : List Vote}
    {p : Persisted} (rest : s.AtRest)
    (logged : p.log ≠ []) (foreign : ∀ vote ∈ votes, vote.kind = .prepare → vote.source ≠ s.owner) :
    ∃ p', deliverAll agreements votes (s, p) = .ok
    ({ recordAll s votes with state := (recordAll s votes).voted }, p') := by
  have stays {s : Sequence} (rest : s.AtRest) : s.voted = s.state := by
    unfold Sequence.voted
    cases here : s.state <;> simp [Sequence.advancedState, here, rest.prepares, rest.commits]
  induction votes generalizing s p with
  | nil =>
    refine ⟨p, ?_⟩
    show Except.ok _ = Except.ok _
    rw [show recordAll s [] = s from rfl, stays rest]
  | cons vote others ih =>
    have later : ∀ other ∈ others, other.kind = .prepare → other.source ≠ (record s vote).owner :=
      fun other member => foreign other (mem_cons_of_mem _ member)
    have advanced (ran : vote.op.run agreements s p = (record s vote).advanceState agreements p) :
        ∃ p', deliverAll agreements (vote :: others) (s, p) =
          .ok ({ recordAll s (vote :: others) with state := (recordAll s (vote :: others)).voted }, p') := by
      obtain ⟨p', actions, nonempty, isAdvance⟩ :=
        (record s vote).advanceState_votes agreements rest.requests rest.digest logged
      obtain ⟨final, delivered⟩ := ih (.of_advanceState isAdvance) nonempty later
      rw [recordAll_withState, voted_voted (.recordAll _ others)] at delivered
      refine ⟨final, ?_⟩
      rw [deliverAll, ran, isAdvance]
      exact delivered
    rcases @record_cases agreements s vote (foreign vote mem_cons_self) with ⟨same, ran⟩ | ran
    · obtain ⟨final, delivered⟩ := ih rest logged (same ▸ later)
      refine ⟨final, ?_⟩
      rw [deliverAll, ran, recordAll, foldl_cons, same]
      exact delivered
    · exact advanced (ran p)

end Deliver

/-! ### Counting -/

section Count

variable {s : Sequence} {votes : List Vote} {vote : Vote}

theorem recordAll_concat (s : Sequence) (votes : List Vote) (vote : Vote) :
    recordAll s (votes ++ [vote]) = record (recordAll s votes) vote := foldl_concat _ _ _ _

theorem Valid.of_concat (valid : Valid s (votes ++ [vote])) :
    Valid s votes ∧ ∀ other ∈ votes, other.source = vote.source → other.kind ≠ vote.kind ∧
    other.digest = vote.digest := by
  obtain ⟨once, foreign⟩ := valid
  obtain ⟨others, _, last⟩ := pairwise_append.mp once
  exact ⟨⟨others, fun other member => foreign other (mem_append_left _ member)⟩,
    fun other member => last other member vote (mem_singleton_self _)⟩

/-- What is known of a node rests on its own votes. -/
theorem nodeChoices_recordAll (s : Sequence) (votes : List Vote) (id : NodeID) :
    (recordAll s votes).nodeChoices id = (votes.filter (·.source = id)).foldl said (s.nodeChoices id) := by
  induction votes generalizing s with
  | nil => rfl
  | cons vote rest ih =>
    refine (ih (record s vote)).trans ?_
    by_cases mine : vote.source = id
    · rw [filter_cons_of_pos (by simpa using mine), ← mine]
      simp [record]
    · rw [filter_cons_of_neg (by simpa using mine)]
      simp [record, update_of_ne (Ne.symm mine)]

theorem said_state (choice : NodeSeqChoice) (vote : Vote) :
    ((said choice vote).state = .prepared ↔ choice.state = .prepared ∨ vote.kind = .commit) ∧
      (said choice vote).state ≠ .uninitialized := by
  obtain ⟨kind, source, digest⟩ := vote
  cases kind <;> cases here : choice.state <;> simp [said, Counts, here]

theorem choice_recordAll (s : Sequence) (votes : List Vote) (id : NodeID) :
    (((recordAll s votes).nodeChoices id).state = .prepared ↔
      (s.nodeChoices id).state = .prepared ∨ ∃ vote ∈ votes, vote.source = id ∧ vote.kind = .commit) ∧
    (((recordAll s votes).nodeChoices id).state = .uninitialized ↔
      (s.nodeChoices id).state = .uninitialized ∧ ∀ vote ∈ votes, vote.source ≠ id) := by
  rw [nodeChoices_recordAll]
  induction votes using List.reverseRecOn with
  | nil => simp
  | append_singleton votes vote ih =>
    by_cases mine : vote.source = id
    · simp [mine, said_state, ih, or_assoc]
    · simp [mine, ih, or_imp, forall_and]

/-- **Every commit counts**, of the nodes that have not committed before. -/
theorem commits_recordAll (valid : Valid s votes) (digest : Bytes) :
    (recordAll s votes).commits digest = s.commits digest + votes.countP fun vote =>
      decide ((s.nodeChoices vote.source).state ≠ .prepared ∧ vote = ⟨.commit, vote.source, digest⟩) := by
  induction votes using List.reverseRecOn with
  | nil => rfl
  | append_singleton votes vote ih =>
    obtain ⟨before, once⟩ := valid.of_concat
    rw [recordAll_concat, countP_append, countP_singleton, ← Nat.add_assoc, ← ih before]
    refine congrArg _ (if_congr (Iff.trans ?_ decide_eq_true_iff.symm) rfl rfl)
    refine and_congr_left fun isCommit => ?_
    rw [isCommit, Counts, Ne, (choice_recordAll s votes vote.source).1, not_or]
    refine and_iff_left fun ⟨other, member, same, kind⟩ => (once other member same).1 ?_
    rw [kind, isCommit]

/-- How many prepares there are of nodes that have not voted before. -/
def freshPrepares (s : Sequence) (votes : List Vote) (digest : Bytes) : Nat :=
  votes.countP fun vote => decide ((s.nodeChoices vote.source).state = .uninitialized ∧
  vote = ⟨.prepare, vote.source, digest⟩)

/-- A last vote overtakes nothing, and is overtaken by what comes before it. -/
theorem overtaken_concat (valid : Valid s (votes ++ [vote])) (digest : Bytes) :
    overtaken s (votes ++ [vote]) digest = overtaken s votes digest +
      if (s.nodeChoices vote.source).state = .uninitialized ∧ vote = ⟨.prepare, vote.source, digest⟩ ∧
        ⟨.commit, vote.source, digest⟩ ∈ votes then 1 else 0 := by
  obtain ⟨_, once⟩ := valid.of_concat
  have notBefore : vote ∉ votes := fun member => (once vote member rfl).1 rfl
  unfold overtaken
  rw [countP_append, countP_singleton]
  congr 1
  · refine countP_congr fun other member => ?_
    rw [decide_eq_true_iff, decide_eq_true_iff, idxOf_append_of_mem member]
    have inside := idxOf_lt_length_of_mem member
    by_cases heard : (⟨.commit, other.source, digest⟩ : Vote) ∈ votes
    · rw [idxOf_append_of_mem heard]
    · rw [idxOf_append_of_notMem heard, idxOf_eq_length heard]
      omega
  · refine if_congr (decide_eq_true_iff.trans ?_) rfl rfl
    refine and_congr_right fun _ => and_congr_right fun isPrepare => ?_
    rw [idxOf_append_of_notMem notBefore, idxOf_cons_self]
    by_cases heard : (⟨.commit, vote.source, digest⟩ : Vote) ∈ votes
    · rw [idxOf_append_of_mem heard]
      exact iff_of_true (idxOf_lt_length_of_mem heard) heard
    · rw [idxOf_append_of_notMem heard]
      exact iff_of_false (by omega) heard

/-- **Every prepare counts that is not overtaken.** -/
theorem prepares_recordAll (valid : Valid s votes) (digest : Bytes) :
    (recordAll s votes).prepares digest + overtaken s votes digest = s.prepares digest +
    freshPrepares s votes digest := by
  induction votes using List.reverseRecOn with
  | nil => rfl
  | append_singleton votes vote ih =>
    obtain ⟨before, once⟩ := valid.of_concat
    have previous := ih before
    have counts (isPrepare : vote = ⟨.prepare, vote.source, digest⟩) :
        vote.Counts ((recordAll s votes).nodeChoices vote.source) ↔
          (s.nodeChoices vote.source).state = .uninitialized ∧
          ∀ other ∈ votes, other.source ≠ vote.source := by
      rw [← (choice_recordAll s votes vote.source).2, isPrepare]
      rfl
    rw [recordAll_concat, overtaken_concat valid, freshPrepares, countP_append, countP_singleton,
      ← freshPrepares]
    show _ + added (recordAll s votes) vote .prepare digest + _ = _
    unfold added
    by_cases fresh : (s.nodeChoices vote.source).state = .uninitialized ∧
      vote = ⟨.prepare, vote.source, digest⟩
    swap
    · rw [if_neg (fun both => fresh ⟨((counts both.2).mp both.1).1, both.2⟩),
        if_neg (fun all => fresh ⟨all.1, all.2.1⟩), if_neg (by simpa using fresh)]
      omega
    rw [if_pos (decide_eq_true fresh)]
    by_cases heard : (⟨.commit, vote.source, digest⟩ : Vote) ∈ votes
    · rw [if_neg (fun both => ((counts fresh.2).mp both.1).2 _ heard rfl), if_pos ⟨fresh.1, fresh.2, heard⟩]
      omega
    · have first : ∀ other ∈ votes, other.source ≠ vote.source := by
        intro other member same
        obtain ⟨differs, sameDigest⟩ := once other member same
        rw [fresh.2] at differs sameDigest same
        obtain ⟨kind, source, voted⟩ := other
        obtain rfl : source = vote.source := same
        obtain rfl : voted = digest := sameDigest
        cases kind with
        | prepare => exact differs rfl
        | commit => exact heard member
      rw [if_pos ⟨(counts fresh.2).mpr ⟨fresh.1, first⟩, fresh.2⟩, if_neg (fun all => heard all.2.2)]
      omega

end Count

/-! ### Two orders -/

section Orders

variable {s : Sequence} {first second : List Vote}

/-- This node's own votes come in one order only. -/
theorem filter_own (perm : second.Perm first) (valid : Valid s first) (ownFirst : OwnInOrder s first)
    (ownSecond : OwnInOrder s second) :
    second.filter (·.source = s.myConfig.id) = first.filter (·.source = s.myConfig.id) := by
  have ordered {votes : List Vote} (own : OwnInOrder s votes) :
      (votes.filter (·.source = s.myConfig.id)).Pairwise fun _ later => later.kind ≠ .prepare := by
    refine List.Pairwise.imp_of_mem (fun {one two} isOne isTwo inOrder => ?_) (own.sublist filter_sublist)
    exact inOrder (of_decide_eq_true (mem_filter.mp isOne).2) (of_decide_eq_true (mem_filter.mp isTwo).2)
  refine (perm.filter _).eq_of_pairwise (fun one two isOne isTwo notTwo notOne => ?_)
    (ordered ownSecond) (ordered ownFirst)
  obtain ⟨inSecond, mine⟩ := mem_filter.mp isOne
  obtain ⟨inFirst, alsoMine⟩ := mem_filter.mp isTwo
  by_contra differ
  have kinds := (valid.once.forall (perm.mem_iff.mp inSecond) inFirst differ
    ((of_decide_eq_true mine).trans (of_decide_eq_true alsoMine).symm)).1
  cases isKind : one.kind <;> cases isOther : two.kind <;> simp_all

theorem Valid.perm (perm : second.Perm first) (valid : Valid s first) : Valid s second where
  once := (perm.pairwise_iff fun once => Std.Symm.symm _ _ once).mpr valid.once
  foreign vote member := valid.foreign vote (perm.mem_iff.mp member)

/-- The sequences are in one state, with the same counts. -/
def Alike (one two : Sequence) : Prop :=
  one.state = two.state ∧ one.prepares = two.prepares ∧ one.commits = two.commits

/-- **Two orders leave a sequence alike** if and only if, for each digest, the commits of as many
nodes overtake their prepares in both. -/
theorem same_outcome_iff {owner : NodeID} {epoch seqNo : Nat} {nc : NetworkConfig} {my : InitialParameters}
    {ops : List SeqOp} {p : Persisted} (agreements : RequestAck → Finset NodeID)
    (run : SeqRun (fun _ _ => True) (newSequence owner epoch seqNo nc my) ops s) (logged : p.log ≠ [])
    (perm : second.Perm first) (valid : Valid s first) (ownFirst : OwnInOrder s first)
    (ownSecond : OwnInOrder s second) :
    ∃ one two, deliverAll agreements first (s, p) = .ok one ∧ deliverAll agreements second (s, p) = .ok two ∧
      (Alike one.1 two.1 ↔ ∀ digest, overtaken s first digest = overtaken s second digest) := by
  have rest : s.AtRest := .of_run (.new owner epoch seqNo nc my) run
  have permuted := valid.perm perm
  obtain ⟨firstLog, isFirst⟩ := deliverAll_eq_ok agreements rest logged valid.foreign
  obtain ⟨secondLog, isSecond⟩ := deliverAll_eq_ok agreements rest logged permuted.foreign
  refine ⟨_, _, isFirst, isSecond, ?_⟩
  have fresh (digest : Bytes) : freshPrepares s second digest = freshPrepares s first digest :=
    perm.countP_eq _
  have counts (digest : Bytes) : (recordAll s first).prepares digest = (recordAll s second).prepares digest ↔
      overtaken s first digest = overtaken s second digest := by
    have one := prepares_recordAll valid digest
    have two := prepares_recordAll permuted digest
    rw [fresh] at two
    omega
  constructor
  · intro alike digest
    exact (counts digest).mp (congrFun alike.2.1 digest)
  · intro same
    have prepares : (recordAll s first).prepares = (recordAll s second).prepares :=
      funext fun digest => (counts digest).mpr (same digest)
    have commits : (recordAll s first).commits = (recordAll s second).commits := by
      funext digest
      rw [commits_recordAll valid, commits_recordAll permuted, perm.countP_eq]
    have own : (recordAll s first).nodeChoices s.myConfig.id =
      (recordAll s second).nodeChoices s.myConfig.id := by
      rw [nodeChoices_recordAll, nodeChoices_recordAll, filter_own perm valid ownFirst ownSecond]
    refine ⟨?_, prepares, commits⟩
    rw [(Grown.recordAll s first).frame, (Grown.recordAll s second).frame, prepares, commits]
    simp only [Sequence.voted, Sequence.prepareQuorum, Sequence.commitQuorum, own]
    rfl

end Orders

/-! ### A commit that comes first -/

section Early

/-- Sequence one of node `1`, which node `0` preprepares without requests. -/
def preprepared : Go (SeqState × List Action) := (SeqOp.allocate [] ∅).run (fun _ => ∅)
    (FourNodes.sequence 1) FourNodes.shortLog

def start : SeqState := (okValue preprepared (by decide)).1

theorem start_run : SeqRun (fun _ _ => True) (FourNodes.sequence 1) [.allocate [] ∅] start.1 :=
  .snoc (fun _ => ∅) FourNodes.shortLog .nil (by decide) trivial (eq_ok_okValue preprepared (by decide))

/-- The prepares of nodes `1` and `2`, and the commit of `2`. -/
def inTime : List Vote := [⟨.prepare, 1, []⟩, ⟨.prepare, 2, []⟩, ⟨.commit, 2, []⟩]

/-- The same votes, with the commit before the prepare of its node. -/
def tooEarly : List Vote := [⟨.prepare, 1, []⟩, ⟨.commit, 2, []⟩, ⟨.prepare, 2, []⟩]

/-- The same votes, with another node's in between. -/
def interleaved : List Vote := [⟨.prepare, 2, []⟩, ⟨.prepare, 1, []⟩, ⟨.commit, 2, []⟩]

theorem valid_inTime : Valid start.1 inTime where
  once := by simp [inTime, Compatible]
  foreign := by decide

instance (s : Sequence) (votes : List Vote) : Decidable (OwnInOrder s votes) :=
  inferInstanceAs (Decidable (votes.Pairwise _))

/-- **A prepare that its node's commit overtakes is lost**: in one order the sequence is prepared,
in another one it lacks a prepare. -/
theorem overtaken_prepare_stalls :
    SeqRun (fun _ _ => True) (FourNodes.sequence 1) [.allocate [] ∅] start.1 ∧
    tooEarly.Perm inTime ∧ Valid start.1 inTime ∧
    OwnInOrder start.1 inTime ∧ OwnInOrder start.1 tooEarly ∧
    ((deliverAll (fun _ => ∅) inTime start).toOption.map fun after => (after.1.state, after.1.prepares [])) =
      some (.prepared, 3) ∧
    ((deliverAll (fun _ => ∅) tooEarly start).toOption.map fun after =>
      (after.1.state, after.1.prepares [])) = some (.preprepared, 2) :=
  ⟨start_run, by decide, valid_inTime, by decide, by decide, by decide, by decide⟩

/-- Where no commit overtakes its node's prepare, the orders are alike. -/
theorem interleaved_alike : ∃ one two,
    deliverAll (fun _ => ∅) inTime start = .ok one ∧ deliverAll (fun _ => ∅) interleaved start = .ok two ∧
      Alike one.1 two.1 := by
  obtain ⟨one, two, isOne, isTwo, alike⟩ :=
    @same_outcome_iff start.1 inTime interleaved _ _ _ _ _ _ start.2 (fun _ => ∅)
    start_run (by decide) (by decide) valid_inTime (by decide) (by decide)
  refine ⟨one, two, isOne, isTwo, alike.mpr fun digest => ?_⟩
  by_cases empty : digest = []
  · subst empty
    decide
  · simp [overtaken, inTime, interleaved]

end Early

end Vote

end MirBft
