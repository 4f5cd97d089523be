/-
**Quorums of one sequence, and the nodes that make them.**

The counters `prepares` and `commits` are bare numbers. What keeps a node from being counted twice
is its `NodeSeqChoice`, which the owner's vote overwrites without looking.

* `commits_le_committers`: in a run that records no owner vote over an owner's commit, every commit
  count is a number of distinct nodes that sent that commit;
* `early_owner_commit_counts_twice`: the owner's commit, delivered before and after the hash result,
  is counted twice, and the sequence commits with too few nodes;
* `prepares_le_vouchers`: in a run in which the owner's preprepare does not come back to it, every
  prepare count is a number of distinct vouching nodes;
* `returned_preprepare_counts_twice`: the owner that receives its preprepare counts itself twice.

Both invariants are a set of counted nodes for each digest (`CountedCommits`, `CountedPrepares`).
-/

import MirBft.Proof.FourNodes
import MirBft.Proof.SequenceRun

namespace MirBft.SequenceVotes

open Function

variable {counted : Bytes → Finset NodeID} {source : NodeID}

/-- A new member makes the set of counted nodes one larger, for its digest only. -/
theorem card_update_insert {votes : Bytes → Nat}
    (counts : ∀ digest, votes digest = (counted digest).card) (vote : Bytes)
    (fresh : source ∉ counted vote) (digest : Bytes) :
    update votes vote (votes vote + 1) digest =
      (update counted vote (insert source (counted vote)) digest).card := by
  by_cases same : digest = vote
  · subst same
    rw [update_self, update_self, Finset.card_insert_of_notMem fresh, counts]
  · rw [update_of_ne same, update_of_ne same, counts]

theorem mem_update_insert {vote digest : Bytes} {source node : NodeID}
    (member : node ∈ update counted vote (insert source (counted vote)) digest) :
    (digest = vote ∧ node = source) ∨ node ∈ counted digest := by
  by_cases same : digest = vote
  · subst same
    rw [update_self] at member
    rcases Finset.mem_insert.mp member with rfl | earlier
    · exact .inl ⟨rfl, rfl⟩
    · exact .inr earlier
  · rw [update_of_ne same] at member
    exact .inr member

/-! ### Four nodes -/

def oneRequest : RequestAck := ⟨9, 0, [7]⟩

/-- A batch is allocated and hashed, and three nodes prepare it, the owner by its preprepare. -/
def preparedOps : List SeqOp :=
  [.allocate [oneRequest] ∅, .applyBatchHashResult [5], .applyPrepareMsg 1 [5],
    .applyPrepareMsg 2 [5]]

/-! ### Commits -/

/-- The nodes that sent a commit for a digest. -/
def committers (ops : List SeqOp) (digest : Bytes) : Finset NodeID :=
  (ops.filterMap fun op => match op with
    | .applyCommitMsg source vote => if vote = digest then some source else none
    | _ => none).toFinset

variable {ops : List SeqOp} {digest : Bytes} {node : NodeID}

theorem mem_committers : node ∈ committers ops digest ↔ .applyCommitMsg node digest ∈ ops := by
  simp only [committers, List.mem_toFinset, List.mem_filterMap]
  constructor
  · rintro ⟨op, member, found⟩
    cases op with
    | applyCommitMsg source vote =>
      by_cases same : vote = digest
      · simp only [same, if_true, Option.some.injEq] at found
        rwa [← found, ← same]
      · simp [same] at found
    | _ => cases found
  · intro member
    exact ⟨_, member, by simp⟩

/-- Each commit count is the size of a set of nodes at `nodeSeqPrepared` that sent that commit. -/
def CountedCommits (ops : List SeqOp) (s : Sequence) : Prop :=
  ∃ counted : Bytes → Finset NodeID, (∀ digest, s.commits digest = (counted digest).card) ∧
    ∀ digest, ∀ node ∈ counted digest,
      (s.nodeChoices node).state = .prepared ∧ .applyCommitMsg node digest ∈ ops

/-- The operations that record the owner's vote. -/
def votesForOwner : SeqOp → Bool
  | .applyBatchHashResult _ => true
  | .applyPreprepareBack => true
  | op => op.batch? == some []

/-- **The owner's vote comes before its commit**: it is not recorded over one. -/
def ownerVotesFirst (s : Sequence) (op : SeqOp) : Bool :=
  !votesForOwner op || (s.nodeChoices s.owner).state != .prepared

variable {s : Sequence} {op : SeqOp}

theorem unprepared_of_ownerVotesFirst
    (first : ownerVotesFirst s op = true) (votes : votesForOwner op = true) :
    (s.nodeChoices s.owner).state ≠ .prepared := by
  unfold ownerVotesFirst at first
  simpa [votes] using first

theorem CountedCommits.append (op : SeqOp)
    (counts : CountedCommits ops s) : CountedCommits (ops ++ [op]) s := by
  obtain ⟨counted, sizes, members⟩ := counts
  refine ⟨counted, sizes, fun digest node member => ?_⟩
  obtain ⟨choice, sent⟩ := members digest node member
  exact ⟨choice, List.mem_append_left _ sent⟩

theorem CountedCommits.votePrepare {vote : Option Bytes} (counts : CountedCommits ops s)
    (unprepared : (s.nodeChoices source).state ≠ .prepared) :
    CountedCommits ops (s.votePrepare source vote) := by
  obtain ⟨counted, sizes, members⟩ := counts
  refine ⟨counted, sizes, fun digest node member => ?_⟩
  obtain ⟨choice, sent⟩ := members digest node member
  have other : node ≠ source := by
    rintro rfl
    exact unprepared choice
  refine ⟨?_, sent⟩
  show (update s.nodeChoices source _ node).state = _
  rw [update_of_ne other]
  exact choice

theorem CountedCommits.recorded {s mid : Sequence}
    (counts : CountedCommits ops s) (first : ownerVotesFirst s op = true) (wrote : op.Recorded s mid) :
    CountedCommits (ops ++ [op]) mid := by
  have kept := counts.append op
  have unprepared := unprepared_of_ownerVotesFirst first
  cases wrote with
  | allocate _ _ _ _ => exact kept
  | allocateEmpty _ _ isEmpty =>
    refine CountedCommits.votePrepare (s := { s with .. }) kept (unprepared ?_)
    unfold votesForOwner
    split <;> simp_all
  | satisfyOutstanding => exact kept
  | applyBatchHashResult =>
    exact CountedCommits.votePrepare (s := { s with .. }) kept (unprepared rfl)
  | applyPrepareMsg _ fresh => exact kept.votePrepare (by rw [fresh]; decide)
  | applyPreprepareBack => exact kept.votePrepare (unprepared rfl)
  | @applyCommitMsg _ source vote uncounted =>
    obtain ⟨counted, sizes, members⟩ := kept
    have fresh : source ∉ counted vote := fun member => uncounted (members vote source member).1
    refine ⟨update counted vote (insert source (counted vote)),
      card_update_insert sizes vote fresh, fun digest node member => ?_⟩
    show (update s.nodeChoices source _ node).state = _ ∧ _
    by_cases same : node = source
    · subst same
      rw [update_self]
      refine ⟨rfl, ?_⟩
      rcases mem_update_insert member with ⟨rfl, _⟩ | earlier
      · exact List.mem_append_right _ (by simp)
      · exact absurd (members digest node earlier).1 uncounted
    · rw [update_of_ne same]
      rcases mem_update_insert member with ⟨_, isSource⟩ | earlier
      · exact absurd isSource same
      · exact members digest node earlier

variable {mid after : Sequence} {sent : List Msg}

theorem CountedCommits.advanced
    (counts : CountedCommits ops mid) (done : Sequence.Advanced mid after sent) :
    CountedCommits ops after := by
  rw [done.frame]
  exact counts

section Runs

variable {owner : NodeID} {epoch seqNo : Nat} {nc : NetworkConfig} {my : InitialParameters}
  {ops : List SeqOp} {s : Sequence}

theorem countedCommits (run : SeqRun (fun s op => ownerVotesFirst s op = true)
    (newSequence owner epoch seqNo nc my) ops s) : CountedCommits ops s := by
  refine run.invariant CountedCommits ⟨fun _ => ∅, fun _ => rfl, by simp⟩
    (fun _ _ op counts _ _ => counts.append op)
    (fun _ _ _ _ counts _ first wrote => counts.recorded first wrote)
    (fun _ _ _ _ counts done => counts.advanced done)

end Runs

variable {owner : NodeID} {epoch seqNo : Nat} {nc : NetworkConfig} {my : InitialParameters}
  {ops : List SeqOp} {s : Sequence}

/-- **Commit quorums of distinct nodes**, in every run that records no owner vote over an owner's
commit. -/
theorem commits_le_committers
    (run : SeqRun (fun s op => ownerVotesFirst s op = true) (newSequence owner epoch seqNo nc my) ops s) :
    (∀ digest, s.commits digest ≤ (committers ops digest).card) ∧
      (s.state = .committed → intersectionQuorum nc ≤ (committers ops s.digestKey).card) := by
  obtain ⟨counted, sizes, members⟩ := countedCommits run
  have distinct (digest : Bytes) : s.commits digest ≤ (committers ops digest).card := by
    rw [sizes digest]
    refine Finset.card_le_card fun node member => ?_
    exact mem_committers.mpr (members digest node member).2
  refine ⟨distinct, fun committed => ?_⟩
  have quorum := run.basic.committed (by rw [committed]; decide)
  rw [run.basic.networkConfig] at quorum
  exact quorum.trans (distinct _)

open FourNodes (networkConfig sequence shortLog)

/-- A run of a sequence of the four nodes that is executed. -/
theorem exists_of_executed (condition : Sequence → SeqOp → Bool) (id : NodeID) (ops : List SeqOp)
    (property : Sequence → Prop) (evaluated : ∃ s,
      SeqRun.execute condition [] (sequence id, shortLog) ops = some s ∧ property s) :
    ∃ s, SeqRun (fun s op => condition s op = true) (sequence id) ops s ∧ property s :=
  evaluated.imp fun _ both => ⟨SeqRun.of_execute .nil both.1, both.2⟩

/-- Three commits of three nodes. -/
def committedOps : List SeqOp :=
  preparedOps ++ [.applyCommitMsg 0 [5], .applyCommitMsg 1 [5], .applyCommitMsg 2 [5]]

theorem committedOps_quorum :
    ∃ s, SeqRun (fun s op => ownerVotesFirst s op = true) (sequence 1) committedOps s ∧
      s.state = .committed ∧
      intersectionQuorum networkConfig ≤ (committers committedOps s.digestKey).card := by
  obtain ⟨s, run, state⟩ := exists_of_executed ownerVotesFirst 1 committedOps (·.state = .committed)
    (by decide)
  exact ⟨s, run, state, (commits_le_committers run).2 state⟩

/-- The owner's commit comes before and after the hash result, and two other nodes' votes. -/
def earlyCommitOps : List SeqOp :=
  [.allocate [oneRequest] ∅, .applyCommitMsg 0 [5], .applyBatchHashResult [5],
    .applyCommitMsg 0 [5], .applyPrepareMsg 1 [5], .applyPrepareMsg 2 [5], .applyCommitMsg 1 [5]]

/-- **An owner's early commit counts twice**: the sequence commits with the commits of two nodes. -/
theorem early_owner_commit_counts_twice :
    ∃ s, SeqRun (fun _ _ => true = true) (sequence 1) earlyCommitOps s ∧ s.state = .committed ∧
      (committers earlyCommitOps s.digestKey).card < s.commits s.digestKey ∧
      (committers earlyCommitOps s.digestKey).card < intersectionQuorum networkConfig :=
  exists_of_executed (fun _ _ => true) 1 earlyCommitOps _ (by decide)

/-! ### Prepares -/

/-- **The nodes that vouch for a digest**: the owner by the batch of its preprepare, every other
node by a prepare, or by a commit, which implies one. -/
def vouchers (owner : NodeID) (ops : List SeqOp) (digest : Bytes) : Finset NodeID :=
  (ops.filterMap fun op => match op with
    | .applyBatchHashResult vote => if vote = digest then some owner else none
    | .applyPrepareMsg source vote => if vote = digest then some source else none
    | .applyCommitMsg source vote => if vote = digest ∧ source ≠ owner then some source else none
    | op => if op.batch? = some [] ∧ digest = [] then some owner else none).toFinset

/-- The owner's batch has the digest. -/
def OwnerVouches (ops : List SeqOp) (digest : Bytes) : Prop :=
  .applyBatchHashResult digest ∈ ops ∨ ∃ op ∈ ops, op.batch? = some [] ∧ digest = []

variable {owner : NodeID}

theorem owner_mem_vouchers
    (vouches : OwnerVouches ops digest) : owner ∈ vouchers owner ops digest := by
  simp only [vouchers, List.mem_toFinset, List.mem_filterMap]
  rcases vouches with member | ⟨op, member, isEmpty, rfl⟩
  · exact ⟨_, member, by simp⟩
  · refine ⟨op, member, ?_⟩
    cases op <;> simp_all [SeqOp.batch?]

theorem preparer_mem_vouchers {owner node : NodeID}
    (sent : .applyPrepareMsg node digest ∈ ops) : node ∈ vouchers owner ops digest := by
  simp only [vouchers, List.mem_toFinset, List.mem_filterMap]
  exact ⟨_, sent, by simp⟩

/-- **The owner's preprepare does not come back to it.** -/
def noPreprepareBack (_ : Sequence) (op : SeqOp) : Bool := op != .applyPreprepareBack

/-- The node has been counted for the digest: the owner if its batch has it, any other node by its
prepare. -/
def Vouched (ops : List SeqOp) (s : Sequence) (digest : Bytes) (node : NodeID) : Prop :=
  if node = s.owner then OwnerVouches ops digest
  else (s.nodeChoices node).state ≠ .uninitialized ∧ .applyPrepareMsg node digest ∈ ops

/-- Each prepare count is the size of a set of nodes that vouched for the digest. -/
def CountedPrepares (ops : List SeqOp) (s : Sequence) : Prop :=
  ∃ counted : Bytes → Finset NodeID, (∀ digest, s.prepares digest = (counted digest).card) ∧
    ∀ digest, ∀ node ∈ counted digest, Vouched ops s digest node

theorem OwnerVouches.voted (vouches : OwnerVouches ops digest) : SeqOp.OwnerVoted ops := by
  rcases vouches with member | ⟨op, member, isEmpty, _⟩
  · exact .inl ⟨digest, member⟩
  · exact .inr ⟨op, member, isEmpty⟩

/-- A node stays vouched for: operations are only added, and its choice is never reset. -/
theorem Vouched.append {s after : Sequence}
    (vouched : Vouched ops s digest node) (op : SeqOp) (owner : after.owner = s.owner)
    (choice : (s.nodeChoices node).state ≠ .uninitialized →
      (after.nodeChoices node).state ≠ .uninitialized) : Vouched (ops ++ [op]) after digest node := by
  unfold Vouched at vouched ⊢
  rw [owner]
  by_cases isOwner : node = s.owner
  · rw [if_pos isOwner] at vouched ⊢
    rcases vouched with member | ⟨other, member, isEmpty⟩
    · exact .inl (List.mem_append_left _ member)
    · exact .inr ⟨other, List.mem_append_left _ member, isEmpty⟩
  · rw [if_neg isOwner] at vouched ⊢
    exact ⟨choice vouched.1, List.mem_append_left _ vouched.2⟩

theorem CountedPrepares.append (op : SeqOp)
    (counts : CountedPrepares ops s) : CountedPrepares (ops ++ [op]) s := by
  obtain ⟨counted, sizes, members⟩ := counts
  exact ⟨counted, sizes, fun digest node member => (members digest node member).append op rfl id⟩

theorem CountedPrepares.vote {vote : Option Bytes} (counts : CountedPrepares ops s)
    (first : ∀ digest, ¬ Vouched ops s digest source)
    (vouches : Vouched (ops ++ [op]) (s.votePrepare source vote) (vote.getD []) source) :
    CountedPrepares (ops ++ [op]) (s.votePrepare source vote) := by
  obtain ⟨counted, sizes, members⟩ := counts
  have fresh (digest : Bytes) : source ∉ counted digest :=
    fun member => first digest (members digest source member)
  refine ⟨update counted (vote.getD []) (insert source (counted (vote.getD []))),
    card_update_insert sizes _ (fresh _), fun digest node member => ?_⟩
  rcases mem_update_insert member with ⟨rfl, rfl⟩ | earlier
  · exact vouches
  · refine (members digest node earlier).append op rfl fun said => ?_
    have other : node ≠ source := by
      rintro rfl
      exact fresh digest earlier
    show (update s.nodeChoices source _ node).state ≠ _
    rwa [update_of_ne other]

theorem CountedPrepares.voteOwner
    {vote : Option Bytes} (counts : CountedPrepares ops s) (first : ¬ SeqOp.OwnerVoted ops)
    (vouches : OwnerVouches (ops ++ [op]) (vote.getD [])) :
    CountedPrepares (ops ++ [op]) (s.votePrepare s.owner vote) := by
  refine counts.vote (fun digest vouched => ?_) ?_
  · rw [Vouched, if_pos rfl] at vouched
    exact first vouched.voted
  · rw [Vouched, if_pos (show s.owner = (s.votePrepare s.owner vote).owner from rfl)]
    exact vouches

theorem CountedPrepares.recorded {start s mid : Sequence}
    (counts : CountedPrepares ops s) (basic : SeqBasic start ops s) (admitted : op.Admitted ops s)
    (noBack : noPreprepareBack s op = true) (wrote : op.Recorded s mid) :
    CountedPrepares (ops ++ [op]) mid := by
  cases wrote with
  | allocate _ _ _ _ => exact counts.append op
  | allocateEmpty _ fresh isEmpty =>
    refine CountedPrepares.voteOwner (s := { s with .. }) counts
      (fun voted => (basic.voted voted).1 fresh) (.inr ⟨op, by simp, isEmpty, rfl⟩)
  | satisfyOutstanding => exact counts.append _
  | applyBatchHashResult =>
    exact CountedPrepares.voteOwner (s := { s with .. }) counts
      (fun voted => (basic.voted voted).2 admitted) (.inl (by simp))
  | @applyPrepareMsg _ source vote other fresh =>
    refine counts.vote (fun digest vouched => ?_) ?_
    · rw [Vouched, if_neg other] at vouched
      exact vouched.1 fresh
    · rw [Vouched, if_neg (show ¬ source = (s.votePrepare source (some vote)).owner from other)]
      refine ⟨?_, by simp⟩
      show (update s.nodeChoices source _ source).state ≠ _
      simp
  | applyPreprepareBack => cases noBack
  | @applyCommitMsg _ source vote _ =>
    obtain ⟨counted, sizes, members⟩ := counts
    refine ⟨counted, sizes, fun digest node member => ?_⟩
    refine (members digest node member).append _ rfl fun said => ?_
    show (update s.nodeChoices source _ node).state ≠ _
    by_cases same : node = source
    · rw [same]
      simp
    · rwa [update_of_ne same]

theorem CountedPrepares.advanced
    (counts : CountedPrepares ops mid) (done : Sequence.Advanced mid after sent) :
    CountedPrepares ops after := by
  rw [done.frame]
  exact counts

theorem countedPrepares
    (run : SeqRun (fun s op => noPreprepareBack s op = true) (newSequence owner epoch seqNo nc my)
      ops s) : SeqBasic (newSequence owner epoch seqNo nc my) ops s ∧ CountedPrepares ops s := by
  have firstBasic : SeqBasic (newSequence owner epoch seqNo nc my) [] _ :=
    (SeqRun.nil : SeqRun (fun _ _ => True) _ _ _).basic
  exact run.invariant (fun ops s => SeqBasic _ ops s ∧ CountedPrepares ops s)
    ⟨firstBasic, fun _ => ∅, fun _ => rfl, by simp⟩
    (fun _ _ op both quiet unhashed =>
      ⟨both.1.append_of_quiet quiet unhashed, both.2.append op⟩)
    (fun _ _ _ _ both admitted noBack wrote =>
      ⟨both.1.recorded admitted wrote, both.2.recorded both.1 admitted noBack wrote⟩)
    (fun _ _ _ _ both done => ⟨both.1.advanced done, both.2.advanced done⟩)

/-- **Prepare quorums of distinct nodes**, in every run in which the owner's preprepare does not
come back to it. -/
theorem prepares_le_vouchers
    (run : SeqRun (fun s op => noPreprepareBack s op = true) (newSequence owner epoch seqNo nc my)
      ops s) :
    (∀ digest, s.prepares digest ≤ (vouchers owner ops digest).card) ∧
      (5 ≤ s.state.rank → intersectionQuorum nc ≤ (vouchers owner ops s.digestKey).card) := by
  obtain ⟨basic, counted, sizes, members⟩ := countedPrepares run
  have distinct (digest : Bytes) : s.prepares digest ≤ (vouchers owner ops digest).card := by
    rw [sizes digest]
    refine Finset.card_le_card fun node member => ?_
    have vouched := members digest node member
    unfold Vouched at vouched
    rw [show s.owner = owner from basic.owner] at vouched
    by_cases isOwner : node = owner
    · rw [if_pos isOwner] at vouched
      rw [isOwner]
      exact owner_mem_vouchers vouched
    · rw [if_neg isOwner] at vouched
      exact preparer_mem_vouchers vouched.2
  refine ⟨distinct, fun prepared => ?_⟩
  have quorum := basic.prepared prepared
  rw [basic.networkConfig] at quorum
  exact quorum.trans (distinct _)

/-- A follower prepares with three nodes. -/
theorem preparedOps_quorum :
    ∃ s, SeqRun (fun s op => noPreprepareBack s op = true) (sequence 1) preparedOps s ∧
      s.state = .prepared ∧
      intersectionQuorum networkConfig ≤ (vouchers 0 preparedOps s.digestKey).card := by
  obtain ⟨s, run, state⟩ := exists_of_executed noPreprepareBack 1 preparedOps (·.state = .prepared)
    (by decide)
  exact ⟨s, run, state, (prepares_le_vouchers run).2 (by rw [state]; decide)⟩

/-- The owner hashes its batch, receives its own preprepare, and one prepare. -/
def returnedPreprepareOps : List SeqOp :=
  [.allocateAsOwner [oneRequest], .applyBatchHashResult [5], .applyPreprepareBack,
    .applyPrepareMsg 1 [5]]

/-- **An owner counts itself twice**: it prepares with two nodes. -/
theorem returned_preprepare_counts_twice :
    ∃ s, SeqRun (fun _ _ => true = true) (sequence 0) returnedPreprepareOps s ∧
      s.state = .prepared ∧
      (vouchers 0 returnedPreprepareOps s.digestKey).card < s.prepares s.digestKey ∧
      (vouchers 0 returnedPreprepareOps s.digestKey).card < intersectionQuorum networkConfig :=
  exists_of_executed (fun _ _ => true) 0 returnedPreprepareOps _ (by decide)

end MirBft.SequenceVotes
