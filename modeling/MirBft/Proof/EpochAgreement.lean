/-
**Prepared certificates of one epoch agree.**

* `WorldInv`: the invariant of each replica's active epoch (`NodeInv`), and what a replica received
  from a correct one was sent. `reachable_inv`: it holds in every reachable state;
* `prepared_voters`: at a follower, a prepared sequence has a quorum of nodes that vouched for its
  digest, the owner by its preprepare, every other node by its prepare;
* `prepared_digests_agree`: two prepared sequences of one number have the same digest. If the owner
  is correct both have its one batch. If it is faulty both replicas are followers, and a correct
  node is in both quorums, whose one prepare both counted;
* `correct_sends_one`, `prepared_is_held`: what a correct replica says, and who holds what is
  prepared.
-/

import MirBft.Library.Quorum
import MirBft.Model.EpochNetwork
import MirBft.Proof.ActiveMoves
import MirBft.Proof.SequenceVotes

namespace MirBft.EpochAgreement

open Proc ActiveEpoch List Function

variable {net : EpochNetwork} {id owner : NodeID} {epoch seqNo : Nat} {world : NodeID → EpochReplica}
  {s : Sequence} {sh : Shared} {condition : Sequence → SeqOp → Prop} {nc : NetworkConfig}
  {my : InitialParameters} {ops : List SeqOp}

/-! ### A new epoch -/

/-- The owners of the buckets. -/
def bucketOwners (net : EpochNetwork) : List NodeID :=
  match assignBuckets net.epochConfig net.networkConfig.nodes 0
      (List.range net.networkConfig.numberOfBuckets) with
  | .ok owners => owners
  | .error _ => []

/-- The epoch at a replica. -/
def context (net : EpochNetwork) (my : InitialParameters) : EpochContext where
  number := net.epochConfig.number
  networkConfig := net.networkConfig
  buckets := bucketOwners net
  my
  hash := net.hash

/-- **A replica that starts the epoch.** -/
theorem started_inv {replica : EpochReplica} (started : net.Started id replica) :
    ∃ my : InitialParameters, my.id = id ∧
      NodeInv (context net my) (fun source msg => (source, msg) ∈ replica.received) replica.sent
        replica.pending replica.st.ae := by
  obtain ⟨sh, sh', actions, ae, isId, config, ran, rfl⟩ := started
  refine ⟨sh.myConfig, isId, ?_⟩
  have fresh := @wp_new_fresh (fun source msg => (source, msg) ∈ []) net.epochConfig sh sh' actions ae ran
  have assigned := fresh.buckets
  rw [config] at assigned
  have empty {seqNo : Nat} {s : Sequence} (found : ae.heap seqNo = some s) : False := by
    rw [fresh.heap] at found
    cases found
  exact
    { networkConfig := fresh.networkConfig.trans config
      number := congrArg EpochConfig.number fresh.epochConfig
      myConfig := fresh.myConfig
      buckets := by
        show _ = bucketOwners net
        unfold bucketOwners
        rw [assigned]
      aligned := fresh.aligned
      tracked := fun seqNo s found => (empty found).elim
      prepares := by simp
      preprepares := by simp
      requests := by simp
      pendingNodup := nodup_nil
      own := by simp }

/-! ### Hash results -/

theorem wp_hashResult {ctx : EpochContext} {received : NodeID → Msg → Prop} {sent : List Msg}
    {pending : List (List Bytes × HashOrigin)} {data : List Bytes} {source : NodeID}
    {requestAcks : List RequestAck} (st : AeState) (inv : NodeInv ctx received sent pending st.ae)
    (asked : (data, HashOrigin.batch source epoch seqNo requestAcks) ∈ pending) :
    wp (applyBatchHashResult seqNo (ctx.hash (hashInput data))) st fun final actions _ =>
      NodeInv ctx received (sent ++ sentMsgs actions)
        (pending.erase (data, .batch source epoch seqNo requestAcks) ++ hashRequests actions)
        final.ae := by
  obtain ⟨other, s, found, isRequest, undigested, nonempty⟩ := inv.requests _ asked
  have isData : data = batchHashData s.batch := congrArg Prod.fst isRequest
  have isSeqNo : seqNo = other :=
    (HashOrigin.batch.inj (congrArg Prod.snd isRequest)).2.2.1
  subst isSeqNo
  rw [isRequest]
  have remaining := erase_sublist (a := ctx.request seqNo s.batch) (l := pending)
  have unanswered : wp (pure () : GoProc AeState Unit) st fun final actions _ =>
      NodeInv ctx received (sent ++ sentMsgs actions)
        (pending.erase (ctx.request seqNo s.batch) ++ hashRequests actions) final.ae := by
    rw [wp_pure, sentMsgs_nil, hashRequests_nil, append_nil, append_nil]
    exact { inv with
      requests := fun entry member => inv.requests entry (remaining.subset member)
      pendingNodup := inv.pendingNodup.sublist remaining }
  refine wp_get_bind (wp_lift_bind fun applyable _ => ?_)
  cases applyable with
  | current =>
    refine wp_get_bind (wp_lift_bind fun same isSame => ?_)
    have sameFound := sequence_eq_ok isSame
    rw [found, Option.some.injEq] at sameFound
    subst sameFound
    refine wp_get_bind (wp_lift_bind fun result ran => ?_)
    obtain ⟨⟨next, p'⟩, actions⟩ := result
    simp only [wp_bind, wp_modify, wp_emit]
    have isOp : (SeqOp.applyBatchHashResult (ctx.hash (hashInput data))).run
        st.sh.clients.agreements s st.sh.persisted = .ok ((next, p'), actions) := ran
    have justified : ctx.Justified received seqNo s
        (.applyBatchHashResult (ctx.hash (hashInput data))) := by
      rw [isData]
      rfl
    have admitted (ops : List SeqOp)
        (tracked : Tracked ctx received st.ae.preprepareBuffers seqNo s ops) :
        SeqOp.Admitted ops s (.applyBatchHashResult (ctx.hash (hashInput data))) :=
      NodeInv.awaits tracked undigested nonempty
    exact inv.operate found admitted justified isOp ⟨rfl, rfl, rfl, rfl, rfl⟩
      (inv.aligned.operate found (by simp [SeqOp.Foreign]) isOp) rfl (.refl _) (by simp) remaining
      fun _ _ => inv.pendingNodup.not_mem_erase
  | past | future | invalid => exact unanswered

/-! ### Reachable states -/

/-- **The invariant of the replicas together.** -/
structure WorldInv (net : EpochNetwork) (world : NodeID → EpochReplica) : Prop where
  node : ∀ id ∉ net.faulty, ∃ my : InitialParameters, my.id = id ∧
    NodeInv (context net my) (fun source msg => (source, msg) ∈ (world id).received) (world id).sent
      (world id).pending (world id).st.ae
  network : ∀ id ∉ net.faulty, ∀ source msg, (source, msg) ∈ (world id).received →
    source ∈ net.networkConfig.nodes ∧ epochForMsg msg = .ok net.epochConfig.number ∧
      (source ∉ net.faulty → msg ∈ (world source).sent)

/-- A call of a method keeps the invariant of the replica it is made at. -/
theorem call_inv (inv : WorldInv net world) (correct : id ∉ net.faulty) {call : EpochCall}
    (allowed : net.Allowed world id call) {st : AeState} {actions : List Action}
    (ran : call.run net.hash { (world id).st with sh } = .ok (st, actions, ())) :
    ∃ my : InitialParameters, my.id = id ∧
      NodeInv (context net my)
        (fun source msg => (source, msg) ∈ (call.after (world id) st actions).received)
        (call.after (world id) st actions).sent (call.after (world id) st actions).pending st.ae := by
  obtain ⟨my, isId, node⟩ := inv.node id correct
  refine ⟨my, isId, ?_⟩
  have kept {method : GoProc AeState Unit}
      (has : Has (Kept (context net my) fun source msg => (source, msg) ∈ (world id).received) method)
      (ran : method { (world id).st with sh } = .ok (st, actions, ())) :=
    has _ st actions () ran _ _ node
  cases call with
  | step source msg =>
    obtain ⟨_, _, isSent⟩ := allowed
    have more : NodeInv (context net my)
        (fun source' msg' => (source', msg') ∈ (world id).received ++ [(source, msg)]) (world id).sent
        (world id).pending (world id).st.ae := by
      refine node.receive (fun _ _ member => mem_append_left _ member) fun msg' member => ?_
      rcases mem_append.mp member with earlier | new
      · exact node.own msg' earlier
      · obtain ⟨self, rfl⟩ := Prod.mk.inj (mem_singleton.mp new)
        have isSelf : source = id := self.symm.trans isId
        subst isSelf
        exact isSent correct
    have stepped : Has (Kept (context net my)
        fun source' msg' => (source', msg') ∈ (world id).received ++ [(source, msg)])
        (step source msg) := has_step (by simp)
    exact stepped { (world id).st with sh } st actions () ran _ _ more
  | hashResult data origin =>
    obtain ⟨seqNo, s, _, isRequest, _⟩ := node.requests _ allowed
    obtain ⟨_, rfl⟩ := Prod.mk.inj isRequest
    simpa [EpochCall.after, EpochCall.delivers, EpochCall.remaining] using
      wp_hashResult { (world id).st with sh } node allowed st actions () ran
  | tick => simpa [EpochCall.after, EpochCall.delivers, EpochCall.remaining] using kept has_tick ran
  | advance => simpa [EpochCall.after, EpochCall.delivers, EpochCall.remaining] using kept has_advance ran
  | advanceRequests =>
    simpa [EpochCall.after, EpochCall.delivers, EpochCall.remaining] using kept has_advanceRequests ran
  | drainBuffers =>
    simpa [EpochCall.after, EpochCall.delivers, EpochCall.remaining] using kept has_drainBuffers ran
  | moveLowWatermark seqNo =>
    have moved := kept (has_bind (has_moveLowWatermark seqNo) fun _ => has_pure ()) ran
    simpa [EpochCall.after, EpochCall.delivers, EpochCall.remaining] using moved

/-- **The invariant holds in every reachable state.** -/
theorem reachable_inv (reached : net.Reachable world) : WorldInv net world := by
  induction reached with
  | start started =>
    refine ⟨fun id correct => started_inv (started id correct), fun id correct source msg member => ?_⟩
    obtain ⟨_, _, _, _, _, _, _, same⟩ := started id correct
    rw [same] at member
    cases member
  | @call world caller call st actions sh _ correct allowed ran inv =>
    -- What was sent stays sent.
    have sentLater {source : NodeID} {msg : Msg} (isSent : msg ∈ (world source).sent) :
        msg ∈ (update world caller (call.after (world caller) st actions) source).sent := by
      by_cases same : source = caller
      · subst same
        rw [update_self]
        exact mem_append_left _ isSent
      · rwa [update_of_ne same]
    refine ⟨fun id isCorrect => ?_, fun id isCorrect source msg member => ?_⟩
    · by_cases same : id = caller
      · subst same
        simp only [update_self]
        exact call_inv inv correct allowed ran
      · simp only [update_of_ne same]
        exact inv.node id isCorrect
    · have earlier (old : (source, msg) ∈ (world id).received) := inv.network id isCorrect source msg old
      by_cases same : id = caller
      · subst same
        rw [update_self] at member
        rcases mem_append.mp member with old | new
        · obtain ⟨isNode, isEpoch, isSent⟩ := earlier old
          exact ⟨isNode, isEpoch, fun isCorrect => sentLater (isSent isCorrect)⟩
        · cases call with
          | step sender delivered =>
            obtain ⟨rfl, rfl⟩ := Prod.mk.inj (mem_singleton.mp new)
            obtain ⟨isNode, isEpoch, isSent⟩ := allowed
            exact ⟨isNode, isEpoch, fun isCorrect => sentLater (isSent isCorrect)⟩
          | _ => cases new
      · rw [update_of_ne same] at member
        obtain ⟨isNode, isEpoch, isSent⟩ := earlier member
        exact ⟨isNode, isEpoch, fun isCorrect => sentLater (isSent isCorrect)⟩

/-! ### Votes -/

/-- Every operation of a run was admitted and met the condition. -/
theorem performed_of_mem
    (run : SeqRun condition (newSequence owner epoch seqNo nc my) ops s) {op : SeqOp}
    (member : op ∈ ops) :
    ∃ earlier before, SeqBasic (newSequence owner epoch seqNo nc my) earlier before ∧
      op.Admitted earlier before ∧ condition before op := by
  induction run with
  | nil => cases member
  | snoc _ _ earlier admitted allowed _ ih =>
    rcases mem_append.mp member with old | last
    · exact ih old
    · rw [mem_singleton.mp last]
      exact ⟨_, _, earlier.basic, admitted, allowed⟩

/-- At a follower no preprepare comes back. -/
theorem follower_run (follower : owner ≠ my.id)
    (run : SeqRun condition (newSequence owner epoch seqNo nc my) ops s) :
    SeqRun (fun s op => SequenceVotes.noPreprepareBack s op = true)
      (newSequence owner epoch seqNo nc my) ops s := by
  induction run with
  | nil => exact .nil
  | @snoc ops s after op p' actions agreements p before admitted _ ran ih =>
    refine .snoc agreements p ih admitted ?_ ran
    cases op with
    | applyPreprepareBack =>
      have mine := admitted.1
      rw [before.basic.owner, before.basic.myConfig] at mine
      exact absurd mine follower
    | _ => rfl

section Replica

variable {net : EpochNetwork} {world : NodeID → EpochReplica} {id : NodeID} {seqNo : Nat}
  {s : Sequence} {my : InitialParameters}

variable (node : NodeInv (context net my) (fun source msg => (source, msg) ∈ (world id).received)
  (world id).sent (world id).pending (world id).st.ae)
include node

/-- A prepared sequence of another node's bucket was allocated by a preprepare of the owner. -/
theorem allocated_by_owner
    (network : ∀ source msg, (source, msg) ∈ (world id).received →
      epochForMsg msg = .ok net.epochConfig.number)
    (found : (world id).st.ae.heap seqNo = some s) (entered : 4 ≤ s.state.rank)
    (follower : (context net my).owner seqNo ≠ my.id) :
    ((context net my).owner seqNo, .preprepare seqNo net.epochConfig.number s.batch) ∈
    (world id).received := by
  obtain ⟨ops, run, _⟩ := node.tracked seqNo s found
  have batched := run.batched NodeInv.hashes
  obtain ⟨op, member, batch, isBatch⟩ := batched.allocated fun fresh => by
    rw [fresh] at entered
    exact absurd entered (by decide)
  have same := batched.batch op member batch isBatch
  obtain ⟨_, before, basic, admitted, justified⟩ := performed_of_mem run member
  cases op with
  | allocate requestAcks outstandingReqs =>
    obtain ⟨epoch, isReceived⟩ := justified
    have isEpoch : epoch = net.epochConfig.number := Except.ok.inj (network _ _ isReceived)
    rw [same, ← Option.some.inj isBatch, ← isEpoch]
    exact isReceived
  | allocateAsOwner clientRequests =>
    rw [SeqOp.Admitted, basic.owner, basic.myConfig] at admitted
    exact absurd admitted follower
  | _ => cases isBatch

/-- **A prepared sequence at a follower has a quorum of vouching nodes.** -/
theorem prepared_voters
    (network : ∀ source msg, (source, msg) ∈ (world id).received →
      source ∈ net.networkConfig.nodes ∧ epochForMsg msg = .ok net.epochConfig.number)
    (found : (world id).st.ae.heap seqNo = some s) (prepared : 5 ≤ s.state.rank)
    (follower : (context net my).owner seqNo ≠ my.id) :
    ∃ voters ⊆ net.networkConfig.nodes.toFinset,
      intersectionQuorum net.networkConfig ≤ voters.card ∧ ∀ voter ∈ voters,
        voter = (context net my).owner seqNo ∨
          (voter, .prepare seqNo net.epochConfig.number s.digestKey) ∈ (world id).received := by
  obtain ⟨ops, run, _⟩ := node.tracked seqNo s found
  obtain ⟨basic, counted, sizes, members⟩ :=
    SequenceVotes.countedPrepares (follower_run follower run)
  have ownerSent := allocated_by_owner node (fun source msg member => (network source msg member).2)
    found (by omega) follower
  have vouches (voter : NodeID) (member : voter ∈ counted s.digestKey) :
      voter = (context net my).owner seqNo ∨
        (voter, .prepare seqNo net.epochConfig.number s.digestKey) ∈ (world id).received := by
    have vouched := members s.digestKey voter member
    unfold SequenceVotes.Vouched at vouched
    rw [show s.owner = (context net my).owner seqNo from basic.owner] at vouched
    by_cases isOwner : voter = (context net my).owner seqNo
    · exact Or.inl isOwner
    · rw [if_neg isOwner] at vouched
      obtain ⟨_, _, _, _, epoch, isReceived⟩ := performed_of_mem run vouched.2
      have isEpoch : epoch = net.epochConfig.number := Except.ok.inj (network _ _ isReceived).2
      rw [← isEpoch]
      exact Or.inr isReceived
  refine ⟨counted s.digestKey, fun voter member => ?_, ?_, vouches⟩
  · rw [mem_toFinset]
    rcases vouches voter member with isOwner | isReceived
    · rw [isOwner]
      exact (network _ _ ownerSent).1
    · exact (network _ _ isReceived).1
  · rw [← sizes]
    have quorum := basic.prepared prepared
    rwa [basic.networkConfig] at quorum

/-- The digest of a preprepared sequence is that of its batch. -/
theorem digestKey_eq
    (found : (world id).st.ae.heap seqNo = some s) (entered : 4 ≤ s.state.rank) :
    s.digestKey = if s.batch = [] then [] else batchDigest net.hash s.batch := by
  obtain ⟨ops, run, _⟩ := node.tracked seqNo s found
  have hashed := run.basic.entered entered
  unfold Sequence.digestKey
  cases isDigest : s.digest with
  | none =>
    rw [isDigest] at hashed
    rw [if_pos (by simpa using hashed)]
    rfl
  | some digest =>
    obtain ⟨same, nonempty⟩ := (run.batched NodeInv.hashes).digest digest isDigest
    rw [if_neg nonempty]
    exact same

end Replica

/-! ### Agreement -/

/-- With a correct owner, the batch of a sequence is the owner's. -/
theorem batch_of_owner (inv : WorldInv net world) (correct : id ∉ net.faulty)
    (found : (world id).st.ae.heap seqNo = some s) (entered : 4 ≤ s.state.rank)
    (isOwner : ∀ my, (context net my).owner seqNo = owner) (honest : owner ∉ net.faulty) :
    ∃ original, (world owner).st.ae.heap seqNo = some original ∧ s.batch = original.batch := by
  obtain ⟨my, isId, node⟩ := inv.node id correct
  by_cases mine : (context net my).owner seqNo = my.id
  · have same : id = owner := by rw [← isId, ← mine, isOwner]
    subst same
    exact ⟨s, found, rfl⟩
  · have isReceived := allocated_by_owner node
      (fun source msg member => (inv.network id correct source msg member).2.1) found entered mine
    rw [isOwner] at isReceived
    have isSent := (inv.network id correct _ _ isReceived).2.2 honest
    obtain ⟨_, _, ownerNode⟩ := inv.node owner honest
    obtain ⟨original, isOriginal, _, same⟩ := ownerNode.preprepares _ _ _ isSent
    exact ⟨original, isOriginal, same⟩

/-- **Prepared certificates of one epoch agree**: in every reachable state, with at most `f` faulty
replicas, the sequences for one sequence number at two correct replicas have the same digest once
both are prepared. -/
theorem prepared_digests_agree (net : EpochNetwork) (few : net.faulty.card ≤ net.networkConfig.f)
    {world : NodeID → EpochReplica} (reached : net.Reachable world) {first second : NodeID}
    (firstCorrect : first ∉ net.faulty)
    (secondCorrect : second ∉ net.faulty) {seqNo : Nat} {s t : Sequence}
    (isFirst : (world first).st.ae.heap seqNo = some s)
    (isSecond : (world second).st.ae.heap seqNo = some t)
    (firstPrepared : SequenceState.rank .prepared ≤ s.state.rank)
    (secondPrepared : SequenceState.rank .prepared ≤ t.state.rank) : s.digestKey = t.digestKey := by
  have inv := reachable_inv reached
  obtain ⟨my, isMy, node⟩ := inv.node first firstCorrect
  obtain ⟨other, isOther, otherNode⟩ := inv.node second secondCorrect
  have five : SequenceState.rank .prepared = 5 := rfl
  have isOwner (mine : InitialParameters) :
      (context net mine).owner seqNo = (context net my).owner seqNo := rfl
  by_cases honest : (context net my).owner seqNo ∉ net.faulty
  · -- Both have the batch of the owner.
    obtain ⟨original, isOriginal, same⟩ :=
      batch_of_owner inv firstCorrect isFirst (by omega) isOwner honest
    obtain ⟨again, isAgain, otherSame⟩ :=
      batch_of_owner inv secondCorrect isSecond (by omega) isOwner honest
    rw [isOriginal, Option.some.injEq] at isAgain
    rw [digestKey_eq node isFirst (by omega), digestKey_eq otherNode isSecond (by omega), same,
      otherSame, isAgain]
  · rw [not_not] at honest
    -- Both are followers, and a correct node is in both quorums.
    have follower {mine : InitialParameters} (correct : mine.id ∉ net.faulty) :
        (context net mine).owner seqNo ≠ mine.id := by
      intro same
      rw [← same] at correct
      exact correct honest
    have network {id : NodeID} (correct : id ∉ net.faulty) (source : NodeID) (msg : Msg)
        (member : (source, msg) ∈ (world id).received) :=
      And.intro (inv.network id correct source msg member).1
        (inv.network id correct source msg member).2.1
    obtain ⟨voters, areNodes, quorum, vouch⟩ := prepared_voters node (network firstCorrect) isFirst
      firstPrepared (follower (isMy ▸ firstCorrect))
    obtain ⟨others, areOthers, otherQuorum, otherVouch⟩ := prepared_voters otherNode
      (network secondCorrect) isSecond secondPrepared (follower (isOther ▸ secondCorrect))
    have outnumber : net.networkConfig.nodes.toFinset.card + net.faulty.card <
        voters.card + others.card := by
      have distinct := toFinset_card_le net.networkConfig.nodes
      have two := lt_two_intersectionQuorum net.networkConfig
      omega
    obtain ⟨voter, isVoter, isOtherVoter, isCorrect⟩ :=
      Quorum.exists_correct_mem_inter areNodes areOthers outnumber
    have notOwner : voter ≠ (context net my).owner seqNo := by
      rintro rfl
      exact isCorrect honest
    have sent := (inv.network first firstCorrect _ _
      ((vouch voter isVoter).resolve_left notOwner)).2.2 isCorrect
    have otherSent := (inv.network second secondCorrect _ _
      ((otherVouch voter isOtherVoter).resolve_left notOwner)).2.2 isCorrect
    obtain ⟨_, _, voterNode⟩ := inv.node voter isCorrect
    obtain ⟨own, isOwn, _, digest⟩ := voterNode.prepares _ _ _ sent
    obtain ⟨again, isAgain, _, otherDigest⟩ := voterNode.prepares _ _ _ otherSent
    rw [isOwn, Option.some.injEq] at isAgain
    rw [digest, otherDigest, isAgain]

/-- **A correct replica does not equivocate**: whatever the others do, it sends one batch and one
digest for a sequence number. -/
theorem correct_sends_one (reached : net.Reachable world) (correct : id ∉ net.faulty) :
    (∀ seqNo epoch other batch again, .preprepare seqNo epoch batch ∈ (world id).sent →
      .preprepare seqNo other again ∈ (world id).sent → batch = again) ∧
    ∀ seqNo epoch other digest again, .prepare seqNo epoch digest ∈ (world id).sent →
      .prepare seqNo other again ∈ (world id).sent → digest = again := by
  obtain ⟨_, _, node⟩ := (reachable_inv reached).node id correct
  constructor
  · intro seqNo epoch other batch again isFirst isSecond
    obtain ⟨s, found, _, rfl⟩ := node.preprepares _ _ _ isFirst
    obtain ⟨t, isSame, _, rfl⟩ := node.preprepares _ _ _ isSecond
    rw [Option.some.inj (found.symm.trans isSame)]
  · intro seqNo epoch other digest again isFirst isSecond
    obtain ⟨s, found, _, rfl⟩ := node.prepares _ _ _ isFirst
    obtain ⟨t, isSame, _, rfl⟩ := node.prepares _ _ _ isSecond
    rw [Option.some.inj (found.symm.trans isSame)]

/-- **What is prepared is held**: when a follower has prepared a batch, a quorum less the faulty
replicas has preprepared a batch with its digest. -/
theorem prepared_is_held (reached : net.Reachable world) (correct : id ∉ net.faulty)
    (found : (world id).st.ae.heap seqNo = some s)
    (prepared : SequenceState.rank .prepared ≤ s.state.rank) (follower : s.owner ≠ id) :
    ∃ holders : Finset NodeID, Disjoint holders net.faulty ∧
      intersectionQuorum net.networkConfig ≤ holders.card + net.faulty.card ∧ ∀ holder ∈ holders,
        ∃ t, (world holder).st.ae.heap seqNo = some t ∧ SequenceState.rank .preprepared ≤ t.state.rank ∧
          t.digestKey = s.digestKey := by
  have inv := reachable_inv reached
  obtain ⟨my, rfl, node⟩ := inv.node id correct
  rw [(node.basic found).1] at follower
  have network := inv.network my.id correct
  have entered : 4 ≤ s.state.rank := Nat.le_of_succ_le prepared
  have isReceived := allocated_by_owner node (fun source msg member => (network source msg member).2.1)
    found entered follower
  obtain ⟨voters, _, quorum, vouch⟩ := prepared_voters node
    (fun source msg member => ⟨(network source msg member).1, (network source msg member).2.1⟩) found
    prepared follower
  refine ⟨voters \ net.faulty, Finset.sdiff_disjoint,
    quorum.trans Finset.card_le_card_sdiff_add_card, fun voter member => ?_⟩
  obtain ⟨isVoter, isCorrect⟩ := Finset.mem_sdiff.mp member
  obtain ⟨_, _, voterNode⟩ := inv.node voter isCorrect
  rcases vouch voter isVoter with rfl | isPrepare
  · -- The owner has the batch, and so its digest.
    obtain ⟨t, held, high, same⟩ := voterNode.preprepares _ _ _ ((network _ _ isReceived).2.2 isCorrect)
    exact ⟨t, held, high, by rw [digestKey_eq voterNode held high, digestKey_eq node found entered, same]⟩
  · obtain ⟨t, held, high, same⟩ := voterNode.prepares _ _ _ ((network _ _ isPrepare).2.2 isCorrect)
    exact ⟨t, held, high, same.symm⟩

/-! ### Four replicas, with a faulty owner -/

def fourReplicas : EpochNetwork where
  epochConfig := { FourNodes.epochConfig with leaders := [3] }
  networkConfig := FourNodes.networkConfig
  faulty := {3}
  hash := fun bytes => bytes

/-- The request of a client. -/
def request : RequestAck := ⟨9, 0, [7]⟩

/-- The components of a replica that has the request. -/
def components (id : NodeID) : Shared :=
  let sh := FourNodes.shared id
  let tracker := sh.clients.tracker
  { sh with
    commitState := { sh.commitState with activeState := ⟨FourNodes.networkConfig, [⟨9, 4, 0, 0, []⟩], []⟩ }
    clients := { sh.clients with tracker := { tracker with
      availableList := { tracker.availableList with pending := [request] } } } }

theorem new_isOk (id : NodeID) :
    (ActiveEpoch.new fourReplicas.epochConfig (components id)).isOk = true := by
  have assigned : assignBuckets fourReplicas.epochConfig fourReplicas.networkConfig.nodes 0
      (List.range fourReplicas.networkConfig.numberOfBuckets) = .ok [3, 3, 3, 3] := by decide
  exact new_isOk_of_assigned assigned

/-- The replicas at the start of the epoch. -/
def startWorld (id : NodeID) : EpochReplica :=
  let started := okValue (ActiveEpoch.new fourReplicas.epochConfig (components id)) (new_isOk id)
  { st := ⟨started.2.2, started.1⟩, received := [], sent := [], pending := [] }

theorem startWorld_reachable : fourReplicas.Reachable startWorld := by
  refine .start fun id _ => ?_
  exact ⟨components id, _, _, _, rfl, rfl, eq_ok_okValue _ (new_isOk id), rfl⟩

/-- The owner proposes the request to two followers, which prepare it. -/
def preparedCalls : List (NodeID × EpochCall) :=
  ([1, 2].flatMap fun id => [(id, .advance), (id, .step 3 (.preprepare 1 1 [request])),
    (id, .advanceRequests), (id, .hashResult [[7]] (.batch 3 1 1 [request]))]) ++
  [1, 2].flatMap fun id => [1, 2].map fun source => (id, .step source (.prepare 1 1 [7]))

/-- Two followers have prepared the request. -/
theorem prepared_world : ∃ world, fourReplicas.Reachable world ∧
    (∃ s, (world 1).st.ae.heap 1 = some s ∧ s.state = .prepared ∧ s.owner = 3 ∧ s.batch = [request]) ∧
    (∃ t, (world 2).st.ae.heap 1 = some t ∧ t.state = .prepared) ∧ .prepare 1 1 [7] ∈ (world 1).sent := by
  have evaluated : ∃ world, fourReplicas.execute startWorld preparedCalls = some world ∧
      (∃ s, (world 1).st.ae.heap 1 = some s ∧ s.state = .prepared ∧ s.owner = 3 ∧ s.batch = [request]) ∧
      (∃ t, (world 2).st.ae.heap 1 = some t ∧ t.state = .prepared) ∧ .prepare 1 1 [7] ∈ (world 1).sent := by
    decide +kernel
  obtain ⟨world, executed, holds⟩ := evaluated
  exact ⟨world, startWorld_reachable.of_execute executed, holds⟩

theorem followers_agree :
    ∃ world s t, fourReplicas.Reachable world ∧ (world 1).st.ae.heap 1 = some s ∧
      (world 2).st.ae.heap 1 = some t ∧ s.state = .prepared ∧ t.state = .prepared ∧ s.batch = [request] ∧
      s.digestKey = t.digestKey := by
  obtain ⟨world, reached, ⟨s, isFirst, isPrepared, _, isBatch⟩, ⟨t, isSecond, isPreparedToo⟩, _⟩ :=
    prepared_world
  exact ⟨world, s, t, reached, isFirst, isSecond, isPrepared, isPreparedToo, isBatch,
    prepared_digests_agree fourReplicas (by decide) reached (by decide) (by decide) isFirst isSecond
      (by rw [isPrepared]) (by rw [isPreparedToo])⟩

theorem follower_sends_one : ∃ world, fourReplicas.Reachable world ∧ .prepare 1 1 [7] ∈ (world 1).sent ∧
    ∀ again, .prepare 1 1 again ∈ (world 1).sent → again = [7] := by
  obtain ⟨world, reached, _, _, isSent⟩ := prepared_world
  exact ⟨world, reached, isSent, fun again isAgain =>
    (correct_sends_one reached (by decide)).2 _ _ _ _ _ isAgain isSent⟩

theorem first_batch_held : ∃ world s, fourReplicas.Reachable world ∧ (world 1).st.ae.heap 1 = some s ∧
    ∃ holders : Finset NodeID, Disjoint holders {3} ∧ 2 ≤ holders.card ∧ ∀ holder ∈ holders,
      ∃ t, (world holder).st.ae.heap 1 = some t ∧ t.digestKey = s.digestKey := by
  obtain ⟨world, reached, ⟨s, found, isPrepared, isOwner, _⟩, _⟩ := prepared_world
  obtain ⟨holders, disjoint, quorum, held⟩ := prepared_is_held reached (by decide) found
    (by rw [isPrepared]) (by rw [isOwner]; decide)
  exact ⟨world, s, reached, found, holders, disjoint, Nat.le_of_succ_le_succ quorum, fun holder member =>
    (held holder member).imp fun _ holds => ⟨holds.1, holds.2.2⟩⟩

end MirBft.EpochAgreement
