/-
**A stable checkpoint has a quorum of different nodes.**

The tracker counts messages, not nodes, and there are three ways for a vote to be counted twice: it
is delivered twice, it is buffered and counted when it comes from above the window, or it is the
node's own and counted from the log as well.

* `Backed`: the nodes counted for a value are different and have sent it, and what is committed or
  stable has enough of them;
* `CountsOnce`: what a call must find for no vote to be counted twice. The calls keep `Tally` then,
  in which every checkpoint is backed, and so do runs of them;
* `stable_has_quorum`: in such a run a stable checkpoint, the first of the log apart, has a quorum
  of different nodes with this one among them, and a committed value f + 1 different nodes.
-/

import MirBft.Proof.CheckpointMoves

namespace MirBft

open Proc List

/-- A node's value for a checkpoint. -/
structure Report where
  source : NodeID
  seqNo : Nat
  value : Bytes
deriving DecidableEq

/-- The nodes that are not faulty have the same value for each checkpoint. -/
def Honest (faulty : Finset NodeID) (valueOf : Nat → Bytes) (heard : List Report) : Prop :=
  ∀ report ∈ heard, report.source ∈ faulty ∨ report.value = valueOf report.seqNo

/-- There are not more faulty nodes than the network tolerates. -/
def Tolerable (faulty : Finset NodeID) (nc : NetworkConfig) : Prop :=
  faulty.card ≤ nc.f ∧ nc.f < nc.nodes.length

/-! ### One checkpoint -/

/-- **What a checkpoint's votes are worth.** -/
structure CheckpointVotes.Backed (myID : NodeID) (heard : List Report) (first : Option Nat) (seqNo : Nat)
    (cw : CheckpointVotes) : Prop where
  distinct : ∀ value, (cw.votes value).Nodup
  heard : ∀ value, ∀ id ∈ cw.votes value, ⟨id, seqNo, value⟩ ∈ heard
  committed : ∀ value, cw.committedValue = some value →
    someCorrectQuorum cw.networkConfig ≤ (cw.votes value).length
  mine : ∀ value, cw.myValue = some value → myID ∈ cw.votes value
  stable : cw.stable = true → some seqNo ≠ first →
    ∃ value, intersectionQuorum cw.networkConfig ≤ (cw.votes value).length ∧ myID ∈ cw.votes value

namespace CheckpointVotes

variable {faulty : Finset NodeID} {valueOf : Nat → Bytes} {myID source : NodeID} {heard more : List Report}
  {first : Option Nat} {seqNo : Nat} {cw after : CheckpointVotes} {value : Option Bytes}

theorem backed_new (nc : NetworkConfig) : Backed myID heard first seqNo (new seqNo nc) :=
  ⟨fun _ => nodup_nil, nofun, nofun, nofun, nofun⟩

variable (backed : Backed myID heard first seqNo cw)
include backed

theorem Backed.mono (grew : heard ⊆ more) :
    Backed myID more first seqNo cw :=
  { backed with heard := fun value id member => grew (backed.heard value id member) }

theorem Backed.counted
    (fresh : source ∉ cw.votes (value.getD [])) (isHeard : ⟨source, seqNo, value.getD []⟩ ∈ heard) :
    Backed myID heard first seqNo (cw.counted myID source value) := by
  have atKey : (cw.counted myID source value).votes (value.getD []) = cw.votes (value.getD []) ++
    [source] := by
    rw [votes_counted, if_pos rfl]
  refine ⟨fun other => ?_, fun other id member => ?_, fun other isCommitted => ?_, fun other isMine => ?_,
    fun isStable notFirst => ?_⟩
  · rw [votes_counted]
    by_cases same : other = value.getD []
    · rw [if_pos same, same]
      exact nodup_append.mpr ⟨backed.distinct _, nodup_singleton _, fun voter isVoter other isLast =>
        fun isSame => fresh (by rw [← mem_singleton.mp isLast, ← isSame]; exact isVoter)⟩
    · rw [if_neg same]
      exact backed.distinct other
  · rw [votes_counted] at member
    by_cases same : other = value.getD []
    · rw [if_pos same] at member
      rcases mem_append.mp member with earlier | last
      · exact backed.heard other id earlier
      · rw [mem_singleton.mp last, same]
        exact isHeard
    · rw [if_neg same] at member
      exact backed.heard other id member
  · by_cases reached : (cw.votes (value.getD [])).length + 1 = someCorrectQuorum cw.networkConfig
    · have isValue : value = some other := (if_pos reached).symm.trans isCommitted
      have isKey : value.getD [] = other := by rw [isValue]; rfl
      rw [← isKey, atKey, length_append, length_singleton, reached]
      exact le_rfl
    · exact (backed.committed other ((if_neg reached).symm.trans isCommitted)).trans
        (votes_subset_counted other).2
  · by_cases isOwn : source = myID
    · have isValue : value = some other := (if_pos isOwn).symm.trans isMine
      have isKey : value.getD [] = other := by rw [isValue]; rfl
      rw [← isKey, atKey, ← isOwn]
      simp
    · exact (votes_subset_counted other).1 (backed.mine other ((if_neg isOwn).symm.trans isMine))
  · obtain ⟨other, quorum, own⟩ := backed.stable isStable notFirst
    exact ⟨other, quorum.trans (votes_subset_counted other).2, (votes_subset_counted other).1 own⟩

/-- A value with a quorum of different nodes is the one of the nodes that are not faulty. -/
theorem Backed.value_of_quorum
    (honest : Honest faulty valueOf heard) (tolerable : Tolerable faulty cw.networkConfig) {other : Bytes}
    (quorum : intersectionQuorum cw.networkConfig ≤ (cw.votes other).length) : other = valueOf seqNo := by
  by_contra differs
  have allFaulty : (cw.votes other).toFinset ⊆ faulty := by
    intro id member
    rcases honest _ (backed.heard other id (mem_toFinset.mp member)) with isFaulty | isSame
    · exact isFaulty
    · exact absurd isSame differs
  have few := (Finset.card_le_card allFaulty).trans tolerable.1
  rw [toFinset_card_of_nodup (backed.distinct other)] at few
  have large := tolerable.2
  unfold intersectionQuorum at quorum
  omega

/-- **A message whose vote is not counted yet.** -/
theorem Backed.apply
    (fresh : source ∉ cw.votes (value.getD [])) (isHeard : ⟨source, seqNo, value.getD []⟩ ∈ heard)
    (honest : Honest faulty valueOf heard) (tolerable : Tolerable faulty cw.networkConfig)
    (correct : myID ∉ faulty) (applied : cw.applyCheckpointMsg myID source value = .ok after) :
    Backed myID heard first seqNo after := by
  have grown := backed.counted fresh isHeard
  rcases applyCheckpointMsg_eq_ok applied with rfl | ⟨compares, _, rfl⟩
  · exact grown
  refine ⟨grown.distinct, grown.heard, grown.committed, grown.mine, fun isStable _ => ?_⟩
  have quorum : intersectionQuorum cw.networkConfig ≤
      ((cw.counted myID source value).votes (value.getD [])).length := by
    rw [votes_counted, if_pos rfl, length_append]
    exact of_decide_eq_true isStable
  -- The node's own value is the one that the quorum agrees on.
  obtain ⟨own, isOwn⟩ := Option.isSome_iff_exists.mp compares.2.1
  have counted := grown.mine own isOwn
  have isValue := grown.value_of_quorum honest tolerable quorum
  have same : own = valueOf seqNo := by
    rcases honest _ (grown.heard own myID counted) with isFaulty | isSame
    · exact absurd isFaulty correct
    · exact isSame
  refine ⟨value.getD [], quorum, ?_⟩
  rw [isValue, ← same]
  exact counted

end CheckpointVotes

/-! ### The tracker -/

namespace CheckpointTracker

/-- **Every checkpoint is backed**, and what is buffered was sent by the node it is buffered for. -/
structure Tally (faulty : Finset NodeID) (valueOf : Nat → Bytes) (heard : List Report)
    (first : Option Nat) (ct : CheckpointTracker) : Prop where
  honest : Honest faulty valueOf heard
  correct : ct.myConfig.id ∉ faulty
  tolerable : ct.activeCheckpoints ≠ [] → Tolerable faulty ct.networkConfig
  backed : ∀ seqNo, (ct.checkpoint seqNo).Backed ct.myConfig.id heard first seqNo
  config : ∀ seqNo, (ct.checkpoint seqNo).networkConfig = ct.networkConfig
  buffered : Authentic (fun id msg => ∃ seqNo value, msg = .checkpoint seqNo value ∧
    ⟨id, seqNo, value⟩ ∈ heard) ct.msgBuffers

/-- The vote is counted. -/
def Counted (ct : CheckpointTracker) (report : Report) : Prop :=
  report.source ∈ (ct.checkpoint report.seqNo).votes report.value

/-- Nothing is buffered twice, or counted already. -/
def BufferedOnce (ct : CheckpointTracker) : Prop :=
  ∀ id buffer, ct.msgBuffers.lookup id = some buffer → buffer.buffer.Nodup ∧
    ∀ seqNo value, .checkpoint seqNo value ∈ buffer.buffer → ¬ ct.Counted ⟨id, seqNo, value⟩

variable {faulty : Finset NodeID} {valueOf : Nat → Bytes} {heard more : List Report}
  {first : Option Nat} {ct after : CheckpointTracker} {source : NodeID} {seqNo : Nat} {value : Option Bytes}
  {cp : CheckpointVotes}

/-- **Checkpoints that are as they were, or new.** -/
theorem Tally.of_erased (tally : Tally faulty valueOf heard first ct)
    (same : after.myConfig = ct.myConfig ∧ after.networkConfig = ct.networkConfig ∧
      after.msgBuffers = ct.msgBuffers)
    (active : after.activeCheckpoints ≠ [] → ct.activeCheckpoints ≠ [])
    (each : ∀ seqNo, after.checkpoint seqNo = ct.checkpoint seqNo ∨
      after.checkpoint seqNo = .new seqNo ct.networkConfig) : Tally faulty valueOf heard first after := by
  obtain ⟨sameConfig, sameNetwork, sameBuffers⟩ := same
  refine ⟨tally.honest, by rw [sameConfig]; exact tally.correct, fun isActive => ?_, fun seqNo => ?_,
    fun seqNo => ?_, by rw [sameBuffers]; exact tally.buffered⟩
  · rw [sameNetwork]
    exact tally.tolerable (active isActive)
  · rw [sameConfig]
    rcases each seqNo with isSame | isNew
    · rw [isSame]
      exact tally.backed seqNo
    · rw [isNew]
      exact CheckpointVotes.backed_new _
  · rw [sameNetwork]
    rcases each seqNo with isSame | isNew
    · rw [isSame]
      exact tally.config seqNo
    · rw [isNew]
      rfl

theorem counted_of_erased {report : Report} (each : ∀ seqNo, after.checkpoint seqNo = ct.checkpoint seqNo ∨
    after.checkpoint seqNo = .new seqNo ct.networkConfig) (counted : after.Counted report) :
    ct.Counted report := by
  unfold Counted at counted
  rcases each report.seqNo with isSame | isNew
  · rwa [isSame] at counted
  · rw [isNew] at counted
    cases counted

/-- **What a part of a call does**: it counts votes, and only votes that are among `added`. -/
structure Adds (faulty : Finset NodeID) (valueOf : Nat → Bytes) (heard : List Report) (first : Option Nat)
    (added : Report → Prop) (ct after : CheckpointTracker) : Prop where
  tally : Tally faulty valueOf heard first after
  buffers : after.msgBuffers = ct.msgBuffers
  only : ∀ report, after.Counted report → ct.Counted report ∨ added report

section Adds

variable {added among : Report → Prop} {last : CheckpointTracker}

theorem Tally.adds (tally : Tally faulty valueOf heard first ct) :
  Adds faulty valueOf heard first added ct ct := ⟨tally, rfl, fun _ => .inl⟩

theorem Adds.mono (adds : Adds faulty valueOf heard first added ct after)
    (all : ∀ report, added report → among report) : Adds faulty valueOf heard first among ct after :=
  { adds with only := fun report counted => (adds.only report counted).imp_right (all report) }

theorem Adds.trans (one : Adds faulty valueOf heard first among ct after)
    (next : Adds faulty valueOf heard first among after last) :
    Adds faulty valueOf heard first among ct last :=
  ⟨next.tally, next.buffers.trans one.buffers, fun report counted =>
    (next.only report counted).elim (one.only report) .inr⟩

theorem Adds.fresh {report : Report} (adds : Adds faulty valueOf heard first added ct after)
    (fresh : ¬ ct.Counted report) (apart : ¬ added report) : ¬ after.Counted report :=
  fun counted => (adds.only report counted).elim fresh apart

end Adds

theorem Tally.setCheckpoint (tally : Tally faulty valueOf heard first ct)
    (tolerable : Tolerable faulty ct.networkConfig)
    (fresh : ¬ ct.Counted ⟨source, seqNo, value.getD []⟩) (isHeard : ⟨source, seqNo, value.getD []⟩ ∈ heard)
    (applied : (ct.checkpoint seqNo).applyCheckpointMsg ct.myConfig.id source value = .ok cp) :
    Adds faulty valueOf heard first (· = ⟨source, seqNo, value.getD []⟩) ct (ct.setCheckpoint seqNo cp) := by
  have isConfig := tally.config seqNo
  have backed : cp.Backed ct.myConfig.id heard first seqNo :=
    (tally.backed seqNo).apply fresh isHeard tally.honest (by rw [isConfig]; exact tolerable) tally.correct
      applied
  have sameConfig : cp.networkConfig = ct.networkConfig := by
    rcases CheckpointVotes.applyCheckpointMsg_eq_ok applied with rfl | ⟨_, _, rfl⟩
    · exact isConfig
    · exact isConfig
  have votes := CheckpointVotes.votes_applyCheckpointMsg applied
  refine ⟨⟨tally.honest, tally.correct, tally.tolerable, fun other => ?_, fun other => ?_,
    tally.buffered⟩, rfl,
    fun report counted => ?_⟩
  · rw [checkpoint_setCheckpoint]
    by_cases same : other = seqNo
    · rw [if_pos same, same]
      exact backed
    · rw [if_neg same]
      exact tally.backed other
  · rw [checkpoint_setCheckpoint]
    by_cases same : other = seqNo
    · rw [if_pos same]
      exact sameConfig
    · rw [if_neg same]
      exact tally.config other
  · rw [Counted, checkpoint_setCheckpoint] at counted
    by_cases same : report.seqNo = seqNo
    · rw [if_pos same, votes, CheckpointVotes.votes_counted] at counted
      by_cases sameValue : report.value = value.getD []
      · rw [if_pos sameValue] at counted
        rcases mem_append.mp counted with earlier | last
        · left
          rw [Counted, same]
          exact earlier
        · right
          obtain ⟨reporter, reported, reportValue⟩ := report
          cases same
          cases sameValue
          cases mem_singleton.mp last
          rfl
      · rw [if_neg sameValue] at counted
        left
        rw [Counted, same]
        exact counted
    · rw [if_neg same] at counted
      exact .inl counted

theorem Tally.vote (tally : Tally faulty valueOf heard first ct)
    (fresh : ¬ ct.Counted ⟨source, seqNo, value.getD []⟩) (isHeard : ⟨source, seqNo, value.getD []⟩ ∈ heard)
    (vote : Vote ct source seqNo value after) :
    Adds faulty valueOf heard first (· = ⟨source, seqNo, value.getD []⟩) ct after := by
  have isActive {high : Nat} (isHigh : ct.highWatermark = .ok high) : ct.activeCheckpoints ≠ [] := by
    intro empty
    rw [highWatermark, empty] at isHigh
    cases isHigh
  cases vote with
  | ignored _ _ _ _ => exact tally.adds
  | @claimed _ cp isHigh _ _ voted =>
    have stored := tally.setCheckpoint (tally.tolerable (isActive isHigh)) fresh isHeard voted
    -- Checkpoints that no node is at are dropped.
    have each (other : Nat) : (dropUnreferenced { ct.setCheckpoint seqNo cp with
        highestCheckpoints := ct.highestCheckpoints.insert source seqNo }).checkpoint other =
          (ct.setCheckpoint seqNo cp).checkpoint other ∨
        (dropUnreferenced { ct.setCheckpoint seqNo cp with
          highestCheckpoints := ct.highestCheckpoints.insert source seqNo }).checkpoint other =
            .new other (ct.setCheckpoint seqNo cp).networkConfig := by
      unfold dropUnreferenced
      simp only [checkpoint, lookup_erased]
      split
      · exact .inr rfl
      · exact .inl rfl
    exact ⟨stored.tally.of_erased ⟨rfl, rfl, rfl⟩ id each, rfl, fun report counted =>
      stored.only report (counted_of_erased each counted)⟩
  | counted _ isHigh _ voted =>
    have stored := tally.setCheckpoint (tally.tolerable (isActive isHigh)) fresh isHeard voted
    exact ⟨{ stored.tally with }, rfl, stored.only⟩

/-! ### Moving the window -/

theorem wp_iterateFrom_tally {nb : NodeBuffer} {msgs : List Msg} {st : CpState}
    (tally : Tally faulty valueOf heard first st.ct) (distinct : msgs.Nodup)
    (each : ∀ msg ∈ msgs, ∃ seqNo value, msg = .checkpoint seqNo value ∧ ⟨nb.id, seqNo, value⟩ ∈ heard ∧
      ¬ st.ct.Counted ⟨nb.id, seqNo, value⟩) :
    wp (MsgBuffer.iterateFrom filter applyMsg nb msgs) st fun final _ left =>
      Adds faulty valueOf heard first (fun report => report.source = nb.id ∧
        .checkpoint report.seqNo report.value ∈ msgs) st.ct final.ct ∧
      left.nodeBuffer.id = nb.id ∧ left.buffer.Sublist msgs ∧
      ∀ seqNo value, .checkpoint seqNo value ∈ left.buffer → ¬ final.ct.Counted ⟨nb.id, seqNo, value⟩ := by
  induction msgs generalizing nb st with
  | nil =>
    rw [MsgBuffer.iterateFrom, wp_pure]
    exact ⟨tally.adds, rfl, .refl _, by simp⟩
  | cons msg rest ih =>
    obtain ⟨notLater, distinctRest⟩ := nodup_cons.mp distinct
    obtain ⟨seqNo, value, rfl, isHeard, fresh⟩ := each msg mem_cons_self
    have later := fun msg member => each msg (mem_cons_of_mem _ member)
    have more (report : Report) (added :
      report.source = nb.id ∧ .checkpoint report.seqNo report.value ∈ rest) :
        report.source = nb.id ∧
          .checkpoint report.seqNo report.value ∈ (.checkpoint seqNo value :: rest : List Msg) :=
      ⟨added.1, mem_cons_of_mem _ added.2⟩
    refine wp_get_bind (wp_lift_bind fun applyable _ => ?_)
    cases applyable with
    | past | invalid =>
      refine wp_mono (@ih (nb.msgRemoved _) st tally distinctRest later) ?_
      rintro final _ left ⟨adds, isId, sublist, uncounted⟩
      exact ⟨adds.mono more, isId, sublist.cons _, uncounted⟩
    | current =>
      rw [wp_bind]
      refine wp_get_bind (wp_lift_bind fun ct applied => ?_)
      rw [wp_modify]
      have isKey : (nonNil value).getD [] = value := nonNil_getD value
      have voted := tally.vote (by rwa [isKey]) (by rwa [isKey]) (vote_of_apply applied)
      rw [isKey] at voted
      -- The other messages are different from this one, and stay uncounted.
      have stillLater : ∀ msg ∈ rest, ∃ seqNo value, msg = .checkpoint seqNo value ∧
          ⟨nb.id, seqNo, value⟩ ∈ heard ∧ ¬ ct.Counted ⟨nb.id, seqNo, value⟩ := by
        intro msg member
        obtain ⟨otherSeq, otherValue, rfl, isOther, uncounted⟩ := later msg member
        refine ⟨otherSeq, otherValue, rfl, isOther, voted.fresh uncounted fun same => ?_⟩
        cases same
        exact notLater member
      refine wp_mono (@ih (nb.msgRemoved _) ⟨ct, st.sh⟩ voted.tally distinctRest stillLater) ?_
      rintro final _ left ⟨adds, isId, sublist, uncounted⟩
      refine ⟨(voted.mono ?_).trans (adds.mono more), isId, sublist.cons _, uncounted⟩
      rintro _ rfl
      exact ⟨rfl, mem_cons_self⟩
    | future =>
      rw [wp_bind]
      refine wp_mono (ih tally distinctRest later) ?_
      rintro final _ left ⟨adds, isId, sublist, uncounted⟩
      rw [wp_pure]
      refine ⟨adds.mono more, isId, sublist.cons_cons _, fun otherSeq otherValue member => ?_⟩
      rcases mem_cons.mp member with same | member
      · cases same
        exact adds.fresh fresh fun isLater => notLater isLater.2
      · exact uncounted otherSeq otherValue member

theorem wp_drainBuffer_tally {st : CpState} (id : NodeID) (tally : Tally faulty valueOf heard first st.ct)
    (once : st.ct.BufferedOnce) : wp (drainBuffer id) st fun final _ _ =>
      Tally faulty valueOf heard first final.ct ∧ final.ct.BufferedOnce := by
  refine wp_get_bind ?_
  split
  · exact wp_fail _ _ _
  rename_i buffer isBuffer
  obtain ⟨isId, sent⟩ := tally.buffered id buffer isBuffer
  obtain ⟨distinct, uncounted⟩ := once id buffer isBuffer
  rw [wp_bind]
  refine wp_mono (wp_iterateFrom_tally tally distinct fun msg member => ?_) ?_
  · obtain ⟨seqNo, value, rfl, isHeard⟩ := sent msg member
    rw [isId]
    exact ⟨seqNo, value, rfl, isHeard, uncounted seqNo value member⟩
  rintro mid _ left ⟨adds, leftId, sublist, leftUncounted⟩
  refine wp_get_bind (wp_lift_bind fun ct isStored => ?_)
  cases isStored
  rw [wp_modify]
  have buffered := adds.tally.buffered.insert
    ⟨leftId.trans isId, fun msg member => sent msg (sublist.subset member)⟩
  refine ⟨{ adds.tally with buffered }, fun other found isFound => ?_⟩
  rcases GoMap.of_lookup_insert isFound with ⟨rfl, rfl⟩ | ⟨differs, isFound⟩
  · exact ⟨distinct.sublist sublist, isId ▸ leftUncounted⟩
  · rw [adds.buffers] at isFound
    obtain ⟨otherDistinct, otherUncounted⟩ := once other found isFound
    exact ⟨otherDistinct, fun seqNo value member =>
      adds.fresh (otherUncounted seqNo value member) fun added => differs (added.1.trans isId)⟩

/-- **The window moves**, and what is buffered and not counted is counted. -/
theorem wp_garbageCollect_tally {st : CpState} (tally : Tally faulty valueOf heard first st.ct)
    (once : st.ct.BufferedOnce) :
    wp garbageCollect st fun final _ _ => Tally faulty valueOf heard first final.ct := by
  refine wp_mono (wp_garbageCollect (I := fun ct => Tally faulty valueOf heard first ct ∧ ct.BufferedOnce)
    (fun highestStable moved ⟨isStable, extended⟩ => ?_)
    (fun id st holds => wp_drainBuffer_tally id holds.1 holds.2)
    fun ct holds => ⟨{ holds.1 with }, holds.2⟩) fun _ _ _ done => done.1.1
  obtain ⟨added, table, rfl, isTable⟩ := extend_eq_ok extended
  have erased (seqNo : Nat) : (table.lookup seqNo).getD (.new seqNo st.ct.networkConfig) =
    st.ct.checkpoint seqNo ∨
      (table.lookup seqNo).getD (.new seqNo st.ct.networkConfig) = .new seqNo st.ct.networkConfig := by
    have kept : (table.lookup seqNo).getD (.new seqNo st.ct.networkConfig) =
      ((st.ct.splitStable.1.dropLast.foldl
        (fun table seqNo => table.erase seqNo) st.ct.checkpointMap).lookup seqNo).getD
        (.new seqNo st.ct.networkConfig) := by
      rw [isTable]
      split <;> rfl
    rw [kept, lookup_erased]
    split
    · exact .inr rfl
    · exact .inl rfl
  have isActive : st.ct.activeCheckpoints ≠ [] := by
    intro empty
    rw [splitStable, empty] at isStable
    cases isStable
  refine ⟨tally.of_erased ⟨rfl, rfl, rfl⟩ (fun _ => isActive) erased, fun id buffer isBuffer => ?_⟩
  obtain ⟨distinct, uncounted⟩ := once id buffer isBuffer
  refine ⟨distinct, fun seqNo value member counted => uncounted seqNo value member
    (counted_of_erased ?_ counted)⟩
  exact erased

/-! ### Starting from the log -/

/-- **A loop whose rounds count different votes**, none of which is counted before. -/
theorem wp_forEach_tally {ι : Type} {body : ι → GoProc CpState Unit} {items : List ι}
    {adds : ι → Report → Prop} {st : CpState}
    (disjoint : items.Pairwise fun one other => ∀ report, adds one report → ¬ adds other report)
    (fresh : ∀ item ∈ items, ∀ report, adds item report → ¬ st.ct.Counted report)
    (each : ∀ item ∈ items, ∀ st : CpState, Tally faulty valueOf heard first st.ct →
      (∀ report, adds item report → ¬ st.ct.Counted report) → wp (body item) st fun final _ _ =>
        Adds faulty valueOf heard first (adds item) st.ct final.ct)
    (tally : Tally faulty valueOf heard first st.ct) :
    wp (forEach body items) st fun final _ _ =>
      Adds faulty valueOf heard first (fun report => ∃ item ∈ items, adds item report) st.ct final.ct := by
  induction items generalizing st with
  | nil =>
    rw [forEach, wp_pure]
    exact tally.adds
  | cons item rest ih =>
    obtain ⟨apart, disjointRest⟩ := pairwise_cons.mp disjoint
    rw [forEach, wp_bind]
    refine wp_mono (each item mem_cons_self st tally (fresh item mem_cons_self)) ?_
    intro mid _ _ counts
    refine wp_mono (ih disjointRest (fun other member report isAdded =>
      counts.fresh (fresh other (mem_cons_of_mem _ member) report isAdded) fun added =>
        apart other member report added isAdded)
      (fun other member => each other (mem_cons_of_mem _ member)) counts.tally) ?_
    intro final _ _ countsOn
    refine (counts.mono fun report added => ?_).trans (countsOn.mono fun report => ?_)
    · exact ⟨item, mem_cons_self, added⟩
    · rintro ⟨other, member, added⟩
      exact ⟨other, mem_cons_of_mem _ member, added⟩

theorem wp_restoreValue_tally {agreements : List NodeID} {value : Bytes} (distinct : agreements.Nodup)
    (sent : ∀ id ∈ agreements, ⟨id, seqNo, value⟩ ∈ heard) {st : CpState}
    (tally : Tally faulty valueOf heard first st.ct)
    (fresh : ∀ id ∈ agreements, ¬ st.ct.Counted ⟨id, seqNo, value⟩) :
    wp (restoreValue seqNo value agreements) st fun final _ _ => Adds faulty valueOf heard first
      (fun report => report.seqNo = seqNo ∧ report.value = value ∧
      report.source ∈ agreements) st.ct final.ct := by
  refine wp_get_bind ?_
  have subset := fun id (member : id ∈ agreements.filter (· ∈ st.ct.networkConfig.nodes)) =>
    (mem_filter.mp member).1
  refine wp_mono (@wp_forEach_tally faulty valueOf heard first _ _ _
    (fun id report => report = (⟨id, seqNo, value⟩ : Report)) st
    ((distinct.sublist filter_sublist).imp fun differs report same other => ?_)
    (fun id member report same => by rw [same]; exact fresh id (subset id member))
    (fun id member st tally uncounted => ?_) tally) fun final _ _ counts => counts.mono ?_
  · rw [same] at other
    cases other
    exact differs rfl
  · refine wp_get_bind (wp_lift_bind fun ct applied => ?_)
    rw [wp_modify]
    exact tally.vote (uncounted _ rfl) (sent id (subset id member)) (vote_of_apply applied)
  · rintro _ ⟨id, member, rfl⟩
    exact ⟨rfl, rfl, subset id member⟩

theorem wp_restoreCheckpoint_tally {myID : NodeID} {before : Option Nat}
    (backed : cp.Backed myID heard before seqNo) {st : CpState}
    (tally : Tally faulty valueOf heard first st.ct)
    (fresh : ∀ value, ∀ id ∈ cp.votes value, ¬ st.ct.Counted ⟨id, seqNo, value⟩) :
    wp (restoreCheckpoint seqNo cp) st fun final _ _ => Adds faulty valueOf heard first
      (fun report => report.seqNo = seqNo ∧ report.source ∈ cp.votes report.value) st.ct final.ct := by
  refine wp_get_bind (wp_lift_bind fun low _ => ?_)
  split
  · rw [wp_pure]
    exact tally.adds
  rw [wp_bind, onShared, wp_zoom]
  refine wp_get_bind ?_
  rw [wp_bind, wp_modify, wp_pure]
  have isVotes := fun entry member => votes_of_mem
    ((@MapIter.mem_run (st.sh.orders 0) _ cp.values.entries entry).mp member)
  refine wp_mono (@wp_forEach_tally faulty valueOf heard first _ _ _
    (fun entry report => report.seqNo = seqNo ∧ report.value = entry.1 ∧ report.source ∈ entry.2) _
    (((st.sh.orders 0).keys_run cp.values).imp fun differs report one other =>
      differs (one.2.1.symm.trans other.2.1))
    (fun entry member report added => ?_) (fun entry member st tally uncounted => ?_) ?_)
    fun final _ _ counts => counts.mono ?_
  · obtain ⟨isSeq, isValue, isVoter⟩ := added
    obtain ⟨source, _, _⟩ := report
    cases isSeq
    cases isValue
    exact fresh entry.1 source (by rw [isVotes entry member]; exact isVoter)
  · refine wp_restoreValue_tally (by rw [← isVotes entry member]; exact backed.distinct entry.1)
      (fun id isVoter => backed.heard entry.1 id (by rw [isVotes entry member]; exact isVoter)) tally
      fun id isVoter => uncounted _ ⟨rfl, rfl, isVoter⟩
  · exact tally
  · rintro report ⟨entry, member, isSeq, isValue, isVoter⟩
    refine ⟨isSeq, ?_⟩
    rw [isValue, isVotes entry member]
    exact isVoter

/-- The node's own votes, as its log has them. -/
def ownReports (id : NodeID) (log : List Persistent) : List Report :=
  (cEntries log).map fun entry => ⟨id, entry.seqNo, entry.checkpointValue⟩

theorem Tally.loadCEntries {log : List Persistent} (tally : Tally faulty valueOf heard first ct)
    (tolerable : Tolerable faulty ct.networkConfig) (distinct : ((cEntries log).map CEntry.seqNo).Nodup)
    (isHeard : ownReports ct.myConfig.id log ⊆ heard)
    (fresh : ∀ report ∈ ownReports ct.myConfig.id log, ¬ ct.Counted report)
    (loaded : ct.loadCEntries log = .ok after) :
    Adds faulty valueOf heard first (· ∈ ownReports ct.myConfig.id log) ct after := by
  induction log generalizing ct with
  | nil =>
    cases loaded
    exact tally.adds
  | cons entry rest ih =>
    cases entry with
    | cEntry entry =>
      obtain ⟨cp, voted, loaded⟩ := bind_eq_ok.mp loaded
      obtain ⟨notLater, distinctRest⟩ := nodup_cons.mp distinct
      have isKey : (nonNil entry.checkpointValue).getD [] = entry.checkpointValue := nonNil_getD _
      have mine : (⟨ct.myConfig.id, entry.seqNo, entry.checkpointValue⟩ : Report) ∈
          ownReports ct.myConfig.id (.cEntry entry :: rest) := mem_cons_self
      have stored := tally.setCheckpoint tolerable (by rw [isKey]; exact fresh _ mine)
        (by rw [isKey]; exact isHeard mine) voted
      rw [isKey] at stored
      have counts := ih
        ({ stored.tally with tolerable := fun _ => tolerable } : Tally faulty valueOf heard first
          { ct.setCheckpoint entry.seqNo cp with
            activeCheckpoints := ct.activeCheckpoints ++ [entry.seqNo] }) tolerable distinctRest
        (fun report member => isHeard (mem_cons_of_mem _ member)) (fun report member => ?_) loaded
      · refine ⟨counts.tally, counts.buffers, fun report counted => ?_⟩
        rcases counts.only report counted with earlier | member
        · exact (stored.only report earlier).imp_right fun same => by rw [same]; exact mine
        · exact .inr (mem_cons_of_mem _ member)
      · refine stored.fresh (fresh report (mem_cons_of_mem _ member)) fun same => ?_
        -- The sequence numbers of the log are different.
        obtain ⟨other, isOther, rfl⟩ := mem_map.mp member
        have sameSeq : other.seqNo = entry.seqNo := congrArg Report.seqNo same
        exact notLater (sameSeq ▸ mem_map_of_mem isOther)
    | _ => exact ih tally tolerable distinct isHeard fresh loaded

theorem Tally.mono (tally : Tally faulty valueOf heard first ct) (grew : heard ⊆ more)
    (honest : Honest faulty valueOf more) : Tally faulty valueOf more first ct :=
  { tally with
    honest
    backed := fun seqNo => (tally.backed seqNo).mono grew
    buffered := fun id buffer isBuffer => (tally.buffered id buffer isBuffer).mono
      fun _ _ ⟨seqNo, value, isMsg, isHeard⟩ => ⟨seqNo, value, isMsg, grew isHeard⟩ }

/-- **What a start from the log must find**: the network's configuration tolerates the faulty nodes,
the log has one checkpoint for a sequence number, and none of its checkpoints is counted or buffered
as a vote of the node itself. -/
structure Restartable (faulty : Finset NodeID) (valueOf : Nat → Bytes) (st : CpState) : Prop where
  tolerable : ∀ nc, firstConfig st.sh.persisted.entries = some nc → Tolerable faulty nc
  distinct : ((cEntries st.sh.persisted.entries).map CEntry.seqNo).Nodup
  values : ∀ entry ∈ cEntries st.sh.persisted.entries, entry.checkpointValue = valueOf entry.seqNo
  uncounted : ∀ report ∈ ownReports st.ct.myConfig.id st.sh.persisted.entries, ¬ st.ct.Counted report
  unbuffered : ∀ buffer, st.ct.msgBuffers.lookup st.ct.myConfig.id = some buffer →
    ∀ entry ∈ cEntries st.sh.persisted.entries, .checkpoint entry.seqNo entry.checkpointValue ∉ buffer.buffer

theorem Restartable.honest {st : CpState} (restartable : Restartable faulty valueOf st)
    (honest : Honest faulty valueOf heard) :
    Honest faulty valueOf (heard ++ ownReports st.ct.myConfig.id st.sh.persisted.entries) := by
  intro report member
  rcases mem_append.mp member with earlier | own
  · exact honest report earlier
  · obtain ⟨entry, isEntry, rfl⟩ := mem_map.mp own
    exact .inr (restartable.values entry isEntry)

/-- The tracker before the votes of the time before are counted again. -/
structure Reloaded (faulty : Finset NodeID) (valueOf : Nat → Bytes) (heard : List Report) (st : CpState)
    (ct : CheckpointTracker) : Prop where
  tally : Tally faulty valueOf (heard ++ ownReports st.ct.myConfig.id st.sh.persisted.entries)
    ((cEntries st.sh.persisted.entries).head?.map CEntry.seqNo) ct
  own : ∀ report, ct.Counted report → report ∈ ownReports st.ct.myConfig.id st.sh.persisted.entries
  once : ∀ id buffer, ct.msgBuffers.lookup id = some buffer → buffer.buffer.Nodup ∧ ∀ seqNo value,
    .checkpoint seqNo value ∈ buffer.buffer → ¬ st.ct.Counted ⟨id, seqNo, value⟩ ∧
      ⟨id, seqNo, value⟩ ∉ ownReports st.ct.myConfig.id st.sh.persisted.entries

theorem Restartable.load {st : CpState} {nc : NetworkConfig} {loaded : CheckpointTracker} {low : Nat}
    (restartable : Restartable faulty valueOf st) (tally : Tally faulty valueOf heard first st.ct)
    (once : st.ct.BufferedOnce) (isConfig : firstConfig st.sh.persisted.entries = some nc)
    (isLoaded : ({ new nc st.ct.myConfig with state := st.ct.state } : CheckpointTracker).loadCEntries
      st.sh.persisted.entries = .ok loaded) (isLow : loaded.lowWatermark = .ok low) :
    Reloaded faulty valueOf heard st
      { loaded.setCheckpoint low { loaded.checkpoint low with stable := true } with
      msgBuffers := reinitializeBuffers ⟨loaded.myConfig⟩ st.ct.msgBuffers nc.nodes } := by
  have honest := restartable.honest tally.honest
  have fresh : Tally faulty valueOf (heard ++ ownReports st.ct.myConfig.id st.sh.persisted.entries)
      ((cEntries st.sh.persisted.entries).head?.map CEntry.seqNo)
      { new nc st.ct.myConfig with state := st.ct.state } :=
    ⟨honest, tally.correct, fun isActive => absurd rfl isActive, fun seqNo => CheckpointVotes.backed_new nc,
      fun _ => rfl, nofun⟩
  obtain ⟨kept, _, counts⟩ := fresh.loadCEntries
    (restartable.tolerable nc isConfig) restartable.distinct (subset_append_right _ _) (fun _ _ => nofun)
    isLoaded
  have isFirst : (cEntries st.sh.persisted.entries).head?.map CEntry.seqNo = some low := by
    obtain ⟨_, rfl, _⟩ := loadCEntries_eq_ok isLoaded
    change lowWatermark { activeCheckpoints := [] ++ _, .. } = _ at isLow
    rw [lowWatermark, nil_append, List.head?_map] at isLow
    split at isLow
    · cases isLow
    · rename_i isHead
      cases isLow
      exact isHead
  refine ⟨⟨kept.honest, kept.correct, kept.tolerable, fun seqNo => ?_, fun seqNo => ?_,
    EpochTracker.forall_reinitializeBuffers (tally.mono (subset_append_left _ _) honest).buffered
      (fun _ => ⟨rfl, nofun⟩) nc.nodes⟩, fun report counted => ?_,
    EpochTracker.forall_reinitializeBuffers (fun id buffer isOld => ?_)
      (fun _ => ⟨nodup_nil, nofun⟩) nc.nodes⟩
  · show ((loaded.setCheckpoint low _).checkpoint seqNo).Backed _ _ _ _
    rw [checkpoint_setCheckpoint]
    by_cases same : seqNo = low
    · rw [if_pos same, same]
      exact { kept.backed low with stable := fun _ notFirst => absurd isFirst.symm notFirst }
    · rw [if_neg same]
      exact kept.backed seqNo
  · show ((loaded.setCheckpoint low _).checkpoint seqNo).networkConfig = _
    rw [checkpoint_setCheckpoint]
    by_cases same : seqNo = low
    · rw [if_pos same]
      exact kept.config low
    · rw [if_neg same]
      exact kept.config seqNo
  · refine (counts report ?_).resolve_left nofun
    change report.source ∈ ((loaded.setCheckpoint low _).checkpoint
      report.seqNo).votes report.value at counted
    rw [checkpoint_setCheckpoint] at counted
    by_cases same : report.seqNo = low
    · rw [if_pos same, ← same] at counted
      exact counted
    · rw [if_neg same] at counted
      exact counted
  · obtain ⟨distinct, uncounted⟩ := once id buffer isOld
    refine ⟨distinct, fun seqNo value member => ⟨uncounted seqNo value member, fun isOwn => ?_⟩⟩
    obtain ⟨entry, isEntry, same⟩ := mem_map.mp isOwn
    cases same
    exact restartable.unbuffered buffer isOld entry isEntry member

/-- **A start from the log** that counts no vote twice. -/
theorem wp_reinitialize_tally {st : CpState} (tally : Tally faulty valueOf heard first st.ct)
    (once : st.ct.BufferedOnce) (restartable : Restartable faulty valueOf st) :
    wp reinitialize st fun final _ _ =>
      Tally faulty valueOf (heard ++ ownReports st.ct.myConfig.id st.sh.persisted.entries)
        ((cEntries st.sh.persisted.entries).head?.map CEntry.seqNo) final.ct := by
  refine wp_reinitialize (I := Reloaded faulty valueOf heard st)
    (J := fun ct => Tally _ _ _ _ ct ∧ ct.BufferedOnce)
    (fun _ _ _ => restartable.load tally once) (fun order ct sh reloaded => ?_)
    fun _ _ holds => wp_garbageCollect_tally holds.1 holds.2
  -- The votes of the time before, none of which is the node's own for a checkpoint of the log.
  have atEntry := fun entry member => checkpoint_of_mem
    ((@MapIter.mem_run order _ st.ct.checkpointMap.entries entry).mp member)
  refine wp_mono (@wp_forEach_tally faulty valueOf _ _ _ _ _
    (fun entry report => report.seqNo = entry.1 ∧ report.source ∈ entry.2.votes report.value) _
    ((order.keys_run _).imp fun differs report one other => differs (one.1.symm.trans other.1))
    (fun entry member report added counted => ?_)
      (fun entry member st' tally' uncounted => ?_) reloaded.tally)
    fun restored _ _ adds => ⟨adds.tally, fun id buffer isBuffer => ?_⟩
  · refine restartable.uncounted report (reloaded.own report counted) ?_
    rw [Counted, added.1, atEntry entry member]
    exact added.2
  · have backed := ((tally.mono (subset_append_left _ _) (restartable.honest tally.honest)).backed entry.1)
    rw [atEntry entry member] at backed
    exact wp_restoreCheckpoint_tally backed tally' fun value id isVoter => uncounted _ ⟨rfl, isVoter⟩
  · rw [adds.buffers] at isBuffer
    obtain ⟨distinct, uncounted⟩ := reloaded.once id buffer isBuffer
    refine ⟨distinct, fun seqNo value member => ?_⟩
    obtain ⟨notBefore, notOwn⟩ := uncounted seqNo value member
    refine adds.fresh (fun counted => notOwn (reloaded.own _ counted)) ?_
    rintro ⟨entry, isEntry, isSeq, isVoter⟩
    refine notBefore ?_
    rw [Counted, isSeq, atEntry entry isEntry]
    exact isVoter

theorem wp_step_tally {st : CpState} {value : Bytes} (tally : Tally faulty valueOf heard first st.ct)
    (honest : source ∈ faulty ∨ value = valueOf seqNo) (fresh : ¬ st.ct.Counted ⟨source, seqNo, value⟩) :
    wp (step source (.checkpoint seqNo value)) st fun final _ _ =>
      Tally faulty valueOf (heard ++ [⟨source, seqNo, value⟩]) first final.ct := by
  have honestOn : Honest faulty valueOf (heard ++ [⟨source, seqNo, value⟩]) := by
    intro report member
    rcases mem_append.mp member with earlier | last
    · exact tally.honest report earlier
    · rw [mem_singleton.mp last]
      exact honest
  have grown := tally.mono (subset_append_left _ [⟨source, seqNo, value⟩]) honestOn
  have isHeard : (⟨source, seqNo, value⟩ : Report) ∈ heard ++ [⟨source, seqNo, value⟩] := by simp
  have isKey : (nonNil value).getD [] = value := nonNil_getD value
  refine wp_step (P := Tally faulty valueOf (heard ++ [⟨source, seqNo, value⟩]) first) (fun _ _ _ => grown)
    (fun _ _ _ _ vote => (grown.vote (by rwa [isKey]) (by rwa [isKey]) vote).tally)
    fun buffer after _ _ _ isBuffer vote => ?_
  have stored : Tally faulty valueOf (heard ++ [⟨source, seqNo, value⟩]) first { st.ct with
      msgBuffers := st.ct.msgBuffers.insert source (buffer.store (.checkpoint seqNo value)) } :=
    { grown with buffered := grown.buffered.insert ((grown.buffered source buffer isBuffer).store
      ⟨seqNo, value, rfl, isHeard⟩) }
  exact (stored.vote (by rw [isKey]; exact fresh) (by rwa [isKey]) vote).tally

end CheckpointTracker

/-! ### Runs -/

/-- What the state machine calls. -/
inductive CheckpointCall where
  | step (source : NodeID) (seqNo : Nat) (value : Bytes)
  | garbageCollect
  | restart

namespace CheckpointCall

def perform : CheckpointCall → GoProc CpState Unit
  | .step source seqNo value => CheckpointTracker.step source (.checkpoint seqNo value)
  | .garbageCollect => do
    let _ ← CheckpointTracker.garbageCollect
  | .restart => CheckpointTracker.reinitialize

/-- The reports that are known: the messages that came, and the node's own checkpoints. -/
def heardAfter (st : CpState) (heard : List Report) : CheckpointCall → List Report
  | .step source seqNo value => heard ++ [⟨source, seqNo, value⟩]
  | .garbageCollect => heard
  | .restart => heard ++ CheckpointTracker.ownReports st.ct.myConfig.id st.sh.persisted.entries

/-- The first checkpoint of the log that the tracker was started from. -/
def firstAfter (st : CpState) (first : Option Nat) : CheckpointCall → Option Nat
  | .restart => (CheckpointTracker.cEntries st.sh.persisted.entries).head?.map CEntry.seqNo
  | _ => first

end CheckpointCall

/-- **A run of the tracker**: its calls, each of which meets the condition, and in between what the
other components do to what they share. -/
inductive CheckpointRun (condition : CpState → CheckpointCall → Prop) (myConfig : InitialParameters) :
    List Report → Option Nat → CpState → Prop
  | start (nc : NetworkConfig) (sh : Shared) : CheckpointRun condition myConfig [] none ⟨.new nc myConfig, sh⟩
  | others {heard : List Report} {first : Option Nat} {st : CpState} (sh : Shared) :
      CheckpointRun condition myConfig heard first st →
      CheckpointRun condition myConfig heard first { st with sh }
  | call {heard : List Report} {first : Option Nat} {st after : CpState} {actions : List Action}
      (call : CheckpointCall) : CheckpointRun condition myConfig heard first st → condition st call →
      call.perform st = .ok (after, actions, ()) →
      CheckpointRun condition myConfig (call.heardAfter st heard) (call.firstAfter st first) after

/-- **Enough different nodes have sent what is stable or committed.** -/
def CheckpointTracker.Supported (heard : List Report) (first : Option Nat) (ct : CheckpointTracker) : Prop :=
  ∀ seqNo cp, ct.checkpointMap.lookup seqNo = some cp →
    (cp.stable = true → some seqNo ≠ first → ∃ (value : Bytes) (voters : Finset NodeID),
      intersectionQuorum cp.networkConfig ≤ voters.card ∧ ct.myConfig.id ∈ voters ∧
      ∀ id ∈ voters, ⟨id, seqNo, value⟩ ∈ heard) ∧
    ∀ value, cp.committedValue = some value → ∃ voters : Finset NodeID,
      someCorrectQuorum cp.networkConfig ≤ voters.card ∧ ∀ id ∈ voters, ⟨id, seqNo, value⟩ ∈ heard

/-- **No vote is counted twice**, and the nodes that are not faulty have the same values. -/
def CountsOnce (faulty : Finset NodeID) (valueOf : Nat → Bytes) (st : CpState) : CheckpointCall → Prop
  | .step source seqNo value => (source ∈ faulty ∨ value = valueOf seqNo) ∧
      ¬ st.ct.Counted ⟨source, seqNo, value⟩
  | .garbageCollect => st.ct.BufferedOnce
  | .restart => st.ct.BufferedOnce ∧ CheckpointTracker.Restartable faulty valueOf st

section Run

open CheckpointTracker

variable {faulty : Finset NodeID} {valueOf : Nat → Bytes} {heard : List Report} {first : Option Nat}
  {st after : CpState} {myConfig : InitialParameters} {actions : List Action}

theorem CheckpointTracker.Tally.supported {ct : CheckpointTracker}
    (tally : Tally faulty valueOf heard first ct) : ct.Supported heard first := by
  intro seqNo cp isStored
  have backed := tally.backed seqNo
  rw [checkpoint, isStored] at backed
  have size (value : Bytes) : (cp.votes value).toFinset.card = (cp.votes value).length :=
    toFinset_card_of_nodup (backed.distinct value)
  refine ⟨fun isStable notFirst => ?_, fun value isCommitted => ?_⟩
  · obtain ⟨value, quorum, mine⟩ := backed.stable isStable notFirst
    exact ⟨value, (cp.votes value).toFinset, by rw [size]; exact quorum, mem_toFinset.mpr mine,
      fun id member => backed.heard value id (mem_toFinset.mp member)⟩
  · exact ⟨(cp.votes value).toFinset, by rw [size]; exact backed.committed value isCommitted,
      fun id member => backed.heard value id (mem_toFinset.mp member)⟩

theorem CheckpointCall.tally (call : CheckpointCall) (tally : Tally faulty valueOf heard first st.ct)
    (once : CountsOnce faulty valueOf st call) (performed : call.perform st = .ok (after, actions, ())) :
    Tally faulty valueOf (call.heardAfter st heard) (call.firstAfter st first) after.ct := by
  cases call with
  | step source seqNo value => exact wp_step_tally tally once.1 once.2 _ _ _ performed
  | garbageCollect =>
    have collects : wp (CheckpointCall.perform .garbageCollect) st fun final _ _ =>
        Tally faulty valueOf heard first final.ct := by
      unfold CheckpointCall.perform
      rw [wp_bind]
      refine wp_mono (wp_garbageCollect_tally tally once) fun final _ _ done => ?_
      rw [wp_pure]
      exact done
    exact collects _ _ _ performed
  | restart => exact wp_reinitialize_tally tally once.1 once.2 _ _ _ performed

theorem CheckpointRun.tally (correct : myConfig.id ∉ faulty)
    (run : CheckpointRun (CountsOnce faulty valueOf) myConfig heard first st) :
    Tally faulty valueOf heard first st.ct := by
  induction run with
  | start nc sh =>
    exact ⟨nofun, correct, fun isActive => absurd rfl isActive, fun _ => CheckpointVotes.backed_new nc,
      fun _ => rfl, nofun⟩
  | others sh _ ih => exact ih
  | call call _ once performed ih => exact call.tally ih once performed

/-- **A stable checkpoint has a quorum**: in a run in which no vote is counted twice, a checkpoint
other than the first of the log is stable only if a quorum of different nodes, this one among them,
has sent its value, and a value is committed only if f + 1 different nodes have sent it. -/
theorem stable_has_quorum (correct : myConfig.id ∉ faulty)
    (run : CheckpointRun (CountsOnce faulty valueOf) myConfig heard first st) :
    st.ct.Supported heard first :=
  (run.tally correct).supported

end Run

namespace CheckpointRun

/-- A tracker's state and what is known of its run. -/
structure Point where
  heard : List Report
  first : Option Nat
  st : CpState

/-- Execute calls, each of which is checked. -/
def execute (check : CpState → CheckpointCall → Bool) : List CheckpointCall → Point → Option Point
  | [], point => some point
  | next :: rest, point =>
    if check point.st next then match next.perform point.st with
      | .ok (after, _, _) =>
        execute check rest ⟨next.heardAfter point.st point.heard, next.firstAfter point.st point.first, after⟩
      | .error _ => none
    else none

theorem of_execute {condition : CpState → CheckpointCall → Prop} {check : CpState → CheckpointCall → Bool}
    {myConfig : InitialParameters} {calls : List CheckpointCall} {point final : Point}
    (sound : ∀ st call, check st call = true → condition st call)
    (run : CheckpointRun condition myConfig point.heard point.first point.st)
    (executed : execute check calls point = some final) :
    CheckpointRun condition myConfig final.heard final.first final.st := by
  induction calls generalizing point with
  | nil =>
    cases executed
    exact run
  | cons next rest ih =>
    unfold execute at executed
    by_cases checked : check point.st next = true
    · rw [if_pos checked] at executed
      cases performed : next.perform point.st with
      | error _ =>
        rw [performed] at executed
        cases executed
      | ok result =>
        rw [performed] at executed
        exact ih (run.call next (sound _ _ checked) performed) executed
    · rw [if_neg checked] at executed
      cases executed

/-- The condition, for calls of a tracker that nothing is buffered in. -/
def countsOnce (faulty : Finset NodeID) (valueOf : Nat → Bytes) (st : CpState) : CheckpointCall → Bool
  | .step source seqNo value => decide ((source ∈ faulty ∨ value = valueOf seqNo) ∧
      source ∉ (st.ct.checkpoint seqNo).votes value)
  | .garbageCollect => false
  | .restart => decide (st.ct.checkpointMap.entries.length = 0 ∧ st.ct.msgBuffers.entries.length = 0 ∧
      (∀ nc ∈ CheckpointTracker.firstConfig st.sh.persisted.entries,
        faulty.card ≤ nc.f ∧ nc.f < nc.nodes.length) ∧
      ((CheckpointTracker.cEntries st.sh.persisted.entries).map CEntry.seqNo).Nodup ∧
      ∀ entry ∈ CheckpointTracker.cEntries st.sh.persisted.entries,
      entry.checkpointValue = valueOf entry.seqNo)

theorem lookup_of_empty {κ α : Type} [DecidableEq κ] {table : GoMap κ α} (empty : table.entries.length = 0)
    (key : κ) : table.lookup key = none := by
  rw [AList.lookup_eq_none, AList.mem_keys, AList.keys, length_eq_zero_iff.mp empty]
  exact not_mem_nil

theorem countsOnce_sound {faulty : Finset NodeID} {valueOf : Nat → Bytes} (st : CpState)
    (next : CheckpointCall)
    (checked : countsOnce faulty valueOf st next = true) : CountsOnce faulty valueOf st next := by
  cases next with
  | step source seqNo value =>
    obtain ⟨honest, fresh⟩ := of_decide_eq_true checked
    exact ⟨honest, fresh⟩
  | garbageCollect => cases checked
  | restart =>
    obtain ⟨noVotes, noBuffers, tolerable, distinct, values⟩ := of_decide_eq_true checked
    have unbuffered (id : NodeID) (buffer : MsgBuffer) : st.ct.msgBuffers.lookup id ≠ some buffer := by
      rw [lookup_of_empty noBuffers]
      exact nofun
    refine ⟨fun id buffer isBuffer => absurd isBuffer (unbuffered id buffer), fun nc isConfig => ?_, distinct,
      values, fun report _ counted => ?_, fun buffer isBuffer => absurd isBuffer (unbuffered _ buffer)⟩
    · exact tolerable nc isConfig
    · rw [CheckpointTracker.Counted, CheckpointTracker.checkpoint, lookup_of_empty noVotes] at counted
      cases counted

open FourNodes (networkConfig networkState parameters)

/-- What a node of four finds when it starts: one checkpoint. -/
def beginning (id : NodeID) : Point where
  heard := []
  first := none
  st := ⟨.new networkConfig (parameters id), .new (parameters id)
    { nextIndex := 2, log := [⟨1, .cEntry ⟨0, [7], networkState⟩⟩] } networkConfig
    fun _ => .inOrder⟩

/-- The votes of three nodes. -/
theorem three_nodes_stable : ∃ heard first st cp,
    CheckpointRun (CountsOnce {3} fun _ => [7]) (parameters 0) heard first st ∧
      st.ct.checkpointMap.lookup 5 = some cp ∧ cp.stable = true ∧ st.ct.Supported heard first := by
  have evaluated : ∃ final, execute (countsOnce {3} fun _ => [7])
      [.restart, .step 0 5 [7], .step 1 5 [7], .step 2 5 [7]] (beginning 0) = some final ∧
      ∃ cp, final.st.ct.checkpointMap.lookup 5 = some cp ∧ cp.stable = true := by
    decide +kernel
  obtain ⟨final, executed, cp, isStored, isStable⟩ := evaluated
  have run := of_execute countsOnce_sound (CheckpointRun.start networkConfig (beginning 0).st.sh)
    executed
  exact ⟨_, _, _, cp, run, isStored, isStable, stable_has_quorum (by decide) run⟩

/-- **One vote counts twice**: a node's message is delivered again, and two of four nodes make a
checkpoint stable. -/
theorem repeated_vote_stable : ∃ heard first st,
    CheckpointRun (fun _ _ => True) (parameters 0) heard first st ∧
      ¬ st.ct.Supported heard first := by
  have evaluated : ∃ final, execute (fun _ _ => true)
      [.restart, .step 0 5 [7], .step 1 5 [7], .step 1 5 [7]] (beginning 0) = some final ∧
      final.first = some 0 ∧ (∀ report ∈ final.heard, report.source ∈ [0, 1]) ∧
      ∃ cp, final.st.ct.checkpointMap.lookup 5 = some cp ∧ cp.stable = true ∧
        intersectionQuorum cp.networkConfig = 3 := by
    decide +kernel
  obtain ⟨final, executed, isFirst, sources, cp, isStored, isStable, quorum⟩ := evaluated
  refine ⟨_, _, _, of_execute (fun _ _ _ => trivial)
    (CheckpointRun.start networkConfig (beginning 0).st.sh) executed, fun supported => ?_⟩
  obtain ⟨value, voters, large, _, sent⟩ := (supported 5 cp isStored).1 isStable (by rw [isFirst]; decide)
  have few : voters ⊆ [0, 1].toFinset := fun id member => mem_toFinset.mpr (sources _ (sent id member))
  have atMost := Finset.card_le_card few
  rw [quorum] at large
  exact absurd (large.trans atMost) (by decide)

end CheckpointRun

end MirBft
