/-
**An active epoch, step by step.**

`EpochStep` is an active epoch, with what it shares, as a transition system. A step is all that has
to change together: an operation on a sequence with the cursors that pass it (`lowestUnallocated`,
`nextSeqNo`), a commit with `lowestUncommitted`, an interval of new sequences with its N-entry. The
guards are what the code has looked at before.

* `Aligned`: buckets, owners and the window fit together, and what is in a buffer was heard;
* `EpochStep.aligned`: every step keeps an epoch aligned.

The results of hash requests, the requests that become available and the end of the low intervals
are not steps: what they do to an epoch is said where they are used.
-/

import MirBft.Model.ActiveEpoch
import MirBft.Proof.SequenceSends

namespace MirBft

open Function

abbrev ActiveEpoch.interval (ae : ActiveEpoch) : Nat := ae.networkConfig.checkpointInterval

abbrev ActiveEpoch.bucketCount (ae : ActiveEpoch) : Nat := ae.networkConfig.numberOfBuckets

/-- A sequence of the updated heap is the new one or another one. -/
theorem heap_update {h : Nat → Option Sequence} {seqNo other : Nat} {next s : Sequence}
    (found : update h seqNo (some next) other = some s) :
    (other = seqNo ∧ s = next) ∨ (other ≠ seqNo ∧ h other = some s) := by
  by_cases same : other = seqNo
  · subst same
    rw [update_self, Option.some.injEq] at found
    exact Or.inl ⟨rfl, found.symm⟩
  · rw [update_of_ne same] at found
    exact Or.inr ⟨same, found⟩

theorem foldl_update_apply {next : Nat → Sequence} (interval : List Nat)
    (heap : Nat → Option Sequence) (seqNo : Nat) :
    interval.foldl (fun heap key => update heap key (some (next key))) heap seqNo =
      if seqNo ∈ interval then some (next seqNo) else heap seqNo := by
  induction interval generalizing heap with
  | nil => simp
  | cons first rest ih =>
    rw [List.foldl_cons, ih]
    by_cases later : seqNo ∈ rest
    · simp [later]
    · by_cases same : seqNo = first
      · simp [same]
      · simp [later, same]

theorem mem_interval {high size seqNo : Nat} :
    seqNo ∈ (List.range size).map (high + 1 + ·) ↔ high < seqNo ∧ seqNo ≤ high + size := by
  simp only [List.mem_map, List.mem_range]
  constructor
  · omega
  · rintro ⟨above, bounded⟩
    exact ⟨seqNo - (high + 1), by omega, by omega⟩

namespace AeState

/-- A sequence and the log after an operation. -/
def withSequence (st : AeState) (seqNo : Nat) (next : Sequence) (persisted : Persisted) : AeState :=
  { ae := { st.ae with heap := update st.ae.heap seqNo (some next) }
    sh := { st.sh with persisted } }

/-- The next unallocated sequence number of a bucket is passed. -/
def passUnallocated (st : AeState) (bucket : Nat) : AeState :=
  { st with ae := { st.ae with
      lowestUnallocated := st.ae.lowestUnallocated.modify bucket (· + st.ae.buckets.length) } }

/-- The next preprepare of a bucket is passed. -/
def passBuffer (st : AeState) (bucket : Nat) : AeState :=
  { st with ae := { st.ae with
      preprepareBuffers := st.ae.preprepareBuffers.modify bucket fun buffer =>
        { buffer with nextSeqNo := buffer.nextSeqNo + st.ae.buckets.length } } }

/-- The bucket of a sequence number. -/
def bucket (st : AeState) (seqNo : Nat) : Nat := seqToBucket seqNo st.ae.networkConfig

end AeState

variable (heard : NodeID → Msg → Prop) {st after : AeState} {actions : List Action}

/-- **What an active epoch does.** -/
inductive EpochStep : AeState → AeState → List Action → Prop
  | prepare {st seqNo s source epoch digest next p actions} : st.ae.heap seqNo = some s →
      source ≠ s.owner → heard source (.prepare seqNo epoch digest) →
      (SeqOp.applyPrepareMsg source digest).run st.sh.clients.agreements s st.sh.persisted =
        .ok ((next, p), actions) →
      EpochStep st (st.withSequence seqNo next p) actions
  -- The actions of a commit vote are dropped.
  | vote {st seqNo s source epoch digest next p actions} : st.ae.heap seqNo = some s →
      heard source (.commit seqNo epoch digest) →
      (SeqOp.applyCommitMsg source digest).run st.sh.clients.agreements s st.sh.persisted =
        .ok ((next, p), actions) →
      EpochStep st (st.withSequence seqNo next p) []
  -- The owner's preprepare comes back to it.
  | back {st seqNo s epoch batch buffer next p actions} : st.ae.bucketCount ≠ 0 →
      st.ae.heap seqNo = some s → s.owner = st.ae.myConfig.id → heard s.owner
      (.preprepare seqNo epoch batch) →
      st.ae.preprepareBuffers[st.bucket seqNo]? = some buffer → buffer.nextSeqNo = seqNo →
      SeqOp.applyPreprepareBack.run st.sh.clients.agreements s st.sh.persisted = .ok ((next, p), actions) →
      EpochStep st ((st.withSequence seqNo next p).passBuffer (st.bucket seqNo)) actions
  -- A follower allocates a batch, while the acks are applied.
  | follow {st seqNo s epoch batch buffer outstandingReqs waiting next p actions} :
      st.ae.heap seqNo = some s → s.owner ≠ st.ae.myConfig.id →
      heard s.owner (.preprepare seqNo epoch batch) →
      st.ae.lowestUnallocated[st.bucket seqNo]? = some seqNo →
      st.ae.preprepareBuffers[st.bucket seqNo]? = some buffer → buffer.nextSeqNo = seqNo →
      st.ae.outstandingReqs.applyAcks (st.bucket seqNo) seqNo batch = .ok (outstandingReqs, waiting) →
      (SeqOp.allocate batch waiting).run st.sh.clients.agreements s st.sh.persisted =
        .ok ((next, p), actions) →
      EpochStep st ((AeState.withSequence ⟨{ st.ae with outstandingReqs }, st.sh⟩ seqNo next p
        |>.passUnallocated (st.bucket seqNo)).passBuffer (st.bucket seqNo)) actions
  -- An owner allocates a batch.
  | propose {st seqNo s clientRequests next p actions} : st.ae.heap seqNo = some s →
      s.owner = st.ae.myConfig.id → st.ae.lowestUnallocated[st.bucket seqNo]? = some seqNo →
      (SeqOp.allocateAsOwner clientRequests).run st.sh.clients.agreements s st.sh.persisted =
        .ok ((next, p), actions) →
      EpochStep st ((st.withSequence seqNo next p).passUnallocated (st.bucket seqNo)) actions
  | commit {st high s qEntry commitState} : st.highWatermark = .ok high → st.ae.lowestUncommitted ≤ high →
      st.ae.heap st.ae.lowestUncommitted = some s → s.state = .committed → s.qEntry = some qEntry →
      st.sh.commitState.commit qEntry = .ok commitState →
      EpochStep st ⟨{ st.ae with lowestUncommitted := st.ae.lowestUncommitted + 1 },
        { st.sh with commitState, passed := st.sh.passed ++ [qEntry] }⟩ []
  | extend {st high p actions} {heap : Nat → Option Sequence} : st.highWatermark = .ok high →
      high < st.ae.epochConfig.plannedExpiration → high < st.sh.commitState.stopAtSeqNo →
      st.sh.persisted.addNEntry ⟨high + 1, st.ae.epochConfig⟩ = .ok (p, actions) →
      (∀ seqNo, heap seqNo = if high < seqNo ∧ seqNo ≤ high + st.ae.interval then
        some (newSequence (st.ae.owner (st.bucket seqNo)) st.ae.epochConfig.number seqNo st.ae.networkConfig
          st.ae.myConfig) else st.ae.heap seqNo) →
      EpochStep st ⟨{ st.ae with
          sequences := st.ae.sequences ++
            [(List.range st.ae.interval).map (high + 1 + ·)]
          heap }, { st.sh with persisted := p }⟩ actions
  -- Messages leave a bucket's buffer, or a preprepare of its owner is put into it.
  | rebuffer {st bucket before} {buffer : MsgBuffer} : st.ae.preprepareBuffers[bucket]? = some before →
      buffer.nodeBuffer.id = before.buffer.nodeBuffer.id →
      (∀ msg ∈ buffer.buffer, msg ∈ before.buffer.buffer ∨ heard (st.ae.owner bucket) msg ∧
        ∃ seqNo epoch batch, msg = .preprepare seqNo epoch batch ∧ st.bucket seqNo = bucket) →
      EpochStep st { st with ae := { st.ae with
        preprepareBuffers := st.ae.preprepareBuffers.set bucket { before with buffer } } } []
  | rebufferOther {st id buffer} : Received heard id buffer →
      EpochStep st { st with ae := { st.ae with
        otherBuffers := st.ae.otherBuffers.insert id buffer } } []
  -- The proposer, the ticks and the list of ready requests.
  | keep {st proposer lastCommittedAtTick ticksSinceProgress clients} :
      EpochStep st ⟨{ st.ae with proposer, lastCommittedAtTick, ticksSinceProgress },
        { st.sh with clients }⟩ []
  | suspect {st p actions} : st.sh.persisted.addSuspect st.ae.epochConfig.number = .ok (p, actions) →
      EpochStep st { st with sh := { st.sh with persisted := p } }
        (.send st.ae.networkConfig.nodes (.suspect st.ae.epochConfig.number) :: actions)

/-- **What an epoch never changes.** -/
structure ActiveEpoch.Frame (before after : ActiveEpoch) : Prop where
  epochConfig : after.epochConfig = before.epochConfig
  networkConfig : after.networkConfig = before.networkConfig
  myConfig : after.myConfig = before.myConfig
  buckets : after.buckets = before.buckets
  cursors : after.lowestUnallocated.length = before.lowestUnallocated.length

namespace ActiveEpoch.Frame

variable {first second third : ActiveEpoch}

theorem refl (ae : ActiveEpoch) : ae.Frame ae := ⟨rfl, rfl, rfl, rfl, rfl⟩

theorem trans (one : first.Frame second) (two : second.Frame third) : first.Frame third :=
  ⟨two.epochConfig.trans one.epochConfig, two.networkConfig.trans one.networkConfig,
    two.myConfig.trans one.myConfig, two.buckets.trans one.buckets, two.cursors.trans one.cursors⟩

theorem owner (frame : first.Frame second) (bucket : Nat) : second.owner bucket = first.owner bucket := by
  rw [ActiveEpoch.owner, frame.buckets]
  rfl

theorem bucketCount (frame : first.Frame second) : second.bucketCount = first.bucketCount := by
  rw [ActiveEpoch.bucketCount, frame.networkConfig]

theorem interval (frame : first.Frame second) : second.interval = first.interval := by
  rw [ActiveEpoch.interval, frame.networkConfig]

end ActiveEpoch.Frame

theorem EpochStep.frame {heard : NodeID → Msg → Prop}
    (step : EpochStep heard st after actions) : st.ae.Frame after.ae := by
  cases step with
  | follow | propose => exact ⟨rfl, rfl, rfl, rfl, List.length_modify _ _ _⟩
  | _ => exact ⟨rfl, rfl, rfl, rfl, rfl⟩

/-! ### Aligned epochs -/

/-- **Buckets, owners and the window fit together**, and what is in a buffer was heard. -/
structure Aligned (ae : ActiveEpoch) : Prop where
  bucketCount : ae.buckets.length = ae.bucketCount
  unallocated : ∀ bucket seqNo, ae.lowestUnallocated[bucket]? = some seqNo →
    seqToBucket seqNo ae.networkConfig = bucket
  bounded : ∀ sh high, AeState.highWatermark ⟨ae, sh⟩ = .ok high →
    ∀ seqNo, high < seqNo → ae.heap seqNo = none
  identity : ∀ seqNo s, ae.heap seqNo = some s → s.seqNo = seqNo ∧
    s.owner = ae.owner (seqToBucket seqNo ae.networkConfig) ∧ s.myConfig = ae.myConfig ∧
    s.epoch = ae.epochConfig.number ∧ s.networkConfig = ae.networkConfig
  preprepareBuffers : ∀ (bucket : Nat) (buffer : PreprepareBuffer),
    ae.preprepareBuffers[bucket]? = some buffer →
      Received heard (ae.owner bucket) buffer.buffer ∧
        ∀ msg ∈ buffer.buffer.buffer, ∃ seqNo epoch batch, msg = .preprepare seqNo epoch batch ∧
          seqToBucket seqNo ae.networkConfig = bucket
  otherBuffers : ∀ id buffer, ae.otherBuffers.lookup id = some buffer → Received heard id buffer

namespace SeqOp

variable {heard} {agreements : RequestAck → Finset NodeID} {s next : Sequence} {op : SeqOp}
  {p p' : Persisted} {actions : List Action}

/-- **An operation does not change which sequence it is.** -/
theorem run_identity (foreign : op.Foreign s)
    (ran : op.run agreements s p = .ok ((next, p'), actions)) :
    next.seqNo = s.seqNo ∧ next.owner = s.owner ∧ next.myConfig = s.myConfig ∧ next.epoch = s.epoch ∧
      next.networkConfig = s.networkConfig := by
  rcases run_advances foreign ran with ⟨rfl, _⟩ | ⟨mid, more, recorded, advanced, _⟩
  · exact ⟨rfl, rfl, rfl, rfl, rfl⟩
  · rw [(Sequence.advanceState_eq_ok advanced).1.frame]
    cases recorded <;> exact ⟨rfl, rfl, rfl, rfl, rfl⟩

end SeqOp

namespace Aligned

variable {heard} {ae : ActiveEpoch} {buffer : MsgBuffer}

theorem operate (aligned : Aligned heard ae) {seqNo : Nat} {s next : Sequence} {op : SeqOp}
    {agreements : RequestAck → Finset NodeID} {p p' : Persisted} {actions : List Action}
    (found : ae.heap seqNo = some s) (foreign : op.Foreign s)
    (ran : op.run agreements s p = .ok ((next, p'), actions)) :
    Aligned heard { ae with heap := update ae.heap seqNo (some next) } := by
  refine { aligned with
    bounded := fun sh high isHigh other above => ?_
    identity := fun other s' isOther => ?_ }
  · have unbounded := aligned.bounded sh high isHigh
    have ne : other ≠ seqNo := by
      rintro rfl
      rw [unbounded other above] at found
      cases found
    exact (update_of_ne ne _ _).trans (unbounded other above)
  · rcases heap_update (h := ae.heap) isOther with ⟨rfl, rfl⟩ | ⟨_, isOther⟩
    · obtain ⟨seqNoEq, owner, my, epoch, nc⟩ := SeqOp.run_identity foreign ran
      have before := aligned.identity other s found
      rw [seqNoEq, owner, my, epoch, nc]
      exact before
    · exact aligned.identity other s' isOther

theorem extend (aligned : Aligned heard ae) {sh : Shared} {high size : Nat}
    {heap : Nat → Option Sequence} (isHigh : AeState.highWatermark ⟨ae, sh⟩ = .ok high)
    (isHeap : ∀ seqNo, heap seqNo = if high < seqNo ∧ seqNo ≤ high + size then
      some (newSequence (ae.owner (seqToBucket seqNo ae.networkConfig)) ae.epochConfig.number seqNo
        ae.networkConfig ae.myConfig) else ae.heap seqNo) :
    Aligned heard { ae with
      sequences := ae.sequences ++ [(List.range size).map (high + 1 + ·)], heap } := by
  refine { aligned with
    bounded := fun sh' top isTop seqNo above => ?_
    identity := fun seqNo s found => ?_ }
  · unfold AeState.highWatermark at isTop
    simp only [List.getLast?_append, List.getLast?_singleton, Option.some_or] at isTop
    cases size with
    | zero => cases isTop
    | succ count =>
      rw [List.range_succ, List.map_append, List.map_singleton, List.getLast?_concat] at isTop
      simp only [pure_eq_ok] at isTop
      show heap seqNo = none
      rw [isHeap, if_neg (by omega)]
      exact aligned.bounded sh high isHigh seqNo (by omega)
  · change heap seqNo = some s at found
    rw [isHeap] at found
    split at found
    · cases found
      exact ⟨rfl, rfl, rfl, rfl, rfl⟩
    · exact aligned.identity seqNo s found

theorem shrink (aligned : Aligned heard ae) {sequences : List (List Nat)} (left : sequences ≠ [])
    (suffix : sequences <:+ ae.sequences) : Aligned heard { ae with sequences } := by
  refine { aligned with bounded := fun sh high isHigh => aligned.bounded sh high ?_ }
  obtain ⟨dropped, same⟩ := suffix
  have last : ae.sequences.getLast? = sequences.getLast? := by
    rw [← same, List.getLast?_append_of_ne_nil dropped left]
  unfold AeState.highWatermark at isHigh ⊢
  simp only [last]
  exact isHigh

theorem mono {more : NodeID → Msg → Prop} (implies : ∀ source msg, heard source msg → more source msg)
    (aligned : Aligned heard ae) : Aligned more ae :=
  { aligned with
    preprepareBuffers := fun bucket buffer found =>
      ⟨Received.mono implies (aligned.preprepareBuffers bucket buffer found).1,
        (aligned.preprepareBuffers bucket buffer found).2⟩
    otherBuffers := fun id buffer found => Received.mono implies (aligned.otherBuffers id buffer found) }

variable (aligned : Aligned heard ae)
include aligned

theorem allocateNext (bucket : Nat) :
    Aligned heard { ae with
      lowestUnallocated := ae.lowestUnallocated.modify bucket (· + ae.buckets.length) } := by
  refine { aligned with unallocated := fun other seqNo found => ?_ }
  rw [List.getElem?_modify] at found
  cases isBefore : ae.lowestUnallocated[other]? with
  | none => simp [isBefore] at found
  | some before =>
    have residue := aligned.unallocated other before isBefore
    simp only [isBefore, Option.map_eq_map, Option.map_some, Option.some.injEq] at found
    subst found
    split
    · unfold seqToBucket at residue ⊢
      rw [aligned.bucketCount, Nat.add_mod_right]
      exact residue
    · exact residue

theorem setBuffer {bucket : Nat} {before : PreprepareBuffer}
    (found : ae.preprepareBuffers[bucket]? = some before)
    (isReceived : Received heard (ae.owner bucket) buffer)
    (preprepares : ∀ msg ∈ buffer.buffer, ∃ seqNo epoch batch, msg = .preprepare seqNo epoch batch ∧
      seqToBucket seqNo ae.networkConfig = bucket) :
    Aligned heard { ae with
      preprepareBuffers := ae.preprepareBuffers.set bucket { before with buffer } } := by
  refine { aligned with preprepareBuffers := fun other found' isFound => ?_ }
  by_cases same : bucket = other
  · subst same
    rw [List.getElem?_set_self', found] at isFound
    obtain rfl := Option.some.inj isFound
    exact ⟨isReceived, preprepares⟩
  · rw [List.getElem?_set_ne same] at isFound
    exact aligned.preprepareBuffers other found' isFound

theorem moveBuffer (bucket count : Nat) :
    Aligned heard { ae with
      preprepareBuffers := ae.preprepareBuffers.modify bucket fun buffer =>
        { buffer with nextSeqNo := buffer.nextSeqNo + count } } := by
  refine { aligned with preprepareBuffers := fun other buffer found => ?_ }
  rw [List.getElem?_modify] at found
  cases isBefore : ae.preprepareBuffers[other]? with
  | none => simp [isBefore] at found
  | some before =>
    simp only [isBefore, Option.map_eq_map, Option.map_some, Option.some.injEq] at found
    have same : buffer.buffer = before.buffer := by
      rw [← found]
      split <;> rfl
    rw [same]
    exact aligned.preprepareBuffers other before isBefore

theorem setOther {id : NodeID}
    (isReceived : Received heard id buffer) :
    Aligned heard { ae with otherBuffers := ae.otherBuffers.insert id buffer } := by
  exact { aligned with otherBuffers := Authentic.insert aligned.otherBuffers isReceived }

end Aligned

/-- **Every step keeps the epoch aligned.** -/
theorem EpochStep.aligned {heard : NodeID → Msg → Prop}
    (aligned : Aligned heard st.ae) (step : EpochStep heard st after actions) : Aligned heard after.ae := by
  cases step with
  | prepare found foreign _ ran =>
    refine aligned.operate found ?_ ran
    rintro _ _ ⟨⟩
    exact foreign
  | vote found _ ran => exact aligned.operate found (by simp [SeqOp.Foreign]) ran
  | back _ found _ _ _ _ ran =>
    exact (aligned.operate found (by simp [SeqOp.Foreign]) ran).moveBuffer _ _
  | follow found _ _ _ _ _ _ ran =>
    exact { ((aligned.operate found (by simp [SeqOp.Foreign]) ran).allocateNext _).moveBuffer _ _ with }
  | propose found _ _ ran =>
    exact (aligned.operate found (by simp [SeqOp.Foreign]) ran).allocateNext _
  | extend isHigh _ _ _ isHeap => exact aligned.extend isHigh isHeap
  | rebuffer found sameId buffered =>
    obtain ⟨⟨id, isReceived⟩, preprepares⟩ := aligned.preprepareBuffers _ _ found
    refine aligned.setBuffer found ⟨sameId.trans id, fun msg member => ?_⟩ fun msg member => ?_
    · rcases buffered msg member with earlier | ⟨isHeard, _⟩
      · exact isReceived msg earlier
      · exact isHeard
    · rcases buffered msg member with earlier | ⟨_, isPreprepare⟩
      · exact preprepares msg earlier
      · exact isPreprepare
  | rebufferOther isReceived => exact aligned.setOther isReceived
  | commit | keep | suspect => exact { aligned with }

end MirBft
