/-
**What an active epoch does, step by step.**

`ActiveMove` is an active epoch as a transition system: the operations on its sequences with the log
entries and the actions of each, the requests that become available, the batches it commits, the
intervals it adds to its window, and its suspicion. An `ActiveView` is the part of the epoch, of the
log and of the commit state that this is about; `delivered` is history, the requests that the client
tracker's `availableList` has given to the epoch.

* `EpochStep.moves`: the steps of the epoch are such moves, once its bookkeeping is left out;
* `Follows`: the effect of the methods. From an aligned state they make moves and keep it aligned.
  Of a message that is applied it is known that it was heard (`heard`).
-/

import MirBft.Proof.EpochMethods

namespace MirBft

open Proc

/-- The part of an active epoch, of the log and of the commit state that its protocol is about. -/
structure ActiveView where
  epochConfig : EpochConfig
  networkConfig : NetworkConfig
  my : InitialParameters
  buckets : List NodeID
  requests : AllOutstandingReqs
  heap : Nat → Option Sequence
  lowestUncommitted : Nat
  delivered : List RequestAck
  persisted : Persisted
  commitState : CommitState
  passed : List QEntry
  parameters : InitialParameters × BatchTracker

def AeState.view (st : AeState) (delivered : List RequestAck) : ActiveView where
  epochConfig := st.ae.epochConfig
  networkConfig := st.ae.networkConfig
  my := st.ae.myConfig
  buckets := st.ae.buckets
  requests := st.ae.outstandingReqs
  heap := st.ae.heap
  lowestUncommitted := st.ae.lowestUncommitted
  delivered
  persisted := st.sh.persisted
  commitState := st.sh.commitState
  passed := st.sh.passed
  parameters := (st.sh.myConfig, st.sh.batchTracker)

namespace ActiveView

/-- The owner of a sequence number's bucket. -/
def owner (v : ActiveView) (seqNo : Nat) : NodeID :=
  (v.buckets[seqToBucket seqNo v.networkConfig]?).getD 0

/-- The sequence as it is created. -/
def start (v : ActiveView) (seqNo : Nat) : Sequence :=
  newSequence (v.owner seqNo) v.epochConfig.number seqNo v.networkConfig v.my

/-- A sequence and the log after an operation. -/
def withSequence (v : ActiveView) (seqNo : Nat) (next : Sequence) (persisted : Persisted) : ActiveView :=
  { v with heap := Function.update v.heap seqNo (some next), persisted }

end ActiveView

variable (heard : NodeID → Msg → Prop)

/-- When an epoch performs the operations that concern one sequence only. -/
def SeqOp.Routine (s : Sequence) : SeqOp → Prop
  | .allocateAsOwner _ => s.owner = s.myConfig.id
  | .applyBatchHashResult _ => True
  | .applyPrepareMsg source digest =>
      source ≠ s.owner ∧ ∃ epoch, heard source (.prepare s.seqNo epoch digest)
  | .applyPreprepareBack =>
      s.owner = s.myConfig.id ∧ ∃ epoch batch, heard s.owner (.preprepare s.seqNo epoch batch)
  | _ => False

/-- **What an active epoch does.** -/
inductive ActiveMove : ActiveView → ActiveView → List Action → Prop
  | operate {v seqNo s agreements next p actions} {op : SeqOp} : v.heap seqNo = some s →
      op.Routine heard s → op.run agreements s v.persisted = .ok ((next, p), actions) →
      ActiveMove v (v.withSequence seqNo next p) actions
  | allocate {v bucket seqNo s batch requests waiting agreements next p actions} :
      v.heap seqNo = some s → s.owner ≠ s.myConfig.id →
      (∃ epoch, heard s.owner (.preprepare seqNo epoch batch)) →
      v.requests.applyAcks bucket seqNo batch = .ok (requests, waiting) →
      (SeqOp.allocate batch waiting).run agreements s v.persisted = .ok ((next, p), actions) →
      ActiveMove v { v.withSequence seqNo next p with requests } actions
  -- The actions of a commit vote are dropped.
  | voteCommit {v seqNo s source digest agreements next p actions} : v.heap seqNo = some s →
      (∃ epoch, heard source (.commit seqNo epoch digest)) →
      (SeqOp.applyCommitMsg source digest).run agreements s v.persisted = .ok ((next, p), actions) →
      ActiveMove v (v.withSequence seqNo next p) []
  | available {v ack} : v.requests.outstandingRequests.lookup ack.digest = none →
      ActiveMove v { v with
        requests := { v.requests with
          correctRequests := v.requests.correctRequests.insert ack.digest ack }
        delivered := v.delivered ++ [ack] } []
  | satisfy {v ack seqNo s agreements next p actions} :
      v.requests.outstandingRequests.lookup ack.digest = some seqNo → v.heap seqNo = some s →
      (SeqOp.satisfyOutstanding ack).run agreements s v.persisted = .ok ((next, p), actions) →
      ActiveMove v { v.withSequence seqNo next p with
        requests := { v.requests with
          outstandingRequests := v.requests.outstandingRequests.erase ack.digest }
        delivered := v.delivered ++ [ack] } actions
  | commit {v s qEntry commitState} : v.heap v.lowestUncommitted = some s → s.state = .committed →
      s.qEntry = some qEntry → v.commitState.commit qEntry = .ok commitState →
      ActiveMove v { v with
        commitState, lowestUncommitted := v.lowestUncommitted + 1, passed := v.passed ++ [qEntry] } []
  | extend {v high p actions} {heap : Nat → Option Sequence} :
      (∀ seqNo, high < seqNo → v.heap seqNo = none) →
      v.persisted.addNEntry ⟨high + 1, v.epochConfig⟩ = .ok (p, actions) →
      (∀ seqNo, heap seqNo = if high < seqNo ∧ seqNo ≤ high + v.networkConfig.checkpointInterval then
        some (v.start seqNo) else v.heap seqNo) →
      ActiveMove v { v with heap, persisted := p } actions
  | suspect {v p actions} : v.persisted.addSuspect v.epochConfig.number = .ok (p, actions) →
      ActiveMove v { v with persisted := p }
        (.send v.networkConfig.nodes (.suspect v.epochConfig.number) :: actions)

/-- **What an epoch never changes.** -/
theorem ActiveMove.fixed {heard : NodeID → Msg → Prop} {v after : ActiveView} {actions : List Action}
    (moved : Steps (ActiveMove heard) v after actions) :
    after.my = v.my ∧ after.parameters = v.parameters := by
  induction moved with
  | refl => exact ⟨rfl, rfl⟩
  | cons move _ ih => cases move <;> exact ih

/-- The effect of methods that make moves and deliver no request. -/
def Moves : Effect AeState Action where
  rel before after actions := ∀ delivered,
    Steps (ActiveMove heard) (before.view delivered) (after.view delivered) actions
  refl st delivered := .refl (st.view delivered)
  trans first second delivered := (first delivered).trans (second delivered)

/-- **The effect of the methods of an active epoch.** -/
def Follows : Effect AeState Action := (Moves heard).keeping fun st => Aligned heard st.ae

/-- **Every step is a move**, or is about nothing that a move is about. -/
theorem EpochStep.moves {heard : NodeID → Msg → Prop} {st after : AeState} {actions : List Action}
    (aligned : Aligned heard st.ae) (step : EpochStep heard st after actions) (delivered : List RequestAck) :
    Steps (ActiveMove heard) (st.view delivered) (after.view delivered) actions := by
  have identity {seqNo : Nat} {s : Sequence} (found : st.ae.heap seqNo = some s) :
      s.seqNo = seqNo ∧ s.myConfig = st.ae.myConfig := by
    obtain ⟨isSeqNo, _, my, _⟩ := aligned.identity seqNo s found
    exact ⟨isSeqNo, my⟩
  cases step with
  | prepare found foreign isHeard ran =>
    rw [← (identity found).1] at isHeard
    exact .single (.operate found (by exact ⟨foreign, _, isHeard⟩) ran)
  | vote found isHeard ran => exact .single (.voteCommit found ⟨_, isHeard⟩ ran)
  | back _ found mine isHeard _ _ ran =>
    rw [← (identity found).1] at isHeard
    exact .single (.operate found (by exact ⟨by rw [mine, (identity found).2], _, _, isHeard⟩) ran)
  | follow found foreign isHeard _ _ _ applied ran =>
    refine .single (.allocate found ?_ ⟨_, isHeard⟩ applied ran)
    rwa [(identity found).2]
  | propose found mine _ ran =>
    exact .single (.operate found (by exact mine.trans (congrArg (·.id) (identity found).2.symm)) ran)
  | commit _ _ found committed isEntry ran => exact .single (.commit found committed isEntry ran)
  | extend isHigh _ _ added isHeap => exact .single (.extend (aligned.bounded st.sh _ isHigh) added isHeap)
  | suspect added => exact .single (.suspect added)
  | rebuffer | rebufferOther | keep => exact .refl _

namespace ActiveEpoch

variable {heard}

/-- **What is made of steps makes moves.** -/
theorem follows_of_does {α : Type} {m : GoProc AeState α} {st : AeState} {post : AeState → α → Prop}
    (does : (epochWalk heard 1).Does m st post) :
    wp m st fun final actions _ => (Follows heard).rel st final actions := by
  intro final actions value ran aligned
  have steps := ((does aligned).2 final actions value ran).1
  clear ran does
  refine ⟨Walk.good_steps aligned steps, fun delivered => ?_⟩
  induction steps with
  | refl => exact .refl _
  | cons step _ ih => exact (EpochStep.moves aligned step delivered).trans (ih (step.aligned aligned))

theorem follows_step {source : NodeID} {msg : Msg} (isHeard : heard source msg) :
    Has (Follows heard) (step source msg) :=
  fun st => follows_of_does (walks_step isHeard st)

theorem follows_commitInOrder (fuel : Nat) : Has (Follows heard) (commitInOrder fuel) :=
  fun st => follows_of_does (walks_commitInOrder fuel st)

theorem follows_drainBuffers : Has (Follows heard) drainBuffers := fun st => follows_of_does
    (walks_drainBuffers st)

theorem follows_advance : Has (Follows heard) advance := fun st => follows_of_does (does_advance st)

theorem follows_tick : Has (Follows heard) tick := fun st => follows_of_does (walks_tick st)

theorem follows_moveLowWatermark (seqNo : Nat) : Has (Follows heard) (moveLowWatermark seqNo) := by
  intro st
  refine wp_get_bind ?_
  split
  · exact has_pure _ st
  split
  · exact has_pure _ st
  refine has_bind follows_advance (fun _ advanced => ?_) st
  refine wp_get_bind (wp_lift_bind fun sequences dropped => ?_)
  obtain ⟨left, suffix⟩ := dropIntervals_eq_ok dropped
  have shrunk : wp (assign fun ae => { ae with sequences }) advanced fun final actions _ =>
      (Follows heard).rel advanced final actions := by
    rw [assign, wp_modify]
    exact fun aligned => ⟨aligned.shrink left suffix, fun delivered => .refl _⟩
  exact wp_bind_has shrunk fun _ => has_pure false

theorem follows_applyBatchHashResult (seqNo : Nat) (digest : Bytes) :
    Has (Follows heard) (applyBatchHashResult seqNo digest) := by
  intro st
  refine wp_mono (safe_applyBatchHashResult seqNo digest st).2 fun final actions _ done aligned => ?_
  rcases done with ⟨rfl, rfl⟩ | ⟨s, next, p, found, ran, rfl⟩
  · exact ⟨aligned, fun _ => .refl _⟩
  · exact ⟨aligned.operate found (by simp [SeqOp.Foreign]) ran,
      fun _ => .single (.operate found (by exact trivial) ran)⟩

/-- **An available request**: it is a correct one, or the sequence that waits for it gets it. -/
theorem wp_move_advanceRequest {st : AeState} (ack : RequestAck) (aligned : Aligned heard st.ae) :
    wp (advanceRequest ack) st fun final actions _ => Aligned heard final.ae ∧ ∀ delivered,
      Steps (ActiveMove heard) (st.view delivered) (final.view (delivered ++ [ack])) actions := by
  refine wp_get_bind ?_
  split
  · rename_i unawaited
    rw [assign, wp_modify]
    exact ⟨{ aligned with }, fun delivered => .single (.available unawaited)⟩
  rename_i seqNo awaited
  split
  · exact wp_fail _ _ _
  rename_i s found
  rw [wp_bind, assign, wp_modify]
  refine wp_get_bind (wp_lift_bind fun result ran => ?_)
  obtain ⟨⟨next, p'⟩, actions⟩ := result
  simp only [wp_bind, wp_modify, wp_emit]
  have isOp : (SeqOp.satisfyOutstanding ack).run st.sh.clients.agreements s st.sh.persisted =
      .ok ((next, p'), actions) := ran
  have operated := aligned.operate found (by simp [SeqOp.Foreign]) isOp
  exact ⟨{ operated with }, fun delivered => .single (.satisfy awaited found isOp)⟩

theorem wp_move_advanceRequests {st : AeState} (aligned : Aligned heard st.ae) :
    wp advanceRequests st fun final actions _ => Aligned heard final.ae ∧ ∀ delivered,
      Steps (ActiveMove heard) (st.view delivered)
        (final.view (delivered ++ st.sh.clients.tracker.availableList.pending)) actions := by
  have each : ∀ (acks : List RequestAck) (mid : AeState), Aligned heard mid.ae →
      wp (forEach advanceRequest acks) mid fun final actions _ => Aligned heard final.ae ∧
        ∀ delivered, Steps (ActiveMove heard) (mid.view delivered) (final.view (delivered ++ acks))
          actions := by
    intro acks
    induction acks with
    | nil =>
      intro mid midAligned
      rw [forEach, wp_pure]
      refine ⟨midAligned, fun delivered => ?_⟩
      rw [List.append_nil]
      exact .refl _
    | cons ack rest ih =>
      intro mid midAligned
      rw [forEach, wp_bind]
      refine wp_mono (wp_move_advanceRequest ack midAligned) fun next actions _ first => ?_
      refine wp_mono (ih next first.1) fun final more _ last => ⟨last.1, fun delivered => ?_⟩
      have both := (first.2 delivered).trans (last.2 (delivered ++ [ack]))
      rwa [List.append_assoc] at both
  refine wp_get_bind ?_
  rw [wp_bind, onShared, wp_zoom, wp_modify]
  exact each _ _ aligned

/-! ### A new epoch -/

/-- **A new epoch is empty and aligned**, and nothing is written for it. -/
structure Fresh (heard : NodeID → Msg → Prop) (config : EpochConfig) (before after : Shared)
    (actions : List Action) (ae : ActiveEpoch) : Prop where
  aligned : Aligned heard ae
  buckets : assignBuckets config before.commitState.activeState.config.nodes 0
    (List.range before.commitState.activeState.config.numberOfBuckets) = .ok ae.buckets
  heap : ∀ seqNo, ae.heap seqNo = none
  sequences : ae.sequences = []
  lowestUncommitted : ae.lowestUncommitted = before.commitState.highestCommit + 1
  lowestUnallocated : ae.lowestUnallocated =
    firstUnallocated before.commitState.highestCommit ae.networkConfig
  nextSeqNos : ae.preprepareBuffers.map (·.nextSeqNo) = ae.lowestUnallocated
  outstandingRequests : ae.outstandingReqs.outstandingRequests = ∅
  epochConfig : ae.epochConfig = config
  networkConfig : ae.networkConfig = before.commitState.activeState.config
  myConfig : ae.myConfig = before.myConfig
  persisted : after.persisted = before.persisted
  commitState : after.commitState = before.commitState
  parameters : (after.myConfig, after.batchTracker) = (before.myConfig, before.batchTracker)
  actions : actions = []

theorem wp_new_fresh (config : EpochConfig) (sh : Shared) :
    wp (ActiveEpoch.new config) sh fun final actions ae => Fresh heard config sh final actions ae := by
  refine wp_get_bind ?_
  rw [wp_bind]
  refine wp_get_bind ?_
  rw [wp_bind, wp_modify, wp_pure]
  refine wp_lift_bind fun buckets assigned => ?_
  rw [wp_bind]
  refine wp_get_bind ?_
  simp only [wp_bind, wp_modify, wp_pure]
  have count : buckets.length = sh.commitState.activeState.config.numberOfBuckets := by
    rw [length_assignBuckets assigned, List.length_range]
  refine ⟨{
    bucketCount := count
    unallocated := fun bucket seqNo found => (firstUnallocated_first found).1
    bounded := fun _ _ _ _ _ => rfl
    identity := by rintro _ _ ⟨⟩
    preprepareBuffers := fun bucket buffer found => ?_
    otherBuffers := fun id buffer found => ?_ }, assigned, fun _ => rfl, rfl, rfl, rfl, ?_, rfl,
    rfl, rfl, rfl, rfl, rfl, rfl, rfl⟩
  · rw [List.getElem?_zipWith] at found
    split at found
    · rename_i nextSeqNo owner _ isOwner
      rw [Option.some.injEq] at found
      rw [← found]
      refine ⟨⟨?_, by simp [MsgBuffer.new]⟩, by simp [MsgBuffer.new]⟩
      show owner = (buckets[bucket]?).getD 0
      rw [isOwner]
      rfl
    · cases found
  · obtain ⟨node, _, rfl, rfl⟩ := GoMap.lookup_foldl_insert found
    exact ⟨rfl, by simp [MsgBuffer.new]⟩
  · have sameLength := (length_firstUnallocated sh.commitState.highestCommit _).trans count.symm
    rw [List.map_zipWith, ← List.map_uncurry_zip_eq_zipWith]
    exact List.map_fst_zip sameLength.le

/-- An epoch can be made if its buckets can be assigned. -/
theorem new_isOk_of_assigned {sh : Shared} {epochConfig : EpochConfig} {buckets : List NodeID}
    (assigned : assignBuckets epochConfig sh.commitState.activeState.config.nodes 0
      (List.range sh.commitState.activeState.config.numberOfBuckets) = .ok buckets) :
    (ActiveEpoch.new epochConfig sh).isOk = true := by
  have lifted (state : Shared) : (lift (assignBuckets epochConfig
      sh.commitState.activeState.config.nodes 0
      (List.range sh.commitState.activeState.config.numberOfBuckets)) : GoProc Shared _) state =
        .ok (state, [], buckets) := by
    rw [assigned]
    rfl
  unfold ActiveEpoch.new
  simp only [bind, Proc.get, lifted]
  rfl

end ActiveEpoch

end MirBft
