/-
**The methods of an active epoch keep its invariant.**

Every step of an active epoch keeps `NodeInv`, with what it sent and asked for added
(`NodeInv.step`): a prepare that is applied is not the owner's, and a preprepare is its bucket's
next one, so that the operation is admitted. The methods are made of such steps, and have the effect
`Kept`.
-/

import MirBft.Proof.EpochNode
import MirBft.Proof.EpochWalk

namespace MirBft

open Proc List

variable {ctx : EpochContext} {received : NodeID → Msg → Prop}

namespace NodeInv

variable {sent : List Msg} {pending : List (List Bytes × HashOrigin)} {ae changed : ActiveEpoch}

/-- An operation that moves no buffer past its sequence and answers no hash request. -/
theorem operate_same {agreements : RequestAck → Finset NodeID} {seqNo : Nat} {s next : Sequence} {op : SeqOp}
    {p p' : Persisted} {actions : List Action} (inv : NodeInv ctx received sent pending ae)
    (found : ae.heap seqNo = some s) (ran : op.run agreements s p = .ok ((next, p'), actions))
    (admitted : ∀ ops, op.Admitted ops s) (justified : ctx.Justified received seqNo s op)
    (forward : op ≠ .applyPreprepareBack) (unhashed : ∀ digest, op ≠ .applyBatchHashResult digest)
    (frame : ae.Frame changed) (aligned : Aligned received changed)
    (isHeap : changed.heap = Function.update ae.heap seqNo (some next))
    (moved : MovedOn ae.preprepareBuffers changed.preprepareBuffers) :
    NodeInv ctx received (sent ++ sentMsgs actions) (pending ++ hashRequests actions) changed :=
  inv.operate found (fun ops _ => admitted ops) justified ran frame aligned isHeap moved
    (fun isBack => absurd isBack forward) (List.Sublist.refl _) fun digest isHash => absurd isHash
    (unhashed digest)

theorem movedOn_modify (buffers : List PreprepareBuffer) (bucket count : Nat) :
    MovedOn buffers (buffers.modify bucket fun buffer =>
      { buffer with nextSeqNo := buffer.nextSeqNo + count }) := by
  intro other buffer found
  rw [List.getElem?_modify] at found
  cases isBefore : buffers[other]? with
  | none => simp [isBefore] at found
  | some before =>
    simp only [isBefore, Option.map_eq_map, Option.map_some, Option.some.injEq] at found
    refine ⟨before, rfl, ?_⟩
    rw [← found]
    split
    · exact Nat.le_add_right _ _
    · exact le_refl _

theorem movedOn_set {buffers : List PreprepareBuffer} {bucket : Nat} {before : PreprepareBuffer}
    (found : buffers[bucket]? = some before) (buffer : MsgBuffer) :
    MovedOn buffers (buffers.set bucket { before with buffer }) := by
  intro other isOther isFound
  by_cases same : bucket = other
  · subst same
    rw [List.getElem?_set_self', found] at isFound
    obtain rfl := Option.some.inj isFound
    exact ⟨before, found, le_refl _⟩
  · rw [List.getElem?_set_ne same] at isFound
    exact ⟨isOther, isFound, le_refl _⟩

theorem step {st after : AeState} {actions : List Action} (inv : NodeInv ctx received sent pending st.ae)
    (step : EpochStep received st after actions) :
    NodeInv ctx received (sent ++ sentMsgs actions) (pending ++ hashRequests actions) after.ae := by
  have identity {seqNo : Nat} {s : Sequence} (found : st.ae.heap seqNo = some s) :
      s.owner = ctx.owner seqNo ∧ s.myConfig = st.ae.myConfig := by
    obtain ⟨_, owner, my, _⟩ := inv.aligned.identity seqNo s found
    exact ⟨owner.trans (inv.owner_eq seqNo), my⟩
  have frame := EpochStep.frame step
  have aligned := EpochStep.aligned inv.aligned step
  cases step with
  | prepare found foreign isReceived ran =>
    exact inv.operate_same found ran (fun _ => foreign)
      ⟨_, isReceived⟩ nofun nofun frame aligned rfl (.refl _)
  | vote found _ ran =>
    simp only [sentMsgs_nil, hashRequests_nil, append_nil]
    exact inv.forget (inv.operate_same found ran (fun _ => trivial) trivial nofun
      nofun frame aligned rfl (.refl _))
  | back anyBucket found mine isReceived isBuffer isNext ran =>
    rename_i seqNo s epoch batch buffer next p
    rw [mine, inv.myConfig] at isReceived
    obtain ⟨same, isSame, high, _⟩ := inv.preprepares seqNo epoch batch (inv.own _ isReceived)
    rw [found, Option.some.injEq] at isSame
    subst isSame
    have bucket : st.bucket seqNo = seqToBucket seqNo ctx.networkConfig := by
      rw [AeState.bucket, inv.networkConfig]
    -- The owner's own preprepare was sent, so that the batch is in the log, and the bucket was at it.
    have justified : ctx.Justified received seqNo s .applyPreprepareBack := trivial
    refine inv.operate found (fun ops tracked => ?_) justified ran frame aligned rfl (movedOn_modify _ _ _)
      (fun _ moved isMoved => ?_) (List.Sublist.refl _) nofun
    · refine ⟨by rw [mine, (identity found).2], high, fun again => ?_⟩
      have before := tracked.2 again buffer (bucket ▸ isBuffer)
      omega
    · rw [← bucket] at isMoved
      change (st.ae.preprepareBuffers.modify (st.bucket seqNo) _)[_]? = _ at isMoved
      rw [List.getElem?_modify, isBuffer] at isMoved
      simp only [Option.map_eq_map, Option.map_some, Option.some.injEq] at isMoved
      rw [← isMoved, isNext]
      refine Nat.lt_add_of_pos_right ?_
      show 0 < st.ae.buckets.length
      rw [inv.aligned.bucketCount]
      exact Nat.pos_of_ne_zero anyBucket
  | follow found foreign isReceived _ _ _ _ ran =>
    rw [(identity found).1] at isReceived
    exact inv.operate_same found ran (fun _ => by rwa [SeqOp.Admitted, (identity found).2])
      ⟨_, isReceived⟩ nofun nofun frame aligned rfl (movedOn_modify _ _ _)
  | propose found mine _ ran =>
    exact inv.operate_same found ran
      (fun _ => by rwa [SeqOp.Admitted, (identity found).2]) trivial nofun nofun
      frame aligned rfl (.refl _)
  | extend isHigh _ _ added isHeap =>
    obtain ⟨unsent, unasked⟩ := Persisted.append_silent added
    rw [unsent, unasked, append_nil, append_nil]
    refine inv.grow frame aligned (.refl _) (fun seqNo s found => ?_) fun seqNo s found => ?_
    · refine (isHeap seqNo).trans ((if_neg ?_).trans found)
      rintro ⟨above, _⟩
      rw [inv.aligned.bounded st.sh _ isHigh seqNo above] at found
      cases found
    · have found := (isHeap seqNo).symm.trans found
      split at found
      · right
        rw [← Option.some.inj found, AeState.bucket, inv.owner_eq, inv.number, inv.networkConfig,
          inv.myConfig]
        rfl
      · exact .inl found
  | rebuffer found =>
    simp only [sentMsgs_nil, hashRequests_nil, append_nil]
    exact inv.grow frame aligned (movedOn_set found _) (fun _ _ => id) fun _ _ => .inl
  | rebufferOther | commit | keep =>
    simp only [sentMsgs_nil, hashRequests_nil, append_nil]
    exact inv.grow frame aligned (.refl _) (fun _ _ => id) fun _ _ => .inl
  | suspect added =>
    rename_i p written
    obtain ⟨unsent, unasked⟩ := Persisted.append_silent added
    show NodeInv ctx received (sent ++ .suspect _ :: sentMsgs written) (pending ++ hashRequests written) st.ae
    rw [unsent, unasked, append_nil]
    exact inv.send (by simp) (by simp)

end NodeInv

namespace ActiveEpoch

/-- **What is made of steps keeps the invariant.** -/
theorem kept_of_does {α : Type} {m : GoProc AeState α} {st : AeState} {post : AeState → α → Prop}
    (does : (epochWalk received 1).Does m st post) :
    wp m st fun final actions _ => (Kept ctx received).rel st final actions := by
  intro final actions value ran sent pending inv
  have steps := ((does inv.aligned).2 final actions value ran).1
  clear ran does
  induction steps generalizing sent pending with
  | refl => simpa using inv
  | cons step _ ih =>
    rw [sentMsgs_append, hashRequests_append, ← append_assoc, ← append_assoc]
    exact ih _ _ (inv.step step)

/-- **A received message keeps the invariant.** -/
theorem has_step {source : NodeID} {msg : Msg} (isReceived : received source msg) :
    Has (Kept ctx received) (step source msg) :=
  fun st => kept_of_does (walks_step isReceived st)

theorem has_drainBuffers : Has (Kept ctx received) drainBuffers :=
    fun st => kept_of_does (walks_drainBuffers st)

theorem has_advance : Has (Kept ctx received) advance := fun st => kept_of_does (does_advance st)

theorem has_tick : Has (Kept ctx received) tick := fun st => kept_of_does (walks_tick st)

theorem dropIntervals_eq_ok {seqNo : Nat} {sequences left : List (List Nat)}
    (dropped : dropIntervals seqNo sequences = .ok left) : left ≠ [] ∧ left <:+ sequences := by
  induction sequences with
  | nil => cases dropped
  | cons interval rest ih =>
    cases interval with
    | nil => cases dropped
    | cons low interval =>
      unfold dropIntervals at dropped
      split at dropped
      · obtain ⟨some, suffix⟩ := ih dropped
        exact ⟨some, suffix.trans (suffix_cons _ _)⟩
      · rw [pure_eq_ok] at dropped
        rw [← dropped]
        exact ⟨by simp, suffix_refl _⟩

theorem has_moveLowWatermark (seqNo : Nat) : Has (Kept ctx received) (moveLowWatermark seqNo) := by
  intro st
  refine wp_get_bind ?_
  split
  · exact has_pure _ st
  split
  · exact has_pure _ st
  refine has_bind has_advance (fun _ advanced => ?_) st
  refine wp_get_bind (wp_lift_bind fun sequences dropped => ?_)
  obtain ⟨left, suffix⟩ := dropIntervals_eq_ok dropped
  have shrunk : wp (assign fun ae => { ae with sequences }) advanced fun final actions _ =>
      (Kept ctx received).rel advanced final actions := by
    rw [assign, wp_modify]
    intro sent pending inv
    simp only [sentMsgs_nil, hashRequests_nil, append_nil]
    exact inv.grow ⟨rfl, rfl, rfl, rfl, rfl⟩ (inv.aligned.shrink left suffix) (.refl _)
      (fun _ _ => id) fun _ _ => .inl
  exact wp_bind_has shrunk fun _ => has_pure false

theorem has_advanceRequest (ack : RequestAck) : Has (Kept ctx received) (advanceRequest ack) := by
  intro st
  refine wp_get_bind ?_
  split
  · rw [assign, wp_modify]
    intro sent pending inv
    simp only [sentMsgs_nil, hashRequests_nil, append_nil]
    exact inv.grow ⟨rfl, rfl, rfl, rfl, rfl⟩ { inv.aligned with } (.refl _) (fun _ _ => id) fun _ _ => .inl
  split
  · exact has_fail _ st
  rename_i seqNo _ s found
  rw [wp_bind, assign, wp_modify]
  refine wp_get_bind (wp_lift_bind fun result ran => ?_)
  obtain ⟨⟨next, p⟩, actions⟩ := result
  simp only [wp_bind, wp_modify, wp_emit]
  intro sent pending inv
  have isOp : (SeqOp.satisfyOutstanding ack).run st.sh.clients.agreements s st.sh.persisted =
      .ok ((next, p), actions) := ran
  exact inv.operate_same found isOp (fun _ => trivial) trivial (by simp) (by simp) ⟨rfl, rfl, rfl, rfl, rfl⟩
    { inv.aligned.operate found (by simp [SeqOp.Foreign]) isOp with } rfl (.refl _)

theorem has_advanceRequests : Has (Kept ctx received) advanceRequests := by
  intro st
  refine wp_get_bind ?_
  have each : Has (Kept ctx received) (forEach advanceRequest st.sh.clients.tracker.availableList.pending) :=
    has_forEach fun ack _ => has_advanceRequest ack
  rw [wp_bind, onShared, wp_zoom, wp_modify]
  exact each _

/-! ### A new epoch -/

theorem length_assignBuckets {epochConfig : EpochConfig} {nodes : List NodeID} {overflowIndex : Nat}
    {buckets : List Nat} {owners : List NodeID}
    (assigned : assignBuckets epochConfig nodes overflowIndex buckets = .ok owners) :
    owners.length = buckets.length := by
  induction buckets generalizing overflowIndex owners with
  | nil =>
    rw [assignBuckets, pure_eq_ok] at assigned
    rw [← assigned]
  | cons bucket rest ih =>
    rw [assignBuckets] at assigned
    split at assigned
    · cases assigned
    split at assigned
    · obtain ⟨later, isLater, returned⟩ := bind_eq_ok.mp assigned
      rw [pure_eq_ok] at returned
      rw [← returned, length_cons, ih isLater, length_cons]
    · split at assigned
      · cases assigned
      obtain ⟨later, isLater, returned⟩ := bind_eq_ok.mp assigned
      rw [pure_eq_ok] at returned
      rw [← returned, length_cons, ih isLater, length_cons]

/-- The loop that fills `lowestUnallocated`: what it has set is in its bucket and among the first
sequence numbers, and what it has not reached is as it was. -/
theorem foldl_set_residue {count start : Nat} (rounds : Nat) :
    ∀ bucket seqNo : Nat, ((List.range rounds).foldl (fun table index =>
        table.set ((start + (index + 1)) % count) (start + (index + 1)))
          (List.replicate count 0))[bucket]? = some seqNo →
      (seqNo % count = bucket ∧ start < seqNo ∧ seqNo ≤ start + rounds) ∨
        ∀ index < rounds, (start + (index + 1)) % count ≠ bucket := by
  induction rounds with
  | zero => exact fun _ _ _ => .inr (by simp)
  | succ rounds ih =>
    intro bucket seqNo found
    rw [range_succ, foldl_append, foldl_cons, foldl_nil] at found
    by_cases same : (start + (rounds + 1)) % count = bucket
    · rw [same, List.getElem?_set] at found
      simp only [if_true] at found
      split at found
      · rw [Option.some.injEq] at found
        rw [← found]
        exact .inl ⟨same, by omega, le_refl _⟩
      · cases found
    · rw [List.getElem?_set_ne same] at found
      rcases ih bucket seqNo found with ⟨residue, above, below⟩ | unset
      · exact .inl ⟨residue, above, below.trans (Nat.le_succ _)⟩
      · refine .inr fun index small => ?_
        rcases Nat.lt_succ_iff_lt_or_eq.mp small with earlier | rfl
        · exact unset index earlier
        · exact same

theorem length_firstUnallocated (start : Nat) (nc : NetworkConfig) :
    (firstUnallocated start nc).length = nc.numberOfBuckets := by
  unfold firstUnallocated
  generalize List.range nc.numberOfBuckets = indices
  induction indices using List.reverseRecOn with
  | nil => simp
  | append_singleton indices last ih => simpa using ih

/-- **The first sequence number of a bucket** after the starting one. -/
theorem firstUnallocated_first {start : Nat} {nc : NetworkConfig} {bucket seqNo : Nat}
    (found : (firstUnallocated start nc)[bucket]? = some seqNo) :
    seqToBucket seqNo nc = bucket ∧ start < seqNo ∧ seqNo ≤ start + nc.numberOfBuckets := by
  have small := (List.getElem?_eq_some_iff.mp found).1
  rw [length_firstUnallocated] at small
  rcases foldl_set_residue nc.numberOfBuckets bucket seqNo found with first | unset
  · exact first
  · -- Every residue is that of one of the first sequence numbers.
    have quotient := Nat.div_add_mod (start + 1) nc.numberOfBuckets
    have remainder := Nat.mod_lt (start + 1) (Nat.zero_lt_of_lt small)
    have reached : (start + ((bucket + nc.numberOfBuckets - (start + 1) % nc.numberOfBuckets) %
        nc.numberOfBuckets + 1)) % nc.numberOfBuckets = bucket := by
      rw [Nat.add_comm _ 1, ← Nat.add_assoc, Nat.add_mod_mod]
      have total : start + 1 + (bucket + nc.numberOfBuckets - (start + 1) % nc.numberOfBuckets) =
          bucket + nc.numberOfBuckets * ((start + 1) / nc.numberOfBuckets + 1) := by
        rw [Nat.mul_add]
        omega
      rw [total, Nat.add_mul_mod_self_left, Nat.mod_eq_of_lt small]
    exact absurd reached (unset _ (Nat.mod_lt _ (Nat.zero_lt_of_lt small)))

end ActiveEpoch

end MirBft
