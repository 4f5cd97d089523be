/-
**The invariant of one active epoch at one replica.**

What a replica has received, what it has sent and which hash requests are unanswered are kept beside
the epoch. `NodeInv` says how they hang together:

* every sequence of the epoch is in a state that a run of justified operations leads to: a prepare
  comes from a received message, an allocation from a preprepare of the owner, a hash result is the
  digest of the batch;
* every preprepare or prepare that was sent is for the batch or the digest the sequence still has;
* a hash request is unanswered only while the sequence waits for it;
* buckets, owners, window and buffers fit together (`Aligned`).

`Kept` is the effect of a method that keeps the invariant. The lemmas here are about the single
steps the methods are made of.
-/

import MirBft.Proof.EpochSteps

namespace MirBft

open List Function

/-- What is fixed about an epoch at a replica. -/
structure EpochContext where
  number : Nat
  networkConfig : NetworkConfig
  buckets : List NodeID
  my : InitialParameters
  hash : Bytes → Bytes

namespace EpochContext

variable (ctx : EpochContext)

/-- The owner of a sequence number's bucket. -/
def owner (seqNo : Nat) : NodeID :=
  (ctx.buckets[seqToBucket seqNo ctx.networkConfig]?).getD 0

/-- The sequence as it is created. -/
def start (seqNo : Nat) : Sequence :=
  newSequence (ctx.owner seqNo) ctx.number seqNo ctx.networkConfig ctx.my

/-- The hash request for a batch. -/
def request (seqNo : Nat) (batch : List RequestAck) : List Bytes × HashOrigin :=
  (batchHashData batch, .batch (ctx.owner seqNo) ctx.number seqNo batch)

/-- **Why an operation is performed.** -/
def Justified (received : NodeID → Msg → Prop) (seqNo : Nat) (s : Sequence) : SeqOp → Prop
  | .allocate requestAcks _ =>
      ∃ epoch, received (ctx.owner seqNo) (.preprepare seqNo epoch requestAcks)
  | .applyBatchHashResult digest => digest = batchDigest ctx.hash s.batch
  | .applyPrepareMsg source digest => ∃ epoch, received source (.prepare seqNo epoch digest)
  | _ => True

end EpochContext

/-- A run that leads to a sequence. The owner's preprepare comes back before the bucket's buffer
moves on. -/
def Tracked (ctx : EpochContext) (received : NodeID → Msg → Prop) (buffers : List PreprepareBuffer)
    (seqNo : Nat) (s : Sequence) (ops : List SeqOp) : Prop :=
  SeqRun (ctx.Justified received seqNo) (ctx.start seqNo) ops s ∧
    (.applyPreprepareBack ∈ ops → ∀ buffer,
      buffers[seqToBucket seqNo ctx.networkConfig]? = some buffer → seqNo < buffer.nextSeqNo)

/-- **The invariant of an active epoch.** -/
structure NodeInv (ctx : EpochContext) (received : NodeID → Msg → Prop) (sent : List Msg)
    (pending : List (List Bytes × HashOrigin)) (ae : ActiveEpoch) : Prop where
  networkConfig : ae.networkConfig = ctx.networkConfig
  number : ae.epochConfig.number = ctx.number
  myConfig : ae.myConfig = ctx.my
  buckets : ae.buckets = ctx.buckets
  aligned : Aligned received ae
  tracked : ∀ seqNo s, ae.heap seqNo = some s →
    ∃ ops, Tracked ctx received ae.preprepareBuffers seqNo s ops
  prepares : ∀ seqNo epoch digest, .prepare seqNo epoch digest ∈ sent →
    ∃ s, ae.heap seqNo = some s ∧ 4 ≤ s.state.rank ∧ digest = s.digestKey
  preprepares : ∀ seqNo epoch batch, .preprepare seqNo epoch batch ∈ sent →
    ∃ s, ae.heap seqNo = some s ∧ 4 ≤ s.state.rank ∧ batch = s.batch
  requests : ∀ entry ∈ pending, ∃ seqNo s, ae.heap seqNo = some s ∧
    entry = ctx.request seqNo s.batch ∧ s.digest = none ∧ s.batch ≠ []
  pendingNodup : pending.Nodup
  own : ∀ msg, received ctx.my.id msg → msg ∈ sent

/-- **The effect of a method that keeps the invariant.** -/
def Kept (ctx : EpochContext) (received : NodeID → Msg → Prop) : Proc.Effect AeState Action where
  rel before after actions := ∀ sent pending, NodeInv ctx received sent pending before.ae →
    NodeInv ctx received (sent ++ sentMsgs actions) (pending ++ hashRequests actions) after.ae
  refl state sent pending inv := by simpa using inv
  trans first second sent pending inv := by
    have both := second _ _ (first _ _ inv)
    rwa [append_assoc, append_assoc, ← sentMsgs_append, ← hashRequests_append] at both

namespace NodeInv

variable {ctx : EpochContext} {received : NodeID → Msg → Prop} {sent : List Msg}
  {pending : List (List Bytes × HashOrigin)} {ae after : ActiveEpoch} {seqNo : Nat} {s : Sequence}
  {ops : List SeqOp} {more : List Msg}

/-! ### Sequences of the epoch -/

theorem basic (inv : NodeInv ctx received sent pending ae) (found : ae.heap seqNo = some s) :
    s.owner = ctx.owner seqNo ∧ s.seqNo = seqNo ∧ s.epoch = ctx.number := by
  obtain ⟨ops, run, _⟩ := inv.tracked seqNo s found
  exact ⟨run.basic.owner, run.basic.seqNo, run.basic.epoch⟩

theorem hashes (s : Sequence) (op : SeqOp)
    (justified : ctx.Justified received seqNo s op) : Hashes ctx.hash s op := by
  rintro digest rfl
  exact justified

/-- A sequence that waits for its hash, in every run that leads to it. -/
theorem awaits {buffers : List PreprepareBuffer}
    (tracked : Tracked ctx received buffers seqNo s ops) (undigested : s.digest = none)
    (nonempty : s.batch ≠ []) : SeqOp.AwaitsHash ops :=
  (tracked.1.batched hashes).awaits undigested nonempty

theorem owner_eq (inv : NodeInv ctx received sent pending ae) (seqNo : Nat) :
    ae.owner (seqToBucket seqNo ae.networkConfig) = ctx.owner seqNo := by
  unfold ActiveEpoch.owner EpochContext.owner
  rw [inv.networkConfig, inv.buckets]

/-! ### Fields the invariant does not speak of -/

theorem forget {asked : List (List Bytes × HashOrigin)}
    (before : NodeInv ctx received sent pending ae)
    (inv : NodeInv ctx received (sent ++ more) (pending ++ asked) after) :
    NodeInv ctx received sent pending after :=
  { inv with
    prepares := fun seqNo epoch digest member =>
      inv.prepares seqNo epoch digest (mem_append_left _ member)
    preprepares := fun seqNo epoch batch member =>
      inv.preprepares seqNo epoch batch (mem_append_left _ member)
    requests := fun entry member => inv.requests entry (mem_append_left _ member)
    pendingNodup := (nodup_append.mp inv.pendingNodup).1
    own := before.own }

/-- A message that is neither a preprepare nor a prepare. -/
theorem send (inv : NodeInv ctx received sent pending ae)
    (noPrepare : ∀ seqNo epoch digest, .prepare seqNo epoch digest ∉ more)
    (noPreprepare : ∀ seqNo epoch batch, .preprepare seqNo epoch batch ∉ more) :
    NodeInv ctx received (sent ++ more) pending ae := by
  refine { inv with
    prepares := fun seqNo epoch digest member => ?_
    preprepares := fun seqNo epoch batch member => ?_
    own := fun msg self => mem_append_left _ (inv.own msg self) }
  · rcases mem_append.mp member with earlier | new
    · exact inv.prepares seqNo epoch digest earlier
    · exact absurd new (noPrepare seqNo epoch digest)
  · rcases mem_append.mp member with earlier | new
    · exact inv.preprepares seqNo epoch batch earlier
    · exact absurd new (noPreprepare seqNo epoch batch)

/-! ### An operation on a sequence -/

/-- No bucket has moved back. -/
def MovedOn (buffers moved : List PreprepareBuffer) : Prop :=
  ∀ (bucket : Nat) (buffer : PreprepareBuffer), moved[bucket]? = some buffer →
    ∃ before, buffers[bucket]? = some before ∧ before.nextSeqNo ≤ buffer.nextSeqNo

theorem MovedOn.refl (buffers : List PreprepareBuffer) : MovedOn buffers buffers :=
  fun _ buffer found => ⟨buffer, found, le_refl _⟩

theorem Tracked.moved {buffers moved : List PreprepareBuffer}
    (tracked : Tracked ctx received buffers seqNo s ops)
    (kept : MovedOn buffers moved) : Tracked ctx received moved seqNo s ops := by
  refine ⟨tracked.1, fun back buffer found => ?_⟩
  obtain ⟨before, isBefore, le⟩ := kept _ buffer found
  exact (tracked.2 back before isBefore).trans_le le

section Operate

variable {agreements : RequestAck → Finset NodeID} {seqNo : Nat} {s next : Sequence} {op : SeqOp}
  {p p' : Persisted} {actions : List Action} {rest : List (List Bytes × HashOrigin)}

/-- A message for a sequence is still right after an operation on it or on another one. -/
theorem sent_operate {Right : Sequence → Prop} {other : Nat}
    (before : ∃ s, ae.heap other = some s ∧ 4 ≤ s.state.rank ∧ Right s) (found : ae.heap seqNo = some s)
    (kept : 4 ≤ s.state.rank → Right s → 4 ≤ next.state.rank ∧ Right next) :
    ∃ s, update ae.heap seqNo (some next) other = some s ∧ 4 ≤ s.state.rank ∧ Right s := by
  obtain ⟨s', isOther, high, right⟩ := before
  by_cases same : other = seqNo
  · subst same
    rw [found, Option.some.injEq] at isOther
    subst isOther
    obtain ⟨stillHigh, stillRight⟩ := kept high right
    exact ⟨next, update_self _ _ _, stillHigh, stillRight⟩
  · exact ⟨s', by rwa [update_of_ne same], high, right⟩

/-- Only the allocation of a batch asks for a hash. -/
theorem mem_asks (foreign : op.Foreign s) (ran : op.run agreements s p = .ok ((next, p'), actions))
    {entry : List Bytes × HashOrigin} (member : entry ∈ hashRequests actions) :
    ∃ batch, op.batch? = some batch ∧ batch ≠ [] ∧
      entry = (batchHashData batch, .batch s.owner s.epoch s.seqNo batch) := by
  rw [(SeqOp.run_eq_ok foreign ran).1] at member
  unfold SeqOp.asks at member
  split at member
  · rename_i ack rest isBatch
    exact ⟨ack :: rest, isBatch, by simp, mem_singleton.mp member⟩
  · cases member

/-- **An operation on a sequence keeps the invariant**, with the buckets moved past it if it is the
owner's preprepare, and without the hash request if it is a hash result. -/
theorem operate (inv : NodeInv ctx received sent pending ae) (found : ae.heap seqNo = some s)
    (admitted : ∀ ops, Tracked ctx received ae.preprepareBuffers seqNo s ops → op.Admitted ops s)
    (justified : ctx.Justified received seqNo s op)
    (ran : op.run agreements s p = .ok ((next, p'), actions)) (frame : ae.Frame after)
    (aligned : Aligned received after) (isHeap : after.heap = update ae.heap seqNo (some next))
    (moved : MovedOn ae.preprepareBuffers after.preprepareBuffers)
    (past : op = .applyPreprepareBack → ∀ buffer,
      after.preprepareBuffers[seqToBucket seqNo ctx.networkConfig]? = some buffer → seqNo < buffer.nextSeqNo)
    (remaining : rest.Sublist pending)
    (answered : ∀ digest, op = .applyBatchHashResult digest → ctx.request seqNo s.batch ∉ rest) :
    NodeInv ctx received (sent ++ sentMsgs actions) (rest ++ hashRequests actions) after := by
  obtain ⟨ops, tracked⟩ := inv.tracked seqNo s found
  have run := tracked.1
  have allowed := admitted ops tracked
  have nextRun := SeqRun.snoc agreements p run allowed justified ran
  have batched := run.batched hashes
  obtain ⟨owner, seqNoEq, epoch⟩ := inv.basic found
  refine
    { networkConfig := frame.networkConfig.trans inv.networkConfig
      number := (congrArg EpochConfig.number frame.epochConfig).trans inv.number
      myConfig := frame.myConfig.trans inv.myConfig, buckets := frame.buckets.trans inv.buckets, aligned
      tracked := fun other s' isOther => ?_
      prepares := fun other epoch digest member => ?_
      preprepares := fun other epoch batch member => ?_
      requests := fun entry member => ?_
      pendingNodup := ?_
      own := fun msg self => mem_append_left _ (inv.own msg self) }
  · rw [isHeap] at isOther
    rcases heap_update isOther with ⟨rfl, rfl⟩ | ⟨_, isOther⟩
    · refine ⟨ops ++ [op], nextRun, fun back buffer isBuffer => ?_⟩
      rcases mem_append.mp back with earlier | last
      · exact (Tracked.moved tracked moved).2 earlier buffer isBuffer
      · exact past (mem_singleton.mp last).symm buffer isBuffer
    · obtain ⟨otherOps, otherTracked⟩ := inv.tracked other s' isOther
      exact ⟨otherOps, Tracked.moved otherTracked moved⟩
  · rw [isHeap]
    rcases mem_append.mp member with earlier | new
    · refine sent_operate (inv.prepares other epoch digest earlier) found fun high right => ?_
      obtain ⟨stillHigh, digestKey, _⟩ := SeqOp.run_keeps_entered run.basic allowed ran high
      exact ⟨stillHigh, right.trans digestKey.symm⟩
    · obtain ⟨high, ⟨_, isMsg⟩ | ⟨_, isMsg⟩ | isMsg⟩ := SeqOp.run_sends allowed.foreign ran new
      · cases isMsg
      · obtain ⟨rfl, _, rfl⟩ := Msg.prepare.inj isMsg
        exact ⟨next, by rw [seqNoEq]; exact update_self _ _ _, high, rfl⟩
      · cases isMsg
  · rw [isHeap]
    rcases mem_append.mp member with earlier | new
    · refine sent_operate (inv.preprepares other epoch batch earlier) found fun high right => ?_
      obtain ⟨stillHigh, _, same⟩ := SeqOp.run_keeps_entered run.basic allowed ran high
      exact ⟨stillHigh, right.trans same.symm⟩
    · obtain ⟨high, ⟨_, isMsg⟩ | ⟨_, isMsg⟩ | isMsg⟩ := SeqOp.run_sends allowed.foreign ran new
      · obtain ⟨rfl, _, rfl⟩ := Msg.preprepare.inj isMsg
        exact ⟨next, by rw [seqNoEq]; exact update_self _ _ _, high, rfl⟩
      · cases isMsg
      · cases isMsg
  · rw [isHeap]
    rcases mem_append.mp member with earlier | new
    · obtain ⟨other, s', isOther, rfl, undigested, nonempty⟩ :=
        inv.requests entry (remaining.subset earlier)
      by_cases same : other = seqNo
      · subst same
        rw [found, Option.some.injEq] at isOther
        subst isOther
        have started : s.state ≠ .uninitialized := fun fresh => nonempty (batched.fresh fresh)
        obtain ⟨digest, batch⟩ := SeqOp.run_keeps_awaiting allowed ran
          (fun digest isHash => answered digest isHash earlier) started
        refine ⟨other, next, update_self _ _ _, ?_, ?_, ?_⟩
        · rw [batch]
        · rw [digest, undigested]
        · rwa [batch]
      · exact ⟨other, s', (update_of_ne same _ _).trans isOther, rfl, undigested, nonempty⟩
    · obtain ⟨batch, isBatch, nonempty, rfl⟩ := mem_asks allowed.foreign ran new
      obtain ⟨_, undigested, rfl⟩ := SeqOp.run_allocates run.basic allowed ran isBatch
      refine ⟨seqNo, next, update_self _ _ _, ?_, undigested, nonempty⟩
      rw [owner, epoch, seqNoEq]
      rfl
  · have restNodup : rest.Nodup := inv.pendingNodup.sublist remaining
    have asksNodup : (hashRequests actions).Nodup := by
      rw [(SeqOp.run_eq_ok allowed.foreign ran).1]
      unfold SeqOp.asks
      split <;> simp
    refine restNodup.append asksNodup fun entry earlier new => ?_
    -- A sequence that is allocated now has not asked before.
    obtain ⟨batch, isBatch, _, isNew⟩ := mem_asks allowed.foreign ran new
    obtain ⟨other, s', isOther, isEarlier, _, nonempty⟩ := inv.requests entry (remaining.subset earlier)
    rw [isNew, Prod.mk.injEq] at isEarlier
    obtain ⟨_, _, same, _⟩ := HashOrigin.batch.inj isEarlier.2
    rw [← same, seqNoEq, found, Option.some.injEq] at isOther
    subst isOther
    exact nonempty (batched.fresh (SeqOp.run_allocates run.basic allowed ran isBatch).1)

end Operate

/-! ### Everything else -/

/-- **No sequence changes**, and there may be new ones. -/
theorem grow (inv : NodeInv ctx received sent pending ae) (frame : ae.Frame after)
    (aligned : Aligned received after) (moved : MovedOn ae.preprepareBuffers after.preprepareBuffers)
    (old : ∀ seqNo s, ae.heap seqNo = some s → after.heap seqNo = some s)
    (new : ∀ seqNo s, after.heap seqNo = some s → ae.heap seqNo = some s ∨ s = ctx.start seqNo) :
    NodeInv ctx received sent pending after := by
  refine { inv with
    networkConfig := frame.networkConfig.trans inv.networkConfig
    number := (congrArg EpochConfig.number frame.epochConfig).trans inv.number
    myConfig := frame.myConfig.trans inv.myConfig, buckets := frame.buckets.trans inv.buckets, aligned
    tracked := fun seqNo s found => ?_
    prepares := fun seqNo epoch digest member => ?_
    preprepares := fun seqNo epoch batch member => ?_
    requests := fun entry member => ?_ }
  · rcases new seqNo s found with earlier | rfl
    · obtain ⟨ops, tracked⟩ := inv.tracked seqNo s earlier
      exact ⟨ops, Tracked.moved tracked moved⟩
    · exact ⟨[], .nil, by simp⟩
  · obtain ⟨s, found, right⟩ := inv.prepares seqNo epoch digest member
    exact ⟨s, old _ _ found, right⟩
  · obtain ⟨s, found, right⟩ := inv.preprepares seqNo epoch batch member
    exact ⟨s, old _ _ found, right⟩
  · obtain ⟨seqNo, s, found, right⟩ := inv.requests entry member
    exact ⟨seqNo, s, old _ _ found, right⟩

/-! ### Receiving -/

/-- **A message arrives**; one of the replica's own was sent before. -/
theorem receive (inv : NodeInv ctx received sent pending ae) {more : NodeID → Msg → Prop}
    (implies : ∀ source msg, received source msg → more source msg)
    (own : ∀ msg, more ctx.my.id msg → msg ∈ sent) : NodeInv ctx more sent pending ae := by
  have justified (seqNo : Nat) (s : Sequence) (op : SeqOp)
      (before : ctx.Justified received seqNo s op) : ctx.Justified more seqNo s op := by
    cases op with
    | allocate requestAcks _ =>
      obtain ⟨epoch, isReceived⟩ := before
      exact ⟨epoch, implies _ _ isReceived⟩
    | applyPrepareMsg source digest =>
      obtain ⟨epoch, isReceived⟩ := before
      exact ⟨epoch, implies _ _ isReceived⟩
    | _ => exact before
  refine { inv with
    aligned := inv.aligned.mono implies
    tracked := fun seqNo s found => ?_
    own := own }
  obtain ⟨ops, run, back⟩ := inv.tracked seqNo s found
  exact ⟨ops, run.mono (justified seqNo), back⟩

end NodeInv

end MirBft
