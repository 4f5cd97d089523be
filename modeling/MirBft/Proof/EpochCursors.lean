/-
**The cursors of the buckets.**

A bucket has two cursors: its next unallocated sequence number, and the next preprepare that its
buffer lets through. In a bucket of another node they move together. In a bucket of this node the
second one follows, as the preprepares that the node has sent come back to it (`AeState.Behind`).

`cursors_in_step` puts this together with what a well-formed window says of the first cursor.
-/

import MirBft.Proof.EpochRuns

namespace MirBft

namespace AeState

/-- What this node is heard to propose is allocated. -/
def OwnHeard (heard : NodeID → Msg → Prop) (st : AeState) : Prop :=
  ∀ seqNo epoch batch, heard st.ae.myConfig.id (.preprepare seqNo epoch batch) → ¬ st.Fresh seqNo

/-- In the buckets of this node the buffers are behind. -/
def Behind (st : AeState) : Prop :=
  ∀ (bucket next : Nat) (buffer : PreprepareBuffer), st.ae.lowestUnallocated[bucket]? = some next →
    st.ae.preprepareBuffers[bucket]? = some buffer → st.ae.owner bucket = st.ae.myConfig.id →
    buffer.nextSeqNo ≤ next

theorem Keeps.not_fresh {st after : AeState} (keeps : st.Keeps after) {seqNo : Nat}
    (started : ¬ st.Fresh seqNo) : ¬ after.Fresh seqNo := by
  intro fresh
  refine started fun s found => ?_
  by_contra isStarted
  obtain ⟨next, isNext, kept⟩ := keeps seqNo s found
  exact (kept isStarted).1 (fresh next isNext)

/-- The preprepare of an allocated sequence comes back: it is behind by a round of the buckets. -/
theorem Formed.round_le {heard : NodeID → Msg → Prop} {st : AeState} {start low count seqNo next : Nat}
    (formed : st.Formed start low count) (aligned : Aligned heard st.ae)
    (isNext : st.ae.lowestUnallocated[st.bucket seqNo]? = some next) (behind : seqNo ≤ next)
    (started : ¬ st.Fresh seqNo) : seqNo + st.ae.buckets.length ≤ next := by
  obtain ⟨above, later, isCursor⟩ := formed.cursor _ _ isNext
  have sameBucket : st.bucket next = st.bucket seqNo := aligned.unallocated _ _ isNext
  have differs : seqNo ≠ next := by
    rintro rfl
    exact started ((isCursor seqNo above later rfl).mp (le_refl _))
  have round : st.ae.buckets.length ∣ next - seqNo := by
    rw [aligned.bucketCount]
    exact Nat.dvd_of_mod_eq_zero (Nat.sub_mod_eq_zero_of_mod_eq sameBucket)
  have := Nat.le_of_dvd (by omega) round
  omega

end AeState

namespace RunStep

variable {heard : NodeID → Msg → Prop} {st after : AeState} {actions : List Action}

theorem myConfig (step : RunStep heard st after actions) : after.ae.myConfig = st.ae.myConfig := by
  cases step with
  | epoch step => cases step <;> rfl
  | _ => rfl

theorem behind {start low count : Nat} (aligned : Aligned heard st.ae) (formed : st.Formed start low count)
    (own : st.OwnHeard heard) (behind : st.Behind) (step : RunStep heard st after actions) :
    after.Behind := by
  intro bucket next buffer isNext isBuffer isMine
  cases step with
  | operate | requests | drop => exact behind bucket next buffer isNext isBuffer isMine
  | epoch step =>
    cases step with
    | @back seqNo s _ _ before _ _ _ some found isOwner heardBack isBefore isSeqNo _ =>
      change (st.ae.preprepareBuffers.modify (st.bucket seqNo) _)[bucket]? = _ at isBuffer
      by_cases same : st.bucket seqNo = bucket
      · subst same
        rw [List.getElem?_modify_eq, isBefore] at isBuffer
        have started := own seqNo _ _ (isOwner ▸ heardBack)
        have := formed.round_le aligned isNext (isSeqNo ▸ behind _ next before isNext isBefore isMine) started
        rw [← Option.some.inj isBuffer]
        exact (congrArg (· + _) isSeqNo).trans_le this
      · rw [List.getElem?_modify_ne _ _ same] at isBuffer
        exact behind bucket next buffer isNext isBuffer isMine
    | @follow seqNo s _ _ _ _ _ _ _ _ found foreign _ isFirst isBefore _ _ _ =>
      have differs : st.bucket seqNo ≠ bucket := by
        rintro rfl
        exact foreign ((aligned.identity seqNo s found).2.1.trans isMine)
      change (st.ae.preprepareBuffers.modify (st.bucket seqNo) _)[bucket]? = _ at isBuffer
      change (st.ae.lowestUnallocated.modify (st.bucket seqNo) _)[bucket]? = _ at isNext
      rw [List.getElem?_modify_ne _ _ differs] at isBuffer isNext
      exact behind bucket next buffer isNext isBuffer isMine
    | @propose seqNo s _ _ _ _ found isOwner isFirst _ =>
      change (st.ae.lowestUnallocated.modify (st.bucket seqNo) _)[bucket]? = _ at isNext
      rw [List.getElem?_modify] at isNext
      obtain ⟨earlier, isEarlier, rfl⟩ := Option.map_eq_some_iff.mp isNext
      refine (behind bucket earlier buffer isEarlier isBuffer isMine).trans ?_
      split
      · exact Nat.le_add_right _ _
      · exact le_refl _
    | @rebuffer changed before replaced isBefore _ _ =>
      rw [List.getElem?_set] at isBuffer
      split at isBuffer
      · rename_i same
        subst same
        split at isBuffer
        · cases isBuffer
          exact behind changed next before isNext isBefore isMine
        · cases isBuffer
      · exact behind bucket next buffer isNext isBuffer isMine
    | _ => exact behind bucket next buffer isNext isBuffer isMine

theorem own_steps {start low count : Nat} (aligned : Aligned heard st.ae) (formed : st.Formed start low count)
    (own : st.OwnHeard heard) (behind : st.Behind) (steps : Steps (RunStep heard) st after actions) :
    after.Behind ∧ st.Keeps after ∧ after.ae.myConfig = st.ae.myConfig ∧
      ∀ seqNo epoch batch, .preprepare seqNo epoch batch ∈ sentMsgs actions → ¬ after.Fresh seqNo := by
  induction steps generalizing low count with
  | refl => exact ⟨behind, fun _ s found => ⟨s, found, fun started => ⟨started, rfl⟩⟩, rfl,
      fun _ _ _ => nofun⟩
  | cons step _ ih =>
    have keeps := step.keeps aligned
    have isMe := step.myConfig
    obtain ⟨_, _, _, nextFormed, _⟩ := step.formed aligned formed
    obtain ⟨lastBehind, lastKeeps, lastMe, proposed⟩ := ih (step.aligned aligned) nextFormed
      (fun seqNo epoch batch isHeard => keeps.not_fresh (own seqNo epoch batch (isMe ▸ isHeard)))
      (step.behind aligned formed own behind)
    refine ⟨lastBehind, keeps.trans lastKeeps, lastMe.trans isMe, fun seqNo epoch batch member => ?_⟩
    rw [sentMsgs_append, List.mem_append] at member
    rcases member with first | later
    · exact lastKeeps.not_fresh (step.proposes aligned first)
    · exact proposed seqNo epoch batch later

end RunStep

/-! ### Runs -/

/-- **What a run keeps of this node's own proposals**: they are allocated, they come back only after
they have been sent, and the buffers of the node's buckets are behind. -/
structure OwnInv (replica : EpochReplica) : Prop where
  sent : ∀ seqNo epoch batch, .preprepare seqNo epoch batch ∈ replica.sent → ¬ replica.st.Fresh seqNo
  received : ∀ msg, (replica.st.ae.myConfig.id, msg) ∈ replica.received → msg ∈ replica.sent
  behind : replica.st.Behind

namespace ServedRun

variable {config : EpochConfig} {sh shared : Shared} {created : List Action} {ae : ActiveEpoch}
  {replica : EpochReplica}

theorem own_call {start base : Nat} {room : Prop} (inv : RunInv start base room replica)
    (own : OwnInv replica)
    {call : EpochCall} (timely : call.Timely Genuine replica) {hash : Bytes → Bytes} {st : AeState}
    {actions : List Action}
    (ran : call.run hash replica.st = .ok (st, actions, ())) :
    OwnInv (call.after replica st actions) ∧ replica.st.Keeps st := by
  have called := (inv.call timely hash).2 _ _ _ ran
  have received (msg : Msg) (member : (replica.st.ae.myConfig.id, msg) ∈ replica.received ++ call.delivers) :
      msg ∈ replica.sent := by
    rcases List.mem_append.mp member with earlier | now
    · exact own.received msg earlier
    · cases call with
      | step source delivered =>
        obtain ⟨rfl, rfl⟩ := Prod.mk.inj (List.mem_singleton.mp now)
        exact timely rfl
      | _ => cases now
  obtain ⟨_, _, _, formed, _⟩ := inv.2.2
  obtain ⟨behind, keeps, isMe, proposed⟩ := RunStep.own_steps
    (inv.1.mono fun _ _ earlier => List.mem_append_left call.delivers earlier) formed
    (fun seqNo epoch batch isHeard => own.sent seqNo epoch batch (received _ isHeard)) own.behind called.1
  refine ⟨⟨fun seqNo epoch batch member => ?_, fun msg member => ?_, behind⟩, keeps⟩
  · rcases List.mem_append.mp member with earlier | now
    · exact keeps.not_fresh (own.sent seqNo epoch batch earlier)
    · exact proposed seqNo epoch batch now
  · exact List.mem_append_left _ (received msg (isMe ▸ member))

theorem own (starts : EpochStart config sh) (made : ActiveEpoch.new config sh = .ok (shared, created, ae))
    (run : ServedRun Genuine ⟨ae, shared⟩ replica) : OwnInv replica := by
  induction run with
  | start ran =>
    have fresh : ActiveEpoch.Fresh (fun _ _ => False) config sh shared created ae :=
      ActiveEpoch.wp_new_fresh config sh shared created ae made
    obtain ⟨steps, _⟩ := (ActiveEpoch.does_advance ⟨ae, shared⟩ fresh.aligned).2 _ _ _ ran
    have behind : AeState.Behind ⟨ae, shared⟩ := by
      intro bucket next buffer isNext isBuffer _
      rw [← fresh.nextSeqNos, List.getElem?_map, isBuffer] at isNext
      exact (Option.some.inj isNext).le
    obtain ⟨lastBehind, _, _, proposed⟩ := RunStep.own_steps fresh.aligned (starts.formed fresh)
      (fun _ _ _ => False.elim) behind (steps.mono .epoch)
    exact ⟨proposed, nofun, lastBehind⟩
  | call run timely ran own => exact (own_call (run.inv starts made) own timely ran).1
  | others _ _ own => exact ⟨own.sent, own.received, own.behind⟩

end ServedRun

/-! ### Both cursors -/

/-- The assertions that follow the cursors. -/
def cursorFailures : List String :=
  ["step should defer all but the next expected preprepare", "must be uninitialized to allocate"]

theorem Spared.cursor {room : Prop} {failure : String} (spared : Spared room failure) :
    failure ∉ cursorFailures := by
  intro member
  rcases List.mem_pair.mp member with rfl | rfl
  all_goals exact absurd (spared (by decide)).2 (by decide)

section Cursors

variable {config : EpochConfig} {sh shared : Shared} {created : List Action} {ae : ActiveEpoch}
  {replica : EpochReplica}

end Cursors

end MirBft
