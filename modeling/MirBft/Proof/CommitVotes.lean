/-
**Commit votes cause no actions.**

`activeEpoch.applyCommitMsg` throws away what `sequence.applyCommitMsg` returns. Nothing is lost by
that: a sequence is at rest between the operations on it, and a commit vote cannot complete a quorum
of prepares. The vote of this node could, if it came before its prepare was counted; but this node
sends its commit only when the sequence is prepared (`VoteRun.rest`).
-/

import MirBft.Proof.LogMoves
import MirBft.Proof.VoteOrders

namespace MirBft

open Proc

namespace CommitVotes

/-- A commit for the sequence has been sent. -/
def Sent (sent : List Msg) (s : Sequence) : Prop := ∃ digest, .commit s.seqNo s.epoch digest ∈ sent

/-- **The runs of a sequence**, with the messages it sends: any operations in any order, but a
commit of this node comes only after the sequence has sent one. The log and what is known of the
requests may be anything at each step. -/
inductive VoteRun (start : Sequence) : List Msg → Sequence → Prop
  | nil : VoteRun start [] start
  | snoc {sent : List Msg} {s after : Sequence} {op : SeqOp} {p' : Persisted} {actions : List Action}
      (agreements : RequestAck → Finset NodeID) (p : Persisted) :
      VoteRun start sent s → (∀ digest, op = .applyCommitMsg s.myConfig.id digest → Sent sent s) →
      op.run agreements s p = .ok ((after, p'), actions) →
      VoteRun start (sent ++ sentMsgs actions) after

variable {agreements : RequestAck → Finset NodeID} {start s mid after : Sequence} {p p' : Persisted}
  {op : SeqOp} {actions : List Action} {sent : List Msg}

theorem rank_le_of_recorded (wrote : op.Recorded s mid) : s.state.rank ≤ mid.state.rank := by
  cases wrote with
  | allocate _ fresh _ _ | allocateEmpty _ fresh _ => simp [fresh, SequenceState.rank]
  | _ => exact le_rfl

/-- **An operation** does nothing, or ends in an advance of the sequence, with what that sends. -/
theorem run_cases (ran : op.run agreements s p = .ok ((after, p'), actions)) :
    (after = s ∧ actions = []) ∨ ∃ mid more, Sequence.advanceState agreements mid p = .ok
      ((after, p'), more) ∧ s.state.rank ≤ mid.state.rank ∧ sentMsgs actions = sentMsgs more := by
  by_cases foreign : op.Foreign s
  · rcases SeqOp.run_advances foreign ran with ⟨same, _, none, _⟩ | ⟨mid, more, wrote, advanced, isMore⟩
    · exact Or.inl ⟨same, none⟩
    · refine Or.inr ⟨mid, more, advanced, rank_le_of_recorded wrote, ?_⟩
      rcases isMore with ⟨rfl, _⟩ | ⟨_, _, rfl, _⟩ <;> rfl
  · -- A prepare of the owner is counted whatever was counted before.
    simp only [SeqOp.Foreign, not_forall, not_not] at foreign
    obtain ⟨source, digest, rfl, rfl⟩ := foreign
    exact Or.inr ⟨_, _, SeqOp.applyPrepareMsg_owner.symm.trans ran, le_rfl, rfl⟩

/-- **A reached sequence is at rest**, and prepared if it has sent a commit. -/
theorem VoteRun.rest (initial : start.AtRest) (reached : VoteRun start sent s) :
    s.AtRest ∧ ∀ seqNo epoch digest, .commit seqNo epoch digest ∈ sent → 5 ≤ s.state.rank := by
  induction reached with
  | nil => exact ⟨initial, nofun⟩
  | snoc agreements p _ _ ran ih =>
    rcases run_cases ran with ⟨rfl, rfl⟩ | ⟨mid, more, advanced, raised, same⟩
    · rwa [sentMsgs_nil, List.append_nil]
    refine ⟨.of_advanceState advanced, fun seqNo epoch digest member => ?_⟩
    have done := (Sequence.advanceState_eq_ok advanced).1
    rcases List.mem_append.mp member with earlier | now
    · exact (ih.2 seqNo epoch digest earlier).trans (raised.trans done.rank_le)
    · rcases done.sentMsg _ (same ▸ now) with ⟨_, _, isPrepare⟩ | ⟨_, prepared, _⟩
      · split at isPrepare <;> cases isPrepare
      · exact prepared

/-- **Commit votes cause no actions**: between the operations the sequence has advanced as far as it
can, a commit vote writes and returns nothing, and the active epoch loses nothing when it throws the
result away. -/
theorem commit_votes_silent {owner : NodeID} {epoch seqNo : Nat} {nc : NetworkConfig} {my : InitialParameters}
    (reached : VoteRun (newSequence owner epoch seqNo nc my) sent s) :
    (∀ agreements p, s.advanceState agreements p = .ok ((s, p), [])) ∧
      ∀ source digest, (source = s.myConfig.id → Sent sent s) →
        (∀ agreements p, ∃ after, s.applyCommitMsg agreements p source digest = .ok ((after, p), [])) ∧
        ∀ (st : AeState) (seqNo : Nat), st.sequence seqNo = .ok s →
          quiet (ActiveEpoch.onSequence seqNo fun agreements seq p => seq.applyCommitMsg agreements
          p source digest) st =
            ActiveEpoch.onSequence seqNo (fun agreements seq p => seq.applyCommitMsg agreements p
            source digest) st := by
  obtain ⟨rest, prepared⟩ := reached.rest (.new owner epoch seqNo nc my)
  refine ⟨fun agreements p => ?_, fun source digest delivered => ?_⟩
  · rw [rest.advanceState_eq]
    split
    · rename_i isPrepared
      rw [Sequence.checkCommitQuorum, rest.commits isPrepared]
      rfl
    · rfl
  have silent (agreements : RequestAck → Finset NodeID) (p : Persisted) :
      ∃ after, s.applyCommitMsg agreements p source digest = .ok ((after, p), []) := by
    refine rest.applyCommitMsg_silent digest fun preprepared mine => ?_
    obtain ⟨_, member⟩ := delivered mine
    have high := prepared _ _ _ member
    rw [preprepared] at high
    exact absurd high (by decide)
  refine ⟨silent, fun st seqNo found => ?_⟩
  obtain ⟨after, voted⟩ := silent st.sh.clients.agreements st.sh.persisted
  simp [quiet, ActiveEpoch.onSequence, ActiveEpoch.onObject, bind, Proc.get, lift, Proc.modify,
    emit, found, voted]

/-- Runs the operations one after the other, and collects what they send. -/
def execute : List Msg → Sequence → List SeqOp → Go (List Msg × Sequence)
  | sent, s, [] => pure (sent, s)
  | sent, s, op :: ops => do
    let ((after, _), actions) ← op.run (fun _ => ∅) s FourNodes.shortLog
    execute (sent ++ sentMsgs actions) after ops

/-- Operations without commits are a run. -/
theorem VoteRun.of_execute {ops : List SeqOp} {final : List Msg} {last : Sequence}
    (foreign : ∀ op ∈ ops, ∀ source digest, op ≠ .applyCommitMsg source digest)
    (reached : VoteRun start sent s)
    (executed : execute sent s ops = .ok (final, last)) : VoteRun start final last := by
  induction ops generalizing sent s with
  | nil =>
    cases executed
    exact reached
  | cons op ops ih =>
    obtain ⟨⟨⟨after, _⟩, actions⟩, ran, rest⟩ := bind_eq_ok.mp executed
    exact ih (fun other member => foreign other (.tail _ member))
      (reached.snoc _ _ (fun digest isOwn => absurd isOwn (foreign op (.head _) _ digest)) ran) rest

/-- Node 1 of four follows node 0: with the prepares of nodes 1 and 2 it has sent its commit, which
may come back. -/
theorem own_commit_silent : ∃ sent s, Sent sent s ∧ s.state = .prepared ∧ s.batch = [⟨9, 0, [7]⟩] ∧
    ∀ agreements p, ∃ after, s.applyCommitMsg agreements p s.myConfig.id [5] = .ok ((after, p), []) := by
  have evaluated : ∃ run, execute [] (FourNodes.sequence 1) [.allocate [⟨9, 0, [7]⟩] ∅,
    .applyBatchHashResult [5],
      .applyPrepareMsg 1 [5], .applyPrepareMsg 2 [5]] = .ok run ∧ .commit run.2.seqNo run.2.epoch
      [5] ∈ run.1 ∧ run.2.state = .prepared ∧ run.2.batch = [⟨9, 0, [7]⟩] := by decide
  obtain ⟨⟨sent, s⟩, executed, isSent, prepared, isBatch⟩ := evaluated
  have reached := VoteRun.nil.of_execute (by simp) executed
  exact ⟨sent, s, ⟨_, isSent⟩, prepared, isBatch,
    ((commit_votes_silent reached).2 _ _ fun _ => ⟨_, isSent⟩).1⟩

end CommitVotes

end MirBft
