/-
**The panics of an active epoch.**

Whether a state is transferred does not change while an active epoch works, and its methods have
none of the panics of the epoch target; with a transfer under way they may fail as `commit` then
does (`ActiveEpoch.Regular.maintains`).
-/

import MirBft.Proof.ActiveClosure
import MirBft.Proof.CommitMoves

namespace MirBft

open Proc

/-- The failures of a method while a state is transferred, or not. -/
def Allowed (transferring : Bool) (failure : String) : Prop :=
  Elsewhere failure ∨ transferring = true ∧ failure ∈ transferFailures

theorem Elsewhere.allowed {transferring : Bool} {failure : String} (isOther : Elsewhere failure) :
    Allowed transferring failure := Or.inl isOther

theorem FailsOnly.allowed {α : Type} {transferring : Bool} {result : Go α}
    (fails : FailsOnly Elsewhere result) : FailsOnly (Allowed transferring) result :=
  fails.mono fun _ isOther => isOther.allowed

/-- Whether a state is transferred. -/
def Shared.Transfers (transferring : Bool) (sh : Shared) : Prop :=
  sh.commitState.transferring = transferring

theorem CommitState.commit_transferring {cs after : CommitState} {qEntry : QEntry}
    (ran : cs.commit qEntry = .ok after) : after.transferring = cs.transferring := by
  obtain ⟨_, _, _, rfl⟩ := commit_frame ran
  rfl

variable {transferring : Bool}

namespace Shared

theorem maintains_onLog {method : Persisted → Go (Persisted × List Action)}
    (fails : ∀ p, FailsOnly Elsewhere (method p)) :
    Maintains (Allowed transferring) (Transfers transferring) (onLog method) :=
  maintains_get_bind fun sh => maintains_lift_bind (fails sh.persisted).allowed fun _ =>
    maintains_bind (maintains_modify fun _ holds => holds) fun _ => maintains_emit _

theorem maintains_commit (qEntry : QEntry) :
    Maintains (Allowed transferring) (Transfers transferring) (commit qEntry) := by
  intro sh holds
  refine safe_get_bind (safe_lift_bind ?_ fun commitState ran => safe_modify ?_)
  · intro failure failed
    cases isSo : sh.commitState.transferring with
    | false => exact (CommitState.commit_elsewhere isSo qEntry).allowed failure failed
    | true =>
      refine Or.inr ⟨holds.symm.trans isSo, ?_⟩
      rw [CommitState.commit, isSo] at failed
      cases failed
      simp [transferFailures]
  · exact (CommitState.commit_transferring ran).trans holds

end Shared

theorem Proposer.maintains_advance (p : Proposer) (toSeqNo : Nat) :
    Maintains (Allowed transferring) (Shared.Transfers transferring) (p.advance toSeqNo) :=
  maintains_get_bind fun _ => maintains_lift_bind
    (queueAll_failsOnly _ _ _ _).elsewhere_of_component.allowed fun _ =>
    maintains_bind (maintains_modify fun _ holds => holds) fun _ => maintains_pure _

/-! ### The active epoch -/

/-- Whether a state is transferred. -/
def AeState.Transfers (transferring : Bool) (st : AeState) : Prop := st.sh.Transfers transferring

namespace ActiveEpoch

theorem maintains_new (epochConfig : EpochConfig) :
    Maintains (Allowed transferring) (Shared.Transfers transferring) (new epochConfig) := by
  refine maintains_get_bind fun sh => maintains_bind ?_ fun _ => ?_
  · exact maintains_get_bind fun _ => maintains_bind (maintains_modify fun _ holds => holds) fun _ =>
      maintains_pure _
  refine maintains_lift_bind (assignBuckets_elsewhere _ _ _ _).allowed fun _ => ?_
  refine maintains_bind ?_ fun _ => maintains_pure _
  exact maintains_get_bind fun _ => maintains_bind (maintains_modify fun _ holds => holds) fun _ =>
    maintains_pure _

/-- Whether a state is transferred does not change. -/
def transfers : Guard String Action AeState where
  rel before after _ := after.sh.commitState.transferring = before.sh.commitState.transferring
  refl _ := rfl
  trans first second := second.trans first
  excused st := Allowed st.sh.commitState.transferring
  excused_rel same allowed := same ▸ allowed

theorem transfers_onShared {α : Type} {method : GoProc Shared α}
    (inner : ∀ transferring, Maintains (Allowed transferring) (Shared.Transfers transferring) method) :
    Keeps transfers (onShared method) :=
  fun st => safe_zoom (inner _ st.sh rfl)

theorem elsewhere_of_sequenceMethod {method} (isMethod : SequenceMethod method)
    (agreements : RequestAck → Finset NodeID) (s : Sequence) (p : Persisted) :
    FailsOnly Elsewhere (method agreements s p) := by
  cases isMethod with
  | allocate _ _ | allocateAsOwner _ => exact Sequence.allocate_elsewhere _ _ _ _ _
  | satisfyOutstanding _ => exact Sequence.satisfyOutstanding_elsewhere _ _ _ _
  | applyBatchHashResult _ | applyPrepareMsg _ _ | applyPreprepareBack _ =>
    exact Sequence.applyPrepareMsg_elsewhere _ _ _ _ _

theorem transfers_onObject (seqNo : Nat) (seq : Sequence)
    {method : (RequestAck → Finset NodeID) → Sequence → Persisted → Go (SeqState × List Action)}
    (fails : ∀ agreements s p, FailsOnly Elsewhere (method agreements s p)) :
    Keeps transfers (onObject seqNo seq method) :=
  fun _ => safe_get_bind (safe_lift_bind (fails _ _ _).allowed fun _ _ =>
    safe_bind (safe_modify (safe_emit rfl)))

theorem closed_transfers : Closed transfers where
  elsewhere _ _ isOther := isOther.allowed
  assign _ _ := safe_modify rfl
  operate isMethod seqNo s := transfers_onObject seqNo s (elsewhere_of_sequenceMethod isMethod)
  vote _ _ _ st := safe_quiet (safe_get_bind (safe_lift_bind (st.sequence_elsewhere _).allowed fun _ _ =>
    transfers_onObject _ _ (fun _ _ _ => Sequence.applyCommitMsg_elsewhere _ _ _ _ _) st))
  commit qEntry := transfers_onShared fun _ => Shared.maintains_commit qEntry
  interval st _ := transfers_onShared (fun _ => Shared.maintains_onLog fun p =>
    p.appendLogEntry_elsewhere _) st
  suspect st := safe_bind (safe_emit (transfers_onShared
    (fun _ => Shared.maintains_onLog fun p => p.appendLogEntry_elsewhere _) st))
  consume _ := transfers_onShared fun _ => maintains_modify fun _ holds => holds
  queue proposer toSeqNo := transfers_onShared fun _ => proposer.maintains_advance toSeqNo

/-- **The methods of an active epoch** have none of the panics of the epoch target. -/
theorem Regular.maintains {α : Type} {method : GoProc AeState α} (regular : Regular method) :
    Maintains (Allowed transferring) (AeState.Transfers transferring) method :=
  (regular _ closed_transfers).maintains (fun _ holds _ allowed => holds ▸ allowed)
    fun holds same => same.trans holds

end ActiveEpoch

end MirBft
