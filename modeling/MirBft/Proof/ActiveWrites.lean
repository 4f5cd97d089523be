/-
**What an active epoch writes to the log.**

Every regular method of an active epoch has the effect `ActiveWrites config`: the epoch keeps its
configuration, and the log grows by batch entries, suspicions, and N-entries of this configuration.
-/

import MirBft.Proof.ActiveClosure
import MirBft.Proof.ClientsQuiet

namespace MirBft

open Proc

/-- What an active epoch with the configuration may write. -/
def ActiveEntry (config : EpochConfig) : Persistent → Prop
  | .nEntry entry => entry.epochConfig = config
  | .qEntry _ | .pEntry _ | .suspect _ => True
  | _ => False

theorem ActiveEntry.of_batch {config : EpochConfig} (entry : Persistent)
    (isBatch : entry.isBatch = true) : ActiveEntry config entry := by
  cases entry with
  | qEntry _ => trivial
  | pEntry _ => trivial
  | _ => cases isBatch

/-- The effect of the methods of an active epoch with the configuration. -/
def ActiveWrites (config : EpochConfig) : Effect AeState Action where
  rel before after actions := before.ae.epochConfig = config →
    after.ae.epochConfig = config ∧ Shared.Wrote (ActiveEntry config) before.sh after.sh actions
  refl _ same := ⟨same, (Shared.writes _).refl _⟩
  trans first second same := by
    obtain ⟨mid, wrote⟩ := first same
    obtain ⟨final, more⟩ := second mid
    exact ⟨final, (Shared.writes _).trans wrote more⟩

namespace ActiveEpoch

variable {config : EpochConfig}

theorem writes_onShared {α : Type} {method : GoProc Shared α}
    (writes : Has (Shared.writes (ActiveEntry config)) method) :
    Has (ActiveWrites config) (onShared method) := by
  intro st
  rw [onShared, wp_zoom]
  exact wp_mono (writes st.sh) fun _ _ _ wrote isConfig => ⟨isConfig, wrote⟩

theorem sequenceMethod_wrote {method} (isMethod : SequenceMethod method)
    {agreements : RequestAck → Finset NodeID} {s s' : Sequence} {p p' : Persisted} {actions : List Action}
    (ran : method agreements s p = .ok ((s', p'), actions)) :
    Wrote Sequence.Batches p.entries p'.entries actions := by
  cases isMethod with
  | allocate _ _ => exact Sequence.allocate_wrote ran
  | allocateAsOwner _ => exact Sequence.allocateAsOwner_wrote ran
  | satisfyOutstanding _ => exact Sequence.satisfyOutstanding_wrote ran
  | applyBatchHashResult _ => exact Sequence.applyBatchHashResult_wrote ran
  | applyPrepareMsg _ _ => exact Sequence.applyPrepareMsg_wrote ran
  | applyPreprepareBack _ => exact Sequence.applyPrepareMsg_wrote ran

theorem writes_vote (source : NodeID) (seqNo : Nat) (digest : Bytes) :
    Has (ActiveWrites config) (Proc.quiet (onSequence seqNo fun agreements s p =>
      s.applyCommitMsg agreements p source digest)) := by
  intro st
  rw [wp_quiet]
  refine wp_get_bind (wp_lift_bind fun s _ => ?_)
  refine wp_get_bind (wp_lift_bind fun result ran => ?_)
  simp only [wp_bind, wp_modify, wp_emit]
  have wrote := (Sequence.applyCommitMsg_wrote ran).drop fun _ isBatch => isBatch
  exact fun isConfig => ⟨isConfig, rfl, wrote.mono ActiveEntry.of_batch⟩

theorem writes_operate {method} (isMethod : SequenceMethod method) (seqNo : Nat) (s : Sequence) :
    Has (ActiveWrites config) (onObject seqNo s method) := by
  intro st
  refine wp_get_bind (wp_lift_bind fun result ran => ?_)
  simp only [wp_bind, wp_modify, wp_emit]
  exact fun isConfig => ⟨isConfig, rfl,
    (sequenceMethod_wrote isMethod ran).mono ActiveEntry.of_batch⟩

theorem writes_proposerAdvance {allowed : Persistent → Prop} (proposer : Proposer) (toSeqNo : Nat) :
    Has (Shared.writes allowed) (proposer.advance toSeqNo) :=
  has_bind has_get fun _ => has_bind (has_lift _) fun _ =>
    has_bind (Shared.writes_modify fun _ => ⟨rfl, rfl⟩) fun _ => has_pure _

/-- **The effect is that of an active epoch's parts.** -/
theorem closed_activeWrites : Closed (ActiveWrites config).unguarded where
  elsewhere _ _ _ := trivial
  assign same st := safe_modify fun isConfig =>
    ⟨(same st.ae).epochConfig.trans isConfig, (Shared.writes _).refl _⟩
  operate isMethod seqNo s := (writes_operate isMethod seqNo s).keeps
  vote source seqNo digest := (writes_vote source seqNo digest).keeps
  commit qEntry := (writes_onShared (Shared.writes_commit qEntry)).keeps
  interval st seqNo := by
    -- The N-entry of a new interval is of the epoch's configuration.
    refine ⟨fun _ _ => trivial, ?_⟩
    intro final actions value ran isConfig
    have entry : ActiveEntry config (.nEntry ⟨seqNo, st.ae.epochConfig⟩) := isConfig
    exact writes_onShared (Shared.writes_onLog entry) st final actions value ran isConfig
  suspect st := by
    have logs : Has (ActiveWrites config) (onShared (Shared.onLog fun p =>
        p.addSuspect st.ae.epochConfig.number)) :=
      writes_onShared (Shared.writes_onLog (show ActiveEntry config (.suspect _) from trivial))
    refine ⟨fun _ _ => trivial, wp_bind_has ?_ fun _ => logs⟩
    rw [wp_emit]
    exact fun isConfig => ⟨isConfig, .of_harmless rfl rfl (by simp [Action.harmless])⟩
  consume _ := Has.keeps (writes_onShared (Shared.writes_modify fun _ => ⟨rfl, rfl⟩))
  queue proposer toSeqNo := (writes_onShared (writes_proposerAdvance proposer toSeqNo)).keeps

theorem Regular.writes {α : Type} {method : GoProc AeState α} (regular : Regular method) :
    Has (ActiveWrites config) method :=
  (regular _ closed_activeWrites).has

end ActiveEpoch

end MirBft
