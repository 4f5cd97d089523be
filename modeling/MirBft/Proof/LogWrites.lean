/-
**What the components write to the log.**

`Wrote allowed log after actions`: from `log` to `after` the log only grew, by entries that
`allowed` permits, and the actions are the writes of these entries among others that neither touch
the log nor send an echo or a ready of the epoch change (`harmless`). A batch entry may go without
its write: the actions of `applyCommitMsg` are dropped.

* `Shared.Wrote` says this of the shared components, `writes` is the effect;
* a method of a sequence writes batch entries (`advanceState_wrote` and the lemmas after it).
-/

import MirBft.Model.StateMachine
import MirBft.Proof.CommitMoves

namespace MirBft

open Proc

/-- Neither a write or cut of the log, nor an echo or ready of an epoch change. -/
def Action.harmless : Action → Bool
  | .send _ (.newEpochEcho _) | .send _ (.newEpochReady _) => false
  | .appendWriteAhead .. | .truncateWriteAhead _ => false
  | _ => true

/-- Messages that do not rest on the log: those of the clients, of the fetching of batches, and what
a node says of other nodes' epoch changes. -/
def Msg.plain : Msg → Bool
  | .preprepare .. | .prepare .. | .commit .. | .checkpoint .. | .suspect _ => false
  | .epochChange _ | .newEpochEcho _ | .newEpochReady _ => false
  | _ => true

/-- Neither a write or cut of the log, nor a message that rests on it. -/
def Action.plain : Action → Bool
  | .send _ msg => msg.plain
  | .appendWriteAhead .. | .truncateWriteAhead _ => false
  | _ => true

/-- A harmless action, or a write to the log. -/
def Action.Routine (action : Action) : Prop :=
  action.harmless = true ∨ ∃ index entry, action = .appendWriteAhead index entry

/-- What is plain is harmless. -/
theorem Action.harmless_of_plain {action : Action} (isPlain : action.plain = true) :
    action.harmless = true := by
  cases action with
  | send targets msg =>
    cases msg with
    | newEpochEcho _ => cases isPlain
    | newEpochReady _ => cases isPlain
    | _ => rfl
  | appendWriteAhead _ _ => cases isPlain
  | truncateWriteAhead _ => cases isPlain
  | _ => rfl

/-- The entries of the three-phase commit. -/
def Persistent.isBatch : Persistent → Bool
  | .qEntry _ | .pEntry _ => true
  | _ => false

/-- **The log grew by permitted entries**, with their writes among the actions. -/
inductive Wrote (allowed : Persistent → Prop) :
    List Persistent → List Persistent → List Action → Prop
  | refl (log : List Persistent) : Wrote allowed log log []
  | act {log after : List Persistent} {action : Action} {actions : List Action} :
      action.harmless = true → Wrote allowed log after actions →
      Wrote allowed log after (action :: actions)
  | append {log after : List Persistent} {actions : List Action} (index : Nat) {entry : Persistent} :
      allowed entry → Wrote allowed (log ++ [entry]) after actions →
      Wrote allowed log after (.appendWriteAhead index entry :: actions)
  | silent {log after : List Persistent} {actions : List Action} {entry : Persistent} :
      allowed entry → entry.isBatch = true → Wrote allowed (log ++ [entry]) after actions →
      Wrote allowed log after actions

namespace Wrote

variable {allowed weaker : Persistent → Prop} {log after final : List Persistent}
  {actions more : List Action}

theorem trans (first : Wrote allowed log after actions) (second : Wrote allowed after final more) :
    Wrote allowed log final (actions ++ more) := by
  induction first with
  | refl => exact second
  | act harmless _ ih => exact .act harmless (ih second)
  | append index permitted _ ih => exact .append index permitted (ih second)
  | silent permitted isBatch _ ih => exact .silent permitted isBatch (ih second)

theorem mono (implies : ∀ entry, allowed entry → weaker entry) (wrote : Wrote allowed log after actions) :
    Wrote weaker log after actions := by
  induction wrote with
  | refl log => exact .refl log
  | act harmless _ ih => exact .act harmless ih
  | append index permitted _ ih => exact .append index (implies _ permitted) ih
  | silent permitted isBatch _ ih => exact .silent (implies _ permitted) isBatch ih

theorem of_harmless (harmless : ∀ action ∈ actions, action.harmless = true) :
    Wrote allowed log log actions := by
  induction actions with
  | nil => exact .refl log
  | cons action rest ih =>
    exact .act (harmless action (by simp)) (ih fun other member => harmless other (by simp [member]))

theorem routine (wrote : Wrote allowed log after actions) : ∀ action ∈ actions, action.Routine := by
  induction wrote with
  | refl => simp
  | act harmless _ ih => exact List.forall_mem_cons.mpr ⟨Or.inl harmless, ih⟩
  | append index _ _ ih => exact List.forall_mem_cons.mpr ⟨Or.inr ⟨index, _, rfl⟩, ih⟩
  | silent _ _ _ ih => exact ih

/-- Without its actions, a write of a batch is still one to the log. -/
theorem drop (isBatch : ∀ entry, allowed entry → entry.isBatch = true)
    (wrote : Wrote allowed log after actions) : Wrote allowed log after [] := by
  induction wrote with
  | refl log => exact .refl log
  | act _ _ ih => exact ih
  | append _ permitted _ ih => exact .silent permitted (isBatch _ permitted) ih
  | silent permitted batch _ ih => exact .silent permitted batch ih

/-- **An entry is appended** where it is written. -/
theorem of_append {p p' : Persisted} {entry : Persistent} (permitted : allowed entry)
    (appended : p.appendLogEntry entry = .ok (p', actions)) :
    Wrote allowed p.entries p'.entries actions := by
  obtain ⟨rfl, rfl⟩ := Persisted.appendLogEntry_eq_ok appended
  refine .append p.nextIndex permitted ?_
  simp only [Persisted.entries, List.map_append]
  exact .refl _

end Wrote

/-! ### Sequences -/

namespace Sequence

variable {agreements : RequestAck → Finset NodeID} {s after : Sequence} {p p' : Persisted}
  {actions : List Action}

/-- What a sequence may write. -/
abbrev Batches (entry : Persistent) : Prop := entry.isBatch = true

theorem prepareActions_harmless (action : Action) (member : action ∈ prepareActions agreements s) :
    action.harmless = true := by
  unfold prepareActions at member
  split at member
  · rcases List.mem_append.mp member with forward | send
    · obtain ⟨_, _, rfl⟩ := List.mem_map.mp forward
      rfl
    · rw [List.mem_singleton.mp send]
      rfl
  · rw [List.mem_singleton.mp member]
    rfl

/-- **Advancing a sequence writes batch entries.** -/
theorem advanceState_wrote
    (advanced : s.advanceState agreements p = .ok ((after, p'), actions)) :
    Wrote Batches p.entries p'.entries actions := by
  refine untilStable_invariant (fun before after actions =>
    Wrote Batches before.2.entries after.2.entries actions) (fun _ => .refl _) ?_ advanced
  intro before mid final emitted rest stepped done
  refine Wrote.trans ?_ done
  rcases advanceOnce_eq_ok stepped with ⟨rfl, rfl⟩ | step
  · exact .refl _
  · cases step with
    | requestsReady _ _ => exact .refl _
    | preprepare _ _ added =>
      have entered : Wrote Batches _ _ _ := .of_append (show Batches _ from rfl) added
      exact entered.trans (.of_harmless prepareActions_harmless)
    | @prepare s _ _ _ _ _ added =>
      have entered : Wrote Batches _ _ _ := .of_append (show Batches _ from rfl) added
      have isCommit : (Action.send s.networkConfig.nodes
        (.commit s.seqNo s.epoch s.digestKey)).harmless = true := rfl
      exact entered.trans (.act isCommit (.refl _))
    | commit _ _ => exact .refl _

theorem applyPrepareMsg_wrote {source : NodeID} {digest : Option Bytes}
    (ran : s.applyPrepareMsg agreements p source digest = .ok ((after, p'), actions)) :
    Wrote Batches p.entries p'.entries actions := by
  unfold applyPrepareMsg at ran
  split at ran
  · cases ran
    exact .refl _
  · exact advanceState_wrote ran

theorem applyBatchHashResult_wrote {digest : Option Bytes}
    (ran : s.applyBatchHashResult agreements p digest = .ok ((after, p'), actions)) :
    Wrote Batches p.entries p'.entries actions :=
  applyPrepareMsg_wrote ran

theorem applyCommitMsg_wrote {source : NodeID} {digest : Bytes}
    (ran : s.applyCommitMsg agreements p source digest = .ok ((after, p'), actions)) :
    Wrote Batches p.entries p'.entries actions := by
  unfold applyCommitMsg at ran
  split at ran
  · cases ran
    exact .refl _
  · exact advanceState_wrote ran

/-- **An allocation** writes entries of batches only. -/
theorem allocate_wrote {requestAcks : List RequestAck} {outstandingReqs : Finset Bytes}
    (ran : s.allocate agreements p requestAcks outstandingReqs = .ok ((after, p'), actions)) :
    Wrote Batches p.entries p'.entries actions := by
  unfold allocate at ran
  split at ran
  · cases ran
  split at ran
  · exact applyBatchHashResult_wrote ran
  · obtain ⟨⟨⟨next, log⟩, more⟩, advanced, returned⟩ := bind_eq_ok.mp ran
    obtain ⟨⟨rfl, rfl⟩, rfl⟩ := returned
    exact .act rfl (advanceState_wrote advanced)

theorem allocateAsOwner_wrote {clientRequests : List RequestAck}
    (ran : s.allocateAsOwner agreements p clientRequests = .ok ((after, p'), actions)) :
    Wrote Batches p.entries p'.entries actions :=
  allocate_wrote ran

theorem satisfyOutstanding_wrote {ack : RequestAck}
    (ran : s.satisfyOutstanding agreements p ack = .ok ((after, p'), actions)) :
    Wrote Batches p.entries p'.entries actions := by
  unfold satisfyOutstanding at ran
  split at ran
  · cases ran
  · exact advanceState_wrote ran

end Sequence

/-! ### The shared components -/

/-- **What the shared components wrote**; nothing was accepted. -/
structure Shared.Wrote (allowed : Persistent → Prop) (before after : Shared) (actions : List Action) :
    Prop where
  accepted : after.accepted = before.accepted
  log : MirBft.Wrote allowed before.persisted.entries after.persisted.entries actions

namespace Shared

variable {allowed weaker : Persistent → Prop}

/-- The effect of methods that write permitted entries. -/
def writes (allowed : Persistent → Prop) : Effect Shared Action where
  rel := Shared.Wrote allowed
  refl _ := ⟨rfl, .refl _⟩
  trans first second := ⟨second.accepted.trans first.accepted, first.log.trans second.log⟩

theorem Wrote.of_harmless {before after : Shared} {actions : List Action}
    (accepted : after.accepted = before.accepted) (persisted : after.persisted = before.persisted)
    (harmless : ∀ action ∈ actions, action.harmless = true) :
    Shared.Wrote allowed before after actions := by
  refine ⟨accepted, ?_⟩
  rw [persisted]
  exact .of_harmless harmless

theorem writes_modify {update : Shared → Shared}
    (same : ∀ sh, (update sh).accepted = sh.accepted ∧ (update sh).persisted = sh.persisted) :
    Has (writes allowed) (Proc.modify update : GoProc Shared Unit) := by
  intro sh
  rw [wp_modify]
  exact .of_harmless (same sh).1 (same sh).2 (by simp)

/-- A permitted entry may be logged. -/
theorem writes_onLog {entry : Persistent} (permitted : allowed entry) :
    Has (writes allowed) (onLog fun p => p.appendLogEntry entry) := by
  intro sh
  refine wp_get_bind (wp_lift_bind fun result appended => ?_)
  simp only [wp_bind, wp_modify, wp_emit]
  exact ⟨rfl, .of_append permitted appended⟩

/-- A commit writes nothing. -/
theorem writes_commit (qEntry : QEntry) : Has (writes allowed) (commit qEntry) := by
  intro sh
  refine wp_get_bind (wp_lift_bind fun _ _ => ?_)
  rw [wp_modify]
  exact .of_harmless rfl rfl (by simp)

theorem writes_transferTo {seqNo : Nat} {value : Bytes} (permitted : allowed (.tEntry seqNo value)) :
    Has (writes allowed) (transferTo seqNo value) := by
  intro sh
  refine wp_get_bind (wp_lift_bind fun result transferred => ?_)
  unfold CommitState.transferTo at transferred
  split at transferred
  · cases transferred
  obtain ⟨⟨p, appends⟩, appended, returned⟩ := bind_eq_ok.mp transferred
  cases returned
  simp only [wp_bind, wp_modify, wp_emit]
  have isTransfer : (Action.stateTransfer seqNo value).harmless = true := rfl
  exact ⟨rfl, (Wrote.of_append permitted appended).trans (.act isTransfer (.refl _))⟩

end Shared

end MirBft
