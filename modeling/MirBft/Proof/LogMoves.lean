/-
**What the components do to the log, and what they send on its account.**

`LogMove` is the log of a node as a transition system, with the actions of each step: entries are
written, together with messages that rest on them (`Msg.Backed`); an epoch change is recorded and
sent, and sent again; the log is cut. Two things may happen to the log without an action (`lossy`):
the entries that a commit vote leads to, and the cut at a stable checkpoint.

* `Shared.logs`, `TargetLogs`: every method of the shared components and of the epoch target makes
  such moves;
* `Sequence.Settled`: a sequence that waits for something. A commit vote of another node, or of a
  node whose prepare is counted, leads to no entry (`applyCommitMsg_silent`).
-/

import MirBft.Proof.ActiveMoves
import MirBft.Proof.TargetSimulation

namespace MirBft

open Proc List

/-! ### Messages and their entries -/

/-- **The entries that a message rests on.** -/
def Msg.Backed (recorded : Persistent → Prop) : Msg → Prop
  | .preprepare seqNo _ batch => ∃ digest, recorded (.qEntry ⟨seqNo, digest, batch⟩)
  | .prepare seqNo _ digest => ∃ requests, recorded (.qEntry ⟨seqNo, digest, requests⟩)
  | .commit seqNo _ digest => recorded (.pEntry ⟨seqNo, digest⟩)
  | .checkpoint seqNo value => ∃ networkState, recorded (.cEntry ⟨seqNo, value, networkState⟩)
  | .suspect epoch => recorded (.suspect epoch)
  | .epochChange change => recorded (.ecEntry change.newEpoch)
  | .newEpochEcho config =>
      recorded (.nEntry ⟨config.startingCheckpoint.seqNo + 1, config.config⟩) ∧
        ∀ batch ∈ config.batches, ∃ requests, recorded (.qEntry ⟨batch.1, batch.2, requests⟩)
  | _ => True

theorem Msg.Backed.mono {recorded more : Persistent → Prop} {msg : Msg}
    (implies : ∀ entry, recorded entry → more entry) (backed : msg.Backed recorded) :
    msg.Backed more := by
  cases msg with
  | preprepare _ _ _ => exact backed.imp fun _ => implies _
  | prepare _ _ _ => exact backed.imp fun _ => implies _
  | commit _ _ _ => exact implies _ backed
  | checkpoint _ _ => exact backed.imp fun _ => implies _
  | suspect _ => exact implies _ backed
  | epochChange _ => exact implies _ backed
  | newEpochEcho config =>
    exact ⟨implies _ backed.1, fun batch member => (backed.2 batch member).imp fun _ => implies _⟩
  | _ => trivial

variable {entries : List Persistent}

/-- **An echo rests on what is logged with it.** -/
theorem EchoEntries.backed {config : NewEpochConfig}
    (echoed : EchoEntries config entries) : (Msg.newEpochEcho config).Backed (· ∈ entries) := by
  refine ⟨mem_of_mem_head? echoed.first, fun batch member => ?_⟩
  rw [← echoed.batches] at member
  obtain ⟨qEntry, isEntry, rfl⟩ := mem_map.mp member
  obtain ⟨entry, isIn, isQ⟩ := mem_filterMap.mp isEntry
  cases entry with
  | qEntry found =>
    cases isQ
    exact ⟨qEntry.requests, isIn⟩
  | _ => cases isQ

/-- The action does not touch the log, and a message rests on the entries. An epoch change is not
among them: it has moves of its own. -/
def Action.RestsOn (entries : List Persistent) : Action → Prop
  | .send _ (.epochChange _) => False
  | .send _ msg => msg.Backed (· ∈ entries)
  | .appendWriteAhead .. | .truncateWriteAhead _ => False
  | _ => True

theorem Action.RestsOn.of_plain {action : Action}
    (isPlain : action.plain = true) : action.RestsOn entries := by
  cases action with
  | send targets msg =>
    cases msg with
    | epochChangeAck _ _ => trivial
    | newEpoch _ => trivial
    | fetchBatch _ _ => trivial
    | forwardBatch _ _ _ => trivial
    | fetchRequest _ => trivial
    | forwardRequest _ _ => trivial
    | requestAck _ => trivial
    | _ => cases isPlain
  | appendWriteAhead _ _ => cases isPlain
  | truncateWriteAhead _ => cases isPlain
  | _ => trivial

/-! ### The moves -/

/-- The log of a node, and the epoch change of its target. -/
structure LogView where
  persisted : Persisted
  change : Option EpochChange

variable (lossy : Prop)

/-- **What a node does to its log.** -/
inductive LogMove : LogView → LogView → List Action → Prop
  | write {v : LogView} {entries : List Persistent} {p : Persisted} {before writes after : List Action} :
      Appended v.persisted entries p writes → (∀ action ∈ before ++ after, action.RestsOn entries) →
      LogMove v { v with persisted := p } (before ++ writes ++ after)
  | announce {v : LogView} {change : EpochChange} {p : Persisted} {writes : List Action}
      (targets : List NodeID) :
      v.persisted.constructEpochChange change.newEpoch = .ok change →
      v.persisted.addECEntry change.newEpoch = .ok (p, writes) →
      LogMove v ⟨p, some change⟩ (writes ++ [.send targets (.epochChange change)])
  | goOn {v : LogView} {change : EpochChange} :
      v.persisted.constructEpochChange change.newEpoch = .ok change →
      .ecEntry change.newEpoch ∈ v.persisted.entries → LogMove v { v with change := some change } []
  | drop (v : LogView) : LogMove v { v with change := none } []
  | rebroadcast {v : LogView} {change : EpochChange} (targets : List NodeID) : v.change = some change →
      LogMove v v [.send targets (.epochChange change)]
  | cut (v : LogView) (low : Nat) :
      LogMove v { v with persisted := (v.persisted.truncate low).1 } (v.persisted.truncate low).2
  | lose {v : LogView} {entry : Persistent} {p : Persisted} {writes : List Action} : lossy →
      entry.isBatch = true → v.persisted.appendLogEntry entry = .ok (p, writes) →
      LogMove v { v with persisted := p } []
  | forget (v : LogView) (low : Nat) : lossy →
      LogMove v { v with persisted := (v.persisted.truncate low).1 } []

/-- **The moves of a method that does not touch the epoch change.** -/
def LogSteps (p p' : Persisted) (actions : List Action) : Prop :=
  ∀ change, Steps (LogMove lossy) ⟨p, change⟩ ⟨p', change⟩ actions

namespace LogSteps

variable {lossy} {p mid p' : Persisted} {entries : List Persistent}
  {actions more before writes after : List Action}

theorem refl (p : Persisted) : LogSteps lossy p p [] := fun _ => .refl _

theorem trans (first : LogSteps lossy p mid actions) (second : LogSteps lossy mid p' more) :
    LogSteps lossy p p' (actions ++ more) :=
  fun change => (first change).trans (second change)

section

variable (appended : Appended p entries p' writes)
include appended

theorem write
    (backed : ∀ action ∈ before ++ after, action.RestsOn entries) :
    LogSteps lossy p p' (before ++ writes ++ after) :=
  fun _ => .single (.write appended backed)

theorem write_then
    (backed : ∀ action ∈ after, action.RestsOn entries) : LogSteps lossy p p' (writes ++ after) :=
  show LogSteps lossy p p' ([] ++ writes ++ after) from write appended backed

theorem write_after
    (backed : ∀ action ∈ before, action.RestsOn entries) : LogSteps lossy p p' (before ++ writes) := by
  have wrote : LogSteps lossy p p' (before ++ writes ++ []) := write appended (by simpa using backed)
  rwa [append_nil] at wrote

end

theorem append {entry : Persistent} (appended : p.appendLogEntry entry = .ok (p', actions)) :
    LogSteps lossy p p' actions := by
  have wrote : LogSteps lossy p p' (actions ++ []) := write_then (.one appended) (by simp)
  rwa [append_nil] at wrote

theorem suspect {epoch : Nat} (targets : List NodeID)
    (added : p.addSuspect epoch = .ok (p', writes)) :
    LogSteps lossy p p' (.send targets (.suspect epoch) :: writes) := by
  have wrote : LogSteps lossy p p' ([.send targets (.suspect epoch)] ++ writes) :=
    write_after (.one added) (by simp [Action.RestsOn, Msg.Backed])
  exact wrote

theorem of_plain (plain : ∀ action ∈ actions, action.plain = true) : LogSteps lossy p p actions :=
  write_then (.nil p) fun action member => .of_plain (plain action member)

end LogSteps

/-! ### Sequences -/

namespace Sequence

variable {lossy} {agreements : RequestAck → Finset NodeID} {s after : Sequence} {p p' : Persisted}
  {actions : List Action}

theorem prepareActions_restsOn (action : Action) (member : action ∈ prepareActions agreements s) :
    action.RestsOn [.qEntry ⟨s.seqNo, s.digestKey, s.batch⟩] := by
  unfold prepareActions at member
  split at member
  · rcases mem_append.mp member with forward | send
    · obtain ⟨_, _, rfl⟩ := mem_map.mp forward
      trivial
    · rw [mem_singleton.mp send]
      exact ⟨_, mem_singleton_self _⟩
  · rw [mem_singleton.mp member]
    exact ⟨_, mem_singleton_self _⟩

theorem Advance.logs {before next : SeqState} (step : Advance agreements before next actions) :
    LogSteps lossy before.2 next.2 actions := by
  cases step with
  | requestsReady _ _ => exact .refl _
  | preprepare _ _ added => exact .write_then (.one added) prepareActions_restsOn
  | prepare _ _ added =>
    refine .write_then (.one added) fun action member => ?_
    rw [mem_singleton.mp member]
    exact mem_singleton_self _
  | commit _ _ => exact .refl _

/-- **Advancing a sequence** writes entries and sends what rests on them. -/
theorem advanceState_logs (advanced : s.advanceState agreements p = .ok ((after, p'), actions)) :
    LogSteps lossy p p' actions := by
  refine untilStable_invariant (fun before after actions => LogSteps lossy before.2 after.2 actions)
    (fun _ => .refl _) ?_ advanced
  intro before mid final emitted rest stepped done
  rcases advanceOnce_eq_ok stepped with ⟨rfl, rfl⟩ | step
  · exact done
  · exact step.logs.trans done

theorem advanceState_loses (isLossy : lossy)
    (advanced : s.advanceState agreements p = .ok ((after, p'), actions)) :
    LogSteps lossy p p' [] := by
  refine untilStable_invariant (fun before after _ => LogSteps lossy before.2 after.2 [])
    (fun _ => .refl _) ?_ advanced
  intro before mid final emitted rest stepped done
  rcases advanceOnce_eq_ok stepped with ⟨rfl, rfl⟩ | step
  · exact done
  · cases step with
    | requestsReady _ _ => exact done
    | preprepare _ _ added => exact .trans (fun _ => .single (.lose isLossy rfl added)) done
    | prepare _ _ added => exact .trans (fun _ => .single (.lose isLossy rfl added)) done
    | commit _ _ => exact done

/-- **A settled sequence can only commit**, which writes and sends nothing. -/
theorem Settled.advanceState_eq (settled : s.Settled) : s.advanceState agreements p =
    .ok ((if s.state = .prepared then s.checkCommitQuorum else s, p), []) := by
  have stays (once : advanceOnce agreements (s, p) = .ok ((s, p), [])) :
      s.advanceState agreements p = .ok ((s, p), []) := by
    simp [advanceState, untilStable, once, bind, Except.bind, pure, Except.pure]
  cases here : s.state
  case prepared =>
    rw [if_pos rfl]
    by_cases quorum : s.commitQuorum = true
    · have once : advanceOnce agreements (s, p) = .ok ((s.checkCommitQuorum, p), []) := by
        simp only [advanceOnce, here, pure, Except.pure]
      have committed : s.checkCommitQuorum.state = .committed := by rw [checkCommitQuorum, if_pos quorum]
      have twice : advanceOnce agreements (s.checkCommitQuorum, p) = .ok ((s.checkCommitQuorum, p), []) := by
        simp only [advanceOnce, committed, pure, Except.pure]
      simp [advanceState, untilStable, once, twice, committed, here, bind, Except.bind, pure, Except.pure]
    · have same : s.checkCommitQuorum = s := if_neg quorum
      rw [same]
      exact stays (by simp only [advanceOnce, here, same, pure, Except.pure])
  all_goals refine stays ?_
  case pendingRequests =>
    have waiting := Finset.card_pos.mpr (Finset.nonempty_iff_ne_empty.mpr (settled.requests here))
    simp only [advanceOnce, here, checkRequests, if_pos waiting, pure, Except.pure]
  case ready => simp [advanceOnce, here, settled.digest here, pure, Except.pure]
  case preprepared => simp [advanceOnce, here, checkPrepareQuorum, settled.prepares here, pure, Except.pure]
  all_goals simp only [advanceOnce, here, pure, Except.pure]

/-- **A commit vote is silent**, unless it is this node's and its prepare is not counted yet. -/
theorem Settled.applyCommitMsg_silent (settled : s.Settled) {source : NodeID} (digest : Bytes)
    (counted : s.state = .preprepared → source = s.myConfig.id →
      (s.nodeChoices source).state ≠ .uninitialized) :
    ∃ after, s.applyCommitMsg agreements p source digest = .ok ((after, p), []) := by
  unfold applyCommitMsg
  split
  · exact ⟨s, rfl⟩
  have voted : (s.voteCommit source digest).Settled := by
    refine ⟨settled.requests, settled.digest, fun preprepared => ?_⟩
    have unprepared := settled.prepares preprepared
    unfold prepareQuorum at unprepared ⊢
    by_cases mine : source = s.myConfig.id
    · have started : decide ((s.nodeChoices s.myConfig.id).state ≠ .uninitialized) = true :=
        decide_eq_true (mine ▸ counted preprepared mine)
      have choice : (s.voteCommit source digest).nodeChoices (s.voteCommit source digest).myConfig.id =
          { s.nodeChoices s.myConfig.id with state := .prepared } := by
        subst mine
        exact Function.update_self _ _ _
      simp only [started] at unprepared
      rw [choice]
      exact unprepared
    · have same : (s.voteCommit source digest).nodeChoices (s.voteCommit source digest).myConfig.id =
          s.nodeChoices s.myConfig.id := Function.update_of_ne (Ne.symm mine) _ _
      rw [same]
      exact unprepared
  exact ⟨_, voted.advanceState_eq⟩

end Sequence

/-! ### The active epoch -/

section Active

variable {lossy} {heard : NodeID → Msg → Prop} {agreements : RequestAck → Finset NodeID} {op : SeqOp}
  {s next : Sequence} {p p' : Persisted} {actions : List Action} {my : InitialParameters}
  {heap : Nat → Option Sequence} {seqNo : Nat} {v after : ActiveView}

/-- **An operation on a sequence** writes entries and sends what rests on them, and the sequence is
settled again. -/
theorem SeqOp.run_logs (foreign : op.Foreign s)
    (ran : op.run agreements s p = .ok ((next, p'), actions)) :
    LogSteps lossy p p' actions ∧ (s.Settled → next.Settled) := by
  rcases run_advances foreign ran with ⟨rfl, rfl, rfl, _⟩ | ⟨mid, more, _, advanced, isMore⟩
  · exact ⟨.refl _, id⟩
  refine ⟨?_, fun _ => Sequence.settled_of_advanceState advanced⟩
  have logged : LogSteps lossy p p' more := Sequence.advanceState_logs advanced
  rcases isMore with ⟨rfl, _⟩ | ⟨data, origin, rfl, _⟩
  · exact logged
  · have hashed : LogSteps lossy p p [.hash data origin] := .of_plain (by simp [Action.plain])
    exact hashed.trans logged

/-- Every sequence of an epoch is settled, and of this node. -/
def SettledHeap (my : InitialParameters) (heap : Nat → Option Sequence) : Prop :=
  ∀ seqNo s, heap seqNo = some s → s.Settled ∧ s.myConfig = my

theorem SettledHeap.update
    (settled : SettledHeap my heap) (isNext : next.Settled ∧ next.myConfig = my) :
    SettledHeap my (Function.update heap seqNo (some next)) := by
  intro other s' found
  rcases heap_update (h := heap) found with ⟨rfl, rfl⟩ | ⟨_, found⟩
  · exact isNext
  · exact settled other s' found

/-- After an operation the heap is settled, and the log has its entries. -/
theorem SettledHeap.run
    (settled : SettledHeap my heap) (found : heap seqNo = some s) (foreign : op.Foreign s)
    (ran : op.run agreements s p = .ok ((next, p'), actions)) :
    SettledHeap my (Function.update heap seqNo (some next)) ∧ LogSteps lossy p p' actions := by
  obtain ⟨isSettled, mine⟩ := settled seqNo s found
  obtain ⟨logged, keeps⟩ : _ ∧ (s.Settled → next.Settled) := SeqOp.run_logs foreign ran
  refine ⟨settled.update ⟨keeps isSettled, ?_⟩, logged⟩
  rw [(SeqOp.run_identity foreign ran).2.2.1]
  exact mine

theorem SeqOp.Routine.foreign (routine : op.Routine heard s) : op.Foreign s := by
  rintro source digest rfl
  exact routine.1

/-- What a commit vote leads to may be lost, or no vote of the node itself is heard. -/
def MayVote (lossy : Prop) (heard : NodeID → Msg → Prop) (id : NodeID) : Prop :=
  lossy ∨ ∀ seqNo epoch digest, ¬ heard id (.commit seqNo epoch digest)

/-- **A move of the active epoch** moves the log. -/
theorem ActiveMove.logs (mayVote : MayVote lossy heard v.my.id)
    (settled : SettledHeap v.my v.heap) (move : ActiveMove heard v after actions) :
    SettledHeap after.my after.heap ∧ LogSteps lossy v.persisted after.persisted actions := by
  cases move with
  | operate found routine ran => exact settled.run found routine.foreign ran
  | allocate found _ _ _ ran => exact settled.run found (by rintro _ _ ⟨⟩) ran
  | satisfy _ found ran => exact settled.run found (by rintro _ _ ⟨⟩) ran
  | @voteCommit seqNo s source digest _ _ _ dropped found isHeard ran =>
    obtain ⟨kept, logged⟩ : _ ∧ LogSteps lossy _ _ dropped := settled.run found (by rintro _ _ ⟨⟩) ran
    refine ⟨kept, ?_⟩
    rcases mayVote with isLossy | foreign
    · rcases SeqOp.run_advances (by rintro _ _ ⟨⟩) ran with ⟨_, rfl, _⟩ | ⟨_, _, _, advanced, _⟩
      · exact .refl _
      · exact Sequence.advanceState_loses isLossy advanced
    · obtain ⟨isSettled, mine⟩ := settled seqNo s found
      have notMine : source ≠ s.myConfig.id := fun own => by
        obtain ⟨epoch, wasHeard⟩ := isHeard
        rw [own, mine] at wasHeard
        exact absurd wasHeard (foreign _ _ _)
      obtain ⟨_, silent⟩ := isSettled.applyCommitMsg_silent digest fun _ own => absurd own notMine
      cases silent.symm.trans ran
      exact .refl _
  | available _ => exact ⟨settled, .refl _⟩
  | commit _ _ _ _ => exact ⟨settled, .refl _⟩
  | @extend high p' _ heap _ added isHeap =>
    refine ⟨fun seqNo s found => ?_, .append added⟩
    change heap seqNo = some s at found
    rw [isHeap] at found
    split at found
    · cases found
      exact ⟨.new _ _ _ _ _, rfl⟩
    · exact settled seqNo s found
  | suspect added =>
    refine ⟨settled, LogSteps.suspect _ added⟩

theorem ActiveMove.logs_steps (mayVote : MayVote lossy heard v.my.id)
    (settled : SettledHeap v.my v.heap) (moved : Steps (ActiveMove heard) v after actions) :
    SettledHeap after.my after.heap ∧ LogSteps lossy v.persisted after.persisted actions := by
  induction moved with
  | refl => exact ⟨settled, .refl _⟩
  | cons move rest ih =>
    obtain ⟨kept, logged⟩ := move.logs mayVote settled
    have my : _ = _ := (ActiveMove.fixed (.single move)).1
    obtain ⟨settles, more⟩ := ih (my ▸ mayVote) kept
    exact ⟨settles, logged.trans more⟩

end Active

/-! ### The shared components -/

namespace Shared

variable {lossy} {actions : List Action}

/-- The effect of the methods of the shared components. -/
def logs (lossy : Prop) : Effect Shared Action where
  rel before after actions := before.Retains after ∧
    LogSteps lossy before.persisted after.persisted actions
  refl _ := ⟨fun _ => id, .refl _⟩
  trans first second := ⟨fun my stocked => second.1 my (first.1 my stocked), first.2.trans second.2⟩

theorem logs_of_plain {before after : Shared}
    (retains : before.Retains after) (persisted : after.persisted = before.persisted)
    (plain : ∀ action ∈ actions, action.plain = true) : (logs lossy).rel before after actions := by
  refine ⟨retains, ?_⟩
  rw [persisted]
  exact .of_plain plain

theorem logs_modify {update : Shared → Shared} (retains : ∀ sh : Shared, sh.Retains (update sh))
    (persisted : ∀ sh, (update sh).persisted = sh.persisted) :
    Has (logs lossy) (Proc.modify update : GoProc Shared Unit) := by
  intro sh
  rw [wp_modify]
  exact logs_of_plain (retains sh) (persisted sh) (by simp)

theorem logs_emit (plain : ∀ action ∈ actions, action.plain = true) :
    Has (logs lossy) (emit actions : GoProc Shared Unit) := by
  intro sh
  rw [wp_emit]
  exact logs_of_plain (fun _ => id) rfl plain

theorem logs_onLog (entry : Persistent) :
    Has (logs lossy) (onLog fun p => p.appendLogEntry entry) := by
  intro sh
  refine wp_get_bind (wp_lift_bind fun result appended => ?_)
  simp only [wp_bind, wp_modify, wp_emit]
  exact ⟨fun _ => id, .append appended⟩

theorem logs_onClients {α : Type} {method : GoProc Clients α} (plain : Keeps (Plain Clients) method) :
    Has (logs lossy) (onClients method) := by
  intro sh
  rw [onClients, wp_zoom]
  exact wp_mono (plain.has sh.clients) fun _ _ _ => logs_of_plain (fun _ => id) rfl

theorem logs_transferTo (seqNo : Nat) (value : Bytes) : Has (logs lossy) (transferTo seqNo value) := by
  intro sh
  refine wp_get_bind (wp_lift_bind fun result transferred => ?_)
  unfold CommitState.transferTo at transferred
  split at transferred
  · cases transferred
  obtain ⟨⟨p, appends⟩, appended, returned⟩ := bind_eq_ok.mp transferred
  cases returned
  simp only [wp_bind, wp_modify, wp_emit, nil_append]
  exact ⟨fun _ => id, .write_then (.one appended) (by simp [Action.RestsOn])⟩

end Shared

/-! ### The epoch target -/

/-- The log and the epoch change of a target. -/
def EtState.logView (st : EtState) : LogView where
  persisted := st.sh.persisted
  change := st.et.myEpochChange.map ParsedEpochChange.underlying

/-- What the methods of a target keep: the active epoch is aligned and settled, and the messages
that wait for it were heard. -/
structure TargetKept (heard : NodeID → Msg → Prop) (my : Stock) (st : EtState) : Prop where
  stocked : st.sh.Stocked my
  active : ∀ ae, st.et.activeEpoch = some ae →
    Aligned heard ae ∧ SettledHeap my.toInitialParameters ae.heap ∧ ae.myConfig = my.toInitialParameters
  prestart : Authentic heard st.et.prestartBuffers

/-- **The effect of the methods of a target.** -/
def TargetLogs (heard : NodeID → Msg → Prop) (my : Stock) : Effect EtState Action :=
  (stepsEffect EtState.logView (LogMove lossy)).keeping (TargetKept heard my)

namespace EpochTarget

variable {lossy} {heard : NodeID → Msg → Prop} {my : Stock} {actions : List Action} {α : Type}
  {method : GoProc AeState α}

/-- The fields of a target that the log and what is kept are about. -/
structure LogsAlike (et after : EpochTarget) : Prop where
  change : after.myEpochChange = et.myEpochChange
  active : after.activeEpoch = et.activeEpoch
  prestart : after.prestartBuffers = et.prestartBuffers

/-- A target with the same such fields, and moves of the log. -/
theorem logs_of_alike {before after : EtState} (alike : LogsAlike before.et after.et)
    (retains : before.sh.Retains after.sh)
    (steps : LogSteps lossy before.sh.persisted after.sh.persisted actions) :
    (TargetLogs lossy heard my).rel before after actions := by
  intro kept
  refine ⟨⟨retains my kept.stocked, ?_, ?_⟩, ?_⟩
  · rw [alike.active]
    exact kept.active
  · rw [alike.prestart]
    exact kept.prestart
  · show Steps _ before.logView ⟨after.sh.persisted, after.et.myEpochChange.map _⟩ actions
    rw [alike.change]
    exact steps _

theorem logs_onShared {method : GoProc Shared α} (logged : Has (Shared.logs lossy) method) :
    Has (TargetLogs lossy heard my) (onShared method) := by
  intro st
  rw [onShared, wp_zoom]
  exact wp_mono (logged st.sh) fun sh actions _ done => logs_of_alike ⟨rfl, rfl, rfl⟩ done.1 done.2

theorem logs_of_quiet {m : GoProc EtState α} (quiet : Keeps Quiet m) : Has (TargetLogs lossy heard my) m := by
  intro st
  refine wp_mono (quiet st).2 ?_
  rintro ⟨et, sh⟩ _ _ ⟨⟨rfl, _, _, retains⟩, persisted, plain⟩
  exact logs_of_alike ⟨rfl, rfl, rfl⟩ retains (persisted ▸ .of_plain plain)

theorem logs_onActive (mayVote : MayVote lossy heard my.id)
    (moves : ∀ st : AeState, Aligned heard st.ae → wp method st fun final actions _ =>
      Aligned heard final.ae ∧ ∃ before after,
        Steps (ActiveMove heard) (st.view before) (final.view after) actions) :
    Has (TargetLogs lossy heard my) (onActive method) := by
  intro st
  refine wp_get_bind ?_
  split
  · exact has_fail _ st
  rename_i ae isActive
  refine wp_keeping fun kept => ?_
  rw [wp_zoom]
  obtain ⟨aligned, settled, mine⟩ := kept.active ae isActive
  refine wp_mono (moves ⟨ae, st.sh⟩ aligned) ?_
  rintro inner actions _ ⟨stillAligned, before, after, steps⟩
  obtain ⟨sameMy, sameShared⟩ := ActiveMove.fixed steps
  have retains := Shared.Retains.of_same sameShared
  have isMy : inner.ae.myConfig = my.toInitialParameters := sameMy.trans mine
  have votes : MayVote lossy heard ae.myConfig.id := mine ▸ mayVote
  have allSettled : SettledHeap ae.myConfig ae.heap := mine ▸ settled
  obtain ⟨stillSettled, logged⟩ := ActiveMove.logs_steps votes allSettled steps
  refine ⟨⟨retains my kept.stocked, ?_, kept.prestart⟩, ?_⟩
  · rintro _ ⟨⟩
    exact ⟨stillAligned, isMy ▸ stillSettled, isMy⟩
  · exact logged (st.et.myEpochChange.map ParsedEpochChange.underlying)

theorem logs_onActive_of_follows (mayVote : MayVote lossy heard my.id)
    (follows : Has (Follows heard) method) :
    Has (TargetLogs lossy heard my) (onActive method) :=
  logs_onActive mayVote fun st aligned => wp_mono (follows st) fun _ _ _ done =>
    ⟨(done aligned).1, [], [], (done aligned).2 []⟩

end EpochTarget

end MirBft
