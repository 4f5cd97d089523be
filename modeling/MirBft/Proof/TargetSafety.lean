/-
**What an epoch target holds, and what it leaves alone while a state is transferred.**

Two invariants of the current epoch target are kept by every message, tick and call of
`advanceState`:

* `Backed`: the pointers that the target's state needs are set. A target that was resumed from the
  log has none of them (`Resumed`);
* `Exclusive`: an epoch change waits for a commit state with nothing to drain (`Settled`), and while
  a state is transferred the target does not get beyond fetching.

`Terms` say whether a resumed target may be there and whether the second invariant is asked for;
`Permitted` are the panics that remain. `AtRest` is what holds between two calls.
-/

import MirBft.Proof.ActiveFailures
import MirBft.Proof.TargetParts

namespace MirBft

open Proc ActiveEpoch
open EpochTargetState (rank)

/-! ### The invariants of a target -/

/-- The pointers a state needs. -/
def Held (state : EpochTargetState) (myEpochChange : Option ParsedEpochChange)
    (myNewEpoch leaderNewEpoch : Option NewEpoch) (networkNewEpoch : Option NewEpochConfig)
    (activeEpoch : Option ActiveEpoch) : Prop :=
  myEpochChange.isSome = true ∧ match state with
    | .prepending | .done => True
    | .pending | .readying => myNewEpoch.isSome = true
    | .verifying | .fetching | .echoing => myNewEpoch.isSome = true ∧ leaderNewEpoch.isSome = true
    | .resuming => myNewEpoch.isSome = true ∧ networkNewEpoch.isSome = true
    | .ready => networkNewEpoch.isSome = true
    | .inProgress => activeEpoch.isSome = true
    | .ending => False

namespace EpochTarget

/-- **A target holds the data its state needs.** -/
def Backed (et : EpochTarget) : Prop :=
  Held et.state et.myEpochChange et.myNewEpoch et.leaderNewEpoch et.networkNewEpoch et.activeEpoch

/-- A target that was resumed from the log, and has not begun. -/
def Resumed (et : EpochTarget) : Prop :=
  et.networkNewEpoch = none ∧ et.activeEpoch = none ∧
    (et.state = .resuming ∨ et.state = .ready ∨ et.state = .done)

end EpochTarget

/-- **A state transfer is alone.** -/
structure Exclusive (state : EpochTargetState) (isResumed : Prop) (cs : CommitState) : Prop where
  waits : state.rank ≤ rank .readying → cs.Settled
  transfers : cs.transferring = true → cs.Settled ∧
    (state.rank ≤ rank .fetching ∨ state = .done ∨ isResumed)

/-- What a run may meet, and what is asked of it. -/
structure Terms where
  /-- A target may be resumed from the log. -/
  resumed : Prop
  /-- A state transfer is to be alone. -/
  exclusive : Prop

/-- The panics that remain. -/
def Permitted (terms : Terms) (failure : String) : Prop :=
  (failure ∈ pointerFailures → terms.resumed) ∧ (failure ∈ transferFailures → ¬ terms.exclusive) ∧
    failure ≠ fuelFailure

namespace EtState

/-- **The invariant of a target while it works.** -/
structure Good (terms : Terms) (st : EtState) : Prop where
  kind : st.et.Backed ∨ terms.resumed ∧ st.et.Resumed
  transfer : terms.exclusive → Exclusive st.et.state st.et.Resumed st.sh.commitState

/-- **The invariant of a target between two calls**: it does not stop as an epoch is about to
begin. -/
structure AtRest (terms : Terms) (st : EtState) : Prop where
  good : st.Good terms
  begun : st.et.state ≠ .ready

end EtState

variable {terms : Terms} {failure : String}

theorem Elsewhere.permitted (isOther : Elsewhere failure) : Permitted terms failure :=
  ⟨fun isPointer => absurd isPointer isOther.1, fun isTransfer => absurd isTransfer isOther.2.1,
    isOther.2.2⟩

theorem safe_other {σ α : Type} {st : σ} {post : σ → List Action → α → Prop} (isOther : Elsewhere failure) :
    safe (Permitted terms) (fail failure : GoProc σ α) st post :=
  safe_fail isOther.permitted

theorem FailsOnly.permitted {α : Type} {result : Go α} (fails : FailsOnly Elsewhere result) :
    FailsOnly (Permitted terms) result :=
  fails.mono fun _ isOther => isOther.permitted

theorem Permitted.pointer (mayBe : terms.resumed) (isPointer : failure ∈ pointerFailures) :
    Permitted terms failure := by
  simp only [pointerFailures, List.mem_cons, List.not_mem_nil, or_false] at isPointer
  rcases isPointer with rfl | rfl | rfl | rfl | rfl <;>
    exact ⟨fun _ => mayBe, by simp [transferFailures], by simp [fuelFailure]⟩

theorem Allowed.permitted {transferring : Bool}
    (allowed : Allowed transferring failure) (alone : terms.exclusive → transferring = false) :
    Permitted terms failure := by
  rcases allowed with isOther | ⟨isSo, isTransfer⟩
  · exact isOther.permitted
  · have notExclusive : ¬ terms.exclusive := fun holds => by simp [alone holds] at isSo
    refine ⟨fun isPointer => ?_, fun _ => notExclusive, ?_⟩
    all_goals
      simp only [transferFailures, List.mem_cons, List.not_mem_nil, or_false] at isTransfer
    · rcases isTransfer with rfl | rfl <;> simp [pointerFailures] at isPointer
    · rcases isTransfer with rfl | rfl <;> simp [fuelFailure]

namespace Exclusive

variable {state next : EpochTargetState} {isResumed stillResumed : Prop} {cs : CommitState}

/-- Without a transfer only the wait of an epoch change matters. -/
theorem of_alone (alone : cs.transferring = false)
    (waits : state.rank ≤ rank .readying → cs.Settled) :
    Exclusive state isResumed cs :=
  ⟨waits, fun isSo => by simp [alone] at isSo⟩

/-- Up to fetching it does not matter where the epoch change is. -/
theorem of_fetching (holds : Exclusive state isResumed cs)
    (before : state.rank ≤ rank .fetching)
    (after : next.rank ≤ rank .fetching) : Exclusive next stillResumed cs :=
  ⟨fun _ => holds.waits (before.trans (by decide)), fun isSo => ⟨(holds.transfers isSo).1, .inl after⟩⟩

theorem of_done (holds : Exclusive state isResumed cs) : Exclusive .done stillResumed cs :=
  ⟨fun early => absurd early (by decide), fun isSo => ⟨(holds.transfers isSo).1, .inr (.inl rfl)⟩⟩

end Exclusive

namespace EtState

variable {st : EtState} {state : EpochTargetState}

theorem Good.backed (good : st.Good terms)
    (other : st.et.state ≠ .resuming ∧ st.et.state ≠ .ready ∧ st.et.state ≠ .done) : st.et.Backed := by
  rcases good.kind with backed | ⟨_, _, _, isResuming | isReady | isDone⟩
  · exact backed
  · exact absurd isResuming other.1
  · exact absurd isReady other.2.1
  · exact absurd isDone other.2.2

theorem Good.held (good : st.Good terms) (isState : st.et.state = state)
    (other : state ≠ .resuming ∧ state ≠ .ready ∧ state ≠ .done) :
    Held state st.et.myEpochChange st.et.myNewEpoch st.et.leaderNewEpoch st.et.networkNewEpoch
      st.et.activeEpoch := by
  have backed := good.backed (isState ▸ other)
  unfold EpochTarget.Backed at backed
  rwa [isState] at backed

theorem Good.transfers_at (good : st.Good terms)
    (isState : st.et.state = state) (holds : terms.exclusive) :
    Exclusive state st.et.Resumed st.sh.commitState :=
  isState ▸ good.transfer holds

/-- **A target beyond fetching transfers nothing**, if it holds its data. -/
theorem Good.alone (good : st.Good terms) (backed : st.et.Backed)
    (later : rank .fetching < st.et.state.rank) (notDone : st.et.state ≠ .done)
    (holds : terms.exclusive) : st.sh.commitState.transferring = false := by
  by_contra isSo
  rcases ((good.transfer holds).transfers (by simpa using isSo)).2 with early | isDone | isResumed
  · omega
  · exact notDone isDone
  · obtain ⟨noNetwork, _, isState⟩ := isResumed
    have set := backed.2
    rw [noNetwork] at set
    rcases isState with isState | isState | isState
    · rw [isState] at set
      exact Bool.false_ne_true set.2
    · rw [isState] at set
      exact Bool.false_ne_true set
    · exact notDone isState

end EtState

namespace Shared

/-- The commit state is this one. -/
def CommitsAre (cs : CommitState) (sh : Shared) : Prop := sh.commitState = cs

variable {cs : CommitState}

theorem keeps_onLog {method : Persisted → Go (Persisted × List Action)}
    (fails : ∀ p, FailsOnly Elsewhere (method p)) : Maintains Elsewhere (CommitsAre cs) (onLog method) :=
  maintains_get_bind fun sh => maintains_lift_bind (fails sh.persisted) fun _ =>
    maintains_bind (maintains_modify fun _ holds => holds) fun _ => maintains_emit _

theorem keeps_onClients {α : Type} {method : GoProc Clients α} (plain : Keeps (Plain Clients) method) :
    Maintains Elsewhere (CommitsAre cs) (onClients method) :=
  fun sh holds => safe_zoom (safe_mono (plain sh.clients) fun _ _ _ _ => holds)

end Shared

namespace EpochTarget

/-! ### Steps of a proof about a method -/

section Steps

variable {α γ : Type} {st : EtState} {m : GoProc EtState α} {post : EtState → γ → Prop}

theorem safe_untouched {post : EtState → α → Prop} (keeps : Keeps Untouched m)
    (holds : ∀ mid value, mid.et = st.et → mid.sh.commitState = st.sh.commitState → post mid value) :
    safe (Permitted terms) m st fun final _ value => post final value :=
  safe_mono (safe_weaken (keeps st) fun _ isOther => Elsewhere.permitted isOther) fun mid _ value aside =>
    holds mid value aside.target aside.commitState

theorem safe_untouched_bind {next : α → GoProc EtState γ} (keeps : Keeps Untouched m)
    (continued : ∀ mid value, mid.et = st.et → mid.sh.commitState = st.sh.commitState →
      safe (Permitted terms) (next value) mid fun final _ result => post final result) :
    safe (Permitted terms) (m >>= next) st fun final _ result => post final result :=
  safe_bind (safe_untouched keeps continued)

theorem safe_assign_bind {update : EpochTarget → EpochTarget} {next : Unit → GoProc EtState γ}
    (continued : safe (Permitted terms) (next ()) { st with et := update st.et }
      fun final _ result => post final result) :
    safe (Permitted terms) (assign update >>= next) st fun final _ result =>
      post final result :=
  safe_bind (safe_modify continued)

/-- **A method of the active epoch** leaves the rest of the target alone. -/
theorem safe_onActive {method : GoProc AeState α}
    (inner : ∀ transferring, Maintains (Allowed transferring) (AeState.Transfers transferring) method)
    (active : st.et.activeEpoch.isSome = true)
    (alone : terms.exclusive → st.sh.commitState.transferring = false) :
    safe (Permitted terms) (onActive method) st fun final _ _ =>
      (∃ ae, final.et = { st.et with activeEpoch := some ae }) ∧
        final.sh.commitState.transferring = st.sh.commitState.transferring := by
  obtain ⟨ae, isActive⟩ := Option.isSome_iff_exists.mp active
  refine safe_get_bind ?_
  simp only [isActive]
  refine safe_zoom (safe_mono (safe_weaken (inner st.sh.commitState.transferring ⟨ae, st.sh⟩ rfl)
    fun _ allowed => allowed.permitted alone) ?_)
  intro final _ _ kept
  exact ⟨⟨final.ae, rfl⟩, kept⟩

end Steps

theorem rank_le (state : EpochTargetState) : state.rank ≤ 10 := by
  cases state <;> decide

theorem rank_injective : Function.Injective EpochTargetState.rank := by
  intro first second same
  cases first <;> cases second <;> first | rfl | exact absurd same (by decide)

/-! ### One round of `advanceState` -/

section Rounds

open EtState (Good AtRest)

variable {st : EtState} {final : EtState}

theorem good_at (state : EpochTargetState) (isState : final.et.state = state)
    (backed : Held state final.et.myEpochChange final.et.myNewEpoch final.et.leaderNewEpoch
      final.et.networkNewEpoch final.et.activeEpoch)
    (transfer : terms.exclusive → Exclusive state final.et.Resumed final.sh.commitState) :
    final.Good terms :=
  ⟨.inl (show Held final.et.state _ _ _ _ _ from isState ▸ backed), isState ▸ transfer⟩

/-- The invariant does not depend on more than the target and the commit state. -/
theorem good_same (good : st.Good terms) (sameTarget : final.et = st.et)
    (sameCommits : final.sh.commitState = st.sh.commitState) : final.Good terms :=
  ⟨sameTarget ▸ good.kind, by rw [sameTarget, sameCommits]; exact good.transfer⟩

/-- What one round leaves: the state only moves on, and is not to begin twice. -/
structure Round (terms : Terms) (st final : EtState) : Prop where
  good : final.Good terms
  forward : st.et.state.rank ≤ final.et.state.rank
  begins : final.et.state = .ready → st.et.state ≠ .ready

theorem Round.of_state {state : EpochTargetState} (isState : st.et.state = state)
    (notReady : state ≠ .ready) (good : final.Good terms)
    (forward : state.rank ≤ final.et.state.rank) : Round terms st final :=
  ⟨good, isState ▸ forward, fun _ => isState ▸ notReady⟩

theorem safe_checkEpochQuorum (good : st.Good terms) (isState : st.et.state = .prepending) :
    safe (Permitted terms) checkEpochQuorum st fun final _ _ =>
      Round terms st final := by
  obtain ⟨change, _⟩ := good.held isState (by decide)
  have transfer := good.transfers_at isState
  refine safe_get_bind (safe_ite (fun _ => safe_pure (.of_state isState (by decide) good (by rw [isState])))
    fun _ => ?_)
  refine safe_untouched_bind (quiet_constructNewEpoch _).untouched
    fun mid myNewEpoch sameTarget sameCommits =>
    safe_assign_bind ?_
  cases myNewEpoch with
  | none =>
    refine safe_pure (.of_state isState (by decide) (good_at .prepending ?_ ?_ ?_) ?_)
    all_goals simp only [sameTarget, sameCommits, isState]
    · exact ⟨change, trivial⟩
    · exact fun holds => (transfer holds).of_fetching (by decide) (by decide)
    · exact le_refl _
  | some newEpoch =>
    have pending (final : EtState) (isFinal : final.et = { st.et with
          myNewEpoch := some newEpoch, stateTicks := 0, state := .pending })
        (same : final.sh.commitState = st.sh.commitState) : Round terms st final := by
      refine .of_state isState (by decide) (good_at .pending ?_ ?_ ?_) ?_
      all_goals simp only [isFinal, same]
      · exact ⟨change, rfl⟩
      · exact fun holds => (transfer holds).of_fetching (by decide) (by decide)
      · decide
    refine safe_assign_bind (safe_ite (fun _ => ?_) fun _ => safe_pure (pending _ ?_ sameCommits))
    · refine safe_untouched (untouched_broadcast _) fun final _ isFinal same => pending final ?_
        (same.trans sameCommits)
      rw [isFinal, sameTarget]
    · simp only [sameTarget]

theorem safe_verifyNewEpoch (good : st.Good terms) (isState : st.et.state = .verifying) :
    safe (Permitted terms) verifyNewEpoch st fun final _ verified =>
      final.Good terms ∧
        final.et.state = if verified then .fetching else .verifying := by
  obtain ⟨change, own, leader⟩ := good.held isState (by decide)
  have transfer := good.transfers_at isState
  obtain ⟨newEpoch, isLeader⟩ := Option.isSome_iff_exists.mp leader
  refine safe_get_bind ?_
  simp only [isLeader]
  split
  · exact safe_pure ⟨good, isState⟩
  refine safe_untouched_bind quiet_pickOrder.untouched fun mid order sameTarget sameCommits => ?_
  refine safe_lift_bind (constructNewEpochConfig_elsewhere _ _ _ _).permitted fun config _ => ?_
  refine safe_ite (fun _ => safe_assign_bind (safe_pure ⟨good_at .fetching rfl ?_ ?_, rfl⟩))
    fun _ => safe_pure ⟨good_same good sameTarget sameCommits, sameTarget ▸ isState⟩
  all_goals simp only [sameTarget, sameCommits]
  · exact ⟨change, own, leader⟩
  · exact fun holds => (transfer holds).of_fetching (by decide) (by decide)

/-- **`fetchNewEpochState`** fetches on, starts a transfer if none is under way, or echoes. -/
theorem safe_fetchNewEpochState (good : st.Good terms) (isState : st.et.state = .fetching) :
    safe (Permitted terms) fetchNewEpochState st fun final _ _ =>
      final.Good terms ∧ (final.et.state = .fetching ∨ final.et.state = .echoing) := by
  obtain ⟨change, own, leader⟩ := good.held isState (by decide)
  have transfer := good.transfers_at isState
  obtain ⟨newEpoch, isLeader⟩ := Option.isSome_iff_exists.mp leader
  refine safe_get_bind ?_
  simp only [isLeader]
  refine safe_ite (fun _ => safe_pure ⟨good, .inl isState⟩) fun isAlone => ?_
  have alone : st.sh.commitState.transferring = false := by simpa using isAlone
  refine safe_ite (fun _ => ?_) fun _ => ?_
  · -- The transfer starts: the commit state is settled, as an epoch change waits for that.
    refine safe_zoom (safe_get_bind (safe_lift_bind
      (CommitState.transferTo_elsewhere alone _ _ _).permitted ?_))
    rintro ⟨commitState, persisted, actions⟩ started
    refine safe_bind (safe_modify (safe_emit ?_))
    unfold CommitState.transferTo at started
    rw [alone] at started
    obtain ⟨⟨_, _⟩, _, returned⟩ := bind_eq_ok.mp started
    cases returned
    refine ⟨good_at .fetching isState ⟨change, own, leader⟩ fun holds => ?_, .inl isState⟩
    have settled := (transfer holds).waits (by decide)
    have kept : CommitState.Settled { st.sh.commitState with transferring := true } :=
      ⟨settled.notPending, settled.nothing⟩
    exact ⟨fun _ => kept, fun _ => ⟨kept, .inl (le_refl _)⟩⟩
  · have echoing (final : EtState) (echoed : Option NewEpoch) (startingSeqNo : Nat)
        (isFinal : final.et = { st.et with state := .echoing, echoed, startingSeqNo })
        (sameCommits : final.sh.commitState = st.sh.commitState) :
        final.Good terms ∧ (final.et.state = .fetching ∨ final.et.state = .echoing) := by
      refine ⟨good_at .echoing ?_ ?_ ?_, .inr ?_⟩
      all_goals simp only [isFinal, sameCommits]
      · exact ⟨change, own, leader⟩
      · exact fun holds => .of_alone alone fun _ => (transfer holds).waits (by decide)
    refine safe_untouched_bind (quiet_fetchPreprepares _ _ _ _).untouched
      fun mid _ sameTarget sameCommits => ?_
    have same : mid.Good terms ∧ (mid.et.state = .fetching ∨ mid.et.state = .echoing) :=
      ⟨good_same good sameTarget sameCommits, .inl (sameTarget ▸ isState)⟩
    refine safe_ite (fun _ => safe_pure same) fun _ => safe_ite (fun _ => safe_pure same) fun _ => ?_
    refine safe_get_bind (safe_assign_bind (safe_ite
      (fun _ => safe_other (by simp)) fun _ => ?_))
    refine safe_untouched_bind (untouched_logNewEpoch _) fun logged _ sameLogged sameAfter =>
      safe_assign_bind (safe_untouched (untouched_broadcast _) fun final _ isFinal sameFinal => ?_)
    refine echoing final (some newEpoch)
      (newEpoch.newConfig.startingCheckpoint.seqNo + newEpoch.newConfig.finalPreprepares.length + 1) ?_
      (sameFinal.trans (sameAfter.trans sameCommits))
    rw [isFinal, sameLogged, sameTarget]

theorem safe_checkNewEpochEchoQuorum (good : st.Good terms)
    (isState : st.et.state = .echoing) :
    safe (Permitted terms) checkNewEpochEchoQuorum st fun final _ _ =>
      Round terms st final := by
  obtain ⟨change, own, leader⟩ := good.held isState (by decide)
  have transfer := good.transfers_at isState
  have alone := good.alone (good.backed (by simp [isState])) (by rw [isState]; decide) (by simp [isState])
  refine safe_untouched_bind quiet_pickOrder.untouched fun mid order sameTarget sameCommits =>
    safe_get_bind ?_
  split
  · exact safe_pure (.of_state isState (by decide) (good_same good sameTarget sameCommits)
      (by rw [sameTarget, isState]))
  · refine safe_assign_bind (safe_untouched_bind (untouched_logPrepared _ _)
      fun logged _ sameLogged sameAfter =>
      safe_untouched (untouched_broadcast _) fun final _ isFinal sameFinal => ?_)
    have isReadying : final.et = { st.et with state := .readying } := by
      rw [isFinal, sameLogged, sameTarget]
    refine .of_state isState (by decide) (good_at .readying ?_ ?_ ?_) ?_
    all_goals simp only [isReadying, sameFinal, sameAfter, sameCommits]
    · exact ⟨change, own⟩
    · exact fun holds => .of_alone (alone holds) fun _ => (transfer holds).waits (by decide)
    · decide

theorem maintains_replay {transferring : Bool} {et : EpochTarget} (config : NewEpochConfig)
    (currentEpoch : Bool) (entries : List Persistent) :
    Maintains (Allowed transferring) (fun st => st.et = et ∧ st.sh.Transfers transferring)
      (replay config currentEpoch entries) := by
  induction entries generalizing currentEpoch with
  | nil => exact maintains_pure _
  | cons entry rest ih =>
    cases entry with
    | qEntry qEntry =>
      refine maintains_ite (maintains_bind ?_ fun _ => maintains_bind (ih _) fun _ => maintains_pure _) (ih _)
      exact maintains_zoom (Shared.maintains_commit qEntry) (fun _ holds => holds.2)
        fun _ _ holds kept => ⟨holds.1, kept⟩
    | ecEntry epochNumber =>
      exact maintains_ite (ih _)
        (maintains_ite (maintains_fail (Elsewhere.allowed (by simp))) (ih _))
    | _ => exact ih _

theorem safe_checkNewEpochReadyQuorum (good : st.Good terms)
    (isState : st.et.state = .readying) :
    safe (Permitted terms) checkNewEpochReadyQuorum st fun final _ _ =>
      Round terms st final := by
  obtain ⟨change, own⟩ := good.held isState (by decide)
  have alone := good.alone (good.backed (by simp [isState])) (by rw [isState]; decide) (by simp [isState])
  -- The loop's invariant: the target waits for readies or resumes, and nothing is transferred.
  let invariant (mid : EtState) : Prop := mid.Good terms ∧
    (mid.et.state = .readying ∨ mid.et.state = .resuming) ∧
      mid.et.myEpochChange = st.et.myEpochChange ∧ mid.et.myNewEpoch = st.et.myNewEpoch ∧
      (terms.exclusive → mid.sh.commitState.transferring = false)
  have accepts (config : NewEpochConfig) : Maintains (Permitted terms) invariant (accept config) := by
    rintro mid ⟨_, _, sameChange, sameOwn, midAlone⟩
    refine safe_assign_bind (safe_get_bind (safe_bind ?_))
    refine safe_mono (safe_weaken (maintains_replay config false _ _ ⟨rfl, rfl⟩)
      fun _ allowed => allowed.permitted midAlone) ?_
    rintro after _ passed ⟨isAfter, sameTransfers⟩
    refine safe_zoom (safe_modify ?_)
    have stillAlone (holds : terms.exclusive) : after.sh.commitState.transferring = false :=
      sameTransfers.trans (midAlone holds)
    have isResuming : after.et.state = .resuming := by rw [isAfter]
    refine ⟨good_at .resuming isResuming ?_ fun holds => .of_alone (stillAlone holds) ?_,
      .inr isResuming, ?_, ?_, stillAlone⟩
    · simp only [isAfter, sameChange, sameOwn]
      exact ⟨change, own, rfl⟩
    · exact fun early => absurd early (by decide)
    · simp only [isAfter, sameChange]
    · simp only [isAfter, sameOwn]
  refine safe_untouched_bind quiet_pickOrder.untouched fun mid order sameTarget sameCommits =>
    safe_get_bind ?_
  have start : invariant mid :=
    ⟨good_same good sameTarget sameCommits, .inl (sameTarget ▸ isState), by rw [sameTarget],
      by rw [sameTarget], by rw [sameCommits]; exact alone⟩
  refine safe_mono (maintains_forEach (fun config _ => accepts config) mid start) ?_
  rintro final _ _ ⟨finallyGood, isFinal, _⟩
  refine .of_state isState (by decide) finallyGood ?_
  rcases isFinal with isFinal | isFinal <;> rw [isFinal]
  decide

theorem safe_checkEpochResumed (good : st.Good terms) (isState : st.et.state = .resuming) :
    safe (Permitted terms) checkEpochResumed st fun final _ _ =>
      Round terms st final := by
  have stays : Round terms st st :=
    .of_state isState (by decide) good (by rw [isState])
  refine safe_get_bind (safe_ite (fun _ => safe_pure stays) fun _ =>
    safe_ite (fun _ => safe_pure stays) fun _ => safe_modify ?_)
  refine .of_state isState (by decide) ⟨?_, fun holds => ⟨fun early => ?_, ?_⟩⟩
    (show rank .resuming ≤ rank .ready by decide)
  · rcases good.kind with backed | ⟨mayBe, noNetwork, noActive, _⟩
    · unfold EpochTarget.Backed at backed
      rw [isState] at backed
      exact .inl ⟨backed.1, backed.2.2⟩
    · exact .inr ⟨mayBe, noNetwork, noActive, .inr (.inl rfl)⟩
  · exact absurd (show rank .ready ≤ rank .readying from early) (by decide)
  · intro isSo
    obtain ⟨settled, early | isDone | isResumed⟩ := (good.transfers_at isState holds).transfers isSo
    · exact absurd early (by decide)
    · cases isDone
    · exact ⟨settled, .inr (.inr ⟨isResumed.1, isResumed.2.1, .inr (.inl rfl)⟩)⟩

theorem safe_drainPrestart {mid : EtState} (id : NodeID) (active : mid.et.activeEpoch.isSome = true)
    (alone : terms.exclusive → mid.sh.commitState.transferring = false) :
    safe (Permitted terms) (drainPrestart id) mid fun final _ _ =>
      final.et.activeEpoch.isSome = true ∧
        (terms.exclusive → final.sh.commitState.transferring = false) ∧
        final.et.state = mid.et.state ∧ final.et.myEpochChange = mid.et.myEpochChange := by
  refine safe_get_bind ?_
  split
  · exact safe_other (by simp)
  · let kept (final : EtState) : Prop := final.et.activeEpoch.isSome = true ∧
      (terms.exclusive → final.sh.commitState.transferring = false) ∧
        final.et.state = mid.et.state ∧ final.et.myEpochChange = mid.et.myEpochChange
    have steps (id : NodeID) (msg : Msg) :
        Maintains (Permitted terms) kept (onActive (ActiveEpoch.step id msg)) := by
      rintro before ⟨isActive, isAlone, sameState, sameChange⟩
      refine safe_mono (safe_onActive (fun _ => (regular_step id msg).maintains) isActive isAlone) ?_
      rintro final _ _ ⟨⟨ae, isFinal⟩, sameTransfers⟩
      refine ⟨?_, fun holds => sameTransfers.trans (isAlone holds), ?_, ?_⟩
      all_goals rw [isFinal]
      · rfl
      · exact sameState
      · exact sameChange
    refine safe_bind (safe_mono (MsgBuffer.maintains_iterate (fun _ _ _ => .pure _) steps _ mid
      ⟨active, alone, rfl, rfl⟩) ?_)
    intro after _ _ holds
    exact safe_modify holds

/-- **The epoch begins**: the network's configuration is there, and no state is transferred. -/
theorem safe_begin (good : st.Good terms) (isState : st.et.state = .ready) :
    safe (Permitted terms) begin st fun final _ _ => Round terms st final := by
  refine safe_get_bind ?_
  split
  · rename_i noNetwork
    rcases good.kind with backed | ⟨mayBe, _⟩
    · unfold EpochTarget.Backed at backed
      rw [isState, noNetwork] at backed
      cases backed.2
    · exact safe_fail (.pointer mayBe (by simp [pointerFailures]))
  · rename_i config isNetwork
    have backed : st.et.Backed := by
      rcases good.kind with backed | ⟨_, noNetwork, _⟩
      · exact backed
      · rw [noNetwork] at isNetwork
        cases isNetwork
    have alone := good.alone backed (by rw [isState]; decide) (by simp [isState])
    -- From here on an active epoch is there, and nothing is transferred.
    let begun (final : EtState) : Prop := final.et.activeEpoch.isSome = true ∧
      (terms.exclusive → final.sh.commitState.transferring = false) ∧
        final.et.state = .inProgress ∧ final.et.myEpochChange = st.et.myEpochChange
    have creates : Maintains (Allowed st.sh.commitState.transferring)
        (Shared.Transfers st.sh.commitState.transferring) (ActiveEpoch.new config.config) :=
      maintains_new config.config
    refine safe_bind (safe_zoom (safe_mono (safe_weaken (creates st.sh rfl)
      fun _ allowed => allowed.permitted alone) ?_))
    intro shared _ ae sameTransfers
    refine safe_assign_bind (safe_bind ?_)
    refine safe_mono (safe_onActive (fun _ => regular_advance.maintains) rfl
      fun holds => sameTransfers.trans (alone holds)) ?_
    rintro advanced _ _ ⟨⟨next, isAdvanced⟩, sameAdvanced⟩
    refine safe_assign_bind (safe_bind ?_)
    have start : begun { advanced with et := { advanced.et with state := .inProgress } } := by
      refine ⟨?_, fun holds => sameAdvanced.trans (sameTransfers.trans (alone holds)), rfl, ?_⟩
      all_goals simp only [isAdvanced]
      rfl
    have drains (id : NodeID) : Maintains (Permitted terms) begun (drainPrestart id) := by
      rintro mid ⟨isActive, isAlone, isProgress, sameChange⟩
      refine safe_mono (safe_drainPrestart id isActive isAlone) ?_
      rintro final _ _ ⟨stillActive, stillAlone, sameState, same⟩
      exact ⟨stillActive, stillAlone, sameState.trans isProgress, same.trans sameChange⟩
    refine safe_mono (maintains_forEach (fun id _ => drains id) _ start) ?_
    rintro drained _ _ ⟨isActive, isAlone, isProgress, sameChange⟩
    refine safe_mono (safe_onActive (fun _ => regular_drainBuffers.maintains) isActive isAlone) ?_
    rintro final _ _ ⟨⟨last, isFinal⟩, sameFinal⟩
    have isLast : final.et.state = .inProgress := by rw [isFinal]; exact isProgress
    refine ⟨good_at .inProgress isLast ?_ fun holds => .of_alone (sameFinal.trans (isAlone holds))
      fun early => absurd early (by decide), ?_, fun isReady => ?_⟩
    · rw [isFinal]
      exact ⟨sameChange ▸ backed.1, rfl⟩
    · rw [isState, isLast]
      decide
    · exact absurd (isLast.symm.trans isReady) (by decide)

/-- **A method of the epoch in progress.** -/
theorem safe_inProgress {α : Type} {method : GoProc AeState α}
    (inner : ∀ transferring, Maintains (Allowed transferring) (AeState.Transfers transferring) method)
    (good : st.Good terms) (isState : st.et.state = .inProgress) :
    safe (Permitted terms) (onActive method) st fun final _ _ =>
      final.Good terms ∧ final.et.state = .inProgress := by
  obtain ⟨change, active⟩ := good.held isState (by decide)
  have alone := good.alone (good.backed (by simp [isState])) (by rw [isState]; decide) (by simp [isState])
  refine safe_mono (safe_onActive inner active alone) ?_
  rintro final _ _ ⟨⟨ae, isFinal⟩, sameTransfers⟩
  have isProgress : final.et.state = .inProgress := by rw [isFinal]; exact isState
  refine ⟨good_at .inProgress isProgress ?_ fun holds => .of_alone (sameTransfers.trans (alone holds))
    fun early => absurd early (by decide), isProgress⟩
  rw [isFinal]
  exact ⟨change, rfl⟩

/-- **One round keeps the invariant**, and moves on if it changes the state. -/
theorem safe_advanceOnce {again : GoProc EtState Unit} (good : st.Good terms)
    (continues : st.et.state = .verifying → ∀ mid : EtState, mid.Good terms →
      mid.et.state = .fetching → safe (Permitted terms) again mid fun final _ _ =>
        final.AtRest terms ∧ rank .fetching ≤ final.et.state.rank) :
    safe (Permitted terms) (advanceOnce again) st fun final _ _ =>
      Round terms st final := by
  have stays : st.et.state ≠ .ready → Round terms st st := fun notReady =>
    ⟨good, le_refl _, fun _ => notReady⟩
  refine safe_get_bind ?_
  cases isState : st.et.state with
  | prepending => exact safe_checkEpochQuorum good isState
  | pending =>
    refine safe_ite (fun _ => safe_pure (stays (by simp [isState]))) fun isLeader => safe_modify ?_
    obtain ⟨change, own⟩ := good.held isState (by decide)
    refine .of_state isState (by decide) (good_at .verifying rfl ⟨change, own, ?_⟩ fun holds => ?_)
      (show rank .pending ≤ rank .verifying by decide)
    · simpa [Option.isSome_iff_ne_none] using isLeader
    · exact (good.transfers_at isState holds).of_fetching (by decide) (by decide)
  | verifying =>
    refine safe_bind (safe_mono (safe_verifyNewEpoch good isState) ?_)
    rintro mid _ verified ⟨midGood, isMid⟩
    cases verified with
    | false =>
      exact safe_pure (.of_state isState (by decide) midGood (by rw [isMid]; decide))
    | true =>
      refine safe_mono (continues isState mid midGood isMid) ?_
      rintro final _ _ ⟨atRest, later⟩
      exact .of_state isState (by decide) atRest.good (le_trans (by decide) later)
  | fetching =>
    refine safe_mono (safe_fetchNewEpochState good isState) ?_
    rintro final _ _ ⟨finallyGood, isFinal⟩
    refine .of_state isState (by decide) finallyGood ?_
    rcases isFinal with isFinal | isFinal <;> rw [isFinal]
    decide
  | echoing => exact safe_checkNewEpochEchoQuorum good isState
  | readying => exact safe_checkNewEpochReadyQuorum good isState
  | resuming => exact safe_checkEpochResumed good isState
  | ready => exact safe_begin good isState
  | inProgress =>
    refine safe_bind (safe_mono (safe_inProgress (fun _ => regular_advanceRequests.maintains) good
      isState) ?_)
    rintro mid _ _ ⟨midGood, isMid⟩
    refine safe_mono (safe_inProgress (fun _ => regular_advance.maintains) midGood isMid) ?_
    rintro final _ _ ⟨finallyGood, isFinal⟩
    exact .of_state isState (by decide) finallyGood (by rw [isFinal])
  | ending => exact safe_other (by simp)
  | done => exact safe_pure (stays (by simp [isState]))

/-- **The loop of `advanceState`** comes to rest: the state moves on in every round but the last
one, and twelve rounds are more than there are states. -/
theorem safe_advanceLoop (fuel : Nat) (good : st.Good terms)
    (enough : 12 ≤ fuel + st.et.state.rank) :
    safe (Permitted terms) (advanceLoop fuel) st fun final _ _ =>
      final.AtRest terms ∧ st.et.state.rank ≤ final.et.state.rank := by
  induction fuel generalizing st with
  | zero =>
    have bound := rank_le st.et.state
    omega
  | succ fuel ih =>
    refine safe_get_bind (safe_bind (safe_mono (safe_advanceOnce good ?_) ?_))
    · intro isVerifying mid midGood isMid
      rw [isVerifying] at enough
      have enoughLeft : 12 ≤ fuel + mid.et.state.rank := by
        rw [isMid]
        simp only [EpochTargetState.rank] at enough ⊢
        omega
      exact safe_mono (ih midGood enoughLeft) fun final _ _ rest => ⟨rest.1, isMid ▸ rest.2⟩
    · rintro after _ _ ⟨afterGood, forward, begins⟩
      refine safe_get_bind (safe_ite (fun same => safe_pure ⟨⟨afterGood, fun isReady => ?_⟩, forward⟩)
        fun differs => ?_)
      · exact begins isReady (same ▸ isReady)
      · have strictly : st.et.state.rank < after.et.state.rank :=
          lt_of_le_of_ne forward fun same => differs (rank_injective same.symm)
        refine safe_mono (ih afterGood (by omega)) ?_
        rintro final _ _ ⟨atRest, later⟩
        exact ⟨atRest, forward.trans later⟩

theorem safe_advanceState (good : st.Good terms) :
    safe (Permitted terms) advanceState st fun final _ _ =>
      final.AtRest terms :=
  safe_mono (safe_advanceLoop 12 good (by omega)) fun _ _ _ rest => rest.1

end Rounds

/-! ### Messages, ticks and watermarks -/

section Calls

open EtState (Good AtRest)

variable {st : EtState} {final : EtState}

theorem atRest_same (rest : st.AtRest terms) (sameTarget : final.et = st.et)
    (sameCommits : final.sh.commitState = st.sh.commitState) : final.AtRest terms :=
  ⟨good_same rest.good sameTarget sameCommits, sameTarget ▸ rest.begun⟩

theorem safe_rest {α : Type} {m : GoProc EtState α} (rest : st.AtRest terms)
    (keeps : Keeps Untouched m) :
    safe (Permitted terms) m st fun final _ _ => final.AtRest terms :=
  safe_untouched keeps fun _ _ => atRest_same rest

theorem safe_step (source : NodeID) (msg : Msg) (rest : st.AtRest terms) :
    safe (Permitted terms) (step source msg) st fun final _ _ =>
      final.AtRest terms := by
  refine safe_get_bind (safe_ite (fun _ => ?_) fun later => safe_ite (fun _ => safe_pure rest)
    fun notDone => ?_)
  · split
    · exact safe_other (by simp)
    · exact safe_modify ⟨⟨rest.good.kind, rest.good.transfer⟩, rest.begun⟩
  · have isProgress : st.et.state = .inProgress := by
      have backed := rest.good.backed ⟨?_, rest.begun, notDone⟩
      · cases isState : st.et.state <;> simp only [isState, EpochTargetState.rank] at later
        case inProgress => rfl
        case ending =>
          unfold EpochTarget.Backed at backed
          rw [isState] at backed
          exact absurd backed.2 id
        case done => exact absurd isState notDone
        all_goals omega
      · intro isState
        rw [isState] at later
        exact later (by decide)
    refine safe_mono (safe_inProgress (fun _ => (regular_step source msg).maintains) rest.good isProgress) ?_
    rintro final _ _ ⟨good, isFinal⟩
    exact ⟨good, by simp [isFinal]⟩

theorem safe_applyEpochChangeDigest (source origin : NodeID) (msg : EpochChange) (digest : Bytes)
    (rest : st.AtRest terms) :
    safe (Permitted terms) (applyEpochChangeDigest source origin msg digest) st
      fun final _ _ => final.AtRest terms := by
  refine safe_get_bind (safe_assign_bind ?_)
  have changed : AtRest terms { st with et := { st.et with
      changes := st.et.changes.insert origin ((st.et.changeOf origin).addMsg source msg digest) } } :=
    ⟨⟨rest.good.kind, rest.good.transfer⟩, rest.begun⟩
  split
  · exact safe_pure changed
  refine safe_ite (fun _ => safe_pure changed) fun _ => ?_
  split
  · exact safe_other (by simp)
  · exact safe_assign_bind (safe_advanceState ⟨rest.good.kind, rest.good.transfer⟩)

theorem good_leader {newEpoch : NewEpoch} (good : st.Good terms) :
    Good terms { st with et := { st.et with leaderNewEpoch := some newEpoch } } := by
  refine ⟨?_, good.transfer⟩
  rcases good.kind with backed | isResumed
  · refine .inl ⟨backed.1, ?_⟩
    have needs := backed.2
    dsimp only
    split at needs
    all_goals first | exact needs | exact ⟨needs.1, rfl⟩
  · exact .inr isResumed

theorem safe_applyNewEpochMsg (msg : NewEpoch) (rest : st.AtRest terms) :
    safe (Permitted terms) (applyNewEpochMsg msg) st fun final _ _ =>
      final.AtRest terms :=
  safe_assign_bind (safe_advanceState (good_leader rest.good))

theorem safe_applyNewEpochEchoMsg (source : NodeID) (msg : NewEpochConfig)
    (rest : st.AtRest terms) :
    safe (Permitted terms) (applyNewEpochEchoMsg source msg) st fun final _ _ =>
      final.AtRest terms :=
  safe_assign_bind (safe_advanceState ⟨rest.good.kind, rest.good.transfer⟩)

theorem safe_applyNewEpochReadyMsg (source : NodeID) (msg : NewEpochConfig)
    (rest : st.AtRest terms) :
    safe (Permitted terms) (applyNewEpochReadyMsg source msg) st fun final _ _ =>
      final.AtRest terms := by
  refine safe_get_bind (safe_ite (fun _ => safe_pure rest) fun _ => safe_assign_bind ?_)
  refine safe_ite (fun _ => safe_pure ⟨⟨rest.good.kind, rest.good.transfer⟩, rest.begun⟩) fun _ => ?_
  refine safe_ite (fun _ => safe_advanceState ⟨rest.good.kind, rest.good.transfer⟩) fun notEarly =>
    safe_ite (fun early => ?_) fun _ => safe_advanceState ⟨rest.good.kind, rest.good.transfer⟩
  -- Readies of a correct node are enough to leave the echoes behind.
  have isEchoing : st.et.state = .echoing := by
    cases isState : st.et.state <;> simp only [isState, EpochTargetState.rank] at notEarly early
    case echoing => rfl
    all_goals omega
  obtain ⟨change, own, _⟩ := rest.good.held isEchoing (by decide)
  have alone := rest.good.alone (rest.good.backed (by simp [isEchoing])) (by rw [isEchoing]; decide)
    (by simp [isEchoing])
  refine safe_assign_bind (safe_untouched (untouched_broadcast _) fun final _ isFinal sameFinal => ?_)
  have isReadying : final.et.state = .readying := by rw [isFinal]
  refine ⟨good_at .readying isReadying ?_ ?_, by simp [isReadying]⟩
  · simp only [isFinal]
    exact ⟨change, own⟩
  · rw [sameFinal]
    exact fun holds => .of_alone (alone holds) fun _ =>
      (rest.good.transfers_at isEchoing holds).waits (by decide)

theorem atRest_done (good : st.Good terms)
    (isDone : final.et.state = .done) (sameChange : final.et.myEpochChange = st.et.myEpochChange)
    (sameNetwork : final.et.networkNewEpoch = st.et.networkNewEpoch)
    (sameActive : final.et.activeEpoch = st.et.activeEpoch)
    (sameCommits : final.sh.commitState = st.sh.commitState) : final.AtRest terms := by
  refine ⟨⟨?_, fun holds => ?_⟩, by simp [isDone]⟩
  · rcases good.kind with backed | ⟨mayBe, noNetwork, noActive, _⟩
    · refine .inl (show Held final.et.state _ _ _ _ _ from ?_)
      rw [isDone, sameChange]
      exact ⟨backed.1, trivial⟩
    · exact .inr ⟨mayBe, sameNetwork.trans noNetwork, sameActive.trans noActive, .inr (.inr isDone)⟩
  · rw [isDone, sameCommits]
    exact (good.transfer holds).of_done

theorem safe_applySuspectMsg (source : NodeID) (rest : st.AtRest terms) :
    safe (Permitted terms) (applySuspectMsg source) st fun final _ _ =>
      final.AtRest terms := by
  refine safe_get_bind (safe_assign_bind (safe_ite (fun _ => safe_modify ?_) fun _ => safe_pure ?_))
  · exact atRest_done rest.good rfl rfl rfl rfl rfl
  · exact ⟨⟨rest.good.kind, rest.good.transfer⟩, rest.begun⟩

theorem safe_moveLowWatermark (seqNo : Nat) (rest : st.AtRest terms) :
    safe (Permitted terms) (moveLowWatermark seqNo) st fun final _ _ =>
      final.AtRest terms := by
  refine safe_get_bind (safe_ite (fun _ => safe_pure rest) fun isProgress => ?_)
  refine safe_bind (safe_mono (safe_inProgress (fun _ => (regular_moveLowWatermark seqNo).maintains)
    rest.good (not_not.mp isProgress)) ?_)
  rintro mid _ isOver ⟨good, isMid⟩
  refine safe_ite (fun _ => safe_modify ?_) fun _ => safe_pure ⟨good, by simp [isMid]⟩
  exact atRest_done good rfl rfl rfl rfl rfl

/-- A target that changes epochs or resumes one it accepted has what it repeats. -/
theorem safe_tickPending (rest : st.AtRest terms) (notFirst : st.et.state ≠ .prepending)
    (early : st.et.state.rank ≤ rank .resuming) :
    safe (Permitted terms) tickPending st fun final _ _ =>
      final.AtRest terms := by
  refine safe_get_bind (safe_ite (fun _ => safe_other (by simp)) fun _ => ?_)
  refine safe_ite (fun _ => ?_) fun _ => safe_ite (fun _ => ?_) fun _ => safe_ite (fun _ => ?_)
    fun _ => safe_pure rest
  · split
    · exact safe_ite (fun _ => safe_rest rest (untouched_broadcast _)) fun _ => safe_pure rest
    · exact safe_pure rest
  · refine safe_get_bind ?_
    split
    · rename_i noOwn
      rcases rest.good.kind with backed | ⟨mayBe, _⟩
      · have needs := backed.2
        cases isState : st.et.state <;> simp only [isState, EpochTargetState.rank] at needs early notFirst
        all_goals first | simp [noOwn] at needs | omega | exact absurd rfl notFirst
      · exact safe_fail (.pointer mayBe (by simp [pointerFailures]))
    · refine safe_untouched_bind (untouched_broadcast _) fun mid _ sameTarget sameCommits => ?_
      exact safe_rest (atRest_same rest sameTarget sameCommits) (untouched_log _)
  · refine safe_get_bind ?_
    split
    · rename_i noChange
      rcases rest.good.kind with backed | ⟨mayBe, _⟩
      · have change := backed.1
        rw [noChange] at change
        cases change
      · exact safe_fail (.pointer mayBe (by simp [pointerFailures]))
    · exact safe_rest rest (untouched_broadcast _)

theorem safe_tickPrepending (rest : st.AtRest terms) (isFirst : st.et.state = .prepending) :
    safe (Permitted terms) tickPrepending st fun final _ _ =>
      final.AtRest terms := by
  refine safe_get_bind ?_
  split
  · refine safe_ite (fun _ => safe_other (by simp)) fun _ =>
      safe_ite (fun _ => safe_get_bind ?_) fun _ => safe_pure rest
    obtain ⟨change, isChange⟩ := Option.isSome_iff_exists.mp (rest.good.held isFirst (by decide)).1
    simp only [isChange]
    exact safe_rest rest (untouched_broadcast _)
  · exact safe_ite (fun _ => safe_rest rest (untouched_broadcast _)) fun _ => safe_pure rest

theorem safe_tick (rest : st.AtRest terms) :
    safe (Permitted terms) tick st fun final _ _ => final.AtRest terms := by
  refine safe_assign_bind (safe_get_bind ?_)
  have counted : AtRest terms
      { st with et := { st.et with stateTicks := st.et.stateTicks + 1 } } :=
    ⟨⟨rest.good.kind, rest.good.transfer⟩, rest.begun⟩
  refine safe_ite (fun isFirst => safe_tickPrepending counted isFirst) fun notFirst =>
    safe_ite (fun early => safe_tickPending counted notFirst early) fun later =>
    safe_ite (fun notLater => ?_) fun _ => safe_pure counted
  have isProgress : st.et.state = .inProgress := by
    have notReady := rest.begun
    cases isState : st.et.state <;> simp only [isState, EpochTargetState.rank] at later notLater
    case inProgress => rfl
    case ready => exact absurd isState notReady
    all_goals omega
  refine safe_mono (safe_inProgress (fun _ => regular_tick.maintains) counted.good isProgress) ?_
  rintro final _ _ ⟨good, isFinal⟩
  exact ⟨good, by simp [isFinal]⟩

end Calls

end EpochTarget

end MirBft
