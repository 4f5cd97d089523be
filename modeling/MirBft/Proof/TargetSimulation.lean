/-
**Methods that simulate the protocol of an epoch target.**

`Simulated`: what a method does to the view of its state is a run of `TargetMove`, with the method's
actions.

* `Sharing`: the effect of methods that leave the target as it is and write no more than transfers
  and suspicions;
* `simulates_onActive`: a method of the active epoch;
* `wp_replay`: what the acceptance of a configuration takes out of the log.
-/

import MirBft.Proof.TargetMoves

namespace MirBft

open Proc

/-- **A method's run is a run of the protocol.** -/
structure Simulated (env : Surroundings) (before after : EtState) (actions : List Action) : Prop where
  networkConfig : after.et.networkConfig = before.et.networkConfig
  steps : before.et.networkConfig = env.networkConfig →
    Steps (TargetMove env) before.view after.view actions

/-- The effect of methods that simulate the protocol. -/
def Simulates (env : Surroundings) : Effect EtState Action where
  rel := Simulated env
  refl _ := ⟨rfl, fun _ => .refl _⟩
  trans first second := by
    refine ⟨second.networkConfig.trans first.networkConfig, fun isConfig => ?_⟩
    exact (first.steps isConfig).trans (second.steps (first.networkConfig.trans isConfig))

/-- What a target writes at any time. -/
def SharedEntry : Persistent → Prop
  | .tEntry .. | .suspect _ => True
  | _ => False

/-- The effect of methods that leave the target as it is. -/
def Sharing : Effect EtState Action where
  rel before after actions := after.et = before.et ∧
    Shared.Wrote SharedEntry before.sh after.sh actions
  refl _ := ⟨rfl, (Shared.writes _).refl _⟩
  trans first second := ⟨second.1.trans first.1, (Shared.writes _).trans first.2 second.2⟩

variable {env : Surroundings} {before after : EtState} {actions : List Action}

theorem SharedEntry.recordable {v : TargetView} (entry : Persistent) (isShared : SharedEntry entry) :
    Recordable env v entry := by
  cases entry with
  | tEntry _ _ => trivial
  | suspect _ => trivial
  | _ => cases isShared

theorem Simulated.of_wrote
    (same : after.et = before.et) (accepted : after.sh.accepted = before.sh.accepted)
    (wrote : Wrote (Recordable env before.view) before.view.log after.view.log actions) :
    Simulated env before after actions := by
  refine ⟨by rw [same], fun _ => .single ?_⟩
  have isView : after.view = { before.view with log := after.view.log } := by
    unfold EtState.view
    rw [same, accepted]
  rw [isView]
  exact .write wrote

theorem Simulated.of_sharing
    (shared : Sharing.rel before after actions) : Simulated env before after actions :=
  .of_wrote shared.1 shared.2.accepted (shared.2.log.mono SharedEntry.recordable)

theorem simulates_of_sharing {α : Type} {m : GoProc EtState α} (shares : Has Sharing m) :
    Has (Simulates env) m :=
  fun st => wp_mono (shares st) fun _ _ _ shared => .of_sharing shared

namespace EpochTarget

variable {α : Type}

/-! ### Parts of the state -/

theorem shares_onShared {method : GoProc Shared α} (writes : Has (Shared.writes SharedEntry) method) :
    Has Sharing (onShared method) := by
  intro st
  rw [onShared, wp_zoom]
  exact wp_mono (writes st.sh) fun _ _ _ wrote => ⟨rfl, wrote⟩

theorem shares_broadcast {msg : Msg} (harmless : ∀ targets, (Action.send targets msg).harmless = true) :
    Has Sharing (broadcast msg) := by
  intro st
  refine wp_get_bind ?_
  rw [wp_emit]
  exact ⟨rfl, .of_harmless rfl rfl (by simpa using harmless _)⟩

theorem shares_of_quiet {m : GoProc EtState α} (quiet : Keeps Quiet m) : Has Sharing m :=
  fun st => wp_mono (quiet st).2 fun _ _ _ ⟨aside, persisted, plain⟩ => ⟨aside.target,
    .of_harmless aside.accepted persisted fun _ member =>
      Action.harmless_of_plain (plain _ member)⟩

/-- **A method of the active epoch**: what it writes is the active epoch's to write. -/
theorem simulates_onActive {method : GoProc AeState α} (writes : ∀ config, Has (ActiveWrites config) method) :
    Has (Simulates env) (onActive method) := by
  intro st
  refine wp_get_bind ?_
  split
  · exact has_fail _ st
  rename_i ae isActive
  rw [wp_zoom]
  refine wp_mono (writes ae.epochConfig ⟨ae, st.sh⟩) ?_
  intro inner actions _ wrote
  obtain ⟨config, wrote⟩ := wrote rfl
  refine ⟨rfl, fun _ => .single ?_⟩
  have wasActive : st.view.active = some ae.epochConfig := by
    show st.et.activeEpoch.map _ = _
    rw [isActive]
    rfl
  have isView : ({ et := { st.et with activeEpoch := some inner.ae }, sh := inner.sh } :
      EtState).view = { st.view with log := inner.sh.persisted.entries } := by
    unfold EtState.view
    simp only [Option.map_some, config, isActive, wrote.accepted]
  rw [isView]
  refine .write (wrote.log.mono fun entry permitted => ?_)
  cases entry with
  | nEntry entry =>
    show st.view.active = some entry.epochConfig
    rw [wasActive, show entry.epochConfig = ae.epochConfig from permitted]
  | qEntry _ =>
    show st.view.active.isSome = true
    rw [wasActive]
    rfl
  | pEntry _ =>
    show st.view.active.isSome = true
    rw [wasActive]
    rfl
  | suspect _ => trivial
  | _ => cases permitted

/-! ### Echos and readies -/

theorem quorum_of_mem_withQuorum {order : MapIter} {nc : NetworkConfig} {config : NewEpochConfig}
    {votes : GoMap NewEpochConfig (Finset NodeID)}
    (member : config ∈ withQuorum order nc votes) :
    intersectionQuorum nc ≤ votesFor votes config := by
  obtain ⟨⟨key, voters⟩, found, rfl⟩ := List.mem_map.mp member
  obtain ⟨isEntry, quorum⟩ := List.mem_filter.mp found
  have isVotes : votes.lookup key = some voters :=
    AList.mem_lookup_iff.mpr ((order.mem_run).mp isEntry)
  unfold votesFor
  rw [isVotes]
  simpa using quorum

/-- What `replay` does: it commits what is after the epoch change, and leaves the rest as it was. -/
theorem wp_replay (config : NewEpochConfig) (currentEpoch : Bool) (entries : List Persistent)
    (st : EtState) : wp (replay config currentEpoch entries) st fun final actions passed =>
      final.et = st.et ∧ final.sh.accepted = st.sh.accepted ∧ st.sh.Retains final.sh ∧
      final.sh.persisted = st.sh.persisted ∧ actions = [] ∧
      passed = replayedFrom config.config.number currentEpoch entries := by
  induction entries generalizing currentEpoch st with
  | nil =>
    rw [replay, wp_pure]
    exact ⟨rfl, rfl, fun _ => id, rfl, rfl, rfl⟩
  | cons entry rest ih =>
    cases entry with
    | qEntry entry =>
      unfold replay replayedFrom
      cases currentEpoch with
      | false => exact ih false st
      | true =>
        simp only [if_true, wp_bind]
        rw [onShared, wp_zoom]
        refine wp_get_bind (wp_lift_bind fun commitState committed => ?_)
        rw [wp_modify]
        refine wp_mono (ih true _) ?_
        rintro final actions _ ⟨isTarget, accepted, retains, isLog, rfl, rfl⟩
        rw [wp_pure]
        exact ⟨isTarget, accepted, retains, isLog, rfl, rfl⟩
    | ecEntry epochNumber =>
      unfold replay replayedFrom
      split
      · rename_i old
        have isOld : decide (config.config.number ≤ epochNumber) = false := by simpa using old
        rw [isOld, Bool.or_false]
        exact ih currentEpoch st
      split
      · exact wp_fail _ _ _
      · rename_i notOld _
        have isNew : decide (config.config.number ≤ epochNumber) = true := by simpa using notOld
        rw [isNew, Bool.or_true]
        exact ih true st
    | pEntry _ => exact ih currentEpoch st
    | cEntry _ => exact ih currentEpoch st
    | nEntry _ => exact ih currentEpoch st
    | fEntry _ => exact ih currentEpoch st
    | tEntry _ _ => exact ih currentEpoch st
    | suspect _ => exact ih currentEpoch st

theorem writes_new (allowed : Persistent → Prop) (config : EpochConfig) :
    Has (Shared.writes allowed) (ActiveEpoch.new config) :=
  has_bind has_get fun _ =>
    has_bind (has_bind has_get fun _ =>
      has_bind (Shared.writes_modify fun _ => ⟨rfl, rfl⟩) fun _ => has_pure _) fun _ =>
    has_bind (has_lift _) fun _ =>
    has_bind (has_bind has_get fun _ =>
      has_bind (Shared.writes_modify fun _ => ⟨rfl, rfl⟩) fun _ => has_pure _) fun _ => has_pure _

end EpochTarget

end MirBft
