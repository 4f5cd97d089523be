/-
**Which epochs the nodes claim to be in.**

`epochTracker.step` records for each node the highest epoch above the current one that it has sent a
message for. `tick` takes the highest epoch that enough nodes claim for one that a correct node is
in, and gives the current epoch up when it has been behind for long enough. It counts a claim once
too often, so that f nodes are enough.

* `correctEpoch_cases`: the epoch after a tick is the one before, or one that at least f nodes
  claim.
* `claimed_epoch_supported`: in a run in which no tick sees a new epoch that exactly f nodes claim,
  the epoch is never above all those that f + 1 nodes have sent a message for, and an epoch is given
  up only if a correct node has sent a message for one at least as late as the next.
-/

import MirBft.Proof.MachineRuns

namespace MirBft

open Proc

variable {events : List Event} {epoch f : Nat}

/-! ### The loop of `tick` -/

namespace EpochTracker

theorem correctEpoch_fold {nc : NetworkConfig} {claims some : List Nat} (subset : some ⊆ claims)
    (highest : Nat) :
    let result := some.foldl (fun highest maxEpoch =>
      if maxEpoch ≤ highest then highest
      else if claims.countP (maxEpoch ≤ ·) + 1 < someCorrectQuorum nc then highest
      else maxEpoch) highest
    result = highest ∨ (result ∈ claims ∧ highest < result ∧ nc.f ≤ claims.countP (result ≤ ·)) := by
  induction some generalizing highest with
  | nil => exact Or.inl rfl
  | cons maxEpoch rest ih =>
    obtain ⟨member, others⟩ := List.cons_subset.mp subset
    rw [List.foldl_cons]
    by_cases low : maxEpoch ≤ highest
    · rw [if_pos low]
      exact ih others highest
    · rw [if_neg low]
      by_cases few : claims.countP (maxEpoch ≤ ·) + 1 < someCorrectQuorum nc
      · rw [if_pos few]
        exact ih others highest
      · rw [if_neg few]
        rw [someCorrectQuorum] at few
        right
        rcases ih others maxEpoch with same | ⟨isClaim, above, enough⟩
        · rw [same]
          exact ⟨member, by omega, by omega⟩
        · exact ⟨isClaim, by omega, enough⟩

/-- **The epoch after a tick** is the one before, or a later one that at least f nodes claim. -/
theorem correctEpoch_cases (nc : NetworkConfig) (claims : List Nat) (highest : Nat) :
    correctEpoch nc claims highest = highest ∨ (correctEpoch nc claims highest ∈ claims ∧
      highest < correctEpoch nc claims highest ∧
      nc.f ≤ claims.countP (correctEpoch nc claims highest ≤ ·)) :=
  correctEpoch_fold (List.Subset.refl claims) highest

end EpochTracker

/-! ### What the nodes have sent -/

/-- The node has sent a message for an epoch that is at least `epoch`. -/
def Claimed (events : List Event) (epoch : Nat) (source : NodeID) : Prop :=
  ∃ msg number, .step source msg ∈ events ∧ epochForMsg msg = .ok number ∧ epoch ≤ number

/-- More than `f` nodes have sent a message for an epoch that is at least `epoch`. -/
def Supported (f : Nat) (events : List Event) (epoch : Nat) : Prop :=
  ∃ nodes : Finset NodeID, f < nodes.card ∧ ∀ source ∈ nodes, Claimed events epoch source

theorem Claimed.later {source : NodeID} (claimed : Claimed events epoch source) (event : Event) :
    Claimed (events ++ [event]) epoch source := by
  obtain ⟨msg, number, member, isNumber, atLeast⟩ := claimed
  exact ⟨msg, number, List.mem_append_left _ member, isNumber, atLeast⟩

theorem Supported.later (supported : Supported f events epoch) (event : Event) :
    Supported f (events ++ [event]) epoch := by
  obtain ⟨nodes, enough, each⟩ := supported
  exact ⟨nodes, enough, fun source member => (each source member).later event⟩

/-- Of more than `f` nodes one is correct. -/
theorem Supported.correct (supported : Supported f events epoch) {faulty : Finset NodeID}
    (tolerable : faulty.card ≤ f) : ∃ source, source ∉ faulty ∧ Claimed events epoch source := by
  obtain ⟨nodes, enough, each⟩ := supported
  obtain ⟨source, member, correct⟩ := Finset.exists_mem_notMem_of_card_lt_card
    (by omega : faulty.card < nodes.card)
  exact ⟨source, correct, each source member⟩

/-- The epochs that the nodes claim. -/
def EpochTracker.claims (tracker : EpochTracker) : List Nat := tracker.maxEpochs.entries.map Sigma.snd

/-- **Claims that were sent.** -/
structure ClaimsSent (f : Nat) (events : List Event) (tracker : EpochTracker) : Prop where
  sent : ∀ source epoch, tracker.maxEpochs.lookup source = some epoch → Claimed events epoch source
  supported : tracker.maxCorrectEpoch = 0 ∨ Supported f events tracker.maxCorrectEpoch

/-- No epoch above the highest correct one is claimed by exactly `f` nodes. -/
def EpochTracker.NoBareClaim (f : Nat) (tracker : EpochTracker) : Prop :=
  ∀ epoch ∈ tracker.claims, tracker.maxCorrectEpoch < epoch → tracker.claims.countP (epoch ≤ ·) ≠ f

/-- The nodes that claim at least an epoch. -/
theorem ClaimsSent.supported_of_count {tracker : EpochTracker} (claims : ClaimsSent f events tracker)
    (enough : f < tracker.claims.countP (epoch ≤ ·)) : Supported f events epoch := by
  let claiming := tracker.maxEpochs.entries.filter fun entry => epoch ≤ entry.2
  refine ⟨(claiming.map Sigma.fst).toFinset, ?_, ?_⟩
  · have distinct : (claiming.map Sigma.fst).Nodup :=
      tracker.maxEpochs.nodupKeys.sublist List.filter_sublist
    rw [List.toFinset_card_of_nodup distinct, List.length_map, ← List.countP_eq_length_filter]
    rwa [EpochTracker.claims, List.countP_map] at enough
  · intro source member
    obtain ⟨⟨key, number⟩, isEntry, rfl⟩ := List.mem_map.mp (List.mem_toFinset.mp member)
    obtain ⟨isThere, atLeast⟩ := List.mem_filter.mp isEntry
    obtain ⟨msg, sent, isSent, isNumber, more⟩ := claims.sent key number (AList.mem_lookup_iff.mpr isThere)
    exact ⟨msg, sent, isSent, isNumber, le_trans (of_decide_eq_true atLeast) more⟩

theorem ClaimsSent.tick {f : Nat} {events : List Event} {tracker : EpochTracker}
    (claims : ClaimsSent f events tracker) (bound : tracker.networkConfig.f = f)
    (noBare : tracker.NoBareClaim f) :
    let next := EpochTracker.correctEpoch tracker.networkConfig tracker.claims tracker.maxCorrectEpoch
    next = 0 ∨ Supported f events next := by
  rcases EpochTracker.correctEpoch_cases tracker.networkConfig tracker.claims tracker.maxCorrectEpoch with
    same | ⟨isClaim, above, enough⟩
  · rw [same]
    exact claims.supported
  · refine Or.inr (claims.supported_of_count ?_)
    rw [bound] at enough
    exact lt_of_le_of_ne enough (Ne.symm (noBare _ isClaim above))

theorem ClaimsSent.event {st final : SmState} {event : Event} (claims : ClaimsSent f events st.tracker)
    (moved : st.ClaimsMove event final)
    (condition : event = .tickElapsed → st.tracker.networkConfig.f = f ∧ st.tracker.NoBareClaim f) :
    ClaimsSent f (events ++ [event]) final.tracker := by
  have kept (epochs : final.tracker.maxEpochs = st.tracker.maxEpochs) (source : NodeID) (epoch : Nat)
      (found : final.tracker.maxEpochs.lookup source = some epoch) :
      Claimed (events ++ [event]) epoch source := by
    rw [epochs] at found
    exact (claims.sent source epoch found).later event
  have still (same : final.tracker.maxCorrectEpoch = st.tracker.maxCorrectEpoch) :
      final.tracker.maxCorrectEpoch = 0 ∨
        Supported f (events ++ [event]) final.tracker.maxCorrectEpoch := by
    rw [same]
    exact claims.supported.imp_right fun supported => supported.later event
  cases event with
  | tickElapsed =>
    obtain ⟨epochs, correct⟩ := moved
    obtain ⟨bound, noBare⟩ := condition rfl
    refine ⟨kept epochs, ?_⟩
    rw [correct]
    exact (claims.tick bound noBare).imp_right fun supported => supported.later _
  | step source msg =>
    obtain ⟨correct, epochs | ⟨number, isNumber, inserted⟩⟩ := moved
    · exact ⟨kept epochs, still correct⟩
    · refine ⟨fun other epoch found => ?_, still correct⟩
      rw [inserted] at found
      rcases GoMap.of_lookup_insert found with ⟨rfl, rfl⟩ | ⟨_, found⟩
      · -- The claim is the new one or the highest before.
        rcases le_total ((st.tracker.maxEpochs.lookup other).getD 0) number with lower | higher
        · rw [max_eq_right lower]
          exact ⟨msg, number, by simp, isNumber, le_rfl⟩
        · rw [max_eq_left higher]
          cases before : st.tracker.maxEpochs.lookup other with
          | none => exact ⟨msg, number, by simp, isNumber, Nat.zero_le _⟩
          | some earlier => exact (claims.sent other earlier before).later _
      · exact (claims.sent other epoch found).later _
  | _ => exact ⟨kept moved.1, still moved.2⟩

/-! ### Runs -/

/-- Ticks come when the tracker's configuration tolerates `f` faults and no epoch is claimed by
exactly that many nodes. -/
def NoBareClaims (f : Nat) (machine : StateMachine) (event : Event) : Prop :=
  ∀ st, machine = .initialized st → event = .tickElapsed →
    st.tracker.networkConfig.f = f ∧ st.tracker.NoBareClaim f

theorem MachineRun.claimsSent {st : SmState} (run : MachineRun (NoBareClaims f) events (.initialized st)) :
    ClaimsSent f events st.tracker := by
  have both : st.Running ∧ ClaimsSent f events st.tracker := by
    refine run.initialized (fun events st => st.Running ∧ ClaimsSent f events st.tracker) ?_ ?_ ?_
    · intro events my p orders st actions _ ran
      obtain ⟨running, kept⟩ := SmState.wp_reinitialize_running _ _ _ _ ran
      refine ⟨running, fun source epoch found => ?_, Or.inl kept.correct⟩
      rw [kept.epochs] at found
      cases found
    · rintro events st ⟨running, claims⟩
      exact ⟨running, fun source epoch found => (claims.sent source epoch found).later _,
        claims.supported.imp_right fun supported => supported.later _⟩
    · rintro events st st' event fuel orders actions ⟨running, claims⟩ meets ran
      have ready : SmState.Running { st with sh := { st.sh with orders } } :=
        ⟨running.epoch, running.window⟩
      obtain ⟨stillRunning, moved⟩ := SmState.wp_applyEvent_running fuel event ready _ _ _ ran
      have before : ClaimsSent f events (SmState.tracker { st with sh := { st.sh with orders } }) := claims
      exact ⟨stillRunning, before.event moved (meets st rfl)⟩
  exact both.2

/-- The state in which a tick decides whether to give the epoch up. -/
def TrackerState.counted (st : TrackerState) : TrackerState :=
  let maxCorrectEpoch := EpochTracker.correctEpoch st.tracker.networkConfig st.tracker.claims
    st.tracker.maxCorrectEpoch
  { st with tracker := { st.tracker with maxCorrectEpoch } }

theorem EpochTracker.wp_giveUp_later (st : TrackerState) : wp giveUp st fun final _ _ =>
    final.tracker.maxCorrectEpoch = st.tracker.maxCorrectEpoch ∧
      (final.tracker.currentEpoch ≠ st.tracker.currentEpoch → 0 < st.tracker.maxCorrectEpoch) := by
  have correct := claims_giveUp st
  refine wp_mono (wp_and correct ?_) fun final _ _ done => ⟨done.1.2.1, done.2⟩
  refine wp_get_bind ?_
  rw [wp_bind]
  refine wp_get_bind ?_
  split
  · exact wp_fail _ _ _
  · rw [wp_pure]
    split
    · exact fun _ _ _ _ _ => by omega
    · rw [wp_pure]
      exact fun differs => absurd rfl differs

/-- **Faulty nodes cannot forge epoch progress** in a run in which no tick sees an epoch above the
highest correct one that exactly `f` nodes claim: the highest correct epoch is not above every epoch
that `f + 1` nodes have sent a message for, and a tick gives the current epoch up only if a correct
node has sent a message for an epoch that is at least the highest correct one. -/
theorem claimed_epoch_supported {f : Nat} {events : List Event} {st : SmState}
    (run : MachineRun (NoBareClaims f) events (.initialized st)) :
    (∀ bound, (∀ epoch, Supported f events epoch → epoch ≤ bound) →
      st.tracker.maxCorrectEpoch ≤ max 0 bound) ∧
    (NoBareClaims f (.initialized st) .tickElapsed → ∀ faulty : Finset NodeID, faulty.card ≤ f →
      wp EpochTracker.giveUp (TrackerState.counted ⟨st.tracker, st.sh⟩) fun final _ _ =>
        final.tracker.currentEpoch ≠ st.tracker.currentEpoch →
          ∃ source, source ∉ faulty ∧ Claimed events final.tracker.maxCorrectEpoch source) := by
  have claims := run.claimsSent
  constructor
  · intro bound atMost
    rcases claims.supported with zero | supported
    · rw [zero]
      exact Nat.zero_le _
    · exact (atMost _ supported).trans (le_max_right _ _)
  · intro meets faulty tolerable
    obtain ⟨isBound, noBare⟩ := meets st rfl rfl
    refine wp_mono (EpochTracker.wp_giveUp_later _) fun final _ _ ⟨same, later⟩ differs => ?_
    rcases claims.tick isBound noBare with zero | supported
    · exact absurd zero (Nat.pos_iff_ne_zero.mp (later differs))
    · rw [same]
      exact supported.correct tolerable

/-- The check that a tick sees no bare claim. -/
def noBareClaims (f : Nat) (machine : StateMachine) (event : Event) : Bool :=
  match machine, event with
  | .initialized st, .tickElapsed => st.tracker.networkConfig.f == f && st.tracker.claims.all fun epoch =>
      decide (epoch ≤ st.tracker.maxCorrectEpoch) || st.tracker.claims.countP (epoch ≤ ·) != f
  | _, _ => true

theorem noBareClaims_sound (machine : StateMachine) (event : Event)
    (checked : noBareClaims f machine event = true) : NoBareClaims f machine event := by
  rintro st rfl rfl
  obtain ⟨bound, all⟩ := Bool.and_eq_true_iff.mp checked
  refine ⟨eq_of_beq bound, fun epoch member above => ?_⟩
  rcases Bool.or_eq_true_iff.mp (List.all_eq_true.mp all epoch member) with low | differs
  · exact absurd (of_decide_eq_true low) (Nat.not_le.mpr above)
  · exact bne_iff_ne.mp differs

/-- Two of four nodes suspect epoch 100: its number is the highest correct epoch after the next
tick, and every epoch that two nodes have sent a message for is at most 100. -/
theorem two_claims_supported : ∃ st, MachineRun (NoBareClaims 1)
    (NewNode.events ++ [.step 2 (.suspect 100), .step 3 (.suspect 100), .tickElapsed]) (.initialized st) ∧
    st.tracker.maxCorrectEpoch = 100 ∧
    ∀ bound, (∀ epoch, Supported 1 (NewNode.events ++
      [.step 2 (.suspect 100), .step 3 (.suspect 100), .tickElapsed]) epoch → epoch ≤ bound) →
      st.tracker.maxCorrectEpoch ≤ max 0 bound := by
  obtain ⟨st, run, holds⟩ := MachineRun.exists_of_executed (@noBareClaims_sound 1) 10
    (NewNode.events ++ [.step 2 (.suspect 100), .step 3 (.suspect 100), .tickElapsed])
    (fun st => st.tracker.maxCorrectEpoch = 100) (by decide +kernel)
  exact ⟨st, run, holds, (claimed_epoch_supported run).1⟩

/-- The events of a node that one faulty node tells about epoch 100, and twelve ticks. -/
def forgedEvents : List Event :=
  NewNode.events ++ .step 3 (.suspect 100) :: List.replicate 12 .tickElapsed

/-- **One of four nodes forges epoch progress**: the node gives its epoch up for epoch 100, which no
other node has ever sent a message for. -/
theorem one_claim_abandons : ∃ st, MachineRun (fun _ _ => True) forgedEvents (.initialized st) ∧
    (∀ source msg, .step source msg ∈ forgedEvents → source = 3) ∧
    st.tracker.maxCorrectEpoch = 100 ∧ st.tracker.currentEpoch.map EpochTarget.number = some 100 := by
  obtain ⟨st, run, holds⟩ := MachineRun.exists_of_evaluated 10 forgedEvents
    (fun st => st.tracker.maxCorrectEpoch = 100 ∧
      st.tracker.currentEpoch.map EpochTarget.number = some 100) (by decide +kernel)
  refine ⟨st, run, fun source msg member => ?_, holds⟩
  simp [forgedEvents, NewNode.events, FourNodes.start] at member
  exact member.1

end MirBft
