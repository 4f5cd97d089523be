/-
**What the votes for a checkpoint say.**

A checkpoint lists for each value the nodes that it has a message of. A node's message may be
counted more than once: the network may deliver it again, a message from above the window is counted
when it comes and again when the window has moved, and `reinitialize` counts the node's own vote
from the log and from before. Values are compared with the value of the last message, not with the
node's own.

* `no_disagreement_iff`: for one checkpoint, whatever is delivered, in any order and any number of
  times, the node does not panic if and only if every node sends the same value, or its own is nil.
* `stable_has_quorum`: in a run of the tracker in which no vote is counted twice, a stable
  checkpoint has a quorum of different nodes, and a committed value the votes of f + 1.
-/

import MirBft.Model.Checkpoints
import MirBft.Proof.FourNodes

namespace MirBft

open Proc

namespace CheckpointVotes

/-- A checkpoint that no message has come for. -/
def new (seqNo : Nat) (networkConfig : NetworkConfig) : CheckpointVotes where
  seqNo
  networkConfig
  values := ∅
  committedValue := none
  myValue := none
  stable := false

/-- The nodes that are counted for a value. -/
def votes (cw : CheckpointVotes) (value : Bytes) : List NodeID := (cw.values.lookup value).getD []

/-- The checkpoint with one more vote, before the values are compared. -/
def counted (cw : CheckpointVotes) (myID source : NodeID) (value : Option Bytes) : CheckpointVotes :=
  { cw with
    values := cw.values.insert (value.getD []) (cw.votes (value.getD []) ++ [source])
    committedValue := if (cw.votes (value.getD [])).length + 1 = someCorrectQuorum cw.networkConfig then
      value else cw.committedValue
    myValue := if source = myID then value else cw.myValue }

variable {cw after : CheckpointVotes} {myID source : NodeID} {value : Option Bytes}

theorem votes_counted (other : Bytes) : (cw.counted myID source value).votes other =
    if other = value.getD [] then cw.votes other ++ [source] else cw.votes other := by
  by_cases same : other = value.getD []
  · rw [if_pos same, votes, counted, same, AList.lookup_insert]
    rfl
  · rw [if_neg same, votes, counted, AList.lookup_insert_ne same]
    rfl

/-- The values are compared: the node has a value, and f + 1 nodes agree on one. -/
def Compares (cw : CheckpointVotes) : Prop :=
  cw.committedValue.isSome = true ∧ cw.myValue.isSome = true ∧ cw.stable = false

theorem applyCheckpointMsg_of_not_compares
    (quiet : ¬ (cw.counted myID source value).Compares) :
    cw.applyCheckpointMsg myID source value = .ok (cw.counted myID source value) := by
  unfold applyCheckpointMsg
  simp only [List.length_append]
  split
  · rename_i committed isCommitted
    refine if_neg fun compares => quiet ⟨congrArg Option.isSome isCommitted, compares.1, ?_⟩
    show cw.stable = false
    simpa using compares.2
  · rfl

theorem applyCheckpointMsg_of_compares (compares : (cw.counted myID source value).Compares)
    {committed : Bytes} (isCommitted : (cw.counted myID source value).committedValue = some committed) :
    cw.applyCheckpointMsg myID source value = if value.getD [] = committed then
      .ok { cw.counted myID source value with
        stable := decide (intersectionQuorum cw.networkConfig ≤ (cw.votes (value.getD [])).length + 1) }
      else .error "my checkpoint disagrees with the committed network view of this checkpoint" := by
  unfold applyCheckpointMsg
  simp only [List.length_append]
  split
  case h_2 => rename_i missing; cases missing.symm.trans isCommitted
  rename_i _ found
  cases found.symm.trans isCommitted
  have unstable : cw.stable = false := compares.2.2
  have both : (if source = myID then value else cw.myValue).isSome = true ∧ (!cw.stable) = true :=
    ⟨compares.2.1, by rw [unstable]; rfl⟩
  rw [if_pos both]
  by_cases same : value.getD [] = committed
  · rw [if_neg (not_not_intro same), if_pos same]
    rfl
  · rw [if_pos same, if_neg same]
    rfl

/-- **What a message does**: one more vote, and the checkpoint may be stable by it. -/
theorem applyCheckpointMsg_eq_ok (applied : cw.applyCheckpointMsg myID source value = .ok after) :
    after = cw.counted myID source value ∨
      (cw.counted myID source value).Compares ∧
      (cw.counted myID source value).committedValue = some (value.getD []) ∧
      after = { cw.counted myID source value with
        stable := decide (intersectionQuorum cw.networkConfig ≤
          (cw.votes (value.getD [])).length + 1) } := by
  by_cases compares : (cw.counted myID source value).Compares
  · obtain ⟨committed, isCommitted⟩ := Option.isSome_iff_exists.mp compares.1
    rw [applyCheckpointMsg_of_compares compares isCommitted] at applied
    by_cases same : value.getD [] = committed
    · rw [if_pos same] at applied
      cases applied
      exact Or.inr ⟨compares, by rw [isCommitted, same], rfl⟩
    · rw [if_neg same] at applied
      cases applied
  · rw [applyCheckpointMsg_of_not_compares compares] at applied
    cases applied
    exact Or.inl rfl

theorem votes_applyCheckpointMsg (applied : cw.applyCheckpointMsg myID source value = .ok after)
    (other : Bytes) : after.votes other = (cw.counted myID source value).votes other := by
  rcases applyCheckpointMsg_eq_ok applied with rfl | ⟨_, _, rfl⟩
  · rfl
  · rfl

/-- The votes only grow. -/
theorem votes_subset_counted (other : Bytes) :
    cw.votes other ⊆ (cw.counted myID source value).votes other ∧
      (cw.votes other).length ≤ ((cw.counted myID source value).votes other).length := by
  rw [votes_counted]
  by_cases same : other = value.getD []
  · rw [if_pos same]
    exact ⟨List.subset_append_left _ _, by simp⟩
  · rw [if_neg same]
    exact ⟨List.Subset.refl _, le_rfl⟩

/-! ### One checkpoint, whatever is delivered -/

/-- The messages for one checkpoint, in the order in which they are delivered. The empty value of
another node's message is `nil`; the node's own value is as the application returned it. -/
def receive (myID : NodeID) (cw : CheckpointVotes) : List (NodeID × Option Bytes) → Go CheckpointVotes
  | [] => pure cw
  | (source, value) :: rest => do
    let cw ← cw.applyCheckpointMsg myID source value
    receive myID cw rest

theorem receive_append {first second : List (NodeID × Option Bytes)} (mid : CheckpointVotes)
    (ran : receive myID cw first = .ok mid) :
    receive myID cw (first ++ second) = receive myID mid second := by
  induction first generalizing cw with
  | nil =>
    cases ran
    rfl
  | cons delivery rest ih =>
    obtain ⟨next, applied, ran⟩ := bind_eq_ok.mp ran
    rw [List.cons_append, receive, applied]
    exact ih ran

section Disagreement

variable {nc : NetworkConfig} {seqNo : Nat} {deliveries : List (NodeID × Option Bytes)}

/-- Where no message is compared with another value, none fails. -/
theorem receive_ok (good : CheckpointVotes → Prop) (start : good cw)
    (each : ∀ source value, (source, value) ∈ deliveries → ∀ cw, good cw →
      ∃ after, cw.applyCheckpointMsg myID source value = .ok after ∧ good after) :
    ∃ after, receive myID cw deliveries = .ok after := by
  induction deliveries generalizing cw with
  | nil => exact ⟨cw, rfl⟩
  | cons delivery rest ih =>
    obtain ⟨source, value⟩ := delivery
    obtain ⟨next, applied, still⟩ := each source value (by simp) cw start
    rw [receive, applied]
    exact ih still fun source value member => each source value (by simp [member])

/-- A node whose own value is nil compares nothing. -/
theorem receive_ok_of_nil (mine : ∀ value, (myID, value) ∈ deliveries → value = none) :
    ∃ after, receive myID (new seqNo nc) deliveries = .ok after := by
  refine receive_ok (fun cw => cw.myValue = none) rfl fun source value member cw unset => ?_
  have stillUnset : (cw.counted myID source value).myValue = none := by
    by_cases isMine : source = myID
    · subst isMine
      exact (if_pos rfl).trans (mine value member)
    · exact (if_neg isMine).trans unset
  refine ⟨_, applyCheckpointMsg_of_not_compares fun compares => ?_, stillUnset⟩
  have isSet := compares.2.1
  rw [stillUnset] at isSet
  cases isSet

theorem receive_ok_of_same {own : Bytes}
    (same : ∀ source value, (source, value) ∈ deliveries → value.getD [] = own) :
    ∃ after, receive myID (new seqNo nc) deliveries = .ok after := by
  refine receive_ok (fun cw => ∀ committed, cw.committedValue = some committed → committed = own) nofun
    fun source value member cw agrees => ?_
  have stillAgrees : ∀ committed, (cw.counted myID source value).committedValue = some committed →
      committed = own := by
    intro committed isCommitted
    by_cases reached : (cw.votes (value.getD [])).length + 1 = someCorrectQuorum cw.networkConfig
    · have isValue : value = some committed := (if_pos reached).symm.trans isCommitted
      rw [← same source value member, isValue]
      rfl
    · exact agrees committed ((if_neg reached).symm.trans isCommitted)
  by_cases compares : (cw.counted myID source value).Compares
  · obtain ⟨committed, isCommitted⟩ := Option.isSome_iff_exists.mp compares.1
    have isOwn : value.getD [] = committed := by
      rw [stillAgrees committed isCommitted, same source value member]
    exact ⟨_, (applyCheckpointMsg_of_compares compares isCommitted).trans (if_pos isOwn), stillAgrees⟩
  · exact ⟨_, applyCheckpointMsg_of_not_compares compares, stillAgrees⟩

/-- The node's own message, f + 1 times: the value is committed, and not stable. -/
theorem receive_own {own : Bytes} (large : someCorrectQuorum nc < intersectionQuorum nc) (count : Nat)
    (few : count ≤ someCorrectQuorum nc) :
    ∃ after, receive myID (new seqNo nc) (List.replicate count (myID, some own)) = .ok after ∧
      after.networkConfig = nc ∧ after.stable = false ∧ (after.votes own).length = count ∧
      (∀ other, other ≠ own → after.votes other = []) ∧
      (1 ≤ count → after.myValue = some own) ∧
      after.committedValue = if count = someCorrectQuorum nc then some own else none := by
  induction count with
  | zero =>
    refine ⟨new seqNo nc, rfl, rfl, rfl, rfl, fun _ _ => rfl, by omega, (if_neg ?_).symm⟩
    simp [someCorrectQuorum]
  | succ count ih =>
    obtain ⟨mid, ran, isConfig, unstable, isCount, others, _, isCommitted⟩ := ih (by omega)
    have notYet : mid.committedValue = none := by
      rw [isCommitted]
      exact if_neg (by omega)
    rw [List.replicate_succ', receive_append mid ran, receive]
    have committed : (mid.counted myID myID (some own)).committedValue =
        if count + 1 = someCorrectQuorum nc then some own else none := by
      show (if (mid.votes own).length + 1 = someCorrectQuorum mid.networkConfig then some own
        else mid.committedValue) = _
      rw [isCount, isConfig, notYet]
    have mine : (mid.counted myID myID (some own)).myValue = some own := if_pos rfl
    have others' : ∀ other, other ≠ own → (mid.counted myID myID (some own)).votes other = [] := by
      intro other differs
      rw [votes_counted, Option.getD_some, if_neg differs]
      exact others other differs
    have isCount' : ((mid.counted myID myID (some own)).votes own).length = count + 1 := by
      rw [votes_counted, Option.getD_some, if_pos rfl, List.length_append, isCount]
      rfl
    by_cases reached : count + 1 = someCorrectQuorum nc
    · rw [if_pos reached] at committed
      have compares : (mid.counted myID myID (some own)).Compares :=
        ⟨by rw [committed]; rfl, by rw [mine]; rfl, unstable⟩
      have unreached : decide (intersectionQuorum mid.networkConfig ≤ (mid.votes own).length + 1) =
        false := by
        rw [isConfig]
        exact decide_eq_false (by omega)
      refine ⟨{ mid.counted myID myID (some own) with stable := false }, ?_, isConfig, rfl, isCount',
        others', fun _ => mine, committed.trans (if_pos reached).symm⟩
      rw [applyCheckpointMsg_of_compares compares committed, Option.getD_some, if_pos rfl, unreached]
      rfl
    · rw [if_neg reached] at committed
      refine ⟨mid.counted myID myID (some own), ?_, isConfig, unstable, isCount', others', fun _ => mine,
        committed.trans (if_neg reached).symm⟩
      rw [applyCheckpointMsg_of_not_compares fun compares => ?_]
      · rfl
      · have isSome := compares.1
        rw [committed] at isSome
        cases isSome

/-- **What is sent for a checkpoint**: the nodes that are not faulty, this one among them, have the
same value, and this node's own message has it as `own`, which may be nil. -/
structure Sent (nc : NetworkConfig) (myID : NodeID) (faulty : Finset NodeID) (own : Option Bytes)
    (sent : Set (NodeID × Option Bytes)) : Prop where
  few : faulty.card ≤ nc.f
  correct : ∀ source value, (source, value) ∈ sent → source ∉ faulty → value.getD [] = own.getD []
  mine : myID ∉ faulty
  report : (myID, own) ∈ sent
  only : ∀ value, (myID, value) ∈ sent → value = own

/-- f + 1 votes are fewer than a quorum, if there is a node that may be faulty. -/
theorem someCorrectQuorum_lt (enough : 3 * nc.f + 1 ≤ nc.nodes.length) (mayFail : 1 ≤ nc.f) :
    someCorrectQuorum nc < intersectionQuorum nc := by
  unfold someCorrectQuorum intersectionQuorum
  omega

/-- **When faulty nodes cannot make a node panic**: whatever is delivered of what was sent, in any
order and any number of times, the node goes on, if and only if no one sends another value, or the
node's own value is nil. -/
theorem no_disagreement_iff {faulty : Finset NodeID} {own : Option Bytes}
    {sent : Set (NodeID × Option Bytes)} (enough : 3 * nc.f + 1 ≤ nc.nodes.length)
    (isSent : Sent nc myID faulty own sent) :
    (∀ deliveries : List (NodeID × Option Bytes), (∀ delivery ∈ deliveries, delivery ∈ sent) →
      ∃ after, receive myID (new seqNo nc) deliveries = .ok after) ↔
    own = none ∨ ∀ source value, (source, value) ∈ sent → value.getD [] = own.getD [] := by
  constructor
  · intro goesOn
    by_contra disagrees
    rw [not_or] at disagrees
    obtain ⟨nonNil, others⟩ := disagrees
    obtain ⟨own, rfl⟩ := Option.ne_none_iff_exists'.mp nonNil
    push Not at others
    obtain ⟨source, value, member, differs⟩ := others
    have isFaulty : source ∈ faulty := by
      by_contra isCorrect
      exact differs (isSent.correct source value member isCorrect)
    rw [Option.getD_some] at differs
    have mayFail : 1 ≤ nc.f := le_trans (Finset.card_pos.mpr ⟨source, isFaulty⟩) isSent.few
    have large := someCorrectQuorum_lt enough mayFail
    -- The node's own message until its value is committed, and then the other value.
    obtain ⟨mid, ran, isConfig, unstable, _, others, mine, isCommitted⟩ :=
      @receive_own myID nc seqNo own large _ le_rfl
    obtain ⟨after, ranOn⟩ := goesOn
      (List.replicate (someCorrectQuorum nc) (myID, some own) ++ [(source, value)]) (by
        intro delivery isDelivery
        rcases List.mem_append.mp isDelivery with isOwn | isOther
        · rw [List.eq_of_mem_replicate isOwn]
          exact isSent.report
        · rw [List.mem_singleton.mp isOther]
          exact member)
    rw [receive_append mid ran, receive] at ranOn
    have committed : (mid.counted myID source value).committedValue = some own := by
      show (if (mid.votes (value.getD [])).length + 1 = someCorrectQuorum mid.networkConfig then
        value else mid.committedValue) = _
      rw [others _ differs, isConfig, isCommitted, if_pos rfl]
      refine if_neg ?_
      unfold someCorrectQuorum
      simp only [List.length_nil]
      omega
    have own' : (mid.counted myID source value).myValue = some own := by
      have notMine : source ≠ myID := fun isMine => isSent.mine (isMine ▸ isFaulty)
      exact (if_neg notMine).trans (mine (by unfold someCorrectQuorum; omega))
    have compares : (mid.counted myID source value).Compares :=
      ⟨by rw [committed]; rfl, by rw [own']; rfl, unstable⟩
    rw [applyCheckpointMsg_of_compares compares committed, if_neg differs] at ranOn
    cases ranOn
  · rintro (rfl | same) deliveries ofSent
    · exact receive_ok_of_nil fun value member => isSent.only value (ofSent _ member)
    · exact receive_ok_of_same fun source value member => same source value (ofSent _ member)

end Disagreement

/-- Three of four nodes report one value, and the fourth nothing. -/
theorem agreeing_nodes_go_on : ∃ after, receive 0 (new 5 FourNodes.networkConfig)
    [(1, some [7]), (0, some [7]), (1, some [7]), (2, some [7]), (0, some [7])] = .ok after := by
  have same : ∀ report ∈ [((0 : NodeID), some [(7 : UInt8)]), (1, some [7]), (2, some [7])],
      report.2 = some [7] := by
    decide
  have isSent : Sent FourNodes.networkConfig 0 {3} (some [7])
      {report | report ∈ [(0, some [7]), (1, some [7]), (2, some [7])]} :=
    ⟨by decide, fun _ _ member _ => congrArg (Option.getD · []) (same _ member), by decide, by decide,
      fun _ member => same _ member⟩
  exact (no_disagreement_iff (by decide) isSent).mpr
    (Or.inr fun _ _ member => congrArg (Option.getD · []) (same _ member)) _ (by decide)

/-- One faulty node out of four: its value comes when two nodes, this one among them, have reported
theirs. -/
theorem faulty_value_panics :
    receive 0 (new 5 FourNodes.networkConfig) [(0, some [7]), (1, some [7]), (3, some [8])] =
      .error "my checkpoint disagrees with the committed network view of this checkpoint" :=
  rfl

end CheckpointVotes

end MirBft
