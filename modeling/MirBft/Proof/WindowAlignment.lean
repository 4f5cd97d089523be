/-
**The two windows of a client stay aligned.**

The committer counts what commits and records client states at checkpoints (`CommittingClient`); the
disseminator prunes and extends its window when the result of a checkpoint arrives
(`Client.allocate`). `WindowRun` runs the two side by side, without reconfiguration: commits,
checkpoints, their results, all other calls of the client, and restarts from the state of a later
checkpoint.

* `Surplus` — the slice of the committer is never exactly what the last checkpoint left of the
  width, unless that checkpoint consumed nothing or all. So a checkpoint that consumes the whole
  slice consumes the whole width;
* `Aligned` — the state that is recorded goes with the window it will be given to.
-/

import MirBft.Proof.ClientStates
import MirBft.Proof.ClientWindows

namespace MirBft

open Proc List Client

namespace CommittingClient

variable {cc after : CommittingClient} {state : ClientState}

/-- The slice goes beyond what the last checkpoint left of the width, if it consumed a part of
it. -/
def Surplus (cc : CommittingClient) : Prop :=
  cc.lastState.widthConsumedLastCheckpoint = 0 ∨ cc.committedSinceLastCheckpoint = [] ∨
    cc.lastState.width < cc.committedSinceLastCheckpoint.length + cc.lastState.widthConsumedLastCheckpoint

theorem surplus_new {seqNo : Nat} (created : newCommittingClient seqNo state = .ok cc) : cc.Surplus := by
  obtain ⟨isLast, length, _⟩ := newCommittingClient_eq_ok created
  unfold Surplus
  rw [isLast]
  omega

theorem Surplus.markCommitted {seqNo reqNo : Nat} (surplus : cc.Surplus)
    (marked : cc.markCommitted seqNo reqNo = .ok after) : after.Surplus ∧ after.lastState = cc.lastState := by
  obtain ⟨_, inside, rfl⟩ := markCommitted_eq_ok.mp marked
  refine ⟨?_, rfl⟩
  unfold Surplus
  rw [length_set]
  rcases surplus with idle | empty | beyond
  · exact .inl idle
  · rw [empty] at inside
    cases inside
  · exact .inr (.inr beyond)

/-- **A recorded state continues the last one**: the low watermark moves by what is consumed, a part
of the width. -/
structure Continues (last state : ClientState) : Prop where
  sameId : state.id = last.id
  sameWidth : state.width = last.width
  low : state.lowWatermark = last.lowWatermark + state.widthConsumedLastCheckpoint
  fits : state.widthConsumedLastCheckpoint ≤ state.width

/-- **Every state that is recorded continues the last one.** -/
theorem Surplus.checkpoint (surplus : cc.Surplus) (created : cc.createCheckpointState = .ok (state, after)) :
    after.Surplus ∧ after.lastState = state ∧ Continues cc.lastState state := by
  cases checkpointed created with
  | idle _ => exact ⟨.inl rfl, rfl, rfl, rfl, rfl, Nat.zero_le _⟩
  | full busy _ isWidth =>
    -- The slice is as long as the width: otherwise it would go beyond what was left.
    have length : cc.committedSinceLastCheckpoint.length = cc.lastState.width := by
      rcases surplus with idle | empty | beyond
      · omega
      · exact absurd (fun offset => by rw [empty]; rfl) busy
      · omega
    refine ⟨.inr (.inl rfl), rfl, rfl, rfl, ?_, le_refl _⟩
    show cc.lastState.lowWatermark + cc.committedSinceLastCheckpoint.length =
      cc.lastState.lowWatermark + cc.lastState.width
    rw [length]
  | @part count _ _ first narrow _ _ isState =>
    subst isState
    refine ⟨?_, rfl, rfl, rfl, rfl, narrow⟩
    have length : (cc.remaining count).length =
        cc.committedSinceLastCheckpoint.length - count + (cc.lastState.width - count) := by
      simp [remaining]
    have inside := first.inside
    unfold Surplus
    dsimp only
    omega

end CommittingClient

/-- **A client in both components**: the committer's, the disseminator's, the tracker that it feeds,
and the state of the checkpoint whose result is awaited. -/
structure ClientPair where
  committing : CommittingClient
  client : Client
  tracker : ClientTracker
  pending : Option ClientState

/-- The call is neither for a checkpoint nor for a restart. -/
def ClientCall.Ordinary : ClientCall → Prop
  | .allocate .. | .restart .. => False
  | _ => True

/-- **A process lifetime** of a client in both components, and what is emitted. -/
inductive WindowRun (myID : NodeID) : ClientPair → List Action → Prop
  | start {seqNo : Nat} {networkConfig : NetworkConfig} {state : ClientState} {committing : CommittingClient}
      {client : Client} {tracker : ClientTracker} {actions : List Action}
      (fits : state.widthConsumedLastCheckpoint ≤ state.width)
      (created : newCommittingClient seqNo state = .ok committing)
      (started : Client.reinitialize none seqNo networkConfig state false ClientTracker.reinitialize =
        .ok (tracker, actions, client)) :
      WindowRun myID ⟨committing, client, tracker, none⟩ actions
  | commit {pair : ClientPair} {emitted : List Action} {seqNo reqNo : Nat} {committing : CommittingClient}
      (ran : WindowRun myID pair emitted)
      (marked : pair.committing.markCommitted seqNo reqNo = .ok committing) :
      WindowRun myID { pair with committing } emitted
  | checkpoint {pair : ClientPair} {emitted : List Action} {state : ClientState}
      {committing : CommittingClient} (ran : WindowRun myID pair emitted) (idle : pair.pending = none)
      (created : pair.committing.createCheckpointState = .ok (state, committing)) :
      WindowRun myID { pair with committing, pending := some state } emitted
  /-- The result of the checkpoint, with the state that was recorded. -/
  | result {pair : ClientPair} {emitted actions : List Action} {seqNo : Nat} {networkState : NetworkState}
      {state : ClientState} {client : Client} {tracker : ClientTracker} (ran : WindowRun myID pair emitted)
      (isPending : pair.pending = some state)
      (isState : networkState.client? pair.client.clientState.id = some state)
      (settled : networkState.pendingReconfigurations = [])
      (called : pair.client.call myID (.allocate seqNo networkState) pair.tracker = .ok
        (tracker, actions, client)) :
      WindowRun myID { pair with client, tracker, pending := none } (emitted ++ actions)
  | call {pair : ClientPair} {emitted actions : List Action} {made : ClientCall} {client : Client}
      {tracker : ClientTracker} (ran : WindowRun myID pair emitted) (ordinary : made.Ordinary)
      (called : pair.client.call myID made pair.tracker = .ok (tracker, actions, client)) :
      WindowRun myID { pair with client, tracker } (emitted ++ actions)
  /-- A restart from the state of the same or of a later checkpoint. -/
  | restart {pair : ClientPair} {emitted actions : List Action} {seqNo : Nat} {networkState : NetworkState}
      {state : ClientState} {committing : CommittingClient} {client : Client} {tracker : ClientTracker}
      (ran : WindowRun myID pair emitted)
      (isState : networkState.client? pair.client.clientState.id = some state)
      (settled : networkState.pendingReconfigurations = [])
      (forward : pair.client.clientState.lowWatermark ≤ state.lowWatermark)
      (sameWidth : state.width = pair.client.clientState.width)
      (fits : state.widthConsumedLastCheckpoint ≤ state.width)
      (created : newCommittingClient seqNo state = .ok committing)
      (called : pair.client.call myID (.restart seqNo networkState) pair.tracker = .ok
        (tracker, actions, client)) :
      WindowRun myID ⟨committing, client, tracker, none⟩ (emitted ++ actions)

/-- **The windows are aligned**, and the request numbers up to the high watermark have been
announced in order. -/
structure ClientPair.Aligned (pair : ClientPair) (emitted : List Action) : Prop where
  windowed : pair.client.Windowed
  high : pair.client.highWatermark = pair.client.clientState.lowWatermark + pair.client.clientState.width
  surplus : pair.committing.Surplus
  last : pair.committing.lastState = pair.pending.getD pair.client.clientState
  continues : ∀ state ∈ pair.pending, CommittingClient.Continues pair.client.clientState state
  ascending : (announced emitted).Pairwise fun one two => one.2 < two.2
  below : ∀ entry ∈ announced emitted, entry.2 ≤ pair.client.highWatermark
  covers : ∀ reqNo, pair.client.clientState.lowWatermark ≤ reqNo → reqNo ≤ pair.client.highWatermark →
    (pair.client.clientState.id, reqNo) ∈ announced emitted

/-- An ordinary call leaves the window where it is, and announces nothing. -/
theorem Client.Steps.ordinary {myID : NodeID} {c next : Client} {tracker after : ClientTracker}
    {made : ClientCall}
    {actions : List Action} (steps : Steps myID c tracker made next after actions)
    (isOrdinary : made.Ordinary) :
    next.clientState = c.clientState ∧ next.highWatermark = c.highWatermark ∧ announced actions = [] := by
  have acked {source : NodeID} {digest : Bytes} {crn crn' : ClientReqNo} {sent : List Action}
      (called : crn.call (.ack c.networkConfig source digest) = .ok (crn', sent)) : announced sent = [] := by
    cases called
    split <;> rfl
  cases steps with
  | outside => exact ⟨rfl, rfl, rfl⟩
  | @persist _ digest crn crn' _ _ called =>
    have result : crn.applyNewRequest (crn.ackOf digest) = (crn', actions) := Except.ok.inj called
    refine ⟨rfl, rfl, ?_⟩
    have silent := @ClientReqNo.announced_applyNewRequest crn (crn.ackOf digest)
    rwa [result] at silent
  | strong _ called => exact ⟨rfl, rfl, acked called⟩
  | weak _ called => exact ⟨rfl, rfl, acked called⟩
  | fetch _ called =>
    refine ⟨rfl, rfl, ?_⟩
    simp only [ClientReqNo.call] at called
    split at called
    · cases called
      rfl
    · cases called
      exact (ClientReqNo.askFor_fetch _).announced
  | tick silent => exact ⟨rfl, rfl, silent⟩
  | allocate => exact isOrdinary.elim
  | restart => exact isOrdinary.elim
  | lists => exact ⟨rfl, rfl, rfl⟩

theorem not_reconfiguring {networkState : NetworkState}
    (settled : networkState.pendingReconfigurations = []) : networkState.reconfiguring = false := by
  unfold NetworkState.reconfiguring
  rw [settled]
  rfl

namespace ClientPair.Aligned

variable {pair : ClientPair} {emitted actions : List Action} {state : ClientState} {seqNo : Nat}
  {networkState : NetworkState} {client : Client} {tracker : ClientTracker} {myID : NodeID}

variable (aligned : pair.Aligned emitted)
include aligned

theorem pending_aligned (isPending : pair.pending = some state) :
    Client.intermediateHighWatermark state = pair.client.highWatermark := by
  have continues := aligned.continues state isPending
  have low := continues.low
  have width := continues.sameWidth
  unfold Client.intermediateHighWatermark
  rw [aligned.high]
  omega

/-- **The window moves on**: its new request numbers are announced, above the ones before. -/
theorem move {committing : CommittingClient} {reqNos : List Nat}
    (sameId : pair.client.clientState.id = state.id) (sameWidth : state.width = pair.client.clientState.width)
    (forward : pair.client.clientState.lowWatermark ≤ state.lowWatermark) (windowed : client.Windowed)
    (current : client.clientState = state) (high : client.highWatermark = Client.newHighWatermark state false)
    (surplus : committing.Surplus) (last : committing.lastState = state) (sorted : reqNos.Pairwise (· < ·))
    (above : ∀ reqNo ∈ reqNos, pair.client.highWatermark < reqNo ∧ reqNo ≤ client.highWatermark)
    (all : ∀ reqNo, pair.client.highWatermark < reqNo → state.lowWatermark ≤ reqNo →
      reqNo ≤ client.highWatermark → reqNo ∈ reqNos) :
    ClientPair.Aligned ⟨committing, client, tracker, none⟩
      (emitted ++ reqNos.map (.allocatedRequest state.id)) := by
  have isHigh : client.highWatermark = state.lowWatermark + state.width := high
  refine ⟨windowed, ?_, surplus, last.trans current.symm, fun _ isNone => absurd isNone
    (Option.not_mem_none _), ?_,
    fun entry member => ?_, fun reqNo low inside => ?_⟩
  · rw [current, isHigh]
  · rw [announced_append, announced_map]
    refine pairwise_append.mpr ⟨aligned.ascending, pairwise_map.mpr sorted, fun one isOne two isTwo => ?_⟩
    obtain ⟨reqNo, member, rfl⟩ := mem_map.mp isTwo
    exact (aligned.below one isOne).trans_lt (above reqNo member).1
  · rw [announced_append, announced_map] at member
    rcases mem_append.mp member with before | isNew
    · refine (aligned.below entry before).trans ?_
      rw [aligned.high, isHigh, sameWidth]
      exact Nat.add_le_add_right forward _
    · obtain ⟨reqNo, isReqNo, rfl⟩ := mem_map.mp isNew
      exact (above reqNo isReqNo).2
  · rw [current] at low ⊢
    rw [announced_append, announced_map, mem_append]
    rcases Nat.lt_or_ge pair.client.highWatermark reqNo with isAbove | isOld
    · exact .inr (mem_map_of_mem (all reqNo isAbove low inside))
    · rw [← sameId]
      exact .inl (aligned.covers reqNo (forward.trans low) isOld)

/-- **The result of a checkpoint** moves the window to where the committer is. -/
theorem result (isPending : pair.pending = some state)
    (isState : networkState.client? pair.client.clientState.id = some state)
    (settled : networkState.pendingReconfigurations = [])
    (called : pair.client.call myID (.allocate seqNo networkState) pair.tracker = .ok
      (tracker, actions, client)) :
    ClientPair.Aligned { pair with client, tracker, pending := none } (emitted ++ actions) := by
  have continues := aligned.continues state isPending
  have forward : pair.client.clientState.lowWatermark ≤ state.lowWatermark := by
    rw [continues.low]
    exact Nat.le_add_right _ _
  have regular : pair.client.Regular (.allocate seqNo networkState) := by
    intro other isOther
    rw [isState] at isOther
    cases isOther
    exact ⟨forward, continues.fits⟩
  have steps := steps_of_call aligned.windowed regular _ _ _ called
  have windowed := steps.windowed aligned.windowed
  cases steps with
  | @allocate _ _ other collected _ moved mark isOther isAligned _ moves advances =>
  rw [isState] at isOther
  cases isOther
  rw [not_reconfiguring settled] at moves ⊢
  have high : moved.highWatermark = Client.newHighWatermark state false := moves.high
  refine aligned.move continues.sameId.symm continues.sameWidth forward windowed moves.current high
    aligned.surplus (aligned.last.trans (by rw [isPending]; rfl)) pairwise_lt_range' (fun reqNo member => ?_)
    fun reqNo above _ inside => ?_
  · have inside := mem_range'_1.mp member
    show _ ∧ reqNo ≤ moved.highWatermark
    omega
  · change reqNo ≤ moved.highWatermark at inside
    exact mem_range'_1.mpr (by omega)

/-- **A restart** from the state of the same or of a later checkpoint. -/
theorem restart {committing : CommittingClient}
    (isState : networkState.client? pair.client.clientState.id = some state)
    (settled : networkState.pendingReconfigurations = [])
    (forward : pair.client.clientState.lowWatermark ≤ state.lowWatermark)
    (sameWidth : state.width = pair.client.clientState.width)
    (fits : state.widthConsumedLastCheckpoint ≤ state.width)
    (created : newCommittingClient seqNo state = .ok committing)
    (called : pair.client.call myID (.restart seqNo networkState) pair.tracker = .ok
      (tracker, actions, client)) :
    ClientPair.Aligned ⟨committing, client, tracker, none⟩ (emitted ++ actions) := by
  have regular : pair.client.Regular (.restart seqNo networkState) := by
    intro other isOther
    rw [isState] at isOther
    cases isOther
    exact fits
  have steps := steps_of_call aligned.windowed regular _ _ _ called
  have windowed := steps.windowed aligned.windowed
  cases steps with
  | @restart _ _ other _ restarted mark isOther restarts advances =>
  rw [isState] at isOther
  cases isOther
  rw [not_reconfiguring settled] at restarts ⊢
  have high : restarted.highWatermark = Client.newHighWatermark state false := restarts.high
  -- What is not in the old window is above it.
  have isNew {reqNo : Nat} : reqNo ∈ Client.newNumbers (some pair.client) (List.range' state.lowWatermark
      (Client.newHighWatermark state false + 1 - state.lowWatermark)) ↔
        pair.client.highWatermark < reqNo ∧ state.lowWatermark ≤ reqNo ∧ reqNo ≤ restarted.highWatermark := by
    have inWindow := @Client.Windowed.isSome_iff pair.client reqNo aligned.windowed
    rw [Client.newNumbers, mem_filter, mem_range'_1, Option.bind_some, ← Option.not_isSome, Bool.not_eq_true',
      ← Bool.not_eq_true, inWindow]
    omega
  exact aligned.move (Client.client?_id isState).symm sameWidth forward windowed restarts.current high
    (CommittingClient.surplus_new created) (CommittingClient.newCommittingClient_eq_ok created).1
    (List.Pairwise.filter _ pairwise_lt_range')
      (fun reqNo member => ⟨(isNew.mp member).1, (isNew.mp member).2.2⟩)
    fun reqNo above low inside => isNew.mpr ⟨above, low, inside⟩

end ClientPair.Aligned

namespace WindowRun

variable {myID : NodeID} {pair : ClientPair} {emitted : List Action}

theorem aligned_started {seqNo : Nat} {networkConfig : NetworkConfig} {state : ClientState}
    {committing : CommittingClient} {client : Client} {tracker : ClientTracker} {actions : List Action}
    (fits : state.widthConsumedLastCheckpoint ≤ state.width)
    (created : newCommittingClient seqNo state = .ok committing)
    (started : Client.reinitialize none seqNo networkConfig state false ClientTracker.reinitialize =
      .ok (tracker, actions, client)) : ClientPair.Aligned ⟨committing, client, tracker, none⟩ actions := by
  obtain ⟨rfl, restarted, mark, restarts, advances, rfl⟩ := (safe_restart seqNo networkConfig false
    (fun _ isOld => absurd isOld (Option.not_mem_none _))
    (fun _ isOld => absurd isOld (Option.not_mem_none _))
    fits _).2 _ _ _ started
  have all : Client.newNumbers none (List.range' state.lowWatermark (Client.newHighWatermark state false + 1 -
      state.lowWatermark)) = List.range' state.lowWatermark (Client.newHighWatermark state false + 1 -
      state.lowWatermark) := filter_eq_self.mpr fun _ _ => rfl
  have current : restarted.clientState = state := restarts.current
  have high : restarted.highWatermark = Client.newHighWatermark state false := restarts.high
  refine ⟨restarts.windowed.advanced advances, ?_, CommittingClient.surplus_new created, ?_,
    fun _ isNone => absurd isNone (Option.not_mem_none _), ?_, fun entry member => ?_,
      fun reqNo above below => ?_⟩
  · rw [current, high]
    rfl
  · exact (CommittingClient.newCommittingClient_eq_ok created).1.trans current.symm
  · rw [all, announced_map]
    exact pairwise_map.mpr pairwise_lt_range'
  · rw [all, announced_map] at member
    obtain ⟨reqNo, isReqNo, rfl⟩ := mem_map.mp member
    have inside := mem_range'_1.mp isReqNo
    show reqNo ≤ restarted.highWatermark
    omega
  · change reqNo ≤ restarted.highWatermark at below
    rw [current] at above ⊢
    rw [all, announced_map]
    exact mem_map_of_mem (mem_range'_1.mpr (by omega))

/-- **In every run the windows are aligned.** -/
theorem aligned (ran : WindowRun myID pair emitted) : pair.Aligned emitted := by
  induction ran with
  | start fits created started => exact aligned_started fits created started
  | commit _ marked ih =>
    obtain ⟨surplus, sameLast⟩ := ih.surplus.markCommitted marked
    exact ⟨ih.windowed, ih.high, surplus, sameLast.trans ih.last, ih.continues, ih.ascending,
      ih.below, ih.covers⟩
  | checkpoint _ idle created ih =>
    obtain ⟨surplus, isLast, continues⟩ := ih.surplus.checkpoint created
    rw [ih.last, idle] at continues
    refine ⟨ih.windowed, ih.high, surplus, isLast, fun state isState => ?_, ih.ascending, ih.below, ih.covers⟩
    cases isState
    exact continues
  | @result pair emitted actions seqNo networkState state client tracker _ isPending isState settled
      called ih =>
    exact ih.result isPending isState settled called
  | @call pair emitted actions made client tracker _ ordinary called ih =>
    have regular : pair.client.Regular made := by
      cases made <;> first | exact ordinary.elim | trivial
    have steps := steps_of_call ih.windowed regular _ _ _ called
    obtain ⟨sameState, sameHigh, silent⟩ := steps.ordinary ordinary
    have same : announced (emitted ++ actions) = announced emitted := by
      rw [announced_append, silent, append_nil]
    refine ⟨steps.windowed ih.windowed, ?_, ih.surplus, ?_, ?_, ?_, ?_, ?_⟩
    · rw [sameState, sameHigh]
      exact ih.high
    · rw [sameState]
      exact ih.last
    · rw [sameState]
      exact ih.continues
    · rw [same]
      exact ih.ascending
    · rw [same, sameHigh]
      exact ih.below
    · rw [same, sameHigh, sameState]
      exact ih.covers
  | restart _ isState settled forward sameWidth fits created called ih =>
    exact ih.restart isState settled forward sameWidth fits created called

/-- **The windows of a client.** In every run without reconfiguration the request numbers of the
window are those from the low watermark to the high watermark, which is the width above it, in
ascending order; the ready mark is among them or right above them; each of them has been announced
once, and none a second time. The state of a checkpoint is accepted when its result arrives, and
every lookup of a request number inside the watermarks succeeds, as do all that `advanceReady`
makes, and `reinitialize` succeeds from every state of the client. -/
theorem windows_aligned (ran : WindowRun myID pair emitted) :
    let c := pair.client
    let state := c.clientState
    (c.reqNoList = List.range' state.lowWatermark (state.width + 1) ∧
      (∀ reqNo, (c.lookupReqNo reqNo).isSome = true ↔ state.lowWatermark ≤ reqNo ∧ reqNo ≤ c.highWatermark) ∧
      c.highWatermark = state.lowWatermark + state.width) ∧
    (state.lowWatermark ≤ c.nextReadyMark ∧ c.nextReadyMark ≤ c.highWatermark + 1) ∧
    ((∀ entry, (announced emitted).count entry ≤ 1) ∧
      ∀ reqNo, state.lowWatermark ≤ reqNo → reqNo ≤ c.highWatermark →
        (announced emitted).count (state.id, reqNo) = 1) ∧
    (∀ recorded ∈ pair.pending, ∀ seqNo tracker, ∃ result,
      c.allocate seqNo recorded false tracker = .ok result) ∧
    (∀ reqNo, c.inWatermarks reqNo = true → ∃ crn, c.reqNo reqNo = .ok crn) ∧
    (∀ tracker, ∃ result, c.advanceReady tracker = .ok result) ∧
    ∀ seqNo networkConfig (recorded : ClientState) reconfiguring tracker, recorded.id = state.id →
      recorded.widthConsumedLastCheckpoint ≤ recorded.width → ∃ result,
        Client.reinitialize (some c) seqNo networkConfig recorded reconfiguring tracker = .ok result := by
  have aligned := ran.aligned
  have windowed := aligned.windowed
  have distinct : (announced emitted).Nodup := aligned.ascending.imp fun less same => by
    rw [same] at less
    exact absurd less (Nat.lt_irrefl _)
  refine ⟨⟨?_, fun reqNo => windowed.isSome_iff, aligned.high⟩, ⟨windowed.lower, windowed.upper⟩,
    ⟨nodup_iff_count_le_one.mp distinct, fun reqNo low high => ?_⟩,
    fun recorded isPending seqNo tracker => ?_,
    fun reqNo inside => ?_, fun tracker => ?_,
    fun seqNo networkConfig recorded reconfiguring tracker sameId fits => ?_⟩
  · rw [windowed.list, aligned.high, Nat.add_assoc, Nat.add_sub_cancel_left]
  · exact count_eq_one_of_mem distinct (aligned.covers reqNo low high)
  · have continues := aligned.continues recorded isPending
    have forward : pair.client.clientState.lowWatermark ≤ recorded.lowWatermark := by
      rw [continues.low]
      exact Nat.le_add_right _ _
    exact exists_of_safe (safe_allocate windowed continues.sameId.symm forward continues.fits
      (aligned.pending_aligned isPending) tracker)
  · have bounds : reqNo ≤ pair.client.highWatermark ∧ pair.client.clientState.lowWatermark ≤ reqNo := by
      simpa [Client.inWatermarks] using inside
    obtain ⟨crn, _, isNumber⟩ := windowed.reqNo_isOk bounds.2 bounds.1
    exact ⟨crn, isNumber⟩
  · exact exists_of_safe (safe_advanceReady windowed tracker)
  · refine exists_of_safe (safe_restart seqNo networkConfig reconfiguring ?_ ?_ fits tracker)
    · rintro _ ⟨⟩
      exact windowed
    · rintro _ ⟨⟩
      exact sameId.symm

/-- A window of two whose first request commits: the state of the checkpoint is accepted. -/
theorem windows_aligned_commit :
    ∃ pair emitted state, WindowRun 0 pair emitted ∧ pair.pending = some state ∧ state.lowWatermark = 1 ∧
      ∃ result, pair.client.allocate 5 state false pair.tracker = .ok result := by
  have started : WindowRun 0 _ _ := @start 0 0 FourNodes.networkConfig ⟨7, 2, 0, 0, []⟩ _ _ _ _ (by decide)
    rfl rfl
  have committed := @commit 0 _ _ 1 0 _ started rfl
  have recorded := committed.checkpoint rfl rfl
  exact ⟨_, _, _, recorded, rfl, rfl, (windows_aligned recorded).2.2.2.1 _ rfl 5 _⟩

end WindowRun

end MirBft
