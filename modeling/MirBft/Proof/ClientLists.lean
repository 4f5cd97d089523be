/-
**The two lists that a client feeds.**

* `ready_mark_iff` — the ready mark. It moves with acks, checkpoints and restarts only, so it is
  stuck exactly after a call that completes the request number at the mark without one: its strong
  request is persisted, or a tick promotes the null request there. What the mark has passed and has
  not committed is in the ready list once.
* `available_exact_iff` — the available list. A request is pushed when an ack makes it correct while
  it is here, and at every ack of this node for a correct one. So it is missing if it is stored
  later than that, or after a restart, and there twice after a repeated ack; `Client.Spoils` lists
  the calls.
-/

import MirBft.Proof.ClientWindows

namespace MirBft

open Proc ClientReqNo List

/-! ### Garbage collection -/

variable {α : Type} {keeps : α → Go Bool} {value : α} {keep : Bool}

theorem count_filterAuxM [BEq α] [LawfulBEq α] {list acc kept : List α}
    (ran : list.filterAuxM keeps acc = .ok kept) (isKeep : keeps value = .ok keep) :
    kept.count value = acc.count value + if keep then list.count value else 0 := by
  induction list generalizing acc with
  | nil =>
    cases ran
    split <;> rfl
  | cons first rest ih =>
    obtain ⟨keepsFirst, isFirst, ran⟩ := bind_eq_ok.mp ran
    rw [ih ran]
    rcases eq_or_ne first value with rfl | different
    · rw [isKeep] at isFirst
      cases isFirst
      cases keep with
      | true => simp only [cond_true, count_cons_self, if_true]; omega
      | false => rfl
    · rw [count_cons_of_ne different]
      cases keepsFirst with
      | true => rw [cond_true, count_cons_of_ne different]
      | false => rfl

theorem count_filterM [BEq α] [LawfulBEq α] {list kept : List α}
    (ran : list.filterM keeps = .ok kept) (isKeep : keeps value = .ok keep) :
    kept.count value = if keep then list.count value else 0 := by
  obtain ⟨reversed, filtered, returned⟩ := bind_eq_ok.mp ran
  cases returned
  rw [count_reverse, count_filterAuxM filtered isKeep, count_nil, Nat.zero_add]

/-- A list keeps what the collector does not claim. -/
theorem AppendList.count_collected [BEq α] [LawfulBEq α] {list kept : AppendList α} {collects : α → Go Bool}
    (ran : list.garbageCollect collects = .ok kept) {collected : Bool}
    (isCollected : collects value = .ok collected) :
    kept.contents.count value = if collected then 0 else list.contents.count value := by
  obtain ⟨consumed, ranConsumed, ran⟩ := bind_eq_ok.mp ran
  obtain ⟨pending, ranPending, returned⟩ := bind_eq_ok.mp ran
  cases returned
  have isKept : (do pure (!(← collects value)) : Go Bool) = .ok (!collected) := by
    rw [isCollected]
    rfl
  show (consumed ++ pending).count value = _
  rw [contents, count_append, count_append, count_filterM ranConsumed isKept,
    count_filterM ranPending isKept]
  cases collected <;> rfl

namespace ClientTracker

variable {tracker collected : ClientTracker} {networkState : NetworkState} {clientId : Nat}
  {state : ClientState}

/-- **What a checkpoint leaves in the lists** of a client: what it has not committed. -/
theorem count_allocate (isState : networkState.client? clientId = some state)
    (ran : tracker.allocate networkState = .ok collected) (reqNo : Nat) :
    (collected.readyList.contents.count (clientId, reqNo) =
      if isCommitted reqNo state then 0 else tracker.readyList.contents.count (clientId, reqNo)) ∧
    ∀ digest, collected.availableList.contents.count ⟨clientId, reqNo, digest⟩ =
      if isCommitted reqNo state then 0 else tracker.availableList.contents.count
        ⟨clientId, reqNo, digest⟩ := by
  obtain ⟨available, ranAvailable, ran⟩ := bind_eq_ok.mp ran
  obtain ⟨ready, ranReady, returned⟩ := bind_eq_ok.mp ran
  cases returned
  unfold NetworkState.client? at isState
  refine ⟨AppendList.count_collected ranReady ?_, fun digest => AppendList.count_collected ranAvailable ?_⟩
  · simp only [isState]
    rfl
  · simp only [isState]
    rfl

end ClientTracker

/-! ### Votes -/

namespace ClientReqNo

variable {crn after : ClientReqNo} {clientId reqNo : Nat} {actions : List Action} {digest : Bytes}

/-- The nodes that acked a digest. -/
def agreementsOf (crn : ClientReqNo) (digest : Bytes) : Finset NodeID :=
  ((crn.requests.lookup digest).map ClientRequest.agreements).getD ∅

theorem clientReq_agreements (ack : RequestAck) :
    (crn.clientReq ack).agreements = crn.agreementsOf ack.digest := by
  unfold clientReq agreementsOf
  cases crn.requests.lookup ack.digest <;> rfl

/-- **The votes stay the same.** -/
structure SameVotes (before after : ClientReqNo) : Prop where
  committed : after.committed = before.committed
  strong : after.strongRequests = before.strongRequests
  agreements : ∀ digest, after.agreementsOf digest = before.agreementsOf digest

theorem SameVotes.refl (crn : ClientReqNo) : SameVotes crn crn := ⟨rfl, rfl, fun _ => rfl⟩

theorem SameVotes.trans {first second third : ClientReqNo} (one : SameVotes first second)
    (two : SameVotes second third) : SameVotes first third :=
  ⟨two.committed.trans one.committed, two.strong.trans one.strong,
    fun digest => (two.agreements digest).trans (one.agreements digest)⟩

theorem OnlyFetches.votes (only : OnlyFetches crn after) : SameVotes crn after := by
  refine ⟨by rw [only.rest], by rw [only.rest], fun digest => ?_⟩
  have settled (crn : ClientReqNo) : crn.agreementsOf digest =
      (((crn.requests.lookup digest).map ClientRequest.settled).map ClientRequest.agreements).getD ∅ := by
    rw [Option.map_map]
    rfl
  rw [settled, settled, only.requests]

theorem sameVotes_store (ack : RequestAck) : SameVotes crn (crn.store ack) := by
  refine ⟨rfl, rfl, fun digest => ?_⟩
  unfold agreementsOf
  show (((crn.requests.insert ack.digest { crn.clientReq ack with stored := true }).lookup
    digest).map _).getD ∅ = _
  rcases eq_or_ne digest ack.digest with rfl | different
  · rw [AList.lookup_insert]
    exact clientReq_agreements ack
  · rw [AList.lookup_insert_ne different]

theorem sameVotes_applyNewRequest (ack : RequestAck) : SameVotes crn (crn.applyNewRequest ack).1 := by
  have stored := @sameVotes_store crn ack
  unfold applyNewRequest
  split
  · exact .refl crn
  dsimp only
  split
  · exact ⟨stored.committed, stored.strong, stored.agreements⟩
  split
  · exact stored
  · have both := stored.trans (sameVotes_store (crn.store ack).nullAck)
    exact ⟨both.committed, both.strong, both.agreements⟩

/-- A tick promotes the null request: several requests are correct, and it is not here. -/
def Promotes (crn : ClientReqNo) : Prop := [] ∉ crn.myRequests ∧ crn.weakRequests.length > 1

instance (crn : ClientReqNo) : Decidable crn.Promotes := inferInstanceAs (Decidable (_ ∧ _))

theorem tickConflict_votes : SameVotes crn crn.tickConflict.1 ∧ ∀ digest,
    digest ∈ crn.tickConflict.1.myRequests ↔ digest ∈ crn.myRequests ∨ (digest = [] ∧ crn.Promotes) := by
  unfold tickConflict
  split
  · rename_i promotes
    have stored := @sameVotes_store crn crn.nullAck
    refine ⟨⟨stored.committed, stored.strong, stored.agreements⟩, fun digest => mem_store.trans ?_⟩
    rw [or_comm]
    exact or_congr_right (and_iff_left promotes).symm
  · rename_i calm
    exact ⟨.refl crn, fun digest => (or_iff_left fun both => calm both.2).symm⟩

/-- **A tick changes no votes**, and stores at most the null request. -/
theorem tick_votes (ticked : crn.tick = .ok (after, actions)) :
    SameVotes crn after ∧ ∀ digest, digest ∈ after.myRequests ↔
      digest ∈ crn.myRequests ∨ (digest = [] ∧ crn.committed = false ∧ crn.Promotes) := by
  rcases tick_eq_ok ticked with ⟨isCommitted, rfl, _⟩ | ⟨isCommitted, mid, _, _, _, _, only, _, _, rfl, _⟩
  · refine ⟨.refl after, fun digest => (or_iff_left fun both => ?_).symm⟩
    rw [isCommitted] at both
    cases both.2.1
  obtain ⟨votes, mine⟩ := @tickConflict_votes crn
  have midVotes := votes.trans only.votes
  refine ⟨⟨midVotes.committed, midVotes.strong, midVotes.agreements⟩, fun digest => ?_⟩
  show digest ∈ mid.myRequests ↔ _
  rw [only.stock.mine, mine, isCommitted]
  simp only [true_and]

theorem persist_votes (sound : crn.Sound clientId reqNo)
    (called : crn.call (.persist digest) = .ok (after, actions)) :
    SameVotes crn after ∧ ∀ other, other ∈ after.myRequests ↔ other = digest ∨ other ∈ crn.myRequests := by
  have result : crn.applyNewRequest (crn.ackOf digest) = (after, actions) := Except.ok.inj called
  refine ⟨?_, (applyNewRequest_spec sound result).2.2⟩
  have votes := @sameVotes_applyNewRequest crn (crn.ackOf digest)
  rwa [result] at votes

theorem fetch_only
    (called : crn.call (.fetch digest) = .ok (after, actions)) : OnlyFetches crn after := by
  simp only [call] at called
  split at called
  · cases called
    exact .refl crn
  · rename_i cr found
    cases called
    exact onlyFetches_setRequest found (fetch_settled cr)

theorem passable_iff {added : Bytes → Prop} (votes : SameVotes crn after)
    (mine : ∀ digest, digest ∈ after.myRequests ↔ digest ∈ crn.myRequests ∨ added digest) :
    after.Passable ↔ crn.Passable ∨ ∃ digest ∈ crn.strongRequests, added digest := by
  unfold Passable
  rw [votes.committed, votes.strong, or_assoc]
  simp only [mine, and_or_left, exists_or]

end ClientReqNo

/-! ### The ready mark -/

namespace Client

variable {c next : Client} {myID : NodeID} {tracker after : ClientTracker} {actions : List Action}
  {made : ClientCall} {mark : Nat}

/-- **The mark is where it stops**: it does not pass the request number that it is at. -/
def Unstuck (c : Client) : Prop :=
  c.nextReadyMark ≤ c.highWatermark → ∀ crn, c.lookupReqNo c.nextReadyMark = some crn → ¬ crn.Passable

/-- **The call completes the request number at the mark**, and does not look at the mark: the
request is persisted that is strong there, or a tick promotes the null request, and that is
strong. -/
def Misses (c : Client) : ClientCall → Prop
  | .persist reqNo digest => reqNo = c.nextReadyMark ∧
      ∃ crn ∈ c.lookupReqNo reqNo, digest ∈ crn.strongRequests
  | .tick => ∃ crn ∈ c.lookupReqNo c.nextReadyMark,
    crn.committed = false ∧ crn.Promotes ∧ [] ∈ crn.strongRequests
  | _ => False

instance (c : Client) : Decidable c.Unstuck := inferInstanceAs (Decidable (_ → ∀ crn, _ = some crn → _))

instance (c : Client) (made : ClientCall) : Decidable (c.Misses made) :=
  match made with
  | .persist .. => inferInstanceAs (Decidable (_ ∧ ∃ _ ∈ _, _))
  | .tick => inferInstanceAs (Decidable (∃ _ ∈ _, _))
  | .ack .. | .fetch .. | .allocate .. | .restart .. | .lists _ => isFalse id

/-- What the mark has passed and has not committed is in the list once, and nothing above the mark
is. -/
structure Queued (c : Client) (tracker : ClientTracker) : Prop where
  above : ∀ reqNo, c.nextReadyMark ≤ reqNo →
    tracker.readyList.contents.count (c.clientState.id, reqNo) = 0
  passed : ∀ reqNo, reqNo < c.nextReadyMark → c.isUncommitted reqNo = true →
    tracker.readyList.contents.count (c.clientState.id, reqNo) = 1

theorem Advances.count (advances : Advances c tracker mark after) (reqNo : Nat) :
    after.readyList.contents.count (c.clientState.id, reqNo) =
      tracker.readyList.contents.count (c.clientState.id, reqNo) +
        (c.uncommitted c.nextReadyMark mark).count reqNo := by
  have injective : Function.Injective fun number : Nat => (c.clientState.id, number) :=
    fun _ _ same => (Prod.mk.inj same).2
  rw [advances.lists]
  show (tracker.readyList.pushAll _).contents.count _ = _
  rw [AppendList.contents_pushAll, count_append]
  congr 1
  exact count_map_of_injective _ _ injective reqNo

theorem Queued.advanced (queued : Queued c tracker) (advances : Advances c tracker mark after) :
    Queued { c with nextReadyMark := mark } after := by
  refine ⟨fun reqNo above => ?_, fun reqNo below isUncommitted => ?_⟩
  · have beyond : reqNo ∉ c.uncommitted c.nextReadyMark mark := fun member =>
      absurd (mem_uncommitted.mp member).1.2 (Nat.not_lt.mpr above)
    rw [advances.count, queued.above reqNo (advances.lower.trans above), count_eq_zero_of_not_mem beyond]
  · rw [advances.count]
    rcases Nat.lt_or_ge reqNo c.nextReadyMark with passed | above
    · have earlier : reqNo ∉ c.uncommitted c.nextReadyMark mark := fun member =>
        absurd passed (Nat.not_lt.mpr (mem_uncommitted.mp member).1.1)
      rw [queued.passed reqNo passed isUncommitted, count_eq_zero_of_not_mem earlier]
    · have member : reqNo ∈ c.uncommitted c.nextReadyMark mark :=
        mem_uncommitted.mpr ⟨⟨above, below⟩, isUncommitted⟩
      rw [queued.above reqNo above, count_eq_one_of_mem (nodup_uncommitted _ _) member]

theorem Queued.same (queued : Queued c tracker) (sameId : next.clientState.id = c.clientState.id)
    (sameMark : next.nextReadyMark = c.nextReadyMark)
    (counts : ∀ reqNo, after.readyList.contents.count (c.clientState.id, reqNo) =
      tracker.readyList.contents.count (c.clientState.id, reqNo))
    (committed : ∀ reqNo, next.isUncommitted reqNo = true → c.isUncommitted reqNo = true) :
    Queued next after := by
  refine ⟨fun reqNo above => ?_, fun reqNo below isUncommitted => ?_⟩
  · rw [sameId, counts]
    exact queued.above reqNo (sameMark ▸ above)
  · rw [sameId, counts]
    exact queued.passed reqNo (sameMark ▸ below) (committed reqNo isUncommitted)

theorem isUncommitted_setReqNo {reqNo : Nat} {old crn : ClientReqNo}
    (found : c.reqNos.lookup reqNo = some old)
    (isNumber : crn.reqNo = reqNo) (same : crn.committed = old.committed) (other : Nat) :
    (c.setReqNo crn).isUncommitted other = c.isUncommitted other := by
  unfold isUncommitted
  rw [lookupReqNo_replaced found isNumber]
  split
  · rename_i isThis
    cases isFound : c.lookupReqNo other with
    | none => rfl
    | some looked =>
      have isOld : old = looked := by
        have stored := (lookupReqNo_eq_some.mp isFound).2
        rw [isThis, found] at stored
        exact Option.some.inj stored
      rw [Option.map_some, Option.any_some, Option.any_some, same, isOld]
  · rfl

theorem ackedTracker_readyList (source : NodeID) (crn : ClientReqNo) (ack : RequestAck) :
    (c.ackedTracker myID source crn ack tracker).readyList = tracker.readyList := by
  unfold ackedTracker
  split <;> rfl

theorem count_readyOf (tracker : ClientTracker) (clientId reqNo : Nat) :
    (tracker.readyOf clientId).count (clientId, reqNo) = tracker.readyList.contents.count (clientId, reqNo) :=
  count_filter (decide_eq_true rfl)

theorem Steps.queued (steps : Steps myID c tracker made next after actions) (windowed : c.Windowed)
    (queued : Queued c tracker) : Queued next after := by
  cases steps with
  | outside => exact queued
  | persist found called =>
    have found := (lookupReqNo_eq_some.mp found).2
    have sound := windowed.sound _ _ found
    have isNumber := (call_spec sound called).1.keyed.number
    have same := (persist_votes sound called).1.committed
    refine queued.same rfl rfl (fun _ => rfl) fun reqNo isUncommitted => ?_
    rwa [isUncommitted_setReqNo found isNumber same] at isUncommitted
  | strong found called _ setWindowed advances =>
    have found := (lookupReqNo_eq_some.mp found).2
    have isNumber := (call_spec (windowed.sound _ _ found) called).1.keyed.number
    cases called
    refine Queued.advanced (queued.same rfl rfl (fun reqNo => ?_) fun reqNo isUncommitted => ?_) advances
    · rw [ackedTracker_readyList]
    · rwa [isUncommitted_setReqNo found isNumber rfl] at isUncommitted
  | weak found called =>
    have found := (lookupReqNo_eq_some.mp found).2
    have isNumber := (call_spec (windowed.sound _ _ found) called).1.keyed.number
    cases called
    refine queued.same rfl rfl (fun reqNo => ?_) fun reqNo isUncommitted => ?_
    · rw [ackedTracker_readyList]
    · rwa [isUncommitted_setReqNo found isNumber rfl] at isUncommitted
  | fetch found called =>
    have isNumber := (call_spec (windowed.sound _ _ found) called).1.keyed.number
    have same := (fetch_only called).votes.committed
    refine queued.same rfl rfl (fun _ => rfl) fun reqNo isUncommitted => ?_
    rwa [isUncommitted_setReqNo found isNumber same] at isUncommitted
  | @tick ticked _ _ tickedWindowed each =>
    refine queued.same rfl rfl (fun _ => rfl) fun reqNo isUncommitted => ?_
    obtain ⟨crn, found, committed⟩ := (Option.any_eq_true _ _).mp isUncommitted
    obtain ⟨old, isOld⟩ := windowed.exists_number (tickedWindowed.inside found).1
      (tickedWindowed.inside found).2
    obtain ⟨crn', _, found', ticks⟩ := each reqNo old isOld
    rw [found] at found'
    cases found'
    rw [Client.isUncommitted, isOld, Option.any_some, ← (tick_votes ticks).1.committed]
    exact committed
  | @allocate seqNo networkState state collected _ moved mark isState aligned collects moves advances =>
    have counts := fun reqNo => (ClientTracker.count_allocate isState collects reqNo).1
    have sameId : moved.clientState.id = c.clientState.id :=
      (congrArg ClientState.id moves.current).trans (client?_id isState)
    refine Queued.advanced ⟨fun reqNo above => ?_, fun reqNo below isUncommitted => ?_⟩ advances
    · rw [moves.mark] at above
      rw [sameId, counts, queued.above reqNo ((le_max_right _ _).trans above), ite_self]
    · obtain ⟨crn, found, notCommitted⟩ := (Option.any_eq_true _ _).mp isUncommitted
      obtain ⟨low, _⟩ := moves.windowed.inside found
      rw [moves.current] at low
      have passed : reqNo < c.nextReadyMark := by
        rw [moves.mark] at below
        omega
      obtain ⟨old, isOld⟩ := windowed.exists_number (moves.forward.trans low)
        (Nat.le_of_lt_succ (passed.trans_le windowed.upper))
      rw [moves.old reqNo old low isOld] at found
      cases found
      have flags : old.committed = false ∧ isCommitted reqNo state = false := by
        simpa [marked] using notCommitted
      rw [sameId, counts, if_neg (by rw [flags.2]; exact Bool.false_ne_true)]
      refine queued.passed reqNo passed ?_
      rw [Client.isUncommitted, isOld, Option.any_some, flags.1]
      rfl
  | restart isState restarts advances =>
    refine Queued.advanced ⟨fun reqNo _ => rfl, fun reqNo below isUncommitted => ?_⟩ advances
    obtain ⟨crn, found, _⟩ := (Option.any_eq_true _ _).mp isUncommitted
    have inside := (restarts.windowed.inside found).1
    rw [restarts.mark, ← restarts.current] at below
    omega
  | lists sameReady =>
    refine queued.same rfl rfl (fun reqNo => ?_) fun _ => id
    rw [← count_readyOf, sameReady, count_readyOf]

/-- The request number at the mark, before and after a call that leaves the mark there. -/
theorem Unstuck.iff_of_lookup (unstuck : c.Unstuck) (windowed : c.Windowed)
    (sameMark : next.nextReadyMark = c.nextReadyMark)
    (sameHigh : next.highWatermark = c.highWatermark) {extra : Prop}
    (outside : c.lookupReqNo c.nextReadyMark = none → ¬ extra)
    (inside : ∀ crn, c.lookupReqNo c.nextReadyMark = some crn →
      ∃ crn', next.lookupReqNo c.nextReadyMark = some crn' ∧
      (crn'.Passable ↔ crn.Passable ∨ extra)) : next.Unstuck ↔ ¬ extra := by
  unfold Unstuck
  rw [sameMark, sameHigh]
  cases found : c.lookupReqNo c.nextReadyMark with
  | none =>
    refine ⟨fun _ => outside found, fun _ within => ?_⟩
    obtain ⟨crn, isFound⟩ := windowed.exists_number windowed.lower within
    rw [found] at isFound
    cases isFound
  | some crn =>
    have within := (windowed.inside found).2
    obtain ⟨crn', isFound, passable⟩ := inside crn found
    have notPassable := unstuck within crn found
    rw [or_iff_right notPassable] at passable
    constructor
    · exact fun holds isExtra => holds within crn' isFound (passable.mpr isExtra)
    · intro notExtra _ other isOther
      rw [isFound] at isOther
      cases isOther
      exact fun isPassable => notExtra (passable.mp isPassable)

theorem Advances.unstuck (advances : Advances c tracker mark after) :
    Unstuck { c with nextReadyMark := mark } := advances.stops

/-- **Exactly the calls that complete the request number at the mark without looking leave it
stuck.** -/
theorem Steps.unstuck_iff (steps : Steps myID c tracker made next after actions) (windowed : c.Windowed)
    (unstuck : c.Unstuck) : next.Unstuck ↔ ¬ c.Misses made := by
  cases steps with
  | @outside reqNo digest isOutside =>
    refine iff_of_true unstuck fun misses => ?_
    obtain ⟨_, crn, found, _⟩ := misses
    have inside := windowed.inside found
    simp [inWatermarks, inside.1, inside.2] at isOutside
  | @persist reqNo digest crn crn' _ found called =>
    have stored := (lookupReqNo_eq_some.mp found).2
    have sound := windowed.sound _ _ stored
    have isNumber := (call_spec sound called).1.keyed.number
    obtain ⟨votes, mine⟩ := persist_votes sound called
    refine unstuck.iff_of_lookup windowed (by rfl) (by rfl) (fun isNone misses => ?_)
      fun marked isMarked => ?_
    · rw [← misses.1, found] at isNone
      cases isNone
    · rw [lookupReqNo_setReqNo found isNumber]
      by_cases atMark : c.nextReadyMark = reqNo
      · rw [if_pos atMark]
        rw [atMark, found] at isMarked
        cases isMarked
        refine ⟨crn', rfl, (passable_iff votes fun other => (mine other).trans or_comm).trans ?_⟩
        simp only [Misses, atMark, found, Option.mem_def, Option.some.injEq, true_and, exists_eq_left',
          exists_eq_right]
      · rw [if_neg atMark]
        refine ⟨marked, isMarked, (or_iff_left fun misses => atMark misses.1.symm).symm⟩
  | strong _ _ _ _ advances => exact iff_of_true advances.unstuck id
  | @weak source reqNo digest crn crn' _ found called votes =>
    have isNumber := (call_spec (windowed.isSound found) called).1.keyed.number
    cases called
    refine unstuck.iff_of_lookup windowed (by rfl) (by rfl) (fun _ => id) fun marked isMarked => ?_
    rw [lookupReqNo_setReqNo found isNumber]
    split
    · rename_i atMark
      rw [atMark, found] at isMarked
      cases isMarked
      refine ⟨_, rfl, ?_⟩
      have strong : (crn.withAck c.networkConfig source (crn.ackOf digest)).strongRequests =
        crn.strongRequests := if_neg votes
      unfold Passable
      rw [strong]
      exact (or_false _).symm ▸ Iff.rfl
    · exact ⟨marked, isMarked, (or_false _).symm ▸ Iff.rfl⟩
  | @fetch reqNo digest crn crn' _ found called =>
    have isNumber := (call_spec (windowed.sound _ _ found) called).1.keyed.number
    have only := fetch_only called
    refine unstuck.iff_of_lookup windowed (by rfl) (by rfl) (fun _ => id) fun marked isMarked => ?_
    rw [lookupReqNo_replaced found isNumber]
    split
    · rename_i atMark
      have isThis := (lookupReqNo_eq_some.mp isMarked).2
      rw [atMark, found] at isThis
      cases isThis
      rw [isMarked]
      refine ⟨crn', rfl, ?_⟩
      unfold Passable
      rw [only.votes.committed, only.votes.strong, only.stock.mine]
      exact (or_false _).symm ▸ Iff.rfl
    · exact ⟨marked, isMarked, (or_false _).symm ▸ Iff.rfl⟩
  | tick _ _ each =>
    refine unstuck.iff_of_lookup windowed (by rfl) (by rfl) (fun isNone misses => ?_)
      fun marked isMarked => ?_
    · obtain ⟨crn, found, _⟩ := misses
      rw [isNone] at found
      cases found
    · obtain ⟨crn', sent, found, ticks⟩ := each _ marked isMarked
      obtain ⟨votes, mine⟩ := tick_votes ticks
      refine ⟨crn', found, (passable_iff votes mine).trans (or_congr_right ?_)⟩
      simp only [Misses, isMarked, Option.mem_def, Option.some.injEq, exists_eq_left']
      constructor
      · rintro ⟨_, isStrong, rfl, notCommitted, promotes⟩
        exact ⟨notCommitted, promotes, isStrong⟩
      · rintro ⟨notCommitted, promotes, isStrong⟩
        exact ⟨[], isStrong, rfl, notCommitted, promotes⟩
  | allocate _ _ _ _ advances => exact iff_of_true advances.unstuck id
  | restart _ _ advances => exact iff_of_true advances.unstuck id
  | lists => exact iff_of_true unstuck id

end Client

namespace ClientRun

variable {myID : NodeID} {condition : Client → ClientCall → Prop} {calls : List ClientCall} {c : Client}
  {tracker : ClientTracker} {emitted : List Action}

theorem queued (ran : ClientRun myID condition calls c tracker emitted) : c.Queued tracker := by
  induction ran with
  | start fits started =>
    obtain ⟨restarted, mark, restarts, advances, rfl⟩ := ClientRun.started fits started
    refine Client.Queued.advanced ⟨fun reqNo _ => rfl, fun reqNo below isUncommitted => ?_⟩ advances
    obtain ⟨crn, found, _⟩ := (Option.any_eq_true _ _).mp isUncommitted
    have inside := (restarts.windowed.inside found).1
    rw [restarts.mark, ← restarts.current] at below
    omega
  | step ran regular _ called ih =>
    exact (Client.steps_of_call ran.windowed regular _ _ _ called).queued ran.windowed ih

/-- **The ready mark and the ready list.** In every run, what the mark has passed and has not
committed is in the ready list exactly once. While the mark is where it stops, a call leaves it so
exactly if it does not complete the request number at the mark without looking; in a run without
such calls the mark is never stuck. -/
theorem ready_mark_iff (ran : ClientRun myID condition calls c tracker emitted) :
    (∀ reqNo crn, c.clientState.lowWatermark ≤ reqNo → reqNo < c.nextReadyMark →
      c.lookupReqNo reqNo = some crn → crn.committed = false →
        tracker.readyList.contents.count (c.clientState.id, reqNo) = 1) ∧
    (c.Unstuck → ∀ made next after actions, c.Regular made →
      c.call myID made tracker = .ok (after, actions, next) → (next.Unstuck ↔ ¬ c.Misses made)) ∧
    ((∀ before made, condition before made → ¬ before.Misses made) → c.Unstuck) := by
  refine ⟨fun reqNo crn _ below found notCommitted => ran.queued.passed reqNo below ?_,
    fun unstuck made next after actions regular called =>
      (Client.steps_of_call ran.windowed regular _ _ _ called).unstuck_iff ran.windowed unstuck,
        fun looks => ?_⟩
  · rw [Client.isUncommitted, found, Option.any_some, notCommitted]
    rfl
  · induction ran with
    | start fits started =>
      obtain ⟨restarted, mark, _, advances, rfl⟩ := ClientRun.started fits started
      exact advances.unstuck
    | step ran regular meets called ih =>
      exact ((Client.steps_of_call ran.windowed regular _ _ _ called).unstuck_iff ran.windowed ih).mpr
        (looks _ _ meets)

/-- A request is persisted first, and then acked by a quorum: the mark passes it, and stays in front
of the next. -/
theorem ready_mark_of_quorum :
    ∃ c tracker emitted, ClientRun 0 (fun c made => ¬ c.Misses made)
        [.persist 0 [1], .ack 0 0 [1], .ack 1 0 [1], .ack 2 0 [1]] c tracker emitted ∧
      c.nextReadyMark = 1 ∧ tracker.readyList.contents.count (c.clientState.id, 0) = 1 ∧ c.Unstuck := by
  obtain ⟨c, tracker, emitted, ran, mark, low, crn, found, notCommitted⟩ := exists_of_execute 0
    (fun c made => ¬ c.Misses made) 0 FourNodes.networkConfig ⟨7, 4, 0, 0, []⟩
    [.persist 0 [1], .ack 0 0 [1], .ack 1 0 [1], .ack 2 0 [1]]
    (fun c _ => c.nextReadyMark = 1 ∧ c.clientState.lowWatermark = 0 ∧
      ∃ crn ∈ c.lookupReqNo 0, crn.committed = false) (by decide) (by decide +kernel)
  exact ⟨c, tracker, emitted, ran, mark,
    (ready_mark_iff ran).1 0 crn (by omega) (by omega) found notCommitted,
    (ready_mark_iff ran).2.2 fun _ _ meets => meets⟩

/-- A quorum of other nodes acks the request before it is persisted here. The ack of this node is
one more than a quorum, and the mark stays in front of a request that is ready. -/
theorem ready_mark_stuck :
    ∃ c tracker emitted, ClientRun 0 (fun _ _ => True)
        [.ack 1 0 [1], .ack 2 0 [1], .ack 3 0 [1], .persist 0 [1], .ack 0 0 [1]] c tracker emitted ∧
      c.nextReadyMark = 0 ∧ c.nextReadyMark ≤ c.highWatermark ∧
      ∃ crn ∈ c.lookupReqNo 0, [1] ∈ crn.strongRequests ∧ [1] ∈ crn.myRequests :=
  exists_of_execute 0 (fun _ _ => True) 0 FourNodes.networkConfig ⟨7, 4, 0, 0, []⟩
    [.ack 1 0 [1], .ack 2 0 [1], .ack 3 0 [1], .persist 0 [1], .ack 0 0 [1]] _ (by decide) (by decide +kernel)

end ClientRun

/-! ### The available list -/

namespace ClientReqNo

variable {crn after : ClientReqNo} {clientId reqNo : Nat} {nc : NetworkConfig} {digest : Bytes}

/-- **The request is available**: it has not committed, it is here, and a correct node has acked
it. -/
def IsAvailable (nc : NetworkConfig) (crn : ClientReqNo) (digest : Bytes) : Prop :=
  crn.committed = false ∧ crn.isStored digest = true ∧
    someCorrectQuorum nc ≤ (crn.agreementsOf digest).card

instance (nc : NetworkConfig) (crn : ClientReqNo) (digest : Bytes) :
    Decidable (crn.IsAvailable nc digest) := inferInstanceAs (Decidable (_ ∧ _))

theorem not_isAvailable_new (validAfterSeqNo : Nat) (used : NetworkConfig) (digest : Bytes) :
    ¬ (newClientReqNo clientId reqNo used validAfterSeqNo).IsAvailable nc digest :=
  fun available => (nomatch available.2.1)

theorem isAvailable_marked {committed : Bool} :
    (crn.marked committed).IsAvailable nc digest ↔
      committed = false ∧ crn.IsAvailable nc digest := by
  show (crn.committed || committed) = false ∧ crn.isStored digest = true ∧ _ ↔ _
  rw [Bool.or_eq_false_iff]
  constructor
  · rintro ⟨⟨wasCommitted, notCommitted⟩, available⟩
    exact ⟨notCommitted, wasCommitted, available⟩
  · rintro ⟨notCommitted, wasCommitted, available⟩
    exact ⟨⟨wasCommitted, notCommitted⟩, available⟩

theorem isAvailable_iff {added : Bytes → Prop} (sound : crn.Sound clientId reqNo)
    (afterSound : after.Sound clientId reqNo) (votes : SameVotes crn after)
    (mine : ∀ digest, digest ∈ after.myRequests ↔ digest ∈ crn.myRequests ∨ added digest) (digest : Bytes) :
    after.IsAvailable nc digest ↔ crn.IsAvailable nc digest ∨
      (added digest ∧ crn.committed = false ∧ crn.isStored digest = false ∧
        someCorrectQuorum nc ≤ (crn.agreementsOf digest).card) := by
  unfold IsAvailable
  rw [votes.committed, votes.agreements, ← afterSound.stocked.stored, mine, sound.stocked.stored]
  cases crn.isStored digest with
  | true => simp
  | false =>
    simp only [Bool.false_eq_true, false_or, false_and, and_false, true_and]
    exact and_left_comm

theorem agreementsOf_withAck (used : NetworkConfig) (source : NodeID) (digest other : Bytes) :
    (crn.withAck used source (crn.ackOf digest)).agreementsOf other =
      if other = digest then insert source (crn.agreementsOf digest) else crn.agreementsOf other := by
  unfold agreementsOf
  rw [lookup_withAck]
  show (Option.map _ (if other = digest then _ else _)).getD ∅ = _
  split
  · exact congrArg (insert source) (clientReq_agreements _)
  · rfl

/-- **The ack makes the request available**: it is here, and was not correct before. -/
def TurnsAvailable (nc : NetworkConfig) (crn : ClientReqNo) (source : NodeID) (digest : Bytes) : Prop :=
  crn.committed = false ∧ crn.isStored digest = true ∧
    (crn.agreementsOf digest).card < someCorrectQuorum nc ∧
    someCorrectQuorum nc ≤ (insert source (crn.agreementsOf digest)).card

theorem isAvailable_withAck {source : NodeID} {digest other : Bytes} :
    (crn.withAck nc source (crn.ackOf digest)).IsAvailable nc other ↔
      crn.IsAvailable nc other ∨ (other = digest ∧ crn.TurnsAvailable nc source digest) := by
  have stored := (@sameStock_withAck crn nc source (crn.ackOf digest)).stored other
  unfold IsAvailable
  rw [stored, agreementsOf_withAck]
  show crn.committed = false ∧ _ ∧ _ ↔ _
  rcases eq_or_ne other digest with rfl | different
  · rw [if_pos rfl, and_iff_right rfl]
    constructor
    · rintro ⟨notCommitted, isStored, votes⟩
      rcases Nat.lt_or_ge (crn.agreementsOf other).card (someCorrectQuorum nc) with below | above
      · exact .inr ⟨notCommitted, isStored, below, votes⟩
      · exact .inl ⟨notCommitted, isStored, above⟩
    · rintro (⟨notCommitted, isStored, votes⟩ | ⟨notCommitted, isStored, _, votes⟩)
      · exact ⟨notCommitted, isStored, votes.trans (Finset.card_le_card (Finset.subset_insert _ _))⟩
      · exact ⟨notCommitted, isStored, votes⟩
  · rw [if_neg different, or_iff_left fun both => different both.1]

/-- **Pushed without becoming available**: the request has committed, or was correct before. -/
theorem pushed_iff_turns {myID source : NodeID} :
    (crn.becomesAvailable nc myID source (crn.ackOf digest) ↔
        crn.TurnsAvailable nc source digest) ↔
      ¬ (crn.becomesAvailable nc myID source (crn.ackOf digest) ∧
        (crn.committed = true ∨ someCorrectQuorum nc ≤ (crn.agreementsOf digest).card)) := by
  have pushes : crn.becomesAvailable nc myID source (crn.ackOf digest) ↔ crn.isStored digest = true ∧
      ((insert source (crn.agreementsOf digest)).card = someCorrectQuorum nc ∨
        (someCorrectQuorum nc ≤ (insert source (crn.agreementsOf digest)).card ∧ source = myID)) := by
    unfold becomesAvailable acked
    rw [clientReq_stored, clientReq_agreements]
    rfl
  constructor
  · rintro agrees ⟨isPushed, wasCommitted | wasCorrect⟩
    · rw [(agrees.mp isPushed).1] at wasCommitted
      cases wasCommitted
    · exact absurd wasCorrect (Nat.not_le.mpr (agrees.mp isPushed).2.2.1)
  · intro fresh
    refine ⟨fun isPushed => ?_, fun ⟨_, isStored, below, votes⟩ => pushes.mpr ⟨isStored, .inl ?_⟩⟩
    · have late := not_and.mp fresh isPushed
      rw [not_or, Bool.not_eq_true, Nat.not_le] at late
      obtain ⟨isStored, votes⟩ := pushes.mp isPushed
      exact ⟨late.1, isStored, late.2, votes.elim ge_of_eq And.left⟩
    · have grown := Finset.card_insert_le source (crn.agreementsOf digest)
      omega

theorem applyRequestAck_committed (source : NodeID) (ack : RequestAck) (force : Bool) :
    (crn.applyRequestAck source ack force).committed = crn.committed := by
  unfold applyRequestAck
  split
  · rfl
  have voted : (if ack.digest ≠ [] then { crn with nonNullVoters := insert source crn.nonNullVoters }
      else crn).committed = crn.committed := by
    split <;> rfl
  dsimp only
  generalize (if ack.digest ≠ [] then
    { crn with nonNullVoters := insert source crn.nonNullVoters } else crn) = counted at voted
  split
  · exact voted
  split
  · exact voted
  · exact voted

theorem restoreRequest_committed (old : Σ _ : Bytes, ClientRequest) :
    (restoreRequest nc crn old).committed = crn.committed := by
  have voted : ∀ (nodes : List NodeID) (crn : ClientReqNo), (nodes.foldl (fun crn id =>
      if id ∈ old.2.agreements then crn.applyRequestAck id old.2.ack true else crn) crn).committed =
        crn.committed := by
    intro nodes
    induction nodes with
    | nil => exact fun _ => rfl
    | cons id rest ih =>
      intro crn
      refine (ih _).trans ?_
      dsimp only
      split
      · exact applyRequestAck_committed ..
      · rfl
  unfold restoreRequest
  split
  · exact voted _ _
  · exact voted _ _

theorem reinitialized_committed : (ClientReqNo.reinitialize crn nc).committed = crn.committed := by
  have restored : ∀ (entries : List (Σ _ : Bytes, ClientRequest)) (crn : ClientReqNo),
      (entries.foldl (restoreRequest nc) crn).committed = crn.committed := by
    intro entries
    induction entries with
    | nil => exact fun _ => rfl
    | cons entry rest ih => exact fun crn => (ih _).trans (restoreRequest_committed entry)
  exact restored _ _

/-- A restart keeps what is here, and the votes of the network's nodes. -/
theorem isAvailable_reinitialized (keyed : crn.Keyed clientId reqNo) (digest : Bytes) :
    (ClientReqNo.reinitialize crn nc).IsAvailable nc digest ↔
      crn.committed = false ∧ crn.isStored digest = true ∧
        someCorrectQuorum nc ≤ ((crn.agreementsOf digest).filter (· ∈ nc.nodes)).card := by
  have lookup := reinitialized_lookup keyed nc digest
  unfold IsAvailable
  rw [reinitialized_committed]
  refine and_congr_right fun _ => ?_
  unfold isStored agreementsOf
  rw [lookup]
  cases crn.requests.lookup digest with
  | none =>
    exact ⟨fun available => (nomatch available.1), fun available => (nomatch available.1)⟩
  | some old =>
    rw [Option.bind_some]
    unfold kept
    split
    · rename_i forgotten
      refine ⟨fun available => (nomatch available.1), fun available => ?_⟩
      have stored : old.stored = true := available.1
      rw [forgotten.2] at stored
      cases stored
    · exact Iff.rfl

end ClientReqNo

namespace Client

variable {c next : Client} {myID : NodeID} {tracker after : ClientTracker} {actions : List Action}
  {made : ClientCall}
variable {reqNo : Nat} {crn : ClientReqNo} {digest : Bytes} {state : ClientState} {seqNo : Nat}
  {reconfiguring : Bool}

/-- The request is in the window and available. -/
def IsAvailable (c : Client) (reqNo : Nat) (digest : Bytes) : Prop :=
  ∃ crn ∈ c.lookupReqNo reqNo, crn.IsAvailable c.networkConfig digest

instance (c : Client) (reqNo : Nat) (digest : Bytes) : Decidable (c.IsAvailable reqNo digest) :=
  inferInstanceAs (Decidable (∃ _ ∈ _, _))

/-- **The available list is exact**: it has the available requests once, and no others of the
client. -/
def Exact (c : Client) (tracker : ClientTracker) : Prop :=
  ∀ reqNo digest, tracker.availableList.contents.count ⟨c.clientState.id, reqNo, digest⟩ =
    if c.IsAvailable reqNo digest then 1 else 0

/-- **The call makes the available list inexact**:
* a correct request is persisted, or promoted by a tick, that is not here and has not committed;
* an ack pushes a request that has committed, or that was correct before;
* the lists are emptied, and a request is still available. -/
def Spoils (myID : NodeID) (c : Client) : ClientCall → Prop
  | .persist reqNo digest => ∃ crn ∈ c.lookupReqNo reqNo, crn.committed = false ∧
    crn.isStored digest = false ∧ someCorrectQuorum c.networkConfig ≤ (crn.agreementsOf digest).card
  | .ack source reqNo digest => ∃ crn ∈ c.lookupReqNo reqNo,
    crn.becomesAvailable c.networkConfig myID source (crn.ackOf digest) ∧
      (crn.committed = true ∨ someCorrectQuorum c.networkConfig ≤ (crn.agreementsOf digest).card)
  | .tick => ∃ reqNo ∈ c.reqNoList, ∃ crn ∈ c.lookupReqNo reqNo, crn.committed = false ∧ crn.Promotes ∧
    someCorrectQuorum c.networkConfig ≤ (crn.agreementsOf []).card
  | .restart _ networkState => ∃ state ∈ networkState.client? c.clientState.id, ∃ reqNo ∈ c.reqNoList,
    ∃ crn ∈ c.lookupReqNo reqNo, ∃ digest ∈ crn.myRequests, state.lowWatermark ≤ reqNo ∧
      reqNo ≤ newHighWatermark state networkState.reconfiguring ∧ isCommitted reqNo state = false ∧
      someCorrectQuorum networkState.config ≤
        ((crn.agreementsOf digest).filter (· ∈ networkState.config.nodes)).card
  | .fetch .. | .allocate .. | .lists _ => False

instance (myID : NodeID) (c : Client) (made : ClientCall) : Decidable (c.Spoils myID made) :=
  match made with
  | .persist .. | .ack .. => inferInstanceAs (Decidable (∃ _ ∈ _, _))
  | .tick => inferInstanceAs (Decidable (∃ _ ∈ _, ∃ _ ∈ _, _))
  | .restart .. => inferInstanceAs (Decidable (∃ _ ∈ _, ∃ _ ∈ _, ∃ _ ∈ _, ∃ _ ∈ _, _))
  | .fetch .. | .allocate .. | .lists _ => isFalse id

theorem isAvailable_of_lookup (found : c.lookupReqNo reqNo = some crn) :
    c.IsAvailable reqNo digest ↔ crn.IsAvailable c.networkConfig digest := by
  unfold IsAvailable
  rw [found]
  simp only [Option.mem_some, exists_eq_left']

theorem not_isAvailable (outside : c.lookupReqNo reqNo = none) : ¬ c.IsAvailable reqNo digest := by
  rintro ⟨crn, found, _⟩
  rw [outside] at found
  cases found

/-- **What has to agree**: what is pushed and what becomes available. -/
theorem Exact.iff_of_pushed (exact : Exact c tracker) (sameId : next.clientState.id = c.clientState.id)
    {pushed new : Nat → Bytes → Prop} [∀ reqNo digest, Decidable (pushed reqNo digest)]
    (counts : ∀ reqNo digest, after.availableList.contents.count ⟨c.clientState.id, reqNo, digest⟩ =
      tracker.availableList.contents.count ⟨c.clientState.id, reqNo, digest⟩ +
      if pushed reqNo digest then 1 else 0)
    (available : ∀ reqNo digest, next.IsAvailable reqNo digest ↔ c.IsAvailable reqNo digest ∨
      new reqNo digest)
    (isNew : ∀ reqNo digest, new reqNo digest → ¬ c.IsAvailable reqNo digest) :
    Exact next after ↔ ∀ reqNo digest, pushed reqNo digest ↔ new reqNo digest := by
  refine forall_congr' fun reqNo => forall_congr' fun digest => ?_
  rw [sameId, counts, exact]
  have isNew := isNew reqNo digest
  have available := available reqNo digest
  by_cases wasAvailable : c.IsAvailable reqNo digest
  · have isAvailable := available.mpr (.inl wasAvailable)
    have notNew : ¬ new reqNo digest := fun holds => isNew holds wasAvailable
    rw [if_pos wasAvailable, iff_false_right notNew]
    split
    · rename_i isPushed
      exact iff_of_false (by omega) (not_not.mpr isPushed)
    · rename_i notPushed
      exact iff_of_true rfl notPushed
  · rw [or_iff_right wasAvailable] at available
    rw [if_neg wasAvailable, ← available]
    by_cases isPushed : pushed reqNo digest
    · rw [if_pos isPushed, iff_true_left isPushed]
      split
      · rename_i isAvailable
        exact iff_of_true rfl isAvailable
      · rename_i notAvailable
        exact iff_of_false (by omega) notAvailable
    · rw [if_neg isPushed, iff_false_left isPushed]
      split
      · rename_i isAvailable
        exact iff_of_false (by omega) (not_not.mpr isAvailable)
      · rename_i notAvailable
        exact iff_of_true rfl notAvailable

/-- The mark does not matter, nor does the ready list. -/
theorem Advances.exact_iff {mark : Nat} (advances : Advances c tracker mark after) :
    Exact { c with nextReadyMark := mark } after ↔ Exact c tracker := by
  rw [advances.lists]
  exact Iff.rfl

theorem count_availableOf (tracker : ClientTracker) (clientId reqNo : Nat) (digest : Bytes) :
    (tracker.availableOf clientId).count ⟨clientId, reqNo, digest⟩ =
      tracker.availableList.contents.count ⟨clientId, reqNo, digest⟩ :=
  count_filter (decide_eq_true rfl)

theorem count_ackedTracker (source : NodeID) (crn : ClientReqNo) (ack other : RequestAck) :
    (c.ackedTracker myID source crn ack tracker).availableList.contents.count other =
      tracker.availableList.contents.count other +
        if other = ack ∧ crn.becomesAvailable c.networkConfig myID source ack then 1 else 0 := by
  unfold ackedTracker
  by_cases pushes : crn.becomesAvailable c.networkConfig myID source ack
  · rw [if_pos pushes]
    rw [AppendList.contents_pushBack, count_append, count_singleton]
    congr 1
    refine if_congr ?_ rfl rfl
    rw [and_iff_left pushes, beq_iff_eq, eq_comm]
  · rw [if_neg pushes, if_neg fun both => pushes both.2, Nat.add_zero]

/-- **An ack leaves the list exact** unless it pushes a request that has committed or was correct
before. -/
theorem Exact.ack_iff (isExact : Exact c tracker) (windowed : c.Windowed) {source : NodeID}
    (found : c.lookupReqNo reqNo = some crn) :
    Exact (c.setReqNo (crn.withAck c.networkConfig source (crn.ackOf digest)))
        (c.ackedTracker myID source crn (crn.ackOf digest) tracker) ↔
      ¬ c.Spoils myID (.ack source reqNo digest) := by
  have keyed := (windowed.isSound found).keyed
  have isAck (number : Nat) (other : Bytes) :
    (⟨c.clientState.id, number, other⟩ : RequestAck) = crn.ackOf digest ↔
      number = reqNo ∧ other = digest := by
    rw [ackOf, keyed.client, keyed.number, RequestAck.mk.injEq, and_iff_right rfl]
  have lookup := lookupReqNo_setReqNo found
    (show (crn.withAck c.networkConfig source (crn.ackOf digest)).reqNo = reqNo from keyed.number)
  have available (number : Nat) (other : Bytes) :
      (c.setReqNo (crn.withAck c.networkConfig source (crn.ackOf digest))).IsAvailable number other ↔
        c.IsAvailable number other ∨
          ((number = reqNo ∧ other = digest) ∧ crn.TurnsAvailable c.networkConfig source digest) := by
    rcases eq_or_ne number reqNo with rfl | differentNumber
    · rw [isAvailable_of_lookup ((lookup number).trans (if_pos rfl)), isAvailable_of_lookup found]
      refine isAvailable_withAck.trans (or_congr_right ?_)
      rw [and_iff_right rfl]
      exact Iff.rfl
    · rw [or_iff_left fun both => differentNumber both.1.1]
      unfold IsAvailable
      rw [lookup, if_neg differentNumber]
      exact Iff.rfl
  have counts := fun number other => @count_ackedTracker c myID tracker source crn (crn.ackOf digest)
    ⟨c.clientState.id, number, other⟩
  have spoils : c.Spoils myID (.ack source reqNo digest) ↔
      crn.becomesAvailable c.networkConfig myID source (crn.ackOf digest) ∧
        (crn.committed = true ∨ someCorrectQuorum c.networkConfig ≤ (crn.agreementsOf digest).card) := by
    simp only [Spoils, found, Option.mem_some, exists_eq_left']
  rw [isExact.iff_of_pushed (by rfl) counts available, spoils, ← pushed_iff_turns]
  · simp only [isAck]
    refine ⟨fun each => ?_, fun agrees number other => and_congr_right fun _ => agrees⟩
    have here := each reqNo digest
    rwa [and_iff_right ⟨rfl, rfl⟩, and_iff_right ⟨rfl, rfl⟩] at here
  · rintro number other ⟨⟨rfl, rfl⟩, turns⟩ wasAvailable
    exact absurd ((isAvailable_of_lookup found).mp wasAvailable).2.2 (Nat.not_le.mpr turns.2.2.1)

/-- Nothing is pushed, and some requests become available. -/
theorem Exact.iff_of_new (isExact : Exact c tracker) (sameId : next.clientState.id = c.clientState.id)
    (counts : ∀ reqNo digest, after.availableList.contents.count ⟨c.clientState.id, reqNo, digest⟩ =
      tracker.availableList.contents.count ⟨c.clientState.id, reqNo, digest⟩) {new : Nat → Bytes → Prop}
    (available : ∀ reqNo digest, next.IsAvailable reqNo digest ↔ c.IsAvailable reqNo digest ∨
      new reqNo digest)
    (isNew : ∀ reqNo digest, new reqNo digest → ¬ c.IsAvailable reqNo digest) :
    Exact next after ↔ ∀ reqNo digest, ¬ new reqNo digest := by
  have unpushed (reqNo : Nat) (digest : Bytes) :
      after.availableList.contents.count ⟨c.clientState.id, reqNo, digest⟩ =
        tracker.availableList.contents.count ⟨c.clientState.id, reqNo, digest⟩ + if False then 1 else 0 := by
    rw [counts, if_neg id, Nat.add_zero]
  simpa only [false_iff] using isExact.iff_of_pushed sameId unpushed available isNew

theorem isAvailable_setReqNo {number : Nat} {crn' : ClientReqNo} {added : Bytes → Prop}
    (windowed : c.Windowed)
    (found : c.lookupReqNo number = some crn) (sound : crn'.Sound c.clientState.id number)
    (votes : SameVotes crn crn')
    (mine : ∀ digest, digest ∈ crn'.myRequests ↔ digest ∈ crn.myRequests ∨ added digest) (reqNo : Nat)
    (digest : Bytes) :
    (c.setReqNo crn').IsAvailable reqNo digest ↔ c.IsAvailable reqNo digest ∨
    (reqNo = number ∧ added digest ∧ crn.committed = false ∧ crn.isStored digest = false ∧
        someCorrectQuorum c.networkConfig ≤ (crn.agreementsOf digest).card) := by
  have lookup := lookupReqNo_setReqNo found sound.keyed.number reqNo
  rcases eq_or_ne reqNo number with rfl | different
  · rw [isAvailable_of_lookup (lookup.trans (if_pos rfl)), isAvailable_of_lookup found, and_iff_right rfl]
    exact isAvailable_iff (windowed.isSound found) sound votes mine digest
  · rw [or_iff_left fun both => different both.1]
    unfold IsAvailable
    rw [lookup, if_neg different]
    exact Iff.rfl

theorem not_isAvailable_of_missing (found : c.lookupReqNo reqNo = some crn)
    (missing : crn.isStored digest = false) : ¬ c.IsAvailable reqNo digest := by
  rw [isAvailable_of_lookup found]
  rintro ⟨_, stored, _⟩
  rw [missing] at stored
  cases stored

theorem isCommitted_of_lt (below : reqNo < state.lowWatermark) : isCommitted reqNo state = true := by
  unfold isCommitted
  rw [if_pos below]

/-- **What a checkpoint leaves available**: what it has not committed. -/
theorem Moved.isAvailable_iff {moved : Client}
    (moves : Moved c seqNo state reconfiguring moved) (windowed : c.Windowed)
    (reqNo : Nat) (digest : Bytes) :
    moved.IsAvailable reqNo digest ↔ isCommitted reqNo state = false ∧ c.IsAvailable reqNo digest := by
  rcases Nat.lt_or_ge reqNo state.lowWatermark with below | above
  · refine iff_of_false ?_ fun both => ?_
    · rintro ⟨crn, found, _⟩
      have inside := (moves.windowed.inside found).1
      rw [moves.current] at inside
      omega
    · rw [isCommitted_of_lt below] at both
      cases both.1
  cases found : c.lookupReqNo reqNo with
  | some crn =>
    rw [isAvailable_of_lookup (moves.old reqNo crn above found), isAvailable_of_lookup found, moves.config]
    exact isAvailable_marked
  | none =>
    refine iff_of_false ?_ fun both => not_isAvailable found both.2
    rintro ⟨crn, isFound, available⟩
    have inside := (moves.windowed.inside isFound).2
    have beyond : c.highWatermark < reqNo := by
      by_contra within
      obtain ⟨old, isOld⟩ := windowed.exists_number (moves.forward.trans above) (Nat.not_lt.mp within)
      rw [found] at isOld
      cases isOld
    rw [moves.fresh reqNo beyond inside] at isFound
    cases isFound
    exact not_isAvailable_new _ _ _ available

/-- **What a restart leaves available**: what is here and correct under the new configuration. -/
theorem Restarted.isAvailable_iff {nc : NetworkConfig}
    {restarted : Client} (windowed : c.Windowed)
    (restarts : Restarted (some c) seqNo nc state reconfiguring restarted) (reqNo : Nat)
    (digest : Bytes) :
    restarted.IsAvailable reqNo digest ↔ ∃ crn ∈ c.lookupReqNo reqNo, state.lowWatermark ≤ reqNo ∧
      reqNo ≤ newHighWatermark state reconfiguring ∧ isCommitted reqNo state = false ∧
      crn.isStored digest = true ∧
      someCorrectQuorum nc ≤ ((crn.agreementsOf digest).filter (· ∈ nc.nodes)).card := by
  by_cases inside : state.lowWatermark ≤ reqNo ∧ reqNo ≤ newHighWatermark state reconfiguring
  · have isRestored := restarts.numbers reqNo inside.1 (restarts.high ▸ inside.2)
    rw [isAvailable_of_lookup isRestored, restarts.config]
    unfold restoredReqNo
    dsimp only
    rw [Option.bind_some]
    cases found : c.lookupReqNo reqNo with
    | some crn =>
      have keyed : Keyed c.clientState.id reqNo { crn with committed := isCommitted reqNo state } :=
        (windowed.isSound found).keyed.same rfl rfl rfl
      rw [Option.getD_some, isAvailable_reinitialized keyed]
      simp only [Option.mem_some, exists_eq_left', inside, true_and]
      exact Iff.rfl
    | none =>
      have keyed (validAfterSeqNo : Nat) : Keyed state.id reqNo
          { newClientReqNo state.id reqNo nc validAfterSeqNo with
            committed := isCommitted reqNo state } :=
        (keyed_new state.id reqNo nc validAfterSeqNo).same rfl rfl rfl
      refine iff_of_false (fun available => (nomatch available.2.1)) ?_
      rintro ⟨_, isFound, _⟩
      cases isFound
  · refine iff_of_false ?_ fun ⟨_, _, low, high, _⟩ => inside ⟨low, high⟩
    rintro ⟨crn, found, _⟩
    have bounds := restarts.windowed.inside found
    rw [restarts.current, restarts.high] at bounds
    exact inside bounds

/-- **Exactly these calls make the available list inexact.** -/
theorem Steps.exact_iff (steps : Steps myID c tracker made next after actions) (windowed : c.Windowed)
    (isExact : Exact c tracker) : Exact next after ↔ ¬ c.Spoils myID made := by
  cases steps with
  | @outside reqNo digest isOutside =>
    refine iff_of_true isExact fun spoils => ?_
    obtain ⟨crn, found, _⟩ := spoils
    have inside := windowed.inside found
    simp [inWatermarks, inside.1, inside.2] at isOutside
  | @persist reqNo digest crn crn' _ found called =>
    have sound := windowed.isSound found
    obtain ⟨votes, mine⟩ := persist_votes sound called
    rw [isExact.iff_of_new (by rfl) (fun _ _ => rfl) (isAvailable_setReqNo windowed found
      (call_spec sound called).1 votes fun other => (mine other).trans or_comm)]
    · simp only [Spoils, found, Option.mem_some, exists_eq_left']
      constructor
      · exact fun none spoils => none reqNo digest ⟨rfl, rfl, spoils⟩
      · rintro none _ _ ⟨rfl, rfl, spoils⟩
        exact none spoils
    · rintro _ _ ⟨rfl, _, _, missing, _⟩
      exact not_isAvailable_of_missing found missing
  | strong found called _ _ advances =>
    cases called
    exact advances.exact_iff.trans (isExact.ack_iff windowed found)
  | weak found called =>
    cases called
    exact isExact.ack_iff windowed found
  | @fetch reqNo digest crn crn' _ found called =>
    have isNumber := (call_spec (windowed.sound _ _ found) called).1.keyed.number
    have only := fetch_only called
    refine iff_of_true (fun number other => ?_) id
    have same : (c.setReqNo crn').IsAvailable number other ↔ c.IsAvailable number other := by
      have lookup := lookupReqNo_replaced found isNumber number
      cases isLooked : c.lookupReqNo number with
      | none =>
        rw [isLooked, Option.map_none, ite_self] at lookup
        exact iff_of_false (not_isAvailable lookup) (not_isAvailable isLooked)
      | some looked =>
        rw [isLooked] at lookup
        rw [isAvailable_of_lookup isLooked]
        split at lookup
        · rename_i isThis
          have stored := (lookupReqNo_eq_some.mp isLooked).2
          rw [isThis, found] at stored
          cases stored
          rw [isAvailable_of_lookup lookup]
          unfold ClientReqNo.IsAvailable
          rw [only.votes.committed, only.stock.stored, only.votes.agreements]
          exact Iff.rfl
        · rw [isAvailable_of_lookup lookup]
          exact Iff.rfl
    refine (isExact number other).trans (if_congr same.symm rfl rfl)
  | @tick ticked _ _ tickedWindowed each =>
    have available : ∀ reqNo digest, IsAvailable { c with reqNos := ticked } reqNo digest ↔
        c.IsAvailable reqNo digest ∨ (digest = [] ∧ ∃ crn ∈ c.lookupReqNo reqNo, crn.committed = false ∧
          crn.Promotes ∧ someCorrectQuorum c.networkConfig ≤ (crn.agreementsOf []).card) := by
      intro reqNo digest
      cases found : c.lookupReqNo reqNo with
      | none =>
        refine iff_of_false ?_ ?_
        · rintro ⟨crn, isFound, _⟩
          have inside := tickedWindowed.inside isFound
          obtain ⟨old, isOld⟩ := windowed.exists_number inside.1 inside.2
          rw [found] at isOld
          cases isOld
        · rintro (wasAvailable | ⟨_, _, isFound, _⟩)
          · exact not_isAvailable found wasAvailable
          · cases isFound
      | some crn =>
        obtain ⟨crn', sent, isFound, ticks⟩ := each reqNo crn found
        have sound := windowed.isSound found
        obtain ⟨votes, mine⟩ := tick_votes ticks
        rw [isAvailable_of_lookup isFound, isAvailable_of_lookup found]
        refine (isAvailable_iff sound (tickedWindowed.isSound isFound) votes mine digest).trans
          (or_congr_right ?_)
        simp only [Option.mem_some, exists_eq_left']
        constructor
        · rintro ⟨⟨rfl, notCommitted, promotes⟩, _, _, correct⟩
          exact ⟨rfl, notCommitted, promotes, correct⟩
        · rintro ⟨rfl, notCommitted, promotes, correct⟩
          have missing := promotes.1
          rw [sound.stocked.stored, Bool.not_eq_true] at missing
          exact ⟨⟨rfl, notCommitted, promotes⟩, notCommitted, missing, correct⟩
    rw [isExact.iff_of_new (by rfl) (fun _ _ => rfl) available]
    · constructor
      · rintro none ⟨reqNo, _, spoils⟩
        exact none reqNo [] ⟨rfl, spoils⟩
      · rintro none reqNo _ ⟨rfl, crn, found, spoils⟩
        exact none ⟨reqNo, (lookupReqNo_eq_some.mp found).1, crn, found, spoils⟩
    · rintro reqNo _ ⟨rfl, crn, found, _, promotes, _⟩
      have missing := promotes.1
      rw [(windowed.isSound found).stocked.stored, Bool.not_eq_true] at missing
      exact not_isAvailable_of_missing found missing
  | @allocate seqNo networkState state collected _ moved mark isState aligned collects moves advances =>
    refine iff_of_true (advances.exact_iff.mpr fun reqNo digest => ?_) id
    have sameId : moved.clientState.id = c.clientState.id :=
      (congrArg ClientState.id moves.current).trans (client?_id isState)
    rw [sameId, (ClientTracker.count_allocate isState collects reqNo).2, isExact,
      if_congr (moves.isAvailable_iff windowed reqNo digest) rfl rfl]
    cases isCommitted reqNo state with
    | true => rw [if_pos rfl, if_neg fun both => Bool.noConfusion both.1]
    | false => rw [if_neg Bool.false_ne_true, if_congr (and_iff_right rfl) rfl rfl]
  | @restart seqNo networkState state _ restarted mark isState restarts advances =>
    refine advances.exact_iff.trans ?_
    have available := restarts.isAvailable_iff windowed
    have spoils : c.Spoils myID (.restart seqNo networkState) ↔
        ∃ reqNo digest, restarted.IsAvailable reqNo digest := by
      simp only [Spoils, isState, Option.mem_some, exists_eq_left', available]
      constructor
      · rintro ⟨reqNo, _, crn, found, digest, mine, low, high, notCommitted, correct⟩
        have stored := ((windowed.isSound found).stocked.stored digest).mp mine
        exact ⟨reqNo, digest, crn, found, low, high, notCommitted, stored, correct⟩
      · rintro ⟨reqNo, digest, crn, found, low, high, notCommitted, stored, correct⟩
        have mine := ((windowed.isSound found).stocked.stored digest).mpr stored
        exact ⟨reqNo, (lookupReqNo_eq_some.mp found).1, crn, found, digest, mine, low, high,
          notCommitted, correct⟩
    rw [spoils]
    push Not
    refine forall_congr' fun reqNo => forall_congr' fun digest => ?_
    show 0 = (if restarted.IsAvailable reqNo digest then 1 else 0) ↔ _
    split
    · rename_i isAvailable
      exact iff_of_false (by omega) (not_not.mpr isAvailable)
    · rename_i notAvailable
      exact iff_of_true rfl notAvailable
  | lists _ sameAvailable =>
    refine iff_of_true (fun reqNo digest => ?_) id
    rw [← count_availableOf, sameAvailable, count_availableOf]
    exact isExact reqNo digest

end Client

namespace ClientRun

variable {myID : NodeID} {condition : Client → ClientCall → Prop} {calls : List ClientCall} {c : Client}
  {tracker : ClientTracker} {emitted : List Action}

theorem exact_started {seqNo : Nat} {nc : NetworkConfig} {clientState : ClientState} {reconfiguring : Bool}
    {restarted : Client} (restarts : Client.Restarted none seqNo nc clientState reconfiguring restarted) :
    restarted.Exact ClientTracker.reinitialize := by
  intro reqNo digest
  refine (if_neg ?_).symm
  rintro ⟨crn, found, available⟩
  have inside := restarts.windowed.inside found
  rw [restarts.numbers reqNo (restarts.current ▸ inside.1) inside.2] at found
  cases found
  exact (nomatch available.2.1)

/-- **The available list.** While it is exact, a call leaves it so exactly if it does not persist or
promote a request that is correct already, nor push one that has committed or was correct before,
nor restart the client with a request available; in a run without such calls it is always exact. -/
theorem available_exact_iff (ran : ClientRun myID condition calls c tracker emitted) :
    (c.Exact tracker → ∀ made next after actions, c.Regular made →
      c.call myID made tracker = .ok (after, actions, next) → (next.Exact after ↔ ¬ c.Spoils myID made)) ∧
    ((∀ before made, condition before made → ¬ before.Spoils myID made) → c.Exact tracker) := by
  refine ⟨fun isExact made next after actions regular called =>
      (Client.steps_of_call ran.windowed regular _ _ _ called).exact_iff ran.windowed isExact,
        fun spares => ?_⟩
  induction ran with
  | start fits started =>
    obtain ⟨restarted, mark, restarts, advances, rfl⟩ := ClientRun.started fits started
    exact advances.exact_iff.mpr (exact_started restarts)
  | step ran regular meets called ih =>
    exact ((Client.steps_of_call ran.windowed regular _ _ _ called).exact_iff ran.windowed ih).mpr
      (spares _ _ meets)

/-- A request is persisted before it is correct, and acked by this node and two others: it is there
once. -/
theorem available_once :
    ∃ c tracker emitted, ClientRun 0 (fun c made => ¬ c.Spoils 0 made)
        [.persist 0 [1], .ack 0 0 [1], .ack 1 0 [1], .ack 2 0 [1]] c tracker emitted ∧
      c.IsAvailable 0 [1] ∧ c.Exact tracker := by
  obtain ⟨c, tracker, emitted, ran, available⟩ := exists_of_execute 0 (fun c made => ¬ c.Spoils 0 made) 0
    FourNodes.networkConfig ⟨7, 4, 0, 0, []⟩ [.persist 0 [1], .ack 0 0 [1], .ack 1 0 [1], .ack 2 0 [1]]
    (fun c _ => c.IsAvailable 0 [1]) (by decide) (by decide +kernel)
  exact ⟨c, tracker, emitted, ran, available, (available_exact_iff ran).2 fun _ _ meets => meets⟩

/-- The ack of this node is sent again, and the request is there twice; of two conflicting requests
of a client that are here and correct, the second one is not there at all. -/
theorem available_inexact :
    (∃ c tracker emitted, ClientRun 0 (fun _ _ => True)
        [.persist 0 [1], .ack 1 0 [1], .ack 0 0 [1], .ack 0 0 [1]] c tracker emitted ∧
      c.IsAvailable 0 [1] ∧ tracker.availableList.contents.count ⟨c.clientState.id, 0, [1]⟩ = 2) ∧
    ∃ c tracker emitted, ClientRun 0 (fun _ _ => True)
        [.persist 0 [1], .ack 0 0 [1], .ack 1 0 [2], .ack 2 0 [2], .persist 0 [2]] c tracker emitted ∧
      c.IsAvailable 0 [2] ∧ tracker.availableList.contents.count ⟨c.clientState.id, 0, [2]⟩ = 0 :=
  ⟨exists_of_execute 0 (fun _ _ => True) 0 FourNodes.networkConfig ⟨7, 4, 0, 0, []⟩
      [.persist 0 [1], .ack 1 0 [1], .ack 0 0 [1], .ack 0 0 [1]] _ (by decide) (by decide +kernel),
    exists_of_execute 0 (fun _ _ => True) 0 FourNodes.networkConfig ⟨7, 4, 0, 0, []⟩
      [.persist 0 [1], .ack 0 0 [1], .ack 1 0 [2], .ack 2 0 [2], .persist 0 [2]] _ (by decide)
      (by decide +kernel)⟩

end ClientRun

end MirBft
