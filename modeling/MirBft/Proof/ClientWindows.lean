/-
**The window of a client.**

* `Client.Windowed` — the request numbers from the low to the high watermark in ascending order,
  each with its object, and the ready mark among them or right above them;
* `Client.Advances` — what `advanceReady` does: the mark passes the request numbers that have
  committed and those with a strong request that is here, stops at the first other one, and those
  that have not committed are pushed;
* `safe_advanceReady`, `safe_restart`, `safe_allocate`, `wp_tick` — the client's methods on a
  window. The first three cannot fail: every lookup finds its object.
-/

import MirBft.Proof.RequestAcks

namespace MirBft

open Proc List ClientReqNo

/-! ### Lists with a consumer -/

namespace AppendList

variable {α : Type}

/-- What is in the list, consumed or not. -/
def contents (list : AppendList α) : List α := list.consumed ++ list.pending

def pushAll (list : AppendList α) (values : List α) : AppendList α :=
  { list with pending := list.pending ++ values }

theorem contents_pushAll (list : AppendList α) (values : List α) :
    (list.pushAll values).contents = list.contents ++ values :=
  (append_assoc _ _ _).symm

theorem contents_pushBack (list : AppendList α) (value : α) :
    (list.pushBack value).contents = list.contents ++ [value] := list.contents_pushAll [value]

end AppendList

/-- Request numbers are pushed to the ready list. -/
def ClientTracker.pushReady (tracker : ClientTracker) (values : List (Nat × Nat)) : ClientTracker :=
  { tracker with readyList := tracker.readyList.pushAll values }

theorem ClientTracker.pushReady_nil (tracker : ClientTracker) : tracker.pushReady [] = tracker := by
  unfold pushReady AppendList.pushAll
  rw [append_nil]

theorem ClientTracker.pushReady_append (tracker : ClientTracker) (values more : List (Nat × Nat)) :
    (tracker.pushReady values).pushReady more = tracker.pushReady (values ++ more) := by
  unfold pushReady AppendList.pushAll
  rw [append_assoc]

/-- The request numbers that the actions announce, with their clients. -/
def announced (actions : List Action) : List (Nat × Nat) :=
  actions.filterMap fun action => match action with
    | .allocatedRequest clientId reqNo => some (clientId, reqNo)
    | _ => none

theorem announced_append (actions more : List Action) :
    announced (actions ++ more) = announced actions ++ announced more :=
  filterMap_append

theorem announced_map (clientId : Nat) (reqNos : List Nat) :
    announced (reqNos.map fun reqNo => .allocatedRequest clientId reqNo) = reqNos.map (clientId, ·) := by
  rw [announced, filterMap_map]
  exact congrFun filterMap_eq_map reqNos

/-! ### What the mark passes -/

namespace ClientReqNo

variable {crn after : ClientReqNo} {clientId reqNo : Nat} {actions : List Action}

/-- **The ready mark passes** a request number that has committed, and one with a strong request
that is here. -/
def Passable (crn : ClientReqNo) : Prop :=
  crn.committed = true ∨ ∃ digest ∈ crn.strongRequests, digest ∈ crn.myRequests

instance (crn : ClientReqNo) : Decidable crn.Passable := inferInstanceAs (Decidable (_ ∨ _))

/-- The request number with its mark set if it is committed. -/
def marked (crn : ClientReqNo) (committed : Bool) : ClientReqNo :=
  { crn with committed := crn.committed || committed }

theorem marked_false (crn : ClientReqNo) : crn.marked false = crn := by
  unfold marked
  rw [Bool.or_false]

theorem marked_true (crn : ClientReqNo) : crn.marked true = { crn with committed := true } := by
  unfold marked
  rw [Bool.or_true]

theorem marked_marked (crn : ClientReqNo) (one two : Bool) :
    (crn.marked one).marked two = crn.marked (one || two) := by
  unfold marked
  rw [Bool.or_assoc]

theorem Sound.marked (sound : crn.Sound clientId reqNo) (committed : Bool) :
    (crn.marked committed).Sound clientId reqNo :=
  ⟨sound.keyed.same rfl rfl rfl, ⟨sound.stocked.distinct, sound.stocked.stored⟩, sound.acked⟩

theorem sound_new (clientId reqNo : Nat) (nc : NetworkConfig) (validAfterSeqNo : Nat) :
    (newClientReqNo clientId reqNo nc validAfterSeqNo).Sound clientId reqNo :=
  ⟨keyed_new .., stocked_new .., fun positive => absurd positive (Nat.lt_irrefl 0)⟩

theorem AskFor.announced (ask : AskFor actions) : announced actions = [] := by
  refine filterMap_eq_nil_iff.mpr fun action member => ?_
  obtain ⟨_, _, rfl⟩ := ask action member
  rfl

theorem announced_applyNewRequest (ack : RequestAck) : announced (crn.applyNewRequest ack).2 = [] := by
  unfold applyNewRequest
  split
  · rfl
  dsimp only
  split
  · rfl
  split <;> rfl

theorem announced_tick (ticked : crn.tick = .ok (after, actions)) : announced actions = [] := by
  rcases tick_eq_ok ticked with ⟨_, _, rfl⟩ | ⟨_, mid, asked, resent, _, _, _, ask, rfl, _, _, isResent⟩
  · rfl
  have promoted : announced crn.tickConflict.2 = [] := by
    unfold tickConflict
    split <;> rfl
  have sent : announced resent = [] := by rcases isResent with rfl | ⟨_, _, rfl⟩ <;> rfl
  rw [announced_append, announced_append, promoted, ask.announced, sent]
  rfl

end ClientReqNo

namespace Client

variable {c : Client} {crn : ClientReqNo} {old crn : ClientReqNo} {mark : Nat} {number : Nat → ClientReqNo}
  {reqNos : List Nat} {state : ClientState}

/-! ### Windows -/

/-- **A window**: its request numbers in order, each with its object, and the ready mark. -/
structure Windowed (c : Client) : Prop where
  list : c.reqNoList = List.range' c.clientState.lowWatermark
    (c.highWatermark + 1 - c.clientState.lowWatermark)
  numbers : ∀ reqNo ∈ c.reqNoList, ∃ crn, c.reqNos.lookup reqNo = some crn
  sound : ∀ reqNo crn, c.reqNos.lookup reqNo = some crn → crn.Sound c.clientState.id reqNo
  lower : c.clientState.lowWatermark ≤ c.nextReadyMark
  upper : c.nextReadyMark ≤ c.highWatermark + 1

theorem lookupReqNo_eq_some {reqNo : Nat} :
    c.lookupReqNo reqNo = some crn ↔ reqNo ∈ c.reqNoList ∧ c.reqNos.lookup reqNo = some crn := by
  unfold lookupReqNo
  split
  · rename_i member
    exact (and_iff_right member).symm
  · rename_i missing
    exact ⟨fun found => (nomatch found), fun both => absurd both.1 missing⟩

namespace Windowed

variable {reqNo : Nat} {crn : ClientReqNo}

variable (windowed : c.Windowed)
include windowed

theorem mem_list :
    reqNo ∈ c.reqNoList ↔ c.clientState.lowWatermark ≤ reqNo ∧ reqNo ≤ c.highWatermark := by
  rw [windowed.list, mem_range'_1]
  omega

theorem exists_number (low : c.clientState.lowWatermark ≤ reqNo)
    (high : reqNo ≤ c.highWatermark) : ∃ crn, c.lookupReqNo reqNo = some crn := by
  have member := windowed.mem_list.mpr ⟨low, high⟩
  obtain ⟨crn, found⟩ := windowed.numbers reqNo member
  exact ⟨crn, lookupReqNo_eq_some.mpr ⟨member, found⟩⟩

theorem inside (found : c.lookupReqNo reqNo = some crn) :
    c.clientState.lowWatermark ≤ reqNo ∧ reqNo ≤ c.highWatermark :=
  windowed.mem_list.mp (lookupReqNo_eq_some.mp found).1

theorem isSound (found : c.lookupReqNo reqNo = some crn) :
    crn.Sound c.clientState.id reqNo :=
  windowed.sound reqNo crn (lookupReqNo_eq_some.mp found).2

theorem isSome_iff :
    (c.lookupReqNo reqNo).isSome = true ↔ c.clientState.lowWatermark ≤ reqNo ∧ reqNo ≤ c.highWatermark := by
  refine ⟨fun isSome => ?_, fun both => ?_⟩
  · obtain ⟨crn, found⟩ := Option.isSome_iff_exists.mp isSome
    exact windowed.inside found
  · exact Option.isSome_iff_exists.mpr (windowed.exists_number both.1 both.2)

theorem withMark {nextReadyMark : Nat}
    (lower : c.clientState.lowWatermark ≤ nextReadyMark) (upper : nextReadyMark ≤ c.highWatermark + 1) :
    Windowed { c with nextReadyMark } :=
  ⟨windowed.list, windowed.numbers, windowed.sound, lower, upper⟩

theorem withNumbers {reqNos : GoMap Nat ClientReqNo}
    (kept : ∀ reqNo, (∃ crn, c.reqNos.lookup reqNo = some crn) → ∃ crn, reqNos.lookup reqNo = some crn)
    (sound : ∀ reqNo crn, reqNos.lookup reqNo = some crn → crn.Sound c.clientState.id reqNo) :
    Windowed { c with reqNos } :=
  ⟨windowed.list, fun reqNo member => kept reqNo (windowed.numbers reqNo member), sound, windowed.lower,
    windowed.upper⟩

end Windowed

theorem lookup_setReqNo {reqNo : Nat} (isNumber : crn.reqNo = reqNo) (other : Nat) :
    (c.setReqNo crn).reqNos.lookup other = if other = reqNo then some crn else c.reqNos.lookup other := by
  show (c.reqNos.insert crn.reqNo crn).lookup other = _
  rw [isNumber]
  split
  · rename_i same
    rw [same, AList.lookup_insert]
  · rename_i different
    rw [AList.lookup_insert_ne different]

theorem lookupReqNo_setReqNo {reqNo : Nat} (found : c.lookupReqNo reqNo = some old)
    (isNumber : crn.reqNo = reqNo) (other : Nat) :
    (c.setReqNo crn).lookupReqNo other = if other = reqNo then some crn else c.lookupReqNo other := by
  show (if other ∈ c.reqNoList then (c.setReqNo crn).reqNos.lookup other else none) = _
  rw [lookup_setReqNo isNumber]
  split
  · rename_i member
    rw [lookupReqNo, if_pos member]
  · rename_i missing
    have different : other ≠ reqNo := fun same => missing (same ▸ (lookupReqNo_eq_some.mp found).1)
    rw [if_neg different, lookupReqNo, if_neg missing]

theorem lookupReqNo_replaced {reqNo : Nat} (found : c.reqNos.lookup reqNo = some old)
    (isNumber : crn.reqNo = reqNo) (other : Nat) :
    (c.setReqNo crn).lookupReqNo other =
      if other = reqNo then (c.lookupReqNo other).map fun _ => crn else c.lookupReqNo other := by
  by_cases member : reqNo ∈ c.reqNoList
  · have inside : c.lookupReqNo reqNo = some old := lookupReqNo_eq_some.mpr ⟨member, found⟩
    rw [lookupReqNo_setReqNo inside isNumber]
    split
    · rename_i same
      rw [same, inside, Option.map_some]
    · rfl
  · show (if other ∈ c.reqNoList then (c.setReqNo crn).reqNos.lookup other else none) = _
    rw [lookup_setReqNo isNumber]
    split
    · rename_i isMember
      have different : other ≠ reqNo := fun same => member (same ▸ isMember)
      rw [if_neg different, if_neg different, lookupReqNo, if_pos isMember]
    · rename_i missing
      rw [lookupReqNo, if_neg missing, Option.map_none, ite_self]

theorem Windowed.setReqNo (windowed : c.Windowed) {reqNo : Nat}
    (sound : crn.Sound c.clientState.id reqNo) : (c.setReqNo crn).Windowed := by
  refine windowed.withNumbers (fun other => ?_) fun other found isFound => ?_
  · rintro ⟨old, isOld⟩
    have lookup := lookup_setReqNo (c := c) sound.keyed.number other
    split at lookup
    · exact ⟨crn, lookup⟩
    · exact ⟨old, lookup.trans isOld⟩
  · have lookup := lookup_setReqNo (c := c) sound.keyed.number other
    split at lookup
    · rename_i same
      have isThis := Option.some.inj (lookup.symm.trans isFound)
      rw [← isThis, same]
      exact sound
    · exact windowed.sound other found (lookup.symm.trans isFound)

theorem Windowed.reqNo_isOk (windowed : c.Windowed) {reqNo : Nat} (low : c.clientState.lowWatermark ≤ reqNo)
    (high : reqNo ≤ c.highWatermark) : ∃ crn, c.lookupReqNo reqNo = some crn ∧ c.reqNo reqNo = .ok crn := by
  obtain ⟨crn, found⟩ := windowed.exists_number low high
  refine ⟨crn, found, ?_⟩
  rw [Client.reqNo, found]
  rfl

/-! ### The ready mark -/

/-- The request number is in the window and has not committed. -/
def isUncommitted (c : Client) (reqNo : Nat) : Bool := (c.lookupReqNo reqNo).any (!·.committed)

/-- The request numbers from one mark to another that have not committed. -/
def uncommitted (c : Client) (mark next : Nat) : List Nat :=
  (List.range' mark (next - mark)).filter c.isUncommitted

/-- **What `advanceReady` does.** -/
structure Advances (c : Client) (before : ClientTracker) (mark : Nat) (after : ClientTracker) : Prop where
  lower : c.nextReadyMark ≤ mark
  upper : mark ≤ c.highWatermark + 1
  passed : ∀ reqNo crn, c.nextReadyMark ≤ reqNo → reqNo < mark → c.lookupReqNo reqNo = some crn → crn.Passable
  stops : mark ≤ c.highWatermark → ∀ crn, c.lookupReqNo mark = some crn → ¬ crn.Passable
  lists : after = before.pushReady ((c.uncommitted c.nextReadyMark mark).map (c.clientState.id, ·))

theorem uncommitted_self (mark : Nat) : c.uncommitted mark mark = [] := by
  rw [uncommitted, Nat.sub_self]
  rfl

theorem uncommitted_cons {mark next : Nat} (above : mark < next) :
    c.uncommitted mark next = (if c.isUncommitted mark then [mark] else []) ++ c.uncommitted
    (mark + 1) next := by
  unfold uncommitted
  rw [show next - mark = next - (mark + 1) + 1 by omega, List.range'_succ, filter_cons]
  split <;> rfl

theorem mem_uncommitted {mark next reqNo : Nat} :
    reqNo ∈ c.uncommitted mark next ↔ (mark ≤ reqNo ∧ reqNo < next) ∧ c.isUncommitted reqNo = true := by
  rw [uncommitted, mem_filter, mem_range'_1]
  refine and_congr_left fun _ => ?_
  omega

theorem nodup_uncommitted (mark next : Nat) : (c.uncommitted mark next).Nodup :=
  List.Nodup.filter _ nodup_range'

theorem Advances.step {before mid after : ClientTracker}
    (found : c.lookupReqNo c.nextReadyMark = some crn) (passable : crn.Passable)
    (pushed : mid = before.pushReady
      (if c.isUncommitted c.nextReadyMark then [(c.clientState.id, c.nextReadyMark)] else []))
    (advances : Advances { c with nextReadyMark := c.nextReadyMark + 1 } mid mark after) :
    Advances c before mark after := by
  have lower : c.nextReadyMark + 1 ≤ mark := advances.lower
  refine ⟨by omega, advances.upper, fun reqNo other low high isOther => ?_, advances.stops, ?_⟩
  · rcases Nat.eq_or_lt_of_le low with same | above
    · rw [← same, found] at isOther
      cases isOther
      exact passable
    · exact advances.passed reqNo other above high isOther
  · have lists := advances.lists
    rw [pushed, ClientTracker.pushReady_append] at lists
    rw [lists, uncommitted_cons lower]
    split <;> rfl

/-- **`advanceReady` on a window** does not fail. -/
theorem safe_advanceReadyFrom (fuel : Nat) {c : Client} (windowed : c.Windowed)
    (isFuel : fuel = c.highWatermark + 1 - c.nextReadyMark) (tracker : ClientTracker) :
    safe (fun _ => False) (c.advanceReadyFrom fuel) tracker fun after actions result =>
      actions = [] ∧ ∃ mark, result = { c with nextReadyMark := mark } ∧ Advances c tracker mark after := by
  induction fuel generalizing c tracker with
  | zero =>
    have upper := windowed.upper
    refine safe_pure ⟨rfl, c.nextReadyMark, rfl, le_refl _, upper, fun reqNo crn low high => ?_, ?_, ?_⟩
    · omega
    · omega
    · rw [uncommitted_self]
      exact tracker.pushReady_nil.symm
  | succ fuel ih =>
    have inside : c.nextReadyMark ≤ c.highWatermark := by omega
    obtain ⟨crn, found, isNumber⟩ := windowed.reqNo_isOk windowed.lower inside
    have moved : Windowed { c with nextReadyMark := c.nextReadyMark + 1 } :=
      windowed.withMark (windowed.lower.trans (Nat.le_succ _)) (by omega)
    have keyed := (windowed.isSound found).keyed
    have isUncommitted : c.isUncommitted c.nextReadyMark = !crn.committed := by
      rw [Client.isUncommitted, found]
      rfl
    unfold advanceReadyFrom
    rw [isNumber]
    refine safe_lift_bind (fun _ failed => (nomatch failed)) fun value isValue => ?_
    cases isValue
    have next (mid : ClientTracker) (passable : crn.Passable)
        (pushed : mid = tracker.pushReady
          (if c.isUncommitted c.nextReadyMark then [(c.clientState.id, c.nextReadyMark)] else [])) :
        safe (fun _ => False) (advanceReadyFrom { c with nextReadyMark := c.nextReadyMark + 1 } fuel) mid
          fun after actions result => actions = [] ∧
            ∃ mark, result = { c with nextReadyMark := mark } ∧ Advances c tracker mark after := by
      refine safe_mono (ih moved (by show fuel = c.highWatermark + 1 - (c.nextReadyMark + 1); omega) mid) ?_
      rintro after actions result ⟨silent, mark, isResult, advances⟩
      exact ⟨silent, mark, isResult, advances.step found passable pushed⟩
    split
    · rename_i committed
      refine next tracker (.inl committed) ?_
      rw [isUncommitted, committed]
      exact tracker.pushReady_nil.symm
    · rename_i notCommitted
      split
      · rename_i strong
        refine safe_bind (safe_modify (next _ (.inr ?_) ?_))
        · obtain ⟨digest, isStrong, mine⟩ := any_eq_true.mp strong
          exact ⟨digest, isStrong, of_decide_eq_true mine⟩
        · rw [isUncommitted, Bool.eq_false_iff.mpr notCommitted, keyed.client, keyed.number]
          rfl
      · rename_i weak
        refine safe_pure ⟨rfl, c.nextReadyMark, rfl, le_refl _, windowed.upper, fun reqNo crn low high => ?_,
          fun _ other isOther passable => ?_, ?_⟩
        · omega
        · rw [found] at isOther
          cases isOther
          rcases passable with committed | ⟨digest, isStrong, mine⟩
          · exact notCommitted committed
          · exact weak (any_eq_true.mpr ⟨digest, isStrong, decide_eq_true mine⟩)
        · rw [uncommitted_self]
          exact tracker.pushReady_nil.symm

theorem safe_advanceReady (windowed : c.Windowed) (tracker : ClientTracker) :
    safe (fun _ => False) c.advanceReady tracker fun after actions result =>
      actions = [] ∧ ∃ mark, result = { c with nextReadyMark := mark } ∧ Advances c tracker mark after :=
  safe_advanceReadyFrom _ windowed rfl tracker

theorem Windowed.advanced {before after : ClientTracker} (windowed : c.Windowed)
    (advances : Advances c before mark after) : Windowed { c with nextReadyMark := mark } :=
  windowed.withMark (windowed.lower.trans advances.lower) advances.upper

/-! ### New request numbers -/

/-- Request numbers are pushed to the end of the window. -/
def pushReqNos (c : Client) (number : Nat → ClientReqNo) (reqNos : List Nat) : Client :=
  reqNos.foldl (fun c reqNo => c.pushReqNo (number reqNo)) c

theorem pushReqNos_spec (numbered : ∀ reqNo ∈ reqNos, (number reqNo).reqNo = reqNo) (c : Client) :
    c.pushReqNos number reqNos =
        { c with reqNoList := c.reqNoList ++ reqNos, reqNos := (c.pushReqNos number reqNos).reqNos } ∧
      ∀ reqNo, (c.pushReqNos number reqNos).reqNos.lookup reqNo =
        if reqNo ∈ reqNos then some (number reqNo) else c.reqNos.lookup reqNo := by
  induction reqNos generalizing c with
  | nil =>
    refine ⟨?_, fun reqNo => (if_neg not_mem_nil).symm⟩
    show c = { c with reqNoList := c.reqNoList ++ [], reqNos := c.reqNos }
    rw [append_nil]
  | cons first rest ih =>
    have isFirst := numbered first mem_cons_self
    obtain ⟨same, lookup⟩ := ih (fun reqNo member => numbered reqNo (mem_cons_of_mem _ member))
      (c.pushReqNo (number first))
    refine ⟨same.trans ?_, fun reqNo => (lookup reqNo).trans ?_⟩
    · show ({ c.setReqNo (number first) with
          reqNoList := (c.reqNoList ++ [(number first).reqNo]) ++ rest, reqNos := _ } : Client) = _
      rw [isFirst, append_assoc]
      rfl
    · show (if reqNo ∈ rest then _ else (c.setReqNo (number first)).reqNos.lookup reqNo) = _
      rw [lookup_setReqNo isFirst]
      by_cases isRest : reqNo ∈ rest
      · rw [if_pos isRest, if_pos (mem_cons_of_mem _ isRest)]
      · rw [if_neg isRest]
        rcases eq_or_ne reqNo first with rfl | different
        · rw [if_pos rfl, if_pos mem_cons_self]
        · rw [if_neg different, if_neg (not_mem_cons_of_ne_of_not_mem different isRest)]

/-- A window that ends with new request numbers. -/
theorem lookup_pushReqNos
    (numbered : ∀ reqNo ∈ reqNos, (number reqNo).reqNo = reqNo) {reqNo : Nat} :
    (c.pushReqNos number reqNos).lookupReqNo reqNo =
      if reqNo ∈ reqNos then some (number reqNo) else c.lookupReqNo reqNo := by
  obtain ⟨same, lookup⟩ := pushReqNos_spec numbered c
  have list : (c.pushReqNos number reqNos).reqNoList = c.reqNoList ++ reqNos := by rw [same]
  unfold lookupReqNo
  rw [list, lookup]
  by_cases isNew : reqNo ∈ reqNos
  · rw [if_pos isNew, if_pos (mem_append_right _ isNew), if_pos isNew]
  · rw [if_neg isNew, if_neg isNew]
    exact if_congr (by rw [mem_append, or_iff_left isNew]) rfl rfl

/-! ### Restarts -/

/-- The object of a request number after a restart: the old one, or a new one, with the votes of the
nodes. -/
def restoredReqNo (old : Option Client) (seqNo : Nat) (nc : NetworkConfig) (clientState : ClientState)
    (reqNo : Nat) : ClientReqNo :=
  let validAfterSeqNo := if reqNo > intermediateHighWatermark clientState then
    seqNo + nc.checkpointInterval else seqNo
  let crn := (old.bind fun client => client.lookupReqNo reqNo).getD
    (newClientReqNo clientState.id reqNo nc validAfterSeqNo)
  ClientReqNo.reinitialize { crn with committed := isCommitted reqNo clientState } nc

/-- The numbers of a restart that are new. -/
def newNumbers (old : Option Client) (reqNos : List Nat) : List Nat :=
  reqNos.filter fun reqNo => (old.bind fun client => client.lookupReqNo reqNo).isNone

theorem safe_oldOrNewReqNo (old : Option Client) (seqNo : Nat) (nc : NetworkConfig)
    (clientState : ClientState) (reqNo : Nat) (tracker : ClientTracker) :
    safe (fun _ => False) (oldOrNewReqNo old seqNo nc clientState reqNo) tracker
      fun after actions crn => after = tracker ∧
        actions = (newNumbers old [reqNo]).map (.allocatedRequest clientState.id ·) ∧
        ClientReqNo.reinitialize { crn with committed := isCommitted reqNo clientState } nc =
          restoredReqNo old seqNo nc clientState reqNo := by
  unfold oldOrNewReqNo newNumbers restoredReqNo
  cases found : old.bind fun client => client.lookupReqNo reqNo with
  | some crn =>
    refine safe_pure ⟨rfl, ?_, rfl⟩
    rw [filter_cons_of_neg (by rw [found]; exact Bool.false_ne_true)]
    rfl
  | none =>
    refine safe_bind (safe_emit (safe_pure ⟨rfl, ?_, rfl⟩))
    rw [filter_cons_of_pos (by rw [found]; rfl)]
    rfl

theorem safe_restoreReqNos (old : Option Client) (seqNo : Nat) (nc : NetworkConfig)
    (clientState : ClientState) (reqNos : List Nat) (c : Client) (tracker : ClientTracker) :
    safe (fun _ => False) (c.reinitializeReqNos old seqNo nc clientState reqNos) tracker
      fun after actions result => after = tracker ∧
        actions = (newNumbers old reqNos).map (.allocatedRequest clientState.id ·) ∧
        result = c.pushReqNos (restoredReqNo old seqNo nc clientState) reqNos := by
  induction reqNos generalizing c with
  | nil => exact safe_pure ⟨rfl, rfl, rfl⟩
  | cons reqNo rest ih =>
    refine safe_bind (safe_mono (safe_oldOrNewReqNo old seqNo nc clientState reqNo tracker) ?_)
    rintro _ _ crn ⟨rfl, rfl, isRestored⟩
    dsimp only
    rw [isRestored]
    refine safe_mono (ih _) ?_
    rintro _ _ _ ⟨rfl, rfl, rfl⟩
    refine ⟨rfl, ?_, rfl⟩
    rw [← map_append, newNumbers, newNumbers, ← filter_append]
    rfl

/-- **A client that has been restarted**, before its mark moves. -/
structure Restarted (old : Option Client) (seqNo : Nat) (nc : NetworkConfig)
    (clientState : ClientState) (reconfiguring : Bool) (c : Client) : Prop where
  windowed : c.Windowed
  config : c.networkConfig = nc
  current : c.clientState = clientState
  high : c.highWatermark = newHighWatermark clientState reconfiguring
  mark : c.nextReadyMark = clientState.lowWatermark
  numbers : ∀ reqNo, clientState.lowWatermark ≤ reqNo → reqNo ≤ c.highWatermark →
    c.lookupReqNo reqNo = some (restoredReqNo old seqNo nc clientState reqNo)

theorem sound_restored {old : Option Client} (seqNo : Nat) (nc : NetworkConfig)
    {clientState : ClientState} (wasWindowed : ∀ client ∈ old, client.Windowed)
    (sameId : ∀ client ∈ old, client.clientState.id = clientState.id) (reqNo : Nat) :
    (restoredReqNo old seqNo nc clientState reqNo).Sound clientState.id reqNo := by
  unfold restoredReqNo
  have sound : ((old.bind fun client => client.lookupReqNo reqNo).getD (newClientReqNo clientState.id reqNo
      nc (if reqNo > intermediateHighWatermark clientState then
        seqNo + nc.checkpointInterval else seqNo))).Sound clientState.id reqNo := by
    cases found : old.bind fun client => client.lookupReqNo reqNo with
    | none => exact sound_new ..
    | some crn =>
      obtain ⟨client, isOld, isNumber⟩ := Option.bind_eq_some_iff.mp found
      rw [← sameId client isOld]
      exact (wasWindowed client isOld).isSound isNumber
  exact (@ClientReqNo.call_spec _ _ _ _ _ sound (.restart nc (isCommitted reqNo clientState)) rfl).1

theorem low_le_newHigh (fits : state.widthConsumedLastCheckpoint ≤ state.width)
    (reconfiguring : Bool) : state.lowWatermark ≤ newHighWatermark state reconfiguring := by
  unfold newHighWatermark intermediateHighWatermark
  split <;> omega

section Restart

variable {old : Option Client} (seqNo : Nat) (nc : NetworkConfig) {clientState : ClientState}
  (reconfiguring : Bool) (wasWindowed : ∀ client ∈ old, client.Windowed)
  (sameId : ∀ client ∈ old, client.clientState.id = clientState.id)
  (fits : clientState.widthConsumedLastCheckpoint ≤ clientState.width)

include wasWindowed sameId fits

theorem restarted_pushed {reqNos : List Nat} (isReqNos : reqNos = List.range' clientState.lowWatermark
      (newHighWatermark clientState reconfiguring + 1 - clientState.lowWatermark)) :
    Restarted old seqNo nc clientState reconfiguring
      (pushReqNos ⟨nc, clientState, newHighWatermark clientState reconfiguring,
        clientState.lowWatermark, [], (old.map Client.reqNos).getD ∅⟩
        (restoredReqNo old seqNo nc clientState) reqNos) := by
  have low := low_le_newHigh fits reconfiguring
  have sound := sound_restored seqNo nc wasWindowed sameId
  have numbered : ∀ reqNo ∈ reqNos,
      (restoredReqNo old seqNo nc clientState reqNo).reqNo = reqNo :=
    fun reqNo _ => (sound reqNo).keyed.number
  have inside {reqNo : Nat} : reqNo ∈ reqNos ↔
      clientState.lowWatermark ≤ reqNo ∧ reqNo ≤ newHighWatermark clientState reconfiguring := by
    rw [isReqNos, mem_range'_1]
    omega
  have found := fun reqNo => @lookup_pushReqNos ⟨nc, clientState,
    newHighWatermark clientState reconfiguring, clientState.lowWatermark, [],
    (old.map Client.reqNos).getD ∅⟩ _ _ numbered reqNo
  obtain ⟨same, lookup⟩ := pushReqNos_spec numbered ⟨nc, clientState,
    newHighWatermark clientState reconfiguring, clientState.lowWatermark, [], (old.map Client.reqNos).getD ∅⟩
  refine ⟨⟨?_, fun reqNo member => ?_, fun reqNo crn isFound => ?_, ?_, ?_⟩, ?_, ?_, ?_, ?_,
    fun reqNo above below => ?_⟩
  · rw [same]
    exact isReqNos
  · rw [same] at member
    exact ⟨_, (lookup reqNo).trans (if_pos member)⟩
  · rw [lookup] at isFound
    rw [same]
    split at isFound
    · cases isFound
      exact sound reqNo
    · cases old with
      | none => cases isFound
      | some client =>
        have wasSound := (wasWindowed client rfl).sound reqNo crn isFound
        rwa [sameId client rfl] at wasSound
  · rw [same]
  · rw [same]
    exact low.trans (Nat.le_succ _)
  · rw [same]
  · rw [same]
  · rw [same]
  · rw [same]
  · rw [same] at below
    rw [found, if_pos (inside.mpr ⟨above, below⟩)]

theorem safe_restart (tracker : ClientTracker) :
    safe (fun _ => False) (Client.reinitialize old seqNo nc clientState reconfiguring) tracker
      fun after actions result =>
        actions = (newNumbers old (List.range' clientState.lowWatermark
          (newHighWatermark clientState reconfiguring + 1 - clientState.lowWatermark))).map
            (.allocatedRequest clientState.id ·) ∧
        ∃ restarted mark, Restarted old seqNo nc clientState reconfiguring restarted ∧
          Advances restarted tracker mark after ∧ result = { restarted with nextReadyMark := mark } := by
  refine safe_bind (safe_mono (safe_restoreReqNos ..) ?_)
  rintro _ _ _ ⟨rfl, rfl, rfl⟩
  have restarted := restarted_pushed seqNo nc reconfiguring wasWindowed sameId fits rfl
  refine safe_mono (safe_advanceReady restarted.windowed _) ?_
  rintro after _ _ ⟨rfl, mark, rfl, advances⟩
  exact ⟨append_nil _, _, mark, restarted, advances, rfl⟩

end Restart

/-! ### Checkpoints -/

/-- The loop of `allocate` over the committed request numbers finds them. -/
theorem markCommitted_spec {c : Client}
    (known : ∀ reqNo ∈ reqNos, ∃ crn, c.lookupReqNo reqNo = some crn)
    (keyed : ∀ reqNo crn, c.reqNos.lookup reqNo = some crn → crn.reqNo = reqNo) :
    ∃ marked, c.markCommitted state reqNos = .ok { c with reqNos := marked } ∧
      ∀ reqNo, marked.lookup reqNo = (c.reqNos.lookup reqNo).map
        (·.marked (decide (reqNo ∈ reqNos) && isCommitted reqNo state)) := by
  induction reqNos generalizing c with
  | nil =>
    refine ⟨c.reqNos, rfl, fun reqNo => ?_⟩
    simp only [not_mem_nil, decide_false, Bool.false_and, marked_false]
    exact Option.map_id'.symm
  | cons first rest ih =>
    unfold markCommitted
    obtain ⟨crn, found⟩ := known first mem_cons_self
    have isFirst : (crn.marked true).reqNo = first := keyed first crn (lookupReqNo_eq_some.mp found).2
    by_cases committed : isCommitted first state = true
    · have lookup := lookup_setReqNo (c := c) isFirst
      obtain ⟨marked, ran, isMarked⟩ := @ih (c.setReqNo (crn.marked true)) (fun reqNo member => by
          rw [lookupReqNo_setReqNo found isFirst]
          split
          · exact ⟨_, rfl⟩
          · exact known reqNo (mem_cons_of_mem _ member)) (fun reqNo other isOther => by
          rw [lookup] at isOther
          split at isOther
          · rename_i same
            cases isOther
            exact isFirst.trans same.symm
          · exact keyed reqNo other isOther)
      refine ⟨marked, ?_, fun reqNo => (isMarked reqNo).trans ?_⟩
      · rw [if_pos committed, found]
        dsimp only
        rw [← marked_true]
        exact ran
      · rw [lookup]
        split
        · rename_i same
          rw [same, (lookupReqNo_eq_some.mp found).2]
          simp only [Option.map_some, marked_marked, Bool.true_or, mem_cons_self, decide_true,
            Bool.true_and, committed]
        · rename_i different
          simp only [mem_cons, different, false_or]
    · obtain ⟨marked, ran, isMarked⟩ := ih (fun reqNo member => known reqNo (mem_cons_of_mem _ member)) keyed
      refine ⟨marked, ?_, fun reqNo => (isMarked reqNo).trans ?_⟩
      · rw [if_neg committed]
        exact ran
      · rcases eq_or_ne reqNo first with rfl | different
        · simp only [Bool.eq_false_iff.mpr committed, Bool.and_false]
        · simp only [mem_cons, different, false_or]

theorem dropWhile_range' {low target length : Nat} (above : low ≤ target) (inside : target < low + length) :
    (List.range' low length).dropWhile (· ≠ target) = List.range' target (length - (target - low)) := by
  induction length generalizing low with
  | zero => omega
  | succ length ih =>
    rw [List.range'_succ, dropWhile_cons]
    rcases Nat.eq_or_lt_of_le above with rfl | further
    · rw [if_neg (by simp), Nat.sub_self, Nat.sub_zero, List.range'_succ]
    · rw [if_pos (by simpa using further.ne), ih (by omega) (by omega)]
      congr 1
      omega

/-- **A client whose window has moved on**, before its mark moves. -/
structure Moved (c : Client) (seqNo : Nat) (state : ClientState) (reconfiguring : Bool) (moved : Client) :
    Prop where
  windowed : moved.Windowed
  forward : c.clientState.lowWatermark ≤ state.lowWatermark
  config : moved.networkConfig = c.networkConfig
  current : moved.clientState = state
  high : moved.highWatermark = newHighWatermark state reconfiguring
  mark : moved.nextReadyMark = max state.lowWatermark c.nextReadyMark
  old : ∀ reqNo crn, state.lowWatermark ≤ reqNo → c.lookupReqNo reqNo = some crn →
    moved.lookupReqNo reqNo = some (crn.marked (isCommitted reqNo state))
  fresh : ∀ reqNo, c.highWatermark < reqNo → reqNo ≤ moved.highWatermark →
    moved.lookupReqNo reqNo = some (newClientReqNo state.id reqNo c.networkConfig
      (seqNo + c.networkConfig.checkpointInterval))

theorem foldl_pushReqNo (clientId seqNo : Nat) (reqNos : List Nat) (c : Client) :
    reqNos.foldl (fun c reqNo => c.pushReqNo (newClientReqNo clientId reqNo c.networkConfig
        (seqNo + c.networkConfig.checkpointInterval))) c =
      c.pushReqNos (fun reqNo => newClientReqNo clientId reqNo c.networkConfig
        (seqNo + c.networkConfig.checkpointInterval)) reqNos := by
  induction reqNos generalizing c with
  | nil => rfl
  | cons first rest ih => exact ih _

section Checkpoint

variable {seqNo : Nat} {state : ClientState} {reconfiguring : Bool} (windowed : c.Windowed)
  (sameId : c.clientState.id = state.id) (forward : c.clientState.lowWatermark ≤ state.lowWatermark)
  (fits : state.widthConsumedLastCheckpoint ≤ state.width)
  (aligned : intermediateHighWatermark state = c.highWatermark)

include windowed sameId forward fits aligned

theorem moved_pushed {marked : GoMap Nat ClientReqNo}
    (isMarked : ∀ reqNo, marked.lookup reqNo = (c.reqNos.lookup reqNo).map
      (·.marked (decide (reqNo ∈ List.range' state.lowWatermark (c.highWatermark + 1 - state.lowWatermark)) &&
        isCommitted reqNo state)))
    {list reqNos : List Nat} (isList : list = c.reqNoList.dropWhile (· ≠ state.lowWatermark))
    (isReqNos : reqNos = List.range' (c.highWatermark + 1)
      (newHighWatermark state reconfiguring - c.highWatermark)) :
    Moved c seqNo state reconfiguring
      { pushReqNos ⟨c.networkConfig, state, c.highWatermark, max state.lowWatermark c.nextReadyMark,
        list, marked⟩ (fun reqNo => newClientReqNo state.id reqNo c.networkConfig
          (seqNo + c.networkConfig.checkpointInterval)) reqNos with
        highWatermark := newHighWatermark state reconfiguring } := by
  have bounds : state.lowWatermark ≤ c.highWatermark ∧
    c.highWatermark ≤ newHighWatermark state reconfiguring := by
    rw [← aligned]
    unfold newHighWatermark intermediateHighWatermark
    split <;> omega
  have upper := windowed.upper
  have numbered : ∀ reqNo ∈ reqNos, (newClientReqNo state.id reqNo c.networkConfig
      (seqNo + c.networkConfig.checkpointInterval)).reqNo = reqNo := fun _ _ => rfl
  have isCut : list = List.range' state.lowWatermark (c.highWatermark + 1 - state.lowWatermark) := by
    rw [isList, windowed.list, dropWhile_range' forward (by omega)]
    congr 1
    omega
  have isNew {reqNo : Nat} : reqNo ∈ reqNos ↔
      c.highWatermark < reqNo ∧ reqNo ≤ newHighWatermark state reconfiguring := by
    rw [isReqNos, mem_range'_1]
    omega
  have inCut {reqNo : Nat} : reqNo ∈ list ↔ state.lowWatermark ≤ reqNo ∧ reqNo ≤ c.highWatermark := by
    rw [isCut, mem_range'_1]
    omega
  have found := fun reqNo => @lookup_pushReqNos ⟨c.networkConfig, state, c.highWatermark,
    max state.lowWatermark c.nextReadyMark, list, marked⟩ _ _ numbered reqNo
  obtain ⟨same, lookup⟩ := pushReqNos_spec numbered ⟨c.networkConfig, state, c.highWatermark,
    max state.lowWatermark c.nextReadyMark, list, marked⟩
  generalize pushReqNos _ _ reqNos = pushed at same lookup found ⊢
  have isPushed : pushed.reqNoList = list ++ reqNos := by rw [same]
  refine ⟨⟨?_, fun reqNo member => ?_, fun reqNo crn isFound => ?_, ?_, ?_⟩, forward, ?_, ?_, rfl, ?_, ?_, ?_⟩
  · rw [same]
    show list ++ reqNos = List.range' state.lowWatermark
      (newHighWatermark state reconfiguring + 1 - state.lowWatermark)
    rw [isCut, isReqNos, show c.highWatermark + 1 = state.lowWatermark +
      (c.highWatermark + 1 - state.lowWatermark) by omega]
    rw [Nat.add_sub_cancel_left, List.range'_append_1]
    congr 1
    omega
  · rw [lookup]
    split
    · exact ⟨_, rfl⟩
    · rename_i isOld
      have isCutNumber := inCut.mp ((mem_append.mp (isPushed ▸ member)).resolve_right isOld)
      obtain ⟨crn, isFound⟩ := windowed.numbers reqNo (windowed.mem_list.mpr (by omega))
      rw [isMarked, isFound]
      exact ⟨_, rfl⟩
  · have isId : pushed.clientState.id = state.id := by rw [same]
    rw [isId]
    have isLooked := (lookup reqNo).symm.trans isFound
    split at isLooked
    · cases isLooked
      exact sound_new ..
    · obtain ⟨old, isOld, rfl⟩ := Option.map_eq_some_iff.mp ((isMarked reqNo).symm.trans isLooked)
      rw [← sameId]
      exact (windowed.sound reqNo old isOld).marked _
  · rw [same]
    exact le_max_left _ _
  · rw [same]
    show max state.lowWatermark c.nextReadyMark ≤ newHighWatermark state reconfiguring + 1
    omega
  · rw [same]
  · rw [same]
  · rw [same]
  · intro reqNo crn above isFound
    have below := (windowed.inside isFound).2
    show pushed.lookupReqNo reqNo = _
    rw [found, if_neg fun isNewNumber => absurd (isNew.mp isNewNumber).1 (by omega), lookupReqNo_eq_some]
    refine ⟨inCut.mpr ⟨above, below⟩, ?_⟩
    rw [isMarked, (lookupReqNo_eq_some.mp isFound).2, Option.map_some,
      decide_eq_true (mem_range'_1.mpr (by omega)), Bool.true_and]
  · intro reqNo above below
    show pushed.lookupReqNo reqNo = _
    rw [found, if_pos (isNew.mpr ⟨above, below⟩)]

/-- **`allocate`** cannot fail on a state that goes with the window. -/
theorem safe_allocate (tracker : ClientTracker) :
    safe (fun _ => False) (c.allocate seqNo state reconfiguring) tracker fun after actions result =>
      actions = (List.range' (c.highWatermark + 1)
        (newHighWatermark state reconfiguring - c.highWatermark)).map
          (.allocatedRequest state.id ·) ∧
        ∃ moved mark, Moved c seqNo state reconfiguring moved ∧ Advances moved tracker mark after ∧
          result = { moved with nextReadyMark := mark } := by
  have cut : ∀ reqNo ∈ List.range' state.lowWatermark (c.highWatermark + 1 - state.lowWatermark), ∃ crn,
      lookupReqNo { c with
        nextReadyMark := max state.lowWatermark c.nextReadyMark
        reqNoList := c.reqNoList.dropWhile (· ≠ state.lowWatermark) } reqNo = some crn := by
    intro reqNo member
    obtain ⟨above, below⟩ := mem_range'_1.mp member
    obtain ⟨crn, found⟩ := windowed.numbers reqNo (windowed.mem_list.mpr (by omega))
    refine ⟨crn, lookupReqNo_eq_some.mpr ⟨?_, found⟩⟩
    rw [windowed.list, dropWhile_range' forward (by omega), mem_range'_1]
    omega
  obtain ⟨marked, ran, isMarked⟩ := markCommitted_spec cut
    fun reqNo crn found => (windowed.sound reqNo crn found).keyed.number
  have moved := @moved_pushed c seqNo state reconfiguring windowed sameId forward fits aligned _ isMarked _ _
    rfl rfl
  unfold allocate
  dsimp only
  rw [if_neg (not_not.mpr aligned), ran, aligned]
  refine safe_lift_bind (fun _ failed => (nomatch failed)) fun value isValue => ?_
  cases isValue
  refine safe_bind (safe_emit ?_)
  rw [foldl_pushReqNo]
  refine safe_mono (safe_advanceReady moved.windowed _) ?_
  rintro after _ _ ⟨rfl, mark, rfl, advances⟩
  exact ⟨append_nil _, _, mark, moved, advances, rfl⟩

end Checkpoint

/-- A state that does not go with the window is refused. -/
theorem aligned_of_allocate {seqNo : Nat} {reconfiguring : Bool} {tracker after : ClientTracker}
    {actions : List Action} {result : Client}
    (ran : c.allocate seqNo state reconfiguring tracker = .ok (after, actions, result)) :
    intermediateHighWatermark state = c.highWatermark := by
  by_contra misaligned
  unfold allocate at ran
  rw [if_pos misaligned] at ran
  cases ran

/-! ### Ticks -/

/-- **A tick** of the window is one of each of its request numbers. -/
theorem wp_tickReqNos {clientId : Nat} (distinct : reqNos.Nodup) {c : Client}
    (sound : ∀ reqNo crn, c.reqNos.lookup reqNo = some crn → crn.Sound clientId reqNo)
    (tracker : ClientTracker) : wp (c.tickReqNos reqNos) tracker fun after actions result =>
      after = tracker ∧ announced actions = [] ∧ ∃ ticked, result = { c with reqNos := ticked } ∧
        (∀ reqNo next, ticked.lookup reqNo = some next → next.Sound clientId reqNo) ∧
        ∀ reqNo crn, c.reqNos.lookup reqNo = some crn → ∃ next, ticked.lookup reqNo = some next ∧
          if reqNo ∈ reqNos then ∃ actions, crn.tick = .ok (next, actions) else next = crn := by
  induction reqNos generalizing c with
  | nil =>
    refine (wp_pure _ _ _).mpr ⟨rfl, rfl, c.reqNos, rfl, sound, fun reqNo crn found => ⟨crn, found, ?_⟩⟩
    rw [if_neg not_mem_nil]
  | cons first rest ih =>
    obtain ⟨isNew, distinct⟩ := nodup_cons.mp distinct
    unfold tickReqNos
    cases found : c.reqNos.lookup first with
    | none =>
      refine wp_mono (ih distinct sound) ?_
      rintro after actions _ ⟨isAfter, silent, ticked, rfl, isSound, each⟩
      refine ⟨isAfter, silent, ticked, rfl, isSound, fun reqNo crn isFound => ?_⟩
      obtain ⟨next, isNext, ticks⟩ := each reqNo crn isFound
      have different : reqNo ≠ first := fun same => by rw [same, found] at isFound; cases isFound
      simp only [mem_cons, different, false_or]
      exact ⟨next, isNext, ticks⟩
    | some crn =>
      refine wp_lift_bind fun result ticked => ?_
      obtain ⟨next, sent⟩ := result
      have nextSound := (tick_spec (sound first crn found) ticked).1
      have lookup := lookup_setReqNo (c := c) nextSound.keyed.number
      rw [wp_bind, wp_emit]
      refine wp_mono (@ih distinct (c.setReqNo next) fun reqNo other isOther => ?_) ?_
      · rw [lookup] at isOther
        split at isOther
        · rename_i same
          cases isOther
          exact same ▸ nextSound
        · exact sound reqNo other isOther
      · rintro after actions _ ⟨isAfter, silent, all, rfl, isSound, each⟩
        refine ⟨isAfter, ?_, all, rfl, isSound, fun reqNo other isOther => ?_⟩
        · rw [announced_append, announced_tick ticked, silent]
          rfl
        · rcases eq_or_ne reqNo first with rfl | different
          · rw [found] at isOther
            cases isOther
            obtain ⟨final, isFinal, ticks⟩ := each reqNo next ((lookup reqNo).trans (if_pos rfl))
            rw [if_neg isNew] at ticks
            refine ⟨final, isFinal, ?_⟩
            rw [if_pos mem_cons_self]
            exact ⟨sent, ticks ▸ ticked⟩
          · obtain ⟨final, isFinal, ticks⟩ :=
              each reqNo other ((lookup reqNo).trans ((if_neg different).trans isOther))
            simp only [mem_cons, different, false_or]
            exact ⟨final, isFinal, ticks⟩

theorem wp_tick (windowed : c.Windowed) (tracker : ClientTracker) :
    wp c.tick tracker fun after actions result =>
      after = tracker ∧ announced actions = [] ∧ ∃ ticked, result = { c with reqNos := ticked } ∧
        result.Windowed ∧ ∀ reqNo crn, c.lookupReqNo reqNo = some crn →
          ∃ next actions, result.lookupReqNo reqNo = some next ∧ crn.tick = .ok (next, actions) := by
  have distinct : c.reqNoList.Nodup := by
    rw [windowed.list]
    exact nodup_range'
  refine wp_mono (wp_tickReqNos distinct windowed.sound tracker) ?_
  rintro after actions _ ⟨isAfter, silent, ticked, rfl, sound, each⟩
  refine ⟨isAfter, silent, ticked, rfl, windowed.withNumbers (fun reqNo => ?_) sound,
    fun reqNo crn found => ?_⟩
  · rintro ⟨crn, found⟩
    obtain ⟨next, isNext, _⟩ := each reqNo crn found
    exact ⟨next, isNext⟩
  · obtain ⟨member, found⟩ := lookupReqNo_eq_some.mp found
    obtain ⟨next, isNext, ticks⟩ := each reqNo crn found
    rw [if_pos member] at ticks
    obtain ⟨sent, ticks⟩ := ticks
    exact ⟨next, sent, lookupReqNo_eq_some.mpr ⟨member, isNext⟩, ticks⟩

end Client

/-! ### Calls -/

/-- **What happens to a client** and to the tracker's lists. -/
inductive ClientCall where
  /-- A request of the client is persisted. -/
  | persist (reqNo : Nat) (digest : Bytes)
  | ack (source : NodeID) (reqNo : Nat) (digest : Bytes)
  | fetch (reqNo : Nat) (digest : Bytes)
  | tick
  /-- The result of a checkpoint: the tracker drops what has committed, and the window moves on. -/
  | allocate (seqNo : Nat) (networkState : NetworkState)
  /-- The tracker's lists are emptied, and the client is reinitialized. -/
  | restart (seqNo : Nat) (networkState : NetworkState)
  /-- Other clients push to the lists, and an active epoch consumes them. -/
  | lists (tracker : ClientTracker)

/-- The client's state in the network state: the last one, as `clientTracker.allocate` has it. -/
def NetworkState.client? (networkState : NetworkState) (clientId : Nat) : Option ClientState :=
  networkState.clients.reverse.find? fun client => client.id == clientId

def NetworkState.reconfiguring (networkState : NetworkState) : Bool :=
  !networkState.pendingReconfigurations.isEmpty

namespace ClientTracker

/-- What the lists have of a client. -/
def readyOf (tracker : ClientTracker) (clientId : Nat) : List (Nat × Nat) :=
  tracker.readyList.contents.filter (·.1 = clientId)

def availableOf (tracker : ClientTracker) (clientId : Nat) : List RequestAck :=
  tracker.availableList.contents.filter (·.clientId = clientId)

end ClientTracker

namespace Client

/-- **The client's part of a call of the disseminator.** -/
def call (myID : NodeID) (c : Client) : ClientCall → GoProc ClientTracker Client
  | .persist reqNo digest =>
    if !c.inWatermarks reqNo then pure c
    else do
      let crn ← lift (c.reqNo reqNo)
      let (crn, actions) := crn.applyNewRequest ⟨c.clientState.id, reqNo, digest⟩
      emit actions
      pure (c.setReqNo crn)
  | .ack source reqNo digest => do
    let (c, _) ← c.ack myID source ⟨c.clientState.id, reqNo, digest⟩
    pure c
  | .fetch reqNo digest => match c.reqNos.lookup reqNo with
    | none => fail "nil pointer dereference: clientReqNo"
    | some crn => match crn.requests.lookup digest with
      | none => fail "nil pointer dereference: clientRequest"
      | some cr => do
        emit cr.fetch.2
        pure (c.setReqNo (crn.setRequest digest cr.fetch.1))
  | .tick => c.tick
  | .allocate seqNo networkState => match networkState.client? c.clientState.id with
    | none => fail "the client is not in the network state"
    | some state => do
      let tracker ← Proc.get
      let tracker ← lift (tracker.allocate networkState)
      Proc.modify fun _ => tracker
      c.allocate seqNo state networkState.reconfiguring
  | .restart seqNo networkState => match networkState.client? c.clientState.id with
    | none => fail "the client is not in the network state"
    | some state => do
      Proc.modify fun _ => ClientTracker.reinitialize
      Client.reinitialize (some c) seqNo networkState.config state networkState.reconfiguring
  | .lists lists => do
    let tracker ← Proc.get
    if lists.readyOf c.clientState.id = tracker.readyOf c.clientState.id ∧
        lists.availableOf c.clientState.id = tracker.availableOf c.clientState.id then do
      Proc.modify fun _ => lists
      pure c
    else fail "only the client pushes its own requests"

/-- **The states that checkpoints record**: the low watermark does not go back, and the width that
was consumed is a part of the width. -/
def Regular (c : Client) : ClientCall → Prop
  | .allocate _ networkState => ∀ state ∈ networkState.client? c.clientState.id,
    c.clientState.lowWatermark ≤ state.lowWatermark ∧ state.widthConsumedLastCheckpoint ≤ state.width
  | .restart _ networkState => ∀ state ∈ networkState.client? c.clientState.id,
    state.widthConsumedLastCheckpoint ≤ state.width
  | _ => True

instance (c : Client) (made : ClientCall) : Decidable (c.Regular made) :=
  match made with
  | .allocate .. | .restart .. => inferInstanceAs (Decidable (∀ _ ∈ _, _))
  | .persist .. | .ack .. | .fetch .. | .tick | .lists _ => isTrue trivial

/-- The calls in turn, while they are regular and meet the condition. -/
def execute (myID : NodeID) (condition : Client → ClientCall → Prop) [∀ c made, Decidable (condition c made)]
    (started : Go (ClientTracker × List Action × Client)) (calls : List ClientCall) :
    Go (ClientTracker × List Action × Client) := do
  let first ← started
  calls.foldlM (fun (tracker, emitted, c) made =>
    if c.Regular made ∧ condition c made then do
      let (after, actions, next) ← c.call myID made tracker
      pure (after, emitted ++ actions, next)
    else throw "the condition is not met") first

end Client

/-- **The life of a client at a replica**: its calls, all of which meet the condition, and what they
emit. -/
inductive ClientRun (myID : NodeID) (condition : Client → ClientCall → Prop) :
    List ClientCall → Client → ClientTracker → List Action → Prop
  | start {seqNo : Nat} {nc : NetworkConfig} {clientState : ClientState} {reconfiguring : Bool}
      {c : Client} {tracker : ClientTracker} {actions : List Action}
      (fits : clientState.widthConsumedLastCheckpoint ≤ clientState.width)
      (started : Client.reinitialize none seqNo nc clientState reconfiguring
        ClientTracker.reinitialize = .ok (tracker, actions, c)) :
      ClientRun myID condition [] c tracker actions
  | step {calls : List ClientCall} {c next : Client} {tracker after : ClientTracker}
      {emitted actions : List Action} {call : ClientCall}
      (ran : ClientRun myID condition calls c tracker emitted)
      (regular : c.Regular call) (meets : condition c call)
      (called : c.call myID call tracker = .ok (after, actions, next)) :
      ClientRun myID condition (calls ++ [call]) next after (emitted ++ actions)

namespace Client

variable {c : Client} {myID : NodeID} {tracker : ClientTracker} {reqNo : Nat} {actions : List Action}
  {made : ClientCall}

/-! ### What a call does to the window -/

theorem Windowed.setCalled (windowed : c.Windowed) {crn next : ClientReqNo} {made : ReqNoCall}
    (found : c.reqNos.lookup reqNo = some crn) (called : crn.call made = .ok (next, actions)) :
    (c.setReqNo next).Windowed :=
  windowed.setReqNo (call_spec (windowed.sound reqNo crn found) called).1

theorem safe_persist (windowed : c.Windowed) {digest : Bytes} (inside : c.inWatermarks reqNo = true) :
    safe (fun _ => False) (c.call myID (.persist reqNo digest)) tracker fun after actions result =>
      ∃ crn next, c.lookupReqNo reqNo = some crn ∧ crn.call (.persist digest) = .ok (next, actions) ∧
        result = c.setReqNo next ∧ after = tracker := by
  have bounds : reqNo ≤ c.highWatermark ∧ c.clientState.lowWatermark ≤ reqNo := by
    simpa [inWatermarks] using inside
  obtain ⟨crn, found, isNumber⟩ := windowed.reqNo_isOk bounds.2 bounds.1
  have keyed := (windowed.isSound found).keyed
  simp only [call]
  rw [if_neg (by rw [inside]; exact Bool.false_ne_true), isNumber]
  refine safe_lift_bind (fun _ failed => (nomatch failed)) fun value isValue => ?_
  cases isValue
  refine safe_bind (safe_emit (safe_pure ⟨crn, _, found, ?_, rfl, rfl⟩))
  rw [append_nil, ClientReqNo.call, ClientReqNo.ackOf, keyed.client, keyed.number]
  rfl

/-- What an ack pushes to the available list. -/
def ackedTracker (c : Client) (myID source : NodeID) (crn : ClientReqNo) (ack : RequestAck)
    (tracker : ClientTracker) :
    ClientTracker :=
  if crn.becomesAvailable c.networkConfig myID source ack then
    { tracker with availableList := tracker.availableList.pushBack ack } else tracker

/-- **An ack inside the window**: the request becomes available as it may, and the mark moves if it
is strong. -/
theorem safe_ack (windowed : c.Windowed) {crn : ClientReqNo} (source : NodeID) (digest : Bytes)
    (found : c.lookupReqNo reqNo = some crn) :
    safe (fun _ => False) (c.call myID (.ack source reqNo digest)) tracker fun after actions result =>
      ∃ next mark, crn.call (.ack c.networkConfig source digest) = .ok (next, actions) ∧
        result = { c.setReqNo next with nextReadyMark := mark } ∧ (c.setReqNo next).Windowed ∧
        if (crn.acked source (crn.ackOf digest)).agreements.card = intersectionQuorum c.networkConfig then
          Advances (c.setReqNo next) (c.ackedTracker myID source crn (crn.ackOf digest) tracker) mark after
        else mark = c.nextReadyMark ∧ after = c.ackedTracker myID source crn (crn.ackOf digest) tracker := by
  have keyed := (windowed.isSound found).keyed
  have isAck : (⟨c.clientState.id, reqNo, digest⟩ : RequestAck) = crn.ackOf digest := by
    rw [ClientReqNo.ackOf, keyed.client, keyed.number]
  have setWindowed : (c.setReqNo (crn.withAck c.networkConfig source (crn.ackOf digest))).Windowed :=
    windowed.setCalled (lookupReqNo_eq_some.mp found).2
      (show crn.call (.ack c.networkConfig source digest) = .ok (_, _) from rfl)
  have foundAck : c.lookupReqNo (crn.ackOf digest).reqNo = some crn := by
    rw [← isAck]
    exact found
  simp only [call]
  rw [isAck, ack_eq foundAck]
  refine safe_bind (safe_bind (safe_emit (safe_bind (safe_modify ?_))))
  split
  · refine safe_bind (safe_mono (safe_advanceReady setWindowed _) ?_)
    rintro after _ _ ⟨rfl, mark, rfl, advances⟩
    refine safe_pure (safe_pure ⟨_, mark, ?_, rfl, setWindowed, advances⟩)
    simp only [append_nil]
    rfl
  · refine safe_pure (safe_pure ⟨_, c.nextReadyMark, ?_, rfl, setWindowed, rfl, rfl⟩)
    simp only [append_nil]
    rfl

/-- **What a call does** to a window and to the lists. -/
inductive Steps (myID : NodeID) (c : Client) (tracker : ClientTracker) :
    ClientCall → Client → ClientTracker → List Action → Prop
  /-- The request that is persisted is outside of the window. -/
  | outside {reqNo : Nat} {digest : Bytes} (isOutside : c.inWatermarks reqNo = false) :
      Steps myID c tracker (.persist reqNo digest) c tracker []
  | persist {reqNo : Nat} {digest : Bytes} {crn next : ClientReqNo} {actions : List Action}
      (found : c.lookupReqNo reqNo = some crn) (called : crn.call (.persist digest) = .ok (next, actions)) :
      Steps myID c tracker (.persist reqNo digest) (c.setReqNo next) tracker actions
  /-- The ack makes the request strong, and the mark moves. -/
  | strong {source : NodeID} {reqNo : Nat} {digest : Bytes} {crn next : ClientReqNo} {actions : List Action}
      {mark : Nat} {after : ClientTracker} (found : c.lookupReqNo reqNo = some crn)
      (called : crn.call (.ack c.networkConfig source digest) = .ok (next, actions))
      (votes : (crn.acked source (crn.ackOf digest)).agreements.card = intersectionQuorum c.networkConfig)
      (windowed : (c.setReqNo next).Windowed)
      (advances : Advances (c.setReqNo next)
        (c.ackedTracker myID source crn (crn.ackOf digest) tracker) mark after) :
      Steps myID c tracker (.ack source reqNo digest) { c.setReqNo next with nextReadyMark :=
        mark } after actions
  | weak {source : NodeID} {reqNo : Nat} {digest : Bytes} {crn next : ClientReqNo} {actions : List Action}
      (found : c.lookupReqNo reqNo = some crn)
      (called : crn.call (.ack c.networkConfig source digest) = .ok (next, actions))
      (votes : (crn.acked source (crn.ackOf digest)).agreements.card ≠ intersectionQuorum c.networkConfig) :
      Steps myID c tracker (.ack source reqNo digest) (c.setReqNo next)
        (c.ackedTracker myID source crn (crn.ackOf digest) tracker) actions
  | fetch {reqNo : Nat} {digest : Bytes} {crn next : ClientReqNo} {actions : List Action}
      (found : c.reqNos.lookup reqNo = some crn) (called : crn.call (.fetch digest) = .ok (next, actions)) :
      Steps myID c tracker (.fetch reqNo digest) (c.setReqNo next) tracker actions
  | tick {ticked : GoMap Nat ClientReqNo} {actions : List Action} (silent : announced actions = [])
      (windowed : Windowed { c with reqNos := ticked })
      (each : ∀ reqNo crn, c.lookupReqNo reqNo = some crn → ∃ next actions,
        lookupReqNo { c with reqNos := ticked } reqNo = some next ∧ crn.tick = .ok (next, actions)) :
      Steps myID c tracker .tick { c with reqNos := ticked } tracker actions
  | allocate {seqNo : Nat} {networkState : NetworkState} {state : ClientState}
      {collected after : ClientTracker}
      {moved : Client} {mark : Nat} (isState : networkState.client? c.clientState.id = some state)
      (aligned : intermediateHighWatermark state = c.highWatermark)
      (collects : tracker.allocate networkState = .ok collected)
      (moves : Moved c seqNo state networkState.reconfiguring moved)
      (advances : Advances moved collected mark after) :
      Steps myID c tracker (.allocate seqNo networkState) { moved with nextReadyMark := mark } after
        ((List.range' (c.highWatermark + 1) (newHighWatermark state networkState.reconfiguring -
          c.highWatermark)).map (.allocatedRequest state.id ·))
  | restart {seqNo : Nat} {networkState : NetworkState} {state : ClientState} {after : ClientTracker}
      {restarted : Client} {mark : Nat} (isState : networkState.client? c.clientState.id = some state)
      (restarts : Restarted (some c) seqNo networkState.config state networkState.reconfiguring restarted)
      (advances : Advances restarted ClientTracker.reinitialize mark after) :
      Steps myID c tracker (.restart seqNo networkState) { restarted with nextReadyMark := mark } after
        ((newNumbers (some c) (List.range' state.lowWatermark
          (newHighWatermark state networkState.reconfiguring + 1 - state.lowWatermark))).map
            (.allocatedRequest state.id ·))
  | lists {lists : ClientTracker}
      (sameReady : lists.readyOf c.clientState.id = tracker.readyOf c.clientState.id)
      (sameAvailable : lists.availableOf c.clientState.id = tracker.availableOf c.clientState.id) :
      Steps myID c tracker (.lists lists) c lists []

theorem client?_id {networkState : NetworkState} {clientId : Nat} {state : ClientState}
    (found : networkState.client? clientId = some state) : state.id = clientId := by
  have isId := List.find?_some found
  exact eq_of_beq isId

/-- **A call inside the window's invariant** is one of these steps. -/
theorem steps_of_call (windowed : c.Windowed) (regular : c.Regular made) :
    wp (c.call myID made) tracker fun after actions next => Steps myID c tracker made next after actions := by
  cases made with
  | persist reqNo digest =>
    cases inside : c.inWatermarks reqNo with
    | true =>
      refine wp_mono (safe_persist windowed inside).2 ?_
      rintro _ _ _ ⟨crn, next, found, called, rfl, rfl⟩
      exact .persist found called
    | false =>
      simp only [call]
      rw [if_pos (by rw [inside]; rfl)]
      exact (wp_pure _ _ _).mpr (.outside inside)
  | ack source reqNo digest =>
    cases found : c.lookupReqNo reqNo with
    | none =>
      simp only [call]
      have fails : c.ack myID source ⟨c.clientState.id, reqNo, digest⟩ =
          fail "got ack for a request outside of the client's window" := by
        unfold ack
        rw [found]
      rw [fails]
      exact wp_fail _ _ _
    | some crn =>
      refine wp_mono (safe_ack windowed source digest found).2 ?_
      rintro after actions _ ⟨next, mark, called, rfl, setWindowed, outcome⟩
      split at outcome
      · rename_i votes
        exact .strong found called votes setWindowed outcome
      · rename_i votes
        obtain ⟨rfl, rfl⟩ := outcome
        exact .weak found called votes
  | fetch reqNo digest =>
    simp only [call]
    cases found : c.reqNos.lookup reqNo with
    | none => exact wp_fail _ _ _
    | some crn =>
      dsimp only
      cases isRequest : crn.requests.lookup digest with
      | none => exact wp_fail _ _ _
      | some cr =>
        rw [wp_bind, wp_emit]
        refine (wp_pure _ _ _).mpr (.fetch found ?_)
        simp only [ClientReqNo.call, isRequest, append_nil]
        rfl
  | tick =>
    refine wp_mono (wp_tick windowed tracker) ?_
    rintro _ _ _ ⟨rfl, silent, ticked, rfl, tickedWindowed, each⟩
    exact .tick silent tickedWindowed each
  | allocate seqNo networkState =>
    simp only [call]
    cases isState : networkState.client? c.clientState.id with
    | none => exact wp_fail _ _ _
    | some state =>
      refine wp_get_bind (wp_lift_bind fun collected collects => ?_)
      rw [wp_bind, wp_modify]
      intro after actions result ran
      obtain ⟨forward, fits⟩ := regular state isState
      have aligned := aligned_of_allocate ran
      obtain ⟨rfl, moved, mark, moves, advances, rfl⟩ :=
        (safe_allocate windowed (client?_id isState).symm forward fits aligned collected).2 _ _ _ ran
      exact .allocate isState aligned collects moves advances
  | restart seqNo networkState =>
    simp only [call]
    cases isState : networkState.client? c.clientState.id with
    | none => exact wp_fail _ _ _
    | some state =>
      rw [wp_bind, wp_modify]
      have was : ∀ client ∈ some c, client.Windowed := fun client isThis => by cases isThis; exact windowed
      have sameId : ∀ client ∈ some c, client.clientState.id = state.id := fun client isThis => by
        cases isThis
        exact (client?_id isState).symm
      refine wp_mono (safe_restart seqNo networkState.config networkState.reconfiguring was sameId
        (regular state isState) _).2 ?_
      rintro after _ _ ⟨rfl, restarted, mark, restarts, advances, rfl⟩
      exact .restart isState restarts advances
  | lists lists =>
    refine wp_get_bind ?_
    split
    · rename_i same
      exact (wp_pure _ _ _).mpr (.lists same.1 same.2)
    · exact wp_fail _ _ _

theorem Steps.windowed {next : Client} {after : ClientTracker}
    (steps : Steps myID c tracker made next after actions) (windowed : c.Windowed) : next.Windowed := by
  cases steps with
  | outside => exact windowed
  | persist found called => exact windowed.setCalled (lookupReqNo_eq_some.mp found).2 called
  | strong _ _ _ setWindowed advances => exact setWindowed.advanced advances
  | weak found called => exact windowed.setCalled (lookupReqNo_eq_some.mp found).2 called
  | fetch found called => exact windowed.setCalled found called
  | tick _ tickedWindowed => exact tickedWindowed
  | allocate _ _ _ moves advances => exact moves.windowed.advanced advances
  | restart _ restarts advances => exact restarts.windowed.advanced advances
  | lists => exact windowed

end Client

namespace ClientRun

variable {myID : NodeID} {condition : Client → ClientCall → Prop} {calls : List ClientCall} {c : Client}
  {tracker : ClientTracker} {emitted : List Action} {seqNo : Nat} {nc : NetworkConfig}
  {clientState : ClientState} {reconfiguring : Bool}

theorem started
    {actions : List Action} (fits : clientState.widthConsumedLastCheckpoint ≤ clientState.width)
    (started : Client.reinitialize none seqNo nc clientState reconfiguring
      ClientTracker.reinitialize = .ok (tracker, actions, c)) :
    ∃ restarted mark, Client.Restarted none seqNo nc clientState reconfiguring restarted ∧
      Client.Advances restarted ClientTracker.reinitialize mark tracker ∧
      c = { restarted with nextReadyMark := mark } :=
  ((Client.safe_restart seqNo nc reconfiguring (fun _ isOld => absurd isOld (Option.not_mem_none _))
    (fun _ isOld => absurd isOld (Option.not_mem_none _)) fits _).2 _ _ _ started).2

theorem of_execute [∀ c made, Decidable (condition c made)]
    (ran : Client.execute myID condition (Client.reinitialize none seqNo nc clientState reconfiguring
      ClientTracker.reinitialize) calls = .ok (tracker, emitted, c))
    (fits : clientState.widthConsumedLastCheckpoint ≤ clientState.width) :
    ClientRun myID condition calls c tracker emitted := by
  obtain ⟨⟨firstTracker, firstActions, first⟩, started, runs⟩ := bind_eq_ok.mp ran
  clear ran
  induction calls using List.reverseRecOn generalizing c tracker emitted with
  | nil =>
    cases runs
    exact .start fits started
  | append_singleton calls made ih =>
    rw [foldlM_append] at runs
    obtain ⟨⟨before, earlier, client⟩, ranBefore, last⟩ := bind_eq_ok.mp runs
    obtain ⟨_, stepped, isEnd⟩ := bind_eq_ok.mp last
    cases isEnd
    by_cases meets : client.Regular made ∧ condition client made
    · simp only [if_pos meets] at stepped
      obtain ⟨⟨after, actions, next⟩, called, isResult⟩ := bind_eq_ok.mp stepped
      cases isResult
      exact (ih ranBefore).step meets.1 meets.2 called
    · simp only [if_neg meets] at stepped
      cases stepped

theorem exists_of_execute (myID : NodeID) (condition : Client → ClientCall → Prop)
    [∀ c made, Decidable (condition c made)] (seqNo : Nat) (nc : NetworkConfig)
    (clientState : ClientState) (calls : List ClientCall) (property : Client → ClientTracker → Prop)
    (fits : clientState.widthConsumedLastCheckpoint ≤ clientState.width)
    (evaluated : ∃ ended, Client.execute myID condition (Client.reinitialize none seqNo nc clientState false
      ClientTracker.reinitialize) calls = .ok ended ∧ property ended.2.2 ended.1) :
    ∃ c tracker emitted, ClientRun myID condition calls c tracker emitted ∧ property c tracker := by
  obtain ⟨⟨tracker, emitted, c⟩, ran, holds⟩ := evaluated
  exact ⟨c, tracker, emitted, of_execute ran fits, holds⟩

/-- **The window stays well formed** in every run. -/
theorem windowed (ran : ClientRun myID condition calls c tracker emitted) : c.Windowed := by
  induction ran with
  | start fits started =>
    obtain ⟨restarted, mark, restarts, advances, rfl⟩ := ClientRun.started fits started
    exact restarts.windowed.advanced advances
  | step _ regular _ called ih => exact (Client.steps_of_call ih regular _ _ _ called).windowed ih

end ClientRun

end MirBft
