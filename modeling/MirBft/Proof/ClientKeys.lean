/-
**Request numbers and requests are what they are stored under, and what an ack does.**

A request number object is reached through its client and its number, and a request through its
digest (`ClientReqNo.Keyed`). The code relies on it where it stores an object under its own number.
`Client.ack_eq` says what an ack does to the lists of the client tracker and to the request number.
-/

import MirBft.Proof.MachineRuns

namespace MirBft

open Proc

/-- The acks that the actions send. -/
def requestAcks (actions : List Action) : List RequestAck :=
  actions.filterMap fun action => match action with
    | .send _ (.requestAck ack) => some ack
    | _ => none

@[simp] theorem requestAcks_append (actions more : List Action) :
    requestAcks (actions ++ more) = requestAcks actions ++ requestAcks more :=
  List.filterMap_append

/-! ### One request number -/

namespace ClientReqNo

/-- **The object of this client and number**, with requests of this number only. -/
structure Keyed (clientId reqNo : Nat) (crn : ClientReqNo) : Prop where
  client : crn.clientID = clientId
  number : crn.reqNo = reqNo
  acks : ∀ digest cr, crn.requests.lookup digest = some cr → cr.ack = ⟨clientId, reqNo, digest⟩

variable {clientId reqNo : Nat} {crn : ClientReqNo}

theorem keyed_new (clientId reqNo : Nat) (nc : NetworkConfig) (validAfterSeqNo : Nat) :
    (newClientReqNo clientId reqNo nc validAfterSeqNo).Keyed clientId reqNo :=
  ⟨rfl, rfl, fun _ _ found => nomatch found⟩

section

variable (keyed : crn.Keyed clientId reqNo)
include keyed

theorem Keyed.same {other : ClientReqNo}
    (sameClient : other.clientID = crn.clientID) (sameNumber : other.reqNo = crn.reqNo)
    (sameRequests : other.requests = crn.requests) : other.Keyed clientId reqNo :=
  ⟨sameClient.trans keyed.client, sameNumber.trans keyed.number, by rw [sameRequests]; exact keyed.acks⟩

/-- A new request has the key it is looked up by. -/
theorem Keyed.clientReq (digest : Bytes) :
    (crn.clientReq ⟨clientId, reqNo, digest⟩).ack = ⟨clientId, reqNo, digest⟩ := by
  unfold ClientReqNo.clientReq
  cases found : crn.requests.lookup digest with
  | none => rfl
  | some cr => exact keyed.acks digest cr found

theorem Keyed.setRequest {digest : Bytes} {cr : ClientRequest}
    (isKeyed : cr.ack = ⟨clientId, reqNo, digest⟩) : (crn.setRequest digest cr).Keyed clientId reqNo := by
  refine ⟨keyed.client, keyed.number, fun other found isFound => ?_⟩
  rcases GoMap.of_lookup_insert isFound with ⟨rfl, rfl⟩ | ⟨_, isFound⟩
  · exact isKeyed
  · exact keyed.acks other found isFound

theorem Keyed.nullAck : crn.nullAck = ⟨clientId, reqNo, []⟩ := by
  rw [ClientReqNo.nullAck, keyed.client, keyed.number]

theorem Keyed.store (digest : Bytes) :
    (crn.store ⟨clientId, reqNo, digest⟩).Keyed clientId reqNo := by
  have set : (crn.setRequest digest { crn.clientReq ⟨clientId, reqNo, digest⟩ with stored := true }).Keyed
      clientId reqNo := keyed.setRequest (keyed.clientReq digest)
  exact set.same rfl rfl rfl

theorem Keyed.storeNull :
    (crn.store crn.nullAck).Keyed clientId reqNo := by
  rw [keyed.nullAck]
  exact keyed.store []

theorem Keyed.applyNewRequest (digest : Bytes) :
    (crn.applyNewRequest ⟨clientId, reqNo, digest⟩).1.Keyed clientId reqNo := by
  unfold ClientReqNo.applyNewRequest
  have stored := keyed.store digest
  split
  · exact keyed
  dsimp only
  split
  · exact stored.same rfl rfl rfl
  split
  · exact stored
  · exact stored.storeNull.same rfl rfl rfl

/-- **An ack** is kept under its own digest. -/
theorem Keyed.applyRequestAck (source : NodeID) (digest : Bytes)
    (force : Bool) : (crn.applyRequestAck source ⟨clientId, reqNo, digest⟩ force).Keyed clientId reqNo := by
  unfold ClientReqNo.applyRequestAck
  split
  · exact keyed
  have voted : (if digest ≠ [] then { crn with nonNullVoters := insert source crn.nonNullVoters }
      else crn).Keyed clientId reqNo := by
    split
    · exact keyed.same rfl rfl rfl
    · exact keyed
  dsimp only
  generalize (if digest ≠ [] then { crn with nonNullVoters := insert source crn.nonNullVoters } else crn) =
    counted at voted
  have set : (counted.setRequest digest { counted.clientReq ⟨clientId, reqNo, digest⟩ with
      agreements := insert source (counted.clientReq ⟨clientId, reqNo, digest⟩).agreements }).Keyed
      clientId reqNo := voted.setRequest (voted.clientReq digest)
  split
  · exact set
  split
  · exact set.same rfl rfl rfl
  · exact set.same rfl rfl rfl

theorem Keyed.restoreRequest (nc : NetworkConfig)
    {old : Σ _ : Bytes, ClientRequest} (isKeyed : old.2.ack = ⟨clientId, reqNo, old.1⟩) :
    (restoreRequest nc crn old).Keyed clientId reqNo := by
  have voted : ∀ (nodes : List NodeID) (crn : ClientReqNo), crn.Keyed clientId reqNo →
      (nodes.foldl (fun crn id => if id ∈ old.2.agreements then crn.applyRequestAck id old.2.ack true
        else crn) crn).Keyed clientId reqNo := by
    intro nodes
    induction nodes with
    | nil => exact fun _ keyed => keyed
    | cons id rest ih =>
      intro crn keyed
      refine ih _ ?_
      dsimp only
      split
      · rw [isKeyed]
        exact keyed.applyRequestAck id old.1 true
      · exact keyed
  unfold ClientReqNo.restoreRequest
  have all := voted nc.nodes crn keyed
  split
  · rw [isKeyed] at all ⊢
    have set := all.setRequest (all.clientReq old.1)
    exact ⟨set.client, set.number, (all.store old.1).acks⟩
  · exact all

/-- **A restart** restores the requests under their keys. -/
theorem Keyed.reinitialized (nc : NetworkConfig) :
    (ClientReqNo.reinitialize crn nc).Keyed clientId reqNo := by
  have restored : ∀ (entries : List (Σ _ : Bytes, ClientRequest)) (crn : ClientReqNo),
      (∀ entry ∈ entries, entry.2.ack = ⟨clientId, reqNo, entry.1⟩) → crn.Keyed clientId reqNo →
      (entries.foldl (ClientReqNo.restoreRequest nc) crn).Keyed clientId reqNo := by
    intro entries
    induction entries with
    | nil => exact fun _ _ keyed => keyed
    | cons entry rest ih =>
      intro crn all keyed
      exact ih _ (fun other member => all other (List.mem_cons_of_mem _ member))
        (keyed.restoreRequest nc (all entry List.mem_cons_self))
  refine restored _ _ (fun entry member => ?_) ⟨keyed.client, keyed.number, fun _ _ found => nomatch found⟩
  exact keyed.acks entry.1 entry.2 (AList.mem_lookup_iff.mpr member)

/-! #### Ticks -/

theorem Keyed.tickConflict : crn.tickConflict.1.Keyed clientId reqNo := by
  unfold ClientReqNo.tickConflict
  split
  · exact keyed.storeNull.same rfl rfl rfl
  · exact keyed

end

theorem fetch_ack (cr : ClientRequest) : cr.fetch.1.ack = cr.ack := by
  unfold ClientRequest.fetch
  split <;> rfl

end ClientReqNo

/-! ### What an ack does -/

/-- The request of an ack, with the node among those that acked it. -/
def ClientReqNo.acked (crn : ClientReqNo) (source : NodeID) (request : RequestAck) : ClientRequest :=
  { crn.clientReq request with agreements := insert source (crn.clientReq request).agreements }

/-- The request number after an ack. -/
def ClientReqNo.withAck (crn : ClientReqNo) (nc : NetworkConfig) (source : NodeID)
    (request : RequestAck) : ClientReqNo :=
  let votes := (crn.acked source request).agreements.card
  { crn.setRequest request.digest (crn.acked source request) with
    weakRequests := if votes = someCorrectQuorum nc then
      crn.weakRequests.insert request.digest else crn.weakRequests
    strongRequests := if votes = intersectionQuorum nc then
      crn.strongRequests.insert request.digest else crn.strongRequests }

/-- **The ack makes the request available**: it is here, and becomes correct with the ack, or is
correct and the ack is this node's own. -/
def ClientReqNo.becomesAvailable (crn : ClientReqNo) (nc : NetworkConfig) (myID source : NodeID)
    (request : RequestAck) : Prop :=
  let votes := (crn.acked source request).agreements.card
  (crn.clientReq request).stored = true ∧
    (votes = someCorrectQuorum nc ∨ (someCorrectQuorum nc ≤ votes ∧ source = myID))

instance (crn : ClientReqNo) (nc : NetworkConfig) (myID source : NodeID) (request : RequestAck) :
    Decidable (crn.becomesAvailable nc myID source request) :=
  inferInstanceAs (Decidable (_ ∧ _))

namespace Client

/-- **What an ack does**: the request is asked for when it becomes correct and is not there, and
becomes available when it is; then the ready mark may move. -/
theorem ack_eq {myID source : NodeID} {c : Client} {crn : ClientReqNo} {request : RequestAck}
    (found : c.lookupReqNo request.reqNo = some crn) :
    c.ack myID source request = (do
      emit (if (crn.acked source request).agreements.card = someCorrectQuorum c.networkConfig ∧
        !(crn.clientReq request).stored then [.correctRequest request] else [])
      Proc.modify fun tracker => if crn.becomesAvailable c.networkConfig myID source request then
        { tracker with availableList := tracker.availableList.pushBack request } else tracker
      if (crn.acked source request).agreements.card = intersectionQuorum c.networkConfig then do
        let c ← (c.setReqNo (crn.withAck c.networkConfig source request)).advanceReady
        pure (c, crn.acked source request)
      else pure (c.setReqNo (crn.withAck c.networkConfig source request), crn.acked source request)) := by
  have weak (votes : Prop) [Decidable votes] (set : ClientReqNo) :
      (if votes then { set with weakRequests := set.weakRequests.insert request.digest } else set) =
        { set with weakRequests :=
          if votes then set.weakRequests.insert request.digest else set.weakRequests } := by
    split <;> rfl
  have strong (votes : Prop) [Decidable votes] (set : ClientReqNo) (cr : ClientRequest) :
      (if votes then do
          let c ← (c.setReqNo { set with
            strongRequests := set.strongRequests.insert request.digest }).advanceReady
          pure (c, cr)
        else pure (c.setReqNo set, cr) : GoProc ClientTracker (Client × ClientRequest)) =
      let voted := c.setReqNo { set with strongRequests :=
        if votes then set.strongRequests.insert request.digest else set.strongRequests }
      if votes then do
        let c ← voted.advanceReady
        pure (c, cr)
      else pure (voted, cr) := by
    split <;> rfl
  by_cases asks : (crn.acked source request).agreements.card = someCorrectQuorum c.networkConfig ∧
      (!(crn.clientReq request).stored) = true
  · rw [if_pos asks]
    by_cases pushes : crn.becomesAvailable c.networkConfig myID source request
    · simp only [if_pos pushes]
      unfold ack
      simp only [found, weak]
      refine (if_pos asks).trans (congrArg _ (funext fun _ => ?_))
      exact (if_pos pushes).trans (congrArg _ (funext fun _ => strong _ _ _))
    · simp only [if_neg pushes, modify_id_bind]
      unfold ack
      simp only [found, weak]
      refine (if_pos asks).trans (congrArg _ (funext fun _ => ?_))
      exact (if_neg pushes).trans (strong _ _ _)
  · rw [if_neg asks, emit_nil_bind]
    by_cases pushes : crn.becomesAvailable c.networkConfig myID source request
    · simp only [if_pos pushes]
      unfold ack
      simp only [found, weak]
      exact (if_neg asks).trans ((if_pos pushes).trans (congrArg _ (funext fun _ => strong _ _ _)))
    · simp only [if_neg pushes, modify_id_bind]
      unfold ack
      simp only [found, weak]
      exact (if_neg asks).trans ((if_neg pushes).trans (strong _ _ _))

end Client

/-! ### One client -/

theorem ClientReqNo.Keyed.withAck {clientId reqNo : Nat} {crn : ClientReqNo}
    (keyed : crn.Keyed clientId reqNo) (nc : NetworkConfig) (source : NodeID) (digest : Bytes) :
    (crn.withAck nc source ⟨clientId, reqNo, digest⟩).Keyed clientId reqNo := by
  have set : (crn.setRequest digest (crn.acked source ⟨clientId, reqNo, digest⟩)).Keyed clientId reqNo :=
    keyed.setRequest (keyed.clientReq digest)
  exact set.same rfl rfl rfl

end MirBft
