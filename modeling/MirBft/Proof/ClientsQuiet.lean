/-
**The disseminator does not touch the log.**

Every method of the client disseminator acts plainly: it sends acks and requests, and asks for
requests to be allocated or forwarded, and that is all, and it has no panics of the epoch code
(`Plain`). So a method of the disseminator, run on the shared components, writes nothing
(`Shared.writes_onClients`).
-/

import MirBft.Proof.ClientTicks
import MirBft.Proof.Failures
import MirBft.Proof.LogWrites

namespace MirBft

open Proc

/-- The methods whose actions are all plain, and that fail elsewhere if they fail. -/
def Plain (σ : Type) : Guard String Action σ where
  rel _ _ actions := ∀ action ∈ actions, action.plain = true
  refl _ := by simp
  trans first second action member := by
    rcases List.mem_append.mp member with early | late
    · exact first action early
    · exact second action late
  excused _ := Elsewhere
  excused_rel _ isOther := isOther

section Plain

variable {σ τ α : Type}

theorem plain_modify (update : σ → σ) : Keeps (Plain σ) (Proc.modify update : GoProc σ Unit) :=
  fun state => safe_modify ((Plain σ).refl state)

theorem plain_emit {actions : List Action} (plain : ∀ action ∈ actions, action.plain = true) :
    Keeps (Plain σ) (emit actions : GoProc σ Unit) :=
  fun _ => safe_emit plain

theorem plain_fail {failure : String} (isOther : Elsewhere failure) : Keeps (Plain σ)
  (fail failure : GoProc σ α) := keeps_fail fun _ => isOther

/-- A method on a part is as plain on the whole. -/
theorem plain_zoom {view : σ → τ} {update : σ → τ → σ} {m : GoProc τ α} (plain : Keeps (Plain τ) m) :
    Keeps (Plain σ) (zoom view update m) :=
  fun state => safe_zoom (plain (view state))

end Plain

/-! ### One request number -/

namespace ClientReqNo

/-- To ask for a request is plain. -/
theorem AskFor.plain {actions : List Action} (ask : AskFor actions) :
    ∀ action ∈ actions, action.plain = true := by
  intro action member
  obtain ⟨_, _, rfl⟩ := ask action member
  rfl

theorem sendAck_plain (crn : ClientReqNo) (ack : RequestAck) :
    ∀ action ∈ (crn.sendAck ack).2, action.plain = true := by
  simp [sendAck, Action.plain, Msg.plain]

/-- A stored request is acked. -/
theorem applyNewRequest_plain (crn : ClientReqNo) (ack : RequestAck) :
    ∀ action ∈ (crn.applyNewRequest ack).2, action.plain = true := by
  unfold applyNewRequest
  split
  · simp
  simp only
  split
  · exact sendAck_plain _ _
  split
  · simp
  · exact sendAck_plain _ _

theorem tickConflict_plain (crn : ClientReqNo) :
    ∀ action ∈ crn.tickConflict.2, action.plain = true := by
  unfold tickConflict
  split
  · simp [sendAck, Action.plain, Msg.plain]
  · simp

/-- **A tick** fetches and acks again: plain messages. -/
theorem tick_plain {crn after : ClientReqNo} {actions : List Action}
    (ticked : crn.tick = .ok (after, actions)) : ∀ action ∈ actions, action.plain = true := by
  rcases tick_eq_ok ticked with ⟨_, _, rfl⟩ | ⟨_, mid, asked, resent, _, _, _, ask, rfl, _, _, isResent⟩
  · simp
  intro action member
  simp only [List.append_assoc, List.mem_append] at member
  rcases member with promoted | fetched | isLast
  · exact tickConflict_plain _ action promoted
  · exact ask.plain action fetched
  · rcases isResent with rfl | ⟨ack, _, rfl⟩
    · cases isLast
    · rw [List.mem_singleton.mp isLast]
      rfl

end ClientReqNo

/-! ### One client -/

namespace Client

/-- The ready mark moves, and nothing is said. -/
theorem plain_advanceReady (c : Client) : Keeps (Plain ClientTracker) c.advanceReady := by
  unfold advanceReady
  generalize c.highWatermark + 1 - c.nextReadyMark = fuel
  induction fuel generalizing c with
  | zero => exact keeps_pure _
  | succ fuel ih =>
    refine keeps_lift_bind (fun _ => reqNo_elsewhere _ _) fun crn _ => ?_
    refine keeps_ite (ih _) (keeps_ite ?_ (keeps_pure _))
    exact keeps_bind (plain_modify _) fun _ => ih _

theorem plain_reinitialize (old : Option Client) (seqNo : Nat) (networkConfig : NetworkConfig)
    (clientState : ClientState) (reconfiguring : Bool) : Keeps (Plain ClientTracker)
    (Client.reinitialize old seqNo networkConfig clientState reconfiguring) := by
  have reqNos (c : Client) (window : List Nat) :
      Keeps (Plain ClientTracker) (c.reinitializeReqNos old seqNo networkConfig clientState window) := by
    induction window generalizing c with
    | nil => exact keeps_pure _
    | cons reqNo rest ih =>
      refine keeps_bind ?_ fun _ => ih _
      unfold oldOrNewReqNo
      split
      · exact keeps_pure _
      · exact keeps_bind (plain_emit (by simp [Action.plain])) fun _ => keeps_pure _
  exact keeps_bind (reqNos _ _) fun c => c.plain_advanceReady

/-- A window moves on, its new numbers are announced. -/
theorem plain_allocate (c : Client) (seqNo : Nat) (state : ClientState) (reconfiguring : Bool) :
    Keeps (Plain ClientTracker) (c.allocate seqNo state reconfiguring) := by
  refine keeps_ite (plain_fail (by simp)) ?_
  refine keeps_lift_bind (fun _ => markCommitted_elsewhere _ _ _) fun _ _ => ?_
  refine keeps_bind (plain_emit fun action member => ?_) fun _ => plain_advanceReady _
  obtain ⟨_, _, rfl⟩ := List.mem_map.mp member
  rfl

/-- A correct request that is missing is asked for. -/
theorem plain_ack (myID : NodeID) (c : Client) (source : NodeID) (request : RequestAck) :
    Keeps (Plain ClientTracker) (c.ack myID source request) := by
  have last (strong : Prop) [Decidable strong] (updated ready : Client) (cr : ClientRequest) :
      Keeps (Plain ClientTracker) (if strong then do
        let c ← ready.advanceReady
        pure (c, cr)
      else pure (updated, cr)) :=
    keeps_ite (keeps_bind ready.plain_advanceReady fun _ => keeps_pure _) (keeps_pure _)
  unfold ack
  split
  · exact plain_fail (by simp)
  refine keeps_ite (keeps_bind (plain_emit (by simp [Action.plain])) fun _ => ?_) ?_
  all_goals
    exact keeps_ite (keeps_bind (plain_modify _) fun _ => last _ _ _ _) (last _ _ _ _)

theorem plain_tick (c : Client) : Keeps (Plain ClientTracker) c.tick := by
  unfold Client.tick
  generalize c.reqNoList = reqNos
  induction reqNos generalizing c with
  | nil => exact keeps_pure _
  | cons reqNo rest ih =>
    unfold tickReqNos
    split
    · exact ih _
    · refine keeps_lift_bind (fun _ => ClientReqNo.tick_elsewhere _) fun _ ticked => ?_
      exact keeps_bind (plain_emit (ClientReqNo.tick_plain ticked)) fun _ => ih _

end Client

/-! ### All clients -/

namespace Clients

theorem plain_onClient {α : Type} {method : GoProc ClientTracker (Client × α)}
    (plain : Keeps (Plain ClientTracker) method) (id : Nat) : Keeps (Plain Clients) (onClient id method) :=
  keeps_bind (plain_zoom plain) fun _ => keeps_bind (plain_modify _) fun _ => keeps_pure _

theorem plain_updateClient {method : GoProc ClientTracker Client}
    (plain : Keeps (Plain ClientTracker) method) (id : Nat) :
    Keeps (Plain Clients) (updateClient id method) :=
  plain_onClient (keeps_bind plain fun _ => keeps_pure _) id

theorem plain_reinitialize (seqNo : Nat) (networkState : NetworkState) :
    Keeps (Plain Clients) (Clients.reinitialize seqNo networkState) := by
  refine keeps_get_bind fun ct => keeps_bind (plain_modify _) fun _ => ?_
  refine keeps_bind (keeps_forEach fun clientState _ => ?_) fun _ => plain_modify _
  exact plain_updateClient (Client.plain_reinitialize _ _ _ _ _) _

theorem plain_tick : Keeps (Plain Clients) tick := by
  refine keeps_get_bind fun ct => keeps_forEach fun clientState _ => keeps_get_bind fun ct => ?_
  split
  · exact plain_fail (by simp)
  · exact plain_updateClient (Client.plain_tick _) _

theorem plain_ack (source : NodeID) (request : RequestAck) :
    Keeps (Plain Clients) (Clients.ack source request) := by
  refine keeps_get_bind fun ct => ?_
  split
  · exact plain_fail (by simp)
  · exact plain_onClient (Client.plain_ack _ _ _ _) _

theorem plain_fetch (request : RequestAck) : Keeps (Plain Clients) (fetch request) := by
  refine keeps_get_bind fun ct => ?_
  split
  · exact plain_fail (by simp)
  split
  · exact plain_fail (by simp)
  split
  · exact plain_fail (by simp)
  · exact keeps_bind (plain_modify _) fun _ => plain_emit (ClientReqNo.askFor_fetch _).plain

/-- **A client message** counts, or is answered. -/
theorem plain_applyMsg (source : NodeID) (msg : Msg) : Keeps (Plain Clients) (applyMsg source msg) := by
  cases msg with
  | requestAck ack => exact keeps_bind (plain_ack source ack) fun _ => keeps_pure _
  | fetchRequest ack =>
    refine keeps_get_bind fun ct => ?_
    split
    · exact keeps_pure _
    refine keeps_ite (keeps_pure _) (keeps_lift_bind (fun _ => Client.reqNo_elsewhere _ _) fun _ _ => ?_)
    split
    · exact keeps_pure _
    · exact keeps_ite (keeps_pure _) (plain_emit (by simp [Action.plain]))
  | _ => exact plain_fail (by simp)

/-- **A message for later** waits in its buffer. -/
theorem plain_step (source : NodeID) (msg : Msg) : Keeps (Plain Clients) (step source msg) := by
  refine keeps_get_bind fun ct => keeps_lift_bind (fun _ => filter_elsewhere _ _ _) fun applyable _ => ?_
  split
  · exact keeps_pure _
  · split
    · exact plain_fail (by simp)
    · exact plain_modify _
  · exact plain_applyMsg _ _

theorem plain_applyNewRequest (request : RequestAck) :
    Keeps (Plain Clients) (applyNewRequest request) := by
  refine keeps_get_bind fun ct => ?_
  split
  · exact keeps_pure _
  refine keeps_ite (keeps_pure _) (keeps_lift_bind (fun _ => Client.reqNo_elsewhere _ _) fun _ _ => ?_)
  exact keeps_bind (plain_emit (ClientReqNo.applyNewRequest_plain _ _)) fun _ => plain_modify _

theorem plain_allocate (seqNo : Nat) (networkState : NetworkState) :
    Keeps (Plain Clients) (allocate seqNo networkState) := by
  refine keeps_get_bind fun ct => keeps_ite (plain_fail (by simp)) ?_
  refine keeps_bind (plain_modify _) fun _ => keeps_bind (keeps_forEach fun clientState _ => ?_) fun _ =>
    keeps_forEach fun id _ => keeps_get_bind fun ct => ?_
  · refine keeps_get_bind fun ct => ?_
    split
    · exact plain_fail (by simp)
    · exact plain_updateClient (Client.plain_allocate _ _ _ _) _
  · split
    · exact plain_fail (by simp)
    · exact keeps_bind (MsgBuffer.keeps_iterate (fun ct id msg _ => ct.filter_elsewhere id msg)
        plain_applyMsg _)
        fun _ => plain_modify _

end Clients

end MirBft
