/-
**Which admitted messages can be dispatched.**

`preProcess` looks at the payload of every message and at most of the pointers that the
classification dereferences, but not at all of them, and it admits a message type that no component
takes.

* `route_ofMsg`: for a message of the model, the way through `StateMachine.step` is the model's.
* `admitted_dispatched_iff`: an initialized machine classifies an admitted message without a panic
  if and only if the message is not a `ForwardRequest`, its `EpochChangeAck` has an epoch change,
  and no request of a `ForwardBatch` that was asked for is `nil`.
-/

import MirBft.Model.MsgFilter
import MirBft.Proof.MachineRuns

namespace MirBft

open Proc

theorem mapM_deref_some (acks : List RequestAck) :
    (acks.map some).mapM (Wire.deref "RequestAck") = .ok acks := by
  induction acks with
  | nil => rfl
  | cons ack rest ih =>
    rw [List.map_cons, List.mapM_cons, ih]
    rfl

theorem mapM_deref_isOk {acks : List (Option RequestAck)} :
    (∃ values, acks.mapM (Wire.deref "RequestAck") = .ok values) ↔ none ∉ acks := by
  induction acks with
  | nil => exact ⟨fun _ => List.not_mem_nil, fun _ => ⟨[], rfl⟩⟩
  | cons ack rest ih =>
    rw [List.mapM_cons]
    cases ack with
    | none =>
      refine ⟨fun ⟨values, isOk⟩ => ?_, fun absent => absurd List.mem_cons_self absent⟩
      cases isOk
    | some ack =>
      constructor
      · rintro ⟨values, isOk⟩ member
        obtain ⟨_, _, continued⟩ := bind_eq_ok.mp isOk
        obtain ⟨others, isRest, _⟩ := bind_eq_ok.mp continued
        exact ih.mp ⟨others, isRest⟩ (by simpa using member)
      · intro absent
        obtain ⟨others, isRest⟩ := ih.mpr fun member => absent (List.mem_cons_of_mem _ member)
        exact ⟨ack :: others, by rw [isRest]; rfl⟩

theorem require_eq_ok {α : Type} {text : String} {pointer : Option α} {value : α} :
    Wire.require text pointer = .ok value ↔ pointer = some value := by
  cases pointer with
  | none => exact ⟨fun isOk => (nomatch isOk), fun isSome => (nomatch isSome)⟩
  | some other => simp [Wire.require, pure, Except.pure]

theorem EpochTracker.classify_eq {st : TrackerState} {source : NodeID} {wire : Wire.Msg} {msg : Msg}
    (same : Wire.epochForMsg wire = epochForMsg msg) :
    st.tracker.classify wire = EpochTracker.filter st source msg := by
  unfold EpochTracker.classify EpochTracker.filter
  rw [same]
  cases st.tracker.currentEpoch with
  | none => rfl
  | some target => rfl

theorem BatchTracker.stepWire_forwardBatch (bt : BatchTracker) (source : NodeID) (seqNo : Nat)
    (requestAcks : List RequestAck) (digest : Bytes) :
    bt.stepWire source (Wire.ofMsg (.forwardBatch seqNo requestAcks digest)) =
      bt.step source (.forwardBatch seqNo requestAcks digest) := by
  change (if digest ∉ bt.fetchInFlight then pure [] else do
    let requestAcks ← (requestAcks.map some).mapM (Wire.deref "RequestAck")
    pure (bt.applyForwardBatchMsg source seqNo digest requestAcks)) =
      pure (bt.applyForwardBatchMsg source seqNo digest requestAcks)
  rw [mapM_deref_some]
  by_cases absent : digest ∉ bt.fetchInFlight
  · rw [if_pos absent, BatchTracker.applyForwardBatchMsg, if_pos absent]
  · rw [if_neg absent]
    rfl

namespace SmState

/-- **For a message of the model** the route is the classification that the model's components
make. -/
theorem route_ofMsg (st : SmState) (source : NodeID) (msg : Msg) :
    st.route source (Wire.ofMsg msg) = match msg with
      | .requestAck _ | .fetchRequest _ | .forwardRequest .. =>
        Route.clients <$> st.sh.clients.filter source msg
      | .checkpoint .. =>
        Route.checkpoints <$> CheckpointTracker.filter ⟨st.checkpointTracker, st.sh⟩ source msg
      | .fetchBatch .. | .forwardBatch .. => Route.batches <$> st.sh.batchTracker.step source msg
      | _ => Route.epochs <$> EpochTracker.filter ⟨st.tracker, st.sh⟩ source msg := by
  have epochs (wire : Wire.Msg) (same : Wire.epochForMsg wire = epochForMsg msg) :
      st.tracker.classify wire = EpochTracker.filter ⟨st.tracker, st.sh⟩ source msg :=
    @EpochTracker.classify_eq ⟨st.tracker, st.sh⟩ source wire msg same
  cases msg with
  | requestAck _ | fetchRequest _ | forwardRequest _ _ | checkpoint _ _ | fetchBatch _ _ => rfl
  | forwardBatch seqNo requestAcks digest =>
    exact congrArg (Route.batches <$> ·) (BatchTracker.stepWire_forwardBatch ..)
  | _ => exact congrArg (Route.epochs <$> ·) (epochs _ rfl)

/-- What the classification needs and the filter does not look at. -/
def Dispatchable (st : SmState) : Wire.Msg → Prop
  | .forwardRequest _ => False
  | .epochChangeAck (some epochChangeAck) => epochChangeAck.epochChange ≠ none
  | .forwardBatch (some forwardBatch) =>
    forwardBatch.digest ∈ st.sh.batchTracker.fetchInFlight → none ∉ forwardBatch.requestAcks
  | _ => True

theorem map_isOk {α β : Type} {f : α → β} {result : Go α} :
    (∃ value, f <$> result = .ok value) ↔ ∃ value, result = .ok value := by
  cases result with
  | error text => simp
  | ok value => simp

theorem ite_pure_isOk {α : Type} {first second : Prop} [Decidable first] [Decidable second]
    (one two three : α) :
    ∃ value, (if first then pure one else if second then pure two else pure three : Go α) = .ok value := by
  split
  · exact ⟨one, rfl⟩
  · split
    · exact ⟨two, rfl⟩
    · exact ⟨three, rfl⟩

variable {st : SmState}

theorem classify_isOk (running : st.Running) {msg : Wire.Msg} :
    (∃ applyable, st.tracker.classify msg = .ok applyable) ↔ ∃ epoch, Wire.epochForMsg msg = .ok epoch := by
  constructor
  · rintro ⟨applyable, isOk⟩
    obtain ⟨epoch, isEpoch, _⟩ := bind_eq_ok.mp isOk
    exact ⟨epoch, isEpoch⟩
  · rintro ⟨epoch, isEpoch⟩
    cases isTarget : st.tracker.currentEpoch with
    | none => exact absurd isTarget running.epoch
    | some target =>
      rw [EpochTracker.classify, isEpoch, isTarget]
      exact ite_pure_isOk ..

theorem checkpoint_isOk (running : st.Running) (checkpoint : Checkpoint) :
    ∃ applyable, st.checkpointTracker.classify (.checkpoint (some checkpoint)) = .ok applyable := by
  have nonempty := running.window
  obtain ⟨low, isLow⟩ : ∃ low, st.checkpointTracker.lowWatermark = .ok low := by
    rw [CheckpointTracker.lowWatermark, List.head?_eq_some_head nonempty]
    exact ⟨_, rfl⟩
  obtain ⟨high, isHigh⟩ : ∃ high, st.checkpointTracker.highWatermark = .ok high := by
    rw [CheckpointTracker.highWatermark, List.getLast?_eq_some_getLast nonempty]
    exact ⟨_, rfl⟩
  change ∃ applyable, (st.checkpointTracker.lowWatermark >>= fun low =>
    st.checkpointTracker.highWatermark >>= fun high => _) = Except.ok applyable
  rw [isLow, isHigh]
  exact ite_pure_isOk ..

theorem requestAck_isOk (ct : Clients) (ack : RequestAck) :
    ∃ applyable, ct.classify (.requestAck (some ack)) = .ok applyable := by
  dsimp only [Clients.classify, Wire.deref, bind, pure, Except.bind, Except.pure]
  split
  · exact ⟨_, rfl⟩
  · exact ite_pure_isOk ..

/-- The batch tracker takes a batch unless it is one that was asked for and has a `nil` request. -/
theorem forwardBatch_isOk (bt : BatchTracker) (source : NodeID) (forwardBatch : Wire.ForwardBatch) :
    (∃ actions, bt.stepWire source (.forwardBatch (some forwardBatch)) = .ok actions) ↔
      (forwardBatch.digest ∈ bt.fetchInFlight → none ∉ forwardBatch.requestAcks) := by
  change (∃ actions, (if forwardBatch.digest ∉ bt.fetchInFlight then pure [] else
    forwardBatch.requestAcks.mapM (Wire.deref "RequestAck") >>= fun requestAcks => pure _) =
      Except.ok actions) ↔ _
  by_cases absent : forwardBatch.digest ∉ bt.fetchInFlight
  · rw [if_pos absent]
    exact ⟨fun _ member => absurd member absent, fun _ => ⟨[], rfl⟩⟩
  · rw [if_neg absent, ← mapM_deref_isOk]
    constructor
    · rintro ⟨actions, isOk⟩ _
      obtain ⟨values, isValues, _⟩ := bind_eq_ok.mp isOk
      exact ⟨values, isValues⟩
    · intro isOk
      obtain ⟨values, isValues⟩ := isOk (not_not.mp absent)
      exact ⟨_, bind_eq_ok.mpr ⟨values, isValues, rfl⟩⟩

/-- **Admitted messages that can be dispatched**: an initialized machine, whatever it was started
from and whatever has happened, classifies an admitted message without a panic if and only if the
message has what the filter does not look at. -/
theorem admitted_dispatched_iff {events : List Event}
    (run : MachineRun (fun _ _ => True) events (.initialized st)) (source : NodeID) {msg : Wire.Msg}
    (admitted : Wire.preProcess msg = .ok ()) :
    (∃ route, st.route source msg = .ok route) ↔ st.Dispatchable msg := by
  have running := run.running
  cases msg with
  | unset => cases admitted
  | forwardRequest _ =>
    refine ⟨fun ⟨route, routed⟩ => ?_, False.elim⟩
    cases routed
  | requestAck payload =>
    cases payload with
    | none => cases admitted
    | some ack => exact iff_of_true (map_isOk.mpr (requestAck_isOk _ ack)) trivial
  | fetchRequest _ => exact iff_of_true ⟨_, rfl⟩ trivial
  | checkpoint payload =>
    cases payload with
    | none => cases admitted
    | some checkpoint => exact iff_of_true (map_isOk.mpr (checkpoint_isOk running checkpoint)) trivial
  | fetchBatch payload =>
    cases payload with
    | none => cases admitted
    | some fetchBatch => exact iff_of_true ⟨_, rfl⟩ trivial
  | forwardBatch payload =>
    cases payload with
    | none => cases admitted
    | some forwardBatch => exact map_isOk.trans (forwardBatch_isOk _ _ forwardBatch)
  | epochChangeAck payload =>
    cases payload with
    | none => cases admitted
    | some epochChangeAck =>
      refine map_isOk.trans ((classify_isOk running).trans ?_)
      obtain ⟨originator, change⟩ := epochChangeAck
      cases change with
      | none =>
        refine ⟨fun ⟨epoch, isEpoch⟩ => ?_, fun isSet => absurd rfl isSet⟩
        cases isEpoch
      | some change => exact iff_of_true ⟨_, rfl⟩ (Option.some_ne_none change)
  | newEpoch payload =>
    obtain ⟨⟨newConfig, changes⟩, isPayload, rest⟩ := bind_eq_ok.mp admitted
    obtain ⟨⟨config, start, preprepares⟩, isNewConfig, rest⟩ := bind_eq_ok.mp rest
    obtain ⟨epochConfig, isConfig, _⟩ := bind_eq_ok.mp rest
    obtain rfl := require_eq_ok.mp isPayload
    obtain rfl := require_eq_ok.mp isNewConfig
    obtain rfl := require_eq_ok.mp isConfig
    exact iff_of_true (map_isOk.mpr ((classify_isOk running).mpr ⟨_, rfl⟩)) trivial
  | newEpochEcho payload | newEpochReady payload =>
    obtain ⟨⟨config, start, preprepares⟩, isPayload, rest⟩ := bind_eq_ok.mp admitted
    obtain ⟨epochConfig, isConfig, _⟩ := bind_eq_ok.mp rest
    obtain rfl := require_eq_ok.mp isPayload
    obtain rfl := require_eq_ok.mp isConfig
    exact iff_of_true (map_isOk.mpr ((classify_isOk running).mpr ⟨_, rfl⟩)) trivial
  | preprepare payload | prepare payload | commit payload | suspect payload | epochChange payload =>
    cases payload with
    | none => cases admitted
    | some payload => exact iff_of_true (map_isOk.mpr ((classify_isOk running).mpr ⟨_, rfl⟩)) trivial

/-- A new node classifies an ack of an epoch change. -/
theorem new_node_classifies : ∃ st, MachineRun (fun _ _ => True) NewNode.events (.initialized st) ∧
    ∃ route, st.route 2 (.epochChangeAck (some ⟨0, some ⟨1, [], [], []⟩⟩)) = .ok route := by
  obtain ⟨st, run⟩ := NewNode.initialized
  exact ⟨st, run, (admitted_dispatched_iff run 2 rfl).mpr (Option.some_ne_none _)⟩

/-- **Two messages that the filter admits and that stop a new node**: a forwarded request, and an
ack of an epoch change without the epoch change. -/
theorem admitted_messages_panic : ∃ st,
    MachineRun (fun _ _ => True) NewNode.events (.initialized st) ∧
    Wire.preProcess (.forwardRequest (some ⟨some ⟨7, 0, [1]⟩, [1, 2]⟩)) = .ok () ∧
    st.route 2 (.forwardRequest (some ⟨some ⟨7, 0, [1]⟩, [1, 2]⟩)) =
      .error "unexpected bad client window message type, this indicates a bug" ∧
    Wire.preProcess (.epochChangeAck (some ⟨0, none⟩)) = .ok () ∧
    st.route 2 (.epochChangeAck (some ⟨0, none⟩)) = .error "nil pointer dereference: EpochChange" := by
  obtain ⟨st, run⟩ := NewNode.initialized
  exact ⟨st, run, rfl, rfl, rfl, rfl⟩

end SmState

end MirBft
