/-
**Message buffers (`msgbuffers.go`).**

A `MsgBuffer` holds messages of one node that cannot be applied yet, and drops the oldest ones when
the node's `NodeBuffer` is over its capacity.

* `nodeBuffers.nodeBuffer` looks a node up in a table that nothing is ever stored in: each buffer
  gets a node buffer of its own, so the model keeps the node buffer's counter in the message buffer.
* `iterate` takes the state the filter and the callback work on. No callback stores into the buffer
  that is being iterated.
* `protoSize` is `proto.Size`: the length of the wire encoding.
-/

import Mathlib.Algebra.Ring.Nat
import MirBft.Library.GoMap
import MirBft.Library.Proc
import MirBft.Model.Msgs

namespace MirBft

/-- A method of a component with state `σ`. -/
abbrev GoProc (σ α : Type) := Proc String Action σ α

/-! ### Wire sizes -/

namespace ProtoSize

/-- The length of a varint: seven bits a byte. -/
def varint (value : Nat) : Nat := value.log2 / 7 + 1

/-- A `uint64` field; zero is not written. -/
def uint (value : Nat) : Nat := if value = 0 then 0 else 1 + varint value

/-- A length-prefixed field: an element of a repeated field, or a message. -/
def block (size : Nat) : Nat := 1 + varint size + size

/-- A `bytes` field; the empty string is not written. -/
def bytes (value : Bytes) : Nat := if value.isEmpty then 0 else block value.length

def repeatedField {α : Type} (size : α → Nat) (values : List α) : Nat :=
  (values.map fun value => block (size value)).sum

/-- A repeated `uint64`, which is packed. -/
def packed (values : List Nat) : Nat :=
  if values.isEmpty then 0 else block (values.map varint).sum

def requestAck (ack : RequestAck) : Nat := uint ack.clientId + uint ack.reqNo + bytes ack.digest

def checkpoint (cp : Checkpoint) : Nat := uint cp.seqNo + bytes cp.value

def setEntry (entry : SetEntry) : Nat := uint entry.epoch + uint entry.seqNo + bytes entry.digest

def epochChange (change : EpochChange) : Nat :=
  uint change.newEpoch + repeatedField checkpoint change.checkpoints +
    repeatedField setEntry change.pSet + repeatedField setEntry change.qSet

def epochConfig (config : EpochConfig) : Nat :=
  uint config.number + packed config.leaders + uint config.plannedExpiration

def newEpochConfig (config : NewEpochConfig) : Nat :=
  block (epochConfig config.config) + block (checkpoint config.startingCheckpoint) +
    repeatedField List.length config.finalPreprepares

def remoteEpochChange (remote : RemoteEpochChange) : Nat := uint remote.nodeId + bytes remote.digest

def newEpoch (epoch : NewEpoch) : Nat :=
  block (newEpochConfig epoch.newConfig) + repeatedField remoteEpochChange epoch.epochChanges

end ProtoSize

/-- `proto.Size` of a message: one field of a `oneof`, all with one-byte tags. -/
def protoSize (msg : Msg) : Nat :=
  ProtoSize.block (match msg with
    | .preprepare seqNo epoch batch =>
        ProtoSize.uint seqNo + ProtoSize.uint epoch +
          ProtoSize.repeatedField ProtoSize.requestAck batch
    | .prepare seqNo epoch digest | .commit seqNo epoch digest =>
        ProtoSize.uint seqNo + ProtoSize.uint epoch + ProtoSize.bytes digest
    | .checkpoint seqNo value => ProtoSize.uint seqNo + ProtoSize.bytes value
    | .suspect epoch => ProtoSize.uint epoch
    | .epochChange change => ProtoSize.epochChange change
    | .epochChangeAck originator change =>
        ProtoSize.uint originator + ProtoSize.block (ProtoSize.epochChange change)
    | .newEpoch newEpoch => ProtoSize.newEpoch newEpoch
    | .newEpochEcho config | .newEpochReady config => ProtoSize.newEpochConfig config
    | .fetchBatch seqNo digest => ProtoSize.uint seqNo + ProtoSize.bytes digest
    | .forwardBatch seqNo requestAcks digest =>
        ProtoSize.uint seqNo + ProtoSize.repeatedField ProtoSize.requestAck requestAcks +
          ProtoSize.bytes digest
    | .fetchRequest ack | .requestAck ack => ProtoSize.requestAck ack
    | .forwardRequest ack requestData =>
        ProtoSize.block (ProtoSize.requestAck ack) + ProtoSize.bytes requestData)

/-! ### Buffers -/

/-- `applyable`. -/
inductive Applyable where
  | past
  | current
  | future
  | invalid
deriving DecidableEq, Repr

/-- `nodeBuffer`: the messages of one node, by size. -/
structure NodeBuffer where
  id : NodeID
  bufferSize : Nat
  totalSize : Int
deriving DecidableEq, Repr

def NodeBuffer.msgRemoved (nb : NodeBuffer) (msg : Msg) : NodeBuffer :=
  { nb with totalSize := nb.totalSize - protoSize msg }

def NodeBuffer.msgStored (nb : NodeBuffer) (msg : Msg) : NodeBuffer :=
  { nb with totalSize := nb.totalSize + protoSize msg }

def NodeBuffer.overCapacity (nb : NodeBuffer) : Bool := nb.totalSize > nb.bufferSize

/-- `nodeBuffers`. -/
structure NodeBuffers where
  myConfig : InitialParameters
deriving DecidableEq, Repr

/-- `nodeBuffers.nodeBuffer`: always a new one. -/
def NodeBuffers.nodeBuffer (nbs : NodeBuffers) (source : NodeID) : NodeBuffer :=
  { id := source, bufferSize := nbs.myConfig.bufferSize, totalSize := 0 }

structure MsgBuffer where
  buffer : List Msg
  nodeBuffer : NodeBuffer
deriving DecidableEq, Repr

namespace MsgBuffer

/-- `newMsgBuffer`. -/
def new (nodeBuffer : NodeBuffer) : MsgBuffer := { buffer := [], nodeBuffer }

/-- The flushing loop of `store`: the oldest messages go while the node is over its capacity. -/
def flush (nb : NodeBuffer) : List Msg → MsgBuffer
  | [] => { buffer := [], nodeBuffer := nb }
  | msg :: rest =>
    if nb.overCapacity then flush (nb.msgRemoved msg) rest
    else { buffer := msg :: rest, nodeBuffer := nb }

def store (mb : MsgBuffer) (msg : Msg) : MsgBuffer :=
  let flushed := flush mb.nodeBuffer mb.buffer
  { buffer := flushed.buffer ++ [msg], nodeBuffer := flushed.nodeBuffer.msgStored msg }

/-- `next`: the first message that is current, taken out of the buffer together with the past and
invalid ones before it. -/
def nextFrom (filter : NodeID → Msg → Go Applyable) (nb : NodeBuffer) :
    List Msg → Go (Option Msg × MsgBuffer)
  | [] => pure (none, { buffer := [], nodeBuffer := nb })
  | msg :: rest => do
    match ← filter nb.id msg with
    | .past | .invalid => nextFrom filter (nb.msgRemoved msg) rest
    | .current => pure (some msg, { buffer := rest, nodeBuffer := nb.msgRemoved msg })
    | .future => do
      let (found, mb) ← nextFrom filter nb rest
      pure (found, { mb with buffer := msg :: mb.buffer })

def next (mb : MsgBuffer) (filter : NodeID → Msg → Go Applyable) : Go (Option Msg × MsgBuffer) :=
  nextFrom filter mb.nodeBuffer mb.buffer

section Iterate

variable {σ : Type} (filter : σ → NodeID → Msg → Go Applyable)
  (apply : NodeID → Msg → GoProc σ Unit)

/-- The loop of `iterate`: what is left of the messages. -/
def iterateFrom (nb : NodeBuffer) : List Msg → GoProc σ MsgBuffer
  | [] => pure { buffer := [], nodeBuffer := nb }
  | msg :: rest => do
    let state ← Proc.get
    match ← Proc.lift (filter state nb.id msg) with
    | .past | .invalid => iterateFrom (nb.msgRemoved msg) rest
    | .current => do
      apply nb.id msg
      iterateFrom (nb.msgRemoved msg) rest
    | .future => do
      let mb ← iterateFrom nb rest
      pure { mb with buffer := msg :: mb.buffer }

def iterate (mb : MsgBuffer) : GoProc σ MsgBuffer :=
  iterateFrom filter apply mb.nodeBuffer mb.buffer

end Iterate

/-! ### What is in a buffer -/

theorem flush_buffer_suffix (nb : NodeBuffer) (msgs : List Msg) :
    (flush nb msgs).buffer <:+ msgs := by
  induction msgs generalizing nb with
  | nil => exact List.suffix_refl _
  | cons msg rest ih =>
    unfold flush
    split
    · exact (ih _).trans (List.suffix_cons msg rest)
    · exact List.suffix_refl _

theorem mem_store {mb : MsgBuffer} {msg other : Msg} (member : other ∈ (mb.store msg).buffer) :
    other = msg ∨ other ∈ mb.buffer := by
  rcases List.mem_append.mp member with earlier | last
  · exact Or.inr ((flush_buffer_suffix _ _).subset earlier)
  · exact Or.inl (List.mem_singleton.mp last)

theorem flush_id (nb : NodeBuffer) (msgs : List Msg) : (flush nb msgs).nodeBuffer.id = nb.id := by
  induction msgs generalizing nb with
  | nil => rfl
  | cons msg rest ih =>
    unfold flush
    split
    · exact ih _
    · rfl

theorem store_id (mb : MsgBuffer) (msg : Msg) : (mb.store msg).nodeBuffer.id = mb.nodeBuffer.id :=
  flush_id _ _

variable {filter : NodeID → Msg → Go Applyable}

theorem nextFrom_failsOnly {allowed : String → Prop}
    (filters : ∀ id msg, FailsOnly allowed (filter id msg)) (nb : NodeBuffer) (msgs : List Msg) :
    FailsOnly allowed (nextFrom filter nb msgs) := by
  induction msgs generalizing nb with
  | nil => exact .pure _
  | cons msg rest ih =>
    refine .bind (filters nb.id msg) fun applyable _ => ?_
    cases applyable with
    | past | invalid => exact ih _
    | current => exact .pure _
    | future => exact .bind (ih _) fun _ _ => .pure _

variable {nb : NodeBuffer} {msgs : List Msg}

/-- **What `next` takes out** is in the buffer and current, and the rest stays or is dropped. -/
theorem nextFrom_eq_ok
    {found : Option Msg} {left : MsgBuffer} (taken : nextFrom filter nb msgs = .ok (found, left)) :
    left.nodeBuffer.id = nb.id ∧ left.buffer ⊆ msgs ∧
      ∀ msg, found = some msg → msg ∈ msgs ∧ filter nb.id msg = .ok .current := by
  induction msgs generalizing nb found left with
  | nil =>
    obtain ⟨rfl, rfl⟩ := taken
    exact ⟨rfl, List.Subset.refl _, by simp⟩
  | cons first rest ih =>
    obtain ⟨applyable, filtered, taken⟩ := bind_eq_ok.mp taken
    cases applyable with
    | past | invalid =>
      obtain ⟨id, subset, isFound⟩ := ih taken
      refine ⟨id, fun msg member => List.mem_cons_of_mem _ (subset member), fun msg same => ?_⟩
      obtain ⟨member, current⟩ := isFound msg same
      exact ⟨List.mem_cons_of_mem _ member, current⟩
    | current =>
      obtain ⟨rfl, rfl⟩ := taken
      refine ⟨rfl, fun msg member => List.mem_cons_of_mem _ member, fun msg same => ?_⟩
      cases same
      exact ⟨List.mem_cons_self, filtered⟩
    | future =>
      obtain ⟨⟨later, mb⟩, takenLater, returned⟩ := bind_eq_ok.mp taken
      obtain ⟨rfl, rfl⟩ := returned
      obtain ⟨id, subset, isFound⟩ := ih takenLater
      refine ⟨id, fun msg member => ?_, fun msg same => ?_⟩
      · rcases List.mem_cons.mp member with rfl | member
        · exact List.mem_cons_self
        · exact List.mem_cons_of_mem _ (subset member)
      · obtain ⟨member, current⟩ := isFound msg same
        exact ⟨List.mem_cons_of_mem _ member, current⟩

variable {σ : Type} {effect : Proc.Effect σ Action} {filter : σ → NodeID → Msg → Go Applyable}
  {apply : NodeID → Msg → GoProc σ Unit}

/-- **The rule for `iterate`**: what every application of a current message does composes. -/
theorem wp_iterateFrom {state : σ}
    (step : ∀ msg ∈ msgs, ∀ state, filter state nb.id msg = .ok .current →
      Proc.wp (apply nb.id msg) state fun final emitted _ => effect.rel state final emitted) :
    Proc.wp (iterateFrom filter apply nb msgs) state fun final emitted left =>
      effect.rel state final emitted ∧ left.nodeBuffer.id = nb.id ∧ left.buffer ⊆ msgs := by
  induction msgs generalizing nb state with
  | nil =>
    rw [iterateFrom, Proc.wp_pure]
    exact ⟨effect.refl state, rfl, List.Subset.refl _⟩
  | cons first rest ih =>
    have later : ∀ msg ∈ rest, ∀ state, filter state nb.id msg = .ok .current →
        Proc.wp (apply nb.id msg) state fun final emitted _ => effect.rel state final emitted :=
      fun msg member => step msg (List.mem_cons_of_mem _ member)
    refine Proc.wp_get_bind (Proc.wp_lift_bind fun applyable filtered => ?_)
    cases applyable with
    | past | invalid =>
      refine Proc.wp_mono (ih (show ∀ msg ∈ rest, ∀ state, filter state (nb.msgRemoved first).id
        msg = _ → _ from later)) ?_
      exact fun final emitted left ⟨done, id, kept⟩ => ⟨done, id, List.subset_cons_of_subset _ kept⟩
    | current =>
      rw [Proc.wp_bind]
      refine Proc.wp_mono (step first List.mem_cons_self state filtered) ?_
      intro mid emitted _ done
      refine Proc.wp_mono (ih (show ∀ msg ∈ rest, ∀ state, filter state (nb.msgRemoved first).id
        msg = _ → _ from later)) ?_
      exact fun final more left ⟨last, id, kept⟩ =>
        ⟨effect.trans done last, id, List.subset_cons_of_subset _ kept⟩
    | future =>
      rw [Proc.wp_bind]
      refine Proc.wp_mono (ih later) ?_
      rintro final emitted left ⟨done, id, kept⟩
      rw [Proc.wp_pure, List.append_nil]
      exact ⟨done, id, List.cons_subset_cons _ kept⟩

theorem has_iterate (each : ∀ id msg, Proc.Has effect (apply id msg)) (mb : MsgBuffer) :
    Proc.Has effect (mb.iterate filter apply) := by
  intro state
  refine Proc.wp_mono (wp_iterateFrom fun msg _ state _ => each _ msg state) ?_
  rintro final emitted left ⟨done, _⟩
  exact done

end MsgBuffer

/-- The messages of a buffer were received from its node. -/
def Received (received : NodeID → Msg → Prop) (id : NodeID) (buffer : MsgBuffer) : Prop :=
  buffer.nodeBuffer.id = id ∧ ∀ msg ∈ buffer.buffer, received id msg

/-- The buffered messages are of the nodes that they are filed under. -/
def Authentic (heard : NodeID → Msg → Prop) (buffers : GoMap NodeID MsgBuffer) : Prop :=
  ∀ id buffer, buffers.lookup id = some buffer → Received heard id buffer

variable {heard more : NodeID → Msg → Prop} {id : NodeID} {buffer : MsgBuffer}

theorem Received.mono (implies : ∀ source msg, heard source msg → more source msg)
    (isReceived : Received heard id buffer) : Received more id buffer :=
  ⟨isReceived.1, fun msg member => implies _ _ (isReceived.2 msg member)⟩

theorem Received.store {msg : Msg} (isReceived : Received heard id buffer) (new : heard id msg) :
    Received heard id (buffer.store msg) := by
  refine ⟨(MsgBuffer.store_id _ _).trans isReceived.1, fun other member => ?_⟩
  rcases MsgBuffer.mem_store member with rfl | earlier
  · exact new
  · exact isReceived.2 other earlier

theorem Authentic.insert {buffers : GoMap NodeID MsgBuffer} (authentic : Authentic heard buffers)
    (isReceived : Received heard id buffer) : Authentic heard (buffers.insert id buffer) := by
  intro other found isFound
  rcases GoMap.of_lookup_insert isFound with ⟨rfl, rfl⟩ | ⟨_, isFound⟩
  · exact isReceived
  · exact authentic other found isFound

end MirBft
