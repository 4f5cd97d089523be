/-
**The buffers of one node, and the budget they do not share.**

`nodeBuffers.nodeBuffer` hands out a new node buffer whenever it is asked, so that each message
buffer of a node accounts for its own messages and flushes by its own account.

* `BufferRun`: the buffers of one node are created and discarded, messages are stored in them and
  removed from them; `next` and `iterate` remove message by message (`BufferRun.next`,
  `BufferRun.iterate`);
* `within_budget`: in every run the accounts add up to what is held. The node stays within its
  budget as long as whatever a buffer keeps when a message comes fits the budget together with the
  other buffers, and a message that comes when it does not fit exceeds the budget;
* `two_buffers_exceed`: a machine that holds two messages of one node in two components.
-/

import MirBft.Proof.MachineRuns

namespace MirBft

open Proc List

/-- The size of messages. -/
def totalBytes (msgs : List Msg) : Nat := (msgs.map protoSize).sum

@[simp] theorem totalBytes_nil : totalBytes [] = 0 := rfl

@[simp] theorem totalBytes_cons (msg : Msg) (msgs : List Msg) :
    totalBytes (msg :: msgs) = protoSize msg + totalBytes msgs := by simp [totalBytes]

@[simp] theorem totalBytes_append (msgs more : List Msg) :
    totalBytes (msgs ++ more) = totalBytes msgs + totalBytes more := by simp [totalBytes]

/-- What the buffers hold. -/
def held (buffers : List MsgBuffer) : Nat := (buffers.map fun mb => totalBytes mb.buffer).sum

/-- What is accounted for the buffers. -/
def accounted (buffers : List MsgBuffer) : Int := (buffers.map fun mb => mb.nodeBuffer.totalSize).sum

/-- The longest tail of the messages that has the size. -/
def fitting (size : Nat) : List Msg → List Msg
  | [] => []
  | msg :: rest => if totalBytes (msg :: rest) ≤ size then msg :: rest else fitting size rest

/-! ### One buffer -/

namespace MsgBuffer

/-- `remove`: one message is taken out and off the account. -/
inductive Removed : MsgBuffer → MsgBuffer → Prop
  | mk (front back : List Msg) (msg : Msg) (nb : NodeBuffer) :
      Removed ⟨front ++ msg :: back, nb⟩ ⟨front ++ back, nb.msgRemoved msg⟩

/-- The buffer is the node's, and its account is what it holds. -/
def Accounts (nbs : NodeBuffers) (id : NodeID) (mb : MsgBuffer) : Prop :=
  mb.nodeBuffer = { nbs.nodeBuffer id with totalSize := totalBytes mb.buffer }

variable {nbs : NodeBuffers} {id : NodeID} {mb left : MsgBuffer}

theorem Accounts.remove (accounts : mb.Accounts nbs id) (removed : Removed mb left) :
    left.Accounts nbs id := by
  cases removed with
  | mk front back msg nb =>
    show nb.msgRemoved msg = _
    rw [show nb = _ from accounts, NodeBuffer.msgRemoved]
    simp only [totalBytes_append, totalBytes_cons]
    congr 1
    omega

theorem Removed.le (removed : Removed mb left) : totalBytes left.buffer ≤ totalBytes mb.buffer := by
  cases removed with
  | mk front back msg nb => simp

/-- **What flushing leaves**: the longest tail that the account has room for. -/
theorem Accounts.flush_eq {msgs : List Msg} {nb : NodeBuffer} (accounts : Accounts nbs id ⟨msgs, nb⟩) :
    flush nb msgs = ⟨fitting nbs.myConfig.bufferSize msgs,
      { nbs.nodeBuffer id with totalSize := totalBytes (fitting nbs.myConfig.bufferSize msgs) }⟩ := by
  induction msgs generalizing nb with
  | nil => rw [flush, show nb = _ from accounts, fitting]
  | cons msg rest ih =>
    have removed := accounts.remove (.mk [] rest msg nb)
    have exceeds : nb.overCapacity = true ↔ ¬ totalBytes (msg :: rest) ≤ nbs.myConfig.bufferSize := by
      rw [show nb = _ from accounts]
      simp [NodeBuffer.overCapacity, NodeBuffers.nodeBuffer]
      omega
    rw [flush, fitting]
    by_cases fits : totalBytes (msg :: rest) ≤ nbs.myConfig.bufferSize
    · rw [if_pos fits, if_neg (fun isOver => exceeds.mp isOver fits)]
      exact congrArg _ accounts
    · rw [if_neg fits, if_pos (exceeds.mpr fits)]
      exact ih removed

theorem Accounts.store (accounts : mb.Accounts nbs id) (msg : Msg) : (mb.store msg).Accounts nbs id ∧
    totalBytes (mb.store msg).buffer = totalBytes (fitting nbs.myConfig.bufferSize mb.buffer) +
    protoSize msg := by
  have flushed : flush mb.nodeBuffer mb.buffer = _ := Accounts.flush_eq accounts
  unfold MsgBuffer.store Accounts
  simp only [flushed, NodeBuffer.msgStored]
  simp

end MsgBuffer

/-! ### Runs -/

/-- **What happens to the buffers of one node**, with the size of the last message that was stored.
The condition is on the other buffers and the one that a message is stored in. -/
inductive BufferRun (nbs : NodeBuffers) (id : NodeID) (condition : List MsgBuffer → MsgBuffer → Prop) :
    List MsgBuffer → Nat → Prop
  | start : BufferRun nbs id condition [] 0
  | create {buffers : List MsgBuffer} {last : Nat} : BufferRun nbs id condition buffers last →
      BufferRun nbs id condition (buffers ++ [.new (nbs.nodeBuffer id)]) last
  | discard {front back : List MsgBuffer} {mb : MsgBuffer} {last : Nat} :
      BufferRun nbs id condition (front ++ mb :: back) last → BufferRun nbs id condition (front ++ back) last
  | store {front back : List MsgBuffer} {mb : MsgBuffer} {last : Nat} (msg : Msg) :
      BufferRun nbs id condition (front ++ mb :: back) last → condition (front ++ back) mb →
      BufferRun nbs id condition (front ++ mb.store msg :: back) (protoSize msg)
  | remove {front back : List MsgBuffer} {mb left : MsgBuffer} {last : Nat} :
      BufferRun nbs id condition (front ++ mb :: back) last → mb.Removed left →
      BufferRun nbs id condition (front ++ left :: back) last

/-- What the buffer keeps when a message comes fits the budget, together with the other buffers. -/
def Fits (bufferSize : Nat) (others : List MsgBuffer) (mb : MsgBuffer) : Prop :=
  held others + totalBytes (fitting bufferSize mb.buffer) ≤ bufferSize

instance (bufferSize : Nat) (others : List MsgBuffer) (mb : MsgBuffer) :
  Decidable (Fits bufferSize others mb) := inferInstanceAs (Decidable (_ ≤ _))

namespace BufferRun

variable {nbs : NodeBuffers} {id : NodeID} {condition : List MsgBuffer → MsgBuffer → Prop}
  {buffers front back : List MsgBuffer} {mb : MsgBuffer} {last : Nat}

theorem next {filter : NodeID → Msg → Go Applyable} {kept msgs : List Msg} {nb : NodeBuffer}
    {found : Option Msg}
    {left : MsgBuffer} (run : BufferRun nbs id condition (front ++ ⟨kept ++ msgs, nb⟩ :: back) last)
    (taken : MsgBuffer.nextFrom filter nb msgs = .ok (found, left)) :
    BufferRun nbs id condition (front ++ ⟨kept ++ left.buffer, left.nodeBuffer⟩ :: back) last := by
  induction msgs generalizing kept nb found left with
  | nil =>
    cases taken
    exact run
  | cons msg rest ih =>
    have removed := run.remove (.mk kept rest msg nb)
    obtain ⟨applyable, _, taken⟩ := bind_eq_ok.mp taken
    cases applyable with
    | past | invalid => exact ih removed taken
    | current =>
      cases taken
      exact removed
    | future =>
      obtain ⟨⟨later, mb⟩, takenLater, returned⟩ := bind_eq_ok.mp taken
      cases returned
      have rest := @ih (kept ++ [msg]) nb _ mb (by simpa using run) takenLater
      simpa using rest

/-- **`iterate` removes messages**, one after the other. What the callback does to other buffers
comes in between. -/
theorem iterate {σ : Type} {filter : σ → NodeID → Msg → Go Applyable}
    {apply : NodeID → Msg → GoProc σ Unit} {state : σ} {kept msgs : List Msg} {nb : NodeBuffer}
    (run : BufferRun nbs id condition (front ++ ⟨kept ++ msgs, nb⟩ :: back) last) :
    wp (MsgBuffer.iterateFrom filter apply nb msgs) state fun _ _ left =>
      BufferRun nbs id condition (front ++ ⟨kept ++ left.buffer, left.nodeBuffer⟩ :: back) last := by
  induction msgs generalizing kept nb state with
  | nil =>
    rw [MsgBuffer.iterateFrom, wp_pure]
    exact run
  | cons msg rest ih =>
    have removed := run.remove (.mk kept rest msg nb)
    refine wp_get_bind (wp_lift_bind fun applyable _ => ?_)
    cases applyable with
    | past | invalid => exact ih removed
    | current =>
      rw [wp_bind]
      exact fun _ _ _ _ => ih removed
    | future =>
      rw [wp_bind]
      have later : BufferRun nbs id condition
        (front ++ ⟨(kept ++ [msg]) ++ rest, nb⟩ :: back) last := by simpa using run
      refine wp_mono (ih later) fun _ _ left done => ?_
      simpa using done

theorem accounts (run : BufferRun nbs id condition buffers last) : ∀ mb ∈ buffers, mb.Accounts nbs id := by
  induction run with
  | start => simp
  | create _ ih => exact forall_mem_append.mpr ⟨ih, forall_mem_singleton.mpr rfl⟩
  | discard _ ih =>
    simp only [forall_mem_append, forall_mem_cons] at ih ⊢
    exact ⟨ih.1, ih.2.2⟩
  | store msg _ _ ih =>
    simp only [forall_mem_append, forall_mem_cons] at ih ⊢
    exact ⟨ih.1, (ih.2.1.store msg).1, ih.2.2⟩
  | remove _ removed ih =>
    simp only [forall_mem_append, forall_mem_cons] at ih ⊢
    exact ⟨ih.1, ih.2.1.remove removed, ih.2.2⟩

theorem held_store (run : BufferRun nbs id condition (front ++ mb :: back) last) (msg : Msg) :
    held (front ++ mb.store msg :: back) ≤ nbs.myConfig.bufferSize + protoSize msg ↔
      Fits nbs.myConfig.bufferSize (front ++ back) mb := by
  have stored := ((run.accounts mb (by simp)).store msg).2
  unfold Fits held
  simp only [map_append, map_cons, sum_append, sum_cons]
  omega

/-- **The accounts add up, and the budget is kept exactly as long as what is kept fits.** -/
theorem within_budget (run : BufferRun nbs id (Fits nbs.myConfig.bufferSize) buffers last) :
    accounted buffers = held buffers ∧ held buffers ≤ nbs.myConfig.bufferSize + last ∧
      ∀ front back mb msg, buffers = front ++ mb :: back →
        (held (front ++ mb.store msg :: back) ≤ nbs.myConfig.bufferSize + protoSize msg ↔
          Fits nbs.myConfig.bufferSize (front ++ back) mb) := by
  refine ⟨?_, ?_, fun front back mb msg same => held_store (same ▸ run) msg⟩
  · have each := run.accounts
    clear run
    induction buffers with
    | nil => rfl
    | cons mb rest ih =>
      have own : mb.nodeBuffer.totalSize = totalBytes mb.buffer := congrArg NodeBuffer.totalSize
        (each mb (by simp))
      have others := ih fun other member => each other (by simp [member])
      unfold accounted held at others ⊢
      simp only [map_cons, sum_cons, own, others]
      rfl
  · induction run with
    | start => simp [held]
    | create _ ih => simpa [held, MsgBuffer.new] using ih
    | discard _ ih =>
      simp only [held, map_append, map_cons, sum_append, sum_cons] at ih ⊢
      omega
    | store msg run fits _ => exact (held_store run msg).mpr fits
    | remove _ removed ih =>
      have less := removed.le
      simp only [held, map_append, map_cons, sum_append, sum_cons] at ih ⊢
      omega

end BufferRun

/-- Two buffers of a node that may hold ten bytes, each with four. -/
theorem two_messages_within_budget : ∃ buffers, BufferRun ⟨{ FourNodes.parameters 1 with bufferSize := 10 }⟩ 2
    (Fits 10) buffers 4 ∧ held buffers = 8 ∧ accounted buffers = 8 := by
  let nbs : NodeBuffers := ⟨{ FourNodes.parameters 1 with bufferSize := 10 }⟩
  let mb := MsgBuffer.new (nbs.nodeBuffer 2)
  have created : BufferRun nbs 2 (Fits 10) [mb, mb] 0 := .create (.create .start)
  have first : BufferRun nbs 2 (Fits 10) [mb.store (.suspect 1), mb] 4 :=
    @BufferRun.store nbs 2 (Fits 10) [] [mb] mb 0 (.suspect 1) created (by decide)
  have second : BufferRun nbs 2 (Fits 10) [mb.store (.suspect 1), mb.store (.suspect 1)] 4 :=
    @BufferRun.store nbs 2 (Fits 10) [mb.store (.suspect 1)] [] mb 4 (.suspect 1) first (by decide)
  exact ⟨_, second, by decide, (BufferRun.within_budget second).1⟩

/-! ### A machine -/

/-- The buffers that a machine has for a node. -/
def SmState.buffersOf (st : SmState) (id : NodeID) : List MsgBuffer :=
  (st.checkpointTracker.msgBuffers.lookup id).toList ++ (st.sh.clients.msgBuffers.lookup id).toList ++
    (st.tracker.futureMsgs.lookup id).toList ++
    match st.tracker.currentEpoch with
    | none => []
    | some target => (target.prestartBuffers.lookup id).toList ++
      match target.activeEpoch with
      | none => []
      | some ae => (ae.otherBuffers.lookup id).toList ++
        (ae.preprepareBuffers.map PreprepareBuffer.buffer).filter (·.nodeBuffer.id = id)

/-- Node two sends a checkpoint and a suspicion, both ahead of time. -/
def aheadOfTime : List Event := NewNode.events ++ [.step 2 (.checkpoint 1000 [1]), .step 2 (.suspect 100)]

/-- **Two components exceed the budget of one node**, which has no room for more than one
message. -/
theorem two_buffers_exceed : ∃ st, MachineRun (fun _ _ => True) aheadOfTime (.initialized st) ∧
    st.sh.myConfig.bufferSize = 0 ∧ st.buffersOf 2 ≠ [] ∧
    st.sh.myConfig.bufferSize + protoSize (.suspect 100) < held (st.buffersOf 2) := by
  exact MachineRun.exists_of_evaluated 10 aheadOfTime _ (by decide +kernel)

end MirBft
