/-
**What the digests of the protocol bind.**

A hash request is a list of slices, and the hash sees their concatenation (`hashInput`). Nothing in
it says where a slice ends, so that a digest binds less than the message it was computed for.

* Epoch changes. After the new epoch's eight bytes, every eight bytes can be read as a number, so
  that a body of sixteen bytes or more has several readings (`exists_other_reading`). A digest binds
  the message exactly when the body is `Short` (`digest_binds_iff_short`), and the acks collected
  under a digest are for one message exactly then.
* Batches. Client ids and request numbers are not hashed, and a null request adds no byte: no batch
  is bound by its digest (`batch_never_bound`).
-/

import MirBft.Model.EpochChange

namespace MirBft.HashBinding

open List

/-! ### The hashed bytes of an epoch change -/

/-- The bytes hashed for an epoch change. -/
def epochChangeStream (msg : EpochChange) : Bytes := hashInput (epochChangeHashData msg)

def checkpointBytes (checkpoint : Checkpoint) : Bytes :=
  uint64ToBytes checkpoint.seqNo ++ checkpoint.value

def setEntryBytes (entry : SetEntry) : Bytes :=
  uint64ToBytes entry.epoch ++ uint64ToBytes entry.seqNo ++ entry.digest

/-- What follows the new epoch's number. -/
def epochChangeBody (msg : EpochChange) : Bytes :=
  msg.checkpoints.flatMap checkpointBytes ++ msg.pSet.flatMap setEntryBytes ++
    msg.qSet.flatMap setEntryBytes

/-- Every number of the message is a `uint64`. -/
structure InRange (msg : EpochChange) : Prop where
  newEpoch : msg.newEpoch < 2 ^ 64
  checkpoints : ∀ checkpoint ∈ msg.checkpoints, checkpoint.seqNo < 2 ^ 64
  pSet : ∀ entry ∈ msg.pSet, entry.epoch < 2 ^ 64 ∧ entry.seqNo < 2 ^ 64
  qSet : ∀ entry ∈ msg.qSet, entry.epoch < 2 ^ 64 ∧ entry.seqNo < 2 ^ 64

@[simp] theorem length_uint64ToBytes (value : Nat) : (uint64ToBytes value).length = 8 :=
  length_bigEndian 8 value

theorem uint64ToBytes_inj {first second : Nat} (fitsFirst : first < 2 ^ 64)
    (fitsSecond : second < 2 ^ 64) (same : uint64ToBytes first = uint64ToBytes second) :
    first = second := by
  have width : (256 : Nat) ^ 8 = 2 ^ 64 := by norm_num
  exact bigEndian_inj fitsFirst fitsSecond same

/-- Any eight bytes are the bytes of a `uint64`. -/
theorem exists_uint64ToBytes (bytes : Bytes) (eight : bytes.length = 8) :
    ∃ value < 2 ^ 64, uint64ToBytes value = bytes := by
  refine ⟨bigEndianValue bytes, ?_, ?_⟩
  · have fits := bigEndianValue_lt bytes
    rw [eight] at fits
    exact lt_of_lt_of_eq fits (by norm_num)
  · unfold uint64ToBytes
    rw [← eight]
    exact bigEndian_bigEndianValue bytes

theorem epochChangeStream_eq (msg : EpochChange) :
    epochChangeStream msg = uint64ToBytes msg.newEpoch ++ epochChangeBody msg := by
  have checkpoints (list : List Checkpoint) :
      (list.flatMap fun cp => [uint64ToBytes cp.seqNo, cp.value]).flatten =
        list.flatMap checkpointBytes := by
    induction list with
    | nil => rfl
    | cons head rest ih => simp [checkpointBytes, ih]
  have entries (list : List SetEntry) :
      (list.flatMap fun entry =>
        [uint64ToBytes entry.epoch, uint64ToBytes entry.seqNo, entry.digest]).flatten =
          list.flatMap setEntryBytes := by
    induction list with
    | nil => rfl
    | cons head rest ih => simp [setEntryBytes, ih]
  simp only [epochChangeStream, hashInput, epochChangeHashData, epochChangeBody,
    flatten_append, checkpoints, entries]
  simp

/-- Messages hashed alike have the same number, and the same body. -/
theorem epochChangeStream_inj {first second : EpochChange} (fitsFirst : InRange first)
    (fitsSecond : InRange second) (same : epochChangeStream first = epochChangeStream second) :
    first.newEpoch = second.newEpoch ∧ epochChangeBody first = epochChangeBody second := by
  rw [epochChangeStream_eq, epochChangeStream_eq] at same
  obtain ⟨number, body⟩ := append_inj same (by simp)
  exact ⟨uint64ToBytes_inj fitsFirst.newEpoch fitsSecond.newEpoch number, body⟩

/-! ### Messages bound by their digest -/

/-- **A message with a body of fewer than sixteen bytes**: no P- or Q-entry, and at most one
checkpoint, with a value of fewer than eight bytes. -/
def Short (msg : EpochChange) : Prop :=
  msg.pSet = [] ∧ msg.qSet = [] ∧
    (msg.checkpoints = [] ∨ ∃ checkpoint, msg.checkpoints = [checkpoint] ∧
      checkpoint.value.length < 8)

theorem short_iff (msg : EpochChange) : Short msg ↔ (epochChangeBody msg).length < 16 := by
  obtain ⟨newEpoch, checkpoints, pSet, qSet⟩ := msg
  have entry (head : SetEntry) (rest : List SetEntry) :
      16 ≤ ((head :: rest).flatMap setEntryBytes).length := by
    simp [setEntryBytes]
    omega
  constructor
  · rintro ⟨rfl, rfl, rfl | ⟨checkpoint, rfl, small⟩⟩
    · simp [epochChangeBody]
    · simp [epochChangeBody, checkpointBytes]
      omega
  · intro small
    simp only [epochChangeBody, length_append] at small
    cases pSet with
    | cons head rest =>
      have := entry head rest
      omega
    | nil =>
      cases qSet with
      | cons head rest =>
        have := entry head rest
        omega
      | nil =>
        refine ⟨rfl, rfl, ?_⟩
        match checkpoints, small with
        | [], _ => exact Or.inl rfl
        | [checkpoint], small =>
          refine Or.inr ⟨checkpoint, rfl, ?_⟩
          simp [checkpointBytes] at small
          omega
        | first :: second :: rest, small =>
          simp [checkpointBytes] at small
          omega

theorem eq_of_short {msg other : EpochChange} (short : Short msg) (fits : InRange msg)
    (fitsOther : InRange other) (same : epochChangeStream other = epochChangeStream msg) :
    other = msg := by
  obtain ⟨number, body⟩ := epochChangeStream_inj fitsOther fits same
  have shortOther : Short other := by
    rw [short_iff, body]
    exact (short_iff msg).mp short
  obtain ⟨newEpoch, checkpoints, pSet, qSet⟩ := msg
  obtain ⟨newEpoch', checkpoints', pSet', qSet'⟩ := other
  obtain ⟨rfl, rfl, readings⟩ := short
  obtain ⟨rfl, rfl, readings'⟩ := shortOther
  simp only [epochChangeBody] at body number readings readings'
  subst number
  -- Eight bytes tell a checkpoint from none, and the rest of a single one is its value.
  rcases readings with rfl | ⟨checkpoint, rfl, _⟩ <;>
    rcases readings' with rfl | ⟨checkpoint', rfl, _⟩
  · rfl
  · simp [checkpointBytes, uint64ToBytes, bigEndian] at body
  · simp [checkpointBytes, uint64ToBytes, bigEndian] at body
  · simp only [flatMap_cons, flatMap_nil, append_nil] at body
    obtain ⟨seqNo, value⟩ := append_inj body (by simp)
    have sameSeqNo := uint64ToBytes_inj (fitsOther.checkpoints checkpoint' (by simp))
      (fits.checkpoints checkpoint (by simp)) seqNo
    obtain ⟨seqNo', value'⟩ := checkpoint'
    subst sameSeqNo
    subst value
    rfl

/-- A message made of checkpoints only. -/
def checkpointsOnly (newEpoch : Nat) (checkpoints : List Checkpoint) : EpochChange :=
  { newEpoch, checkpoints, pSet := [], qSet := [] }

variable {msg : EpochChange}

/-- **A body of sixteen bytes has another reading**, as checkpoints only: one checkpoint whose value
is everything after its number, or two, the first with an empty value. -/
theorem exists_other_reading (long : ¬ Short msg) (fits : InRange msg) :
    ∃ first rest, InRange (checkpointsOnly msg.newEpoch (first :: rest)) ∧
      checkpointsOnly msg.newEpoch (first :: rest) ≠ msg ∧
      epochChangeStream (checkpointsOnly msg.newEpoch (first :: rest)) = epochChangeStream msg := by
  rw [short_iff] at long
  generalize body : epochChangeBody msg = bytes at long
  obtain ⟨first, firstFits, firstBytes⟩ := exists_uint64ToBytes (bytes.take 8)
    (by rw [length_take]; omega)
  obtain ⟨second, secondFits, secondBytes⟩ := exists_uint64ToBytes ((bytes.drop 8).take 8)
    (by rw [length_take, length_drop]; omega)
  have one : epochChangeStream (checkpointsOnly msg.newEpoch [⟨first, bytes.drop 8⟩]) =
      epochChangeStream msg := by
    rw [epochChangeStream_eq, epochChangeStream_eq, body]
    simp [checkpointsOnly, epochChangeBody, checkpointBytes, firstBytes]
  have two : epochChangeStream (checkpointsOnly msg.newEpoch
      [⟨first, []⟩, ⟨second, (bytes.drop 8).drop 8⟩]) = epochChangeStream msg := by
    rw [epochChangeStream_eq, epochChangeStream_eq, body]
    simp only [checkpointsOnly, epochChangeBody, checkpointBytes, firstBytes, secondBytes,
      flatMap_cons, flatMap_nil, append_nil, take_append_drop]
  have inRange (checkpoints : List Checkpoint) (small : ∀ cp ∈ checkpoints, cp.seqNo < 2 ^ 64) :
      InRange (checkpointsOnly msg.newEpoch checkpoints) :=
    ⟨fits.newEpoch, small, by simp [checkpointsOnly], by simp [checkpointsOnly]⟩
  by_cases single : checkpointsOnly msg.newEpoch [⟨first, bytes.drop 8⟩] = msg
  · refine ⟨_, _, inRange _ ?_, ?_, two⟩
    · intro checkpoint member
      simp only [mem_cons, not_mem_nil, or_false] at member
      rcases member with rfl | rfl
      · exact firstFits
      · exact secondFits
    · rw [← single]
      simp [checkpointsOnly]
  · exact ⟨_, _, inRange _ (by simpa using firstFits), single, one⟩

/-! ### The acks collected under a digest -/

/-- The acks `addMsg` collects over a run of epoch changes and acks of one originator, each under
the digest of its bytes. -/
def addMsgs (digestOf : Bytes → Bytes) (nc : NetworkConfig) (calls : List (NodeID × EpochChange)) :
    EpochChangeAcks :=
  calls.foldl (fun ec call => ec.addMsg call.1 call.2 (digestOf (epochChangeStream call.2)))
    { networkConfig := nc, parsedByDigest := ∅, strongCert := none }

/-- The digest of a message binds it. -/
def Binds (msg : EpochChange) : Prop :=
  ∀ other, InRange other → epochChangeStream other = epochChangeStream msg → other = msg

/-- **All acks under the message's digest vouch for the message**, whatever the nodes send, and it
is the message stored there. -/
def VouchedAlone (msg : EpochChange) : Prop :=
  ∀ (digestOf : Bytes → Bytes) (nc : NetworkConfig) (calls : List (NodeID × EpochChange))
    (parsed : ParsedEpochChange), Function.Injective digestOf → (∀ call ∈ calls, InRange call.2) →
    (addMsgs digestOf nc calls).parsedByDigest.lookup (digestOf (epochChangeStream msg)) =
      some parsed →
    parsed.underlying = msg ∧ ∀ source ∈ parsed.acks, (source, msg) ∈ calls

/-- What a run of `addMsg` stores comes from its calls: the message, and every ack. -/
theorem addMsgs_lookup {digestOf : Bytes → Bytes} {nc : NetworkConfig}
    {calls : List (NodeID × EpochChange)} {digest : Bytes} {parsed : ParsedEpochChange}
    (found : (addMsgs digestOf nc calls).parsedByDigest.lookup digest = some parsed) :
    (∃ source, (source, parsed.underlying) ∈ calls ∧
        digestOf (epochChangeStream parsed.underlying) = digest) ∧
      ∀ source ∈ parsed.acks, ∃ msg, (source, msg) ∈ calls ∧
        digestOf (epochChangeStream msg) = digest := by
  -- Induction on the calls from the last one back, since `foldl` adds the last one at the end.
  induction calls using List.reverseRecOn generalizing parsed with
  | nil => simp [addMsgs] at found
  | append_singleton calls call ih =>
    have earlier {before : ParsedEpochChange}
        (known : (addMsgs digestOf nc calls).parsedByDigest.lookup digest = some before) :
        (∃ source, (source, before.underlying) ∈ calls ++ [call] ∧
            digestOf (epochChangeStream before.underlying) = digest) ∧
          ∀ source ∈ before.acks, ∃ msg, (source, msg) ∈ calls ++ [call] ∧
            digestOf (epochChangeStream msg) = digest := by
      obtain ⟨⟨source, member, same⟩, acks⟩ := ih known
      refine ⟨⟨source, mem_append_left _ member, same⟩, fun source acked => ?_⟩
      obtain ⟨msg, member, same⟩ := acks source acked
      exact ⟨msg, mem_append_left _ member, same⟩
    rw [addMsgs, foldl_append] at found
    rcases EpochChangeAcks.lookup_addMsg found with known | ⟨rfl, before, stored, rfl⟩
    · exact earlier known
    have last : (call.1, call.2) ∈ calls ++ [call] := by simp
    rcases stored with known | ⟨_, parses⟩
    · obtain ⟨message, acks⟩ := earlier known
      refine ⟨message, fun source acked => ?_⟩
      rcases Finset.mem_insert.mp acked with rfl | acked
      · exact ⟨call.2, last, rfl⟩
      · exact acks source acked
    · obtain ⟨underlying, none⟩ := newParsedEpochChange_eq_ok parses
      refine ⟨⟨call.1, ?_, ?_⟩, fun source acked => ?_⟩
      · rw [underlying]
        exact last
      · rw [underlying]
      · rw [none] at acked
        rcases Finset.mem_insert.mp acked with rfl | acked
        · exact ⟨call.2, last, rfl⟩
        · cases acked

theorem vouchedAlone_of_binds (binds : Binds msg) : VouchedAlone msg := by
  intro digestOf nc calls parsed collisionFree fits found
  obtain ⟨⟨source, member, same⟩, acks⟩ := addMsgs_lookup found
  refine ⟨binds _ (fits _ member) (collisionFree same), fun source acked => ?_⟩
  obtain ⟨other, member, same⟩ := acks source acked
  rw [← binds other (fits _ member) (collisionFree same)]
  exact member

theorem parseCheckpoints_eq_ok (low : Nat) (checkpoints : List Checkpoint) :
    ∃ lowWatermark, parseCheckpoints low checkpoints = .ok lowWatermark := by
  induction checkpoints generalizing low with
  | nil => exact ⟨low, rfl⟩
  | cons checkpoint rest ih =>
    unfold parseCheckpoints
    simpa using ih _

theorem newParsedEpochChange_checkpointsOnly (newEpoch : Nat) (first : Checkpoint)
    (rest : List Checkpoint) :
    ∃ parsed, newParsedEpochChange (checkpointsOnly newEpoch (first :: rest)) = .ok parsed := by
  obtain ⟨low, parses⟩ := parseCheckpoints_eq_ok first.seqNo (first :: rest)
  refine ⟨{ underlying := checkpointsOnly newEpoch (first :: rest), pSet := fun _ => none,
            qSet := fun _ => [], lowWatermark := low, acks := ∅ }, ?_⟩
  simp only [newParsedEpochChange, checkpointsOnly, parses, parsePSet, parseQSet, bind, Except.bind,
    pure, Except.pure]

/-- The other reading, sent alone, is stored under the digest of a message that is not short. -/
theorem short_of_vouchedAlone (fits : InRange msg) (vouched : VouchedAlone msg) : Short msg := by
  by_contra long
  obtain ⟨first, rest, fitsOther, differs, same⟩ := exists_other_reading long fits
  obtain ⟨parsed, parses⟩ := newParsedEpochChange_checkpointsOnly msg.newEpoch first rest
  have chosen : EpochChangeAcks.parsedFor ⟨⟨[], 0, 0, 0, 0⟩, ∅, none⟩
      (checkpointsOnly msg.newEpoch (first :: rest)) (epochChangeStream msg) = .ok parsed := by
    simpa [EpochChangeAcks.parsedFor] using parses
  have stored : (addMsgs id ⟨[], 0, 0, 0, 0⟩
      [(0, checkpointsOnly msg.newEpoch (first :: rest))]).parsedByDigest.lookup
        (id (epochChangeStream msg)) = some { parsed with acks := insert 0 parsed.acks } := by
    show (EpochChangeAcks.addMsg _ _ _ (epochChangeStream _)).parsedByDigest.lookup _ = _
    rw [same, EpochChangeAcks.addMsg_parsedByDigest chosen]
    exact AList.lookup_insert _
  have underlying := (vouched id _ _ _ Function.injective_id (by simpa using fitsOther) stored).1
  exact differs ((newParsedEpochChange_eq_ok parses).1.symm.trans underlying)

/-- **A digest binds its epoch change, and the acks under it vouch for that message, exactly for
short messages.** -/
theorem digest_binds_iff_short (msg : EpochChange) (fits : InRange msg) :
    (Binds msg ↔ Short msg) ∧ (VouchedAlone msg ↔ Short msg) := by
  have binds : Short msg → Binds msg := fun short other fitsOther same =>
    eq_of_short short fits fitsOther same
  refine ⟨⟨fun bound => ?_, binds⟩, short_of_vouchedAlone fits, fun short => ?_⟩
  · exact short_of_vouchedAlone fits (vouchedAlone_of_binds bound)
  · exact vouchedAlone_of_binds (binds short)

/-- A change with one checkpoint, and a short value. -/
theorem digest_binds_short_checkpoint :
    Binds (checkpointsOnly 1 [⟨20, [1, 2, 3]⟩]) ∧ VouchedAlone (checkpointsOnly 1 [⟨20, [1, 2, 3]⟩]) := by
  have fits : InRange (checkpointsOnly 1 [⟨20, [1, 2, 3]⟩]) :=
    ⟨by decide, by decide, by decide, by decide⟩
  have short : Short (checkpointsOnly 1 [⟨20, [1, 2, 3]⟩]) := ⟨rfl, rfl, Or.inr ⟨_, rfl, by decide⟩⟩
  obtain ⟨binds, vouched⟩ := digest_binds_iff_short _ fits
  exact ⟨binds.mpr short, vouched.mpr short⟩

/-- A P-entry moved to the Q-set is hashed alike, and its ack is counted for the P-entry. -/
theorem digest_confuses_pSet_qSet :
    let prepared : EpochChange := ⟨1, [⟨0, []⟩], [⟨0, 1, [9]⟩], []⟩
    let preprepared : EpochChange := ⟨1, [⟨0, []⟩], [], [⟨0, 1, [9]⟩]⟩
    prepared ≠ preprepared ∧ epochChangeStream prepared = epochChangeStream preprepared ∧
      ((addMsgs id ⟨[0, 1, 2, 3], 5, 10, 4, 1⟩ [(0, prepared), (1, preprepared)]).parsedByDigest.lookup
        (epochChangeStream prepared)).map (fun parsed => (parsed.underlying, parsed.acks)) =
          some (prepared, {0, 1}) := by
  refine ⟨by decide, by decide, by decide⟩

/-! ### Batches -/

/-- **No batch is bound by its digest**: a null request more is hashed alike, and so is the same
list of request digests under other clients and request numbers. -/
theorem batch_never_bound (batch : List RequestAck) :
    (∃ other, other ≠ batch ∧ hashInput (batchHashData other) = hashInput (batchHashData batch)) ∧
      (batch = [] ∨ ∃ other, other ≠ batch ∧ batchHashData other = batchHashData batch) := by
  refine ⟨⟨batch ++ [⟨0, 0, []⟩], ?_, ?_⟩, ?_⟩
  · intro same
    have := congrArg List.length same
    simp at this
  · simp [batchHashData, hashInput]
  · cases batch with
    | nil => exact Or.inl rfl
    | cons head rest =>
      refine Or.inr ⟨⟨head.clientId + 1, head.reqNo, head.digest⟩ :: rest, ?_, rfl⟩
      intro same
      have client := congrArg RequestAck.clientId (List.cons.inj same).1
      exact absurd client (Nat.succ_ne_self _)

/-- One request, of two clients. -/
theorem batch_digest_confuses_clients :
    let first : List RequestAck := [⟨1, 5, [7]⟩]
    let second : List RequestAck := [⟨2, 9, [7]⟩]
    first ≠ second ∧ hashInput (batchHashData first) = hashInput (batchHashData second) := by
  refine ⟨by decide, by decide⟩

end MirBft.HashBinding
