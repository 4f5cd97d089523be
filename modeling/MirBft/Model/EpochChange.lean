/-
**Epoch changes of one originator (`epoch_change.go`).**

`newParsedEpochChange` turns an `EpochChange` message into lookup tables; `EpochChangeAcks.addMsg`
collects, for each digest of one originator's messages, the nodes that acknowledged it.
-/

import MirBft.Library.GoMap
import MirBft.Model.Stateless

namespace MirBft

variable {msg : EpochChange} {parsed : ParsedEpochChange} {ec : EpochChangeAcks} {digest : Bytes}

/-- `parsedEpochChange`. `qSet seqNo` lists the epochs, with their digests, in which the node
preprepared `seqNo`. -/
structure ParsedEpochChange where
  underlying : EpochChange
  pSet : Nat → Option SetEntry
  qSet : Nat → List (Nat × Bytes)
  lowWatermark : Nat
  acks : Finset NodeID

/-- The checkpoint loop of `newParsedEpochChange`. The table it looks duplicates up in is the empty
one it starts with: the source never stores into it. -/
def parseCheckpoints (lowWatermark : Nat) : List Checkpoint → Except String Nat
  | [] => pure lowWatermark
  | checkpoint :: rest =>
    let checkpoints : GoMap Nat Checkpoint := ∅
    let low := if lowWatermark > checkpoint.seqNo then checkpoint.seqNo else lowWatermark
    if (checkpoints.lookup checkpoint.seqNo).isSome then
      throw "epoch change checkpoints contained duplicated seqnos"
    else parseCheckpoints low rest

/-- The `pSet` loop of `newParsedEpochChange`. -/
def parsePSet (pSet : Nat → Option SetEntry) :
    List SetEntry → Except String (Nat → Option SetEntry)
  | [] => pure pSet
  | entry :: rest =>
    if (pSet entry.seqNo).isSome then throw "epoch change pSet contained duplicate entries"
    else parsePSet (Function.update pSet entry.seqNo (some entry)) rest

/-- The `qSet` loop of `newParsedEpochChange`. -/
def parseQSet (qSet : Nat → List (Nat × Bytes)) :
    List SetEntry → Except String (Nat → List (Nat × Bytes))
  | [] => pure qSet
  | entry :: rest =>
    if (qSet entry.seqNo).any (fun view => view.1 == entry.epoch) then
      throw "epoch change qSet contained duplicate entries"
    else parseQSet (Function.update qSet entry.seqNo
      (qSet entry.seqNo ++ [(entry.epoch, entry.digest)])) rest

def newParsedEpochChange (underlying : EpochChange) : Except String ParsedEpochChange :=
  match underlying.checkpoints with
  | [] => throw "epoch change did not contain any checkpoints"
  | first :: _ => do
    let lowWatermark ← parseCheckpoints first.seqNo underlying.checkpoints
    let pSet ← parsePSet (fun _ => none) underlying.pSet
    let qSet ← parseQSet (fun _ => []) underlying.qSet
    pure { underlying, pSet, qSet, lowWatermark, acks := ∅ }

/-- A parsed change keeps its message, and has no acks yet. -/
theorem newParsedEpochChange_eq_ok (parses : newParsedEpochChange msg = .ok parsed) :
    parsed.underlying = msg ∧ parsed.acks = ∅ := by
  unfold newParsedEpochChange at parses
  split at parses
  · cases parses
  · rename_i first rest _
    cases low : parseCheckpoints first.seqNo msg.checkpoints with
    | error text => simp [low, bind, Except.bind] at parses
    | ok low' =>
      cases pSet : parsePSet (fun _ => none) msg.pSet with
      | error text => simp [low, pSet, bind, Except.bind] at parses
      | ok pSet' =>
        cases qSet : parseQSet (fun _ => []) msg.qSet with
        | error text => simp [low, pSet, qSet, bind, Except.bind] at parses
        | ok qSet' =>
          simp only [low, pSet, qSet, bind, Except.bind, pure, Except.pure, Except.ok.injEq] at parses
          subst parses
          exact ⟨rfl, rfl⟩

/-- `epochChange`: what is known of one originator's epoch change. -/
structure EpochChangeAcks where
  networkConfig : NetworkConfig
  parsedByDigest : GoMap Bytes ParsedEpochChange
  strongCert : Option Bytes

/-- The parsed change `addMsg` counts an ack for: the one stored under the digest, else the message
at hand. A message whose digest is already known is not looked at. -/
def EpochChangeAcks.parsedFor (ec : EpochChangeAcks) (msg : EpochChange) (digest : Bytes) :
    Except String ParsedEpochChange :=
  match ec.parsedByDigest.lookup digest with
  | some parsedChange => pure parsedChange
  | none => newParsedEpochChange msg

/-- `epochChange.addMsg`. A malformed message is dropped. -/
def EpochChangeAcks.addMsg (ec : EpochChangeAcks) (source : NodeID) (msg : EpochChange)
    (digest : Bytes) : EpochChangeAcks :=
  match ec.parsedFor msg digest with
  | .error _ => ec
  | .ok parsedChange =>
    let acked := { parsedChange with acks := insert source parsedChange.acks }
    let parsedByDigest := ec.parsedByDigest.insert digest acked
    if ec.strongCert.isSome || acked.acks.card < intersectionQuorum ec.networkConfig then
      { ec with parsedByDigest }
    else { ec with parsedByDigest, strongCert := some digest }

theorem EpochChangeAcks.parsedFor_eq_ok (chosen : ec.parsedFor msg digest = .ok parsed) :
    ec.parsedByDigest.lookup digest = some parsed ∨
      ec.parsedByDigest.lookup digest = none ∧ newParsedEpochChange msg = .ok parsed := by
  unfold EpochChangeAcks.parsedFor at chosen
  split at chosen
  · rename_i entry known
    cases chosen
    exact Or.inl known
  · rename_i fresh
    exact Or.inr ⟨fresh, chosen⟩

/-- The table after an accepted message. -/
theorem EpochChangeAcks.addMsg_parsedByDigest {source : NodeID}
    (chosen : ec.parsedFor msg digest = .ok parsed) : (ec.addMsg source msg digest).parsedByDigest =
      ec.parsedByDigest.insert digest { parsed with acks := insert source parsed.acks } := by
  unfold EpochChangeAcks.addMsg
  rw [chosen]
  simp only
  split <;> rfl

/-- **What `addMsg` stores.** A lookup afterwards is a lookup before, or the digest's own entry,
old or freshly parsed, with the source acknowledged. -/
theorem EpochChangeAcks.lookup_addMsg {source : NodeID} {key : Bytes}
    (found : (ec.addMsg source msg digest).parsedByDigest.lookup key = some parsed) :
    ec.parsedByDigest.lookup key = some parsed ∨
      key = digest ∧ ∃ before,
        (ec.parsedByDigest.lookup digest = some before ∨
          ec.parsedByDigest.lookup digest = none ∧ newParsedEpochChange msg = .ok before) ∧
        parsed = { before with acks := insert source before.acks } := by
  cases chosen : ec.parsedFor msg digest with
  | error text =>
    simp only [EpochChangeAcks.addMsg, chosen] at found
    exact Or.inl found
  | ok before =>
    rw [EpochChangeAcks.addMsg_parsedByDigest chosen] at found
    rcases GoMap.of_lookup_insert found with ⟨same, rfl⟩ | ⟨_, found⟩
    · exact Or.inr ⟨same, before, EpochChangeAcks.parsedFor_eq_ok chosen, rfl⟩
    · exact Or.inl found

end MirBft
