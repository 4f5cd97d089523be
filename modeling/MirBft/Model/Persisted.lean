/-
**The in-memory write-ahead log (`persisted.go`).**

The linked list from `logHead` to `logTail` is a `List`. Every addition is mirrored by an
`AppendWriteAhead` action and every truncation by a `TruncateWriteAhead` one; the callers decide
what becomes of them.

`iterate` with its callbacks is a fold over the entries; `constructEpochChange`, the one caller with
a `shouldExit`, reads the part of the log that `logPrefix` cuts off.
-/

import MirBft.Library.Loop
import MirBft.Model.Msgs

namespace MirBft

structure LogEntry where
  index : Nat
  entry : Persistent
deriving DecidableEq, Repr

structure Persisted where
  nextIndex : Nat
  log : List LogEntry
deriving DecidableEq, Repr

namespace Persisted

/-- `newPersisted`. -/
def empty : Persisted := { nextIndex := 0, log := [] }

/-- The entries `iterate` visits. -/
def entries (p : Persisted) : List Persistent := p.log.map LogEntry.entry

def appendInitialLoad (p : Persisted) (index : Nat) (data : Persistent) : Go Persisted :=
  let nextIndex := if p.log.isEmpty then index else p.nextIndex
  if nextIndex ≠ index then throw "WAL indexes out of order!"
  else pure { nextIndex := index + 1, log := p.log ++ [⟨index, data⟩] }

/-- `appendLogEntry`; without a `logTail` it dereferences `nil`. -/
def appendLogEntry (p : Persisted) (entry : Persistent) : Go (Persisted × List Action) :=
  if p.log.isEmpty then throw "nil pointer dereference: logTail"
  else pure ({ nextIndex := p.nextIndex + 1, log := p.log ++ [⟨p.nextIndex, entry⟩] },
    [.appendWriteAhead p.nextIndex entry])

def addPEntry (p : Persisted) (entry : PEntry) := p.appendLogEntry (.pEntry entry)

def addQEntry (p : Persisted) (entry : QEntry) := p.appendLogEntry (.qEntry entry)

def addNEntry (p : Persisted) (entry : NEntry) := p.appendLogEntry (.nEntry entry)

def addCEntry (p : Persisted) (entry : CEntry) := p.appendLogEntry (.cEntry entry)

def addSuspect (p : Persisted) (epoch : Nat) := p.appendLogEntry (.suspect epoch)

def addECEntry (p : Persisted) (epochNumber : Nat) := p.appendLogEntry (.ecEntry epochNumber)

def addTEntry (p : Persisted) (seqNo : Nat) (value : Bytes) :=
  p.appendLogEntry (.tEntry seqNo value)

/-- The entries `truncate` passes over: the log is cut before the first other one. -/
def skipped (lowWatermark : Nat) : Persistent → Bool
  | .cEntry entry => entry.seqNo < lowWatermark
  | .nEntry entry => entry.seqNo ≤ lowWatermark
  | _ => true

/-- `truncate`. The log stays as it is when every entry is passed over, or none is. -/
def truncate (p : Persisted) (lowWatermark : Nat) : Persisted × List Action :=
  match p.log.dropWhile fun logEntry => skipped lowWatermark logEntry.entry with
  | [] => (p, [])
  | logHead :: rest =>
    if rest.length + 1 = p.log.length then (p, [])
    else ({ p with log := logHead :: rest }, [.truncateWriteAhead logHead.index])

/-! ### The epoch change a log stands for -/

/-- The epoch an entry starts (or, for an `FEntry`, ends): what `logEpoch` is set to. -/
def epochOf : Persistent → Option Nat
  | .nEntry entry => some entry.epochConfig.number
  | .fEntry endsEpochConfig => some endsEpochConfig.number
  | _ => none

/-- The log up to and with the first entry whose epoch is not below `newEpoch`, which is where the
`shouldExit` of `constructEpochChange` stops. -/
def logPrefix (newEpoch : Nat) : List Persistent → List Persistent
  | [] => []
  | entry :: rest =>
    if (epochOf entry).any (newEpoch ≤ ·) then [entry] else entry :: logPrefix newEpoch rest

/-- The first pass: how many P-entries there are for each sequence. -/
def countPSkips (pSkips : Nat → Nat) : List Persistent → Nat → Nat
  | [] => pSkips
  | .pEntry entry :: rest =>
    countPSkips (Function.update pSkips entry.seqNo (pSkips entry.seqNo + 1)) rest
  | _ :: rest => countPSkips pSkips rest

/-- The second pass. A P- or Q-entry before any N- or F-entry dereferences a `nil` epoch. -/
def collectEpochChange (pSkips : Nat → Nat) (logEpoch : Option Nat) (change : EpochChange) :
    List Persistent → Go EpochChange
  | [] => pure change
  | .pEntry entry :: rest =>
    if pSkips entry.seqNo ≠ 1 then
      collectEpochChange (Function.update pSkips entry.seqNo (pSkips entry.seqNo - 1)) logEpoch
        change rest
    else match logEpoch with
      | none => throw "nil pointer dereference: logEpoch"
      | some epoch => collectEpochChange pSkips logEpoch
          { change with pSet := change.pSet ++ [⟨epoch, entry.seqNo, entry.digest⟩] } rest
  | .qEntry entry :: rest =>
    match logEpoch with
    | none => throw "nil pointer dereference: logEpoch"
    | some epoch => collectEpochChange pSkips logEpoch
        { change with qSet := change.qSet ++ [⟨epoch, entry.seqNo, entry.digest⟩] } rest
  | .nEntry entry :: rest => collectEpochChange pSkips (some entry.epochConfig.number) change rest
  | .fEntry config :: rest => collectEpochChange pSkips (some config.number) change rest
  | .cEntry entry :: rest => collectEpochChange pSkips logEpoch
      { change with checkpoints := change.checkpoints ++ [⟨entry.seqNo, entry.checkpointValue⟩] }
      rest
  | _ :: rest => collectEpochChange pSkips logEpoch change rest

def constructEpochChange (p : Persisted) (newEpoch : Nat) : Go EpochChange :=
  let visited := logPrefix newEpoch p.entries
  collectEpochChange (countPSkips (fun _ => 0) visited) none
    { newEpoch, checkpoints := [], pSet := [], qSet := [] } visited

/-! ### What the operations do to the log -/

/-- A loaded entry is one more entry at the end, with the next index. -/
theorem appendInitialLoad_eq_ok {p after : Persisted} {index : Nat} {data : Persistent}
    (loaded : p.appendInitialLoad index data = .ok after) :
    after = { nextIndex := index + 1, log := p.log ++ [⟨index, data⟩] } ∧
      (p.log ≠ [] → p.nextIndex = index) := by
  unfold appendInitialLoad at loaded
  by_cases ordered : (if p.log.isEmpty then index else p.nextIndex) = index
  · rw [if_neg (not_not.mpr ordered), pure_eq_ok] at loaded
    refine ⟨loaded.symm, fun nonempty => ?_⟩
    rwa [if_neg (by simpa using nonempty)] at ordered
  · rw [if_pos ordered] at loaded
    cases loaded

/-- An addition is one more entry at the end of the log, and its action. -/
theorem appendLogEntry_eq_ok {p after : Persisted} {entry : Persistent} {actions : List Action}
    (appended : p.appendLogEntry entry = .ok (after, actions)) :
    after = { nextIndex := p.nextIndex + 1, log := p.log ++ [⟨p.nextIndex, entry⟩] } ∧
      actions = [.appendWriteAhead p.nextIndex entry] := by
  unfold appendLogEntry at appended
  split at appended
  · cases appended
  · rw [pure_eq_ok, Prod.mk.injEq] at appended
    exact ⟨appended.1.symm, appended.2.symm⟩

end Persisted

end MirBft
