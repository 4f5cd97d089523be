/-
**What the components of a replica share.**

The source's components hold pointers to the log, the commit state, the client tracker and
disseminator and the batch tracker. Here they are one record, which the methods of the epoch code
are procedures on. `orders` supplies an iteration order for each `range` loop over a map whose
outcome depends on it.

`passed` and `accepted` are history, which nothing reads: the entries given to `commitState.commit`,
and the configurations of new epochs that were accepted.
-/

import MirBft.Model.BatchTracker
import MirBft.Model.Clients
import MirBft.Model.CommitState
import MirBft.Model.Sequence

namespace MirBft

/-- **An accepted configuration**: the epoch target's number and what it had echoed, the log at that
time, and the entries that were given to `commitState.commit` for it. -/
structure Acceptance where
  number : Nat
  echoed : Option NewEpoch
  config : NewEpochConfig
  log : List Persistent
  passed : List QEntry

structure Shared where
  myConfig : InitialParameters
  persisted : Persisted
  commitState : CommitState
  clients : Clients
  batchTracker : BatchTracker
  orders : Nat → MapIter
  passed : List QEntry
  accepted : List Acceptance

namespace Shared

/-- A method of the log: `persisted.addQEntry` and the like. -/
def onLog (method : Persisted → Go (Persisted × List Action)) : GoProc Shared Unit := do
  let sh ← Proc.get
  let (persisted, actions) ← Proc.lift (method sh.persisted)
  Proc.modify fun sh => { sh with persisted }
  Proc.emit actions

/-- `commitState.commit`. -/
def commit (qEntry : QEntry) : GoProc Shared Unit := do
  let sh ← Proc.get
  let commitState ← Proc.lift (sh.commitState.commit qEntry)
  Proc.modify fun sh => { sh with commitState, passed := sh.passed ++ [qEntry] }

/-- `commitState.transferTo`. -/
def transferTo (seqNo : Nat) (value : Bytes) : GoProc Shared Unit := do
  let sh ← Proc.get
  let (commitState, persisted, actions) ←
    Proc.lift (sh.commitState.transferTo sh.persisted seqNo value)
  Proc.modify fun sh => { sh with commitState, persisted }
  Proc.emit actions

/-- A method of the disseminator. -/
def onClients {α : Type} (method : GoProc Clients α) : GoProc Shared α :=
  Proc.zoom Shared.clients (fun sh clients => { sh with clients }) method

/-- The order of the next `range` loop. -/
def pickOrder : GoProc Shared MapIter := do
  let sh ← Proc.get
  Proc.modify fun sh => { sh with orders := fun index => sh.orders (index + 1) }
  pure (sh.orders 0)

end Shared

end MirBft
