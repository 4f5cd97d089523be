/-
**The stateless helpers (`stateless.go`): quorum sizes, buckets, client masks, hash data.**

`constructNewEpochConfig` has its own module.

* `uint64ToBytes` is the big-endian encoding (`proposer.go`); a hash request is a list of slices
  (`epochChangeHashData`, `batchHashData`) which `Processor.Process` writes to the hash one after
  the other, so that what is hashed is their concatenation.
-/

import MirBft.Library.BigEndian
import MirBft.Model.Msgs

namespace MirBft

/-! ### Quorums and buckets -/

/-- **The quorum any two of which share a correct node**: `⌈(n + f + 1) / 2⌉`. -/
def intersectionQuorum (nc : NetworkConfig) : Nat := (nc.nodes.length + nc.f + 2) / 2

/-- The number of nodes such that at least one of them is correct. -/
def someCorrectQuorum (nc : NetworkConfig) : Nat := nc.f + 1

def clientReqToBucket (clientID reqNo : Nat) (nc : NetworkConfig) : Nat :=
  (clientID + reqNo) % 2 ^ 64 % nc.numberOfBuckets

def seqToBucket (seqNo : Nat) (nc : NetworkConfig) : Nat := seqNo % nc.numberOfBuckets

theorem intersectionQuorum_pos (nc : NetworkConfig) : 0 < intersectionQuorum nc := by
  unfold intersectionQuorum
  omega

/-- Two intersection quorums outnumber the nodes by more than `f`. -/
theorem lt_two_intersectionQuorum (nc : NetworkConfig) :
    nc.nodes.length + nc.f < intersectionQuorum nc + intersectionQuorum nc := by
  unfold intersectionQuorum
  omega

/-! ### Client masks -/

/-- `bitmask.isBitSet`: bit `0` is the high bit of the first byte. -/
def isBitSet (mask : Bytes) (bitIndex : Nat) : Bool :=
  match mask[bitIndex / 8]? with
  | none => false
  | some byte => match bitIndex % 8 with
    | 0 => byte &&& 0x80 != 0
    | 1 => byte &&& 0x40 != 0
    | 2 => byte &&& 0x20 != 0
    | 3 => byte &&& 0x10 != 0
    | 4 => byte &&& 0x08 != 0
    | 5 => byte &&& 0x04 != 0
    | 6 => byte &&& 0x02 != 0
    | _ => byte &&& 0x01 != 0

/-- The byte `bitmask.setBit` or-s in at a bit offset. -/
def bitOf (byteOffset : Nat) : UInt8 :=
  match byteOffset with
  | 0 => 0x80
  | 1 => 0x40
  | 2 => 0x20
  | 3 => 0x10
  | 4 => 0x08
  | 5 => 0x04
  | 6 => 0x02
  | _ => 0x01

/-- `bitmask.setBit`. The source tests `byteIndex > len`, so `byteIndex = len` is an index panic. -/
def setBit (mask : Bytes) (bitIndex : Nat) : Go Bytes :=
  match mask[bitIndex / 8]? with
  | none => throw "requested to set bit index beyond the byte slice"
  | some byte => pure (mask.set (bitIndex / 8) (byte ||| bitOf (bitIndex % 8)))

def isCommitted (reqNo : Nat) (clientState : ClientState) : Bool :=
  if reqNo < clientState.lowWatermark then true
  else if reqNo > clientState.lowWatermark + clientState.width then false
  else isBitSet clientState.committedMask (reqNo - clientState.lowWatermark)

/-! ### Hash data -/

def uint64ToBytes (value : Nat) : Bytes := bigEndian 8 value

/-- What an epoch change is hashed as: `[new_epoch, checkpoints, pSet, qSet]`. -/
def epochChangeHashData (epochChange : EpochChange) : List Bytes :=
  [uint64ToBytes epochChange.newEpoch]
    ++ epochChange.checkpoints.flatMap (fun cp => [uint64ToBytes cp.seqNo, cp.value])
    ++ epochChange.pSet.flatMap
        (fun pEntry => [uint64ToBytes pEntry.epoch, uint64ToBytes pEntry.seqNo, pEntry.digest])
    ++ epochChange.qSet.flatMap
        (fun qEntry => [uint64ToBytes qEntry.epoch, uint64ToBytes qEntry.seqNo, qEntry.digest])

/-- What a batch is hashed as (`sequence.allocate`, `batchTracker.applyForwardBatchMsg`). -/
def batchHashData (requestAcks : List RequestAck) : List Bytes := requestAcks.map RequestAck.digest

/-- The bytes `Processor.Process` feeds to the hash for a hash request: every slice in turn. -/
def hashInput (data : List Bytes) : Bytes := data.flatten

end MirBft
