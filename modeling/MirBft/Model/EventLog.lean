/-
**The recorded event log (`pkg/eventlog/interceptor.go`).**

Each record is the length of a marshalled event, as a signed varint, and its bytes. The stream is
the decompressed one, and a `*bytes.Buffer` is its unread bytes.
-/

import MirBft.Library.Varint
import MirBft.Model.Msgs

namespace MirBft.EventLog

/-- What the log uses of the libraries: `proto.Marshal` and `proto.Unmarshal` of an event, the
largest count `bytes.Buffer.Grow` admits, and what `binary.ReadVarint` reports for a stream that
ends inside a number (`io.EOF` before Go 1.20, `io.ErrUnexpectedEOF` since). -/
structure Libraries (E : Type) where
  marshal : E → Bytes
  unmarshal : Bytes → Option E
  maxGrow : Nat
  cut : VarintError
  unmarshal_marshal : ∀ event, unmarshal (marshal event) = some event
  marshal_le : ∀ event, (marshal event).length ≤ maxGrow
  maxGrow_lt : maxGrow < 2 ^ 63

inductive ReadError where
  | stream (err : VarintError)
  | malformed
  | withMessage (cause : ReadError) (message : String)
deriving DecidableEq

/-- `io.EOF`. -/
def ReadError.eof : ReadError := .stream .eof

structure Reader where
  source : Bytes
  buffer : Bytes
deriving DecidableEq

variable {E : Type} (lib : Libraries E)

/-- The length that stands before an event. -/
def sizePrefix (event : E) : Bytes := putVarint (lib.marshal event).length

/-- What `writeSizePrefixedProto` writes to a stream whose writes succeed. -/
def writeSizePrefixedProto (event : E) : Bytes := sizePrefix lib event ++ lib.marshal event

/-- `WriteRecordedEvent` for each event in turn. -/
def written (events : List E) : Bytes := events.flatMap (writeSizePrefixedProto lib)

def grow (count : Int) : Go Unit :=
  if count < 0 then throw "bytes.Buffer.Grow: negative count"
  else if lib.maxGrow < count then throw "bytes.Buffer: too large"
  else pure ()

def readSizePrefixedProto (r : Reader) : Go (Except ReadError E × Reader) :=
  match readVarint lib.cut r.source with
  | (.error err, source) =>
    if err = .eof then pure (.error .eof, { r with source })
    else pure (.error (.withMessage (.stream err) "could not read size prefix"), { r with source })
  | (.ok l, source) => do
    grow lib l
    let copied := source.take l.toNat
    let r : Reader := { source := source.drop l.toNat, buffer := r.buffer ++ copied }
    -- `io.CopyN` reports a source that stops early as `io.EOF`.
    if copied.length < l.toNat then pure (.error (.withMessage .eof "could not read message"), r)
    else match lib.unmarshal r.buffer with
      | none => pure (.error (.withMessage .malformed "could not unmarshal message"), r)
      | some msg => pure (.ok msg, r)

def Reader.readEvent (r : Reader) : Go (Except ReadError E × Reader) := do
  match ← readSizePrefixedProto lib r with
  | (.ok event, r) => pure (.ok event, { r with buffer := [] })
  | (.error err, r) =>
    if err = .eof then pure (.error err, r) else pure (.error (.withMessage err "error reading event"), r)

end MirBft.EventLog
