import CcdController.Fault
import CcdController.WordReader

/-!
Streams of status packets. Only the first word of a packet is looked at. The padding after it is
dropped, also the part of it that arrives later, so that the next packet is found however the bytes
are split.
-/
namespace CcdController

def Status.read (order : ByteOrder) (bytes : List UInt8) :
    Except Refusal (Status × List UInt8) := do
  let (word, rest) ← order.readWord bytes
  match Status.ofCode? word with
  | none => .error (.status bytes)
  | some status => .ok (status, rest)

structure StatusStream where
  order : ByteOrder
  packetLength : Nat
  /-- Padding of the last packet that has not arrived. -/
  skip : Nat
  pending : List UInt8
  deriving DecidableEq, Repr

namespace StatusStream

def usualLength : Nat := 512

def start (order : ByteOrder) (packetLength : Nat) : StatusStream := ⟨order, packetLength, 0, []⟩

def feed (stream : StatusStream) (bytes : List UInt8) : StatusStream :=
  { stream with pending := stream.pending ++ bytes }

def dropPadding (stream : StatusStream) : StatusStream :=
  { stream with
    skip := stream.skip - stream.pending.length
    pending := stream.pending.drop stream.skip }

/-- Takes one status off the stream, `none` while it has not arrived. An unknown status stays. -/
def next (stream : StatusStream) : Except Fault (Option Status) × StatusStream :=
  let stream := stream.dropPadding
  if 0 < stream.skip then (.ok none, stream)
  else
    match Status.read stream.order stream.pending with
    | .error (.incomplete _) => (.ok none, stream)
    | .error _ => (.error (.invalidData .statusWord), stream)
    | .ok (status, rest) =>
        (.ok (some status),
          { stream with skip := stream.packetLength - 4, pending := rest }.dropPadding)

inductive EndFailure where
  | cutShort
  | fault (fault : Fault)
  deriving DecidableEq

def last (stream : StatusStream) : Except EndFailure (Option Status) × StatusStream :=
  match stream.next with
  | (.error fault, stream) => (.error (.fault fault), stream)
  | (.ok (some status), stream) => (.ok (some status), stream)
  | (.ok none, stream) =>
      if stream.pending = [] then (.ok none, stream) else (.error .cutShort, stream)

end StatusStream

end CcdController
