import Lrd.Daemon.Handler
import Lrd.Proto.Codec

/-!
# Serving a frame

What `Server::serve_connection` (`daemon/server.cpp`) does with the body of a frame it
has read: a request that decodes is executed, one whose fields are too large is answered
without being executed, and after anything else the worker hangs up.
-/

namespace Lrd.Daemon

open Foundation Proto

/-- The platform's `double`: it computes and compares as a scalar, its bits are 64, and
all bits of zero are clear. -/
class Double (D : Type) extends Scalar D, BitCast D where
  bitsToDouble_zero : bitsToDouble 0 = ofNat 0

/-- Integers of 64 bits, with division towards zero, as a scalar. -/
instance : Double UInt64 where
  Value := Nat
  value a := some a.toNat
  ofNat := UInt64.ofNat
  pow a n := a ^ n
  halve age halfLife := UInt64.ofNat (1 / 2 ^ (age.toNat / halfLife.toNat))
  toBitCast := inferInstance
  bitsToDouble_zero := rfl

/-- What a worker does with the body of a frame. -/
inductive Received (D : Type) where
  | execute (request : Request D)
  | reject (response : Response D)
  | hangUp (error : DecodeError)

/-- The request is decoded into `Request{}`. -/
def receive {D : Type} [BitCast D] (body : Bytes) : Received D :=
  match BinaryCodec.decodeRequest body ⟨0, defaultRequestBody⟩ with
  | (.none, request) => .execute request
  | (.fieldTooLarge, request) =>
      .reject (makeError request.requestId .invalidRequest (text DecodeError.fieldTooLarge.toString))
  | (error, _) => .hangUp error

end Lrd.Daemon
