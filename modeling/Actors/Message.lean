import Mathlib.Logic.Basic

/-!
# Messages

`src/messages.rs` defines the messages that the framework sends by itself.
`Message` is a boxed message: one of those, or a message of the application.
The payloads of the application are a type parameter, because the framework
only moves them.

`Start` and `Shutdown` are sent by the manager and by groups, `Timeout` by
timers, `Reject` by the remote receiver.  `Continue` is not modelled: the
framework defines it and never sends or reads it.
-/

namespace Actors

/-- The `Reject` message, sent back when a remote message cannot be
processed. -/
structure Reject where
  /-- The name of the message type that was rejected. -/
  messageType : String
  /-- The reason for rejection. -/
  reason : String
  /-- The name of the actor that rejected the message. -/
  rejectedBy : String
  deriving DecidableEq, Repr

/-- `Reject::new`. -/
def Reject.new (messageType reason rejectedBy : String) : Reject :=
  { messageType, reason, rejectedBy }

/-- A `Box<dyn Message>`.  `μ` holds the messages of the application. -/
inductive Message (μ : Type) where
  | start
  | shutdown
  | timeout (id : UInt64)
  | reject (r : Reject)
  | user (m : μ)
  deriving DecidableEq, Repr

end Actors
