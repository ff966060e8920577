import Actors.Message

/-!
# References, envelopes and the actor context

The data of `src/actor.rs` that every other part shares, and the two methods
of `ActorContext` that decide where a reply goes.

An mpsc channel is named by a `ChannelId`.  A `Sender` that is stored in a
reference or in an envelope is the name of its channel: the contents of the
channels belong to the component that runs them (`Actors.Manager`,
`Actors.Group`, `Actors.Remote`).

`ActorContext.reply` returns the `ReplyRoute` that the message takes.  A reply
into a reply channel is over with that.  A reply to a mailbox is one more step: the
channel send of `LocalActorRef::send`, which the machines have as a `send` step of the
same thread with the target and the sender of the route, and `RemoteActorRef::send`
in `Actors.Remote`.

`ActorContext` is one record that an actor keeps for all its messages, so what
matters is what `prepareForEnvelope` overwrites and what `reply` leaves behind; the
lemmas below say both.
-/

namespace Actors

/-- The name of an mpsc channel. -/
abbrev ChannelId := Nat

/-- `LocalActorRef`: the mailbox of a local actor, and its name. -/
structure LocalActorRef where
  sender : ChannelId
  name : String
  deriving DecidableEq, Repr

/-- `ZmqSender`: the queue to the sender thread, and this process's endpoint
for replies. -/
structure ZmqSender where
  sendTx : ChannelId
  localEndpoint : String
  deriving DecidableEq, Repr

/-- `RemoteActorRef`: an actor of another process. -/
structure RemoteActorRef where
  name : String
  endpoint : String
  zmqSender : ZmqSender
  deriving DecidableEq, Repr

/-- `CppActorRef`: an actor behind the C++ interface.  `sendFn` names the
foreign function. -/
structure CppActorRef where
  targetName : String
  senderName : String
  sendFn : Nat
  deriving DecidableEq, Repr

/-- `ActorRef`. -/
inductive ActorRef where
  | localRef (r : LocalActorRef)
  | remoteRef (r : RemoteActorRef)
  | cppRef (r : CppActorRef)
  deriving DecidableEq, Repr

/-- `ActorRef::name`. -/
def ActorRef.name : ActorRef → String
  | .localRef r => r.name
  | .remoteRef r => r.name
  | .cppRef r => r.targetName

/-- `Envelope`: a message with its sender and, for `fast_send`, the channel
for the reply. -/
structure Envelope (μ : Type) where
  msg : Message μ
  sender : Option ActorRef
  replyChannel : Option ChannelId
  deriving DecidableEq, Repr

/-- `Envelope::new`. -/
def Envelope.new {μ : Type} (msg : Message μ) (sender : Option ActorRef) :
    Envelope μ :=
  { msg, sender, replyChannel := none }

/-- `Envelope::new_sync`. -/
def Envelope.newSync {μ : Type} (msg : Message μ) (sender : Option ActorRef)
    (replyChannel : ChannelId) : Envelope μ :=
  { msg, sender, replyChannel := some replyChannel }

/-- `ActorContext`. -/
structure ActorContext where
  /-- This actor's reference, passed along as the sender of its replies. -/
  selfRef : Option ActorRef
  /-- Who sent the current message. -/
  sender : Option ActorRef
  /-- The reply channel of a `fast_send`. -/
  replyChannel : Option ChannelId
  deriving DecidableEq, Repr

/-- Where a message passed to `ctx.reply` goes. -/
inductive ReplyRoute where
  /-- Into the reply channel of a `fast_send`. -/
  | channel (tx : ChannelId)
  /-- To the sender of the current message; `self` is passed as the sender. -/
  | mailbox (target : ActorRef) (self : Option ActorRef)
  /-- There is no sender, and the message is dropped. -/
  | dropped
  deriving DecidableEq, Repr

namespace ActorContext

/-- `ActorContext::new`. -/
def new : ActorContext :=
  { selfRef := none, sender := none, replyChannel := none }

/-- `ActorContext::set_self_ref`. -/
def setSelfRef (ctx : ActorContext) (actorRef : ActorRef) : ActorContext :=
  { ctx with selfRef := some actorRef }

/-- `ActorContext::prepare_for_envelope`. -/
def prepareForEnvelope (ctx : ActorContext) (sender : Option ActorRef)
    (replyChannel : Option ChannelId) : ActorContext :=
  { ctx with sender := sender, replyChannel := replyChannel }

/-- `ActorContext::reply`.  The first reply takes the reply channel, if there
is one; every other reply goes to the sender. -/
def reply (ctx : ActorContext) : ReplyRoute × ActorContext :=
  match ctx.replyChannel with
  | some tx => (.channel tx, { ctx with replyChannel := none })
  | none =>
    match ctx.sender with
    | some sender => (.mailbox sender ctx.selfRef, ctx)
    | none => (.dropped, ctx)

@[simp] theorem prepareForEnvelope_selfRef (ctx : ActorContext)
    (sender : Option ActorRef) (ch : Option ChannelId) :
    (ctx.prepareForEnvelope sender ch).selfRef = ctx.selfRef := rfl

@[simp] theorem prepareForEnvelope_sender (ctx : ActorContext)
    (sender : Option ActorRef) (ch : Option ChannelId) :
    (ctx.prepareForEnvelope sender ch).sender = sender := rfl

@[simp] theorem prepareForEnvelope_replyChannel (ctx : ActorContext)
    (sender : Option ActorRef) (ch : Option ChannelId) :
    (ctx.prepareForEnvelope sender ch).replyChannel = ch := rfl

@[simp] theorem reply_selfRef (ctx : ActorContext) :
    ctx.reply.2.selfRef = ctx.selfRef := by
  unfold reply
  split
  · rfl
  · split <;> rfl

@[simp] theorem reply_sender (ctx : ActorContext) :
    ctx.reply.2.sender = ctx.sender := by
  unfold reply
  split
  · rfl
  · split <;> rfl

/-- After a reply the channel is used up, whether or not there was one. -/
@[simp] theorem reply_replyChannel (ctx : ActorContext) :
    ctx.reply.2.replyChannel = none := by
  unfold reply
  split
  · rfl
  · rename_i h
    split <;> exact h

/-- A reply takes a channel exactly when that is the channel of the context. -/
theorem reply_channel_iff (ctx : ActorContext) (tx : ChannelId) :
    ctx.reply.1 = .channel tx ↔ ctx.replyChannel = some tx := by
  unfold reply
  split
  · rename_i h
    simp [h]
  · rename_i h
    split <;> simp [h]

/-- A reply goes to a mailbox only when that is the sender's, with the actor
itself as the sender. -/
theorem reply_mailbox {ctx : ActorContext} {target : ActorRef}
    {self : Option ActorRef} (h : ctx.reply.1 = .mailbox target self) :
    ctx.sender = some target ∧ self = ctx.selfRef := by
  unfold reply at h
  split at h
  · simp at h
  · split at h
    · rename_i hs
      simp only [ReplyRoute.mailbox.injEq] at h
      exact ⟨by rw [hs, h.1], h.2.symm⟩
    · simp at h

end ActorContext

end Actors
