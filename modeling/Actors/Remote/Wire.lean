import Actors.Actor.Context
import Actors.Serialization.Registry

/-!
# Messages between processes

`src/remote.rs`: `ZmqSender::send_to` writes a message into a frame and queues
it for the sender thread, and `ZmqReceiver::handle_remote_message_async` reads a
frame and sends the message on to a local actor, or a `Reject` back.

Both call into the message registry of their process and return its next state.
A call that ends well returns what it leaves behind as an `Effect`: an envelope
in the channel of a mailbox, a request in the queue of a sender thread, or a
call of a foreign function.  A send into a channel whose receiver is gone is
ignored by the code, so it is an effect like any other.
-/

namespace Actors

open Concur

variable {τ : Type} {V : τ → Type}

/-- `SendRequest`: a frame on its way to the sender thread. -/
structure SendRequest where
  endpoint : String
  data : ByteArray

/-- What a send leaves behind. -/
inductive Effect (V : τ → Type) where
  /-- `LocalActorRef::send`: an envelope in a mailbox. -/
  | posted (tx : ChannelId) (envelope : Envelope (UserMessage V))
  /-- `ZmqSender::send_to`: a request in the queue of the sender thread. -/
  | queued (tx : ChannelId) (request : SendRequest)
  /-- `CppActorRef::send_message`: the foreign function gets the message. -/
  | foreign (target : CppActorRef) (msg : Message (UserMessage V))

/-- The name and the endpoint that `send_to` writes for a sender. -/
def ZmqSender.senderInfo (z : ZmqSender) :
    Option ActorRef → Option String × Option String
  | some (.localRef r) => (some r.name, some z.localEndpoint)
  | some (.remoteRef r) => (some r.name, some r.endpoint)
  | some (.cppRef r) => (some r.targetName, none)
  | none => (none, none)

/-- The object that `send_to` writes. -/
def frame (sender : Option String × Option String) (actorName msgType : String)
    (msgJson : Value) : Value :=
  .object [("message", msgJson), ("message_type", .string msgType),
    ("receiver", .string actorName), ("sender_actor", .ofOption sender.1),
    ("sender_endpoint", .ofOption sender.2)]

section Frame

variable (sender : Option String × Option String) (actorName msgType : String)
  (msgJson : Value)

@[simp] theorem frame_message :
    (frame sender actorName msgType msgJson).index "message" = msgJson :=
  rfl

@[simp] theorem frame_messageType :
    (frame sender actorName msgType msgJson).index "message_type" =
      .string msgType :=
  rfl

@[simp] theorem frame_receiver :
    (frame sender actorName msgType msgJson).index "receiver" =
      .string actorName :=
  rfl

@[simp] theorem frame_senderActor :
    (frame sender actorName msgType msgJson).index "sender_actor" =
      .ofOption sender.1 :=
  rfl

@[simp] theorem frame_senderEndpoint :
    (frame sender actorName msgType msgJson).index "sender_endpoint" =
      .ofOption sender.2 :=
  rfl

end Frame

/-- `ActorRegistry`: the actors of a receiver, under their names. -/
structure ActorRegistry where
  actors : Cell (HashMap String ActorRef)

namespace ActorRegistry

/-- `ActorRegistry::new`. -/
def new : ActorRegistry := { actors := .new ∅ }

/-- `ActorRegistry::register`. -/
def register (reg : ActorRegistry) (name : String) (actorRef : ActorRef) :
    Outcome Unit × ActorRegistry :=
  let (o, actors) := reg.actors.hold fun map =>
    (.value (), map.insert name actorRef)
  (o, { actors })

/-- `ActorRegistry::get`. -/
def get (reg : ActorRegistry) (name : String) :
    Outcome (Option ActorRef) × ActorRegistry :=
  let (o, actors) := reg.actors.read fun map => .value (map.lookup name)
  (o, { actors })

/-- No panic has poisoned the mutex. -/
def Usable (reg : ActorRegistry) : Prop := reg.actors.poisoned = false

theorem get_eq {reg : ActorRegistry} (h : reg.Usable) (name : String) :
    reg.get name = (.value (reg.actors.content.lookup name), reg) := by
  obtain ⟨map, p⟩ := reg
  have hp : p = false := h
  subst hp
  rfl

/-- Neither function of the registry can poison it. -/
theorem Usable.register {reg : ActorRegistry} (h : reg.Usable) (name : String)
    (actorRef : ActorRef) : (reg.register name actorRef).2.Usable := by
  rw [ActorRegistry.register, Cell.hold_clean h]
  rfl

end ActorRegistry

variable [DecidableEq τ]

/-- `get_message_type_name`. -/
def getMessageTypeName (s : Registries τ) (msg : Message (UserMessage V)) :
    Outcome String × Registries τ :=
  let (o, s) := s.getTypeName msg
  (o.bind (.expect ("Message type not registered for remote serialization. " ++
    "Call register_remote_message::<YourType>(\"YourType\") first.")), s)

/-- `ZmqSender::send_to`, and `send_to_async`, which is the same. -/
def ZmqSender.sendTo (json : JsonText) (serde : Serde V) (z : ZmqSender)
    (s : Registries τ) (endpoint actorName : String)
    (msg : Message (UserMessage V)) (sender : Option ActorRef) :
    Outcome SendRequest × Registries τ :=
  match getMessageTypeName s msg with
  | (.panic why, s) => (.panic why, s)
  | (.value msgType, s) =>
    match s.serializeMessage serde msg msgType with
    | (.panic why, s) => (.panic why, s)
    | (.value msgJson, s) =>
      let data := frame (z.senderInfo sender) actorName msgType msgJson
      (.value { endpoint, data := (json.toString data).toUTF8 }, s)

/-- `ActorRef::send`. -/
def ActorRef.send (json : JsonText) (serde : Serde V) (target : ActorRef)
    (s : Registries τ) (msg : Message (UserMessage V)) (sender : Option ActorRef) :
    Outcome (Effect V) × Registries τ :=
  match target with
  | .localRef r => (.value (.posted r.sender (.new msg sender)), s)
  | .remoteRef r =>
    let (o, s) := r.zmqSender.sendTo json serde s r.endpoint r.name msg sender
    (o.map (.queued r.zmqSender.sendTx), s)
  | .cppRef r => (.value (.foreign r msg), s)

/-- What a receiver thread shares with the rest of its process. -/
structure Tables (τ : Type) where
  registries : Registries τ
  actors : ActorRegistry

/-- Sends a `Reject` back, if the frame says where it came from. -/
def sendReject (json : JsonText) (serde : Serde V) (zmqSender : ZmqSender)
    (s : Registries τ) (senderActor senderEndpoint : Option String)
    (reject : Reject) : Outcome (List (Effect V)) × Registries τ :=
  match senderActor, senderEndpoint with
  | some actor, some endpoint =>
    let (o, s) := zmqSender.sendTo json serde s endpoint actor (.reject reject) none
    (o.map fun request => [.queued zmqSender.sendTx request], s)
  | _, _ => (.value [], s)

/-- The sender that a delivered message carries. -/
def senderRef (zmqSender : ZmqSender) (senderActor senderEndpoint : Option String) :
    Option ActorRef :=
  match senderActor, senderEndpoint with
  | some name, some endpoint => some (.remoteRef { name, endpoint, zmqSender })
  | _, _ => none

/-- `ZmqReceiver::handle_remote_message_async`. -/
def handleRemoteMessage (json : JsonText) (serde : Serde V)
    (zmqSender : ZmqSender) (t : Tables τ) (data : Value) :
    Outcome (List (Effect V)) × Tables τ :=
  let receiverName := (data.index "receiver").asStr.getD ""
  let msgType := (data.index "message_type").asStr.getD ""
  let msgData := data.index "message"
  let senderActor := (data.index "sender_actor").asStr
  let senderEndpoint := (data.index "sender_endpoint").asStr
  match t.actors.get receiverName with
  | (.panic why, actors) => (.panic why, { t with actors })
  | (.value none, actors) =>
    let reject := Reject.new msgType ("Actor '" ++ receiverName ++ "' not found")
      receiverName
    let (o, registries) := sendReject json serde zmqSender t.registries
      senderActor senderEndpoint reject
    (o, { registries, actors })
  | (.value (some localRef), actors) =>
    match t.registries.tryDeserializeMessage serde msgType msgData with
    | (.panic why, registries) => (.panic why, { registries, actors })
    | (.value (.ok msg), registries) =>
      let (o, registries) := localRef.send json serde registries msg
        (senderRef zmqSender senderActor senderEndpoint)
      (o.map fun effect => [effect], { registries, actors })
    | (.value (.error reason), registries) =>
      let reject := Reject.new msgType reason receiverName
      let (o, registries) := sendReject json serde zmqSender registries
        senderActor senderEndpoint reject
      (o, { registries, actors })

/-! ## What a send needs -/

/-- The message has a name in this process, and the entry under the name can
serialize it. -/
def Registries.Sends (s : Registries τ) (serde : Serde V)
    (msg : Message (UserMessage V)) : Prop :=
  ∃ msgType ∈ s.nameOf msg.typeId, ∃ entry ∈ s.entry msgType,
    entry.Encodes serde msg

variable (json : JsonText) {serde : Serde V} {s : Registries τ}

theorem getMessageTypeName_eq (h : s.Usable) (msg : Message (UserMessage V)) :
    getMessageTypeName s msg = (.expect
      ("Message type not registered for remote serialization. " ++
        "Call register_remote_message::<YourType>(\"YourType\") first.")
      (s.nameOf msg.typeId), s) := by
  rw [getMessageTypeName, Registries.getTypeName_eq h]
  rfl

/-- The frame of a message that the registry can serialize. -/
theorem ZmqSender.sendTo_eq (h : s.Usable) {msg : Message (UserMessage V)}
    {msgType : String} (hname : s.nameOf msg.typeId = some msgType)
    {entry : RegistryEntry τ} (hentry : s.entry msgType = some entry)
    (htype : msg.typeId = entry.messageType.typeId) {v : Value}
    (hv : serde.encode msg = some v) (z : ZmqSender) (endpoint actorName : String)
    (sender : Option ActorRef) :
    z.sendTo json serde s endpoint actorName msg sender = (.value
      { endpoint, data := (json.toString
          (frame (z.senderInfo sender) actorName msgType v)).toUTF8 }, s) := by
  rw [sendTo, getMessageTypeName_eq h, hname]
  simp only [Outcome.expect_some, Registries.serializeMessage_eq h hentry htype hv]

/-- A message that can be sent is queued for the endpoint, and the registry
stays as it was. -/
theorem ZmqSender.sendTo_of_sends (h : s.Usable) {msg : Message (UserMessage V)}
    (hmsg : s.Sends serde msg) (z : ZmqSender) (endpoint actorName : String)
    (sender : Option ActorRef) :
    ∃ data, z.sendTo json serde s endpoint actorName msg sender =
      (.value { endpoint, data }, s) := by
  obtain ⟨msgType, hname, entry, hentry, htype, hsome⟩ := hmsg
  obtain ⟨v, hv⟩ := Option.isSome_iff_exists.mp hsome
  exact ⟨_, sendTo_eq json h hname hentry htype hv z endpoint actorName sender⟩

/-- Any other message is a panic in the thread that sends it. -/
theorem ZmqSender.panicked_sendTo (h : s.Usable) {msg : Message (UserMessage V)}
    (hmsg : ¬ s.Sends serde msg) (z : ZmqSender) (endpoint actorName : String)
    (sender : Option ActorRef) :
    (z.sendTo json serde s endpoint actorName msg sender).1.panicked = true := by
  rw [sendTo, getMessageTypeName_eq h]
  cases hname : s.nameOf msg.typeId with
  | none => rfl
  | some msgType =>
    have hpanic := (Registries.panicked_serializeMessage h serde msg msgType).mpr
      fun entry hentry henc => hmsg ⟨msgType, hname, entry, hentry, henc⟩
    simp only [Outcome.expect_some]
    split
    next => rfl
    next heq =>
      rw [heq] at hpanic
      exact absurd hpanic (by simp)

end Actors
