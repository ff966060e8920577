import Actors.Remote.Receiver

/-!
# What is sent is what arrives

`ZmqSender::send_to` and `ZmqReceiver::handle_remote_message_async` are written
separately and run in two processes.  They have to agree on the five members of
a frame, on `null` for a sender that is not given, and on the two maps of the
message registry: the sending process goes from the type to its last name, the
receiving one from the name to the closures.

`handleMessage_frame` is the receiving half, for any frame of this form.
`handleMessage_sendTo` puts the two halves together.
-/

namespace Actors

open Concur

variable {τ : Type} {V : τ → Type}

/-- The sender that a message should arrive with: a remote reference to the
actor that sent it, in the process where it lives.  A foreign actor has no
address in another process. -/
def arrivingSender (sending receiving : ZmqSender) :
    Option ActorRef → Option ActorRef
  | some (.localRef r) => some (.remoteRef
      { name := r.name, endpoint := sending.localEndpoint, zmqSender := receiving })
  | some (.remoteRef r) => some (.remoteRef
      { name := r.name, endpoint := r.endpoint, zmqSender := receiving })
  | some (.cppRef _) | none => none

/-- The two members that `send_to` writes for a sender are read as this
sender. -/
theorem senderRef_senderInfo (sending receiving : ZmqSender)
    (sender : Option ActorRef) :
    senderRef receiving (sending.senderInfo sender).1 (sending.senderInfo sender).2 =
      arrivingSender sending receiving sender := by
  cases sender with
  | none => rfl
  | some ref => cases ref <;> rfl

variable [DecidableEq τ] {json : JsonText} {serde : Serde V}

/-- A frame for a local actor, of a registered type, is one envelope in the
mailbox of this actor. -/
theorem handleMessage_frame {t : Tables τ} (h : t.registries.Usable)
    {receiver : String} {r : LocalActorRef}
    (hactor : t.actors.get receiver = (.value (some (.localRef r)), t.actors))
    {msgType : String} {entry : RegistryEntry τ}
    (hentry : t.registries.entry msgType = some entry) {v : Value}
    {msg : Message (UserMessage V)}
    (hmsg : serde.decode entry.messageType v = some msg)
    {info : Option String × Option String}
    (htext : json.RoundTrips (frame info receiver msgType v))
    (zmqSender : ZmqSender) :
    handleMessage json serde zmqSender t
        [(json.toString (frame info receiver msgType v)).toUTF8] =
      (.value [.posted r.sender (.new msg (senderRef zmqSender info.1 info.2))],
        t) := by
  have hdata : envelopeOf json [(json.toString (frame info receiver msgType v)).toUTF8] =
      some (frame info receiver msgType v) := by
    rw [envelopeOf_toUTF8]
    exact htext
  have htry := Registries.tryDeserializeMessage_ok h.entries hentry hmsg
  simp only [handleMessage, hdata, handleRemoteMessage, frame_receiver,
    frame_messageType, frame_message, frame_senderActor, frame_senderEndpoint,
    Value.asStr_string, Value.asStr_ofOption, Option.getD_some, hactor, htry]
  rfl

/-- A message that is sent from one process to a local actor of another is
delivered to this actor, once and unchanged, with a sender that stands for the
original one.  Both message registries hold whatever the two processes have
registered; only the name that the type of the message last got in the sending
process matters. -/
theorem handleMessage_sendTo (json : JsonText) (serde : Serde V)
    {sending receiving : List (RemoteType τ × String)}
    (hsending : Registries.OwnNames sending)
    (hreceiving : Registries.OwnNames receiving)
    {M : RemoteType τ} {msgType : String}
    (hname : (Registries.ofRegistrations sending).nameOf M.typeId = some msgType)
    (hregistered : (M, msgType) ∈ receiving)
    {msg : Message (UserMessage V)} {v : Value}
    (hencode : serde.encode msg = some v) (hdecode : serde.decode M v = some msg)
    {actors : ActorRegistry} {receiver : String} {r : LocalActorRef}
    (hactor : actors.get receiver = (.value (some (.localRef r)), actors))
    (z z' : ZmqSender) (endpoint : String) (sender : Option ActorRef)
    (htext : json.RoundTrips (frame (z.senderInfo sender) receiver msgType v)) :
    ∃ data, z.sendTo json serde (.ofRegistrations sending) endpoint receiver msg
        sender = (.value { endpoint, data }, .ofRegistrations sending) ∧
      handleMessage json serde z' { registries := .ofRegistrations receiving, actors }
        [data] = (.value [.posted r.sender (.new msg (arrivingSender z z' sender))],
          { registries := .ofRegistrations receiving, actors }) := by
  have hs := Registries.records_ofRegistrations sending
  have hr := Registries.records_ofRegistrations receiving
  have htype : msg.typeId = M.typeId := Serde.typeId_decode hdecode
  refine ⟨_, ZmqSender.sendTo_eq json hs.usable (by rwa [htype])
    (hs.entry_eq hsending (hs.named hname)) htype hencode z endpoint receiver sender,
    ?_⟩
  rw [← senderRef_senderInfo]
  exact handleMessage_frame hr.usable hactor (hr.entry_eq hreceiving hregistered)
    hdecode htext z'

/-- A message from a local actor, between two processes that registered the same
types in another order. -/
theorem handleMessage_sendTo_flag :
    let sending : List (RemoteType Unit × String) :=
      [(.user (), "Flag"), (.reject, "Reject")]
    let receiving : List (RemoteType Unit × String) :=
      [(.reject, "Reject"), (.user (), "Flag")]
    let actors := (ActorRegistry.new.register "b" (.localRef ⟨7, "b"⟩)).2
    let json : JsonText := .ofPair
      ("\x7b\"message\":true,\"message_type\":\"Flag\",\"receiver\":\"b\"," ++
        "\"sender_actor\":\"a\",\"sender_endpoint\":\"tcp://0.0.0.0:5002\"\x7d")
      (frame (some "a", some "tcp://0.0.0.0:5002") "b" "Flag" (.bool true))
    let z : ZmqSender := ⟨0, "tcp://0.0.0.0:5002"⟩
    let z' : ZmqSender := ⟨0, "tcp://0.0.0.0:5001"⟩
    ∃ data, z.sendTo json flagSerde (.ofRegistrations sending)
        "tcp://localhost:5001" "b" (.user ⟨(), true⟩) (some (.localRef ⟨3, "a"⟩)) =
          (.value { endpoint := "tcp://localhost:5001", data },
            .ofRegistrations sending) ∧
      handleMessage json flagSerde z'
        { registries := .ofRegistrations receiving, actors } [data] =
          (.value [.posted 7 (.new (.user ⟨(), true⟩)
            (some (.remoteRef ⟨"a", "tcp://0.0.0.0:5002", z'⟩)))],
            { registries := .ofRegistrations receiving, actors }) := by
  intro sending receiving actors json z z'
  have hsending : Registries.OwnNames sending := by decide
  have hreceiving : Registries.OwnNames receiving := by decide
  have hname : (Registries.ofRegistrations sending).nameOf
      (RemoteType.user ()).typeId = some "Flag" := rfl
  have hregistered : (.user (), "Flag") ∈ receiving := by decide
  have hactor : actors.get "b" = (.value (some (.localRef ⟨7, "b"⟩)), actors) := rfl
  have htext : json.RoundTrips (frame (z.senderInfo (some (.localRef ⟨3, "a"⟩)))
      "b" "Flag" (.bool true)) := JsonText.roundTrips_ofPair _ _
  exact handleMessage_sendTo json flagSerde hsending hreceiving hname hregistered
    rfl rfl hactor z z' "tcp://localhost:5001" (some (.localRef ⟨3, "a"⟩)) htext

end Actors
