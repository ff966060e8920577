import Actors.Remote.Receiver

/-!
# What one frame makes a receiver do

`Reaction` lists what `ZmqReceiver::handle_remote_message_async` can leave behind
when it returns, whatever is in the frame and in the registries: nothing, one
`Reject` frame to the address in the frame, or one send to the actor that is
registered under the name in the frame.  `reaction_of_handle` is the inversion of
the function: what is said of every frame is a case analysis of `Reaction`.
-/

namespace Actors

open Concur

variable {τ : Type} {V : τ → Type} [DecidableEq τ]

section Inversion

variable {json : JsonText} {serde : Serde V} {s s' : Registries τ}

theorem encode_of_serializeMessage {msg : Message (UserMessage V)}
    {typeName : String} {v : Value}
    (h : s.serializeMessage serde msg typeName = (.value v, s')) :
    serde.encode msg = some v := by
  rw [Registries.serializeMessage, Prod.mk.injEq] at h
  have hread := Cell.value_of_read h.1
  obtain ⟨entry, -, hentry⟩ := Outcome.bind_eq_value.mp hread
  unfold RegistryEntry.serialize at hentry
  split at hentry
  · exact Outcome.expect_eq_value.mp hentry
  · simp at hentry

/-- The request of a `send_to` that returns. -/
theorem ZmqSender.request_of_sendTo {z : ZmqSender} {endpoint actorName : String}
    {msg : Message (UserMessage V)} {sender : Option ActorRef} {request : SendRequest}
    (h : z.sendTo json serde s endpoint actorName msg sender = (.value request, s')) :
    ∃ msgType v, serde.encode msg = some v ∧ request =
      { endpoint, data := (json.toString
          (frame (z.senderInfo sender) actorName msgType v)).toUTF8 } := by
  unfold sendTo at h
  split at h
  · simp at h
  · rename_i msgType s1 hname
    split at h
    · simp at h
    · rename_i v s2 hserialize
      rw [Prod.mk.injEq, Outcome.value.injEq] at h
      exact ⟨msgType, v, encode_of_serializeMessage hserialize, h.1.symm⟩

omit [DecidableEq τ] in
theorem ActorRegistry.lookup_of_get {reg reg' : ActorRegistry} {name : String}
    {r : Option ActorRef} (h : reg.get name = (.value r, reg')) :
    reg.actors.content.lookup name = r := by
  rw [get, Prod.mk.injEq] at h
  simpa using Cell.value_of_read h.1

end Inversion

variable (json : JsonText) (serde : Serde V) (zmqSender : ZmqSender) (t : Tables τ)

/-- What the handling of a frame leaves behind, by outcome. -/
inductive Reaction (data : Value) : List (Effect V) → Prop where
  /-- The actor or the type is not known, and the frame has no return address. -/
  | dropped : Reaction data []
  /-- The actor or the type is not known. -/
  | rejected (actor endpoint msgType : String) (reject : Reject)
      (hactor : (data.index "sender_actor").asStr = some actor)
      (hendpoint : (data.index "sender_endpoint").asStr = some endpoint) :
      Reaction data [.queued zmqSender.sendTx { endpoint, data := (json.toString
        (frame (none, none) actor msgType reject.toValue)).toUTF8 }]
  /-- The message is sent on. -/
  | forwarded (target : ActorRef) (s s' : Registries τ)
      (msg : Message (UserMessage V)) (effect : Effect V)
      (htarget : t.actors.actors.content.lookup
        ((data.index "receiver").asStr.getD "") = some target)
      (hsend : target.send json serde s msg (senderRef zmqSender
        (data.index "sender_actor").asStr (data.index "sender_endpoint").asStr) =
          (.value effect, s')) : Reaction data [effect]

variable {json serde zmqSender t}

theorem reaction_of_sendReject {s s' : Registries τ} {data : Value} {r : Reject}
    {effects : List (Effect V)}
    (h : sendReject json serde zmqSender s (data.index "sender_actor").asStr
      (data.index "sender_endpoint").asStr r = (.value effects, s')) :
    Reaction json serde zmqSender t data effects := by
  unfold sendReject at h
  split at h
  · rename_i actor endpoint hactor hendpoint
    rw [Prod.mk.injEq, Outcome.map_eq_value] at h
    obtain ⟨⟨request, hrequest, rfl⟩, -⟩ := h
    obtain ⟨msgType, v, hencode, rfl⟩ :=
      ZmqSender.request_of_sendTo (Prod.ext hrequest rfl)
    rw [Serde.encode, Option.some.injEq] at hencode
    exact hencode ▸ .rejected actor endpoint msgType r hactor hendpoint
  · rw [Prod.mk.injEq, Outcome.value.injEq] at h
    exact h.1 ▸ .dropped

/-- The three things that the handling of a frame can leave behind. -/
theorem reaction_of_handle {t' : Tables τ} {data : Value} {effects : List (Effect V)}
    (h : handleRemoteMessage json serde zmqSender t data = (.value effects, t')) :
    Reaction json serde zmqSender t data effects := by
  unfold handleRemoteMessage at h
  dsimp only at h
  split at h
  · simp at h
  · rename_i actors hget
    rw [Prod.mk.injEq] at h
    exact reaction_of_sendReject (Prod.ext h.1 rfl)
  · rename_i target actors hget
    split at h
    · simp at h
    · rename_i msg registries htry
      rw [Prod.mk.injEq, Outcome.map_eq_value] at h
      obtain ⟨⟨effect, heffect, rfl⟩, -⟩ := h
      exact .forwarded target _ _ msg effect (ActorRegistry.lookup_of_get hget)
        (Prod.ext heffect rfl)
    · rename_i reason registries htry
      rw [Prod.mk.injEq] at h
      exact reaction_of_sendReject (Prod.ext h.1 rfl)

/-- One frame has at most one effect. -/
theorem length_le_of_handleMessage {t' : Tables τ} {msg : ZmqMessage}
    {effects : List (Effect V)}
    (h : handleMessage json serde zmqSender t msg = (.value effects, t')) :
    effects.length ≤ 1 := by
  unfold handleMessage at h
  split at h
  · cases reaction_of_handle h <;> simp
  · rw [Prod.mk.injEq, Outcome.value.injEq] at h
    simp [← h.1]

end Actors
