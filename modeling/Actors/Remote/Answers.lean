import Actors.Remote.Receiver

/-!
# How a frame is answered

A frame with a return address should have one of two consequences: the message
is delivered, or one `Reject` that names it goes back (`Answers`).  Two panics
come in the way.  `try_deserialize_message` panics instead of returning `Err` when
the payload does not decode, and `send_to` panics when the process that should
send the `Reject` has not registered `Reject` itself.

`answers_iff` says exactly when neither happens, for every frame and for every
state of the two registries, poisoned mutexes included.
-/

namespace Actors

open Concur

variable {τ : Type} {V : τ → Type}

/-! ## What should happen -/

section Spec

variable (t : Tables τ) (serde : Serde V) (data : Value)

/-- The actor is known, the type is known, and the payload decodes. -/
def Deliverable (target : ActorRef) (msg : Message (UserMessage V)) : Prop :=
  t.actors.actors.content.lookup ((data.index "receiver").asStr.getD "") =
      some target ∧
    ∃ entry, t.registries.entry ((data.index "message_type").asStr.getD "") =
        some entry ∧
      serde.decode entry.messageType (data.index "message") = some msg

/-- The three reasons for a rejection. -/
inductive Undeliverable : Prop where
  | receiver (h : t.actors.actors.content.lookup
      ((data.index "receiver").asStr.getD "") = none)
  | messageType (h : t.registries.entry
      ((data.index "message_type").asStr.getD "") = none)
  | payload (entry : RegistryEntry τ) (hentry : t.registries.entry
      ((data.index "message_type").asStr.getD "") = some entry)
      (h : serde.decode entry.messageType (data.index "message") = none)

end Spec

variable [DecidableEq τ]

/-- A message that reaches its target: in a mailbox, as a call of a foreign
function, or as a frame that is queued for another process. -/
inductive Delivers (json : JsonText) (serde : Serde V) (s : Registries τ)
    (msg : Message (UserMessage V)) (sender : Option ActorRef) :
    ActorRef → Effect V → Prop where
  | mailbox (r : LocalActorRef) : Delivers json serde s msg sender (.localRef r)
      (.posted r.sender (.new msg sender))
  | foreign (r : CppActorRef) : Delivers json serde s msg sender (.cppRef r)
      (.foreign r msg)
  | queued (r : RemoteActorRef) (msgType : String) (v : Value)
      (hname : s.nameOf msg.typeId = some msgType)
      (hv : serde.encode msg = some v) :
      Delivers json serde s msg sender (.remoteRef r)
        (.queued r.zmqSender.sendTx { endpoint := r.endpoint, data := (json.toString
          (frame (r.zmqSender.senderInfo sender) r.name msgType v)).toUTF8 })

/-- The frame that says that `reject` was rejected, in a process where `Reject`
has the name `msgType`. -/
def rejectRequest (json : JsonText) (endpoint actor msgType : String)
    (reject : Reject) : SendRequest :=
  { endpoint, data := (json.toString
      (frame (none, none) actor msgType reject.toValue)).toUTF8 }

/-- An undeliverable message has one `Reject` as its only consequence, which goes
to `actor` at `endpoint` and names the type and the receiver of the frame; a
deliverable message is delivered, and that is all. -/
structure Answers (json : JsonText) (serde : Serde V) (zmqSender : ZmqSender)
    (t : Tables τ) (data : Value) (actor endpoint : String) : Prop where
  rejected : Undeliverable t serde data → ∃ msgType reject,
    t.registries.nameOf .reject = some msgType ∧
    reject.messageType = (data.index "message_type").asStr.getD "" ∧
    reject.rejectedBy = (data.index "receiver").asStr.getD "" ∧
    (handleRemoteMessage json serde zmqSender t data).1 = .value
      [.queued zmqSender.sendTx (rejectRequest json endpoint actor msgType reject)]
  delivered : ∀ target msg, Deliverable t serde data target msg → ∃ effect,
    (handleRemoteMessage json serde zmqSender t data).1 = .value [effect] ∧
    Delivers json serde t.registries msg
      (senderRef zmqSender (some actor) (some endpoint)) target effect

/-! ## When it happens -/

/-- The two mutexes that every frame needs are not poisoned.  Where the actor or
the type is unknown, a `Reject` can be sent; where both are known, the payload
decodes, and the message can be sent on. -/
def Tables.CanAnswer (t : Tables τ) (serde : Serde V) (data : Value) : Prop :=
  t.actors.Usable ∧ t.registries.registry.poisoned = false ∧
    match t.actors.actors.content.lookup ((data.index "receiver").asStr.getD "") with
    | none => t.registries.CanReject
    | some target =>
      match t.registries.entry ((data.index "message_type").asStr.getD "") with
      | none => t.registries.CanReject
      | some entry =>
        ∃ msg ∈ serde.decode entry.messageType (data.index "message"),
          t.registries.CanForward serde msg target

/-! ## The two consequences -/

section Consequences

variable (json : JsonText) {serde : Serde V} {s : Registries τ}

/-- A message that can be sent on is delivered. -/
theorem ActorRef.delivers_of_canForward {msg : Message (UserMessage V)}
    {target : ActorRef} (hentries : s.registry.poisoned = false)
    (h : s.CanForward serde msg target) (sender : Option ActorRef) :
    ∃ effect, (target.send json serde s msg sender).1 = .value effect ∧
      Delivers json serde s msg sender target effect := by
  cases target with
  | localRef r => exact ⟨_, rfl, .mailbox r⟩
  | cppRef r => exact ⟨_, rfl, .foreign r⟩
  | remoteRef r =>
    obtain ⟨hnames, msgType, hname, entry, hentry, htype, hsome⟩ := h
    obtain ⟨v, hv⟩ := Option.isSome_iff_exists.mp hsome
    have hsend := ZmqSender.sendTo_eq json ⟨hnames, hentries⟩ hname hentry htype hv
      r.zmqSender r.endpoint r.name sender
    refine ⟨_, ?_, .queued r msgType v hname hv⟩
    simp only [send, hsend, Outcome.map_value]

/-- The one `Reject` of an undeliverable message. -/
theorem sendReject_of_canReject (serde : Serde V)
    (hentries : s.registry.poisoned = false) (h : s.CanReject)
    (zmqSender : ZmqSender) (actor endpoint : String) (reject : Reject) :
    ∃ msgType, s.nameOf .reject = some msgType ∧
      sendReject json serde zmqSender s (some actor) (some endpoint) reject =
        (.value [.queued zmqSender.sendTx
          (rejectRequest json endpoint actor msgType reject)], s) := by
  obtain ⟨hnames, msgType, hname, hentry⟩ := h
  have hname' : s.nameOf (.reject reject : Message (UserMessage V)).typeId =
      some msgType := hname
  have hv : serde.encode (.reject reject) = some reject.toValue := rfl
  have hsend := ZmqSender.sendTo_eq json ⟨hnames, hentries⟩ hname' hentry rfl hv
    zmqSender endpoint actor none
  refine ⟨msgType, hname, ?_⟩
  simp only [sendReject, hsend, Outcome.map_value]
  rfl

end Consequences

/-! ## One frame -/

variable {json : JsonText} {serde : Serde V} {zmqSender : ZmqSender} {t : Tables τ}
  {data : Value} {actor endpoint : String}

omit [DecidableEq τ] in
/-- A frame is deliverable to one target, or it is not deliverable. -/
theorem undeliverable_or (t : Tables τ) (serde : Serde V) (data : Value) :
    Undeliverable t serde data ∨ ∃ target msg, Deliverable t serde data target msg := by
  cases hactor : t.actors.actors.content.lookup
      ((data.index "receiver").asStr.getD "") with
  | none => exact Or.inl (.receiver hactor)
  | some target =>
    cases hentry : t.registries.entry
        ((data.index "message_type").asStr.getD "") with
    | none => exact Or.inl (.messageType hentry)
    | some entry =>
      cases hmsg : serde.decode entry.messageType (data.index "message") with
      | none => exact Or.inl (.payload entry hentry hmsg)
      | some msg => exact Or.inr ⟨target, msg, hactor, entry, hentry, hmsg⟩

/-- A frame that is answered is no panic. -/
theorem Answers.not_panicked (h : Answers json serde zmqSender t data actor endpoint) :
    (handleRemoteMessage json serde zmqSender t data).1.panicked = false := by
  rcases undeliverable_or t serde data with hno | ⟨target, msg, hyes⟩
  · obtain ⟨msgType, reject, -, -, -, heq⟩ := h.rejected hno
    rw [heq]
    rfl
  · obtain ⟨effect, heq, -⟩ := h.delivered target msg hyes
    rw [heq]
    rfl

section Address

variable (hactor : (data.index "sender_actor").asStr = some actor)
  (hendpoint : (data.index "sender_endpoint").asStr = some endpoint)

include hactor hendpoint

/-- With a return address, getting through a frame takes as much as answering it. -/
theorem canAnswer_of_passes (h : t.Passes serde data) : t.CanAnswer serde data := by
  have haddress : HasReturnAddress data :=
    ⟨by rw [hactor]; rfl, by rw [hendpoint]; rfl⟩
  obtain ⟨hactors, hpasses⟩ := h
  rw [Tables.CanAnswer]
  cases hlookup : t.actors.actors.content.lookup
      ((data.index "receiver").asStr.getD "") with
  | none =>
    rw [hlookup] at hpasses
    exact ⟨hactors, hpasses haddress⟩
  | some target =>
    rw [hlookup] at hpasses
    refine ⟨hactors, hpasses.1, ?_⟩
    cases hentry : t.registries.entry
        ((data.index "message_type").asStr.getD "") with
    | none =>
      rw [hentry] at hpasses
      exact hpasses.2 haddress
    | some entry =>
      rw [hentry] at hpasses
      exact hpasses.2

/-- Whatever is missing, the receiver thread panics. -/
theorem panicked_of_not_canAnswer (h : ¬ t.CanAnswer serde data) :
    (handleRemoteMessage json serde zmqSender t data).1.panicked = true :=
  panicked_handleRemoteMessage_iff.mpr
    fun hpasses => h (canAnswer_of_passes hactor hendpoint hpasses)

omit hactor hendpoint in
/-- A frame that leads to a `Reject` for it is rejected. -/
theorem exists_reject (hregistry : t.registries.registry.poisoned = false)
    (hcan : t.registries.CanReject) (reason : String)
    (heq : (handleRemoteMessage json serde zmqSender t data).1 =
      (sendReject json serde zmqSender t.registries (some actor) (some endpoint)
        (.new ((data.index "message_type").asStr.getD "") reason
          ((data.index "receiver").asStr.getD ""))).1) :
    ∃ msgType reject, t.registries.nameOf .reject = some msgType ∧
      reject.messageType = (data.index "message_type").asStr.getD "" ∧
      reject.rejectedBy = (data.index "receiver").asStr.getD "" ∧
      (handleRemoteMessage json serde zmqSender t data).1 = .value
        [.queued zmqSender.sendTx
          (rejectRequest json endpoint actor msgType reject)] := by
  obtain ⟨msgType, hname, hsend⟩ := sendReject_of_canReject json serde
    hregistry hcan zmqSender actor endpoint
    (.new ((data.index "message_type").asStr.getD "") reason
      ((data.index "receiver").asStr.getD ""))
  rw [hsend] at heq
  exact ⟨msgType, _, hname, rfl, rfl, heq⟩

/-- When nothing is missing, the frame is answered. -/
theorem answers_of_canAnswer (h : t.CanAnswer serde data) :
    Answers json serde zmqSender t data actor endpoint := by
  obtain ⟨hactors, hregistry, hcan⟩ := h
  have hget := ActorRegistry.get_eq hactors ((data.index "receiver").asStr.getD "")
  constructor
  · intro hno
    cases hlookup : t.actors.actors.content.lookup
        ((data.index "receiver").asStr.getD "") with
    | none =>
      rw [hlookup] at hcan
      refine exists_reject hregistry hcan
        ("Actor '" ++ (data.index "receiver").asStr.getD "" ++ "' not found") ?_
      simp only [handleRemoteMessage, hactor, hendpoint, hget, hlookup]
    | some target =>
      cases hentry : t.registries.entry
          ((data.index "message_type").asStr.getD "") with
      | none =>
        rw [hlookup, hentry] at hcan
        obtain ⟨reason, htry⟩ := Registries.tryDeserializeMessage_unknown
          hregistry serde hentry (data.index "message")
        refine exists_reject hregistry hcan reason ?_
        simp only [handleRemoteMessage, hactor, hendpoint, hget, hlookup, htry]
      | some entry =>
        rw [hlookup, hentry] at hcan
        obtain ⟨msg, hmsg, -⟩ := hcan
        cases hno with
        | receiver h => simp [h] at hlookup
        | messageType h => simp [h] at hentry
        | payload entry' hentry' h =>
          rw [hentry, Option.some.injEq] at hentry'
          rw [← hentry', Option.mem_def.mp hmsg] at h
          simp at h
  · rintro target msg ⟨hlookup, entry, hentry, hmsg⟩
    rw [hlookup, hentry] at hcan
    obtain ⟨msg', hmsg', hforward⟩ := hcan
    rw [Option.mem_def, hmsg, Option.some.injEq] at hmsg'
    subst hmsg'
    obtain ⟨effect, hsend, hdelivers⟩ := ActorRef.delivers_of_canForward json
      hregistry hforward (senderRef zmqSender (some actor) (some endpoint))
    refine ⟨effect, ?_, hdelivers⟩
    simp only [handleRemoteMessage, hactor, hendpoint, hget, hlookup,
      Registries.tryDeserializeMessage_ok hregistry hentry hmsg, hsend,
      Outcome.map_value]

end Address

/-- For every frame with a return address and every state of the registries: the
frame is answered as it should be if and only if `CanAnswer`. -/
theorem answers_iff (json : JsonText) (serde : Serde V) (zmqSender : ZmqSender)
    (t : Tables τ) (data : Value) (actor endpoint : String)
    (hactor : (data.index "sender_actor").asStr = some actor)
    (hendpoint : (data.index "sender_endpoint").asStr = some endpoint) :
    Answers json serde zmqSender t data actor endpoint ↔ t.CanAnswer serde data := by
  constructor
  · intro h
    by_contra hno
    have hpanicked : (handleRemoteMessage json serde zmqSender t
      data).1.panicked = true := panicked_of_not_canAnswer hactor hendpoint hno
    rw [h.not_panicked] at hpanicked
    simp at hpanicked
  · exact answers_of_canAnswer hactor hendpoint

/-- A process with one actor, one type of messages, and `Reject`. -/
def flagProcess : Tables Unit where
  registries := .ofRegistrations [(.user (), "Flag"), (.reject, "Reject")]
  actors := (ActorRegistry.new.register "a" (.localRef { sender := 3, name := "a" })).2

/-- A frame for `receiver` from the actor `s`. -/
def frameFor (receiver : String) (msgJson : Value) : Value :=
  frame (some "s", some "tcp://localhost:1") receiver "Flag" msgJson

/-- The text of such a frame. -/
def textFor (receiver msgText : String) : String :=
  "\x7b\"message\":" ++ msgText ++ ",\"message_type\":\"Flag\",\"receiver\":\"" ++
    receiver ++ "\",\"sender_actor\":\"s\",\"sender_endpoint\":\"tcp://localhost:1\"\x7d"

/-- The frame of the `Reject` for a message to `b`. -/
def notFoundFrame : Value :=
  frame (none, none) "s" "Reject" (Reject.new "Flag" "Actor 'b' not found" "b").toValue

def notFoundText : String :=
  "\x7b\"message\":\x7b\"message_type\":\"Flag\",\"reason\":\"Actor 'b' not found\"," ++
    "\"rejected_by\":\"b\"\x7d,\"message_type\":\"Reject\",\"receiver\":\"s\"," ++
    "\"sender_actor\":null,\"sender_endpoint\":null\x7d"

/-- `serde_json`, as far as these frames go. -/
def flagTexts : JsonText where
  toString v :=
    match (v.index "receiver").asStr with
    | some "s" => notFoundText
    | some "a" => textFor "a" "null"
    | _ => textFor "b" "true"
  fromStr text :=
    if text = notFoundText then some notFoundFrame
    else if text = textFor "a" "null" then some (frameFor "a" .null)
    else if text = textFor "b" "true" then some (frameFor "b" (.bool true))
    else none

/-- A message for an actor that does not exist. -/
theorem answers_unknown : Answers flagTexts flagSerde
    { sendTx := 1, localEndpoint := "tcp://localhost:2" } flagProcess
    (frameFor "b" (.bool true)) "s" "tcp://localhost:1" :=
  (answers_iff _ _ _ _ _ "s" "tcp://localhost:1" rfl rfl).mpr
    ⟨rfl, rfl, rfl, "Reject", rfl, rfl⟩

/-- A payload that does not decode. -/
theorem answers_fails : ¬ ∀ (t : Tables Unit) (data : Value)
    (actor endpoint : String),
    (data.index "sender_actor").asStr = some actor →
    (data.index "sender_endpoint").asStr = some endpoint →
      Answers flagTexts flagSerde
        { sendTx := 1, localEndpoint := "tcp://localhost:2" } t data actor
        endpoint := by
  intro h
  have hanswers := h flagProcess (frameFor "a" .null) "s" "tcp://localhost:1" rfl rfl
  obtain ⟨msgType, reject, -, -, -, heq⟩ := hanswers.rejected
    (.payload { messageType := .user () } rfl rfl)
  have hpanicked : (handleRemoteMessage flagTexts flagSerde
      { sendTx := 1, localEndpoint := "tcp://localhost:2" } flagProcess
      (frameFor "a" .null)).1.panicked = true := by decide
  rw [heq] at hpanicked
  simp at hpanicked

end Actors
