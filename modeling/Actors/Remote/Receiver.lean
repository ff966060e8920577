import Actors.Remote.Wire

/-!
# The receiver thread

The loop that `ZmqReceiver::start` runs in its thread, and which inputs it
survives.

There are three groups.

* The loop.  `ReceiverThread.iterate` is one turn of it, on what the `timeout`
  around `socket.recv()` gives.
* One frame.  `Tables.Handles` says of a JSON value, and of the state of the two
  registries, that the receiver gets through it: whatever has to be looked up,
  decoded and sent on is there.  Nothing changes then.  `Tables.Passes` says the
  same where mutexes may be poisoned, and the thread panics in every other case.
* Every sequence of frames.  `survives_iff` says that the receiver survives a
  sequence if and only if it gets through each frame of it.
-/

namespace Actors

open Concur

variable {τ : Type} {V : τ → Type}

/-- The parts of a ZeroMQ message. -/
abbrev ZmqMessage := List ByteArray

/-- What the `timeout` around `socket.recv()` gives. -/
inductive RecvResult where
  /-- `Ok(Ok(msg))`. -/
  | message (msg : ZmqMessage)
  /-- `Ok(Err(_))`. -/
  | socketError
  /-- `Err(_)`. -/
  | timeout

/-- Whether the thread is still in its loop. -/
inductive LoopStatus where
  | looping
  /-- It has left the loop with `break`. -/
  | left
  | panicked (why : Panic)
  deriving DecidableEq, Repr

/-- The thread of a receiver: what it shares with its process, and what it has
sent so far. -/
structure ReceiverThread (V : τ → Type) where
  tables : Tables τ
  running : Bool
  status : LoopStatus
  effects : List (Effect V)

/-- The JSON value in a message.  Only the first part is read, and a part that
is not UTF-8 or not JSON is ignored. -/
def envelopeOf (json : JsonText) (msg : ZmqMessage) : Option Value :=
  (String.fromUTF8? (msg[0]?.getD ByteArray.empty)).bind json.fromStr

/-- The bytes of a text are read as the text. -/
theorem envelopeOf_toUTF8 (json : JsonText) (text : String) :
    envelopeOf json [text.toUTF8] = json.fromStr text := by
  have hutf : String.fromUTF8? text.toUTF8 = some text := by
    unfold String.fromUTF8?
    exact dif_pos text.isValidUTF8
  exact congrArg (Option.bind · json.fromStr) hutf

section Loop

variable [DecidableEq τ] (json : JsonText) (serde : Serde V)
  (zmqSender : ZmqSender)

/-- The arm `Ok(Ok(msg))` of the loop. -/
def handleMessage (t : Tables τ) (msg : ZmqMessage) :
    Outcome (List (Effect V)) × Tables τ :=
  match envelopeOf json msg with
  | some envelope => handleRemoteMessage json serde zmqSender t envelope
  | none => (.value [], t)

namespace ReceiverThread

/-- One turn of the loop. -/
def iterate (r : ReceiverThread V) (received : RecvResult) : ReceiverThread V :=
  match r.status with
  | .looping =>
    if r.running then
      match received with
      | .message msg =>
        match handleMessage json serde zmqSender r.tables msg with
        | (.value effects, tables) =>
          { r with tables, effects := r.effects ++ effects }
        | (.panic why, tables) => { r with tables, status := .panicked why }
      | .socketError => { r with status := .left }
      | .timeout => r
    else { r with status := .left }
  | _ => r

/-- The turns of the loop in which messages arrive. -/
def run (r : ReceiverThread V) (msgs : List ZmqMessage) : ReceiverThread V :=
  msgs.foldl (fun r msg => r.iterate json serde zmqSender (.message msg)) r

/-- The thread when its loop begins. -/
def start (t : Tables τ) : ReceiverThread V :=
  { tables := t, running := true, status := .looping, effects := [] }

/-- The thread, when it has sent something else before. -/
def after (earlier : List (Effect V)) (r : ReceiverThread V) : ReceiverThread V :=
  { r with effects := earlier ++ r.effects }

end ReceiverThread

end Loop

/-! ## What a frame needs -/

/-- No panic has poisoned a mutex of the process. -/
structure Tables.Usable (t : Tables τ) : Prop where
  registries : t.registries.Usable
  actors : t.actors.Usable

/-- The frame says where it came from, and a failure is answered. -/
def HasReturnAddress (data : Value) : Prop :=
  (data.index "sender_actor").asStr.isSome ∧
    (data.index "sender_endpoint").asStr.isSome

section Needs

variable [DecidableEq τ]

/-- `Reject` is registered, and no other type under its name. -/
def Registries.SendsReject (s : Registries τ) : Prop :=
  ∃ msgType ∈ s.nameOf .reject, s.entry msgType = some { messageType := .reject }

/-- A message can be sent on: only a remote target serializes it again. -/
def Registries.Forwards (s : Registries τ) (serde : Serde V)
    (msg : Message (UserMessage V)) : ActorRef → Prop
  | .remoteRef _ => s.Sends serde msg
  | _ => True

/-- The receiver gets through the frame.  The actor and the type are known, the
payload decodes and the message can be sent on; or one of the two is unknown,
and a `Reject` can be sent back if there is someone to send it to. -/
def Tables.Handles (t : Tables τ) (serde : Serde V) (data : Value) : Prop :=
  match t.actors.actors.content.lookup ((data.index "receiver").asStr.getD "") with
  | none => HasReturnAddress data → t.registries.SendsReject
  | some target =>
    match t.registries.entry ((data.index "message_type").asStr.getD "") with
    | none => HasReturnAddress data → t.registries.SendsReject
    | some entry =>
      ∃ msg ∈ serde.decode entry.messageType (data.index "message"),
        t.registries.Forwards serde msg target

/-- The receiver gets through the message: it holds no JSON value, or one that
the receiver gets through. -/
def Tables.Safe (t : Tables τ) (json : JsonText) (serde : Serde V)
    (msg : ZmqMessage) : Prop :=
  ∀ data ∈ envelopeOf json msg, t.Handles serde data

/-- A `Reject` can be sent. -/
def Registries.CanReject (s : Registries τ) : Prop :=
  s.typeidToName.poisoned = false ∧ s.SendsReject

/-- A message can be sent on. -/
def Registries.CanForward (s : Registries τ) (serde : Serde V)
    (msg : Message (UserMessage V)) : ActorRef → Prop
  | .remoteRef _ => s.typeidToName.poisoned = false ∧ s.Sends serde msg
  | _ => True

/-- The receiver thread gets through the frame, whatever is poisoned.  Without a
return address nothing is needed where the actor or the type is unknown. -/
def Tables.Passes (t : Tables τ) (serde : Serde V) (data : Value) : Prop :=
  t.actors.Usable ∧
    match t.actors.actors.content.lookup ((data.index "receiver").asStr.getD "") with
    | none => HasReturnAddress data →
        t.registries.registry.poisoned = false ∧ t.registries.CanReject
    | some target =>
      t.registries.registry.poisoned = false ∧
        match t.registries.entry ((data.index "message_type").asStr.getD "") with
        | none => HasReturnAddress data → t.registries.CanReject
        | some entry =>
          ∃ msg ∈ serde.decode entry.messageType (data.index "message"),
            t.registries.CanForward serde msg target

variable (json : JsonText) (serde : Serde V) {s : Registries τ} {t : Tables τ}

/-! ## One frame -/

theorem sends_reject (s : Registries τ) (serde : Serde V) (r : Reject) :
    s.Sends serde (.reject r) ↔ s.SendsReject := by
  constructor
  · rintro ⟨msgType, hname, ⟨M⟩, hentry, htype, -⟩
    have hM : RemoteType.reject = M := RemoteType.typeId_inj htype
    subst hM
    exact ⟨msgType, hname, hentry⟩
  · rintro ⟨msgType, hname, hentry⟩
    exact ⟨msgType, hname, { messageType := .reject }, hentry, rfl, rfl⟩

theorem ActorRef.send_of_forwards (h : s.Usable) {msg : Message (UserMessage V)}
    {target : ActorRef} (hmsg : s.Forwards serde msg target)
    (sender : Option ActorRef) :
    ∃ effect, target.send json serde s msg sender = (.value effect, s) := by
  cases target with
  | localRef r => exact ⟨_, rfl⟩
  | cppRef r => exact ⟨_, rfl⟩
  | remoteRef r =>
    obtain ⟨data, hsend⟩ := ZmqSender.sendTo_of_sends json h hmsg
      r.zmqSender r.endpoint r.name sender
    refine ⟨.queued r.zmqSender.sendTx { endpoint := r.endpoint, data }, ?_⟩
    simp only [send, hsend, Outcome.map_value]

/-- A `Reject` goes back, or there is nobody to send it to. -/
theorem sendReject_eq (h : s.Usable) (zmqSender : ZmqSender) {data : Value}
    (hreject : HasReturnAddress data → s.SendsReject) (r : Reject) :
    ∃ effects : List (Effect V), sendReject json serde zmqSender s
      (data.index "sender_actor").asStr (data.index "sender_endpoint").asStr r =
        (.value effects, s) := by
  rw [HasReturnAddress] at hreject
  cases hactor : (data.index "sender_actor").asStr with
  | none => exact ⟨[], rfl⟩
  | some actor =>
    cases hendpoint : (data.index "sender_endpoint").asStr with
    | none => exact ⟨[], rfl⟩
    | some endpoint =>
      have hsends := (sends_reject s serde r).mpr
        (hreject ⟨by rw [hactor]; rfl, by rw [hendpoint]; rfl⟩)
      obtain ⟨request, hsend⟩ := ZmqSender.sendTo_of_sends json h hsends
        zmqSender endpoint actor none
      refine ⟨[.queued zmqSender.sendTx { endpoint, data := request }], ?_⟩
      simp only [sendReject, hsend, Outcome.map_value]

/-- The receiver gets through a frame that `Handles` allows, and changes
nothing. -/
theorem handleRemoteMessage_eq (h : t.Usable) (zmqSender : ZmqSender)
    {data : Value} (hdata : t.Handles serde data) :
    ∃ effects, handleRemoteMessage json serde zmqSender t data =
      (.value effects, t) := by
  simp only [handleRemoteMessage, ActorRegistry.get_eq h.actors]
  rw [Tables.Handles] at hdata
  cases hactor : t.actors.actors.content.lookup
      ((data.index "receiver").asStr.getD "") with
  | none =>
    rw [hactor] at hdata
    obtain ⟨effects, heq⟩ := sendReject_eq json serde
      h.registries zmqSender hdata
      (.new ((data.index "message_type").asStr.getD "")
        ("Actor '" ++ (data.index "receiver").asStr.getD "" ++ "' not found")
        ((data.index "receiver").asStr.getD ""))
    exact ⟨effects, by simp only [heq]⟩
  | some target =>
    rw [hactor] at hdata
    cases hentry : t.registries.entry
        ((data.index "message_type").asStr.getD "") with
    | none =>
      rw [hentry] at hdata
      obtain ⟨reason, htry⟩ := Registries.tryDeserializeMessage_unknown
        h.registries.entries serde hentry (data.index "message")
      obtain ⟨effects, heq⟩ := sendReject_eq json serde
        h.registries zmqSender hdata
        (.new ((data.index "message_type").asStr.getD "") reason
          ((data.index "receiver").asStr.getD ""))
      exact ⟨effects, by simp only [htry, heq]⟩
    | some entry =>
      rw [hentry] at hdata
      obtain ⟨msg, hmsg, hforwards⟩ := hdata
      obtain ⟨effect, hsend⟩ := ActorRef.send_of_forwards json serde
        h.registries hforwards (senderRef zmqSender (data.index "sender_actor").asStr
          (data.index "sender_endpoint").asStr)
      refine ⟨[effect], ?_⟩
      simp only [Registries.tryDeserializeMessage_ok h.registries.entries hentry hmsg, hsend]
      rfl

/-- A message that holds no JSON value is dropped. -/
theorem handleMessage_eq (h : t.Usable) (zmqSender : ZmqSender) {msg : ZmqMessage}
    (hmsg : t.Safe json serde msg) :
    ∃ effects, handleMessage json serde zmqSender t msg = (.value effects, t) := by
  rw [handleMessage]
  cases hdata : envelopeOf json msg with
  | none => exact ⟨[], rfl⟩
  | some data => exact handleRemoteMessage_eq json serde h zmqSender (hmsg data hdata)

/-! ## Panics

These hold for every state of the registries, poisoned mutexes included. -/

section Panics

variable {serde}

theorem ZmqSender.panicked_of_names (h : s.typeidToName.poisoned = true)
    (z : ZmqSender) (endpoint actorName : String) (msg : Message (UserMessage V))
    (sender : Option ActorRef) :
    (z.sendTo json serde s endpoint actorName msg sender).1.panicked = true := by
  rw [sendTo, getMessageTypeName, Registries.getTypeName, Cell.read_poisoned h]
  rfl

theorem ZmqSender.panicked_of_entries (h : s.registry.poisoned = true)
    (z : ZmqSender) (endpoint actorName : String) (msg : Message (UserMessage V))
    (sender : Option ActorRef) :
    (z.sendTo json serde s endpoint actorName msg sender).1.panicked = true := by
  rw [sendTo, getMessageTypeName, Registries.getTypeName]
  dsimp only
  split
  · rfl
  · rename_i msgType s' hname
    have hs : s'.registry.poisoned = true := by
      rw [← (Prod.mk.inj hname).2]
      exact h
    rw [Registries.serializeMessage, Cell.read_poisoned hs]
    rfl

/-- `send_to` panics unless the registry is usable and has what the message
needs. -/
theorem ZmqSender.panicked_sendTo_iff (z : ZmqSender) (endpoint actorName : String)
    (msg : Message (UserMessage V)) (sender : Option ActorRef) :
    (z.sendTo json serde s endpoint actorName msg sender).1.panicked = true ↔
      ¬ (s.Usable ∧ s.Sends serde msg) := by
  cases hnames : s.typeidToName.poisoned with
  | true =>
    refine iff_of_true (panicked_of_names json hnames z endpoint actorName msg sender) ?_
    rintro ⟨husable, -⟩
    rw [husable.names] at hnames
    simp at hnames
  | false =>
    cases hentries : s.registry.poisoned with
    | true =>
      refine iff_of_true
        (panicked_of_entries json hentries z endpoint actorName msg sender) ?_
      rintro ⟨husable, -⟩
      rw [husable.entries] at hentries
      simp at hentries
    | false =>
      have husable : s.Usable := ⟨hnames, hentries⟩
      by_cases hsends : s.Sends serde msg
      · obtain ⟨data, hsend⟩ :=
          sendTo_of_sends json husable hsends z endpoint actorName sender
        rw [hsend]
        simp [husable, hsends]
      · exact iff_of_true
          (panicked_sendTo json husable hsends z endpoint actorName sender)
          fun h => hsends h.2

theorem ActorRef.panicked_send_iff (hentries : s.registry.poisoned = false)
    (msg : Message (UserMessage V)) (target : ActorRef) (sender : Option ActorRef) :
    (target.send json serde s msg sender).1.panicked = true ↔
      ¬ s.CanForward serde msg target := by
  cases target with
  | localRef r => simp [send, Registries.CanForward]
  | cppRef r => simp [send, Registries.CanForward]
  | remoteRef r =>
    rw [send, Outcome.panicked_map, ZmqSender.panicked_sendTo_iff]
    exact not_congr ⟨fun h => ⟨h.1.names, h.2⟩, fun h => ⟨⟨h.1, hentries⟩, h.2⟩⟩

theorem panicked_sendReject_iff (zmqSender : ZmqSender) (data : Value)
    (reject : Reject) :
    (sendReject json serde zmqSender s (data.index "sender_actor").asStr
      (data.index "sender_endpoint").asStr reject).1.panicked = true ↔
      ¬ (HasReturnAddress data → s.registry.poisoned = false ∧ s.CanReject) := by
  rw [HasReturnAddress]
  cases (data.index "sender_actor").asStr with
  | none => simp [sendReject]
  | some actor =>
    cases (data.index "sender_endpoint").asStr with
    | none => simp [sendReject]
    | some endpoint =>
      rw [sendReject, Outcome.panicked_map, ZmqSender.panicked_sendTo_iff, sends_reject]
      simp only [Option.isSome_some, and_self, forall_const, not_iff_not]
      exact ⟨fun h => ⟨h.1.entries, h.1.names, h.2⟩, fun h => ⟨⟨h.2.1, h.1⟩, h.2.2⟩⟩

variable {json} {zmqSender : ZmqSender} {data : Value}

/-- The receiver thread panics on every other frame. -/
theorem panicked_handleRemoteMessage_iff :
    (handleRemoteMessage json serde zmqSender t data).1.panicked = true ↔
      ¬ t.Passes serde data := by
  rw [handleRemoteMessage, Tables.Passes]
  cases hactors : t.actors.actors.poisoned with
  | true =>
    rw [ActorRegistry.get, Cell.read_poisoned hactors]
    simp [ActorRegistry.Usable, hactors]
  | false =>
    have husable : t.actors.Usable := hactors
    rw [ActorRegistry.get_eq hactors]
    cases t.actors.actors.content.lookup ((data.index "receiver").asStr.getD "") with
    | none =>
      simp only [husable, true_and]
      exact panicked_sendReject_iff json zmqSender data _
    | some target =>
      simp only [husable, true_and]
      cases hregistry : t.registries.registry.poisoned with
      | true =>
        rw [Registries.tryDeserializeMessage, Cell.read_poisoned hregistry]
        simp
      | false =>
        cases hentry : t.registries.entry
            ((data.index "message_type").asStr.getD "") with
        | none =>
          obtain ⟨reason, htry⟩ := Registries.tryDeserializeMessage_unknown
            hregistry serde hentry (data.index "message")
          simp only [htry, panicked_sendReject_iff, hregistry, true_and]
        | some entry =>
          cases hmsg : serde.decode entry.messageType (data.index "message") with
          | none =>
            simp [Registries.tryDeserializeMessage_known hregistry hentry,
              RegistryEntry.deserialize, hmsg]
          | some msg =>
            simp only [Registries.tryDeserializeMessage_ok hregistry hentry hmsg,
              Outcome.panicked_map, ActorRef.panicked_send_iff json hregistry]
            simp [hmsg]

/-- The same for a message: what is not UTF-8 or not JSON is dropped. -/
theorem panicked_handleMessage_iff {msg : ZmqMessage} :
    (handleMessage json serde zmqSender t msg).1.panicked = true ↔
      ¬ ∀ data ∈ envelopeOf json msg, t.Passes serde data := by
  rw [handleMessage]
  cases envelopeOf json msg with
  | none => simp
  | some data => simp [panicked_handleRemoteMessage_iff]

/-- With poisoned mutexes a frame needs no less. -/
theorem Tables.Passes.handles (h : t.Passes serde data) : t.Handles serde data := by
  obtain ⟨-, hpasses⟩ := h
  rw [Tables.Handles]
  cases hactor : t.actors.actors.content.lookup
      ((data.index "receiver").asStr.getD "") with
  | none =>
    rw [hactor] at hpasses
    exact fun haddress => (hpasses haddress).2.2
  | some target =>
    rw [hactor] at hpasses
    cases hentry : t.registries.entry
        ((data.index "message_type").asStr.getD "") with
    | none =>
      rw [hentry] at hpasses
      exact fun haddress => (hpasses.2 haddress).2
    | some entry =>
      rw [hentry] at hpasses
      obtain ⟨-, msg, hmsg, hforward⟩ := hpasses
      refine ⟨msg, hmsg, ?_⟩
      cases target with
      | localRef r => exact trivial
      | cppRef r => exact trivial
      | remoteRef r => exact hforward.2

end Panics

/-! ## Every sequence of frames -/

variable (zmqSender : ZmqSender)

namespace ReceiverThread

variable {json serde zmqSender}

/-- A safe message only adds its effects. -/
theorem iterate_safe {t : Tables τ} (h : t.Usable) {msg : ZmqMessage}
    (hmsg : t.Safe json serde msg) (effects : List (Effect V)) :
    ∃ more, ((start t).after effects).iterate json serde zmqSender (.message msg) =
      (start t).after (effects ++ more) := by
  obtain ⟨more, heq⟩ := handleMessage_eq json serde h zmqSender hmsg
  exact ⟨more, by simp [iterate, after, start, heq]⟩

/-- Any other message ends the thread. -/
theorem iterate_unsafe {t : Tables τ} {msg : ZmqMessage}
    (hmsg : ¬ t.Safe json serde msg) (zmqSender : ZmqSender) :
    ((start t : ReceiverThread V).iterate json serde zmqSender
      (.message msg)).status ≠ .looping := by
  have hpanic : (handleMessage json serde zmqSender t msg).1.panicked = true :=
    panicked_handleMessage_iff.mpr
      fun hpasses => hmsg fun data hdata => (hpasses data hdata).handles
  simp only [iterate, start, if_true]
  split
  next heq =>
    rw [heq] at hpanic
    exact absurd hpanic (by simp)
  next => simp

/-- What the thread has sent before does not matter to what it does. -/
theorem iterate_after (r : ReceiverThread V) (earlier : List (Effect V))
    (received : RecvResult) : (r.after earlier).iterate json serde zmqSender received =
      (r.iterate json serde zmqSender received).after earlier := by
  obtain ⟨tables, running, status, effects⟩ := r
  cases status with
  | left | panicked why => rfl
  | looping =>
    cases running with
    | false => rfl
    | true =>
      cases received with
      | socketError | timeout => rfl
      | message msg =>
        simp only [iterate, after, if_true]
        split <;> simp

theorem run_after (r : ReceiverThread V) (earlier : List (Effect V))
    (msgs : List ZmqMessage) : (r.after earlier).run json serde zmqSender msgs =
      (r.run json serde zmqSender msgs).after earlier := by
  induction msgs generalizing r with
  | nil => rfl
  | cons msg msgs ih =>
    simp only [run, List.foldl_cons] at ih ⊢
    rw [iterate_after]
    exact ih _

theorem run_append (r : ReceiverThread V) (msgs later : List ZmqMessage) :
    r.run json serde zmqSender (msgs ++ later) =
      (r.run json serde zmqSender msgs).run json serde zmqSender later :=
  List.foldl_append

/-- Safe messages only add their effects. -/
theorem run_safe {t : Tables τ} (h : t.Usable) {msgs : List ZmqMessage}
    (hmsgs : ∀ msg ∈ msgs, t.Safe json serde msg) (effects : List (Effect V)) :
    ∃ more, ((start t).after effects).run json serde zmqSender msgs =
      (start t).after (effects ++ more) := by
  induction msgs generalizing effects with
  | nil => exact ⟨[], by rw [List.append_nil]; rfl⟩
  | cons msg msgs ih =>
    obtain ⟨hmsg, hmsgs⟩ := List.forall_mem_cons.mp hmsgs
    obtain ⟨first, heq⟩ := iterate_safe h hmsg effects
    obtain ⟨more, hmore⟩ := ih hmsgs (effects ++ first)
    refine ⟨first ++ more, ?_⟩
    rw [run, List.foldl_cons, heq, ← List.append_assoc]
    exact hmore

end ReceiverThread

open ReceiverThread

/-- After each of the messages the thread is in its loop, both registries are
usable and as they were, and whatever comes later is handled as if these
messages had not arrived. -/
def Survives (t : Tables τ) (msgs : List ZmqMessage) : Prop :=
  ∀ seen, seen <+: msgs →
    let r := (start t : ReceiverThread V).run json serde zmqSender seen
    r.status = .looping ∧ r.tables = t ∧ r.tables.Usable ∧
      ∀ later, (start t).run json serde zmqSender (seen ++ later) =
        ((start t).run json serde zmqSender later).after r.effects

/-- The receiver survives a sequence of messages if and only if the registries
are usable when it begins and it gets through each of the messages. -/
theorem survives_iff (t : Tables τ) (msgs : List ZmqMessage) :
    Survives json serde zmqSender t msgs ↔
      t.Usable ∧ ∀ msg ∈ msgs, t.Safe json serde msg := by
  constructor
  · intro h
    have husable : t.Usable := (h [] List.nil_prefix).2.2.1
    refine ⟨husable, fun msg hmem => ?_⟩
    by_contra hno
    -- The messages before this one change nothing, so it meets the first state.
    obtain ⟨seen, rest, rfl⟩ := List.append_of_mem hmem
    obtain ⟨-, -, -, hlater⟩ := h seen (List.prefix_append _ _)
    obtain ⟨hloop, -, -, -⟩ := h (seen ++ [msg]) ⟨rest, by simp⟩
    rw [hlater [msg]] at hloop
    exact iterate_unsafe hno zmqSender hloop
  · rintro ⟨husable, hsafe⟩ seen ⟨rest, rfl⟩
    have hseen : ∀ msg ∈ seen, t.Safe json serde msg :=
      fun msg hmem => hsafe msg (List.mem_append_left _ hmem)
    have hrun : ∃ effects, (start t).run json serde zmqSender seen =
        (start t).after effects := run_safe husable hseen []
    obtain ⟨effects, heq⟩ := hrun
    refine ⟨by rw [heq]; rfl, by rw [heq]; rfl, by rw [heq]; exact husable, ?_⟩
    intro later
    rw [run_append, heq, run_after]
    simp [after, start]

end Needs

/-- A frame for a registered actor, of a registered type, with a payload that
is not of this type. -/
def nullFlag : String :=
  "\x7b\"message\":null,\"message_type\":\"Flag\",\"receiver\":\"a\"," ++
    "\"sender_actor\":null,\"sender_endpoint\":null\x7d"

/-- The receiver does not survive this frame. -/
theorem not_survives_nullFlag :
    let t : Tables Unit :=
      { registries := .ofRegistrations [(.user (), "Flag")]
        actors := (ActorRegistry.new.register "a" (.localRef ⟨0, "a"⟩)).2 }
    let json : JsonText := .ofPair nullFlag (frame (none, none) "a" "Flag" .null)
    let zmqSender : ZmqSender := ⟨1, "tcp://0.0.0.0:5001"⟩
    t.Usable ∧ ¬ Survives json flagSerde zmqSender t [[nullFlag.toUTF8]] := by
  intro t json zmqSender
  have husable : t.Usable := ⟨⟨rfl, rfl⟩, rfl⟩
  have henvelope : envelopeOf json [nullFlag.toUTF8] =
      some (frame (none, none) "a" "Flag" .null) := by
    rw [envelopeOf_toUTF8]
    exact JsonText.roundTrips_ofPair nullFlag _
  have hno : ¬ t.Safe json flagSerde [nullFlag.toUTF8] := by
    intro hsafe
    obtain ⟨msg, hmsg, -⟩ := hsafe _ henvelope
    exact nomatch hmsg
  refine ⟨husable, fun h => ?_⟩
  exact ReceiverThread.iterate_unsafe hno zmqSender
    (h _ (List.prefix_refl _)).1

end Actors
