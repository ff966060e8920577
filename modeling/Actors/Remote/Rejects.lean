import Actors.Lib.Lists
import Actors.Lib.Machine
import Actors.Remote.Reactions
import Actors.Serialization.Failures

/-!
# Rejects do not answer each other

A receiver answers a frame that it cannot deliver, and the answer is a frame like
any other.  Two processes that do not know each other's actors do not answer each
other for ever, because a `Reject` goes out without a sender: `send_to` writes
`null` for both sender members, the receiver at the other end reads no return
address, and the message that it delivers, if it does, has no sender to reply to.

`Network` is the machine of any number of processes.  `Sparing` is the invariant:
a frame that an actor did not send with full sender information has no return
address, so every `Reject` has used up a frame that has one.
-/

namespace Actors

open Concur

variable {τ : Type} {V : τ → Type}

/-- Who has sent a frame. -/
inductive Origin where
  /-- An actor.  `addressed` tells whether the frame has full sender
  information. -/
  | actor (addressed : Bool)
  | receiver
  deriving DecidableEq, Repr

/-- A process with one receiver. -/
structure Node (τ : Type) where
  tables : Tables τ
  zmqSender : ZmqSender
  status : LoopStatus

/-- The processes, the frames on their way, and who has sent a frame so far. -/
structure Network (τ : Type) where
  nodes : List (Node τ)
  inFlight : List (Origin × SendRequest)
  emitted : List Origin

/-- The labels of the machine. -/
inductive NetworkAction (V : τ → Type) where
  /-- An actor of process `p` sends, by itself or with `ctx.reply`. -/
  | send (p : Nat) (target : ActorRef) (msg : Message (UserMessage V))
      (sender : Option ActorRef)
  /-- The receiver of process `p` gets the `k`-th of the frames on their way. -/
  | deliver (p k : Nat)
  | lose (k : Nat)
  | register (p : Nat) (name : String) (r : LocalActorRef)
  /-- A thread of process `p` calls a function of the message registry. -/
  | call (p : Nat) (c : RegistryCall V)

/-- The request that a send puts into the queue of a sender thread. -/
def Effect.request : Effect V → Option SendRequest
  | .queued _ request => some request
  | _ => none

/-- What is sent through the reference with this sender has full sender
information: the name of the sender and its endpoint. -/
def ActorRef.addressed (target : ActorRef) (sender : Option ActorRef) : Bool :=
  match target with
  | .remoteRef r =>
    (r.zmqSender.senderInfo sender).1.isSome &&
      (r.zmqSender.senderInfo sender).2.isSome
  | _ => false

/-- The registry holds only local actors. -/
def Tables.OnlyLocal (t : Tables τ) : Prop :=
  ∀ name ref, t.actors.actors.content.lookup name = some ref →
    ∃ r, ref = .localRef r

/-- What `to_string` writes of the two sender members of a frame, `from_str`
reads. -/
def JsonText.KeepsSender (json : JsonText) : Prop :=
  ∀ sender actorName msgType v data,
    json.fromStr (json.toString (frame sender actorName msgType v)) = some data →
      data.index "sender_actor" = .ofOption sender.1 ∧
        data.index "sender_endpoint" = .ofOption sender.2

/-- The request carries a `Reject` without sender information. -/
def SendRequest.IsReject (json : JsonText) (request : SendRequest) : Prop :=
  ∃ actorName msgType, ∃ reject : Reject, request.data =
    (json.toString (frame (none, none) actorName msgType reject.toValue)).toUTF8

namespace Network

/-- An effect, if it is a frame, is on its way. -/
def emit (net : Network τ) (origin : Origin) (effect : Effect V) : Network τ :=
  match effect.request with
  | some request =>
    { net with
      inFlight := net.inFlight ++ [(origin, request)]
      emitted := net.emitted ++ [origin] }
  | none => net

/-- Process `p` changes. -/
def setNode (net : Network τ) (p : Nat) (node : Node τ) : Network τ :=
  { net with nodes := net.nodes.set p node }

variable [DecidableEq τ] (json : JsonText) (serde : Serde V)

/-- One step. -/
def next (net : Network τ) : NetworkAction V → Option (Network τ)
  | .send p target msg sender =>
    match net.nodes[p]? with
    | none => none
    | some node =>
      let (o, registries) := target.send json serde node.tables.registries msg sender
      let net := net.setNode p { node with tables := { node.tables with registries } }
      match o with
      | .value effect => some (net.emit (.actor (target.addressed sender)) effect)
      | .panic _ => some net
  | .deliver p k =>
    match net.nodes[p]?, net.inFlight[k]? with
    | some node, some (_, request) =>
      if node.status = .looping then
        let net := { net with inFlight := net.inFlight.eraseIdx k }
        match handleMessage json serde node.zmqSender node.tables [request.data] with
        | (.value effects, tables) =>
          some (effects.foldl (·.emit .receiver ·) (net.setNode p { node with tables }))
        | (.panic why, tables) =>
          some (net.setNode p { node with tables, status := .panicked why })
      else none
    | _, _ => none
  | .lose k =>
    if k < net.inFlight.length then
      some { net with inFlight := net.inFlight.eraseIdx k }
    else none
  | .register p name r =>
    (net.nodes[p]?).map fun node =>
      let actors := (node.tables.actors.register name (.localRef r)).2
      net.setNode p { node with tables := { node.tables with actors } }
  | .call p c =>
    (net.nodes[p]?).map fun node =>
      let registries := (node.tables.registries.call serde c).2
      net.setNode p { node with tables := { node.tables with registries } }

/-- Any processes with local actors, before anything is sent. -/
def Start (net : Network τ) : Prop :=
  net.inFlight = [] ∧ net.emitted = [] ∧
    ∀ node ∈ net.nodes, node.tables.OnlyLocal

/-- The machine of any number of processes. -/
def machine : Machine (Network τ) (NetworkAction V) :=
  .ofNext Start (next json serde)

end Network

/-! ## One frame -/

section Frame

variable [DecidableEq τ] {json : JsonText} {serde : Serde V} {zmqSender : ZmqSender}
  {t t' : Tables τ}

/-- What the bytes say, if they are JSON, has no return address. -/
def Unaddressed (json : JsonText) (data : ByteArray) : Prop :=
  ∀ v ∈ envelopeOf json [data], ¬ HasReturnAddress v

/-- A frame that is written without both sender members has no return address. -/
theorem unaddressed_frame (hjson : json.KeepsSender)
    {sender : Option String × Option String}
    (hsender : (sender.1.isSome && sender.2.isSome) = false)
    (actorName msgType : String) (v : Value) :
    Unaddressed json (json.toString (frame sender actorName msgType v)).toUTF8 := by
  intro data hdata haddress
  rw [Option.mem_def, envelopeOf_toUTF8] at hdata
  obtain ⟨hactor, hendpoint⟩ := hjson _ _ _ _ _ hdata
  rw [HasReturnAddress, hactor, hendpoint, Value.asStr_ofOption,
    Value.asStr_ofOption] at haddress
  simp [haddress] at hsender

theorem unaddressed_of_isReject (hjson : json.KeepsSender) {request : SendRequest}
    (h : request.IsReject json) : Unaddressed json request.data := by
  obtain ⟨actorName, msgType, reject, hdata⟩ := h
  rw [hdata]
  exact unaddressed_frame hjson rfl _ _ _

/-- A frame makes a receiver send at most one frame, and that is a `Reject`
without sender information. -/
theorem requests_of_handleMessage (hlocal : t.OnlyLocal) {msg : ZmqMessage}
    {effects : List (Effect V)}
    (h : handleMessage json serde zmqSender t msg = (.value effects, t')) :
    effects.filterMap Effect.request = [] ∨
      ∃ request, effects.filterMap Effect.request = [request] ∧
        request.IsReject json := by
  unfold handleMessage at h
  split at h
  · cases reaction_of_handle h with
    | dropped => exact Or.inl rfl
    | rejected actor endpoint msgType reject =>
      exact Or.inr ⟨_, rfl, actor, msgType, reject, rfl⟩
    | forwarded target s s' msg effect htarget hsend =>
      obtain ⟨r, rfl⟩ := hlocal _ _ htarget
      rw [ActorRef.send, Prod.mk.injEq, Outcome.value.injEq] at hsend
      exact Or.inl (by simp [← hsend.1, Effect.request])
  · rw [Prod.mk.injEq, Outcome.value.injEq] at h
    exact Or.inl (by simp [← h.1])

/-- A frame without a return address makes a receiver send no frame, and what it
delivers has no sender and no reply channel. -/
theorem silent_of_unaddressed (hlocal : t.OnlyLocal) {data : ByteArray}
    (hdata : Unaddressed json data) {effects : List (Effect V)}
    (h : handleMessage json serde zmqSender t [data] = (.value effects, t')) :
    effects.filterMap Effect.request = [] ∧
      ∀ tx envelope, .posted tx envelope ∈ effects →
        envelope.sender = none ∧ envelope.replyChannel = none := by
  unfold handleMessage at h
  split at h
  · rename_i v hv
    have hno := hdata v hv
    cases reaction_of_handle h with
    | dropped => simp
    | rejected actor endpoint msgType reject hactor hendpoint =>
      exact absurd ⟨by simp [hactor], by simp [hendpoint]⟩ hno
    | forwarded target s s' msg effect htarget hsend =>
      obtain ⟨r, rfl⟩ := hlocal _ _ htarget
      rw [ActorRef.send, Prod.mk.injEq, Outcome.value.injEq] at hsend
      obtain ⟨rfl, -⟩ := hsend
      refine ⟨rfl, fun tx envelope hmem => ?_⟩
      rw [List.mem_singleton, Effect.posted.injEq] at hmem
      obtain ⟨-, rfl⟩ := hmem
      refine ⟨?_, rfl⟩
      show senderRef _ _ _ = none
      unfold senderRef
      split
      · rename_i name endpoint hactor hendpoint
        exact absurd ⟨by simp [hactor], by simp [hendpoint]⟩ hno
      · rfl
  · rw [Prod.mk.injEq, Outcome.value.injEq] at h
    simp [← h.1]

omit [DecidableEq τ] in
/-- An actor that handles a message without a sender and a reply channel cannot
reply. -/
theorem reply_of_no_sender (ctx : ActorContext) {envelope : Envelope (UserMessage V)}
    (hsender : envelope.sender = none) (hchannel : envelope.replyChannel = none) :
    (ctx.prepareForEnvelope envelope.sender envelope.replyChannel).reply.1 =
      .dropped := by
  rw [hsender, hchannel]
  rfl

end Frame

/-! ## Registries stay local -/

section Local

variable {t : Tables τ}

theorem Tables.OnlyLocal.register (h : t.OnlyLocal) (name : String)
    (r : LocalActorRef) : Tables.OnlyLocal
      { t with actors := (t.actors.register name (.localRef r)).2 } := by
  intro other ref hlookup
  rw [ActorRegistry.register] at hlookup
  cases hp : t.actors.actors.poisoned with
  | true =>
    simp only [Cell.hold_poisoned hp] at hlookup
    exact h other ref hlookup
  | false =>
    simp only [Cell.hold_clean hp] at hlookup
    by_cases hname : other = name
    · rw [hname, AList.lookup_insert, Option.some.injEq] at hlookup
      exact ⟨r, hlookup.symm⟩
    · rw [AList.lookup_insert_ne hname] at hlookup
      exact h other ref hlookup

theorem content_of_get (reg : ActorRegistry) (name : String) :
    (reg.get name).2.actors.content = reg.actors.content := by
  rw [ActorRegistry.get]
  cases hp : reg.actors.poisoned with
  | true => simp [Cell.read_poisoned hp]
  | false => simp [Cell.read_clean hp]

/-- The handling of a frame registers no actor. -/
theorem content_of_handle [DecidableEq τ] {json : JsonText} {serde : Serde V}
    {zmqSender : ZmqSender} (data : Value) :
    (handleRemoteMessage json serde zmqSender t data).2.actors.actors.content =
      t.actors.actors.content := by
  have hget := content_of_get t.actors ((data.index "receiver").asStr.getD "")
  unfold handleRemoteMessage
  dsimp only
  split
  · rename_i heq
    simpa [heq] using hget
  · rename_i heq
    simpa [heq] using hget
  · rename_i heq
    rw [heq] at hget
    split <;> exact hget

theorem Tables.OnlyLocal.handle [DecidableEq τ] (h : t.OnlyLocal) (json : JsonText)
    (serde : Serde V) (zmqSender : ZmqSender) (msg : ZmqMessage) :
    (handleMessage json serde zmqSender t msg).2.OnlyLocal := by
  unfold handleMessage
  split
  · intro name ref hlookup
    rw [content_of_handle] at hlookup
    exact h name ref hlookup
  · exact h

end Local

/-! ## All frames -/

/-- Every frame with a return address comes from an actor and is counted, and so
is every `Reject`. -/
structure Sparing (json : JsonText) (net : Network τ) : Prop where
  local_ : ∀ node ∈ net.nodes, node.tables.OnlyLocal
  unaddressed : ∀ f ∈ net.inFlight, f.1 ≠ .actor true → Unaddressed json f.2.data
  count : net.emitted.count .receiver +
    net.inFlight.countP (fun f => f.1 = .actor true) ≤
      net.emitted.count (.actor true)

section Steps

variable {json : JsonText} {net : Network τ}

theorem Sparing.setNode (h : Sparing json net) (p : Nat) (node : Node τ)
    (hnode : node.tables.OnlyLocal) : Sparing json (net.setNode p node) :=
  ⟨forall_mem_set h.local_ hnode, h.unaddressed, h.count⟩

/-- An actor has sent a frame. -/
theorem Sparing.emit (h : Sparing json net) {addressed : Bool} {effect : Effect V}
    (hframe : ∀ request, effect.request = some request → addressed = false →
      Unaddressed json request.data) :
    Sparing json (net.emit (.actor addressed) effect) := by
  unfold Network.emit
  split
  · rename_i request hrequest
    refine ⟨h.local_, forall_mem_snoc h.unaddressed fun hne => ?_, ?_⟩
    · cases addressed with
      | true => exact absurd rfl hne
      | false => exact hframe request hrequest rfl
    · have hcount := h.count
      cases addressed <;> simp [List.countP_append, List.count_append] <;> omega
  · exact h

/-- A receiver has sent at most one frame. -/
theorem foldl_emit (net : Network τ) (effects : List (Effect V)) :
    effects.foldl (·.emit .receiver ·) net =
      { net with
        inFlight := net.inFlight ++
          (effects.filterMap Effect.request).map fun request => (.receiver, request)
        emitted := net.emitted ++
          (effects.filterMap Effect.request).map fun _ => .receiver } := by
  induction effects generalizing net with
  | nil => simp
  | cons effect effects ih =>
    rw [List.foldl_cons, ih, Network.emit]
    cases hrequest : effect.request <;> simp [hrequest]

/-- A frame leaves the network. -/
theorem Sparing.erase (h : Sparing json net) (k : Nat) :
    Sparing json { net with inFlight := net.inFlight.eraseIdx k } := by
  have hsub := List.eraseIdx_sublist net.inFlight k
  refine ⟨h.local_, fun f hf => h.unaddressed f (hsub.subset hf), ?_⟩
  have hle := hsub.countP_le (p := fun f => f.1 = .actor true)
  have hcount := h.count
  simp only
  omega

/-- A frame that an actor has sent with full sender information leaves the
network. -/
theorem Sparing.count_erase (h : Sparing json net) {k : Nat} {request : SendRequest}
    (hk : net.inFlight[k]? = some (.actor true, request)) :
    net.emitted.count .receiver + 1 +
      (net.inFlight.eraseIdx k).countP (fun f => f.1 = .actor true) ≤
        net.emitted.count (.actor true) := by
  obtain ⟨hlt, hget⟩ := List.getElem?_eq_some_iff.mp hk
  have hperm := List.getElem_cons_eraseIdx_perm hlt
  have hcountP := hperm.countP_eq fun f => f.1 = .actor true
  rw [hget, List.countP_cons_of_pos (by simp)] at hcountP
  have hcount := h.count
  omega

/-- A receiver handles a frame. -/
theorem Sparing.deliver [DecidableEq τ] {serde : Serde V} (hjson : json.KeepsSender)
    (h : Sparing json net) {p k : Nat} {node : Node τ} (hnode : net.nodes[p]? = some node)
    {origin : Origin} {request : SendRequest}
    (hk : net.inFlight[k]? = some (origin, request)) {effects : List (Effect V)}
    {tables : Tables τ}
    (hhandle : handleMessage json serde node.zmqSender node.tables [request.data] =
      (.value effects, tables)) :
    Sparing json (effects.foldl (·.emit .receiver ·)
      ({ net with inFlight := net.inFlight.eraseIdx k }.setNode p
        { node with tables })) := by
  have hlocal := h.local_ node (List.mem_of_getElem? hnode)
  have htables : tables.OnlyLocal := by
    have hkept := hlocal.handle json serde node.zmqSender [request.data]
    rwa [hhandle] at hkept
  have herased := (h.erase k).setNode p { node with tables } htables
  rw [foldl_emit]
  rcases requests_of_handleMessage hlocal hhandle with hnone | ⟨reply, hone, hreject⟩
  · rw [hnone]
    simpa using herased
  · rw [hone]
    -- Only a frame with a return address is answered.
    have horigin : origin = .actor true := by
      by_contra hne
      have hsilent := silent_of_unaddressed hlocal
        (h.unaddressed _ (List.mem_of_getElem? hk) hne) hhandle
      rw [hone] at hsilent
      simp at hsilent
    rw [horigin] at hk
    refine ⟨herased.local_, forall_mem_snoc herased.unaddressed fun _ => ?_, ?_⟩
    · exact unaddressed_of_isReject hjson hreject
    · have hcount := h.count_erase hk
      simp [List.count_append, List.countP_append, Network.setNode]
      omega

theorem sparing_next [DecidableEq τ] {serde : Serde V} (hjson : json.KeepsSender)
    (h : Sparing json net) {a : NetworkAction V} {net' : Network τ}
    (hnext : net.next json serde a = some net') : Sparing json net' := by
  unfold Network.next at hnext
  cases a with
  | send p target msg sender =>
    dsimp only at hnext
    split at hnext
    · simp at hnext
    · rename_i node hnode
      have hset := h.setNode p { node with tables := { node.tables with
        registries := (target.send json serde node.tables.registries msg sender).2 } }
        (h.local_ node (List.mem_of_getElem? hnode))
      split at hnext
      · rename_i effect heffect
        rw [Option.some.injEq] at hnext
        rw [← hnext]
        refine hset.emit fun request hrequest haddressed => ?_
        cases target with
        | localRef r | cppRef r =>
          rw [ActorRef.send, Outcome.value.injEq] at heffect
          simp [← heffect, Effect.request] at hrequest
        | remoteRef r =>
          rw [ActorRef.send, Outcome.map_eq_value] at heffect
          obtain ⟨sent, hsent, rfl⟩ := heffect
          obtain ⟨msgType, v, -, rfl⟩ :=
            ZmqSender.request_of_sendTo (Prod.ext hsent rfl)
          rw [Effect.request, Option.some.injEq] at hrequest
          rw [← hrequest]
          exact unaddressed_frame hjson haddressed _ _ _
      · rw [Option.some.injEq] at hnext
        exact hnext ▸ hset
  | deliver p k =>
    dsimp only at hnext
    split at hnext
    · rename_i node origin request hnode hk
      split at hnext
      · split at hnext
        · rename_i effects tables hhandle
          rw [Option.some.injEq] at hnext
          exact hnext ▸ h.deliver hjson hnode hk hhandle
        · rename_i why tables hhandle
          rw [Option.some.injEq] at hnext
          have hkept := (h.local_ node (List.mem_of_getElem? hnode)).handle json serde
            node.zmqSender [request.data]
          rw [hhandle] at hkept
          exact hnext ▸ (h.erase k).setNode p _ hkept
      · simp at hnext
    · simp at hnext
  | lose k =>
    simp only [Option.ite_none_right_eq_some, Option.some.injEq] at hnext
    exact hnext.2 ▸ h.erase k
  | register p name r =>
    obtain ⟨node, hnode, rfl⟩ := Option.map_eq_some_iff.mp hnext
    exact h.setNode p _ ((h.local_ node (List.mem_of_getElem? hnode)).register name r)
  | call p c =>
    obtain ⟨node, hnode, rfl⟩ := Option.map_eq_some_iff.mp hnext
    exact h.setNode p _ (h.local_ node (List.mem_of_getElem? hnode))

theorem sparing [DecidableEq τ] {serde : Serde V} (hjson : json.KeepsSender)
    (h : (Network.machine json serde).Reachable net) : Sparing json net := by
  refine Machine.Reach.invariant ?_ ?_ h
  · rintro net ⟨hnone, hempty, hlocal⟩
    exact ⟨hlocal, by simp [hnone], by simp [hnone, hempty]⟩
  · intro net a net' _ hnet _ hnext
    exact sparing_next hjson hnet hnext

end Steps

/-! ## Rejects cannot storm -/

/-- When all registries hold only local actors: a frame makes a receiver send at
most one frame, a `Reject` without sender information; a `Reject` makes it send
none, and neither does the reply of an actor to it; so in every run the receivers
have sent at most as many frames as the actors have sent with full sender
information. -/
theorem rejects_never_storm [DecidableEq τ] {json : JsonText} (hjson : json.KeepsSender)
    (serde : Serde V) :
    (∀ (zmqSender : ZmqSender) (t t' : Tables τ) (msg : ZmqMessage)
      (effects : List (Effect V)), t.OnlyLocal →
      handleMessage json serde zmqSender t msg = (.value effects, t') →
        effects.filterMap Effect.request = [] ∨
          ∃ request, effects.filterMap Effect.request = [request] ∧
            request.IsReject json) ∧
    (∀ (zmqSender : ZmqSender) (t t' : Tables τ) (request : SendRequest)
      (effects : List (Effect V)), t.OnlyLocal → request.IsReject json →
      handleMessage json serde zmqSender t [request.data] = (.value effects, t') →
        effects.filterMap Effect.request = [] ∧
          ∀ tx envelope, .posted tx envelope ∈ effects → ∀ ctx : ActorContext,
            (ctx.prepareForEnvelope envelope.sender envelope.replyChannel).reply.1 =
              .dropped) ∧
    ∀ net : Network τ, (Network.machine json serde).Reachable net →
      net.emitted.count .receiver ≤ net.emitted.count (.actor true) := by
  refine ⟨fun _ _ _ _ _ hlocal h => requests_of_handleMessage hlocal h, ?_, ?_⟩
  · intro zmqSender t t' request effects hlocal hreject h
    obtain ⟨hnone, hposted⟩ :=
      silent_of_unaddressed hlocal (unaddressed_of_isReject hjson hreject) h
    refine ⟨hnone, fun tx envelope hmem ctx => ?_⟩
    obtain ⟨hsender, hchannel⟩ := hposted tx envelope hmem
    exact reply_of_no_sender ctx hsender hchannel
  · intro net hnet
    exact Nat.le_of_add_right_le (sparing hjson hnet).count

/-- A message from `a` for an actor that the other process does not know. -/
def sentText : String :=
  "\x7b\"message\":true,\"message_type\":\"Flag\",\"receiver\":\"b\"," ++
    "\"sender_actor\":\"a\",\"sender_endpoint\":\"tcp://0.0.0.0:5002\"\x7d"

def sentFrame : Value :=
  frame (some "a", some "tcp://0.0.0.0:5002") "b" "Flag" (.bool true)

/-- The answer to it. -/
def rejectText : String :=
  "\x7b\"message\":\x7b\"message_type\":\"Flag\",\"reason\":" ++
    "\"Actor 'b' not found\",\"rejected_by\":\"b\"\x7d," ++
    "\"message_type\":\"Reject\",\"receiver\":\"a\"," ++
    "\"sender_actor\":null,\"sender_endpoint\":null\x7d"

def rejectFrame : Value :=
  frame (none, none) "a" "Reject" (Reject.new "Flag" "Actor 'b' not found" "b").toValue

/-- `serde_json`, as far as the two frames go. -/
def rejectJson : JsonText where
  toString v :=
    let sender := ((v.index "sender_actor").asStr, (v.index "sender_endpoint").asStr)
    if sender = (some "a", some "tcp://0.0.0.0:5002") then sentText
    else if sender = (none, none) then rejectText
    else ""
  fromStr text :=
    if text = sentText then some sentFrame
    else if text = rejectText then some rejectFrame
    else none

theorem keepsSender_rejectJson : rejectJson.KeepsSender := by
  intro sender actorName msgType v data h
  obtain ⟨actor, endpoint⟩ := sender
  simp only [rejectJson, frame_senderActor, frame_senderEndpoint,
    Value.asStr_ofOption] at h
  by_cases hsent : (actor, endpoint) = (some "a", some "tcp://0.0.0.0:5002")
  · rw [if_pos hsent, if_pos rfl, Option.some.injEq] at h
    obtain ⟨rfl, rfl⟩ := Prod.mk.inj hsent
    subst h
    exact ⟨rfl, rfl⟩
  · rw [if_neg hsent] at h
    by_cases hreject : (actor, endpoint) = (none, none)
    · rw [if_pos hreject, if_neg (by decide), if_pos rfl, Option.some.injEq] at h
      obtain ⟨rfl, rfl⟩ := Prod.mk.inj hreject
      subst h
      exact ⟨rfl, rfl⟩
    · rw [if_neg hreject, if_neg (by decide), if_neg (by decide)] at h
      simp at h

/-- A process that knows no actors. -/
def emptyNode : Node Unit where
  tables :=
    { registries := .ofRegistrations [(.user (), "Flag"), (.reject, "Reject")]
      actors := ActorRegistry.new }
  zmqSender := ⟨0, "tcp://0.0.0.0:5002"⟩
  status := .looping

/-- Two of them, before anything is sent. -/
def emptyNodes : Network Unit :=
  { nodes := [emptyNode, emptyNode], inFlight := [], emitted := [] }

/-- The message is under way. -/
def flagSent : Network Unit :=
  { emptyNodes with
    inFlight := [(.actor true,
      { endpoint := "tcp://localhost:5001", data := sentText.toUTF8 })]
    emitted := [.actor true] }

/-- The `Reject` for it is under way. -/
def flagRejected : Network Unit :=
  { emptyNodes with
    inFlight := [(.receiver,
      { endpoint := "tcp://0.0.0.0:5002", data := rejectText.toUTF8 })]
    emitted := [.actor true, .receiver] }

theorem start_emptyNodes : emptyNodes.Start := by
  refine ⟨rfl, rfl, fun n hn name ref hlookup => ?_⟩
  have hnode : n = emptyNode := by simpa [emptyNodes] using hn
  rw [hnode] at hlookup
  exact absurd hlookup (by simp [emptyNode, ActorRegistry.new, Cell.new])

theorem deliver_flagSent :
    flagSent.next rejectJson flagSerde (.deliver 1 0) = some flagRejected := by
  have hhandle : handleMessage rejectJson flagSerde emptyNode.zmqSender emptyNode.tables
      [sentText.toUTF8] = (.value [.queued 0
        { endpoint := "tcp://0.0.0.0:5002", data := rejectText.toUTF8 }],
        emptyNode.tables) := by
    rw [handleMessage, envelopeOf_toUTF8]
    rfl
  simp only [Network.next, flagSent, emptyNodes, List.getElem?_cons_succ,
    List.getElem?_cons_zero, hhandle]
  rfl

/-- The receiver of the second process answers the message with a `Reject`. -/
theorem rejects_never_storm_unknown : ∃ net : Network Unit,
    net.emitted = [.actor true, .receiver] ∧
      net.emitted.count .receiver ≤ net.emitted.count (.actor true) := by
  have hsend : emptyNodes.next rejectJson flagSerde (.send 0
      (.remoteRef ⟨"b", "tcp://localhost:5001", emptyNode.zmqSender⟩) (.user ⟨(), true⟩)
      (some (.localRef ⟨3, "a"⟩))) = some flagSent := rfl
  have hreach : (Network.machine rejectJson flagSerde).Reachable emptyNodes :=
    .start start_emptyNodes
  have hreach' := (hreach.step trivial hsend).step trivial deliver_flagSent
  exact ⟨_, rfl, (rejects_never_storm keepsSender_rejectJson flagSerde).2.2 _ hreach'⟩

end Actors
