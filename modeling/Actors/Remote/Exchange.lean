import Mathlib.Logic.Function.Basic
import Actors.Lib.Machine
import Actors.Remote.Receiver

/-!
# Two actors that talk to each other across two processes

The machine of an exchange between an actor of one process and an actor of
another.  Each process has a sender thread, a receiver thread and the thread of
its actor, and one step of the machine is what one of them does with the next
thing in its queue:

* the first message: `a` sends it through a `RemoteActorRef` for `b`, with
  `ctx.self_ref()` as the sender;
* `transmit`: the sender thread takes a request and passes the frame to the
  socket of its endpoint;
* `receive`: the receiver thread reads a frame and handles it;
* `answer`: the thread of the actor takes an envelope, prepares the context for
  it, and the handler answers with `ctx.reply`.

Which message is said is up to the application.  ZeroMQ is the function
`reaches`: the process whose receiver the frames for an endpoint arrive at.
-/

namespace Actors

open Concur

variable {τ : Type} {V : τ → Type}

/-- The two processes. -/
inductive Side where
  | a
  | b
  deriving DecidableEq, Repr

def Side.other : Side → Side
  | .a => .b
  | .b => .a

@[simp] theorem Side.other_other (s : Side) : s.other.other = s := by
  cases s <;> rfl

/-- A process, with its actor of the exchange. -/
structure Party (τ : Type) where
  tables : Tables τ
  zmqSender : ZmqSender
  actor : LocalActorRef
  context : ActorContext

/-- The queues of a process: of its sender thread, of the socket of its
receiver, and of its actor. -/
structure Queues (V : τ → Type) where
  requests : List SendRequest := []
  frames : List ByteArray := []
  mailbox : List (Envelope (UserMessage V)) := []

/-- The state of an exchange. -/
structure Exchange (V : τ → Type) where
  parties : Side → Party τ
  queues : Side → Queues V
  /-- What the two actors have said so far, in order. -/
  said : List (Message (UserMessage V))
  /-- How many requests the sender threads have taken. -/
  carried : Nat
  /-- What the receiver threads did with each frame, in order. -/
  heard : List (Side × Outcome (List (Effect V)))
  /-- What went anywhere but into the queues of the two parties. -/
  elsewhere : List (Side × Effect V)
  panicked : Bool

/-- What the two processes do not decide. -/
structure Setting (V : τ → Type) where
  json : JsonText
  serde : Serde V
  /-- The reference for `b` that `a` begins with. -/
  target : RemoteActorRef
  /-- The process whose receiver gets the frames for an endpoint. -/
  reaches : String → Option Side

/-- The labels of the machine. -/
inductive Hop (V : τ → Type) where
  | first (msg : Message (UserMessage V))
  | transmit (s : Side)
  | receive (s : Side)
  | answer (s : Side) (msg : Message (UserMessage V))

/-- The message that is said in the step. -/
def Hop.says : Hop V → Option (Message (UserMessage V))
  | .first msg | .answer _ msg => some msg
  | .transmit _ | .receive _ => none

namespace Exchange

/-- Before anything is said. -/
def start (parties : Side → Party τ) : Exchange V :=
  { parties, queues := fun _ => {}, said := [], carried := 0, heard := []
    elsewhere := [], panicked := false }

def setQueues (e : Exchange V) (s : Side) (q : Queues V) : Exchange V :=
  { e with queues := Function.update e.queues s q }

def setParty (e : Exchange V) (s : Side) (p : Party τ) : Exchange V :=
  { e with parties := Function.update e.parties s p }

/-- The thread of the actor of process `s` takes an envelope from the mailbox, of which
`rest` is left, and prepares the context for it. -/
def taken (e : Exchange V) (s : Side) (envelope : Envelope (UserMessage V))
    (rest : List (Envelope (UserMessage V))) : Exchange V :=
  let context := (e.parties s).context.prepareForEnvelope envelope.sender
    envelope.replyChannel
  (e.setQueues s { e.queues s with mailbox := rest }).setParty s
    { e.parties s with context }

/-- An effect of process `s`, put where it belongs. -/
def apply (e : Exchange V) (s : Side) (effect : Effect V) : Exchange V :=
  let q := e.queues s
  match effect with
  | .posted tx envelope =>
    if tx = (e.parties s).actor.sender then
      e.setQueues s { q with mailbox := q.mailbox ++ [envelope] }
    else { e with elsewhere := e.elsewhere ++ [(s, effect)] }
  | .queued tx request =>
    if tx = (e.parties s).zmqSender.sendTx then
      e.setQueues s { q with requests := q.requests ++ [request] }
    else { e with elsewhere := e.elsewhere ++ [(s, effect)] }
  | .foreign _ _ => { e with elsewhere := e.elsewhere ++ [(s, effect)] }

/-- The socket of the endpoint gets the frame of a request. -/
def carry (c : Setting V) (e : Exchange V) (s : Side) (request : SendRequest) :
    Exchange V :=
  match c.reaches request.endpoint with
  | some s' =>
    let q := e.queues s'
    e.setQueues s' { q with frames := q.frames ++ [request.data] }
  | none =>
    let tx := (e.parties s).zmqSender.sendTx
    { e with elsewhere := e.elsewhere ++ [(s, .queued tx request)] }

variable [DecidableEq τ]

/-- The actor of process `s` sends a message. -/
def say (c : Setting V) (e : Exchange V) (s : Side) (target : ActorRef)
    (msg : Message (UserMessage V)) (sender : Option ActorRef) : Exchange V :=
  let party := e.parties s
  let (o, registries) :=
    target.send c.json c.serde party.tables.registries msg sender
  let e := e.setParty s { party with tables := { party.tables with registries } }
  let e := { e with said := e.said ++ [msg] }
  match o with
  | .value effect => e.apply s effect
  | .panic _ => { e with panicked := true }

/-- One step. -/
def next (c : Setting V) (e : Exchange V) (hop : Hop V) : Option (Exchange V) :=
  if e.panicked then none
  else match hop with
  | .first msg =>
    if e.said.isEmpty then
      some (e.say c .a (.remoteRef c.target) msg (e.parties .a).context.selfRef)
    else none
  | .transmit s =>
    let q := e.queues s
    match q.requests with
    | [] => none
    | request :: rest =>
      let e := e.setQueues s { q with requests := rest }
      some ({ e with carried := e.carried + 1 }.carry c s request)
  | .receive s =>
    let q := e.queues s
    match q.frames with
    | [] => none
    | data :: rest =>
      let party := e.parties s
      let (o, tables) :=
        handleMessage c.json c.serde party.zmqSender party.tables [data]
      let e := (e.setQueues s { q with frames := rest }).setParty s
        { party with tables }
      let e := { e with heard := e.heard ++ [(s, o)] }
      match o with
      | .value effects => some (effects.foldl (·.apply s ·) e)
      | .panic _ => some { e with panicked := true }
  | .answer s msg =>
    let q := e.queues s
    match q.mailbox with
    | [] => none
    | envelope :: rest =>
      let party := e.parties s
      let (route, context) := (party.context.prepareForEnvelope envelope.sender
        envelope.replyChannel).reply
      let e := (e.setQueues s { q with mailbox := rest }).setParty s
        { party with context }
      match route with
      | .mailbox target self => some (e.say c s target msg self)
      | .channel _ | .dropped => some { e with said := e.said ++ [msg] }

variable {c : Setting V} {e : Exchange V} {s : Side}

/-- A message through a reference of the process itself, when it can be sent. -/
theorem say_remote {r : RemoteActorRef}
    (hsender : r.zmqSender = (e.parties s).zmqSender)
    {msg : Message (UserMessage V)} {sender : Option ActorRef} {request : SendRequest}
    (hsend : r.zmqSender.sendTo c.json c.serde (e.parties s).tables.registries
      r.endpoint r.name msg sender = (.value request, (e.parties s).tables.registries)) :
    e.say c s (.remoteRef r) msg sender =
      { e.setQueues s { e.queues s with
          requests := (e.queues s).requests ++ [request] } with
        said := e.said ++ [msg] } := by
  rw [hsender] at hsend
  simp only [say, ActorRef.send, hsender, hsend, Outcome.map_value, apply, setParty,
    setQueues, Function.update_eq_self, if_true]

/-- The receiver thread, when the frame does not make it panic. -/
theorem next_receive (hcalm : e.panicked = false) {data : ByteArray}
    {rest : List ByteArray} (hframes : (e.queues s).frames = data :: rest)
    {effects : List (Effect V)} {tables : Tables τ}
    (hhandle : handleMessage c.json c.serde (e.parties s).zmqSender
      (e.parties s).tables [data] = (.value effects, tables)) :
    e.next c (.receive s) = some (effects.foldl (·.apply s ·)
      { (e.setQueues s { e.queues s with frames := rest }).setParty s
          { e.parties s with tables } with
        heard := e.heard ++ [(s, .value effects)] }) := by
  simp only [next, hcalm, Bool.false_eq_true, if_false]
  split
  next hnil => simp [hnil] at hframes
  next data' rest' hcons =>
    obtain ⟨rfl, rfl⟩ := List.cons.inj (hframes.symm.trans hcons)
    simp only [hhandle]
    rfl

/-- The actor, when the envelope names a sender and is not from `fast_send`. -/
theorem next_answer (hcalm : e.panicked = false) {msg : Message (UserMessage V)}
    {target : ActorRef} {rest : List (Envelope (UserMessage V))}
    (hmailbox : (e.queues s).mailbox = .new msg (some target) :: rest)
    (reply : Message (UserMessage V)) :
    let context := (e.parties s).context.prepareForEnvelope (some target) none
    e.next c (.answer s reply) = some
      (((e.setQueues s { e.queues s with mailbox := rest }).setParty s
        { e.parties s with context }).say c s target reply context.selfRef) := by
  simp only [next, hcalm, Bool.false_eq_true, if_false]
  split
  next hnil => simp [hnil] at hmailbox
  next envelope rest' hcons =>
    obtain ⟨rfl, rfl⟩ := List.cons.inj (hmailbox.symm.trans hcons)
    rfl

/-! ## Counting the steps -/

/-- How many steps the exchange has made. -/
def hops (e : Exchange V) : Nat := e.said.length + e.carried + e.heard.length

omit [DecidableEq τ] in
@[simp] theorem hops_apply (e : Exchange V) (s : Side) (effect : Effect V) :
    (e.apply s effect).hops = e.hops := by
  unfold apply
  cases effect with
  | posted tx envelope => dsimp only; split <;> rfl
  | queued tx request => dsimp only; split <;> rfl
  | foreign target msg => rfl

omit [DecidableEq τ] in
theorem hops_foldl_apply (e : Exchange V) (s : Side) (effects : List (Effect V)) :
    (effects.foldl (·.apply s ·) e).hops = e.hops := by
  induction effects generalizing e with
  | nil => rfl
  | cons effect effects ih => rw [List.foldl_cons, ih, hops_apply]

omit [DecidableEq τ] in
@[simp] theorem hops_carry (c : Setting V) (e : Exchange V) (s : Side)
    (request : SendRequest) : (e.carry c s request).hops = e.hops := by
  unfold carry
  split <;> rfl

@[simp] theorem hops_say (c : Setting V) (e : Exchange V) (s : Side)
    (target : ActorRef) (msg : Message (UserMessage V)) (sender : Option ActorRef) :
    (e.say c s target msg sender).hops = e.hops + 1 := by
  unfold say
  dsimp only
  split
  · rw [hops_apply]
    simp [hops, setParty]
    omega
  · simp [hops, setParty]
    omega

theorem hops_next {hop : Hop V} {e' : Exchange V} (h : e.next c hop = some e') :
    e'.hops = e.hops + 1 := by
  unfold next at h
  split at h
  · simp at h
  · cases hop with
    | first msg =>
      simp only [Option.ite_none_right_eq_some, Option.some.injEq] at h
      rw [← h.2, hops_say]
    | transmit s =>
      dsimp only at h
      split at h
      · simp at h
      · rw [Option.some.injEq] at h
        rw [← h, hops_carry]
        simp [hops, setQueues]
        omega
    | receive s =>
      dsimp only at h
      split at h
      · simp at h
      · split at h
        · rw [Option.some.injEq] at h
          rw [← h, hops_foldl_apply]
          simp [hops, setQueues, setParty]
          omega
        · rw [Option.some.injEq] at h
          rw [← h]
          simp [hops, setQueues, setParty]
          omega
    | answer s msg =>
      dsimp only at h
      split at h
      · simp at h
      · split at h <;> rw [Option.some.injEq] at h <;> rw [← h]
        · rw [hops_say]
          rfl
        all_goals
          simp [hops, setQueues, setParty]
          omega

/-- The machine of the exchange between two given processes. -/
def machine (c : Setting V) (parties : Side → Party τ) :
    Machine (Exchange V) (Hop V) :=
  .ofNext (· = start parties) (next c)

end Exchange

end Actors
