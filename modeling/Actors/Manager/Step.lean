import Actors.Lib.Machine
import Actors.Manager.State

/-!
# The steps of a manager

One atomic step for each point at which another thread can be scheduled, as
for a group.  The labels (`ManagerAction`) name the thread that moves and what
the environment chooses; `ManagerAction.mover` is that thread.

`stop` is `ActorRuntime::stop`.  It is a method of the runtime, and the manager
neither calls it nor hands out a runtime or its `running` flag, so a program
that only uses the manager never takes that step.

A reply to a mailbox is two steps of the thread of the actor: `reply`, which decides
the route, and then the `send` that the route names.
-/

namespace Actors

open Concur

variable {μ : Type}

/-- The labels of the machine. -/
inductive ManagerAction (μ : Type) where
  | manage (name : String)
  | getRef (name : String)
  | init
  | run
  | shutdown
  | wait
  | endCall
  /-- The next step of the method that is running. -/
  | main
  /-- `ManagerHandle::terminate`. -/
  | terminate (t : ThreadId)
  | send (t : ThreadId) (k : Nat) (msg : Message μ) (sender : Option ActorRef)
  | fastSend (t : ThreadId) (k : Nat) (msg : Message μ)
      (sender : Option ActorRef)
  /-- The `fast_send` of thread `t` returns. -/
  | fastReturn (t : ThreadId)
  /-- The last reference to actor `k` that the application holds is dropped. -/
  | dropRefs (k : Nat)
  /-- The next step of `ActorRuntime::run` of actor `k`. -/
  | actor (k : Nat)
  /-- The handler of actor `k` calls `ctx.reply`. -/
  | reply (k : Nat) (msg : Message μ)
  /-- The hook or the handler of actor `k` returns. -/
  | codeReturn (k : Nat)
  /-- The hook or the handler of actor `k` panics. -/
  | codePanic (k : Nat)
  | stop (k : Nat)
  deriving DecidableEq, Repr

/-- The thread that takes the step. -/
def ManagerAction.mover : ManagerAction μ → ThreadId
  | .manage _ | .getRef _ | .init | .run | .shutdown | .wait | .endCall
  | .main => .main
  | .terminate t | .send t _ _ _ | .fastSend t _ _ _ | .fastReturn t => t
  | .actor k | .reply k _ | .codeReturn k | .codePanic k => .worker k
  | .dropRefs _ | .stop _ => .client 0

namespace Manager

/-! ## Threads and channels -/

/-- The thread waits in a `fast_send`. -/
def blocked (s : Manager μ) (t : ThreadId) : Bool :=
  s.callers.any fun c => c.1 = t

/-- The thread can run code of the application: the main thread between two
calls, an actor in a hook or in its handler. -/
def canSend (s : Manager μ) : ThreadId → Bool
  | .client _ => true
  | .main => s.main = .idle
  | .worker k => (s.actors[k]?).any fun a => a.pc.inCode

/-- The thread has a reference to actor `k`: the application holds one, or it
is the actor's own `ctx.self_ref`.  The holder `application` stands for every clone
that is not the manager's or a runtime's: those in the fields of actors, in the
messages and envelopes under way, and the `ctx.sender` that a reply goes to. -/
def canReach (s : Manager μ) (t : ThreadId) (k : Nat) : Bool :=
  t = .worker k || (s.actors[k]?).any fun a => a.senders.contains .application

/-- The envelope of a send to actor `k`, as it leaves thread `t`. -/
def letterOf (s : Manager μ) (t : ThreadId) (k : Nat) (name : String)
    (msg : Message μ) (sender : Option ActorRef) (sync : Bool) : Letter μ :=
  { id := s.sent.length, author := t, via := k, addressee := name
    envelope :=
      if sync then Envelope.newSync msg sender s.sent.length
      else Envelope.new msg sender }

/-- The channel send of `LocalActorRef::send` (`sync := false`) and of
`LocalActorRef::fast_send` (`sync := true`, with a fresh reply channel).  When
the thread of the actor has ended there is no receiver, and the message is
dropped. -/
def post (s : Manager μ) (t : ThreadId) (k : Nat) (msg : Message μ)
    (sender : Option ActorRef) (sync : Bool) : Option (Manager μ) :=
  match s.actors[k]? with
  | none => none
  | some a =>
    if a.pc.finished then some s
    else
      let l := s.letterOf t k a.name msg sender sync
      some { s with
        actors := s.actors.set k (a.accept l)
        sent := s.sent ++ [l] }

/-- A letter with reply channel `c` is in the mailbox of an actor that has not
ended, or the context of such an actor holds the channel. -/
def replySenderLive (s : Manager μ) (c : ChannelId) : Bool :=
  s.actors.any fun a => !a.pc.finished &&
    (a.mailbox.any (fun l => l.envelope.replyChannel = some c) ||
      a.context.replyChannel = some c)

/-- What an actor's thread has done: its runtime now, and the events. -/
def putBack (s : Manager μ) (k : Nat) :
    Option (Runtime μ × List LifeEvent) → Option (Manager μ)
  | some (a, events) => some { s with
      actors := s.actors.set k a
      history := s.history ++ events.map (Prod.mk k) }
  | none => none

/-! ## The methods of the manager -/

/-- The clones of a reference that the manager keeps in its registries go when
another actor is registered under the same name. -/
def dropRegistered (a : Runtime μ) : Runtime μ :=
  { a with senders := a.senders.filter fun h =>
      h ≠ .registry ∧ h ≠ .expandedRegistry }

/-- `Manager::manage`. -/
def manage (s : Manager μ) (name : String) : Option (Manager μ) :=
  if s.main = .idle ∧ s.blocked .main = false then
    let k := s.actors.length
    let runtime := Runtime.new k name
    let old := match s.registry.lookup name with
      | some j => s.actors.modify j dropRegistered
      | none => s.actors
    some { s with
      actors := old ++ [{ runtime with senders := runtime.senders ++
        [.registry, .expandedRegistry, .actorRefs, .application] }]
      registry := s.registry.insert name k
      expandedRegistry := s.expandedRegistry.insert name k
      actorRefs := s.actorRefs ++ [k]
      runtimes := s.runtimes ++ [k]
      calls := s.calls ++ [.manage name] }
  else none

/-- `Manager::get_ref`, where it finds a local actor: the application gets a
clone of the reference. -/
def getRef (s : Manager μ) (name : String) : Option (Manager μ) :=
  if s.main = .idle ∧ s.blocked .main = false then
    match s.expandedRegistry.lookup name with
    | some k => some { s with actors := s.actors.modify k fun a =>
        { a with senders := a.senders ++ [.application] } }
    | none => some s
  else none

/-- `Manager::init`, up to its loop. -/
def init (s : Manager μ) : Option (Manager μ) :=
  if s.main = .idle ∧ s.blocked .main = false then
    some { s with
      runtimes := [], main := .initSend s.runtimes
      calls := s.calls ++ [.init] }
  else none

/-- `Manager::run`, up to its loop. -/
def run (s : Manager μ) : Option (Manager μ) :=
  if s.main = .idle ∧ s.blocked .main = false then
    some { s with main := .running }
  else none

/-- `Manager::shutdown`, up to its loop. -/
def shutdown (s : Manager μ) : Option (Manager μ) :=
  if s.main = .idle ∧ s.blocked .main = false then
    some { s with
      main := .shutdownSend s.actorRefs false
      calls := s.calls ++ [.shutdown] }
  else none

/-- `Manager::wait`, up to its loop. -/
def wait (s : Manager μ) : Option (Manager μ) :=
  if s.main = .idle ∧ s.blocked .main = false then
    some { s with
      threads := [], main := .join s.threads false
      calls := s.calls ++ [.wait] }
  else none

/-- `Manager::end`: `shutdown`, then `wait`. -/
def endCall (s : Manager μ) : Option (Manager μ) :=
  if s.main = .idle ∧ s.blocked .main = false then
    some { s with
      main := .shutdownSend s.actorRefs true
      calls := s.calls ++ [.endCall] }
  else none

/-- The steps of the methods. -/
def mainStep (s : Manager μ) : Option (Manager μ) :=
  match s.main with
  | .idle => none
  | .initSend (k :: todo) =>
    (s.post .main k .start none false).map fun s' =>
      { s' with main := .initSpawn k todo }
  | .initSend [] => some { s with main := .idle }
  -- `spawn_with_config`: the runtime moves into the thread.
  | .initSpawn k todo =>
    some { s with
      actors := s.actors.modify k fun a => { a with pc := .spawned }
      threads := s.threads ++ [k]
      main := .initSend todo }
  | .running =>
    if s.terminateFlag then some { s with main := .idle } else some s
  | .shutdownSend (k :: todo) inEnd =>
    (s.post .main k .shutdown none false).map fun s' =>
      { s' with main := .shutdownSend todo inEnd }
  | .shutdownSend [] true =>
    some { s with threads := [], main := .join s.threads true }
  | .shutdownSend [] false => some { s with main := .idle }
  | .join (k :: todo) inEnd =>
    match s.actors[k]? with
    | some a =>
      if a.pc.finished then some { s with main := .join todo inEnd } else none
    | none => none
  | .join [] _ => some { s with main := .idle }

/-! ## The threads of the actors -/

/-- The next step of `ActorRuntime::run`. -/
def actorStep (s : Manager μ) (k : Nat) : Option (Manager μ) :=
  match s.actors[k]? with
  | some a => s.putBack k (a.runStep k)
  | none => none

/-- A hook or `process_message` returns. -/
def codeReturn (s : Manager μ) (k : Nat) : Option (Manager μ) :=
  match s.actors[k]? with
  | some a =>
    if s.blocked (.worker k) then none else s.putBack k a.codeReturn
  | none => none

/-- A hook or `process_message` panics. -/
def codePanic (s : Manager μ) (k : Nat) : Option (Manager μ) :=
  match s.actors[k]? with
  | some a =>
    if s.blocked (.worker k) then none
    else a.codePanic.map fun a' => { s with actors := s.actors.set k a' }
  | none => none

/-- The handler of actor `k` calls `ctx.reply`.  A message for a reply channel is in
the ledger with this step.  One for a mailbox is sent in a `send` step of the same
thread. -/
def reply (s : Manager μ) (k : Nat) (msg : Message μ) : Option (Manager μ) :=
  match s.actors[k]? with
  | some a =>
    match a.pc with
    | .process l =>
      if s.blocked (.worker k) then none
      else some { s with
        actors := s.actors.set k a.reply.2
        ledger := s.ledger.enter k l msg a.reply.1 }
    | _ => none
  | none => none

/-! ## The machine -/

/-- The `fast_send` of thread `t` returns: with the message in its channel, or
with `None` when no `Sender` of the channel is left. -/
def fastReturn (s : Manager μ) (t : ThreadId) : Option (Manager μ) :=
  match s.callers.find? fun c => c.1 = t with
  | none => none
  | some (_, c) =>
    let callers := s.callers.filter fun c => c.1 ≠ t
    match s.ledger.carried c with
    | m :: _ =>
      some { s with callers, ledger := s.ledger.giveBack c (some m) }
    | [] =>
      if s.replySenderLive c then none
      else some { s with callers, ledger := s.ledger.giveBack c none }

/-- One step of the manager. -/
def step (s : Manager μ) : ManagerAction μ → Option (Manager μ)
  | .manage name => s.manage name
  | .getRef name => s.getRef name
  | .init => s.init
  | .run => s.run
  | .shutdown => s.shutdown
  | .wait => s.wait
  | .endCall => s.endCall
  | .main => s.mainStep
  | .terminate t =>
    if s.canSend t && !s.blocked t then some { s with terminateFlag := true }
    else none
  | .send t k msg sender =>
    if s.canSend t && !s.blocked t && s.canReach t k then
      s.post t k msg sender false
    else none
  | .fastSend t k msg sender =>
    if s.canSend t && !s.blocked t && s.canReach t k then
      (s.post t k msg sender true).map fun s' =>
        -- A refused envelope makes `fast_send` return at once.
        if s'.sent.length = s.sent.length then s'
        else { s' with callers := s'.callers ++ [(t, s.sent.length)] }
    else none
  | .fastReturn t => s.fastReturn t
  | .dropRefs k => some { s with actors := s.actors.modify k fun a =>
      { a with senders := a.senders.filter fun h => h ≠ .application } }
  | .actor k => s.actorStep k
  | .reply k msg => s.reply k msg
  | .codeReturn k => s.codeReturn k
  | .codePanic k => s.codePanic k
  | .stop k => some { s with actors := s.actors.modify k Runtime.stop }

/-- A manager, from `Manager::new` on. -/
def machine (μ : Type) : Machine (Manager μ) (ManagerAction μ) :=
  Machine.ofNext (· = Manager.new) Manager.step

/-- The state of a manager after the labels `as`.  `none` when one of them is
not possible or not allowed. -/
def after (ok : Manager μ → ManagerAction μ → Prop)
    [∀ s b, Decidable (ok s b)] (as : List (ManagerAction μ)) :
    Option (Manager μ) :=
  Machine.exec (Machine.guarded ok Manager.step) Manager.new as

theorem reach_after (ok : Manager μ → ManagerAction μ → Prop)
    [∀ s b, Decidable (ok s b)] (as : List (ManagerAction μ))
    (h : (after ok as).isSome) :
    (machine μ).Reach ok ((after ok as).get h) := by
  have hstart : (machine μ).Reach ok (Manager.new : Manager μ) := .start rfl
  exact Machine.reach_exec_get hstart as h

end Manager

end Actors
