import Actors.Group.State
import Actors.Lib.Machine

/-!
# The steps of a group

One atomic step for each point at which another thread can be scheduled.  The
labels (`Action`) name the thread that moves and what the environment chooses:
which call comes next, which messages are sent by whom through which
reference, what a handler replies, whether it panics, and in which order an
iteration over a hash map visits the members.

* `Group.mainStep` and `Group.mainLock` are the bodies of `start`,
  `shutdown`, `wait` and `end`.
* `Group.workerStep` is `worker_loop` with `dispatch_to_actor`.
* `Group.forwardRecv`, `forwardSend` and `forwardExit` are the forwarding
  thread of `create_group_actor_ref`.
* `Group.post` is the channel send of `LocalActorRef::send` and `fast_send`.
* `Group.reply`, `handlerReturn` and `handlerPanic` are what a handler does
  from the outside: it calls `ctx.reply`, and it returns or panics.  `reply`
  decides the route of the message; where that is a mailbox of this group, the
  channel send is a `send` step of the same worker.  The sender that a context
  holds is a clone of its reference, so the reference is still `live` then.

`group.lock()` of a mutex that is only held for the read of a flag or for one
`try_recv` is one step together with that read.  The receiver lock of the
drain loop and the members' locks stay held over several steps, so they are
part of the state.
-/

namespace Actors

open Concur

variable {μ : Type}

/-- The labels of the machine. -/
inductive Action (μ : Type) where
  | add (name : String)
  | getRef (name : String)
  | start
  | shutdown
  | wait
  | endCall
  /-- The next step of the method that is running. -/
  | main
  /-- The same, where the step is to lock a member: the iteration visits `m`
  next. -/
  | mainLock (m : Nat)
  | send (t : ThreadId) (r : Nat) (msg : Message μ) (sender : Option ActorRef)
  | fastSend (t : ThreadId) (r : Nat) (msg : Message μ)
      (sender : Option ActorRef)
  /-- The `fast_send` of thread `t` returns. -/
  | fastReturn (t : ThreadId)
  /-- The last clone of reference `r` is dropped. -/
  | dropRef (r : Nat)
  | forwardRecv (r : Nat)
  | forwardSend (r : Nat)
  | forwardExit (r : Nat)
  | worker (i : Nat)
  /-- The handler that runs in worker `i` calls `ctx.reply`. -/
  | reply (i : Nat) (msg : Message μ)
  | handlerReturn (i : Nat)
  | handlerPanic (i : Nat)
  deriving DecidableEq, Repr

namespace Group

/-! ## Threads, channels and locks -/

/-- The thread waits in a `fast_send`. -/
def blocked (g : Group μ) (t : ThreadId) : Bool :=
  g.callers.any fun c => c.1 = t

/-- The thread can run code of the application: the main thread between two
calls or in a hook, a worker in a handler. -/
def canSend (g : Group μ) : ThreadId → Bool
  | .client _ => true
  | .main =>
    match g.main with
    | .idle | .initHook _ _ | .endHook _ _ => true
    | _ => false
  | .worker i =>
    match g.workers[i]? with
    | some { pc := .process _ _ _, .. } => true
    | _ => false

/-- The envelope of a send, as it leaves thread `t` through the reference `r`
with the given name. -/
def letterOf (g : Group μ) (t : ThreadId) (r : Nat) (name : String)
    (msg : Message μ) (sender : Option ActorRef) (sync : Bool) : Letter μ :=
  { id := g.sent.length, author := t, via := r, addressee := name
    envelope :=
      if sync then Envelope.newSync msg sender g.sent.length
      else Envelope.new msg sender }

/-- The channel send of `LocalActorRef::send` (`sync := false`) and of
`LocalActorRef::fast_send` (`sync := true`, with a fresh reply channel). -/
def post (g : Group μ) (t : ThreadId) (r : Nat) (msg : Message μ)
    (sender : Option ActorRef) (sync : Bool) : Option (Group μ) :=
  match g.forwarders[r]? with
  | some f =>
    if f.live then
      let l := g.letterOf t r f.name msg sender sync
      some { g with
        forwarders := g.forwarders.set r { f with chan := f.chan ++ [l] }
        sent := g.sent ++ [l] }
    else none
  | none => none

/-- A letter with reply channel `c` is still on its way to a handler, or the
context of a member holds the channel.  Otherwise the last `Sender` of `c` is
gone. -/
def replySenderLive (g : Group μ) (c : ChannelId) : Bool :=
  g.forwarders.any (fun f =>
      (f.chan ++ f.hand.toList).any fun l =>
        l.envelope.replyChannel = some c) ||
    g.queue.any (fun env => env.letter.envelope.replyChannel = some c) ||
    g.workers.any (fun w =>
      w.pc.hand.any fun l => l.envelope.replyChannel = some c) ||
    g.members.any fun mem => mem.context.replyChannel = some c

/-- The guard of member `m` is dropped. -/
def unlockMember (g : Group μ) (m : Nat) : Group μ :=
  { g with members := g.members.modify m fun mem =>
      { mem with mutex := mem.mutex.unlock } }

/-- Worker `i`, whose record is `w`, goes to `pc`. -/
def setPc (g : Group μ) (i : Nat) (w : Worker μ) (pc : WorkerPc μ) : Group μ :=
  { g with workers := g.workers.set i { w with pc := pc } }

/-- The receiver guard of the drain loop is dropped. -/
def releaseReceiver (g : Group μ) (draining : Bool) : Group μ :=
  if draining then { g with receiver := g.receiver.unlock } else g

/-- A panic drops the receiver guard of the drain loop. -/
def poisonReceiver (g : Group μ) (draining : Bool) : Group μ :=
  if draining then { g with receiver := g.receiver.poison } else g

/-! ## The methods of the group -/

/-- `Group::add`. -/
def add (g : Group μ) (name : String) : Option (Group μ) :=
  if g.main = .idle ∧ g.blocked .main = false then
    let r := g.forwarders.length
    some { g with
      forwarders := g.forwarders ++ [Forwarder.new name]
      members := g.members ++
        [GroupMember.new (.localRef { sender := r, name })]
      actorsBuilder := g.actorsBuilder.insert name g.members.length
      actorRefs := g.actorRefs ++ [r]
      calls := g.calls ++ [.add name] }
  else none

/-- `Group::get_ref`.  It takes `&self`, so it can run while `shutdown` does,
but not while a method with `&mut self` does. -/
def getRef (g : Group μ) (name : String) : Option (Group μ) :=
  match g.main with
  | .idle | .shutdownSend _ false =>
    if g.hasRef name then
      some { g with forwarders := g.forwarders ++ [Forwarder.new name] }
    else some g
  | _ => none

/-- `Group::start`, up to the loop that initializes the members. -/
def startCall (g : Group μ) : Option (Group μ) :=
  if g.main = .idle ∧ g.blocked .main = false then
    some { g with
      actors := g.actorsBuilder
      actorsBuilder := ∅
      main := .startInit g.actorsBuilder.values
      calls := g.calls ++ [.start] }
  else none

/-- `Group::shutdown`, up to the loop that sends `Shutdown`. -/
def shutdownCall (g : Group μ) : Option (Group μ) :=
  if g.main = .idle ∧ g.blocked .main = false then
    some { g with
      main := .shutdownSend g.actorRefs false
      calls := g.calls ++ [.shutdown] }
  else none

/-- `Group::wait`, up to the loop that calls `end()` on the members. -/
def waitCall (g : Group μ) : Option (Group μ) :=
  if g.main = .idle ∧ g.blocked .main = false then
    some { g with
      main := .waitEnd g.actors.values
      calls := g.calls ++ [.wait] }
  else none

/-- `Group::end`: `shutdown`, then `wait`. -/
def endCall (g : Group μ) : Option (Group μ) :=
  if g.main = .idle ∧ g.blocked .main = false then
    some { g with
      main := .shutdownSend g.actorRefs true
      calls := g.calls ++ [.endCall]
      endMark := g.sent.length }
  else none

/-- The steps of the methods in which nothing is chosen. -/
def mainStep (g : Group μ) : Option (Group μ) :=
  if g.blocked .main then none else
  match g.main with
  | .startInit [] => some { g with main := .startSend g.actorRefs }
  | .initHook m todo =>
    some { g.unlockMember m with
      main := .startInit todo
      history := g.history ++ [(m, .initEnd)] }
  | .startSend (r :: rs) =>
    (g.post .main r .start none false).map fun g' =>
      { g' with main := .startSend rs }
  | .startSend [] => some { g with main := .startSpawn g.numWorkers }
  | .startSpawn (n + 1) =>
    some { g with
      workers := g.workers ++ [{ pc := .check, actors := g.actors }]
      handles := g.handles ++ [g.workers.length]
      main := .startSpawn n }
  | .startSpawn 0 => some { g with main := .idle }
  | .shutdownSend (r :: rs) thenWait =>
    (g.post .main r .shutdown none false).map fun g' =>
      { g' with main := .shutdownSend rs thenWait }
  | .shutdownSend [] thenWait =>
    some { g with
      running := false
      main := if thenWait then .waitEnd g.actors.values else .idle
      stopMark := g.sent.length }
  | .waitEnd [] => some { g with main := .waitJoin g.handles, handles := [] }
  | .endHook m todo =>
    some { g.unlockMember m with
      main := .waitEnd todo
      history := g.history ++ [(m, .endEnd)] }
  | .waitJoin (i :: is) =>
    match g.workers[i]? with
    | some w =>
      if w.pc.finished then some { g with main := .waitJoin is } else none
    | none => none
  | .waitJoin [] => some { g with main := .idle }
  | _ => none

/-- `actor_mutex.lock().unwrap()` in the loops of `start` and `wait`, and the
call of the hook.  `m` is the member that the iteration visits next. -/
def mainLock (g : Group μ) (m : Nat) : Option (Group μ) :=
  match g.members[m]?, g.main with
  | some mem, .startInit todo =>
    if m ∈ todo then
      match mem.mutex.lock .main with
      | .waits => none
      | .panics => some { g with main := .panicked }
      | .holds mutex =>
        some { g with
          members := g.members.set m { mem with mutex := mutex }
          main := .initHook m (todo.erase m)
          history := g.history ++ [(m, .initBegin)] }
    else none
  | some mem, .waitEnd todo =>
    if m ∈ todo then
      match mem.mutex.lock .main with
      | .waits => none
      | .panics => some { g with main := .panicked }
      | .holds mutex =>
        some { g with
          members := g.members.set m { mem with mutex := mutex }
          main := .endHook m (todo.erase m)
          history := g.history ++ [(m, .endBegin)] }
    else none
  | _, _ => none

/-! ## The forwarding threads -/

/-- `wrapper_rx.recv()` returns an envelope. -/
def forwardRecv (g : Group μ) (r : Nat) : Option (Group μ) :=
  match g.forwarders[r]? with
  | some f =>
    match f.chan, f.hand, f.exited with
    | l :: rest, none, false =>
      some { g with forwarders :=
        g.forwarders.set r { f with chan := rest, hand := some l } }
    | _, _, _ => none
  | none => none

/-- `group_sender.send(group_env)`.  The group owns the receiver, so the send
does not fail. -/
def forwardSend (g : Group μ) (r : Nat) : Option (Group μ) :=
  match g.forwarders[r]? with
  | some f =>
    match f.hand with
    | some l =>
      some { g with
        forwarders := g.forwarders.set r { f with hand := none }
        queue := g.queue ++ [{ destination := f.destName, letter := l }] }
    | none => none
  | none => none

/-- `wrapper_rx.recv()` fails: the channel is empty and every clone of the
reference is gone. -/
def forwardExit (g : Group μ) (r : Nat) : Option (Group μ) :=
  match g.forwarders[r]? with
  | some f =>
    if f.chan = [] ∧ f.hand = none ∧ f.live = false ∧ f.exited = false then
      some { g with forwarders := g.forwarders.set r { f with exited := true } }
    else none
  | none => none

/-- The last clone of a reference is dropped.  The group keeps a clone of each
reference that `add` returned. -/
def dropRef (g : Group μ) (r : Nat) : Option (Group μ) :=
  match g.forwarders[r]? with
  | some f =>
    if r ∈ g.actorRefs then none
    else some { g with forwarders := g.forwarders.set r { f with live := false } }
  | none => none

/-! ## The workers -/

/-- `dispatch_to_actor`, up to the call of `process_message`. -/
def dispatchToActor (g : Group μ) (i : Nat) (w : Worker μ) (draining : Bool)
    (env : GroupEnvelope μ) : Option (Group μ) :=
  match w.actors.lookup env.destination with
  | none =>
    some { (g.setPc i w (.after draining)).releaseReceiver draining with
      lost := g.lost ++ [env.letter] }
  | some m =>
    match g.members[m]? with
    | none => none
    | some mem =>
      match mem.mutex.lock (.worker i) with
      | .waits => none
      | .panics =>
        some { (g.setPc i w .panicked).poisonReceiver draining with
          lost := g.lost ++ [env.letter] }
      | .holds mutex =>
        let call := mem.dispatch m env.letter
        some { g.setPc i w (.process draining m env.letter) with
          members := g.members.set m { context := call.context, mutex }
          handed := g.handed ++ [call]
          history := g.history ++ [(m, .processBegin)] }

/-- One step of `worker_loop`. -/
def workerStep (g : Group μ) (i : Nat) : Option (Group μ) :=
  match g.workers[i]? with
  | none => none
  | some w =>
    match w.pc with
    | .check => some (g.setPc i w (if g.running then .recv else .drain))
    | .recv =>
      match g.receiver.lock (.worker i) with
      | .waits => none
      | .panics => some (g.setPc i w .panicked)
      | .holds _ =>
        match g.queue with
        | env :: rest =>
          some { g.setPc i w (.dispatch false env) with queue := rest }
        | [] => some (g.setPc i w .check)
    | .drain =>
      match g.receiver.lock (.worker i) with
      | .waits => none
      | .panics => some (g.setPc i w .panicked)
      | .holds receiver =>
        match g.queue with
        | env :: rest =>
          some { g.setPc i w (.dispatch true env) with queue := rest, receiver }
        | [] => some (g.setPc i w .exited)
    | .dispatch draining env => g.dispatchToActor i w draining env
    | _ => none

/-- The handler that runs in worker `i` calls `ctx.reply`.  A message for a reply
channel is in the ledger with this step.  One for a mailbox is sent in a `send` step of
the same worker. -/
def reply (g : Group μ) (i : Nat) (msg : Message μ) : Option (Group μ) :=
  match g.workers[i]? with
  | some { pc := .process _ m l, .. } =>
    match g.members[m]? with
    | some mem =>
      if g.blocked (.worker i) then none
      else some { g with
        members := g.members.set m { mem with context := mem.context.reply.2 }
        ledger := g.ledger.enter m l msg mem.context.reply.1 }
    | none => none
  | _ => none

/-- `process_message` returns. -/
def handlerReturn (g : Group μ) (i : Nat) : Option (Group μ) :=
  match g.workers[i]? with
  | some w =>
    match w.pc with
    | .process draining m _ =>
      if g.blocked (.worker i) then none
      else some {
        ((g.unlockMember m).setPc i w (.after draining)).releaseReceiver
          draining with
        history := g.history ++ [(m, .processEnd)] }
    | _ => none
  | none => none

/-- `process_message` panics.  The unwinding drops the guards that the worker
holds. -/
def handlerPanic (g : Group μ) (i : Nat) : Option (Group μ) :=
  match g.workers[i]? with
  | some w =>
    match w.pc with
    | .process draining m _ =>
      if g.blocked (.worker i) then none
      else some { (g.setPc i w .panicked).poisonReceiver draining with
        members := g.members.modify m fun mem =>
          { mem with mutex := mem.mutex.poison }
        history := g.history ++ [(m, .processEnd)] }
    | _ => none
  | none => none

/-! ## The machine -/

/-- The `fast_send` of thread `t` returns: with the message in its channel, or
with `None` when no `Sender` of the channel is left. -/
def fastReturn (g : Group μ) (t : ThreadId) : Option (Group μ) :=
  match g.callers.find? fun c => c.1 = t with
  | none => none
  | some (_, c) =>
    let callers := g.callers.filter fun c => c.1 ≠ t
    match g.ledger.carried c with
    | m :: _ =>
      some { g with callers, ledger := g.ledger.giveBack c (some m) }
    | [] =>
      if g.replySenderLive c then none
      else some { g with callers, ledger := g.ledger.giveBack c none }

/-- One step of the group. -/
def step (g : Group μ) : Action μ → Option (Group μ)
  | .add name => g.add name
  | .getRef name => g.getRef name
  | .start => g.startCall
  | .shutdown => g.shutdownCall
  | .wait => g.waitCall
  | .endCall => g.endCall
  | .main => g.mainStep
  | .mainLock m => g.mainLock m
  | .send t r msg sender =>
    if g.canSend t && !g.blocked t then g.post t r msg sender false else none
  | .fastSend t r msg sender =>
    if g.canSend t && !g.blocked t then
      (g.post t r msg sender true).map fun g' =>
        { g' with callers := g'.callers ++ [(t, g.sent.length)] }
    else none
  | .fastReturn t => g.fastReturn t
  | .dropRef r => g.dropRef r
  | .forwardRecv r => g.forwardRecv r
  | .forwardSend r => g.forwardSend r
  | .forwardExit r => g.forwardExit r
  | .worker i => g.workerStep i
  | .reply i msg => g.reply i msg
  | .handlerReturn i => g.handlerReturn i
  | .handlerPanic i => g.handlerPanic i

/-- A group with `n` workers, from `Group::new` on. -/
def machine (μ : Type) (n : Nat) : Machine (Group μ) (Action μ) :=
  Machine.ofNext (· = Group.new n) Group.step

/-- The state of a group with `n` workers after the labels `as`.  `none` when
one of them is not possible or not allowed. -/
def after (ok : Group μ → Action μ → Prop) [∀ g a, Decidable (ok g a)] (n : Nat)
    (as : List (Action μ)) : Option (Group μ) :=
  Machine.exec (Machine.guarded ok Group.step) (Group.new n) as

theorem reach_after (ok : Group μ → Action μ → Prop) [∀ g a, Decidable (ok g a)]
    (n : Nat) (as : List (Action μ)) (h : (after ok n as).isSome) :
    (machine μ n).Reach ok ((after ok n as).get h) := by
  have hstart : (machine μ n).Reach ok (Group.new n) := .start rfl
  exact Machine.reach_exec_get hstart as h

theorem run_after (ok : Group μ → Action μ → Prop) [∀ g a, Decidable (ok g a)]
    (n : Nat) (as : List (Action μ)) (h : (after ok n as).isSome) :
    (machine μ n).Run ok (Machine.trace Group.step (Group.new n) as)
      ((after ok n as).get h) := by
  have hstart : (machine μ n).start (Group.new n) := rfl
  exact Machine.run_exec_get hstart as h

/-- One member is added, and the group is started with one worker. -/
def startOne (μ : Type) : List (Action μ) :=
  [.add "a", .start, .mainLock 0, .main, .main, .main, .main, .main, .main]

end Group

end Actors
