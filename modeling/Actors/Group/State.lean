import Actors.Actor.Ledger
import Actors.Actor.Lifecycle
import Actors.Lib.HashMap
import Actors.Lib.Mutex

/-!
# The state of a group

The data of `src/group.rs`, with one program counter for each thread that the
group involves:

* the thread that calls the methods of the group (`MainPc`),
* the worker threads (`WorkerPc`),
* the forwarding threads, one for each reference that `add` or `get_ref` has
  returned (`Forwarder`).

A member is named by the number of the `add` call that made it, a reference
by the number of the `create_group_actor_ref` call that made it.

The fields of `Group` below the line in its definition record what has
happened.  No step reads them to decide what to do.
-/

namespace Actors

open Concur

/-- `GroupMember` under its mutex.  The boxed actor itself is not part of the
state: its hooks and its handler are steps of the machine. -/
structure GroupMember where
  context : ActorContext
  mutex : Mutex ThreadId
  deriving DecidableEq, Repr

/-- `GroupMember::new`. -/
def GroupMember.new (actorRef : ActorRef) : GroupMember :=
  { context := ActorContext.new.setSelfRef actorRef, mutex := {} }

/-- `GroupMember::dispatch`, up to the call of `process_message`.  `m` is the
number of the member. -/
def GroupMember.dispatch {μ : Type} (mem : GroupMember) (m : Nat)
    (l : Letter μ) : ProcessCall μ :=
  .prepared m mem.context l

/-- `GroupEnvelope`: an envelope with the name of its destination. -/
structure GroupEnvelope (μ : Type) where
  destination : String
  letter : Letter μ
  deriving DecidableEq, Repr

/-- The wrapper channel and the forwarding thread of one reference
(`create_group_actor_ref`). -/
structure Forwarder (μ : Type) where
  /-- The name on the reference. -/
  name : String
  /-- The destination that the thread writes on what it forwards. -/
  destName : String
  /-- Some clone of the reference is alive. -/
  live : Bool
  /-- The wrapper channel. -/
  chan : List (Letter μ)
  /-- The envelope between `wrapper_rx.recv()` and `group_sender.send()`. -/
  hand : Option (Letter μ)
  /-- The thread has left its loop. -/
  exited : Bool
  deriving DecidableEq, Repr

/-- `create_group_actor_ref`, without the reference that it returns. -/
def Forwarder.new {μ : Type} (name : String) : Forwarder μ :=
  { name, destName := name, live := true, chan := [], hand := none
    exited := false }

/-- Where a worker stands in `worker_loop`.  `draining` tells whether it got
its envelope in the drain loop, where it holds the receiver lock until the
envelope is dispatched. -/
inductive WorkerPc (μ : Type) where
  /-- At the head of the loop, before it reads `running`. -/
  | check
  /-- Before `receiver.lock()` in the normal path. -/
  | recv
  /-- Before `receiver.lock()` in the drain loop. -/
  | drain
  /-- In `dispatch_to_actor`, before it has the member's lock. -/
  | dispatch (draining : Bool) (env : GroupEnvelope μ)
  /-- In `process_message` of member `m`. -/
  | process (draining : Bool) (m : Nat) (letter : Letter μ)
  | exited
  | panicked
  deriving DecidableEq, Repr

/-- A worker thread: its program counter, and the map it was started with. -/
structure Worker (μ : Type) where
  pc : WorkerPc μ
  actors : HashMap String Nat

/-- Where the thread that calls the methods of the group stands.  The lists
are what is left of the iteration that it is in. -/
inductive MainPc where
  /-- Between two calls. -/
  | idle
  /-- `start`: these members are not initialized yet. -/
  | startInit (todo : List Nat)
  /-- `start`: in `init()` of member `m`. -/
  | initHook (m : Nat) (todo : List Nat)
  /-- `start`: `Start` goes out through these references. -/
  | startSend (todo : List Nat)
  /-- `start`: this many workers are still to be spawned. -/
  | startSpawn (left : Nat)
  /-- `shutdown`: `Shutdown` goes out through these references.  `thenWait`
  tells whether `end` made the call. -/
  | shutdownSend (todo : List Nat) (thenWait : Bool)
  /-- `wait`: these members have not had their `end()` yet. -/
  | waitEnd (todo : List Nat)
  /-- `wait`: in `end()` of member `m`. -/
  | endHook (m : Nat) (todo : List Nat)
  /-- `wait`: these workers are still to be joined. -/
  | waitJoin (todo : List Nat)
  | panicked
  deriving DecidableEq, Repr

/-- The calls that change a group. -/
inductive ApiCall where
  | add (name : String)
  | start
  | shutdown
  | wait
  | endCall
  deriving DecidableEq, Repr

/-- `Group`, its threads and its queue. -/
structure Group (μ : Type) where
  numWorkers : Nat
  main : MainPc
  /-- The shared queue. -/
  queue : List (GroupEnvelope μ)
  /-- The lock of its receiver. -/
  receiver : Mutex ThreadId
  actors : HashMap String Nat
  actorsBuilder : HashMap String Nat
  members : List GroupMember
  /-- The worker threads spawned so far. -/
  workers : List (Worker μ)
  /-- The join handles in `self.workers`. -/
  handles : List Nat
  actorRefs : List Nat
  running : Bool
  forwarders : List (Forwarder μ)
  /-- Threads that wait for the reply to a `fast_send`. -/
  callers : List (ThreadId × ChannelId)
  -- What has happened so far.
  sent : List (Letter μ)
  handed : List (ProcessCall μ)
  /-- Letters that were dropped: no such member, or the worker panicked. -/
  lost : List (Letter μ)
  history : History
  ledger : Ledger μ
  calls : List ApiCall
  /-- The number of letters sent when `end` was last called. -/
  endMark : Nat
  /-- The number of letters sent when `shutdown` last cleared `running`. -/
  stopMark : Nat

namespace Group

variable {μ : Type}

/-- `Group::new`. -/
def new (numWorkers : Nat) : Group μ :=
  { numWorkers, main := .idle, queue := [], receiver := {}, actors := ∅
    actorsBuilder := ∅, members := [], workers := [], handles := []
    actorRefs := [], running := true, forwarders := [], callers := []
    sent := [], handed := [], lost := [], history := [], ledger := {}
    calls := [], endMark := 0, stopMark := 0 }

/-- `Group::get_names`. -/
def getNames (g : Group μ) : List String := g.actorsBuilder.keys

/-- The test of `Group::get_ref`. -/
def hasRef (g : Group μ) (name : String) : Bool :=
  (g.actorsBuilder.lookup name).isSome || (g.actors.lookup name).isSome

end Group

/-- The member whose lock a worker holds. -/
def WorkerPc.inside {μ : Type} : WorkerPc μ → Option Nat
  | .process _ m _ => some m
  | _ => none

/-- The envelope in a worker's hand. -/
def WorkerPc.hand {μ : Type} : WorkerPc μ → Option (Letter μ)
  | .dispatch _ env => some env.letter
  | _ => none

/-- The letter that a worker has in hand or is handling. -/
def WorkerPc.letter {μ : Type} : WorkerPc μ → Option (Letter μ)
  | .dispatch _ env => some env.letter
  | .process _ _ l => some l
  | _ => none

/-- The worker thread has ended. -/
def WorkerPc.finished {μ : Type} : WorkerPc μ → Bool
  | .exited | .panicked => true
  | _ => false

/-- Where a worker goes on after a dispatch. -/
def WorkerPc.after {μ : Type} (draining : Bool) : WorkerPc μ :=
  if draining then .drain else .check

/-- The main thread is in `start`. -/
def MainPc.starting : MainPc → Bool
  | .startInit _ | .initHook _ _ | .startSend _ | .startSpawn _ => true
  | _ => false

/-- The member whose lock the main thread holds. -/
def MainPc.inside : MainPc → Option Nat
  | .initHook m _ | .endHook m _ => some m
  | _ => none

end Actors
