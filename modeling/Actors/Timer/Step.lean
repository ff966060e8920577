import Actors.Actor.Runtime
import Actors.Lib.Machine

/-!
# Timers

`src/timer.rs`.  A `Timer` is a flag that it shares with a thread of its own.  The
thread sleeps, reads the flag and sends a `Timeout`; these are three steps, and any
other thread can move between two of them.

* `TimerSystem.timerStep` is the thread that `Timer::once` or `Timer::periodic`
  spawns (`TimerPc` is its place in the closure).
* `Timer::cancel` is the store of the flag (`cancelStore`) and the return of the
  call (`cancelReturn`).  Any number of threads can be in it at a time.
* `Drop::drop` is a call of `cancel` and then `join` (`DropPc`).  It has the timer
  for itself, so no other call can be under way.
* A local target is a `Runtime`, the actor's thread is `.worker 0`, and its hooks
  and its handler may call `cancel` and drop the timer like any other thread.

The fields `cancelMark` and `dropMark` record what has happened.  No step reads
them.
-/

namespace Actors

open Concur

variable {μ : Type}

inductive TimerKind where
  /-- `Timer::once`. -/
  | once
  /-- `Timer::periodic`. -/
  | periodic
  deriving DecidableEq, Repr

/-- Where the thread of a timer stands. -/
inductive TimerPc where
  /-- At the head of the `while` loop, before it reads the flag. -/
  | check
  /-- In `thread::sleep`. -/
  | sleep
  /-- After the sleep, before it reads the flag. -/
  | test
  /-- It has read `true`, and `actor.send` comes next. -/
  | send
  | done
  deriving DecidableEq, Repr

/-- Where the thread begins. -/
def TimerKind.begin : TimerKind → TimerPc
  | .once => .sleep
  | .periodic => .check

/-- Where the thread goes on after the `if`. -/
def TimerKind.next : TimerKind → TimerPc
  | .once => .done
  | .periodic => .check

/-- Where a thread stands in `Drop::drop`. -/
inductive DropPc where
  /-- Nobody has dropped the timer. -/
  | owned
  /-- Before the store of `cancel`. -/
  | called (t : ThreadId)
  /-- After the store, before `cancel` returns. -/
  | stored (t : ThreadId)
  /-- In `handle.join()`. -/
  | joining (t : ThreadId)
  | returned
  deriving DecidableEq, Repr

/-- The thread that is in `drop`. -/
def DropPc.caller : DropPc → Option ThreadId
  | .called t | .stored t | .joining t => some t
  | .owned | .returned => none

/-- The arguments of `Timer::once` and `Timer::periodic`.  How long the thread
sleeps does not matter. -/
structure TimerConfig where
  kind : TimerKind
  target : ActorRef
  id : UInt64

/-- `Timeout::new`, in the envelope of `ActorRef::send`. -/
def TimerConfig.envelope (c : TimerConfig) : Envelope μ := .new (.timeout c.id) none

/-- A timer, its thread, the threads that use it, and a local target. -/
structure TimerSystem (μ : Type) where
  running : Bool
  pc : TimerPc
  /-- How many sleeps the thread has completed. -/
  sleeps : Nat
  /-- Every `Timeout` that was sent so far. -/
  sent : List (Envelope μ)
  /-- The threads that are in `cancel`, after the store. -/
  cancelling : List ThreadId
  drop : DropPc
  /-- The target, when it is a local actor. -/
  actor : Runtime μ
  /-- How many `Timeout`s were sent when `cancel` first returned. -/
  cancelMark : Option Nat
  /-- How many were sent when `drop` returned. -/
  dropMark : Option Nat

/-- The labels of the machine. -/
inductive TimerAction (μ : Type) where
  /-- The thread of the timer.  `panics` tells whether a send to an actor that is
  not local panics. -/
  | timer (panics : Bool)
  | cancelStore (t : ThreadId)
  | cancelReturn (t : ThreadId)
  | dropCall (t : ThreadId)
  | dropStore
  | dropCancelReturn
  | join
  /-- Another thread sends to the target. -/
  | deliver (l : Letter μ)
  /-- A step of `ActorRuntime::run`. -/
  | actor
  | codeReturn
  | codePanic
  | actorStop

namespace TimerSystem

/-- After `Timer::once` or `Timer::periodic`. -/
def start (c : TimerConfig) (actor : Runtime μ) : TimerSystem μ :=
  { running := true, pc := c.kind.begin, sleeps := 0, sent := [], cancelling := []
    drop := .owned, actor, cancelMark := none, dropMark := none }

/-- The thread can call a method of the timer: it is the target's own thread in a
hook or in its handler, or any other thread. -/
def canCall (s : TimerSystem μ) (t : ThreadId) : Bool :=
  t ≠ .worker 0 || s.actor.pc.inCode

/-- The target's own thread is in a method of the timer. -/
def inTimer (s : TimerSystem μ) : Bool :=
  .worker 0 ∈ s.cancelling || s.drop.caller = some (.worker 0)

/-- `cancel` has returned. -/
def markCancel (s : TimerSystem μ) : TimerSystem μ :=
  { s with cancelMark := some (s.cancelMark.getD s.sent.length) }

/-- `actor.send(Box::new(Timeout::new(id)), None)`.  `LocalActorRef::send` ignores
an error of the channel. -/
def sendTimeout (c : TimerConfig) (s : TimerSystem μ) (panics : Bool) :
    TimerSystem μ :=
  match c.target with
  | .localRef r =>
    { s with
      pc := c.kind.next, sent := s.sent ++ [c.envelope]
      actor := s.actor.deliver
        { id := s.sent.length, author := .client 0, via := 0, addressee := r.name
          envelope := c.envelope } }
  | _ =>
    if panics then { s with pc := .done }
    else { s with pc := c.kind.next, sent := s.sent ++ [c.envelope] }

/-- The next step of the thread of the timer. -/
def timerStep (c : TimerConfig) (s : TimerSystem μ) (panics : Bool) :
    Option (TimerSystem μ) :=
  match s.pc with
  | .check => some { s with pc := if s.running then .sleep else .done }
  | .sleep => some { s with pc := .test, sleeps := s.sleeps + 1 }
  | .test => some { s with pc := if s.running then .send else c.kind.next }
  | .send => some (s.sendTimeout c panics)
  | .done => none

/-- `self.cancel()` in `drop`, and `join`. -/
def dropStep (s : TimerSystem μ) : TimerAction μ → Option (TimerSystem μ)
  | .dropStore =>
    match s.drop with
    | .called t => some { s with running := false, drop := .stored t }
    | _ => none
  | .dropCancelReturn =>
    match s.drop with
    | .stored t => some { s.markCancel with drop := .joining t }
    | _ => none
  | .join =>
    match s.drop with
    | .joining _ =>
      if s.pc = .done then
        some { s with drop := .returned, dropMark := some s.sent.length }
      else none
    | _ => none
  | _ => none

/-- A step of the target's thread. -/
def actorStep (s : TimerSystem μ) : TimerAction μ → Option (TimerSystem μ)
  | .actor => (s.actor.runStep 0).map fun x => { s with actor := x.1 }
  | .codeReturn =>
    if s.inTimer then none
    else s.actor.codeReturn.map fun x => { s with actor := x.1 }
  | .codePanic =>
    if s.inTimer then none
    else s.actor.codePanic.map fun actor => { s with actor }
  | _ => none

/-- One step. -/
def step (c : TimerConfig) (s : TimerSystem μ) :
    TimerAction μ → Option (TimerSystem μ)
  | .timer panics => s.timerStep c panics
  | .cancelStore t =>
    if s.drop = .owned ∧ t ∉ s.cancelling ∧ s.canCall t then
      some { s with running := false, cancelling := s.cancelling ++ [t] }
    else none
  | .cancelReturn t =>
    if t ∈ s.cancelling then
      some { s.markCancel with cancelling := s.cancelling.erase t }
    else none
  | .dropCall t =>
    if s.drop = .owned ∧ s.cancelling = [] ∧ s.canCall t then
      some { s with drop := .called t }
    else none
  | .dropStore => s.dropStep .dropStore
  | .dropCancelReturn => s.dropStep .dropCancelReturn
  | .join => s.dropStep .join
  | .deliver l => some { s with actor := s.actor.deliver l }
  | .actor => s.actorStep .actor
  | .codeReturn => s.actorStep .codeReturn
  | .codePanic => s.actorStep .codePanic
  | .actorStop => some { s with actor := s.actor.stop }

/-- A timer, from its creation on.  The target may be in any state. -/
def machine (μ : Type) (c : TimerConfig) : Machine (TimerSystem μ) (TimerAction μ) :=
  .ofNext (fun s => ∃ actor, s = start c actor) (step c)

/-- The state after the labels `as`.  `none` when one of them is not possible or
not allowed. -/
def after (ok : TimerSystem μ → TimerAction μ → Prop) [∀ s a, Decidable (ok s a)]
    (c : TimerConfig) (actor : Runtime μ) (as : List (TimerAction μ)) :
    Option (TimerSystem μ) :=
  Machine.exec (Machine.guarded ok (step c)) (start c actor) as

theorem reach_after (ok : TimerSystem μ → TimerAction μ → Prop)
    [∀ s a, Decidable (ok s a)] (c : TimerConfig) (actor : Runtime μ)
    (as : List (TimerAction μ)) (h : (after ok c actor as).isSome) :
    (machine μ c).Reach ok ((after ok c actor as).get h) := by
  have hstart : (machine μ c).Reach ok (start c actor) := .start ⟨actor, rfl⟩
  exact Machine.reach_exec_get hstart as h

theorem run_after (ok : TimerSystem μ → TimerAction μ → Prop)
    [∀ s a, Decidable (ok s a)] (c : TimerConfig) (actor : Runtime μ)
    (as : List (TimerAction μ)) (h : (after ok c actor as).isSome) :
    (machine μ c).Run ok (Machine.trace (step c) (start c actor) as)
      ((after ok c actor as).get h) := by
  have hstart : (machine μ c).start (start c actor) := ⟨actor, rfl⟩
  exact Machine.run_exec_get hstart as h

end TimerSystem

end Actors
