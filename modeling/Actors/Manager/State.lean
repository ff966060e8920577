import Actors.Actor.Runtime
import Actors.Lib.HashMap

/-!
# The state of a manager

The data of `src/manager.rs`.  An actor is named by the number of the `manage`
call that made it, and its mailbox by the same number.  `actors` lists all
runtimes ever made, those that the manager still owns (`runtimes`) and those
that were moved into a thread (`threads` holds the join handles).

`ThreadConfig` only sets affinity and priority of the threads, and
`register_cpp_lookup` concerns actors of another language; neither is part of
the state.

The fields of `Manager` below the line in its definition record what has
happened.  No step reads them to decide what to do.
-/

namespace Actors

open Concur

/-- Where the thread that calls the methods of the manager stands.  The lists
are what is left of the loop that it is in, and `inEnd` tells whether `end`
made the call. -/
inductive ManagerPc where
  /-- Between two calls. -/
  | idle
  /-- `init`: these runtimes are not started yet. -/
  | initSend (todo : List Nat)
  /-- `init`: `Start` was sent to `k`, and its thread is spawned next. -/
  | initSpawn (k : Nat) (todo : List Nat)
  /-- In `run`. -/
  | running
  /-- `shutdown`: `Shutdown` goes out to these actors. -/
  | shutdownSend (todo : List Nat) (inEnd : Bool)
  /-- `wait`: these threads are still to be joined. -/
  | join (todo : List Nat) (inEnd : Bool)
  deriving DecidableEq, Repr

/-- `end` has been called and has not returned. -/
def ManagerPc.ending : ManagerPc → Bool
  | .shutdownSend _ inEnd => inEnd
  | .join _ inEnd => inEnd
  | _ => false

/-- The calls that change a manager. -/
inductive ManagerCall where
  | manage (name : String)
  | init
  | shutdown
  | wait
  | endCall
  deriving DecidableEq, Repr

/-- `Manager`, its actors and their threads. -/
structure Manager (μ : Type) where
  main : ManagerPc
  actors : List (Runtime μ)
  registry : HashMap String Nat
  expandedRegistry : HashMap String Nat
  runtimes : List Nat
  threads : List Nat
  actorRefs : List Nat
  terminateFlag : Bool
  /-- Threads that wait for the reply to a `fast_send`. -/
  callers : List (ThreadId × ChannelId)
  -- What has happened so far.
  sent : List (Letter μ)
  history : History
  ledger : Ledger μ
  calls : List ManagerCall

namespace Manager

variable {μ : Type}

/-- `Manager::new`. -/
def new : Manager μ :=
  { main := .idle, actors := [], registry := ∅, expandedRegistry := ∅
    runtimes := [], threads := [], actorRefs := [], terminateFlag := false
    callers := [], sent := [], history := [], ledger := {}, calls := [] }

/-- `Manager::get_names`. -/
def getNames (s : Manager μ) : List String := s.expandedRegistry.keys

end Manager

end Actors
