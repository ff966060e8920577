import Actors.Manager.Step

/-!
# Programs

A program written with the framework: the code of its actors, and the calls of
its main function.  The state of an actor and what `process_message` does with
it are parameters of the manager's machine, which lets a handler do anything.
Here they are given: a handler is a function of the state and of the message,
and what it does with the framework is a list of commands.

The commands are `send`, `reply` and `terminate`.  So these are the programs whose
handlers do not call `fast_send`; their hooks `init()` and `end()` are empty, and
nothing in them panics.

`App.step` runs a program on `Manager.step`.  Its label is the thread that
moves, so nothing is left open but the schedule.  The commands of a handler come
one by one, and other threads may move between them.
-/

namespace Actors

open Concur

variable {μ σ α : Type}

/-! ## The code of an actor -/

/-- What a handler does with the framework. -/
inductive Command (μ : Type) where
  /-- `actor_ref.send` to actor `k`, with `ctx.self_ref()` as the sender when
  `signed`, and with `None` otherwise. -/
  | send (k : Nat) (msg : Message μ) (signed : Bool)
  /-- `ctx.reply`. -/
  | reply (msg : Message μ)
  /-- `ManagerHandle::terminate`. -/
  | terminate
  deriving DecidableEq, Repr

/-- `process_message`: the state of the actor afterwards, and the commands. -/
abbrev Handler (μ σ : Type) := σ → Message μ → σ × List (Command μ)

/-- One arm of `handle_messages!`: `downcast_ref` to the type of the arm, and
then its handler. -/
abbrev Arm (μ σ : Type) := Message μ → Option (σ → σ × List (Command μ))

/-- The arm of the type that `downcast` finds. -/
def Arm.of (downcast : Message μ → Option α)
    (handler : σ → α → σ × List (Command μ)) : Arm μ σ :=
  fun msg => (downcast msg).map fun typed s => handler s typed

/-- `dispatch_message`, as `handle_messages!` generates it. -/
def dispatchMessage : List (Arm μ σ) → σ → Message μ →
    (σ × List (Command μ)) × Bool
  | [], s, _ => ((s, []), false)
  | arm :: arms, s, msg =>
    match arm msg with
    | some handler => (handler s, true)
    | none => dispatchMessage arms s msg

/-- `handle_messages!`. -/
def handleMessages (arms : List (Arm μ σ)) : Handler μ σ :=
  fun s msg => (dispatchMessage arms s msg).1

/-- `downcast_ref::<Start>`. -/
def Message.asStart : Message μ → Option Unit
  | .start => some ()
  | _ => none

/-- `downcast_ref` to a type of the application. -/
def Message.asUser (downcast : μ → Option α) : Message μ → Option α
  | .user m => downcast m
  | _ => none

/-- A message that no arm is for changes nothing. -/
theorem dispatchMessage_of_none {arms : List (Arm μ σ)} {msg : Message μ}
    (h : ∀ arm ∈ arms, arm msg = none) (s : σ) :
    dispatchMessage arms s msg = ((s, []), false) := by
  induction arms with
  | nil => rfl
  | cons arm arms ih =>
    rw [dispatchMessage, h arm (List.mem_cons_self ..)]
    exact ih fun arm' hmem => h arm' (List.mem_cons_of_mem _ hmem)

/-- A message that one arm is for goes to that arm, wherever it stands. -/
theorem dispatchMessage_of_some {arms : List (Arm μ σ)} {arm : Arm μ σ}
    {msg : Message μ} {handler : σ → σ × List (Command μ)} (hmem : arm ∈ arms)
    (hsome : arm msg = some handler)
    (honly : ∀ arm' ∈ arms, arm' msg ≠ none → arm' = arm) (s : σ) :
    dispatchMessage arms s msg = (handler s, true) := by
  induction arms with
  | nil => simp at hmem
  | cons first arms ih =>
    by_cases hfirst : first msg = none
    · have hne : arm ≠ first := by
        rintro rfl
        rw [hsome] at hfirst
        simp at hfirst
      rw [dispatchMessage, hfirst]
      exact ih ((List.mem_cons.mp hmem).resolve_left hne)
        fun arm' h' => honly arm' (List.mem_cons_of_mem _ h')
    · obtain rfl := honly first (List.mem_cons_self ..) hfirst
      rw [dispatchMessage, hsome]

/-! ## The state of a program -/

/-- An actor as it is passed to `manage`. -/
structure ActorCode (μ σ : Type) where
  initial : σ
  process : Handler μ σ

/-- `Box<dyn Actor>`: an actor of type `α` among actors of other types. -/
def ActorCode.boxed (inject : α → σ) (project : σ → Option α)
    (code : ActorCode μ α) : ActorCode μ σ :=
  { initial := inject code.initial
    process := fun s msg =>
      match project s with
      | some a => (inject (code.process a msg).1, (code.process a msg).2)
      | none => (s, []) }

/-- A call in the main function. -/
inductive MainCall (μ σ : Type) where
  | manage (name : String) (code : ActorCode μ σ)
  | init
  | run
  | shutdown
  | wait
  | endCall
  /-- The main function sends a message of the application to actor `k`. -/
  | send (k : Nat) (m : μ)

/-- An actor: its code, its state, and what is left to do of the message that
it handles. -/
structure ActorState (μ σ : Type) where
  code : ActorCode μ σ
  state : σ
  todo : List (Command μ)

/-- What an actor did that no actor sees. -/
inductive Mark where
  /-- It called `terminate`. -/
  | terminated
  /-- It replied, and there was no local mailbox to reply to. -/
  | dropped
  deriving DecidableEq, Repr

/-- A program that runs. -/
structure App (μ σ : Type) where
  manager : Manager μ
  /-- What the main function has still to call. -/
  script : List (MainCall μ σ)
  cells : List (ActorState μ σ)
  -- What has happened so far.
  marks : List (Nat × Mark)

namespace ActorState

/-- The actor before its first message. -/
def new (code : ActorCode μ σ) : ActorState μ σ :=
  { code, state := code.initial, todo := [] }

/-- `process_message` is called. -/
def handle (c : ActorState μ σ) (msg : Message μ) : ActorState μ σ :=
  { c with
    state := (c.code.process c.state msg).1
    todo := (c.code.process c.state msg).2 }

end ActorState

/-- The step of the manager that a call begins with. -/
def MainCall.label : MainCall μ σ → ManagerAction μ
  | .manage name _ => .manage name
  | .init => .init
  | .run => .run
  | .shutdown => .shutdown
  | .wait => .wait
  | .endCall => .endCall
  | .send k m => .send .main k (.user m) none

/-- The actor that a call makes. -/
def MainCall.made : MainCall μ σ → Option (ActorCode μ σ)
  | .manage _ code => some code
  | _ => none

/-- The steps of the manager that make a command of actor `k`.  A reply to a
local sender is a send to its mailbox. -/
def Command.labels (k : Nat) (ctx : ActorContext) :
    Command μ → List (ManagerAction μ)
  | .send j msg signed =>
    [.send (.worker k) j msg (if signed then ctx.selfRef else none)]
  | .reply msg =>
    match ctx.reply.1 with
    | .mailbox (.localRef r) self =>
      [.reply k msg, .send (.worker k) r.sender msg self]
    | _ => [.reply k msg]
  | .terminate => [.terminate (.worker k)]

/-- What a command leaves behind. -/
def Command.marks (k : Nat) (ctx : ActorContext) :
    Command μ → List (Nat × Mark)
  | .send .. => []
  | .reply _ =>
    match ctx.reply.1 with
    | .mailbox (.localRef _) _ => []
    | _ => [(k, .dropped)]
  | .terminate => [(k, .terminated)]

namespace App

/-- The program before its first call. -/
def start (script : List (MainCall μ σ)) : App μ σ :=
  { manager := Manager.new, script, cells := [], marks := [] }

/-- The main thread: the next step of the call that is running, or the next
call. -/
def mainStep (s : App μ σ) : Option (App μ σ) :=
  match s.manager.main, s.script with
  | .idle, [] => none
  | .idle, call :: script =>
    (s.manager.step call.label).map fun m =>
      { s with
        manager := m, script
        cells := s.cells ++ (call.made.map ActorState.new).toList }
  | _, _ => (s.manager.step .main).map fun m => { s with manager := m }

/-- The thread of actor `k`.  `init()` and `end()` are the empty defaults. -/
def actorStep (s : App μ σ) (k : Nat) : Option (App μ σ) :=
  match s.manager.actors[k]?, s.cells[k]? with
  | some a, some c =>
    match a.pc, c.todo, a.mailbox with
    | .process _, e :: todo, _ =>
      (Machine.exec Manager.step s.manager (e.labels k a.context)).map fun m =>
        { s with
          manager := m, cells := s.cells.set k { c with todo }
          marks := s.marks ++ e.marks k a.context }
    | .process _, [], _ | .initHook, _, _ | .endHook, _, _ =>
      (s.manager.step (.codeReturn k)).map fun m => { s with manager := m }
    | .recv, _, l :: _ =>
      (s.manager.step (.actor k)).map fun m =>
        { s with manager := m, cells := s.cells.set k (c.handle l.envelope.msg) }
    | _, _, _ => (s.manager.step (.actor k)).map fun m => { s with manager := m }
  | _, _ => none

/-- One step of the thread `t`. -/
def step (s : App μ σ) : ThreadId → Option (App μ σ)
  | .main => s.mainStep
  | .worker k => s.actorStep k
  | .client _ => none

/-- The runs of a program. -/
def machine (script : List (MainCall μ σ)) : Machine (App μ σ) ThreadId :=
  Machine.ofNext (· = App.start script) App.step

/-- The program after a schedule. -/
def after (script : List (MainCall μ σ)) (schedule : List ThreadId) :
    Option (App μ σ) :=
  Machine.exec (Machine.guarded (fun _ _ => True) App.step) (App.start script)
    schedule

theorem reach_after (script : List (MainCall μ σ)) (schedule : List ThreadId)
    (h : (after script schedule).isSome) :
    (machine script).Reachable ((after script schedule).get h) := by
  have hstart : (machine script).Reachable (App.start script) := .start rfl
  exact Machine.reach_exec_get hstart schedule h

end App

end Actors
