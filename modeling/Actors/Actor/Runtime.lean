import Actors.Actor.Ledger
import Actors.Actor.Lifecycle

/-!
# The runtime of one actor

`ActorRuntime` of `src/actor.rs` with the thread that runs it.  `RuntimePc` is
the place of that thread in `ActorRuntime::run`; an actor whose runtime the
manager still owns has no thread yet.

`recv()` on the mailbox fails when the mailbox is empty and no `Sender` of it
is left, so a runtime records who holds one (`Holder`).  Two of the holders are
the runtime's own: the field `sender` and the reference in the context.
-/

namespace Actors

variable {μ : Type}

/-- Who holds a clone of the `Sender` of a mailbox. -/
inductive Holder where
  /-- The field `sender` of the runtime. -/
  | runtime
  /-- The `self_ref` of the runtime's context. -/
  | selfRef
  | registry
  | expandedRegistry
  | actorRefs
  /-- The application, in any number of clones. -/
  | application
  deriving DecidableEq, Repr

/-- Where the thread of an actor stands in `ActorRuntime::run`. -/
inductive RuntimePc (μ : Type) where
  /-- There is no thread: the runtime belongs to the manager. -/
  | parked
  /-- Before `init()`. -/
  | spawned
  /-- In `init()`. -/
  | initHook
  /-- At the head of the loop, before it reads `running`. -/
  | check
  /-- In `receiver.recv()`. -/
  | recv
  /-- In `process_message`. -/
  | process (letter : Letter μ)
  /-- In `end()`. -/
  | endHook
  | exited
  | panicked
  deriving DecidableEq, Repr

/-- The thread has ended. -/
def RuntimePc.finished : RuntimePc μ → Bool
  | .exited | .panicked => true
  | _ => false

/-- The thread runs code of the application. -/
def RuntimePc.inCode : RuntimePc μ → Bool
  | .initHook | .process _ | .endHook => true
  | _ => false

/-- `ActorRuntime`, with its mailbox and its thread. -/
structure Runtime (μ : Type) where
  name : String
  context : ActorContext
  running : Bool
  mailbox : List (Letter μ)
  senders : List Holder
  pc : RuntimePc μ
  /-- Every letter that the mailbox has accepted so far, in order. -/
  accepted : List (Letter μ)
  /-- Every call of `process_message` so far, in order. -/
  handed : List (ProcessCall μ)
  deriving DecidableEq, Repr

namespace Runtime

/-- `ActorRuntime::new`.  `k` names the new channel. -/
def new (k : ChannelId) (name : String) : Runtime μ :=
  { name
    context := ActorContext.new.setSelfRef (.localRef { sender := k, name })
    running := true, mailbox := [], senders := [.runtime, .selfRef]
    pc := .parked, accepted := [], handed := [] }

/-- `ActorRuntime::dispatch`, up to the call of `process_message`.  `k` is the
number of the actor. -/
def dispatch (a : Runtime μ) (k : Nat) (l : Letter μ) : ProcessCall μ :=
  .prepared k a.context l

/-- `ActorRuntime::stop`. -/
def stop (a : Runtime μ) : Runtime μ := { a with running := false }

/-- The mailbox takes a letter. -/
def accept (a : Runtime μ) (l : Letter μ) : Runtime μ :=
  { a with mailbox := a.mailbox ++ [l], accepted := a.accepted ++ [l] }

/-- A message for the mailbox.  After the end of the thread there is no receiver,
and the message is dropped. -/
def deliver (a : Runtime μ) (l : Letter μ) : Runtime μ :=
  if a.pc.finished then a else a.accept l

/-- The thread ends and drops the runtime, with what is left in the mailbox
and with its own two clones of the `Sender`. -/
def finish (a : Runtime μ) (pc : RuntimePc μ) : Runtime μ :=
  { a with
    pc, mailbox := []
    senders := a.senders.filter fun h => h ≠ .runtime ∧ h ≠ .selfRef }

/-- One step of `ActorRuntime::run` outside of the code of the application,
with what it adds to the history.  `none` where the thread has to wait. -/
def runStep (a : Runtime μ) (k : Nat) : Option (Runtime μ × List LifeEvent) :=
  match a.pc with
  | .spawned => some ({ a with pc := .initHook }, [.initBegin])
  | .check =>
    if a.running then some ({ a with pc := .recv }, [])
    else some ({ a with pc := .endHook }, [.endBegin])
  | .recv =>
    match a.mailbox with
    | l :: rest =>
      let call := a.dispatch k l
      some ({ a with
        mailbox := rest, context := call.context, pc := .process l
        handed := a.handed ++ [call] }, [.processBegin])
    | [] =>
      if a.senders = [] then some ({ a with pc := .endHook }, [.endBegin])
      else none
  | _ => none

/-- A hook or `process_message` returns. -/
def codeReturn (a : Runtime μ) : Option (Runtime μ × List LifeEvent) :=
  match a.pc with
  | .initHook => some ({ a with pc := .check }, [.initEnd])
  | .process _ => some ({ a with pc := .check }, [.processEnd])
  | .endHook => some (a.finish .exited, [.endEnd])
  | _ => none

/-- A hook or `process_message` panics, and the thread unwinds. -/
def codePanic (a : Runtime μ) : Option (Runtime μ) :=
  if a.pc.inCode then some (a.finish .panicked) else none

/-- `ctx.reply` in `process_message`: the route of the message and the
runtime afterwards. -/
def reply (a : Runtime μ) : ReplyRoute × Runtime μ :=
  (a.context.reply.1, { a with context := a.context.reply.2 })

/-- What one step of the thread of actor `k` does to the runtime, by outcome,
and the events that it adds to the history. -/
inductive Move (k : Nat) (a : Runtime μ) :
    Runtime μ → List LifeEvent → Prop where
  | begin (hpc : a.pc = .spawned) :
      Move k a { a with pc := .initHook } [.initBegin]
  | initReturn (hpc : a.pc = .initHook) :
      Move k a { a with pc := .check } [.initEnd]
  | goOn (hpc : a.pc = .check) (hrun : a.running = true) :
      Move k a { a with pc := .recv } []
  | leave (hpc : a.pc = .check) (hrun : a.running = false) :
      Move k a { a with pc := .endHook } [.endBegin]
  | recv (l : Letter μ) (rest : List (Letter μ)) (hpc : a.pc = .recv)
      (hbox : a.mailbox = l :: rest) :
      Move k a { a with
        mailbox := rest, context := (a.dispatch k l).context, pc := .process l
        handed := a.handed ++ [a.dispatch k l] } [.processBegin]
  | closed (hpc : a.pc = .recv) (hbox : a.mailbox = [])
      (hsenders : a.senders = []) :
      Move k a { a with pc := .endHook } [.endBegin]
  | processReturn (l : Letter μ) (hpc : a.pc = .process l) :
      Move k a { a with pc := .check } [.processEnd]
  | endReturn (hpc : a.pc = .endHook) : Move k a (a.finish .exited) [.endEnd]

theorem move_of_runStep {a a' : Runtime μ} {k : Nat} {events : List LifeEvent}
    (h : a.runStep k = some (a', events)) : Move k a a' events := by
  unfold runStep at h
  split at h
  case h_1 hpc =>
    simp only [Option.some.injEq, Prod.mk.injEq] at h
    obtain ⟨rfl, rfl⟩ := h
    exact .begin hpc
  case h_2 hpc =>
    split at h
    · rename_i hrun
      simp only [Option.some.injEq, Prod.mk.injEq] at h
      obtain ⟨rfl, rfl⟩ := h
      exact .goOn hpc hrun
    · rename_i hrun
      simp only [Option.some.injEq, Prod.mk.injEq] at h
      obtain ⟨rfl, rfl⟩ := h
      exact .leave hpc (by simpa using hrun)
  case h_3 hpc =>
    split at h
    · rename_i l rest hbox
      simp only [Option.some.injEq, Prod.mk.injEq] at h
      obtain ⟨rfl, rfl⟩ := h
      exact .recv l rest hpc hbox
    · rename_i hbox
      split at h
      · rename_i hsenders
        simp only [Option.some.injEq, Prod.mk.injEq] at h
        obtain ⟨rfl, rfl⟩ := h
        exact .closed hpc hbox hsenders
      · simp at h
  case h_4 => simp at h

theorem move_of_codeReturn {a a' : Runtime μ} {k : Nat}
    {events : List LifeEvent} (h : a.codeReturn = some (a', events)) :
    Move k a a' events := by
  unfold codeReturn at h
  split at h
  case h_1 hpc =>
    simp only [Option.some.injEq, Prod.mk.injEq] at h
    obtain ⟨rfl, rfl⟩ := h
    exact .initReturn hpc
  case h_2 l hpc =>
    simp only [Option.some.injEq, Prod.mk.injEq] at h
    obtain ⟨rfl, rfl⟩ := h
    exact .processReturn l hpc
  case h_3 hpc =>
    simp only [Option.some.injEq, Prod.mk.injEq] at h
    obtain ⟨rfl, rfl⟩ := h
    exact .endReturn hpc
  case h_4 => simp at h

/-! ## The mailbox -/

/-- The letters that were passed to `process_message`, in order. -/
def letters (a : Runtime μ) : List (Letter μ) :=
  a.handed.map ProcessCall.letter

/-- What was handed over is a prefix of what the mailbox has accepted, and as
long as the runtime lives the rest is still in the mailbox. -/
structure InOrder (a : Runtime μ) : Prop where
  handed_prefix : a.letters <+: a.accepted
  rest : a.pc.finished = false → a.accepted = a.letters ++ a.mailbox

theorem inOrder_new (k : ChannelId) (name : String) :
    (new k name : Runtime μ).InOrder :=
  ⟨List.prefix_refl _, fun _ => rfl⟩

/-- A step that leaves the mailbox alone. -/
theorem InOrder.frame {a a' : Runtime μ} (h : a.InOrder)
    (hhanded : a'.handed = a.handed) (haccepted : a'.accepted = a.accepted)
    (hbox : a'.pc.finished = false → a.pc.finished = false ∧
      a'.mailbox = a.mailbox) : a'.InOrder := by
  have hletters : a'.letters = a.letters := by
    rw [letters, hhanded, letters]
  refine ⟨?_, fun hlive => ?_⟩
  · rw [hletters, haccepted]
    exact h.handed_prefix
  · rw [hletters, haccepted, (hbox hlive).2]
    exact h.rest (hbox hlive).1

theorem InOrder.accept {a : Runtime μ} (h : a.InOrder)
    (hlive : a.pc.finished = false) (l : Letter μ) : (a.accept l).InOrder := by
  refine ⟨h.handed_prefix.trans (List.prefix_append _ _), fun _ => ?_⟩
  simp only [Runtime.accept]
  rw [h.rest hlive, List.append_assoc]
  rfl

/-- The thread takes the head of the mailbox. -/
theorem letters_recv (a : Runtime μ) (k : Nat) (l : Letter μ) :
    (a.handed ++ [a.dispatch k l]).map ProcessCall.letter = a.letters ++ [l] := by
  rw [List.map_append]
  rfl

/-- A step of the thread takes at most the head of the mailbox. -/
theorem InOrder.move {a a' : Runtime μ} {k : Nat} {events : List LifeEvent}
    (h : a.InOrder) (hmove : Move k a a' events) : a'.InOrder := by
  cases hmove with
  | recv l rest hpc hbox =>
    have hall : a.accepted = (a.letters ++ [l]) ++ rest := by
      rw [h.rest (by rw [hpc]; rfl), hbox, List.append_assoc]
      rfl
    constructor
    · rw [letters, letters_recv]
      exact ⟨rest, hall.symm⟩
    · intro _
      rw [letters, letters_recv]
      exact hall
  | endReturn hpc => exact h.frame rfl rfl (by simp [finish, RuntimePc.finished])
  | begin hpc | initReturn hpc | goOn hpc | leave hpc | closed hpc
  | processReturn l hpc =>
    exact h.frame rfl rfl (by simp [hpc, RuntimePc.finished])

end Runtime

end Actors
