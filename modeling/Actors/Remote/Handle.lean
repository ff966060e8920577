import Actors.Lib.Lists
import Actors.Lib.Machine
import Actors.Remote.Answers

/-!
# Starting and stopping a receiver

`ZmqReceiver::start` spawns a thread and returns a handle for it.  The thread reads
a flag in every turn of its loop.  `ZmqReceiverHandle::stop`, which `drop` calls as
well, clears the flag and joins the thread.

There is one flag for a receiver.  `ZmqReceiver::new` sets it, the threads of all
calls of `start` read it, the handles of all of them clear it, and nothing sets it
again.  So a receiver that is started again has a thread that ends at once.

* `ZmqReceiver.step` is one step of a thread or of a method of a handle.  The test
  of the flag, the receive and the handling of a message are three steps.
* `ReceiverRun.view` reads the state of a thread as a `ReceiverThread`, and
  `view_turn` says that a turn of the loop is `ReceiverThread.iterate`.
* `serving_iff` says in which runs every thread serves until its own handle is
  stopped or dropped.
-/

namespace Actors

open Concur

variable {τ : Type} {V : τ → Type}

/-- Where the thread of a receiver stands. -/
inductive ReceiverPc where
  /-- Before `bind` has returned. -/
  | bind
  /-- At the head of the loop, before it reads the flag. -/
  | check
  /-- In the `timeout` around `socket.recv()`. -/
  | recv
  /-- It has received a message, and handles it next. -/
  | message (msg : ZmqMessage)
  /-- It has found the flag cleared. -/
  | left
  /-- `bind` has failed, which is a panic, or `recv` has. -/
  | socketError
  | panicked (why : Panic)

/-- Where the thread goes on after `socket.recv()`. -/
def RecvResult.next : RecvResult → ReceiverPc
  | .message msg => .message msg
  | .socketError => .socketError
  | .timeout => .check

/-- Whether the thread is on its way into its loop, or in it. -/
def ReceiverPc.status : ReceiverPc → LoopStatus
  | .bind | .check | .recv | .message _ => .looping
  | .left | .socketError => .left
  | .panicked why => .panicked why

/-- Where a handle stands. -/
inductive HandlePc where
  /-- Nobody is in a method of the handle. -/
  | idle
  /-- In `stop`, after the store. -/
  | stopping
  /-- In the `stop` of `drop`, after the store. -/
  | dropping
  | dropped
  deriving DecidableEq, Repr

/-- What a call of `start` has made: the thread and the `ZmqReceiverHandle`. -/
structure ReceiverRun (V : τ → Type) where
  pc : ReceiverPc
  /-- What the thread has sent so far. -/
  effects : List (Effect V)
  /-- The field `thread` of the handle is `Some`. -/
  joinable : Bool
  handle : HandlePc

namespace ReceiverRun

def spawned : ReceiverRun V :=
  { pc := .bind, effects := [], joinable := true, handle := .idle }

/-- `stop` or `drop` of the handle has been called, and has cleared the flag. -/
def stopped (x : ReceiverRun V) : Bool := x.handle ≠ .idle || !x.joinable

end ReceiverRun

/-- A `ZmqReceiver` with all threads and handles that it has made. -/
structure ZmqReceiver (V : τ → Type) where
  tables : Tables τ
  running : Bool
  /-- The calls of `start`, in order. -/
  runs : List (ReceiverRun V)

/-- The labels of the machine.  `i` is the number of the call of `start`. -/
inductive ReceiverAction (τ : Type) where
  | start
  | bind (i : Nat) (binds : Bool)
  | check (i : Nat)
  | recv (i : Nat) (received : RecvResult)
  | handle (i : Nat)
  /-- `ZmqReceiverHandle::stop`, up to the store. -/
  | stop (i : Nat)
  /-- `Drop::drop`, up to the store. -/
  | drop (i : Nat)
  /-- `handle.join()`, and the return of the method. -/
  | join (i : Nat)
  /-- The rest of the process registers actors and types, and may panic. -/
  | others (tables : Tables τ)

/-- The state of a thread as that of a receiver thread by itself. -/
def ReceiverRun.view (s : ZmqReceiver V) (x : ReceiverRun V) : ReceiverThread V :=
  { tables := s.tables, running := s.running, status := x.pc.status
    effects := x.effects }

namespace ZmqReceiver

/-- `ZmqReceiver::new`. -/
def new (tables : Tables τ) : ZmqReceiver V := { tables, running := true, runs := [] }

/-- `ZmqReceiver::start`. -/
def start (s : ZmqReceiver V) : ZmqReceiver V :=
  { s with runs := s.runs ++ [.spawned] }

def put (s : ZmqReceiver V) (i : Nat) (x : ReceiverRun V) : ZmqReceiver V :=
  { s with runs := s.runs.set i x }

/-- A step of `ZmqReceiverHandle::stop` or of `drop`. -/
def handleStep (s : ZmqReceiver V) (i : Nat) (x : ReceiverRun V) :
    ReceiverAction τ → Option (ZmqReceiver V)
  | .stop _ =>
    match x.handle with
    | .idle => some ({ s with running := false }.put i { x with handle := .stopping })
    | _ => none
  | .drop _ =>
    match x.handle with
    | .idle => some ({ s with running := false }.put i { x with handle := .dropping })
    | _ => none
  | .join _ =>
    if x.joinable = true ∧ x.pc.status = .looping then none
    else
      match x.handle with
      | .stopping => some (s.put i { x with joinable := false, handle := .idle })
      | .dropping => some (s.put i { x with joinable := false, handle := .dropped })
      | _ => none
  | _ => none

theorem runs_put {s : ZmqReceiver V} {i : Nat} {x : ReceiverRun V}
    (hx : s.runs[i]? = some x) (y : ReceiverRun V) : (s.put i y).runs[i]? = some y :=
  List.getElem?_set_self (List.getElem?_eq_some_iff.mp hx).1

variable [DecidableEq τ] (json : JsonText) (serde : Serde V) (zmqSender : ZmqSender)

/-- The arm `Ok(Ok(msg))` of the loop. -/
def handle (s : ZmqReceiver V) (i : Nat) (x : ReceiverRun V) (msg : ZmqMessage) :
    ZmqReceiver V :=
  match handleMessage json serde zmqSender s.tables msg with
  | (.value effects, tables) =>
    { s with tables }.put i { x with pc := .check, effects := x.effects ++ effects }
  | (.panic why, tables) => { s with tables }.put i { x with pc := .panicked why }

/-- A step of the closure that `start` spawns. -/
def loopStep (s : ZmqReceiver V) (i : Nat) (x : ReceiverRun V) :
    ReceiverAction τ → Option (ZmqReceiver V)
  | .bind _ binds =>
    match x.pc with
    | .bind => some (s.put i { x with pc := if binds then .check else .socketError })
    | _ => none
  | .check _ =>
    match x.pc with
    | .check => some (s.put i { x with pc := if s.running then .recv else .left })
    | _ => none
  | .recv _ received =>
    match x.pc with
    | .recv => some (s.put i { x with pc := received.next })
    | _ => none
  | .handle _ =>
    match x.pc with
    | .message msg => some (s.handle json serde zmqSender i x msg)
    | _ => none
  | _ => none

/-- One step. -/
def step (s : ZmqReceiver V) (a : ReceiverAction τ) : Option (ZmqReceiver V) :=
  match a with
  | .start => some s.start
  | .bind i _ | .check i | .recv i _ | .handle i =>
    (s.runs[i]?).bind fun x => s.loopStep json serde zmqSender i x a
  | .stop i | .drop i | .join i => (s.runs[i]?).bind fun x => s.handleStep i x a
  | .others tables => some { s with tables }

/-- A receiver, from `ZmqReceiver::new` on. -/
def machine : Machine (ZmqReceiver V) (ReceiverAction τ) :=
  .ofNext (fun s => ∃ tables, s = new tables) (step json serde zmqSender)

/-- `start` is called after `stop` or `drop` of the handle before. -/
def Sequential (s : ZmqReceiver V) : ReceiverAction τ → Prop
  | .start => ∀ x ∈ s.runs.getLast?, x.stopped = true
  | _ => True

instance (s : ZmqReceiver V) (a : ReceiverAction τ) : Decidable (s.Sequential a) :=
  match a with
  | .start => inferInstanceAs (Decidable (∀ x ∈ s.runs.getLast?, x.stopped = true))
  | .bind _ _ | .check _ | .recv _ _ | .handle _ | .stop _ | .drop _ | .join _
  | .others _ => isTrue trivial

/-! ## One turn of the loop -/

/-- The steps of one turn of the loop. -/
def turn (i : Nat) (running : Bool) (received : RecvResult) : List (ReceiverAction τ) :=
  if running then
    match received with
    | .message _ => [.check i, .recv i received, .handle i]
    | _ => [.check i, .recv i received]
  else [.check i]

variable {json serde zmqSender}

section Turn

variable {s : ZmqReceiver V} {i : Nat} {x : ReceiverRun V}

theorem step_check (hx : s.runs[i]? = some x) (hpc : x.pc = .check) :
    s.step json serde zmqSender (.check i) =
      some (s.put i { x with pc := if s.running then .recv else .left }) := by
  simp [step, hx, loopStep, hpc]

theorem step_recv (hx : s.runs[i]? = some x) (hpc : x.pc = .recv)
    (received : RecvResult) : s.step json serde zmqSender (.recv i received) =
      some (s.put i { x with pc := received.next }) := by
  simp [step, hx, loopStep, hpc]

theorem step_handle (hx : s.runs[i]? = some x) {msg : ZmqMessage}
    (hpc : x.pc = .message msg) : s.step json serde zmqSender (.handle i) =
      some (s.handle json serde zmqSender i x msg) := by
  simp [step, hx, loopStep, hpc]

/-- A message is handled as in a turn of `ReceiverThread.iterate`. -/
theorem view_handle (hx : s.runs[i]? = some x) (hrunning : s.running = true)
    (msg : ZmqMessage) : ∃ x', (s.handle json serde zmqSender i x msg).runs[i]? =
        some x' ∧
      x'.view (s.handle json serde zmqSender i x msg) =
        ReceiverThread.iterate json serde zmqSender
          { tables := s.tables, running := s.running, status := .looping
            effects := x.effects } (.message msg) := by
  simp only [handle, ReceiverThread.iterate, hrunning, if_true]
  rcases handleMessage json serde zmqSender s.tables msg with ⟨effects | why, tables⟩
  · refine ⟨_, runs_put (s := { s with tables }) hx _, ?_⟩
    simp [ReceiverRun.view, put, ReceiverPc.status]
  · refine ⟨_, runs_put (s := { s with tables }) hx _, ?_⟩
    simp [ReceiverRun.view, put, ReceiverPc.status]

/-- A turn of the loop is `ReceiverThread.iterate`. -/
theorem view_turn (hx : s.runs[i]? = some x) (hpc : x.pc = .check)
    (received : RecvResult) : ∃ s' x',
      Machine.exec (step json serde zmqSender) s (turn i s.running received) =
        some s' ∧
      s'.runs[i]? = some x' ∧
      x'.view s' = (x.view s).iterate json serde zmqSender received := by
  have hcheck : step json serde zmqSender s _ = _ := step_check hx hpc
  have hview : x.view s = { tables := s.tables, running := s.running
                            status := .looping, effects := x.effects } := by
    rw [ReceiverRun.view, hpc]
    rfl
  rw [hview]
  cases hrunning : s.running with
  | false =>
    rw [hrunning] at hcheck
    refine ⟨_, _, ?_, runs_put hx { x with pc := .left }, ?_⟩
    · show Machine.exec (step json serde zmqSender) s [.check i] = _
      rw [Machine.exec, hcheck]
      rfl
    · simp [ReceiverRun.view, put, hrunning, ReceiverThread.iterate, ReceiverPc.status]
  | true =>
    rw [hrunning, if_pos rfl] at hcheck
    have hx1 := runs_put hx { x with pc := .recv }
    have hrecv : step json serde zmqSender _ _ = _ := step_recv hx1 rfl received
    have hx2 := runs_put hx1 { x with pc := received.next }
    cases received with
    | socketError | timeout =>
      refine ⟨_, _, ?_, hx2, ?_⟩
      · show Machine.exec (step json serde zmqSender) s [.check i, .recv i _] = _
        rw [Machine.exec, hcheck, Option.bind_some, Machine.exec, hrecv]
        rfl
      · simp [ReceiverRun.view, put, hrunning, ReceiverThread.iterate,
          RecvResult.next, ReceiverPc.status]
    | message msg =>
      have hhandle : step json serde zmqSender _ _ = _ := step_handle hx2 rfl
      obtain ⟨x', hx', hview'⟩ := @view_handle τ V _ json serde zmqSender _ i _ hx2
        hrunning msg
      refine ⟨_, x', ?_, hx', ?_⟩
      · show Machine.exec (step json serde zmqSender) s
          [.check i, .recv i (.message msg), .handle i] = _
        rw [Machine.exec, hcheck, Option.bind_some, Machine.exec, hrecv,
          Option.bind_some, Machine.exec, hhandle]
        rfl
      · rw [← hrunning]
        exact hview'

end Turn

/-! ## What a step does -/

variable (json serde zmqSender)

/-- One step, by outcome. -/
inductive Move (s : ZmqReceiver V) : ReceiverAction τ → ZmqReceiver V → Prop where
  | start : Move s .start s.start
  | others (tables : Tables τ) : Move s (.others tables) { s with tables }
  -- The thread.
  | bind (i : Nat) (binds : Bool) (x : ReceiverRun V) (hx : s.runs[i]? = some x) :
      Move s (.bind i binds)
        (s.put i { x with pc := if binds then .check else .socketError })
  | check (i : Nat) (x : ReceiverRun V) (hx : s.runs[i]? = some x) :
      Move s (.check i) (s.put i { x with pc := if s.running then .recv else .left })
  | recv (i : Nat) (received : RecvResult) (x : ReceiverRun V)
      (hx : s.runs[i]? = some x) :
      Move s (.recv i received) (s.put i { x with pc := received.next })
  | handle (i : Nat) (x : ReceiverRun V) (msg : ZmqMessage)
      (effects : List (Effect V)) (tables : Tables τ) (hx : s.runs[i]? = some x)
      (hpc : x.pc = .message msg)
      (hout : handleMessage json serde zmqSender s.tables msg =
        (.value effects, tables)) :
      Move s (.handle i) ({ s with tables }.put i
        { x with pc := .check, effects := x.effects ++ effects })
  | panic (i : Nat) (x : ReceiverRun V) (msg : ZmqMessage) (why : Panic)
      (tables : Tables τ) (hx : s.runs[i]? = some x) (hpc : x.pc = .message msg)
      (hout : handleMessage json serde zmqSender s.tables msg =
        (.panic why, tables)) :
      Move s (.handle i) ({ s with tables }.put i { x with pc := .panicked why })
  -- The handle.
  | stop (a : ReceiverAction τ) (i : Nat) (x : ReceiverRun V) (pc : HandlePc)
      (ha : a = .stop i ∨ a = .drop i) (hx : s.runs[i]? = some x)
      (hpc : pc ≠ .idle) :
      Move s a ({ s with running := false }.put i { x with handle := pc })
  | join (i : Nat) (x : ReceiverRun V) (pc : HandlePc) (hx : s.runs[i]? = some x)
      (hbusy : x.handle ≠ .idle) :
      Move s (.join i) (s.put i { x with joinable := false, handle := pc })

variable {json serde zmqSender}

theorem move_of_loopStep {s s' : ZmqReceiver V} {i : Nat} {x : ReceiverRun V}
    (hx : s.runs[i]? = some x) {a : ReceiverAction τ}
    (ha : (∃ binds, a = .bind i binds) ∨ a = .check i ∨
      (∃ received, a = .recv i received) ∨ a = .handle i)
    (h : s.loopStep json serde zmqSender i x a = some s') :
    Move json serde zmqSender s a s' := by
  rcases ha with ⟨binds, rfl⟩ | rfl | ⟨received, rfl⟩ | rfl
  · simp only [loopStep] at h
    split at h
    · rw [Option.some.injEq] at h
      exact h ▸ .bind i binds x hx
    · simp at h
  · simp only [loopStep] at h
    split at h
    · rw [Option.some.injEq] at h
      exact h ▸ .check i x hx
    · simp at h
  · simp only [loopStep] at h
    split at h
    · rw [Option.some.injEq] at h
      exact h ▸ .recv i received x hx
    · simp at h
  · simp only [loopStep] at h
    split at h
    · rename_i msg hpc
      rw [Option.some.injEq, ZmqReceiver.handle] at h
      split at h
      · rename_i effects tables hout
        exact h ▸ .handle i x msg effects tables hx hpc hout
      · rename_i why tables hout
        exact h ▸ .panic i x msg why tables hx hpc hout
    · simp at h

theorem move_of_handleStep {s s' : ZmqReceiver V} {i : Nat} {x : ReceiverRun V}
    (hx : s.runs[i]? = some x) {a : ReceiverAction τ}
    (ha : a = .stop i ∨ a = .drop i ∨ a = .join i)
    (h : s.handleStep i x a = some s') : Move json serde zmqSender s a s' := by
  rcases ha with rfl | rfl | rfl
  · simp only [handleStep] at h
    split at h
    · rw [Option.some.injEq] at h
      exact h ▸ .stop _ i x .stopping (Or.inl rfl) hx (by simp)
    · simp at h
  · simp only [handleStep] at h
    split at h
    · rw [Option.some.injEq] at h
      exact h ▸ .stop _ i x .dropping (Or.inr rfl) hx (by simp)
    · simp at h
  · simp only [handleStep] at h
    split at h
    · simp at h
    · split at h
      · rename_i hpc
        rw [Option.some.injEq] at h
        exact h ▸ .join i x .idle hx (by simp [hpc])
      · rename_i hpc
        rw [Option.some.injEq] at h
        exact h ▸ .join i x .dropped hx (by simp [hpc])
      · simp at h

theorem move_of_step {s s' : ZmqReceiver V} {a : ReceiverAction τ}
    (h : s.step json serde zmqSender a = some s') : Move json serde zmqSender s a s' := by
  cases a with
  | start =>
    rw [step, Option.some.injEq] at h
    exact h ▸ .start
  | others tables =>
    rw [step, Option.some.injEq] at h
    exact h ▸ .others tables
  | bind i _ | check i | recv i _ | handle i =>
    obtain ⟨x, hx, hloop⟩ := Option.bind_eq_some_iff.mp h
    exact move_of_loopStep hx (by simp) hloop
  | stop i | drop i | join i =>
    obtain ⟨x, hx, hhandle⟩ := Option.bind_eq_some_iff.mp h
    exact move_of_handleStep hx (by simp) hhandle

/-- The invariant rule of a receiver. -/
theorem invariant {ok : ZmqReceiver V → ReceiverAction τ → Prop}
    {I : ZmqReceiver V → Prop} (hnew : ∀ tables, I (new tables))
    (hkeep : ∀ s a s', I s → ok s a → Move json serde zmqSender s a s' → I s')
    {s : ZmqReceiver V} (h : (machine json serde zmqSender).Reach ok s) : I s := by
  refine h.invariant ?_ ?_
  · rintro s ⟨tables, rfl⟩
    exact hnew tables
  · intro s a s' _ hs hok hstep
    exact hkeep s a s' hs hok (move_of_step hstep)

/-! ## Who serves -/

variable (json serde zmqSender)

/-- The thread is on its way into its loop or in it, and whatever comes is handled
as by a receiver that has just been started. -/
structure Serves (s : ZmqReceiver V) (x : ReceiverRun V) : Prop where
  looping : x.pc.status = .looping
  fresh : ∀ msgs, (x.view s).run json serde zmqSender msgs =
    ((ReceiverThread.start s.tables).run json serde zmqSender msgs).after x.effects

/-- Every thread serves until its own handle is stopped or dropped, errors of the
socket aside. -/
def Serving (s : ZmqReceiver V) : Prop :=
  ∀ x ∈ s.runs, x.stopped = false → x.pc ≠ .socketError →
    Serves json serde zmqSender s x

/-- `start` is called on a receiver that has not been started before, and the thread
gets through the messages that it handles before its handle is stopped. -/
def Meets (s : ZmqReceiver V) : ReceiverAction τ → Prop
  | .start => s.runs = []
  | .handle i => ∀ x ∈ s.runs[i]?, x.stopped = false → ∀ msg, x.pc = .message msg →
      ∀ data ∈ envelopeOf json msg, s.tables.Passes serde data
  | _ => True

variable {json serde zmqSender}

/-- With the flag set, a thread that has not left its loop serves. -/
theorem serves_of_running {s : ZmqReceiver V} (hrunning : s.running = true)
    {x : ReceiverRun V} (hlooping : x.pc.status = .looping) :
    Serves json serde zmqSender s x := by
  have hview : x.view s = (ReceiverThread.start s.tables).after x.effects := by
    simp [ReceiverRun.view, ReceiverThread.after, ReceiverThread.start, hrunning,
      hlooping]
  refine ⟨hlooping, fun msgs => ?_⟩
  rw [hview, ReceiverThread.run_after]

/-- A thread that serves finds the flag set. -/
theorem Serves.running {s : ZmqReceiver V} {x : ReceiverRun V}
    (h : Serves json serde zmqSender s x) : s.running = true :=
  congrArg ReceiverThread.running (h.fresh [])

/-- After a `stop` or `drop` the flag is cleared, for ever. -/
theorem cleared_of_stopped {ok : ZmqReceiver V → ReceiverAction τ → Prop}
    {s : ZmqReceiver V} (h : (machine json serde zmqSender).Reach ok s) :
    ∀ x ∈ s.runs, x.stopped = true → s.running = false := by
  refine invariant (I := fun s : ZmqReceiver V =>
    ∀ x ∈ s.runs, x.stopped = true → s.running = false) ?_ ?_ h
  · simp [new]
  · intro s a s' hs _ hmove
    cases hmove with
    | start => exact forall_mem_snoc hs (by simp [ReceiverRun.stopped, ReceiverRun.spawned])
    | others => exact hs
    | bind i _ x hx | check i x hx | recv i _ x hx | handle i x _ _ _ hx
    | panic i x _ _ _ hx =>
      exact forall_mem_set hs (hs x (List.mem_of_getElem? hx))
    | stop => exact fun _ _ _ => rfl
    | join i x pc hx hbusy =>
      refine forall_mem_set hs fun _ => hs x (List.mem_of_getElem? hx) ?_
      simp [ReceiverRun.stopped, hbusy]

/-- The receiver has been started at most once, and its thread finds the flag set
until its handle is stopped. -/
structure Single (s : ZmqReceiver V) : Prop where
  only : s.runs.length ≤ 1
  unused : s.runs = [] → s.running = true
  live : ∀ x ∈ s.runs, x.stopped = false →
    s.running = true ∧ (x.pc.status = .looping ∨ x.pc = .socketError)

omit [DecidableEq τ] in
theorem Single.put {s : ZmqReceiver V} (h : s.Single) {i : Nat} {x : ReceiverRun V}
    (hx : s.runs[i]? = some x) {tables : Tables τ} {running : Bool} {y : ReceiverRun V}
    (hy : y.stopped = false →
      running = true ∧ (y.pc.status = .looping ∨ y.pc = .socketError)) :
    Single ({ s with tables, running }.put i y) := by
  have hlt := (List.getElem?_eq_some_iff.mp hx).1
  have honly := h.only
  refine ⟨?_, fun hnil => ?_, fun z hz => ?_⟩
  · show (s.runs.set i y).length ≤ 1
    rw [List.length_set]
    exact honly
  · have hlen : (s.runs.set i y).length = 0 := by
      rw [show s.runs.set i y = [] from hnil, List.length_nil]
    rw [List.length_set] at hlen
    omega
  · -- There is no other call of `start`.
    obtain ⟨j, hj⟩ := List.mem_iff_getElem?.mp hz
    have hjlt : j < (s.runs.set i y).length := (List.getElem?_eq_some_iff.mp hj).1
    rw [List.length_set] at hjlt
    have hij : j = i := by omega
    subst hij
    rw [ZmqReceiver.put, List.getElem?_set_self hlt, Option.some.injEq] at hj
    exact hj ▸ hy

theorem Single.serving {s : ZmqReceiver V} (h : s.Single) :
    Serving json serde zmqSender s := by
  intro x hx hstopped herror
  obtain ⟨hrunning, hlooping⟩ := h.live x hx hstopped
  exact serves_of_running hrunning (hlooping.resolve_right herror)

theorem Single.move {s s' : ZmqReceiver V} {a : ReceiverAction τ} (h : s.Single)
    (hmeets : Meets json serde s a) (hmove : Move json serde zmqSender s a s') :
    s'.Single := by
  cases hmove with
  | start =>
    have hnil : s.runs = [] := hmeets
    refine ⟨by simp [ZmqReceiver.start, hnil], by simp [ZmqReceiver.start], ?_⟩
    intro x hx _
    simp only [ZmqReceiver.start, hnil, List.nil_append, List.mem_singleton] at hx
    subst hx
    exact ⟨h.unused hnil, Or.inl rfl⟩
  | others => exact { h with }
  | bind i binds x hx =>
    refine h.put hx fun hstopped => ⟨(h.live x (List.mem_of_getElem? hx) hstopped).1, ?_⟩
    cases binds
    · exact Or.inr rfl
    · exact Or.inl rfl
  | check i x hx =>
    refine h.put hx fun hstopped => ?_
    have hrunning := (h.live x (List.mem_of_getElem? hx) hstopped).1
    exact ⟨hrunning, Or.inl (by simp [hrunning, ReceiverPc.status])⟩
  | recv i received x hx =>
    refine h.put hx fun hstopped => ⟨(h.live x (List.mem_of_getElem? hx) hstopped).1, ?_⟩
    cases received
    · exact Or.inl rfl
    · exact Or.inr rfl
    · exact Or.inl rfl
  | handle i x msg effects tables hx =>
    exact h.put hx fun hstopped =>
      ⟨(h.live x (List.mem_of_getElem? hx) hstopped).1, Or.inl rfl⟩
  | panic i x msg why tables hx hpc hout =>
    refine h.put hx fun hstopped => ?_
    have hpanicked : (handleMessage json serde zmqSender s.tables msg).1.panicked =
        true := by rw [hout]; rfl
    exact absurd (hmeets x hx hstopped msg hpc) (panicked_handleMessage_iff.mp hpanicked)
  | stop _ i x pc _ hx hpc =>
    refine h.put hx fun hstopped => ?_
    simp [ReceiverRun.stopped, hpc] at hstopped
  | join i x pc hx =>
    refine h.put hx fun hstopped => ?_
    simp [ReceiverRun.stopped] at hstopped

/-- A step after which the threads still serve. -/
theorem meets_of_serving {s s' : ZmqReceiver V} {a : ReceiverAction τ}
    (hcleared : ∀ x ∈ s.runs, x.stopped = true → s.running = false)
    (hseq : s.Sequential a) (hmove : Move json serde zmqSender s a s')
    (hserving : Serving json serde zmqSender s') : Meets json serde s a := by
  cases hmove with
  | start =>
    by_contra hne
    have hlast := List.getLast?_eq_getLast_of_ne_nil hne
    have hstopped := hseq _ hlast
    have hrunning := hcleared _ (List.getLast_mem hne) hstopped
    have hnew : ReceiverRun.spawned ∈ s.start.runs := by simp [ZmqReceiver.start]
    have hserves := hserving _ hnew rfl (by simp [ReceiverRun.spawned])
    rw [show s.running = true from hserves.running] at hrunning
    simp at hrunning
  | handle i x msg effects tables hx hpc hout =>
    intro y hy _ msg' hpc'
    rw [Option.mem_def, hx, Option.some.injEq] at hy
    subst hy
    rw [hpc, ReceiverPc.message.injEq] at hpc'
    subst hpc'
    by_contra hno
    have hpanicked : (handleMessage json serde zmqSender s.tables msg).1.panicked =
        true := panicked_handleMessage_iff.mpr hno
    rw [hout] at hpanicked
    simp at hpanicked
  | panic i x msg why tables hx hpc hout =>
    intro y hy hstopped
    rw [Option.mem_def, hx, Option.some.injEq] at hy
    subst hy
    have hnew := List.mem_of_getElem? (runs_put (s := { s with tables }) hx
      { x with pc := .panicked why })
    have hserves := hserving _ hnew hstopped (by simp)
    have hlooping := hserves.looping
    simp [ReceiverPc.status] at hlooping
  | stop _ i x pc ha => rcases ha with rfl | rfl <;> exact trivial
  | _ => exact trivial

/-- In every run in which each call of `start` follows `stop` or `drop` of the handle
before, in any order of the steps of the threads and of calls of `stop` and `drop`:
all threads serve until their own handles are stopped or dropped if and only if
`start` is called once, and the messages handled before the handle is stopped are
such that the receiver gets through them. -/
theorem serving_iff {tr : List (ZmqReceiver V × ReceiverAction τ)} {s : ZmqReceiver V}
    (h : (machine json serde zmqSender).Run Sequential tr s) :
    ((∀ y ∈ tr, Serving json serde zmqSender y.1) ∧ Serving json serde zmqSender s) ↔
      ∀ y ∈ tr, Meets json serde y.1 y.2 := by
  refine h.forall_iff (I := Single) ?_ ?_ ?_ ?_
  · rintro s ⟨tables, rfl⟩
    exact ⟨by simp [new], fun _ => rfl, by simp [new]⟩
  · intro s hs
    exact hs.serving
  · intro s a s' hs _ hmeets hstep
    exact hs.move hmeets (move_of_step hstep)
  · intro s a s' hreach _ hseq hstep hserving
    exact meets_of_serving (cleared_of_stopped hreach) hseq (move_of_step hstep) hserving

theorem run_after (json : JsonText) (serde : Serde V) (zmqSender : ZmqSender)
    (tables : Tables τ) (as : List (ReceiverAction τ))
    (h : (Machine.exec (Machine.guarded Sequential (step json serde zmqSender))
      (new tables) as).isSome) :
    (machine json serde zmqSender).Run Sequential
      (Machine.trace (step json serde zmqSender) (new tables) as)
      ((Machine.exec (Machine.guarded Sequential (step json serde zmqSender))
        (new tables) as).get h) :=
  Machine.run_exec_get ⟨tables, rfl⟩ as h

/-- A frame for a registered actor, with a payload of its type. -/
def trueFlag : String :=
  "\x7b\"message\":true,\"message_type\":\"Flag\",\"receiver\":\"a\"," ++
    "\"sender_actor\":null,\"sender_endpoint\":null\x7d"

/-- The thread of a receiver that has just received the frame. -/
def holdsFrame : ReceiverRun fun _ : Unit => Bool :=
  { ReceiverRun.spawned with pc := .message [trueFlag.toUTF8] }

/-- A receiver that is started once serves while it receives the frame and handles
it. -/
theorem serving_trueFlag :
    let json : JsonText := .ofPair trueFlag (frame (none, none) "a" "Flag" (.bool true))
    let zmqSender : ZmqSender := ⟨1, "tcp://0.0.0.0:5001"⟩
    let received : ZmqReceiver fun _ : Unit => Bool :=
      { tables := flagProcess, running := true, runs := [holdsFrame] }
    Serving json flagSerde zmqSender received ∧ Serving json flagSerde zmqSender
      (received.handle json flagSerde zmqSender 0 holdsFrame [trueFlag.toUTF8]) := by
  intro json zmqSender received
  have henvelope : envelopeOf json [trueFlag.toUTF8] =
      some (frame (none, none) "a" "Flag" (.bool true)) := by
    rw [envelopeOf_toUTF8]
    exact JsonText.roundTrips_ofPair trueFlag _
  have hpasses : flagProcess.Passes flagSerde
      (frame (none, none) "a" "Flag" (.bool true)) :=
    ⟨rfl, rfl, _, rfl, trivial⟩
  have hreceived : (machine json flagSerde zmqSender).Run Sequential _ received :=
    run_after json flagSerde zmqSender flagProcess
      [.start, .bind 0 true, .check 0, .recv 0 (.message [trueFlag.toUTF8])] rfl
  have hseq : received.Sequential (.handle 0) := trivial
  have hhandle : received.step json flagSerde zmqSender (.handle 0) = some _ :=
    step_handle (show _ = some holdsFrame from rfl) rfl
  have hrun := hreceived.step hseq hhandle
  have hall := (serving_iff hrun).mpr ?_
  · exact ⟨hall.1 _ (List.mem_concat_self), hall.2⟩
  · refine forall_mem_snoc ?_ ?_
    · exact List.forall_mem_cons.mpr ⟨rfl, List.forall_mem_cons.mpr ⟨trivial,
        List.forall_mem_cons.mpr ⟨trivial, List.forall_mem_cons.mpr ⟨trivial,
          List.forall_mem_nil _⟩⟩⟩⟩
    · intro x hx _ msg hpc data hdata
      have hx' : holdsFrame = x := Option.some.inj hx
      subst hx'
      have hmsg : [trueFlag.toUTF8] = msg := ReceiverPc.message.inj hpc
      subst hmsg
      rw [henvelope, Option.mem_some_iff] at hdata
      exact hdata ▸ hpasses

/-- A receiver that was started again after `stop`.  Its second thread has read the
flag and ended, with its handle neither stopped nor dropped. -/
def startedAgain : ZmqReceiver fun _ : Unit => Bool where
  tables := flagProcess
  running := false
  runs := [{ pc := .left, effects := [], joinable := false, handle := .idle },
    { pc := .left, effects := [], joinable := true, handle := .idle }]

theorem not_serving_again : ¬ ∀ s : ZmqReceiver fun _ : Unit => Bool,
    (machine (.ofPair "" .null) flagSerde ⟨1, "tcp://0.0.0.0:5001"⟩).Reach
      Sequential s →
    Serving (.ofPair "" .null) flagSerde ⟨1, "tcp://0.0.0.0:5001"⟩ s := by
  intro h
  have hrun : (machine (.ofPair "" .null) flagSerde ⟨1, "tcp://0.0.0.0:5001"⟩).Run
      Sequential _ startedAgain :=
    run_after (.ofPair "" .null) flagSerde ⟨1, "tcp://0.0.0.0:5001"⟩ flagProcess
      [.start, .bind 0 true, .check 0, .stop 0, .recv 0 .timeout, .check 0, .join 0,
        .start, .bind 1 true, .check 1] rfl
  have hserves := h startedAgain hrun.reach
    { pc := .left, effects := [], joinable := true, handle := .idle }
    (by simp [startedAgain]) rfl (by simp)
  have hlooping := hserves.looping
  simp [ReceiverPc.status] at hlooping

end ZmqReceiver

end Actors
