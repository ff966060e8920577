import Actors.Manager.Shutdown
import Actors.Timer.Ticks

/-!
# An actor with timers

A program with one actor, which makes timers on its own reference and drops them in
its handlers.  The thread of the actor, the threads of the timers and the main thread
take their steps in any order.  What a handler does with a timer, and what the thread
of a timer does, are steps of `TimerSystem`, with the actor as the target.

* `Move` lists the steps, and `invariant` is the rule for a run.
* `Regular` is what holds of every timer of the program.
* `Kept` is what holds in every program: the `Timeout`s that the mailbox has accepted
  are those that were sent.
* `AtRest.actor`, `AtRest.timers` and `AtRest.main` tell where the threads stand when
  none of them can go on.
-/

namespace Actors

open Concur

variable {μ σ : Type}

/-- What a handler does with the timers and with the manager. -/
inductive TimerCommand where
  /-- `Timer::once` or `Timer::periodic`, on `ctx.self_ref()`. -/
  | create (kind : TimerKind) (id : UInt64)
  /-- `cancel` of timer `k`. -/
  | cancel (k : Nat)
  /-- `Drop::drop` of timer `k`, up to `join`. -/
  | drop (k : Nat)
  /-- `join` in `Drop::drop`. -/
  | join (k : Nat)
  /-- `manager_handle.terminate()`. -/
  | terminate
  deriving DecidableEq, Repr

/-- The command is about timer `k`. -/
def TimerCommand.about (k : Nat) : TimerCommand → Bool
  | .cancel j | .drop j | .join j => j = k
  | .create _ _ | .terminate => false

/-- Where the main thread stands after `init`. -/
inductive TimerMain where
  /-- In `run`. -/
  | running
  /-- `run` has returned, and `end` sends `Shutdown`. -/
  | ending
  /-- In `wait`. -/
  | joining
  | returned
  deriving DecidableEq, Repr

/-- The program. -/
structure TimerApp (μ σ : Type) where
  actor : Runtime μ
  /-- The fields of the actor. -/
  state : σ
  /-- What its handler has still to do. -/
  todo : List TimerCommand
  /-- The timers that were made so far.  Their target is `actor`. -/
  timers : List (TimerConfig × TimerSystem μ)
  terminateFlag : Bool
  main : TimerMain

namespace TimerSystem

/-- What holds of a timer on a local actor: one that has ended has sent its `Timeout`,
or its flag was cleared. -/
structure Regular (c : TimerConfig) (t : TimerSystem μ) : Prop where
  counted : t.Counted c
  once : c.kind = .once → t.running = true → t.pc = .done → t.sent ≠ []
  periodic : c.kind = .periodic → t.pc = .done → t.running = false

theorem regular_start (c : TimerConfig) (actor : Runtime μ) :
    (start c actor).Regular c where
  counted := counted (.start ⟨actor, rfl⟩ : (machine μ c).Reachable (start c actor))
  once hkind _ hdone := by simp [start, TimerKind.begin, hkind] at hdone
  periodic hkind hdone := by simp [start, TimerKind.begin, hkind] at hdone

theorem Regular.target {c : TimerConfig} {t : TimerSystem μ} (h : t.Regular c)
    (actor : Runtime μ) : Regular c { t with actor } :=
  ⟨counted_move h.counted (.target .actor actor), h.once, h.periodic⟩

theorem regular_step {c : TimerConfig} {r : LocalActorRef} (htarget : c.target = .localRef r)
    {t t' : TimerSystem μ} {a : TimerAction μ} (h : t.Regular c)
    (hstep : t.step c a = some t') : t'.Regular c := by
  have hmove := move_of_step hstep
  refine ⟨counted_move h.counted hmove, ?_, ?_⟩
  · intro hkind hrun hdone
    cases hmove with
    | check p hpc => exact absurd hpc (h.counted.single hkind).2.1
    | sleep p hpc => simp at hdone
    | test p hpc =>
      have hset : t.running = true := hrun
      simp [hset] at hdone
    | send p actor hpc => simp
    | sendPanic p hpc =>
      have hsent := (send_of_local htarget hpc hstep).2.1
      simp at hsent
    | cancelStore | dropStore => simp at hrun
    | cancelReturn | dropCall | dropCancelReturn | join | target =>
      exact h.once hkind hrun hdone
  · intro hkind hdone
    cases hmove with
    | check p hpc =>
      cases hrun : t.running with
      | true => simp [hrun] at hdone
      | false => rfl
    | sleep p hpc => simp at hdone
    | test p hpc =>
      cases hrun : t.running <;> simp [hrun, hkind, TimerKind.next] at hdone
    | send p actor hpc => simp [hkind, TimerKind.next] at hdone
    | sendPanic p hpc =>
      have hsent := (send_of_local htarget hpc hstep).2.1
      simp at hsent
    | cancelStore | dropStore => rfl
    | cancelReturn | dropCall | dropCancelReturn | join | target =>
      exact h.periodic hkind hdone

theorem regular_exec {c : TimerConfig} {r : LocalActorRef} (htarget : c.target = .localRef r)
    {labels : List (TimerAction μ)} {t t' : TimerSystem μ} (h : t.Regular c)
    (hexec : Machine.exec (step c) t labels = some t') : t'.Regular c := by
  induction labels generalizing t with
  | nil =>
    rw [Machine.exec, Option.some.injEq] at hexec
    exact hexec ▸ h
  | cons a labels ih =>
    rw [Machine.exec, Option.bind_eq_some_iff] at hexec
    obtain ⟨t1, hstep, hexec⟩ := hexec
    exact ih (regular_step htarget h hstep) hexec

end TimerSystem

/-- The letter is a `Timeout` of the timer. -/
def Letter.isTimeout (id : UInt64) (l : Letter μ) : Bool :=
  match l.envelope.msg with
  | .timeout other => other = id
  | _ => false

namespace TimerSystem

/-- A step of the thread sends nothing, or one `Timeout`. -/
theorem sent_of_timer {c : TimerConfig} {r : LocalActorRef} (htarget : c.target = .localRef r)
    {t t' : TimerSystem μ} (hstep : t.step c (.timer false) = some t') :
    (t'.actor = t.actor ∧ t'.sent = t.sent) ∨
      ∃ l : Letter μ, l.envelope = c.envelope ∧ t'.actor = t.actor.deliver l ∧
        t'.sent = t.sent ++ [c.envelope] := by
  simp only [step, timerStep] at hstep
  split at hstep <;> simp only [Option.some.injEq, reduceCtorEq] at hstep <;> subst hstep
  · exact Or.inl ⟨rfl, rfl⟩
  · exact Or.inl ⟨rfl, rfl⟩
  · exact Or.inl ⟨rfl, rfl⟩
  · refine Or.inr ⟨{ id := t.sent.length, author := .client 0, via := 0, addressee := r.name
                     envelope := c.envelope }, rfl, ?_, ?_⟩ <;> simp [sendTimeout, htarget]

/-- A part of a method of the timer. -/
def ofCaller : TimerAction μ → Bool
  | .cancelStore _ | .cancelReturn _ | .dropCall _ | .dropStore | .dropCancelReturn
  | .join => true
  | _ => false

/-- The methods leave the thread and the target alone. -/
theorem exec_ofCaller {c : TimerConfig} {labels : List (TimerAction μ)}
    {t t' : TimerSystem μ} (hlabels : ∀ a ∈ labels, ofCaller a = true)
    (hexec : Machine.exec (step c) t labels = some t') :
    t'.actor = t.actor ∧ t'.sent = t.sent ∧ t'.pc = t.pc := by
  induction labels generalizing t with
  | nil =>
    rw [Machine.exec, Option.some.injEq] at hexec
    exact hexec ▸ ⟨rfl, rfl, rfl⟩
  | cons a labels ih =>
    rw [Machine.exec, Option.bind_eq_some_iff] at hexec
    obtain ⟨t1, hstep, hexec⟩ := hexec
    obtain ⟨hcaller, hlabels⟩ := List.forall_mem_cons.mp hlabels
    obtain ⟨hactor, hsent, hpc⟩ := ih hlabels hexec
    have hone : t1.actor = t.actor ∧ t1.sent = t.sent ∧ t1.pc = t.pc := by
      cases a with
      | cancelStore | cancelReturn | dropCall =>
        simp only [step] at hstep
        split at hstep <;> simp only [Option.some.injEq, reduceCtorEq] at hstep
        exact hstep ▸ ⟨rfl, rfl, rfl⟩
      | dropStore | dropCancelReturn =>
        simp only [step, dropStep] at hstep
        split at hstep <;> simp only [Option.some.injEq, reduceCtorEq] at hstep
        exact hstep ▸ ⟨rfl, rfl, rfl⟩
      | join =>
        simp only [step, dropStep] at hstep
        split at hstep
        · split at hstep <;> simp only [Option.some.injEq, reduceCtorEq] at hstep
          exact hstep ▸ ⟨rfl, rfl, rfl⟩
        · simp at hstep
      | _ => simp [ofCaller] at hcaller
    exact ⟨hactor.trans hone.1, hsent.trans hone.2.1, hpc.trans hone.2.2⟩

end TimerSystem

namespace TimerApp

/-- The messages of the manager. -/
def managerLetter (actor : Runtime μ) (msg : Message μ) : Letter μ :=
  { id := actor.accepted.length, author := .main, via := 0, addressee := actor.name
    envelope := .new msg none }

/-- The runtime after `manage`, with its thread. -/
def spawned (name : String) : Runtime μ := { Runtime.new 0 name with pc := .spawned }

/-- The program when `init` has returned. -/
def start (name : String) (state : σ) : TimerApp μ σ :=
  { actor := (spawned name).accept (managerLetter (spawned name) .start)
    state, todo := [], timers := [], terminateFlag := false, main := .running }

/-- Steps of timer `k`. -/
def onTimer (s : TimerApp μ σ) (k : Nat) (labels : List (TimerAction μ)) :
    Option (TimerApp μ σ) :=
  match s.timers[k]? with
  | none => none
  | some (c, t) =>
    (Machine.exec (TimerSystem.step c) { t with actor := s.actor } labels).map fun t' =>
      { s with timers := s.timers.set k (c, t'), actor := t'.actor }

/-- The handler does the next thing. -/
def exec (s : TimerApp μ σ) : TimerCommand → Option (TimerApp μ σ)
  | .create kind id =>
    s.actor.context.selfRef.map fun target =>
      let c := { kind, target, id }
      { s with timers := s.timers ++ [(c, TimerSystem.start c s.actor)] }
  | .cancel k => s.onTimer k [.cancelStore (.worker 0), .cancelReturn (.worker 0)]
  | .drop k => s.onTimer k [.dropCall (.worker 0), .dropStore, .dropCancelReturn]
  | .join k => s.onTimer k [.join]
  | .terminate => some { s with terminateFlag := true }

/-- The main thread. -/
def mainStep (s : TimerApp μ σ) : Option (TimerApp μ σ) :=
  match s.main with
  | .running => if s.terminateFlag then some { s with main := .ending } else some s
  | .ending => some { s with
      actor := s.actor.deliver (managerLetter s.actor .shutdown), main := .joining }
  | .joining => if s.actor.pc.finished then some { s with main := .returned } else none
  | .returned => none

variable (process : σ → Nat → Message μ → σ × List TimerCommand)

/-- The thread of the actor.  `process` is `process_message`, which gets the number
of the next timer. -/
def actorStep (s : TimerApp μ σ) : Option (TimerApp μ σ) :=
  match s.actor.pc, s.todo, s.actor.mailbox with
  | .process _, e :: todo, _ => exec { s with todo } e
  | .process _, [], _ | .initHook, _, _ | .endHook, _, _ =>
    s.actor.codeReturn.map fun x => { s with actor := x.1 }
  | .recv, _, l :: _ =>
    let (state, todo) := process s.state s.timers.length l.envelope.msg
    (s.actor.runStep 0).map fun x => { s with actor := x.1, state, todo }
  | _, _, _ => (s.actor.runStep 0).map fun x => { s with actor := x.1 }

/-- One step of the thread `t`.  Thread `.client k` is the thread of timer `k`. -/
def step (s : TimerApp μ σ) : ThreadId → Option (TimerApp μ σ)
  | .main => s.mainStep
  | .worker 0 => s.actorStep process
  | .client k => s.onTimer k [.timer false]
  | _ => none

/-- The runs of the program. -/
def machine (name : String) (state : σ) : Machine (TimerApp μ σ) ThreadId :=
  .ofNext (· = start name state) (step process)

/-- The step is a poll of `run`. -/
def polls (s : TimerApp μ σ) (t : ThreadId) : Bool :=
  t = .main && s.main = .running && !s.terminateFlag

/-- No thread can take a step, apart from the polls of `run`. -/
def AtRest (s : TimerApp μ σ) : Prop :=
  ∀ t, s.polls t = false → s.step process t = none

/-! ## The steps by outcome -/

section Moves

variable {process}

/-- What one step does. -/
inductive Move (process : σ → Nat → Message μ → σ × List TimerCommand)
    (s : TimerApp μ σ) : ThreadId → TimerApp μ σ → Prop where
  -- The main thread.
  | poll (hmain : s.main = .running) (hflag : s.terminateFlag = false) :
      Move process s .main s
  | ran (hmain : s.main = .running) (hflag : s.terminateFlag = true) :
      Move process s .main { s with main := .ending }
  | shutdown (hmain : s.main = .ending) :
      Move process s .main { s with
        actor := s.actor.deliver (managerLetter s.actor .shutdown), main := .joining }
  | joined (hmain : s.main = .joining) (hfin : s.actor.pc.finished = true) :
      Move process s .main { s with main := .returned }
  -- The thread of a timer.
  | timer (k : Nat) (c : TimerConfig) (t t' : TimerSystem μ)
      (ht : s.timers[k]? = some (c, t))
      (hstep : TimerSystem.step c { t with actor := s.actor } (.timer false) = some t') :
      Move process s (.client k)
        { s with timers := s.timers.set k (c, t'), actor := t'.actor }
  -- The handler.
  | command (l : Letter μ) (e : TimerCommand) (todo : List TimerCommand)
      (s' : TimerApp μ σ) (hpc : s.actor.pc = .process l) (htodo : s.todo = e :: todo)
      (hexec : exec { s with todo } e = some s') : Move process s (.worker 0) s'
  -- `ActorRuntime::run`.
  | recv (l : Letter μ) (rest : List (Letter μ)) (hpc : s.actor.pc = .recv)
      (hbox : s.actor.mailbox = l :: rest) :
      Move process s (.worker 0) { s with
        actor := { s.actor with
          mailbox := rest, context := (s.actor.dispatch 0 l).context, pc := .process l
          handed := s.actor.handed ++ [s.actor.dispatch 0 l] }
        state := (process s.state s.timers.length l.envelope.msg).1
        todo := (process s.state s.timers.length l.envelope.msg).2 }
  | thread (a : Runtime μ) (events : List LifeEvent)
      (hmove : Runtime.Move 0 s.actor a events) (hsame : a.handed = s.actor.handed)
      (htodo : ∀ l, s.actor.pc = .process l → s.todo = []) :
      Move process s (.worker 0) { s with actor := a }

theorem move_of_actorStep {s s' : TimerApp μ σ} (h : s.actorStep process = some s') :
    Move process s (.worker 0) s' := by
  unfold actorStep at h
  split at h
  case h_1 hpc htodo => exact .command _ _ _ s' hpc htodo h
  case h_2 hpc htodo =>
    obtain ⟨x, hx, rfl⟩ := Option.map_eq_some_iff.mp h
    have hmove := Runtime.move_of_codeReturn (k := 0) hx
    refine .thread x.1 x.2 hmove ?_ fun _ _ => htodo
    simp only [Runtime.codeReturn, hpc, Option.some.injEq] at hx
    subst hx
    rfl
  case h_3 hpc | h_4 hpc =>
    obtain ⟨x, hx, rfl⟩ := Option.map_eq_some_iff.mp h
    have hmove := Runtime.move_of_codeReturn (k := 0) hx
    refine .thread x.1 x.2 hmove ?_ fun l hl => by simp [hl] at hpc
    simp only [Runtime.codeReturn, hpc, Option.some.injEq] at hx
    subst hx
    rfl
  case h_5 l rest hpc hbox =>
    obtain ⟨x, hx, rfl⟩ := Option.map_eq_some_iff.mp h
    simp only [Runtime.runStep, hpc, hbox, Option.some.injEq] at hx
    rw [← hx]
    exact .recv l rest hpc hbox
  case h_6 hproc hreturn hrecv =>
    obtain ⟨⟨a, events⟩, hx, rfl⟩ := Option.map_eq_some_iff.mp h
    have hmove := Runtime.move_of_runStep hx
    have hsame : a.handed = s.actor.handed := by
      cases hmove with
      | recv l rest hpc hbox => exact (hrecv l rest hpc hbox).elim
      | _ => rfl
    refine .thread a events hmove hsame fun l hl => ?_
    cases htodo : s.todo with
    | nil => rfl
    | cons e todo => exact (hproc l e todo hl htodo).elim

theorem move_of_step {s s' : TimerApp μ σ} {t : ThreadId} (h : s.step process t = some s') :
    Move process s t s' := by
  unfold step at h
  split at h
  · unfold mainStep at h
    split at h
    · rename_i hmain
      split at h
      · rename_i hflag
        rw [Option.some.injEq] at h
        exact h ▸ .ran hmain hflag
      · rename_i hflag
        rw [Option.some.injEq] at h
        exact h ▸ .poll hmain (by simpa using hflag)
    · rename_i hmain
      rw [Option.some.injEq] at h
      exact h ▸ .shutdown hmain
    · rename_i hmain
      split at h
      · rename_i hfin
        rw [Option.some.injEq] at h
        exact h ▸ .joined hmain hfin
      · simp at h
    · simp at h
  · exact move_of_actorStep h
  · rename_i k
    unfold onTimer at h
    split at h
    · simp at h
    · rename_i c t ht
      obtain ⟨t', ht', rfl⟩ := Option.map_eq_some_iff.mp h
      simp only [Machine.exec, Option.bind_eq_some_iff, Option.some.injEq,
        exists_eq_right] at ht'
      exact .timer k c t t' ht ht'
  · simp at h

/-- The invariant rule of a program. -/
theorem invariant {name : String} {state : σ} {I : TimerApp μ σ → Prop}
    (hstart : I (start name state))
    (hkeep : ∀ s t s', (machine process name state).Reachable s → I s →
      Move process s t s' → I s') {s : TimerApp μ σ}
    (h : (machine process name state).Reachable s) : I s := by
  refine h.invariant ?_ ?_
  · rintro s rfl
    exact hstart
  · intro s t s' hreach hs _ hstep
    exact hkeep s t s' hreach hs (move_of_step hstep)

end Moves

/-! ## What holds of every program -/

section Programs

variable {process} {s s' : TimerApp μ σ}

/-- How many `Timeout`s with the id were sent. -/
def sentWith (s : TimerApp μ σ) (id : UInt64) : Nat :=
  (s.timers.map fun x => if x.1.id = id then x.2.sent.length else 0).sum

/-- The actor lives and has accepted the `Timeout`s that its timers have sent. -/
structure Kept (s : TimerApp μ σ) : Prop where
  alive : s.actor.Alive
  started : s.actor.pc ≠ .parked
  inOrder : s.actor.InOrder
  selfRef : ∃ r, s.actor.context.selfRef = some (.localRef r)
  targets : ∀ x ∈ s.timers, ∃ r, x.1.target = .localRef r
  regular : ∀ x ∈ s.timers, x.2.Regular x.1
  posted : ∀ id, s.actor.accepted.countP (Letter.isTimeout id) = s.sentWith id
  resting : (∀ l, s.actor.pc ≠ .process l) → s.todo = []

/-- What a method of a timer does to the program. -/
theorem onTimer_ofCaller {k : Nat} {labels : List (TimerAction μ)}
    (hlabels : ∀ a ∈ labels, TimerSystem.ofCaller a = true)
    (h : s.onTimer k labels = some s') : ∃ c t t', s.timers[k]? = some (c, t) ∧
      Machine.exec (TimerSystem.step c) { t with actor := s.actor } labels = some t' ∧
      s' = { s with timers := s.timers.set k (c, t') } ∧ t'.sent = t.sent ∧
      t'.pc = t.pc := by
  unfold onTimer at h
  split at h
  · simp at h
  · rename_i c t ht
    obtain ⟨t', ht', rfl⟩ := Option.map_eq_some_iff.mp h
    obtain ⟨hactor, hsent, hpc⟩ := TimerSystem.exec_ofCaller hlabels ht'
    exact ⟨c, t, t', ht, ht', by rw [hactor], hsent, hpc⟩

/-- A timer is replaced, and the actor accepts what it has sent. -/
theorem sentWith_set {k : Nat} {c : TimerConfig} {t : TimerSystem μ} (t' : TimerSystem μ)
    (ht : s.timers[k]? = some (c, t)) (id : UInt64) :
    ((s.timers.set k (c, t')).map fun x : TimerConfig × TimerSystem μ =>
      if x.1.id = id then x.2.sent.length else 0).sum +
        (if c.id = id then t.sent.length else 0) =
      s.sentWith id + if c.id = id then t'.sent.length else 0 := by
  obtain ⟨rest, hsum, hset⟩ := exists_sum_map_set
    (fun x : TimerConfig × TimerSystem μ =>
      if x.1.id = id then x.2.sent.length else 0) ht
  have hnew := hset (c, t')
  simp only at hnew hsum
  rw [hnew, sentWith, hsum]
  omega

/-- A method of a timer. -/
theorem Kept.ofCaller (h : s.Kept) {k : Nat} {labels : List (TimerAction μ)}
    (hlabels : ∀ a ∈ labels, TimerSystem.ofCaller a = true) {todo : List TimerCommand}
    (hproc : ∃ l, s.actor.pc = .process l)
    (hexec : onTimer { s with todo } k labels = some s') : s'.Kept := by
  obtain ⟨c, t, t', ht, ht', rfl, hsent, -⟩ := onTimer_ofCaller hlabels hexec
  have hmem := List.mem_of_getElem? ht
  obtain ⟨r, htarget⟩ := h.targets _ hmem
  have hregular : t'.Regular c :=
    TimerSystem.regular_exec htarget ((h.regular _ hmem).target s.actor) ht'
  refine { h with
    targets := forall_mem_set h.targets ⟨r, htarget⟩
    regular := forall_mem_set h.regular hregular, posted := fun id => ?_, resting := ?_ }
  · have hsum := sentWith_set t' ht id
    rw [hsent] at hsum
    rw [h.posted id]
    exact (Nat.add_right_cancel hsum).symm
  · obtain ⟨l, hl⟩ := hproc
    exact fun hno => absurd hl (hno l)

theorem kept_start (name : String) (state : σ) : (start name state : TimerApp μ σ).Kept where
  alive := ⟨rfl, by simp [start, spawned, Runtime.new, Runtime.accept],
    by simp [start, spawned, Runtime.accept], rfl⟩
  started := by simp [start, spawned, Runtime.accept]
  inOrder := Runtime.InOrder.accept ⟨List.prefix_refl _, fun _ => rfl⟩ rfl _
  selfRef := ⟨_, rfl⟩
  targets := by simp [start]
  regular := by simp [start]
  posted id := rfl
  resting _ := rfl

/-- The mailbox takes a letter. -/
theorem Kept.accept (h : s.Kept) {l : Letter μ} {timers : List (TimerConfig × TimerSystem μ)}
    (htargets : ∀ x ∈ timers, ∃ r, x.1.target = .localRef r)
    (hregular : ∀ x ∈ timers, x.2.Regular x.1)
    (hposted : ∀ id, s.sentWith id + (if l.isTimeout id then 1 else 0) =
      (timers.map fun x => if x.1.id = id then x.2.sent.length else 0).sum)
    (main : TimerMain) :
    Kept { s with timers, actor := s.actor.accept l, main } where
  alive := ⟨h.alive.running, h.alive.holds, h.alive.inLoop⟩
  started := h.started
  inOrder := h.inOrder.accept h.alive.inLoop.2 l
  selfRef := h.selfRef
  targets := htargets
  regular := hregular
  posted id := by
    rw [sentWith, ← hposted id, ← h.posted id]
    simp only [Runtime.accept, List.countP_append, List.countP_singleton]
  resting := h.resting

theorem isTimeout_envelope {l : Letter μ} {c : TimerConfig} (h : l.envelope = c.envelope)
    (id : UInt64) : l.isTimeout id = decide (c.id = id) := by
  simp [Letter.isTimeout, h, TimerConfig.envelope, Envelope.new]

theorem kept_move {t : ThreadId} (h : s.Kept) (hmove : Move process s t s') : s'.Kept := by
  cases hmove with
  | poll => exact h
  | ran | joined => exact { h with }
  | shutdown hmain =>
    rw [h.alive.deliver]
    exact h.accept h.targets h.regular (fun id => rfl) .joining
  | timer k c t t' ht hstep =>
    have hmem := List.mem_of_getElem? ht
    obtain ⟨r, htarget⟩ := h.targets _ hmem
    have hregular : t'.Regular c :=
      TimerSystem.regular_step htarget ((h.regular _ hmem).target s.actor) hstep
    have htargets : ∀ x ∈ s.timers.set k (c, t'), ∃ r, x.1.target = .localRef r :=
      forall_mem_set h.targets ⟨r, htarget⟩
    have hregulars : ∀ x ∈ s.timers.set k (c, t'), x.2.Regular x.1 :=
      forall_mem_set h.regular hregular
    rcases TimerSystem.sent_of_timer htarget hstep with ⟨hactor, hsent⟩ |
      ⟨l, hl, hactor, hsent⟩
    · rw [hactor]
      refine { h with targets := htargets, regular := hregulars, posted := fun id => ?_ }
      have hsum := sentWith_set t' ht id
      rw [hsent] at hsum
      rw [h.posted id]
      exact (Nat.add_right_cancel hsum).symm
    · rw [hactor, h.alive.deliver]
      refine h.accept htargets hregulars (fun id => ?_) s.main
      have hsum := sentWith_set t' ht id
      rw [hsent, List.length_append, List.length_singleton] at hsum
      rw [isTimeout_envelope hl]
      by_cases hid : c.id = id
      · simp only [hid, if_true, decide_true] at hsum ⊢
        omega
      · simp only [hid, if_false, decide_false, Bool.false_eq_true] at hsum ⊢
        omega
  | command l e todo s' hpc htodo hexec =>
    cases e with
    | create kind id =>
      obtain ⟨r, hself⟩ := h.selfRef
      simp only [exec, hself, Option.map_some, Option.some.injEq] at hexec
      subst hexec
      refine { h with
        targets := forall_mem_snoc h.targets ⟨r, rfl⟩
        regular := forall_mem_snoc h.regular (TimerSystem.regular_start _ _)
        posted := fun other => ?_, resting := fun hno => absurd hpc (hno l) }
      rw [h.posted other]
      simp [sentWith, TimerSystem.start]
    | cancel k | drop k => exact h.ofCaller (by simp [TimerSystem.ofCaller]) ⟨l, hpc⟩ hexec
    | join k => exact h.ofCaller (by simp [TimerSystem.ofCaller]) ⟨l, hpc⟩ hexec
    | terminate =>
      rw [exec, Option.some.injEq] at hexec
      subst hexec
      exact { h with resting := fun hno => absurd hpc (hno l) }
  | recv l rest hpc hbox =>
    have hactor := Runtime.Move.recv (k := 0) l rest hpc hbox
    exact { h with
      alive := h.alive.move hactor, started := by simp, inOrder := h.inOrder.move hactor
      selfRef := h.selfRef, resting := fun hno => absurd rfl (hno l) }
  | thread a events hmove hsame htodo =>
    have haccepted : a.accepted = s.actor.accepted := by cases hmove <;> rfl
    have hself : a.context.selfRef = s.actor.context.selfRef := by cases hmove <;> rfl
    refine { h with
      alive := h.alive.move hmove, inOrder := h.inOrder.move hmove
      started := by cases hmove <;> simp [Runtime.finish]
      selfRef := by rw [hself]; exact h.selfRef
      posted := fun id => by rw [haccepted]; exact h.posted id, resting := fun _ => ?_ }
    by_cases hproc : ∃ l, s.actor.pc = .process l
    · obtain ⟨l, hl⟩ := hproc
      exact htodo l hl
    · exact h.resting fun l hl => hproc ⟨l, hl⟩

theorem kept {name : String} {state : σ} (h : (machine process name state).Reachable s) :
    s.Kept :=
  invariant (kept_start name state) (fun _ _ _ _ hs hmove => kept_move hs hmove) h

/-! ## At rest -/

/-- Every thread of a timer has ended. -/
theorem AtRest.timers (h : s.AtRest process) : ∀ x ∈ s.timers, x.2.pc = .done := by
  rintro ⟨c, t⟩ hmem
  obtain ⟨k, ht⟩ := List.mem_iff_getElem?.mp hmem
  have hstep : s.step process (.client k) = none := h (.client k) rfl
  rw [step, onTimer, ht] at hstep
  simp only [Option.map_eq_none_iff, Machine.exec, TimerSystem.step,
    TimerSystem.timerStep] at hstep
  cases hpc : t.pc with
  | done => rfl
  | check | sleep | test | send => simp [hpc] at hstep

/-- The actor waits for a message, unless its handler cannot go on. -/
theorem AtRest.actor (h : s.AtRest process) (hkept : s.Kept)
    (hexec : ∀ e todo, s.todo = e :: todo → exec { s with todo } e ≠ none) :
    s.actor.Waiting := by
  have hstep : s.actorStep process = none := h (.worker 0) rfl
  unfold actorStep at hstep
  split at hstep
  case h_1 hpc htodo => exact absurd hstep (hexec _ _ htodo)
  case h_2 hpc htodo => simp [Runtime.codeReturn, hpc] at hstep
  case h_3 hpc | h_4 hpc => simp [Runtime.codeReturn, hpc] at hstep
  case h_5 hpc hbox => simp [Runtime.runStep, hpc, hbox] at hstep
  case h_6 hinit hend hcommand hreturn hrecv =>
    have hlive := hkept.alive.inLoop.2
    rw [Option.map_eq_none_iff] at hstep
    cases hpc : s.actor.pc with
    | parked => exact absurd hpc hkept.started
    | spawned => simp [Runtime.runStep, hpc] at hstep
    | check => simp [Runtime.runStep, hpc, hkept.alive.running] at hstep
    | recv =>
      cases hbox : s.actor.mailbox with
      | nil => exact ⟨hpc, hbox⟩
      | cons l rest => exact (hrecv l rest hpc hbox).elim
    | process l =>
      cases htodo : s.todo with
      | nil => exact (hreturn l hpc htodo).elim
      | cons e todo => exact (hcommand l e todo hpc htodo).elim
    | initHook => exact absurd hpc hinit
    | endHook => exact absurd hpc hend
    | exited | panicked => simp [hpc, RuntimePc.finished] at hlive

/-- The main thread polls the flag, or waits for the actor. -/
theorem AtRest.main (h : s.AtRest process) : (s.main = .running ∧ s.terminateFlag = false) ∨
    s.main = .joining ∨ s.main = .returned := by
  cases hmain : s.main with
  | running =>
    cases hflag : s.terminateFlag with
    | false => exact Or.inl ⟨rfl, rfl⟩
    | true =>
      have hstep := h .main (by simp [polls, hflag])
      simp [step, mainStep, hmain, hflag] at hstep
  | ending =>
    have hstep := h .main (by simp [polls, hmain])
    simp [step, mainStep, hmain] at hstep
  | joining => exact Or.inr (Or.inl rfl)
  | returned => exact Or.inr (Or.inr rfl)

theorem atRest_of_idle (hkept : s.Kept) (hmain : s.main = .joining)
    (hwaiting : s.actor.Waiting) (hdone : ∀ x ∈ s.timers, x.2.pc = .done) :
    s.AtRest process := by
  have hholds : s.actor.senders ≠ [] := fun hnil => by
    have hholds := hkept.alive.holds
    simp [hnil] at hholds
  intro t _
  unfold step
  split
  · simp [mainStep, hmain, hwaiting.1, RuntimePc.finished]
  · simp [actorStep, Runtime.runStep, hwaiting.1, hwaiting.2, hholds]
  · rename_i k _
    cases ht : s.timers[k]? with
    | none => simp [onTimer, ht]
    | some x =>
      have hpc := hdone x (List.mem_of_getElem? ht)
      simp [onTimer, ht, Machine.exec, TimerSystem.step, TimerSystem.timerStep, hpc]
  · rfl

end Programs

end TimerApp

end Actors
