import Actors.Timer.App

/-!
# The timer program

The program of `examples/timer_example.rs`.  `TimerActor` starts a periodic timer and
a one-shot timer.  It counts the ticks, cancels and drops the periodic timer at the
tenth, drops the one-shot timer when that has fired, and terminates the manager when
both are gone.

The handler drops a timer whose thread may be about to send to the very actor that
joins it.  `Place` is where a timer stands on the way from its creation to the end of
`join`, and `Scene` is the invariant of the program.
-/

namespace Actors

open Concur

/-- The message `StartCountdown`. -/
structure StartCountdown where
  deriving DecidableEq, Repr

/-- `TimerActor`.  A `Timer` is known by its number. -/
structure TimerActor where
  periodicTimer : Option Nat
  countdownTimer : Option Nat
  tickCount : UInt32
  periodicTimerId : UInt64
  countdownTimerId : UInt64
  deriving DecidableEq, Repr

/-- A `Timer` that is dropped. -/
def dropTimer : Option Nat → List TimerCommand
  | none => []
  | some k => [.drop k, .join k]

/-- `if let Some(ref timer) = ... { timer.cancel() }`. -/
def cancelTimer : Option Nat → List TimerCommand
  | none => []
  | some k => [.cancel k]

namespace TimerActor

/-- `TimerActor::new`, on the main thread, with the ids that are left. -/
def new (ids : TimerIds) : TimerActor × TimerIds :=
  let later := ids.nextTimerId .main
  ({ periodicTimer := none, countdownTimer := none, tickCount := 0
     periodicTimerId := ids.next, countdownTimerId := later.next },
    later.nextTimerId .main)

/-- `n` is the number of the next timer. -/
def onStart (self : TimerActor) (n : Nat) : TimerActor × List TimerCommand :=
  ({ self with periodicTimer := some n, countdownTimer := some (n + 1) },
    .create .periodic self.periodicTimerId :: dropTimer self.periodicTimer ++
      .create .once self.countdownTimerId :: dropTimer self.countdownTimer)

def onTimeout (self : TimerActor) (id : UInt64) : TimerActor × List TimerCommand :=
  if id = self.periodicTimerId then
    -- An overflow wraps, as in a release build.
    let self := { self with tickCount := self.tickCount + 1 }
    if self.tickCount ≥ 10 then
      ({ self with periodicTimer := none },
        cancelTimer self.periodicTimer ++ dropTimer self.periodicTimer ++
          if self.countdownTimer.isNone then [.terminate] else [])
    else (self, [])
  else if id = self.countdownTimerId then
    ({ self with countdownTimer := none },
      dropTimer self.countdownTimer ++
        if self.periodicTimer.isNone then [.terminate] else [])
  else (self, [])

/-- The timer is dropped at the end of the handler. -/
def onStartCountdown (self : TimerActor) (n : Nat) (timerId : UInt64) :
    TimerActor × List TimerCommand :=
  (self, .create .once timerId :: dropTimer (some n))

/-- `process_message`, with `NEXT_TIMER_ID`. -/
def process (s : TimerActor × TimerIds) (n : Nat) (msg : Message StartCountdown) :
    (TimerActor × TimerIds) × List TimerCommand :=
  match msg with
  | .start => (((s.1.onStart n).1, s.2), (s.1.onStart n).2)
  | .timeout id => (((s.1.onTimeout id).1, s.2), (s.1.onTimeout id).2)
  | .user _ => (((s.1.onStartCountdown n s.2.next).1, s.2.nextTimerId (.worker 0)),
      (s.1.onStartCountdown n s.2.next).2)
  | .shutdown | .reject _ => (s, [])

end TimerActor

namespace TimerExample

/-- The state of the program. -/
abbrev Program : Type := TimerApp StartCountdown (TimerActor × TimerIds)

/-- The runs of the program.  The process has given out no ids before. -/
def machine : Machine Program ThreadId :=
  TimerApp.machine TimerActor.process "timer_actor"
    (TimerActor.new { next := 1, given := [] })

/-- The ticks that were handled. -/
def ticksSeen (s : Program) : Nat := s.actor.letters.countP (Letter.isTimeout 1)

/-- How often the one-shot timer was handled. -/
def fired (s : Program) : Nat := s.actor.letters.countP (Letter.isTimeout 2)

theorem about_other {j k : Nat} (hjk : j ≠ k) {e : TimerCommand} (h : e.about k = true) :
    e.about j = false := by
  cases e with
  | cancel i | drop i | join i =>
    have hik : i = k := by simpa [TimerCommand.about] using h
    simp [TimerCommand.about, hik, Ne.symm hjk]
  | create | terminate => rfl

theorem ne_terminate_of_about {k : Nat} {e : TimerCommand} (h : e.about k = true) :
    e ≠ .terminate := by
  intro he
  rw [he] at h
  simp [TimerCommand.about] at h

/-! ## A timer on its way -/

section Places

variable {μ σ : Type} {k : Nat} {c : TimerConfig} {t t' : TimerSystem μ}
  {todo : List TimerCommand} {slot : Option Nat}

/-- The field `slot` of the actor, what its handler has still to do, and timer `k`
fit together. -/
inductive Place (k : Nat) (t : TimerSystem μ) (todo : List TimerCommand) :
    Option Nat → Prop where
  | held (hdrop : t.drop = .owned) (hcalls : t.cancelling = []) (hrun : t.running = true)
      (hrest : ∀ e ∈ todo, e.about k = false) : Place k t todo (some k)
  | cancels (rest : List TimerCommand)
      (htodo : todo = .cancel k :: .drop k :: .join k :: rest) (hdrop : t.drop = .owned)
      (hcalls : t.cancelling = []) (hrest : ∀ e ∈ rest, e.about k = false) :
      Place k t todo none
  | drops (rest : List TimerCommand) (htodo : todo = .drop k :: .join k :: rest)
      (hdrop : t.drop = .owned) (hcalls : t.cancelling = [])
      (hrest : ∀ e ∈ rest, e.about k = false) : Place k t todo none
  | joins (rest : List TimerCommand) (htodo : todo = .join k :: rest)
      (hdrop : t.drop = .joining (.worker 0)) (hrun : t.running = false)
      (hrest : ∀ e ∈ rest, e.about k = false) : Place k t todo none
  | gone (hdrop : t.drop = .returned) (hrun : t.running = false)
      (hrest : ∀ e ∈ todo, e.about k = false) : Place k t todo none

/-- The thread of the timer does not change its place. -/
theorem Place.timer (h : Place k t todo slot) (hdrop : t'.drop = t.drop)
    (hcalls : t'.cancelling = t.cancelling) (hrun : t'.running = t.running) :
    Place k t' todo slot := by
  cases h with
  | held hd hc hr hrest => exact .held (hdrop.trans hd) (hcalls.trans hc) (hrun.trans hr) hrest
  | cancels rest htodo hd hc hrest =>
    exact .cancels rest htodo (hdrop.trans hd) (hcalls.trans hc) hrest
  | drops rest htodo hd hc hrest =>
    exact .drops rest htodo (hdrop.trans hd) (hcalls.trans hc) hrest
  | joins rest htodo hd hr hrest =>
    exact .joins rest htodo (hdrop.trans hd) (hrun.trans hr) hrest
  | gone hd hr hrest => exact .gone (hdrop.trans hd) (hrun.trans hr) hrest

theorem same_of_timer (hstep : t.step c (.timer false) = some t') :
    t'.drop = t.drop ∧ t'.cancelling = t.cancelling ∧ t'.running = t.running := by
  simp only [TimerSystem.step, TimerSystem.timerStep] at hstep
  split at hstep <;> simp only [Option.some.injEq, reduceCtorEq] at hstep <;> subst hstep
  · exact ⟨rfl, rfl, rfl⟩
  · exact ⟨rfl, rfl, rfl⟩
  · exact ⟨rfl, rfl, rfl⟩
  · unfold TimerSystem.sendTimeout
    split <;> exact ⟨rfl, rfl, rfl⟩

/-- The handler goes on with something else. -/
theorem Place.tail {e : TimerCommand} (h : Place k t (e :: todo) slot)
    (hother : e.about k = false) : Place k t todo slot := by
  cases h with
  | held hd hc hr hrest => exact .held hd hc hr (List.forall_mem_cons.mp hrest).2
  | cancels rest htodo | drops rest htodo | joins rest htodo =>
    obtain ⟨rfl, -⟩ := List.cons.inj htodo
    simp [TimerCommand.about] at hother
  | gone hd hr hrest => exact .gone hd hr (List.forall_mem_cons.mp hrest).2

/-- A handler that has something else to do. -/
theorem Place.other (h : Place k t [] slot) (htodo : ∀ e ∈ todo, e.about k = false) :
    Place k t todo slot := by
  cases h with
  | held hd hc hr => exact .held hd hc hr htodo
  | cancels rest h | drops rest h | joins rest h => simp at h
  | gone hd hr => exact .gone hd hr htodo

/-- `cancel` in the handler. -/
theorem exec_cancel (hcall : t.canCall (.worker 0) = true) (hdrop : t.drop = .owned)
    (hcalls : t.cancelling = []) : ∃ t' : TimerSystem μ,
      Machine.exec (TimerSystem.step c) t
        [.cancelStore (.worker 0), .cancelReturn (.worker 0)] = some t' ∧
      t'.drop = .owned ∧ t'.cancelling = [] :=
  ⟨{ TimerSystem.markCancel { t with running := false, cancelling := [.worker 0] } with
      cancelling := [] }, by simp [Machine.exec, TimerSystem.step, hcall, hdrop, hcalls,
        TimerSystem.markCancel], hdrop, rfl⟩

/-- `drop` in the handler, up to `join`. -/
theorem exec_drop (hcall : t.canCall (.worker 0) = true) (hdrop : t.drop = .owned)
    (hcalls : t.cancelling = []) : ∃ t' : TimerSystem μ,
      Machine.exec (TimerSystem.step c) t
        [.dropCall (.worker 0), .dropStore, .dropCancelReturn] = some t' ∧
      t'.drop = .joining (.worker 0) ∧ t'.running = false :=
  ⟨{ TimerSystem.markCancel { t with running := false } with
      drop := .joining (.worker 0) }, by simp [Machine.exec, TimerSystem.step,
        TimerSystem.dropStep, hcall, hdrop, hcalls, TimerSystem.markCancel], rfl, rfl⟩

/-- `join` in the handler, when the thread has ended. -/
theorem exec_join (hdrop : t.drop = .joining (.worker 0)) (hpc : t.pc = .done) :
    ∃ t' : TimerSystem μ, Machine.exec (TimerSystem.step c) t [.join] = some t' ∧
      t'.drop = .returned ∧ t'.running = t.running :=
  ⟨{ t with drop := .returned, dropMark := some t.sent.length }, by
    simp [Machine.exec, TimerSystem.step, TimerSystem.dropStep, hdrop, hpc], rfl, rfl⟩

/-- A handler cancels and drops the timer that the field holds, if any. -/
theorem Place.cancelled (h : Place k t [] slot) (hrest : ∀ e ∈ todo, e.about k = false) :
    Place k t (cancelTimer slot ++ dropTimer slot ++ todo) none := by
  cases h with
  | held hd hc hr => exact .cancels todo rfl hd hc hrest
  | cancels rest h | drops rest h | joins rest h => simp at h
  | gone hd hr => exact .gone hd hr hrest

/-- A handler drops the timer that the field holds, if any. -/
theorem Place.dropped (h : Place k t [] slot) (hrest : ∀ e ∈ todo, e.about k = false) :
    Place k t (dropTimer slot ++ todo) none := by
  cases h with
  | held hd hc hr => exact .drops todo rfl hd hc hrest
  | cancels rest h | drops rest h | joins rest h => simp at h
  | gone hd hr => exact .gone hd hr hrest

/-- What a handler does with the field is about the timer. -/
theorem Place.about (h : Place k t [] slot) :
    ∀ e ∈ cancelTimer slot ++ dropTimer slot, e.about k = true := by
  cases h with
  | held => simp [cancelTimer, dropTimer, TimerCommand.about]
  | cancels rest h | drops rest h | joins rest h => simp at h
  | gone => simp [cancelTimer, dropTimer]

variable (σ) in
/-- A command about the timer takes it to its next place. -/
theorem Place.exec {e : TimerCommand} {x : Letter μ} (h : Place k t (e :: todo) slot)
    (habout : e.about k = true) (hproc : t.actor.pc = .process x)
    (hdone : e = .join k → t.pc = .done) : ∃ labels t',
      (∀ s : TimerApp μ σ, TimerApp.exec s e = s.onTimer k labels) ∧
      (∀ a ∈ labels, TimerSystem.ofCaller a = true) ∧
      Machine.exec (TimerSystem.step c) t labels = some t' ∧ Place k t' todo slot := by
  have hcall : t.canCall (.worker 0) = true := by
    simp [TimerSystem.canCall, hproc, RuntimePc.inCode]
  cases h with
  | held hd hc hr hrest =>
    have hnot := (List.forall_mem_cons.mp hrest).1
    simp [habout] at hnot
  | cancels rest htodo hd hc hrest =>
    obtain ⟨rfl, rfl⟩ := List.cons.inj htodo
    obtain ⟨t', ht', hd', hc'⟩ := exec_cancel (c := c) hcall hd hc
    exact ⟨_, t', fun _ => rfl, by simp [TimerSystem.ofCaller], ht', .drops rest rfl hd' hc' hrest⟩
  | drops rest htodo hd hc hrest =>
    obtain ⟨rfl, rfl⟩ := List.cons.inj htodo
    obtain ⟨t', ht', hd', hr'⟩ := exec_drop (c := c) hcall hd hc
    exact ⟨_, t', fun _ => rfl, by simp [TimerSystem.ofCaller], ht', .joins rest rfl hd' hr' hrest⟩
  | joins rest htodo hd hr hrest =>
    obtain ⟨rfl, rfl⟩ := List.cons.inj htodo
    obtain ⟨t', ht', hd', hr'⟩ := exec_join (c := c) hd (hdone rfl)
    exact ⟨_, t', fun _ => rfl, by simp [TimerSystem.ofCaller], ht',
      .gone hd' (hr'.trans hr) hrest⟩
  | gone hd hr hrest =>
    have hnot := (List.forall_mem_cons.mp hrest).1
    simp [habout] at hnot

end Places

/-! ## The invariant -/

/-- What can come after `Start`. -/
def Expected (l : Letter StartCountdown) : Prop :=
  l.envelope.msg = .timeout 1 ∨ l.envelope.msg = .timeout 2 ∨ l.envelope.msg = .shutdown

/-- Both timers are there. -/
structure Ready (s : Program) (x0 x1 : TimerConfig × TimerSystem StartCountdown) :
    Prop where
  timers : s.timers = [x0, x1]
  kinds : x0.1.kind = .periodic ∧ x1.1.kind = .once
  ids : x0.1.id = 1 ∧ x1.1.id = 2
  taken : s.actor.letters ≠ []
  /-- The handler makes no other timer. -/
  plain : ∀ e ∈ s.todo, e = .terminate ∨ e.about 0 = true ∨ e.about 1 = true
  periodic : Place 0 x0.2 s.todo s.state.1.periodicTimer
  countdown : Place 1 x1.2 s.todo s.state.1.countdownTimer
  ticked : s.state.1.periodicTimer = none ↔ 10 ≤ ticksSeen s
  rung : s.state.1.countdownTimer = none ↔ 1 ≤ fired s
  ends : s.terminateFlag = true ∨ .terminate ∈ s.todo ↔
    s.state.1.periodicTimer = none ∧ s.state.1.countdownTimer = none

/-- In `on_start`. -/
structure Starting (s : Program) : Prop where
  taken : s.actor.letters ≠ []
  none : ticksSeen s = 0 ∧ fired s = 0
  fields : s.state.1.periodicTimer = some 0 ∧ s.state.1.countdownTimer = some 1
  flag : s.terminateFlag = false

/-- How far `on_start` has come. -/
inductive Stage (s : Program) : Prop where
  | fresh (htaken : s.actor.letters = []) (htimers : s.timers = []) (htodo : s.todo = [])
      (hfields : s.state.1.periodicTimer = none ∧ s.state.1.countdownTimer = none)
      (hflag : s.terminateFlag = false)
  | first (h : Starting s) (htimers : s.timers = [])
      (htodo : s.todo = [.create .periodic 1, .create .once 2])
  | second (h : Starting s) (x0 : TimerConfig × TimerSystem StartCountdown)
      (htimers : s.timers = [x0]) (hkind : x0.1.kind = .periodic) (hid : x0.1.id = 1)
      (hplace : Place 0 x0.2 [] (some 0)) (htodo : s.todo = [.create .once 2])
  | ready (x0 x1 : TimerConfig × TimerSystem StartCountdown) (h : Ready s x0 x1)

/-- The invariant. -/
structure Scene (s : Program) : Prop where
  ids : s.state.1.periodicTimerId = 1 ∧ s.state.1.countdownTimerId = 2
  counted : s.state.1.tickCount = UInt32.ofNat (ticksSeen s)
  accepted : ∃ l rest, s.actor.accepted = l :: rest ∧ l.envelope.msg = .start ∧
    ∀ l ∈ rest, Expected l
  main : s.main ≠ .returned ∧ (s.main ≠ .running → s.terminateFlag = true)
  stage : Stage s

section Steps

variable {s s' : Program}

theorem ticksSeen_congr (h : s'.actor.letters = s.actor.letters) :
    ticksSeen s' = ticksSeen s := by
  rw [ticksSeen, h, ticksSeen]

theorem fired_congr (h : s'.actor.letters = s.actor.letters) : fired s' = fired s := by
  rw [fired, h, fired]

theorem Ready.frame {x0 x1 y0 y1 : TimerConfig × TimerSystem StartCountdown}
    (h : Ready s x0 x1) (hstate : s'.state = s.state) (htodo : s'.todo = s.todo)
    (hflag : s'.terminateFlag = s.terminateFlag)
    (hletters : s'.actor.letters = s.actor.letters) (htimers : s'.timers = [y0, y1])
    (hconfigs : y0.1 = x0.1 ∧ y1.1 = x1.1)
    (hperiodic : Place 0 y0.2 s.todo s.state.1.periodicTimer)
    (hcountdown : Place 1 y1.2 s.todo s.state.1.countdownTimer) : Ready s' y0 y1 where
  timers := htimers
  kinds := by rw [hconfigs.1, hconfigs.2]; exact h.kinds
  ids := by rw [hconfigs.1, hconfigs.2]; exact h.ids
  taken := by rw [hletters]; exact h.taken
  plain := by rw [htodo]; exact h.plain
  periodic := by rw [htodo, hstate]; exact hperiodic
  countdown := by rw [htodo, hstate]; exact hcountdown
  ticked := by rw [hstate, ticksSeen_congr hletters]; exact h.ticked
  rung := by rw [hstate, fired_congr hletters]; exact h.rung
  ends := by rw [hflag, htodo, hstate]; exact h.ends

theorem Starting.frame (h : Starting s) (hstate : s'.state = s.state)
    (hflag : s'.terminateFlag = s.terminateFlag)
    (hletters : s'.actor.letters = s.actor.letters) : Starting s' where
  taken := by rw [hletters]; exact h.taken
  none := by rw [ticksSeen_congr hletters, fired_congr hletters]; exact h.none
  fields := by rw [hstate]; exact h.fields
  flag := by rw [hflag]; exact h.flag

/-- A step outside of the handlers. -/
theorem Stage.frame (h : Stage s) (hstate : s'.state = s.state) (htodo : s'.todo = s.todo)
    (hflag : s'.terminateFlag = s.terminateFlag)
    (hletters : s'.actor.letters = s.actor.letters) (htimers : s'.timers = s.timers) :
    Stage s' := by
  cases h with
  | fresh htaken hnone hdo hfields hf =>
    exact .fresh (hletters.trans htaken) (htimers.trans hnone) (htodo.trans hdo)
      (by rw [hstate]; exact hfields) (hflag.trans hf)
  | first h hnone hdo =>
    exact .first (h.frame hstate hflag hletters) (htimers.trans hnone) (htodo.trans hdo)
  | second h x0 hone hkind hid hplace hdo =>
    exact .second (h.frame hstate hflag hletters) x0 (htimers.trans hone) hkind hid hplace
      (htodo.trans hdo)
  | ready x0 x1 h =>
    exact .ready x0 x1 (h.frame hstate htodo hflag hletters (htimers.trans h.timers)
      ⟨rfl, rfl⟩ h.periodic h.countdown)

theorem Stage.known (h : Stage s) : ∀ x ∈ s.timers, x.1.id = 1 ∨ x.1.id = 2 := by
  cases h with
  | fresh _ hnone | first _ hnone => simp [hnone]
  | second _ x0 hone _ hid => simp [hone, hid]
  | ready x0 x1 h => simp [h.timers, h.ids]

/-- A step of the thread of a timer. -/
theorem Stage.timer (h : Stage s) {k : Nat} {c : TimerConfig}
    {t t' : TimerSystem StartCountdown} (ht : s.timers[k]? = some (c, t))
    (hsame : t'.drop = t.drop ∧ t'.cancelling = t.cancelling ∧ t'.running = t.running)
    (hstate : s'.state = s.state) (htodo : s'.todo = s.todo)
    (hflag : s'.terminateFlag = s.terminateFlag)
    (hletters : s'.actor.letters = s.actor.letters)
    (htimers : s'.timers = s.timers.set k (c, t')) : Stage s' := by
  obtain ⟨hdrop, hcalls, hrun⟩ := hsame
  cases h with
  | fresh htaken hnone | first h hnone => simp [hnone] at ht
  | second h x0 hone hkind hid hplace hdo =>
    cases k with
    | succ k => simp [hone] at ht
    | zero =>
      obtain rfl : x0 = (c, t) := by simpa [hone] using ht
      exact .second (h.frame hstate hflag hletters) (c, t') (by simp [htimers, hone]) hkind
        hid (hplace.timer hdrop hcalls hrun) (htodo.trans hdo)
  | ready x0 x1 h =>
    rw [h.timers] at ht htimers
    cases k with
    | zero =>
      obtain rfl : x0 = (c, t) := by simpa using ht
      exact .ready (c, t') x1 (h.frame hstate htodo hflag hletters htimers ⟨rfl, rfl⟩
        (h.periodic.timer hdrop hcalls hrun) h.countdown)
    | succ k =>
      cases k with
      | zero =>
        obtain rfl : x1 = (c, t) := by simpa using ht
        exact .ready x0 (c, t') (h.frame hstate htodo hflag hletters htimers ⟨rfl, rfl⟩
          h.periodic (h.countdown.timer hdrop hcalls hrun))
      | succ k => simp at ht

theorem done_of_join {t t' : TimerSystem StartCountdown} {c : TimerConfig}
    (h : Machine.exec (TimerSystem.step c) t [.join] = some t') : t.pc = .done := by
  simp only [Machine.exec, TimerSystem.step, TimerSystem.dropStep, Option.bind_eq_some_iff] at h
  obtain ⟨t1, h, -⟩ := h
  split at h
  · split at h
    · assumption
    · simp at h
  · simp at h

/-- A command of the handler about timer `k`. -/
theorem Place.run {k : Nat} {c : TimerConfig} {t : TimerSystem StartCountdown}
    {e : TimerCommand} {todo : List TimerCommand} {slot : Option Nat}
    {l : Letter StartCountdown} (h : Place k t (e :: todo) slot) (habout : e.about k = true)
    (hpc : s.actor.pc = .process l) (ht : s.timers[k]? = some (c, t))
    (hexec : TimerApp.exec s e = some s') :
    ∃ t', s' = { s with timers := s.timers.set k (c, t') } ∧ Place k t' todo slot := by
  have hplace : Place k { t with actor := s.actor } (e :: todo) slot := h.timer rfl rfl rfl
  obtain ⟨labels, t', hlabels, hcaller, ht', hplace⟩ :=
    hplace.exec (TimerActor × TimerIds) (c := c) habout hpc fun he => by
      subst he
      rw [TimerApp.exec, TimerApp.onTimer, ht] at hexec
      obtain ⟨t', ht', -⟩ := Option.map_eq_some_iff.mp hexec
      exact done_of_join ht'
  have hactor := (TimerSystem.exec_ofCaller hcaller ht').1
  rw [hlabels, TimerApp.onTimer, ht] at hexec
  simp only [ht', Option.map_some, Option.some.injEq] at hexec
  exact ⟨t', by rw [← hexec, hactor], hplace⟩

theorem terminate_mem_tail {e : TimerCommand} {todo : List TimerCommand}
    (he : e ≠ .terminate) : .terminate ∈ e :: todo ↔ .terminate ∈ todo := by
  rw [List.mem_cons, or_iff_right (Ne.symm he)]

/-- A command of the handler, when both timers are there. -/
theorem Ready.command {x0 x1 : TimerConfig × TimerSystem StartCountdown}
    (h : Ready s x0 x1) {l : Letter StartCountdown} {e : TimerCommand}
    {todo : List TimerCommand} (hpc : s.actor.pc = .process l) (htodo : s.todo = e :: todo)
    (hexec : TimerApp.exec { s with todo } e = some s') : Stage s' := by
  have hplain := h.plain
  rw [htodo] at hplain
  obtain ⟨he, hrest⟩ := List.forall_mem_cons.mp hplain
  have hperiodic := h.periodic
  have hcountdown := h.countdown
  have hends := h.ends
  rw [htodo] at hperiodic hcountdown hends
  rcases he with rfl | he | he
  · rw [TimerApp.exec, Option.some.injEq] at hexec
    subst hexec
    have hnone := hends.mp (Or.inr (List.mem_cons_self ..))
    exact .ready x0 x1 { h with
      plain := hrest, periodic := hperiodic.tail rfl, countdown := hcountdown.tail rfl
      ends := ⟨fun _ => hnone, fun _ => Or.inl rfl⟩ }
  · have hne := ne_terminate_of_about he
    have hother : e.about 1 = false := about_other (by decide) he
    obtain ⟨t', rfl, hplace⟩ := hperiodic.run (s := { s with todo }) (c := x0.1) he hpc
      (by simp [h.timers]) hexec
    rw [terminate_mem_tail hne] at hends
    exact .ready (x0.1, t') x1 { h with
      timers := by simp [h.timers], plain := hrest, periodic := hplace
      countdown := hcountdown.tail hother, ends := hends }
  · have hne := ne_terminate_of_about he
    have hother : e.about 0 = false := about_other (by decide) he
    obtain ⟨t', rfl, hplace⟩ := hcountdown.run (s := { s with todo }) (c := x1.1) he hpc
      (by simp [h.timers]) hexec
    rw [terminate_mem_tail hne] at hends
    exact .ready x0 (x1.1, t') { h with
      timers := by simp [h.timers], plain := hrest, periodic := hperiodic.tail hother
      countdown := hplace, ends := hends }

/-! ## The handlers -/

theorem ticksSeen_recv {l : Letter StartCountdown}
    (h : s'.actor.letters = s.actor.letters ++ [l]) :
    ticksSeen s' = ticksSeen s + if l.isTimeout 1 then 1 else 0 := by
  rw [ticksSeen, h, List.countP_append, List.countP_singleton, ticksSeen]

theorem fired_recv {l : Letter StartCountdown}
    (h : s'.actor.letters = s.actor.letters ++ [l]) :
    fired s' = fired s + if l.isTimeout 2 then 1 else 0 := by
  rw [fired, h, List.countP_append, List.countP_singleton, fired]

theorem ten_le_ofNat {n : Nat} (h : (10 : UInt32) ≤ UInt32.ofNat n) : 10 ≤ n := by
  rw [UInt32.le_iff_toNat_le, UInt32.toNat_ofNat'] at h
  exact h.trans (Nat.mod_le ..)

/-- `terminate` at the end of `on_timeout`. -/
theorem mem_ending {o : Option Nat} {e : TimerCommand} :
    e ∈ (if o.isNone then [TimerCommand.terminate] else []) ↔ e = .terminate ∧ o = none := by
  cases o <;> simp

theorem about_ending {o : Option Nat} (k : Nat) :
    ∀ e ∈ (if o.isNone then [TimerCommand.terminate] else []), e.about k = false := by
  intro e he
  rw [(mem_ending.mp he).1]
  rfl

/-- What a handler does at the end of a timer. -/
theorem mem_leave {k : Nat} {t : TimerSystem StartCountdown} {slot o : Option Nat}
    (h : Place k t [] slot) {cmds : List TimerCommand}
    (hcmds : ∀ e ∈ cmds, e ∈ cancelTimer slot ++ dropTimer slot) {e : TimerCommand}
    (he : e ∈ cmds ++ if o.isNone then [TimerCommand.terminate] else []) :
    e.about k = true ∨ e = .terminate ∧ o = none := by
  rcases List.mem_append.mp he with he | he
  · exact Or.inl (h.about e (hcmds e he))
  · exact Or.inr (mem_ending.mp he)

theorem terminate_mem_leave {k : Nat} {t : TimerSystem StartCountdown} {slot o : Option Nat}
    (h : Place k t [] slot) {cmds : List TimerCommand}
    (hcmds : ∀ e ∈ cmds, e ∈ cancelTimer slot ++ dropTimer slot) :
    .terminate ∈ cmds ++ (if o.isNone then [TimerCommand.terminate] else []) ↔ o = none := by
  constructor
  · intro he
    rcases mem_leave h hcmds he with he | he
    · exact absurd rfl (ne_terminate_of_about he)
    · exact he.2
  · intro ho
    exact List.mem_append_right _ (mem_ending.mpr ⟨rfl, ho⟩)

/-- A handler that leaves the timers alone. -/
theorem Ready.quiet {x0 x1 : TimerConfig × TimerSystem StartCountdown} (h : Ready s x0 x1)
    (hidle : s.todo = [])
    (hfields : s'.state.1.periodicTimer = s.state.1.periodicTimer ∧
      s'.state.1.countdownTimer = s.state.1.countdownTimer)
    (htodo : s'.todo = []) (htimers : s'.timers = s.timers)
    (hflag : s'.terminateFlag = s.terminateFlag) (htaken : s'.actor.letters ≠ [])
    (hticked : s.state.1.periodicTimer = none ↔ 10 ≤ ticksSeen s')
    (hfired : fired s' = fired s) : Ready s' x0 x1 := by
  obtain ⟨hfirst, hsecond⟩ := hfields
  have hperiodic := h.periodic
  have hcountdown := h.countdown
  have hends := h.ends
  rw [hidle] at hperiodic hcountdown hends
  exact {
    timers := htimers.trans h.timers, kinds := h.kinds, ids := h.ids, taken := htaken
    plain := by simp [htodo], periodic := by rw [htodo, hfirst]; exact hperiodic
    countdown := by rw [htodo, hsecond]; exact hcountdown
    ticked := by rw [hfirst]; exact hticked
    rung := by rw [hsecond, hfired]; exact h.rung
    ends := by rw [hflag, htodo, hfirst, hsecond]; exact hends }

/-- `on_timeout`, for a tick. -/
theorem Ready.tick {x0 x1 : TimerConfig × TimerSystem StartCountdown} (h : Ready s x0 x1)
    (hidle : s.todo = []) (hid : s.state.1.periodicTimerId = 1)
    (hcounted : s.state.1.tickCount = UInt32.ofNat (ticksSeen s))
    (hstate : s'.state.1 = (s.state.1.onTimeout 1).1)
    (htodo : s'.todo = (s.state.1.onTimeout 1).2) (htimers : s'.timers = s.timers)
    (hflag : s'.terminateFlag = s.terminateFlag) (htaken : s'.actor.letters ≠ [])
    (hticks : ticksSeen s' = ticksSeen s + 1) (hfired : fired s' = fired s) :
    Ready s' x0 x1 ∧ s'.state.1.tickCount = UInt32.ofNat (ticksSeen s') := by
  have hcount : s.state.1.tickCount + 1 = UInt32.ofNat (ticksSeen s + 1) := by
    rw [hcounted, UInt32.ofNat_add]
    rfl
  have hperiodic := h.periodic
  have hcountdown := h.countdown
  have hends := h.ends
  rw [hidle] at hperiodic hcountdown hends
  simp only [TimerActor.onTimeout, hid, if_true] at hstate htodo
  by_cases hten : s.state.1.tickCount + 1 ≥ 10
  · have hle : 10 ≤ ticksSeen s + 1 := ten_le_ofNat (hcount ▸ hten)
    simp only [hten, if_true] at hstate htodo
    refine ⟨{
      timers := htimers.trans h.timers, kinds := h.kinds, ids := h.ids, taken := htaken
      plain := ?_, periodic := ?_, countdown := ?_, ticked := ?_, rung := ?_, ends := ?_ }, ?_⟩
    · intro e he
      rw [htodo] at he
      rcases mem_leave hperiodic (fun _ he => he) he with he | he
      · exact Or.inr (Or.inl he)
      · exact Or.inl he.1
    · rw [htodo, hstate]
      exact hperiodic.cancelled (about_ending 0)
    · rw [htodo, hstate]
      refine hcountdown.other fun e he => ?_
      rcases mem_leave hperiodic (fun _ he => he) he with he | he
      · exact about_other (by decide) he
      · rw [he.1]
        rfl
    · rw [hstate, hticks]
      exact iff_of_true rfl hle
    · rw [hstate, hfired]
      exact h.rung
    · rw [hflag, htodo, hstate, terminate_mem_leave hperiodic fun _ he => he]
      refine ⟨?_, fun hnone => Or.inr hnone.2⟩
      rintro (hset | hnone)
      · exact ⟨rfl, (hends.mp (Or.inl hset)).2⟩
      · exact ⟨rfl, hnone⟩
    · rw [hstate, hticks]
      exact hcount
  · -- The tenth tick cannot come here.
    have hnine : ticksSeen s ≠ 9 := by
      intro hnine
      rw [hcount, hnine] at hten
      exact hten (by decide)
    simp only [hten, if_false] at hstate htodo
    refine ⟨h.quiet hidle ⟨by rw [hstate], by rw [hstate]⟩ htodo htimers hflag htaken ?_ hfired,
      by rw [hstate, hticks]; exact hcount⟩
    rw [h.ticked, hticks]
    omega

/-- `on_timeout`, for the one-shot timer. -/
theorem Ready.ring {x0 x1 : TimerConfig × TimerSystem StartCountdown} (h : Ready s x0 x1)
    (hidle : s.todo = [])
    (hids : s.state.1.periodicTimerId = 1 ∧ s.state.1.countdownTimerId = 2)
    (hcounted : s.state.1.tickCount = UInt32.ofNat (ticksSeen s))
    (hstate : s'.state.1 = (s.state.1.onTimeout 2).1)
    (htodo : s'.todo = (s.state.1.onTimeout 2).2) (htimers : s'.timers = s.timers)
    (hflag : s'.terminateFlag = s.terminateFlag) (htaken : s'.actor.letters ≠ [])
    (hticks : ticksSeen s' = ticksSeen s) (hfired : fired s' = fired s + 1) :
    Ready s' x0 x1 ∧ s'.state.1.tickCount = UInt32.ofNat (ticksSeen s') := by
  have hperiodic := h.periodic
  have hcountdown := h.countdown
  have hends := h.ends
  rw [hidle] at hperiodic hcountdown hends
  have hne : ¬ (2 : UInt64) = 1 := by decide
  simp only [TimerActor.onTimeout, hids.1, hids.2, hne, if_false, if_true] at hstate htodo
  have hdrop : ∀ e ∈ dropTimer s.state.1.countdownTimer,
      e ∈ cancelTimer s.state.1.countdownTimer ++ dropTimer s.state.1.countdownTimer :=
    fun _ he => List.mem_append_right _ he
  refine ⟨{
    timers := htimers.trans h.timers, kinds := h.kinds, ids := h.ids, taken := htaken
    plain := ?_, periodic := ?_, countdown := ?_, ticked := ?_, rung := ?_, ends := ?_ }, ?_⟩
  · intro e he
    rw [htodo] at he
    rcases mem_leave hcountdown hdrop he with he | he
    · exact Or.inr (Or.inr he)
    · exact Or.inl he.1
  · rw [htodo, hstate]
    refine hperiodic.other fun e he => ?_
    rcases mem_leave hcountdown hdrop he with he | he
    · exact about_other (by decide) he
    · rw [he.1]
      rfl
  · rw [htodo, hstate]
    exact hcountdown.dropped (about_ending 1)
  · rw [hstate, hticks]
    exact h.ticked
  · rw [hstate, hfired]
    exact iff_of_true rfl (Nat.le_add_left ..)
  · rw [hflag, htodo, hstate, terminate_mem_leave hcountdown hdrop]
    refine ⟨?_, fun hnone => Or.inr hnone.1⟩
    rintro (hset | hnone)
    · exact ⟨(hends.mp (Or.inl hset)).1, rfl⟩
    · exact ⟨hnone, rfl⟩
  · rw [hstate, hticks]
    exact hcounted

/-- `on_start`. -/
theorem starting_of_start {l : Letter StartCountdown} (hmsg : l.envelope.msg = .start)
    (htaken : s.actor.letters = []) (hnone : s.timers = [])
    (hfields : s.state.1.periodicTimer = none ∧ s.state.1.countdownTimer = none)
    (hids : s.state.1.periodicTimerId = 1 ∧ s.state.1.countdownTimerId = 2)
    (hoff : s.terminateFlag = false)
    (hstate : s'.state = (TimerActor.process s.state s.timers.length l.envelope.msg).1)
    (htodo : s'.todo = (TimerActor.process s.state s.timers.length l.envelope.msg).2)
    (hflag : s'.terminateFlag = s.terminateFlag)
    (hletters : s'.actor.letters = s.actor.letters ++ [l]) :
    Starting s' ∧ s'.todo = [.create .periodic 1, .create .once 2] ∧
      s'.state.1.tickCount = s.state.1.tickCount ∧ ticksSeen s' = ticksSeen s := by
  have hsilent : ∀ id, l.isTimeout id = false := fun id => by simp [Letter.isTimeout, hmsg]
  have hticks := ticksSeen_recv hletters
  have hfired := fired_recv hletters
  rw [hsilent] at hticks hfired
  simp only [hmsg, TimerActor.process, TimerActor.onStart, hnone, hfields.1, hfields.2,
    hids.1, hids.2, List.length_nil, dropTimer] at hstate htodo
  refine ⟨⟨by simp [hletters], ⟨?_, ?_⟩, by simp [hstate], hflag.trans hoff⟩, htodo,
    by simp [hstate], by simpa using hticks⟩
  · rw [hticks, ticksSeen, htaken]
    rfl
  · rw [hfired, fired, htaken]
    rfl

/-- The first letter is `Start`, and only the first. -/
theorem Scene.next (h : Scene s) (hkept : s.Kept) {l : Letter StartCountdown}
    {rest : List (Letter StartCountdown)} (hpc : s.actor.pc = .recv)
    (hbox : s.actor.mailbox = l :: rest) :
    (s.actor.letters = [] ∧ l.envelope.msg = .start) ∨
      (s.actor.letters ≠ [] ∧ Expected l) := by
  have hall := hkept.inOrder.rest (by rw [hpc]; rfl)
  obtain ⟨first, others, haccepted, hstart, hothers⟩ := h.accepted
  rw [haccepted, hbox] at hall
  cases hletters : s.actor.letters with
  | nil =>
    rw [hletters, List.nil_append, List.cons.injEq] at hall
    exact Or.inl ⟨rfl, hall.1 ▸ hstart⟩
  | cons x xs =>
    rw [hletters, List.cons_append, List.cons.injEq] at hall
    refine Or.inr ⟨by simp, hothers l ?_⟩
    simp [hall.2]

theorem process_ids (state : TimerActor × TimerIds) (n : Nat)
    (msg : Message StartCountdown) :
    (TimerActor.process state n msg).1.1.periodicTimerId = state.1.periodicTimerId ∧
      (TimerActor.process state n msg).1.1.countdownTimerId = state.1.countdownTimerId := by
  cases msg with
  | timeout id =>
    simp only [TimerActor.process, TimerActor.onTimeout]
    split
    · split <;> exact ⟨rfl, rfl⟩
    · split <;> exact ⟨rfl, rfl⟩
  | start | shutdown | reject | user => exact ⟨rfl, rfl⟩

/-- The stage after the actor has taken a letter. -/
theorem Scene.stage_of_recv (h : Scene s) (hkept : s.Kept) {l : Letter StartCountdown}
    {rest : List (Letter StartCountdown)} (hpc : s.actor.pc = .recv)
    (hbox : s.actor.mailbox = l :: rest)
    (hstate : s'.state = (TimerActor.process s.state s.timers.length l.envelope.msg).1)
    (htodo : s'.todo = (TimerActor.process s.state s.timers.length l.envelope.msg).2)
    (htimers : s'.timers = s.timers) (hflag : s'.terminateFlag = s.terminateFlag)
    (hletters : s'.actor.letters = s.actor.letters ++ [l]) :
    Stage s' ∧ s'.state.1.tickCount = UInt32.ofNat (ticksSeen s') := by
  have hidle : s.todo = [] := hkept.resting fun l hl => by simp [hpc] at hl
  have htaken : s'.actor.letters ≠ [] := by simp [hletters]
  have hticks := ticksSeen_recv hletters
  have hfired := fired_recv hletters
  rcases h.next hkept hpc hbox with ⟨hnone, hmsg⟩ | ⟨hsome, hmsg⟩
  · cases h.stage with
    | fresh _ hempty hdo hfields hoff =>
      obtain ⟨hstarting, hcreate, hcount, hsame⟩ := starting_of_start hmsg hnone hempty
        hfields h.ids hoff hstate htodo hflag hletters
      refine ⟨.first hstarting (htimers.trans hempty) hcreate, ?_⟩
      rw [hcount, hsame]
      exact h.counted
    | first hstarting | second hstarting => exact absurd hnone hstarting.taken
    | ready x0 x1 hready => exact absurd hnone hready.taken
  · cases h.stage with
    | fresh hnone => exact absurd hnone hsome
    | first _ _ hdo | second _ _ _ _ _ _ hdo => simp [hidle] at hdo
    | ready x0 x1 hready =>
      rcases hmsg with hmsg | hmsg | hmsg <;>
        simp only [hmsg, TimerActor.process] at hstate htodo <;>
        simp only [Letter.isTimeout, hmsg] at hticks hfired
      · obtain ⟨hready, hcount⟩ := hready.tick hidle h.ids.1 h.counted (by rw [hstate]) htodo
          htimers hflag htaken (by simpa using hticks) (by simpa using hfired)
        exact ⟨.ready x0 x1 hready, hcount⟩
      · obtain ⟨hready, hcount⟩ := hready.ring hidle h.ids h.counted (by rw [hstate]) htodo
          htimers hflag htaken (by simpa using hticks) (by simpa using hfired)
        exact ⟨.ready x0 x1 hready, hcount⟩
      · have hsame : ticksSeen s' = ticksSeen s := by simpa using hticks
        refine ⟨.ready x0 x1 (hready.quiet hidle (by simp [hstate]) htodo htimers hflag
          htaken (by rw [hsame]; exact hready.ticked) (by simpa using hfired)), ?_⟩
        rw [hstate, hsame]
        exact h.counted

/-- The actor takes a letter. -/
theorem Scene.recv (h : Scene s) (hkept : s.Kept) {l : Letter StartCountdown}
    {rest : List (Letter StartCountdown)} (hpc : s.actor.pc = .recv)
    (hbox : s.actor.mailbox = l :: rest)
    (hstate : s'.state = (TimerActor.process s.state s.timers.length l.envelope.msg).1)
    (htodo : s'.todo = (TimerActor.process s.state s.timers.length l.envelope.msg).2)
    (htimers : s'.timers = s.timers) (hflag : s'.terminateFlag = s.terminateFlag)
    (hletters : s'.actor.letters = s.actor.letters ++ [l]) (hmain : s'.main = s.main)
    (haccepted : s'.actor.accepted = s.actor.accepted) : Scene s' := by
  obtain ⟨hstage, hcount⟩ :=
    h.stage_of_recv hkept hpc hbox hstate htodo htimers hflag hletters
  have hids := process_ids s.state s.timers.length l.envelope.msg
  exact {
    ids := by rw [hstate]; exact ⟨hids.1.trans h.ids.1, hids.2.trans h.ids.2⟩
    counted := hcount, accepted := by rw [haccepted]; exact h.accepted
    main := by rw [hmain, hflag]; exact h.main
    stage := hstage }

end Steps

end TimerExample

end Actors
