import Actors.Timer.Example

/-!
# The timer program comes to its end

Every step of the program keeps `Scene`.  When no thread can go on, the handler is not
in a `join`: `exec_ne_none` tells that it can go on once the threads of the timers have
ended, and these wait for nobody.  What is left is the state in which both timers are
gone (`timers_run_out`).
-/

namespace Actors

open Concur

namespace TimerExample

section Steps

variable {s s' : Program}

/-! ## One step -/

/-- A command of the handler leaves the actor's fields and its mailbox alone. -/
theorem exec_frame {e : TimerCommand} (h : TimerApp.exec s e = some s') :
    s'.actor = s.actor ∧ s'.state = s.state ∧ s'.main = s.main ∧
      (s.terminateFlag = true → s'.terminateFlag = true) := by
  have hmethod : ∀ k labels, (∀ a ∈ labels, TimerSystem.ofCaller a = true) →
      s.onTimer k labels = some s' → s'.actor = s.actor ∧ s'.state = s.state ∧
        s'.main = s.main ∧ (s.terminateFlag = true → s'.terminateFlag = true) := by
    intro k labels hlabels hexec
    obtain ⟨c, t, t', -, -, rfl, -, -⟩ := TimerApp.onTimer_ofCaller hlabels hexec
    exact ⟨rfl, rfl, rfl, fun hset => hset⟩
  cases e with
  | create kind id =>
    rw [TimerApp.exec, Option.map_eq_some_iff] at h
    obtain ⟨target, -, rfl⟩ := h
    exact ⟨rfl, rfl, rfl, fun hset => hset⟩
  | cancel k | drop k | join k => exact hmethod k _ (by simp [TimerSystem.ofCaller]) h
  | terminate =>
    rw [TimerApp.exec, Option.some.injEq] at h
    subst h
    exact ⟨rfl, rfl, rfl, fun _ => rfl⟩

/-- A command of the handler. -/
theorem Stage.command (h : Stage s) {l : Letter StartCountdown} {e : TimerCommand}
    {todo : List TimerCommand} (hpc : s.actor.pc = .process l) (htodo : s.todo = e :: todo)
    (hexec : TimerApp.exec { s with todo } e = some s') : Stage s' := by
  cases h with
  | fresh _ _ hdo => simp [hdo] at htodo
  | first h hnone hdo =>
    rw [hdo, List.cons.injEq] at htodo
    obtain ⟨rfl, rfl⟩ := htodo
    rw [TimerApp.exec, Option.map_eq_some_iff] at hexec
    obtain ⟨target, -, rfl⟩ := hexec
    exact .second (h.frame rfl rfl rfl) _ (by simp [hnone]; rfl) rfl rfl
      (.held rfl rfl rfl (by simp)) rfl
  | second h x0 hone hkind hid hplace hdo =>
    rw [hdo, List.cons.injEq] at htodo
    obtain ⟨rfl, rfl⟩ := htodo
    rw [TimerApp.exec, Option.map_eq_some_iff] at hexec
    obtain ⟨target, -, rfl⟩ := hexec
    refine .ready x0 _ {
      timers := by simp [hone]; rfl, kinds := ⟨hkind, rfl⟩, ids := ⟨hid, rfl⟩
      taken := h.taken, plain := by simp, periodic := ?_, countdown := ?_, ticked := ?_
      rung := ?_, ends := ?_ }
    · rw [h.fields.1]
      exact hplace
    · rw [h.fields.2]
      exact .held rfl rfl rfl (by simp)
    · have hnone : ticksSeen s = 0 := h.none.1
      simp only [h.fields.1, reduceCtorEq, false_iff]
      show ¬ 10 ≤ ticksSeen s
      omega
    · have hnone : fired s = 0 := h.none.2
      simp only [h.fields.2, reduceCtorEq, false_iff]
      show ¬ 1 ≤ fired s
      omega
    · simp [h.flag, h.fields.1]
  | ready x0 x1 h => exact h.command hpc htodo hexec

theorem scene_start (ids : TimerIds) (hids : ids = { next := 1, given := [] }) :
    Scene (TimerApp.start "timer_actor" (TimerActor.new ids)) := by
  subst hids
  exact {
    ids := ⟨rfl, rfl⟩, counted := rfl
    accepted := ⟨_, [], rfl, rfl, by simp⟩, main := by simp [TimerApp.start]
    stage := .fresh rfl rfl rfl ⟨rfl, rfl⟩ rfl }

theorem expected_snoc {a : Runtime StartCountdown} (h : ∃ l rest, a.accepted = l :: rest ∧
      l.envelope.msg = .start ∧ ∀ l ∈ rest, Expected l)
    {l : Letter StartCountdown} (hl : Expected l) : ∃ first rest,
      (a.accept l).accepted = first :: rest ∧ first.envelope.msg = .start ∧
        ∀ l ∈ rest, Expected l := by
  obtain ⟨first, rest, haccepted, hstart, hrest⟩ := h
  refine ⟨first, rest ++ [l], ?_, hstart, forall_mem_snoc hrest hl⟩
  rw [Runtime.accept, haccepted]
  rfl

theorem scene_move {t : ThreadId} (h : Scene s) (hkept : s.Kept)
    (hmove : TimerApp.Move TimerActor.process s t s') : Scene s' := by
  cases hmove with
  | poll => exact h
  | ran hmain hflag =>
    exact { h with
      main := ⟨by simp, fun _ => hflag⟩
      stage := h.stage.frame rfl rfl rfl rfl rfl }
  | shutdown hmain =>
    have hset : s.terminateFlag = true := h.main.2 (by simp [hmain])
    rw [hkept.alive.deliver]
    exact { h with
      counted := h.counted
      accepted := expected_snoc h.accepted (Or.inr (Or.inr rfl))
      main := ⟨by simp, fun _ => hset⟩, stage := h.stage.frame rfl rfl rfl rfl rfl }
  | joined hmain hfin =>
    rw [hkept.alive.inLoop.2] at hfin
    simp at hfin
  | timer k c t t' ht hstep =>
    have hmem := List.mem_of_getElem? ht
    obtain ⟨r, htarget⟩ := hkept.targets _ hmem
    have hsame := same_of_timer hstep
    have hid : c.id = 1 ∨ c.id = 2 := h.stage.known _ hmem
    rcases TimerSystem.sent_of_timer htarget hstep with ⟨hactor, -⟩ | ⟨l, hl, hactor, -⟩
    · exact { h with
        counted := by simp only [hactor]; exact h.counted
        accepted := by rw [hactor]; exact h.accepted
        stage := h.stage.timer ht hsame rfl rfl rfl (by rw [hactor]) rfl }
    · rw [hactor, hkept.alive.deliver]
      have hmsg : Expected l := by
        rw [Expected, hl]
        rcases hid with hid | hid
        · exact Or.inl (by simp [TimerConfig.envelope, Envelope.new, hid])
        · exact Or.inr (Or.inl (by simp [TimerConfig.envelope, Envelope.new, hid]))
      exact { h with
        counted := h.counted, accepted := expected_snoc h.accepted hmsg
        stage := h.stage.timer ht hsame rfl rfl rfl rfl rfl }
  | command l e todo s' hpc htodo hexec =>
    have hstage := h.stage.command hpc htodo hexec
    obtain ⟨hactor, hstate, hmain, hflag⟩ := exec_frame hexec
    exact {
      ids := by rw [hstate]; exact h.ids
      counted := by
        rw [hstate, ticksSeen_congr (s := s) (congrArg Runtime.letters hactor)]
        exact h.counted
      accepted := by rw [hactor]; exact h.accepted
      main := by rw [hmain]; exact ⟨h.main.1, fun hne => hflag (h.main.2 hne)⟩
      stage := hstage }
  | recv l rest hpc hbox =>
    exact h.recv hkept hpc hbox rfl rfl rfl rfl (Runtime.letters_recv s.actor 0 l) rfl rfl
  | thread a events hmove hsame htodo =>
    have haccepted : a.accepted = s.actor.accepted := by cases hmove <;> rfl
    have hletters : a.letters = s.actor.letters := by rw [Runtime.letters, hsame, Runtime.letters]
    exact { h with
      counted := by rw [ticksSeen_congr hletters]; exact h.counted
      accepted := by rw [haccepted]; exact h.accepted
      stage := h.stage.frame rfl rfl rfl hletters rfl }

/-! ## At rest -/

theorem scene (h : machine.Reachable s) : Scene s :=
  TimerApp.invariant (scene_start _ rfl)
    (fun _ _ _ hreach hs hmove => scene_move hs (TimerApp.kept hreach) hmove) h

/-- A command about a timer can be carried out, `join` when the thread has ended. -/
theorem Place.exec_ne_none {k : Nat} {c : TimerConfig} {t : TimerSystem StartCountdown}
    {e : TimerCommand} {todo : List TimerCommand} {slot : Option Nat}
    {l : Letter StartCountdown} (h : Place k t (e :: todo) slot) (habout : e.about k = true)
    (hpc : s.actor.pc = .process l) (ht : s.timers[k]? = some (c, t)) (hdone : t.pc = .done) :
    TimerApp.exec s e ≠ none := by
  have hplace : Place k { t with actor := s.actor } (e :: todo) slot := h.timer rfl rfl rfl
  obtain ⟨labels, t', hlabels, -, ht', -⟩ :=
    hplace.exec (TimerActor × TimerIds) (c := c) habout hpc fun _ => hdone
  rw [hlabels, TimerApp.onTimer, ht]
  simp [ht']

/-- Once the threads of the timers have ended, the handler can go on. -/
theorem Scene.exec_ne_none (h : Scene s) (hkept : s.Kept)
    (hdone : ∀ x ∈ s.timers, x.2.pc = .done) (e : TimerCommand)
    (todo : List TimerCommand) (htodo : s.todo = e :: todo) :
    TimerApp.exec { s with todo } e ≠ none := by
  have hself : s.actor.context.selfRef ≠ none := by
    obtain ⟨r, hr⟩ := hkept.selfRef
    simp [hr]
  have hproc : ∃ l, s.actor.pc = .process l := by
    by_contra hno
    have hidle := hkept.resting fun l hl => hno ⟨l, hl⟩
    simp [hidle] at htodo
  obtain ⟨l, hpc⟩ := hproc
  cases h.stage with
  | fresh _ _ hidle => simp [hidle] at htodo
  | first _ _ hdo | second _ _ _ _ _ _ hdo =>
    rw [hdo, List.cons.injEq] at htodo
    rw [← htodo.1, TimerApp.exec]
    simpa using hself
  | ready x0 x1 h =>
    have hperiodic := h.periodic
    have hcountdown := h.countdown
    rw [htodo] at hperiodic hcountdown
    have h0 : s.timers[0]? = some (x0.1, x0.2) := by simp [h.timers]
    have h1 : s.timers[1]? = some (x1.1, x1.2) := by simp [h.timers]
    rcases h.plain e (by simp [htodo]) with rfl | he | he
    · simp [TimerApp.exec]
    · exact hperiodic.exec_ne_none (s := { s with todo }) he hpc h0
        (hdone x0 (by simp [h.timers]))
    · exact hcountdown.exec_ne_none (s := { s with todo }) he hpc h1
        (hdone x1 (by simp [h.timers]))

/-- The one-shot timer sends at most one `Timeout`. -/
theorem Scene.sentWith_two (h : Scene s) (hkept : s.Kept) :
    s.sentWith 2 ≤ 1 ∧ ∀ x0 x1, Ready s x0 x1 → s.sentWith 2 = x1.2.sent.length := by
  have hne : ¬ (1 : UInt64) = 2 := by decide
  have hready : ∀ x0 x1, Ready s x0 x1 → s.sentWith 2 = x1.2.sent.length := by
    intro x0 x1 h
    simp [TimerApp.sentWith, h.timers, h.ids, hne]
  refine ⟨?_, hready⟩
  cases h.stage with
  | fresh _ hnone | first _ hnone => simp [TimerApp.sentWith, hnone]
  | second _ x0 hone _ hid => simp [TimerApp.sentWith, hone, hid, hne]
  | ready x0 x1 h =>
    rw [hready x0 x1 h]
    have hregular := hkept.regular x1 (by simp [h.timers])
    exact (hregular.counted.single h.kinds.2).1

theorem Scene.fired_le (h : Scene s) (hkept : s.Kept) : fired s ≤ 1 := by
  have hle : fired s ≤ s.actor.accepted.countP (Letter.isTimeout 2) :=
    hkept.inOrder.handed_prefix.sublist.countP_le
  rw [hkept.posted] at hle
  exact hle.trans (h.sentWith_two hkept).1

/-- A timer that nobody has to drop, in a handler that has returned, is gone once its
thread has ended: the periodic one because it ends no sooner, the other because the actor
has taken its `Timeout`. -/
theorem Ready.gone {x0 x1 : TimerConfig × TimerSystem StartCountdown} (h : Ready s x0 x1)
    (hscene : Scene s) (hkept : s.Kept) (hwaiting : s.actor.Waiting)
    (hdone : x0.2.pc = .done ∧ x1.2.pc = .done) :
    x0.2.drop = .returned ∧ x1.2.drop = .returned ∧ s.todo = [] ∧
      s.state.1.periodicTimer = none ∧ s.state.1.countdownTimer = none := by
  have hidle : s.todo = [] := hkept.resting fun l hl => by simp [hwaiting.1] at hl
  have hall : s.actor.accepted = s.actor.letters := by
    rw [hkept.inOrder.rest hkept.alive.inLoop.2, hwaiting.2, List.append_nil]
  have hregular0 := hkept.regular x0 (by simp [h.timers])
  have hregular1 := hkept.regular x1 (by simp [h.timers])
  have hrung := h.rung
  have hperiodic := h.periodic
  have hcountdown := h.countdown
  rw [hidle] at hperiodic hcountdown
  have hfirst : x0.2.drop = .returned ∧ s.state.1.periodicTimer = none := by
    generalize s.state.1.periodicTimer = slot at hperiodic
    cases hperiodic with
    | held hd hc hr =>
      rw [hregular0.periodic h.kinds.1 hdone.1] at hr
      simp at hr
    | cancels rest hno | drops rest hno | joins rest hno => simp at hno
    | gone hd => exact ⟨hd, rfl⟩
  have hsecond : x1.2.drop = .returned ∧ s.state.1.countdownTimer = none := by
    generalize s.state.1.countdownTimer = slot at hcountdown hrung
    cases hcountdown with
    | held hd hc hr =>
      have hsent := hregular1.once h.kinds.2 hr hdone.2
      have hposted : fired s = x1.2.sent.length := by
        rw [fired, ← hall, hkept.posted, (hscene.sentWith_two hkept).2 x0 x1 h]
      have hlate : 1 ≤ fired s := by
        rw [hposted]
        exact List.length_pos_iff.mpr hsent
      exact absurd (hrung.mpr hlate) (by simp)
    | cancels rest hno | drops rest hno | joins rest hno => simp at hno
    | gone hd => exact ⟨hd, rfl⟩
  exact ⟨hfirst.1, hsecond.1, hidle, hfirst.2, hsecond.2⟩

/-- In every state of every schedule of the timer program, `tick_count` is the number of
ticks that were handled, the one-shot timer was handled at most once, and the manager is
terminated only after ten ticks and the one-shot timer.  The handler that drops a timer
never waits for ever: when no thread can go on, both timers have been dropped and their
threads have ended, the actor waits with an empty mailbox, the termination flag is set,
and the main thread stands in `end` at the join of the actor. -/
theorem timers_run_out (h : machine.Reachable s) :
    s.state.1.tickCount = UInt32.ofNat (ticksSeen s) ∧ fired s ≤ 1 ∧
      (s.terminateFlag = true → 10 ≤ ticksSeen s ∧ fired s = 1) ∧
      (s.AtRest TimerActor.process → s.terminateFlag = true ∧ s.main = .joining ∧
        s.actor.Waiting ∧ s.timers.length = 2 ∧
        ∀ x ∈ s.timers, x.2.pc = .done ∧ x.2.drop = .returned) := by
  have hscene := scene h
  have hkept := TimerApp.kept h
  have hle := hscene.fired_le hkept
  refine ⟨hscene.counted, hle, ?_, ?_⟩
  · intro hflag
    cases hscene.stage with
    | fresh _ _ _ _ hoff => simp [hflag] at hoff
    | first hstarting | second hstarting =>
      have hoff := hstarting.flag
      simp [hflag] at hoff
    | ready x0 x1 hready =>
      have hnone := hready.ends.mp (Or.inl hflag)
      exact ⟨hready.ticked.mp hnone.1, Nat.le_antisymm hle (hready.rung.mp hnone.2)⟩
  · intro hrest
    have hdone := hrest.timers
    have hwaiting := hrest.actor hkept (hscene.exec_ne_none hkept hdone)
    have hidle : s.todo = [] := hkept.resting fun l hl => by simp [hwaiting.1] at hl
    cases hscene.stage with
    | fresh hnone =>
      obtain ⟨first, rest, haccepted, -, -⟩ := hscene.accepted
      rw [hkept.inOrder.rest hkept.alive.inLoop.2, hwaiting.2, hnone] at haccepted
      simp at haccepted
    | first _ _ hdo | second _ _ _ _ _ _ hdo => simp [hidle] at hdo
    | ready x0 x1 hready =>
      have h0 : x0.2.pc = .done := hdone x0 (by simp [hready.timers])
      have h1 : x1.2.pc = .done := hdone x1 (by simp [hready.timers])
      obtain ⟨hdrop0, hdrop1, -, hnone⟩ := hready.gone hscene hkept hwaiting ⟨h0, h1⟩
      have hflag : s.terminateFlag = true :=
        (hready.ends.mpr hnone).resolve_right (by simp [hidle])
      refine ⟨hflag, ?_, hwaiting, by simp [hready.timers], ?_⟩
      · rcases hrest.main with ⟨-, hoff⟩ | hjoin | hreturned
        · simp [hflag] at hoff
        · exact hjoin
        · exact absurd hreturned hscene.main.1
      · simp [hready.timers, h0, h1, hdrop0, hdrop1]

/-- A schedule: nine ticks, the one-shot timer, and the tenth tick.  The thread of the
periodic timer looks at its flag while the handler is in `join`. -/
def schedule : List ThreadId :=
  List.replicate 8 (.worker 0) ++
    (List.replicate 9 (List.replicate 4 (.client 0) ++ List.replicate 3 (.worker 0))).flatten ++
    List.replicate 3 (.client 1) ++ List.replicate 5 (.worker 0) ++
    List.replicate 4 (.client 0) ++ List.replicate 3 (.worker 0) ++ [.client 0] ++
    List.replicate 4 (.worker 0) ++ [.main, .main] ++ List.replicate 3 (.worker 0)

/-- The state at its end. -/
def atEnd : Option Program :=
  Machine.exec (TimerApp.step TimerActor.process)
    (TimerApp.start "timer_actor" (TimerActor.new { next := 1, given := [] })) schedule

theorem timers_run_out_once : ∃ s : Program, machine.Reachable s ∧
    s.AtRest TimerActor.process ∧ s.terminateFlag = true ∧ 10 ≤ ticksSeen s ∧ fired s = 1 := by
  have hend : (atEnd.map fun s => decide (s.main = .joining ∧ s.actor.Waiting ∧
      ∀ x ∈ s.timers, x.2.pc = .done)) = some true := by decide
  obtain ⟨s, hs, hidle⟩ := Option.map_eq_some_iff.mp hend
  obtain ⟨hmain, hwaiting, hdone⟩ := of_decide_eq_true hidle
  have hreach : machine.Reachable s := Machine.Reach.exec (.start rfl) (by simp) hs
  have hrest : s.AtRest TimerActor.process :=
    TimerApp.atRest_of_idle (TimerApp.kept hreach) hmain hwaiting hdone
  obtain ⟨-, -, hticks, hends⟩ := timers_run_out hreach
  have hflag := (hends hrest).1
  exact ⟨s, hreach, hrest, hflag, hticks hflag⟩

end Steps

end TimerExample

end Actors
