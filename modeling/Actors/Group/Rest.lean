import Actors.Group.Progress
import Actors.Group.Wedge
import Actors.Group.Work

/-!
# A group at rest

A group is at rest when none of its threads can do anything but look at an empty
queue.  By `busy_le` it comes to that whenever nobody sends or calls anything for
long enough.

The results are about the runs that meet `SendOnly`: no hook and no handler calls
`fast_send`, and no handler panics.  Without that a group can come to rest with a
handler that waits for a reply, or at a lock that a panic has poisoned.

* `rest_iff` says how a group at rest looks: nothing is on its way to the queue, and
  no worker is in a handler or waits for a lock.
* `served_of_rest`: a group at rest that runs has handled every letter.
* `ended_of_rest`: in a group at rest that was shut down the workers have left and
  no method is running.
-/

namespace Actors

open Concur

variable {μ : Type}

namespace Group

/-- No thread can do anything but look at an empty queue. -/
def AtRest (g : Group μ) : Prop := ∀ a, g.busy a = true → g.step a = none

/-- The forwarding thread waits for an envelope, or it has ended. -/
def Still (f : Forwarder μ) : Prop :=
  f.pending = [] ∧ (f.live = true ∨ f.exited = true)

instance [DecidableEq μ] (f : Forwarder μ) : Decidable (Still f) :=
  inferInstanceAs (Decidable (f.pending = [] ∧ (f.live = true ∨ f.exited = true)))

/-- Every worker has left its loop or looks at an empty queue. -/
def Looking (g : Group μ) : Prop :=
  ∀ (i : Nat) (hi : i < g.workers.length),
    (g.workers[i]).pc.finished = true ∨ g.polls (.worker i) = true

instance (g : Group μ) : Decidable g.Looking :=
  inferInstanceAs (Decidable (∀ (i : Nat) (hi : i < g.workers.length),
    (g.workers[i]).pc.finished = true ∨ g.polls (.worker i) = true))

/-- The main thread is between two calls, or it waits for the end of a worker. -/
inductive Waiting (g : Group μ) : Prop where
  | idle (hmain : g.main = .idle)
  | joins (i : Nat) (is : List Nat) (w : Worker μ) (hmain : g.main = .waitJoin (i :: is))
      (hw : g.workers[i]? = some w) (hlive : w.pc.finished = false)

/-! ## The forwarding threads -/

/-- A forwarding thread ends when no clone of its reference is left and nothing is
in its channel. -/
theorem gone_of_exited {n : Nat} {ok : Group μ → Action μ → Prop} {g : Group μ}
    (h : (machine μ n).Reach ok g) : ∀ f ∈ g.forwarders, f.exited = true →
      f.live = false ∧ f.pending = [] := by
  refine h.invariant (I := fun g => ∀ f ∈ g.forwarders, f.exited = true →
    f.live = false ∧ f.pending = []) ?_ ?_
  · rintro g rfl
    simp [new]
  · intro g a g' hreach hg _ hstep
    have hold : ∀ {r : Nat} {f : Forwarder μ}, g.forwarders[r]? = some f →
        f.exited = true → f.live = false ∧ f.pending = [] :=
      fun hf => hg _ (List.mem_of_getElem? hf)
    cases move_of_step hstep with
    | add name | getRef name =>
      exact forall_mem_snoc hg fun hexited => absurd hexited (by simp [Forwarder.new])
    | sendStart r rs f hmain hf hlive | sendShutdown r rs b f hmain hf hlive
    | send t r msg sender f hcan hfree hf hlive
    | fastSend t r msg sender f hcan hfree hf hlive =>
      refine forall_mem_set hg fun hexited => ?_
      rw [(hold hf hexited).1] at hlive
      simp at hlive
    | dropRef r f hf =>
      exact forall_mem_set hg fun hexited => ⟨rfl, (hold hf hexited).2⟩
    | forwardRecv r f l rest hf hchan =>
      refine forall_mem_set hg fun hexited => ?_
      have hpending := (hold hf hexited).2
      simp [Forwarder.pending, hchan] at hpending
    | forwardSend r f l hf hhand =>
      refine forall_mem_set hg fun hexited => ?_
      have hpending := (hold hf hexited).2
      simp [Forwarder.pending, hhand] at hpending
    | forwardExit r f hf hlive =>
      obtain ⟨f', hf', hpending, -, -⟩ := not_exited_of_step hstep
      rw [hf, Option.some.injEq] at hf'
      subst hf'
      exact forall_mem_set hg fun _ => ⟨hlive, hpending⟩
    | _ => exact hg

/-- A forwarding thread that is not still can take a step. -/
theorem AtRest.still {n : Nat} {ok : Group μ → Action μ → Prop} {g : Group μ}
    (hrest : g.AtRest) (h : (machine μ n).Reach ok g) :
    ∀ f ∈ g.forwarders, Still f := by
  intro f hmem
  obtain ⟨r, hr, hf⟩ := List.mem_iff_getElem.mp hmem
  have hf : g.forwarders[r]? = some f := by rw [List.getElem?_eq_getElem hr, hf]
  have hsend := hrest (.forwardSend r) rfl
  have hrecv := hrest (.forwardRecv r) rfl
  have hexit := hrest (.forwardExit r) rfl
  have hhand : f.hand = none := by
    cases hhand : f.hand with
    | none => rfl
    | some l => simp [step, forwardSend, hf, hhand] at hsend
  have hgone := gone_of_exited h f hmem
  cases hexited : f.exited with
  | true => exact ⟨(hgone hexited).2, Or.inr hexited⟩
  | false =>
    have hchan : f.chan = [] := by
      cases hchan : f.chan with
      | nil => rfl
      | cons l rest => simp [step, forwardRecv, hf, hhand, hchan, hexited] at hrecv
    refine ⟨by simp [Forwarder.pending, hhand, hchan], Or.inl ?_⟩
    cases hlive : f.live with
    | true => rfl
    | false => simp [step, forwardExit, hf, hhand, hchan, hexited, hlive] at hexit

theorem Still.step_eq_none {g : Group μ} {r : Nat} (hstill : ∀ f ∈ g.forwarders, Still f) :
    g.step (.forwardRecv r) = none ∧ g.step (.forwardSend r) = none ∧
      g.step (.forwardExit r) = none := by
  simp only [step, forwardRecv, forwardSend, forwardExit]
  cases hf : g.forwarders[r]? with
  | none => exact ⟨rfl, rfl, rfl⟩
  | some f =>
    obtain ⟨hpending, hend⟩ := hstill f (List.mem_of_getElem? hf)
    rw [Forwarder.pending, List.append_eq_nil_iff] at hpending
    have hhand : f.hand = none := by simpa using hpending.1
    simp only [hpending.2, hhand]
    rcases hend with hlive | hexited <;> simp [*]

/-! ## The workers and the main thread -/

section Threads

variable {n : Nat} {g : Group μ}

/-- A method that is running can go on, unless it waits. -/
theorem AtRest.main (hrest : g.AtRest) (h : (machine μ n).Reach SendOnly g) :
    g.main = .idle ∨ ∃ u, g.WaitsFor .main u := by
  by_cases hidle : g.main = .idle
  · exact Or.inl hidle
  · have hlive : g.main ≠ .panicked := by
      refine main_ne_panicked (fun g m hreach _ mem hmem => ?_) h
      exact (clean (hreach.mono noPanic_of_sendOnly)).members mem
        (List.mem_of_getElem? hmem)
    have houter : ∃ a ∈ g.nextMain, a.outer = true := by
      simp only [nextMain]
      split
      · exact ⟨_, List.mem_cons_self .., rfl⟩
      · exact ⟨_, List.mem_cons_self .., rfl⟩
      · exact ⟨_, List.mem_cons_self .., rfl⟩
    obtain ⟨a, ha, houter⟩ := houter
    have hnone : g.step a = none := hrest a (by simp [busy, houter])
    right
    exact (nextMain_or_waits h hidle hlive (blocked_eq_false (calm h) hidle) ha).resolve_left
      fun hstep => hstep hnone

/-- No worker is in a handler. -/
theorem AtRest.no_process (hrest : g.AtRest) (h : (machine μ n).Reach SendOnly g) {i : Nat}
    {w : Worker μ} (hw : g.workers[i]? = some w) : w.pc.inside = none := by
  by_contra hinside
  obtain ⟨m, hm⟩ := Option.ne_none_iff_exists'.mp hinside
  obtain ⟨d, l, hpc⟩ := exists_process hm
  exact step_handlerReturn hw hpc (worker_not_blocked (calm h) i)
    (hrest (.handlerReturn i) rfl)

/-- No member is locked. -/
theorem AtRest.members_free (hrest : g.AtRest) (h : (machine μ n).Reach SendOnly g)
    {m : Nat} {mem : GroupMember} (hmem : g.members[m]? = some mem) :
    mem.mutex.owner = none := by
  by_contra howner
  obtain ⟨u, hu⟩ := Option.ne_none_iff_exists'.mp howner
  rcases holder_of_member h hmem hu with ⟨j, w, d, l, -, hw, hpc⟩ | ⟨-, hinside⟩
  · have hnone := hrest.no_process h hw
    simp [hpc, WorkerPc.inside] at hnone
  · rcases hrest.main h with hidle | ⟨v, hv⟩
    · simp [hidle, MainPc.inside] at hinside
    · simp [inside_of_waitsFor hv] at hinside

/-- No worker has an envelope in its hand. -/
theorem AtRest.no_hand (hrest : g.AtRest) (h : (machine μ n).Reach SendOnly g) {i : Nat}
    {w : Worker μ} (hw : g.workers[i]? = some w) : w.pc.hand = none := by
  cases hpc : w.pc with
  | dispatch d env =>
    refine absurd (hrest (.worker i) ?_) (step_dispatch hw hpc fun m hm => ?_)
    · simp [busy, polls, Action.inner, hw, hpc, WorkerPc.looking]
    · have hrouted := routed h
      have hlt : m < g.members.length := by
        rw [hrouted.count]
        exact (List.getElem?_eq_some_iff.mp
          (hrouted.maps w (List.mem_of_getElem? hw) _ m hm)).1
      have hmem := List.getElem?_eq_getElem hlt
      exact ⟨_, hmem, hrest.members_free h hmem⟩
  | _ => rfl

/-- The receiver is not locked. -/
theorem AtRest.receiver_free (hrest : g.AtRest) (h : (machine μ n).Reach SendOnly g) :
    g.receiver.owner = none := by
  by_contra howner
  obtain ⟨u, hu⟩ := Option.ne_none_iff_exists'.mp howner
  obtain ⟨j, w, -, hw, hpc⟩ := holder_of_receiver h hu
  have hhand := hrest.no_hand h hw
  have hinside := hrest.no_process h hw
  rcases hpc with ⟨env, hpc⟩ | ⟨m, l, hpc⟩ <;>
    simp [hpc, WorkerPc.hand, WorkerPc.inside] at hhand hinside

/-- A worker has left its loop, or it looks at an empty queue. -/
theorem AtRest.worker (hrest : g.AtRest) (h : (machine μ n).Reach SendOnly g) {i : Nat}
    {w : Worker μ} (hw : g.workers[i]? = some w) :
    w.pc.finished = true ∨ g.polls (.worker i) = true := by
  have hfree := hrest.receiver_free h
  have hnone : g.polls (.worker i) = false → g.step (.worker i) = none := by
    intro hpolls
    exact hrest (.worker i) (by simp [busy, Action.inner, hpolls])
  by_cases hpolls : g.polls (.worker i) = true
  · exact Or.inr hpolls
  · left
    have hstep := hnone (by simpa using hpolls)
    cases hpc : w.pc with
    | check => exact absurd hstep (step_check hw hpc)
    | recv => exact absurd hstep (step_recv hw (Or.inl hpc) hfree)
    | drain => exact absurd hstep (step_recv hw (Or.inr hpc) hfree)
    | dispatch d env =>
      have hhand := hrest.no_hand h hw
      simp [hpc, WorkerPc.hand] at hhand
    | process d m l =>
      have hinside := hrest.no_process h hw
      simp [hpc, WorkerPc.inside] at hinside
    | exited | panicked => rfl

theorem AtRest.waiting (hrest : g.AtRest) (h : (machine μ n).Reach SendOnly g) :
    g.Waiting := by
  rcases hrest.main h with hidle | ⟨u, hu⟩
  · exact .idle hidle
  · cases hu with
    | hook m mem todo _ hmain hm hmem howner =>
      rw [hrest.members_free h hmem] at howner
      simp at howner
    | join i is w hmain hw hlive => exact .joins i is w hmain hw hlive

theorem Waiting.step_eq_none (hwait : g.Waiting) {a : Action μ} (ha : a.outer = true) :
    g.step a = none := by
  cases a with
  | main =>
    simp only [step, mainStep]
    cases hwait with
    | idle hmain => simp [hmain]
    | joins i is w hmain hw hlive => simp [hmain, hw, hlive]
  | mainLock m =>
    simp only [step, mainLock]
    cases hwait with
    | idle hmain => simp [hmain]
    | joins i is w hmain hw hlive => simp [hmain]
  | _ => simp [Action.outer] at ha

/-- A worker that has left its loop takes no step, and no handler runs in one that
looks at the queue. -/
theorem Looking.step_eq_none (hlooking : g.Looking) (i : Nat) :
    (g.polls (.worker i) = false → g.step (.worker i) = none) ∧
      g.step (.handlerReturn i) = none ∧ g.step (.handlerPanic i) = none := by
  simp only [step, workerStep, handlerReturn, handlerPanic]
  cases hw : g.workers[i]? with
  | none => simp
  | some w =>
    obtain ⟨hi, hget⟩ := List.getElem?_eq_some_iff.mp hw
    have hlook := hlooking i hi
    rw [hget] at hlook
    rcases hlook with hfinished | hpolls
    · cases hpc : w.pc <;> simp [hpc, WorkerPc.finished] at hfinished ⊢
    · simp only [hpolls]
      simp [polls, hw] at hpolls
      cases hpc : w.pc <;> simp [hpc, WorkerPc.looking] at hpolls ⊢

theorem rest_of_still (hstill : ∀ f ∈ g.forwarders, Still f) (hlooking : g.Looking)
    (hwait : g.Waiting) : g.AtRest := by
  intro a ha
  cases houter : a.outer with
  | true => exact hwait.step_eq_none houter
  | false =>
    simp only [busy, houter, Bool.or_false, Bool.and_eq_true, Bool.not_eq_true'] at ha
    obtain ⟨hinner, hpolls⟩ := ha
    cases a with
    | forwardRecv r => exact (Still.step_eq_none hstill).1
    | forwardSend r => exact (Still.step_eq_none hstill).2.1
    | forwardExit r => exact (Still.step_eq_none hstill).2.2
    | worker i => exact (hlooking.step_eq_none i).1 hpolls
    | handlerReturn i => exact (hlooking.step_eq_none i).2.1
    | handlerPanic i => exact (hlooking.step_eq_none i).2.2
    | _ => simp [Action.inner] at hinner

/-- A group whose hooks and handlers do not call `fast_send`, and whose handlers do not
panic, is at rest exactly when nothing is on its way to the queue, every worker has left
its loop or looks at an empty queue, and the main thread is between two calls or waits
for a worker that goes on looking. -/
theorem rest_iff (h : (machine μ n).Reach SendOnly g) :
    g.AtRest ↔ (∀ f ∈ g.forwarders, Still f) ∧ g.Looking ∧ g.Waiting := by
  constructor
  · intro hrest
    exact ⟨hrest.still h, fun i hi => hrest.worker h (List.getElem?_eq_getElem hi),
      hrest.waiting h⟩
  · rintro ⟨hstill, hlooking, hwait⟩
    exact rest_of_still hstill hlooking hwait

/-- The member has handled its `Start`, `wait` was called without `shutdown`, and the
two workers look at an empty queue. -/
theorem rest_iff_joining : ∃ g : Group Nat, (machine Nat 2).Reach SendOnly g ∧
    g.workers.length = 2 ∧ g.handed.length = 1 ∧ g.main = .waitJoin [0, 1] ∧
      g.AtRest := by
  have hrun := reach_after (μ := Nat) SendOnly 2 [.add "a", .start, .mainLock 0, .main, .main,
    .main, .main, .main, .main, .main, .forwardRecv 0, .forwardSend 0, .worker 0, .worker 0,
    .worker 0, .handlerReturn 0, .wait, .mainLock 0, .main, .main] (by decide)
  exact ⟨_, hrun, by decide, by decide, by decide,
    (rest_iff hrun).mpr ⟨by decide, by decide, .joins 0 [1] _ rfl rfl rfl⟩⟩

/-! ## What a group at rest has done -/

/-- Nothing is on its way in a group at rest that runs, and has workers. -/
theorem AtRest.handed_perm (hrest : g.AtRest) (h : (machine μ n).Reach SendOnly g)
    (hcalls : StartedOnce g.calls) (hrun : g.running = true) (hmanned : g.workers ≠ []) :
    (g.handed.map ProcessCall.letter).Perm g.sent := by
  have hnopanic := h.mono noPanic_of_sendOnly
  have hpending : g.forwarders.flatMap Forwarder.pending = [] :=
    List.flatMap_eq_nil_iff.mpr fun f hf => (hrest.still h f hf).1
  have hhands : g.workers.flatMap (fun w => w.hand.toList) = [] := by
    refine List.flatMap_eq_nil_iff.mpr fun w hw => ?_
    obtain ⟨i, hi⟩ := List.mem_iff_getElem?.mp hw
    rw [Worker.hand, hrest.no_hand h hi]
    rfl
  have hqueue : g.queue = [] := by
    obtain ⟨w, hw⟩ := List.exists_mem_of_ne_nil _ hmanned
    obtain ⟨i, hi⟩ := List.mem_iff_getElem?.mp hw
    -- While the group runs no worker leaves its loop, so this one looks at the queue.
    rcases hrest.worker h hi with hfinished | hpolls
    · have hnormal := normal hnopanic hrun w hw
      cases hpc : w.pc <;>
        simp [hpc, WorkerPc.finished, WorkerPc.normal] at hfinished hnormal
    · simp only [polls, Bool.and_eq_true, List.isEmpty_iff] at hpolls
      exact hpolls.1.2
  have hperm := conserved_perm h
  rw [hpending, hqueue, hhands, lost_eq_nil hnopanic hcalls] at hperm
  simpa using hperm

/-- In a group at rest that was filled with distinctly named members, started once
and not shut down, and whose hooks and handlers neither call `fast_send` nor panic, every
member has handled exactly the messages that were sent to its name. -/
theorem served_of_rest (h : (machine μ n).Reach SendOnly g)
    (hcalls : StartedOnce g.calls) (hnames : g.addedNames.Nodup)
    (hrun : g.running = true) (hmanned : g.workers ≠ []) (hrest : g.AtRest) :
    (∀ m name, g.addedNames[m]? = some name →
      ((g.handed.filter fun c => c.actor = m).map ProcessCall.letter).Perm
        (g.sent.filter fun l => l.addressee = name)) ∧
      ∀ w ∈ g.workers, w.pc.inside = none := by
  refine ⟨fun m name hname => ?_, fun w hw => ?_⟩
  · have hperm := (hrest.handed_perm h hcalls hrun hmanned).filter
      fun l => l.addressee = name
    rw [List.filter_map] at hperm
    have hfilter : (g.handed.filter fun c => c.actor = m) =
        g.handed.filter ((fun l : Letter μ => decide (l.addressee = name)) ∘
          ProcessCall.letter) := by
      refine List.filter_congr fun c hc => ?_
      have hcalled := (routed h).handed c hc
      have hiff : c.actor = m ↔ c.letter.addressee = name := by
        constructor
        · rintro rfl
          rw [hname, Option.some.injEq] at hcalled
          exact hcalled.symm
        · rintro hto
          rw [hto] at hcalled
          obtain ⟨hlt, hget⟩ := List.getElem?_eq_some_iff.mp hcalled
          obtain ⟨hlt', hget'⟩ := List.getElem?_eq_some_iff.mp hname
          exact hnames.getElem_inj_iff.mp (hget.trans hget'.symm)
      simp [hiff]
    rwa [hfilter]
  · obtain ⟨i, hi⟩ := List.mem_iff_getElem?.mp hw
    exact hrest.no_process h hi

/-- Two members and one worker: the worker has handled both `Start` messages and a
message to the first member. -/
theorem served_of_rest_two : ∃ g : Group Nat, (machine Nat 1).Reach SendOnly g ∧
    g.sent.length = 3 ∧
    (∀ m name, g.addedNames[m]? = some name →
      ((g.handed.filter fun c => c.actor = m).map ProcessCall.letter).Perm
        (g.sent.filter fun l => l.addressee = name)) ∧
      ∀ w ∈ g.workers, w.pc.inside = none := by
  have hrun := reach_after SendOnly 1
    ([.add "a", .add "b", .start, .mainLock 0, .main, .mainLock 1, .main, .main, .main,
      .main, .main, .main, .main, .send (.client 0) 0 (.user 7) none] ++
      [0, 0, 1].flatMap fun r => [Action.forwardRecv r, .forwardSend r, .worker 0,
        .worker 0, .worker 0, .handlerReturn 0]) (by decide)
  exact ⟨_, hrun, by decide, served_of_rest hrun (by decide) (by decide) (by decide)
    (by decide) (rest_of_still (by decide) (by decide) (.idle (by decide)))⟩

/-- In a group at rest in which `running` has been cleared, and whose hooks and handlers
neither call `fast_send` nor panic, every worker has left its loop and every call of a
method has returned. -/
theorem ended_of_rest (h : (machine μ n).Reach SendOnly g) (hstopped : g.running = false)
    (hrest : g.AtRest) : g.main = .idle ∧ ∀ w ∈ g.workers, w.pc.finished = true := by
  have hfinished : ∀ w ∈ g.workers, w.pc.finished = true := by
    intro w hw
    obtain ⟨i, hi⟩ := List.mem_iff_getElem?.mp hw
    refine (hrest.worker h hi).resolve_right ?_
    simp [polls, hstopped]
  refine ⟨?_, hfinished⟩
  cases hrest.waiting h with
  | idle hmain => exact hmain
  | joins i is w hmain hw hlive =>
    rw [hfinished w (List.mem_of_getElem? hw)] at hlive
    simp at hlive

/-- `end` has returned.  `Start` and `Shutdown` came to the queue when the worker had
left. -/
theorem ended_of_rest_one : ∃ g : Group Nat, (machine Nat 1).Reach SendOnly g ∧
    g.queue.length = 2 ∧ g.main = .idle ∧ ∀ w ∈ g.workers, w.pc.finished = true := by
  have hrun := reach_after SendOnly 1 (startOne Nat ++ [.endCall, .main, .main,
    .mainLock 0, .main, .main, .worker 0, .worker 0, .main, .main, .forwardRecv 0,
    .forwardSend 0, .forwardRecv 0, .forwardSend 0]) (by decide)
  exact ⟨_, hrun, by decide, ended_of_rest hrun (by decide)
    (rest_of_still (by decide) (by decide) (.idle (by decide)))⟩

end Threads

end Group

end Actors
