import Mathlib.Algebra.Order.BigOperators.Group.List
import Mathlib.Algebra.Order.Group.Nat
import Actors.Group.Shutdown

/-!
# The work of a group

A worker that finds the shared queue empty sleeps and looks again, for as long as
`running` is set.  Everything else that the threads of a group do is bounded: a
letter goes through a forwarding thread, the queue and a worker once, a worker
that finds `running` cleared leaves its loop, and a method of the group goes
through lists of members, references and workers.

* `stock` is what the forwarding threads and the workers have still to do, and
  `left` what the main thread has still to do.
* `busy_le`: apart from the polls of an empty queue, the steps of a run are
  bounded by the letters that were sent and the calls that were made.
-/

namespace Actors

open Concur

variable {μ : Type}

/-- How much the forwarding thread has still to do. -/
def Forwarder.due (f : Forwarder μ) : Nat :=
  7 * f.pending.length + f.chan.length + if f.exited then 0 else 1

/-- How much the worker has still to do, apart from what is in the queue.
`empty` tells whether the queue is. -/
def WorkerPc.due (running empty : Bool) : WorkerPc μ → Nat
  | .check => if running then (if empty then 3 else 4) else 2
  | .recv => 3
  | .drain => 1
  | .dispatch _ _ => 6
  | .process _ _ _ => 5
  | .exited | .panicked => 0

/-- The worker looks for a message. -/
def WorkerPc.looking : WorkerPc μ → Bool
  | .check | .recv => true
  | _ => false

/-- A step of a forwarding thread or of a worker. -/
def Action.inner : Action μ → Bool
  | .forwardRecv _ | .forwardSend _ | .forwardExit _ | .worker _ | .handlerReturn _
  | .handlerPanic _ => true
  | _ => false

/-- A step of the method that is running. -/
def Action.outer : Action μ → Bool
  | .main | .mainLock _ => true
  | _ => false

namespace Group

/-- Worker `i` looks at an empty queue, and `running` is set. -/
def polls (g : Group μ) : Action μ → Bool
  | .worker i =>
    g.running && g.queue.isEmpty && (g.workers[i]?).any fun w => w.pc.looking
  | _ => false

/-- The step gets something done. -/
def busy (g : Group μ) (a : Action μ) : Bool :=
  (a.inner && !g.polls a) || a.outer

/-! ## The forwarding threads and the workers -/

/-- The letters that are not in the queue yet. -/
def unqueued (g : Group μ) : Nat :=
  (g.forwarders.map fun f => f.pending.length).sum

/-- How much the workers have still to do, apart from what is in the queue. -/
def workersDue (g : Group μ) : Nat :=
  (g.workers.map fun w => w.pc.due g.running g.queue.isEmpty).sum

/-- How much the forwarding threads and the workers have still to do.  A letter
that comes into an empty queue gives every worker something to look at. -/
def stock (g : Group μ) : Nat :=
  g.workers.length * g.unqueued + (g.forwarders.map Forwarder.due).sum +
    6 * g.queue.length + g.workersDue

/-- How much they had to do up to now. -/
def supply (g : Group μ) : Nat :=
  (g.workers.length + 8) * g.sent.length + g.forwarders.length +
    4 * g.workers.length

theorem unqueued_le {n : Nat} {ok : Group μ → Action μ → Prop} {g : Group μ}
    (h : (machine μ n).Reach ok g) : g.unqueued ≤ g.sent.length := by
  have hlength := (conserved_perm h).length_eq
  simp only [List.length_append, List.length_flatMap, List.length_map] at hlength
  have hsum : g.unqueued = (g.forwarders.map fun f => f.pending.length).sum := rfl
  omega

section Due

variable (running empty : Bool) (pc : WorkerPc μ) (workers : List (Worker μ))

theorem due_empty_le : pc.due running true ≤ pc.due running empty := by
  cases pc <;> cases running <;> cases empty <;> simp [WorkerPc.due]

theorem due_le_succ : pc.due running empty ≤ pc.due running true + 1 := by
  cases pc <;> cases running <;> cases empty <;> simp [WorkerPc.due]

theorem due_stopped_le : pc.due false empty ≤ pc.due running empty := by
  cases pc <;> cases running <;> cases empty <;> simp [WorkerPc.due]

theorem due_after_le (d : Bool) :
    (WorkerPc.after d : WorkerPc μ).due running empty ≤ 4 := by
  cases d <;> cases running <;> cases empty <;> simp [WorkerPc.after, WorkerPc.due]

/-- The worker has read `running`. -/
theorem due_check : (if running then WorkerPc.recv else .drain : WorkerPc μ).due running
    empty + (if !(running && empty) then 1 else 0) =
      (WorkerPc.check : WorkerPc μ).due running empty := by
  cases running <;> cases empty <;> rfl

/-- The worker has found the queue empty. -/
theorem due_recvEmpty : (WorkerPc.check : WorkerPc μ).due running true +
    (if !running then 1 else 0) = (WorkerPc.recv : WorkerPc μ).due running true := by
  cases running <;> rfl

/-- The queue has become empty. -/
theorem sum_due_empty_le : (workers.map fun w => w.pc.due running true).sum ≤
    (workers.map fun w => w.pc.due running empty).sum :=
  List.sum_le_sum fun w _ => due_empty_le running empty w.pc

/-- The queue has got something. -/
theorem sum_due_le_add : (workers.map fun w => w.pc.due running empty).sum ≤
    (workers.map fun w => w.pc.due running true).sum + workers.length := by
  induction workers with
  | nil => simp
  | cons w workers ih =>
    have hw := due_le_succ running empty w.pc
    simp only [List.map_cons, List.sum_cons, List.length_cons]
    omega

/-- `running` has been cleared. -/
theorem sum_due_stopped_le : (workers.map fun w => w.pc.due false empty).sum ≤
    (workers.map fun w => w.pc.due running empty).sum :=
  List.sum_le_sum fun w _ => due_stopped_le running empty w.pc

end Due

/-- A worker goes on and takes a letter from the queue, or leaves it as it is. -/
theorem stock_worker {g g' : Group μ} {i : Nat} {w : Worker μ} {pc : WorkerPc μ}
    (hw : g.workers[i]? = some w)
    (hframe : g'.workers = g.workers.set i { w with pc := pc } ∧
      g'.forwarders = g.forwarders ∧ g'.sent = g.sent ∧ g'.running = g.running)
    (hqueue : g'.queue = g.queue ∨ ∃ env, g.queue = env :: g'.queue) {c : Nat}
    (hdue : pc.due g.running g.queue.isEmpty + 6 * g'.queue.length + c ≤
      w.pc.due g.running g.queue.isEmpty + 6 * g.queue.length) :
    g'.stock + g.supply + c ≤ g.stock + g'.supply := by
  obtain ⟨hworkers, hforwarders, hsent, hrunning⟩ := hframe
  obtain ⟨rest, hsum, hset⟩ := exists_sum_map_set
    (fun w : Worker μ => w.pc.due g.running g.queue.isEmpty) hw
  have hnew : _ = pc.due g.running g.queue.isEmpty + rest := hset { w with pc := pc }
  have hle : g'.workersDue ≤ (g'.workers.map fun w =>
      w.pc.due g.running g.queue.isEmpty).sum := by
    rcases hqueue with hqueue | ⟨env, hqueue⟩
    · rw [workersDue, hrunning, hqueue]
    · have hempty : g.queue.isEmpty = false := by rw [hqueue]; rfl
      rw [workersDue, hrunning, hempty]
      cases hrest : g'.queue.isEmpty with
      | false => exact Nat.le_refl _
      | true => exact sum_due_empty_le g.running false g'.workers
  have hlength : g'.workers.length = g.workers.length := by
    rw [hworkers, List.length_set]
  rw [hworkers] at hle
  simp only [stock, supply, unqueued, hforwarders, hsent, hlength]
  simp only [workersDue] at hle hsum ⊢
  omega

/-- What a forwarding thread has still to do after a step of its own, or after a
send to it. -/
theorem forwarders_set {g : Group μ} {r : Nat} {f : Forwarder μ}
    (hf : g.forwarders[r]? = some f) (f' : Forwarder μ) :
    (((g.forwarders.set r f').map fun f => f.pending.length).sum + f.pending.length =
      g.unqueued + f'.pending.length) ∧
    ((g.forwarders.set r f').map Forwarder.due).sum + f.due =
      (g.forwarders.map Forwarder.due).sum + f'.due := by
  obtain ⟨rest, hsum, hset⟩ := exists_sum_map_set
    (fun f : Forwarder μ => f.pending.length) hf
  obtain ⟨rest', hsum', hset'⟩ := exists_sum_map_set Forwarder.due hf
  have hnew := hset f'
  have hnew' := hset' f'
  simp only [unqueued]
  omega

/-- A forwarding thread that keeps what it has still to forward. -/
theorem stock_forwarder {g : Group μ} {r : Nat} {f : Forwarder μ}
    (hf : g.forwarders[r]? = some f) (f' : Forwarder μ) (hkeep : f'.pending = f.pending) {d : Nat}
    (hless : f'.due + d = f.due) :
    ({ g with forwarders := g.forwarders.set r f' } : Group μ).stock + d = g.stock := by
  obtain ⟨hpending, hdue⟩ := forwarders_set hf f'
  rw [hkeep, Nat.add_right_cancel_iff, unqueued] at hpending
  simp only [stock, unqueued, workersDue]
  rw [hpending]
  omega

theorem supply_forwarder (g : Group μ) (r : Nat) (f' : Forwarder μ) :
    ({ g with forwarders := g.forwarders.set r f' } : Group μ).supply = g.supply := by
  simp only [supply, List.length_set]

/-- A forwarding thread puts a letter into the queue. -/
theorem stock_forwarded {g : Group μ} {r : Nat} {f : Forwarder μ} {l : Letter μ}
    (hf : g.forwarders[r]? = some f) (hhand : f.hand = some l) (env : GroupEnvelope μ) :
    ({ g with
      forwarders := g.forwarders.set r { f with hand := none }
      queue := g.queue ++ [env] } : Group μ).stock + 1 ≤ g.stock := by
  obtain ⟨hpending, hdue⟩ := forwarders_set hf { f with hand := none }
  have hkeep : f.pending.length =
      ({ f with hand := none } : Forwarder μ).pending.length + 1 := by
    simp [Forwarder.pending, hhand]
  have hless : ({ f with hand := none } : Forwarder μ).due + 7 = f.due := by
    simp only [Forwarder.due, hkeep]
    omega
  -- Every worker may find something in a queue that was empty.
  have hfill := sum_due_le_add g.running false g.workers
  have hempty := sum_due_empty_le g.running g.queue.isEmpty g.workers
  have hunqueued : g.unqueued =
      ((g.forwarders.set r { f with hand := none }).map fun f =>
        f.pending.length).sum + 1 := by omega
  have hmul : g.workers.length * g.unqueued = g.workers.length *
      ((g.forwarders.set r { f with hand := none }).map fun f =>
        f.pending.length).sum + g.workers.length := by
    rw [hunqueued, Nat.mul_succ]
  have hnonempty : (g.queue ++ [env]).isEmpty = false := by simp
  simp only [stock, unqueued, workersDue, hnonempty, List.length_append,
    List.length_singleton] at *
  omega

/-- A send gives a forwarding thread more to do. -/
theorem stock_posted {g : Group μ} {r : Nat} {f : Forwarder μ}
    (hf : g.forwarders[r]? = some f) (l : Letter μ) :
    (g.posted r f l).stock + g.supply ≤ g.stock + (g.posted r f l).supply := by
  obtain ⟨hpending, hdue⟩ := forwarders_set hf { f with chan := f.chan ++ [l] }
  have hlength : ({ f with chan := f.chan ++ [l] } : Forwarder μ).pending.length =
      f.pending.length + 1 := by simp [Forwarder.pending]; omega
  have hmore : ({ f with chan := f.chan ++ [l] } : Forwarder μ).due = f.due + 8 := by
    simp [Forwarder.due, Forwarder.pending]
    omega
  have hunqueued : (g.posted r f l).unqueued = g.unqueued + 1 := by
    show ((g.forwarders.set r { f with chan := f.chan ++ [l] }).map _).sum = _
    omega
  have hstock : (g.posted r f l).stock = g.stock + g.workers.length + 8 := by
    rw [stock, hunqueued, Nat.mul_add]
    simp only [stock, posted]
    rw [hmore] at hdue
    simp only [workersDue]
    omega
  have hsupply : (g.posted r f l).supply = g.supply + (g.workers.length + 8) := by
    simp only [supply, posted, List.length_append, List.length_set, Nat.mul_add]
    simp
    omega
  omega

/-- A forwarding thread that ends has not ended before. -/
theorem not_exited_of_step {g g' : Group μ} {r : Nat}
    (hstep : g.step (.forwardExit r) = some g') :
    ∃ f, g.forwarders[r]? = some f ∧ f.pending = [] ∧ f.live = false ∧
      f.exited = false := by
  simp only [step, forwardExit] at hstep
  split at hstep
  · rename_i f hf
    split at hstep
    · rename_i hcond
      obtain ⟨hchan, hhand, hlive, hexited⟩ := hcond
      exact ⟨f, hf, by simp [Forwarder.pending, hchan, hhand], hlive, hexited⟩
    · simp at hstep
  · simp at hstep

/-- A worker that goes back to the head of the loop found the queue empty. -/
theorem empty_of_recvEmpty {g : Group μ} {i : Nat} {w : Worker μ}
    (hw : g.workers[i]? = some w) (hpc : w.pc = .recv)
    (hstep : g.step (.worker i) = some { g with
      workers := g.workers.set i { w with pc := .check } }) : g.queue = [] := by
  cases hq : g.queue with
  | nil => rfl
  | cons env rest =>
    have hlt := (List.getElem?_eq_some_iff.mp hw).1
    simp only [step, workerStep, hw, hpc, hq] at hstep
    split at hstep
    · simp at hstep
    all_goals
      rw [Option.some.injEq] at hstep
      have hworkers := congrArg (fun g : Group μ => g.workers[i]?.map Worker.pc) hstep
      simp [setPc, hlt] at hworkers

/-- A step that does something uses up what there is to do. -/
theorem stock_of_step {n : Nat} {ok : Group μ → Action μ → Prop} {g g' : Group μ}
    {a : Action μ} (h : (machine μ n).Reach ok g) (hstep : g.step a = some g') :
    g'.stock + g.supply + (if a.inner && !g.polls a then 1 else 0) ≤
      g.stock + g'.supply := by
  have hunqueued := unqueued_le h
  have hcount : (if a.inner && !g.polls a then 1 else 0) ≤ 1 := by split <;> omega
  cases move_of_step hstep with
  | add name hidle | getRef name href =>
    have hdue : (Forwarder.new name : Forwarder μ).due = 1 := rfl
    have hpending : (Forwarder.new name : Forwarder μ).pending = [] := rfl
    simp [stock, supply, unqueued, workersDue, Action.inner, hdue, hpending]
    omega
  | sendStart r rs f hmain hf hlive | sendShutdown r rs b f hmain hf hlive
  | send t r msg sender f hcan hfree hf hlive
  | fastSend t r msg sender f hcan hfree hf hlive => exact stock_posted hf _
  | dropRef r f hf hr =>
    have hstock := stock_forwarder (d := 0) hf { f with live := false } rfl rfl
    rw [supply_forwarder]
    exact Nat.add_le_add_right (Nat.le_of_eq hstock) _
  | clearRunning b hmain =>
    have hle := sum_due_stopped_le g.running g.queue.isEmpty g.workers
    simp only [stock, supply, unqueued, workersDue, Action.inner]
    simp
    omega
  | spawn k hmain =>
    have hlength : (g.workers.length + 1) * g.unqueued =
        g.workers.length * g.unqueued + g.unqueued := Nat.succ_mul _ _
    have hsent : (g.workers.length + 1 + 8) * g.sent.length =
        (g.workers.length + 8) * g.sent.length + g.sent.length := by
      rw [Nat.add_right_comm, Nat.succ_mul]
    have hdue : (WorkerPc.check : WorkerPc μ).due g.running g.queue.isEmpty ≤ 4 :=
      due_after_le g.running g.queue.isEmpty false
    simp only [unqueued] at hlength hunqueued
    simp [stock, supply, unqueued, workersDue, Action.inner]
    omega
  | forwardRecv r f l rest hf hchan hhand =>
    have hkeep : ({ f with chan := rest, hand := some l } : Forwarder μ).pending =
        f.pending := by simp [Forwarder.pending, hchan, hhand]
    have hless : ({ f with chan := rest, hand := some l } : Forwarder μ).due + 1 =
        f.due := by
      simp only [Forwarder.due, hkeep, hchan, List.length_cons]
      omega
    have hstock := stock_forwarder hf _ hkeep hless
    rw [supply_forwarder]
    omega
  | forwardSend r f l hf hhand =>
    have hstock := stock_forwarded hf hhand { destination := f.destName, letter := l }
    have hsupply := supply_forwarder g r { f with hand := none }
    simp only [supply] at hsupply ⊢
    omega
  | forwardExit r f hf hlive =>
    obtain ⟨f', hf', -, -, hexited⟩ := not_exited_of_step hstep
    rw [hf, Option.some.injEq] at hf'
    subst hf'
    have hless : ({ f with exited := true } : Forwarder μ).due + 1 = f.due := by
      simp [Forwarder.due, Forwarder.pending, hexited]
    have hstock := stock_forwarder hf { f with exited := true } rfl hless
    rw [supply_forwarder]
    omega
  | check i w hw hpc =>
    apply stock_worker hw
    · exact ⟨rfl, rfl, rfl, rfl⟩
    · exact Or.inl rfl
    · have hpolls : g.polls (.worker i) = (g.running && g.queue.isEmpty) := by
        simp [polls, hw, hpc, WorkerPc.looking]
      have hdue := due_check (μ := μ) g.running g.queue.isEmpty
      show _ + 6 * g.queue.length + _ ≤ _
      rw [hpc, hpolls, Action.inner, Bool.true_and]
      omega
  | recvPanic i w hw hpc hpois =>
    apply stock_worker hw
    · exact ⟨rfl, rfl, rfl, rfl⟩
    · exact Or.inl rfl
    · show 0 + 6 * g.queue.length + _ ≤ _
      have hnow : 1 ≤ w.pc.due g.running g.queue.isEmpty := by
        rcases hpc with hpc | hpc <;> rw [hpc] <;> simp [WorkerPc.due]
      omega
  | recv i w env rest hw hpc hfree hq | drain i w env rest hw hpc hfree hq =>
    apply stock_worker hw
    · exact ⟨rfl, rfl, rfl, rfl⟩
    · exact Or.inr ⟨env, hq⟩
    · simp only [hpc, hq, WorkerPc.due, List.length_cons] at hcount ⊢
      omega
  | recvEmpty i w hw hpc =>
    have hq := empty_of_recvEmpty hw hpc hstep
    apply stock_worker hw
    · exact ⟨rfl, rfl, rfl, rfl⟩
    · exact Or.inl rfl
    · have hpolls : g.polls (.worker i) = g.running := by
        simp [polls, hw, hpc, hq, WorkerPc.looking]
      have hempty : g.queue.isEmpty = true := by rw [hq]; rfl
      have hdue := due_recvEmpty (μ := μ) g.running
      show _ + 6 * g.queue.length + _ ≤ _
      rw [hpc, hpolls, hempty, Action.inner, Bool.true_and]
      omega
  | drainEmpty i w hw hpc hq | memberPanic i w d env m mem hw hpc hm hmem hpois
  | processBegin i w d env m mem hw hpc hm hmem hfree hclean
  | handlerPanic i w d m l hw hpc hfree =>
    apply stock_worker hw
    · exact ⟨rfl, rfl, rfl, rfl⟩
    · exact Or.inl rfl
    · simp only [hpc, WorkerPc.due] at hcount ⊢
      omega
  | noMember i w d env hw hpc hno | handlerReturn i w d m l hw hpc hfree =>
    have hdue := due_after_le (μ := μ) g.running g.queue.isEmpty d
    have hnow : 5 ≤ w.pc.due g.running g.queue.isEmpty := by
      rw [hpc]
      simp [WorkerPc.due]
    apply stock_worker hw
    · exact ⟨rfl, rfl, rfl, rfl⟩
    · exact Or.inl rfl
    · show _ + 6 * g.queue.length + _ ≤ _
      omega
  | _ => exact Nat.le_of_eq rfl

/-- The steps of the forwarding threads and of the workers. -/
theorem inner_le {n : Nat} {ok : Group μ → Action μ → Prop}
    {tr : List (Group μ × Action μ)} {g : Group μ} (h : (machine μ n).Run ok tr g) :
    tr.countP (fun y => y.2.inner && !y.1.polls y.2) + g.stock ≤ g.supply := by
  refine h.invariant (I := fun tr g => tr.countP (fun y : Group μ × Action μ =>
    y.2.inner && !y.1.polls y.2) + g.stock ≤ g.supply) ?_ ?_
  · rintro g rfl
    simp [stock, supply, unqueued, workersDue, new]
  · intro tr g a g' hreach hg _ hstep
    have hnext := stock_of_step hreach hstep
    simp only [List.countP_append, List.countP_singleton]
    omega

/-! ## The thread that calls the methods -/

/-- How many steps the method that is running has still to take. -/
def left (g : Group μ) : Nat :=
  match g.main with
  | .idle | .panicked => 0
  | .startInit todo => 2 * todo.length + g.actorRefs.length + g.numWorkers + 3
  | .initHook _ todo => 2 * todo.length + g.actorRefs.length + g.numWorkers + 4
  | .startSend todo => todo.length + g.numWorkers + 2
  | .startSpawn k => k + 1
  | .shutdownSend todo false => todo.length + 1
  | .shutdownSend todo true =>
    todo.length + 2 * g.actors.values.length + g.handles.length + 3
  | .waitEnd todo => 2 * todo.length + g.handles.length + 2
  | .endHook _ todo => 2 * todo.length + g.handles.length + 3
  | .waitJoin is => is.length + 1

/-- How many steps a method takes at most. -/
def span (g : Group μ) : Nat :=
  3 * g.members.length + g.workers.length + g.numWorkers + 3

/-- The lists of the group are no longer than there are members and workers. -/
structure Sized (g : Group μ) : Prop where
  builder : g.actorsBuilder.values.length ≤ g.members.length
  actors : g.actors.values.length ≤ g.members.length
  refs : g.actorRefs.length = g.members.length
  handles : g.handles.length ≤ g.workers.length

theorem sized {n : Nat} {ok : Group μ → Action μ → Prop} {g : Group μ}
    (h : (machine μ n).Reach ok g) : g.Sized := by
  refine invariant ?_ ?_ h
  · exact ⟨Nat.le_refl _, Nat.le_refl _, rfl, Nat.le_refl _⟩
  · intro g a g' _ hg _ hmove
    obtain ⟨hbuilder, hactors, hrefs, hhandles⟩ := hg
    cases hmove with
    | add name hidle =>
      have hinsert := HashMap.length_values_insert_le g.actorsBuilder name
        g.members.length
      exact ⟨by simp; omega, by simp; omega, by simp [hrefs], hhandles⟩
    | start hidle => exact ⟨Nat.zero_le _, hbuilder, hrefs, hhandles⟩
    | spawn k hmain => exact ⟨hbuilder, hactors, hrefs, by simpa using hhandles⟩
    | endsDone hmain => exact ⟨hbuilder, hactors, hrefs, Nat.zero_le _⟩
    | initLock | endLock | initReturn | endReturn | processBegin | reply | handlerReturn
    | handlerPanic => exact ⟨by simpa using hbuilder, by simpa using hactors,
        by simpa using hrefs, by simpa using hhandles⟩
    | check | recvPanic | recv | recvEmpty | drain | drainEmpty | noMember | memberPanic =>
      exact ⟨hbuilder, hactors, hrefs, by simpa using hhandles⟩
    | _ => exact ⟨hbuilder, hactors, hrefs, hhandles⟩

theorem span_le {g g' : Group μ} {a : Action μ} (hstep : g.step a = some g') :
    g.span ≤ g'.span := by
  have hsizes : g.members.length ≤ g'.members.length ∧
      g.workers.length ≤ g'.workers.length ∧ g'.numWorkers = g.numWorkers := by
    cases move_of_step hstep with
    | sendStart | sendShutdown | send | fastSend =>
      exact ⟨by simp [posted], by simp [posted], rfl⟩
    | _ => exact ⟨by simp, by simp, rfl⟩
  simp only [span]
  omega

/-- A step of the method that is running leaves it less to do, and a call is the
start of at most as many steps as the group has lists for. -/
theorem left_of_step {n : Nat} {ok : Group μ → Action μ → Prop} {g g' : Group μ}
    {a : Action μ} (h : (machine μ n).Reach ok g) (hstep : g.step a = some g') :
    g.span ≤ g'.span ∧ ((g'.calls.length = g.calls.length ∧
        g'.left + (if a.outer then 1 else 0) ≤ g.left) ∨
      (g'.calls.length = g.calls.length + 1 ∧ g'.left ≤ g'.span ∧ a.outer = false)) := by
  obtain ⟨hbuilder, hactors, hrefs, hhandles⟩ := sized h
  refine ⟨span_le hstep, ?_⟩
  cases move_of_step hstep with
  | add name hidle =>
    refine Or.inr ⟨List.length_append, ?_, rfl⟩
    simp only [left, hidle]
    exact Nat.zero_le _
  | start hidle | shutdown hidle | wait hidle | endCall hidle =>
    refine Or.inr ⟨List.length_append, ?_, rfl⟩
    simp only [left, span]
    omega
  | initLock m mem todo hmain hm | endLock m mem todo hmain hm =>
    have hpos := List.length_pos_of_mem hm
    have hlength := List.length_erase_of_mem hm
    refine Or.inl ⟨rfl, ?_⟩
    simp only [left, hmain, hlength, Action.outer, if_true]
    omega
  | lockPanic m mem todo hmain =>
    refine Or.inl ⟨rfl, ?_⟩
    show 0 + 1 ≤ g.left
    rcases hmain with hmain | hmain <;> rw [left, hmain] <;> dsimp only <;> omega
  | initReturn m todo hmain | endReturn m todo hmain | initsDone hmain
  | startSent hmain | endsDone hmain | sendStart r rs f hmain | join i is w hmain =>
    refine Or.inl ⟨rfl, ?_⟩
    simp only [left, hmain, Action.outer, if_true, posted, List.length_cons, List.length_nil]
    omega
  | spawn k hmain | spawned hmain | joined hmain =>
    refine Or.inl ⟨rfl, ?_⟩
    simp only [left, hmain, Action.outer, if_true]
    exact Nat.le_refl _
  | sendShutdown r rs thenWait f hmain =>
    refine Or.inl ⟨rfl, ?_⟩
    cases thenWait <;>
      simp only [left, hmain, Action.outer, if_true, posted, List.length_cons] <;> omega
  | clearRunning thenWait hmain =>
    refine Or.inl ⟨rfl, ?_⟩
    cases thenWait with
    | false =>
      show 0 + 1 ≤ g.left
      rw [left, hmain]
      exact Nat.le_refl _
    | true =>
      simp only [left, hmain, Action.outer, if_true, List.length_nil]
      omega
  | _ => exact Or.inl ⟨rfl, Nat.le_refl _⟩

/-- The steps of the main thread in its calls. -/
theorem outer_le {n : Nat} {ok : Group μ → Action μ → Prop}
    {tr : List (Group μ × Action μ)} {g : Group μ} (h : (machine μ n).Run ok tr g) :
    tr.countP (fun y => y.2.outer) + g.left ≤ g.calls.length * g.span := by
  refine h.invariant (I := fun tr g => tr.countP (fun y : Group μ × Action μ =>
    y.2.outer) + g.left ≤ g.calls.length * g.span) ?_ ?_
  · rintro g rfl
    simp [left, new]
  · intro tr g a g' hreach hg _ hstep
    obtain ⟨hspan, hnext⟩ := left_of_step hreach hstep
    have hmul := Nat.mul_le_mul_left g.calls.length hspan
    simp only [List.countP_append, List.countP_singleton]
    rcases hnext with ⟨hcalls, hleft⟩ | ⟨hcalls, hleft, houter⟩
    · rw [hcalls]
      omega
    · rw [hcalls, houter, Nat.succ_mul]
      simp
      omega

/-! ## All threads -/

/-- Two kinds of steps are no more than the steps of each. -/
theorem countP_or_le {α : Type} (p q : α → Bool) (l : List α) :
    l.countP (fun x => p x || q x) ≤ l.countP p + l.countP q := by
  induction l with
  | nil => simp
  | cons x l ih =>
    simp only [List.countP_cons]
    cases p x <;> cases q x <;> simp <;> omega

/-- Apart from looking at an empty queue while the group runs, the threads of a
group take a bounded number of steps: for each letter that was sent, for each
reference and worker, and for each call of a method. -/
theorem busy_le {n : Nat} {ok : Group μ → Action μ → Prop}
    {tr : List (Group μ × Action μ)} {g : Group μ} (h : (machine μ n).Run ok tr g) :
    tr.countP (fun y => y.1.busy y.2) ≤
      (g.workers.length + 8) * g.sent.length + g.forwarders.length +
        4 * g.workers.length +
        g.calls.length * (3 * g.members.length + g.workers.length + n + 3) := by
  have hinner := inner_le h
  have houter := outer_le h
  have hor := countP_or_le (fun y : Group μ × Action μ => y.2.inner && !y.1.polls y.2)
    (fun y => y.2.outer) tr
  rw [span, numWorkers_eq h.reach] at houter
  simp only [supply] at hinner
  show tr.countP (fun y => (y.2.inner && !y.1.polls y.2) || y.2.outer) ≤ _
  omega

/-- One member is added and started with one worker, which handles `Start` and then
looks at the queue again. -/
theorem busy_le_one : ∃ (tr : List (Group Nat × Action Nat)) (g : Group Nat),
    (machine Nat 1).Run (fun _ _ => True) tr g ∧ tr.length = 16 ∧
      tr.countP (fun y => y.1.busy y.2) ≤
        (g.workers.length + 8) * g.sent.length + g.forwarders.length +
          4 * g.workers.length +
          g.calls.length * (3 * g.members.length + g.workers.length + 1 + 3) := by
  have hrun := run_after (μ := Nat) (fun _ _ => True) 1 (startOne Nat ++ [.forwardRecv 0,
    .forwardSend 0, .worker 0, .worker 0, .worker 0, .handlerReturn 0, .worker 0]) (by decide)
  exact ⟨_, _, hrun, by decide, busy_le hrun⟩

end Group

end Actors
