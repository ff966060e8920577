import Actors.Group.Flow

/-!
# The order of messages in a group

A standalone actor handles the messages of one thread in the order sent: they
sit in one channel, and one thread reads it.  In a group two things can go
wrong, and `NoOvertaking` names them as conditions on a step.

* Every reference has a forwarding thread of its own, and `get_ref` makes a new
  one each time.  A forwarding thread may put a message into the shared queue
  while another one still holds an earlier message.
* A worker gives up the receiver lock before it takes the lock of the member.
  A worker may take the member's lock while another one still has an earlier
  message in hand.

`inSendOrder` shows that these are the only two: in every run without such a
step the order is kept.  `inSendOrder_fails` is a run with one reference and
two workers in which the second kind of step loses it.
-/

namespace Actors

open Concur

variable {μ : Type}

/-- A thread and a member: the messages from one to the other. -/
def Letter.line (l : Letter μ) : ThreadId × String := (l.author, l.addressee)

/-- None of the letters `ls` is an earlier one on the same line. -/
def Letter.First (l : Letter μ) (ls : List (Letter μ)) : Prop :=
  ∀ l' ∈ ls, l.line = l'.line → l.id < l'.id

instance (l : Letter μ) (ls : List (Letter μ)) : Decidable (l.First ls) :=
  inferInstanceAs (Decidable (∀ l' ∈ ls, l.line = l'.line → l.id < l'.id))

namespace Group

/-- The messages of each thread to each member are handed to `process_message`
in the order in which they were sent. -/
def InSendOrder (g : Group μ) : Prop :=
  g.handed.Pairwise fun c c' =>
    c.letter.line = c'.letter.line → c.letter.id < c'.letter.id

instance (g : Group μ) : Decidable g.InSendOrder :=
  inferInstanceAs (Decidable (g.handed.Pairwise fun c c' =>
    c.letter.line = c'.letter.line → c.letter.id < c'.letter.id))

/-- The step does not hand a message on before an earlier message of the same
thread to the same member: a forwarding thread puts its message into the queue
while no other one has an earlier message, and a worker takes the member's lock
while no other one has an earlier message in hand. -/
def NoOvertaking (g : Group μ) : Action μ → Prop
  | .forwardSend r => ∀ l ∈ (g.forwarders[r]?).bind Forwarder.hand,
      l.First ((g.forwarders.eraseIdx r).flatMap Forwarder.pending)
  | .worker i => ∀ l ∈ (g.workers[i]?).bind Worker.hand,
      l.First ((g.workers.eraseIdx i).flatMap fun w => w.hand.toList)
  | _ => True

instance (g : Group μ) : ∀ a, Decidable (NoOvertaking g a)
  | .forwardSend r => inferInstanceAs (Decidable
      (∀ l ∈ (g.forwarders[r]?).bind Forwarder.hand,
        l.First ((g.forwarders.eraseIdx r).flatMap Forwarder.pending)))
  | .worker i => inferInstanceAs (Decidable
      (∀ l ∈ (g.workers[i]?).bind Worker.hand,
        l.First ((g.workers.eraseIdx i).flatMap fun w => w.hand.toList)))
  | .add _ | .getRef _ | .start | .shutdown | .wait | .endCall | .main
  | .mainLock _ | .send .. | .fastSend .. | .fastReturn _ | .dropRef _
  | .forwardRecv _ | .forwardExit _ | .reply .. | .handlerReturn _
  | .handlerPanic _ => .isTrue trivial

theorem flow_laneAt (g : Group μ) (r : Nat) :
    g.flow.laneAt r = ((g.forwarders[r]?).map Forwarder.pending).getD [] := by
  unfold Pipeline.laneAt
  cases hf : g.forwarders[r]? <;>
    simp [flow, hf, Lane.items, Forwarder.pending]

theorem flow_handAt (g : Group μ) (i : Nat) :
    g.flow.handAt i = ((g.workers[i]?).bind Worker.hand).toList := by
  unfold Pipeline.handAt
  cases hw : g.workers[i]? <;> simp [flow, hw, Worker.hand]

/-- A step that does not overtake is a step of the pipeline that does not
overtake. -/
theorem orderly_of_noOvertaking {g : Group μ} {a : Action μ}
    {b : Pipeline.Label (Letter μ)} (hok : NoOvertaking g a)
    (hr : g.Reads a b) :
    Pipeline.Orderly Letter.line Letter.id g.flow b := by
  cases b with
  | post k l => exact hr
  | unload r =>
    obtain ⟨rfl, f, l, hf, hhand⟩ := hr
    intro x hx r' hne y hy
    rw [flow_laneAt, hf] at hx
    have hxl : x = l := by simpa [Forwarder.pending, hhand, eq_comm] using hx
    rw [flow_laneAt] at hy
    cases hf' : g.forwarders[r']? with
    | none => simp [hf'] at hy
    | some f' =>
      rw [hf'] at hy
      have hmem : f' ∈ g.forwarders.eraseIdx r :=
        List.mem_eraseIdx_iff_getElem?.mpr ⟨r', hne, hf'⟩
      exact hok x (by simp [hf, hhand, hxl]) y
        (List.mem_flatMap.mpr ⟨f', hmem, hy⟩)
  | deliver i =>
    obtain rfl : a = .worker i := hr
    intro x hx j hne y hy
    rw [flow_handAt, Option.mem_toList] at hx hy
    obtain ⟨w', hw', hy'⟩ := Option.bind_eq_some_iff.mp hy
    have hmem : w' ∈ g.workers.eraseIdx i :=
      List.mem_eraseIdx_iff_getElem?.mpr ⟨j, hne, hw'⟩
    exact hok x hx y
      (List.mem_flatMap.mpr ⟨w', hmem, by simpa using hy'⟩)
  | _ => trivial

/-- In every run in which no step overtakes, the messages of each thread to
each member are handed over in the order sent. -/
theorem inSendOrder {n : Nat} {g : Group μ}
    (h : (machine μ n).Reach NoOvertaking g) : g.InSendOrder := by
  have hflow : g.flow.done.Pairwise (Pipeline.Earlier Letter.line Letter.id) := by
    refine Pipeline.ordered (Machine.Reach.simulate ?_ ?_ h)
    · rintro g rfl
      exact flow_new n
    · intro g a g' _ hok hstep
      rcases flow_move (move_of_step hstep) with heq | ⟨b, hr, hb⟩
      · exact Or.inl heq
      · exact Or.inr ⟨b, orderly_of_noOvertaking hok hr, hb⟩
  exact List.pairwise_map.mp hflow

/-- A group with one member and two workers, up to the end of `start`. -/
def startPair : List (Action Nat) :=
  [.add "a", .start, .mainLock 0, .main, .main, .main, .main, .main, .main,
    .main]

/-- Thread 0 sends two messages, and worker 0 handles `Start` and takes the
first of them. -/
def sendTwo : List (Action Nat) :=
  [.send (.client 0) 0 (.user 1) none, .send (.client 0) 0 (.user 2) none,
    .forwardRecv 0, .forwardSend 0, .forwardRecv 0, .forwardSend 0,
    .forwardRecv 0, .forwardSend 0, .worker 0, .worker 0, .worker 0,
    .handlerReturn 0, .worker 0, .worker 0]

/-- Worker 0 takes the member's lock before worker 1 takes the second message
from the queue: the order is kept. -/
theorem inSendOrder_patient : ∃ g : Group Nat,
    (machine Nat 2).Reach NoOvertaking g ∧ g.handed.length = 3 ∧
      g.InSendOrder := by
  have hrun := reach_after NoOvertaking 2 (startPair ++ sendTwo ++
      [.worker 0, .worker 1, .worker 1, .handlerReturn 0, .worker 1])
    (by decide)
  exact ⟨_, hrun, by decide, inSendOrder hrun⟩

/-- Worker 1 overtakes worker 0 between the queue and the member's lock: the
second message is handed over before the first. -/
theorem inSendOrder_fails : ∃ g : Group Nat,
    (machine Nat 2).Reachable g ∧ g.running = true ∧ ¬ g.InSendOrder := by
  have hrun := reach_after (fun _ _ => True) 2
    (startPair ++ sendTwo ++
      [.worker 1, .worker 1, .worker 1, .handlerReturn 1, .worker 0])
    (by decide)
  exact ⟨_, hrun, by decide, by decide⟩

end Group

end Actors
