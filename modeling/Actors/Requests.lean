import Actors.Group.Requests
import Actors.Manager.Requests

/-!
# How long a request waits

A caller of `fast_send` is meant to wait no longer than the handler runs.  The
code keeps this promise when every handler that was called with a request
replies before it returns, and in a group also before it panics: there the
context outlives the panic.  A standalone actor that panics drops its context.

A handler that returns without a reply leaves the `Sender` of the channel in
the context.  The caller then waits until the actor takes its next message, or
for ever.
-/

namespace Actors

variable {μ : Type}

/-- When handlers reply to a request before they return, no caller whose
request an actor has finished with is left without an outcome. -/
theorem requests_answered :
    (∀ (n : Nat) (g : Group μ),
      (Group.machine μ n).Reach Group.RepliesFirst g → g.Answered) ∧
    ∀ s : Manager μ, (Manager.machine μ).Reach Manager.RepliesFirst s →
      s.Answered :=
  ⟨fun _ _ => Group.answered, fun _ => Manager.answered⟩

/-- A member of a group and a standalone actor have replied to a request and
have returned from the handler, and the caller has not been scheduled yet. -/
theorem requests_answered_once :
    (∃ g : Group Nat, g.callers = [(.client 0, 1)] ∧
      (∀ w ∈ g.workers, w.pc = .check) ∧ g.Answered) ∧
    ∃ s : Manager Nat, s.callers = [(.client 0, 1)] ∧
      (∀ a ∈ s.actors, a.pc = .check) ∧ s.Answered := by
  have hg := Group.reach_after Group.RepliesFirst 1
    [.add "a", .start, .mainLock 0, .main, .main, .main, .main, .main, .main,
      .fastSend (.client 0) 0 (.user 1) none,
      .forwardRecv 0, .forwardSend 0, .forwardRecv 0, .forwardSend 0,
      .worker 0, .worker 0, .worker 0, .handlerReturn 0, .worker 0, .worker 0,
      .worker 0, .reply 0 (.user 5), .handlerReturn 0] (by decide)
  have hs := Manager.reach_after Manager.RepliesFirst
    [.manage "a", .init, .main, .main, .main,
      .fastSend (.client 0) 0 (.user 1) none,
      .actor 0, .codeReturn 0, .actor 0, .actor 0, .codeReturn 0, .actor 0,
      .actor 0, .reply 0 (.user 5), .codeReturn 0] (by decide)
  exact ⟨⟨_, by decide, by decide, requests_answered.1 1 _ hg⟩,
    ⟨_, by decide, by decide, requests_answered.2 _ hs⟩⟩

/-- A handler that returns without a reply leaves its caller waiting, in a
group and in a standalone actor. -/
theorem requests_unanswered :
    (¬ ∀ (n : Nat) (g : Group Nat), (Group.machine Nat n).Reachable g →
      g.Answered) ∧
    ¬ ∀ s : Manager Nat, (Manager.machine Nat).Reachable s → s.Answered := by
  have hg := Group.reach_after (fun _ _ => True) 1
    ([.add "a", .start, .mainLock 0, .main, .main, .main, .main, .main, .main,
      .fastSend (.client 0) 0 (.user 1) none,
      .forwardRecv 0, .forwardSend 0, .forwardRecv 0, .forwardSend 0,
      .worker 0, .worker 0, .worker 0, .handlerReturn 0, .worker 0, .worker 0,
      .worker 0, .handlerReturn 0] : List (Action Nat)) (by decide)
  have hs := Manager.reach_after (fun _ _ => True)
    ([.manage "a", .init, .main, .main, .main,
      .fastSend (.client 0) 0 (.user 1) none,
      .actor 0, .codeReturn 0, .actor 0, .actor 0, .codeReturn 0, .actor 0,
      .actor 0, .codeReturn 0, .actor 0] : List (ManagerAction Nat)) (by decide)
  constructor
  · intro h
    refine (h 1 _ hg 0 (by decide) (.client 0, 1) (by decide) ?_).elim ?_ ?_
    · decide
    · decide
    · decide
  · intro h
    -- The actor waits in `recv`.
    have hout : ∀ l, (RuntimePc.recv : RuntimePc Nat) ≠ .process l := by simp
    refine (h _ hs 0 _ rfl hout (.client 0, 1) (by decide) ?_).elim ?_ ?_
    · decide
    · decide
    · decide

end Actors
