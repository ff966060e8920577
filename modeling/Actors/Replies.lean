import Actors.Group.Replies
import Actors.Manager.Replies

/-!
# No reply is misrouted

Standalone actors and members of a group reply by the same rules.  For both,
whatever the interleaving, each message passed to `ctx.reply` takes the route
of the envelope that was being handled, a reply channel carries at most one
message, and a `fast_send` that returns a message returns the first reply to
its own envelope.
-/

namespace Actors

variable {μ : Type}

/-- No reply of a group or of a standalone actor is misrouted, and every reply
was issued for a letter that was handed to the actor that replied. -/
theorem replies_faithful :
    (∀ (n : Nat) (g : Group μ), (Group.machine μ n).Reachable g →
      g.ledger.Faithful g.refOf ∧ ∀ r ∈ g.ledger.replies,
        ∃ c ∈ g.handed, c.actor = r.actor ∧ c.letter = r.letter) ∧
    ∀ s : Manager μ, (Manager.machine μ).Reachable s →
      s.ledger.Faithful s.refOf ∧ ∀ r ∈ s.ledger.replies,
        ∃ a, s.actors[r.actor]? = some a ∧ r.letter ∈ a.letters := by
  refine ⟨fun n g hg => ?_, fun s hs => ?_⟩
  · exact ⟨(Group.answering hg).faithful, (Group.answering hg).handled⟩
  · exact ⟨(Manager.answering hs).faithful, (Manager.answering hs).handled⟩

/-- A member of a group and a standalone actor each reply twice to a
`fast_send` that also has a sender: the caller gets the first reply, and the
second goes to the sender. -/
theorem replies_faithful_twice :
    (∃ g : Group Nat, g.ledger.returns = [(1, some (.user 5))] ∧
      g.ledger.replies.length = 2 ∧ g.ledger.Faithful g.refOf) ∧
    ∃ s : Manager Nat, s.ledger.returns = [(1, some (.user 5))] ∧
      s.ledger.replies.length = 2 ∧ s.ledger.Faithful s.refOf := by
  have hg := Group.reach_after (fun _ _ => True) 1
    [.add "a", .start, .mainLock 0, .main, .main, .main, .main, .main, .main,
      .fastSend (.client 0) 0 (.user 1)
        (some (.localRef { sender := 7, name := "c" })),
      .forwardRecv 0, .forwardSend 0, .forwardRecv 0, .forwardSend 0,
      .worker 0, .worker 0, .worker 0, .handlerReturn 0, .worker 0, .worker 0,
      .worker 0, .reply 0 (.user 5), .reply 0 (.user 6),
      .fastReturn (.client 0)] (by decide)
  have hs := Manager.reach_after (fun _ _ => True)
    [.manage "a", .init, .main, .main, .main,
      .fastSend (.client 0) 0 (.user 1)
        (some (.localRef { sender := 7, name := "c" })),
      .actor 0, .codeReturn 0, .actor 0, .actor 0, .codeReturn 0, .actor 0,
      .actor 0, .reply 0 (.user 5), .reply 0 (.user 6),
      .fastReturn (.client 0)] (by decide)
  exact ⟨⟨_, by decide, by decide, (replies_faithful.1 1 _ hg).1⟩,
    ⟨_, by decide, by decide, (replies_faithful.2 _ hs).1⟩⟩

end Actors
