import Actors.App.Program
import Actors.Manager.Replies
import Actors.Manager.Shutdown
import Actors.Manager.Starts

/-!
# Programs without `fast_send`

`Plain` is the discipline of a program that does not panic, calls neither
`ActorRuntime::stop` nor `fast_send`, keeps its references, and whose main
function leaves `Start` and `Shutdown` to the manager.  Then no reply channel is
ever under way (`async`), every actor can be sent to (`known`), and the mailbox
of every actor takes exactly one `Start` from the main thread, when `init` gets
to the actor (`welcomed`).
-/

namespace Actors

open Concur

variable {μ : Type}

/-- The step can occur in a program without `fast_send`. -/
def ManagerAction.plain : ManagerAction μ → Bool
  | .codePanic _ | .stop _ | .fastSend .. | .dropRefs _ => false
  | .send .main _ msg _ =>
    match msg with
    | .user _ => true
    | _ => false
  | _ => true

theorem ManagerAction.managed_of_plain {b : ManagerAction μ}
    (h : b.plain = true) : b.managed = true := by
  cases b <;> simp_all [plain, managed]

namespace Manager

/-- No panic, no `stop`, no `fast_send`, no `Start` or `Shutdown` from the main
function, and no reference is dropped. -/
def Plain (_ : Manager μ) (b : ManagerAction μ) : Prop := b.plain = true

theorem managed_of_plain {s : Manager μ} (h : (machine μ).Reach Plain s) :
    (machine μ).Reach Managed s :=
  h.mono fun _ _ => ManagerAction.managed_of_plain

/-! ## No reply channel -/

/-- No letter and no context has a reply channel. -/
structure Async (s : Manager μ) : Prop where
  sent : ∀ l ∈ s.sent, l.envelope.replyChannel = none
  contexts : ∀ a ∈ s.actors, a.context.replyChannel = none

theorem async_move {s s' : Manager μ} {b : ManagerAction μ} (hmailed : s.Mailed)
    (hok : Plain s b) (hmove : Move s b s') (h : s.Async) : s'.Async := by
  have hset : ∀ (k : Nat) (a : Runtime μ), s.actors[k]? = some a →
      a.context.replyChannel = none :=
    fun k a ha => h.contexts a (List.mem_of_getElem? ha)
  cases hmove with
  | manage name hidle =>
    refine { h with contexts := forall_mem_snoc ?_ rfl }
    unfold unregistered
    split
    · refine forall_mem_modify h.contexts (fun a ha => ?_) _
      exact ha
    · exact h.contexts
  | getRef name k hk | dropRefs k | spawn k todo hmain | stop k =>
    refine { h with contexts := forall_mem_modify h.contexts (fun a ha => ?_) k }
    exact ha
  | sendStart k todo a hmain ha hlive | sendShutdown k todo inEnd a hmain ha hlive
  | send t k msg sender a hcan hfree ha hlive =>
    exact ⟨forall_mem_snoc h.sent rfl, forall_mem_set h.contexts (hset k a ha)⟩
  | fastSend => simp [Plain, ManagerAction.plain] at hok
  | actor b k a a' events hb hfree ha hrun =>
    refine { h with contexts := forall_mem_set h.contexts ?_ }
    cases hrun with
    | recv l rest hpc hbox =>
      -- The new channel is that of a letter that was sent.
      have hbox' := hmailed.boxes k a ha
      have hmem : l ∈ a.accepted := by
        rw [hbox'.rest (by rw [hpc]; rfl), hbox]
        simp
      exact h.sent l (hbox'.mine l hmem).2
    | begin | initReturn | goOn | leave | closed | processReturn | endReturn =>
      exact hset k a ha
  | panic k a ha => exact { h with contexts := forall_mem_set h.contexts (hset k a ha) }
  | reply k msg a l ha hpc =>
    exact { h with contexts :=
      forall_mem_set h.contexts (ActorContext.reply_replyChannel _) }
  | _ => exact ⟨h.sent, h.contexts⟩

theorem async {s : Manager μ} (h : (machine μ).Reach Plain s) : s.Async := by
  refine invariant ?_ ?_ h
  · exact ⟨by simp [new], by simp [new]⟩
  · intro s b s' hreach hs hok hmove
    exact async_move (mailed hreach) hok hmove hs

/-! ## The references stay -/

theorem known_move {s s' : Manager μ} {b : ManagerAction μ}
    (halive : ∀ a ∈ s.actors, a.Alive) (hok : Plain s b) (hmove : Move s b s')
    (h : ∀ a ∈ s.actors, Holder.application ∈ a.senders) :
    ∀ a ∈ s'.actors, Holder.application ∈ a.senders := by
  have hset : ∀ (k : Nat) (a : Runtime μ), s.actors[k]? = some a →
      Holder.application ∈ a.senders :=
    fun k a ha => h a (List.mem_of_getElem? ha)
  cases hmove with
  | manage name hidle =>
    refine forall_mem_snoc ?_ (by simp [Manager.managed])
    unfold unregistered
    split
    · refine forall_mem_modify h (fun a ha => ?_) _
      simp [dropRegistered, ha]
    · exact h
  | getRef name k hk =>
    refine forall_mem_modify h (fun a ha => ?_) k
    exact List.mem_append_left _ ha
  | spawn k todo hmain =>
    refine forall_mem_modify h (fun a ha => ?_) k
    exact ha
  | sendStart k todo a hmain ha hlive | sendShutdown k todo inEnd a hmain ha hlive
  | send t k msg sender a hcan hfree ha hlive | reply k msg a l ha hpc =>
    exact forall_mem_set h (hset k a ha)
  | actor b k a a' events hb hfree ha hrun =>
    refine forall_mem_set h ?_
    cases hrun with
    | endReturn hpc =>
      exact absurd hpc (halive a (List.mem_of_getElem? ha)).inLoop.1
    | begin | initReturn | goOn | leave | recv | closed | processReturn =>
      exact hset k a ha
  | fastSend | dropRefs | panic | stop => simp [Plain, ManagerAction.plain] at hok
  | _ => exact h

/-- In a plain program the application keeps a reference to every actor. -/
theorem known {s : Manager μ} (h : (machine μ).Reach Plain s) :
    ∀ a ∈ s.actors, Holder.application ∈ a.senders := by
  refine invariant (I := fun s => ∀ a ∈ s.actors, Holder.application ∈ a.senders)
    (by simp [new]) ?_ h
  intro s b s' hreach hs hok hmove
  exact known_move (alive (managed_of_plain hreach)) hok hmove hs

/-! ## One `Start` for each actor -/

/-- How many letters with `Start` the mailbox of actor `k` took from the main
thread. -/
def startsTo (s : Manager μ) (k : Nat) : Nat :=
  s.sent.countP fun l => l.author = .main && l.via = k && l.envelope.msg.asStart.isSome

/-- Every actor has its one `Start` from the main thread, except those that
wait for it. -/
def Welcomed (s : Manager μ) : Prop :=
  ∀ k, s.startsTo k = if k < s.actors.length ∧ k ∉ s.waiting then 1 else 0

theorem startsTo_snoc {s s' : Manager μ} {l : Letter μ}
    (h : s'.sent = s.sent ++ [l]) (k : Nat) : s'.startsTo k = s.startsTo k +
      if (l.author = .main && l.via = k && l.envelope.msg.asStart.isSome) = true then 1
      else 0 := by
  rw [startsTo, h, List.countP_append, List.countP_singleton, startsTo]

/-- What a step adds: nothing, unless `init` sends its next `Start`. -/
theorem startsTo_of_step {s s' : Manager μ} {b : ManagerAction μ} (howned : s.Owned)
    (hok : Plain s b) (hstep : s.step b = some s') :
    ((∀ k, s'.startsTo k = s.startsTo k) ∧
        (b = .main → ∀ j todo, s.main ≠ .initSend (j :: todo))) ∨
      ∃ j todo, b = .main ∧ s.main = .initSend (j :: todo) ∧
        ∀ k, s'.startsTo k = s.startsTo k + if j = k then 1 else 0 := by
  cases move_of_step hstep with
  | sendStart j todo a hmain ha hlive =>
    refine Or.inr ⟨j, todo, rfl, hmain, fun k => ?_⟩
    rw [startsTo_snoc (s := s) rfl]
    by_cases hjk : j = k <;> simp [letterOf, Envelope.new, Message.asStart, hjk]
  | startRefused k todo a hmain ha hdead =>
    -- The actor has no thread yet, so it has not ended.
    have hpc : a.pc = .parked :=
      (howned.parked k a.pc (by simp [pcs, ha])).mpr
        (by simp [hmain, ManagerPc.starting])
    simp [hpc, RuntimePc.finished] at hdead
  | sendShutdown j todo inEnd a hmain ha hlive =>
    refine Or.inl ⟨fun k => ?_, by simp [hmain]⟩
    rw [startsTo_snoc (s := s) rfl]
    simp [letterOf, Envelope.new, Message.asStart]
  | send t j msg sender a hcan hfree ha hlive =>
    refine Or.inl ⟨fun k => ?_, by simp⟩
    rw [startsTo_snoc (s := s) rfl]
    cases t with
    | worker i | client i => simp [letterOf]
    | main =>
      cases msg with
      | user m => simp [letterOf, Envelope.new, Message.asStart]
      | start | shutdown | timeout | reject =>
        simp [Plain, ManagerAction.plain] at hok
  | fastSend => simp [Plain, ManagerAction.plain] at hok
  | refused _ k a hb =>
    obtain ⟨t, msg, sender, rfl | rfl⟩ := hb <;> exact Or.inl ⟨fun _ => rfl, by simp⟩
  | actor _ k a a' events hb =>
    rcases hb with rfl | rfl <;> exact Or.inl ⟨fun _ => rfl, by simp⟩
  | spawn k todo hmain | initDone hmain | runDone hmain | runSleep hmain
  | shutdownRefused k todo inEnd a hmain | shutdownThenWait hmain
  | shutdownDone hmain | join k todo inEnd a hmain | joined inEnd hmain =>
    exact Or.inl ⟨fun _ => rfl, by simp [hmain]⟩
  | _ => exact Or.inl ⟨fun _ => rfl, by simp⟩

theorem mem_length_of_waiting {s : Manager μ} (howned : s.Owned) {k : Nat}
    (h : k ∈ s.waiting) : k < s.actors.length := by
  have hlt := howned.bound k (List.mem_append_left _ (mem_of_waiting h))
  simpa [pcs] using hlt

theorem welcomed_step {s s' : Manager μ} {b : ManagerAction μ} (howned : s.Owned)
    (hok : Plain s b) (hstep : s.step b = some s') (h : s.Welcomed) :
    s'.Welcomed := by
  have hstarts := startsTo_of_step howned hok hstep
  have hlength := length_of_step hstep
  intro k
  rcases waiting_of_step howned hstep with ⟨hwait, hmanage, hinit⟩ |
    ⟨name, rfl, hwait⟩ | ⟨j, todo, hmain, rfl, hbefore, hafter, -⟩
  · -- Nobody is added, and nobody gets a `Start`.
    rcases hlength with ⟨name, hb, -⟩ | ⟨-, hlen⟩
    · exact absurd hb (hmanage name)
    rcases hstarts with ⟨hsame, -⟩ | ⟨j, todo, hb, hmain, -⟩
    · rw [hsame, h k, hlen, hwait]
    · exact absurd hmain (hinit hb j todo)
  · -- `manage` adds an actor, which waits.
    rcases hlength with ⟨-, -, hlen⟩ | ⟨hno, -⟩
    swap
    · exact absurd rfl (hno name)
    rcases hstarts with ⟨hsame, -⟩ | ⟨j, todo, hb, -, -⟩
    swap
    · simp at hb
    have hiff : (k < s.actors.length + 1 ∧ k ∉ s.waiting ++ [s.actors.length]) ↔
        (k < s.actors.length ∧ k ∉ s.waiting) := by
      simp only [List.mem_append, List.mem_singleton, not_or]
      constructor
      · rintro ⟨hlt, hout, hne⟩
        exact ⟨by omega, hout⟩
      · rintro ⟨hlt, hout⟩
        exact ⟨by omega, hout, by omega⟩
    rw [hsame, h k, hlen, hwait]
    simp only [hiff]
  · -- `init` sends to `j`, which does not wait any more.
    rcases hlength with ⟨name, hb, -⟩ | ⟨-, hlen⟩
    · simp at hb
    rcases hstarts with ⟨-, hno⟩ | ⟨i, rest, -, hmain', hcount⟩
    · exact absurd hmain (hno rfl j todo)
    rw [hmain, ManagerPc.initSend.injEq, List.cons.injEq] at hmain'
    obtain ⟨rfl, rfl⟩ := hmain'
    have hnodup := nodup_waiting howned
    rw [hbefore] at hnodup
    have hj : j ∉ s.runtimes ++ todo :=
      (List.nodup_cons.mp (List.perm_middle.nodup_iff.mp hnodup)).1
    have hjlt : j < s.actors.length := by
      refine mem_length_of_waiting howned ?_
      rw [hbefore]
      simp
    rw [hcount, h k, hlen, hbefore, hafter]
    by_cases hjk : j = k
    · subst hjk
      simp [hjlt, hj]
    · have hiff : k ∉ s.runtimes ++ j :: todo ↔ k ∉ s.runtimes ++ todo := by
        simp [Ne.symm hjk]
      simp only [hiff, if_neg hjk, Nat.add_zero]

/-- In a plain program the mailbox of every actor takes exactly one `Start`
from the main thread, and none before `init` gets to the actor. -/
theorem welcomed {s : Manager μ} (h : (machine μ).Reach Plain s) : s.Welcomed := by
  refine h.invariant ?_ ?_
  · rintro _ rfl k
    simp [new, startsTo]
  · intro s b s' hreach hs hok hstep
    exact welcomed_step (owned hreach) hok hstep hs

end Manager

end Actors
