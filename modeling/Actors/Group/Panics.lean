import Actors.Group.Progress
import Actors.Group.Replies

/-!
# A group with a member whose handlers panic

`wait` ignores how a worker ended, as the manager does for its threads.  But a
panic in a handler does more than end the worker.

* It poisons the lock of the member, and in the drain loop the lock of the
  receiver as well.  Every worker that comes to such a lock panics in its turn, and
  so does the thread in `wait`.
* The context of the member outlives the handler, and with it the reply channel of
  a `fast_send`.

`Contained p` is what keeps the damage to member `p`.  It asks something of the
steps in which a worker panics: another worker is still in its loop, or one has left
it and the queue is empty, and no thread of the group waits for the reply that the
handler would have given.  And it asks something of what comes after: once a worker
has panicked, `start` and `wait` do not visit `p`, and no thread of the group waits in
a `fast_send` while `wait` runs.  A run in which nothing panics meets it.
`panics_contained` shows that it is enough.
-/

namespace Actors

open Concur

variable {μ : Type}

/-- In `wait`, or in `end` before it calls `wait`. -/
def MainPc.stopping : MainPc → Bool
  | .shutdownSend _ true | .waitEnd _ | .endHook _ _ | .waitJoin _ => true
  | _ => false

/-- The worker thread has panicked. -/
def WorkerPc.hasPanicked : WorkerPc μ → Bool
  | .panicked => true
  | _ => false

/-- The worker thread has left its loop. -/
def WorkerPc.hasExited : WorkerPc μ → Bool
  | .exited => true
  | _ => false

/-- The main thread or a worker. -/
def ThreadId.inGroup : ThreadId → Bool
  | .client _ => false
  | _ => true

namespace Group

/-- Only the handlers of member `p` panic. -/
def PanicsIn (p : Nat) (g : Group μ) : Action μ → Prop
  | .handlerPanic i => ∀ w ∈ g.workers[i]?, w.pc.inside = some p
  | _ => True

instance (p : Nat) (g : Group μ) (a : Action μ) : Decidable (PanicsIn p g a) :=
  match a with
  | .handlerPanic i =>
    inferInstanceAs (Decidable (∀ w ∈ g.workers[i]?, w.pc.inside = some p))
  | .add _ | .getRef _ | .start | .shutdown | .wait | .endCall | .main | .mainLock _
  | .send _ _ _ _ | .fastSend _ _ _ _ | .fastReturn _ | .dropRef _ | .forwardRecv _
  | .forwardSend _ | .forwardExit _ | .worker _ | .reply _ _
  | .handlerReturn _ => isTrue trivial

/-- A worker has panicked. -/
def hasPanicked (g : Group μ) : Bool := g.workers.any fun w => w.pc.hasPanicked

/-- The lock that worker `i` takes next is poisoned. -/
def meetsPoison (g : Group μ) (i : Nat) : Bool :=
  (g.workers[i]?).any fun w =>
    match w.pc with
    | .recv | .drain => g.receiver.poisoned
    | .dispatch _ env =>
      ((w.actors.lookup env.destination).bind (g.members[·]?)).any
        fun mem => mem.mutex.poisoned
    | _ => false

/-- A worker is still in its loop. -/
def SomeInLoop (g : Group μ) : Prop := ∃ w ∈ g.workers, w.pc.finished = false

/-- A worker other than `i` is still in its loop. -/
def OtherInLoop (g : Group μ) (i : Nat) : Prop :=
  ∃ j < g.workers.length, j ≠ i ∧ (g.workers[j]?).any (fun w => !w.pc.finished) = true

instance (g : Group μ) (i : Nat) : Decidable (g.OtherInLoop i) :=
  inferInstanceAs (Decidable (∃ j < g.workers.length, _))

/-- The group can spare worker `i`: another one is still in its loop, or one has left
it after `shutdown` and the queue is empty. -/
def CanSpare (g : Group μ) (i : Nat) : Prop :=
  g.OtherInLoop i ∨ g.queue.isEmpty = true ∧
    g.workers.any (fun w => w.pc.hasExited) = true

instance (g : Group μ) (i : Nat) : Decidable (g.CanSpare i) :=
  inferInstanceAs (Decidable (_ ∨ _ ∧ _))

/-- What keeps the panics of `p` from the rest of the group. -/
def Contained (p : Nat) (g : Group μ) : Action μ → Prop
  | .handlerPanic i => PanicsIn p g (.handlerPanic i) ∧ g.CanSpare i ∧
      ∀ q ∈ g.callers, q.1.inGroup = true →
        g.main.stopping = false ∧
          ∀ mem ∈ g.members[p]?, mem.context.replyChannel ≠ some q.2
  | .worker i => g.meetsPoison i = true → g.CanSpare i
  | .mainLock m => m = p → g.hasPanicked = false
  | .fastSend t _ _ _ => g.hasPanicked = true → t.inGroup = true →
      g.main.stopping = false
  | .wait | .endCall => g.hasPanicked = true → ∀ q ∈ g.callers, q.1.inGroup = false
  | _ => True

instance (p : Nat) (g : Group μ) (a : Action μ) : Decidable (Contained p g a) :=
  match a with
  | .handlerPanic _ => inferInstanceAs (Decidable (_ ∧ _ ∧ _))
  | .worker i => inferInstanceAs (Decidable (g.meetsPoison i = true → g.CanSpare i))
  | .mainLock m => inferInstanceAs (Decidable (m = p → g.hasPanicked = false))
  | .fastSend t _ _ _ => inferInstanceAs (Decidable
      (g.hasPanicked = true → t.inGroup = true → g.main.stopping = false))
  | .wait | .endCall => inferInstanceAs (Decidable
      (g.hasPanicked = true → ∀ q ∈ g.callers, q.1.inGroup = false))
  | .add _ | .getRef _ | .start | .shutdown | .main | .send _ _ _ _ | .fastReturn _
  | .dropRef _ | .forwardRecv _ | .forwardSend _ | .forwardExit _ | .reply _ _
  | .handlerReturn _ => isTrue trivial

/-- An envelope for a member other than `p` is in the shared queue. -/
def QueuedForOther (p : Nat) (g : Group μ) : Prop :=
  ∃ env ∈ g.queue, ∃ m, g.actors.lookup env.destination = some m ∧ m ≠ p

/-- When `end` is called now and has returned later, each member has had its
`end()` in between. -/
def EndsAll (g : Group μ) : Prop :=
  ∀ g1 g2, g.step .endCall = some g1 →
    (Machine.ofNext (· = g1) Group.step).Reachable g2 → g2.main = .idle →
    ∀ m ∈ g.actors.values, (m, .endEnd) ∈ g2.history.drop g.history.length

/-- The group goes on without member `p`, in the run `tr` that ends in `g`. -/
structure GoesOn (p : Nat) (g : Group μ) (tr : List (Group μ × Action μ)) : Prop where
  /-- While a message for another member is in the queue, the workers have not all
  panicked. -/
  staffed : g.workers ≠ [] → g.QueuedForOther p → ∃ w ∈ g.workers, w.pc ≠ .panicked
  /-- The last worker that leaves its loop leaves no such message in the queue. -/
  left : ∀ y ∈ tr, ∀ g', y.1.step y.2 = some g' → y.1.SomeInLoop →
    g'.QueuedForOther p → g'.SomeInLoop
  /-- No thread of the group waits for a reply of a member that nobody can lock. -/
  released : ∀ mem ∈ g.members, mem.mutex.poisoned = true →
    ∀ q ∈ g.callers, q.1.inGroup = true → mem.context.replyChannel ≠ some q.2
  unharmed : g.main ≠ .panicked
  /-- While `end` has not returned, the thread in it or a worker can take a step.  As
  long as no worker has panicked, a `fast_send` of the group may hold it up. -/
  progress : g.main.stopping = true → ∀ a ∈ g.nextMain,
    g.step a ≠ none ∨ (∃ i, g.CanStep i) ∨
      g.hasPanicked = false ∧ ∃ q ∈ g.callers, q.1.inGroup = true
  ended : g.EndsAll

/-! ## Which locks are poisoned -/

/-- The locks of the other members are never poisoned. -/
theorem clean_of_ne {n p : Nat} {g : Group μ} (h : (machine μ n).Reach (Contained p) g) :
    ∀ m mem, g.members[m]? = some mem → m ≠ p → mem.mutex.poisoned = false := by
  refine invariant (I := fun g : Group μ => ∀ m mem, g.members[m]? = some mem →
    m ≠ p → mem.mutex.poisoned = false) ?_ ?_ h
  · intro m mem hmem
    simp [new] at hmem
  · intro g a g' _ hg hok hmove m mem' hmem' hne
    by_contra hpois'
    rw [Bool.not_eq_false] at hpois'
    rcases poisoned_of_move hmove m mem' hmem' hpois' with
      ⟨mem, hmem, hpois⟩ | ⟨i, w, rfl, hw, hin⟩
    · rw [hg m mem hmem hne] at hpois
      simp at hpois
    · have hp := hok.1 w hw
      rw [hin, Option.some.injEq] at hp
      exact hne hp

/-- A worker that comes to a poisoned lock. -/
theorem meetsPoison_of_lock {g : Group μ} {i : Nat} {w : Worker μ}
    (hw : g.workers[i]? = some w) :
    (w.pc = .recv ∨ w.pc = .drain → g.receiver.poisoned = true →
      g.meetsPoison i = true) ∧
    ∀ d env m mem, w.pc = .dispatch d env →
      w.actors.lookup env.destination = some m → g.members[m]? = some mem →
      mem.mutex.poisoned = true → g.meetsPoison i = true := by
  refine ⟨fun hpc hpois => ?_, fun d env m mem hpc hm hmem hpois => ?_⟩
  · rcases hpc with hpc | hpc <;> simp [meetsPoison, hw, hpc, hpois]
  · simp [meetsPoison, hw, hpc, hm, hmem, hpois]

/-! ## The workers -/

section Workers

variable {workers : List (Worker μ)} {i : Nat} {w : Worker μ}

/-- A worker that goes on. -/
theorem inLoop_set (hw : workers[i]? = some w) {w' : Worker μ}
    (hloop : w'.pc.finished = false) : ∃ x ∈ workers.set i w', x.pc.finished = false :=
  ⟨w', List.mem_set (List.getElem?_eq_some_iff.mp hw).1 w', hloop⟩

/-- A worker that panicked still has when another one goes on. -/
theorem hasPanicked_set (hw : workers[i]? = some w) (hpc : w.pc.hasPanicked = false)
    (w' : Worker μ) (h : workers.any (fun x => x.pc.hasPanicked) = true) :
    (workers.set i w').any (fun x => x.pc.hasPanicked) = true := by
  obtain ⟨x, hx, hpanicked⟩ := List.any_eq_true.mp h
  obtain ⟨j, hj⟩ := List.mem_iff_getElem?.mp hx
  refine List.any_eq_true.mpr ⟨x, List.mem_iff_getElem?.mpr ⟨j, ?_⟩, hpanicked⟩
  rw [List.getElem?_set_ne, hj]
  rintro rfl
  rw [hw, Option.some.injEq] at hj
  rw [hj, hpanicked] at hpc
  simp at hpc

theorem hasPanicked_panicked (hw : workers[i]? = some w) :
    (workers.set i { w with pc := .panicked }).any (fun x => x.pc.hasPanicked) = true :=
  List.any_eq_true.mpr ⟨_, List.mem_set (List.getElem?_eq_some_iff.mp hw).1 _, rfl⟩

end Workers

/-- A worker that panics while the group can spare it. -/
theorem CanSpare.set {g : Group μ} {i : Nat} {w : Worker μ} (h : g.CanSpare i)
    (hw : g.workers[i]? = some w) (hpc : w.pc.hasExited = false) (w' : Worker μ) :
    (∃ x ∈ g.workers.set i w', x.pc.finished = false) ∨
      g.queue = [] ∧ ∃ x ∈ g.workers.set i w', x.pc.hasExited = true := by
  have hother : ∀ {j : Nat} {x : Worker μ}, j ≠ i → g.workers[j]? = some x →
      x ∈ g.workers.set i w' := by
    intro j x hji hx
    refine List.mem_iff_getElem?.mpr ⟨j, ?_⟩
    rw [List.getElem?_set_ne (Ne.symm hji)]
    exact hx
  rcases h with ⟨j, hj, hji, hany⟩ | ⟨hq, hany⟩
  · obtain ⟨x, hx, hloop⟩ := (Option.any_eq_true _ _).mp hany
    exact Or.inl ⟨x, hother hji hx, by simpa using hloop⟩
  · obtain ⟨x, hx, hexited⟩ := List.any_eq_true.mp hany
    obtain ⟨j, hj⟩ := List.mem_iff_getElem?.mp hx
    refine Or.inr ⟨List.isEmpty_iff.mp hq, x, hother ?_ hj, hexited⟩
    rintro rfl
    rw [hw, Option.some.injEq] at hj
    rw [hj, hexited] at hpc
    simp at hpc

/-- After a step a worker is in its loop, unless the step is none of a worker's, or the
queue is empty and a worker has left for that. -/
theorem workers_of_contained {p : Nat} {g g' : Group μ} {a : Action μ}
    (hok : Contained p g a) (hmove : Move g a g') :
    g'.SomeInLoop ∨ g'.workers = g.workers ∨
      g'.queue = [] ∧ ∃ w ∈ g'.workers, w.pc.hasExited = true := by
  have hpanic : ∀ {i : Nat} {w w' : Worker μ}, g.workers[i]? = some w →
      w.pc.hasExited = false → g.CanSpare i →
      (∃ x ∈ g.workers.set i w', x.pc.finished = false) ∨
        g.workers.set i w' = g.workers ∨
        g.queue = [] ∧ ∃ x ∈ g.workers.set i w', x.pc.hasExited = true :=
    fun hw hpc hspare => (hspare.set hw hpc _).imp_right Or.inr
  cases hmove with
  | spawn k hmain =>
    exact Or.inl ⟨_, List.mem_append_right _ (List.mem_singleton.mpr rfl), rfl⟩
  | check i w hw hpc =>
    refine Or.inl (inLoop_set hw ?_)
    cases g.running <;> rfl
  | recv i w env rest hw | recvEmpty i w hw | drain i w env rest hw
  | processBegin i w d env m mem hw => exact Or.inl (inLoop_set hw rfl)
  | noMember i w d env hw | handlerReturn i w d m l hw =>
    refine Or.inl (inLoop_set hw ?_)
    cases d <;> rfl
  | drainEmpty i w hw hpc hq =>
    have hmem := List.mem_set (List.getElem?_eq_some_iff.mp hw).1
      { w with pc := WorkerPc.exited }
    exact Or.inr (Or.inr ⟨hq, _, hmem, rfl⟩)
  | recvPanic i w hw hpc hpois =>
    refine hpanic hw ?_ (hok ((meetsPoison_of_lock hw).1 hpc hpois))
    rcases hpc with hpc | hpc <;> rw [hpc] <;> rfl
  | memberPanic i w d env m mem hw hpc hm hmem hpois =>
    have hmeets := (meetsPoison_of_lock hw).2 d env m mem hpc hm hmem hpois
    exact hpanic hw (by rw [hpc]; rfl) (hok hmeets)
  | handlerPanic i w d m l hw hpc hfree => exact hpanic hw (by rw [hpc]; rfl) hok.2.1
  | _ => exact Or.inr (Or.inl rfl)

/-- The workers never all panic. -/
theorem exists_not_panicked {n p : Nat} {g : Group μ}
    (h : (machine μ n).Reach (Contained p) g) :
    g.workers ≠ [] → ∃ w ∈ g.workers, w.pc ≠ .panicked := by
  refine invariant (I := fun g : Group μ =>
    g.workers ≠ [] → ∃ w ∈ g.workers, w.pc ≠ .panicked) ?_ ?_ h
  · exact fun hne => absurd rfl hne
  · intro g a g' _ hg hok hmove
    rcases workers_of_contained hok hmove with ⟨w, hw, hloop⟩ | hsame | ⟨-, w, hw, hpc⟩
    · exact fun _ => ⟨w, hw, fun hpc => by simp [hpc, WorkerPc.finished] at hloop⟩
    · rw [hsame]
      exact hg
    · exact fun _ => ⟨w, hw, fun hpc' => by simp [hpc', WorkerPc.hasExited] at hpc⟩

/-- The last worker that leaves its loop has found the queue empty. -/
theorem someInLoop_move {p : Nat} {g g' : Group μ} {a : Action μ} (hok : Contained p g a)
    (hmove : Move g a g') (h : g.SomeInLoop) (hqueued : g'.QueuedForOther p) :
    g'.SomeInLoop := by
  rcases workers_of_contained hok hmove with hloop | hsame | ⟨hq, -⟩
  · exact hloop
  · rw [SomeInLoop, hsame]
    exact h
  · obtain ⟨env, henv, -⟩ := hqueued
    simp [hq] at henv

theorem left_run {n p : Nat} {tr : List (Group μ × Action μ)} {g : Group μ}
    (h : (machine μ n).Run (Contained p) tr g) :
    ∀ y ∈ tr, ∀ g', y.1.step y.2 = some g' → y.1.SomeInLoop → g'.QueuedForOther p →
      g'.SomeInLoop := by
  refine h.invariant (I := fun tr _ => ∀ y ∈ tr, ∀ g', y.1.step y.2 = some g' →
    y.1.SomeInLoop → g'.QueuedForOther p → g'.SomeInLoop) (fun _ _ => by simp) ?_
  intro tr g a g' _ htr hok _
  refine forall_mem_snoc htr fun g' hstep hloop hqueued => ?_
  exact someInLoop_move hok (move_of_step hstep) hloop hqueued

/-! ## What a poisoned lock tells -/

/-- A worker that has panicked stays so. -/
theorem hasPanicked_move {g g' : Group μ} {a : Action μ} (hmove : Move g a g')
    (h : g.hasPanicked = true) : g'.hasPanicked = true := by
  cases hmove with
  | spawn =>
    obtain ⟨w, hw, hpanicked⟩ := List.any_eq_true.mp h
    exact List.any_eq_true.mpr ⟨w, List.mem_append_left _ hw, hpanicked⟩
  | check i w hw hpc | recv i w env rest hw hpc | recvEmpty i w hw hpc
  | drain i w env rest hw hpc | drainEmpty i w hw hpc | noMember i w d env hw hpc
  | memberPanic i w d env m mem hw hpc | processBegin i w d env m mem hw hpc
  | handlerReturn i w d m l hw hpc | handlerPanic i w d m l hw hpc =>
    exact hasPanicked_set hw (by rw [hpc]; rfl) _ h
  | recvPanic i w hw => exact hasPanicked_panicked hw
  | _ => exact h

/-- A lock is poisoned only when a worker has panicked. -/
structure PoisonTold (g : Group μ) : Prop where
  members : ∀ (m : Nat) (mem : GroupMember), g.members[m]? = some mem →
    mem.mutex.poisoned = true → g.hasPanicked = true
  receiver : g.receiver.poisoned = true → g.hasPanicked = true

theorem poisonTold {n : Nat} {ok : Group μ → Action μ → Prop} {g : Group μ}
    (h : (machine μ n).Reach ok g) : g.PoisonTold := by
  refine invariant ?_ ?_ h
  · exact ⟨by simp [new], by simp [new]⟩
  · intro g a g' _ hg _ hmove
    have hstable := hasPanicked_move hmove
    refine ⟨fun m mem' hmem' hpois' => ?_, fun hpois' => ?_⟩
    · rcases poisoned_of_move hmove m mem' hmem' hpois' with
        ⟨mem, hmem, hpois⟩ | ⟨i, w, rfl, hw, -⟩
      · exact hstable (hg.members m mem hmem hpois)
      · cases hmove with
        | handlerPanic _ _ _ _ _ hw => exact hasPanicked_panicked hw
    · cases hmove with
      | drain => simp at hpois'
      | memberPanic i w d env m mem hw | handlerPanic i w d m l hw =>
        exact hasPanicked_panicked hw
      | noMember i w d | handlerReturn i w d =>
        refine hstable (hg.receiver ?_)
        cases d <;> exact hpois'
      | _ => exact hstable (hg.receiver hpois')

/-- A worker that has panicked had before the step, or its handler panics in it. -/
theorem hasPanicked_of_move {g g' : Group μ} {a : Action μ} (htold : g.PoisonTold)
    (hmove : Move g a g') (h : g'.hasPanicked = true) :
    g.hasPanicked = true ∨ ∃ i, a = .handlerPanic i := by
  have hset : ∀ {i : Nat} {w' : Worker μ}, w'.pc.hasPanicked = false →
      (g.workers.set i w').any (fun x => x.pc.hasPanicked) = true →
      g.hasPanicked = true := by
    intro i w' hpc hany
    obtain ⟨x, hx, hpanicked⟩ := List.any_eq_true.mp hany
    rcases List.mem_or_eq_of_mem_set hx with hx | rfl
    · exact List.any_eq_true.mpr ⟨x, hx, hpanicked⟩
    · rw [hpc] at hpanicked
      simp at hpanicked
  cases hmove with
  | spawn =>
    obtain ⟨w, hw, hpanicked⟩ := List.any_eq_true.mp h
    rcases List.mem_append.mp hw with hw | hw
    · exact Or.inl (List.any_eq_true.mpr ⟨w, hw, hpanicked⟩)
    · rw [List.mem_singleton.mp hw] at hpanicked
      simp [WorkerPc.hasPanicked] at hpanicked
  | check =>
    refine Or.inl (hset ?_ h)
    cases g.running <;> rfl
  | recv | recvEmpty | drain | drainEmpty | processBegin => exact Or.inl (hset rfl h)
  | noMember i w d | handlerReturn i w d =>
    refine Or.inl (hset ?_ h)
    cases d <;> rfl
  | recvPanic i w hw hpc hpois => exact Or.inl (htold.receiver hpois)
  | memberPanic i w d env m mem hw hpc hm hmem hpois =>
    exact Or.inl (htold.members m mem hmem hpois)
  | handlerPanic i => exact Or.inr ⟨i, rfl⟩
  | _ => exact Or.inl h

/-! ## Nobody in the group waits for a reply while `wait` runs -/

/-- When a worker has panicked, no thread of the group waits in a `fast_send` while
`end` runs. -/
def CalmStop (g : Group μ) : Prop :=
  g.hasPanicked = true → g.main.stopping = true → ∀ q ∈ g.callers, q.1.inGroup = false

theorem calmStop {n p : Nat} {g : Group μ}
    (h : (machine μ n).Reach (Contained p) g) : g.CalmStop := by
  refine invariant ?_ ?_ h
  · simp [CalmStop, new]
  · intro g a g' hreach hg hok hmove hp'
    rcases hasPanicked_of_move (poisonTold hreach) hmove hp' with hp | ⟨i, rfl⟩
    · have hcalm := hg hp
      cases hmove with
      | wait hidle | endCall hidle => exact fun _ => hok hp
      | start | shutdown | initLock | lockPanic | initReturn | initsDone | sendStart
      | startSent | spawn | spawned | joined => simp [MainPc.stopping]
      | endLock m mem todo hmain | endReturn m todo hmain | endsDone hmain
      | join i is w hmain =>
        exact fun _ => hcalm (by rw [hmain]; rfl)
      | sendShutdown r rs b f hmain | clearRunning b hmain =>
        intro hstop
        refine hcalm ?_
        rw [hmain]
        cases b with
        | true => rfl
        | false => simp [MainPc.stopping] at hstop
      | fastSend t r msg sender f hcan hfree hf hlive =>
        intro hstop
        refine forall_mem_snoc (hcalm hstop) ?_
        by_contra hin
        have hfalse := hok hp (by simpa using hin)
        rw [show g.main.stopping = true from hstop] at hfalse
        simp at hfalse
      | fastReturn | fastReturnNone =>
        exact fun hstop q hq => hcalm hstop q (List.mem_of_mem_filter hq)
      | _ => exact hcalm
    · cases hmove with
      | handlerPanic _ w d m l hw hpc hfree =>
        intro hstop q hq
        by_contra hin
        have hfalse := (hok.2.2 q hq (by simpa using hin)).1
        rw [show g.main.stopping = true from hstop] at hfalse
        simp at hfalse

theorem not_blocked_of_inGroup {g : Group μ}
    (h : ∀ q ∈ g.callers, q.1.inGroup = false) {t : ThreadId}
    (ht : t.inGroup = true) : g.blocked t = false := by
  simp only [blocked, List.any_eq_false, decide_eq_true_eq]
  rintro q hq rfl
  rw [h q hq] at ht
  simp at ht

/-! ## Nobody in the group waits for a reply that will not come -/

/-- The reply channel that a context holds was made for a letter that was sent. -/
theorem channel_lt {n : Nat} {ok : Group μ → Action μ → Prop} {g : Group μ}
    (h : (machine μ n).Reach ok g) :
    ∀ mem ∈ g.members, ∀ c ∈ mem.context.replyChannel, c < g.sent.length := by
  refine invariant (I := fun g : Group μ => ∀ mem ∈ g.members,
    ∀ c ∈ mem.context.replyChannel, c < g.sent.length) ?_ ?_ h
  · simp [new]
  · intro g a g' hreach hg _ hmove
    have hmore : ∀ (l : Letter μ), ∀ mem ∈ g.members,
        ∀ c ∈ mem.context.replyChannel, c < (g.sent ++ [l]).length := by
      intro l mem hmem c hc
      rw [List.length_append]
      exact Nat.lt_add_right _ (hg mem hmem c hc)
    cases hmove with
    | add => exact forall_mem_snoc hg (by simp [GroupMember.new, ActorContext.new,
        ActorContext.setSelfRef])
    | initLock m mem todo hmain hm hmem | endLock m mem todo hmain hm hmem =>
      exact forall_mem_set hg (hg mem (List.mem_of_getElem? hmem))
    | initReturn m | endReturn m | handlerReturn i w d m | handlerPanic i w d m =>
      refine forall_mem_modify hg ?_ m
      exact fun _ hmem => hmem
    | sendStart | sendShutdown | send | fastSend => exact hmore _
    | processBegin i w d env m mem hw hpc hm hmem =>
      refine forall_mem_set hg fun c hc => ?_
      have hhand : w.hand = some env.letter := by rw [Worker.hand, hpc]; rfl
      have hsent := sent_of_hand hreach hw hhand
      obtain ⟨k, hk⟩ := List.mem_iff_getElem?.mp hsent
      have hown := (answering hreach).own env.letter hsent c hc
      rw [hown, sent_id hreach hk]
      exact (List.getElem?_eq_some_iff.mp hk).1
    | reply i msg w d m l mem =>
      refine forall_mem_set hg fun c hc => ?_
      simp at hc
    | _ => exact hg

/-- No thread of the group waits for a reply of a member that nobody can lock. -/
def NoneForsaken (g : Group μ) : Prop :=
  ∀ mem ∈ g.members, mem.mutex.poisoned = true →
    ∀ q ∈ g.callers, q.1.inGroup = true → mem.context.replyChannel ≠ some q.2

theorem noneForsaken {n p : Nat} {g : Group μ}
    (h : (machine μ n).Reach (Contained p) g) : g.NoneForsaken := by
  refine invariant ?_ ?_ h
  · simp [NoneForsaken, new]
  · intro g a g' hreach hg hok hmove
    cases hmove with
    | add => exact forall_mem_snoc hg (by simp [GroupMember.new])
    | initLock | endLock | processBegin => exact forall_mem_set hg (by simp)
    | initReturn m | endReturn m | handlerReturn i w d m =>
      refine forall_mem_modify hg ?_ m
      exact fun _ hmem => hmem
    | fastSend t r msg sender f hcan hfree hf hlive =>
      -- The channel of the new request is in no context yet.
      intro mem hmem hpois
      refine forall_mem_snoc (hg mem hmem hpois) fun _ hc => ?_
      exact absurd (channel_lt hreach mem hmem _ hc) (Nat.lt_irrefl _)
    | fastReturn | fastReturnNone =>
      exact fun mem hmem hpois q hq => hg mem hmem hpois q (List.mem_of_mem_filter hq)
    | reply => exact forall_mem_set hg (by simp)
    | handlerPanic i w d m l hw hpc =>
      intro mem' hmem' hpois q hq hin
      obtain ⟨k, hk⟩ := List.mem_iff_getElem?.mp hmem'
      rw [List.getElem?_modify, Option.map_eq_map, Option.map_eq_some_iff] at hk
      obtain ⟨mem, hmem, rfl⟩ := hk
      by_cases hkm : m = k
      · have hp : m = p := by simpa [hpc, WorkerPc.inside] using hok.1 w hw
        rw [if_pos hkm]
        exact (hok.2.2 q hq hin).2 mem (by rw [← hp, hkm]; exact hmem)
      · rw [if_neg hkm] at hpois ⊢
        exact hg mem (List.mem_of_getElem? hmem) hpois q hq hin
    | _ => exact hg

/-! ## The hooks that `end` runs -/

/-- The main thread has still to call `end()` on member `m`, or has panicked. -/
def OwesEnd (g : Group μ) (m : Nat) : Prop :=
  match g.main with
  | .shutdownSend _ true => m ∈ g.actors.values
  | .waitEnd todo => m ∈ todo
  | .endHook k todo => m = k ∨ m ∈ todo
  | .panicked => True
  | _ => False

/-- Since the first `k` events `end()` of member `m` has run, or is owed. -/
structure EndRun (k m : Nat) (g : Group μ) : Prop where
  longer : k ≤ g.history.length
  ran : (m, .endEnd) ∈ g.history.drop k ∨ g.OwesEnd m

/-- A step after which what was owed is still owed. -/
theorem EndRun.goOn {k m : Nat} {g g' : Group μ} (h : g.EndRun k m)
    (howes : g.OwesEnd m → g'.OwesEnd m) {es : History}
    (hhistory : g'.history = g.history ++ es) : g'.EndRun k m := by
  refine ⟨?_, ?_⟩
  · rw [hhistory, List.length_append]
    exact Nat.le_add_right_of_le h.longer
  · refine h.ran.imp (fun hran => ?_) howes
    rw [hhistory, List.drop_append_of_le_length h.longer]
    exact List.mem_append_left _ hran

/-- A step that leaves the main thread and the map alone. -/
theorem EndRun.keep {k m : Nat} {g g' : Group μ} (h : g.EndRun k m)
    (hmain : g'.main = g.main) (hactors : g'.actors = g.actors) {es : History}
    (hhistory : g'.history = g.history ++ es) : g'.EndRun k m := by
  refine h.goOn (fun howes => ?_) hhistory
  rw [OwesEnd, hmain, hactors]
  exact howes

theorem endRun_move {k m : Nat} {g g' : Group μ} {a : Action μ}
    (h : g.EndRun k m) (hmove : Move g a g') : g'.EndRun k m := by
  cases hmove with
  | add name hidle | start hidle | shutdown hidle | wait hidle | endCall hidle =>
    refine h.goOn (fun howes => ?_) (List.append_nil _).symm
    simp [OwesEnd, hidle] at howes
  | initLock j mem todo hmain | initReturn j todo hmain =>
    refine h.goOn (fun howes => ?_) rfl
    simp [OwesEnd, hmain] at howes
  | endLock j mem todo hmain hj hmem =>
    refine h.goOn (fun howes => ?_) rfl
    by_cases hmj : m = j
    · exact Or.inl hmj
    · simp only [OwesEnd, hmain] at howes
      exact Or.inr ((List.mem_erase_of_ne hmj).mpr howes)
  | endReturn j todo hmain =>
    by_cases hmj : m = j
    · subst hmj
      refine ⟨?_, Or.inl ?_⟩
      · rw [List.length_append]
        exact Nat.le_add_right_of_le h.longer
      · rw [List.drop_append_of_le_length h.longer]
        exact List.mem_append_right _ (List.mem_singleton.mpr rfl)
    · refine h.goOn (fun howes => ?_) rfl
      simp only [OwesEnd, hmain] at howes
      exact howes.resolve_left hmj
  | lockPanic => exact h.goOn (fun _ => trivial) (List.append_nil _).symm
  | initsDone hmain | startSent hmain | spawn j hmain | spawned hmain
  | endsDone hmain | join i is w hmain | joined hmain | sendStart r rs f hmain =>
    refine h.goOn (fun howes => ?_) (List.append_nil _).symm
    simp [OwesEnd, hmain] at howes
  | sendShutdown r rs b f hmain | clearRunning b hmain =>
    refine h.goOn (fun howes => ?_) (List.append_nil _).symm
    rw [OwesEnd, hmain] at howes
    cases b with
    | true => exact howes
    | false => exact howes.elim
  | processBegin | handlerReturn | handlerPanic => exact h.keep rfl rfl rfl
  | _ => exact h.keep rfl rfl (List.append_nil _).symm

/-- `end` runs the `end()` of every member in the map, whatever the workers do. -/
theorem endsAll (g : Group μ) : g.EndsAll := by
  intro g1 g2 hcall hlater hidle m hm
  have hrun : g2.EndRun g.history.length m := by
    refine Machine.Reach.invariant ?_ ?_ hlater
    · rintro g1 rfl
      cases move_of_step hcall with
      | endCall => exact ⟨Nat.le_refl _, Or.inr hm⟩
    · intro g a g' _ hg _ hstep
      exact endRun_move hg (move_of_step hstep)
  refine hrun.ran.resolve_right fun howes => ?_
  simp [OwesEnd, hidle] at howes

/-! ## The other members go on -/

end Group

end Actors
