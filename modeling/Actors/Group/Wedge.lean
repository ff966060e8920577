import Actors.Group.Replies
import Actors.Group.Waits

/-!
# A pool that waits for itself

A handler that calls `fast_send` keeps its worker and the lock of its member
until the reply is there, and only a worker can bring the reply.  The pool is
`Wedged` when such a handler waits and neither a worker nor a forwarder can take
a step.

Two things can take the other workers away.  They may wait for the lock of the
member that asks, with further messages for it in hand.  Or the worker that asks
took its message in the drain loop, so that it holds the receiver lock.
`not_wedged` says that nothing else can: a worker that has no message for the
asking member can go on, or it waits for one that can.
-/

namespace Actors

open Concur

variable {μ : Type}

/-- The label is a step of a worker or of a forwarding thread. -/
def Action.ofPool : Action μ → Bool
  | .worker _ | .reply _ _ | .handlerReturn _ | .handlerPanic _
  | .send (.worker _) _ _ _ | .fastSend (.worker _) _ _ _ | .fastReturn (.worker _)
  | .forwardRecv _ | .forwardSend _ | .forwardExit _ => true
  | _ => false

/-- In the normal path of the loop. -/
def WorkerPc.normal : WorkerPc μ → Bool
  | .check | .recv | .dispatch false _ | .process false _ _ => true
  | _ => false

/-- The member that a worker dispatches to, or that it is inside of. -/
def Worker.serving (w : Worker μ) : Option Nat :=
  match w.pc with
  | .dispatch _ env => w.actors.lookup env.destination
  | .process _ m _ => some m
  | _ => none

namespace Group

/-- Only handlers of member `a` call `fast_send`, on references with the name of
member `b`, whose handlers reply before they return.  No handler panics. -/
def AsksOne (a b : Nat) (g : Group μ) : Action μ → Prop
  | .fastSend t r _ _ => (∃ i < g.workers.length, t = .worker i) ∧
      insideOf g.main g.workers t = some a ∧
      (g.forwarders[r]?).map Forwarder.name = g.addedNames[b]?
  | .handlerPanic _ => False
  | .handlerReturn i => insideOf g.main g.workers (.worker i) = some b →
      ∀ mem ∈ g.members[b]?, mem.context.replyChannel = none
  | _ => True

instance (a b : Nat) (g : Group μ) (x : Action μ) : Decidable (AsksOne a b g x) :=
  match x with
  | .fastSend _ _ _ _ => inferInstanceAs (Decidable (_ ∧ _ ∧ _))
  | .handlerPanic _ => isFalse id
  | .handlerReturn i => inferInstanceAs (Decidable
      (insideOf g.main g.workers (.worker i) = some b →
        ∀ mem ∈ g.members[b]?, mem.context.replyChannel = none))
  | .add _ | .getRef _ | .start | .shutdown | .wait | .endCall | .main | .mainLock _
  | .send _ _ _ _ | .fastReturn _ | .dropRef _ | .forwardRecv _ | .forwardSend _
  | .forwardExit _ | .worker _ | .reply _ _ => isTrue trivial

theorem noPanic_of_asksOne {a b : Nat} (g : Group μ) (x : Action μ)
    (h : AsksOne a b g x) : NoPanic g x := by
  cases x <;> first | rfl | exact h.elim

/-- A handler of member `a` waits in a `fast_send`, and no worker and no
forwarder can take a step. -/
def Wedged (g : Group μ) (a : Nat) : Prop :=
  (∃ i, insideOf g.main g.workers (.worker i) = some a ∧
    g.blocked (.worker i) = true) ∧ ∀ x, x.ofPool = true → g.step x = none

/-- The letters sent to `name` whose handlers have not returned yet. -/
def unfinished (g : Group μ) (name : String) : Nat :=
  (g.forwarders.flatMap Forwarder.pending ++ g.queue.map GroupEnvelope.letter ++
    g.workers.filterMap fun w => w.pc.letter).countP fun l => l.addressee = name

/-- A worker in its loop has no message for member `a`, and no message for `a`
was taken in the drain loop. -/
def Spare (g : Group μ) (a : Nat) : Prop :=
  (∃ w ∈ g.workers, w.pc.finished = false ∧ w.serving ≠ some a) ∧
    ∀ w ∈ g.workers, w.pc.draining = some () → w.serving ≠ some a

/-! ## Who waits in a `fast_send` -/

/-- Only workers inside of member `a` wait in a `fast_send`. -/
def AskedBy (a : Nat) (g : Group μ) : Prop :=
  ∀ p ∈ g.callers, (∃ i, p.1 = .worker i) ∧
    insideOf g.main g.workers p.1 = some a

/-- The main thread moves. -/
theorem AskedBy.main {g : Group μ} {a : Nat} (h : g.AskedBy a) (main' : MainPc) :
    ∀ p ∈ g.callers, (∃ i, p.1 = .worker i) ∧
      insideOf main' g.workers p.1 = some a := by
  intro p hp
  obtain ⟨⟨i, hi⟩, hin⟩ := h p hp
  rw [hi] at hin ⊢
  exact ⟨⟨i, rfl⟩, hin⟩

/-- A worker moves that does not wait in a `fast_send`. -/
theorem AskedBy.worker {g : Group μ} {a : Nat} (h : g.AskedBy a) {i : Nat}
    {w w' : Worker μ} (hw : g.workers[i]? = some w)
    (hfree : w.pc.inside = none ∨ g.blocked (.worker i) = false) :
    ∀ p ∈ g.callers, (∃ j, p.1 = .worker j) ∧
      insideOf g.main (g.workers.set i w') p.1 = some a := by
  intro p hp
  obtain ⟨hworker, hin⟩ := h p hp
  refine ⟨hworker, ?_⟩
  have hne : p.1 ≠ .worker i := by
    intro heq
    rcases hfree with hout | hfree
    · rw [heq, insideOf, hw, Option.bind_some, hout] at hin
      simp at hin
    · simp only [blocked, List.any_eq_false, decide_eq_true_eq] at hfree
      exact hfree p hp heq
  rw [insideOf_set hw, Function.update_of_ne hne]
  exact hin

theorem askedBy_move {g g' : Group μ} {a b : Nat} {x : Action μ}
    (hmove : Move g x g') (hok : AsksOne a b g x) (h : g.AskedBy a) :
    g'.AskedBy a := by
  cases hmove with
  | start | shutdown | wait | endCall | initLock | endLock | lockPanic | initReturn
  | endReturn | initsDone | sendStart | startSent | spawned | sendShutdown
  | clearRunning | endsDone | join | joined => exact h.main _
  | spawn n hmain =>
    have hmain' := h.main (.startSpawn n)
    intro p hp
    rw [insideOf_append (by rfl)]
    exact hmain' p hp
  | fastSend t r msg sender f hcan hfree hf hlive =>
    obtain ⟨⟨i, -, ht⟩, hin, -⟩ := hok
    exact forall_mem_snoc h ⟨⟨i, ht⟩, hin⟩
  | fastReturn | fastReturnNone =>
    exact fun p hp => h p (List.mem_of_mem_filter hp)
  | check i w hw hpc | recv i w env rest hw hpc | recvEmpty i w hw hpc
  | drain i w env rest hw hpc | drainEmpty i w hw hpc | noMember i w d env hw hpc
  | memberPanic i w d env m mem hw hpc | processBegin i w d env m mem hw hpc =>
    exact h.worker hw (Or.inl (by rw [hpc]; rfl))
  | recvPanic i w hw hpc =>
    exact h.worker hw (Or.inl (by rcases hpc with hpc | hpc <;> rw [hpc] <;> rfl))
  | handlerReturn i w d m l hw hpc hfree | handlerPanic i w d m l hw hpc hfree =>
    exact h.worker hw (Or.inr hfree)
  | _ => exact h

theorem askedBy {n a b : Nat} {g : Group μ}
    (h : (machine μ n).Reach (AsksOne a b) g) : g.AskedBy a := by
  refine invariant ?_ ?_ h
  · simp [AskedBy, new]
  · intro g x g' _ hg hok hmove
    exact askedBy_move hmove hok hg

/-! ## A worker without a message for the asking member -/

/-- A worker in the handler of another member does not wait in a `fast_send`. -/
theorem AskedBy.not_blocked {g : Group μ} {a : Nat} (h : g.AskedBy a) {i : Nat}
    {w : Worker μ} (hw : g.workers[i]? = some w) (hserving : w.serving ≠ some a) :
    g.blocked (.worker i) = false := by
  simp only [blocked, List.any_eq_false, decide_eq_true_eq]
  intro p hp heq
  have hin := (h p hp).2
  rw [heq, insideOf, hw, Option.bind_some] at hin
  obtain ⟨d, l, hpc⟩ := exists_process hin
  simp [Worker.serving, hpc] at hserving

/-- A thread that can be waited for without end: a worker in its loop with a
message for another member, or with none. -/
def Elsewhere (g : Group μ) (a : Nat) (t : ThreadId) : Prop :=
  ∃ i w, t = .worker i ∧ g.workers[i]? = some w ∧ w.pc.finished = false ∧
    w.serving ≠ some a

/-- Who has no message for the asking member waits for somebody who has none. -/
theorem elsewhere_of_waitsFor {n : Nat} {ok : Group μ → Action μ → Prop}
    {g : Group μ} (h : (machine μ n).Reach ok g) {a : Nat}
    (hout : g.main.inside = none)
    (hdrain : ∀ w ∈ g.workers, w.pc.draining = some () → w.serving ≠ some a)
    {t u : ThreadId} (ht : g.Elsewhere a t) (hwaits : g.WaitsFor t u) :
    g.Elsewhere a u := by
  obtain ⟨i, w, rfl, hw, hlive, hserving⟩ := ht
  cases hwaits with
  | receiver _ x _ hx hpc howner =>
    obtain ⟨j, y, rfl, hy, hpc'⟩ := holder_of_receiver h howner
    refine ⟨j, y, rfl, hy, ?_, hdrain y (List.mem_of_getElem? hy) ?_⟩
    · rcases hpc' with ⟨env, hpc'⟩ | ⟨m, l, hpc'⟩ <;> rw [hpc'] <;> rfl
    · rcases hpc' with ⟨env, hpc'⟩ | ⟨m, l, hpc'⟩ <;> rw [hpc'] <;> rfl
  | member _ x d env m mem _ hx hpc hm hmem howner =>
    rw [hw, Option.some.injEq] at hx
    subst hx
    rcases holder_of_member h hmem howner with ⟨j, y, d', l, rfl, hy, hpc'⟩ | ⟨-, hin⟩
    · refine ⟨j, y, rfl, hy, by rw [hpc']; rfl, ?_⟩
      -- The holder is inside the member that `w` dispatches to.
      have hsame : y.serving = w.serving := by simp [Worker.serving, hpc', hpc, hm]
      rw [hsame]
      exact hserving
    · simp [hout] at hin

/-- While a worker in its loop has no message for the asking member, a worker
can take a step. -/
theorem exists_canStep {n a b : Nat} {g : Group μ}
    (h : (machine μ n).Reach (AsksOne a b) g) (hout : g.main.inside = none)
    (hspare : g.Spare a) : ∃ i, g.CanStep i := by
  obtain ⟨⟨w, hw, hlive, hserving⟩, hdrain⟩ := hspare
  obtain ⟨i, hi⟩ := List.mem_iff_getElem?.mp hw
  have hstart : g.Elsewhere a (.worker i) := ⟨i, w, rfl, hi, hlive, hserving⟩
  have hchain : ∀ u, Relation.ReflTransGen g.WaitsFor (.worker i) u →
      g.Elsewhere a u := by
    intro u hiu
    induction hiu with
    | refl => exact hstart
    | tail _ hlast ih => exact elsewhere_of_waitsFor h hout hdrain ih hlast
  -- The waiting ends at a worker that waits for nobody.
  obtain ⟨u, hiu, hfree⟩ := exists_free_of_rank (waitRank_lt h) (.worker i)
  obtain ⟨j, x, rfl, hx, hxlive, hxserving⟩ := hchain u hiu
  rcases canStep_or_waits h hx hxlive with hstep | ⟨v, hv⟩ | hblocked
  · exact ⟨j, hstep⟩
  · exact absurd hv (hfree v)
  · rw [(askedBy h).not_blocked hx hxserving] at hblocked
    simp at hblocked

/-! ## Before `shutdown` -/

/-- The workers do not panic and do not enter the drain loop before `running` is
cleared. -/
theorem normal {n : Nat} {g : Group μ} (h : (machine μ n).Reach NoPanic g) :
    g.running = true → ∀ w ∈ g.workers, w.pc.normal = true := by
  refine invariant
    (I := fun g => g.running = true → ∀ w ∈ g.workers, w.pc.normal = true)
    ?_ ?_ h
  · intro _
    simp [new]
  · intro g x g' hreach hg hok hmove
    have hclean := clean hreach
    -- What a worker goes on to is normal when it was normal before.
    have hset : ∀ {i : Nat} {w w' : Worker μ}, g.workers[i]? = some w →
        (g.running = true → w.pc.normal = true → w'.pc.normal = true) →
        g.running = true → ∀ y ∈ g.workers.set i w', y.pc.normal = true := by
      intro i w w' hw hkeep hrun
      exact forall_mem_set (hg hrun)
        (hkeep hrun (hg hrun w (List.mem_of_getElem? hw)))
    cases hmove with
    | clearRunning => simp
    | spawn k hmain => exact fun hrun => forall_mem_snoc (hg hrun) rfl
    | check i w hw hpc =>
      exact hset hw fun hrun _ => by simp [hrun, WorkerPc.normal]
    | recv i w env rest hw | recvEmpty i w hw => exact hset hw fun _ _ => rfl
    | drain i w env rest hw hpc | drainEmpty i w hw hpc =>
      exact hset hw fun _ hnormal => by simp [hpc, WorkerPc.normal] at hnormal
    | noMember i w d env hw hpc | handlerReturn i w d m l hw hpc
    | processBegin i w d env m mem hw hpc =>
      refine hset hw fun _ hnormal => ?_
      cases d with
      | false => rfl
      | true => simp [hpc, WorkerPc.normal] at hnormal
    | recvPanic i w hw hpc hpois =>
      rw [hclean.receiver] at hpois
      simp at hpois
    | memberPanic i w d env m mem hw hpc hm hmem hpois =>
      rw [hclean.members mem (List.mem_of_getElem? hmem)] at hpois
      simp at hpois
    | handlerPanic => simp [NoPanic, Action.panics] at hok
    | _ => exact hg

/-- A worker that serves a member has a letter to its name. -/
theorem letter_of_serving {n : Nat} {ok : Group μ → Action μ → Prop} {g : Group μ}
    (h : (machine μ n).Reach ok g) {a : Nat} {name : String}
    (hname : g.addedNames[a]? = some name) {w : Worker μ} (hw : w ∈ g.workers)
    (hserving : w.serving = some a) :
    ∃ l, w.pc.letter = some l ∧ l.addressee = name := by
  have hrouted := routed h
  cases hpc : w.pc with
  | dispatch d env =>
    simp only [Worker.serving, hpc] at hserving
    have hdest := hrouted.maps w hw _ _ hserving
    rw [hname, Option.some.injEq] at hdest
    exact ⟨env.letter, rfl, (hrouted.hands w hw d env hpc).1.symm.trans hdest.symm⟩
  | process d m l =>
    simp only [Worker.serving, hpc, Option.some.injEq] at hserving
    obtain ⟨i, hi⟩ := List.mem_iff_getElem?.mp hw
    have hbusy := (answering h).busy i w hi
    rw [hpc] at hbusy
    obtain ⟨⟨c, hc, rfl, rfl⟩, -⟩ := hbusy
    have hcalled := hrouted.handed c hc
    rw [hserving, hname, Option.some.injEq] at hcalled
    exact ⟨c.letter, rfl, hcalled.symm⟩
  | _ => simp [Worker.serving, hpc] at hserving

/-- When all workers have letters to one name, there are as many letters. -/
theorem length_le_countP {name : String} :
    ∀ {workers : List (Worker μ)},
      (∀ w ∈ workers, ∃ l, w.pc.letter = some l ∧ l.addressee = name) →
      workers.length ≤ (workers.filterMap fun w => w.pc.letter).countP
        fun l => l.addressee = name := by
  intro workers h
  induction workers with
  | nil => simp
  | cons w workers ih =>
    obtain ⟨l, hl, hto⟩ := h w (List.mem_cons_self ..)
    have hle := ih fun x hx => h x (List.mem_cons_of_mem w hx)
    have hcons : ((w :: workers).filterMap fun w => w.pc.letter) =
        l :: workers.filterMap fun w => w.pc.letter := List.filterMap_cons_some hl
    rw [hcons, List.countP_cons, List.length_cons]
    simpa [hto] using hle

/-- Before `shutdown` has cleared `running`, a worker is left when fewer messages
for a member are unfinished than there are workers. -/
theorem spare_of_unfinished {n : Nat} {g : Group μ}
    (h : (machine μ n).Reach NoPanic g) {a : Nat} {name : String}
    (hname : g.addedNames[a]? = some name) (hrun : g.running = true)
    (hfew : g.unfinished name < g.workers.length) : g.Spare a := by
  have hnormal := normal h hrun
  refine ⟨?_, fun w hw hdraining => ?_⟩
  · by_contra hnone
    simp only [not_exists, not_and] at hnone
    have hall : ∀ w ∈ g.workers, ∃ l, w.pc.letter = some l ∧ l.addressee = name := by
      intro w hw
      refine letter_of_serving h hname hw (by_contra fun hserving => ?_)
      refine hnone w hw ?_ hserving
      have hw' := hnormal w hw
      cases hpc : w.pc <;> simp [hpc, WorkerPc.normal] at hw' <;> rfl
    have hle := length_le_countP hall
    rw [unfinished, List.countP_append] at hfew
    omega
  · have hw' := hnormal w hw
    cases hpc : w.pc with
    | dispatch d env | process d m l =>
      cases d <;> simp [hpc, WorkerPc.normal, WorkerPc.draining] at hw' hdraining
    | _ => simp [hpc, WorkerPc.draining] at hdraining

/-! ## The pool is not wedged -/

/-- Outside of hooks, a `fast_send` of a handler of member `a` does not wedge the
pool: before `shutdown` as long as fewer messages for `a` are unfinished than
there are workers, and at any time as long as a worker in its loop has no message
for `a` and none was taken in the drain loop. -/
theorem not_wedged {n a b : Nat} {name : String} {g : Group μ}
    (h : (machine μ n).Reach (AsksOne a b) g)
    (hname : g.addedNames[a]? = some name) (hout : g.main.inside = none)
    (hspare : g.running = true ∧ g.unfinished name < g.workers.length ∨
      g.Spare a) : ¬ g.Wedged a := by
  rintro ⟨-, hstuck⟩
  have hspare' : g.Spare a := by
    rcases hspare with ⟨hrun, hfew⟩ | hspare
    · exact spare_of_unfinished (h.mono noPanic_of_asksOne) hname hrun hfew
    · exact hspare
  obtain ⟨i, hstep | hstep⟩ := exists_canStep h hout hspare'
  · exact hstep (hstuck (.worker i) rfl)
  · exact hstep (hstuck (.handlerReturn i) rfl)

/-- Two members and two workers.  Worker 0 is in the handler of `Start` of member
0, worker 1 is at the head of its loop, and a message for member 0 and a request
for member 1 can still come. -/
def startAsking : List (Action Nat) :=
  [.add "a", .add "b", .start, .mainLock 0, .main, .mainLock 1, .main, .main,
    .main, .main, .main, .main, .main, .main,
    .forwardRecv 0, .forwardSend 0, .worker 0, .worker 0, .worker 0,
    .forwardRecv 1, .forwardSend 1, .worker 1, .worker 1, .worker 1,
    .handlerReturn 1]

/-- Worker 0 waits, and worker 1 can take its request out of the queue. -/
theorem not_wedged_two : ∃ g : Group Nat, g.blocked (.worker 0) = true ∧
    ¬ g.Wedged 0 := by
  have hrun := reach_after (AsksOne 0 1) 2
    (startAsking ++ [.fastSend (.worker 0) 1 (.user 1) none]) (by decide)
  exact ⟨_, by decide, not_wedged hrun (by decide : _ = some "a") (by decide)
    (Or.inl (by decide))⟩

/-- A handler that cannot return waits in a `fast_send`. -/
theorem blocked_of_handlerReturn {g : Group μ} {i : Nat}
    (h : g.step (.handlerReturn i) = none) {w : Worker μ} {d : Bool} {m : Nat}
    {l : Letter μ} (hw : g.workers[i]? = some w) (hpc : w.pc = .process d m l) :
    g.blocked (.worker i) = true := by
  by_contra hfree
  rw [Bool.not_eq_true] at hfree
  exact step_handlerReturn hw hpc hfree h

/-- A handler that cannot return can do nothing at all. -/
theorem code_stopped {g : Group μ} {i : Nat}
    (h : g.step (.handlerReturn i) = none) :
    (g.canSend (.worker i) && !g.blocked (.worker i)) = false ∧
      (∀ msg, g.step (.reply i msg) = none) ∧ g.step (.handlerPanic i) = none := by
  cases hw : g.workers[i]? with
  | none => simp [canSend, step, reply, handlerPanic, hw]
  | some w =>
    obtain ⟨pc, map⟩ := w
    cases pc with
    | process d m l =>
      have hblocked := blocked_of_handlerReturn h hw rfl
      refine ⟨by simp [hblocked], fun msg => ?_, ?_⟩
      · simp only [step, reply, hw, hblocked]
        split <;> simp
      · simp [step, handlerPanic, hw, hblocked]
    | _ => simp [canSend, step, reply, handlerPanic, hw]

/-- The pool is at rest when no worker can go on in its loop or return from a
handler, no `fast_send` can return and no forwarder can move. -/
theorem pool_stopped {g : Group μ}
    (hworkers : ∀ i < g.workers.length,
      (g.step (.worker i)).isNone ∧ (g.step (.handlerReturn i)).isNone)
    (hcallers : ∀ p ∈ g.callers, (g.step (.fastReturn p.1)).isNone)
    (hforwarders : ∀ r < g.forwarders.length, (g.step (.forwardRecv r)).isNone ∧
      (g.step (.forwardSend r)).isNone ∧ (g.step (.forwardExit r)).isNone)
    (x : Action μ) (hx : x.ofPool = true) : g.step x = none := by
  simp only [Option.isNone_iff_eq_none] at hworkers hcallers hforwarders
  have hforward : ∀ r, g.step (.forwardRecv r) = none ∧
      g.step (.forwardSend r) = none ∧ g.step (.forwardExit r) = none := by
    intro r
    by_cases hlt : r < g.forwarders.length
    · exact hforwarders r hlt
    · have hnone := List.getElem?_eq_none (Nat.le_of_not_lt hlt)
      simp [step, forwardRecv, forwardSend, forwardExit, hnone]
  have hworker : ∀ i, g.step (.worker i) = none ∧
      g.step (.handlerReturn i) = none := by
    intro i
    by_cases hlt : i < g.workers.length
    · exact hworkers i hlt
    · have hnone := List.getElem?_eq_none (Nat.le_of_not_lt hlt)
      simp [step, workerStep, handlerReturn, hnone]
  cases x with
  | worker i => exact (hworker i).1
  | handlerReturn i => exact (hworker i).2
  | forwardRecv r => exact (hforward r).1
  | forwardSend r => exact (hforward r).2.1
  | forwardExit r => exact (hforward r).2.2
  | reply i msg => exact (code_stopped (hworker i).2).2.1 msg
  | handlerPanic i => exact (code_stopped (hworker i).2).2.2
  | send t r msg sender | fastSend t r msg sender =>
    cases t with
    | worker i =>
      have hcode := (code_stopped (hworker i).2).1
      simp only [step, hcode, Bool.false_eq_true, if_false]
    | _ => simp [Action.ofPool] at hx
  | fastReturn t =>
    by_contra hstep
    cases hfind : g.callers.find? fun c => c.1 = t with
    | none => simp [step, fastReturn, hfind] at hstep
    | some p =>
      have ht : p.1 = t := by simpa using List.find?_some hfind
      exact hstep (ht ▸ hcallers p (List.mem_of_find?_eq_some hfind))
  | _ => simp [Action.ofPool] at hx

/-- Worker 1 takes a further message for member 0 and waits for its lock.  The
request that the handler of member 0 waits for stays in the queue. -/
theorem not_wedged_fails : ¬ ∀ g : Group Nat,
    (machine Nat 2).Reach (AsksOne 0 1) g → ¬ g.Wedged 0 := by
  have hrun := reach_after (AsksOne 0 1) 2
    (startAsking ++ [.send (.client 0) 0 (.user 7) none, .forwardRecv 0,
      .forwardSend 0, .worker 1, .worker 1,
      .fastSend (.worker 0) 1 (.user 1) none, .forwardRecv 1, .forwardSend 1])
    (by decide)
  intro h
  refine h _ hrun ⟨⟨0, by decide, by decide⟩, pool_stopped ?_ ?_ ?_⟩
  · decide
  · decide
  · decide

end Group

end Actors
