import Actors.Group.Locks
import Actors.Group.Shutdown
import Actors.Lib.Waiting

/-!
# Who waits for whom in a group

Three kinds of waiting are visible in the state: for the receiver lock, for the
lock of a member, and for the end of a worker.  `WaitsFor` is the relation on
threads.  This module says who can hold which lock at which place:

* `receiverLocked`: the receiver lock is held over a step exactly by a worker
  that dispatches what it took in the drain loop;
* `placed`: the references, members and workers that the main thread still has
  to visit are there.

The last section says what a worker needs for its next step.
-/

namespace Actors

open Concur

variable {μ : Type}

/-- The worker holds the receiver lock. -/
def WorkerPc.draining : WorkerPc μ → Option Unit
  | .dispatch true _ | .process true _ _ => some ()
  | _ => none

/-- How many kinds of locks the worker may have to wait for before it is back
in its loop. -/
def WorkerPc.waitRank : WorkerPc μ → Nat
  | .recv | .drain => 2
  | .dispatch _ _ => 1
  | _ => 0

/-- The same for the main thread, which can also wait for a worker. -/
def MainPc.waitRank : MainPc → Nat
  | .waitJoin _ => 3
  | .startInit _ | .waitEnd _ => 1
  | _ => 0

/-- The references that the main thread still has to send to. -/
def MainPc.sending : MainPc → List Nat
  | .startSend todo | .shutdownSend todo _ => todo
  | _ => []

/-- The members whose hooks the main thread still has to run. -/
def MainPc.visiting : MainPc → List Nat
  | .startInit todo | .initHook _ todo | .waitEnd todo | .endHook _ todo => todo
  | _ => []

namespace Group

/-- Thread `t` cannot go on before thread `u` has done something. -/
inductive WaitsFor (g : Group μ) : ThreadId → ThreadId → Prop where
  /-- For the receiver lock. -/
  | receiver (i : Nat) (w : Worker μ) (u : ThreadId) (hw : g.workers[i]? = some w)
      (hpc : w.pc = .recv ∨ w.pc = .drain) (howner : g.receiver.owner = some u) :
      WaitsFor g (.worker i) u
  /-- For the lock of a member, in `dispatch_to_actor`. -/
  | member (i : Nat) (w : Worker μ) (d : Bool) (env : GroupEnvelope μ) (m : Nat)
      (mem : GroupMember) (u : ThreadId) (hw : g.workers[i]? = some w)
      (hpc : w.pc = .dispatch d env) (hm : w.actors.lookup env.destination = some m)
      (hmem : g.members[m]? = some mem) (howner : mem.mutex.owner = some u) :
      WaitsFor g (.worker i) u
  /-- For the lock of a member, in the loops of `start` and `wait`. -/
  | hook (m : Nat) (mem : GroupMember) (todo : List Nat) (u : ThreadId)
      (hmain : g.main = .startInit todo ∨ g.main = .waitEnd todo) (hm : m ∈ todo)
      (hmem : g.members[m]? = some mem) (howner : mem.mutex.owner = some u) :
      WaitsFor g .main u
  /-- For the end of a worker. -/
  | join (i : Nat) (is : List Nat) (w : Worker μ)
      (hmain : g.main = .waitJoin (i :: is)) (hw : g.workers[i]? = some w)
      (hlive : w.pc.finished = false) : WaitsFor g .main (.worker i)

/-! ## Who holds the receiver lock -/

/-- The threads that hold the receiver lock by their program counters. -/
def drainer (workers : List (Worker μ)) : ThreadId → Option Unit
  | .worker i => (workers[i]?).bind fun w => w.pc.draining
  | _ => none

/-- Program counters and the word of the receiver lock agree. -/
def ReceiverLocked (g : Group μ) : Prop :=
  Locked (drainer g.workers) fun _ : Unit => g.receiver.owner

section Updates

variable {workers : List (Worker μ)} {i : Nat} {w w' : Worker μ}

theorem drainer_set (hw : workers[i]? = some w) :
    drainer (workers.set i w') =
      Function.update (drainer workers) (.worker i) w'.pc.draining := by
  have hlt : i < workers.length := (List.getElem?_eq_some_iff.mp hw).1
  funext t
  cases t with
  | worker j =>
    by_cases hij : j = i
    · subst hij
      simp [drainer, hlt]
    · simp [drainer, hij, Ne.symm hij]
  | _ => simp [drainer]

theorem drainer_set_eq (hw : workers[i]? = some w)
    (h : w'.pc.draining = w.pc.draining) :
    drainer (workers.set i w') = drainer workers := by
  rw [drainer_set hw, h]
  funext t
  by_cases ht : t = .worker i
  · simp [ht, drainer, hw]
  · simp [ht]

theorem drainer_append (h : w.pc.draining = none) :
    drainer (workers ++ [w]) = drainer workers := by
  funext t
  cases t with
  | worker j =>
    rcases Nat.lt_trichotomy j workers.length with hlt | rfl | hgt
    · simp [drainer, List.getElem?_append_left hlt]
    · simp [drainer, h]
    · have hnone : (workers ++ [w])[j]? = none :=
        List.getElem?_eq_none (by simp; omega)
      simp [drainer, hnone, List.getElem?_eq_none (Nat.le_of_lt hgt)]
  | _ => rfl

end Updates

@[simp] theorem draining_after (d : Bool) :
    (WorkerPc.after d : WorkerPc μ).draining = none := by
  cases d <;> rfl

/-- A worker drops the receiver lock, if it has it. -/
theorem ReceiverLocked.leave {g : Group μ} (h : g.ReceiverLocked) {i : Nat}
    {w w' : Worker μ} {d : Bool} {receiver : Mutex ThreadId}
    (hw : g.workers[i]? = some w)
    (hin : w.pc.draining = if d then some () else none)
    (hout : w'.pc.draining = none)
    (hrec : receiver.owner = if d then none else g.receiver.owner) :
    Locked (drainer (g.workers.set i w')) fun _ : Unit => receiver.owner := by
  cases d with
  | false =>
    rw [if_neg (by simp)] at hin hrec
    rwa [drainer_set_eq hw (hout.trans hin.symm), hrec]
  | true =>
    rw [if_pos rfl] at hin hrec
    have hrelease := h.release (t := .worker i) (m := ()) (by simp [drainer, hw, hin])
    have howner : Function.update (fun _ : Unit => g.receiver.owner) () none =
        fun _ => receiver.owner := by
      funext u
      rw [hrec, Function.update_self]
    rwa [drainer_set hw, hout, ← howner]

theorem receiverLocked_move {g g' : Group μ} {a : Action μ} (hmove : Move g a g')
    (h : g.ReceiverLocked) : g'.ReceiverLocked := by
  unfold ReceiverLocked at *
  cases hmove with
  | spawn n hmain => rwa [drainer_append (by rfl)]
  | check i w hw hpc =>
    rwa [drainer_set_eq hw (by rw [hpc]; cases g.running <;> rfl)]
  | recvPanic i w hw hpc =>
    rwa [drainer_set_eq hw (by rcases hpc with hpc | hpc <;> rw [hpc] <;> rfl)]
  | recv i w env rest hw hpc | recvEmpty i w hw hpc | drainEmpty i w hw hpc =>
    rwa [drainer_set_eq hw (by rw [hpc]; rfl)]
  | drain i w env rest hw hpc hfree =>
    have hout : drainer g.workers (.worker i) = none := by
      simp [drainer, hw, hpc, WorkerPc.draining]
    have hacquire := h.acquire hout (m := ()) hfree
    rw [drainer_set hw]
    refine (congrArg _ ?_).mp hacquire
    funext u
    simp
  | noMember i w d env hw hpc | handlerReturn i w d m l hw hpc =>
    exact ReceiverLocked.leave h (d := d) hw (by rw [hpc]; cases d <;> rfl)
      (draining_after d) (by cases d <;> rfl)
  | memberPanic i w d env m mem hw hpc | handlerPanic i w d m l hw hpc =>
    exact ReceiverLocked.leave h (d := d) hw (by rw [hpc]; cases d <;> rfl) rfl
      (by cases d <;> rfl)
  | processBegin i w d env m mem hw hpc =>
    rwa [drainer_set_eq hw (by rw [hpc]; cases d <;> rfl)]
  | _ => exact h

/-- In every state of every run the receiver lock is held by the worker that
dispatches what it took in the drain loop, if there is one. -/
theorem receiverLocked {n : Nat} {ok : Group μ → Action μ → Prop} {g : Group μ}
    (h : (machine μ n).Reach ok g) : g.ReceiverLocked := by
  refine invariant ?_ ?_ h
  · intro t u
    cases t <;> simp [drainer, new]
  · intro g a g' _ hg _ hmove
    exact receiverLocked_move hmove hg

/-! ## What the main thread still has to visit -/

/-- References, members and workers that the main thread has to visit are
there, and the references that `add` returned are kept alive. -/
structure Placed (g : Group μ) : Prop where
  refs : ∀ r ∈ g.actorRefs, ∃ f, g.forwarders[r]? = some f ∧ f.live = true
  sends : ∀ r ∈ g.main.sending, r ∈ g.actorRefs
  visits : ∀ m ∈ g.main.visiting, m < g.members.length
  joins : ∀ i ∈ g.handles ++ g.main.joining, i < g.workers.length

theorem live_set {forwarders : List (Forwarder μ)} {refs : List Nat}
    (h : ∀ r ∈ refs, ∃ f, forwarders[r]? = some f ∧ f.live = true) {j : Nat}
    {f f' : Forwarder μ} (hf : forwarders[j]? = some f)
    (hlive : j ∈ refs → f'.live = f.live) :
    ∀ r ∈ refs, ∃ x, (forwarders.set j f')[r]? = some x ∧ x.live = true := by
  intro r hr
  obtain ⟨x, hx, hxlive⟩ := h r hr
  by_cases hjr : j = r
  · subst hjr
    rw [hf, Option.some.injEq] at hx
    subst hx
    exact ⟨f', List.getElem?_set_self (List.getElem?_eq_some_iff.mp hf).1,
      (hlive hr).trans hxlive⟩
  · exact ⟨x, by rw [List.getElem?_set_ne hjr]; exact hx, hxlive⟩

theorem live_append {forwarders : List (Forwarder μ)} {refs : List Nat}
    (h : ∀ r ∈ refs, ∃ f, forwarders[r]? = some f ∧ f.live = true)
    (x : Forwarder μ) :
    ∀ r ∈ refs, ∃ f, (forwarders ++ [x])[r]? = some f ∧ f.live = true := by
  intro r hr
  obtain ⟨f, hf, hlive⟩ := h r hr
  exact ⟨f, getElem?_concat hf, hlive⟩

/-- A step of the main thread that only goes on in its lists. -/
theorem Placed.main {g : Group μ} (h : g.Placed) (main' : MainPc)
    (hsends : ∀ r ∈ main'.sending, r ∈ g.actorRefs)
    (hvisits : ∀ m ∈ main'.visiting, m < g.members.length)
    (hjoining : ∀ i ∈ main'.joining, i < g.workers.length) :
    Placed { g with main := main' } := by
  refine ⟨h.refs, hsends, hvisits, fun i hi => ?_⟩
  rcases List.mem_append.mp hi with hi | hi
  · exact h.joins i (List.mem_append_left _ hi)
  · exact hjoining i hi

theorem placed_move {g g' : Group μ} {a : Action μ} (hmove : Move g a g')
    (hrouted : g.Routed g.addedNames) (h : g.Placed) : g'.Placed := by
  have hbuilder : ∀ m ∈ g.actorsBuilder.values, m < g.members.length :=
    hrouted.count ▸ lt_of_leads hrouted.builder
  have hactors : ∀ m ∈ g.actors.values, m < g.members.length :=
    hrouted.count ▸ lt_of_leads hrouted.actors
  have hall : ∀ r ∈ g.actorRefs, r ∈ g.actorRefs := fun _ hr => hr
  have hhandles : ∀ i ∈ g.handles, i < g.workers.length :=
    fun i hi => h.joins i (List.mem_append_left _ hi)
  cases hmove with
  | add name hidle =>
    refine ⟨forall_mem_snoc (live_append h.refs _) ⟨Forwarder.new name,
      List.getElem?_concat_length, rfl⟩, ?_, ?_, h.joins⟩
    · simp [hidle, MainPc.sending]
    · simp [hidle, MainPc.visiting]
  | getRef name href => exact { h with refs := live_append h.refs _ }
  | start hidle =>
    exact { h.main (.startInit _) (by simp [MainPc.sending]) hbuilder
      (by simp [MainPc.joining]) with }
  | shutdown hidle | endCall hidle =>
    exact { h.main (.shutdownSend _ _) hall (by simp [MainPc.visiting])
      (by simp [MainPc.joining]) with }
  | wait hidle =>
    exact { h.main (.waitEnd _) (by simp [MainPc.sending]) hactors
      (by simp [MainPc.joining]) with }
  | initLock m mem todo hmain hm hmem | endLock m mem todo hmain hm hmem =>
    have hvisits := h.visits
    rw [hmain] at hvisits
    refine ⟨h.refs, by simp [MainPc.sending], fun k hk => ?_, ?_⟩
    · rw [List.length_set]
      exact hvisits k (List.mem_of_mem_erase hk)
    · simpa [MainPc.joining] using hhandles
  | lockPanic m mem todo hmain hmem | startSent hmain | spawned hmain | joined hmain =>
    exact h.main _ (by simp [MainPc.sending]) (by simp [MainPc.visiting])
      (by simp [MainPc.joining])
  | initReturn m todo hmain | endReturn m todo hmain =>
    have hvisits := h.visits
    rw [hmain] at hvisits
    refine ⟨h.refs, by simp [MainPc.sending], fun k hk => ?_, ?_⟩
    · rw [List.length_modify]
      exact hvisits k hk
    · simpa [MainPc.joining] using hhandles
  | initsDone hmain =>
    exact h.main _ hall (by simp [MainPc.visiting]) (by simp [MainPc.joining])
  | sendStart r rs f hmain hf hlive | sendShutdown r rs b f hmain hf hlive =>
    have hsends := h.sends
    rw [hmain] at hsends
    refine ⟨live_set h.refs hf fun _ => rfl,
      fun k hk => hsends k (List.mem_cons_of_mem r hk), by simp [MainPc.visiting],
      ?_⟩
    simpa [posted, MainPc.joining] using hhandles
  | spawn n hmain =>
    refine ⟨h.refs, by simp [MainPc.sending], by simp [MainPc.visiting], ?_⟩
    intro i hi
    simp only [MainPc.joining, List.append_nil, List.mem_append,
      List.mem_singleton] at hi
    rw [List.length_append, List.length_singleton]
    rcases hi with hi | rfl
    · exact Nat.lt_succ_of_lt (hhandles i hi)
    · exact Nat.lt_succ_self _
  | clearRunning b hmain =>
    cases b with
    | true =>
      exact { h.main (.waitEnd _) (by simp [MainPc.sending]) hactors
        (by simp [MainPc.joining]) with }
    | false =>
      exact { h.main .idle (by simp [MainPc.sending])
        (by simp [MainPc.visiting]) (by simp [MainPc.joining]) with }
  | endsDone hmain =>
    refine ⟨h.refs, by simp [MainPc.sending], by simp [MainPc.visiting], ?_⟩
    simpa [MainPc.joining] using hhandles
  | join i is w hmain hw hfin =>
    have hjoins := h.joins
    rw [hmain] at hjoins
    refine h.main _ (by simp [MainPc.sending]) (by simp [MainPc.visiting])
      fun k hk => hjoins k ?_
    exact List.mem_append_right _ (List.mem_cons_of_mem i hk)
  | send t r msg sender f hcan hfree hf | fastSend t r msg sender f hcan hfree hf
  | forwardRecv r f l rest hf | forwardSend r f l hf | forwardExit r f hf =>
    exact { h with refs := live_set h.refs hf fun _ => rfl }
  | dropRef r f hf hr =>
    exact { h with refs := live_set h.refs hf fun hin => absurd hin hr }
  | processBegin i w d env m mem hw | handlerReturn i w d m l hw
  | handlerPanic i w d m l hw | reply i msg w d m l mem hw =>
    refine ⟨h.refs, h.sends, fun k hk => ?_, fun k hk => ?_⟩
    · simpa using h.visits k hk
    · simpa using h.joins k hk
  | check i w hw | recvPanic i w hw | recv i w env rest hw | recvEmpty i w hw
  | drain i w env rest hw | drainEmpty i w hw | noMember i w d env hw
  | memberPanic i w d env m mem hw =>
    refine { h with joins := fun k hk => ?_ }
    simpa using h.joins k hk
  | _ => exact { h with }

theorem placed {n : Nat} {ok : Group μ → Action μ → Prop} {g : Group μ}
    (h : (machine μ n).Reach ok g) : g.Placed := by
  refine invariant ?_ ?_ h
  · exact ⟨by simp [new], by simp [new, MainPc.sending],
      by simp [new, MainPc.visiting], by simp [new, MainPc.joining]⟩
  · intro g a g' hreach hg _ hmove
    exact placed_move hmove (routed hreach) hg

/-! ## Who is waited for -/

theorem exists_process {w : Worker μ} {m : Nat} (h : w.pc.inside = some m) :
    ∃ d l, w.pc = .process d m l := by
  cases hpc : w.pc with
  | process d k l =>
    rw [hpc, WorkerPc.inside, Option.some.injEq] at h
    exact ⟨d, l, by rw [h]⟩
  | _ => simp [hpc, WorkerPc.inside] at h

/-- A locked member is locked by a worker that handles a message in it, or by
the main thread in a hook. -/
theorem holder_of_member {n : Nat} {ok : Group μ → Action μ → Prop} {g : Group μ}
    (h : (machine μ n).Reach ok g) {m : Nat} {mem : GroupMember} {u : ThreadId}
    (hmem : g.members[m]? = some mem) (howner : mem.mutex.owner = some u) :
    (∃ j w d l, u = .worker j ∧ g.workers[j]? = some w ∧ w.pc = .process d m l) ∨
      u = .main ∧ g.main.inside = some m := by
  have hin : insideOf g.main g.workers u = some m :=
    (membersLocked h u m).mpr (by simp [ownerOf, hmem, howner])
  cases u with
  | main => exact Or.inr ⟨rfl, hin⟩
  | client k => simp [insideOf] at hin
  | worker j =>
    obtain ⟨w, hw, hinside⟩ := Option.bind_eq_some_iff.mp hin
    obtain ⟨d, l, hpc⟩ := exists_process hinside
    exact Or.inl ⟨j, w, d, l, rfl, hw, hpc⟩

/-- The receiver lock is held by a worker that dispatches what it took in the
drain loop. -/
theorem holder_of_receiver {n : Nat} {ok : Group μ → Action μ → Prop} {g : Group μ}
    (h : (machine μ n).Reach ok g) {u : ThreadId}
    (howner : g.receiver.owner = some u) :
    ∃ j w, u = .worker j ∧ g.workers[j]? = some w ∧
      ((∃ env, w.pc = .dispatch true env) ∨ ∃ m l, w.pc = .process true m l) := by
  have hin : drainer g.workers u = some () := (receiverLocked h u ()).mpr howner
  cases u with
  | worker j =>
    obtain ⟨w, hw, hdraining⟩ := Option.bind_eq_some_iff.mp hin
    refine ⟨j, w, rfl, hw, ?_⟩
    cases hpc : w.pc with
    | dispatch d env =>
      cases d with
      | true => exact Or.inl ⟨env, rfl⟩
      | false => simp [hpc, WorkerPc.draining] at hdraining
    | process d m l =>
      cases d with
      | true => exact Or.inr ⟨m, l, rfl⟩
      | false => simp [hpc, WorkerPc.draining] at hdraining
    | _ => simp [hpc, WorkerPc.draining] at hdraining
  | _ => simp [drainer] at hin

/-- How far a thread is from a place where it needs no lock. -/
def waitRank (g : Group μ) : ThreadId → Nat
  | .main => g.main.waitRank
  | .worker i => ((g.workers[i]?).map fun w => w.pc.waitRank).getD 0
  | .client _ => 0

theorem waitRank_worker {g : Group μ} {i : Nat} {w : Worker μ}
    (hw : g.workers[i]? = some w) : g.waitRank (.worker i) = w.pc.waitRank := by
  simp [waitRank, hw]

/-- The receiver lock is taken before the lock of a member, and who waits for
the end of a worker holds neither. -/
theorem waitRank_lt {n : Nat} {ok : Group μ → Action μ → Prop} {g : Group μ}
    (h : (machine μ n).Reach ok g) (t u : ThreadId) (hwaits : g.WaitsFor t u) :
    g.waitRank u < g.waitRank t := by
  -- Who holds a member waits for nothing.
  have hholder : ∀ {m : Nat} {mem : GroupMember} {u : ThreadId},
      g.members[m]? = some mem → mem.mutex.owner = some u → g.waitRank u = 0 := by
    intro m mem u hmem howner
    rcases holder_of_member h hmem howner with ⟨j, x, d, l, rfl, hx, hpc⟩ | ⟨rfl, hin⟩
    · rw [waitRank_worker hx, hpc]
      rfl
    · show g.main.waitRank = 0
      cases hmain : g.main <;> simp [hmain, MainPc.inside] at hin <;> rfl
  cases hwaits with
  | receiver i w _ hw hpc howner =>
    have ht : w.pc.waitRank = 2 := by rcases hpc with hpc | hpc <;> rw [hpc] <;> rfl
    obtain ⟨j, x, rfl, hx, hpc'⟩ := holder_of_receiver h howner
    rw [waitRank_worker hw, waitRank_worker hx, ht]
    rcases hpc' with ⟨env, hpc'⟩ | ⟨m, l, hpc'⟩ <;> simp [hpc', WorkerPc.waitRank]
  | member i w d env m mem _ hw hpc hm hmem howner =>
    rw [hholder hmem howner, waitRank_worker hw, hpc]
    exact Nat.one_pos
  | hook m mem todo _ hmain hm hmem howner =>
    rw [hholder hmem howner]
    show 0 < g.main.waitRank
    rcases hmain with hmain | hmain <;> rw [hmain] <;> exact Nat.one_pos
  | join i is w hmain hw hlive =>
    rw [waitRank_worker hw]
    show w.pc.waitRank < g.main.waitRank
    rw [hmain]
    cases w.pc <;> simp [WorkerPc.waitRank, MainPc.waitRank]

/-- The threads of a group never wait for each other in a circle, whatever
their handlers do. -/
theorem waits_acyclic {n : Nat} {ok : Group μ → Action μ → Prop} {g : Group μ}
    (h : (machine μ n).Reach ok g) (t : ThreadId) :
    ¬ Relation.TransGen g.WaitsFor t t :=
  acyclic_of_rank (waitRank_lt h) t

/-! ## What a worker needs for its next step -/

theorem step_check {g : Group μ} {i : Nat} {w : Worker μ}
    (hw : g.workers[i]? = some w) (hpc : w.pc = .check) :
    g.step (.worker i) ≠ none := by
  simp [step, workerStep, hw, hpc]

theorem step_recv {g : Group μ} {i : Nat} {w : Worker μ}
    (hw : g.workers[i]? = some w) (hpc : w.pc = .recv ∨ w.pc = .drain)
    (hfree : g.receiver.owner = none) : g.step (.worker i) ≠ none := by
  have hlock : g.receiver.lock (.worker i) ≠ .waits := by
    simp only [Mutex.lock, hfree]
    split <;> simp
  rcases hpc with hpc | hpc <;> simp only [step, workerStep, hw, hpc] <;> split
  all_goals first
    | exact absurd ‹_› hlock
    | split <;> simp
    | simp

theorem step_dispatch {g : Group μ} {i : Nat} {w : Worker μ} {d : Bool}
    {env : GroupEnvelope μ} (hw : g.workers[i]? = some w)
    (hpc : w.pc = .dispatch d env)
    (hfree : ∀ m, w.actors.lookup env.destination = some m →
      ∃ mem, g.members[m]? = some mem ∧ mem.mutex.owner = none) :
    g.step (.worker i) ≠ none := by
  simp only [step, workerStep, hw, hpc, dispatchToActor]
  cases hm : w.actors.lookup env.destination with
  | none => simp
  | some m =>
    obtain ⟨mem, hmem, howner⟩ := hfree m hm
    have hlock : mem.mutex.lock (.worker i) ≠ .waits := by
      simp only [Mutex.lock, howner]
      split <;> simp
    simp only [hmem]
    split
    · exact absurd ‹_› hlock
    · simp
    · simp

theorem step_handlerReturn {g : Group μ} {i : Nat} {w : Worker μ} {d : Bool}
    {m : Nat} {l : Letter μ} (hw : g.workers[i]? = some w)
    (hpc : w.pc = .process d m l) (hfree : g.blocked (.worker i) = false) :
    g.step (.handlerReturn i) ≠ none := by
  simp [step, handlerReturn, hw, hpc, hfree]

/-- Worker `i` can take a step. -/
def CanStep (g : Group μ) (i : Nat) : Prop :=
  g.step (.worker i) ≠ none ∨ g.step (.handlerReturn i) ≠ none

/-- A worker that has not ended can take a step, waits for a lock, or waits in
a `fast_send`. -/
theorem canStep_or_waits {n : Nat} {ok : Group μ → Action μ → Prop} {g : Group μ}
    (h : (machine μ n).Reach ok g) {i : Nat} {w : Worker μ}
    (hw : g.workers[i]? = some w) (hlive : w.pc.finished = false) :
    g.CanStep i ∨ (∃ u, g.WaitsFor (.worker i) u) ∨
      g.blocked (.worker i) = true := by
  have hreceive : w.pc = .recv ∨ w.pc = .drain →
      g.CanStep i ∨ ∃ u, g.WaitsFor (.worker i) u := by
    intro hpc
    cases howner : g.receiver.owner with
    | none => exact Or.inl (Or.inl (step_recv hw hpc howner))
    | some u => exact Or.inr ⟨u, .receiver i w u hw hpc howner⟩
  cases hpc : w.pc with
  | check => exact Or.inl (Or.inl (step_check hw hpc))
  | recv => exact (hreceive (Or.inl hpc)).imp_right Or.inl
  | drain => exact (hreceive (Or.inr hpc)).imp_right Or.inl
  | dispatch d env =>
    by_cases hfree : ∀ m, w.actors.lookup env.destination = some m →
        ∃ mem, g.members[m]? = some mem ∧ mem.mutex.owner = none
    · exact Or.inl (Or.inl (step_dispatch hw hpc hfree))
    · simp only [not_forall] at hfree
      obtain ⟨m, hm, hno⟩ := hfree
      have hrouted := routed h
      have hlt : m < g.members.length := by
        rw [hrouted.count]
        exact (List.getElem?_eq_some_iff.mp
          (hrouted.maps w (List.mem_of_getElem? hw) _ m hm)).1
      have hmem := List.getElem?_eq_getElem hlt
      cases howner : g.members[m].mutex.owner with
      | none => exact absurd ⟨_, hmem, howner⟩ hno
      | some u =>
        exact Or.inr (Or.inl ⟨u, .member i w d env m _ u hw hpc hm hmem howner⟩)
  | process d m l =>
    by_cases hblocked : g.blocked (.worker i) = true
    · exact Or.inr (Or.inr hblocked)
    · exact Or.inl (Or.inr (step_handlerReturn hw hpc (by simpa using hblocked)))
  | exited | panicked => simp [hpc, WorkerPc.finished] at hlive

end Group

end Actors
