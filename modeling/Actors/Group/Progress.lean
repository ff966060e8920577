import Actors.Group.Waits

/-!
# A group shuts down without deadlock

`Group::end` sends through references, locks members to run their `end()` and
joins the workers, while the workers lock the receiver and the members.  When
no hook and no handler calls `fast_send`, a thread can only wait for a lock or
for the end of a worker, and `Actors.Group.Waits` has shown that this waiting
has no circle.  `end_progress` follows the waiting of the main thread to its
end: there a worker waits for nobody, so it can take a step.
-/

namespace Actors

open Concur

variable {μ : Type}

namespace Group

/-- Hooks and handlers do not call `fast_send`, and no handler panics. -/
def SendOnly (g : Group μ) : Action μ → Prop
  | .fastSend (.worker _) _ _ _ | .handlerPanic _ => False
  | .fastSend .main _ _ _ => g.main.inside = none
  | _ => True

instance (g : Group μ) (a : Action μ) : Decidable (SendOnly g a) :=
  match a with
  | .fastSend (.worker _) _ _ _ | .handlerPanic _ => isFalse id
  | .fastSend .main _ _ _ => inferInstanceAs (Decidable (g.main.inside = none))
  | .fastSend (.client _) _ _ _ | .add _ | .getRef _ | .start | .shutdown | .wait
  | .endCall | .main | .mainLock _ | .send _ _ _ _ | .fastReturn _ | .dropRef _
  | .forwardRecv _ | .forwardSend _ | .forwardExit _ | .worker _ | .reply _ _
  | .handlerReturn _ => isTrue trivial

/-- The steps that the main thread may be about to take.  The iterations of
`start` and `wait` visit the members in an order that nobody chooses. -/
def nextMain (g : Group μ) : List (Action μ) :=
  match g.main with
  | .startInit (m :: todo) | .waitEnd (m :: todo) => (m :: todo).map .mainLock
  | _ => [.main]

theorem noPanic_of_sendOnly (g : Group μ) (a : Action μ) (h : SendOnly g a) :
    NoPanic g a := by
  cases a <;> first | rfl | exact h.elim

/-! ## No thread of the group waits in a `fast_send` -/

/-- No worker waits in a `fast_send`, and the main thread only between two
calls. -/
def Calm (g : Group μ) : Prop :=
  ∀ p ∈ g.callers, (∀ i, p.1 ≠ .worker i) ∧ (p.1 = .main → g.main = .idle)

/-- The main thread makes no call while it waits in a `fast_send`. -/
theorem idle_of_blocked {g g' : Group μ} {a : Action μ}
    (hstep : g.step a = some g') (hidle : g.main = .idle)
    (hblocked : g.blocked .main = true) : g'.main = .idle := by
  cases move_of_step hstep with
  | start | shutdown | wait | endCall =>
    simp [step, startCall, shutdownCall, waitCall, endCall, hblocked] at hstep
  | initLock m mem todo hmain | endLock m mem todo hmain | initReturn m todo hmain
  | endReturn m todo hmain | initsDone hmain | sendStart r rs f hmain
  | startSent hmain | spawn n hmain | sendShutdown r rs b f hmain
  | clearRunning b hmain | endsDone hmain | join i is w hmain =>
    rw [hidle] at hmain
    simp at hmain
  | lockPanic m mem todo hmain =>
    rw [hidle] at hmain
    simp at hmain
  | spawned | joined => rfl
  | _ => exact hidle

theorem calm_step {g g' : Group μ} {a : Action μ} (hok : SendOnly g a)
    (hstep : g.step a = some g') (h : g.Calm) : g'.Calm := by
  have hkeep : ∀ p ∈ g.callers,
      (∀ i, p.1 ≠ .worker i) ∧ (p.1 = .main → g'.main = .idle) := by
    intro p hp
    refine ⟨(h p hp).1, fun hmain => idle_of_blocked hstep ((h p hp).2 hmain) ?_⟩
    simp only [blocked, List.any_eq_true, decide_eq_true_eq]
    exact ⟨p, hp, hmain⟩
  cases move_of_step hstep with
  | fastReturn | fastReturnNone =>
    exact fun p hp => hkeep p (List.mem_of_mem_filter hp)
  | fastSend t r msg sender f hcan hfree hf hlive =>
    refine forall_mem_snoc hkeep ?_
    cases t with
    | worker i => exact hok.elim
    | client k => exact ⟨by simp, by simp⟩
    | main =>
      refine ⟨by simp, fun _ => ?_⟩
      have hinside : g.main.inside = none := hok
      show g.main = .idle
      cases hmain : g.main <;> simp [canSend, hmain] at hcan <;>
        simp [hmain, MainPc.inside] at hinside ⊢
  | _ => exact hkeep

theorem calm {n : Nat} {g : Group μ} (h : (machine μ n).Reach SendOnly g) :
    g.Calm := by
  refine Machine.Reach.invariant ?_ ?_ h
  · rintro g rfl
    simp [Calm, new]
  · intro g a g' _ hg hok hstep
    exact calm_step hok hstep hg

/-- The main thread does not panic as long as it locks no poisoned member. -/
theorem main_ne_panicked {n : Nat} {ok : Group μ → Action μ → Prop}
    (hlocks : ∀ (g : Group μ) (m : Nat), (machine μ n).Reach ok g →
      ok g (.mainLock m) → ∀ mem ∈ g.members[m]?, mem.mutex.poisoned = false)
    {g : Group μ} (h : (machine μ n).Reach ok g) : g.main ≠ .panicked := by
  refine invariant (I := fun g : Group μ => g.main ≠ .panicked)
    ?_ ?_ h
  · simp [new]
  · intro g a g' hreach hg hok hmove
    cases hmove with
    | lockPanic m mem todo hmain hmem hpois =>
      rw [hlocks g m hreach hok mem hmem] at hpois
      simp at hpois
    | clearRunning b hmain => cases b <;> simp
    | _ => first | exact hg | simp

/-! ## The thread that runs `end` -/

theorem blocked_eq_false {g : Group μ} (h : g.Calm) (hmain : g.main ≠ .idle) :
    g.blocked .main = false := by
  simp only [blocked, List.any_eq_false, decide_eq_true_eq]
  exact fun p hp heq => hmain ((h p hp).2 heq)

/-- A worker is never blocked in a `fast_send`. -/
theorem worker_not_blocked {g : Group μ} (h : g.Calm) (i : Nat) :
    g.blocked (.worker i) = false := by
  simp only [blocked, List.any_eq_false, decide_eq_true_eq]
  exact fun p hp => (h p hp).1 i

/-- The main thread can lock a member, or it waits for whoever has locked
it. -/
theorem mainLock_or_waits {g : Group μ} (hplaced : g.Placed) {m : Nat}
    {todo : List Nat} (hmain : g.main = .startInit todo ∨ g.main = .waitEnd todo)
    (hm : m ∈ todo) :
    g.step (.mainLock m) ≠ none ∨ ∃ u, g.WaitsFor .main u := by
  have hlt : m < g.members.length := by
    refine hplaced.visits m ?_
    rcases hmain with hmain | hmain <;> rw [hmain] <;> exact hm
  have hmem := List.getElem?_eq_getElem hlt
  cases howner : g.members[m].mutex.owner with
  | some u => exact Or.inr ⟨u, .hook m _ todo u hmain hm hmem howner⟩
  | none =>
    have hlock : g.members[m].mutex.lock .main ≠ .waits := by
      simp only [Mutex.lock, howner]
      split <;> simp
    left
    rcases hmain with hmain | hmain <;>
      simp only [step, mainLock, hmem, hmain, if_pos hm] <;> split <;> simp_all

/-- The main thread can go on with the call that it is in, or it waits for
another thread. -/
theorem nextMain_or_waits {n : Nat} {ok : Group μ → Action μ → Prop} {g : Group μ}
    (h : (machine μ n).Reach ok g) (hbusy : g.main ≠ .idle)
    (hlive : g.main ≠ .panicked) (hfree : g.blocked .main = false) {a : Action μ}
    (ha : a ∈ g.nextMain) : g.step a ≠ none ∨ ∃ u, g.WaitsFor .main u := by
  have hplaced := placed h
  have hpost : ∀ r ∈ g.main.sending, ∀ msg,
      g.post .main r msg none false ≠ none := by
    intro r hr msg
    obtain ⟨f, hf, hlive⟩ := hplaced.refs r (hplaced.sends r hr)
    simp [post, hf, hlive]
  cases hmain : g.main with
  | idle => exact absurd hmain hbusy
  | panicked => exact absurd hmain hlive
  | startInit todo =>
    cases todo with
    | nil =>
      simp only [nextMain, hmain, List.mem_singleton] at ha
      simp [ha, step, mainStep, hfree, hmain]
    | cons m todo =>
      simp only [nextMain, hmain] at ha
      obtain ⟨k, hk, rfl⟩ := List.mem_map.mp ha
      exact mainLock_or_waits hplaced (Or.inl hmain) hk
  | waitEnd todo =>
    cases todo with
    | nil =>
      simp only [nextMain, hmain, List.mem_singleton] at ha
      simp [ha, step, mainStep, hfree, hmain]
    | cons m todo =>
      simp only [nextMain, hmain] at ha
      obtain ⟨k, hk, rfl⟩ := List.mem_map.mp ha
      exact mainLock_or_waits hplaced (Or.inr hmain) hk
  | startSend todo | shutdownSend todo b =>
    simp only [nextMain, hmain, List.mem_singleton] at ha
    cases todo with
    | nil => simp [ha, step, mainStep, hfree, hmain]
    | cons r rs =>
      have hsend := hpost r (by simp [hmain, MainPc.sending])
      simp [ha, step, mainStep, hfree, hmain, hsend]
  | startSpawn left =>
    simp only [nextMain, hmain, List.mem_singleton] at ha
    cases left <;> simp [ha, step, mainStep, hfree, hmain]
  | initHook m todo | endHook m todo =>
    simp only [nextMain, hmain, List.mem_singleton] at ha
    simp [ha, step, mainStep, hfree, hmain]
  | waitJoin is =>
    simp only [nextMain, hmain, List.mem_singleton] at ha
    cases is with
    | nil => simp [ha, step, mainStep, hfree, hmain]
    | cons i is =>
      have hlt := hplaced.joins i
        (List.mem_append_right _ (by simp [hmain, MainPc.joining]))
      have hw := List.getElem?_eq_getElem hlt
      by_cases hfin : g.workers[i].pc.finished = true
      · simp [ha, step, mainStep, hfree, hmain, hw, hfin]
      · exact Or.inr ⟨_, .join i is _ hmain hw (by simpa using hfin)⟩

/-- Who is waited for is a worker that has not ended, or the main thread in a
hook. -/
theorem live_of_waitsFor {n : Nat} {ok : Group μ → Action μ → Prop} {g : Group μ}
    (h : (machine μ n).Reach ok g) {t u : ThreadId} (hwaits : g.WaitsFor t u) :
    (∃ j w, u = .worker j ∧ g.workers[j]? = some w ∧ w.pc.finished = false) ∨
      g.main.inside ≠ none := by
  have hholder : ∀ {m : Nat} {mem : GroupMember}, g.members[m]? = some mem →
      mem.mutex.owner = some u →
      (∃ j w, u = .worker j ∧ g.workers[j]? = some w ∧ w.pc.finished = false) ∨
        g.main.inside ≠ none := by
    intro m mem hmem howner
    rcases holder_of_member h hmem howner with ⟨j, w, d, l, hu, hw, hpc⟩ | ⟨-, hin⟩
    · exact Or.inl ⟨j, w, hu, hw, by rw [hpc]; rfl⟩
    · exact Or.inr (by simp [hin])
  cases hwaits with
  | receiver i w _ hw hpc howner =>
    obtain ⟨j, x, hu, hx, hpc'⟩ := holder_of_receiver h howner
    refine Or.inl ⟨j, x, hu, hx, ?_⟩
    rcases hpc' with ⟨env, hpc'⟩ | ⟨m, l, hpc'⟩ <;> rw [hpc'] <;> rfl
  | member i w d env m mem _ hw hpc hm hmem howner => exact hholder hmem howner
  | hook m mem todo _ hmain hm hmem howner => exact hholder hmem howner
  | join i is w hmain hw hlive => exact Or.inl ⟨i, w, rfl, hw, hlive⟩

/-- The main thread is in no hook while it waits. -/
theorem inside_of_waitsFor {g : Group μ} {u : ThreadId}
    (h : g.WaitsFor .main u) : g.main.inside = none := by
  cases h with
  | hook m mem todo _ hmain => rcases hmain with hmain | hmain <;> rw [hmain] <;> rfl
  | join i is w hmain => rw [hmain]; rfl

/-- When the main thread waits and no worker waits in a `fast_send`, a worker can
take a step. -/
theorem exists_canStep_of_waits {n : Nat} {ok : Group μ → Action μ → Prop} {g : Group μ}
    (h : (machine μ n).Reach ok g)
    (hfree : ∀ i, g.blocked (.worker i) = false) {u : ThreadId}
    (hu : g.WaitsFor .main u) : ∃ i, g.CanStep i := by
  -- Follow the waiting to a thread that waits for nobody.
  obtain ⟨v, huv, hlast⟩ := exists_free_of_rank (waitRank_lt h) u
  have hnone := inside_of_waitsFor hu
  have hlive : ∃ j w, v = .worker j ∧ g.workers[j]? = some w ∧
      w.pc.finished = false := by
    cases huv with
    | refl => exact (live_of_waitsFor h hu).resolve_right (by simp [hnone])
    | tail _ hstep =>
      exact (live_of_waitsFor h hstep).resolve_right (by simp [hnone])
  obtain ⟨j, w, rfl, hw, hwlive⟩ := hlive
  refine ⟨j, (canStep_or_waits h hw hwlive).resolve_right ?_⟩
  rintro (⟨x, hx⟩ | hblocked)
  · exact hlast x hx
  · simp [hfree] at hblocked

/-- A group whose hooks and handlers do not call `fast_send` cannot get stuck:
as long as a call of one of its methods, and `end` in particular, has not
returned, the thread in that call or a worker can take a step.  The waiting for
locks and for threads has no circle. -/
theorem end_progress {n : Nat} {g : Group μ}
    (h : (machine μ n).Reach SendOnly g) :
    (g.main ≠ .idle → ∀ a ∈ g.nextMain, g.step a ≠ none ∨ ∃ i, g.CanStep i) ∧
      ∀ t, ¬ Relation.TransGen g.WaitsFor t t := by
  refine ⟨fun hbusy a ha => ?_, waits_acyclic h⟩
  have hlive : g.main ≠ .panicked := by
    refine main_ne_panicked (fun g m hreach _ mem hmem => ?_) h
    exact (clean (hreach.mono noPanic_of_sendOnly)).members mem
      (List.mem_of_getElem? hmem)
  have hfree := blocked_eq_false (calm h) hbusy
  rcases nextMain_or_waits h hbusy hlive hfree ha with hstep | ⟨u, hu⟩
  · exact Or.inl hstep
  · exact Or.inr (exists_canStep_of_waits h (worker_not_blocked (calm h)) hu)

/-- A worker is in the handler of `Start`, which it took in the drain loop, and
`end` waits for the lock of the member. -/
theorem end_progress_draining : ∃ g : Group Nat,
    g.calls.getLast? = some .endCall ∧ g.step (.mainLock 0) = none ∧
      ∃ i, g.CanStep i := by
  obtain ⟨g, hrun, hlast, hbusy, hnext, hwaits⟩ : ∃ g : Group Nat,
      (machine Nat 1).Reach SendOnly g ∧ g.calls.getLast? = some .endCall ∧
        g.main ≠ .idle ∧ .mainLock 0 ∈ g.nextMain ∧
        (g.step (.mainLock 0)).isNone = true :=
    ⟨_, reach_after SendOnly 1
      (startOne Nat ++ [.endCall, .main, .main, .forwardRecv 0, .forwardSend 0,
        .worker 0, .worker 0, .worker 0]) (by decide), by decide, by decide,
      by decide, by decide⟩
  rw [Option.isNone_iff_eq_none] at hwaits
  have hor := (end_progress hrun).1 hbusy (.mainLock 0) hnext
  exact ⟨g, hlast, hwaits, hor.resolve_left fun hstep => hstep hwaits⟩

end Group

end Actors
