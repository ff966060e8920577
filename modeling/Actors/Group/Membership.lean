import Actors.Group.Routes

/-!
# Who is a member

A group keeps its members in a map that `add` fills, `start` moves that map to
the place where `wait` and the new workers find it, and every worker keeps the map
of the `start` that spawned it.  The three can be told apart by the calls alone:
`Batches` sorts the names by the last two calls of `start`, and `roster` says which
map knows which names.

`get_ref` looks into two maps and `get_names` into one, and a worker of an earlier
`start` knows neither.  `views_agree_iff` says when the three agree.
-/

namespace Actors

open Concur

variable {μ : Type}

/-- The names that a sequence of calls adds. -/
structure Batches where
  /-- Before the last `start` but one. -/
  old : List String := []
  /-- Between the last two calls of `start`, or before the only one. -/
  last : List String := []
  /-- Since the last `start`. -/
  now : List String := []
  deriving DecidableEq, Repr

namespace Batches

/-- The names that were added before some `start`. -/
def started (b : Batches) : List String := b.old ++ b.last

def next (b : Batches) : ApiCall → Batches
  | .add name => { b with now := b.now ++ [name] }
  | .start => { old := b.started, last := b.now, now := [] }
  | .shutdown | .wait | .endCall => b

end Batches

/-- The names in the calls, by the last two calls of `start`. -/
def batches (calls : List ApiCall) : Batches := calls.foldl Batches.next {}

theorem batches_append (calls : List ApiCall) (c : ApiCall) :
    batches (calls ++ [c]) = (batches calls).next c := by
  simp [batches, List.foldl_append]

/-- No name is left out. -/
theorem batches_names (calls : List ApiCall) :
    calls.filterMap ApiCall.added = (batches calls).started ++ (batches calls).now := by
  induction calls using List.reverseRecOn with
  | nil => rfl
  | append_singleton calls c ih =>
    rw [List.filterMap_append, ih, batches_append]
    cases c <;> simp [ApiCall.added, Batches.next, Batches.started]

theorem batches_of_not_started {calls : List ApiCall} (h : .start ∉ calls) :
    (batches calls).started = [] := by
  induction calls using List.reverseRecOn with
  | nil => rfl
  | append_singleton calls c ih =>
    rw [List.mem_append, List.mem_singleton, not_or] at h
    rw [batches_append]
    cases c with
    | start => exact absurd rfl h.2
    | add | shutdown | wait | endCall => exact ih h.1

namespace Group

/-- Which map knows which names. -/
structure Roster (b : Batches) (g : Group μ) : Prop where
  builder : ∀ name, (g.actorsBuilder.lookup name).isSome ↔ name ∈ b.now
  actors : ∀ name, (g.actors.lookup name).isSome ↔ name ∈ b.last
  workers : ∀ w ∈ g.workers, ∀ name, (w.actors.lookup name).isSome →
    name ∈ b.started

theorem roster_move {g g' : Group μ} {a : Action μ} (hmove : Move g a g')
    (h : g.Roster (batches g.calls)) : g'.Roster (batches g'.calls) := by
  have hmaps : ∀ w ∈ g'.workers, ∀ name, (w.actors.lookup name).isSome →
      name ∈ (batches g.calls).started := by
    intro w hw name hname
    rcases maps_of_move hmove w hw with ⟨x, hx, heq⟩ | ⟨heq, -⟩
    · exact h.workers x hx name (heq ▸ hname)
    · exact List.mem_append_right _ ((h.actors name).mp (heq ▸ hname))
  cases hmove with
  | add name hidle =>
    rw [batches_append]
    refine ⟨fun name' => ?_, h.actors, hmaps⟩
    by_cases hname : name' = name
    · subst hname
      simp [Batches.next]
    · simp [Batches.next, AList.lookup_insert_ne hname, h.builder name', hname]
  | start hidle =>
    rw [batches_append]
    refine ⟨by simp [Batches.next], h.builder, fun w hw name hname => ?_⟩
    exact List.mem_append_left _ (hmaps w hw name hname)
  | shutdown | wait | endCall =>
    rw [batches_append]
    exact ⟨h.builder, h.actors, hmaps⟩
  | _ => exact ⟨h.builder, h.actors, hmaps⟩

/-- The maps of a group, in every state of every run. -/
theorem roster {n : Nat} {ok : Group μ → Action μ → Prop} {g : Group μ}
    (h : (machine μ n).Reach ok g) : g.Roster (batches g.calls) := by
  refine invariant (I := fun g : Group μ => g.Roster (batches g.calls)) ?_ ?_ h
  · exact ⟨by simp [new, batches], by simp [new, batches], by simp [new]⟩
  · intro g a g' _ hg _ hmove
    exact roster_move hmove hg

/-! ## The three views -/

/-- The worker's map leads from the name to the member that was added under it. -/
def Dispatches (g : Group μ) (w : Worker μ) (name : String) : Prop :=
  ∃ m, w.actors.lookup name = some m ∧ g.addedNames[m]? = some name

/-- The views of who is a member agree: `get_names`, `get_ref`, and the workers
that are in their loops. -/
structure ViewsAgree (g : Group μ) : Prop where
  names : ∀ name, name ∈ g.getNames ↔ g.hasRef name = true
  dispatched : .start ∈ g.calls → ∀ w ∈ g.workers, w.pc.finished = false →
    ∀ name, g.hasRef name = true → g.Dispatches w name

/-- An envelope for such a name is handed to the member, if its lock is not
poisoned. -/
theorem handed_of_dispatches {g g' : Group μ} {i : Nat} {w : Worker μ} {d : Bool}
    {env : GroupEnvelope μ} (hw : g.workers[i]? = some w)
    (hpc : w.pc = .dispatch d env) (h : g.Dispatches w env.destination)
    (hstep : g.step (.worker i) = some g') :
    ∃ (m : Nat) (mem : GroupMember), g.addedNames[m]? = some env.destination ∧
      g.members[m]? = some mem ∧
      (g'.handed = g.handed ++ [mem.dispatch m env.letter] ∨
        mem.mutex.poisoned = true) := by
  obtain ⟨m, hm, hname⟩ := h
  simp only [step, workerStep, hw, hpc, dispatchToActor, hm] at hstep
  split at hstep
  · simp at hstep
  · rename_i mem hmem
    refine ⟨m, mem, hname, hmem, ?_⟩
    split at hstep
    · simp at hstep
    · rename_i hlock
      exact Or.inr (Mutex.lock_eq_panics.mp hlock).2
    · rw [Option.some.injEq] at hstep
      exact Or.inl (hstep ▸ rfl)

theorem hasRef_iff {b : Batches} {g : Group μ} (h : g.Roster b) (name : String) :
    g.hasRef name = true ↔ name ∈ b.now ∨ name ∈ b.last := by
  rw [hasRef, Bool.or_eq_true, h.builder, h.actors]

theorem mem_getNames_iff {b : Batches} {g : Group μ} (h : g.Roster b)
    (name : String) : name ∈ g.getNames ↔ name ∈ b.now := by
  rw [← h.builder, AList.lookup_isSome]
  rfl

/-- `start` has not been called, or nobody was added between its last two calls,
and nobody has been added since or no worker is in its loop. -/
def OneView (g : Group μ) : Prop :=
  .start ∉ g.calls ∨ (batches g.calls).last = [] ∧
    ((batches g.calls).now = [] ∨ ∀ w ∈ g.workers, w.pc.finished = true)

/-- For every sequence of calls with distinct names, and in every state: the three
views agree if and only if `start` has not been called yet, or nobody was added
between its last two calls (before the only one) and either nobody has been added
since or no worker is in its loop. -/
theorem views_agree_iff {n : Nat} {ok : Group μ → Action μ → Prop} {g : Group μ}
    (h : (machine μ n).Reach ok g) (hnames : g.addedNames.Nodup) :
    g.ViewsAgree ↔ g.OneView := by
  have hroster := roster h
  rw [addedNames, batches_names] at hnames
  constructor
  · intro hagree
    by_cases hstart : .start ∈ g.calls
    · refine Or.inr ⟨?_, ?_⟩
      · -- A name of the last batch has a reference, so it is a name of this one.
        refine List.eq_nil_iff_forall_not_mem.mpr fun name hlast => ?_
        have href := (hasRef_iff hroster name).mpr (Or.inr hlast)
        have hnow := (mem_getNames_iff hroster name).mp ((hagree.names name).mpr href)
        have hin : name ∈ (batches g.calls).started := List.mem_append_right _ hlast
        exact List.disjoint_of_nodup_append hnames hin hnow
      · by_cases hlive : ∀ w ∈ g.workers, w.pc.finished = true
        · exact Or.inr hlive
        · simp only [not_forall, Bool.not_eq_true] at hlive
          obtain ⟨w, hw, hlive⟩ := hlive
          left
          refine List.eq_nil_iff_forall_not_mem.mpr fun name hnow => ?_
          have href := (hasRef_iff hroster name).mpr (Or.inl hnow)
          obtain ⟨m, hm, -⟩ := hagree.dispatched hstart w hw hlive name href
          have hin := hroster.workers w hw name (by rw [hm]; rfl)
          exact List.disjoint_of_nodup_append hnames hin hnow
    · exact Or.inl hstart
  · intro hone
    have hlast : (batches g.calls).last = [] := by
      rcases hone with hno | ⟨hlast, -⟩
      · exact (List.append_eq_nil_iff.mp (batches_of_not_started hno)).2
      · exact hlast
    refine ⟨fun name => ?_, fun hstart w hw hlive name href => ?_⟩
    · rw [mem_getNames_iff hroster, hasRef_iff hroster, hlast]
      simp
    · rw [hasRef_iff hroster, hlast] at href
      rcases hone with hno | ⟨-, hnow | hfin⟩
      · exact absurd hstart hno
      · simp [hnow] at href
      · rw [hfin w hw] at hlive
        simp at hlive

/-- Two members, and `start` has not been called. -/
theorem views_agree_two : ∃ g : Group Nat,
    g.getNames = ["b", "a"] ∧ g.hasRef "a" = true ∧ g.ViewsAgree := by
  have h := reach_after (fun _ _ => True) 1
    ([.add "a", .add "b", .getRef "a"] : List (Action Nat)) (by decide)
  exact ⟨_, by decide, by decide,
    (views_agree_iff h (by decide)).mpr (Or.inl (by decide))⟩

/-- One member and `start`: `get_ref` knows the name and `get_names` does not. -/
theorem views_disagree : ¬ ∀ (n : Nat) (g : Group Nat),
    (machine Nat n).Reachable g → g.addedNames.Nodup → g.ViewsAgree := by
  intro h
  have hreach := reach_after (fun _ _ => True) 1 (startOne Nat) (by decide)
  have hname := ((h 1 _ hreach (by decide)).names "a").mpr (by decide)
  revert hname
  decide

end Group

end Actors
