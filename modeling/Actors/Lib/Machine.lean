import Mathlib.Logic.Relation

/-!
# Labelled machines and the states their runs reach

A `Machine` has start states and a labelled step relation.  Everything that is
proved about a concurrent program in this development is a statement about the
states that such a machine reaches, so the induction over runs is stated here
once.

* `Machine.Reach ok` collects the states of the runs all of whose steps
  satisfy `ok`.  A claim about every run takes `ok` to be true everywhere
  (`Machine.Reachable`); a claim about the runs that keep some discipline
  takes `ok` to be that discipline.
* `Reach.invariant` is the invariant rule: what holds at the start and is
  kept by every allowed step holds in every state reached.
* `Reach.simulate` is the refinement rule: a map that sends every allowed
  step to an allowed step of a second machine, or to no step, sends reached
  states to reached states.
* `Machine.Run` keeps the steps of a run as well, for what has to count them,
  and `Run.invariant` is its invariant rule.  `Run.forall_iff` is the rule for the
  exact condition under which a run goes well.
* `Machine.ofNext` builds a machine from a partial function, and `exec` runs
  such a function along a list of labels.  A concrete run is then a closed
  computation, and `reach_exec_get` turns it into reachability.

Nothing here mentions a particular program.
-/

namespace Concur

/-- Start states and a labelled step relation. -/
structure Machine (σ α : Type) where
  /-- The states in which a run may begin. -/
  start : σ → Prop
  /-- `step s a s'`: in `s` the machine can do `a` and be in `s'`. -/
  step : σ → α → σ → Prop

namespace Machine

variable {σ α τ β : Type}

/-- The states of the runs of `M` all of whose steps satisfy `ok`.  `ok` sees
the state before the step and the label. -/
inductive Reach (M : Machine σ α) (ok : σ → α → Prop) : σ → Prop where
  | start {s : σ} (h : M.start s) : Reach M ok s
  | step {s s' : σ} {a : α} (hs : Reach M ok s) (hok : ok s a)
      (h : M.step s a s') : Reach M ok s'

/-- The states of all runs of `M`. -/
abbrev Reachable (M : Machine σ α) : σ → Prop := M.Reach fun _ _ => True

/-- Asking less of the steps reaches more states. -/
theorem Reach.mono {M : Machine σ α} {ok ok' : σ → α → Prop}
    (himp : ∀ s a, ok s a → ok' s a) {s : σ} (h : M.Reach ok s) :
    M.Reach ok' s := by
  induction h with
  | start h => exact .start h
  | step _ hok h ih => exact .step ih (himp _ _ hok) h

/-- The invariant rule.  The step case may use that the state before the step
was itself reached, so invariants can be stacked. -/
theorem Reach.invariant {M : Machine σ α} {ok : σ → α → Prop} {I : σ → Prop}
    (hstart : ∀ s, M.start s → I s)
    (hstep : ∀ s a s', M.Reach ok s → I s → ok s a → M.step s a s' → I s')
    {s : σ} (h : M.Reach ok s) : I s := by
  induction h with
  | start h => exact hstart _ h
  | step hs hok h ih => exact hstep _ _ _ hs ih hok h

/-- The refinement rule.  `f` reads a state of `M` as a state of `A`.  An
allowed step of `M` is an allowed step of `A`, or `A` does not move. -/
theorem Reach.simulate {M : Machine σ α} {A : Machine τ β}
    {ok : σ → α → Prop} {ok' : τ → β → Prop} {f : σ → τ}
    (hstart : ∀ s, M.start s → A.start (f s))
    (hstep : ∀ s a s', M.Reach ok s → ok s a → M.step s a s' →
      f s' = f s ∨ ∃ b, ok' (f s) b ∧ A.step (f s) b (f s'))
    {s : σ} (h : M.Reach ok s) : A.Reach ok' (f s) := by
  induction h with
  | start h => exact .start (hstart _ h)
  | step hs hok h ih =>
    rcases hstep _ _ _ hs hok h with heq | ⟨b, hok', hb⟩
    · rw [heq]
      exact ih
    · exact .step ih hok' hb

/-! ## Runs with their steps -/

/-- The runs of `M` all of whose steps satisfy `ok`: the steps taken, each with
the state before it, and the last state. -/
inductive Run (M : Machine σ α) (ok : σ → α → Prop) :
    List (σ × α) → σ → Prop where
  | start {s : σ} (h : M.start s) : Run M ok [] s
  | step {tr : List (σ × α)} {s s' : σ} {a : α} (hs : Run M ok tr s)
      (hok : ok s a) (h : M.step s a s') : Run M ok (tr ++ [(s, a)]) s'

/-- A run reaches its last state. -/
theorem Run.reach {M : Machine σ α} {ok : σ → α → Prop} {tr : List (σ × α)}
    {s : σ} (h : M.Run ok tr s) : M.Reach ok s := by
  induction h with
  | start h => exact .start h
  | step _ hok h ih => exact .step ih hok h

/-- Every state reached is the last one of a run. -/
theorem Reach.exists_run {M : Machine σ α} {ok : σ → α → Prop} {s : σ}
    (h : M.Reach ok s) : ∃ tr, M.Run ok tr s := by
  induction h with
  | start h => exact ⟨[], .start h⟩
  | step _ hok h ih =>
    obtain ⟨tr, htr⟩ := ih
    exact ⟨_, .step htr hok h⟩

/-- The invariant rule for runs. -/
theorem Run.invariant {M : Machine σ α} {ok : σ → α → Prop}
    {I : List (σ × α) → σ → Prop} (hstart : ∀ s, M.start s → I [] s)
    (hstep : ∀ tr s a s', M.Reach ok s → I tr s → ok s a → M.step s a s' →
      I (tr ++ [(s, a)]) s') {tr : List (σ × α)} {s : σ} (h : M.Run ok tr s) :
    I tr s := by
  induction h with
  | start h => exact hstart _ h
  | step hs hok h ih => exact hstep _ _ _ _ hs.reach ih hok h

/-- The rule for the exact condition `C` on the steps under which all states of a run
satisfy `P`.  `I` is what holds in the runs that meet the condition. -/
theorem Run.forall_iff {M : Machine σ α} {ok C : σ → α → Prop} {P I : σ → Prop}
    (hstart : ∀ s, M.start s → I s) (hgood : ∀ s, I s → P s)
    (hkeep : ∀ s a s', I s → ok s a → C s a → M.step s a s' → I s')
    (hneeds : ∀ s a s', M.Reach ok s → I s → ok s a → M.step s a s' → P s' → C s a)
    {tr : List (σ × α)} {s : σ} (h : M.Run ok tr s) :
    ((∀ y ∈ tr, P y.1) ∧ P s) ↔ ∀ y ∈ tr, C y.1 y.2 := by
  have hall : (((∀ y ∈ tr, P y.1) ∧ P s) ↔ ∀ y ∈ tr, C y.1 y.2) ∧
      ((∀ y ∈ tr, C y.1 y.2) → I s) := by
    induction h with
    | start h => exact ⟨by simp [hgood _ (hstart _ h)], fun _ => hstart _ h⟩
    | step hs hok h ih =>
      obtain ⟨hiff, hinv⟩ := ih
      simp only [List.forall_mem_append, List.forall_mem_singleton]
      refine ⟨⟨?_, ?_⟩, ?_⟩
      · rintro ⟨hbefore, hlast⟩
        have hC := hiff.mp hbefore
        exact ⟨hC, hneeds _ _ _ hs.reach (hinv hC) hok h hlast⟩
      · rintro ⟨hC, hlast⟩
        exact ⟨hiff.mpr hC, hgood _ (hkeep _ _ _ (hinv hC) hok hlast h)⟩
      · rintro ⟨hC, hlast⟩
        exact hkeep _ _ _ (hinv hC) hok hlast h
  exact hall.1

/-- What no step restores held in all states before. -/
theorem Run.forall_of_last {M : Machine σ α} {ok : σ → α → Prop} {P : σ → Prop}
    (hback : ∀ s a s', M.step s a s' → P s' → P s) {tr : List (σ × α)} {s : σ}
    (h : M.Run ok tr s) (hs : P s) : ∀ y ∈ tr, P y.1 := by
  induction h with
  | start => simp
  | step _ _ h ih =>
    have hlast := hback _ _ _ h hs
    simp only [List.forall_mem_append, List.forall_mem_singleton]
    exact ⟨ih hlast, hlast⟩

/-- What no step takes away holds from the first state on that has it. -/
theorem Run.stable {M : Machine σ α} {ok : σ → α → Prop} {P : σ → Prop}
    (hkeep : ∀ s a s', M.Reach ok s → ok s a → M.step s a s' → P s → P s')
    {tr : List (σ × α)} {s : σ} (h : M.Run ok tr s) {y : σ × α} (hy : y ∈ tr)
    (hP : P y.1) : P s := by
  induction h with
  | start => simp at hy
  | step hs hok h ih =>
    refine hkeep _ _ _ hs.reach hok h ?_
    rcases List.mem_append.mp hy with hy | hy
    · exact ih hy
    · rw [List.mem_singleton.mp hy] at hP
      exact hP

/-- The part of a run before one of its steps is a run. -/
theorem Run.take {M : Machine σ α} {ok : σ → α → Prop} {tr : List (σ × α)} {s : σ}
    (h : M.Run ok tr s) {i : Nat} {y : σ × α} (hy : tr[i]? = some y) :
    M.Run ok (tr.take i) y.1 := by
  induction h with
  | start => simp at hy
  | step hs hok h ih =>
    rename_i tr x _ a
    rcases Nat.lt_trichotomy i tr.length with hlt | rfl | hgt
    · rw [List.getElem?_append_left hlt] at hy
      rw [List.take_append_of_le_length (Nat.le_of_lt hlt)]
      exact ih hy
    · rw [List.getElem?_concat_length, Option.some.injEq] at hy
      rw [List.take_left, ← hy]
      exact hs
    · rw [List.getElem?_eq_none (by simp; omega)] at hy
      simp at hy

/-- A measure that the counted steps raise bounds their number. -/
theorem Run.countP_le {M : Machine σ α} {ok : σ → α → Prop} {f : σ → Nat}
    {counted : σ × α → Bool}
    (hstep : ∀ s a s', M.Reach ok s → ok s a → M.step s a s' →
      f s + (if counted (s, a) = true then 1 else 0) ≤ f s')
    {tr : List (σ × α)} {s : σ} (h : M.Run ok tr s) : tr.countP counted ≤ f s := by
  induction h with
  | start => simp
  | step hs hok h ih =>
    have hnext := hstep _ _ _ hs.reach hok h
    rw [List.countP_append, List.countP_singleton]
    omega

/-- What one step brings about, and no later step takes away, holds at the end.  A
measure that the counted steps lower bounds how many of them come after it. -/
theorem Run.after {M : Machine σ α} {ok : σ → α → Prop} {P : σ → Prop} {f : σ → Nat}
    {counted : σ × α → Bool} {n : Nat}
    (hkeep : ∀ s a s', ok s a → M.step s a s' → P s →
      P s' ∧ f s' + (if counted (s, a) = true then 1 else 0) ≤ f s)
    {tr : List (σ × α)} {s : σ} (h : M.Run ok tr s) {i : Nat} {y : σ × α}
    (hy : tr[i]? = some y) (hafter : ∀ s', M.step y.1 y.2 s' → P s' ∧ f s' ≤ n) :
    P s ∧ (tr.drop (i + 1)).countP counted + f s ≤ n := by
  induction h with
  | start => simp at hy
  | step hs hok h ih =>
    rename_i tr x x' a
    rcases Nat.lt_trichotomy i tr.length with hlt | rfl | hgt
    · rw [List.getElem?_append_left hlt] at hy
      obtain ⟨hP, hle⟩ := ih hy
      obtain ⟨hP', hle'⟩ := hkeep _ _ _ hok h hP
      refine ⟨hP', ?_⟩
      have hdrop : (tr ++ [(x, a)]).drop (i + 1) = tr.drop (i + 1) ++ [(x, a)] :=
        List.drop_append_of_le_length hlt
      rw [hdrop, List.countP_append, List.countP_singleton]
      omega
    · rw [List.getElem?_concat_length, Option.some.injEq] at hy
      subst hy
      obtain ⟨hP, hle⟩ := hafter _ h
      refine ⟨hP, ?_⟩
      rw [List.drop_eq_nil_of_le (by simp)]
      simpa using hle
    · rw [List.getElem?_eq_none (by simp; omega)] at hy
      simp at hy

/-! ## Machines given by a partial function -/

/-- The machine whose steps are the defined values of `next`. -/
def ofNext (start : σ → Prop) (next : σ → α → Option σ) : Machine σ α where
  start := start
  step s a s' := next s a = some s'

@[simp] theorem ofNext_start (start : σ → Prop) (next : σ → α → Option σ)
    (s : σ) : (ofNext start next).start s = start s := rfl

@[simp] theorem ofNext_step (start : σ → Prop) (next : σ → α → Option σ)
    (s s' : σ) (a : α) :
    (ofNext start next).step s a s' = (next s a = some s') := rfl

/-- The state after the labels `as`, in order.  `none` when one of them is not
possible. -/
def exec (next : σ → α → Option σ) : σ → List α → Option σ
  | s, [] => some s
  | s, a :: as => (next s a).bind fun s' => exec next s' as

/-- Several steps in a row, with labels that are always allowed. -/
theorem Reach.exec {start : σ → Prop} {ok : σ → α → Prop} {next : σ → α → Option σ}
    {as : List α} : ∀ {s s' : σ}, (ofNext start next).Reach ok s →
      (∀ a ∈ as, ∀ s, ok s a) → Machine.exec next s as = some s' →
      (ofNext start next).Reach ok s' := by
  induction as with
  | nil =>
    intro s s' hs _ h
    rw [Machine.exec, Option.some.injEq] at h
    exact h ▸ hs
  | cons a as ih =>
    intro s s' hs hok h
    rw [Machine.exec, Option.bind_eq_some_iff] at h
    obtain ⟨s1, h1, h2⟩ := h
    exact ih (hs.step (hok a (List.mem_cons_self ..) s) h1)
      (fun b hb => hok b (List.mem_cons_of_mem _ hb)) h2

/-- `next`, restricted to the labels that `ok` allows in the state. -/
def guarded (ok : σ → α → Prop) [∀ s a, Decidable (ok s a)]
    (next : σ → α → Option σ) (s : σ) (a : α) : Option σ :=
  if ok s a then next s a else none

/-- A computed run whose labels are all allowed reaches its last state. -/
theorem reach_of_exec {start : σ → Prop} {ok : σ → α → Prop}
    [∀ s a, Decidable (ok s a)] {next : σ → α → Option σ} {as : List α} :
    ∀ {s s' : σ}, (ofNext start next).Reach ok s →
      exec (guarded ok next) s as = some s' →
      (ofNext start next).Reach ok s' := by
  induction as with
  | nil =>
    intro s s' hs h
    rw [exec, Option.some.injEq] at h
    exact h ▸ hs
  | cons a as ih =>
    intro s s' hs h
    rw [exec, Option.bind_eq_some_iff] at h
    obtain ⟨s1, h1, h2⟩ := h
    unfold guarded at h1
    split at h1
    · rename_i hok
      exact ih (.step hs hok h1) h2
    · simp at h1

/-- The last state of a computed run, when the run is possible. -/
theorem reach_exec_get {start : σ → Prop} {ok : σ → α → Prop}
    [∀ s a, Decidable (ok s a)] {next : σ → α → Option σ} {s : σ}
    (hs : (ofNext start next).Reach ok s) (as : List α)
    (h : (exec (guarded ok next) s as).isSome) :
    (ofNext start next).Reach ok ((exec (guarded ok next) s as).get h) :=
  reach_of_exec hs (Option.some_get h).symm

/-- The steps of a computed run. -/
def trace (next : σ → α → Option σ) : σ → List α → List (σ × α)
  | _, [] => []
  | s, a :: as => (s, a) :: ((next s a).map fun s' => trace next s' as).getD []

theorem run_of_exec {start : σ → Prop} {ok : σ → α → Prop}
    [∀ s a, Decidable (ok s a)] {next : σ → α → Option σ} {as : List α} :
    ∀ {tr : List (σ × α)} {s s' : σ}, (ofNext start next).Run ok tr s →
      exec (guarded ok next) s as = some s' →
      (ofNext start next).Run ok (tr ++ trace next s as) s' := by
  induction as with
  | nil =>
    intro tr s s' hs h
    rw [exec, Option.some.injEq] at h
    rw [trace, List.append_nil]
    exact h ▸ hs
  | cons a as ih =>
    intro tr s s' hs h
    rw [exec, Option.bind_eq_some_iff] at h
    obtain ⟨s1, h1, h2⟩ := h
    unfold guarded at h1
    split at h1
    · rename_i hok
      have hrun := ih (.step hs hok h1) h2
      rw [List.append_assoc] at hrun
      rw [trace, h1]
      exact hrun
    · simp at h1

/-- A computed run, when it is possible, with its steps and its last state. -/
theorem run_exec_get {start : σ → Prop} {ok : σ → α → Prop}
    [∀ s a, Decidable (ok s a)] {next : σ → α → Option σ} {s : σ}
    (hs : start s) (as : List α) (h : (exec (guarded ok next) s as).isSome) :
    (ofNext start next).Run ok (trace next s as)
      ((exec (guarded ok next) s as).get h) :=
  run_of_exec (.start hs) (Option.some_get h).symm

end Machine

end Concur
