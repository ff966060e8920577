import Mathlib.Data.List.Count
import Mathlib.Data.List.Induction

/-!
# The life of an actor

The documentation of the `Actor` trait promises an order: `init()` once,
before any message; then `process_message`, one message at a time; then
`end()` once, after all messages.  `Phase.next` is that order as an
automaton, with the phase `violated` for every event out of order, and
`phaseOf` runs it over the events of one actor in a history of many.

`RespectsLifecycle` says the same in terms of positions and counts, without
the automaton.  `respectsLifecycle_of_phaseOf` derives it from the automaton,
so a component only has to show that its history never reaches `violated`.
-/

namespace Actors

/-- What happens to an actor: its hooks and its message handler begin and
end. -/
inductive LifeEvent where
  | initBegin | initEnd | processBegin | processEnd | endBegin | endEnd
  deriving DecidableEq, Repr

/-- How far an actor has come. -/
inductive Phase where
  | fresh | initing | ready | processing | ending | ended | violated
  deriving DecidableEq, Repr

/-- The documented order of events. -/
def Phase.next : Phase → LifeEvent → Phase
  | .fresh, .initBegin => .initing
  | .initing, .initEnd => .ready
  | .ready, .processBegin => .processing
  | .processing, .processEnd => .ready
  | .ready, .endBegin => .ending
  | .ending, .endEnd => .ended
  | _, _ => .violated

/-- The events of many actors, in the order in which they happened. -/
abbrev History := List (Nat × LifeEvent)

/-- The phase of actor `k` after the history. -/
def phaseOf (h : History) (k : Nat) : Phase :=
  h.foldl (fun p e => if e.1 = k then p.next e.2 else p) .fresh

@[simp] theorem phaseOf_nil (k : Nat) : phaseOf [] k = .fresh := rfl

theorem phaseOf_append (h : History) (k k' : Nat) (e : LifeEvent) :
    phaseOf (h ++ [(k, e)]) k' =
      if k = k' then (phaseOf h k').next e else phaseOf h k' := by
  simp [phaseOf, List.foldl_append]

@[simp] theorem phaseOf_append_self (h : History) (k : Nat) (e : LifeEvent) :
    phaseOf (h ++ [(k, e)]) k = (phaseOf h k).next e := by
  simp [phaseOf_append]

/-- An event of one actor leaves the phases of the others alone. -/
theorem phaseOf_append_of_ne (h : History) {k k' : Nat} (hne : k' ≠ k)
    (e : LifeEvent) : phaseOf (h ++ [(k, e)]) k' = phaseOf h k' := by
  rw [phaseOf_append, if_neg (Ne.symm hne)]

@[simp] theorem Phase.next_violated (e : LifeEvent) :
    Phase.violated.next e = .violated := by
  cases e <;> rfl

/-- A violation stays. -/
theorem phaseOf_append_violated (h h' : History) (k : Nat)
    (hv : phaseOf h k = .violated) : phaseOf (h ++ h') k = .violated := by
  induction h' using List.reverseRecOn with
  | nil => simpa using hv
  | append_singleton h' e ih =>
    rw [← List.append_assoc, phaseOf_append, ih]
    simp

/-- The lifecycle in terms of positions and counts. -/
structure RespectsLifecycle (h : History) (k : Nat) : Prop where
  init_once : h.count (k, .initBegin) ≤ 1
  end_once : h.count (k, .endBegin) ≤ 1
  /-- A message is handled after `init()` has returned and before `end()` is
  called. -/
  process_between : ∀ l r, h = l ++ (k, .processBegin) :: r →
    (k, .initEnd) ∈ l ∧ (k, .endBegin) ∉ l
  /-- No message is being handled when `end()` is called. -/
  end_alone : ∀ l r, h = l ++ (k, .endBegin) :: r →
    l.count (k, .processBegin) = l.count (k, .processEnd)

/-- What each phase says about the counts. -/
private def Summary (h : History) (k : Nat) : Phase → Prop
  | .fresh => h.count (k, .initBegin) = 0 ∧ h.count (k, .endBegin) = 0 ∧
      h.count (k, .processBegin) = h.count (k, .processEnd)
  | .initing => h.count (k, .initBegin) = 1 ∧ h.count (k, .endBegin) = 0 ∧
      h.count (k, .processBegin) = h.count (k, .processEnd)
  | .ready => h.count (k, .initBegin) = 1 ∧ h.count (k, .endBegin) = 0 ∧
      h.count (k, .processBegin) = h.count (k, .processEnd) ∧
      0 < h.count (k, .initEnd)
  | .processing => h.count (k, .initBegin) = 1 ∧
      h.count (k, .endBegin) = 0 ∧
      h.count (k, .processBegin) = h.count (k, .processEnd) + 1 ∧
      0 < h.count (k, .initEnd)
  | .ending | .ended => h.count (k, .initBegin) = 1 ∧
      h.count (k, .endBegin) = 1
  | .violated => True

private theorem summary_phaseOf (h : History) (k : Nat) :
    Summary h k (phaseOf h k) := by
  induction h using List.reverseRecOn with
  | nil => simp [Summary]
  | append_singleton h e ih =>
    obtain ⟨k', e⟩ := e
    rw [phaseOf_append]
    split
    · rename_i hk
      subst hk
      revert ih
      cases phaseOf h k' <;> cases e <;> simp [Summary, Phase.next, List.count_append]
      all_goals omega
    · rename_i hk
      revert ih
      cases phaseOf h k <;> simp [Summary, List.count_append, hk]

/-- An actor that has ended had its `end()` called. -/
theorem mem_of_phaseOf_ended {h : History} {k : Nat}
    (hp : phaseOf h k = .ended) : (k, .endBegin) ∈ h := by
  have hsum := summary_phaseOf h k
  rw [hp] at hsum
  have hpos : 0 < h.count (k, .endBegin) := by
    rw [hsum.2]
    exact Nat.one_pos
  exact List.count_pos_iff.mp hpos

/-- A history that the automaton accepts respects the lifecycle. -/
theorem respectsLifecycle_of_phaseOf {h : History} {k : Nat}
    (hv : phaseOf h k ≠ .violated) : RespectsLifecycle h k := by
  have hsum := summary_phaseOf h k
  -- The phase before an event that occurs in `h` allows that event.
  have hbefore : ∀ l e r, h = l ++ (k, e) :: r →
      (phaseOf l k).next e ≠ .violated := by
    intro l e r hsplit hviol
    apply hv
    have hassoc : h = (l ++ [(k, e)]) ++ r := by simp [hsplit]
    rw [hassoc]
    exact phaseOf_append_violated _ _ _ (by simpa using hviol)
  refine ⟨?_, ?_, ?_, ?_⟩
  · revert hsum
    cases hp : phaseOf h k <;> simp [Summary] <;>
      first | exact absurd hp hv | omega
  · revert hsum
    cases hp : phaseOf h k <;> simp [Summary] <;>
      first | exact absurd hp hv | omega
  · intro l r hsplit
    have hl := summary_phaseOf l k
    have hready : phaseOf l k = .ready := by
      have := hbefore l _ r hsplit
      revert this
      cases phaseOf l k <;> simp [Phase.next]
    rw [hready] at hl
    obtain ⟨-, hend, -, hinit⟩ := hl
    exact ⟨List.count_pos_iff.mp hinit, List.count_eq_zero.mp hend⟩
  · intro l r hsplit
    have hl := summary_phaseOf l k
    have hready : phaseOf l k = .ready := by
      have := hbefore l _ r hsplit
      revert this
      cases phaseOf l k <;> simp [Phase.next]
    rw [hready] at hl
    exact hl.2.2.1

/-- Once `end()` has begun the phase is `ending` or `ended`, and nothing of the
actor happens but the end of that call. -/
private theorem over_of_endBegin {l r : History} {k : Nat}
    (hv : phaseOf (l ++ [(k, .endBegin)] ++ r) k ≠ .violated) :
    (phaseOf (l ++ [(k, .endBegin)] ++ r) k = .ending ∨
      phaseOf (l ++ [(k, .endBegin)] ++ r) k = .ended) ∧
      ∀ e, (k, e) ∈ r → e = .endEnd := by
  induction r using List.reverseRecOn with
  | nil =>
    rw [List.append_nil, phaseOf_append_self] at hv ⊢
    refine ⟨?_, by simp⟩
    revert hv
    cases phaseOf l k <;> simp [Phase.next]
  | append_singleton r x ih =>
    obtain ⟨k', x⟩ := x
    rw [← List.append_assoc] at hv ⊢
    obtain ⟨hphase, hmem⟩ :=
      ih fun hviol => hv (phaseOf_append_violated _ _ _ hviol)
    rw [phaseOf_append] at hv ⊢
    by_cases hk : k' = k
    · subst hk
      rw [if_pos rfl] at hv ⊢
      rcases hphase with hphase | hphase
      · rw [hphase] at hv ⊢
        have hx : x = .endEnd := by
          cases x <;> simp [Phase.next] at hv ⊢
        subst hx
        refine ⟨Or.inr rfl, fun e he => ?_⟩
        rcases List.mem_append.mp he with he | he
        · exact hmem e he
        · simpa using he
      · rw [hphase] at hv
        cases x <;> simp [Phase.next] at hv
    · rw [if_neg hk]
      refine ⟨hphase, fun e he => ?_⟩
      rcases List.mem_append.mp he with he | he
      · exact hmem e he
      · simp [Ne.symm hk] at he

/-- After `end()` has begun nothing of the actor happens but the end of that
call. -/
theorem eq_endEnd_of_phaseOf {h : History} {k : Nat}
    (hv : phaseOf h k ≠ .violated) {l r : History}
    (hsplit : h = l ++ (k, .endBegin) :: r) :
    ∀ e, (k, e) ∈ r → e = .endEnd := by
  have hassoc : h = l ++ [(k, .endBegin)] ++ r := by simp [hsplit]
  rw [hassoc] at hv
  exact (over_of_endBegin hv).2

end Actors
