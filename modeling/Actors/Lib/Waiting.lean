import Mathlib.Logic.Basic
import Mathlib.Logic.Relation

/-!
# Waiting and ranks

A waits-for relation on threads: `waits t u` says that `t` cannot go on before
`u` has done something.  When every thread waits only for threads of lower
rank there is no cycle (`acyclic_of_rank`), and from every thread the chain of
waiting ends at a thread that waits for nobody (`exists_free_of_rank`).  The
order in which locks are taken is one source of such ranks, an acyclic call
graph another.
-/

namespace Concur

variable {α : Type} {waits : α → α → Prop} {rank : α → Nat}

/-- Along a chain of waiting the rank goes down. -/
theorem rank_lt_of_transGen (h : ∀ t u, waits t u → rank u < rank t) {t u : α}
    (htu : Relation.TransGen waits t u) : rank u < rank t := by
  induction htu with
  | single hstep => exact h _ _ hstep
  | tail _ hstep ih => exact Nat.lt_trans (h _ _ hstep) ih

/-- Nobody waits for itself, not even through others. -/
theorem acyclic_of_rank (h : ∀ t u, waits t u → rank u < rank t) (t : α) :
    ¬ Relation.TransGen waits t t :=
  fun hcycle => Nat.lt_irrefl _ (rank_lt_of_transGen h hcycle)

/-- Following the waiting from `t` one comes to a thread that waits for
nobody. -/
theorem exists_free_of_rank (h : ∀ t u, waits t u → rank u < rank t) (t : α) :
    ∃ u, Relation.ReflTransGen waits t u ∧ ∀ v, ¬ waits u v := by
  -- By induction on the rank.
  generalize hn : rank t = n
  induction n using Nat.strongRecOn generalizing t with
  | _ n ih =>
    by_cases hfree : ∀ v, ¬ waits t v
    · exact ⟨t, .refl, hfree⟩
    · simp only [not_forall, not_not] at hfree
      obtain ⟨v, hv⟩ := hfree
      obtain ⟨u, hvu, hu⟩ := ih (rank v) (hn ▸ h t v hv) v rfl
      exact ⟨u, .head hv hvu, hu⟩

end Concur
