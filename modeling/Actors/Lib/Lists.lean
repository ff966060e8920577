import Mathlib.Algebra.BigOperators.Group.List.Basic

/-!
# Updates of a list of components

The state of a concurrent program holds lists of components: threads,
channels, members.  A step replaces one component, adds one, or changes one in
place.  The lemmas below carry a property of all components over each of these
updates.  Those about `getElem?` are for properties that mention the place of
the component, and `exists_sum_map_set` is for a sum over all components.
-/

namespace Concur

section Sums

variable {α M : Type} [AddCommMonoid M]

/-- Replacing one element of a list replaces one term of the sum over it. -/
theorem exists_sum_map_set (f : α → M) {l : List α} {i : Nat} {a : α}
    (h : l[i]? = some a) :
    ∃ rest, (l.map f).sum = f a + rest ∧
      ∀ b, ((l.set i b).map f).sum = f b + rest := by
  induction l generalizing i with
  | nil => simp at h
  | cons x l ih =>
    cases i with
    | zero =>
      rw [List.getElem?_cons_zero, Option.some.injEq] at h
      exact ⟨(l.map f).sum, by simp [h], by simp⟩
    | succ i =>
      rw [List.getElem?_cons_succ] at h
      obtain ⟨rest, h1, h2⟩ := ih h
      refine ⟨f x + rest, ?_, fun b => ?_⟩
      · rw [List.map_cons, List.sum_cons, h1, add_left_comm]
      · rw [List.set_cons_succ, List.map_cons, List.sum_cons, h2 b,
          add_left_comm]

end Sums

/-- Replacing an element by one with the same image keeps the images. -/
theorem map_set_of_eq {α β : Type} (f : α → β) {l : List α} {i : Nat}
    {a b : α} (h : l[i]? = some a) (hf : f b = f a) :
    (l.set i b).map f = l.map f := by
  induction l generalizing i with
  | nil => simp at h
  | cons x l ih =>
    cases i with
    | zero =>
      rw [List.getElem?_cons_zero, Option.some.injEq] at h
      simp [hf, h]
    | succ i =>
      rw [List.getElem?_cons_succ] at h
      simp [ih h]

/-- Modifying an element without changing its image keeps the images. -/
theorem map_modify_of_eq {α β : Type} (f : α → β) {l : List α}
    {g : α → α} (hg : ∀ a, f (g a) = f a) (i : Nat) :
    (l.modify i g).map f = l.map f := by
  refine List.ext_getElem? fun j => ?_
  rw [List.getElem?_map, List.getElem?_map, List.getElem?_modify]
  cases l[j]? with
  | none => rfl
  | some a => by_cases hij : i = j <;> simp [hij, hg]

/-- What holds of all elements and of the new one holds of all elements after
a replacement. -/
theorem forall_mem_set {α : Type} {P : α → Prop} {l : List α} {i : Nat}
    {a : α} (hl : ∀ x ∈ l, P x) (ha : P a) : ∀ x ∈ l.set i a, P x := by
  intro x hx
  rcases List.mem_or_eq_of_mem_set hx with hx | rfl
  · exact hl x hx
  · exact ha

/-- What holds of all elements and of the new one holds of all elements after
it is added. -/
theorem forall_mem_snoc {α : Type} {P : α → Prop} {l : List α} {a : α}
    (hl : ∀ x ∈ l, P x) (ha : P a) : ∀ x ∈ l ++ [a], P x := by
  intro x hx
  rcases List.mem_append.mp hx with hx | hx
  · exact hl x hx
  · rw [List.mem_singleton.mp hx]
    exact ha

/-- The same for a property that may mention the place of the element. -/
theorem forall_getElem?_set {α : Type} {P : Nat → α → Prop} {l : List α}
    {i : Nat} {a : α} (hl : ∀ k x, l[k]? = some x → P k x) (ha : P i a) :
    ∀ k x, (l.set i a)[k]? = some x → P k x := by
  intro k x hx
  rw [List.getElem?_set] at hx
  split at hx
  · rename_i hik
    subst hik
    split at hx
    · rw [Option.some.injEq] at hx
      exact hx ▸ ha
    · simp at hx
  · exact hl k x hx

/-- The same for a new element. -/
theorem forall_getElem?_snoc {α : Type} {P : Nat → α → Prop} {l : List α}
    {a : α} (hl : ∀ k x, l[k]? = some x → P k x) (ha : P l.length a) :
    ∀ k x, (l ++ [a])[k]? = some x → P k x := by
  intro k x hx
  rcases Nat.lt_trichotomy k l.length with hlt | rfl | hgt
  · rw [List.getElem?_append_left hlt] at hx
    exact hl k x hx
  · rw [List.getElem?_concat_length, Option.some.injEq] at hx
    exact hx ▸ ha
  · rw [List.getElem?_eq_none (by simp; omega)] at hx
    simp at hx

/-- What holds of all elements and is kept by `f` holds of all elements after
one of them is modified by `f`. -/
theorem forall_mem_modify {α : Type} {P : α → Prop} {l : List α}
    {f : α → α} (hl : ∀ x ∈ l, P x) (hf : ∀ x, P x → P (f x)) (i : Nat) :
    ∀ x ∈ l.modify i f, P x := by
  intro x hx
  obtain ⟨j, hj⟩ := List.mem_iff_getElem?.mp hx
  rw [List.getElem?_modify, Option.map_eq_map, Option.map_eq_some_iff] at hj
  obtain ⟨y, hy, rfl⟩ := hj
  have hy' := hl y (List.mem_of_getElem? hy)
  split
  · exact hf y hy'
  · exact hy'

/-- The same for an element changed in place. -/
theorem forall_getElem?_modify {α : Type} {P : Nat → α → Prop} {l : List α}
    {f : α → α} (hl : ∀ k x, l[k]? = some x → P k x)
    (hf : ∀ k x, P k x → P k (f x)) (i : Nat) :
    ∀ k x, (l.modify i f)[k]? = some x → P k x := by
  intro k x hx
  rw [List.getElem?_modify, Option.map_eq_map, Option.map_eq_some_iff] at hx
  obtain ⟨y, hy, rfl⟩ := hx
  split
  · exact hf k y (hl k y hy)
  · exact hl k y hy

end Concur
