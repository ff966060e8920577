import Mathlib.Algebra.GroupWithZero.Nat
import Mathlib.Data.List.AList

/-!
# Maps with one value per key

A `HashMap` is an `AList` of Mathlib: an association list that carries the
proof that no key occurs twice.  `lookup` and `insert` are Mathlib's.

The order of the entries means nothing.  A program that iterates over a hash
map visits the values in some order; a model of it lets the order be chosen.
`values` is the list of values that such an iteration visits.
-/

namespace Concur

/-- A hash map from `K` to `V`. -/
abbrev HashMap (K V : Type) := AList fun _ : K => V

namespace HashMap

variable {K V : Type}

/-- The values, one for each key. -/
def values (m : HashMap K V) : List V := m.entries.map Sigma.snd

@[simp] theorem values_empty : values (∅ : HashMap K V) = [] := rfl

variable [DecidableEq K]

theorem mem_values_of_lookup {m : HashMap K V} {k : K} {v : V}
    (h : m.lookup k = some v) : v ∈ m.values :=
  List.mem_map.mpr ⟨⟨k, v⟩, AList.mem_lookup_iff.mp h, rfl⟩

theorem lookup_of_mem_values {m : HashMap K V} {v : V} (h : v ∈ m.values) :
    ∃ k, m.lookup k = some v := by
  obtain ⟨⟨k, w⟩, hmem, rfl⟩ := List.mem_map.mp h
  exact ⟨k, AList.mem_lookup_iff.mpr hmem⟩

theorem mem_values_insert {m : HashMap K V} {k : K} {v w : V}
    (h : w ∈ values (m.insert k v)) : w = v ∨ w ∈ m.values := by
  obtain ⟨k', hk'⟩ := lookup_of_mem_values h
  by_cases hkk : k' = k
  · subst hkk
    rw [AList.lookup_insert, Option.some.injEq] at hk'
    exact Or.inl hk'.symm
  · rw [AList.lookup_insert_ne hkk] at hk'
    exact Or.inr (mem_values_of_lookup hk')

/-- Inserting a new value keeps the values distinct. -/
theorem nodup_values_insert {m : HashMap K V} (h : m.values.Nodup) (k : K)
    {v : V} (hv : v ∉ m.values) : (values (m.insert k v)).Nodup := by
  have hsub : ((m.entries.kerase k).map Sigma.snd).Sublist m.values :=
    (List.kerase_sublist k m.entries).map Sigma.snd
  rw [values, AList.entries_insert, List.map_cons, List.nodup_cons]
  exact ⟨fun hmem => hv (hsub.subset hmem), h.sublist hsub⟩

/-- Inserting a value adds at most one. -/
theorem length_values_insert_le (m : HashMap K V) (k : K) (v : V) :
    (values (m.insert k v)).length ≤ m.values.length + 1 := by
  have hsub : ((m.entries.kerase k).map Sigma.snd).Sublist m.values :=
    (List.kerase_sublist k m.entries).map Sigma.snd
  rw [values, AList.entries_insert, List.map_cons, List.length_cons]
  exact Nat.succ_le_succ hsub.length_le

/-- A sum over the values, when one of them is replaced. -/
theorem sum_values_insert {m : HashMap K V} {k : K} {v : V} (h : m.lookup k = some v)
    (f : V → Nat) (w : V) :
    ((values (m.insert k w)).map f).sum + f v = (m.values.map f).sum + f w := by
  have hmem := AList.mem_lookup_iff.mp h
  obtain ⟨v', before, after, hnot, hentries, herase⟩ :=
    List.exists_of_kerase (List.mem_keys_of_mem hmem)
  have hv : v' = v := by
    have hmem' : (⟨k, v'⟩ : Sigma fun _ : K => V) ∈ m.entries := by simp [hentries]
    rw [AList.mem_lookup_iff.mpr hmem', Option.some.injEq] at h
    exact h
  simp only [values, AList.entries_insert, herase, List.map_cons, List.sum_cons]
  simp only [hentries, hv, List.map_append, List.map_cons, List.sum_append, List.sum_cons]
  omega

/-- A sum over the values, when a key is new. -/
theorem sum_values_insert_new {m : HashMap K V} {k : K} (h : m.lookup k = none)
    (f : V → Nat) (w : V) :
    ((values (m.insert k w)).map f).sum = (m.values.map f).sum + f w := by
  rw [values, AList.entries_insert_of_notMem (AList.lookup_eq_none.mp h), List.map_cons,
    List.map_cons, List.sum_cons, values]
  exact Nat.add_comm _ _

end HashMap

end Concur
