import Actors.Lib.Lists
import Actors.Lib.Machine
import Mathlib.Algebra.Order.Group.Multiset
import Mathlib.Data.List.Sublists
import Mathlib.Tactic.Abel

/-!
# A pipeline of lanes, a queue and hands

Items are posted into lanes.  Every lane has a carrier that takes the items of
its lane one by one and puts them into one shared queue.  Hands pick items
from the head of the queue and deliver them, or lose them.  Lanes and hands
can be added at any time, and any number of them move in any order.

```
  post → lane 0: chan → carrier ↘                ↗ hand 0 → done
  post → lane 1: chan → carrier → shared queue   → hand 1 → done
                                                 ↘ hand 2 → lost
```

Three things are proved about all runs.

* `conserved`: the items inside, delivered and lost are together exactly the
  items posted, with multiplicity.
* `rank_posted`: serial numbers given to the items as they are posted are
  their places in the list of items posted.
* `ordered`: let items have classes.  Order within a class can only be lost
  when a carrier overtakes another carrier, or a hand another hand.  In a run
  without such a step the items of each class are delivered in the order
  posted.

Nothing here mentions a particular program.
-/

namespace Concur

/-- A lane and the hand of its carrier. -/
structure Lane (ℓ : Type) where
  chan : List ℓ
  hand : Option ℓ

/-- The items of a lane, oldest first. -/
def Lane.items {ℓ : Type} (lane : Lane ℓ) : List ℓ :=
  lane.hand.toList ++ lane.chan

/-- The state of a pipeline. -/
structure Pipeline (ℓ : Type) where
  lanes : List (Lane ℓ)
  queue : List ℓ
  hands : List (Option ℓ)
  /-- The items delivered, in order. -/
  done : List ℓ
  lost : List ℓ
  /-- The items posted, in order. -/
  posted : List ℓ

namespace Pipeline

variable {ℓ : Type}

/-- The labels of the machine. -/
inductive Label (ℓ : Type) where
  | openLane
  | addHand
  | post (k : Nat) (l : ℓ)
  | load (k : Nat)
  | unload (k : Nat)
  | pick (i : Nat)
  | deliver (i : Nat)
  | lose (i : Nat)

/-- Nothing is in the pipeline. -/
def empty : Pipeline ℓ :=
  { lanes := [], queue := [], hands := [], done := [], lost := [], posted := [] }

/-- The steps of a pipeline. -/
inductive Step : Pipeline ℓ → Label ℓ → Pipeline ℓ → Prop where
  | openLane (p : Pipeline ℓ) :
      Step p .openLane { p with lanes := p.lanes ++ [⟨[], none⟩] }
  | addHand (p : Pipeline ℓ) :
      Step p .addHand { p with hands := p.hands ++ [none] }
  | post {p : Pipeline ℓ} {k : Nat} {lane : Lane ℓ} (l : ℓ)
      (hk : p.lanes[k]? = some lane) :
      Step p (.post k l) { p with
        lanes := p.lanes.set k { lane with chan := lane.chan ++ [l] }
        posted := p.posted ++ [l] }
  | load {p : Pipeline ℓ} {k : Nat} {l : ℓ} {rest : List ℓ}
      (hk : p.lanes[k]? = some ⟨l :: rest, none⟩) :
      Step p (.load k) { p with lanes := p.lanes.set k ⟨rest, some l⟩ }
  | unload {p : Pipeline ℓ} {k : Nat} {l : ℓ} {chan : List ℓ}
      (hk : p.lanes[k]? = some ⟨chan, some l⟩) :
      Step p (.unload k) { p with
        lanes := p.lanes.set k ⟨chan, none⟩
        queue := p.queue ++ [l] }
  | pick {p : Pipeline ℓ} {i : Nat} {l : ℓ} {rest : List ℓ}
      (hi : p.hands[i]? = some none) (hq : p.queue = l :: rest) :
      Step p (.pick i) { p with
        hands := p.hands.set i (some l)
        queue := rest }
  | deliver {p : Pipeline ℓ} {i : Nat} {l : ℓ}
      (hi : p.hands[i]? = some (some l)) :
      Step p (.deliver i) { p with
        hands := p.hands.set i none
        done := p.done ++ [l] }
  | lose {p : Pipeline ℓ} {i : Nat} {l : ℓ}
      (hi : p.hands[i]? = some (some l)) :
      Step p (.lose i) { p with
        hands := p.hands.set i none
        lost := p.lost ++ [l] }

/-- The pipeline as a machine. -/
def machine (ℓ : Type) : Machine (Pipeline ℓ) (Label ℓ) where
  start p := p = empty
  step := Step

/-! ## Conservation -/

/-- The items that are still inside, with multiplicity. -/
def inside (p : Pipeline ℓ) : Multiset ℓ :=
  (p.lanes.map fun lane => (lane.items : Multiset ℓ)).sum + (p.queue : Multiset ℓ) +
    (p.hands.map fun h => (h.toList : Multiset ℓ)).sum

/-- Nothing is lost from sight and nothing appears twice. -/
def Conserved (p : Pipeline ℓ) : Prop :=
  p.inside + p.done + p.lost = (p.posted : Multiset ℓ)

theorem Step.conserved {p p' : Pipeline ℓ} {b : Label ℓ} (h : Step p b p')
    (hp : p.Conserved) : p'.Conserved := by
  have hcons : ∀ (l : ℓ) (xs : List ℓ),
      ((l :: xs : List ℓ) : Multiset ℓ) = {l} + (xs : Multiset ℓ) :=
    fun l xs => by simp
  have hsnoc : ∀ (l : ℓ) (xs : List ℓ),
      ((xs ++ [l] : List ℓ) : Multiset ℓ) = (xs : Multiset ℓ) + {l} :=
    fun l xs => by rw [← Multiset.coe_add, Multiset.coe_singleton]
  cases h with
  | openLane =>
    simpa [Conserved, inside, Lane.items] using hp
  | addHand =>
    simpa [Conserved, inside] using hp
  | post l hk =>
    obtain ⟨rest, h1, h2⟩ :=
      exists_sum_map_set (fun lane : Lane ℓ => (lane.items : Multiset ℓ)) hk
    simp only [Conserved, inside, h1, h2, hsnoc] at hp ⊢
    rw [← hp]
    simp only [Lane.items, ← List.append_assoc, hsnoc]
    abel
  | @load k l tail hk =>
    obtain ⟨rest, h1, h2⟩ :=
      exists_sum_map_set (fun lane : Lane ℓ => (lane.items : Multiset ℓ)) hk
    simp only [Conserved, inside, h1, h2] at hp ⊢
    rw [← hp]
    simp [Lane.items]
  | @unload k l chan hk =>
    obtain ⟨rest, h1, h2⟩ :=
      exists_sum_map_set (fun lane : Lane ℓ => (lane.items : Multiset ℓ)) hk
    simp only [Conserved, inside, h1, h2, hsnoc] at hp ⊢
    rw [← hp]
    simp only [Lane.items, Option.toList_some, Option.toList_none,
      List.singleton_append, List.nil_append, hcons]
    abel
  | @pick i l tail hi hq =>
    obtain ⟨rest, h1, h2⟩ :=
      exists_sum_map_set (fun h : Option ℓ => (h.toList : Multiset ℓ)) hi
    simp only [Conserved, inside, h1, h2, hq, hcons] at hp ⊢
    rw [← hp]
    simp only [Option.toList_some, Option.toList_none, Multiset.coe_singleton,
      Multiset.coe_nil]
    abel
  | @deliver i l hi | @lose i l hi =>
    obtain ⟨rest, h1, h2⟩ :=
      exists_sum_map_set (fun h : Option ℓ => (h.toList : Multiset ℓ)) hi
    simp only [Conserved, inside, h1, h2, hsnoc] at hp ⊢
    rw [← hp]
    simp only [Option.toList_some, Option.toList_none, Multiset.coe_singleton,
      Multiset.coe_nil]
    abel

/-- The items inside, delivered and lost are exactly the items posted. -/
theorem conserved {ok : Pipeline ℓ → Label ℓ → Prop} {p : Pipeline ℓ}
    (h : (machine ℓ).Reach ok p) : p.Conserved := by
  refine Machine.Reach.invariant ?_ ?_ h
  · rintro p rfl
    simp [Conserved, inside, empty]
  · intro p b p' _ hp _ hstep
    exact Step.conserved hstep hp

theorem sum_map_coe {α : Type} (f : α → List ℓ) (xs : List α) :
    (xs.map fun x => (f x : Multiset ℓ)).sum = (xs.flatMap f : List ℓ) := by
  induction xs with
  | nil => rfl
  | cons x xs ih =>
    rw [List.map_cons, List.sum_cons, ih, List.flatMap_cons,
      Multiset.coe_add]

/-- The same as a permutation of lists. -/
theorem Conserved.perm {p : Pipeline ℓ} (h : p.Conserved) :
    (p.lanes.flatMap Lane.items ++ p.queue ++ p.hands.flatMap Option.toList ++
      p.done ++ p.lost).Perm p.posted := by
  rw [Conserved, inside, sum_map_coe, sum_map_coe] at h
  simp only [Multiset.coe_add] at h
  exact Multiset.coe_eq_coe.mp h

/-- If every item is ranked by the number of items posted before it, the rank
of an item is its place in the list of items posted. -/
theorem rank_posted {rank : ℓ → Nat} {p : Pipeline ℓ}
    (h : (machine ℓ).Reach (fun p b => ∀ k l, b = .post k l →
      rank l = p.posted.length) p) :
    ∀ n l, p.posted[n]? = some l → rank l = n := by
  refine Machine.Reach.invariant
    (I := fun p => ∀ n l, p.posted[n]? = some l → rank l = n) ?_ ?_ h
  · rintro p rfl n l hl
    simp [empty] at hl
  · intro p b p' _ hp hok hstep n l hl
    cases hstep with
    | @post k _ l' hk =>
      rcases Nat.lt_trichotomy n p.posted.length with hlt | rfl | hgt
      · rw [List.getElem?_append_left hlt] at hl
        exact hp n l hl
      · rw [List.getElem?_concat_length, Option.some.injEq] at hl
        exact hl ▸ hok k l' rfl
      · rw [List.getElem?_eq_none (by simp; omega)] at hl
        simp at hl
    | _ => exact hp n l hl

/-! ## Order -/

/-- The items of lane `k`, oldest first. -/
def laneAt (p : Pipeline ℓ) (k : Nat) : List ℓ :=
  match p.lanes[k]? with
  | some lane => lane.items
  | none => []

/-- The item in hand `i`, if any. -/
def handAt (p : Pipeline ℓ) (i : Nat) : List ℓ :=
  match p.hands[i]? with
  | some h => h.toList
  | none => []

/-- What hand `i` and lane `k` see of the pipeline, the furthest item first. -/
def view (p : Pipeline ℓ) (i k : Nat) : List ℓ :=
  p.done ++ p.handAt i ++ p.queue ++ p.laneAt k

theorem laneAt_eq {p : Pipeline ℓ} {k : Nat} {lane : Lane ℓ}
    (hk : p.lanes[k]? = some lane) : p.laneAt k = lane.items := by
  simp [laneAt, hk]

theorem handAt_eq {p : Pipeline ℓ} {i : Nat} {h : Option ℓ}
    (hi : p.hands[i]? = some h) : p.handAt i = h.toList := by
  simp [handAt, hi]

/-- Changing lane `k` changes `laneAt` at `k` only. -/
theorem laneAt_set {p q : Pipeline ℓ} {k : Nat} {lane lane' : Lane ℓ}
    (hk : p.lanes[k]? = some lane) (hq : q.lanes = p.lanes.set k lane')
    (k' : Nat) : q.laneAt k' = if k' = k then lane'.items else p.laneAt k' := by
  have hlt : k < p.lanes.length := (List.getElem?_eq_some_iff.mp hk).1
  unfold laneAt
  rw [hq, List.getElem?_set]
  by_cases h : k' = k
  · subst h
    simp [hlt]
  · simp [h, Ne.symm h]

/-- Changing hand `i` changes `handAt` at `i` only. -/
theorem handAt_set {p q : Pipeline ℓ} {i : Nat} {h h' : Option ℓ}
    (hi : p.hands[i]? = some h) (hq : q.hands = p.hands.set i h')
    (j : Nat) : q.handAt j = if j = i then h'.toList else p.handAt j := by
  have hlt : i < p.hands.length := (List.getElem?_eq_some_iff.mp hi).1
  unfold handAt
  rw [hq, List.getElem?_set]
  by_cases h : j = i
  · subst h
    simp [hlt]
  · simp [h, Ne.symm h]

theorem laneAt_openLane (p : Pipeline ℓ) (k : Nat) :
    Pipeline.laneAt { p with lanes := p.lanes ++ [⟨[], none⟩] } k =
      p.laneAt k := by
  unfold laneAt
  rcases Nat.lt_or_ge k p.lanes.length with hlt | hge
  · simp [List.getElem?_append_left hlt]
  · rw [List.getElem?_append_right hge, List.getElem?_eq_none hge]
    cases k - p.lanes.length <;> simp [Lane.items]

theorem handAt_addHand (p : Pipeline ℓ) (i : Nat) :
    Pipeline.handAt { p with hands := p.hands ++ [none] } i = p.handAt i := by
  unfold handAt
  rcases Nat.lt_or_ge i p.hands.length with hlt | hge
  · simp [List.getElem?_append_left hlt]
  · rw [List.getElem?_append_right hge, List.getElem?_eq_none hge]
    cases i - p.hands.length <;> simp

section Order

variable {κ : Type} (cls : ℓ → κ) (rank : ℓ → Nat)

/-- If the two items are of one class, `x` is the earlier. -/
def Earlier (x y : ℓ) : Prop := cls x = cls y → rank x < rank y

/-- The steps in which no item overtakes an earlier one of its class.  Items
are ranked as they are posted; a carrier puts an item into the queue while no
other lane has an earlier one; a hand delivers an item while no other hand
has an earlier one. -/
def Orderly (p : Pipeline ℓ) : Label ℓ → Prop
  | .post _ l => rank l = p.posted.length
  | .unload k => ∀ l ∈ (p.laneAt k).head?, ∀ k', k' ≠ k →
      ∀ x ∈ p.laneAt k', Earlier cls rank l x
  | .deliver i => ∀ l ∈ p.handAt i, ∀ j, j ≠ i →
      ∀ x ∈ p.handAt j, Earlier cls rank l x
  | _ => True

/-- Every view of the pipeline is in order, and the next item will rank above
all of it. -/
def InLine (p : Pipeline ℓ) : Prop :=
  ∀ i k, (p.view i k).Pairwise (Earlier cls rank) ∧
    ∀ x ∈ p.view i k, rank x < p.posted.length

variable {cls rank}

/-- Three lists are in order when every two of them are. -/
theorem pairwise_append₃ {R : ℓ → ℓ → Prop} {xs ys zs : List ℓ}
    (hxy : (xs ++ ys).Pairwise R) (hxz : (xs ++ zs).Pairwise R)
    (hyz : (ys ++ zs).Pairwise R) : (xs ++ ys ++ zs).Pairwise R := by
  rw [List.append_assoc, List.pairwise_append]
  refine ⟨(List.pairwise_append.mp hxy).1, hyz, fun x hx y hy => ?_⟩
  rcases List.mem_append.mp hy with hy | hy
  · exact (List.pairwise_append.mp hxy).2.2 x hx y hy
  · exact (List.pairwise_append.mp hxz).2.2 x hx y hy

/-- A pipeline whose views only lost items is in line. -/
theorem InLine.sublist {p p' : Pipeline ℓ} (h : InLine cls rank p)
    (hposted : p'.posted = p.posted)
    (hsub : ∀ i k, (p'.view i k).Sublist (p.view i k)) :
    InLine cls rank p' := by
  intro i k
  rw [hposted]
  exact ⟨(h i k).1.sublist (hsub i k),
    fun x hx => (h i k).2 x ((hsub i k).subset hx)⟩

/-- The new item ranks above everything that any view shows. -/
theorem InLine.post {p : Pipeline ℓ} (h : InLine cls rank p) {k : Nat}
    {lane : Lane ℓ} {l : ℓ} (hk : p.lanes[k]? = some lane)
    (hok : Orderly cls rank p (.post k l)) :
    InLine cls rank { p with
      lanes := p.lanes.set k { lane with chan := lane.chan ++ [l] }
      posted := p.posted ++ [l] } := by
  intro i k'
  have hset := laneAt_set (q := { p with
    lanes := p.lanes.set k { lane with chan := lane.chan ++ [l] }
    posted := p.posted ++ [l] }) hk rfl k'
  obtain ⟨hpair, hrank⟩ := h i k'
  have hlt : ∀ x ∈ p.view i k', rank x < (p.posted ++ [l]).length := by
    intro x hx
    have hx' := hrank x hx
    simp
    omega
  unfold view at *
  rw [hset]
  split
  · rename_i hkk
    subst hkk
    have hitems : Lane.items { lane with chan := lane.chan ++ [l] } =
        p.laneAt k' ++ [l] := by
      simp [laneAt_eq hk, Lane.items]
    rw [hitems, ← List.append_assoc]
    refine ⟨List.pairwise_append.mpr ⟨hpair, by simp, ?_⟩, ?_⟩
    · intro x hx y hy _
      rw [List.mem_singleton.mp hy, hok]
      exact hrank x hx
    · intro x hx
      rcases List.mem_append.mp hx with hx | hx
      · exact hlt x hx
      · rw [List.mem_singleton.mp hx, hok]
        simp
  · exact ⟨hpair, hlt⟩

/-- A carrier moves the oldest item of its lane to the end of the queue.  For
its own lane nothing changes; the other lanes have no earlier item. -/
theorem InLine.unload {p : Pipeline ℓ} (h : InLine cls rank p) {k : Nat}
    {chan : List ℓ} {l : ℓ} (hk : p.lanes[k]? = some ⟨chan, some l⟩)
    (hok : Orderly cls rank p (.unload k)) :
    InLine cls rank { p with
      lanes := p.lanes.set k ⟨chan, none⟩
      queue := p.queue ++ [l] } := by
  intro i k'
  have hset := laneAt_set (q := { p with
    lanes := p.lanes.set k ⟨chan, none⟩, queue := p.queue ++ [l] }) hk rfl k'
  have hlane : p.laneAt k = l :: chan := by simp [laneAt_eq hk, Lane.items]
  have hview : view { p with
      lanes := p.lanes.set k ⟨chan, none⟩
      queue := p.queue ++ [l] } i k' =
      p.done ++ p.handAt i ++ p.queue ++ [l] ++
        if k' = k then chan else p.laneAt k' := by
    rw [view, hset, List.append_assoc _ p.queue]
    rfl
  obtain ⟨hpair, hrank⟩ := h i k
  obtain ⟨hpair', hrank'⟩ := h i k'
  rw [hview]
  rw [view, hlane] at hpair hrank
  split
  · rw [List.append_assoc]
    exact ⟨hpair, hrank⟩
  · rename_i hne
    refine ⟨pairwise_append₃ (hpair.sublist ?_) hpair' ?_, ?_⟩
    · exact List.Sublist.append_left (by simp) _
    · refine List.pairwise_cons.mpr ⟨?_, ?_⟩
      · exact hok l (by simp [hlane]) k' hne
      · exact hpair'.sublist (List.sublist_append_right _ _)
    · intro x hx
      rcases List.mem_append.mp hx with hx | hx
      · refine hrank x ?_
        rw [← List.singleton_append, ← List.append_assoc]
        exact List.mem_append_left _ hx
      · exact hrank' x (List.mem_append_right _ hx)

/-- A hand delivers its item.  For this hand nothing changes; the other hands
have no earlier item. -/
theorem InLine.deliver {p : Pipeline ℓ} (h : InLine cls rank p) {i : Nat}
    {l : ℓ} (hi : p.hands[i]? = some (some l))
    (hok : Orderly cls rank p (.deliver i)) :
    InLine cls rank { p with
      hands := p.hands.set i none
      done := p.done ++ [l] } := by
  intro j k
  have hset := handAt_set (q := { p with
    hands := p.hands.set i none, done := p.done ++ [l] }) hi rfl j
  have hhand : p.handAt i = [l] := by simp [handAt_eq hi]
  have hview : view { p with
      hands := p.hands.set i none
      done := p.done ++ [l] } j k =
      p.done ++ [l] ++ ((if j = i then [] else p.handAt j) ++
        (p.queue ++ p.laneAt k)) := by
    rw [view, hset]
    simp only [List.append_assoc, Option.toList_none]
    rfl
  obtain ⟨hpair, hrank⟩ := h i k
  obtain ⟨hpair', hrank'⟩ := h j k
  rw [hview]
  rw [view, hhand] at hpair hrank
  rw [view] at hpair' hrank'
  simp only [List.append_assoc] at hpair hpair' hrank hrank'
  split
  · simp only [List.nil_append, List.append_assoc]
    exact ⟨hpair, hrank⟩
  · rename_i hne
    refine ⟨pairwise_append₃ (hpair.sublist ?_) hpair' ?_, ?_⟩
    · exact List.Sublist.append_left (by simp) _
    · rw [List.singleton_append]
      refine List.pairwise_cons.mpr ⟨fun x hx => ?_, ?_⟩
      · rcases List.mem_append.mp hx with hx | hx
        · exact hok l (by simp [hhand]) j hne x hx
        · exact List.rel_of_pairwise_cons (List.pairwise_append.mp hpair).2.1 hx
      · exact hpair'.sublist (List.sublist_append_right _ _)
    · intro x hx
      rcases List.mem_append.mp hx with hx | hx
      · refine hrank x ?_
        rw [← List.append_assoc]
        exact List.mem_append_left _ hx
      · exact hrank' x (List.mem_append_right _ hx)

/-- No step in which nothing overtakes breaks the order. -/
theorem Step.inLine {p p' : Pipeline ℓ} {b : Label ℓ} (hstep : Step p b p')
    (hok : Orderly cls rank p b) (h : InLine cls rank p) :
    InLine cls rank p' := by
  cases hstep with
  | openLane =>
    refine h.sublist rfl fun i k => ?_
    simp only [view, laneAt_openLane]
    exact List.Sublist.refl _
  | addHand =>
    refine h.sublist rfl fun i k => ?_
    simp only [view, handAt_addHand]
    exact List.Sublist.refl _
  | post l hk => exact h.post hk hok
  | @load k l rest hk =>
    refine h.sublist rfl fun i k' => ?_
    have hset := laneAt_set (q := { p with
      lanes := p.lanes.set k ⟨rest, some l⟩ }) hk rfl k'
    unfold view
    rw [hset]
    split
    · rename_i hkk
      subst hkk
      rw [laneAt_eq hk]
      exact List.Sublist.refl _
    · exact List.Sublist.refl _
  | unload hk => exact h.unload hk hok
  | @pick i l rest hi hq =>
    refine h.sublist rfl fun j k => ?_
    have hset := handAt_set (q := { p with
      hands := p.hands.set i (some l), queue := rest }) hi rfl j
    unfold view
    rw [hset]
    split
    · rename_i hji
      subst hji
      have hhand : p.handAt j = [] := by simp [handAt_eq hi]
      rw [hhand, hq, List.append_nil, List.append_cons p.done]
      exact List.Sublist.refl _
    · rw [hq]
      exact ((List.Sublist.refl _).append (List.sublist_cons_self l rest)).append
        (List.Sublist.refl _)
  | deliver hi => exact h.deliver hi hok
  | @lose i l hi =>
    refine h.sublist rfl fun j k => ?_
    have hset := handAt_set (q := { p with
      hands := p.hands.set i none, lost := p.lost ++ [l] }) hi rfl j
    unfold view
    rw [hset]
    split
    · rw [Option.toList_none, List.append_nil]
      exact (((List.sublist_append_left _ _).append
        (List.Sublist.refl _)).append (List.Sublist.refl _))
    · exact List.Sublist.refl _

/-- In a run in which nothing overtakes, the items of each class are delivered
in the order posted. -/
theorem ordered {p : Pipeline ℓ}
    (h : (machine ℓ).Reach (Orderly cls rank) p) :
    p.done.Pairwise (Earlier cls rank) := by
  have hline : InLine cls rank p := by
    refine Machine.Reach.invariant ?_ ?_ h
    · rintro p rfl i k
      simp [view, laneAt, handAt, empty]
    · intro p b p' _ hp hok hstep
      exact Step.inLine hstep hok hp
  have hview := (hline 0 0).1
  simp only [view, List.append_assoc] at hview
  exact hview.sublist (List.sublist_append_left _ _)

end Order

end Pipeline

end Concur
