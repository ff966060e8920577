import Actors.Manager.Starts

/-!
# The books of a manager

The manager keeps its actors in several collections: the runtimes that are not
started yet, the join handles, the references for `shutdown`, and two maps from
names to references.  `bookkept` says that over every run they agree with the
calls that were made.

* `Counted` counts the steps of a run that send `Start` to an actor or spawn its
  thread.  Both happen once, when `init` has come to the actor.
* `Registered` reads the runtimes and the names off the list of calls.
* `Lived` ties the place of each thread to the phase of its actor.
-/

namespace Actors

open Concur

variable {μ : Type}

/-- The name under which a call registers an actor, if it does. -/
def ManagerCall.managed : ManagerCall → Option String
  | .manage name => some name
  | _ => none

/-- The names that were registered, in order: actor `k` has the `k`-th. -/
def managedNames (calls : List ManagerCall) : List String :=
  calls.filterMap ManagerCall.managed

/-- `init` was called after the `k`-th call of `manage`. -/
def InitLater (calls : List ManagerCall) (k : Nat) : Prop :=
  ∃ l r, calls = l ++ .init :: r ∧ k < (managedNames l).length

/-- The last actor registered under the name is `k`. -/
def Latest (names : List String) (name : String) (k : Nat) : Prop :=
  names[k]? = some name ∧ ∀ j, k < j → names[j]? ≠ some name

namespace Manager

/-- The step sends `Start` to actor `k`. -/
def startsActor (k : Nat) (e : Manager μ × ManagerAction μ) : Bool :=
  match e.2, e.1.main with
  | .main, .initSend (j :: _) => j = k
  | _, _ => false

/-- The step spawns the thread of actor `k`. -/
def spawnsActor (k : Nat) (e : Manager μ × ManagerAction μ) : Bool :=
  match e.2, e.1.main with
  | .main, .initSpawn j _ => j = k
  | _, _ => false

/-! ## Every actor is started once -/

/-- Counting the events that take the elements of a list of tickets away, one
event for each ticket: an event adds a ticket, takes one, or does neither. -/
theorem count_ticket {α : Type} {p : Nat → α → Bool} {tr : List α} {e : α}
    {W W' : List Nat} {n n' : Nat}
    (hcount : ∀ k, tr.countP (p k) = if k < n ∧ k ∉ W then 1 else 0)
    (hbound : ∀ k ∈ W, k < n) (hnodup : W.Nodup)
    (hstep : (W' = W ∧ n' = n ∧ ∀ k, p k e = false) ∨
      (W' = W ++ [n] ∧ n' = n + 1 ∧ ∀ k, p k e = false) ∨
      ∃ l j r, W = l ++ j :: r ∧ W' = l ++ r ∧ n' = n ∧
        ∀ k, p k e = decide (j = k)) :
    ∀ k, (tr ++ [e]).countP (p k) = if k < n' ∧ k ∉ W' then 1 else 0 := by
  intro k
  rw [List.countP_append, hcount, List.countP_singleton]
  rcases hstep with ⟨rfl, rfl, hp⟩ | ⟨rfl, rfl, hp⟩ | ⟨l, j, r, rfl, rfl, rfl, hp⟩
  · simp [hp]
  · rw [hp]
    by_cases hk : k ∈ W
    · simp [hk]
    · have hiff : k < n ↔ k < n + 1 ∧ k ≠ n := by omega
      simp [hk, hiff]
  · have hout : j ∉ l ++ r :=
      (List.nodup_cons.mp (List.perm_middle.nodup_iff.mp hnodup)).1
    rw [hp]
    by_cases hjk : j = k
    · subst hjk
      have hlt : j < n' := hbound j (by simp)
      rw [List.mem_append, not_or] at hout
      simp [hlt, hout]
    · simp [hjk, Ne.symm hjk]

/-- The actors that have no thread yet. -/
def unstarted (s : Manager μ) : List Nat := s.runtimes ++ s.main.starting

/-- How a step changes who has no thread: `manage` adds an actor, and
`spawn_with_config` takes one. -/
theorem unstarted_of_step {s s' : Manager μ} {b : ManagerAction μ}
    (hstep : s.step b = some s') :
    (s'.unstarted = s.unstarted ∧ (∀ name, b ≠ .manage name) ∧
        (b = .main → ∀ k todo, s.main ≠ .initSpawn k todo)) ∨
      (∃ name, b = .manage name ∧
        s'.unstarted = s.unstarted ++ [s.actors.length]) ∨
      ∃ k todo, s.main = .initSpawn k todo ∧ b = .main ∧
        s.unstarted = s.runtimes ++ k :: todo ∧
        s'.unstarted = s.runtimes ++ todo := by
  cases move_of_step hstep with
  | manage name hidle =>
    refine Or.inr (Or.inl ⟨name, rfl, ?_⟩)
    simp [unstarted, hidle, ManagerPc.starting]
  | spawn k todo hmain =>
    refine Or.inr (Or.inr ⟨k, todo, hmain, rfl, ?_, ?_⟩)
    · simp [unstarted, hmain, ManagerPc.starting]
    · simp [unstarted, ManagerPc.starting]
  | init hmain | run hmain | shutdown hmain | wait hmain | endCall hmain
  | sendStart k todo a hmain | startRefused k todo a hmain | initDone hmain
  | runDone hmain | sendShutdown k todo inEnd a hmain
  | shutdownRefused k todo inEnd a hmain | shutdownThenWait hmain
  | shutdownDone hmain | join k todo inEnd a hmain | joined inEnd hmain
  | runSleep hmain =>
    left
    simp [unstarted, posted, hmain, ManagerPc.starting]
  | refused _ k a hb =>
    obtain ⟨t, msg, sender, rfl | rfl⟩ := hb <;> exact Or.inl ⟨rfl, by simp⟩
  | actor _ k a a' events hb =>
    rcases hb with rfl | rfl <;> exact Or.inl ⟨rfl, by simp⟩
  | _ => exact Or.inl ⟨rfl, by simp⟩

theorem startsActor_eq_false {s : Manager μ} {b : ManagerAction μ}
    (h : b = .main → ∀ j todo, s.main ≠ .initSend (j :: todo)) (k : Nat) :
    startsActor k (s, b) = false := by
  unfold startsActor
  split
  · rename_i j todo hb hmain
    exact absurd hmain (h hb j todo)
  · rfl

theorem spawnsActor_eq_false {s : Manager μ} {b : ManagerAction μ}
    (h : b = .main → ∀ j todo, s.main ≠ .initSpawn j todo) (k : Nat) :
    spawnsActor k (s, b) = false := by
  unfold spawnsActor
  split
  · rename_i j todo hb hmain
    exact absurd hmain (h hb j todo)
  · rfl

/-- `Start` was sent once to each actor that does not wait for it, and a thread
was spawned once for each actor that has one. -/
structure Counted (tr : List (Manager μ × ManagerAction μ)) (s : Manager μ) :
    Prop where
  starts : ∀ k, tr.countP (startsActor k) =
    if k < s.actors.length ∧ k ∉ s.waiting then 1 else 0
  spawns : ∀ k, tr.countP (spawnsActor k) =
    if k < s.actors.length ∧ k ∉ s.unstarted then 1 else 0

theorem counted_step {tr : List (Manager μ × ManagerAction μ)} {s s' : Manager μ}
    {b : ManagerAction μ} (howned : s.Owned) (hstep : s.step b = some s')
    (h : Counted tr s) : Counted (tr ++ [(s, b)]) s' := by
  have hbound : ∀ k ∈ s.unstarted, k < s.actors.length := by
    intro k hk
    have hlt := howned.bound k (List.mem_append_left _ hk)
    simpa [pcs] using hlt
  have hlen := length_of_step hstep
  refine ⟨?_, ?_⟩
  · refine count_ticket h.starts (fun k hk => hbound k (mem_of_waiting hk))
      (nodup_waiting howned) ?_
    rcases waiting_of_step howned hstep with
      ⟨heq, hno, hmain⟩ | ⟨name, rfl, heq⟩ | ⟨k, todo, hmain, rfl, heq, heq', -⟩
    · exact Or.inl ⟨heq, (hlen.resolve_left (by simp [hno])).2,
        startsActor_eq_false hmain⟩
    · exact Or.inr (Or.inl ⟨heq, (hlen.resolve_right (by simp)).choose_spec.2,
        startsActor_eq_false (by simp)⟩)
    · refine Or.inr (Or.inr ⟨s.runtimes, k, todo, heq, heq',
        (hlen.resolve_left (by simp)).2, fun j => ?_⟩)
      simp [startsActor, hmain]
  · refine count_ticket h.spawns hbound howned.distinct.of_append_left ?_
    rcases unstarted_of_step hstep with
      ⟨heq, hno, hmain⟩ | ⟨name, rfl, heq⟩ | ⟨k, todo, hmain, rfl, heq, heq'⟩
    · exact Or.inl ⟨heq, (hlen.resolve_left (by simp [hno])).2,
        spawnsActor_eq_false hmain⟩
    · exact Or.inr (Or.inl ⟨heq, (hlen.resolve_right (by simp)).choose_spec.2,
        spawnsActor_eq_false (by simp)⟩)
    · refine Or.inr (Or.inr ⟨s.runtimes, k, todo, heq, heq',
        (hlen.resolve_left (by simp)).2, fun j => ?_⟩)
      simp [spawnsActor, hmain]

/-- In every run each actor gets its `Start` and its thread once, when `init`
has come to it. -/
theorem counted {ok : Manager μ → ManagerAction μ → Prop}
    {tr : List (Manager μ × ManagerAction μ)} {s : Manager μ}
    (h : (machine μ).Run ok tr s) : Counted tr s := by
  refine Machine.Run.invariant ?_ ?_ h
  · rintro s rfl
    exact ⟨by simp [new], by simp [new]⟩
  · intro tr s b s' hreach hs _ hstep
    exact counted_step (owned hreach) hstep hs

/-! ## Calls, runtimes and names -/

theorem initLater_concat {calls : List ManagerCall} {c : ManagerCall} {k : Nat} :
    InitLater (calls ++ [c]) k ↔
      InitLater calls k ∨ c = .init ∧ k < (managedNames calls).length := by
  constructor
  · rintro ⟨l, r, heq, hk⟩
    rcases List.eq_nil_or_concat r with rfl | ⟨r', c', rfl⟩
    · obtain ⟨rfl, hc⟩ := List.append_inj' heq rfl
      exact Or.inr ⟨by simpa using hc, hk⟩
    · rw [List.concat_eq_append, ← List.cons_append, ← List.append_assoc] at heq
      exact Or.inl ⟨l, r', (List.append_inj' heq rfl).1, hk⟩
  · rintro (⟨l, r, rfl, hk⟩ | ⟨rfl, hk⟩)
    · exact ⟨l, r ++ [c], by simp, hk⟩
    · exact ⟨calls, [], rfl, hk⟩

theorem lt_of_initLater {calls : List ManagerCall} {k : Nat}
    (h : InitLater calls k) : k < (managedNames calls).length := by
  obtain ⟨l, r, rfl, hk⟩ := h
  rw [managedNames, List.filterMap_append, List.length_append]
  exact Nat.lt_of_lt_of_le hk (Nat.le_add_right _ _)

theorem latest_concat {names : List String} {name name' : String} {k : Nat} :
    Latest (names ++ [name']) name k ↔
      if name = name' then k = names.length else Latest names name k := by
  have hget : ∀ j, (names ++ [name'])[j]? = some name ↔
      names[j]? = some name ∨ j = names.length ∧ name = name' := by
    intro j
    rcases Nat.lt_trichotomy j names.length with hlt | rfl | hgt
    · rw [List.getElem?_append_left hlt]
      simp [Nat.ne_of_lt hlt]
    · simp [eq_comm]
    · rw [List.getElem?_eq_none (by simp; omega)]
      simp [List.getElem?_eq_none (Nat.le_of_lt hgt), Nat.ne_of_gt hgt]
  unfold Latest
  simp only [hget, ne_eq]
  split
  · rename_i heq
    subst heq
    constructor
    · rintro ⟨hk | ⟨hk, -⟩, hlast⟩
      · have hlt := (List.getElem?_eq_some_iff.mp hk).1
        exact absurd (Or.inr ⟨rfl, rfl⟩) (hlast _ hlt)
      · exact hk
    · rintro rfl
      refine ⟨Or.inr ⟨rfl, rfl⟩, fun j hj => ?_⟩
      rw [List.getElem?_eq_none (Nat.le_of_lt hj)]
      simp [Nat.ne_of_gt hj]
  · rename_i hne
    simp [hne]

/-- The runtimes and the names are what the calls say. -/
structure Registered (s : Manager μ) : Prop where
  names : s.actors.map Runtime.name = managedNames s.calls
  runtimes : ∀ k, k ∈ s.runtimes ↔
    k < (managedNames s.calls).length ∧ ¬ InitLater s.calls k
  lookup : ∀ name k, s.expandedRegistry.lookup name = some k ↔
    Latest (managedNames s.calls) name k

theorem name_of_change {s : Manager μ} {b : ManagerAction μ} {k : Nat}
    {a a' : Runtime μ} (h : Runtime.Change s b k a a') : a'.name = a.name := by
  cases h with
  | run _ events hb hcode hmove => cases hmove <;> rfl
  | _ => rfl

theorem names_of_step {s s' : Manager μ} {b : ManagerAction μ}
    (hstep : s.step b = some s') (hno : ∀ name, b ≠ .manage name) :
    s'.actors.map Runtime.name = s.actors.map Runtime.name := by
  have hlen := ((length_of_step hstep).resolve_left (by simp [hno])).2
  refine List.ext_getElem? fun k => ?_
  rw [List.getElem?_map, List.getElem?_map]
  cases ha : s.actors[k]? with
  | none =>
    rw [List.getElem?_eq_none_iff, ← hlen, ← List.getElem?_eq_none_iff] at ha
    rw [ha]
  | some a =>
    obtain ⟨a', ha', hchange⟩ := exists_change hstep ha
    simp [ha', name_of_change hchange]

/-- A call that is neither `manage` nor `init` changes none of the books. -/
theorem Registered.call {s s' : Manager μ} (h : s.Registered) {c : ManagerCall}
    (hnames : s'.actors.map Runtime.name = s.actors.map Runtime.name)
    (hcalls : s'.calls = s.calls ++ [c]) (hmanage : c.managed = none)
    (hinit : c ≠ .init) (hruntimes : s'.runtimes = s.runtimes)
    (hlookup : s'.expandedRegistry = s.expandedRegistry) : s'.Registered := by
  have hsame : managedNames s'.calls = managedNames s.calls := by
    simp [hcalls, managedNames, hmanage]
  refine ⟨?_, fun k => ?_, ?_⟩
  · rw [hnames, hsame]
    exact h.names
  · rw [hruntimes, hsame, hcalls, initLater_concat, h.runtimes]
    simp [hinit]
  · rw [hlookup, hsame]
    exact h.lookup

theorem registered_step {s s' : Manager μ} {b : ManagerAction μ}
    (hstep : s.step b = some s') (h : s.Registered) : s'.Registered := by
  have hnames := names_of_step hstep
  have hlen : s.actors.length = (managedNames s.calls).length := by
    rw [← h.names, List.length_map]
  cases move_of_step hstep with
  | manage name hidle =>
    have hcalls : managedNames (s.calls ++ [.manage name]) =
        managedNames s.calls ++ [name] := by
      simp [managedNames, ManagerCall.managed]
    refine ⟨?_, fun k => ?_, fun name' k => ?_⟩
    · rw [List.map_append, map_unregistered Runtime.name fun _ => rfl, h.names,
        hcalls]
      rfl
    · rw [initLater_concat, hcalls, List.mem_append, h.runtimes,
        List.mem_singleton, hlen, List.length_append, List.length_singleton]
      have hlt : InitLater s.calls k → k < (managedNames s.calls).length := lt_of_initLater
      simp only [reduceCtorEq, false_and, or_false]
      constructor
      · rintro (⟨hk, hno⟩ | rfl)
        · exact ⟨Nat.lt_succ_of_lt hk, hno⟩
        · exact ⟨Nat.lt_succ_self _, fun hin => Nat.lt_irrefl _ (hlt hin)⟩
      · rintro ⟨hk, hno⟩
        exact (Nat.lt_succ_iff_lt_or_eq.mp hk).imp (⟨·, hno⟩) id
    · rw [hcalls, latest_concat, ← hlen]
      split
      · rename_i heq
        rw [heq, AList.lookup_insert, Option.some.injEq, eq_comm]
      · rename_i hne
        rw [AList.lookup_insert_ne hne]
        exact h.lookup name' k
  | init hidle =>
    have hcalls : managedNames (s.calls ++ [.init]) = managedNames s.calls := by
      simp [managedNames, ManagerCall.managed]
    refine ⟨?_, fun k => ?_, ?_⟩
    · rw [hcalls]
      exact h.names
    · rw [initLater_concat, hcalls]
      exact ⟨by simp, fun ⟨hk, hno⟩ => absurd (Or.inr ⟨rfl, hk⟩) hno⟩
    · rw [hcalls]
      exact h.lookup
  | shutdown hidle | wait hidle | endCall hidle =>
    exact h.call (hnames (by simp)) rfl rfl (by simp) rfl rfl
  | actor _ k a a' events hb =>
    have hno : ∀ name, b ≠ .manage name := by
      rcases hb with rfl | rfl <;> simp
    exact { h with names := (hnames hno).trans h.names }
  | refused _ k a hb => exact h
  | _ => exact { h with names := (hnames (by simp)).trans h.names }

/-- The books agree with the calls, in every state of every run. -/
theorem registered {ok : Manager μ → ManagerAction μ → Prop} {s : Manager μ}
    (h : (machine μ).Reach ok s) : s.Registered := by
  refine Machine.Reach.invariant ?_ ?_ h
  · rintro s rfl
    exact ⟨by simp [new, managedNames], by simp [new, managedNames],
      by simp [new, managedNames, Latest]⟩
  · intro s b s' _ hs _ hstep
    exact registered_step hstep hs

/-! ## The life of an actor -/

/-- The phases of an actor whose thread stands at the given place. -/
def Lives : RuntimePc μ → Phase → Prop
  | .parked, p | .spawned, p => p = .fresh
  | .initHook, p => p = .initing
  | .check, p | .recv, p => p = .ready
  | .process _, p => p = .processing
  | .endHook, p => p = .ending
  | .exited, p => p = .ended
  | .panicked, p => p ≠ .violated

/-- The place of every thread agrees with the phase of its actor. -/
structure Lived (s : Manager μ) : Prop where
  place : ∀ (k : Nat) (a : Runtime μ), s.actors[k]? = some a →
    Lives a.pc (phaseOf s.history k)
  unborn : ∀ k, s.actors.length ≤ k → phaseOf s.history k = .fresh

/-- The thread of an actor goes through the phases in order. -/
theorem lives_move {k : Nat} {a a' : Runtime μ} {events : List LifeEvent}
    (hmove : Runtime.Move k a a' events) {h : History}
    (hlives : Lives a.pc (phaseOf h k)) :
    Lives a'.pc (phaseOf (h ++ events.map (Prod.mk k)) k) := by
  cases hmove with
  | begin hpc | initReturn hpc | leave hpc | recv l rest hpc | closed hpc
  | processReturn l hpc | endReturn hpc =>
    rw [hpc] at hlives
    have hphase : phaseOf h k = _ := hlives
    show Lives _ (phaseOf (h ++ [(k, _)]) k)
    rw [phaseOf_append_self, hphase]
    rfl
  | goOn hpc hrun =>
    rw [hpc] at hlives
    show phaseOf (h ++ []) k = .ready
    rw [List.append_nil]
    exact hlives

/-- The events of one actor leave the phase of another. -/
theorem phaseOf_other {h : History} {k j : Nat} (hjk : k ≠ j)
    (events : List LifeEvent) :
    phaseOf (h ++ events.map (Prod.mk k)) j = phaseOf h j := by
  induction events using List.reverseRecOn with
  | nil => simp
  | append_singleton events e ih =>
    rw [List.map_append, ← List.append_assoc]
    show phaseOf (h ++ events.map (Prod.mk k) ++ [(k, e)]) j = _
    rw [phaseOf_append, if_neg hjk, ih]

theorem lived_step {s s' : Manager μ} {b : ManagerAction μ} (howned : s.Owned)
    (hstep : s.step b = some s') (h : s.Lived) : s'.Lived := by
  have hlen := length_le_of_step hstep
  -- A step that no thread of an actor takes leaves the history alone.
  have hquiet : s'.history = s.history →
      (∀ k, b ≠ .actor k ∧ b ≠ .codeReturn k) → s'.Lived := by
    intro hhist hno
    refine ⟨fun k a' ha' => ?_, fun k hk => ?_⟩
    · rw [hhist]
      rcases change_of_step hstep ha' with ⟨a, ha, hchange⟩ | ⟨_, -, hk, rfl⟩
      · have hplace := h.place k a ha
        cases hchange with
        | spawn todo hmain =>
          have hpc : a.pc = .parked :=
            (howned.parked k a.pc (by simp [pcs, ha])).mpr
              (by simp [hmain, ManagerPc.starting])
          rw [hpc] at hplace
          exact hplace
        | run _ events hb =>
          exact (hb.elim (hno k).1 (hno k).2).elim
        | panic hb hcode hfree =>
          show phaseOf s.history k ≠ .violated
          cases hpc : a.pc <;> rw [hpc] at hplace hcode <;>
            simp_all [RuntimePc.inCode, Lives]
        | _ => exact hplace
      · exact h.unborn k (Nat.le_of_eq hk.symm)
    · rw [hhist]
      exact h.unborn k (Nat.le_trans hlen hk)
  cases move_of_step hstep with
  | actor _ k a a' events hb hfree ha hrun =>
    refine ⟨fun j x hx => ?_, fun j hj => ?_⟩
    · by_cases hkj : k = j
      · subst hkj
        rw [List.getElem?_set_self (List.getElem?_eq_some_iff.mp ha).1,
          Option.some.injEq] at hx
        subst hx
        exact lives_move hrun (h.place k a ha)
      · rw [List.getElem?_set_ne hkj] at hx
        rw [phaseOf_other hkj]
        exact h.place j x hx
    · have hkj : k ≠ j := by
        rintro rfl
        have hlt := (List.getElem?_eq_some_iff.mp ha).1
        simp only [List.length_set] at hj
        omega
      rw [phaseOf_other hkj]
      exact h.unborn j (Nat.le_trans hlen hj)
  | refused _ k a hb =>
    obtain ⟨t, msg, sender, rfl | rfl⟩ := hb <;> exact hquiet rfl (by simp)
  | _ => exact hquiet rfl (by simp)

theorem lived {ok : Manager μ → ManagerAction μ → Prop} {s : Manager μ}
    (h : (machine μ).Reach ok s) : s.Lived := by
  refine Machine.Reach.invariant ?_ ?_ h
  · rintro s rfl
    exact ⟨by simp [new], fun _ _ => rfl⟩
  · intro s b s' hreach hs _ hstep
    exact lived_step (owned hreach) hstep hs

/-- No actor ever leaves the documented order of events. -/
theorem phase_ne_violated {s : Manager μ} (h : s.Lived) (k : Nat) :
    phaseOf s.history k ≠ .violated := by
  cases ha : s.actors[k]? with
  | none =>
    rw [h.unborn k (List.getElem?_eq_none_iff.mp ha)]
    simp
  | some a =>
    have hplace := h.place k a ha
    cases hpc : a.pc <;> rw [hpc] at hplace <;> simp_all [Lives]

/-! ## The books -/

/-- A mailbox forgets nothing that it accepted. -/
theorem mem_accepted_of_change {s : Manager μ} {b : ManagerAction μ} {k : Nat}
    {a a' : Runtime μ} (h : Runtime.Change s b k a a') {l : Letter μ}
    (hl : l ∈ a.accepted) : l ∈ a'.accepted := by
  cases h with
  | accept l' hlive hid hvia hfrom => exact List.mem_append_left _ hl
  | run _ events hb hcode hmove => cases hmove <;> exact hl
  | _ => exact hl

/-- Every `Start` that a run sends arrives in the mailbox of its actor. -/
theorem start_accepted {ok : Manager μ → ManagerAction μ → Prop}
    {tr : List (Manager μ × ManagerAction μ)} {s : Manager μ}
    (h : (machine μ).Run ok tr s) :
    ∀ e ∈ tr, ∀ k, startsActor k e = true → ∃ a l, s.actors[k]? = some a ∧
      l ∈ a.accepted ∧ l.id = e.1.sent.length ∧ l.author = .main ∧
        l.envelope.msg = .start := by
  refine Machine.Run.invariant (I := fun tr s => ∀ e ∈ tr, ∀ k,
    startsActor k e = true → ∃ a l, s.actors[k]? = some a ∧ l ∈ a.accepted ∧
      l.id = e.1.sent.length ∧ l.author = .main ∧ l.envelope.msg = .start) ?_ ?_ h
  · simp
  · intro tr s b s' hreach hs _ hstep e he k hk
    rcases List.mem_append.mp he with he | he
    · obtain ⟨a, l, ha, hl, hrest⟩ := hs e he k hk
      obtain ⟨a', ha', hchange⟩ := exists_change hstep ha
      exact ⟨a', l, ha', mem_accepted_of_change hchange hl, hrest⟩
    · rw [List.mem_singleton.mp he] at hk ⊢
      rcases waiting_of_step (owned hreach) hstep with
        ⟨-, -, hmain⟩ | ⟨name, rfl, -⟩ | ⟨j, todo, hmain, rfl, -, -, a, ha, ha'⟩
      · rw [startsActor_eq_false hmain] at hk
        simp at hk
      · rw [startsActor_eq_false (by simp)] at hk
        simp at hk
      · have hjk : j = k := by simpa [startsActor, hmain] using hk
        subst hjk
        exact ⟨_, _, ha', List.mem_concat_self,
          rfl, rfl, rfl⟩

/-- The bookkeeping of a manager is exact, after the run `tr`. -/
structure Bookkept (tr : List (Manager μ × ManagerAction μ)) (s : Manager μ) :
    Prop where
  /-- An actor gets one `Start` and one thread from the calls of `init` that
  came after it was registered. -/
  started : s.main.starting = [] → ∀ k, InitLater s.calls k →
    tr.countP (startsActor k) = 1 ∧ tr.countP (spawnsActor k) = 1
  not_started : ∀ k, ¬ InitLater s.calls k →
    tr.countP (startsActor k) = 0 ∧ tr.countP (spawnsActor k) = 0
  /-- Also in the middle of `init`. -/
  once : ∀ k, tr.countP (startsActor k) ≤ 1 ∧ tr.countP (spawnsActor k) ≤ 1
  accepted : ∀ e ∈ tr, ∀ k, startsActor k e = true → ∃ a l,
    s.actors[k]? = some a ∧ l ∈ a.accepted ∧ l.id = e.1.sent.length ∧
      l.author = .main ∧ l.envelope.msg = .start
  lifecycle : ∀ k, RespectsLifecycle s.history k
  /-- Nothing of an actor runs after its `end()`. -/
  afterEnd : ∀ k l r, s.history = l ++ (k, .endBegin) :: r →
    ∀ e, (k, e) ∈ r → e = .endEnd
  dispatched : ∀ (k : Nat) (a : Runtime μ), s.actors[k]? = some a →
    a.letters <+: a.accepted ∧ (a.accepted.map Letter.id).Nodup ∧
      ∀ c ∈ a.handed, c.Carries ∧ c.actor = k
  /-- What a mailbox accepted was sent through the reference of its actor. -/
  reference : ∀ (k : Nat) (a : Runtime μ), s.actors[k]? = some a →
    ∀ l ∈ a.accepted, l.via = k
  /-- A send through that reference touches no other actor. -/
  others : ∀ t k msg sender s', (s.step (.send t k msg sender) = some s' ∨
    s.step (.fastSend t k msg sender) = some s') →
      ∀ j, j ≠ k → s'.actors[j]? = s.actors[j]?
  /-- `get_ref` returns the reference of the last actor with that name. -/
  getRef : ∀ name s', s.step (.getRef name) = some s' →
    (∃ k, Latest (managedNames s.calls) name k ∧
      s'.actors = s.actors.modify k fun a =>
        { a with senders := a.senders ++ [.application] }) ∨
    name ∉ managedNames s.calls ∧ s' = s

theorem send_others {s s' : Manager μ} {t : ThreadId} {k : Nat} {msg : Message μ}
    {sender : Option ActorRef} (h : s.step (.send t k msg sender) = some s' ∨
      s.step (.fastSend t k msg sender) = some s') {j : Nat} (hjk : j ≠ k) :
    s'.actors[j]? = s.actors[j]? := by
  rcases h with hstep | hstep
  · cases move_of_step hstep with
    | send => exact List.getElem?_set_ne (Ne.symm hjk)
    | refused => rfl
    | actor _ _ _ _ _ hb => simp at hb
  · cases move_of_step hstep with
    | fastSend => exact List.getElem?_set_ne (Ne.symm hjk)
    | refused => rfl
    | actor _ _ _ _ _ hb => simp at hb

/-- A name that was registered has a last actor. -/
theorem exists_latest {names : List String} {name : String} (h : name ∈ names) :
    ∃ k, Latest names name k := by
  induction names using List.reverseRecOn with
  | nil => simp at h
  | append_singleton names name' ih =>
    by_cases heq : name = name'
    · exact ⟨names.length, latest_concat.mpr (by rw [if_pos heq])⟩
    · rw [List.mem_append, List.mem_singleton] at h
      obtain ⟨k, hk⟩ := ih (h.resolve_right heq)
      exact ⟨k, latest_concat.mpr (by rw [if_neg heq]; exact hk)⟩

theorem getRef_latest {s s' : Manager μ} (h : s.Registered) {name : String}
    (hstep : s.step (.getRef name) = some s') :
    (∃ k, Latest (managedNames s.calls) name k ∧
      s'.actors = s.actors.modify k fun a =>
        { a with senders := a.senders ++ [.application] }) ∨
    name ∉ managedNames s.calls ∧ s' = s := by
  cases move_of_step hstep with
  | getRef _ k hk => exact Or.inl ⟨k, (h.lookup name k).mp hk, rfl⟩
  | getRefNone _ hk =>
    refine Or.inr ⟨fun hmem => ?_, rfl⟩
    obtain ⟨k, hlatest⟩ := exists_latest hmem
    rw [(h.lookup name k).mpr hlatest] at hk
    simp at hk
  | refused _ _ _ hb => simp at hb
  | actor _ _ _ _ _ hb => simp at hb

/-- The bookkeeping of a manager is exact, for every sequence of calls and
every interleaving with the threads of the actors and with senders. -/
theorem bookkept {tr : List (Manager μ × ManagerAction μ)} {s : Manager μ}
    (h : (machine μ).Run (fun _ _ => True) tr s) : Bookkept tr s := by
  have hcounted := counted h
  have hregistered := registered h.reach
  have hmailed := mailed h.reach
  have hphase := phase_ne_violated (lived h.reach)
  have hlen : s.actors.length = (managedNames s.calls).length := by
    rw [← hregistered.names, List.length_map]
  refine ⟨fun hidle k hk => ?_, fun k hk => ?_, fun k => ?_, start_accepted h,
    fun k => respectsLifecycle_of_phaseOf (hphase k),
    fun k l r hsplit => eq_endEnd_of_phaseOf (hphase k) hsplit,
    fun k a ha => ?_, fun k a ha l hl => ((hmailed.boxes k a ha).mine l hl).1,
    fun t k msg sender s' hstep j hjk => send_others hstep hjk,
    fun name s' hstep => getRef_latest hregistered hstep⟩
  · have hlt : k < s.actors.length := hlen ▸ lt_of_initLater hk
    have hout : k ∉ s.unstarted := by
      rw [unstarted, hidle, List.append_nil, hregistered.runtimes]
      exact fun hin => hin.2 hk
    have hout' : k ∉ s.waiting := fun hin => hout (mem_of_waiting hin)
    constructor
    · rw [hcounted.starts, if_pos ⟨hlt, hout'⟩]
    · rw [hcounted.spawns, if_pos ⟨hlt, hout⟩]
  · rw [hcounted.starts, hcounted.spawns]
    have hin : k < s.actors.length → k ∈ s.runtimes :=
      fun hlt => (hregistered.runtimes k).mpr ⟨hlen ▸ hlt, hk⟩
    constructor <;> rw [if_neg] <;> rintro ⟨hlt, hno⟩ <;>
      exact hno (List.mem_append_left _ (hin hlt))
  · rw [hcounted.starts, hcounted.spawns]
    constructor <;> split <;> omega
  · have hbox := hmailed.boxes k a ha
    exact ⟨hbox.handed_prefix, hbox.distinct, carries h.reach k a ha⟩

/-- A name is used twice, `init` is called twice, and a third actor is
registered after that.  Actor 1 has handled its `Start` and has left its
loop. -/
theorem bookkept_twice : ∃ (tr : List (Manager Nat × ManagerAction Nat))
    (s : Manager Nat), s.calls = [.manage "a", .manage "a", .init, .init,
      .manage "b"] ∧ s.history.count (1, .endEnd) = 1 ∧ Bookkept tr s := by
  have hrun := reach_after (fun _ _ => True)
    ([.manage "a", .manage "a", .init, .main, .main, .main, .main, .main, .init,
      .main, .manage "b", .getRef "a", .send (.client 0) 1 (.user 7) none,
      .actor 1, .codeReturn 1, .actor 1, .actor 1, .codeReturn 1, .stop 1,
      .actor 1, .codeReturn 1] : List (ManagerAction Nat)) (by decide)
  obtain ⟨tr, htr⟩ := hrun.exists_run
  exact ⟨tr, _, by decide, by decide, bookkept htr⟩

end Manager

end Actors
