import Mathlib.Logic.Function.Basic

/-!
# A mutex with poisoning

`Mutex θ` is the lock word of a `std::sync::Mutex` whose holders are threads
of type `θ`.  The data it protects lives next to it.

`lock().unwrap()` has three outcomes.  While somebody holds the mutex the
thread waits, so there is no step.  A free mutex that is poisoned makes
`unwrap` panic.  Otherwise the thread holds the mutex.

`Locked` relates the program counters of the threads to the lock words of a
family of mutexes: a thread is inside a critical section exactly when it owns
the mutex.  `Locked.unique` is mutual exclusion; `Locked.acquire` and
`Locked.release` say that locking and unlocking keep the relation.
-/

namespace Concur

/-- Who holds the lock, and whether a holder has panicked. -/
structure Mutex (θ : Type) where
  owner : Option θ := none
  poisoned : Bool := false
  deriving DecidableEq, Repr

/-- The outcome of `lock().unwrap()`. -/
inductive LockResult (θ : Type) where
  | waits
  | panics
  | holds (m : Mutex θ)
  deriving DecidableEq, Repr

namespace Mutex

variable {θ : Type}

/-- `lock().unwrap()` by `t`. -/
def lock (m : Mutex θ) (t : θ) : LockResult θ :=
  match m.owner with
  | some _ => .waits
  | none => if m.poisoned then .panics else .holds { m with owner := some t }

/-- The guard is dropped. -/
def unlock (m : Mutex θ) : Mutex θ := { m with owner := none }

/-- The guard is dropped by a panic. -/
def poison (_ : Mutex θ) : Mutex θ := { owner := none, poisoned := true }

@[simp] theorem unlock_owner (m : Mutex θ) : m.unlock.owner = none := rfl

@[simp] theorem unlock_poisoned (m : Mutex θ) :
    m.unlock.poisoned = m.poisoned := rfl

@[simp] theorem poison_owner (m : Mutex θ) : m.poison.owner = none := rfl

@[simp] theorem poison_poisoned (m : Mutex θ) : m.poison.poisoned = true := rfl

theorem lock_eq_holds {m m' : Mutex θ} {t : θ} :
    m.lock t = .holds m' ↔
      m.owner = none ∧ m.poisoned = false ∧
        m' = { owner := some t, poisoned := false } := by
  obtain ⟨owner, poisoned⟩ := m
  cases owner <;> cases poisoned <;> simp [lock, eq_comm]

theorem lock_eq_panics {m : Mutex θ} {t : θ} :
    m.lock t = .panics ↔ m.owner = none ∧ m.poisoned = true := by
  obtain ⟨owner, poisoned⟩ := m
  cases owner <;> cases poisoned <;> simp [lock]

end Mutex

section Locked

variable {θ ι : Type} {inside : θ → Option ι} {owner : ι → Option θ}

/-- `inside t` is the mutex that thread `t` holds by its program counter, and
`owner m` is the thread that holds mutex `m` by its lock word.  The two
agree. -/
def Locked (inside : θ → Option ι) (owner : ι → Option θ) : Prop :=
  ∀ t m, inside t = some m ↔ owner m = some t

/-- Mutual exclusion. -/
theorem Locked.unique (h : Locked inside owner) {t u : θ} {m : ι}
    (ht : inside t = some m) (hu : inside u = some m) : t = u := by
  have howner := (h t m).mp ht
  rw [(h u m).mp hu, Option.some.injEq] at howner
  exact howner.symm

variable [DecidableEq θ] [DecidableEq ι]

/-- A thread outside locks a free mutex. -/
theorem Locked.acquire (h : Locked inside owner) {t : θ} {m : ι}
    (hout : inside t = none) (hfree : owner m = none) :
    Locked (Function.update inside t (some m))
      (Function.update owner m (some t)) := by
  intro t' m'
  have hiff := h t' m'
  by_cases ht : t' = t
  · by_cases hm : m' = m
    · simp [ht, hm]
    · subst ht
      rw [hout] at hiff
      simpa [hm, Ne.symm hm] using hiff
  · by_cases hm : m' = m
    · subst hm
      rw [hfree] at hiff
      simpa [ht, Ne.symm ht] using hiff
    · simpa [ht, hm] using hiff

/-- The thread inside drops its guard. -/
theorem Locked.release (h : Locked inside owner) {t : θ} {m : ι}
    (hin : inside t = some m) :
    Locked (Function.update inside t none) (Function.update owner m none) := by
  intro t' m'
  have hiff := h t' m'
  by_cases ht : t' = t
  · by_cases hm : m' = m
    · simp [ht, hm]
    · subst ht
      rw [hin] at hiff
      simpa [hm, Ne.symm hm] using hiff
  · by_cases hm : m' = m
    · subst hm
      rw [(h t m').mp hin] at hiff
      simpa [ht, Ne.symm ht] using hiff
    · simpa [ht, hm] using hiff

end Locked

end Concur
