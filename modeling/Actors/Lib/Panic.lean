import Mathlib.Logic.Basic

/-!
# Calls that panic, and mutexes that a panic poisons

A call returns a value or panics (`Outcome`), and leaves a state behind in both
cases.  A `Cell` is a mutex as it stands between two calls: its content, and
whether a panic has poisoned it.  `Cell.hold` is a call that locks the mutex,
unwraps the guard and keeps it to its end: on a poisoned mutex it panics at
once, and a panic of the body poisons the mutex.

Nothing here mentions a particular program.
-/

namespace Concur

/-- Why a thread panics. -/
inductive Panic where
  /-- `lock().unwrap()` of a poisoned mutex. -/
  | poisoned
  /-- `panic!`, or `expect` on a value that is not there. -/
  | failed (text : String)
  deriving DecidableEq, Repr

/-- How a call ends. -/
inductive Outcome (α : Type) where
  | value (a : α)
  | panic (why : Panic)
  deriving DecidableEq, Repr

namespace Outcome

variable {α β : Type}

def panicked : Outcome α → Bool
  | value _ => false
  | panic _ => true

/-- The result of a call, read in another way. -/
def map (f : α → β) : Outcome α → Outcome β
  | value a => value (f a)
  | panic why => panic why

@[simp] theorem panicked_value (a : α) : (value a).panicked = false := rfl

@[simp] theorem panicked_panic (why : Panic) :
    (panic why : Outcome α).panicked = true := rfl

@[simp] theorem map_value (f : α → β) (a : α) : (value a).map f = value (f a) :=
  rfl

@[simp] theorem map_panic (f : α → β) (why : Panic) :
    (panic why : Outcome α).map f = panic why := rfl

@[simp] theorem panicked_map (f : α → β) (o : Outcome α) :
    (o.map f).panicked = o.panicked := by
  cases o <;> rfl

/-- `expect`, `unwrap_or_else` with a panic. -/
def expect (text : String) : Option α → Outcome α
  | some a => value a
  | none => panic (.failed text)

@[simp] theorem expect_some (text : String) (a : α) :
    expect text (some a) = value a := rfl

@[simp] theorem expect_none (text : String) :
    (expect text none : Outcome α) = panic (.failed text) := rfl

@[simp] theorem panicked_expect (text : String) (o : Option α) :
    (expect text o).panicked = o.isNone := by
  cases o <;> rfl

/-- The next part of a call, when the one before has returned. -/
def bind (o : Outcome α) (f : α → Outcome β) : Outcome β :=
  match o with
  | value a => f a
  | panic why => panic why

@[simp] theorem bind_value (a : α) (f : α → Outcome β) :
    (value a).bind f = f a := rfl

@[simp] theorem bind_panic (why : Panic) (f : α → Outcome β) :
    (panic why : Outcome α).bind f = panic why := rfl

/-! What is known when a call returns. -/

theorem expect_eq_value {text : String} {o : Option α} {a : α} :
    expect text o = value a ↔ o = some a := by
  cases o <;> simp

theorem bind_eq_value {o : Outcome α} {f : α → Outcome β} {b : β} :
    o.bind f = value b ↔ ∃ a, o = value a ∧ f a = value b := by
  cases o <;> simp

theorem map_eq_value {o : Outcome α} {f : α → β} {b : β} :
    o.map f = value b ↔ ∃ a, o = value a ∧ f a = b := by
  cases o <;> simp

/-! A call that locks nothing does not meet a poisoned mutex. -/

theorem expect_ne_poisoned (text : String) (o : Option α) :
    expect text o ≠ panic .poisoned := by
  cases o <;> simp

theorem map_ne_poisoned {o : Outcome α} (h : o ≠ panic .poisoned) (f : α → β) :
    o.map f ≠ panic .poisoned := by
  cases o with
  | value a => simp
  | panic why => simpa using h

theorem bind_ne_poisoned {o : Outcome α} (h : o ≠ panic .poisoned)
    {f : α → Outcome β} (hf : ∀ a, f a ≠ panic .poisoned) :
    o.bind f ≠ panic .poisoned := by
  cases o with
  | value a => exact hf a
  | panic why => simpa using h

end Outcome

/-- A mutex between two calls. -/
structure Cell (α : Type) where
  content : α
  poisoned : Bool
  deriving DecidableEq, Repr

namespace Cell

variable {α β : Type}

/-- `Mutex::new`. -/
def new (a : α) : Cell α := { content := a, poisoned := false }

/-- A call that holds the mutex while it runs `body`. -/
def hold (c : Cell α) (body : α → Outcome β × α) : Outcome β × Cell α :=
  if c.poisoned then (.panic .poisoned, c)
  else
    let (o, a) := body c.content
    (o, { content := a, poisoned := o.panicked })

/-- A call that holds the mutex and only reads it. -/
def read (c : Cell α) (body : α → Outcome β) : Outcome β × Cell α :=
  c.hold fun a => (body a, a)

theorem hold_poisoned {c : Cell α} (h : c.poisoned = true)
    (body : α → Outcome β × α) : c.hold body = (.panic .poisoned, c) := by
  simp [hold, h]

theorem hold_clean {c : Cell α} (h : c.poisoned = false)
    (body : α → Outcome β × α) : c.hold body = ((body c.content).1,
      { content := (body c.content).2
        poisoned := (body c.content).1.panicked }) := by
  simp [hold, h]

theorem read_poisoned {c : Cell α} (h : c.poisoned = true)
    (body : α → Outcome β) : c.read body = (.panic .poisoned, c) :=
  hold_poisoned h _

theorem read_clean {c : Cell α} (h : c.poisoned = false)
    (body : α → Outcome β) : c.read body = (body c.content,
      { content := c.content, poisoned := (body c.content).panicked }) :=
  hold_clean h _

/-- When a call returns, its body has. -/
theorem value_of_read {c : Cell α} {body : α → Outcome β} {b : β}
    (h : (c.read body).1 = .value b) : body c.content = .value b := by
  cases hp : c.poisoned with
  | true => simp [read_poisoned hp] at h
  | false => simpa [read_clean hp] using h

/-- A body that returns leaves the mutex as it was. -/
theorem read_value {c : Cell α} (h : c.poisoned = false) {body : α → Outcome β}
    {b : β} (hb : body c.content = .value b) : c.read body = (.value b, c) := by
  obtain ⟨a, p⟩ := c
  simp only at h hb
  subst h
  simp [read, hold, hb]

end Cell

end Concur
