import Actors.Serialization.Registry

/-!
# Failing calls

Every function of the registry but `get_type_name` locks `REGISTRY`, and four of
its failures are panics while the guard is alive.  Such a panic poisons the
mutex, and from then on `lock().unwrap()` panics in every call of every thread.

`answer` is what a call returns on a registry that no panic has poisoned; it
depends on the map alone, and the map on the registrations.  `keptResults` runs
a history in which some calls are marked, and collects the results of the
others.  The order of a history is the order in which the calls, made by any
threads, get the mutex.  `keptResults_eq_iff` says exactly when marked failing calls change
nothing: when each of them that panics comes after the others are through, or
after one of the others has panicked.
-/

namespace Actors

open Concur

variable {τ : Type} {V : τ → Type}

/-- A call of a function of `src/serialization.rs`. -/
inductive RegistryCall (V : τ → Type) where
  | register (M : RemoteType τ) (typeName : String)
  | serialize (msg : Message (UserMessage V)) (typeName : String)
  | deserialize (typeName : String) (val : Value)
  | tryDeserialize (typeName : String) (val : Value)
  | isRegistered (typeName : String)

/-- What a call returns. -/
inductive RegistryReply (V : τ → Type) where
  | registered
  | json (val : Value)
  | message (msg : Message (UserMessage V))
  | tried (r : Except String (Message (UserMessage V)))
  | known (b : Bool)

namespace Registries

variable [DecidableEq τ] (serde : Serde V)

/-- Runs a call. -/
def call (s : Registries τ) :
    RegistryCall V → Outcome (RegistryReply V) × Registries τ
  | .register M typeName =>
    let (o, s') := s.registerRemoteMessage M typeName
    (o.map fun _ => .registered, s')
  | .serialize msg typeName =>
    let (o, s') := s.serializeMessage serde msg typeName
    (o.map .json, s')
  | .deserialize typeName val =>
    let (o, s') := s.deserializeMessage serde typeName val
    (o.map .message, s')
  | .tryDeserialize typeName val =>
    let (o, s') := s.tryDeserializeMessage serde typeName val
    (o.map .tried, s')
  | .isRegistered typeName =>
    let (o, s') := s.isMessageRegistered typeName
    (o.map .known, s')

/-- The results of a history of calls. -/
def results (s : Registries τ) :
    List (RegistryCall V) → List (Outcome (RegistryReply V))
  | [] => []
  | c :: cs => (s.call serde c).1 :: results (s.call serde c).2 cs

/-- The results of the calls of a history that are not marked. -/
def keptResults (s : Registries τ) :
    List (Bool × RegistryCall V) → List (Outcome (RegistryReply V))
  | [] => []
  | (true, c) :: xs => keptResults (s.call serde c).2 xs
  | (false, c) :: xs => (s.call serde c).1 :: keptResults (s.call serde c).2 xs

end Registries

/-- The calls that are not marked. -/
def unmarked (xs : List (Bool × RegistryCall V)) : List (RegistryCall V) :=
  (xs.filter fun x => !x.1).map Prod.snd

/-- The entries after a call: only a registration changes them. -/
def RegistryCall.after (m : Entries τ) : RegistryCall V → Entries τ
  | .register M typeName => some ((m.getD ∅).insert typeName { messageType := M })
  | _ => m

/-- The call fails: the name is unknown, the message is of another type or has
no JSON value, or the JSON value does not decode. -/
def RegistryCall.Fails (serde : Serde V) (m : Entries τ) :
    RegistryCall V → Prop
  | .register _ _ | .isRegistered _ => False
  | .serialize msg typeName =>
    ∀ entry ∈ m.bind (·.lookup typeName), ¬ entry.Encodes serde msg
  | .deserialize typeName val | .tryDeserialize typeName val =>
    ∀ entry ∈ m.bind (·.lookup typeName), ¬ entry.Decodes serde val

/-- The call fails with a panic.  `try_deserialize_message` returns `Err` for an
unknown name, and panics like the others when the value does not decode. -/
def RegistryCall.Panics (serde : Serde V) (m : Entries τ)
    (c : RegistryCall V) : Prop :=
  c.Fails serde m ∧
    match c with
    | .tryDeserialize typeName _ => (m.bind (·.lookup typeName)).isSome
    | _ => True

/-- Every marked call fails, where it stands. -/
def MarkedFail (serde : Serde V) (m : Entries τ) :
    List (Bool × RegistryCall V) → Prop
  | [] => True
  | (marked, c) :: xs =>
    (marked = true → c.Fails serde m) ∧ MarkedFail serde (c.after m) xs

/-- A marked call that panics comes after all unmarked calls, or after an
unmarked call that panics. -/
def PanicsLate (serde : Serde V) (m : Entries τ) :
    List (Bool × RegistryCall V) → Prop
  | [] => True
  | (true, c) :: xs =>
    (c.Panics serde m → unmarked xs = []) ∧
      (¬ c.Panics serde m → PanicsLate serde (c.after m) xs)
  | (false, c) :: xs =>
    c.Panics serde m ∨ PanicsLate serde (c.after m) xs

section Decide

variable [DecidableEq τ] (serde : Serde V)

instance (m : Entries τ) (c : RegistryCall V) : Decidable (c.Fails serde m) := by
  cases c <;> unfold RegistryCall.Fails <;> infer_instance

instance (m : Entries τ) (c : RegistryCall V) : Decidable (c.Panics serde m) := by
  unfold RegistryCall.Panics
  cases c <;> infer_instance

instance decidableMarkedFail : (m : Entries τ) → (xs : List (Bool × RegistryCall V)) →
    Decidable (MarkedFail serde m xs)
  | _, [] => isTrue trivial
  | m, (_, c) :: xs =>
    have := decidableMarkedFail (c.after m) xs
    inferInstanceAs (Decidable (_ ∧ _))

instance decidablePanicsLate : (m : Entries τ) → (xs : List (Bool × RegistryCall V)) →
    Decidable (PanicsLate serde m xs)
  | _, [] => isTrue trivial
  | m, (true, c) :: xs =>
    have := decidablePanicsLate (c.after m) xs
    decidable_of_iff ((c.Panics serde m → (unmarked xs).isEmpty = true) ∧
      (¬ c.Panics serde m → PanicsLate serde (c.after m) xs))
      (by rw [PanicsLate, List.isEmpty_iff])
  | m, (false, c) :: xs =>
    have := decidablePanicsLate (c.after m) xs
    inferInstanceAs (Decidable (_ ∨ _))

end Decide

/-- A call that fails registers nothing. -/
theorem RegistryCall.after_of_fails {serde : Serde V} {m : Entries τ}
    {c : RegistryCall V} (h : c.Fails serde m) : c.after m = m := by
  cases c <;> first | rfl | exact h.elim

/-! ## Which calls panic -/

namespace Registries

/-- No panic has poisoned a mutex, and `m` is registered. -/
structure Holds (s : Registries τ) (m : Entries τ) : Prop where
  usable : s.Usable
  content : s.registry.content = m

/-- A panic has poisoned `REGISTRY`. -/
structure Poisoned (s : Registries τ) : Prop where
  names : s.typeidToName.poisoned = false
  unusable : s.registry.poisoned = true

/-- After a call that only reads the entries. -/
theorem holds_of_read {α β : Type} (ids : Option (HashMap (TypeId τ) String))
    (m : Entries τ) (o : Outcome α) (f : α → β) :
    let s : Registries τ :=
      { typeidToName := .new ids
        registry := { content := m, poisoned := o.panicked } }
    if (o.map f).panicked then s.Poisoned else s.Holds m := by
  rw [Outcome.panicked_map]
  cases h : o.panicked
  · exact ⟨⟨rfl, rfl⟩, rfl⟩
  · exact ⟨rfl, rfl⟩

variable [DecidableEq τ]

/-- What a call returns on a registry that no panic has poisoned. -/
def answer (serde : Serde V) (m : Entries τ) (c : RegistryCall V) :
    Outcome (RegistryReply V) :=
  (call serde { typeidToName := .new none, registry := .new m } c).1

variable {serde : Serde V}

/-- The answer is a panic exactly when the call is one of those that panic. -/
theorem panicked_answer (m : Entries τ) (c : RegistryCall V) :
    (answer serde m c).panicked = true ↔ c.Panics serde m := by
  cases c with
  | register M typeName | isRegistered typeName =>
    cases m <;> simp [answer, call, registerRemoteMessage, isMessageRegistered,
      Cell.new, Cell.hold, Cell.read, RegistryCall.Panics, RegistryCall.Fails]
  | serialize msg typeName =>
    have heq : answer serde m (.serialize msg typeName) =
        ((findEntry m typeName).bind (·.serialize serde msg)).map .json := rfl
    rw [heq, Outcome.panicked_map, panicked_findEntry]
    simp [RegistryCall.Panics, RegistryCall.Fails, panicked_serialize]
  | deserialize typeName val =>
    have heq : answer serde m (.deserialize typeName val) =
        ((findEntry m typeName).bind (·.deserialize serde val)).map .message := rfl
    rw [heq, Outcome.panicked_map, panicked_findEntry]
    simp [RegistryCall.Panics, RegistryCall.Fails, panicked_deserialize]
  | tryDeserialize typeName val =>
    cases m with
    | none => simp [answer, call, tryDeserializeMessage, Cell.new, Cell.hold,
        Cell.read, RegistryCall.Panics]
    | some map =>
      cases hmap : map.lookup typeName with
      | none => simp [answer, call, tryDeserializeMessage, Cell.new, Cell.hold,
          Cell.read, RegistryCall.Panics, hmap]
      | some entry => simp [answer, call, tryDeserializeMessage, Cell.new,
          Cell.hold, Cell.read, RegistryCall.Panics, RegistryCall.Fails, hmap,
          panicked_deserialize]

/-- A panic of a call is its own. -/
theorem answer_ne_poisoned (serde : Serde V) (m : Entries τ) (c : RegistryCall V) :
    answer serde m c ≠ .panic .poisoned := by
  have hfind : ∀ typeName, findEntry m typeName ≠ .panic .poisoned := by
    intro typeName
    exact Outcome.bind_ne_poisoned (Outcome.expect_ne_poisoned _ _)
      fun map => Outcome.expect_ne_poisoned _ _
  cases c with
  | register M typeName =>
    simp [answer, call, registerRemoteMessage, Cell.new, Cell.hold]
  | isRegistered typeName =>
    refine Outcome.map_ne_poisoned ?_ _
    cases m <;> simp [Cell.new]
  | serialize msg typeName =>
    refine Outcome.map_ne_poisoned (Outcome.bind_ne_poisoned (hfind _) ?_) _
    intro entry
    unfold RegistryEntry.serialize
    split
    · exact Outcome.expect_ne_poisoned _ _
    · simp
  | deserialize typeName val =>
    refine Outcome.map_ne_poisoned (Outcome.bind_ne_poisoned (hfind _) ?_) _
    exact fun entry => Outcome.expect_ne_poisoned _ _
  | tryDeserialize typeName val =>
    refine Outcome.map_ne_poisoned ?_ _
    dsimp only [Cell.new, Cell.read, Cell.hold, Bool.false_eq_true, if_false]
    split
    · simp
    · split
      · simp
      · exact Outcome.map_ne_poisoned (Outcome.expect_ne_poisoned _ _) _

/-! ## One call -/

/-- A call returns its answer, and it poisons the registry if that is a
panic. -/
theorem Holds.call {s : Registries τ} {m : Entries τ} (h : s.Holds m)
    (serde : Serde V) (c : RegistryCall V) :
    (s.call serde c).1 = answer serde m c ∧
      (if (answer serde m c).panicked then (s.call serde c).2.Poisoned
        else (s.call serde c).2.Holds (c.after m)) := by
  obtain ⟨⟨ids, p⟩, ⟨m', q⟩⟩ := s
  obtain ⟨⟨rfl, rfl⟩, rfl⟩ := h
  cases c with
  | register M typeName => exact ⟨rfl, ⟨rfl, rfl⟩, rfl⟩
  | serialize msg typeName => exact ⟨rfl, holds_of_read ids _ _ _⟩
  | deserialize typeName val => exact ⟨rfl, holds_of_read ids _ _ _⟩
  | tryDeserialize typeName val => exact ⟨rfl, holds_of_read ids _ _ _⟩
  | isRegistered typeName => exact ⟨rfl, holds_of_read ids _ _ _⟩

/-- Every call panics on a poisoned registry, and leaves it poisoned. -/
theorem Poisoned.call {s : Registries τ} (h : s.Poisoned) (serde : Serde V)
    (c : RegistryCall V) :
    (s.call serde c).1 = .panic .poisoned ∧ (s.call serde c).2.Poisoned := by
  cases c with
  | register M typeName =>
    -- The type has its name before `REGISTRY` is locked.
    simp only [Registries.call, registerRemoteMessage, Cell.hold_clean h.names,
      Outcome.panicked_value, Bool.false_eq_true, if_false,
      Cell.hold_poisoned h.unusable, Outcome.map_panic]
    exact ⟨trivial, rfl, h.unusable⟩
  | serialize msg typeName =>
    simp only [Registries.call, serializeMessage, Cell.read_poisoned h.unusable,
      Outcome.map_panic]
    exact ⟨trivial, h⟩
  | deserialize typeName val =>
    simp only [Registries.call, deserializeMessage, Cell.read_poisoned h.unusable,
      Outcome.map_panic]
    exact ⟨trivial, h⟩
  | tryDeserialize typeName val =>
    simp only [Registries.call, tryDeserializeMessage, Cell.read_poisoned h.unusable,
      Outcome.map_panic]
    exact ⟨trivial, h⟩
  | isRegistered typeName =>
    simp only [Registries.call, isMessageRegistered, Cell.read_poisoned h.unusable,
      Outcome.map_panic]
    exact ⟨trivial, h⟩

/-! ## Two histories -/

theorem Poisoned.results {s : Registries τ} (h : s.Poisoned)
    (cs : List (RegistryCall V)) :
    s.results serde cs = cs.map fun _ => .panic .poisoned := by
  induction cs generalizing s with
  | nil => rfl
  | cons c cs ih =>
    obtain ⟨hpanic, h'⟩ := h.call serde c
    rw [Registries.results, hpanic, ih h', List.map_cons]

theorem Poisoned.keptResults {s : Registries τ} (h : s.Poisoned)
    (xs : List (Bool × RegistryCall V)) :
    s.keptResults serde xs = (unmarked xs).map fun _ => .panic .poisoned := by
  induction xs generalizing s with
  | nil => rfl
  | cons x xs ih =>
    obtain ⟨marked, c⟩ := x
    obtain ⟨hpanic, h'⟩ := h.call serde c
    cases marked with
    | true => exact ih h'
    | false =>
      rw [Registries.keptResults, hpanic, ih h']
      rfl

/-- From two registries with the same entries: the marked calls change nothing
if and only if their panics come late. -/
theorem keptResults_iff (xs : List (Bool × RegistryCall V)) :
    ∀ {m : Entries τ} {s t : Registries τ}, s.Holds m → t.Holds m →
      MarkedFail serde m xs →
      (s.keptResults serde xs = t.results serde (unmarked xs) ↔
        PanicsLate serde m xs) := by
  induction xs with
  | nil => intro m s t _ _ _; exact ⟨fun _ => trivial, fun _ => rfl⟩
  | cons x xs ih =>
    intro m s t hs ht hfail
    obtain ⟨marked, c⟩ := x
    obtain ⟨hs1, hs2⟩ := hs.call serde c
    obtain ⟨ht1, ht2⟩ := ht.call serde c
    rw [MarkedFail] at hfail
    cases marked with
    | false =>
      rw [keptResults, show unmarked ((false, c) :: xs) = c :: unmarked xs from rfl,
        results, hs1, ht1, List.cons_inj_right, PanicsLate, ← panicked_answer]
      by_cases hp : (answer serde m c).panicked = true
      · rw [if_pos hp] at hs2 ht2
        rw [hs2.keptResults, ht2.results]
        simp [hp]
      · rw [if_neg hp] at hs2 ht2
        rw [ih hs2 ht2 hfail.2]
        simp [hp]
    | true =>
      rw [keptResults, show unmarked ((true, c) :: xs) = unmarked xs from rfl,
        PanicsLate, ← panicked_answer]
      by_cases hp : (answer serde m c).panicked = true
      · rw [if_pos hp] at hs2
        rw [hs2.keptResults]
        simp only [hp, true_implies, not_true_eq_false, false_implies, and_true]
        cases hrest : unmarked xs with
        | nil => simp [results]
        | cons c' cs =>
          -- The next call panics, and without the marked call it would not.
          have hne := answer_ne_poisoned serde m c'
          rw [← (ht.call serde c').1] at hne
          simp [results, Ne.symm hne]
      · rw [if_neg hp] at hs2
        have hsame := RegistryCall.after_of_fails (hfail.1 rfl)
        rw [hsame] at hs2 hfail
        rw [ih hs2 ht hfail.2, hsame]
        simp [hp]

/-- Failing calls that are inserted into a history change the result of no other
call if and only if each of them that panics comes after all other calls, or
after another call that panics. -/
theorem keptResults_eq_iff (serde : Serde V) (xs : List (Bool × RegistryCall V))
    (h : MarkedFail serde none xs) :
    new.keptResults serde xs = new.results serde (unmarked xs) ↔
      PanicsLate serde none xs :=
  keptResults_iff xs ⟨usable_new, rfl⟩ ⟨usable_new, rfl⟩ h

/-- A failing call between two others, and a panic after them. -/
theorem keptResults_eq_flag :
    let xs : List (Bool × RegistryCall fun _ : Unit => Bool) :=
      [(false, .register (.user ()) "Flag"), (true, .tryDeserialize "Other" .null),
        (false, .tryDeserialize "Flag" (.bool true)),
        (true, .deserialize "Flag" .null)]
    new.keptResults flagSerde xs = new.results flagSerde (unmarked xs) :=
  (keptResults_eq_iff flagSerde _ (by decide)).mpr (by decide)

/-- `try_deserialize_message` with a payload that does not decode: the same call
with a good payload fails afterwards. -/
theorem keptResults_ne_flag : ¬ ∀ xs : List (Bool × RegistryCall fun _ : Unit => Bool),
    MarkedFail flagSerde none xs →
      new.keptResults flagSerde xs = new.results flagSerde (unmarked xs) := by
  intro h
  have heq := h [(false, .register (.user ()) "Flag"),
    (true, .tryDeserialize "Flag" .null),
    (false, .tryDeserialize "Flag" (.bool true))] (by decide)
  have hpanics := congrArg (fun rs => rs.map Outcome.panicked) heq
  revert hpanics
  decide

/-! ## The call that returns an `Err` -/

/-- The call returns normally: `Ok` with the decoded message exactly when the
name is registered and the value decodes as its type, and `Err` otherwise. -/
def ReportsFailure (serde : Serde V) (s : Registries τ) (typeName : String)
    (val : Value) : Prop :=
  ∃ r, (s.tryDeserializeMessage serde typeName val).1 = .value r ∧
    ∀ msg, r = .ok msg ↔ ∃ entry, s.entry typeName = some entry ∧
      serde.decode entry.messageType val = some msg

omit [DecidableEq τ] in
/-- Nothing is reported through a poisoned mutex. -/
theorem not_reportsFailure_of_poisoned {s : Registries τ}
    (h : s.registry.poisoned = true) (typeName : String) (val : Value) :
    ¬ ReportsFailure serde s typeName val := by
  rintro ⟨r, hr, -⟩
  rw [tryDeserializeMessage, Cell.read_poisoned h] at hr
  cases hr

omit [DecidableEq τ] in
theorem reportsFailure_of_unknown {s : Registries τ}
    (h : s.registry.poisoned = false) {typeName : String}
    (hentry : s.entry typeName = none) (val : Value) :
    ReportsFailure serde s typeName val := by
  obtain ⟨reason, hcall⟩ := tryDeserializeMessage_unknown h serde hentry val
  refine ⟨.error reason, by rw [hcall], fun msg => ?_⟩
  simp [hentry]

omit [DecidableEq τ] in
/-- For a registered name the closure has to return. -/
theorem reportsFailure_iff_of_known {s : Registries τ}
    (h : s.registry.poisoned = false) {typeName : String}
    {entry : RegistryEntry τ} (hentry : s.entry typeName = some entry)
    (val : Value) :
    ReportsFailure serde s typeName val ↔ entry.Decodes serde val := by
  have hcall : s.tryDeserializeMessage serde typeName val = _ :=
    tryDeserializeMessage_known h hentry val
  rw [ReportsFailure, hcall]
  cases hmsg : serde.decode entry.messageType val with
  | none => simp [RegistryEntry.deserialize, RegistryEntry.Decodes, hmsg]
  | some msg =>
    simp [RegistryEntry.deserialize, RegistryEntry.Decodes, hmsg, hentry]

omit [DecidableEq τ] in
/-- `try_deserialize_message` reports every failure as `Err` exactly when
`REGISTRY` is not poisoned and the value decodes as the type of the name, if the
name has one. -/
theorem reportsFailure_iff (serde : Serde V) (s : Registries τ)
    (typeName : String) (val : Value) : ReportsFailure serde s typeName val ↔
      s.registry.poisoned = false ∧
        ∀ entry ∈ s.entry typeName, entry.Decodes serde val := by
  cases hp : s.registry.poisoned with
  | true => simp [not_reportsFailure_of_poisoned hp]
  | false =>
    cases hentry : s.entry typeName with
    | none => simp [reportsFailure_of_unknown hp hentry]
    | some entry => simp [reportsFailure_iff_of_known hp hentry]

/-- A number for a type whose values are JSON booleans. -/
theorem reportsFailure_fails : ¬ ∀ (s : Registries Unit) (typeName : String)
    (val : Value), ReportsFailure flagSerde s typeName val := by
  intro h
  obtain ⟨r, hr, -⟩ := h (ofRegistrations [(.user (), "Flag")]) "Flag"
    (.number (.posInt 7))
  have hpanicked : ((ofRegistrations [(RemoteType.user (), "Flag")]
      ).tryDeserializeMessage flagSerde "Flag"
      (.number (.posInt 7))).1.panicked = true := by decide
  rw [hr] at hpanicked
  simp at hpanicked

end Registries

end Actors
