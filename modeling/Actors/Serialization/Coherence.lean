import Actors.Serialization.Registry
import Mathlib.Data.List.Induction

/-!
# The two halves of the registry

`TYPEID_TO_NAME` leads from the type of a message to a name, and `REGISTRY` from
a name to the closures of a type.  Each call of `register_remote_message` enters
a pair into both maps, and both keep the last entry of a key.  When two types are
registered under one name, the second takes the closures and the first keeps the
name: its messages are then passed to closures of another type, whose downcast
panics at the first send.

`coherent_iff` says when the way through both maps leads back: exactly when the
name that the type was last registered under was last registered for that type.
-/

namespace Actors

open Concur

variable {τ : Type} {V : τ → Type}

/-- `to_value` writes the message, and `from_value` reads what it wrote. -/
def Serde.Reads (serde : Serde V) (M : RemoteType τ)
    (msg : Message (UserMessage V)) : Prop :=
  ∃ v, serde.encode msg = some v ∧ (serde.decode M v).isSome

namespace Registries

variable [DecidableEq τ]

/-- The name that a type was last registered under. -/
def lastName (regs : List (RemoteType τ × String)) (M : RemoteType τ) :
    Option String :=
  (regs.reverse.find? fun reg => reg.1 = M).map Prod.snd

/-- The type that was last registered under a name. -/
def lastType (regs : List (RemoteType τ × String)) (typeName : String) :
    Option (RemoteType τ) :=
  (regs.reverse.find? fun reg => reg.2 = typeName).map Prod.fst

/-- The name that the type was last registered under was last registered for
it. -/
def KeepsName (regs : List (RemoteType τ × String)) (M : RemoteType τ) : Prop :=
  (lastName regs M).bind (lastType regs) = some M

instance (regs : List (RemoteType τ × String)) (M : RemoteType τ) :
    Decidable (KeepsName regs M) :=
  inferInstanceAs (Decidable (_ = _))

/-- The message has a name, `serialize_message` returns its JSON under that name,
and `deserialize_message` makes a message of the same type out of it. -/
def Coherent (serde : Serde V) (s : Registries τ)
    (msg : Message (UserMessage V)) : Prop :=
  ∃ typeName v msg', s.getTypeName msg = (.value (some typeName), s) ∧
    serde.encode msg = some v ∧
    s.serializeMessage serde msg typeName = (.value v, s) ∧
    s.deserializeMessage serde typeName v = (.value msg', s) ∧
    msg'.typeId = msg.typeId

/-! ## What was registered last -/

@[simp] theorem lastName_append (regs : List (RemoteType τ × String))
    (reg : RemoteType τ × String) (M : RemoteType τ) :
    lastName (regs ++ [reg]) M =
      if reg.1 = M then some reg.2 else lastName regs M := by
  rw [lastName, List.reverse_append, List.reverse_singleton, List.singleton_append,
    List.find?_cons]
  by_cases h : reg.1 = M <;> simp [h, lastName]

omit [DecidableEq τ] in
@[simp] theorem lastType_append (regs : List (RemoteType τ × String))
    (reg : RemoteType τ × String) (typeName : String) :
    lastType (regs ++ [reg]) typeName =
      if reg.2 = typeName then some reg.1 else lastType regs typeName := by
  rw [lastType, List.reverse_append, List.reverse_singleton, List.singleton_append,
    List.find?_cons]
  by_cases h : reg.2 = typeName <;> simp [h, lastType]

theorem ofRegistrations_append (regs : List (RemoteType τ × String))
    (reg : RemoteType τ × String) : ofRegistrations (regs ++ [reg]) =
      ((ofRegistrations regs).registerRemoteMessage reg.1 reg.2).2 := by
  rw [ofRegistrations, List.foldl_append]
  rfl

/-- `TYPEID_TO_NAME` after a list of registrations. -/
theorem nameOf_ofRegistrations (regs : List (RemoteType τ × String))
    (M : RemoteType τ) :
    (ofRegistrations regs).nameOf M.typeId = lastName regs M := by
  induction regs using List.reverseRecOn with
  | nil => rfl
  | append_singleton regs reg ih =>
    have husable := (records_ofRegistrations regs).usable
    rw [ofRegistrations_append, nameOf_register husable, ih, lastName_append]
    by_cases h : reg.1 = M
    · simp [h]
    · have hid : M.typeId ≠ reg.1.typeId := fun hid => h (RemoteType.typeId_inj hid).symm
      rw [if_neg h, if_neg hid]

/-- `REGISTRY` after a list of registrations. -/
theorem entry_ofRegistrations (regs : List (RemoteType τ × String))
    (typeName : String) : (ofRegistrations regs).entry typeName =
      (lastType regs typeName).map fun M => { messageType := M } := by
  induction regs using List.reverseRecOn with
  | nil => rfl
  | append_singleton regs reg ih =>
    have husable := (records_ofRegistrations regs).usable
    rw [ofRegistrations_append, entry_register husable, ih, lastType_append]
    by_cases h : reg.2 = typeName
    · simp [h]
    · rw [if_neg h, if_neg (Ne.symm h)]

/-! ## The way through both maps -/

variable {s : Registries τ} {serde : Serde V}

omit [DecidableEq τ] in
theorem deserializeMessage_eq (h : s.Usable) {typeName : String}
    {entry : RegistryEntry τ} (hentry : s.entry typeName = some entry) {val : Value}
    {msg : Message (UserMessage V)}
    (hmsg : serde.decode entry.messageType val = some msg) :
    s.deserializeMessage serde typeName val = (.value msg, s) := by
  have hbody : ((findEntry s.registry.content typeName).bind fun entry =>
      entry.deserialize serde val) = .value msg := by
    obtain ⟨map, hmap, hlookup⟩ := Option.bind_eq_some_iff.mp hentry
    simp [findEntry, hmap, hlookup, RegistryEntry.deserialize, hmsg]
  rw [deserializeMessage, Cell.read_value h.entries hbody]

omit [DecidableEq τ] in
theorem panicked_deserializeMessage (h : s.Usable) (serde : Serde V)
    (typeName : String) (val : Value) :
    (s.deserializeMessage serde typeName val).1.panicked = true ↔
      ∀ entry ∈ s.entry typeName, ¬ entry.Decodes serde val := by
  have hread := panicked_findEntry s.registry.content typeName
    (·.deserialize serde val)
  rw [deserializeMessage, Cell.read_clean h.entries, hread]
  simp only [panicked_deserialize]
  rfl

/-- After any registrations, in any order: a message of a registered type finds
its way through both maps if and only if the name that its type was last
registered under was last registered for this type, and serde writes and reads
the message. -/
theorem coherent_iff (serde : Serde V) (regs : List (RemoteType τ × String))
    (M : RemoteType τ) (msg : Message (UserMessage V)) (htype : msg.typeId = M.typeId) :
    Coherent serde (ofRegistrations regs) msg ↔
      KeepsName regs M ∧ serde.Reads M msg := by
  have husable := (records_ofRegistrations regs).usable
  have hname : (ofRegistrations regs).getTypeName msg =
      (.value (lastName regs M), ofRegistrations regs) := by
    rw [getTypeName_eq husable, htype, nameOf_ofRegistrations]
  constructor
  · rintro ⟨typeName, v, msg', hgot, hencode, hser, hdes, -⟩
    have hlast : lastName regs M = some typeName := by
      rw [hname] at hgot
      simpa using hgot
    -- No panic, so the entry under the name is one of the type.
    have hpanicked := panicked_serializeMessage husable serde msg typeName
    rw [hser] at hpanicked
    simp only [Outcome.panicked_value, Bool.false_eq_true, false_iff, not_forall,
      not_not] at hpanicked
    obtain ⟨entry, hentry, hid, -⟩ := hpanicked
    have hM : entry.messageType = M :=
      RemoteType.typeId_inj (hid.symm.trans htype)
    have hpanicked' := panicked_deserializeMessage husable serde typeName v
    rw [hdes] at hpanicked'
    simp only [Outcome.panicked_value, Bool.false_eq_true, false_iff, not_forall,
      not_not] at hpanicked'
    obtain ⟨entry', hentry', hdecodes⟩ := hpanicked'
    rw [Option.mem_def] at hentry hentry'
    obtain rfl : entry = entry' := by simpa [hentry] using hentry'
    rw [RegistryEntry.Decodes, hM] at hdecodes
    refine ⟨?_, v, hencode, hdecodes⟩
    rw [entry_ofRegistrations] at hentry
    obtain ⟨N, hN, rfl⟩ := Option.map_eq_some_iff.mp hentry
    rw [KeepsName, hlast, Option.bind_some, hN]
    exact congrArg some hM
  · rintro ⟨hkeeps, v, hencode, hdecodes⟩
    obtain ⟨typeName, hlast, howner⟩ := Option.bind_eq_some_iff.mp hkeeps
    obtain ⟨msg', hdecode⟩ := Option.isSome_iff_exists.mp hdecodes
    have hentry : (ofRegistrations regs).entry typeName =
        some { messageType := M } := by
      rw [entry_ofRegistrations, howner]
      rfl
    exact ⟨typeName, v, msg', by rw [hname, hlast], hencode,
      serializeMessage_eq husable hentry htype hencode,
      deserializeMessage_eq husable hentry hdecode,
      (Serde.typeId_decode hdecode).trans htype.symm⟩

/-- Two types of messages, whose values are JSON booleans. -/
def twoFlagSerde : Serde fun _ : Bool => Bool where
  toValue m := some (.bool m.2)
  fromValue _ val :=
    match val with
    | .bool b => some b
    | _ => none

/-- A type that is registered twice, under two names. -/
theorem coherent_renamed : Coherent twoFlagSerde
    (ofRegistrations [(.user true, "A"), (.user false, "A"), (.user true, "B")])
    (.user ⟨true, false⟩) :=
  (coherent_iff twoFlagSerde _ (.user true) _ rfl).mpr
    ⟨by decide, .bool false, rfl, rfl⟩

/-- Two types that are registered under one name. -/
theorem coherent_fails : ¬ ∀ (regs : List (RemoteType Bool × String))
    (M : RemoteType Bool) (msg : Message (UserMessage fun _ : Bool => Bool)),
    M ∈ regs.map Prod.fst → msg.typeId = M.typeId →
      Coherent twoFlagSerde (ofRegistrations regs) msg := by
  intro h
  obtain ⟨typeName, v, msg', hname, -, hser, -⟩ :=
    h [(.user true, "X"), (.user false, "X")] (.user true) (.user ⟨true, false⟩)
      (by decide) rfl
  -- The name leads to the closures of the other type.
  have hX : typeName = "X" := by
    have hgot : some "X" = some typeName := by
      injection hname with hvalue
      injection hvalue
    exact (Option.some.inj hgot).symm
  have hpanic : ((ofRegistrations [(RemoteType.user true, "X"),
      (.user false, "X")]).serializeMessage twoFlagSerde (.user ⟨true, false⟩)
      "X").1.panicked = true := by decide
  rw [hX] at hser
  rw [hser] at hpanic
  simp at hpanic

end Registries

end Actors
