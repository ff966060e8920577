import Actors.Lib.HashMap
import Actors.Lib.Panic
import Actors.Serialization.Json

/-!
# The message registry

`src/serialization.rs`.  The types of the application's messages are a
parameter `τ`, with the values `V t` of each type, and a boxed message of the
application is a type with a value of it.  What `Serialize` and `Deserialize` of
such a type do is a parameter as well (`Serde`).

The two closures of a `RegistryEntry` capture nothing but the type `M` that
`register_remote_message` was called with, so an entry is that type, and
`RegistryEntry.serialize` and `RegistryEntry.deserialize` are the closures.
`Start`, `Shutdown` and `Timeout` have no serde implementation and cannot be
registered: `RemoteType` lists the types that can.

Both statics are mutexes, and every function holds its mutex to its end, so a
function is one call on a `Cell`.
-/

namespace Actors

open Concur

variable {τ : Type} {V : τ → Type}

/-- `TypeId::of`, for the types of messages. -/
inductive TypeId (τ : Type) where
  | start
  | shutdown
  | timeout
  | reject
  | user (t : τ)
  deriving DecidableEq, Repr

/-- The types that implement `Serialize` and `DeserializeOwned`. -/
inductive RemoteType (τ : Type) where
  | reject
  | user (t : τ)
  deriving DecidableEq, Repr

def RemoteType.typeId : RemoteType τ → TypeId τ
  | .reject => .reject
  | .user t => .user t

theorem RemoteType.typeId_inj {M N : RemoteType τ} (h : M.typeId = N.typeId) :
    M = N := by
  cases M <;> cases N <;> simp_all [typeId]

/-- The boxed messages of the application. -/
abbrev UserMessage (V : τ → Type) := Σ t, V t

/-- `msg.as_any().type_id()`. -/
def Message.typeId : Message (UserMessage V) → TypeId τ
  | .start => .start
  | .shutdown => .shutdown
  | .timeout _ => .timeout
  | .reject _ => .reject
  | .user m => .user m.1

/-- `serde_json::to_value` and `serde_json::from_value` on the types of the
application.  `none` is `Err`. -/
structure Serde (V : τ → Type) where
  toValue : UserMessage V → Option Value
  fromValue : (t : τ) → Value → Option (V t)

/-- `to_value` of a message, as a value of its own type. -/
def Serde.encode (serde : Serde V) : Message (UserMessage V) → Option Value
  | .reject r => some r.toValue
  | .user m => serde.toValue m
  | _ => none

/-- `from_value` at the type `M`. -/
def Serde.decode (serde : Serde V) (M : RemoteType τ) (val : Value) :
    Option (Message (UserMessage V)) :=
  match M with
  | .reject => (Reject.fromValue val).map .reject
  | .user t => (serde.fromValue t val).map fun v => .user ⟨t, v⟩

/-- What `from_value` returns is a message of the type. -/
theorem Serde.typeId_decode {serde : Serde V} {M : RemoteType τ} {val : Value}
    {msg : Message (UserMessage V)} (h : serde.decode M val = some msg) :
    msg.typeId = M.typeId := by
  cases M <;> simp only [decode, Option.map_eq_some_iff] at h <;>
    obtain ⟨x, -, rfl⟩ := h <;> rfl

/-- One type of messages, whose values are JSON booleans. -/
def flagSerde : Serde fun _ : Unit => Bool where
  toValue m := some (.bool m.2)
  fromValue _ val :=
    match val with
    | .bool b => some b
    | _ => none

/-- `RegistryEntry`: the two closures of the type `M`. -/
structure RegistryEntry (τ : Type) where
  messageType : RemoteType τ
  deriving DecidableEq, Repr

/-- The closure `serialize`: a downcast to `M`, then `to_value`. -/
def RegistryEntry.serialize [DecidableEq τ] (serde : Serde V)
    (entry : RegistryEntry τ) (msg : Message (UserMessage V)) : Outcome Value :=
  if msg.typeId = entry.messageType.typeId then
    .expect "Failed to serialize message" (serde.encode msg)
  else .panic (.failed "Type mismatch in serialize")

/-- The closure `deserialize`. -/
def RegistryEntry.deserialize (serde : Serde V) (entry : RegistryEntry τ)
    (val : Value) : Outcome (Message (UserMessage V)) :=
  .expect "Failed to deserialize message" (serde.decode entry.messageType val)

/-- The message is of the type of the entry, and `to_value` succeeds. -/
def RegistryEntry.Encodes (serde : Serde V) (entry : RegistryEntry τ)
    (msg : Message (UserMessage V)) : Prop :=
  msg.typeId = entry.messageType.typeId ∧ (serde.encode msg).isSome

/-- `from_value` succeeds at the type of the entry. -/
def RegistryEntry.Decodes (serde : Serde V) (entry : RegistryEntry τ)
    (val : Value) : Prop := (serde.decode entry.messageType val).isSome

instance [DecidableEq τ] (serde : Serde V) (entry : RegistryEntry τ)
    (msg : Message (UserMessage V)) : Decidable (entry.Encodes serde msg) :=
  inferInstanceAs (Decidable (_ ∧ _))

instance (serde : Serde V) (entry : RegistryEntry τ) (val : Value) :
    Decidable (entry.Decodes serde val) :=
  inferInstanceAs (Decidable (_ = true))

theorem panicked_deserialize {serde : Serde V} (entry : RegistryEntry τ)
    (val : Value) : (entry.deserialize serde val).panicked = true ↔
      ¬ entry.Decodes serde val := by
  simp [RegistryEntry.deserialize, RegistryEntry.Decodes]

theorem panicked_serialize [DecidableEq τ] {serde : Serde V}
    (entry : RegistryEntry τ) (msg : Message (UserMessage V)) :
    (entry.serialize serde msg).panicked = true ↔ ¬ entry.Encodes serde msg := by
  unfold RegistryEntry.serialize RegistryEntry.Encodes
  split <;> rename_i htype <;> simp [htype]

/-- The contents of `REGISTRY`. -/
abbrev Entries (τ : Type) := Option (HashMap String (RegistryEntry τ))

/-- `TYPEID_TO_NAME` and `REGISTRY`. -/
structure Registries (τ : Type) where
  typeidToName : Cell (Option (HashMap (TypeId τ) String))
  registry : Cell (Entries τ)

namespace Registries

/-- The two statics at the start of the program. -/
def new : Registries τ := { typeidToName := .new none, registry := .new none }

/-- The entry under a name. -/
def entry (s : Registries τ) (typeName : String) : Option (RegistryEntry τ) :=
  s.registry.content.bind fun map => map.lookup typeName

variable [DecidableEq τ]

/-- The name that a type was last registered under. -/
def nameOf (s : Registries τ) (id : TypeId τ) : Option String :=
  s.typeidToName.content.bind fun map => map.lookup id

/-- `register_remote_message::<M>`.  The first mutex is released before the
second is locked. -/
def registerRemoteMessage (s : Registries τ) (M : RemoteType τ)
    (typeName : String) : Outcome Unit × Registries τ :=
  let (o, typeidToName) := s.typeidToName.hold fun map =>
    (.value (), some ((map.getD ∅).insert M.typeId typeName))
  if o.panicked then (o, { s with typeidToName })
  else
    let (o, registry) := s.registry.hold fun map =>
      (.value (), some ((map.getD ∅).insert typeName { messageType := M }))
    (o, { typeidToName, registry })

/-- `get_type_name`. -/
def getTypeName (s : Registries τ) (msg : Message (UserMessage V)) :
    Outcome (Option String) × Registries τ :=
  let (o, typeidToName) := s.typeidToName.read fun map =>
    .value (map.bind fun map => map.lookup msg.typeId)
  (o, { s with typeidToName })

/-- The entry that `serialize_message` and `deserialize_message` use. -/
def findEntry (map : Entries τ) (typeName : String) : Outcome (RegistryEntry τ) :=
  (Outcome.expect "No messages registered" map).bind fun map =>
    .expect ("Message type '" ++ typeName ++ "' not registered")
      (map.lookup typeName)

/-- `serialize_message`. -/
def serializeMessage (serde : Serde V) (s : Registries τ)
    (msg : Message (UserMessage V)) (typeName : String) :
    Outcome Value × Registries τ :=
  let (o, registry) := s.registry.read fun map =>
    (findEntry map typeName).bind fun entry => entry.serialize serde msg
  (o, { s with registry })

/-- `deserialize_message`. -/
def deserializeMessage (serde : Serde V) (s : Registries τ) (typeName : String)
    (val : Value) : Outcome (Message (UserMessage V)) × Registries τ :=
  let (o, registry) := s.registry.read fun map =>
    (findEntry map typeName).bind fun entry => entry.deserialize serde val
  (o, { s with registry })

/-- `try_deserialize_message`. -/
def tryDeserializeMessage (serde : Serde V) (s : Registries τ)
    (typeName : String) (val : Value) :
    Outcome (Except String (Message (UserMessage V))) × Registries τ :=
  let (o, registry) := s.registry.read fun map =>
    match map with
    | none => .value (.error "No messages registered")
    | some map =>
      match map.lookup typeName with
      | none => .value (.error ("Unknown message type: " ++ typeName))
      | some entry => (entry.deserialize serde val).map .ok
  (o, { s with registry })

/-- `is_message_registered`. -/
def isMessageRegistered (s : Registries τ) (typeName : String) :
    Outcome Bool × Registries τ :=
  let (o, registry) := s.registry.read fun map =>
    match map with
    | some map => .value (map.lookup typeName).isSome
    | none => .value false
  (o, { s with registry })

omit [DecidableEq τ] in
theorem panicked_findEntry (m : Entries τ) (typeName : String) {β : Type}
    (f : RegistryEntry τ → Outcome β) :
    ((findEntry m typeName).bind f).panicked = true ↔
      ∀ entry ∈ m.bind (·.lookup typeName), (f entry).panicked = true := by
  cases m with
  | none => simp [findEntry]
  | some map => cases hmap : map.lookup typeName <;> simp [findEntry, hmap]

/-! ## Registries that no panic has poisoned -/

/-- No panic has poisoned either mutex. -/
structure Usable (s : Registries τ) : Prop where
  names : s.typeidToName.poisoned = false
  entries : s.registry.poisoned = false

omit [DecidableEq τ] in
theorem usable_new : (new : Registries τ).Usable := ⟨rfl, rfl⟩

variable {s : Registries τ} {serde : Serde V}

theorem getTypeName_eq (h : s.Usable) (msg : Message (UserMessage V)) :
    s.getTypeName msg = (.value (s.nameOf msg.typeId), s) := by
  obtain ⟨⟨ids, p⟩, registry⟩ := s
  have hp : p = false := h.names
  subst hp
  rfl

theorem serializeMessage_eq (h : s.Usable) {typeName : String}
    {entry : RegistryEntry τ} (hentry : s.entry typeName = some entry)
    {msg : Message (UserMessage V)} (htype : msg.typeId = entry.messageType.typeId)
    {v : Value} (hv : serde.encode msg = some v) :
    s.serializeMessage serde msg typeName = (.value v, s) := by
  have hbody : ((findEntry s.registry.content typeName).bind fun entry =>
      entry.serialize serde msg) = .value v := by
    obtain ⟨map, hmap, hlookup⟩ := Option.bind_eq_some_iff.mp hentry
    simp [findEntry, hmap, hlookup, RegistryEntry.serialize, htype, hv]
  rw [serializeMessage, Cell.read_value h.entries hbody]

theorem panicked_serializeMessage (h : s.Usable) (serde : Serde V)
    (msg : Message (UserMessage V)) (typeName : String) :
    (s.serializeMessage serde msg typeName).1.panicked = true ↔
      ∀ entry ∈ s.entry typeName, ¬ entry.Encodes serde msg := by
  have hread := panicked_findEntry s.registry.content typeName
    (·.serialize serde msg)
  rw [serializeMessage, Cell.read_clean h.entries, hread]
  simp only [panicked_serialize]
  rfl

omit [DecidableEq τ] in
theorem tryDeserializeMessage_unknown (h : s.registry.poisoned = false)
    (serde : Serde V) {typeName : String} (hentry : s.entry typeName = none)
    (val : Value) : ∃ reason, s.tryDeserializeMessage serde typeName val =
      (.value (.error reason), s) := by
  obtain ⟨ids, ⟨m, p⟩⟩ := s
  have hp : p = false := h
  subst hp
  cases m with
  | none => exact ⟨_, rfl⟩
  | some map =>
    have hlookup : map.lookup typeName = none := hentry
    refine ⟨"Unknown message type: " ++ typeName, ?_⟩
    simp [tryDeserializeMessage, Cell.read, Cell.hold, hlookup]

omit [DecidableEq τ] in
/-- For a registered name the closure decides. -/
theorem tryDeserializeMessage_known (h : s.registry.poisoned = false)
    {typeName : String} {entry : RegistryEntry τ}
    (hentry : s.entry typeName = some entry) (val : Value) :
    s.tryDeserializeMessage serde typeName val =
      ((entry.deserialize serde val).map .ok, { s with registry :=
        { content := s.registry.content
          poisoned := (entry.deserialize serde val).panicked } }) := by
  obtain ⟨ids, ⟨m, p⟩⟩ := s
  have hp : p = false := h
  subst hp
  obtain ⟨map, rfl, hlookup⟩ := Option.bind_eq_some_iff.mp hentry
  simp [tryDeserializeMessage, Cell.read, Cell.hold, hlookup]

omit [DecidableEq τ] in
theorem tryDeserializeMessage_ok (h : s.registry.poisoned = false)
    {typeName : String} {entry : RegistryEntry τ}
    (hentry : s.entry typeName = some entry) {val : Value} {msg : Message (UserMessage V)}
    (hmsg : serde.decode entry.messageType val = some msg) :
    s.tryDeserializeMessage serde typeName val = (.value (.ok msg), s) := by
  rw [tryDeserializeMessage_known h hentry, RegistryEntry.deserialize, hmsg]
  obtain ⟨ids, ⟨m, q⟩⟩ := s
  have hq : q = false := h
  rw [hq]
  rfl

/-! ## Registrations -/

theorem registerRemoteMessage_eq (h : s.Usable) (M : RemoteType τ)
    (typeName : String) : s.registerRemoteMessage M typeName = (.value (),
      { typeidToName := .new
          (some ((s.typeidToName.content.getD ∅).insert M.typeId typeName))
        registry := .new (some ((s.registry.content.getD ∅).insert typeName
          { messageType := M })) }) := by
  simp [registerRemoteMessage, Cell.hold_clean h.names, Cell.hold_clean h.entries,
    Cell.new]

theorem Usable.register (h : s.Usable) (M : RemoteType τ) (typeName : String) :
    (s.registerRemoteMessage M typeName).2.Usable := by
  rw [registerRemoteMessage_eq h]
  exact ⟨rfl, rfl⟩

theorem nameOf_register (h : s.Usable) (M : RemoteType τ) (typeName : String)
    (id : TypeId τ) : (s.registerRemoteMessage M typeName).2.nameOf id =
      if id = M.typeId then some typeName else s.nameOf id := by
  rw [registerRemoteMessage_eq h]
  simp only [nameOf, Cell.new, Option.bind_some]
  split
  next hid => rw [hid, AList.lookup_insert]
  next hid =>
    rw [AList.lookup_insert_ne hid]
    cases s.typeidToName.content <;> rfl

theorem entry_register (h : s.Usable) (M : RemoteType τ) (typeName other : String) :
    (s.registerRemoteMessage M typeName).2.entry other =
      if other = typeName then some { messageType := M } else s.entry other := by
  rw [registerRemoteMessage_eq h]
  simp only [entry, Cell.new, Option.bind_some]
  split
  next hname => rw [hname, AList.lookup_insert]
  next hname =>
    rw [AList.lookup_insert_ne hname]
    cases s.registry.content <;> rfl

/-- The statics after a list of registrations. -/
def ofRegistrations (regs : List (RemoteType τ × String)) : Registries τ :=
  regs.foldl (fun s reg => (s.registerRemoteMessage reg.1 reg.2).2) new

/-- What the statics say about the registrations. -/
structure Records (s : Registries τ) (regs : List (RemoteType τ × String)) :
    Prop where
  usable : s.Usable
  /-- A name that a type has was registered for it. -/
  named : ∀ {M typeName}, s.nameOf M.typeId = some typeName → (M, typeName) ∈ regs
  /-- An entry was registered under its name. -/
  entered : ∀ {typeName entry}, s.entry typeName = some entry →
    (entry.messageType, typeName) ∈ regs
  /-- A registered name has an entry, and a registered type a name. -/
  known : ∀ {M typeName}, (M, typeName) ∈ regs →
    (s.entry typeName).isSome ∧ (s.nameOf M.typeId).isSome

theorem records_new : Records (new : Registries τ) [] where
  usable := usable_new
  named h := by simp [nameOf, new, Cell.new] at h
  entered h := by simp [entry, new, Cell.new] at h
  known h := nomatch h

theorem Records.register {regs : List (RemoteType τ × String)}
    (h : s.Records regs) (M : RemoteType τ) (typeName : String) :
    (s.registerRemoteMessage M typeName).2.Records (regs ++ [(M, typeName)]) where
  usable := h.usable.register M typeName
  named {N other} hname := by
    rw [nameOf_register h.usable] at hname
    split at hname
    next hid =>
      obtain rfl := Option.some.inj hname
      simp [RemoteType.typeId_inj hid]
    next => exact List.mem_append_left _ (h.named hname)
  entered {other entry} hentry := by
    rw [entry_register h.usable] at hentry
    split at hentry
    next heq =>
      obtain rfl := Option.some.inj hentry
      simp [heq]
    next => exact List.mem_append_left _ (h.entered hentry)
  known {N other} hmem := by
    rw [entry_register h.usable, nameOf_register h.usable]
    rcases List.mem_append.mp hmem with hmem | hmem
    · obtain ⟨hentry, hname⟩ := h.known hmem
      constructor <;> split <;> first | rfl | assumption
    · obtain ⟨rfl, rfl⟩ := Prod.mk.inj (List.mem_singleton.mp hmem)
      simp

theorem Records.foldl {regs : List (RemoteType τ × String)} (h : s.Records regs)
    (more : List (RemoteType τ × String)) :
    (more.foldl (fun s reg => (s.registerRemoteMessage reg.1 reg.2).2) s).Records
      (regs ++ more) := by
  induction more generalizing s regs with
  | nil => simpa using h
  | cons reg more ih => simpa using ih (h.register reg.1 reg.2)

theorem records_ofRegistrations (regs : List (RemoteType τ × String)) :
    (ofRegistrations regs).Records regs :=
  records_new.foldl regs

/-- No two types share a name. -/
def OwnNames (regs : List (RemoteType τ × String)) : Prop :=
  ∀ x ∈ regs, ∀ y ∈ regs, x.2 = y.2 → x.1 = y.1

instance (regs : List (RemoteType τ × String)) : Decidable (OwnNames regs) :=
  inferInstanceAs (Decidable (∀ x ∈ regs, ∀ y ∈ regs, x.2 = y.2 → x.1 = y.1))

/-- Under its name a type finds its own entry. -/
theorem Records.entry_eq {regs : List (RemoteType τ × String)} (h : s.Records regs)
    (hown : OwnNames regs) {M : RemoteType τ} {typeName : String}
    (hmem : (M, typeName) ∈ regs) :
    s.entry typeName = some { messageType := M } := by
  obtain ⟨⟨N⟩, hentry⟩ := Option.isSome_iff_exists.mp (h.known hmem).1
  have hN : N = M := hown _ (h.entered hentry) _ hmem rfl
  rw [hentry, hN]

end Registries

end Actors
