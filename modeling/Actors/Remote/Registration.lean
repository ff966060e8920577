import Actors.Lib.Lists
import Actors.Lib.Machine
import Actors.Remote.Wire

/-!
# Registering types while messages are sent

`register_remote_message` writes `TYPEID_TO_NAME`, lets go of it, and then writes
`REGISTRY`.  `send_to` reads the two in the same order.  A thread that sends a
message between the two writes gets the name of its type and finds no entry under
it: `serialize_message` panics, while it holds `REGISTRY`.

The machine has any number of threads.  Each of its steps is one section in which
a mutex is held.  `safe_iff` says for every run that no send has panicked exactly
when no thread was in `serialize_message` at a moment at which the first
registration of the type of its message was half done.
-/

namespace Actors

open Concur

variable {τ : Type} {V : τ → Type}

namespace Registries

variable [DecidableEq τ]

/-- The first section of `register_remote_message`. -/
def writeName (s : Registries τ) (M : RemoteType τ) (typeName : String) :
    Outcome Unit × Registries τ :=
  let (o, typeidToName) := s.typeidToName.hold fun map =>
    (.value (), some ((map.getD ∅).insert M.typeId typeName))
  (o, { s with typeidToName })

/-- The second section. -/
def writeEntry (s : Registries τ) (M : RemoteType τ) (typeName : String) :
    Outcome Unit × Registries τ :=
  let (o, registry) := s.registry.hold fun map =>
    (.value (), some ((map.getD ∅).insert typeName { messageType := M }))
  (o, { s with registry })

/-- `register_remote_message` is its two sections. -/
theorem registerRemoteMessage_sections (s : Registries τ) (M : RemoteType τ)
    (typeName : String) : s.registerRemoteMessage M typeName =
      match s.writeName M typeName with
      | (.panic why, s) => (.panic why, s)
      | (.value _, s) => s.writeEntry M typeName := by
  cases hnames : s.typeidToName.poisoned with
  | true => simp [registerRemoteMessage, writeName, Cell.hold_poisoned hnames]
  | false => simp [registerRemoteMessage, writeName, writeEntry,
      Cell.hold_clean hnames]

theorem writeName_eq {s : Registries τ} (h : s.Usable) (M : RemoteType τ)
    (typeName : String) : ∃ s', s.writeName M typeName = (.value (), s') ∧
      s'.Usable ∧ (∀ other, s'.entry other = s.entry other) ∧
      ∀ id, s'.nameOf id = if id = M.typeId then some typeName else s.nameOf id := by
  obtain ⟨⟨ids, p⟩, registry⟩ := s
  have hp : p = false := h.names
  subst hp
  refine ⟨_, rfl, ⟨rfl, h.entries⟩, fun _ => rfl, fun id => ?_⟩
  by_cases hid : id = M.typeId
  · rw [if_pos hid, hid]
    exact AList.lookup_insert _
  · rw [if_neg hid]
    refine (AList.lookup_insert_ne hid).trans ?_
    cases ids <;> rfl

theorem writeEntry_eq {s : Registries τ} (h : s.Usable) (M : RemoteType τ)
    (typeName : String) : ∃ s', s.writeEntry M typeName = (.value (), s') ∧
      s'.Usable ∧ (∀ id, s'.nameOf id = s.nameOf id) ∧
      ∀ other, s'.entry other =
        if other = typeName then some { messageType := M } else s.entry other := by
  obtain ⟨names, ⟨map, p⟩⟩ := s
  have hp : p = false := h.entries
  subst hp
  refine ⟨_, rfl, ⟨h.names, rfl⟩, fun _ => rfl, fun other => ?_⟩
  by_cases hname : other = typeName
  · rw [if_pos hname, hname]
    exact AList.lookup_insert _
  · rw [if_neg hname]
    refine (AList.lookup_insert_ne hname).trans ?_
    cases map <;> rfl

end Registries

/-! ## The machine -/

/-- Where a thread stands, between two sections. -/
inductive RegistryPc (V : τ → Type) where
  | idle
  /-- In `register_remote_message::<M>`: the type has its name, and the entry is
  not written yet. -/
  | registering (M : RemoteType τ)
  /-- In `send_to`: `get_type_name` has returned this name. -/
  | sending (msg : Message (UserMessage V)) (typeName : String)
  /-- `get_type_name` has returned `None`, and `get_message_type_name` has
  panicked without holding a mutex. -/
  | unregistered
  /-- A panic in a section. -/
  | panicked (why : Panic)

/-- The type that the thread has half registered. -/
def RegistryPc.halfDone : RegistryPc V → Option (RemoteType τ)
  | .registering M => some M
  | _ => none

/-- The message that the thread is about to serialize. -/
def RegistryPc.message : RegistryPc V → Option (Message (UserMessage V))
  | .sending msg _ => some msg
  | _ => none

/-- The statics, and the threads that use them. -/
structure RegistryThreads (V : τ → Type) where
  registries : Registries τ
  threads : List (RegistryPc V)
  /-- The types whose registration was completed. -/
  registered : List (RemoteType τ)

/-- The labels of the machine.  `i` is the number of the thread. -/
inductive RegistryAction (V : τ → Type) where
  | writeName (i : Nat) (M : RemoteType τ)
  | writeEntry (i : Nat)
  | getName (i : Nat) (msg : Message (UserMessage V))
  | serialize (i : Nat)

namespace RegistryThreads

/-- `n` threads, before anything is registered. -/
def new (n : Nat) : RegistryThreads V :=
  { registries := .new, threads := List.replicate n .idle, registered := [] }

/-- The types that some thread has half registered. -/
def halfDone (s : RegistryThreads V) : List (RemoteType τ) :=
  s.threads.filterMap RegistryPc.halfDone

/-- Thread `i` goes on. -/
def goOn (s : RegistryThreads V) (i : Nat) (registries : Registries τ)
    (pc : RegistryPc V) : RegistryThreads V :=
  { s with registries, threads := s.threads.set i pc }

variable [DecidableEq τ] (serde : Serde V) (names : RemoteType τ → String)

/-- One section.  Every type is registered under its own name. -/
def step (s : RegistryThreads V) : RegistryAction V → Option (RegistryThreads V)
  | .writeName i M =>
    match s.threads[i]? with
    | some .idle =>
      match s.registries.writeName M (names M) with
      | (.value _, registries) => some (s.goOn i registries (.registering M))
      | (.panic why, registries) => some (s.goOn i registries (.panicked why))
    | _ => none
  | .writeEntry i =>
    match s.threads[i]? with
    | some (.registering M) =>
      match s.registries.writeEntry M (names M) with
      | (.value _, registries) =>
        some { s.goOn i registries .idle with registered := s.registered ++ [M] }
      | (.panic why, registries) => some (s.goOn i registries (.panicked why))
    | _ => none
  | .getName i msg =>
    match s.threads[i]? with
    | some .idle =>
      match s.registries.getTypeName msg with
      | (.value (some typeName), registries) =>
        some (s.goOn i registries (.sending msg typeName))
      | (.value none, registries) => some (s.goOn i registries .unregistered)
      | (.panic why, registries) => some (s.goOn i registries (.panicked why))
    | _ => none
  | .serialize i =>
    match s.threads[i]? with
    | some (.sending msg typeName) =>
      match s.registries.serializeMessage serde msg typeName with
      | (.value _, registries) => some (s.goOn i registries .idle)
      | (.panic why, registries) => some (s.goOn i registries (.panicked why))
    | _ => none

/-- Any number of threads. -/
def machine : Machine (RegistryThreads V) (RegistryAction V) :=
  .ofNext (fun s => ∃ n, s = new n) (step serde names)

/-- No thread has panicked in a section. -/
def Safe (s : RegistryThreads V) : Prop :=
  ∀ pc ∈ s.threads, ∀ why, pc ≠ .panicked why

/-- The `Serialize` of a message that is sent does not fail. -/
def Writes (_ : RegistryThreads V) : RegistryAction V → Prop
  | .getName _ msg => (serde.encode msg).isSome
  | _ => True

/-- A thread that serializes a message does not do so while the type of the
message is half registered and was never registered before. -/
def Timely (s : RegistryThreads V) : RegistryAction V → Prop
  | .serialize i => ∀ pc ∈ s.threads[i]?, ∀ msg ∈ pc.message, ∀ M ∈ s.halfDone,
      msg.typeId = M.typeId → M ∈ s.registered
  | _ => True

section Decide

instance (s : RegistryThreads V) (a : RegistryAction V) :
    Decidable (Writes serde s a) :=
  match a with
  | .getName _ msg => inferInstanceAs (Decidable ((serde.encode msg).isSome = true))
  | .writeName _ _ | .writeEntry _ | .serialize _ => isTrue trivial

instance (s : RegistryThreads V) (a : RegistryAction V) : Decidable (s.Timely a) :=
  match a with
  | .serialize i => inferInstanceAs (Decidable (∀ pc ∈ s.threads[i]?,
      ∀ msg ∈ pc.message, ∀ M ∈ s.halfDone, msg.typeId = M.typeId →
        M ∈ s.registered))
  | .writeName _ _ | .writeEntry _ | .getName _ _ => isTrue trivial

end Decide

/-! ## What holds until a section panics -/

/-- The type is registered, or half registered. -/
def Begun (s : RegistryThreads V) (M : RemoteType τ) : Prop :=
  M ∈ s.registered ∨ .registering M ∈ s.threads

/-- What the two maps and the threads know about each other. -/
structure Sound (s : RegistryThreads V) : Prop where
  usable : s.registries.Usable
  safe : s.Safe
  named : ∀ id typeName, s.registries.nameOf id = some typeName →
    ∃ M, id = M.typeId ∧ typeName = names M ∧ s.Begun M
  entered : ∀ M ∈ s.registered,
    s.registries.entry (names M) = some { messageType := M }
  owned : ∀ typeName entry, s.registries.entry typeName = some entry →
    typeName = names entry.messageType ∧ entry.messageType ∈ s.registered
  sending : ∀ pc ∈ s.threads, ∀ msg typeName, pc = .sending msg typeName →
    (serde.encode msg).isSome ∧
      ∃ M, msg.typeId = M.typeId ∧ typeName = names M ∧ s.Begun M

omit [DecidableEq τ] in
theorem mem_halfDone {s : RegistryThreads V} {M : RemoteType τ} :
    M ∈ s.halfDone ↔ .registering M ∈ s.threads := by
  rw [halfDone, List.mem_filterMap]
  constructor
  · rintro ⟨pc, hpc, hM⟩
    cases pc with
    | registering N =>
      rw [RegistryPc.halfDone, Option.some.injEq] at hM
      exact hM ▸ hpc
    | _ => simp [RegistryPc.halfDone] at hM
  · exact fun h => ⟨_, h, rfl⟩

theorem sound_new (n : Nat) : Sound serde names (new n : RegistryThreads V) := by
  have hidle : ∀ pc ∈ (new n : RegistryThreads V).threads, pc = .idle :=
    fun pc hpc => List.eq_of_mem_replicate hpc
  refine ⟨Registries.usable_new, fun pc hpc why => ?_, ?_, ?_, ?_,
    fun pc hpc msg typeName h => ?_⟩
  · rw [hidle pc hpc]
    simp
  · simp [new, Registries.new, Registries.nameOf, Cell.new]
  · simp [new]
  · simp [new, Registries.new, Registries.entry, Cell.new]
  · rw [hidle pc hpc] at h
    simp at h

variable {serde names} {s : RegistryThreads V} {i : Nat} {pc pc' : RegistryPc V}

omit [DecidableEq τ] in
/-- A thread that was not registering a type has half registered none. -/
theorem begun_goOn (hpc : s.threads[i]? = some pc) (hout : pc.halfDone = none)
    (registries : Registries τ) (pc' : RegistryPc V) {M : RemoteType τ}
    (h : s.Begun M) : (s.goOn i registries pc').Begun M := by
  refine h.imp_right fun hmem => ?_
  obtain ⟨j, hj⟩ := List.mem_iff_getElem?.mp hmem
  have hij : i ≠ j := by
    rintro rfl
    rw [hpc, Option.some.injEq] at hj
    simp [hj, RegistryPc.halfDone] at hout
  refine List.mem_iff_getElem?.mpr ⟨j, ?_⟩
  rw [goOn, List.getElem?_set_ne hij]
  exact hj

/-- A step of a thread that leaves the registries alone. -/
theorem sound_goOn (h : Sound serde names s) (hpc : s.threads[i]? = some pc)
    (hout : pc.halfDone = none) (hsafe : ∀ why, pc' ≠ .panicked why)
    (hsending : ∀ msg typeName, pc' = .sending msg typeName →
      (serde.encode msg).isSome ∧
        ∃ M, msg.typeId = M.typeId ∧ typeName = names M ∧ s.Begun M) :
    Sound serde names (s.goOn i s.registries pc') := by
  have hbegun : ∀ M, s.Begun M → (s.goOn i s.registries pc').Begun M :=
    fun M => begun_goOn hpc hout s.registries pc'
  refine ⟨h.usable, forall_mem_set h.safe hsafe, ?_, h.entered, h.owned, ?_⟩
  · intro id typeName hname
    obtain ⟨M, hM, hn, hb⟩ := h.named id typeName hname
    exact ⟨M, hM, hn, hbegun M hb⟩
  · refine forall_mem_set (fun x hx msg typeName hmsg => ?_)
      fun msg typeName hmsg => ?_
    · obtain ⟨hv, M, hM, hn, hb⟩ := h.sending x hx msg typeName hmsg
      exact ⟨hv, M, hM, hn, hbegun M hb⟩
    · obtain ⟨hv, M, hM, hn, hb⟩ := hsending msg typeName hmsg
      exact ⟨hv, M, hM, hn, hbegun M hb⟩

/-- The first section of a registration. -/
theorem sound_writeName (h : Sound serde names s) {M : RemoteType τ}
    {registries : Registries τ} (hpc : s.threads[i]? = some .idle)
    (hwrite : s.registries.writeName M (names M) = (.value (), registries)) :
    Sound serde names (s.goOn i registries (.registering M)) := by
  obtain ⟨r, hr, husable, hentry, hname⟩ :=
    Registries.writeName_eq h.usable M (names M)
  rw [hwrite, Prod.mk.injEq] at hr
  obtain ⟨-, rfl⟩ := hr
  have hlen := (List.getElem?_eq_some_iff.mp hpc).1
  have hbegun : ∀ N, s.Begun N → (s.goOn i registries (.registering M)).Begun N :=
    fun N => begun_goOn hpc rfl registries _
  refine ⟨husable, forall_mem_set h.safe (by simp), ?_, ?_, ?_, ?_⟩
  · intro id typeName hid
    rw [goOn, hname] at hid
    split at hid
    · rename_i hM
      exact ⟨M, hM, (Option.some.inj hid).symm, Or.inr (List.mem_set hlen _)⟩
    · obtain ⟨N, hN, hn, hb⟩ := h.named id typeName hid
      exact ⟨N, hN, hn, hbegun N hb⟩
  · intro N hN
    rw [goOn, hentry]
    exact h.entered N hN
  · intro typeName entry he
    rw [goOn, hentry] at he
    exact h.owned typeName entry he
  · refine forall_mem_set (fun x hx msg typeName hmsg => ?_) (by simp)
    obtain ⟨hv, N, hN, hn, hb⟩ := h.sending x hx msg typeName hmsg
    exact ⟨hv, N, hN, hn, hbegun N hb⟩

/-- The second section. -/
theorem sound_writeEntry (hnames : Function.Injective names)
    (h : Sound serde names s) {M : RemoteType τ} {registries : Registries τ}
    (hpc : s.threads[i]? = some (.registering M))
    (hwrite : s.registries.writeEntry M (names M) = (.value (), registries)) :
    Sound serde names { s.goOn i registries .idle with
      registered := s.registered ++ [M] } := by
  obtain ⟨r, hr, husable, hname, hentry⟩ :=
    Registries.writeEntry_eq h.usable M (names M)
  rw [hwrite, Prod.mk.injEq] at hr
  obtain ⟨-, rfl⟩ := hr
  have hbegun : ∀ N, s.Begun N → Begun { s.goOn i registries .idle with
      registered := s.registered ++ [M] } N := by
    rintro N (hN | hN)
    · exact Or.inl (List.mem_append_left _ hN)
    · obtain ⟨j, hj⟩ := List.mem_iff_getElem?.mp hN
      by_cases hij : i = j
      · subst hij
        rw [hpc, Option.some.injEq, RegistryPc.registering.injEq] at hj
        exact Or.inl (by simp [hj])
      · refine Or.inr (List.mem_iff_getElem?.mpr ⟨j, ?_⟩)
        rw [goOn, List.getElem?_set_ne hij]
        exact hj
  refine ⟨husable, forall_mem_set h.safe (by simp), ?_, ?_, ?_, ?_⟩
  · intro id typeName hid
    rw [goOn, hname] at hid
    obtain ⟨N, hN, hn, hb⟩ := h.named id typeName hid
    exact ⟨N, hN, hn, hbegun N hb⟩
  · refine forall_mem_snoc (fun N hN => ?_) ?_
    · rw [goOn, hentry]
      split
      · rename_i heq
        rw [hnames heq]
      · exact h.entered N hN
    · rw [goOn, hentry, if_pos rfl]
  · intro typeName entry he
    rw [goOn, hentry] at he
    split at he
    · rename_i heq
      rw [Option.some.injEq] at he
      subst he
      exact ⟨heq, by simp⟩
    · obtain ⟨hn, hmem⟩ := h.owned typeName entry he
      exact ⟨hn, List.mem_append_left _ hmem⟩
  · refine forall_mem_set (fun x hx msg typeName hmsg => ?_) (by simp)
    obtain ⟨hv, N, hN, hn, hb⟩ := h.sending x hx msg typeName hmsg
    exact ⟨hv, N, hN, hn, hbegun N hb⟩

/-- `serialize_message` finds the entry if and only if the registration of the
type is complete. -/
theorem panicked_serialize_iff (h : Sound serde names s)
    {msg : Message (UserMessage V)} {typeName : String}
    (hpc : s.threads[i]? = some (.sending msg typeName)) :
    (s.registries.serializeMessage serde msg typeName).1.panicked = true ↔
      ¬ s.Timely (.serialize i) := by
  obtain ⟨hv, M, hM, rfl, hbegun⟩ :=
    h.sending _ (List.mem_of_getElem? hpc) msg typeName rfl
  have htimely : s.Timely (.serialize i) ↔ M ∈ s.registered := by
    simp only [Timely, hpc, Option.mem_def, Option.some.injEq, forall_eq',
      RegistryPc.message, mem_halfDone]
    constructor
    · intro ht
      exact hbegun.elim id fun hhalf => ht M hhalf hM
    · intro hdone N _ hN
      rw [← RemoteType.typeId_inj (hM.symm.trans hN)]
      exact hdone
  rw [htimely, Registries.panicked_serializeMessage h.usable]
  constructor
  · intro hno hdone
    exact hno _ (h.entered M hdone) ⟨hM, hv⟩
  · intro hhalf entry hentry henc
    have hsame : M = entry.messageType :=
      RemoteType.typeId_inj (hM.symm.trans henc.1)
    exact hhalf (hsame ▸ (h.owned (names M) entry hentry).2)

/-- A timely step of a sound state. -/
theorem sound_step (hnames : Function.Injective names) (h : Sound serde names s)
    {s' : RegistryThreads V} {a : RegistryAction V} (hwrites : s.Writes serde a)
    (htimely : s.Timely a) (hstep : s.step serde names a = some s') :
    Sound serde names s' := by
  cases a with
  | writeName i M =>
    obtain ⟨r, hwrite, -⟩ := Registries.writeName_eq h.usable M (names M)
    simp only [step] at hstep
    split at hstep
    · rename_i hpc
      rw [hwrite, Option.some.injEq] at hstep
      exact hstep ▸ sound_writeName h hpc hwrite
    · simp at hstep
  | writeEntry i =>
    simp only [step] at hstep
    split at hstep
    · rename_i M hpc
      obtain ⟨r, hwrite, -⟩ := Registries.writeEntry_eq h.usable M (names M)
      rw [hwrite, Option.some.injEq] at hstep
      exact hstep ▸ sound_writeEntry hnames h hpc hwrite
    · simp at hstep
  | getName i msg =>
    simp only [step, Registries.getTypeName_eq h.usable] at hstep
    split at hstep
    · rename_i hpc
      cases hname : s.registries.nameOf msg.typeId with
      | none =>
        rw [hname, Option.some.injEq] at hstep
        exact hstep ▸ sound_goOn h hpc rfl (by simp) (by simp)
      | some typeName =>
        rw [hname, Option.some.injEq] at hstep
        refine hstep ▸ sound_goOn h hpc rfl (by simp) fun msg' n heq => ?_
        rw [RegistryPc.sending.injEq] at heq
        obtain ⟨rfl, rfl⟩ := heq
        exact ⟨hwrites, h.named _ _ hname⟩
    · simp at hstep
  | serialize i =>
    simp only [step] at hstep
    split at hstep
    · rename_i msg typeName hpc
      obtain ⟨hv, M, hM, rfl, hbegun⟩ :=
        h.sending _ (List.mem_of_getElem? hpc) msg typeName rfl
      have hdone : M ∈ s.registered := hbegun.elim id fun hhalf =>
        htimely _ hpc msg rfl M (mem_halfDone.mpr hhalf) hM
      obtain ⟨v, hv⟩ := Option.isSome_iff_exists.mp hv
      rw [Registries.serializeMessage_eq h.usable (h.entered M hdone) hM hv,
        Option.some.injEq] at hstep
      exact hstep ▸ sound_goOn h hpc rfl (by simp) (by simp)
    · simp at hstep

/-- An untimely step is a panic. -/
theorem not_safe_of_untimely (h : Sound serde names s) {s' : RegistryThreads V}
    {a : RegistryAction V} (huntimely : ¬ s.Timely a)
    (hstep : s.step serde names a = some s') : ¬ s'.Safe := by
  cases a with
  | serialize i =>
    simp only [step] at hstep
    split at hstep
    · rename_i msg typeName hpc
      have hpanicked := (panicked_serialize_iff h hpc).mpr huntimely
      have hlen := (List.getElem?_eq_some_iff.mp hpc).1
      split at hstep
      · rename_i heq
        rw [heq] at hpanicked
        simp at hpanicked
      · rename_i why registries heq
        rw [Option.some.injEq] at hstep
        intro hsafe
        refine hsafe (.panicked why) ?_ why rfl
        rw [← hstep, goOn]
        exact List.mem_set hlen _
    · simp at hstep
  | _ => exact absurd trivial huntimely

/-- One thread moves, and it has not panicked. -/
theorem threads_step {s' : RegistryThreads V} {a : RegistryAction V}
    (hstep : s.step serde names a = some s') :
    ∃ (i : Nat) (pc pc' : RegistryPc V), s.threads[i]? = some pc ∧
      (∀ why, pc ≠ .panicked why) ∧ s'.threads = s.threads.set i pc' := by
  cases a with
  | writeName i M | writeEntry i | getName i M | serialize i =>
    simp only [step] at hstep
    split at hstep
    · rename_i hpc
      repeat' split at hstep
      all_goals
        rw [Option.some.injEq] at hstep
        subst hstep
        exact ⟨i, _, _, hpc, by simp, rfl⟩
    · simp at hstep

/-- A panic is for ever. -/
theorem safe_of_step {s' : RegistryThreads V} {a : RegistryAction V}
    (hstep : s.step serde names a = some s') (h : s'.Safe) : s.Safe := by
  obtain ⟨i, pc, pc', hpc, hsafe, hthreads⟩ := threads_step hstep
  intro x hx
  obtain ⟨j, hj⟩ := List.mem_iff_getElem?.mp hx
  by_cases hij : i = j
  · subst hij
    rw [hpc, Option.some.injEq] at hj
    exact hj ▸ hsafe
  · refine h x (List.mem_iff_getElem?.mpr ⟨j, ?_⟩)
    rw [hthreads, List.getElem?_set_ne hij]
    exact hj

/-- In every run of any number of threads that register types, each under a name
of its own, and send messages: no thread has panicked if and only if no thread
has serialized a message while the first registration of its type was half
done. -/
theorem safe_iff (hnames : Function.Injective names)
    {tr : List (RegistryThreads V × RegistryAction V)}
    (h : (machine serde names).Run (Writes serde) tr s) :
    s.Safe ↔ ∀ x ∈ tr, Timely x.1 x.2 := by
  have hiff : ((∀ x ∈ tr, x.1.Safe) ∧ s.Safe) ↔ ∀ x ∈ tr, Timely x.1 x.2 := by
    refine h.forall_iff (I := Sound serde names) ?_ ?_ ?_ ?_
    · rintro s ⟨n, rfl⟩
      exact sound_new serde names n
    · intro s hs
      exact hs.safe
    · intro s a s' hs hwrites htimely hstep
      exact sound_step hnames hs hwrites htimely hstep
    · intro s a s' _ hs _ hstep hsafe
      by_contra hno
      exact not_safe_of_untimely hs hno hstep hsafe
  constructor
  · intro hsafe
    have hbefore : ∀ x ∈ tr, x.1.Safe := by
      refine h.forall_of_last (P := Safe) ?_ hsafe
      intro s a s' hstep hs'
      exact safe_of_step hstep hs'
    exact hiff.mp ⟨hbefore, hsafe⟩
  · intro htimely
    exact (hiff.mpr htimely).2

theorem run_after (serde : Serde V) (names : RemoteType τ → String)
    (n : Nat) (as : List (RegistryAction V))
    (h : (Machine.exec (Machine.guarded (Writes serde) (step serde names)) (new n)
      as).isSome) :
    (machine serde names).Run (Writes serde)
      (Machine.trace (step serde names) (new n) as)
      ((Machine.exec (Machine.guarded (Writes serde) (step serde names)) (new n)
        as).get h) :=
  Machine.run_exec_get ⟨n, rfl⟩ as h

/-- The names of one type of messages, and of `Reject`. -/
def flagNames : RemoteType Unit → String
  | .reject => "Reject"
  | .user _ => "Flag"

theorem flagNames_injective : Function.Injective flagNames := by
  intro M N h
  cases M <;> cases N <;> first | rfl | simp [flagNames] at h

/-- A thread gets the name of a message between the two sections of another
thread, and serializes the message after them. -/
def sendInTime : List (RegistryAction fun _ : Unit => Bool) :=
  [.writeName 0 (.user ()), .getName 1 (.user ⟨(), true⟩), .writeEntry 0,
    .serialize 1]

theorem safe_late : ∃ s : RegistryThreads fun _ : Unit => Bool,
    s.threads.length = 2 ∧ s.Safe := by
  have hrun := run_after flagSerde flagNames 2 sendInTime (by decide)
  exact ⟨_, by decide, (safe_iff flagNames_injective hrun).mpr (by decide)⟩

/-- The same without the second section: the entry is not there, and the panic
poisons `REGISTRY`. -/
theorem safe_fails : ¬ ∀ s : RegistryThreads fun _ : Unit => Bool,
    (machine flagSerde flagNames).Reach (Writes flagSerde) s → s.Safe := by
  intro h
  have hrun := run_after flagSerde flagNames 2
    [.writeName 0 (.user ()), .getName 1 (.user ⟨(), true⟩), .serialize 1]
    (by decide)
  have hsafe := h _ hrun.reach
  exact hsafe _ (List.mem_of_getElem? (show _[1]? = some _ from rfl)) _ rfl

end RegistryThreads

end Actors
