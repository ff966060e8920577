import Actors.Group.Locks
import Actors.Lib.Lists

/-!
# The life of a member

`start` calls `init()` on the members and `wait` calls `end()`, both on the
thread of the caller, while `process_message` runs on the workers.  The
members' locks keep these apart in time, but they do not order them: nothing
in `wait` asks whether a worker can still dispatch to the member, or whether
`end()` has been called on it before.

`EndsLast` is what is missing.  `respectsLifecycle` shows that it is enough:
in every run in which `wait` calls `end()` on a member only once, and only
after every worker that has the member in its map has left its loop, all
members live the documented life, whatever is sent and whichever handlers
panic.
-/

namespace Actors

open Concur

variable {μ : Type}

/-- `end()` has been called. -/
def Phase.over : Phase → Bool
  | .ending | .ended => true
  | _ => false

/-- The members that `start` has not initialized yet. -/
def MainPc.initTodo : MainPc → List Nat
  | .startInit todo | .initHook _ todo => todo
  | _ => []

/-- The members that `wait` has not called `end()` on yet. -/
def MainPc.endTodo : MainPc → List Nat
  | .waitEnd todo | .endHook _ todo => todo
  | _ => []

/-- In the loop of `wait` over the members. -/
def MainPc.ending : MainPc → Bool
  | .waitEnd _ => true
  | _ => false

/-- The phase of the member that the main thread is inside of. -/
def MainPc.hookPhase : MainPc → Phase
  | .initHook _ _ => .initing
  | _ => .ending

namespace Group

/-- `wait` calls `end()` on a member for the first time, and every worker that
has the member in its map has left its loop. -/
def EndsLast (g : Group μ) : Action μ → Prop
  | .mainLock m => g.main.ending = true → (m, .endBegin) ∉ g.history ∧
      ∀ w ∈ g.workers, m ∈ w.actors.values → w.pc.finished = true
  | _ => True

instance (g : Group μ) (a : Action μ) : Decidable (EndsLast g a) := by
  cases a <;> unfold EndsLast <;> infer_instance

/-- The phase of a member, by the thread that has it locked. -/
def Expected (main : MainPc) : Option ThreadId → Phase → Prop
  | none, p => p = .fresh ∨ p = .ready ∨ p = .ended
  | some .main, p => p = main.hookPhase
  | some (.worker _), p => p = .processing
  | some (.client _), _ => False

/-- Every member is in the phase that its place and its lock word say. -/
structure Lives (g : Group μ) : Prop where
  phases : ∀ m, Expected g.main (ownerOf g.members m) (phaseOf g.history m)
  built : g.actorsBuilder.values.Nodup
  bound : ∀ m ∈ g.actorsBuilder.values, m < g.members.length
  todo : g.main.initTodo.Nodup
  fresh : ∀ m, m ∈ g.actorsBuilder.values ∨ m ∈ g.main.initTodo ∨
    g.members.length ≤ m → phaseOf g.history m = .fresh
  known : ∀ m ∈ g.actors.values, m ∈ g.main.initTodo ∨
    phaseOf g.history m ≠ .fresh ∨ g.main = .panicked
  emptied : g.main.starting = true → g.actorsBuilder.values = []
  young : g.main.starting = true →
    ∀ m ∈ g.actors.values, (phaseOf g.history m).over = false
  mapped : ∀ w ∈ g.workers, ∀ m ∈ w.actors.values,
    phaseOf g.history m ≠ .fresh ∧
      ((phaseOf g.history m).over = true → w.pc.finished = true)
  ends : ∀ m ∈ g.main.endTodo, m ∈ g.actors.values

/-! ## Phases under a step -/

/-- The two histories agree on who is fresh and on whom `end()` has been
called. -/
def SameStages (h h' : History) : Prop :=
  ∀ m, (phaseOf h' m = .fresh ↔ phaseOf h m = .fresh) ∧
    (phaseOf h' m).over = (phaseOf h m).over

theorem sameStages_refl (h : History) : SameStages h h :=
  fun _ => ⟨Iff.rfl, rfl⟩

theorem sameStages_append {h : History} {m : Nat} {e : LifeEvent}
    (hfresh : (phaseOf h m).next e = .fresh ↔ phaseOf h m = .fresh)
    (hover : ((phaseOf h m).next e).over = (phaseOf h m).over) :
    SameStages h (h ++ [(m, e)]) := by
  intro k
  rw [phaseOf_append]
  split
  · rename_i hk
    exact hk ▸ ⟨hfresh, hover⟩
  · exact ⟨Iff.rfl, rfl⟩

section Phases

variable {owner : Nat → Option ThreadId} {h : History} {main main' : MainPc}

/-- The main thread moves, and has no member locked. -/
theorem expected_main (hp : ∀ k, Expected main (owner k) (phaseOf h k))
    (hno : ∀ k, owner k ≠ some .main) :
    ∀ k, Expected main' (owner k) (phaseOf h k) := by
  intro k
  have hk := hp k
  cases ho : owner k with
  | none => rwa [ho] at hk
  | some t =>
    rw [ho] at hk
    cases t with
    | main => exact absurd ho (hno k)
    | worker i => exact hk
    | client i => exact hk

/-- Something happens to member `m`. -/
theorem expected_event {m : Nat} {e : LifeEvent} {o : Option ThreadId}
    (hp : ∀ k, Expected main (owner k) (phaseOf h k))
    (hmain : main' = main ∨ ∀ k ≠ m, owner k ≠ some .main)
    (hm : Expected main' o ((phaseOf h m).next e)) :
    ∀ k, Expected main' (Function.update owner m o k)
      (phaseOf (h ++ [(m, e)]) k) := by
  intro k
  by_cases hk : k = m
  · subst hk
    simpa using hm
  · rw [Function.update_of_ne hk, phaseOf_append_of_ne _ hk]
    have hold := hp k
    rcases hmain with rfl | hno
    · exact hold
    · cases ho : owner k with
      | none => rwa [ho] at hold
      | some t =>
        rw [ho] at hold
        cases t with
        | main => exact absurd ho (hno k hk)
        | worker i => exact hold
        | client i => exact hold

end Phases

theorem MembersLocked.owner_ne_main {g : Group μ} (h : g.MembersLocked)
    (hout : g.main.inside = none) (k : Nat) :
    ownerOf g.members k ≠ some .main := by
  intro ho
  have hin := (h .main k).mpr ho
  simp [insideOf, hout] at hin

/-- A step after which nobody is in a new stage. -/
theorem Lives.frame {g g' : Group μ} (h : g.Lives)
    (hphases : ∀ m, Expected g'.main (ownerOf g'.members m)
      (phaseOf g'.history m))
    (hsame : SameStages g.history g'.history)
    (hlen : g'.members.length = g.members.length)
    (hbuilder : g'.actorsBuilder = g.actorsBuilder)
    (hactors : g'.actors = g.actors)
    (htodo : g'.main.initTodo = g.main.initTodo)
    (hstarting : g'.main.starting = true → g.main.starting = true)
    (hpanicked : g.main = .panicked → g'.main = .panicked)
    (hends : ∀ m ∈ g'.main.endTodo, m ∈ g.actors.values)
    (hmapped : ∀ w ∈ g'.workers, ∀ m ∈ w.actors.values,
      phaseOf g.history m ≠ .fresh ∧
        ((phaseOf g.history m).over = true → w.pc.finished = true)) :
    g'.Lives := by
  refine ⟨hphases, ?_, ?_, ?_, ?_, ?_, ?_, ?_, ?_, ?_⟩
  · rw [hbuilder]
    exact h.built
  · rw [hbuilder, hlen]
    exact h.bound
  · rw [htodo]
    exact h.todo
  · rw [hbuilder, htodo, hlen]
    exact fun m hm => (hsame m).1.mpr (h.fresh m hm)
  · rw [hactors, htodo]
    intro m hm
    rcases h.known m hm with hin | hne | hpan
    · exact Or.inl hin
    · exact Or.inr (Or.inl fun heq => hne ((hsame m).1.mp heq))
    · exact Or.inr (Or.inr (hpanicked hpan))
  · rw [hbuilder]
    exact fun hs => h.emptied (hstarting hs)
  · rw [hactors]
    exact fun hs m hm => (hsame m).2.trans (h.young (hstarting hs) m hm)
  · intro w hw m hm
    rw [(hsame m).2]
    exact ⟨fun heq => (hmapped w hw m hm).1 ((hsame m).1.mp heq),
      (hmapped w hw m hm).2⟩
  · rw [hactors]
    exact hends

/-- The main thread moves between two places where it has no member locked. -/
theorem Lives.mainStep {g g' : Group μ} {pc : MainPc} (h : g.Lives)
    (hlocked : g.MembersLocked) (hmain : g.main = pc)
    (heq : g' = { g with
      main := g'.main, calls := g'.calls
      endMark := g'.endMark, stopMark := g'.stopMark
      forwarders := g'.forwarders, sent := g'.sent, handles := g'.handles
      running := g'.running })
    (hout : pc.inside = none) (htodo : g'.main.initTodo = pc.initTodo)
    (hstarting : g'.main.starting = true → pc.starting = true)
    (hpanicked : pc = .panicked → g'.main = .panicked)
    (hends : ∀ m ∈ g'.main.endTodo, m ∈ g.actors.values) : g'.Lives := by
  subst hmain
  rw [heq]
  exact h.frame (expected_main h.phases (hlocked.owner_ne_main hout))
    (sameStages_refl _) rfl rfl rfl htodo hstarting hpanicked hends h.mapped

/-- The worker goes on, or it ends. -/
theorem Lives.mapped_set {g : Group μ} (h : g.Lives) {i : Nat} {w w' : Worker μ}
    (hw : g.workers[i]? = some w) (hactors : w'.actors = w.actors)
    (hfin : w.pc.finished = true → w'.pc.finished = true) :
    ∀ w1 ∈ g.workers.set i w', ∀ m ∈ w1.actors.values,
      phaseOf g.history m ≠ .fresh ∧
        ((phaseOf g.history m).over = true → w1.pc.finished = true) := by
  refine forall_mem_set h.mapped fun m hm => ?_
  rw [hactors] at hm
  obtain ⟨hne, hover⟩ := h.mapped w (List.mem_of_getElem? hw) m hm
  exact ⟨hne, fun ho => hfin (hover ho)⟩

/-- A step of a worker outside of the members. -/
theorem Lives.workerStep {g g' : Group μ} (h : g.Lives) {i : Nat}
    {w : Worker μ} {pc : WorkerPc μ} (hw : g.workers[i]? = some w)
    (hlive : w.pc.finished = false)
    (heq : g' = { g with
      workers := g.workers.set i { w with pc := pc }
      queue := g'.queue, receiver := g'.receiver, lost := g'.lost }) :
    g'.Lives := by
  rw [heq]
  exact { h with mapped := h.mapped_set hw rfl (by simp [hlive]) }

/-- `add` makes a fresh member. -/
theorem Lives.add {g g' : Group μ} (h : g.Lives) {mem : GroupMember}
    {name : String} (hidle : g.main = .idle) (hmem : mem.mutex.owner = none)
    (heq : g' = { g with
      members := g.members ++ [mem]
      actorsBuilder := g.actorsBuilder.insert name g.members.length
      forwarders := g'.forwarders, actorRefs := g'.actorRefs
      calls := g'.calls }) : g'.Lives := by
  have hnew : ∀ m ∈ HashMap.values (g.actorsBuilder.insert name g.members.length),
      m = g.members.length ∨ m ∈ g.actorsBuilder.values :=
    fun m hm => HashMap.mem_values_insert hm
  rw [heq]
  refine { h with phases := ?_, built := ?_, bound := ?_, fresh := ?_, emptied := ?_ }
  · simpa only [ownerOf_append hmem] using h.phases
  · refine HashMap.nodup_values_insert h.built name fun hmem => ?_
    exact Nat.lt_irrefl _ (h.bound _ hmem)
  · intro m hm
    rw [List.length_append, List.length_singleton]
    rcases hnew m hm with rfl | hold
    · exact Nat.lt_succ_self _
    · exact Nat.lt_succ_of_lt (h.bound m hold)
  · rintro m (hm | hm | hm)
    · rcases hnew m hm with rfl | hold
      · exact h.fresh _ (Or.inr (Or.inr le_rfl))
      · exact h.fresh m (Or.inl hold)
    · exact h.fresh m (Or.inr (Or.inl hm))
    · rw [List.length_append] at hm
      exact h.fresh m (Or.inr (Or.inr (Nat.le_of_add_right_le hm)))
  · simp [hidle, MainPc.starting]

/-- `start` takes over the members of the builder, all of them fresh. -/
theorem Lives.start {g g' : Group μ} (h : g.Lives) (hlocked : g.MembersLocked)
    (hidle : g.main = .idle)
    (heq : g' = { g with
      actors := g.actorsBuilder, actorsBuilder := ∅
      main := .startInit g.actorsBuilder.values, calls := g'.calls }) :
    g'.Lives := by
  have hout : g.main.inside = none := by rw [hidle]; rfl
  have hfresh : ∀ m ∈ g.actorsBuilder.values, phaseOf g.history m = .fresh :=
    fun m hm => h.fresh m (Or.inl hm)
  rw [heq]
  refine ⟨expected_main h.phases (hlocked.owner_ne_main hout), by simp, by simp,
    h.built, ?_, fun m hm => Or.inl hm, fun _ => rfl, ?_, h.mapped,
    by simp [MainPc.endTodo]⟩
  · rintro m (hm | hm | hm)
    · simp at hm
    · exact hfresh m hm
    · exact h.fresh m (Or.inr (Or.inr hm))
  · intro _ m hm
    rw [hfresh m hm]
    rfl

/-- `init()` begins. -/
theorem Lives.initEnter {g g' : Group μ} (h : g.Lives)
    (hlocked : g.MembersLocked) {m : Nat} {todo : List Nat}
    {mem mem' : GroupMember} (hmain : g.main = .startInit todo) (hm : m ∈ todo)
    (hmem : g.members[m]? = some mem) (howner : mem'.mutex.owner = some .main)
    (heq : g' = { g with
      members := g.members.set m mem', main := .initHook m (todo.erase m)
      history := g.history ++ [(m, .initBegin)] }) : g'.Lives := by
  have hout : g.main.inside = none := by rw [hmain]; rfl
  have htodo : g.main.initTodo = todo := by rw [hmain]; rfl
  have hstarting : g.main.starting = true := by rw [hmain]; rfl
  have hfresh : phaseOf g.history m = .fresh :=
    h.fresh m (Or.inr (Or.inl (htodo ▸ hm)))
  have hnodup : todo.Nodup := htodo ▸ h.todo
  have hself : phaseOf (g.history ++ [(m, .initBegin)]) m = .initing := by
    rw [phaseOf_append_self, hfresh]
    rfl
  rw [heq]
  refine ⟨?_, h.built, by simpa using h.bound, hnodup.erase m, ?_, ?_,
    fun _ => h.emptied hstarting, ?_, ?_, by simp [MainPc.endTodo]⟩
  · rw [ownerOf_set hmem, howner]
    refine expected_event h.phases (Or.inr fun k _ => hlocked.owner_ne_main hout k)
      ?_
    rw [hfresh]
    rfl
  · intro k hk
    have hkm : k ≠ m := by
      rintro rfl
      rcases hk with hk | hk | hk
      · simp [h.emptied hstarting] at hk
      · exact hnodup.not_mem_erase hk
      · rw [List.length_set] at hk
        exact absurd (List.getElem?_eq_some_iff.mp hmem).1 (Nat.not_lt.mpr hk)
    rw [phaseOf_append_of_ne _ hkm]
    refine h.fresh k (hk.imp_right (Or.imp ?_ ?_))
    · intro hin
      exact htodo.symm ▸ List.mem_of_mem_erase hin
    · simp
  · intro k hk
    by_cases hkm : k = m
    · subst hkm
      exact Or.inr (Or.inl (by simp [hself]))
    · rw [phaseOf_append_of_ne _ hkm]
      refine (h.known k hk).imp ?_ (Or.imp id (by simp [hmain]))
      intro hin
      exact (List.mem_erase_of_ne hkm).mpr (htodo ▸ hin)
  · intro _ k hk
    by_cases hkm : k = m
    · subst hkm
      rw [hself]
      rfl
    · rw [phaseOf_append_of_ne _ hkm]
      exact h.young hstarting k hk
  · intro w hw k hk
    have hkm : k ≠ m := by
      rintro rfl
      exact (h.mapped w hw k hk).1 hfresh
    rw [phaseOf_append_of_ne _ hkm]
    exact h.mapped w hw k hk

/-- `end()` begins, where `EndsLast` allows it. -/
theorem Lives.endEnter {g g' : Group μ} (h : g.Lives)
    (hlocked : g.MembersLocked) {m : Nat} {todo : List Nat}
    {mem mem' : GroupMember} (hmain : g.main = .waitEnd todo) (hm : m ∈ todo)
    (hmem : g.members[m]? = some mem) (hfree : mem.mutex.owner = none)
    (howner : mem'.mutex.owner = some .main)
    (hfirst : (m, .endBegin) ∉ g.history)
    (hgone : ∀ w ∈ g.workers, m ∈ w.actors.values → w.pc.finished = true)
    (heq : g' = { g with
      members := g.members.set m mem', main := .endHook m (todo.erase m)
      history := g.history ++ [(m, .endBegin)] }) : g'.Lives := by
  have hout : g.main.inside = none := by rw [hmain]; rfl
  have hin : m ∈ g.actors.values := h.ends m (by rw [hmain]; exact hm)
  have hready : phaseOf g.history m = .ready := by
    have hp := h.phases m
    simp only [ownerOf, hmem, Option.bind_some, hfree, Expected] at hp
    rcases hp with hp | hp | hp
    · have hknown := h.known m hin
      simp [hmain, hp, MainPc.initTodo] at hknown
    · exact hp
    · exact absurd (mem_of_phaseOf_ended hp) hfirst
  have hself : phaseOf (g.history ++ [(m, .endBegin)]) m = .ending := by
    rw [phaseOf_append_self, hready]
    rfl
  rw [heq]
  refine ⟨?_, h.built, by simpa using h.bound, by simp [MainPc.initTodo], ?_, ?_,
    by simp [MainPc.starting], by simp [MainPc.starting], ?_, ?_⟩
  · rw [ownerOf_set hmem, howner]
    refine expected_event h.phases (Or.inr fun k _ => hlocked.owner_ne_main hout k)
      ?_
    rw [hready]
    rfl
  · intro k hk
    have hkfresh : phaseOf g.history k = .fresh :=
      h.fresh k (hk.imp_right (Or.imp (by simp [MainPc.initTodo]) (by simp)))
    have hkm : k ≠ m := by
      rintro rfl
      simp [hready] at hkfresh
    rwa [phaseOf_append_of_ne _ hkm]
  · intro k hk
    by_cases hkm : k = m
    · subst hkm
      exact Or.inr (Or.inl (by simp [hself]))
    · rw [phaseOf_append_of_ne _ hkm]
      have hknown := h.known k hk
      simp only [hmain, MainPc.initTodo, reduceCtorEq, or_false] at hknown ⊢
      exact hknown
  · intro w hw k hk
    by_cases hkm : k = m
    · subst hkm
      exact ⟨by simp [hself], fun _ => hgone w hw hk⟩
    · rw [phaseOf_append_of_ne _ hkm]
      exact h.mapped w hw k hk
  · intro k hk
    exact h.ends k (by rw [hmain]; exact List.mem_of_mem_erase hk)

/-- A hook returns. -/
theorem Lives.hookReturn {g g' : Group μ} (h : g.Lives)
    (hlocked : g.MembersLocked) {m : Nat} {e : LifeEvent} {pc : MainPc}
    (hin : g.main.inside = some m)
    (he : g.main.hookPhase = .initing ∧ e = .initEnd ∨
      g.main.hookPhase = .ending ∧ e = .endEnd)
    (hpc : pc.initTodo = g.main.initTodo ∧ pc.endTodo = g.main.endTodo ∧
      pc.starting = g.main.starting)
    (heq : g' = { g with
      members := g.members.modify m fun mem =>
        { mem with mutex := mem.mutex.unlock }
      main := pc, history := g.history ++ [(m, e)] }) : g'.Lives := by
  have howner : ownerOf g.members m = some .main := (hlocked .main m).mp hin
  have hphase : phaseOf g.history m = g.main.hookPhase := by
    have hp := h.phases m
    rwa [howner] at hp
  have hnotmain : ∀ k ≠ m, ownerOf g.members k ≠ some .main := by
    intro k hk ho
    have hk' := (hlocked .main k).mpr ho
    rw [insideOf, hin, Option.some.injEq] at hk'
    exact hk hk'.symm
  rw [heq]
  refine h.frame ?_ (sameStages_append ?_ ?_) (by simp) rfl rfl hpc.1
    (fun hs => hpc.2.2 ▸ hs) (fun hpan => ?_) (hpc.2.1 ▸ h.ends) h.mapped
  · rw [ownerOf_modify (by simp)]
    refine expected_event h.phases (Or.inr hnotmain) ?_
    rw [hphase]
    rcases he with ⟨hp, rfl⟩ | ⟨hp, rfl⟩ <;> rw [hp] <;>
      simp [Expected, Phase.next]
  · rw [hphase]
    rcases he with ⟨hp, rfl⟩ | ⟨hp, rfl⟩ <;> simp [hp, Phase.next]
  · rw [hphase]
    rcases he with ⟨hp, rfl⟩ | ⟨hp, rfl⟩ <;> rw [hp] <;> rfl
  · simp [hpan, MainPc.inside] at hin

/-- A worker begins to handle a message.  It has the member in its map, and
it has not ended, so `end()` has not been called on the member. -/
theorem Lives.processEnter {g g' : Group μ} (h : g.Lives) {i m : Nat}
    {w : Worker μ} {pc : WorkerPc μ} {mem mem' : GroupMember}
    (hw : g.workers[i]? = some w) (hlive : w.pc.finished = false)
    (hm : m ∈ w.actors.values) (hmem : g.members[m]? = some mem)
    (hfree : mem.mutex.owner = none)
    (heq : g' = { g with
      workers := g.workers.set i { w with pc := pc }
      members := g.members.set m mem', handed := g'.handed
      history := g.history ++ [(m, .processBegin)] })
    (howner : mem'.mutex.owner = some (.worker i)) : g'.Lives := by
  obtain ⟨hne, hover⟩ := h.mapped w (List.mem_of_getElem? hw) m hm
  have hready : phaseOf g.history m = .ready := by
    have hp := h.phases m
    simp only [ownerOf, hmem, Option.bind_some, hfree, Expected] at hp
    rcases hp with hp | hp | hp
    · exact absurd hp hne
    · exact hp
    · simp [hp, Phase.over, hlive] at hover
  rw [heq]
  refine h.frame ?_ (sameStages_append ?_ ?_) (by simp) rfl rfl rfl id id h.ends
    (h.mapped_set hw rfl (by simp [hlive]))
  · rw [ownerOf_set hmem, howner]
    refine expected_event h.phases (Or.inl rfl) ?_
    rw [hready]
    rfl
  · simp [hready, Phase.next]
  · rw [hready]
    rfl

/-- A handler returns or panics. -/
theorem Lives.processLeave {g g' : Group μ} (h : g.Lives)
    (hlocked : g.MembersLocked) {i m : Nat} {w : Worker μ} {pc : WorkerPc μ}
    {f : GroupMember → GroupMember} (hw : g.workers[i]? = some w)
    (hin : w.pc.inside = some m) (hlive : w.pc.finished = false)
    (heq : g' = { g with
      workers := g.workers.set i { w with pc := pc }
      members := g.members.modify m f, receiver := g'.receiver
      history := g.history ++ [(m, .processEnd)] })
    (hf : ∀ mem, (f mem).mutex.owner = none) : g'.Lives := by
  have howner : ownerOf g.members m = some (.worker i) :=
    (hlocked (.worker i) m).mp (by simp [insideOf, hw, hin])
  have hphase : phaseOf g.history m = .processing := by
    have hp := h.phases m
    rwa [howner] at hp
  rw [heq]
  refine h.frame ?_ (sameStages_append ?_ ?_) (by simp) rfl rfl rfl id id h.ends
    (h.mapped_set hw rfl (by simp [hlive]))
  · rw [ownerOf_modify hf]
    refine expected_event h.phases (Or.inl rfl) ?_
    rw [hphase]
    exact Or.inr (Or.inl rfl)
  · simp [hphase, Phase.next]
  · rw [hphase]
    rfl

theorem lives_move {g g' : Group μ} {a : Action μ} (hmove : Move g a g')
    (hok : EndsLast g a) (hlocked : g.MembersLocked) (h : g.Lives) :
    g'.Lives := by
  cases hmove with
  | add name hidle => exact h.add hidle rfl rfl
  | start hidle => exact h.start hlocked hidle rfl
  | shutdown hmain | endCall hmain | startSent hmain | spawned hmain
  | endsDone hmain | joined hmain | initsDone hmain | sendStart r rs f hmain
  | sendShutdown r rs b f hmain | join i is w hmain =>
    exact h.mainStep hlocked hmain rfl rfl rfl (by simp [MainPc.starting])
      (by simp) (by simp [MainPc.endTodo])
  | wait hmain =>
    exact h.mainStep hlocked hmain rfl rfl rfl (by simp [MainPc.starting])
      (by simp) (fun _ hm => hm)
  | clearRunning b hmain =>
    refine h.mainStep hlocked hmain rfl rfl ?_ ?_ (by simp) ?_ <;> cases b <;>
      simp [MainPc.initTodo, MainPc.starting, MainPc.endTodo]
  | check i w hw hpc | recvEmpty i w hw hpc | drainEmpty i w hw hpc
  | recv i w env rest hw hpc | drain i w env rest hw hpc
  | noMember i w d env hw hpc | memberPanic i w d env m mem hw hpc =>
    exact h.workerStep hw (by rw [hpc]; rfl) rfl
  | recvPanic i w hw hpc hpois =>
    exact h.workerStep hw (by rcases hpc with hpc | hpc <;> rw [hpc] <;> rfl)
      rfl
  | initLock m mem todo hmain hm hmem hfree hclean =>
    exact h.initEnter hlocked hmain hm hmem rfl rfl
  | endLock m mem todo hmain hm hmem hfree hclean =>
    obtain ⟨hfirst, hgone⟩ := hok (by rw [hmain]; rfl)
    exact h.endEnter hlocked hmain hm hmem hfree rfl hfirst hgone rfl
  | lockPanic m mem todo hmain hmem hpois =>
    have hout : g.main.inside = none := by
      rcases hmain with hmain | hmain <;> rw [hmain] <;> rfl
    have hno := hlocked.owner_ne_main hout
    refine ⟨expected_main h.phases hno, h.built, h.bound, by simp [MainPc.initTodo], ?_,
      fun _ _ => Or.inr (Or.inr rfl), by simp [MainPc.starting],
      by simp [MainPc.starting], h.mapped, by simp [MainPc.endTodo]⟩
    rintro k (hk | hk | hk)
    · exact h.fresh k (Or.inl hk)
    · simp [MainPc.initTodo] at hk
    · exact h.fresh k (Or.inr (Or.inr hk))
  | initReturn m todo hmain =>
    refine h.hookReturn hlocked (by rw [hmain]; rfl)
      (Or.inl ⟨by rw [hmain]; rfl, rfl⟩) ?_ rfl
    rw [hmain]
    exact ⟨rfl, rfl, rfl⟩
  | endReturn m todo hmain =>
    refine h.hookReturn hlocked (by rw [hmain]; rfl)
      (Or.inr ⟨by rw [hmain]; rfl, rfl⟩) ?_ rfl
    rw [hmain]
    exact ⟨rfl, rfl, rfl⟩
  | spawn n hmain =>
    have hout : g.main.inside = none := by rw [hmain]; rfl
    have hstarting : g.main.starting = true := by rw [hmain]; rfl
    refine h.frame (expected_main h.phases (hlocked.owner_ne_main hout))
      (sameStages_refl _) rfl rfl rfl (by rw [hmain]; rfl) (fun _ => hstarting)
      (by simp [hmain]) (by simp [MainPc.endTodo]) ?_
    refine forall_mem_snoc h.mapped fun m hm => ⟨?_, ?_⟩
    · have hknown := h.known m hm
      simpa [hmain, MainPc.initTodo] using hknown
    · rw [h.young hstarting m hm]
      simp
  | processBegin i w d env m mem hw hpc hm hmem hfree hclean =>
    exact h.processEnter hw (by rw [hpc]; rfl) (HashMap.mem_values_of_lookup hm)
      hmem hfree rfl rfl
  | handlerReturn i w d m l hw hpc hfree
  | handlerPanic i w d m l hw hpc hfree =>
    exact h.processLeave hlocked hw (by rw [hpc]; rfl) (by rw [hpc]; rfl) rfl
      (by simp)
  | reply i msg w d m l mem hw hpc hmem =>
    have howner : ownerOf (g.members.set m
        { mem with context := mem.context.reply.2 }) = ownerOf g.members :=
      ownerOf_set_eq hmem rfl
    refine { h with phases := ?_, bound := by simpa using h.bound, fresh := ?_ }
    · rw [howner]
      exact h.phases
    · simpa using h.fresh
  | _ => exact { h with }

/-- Every member is where its phase says, in every state that is reached
without a premature `end()`. -/
theorem lives {n : Nat} {g : Group μ} (h : (machine μ n).Reach EndsLast g) :
    g.Lives := by
  refine invariant ?_ ?_ h
  · constructor <;> simp [new, MainPc.initTodo, MainPc.starting, MainPc.endTodo,
      ownerOf, Expected]
  · intro g a g' hreach hg hok hmove
    exact lives_move hmove hok (membersLocked hreach) hg

/-- In every run in which `wait` calls `end()` on a member only once, and only
after every worker that has the member in its map has left its loop, no message
is handled before `init()` or from `end()` on, and both hooks are called at
most once. -/
theorem respectsLifecycle {n : Nat} {g : Group μ}
    (h : (machine μ n).Reach EndsLast g) (m : Nat) :
    RespectsLifecycle g.history m := by
  refine respectsLifecycle_of_phaseOf fun hviol => ?_
  have hp := (lives h).phases m
  rw [hviol] at hp
  cases ho : ownerOf g.members m with
  | none => simp [ho, Expected] at hp
  | some t =>
    rw [ho] at hp
    cases t with
    | main =>
      simp only [Expected] at hp
      cases hmain : g.main <;> simp [hmain, MainPc.hookPhase] at hp
    | worker i => simp [Expected] at hp
    | client i => exact hp

/-- `shutdown`, then a worker that drains the queue and leaves, then `wait`. -/
theorem respectsLifecycle_drained : ∃ g : Group Nat,
    (machine Nat 1).Reach EndsLast g ∧
      g.history = [(0, .initBegin), (0, .initEnd), (0, .processBegin),
        (0, .processEnd), (0, .endBegin), (0, .endEnd)] ∧
      RespectsLifecycle g.history 0 := by
  have hrun := reach_after EndsLast 1
    (startOne Nat ++ [.forwardRecv 0, .forwardSend 0, .shutdown, .main, .main,
      .worker 0, .worker 0, .worker 0, .handlerReturn 0, .worker 0,
      .wait, .mainLock 0, .main, .main, .main]) (by decide)
  exact ⟨_, hrun, by decide, respectsLifecycle hrun 0⟩

/-- `end` right after `start`: the member's `end()` has returned when the worker
finds the `Start` message in the queue. -/
theorem respectsLifecycle_fails : ¬ ∀ g : Group Nat,
    (machine Nat 1).Reachable g → ∀ m, RespectsLifecycle g.history m := by
  have hrun := reach_after (fun (_ : Group Nat) _ => True) 1
    (startOne Nat ++ [.endCall, .main, .main, .mainLock 0, .main, .forwardRecv 0,
      .forwardSend 0, .worker 0, .worker 0, .worker 0]) (by decide)
  intro h
  have hend := ((h _ hrun 0).process_between
    [(0, .initBegin), (0, .initEnd), (0, .endBegin), (0, .endEnd)] []
    (by decide)).2
  simp at hend

end Group

end Actors
