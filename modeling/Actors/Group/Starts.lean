import Actors.Group.Delivery
import Actors.Group.Lifecycle
import Actors.Group.Membership
import Actors.Group.Requests

/-!
# How often a member is started

`start` calls `init()` on what it finds in the map, and sends `Start` through every
reference that `add` ever returned.  The map forgets a member when its name is added
again, and it is a new one in every `start`; the list of references only grows, and a
reference leads to whoever has its name.

So a member is started once when there is one call of `start` and the names before it
are distinct (`StartsOnce`).  `started_once` says that this is enough, as long as the
application does not send `Start` itself and no handler panics before its member has
been handed its `Start`.
-/

namespace Actors

open Concur

variable {μ : Type}

def Message.isStart : Message μ → Bool
  | .start => true
  | _ => false

/-- The main thread is in `start`, before it spawns the first worker. -/
def MainPc.greeting : MainPc → Bool
  | .startInit _ | .initHook _ _ | .startSend _ => true
  | _ => false

/-- The references through which `start` still has to send `Start`. -/
def MainPc.greetLeft (refs : List Nat) : MainPc → List Nat
  | .startInit _ | .initHook _ _ => refs
  | .startSend todo => todo
  | _ => []

/-- `start` was called at most once, and the names that were added before are
distinct. -/
def StartedWell (calls : List ApiCall) : Prop :=
  calls.count .start ≤ 1 ∧ (batches calls).started.Nodup

/-- The same, unless nobody was added before a call of `start`. -/
def StartsOnce (calls : List ApiCall) : Prop :=
  (batches calls).started = [] ∨ StartedWell calls

instance (calls : List ApiCall) : Decidable (StartsOnce calls) :=
  inferInstanceAs (Decidable (_ ∨ _ ∧ _))

namespace Group

/-- The application does not send `Start`, and a handler panics only when its member
has been handed its `Start`. -/
def StartFirst (g : Group μ) : Action μ → Prop
  | .send _ _ msg _ | .fastSend _ _ msg _ => msg.isStart = false
  | .handlerPanic i => ∀ w ∈ g.workers[i]?, ∀ m ∈ w.pc.inside,
      ∃ c ∈ g.handed, c.actor = m ∧ c.letter.envelope.msg.isStart = true
  | _ => True

instance (g : Group μ) (a : Action μ) : Decidable (StartFirst g a) :=
  match a with
  | .send _ _ _ _ | .fastSend _ _ _ _ => inferInstanceAs (Decidable (_ = false))
  | .handlerPanic i => inferInstanceAs (Decidable (∀ w ∈ g.workers[i]?,
      ∀ m ∈ w.pc.inside, ∃ c ∈ g.handed, _))
  | .add _ | .getRef _ | .start | .shutdown | .wait | .endCall | .main | .mainLock _
  | .fastReturn _ | .dropRef _ | .forwardRecv _ | .forwardSend _ | .forwardExit _
  | .worker _ | .reply _ _ | .handlerReturn _ => isTrue trivial

/-- `start` is not running, and no letter is on its way to a handler. -/
def Quiet (g : Group μ) : Prop := g.main.starting = false ∧ g.underway = []

instance [DecidableEq μ] (g : Group μ) : Decidable g.Quiet :=
  inferInstanceAs (Decidable (_ ∧ _))

/-- How often `process_message` of member `m` was called with `Start`. -/
def startsOf (g : Group μ) (m : Nat) : Nat :=
  g.handed.countP fun c => c.actor = m && c.msg.isStart

/-- When all letters have been dispatched, every member that was added before some
call of `start` has had its `init()` and a `Start`, once each. -/
def AllStarted (g : Group μ) : Prop :=
  g.Quiet → ∀ m < (batches g.calls).started.length,
    g.history.count (m, .initBegin) = 1 ∧ g.startsOf m = 1

end Group

/-! ## The calls -/

theorem startedWell_of_append {calls : List ApiCall} {c : ApiCall}
    (h : StartedWell (calls ++ [c])) : StartedWell calls := by
  obtain ⟨hcount, hnodup⟩ := h
  rw [List.count_append] at hcount
  rw [batches_append] at hnodup
  refine ⟨by omega, ?_⟩
  cases c with
  | start => exact hnodup.of_append_left
  | add | shutdown | wait | endCall => exact hnodup

theorem not_started_before {calls : List ApiCall} (h : StartedWell (calls ++ [.start])) :
    .start ∉ calls := by
  have hcount := h.1
  rw [List.count_append, List.count_singleton_self] at hcount
  exact List.count_eq_zero.mp (by omega)

/-- With one call of `start` there is no older batch. -/
theorem old_eq_nil {calls : List ApiCall} (h : StartedWell calls) :
    (batches calls).old = [] := by
  induction calls using List.reverseRecOn with
  | nil => rfl
  | append_singleton calls c ih =>
    rw [batches_append]
    cases c with
    | start => exact batches_of_not_started (not_started_before h)
    | add | shutdown | wait | endCall => exact ih (startedWell_of_append h)

namespace Group

theorem startedWell_of_move {g g' : Group μ} {a : Action μ} (h : Move g a g')
    (hcalls : StartedWell g'.calls) : StartedWell g.calls := by
  rcases calls_of_move h with heq | ⟨c, heq⟩
  · exact heq ▸ hcalls
  · exact startedWell_of_append (heq ▸ hcalls)

/-! ## Before the first worker -/

/-- Until `start` spawns the first worker no lock is poisoned, and every worker has
the map of this `start`. -/
structure Opening (g : Group μ) : Prop where
  early : .start ∉ g.calls → g.workers = []
  greets : g.main.greeting = true → g.workers = []
  clean : g.workers = [] → ∀ mem ∈ g.members, mem.mutex.poisoned = false
  maps : ∀ w ∈ g.workers, w.actors = g.actors

/-- The main thread is about to send `Start` only after a call of `start`. -/
theorem greeting_of_move {g g' : Group μ} {a : Action μ} (hmove : Move g a g')
    (h : g'.main.greeting = true) :
    g.main.greeting = true ∨ g'.calls = g.calls ++ [.start] := by
  cases hmove with
  | start hidle => exact Or.inr rfl
  | initLock m mem todo hmain => exact Or.inl (by rw [hmain]; rfl)
  | initReturn m todo hmain => exact Or.inl (by rw [hmain]; rfl)
  | initsDone hmain => exact Or.inl (by rw [hmain]; rfl)
  | sendStart r rs f hmain => exact Or.inl (by rw [hmain]; rfl)
  | clearRunning b hmain => cases b <;> simp [MainPc.greeting] at h
  | shutdown | wait | endCall | endLock | lockPanic | endReturn | startSent | spawn
  | spawned | sendShutdown | endsDone | join | joined => simp [MainPc.greeting] at h
  | _ => exact Or.inl h

theorem opening_move {g g' : Group μ} {a : Action μ} (hmove : Move g a g')
    (hstarting : g.main.starting = true → .start ∈ g.calls)
    (hcalls : StartedWell g'.calls) (h : g.Opening) : g'.Opening := by
  have hbefore : .start ∉ g.calls → g'.workers = [] := by
    intro hno
    refine workers_nil_of_move hmove (fun k hmain => hno (hstarting ?_)) (h.early hno)
    rw [hmain]
    rfl
  refine ⟨fun hno => ?_, fun hgreet => ?_, fun hnil mem' hmem' => ?_, fun w' hw' => ?_⟩
  · refine hbefore fun hin => hno ?_
    rcases calls_of_move hmove with heq | ⟨c, heq⟩
    · exact heq ▸ hin
    · exact heq ▸ List.mem_append_left _ hin
  · rcases greeting_of_move hmove hgreet with hgreet | hstart
    · refine workers_nil_of_move hmove (fun k hmain => ?_) (h.greets hgreet)
      simp [hmain, MainPc.greeting] at hgreet
    · exact hbefore (not_started_before (hstart ▸ hcalls))
  · -- Without a worker no handler has panicked.
    have hold : g.workers = [] := by
      have hlen := workers_of_move hmove
      rw [hnil, List.length_nil] at hlen
      exact List.length_eq_zero_iff.mp (by omega)
    obtain ⟨m, hm⟩ := List.mem_iff_getElem?.mp hmem'
    by_contra hpois'
    rw [Bool.not_eq_false] at hpois'
    rcases poisoned_of_move hmove m mem' hm hpois' with
      ⟨mem, hmem, hpois⟩ | ⟨i, w, -, hw, -⟩
    · simp [h.clean hold mem (List.mem_of_getElem? hmem)] at hpois
    · simp [hold] at hw
  · have hmap : w'.actors = g.actors := by
      rcases maps_of_move hmove w' hw' with ⟨w, hw, heq⟩ | ⟨heq, -⟩
      · exact heq.trans (h.maps w hw)
      · exact heq
    cases hmove with
    | start hidle => simp [h.early (not_started_before hcalls)] at hw'
    | _ => exact hmap

theorem opening {n : Nat} {ok : Group μ → Action μ → Prop} {g : Group μ}
    (h : (machine μ n).Reach ok g) : StartedWell g.calls → g.Opening := by
  refine invariant (I := fun g : Group μ => StartedWell g.calls → g.Opening) ?_ ?_ h
  · exact fun _ => ⟨fun _ => rfl, fun _ => rfl, by simp [new], by simp [new]⟩
  · intro g a g' hreach hg _ hmove hcalls
    have hcalls' := startedWell_of_move hmove hcalls
    exact opening_move hmove (started_of_starting hreach) hcalls (hg hcalls')

/-- `start` does not panic. -/
theorem waitEnd_of_lockPanic {g : Group μ} (h : g.Opening) {m : Nat}
    {mem : GroupMember} {todo : List Nat}
    (hmain : g.main = .startInit todo ∨ g.main = .waitEnd todo)
    (hmem : g.members[m]? = some mem) (hpois : mem.mutex.poisoned = true) :
    g.main = .waitEnd todo := by
  refine hmain.resolve_left fun hinit => ?_
  have hclean := h.clean (h.greets (by rw [hinit]; rfl)) mem (List.mem_of_getElem? hmem)
  simp [hclean] at hpois

/-! ## Whom `start` greets -/

/-- The names on the references. -/
def refNames (g : Group μ) : List String := g.forwarders.map Forwarder.name

theorem named_concat {names ys : List String} {refs : List Nat}
    (h : ∀ r ∈ refs, (names[r]?).isSome) :
    refs.map ((names ++ ys)[·]?) = refs.map (names[·]?) := by
  refine List.map_congr_left fun r hr => ?_
  obtain ⟨name, hname⟩ := Option.isSome_iff_exists.mp (h r hr)
  rw [hname]
  exact getElem?_concat hname

/-- A step that leaves the names on the references alone. -/
theorem refNames_set {g : Group μ} {r : Nat} {f f' : Forwarder μ}
    (hf : g.forwarders[r]? = some f) (hname : f'.name = f.name) :
    (g.forwarders.set r f').map Forwarder.name = g.refNames :=
  map_set_of_eq Forwarder.name hf hname

/-- The references that the group keeps lead to the names that were added, in
order. -/
theorem actorRefs_named {n : Nat} {ok : Group μ → Action μ → Prop} {g : Group μ}
    (h : (machine μ n).Reach ok g) :
    g.actorRefs.map (g.refNames[·]?) = g.addedNames.map some := by
  refine invariant (I := fun g : Group μ =>
    g.actorRefs.map (g.refNames[·]?) = g.addedNames.map some) ?_ ?_ h
  · rfl
  · intro g a g' _ hg _ hmove
    have hsome : ∀ r ∈ g.actorRefs, (g.refNames[r]?).isSome := by
      intro r hr
      have hmem : g.refNames[r]? ∈ g.addedNames.map some :=
        hg ▸ List.mem_map_of_mem hr
      obtain ⟨name, -, hname⟩ := List.mem_map.mp hmem
      simp [← hname]
    cases hmove with
    | add name hidle =>
      have hnames : (g.calls ++ [ApiCall.add name]).filterMap ApiCall.added =
          g.addedNames ++ [name] := by simp [addedNames, ApiCall.added]
      rw [refNames, addedNames, hnames, List.map_append, List.map_append,
        List.map_append]
      refine congrArg₂ (· ++ ·) ((named_concat hsome).trans hg) ?_
      simp [Forwarder.new]
    | start | shutdown | wait | endCall =>
      rw [addedNames_call rfl rfl]
      exact hg
    | getRef =>
      rw [refNames, List.map_append]
      exact (named_concat hsome).trans hg
    | sendStart r rs f hmain hf | sendShutdown r rs b f hmain hf
    | send t r msg sender f hcan hfree hf | fastSend t r msg sender f hcan hfree hf
    | dropRef r f hf | forwardRecv r f l rest hf | forwardSend r f l hf
    | forwardExit r f hf =>
      refine Eq.trans ?_ hg
      exact congrArg (fun names : List String => g.actorRefs.map (names[·]?))
        (refNames_set hf rfl)
    | _ => exact hg

/-- The letters with `Start`. -/
def startLetters (sent : List (Letter μ)) : List (Letter μ) :=
  sent.filter fun l => l.envelope.msg.isStart

/-- Those that were sent and those that `start` has still to send are one for each
name that was added before `start`. -/
def Greeted (names : List String) (sent : List (Letter μ)) (left : List Nat)
    (started : List String) : Prop :=
  (startLetters sent).map (fun l => some l.addressee) ++ left.map (names[·]?) =
    started.map some

theorem Greeted.some_of_left {names : List String} {sent : List (Letter μ)}
    {left : List Nat} {started : List String} (h : Greeted names sent left started) :
    ∀ r ∈ left, (names[r]?).isSome := by
  intro r hr
  have hmem : names[r]? ∈ started.map some := by
    rw [← h]
    exact List.mem_append_right _ (List.mem_map_of_mem hr)
  obtain ⟨name, -, hname⟩ := List.mem_map.mp hmem
  simp [← hname]

/-- A reference more. -/
theorem Greeted.concat {names : List String} {sent : List (Letter μ)}
    {left : List Nat} {started : List String} (h : Greeted names sent left started)
    (ys : List String) : Greeted (names ++ ys) sent left started := by
  rw [Greeted, named_concat h.some_of_left]
  exact h

theorem Greeted.congr {names names' : List String} {sent : List (Letter μ)}
    {left : List Nat} {started : List String} (h : Greeted names sent left started)
    (hnames : names' = names) : Greeted names' sent left started :=
  hnames ▸ h

/-- Another message is sent. -/
theorem Greeted.post {names : List String} {sent : List (Letter μ)} {left : List Nat}
    {started : List String} (h : Greeted names sent left started) {l : Letter μ}
    (hl : l.envelope.msg.isStart = false) : Greeted names (sent ++ [l]) left started := by
  have hsame : startLetters (sent ++ [l]) = startLetters sent := by
    simp [startLetters, List.filter_append, hl]
  rw [Greeted, hsame]
  exact h

/-- `start` sends its next letter. -/
theorem Greeted.greet {names : List String} {sent : List (Letter μ)} {r : Nat}
    {rs : List Nat} {started : List String} (h : Greeted names sent (r :: rs) started)
    {l : Letter μ} (hl : l.envelope.msg.isStart = true)
    (hname : names[r]? = some l.addressee) :
    Greeted names (sent ++ [l]) rs started := by
  have hmore : startLetters (sent ++ [l]) = startLetters sent ++ [l] := by
    simp [startLetters, List.filter_append, hl]
  rw [Greeted, List.map_cons, hname] at h
  rw [Greeted, hmore, List.map_append, List.append_assoc]
  exact h

/-- What `start` sends, in a state. -/
def GreetedNow (g : Group μ) : Prop :=
  Greeted g.refNames g.sent (g.main.greetLeft g.actorRefs) (batches g.calls).started

theorem greeted_move {g g' : Group μ} {a : Action μ} (hmove : Move g a g')
    (hok : StartFirst g a) (hopening : g.Opening) (hcalls : StartedWell g'.calls)
    (hrefs : g.actorRefs.map (g.refNames[·]?) = g.addedNames.map some)
    (h : g.GreetedNow) : g'.GreetedNow := by
  unfold GreetedNow at *
  -- A step after which as much is left as before.
  have hkeep : ∀ pc : MainPc, pc.greetLeft g.actorRefs = g.main.greetLeft g.actorRefs →
      Greeted g.refNames g.sent (pc.greetLeft g.actorRefs)
        (batches g.calls).started := fun pc hpc => hpc.symm ▸ h
  cases hmove with
  | add name hidle =>
    rw [hidle] at h
    rw [batches_append, hidle]
    exact h
  | getRef name href =>
    rw [refNames, List.map_append]
    exact h.concat _
  | start hidle =>
    have hno := not_started_before hcalls
    have hempty := batches_of_not_started hno
    rw [hidle, hempty, Greeted] at h
    have hnone : (startLetters g.sent).map (fun l => some l.addressee) = [] :=
      (List.append_eq_nil_iff.mp h).1
    rw [batches_append, Greeted, hnone, List.nil_append]
    refine hrefs.trans ?_
    rw [addedNames, batches_names]
    rfl
  | shutdown hidle | wait hidle | endCall hidle =>
    rw [batches_append]
    exact hkeep _ (by rw [hidle]; rfl)
  | initLock m mem todo hmain | initReturn m todo hmain | endLock m mem todo hmain
  | endReturn m todo hmain | initsDone hmain | startSent hmain | spawn k hmain
  | spawned hmain | endsDone hmain | join i is w hmain | joined hmain =>
    exact hkeep _ (by rw [hmain]; rfl)
  | lockPanic m mem todo hmain hmem hpois =>
    exact hkeep _ (by rw [waitEnd_of_lockPanic hopening hmain hmem hpois]; rfl)
  | clearRunning b hmain =>
    refine hkeep _ ?_
    rw [hmain]
    cases b <;> rfl
  | sendStart r rs f hmain hf hlive =>
    rw [hmain] at h
    refine (h.greet rfl ?_).congr (refNames_set hf rfl)
    simp [refNames, hf, letterOf]
  | sendShutdown r rs b f hmain hf hlive =>
    rw [hmain] at h
    exact (h.post rfl).congr (refNames_set hf rfl)
  | send t r msg sender f hcan hfree hf hlive =>
    have hpost := h.post (l := g.letterOf t r f.name msg sender false) hok
    exact hpost.congr (refNames_set hf rfl)
  | fastSend t r msg sender f hcan hfree hf hlive =>
    have hpost := h.post (l := g.letterOf t r f.name msg sender true) hok
    exact hpost.congr (refNames_set hf rfl)
  | dropRef r f hf | forwardRecv r f l rest hf | forwardSend r f l hf
  | forwardExit r f hf =>
    exact h.congr (refNames_set hf rfl)
  | _ => exact h

theorem greetedNow {n : Nat} {g : Group μ} (h : (machine μ n).Reach StartFirst g) :
    StartedWell g.calls → g.GreetedNow := by
  refine invariant (I := fun g : Group μ => StartedWell g.calls → g.GreetedNow)
    ?_ ?_ h
  · exact fun _ => rfl
  · intro g a g' hreach hg hok hmove hcalls
    have hcalls' := startedWell_of_move hmove hcalls
    exact greeted_move hmove hok (opening hreach hcalls') hcalls
      (actorRefs_named hreach) (hg hcalls')

/-! ## Members that were added in time -/

/-- What the map leads to was added before `start`, and so was what was called. -/
structure InTime (k : Nat) (g : Group μ) : Prop where
  actors : ∀ m ∈ g.actors.values, m < k
  handed : ∀ c ∈ g.handed, c.actor < k

theorem inTime {n : Nat} {ok : Group μ → Action μ → Prop} {g : Group μ}
    (h : (machine μ n).Reach ok g) :
    StartedWell g.calls → g.InTime (batches g.calls).started.length := by
  refine invariant (I := fun g : Group μ =>
    StartedWell g.calls → g.InTime (batches g.calls).started.length) ?_ ?_ h
  · exact fun _ => ⟨by simp [new], by simp [new]⟩
  · intro g a g' hreach hg _ hmove hcalls
    have hcalls' := startedWell_of_move hmove hcalls
    have hin := hg hcalls'
    cases hmove with
    | add | shutdown | wait | endCall =>
      rw [batches_append]
      exact { hin with }
    | start hidle =>
      have hlen : (batches g.calls).started.length ≤
          ((batches g.calls).next .start).started.length := by
        simp [Batches.next, Batches.started]
      rw [batches_append]
      refine ⟨fun m hm => ?_, fun c hc => ?_⟩
      · have hrouted := routed hreach
        have hlt := lt_of_leads hrouted.builder m hm
        rw [addedNames, batches_names] at hlt
        exact hlt
      · exact Nat.lt_of_lt_of_le (hin.handed c hc) hlen
    | processBegin i w d env m mem hw hpc hm =>
      refine { hin with handed := forall_mem_snoc hin.handed ?_ }
      have hmaps := (opening hreach hcalls').maps w (List.mem_of_getElem? hw)
      exact hin.actors m (hmaps ▸ HashMap.mem_values_of_lookup hm)
    | _ => exact { hin with }

/-- The place of a name that was added before `start` is the number of its
member. -/
theorem started_getElem {g : Group μ} {m : Nat} {name : String}
    (hname : g.addedNames[m]? = some name)
    (hm : m < (batches g.calls).started.length) :
    (batches g.calls).started[m]? = some name := by
  rw [addedNames, batches_names, List.getElem?_append_left hm] at hname
  exact hname

/-- The place of a name of an earlier batch in the list of all names. -/
theorem addedNames_getElem {g : Group μ} {m : Nat} {name : String}
    (hname : (batches g.calls).started[m]? = some name) :
    g.addedNames[m]? = some name := by
  rw [addedNames, batches_names]
  exact getElem?_concat hname

/-- A name that was added before `start` has one member. -/
theorem eq_of_started {g : Group μ} (hcalls : StartedWell g.calls) {m k : Nat}
    {name : String} (hm : g.addedNames[m]? = some name)
    (hk : g.addedNames[k]? = some name)
    (hmlt : m < (batches g.calls).started.length)
    (hklt : k < (batches g.calls).started.length) : m = k := by
  have hm' := started_getElem hm hmlt
  rw [← started_getElem hk hklt] at hm'
  exact (List.getElem?_inj hmlt hcalls.2).mp hm'

/-- The map leads from every name that was added before `start` to its member. -/
theorem lookup_of_started {n : Nat} {ok : Group μ → Action μ → Prop} {g : Group μ}
    (h : (machine μ n).Reach ok g) (hcalls : StartedWell g.calls) {m : Nat}
    {name : String} (hname : (batches g.calls).started[m]? = some name) :
    g.actors.lookup name = some m := by
  have hmem : name ∈ (batches g.calls).last := by
    have hin := List.mem_of_getElem? hname
    rwa [Batches.started, old_eq_nil hcalls, List.nil_append] at hin
  obtain ⟨k, hk⟩ := Option.isSome_iff_exists.mp (((roster h).actors name).mpr hmem)
  have hklt := (inTime h hcalls).actors k (HashMap.mem_values_of_lookup hk)
  have hlt := (List.getElem?_eq_some_iff.mp hname).1
  rw [hk, eq_of_started hcalls ((routed h).actors name k hk)
    (addedNames_getElem hname) hklt hlt]

/-! ## No `Start` is lost -/

/-- The letters with `Start` go to different names. -/
theorem startLetters_nodup {names : List String} {sent : List (Letter μ)}
    {left : List Nat} {started : List String} (h : Greeted names sent left started)
    (hnodup : started.Nodup) :
    ((startLetters sent).map Letter.addressee).Nodup := by
  have hall : (started.map some).Nodup :=
    hnodup.map (Option.some_injective String)
  rw [← h] at hall
  have hpart := hall.of_append_left
  rw [← Function.comp_def some Letter.addressee, ← List.map_map] at hpart
  exact hpart.of_map some

/-- A letter with `Start` goes to a name that was added before `start`. -/
theorem Greeted.addressee_mem {names : List String} {sent : List (Letter μ)}
    {left : List Nat} {started : List String} (h : Greeted names sent left started)
    {l : Letter μ} (hl : l ∈ sent) (hstart : l.envelope.msg.isStart = true) :
    l.addressee ∈ started := by
  have hmem : some l.addressee ∈ started.map some := by
    rw [← h]
    refine List.mem_append_left _ (List.mem_map.mpr ⟨l, ?_, rfl⟩)
    exact List.mem_filter.mpr ⟨hl, hstart⟩
  simpa using hmem

/-- A member whose lock is poisoned has been handed its `Start`. -/
theorem started_of_poisoned {n : Nat} {g : Group μ}
    (h : (machine μ n).Reach StartFirst g) :
    ∀ m mem, g.members[m]? = some mem → mem.mutex.poisoned = true →
      ∃ c ∈ g.handed, c.actor = m ∧ c.letter.envelope.msg.isStart = true := by
  refine invariant (I := fun g : Group μ => ∀ m mem, g.members[m]? = some mem →
    mem.mutex.poisoned = true →
      ∃ c ∈ g.handed, c.actor = m ∧ c.letter.envelope.msg.isStart = true) ?_ ?_ h
  · intro m mem hmem
    simp [new] at hmem
  · intro g a g' _ hg hok hmove m mem' hmem' hpois'
    have hcall : ∃ c ∈ g.handed, c.actor = m ∧
        c.letter.envelope.msg.isStart = true := by
      rcases poisoned_of_move hmove m mem' hmem' hpois' with
        ⟨mem, hmem, hpois⟩ | ⟨i, w, rfl, hw, hin⟩
      · exact hg m mem hmem hpois
      · exact hok w hw m hin
    obtain ⟨c, hc, hactor, hstart⟩ := hcall
    exact ⟨c, handed_of_move hmove hc, hactor, hstart⟩

theorem start_not_lost {n : Nat} {g : Group μ}
    (h : (machine μ n).Reach StartFirst g) :
    StartedWell g.calls → ∀ l ∈ g.lost, l.envelope.msg.isStart = false := by
  refine invariant (I := fun g : Group μ =>
    StartedWell g.calls → ∀ l ∈ g.lost, l.envelope.msg.isStart = false) ?_ ?_ h
  · exact fun _ => by simp [new]
  · intro g a g' hreach hg _ hmove hcalls
    have hcalls' := startedWell_of_move hmove hcalls
    have hold := hg hcalls'
    -- What a worker has in hand is addressed to a name in its map.
    have hgreeted := greetedNow hreach hcalls'
    cases hmove with
    | noMember i w d env hw hpc hno =>
      refine forall_mem_snoc hold ?_
      have hwm := List.mem_of_getElem? hw
      have hsent : env.letter ∈ g.sent :=
        sent_of_hand hreach hw (by rw [Worker.hand, hpc]; rfl)
      by_contra hstart
      rw [Bool.not_eq_false] at hstart
      have hin := hgreeted.addressee_mem hsent hstart
      obtain ⟨m, hm⟩ := List.mem_iff_getElem?.mp hin
      have hlookup := lookup_of_started hreach hcalls' hm
      have hroute := ((routed hreach).hands w hwm d env hpc).1
      rw [← (opening hreach hcalls').maps w hwm, ← hroute, hno] at hlookup
      simp at hlookup
    | memberPanic i w d env m mem hw hpc hm hmem hpois =>
      refine forall_mem_snoc hold ?_
      have hwm := List.mem_of_getElem? hw
      have hhand : w.hand = some env.letter := by rw [Worker.hand, hpc]; rfl
      by_contra hstart
      rw [Bool.not_eq_false] at hstart
      obtain ⟨c, hc, hactor, hcstart⟩ := started_of_poisoned hreach m mem hmem hpois
      -- The member would have two letters with `Start`.
      have hroute := ((routed hreach).hands w hwm d env hpc).1
      have hsame : c.letter.addressee = env.letter.addressee := by
        have hname := (routed hreach).maps w hwm _ m hm
        have hcname := (routed hreach).handed c hc
        rw [hactor, hname, hroute, Option.some.injEq] at hcname
        exact hcname.symm
      have heq := List.inj_on_of_nodup_map
        (startLetters_nodup hgreeted hcalls'.2)
        (List.mem_filter.mpr ⟨sent_of_handed hreach hc, hcstart⟩)
        (List.mem_filter.mpr ⟨sent_of_hand hreach hw hhand, hstart⟩) hsame
      exact not_handed hreach hw hhand hc (congrArg Letter.id heq)
    | _ => exact hold

/-! ## How often `init()` is called -/

/-- The members in the builder are distinct. -/
theorem builder_nodup {n : Nat} {ok : Group μ → Action μ → Prop} {g : Group μ}
    (h : (machine μ n).Reach ok g) : g.actorsBuilder.values.Nodup := by
  refine invariant (I := fun g : Group μ => g.actorsBuilder.values.Nodup) ?_ ?_ h
  · exact List.nodup_nil
  · intro g a g' hreach hg _ hmove
    cases hmove with
    | add name hidle =>
      refine HashMap.nodup_values_insert hg name fun hmem => ?_
      have hrouted := routed hreach
      have hlt := lt_of_leads hrouted.builder _ hmem
      exact Nat.ne_of_lt hlt hrouted.count
    | start hidle => exact List.nodup_nil
    | _ => exact hg

/-- The members in the map have had their `init()`, or `start` has still to call
it. -/
def InitsCounted (g : Group μ) : Prop :=
  ∀ m, g.history.count (m, .initBegin) + g.main.initTodo.count m =
    g.actors.values.count m

theorem initsCounted_move {g g' : Group μ} {a : Action μ} (hmove : Move g a g')
    (hopening : g.Opening) (hunstarted : .start ∉ g.calls → g.actors.values = [])
    (hcalls : StartedWell g'.calls) (h : g.InitsCounted) : g'.InitsCounted := by
  intro m
  have hm := h m
  cases hmove with
  | start hidle =>
    rw [hidle, hunstarted (not_started_before hcalls)] at hm
    simp only [MainPc.initTodo, List.count_nil, Nat.add_zero] at hm
    simp [MainPc.initTodo, hm]
  | initLock k mem todo hmain hk hmem =>
    rw [hmain] at hm
    rw [List.count_append]
    by_cases hmk : m = k
    · subst hmk
      have hpos : 0 < todo.count m := List.count_pos_iff.mpr hk
      simp only [MainPc.initTodo, List.count_erase_self, List.count_singleton_self]
        at hm ⊢
      omega
    · simp only [MainPc.initTodo, List.count_erase_of_ne hmk] at hm ⊢
      simpa [Ne.symm hmk] using hm
  | shutdown hidle | wait hidle | endCall hidle =>
    rw [hidle] at hm
    exact hm
  | endLock k mem todo hmain | initReturn k todo hmain | endReturn k todo hmain =>
    rw [hmain] at hm
    rw [List.count_append]
    simpa [MainPc.initTodo] using hm
  | lockPanic k mem todo hmain hmem hpois =>
    rw [waitEnd_of_lockPanic hopening hmain hmem hpois] at hm
    exact hm
  | initsDone hmain | sendStart r rs f hmain | startSent hmain | spawn k hmain
  | spawned hmain | sendShutdown r rs b f hmain | endsDone hmain | join i is w hmain
  | joined hmain =>
    rw [hmain] at hm
    exact hm
  | clearRunning b hmain =>
    rw [hmain] at hm
    cases b <;> exact hm
  | processBegin | handlerReturn | handlerPanic =>
    rw [List.count_append]
    simpa using hm
  | _ => exact hm

theorem initsCounted {n : Nat} {ok : Group μ → Action μ → Prop} {g : Group μ}
    (h : (machine μ n).Reach ok g) : StartedWell g.calls → g.InitsCounted := by
  refine invariant (I := fun g : Group μ => StartedWell g.calls → g.InitsCounted)
    ?_ ?_ h
  · exact fun _ _ => rfl
  · intro g a g' hreach hg _ hmove hcalls
    have hcalls' := startedWell_of_move hmove hcalls
    refine initsCounted_move hmove (opening hreach hcalls') (fun hno => ?_) hcalls
      (hg hcalls')
    refine List.eq_nil_iff_forall_not_mem.mpr fun m hm => ?_
    have hlt := (inTime hreach hcalls').actors m hm
    simp [batches_of_not_started hno] at hlt

/-- The members in the map are distinct. -/
theorem actors_nodup {n : Nat} {ok : Group μ → Action μ → Prop} {g : Group μ}
    (h : (machine μ n).Reach ok g) : g.actors.values.Nodup := by
  refine invariant (I := fun g : Group μ => g.actors.values.Nodup) ?_ ?_ h
  · exact List.nodup_nil
  · intro g a g' hreach hg _ hmove
    cases hmove with
    | start hidle => exact builder_nodup hreach
    | _ => exact hg

/-! ## Every member is started once -/

theorem init_once {n : Nat} {ok : Group μ → Action μ → Prop} {g : Group μ}
    (h : (machine μ n).Reach ok g) (hcalls : StartedWell g.calls)
    (hstarting : g.main.starting = false) {m : Nat}
    (hm : m < (batches g.calls).started.length) :
    g.history.count (m, .initBegin) = 1 := by
  have hcount := initsCounted h hcalls m
  have hlookup := lookup_of_started h hcalls (List.getElem?_eq_getElem hm)
  rw [List.count_eq_one_of_mem (actors_nodup h)
    (HashMap.mem_values_of_lookup hlookup)] at hcount
  have htodo : g.main.initTodo = [] := by
    cases hmain : g.main <;> simp [hmain, MainPc.starting] at hstarting <;> rfl
  rw [htodo] at hcount
  exact hcount

/-- The calls of a member with `Start` are the letters with `Start` to its name that
were handed over. -/
theorem startsOf_eq {n : Nat} {ok : Group μ → Action μ → Prop} {g : Group μ}
    (h : (machine μ n).Reach ok g) (hcalls : StartedWell g.calls) {m : Nat}
    {name : String} (hname : g.addedNames[m]? = some name)
    (hm : m < (batches g.calls).started.length) :
    g.startsOf m = (g.handed.map ProcessCall.letter).countP fun l =>
      l.addressee = name && l.envelope.msg.isStart := by
  rw [List.countP_map]
  refine List.countP_congr fun c hc => ?_
  have hroute := (routed h).handed c hc
  have hiff : c.actor = m ↔ c.letter.addressee = name := by
    constructor
    · rintro rfl
      rw [hroute, Option.some.injEq] at hname
      exact hname
    · rintro rfl
      exact eq_of_started hcalls hroute hname ((inTime h hcalls).handed c hc) hm
  simp [hiff, (handed_carries h c hc).1]

/-- One letter with `Start` is sent to each name. -/
theorem start_sent_once {names : List String} {sent : List (Letter μ)}
    {started : List String} (h : Greeted names sent [] started)
    (hnodup : started.Nodup) {name : String} (hname : name ∈ started) :
    (sent.countP fun l => l.addressee = name && l.envelope.msg.isStart) = 1 := by
  rw [Greeted, List.map_nil, List.append_nil] at h
  have hcount : ((startLetters sent).map fun l => some l.addressee).count
      (some name) = 1 := by
    rw [h]
    exact List.count_eq_one_of_mem (hnodup.map (Option.some_injective String))
      (List.mem_map_of_mem hname)
  rw [List.count, List.countP_map, startLetters, List.countP_filter] at hcount
  rw [← hcount]
  exact List.countP_congr fun l _ => by simp

theorem start_once {n : Nat} {g : Group μ} (h : (machine μ n).Reach StartFirst g)
    (hcalls : StartedWell g.calls) (hquiet : g.Quiet) {m : Nat}
    (hm : m < (batches g.calls).started.length) : g.startsOf m = 1 := by
  obtain ⟨hstarting, hunderway⟩ := hquiet
  have hname := List.getElem?_eq_getElem hm
  have hleft : g.main.greetLeft g.actorRefs = [] := by
    cases hmain : g.main <;> simp [hmain, MainPc.starting] at hstarting <;> rfl
  have hgreeted := greetedNow h hcalls
  rw [GreetedNow, hleft] at hgreeted
  have hsent := start_sent_once hgreeted hcalls.2 (List.mem_of_getElem? hname)
  -- What was sent was handed over or lost, and no `Start` was lost.
  have hperm : (g.underway ++ g.handed.map ProcessCall.letter ++ g.lost).Perm g.sent :=
    conserved_perm h
  rw [hunderway, List.nil_append] at hperm
  have hlost := start_not_lost h hcalls
  rw [startsOf_eq h hcalls (addedNames_getElem hname) hm, ← hsent,
    ← hperm.countP_eq, List.countP_append, Nat.left_eq_add, List.countP_eq_zero]
  intro l hl
  simp [hlost l hl]

/-- In every run with one call of `start` and distinct names before it, in which the
application does not send `Start` and no handler panics before its member has been
handed its `Start`: once all messages have been dispatched, every member that was
added before `start` has had its `init()` and a `Start`, once each.  The same holds
when nobody was added before a call of `start`. -/
theorem started_once {n : Nat} {g : Group μ} (h : (machine μ n).Reach StartFirst g)
    (hcalls : StartsOnce g.calls) : g.AllStarted := by
  intro hquiet m hm
  rcases hcalls with hnone | hcalls
  · simp [hnone] at hm
  · exact ⟨init_once h hcalls hquiet.1 hm, start_once h hcalls hquiet hm⟩

/-- Two members with different names; a third one takes the name of the first after
`start`. -/
theorem started_once_two : ∃ g : Group Nat,
    g.Quiet ∧ g.addedNames = ["a", "b", "a"] ∧ g.AllStarted := by
  have h := reach_after StartFirst 2
    ([.add "a", .add "b", .start, .mainLock 1, .main, .mainLock 0, .main, .main,
      .main, .main, .main, .main, .main, .main, .add "a", .forwardRecv 0,
      .forwardSend 0, .forwardRecv 1, .forwardSend 1, .worker 0, .worker 0,
      .worker 0, .worker 1, .worker 1, .worker 1] : List (Action Nat)) (by decide)
  exact ⟨_, by decide, by decide, started_once h (by decide)⟩

/-- Two members with one name: the map forgets the first, whose `init()` is never
called, and both letters with `Start` go to the second. -/
theorem not_started_once : ¬ ∀ (n : Nat) (g : Group Nat),
    (machine Nat n).Reachable g → g.AllStarted := by
  intro h
  have hreach := reach_after (fun _ _ => True) 1
    ([.add "a", .add "a", .start, .mainLock 1, .main, .main, .main, .main, .main,
      .main, .main, .forwardRecv 0, .forwardSend 0, .forwardRecv 1, .forwardSend 1,
      .worker 0, .worker 0, .worker 0, .handlerReturn 0, .worker 0, .worker 0,
      .worker 0, .handlerReturn 0] : List (Action Nat)) (by decide)
  have hinit := (h 1 _ hreach (by decide) 0 (by decide)).1
  revert hinit
  decide

end Group

end Actors
