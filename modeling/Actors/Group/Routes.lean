import Actors.Group.Flow

/-!
# Names, members and destinations

A group routes by name: a reference has a name, its forwarding thread writes
that name on what it forwards, and a worker looks the name up in the map that
it was started with.  `Routed` says that all of these agree, in every state:
whatever a reference, an envelope in the queue or an envelope in a worker's
hand is addressed to was added to the group, and a map only leads to a member
that was added under the name it is looked up by.
-/

namespace Actors

open Concur

variable {μ : Type}

/-- The name that a call adds to the group, if any. -/
def ApiCall.added : ApiCall → Option String
  | .add name => some name
  | _ => none

/-- The envelope goes to the name that its letter was sent to, and that name
is one of `names`. -/
def GroupEnvelope.Addressed (names : List String) (env : GroupEnvelope μ) :
    Prop :=
  env.destination = env.letter.addressee ∧ env.letter.addressee ∈ names

/-- The map leads from a name to a member that was added under it. -/
def Leads (names : List String) (map : HashMap String Nat) : Prop :=
  ∀ name m, map.lookup name = some m → names[m]? = some name

namespace Group

/-- The names that were added, in order: member `m` was added under the `m`-th
of them. -/
def addedNames (g : Group μ) : List String := g.calls.filterMap ApiCall.added

/-- References, envelopes and maps agree on `names`, the names added so far. -/
structure Routed (names : List String) (g : Group μ) : Prop where
  count : g.members.length = names.length
  builder : Leads names g.actorsBuilder
  actors : Leads names g.actors
  maps : ∀ w ∈ g.workers, Leads names w.actors
  refs : ∀ f ∈ g.forwarders, f.destName = f.name ∧ f.name ∈ names
  sent : ∀ l ∈ g.sent,
    (g.forwarders.map Forwarder.name)[l.via]? = some l.addressee
  pending : ∀ (r : Nat) (f : Forwarder μ), g.forwarders[r]? = some f →
    ∀ l ∈ f.pending, l.via = r ∧ l.addressee = f.name
  queue : ∀ env ∈ g.queue, env.Addressed names
  hands : ∀ w ∈ g.workers, ∀ d env, w.pc = .dispatch d env →
    env.Addressed names
  handed : ∀ c ∈ g.handed, names[c.actor]? = some c.letter.addressee

/-! ## A name more -/

theorem getElem?_concat {α : Type} {xs ys : List α} {x : α} {m : Nat}
    (h : xs[m]? = some x) : (xs ++ ys)[m]? = some x := by
  rw [List.getElem?_append_left (List.getElem?_eq_some_iff.mp h).1]
  exact h

theorem leads_concat {names : List String} {map : HashMap String Nat}
    (h : Leads names map) (name : String) : Leads (names ++ [name]) map :=
  fun name' m hm => getElem?_concat (h name' m hm)

/-- The builder of a group after `add`. -/
theorem leads_insert {names : List String} {map : HashMap String Nat}
    (h : Leads names map) (name : String) :
    Leads (names ++ [name]) (map.insert name names.length) := by
  intro name' m hm
  by_cases hname : name' = name
  · subst hname
    rw [AList.lookup_insert, Option.some.injEq] at hm
    simp [← hm]
  · rw [AList.lookup_insert_ne hname] at hm
    exact getElem?_concat (h name' m hm)

theorem leads_empty (names : List String) : Leads names ∅ := by
  intro name m hm
  simp at hm

/-- A map that a worker or the main thread goes through leads to members. -/
theorem lt_of_leads {names : List String} {map : HashMap String Nat}
    (h : Leads names map) : ∀ m ∈ map.values, m < names.length := by
  intro m hm
  obtain ⟨name, hname⟩ := HashMap.lookup_of_mem_values hm
  exact (List.getElem?_eq_some_iff.mp (h name m hname)).1

theorem addressed_concat {names : List String} {env : GroupEnvelope μ}
    (h : env.Addressed names) (name : String) :
    env.Addressed (names ++ [name]) :=
  ⟨h.1, List.mem_append_left _ h.2⟩

theorem addedNames_call {g g' : Group μ} {c : ApiCall}
    (hcalls : g'.calls = g.calls ++ [c]) (hc : c.added = none) :
    g'.addedNames = g.addedNames := by
  simp [addedNames, hcalls, hc]

/-! ## Every step keeps the routes -/

section Keep

variable {names : List String} {g : Group μ}

theorem Routed.add (hg : Routed names g) (name : String) :
    Routed (names ++ [name]) { g with
      forwarders := g.forwarders ++ [Forwarder.new name]
      members := g.members ++ [GroupMember.new
        (.localRef { sender := g.forwarders.length, name })]
      actorsBuilder := g.actorsBuilder.insert name g.members.length
      actorRefs := g.actorRefs ++ [g.forwarders.length]
      calls := g.calls ++ [.add name] } := by
  refine ⟨?_, ?_, ?_, ?_, ?_, ?_, ?_, ?_, ?_, ?_⟩
  · simp [hg.count]
  · simp only [hg.count]
    exact leads_insert hg.builder name
  · exact leads_concat hg.actors name
  · exact fun w hw => leads_concat (hg.maps w hw) name
  · refine forall_mem_snoc (fun f hf => ?_) ⟨rfl, by simp [Forwarder.new]⟩
    exact ⟨(hg.refs f hf).1, List.mem_append_left _ (hg.refs f hf).2⟩
  · rw [List.map_append]
    exact fun l hl => getElem?_concat (hg.sent l hl)
  · refine forall_getElem?_snoc hg.pending ?_
    simp [Forwarder.new, Forwarder.pending]
  · exact fun env henv => addressed_concat (hg.queue env henv) name
  · exact fun w hw d env hpc => addressed_concat (hg.hands w hw d env hpc) name
  · exact fun c hc => getElem?_concat (hg.handed c hc)

/-- `get_ref` only makes references for names that were added. -/
theorem Routed.mem_of_hasRef (hg : Routed names g) {name : String}
    (h : g.hasRef name = true) : name ∈ names := by
  unfold hasRef at h
  rw [Bool.or_eq_true, Option.isSome_iff_exists, Option.isSome_iff_exists] at h
  rcases h with ⟨m, hm⟩ | ⟨m, hm⟩
  · exact List.mem_of_getElem? (hg.builder name m hm)
  · exact List.mem_of_getElem? (hg.actors name m hm)

/-- A forwarder that goes on keeps its name. -/
theorem Routed.sent_set (hg : Routed names g) {r : Nat} {f f' : Forwarder μ}
    (hf : g.forwarders[r]? = some f) (hname : f'.name = f.name) :
    ∀ l ∈ g.sent,
      ((g.forwarders.set r f').map Forwarder.name)[l.via]? =
        some l.addressee := by
  rw [map_set_of_eq Forwarder.name hf hname]
  exact hg.sent

theorem Routed.posted (hg : Routed names g) {r : Nat} {f : Forwarder μ}
    {l : Letter μ} (hf : g.forwarders[r]? = some f)
    (hvia : l.via = r) (hname : l.addressee = f.name) :
    Routed names (g.posted r f l) := by
  have hmem := List.mem_of_getElem? hf
  refine ⟨hg.count, hg.builder, hg.actors, hg.maps, ?_, ?_, ?_, hg.queue,
    hg.hands, hg.handed⟩
  · exact forall_mem_set hg.refs (hg.refs f hmem)
  · refine forall_mem_snoc (hg.sent_set hf rfl) ?_
    have hnames : (g.posted r f l).forwarders.map Forwarder.name =
        g.forwarders.map Forwarder.name := map_set_of_eq Forwarder.name hf rfl
    rw [hnames]
    simp [hvia, hname, hf]
  · refine forall_getElem?_set hg.pending fun x hx => ?_
    rw [Forwarder.pending, ← List.append_assoc] at hx
    rcases List.mem_append.mp hx with hx | hx
    · exact hg.pending r f hf x hx
    · rw [List.mem_singleton.mp hx]
      exact ⟨hvia, hname⟩

/-- A worker that goes on with nothing in hand. -/
theorem Routed.hands_set (hg : Routed names g) {i : Nat} {w : Worker μ}
    {pc : WorkerPc μ} (hpc : pc.hand = none) :
    ∀ w' ∈ g.workers.set i { w with pc := pc }, ∀ d env,
      w'.pc = .dispatch d env → env.Addressed names := by
  refine forall_mem_set hg.hands fun d env heq => ?_
  have hpc' : pc = .dispatch d env := heq
  rw [hpc'] at hpc
  simp [WorkerPc.hand] at hpc

theorem Routed.maps_set (hg : Routed names g) {i : Nat} {w : Worker μ}
    (hw : g.workers[i]? = some w) (pc : WorkerPc μ) :
    ∀ w' ∈ g.workers.set i { w with pc := pc }, Leads names w'.actors :=
  forall_mem_set hg.maps (hg.maps w (List.mem_of_getElem? hw))

end Keep

theorem routed_move {g g' : Group μ} {a : Action μ} (h : Move g a g')
    (hg : g.Routed g.addedNames) : g'.Routed g'.addedNames := by
  cases h with
  | add name hidle =>
    have hnames : (g.calls ++ [ApiCall.add name]).filterMap ApiCall.added =
        g.addedNames ++ [name] := by simp [addedNames, ApiCall.added]
    rw [addedNames, hnames]
    exact hg.add name
  | getRef name href =>
    refine { hg with refs := ?_, sent := ?_, pending := ?_ }
    · exact forall_mem_snoc hg.refs ⟨rfl, hg.mem_of_hasRef href⟩
    · rw [List.map_append]
      exact fun l hl => getElem?_concat (hg.sent l hl)
    · refine forall_getElem?_snoc hg.pending ?_
      simp [Forwarder.new, Forwarder.pending]
  | start hidle =>
    rw [addedNames_call rfl rfl]
    exact { hg with builder := leads_empty _, actors := hg.builder }
  | shutdown hidle | wait hidle | endCall hidle =>
    rw [addedNames_call rfl rfl]
    exact { hg with }
  | initLock m mem todo hmain hm hmem | endLock m mem todo hmain hm hmem
  | reply i msg w d m l mem hw hpc hmem =>
    exact { hg with count := List.length_set.trans hg.count }
  | initReturn m todo hmain | endReturn m todo hmain =>
    exact { hg with count := (List.length_modify _ _ _).trans hg.count }
  | sendStart r rs f hmain hf hlive =>
    have hposted := hg.posted (l := g.letterOf .main r f.name .start none false)
      hf rfl rfl
    exact { hposted with }
  | sendShutdown r rs b f hmain hf hlive =>
    have hposted := hg.posted
      (l := g.letterOf .main r f.name .shutdown none false) hf rfl rfl
    exact { hposted with }
  | send t r msg sender f hcan hfree hf hlive =>
    exact hg.posted hf rfl rfl
  | fastSend t r msg sender f hcan hfree hf hlive =>
    have hposted := hg.posted (l := g.letterOf t r f.name msg sender true) hf
      rfl rfl
    exact { hposted with }
  | spawn n hmain =>
    refine { hg with maps := forall_mem_snoc hg.maps hg.actors, hands := ?_ }
    exact forall_mem_snoc hg.hands (by simp)
  | dropRef r f hf hr | forwardExit r f hf hlive =>
    have hmem := List.mem_of_getElem? hf
    exact { hg with
      refs := forall_mem_set hg.refs (hg.refs f hmem)
      sent := hg.sent_set hf rfl
      pending := forall_getElem?_set hg.pending (hg.pending r f hf) }
  | forwardRecv r f l rest hf hchan hhand =>
    have hmem := List.mem_of_getElem? hf
    refine { hg with
      refs := forall_mem_set hg.refs (hg.refs f hmem)
      sent := hg.sent_set hf rfl
      pending := forall_getElem?_set hg.pending fun x hx => ?_ }
    refine hg.pending r f hf x ?_
    simpa [Forwarder.pending, hchan, hhand] using hx
  | forwardSend r f l hf hhand =>
    have hmem := List.mem_of_getElem? hf
    have hl := hg.pending r f hf l (by simp [Forwarder.pending, hhand])
    refine { hg with
      refs := forall_mem_set hg.refs (hg.refs f hmem)
      sent := hg.sent_set hf rfl
      pending := forall_getElem?_set hg.pending fun x hx => ?_
      queue := forall_mem_snoc hg.queue ⟨?_, ?_⟩ }
    · exact hg.pending r f hf x (List.mem_append_right _ hx)
    · exact (hg.refs f hmem).1.trans hl.2.symm
    · exact hl.2 ▸ (hg.refs f hmem).2
  | check i w hw hpc =>
    refine { hg with maps := hg.maps_set hw _, hands := hg.hands_set ?_ }
    cases g.running <;> rfl
  | recvPanic i w hw hpc hpois | recvEmpty i w hw hpc
  | drainEmpty i w hw hpc hq | memberPanic i w d env m mem hw hpc =>
    exact { hg with maps := hg.maps_set hw _, hands := hg.hands_set rfl }
  | recv i w env rest hw hpc hfree hq | drain i w env rest hw hpc hfree hq =>
    have henv := hg.queue env (by simp [hq])
    refine { hg with
      maps := hg.maps_set hw _
      queue := fun x hx => hg.queue x (by simp [hq, hx])
      hands := forall_mem_set hg.hands fun d env' heq => ?_ }
    obtain ⟨-, rfl⟩ := WorkerPc.dispatch.inj heq
    exact henv
  | noMember i w d env hw hpc hno =>
    exact { hg with
      maps := hg.maps_set hw _
      hands := hg.hands_set (hand_after d) }
  | processBegin i w d env m mem hw hpc hm hmem hfree hclean =>
    have hwm := List.mem_of_getElem? hw
    have henv := hg.hands w hwm d env hpc
    refine { hg with
      count := List.length_set.trans hg.count
      maps := hg.maps_set hw _
      hands := hg.hands_set rfl
      handed := forall_mem_snoc hg.handed ?_ }
    exact henv.1 ▸ hg.maps w hwm _ m hm
  | handlerReturn i w d m l hw hpc hfree =>
    exact { hg with
      count := (List.length_modify _ _ _).trans hg.count
      maps := hg.maps_set hw _
      hands := hg.hands_set (hand_after d) }
  | handlerPanic i w d m l hw hpc hfree =>
    exact { hg with
      count := (List.length_modify _ _ _).trans hg.count
      maps := hg.maps_set hw _
      hands := hg.hands_set rfl }
  | _ => exact { hg with }

/-- References, envelopes and maps agree on the names in every state of every
run. -/
theorem routed {n : Nat} {ok : Group μ → Action μ → Prop} {g : Group μ}
    (h : (machine μ n).Reach ok g) : g.Routed g.addedNames := by
  refine invariant (I := fun g => g.Routed g.addedNames) ?_ ?_ h
  · exact ⟨rfl, leads_empty _, leads_empty _, by simp [new], by simp [new],
      by simp [new], by simp [new], by simp [new], by simp [new], by simp [new]⟩
  · intro g a g' _ hg _ hmove
    exact routed_move hmove hg

end Group

end Actors
