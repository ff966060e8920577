import Actors.Group.Locks
import Actors.Group.Routes

/-!
# Delivery

`delivered` is the main result about a running group: every letter ever sent is
in exactly one place, what has left the queue was handed to the member that it
was addressed to with its own sender and reply channel, nothing is lost, and a
member handles one message at a time.

It joins four facts: the letters inside, handed over and lost are a
permutation of the letters sent (`conserved_perm`), references and maps agree
on the names (`routed`), program counters and lock words agree
(`membersLocked`), and nothing is lost (`lost_eq_nil`).  The last one needs
that the group was filled before it was started: a worker keeps the map that
it was started with, and drops what is addressed to a later member.
-/

namespace Actors

open Concur

variable {μ : Type}

/-- The step is a panic of a handler. -/
def Action.panics : Action μ → Bool
  | .handlerPanic _ => true
  | _ => false

/-- `start` is called at most once, after all calls of `add`. -/
def StartedOnce (calls : List ApiCall) : Prop :=
  calls.Pairwise fun c c' => c = .start → c' ≠ .start ∧ c'.added = none

/-- A place in which a letter can be. -/
inductive Place where
  /-- In the wrapper channel of reference `r`. -/
  | wrapper (r : Nat)
  /-- In the hand of the forwarding thread of reference `r`. -/
  | forwarder (r : Nat)
  /-- In the shared queue. -/
  | queue
  /-- In the hand of worker `i`. -/
  | worker (i : Nat)
  /-- Handed to `process_message` of member `m`. -/
  | handed (m : Nat)
  deriving DecidableEq, Repr

instance (calls : List ApiCall) : Decidable (StartedOnce calls) :=
  inferInstanceAs (Decidable (calls.Pairwise fun c c' =>
    c = .start → c' ≠ .start ∧ c'.added = none))

namespace Group

/-- No handler panics. -/
def NoPanic (_ : Group μ) (a : Action μ) : Prop := a.panics = false

instance (g : Group μ) (a : Action μ) : Decidable (NoPanic g a) :=
  inferInstanceAs (Decidable (a.panics = false))

/-! ## Without a panic no lock is poisoned -/

/-- No lock is poisoned. -/
structure Clean (g : Group μ) : Prop where
  members : ∀ mem ∈ g.members, mem.mutex.poisoned = false
  receiver : g.receiver.poisoned = false

theorem clean_move {g g' : Group μ} {a : Action μ} (h : Move g a g')
    (hok : NoPanic g a) (hg : g.Clean) : g'.Clean := by
  refine ⟨fun mem' hmem' => ?_, ?_⟩
  · obtain ⟨m, hm⟩ := List.mem_iff_getElem?.mp hmem'
    by_contra hpois'
    rw [Bool.not_eq_false] at hpois'
    rcases poisoned_of_move h m mem' hm hpois' with
      ⟨mem, hmem, hpois⟩ | ⟨i, w, rfl, -, -⟩
    · rw [hg.members mem (List.mem_of_getElem? hmem)] at hpois
      simp at hpois
    · simp [NoPanic, Action.panics] at hok
  · cases h with
    | drain => rfl
    | noMember i w d | handlerReturn i w d => cases d <;> exact hg.receiver
    | memberPanic i w d env m mem hw hpc hm hmem hpois =>
      rw [hg.members mem (List.mem_of_getElem? hmem)] at hpois
      simp at hpois
    | handlerPanic => simp [NoPanic, Action.panics] at hok
    | _ => exact hg.receiver

/-- As long as no handler panics, no lock is poisoned. -/
theorem clean {n : Nat} {g : Group μ} (h : (machine μ n).Reach NoPanic g) :
    g.Clean := by
  refine invariant ?_ ?_ h
  · exact ⟨by simp [new], rfl⟩
  · intro g a g' _ hg hok hmove
    exact clean_move hmove hok hg

/-! ## A group that is filled and then started loses nothing -/

/-- Every name is in the map. -/
def Covers (names : List String) (map : HashMap String Nat) : Prop :=
  ∀ name ∈ names, (map.lookup name).isSome

theorem covers_insert {names : List String} {map : HashMap String Nat}
    (h : Covers names map) (name : String) (m : Nat) :
    Covers (names ++ [name]) (map.insert name m) := by
  intro name' hmem
  by_cases hname : name' = name
  · subst hname
    simp
  · rw [AList.lookup_insert_ne hname]
    rw [List.mem_append, List.mem_singleton] at hmem
    exact h name' (hmem.resolve_right hname)

/-- `start` runs only after it was called. -/
theorem started_of_starting {n : Nat} {ok : Group μ → Action μ → Prop}
    {g : Group μ} (h : (machine μ n).Reach ok g) :
    g.main.starting = true → .start ∈ g.calls := by
  refine invariant
    (I := fun g => g.main.starting = true → .start ∈ g.calls) ?_ ?_ h
  · intro hs
    simp [new, MainPc.starting] at hs
  · intro g a g' _ hg _ hmove
    cases hmove with
    | add name hidle => simp [hidle, MainPc.starting]
    | start hidle => simp
    | shutdown | wait | endCall | endLock | lockPanic | endReturn | spawned
    | sendShutdown | endsDone | join | joined => simp [MainPc.starting]
    | clearRunning b hmain => cases b <;> simp [MainPc.starting]
    | initLock m mem todo hmain hm hmem => exact fun _ => hg (by rw [hmain]; rfl)
    | initReturn m todo hmain => exact fun _ => hg (by rw [hmain]; rfl)
    | initsDone hmain => exact fun _ => hg (by rw [hmain]; rfl)
    | sendStart r rs f hmain => exact fun _ => hg (by rw [hmain]; rfl)
    | startSent hmain => exact fun _ => hg (by rw [hmain]; rfl)
    | spawn k hmain => exact fun _ => hg (by rw [hmain]; rfl)
    | _ => exact hg

/-- The maps of a group that is filled and then started. -/
structure Complete (g : Group μ) : Prop where
  before : .start ∉ g.calls → g.workers = [] ∧
    Covers g.addedNames g.actorsBuilder
  after : .start ∈ g.calls → Covers g.addedNames g.actors
  workers : ∀ w ∈ g.workers, Covers g.addedNames w.actors

theorem startedOnce_of_append {calls : List ApiCall} {c : ApiCall}
    (h : StartedOnce (calls ++ [c])) : StartedOnce calls :=
  (List.pairwise_append.mp h).1

/-- Nothing is added and nothing is started after `start`. -/
theorem not_started_of_append {calls : List ApiCall} {c : ApiCall}
    (h : StartedOnce (calls ++ [c])) (hc : c = .start ∨ c.added ≠ none) :
    .start ∉ calls := by
  intro hmem
  have hafter := (List.pairwise_append.mp h).2.2 .start hmem c (by simp) rfl
  rcases hc with hc | hc
  · exact hafter.1 hc
  · exact hc hafter.2

/-- A call that is neither `add` nor `start` leaves the maps alone. -/
theorem Complete.call {g g' : Group μ} {c : ApiCall} (hg : g.Complete)
    (hcalls : g'.calls = g.calls ++ [c]) (hadd : c.added = none)
    (hstart : c ≠ .start) (hbuilder : g'.actorsBuilder = g.actorsBuilder)
    (hactors : g'.actors = g.actors) (hworkers : g'.workers = g.workers) :
    g'.Complete := by
  have hnames : g'.addedNames = g.addedNames := addedNames_call hcalls hadd
  have hmem : .start ∈ g'.calls ↔ .start ∈ g.calls := by
    simp [hcalls, Ne.symm hstart]
  refine ⟨?_, ?_, ?_⟩
  · rw [hmem, hnames, hbuilder, hworkers]
    exact hg.before
  · rw [hmem, hnames, hactors]
    exact hg.after
  · rw [hnames, hworkers]
    exact hg.workers

theorem complete_move {g g' : Group μ} {a : Action μ} (h : Move g a g')
    (hstarting : g.main.starting = true → .start ∈ g.calls)
    (hcalls : StartedOnce g'.calls) (hg : g.Complete) : g'.Complete := by
  have hnil : .start ∉ g.calls → g'.workers = [] := by
    intro hno
    refine workers_nil_of_move h (fun k hmain => hno (hstarting ?_)) (hg.before hno).1
    rw [hmain]
    rfl
  have hmaps : ∀ w ∈ g'.workers, Covers g.addedNames w.actors := by
    intro w hw
    rcases maps_of_move h w hw with ⟨x, hx, heq⟩ | ⟨heq, hstart⟩
    · rw [heq]
      exact hg.workers x hx
    · rw [heq]
      exact hg.after (hstarting hstart)
  cases h with
  | add name hidle =>
    have hno : .start ∉ g.calls :=
      not_started_of_append hcalls (Or.inr (by simp [ApiCall.added]))
    obtain ⟨hworkers, hbuilder⟩ := hg.before hno
    have hnames : (g.calls ++ [ApiCall.add name]).filterMap ApiCall.added =
        g.addedNames ++ [name] := by simp [addedNames, ApiCall.added]
    refine ⟨fun _ => ⟨hworkers, ?_⟩, fun hyes => ?_, ?_⟩
    · rw [addedNames, hnames]
      exact covers_insert hbuilder name _
    · simp [hno] at hyes
    · simp [hworkers]
  | start hidle =>
    have hno : .start ∉ g.calls :=
      not_started_of_append hcalls (Or.inl rfl)
    obtain ⟨hworkers, hbuilder⟩ := hg.before hno
    refine ⟨fun hno' => ?_, fun _ => ?_, ?_⟩
    · simp at hno'
    · rw [addedNames_call rfl rfl]
      exact hbuilder
    · simp [hworkers]
  | shutdown hidle | wait hidle | endCall hidle =>
    exact hg.call rfl rfl (by simp) rfl rfl rfl
  | _ => exact ⟨fun hno => ⟨hnil hno, (hg.before hno).2⟩, hg.after, hmaps⟩

/-- The list of calls only grows, so the scope also held before. -/
theorem startedOnce_of_move {g g' : Group μ} {a : Action μ}
    (h : Move g a g') (hcalls : StartedOnce g'.calls) :
    StartedOnce g.calls := by
  rcases calls_of_move h with heq | ⟨c, heq⟩
  · exact heq ▸ hcalls
  · exact startedOnce_of_append (heq ▸ hcalls)

theorem complete {n : Nat} {ok : Group μ → Action μ → Prop} {g : Group μ}
    (h : (machine μ n).Reach ok g) : StartedOnce g.calls → g.Complete := by
  refine invariant
    (I := fun g => StartedOnce g.calls → g.Complete) ?_ ?_ h
  · intro _
    exact ⟨fun _ => ⟨rfl, by simp [Covers, addedNames, new]⟩, by simp [new],
      by simp [new]⟩
  · intro g a g' hreach hg _ hmove hcalls
    have hcalls' := startedOnce_of_move hmove hcalls
    exact complete_move hmove (started_of_starting hreach) hcalls (hg hcalls')

/-- Nothing is lost in a group that is filled and then started, as long as no
handler panics. -/
theorem lost_eq_nil {n : Nat} {g : Group μ}
    (h : (machine μ n).Reach NoPanic g) : StartedOnce g.calls → g.lost = [] := by
  refine invariant
    (I := fun g => StartedOnce g.calls → g.lost = []) ?_ ?_ h
  · intro _
    rfl
  · intro g a g' hreach hg _ hmove hcalls
    have hcalls' := startedOnce_of_move hmove hcalls
    cases hmove with
    | noMember i w d env hw hpc hno =>
      have hwm := List.mem_of_getElem? hw
      have henv := (routed hreach).hands w hwm d env hpc
      have hmap := (complete hreach hcalls').workers w hwm _ (henv.1 ▸ henv.2)
      rw [hno] at hmap
      simp at hmap
    | memberPanic i w d env m mem hw hpc hm hmem hpois =>
      rw [(clean hreach).members mem (List.mem_of_getElem? hmem)] at hpois
      simp at hpois
    | _ => exact hg hcalls'

/-! ## What a member is called with -/

/-- Every call of `process_message` carries its letter. -/
theorem handed_carries {n : Nat} {ok : Group μ → Action μ → Prop}
    {g : Group μ} (h : (machine μ n).Reach ok g) :
    ∀ c ∈ g.handed, c.Carries := by
  refine invariant (I := fun g => ∀ c ∈ g.handed, c.Carries)
    ?_ ?_ h
  · simp [new]
  · intro g a g' _ hg _ hmove
    cases hmove with
    | processBegin => exact forall_mem_snoc hg ⟨rfl, rfl, rfl⟩
    | _ => exact hg

/-! ## Where the letters are -/

/-- Where the letters are. -/
def whereabouts (g : Group μ) : List (Place × Letter μ) :=
  (g.forwarders.zipIdx.flatMap fun (f, r) =>
    f.hand.toList.map (Prod.mk (.forwarder r)) ++
      f.chan.map (Prod.mk (.wrapper r))) ++
  g.queue.map (fun env => (.queue, env.letter)) ++
  (g.workers.zipIdx.flatMap fun (w, i) =>
    w.hand.toList.map (Prod.mk (.worker i))) ++
  g.handed.map fun c => (.handed c.actor, c.letter)

theorem flatMap_zipIdx {α β : Type} (f : α → List β) (xs : List α) :
    (xs.zipIdx.flatMap fun x => f x.1) = xs.flatMap f := by
  rw [← List.flatMap_map, List.zipIdx_map_fst]

theorem whereabouts_letters (g : Group μ) :
    g.whereabouts.map Prod.snd =
      g.forwarders.flatMap Forwarder.pending ++
        g.queue.map GroupEnvelope.letter ++
        g.workers.flatMap (fun w => w.hand.toList) ++
        g.handed.map ProcessCall.letter := by
  simp only [whereabouts, List.map_append, List.map_flatMap, List.map_map,
    Function.comp_def, List.map_id']
  rw [flatMap_zipIdx fun f : Forwarder μ => f.hand.toList ++ f.chan,
    flatMap_zipIdx fun w : Worker μ => w.hand.toList]
  rfl

/-- The number of the member that was added under a name. -/
def memberNamed (g : Group μ) (name : String) : Option Nat :=
  g.addedNames.idxOf? name

/-- Every letter is delivered exactly once, to the right member, one at a
time. -/
structure Delivered (g : Group μ) : Prop where
  /-- What can be found in some place is what was sent, and each letter is
  found once. -/
  once : (g.whereabouts.map Prod.snd).Perm g.sent
  distinct : g.sent.Nodup
  place : ∀ l ∈ g.sent, ∃! p, (p, l) ∈ g.whereabouts
  nothing_lost : g.lost = []
  /-- A letter was sent through a reference with the name it is addressed
  to. -/
  reference : ∀ l ∈ g.sent,
    (g.forwarders.map Forwarder.name)[l.via]? = some l.addressee
  /-- It does not visit the wrapper channel or the forwarder of another
  reference. -/
  own_reference : ∀ r l, (Place.wrapper r, l) ∈ g.whereabouts ∨
    (Place.forwarder r, l) ∈ g.whereabouts → l.via = r
  right_member : ∀ c ∈ g.handed,
    g.memberNamed c.letter.addressee = some c.actor
  right_call : ∀ c ∈ g.handed, c.Carries
  /-- At most one worker is inside `process_message` of a member. -/
  alone : ∀ (i j m : Nat) (w w' : Worker μ), g.workers[i]? = some w →
    g.workers[j]? = some w' → w.pc.inside = some m → w'.pc.inside = some m →
    i = j

theorem place_of_mem_whereabouts {g : Group μ} {r : Nat} {l : Letter μ}
    (h : (Place.wrapper r, l) ∈ g.whereabouts ∨
      (Place.forwarder r, l) ∈ g.whereabouts) :
    ∃ f, g.forwarders[r]? = some f ∧ l ∈ f.pending := by
  simp only [whereabouts, List.mem_append, List.mem_flatMap, List.mem_map,
    Prod.exists, Prod.mk.injEq, Place.wrapper.injEq, Place.forwarder.injEq,
    List.mem_zipIdx_iff_getElem?, reduceCtorEq, false_and, and_false,
    exists_false, or_false, false_or] at h
  simp only [Forwarder.pending, List.mem_append]
  rcases h with ⟨f, k, hf, x, hx, rfl, rfl⟩ | ⟨f, k, hf, x, hx, rfl, rfl⟩
  · exact ⟨f, hf, Or.inr hx⟩
  · exact ⟨f, hf, Or.inl hx⟩

/-- In every state of every run without a panic, of a group that was filled
with distinctly named members and then started once, every letter is delivered
exactly once, to the right member, one at a time. -/
theorem delivered {n : Nat} {g : Group μ} (h : (machine μ n).Reach NoPanic g)
    (hcalls : StartedOnce g.calls) (hnames : g.addedNames.Nodup) :
    g.Delivered := by
  have hlost := lost_eq_nil h hcalls
  have hrouted := routed h
  have hnodup := sent_nodup h
  have honce : (g.whereabouts.map Prod.snd).Perm g.sent := by
    have hperm := conserved_perm h
    rw [hlost, List.append_nil, ← whereabouts_letters] at hperm
    exact hperm
  refine ⟨honce, hnodup, ?_, hlost, hrouted.sent, ?_, ?_, handed_carries h, ?_⟩
  · intro l hl
    obtain ⟨⟨p, l'⟩, hp, rfl⟩ := List.mem_map.mp (honce.mem_iff.mpr hl)
    refine ⟨p, hp, fun q hq => ?_⟩
    have heq := List.inj_on_of_nodup_map (honce.nodup_iff.mpr hnodup) hq hp rfl
    exact congrArg Prod.fst heq
  · intro r l hmem
    obtain ⟨f, hf, hl⟩ := place_of_mem_whereabouts hmem
    exact (hrouted.pending r f hf l hl).1
  · intro c hc
    obtain ⟨hlt, hget⟩ := List.getElem?_eq_some_iff.mp (hrouted.handed c hc)
    refine List.idxOf?_eq_some_iff.mpr ⟨hlt, hget, fun j hj heq => ?_⟩
    have hij := (hnames.getElem_inj_iff).mp (heq.trans hget.symm)
    omega
  · intro i j m w w' hw hw' hin hin'
    have hlocked := membersLocked h
    have heq := hlocked.unique (t := .worker i) (u := .worker j) (m := m)
      (by simp [insideOf, hw, hin]) (by simp [insideOf, hw', hin'])
    simpa using heq

/-- A group with two members and two workers in the middle of its work: the
first `Start` is being handled, the second is in its forwarder's hand, and a
message sits in the wrapper channel of each of two references. -/
theorem delivered_busy : ∃ g : Group Nat, (machine Nat 2).Reach NoPanic g ∧
    g.whereabouts.map Prod.fst =
      [.forwarder 1, .wrapper 1, .wrapper 2, .handed 0] ∧ g.Delivered := by
  have hrun := reach_after NoPanic 2
    [.add "a", .add "b", .start, .mainLock 0, .main, .mainLock 1, .main, .main,
      .main, .main, .main, .main, .main, .main, .getRef "a",
      .send (.client 0) 2 (.user 7) none,
      .fastSend (.client 1) 1 (.user 8) none, .forwardRecv 0, .forwardSend 0,
      .forwardRecv 1, .worker 0, .worker 0, .worker 0] (by decide)
  exact ⟨_, hrun, by decide, delivered hrun (by decide) (by decide)⟩

end Group

end Actors
