import Mathlib.Algebra.GroupWithZero.Nat
import Mathlib.Data.List.Perm.Subperm
import Actors.App.Handled

/-!
# The work of a program

A program whose handlers send, reply and terminate, and do not panic
(`Actors.App.Program`), has no busy loop but the one in `run`.  The call that the main thread
is in ends after as many steps as it has actors and threads to visit, unless it
waits, and an actor takes a bounded number of steps for each message.

* `left` is what the main thread has still to do, and `worth` what the thread of
  an actor has done.
* `steps_le`: apart from the polls of `run`, the number of steps of a run is
  bounded by the calls of the main function, the actors that it makes and the
  messages that were handled.
-/

namespace Actors

open Concur

variable {μ σ : Type}

/-- Where the thread of the actor stands, and how many messages it was handed. -/
def Runtime.place (a : Runtime μ) : RuntimePc μ × Nat := (a.pc, a.letters.length)

/-! ## The main thread -/

namespace Manager

/-- How many steps the call that runs has still to take, at most and without
waiting. -/
def left (s : Manager μ) : Nat :=
  match s.main with
  | .idle => 0
  | .initSend todo => 2 * todo.length + 1
  | .initSpawn _ todo => 2 * todo.length + 2
  | .running => 1
  | .shutdownSend todo false => todo.length + 1
  | .shutdownSend todo true => todo.length + s.threads.length + 2
  | .join todo _ => todo.length + 1

/-- Letters of the main thread. -/
def mainSent (s : Manager μ) : Nat := s.sent.countP fun l => l.author = .main

/-- The manager has no more runtimes, threads and references than actors. -/
structure Bounded (s : Manager μ) : Prop where
  runtimes : s.runtimes.length ≤ s.actors.length
  threads : s.threads.length ≤ s.actors.length
  refs : s.actorRefs.length ≤ s.actors.length

/-- As many different numbers as there are below `n`. -/
theorem length_le_of_nodup {l : List Nat} {n : Nat} (hnodup : l.Nodup)
    (hlt : ∀ k ∈ l, k < n) : l.length ≤ n := by
  have hsub : l ⊆ List.range n := fun k hk => List.mem_range.mpr (hlt k hk)
  have hle := (hnodup.subperm hsub).length_le
  rwa [List.length_range] at hle

/-- `manage` keeps one reference to each actor. -/
theorem length_refs {ok : Manager μ → ManagerAction μ → Prop} {s : Manager μ}
    (h : (machine μ).Reach ok s) : s.actorRefs.length = s.actors.length := by
  refine h.invariant (I := fun s => s.actorRefs.length = s.actors.length) ?_ ?_
  · rintro s rfl
    rfl
  · intro s b s' _ hs _ hstep
    have hlength := length_of_step hstep
    cases move_of_step hstep with
    | manage name hidle =>
      rcases hlength with ⟨-, -, hlen⟩ | ⟨hno, -⟩
      · rw [hlen]
        simp [hs]
      · exact absurd rfl (hno name)
    | refused _ k a hb => exact hs
    | actor _ k a a' events hb => simpa using hs
    | _ => simpa [posted] using hs

theorem bounded {ok : Manager μ → ManagerAction μ → Prop} {s : Manager μ}
    (h : (machine μ).Reach ok s) : s.Bounded := by
  have howned := owned h
  have hlen : s.pcs.length = s.actors.length := by simp [pcs]
  obtain ⟨hstarts, hjoins, -⟩ := List.nodup_append.mp howned.distinct
  refine ⟨?_, ?_, Nat.le_of_eq (length_refs h)⟩
  · refine length_le_of_nodup (List.nodup_append.mp hstarts).1 fun k hk => ?_
    rw [← hlen]
    exact howned.bound k (by simp [hk])
  · refine length_le_of_nodup (List.nodup_append.mp hjoins).1 fun k hk => ?_
    rw [← hlen]
    exact howned.bound k (by simp [hk])

/-- The main thread polls the flag, and it is not set. -/
def sleeps (s : Manager μ) : Bool := s.main = .running && !s.terminateFlag

/-- A step of the call that runs: the call has less to do, and it may have sent
one letter. -/
theorem left_of_main {s s' : Manager μ} (hstep : s.step .main = some s') :
    (s.sleeps = true ∧ s' = s) ∨
      (s.sleeps = false ∧ s'.left < s.left ∧ s'.mainSent ≤ s.mainSent + 1) := by
  have hsent : ∀ l : Letter μ, (s.sent ++ [l]).countP (fun l => l.author = .main) ≤
      s.mainSent + 1 := by
    intro l
    rw [List.countP_append, List.countP_singleton]
    split <;> simp [mainSent]
  cases move_of_step hstep with
  | runSleep hmain hflag => exact Or.inl ⟨by simp [sleeps, hmain, hflag], rfl⟩
  | sendStart k todo a hmain ha hlive =>
    exact Or.inr ⟨by simp [sleeps, hmain], by simp [left, hmain]; omega, hsent _⟩
  | sendShutdown k todo inEnd a hmain ha hlive =>
    refine Or.inr ⟨by simp [sleeps, hmain], ?_, hsent _⟩
    cases inEnd <;> simp [left, hmain, posted]
  | shutdownRefused k todo inEnd a hmain ha hdead =>
    refine Or.inr ⟨by simp [sleeps, hmain], ?_, Nat.le_succ _⟩
    cases inEnd <;> simp [left, hmain]
  | startRefused _ todo _ hmain =>
    refine Or.inr ⟨by simp [sleeps, hmain], ?_, Nat.le_succ _⟩
    simp only [left, hmain, List.length_cons]
    omega
  | spawn _ _ hmain | initDone hmain | shutdownThenWait hmain | shutdownDone hmain
  | join _ _ _ _ hmain | joined _ hmain =>
    exact Or.inr ⟨by simp [sleeps, hmain], by simp [left, hmain], Nat.le_succ _⟩
  | runDone hmain hflag =>
    exact Or.inr ⟨by simp [sleeps, hflag], by simp [left, hmain], Nat.le_succ _⟩
  | refused _ k a hb => simp at hb
  | actor _ k a a' events hb => simp at hb

/-- A call that begins has no more to do than the manager has actors. -/
theorem left_of_call {s s' : Manager μ} {call : MainCall μ σ} (h : s.Bounded)
    (hidle : s.main = .idle) (hstep : s.step call.label = some s') :
    s'.left ≤ 2 * s.actors.length + 2 ∧ s'.mainSent ≤ s.mainSent + 1 := by
  obtain ⟨hruntimes, hthreads, hrefs⟩ := h
  cases call with
  | send k m =>
    cases move_of_step hstep with
    | send t k msg sender a hcan hfree ha hlive =>
      simp [left, posted, hidle, mainSent, letterOf, List.countP_append]
    | refused _ k a hb => simp [left, hidle]
    | actor _ k a a' events hb => simp [MainCall.label] at hb
  | manage name code | init | run | shutdown | wait | endCall =>
    cases move_of_step hstep with
    | refused _ k a hb => simp [MainCall.label] at hb
    | actor _ k a a' events hb => simp [MainCall.label] at hb
    | _ =>
      simp only [left, mainSent, hidle]
      omega

/-- The thread of an actor changes nothing that the main thread works on. -/
theorem main_of_worker {s s' : Manager μ} {b : ManagerAction μ} {k : Nat}
    (hb : b.mover = .worker k) (hstep : s.step b = some s') :
    s'.main = s.main ∧ s'.threads = s.threads ∧ s'.runtimes = s.runtimes ∧
      s'.mainSent = s.mainSent := by
  cases move_of_step hstep with
  | send t j msg sender a | fastSend t j msg sender a =>
    obtain rfl : t = .worker k := hb
    simp [posted, mainSent, letterOf, List.countP_append]
  | refused _ j a hb' => exact ⟨rfl, rfl, rfl, rfl⟩
  | actor _ j a a' events hb' => exact ⟨rfl, rfl, rfl, rfl⟩
  | terminate | fastReturn | fastReturnNone | panic | reply =>
    exact ⟨rfl, rfl, rfl, rfl⟩
  | _ => simp [ManagerAction.mover] at hb

theorem main_of_exec {k : Nat} {bs : List (ManagerAction μ)}
    (hbs : ∀ b ∈ bs, b.mover = .worker k) {s s' : Manager μ}
    (h : Machine.exec Manager.step s bs = some s') :
    s'.main = s.main ∧ s'.threads = s.threads ∧ s'.runtimes = s.runtimes ∧
      s'.mainSent = s.mainSent := by
  induction bs generalizing s with
  | nil =>
    simp only [Machine.exec, Option.some.injEq] at h
    simp [h]
  | cons b bs ih =>
    simp only [Machine.exec, Option.bind_eq_some_iff] at h
    obtain ⟨s1, h1, h2⟩ := h
    obtain ⟨hmain, hthreads, hruntimes, hsent⟩ :=
      main_of_worker (hbs b (List.mem_cons_self ..)) h1
    have htail := ih (fun b' hb' => hbs b' (List.mem_cons_of_mem _ hb')) h2
    rwa [hmain, hthreads, hruntimes, hsent] at htail

end Manager

/-- The commands of an actor are carried out by its own thread. -/
theorem Command.mover_of_labels (e : Command μ) (k : Nat) (ctx : ActorContext) :
    ∀ b ∈ e.labels k ctx, b.mover = .worker k := by
  intro b hb
  cases e with
  | send | terminate =>
    simp only [labels, List.mem_singleton] at hb
    rw [hb]
    rfl
  | reply msg =>
    unfold labels at hb
    dsimp only at hb
    split at hb
    · rcases List.mem_pair.mp hb with rfl | rfl <;> rfl
    · rw [List.mem_singleton.mp hb]
      rfl

namespace Manager

/-! ## The threads of the actors -/

def places (s : Manager μ) : List (RuntimePc μ × Nat) := s.actors.map Runtime.place

theorem length_places (s : Manager μ) : s.places.length = s.actors.length := by
  simp [places]

theorem places_posted {s : Manager μ} {k : Nat} {a : Runtime μ} {l : Letter μ}
    (ha : s.actors[k]? = some a) : (s.posted k a l).places = s.places :=
  map_set_of_eq Runtime.place ha rfl

/-- The main thread adds an actor, or starts a thread, or leaves them alone. -/
theorem places_of_main {s s' : Manager μ} {b : ManagerAction μ} (howned : s.Owned)
    (hmain : b.mover = .main) (hstep : s.step b = some s') :
    ((∀ name, b ≠ .manage name) ∧ (s'.places = s.places ∨
      ∃ k n, s.places[k]? = some (.parked, n) ∧
        s'.places = s.places.set k (.spawned, n))) ∨
    ∃ name, b = .manage name ∧ s'.places = s.places ++ [(.parked, 0)] := by
  cases move_of_step hstep with
  | manage name hidle =>
    refine Or.inr ⟨name, rfl, ?_⟩
    rw [places, List.map_append,
      map_unregistered Runtime.place fun _ => rfl]
    rfl
  | getRef name k hk =>
    refine Or.inl ⟨by simp, Or.inl ?_⟩
    refine map_modify_of_eq Runtime.place (fun a => ?_) k
    rfl
  | sendStart k todo a hpc ha hlive | sendShutdown k todo inEnd a hpc ha hlive
  | send t k msg sender a hcan hfree ha hlive
  | fastSend t k msg sender a hcan hfree ha hlive =>
    exact Or.inl ⟨by simp, Or.inl (places_posted ha)⟩
  | spawn k todo hpc =>
    have hk : k < s.actors.length := by
      have hlt := howned.bound k (by simp [hpc, ManagerPc.starting])
      simpa [pcs] using hlt
    have ha := List.getElem?_eq_getElem hk
    have hparked : s.actors[k].pc = .parked :=
      (howned.parked k _ (by simp [pcs, ha])).mpr (by simp [hpc, ManagerPc.starting])
    refine Or.inl ⟨by simp, Or.inr ⟨k, s.actors[k].letters.length, ?_, ?_⟩⟩
    · simp [places, Runtime.place, hk, hparked]
    · refine List.ext_getElem? fun j => ?_
      rw [List.getElem?_set]
      by_cases hkj : k = j
      · subst hkj
        simp [places, Runtime.place, hk, Runtime.letters]
      · simp [places, hkj]
  | refused _ k a hb =>
    obtain ⟨t, msg, sender, rfl | rfl⟩ := hb <;>
      exact Or.inl ⟨by simp, Or.inl rfl⟩
  | actor _ k a a' events hb =>
    rcases hb with rfl | rfl <;> simp [ManagerAction.mover] at hmain
  | dropRefs | panic | reply | stop => simp [ManagerAction.mover] at hmain
  | _ => exact Or.inl ⟨by simp, Or.inl rfl⟩

/-- The thread of an actor goes on. -/
theorem places_of_thread {s s' : Manager μ} {k : Nat} {b : ManagerAction μ}
    {a : Runtime μ} (ha : s.actors[k]? = some a) (hb : b = .actor k ∨ b = .codeReturn k)
    (hstep : s.step b = some s') : ∃ a' events, Runtime.Move k a a' events ∧
      s'.places = s.places.set k a'.place := by
  cases move_of_step hstep with
  | actor _ j a0 a' events hb' hfree ha0 hrun =>
    obtain rfl := eq_of_label hb' hb
    obtain rfl : a = a0 := by rwa [ha, Option.some.injEq] at ha0
    exact ⟨a', events, hrun, by simp [places, List.map_set]⟩
  | refused _ j a0 hb' =>
    obtain ⟨t, msg, sender, rfl | rfl⟩ := hb' <;> simp at hb
  | _ => simp at hb

theorem places_eq (s : Manager μ) :
    s.places = List.zip s.pcs (s.faces.map fun f => f.letters.length) := by
  rw [faces, List.map_map, pcs, List.zip_map']
  rfl

/-- A command hands no message over. -/
theorem places_of_carried {s s' : Manager μ} {k : Nat} {marks : List (Nat × Mark)}
    {out : Output (Mail μ) Mark} (hpcs : s'.pcs = s.pcs)
    (h : s.Carried k marks out s') : s'.places = s.places := by
  rw [places_eq, places_eq, hpcs]
  cases h with
  | send j mail _ l hj hmarks harrival hfaces hsent hflag =>
    have hsame : (s.faces.modify j fun f => f.accept l).map (fun f => f.letters.length) =
        s.faces.map fun f => f.letters.length := by
      refine map_modify_of_eq _ (fun f => ?_) j
      rfl
    rw [hfaces, hsame]
  | dropped _ hmarks hfaces | terminated _ hmarks hfaces => rw [hfaces]

end Manager

/-- An actor, as far as its work goes. -/
structure Station (μ : Type) where
  pc : RuntimePc μ
  handled : Nat
  /-- How many commands of its handler are left. -/
  todo : Nat

/-- How many steps the thread has taken, at least, when no handler issues more
than `C` commands. -/
def Station.worth (C : Nat) (w : Station μ) : Nat :=
  match w.pc with
  | .initHook => 1
  | .check => (C + 3) * w.handled + 2
  | .recv => (C + 3) * w.handled + 3
  | .process _ => (C + 3) * w.handled + 1 - w.todo
  | _ => 0

theorem Station.worth_le (C : Nat) (w : Station μ) :
    w.worth C ≤ (C + 3) * w.handled + 3 := by
  unfold worth
  split <;> omega

/-- The actor, with its thread at `p`. -/
def ActorState.station (c : ActorState μ σ) (p : RuntimePc μ × Nat) : Station μ :=
  { pc := p.1, handled := p.2, todo := c.todo.length }

namespace App

def stations (s : App μ σ) : List (Station μ) :=
  List.zipWith (fun p c => ActorState.station c p) s.manager.places s.cells

/-- What the threads of the actors have done. -/
def worth (C : Nat) (s : App μ σ) : Nat := (s.stations.map (Station.worth C)).sum

theorem getElem?_stations {s : App μ σ} {k : Nat} {a : Runtime μ} {c : ActorState μ σ}
    (ha : s.manager.actors[k]? = some a) (hc : s.cells[k]? = some c) :
    s.stations[k]? = some (c.station a.place) := by
  simp [stations, List.getElem?_zipWith, Manager.places, ha, hc]

/-- One actor goes on. -/
theorem worth_set {s : App μ σ} (s' : App μ σ) (C : Nat) {k : Nat} {a : Runtime μ}
    {c c' : ActorState μ σ} {p : RuntimePc μ × Nat}
    (ha : s.manager.actors[k]? = some a) (hc : s.cells[k]? = some c)
    (hplaces : s'.manager.places = s.manager.places.set k p)
    (hcells : s'.cells = s.cells.set k c') :
    ∃ rest, s.worth C = (c.station a.place).worth C + rest ∧
      s'.worth C = (c'.station p).worth C + rest := by
  have hset : s'.stations = s.stations.set k (c'.station p) := by
    have hlt := (List.getElem?_eq_some_iff.mp (getElem?_stations ha hc)).1
    have hk := (List.getElem?_eq_some_iff.mp ha).1
    have hk' := (List.getElem?_eq_some_iff.mp hc).1
    refine List.ext_getElem? fun j => ?_
    rw [stations, hplaces, hcells, List.getElem?_zipWith]
    by_cases hkj : k = j
    · subst hkj
      simp [Manager.places, hk, hk', hlt]
    · simp [hkj, stations, List.getElem?_zipWith]
  obtain ⟨rest, hold, hnew⟩ :=
    exists_sum_map_set (Station.worth C) (getElem?_stations ha hc)
  exact ⟨rest, hold, by rw [worth, hset, hnew]⟩

/-- The main thread changes nothing of what the threads of the actors have
done. -/
theorem worth_of_main {s s' : App μ σ} (C : Nat) (htidy : s.Tidy)
    (h : (s'.manager.places = s.manager.places ∧ s'.cells = s.cells) ∨
      (∃ k n, s.manager.places[k]? = some (.parked, n) ∧
        s'.manager.places = s.manager.places.set k (.spawned, n) ∧
        s'.cells = s.cells) ∨
      ∃ code, s'.manager.places = s.manager.places ++ [(.parked, 0)] ∧
        s'.cells = s.cells ++ [.new code]) : s'.worth C = s.worth C := by
  rcases h with ⟨hplaces, hcells⟩ | ⟨k, n, hk, hplaces, hcells⟩ |
    ⟨code, hplaces, hcells⟩
  · rw [worth, worth, stations, stations, hplaces, hcells]
  · obtain ⟨a, ha, hplace⟩ : ∃ a, s.manager.actors[k]? = some a ∧
        a.place = (.parked, n) := by simpa [Manager.places] using hk
    have hlt := (List.getElem?_eq_some_iff.mp ha).1
    rw [← htidy.length] at hlt
    have hc := List.getElem?_eq_getElem hlt
    have hsame : s'.cells = s.cells.set k s.cells[k] := by
      rw [hcells, List.set_getElem_self]
    obtain ⟨rest, hold, hnew⟩ := worth_set s' C ha hc hplaces hsame
    rw [hold, hnew, hplace]
    rfl
  · have hlen : s.manager.places.length = s.cells.length := by
      rw [Manager.length_places, htidy.length]
    rw [worth, worth, stations, hplaces, hcells, List.zipWith_append hlen]
    simp [stations, ActorState.station, Station.worth]

theorem worth_of_call {s : App μ σ} (C : Nat) (howned : s.manager.Owned)
    (htidy : s.Tidy) (call : MainCall μ σ) (rest : List (MainCall μ σ)) {m : Manager μ}
    (hm : s.manager.step call.label = some m) :
    worth C { s with
      manager := m, script := rest
      cells := s.cells ++ (call.made.map ActorState.new).toList } = s.worth C := by
  have hmover : call.label.mover = .main := by cases call <;> rfl
  refine worth_of_main C htidy ?_
  rcases Manager.places_of_main howned hmover hm with
    ⟨hno, hplaces⟩ | ⟨name, hb, hplaces⟩
  · have hmade : call.made = none := by
      cases call with
      | manage name code => exact absurd rfl (hno name)
      | init | run | shutdown | wait | endCall | send k m => rfl
    rcases hplaces with hsame | ⟨k, n, hk, hset⟩
    · exact Or.inl ⟨hsame, by simp [hmade]⟩
    · exact Or.inr (Or.inl ⟨k, n, hk, hset, by simp [hmade]⟩)
  · cases call with
    | manage name' code => exact Or.inr (Or.inr ⟨code, hplaces, by simp [MainCall.made]⟩)
    | init | run | shutdown | wait | endCall | send k m => simp [MainCall.label] at hb

/-- A step of the loop of an actor counts.  Its handler has no command left when
it returns, and it has at most `C` of them when it is called. -/
theorem worth_of_move {C k : Nat} {a a' : Runtime μ} {events : List LifeEvent}
    (halive : a.Alive) (hrun : Runtime.Move k a a' events) {c c' : ActorState μ σ}
    (hdone : ∀ l, a.pc = .process l → c.todo = []) (hbound : c'.todo.length ≤ C) :
    (c.station a.place).worth C + 1 ≤ (c'.station a'.place).worth C := by
  cases hrun with
  | recv l rest hpc hbox =>
    simp only [Station.worth, ActorState.station, Runtime.place, hpc, Runtime.letters,
      List.length_map, List.length_append, List.length_singleton]
    rw [Nat.mul_succ]
    omega
  | processReturn l hpc =>
    simp [Station.worth, ActorState.station, Runtime.place, hpc, hdone l hpc,
      Runtime.letters]
  | begin hpc | initReturn hpc | goOn hpc =>
    simp [Station.worth, ActorState.station, Runtime.place, hpc, Runtime.letters]
  | leave hpc hrun =>
    rw [halive.running] at hrun
    simp at hrun
  | closed hpc hbox hsenders =>
    have hholds := halive.holds
    rw [hsenders] at hholds
    simp at hholds
  | endReturn hpc => exact absurd hpc halive.inLoop.1

/-- The thread of an actor goes on outside of its commands. -/
theorem worth_of_thread {s s' : App μ σ} {C k : Nat} {a : Runtime μ}
    {c c' : ActorState μ σ} {b : ManagerAction μ} (halive : a.Alive)
    (ha : s.manager.actors[k]? = some a) (hc : s.cells[k]? = some c)
    (hb : b = .actor k ∨ b = .codeReturn k) (hm : s.manager.step b = some s'.manager)
    (hcells : s'.cells = s.cells.set k c') (hdone : ∀ l, a.pc = .process l → c.todo = [])
    (hbound : c'.todo.length ≤ C) : s.worth C + 1 ≤ s'.worth C := by
  obtain ⟨a', events, hrun, hplaces⟩ := Manager.places_of_thread ha hb hm
  obtain ⟨rest, hold, hnew⟩ := worth_set s' C ha hc hplaces hcells
  have hmove := worth_of_move halive hrun hdone hbound
  omega

/-- A step of the thread of an actor counts. -/
theorem worth_of_worker {script : List (MainCall μ σ)} {s s' : App μ σ} {C k : Nat}
    (hreach : (machine script).Reachable s)
    (hcommands : ∀ c ∈ s.cells, c.todo.length ≤ C)
    (hissues : ∀ c ∈ s'.cells, c.todo.length ≤ C) (hmove : Move s (.worker k) s') :
    s.worth C + 1 ≤ s'.worth C := by
  have hplain := plain hreach
  have halive := Manager.alive (managed hreach)
  have hself : ∀ c, s.cells[k]? = some c → s.cells = s.cells.set k c := by
    intro c hc
    obtain ⟨hlt, rfl⟩ := List.getElem?_eq_some_iff.mp hc
    rw [List.set_getElem_self]
  cases hmove with
  | command _ a c l e todo m ha hc hpc htodo hm =>
    obtain ⟨hpcs, -, hcarried⟩ := Manager.exec_command halive (Manager.async hplain) ha
      ((Manager.answering hplain).selfRefs k a ha) hm
    have hplaces : m.places = s.manager.places.set k a.place := by
      have hk : s.manager.places[k]? = some a.place := by simp [Manager.places, ha]
      obtain ⟨hlt, hget⟩ := List.getElem?_eq_some_iff.mp hk
      rw [Manager.places_of_carried hpcs hcarried, ← hget, List.set_getElem_self]
    obtain ⟨rest, hold, hnew⟩ := worth_set
      { s with
        manager := m, cells := s.cells.set k { c with todo }
        marks := s.marks ++ e.marks k a.context } C ha hc hplaces rfl
    have hhanded : 0 < a.letters.length :=
      List.length_pos_of_mem (((Manager.mailed hplain).boxes k a ha).current l hpc)
    have hbound := hcommands c (List.mem_of_getElem? hc)
    rw [hold, hnew]
    simp only [Station.worth, ActorState.station, Runtime.place, hpc, htodo,
      List.length_cons] at hbound ⊢
    have hmul : C + 3 ≤ (C + 3) * a.letters.length := Nat.le_mul_of_pos_right _ hhanded
    omega
  | codeReturn _ a c m ha hc hdone hm =>
    refine worth_of_thread (halive a (List.mem_of_getElem? ha)) ha hc (Or.inr rfl) hm
      (hself c hc) hdone (hcommands c (List.mem_of_getElem? hc))
  | actor _ a c m ha hc htakes hm =>
    refine worth_of_thread (halive a (List.mem_of_getElem? ha)) ha hc (Or.inl rfl) hm
      (hself c hc) (fun l hpc => ?_) (hcommands c (List.mem_of_getElem? hc))
    have hcode := Manager.return_of_inCode hm (Or.inl rfl) ha (by rw [hpc]; rfl)
    simp at hcode
  | recv _ a c l m ha hc htakes hm =>
    refine worth_of_thread (halive a (List.mem_of_getElem? ha)) ha hc (Or.inl rfl) hm
      rfl (fun l hpc => ?_) (hissues _ (List.mem_set (List.getElem?_eq_some_iff.mp hc).1 _))
    simp [Runtime.takes, hpc] at htakes

end App

/-- The handlers issue at most `C` commands for a message. -/
def ActorCode.Issues (code : ActorCode μ σ) (C : Nat) : Prop :=
  ∀ ms msg, (code.process (code.after ms) msg).2.length ≤ C

namespace App

variable {script : List (MainCall μ σ)}

/-- The code of an actor is that of a `manage` call of the main function. -/
theorem code_mem {s : App μ σ} (h : (machine script).Reachable s)
    {c : ActorState μ σ} (hc : c ∈ s.cells) :
    c.code ∈ script.filterMap MainCall.made := by
  rw [← made h]
  exact List.mem_append_left _ (List.mem_map_of_mem hc)

theorem todo_le {C : Nat}
    (hissues : ∀ code ∈ script.filterMap MainCall.made, code.Issues C) {s : App μ σ}
    (h : (machine script).Reachable s) : ∀ c ∈ s.cells, c.todo.length ≤ C := by
  refine invariant (I := fun s => ∀ c ∈ s.cells, c.todo.length ≤ C)
    (by simp [start]) ?_ h
  intro s t s' hreach hs hmove
  cases hmove with
  | call call rest m hidle hscript hm =>
    intro c hc
    rcases List.mem_append.mp hc with hc | hc
    · exact hs c hc
    · obtain ⟨code, -, rfl⟩ : ∃ code, call.made = some code ∧ .new code = c := by
        simpa using hc
      exact Nat.zero_le C
  | command k a c l e todo m ha hc hpc htodo hm =>
    refine forall_mem_set hs ?_
    have hle := hs c (List.mem_of_getElem? hc)
    rw [htodo, List.length_cons] at hle
    show todo.length ≤ C
    omega
  | recv k a c l m ha hc htakes hm =>
    refine forall_mem_set hs ?_
    show (c.code.process c.state l.envelope.msg).2.length ≤ C
    rw [state_eq hreach ha hc]
    exact hissues c.code (code_mem hreach (List.mem_of_getElem? hc)) _ _
  | main | codeReturn | actor => exact hs

/-! ## All threads -/

/-- The step is a poll of `run`. -/
def polls (s : App μ σ) (t : ThreadId) : Bool := t = .main && s.manager.sleeps

/-- What the main thread has still to do when the program has `n` actors. -/
def left (n : Nat) (s : App μ σ) : Nat :=
  (2 * n + 3) * s.script.length + s.manager.left

/-- How many actors the program makes. -/
theorem length_le {s : App μ σ} (h : (machine script).Reachable s) :
    s.manager.actors.length ≤ (script.filterMap MainCall.made).length := by
  have hlen := congrArg List.length (made h)
  rw [List.length_append, List.length_map, (tidy h).length] at hlen
  omega

/-- A step of the main thread but a poll leaves it less to do. -/
theorem left_of_step {s s' : App μ σ} {n : Nat} (h : (machine script).Reachable s)
    (hn : s.manager.actors.length ≤ n) (hmove : Move s .main s') :
    (s.polls .main = true ∧ s' = s) ∨
    (s.polls .main = false ∧ s'.left n < s.left n ∧
      s'.manager.mainSent ≤ s.manager.mainSent + 1) := by
  cases hmove with
  | call call rest m hidle hscript hm =>
    obtain ⟨hleft, hsent⟩ := Manager.left_of_call (Manager.bounded (plain h)) hidle hm
    refine Or.inr ⟨by simp [polls, Manager.sleeps, hidle], ?_, hsent⟩
    simp only [left, hscript, List.length_cons, Nat.mul_succ]
    omega
  | main m hbusy hm =>
    rcases Manager.left_of_main hm with ⟨hsleeps, rfl⟩ | ⟨hsleeps, hleft, hsent⟩
    · exact Or.inl ⟨by simp [polls, hsleeps], rfl⟩
    · refine Or.inr ⟨by simp [polls, hsleeps], ?_, hsent⟩
      simp only [left]
      omega

/-- A step of another thread leaves it as much to do as before. -/
theorem left_of_worker {s s' : App μ σ} {n k : Nat} (hmove : Move s (.worker k) s') :
    s'.left n = s.left n ∧ s'.manager.mainSent = s.manager.mainSent := by
  have hframe : ∀ {m : Manager μ}, m.main = s.manager.main ∧
      m.threads = s.manager.threads ∧ m.runtimes = s.manager.runtimes ∧
      m.mainSent = s.manager.mainSent →
      (2 * n + 3) * s.script.length + m.left =
        (2 * n + 3) * s.script.length + s.manager.left ∧
      m.mainSent = s.manager.mainSent := by
    rintro m ⟨hmain, hthreads, -, hsent⟩
    exact ⟨by simp only [Manager.left, hmain, hthreads], hsent⟩
  cases hmove with
  | command _ a c l e todo m ha hc hpc htodo hm =>
    exact hframe (Manager.main_of_exec (e.mover_of_labels k a.context) hm)
  | codeReturn _ a c m ha hc hdone hm => exact hframe (Manager.main_of_worker rfl hm)
  | recv _ a c l m ha hc htakes hm => exact hframe (Manager.main_of_worker rfl hm)
  | actor _ a c m ha hc htakes hm => exact hframe (Manager.main_of_worker rfl hm)

/-- What the main thread has sent and has still to do. -/
theorem left_le {s : App μ σ} (h : (machine script).Reachable s) :
    s.manager.mainSent + s.left (script.filterMap MainCall.made).length ≤
      (2 * (script.filterMap MainCall.made).length + 3) * script.length := by
  refine invariant (I := fun s => s.manager.mainSent +
    s.left (script.filterMap MainCall.made).length ≤
      (2 * (script.filterMap MainCall.made).length + 3) * script.length) ?_ ?_ h
  · simp [start, Manager.new, Manager.mainSent, left, Manager.left]
  · intro s t s' hreach hs hmove
    cases t with
    | main =>
      rcases left_of_step hreach (length_le hreach) hmove with
        ⟨-, rfl⟩ | ⟨-, hless, hsent⟩ <;> omega
    | worker k =>
      obtain ⟨hleft, hsent⟩ :=
        left_of_worker (n := (script.filterMap MainCall.made).length) hmove
      omega
    | client k => cases hmove

/-- How many messages the actors were handed. -/
def handledCount (s : App μ σ) : Nat :=
  (s.manager.actors.map fun a => a.handed.length).sum

theorem sum_worth_le (C : Nat) (places : List (RuntimePc μ × Nat))
    (cells : List (ActorState μ σ)) :
    ((List.zipWith (fun p c => ActorState.station c p) places cells).map
      (Station.worth C)).sum ≤
        (C + 3) * (places.map Prod.snd).sum + 3 * places.length := by
  induction places generalizing cells with
  | nil => simp
  | cons p places ih =>
    cases cells with
    | nil => simp
    | cons c cells =>
      have hhead : (c.station p).worth C ≤ (C + 3) * p.2 + 3 := Station.worth_le C _
      have htail := ih cells
      simp only [List.zipWith_cons_cons, List.map_cons, List.sum_cons,
        List.length_cons, Nat.mul_add]
      omega

theorem worth_le (C : Nat) (s : App μ σ) :
    s.worth C ≤ (C + 3) * s.handledCount + 3 * s.manager.actors.length := by
  have hle := sum_worth_le C s.manager.places s.cells
  have hcount : (s.manager.places.map Prod.snd).sum = s.handledCount := by
    simp [handledCount, Manager.places, Runtime.place, Runtime.letters, Function.comp_def]
  rwa [hcount, Manager.length_places] at hle

/-- A step that is no poll raises what has been done. -/
theorem done_of_step {C : Nat}
    (hissues : ∀ code ∈ script.filterMap MainCall.made, code.Issues C)
    {s s' : App μ σ} {t : ThreadId} (h : (machine script).Reachable s)
    (hstep : s.step t = some s') {n total : Nat}
    (hn : n = (script.filterMap MainCall.made).length)
    (htotal : total = (2 * n + 3) * script.length) :
    (total - s.left n + s.worth C) + (if (!s.polls t) = true then 1 else 0) ≤
      total - s'.left n + s'.worth C := by
  have hle := left_le h
  rw [← hn, ← htotal] at hle
  have hmove := move_of_step hstep
  cases t with
  | main =>
    have hworth : s'.worth C = s.worth C := by
      have howned := Manager.owned (plain h)
      cases hmove with
      | call call rest m hidle hscript hm =>
        exact worth_of_call C howned (tidy h) call rest hm
      | main m hbusy hm =>
        refine worth_of_main C (tidy h) ?_
        rcases Manager.places_of_main howned rfl hm with
          ⟨-, hsame | ⟨k, n, hk, hset⟩⟩ | ⟨name, hb, -⟩
        · exact Or.inl ⟨hsame, rfl⟩
        · exact Or.inr (Or.inl ⟨k, n, hk, hset, rfl⟩)
        · simp at hb
    rcases left_of_step h (hn ▸ length_le h) hmove with
      ⟨hpolls, rfl⟩ | ⟨hpolls, hless, -⟩
    · simp [hpolls]
    · simp only [hpolls, Bool.not_false, if_true]
      omega
  | worker k =>
    have hworth := worth_of_worker h (todo_le hissues h)
      (todo_le hissues (h.step trivial hstep)) hmove
    obtain ⟨hleft, -⟩ := left_of_worker (n := n) hmove
    split <;> omega
  | client k => cases hmove

/-- The steps that are no polls, by what has been done. -/
theorem countP_le {C : Nat}
    (hissues : ∀ code ∈ script.filterMap MainCall.made, code.Issues C)
    {tr : List (App μ σ × ThreadId)} {s : App μ σ}
    (h : (machine script).Run (fun _ _ => True) tr s) :
    tr.countP (fun y => !y.1.polls y.2) ≤
      (2 * (script.filterMap MainCall.made).length + 3) * script.length -
        s.left (script.filterMap MainCall.made).length + s.worth C := by
  refine h.countP_le (f := fun s =>
    (2 * (script.filterMap MainCall.made).length + 3) * script.length -
      s.left (script.filterMap MainCall.made).length + s.worth C) ?_
  intro s t s' hreach _ hstep
  exact done_of_step hissues hreach hstep rfl rfl

/-- The steps of a computed run. -/
theorem run_after (script : List (MainCall μ σ)) (schedule : List ThreadId)
    (h : (after script schedule).isSome) :
    (machine script).Run (fun _ _ => True)
      (Machine.trace App.step (App.start script) schedule)
      ((after script schedule).get h) := by
  have hstart : (machine script).start (App.start script) := rfl
  exact Machine.run_exec_get hstart schedule h

/-- The steps of a run, apart from the polls of `run`, are bounded: with `A` actors and
`L` calls in the main function there are at most `(2A + 3)L + 3A` of them, and `C + 3`
more for each message that was handled, when the handlers issue at most `C` commands for
a message.  Nothing else spins. -/
theorem steps_le {C : Nat}
    (hissues : ∀ code ∈ script.filterMap MainCall.made, code.Issues C)
    {tr : List (App μ σ × ThreadId)} {s : App μ σ}
    (h : (machine script).Run (fun _ _ => True) tr s) :
    tr.countP (fun y => !y.1.polls y.2) ≤
      (2 * (script.filterMap MainCall.made).length + 3) * script.length +
        3 * (script.filterMap MainCall.made).length + (C + 3) * s.handledCount := by
  have hcount := countP_le hissues h
  have hworth := worth_le C s
  have hlength := length_le h.reach
  omega

/-- One actor that sends itself a message, and three polls of `run` after that. -/
theorem steps_le_self : ∃ tr, ∃ s : App Nat Nat,
    (machine [.manage "a" selfSender, .init, .run]).Run (fun _ _ => True) tr s ∧
    tr.length = 19 ∧ s.handledCount = 2 ∧
    tr.countP (fun y => !y.1.polls y.2) ≤
      (2 * 1 + 3) * 3 + 3 * 1 + (1 + 3) * s.handledCount := by
  have hrun := App.run_after [.manage "a" selfSender, .init, .run]
    (List.replicate 6 .main ++ List.replicate 10 (.worker 0) ++
      List.replicate 3 .main) (by decide)
  refine ⟨_, _, hrun, rfl, by decide, steps_le (fun code hcode => ?_) hrun⟩
  obtain rfl := List.mem_singleton.mp hcode
  intro ms msg
  cases msg with
  | start => exact Nat.le_refl 1
  | user | shutdown | timeout | reject => exact Nat.zero_le 1

end App

end Actors
