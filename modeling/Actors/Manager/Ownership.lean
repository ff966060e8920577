import Actors.Lib.Lists
import Actors.Manager.Move

/-!
# Who owns a runtime

A runtime is made by `manage`, belongs to the manager until `init` moves it
into a thread, and the handle of that thread belongs to the manager until
`wait` joins it.  `owned` says that these are the only places, that no actor is
in two of them, and that an actor has no thread exactly as long as the manager
still owns its runtime.
-/

namespace Actors

open Concur

variable {μ : Type}

/-- The runtimes that `init` still has to start. -/
def ManagerPc.starting : ManagerPc → List Nat
  | .initSend todo => todo
  | .initSpawn k todo => k :: todo
  | _ => []

/-- The threads that `wait` still has to join. -/
def ManagerPc.joining : ManagerPc → List Nat
  | .join todo _ => todo
  | _ => []

/-- The actors that `shutdown` still has to send to. -/
def ManagerPc.stopping : ManagerPc → List Nat
  | .shutdownSend todo _ => todo
  | _ => []

namespace Manager

/-- The program counters of the actors. -/
def pcs (s : Manager μ) : List (RuntimePc μ) := s.actors.map Runtime.pc

/-- Where the runtimes and the threads are. -/
structure Owned (s : Manager μ) : Prop where
  distinct : ((s.runtimes ++ s.main.starting) ++
    (s.threads ++ s.main.joining)).Nodup
  parked : ∀ (k : Nat) (pc : RuntimePc μ), s.pcs[k]? = some pc →
    (pc = .parked ↔ k ∈ s.runtimes ++ s.main.starting)
  bound : ∀ k ∈ (s.runtimes ++ s.main.starting) ++
    (s.threads ++ s.main.joining), k < s.pcs.length
  refs : ∀ k ∈ s.actorRefs ++ s.main.stopping, k < s.pcs.length

/-- A step that moves no runtime. -/
theorem Owned.frame {s s' : Manager μ} (h : s.Owned)
    (hruntimes : s'.runtimes = s.runtimes) (hthreads : s'.threads = s.threads)
    (hstarting : s'.main.starting = s.main.starting)
    (hjoining : s'.main.joining = s.main.joining) (hpcs : s'.pcs = s.pcs)
    (hrefs : ∀ k ∈ s'.actorRefs ++ s'.main.stopping, k < s.pcs.length) :
    s'.Owned := by
  refine ⟨?_, ?_, ?_, ?_⟩
  · rw [hruntimes, hthreads, hstarting, hjoining]
    exact h.distinct
  · rw [hruntimes, hstarting, hpcs]
    exact h.parked
  · rw [hruntimes, hthreads, hstarting, hjoining, hpcs]
    exact h.bound
  · rw [hpcs]
    exact hrefs

theorem pcs_spawn (actors : List (Runtime μ)) (k : Nat) :
    (actors.modify k fun a => { a with pc := .spawned }).map Runtime.pc =
      (actors.map Runtime.pc).set k .spawned := by
  refine List.ext_getElem? fun j => ?_
  rw [List.getElem?_map, List.getElem?_modify, List.getElem?_set,
    List.getElem?_map, List.length_map]
  by_cases hk : k = j
  · subst hk
    cases ha : actors[k]? with
    | none => simp [List.getElem?_eq_none_iff.mp ha]
    | some a => simp [(List.getElem?_eq_some_iff.mp ha).1]
  · cases actors[j]? <;> simp [hk]

theorem map_unregistered {β : Type} (f : Runtime μ → β)
    (hf : ∀ a, f (dropRegistered a) = f a) (s : Manager μ) (name : String) :
    (s.unregistered name).map f = s.actors.map f := by
  unfold unregistered
  split
  · exact map_modify_of_eq f hf _
  · rfl

/-- A thread that goes on stays a thread. -/
theorem Owned.set {s s' : Manager μ} (h : s.Owned) {k : Nat} {a a' : Runtime μ}
    (ha : s.actors[k]? = some a) (hpc : a.pc ≠ .parked)
    (hpc' : a'.pc ≠ .parked) (hactors : s'.actors = s.actors.set k a')
    (hruntimes : s'.runtimes = s.runtimes) (hthreads : s'.threads = s.threads)
    (hmain : s'.main = s.main) (hrefs : s'.actorRefs = s.actorRefs) :
    s'.Owned := by
  have hpcs : s'.pcs = s.pcs.set k a'.pc := by
    rw [pcs, hactors, List.map_set, pcs]
  have hlen : s'.pcs.length = s.pcs.length := by simp [hpcs]
  have hold : s.pcs[k]? = some a.pc := by simp [pcs, ha]
  refine ⟨?_, ?_, ?_, ?_⟩
  · rw [hruntimes, hthreads, hmain]
    exact h.distinct
  · rw [hruntimes, hmain, hpcs]
    refine forall_getElem?_set h.parked ?_
    have hk := h.parked k a.pc hold
    simp only [hpc, false_iff] at hk
    simp [hpc', hk]
  · rw [hruntimes, hthreads, hmain, hlen]
    exact h.bound
  · rw [hrefs, hmain, hlen]
    exact h.refs

theorem not_parked_of_move {k : Nat} {a a' : Runtime μ}
    {events : List LifeEvent} (h : Runtime.Move k a a' events) :
    a.pc ≠ .parked ∧ a'.pc ≠ .parked := by
  cases h with
  | begin hpc | initReturn hpc | goOn hpc | leave hpc | recv l rest hpc
  | closed hpc | processReturn l hpc | endReturn hpc =>
    simp [hpc, Runtime.finish]

/-- `wait` takes the handles. -/
theorem Owned.takeThreads {s s' : Manager μ} (h : s.Owned)
    (hstarting : s.main.starting = []) (hjoining : s.main.joining = [])
    (hstarting' : s'.main.starting = [])
    (hjoining' : s'.main.joining = s.threads)
    (hstopping' : s'.main.stopping = []) (hruntimes : s'.runtimes = s.runtimes)
    (hthreads : s'.threads = []) (hpcs : s'.pcs = s.pcs)
    (hrefs : s'.actorRefs = s.actorRefs) : s'.Owned := by
  obtain ⟨hdistinct, hparked, hbound, hall⟩ := h
  rw [hstarting, hjoining] at hdistinct hbound
  rw [hstarting] at hparked
  refine ⟨?_, ?_, ?_, ?_⟩
  · rw [hruntimes, hthreads, hstarting', hjoining', List.nil_append]
    rwa [List.append_nil s.threads] at hdistinct
  · rw [hruntimes, hstarting', hpcs]
    exact hparked
  · rw [hruntimes, hthreads, hstarting', hjoining', List.nil_append, hpcs]
    rwa [List.append_nil s.threads] at hbound
  · rw [hrefs, hstopping', hpcs, List.append_nil]
    exact fun k hk => hall k (List.mem_append_left _ hk)

theorem Owned.manage {s s' : Manager μ} (h : s.Owned)
    (hstarting : s.main.starting = []) (hstopping : s.main.stopping = [])
    (hmain : s'.main = s.main)
    (hruntimes : s'.runtimes = s.runtimes ++ [s.pcs.length])
    (hthreads : s'.threads = s.threads) (hpcs : s'.pcs = s.pcs ++ [.parked])
    (hrefs : s'.actorRefs = s.actorRefs ++ [s.pcs.length]) : s'.Owned := by
  obtain ⟨hdistinct, hparked, hbound, hall⟩ := h
  rw [hstarting, List.append_nil] at hdistinct hparked hbound
  rw [hstopping, List.append_nil] at hall
  refine ⟨?_, ?_, ?_, ?_⟩
  · rw [hruntimes, hthreads, hmain, hstarting, List.append_nil]
    have hperm : (s.runtimes ++ [s.pcs.length] ++
        (s.threads ++ s.main.joining)).Perm
        (s.pcs.length :: (s.runtimes ++ (s.threads ++ s.main.joining))) := by
      rw [List.append_assoc]
      exact List.perm_middle
    refine hperm.nodup_iff.mpr (List.nodup_cons.mpr ⟨fun hmem => ?_, hdistinct⟩)
    exact Nat.lt_irrefl _ (hbound _ hmem)
  · rw [hruntimes, hmain, hstarting, List.append_nil, hpcs]
    refine forall_getElem?_snoc (fun k pc hk => ?_) (by simp)
    have hlt := (List.getElem?_eq_some_iff.mp hk).1
    rw [hparked k pc hk, List.mem_append, List.mem_singleton]
    exact ⟨Or.inl, fun hor => hor.resolve_right (Nat.ne_of_lt hlt)⟩
  · intro k hk
    rw [hruntimes, hthreads, hmain, hstarting, List.append_nil] at hk
    simp only [hpcs, List.length_append, List.length_singleton]
    simp only [List.mem_append, List.mem_singleton] at hk hbound
    rcases hk with (hk | rfl) | hk
    · exact Nat.lt_succ_of_lt (hbound k (Or.inl hk))
    · exact Nat.lt_succ_self _
    · exact Nat.lt_succ_of_lt (hbound k (Or.inr hk))
  · intro k hk
    rw [hrefs, hmain, hstopping, List.append_nil] at hk
    simp only [hpcs, List.length_append, List.length_singleton]
    rcases List.mem_append.mp hk with hk | hk
    · exact Nat.lt_succ_of_lt (hall k hk)
    · rw [List.mem_singleton.mp hk]
      exact Nat.lt_succ_self _

/-- `spawn_with_config` moves a runtime into its thread. -/
theorem Owned.spawn {s s' : Manager μ} (h : s.Owned) {k : Nat}
    {todo : List Nat} (hmain : s.main = .initSpawn k todo)
    (hpcs : s'.pcs = s.pcs.set k .spawned) (hmain' : s'.main = .initSend todo)
    (hruntimes : s'.runtimes = s.runtimes)
    (hthreads : s'.threads = s.threads ++ [k])
    (hrefs : s'.actorRefs = s.actorRefs) : s'.Owned := by
  obtain ⟨hdistinct, hparked, hbound, hall⟩ := h
  rw [hmain] at hdistinct hparked hbound hall
  simp only [ManagerPc.starting, ManagerPc.joining, ManagerPc.stopping,
    List.append_nil] at hdistinct hparked hbound hall
  have hperm : (s.runtimes ++ todo ++ (s.threads ++ [k])).Perm
      (s.runtimes ++ k :: todo ++ s.threads) := by
    have hleft : (s.runtimes ++ todo ++ (s.threads ++ [k])).Perm
        (k :: (s.runtimes ++ todo ++ s.threads)) := by
      rw [← List.append_assoc]
      exact List.perm_append_singleton _ _
    have hright : (s.runtimes ++ k :: todo ++ s.threads).Perm
        (k :: (s.runtimes ++ todo ++ s.threads)) := by
      rw [List.append_assoc, List.append_assoc, List.cons_append]
      exact List.perm_middle
    exact hleft.trans hright.symm
  have hnodup := hperm.nodup_iff.mpr hdistinct
  have hlen : s'.pcs.length = s.pcs.length := by simp [hpcs]
  refine ⟨?_, ?_, ?_, ?_⟩
  · rw [hruntimes, hthreads, hmain']
    simp only [ManagerPc.starting, ManagerPc.joining, List.append_nil]
    exact hnodup
  · rw [hruntimes, hmain', hpcs]
    intro j pc hj
    have hout : k ∉ s.runtimes ++ todo := by
      rw [← List.append_assoc] at hnodup
      intro hmem
      exact List.disjoint_of_nodup_append hnodup
        (List.mem_append_left _ hmem) (List.mem_singleton_self k)
    simp only [ManagerPc.starting]
    rw [List.getElem?_set] at hj
    split at hj
    · rename_i hkj
      subst hkj
      split at hj
      · rw [Option.some.injEq] at hj
        subst hj
        simp only [reduceCtorEq, false_iff]
        exact hout
      · simp at hj
    · rename_i hkj
      rw [hparked j pc hj]
      simp only [List.mem_append, List.mem_cons, Ne.symm hkj, false_or]
  · intro j hj
    rw [hruntimes, hthreads, hmain'] at hj
    simp only [ManagerPc.starting, ManagerPc.joining, List.append_nil] at hj
    rw [hlen]
    exact hbound j (hperm.subset hj)
  · rw [hrefs, hmain', hlen]
    simp only [ManagerPc.stopping, List.append_nil]
    exact hall

theorem owned_move {s s' : Manager μ} {b : ManagerAction μ}
    (hmove : Move s b s') (h : s.Owned) : s'.Owned := by
  have hrefs : ∀ k ∈ s.actorRefs, k < s.pcs.length :=
    fun k hk => h.refs k (List.mem_append_left _ hk)
  have hrefs' : ∀ k ∈ s.actorRefs ++ [], k < s.pcs.length := by
    rw [List.append_nil]
    exact hrefs
  cases hmove with
  | manage name hidle =>
    have hlen : s.actors.length = s.pcs.length := by simp [pcs]
    refine h.manage (by rw [hidle]; rfl) (by rw [hidle]; rfl) rfl ?_ rfl ?_ ?_
    · rw [hlen]
    · rw [pcs, List.map_append, map_unregistered Runtime.pc fun _ => rfl]
      rfl
    · rw [hlen]
  | getRef name k hk | dropRefs k | stop k =>
    refine h.frame rfl rfl rfl rfl ?_ h.refs
    refine map_modify_of_eq Runtime.pc (fun a => ?_) k
    rfl
  | init hidle =>
    obtain ⟨hdistinct, hparked, hbound, -⟩ := h
    rw [hidle] at hdistinct hparked hbound
    simp only [ManagerPc.starting, ManagerPc.joining, List.append_nil]
      at hdistinct hparked hbound
    refine ⟨?_, ?_, ?_, hrefs'⟩ <;>
      simp only [ManagerPc.starting, ManagerPc.joining, List.nil_append,
        List.append_nil]
    · exact hdistinct
    · exact hparked
    · exact hbound
  | run hidle =>
    exact h.frame rfl rfl (by rw [hidle]; rfl) (by rw [hidle]; rfl) rfl hrefs'
  | shutdown hidle | endCall hidle =>
    refine h.frame rfl rfl (by rw [hidle]; rfl) (by rw [hidle]; rfl) rfl ?_
    intro k hk
    exact hrefs k ((List.mem_append.mp hk).elim id id)
  | wait hidle =>
    exact h.takeThreads (by rw [hidle]; rfl) (by rw [hidle]; rfl) rfl rfl rfl rfl
      rfl rfl rfl
  | shutdownThenWait hmain =>
    exact h.takeThreads (by rw [hmain]; rfl) (by rw [hmain]; rfl) rfl rfl rfl rfl
      rfl rfl rfl
  | sendStart k todo a hmain ha hlive =>
    exact h.frame rfl rfl (by rw [hmain]; rfl) (by rw [hmain]; rfl)
      (map_set_of_eq Runtime.pc ha rfl) hrefs'
  | startRefused k todo a hmain ha hdead =>
    exact h.frame rfl rfl (by rw [hmain]; rfl) (by rw [hmain]; rfl) rfl hrefs'
  | spawn k todo hmain =>
    exact h.spawn hmain (pcs_spawn s.actors k) rfl rfl rfl rfl
  | initDone hmain | runDone hmain | shutdownDone hmain | joined inEnd hmain =>
    exact h.frame rfl rfl (by rw [hmain]; rfl) (by rw [hmain]; rfl) rfl hrefs'
  | sendShutdown k todo inEnd a hmain ha hlive =>
    refine h.frame rfl rfl (by rw [hmain]; rfl) (by rw [hmain]; rfl)
      (map_set_of_eq Runtime.pc ha rfl) ?_
    have hall := h.refs
    rw [hmain] at hall
    intro j hj
    refine hall j ?_
    simp only [List.mem_append, ManagerPc.stopping, List.mem_cons] at hj ⊢
    exact hj.imp_right Or.inr
  | shutdownRefused k todo inEnd a hmain ha hdead =>
    refine h.frame rfl rfl (by rw [hmain]; rfl) (by rw [hmain]; rfl) rfl ?_
    have hall := h.refs
    rw [hmain] at hall
    intro j hj
    refine hall j ?_
    simp only [List.mem_append, ManagerPc.stopping, List.mem_cons] at hj ⊢
    exact hj.imp_right Or.inr
  | join k todo inEnd a hmain ha hfin =>
    obtain ⟨hdistinct, hparked, hbound, -⟩ := h
    rw [hmain] at hdistinct hparked hbound
    have hsub : ((s.runtimes ++ ManagerPc.starting (.join todo inEnd)) ++
        (s.threads ++ ManagerPc.joining (.join todo inEnd))).Sublist
        ((s.runtimes ++ ManagerPc.starting (.join (k :: todo) inEnd)) ++
        (s.threads ++ ManagerPc.joining (.join (k :: todo) inEnd))) :=
      List.Sublist.append_left
        (List.Sublist.append_left (List.sublist_cons_self k todo) _) _
    exact ⟨hdistinct.sublist hsub, hparked,
      fun j hj => hbound j (hsub.subset hj), hrefs'⟩
  | send t k msg sender a hcan hfree ha hlive
  | fastSend t k msg sender a hcan hfree ha hlive | reply k msg a l ha hpc =>
    exact h.frame rfl rfl rfl rfl (map_set_of_eq Runtime.pc ha rfl) h.refs
  | actor b k a a' events hb hfree ha hrun =>
    obtain ⟨hpc, hpc'⟩ := not_parked_of_move hrun
    exact h.set ha hpc hpc' rfl rfl rfl rfl rfl
  | panic k a ha hcode hfree =>
    have hpc : a.pc ≠ .parked := by
      intro heq
      rw [heq] at hcode
      simp [RuntimePc.inCode] at hcode
    exact h.set ha hpc (by simp [Runtime.finish]) rfl rfl rfl rfl rfl
  | _ => exact { h with }

/-- Runtimes and threads are where they belong, in every state of every run. -/
theorem owned {ok : Manager μ → ManagerAction μ → Prop} {s : Manager μ}
    (h : (machine μ).Reach ok s) : s.Owned := by
  refine invariant ?_ ?_ h
  · exact ⟨by simp [new, ManagerPc.starting, ManagerPc.joining],
      by simp [new, pcs], by simp [new, ManagerPc.starting, ManagerPc.joining],
      by simp [new, ManagerPc.stopping]⟩
  · intro s b s' _ hs _ hmove
    exact owned_move hmove hs

end Manager

end Actors
