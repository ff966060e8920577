import Actors.Manager.Step

/-!
# What a step of a manager can do

`Manager.Move s a s'` is `Manager.step` as a relation with one constructor for
each outcome.  A step of an actor's thread is a `Runtime.Move` of its runtime.
`move_of_step` is the only proof that unfolds the step functions.
-/

namespace Actors

open Concur

variable {μ : Type}

namespace Manager

/-- The state after actor `k`, whose runtime is `a`, accepted a letter. -/
def posted (s : Manager μ) (k : Nat) (a : Runtime μ) (l : Letter μ) :
    Manager μ :=
  { s with actors := s.actors.set k (a.accept l), sent := s.sent ++ [l] }

/-- The runtimes after the registries let go of the actor registered under
`name`. -/
def unregistered (s : Manager μ) (name : String) : List (Runtime μ) :=
  match s.registry.lookup name with
  | some j => s.actors.modify j dropRegistered
  | none => s.actors

/-- The runtime that `manage` makes. -/
def managed (k : Nat) (name : String) : Runtime μ :=
  { Runtime.new k name with senders := (Runtime.new k name : Runtime μ).senders ++
      [.registry, .expandedRegistry, .actorRefs, .application] }

/-- One step of the manager, by outcome. -/
inductive Move (s : Manager μ) : ManagerAction μ → Manager μ → Prop where
  -- The calls.
  | manage (name : String) (hidle : s.main = .idle) :
      Move s (.manage name) { s with
        actors := s.unregistered name ++ [managed s.actors.length name]
        registry := s.registry.insert name s.actors.length
        expandedRegistry := s.expandedRegistry.insert name s.actors.length
        actorRefs := s.actorRefs ++ [s.actors.length]
        runtimes := s.runtimes ++ [s.actors.length]
        calls := s.calls ++ [.manage name] }
  | getRef (name : String) (k : Nat)
      (hk : s.expandedRegistry.lookup name = some k) :
      Move s (.getRef name) { s with
        actors := s.actors.modify k fun a =>
          { a with senders := a.senders ++ [.application] } }
  | getRefNone (name : String) (hk : s.expandedRegistry.lookup name = none) :
      Move s (.getRef name) s
  | init (hidle : s.main = .idle) :
      Move s .init { s with
        runtimes := [], main := .initSend s.runtimes
        calls := s.calls ++ [.init] }
  | run (hidle : s.main = .idle) : Move s .run { s with main := .running }
  | shutdown (hidle : s.main = .idle) :
      Move s .shutdown { s with
        main := .shutdownSend s.actorRefs false
        calls := s.calls ++ [.shutdown] }
  | wait (hidle : s.main = .idle) :
      Move s .wait { s with
        threads := [], main := .join s.threads false
        calls := s.calls ++ [.wait] }
  | endCall (hidle : s.main = .idle) :
      Move s .endCall { s with
        main := .shutdownSend s.actorRefs true
        calls := s.calls ++ [.endCall] }
  -- The bodies of `init`, `run`, `shutdown` and `wait`.
  | sendStart (k : Nat) (todo : List Nat) (a : Runtime μ)
      (hmain : s.main = .initSend (k :: todo)) (ha : s.actors[k]? = some a)
      (hlive : a.pc.finished = false) :
      Move s .main { s.posted k a (s.letterOf .main k a.name .start none false)
        with main := .initSpawn k todo }
  | startRefused (k : Nat) (todo : List Nat) (a : Runtime μ)
      (hmain : s.main = .initSend (k :: todo)) (ha : s.actors[k]? = some a)
      (hdead : a.pc.finished = true) :
      Move s .main { s with main := .initSpawn k todo }
  | spawn (k : Nat) (todo : List Nat) (hmain : s.main = .initSpawn k todo) :
      Move s .main { s with
        actors := s.actors.modify k fun a => { a with pc := .spawned }
        threads := s.threads ++ [k]
        main := .initSend todo }
  | initDone (hmain : s.main = .initSend []) :
      Move s .main { s with main := .idle }
  | runDone (hmain : s.main = .running) (hflag : s.terminateFlag = true) :
      Move s .main { s with main := .idle }
  | runSleep (hmain : s.main = .running) (hflag : s.terminateFlag = false) :
      Move s .main s
  | sendShutdown (k : Nat) (todo : List Nat) (inEnd : Bool) (a : Runtime μ)
      (hmain : s.main = .shutdownSend (k :: todo) inEnd)
      (ha : s.actors[k]? = some a) (hlive : a.pc.finished = false) :
      Move s .main {
        s.posted k a (s.letterOf .main k a.name .shutdown none false)
        with main := .shutdownSend todo inEnd }
  | shutdownRefused (k : Nat) (todo : List Nat) (inEnd : Bool) (a : Runtime μ)
      (hmain : s.main = .shutdownSend (k :: todo) inEnd)
      (ha : s.actors[k]? = some a) (hdead : a.pc.finished = true) :
      Move s .main { s with main := .shutdownSend todo inEnd }
  | shutdownThenWait (hmain : s.main = .shutdownSend [] true) :
      Move s .main { s with threads := [], main := .join s.threads true }
  | shutdownDone (hmain : s.main = .shutdownSend [] false) :
      Move s .main { s with main := .idle }
  | join (k : Nat) (todo : List Nat) (inEnd : Bool) (a : Runtime μ)
      (hmain : s.main = .join (k :: todo) inEnd) (ha : s.actors[k]? = some a)
      (hfin : a.pc.finished = true) :
      Move s .main { s with main := .join todo inEnd }
  | joined (inEnd : Bool) (hmain : s.main = .join [] inEnd) :
      Move s .main { s with main := .idle }
  -- The application.
  | terminate (t : ThreadId) :
      Move s (.terminate t) { s with terminateFlag := true }
  | send (t : ThreadId) (k : Nat) (msg : Message μ) (sender : Option ActorRef)
      (a : Runtime μ) (hcan : s.canSend t = true) (hfree : s.blocked t = false)
      (ha : s.actors[k]? = some a) (hlive : a.pc.finished = false) :
      Move s (.send t k msg sender)
        (s.posted k a (s.letterOf t k a.name msg sender false))
  | fastSend (t : ThreadId) (k : Nat) (msg : Message μ)
      (sender : Option ActorRef) (a : Runtime μ) (hcan : s.canSend t = true)
      (hfree : s.blocked t = false) (ha : s.actors[k]? = some a)
      (hlive : a.pc.finished = false) :
      Move s (.fastSend t k msg sender)
        { s.posted k a (s.letterOf t k a.name msg sender true) with
          callers := s.callers ++ [(t, s.sent.length)] }
  | refused (b : ManagerAction μ) (k : Nat) (a : Runtime μ)
      (hb : ∃ t msg sender, b = .send t k msg sender ∨
        b = .fastSend t k msg sender)
      (ha : s.actors[k]? = some a) (hdead : a.pc.finished = true) :
      Move s b s
  | fastReturn (t : ThreadId) (c : ChannelId) (m : Message μ)
      (ms : List (Message μ)) (hc : (t, c) ∈ s.callers)
      (hm : s.ledger.carried c = m :: ms) :
      Move s (.fastReturn t) { s with
        callers := s.callers.filter fun c => c.1 ≠ t
        ledger := s.ledger.giveBack c (some m) }
  | fastReturnNone (t : ThreadId) (c : ChannelId) (hc : (t, c) ∈ s.callers)
      (hm : s.ledger.carried c = []) (hgone : s.replySenderLive c = false) :
      Move s (.fastReturn t) { s with
        callers := s.callers.filter fun c => c.1 ≠ t
        ledger := s.ledger.giveBack c none }
  | dropRefs (k : Nat) :
      Move s (.dropRefs k) { s with actors := s.actors.modify k fun a =>
        { a with senders := a.senders.filter fun h => h ≠ .application } }
  -- The threads of the actors.
  | actor (b : ManagerAction μ) (k : Nat) (a a' : Runtime μ)
      (events : List LifeEvent) (hb : b = .actor k ∨ b = .codeReturn k)
      (hfree : b = .codeReturn k → s.blocked (.worker k) = false)
      (ha : s.actors[k]? = some a) (hmove : Runtime.Move k a a' events) :
      Move s b { s with
        actors := s.actors.set k a'
        history := s.history ++ events.map (Prod.mk k) }
  | panic (k : Nat) (a : Runtime μ) (ha : s.actors[k]? = some a)
      (hcode : a.pc.inCode = true) (hfree : s.blocked (.worker k) = false) :
      Move s (.codePanic k) { s with
        actors := s.actors.set k (a.finish .panicked) }
  | reply (k : Nat) (msg : Message μ) (a : Runtime μ) (l : Letter μ)
      (ha : s.actors[k]? = some a) (hpc : a.pc = .process l) :
      Move s (.reply k msg) { s with
        actors := s.actors.set k a.reply.2
        ledger := s.ledger.enter k l msg a.reply.1 }
  | stop (k : Nat) :
      Move s (.stop k) { s with actors := s.actors.modify k Runtime.stop }

/-! ## Every step is a move -/

theorem post_eq_some {s s' : Manager μ} {t : ThreadId} {k : Nat}
    {msg : Message μ} {sender : Option ActorRef} {sync : Bool}
    (h : s.post t k msg sender sync = some s') :
    ∃ a, s.actors[k]? = some a ∧
      (a.pc.finished = true ∧ s' = s ∨ a.pc.finished = false ∧
        s' = s.posted k a (s.letterOf t k a.name msg sender sync)) := by
  unfold post at h
  split at h
  · simp at h
  · rename_i a ha
    split at h
    · rename_i hdead
      rw [Option.some.injEq] at h
      exact ⟨a, ha, Or.inl ⟨hdead, h.symm⟩⟩
    · rename_i hlive
      rw [Option.some.injEq] at h
      exact ⟨a, ha, Or.inr ⟨by simpa using hlive, h.symm⟩⟩

theorem putBack_eq_some {s s' : Manager μ} {k : Nat}
    {o : Option (Runtime μ × List LifeEvent)} (h : s.putBack k o = some s') :
    ∃ a events, o = some (a, events) ∧ s' = { s with
      actors := s.actors.set k a
      history := s.history ++ events.map (Prod.mk k) } := by
  cases o with
  | none => simp [putBack] at h
  | some p =>
    simp only [putBack, Option.some.injEq] at h
    exact ⟨p.1, p.2, rfl, h.symm⟩

theorem move_of_mainStep {s s' : Manager μ} (h : s.mainStep = some s') :
    Move s .main s' := by
  unfold mainStep at h
  split at h
  case h_1 => simp at h
  case h_2 k todo hmain =>
    obtain ⟨s1, hpost, rfl⟩ := Option.map_eq_some_iff.mp h
    obtain ⟨a, ha, ⟨hdead, rfl⟩ | ⟨hlive, rfl⟩⟩ := post_eq_some hpost
    · exact .startRefused k todo a hmain ha hdead
    · exact .sendStart k todo a hmain ha hlive
  case h_3 hmain =>
    rw [Option.some.injEq] at h
    exact h ▸ .initDone hmain
  case h_4 k todo hmain =>
    rw [Option.some.injEq] at h
    exact h ▸ .spawn k todo hmain
  case h_5 hmain =>
    split at h
    · rename_i hflag
      rw [Option.some.injEq] at h
      exact h ▸ .runDone hmain hflag
    · rename_i hflag
      rw [Option.some.injEq] at h
      exact h ▸ .runSleep hmain (by simpa using hflag)
  case h_6 k todo inEnd hmain =>
    obtain ⟨s1, hpost, rfl⟩ := Option.map_eq_some_iff.mp h
    obtain ⟨a, ha, ⟨hdead, rfl⟩ | ⟨hlive, rfl⟩⟩ := post_eq_some hpost
    · exact .shutdownRefused k todo inEnd a hmain ha hdead
    · exact .sendShutdown k todo inEnd a hmain ha hlive
  case h_7 hmain =>
    rw [Option.some.injEq] at h
    exact h ▸ .shutdownThenWait hmain
  case h_8 hmain =>
    rw [Option.some.injEq] at h
    exact h ▸ .shutdownDone hmain
  case h_9 k todo inEnd hmain =>
    split at h
    · rename_i a ha
      split at h
      · rename_i hfin
        rw [Option.some.injEq] at h
        exact h ▸ .join k todo inEnd a hmain ha hfin
      · simp at h
    · simp at h
  case h_10 inEnd hmain =>
    rw [Option.some.injEq] at h
    exact h ▸ .joined inEnd hmain

theorem move_of_actor {s s' : Manager μ} {k : Nat} :
    (s.actorStep k = some s' → Move s (.actor k) s') ∧
    (s.codeReturn k = some s' → Move s (.codeReturn k) s') ∧
    (s.codePanic k = some s' → Move s (.codePanic k) s') := by
  refine ⟨fun h => ?_, fun h => ?_, fun h => ?_⟩
  · unfold actorStep at h
    split at h
    · rename_i a ha
      obtain ⟨a', events, hrun, rfl⟩ := putBack_eq_some h
      exact .actor _ k a a' events (Or.inl rfl) (by simp) ha
        (Runtime.move_of_runStep hrun)
    · simp at h
  · unfold codeReturn at h
    split at h
    · rename_i a ha
      split at h
      · simp at h
      · rename_i hfree
        obtain ⟨a', events, hrun, rfl⟩ := putBack_eq_some h
        exact .actor _ k a a' events (Or.inr rfl)
          (fun _ => by simpa using hfree) ha (Runtime.move_of_codeReturn hrun)
    · simp at h
  · unfold codePanic at h
    split at h
    · rename_i a ha
      split at h
      · simp at h
      · rename_i hfree
        obtain ⟨a', hpanic, rfl⟩ := Option.map_eq_some_iff.mp h
        unfold Runtime.codePanic at hpanic
        split at hpanic
        · rename_i hcode
          rw [Option.some.injEq] at hpanic
          exact hpanic ▸ .panic k a ha hcode (by simpa using hfree)
        · simp at hpanic
    · simp at h

theorem move_of_fastReturn {s s' : Manager μ} {t : ThreadId}
    (h : s.fastReturn t = some s') : Move s (.fastReturn t) s' := by
  unfold fastReturn at h
  split at h
  · simp at h
  · rename_i t' c hfind
    have hmem := List.mem_of_find?_eq_some hfind
    have ht : t' = t := by simpa using List.find?_some hfind
    subst ht
    split at h
    · rename_i m ms hm
      rw [Option.some.injEq] at h
      exact h ▸ .fastReturn t' c m ms hmem hm
    · rename_i hm
      split at h
      · simp at h
      · rename_i hgone
        rw [Option.some.injEq] at h
        exact h ▸ .fastReturnNone t' c hmem hm (by simpa using hgone)

theorem move_of_call {s s' : Manager μ} (name : String) :
    (s.manage name = some s' → Move s (.manage name) s') ∧
    (s.getRef name = some s' → Move s (.getRef name) s') ∧
    (s.init = some s' → Move s .init s') ∧
    (s.run = some s' → Move s .run s') ∧
    (s.shutdown = some s' → Move s .shutdown s') ∧
    (s.wait = some s' → Move s .wait s') ∧
    (s.endCall = some s' → Move s .endCall s') := by
  refine ⟨fun h => ?_, fun h => ?_, fun h => ?_, fun h => ?_, fun h => ?_,
    fun h => ?_, fun h => ?_⟩
  · unfold manage at h
    split at h
    · rename_i hcond
      rw [Option.some.injEq] at h
      exact h ▸ .manage name hcond.1
    · simp at h
  · unfold getRef at h
    split at h
    · split at h
      · rename_i k hk
        rw [Option.some.injEq] at h
        exact h ▸ .getRef name k hk
      · rename_i hk
        rw [Option.some.injEq] at h
        exact h ▸ .getRefNone name hk
    · simp at h
  · unfold init at h
    split at h
    · rename_i hcond
      rw [Option.some.injEq] at h
      exact h ▸ .init hcond.1
    · simp at h
  · unfold run at h
    split at h
    · rename_i hcond
      rw [Option.some.injEq] at h
      exact h ▸ .run hcond.1
    · simp at h
  · unfold shutdown at h
    split at h
    · rename_i hcond
      rw [Option.some.injEq] at h
      exact h ▸ .shutdown hcond.1
    · simp at h
  · unfold wait at h
    split at h
    · rename_i hcond
      rw [Option.some.injEq] at h
      exact h ▸ .wait hcond.1
    · simp at h
  · unfold endCall at h
    split at h
    · rename_i hcond
      rw [Option.some.injEq] at h
      exact h ▸ .endCall hcond.1
    · simp at h

/-- Every step of the manager is one of the moves. -/
theorem move_of_step {s s' : Manager μ} {b : ManagerAction μ}
    (h : s.step b = some s') : Move s b s' := by
  cases b with
  | manage name => exact (move_of_call name).1 h
  | getRef name => exact (move_of_call name).2.1 h
  | init => exact (move_of_call "").2.2.1 h
  | run => exact (move_of_call "").2.2.2.1 h
  | shutdown => exact (move_of_call "").2.2.2.2.1 h
  | wait => exact (move_of_call "").2.2.2.2.2.1 h
  | endCall => exact (move_of_call "").2.2.2.2.2.2 h
  | main => exact move_of_mainStep h
  | terminate t =>
    simp only [step] at h
    split at h
    · rw [Option.some.injEq] at h
      exact h ▸ .terminate t
    · simp at h
  | send t k msg sender =>
    simp only [step] at h
    split at h
    · rename_i hcond
      simp only [Bool.and_eq_true, Bool.not_eq_true'] at hcond
      obtain ⟨a, ha, ⟨hdead, rfl⟩ | ⟨hlive, rfl⟩⟩ := post_eq_some h
      · exact .refused _ k a ⟨t, msg, sender, Or.inl rfl⟩ ha hdead
      · exact .send t k msg sender a hcond.1.1 hcond.1.2 ha hlive
    · simp at h
  | fastSend t k msg sender =>
    simp only [step] at h
    split at h
    · rename_i hcond
      simp only [Bool.and_eq_true, Bool.not_eq_true'] at hcond
      obtain ⟨s1, hpost, rfl⟩ := Option.map_eq_some_iff.mp h
      obtain ⟨a, ha, ⟨hdead, rfl⟩ | ⟨hlive, rfl⟩⟩ := post_eq_some hpost
      · rw [if_pos rfl]
        exact .refused _ k a ⟨t, msg, sender, Or.inr rfl⟩ ha hdead
      · rw [if_neg (by simp [posted])]
        exact .fastSend t k msg sender a hcond.1.1 hcond.1.2 ha hlive
    · simp at h
  | fastReturn t => exact move_of_fastReturn h
  | dropRefs k =>
    simp only [step, Option.some.injEq] at h
    exact h ▸ .dropRefs k
  | actor k => exact move_of_actor.1 h
  | reply k msg =>
    simp only [step, reply] at h
    split at h
    · rename_i a ha
      split at h
      · rename_i l hpc
        split at h
        · simp at h
        · rw [Option.some.injEq] at h
          exact h ▸ .reply k msg a l ha hpc
      · simp at h
    · simp at h
  | codeReturn k => exact move_of_actor.2.1 h
  | codePanic k => exact move_of_actor.2.2 h
  | stop k =>
    simp only [step, Option.some.injEq] at h
    exact h ▸ .stop k

/-- The invariant rule of the manager. -/
theorem invariant {ok : Manager μ → ManagerAction μ → Prop} {I : Manager μ → Prop}
    (hnew : I new)
    (hkeep : ∀ s b s', (machine μ).Reach ok s → I s → ok s b → Move s b s' → I s')
    {s : Manager μ} (h : (machine μ).Reach ok s) : I s := by
  refine h.invariant ?_ ?_
  · rintro s rfl
    exact hnew
  · intro s b s' hreach hs hok hstep
    exact hkeep s b s' hreach hs hok (move_of_step hstep)

end Manager

end Actors
