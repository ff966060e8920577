import Actors.Group.Step
import Actors.Lib.Lists

/-!
# What a step of a group can do

`Group.step` is written the way the source is: nested matches over locks,
queues and program counters.  `Move g a g'` is the same step as a relation
with one constructor for each outcome, which lists everything that was checked
and the resulting state.  `move_of_step` is the only proof that unfolds the
step functions.  Every invariant of the group is a case analysis of `Move`.
-/

namespace Actors

open Concur

variable {μ : Type}

namespace Group

/-- The state after a send. -/
def posted (g : Group μ) (r : Nat) (f : Forwarder μ) (l : Letter μ) : Group μ :=
  { g with
    forwarders := g.forwarders.set r { f with chan := f.chan ++ [l] }
    sent := g.sent ++ [l] }

/-- One step of the group, by outcome. -/
inductive Move (g : Group μ) : Action μ → Group μ → Prop where
  -- The calls.
  | add (name : String) (hidle : g.main = .idle) :
      Move g (.add name) { g with
        forwarders := g.forwarders ++ [Forwarder.new name]
        members := g.members ++ [GroupMember.new
          (.localRef { sender := g.forwarders.length, name })]
        actorsBuilder := g.actorsBuilder.insert name g.members.length
        actorRefs := g.actorRefs ++ [g.forwarders.length]
        calls := g.calls ++ [.add name] }
  | getRef (name : String) (href : g.hasRef name = true) :
      Move g (.getRef name) { g with
        forwarders := g.forwarders ++ [Forwarder.new name] }
  | getRefNone (name : String) (href : g.hasRef name = false) :
      Move g (.getRef name) g
  | start (hidle : g.main = .idle) :
      Move g .start { g with
        actors := g.actorsBuilder
        actorsBuilder := ∅
        main := .startInit g.actorsBuilder.values
        calls := g.calls ++ [.start] }
  | shutdown (hidle : g.main = .idle) :
      Move g .shutdown { g with
        main := .shutdownSend g.actorRefs false
        calls := g.calls ++ [.shutdown] }
  | wait (hidle : g.main = .idle) :
      Move g .wait { g with
        main := .waitEnd g.actors.values
        calls := g.calls ++ [.wait] }
  | endCall (hidle : g.main = .idle) :
      Move g .endCall { g with
        main := .shutdownSend g.actorRefs true
        calls := g.calls ++ [.endCall]
        endMark := g.sent.length }
  -- The bodies of `start`, `shutdown` and `wait`.
  | initLock (m : Nat) (mem : GroupMember) (todo : List Nat)
      (hmain : g.main = .startInit todo) (hm : m ∈ todo)
      (hmem : g.members[m]? = some mem) (hfree : mem.mutex.owner = none)
      (hclean : mem.mutex.poisoned = false) :
      Move g (.mainLock m) { g with
        members := g.members.set m
          { mem with mutex := { owner := some .main, poisoned := false } }
        main := .initHook m (todo.erase m)
        history := g.history ++ [(m, .initBegin)] }
  | endLock (m : Nat) (mem : GroupMember) (todo : List Nat)
      (hmain : g.main = .waitEnd todo) (hm : m ∈ todo)
      (hmem : g.members[m]? = some mem) (hfree : mem.mutex.owner = none)
      (hclean : mem.mutex.poisoned = false) :
      Move g (.mainLock m) { g with
        members := g.members.set m
          { mem with mutex := { owner := some .main, poisoned := false } }
        main := .endHook m (todo.erase m)
        history := g.history ++ [(m, .endBegin)] }
  | lockPanic (m : Nat) (mem : GroupMember) (todo : List Nat)
      (hmain : g.main = .startInit todo ∨ g.main = .waitEnd todo)
      (hmem : g.members[m]? = some mem) (hpois : mem.mutex.poisoned = true) :
      Move g (.mainLock m) { g with main := .panicked }
  | initReturn (m : Nat) (todo : List Nat)
      (hmain : g.main = .initHook m todo) :
      Move g .main { g with
        members := g.members.modify m fun mem =>
          { mem with mutex := mem.mutex.unlock }
        main := .startInit todo
        history := g.history ++ [(m, .initEnd)] }
  | endReturn (m : Nat) (todo : List Nat)
      (hmain : g.main = .endHook m todo) :
      Move g .main { g with
        members := g.members.modify m fun mem =>
          { mem with mutex := mem.mutex.unlock }
        main := .waitEnd todo
        history := g.history ++ [(m, .endEnd)] }
  | initsDone (hmain : g.main = .startInit []) :
      Move g .main { g with main := .startSend g.actorRefs }
  | sendStart (r : Nat) (rs : List Nat) (f : Forwarder μ)
      (hmain : g.main = .startSend (r :: rs))
      (hf : g.forwarders[r]? = some f) (hlive : f.live = true) :
      Move g .main { g.posted r f (g.letterOf .main r f.name .start none false)
        with main := .startSend rs }
  | startSent (hmain : g.main = .startSend []) :
      Move g .main { g with main := .startSpawn g.numWorkers }
  | spawn (n : Nat) (hmain : g.main = .startSpawn (n + 1)) :
      Move g .main { g with
        workers := g.workers ++ [{ pc := .check, actors := g.actors }]
        handles := g.handles ++ [g.workers.length]
        main := .startSpawn n }
  | spawned (hmain : g.main = .startSpawn 0) :
      Move g .main { g with main := .idle }
  | sendShutdown (r : Nat) (rs : List Nat) (thenWait : Bool) (f : Forwarder μ)
      (hmain : g.main = .shutdownSend (r :: rs) thenWait)
      (hf : g.forwarders[r]? = some f) (hlive : f.live = true) :
      Move g .main {
        g.posted r f (g.letterOf .main r f.name .shutdown none false)
        with main := .shutdownSend rs thenWait }
  | clearRunning (thenWait : Bool)
      (hmain : g.main = .shutdownSend [] thenWait) :
      Move g .main { g with
        running := false
        main := if thenWait then .waitEnd g.actors.values else .idle
        stopMark := g.sent.length }
  | endsDone (hmain : g.main = .waitEnd []) :
      Move g .main { g with main := .waitJoin g.handles, handles := [] }
  | join (i : Nat) (is : List Nat) (w : Worker μ)
      (hmain : g.main = .waitJoin (i :: is)) (hw : g.workers[i]? = some w)
      (hfin : w.pc.finished = true) :
      Move g .main { g with main := .waitJoin is }
  | joined (hmain : g.main = .waitJoin []) :
      Move g .main { g with main := .idle }
  -- The application.
  | send (t : ThreadId) (r : Nat) (msg : Message μ) (sender : Option ActorRef)
      (f : Forwarder μ) (hcan : g.canSend t = true)
      (hfree : g.blocked t = false) (hf : g.forwarders[r]? = some f)
      (hlive : f.live = true) :
      Move g (.send t r msg sender)
        (g.posted r f (g.letterOf t r f.name msg sender false))
  | fastSend (t : ThreadId) (r : Nat) (msg : Message μ)
      (sender : Option ActorRef) (f : Forwarder μ) (hcan : g.canSend t = true)
      (hfree : g.blocked t = false) (hf : g.forwarders[r]? = some f)
      (hlive : f.live = true) :
      Move g (.fastSend t r msg sender)
        { g.posted r f (g.letterOf t r f.name msg sender true) with
          callers := g.callers ++ [(t, g.sent.length)] }
  | fastReturn (t : ThreadId) (c : ChannelId) (m : Message μ)
      (ms : List (Message μ)) (hc : (t, c) ∈ g.callers)
      (hm : g.ledger.carried c = m :: ms) :
      Move g (.fastReturn t) { g with
        callers := g.callers.filter fun c => c.1 ≠ t
        ledger := g.ledger.giveBack c (some m) }
  | fastReturnNone (t : ThreadId) (c : ChannelId) (hc : (t, c) ∈ g.callers)
      (hm : g.ledger.carried c = []) (hgone : g.replySenderLive c = false) :
      Move g (.fastReturn t) { g with
        callers := g.callers.filter fun c => c.1 ≠ t
        ledger := g.ledger.giveBack c none }
  | dropRef (r : Nat) (f : Forwarder μ) (hf : g.forwarders[r]? = some f)
      (hr : r ∉ g.actorRefs) :
      Move g (.dropRef r) { g with
        forwarders := g.forwarders.set r { f with live := false } }
  -- The forwarding threads.
  | forwardRecv (r : Nat) (f : Forwarder μ) (l : Letter μ)
      (rest : List (Letter μ)) (hf : g.forwarders[r]? = some f)
      (hchan : f.chan = l :: rest) (hhand : f.hand = none) :
      Move g (.forwardRecv r) { g with
        forwarders := g.forwarders.set r
          { f with chan := rest, hand := some l } }
  | forwardSend (r : Nat) (f : Forwarder μ) (l : Letter μ)
      (hf : g.forwarders[r]? = some f) (hhand : f.hand = some l) :
      Move g (.forwardSend r) { g with
        forwarders := g.forwarders.set r { f with hand := none }
        queue := g.queue ++ [{ destination := f.destName, letter := l }] }
  | forwardExit (r : Nat) (f : Forwarder μ) (hf : g.forwarders[r]? = some f)
      (hlive : f.live = false) :
      Move g (.forwardExit r) { g with
        forwarders := g.forwarders.set r { f with exited := true } }
  -- The workers.
  | check (i : Nat) (w : Worker μ) (hw : g.workers[i]? = some w)
      (hpc : w.pc = .check) :
      Move g (.worker i) { g with
        workers := g.workers.set i
          { w with pc := if g.running then .recv else .drain } }
  | recvPanic (i : Nat) (w : Worker μ) (hw : g.workers[i]? = some w)
      (hpc : w.pc = .recv ∨ w.pc = .drain)
      (hpois : g.receiver.poisoned = true) :
      Move g (.worker i) { g with
        workers := g.workers.set i { w with pc := .panicked } }
  | recv (i : Nat) (w : Worker μ) (env : GroupEnvelope μ)
      (rest : List (GroupEnvelope μ)) (hw : g.workers[i]? = some w)
      (hpc : w.pc = .recv) (hfree : g.receiver.owner = none)
      (hq : g.queue = env :: rest) :
      Move g (.worker i) { g with
        workers := g.workers.set i { w with pc := .dispatch false env }
        queue := rest }
  | recvEmpty (i : Nat) (w : Worker μ) (hw : g.workers[i]? = some w)
      (hpc : w.pc = .recv) :
      Move g (.worker i) { g with
        workers := g.workers.set i { w with pc := .check } }
  | drain (i : Nat) (w : Worker μ) (env : GroupEnvelope μ)
      (rest : List (GroupEnvelope μ)) (hw : g.workers[i]? = some w)
      (hpc : w.pc = .drain) (hfree : g.receiver.owner = none)
      (hq : g.queue = env :: rest) :
      Move g (.worker i) { g with
        workers := g.workers.set i { w with pc := .dispatch true env }
        queue := rest
        receiver := { owner := some (.worker i), poisoned := false } }
  | drainEmpty (i : Nat) (w : Worker μ) (hw : g.workers[i]? = some w)
      (hpc : w.pc = .drain) (hq : g.queue = []) :
      Move g (.worker i) { g with
        workers := g.workers.set i { w with pc := .exited } }
  | noMember (i : Nat) (w : Worker μ) (d : Bool) (env : GroupEnvelope μ)
      (hw : g.workers[i]? = some w) (hpc : w.pc = .dispatch d env)
      (hno : w.actors.lookup env.destination = none) :
      Move g (.worker i) { g with
        workers := g.workers.set i { w with pc := .after d }
        receiver := if d then g.receiver.unlock else g.receiver
        lost := g.lost ++ [env.letter] }
  | memberPanic (i : Nat) (w : Worker μ) (d : Bool) (env : GroupEnvelope μ)
      (m : Nat) (mem : GroupMember) (hw : g.workers[i]? = some w)
      (hpc : w.pc = .dispatch d env)
      (hm : w.actors.lookup env.destination = some m)
      (hmem : g.members[m]? = some mem) (hpois : mem.mutex.poisoned = true) :
      Move g (.worker i) { g with
        workers := g.workers.set i { w with pc := .panicked }
        receiver := if d then g.receiver.poison else g.receiver
        lost := g.lost ++ [env.letter] }
  | processBegin (i : Nat) (w : Worker μ) (d : Bool) (env : GroupEnvelope μ)
      (m : Nat) (mem : GroupMember) (hw : g.workers[i]? = some w)
      (hpc : w.pc = .dispatch d env)
      (hm : w.actors.lookup env.destination = some m)
      (hmem : g.members[m]? = some mem) (hfree : mem.mutex.owner = none)
      (hclean : mem.mutex.poisoned = false) :
      Move g (.worker i) { g with
        workers := g.workers.set i { w with pc := .process d m env.letter }
        members := g.members.set m
          { context := (mem.dispatch m env.letter).context
            mutex := { owner := some (.worker i), poisoned := false } }
        handed := g.handed ++ [mem.dispatch m env.letter]
        history := g.history ++ [(m, .processBegin)] }
  | reply (i : Nat) (msg : Message μ) (w : Worker μ) (d : Bool) (m : Nat)
      (l : Letter μ) (mem : GroupMember) (hw : g.workers[i]? = some w)
      (hpc : w.pc = .process d m l) (hmem : g.members[m]? = some mem) :
      Move g (.reply i msg) { g with
        members := g.members.set m { mem with context := mem.context.reply.2 }
        ledger := g.ledger.enter m l msg mem.context.reply.1 }
  | handlerReturn (i : Nat) (w : Worker μ) (d : Bool) (m : Nat) (l : Letter μ)
      (hw : g.workers[i]? = some w) (hpc : w.pc = .process d m l)
      (hfree : g.blocked (.worker i) = false) :
      Move g (.handlerReturn i) { g with
        workers := g.workers.set i { w with pc := .after d }
        members := g.members.modify m fun mem =>
          { mem with mutex := mem.mutex.unlock }
        receiver := if d then g.receiver.unlock else g.receiver
        history := g.history ++ [(m, .processEnd)] }
  | handlerPanic (i : Nat) (w : Worker μ) (d : Bool) (m : Nat) (l : Letter μ)
      (hw : g.workers[i]? = some w) (hpc : w.pc = .process d m l)
      (hfree : g.blocked (.worker i) = false) :
      Move g (.handlerPanic i) { g with
        workers := g.workers.set i { w with pc := .panicked }
        members := g.members.modify m fun mem =>
          { mem with mutex := mem.mutex.poison }
        receiver := if d then g.receiver.poison else g.receiver
        history := g.history ++ [(m, .processEnd)] }

/-! ## Every step is a move -/

theorem post_eq_some {g g' : Group μ} {t : ThreadId} {r : Nat}
    {msg : Message μ} {sender : Option ActorRef} {sync : Bool}
    (h : g.post t r msg sender sync = some g') :
    ∃ f, g.forwarders[r]? = some f ∧ f.live = true ∧
      g' = g.posted r f (g.letterOf t r f.name msg sender sync) := by
  unfold post at h
  split at h
  · rename_i f hf
    split at h
    · rename_i hlive
      rw [Option.some.injEq] at h
      exact ⟨f, hf, hlive, h.symm⟩
    · simp at h
  · simp at h

theorem move_of_mainStep {g g' : Group μ} (h : g.mainStep = some g') :
    Move g .main g' := by
  unfold mainStep at h
  split at h
  · simp at h
  split at h
  case h_1 hmain =>
    rw [Option.some.injEq] at h
    exact h ▸ .initsDone hmain
  case h_2 m todo hmain =>
    rw [Option.some.injEq] at h
    exact h ▸ .initReturn m todo hmain
  case h_3 r rs hmain =>
    obtain ⟨g1, hpost, rfl⟩ := Option.map_eq_some_iff.mp h
    obtain ⟨f, hf, hlive, rfl⟩ := post_eq_some hpost
    exact .sendStart r rs f hmain hf hlive
  case h_4 hmain =>
    rw [Option.some.injEq] at h
    exact h ▸ .startSent hmain
  case h_5 n hmain =>
    rw [Option.some.injEq] at h
    exact h ▸ .spawn n hmain
  case h_6 hmain =>
    rw [Option.some.injEq] at h
    exact h ▸ .spawned hmain
  case h_7 r rs b hmain =>
    obtain ⟨g1, hpost, rfl⟩ := Option.map_eq_some_iff.mp h
    obtain ⟨f, hf, hlive, rfl⟩ := post_eq_some hpost
    exact .sendShutdown r rs b f hmain hf hlive
  case h_8 b hmain =>
    rw [Option.some.injEq] at h
    exact h ▸ .clearRunning b hmain
  case h_9 hmain =>
    rw [Option.some.injEq] at h
    exact h ▸ .endsDone hmain
  case h_10 m todo hmain =>
    rw [Option.some.injEq] at h
    exact h ▸ .endReturn m todo hmain
  case h_11 i is hmain =>
    split at h
    · rename_i w hw
      split at h
      · rename_i hfin
        rw [Option.some.injEq] at h
        exact h ▸ .join i is w hmain hw hfin
      · simp at h
    · simp at h
  case h_12 hmain =>
    rw [Option.some.injEq] at h
    exact h ▸ .joined hmain
  case h_13 => simp at h

theorem move_of_mainLock {g g' : Group μ} {m : Nat}
    (h : g.mainLock m = some g') : Move g (.mainLock m) g' := by
  unfold mainLock at h
  split at h
  · rename_i mem todo hmem hmain
    split at h
    · rename_i hm
      split at h
      · simp at h
      · rename_i hlock
        rw [Option.some.injEq] at h
        exact h ▸ .lockPanic m mem todo (Or.inl hmain) hmem
          (Mutex.lock_eq_panics.mp hlock).2
      · rename_i mutex hlock
        rw [Option.some.injEq] at h
        obtain ⟨hfree, hclean, rfl⟩ := Mutex.lock_eq_holds.mp hlock
        exact h ▸ .initLock m mem todo hmain hm hmem hfree hclean
    · simp at h
  · rename_i mem todo hmem hmain
    split at h
    · rename_i hm
      split at h
      · simp at h
      · rename_i hlock
        rw [Option.some.injEq] at h
        exact h ▸ .lockPanic m mem todo (Or.inr hmain) hmem
          (Mutex.lock_eq_panics.mp hlock).2
      · rename_i mutex hlock
        rw [Option.some.injEq] at h
        obtain ⟨hfree, hclean, rfl⟩ := Mutex.lock_eq_holds.mp hlock
        exact h ▸ .endLock m mem todo hmain hm hmem hfree hclean
    · simp at h
  · simp at h

theorem move_of_dispatch {g g' : Group μ} {i : Nat} {w : Worker μ} {d : Bool}
    {env : GroupEnvelope μ} (hw : g.workers[i]? = some w)
    (hpc : w.pc = .dispatch d env) (h : g.dispatchToActor i w d env = some g') :
    Move g (.worker i) g' := by
  unfold dispatchToActor at h
  split at h
  · rename_i hno
    rw [Option.some.injEq] at h
    have hmove := Move.noMember i w d env hw hpc hno
    cases d <;> exact h ▸ hmove
  · rename_i m hm
    split at h
    · simp at h
    · rename_i mem hmem
      split at h
      · simp at h
      · rename_i hlock
        rw [Option.some.injEq] at h
        have hmove := Move.memberPanic i w d env m mem hw hpc hm hmem
          (Mutex.lock_eq_panics.mp hlock).2
        cases d <;> exact h ▸ hmove
      · rename_i mutex hlock
        rw [Option.some.injEq] at h
        obtain ⟨hfree, hclean, rfl⟩ := Mutex.lock_eq_holds.mp hlock
        exact h ▸ .processBegin i w d env m mem hw hpc hm hmem hfree hclean

theorem move_of_workerStep {g g' : Group μ} {i : Nat}
    (h : g.workerStep i = some g') : Move g (.worker i) g' := by
  unfold workerStep at h
  split at h
  · simp at h
  · rename_i w hw
    split at h
    · rename_i hpc
      rw [Option.some.injEq] at h
      exact h ▸ .check i w hw hpc
    · rename_i hpc
      split at h
      · simp at h
      · rename_i hlock
        rw [Option.some.injEq] at h
        exact h ▸ .recvPanic i w hw (Or.inl hpc) (Mutex.lock_eq_panics.mp hlock).2
      · rename_i mutex hlock
        obtain ⟨hfree, -, -⟩ := Mutex.lock_eq_holds.mp hlock
        split at h
        · rename_i env rest hq
          rw [Option.some.injEq] at h
          exact h ▸ .recv i w env rest hw hpc hfree hq
        · rw [Option.some.injEq] at h
          exact h ▸ .recvEmpty i w hw hpc
    · rename_i hpc
      split at h
      · simp at h
      · rename_i hlock
        rw [Option.some.injEq] at h
        exact h ▸ .recvPanic i w hw (Or.inr hpc) (Mutex.lock_eq_panics.mp hlock).2
      · rename_i mutex hlock
        obtain ⟨hfree, -, rfl⟩ := Mutex.lock_eq_holds.mp hlock
        split at h
        · rename_i env rest hq
          rw [Option.some.injEq] at h
          exact h ▸ .drain i w env rest hw hpc hfree hq
        · rename_i hq
          rw [Option.some.injEq] at h
          exact h ▸ .drainEmpty i w hw hpc hq
    · rename_i d env hpc
      exact move_of_dispatch hw hpc h
    · simp at h

theorem move_of_fastReturn {g g' : Group μ} {t : ThreadId}
    (h : g.fastReturn t = some g') : Move g (.fastReturn t) g' := by
  unfold fastReturn at h
  split at h
  · simp at h
  · rename_i t' c hfind
    have hmem := List.mem_of_find?_eq_some hfind
    have ht : t' = t := by simpa using List.find?_some hfind
    subst ht
    split at h
    · rename_i m ms hm
      rw [Option.some.injEq] at h
      exact h ▸ .fastReturn t' c m ms hmem hm
    · rename_i hm
      split at h
      · simp at h
      · rename_i hgone
        rw [Option.some.injEq] at h
        exact h ▸ .fastReturnNone t' c hmem hm (by simpa using hgone)

theorem move_of_forward {g g' : Group μ} {r : Nat} :
    (g.forwardRecv r = some g' → Move g (.forwardRecv r) g') ∧
    (g.forwardSend r = some g' → Move g (.forwardSend r) g') ∧
    (g.forwardExit r = some g' → Move g (.forwardExit r) g') := by
  refine ⟨fun h => ?_, fun h => ?_, fun h => ?_⟩
  · unfold forwardRecv at h
    split at h
    · rename_i f hf
      split at h
      · rename_i l rest hchan hhand _
        rw [Option.some.injEq] at h
        exact h ▸ .forwardRecv r f l rest hf hchan hhand
      · simp at h
    · simp at h
  · unfold forwardSend at h
    split at h
    · rename_i f hf
      split at h
      · rename_i l hhand
        rw [Option.some.injEq] at h
        exact h ▸ .forwardSend r f l hf hhand
      · simp at h
    · simp at h
  · unfold forwardExit at h
    split at h
    · rename_i f hf
      split at h
      · rename_i hcond
        rw [Option.some.injEq] at h
        exact h ▸ .forwardExit r f hf hcond.2.2.1
      · simp at h
    · simp at h

theorem move_of_handler {g g' : Group μ} {i : Nat} (msg : Message μ) :
    (g.reply i msg = some g' → Move g (.reply i msg) g') ∧
    (g.handlerReturn i = some g' → Move g (.handlerReturn i) g') ∧
    (g.handlerPanic i = some g' → Move g (.handlerPanic i) g') := by
  refine ⟨fun h => ?_, fun h => ?_, fun h => ?_⟩
  · unfold reply at h
    split at h
    · rename_i d m l actors hw
      split at h
      · rename_i mem hmem
        split at h
        · simp at h
        · rw [Option.some.injEq] at h
          exact h ▸ .reply i msg _ d m l mem hw rfl hmem
      · simp at h
    · simp at h
  · unfold handlerReturn at h
    split at h
    · rename_i w hw
      split at h
      · rename_i d m l hpc
        split at h
        · simp at h
        · rename_i hfree
          rw [Option.some.injEq] at h
          have hmove := Move.handlerReturn i w d m l hw hpc (by simpa using hfree)
          cases d <;> exact h ▸ hmove
      · simp at h
    · simp at h
  · unfold handlerPanic at h
    split at h
    · rename_i w hw
      split at h
      · rename_i d m l hpc
        split at h
        · simp at h
        · rename_i hfree
          rw [Option.some.injEq] at h
          have hmove := Move.handlerPanic i w d m l hw hpc (by simpa using hfree)
          cases d <;> exact h ▸ hmove
      · simp at h
    · simp at h

theorem move_of_call {g g' : Group μ} (name : String) :
    (g.add name = some g' → Move g (.add name) g') ∧
    (g.getRef name = some g' → Move g (.getRef name) g') ∧
    (g.startCall = some g' → Move g .start g') ∧
    (g.shutdownCall = some g' → Move g .shutdown g') ∧
    (g.waitCall = some g' → Move g .wait g') ∧
    (g.endCall = some g' → Move g .endCall g') := by
  refine ⟨fun h => ?_, fun h => ?_, fun h => ?_, fun h => ?_, fun h => ?_,
    fun h => ?_⟩
  · unfold add at h
    split at h
    · rename_i hcond
      rw [Option.some.injEq] at h
      exact h ▸ .add name hcond.1
    · simp at h
  · have hboth : (if g.hasRef name then
        some { g with forwarders := g.forwarders ++ [Forwarder.new name] }
        else some g) = some g' := by
      unfold getRef at h
      split at h
      · exact h
      · exact h
      · simp at h
    split at hboth
    · rename_i href
      rw [Option.some.injEq] at hboth
      exact hboth ▸ .getRef name href
    · rename_i href
      rw [Option.some.injEq] at hboth
      exact hboth ▸ .getRefNone name (by simpa using href)
  · unfold startCall at h
    split at h
    · rename_i hcond
      rw [Option.some.injEq] at h
      exact h ▸ .start hcond.1
    · simp at h
  · unfold shutdownCall at h
    split at h
    · rename_i hcond
      rw [Option.some.injEq] at h
      exact h ▸ .shutdown hcond.1
    · simp at h
  · unfold waitCall at h
    split at h
    · rename_i hcond
      rw [Option.some.injEq] at h
      exact h ▸ .wait hcond.1
    · simp at h
  · unfold endCall at h
    split at h
    · rename_i hcond
      rw [Option.some.injEq] at h
      exact h ▸ .endCall hcond.1
    · simp at h

/-- Every step of the group is one of the moves. -/
theorem move_of_step {g g' : Group μ} {a : Action μ}
    (h : g.step a = some g') : Move g a g' := by
  cases a with
  | add name => exact (move_of_call name).1 h
  | getRef name => exact (move_of_call name).2.1 h
  | start => exact (move_of_call "").2.2.1 h
  | shutdown => exact (move_of_call "").2.2.2.1 h
  | wait => exact (move_of_call "").2.2.2.2.1 h
  | endCall => exact (move_of_call "").2.2.2.2.2 h
  | main => exact move_of_mainStep h
  | mainLock m => exact move_of_mainLock h
  | send t r msg sender =>
    simp only [step] at h
    split at h
    · rename_i hcond
      rw [Bool.and_eq_true, Bool.not_eq_true'] at hcond
      obtain ⟨f, hf, hlive, rfl⟩ := post_eq_some h
      exact .send t r msg sender f hcond.1 hcond.2 hf hlive
    · simp at h
  | fastSend t r msg sender =>
    simp only [step] at h
    split at h
    · rename_i hcond
      rw [Bool.and_eq_true, Bool.not_eq_true'] at hcond
      obtain ⟨g1, hpost, rfl⟩ := Option.map_eq_some_iff.mp h
      obtain ⟨f, hf, hlive, rfl⟩ := post_eq_some hpost
      exact .fastSend t r msg sender f hcond.1 hcond.2 hf hlive
    · simp at h
  | fastReturn t => exact move_of_fastReturn h
  | dropRef r =>
    simp only [step, dropRef] at h
    split at h
    · rename_i f hf
      split at h
      · simp at h
      · rename_i hr
        rw [Option.some.injEq] at h
        exact h ▸ .dropRef r f hf hr
    · simp at h
  | forwardRecv r => exact move_of_forward.1 h
  | forwardSend r => exact move_of_forward.2.1 h
  | forwardExit r => exact move_of_forward.2.2 h
  | worker i => exact move_of_workerStep h
  | reply i msg => exact (move_of_handler msg).1 h
  | handlerReturn i => exact (move_of_handler .start).2.1 h
  | handlerPanic i => exact (move_of_handler .start).2.2 h

/-! ## What a step changes -/

/-- A lock that is poisoned was poisoned before, or the step is the panic of a
handler inside the member. -/
theorem poisoned_of_move {g g' : Group μ} {a : Action μ} (h : Move g a g') :
    ∀ m mem', g'.members[m]? = some mem' → mem'.mutex.poisoned = true →
      (∃ mem, g.members[m]? = some mem ∧ mem.mutex.poisoned = true) ∨
        ∃ i w, a = .handlerPanic i ∧ g.workers[i]? = some w ∧
          w.pc.inside = some m := by
  have hold : ∀ k x, g.members[k]? = some x → x.mutex.poisoned = true →
      (∃ mem, g.members[k]? = some mem ∧ mem.mutex.poisoned = true) ∨
        ∃ i w, a = .handlerPanic i ∧ g.workers[i]? = some w ∧
          w.pc.inside = some k :=
    fun k x hx hpois => Or.inl ⟨x, hx, hpois⟩
  cases h with
  | add name hidle =>
    exact forall_getElem?_snoc hold fun hpois => by simp [GroupMember.new] at hpois
  | initLock m mem todo hmain hm hmem | endLock m mem todo hmain hm hmem
  | processBegin i w d env m mem hw hpc hm hmem =>
    exact forall_getElem?_set hold fun hpois => by simp at hpois
  | reply i msg w d m l mem hw hpc hmem =>
    exact forall_getElem?_set hold (hold m mem hmem)
  | initReturn m todo hmain | endReturn m todo hmain
  | handlerReturn i w d m l hw hpc =>
    refine forall_getElem?_modify hold (fun k x hx hpois => ?_) m
    exact hx hpois
  | handlerPanic i w d m l hw hpc =>
    intro k x hx hpois
    by_cases hk : k = m
    · subst hk
      exact Or.inr ⟨i, w, rfl, hw, by rw [hpc]; rfl⟩
    · have hsame : g.members[k]? = some x :=
        (List.getElem?_modify_ne _ _ (Ne.symm hk)).symm.trans hx
      exact hold k x hsame hpois
  | _ => exact hold

/-- The list of calls grows by one call at a time. -/
theorem calls_of_move {g g' : Group μ} {a : Action μ} (h : Move g a g') :
    g'.calls = g.calls ∨ ∃ c, g'.calls = g.calls ++ [c] := by
  cases h with
  | add | start | shutdown | wait | endCall => exact Or.inr ⟨_, rfl⟩
  | _ => exact Or.inl rfl

/-- What was handed over stays so. -/
theorem handed_of_move {g g' : Group μ} {a : Action μ} (h : Move g a g') :
    g.handed ⊆ g'.handed := by
  cases h with
  | processBegin => exact List.subset_append_left _ _
  | _ => exact List.Subset.refl _

/-- A worker has the map that it was spawned with. -/
theorem maps_of_move {g g' : Group μ} {a : Action μ} (h : Move g a g') :
    ∀ w' ∈ g'.workers, (∃ w ∈ g.workers, w'.actors = w.actors) ∨
      w'.actors = g.actors ∧ g.main.starting = true := by
  have hold : ∀ w' ∈ g.workers, (∃ w ∈ g.workers, w'.actors = w.actors) ∨
      w'.actors = g.actors ∧ g.main.starting = true :=
    fun w' hw' => Or.inl ⟨w', hw', rfl⟩
  cases h with
  | spawn k hmain =>
    exact forall_mem_snoc hold (Or.inr ⟨rfl, by rw [hmain]; rfl⟩)
  | check i w hw | recvPanic i w hw | recv i w env rest hw | recvEmpty i w hw
  | drain i w env rest hw | drainEmpty i w hw | noMember i w d env hw
  | memberPanic i w d env m mem hw | processBegin i w d env m mem hw
  | handlerReturn i w d m l hw | handlerPanic i w d m l hw =>
    exact forall_mem_set hold (Or.inl ⟨w, List.mem_of_getElem? hw, rfl⟩)
  | _ => exact hold

/-- Workers come, one at a time, and do not go. -/
theorem workers_of_move {g g' : Group μ} {a : Action μ} (h : Move g a g') :
    g'.workers.length = g.workers.length ∨
      g'.workers.length = g.workers.length + 1 ∧ ∃ k, g.main = .startSpawn (k + 1) := by
  cases h with
  | spawn k hmain => exact Or.inr ⟨by simp, k, hmain⟩
  | _ => simp [posted]

/-- There is a worker only when there was one, or `start` spawns it. -/
theorem workers_nil_of_move {g g' : Group μ} {a : Action μ} (hmove : Move g a g')
    (hspawn : ∀ k, g.main ≠ .startSpawn k) (h : g.workers = []) : g'.workers = [] := by
  rcases workers_of_move hmove with hlen | ⟨-, k, hmain⟩
  · rw [h, List.length_nil] at hlen
    exact List.length_eq_zero_iff.mp hlen
  · exact absurd hmain (hspawn (k + 1))

/-- The invariant rule of the group. -/
theorem invariant {n : Nat} {ok : Group μ → Action μ → Prop} {I : Group μ → Prop}
    (hnew : I (new n))
    (hkeep : ∀ g a g', (machine μ n).Reach ok g → I g → ok g a → Move g a g' → I g')
    {g : Group μ} (h : (machine μ n).Reach ok g) : I g := by
  refine h.invariant ?_ ?_
  · rintro g rfl
    exact hnew
  · intro g a g' hreach hg hok hstep
    exact hkeep g a g' hreach hg hok (move_of_step hstep)

end Group

end Actors
