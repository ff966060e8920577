import Actors.Manager.Mailboxes

/-!
# The end of a manager

`Manager::end` sends `Shutdown` to all actors and joins their threads.  The
thread of an actor leaves its loop when `running` is false or when `recv`
fails.  `alive` says that in a program that only uses the manager neither
happens: nobody clears `running`, and `recv` cannot fail because the runtime
itself holds a `Sender` of its own mailbox.

So once the mailboxes are empty every actor waits in `recv`, and `end` waits
for the first of them (`stuck_of_quiet`).  `end_never_stuck_iff` draws the
exact line: for a given list of actors no run gets stuck if and only if the
list is empty.
-/

namespace Actors

open Concur

variable {μ : Type}

/-- The step can occur in a program that only uses the manager, and it is no
panic. -/
def ManagerAction.managed : ManagerAction μ → Bool
  | .codePanic _ | .stop _ => false
  | _ => true

/-- There is a thread for the actor. -/
def RuntimePc.started : RuntimePc μ → Bool
  | .parked => false
  | _ => true

theorem RuntimePc.started_iff {pc : RuntimePc μ} :
    pc.started = true ↔ pc ≠ .parked := by
  cases pc <;> simp [started]

/-- The thread of the actor is in its loop or before it, `running` is set, and
the runtime holds its own `Sender`. -/
structure Runtime.Alive (a : Runtime μ) : Prop where
  running : a.running = true
  holds : Holder.runtime ∈ a.senders
  inLoop : a.pc ≠ .endHook ∧ a.pc.finished = false

/-- The actor waits in `recv`. -/
def Runtime.Waiting (a : Runtime μ) : Prop := a.pc = .recv ∧ a.mailbox = []

instance [DecidableEq μ] (a : Runtime μ) : Decidable a.Waiting :=
  inferInstanceAs (Decidable (_ ∧ _))

/-- What the thread of an actor has still to do before it waits, when nothing
more is sent to it. -/
def Runtime.work (a : Runtime μ) : Nat :=
  3 * a.mailbox.length + match a.pc with
    | .spawned => 3
    | .initHook | .process _ => 2
    | .check => 1
    | _ => 0

/-! ## No thread leaves its loop -/

theorem Runtime.Alive.move {k : Nat} {a a' : Runtime μ}
    {events : List LifeEvent} (h : a.Alive) (hmove : Runtime.Move k a a' events) :
    a'.Alive := by
  cases hmove with
  | leave hpc hrun =>
    rw [h.running] at hrun
    simp at hrun
  | closed hpc hbox hsenders =>
    have hholds := h.holds
    rw [hsenders] at hholds
    simp at hholds
  | endReturn hpc => exact absurd hpc h.inLoop.1
  | begin hpc | initReturn hpc | goOn hpc | recv l rest hpc hbox
  | processReturn l hpc =>
    exact ⟨h.running, h.holds, by simp, rfl⟩

/-- The mailbox of a living actor takes every message. -/
theorem Runtime.Alive.deliver {a : Runtime μ} (h : a.Alive) (l : Letter μ) :
    a.deliver l = a.accept l := by
  rw [Runtime.deliver, h.inLoop.2]
  rfl

/-- A thread that does not wait has a step to take, and less to do after it. -/
theorem Runtime.Alive.exists_work_lt {a : Runtime μ} (h : a.Alive) (k : Nat)
    (hpc : a.pc ≠ .parked) (hbusy : ¬ a.Waiting) :
    ∃ a' events,
      (a.runStep k = some (a', events) ∨ a.codeReturn = some (a', events)) ∧
      a'.work < a.work ∧ a'.name = a.name ∧ a'.pc ≠ .parked := by
  obtain ⟨name, context, running, mailbox, senders, pc, accepted, handed⟩ := a
  cases pc with
  | parked => exact absurd rfl hpc
  | spawned => exact ⟨_, _, Or.inl rfl, by simp [Runtime.work], rfl, by simp⟩
  | initHook => exact ⟨_, _, Or.inr rfl, by simp [Runtime.work], rfl, by simp⟩
  | check =>
    obtain rfl : running = true := h.running
    exact ⟨_, _, Or.inl rfl, by simp [Runtime.work], rfl, by simp⟩
  | recv =>
    cases mailbox with
    | nil => exact absurd ⟨rfl, rfl⟩ hbusy
    | cons l rest =>
      refine ⟨_, _, Or.inl rfl, ?_, rfl, by simp⟩
      simp only [Runtime.work, List.length_cons]
      omega
  | process l => exact ⟨_, _, Or.inr rfl, by simp [Runtime.work], rfl, by simp⟩
  | endHook => exact absurd rfl h.inLoop.1
  | exited => simpa [RuntimePc.finished] using h.inLoop.2
  | panicked => simpa [RuntimePc.finished] using h.inLoop.2

namespace Manager

/-- No code of the application panics, and `ActorRuntime::stop` is not
called. -/
def Managed (_ : Manager μ) (b : ManagerAction μ) : Prop := b.managed = true

instance (s : Manager μ) (b : ManagerAction μ) : Decidable (Managed s b) :=
  inferInstanceAs (Decidable (b.managed = true))

/-- The names of the actors that have a thread. -/
def startedNames (s : Manager μ) : List String :=
  (s.actors.filter fun a => a.pc.started).map Runtime.name

/-- `end` has been called and has not returned, every mailbox is empty, and
neither the main thread nor the thread of an actor can take a step. -/
structure Stuck (s : Manager μ) : Prop where
  ending : s.main.ending = true
  empty : ∀ a ∈ s.actors, a.mailbox = []
  noStep : ∀ b : ManagerAction μ,
    (b.mover = .main ∨ ∃ k, b.mover = .worker k) → s.step b = none

theorem alive_move {s s' : Manager μ} {b : ManagerAction μ}
    (hmove : Move s b s') (hok : Managed s b)
    (h : ∀ a ∈ s.actors, a.Alive) : ∀ a ∈ s'.actors, a.Alive := by
  have hset : ∀ (k : Nat) (a : Runtime μ), s.actors[k]? = some a →
      a.Alive := fun k a ha => h a (List.mem_of_getElem? ha)
  cases hmove with
  | manage name hidle =>
    refine forall_mem_snoc ?_ ?_
    · unfold unregistered
      split
      · refine forall_mem_modify h (fun a ha => ?_) _
        exact ⟨ha.running, by simp [dropRegistered, ha.holds], ha.inLoop⟩
      · exact h
    · exact ⟨rfl, by simp [managed, Runtime.new], by simp [managed, Runtime.new],
        rfl⟩
  | getRef name k hk =>
    refine forall_mem_modify h (fun a ha => ?_) k
    exact ⟨ha.running, List.mem_append_left _ ha.holds, ha.inLoop⟩
  | dropRefs k =>
    refine forall_mem_modify h (fun a ha => ?_) k
    exact ⟨ha.running, by simp [ha.holds], ha.inLoop⟩
  | spawn k todo hmain =>
    refine forall_mem_modify h (fun a ha => ?_) k
    exact ⟨ha.running, ha.holds, by simp, rfl⟩
  | sendStart k todo a hmain ha hlive | sendShutdown k todo inEnd a hmain ha hlive
  | send t k msg sender a hcan hfree ha hlive
  | fastSend t k msg sender a hcan hfree ha hlive | reply k msg a l ha hpc =>
    have hold := hset k a ha
    exact forall_mem_set h ⟨hold.running, hold.holds, hold.inLoop⟩
  | actor b k a a' events hb hfree ha hrun =>
    exact forall_mem_set h ((hset k a ha).move hrun)
  | panic k a ha hcode hfree => simp [Managed, ManagerAction.managed] at hok
  | stop k => simp [Managed, ManagerAction.managed] at hok
  | _ => exact h

/-- In a program that only uses the manager no thread of an actor ever leaves
its loop, whatever `Shutdown` messages it handles. -/
theorem alive {s : Manager μ} (h : (machine μ).Reach Managed s) :
    ∀ a ∈ s.actors, a.Alive := by
  refine invariant (I := fun s => ∀ a ∈ s.actors, a.Alive) ?_ ?_ h
  · simp [new]
  · intro s b s' _ hs hok hmove
    exact alive_move hmove hok hs

/-! ## Waiting actors are stuck -/

/-- When every actor waits in `recv` and `end` waits for one of them, nothing
can move. -/
theorem stuck_of_quiet {s : Manager μ} {k : Nat} {todo : List Nat}
    (hmain : s.main = .join (k :: todo) true) (hcallers : s.callers = [])
    (hwaiting : ∀ a ∈ s.actors, a.Waiting) (halive : ∀ a ∈ s.actors, a.Alive) :
    s.Stuck := by
  have hget : ∀ (j : Nat) (a : Runtime μ), s.actors[j]? = some a →
      a.pc = .recv ∧ a.mailbox = [] ∧ a.senders ≠ [] := by
    intro j a ha
    have hmem := List.mem_of_getElem? ha
    refine ⟨(hwaiting a hmem).1, (hwaiting a hmem).2, fun hnil => ?_⟩
    have hholds := (halive a hmem).holds
    simp [hnil] at hholds
  have hcan : ∀ t, t = .main ∨ (∃ j, t = .worker j) → s.canSend t = false := by
    rintro t (rfl | ⟨j, rfl⟩)
    · simp [canSend, hmain]
    · cases ha : s.actors[j]? with
      | none => simp [canSend, ha]
      | some a => simp [canSend, ha, (hget j a ha).1, RuntimePc.inCode]
  refine ⟨by rw [hmain]; rfl, fun a ha => (hwaiting a ha).2, fun b hb => ?_⟩
  cases b with
  | manage name => simp [step, manage, hmain]
  | getRef name => simp [step, getRef, hmain]
  | init => simp [step, init, hmain]
  | run => simp [step, run, hmain]
  | shutdown => simp [step, shutdown, hmain]
  | wait => simp [step, wait, hmain]
  | endCall => simp [step, endCall, hmain]
  | main =>
    simp only [step, mainStep, hmain]
    cases ha : s.actors[k]? with
    | none => rfl
    | some a => simp [(hget k a ha).1, RuntimePc.finished]
  | terminate t => simp [step, hcan t hb]
  | send t j msg sender => simp [step, hcan t hb]
  | fastSend t j msg sender => simp [step, hcan t hb]
  | fastReturn t => simp [step, fastReturn, hcallers]
  | dropRefs j => simp [ManagerAction.mover] at hb
  | stop j => simp [ManagerAction.mover] at hb
  | actor j =>
    simp only [step, actorStep]
    cases ha : s.actors[j]? with
    | none => rfl
    | some a =>
      obtain ⟨hpc, hbox, hsenders⟩ := hget j a ha
      simp [Runtime.runStep, hpc, hbox, hsenders, putBack]
  | reply j msg =>
    simp only [step, reply]
    cases ha : s.actors[j]? with
    | none => rfl
    | some a => simp [(hget j a ha).1]
  | codeReturn j =>
    simp only [step, codeReturn]
    cases ha : s.actors[j]? with
    | none => rfl
    | some a => simp [Runtime.codeReturn, (hget j a ha).1, putBack]
  | codePanic j =>
    simp only [step, codePanic]
    cases ha : s.actors[j]? with
    | none => rfl
    | some a =>
      simp [Runtime.codePanic, (hget j a ha).1, RuntimePc.inCode]

/-! ## Every started actor ends up waiting -/

/-- A state that a program reaches which only uses the manager, in which the
actors `names` have been made and nobody waits in a `fast_send`. -/
structure Steady (names : List String) (s : Manager μ) : Prop where
  reach : (machine μ).Reach Managed s
  free : s.callers = []
  names : s.actors.map Runtime.name = names

theorem Steady.unblocked {names : List String} {s : Manager μ}
    (h : Steady names s) (t : ThreadId) : s.blocked t = false := by
  simp [blocked, h.free]

theorem Steady.step {names : List String} {s s' : Manager μ}
    {b : ManagerAction μ} (h : Steady names s) (hb : b.managed = true)
    (hstep : s.step b = some s') (hcallers : s'.callers = s.callers)
    (hnames : s'.actors.map Runtime.name = s.actors.map Runtime.name) :
    Steady names s' :=
  ⟨h.reach.step hb hstep, hcallers.trans h.free, hnames.trans h.names⟩

/-- The threads of the actors can run until all of them wait. -/
theorem exists_waiting {names : List String} {s : Manager μ}
    (h : Steady names s) (hstarted : ∀ a ∈ s.actors, a.pc ≠ .parked) :
    ∃ s' : Manager μ, Steady names s' ∧ s'.main = s.main ∧
      ∀ a ∈ s'.actors, a.Waiting := by
  -- By induction on the work that is left.
  generalize hn : (s.actors.map Runtime.work).sum = n
  induction n using Nat.strong_induction_on generalizing s with
  | _ n ih =>
    by_cases hall : ∀ a ∈ s.actors, a.Waiting
    · exact ⟨s, h, rfl, hall⟩
    · simp only [not_forall] at hall
      obtain ⟨a, hmem, hbusy⟩ := hall
      obtain ⟨k, ha⟩ := List.mem_iff_getElem?.mp hmem
      obtain ⟨a', events, hrun, hlt, hname, hpc⟩ :=
        (alive h.reach a hmem).exists_work_lt k (hstarted a hmem) hbusy
      let s1 : Manager μ := { s with
        actors := s.actors.set k a'
        history := s.history ++ events.map (Prod.mk k) }
      obtain ⟨b, hb, hstep⟩ : ∃ b : ManagerAction μ,
          b.managed = true ∧ s.step b = some s1 := by
        rcases hrun with hrun | hrun
        · exact ⟨.actor k, rfl, by
            simp [Manager.step, actorStep, ha, hrun, putBack, s1]⟩
        · exact ⟨.codeReturn k, rfl, by
            simp [Manager.step, codeReturn, ha, hrun, putBack, h.unblocked, s1]⟩
      have h1 : Steady names s1 :=
        h.step hb hstep rfl (map_set_of_eq Runtime.name ha hname)
      have hless : (s1.actors.map Runtime.work).sum < n := by
        obtain ⟨rest, hsum, hset⟩ := exists_sum_map_set Runtime.work ha
        rw [hset a', ← hn, hsum]
        omega
      exact ih _ hless (s := s1) h1 (forall_mem_set hstarted hpc) rfl

/-! ## The calls of the main thread -/

/-- The main thread can send to an actor that has been made. -/
theorem exists_post (s : Manager μ) {k : Nat} (hk : k < s.pcs.length)
    (msg : Message μ) :
    ∃ actors sent, s.post .main k msg none false = some { s with actors, sent } ∧
      actors.map Runtime.name = s.actors.map Runtime.name := by
  have hlen : k < s.actors.length := by simpa [pcs] using hk
  unfold post
  rw [List.getElem?_eq_getElem hlen]
  dsimp only
  split
  · exact ⟨s.actors, s.sent, rfl, rfl⟩
  · refine ⟨_, _, rfl, ?_⟩
    exact map_set_of_eq Runtime.name (List.getElem?_eq_getElem hlen) rfl

variable (μ) in
theorem exists_managed (names : List String) :
    ∃ s : Manager μ, Steady names s ∧ s.main = .idle ∧ s.threads = [] ∧
      s.runtimes.length = names.length := by
  induction names using List.reverseRecOn with
  | nil => exact ⟨new, ⟨.start rfl, rfl, rfl⟩, rfl, rfl, rfl⟩
  | append_singleton names name ih =>
    obtain ⟨s, h, hidle, hthreads, hlen⟩ := ih
    obtain ⟨s', hstep⟩ : ∃ s', s.step (.manage name) = some s' := by
      simp [Manager.step, manage, hidle, h.unblocked]
    have hok : Managed s (.manage name) := rfl
    have hreach := h.reach.step hok hstep
    cases move_of_step hstep with
    | manage _ _ =>
      refine ⟨_, ⟨hreach, h.free, ?_⟩, hidle, hthreads, ?_⟩
      · rw [List.map_append, map_unregistered Runtime.name fun _ => rfl, h.names]
        rfl
      · simp [hlen]
    | refused _ _ _ hb => simp at hb
    | actor _ _ _ _ _ hb => simp at hb

/-- `init` runs to its end. -/
theorem exists_inited {names : List String} (todo : List Nat) :
    ∀ {s : Manager μ}, Steady names s → s.main = .initSend todo →
      ∃ s' : Manager μ, Steady names s' ∧ s'.main = .idle ∧
        s'.runtimes = s.runtimes ∧ s'.threads = s.threads ++ todo := by
  induction todo with
  | nil =>
    intro s h hmain
    have hstep : s.step .main = some { s with main := .idle } := by
      simp [Manager.step, mainStep, hmain]
    exact ⟨_, h.step rfl hstep rfl rfl, rfl, rfl, by simp⟩
  | cons k todo ih =>
    intro s h hmain
    have hk : k < s.pcs.length :=
      (owned h.reach).bound k (by simp [hmain, ManagerPc.starting])
    obtain ⟨actors, sent, hpost, hnames⟩ := s.exists_post hk .start
    have hsend : s.step .main =
        some { s with actors, sent, main := .initSpawn k todo } := by
      simp [Manager.step, mainStep, hmain, hpost]
    have h1 := h.step rfl hsend rfl hnames
    have h2 := h1.step (b := .main) rfl rfl rfl
      (map_modify_of_eq Runtime.name (fun a => by rfl) k)
    obtain ⟨s3, h3, hidle, hruntimes, hthreads⟩ := ih h2 rfl
    exact ⟨s3, h3, hidle, hruntimes, by rw [hthreads, List.append_assoc]; rfl⟩

/-- `end` gets to its first `join`. -/
theorem exists_joining {names : List String} (todo : List Nat) :
    ∀ {s : Manager μ}, Steady names s → s.main = .shutdownSend todo true →
      ∃ s' : Manager μ, Steady names s' ∧ s'.main = .join s.threads true ∧
        s'.runtimes = s.runtimes := by
  induction todo with
  | nil =>
    intro s h hmain
    have hstep : s.step .main =
        some { s with threads := [], main := .join s.threads true } := by
      simp [Manager.step, mainStep, hmain]
    exact ⟨_, h.step rfl hstep rfl rfl, rfl, rfl⟩
  | cons k todo ih =>
    intro s h hmain
    have hk : k < s.pcs.length :=
      (owned h.reach).refs k (by simp [hmain, ManagerPc.stopping])
    obtain ⟨actors, sent, hpost, hnames⟩ := s.exists_post hk .shutdown
    have hsend : s.step .main =
        some { s with actors, sent, main := .shutdownSend todo true } := by
      simp [Manager.step, mainStep, hmain, hpost]
    have h1 := h.step rfl hsend rfl hnames
    obtain ⟨s2, h2, hjoin, hruntimes⟩ := ih h1 rfl
    exact ⟨s2, h2, hjoin, hruntimes⟩

/-! ## The exact line -/

/-- When the manager has no runtime left, every actor has a thread. -/
theorem started_of_owned {s : Manager μ} (h : s.Owned)
    (hnil : s.runtimes ++ s.main.starting = []) :
    ∀ a ∈ s.actors, a.pc ≠ .parked := by
  intro a ha heq
  obtain ⟨k, hk⟩ := List.mem_iff_getElem?.mp ha
  have hpc : s.pcs[k]? = some .parked := by simp [pcs, hk, heq]
  have hmem := (h.parked k .parked hpc).mp rfl
  simp [hnil] at hmem

theorem parked_of_startedNames {s : Manager μ} (h : s.startedNames = []) :
    ∀ a ∈ s.actors, a.pc = .parked := by
  intro a ha
  rw [startedNames, List.map_eq_nil_iff, List.filter_eq_nil_iff] at h
  have hpc := h a ha
  rwa [RuntimePc.started_iff, not_not] at hpc

theorem startedNames_eq {s : Manager μ}
    (h : ∀ a ∈ s.actors, a.pc ≠ .parked) :
    s.startedNames = s.actors.map Runtime.name := by
  have hall : ∀ a ∈ s.actors, a.pc.started = true :=
    fun a ha => RuntimePc.started_iff.mpr (h a ha)
  rw [startedNames, List.filter_eq_self.mpr hall]

variable (μ) in
/-- For every list of actors that is not empty there is a run that gets
stuck. -/
theorem exists_stuck {names : List String} (hne : names ≠ []) :
    ∃ s : Manager μ, (machine μ).Reach Managed s ∧ s.callers = [] ∧
      s.startedNames = names ∧ s.Stuck := by
  obtain ⟨s0, h0, hidle0, hthreads0, hlen⟩ := exists_managed μ names
  have hinit : s0.step .init = some { s0 with
      runtimes := [], main := .initSend s0.runtimes
      calls := s0.calls ++ [.init] } := by
    simp [Manager.step, init, hidle0, h0.unblocked]
  obtain ⟨s1, h1, hidle1, hruntimes1, hthreads1⟩ :=
    exists_inited _ (h0.step rfl hinit rfl rfl) rfl
  have hend : s1.step .endCall = some { s1 with
      main := .shutdownSend s1.actorRefs true
      calls := s1.calls ++ [.endCall] } := by
    simp [Manager.step, endCall, hidle1, h1.unblocked]
  obtain ⟨s2, h2, hmain2, hruntimes2⟩ :=
    exists_joining _ (h1.step rfl hend rfl rfl) rfl
  have hstarted : ∀ a ∈ s2.actors, a.pc ≠ .parked := by
    refine started_of_owned (owned h2.reach) ?_
    rw [hruntimes2, hmain2]
    exact List.append_eq_nil_iff.mpr ⟨hruntimes1, rfl⟩
  obtain ⟨s3, h3, hmain3, hwaiting⟩ := exists_waiting h2 hstarted
  have hthreads : s1.threads = s0.runtimes := by simpa [hthreads0] using hthreads1
  rw [hmain2] at hmain3
  cases htodo : s1.threads with
  | nil =>
    rw [htodo] at hthreads
    rw [← hthreads] at hlen
    exact absurd (List.length_eq_zero_iff.mp hlen.symm) hne
  | cons k todo =>
    have hmain : s3.main = .join (k :: todo) true := by
      rw [hmain3]
      exact congrArg (ManagerPc.join · true) htodo
    refine ⟨s3, h3.reach, h3.free, ?_,
      stuck_of_quiet hmain h3.free hwaiting (alive h3.reach)⟩
    rw [startedNames_eq, h3.names]
    intro a ha
    simp [(hwaiting a ha).1]

/-- Without a thread of an actor the main thread can always go on. -/
theorem not_stuck {s : Manager μ} (h : s.Owned) (hnone : s.startedNames = []) :
    ¬ s.Stuck := by
  rintro ⟨hending, -, hno⟩
  have hmain : s.mainStep = none := hno .main (Or.inl rfl)
  have hpost : ∀ {k : Nat} (msg : Message μ), k < s.pcs.length →
      s.post .main k msg none false ≠ none := by
    intro k msg hk
    obtain ⟨actors, sent, hpost, -⟩ := s.exists_post hk msg
    simp [hpost]
  unfold mainStep at hmain
  split at hmain
  case h_6 k todo inEnd hpc =>
    have hk := h.refs k (by simp [hpc, ManagerPc.stopping])
    exact hpost _ hk (by simpa using hmain)
  case h_9 k todo inEnd hpc =>
    have hmem : k ∈ s.threads ++ s.main.joining := by simp [hpc, ManagerPc.joining]
    have hk := h.bound k (List.mem_append_right _ hmem)
    have hlen : k < s.actors.length := by simpa [pcs] using hk
    have hparked : s.pcs[k]? = some .parked := by
      simp [pcs, hlen, parked_of_startedNames hnone]
    have hin := (h.parked k .parked hparked).mp rfl
    exact List.disjoint_of_nodup_append h.distinct hin hmem
  all_goals simp_all [ManagerPc.ending]

/-- `end` cannot get stuck in a program that only uses the manager, whose
handlers return, if and only if no actor has been started. -/
theorem end_never_stuck_iff (names : List String) :
    (∀ s : Manager μ, (machine μ).Reach Managed s → s.callers = [] →
      s.startedNames = names → ¬ s.Stuck) ↔ names = [] := by
  constructor
  · intro h
    by_contra hne
    obtain ⟨s, hreach, hfree, hnames, hstuck⟩ := exists_stuck μ hne
    exact h s hreach hfree hnames hstuck
  · rintro rfl s hreach - hnames
    exact not_stuck (owned hreach) hnames

/-- One actor that is registered, started and shut down: it handles `Start`
and `Shutdown` and then waits for a third message, and `end` waits for it. -/
theorem end_stuck_one : ¬ ∀ s : Manager Nat, (machine Nat).Reach Managed s →
    s.callers = [] → s.startedNames = ["a"] → ¬ s.Stuck := by
  have hrun := reach_after Managed
    ([.manage "a", .init, .main, .main, .main, .endCall, .main, .main,
      .actor 0, .codeReturn 0, .actor 0, .actor 0, .codeReturn 0, .actor 0,
      .actor 0, .codeReturn 0, .actor 0] : List (ManagerAction Nat)) (by decide)
  intro h
  refine h _ hrun (by decide) (by decide) ?_
  exact @stuck_of_quiet _ _ 0 [] (by decide) (by decide) (by decide) (alive hrun)

end Manager

end Actors
