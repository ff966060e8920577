import Actors.App.Work

/-!
# When a program comes to rest

A program is at rest when no thread can take a step, apart from the polls of
`run`.  For the programs of `Actors.App.Program`, whose handlers send, reply and
terminate and do not panic, `at_rest_iff` says which states these are: every actor that
was started waits for its next message and has handled all its letters, and the main
function has ended, or polls a flag that is not set, or joins a thread.  (With
`fast_send` there are other ways to get stuck, see `Actors.Manager.Deadlock`.)

In a state at rest the equations of the net hold without anything under way: what an
actor has handled of another one's messages is all that the code of the other
sends to it (`at_rest_equations`).

A reference names an actor that is there.  `Scoped` says so for a program: the
code of an actor sends to itself and to actors made before it, and the main
function sends to actors that it has made.
-/

namespace Actors

open Concur

variable {μ σ : Type}

/-! ## References -/

/-- The command sends to one of the first `n` actors. -/
def Command.Within (n : Nat) : Command μ → Prop
  | .send j _ _ => j < n
  | .reply _ | .terminate => True

/-- The code sends to the first `n` actors only, whatever it has handled. -/
def ActorCode.Within (n : Nat) (code : ActorCode μ σ) : Prop :=
  ∀ ms msg, ∀ e ∈ (code.process (code.after ms) msg).2, e.Within n

/-- The references in the program are to actors that are there.  `n` actors were
made before. -/
def Scoped : Nat → List (MainCall μ σ) → Prop
  | _, [] => True
  | n, .manage _ code :: script => code.Within (n + 1) ∧ Scoped (n + 1) script
  | n, .send k _ :: script => k < n ∧ Scoped n script
  | n, .init :: script | n, .run :: script | n, .shutdown :: script
  | n, .wait :: script | n, .endCall :: script => Scoped n script

namespace Manager

/-- In a plain program nobody waits for a reply. -/
theorem callers_eq_nil {s : Manager μ} (h : (machine μ).Reach Plain s) :
    s.callers = [] := by
  refine invariant (I := fun s => s.callers = []) rfl ?_ h
  intro s b s' _ hs hok hmove
  cases hmove with
  | fastSend => simp [Plain, ManagerAction.plain] at hok
  | fastReturn | fastReturnNone => simp [hs]
  | _ => exact hs

/-- In a plain program a thread that runs code of the application can send to
every actor. -/
theorem exists_send {s : Manager μ} (hcallers : s.callers = [])
    (hknown : ∀ a ∈ s.actors, Holder.application ∈ a.senders) {t : ThreadId}
    (hcan : s.canSend t = true) {k : Nat} (hk : k < s.actors.length) (msg : Message μ)
    (sender : Option ActorRef) : ∃ s', s.step (.send t k msg sender) = some s' := by
  have ha := List.getElem?_eq_getElem hk
  have hreach : s.canReach t k = true := by
    have hsenders := hknown _ (List.mem_of_getElem? ha)
    simp [canReach, ha, hsenders]
  have hfree : s.blocked t = false := by simp [blocked, hcallers]
  simp only [step, hcan, hfree, hreach, post, ha, Bool.not_false, Bool.and_self,
    if_true]
  split
  · exact ⟨_, rfl⟩
  · exact ⟨_, rfl⟩

/-- The commands of a handler can be carried out. -/
theorem exists_command {s : Manager μ} (hcallers : s.callers = [])
    (hknown : ∀ a ∈ s.actors, Holder.application ∈ a.senders) (hasync : s.Async)
    {k : Nat} {a : Runtime μ} (ha : s.actors[k]? = some a) {l : Letter μ}
    (hpc : a.pc = .process l)
    (hsender : ∀ j, a.context.sender.bind ActorRef.mailbox = some j → j < s.actors.length)
    {e : Command μ} (hwithin : e.Within s.actors.length) :
    ∃ s', Machine.exec Manager.step s (e.labels k a.context) = some s' := by
  have hcan : s.canSend (.worker k) = true := by
    simp [canSend, ha, hpc, RuntimePc.inCode]
  have hfree : s.blocked (.worker k) = false := by simp [blocked, hcallers]
  cases e with
  | send j msg signed =>
    obtain ⟨s', hs'⟩ := exists_send hcallers hknown hcan hwithin msg
      (if signed then a.context.selfRef else none)
    exact ⟨s', by simp [Command.labels, Machine.exec, hs']⟩
  | terminate =>
    simp [Command.labels, Machine.exec, step, hcan, hfree]
  | reply msg =>
    obtain ⟨hsame, hmailbox, hdropped⟩ :=
      reply_of_async (hasync.contexts a (List.mem_of_getElem? ha))
    have hself : s.actors.set k a.reply.2 = s.actors := by
      rw [hsame, ← (List.getElem?_eq_some_iff.mp ha).2]
      exact List.set_getElem_self _
    have hreply : s.step (.reply k msg) =
        some { s with ledger := s.ledger.enter k l msg a.reply.1 } := by
      simp [step, reply, ha, hpc, hfree, hself]
    cases hs : a.context.sender with
    | none =>
      simp [Command.labels, hdropped hs, Machine.exec, hreply]
    | some r =>
      have hroute := hmailbox r hs
      cases r with
      | localRef r =>
        have hlt : r.sender < s.actors.length := hsender _ (by simp [hs, ActorRef.mailbox])
        obtain ⟨s', hs'⟩ := exists_send (t := .worker k)
          (s := { s with ledger := s.ledger.enter k l msg a.reply.1 }) hcallers hknown
          hcan hlt msg a.context.selfRef
        exact ⟨s', by simp [Command.labels, hroute, Machine.exec, hreply, hs']⟩
      | remoteRef r | cppRef r =>
        simp [Command.labels, hroute, Machine.exec, hreply]

/-- Only a signed send carries a reference. -/
theorem sent_unsigned {s s' : Manager μ} {b : ManagerAction μ} (hok : b.plain = true)
    (hb : ∀ t k msg sender, b = .send t k msg sender → sender = none)
    (hstep : s.step b = some s') :
    s'.sent = s.sent ∨ ∃ l, s'.sent = s.sent ++ [l] ∧ l.mail.sender = none := by
  cases move_of_step hstep with
  | sendStart | sendShutdown => exact Or.inr ⟨_, rfl, rfl⟩
  | send t k msg sender a =>
    obtain rfl := hb t k msg sender rfl
    exact Or.inr ⟨_, rfl, rfl⟩
  | fastSend => simp [ManagerAction.plain] at hok
  | _ => exact Or.inl rfl

end Manager

/-- An actor signs with its own reference. -/
theorem Command.sender_of_output {e : Command μ} {k j : Nat} {sender : Option Nat}
    {mail : Mail μ} (h : e.output k sender = .send j mail) {i : Nat}
    (hi : mail.sender = some i) : i = k := by
  cases e with
  | send j' msg signed =>
    simp only [output, Output.send.injEq] at h
    rw [← h.2] at hi
    cases signed <;> simp_all
  | reply msg =>
    cases sender with
    | none => simp [output] at h
    | some j' =>
      simp only [output, Output.send.injEq] at h
      rw [← h.2] at hi
      simpa using hi.symm
  | terminate => simp [output] at h

namespace App

variable {script : List (MainCall μ σ)}

/-- What a program can refer to is there. -/
structure Addressed (s : App μ σ) : Prop where
  script : Scoped s.cells.length s.script
  code : ∀ (k : Nat) (c : ActorState μ σ), s.cells[k]? = some c →
    c.code.Within (k + 1)
  todo : ∀ (k : Nat) (c : ActorState μ σ), s.cells[k]? = some c →
    ∀ e ∈ c.todo, e.Within (k + 1)

theorem addressed {s : App μ σ} (hscoped : Scoped 0 script)
    (h : (machine script).Reachable s) : s.Addressed := by
  refine invariant ?_ ?_ h
  · exact ⟨hscoped, by simp [start], by simp [start]⟩
  · intro s t s' hreach hs hmove
    cases hmove with
    | call call rest m hidle hscript hm =>
      have hcalls := hs.script
      rw [hscript] at hcalls
      cases call with
      | manage name code =>
        obtain ⟨hcode, hrest⟩ := hcalls
        refine ⟨?_, ?_, ?_⟩
        · simpa [MainCall.made] using hrest
        · exact forall_getElem?_snoc hs.code hcode
        · exact forall_getElem?_snoc hs.todo (by simp [ActorState.new])
      | send k m =>
        have hrest : Scoped s.cells.length rest := hcalls.2
        exact ⟨by simpa [MainCall.made] using hrest,
          by simpa [MainCall.made] using hs.code, by simpa [MainCall.made] using hs.todo⟩
      | init | run | shutdown | wait | endCall =>
        have hrest : Scoped s.cells.length rest := hcalls
        exact ⟨by simpa [MainCall.made] using hrest,
          by simpa [MainCall.made] using hs.code, by simpa [MainCall.made] using hs.todo⟩
    | command k a c l e todo m ha hc hpc htodo hm =>
      refine ⟨?_, forall_getElem?_set hs.code (hs.code k c hc), ?_⟩
      · simpa using hs.script
      · refine forall_getElem?_set hs.todo fun e' he' => ?_
        exact hs.todo k c hc e' (htodo ▸ List.mem_cons_of_mem e he')
    | recv k a c l m ha hc htakes hm =>
      refine ⟨?_, forall_getElem?_set hs.code (hs.code k c hc), ?_⟩
      · simpa using hs.script
      · refine forall_getElem?_set hs.todo fun e he => ?_
        have hin : e ∈ (c.code.process c.state l.envelope.msg).2 := he
        rw [state_eq hreach ha hc] at hin
        exact hs.code k c hc _ _ e hin
    | main | codeReturn | actor => exact { hs with }

/-- A letter carries a reference to an actor, if any. -/
theorem senders {s : App μ σ} (h : (machine script).Reachable s) :
    ∀ l ∈ s.manager.sent, ∀ j, l.mail.sender = some j →
      j < s.manager.actors.length := by
  refine invariant (I := fun s => ∀ l ∈ s.manager.sent, ∀ j, l.mail.sender = some j →
      j < s.manager.actors.length) (by simp [start, Manager.new]) ?_ h
  intro s t s' hreach hs hmove
  have hstep : ∀ {m : Manager μ} {b : ManagerAction μ}, b.plain = true →
      (∀ t k msg sender, b = .send t k msg sender → sender = none) →
      s.manager.step b = some m → ∀ l ∈ m.sent, ∀ j, l.mail.sender = some j →
        j < m.actors.length := by
    intro m b hok hb hm
    have hlen := Manager.length_le_of_step hm
    have hold : ∀ l ∈ s.manager.sent, ∀ j, l.mail.sender = some j →
        j < m.actors.length := fun l hl j hj => Nat.lt_of_lt_of_le (hs l hl j hj) hlen
    rcases Manager.sent_unsigned hok hb hm with hsame | ⟨l, hsent, hnone⟩
    · rw [hsame]
      exact hold
    · rw [hsent]
      exact forall_mem_snoc hold fun j hj => by simp [hnone] at hj
  cases hmove with
  | call call rest m hidle hscript hm =>
    refine hstep (plain_label call) (fun t k msg sender hb => ?_) hm
    cases call with
    | send k' m' =>
      simp only [MainCall.label, ManagerAction.send.injEq] at hb
      exact hb.2.2.2.symm
    | manage | init | run | shutdown | wait | endCall => simp [MainCall.label] at hb
  | main m hbusy hm => exact hstep rfl (by simp) hm
  | codeReturn k a c m ha hc hdone hm => exact hstep rfl (by simp) hm
  | recv k a c l m ha hc htakes hm => exact hstep rfl (by simp) hm
  | actor k a c m ha hc htakes hm => exact hstep rfl (by simp) hm
  | command k a c l e todo m ha hc hpc htodo hm =>
    obtain ⟨hpcs, -, hcarried⟩ := Manager.exec_command (Manager.alive (managed hreach))
      (Manager.async (plain hreach)) ha
      ((Manager.answering (plain hreach)).selfRefs k a ha) hm
    have hlen : m.actors.length = s.manager.actors.length := by
      simpa [Manager.pcs] using congrArg List.length hpcs
    have hk := (List.getElem?_eq_some_iff.mp ha).1
    simp only [hlen]
    generalize hout : e.output k (a.context.sender.bind ActorRef.mailbox) = out
      at hcarried
    cases hcarried with
    | send j mail _ l' hj hnone harrival hfaces hsent hflag =>
      rw [hsent]
      refine forall_mem_snoc hs fun i hi => ?_
      have hmail : l'.mail = mail := congrArg Arrival.msg harrival
      rw [hmail] at hi
      rwa [Command.sender_of_output hout hi]
    | dropped _ hmarks hfaces hsent | terminated _ hmarks hfaces hsent =>
      rw [hsent]
      exact hs

/-- The sender in the context of a handler is there. -/
theorem sender_lt {s : App μ σ} (h : (machine script).Reachable s) {k : Nat}
    {a : Runtime μ} (ha : s.manager.actors[k]? = some a) {l : Letter μ}
    (hpc : a.pc = .process l) {j : Nat}
    (hj : a.context.sender.bind ActorRef.mailbox = some j) :
    j < s.manager.actors.length := by
  have hbox := (Manager.mailed (plain h)).boxes k a ha
  have hsent := (hbox.mine l (hbox.handed_prefix.subset (hbox.current l hpc))).2
  have hsender := ((Manager.answering (plain h)).busy k a ha l hpc).sender
  rw [hsender] at hj
  exact senders h l hsent j hj

/-- The thread of an actor can go on, unless the actor has no thread or waits for
a message. -/
theorem exists_step {s : App μ σ} (hscoped : Scoped 0 script)
    (h : (machine script).Reachable s) {k : Nat} {a : Runtime μ}
    (ha : s.manager.actors[k]? = some a) (hpc : a.pc ≠ .parked) (hbusy : ¬ a.Waiting) :
    ∃ s', s.step (.worker k) = some s' := by
  have halive := Manager.alive (managed h) a (List.mem_of_getElem? ha)
  have hcallers := Manager.callers_eq_nil (plain h)
  have hfree : s.manager.blocked (.worker k) = false := by
    simp [Manager.blocked, hcallers]
  have hk := (List.getElem?_eq_some_iff.mp ha).1
  obtain ⟨c, hc⟩ : ∃ c, s.cells[k]? = some c :=
    ⟨_, List.getElem?_eq_getElem ((tidy h).length ▸ hk)⟩
  have hactor : a.runStep k ≠ none → ∃ m, s.manager.step (.actor k) = some m := by
    intro hrun
    obtain ⟨p, hp⟩ := Option.ne_none_iff_exists'.mp hrun
    simp [Manager.step, Manager.actorStep, ha, hp, Manager.putBack]
  have hreturn : a.codeReturn ≠ none → ∃ m, s.manager.step (.codeReturn k) = some m := by
    intro hrun
    obtain ⟨p, hp⟩ := Option.ne_none_iff_exists'.mp hrun
    simp [Manager.step, Manager.codeReturn, ha, hp, hfree, Manager.putBack]
  simp only [step, actorStep, ha, hc]
  cases hcase : a.pc with
  | parked => exact absurd hcase hpc
  | spawned =>
    obtain ⟨m, hm⟩ := hactor (by simp [Runtime.runStep, hcase])
    simp [hm]
  | initHook =>
    obtain ⟨m, hm⟩ := hreturn (by simp [Runtime.codeReturn, hcase])
    simp [hm]
  | check =>
    obtain ⟨m, hm⟩ := hactor (by simp [Runtime.runStep, hcase, halive.running])
    simp [hm]
  | recv =>
    cases hbox : a.mailbox with
    | nil => exact absurd ⟨hcase, hbox⟩ hbusy
    | cons l rest =>
      obtain ⟨m, hm⟩ := hactor (by simp [Runtime.runStep, hcase, hbox])
      simp [hm]
  | process l =>
    cases htodo : c.todo with
    | nil =>
      obtain ⟨m, hm⟩ := hreturn (by simp [Runtime.codeReturn, hcase])
      simp [hm]
    | cons e todo =>
      have haddressed := addressed hscoped h
      have hwithin : e.Within s.manager.actors.length := by
        have hin := haddressed.todo k c hc e (by simp [htodo])
        cases e with
        | send j msg signed => exact Nat.lt_of_lt_of_le hin hk
        | reply | terminate => trivial
      obtain ⟨m, hm⟩ := Manager.exists_command hcallers (Manager.known (plain h))
        (Manager.async (plain h)) ha hcase (fun j hj => sender_lt h ha hcase hj) hwithin
      simp [hm]
  | endHook => exact absurd hcase halive.inLoop.1
  | exited | panicked =>
    have hlive := halive.inLoop.2
    simp [hcase, RuntimePc.finished] at hlive

/-- The main thread has nothing to do: its function has ended, or it polls a flag
that is not set, or it joins a thread. -/
inductive Idle (s : App μ σ) : Prop where
  | ended (hmain : s.manager.main = .idle) (hscript : s.script = [])
  | polls (hmain : s.manager.main = .running) (hflag : s.manager.terminateFlag = false)
  | joins (k : Nat) (todo : List Nat) (inEnd : Bool)
      (hmain : s.manager.main = .join (k :: todo) inEnd)

/-- A call of the main function can begin. -/
theorem exists_call {s : App μ σ} (hscoped : Scoped 0 script)
    (h : (machine script).Reachable s) {call : MainCall μ σ}
    {rest : List (MainCall μ σ)} (hidle : s.manager.main = .idle)
    (hscript : s.script = call :: rest) : ∃ m, s.manager.step call.label = some m := by
  have hcallers := Manager.callers_eq_nil (plain h)
  have hfree : s.manager.blocked .main = false := by simp [Manager.blocked, hcallers]
  cases call with
  | send k m =>
    have hk : k < s.manager.actors.length := by
      have hcalls := (addressed hscoped h).script
      rw [hscript, (tidy h).length] at hcalls
      exact hcalls.1
    exact Manager.exists_send hcallers (Manager.known (plain h))
      (by simp [Manager.canSend, hidle]) hk _ _
  | manage name code => simp [MainCall.label, Manager.step, Manager.manage, hidle, hfree]
  | init => simp [MainCall.label, Manager.step, Manager.init, hidle, hfree]
  | run => simp [MainCall.label, Manager.step, Manager.run, hidle, hfree]
  | shutdown => simp [MainCall.label, Manager.step, Manager.shutdown, hidle, hfree]
  | wait => simp [MainCall.label, Manager.step, Manager.wait, hidle, hfree]
  | endCall => simp [MainCall.label, Manager.step, Manager.endCall, hidle, hfree]

/-- The main thread can go on, unless it is idle. -/
theorem exists_main {s : App μ σ} (hscoped : Scoped 0 script)
    (h : (machine script).Reachable s) (hbusy : ¬ s.Idle) :
    s.polls .main = false ∧ ∃ s', s.step .main = some s' := by
  have howned := Manager.owned (plain h)
  have hpost : ∀ {k : Nat} (msg : Message μ), k < s.manager.pcs.length →
      ∃ m, s.manager.post .main k msg none false = some m := by
    intro k msg hk
    obtain ⟨actors, sent, hm, -⟩ := s.manager.exists_post hk msg
    exact ⟨_, hm⟩
  have hpolls : s.polls .main = false := by
    by_contra hpolls
    simp only [polls, Manager.sleeps, decide_true, Bool.true_and, Bool.not_eq_false,
      Bool.and_eq_true, decide_eq_true_eq, Bool.not_eq_true'] at hpolls
    exact hbusy (.polls hpolls.1 hpolls.2)
  refine ⟨hpolls, ?_⟩
  cases hmain : s.manager.main with
  | idle =>
    cases hscript : s.script with
    | nil => exact absurd (.ended hmain hscript) hbusy
    | cons call rest =>
      obtain ⟨m, hm⟩ := exists_call hscoped h hmain hscript
      simp [step, mainStep, hmain, hscript, hm]
  | initSend todo =>
    cases todo with
    | nil => simp [step, mainStep, hmain, Manager.step, Manager.mainStep]
    | cons k todo =>
      obtain ⟨m, hm⟩ := hpost .start
        (howned.bound k (by simp [hmain, ManagerPc.starting]))
      simp [step, mainStep, hmain, Manager.step, Manager.mainStep, hm]
  | initSpawn k todo => simp [step, mainStep, hmain, Manager.step, Manager.mainStep]
  | running =>
    simp only [step, mainStep, hmain, Manager.step, Manager.mainStep]
    split <;> simp
  | shutdownSend todo inEnd =>
    cases todo with
    | nil => cases inEnd <;> simp [step, mainStep, hmain, Manager.step, Manager.mainStep]
    | cons k todo =>
      obtain ⟨m, hm⟩ := hpost .shutdown
        (howned.refs k (by simp [hmain, ManagerPc.stopping]))
      simp [step, mainStep, hmain, Manager.step, Manager.mainStep, hm]
  | join todo inEnd =>
    cases todo with
    | nil => simp [step, mainStep, hmain, Manager.step, Manager.mainStep]
    | cons k todo => exact absurd (.joins k todo inEnd hmain) hbusy

/-- No thread can take a step, apart from the polls of `run`. -/
def AtRest (s : App μ σ) : Prop := ∀ t, s.polls t = false → s.step t = none

theorem AtRest.idle {s : App μ σ} (hrest : s.AtRest) (hscoped : Scoped 0 script)
    (h : (machine script).Reachable s) : s.Idle := by
  by_contra hbusy
  obtain ⟨hpolls, s', hs'⟩ := exists_main hscoped h hbusy
  rw [hrest .main hpolls] at hs'
  simp at hs'

theorem AtRest.waiting {s : App μ σ} (hrest : s.AtRest) (hscoped : Scoped 0 script)
    (h : (machine script).Reachable s) {k : Nat} {a : Runtime μ}
    (ha : s.manager.actors[k]? = some a) (hpc : a.pc ≠ .parked) : a.Waiting := by
  by_contra hbusy
  obtain ⟨s', hs'⟩ := exists_step hscoped h ha hpc hbusy
  rw [hrest (.worker k) rfl] at hs'
  simp at hs'

/-- An idle main thread can only poll. -/
theorem Idle.step_eq_none {s : App μ σ} (hidle : s.Idle)
    (h : (machine script).Reachable s) (hpolls : s.polls .main = false) :
    s.step .main = none := by
  cases hidle with
  | ended hmain hscript => simp [step, mainStep, hmain, hscript]
  | polls hmain hflag =>
    rw [App.polls, Manager.sleeps, hmain, hflag] at hpolls
    simp at hpolls
  | joins k todo inEnd hmain =>
    simp only [step, mainStep, hmain, Manager.step, Manager.mainStep]
    cases ha : s.manager.actors[k]? with
    | none => rfl
    | some a =>
      have hlive := (Manager.alive (managed h) a (List.mem_of_getElem? ha)).inLoop.2
      simp [hlive]

/-- An actor without a thread, or one that waits, does nothing. -/
theorem step_eq_none {s : App μ σ} (h : (machine script).Reachable s) {k : Nat}
    {a : Runtime μ} (ha : s.manager.actors[k]? = some a)
    (hquiet : a.pc = .parked ∨ a.Waiting) : s.step (.worker k) = none := by
  have hk := (List.getElem?_eq_some_iff.mp ha).1
  have hc := List.getElem?_eq_getElem ((tidy h).length ▸ hk)
  have hholds := (Manager.alive (managed h) a (List.mem_of_getElem? ha)).holds
  have hsenders : a.senders ≠ [] := List.ne_nil_of_mem hholds
  simp only [step, actorStep, ha, hc]
  rcases hquiet with hpc | ⟨hpc, hbox⟩
  · simp [hpc, Manager.step, Manager.actorStep, ha, Runtime.runStep, Manager.putBack]
  · simp [hpc, hbox, Manager.step, Manager.actorStep, ha, Runtime.runStep,
      Manager.putBack, hsenders]

/-- A program of actors that send, reply and terminate is at rest exactly when the
main thread is idle and every actor that has a thread waits for a message with nothing in
its mailbox. -/
theorem at_rest_iff (hscoped : Scoped 0 script) {s : App μ σ}
    (h : (machine script).Reachable s) :
    s.AtRest ↔ s.Idle ∧ ∀ a ∈ s.manager.actors, a.pc = .parked ∨ a.Waiting := by
  constructor
  · intro hrest
    refine ⟨hrest.idle hscoped h, fun a ha => ?_⟩
    obtain ⟨k, hk⟩ := List.mem_iff_getElem?.mp ha
    by_cases hpc : a.pc = .parked
    · exact Or.inl hpc
    · exact Or.inr (hrest.waiting hscoped h hk hpc)
  · rintro ⟨hidle, hquiet⟩ t hpolls
    cases t with
    | main => exact hidle.step_eq_none h hpolls
    | worker k =>
      cases ha : s.manager.actors[k]? with
      | none => simp [step, actorStep, ha]
      | some a => exact step_eq_none h ha (hquiet a (List.mem_of_getElem? ha))
    | client k => rfl

theorem scoped_self : Scoped 0 [.manage "a" selfSender, .init, .run] := by
  refine ⟨fun ms msg e he => ?_, trivial⟩
  cases msg with
  | start =>
    obtain rfl := List.mem_singleton.mp he
    exact Nat.zero_lt_one
  | user | shutdown | timeout | reject => cases he

/-- The actor that sends to itself, when its message is in its mailbox. -/
theorem at_rest_iff_self : ∃ s : App Nat Nat,
    (s.manager.actors.map fun a => a.mailbox.length) = [1] ∧
    (s.AtRest ↔ s.Idle ∧ ∀ a ∈ s.manager.actors, a.pc = .parked ∨ a.Waiting) := by
  have hrun := App.reach_after [.manage "a" selfSender, .init, .run]
    (List.replicate 6 .main ++ List.replicate 6 (.worker 0)) (by decide)
  exact ⟨_, by decide, at_rest_iff scoped_self hrun⟩

/-- At rest no actor is in its handler. -/
theorem AtRest.not_process {s : App μ σ} (hrest : s.AtRest) (hscoped : Scoped 0 script)
    (h : (machine script).Reachable s) {k : Nat} {a : Runtime μ}
    (ha : s.manager.actors[k]? = some a) (l : Letter μ) : a.pc ≠ .process l := by
  intro hpc
  have hrecv := (hrest.waiting hscoped h ha (by simp [hpc])).1
  rw [hpc] at hrecv
  simp at hrecv

/-- At rest nothing is under way to an actor that was started. -/
theorem AtRest.sends_eq {s : App μ σ} (hrest : s.AtRest) (hscoped : Scoped 0 script)
    (h : (machine script).Reachable s) {i j : Nat} {a b : Runtime μ}
    {c : ActorState μ σ} (ha : s.manager.actors[i]? = some a)
    (hc : s.cells[i]? = some c) (hb : s.manager.actors[j]? = some b)
    (hstarted : b.pc ≠ .parked) :
    mailFrom i b.letters = c.code.sends i j (a.letters.map Letter.mail) := by
  have hbox : b.mailbox = [] := (hrest.waiting hscoped h hb hstarted).2
  have heq := App.sends_eq h ha hc hb
  rw [hbox, leftTo_eq_nil h ha hc (hrest.not_process hscoped h ha),
    List.append_nil] at heq
  simpa [mailFrom] using heq

/-- At rest the actors of such a program have agreed: the state of an actor is what its
code makes of the messages that it has handled, and of another actor's messages these
are all that the code of the other sends to it for what the other has handled. -/
theorem at_rest_equations (hscoped : Scoped 0 script) {s : App μ σ}
    (h : (machine script).Reachable s) (hrest : s.AtRest) {j : Nat} {b : Runtime μ}
    {d : ActorState μ σ} (hb : s.manager.actors[j]? = some b)
    (hd : s.cells[j]? = some d) (hstarted : b.pc ≠ .parked) :
    d.state = d.code.after b.messages ∧ d.todo = [] ∧ b.letters = b.accepted ∧
    ∀ (i : Nat) (a : Runtime μ) (c : ActorState μ σ), s.manager.actors[i]? = some a →
      s.cells[i]? = some c →
        mailFrom i b.letters = c.code.sends i j (a.letters.map Letter.mail) := by
  refine ⟨state_eq h hb hd, ?_, ?_, ?_⟩
  · exact (tidy h).resting j b d hb hd (hrest.not_process hscoped h hb)
  · have halive := Manager.alive (managed h) b (List.mem_of_getElem? hb)
    have haccepted := ((Manager.mailed (plain h)).boxes j b hb).rest halive.inLoop.2
    rw [(hrest.waiting hscoped h hb hstarted).2, List.append_nil] at haccepted
    exact haccepted.symm
  · intro i a c ha hc
    exact hrest.sends_eq hscoped h ha hc hb hstarted

/-- The actor that sends to itself, at rest. -/
theorem at_rest_equations_self : ∃ (s : App Nat Nat) (b : Runtime Nat)
    (d : ActorState Nat Nat), (machine [.manage "a" selfSender, .init, .run]).Reachable s ∧
      s.manager.actors[0]? = some b ∧ s.cells[0]? = some d ∧ s.handledCount = 2 ∧
      d.state = d.code.after b.messages ∧ d.todo = [] ∧ b.letters = b.accepted ∧
      ∀ (i : Nat) (a : Runtime Nat) (c : ActorState Nat Nat),
        s.manager.actors[i]? = some a → s.cells[i]? = some c →
          mailFrom i b.letters = c.code.sends i 0 (a.letters.map Letter.mail) := by
  have hrun := App.reach_after [.manage "a" selfSender, .init, .run]
    (List.replicate 6 .main ++ List.replicate 10 (.worker 0)) (by decide)
  refine ⟨_, _, _, hrun, rfl, rfl, by decide,
    at_rest_equations scoped_self hrun (fun t hpolls => ?_) rfl rfl (by decide)⟩
  rcases t with _ | (_ | k) | k
  · exact absurd hpolls (by decide)
  · rfl
  · rfl
  · rfl

end App

end Actors
