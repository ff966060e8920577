import Actors.Manager.Change
import Actors.Manager.Mailboxes

/-!
# The first message of an actor

`Manager::init` goes through the runtimes one by one: it puts `Start` into the
mailbox of an actor and spawns its thread, and then turns to the next.  An actor
that is already running can therefore send to one whose `Start` is still to
come, and a mailbox hands letters over in the order in which it took them.

`waiting` lists the actors that have no `Start` yet.  `waiting_of_step` says how
a step changes it, and `greeting` what it means for the mailboxes: one that
waits is empty, and the others begin with `Start`, as long as nobody sends to an
actor that waits.
-/

namespace Actors

open Concur

variable {μ : Type}

/-- The runtimes that `init` has taken and not sent `Start` to. -/
def ManagerPc.unsent : ManagerPc → List Nat
  | .initSend todo | .initSpawn _ todo => todo
  | _ => []

namespace Manager

/-- The actors that `init` has not sent `Start` to. -/
def waiting (s : Manager μ) : List Nat := s.runtimes ++ s.main.unsent

/-- The actor that a step sends to, unless it is `init` that sends. -/
def sendsTo (s : Manager μ) : ManagerAction μ → Option Nat
  | .send _ k _ _ | .fastSend _ k _ _ => some k
  | .main =>
    match s.main with
    | .shutdownSend (k :: _) _ => some k
    | _ => none
  | _ => none

/-- Nobody sends to an actor before `init` has sent it its `Start`. -/
def StartFirst (s : Manager μ) (b : ManagerAction μ) : Prop :=
  ∀ k ∈ s.sendsTo b, k ∉ s.waiting

instance (s : Manager μ) (b : ManagerAction μ) : Decidable (StartFirst s b) :=
  inferInstanceAs (Decidable (∀ k ∈ s.sendsTo b, k ∉ s.waiting))

/-- All actors are registered before the one call of `init`, and nobody but
the actors sends. -/
def OnlyActors (s : Manager μ) : ManagerAction μ → Prop
  | .manage _ | .init => .init ∉ s.calls
  | .send t _ _ _ | .fastSend t _ _ _ => (t matches .worker _) = true
  | .shutdown | .endCall | .stop _ => False
  | _ => True

instance (s : Manager μ) (b : ManagerAction μ) : Decidable (OnlyActors s b) :=
  match b with
  | .manage _ | .init => inferInstanceAs (Decidable (.init ∉ s.calls))
  | .send t _ _ _ | .fastSend t _ _ _ =>
    inferInstanceAs (Decidable ((t matches .worker _) = true))
  | .shutdown | .endCall | .stop _ => isFalse id
  | .getRef _ | .run | .wait | .main | .terminate _ | .fastReturn _ | .dropRefs _
  | .actor _ | .reply _ _ | .codeReturn _ | .codePanic _ => isTrue trivial

/-- The first message that an actor is called with is `Start`. -/
def Greeted (s : Manager μ) : Prop :=
  ∀ (k : Nat) (a : Runtime μ), s.actors[k]? = some a →
    ∀ c, a.handed.head? = some c → c.msg = .start

/-- How a step changes who waits for `Start`: `manage` adds an actor, and
`init` goes on by one. -/
theorem waiting_of_step {s s' : Manager μ} {b : ManagerAction μ}
    (howned : s.Owned) (hstep : s.step b = some s') :
    (s'.waiting = s.waiting ∧ (∀ name, b ≠ .manage name) ∧
        (b = .main → ∀ k todo, s.main ≠ .initSend (k :: todo))) ∨
      (∃ name, b = .manage name ∧ s'.waiting = s.waiting ++ [s.actors.length]) ∨
      ∃ k todo, s.main = .initSend (k :: todo) ∧ b = .main ∧
        s.waiting = s.runtimes ++ k :: todo ∧ s'.waiting = s.runtimes ++ todo ∧
        ∃ a, s.actors[k]? = some a ∧ s'.actors[k]? =
          some (a.accept (s.letterOf .main k a.name .start none false)) := by
  cases move_of_step hstep with
  | manage name hidle =>
    refine Or.inr (Or.inl ⟨name, rfl, ?_⟩)
    simp [waiting, hidle, ManagerPc.unsent]
  | sendStart k todo a hmain ha hlive =>
    refine Or.inr (Or.inr ⟨k, todo, hmain, rfl, ?_, ?_, a, ha, ?_⟩)
    · simp [waiting, hmain, ManagerPc.unsent]
    · simp [waiting, posted, ManagerPc.unsent]
    · exact List.getElem?_set_self (List.getElem?_eq_some_iff.mp ha).1
  | startRefused k todo a hmain ha hdead =>
    -- The actor has no thread yet, so it has not ended.
    have hpc : a.pc = .parked :=
      (howned.parked k a.pc (by simp [pcs, ha])).mpr
        (by simp [hmain, ManagerPc.starting])
    simp [hpc, RuntimePc.finished] at hdead
  | init hmain | run hmain | shutdown hmain | wait hmain | endCall hmain
  | spawn k todo hmain | initDone hmain | runDone hmain
  | sendShutdown k todo inEnd a hmain | shutdownRefused k todo inEnd a hmain
  | shutdownThenWait hmain | shutdownDone hmain | join k todo inEnd a hmain
  | joined inEnd hmain | runSleep hmain =>
    left
    simp [waiting, posted, hmain, ManagerPc.unsent]
  | refused _ k a hb =>
    obtain ⟨t, msg, sender, rfl | rfl⟩ := hb <;> exact Or.inl ⟨rfl, by simp⟩
  | actor _ k a a' events hb =>
    rcases hb with rfl | rfl <;> exact Or.inl ⟨rfl, by simp⟩
  | _ => exact Or.inl ⟨rfl, by simp⟩

/-- An actor that waits for `Start` belongs to the manager. -/
theorem mem_of_waiting {s : Manager μ} {k : Nat} (h : k ∈ s.waiting) :
    k ∈ s.runtimes ++ s.main.starting := by
  rcases List.mem_append.mp h with hk | hk
  · exact List.mem_append_left _ hk
  · refine List.mem_append_right _ ?_
    cases hmain : s.main <;> simp [hmain, ManagerPc.unsent] at hk <;>
      simp [ManagerPc.starting, hk]

theorem nodup_waiting {s : Manager μ} (h : s.Owned) : s.waiting.Nodup := by
  have hnodup : (s.runtimes ++ s.main.starting).Nodup := h.distinct.of_append_left
  refine hnodup.sublist (List.Sublist.append_left ?_ _)
  cases s.main with
  | initSpawn k todo => exact List.sublist_cons_self k todo
  | initSend todo => exact List.Sublist.refl todo
  | _ => exact List.Sublist.refl []

/-- The mailbox of an actor that waits is empty, and the mailbox of every other
actor began with `Start`. -/
structure Greeting (s : Manager μ) : Prop where
  silent : ∀ (k : Nat) (a : Runtime μ), s.actors[k]? = some a →
    k ∈ s.waiting → a.accepted = []
  first : ∀ (k : Nat) (a : Runtime μ), s.actors[k]? = some a →
    k ∉ s.waiting → ∃ l rest, a.accepted = l :: rest ∧ l.envelope.msg = .start

/-- The same about one actor, which `waits` for its `Start` or does not. -/
def Begun (waits : Prop) (a : Runtime μ) : Prop :=
  (waits → a.accepted = []) ∧
    (¬ waits → ∃ l rest, a.accepted = l :: rest ∧ l.envelope.msg = .start)

/-- A mailbox takes nothing while its actor waits, and it only grows. -/
theorem accepted_of_change {s : Manager μ} {b : ManagerAction μ} {k : Nat}
    {a a' : Runtime μ} (hok : StartFirst s b)
    (hinit : b = .main → ∀ todo, s.main ≠ .initSend (k :: todo))
    (hchange : Runtime.Change s b k a a') :
    a'.accepted = a.accepted ∨
      k ∉ s.waiting ∧ ∃ l, a'.accepted = a.accepted ++ [l] := by
  cases hchange with
  | accept l hlive hid hvia hfrom =>
    refine Or.inr ⟨?_, l, rfl⟩
    cases hfrom with
    | init todo hb hmain => exact absurd hmain (hinit hb todo)
    | shutdown todo inEnd hb hmain =>
      refine hok k ?_
      subst hb
      simp [sendsTo, hmain]
    | app t msg sender hb =>
      refine hok k ?_
      rcases hb with rfl | rfl <;> simp [sendsTo]
  | run _ events hb hcode hmove => cases hmove <;> exact Or.inl rfl
  | _ => exact Or.inl rfl

/-- An actor that is not being sent its `Start` stays what it is. -/
theorem Greeting.keep {s s' : Manager μ} (h : s.Greeting) {b : ManagerAction μ}
    (hok : StartFirst s b) (hstep : s.step b = some s') {k : Nat} {a' : Runtime μ}
    (ha' : s'.actors[k]? = some a')
    (hinit : b = .main → ∀ todo, s.main ≠ .initSend (k :: todo))
    (hk : k < s.actors.length) : Begun (k ∈ s.waiting) a' := by
  rcases change_of_step hstep ha' with ⟨a, ha, hchange⟩ | ⟨_, -, hnew, -⟩
  · rcases accepted_of_change hok hinit hchange with heq | ⟨hout, l, heq⟩
    · rw [Begun, heq]
      exact ⟨h.silent k a ha, h.first k a ha⟩
    · refine ⟨fun hin => absurd hin hout, fun _ => ?_⟩
      obtain ⟨l0, rest, hl0, hmsg⟩ := h.first k a ha hout
      exact ⟨l0, rest ++ [l], by rw [heq, hl0, List.cons_append], hmsg⟩
  · omega

/-- Only `manage` adds an actor. -/
theorem lt_of_step {s s' : Manager μ} {b : ManagerAction μ}
    (hstep : s.step b = some s') (hno : ∀ name, b ≠ .manage name) {k : Nat}
    {a' : Runtime μ} (ha' : s'.actors[k]? = some a') : k < s.actors.length := by
  rcases change_of_step hstep ha' with ⟨a, ha, -⟩ | ⟨name, hb, -⟩
  · exact (List.getElem?_eq_some_iff.mp ha).1
  · exact absurd hb (hno name)

/-- `manage` adds an actor that waits, with an empty mailbox. -/
theorem Greeting.manage {s s' : Manager μ} (h : s.Greeting) {name : String}
    (hok : StartFirst s (.manage name)) (hstep : s.step (.manage name) = some s')
    (heq : s'.waiting = s.waiting ++ [s.actors.length]) : s'.Greeting := by
  have hkeep : ∀ (k : Nat) (a a' : Runtime μ), s.actors[k]? = some a →
      s'.actors[k]? = some a' →
        k < s.actors.length ∧ Begun (k ∈ s.waiting) a' := by
    intro k a a' ha ha'
    have hlt := (List.getElem?_eq_some_iff.mp ha).1
    exact ⟨hlt, h.keep hok hstep ha' (by simp) hlt⟩
  refine ⟨fun k a' ha' hk => ?_, fun k a' ha' hk => ?_⟩ <;>
    rw [heq, List.mem_append, List.mem_singleton] at hk
  · rcases change_of_step hstep ha' with ⟨a, ha, -⟩ | ⟨_, -, -, rfl⟩
    · obtain ⟨hlt, hsilent, -⟩ := hkeep k a a' ha ha'
      exact hsilent (hk.resolve_right (by omega))
    · rfl
  · simp only [not_or] at hk
    rcases change_of_step hstep ha' with ⟨a, ha, -⟩ | ⟨_, -, hnew, -⟩
    · exact (hkeep k a a' ha ha').2.2 hk.1
    · exact absurd hnew hk.2

/-- `init` sends actor `k` its `Start`, and nothing was in the mailbox before. -/
theorem Greeting.sendStart {s s' : Manager μ} (h : s.Greeting) (howned : s.Owned)
    (hok : StartFirst s .main) (hstep : s.step .main = some s') {k : Nat}
    {todo : List Nat} (hmain : s.main = .initSend (k :: todo))
    (heq : s.waiting = s.runtimes ++ k :: todo)
    (heq' : s'.waiting = s.runtimes ++ todo) {a : Runtime μ}
    (ha : s.actors[k]? = some a)
    (ha' : s'.actors[k]? =
      some (a.accept (s.letterOf .main k a.name .start none false))) :
    s'.Greeting := by
  have hnodup := nodup_waiting howned
  rw [heq] at hnodup
  have hkout : k ∉ s.runtimes ++ todo :=
    (List.nodup_cons.mp (List.perm_middle.nodup_iff.mp hnodup)).1
  have hempty := h.silent k a ha (by simp [heq])
  have hother : ∀ (j : Nat) (x : Runtime μ), s'.actors[j]? = some x → j ≠ k →
      Begun (j ∈ s.waiting) x := by
    intro j x hx hjk
    refine h.keep hok hstep hx (fun _ todo' => ?_) (lt_of_step hstep (by simp) hx)
    simp [hmain, Ne.symm hjk]
  refine ⟨fun j x hx hj => ?_, fun j x hx hj => ?_⟩ <;> rw [heq'] at hj
  · have hjk : j ≠ k := by
      rintro rfl
      exact hkout hj
    refine (hother j x hx hjk).1 ?_
    rw [heq]
    exact List.perm_middle.mem_iff.mpr (List.mem_cons_of_mem k hj)
  · by_cases hjk : j = k
    · subst hjk
      rw [ha', Option.some.injEq] at hx
      subst hx
      exact ⟨_, [], by simp [Runtime.accept, hempty]; rfl, rfl⟩
    · refine (hother j x hx hjk).2 fun hin => hj ?_
      rw [heq] at hin
      exact (List.mem_cons.mp (List.perm_middle.mem_iff.mp hin)).resolve_left hjk

theorem greeting_step {s s' : Manager μ} {b : ManagerAction μ}
    (howned : s.Owned) (hok : StartFirst s b) (hstep : s.step b = some s')
    (h : s.Greeting) : s'.Greeting := by
  rcases waiting_of_step howned hstep with
    ⟨heq, hno, hmain⟩ | ⟨name, rfl, heq⟩ | ⟨k, todo, hmain, rfl, heq, heq', a, ha, ha'⟩
  · have hkeep : ∀ (k : Nat) (a' : Runtime μ), s'.actors[k]? = some a' →
        Begun (k ∈ s'.waiting) a' := by
      intro k a' ha'
      rw [heq]
      exact h.keep hok hstep ha' (fun hb => hmain hb k) (lt_of_step hstep hno ha')
    exact ⟨fun k a' ha' => (hkeep k a' ha').1, fun k a' ha' => (hkeep k a' ha').2⟩
  · exact h.manage hok hstep heq
  · exact h.sendStart howned hok hstep hmain heq heq' ha ha'

/-- Every mailbox whose actor does not wait for `Start` began with it. -/
theorem greeting {s : Manager μ} (h : (machine μ).Reach StartFirst s) :
    s.Greeting := by
  refine Machine.Reach.invariant ?_ ?_ h
  · rintro s rfl
    exact ⟨by simp [new], by simp [new]⟩
  · intro s b s' hreach hs hok hstep
    exact greeting_step (owned hreach) hok hstep hs

/-- An actor is called with the message of each letter it is handed. -/
theorem carries {ok : Manager μ → ManagerAction μ → Prop} {s : Manager μ}
    (h : (machine μ).Reach ok s) :
    ∀ (k : Nat) (a : Runtime μ), s.actors[k]? = some a →
      ∀ c ∈ a.handed, c.Carries ∧ c.actor = k := by
  refine Machine.Reach.invariant (I := fun s : Manager μ =>
    ∀ (k : Nat) (a : Runtime μ), s.actors[k]? = some a →
      ∀ c ∈ a.handed, c.Carries ∧ c.actor = k) ?_ ?_ h
  · rintro s rfl
    simp [new]
  · intro s b s' _ hs _ hstep k a' ha'
    rcases change_of_step hstep ha' with ⟨a, ha, hchange⟩ | ⟨_, -, -, rfl⟩
    · have hold := hs k a ha
      cases hchange with
      | run _ events hb hcode hmove =>
        cases hmove with
        | recv l rest hpc hbox =>
          exact forall_mem_snoc hold ⟨⟨rfl, rfl, rfl⟩, rfl⟩
        | _ => exact hold
      | _ => exact hold
    · simp [managed, Runtime.new]

/-- The first message of every actor is `Start`, when nobody sends to an actor
before `init` has sent it its `Start`. -/
theorem greeted {s : Manager μ} (h : (machine μ).Reach StartFirst s) :
    s.Greeted := by
  intro k a ha c hc
  have hbox := (mailed h).boxes k a ha
  have hcarries := carries h k a ha c (List.mem_of_mem_head? hc)
  have hhead : a.letters.head? = some c.letter := by
    simp [Runtime.letters, hc]
  obtain ⟨rest, hrest⟩ := hbox.handed_prefix
  have hfirst : a.accepted.head? = some c.letter := by
    rw [← hrest, List.head?_append, hhead]
    rfl
  by_cases hk : k ∈ s.waiting
  · rw [(greeting h).silent k a ha hk] at hfirst
    simp at hfirst
  · obtain ⟨l, rest', hl, hmsg⟩ := (greeting h).first k a ha hk
    rw [hl, List.head?_cons, Option.some.injEq] at hfirst
    rw [hcarries.1.1, ← hfirst]
    exact hmsg

/-- Two actors that are started together.  Actor 0 sends to actor 1 from its
handler, after `init` has sent `Start` to both. -/
theorem greeted_two : ∃ s : Manager Nat,
    (s.actors.map fun a => a.handed.map ProcessCall.msg) =
      [[.start], [.start, .user 7]] ∧ s.Greeted := by
  have hrun := reach_after StartFirst
    ([.manage "a", .manage "b", .init, .main, .main, .actor 0, .codeReturn 0,
      .actor 0, .actor 0, .main, .send (.worker 0) 1 (.user 7) none, .main, .main,
      .actor 1, .codeReturn 1, .actor 1, .actor 1, .codeReturn 1, .actor 1,
      .actor 1] : List (ManagerAction Nat)) (by decide)
  exact ⟨_, by decide, greeted hrun⟩

/-- Actor 0 handles its `Start` and sends to actor 1, while the loop of
`Manager::init` has not reached actor 1: actor 1 is called with that message
before it is called with `Start`. -/
theorem greeted_fails : ¬ ∀ s : Manager Nat,
    (machine Nat).Reach OnlyActors s → s.Greeted := by
  have hrun := reach_after OnlyActors
    ([.manage "a", .manage "b", .init, .main, .main, .actor 0, .codeReturn 0,
      .actor 0, .actor 0, .send (.worker 0) 1 (.user 7) none, .main, .main, .main,
      .actor 1, .codeReturn 1, .actor 1, .actor 1] : List (ManagerAction Nat))
    (by decide)
  intro h
  have hstart := h _ hrun 1 _ rfl _ rfl
  revert hstart
  decide

end Manager

end Actors
