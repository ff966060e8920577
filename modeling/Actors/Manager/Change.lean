import Actors.Lib.Lists
import Actors.Manager.Move

/-!
# What a step of a manager does to one actor

Most invariants of a manager say something about each actor by itself.
`Runtime.Change` lists what one step of the manager can do to the runtime of
one actor, with what was checked before it, and `Letter.Source` says where a
letter comes from that an actor accepts.  `change_of_step` finds the change for
an actor that is there after the step, and `exists_change` finds it for an actor
that was there before.
-/

namespace Actors

open Concur

variable {μ : Type}

/-- Who sends the letter that actor `k` accepts by the step `b` from `s`. -/
inductive Letter.Source (s : Manager μ) (b : ManagerAction μ) (k : Nat)
    (l : Letter μ) : Prop where
  | init (todo : List Nat) (hb : b = .main) (hmain : s.main = .initSend (k :: todo))
      (hmsg : l.envelope.msg = .start)
  | shutdown (todo : List Nat) (inEnd : Bool) (hb : b = .main)
      (hmain : s.main = .shutdownSend (k :: todo) inEnd)
  | app (t : ThreadId) (msg : Message μ) (sender : Option ActorRef)
      (hb : b = .send t k msg sender ∨ b = .fastSend t k msg sender)

/-- What the step `b` from `s` does to the runtime `a` of actor `k`. -/
inductive Runtime.Change (s : Manager μ) (b : ManagerAction μ) (k : Nat)
    (a : Runtime μ) : Runtime μ → Prop where
  | same : Change s b k a a
  /-- References are made or dropped. -/
  | senders (hs : List Holder) : Change s b k a { a with senders := hs }
  | accept (l : Letter μ) (hlive : a.pc.finished = false)
      (hid : l.id = s.sent.length) (hvia : l.via = k) (hfrom : l.Source s b k) :
      Change s b k a (a.accept l)
  | spawn (todo : List Nat) (hmain : s.main = .initSpawn k todo) :
      Change s b k a { a with pc := .spawned }
  | run (a' : Runtime μ) (events : List LifeEvent)
      (hb : b = .actor k ∨ b = .codeReturn k)
      (hcode : a.pc.inCode = true →
        b = .codeReturn k ∧ s.blocked (.worker k) = false)
      (hmove : Runtime.Move k a a' events) : Change s b k a a'
  | panic (hb : b = .codePanic k) (hcode : a.pc.inCode = true)
      (hfree : s.blocked (.worker k) = false) :
      Change s b k a (a.finish .panicked)
  | reply (msg : Message μ) (l : Letter μ) (hb : b = .reply k msg)
      (hpc : a.pc = .process l) : Change s b k a a.reply.2
  | stop (hb : b = .stop k) : Change s b k a a.stop

namespace Manager

/-- A thread that runs code of the application goes on by a return, and not
while it waits in a `fast_send`. -/
theorem return_of_inCode {s s' : Manager μ} {b : ManagerAction μ} {k : Nat}
    {a : Runtime μ} (hstep : s.step b = some s')
    (hb : b = .actor k ∨ b = .codeReturn k) (ha : s.actors[k]? = some a)
    (hcode : a.pc.inCode = true) :
    b = .codeReturn k ∧ s.blocked (.worker k) = false := by
  rcases hb with rfl | rfl
  · have hnone : a.runStep k = none := by
      unfold Runtime.runStep
      split <;> rename_i hpc <;> simp_all [RuntimePc.inCode]
    simp [step, actorStep, ha, hnone, putBack] at hstep
  · refine ⟨rfl, ?_⟩
    simp only [step, codeReturn, ha] at hstep
    split at hstep
    · simp at hstep
    · rename_i hfree
      simpa using hfree

/-- One actor is replaced. -/
theorem change_set {s : Manager μ} {b : ManagerAction μ} {k j : Nat}
    {a a' x : Runtime μ} (ha : s.actors[k]? = some a)
    (hchange : Runtime.Change s b k a a')
    (hx : (s.actors.set k a')[j]? = some x) :
    ∃ y, s.actors[j]? = some y ∧ Runtime.Change s b j y x := by
  rw [List.getElem?_set] at hx
  split at hx
  · rename_i hkj
    subst hkj
    split at hx
    · rw [Option.some.injEq] at hx
      exact ⟨a, ha, hx ▸ hchange⟩
    · simp at hx
  · exact ⟨x, hx, .same⟩

/-- One actor is changed in place. -/
theorem change_modify {s : Manager μ} {b : ManagerAction μ} {k j : Nat}
    {f : Runtime μ → Runtime μ} {x : Runtime μ}
    (hchange : ∀ a, Runtime.Change s b k a (f a))
    (hx : (s.actors.modify k f)[j]? = some x) :
    ∃ y, s.actors[j]? = some y ∧ Runtime.Change s b j y x := by
  rw [List.getElem?_modify, Option.map_eq_map, Option.map_eq_some_iff] at hx
  obtain ⟨y, hy, rfl⟩ := hx
  refine ⟨y, hy, ?_⟩
  by_cases hkj : k = j
  · subst hkj
    simpa using hchange y
  · simpa [hkj] using .same

theorem change_unregistered {s : Manager μ} {b : ManagerAction μ} {name : String}
    {j : Nat} {x : Runtime μ} (hx : (s.unregistered name)[j]? = some x) :
    ∃ y, s.actors[j]? = some y ∧ Runtime.Change s b j y x := by
  unfold unregistered at hx
  split at hx
  · exact change_modify (fun a => .senders _) hx
  · exact ⟨x, hx, .same⟩

theorem length_unregistered (s : Manager μ) (name : String) :
    (s.unregistered name).length = s.actors.length := by
  unfold unregistered
  split <;> simp

/-- An actor that is there after a step was there before it, or `manage` has
just made it. -/
theorem change_of_step {s s' : Manager μ} {b : ManagerAction μ} {k : Nat}
    {a' : Runtime μ} (hstep : s.step b = some s') (ha' : s'.actors[k]? = some a') :
    (∃ a, s.actors[k]? = some a ∧ Runtime.Change s b k a a') ∨
      ∃ name, b = .manage name ∧ k = s.actors.length ∧ a' = managed k name := by
  have hcode := fun j a hb ha =>
    return_of_inCode (k := j) (a := a) hstep hb ha
  cases move_of_step hstep with
  | manage name hidle =>
    rcases Nat.lt_trichotomy k (s.unregistered name).length with hlt | rfl | hgt
    · rw [List.getElem?_append_left hlt] at ha'
      exact Or.inl (change_unregistered ha')
    · rw [List.getElem?_concat_length, Option.some.injEq] at ha'
      have hlen := s.length_unregistered name
      exact Or.inr ⟨name, rfl, hlen, by rw [← ha', hlen]⟩
    · rw [List.getElem?_eq_none (by simp; omega)] at ha'
      simp at ha'
  | getRef name j hj | dropRefs j =>
    exact Or.inl (change_modify (fun a => .senders _) ha')
  | sendStart j todo a hmain ha hlive =>
    exact Or.inl (change_set ha
      (.accept _ hlive rfl rfl (.init todo rfl hmain rfl)) ha')
  | sendShutdown j todo inEnd a hmain ha hlive =>
    exact Or.inl (change_set ha
      (.accept _ hlive rfl rfl (.shutdown todo inEnd rfl hmain)) ha')
  | send t j msg sender a hcan hfree ha hlive =>
    exact Or.inl (change_set ha
      (.accept _ hlive rfl rfl (.app t msg sender (Or.inl rfl))) ha')
  | fastSend t j msg sender a hcan hfree ha hlive =>
    exact Or.inl (change_set ha
      (.accept _ hlive rfl rfl (.app t msg sender (Or.inr rfl))) ha')
  | spawn j todo hmain =>
    exact Or.inl (change_modify (fun a => .spawn todo hmain) ha')
  | actor _ j a x events hb hfree ha hrun =>
    exact Or.inl (change_set ha (.run x events hb (hcode j a hb ha) hrun) ha')
  | panic j a ha hin hfree =>
    exact Or.inl (change_set ha (.panic rfl hin hfree) ha')
  | reply j msg a l ha hpc =>
    exact Or.inl (change_set ha (.reply msg l rfl hpc) ha')
  | stop j =>
    rw [List.getElem?_modify, Option.map_eq_map, Option.map_eq_some_iff] at ha'
    obtain ⟨a, ha, rfl⟩ := ha'
    refine Or.inl ⟨a, ha, ?_⟩
    by_cases hjk : j = k
    · subst hjk
      simpa using .stop rfl
    · simpa [hjk] using .same
  | _ => exact Or.inl ⟨a', ha', .same⟩

/-- Only `manage` makes an actor. -/
theorem length_of_step {s s' : Manager μ} {b : ManagerAction μ}
    (hstep : s.step b = some s') :
    (∃ name, b = .manage name ∧ s'.actors.length = s.actors.length + 1) ∨
      (∀ name, b ≠ .manage name) ∧ s'.actors.length = s.actors.length := by
  cases move_of_step hstep with
  | manage name hidle =>
    have hlen := s.length_unregistered name
    exact Or.inl ⟨name, rfl, by simp [hlen]⟩
  | refused _ k a hb =>
    obtain ⟨t, msg, sender, rfl | rfl⟩ := hb <;> exact Or.inr ⟨by simp, rfl⟩
  | actor _ k a a' events hb =>
    rcases hb with rfl | rfl <;> exact Or.inr ⟨by simp, by simp⟩
  | _ => exact Or.inr ⟨by simp, by simp [posted]⟩

theorem length_le_of_step {s s' : Manager μ} {b : ManagerAction μ}
    (hstep : s.step b = some s') : s.actors.length ≤ s'.actors.length := by
  rcases length_of_step hstep with ⟨name, -, hlen⟩ | ⟨-, hlen⟩ <;> omega

/-- What a step does to an actor that was there before it. -/
theorem exists_change {s s' : Manager μ} {b : ManagerAction μ} {k : Nat}
    {a : Runtime μ} (hstep : s.step b = some s') (ha : s.actors[k]? = some a) :
    ∃ a', s'.actors[k]? = some a' ∧ Runtime.Change s b k a a' := by
  have hlt := (List.getElem?_eq_some_iff.mp ha).1
  have hlt' : k < s'.actors.length :=
    Nat.lt_of_lt_of_le hlt (length_le_of_step hstep)
  refine ⟨_, List.getElem?_eq_getElem hlt', ?_⟩
  rcases change_of_step hstep (List.getElem?_eq_getElem hlt') with
    ⟨y, hy, hchange⟩ | ⟨name, -, hk, -⟩
  · rw [ha, Option.some.injEq] at hy
    exact hy ▸ hchange
  · omega

end Manager

end Actors
