import Actors.App.View

/-!
# A program refines its net

`view_of_step`: each step of a program is a step of the net that `App.view`
reads it as, or changes nothing there.  So the equations of the net hold of
programs.  `App.link` says which messages one actor handles of those that
another one addresses to it, for every program and every schedule.
-/

namespace Actors

open Concur

variable {μ σ : Type}

namespace App

/-! ## Actors and their runtimes -/

/-- Every actor has its code, and one that is not in its handler has nothing
left to do. -/
structure Tidy (s : App μ σ) : Prop where
  length : s.cells.length = s.manager.actors.length
  resting : ∀ (k : Nat) (a : Runtime μ) (c : ActorState μ σ),
    s.manager.actors[k]? = some a → s.cells[k]? = some c →
    (∀ l, a.pc ≠ .process l) → c.todo = []

/-- A step of another thread leaves an actor in its handler, or outside. -/
theorem process_of_change {s : Manager μ} {b : ManagerAction μ} {k : Nat}
    {a a' : Runtime μ} (howned : s.Owned) (ha : s.actors[k]? = some a)
    (hchange : Runtime.Change s b k a a') (hactor : b ≠ .actor k)
    (hreturn : b ≠ .codeReturn k) (hpanic : b ≠ .codePanic k)
    (hout : ∀ l, a'.pc ≠ .process l) : ∀ l, a.pc ≠ .process l := by
  cases hchange with
  | spawn todo hmain =>
    have hpc : a.pc = .parked :=
      (howned.parked k a.pc (by simp [Manager.pcs, ha])).mpr
        (by simp [hmain, ManagerPc.starting])
    simp [hpc]
  | run _ events hb => exact absurd hb (by simp [hactor, hreturn])
  | panic hb => exact absurd hb hpanic
  | _ => exact hout

/-- Only `manage` makes an actor. -/
theorem length_of_other {s s' : Manager μ} {b : ManagerAction μ}
    (hstep : s.step b = some s') (hb : ∀ name, b ≠ .manage name) :
    s'.actors.length = s.actors.length := by
  rcases Manager.length_of_step hstep with ⟨name, hmanage, -⟩ | ⟨-, hlen⟩
  · exact absurd hmanage (hb name)
  · exact hlen

/-- What another thread does lets an actor rest that rests. -/
theorem Tidy.other {s : App μ σ} (h : s.Tidy) (howned : s.manager.Owned)
    {m : Manager μ} {b : ManagerAction μ} (hm : s.manager.step b = some m) {k : Nat}
    {a : Runtime μ} {c : ActorState μ σ} (ha : m.actors[k]? = some a)
    (hc : s.cells[k]? = some c)
    (hb : b ≠ .actor k ∧ b ≠ .codeReturn k ∧ b ≠ .codePanic k)
    (hout : ∀ l, a.pc ≠ .process l) : c.todo = [] := by
  rcases Manager.change_of_step hm ha with ⟨a0, ha0, hchange⟩ | ⟨name, -, hk, -⟩
  · exact h.resting k a0 c ha0 hc
      (process_of_change howned ha0 hchange hb.1 hb.2.1 hb.2.2 hout)
  · -- The actor is new, and its code is not among those before.
    have hlt := (List.getElem?_eq_some_iff.mp hc).1
    rw [h.length] at hlt
    omega

theorem tidy_call {s : App μ σ} (howned : s.manager.Owned) (h : s.Tidy)
    (call : MainCall μ σ) (rest : List (MainCall μ σ)) {m : Manager μ}
    (hm : s.manager.step call.label = some m) :
    Tidy { s with
      manager := m, script := rest
      cells := s.cells ++ (call.made.map ActorState.new).toList } := by
  have hlen : m.actors.length =
      s.manager.actors.length + (call.made.map ActorState.new).toList.length := by
    cases call with
    | manage name code =>
      rcases Manager.length_of_step hm with ⟨-, -, hlen⟩ | ⟨hno, -⟩
      · exact hlen
      · exact absurd rfl (hno name)
    | init | run | shutdown | wait | endCall | send k m' =>
      exact length_of_other hm (by simp [MainCall.label])
  refine ⟨by simp [h.length, hlen], fun k a c ha hc hout => ?_⟩
  rw [List.getElem?_append] at hc
  split at hc
  · exact h.other howned hm ha hc (by cases call <;> simp [MainCall.label]) hout
  · -- The new actor.
    have hmem := List.mem_of_getElem? hc
    simp only [Option.mem_toList, Option.map_eq_some_iff] at hmem
    obtain ⟨code, -, rfl⟩ := hmem
    rfl

theorem tidy_move {script : List (MainCall μ σ)} {s s' : App μ σ} {t : ThreadId}
    (hreach : (machine script).Reachable s) (hmove : Move s t s') (h : s.Tidy) :
    s'.Tidy := by
  have howned := Manager.owned (plain hreach)
  have halive := Manager.alive (managed hreach)
  cases hmove with
  | call call rest m hidle hscript hm => exact tidy_call howned h call rest hm
  | main m hbusy hm =>
    have hlen := length_of_other hm (by simp)
    exact ⟨h.length.trans hlen.symm, fun k a c ha hc hout =>
      h.other howned hm ha hc (by simp) hout⟩
  | command k a c l e todo m ha hc hpc htodo hm =>
    have hpcs := (Manager.exec_command halive (Manager.async (plain hreach)) ha
      ((Manager.answering (plain hreach)).selfRefs k a ha) hm).1
    have hlen : m.actors.length = s.manager.actors.length := by
      simpa [Manager.pcs] using congrArg List.length hpcs
    refine ⟨by simpa [hlen] using h.length, fun j a' c' ha' hc' hout => ?_⟩
    have hget : s.manager.pcs[j]? = some a'.pc := by
      rw [← hpcs]
      simp [Manager.pcs, ha']
    obtain ⟨a0, ha0, hpc0⟩ : ∃ a0, s.manager.actors[j]? = some a0 ∧
        a0.pc = a'.pc := by simpa [Manager.pcs] using hget
    by_cases hkj : k = j
    · subst hkj
      rw [ha, Option.some.injEq] at ha0
      subst ha0
      exact absurd (hpc0 ▸ hpc) (hout l)
    · rw [List.getElem?_set_ne hkj] at hc'
      exact h.resting j a0 c' ha0 hc' (by rw [hpc0]; exact hout)
  | codeReturn k a c m ha hc hdone hm =>
    have hlen := length_of_other hm (by simp)
    refine ⟨h.length.trans hlen.symm, fun j a' c' ha' hc' hout => ?_⟩
    by_cases hkj : k = j
    · subst hkj
      rw [hc, Option.some.injEq] at hc'
      subst hc'
      by_cases hin : ∃ l, a.pc = .process l
      · obtain ⟨l, hl⟩ := hin
        exact hdone l hl
      · exact h.resting k a c ha hc fun l hl => hin ⟨l, hl⟩
    · exact h.other howned hm ha' hc' (by simp [hkj]) hout
  | recv k a c l m ha hc htakes hm =>
    have hlen := length_of_other hm (by simp)
    refine ⟨by simpa [hlen] using h.length, fun j a' c' ha' hc' hout => ?_⟩
    by_cases hkj : k = j
    · subst hkj
      obtain ⟨-, -, -, ⟨hnone, -⟩ | ⟨l', rest, -, -, -, a1, ha1, hpc1⟩⟩ :=
        Manager.faces_of_thread (halive a (List.mem_of_getElem? ha)) ha
          (Or.inl rfl) hm
      · rw [htakes] at hnone
        simp at hnone
      · rw [ha', Option.some.injEq] at ha1
        exact absurd (ha1 ▸ hpc1) (hout l')
    · rw [List.getElem?_set_ne hkj] at hc'
      exact h.other howned hm ha' hc' (by simp [hkj]) hout
  | actor k a c m ha hc htakes hm =>
    have hlen := length_of_other hm (by simp)
    refine ⟨h.length.trans hlen.symm, fun j a' c' ha' hc' hout => ?_⟩
    by_cases hkj : k = j
    · subst hkj
      rw [hc, Option.some.injEq] at hc'
      subst hc'
      refine h.resting k a c ha hc fun l hl => ?_
      -- A thread in its handler does not take a step of the loop.
      have hcode := Manager.return_of_inCode hm (Or.inl rfl) ha (by rw [hl]; rfl)
      simp at hcode
    · exact h.other howned hm ha' hc' (by simp [hkj]) hout

theorem tidy {script : List (MainCall μ σ)} {s : App μ σ}
    (h : (machine script).Reachable s) : s.Tidy := by
  refine invariant ?_ ?_ h
  · exact ⟨rfl, by simp [start]⟩
  · intro s t s' hreach hs hmove
    exact tidy_move hreach hmove hs

/-! ## Each step is a step of the net, or none -/

theorem view_eq {s s' : App μ σ} (hfaces : s'.manager.faces = s.manager.faces)
    (hsent : s'.manager.sent = s.manager.sent) (hcells : s'.cells = s.cells)
    (hmarks : s'.marks = s.marks) : s'.view = s.view := by
  rw [view, view, hfaces, hsent, hcells, hmarks]

theorem length_view {s : App μ σ} (h : s.Tidy) :
    s.view.procs.length = s.manager.actors.length := by
  simp [view, procsOf, Manager.faces, h.length]

theorem getElem?_view {s : App μ σ} {k : Nat} {a : Runtime μ} {c : ActorState μ σ}
    (ha : s.manager.actors[k]? = some a) (hc : s.cells[k]? = some c) :
    s.view.procs[k]? = some (c.proc k a.face) := by
  simp [view, getElem?_procsOf, Manager.faces, ha, hc]

/-- The main thread sends, or changes nothing that the net sees. -/
theorem view_of_main {s s' : App μ σ} (htidy : s.Tidy) (hcells : s'.cells = s.cells)
    (hmarks : s'.marks = s.marks)
    (h : (s'.manager.faces = s.manager.faces ∧ s'.manager.sent = s.manager.sent) ∨
      ∃ l, l.via < s.manager.actors.length ∧ l.author = .main ∧
        s'.manager.faces = s.manager.faces.modify l.via (fun f => f.accept l) ∧
        s'.manager.sent = s.manager.sent ++ [l]) :
    s'.view = s.view ∨ ∃ b, s.view.step b = some s'.view := by
  rcases h with ⟨hf, hs⟩ | ⟨l, hlt, hauthor, hf, hs⟩
  · exact Or.inl (view_eq hf hs hcells hmarks)
  · refine Or.inr ⟨.post l.via l.mail, ?_⟩
    have hentry : l.entry = (none, l.mail) := by
      simp [Letter.entry, hauthor, ThreadId.actor]
    have harrival : l.arrival = ⟨none, l.via, l.mail⟩ := by
      simp [Letter.arrival, hauthor, ThreadId.actor]
    have hlen : l.via < s.view.procs.length := by
      rw [length_view htidy]
      exact hlt
    rw [Net.step, Net.deliver, if_pos hlen, Option.some.injEq]
    simp only [view, hf, hs, hcells, hmarks, procsOf_accept, List.map_append,
      List.map_cons, List.map_nil, hentry, harrival]

/-- An actor that goes on from its face as it is. -/
theorem procs_set {s : App μ σ} {k : Nat} {a : Runtime μ} {c : ActorState μ σ}
    (ha : s.manager.actors[k]? = some a) (hc : s.cells[k]? = some c)
    (c' : ActorState μ σ) : procsOf s.manager.faces (s.cells.set k c') =
      s.view.procs.set k (c'.proc k a.face) := by
  have hface : s.manager.faces[k]? = some a.face := by simp [Manager.faces, ha]
  obtain ⟨hk, hget⟩ := List.getElem?_eq_some_iff.mp hface
  have hset := procsOf_set hk (List.getElem?_eq_some_iff.mp hc).1 a.face c'
  rwa [← hget, List.set_getElem_self, hget] at hset

theorem view_of_command {s s' : App μ σ} (htidy : s.Tidy) {k : Nat} {a : Runtime μ}
    {c : ActorState μ σ} {e : Command μ} {todo : List (Command μ)}
    (ha : s.manager.actors[k]? = some a) (hc : s.cells[k]? = some c)
    (htodo : c.todo = e :: todo) (hcells : s'.cells = s.cells.set k { c with todo })
    (hmarks : s'.marks = s.marks ++ e.marks k a.context)
    (h : s.manager.Carried k (e.marks k a.context)
      (e.output k (a.context.sender.bind ActorRef.mailbox)) s'.manager) :
    s.view.step (.act k) = some s'.view := by
  have hnext : (c.proc k a.face).todo =
      e.output k (a.context.sender.bind ActorRef.mailbox) ::
        (({ c with todo } : ActorState μ σ).proc k a.face).todo := by
    simp [ActorState.proc, Runtime.face, htodo]
  simp only [Net.step, getElem?_view ha hc]
  rw [hnext]
  generalize e.output k (a.context.sender.bind ActorRef.mailbox) = out at h
  cases h with
  | send j mail _ l hj hnone harrival hf hs hflag =>
    have hentry : l.entry = (some k, mail) := by
      simp only [Letter.arrival, Arrival.mk.injEq] at harrival
      simp [Letter.entry, harrival.1, harrival.2.2]
    have hj' : j < (s.view.advance k (c.proc k a.face)
        (({ c with todo } : ActorState μ σ).proc k a.face).todo).procs.length := by
      rw [Net.advance, List.length_set, length_view htidy]
      exact hj
    simp only [Net.deliver, if_pos hj', Option.some.injEq]
    simp only [view, hf, hs, hcells, hmarks, hnone, procsOf_accept, procs_set ha hc,
      List.map_append, List.map_cons, List.map_nil, hentry, harrival,
      List.append_nil, Net.advance]
    rfl
  | dropped _ hmark hf hs hflag | terminated _ hmark hf hs hflag =>
    simp only [Option.some.injEq]
    simp only [view, hf, hs, hcells, hmarks, hmark, procs_set ha hc, Net.advance]
    rfl

theorem view_of_step {script : List (MainCall μ σ)} {s s' : App μ σ} {t : ThreadId}
    (hreach : (machine script).Reachable s) (hstep : s.step t = some s') :
    s'.view = s.view ∨ ∃ b, s.view.step b = some s'.view := by
  have htidy := tidy hreach
  have halive := Manager.alive (managed hreach)
  cases move_of_step hstep with
  | call call rest m hidle hscript hm =>
    have hmover : call.label.mover = .main := by cases call <;> rfl
    have hmade : (∀ name, call.label ≠ .manage name) → call.made = none := by
      cases call <;> simp [MainCall.label, MainCall.made]
    rcases Manager.faces_of_main halive (plain_label call) hmover hm with
      ⟨hno, hsame⟩ | ⟨hno, hsent⟩ | ⟨name, hb, hf, hs⟩
    · exact view_of_main htidy (by simp [hmade hno]) rfl (Or.inl hsame)
    · exact view_of_main htidy (by simp [hmade hno]) rfl (Or.inr hsent)
    · cases call with
      | manage name' code =>
        refine Or.inr ⟨.spawn code.initial
          (Handler.react s.manager.faces.length code.process), ?_⟩
        have hlen : s.cells.length = s.manager.faces.length := by
          simp [Manager.faces, htidy.length]
        simp only [Net.step, Option.some.injEq, view, hf, hs, MainCall.made,
          Option.map_some, Option.toList_some, procsOf_snoc hlen]
        rfl
      | init | run | shutdown | wait | endCall | send k m' =>
        simp [MainCall.label] at hb
  | main m hbusy hm =>
    rcases Manager.faces_of_main halive rfl rfl hm with
      ⟨-, hsame⟩ | ⟨-, hsent⟩ | ⟨name, hb, -⟩
    · exact view_of_main htidy rfl rfl (Or.inl hsame)
    · exact view_of_main htidy rfl rfl (Or.inr hsent)
    · simp at hb
  | command k a c l e todo m ha hc hpc htodo hm =>
    have hcarried := (Manager.exec_command halive (Manager.async (plain hreach)) ha
      ((Manager.answering (plain hreach)).selfRefs k a ha) hm).2.2
    exact Or.inr ⟨_, view_of_command htidy ha hc htodo rfl rfl hcarried⟩
  | recv k a c l m ha hc htakes hm =>
    obtain ⟨hs, -, -, ⟨hnone, -⟩ | ⟨l', rest, hl', hbox, hf, -⟩⟩ :=
      Manager.faces_of_thread (halive a (List.mem_of_getElem? ha)) ha (Or.inl rfl) hm
    · rw [htakes] at hnone
      simp at hnone
    · rw [htakes, Option.some.injEq] at hl'
      subst hl'
      have htodo : c.todo = [] := by
        refine htidy.resting k a c ha hc fun x hx => ?_
        simp [Runtime.takes, hx] at htakes
      have hlt := (List.getElem?_eq_some_iff.mp ha).1
      refine Or.inr ⟨.take k, ?_⟩
      have hqueue : (c.proc k a.face).queue = l.entry :: rest.map Letter.entry := by
        simp [ActorState.proc, Runtime.face, hbox]
      have hrest : (c.proc k a.face).todo = [] := by
        simp [ActorState.proc, htodo]
      simp only [Net.step, getElem?_view ha hc, hqueue, hrest, Option.some.injEq]
      simp only [view, hf, hs]
      rw [procsOf_set (by simpa [Manager.faces] using hlt)
        (List.getElem?_eq_some_iff.mp hc).1]
      simp only [Proc.handle, ActorState.proc, Runtime.face, ActorState.handle,
        Handler.react, Letter.entry, Letter.mail, List.map_append, List.map_cons,
        List.map_nil]
  | codeReturn k a c m ha hc hdone hm =>
    obtain ⟨hs, -, -, ⟨-, hf⟩ | ⟨l, rest, hl, -⟩⟩ :=
      Manager.faces_of_thread (halive a (List.mem_of_getElem? ha)) ha (Or.inr rfl) hm
    · exact Or.inl (view_eq hf hs rfl rfl)
    · -- A thread in `recv` runs no code that could return.
      have hpc : a.pc = .recv := by
        unfold Runtime.takes at hl
        split at hl
        · assumption
        · simp at hl
      simp [Manager.step, Manager.codeReturn, ha, Runtime.codeReturn, hpc,
        Manager.putBack] at hm
  | actor k a c m ha hc htakes hm =>
    obtain ⟨hs, -, -, ⟨-, hf⟩ | ⟨l, rest, hl, -⟩⟩ :=
      Manager.faces_of_thread (halive a (List.mem_of_getElem? ha)) ha (Or.inl rfl) hm
    · exact Or.inl (view_eq hf hs rfl rfl)
    · rw [htakes] at hl
      simp at hl

/-- A program reaches what its net reaches. -/
theorem reach_view {script : List (MainCall μ σ)} {s : App μ σ}
    (h : (machine script).Reachable s) :
    (Net.machine σ (Mail μ) Mark).Reachable s.view := by
  refine h.simulate (fun s hs => ?_) fun s t s' hreach _ hstep => ?_
  · obtain rfl : s = App.start script := hs
    rfl
  · rcases view_of_step hreach hstep with hsame | ⟨b, hb⟩
    · exact Or.inl hsame
    · exact Or.inr ⟨b, trivial, hb⟩

end App

end Actors
