import Actors.App.Plain
import Actors.App.Program

/-!
# The runs of a program

`App.Move` is `App.step` as a relation, with one constructor for each thing that
a thread can do.  `App.plain` says that a program runs on the manager's machine
and keeps its discipline, so that everything proved there holds of it, and
`App.tidy` and `App.made` relate the actors of the program to their runtimes and
to the main function.
-/

namespace Actors

open Concur

variable {μ σ : Type}

/-- The thread of `a` is about to take the head of its mailbox. -/
def Runtime.takes (a : Runtime μ) : Option (Letter μ) :=
  match a.pc with
  | .recv => a.mailbox.head?
  | _ => none

namespace App

/-- One step of a program, by outcome. -/
inductive Move (s : App μ σ) : ThreadId → App μ σ → Prop where
  | call (call : MainCall μ σ) (script : List (MainCall μ σ)) (m : Manager μ)
      (hidle : s.manager.main = .idle) (hscript : s.script = call :: script)
      (hm : s.manager.step call.label = some m) :
      Move s .main { s with
        manager := m, script
        cells := s.cells ++ (call.made.map ActorState.new).toList }
  | main (m : Manager μ) (hbusy : s.manager.main ≠ .idle)
      (hm : s.manager.step .main = some m) : Move s .main { s with manager := m }
  | command (k : Nat) (a : Runtime μ) (c : ActorState μ σ) (l : Letter μ) (e : Command μ)
      (todo : List (Command μ)) (m : Manager μ) (ha : s.manager.actors[k]? = some a)
      (hc : s.cells[k]? = some c) (hpc : a.pc = .process l)
      (htodo : c.todo = e :: todo)
      (hm : Machine.exec Manager.step s.manager (e.labels k a.context) = some m) :
      Move s (.worker k) { s with
        manager := m, cells := s.cells.set k { c with todo }
        marks := s.marks ++ e.marks k a.context }
  | codeReturn (k : Nat) (a : Runtime μ) (c : ActorState μ σ) (m : Manager μ)
      (ha : s.manager.actors[k]? = some a) (hc : s.cells[k]? = some c)
      (hdone : ∀ l, a.pc = .process l → c.todo = [])
      (hm : s.manager.step (.codeReturn k) = some m) :
      Move s (.worker k) { s with manager := m }
  | recv (k : Nat) (a : Runtime μ) (c : ActorState μ σ) (l : Letter μ) (m : Manager μ)
      (ha : s.manager.actors[k]? = some a) (hc : s.cells[k]? = some c)
      (htakes : a.takes = some l) (hm : s.manager.step (.actor k) = some m) :
      Move s (.worker k) { s with
        manager := m, cells := s.cells.set k (c.handle l.envelope.msg) }
  | actor (k : Nat) (a : Runtime μ) (c : ActorState μ σ) (m : Manager μ)
      (ha : s.manager.actors[k]? = some a) (hc : s.cells[k]? = some c)
      (htakes : a.takes = none) (hm : s.manager.step (.actor k) = some m) :
      Move s (.worker k) { s with manager := m }

theorem move_of_mainStep {s s' : App μ σ} (h : s.mainStep = some s') :
    Move s .main s' := by
  unfold mainStep at h
  split at h
  · simp at h
  · rename_i call script hidle hscript
    obtain ⟨m, hm, rfl⟩ := Option.map_eq_some_iff.mp h
    exact .call call script m hidle hscript hm
  · rename_i hno hcall
    obtain ⟨m, hm, rfl⟩ := Option.map_eq_some_iff.mp h
    refine .main m (fun hidle => ?_) hm
    cases hscript : s.script with
    | nil => exact hno hidle hscript
    | cons call script => exact hcall call script hidle hscript

theorem move_of_actorStep {s s' : App μ σ} {k : Nat}
    (h : s.actorStep k = some s') : Move s (.worker k) s' := by
  unfold actorStep at h
  split at h
  swap
  · simp at h
  rename_i a c ha hc
  split at h
  · rename_i l e todo hpc htodo
    obtain ⟨m, hm, rfl⟩ := Option.map_eq_some_iff.mp h
    exact .command k a c l e todo m ha hc hpc htodo hm
  · rename_i htodo
    obtain ⟨m, hm, rfl⟩ := Option.map_eq_some_iff.mp h
    exact .codeReturn k a c m ha hc (fun _ _ => htodo) hm
  · rename_i hpc
    obtain ⟨m, hm, rfl⟩ := Option.map_eq_some_iff.mp h
    exact .codeReturn k a c m ha hc (by simp [hpc]) hm
  · rename_i hpc
    obtain ⟨m, hm, rfl⟩ := Option.map_eq_some_iff.mp h
    exact .codeReturn k a c m ha hc (by simp [hpc]) hm
  · rename_i l rest hpc hbox
    obtain ⟨m, hm, rfl⟩ := Option.map_eq_some_iff.mp h
    exact .recv k a c l m ha hc (by simp [Runtime.takes, hpc, hbox]) hm
  · rename_i hno1 hno2 hno3 hno4 hno5
    obtain ⟨m, hm, rfl⟩ := Option.map_eq_some_iff.mp h
    refine .actor k a c m ha hc ?_ hm
    unfold Runtime.takes
    split
    · rename_i hpc
      cases hbox : a.mailbox with
      | nil => rfl
      | cons l rest => exact (hno5 l rest hpc hbox).elim
    · rfl

theorem move_of_step {s s' : App μ σ} {t : ThreadId} (h : s.step t = some s') :
    Move s t s' := by
  cases t with
  | main => exact move_of_mainStep h
  | worker k => exact move_of_actorStep h
  | client k => simp [step] at h

/-- The invariant rule for programs. -/
theorem invariant {script : List (MainCall μ σ)} {I : App μ σ → Prop}
    (hstart : I (App.start script))
    (hkeep : ∀ s t s', (machine script).Reachable s → I s → Move s t s' → I s')
    {s : App μ σ} (h : (machine script).Reachable s) : I s := by
  refine h.invariant ?_ ?_
  · rintro _ rfl
    exact hstart
  · intro s t s' hreach hs _ hstep
    exact hkeep s t s' hreach hs (move_of_step hstep)

/-! ## A program runs on the manager -/

theorem plain_label (call : MainCall μ σ) : call.label.plain = true := by
  cases call <;> rfl

theorem plain_labels (e : Command μ) (k : Nat) (ctx : ActorContext) :
    ∀ b ∈ e.labels k ctx, b.plain = true := by
  cases e with
  | send | terminate => simp [Command.labels, ManagerAction.plain]
  | reply msg =>
    unfold Command.labels
    dsimp only
    split <;> simp [ManagerAction.plain]

/-- The manager of a program does what a plain program can make it do. -/
theorem plain {script : List (MainCall μ σ)} {s : App μ σ}
    (h : (machine script).Reachable s) :
    (Manager.machine μ).Reach Manager.Plain s.manager := by
  refine invariant (I := fun s =>
    (Manager.machine μ).Reach Manager.Plain s.manager) (.start rfl) ?_ h
  intro s t s' _ hs hmove
  cases hmove with
  | call call script m hidle hscript hm => exact hs.step (plain_label call) hm
  | command k a c l e todo m ha hc hpc htodo hm =>
    exact hs.exec (fun b hb _ => plain_labels e k a.context b hb) hm
  | main m hbusy hm | codeReturn k a c m ha hc hdone hm
  | recv k a c l m ha hc htakes hm | actor k a c m ha hc htakes hm =>
    refine hs.step ?_ hm
    rfl

theorem managed {script : List (MainCall μ σ)} {s : App μ σ}
    (h : (machine script).Reachable s) :
    (Manager.machine μ).Reach Manager.Managed s.manager :=
  Manager.managed_of_plain (plain h)

end App

end Actors
