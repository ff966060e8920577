import Actors.Manager.Change
import Actors.Manager.Shutdown

/-!
# When `wait` and `end` return

* `joined_all`: when the last thread is joined, every actor that was started has
  ended.  No thread gets lost on the way.
* `join_for_ever`: in a program that only uses the manager, and whose handlers do
  not panic, a `wait` or `end` with a thread to join never returns.
* `end_after_stop`: the hook `end()` of an actor runs only after
  `ActorRuntime::stop`.  The other way out of the loop, a closed mailbox, is
  never taken.
-/

namespace Actors

open Concur

variable {μ : Type}

namespace Manager

/-- The steps of a computed run. -/
theorem run_after (ok : Manager μ → ManagerAction μ → Prop)
    [∀ s b, Decidable (ok s b)] (as : List (ManagerAction μ))
    (h : (after ok as).isSome) :
    (machine μ).Run ok (Machine.trace Manager.step Manager.new as)
      ((after ok as).get h) := by
  have hstart : (machine μ).start new := rfl
  exact Machine.run_exec_get hstart as h

/-! ## `wait` and `end` -/

/-- The actor has no thread, or its thread is one of `ks`, or it has ended. -/
def Accounted (ks : List Nat) (k : Nat) (a : Runtime μ) : Prop :=
  a.pc ≠ .parked → k ∈ ks ∨ a.pc.finished = true

/-- Every actor that was started has a thread to join, or it has ended. -/
structure Tracked (s : Manager μ) : Prop where
  started : ∀ (k : Nat) (a : Runtime μ), s.actors[k]? = some a →
    Accounted (s.threads ++ s.main.joining) k a
  taken : ∀ todo inEnd, s.main = .join todo inEnd → s.threads = []

theorem Accounted.mono {ks ks' : List Nat} {k : Nat} {a : Runtime μ}
    (h : Accounted ks k a) (hks : k ∈ ks → k ∈ ks') : Accounted ks' k a :=
  fun hpc => (h hpc).imp_left hks

/-- A thread that takes a step has not ended. -/
theorem not_finished_of_move {k : Nat} {a a' : Runtime μ} {events : List LifeEvent}
    (h : Runtime.Move k a a' events) : a.pc.finished = false := by
  cases h with
  | begin hpc | initReturn hpc | goOn hpc | leave hpc | recv l rest hpc
  | closed hpc | processReturn l hpc | endReturn hpc =>
    simp [hpc, RuntimePc.finished]

/-- A thread that goes on keeps its handle. -/
theorem Accounted.move {ks : List Nat} {k : Nat} {a a' : Runtime μ}
    {events : List LifeEvent} (h : Accounted ks k a)
    (hmove : Runtime.Move k a a' events) : Accounted ks k a' := by
  intro _
  rcases h (not_parked_of_move hmove).1 with hin | hdead
  · exact Or.inl hin
  · simp [not_finished_of_move hmove] at hdead

theorem tracked_move {s s' : Manager μ} {b : ManagerAction μ}
    (hmove : Move s b s') (h : s.Tracked) : s'.Tracked := by
  obtain ⟨hstarted, htaken⟩ := h
  -- A call that starts in `idle`, or a method that returns.
  have hcall : ∀ {pc : ManagerPc}, s.main.joining = [] → pc.joining = [] →
      ∀ (k : Nat) (a : Runtime μ), s.actors[k]? = some a →
        Accounted (s.threads ++ pc.joining) k a := by
    intro pc hold hnew k a ha
    rw [hnew, ← hold]
    exact hstarted k a ha
  -- A call that takes the handles.
  have htake : ∀ inEnd, s.main.joining = [] →
      ∀ (k : Nat) (a : Runtime μ), s.actors[k]? = some a →
        Accounted ([] ++ ManagerPc.joining (.join s.threads inEnd)) k a := by
    intro inEnd hold k a ha
    have hkeep := hstarted k a ha
    rw [hold, List.append_nil] at hkeep
    exact hkeep
  cases hmove with
  | manage name hidle =>
    refine ⟨forall_getElem?_snoc (fun k a ha => ?_) fun hpc => absurd rfl hpc, htaken⟩
    unfold unregistered at ha
    split at ha
    · refine forall_getElem?_modify hstarted (fun k a ha => ?_) _ k a ha
      exact ha
    · exact hstarted k a ha
  | getRef name k hk | dropRefs k | stop k =>
    refine ⟨forall_getElem?_modify hstarted (fun k a ha => ?_) k, htaken⟩
    exact ha
  | init hidle | run hidle | shutdown hidle | endCall hidle =>
    exact ⟨hcall (by simp [hidle, ManagerPc.joining]) rfl, by simp⟩
  | wait hidle =>
    exact ⟨htake false (by simp [hidle, ManagerPc.joining]), fun _ _ _ => rfl⟩
  | shutdownThenWait hmain =>
    exact ⟨htake true (by simp [hmain, ManagerPc.joining]), fun _ _ _ => rfl⟩
  | spawn k todo hmain =>
    refine ⟨fun j a ha => ?_, by simp⟩
    rw [List.getElem?_modify, Option.map_eq_map, Option.map_eq_some_iff] at ha
    obtain ⟨a0, ha0, rfl⟩ := ha
    by_cases hkj : k = j
    · exact fun _ => Or.inl (by simp [hkj])
    · have hold := hstarted j a0 ha0
      rw [hmain] at hold
      simp only [if_neg hkj]
      refine Accounted.mono (a := a0) hold fun hin => ?_
      rcases List.mem_append.mp hin with hin | hin
      · exact List.mem_append_left _ (List.mem_append_left _ hin)
      · simp [ManagerPc.joining] at hin
  | sendStart k todo a hmain ha hlive =>
    refine ⟨forall_getElem?_set (hcall ?_ rfl) (hcall ?_ rfl k a ha), by simp⟩ <;>
      rw [hmain] <;> rfl
  | sendShutdown k todo inEnd a hmain ha hlive =>
    refine ⟨forall_getElem?_set (hcall ?_ rfl) (hcall ?_ rfl k a ha), by simp⟩ <;>
      rw [hmain] <;> rfl
  | startRefused k todo a hmain ha hdead | initDone hmain | runDone hmain
  | shutdownRefused k todo inEnd a hmain ha hdead | shutdownDone hmain =>
    refine ⟨hcall ?_ rfl, by simp⟩
    rw [hmain]
    rfl
  | join k todo inEnd a hmain ha hfin =>
    have hnil := htaken _ _ hmain
    refine ⟨fun j b hb hpc => ?_, fun _ _ _ => hnil⟩
    rcases hstarted j b hb hpc with hin | hdead
    · rw [hnil, hmain] at hin
      rcases List.mem_cons.mp hin with rfl | hin
      · rw [ha, Option.some.injEq] at hb
        exact Or.inr (hb ▸ hfin)
      · exact Or.inl (List.mem_append_right _ hin)
    · exact Or.inr hdead
  | joined inEnd hmain =>
    refine ⟨hcall ?_ rfl, by simp⟩
    rw [hmain]
    rfl
  | send t k msg sender a hcan hfree ha hlive
  | fastSend t k msg sender a hcan hfree ha hlive | reply k msg a l ha hpc =>
    exact ⟨forall_getElem?_set hstarted (hstarted k a ha), htaken⟩
  | actor b k a a' events hb hfree ha hrun =>
    exact ⟨forall_getElem?_set hstarted ((hstarted k a ha).move hrun), htaken⟩
  | panic k a ha hcode hfree =>
    exact ⟨forall_getElem?_set hstarted fun _ => Or.inr rfl, htaken⟩
  | _ => exact ⟨hstarted, htaken⟩

theorem tracked {ok : Manager μ → ManagerAction μ → Prop} {s : Manager μ}
    (h : (machine μ).Reach ok s) : s.Tracked := by
  refine invariant ?_ ?_ h
  · exact ⟨by simp [new], by simp [new]⟩
  · intro s b s' _ hs _ hmove
    exact tracked_move hmove hs

/-- When `wait` or `end` has joined its last thread, no actor runs: every actor
that was ever started has ended. -/
theorem joined_all {ok : Manager μ → ManagerAction μ → Prop} {s : Manager μ}
    (h : (machine μ).Reach ok s) {inEnd : Bool} (hmain : s.main = .join [] inEnd) :
    ∀ a ∈ s.actors, a.pc ≠ .parked → a.pc.finished = true := by
  intro a ha hpc
  obtain ⟨k, hk⟩ := List.mem_iff_getElem?.mp ha
  rcases (tracked h).started k a hk hpc with hin | hdead
  · rw [(tracked h).taken _ _ hmain, hmain] at hin
    simp [ManagerPc.joining] at hin
  · exact hdead

/-- An actor that panics is joined. -/
theorem joined_all_panic : ∃ s : Manager Nat, s.main = .join [] true ∧
    s.actors.length = 1 ∧ ∀ a ∈ s.actors, a.pc ≠ .parked → a.pc.finished = true := by
  have hrun := reach_after (fun _ _ => True)
    ([.manage "a", .init, .main, .main, .main, .actor 0, .codePanic 0, .endCall,
      .main, .main, .main] : List (ManagerAction Nat)) (by decide)
  exact ⟨_, by decide, by decide, joined_all hrun (show _ = ManagerPc.join [] true by decide)⟩

/-- In a program that only uses the manager, and in which nothing panics, a
`wait` or an `end` that has a thread to join stays at that thread for ever. -/
theorem join_for_ever {tr : List (Manager μ × ManagerAction μ)} {s : Manager μ}
    (h : (machine μ).Run Managed tr s) {y : Manager μ × ManagerAction μ} (hy : y ∈ tr)
    {k : Nat} {todo : List Nat} {inEnd : Bool}
    (hmain : y.1.main = .join (k :: todo) inEnd) :
    s.main = .join (k :: todo) inEnd := by
  refine h.stable (P := fun s => s.main = .join (k :: todo) inEnd) ?_ hy hmain
  intro s b s' hreach _ hstep hs
  cases move_of_step hstep with
  | join j rest _ a hpc ha hfin =>
    rw [(alive hreach a (List.mem_of_getElem? ha)).inLoop.2] at hfin
    simp at hfin
  | manage _ hpc | init hpc | run hpc | shutdown hpc | wait hpc | endCall hpc
  | sendStart _ _ _ hpc | startRefused _ _ _ hpc | spawn _ _ hpc | initDone hpc
  | runDone hpc | sendShutdown _ _ _ _ hpc | shutdownRefused _ _ _ _ hpc
  | shutdownThenWait hpc | shutdownDone hpc | joined _ hpc =>
    rw [hs] at hpc
    simp at hpc
  | _ => exact hs

/-- `wait` for one actor, while the application sends to it. -/
theorem join_for_ever_one : ∃ tr, ∃ s : Manager Nat,
    (machine Nat).Run Managed tr s ∧ (s.actors.map fun a => a.mailbox.length) = [1] ∧
      s.main = .join [0] false := by
  have hrun := run_after Managed
    ([.manage "a", .init, .main, .main, .main, .wait, .actor 0, .codeReturn 0,
      .actor 0, .actor 0, .codeReturn 0, .send (.client 0) 0 (.user 1) none] :
      List (ManagerAction Nat)) (by decide)
  have hjoin := join_for_ever hrun (List.mem_of_getElem? (i := 6) rfl) rfl
  exact ⟨_, _, hrun, by decide, hjoin⟩

/-! ## `end()` -/

/-- An actor stops only when it is told to: while its thread lives it holds its
own `Sender`, `running` is cleared by `stop` only, and the thread is in `end()`
only then. -/
structure Commanded (stopped : Prop) (a : Runtime μ) : Prop where
  holds : a.pc.finished = false → Holder.runtime ∈ a.senders
  running : a.running = false → stopped

theorem Commanded.move {stopped : Prop} {k : Nat} {a a' : Runtime μ}
    {events : List LifeEvent} (h : Commanded stopped a)
    (hmove : Runtime.Move k a a' events) :
    Commanded stopped a' ∧ (LifeEvent.endBegin ∈ events → stopped) := by
  cases hmove with
  | leave hpc hrun =>
    exact ⟨⟨fun _ => h.holds (by rw [hpc]; rfl), h.running⟩, fun _ => h.running hrun⟩
  | closed hpc hbox hsenders =>
    have hholds := h.holds (by rw [hpc]; rfl)
    rw [hsenders] at hholds
    simp at hholds
  | endReturn hpc =>
    refine ⟨⟨fun hlive => ?_, h.running⟩, by simp⟩
    simp [Runtime.finish, RuntimePc.finished] at hlive
  | begin hpc | initReturn hpc | goOn hpc | recv l rest hpc hbox
  | processReturn l hpc =>
    exact ⟨⟨fun _ => h.holds (by rw [hpc]; rfl), h.running⟩, by simp⟩

/-- `stopped k` holds once `stop` was called for actor `k`. -/
theorem commanded_move {stopped : Nat → Prop} {s s' : Manager μ}
    {b : ManagerAction μ} (howned : s.Owned) (hmove : Move s b s')
    (hstop : ∀ k, b = .stop k → stopped k)
    (h : ∀ (k : Nat) (a : Runtime μ), s.actors[k]? = some a →
      Commanded (stopped k) a) :
    (∀ (k : Nat) (a : Runtime μ), s'.actors[k]? = some a → Commanded (stopped k) a) ∧
    ∀ e ∈ s'.history, e ∈ s.history ∨ (e.2 = .endBegin → stopped e.1) := by
  have hsame : ∀ e ∈ s.history, e ∈ s.history ∨ (e.2 = .endBegin → stopped e.1) :=
    fun _ => Or.inl
  cases hmove with
  | manage name hidle =>
    refine ⟨forall_getElem?_snoc (fun k a ha => ?_) ?_, hsame⟩
    · unfold unregistered at ha
      split at ha
      · refine forall_getElem?_modify h (fun k a ha => ?_) _ k a ha
        exact ⟨fun hlive => by simp [dropRegistered, ha.holds hlive], ha.running⟩
      · exact h k a ha
    · exact ⟨fun _ => by simp [managed, Runtime.new],
        fun hrun => by simp [managed, Runtime.new] at hrun⟩
  | getRef name k hk =>
    refine ⟨forall_getElem?_modify h (fun k a ha => ?_) k, hsame⟩
    exact ⟨fun hlive => List.mem_append_left _ (ha.holds hlive), ha.running⟩
  | dropRefs k =>
    refine ⟨forall_getElem?_modify h (fun k a ha => ?_) k, hsame⟩
    exact ⟨fun hlive => by simp [ha.holds hlive], ha.running⟩
  | spawn k todo hmain =>
    refine ⟨fun j a ha => ?_, hsame⟩
    rw [List.getElem?_modify, Option.map_eq_map, Option.map_eq_some_iff] at ha
    obtain ⟨a0, ha0, rfl⟩ := ha
    split
    · rename_i hkj
      subst hkj
      -- The runtime was the manager's, so it had not dropped its `Sender`.
      have hpc : a0.pc = .parked :=
        (howned.parked k a0.pc (by simp [pcs, ha0])).mpr
          (by simp [hmain, ManagerPc.starting])
      exact ⟨fun _ => (h k a0 ha0).holds (by rw [hpc]; rfl), (h k a0 ha0).running⟩
    · exact h j a0 ha0
  | stop k =>
    refine ⟨fun j a ha => ?_, hsame⟩
    rw [List.getElem?_modify, Option.map_eq_map, Option.map_eq_some_iff] at ha
    obtain ⟨a0, ha0, rfl⟩ := ha
    by_cases hkj : k = j
    · rw [if_pos hkj]
      exact ⟨(h j a0 ha0).holds, fun _ => hstop j (by rw [hkj])⟩
    · rw [if_neg hkj]
      exact h j a0 ha0
  | sendStart k todo a hmain ha hlive | sendShutdown k todo inEnd a hmain ha hlive
  | send t k msg sender a hcan hfree ha hlive
  | fastSend t k msg sender a hcan hfree ha hlive | reply k msg a l ha hpc =>
    exact ⟨forall_getElem?_set h ⟨(h k a ha).holds, (h k a ha).running⟩, hsame⟩
  | actor b k a a' events hb hfree ha hrun =>
    obtain ⟨hcommanded, hend⟩ := (h k a ha).move hrun
    refine ⟨forall_getElem?_set h hcommanded, fun e he => ?_⟩
    rcases List.mem_append.mp he with he | he
    · exact Or.inl he
    · obtain ⟨event, hevent, rfl⟩ := List.mem_map.mp he
      exact Or.inr fun heq => hend (heq ▸ hevent)
  | panic k a ha hcode hfree =>
    refine ⟨forall_getElem?_set h ⟨fun hlive => ?_, (h k a ha).running⟩, hsame⟩
    simp [Runtime.finish, RuntimePc.finished] at hlive
  | _ => exact ⟨h, hsame⟩

/-- The hook `end()` of an actor begins only after `ActorRuntime::stop` was
called for it. -/
theorem end_after_stop {ok : Manager μ → ManagerAction μ → Prop}
    {tr : List (Manager μ × ManagerAction μ)} {s : Manager μ}
    (h : (machine μ).Run ok tr s) {k : Nat} (hend : (k, .endBegin) ∈ s.history) :
    ∃ y ∈ tr, y.2 = .stop k := by
  have hall := h.invariant (I := fun tr s =>
    (∀ (k : Nat) (a : Runtime μ), s.actors[k]? = some a →
      Commanded (∃ y ∈ tr, y.2 = .stop k) a) ∧
    ∀ e ∈ s.history, e.2 = .endBegin → ∃ y ∈ tr, y.2 = .stop e.1) ?_ ?_
  · exact hall.2 _ hend rfl
  · rintro s rfl
    simp [new]
  · rintro tr s b s' hreach ⟨hactors, hhistory⟩ _ hstep
    have hmono : ∀ j, (∃ y ∈ tr, y.2 = .stop j) →
        ∃ y ∈ tr ++ [(s, b)], y.2 = .stop j := by
      rintro j ⟨y, hy, hstop⟩
      exact ⟨y, List.mem_append_left _ hy, hstop⟩
    have hnew : ∀ j, b = .stop j → ∃ y ∈ tr ++ [(s, b)], y.2 = .stop j :=
      fun j hb => ⟨(s, b), by simp, hb⟩
    obtain ⟨hactors', hhistory'⟩ := commanded_move (owned hreach)
      (move_of_step hstep) hnew
      (fun j a ha => ⟨(hactors j a ha).holds,
        fun hrun => hmono j ((hactors j a ha).running hrun)⟩)
    refine ⟨hactors', fun e he heq => ?_⟩
    rcases hhistory' e he with hold | hnew
    · exact hmono _ (hhistory e hold heq)
    · exact hnew heq

/-- An actor that is stopped. -/
theorem end_after_stop_one : ∃ tr, ∃ s : Manager Nat,
    (machine Nat).Run (fun _ _ => True) tr s ∧ (0, .endBegin) ∈ s.history ∧
      ∃ y ∈ tr, y.2 = .stop 0 := by
  have hrun := run_after (fun _ _ => True)
    ([.manage "a", .init, .main, .main, .main, .stop 0, .actor 0, .codeReturn 0,
      .actor 0] : List (ManagerAction Nat)) (by decide)
  exact ⟨_, _, hrun, by decide, end_after_stop hrun (by decide)⟩

end Manager

end Actors
