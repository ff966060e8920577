import Actors.Actor.Runtime
import Actors.Lib.Lists
import Actors.Lib.Machine

/-!
# Stopping an actor

`ActorRuntime::run` tests the flag before each `recv`, and `ActorRuntime::stop`
clears it.  What is in the mailbox when the flag is found cleared stays there.

* `Runtime.machine` is one runtime from `ActorRuntime::new` on.  Any thread can
  send through a `Sender` of its mailbox and clear the flag, at any moment.
* `Runtime.ahead` is how many letters the thread takes once the flag is cleared:
  one when it has tested the flag already and has not received yet, else none.
* `handed_before_end_iff` says which calls of `stop` leave no letter behind.
-/

namespace Actors

open Concur

variable {μ : Type}

/-- The labels of the machine. -/
inductive RuntimeAction (μ : Type) where
  /-- A thread calls `run`. -/
  | call
  /-- The next step of `run` outside of the code of the application. -/
  | run
  /-- A hook or `process_message` returns.  After `end()` the thread drops the
  runtime. -/
  | codeReturn
  /-- `run` returns to an owner that keeps the runtime, or unwinds to it. -/
  | giveBack
  /-- A hook or `process_message` panics, and the runtime is dropped. -/
  | codePanic
  /-- `process_message` works on its context, with `reply` or `set_self_ref`. -/
  | context (ctx : ActorContext)
  /-- A send through a `Sender` of the mailbox that `h` holds. -/
  | send (h : Holder) (l : Letter μ)
  | clone (h h' : Holder)
  | dropSender (h : Holder)
  /-- `ActorRuntime::stop`, or its store through a clone of the field `running`. -/
  | stop
  deriving DecidableEq, Repr

namespace Runtime

/-- One step of the runtime that has the number `k`. -/
def next (k : Nat) (a : Runtime μ) : RuntimeAction μ → Option (Runtime μ)
  | .call =>
    match a.pc with
    | .parked => some { a with pc := .spawned }
    | _ => none
  | .run => (a.runStep k).map Prod.fst
  | .codeReturn => a.codeReturn.map Prod.fst
  | .giveBack => if a.pc.inCode then some { a with pc := .parked } else none
  | .codePanic => a.codePanic
  | .context ctx =>
    match a.pc with
    | .process _ => some { a with context := ctx }
    | _ => none
  | .send h l => if h ∈ a.senders then some (a.deliver l) else none
  | .clone h h' =>
    if h ∈ a.senders then some { a with senders := a.senders ++ [h'] } else none
  | .dropSender h => some { a with senders := a.senders.erase h }
  | .stop => some a.stop

/-- One runtime, from `ActorRuntime::new` on. -/
def machine (μ : Type) (k : Nat) : Machine (Runtime μ) (RuntimeAction μ) :=
  .ofNext (fun a => ∃ name, a = new k name) (next k)

/-- What one step does to the runtime. -/
inductive Step (k : Nat) (a : Runtime μ) : RuntimeAction μ → Runtime μ → Prop where
  | call (hpc : a.pc = .parked) : Step k a .call { a with pc := .spawned }
  | thread (b : RuntimeAction μ) (a' : Runtime μ) (events : List LifeEvent)
      (hb : b = .run ∨ b = .codeReturn) (hmove : Move k a a' events) : Step k a b a'
  | giveBack (hcode : a.pc.inCode = true) :
      Step k a .giveBack { a with pc := .parked }
  | panic (hcode : a.pc.inCode = true) : Step k a .codePanic (a.finish .panicked)
  | accept (h : Holder) (l : Letter μ) (hlive : a.pc.finished = false) :
      Step k a (.send h l) (a.accept l)
  | stop : Step k a .stop a.stop
  /-- The context or the list of the holders changes, or nothing does. -/
  | other (b : RuntimeAction μ) (ctx : ActorContext) (hs : List Holder)
      (hb : b ≠ .stop) : Step k a b { a with context := ctx, senders := hs }

theorem step_of_next {k : Nat} {a a' : Runtime μ} {b : RuntimeAction μ}
    (h : a.next k b = some a') : Step k a b a' := by
  cases b with
  | call =>
    simp only [next] at h
    split at h
    · rename_i hpc
      rw [Option.some.injEq] at h
      exact h ▸ .call hpc
    · simp at h
  | run =>
    obtain ⟨x, hx, rfl⟩ := Option.map_eq_some_iff.mp h
    exact .thread _ x.1 x.2 (Or.inl rfl) (move_of_runStep hx)
  | codeReturn =>
    obtain ⟨x, hx, rfl⟩ := Option.map_eq_some_iff.mp h
    exact .thread _ x.1 x.2 (Or.inr rfl) (move_of_codeReturn hx)
  | giveBack =>
    simp only [next] at h
    split at h
    · rename_i hcode
      rw [Option.some.injEq] at h
      exact h ▸ .giveBack hcode
    · simp at h
  | codePanic =>
    simp only [next, codePanic] at h
    split at h
    · rename_i hcode
      rw [Option.some.injEq] at h
      exact h ▸ .panic hcode
    · simp at h
  | context ctx =>
    simp only [next] at h
    split at h
    · rw [Option.some.injEq] at h
      exact h ▸ .other _ ctx a.senders (by simp)
    · simp at h
  | send x l =>
    simp only [next, deliver] at h
    split at h
    · rw [Option.some.injEq] at h
      split at h
      · exact h ▸ .other _ a.context a.senders (by simp)
      · rename_i hlive
        exact h ▸ .accept x l (by simpa using hlive)
    · simp at h
  | clone x y =>
    simp only [next] at h
    split at h
    · rw [Option.some.injEq] at h
      exact h ▸ .other _ a.context _ (by simp)
    · simp at h
  | dropSender x =>
    rw [next, Option.some.injEq] at h
    exact h ▸ .other _ a.context _ (by simp)
  | stop =>
    rw [next, Option.some.injEq] at h
    exact h ▸ .stop

/-- The mailbox keeps order and loses nothing, whoever sends, stops or panics. -/
theorem inOrder_step {k : Nat} {a a' : Runtime μ} {b : RuntimeAction μ}
    (h : a.InOrder) (hstep : Step k a b a') : a'.InOrder := by
  cases hstep with
  | call hpc => exact h.frame rfl rfl fun _ => ⟨by rw [hpc]; rfl, rfl⟩
  | thread b a' events hb hmove => exact h.move hmove
  | giveBack hcode =>
    refine h.frame rfl rfl fun _ => ⟨?_, rfl⟩
    cases hpc : a.pc <;> simp [hpc, RuntimePc.inCode, RuntimePc.finished] at hcode ⊢
  | panic => exact h.frame rfl rfl (by simp [finish, RuntimePc.finished])
  | accept x l hlive => exact h.accept hlive l
  | stop | other => exact h.frame rfl rfl fun hlive => ⟨hlive, rfl⟩

theorem inOrder_of_reach {k : Nat} {ok : Runtime μ → RuntimeAction μ → Prop}
    {a : Runtime μ} (h : (machine μ k).Reach ok a) : a.InOrder := by
  refine h.invariant ?_ ?_
  · rintro a ⟨name, rfl⟩
    exact inOrder_new k name
  · intro a b a' _ ha _ hstep
    exact inOrder_step ha (step_of_next hstep)

/-! ## After the flag is cleared -/

/-- How many letters the thread takes when the flag is cleared now. -/
def ahead (a : Runtime μ) : Nat :=
  match a.pc with
  | .recv => 1
  | _ => 0

/-- The step clears the flag. -/
def Clears (a : Runtime μ) (b : RuntimeAction μ) : Prop := b = .stop ∧ a.running = true

instance (a : Runtime μ) (b : RuntimeAction μ) : Decidable (a.Clears b) :=
  match b with
  | .stop => decidable_of_iff (a.running = true) (by simp [Clears])
  | .call | .run | .codeReturn | .giveBack | .codePanic | .context _ | .send _ _
  | .clone _ _ | .dropSender _ => isFalse (by simp [Clears])

/-- `a` comes after the flag was cleared in `a0`.  What the thread has taken and
still takes is what it had taken and would still take then. -/
structure After (a0 a : Runtime μ) : Prop where
  off : a.running = false
  grown : a0.accepted <+: a.accepted
  dead : a0.pc.finished = true → a.pc.finished = true
  atMost : a.handed.length + a.ahead ≤ a0.handed.length + a0.ahead
  atLeast : a0.mailbox.length ≤ a0.ahead → a.pc.finished = false →
    a0.accepted.length ≤ a.handed.length + a.ahead

theorem InOrder.length_accepted {a : Runtime μ} (h : a.InOrder)
    (hlive : a.pc.finished = false) :
    a.accepted.length = a.handed.length + a.mailbox.length := by
  rw [h.rest hlive, List.length_append, letters, List.length_map]

/-- The flag has just been cleared. -/
theorem after_stop {a : Runtime μ} (h : a.InOrder) : After a a.stop where
  off := rfl
  grown := List.prefix_refl _
  dead := id
  atMost := Nat.le_refl (a.handed.length + a.ahead)
  atLeast hbox hlive := by
    have hlen := h.length_accepted hlive
    have hahead : a.stop.ahead = a.ahead := rfl
    have hhanded : a.stop.handed = a.handed := rfl
    rw [hahead, hhanded]
    omega

/-- A step that neither ends the thread nor changes what it takes. -/
theorem After.frame {a0 a a' : Runtime μ} (h : After a0 a)
    (hrunning : a'.running = false) (hhanded : a'.handed = a.handed)
    (haccepted : a.accepted <+: a'.accepted) (hahead : a'.ahead = a.ahead)
    (hfinished : a'.pc.finished = a.pc.finished) : After a0 a' where
  off := hrunning
  grown := h.grown.trans haccepted
  dead hdead := hfinished.trans (h.dead hdead)
  atMost := by
    rw [hhanded, hahead]
    exact h.atMost
  atLeast hbox hlive := by
    rw [hhanded, hahead]
    exact h.atLeast hbox (hfinished.symm.trans hlive)

/-- The thread ends. -/
theorem After.finish {a0 a : Runtime μ} (h : After a0 a) {pc : RuntimePc μ}
    (hpc : pc.finished = true) : After a0 (a.finish pc) where
  off := h.off
  grown := h.grown
  dead _ := hpc
  atMost := by
    have hatMost := h.atMost
    have hahead : (a.finish pc).ahead = 0 := by
      cases pc <;> first | rfl | simp [RuntimePc.finished] at hpc
    have hhanded : (a.finish pc).handed = a.handed := rfl
    rw [hahead, hhanded]
    omega
  atLeast _ hlive := by
    rw [show (a.finish pc).pc = pc from rfl, hpc] at hlive
    simp at hlive

/-- Once the flag is cleared, the thread takes one letter if it waits for one, and
then none. -/
theorem After.move {a0 a a' : Runtime μ} {k : Nat} {events : List LifeEvent}
    (h : After a0 a) (horder : a.InOrder) (hmove : Move k a a' events) :
    After a0 a' := by
  have hatMost := h.atMost
  cases hmove with
  | begin hpc | initReturn hpc | leave hpc | processReturn l hpc =>
    exact h.frame h.off rfl (List.prefix_refl _) (by simp [ahead, hpc])
      (by simp [hpc, RuntimePc.finished])
  | goOn hpc hrun =>
    rw [h.off] at hrun
    simp at hrun
  | recv l rest hpc hbox =>
    have hahead : a.ahead = 1 := by simp [ahead, hpc]
    have hlive : a.pc.finished = false := by rw [hpc]; rfl
    refine ⟨h.off, h.grown, fun hdead => ?_, ?_, fun hle _ => ?_⟩
    · rw [h.dead hdead] at hlive
      simp at hlive
    · show (a.handed ++ [_]).length + 0 ≤ _
      rw [List.length_append, List.length_singleton]
      omega
    · have hatLeast := h.atLeast hle hlive
      show _ ≤ (a.handed ++ [_]).length + 0
      rw [List.length_append, List.length_singleton]
      omega
  | closed hpc hbox =>
    have hlive : a.pc.finished = false := by rw [hpc]; rfl
    have hlen := horder.length_accepted hlive
    have hgrown := h.grown.length_le
    rw [hbox, List.length_nil] at hlen
    refine ⟨h.off, h.grown, fun hdead => ?_, ?_, fun _ _ => ?_⟩
    · rw [h.dead hdead] at hlive
      simp at hlive
    · show a.handed.length + 0 ≤ _
      omega
    · show _ ≤ a.handed.length + 0
      omega
  | endReturn => exact h.finish rfl

theorem After.step {a0 a a' : Runtime μ} {k : Nat} {b : RuntimeAction μ}
    (h : After a0 a) (horder : a.InOrder) (hstep : Step k a b a') : After a0 a' := by
  cases hstep with
  | call hpc =>
    exact h.frame h.off rfl (List.prefix_refl _) (by simp [ahead, hpc])
      (by simp [hpc, RuntimePc.finished])
  | thread b a' events hb hmove => exact h.move horder hmove
  | giveBack hcode =>
    refine h.frame h.off rfl (List.prefix_refl _) ?_ ?_ <;>
      cases hpc : a.pc <;>
      simp [ahead, hpc, RuntimePc.inCode, RuntimePc.finished] at hcode ⊢
  | panic => exact h.finish rfl
  | accept x l hlive => exact h.frame h.off rfl (List.prefix_append _ _) rfl rfl
  | stop => exact h.frame rfl rfl (List.prefix_refl _) rfl rfl
  | other => exact h.frame h.off rfl (List.prefix_refl _) rfl rfl

/-- Every state of a run comes after each clearing of the flag before it. -/
theorem after_of_run {k : Nat} {tr : List (Runtime μ × RuntimeAction μ)}
    {a : Runtime μ} (h : (machine μ k).Run (fun _ _ => True) tr a) :
    ∀ x ∈ tr, x.1.Clears x.2 → x.1.InOrder ∧ After x.1 a := by
  refine h.invariant (I := fun tr a =>
    ∀ x ∈ tr, x.1.Clears x.2 → x.1.InOrder ∧ After x.1 a) (by simp) ?_
  intro tr a b a' hreach htr _ hnext
  have horder := inOrder_of_reach hreach
  have hstep := step_of_next hnext
  refine forall_mem_snoc (fun x hx hclears => ?_) ?_
  · exact ⟨(htr x hx hclears).1, (htr x hx hclears).2.step horder hstep⟩
  · rintro ⟨rfl, -⟩
    rw [machine, Machine.ofNext_step, next, Option.some.injEq] at hnext
    exact ⟨horder, hnext ▸ after_stop horder⟩

/-- For one clearing of the flag: when `run` calls `end()`, all letters that the
mailbox had accepted have been handed over if and only if no more of them were in
the mailbox than the thread still takes. -/
theorem After.accepted_prefix_iff {a0 a : Runtime μ} (h : After a0 a)
    (horder0 : a0.InOrder) (horder : a.InOrder) (hend : a.pc = .endHook) :
    a0.accepted <+: a.letters ↔ a0.mailbox.length ≤ a0.ahead := by
  have hlive : a.pc.finished = false := by rw [hend]; rfl
  have hlive0 : a0.pc.finished = false := by
    by_contra hdead
    rw [h.dead (by simpa using hdead)] at hlive
    simp at hlive
  have hahead : a.ahead = 0 := by simp [ahead, hend]
  have hlen := horder0.length_accepted hlive0
  have hletters : a.letters.length = a.handed.length := List.length_map _
  constructor
  · intro hprefix
    have hle := hprefix.length_le
    have hatMost := h.atMost
    omega
  · intro hbox
    have hatLeast := h.atLeast hbox hlive
    refine List.prefix_of_prefix_length_le h.grown horder.handed_prefix ?_
    omega

/-- In every run of an actor, whoever sends to it, and whenever `stop` is called:
when `run` calls `end()`, every letter that the mailbox had accepted before the
flag was cleared has been passed to `process_message`, in the order accepted, if
and only if the mailbox was empty when the flag was cleared, or held a single
letter and the thread was in `recv`. -/
theorem handed_before_end_iff {k : Nat} {tr : List (Runtime μ × RuntimeAction μ)}
    {a : Runtime μ} (h : (machine μ k).Run (fun _ _ => True) tr a)
    (hend : a.pc = .endHook) :
    (∀ x ∈ tr, x.1.Clears x.2 → x.1.accepted <+: a.letters) ↔
      ∀ x ∈ tr, x.1.Clears x.2 → x.1.mailbox.length ≤ x.1.ahead := by
  have hafter := after_of_run h
  have horder := inOrder_of_reach h.reach
  constructor
  · intro hall x hx hclears
    obtain ⟨horder0, hx0⟩ := hafter x hx hclears
    exact (hx0.accepted_prefix_iff horder0 horder hend).mp (hall x hx hclears)
  · intro hall x hx hclears
    obtain ⟨horder0, hx0⟩ := hafter x hx hclears
    exact (hx0.accepted_prefix_iff horder0 horder hend).mpr (hall x hx hclears)

theorem run_after (k : Nat) (name : String) (bs : List (RuntimeAction μ))
    (h : (Machine.exec (Machine.guarded (fun _ _ => True) (next k)) (new k name)
      bs).isSome) :
    (machine μ k).Run (fun _ _ => True) (Machine.trace (next k) (new k name) bs)
      ((Machine.exec (Machine.guarded (fun _ _ => True) (next k)) (new k name)
        bs).get h) :=
  Machine.run_exec_get ⟨name, rfl⟩ bs h

/-- A message of the application. -/
def note (n : Nat) : Letter Nat :=
  { id := n, author := .client 0, via := 0, addressee := "a"
    envelope := .new (.user n) none }

/-- The actor runs up to its first `recv`. -/
def untilRecv : List (RuntimeAction Nat) :=
  [.clone .runtime .application, .call, .run, .codeReturn, .run]

/-- The flag is cleared while the thread is in `recv` and one letter is queued. -/
theorem handed_before_end_last :
    ∃ (tr : List (Runtime Nat × RuntimeAction Nat)) (a : Runtime Nat),
      a.pc = .endHook ∧ (∃ x ∈ tr, x.1.Clears x.2 ∧ x.1.mailbox = [note 0]) ∧
      ∀ x ∈ tr, x.1.Clears x.2 → x.1.accepted <+: a.letters := by
  have hrun := run_after 0 "a" (untilRecv ++
    [.send .application (note 0), .stop, .run, .codeReturn, .run]) (by decide)
  exact ⟨_, _, by decide, by decide,
    (handed_before_end_iff hrun (by decide)).mpr (by decide)⟩

/-- The flag is cleared while a letter is handled and another one is queued. -/
theorem not_handed_before_end :
    ¬ ∀ (tr : List (Runtime Nat × RuntimeAction Nat)) (a : Runtime Nat),
      (machine Nat 0).Run (fun _ _ => True) tr a → a.pc = .endHook →
        ∀ x ∈ tr, x.1.Clears x.2 → x.1.accepted <+: a.letters := by
  intro h
  have hrun := run_after 0 "a" (untilRecv ++
    [.send .application (note 0), .send .application (note 1), .run, .stop,
      .codeReturn, .run]) (by decide)
  have hall := h _ _ hrun (by decide)
  revert hall
  decide

end Runtime

end Actors
