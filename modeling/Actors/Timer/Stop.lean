import Actors.Lib.Lists
import Actors.Timer.Step

/-!
# Stopping a timer

There are two ways to stop a timer, and they differ in what they wait for.

`cancel` stores the flag and returns.  A thread that has read `true` before the
store still sends: `cancel_final` says that `cancel` is final in every run in which
it does not return while the thread stands between the read and the send.

`drop` waits for the thread to end.  `drop_clean` says that this is always enough,
also when the target's own handler drops the timer, because the thread never waits
for the target: its `send` puts the message into the mailbox.
-/

namespace Actors

open Concur

variable {μ : Type}

namespace TimerSystem

/-- One step, by outcome. -/
inductive Move (c : TimerConfig) (s : TimerSystem μ) :
    TimerAction μ → TimerSystem μ → Prop where
  -- The thread of the timer.
  | check (p : Bool) (hpc : s.pc = .check) :
      Move c s (.timer p) { s with pc := if s.running then .sleep else .done }
  | sleep (p : Bool) (hpc : s.pc = .sleep) :
      Move c s (.timer p) { s with pc := .test, sleeps := s.sleeps + 1 }
  | test (p : Bool) (hpc : s.pc = .test) :
      Move c s (.timer p) { s with pc := if s.running then .send else c.kind.next }
  | send (p : Bool) (actor : Runtime μ) (hpc : s.pc = .send) :
      Move c s (.timer p) { s with
        pc := c.kind.next, sent := s.sent ++ [c.envelope], actor }
  | sendPanic (p : Bool) (hpc : s.pc = .send) :
      Move c s (.timer p) { s with pc := .done }
  -- `cancel` and `drop`.
  | cancelStore (t : ThreadId) (hdrop : s.drop = .owned) :
      Move c s (.cancelStore t) { s with
        running := false, cancelling := s.cancelling ++ [t] }
  | cancelReturn (t : ThreadId) (ht : t ∈ s.cancelling) :
      Move c s (.cancelReturn t)
        { s.markCancel with cancelling := s.cancelling.erase t }
  | dropCall (t : ThreadId) (hdrop : s.drop = .owned) :
      Move c s (.dropCall t) { s with drop := .called t }
  | dropStore (t : ThreadId) (hdrop : s.drop = .called t) :
      Move c s .dropStore { s with running := false, drop := .stored t }
  | dropCancelReturn (t : ThreadId) (hdrop : s.drop = .stored t) :
      Move c s .dropCancelReturn { s.markCancel with drop := .joining t }
  | join (t : ThreadId) (hdrop : s.drop = .joining t) (hpc : s.pc = .done) :
      Move c s .join { s with
        drop := .returned, dropMark := some s.sent.length }
  -- The target.
  | target (a : TimerAction μ) (actor : Runtime μ) : Move c s a { s with actor }

theorem move_of_timerStep {c : TimerConfig} {s s' : TimerSystem μ} {p : Bool}
    (h : s.timerStep c p = some s') : Move c s (.timer p) s' := by
  unfold timerStep at h
  split at h
  case h_1 hpc =>
    rw [Option.some.injEq] at h
    exact h ▸ .check p hpc
  case h_2 hpc =>
    rw [Option.some.injEq] at h
    exact h ▸ .sleep p hpc
  case h_3 hpc =>
    rw [Option.some.injEq] at h
    exact h ▸ .test p hpc
  case h_4 hpc =>
    rw [Option.some.injEq] at h
    unfold sendTimeout at h
    split at h
    · exact h ▸ .send p _ hpc
    · split at h
      · exact h ▸ .sendPanic p hpc
      · exact h ▸ .send p s.actor hpc
  case h_5 => simp at h

theorem move_of_dropStep {c : TimerConfig} {s s' : TimerSystem μ}
    {a : TimerAction μ} (h : s.dropStep a = some s') : Move c s a s' := by
  unfold dropStep at h
  split at h
  · split at h
    · rename_i t hdrop
      rw [Option.some.injEq] at h
      exact h ▸ .dropStore t hdrop
    · simp at h
  · split at h
    · rename_i t hdrop
      rw [Option.some.injEq] at h
      exact h ▸ .dropCancelReturn t hdrop
    · simp at h
  · split at h
    · rename_i t hdrop
      split at h
      · rename_i hpc
        rw [Option.some.injEq] at h
        exact h ▸ .join t hdrop hpc
      · simp at h
    · simp at h
  · simp at h

theorem move_of_actorStep {c : TimerConfig} {s s' : TimerSystem μ}
    {a : TimerAction μ} (h : s.actorStep a = some s') : Move c s a s' := by
  unfold actorStep at h
  split at h
  · obtain ⟨x, -, rfl⟩ := Option.map_eq_some_iff.mp h
    exact .target _ x.1
  · split at h
    · simp at h
    · obtain ⟨x, -, rfl⟩ := Option.map_eq_some_iff.mp h
      exact .target _ x.1
  · split at h
    · simp at h
    · obtain ⟨actor, -, rfl⟩ := Option.map_eq_some_iff.mp h
      exact .target _ actor
  · simp at h

theorem move_of_step {c : TimerConfig} {s s' : TimerSystem μ} {a : TimerAction μ}
    (h : s.step c a = some s') : Move c s a s' := by
  cases a with
  | timer p => exact move_of_timerStep h
  | cancelStore t =>
    simp only [step] at h
    split at h
    · rename_i hcond
      rw [Option.some.injEq] at h
      exact h ▸ .cancelStore t hcond.1
    · simp at h
  | cancelReturn t =>
    simp only [step] at h
    split at h
    · rename_i ht
      rw [Option.some.injEq] at h
      exact h ▸ .cancelReturn t ht
    · simp at h
  | dropCall t =>
    simp only [step] at h
    split at h
    · rename_i hcond
      rw [Option.some.injEq] at h
      exact h ▸ .dropCall t hcond.1
    · simp at h
  | dropStore | dropCancelReturn | join => exact move_of_dropStep h
  | actor | codeReturn | codePanic => exact move_of_actorStep h
  | deliver l =>
    rw [step, Option.some.injEq] at h
    exact h ▸ .target _ _
  | actorStop =>
    rw [step, Option.some.injEq] at h
    exact h ▸ .target _ _

/-- The invariant rule of a timer. -/
theorem invariant {c : TimerConfig} {ok : TimerSystem μ → TimerAction μ → Prop}
    {I : TimerSystem μ → Prop} (hstart : ∀ actor, I (start c actor))
    (hkeep : ∀ s a s', I s → ok s a → Move c s a s' → I s')
    {s : TimerSystem μ} (h : (machine μ c).Reach ok s) : I s := by
  refine h.invariant ?_ ?_
  · rintro s ⟨actor, rfl⟩
    exact hstart actor
  · intro s a s' _ hs hok hstep
    exact hkeep s a s' hs hok (move_of_step hstep)

/-! ## `cancel` -/

/-- Since the first return of `cancel` nothing was sent. -/
def Final (s : TimerSystem μ) : Prop := ∀ n ∈ s.cancelMark, s.sent.length = n

/-- `cancel` does not return between the read of the flag and the send. -/
def Settled (s : TimerSystem μ) : TimerAction μ → Prop
  | .cancelReturn _ | .dropCancelReturn => s.pc ≠ .send
  | _ => True

instance (s : TimerSystem μ) (a : TimerAction μ) : Decidable (s.Settled a) :=
  match a with
  | .cancelReturn _ | .dropCancelReturn => inferInstanceAs (Decidable (_ ≠ _))
  | .timer _ | .cancelStore _ | .dropCall _ | .dropStore | .join | .deliver _
  | .actor | .codeReturn | .codePanic | .actorStop => isTrue trivial

end TimerSystem

/-- The flag is cleared for the `drop`. -/
def DropPc.cleared : DropPc → Bool
  | .stored _ | .joining _ | .returned => true
  | .owned | .called _ => false

namespace TimerSystem

/-- A thread is in `cancel`, or a call of it has returned. -/
def Cancelled (s : TimerSystem μ) : Prop :=
  s.cancelling ≠ [] ∨ s.drop.cleared = true ∨ s.cancelMark.isSome

/-- Once the flag is cleared the thread of the timer does not come to a send. -/
structure Quiet (s : TimerSystem μ) : Prop where
  flag : s.Cancelled → s.running = false
  marked : ∀ n ∈ s.cancelMark, s.pc ≠ .send ∧ s.sent.length = n

theorem next_ne_send (k : TimerKind) : k.next ≠ .send := by
  cases k <;> simp [TimerKind.next]

/-- A return of `cancel` while the thread is not at a send. -/
theorem Quiet.markCancel {s : TimerSystem μ} (h : s.Quiet) (hpc : s.pc ≠ .send) :
    ∀ n ∈ s.markCancel.cancelMark, s.pc ≠ .send ∧ s.sent.length = n := by
  intro n hn
  rw [TimerSystem.markCancel, Option.mem_def, Option.some.injEq] at hn
  subst hn
  cases hmark : s.cancelMark with
  | none => exact ⟨hpc, rfl⟩
  | some n => exact h.marked n hmark

theorem quiet_move {c : TimerConfig} {s s' : TimerSystem μ} {a : TimerAction μ}
    (h : s.Quiet) (hok : s.Settled a) (hmove : Move c s a s') : s'.Quiet := by
  have hstopped : ∀ n ∈ s.cancelMark, s.running = false := fun n hn =>
    h.flag (Or.inr (Or.inr (by rw [Option.mem_def.mp hn]; rfl)))
  cases hmove with
  | check p hpc =>
    refine ⟨h.flag, fun n hn => ⟨?_, (h.marked n hn).2⟩⟩
    simp [hstopped n hn]
  | sleep p hpc => exact ⟨h.flag, fun n hn => ⟨by simp, (h.marked n hn).2⟩⟩
  | test p hpc =>
    refine ⟨h.flag, fun n hn => ⟨?_, (h.marked n hn).2⟩⟩
    simp [hstopped n hn, next_ne_send]
  | send p actor hpc | sendPanic p hpc =>
    exact ⟨h.flag, fun n hn => absurd hpc (h.marked n hn).1⟩
  | cancelStore t hdrop => exact ⟨fun _ => rfl, h.marked⟩
  | cancelReturn t ht =>
    exact ⟨fun _ => h.flag (Or.inl (List.ne_nil_of_mem ht)), h.markCancel hok⟩
  | dropCall t hdrop =>
    refine ⟨fun hc => h.flag ?_, h.marked⟩
    exact hc.imp_right fun hc => hc.imp_left fun hc => by simp [DropPc.cleared] at hc
  | dropStore t hdrop => exact ⟨fun _ => rfl, h.marked⟩
  | dropCancelReturn t hdrop =>
    refine ⟨fun _ => h.flag (Or.inr (Or.inl ?_)), h.markCancel hok⟩
    rw [hdrop]
    rfl
  | join t hdrop hpc =>
    refine ⟨fun _ => h.flag (Or.inr (Or.inl ?_)), h.marked⟩
    rw [hdrop]
    rfl
  | target a actor => exact ⟨h.flag, h.marked⟩

/-- In every run in which no call of `cancel` returns while the thread stands
between the read of the flag and the send, nothing is sent after a call of `cancel`
has returned. -/
theorem cancel_final {c : TimerConfig} {s : TimerSystem μ}
    (h : (machine μ c).Reach Settled s) : s.Final := by
  have hquiet : s.Quiet := by
    refine invariant (fun actor => ⟨fun hc => ?_, by simp [start]⟩)
      (fun s a s' hs hok hmove => quiet_move hs hok hmove) h
    simp [Cancelled, start, DropPc.cleared] at hc
  exact fun n hn => (hquiet.marked n hn).2

/-- A local actor, and a timer on it. -/
def tickActor : Runtime Nat := .new 3 "a"

def tick (kind : TimerKind) : TimerConfig :=
  { kind, target := .localRef { sender := 3, name := "a" }, id := 7 }

/-- `cancel` stores the flag while the thread is about to send the first `Timeout`
of a periodic timer, and returns after the send. -/
theorem cancel_final_late : ∃ s : TimerSystem Nat,
    s.sent.length = 1 ∧ s.cancelMark = some 1 ∧ s.pc = .done ∧ s.Final := by
  have h := reach_after Settled (tick .periodic) tickActor
    [.timer false, .timer false, .timer false, .cancelStore (.client 0),
      .timer false, .cancelReturn (.client 0), .timer false] (by decide)
  exact ⟨_, by decide, by decide, by decide, cancel_final h⟩

/-- `cancel` is called and returns while the thread is about to send. -/
theorem cancel_final_fails : ¬ ∀ (c : TimerConfig) (s : TimerSystem Nat),
    (machine Nat c).Reachable s → s.Final := by
  intro h
  have hreach := reach_after (fun _ _ => True) (tick .once) tickActor
    [.timer false, .timer false, .cancelStore (.client 0),
      .cancelReturn (.client 0), .timer false] (by decide)
  have hlen := h _ _ hreach 0 (by decide)
  revert hlen
  decide

/-- A return of `cancel` in between is followed by a `Timeout`, when the target is
a local actor. -/
theorem not_final_of_send {c : TimerConfig} {r : LocalActorRef} {s : TimerSystem μ}
    (htarget : c.target = .localRef r) (hpc : s.pc = .send) {n : Nat}
    (hmark : s.cancelMark = some n) (hsent : s.sent.length = n) (p : Bool) :
    ∃ s', s.step c (.timer p) = some s' ∧ ¬ s'.Final := by
  refine ⟨s.sendTimeout c p, by simp [step, timerStep, hpc], fun hfinal => ?_⟩
  have hlen := hfinal n (by simp [sendTimeout, htarget, hmark])
  simp [sendTimeout, htarget, hsent] at hlen

/-! ## `drop` -/

/-- How many `Timeout`s the last sleep has still to give. -/
def owed (s : TimerSystem μ) : Nat :=
  match s.pc with
  | .test | .send => 1
  | _ => 0

/-- What the thread has sent so far. -/
structure Counted (c : TimerConfig) (s : TimerSystem μ) : Prop where
  same : ∀ env ∈ s.sent, env = c.envelope
  slept : s.sent.length + s.owed ≤ s.sleeps
  /-- A one-shot timer sends last of all. -/
  single : c.kind = .once → s.sent.length ≤ 1 ∧ s.pc ≠ .check ∧
    (s.pc ≠ .done → s.sent = [])
  /-- `drop` returns after the end of the thread. -/
  ended : s.drop = .returned → s.pc = .done ∧ s.dropMark = some s.sent.length

/-- A step of the thread before its end. -/
theorem Counted.running {c : TimerConfig} {s s' : TimerSystem μ} (h : s.Counted c)
    (hpc : s.pc ≠ .done) (hdrop : s'.drop = s.drop) :
    s'.drop = .returned → s'.pc = .done ∧ s'.dropMark = some s'.sent.length :=
  fun hreturned => absurd (h.ended (hdrop ▸ hreturned)).1 hpc

theorem counted_move {c : TimerConfig} {s s' : TimerSystem μ} {a : TimerAction μ}
    (h : s.Counted c) (hmove : Move c s a s') : s'.Counted c := by
  have hslept := h.slept
  cases hmove with
  | check p hpc =>
    refine ⟨h.same, ?_, fun hk => absurd hpc (h.single hk).2.1,
      h.running (by simp [hpc]) rfl⟩
    cases s.running <;> simp [owed, hpc] at hslept ⊢ <;> exact hslept
  | sleep p hpc =>
    refine ⟨h.same, ?_, fun hk => ?_, h.running (by simp [hpc]) rfl⟩
    · simp only [owed, hpc] at hslept ⊢
      omega
    · exact ⟨(h.single hk).1, by simp, fun _ => (h.single hk).2.2 (by simp [hpc])⟩
  | test p hpc =>
    refine ⟨h.same, ?_, fun hk => ?_, h.running (by simp [hpc]) rfl⟩
    · cases s.running <;> cases c.kind <;>
        simp only [owed, hpc, TimerKind.next, if_true, Bool.false_eq_true,
          if_false] at hslept ⊢ <;> omega
    · refine ⟨(h.single hk).1, ?_, fun _ => (h.single hk).2.2 (by simp [hpc])⟩
      cases s.running <;> simp [hk, TimerKind.next]
  | send p actor hpc =>
    refine ⟨forall_mem_snoc h.same rfl, ?_, fun hk => ?_,
      h.running (by simp [hpc]) rfl⟩
    · cases c.kind <;>
        simp only [owed, hpc, TimerKind.next, List.length_append,
          List.length_singleton] at hslept ⊢ <;> omega
    · have hnone := (h.single hk).2.2 (by simp [hpc])
      simp [hnone, hk, TimerKind.next]
  | sendPanic p hpc =>
    refine ⟨h.same, ?_, fun hk => ?_, h.running (by simp [hpc]) rfl⟩
    · simp only [owed, hpc] at hslept ⊢
      omega
    · exact ⟨(h.single hk).1, by simp, fun hdone => absurd rfl hdone⟩
  | cancelStore | cancelReturn | target => exact ⟨h.same, h.slept, h.single, h.ended⟩
  | dropCall | dropStore | dropCancelReturn =>
    exact ⟨h.same, h.slept, h.single, by simp⟩
  | join t hdrop hpc => exact ⟨h.same, h.slept, h.single, fun _ => ⟨hpc, rfl⟩⟩

theorem counted {c : TimerConfig} {ok : TimerSystem μ → TimerAction μ → Prop}
    {s : TimerSystem μ} (h : (machine μ c).Reach ok s) : s.Counted c := by
  refine invariant (fun actor => ?_) (fun s a s' hs _ hmove => counted_move hs hmove) h
  refine ⟨by simp [start], ?_, fun hk => ?_, by simp [start]⟩
  · cases hkind : c.kind <;> simp [start, owed, hkind, TimerKind.begin]
  · simp [start, hk, TimerKind.begin]

/-- The thread of a timer is never kept from moving on. -/
theorem exists_timerStep (c : TimerConfig) {s : TimerSystem μ} (h : s.pc ≠ .done)
    (p : Bool) : ∃ s', s.step c (.timer p) = some s' := by
  unfold step timerStep
  cases hpc : s.pc with
  | done => exact absurd hpc h
  | _ => exact ⟨_, rfl⟩

/-- For every timer on a local actor and every interleaving of its thread with
calls of `cancel` and with a `drop`, by whatever thread: a one-shot timer sends at
most one `Timeout`; each `Timeout` carries the id of the timer; a periodic timer
sends no more of them than it has completed sleeps; after `drop` has returned
nothing is sent; and while `drop` waits, the thread of the timer has ended or can
take a step. -/
theorem drop_clean {kind : TimerKind} {r : LocalActorRef} {id : UInt64}
    {s : TimerSystem μ}
    (h : (machine μ { kind, target := .localRef r, id }).Reachable s) :
    (kind = .once → s.sent.length ≤ 1) ∧
      (∀ env ∈ s.sent, env.msg = .timeout id) ∧
      (kind = .periodic → s.sent.length ≤ s.sleeps) ∧
      (s.drop = .returned → s.dropMark = some s.sent.length) ∧
      ∀ t, s.drop = .joining t → s.pc = .done ∨
        ∃ s', s.step { kind, target := .localRef r, id } (.timer false) = some s' := by
  have hcounted := counted h
  refine ⟨fun hk => (hcounted.single hk).1, fun env henv => ?_, fun _ => ?_,
    fun hdrop => (hcounted.ended hdrop).2, fun t _ => ?_⟩
  · rw [hcounted.same env henv]
    rfl
  · have hslept := hcounted.slept
    omega
  · by_cases hpc : s.pc = .done
    · exact Or.inl hpc
    · exact Or.inr (exists_timerStep _ hpc false)

/-- An actor in the handler of a message. -/
def busyActor : Runtime Nat :=
  { tickActor with
    pc := .process
      { id := 0, author := .client 0, via := 3, addressee := "a"
        envelope := .new .start none } }

/-- The handler of the target drops a periodic timer, whose thread sleeps. -/
theorem drop_clean_handler : ∃ s : TimerSystem Nat,
    s.drop = .joining (.worker 0) ∧ s.sent.length = 1 ∧ s.sleeps = 1 ∧
      ∃ s', s.step (tick .periodic) (.timer false) = some s' := by
  have h := reach_after (fun _ _ => True) (tick .periodic) busyActor
    [.timer false, .timer false, .timer false, .timer false, .timer false,
      .dropCall (.worker 0), .dropStore, .dropCancelReturn] (by decide)
  obtain ⟨-, -, -, -, hjoin⟩ := drop_clean h
  exact ⟨_, by decide, by decide, by decide,
    (hjoin (.worker 0) (by decide)).resolve_left (by decide)⟩

end TimerSystem

end Actors
