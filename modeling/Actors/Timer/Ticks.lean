import Mathlib.Data.List.Nodup
import Actors.Timer.Stop

/-!
# What a timer sends

A timer on a local actor sends one `Timeout` for each sleep that it completes, and
misses none as long as the flag is set (`ticks`).  Once the flag is cleared its
thread is done after three steps: `cancel_prompt` says how many sleeps and sends
can still come, for every run and every place the thread may stand at.

The ids of the timers come from one counter of 64 bits.  They are unique until it
wraps (`ids_unique_iff`).
-/

namespace Actors

open Concur

variable {μ : Type}

namespace TimerSystem

/-! ## As long as nobody cancels -/

/-- Every completed sleep has given its `Timeout`, or still owes it.  The last one
may be without when the flag was cleared during it. -/
def Ticked (s : TimerSystem μ) : Prop :=
  s.sleeps = s.sent.length + s.owed ∨
    (s.running = false ∧ (s.pc = .check ∨ s.pc = .done) ∧
      s.sleeps = s.sent.length + 1)

/-- A send to a local actor does not panic. -/
theorem send_of_local {c : TimerConfig} {r : LocalActorRef} (htarget : c.target = .localRef r)
    {s s' : TimerSystem μ} {p : Bool} (hpc : s.pc = .send)
    (hstep : s.step c (.timer p) = some s') :
    s'.pc = c.kind.next ∧ s'.sent = s.sent ++ [c.envelope] ∧ s'.running = s.running ∧
      s'.sleeps = s.sleeps := by
  simp only [step, timerStep, hpc, Option.some.injEq, sendTimeout, htarget] at hstep
  subst hstep
  exact ⟨rfl, rfl, rfl, rfl⟩

theorem owed_next (k : TimerKind) (s : TimerSystem μ) (hpc : s.pc = k.next) :
    s.owed = 0 := by
  cases k <;> simp [owed, hpc, TimerKind.next]

/-- A step of the thread, when the send does not panic. -/
theorem ticked_step {c : TimerConfig} {r : LocalActorRef} (htarget : c.target = .localRef r)
    {s s' : TimerSystem μ} {a : TimerAction μ} (h : s.Ticked)
    (hstep : s.step c a = some s') : s'.Ticked := by
  cases move_of_step hstep with
  | check p hpc =>
    cases hrun : s.running with
    | true =>
      left
      rcases h with h | ⟨hstopped, -, -⟩
      · simpa [owed, hpc, hrun] using h
      · simp [hrun] at hstopped
    | false =>
      rcases h with h | ⟨-, -, h⟩
      · left
        simpa [owed, hpc, hrun] using h
      · exact Or.inr ⟨rfl, Or.inr (by simp), h⟩
  | sleep p hpc =>
    left
    rcases h with h | ⟨-, hplace, -⟩
    · simp only [owed, hpc] at h ⊢
      omega
    · simp [hpc] at hplace
  | test p hpc =>
    have hslept : s.sleeps = s.sent.length + 1 := by
      rcases h with h | ⟨-, hplace, -⟩
      · simpa [owed, hpc] using h
      · simp [hpc] at hplace
    cases hrun : s.running with
    | true => exact Or.inl (by simpa [owed, hrun] using hslept)
    | false =>
      refine Or.inr ⟨rfl, ?_, hslept⟩
      cases c.kind <;> simp [TimerKind.next]
  | send p actor hpc | sendPanic p hpc =>
    obtain ⟨hnext, hsent, hrun, hsleeps⟩ := send_of_local htarget hpc hstep
    have hslept : s.sleeps = s.sent.length + 1 := by
      rcases h with h | ⟨-, hplace, -⟩
      · simpa [owed, hpc] using h
      · simp [hpc] at hplace
    left
    rw [owed_next c.kind _ hnext, hsent, hsleeps, List.length_append,
      List.length_singleton, hslept]
  | cancelStore t hdrop | dropStore t hdrop =>
    rcases h with h | ⟨-, hplace, hslept⟩
    · exact Or.inl h
    · exact Or.inr ⟨rfl, hplace, hslept⟩
  | cancelReturn | dropCall | dropCancelReturn | join | target => exact h

theorem ticked {c : TimerConfig} {r : LocalActorRef} (htarget : c.target = .localRef r)
    {ok : TimerSystem μ → TimerAction μ → Prop} {s : TimerSystem μ}
    (h : (machine μ c).Reach ok s) : s.Ticked := by
  refine h.invariant ?_ ?_
  · rintro s ⟨actor, rfl⟩
    left
    cases hkind : c.kind <;> simp [start, owed, hkind, TimerKind.begin]
  · intro s a s' _ hs _ hstep
    exact ticked_step htarget hs hstep

/-- As long as the flag is set only a one-shot timer ends, after its `Timeout`. -/
theorem once_of_done {c : TimerConfig} {r : LocalActorRef} (htarget : c.target = .localRef r)
    {ok : TimerSystem μ → TimerAction μ → Prop} {s : TimerSystem μ}
    (h : (machine μ c).Reach ok s) :
    s.running = true → s.pc = .done → c.kind = .once ∧ s.sent.length = 1 := by
  refine h.invariant (I := fun s => s.running = true → s.pc = .done →
    c.kind = .once ∧ s.sent.length = 1) ?_ ?_
  · rintro s ⟨actor, rfl⟩ _ hdone
    cases hkind : c.kind <;> simp [start, hkind, TimerKind.begin] at hdone
  · intro s a s' hreach hs _ hstep
    cases move_of_step hstep with
    | check p hpc =>
      intro hrun hdone
      simp only at hrun
      simp [hrun] at hdone
    | sleep p hpc => simp
    | test p hpc =>
      intro hrun hdone
      simp only at hrun
      simp [hrun] at hdone
    | send p actor hpc | sendPanic p hpc =>
      intro hrun hdone
      obtain ⟨hnext, hsent, -, -⟩ := send_of_local htarget hpc hstep
      rw [hnext] at hdone
      cases hkind : c.kind with
      | periodic => simp [hkind, TimerKind.next] at hdone
      | once =>
        have hnone := ((counted hreach).single hkind).2.2 (by simp [hpc])
        exact ⟨rfl, by rw [hsent, hnone]; rfl⟩
    | cancelStore | dropStore => exact fun hrun => absurd hrun (by simp)
    | cancelReturn | dropCall | dropCancelReturn | join | target => exact hs

/-- In every state of every run, a timer on a local actor has sent one `Timeout` for
each sleep that it completed, but for the last one at most.  As long as nobody has
cleared the flag there is none without, unless the thread stands just before the
send, and no timer has ended but a one-shot timer that has sent its `Timeout`. -/
theorem ticks {kind : TimerKind} {r : LocalActorRef} {id : UInt64}
    {s : TimerSystem μ}
    (h : (machine μ { kind, target := .localRef r, id }).Reachable s) :
    s.sent.length ≤ s.sleeps ∧ s.sleeps ≤ s.sent.length + 1 ∧
      (s.running = true → s.sleeps = s.sent.length + s.owed ∧
        (s.pc = .done → kind = .once ∧ s.sent.length = 1)) := by
  have howed : s.owed ≤ 1 := by
    unfold owed
    split <;> omega
  have hslept := (counted h).slept
  have hticked := ticked rfl h
  refine ⟨by omega, ?_, fun hrun => ⟨?_, once_of_done rfl h hrun⟩⟩
  · rcases hticked with hticked | ⟨-, -, hticked⟩ <;> omega
  · rcases hticked with hticked | ⟨hstopped, -, -⟩
    · exact hticked
    · simp [hrun] at hstopped

/-- A periodic timer has completed two sleeps and is about to send for the second
time. -/
theorem ticks_two : ∃ s : TimerSystem Nat, s.sleeps = 2 ∧
    s.sent.length ≤ s.sleeps ∧ s.sleeps ≤ s.sent.length + 1 ∧
      (s.running = true → s.sleeps = s.sent.length + s.owed ∧
        (s.pc = .done → TimerKind.periodic = .once ∧ s.sent.length = 1)) := by
  have h := reach_after (fun _ _ => True) (tick .periodic) tickActor
    (List.replicate 7 (.timer false)) (by decide)
  exact ⟨_, by decide, ticks h⟩

/-! ## After the flag is cleared -/

end TimerSystem

/-- The step stores `false` into the flag. -/
def TimerAction.clears : TimerAction μ → Bool
  | .cancelStore _ | .dropStore => true
  | _ => false

/-- A step of the thread of the timer. -/
def TimerAction.ofThread : TimerAction μ → Bool
  | .timer _ => true
  | _ => false

/-- How many steps the thread takes before it is done, when the flag is cleared. -/
def TimerPc.stepsLeft : TimerPc → Nat
  | .check => 1
  | .sleep => 3
  | .test | .send => 2
  | .done => 0

namespace TimerSystem

/-- The most that the thread can have sent and slept at its end. -/
structure AtMost (sent sleeps : Nat) (s : TimerSystem μ) : Prop where
  stopped : s.running = false
  sends : s.sent.length + (if s.pc = .send then 1 else 0) ≤ sent
  sleeps : s.sleeps + (if s.pc = .sleep then 1 else 0) ≤ sleeps

/-- The thread does not stand still. -/
theorem pc_ne_of_timer {c : TimerConfig} {s s' : TimerSystem μ} {p : Bool}
    (hstep : s.step c (.timer p) = some s') : s'.pc ≠ s.pc := by
  simp only [step, timerStep] at hstep
  split at hstep
  case h_1 hpc =>
    rw [Option.some.injEq] at hstep
    subst hstep
    cases hrun : s.running <;> simp [hpc]
  case h_2 hpc =>
    rw [Option.some.injEq] at hstep
    subst hstep
    simp [hpc]
  case h_3 hpc =>
    rw [Option.some.injEq] at hstep
    subst hstep
    cases hrun : s.running <;> cases c.kind <;> simp [hpc, TimerKind.next]
  case h_4 hpc =>
    rw [Option.some.injEq] at hstep
    subst hstep
    unfold sendTimeout
    split
    · simpa [hpc] using next_ne_send c.kind
    · split
      · simp [hpc]
      · simpa [hpc] using next_ne_send c.kind
  case h_5 => simp at hstep

/-- With the flag cleared the thread goes on to its end. -/
theorem atMost_step {c : TimerConfig} {s s' : TimerSystem μ} {a : TimerAction μ}
    {sent sleeps : Nat} (h : s.AtMost sent sleeps) (hstep : s.step c a = some s') :
    s'.AtMost sent sleeps ∧
      s'.pc.stepsLeft + (if a.ofThread = true then 1 else 0) ≤ s.pc.stepsLeft := by
  obtain ⟨hstopped, hsends, hsleeps⟩ := h
  cases move_of_step hstep with
  | check p hpc | sleep p hpc =>
    simp only [hpc, reduceCtorEq, if_false, if_true] at hsends hsleeps
    refine ⟨⟨hstopped, ?_, ?_⟩, ?_⟩
    · simpa [hstopped] using hsends
    · simpa [hstopped] using hsleeps
    · simp [hpc, hstopped, TimerPc.stepsLeft, TimerAction.ofThread]
  | test p hpc =>
    simp only [hpc, reduceCtorEq, if_false] at hsends hsleeps
    refine ⟨⟨hstopped, ?_, ?_⟩, ?_⟩ <;> cases c.kind <;>
      simp [hpc, hstopped, TimerKind.next, TimerPc.stepsLeft, TimerAction.ofThread] <;>
      assumption
  | send p actor hpc =>
    simp only [hpc, reduceCtorEq, if_false, if_true] at hsends hsleeps
    refine ⟨⟨hstopped, ?_, ?_⟩, ?_⟩ <;> cases c.kind <;>
      simp [hpc, TimerKind.next, TimerPc.stepsLeft, TimerAction.ofThread] <;>
      assumption
  | sendPanic p hpc =>
    simp only [hpc, reduceCtorEq, if_false, if_true] at hsends hsleeps
    refine ⟨⟨hstopped, ?_, ?_⟩, ?_⟩
    · simp
      omega
    · simpa using hsleeps
    · simp [hpc, TimerPc.stepsLeft, TimerAction.ofThread]
  | target b actor =>
    have hother : a.ofThread = false := by
      cases a with
      | timer p =>
        have hne := pc_ne_of_timer hstep
        exact absurd rfl hne
      | _ => rfl
    exact ⟨⟨hstopped, hsends, hsleeps⟩, by simp [hother]⟩
  | cancelStore | dropStore => exact ⟨⟨rfl, hsends, hsleeps⟩, Nat.le_refl _⟩
  | cancelReturn | dropCall | dropCancelReturn | join =>
    exact ⟨⟨hstopped, hsends, hsleeps⟩, Nat.le_refl _⟩

/-- The stores of `cancel` and of `drop` touch nothing but the flag. -/
theorem cleared_of_step {c : TimerConfig} {s s' : TimerSystem μ} {a : TimerAction μ}
    (hclears : a.clears = true) (hstep : s.step c a = some s') :
    s'.running = false ∧ s'.pc = s.pc ∧ s'.sent = s.sent ∧ s'.sleeps = s.sleeps := by
  cases a with
  | cancelStore t =>
    simp only [step] at hstep
    split at hstep
    · rw [Option.some.injEq] at hstep
      exact hstep ▸ ⟨rfl, rfl, rfl, rfl⟩
    · simp at hstep
  | dropStore =>
    simp only [step, dropStep] at hstep
    split at hstep
    · rw [Option.some.injEq] at hstep
      exact hstep ▸ ⟨rfl, rfl, rfl, rfl⟩
    · simp at hstep
  | _ => simp [TimerAction.clears] at hclears

/-- Once a call of `cancel` or of `drop` has cleared the flag, at whatever place of a
run, the thread sends at most one more `Timeout`, and only when it had read the flag
before; it completes no further sleep than the one it is in; and it takes as many
steps as are left up to its end, three at most. -/
theorem cancel_prompt {c : TimerConfig} {ok : TimerSystem μ → TimerAction μ → Prop}
    {tr : List (TimerSystem μ × TimerAction μ)} {s : TimerSystem μ}
    (h : (machine μ c).Run ok tr s) {i : Nat} {y : TimerSystem μ × TimerAction μ}
    (hy : tr[i]? = some y) (hclears : y.2.clears = true) :
    s.sent.length ≤ y.1.sent.length + (if y.1.pc = .send then 1 else 0) ∧
      s.sleeps ≤ y.1.sleeps + (if y.1.pc = .sleep then 1 else 0) ∧
      (tr.drop (i + 1)).countP (fun x => x.2.ofThread) + s.pc.stepsLeft ≤
        y.1.pc.stepsLeft := by
  have hcleared : ∀ s', y.1.step c y.2 = some s' →
      s'.AtMost (y.1.sent.length + if y.1.pc = .send then 1 else 0)
        (y.1.sleeps + if y.1.pc = .sleep then 1 else 0) ∧
      s'.pc.stepsLeft ≤ y.1.pc.stepsLeft := by
    intro s' hstep
    obtain ⟨hstopped, hpc, hsent, hsleeps⟩ := cleared_of_step hclears hstep
    refine ⟨⟨hstopped, Nat.le_of_eq ?_, Nat.le_of_eq ?_⟩, Nat.le_of_eq ?_⟩
    · rw [hsent, hpc]
    · rw [hsleeps, hpc]
    · rw [hpc]
  have hend : s.AtMost (y.1.sent.length + if y.1.pc = .send then 1 else 0)
        (y.1.sleeps + if y.1.pc = .sleep then 1 else 0) ∧
      (tr.drop (i + 1)).countP (fun x => x.2.ofThread) + s.pc.stepsLeft ≤
        y.1.pc.stepsLeft :=
    h.after (P := AtMost _ _) (f := fun s => s.pc.stepsLeft)
      (fun s a s' _ hstep hs => atMost_step hs hstep) hy hcleared
  obtain ⟨⟨-, hsends, hsleeps⟩, hsteps⟩ := hend
  exact ⟨by omega, by omega, hsteps⟩

/-- `cancel` comes between the read of the flag and the send of the first `Timeout`. -/
theorem cancel_prompt_late : ∃ (tr : List (TimerSystem Nat × TimerAction Nat))
    (y : TimerSystem Nat × TimerAction Nat) (s : TimerSystem Nat),
    (machine Nat (tick .periodic)).Run (fun _ _ => True) tr s ∧ tr[3]? = some y ∧
      y.1.pc = .send ∧
      s.sent.length ≤ y.1.sent.length + (if y.1.pc = .send then 1 else 0) ∧
      s.sleeps ≤ y.1.sleeps + (if y.1.pc = .sleep then 1 else 0) ∧
      (tr.drop 4).countP (fun x => x.2.ofThread) + s.pc.stepsLeft ≤ y.1.pc.stepsLeft := by
  have h := run_after (fun _ _ => True) (tick .periodic) tickActor
    [.timer false, .timer false, .timer false, .cancelStore (.client 0),
      .cancelReturn (.client 0), .timer false, .timer false] (by decide)
  exact ⟨_, _, _, h, rfl, by decide, cancel_prompt h rfl rfl⟩

/-! ## The ids -/

end TimerSystem

/-- `NEXT_TIMER_ID`, and the ids that were given out so far, each to the thread that
called. -/
structure TimerIds where
  next : UInt64
  given : List (ThreadId × UInt64)

namespace TimerIds

/-- `next_timer_id` on thread `t`: `fetch_add` wraps around. -/
def nextTimerId (s : TimerIds) (t : ThreadId) : TimerIds :=
  { next := s.next + 1, given := s.given ++ [(t, s.next)] }

/-- Any threads call `next_timer_id`, in any order. -/
def machine : Machine TimerIds ThreadId :=
  .ofNext (· = { next := 1, given := [] }) fun s t => some (s.nextTimerId t)

/-- The ids that were given out are `1`, `2` and so on, modulo `2 ^ 64`. -/
theorem given_eq {s : TimerIds} (h : machine.Reachable s) :
    s.next = UInt64.ofNat (s.given.length + 1) ∧
      s.given.map Prod.snd =
        (List.range s.given.length).map fun k => UInt64.ofNat (k + 1) := by
  refine h.invariant (I := fun s => s.next = UInt64.ofNat (s.given.length + 1) ∧
    s.given.map Prod.snd =
      (List.range s.given.length).map fun k => UInt64.ofNat (k + 1)) ?_ ?_
  · rintro s rfl
    exact ⟨rfl, rfl⟩
  · intro s t s' _ hs _ hstep
    obtain ⟨hnext, hgiven⟩ := hs
    rw [machine, Machine.ofNext_step, Option.some.injEq] at hstep
    subst hstep
    simp only [nextTimerId, List.length_append, List.length_singleton]
    constructor
    · rw [hnext, UInt64.ofNat_add (s.given.length + 1) 1]
      rfl
    · rw [List.map_append, hgiven, List.range_succ, List.map_append, hnext]
      rfl

/-- The ids of the timers are unique as long as no more than `2 ^ 64` of them were
given out, whatever threads asked for them, and no longer. -/
theorem ids_unique_iff {s : TimerIds} (h : machine.Reachable s) :
    (s.given.map Prod.snd).Nodup ↔ s.given.length ≤ 2 ^ 64 := by
  have hsame : ∀ j k, UInt64.ofNat (j + 1) = UInt64.ofNat (k + 1) ↔
      (j + 1) % 2 ^ 64 = (k + 1) % 2 ^ 64 := by
    intro j k
    rw [← UInt64.toNat_inj, UInt64.toNat_ofNat', UInt64.toNat_ofNat']
  rw [(given_eq h).2, List.nodup_map_iff_inj_on List.nodup_range]
  simp only [List.mem_range, hsame]
  constructor
  · intro hinj
    by_contra hlong
    -- The counter is back at `1`.
    have hzero := hinj 0 (by omega) (2 ^ 64) (by omega) (by omega)
    omega
  · intro hshort j hj k hk hjk
    omega

/-- Three calls on two threads. -/
theorem ids_unique_iff_three : ∃ s : TimerIds, machine.Reachable s ∧
    s.given = [(.client 0, 1), (.worker 0, 2), (.client 0, 3)] ∧
      ((s.given.map Prod.snd).Nodup ↔ s.given.length ≤ 2 ^ 64) := by
  have hstart : machine.Reachable { next := 1, given := [] } := .start rfl
  have h := ((hstart.step (a := .client 0) trivial rfl).step (a := .worker 0) trivial
    rfl).step (a := .client 0) trivial rfl
  exact ⟨_, h, rfl, ids_unique_iff h⟩

end TimerIds

end Actors
