import Actors.Group.Shutdown

/-!
# Requests to a group that has ended

The `Sender` of a reply channel is dropped with the letter or with the context
that holds it.  A group that has ended drops neither: its queue and its members
live as long as the group, and a forwarding thread can still put a request into
the queue when nobody is left to take it.  The caller then waits for ever.

`Attended` is what is missing: from the call of `end` on, a request is put into
the queue only while a worker is in its loop, and the last worker leaves no
request behind, neither in the queue nor in a context.  `requests_released` shows
that it is enough.
-/

namespace Actors

open Concur

variable {μ : Type}

/-- `end` has been called, and `start` has not been called since. -/
def endsCalled (calls : List ApiCall) : Bool :=
  calls.foldl (fun ended c =>
    match c with
    | .endCall => true
    | .start => false
    | _ => ended) false

@[simp] theorem endsCalled_append (calls : List ApiCall) (c : ApiCall) :
    endsCalled (calls ++ [c]) =
      match c with
      | .endCall => true
      | .start => false
      | _ => endsCalled calls := by
  rw [endsCalled, List.foldl_append]
  cases c <;> rfl

namespace Group

/-- `end` has returned, and the group was not started again. -/
def Ended (g : Group μ) : Prop :=
  endsCalled g.calls = true ∧
    (g.main = .idle ∨ g.calls.getLast? ≠ some .endCall)

instance (g : Group μ) : Decidable g.Ended :=
  inferInstanceAs (Decidable (_ ∧ _))

/-- No forwarding thread can take a step. -/
def ForwardersRest (g : Group μ) : Prop :=
  ∀ r < g.forwarders.length, (g.step (.forwardRecv r)).isNone ∧
    (g.step (.forwardSend r)).isNone ∧ (g.step (.forwardExit r)).isNone

instance (g : Group μ) : Decidable g.ForwardersRest :=
  inferInstanceAs (Decidable (∀ r < g.forwarders.length, _))

/-- A worker is in its loop. -/
def Staffed (g : Group μ) : Prop := ∃ w ∈ g.workers, w.pc.finished = false

instance (g : Group μ) : Decidable g.Staffed :=
  inferInstanceAs (Decidable (∃ w ∈ g.workers, _))

/-- No request is in the queue, and no context holds a reply channel. -/
def Unasked (g : Group μ) : Prop :=
  (∀ env ∈ g.queue, env.letter.envelope.replyChannel = none) ∧
    ∀ mem ∈ g.members, mem.context.replyChannel = none

instance (g : Group μ) : Decidable g.Unasked :=
  inferInstanceAs (Decidable (_ ∧ _))

/-- Worker `i` ends with its next step: the queue is empty in the drain loop, or
the lock that it takes is poisoned. -/
def ends (g : Group μ) (i : Nat) : Bool :=
  match g.workers[i]? with
  | none => false
  | some w =>
    match w.pc with
    | .recv => g.receiver.poisoned
    | .drain => g.receiver.poisoned || g.queue.isEmpty
    | .dispatch _ env =>
      ((w.actors.lookup env.destination).bind (g.members[·]?)).any
        fun mem => mem.mutex.poisoned
    | _ => false

/-- Once `end` has been called, a request gets into the queue only while a worker
is in its loop.  When the last worker ends, or when there is none at the call of
`end`, no request is in the queue and no context holds a reply channel. -/
def Attended (g : Group μ) : Action μ → Prop
  | .endCall => g.Staffed ∨ g.Unasked
  | .forwardSend r => endsCalled g.calls = true →
      ∀ f ∈ g.forwarders[r]?, ∀ l ∈ f.hand,
        l.envelope.replyChannel = none ∨ g.Staffed
  | .worker i => endsCalled g.calls = true → g.ends i = true →
      g.OtherLeft i ∨ g.Unasked
  | .handlerPanic i => endsCalled g.calls = true → g.OtherLeft i ∨ g.Unasked
  | _ => True

instance (g : Group μ) (a : Action μ) : Decidable (Attended g a) :=
  match a with
  | .endCall => inferInstanceAs (Decidable (_ ∨ _))
  | .forwardSend r => inferInstanceAs (Decidable (endsCalled g.calls = true →
      ∀ f ∈ g.forwarders[r]?, ∀ l ∈ f.hand,
        l.envelope.replyChannel = none ∨ g.Staffed))
  | .worker i => inferInstanceAs (Decidable (endsCalled g.calls = true →
      g.ends i = true → g.OtherLeft i ∨ g.Unasked))
  | .handlerPanic i => inferInstanceAs (Decidable (endsCalled g.calls = true →
      g.OtherLeft i ∨ g.Unasked))
  | .add _ | .getRef _ | .start | .shutdown | .wait | .main | .mainLock _
  | .send _ _ _ _ | .fastSend _ _ _ _ | .fastReturn _ | .dropRef _ | .forwardRecv _
  | .forwardExit _ | .reply _ _ | .handlerReturn _ => isTrue trivial

/-! ## All workers have ended -/

/-- After a call of `end` the group is not started, and once another method has
been called no worker is left to be joined. -/
def Over (g : Group μ) : Prop :=
  endsCalled g.calls = true → g.main.starting = false ∧
    (g.calls.getLast? ≠ some .endCall → g.handles = [] ∧ g.main.joining = [])

/-- No handle is left when the main thread is back from `end`. -/
theorem Over.handles {n : Nat} {ok : Group μ → Action μ → Prop} {g : Group μ}
    (h : g.Over) (hreach : (machine μ n).Reach ok g)
    (hended : g.Ended) : g.handles = [] ∧ g.main.joining = [] := by
  by_cases hlast : g.calls.getLast? = some .endCall
  · have hidle : g.main = .idle := hended.2.resolve_right (by simp [hlast])
    have hending := ending hreach hlast
    rw [Ending, hidle] at hending
    exact ⟨hending.2, by rw [hidle]; rfl⟩
  · exact (h hended.1).2 hlast

/-- The main thread goes on in a call. -/
theorem Over.main {g g' : Group μ} (h : g.Over) (hcalls : g'.calls = g.calls)
    (hhandles : g'.handles = g.handles) (hstarting : g'.main.starting = false)
    (hjoining : g.main.joining = [] → g'.main.joining = []) : g'.Over := by
  intro hcalled
  rw [hcalls] at hcalled ⊢
  rw [hhandles]
  exact ⟨hstarting, fun hlast => ((h hcalled).2 hlast).imp_right hjoining⟩

theorem over_move {n : Nat} {ok : Group μ → Action μ → Prop} {g g' : Group μ}
    {a : Action μ} (hreach : (machine μ n).Reach ok g) (hmove : Move g a g')
    (h : g.Over) : g'.Over := by
  cases hmove with
  | add name hidle | shutdown hidle | wait hidle =>
    intro hcalled
    rw [endsCalled_append] at hcalled
    have hleft := h.handles hreach ⟨hcalled, Or.inl hidle⟩
    refine ⟨?_, fun _ => ⟨hleft.1, ?_⟩⟩
    · first | rfl | exact (h hcalled).1
    · first | rfl | exact hleft.2
  | start hidle => exact fun hcalled => by simp at hcalled
  | endCall hidle => exact fun _ => ⟨rfl, fun hlast => by simp at hlast⟩
  | initLock m mem todo hmain | initReturn m todo hmain | initsDone hmain
  | sendStart r rs f hmain | startSent hmain | spawn k hmain | spawned hmain =>
    intro hcalled
    have hstarting := (h hcalled).1
    simp [hmain, MainPc.starting] at hstarting
  | endLock m mem todo hmain | endReturn m todo hmain | sendShutdown r rs b f hmain
  | joined hmain =>
    exact h.main rfl rfl rfl fun _ => rfl
  | lockPanic m mem todo hmain => exact h.main rfl rfl rfl fun _ => rfl
  | clearRunning b hmain =>
    refine h.main rfl rfl ?_ fun _ => ?_ <;> cases b <;> rfl
  | endsDone hmain =>
    exact fun hcalled => ⟨rfl, fun hlast => ⟨rfl, ((h hcalled).2 hlast).1⟩⟩
  | join i is w hmain =>
    refine h.main rfl rfl rfl fun hnone => ?_
    simp [hmain, MainPc.joining] at hnone
  | _ => exact h

/-- When `end` has returned, all workers have ended. -/
theorem finished_of_ended {n : Nat} {ok : Group μ → Action μ → Prop} {g : Group μ}
    (h : (machine μ n).Reach ok g) (hended : g.Ended) :
    ∀ w ∈ g.workers, w.pc.finished = true := by
  have hover : g.Over := by
    refine invariant ?_ ?_ h
    · intro hcalled
      simp [new, endsCalled] at hcalled
    · intro g a g' hreach hg _ hmove
      exact over_move hreach hmove hg
  obtain ⟨hhandles, hjoining⟩ := hover.handles h hended
  intro w hw
  obtain ⟨i, hi⟩ := List.mem_iff_getElem?.mp hw
  have hjoined := joined h i w hi
  rw [hhandles, hjoining] at hjoined
  simpa using hjoined

/-! ## A forwarding thread that has ended -/

/-- A forwarding thread ends when its channel is empty and nobody can send
through its reference any more. -/
theorem exited {n : Nat} {ok : Group μ → Action μ → Prop} {g : Group μ}
    (h : (machine μ n).Reach ok g) :
    ∀ f ∈ g.forwarders, f.exited = true → f.chan = [] ∧ f.live = false := by
  refine Machine.Reach.invariant (I := fun g => ∀ f ∈ g.forwarders,
    f.exited = true → f.chan = [] ∧ f.live = false) ?_ ?_ h
  · rintro g rfl
    simp [new]
  · intro g a g' _ hg _ hstep
    cases move_of_step hstep with
    | add name hidle | getRef name href =>
      exact forall_mem_snoc hg (by simp [Forwarder.new])
    | sendStart r rs f hmain hf hlive | sendShutdown r rs b f hmain hf hlive
    | send t r msg sender f hcan hfree hf hlive
    | fastSend t r msg sender f hcan hfree hf hlive =>
      refine forall_mem_set hg fun hexited => ?_
      have hold := hg f (List.mem_of_getElem? hf) hexited
      simp [hlive] at hold
    | dropRef r f hf =>
      refine forall_mem_set hg fun hexited => ⟨?_, rfl⟩
      exact (hg f (List.mem_of_getElem? hf) hexited).1
    | forwardRecv r f l rest hf hchan =>
      refine forall_mem_set hg fun hexited => ?_
      have hold := hg f (List.mem_of_getElem? hf) hexited
      simp [hchan] at hold
    | forwardSend r f l hf =>
      exact forall_mem_set hg fun hexited => hg f (List.mem_of_getElem? hf) hexited
    | forwardExit r f hf hlive =>
      have hchan : f.chan = [] := by
        change g.forwardExit r = some _ at hstep
        simp only [forwardExit, hf] at hstep
        by_contra hne
        rw [if_neg fun hcond => hne hcond.1] at hstep
        simp at hstep
      exact forall_mem_set hg fun _ => ⟨hchan, hlive⟩
    | _ => exact hg

/-- Forwarding threads at rest have nothing left. -/
theorem pending_of_rest {n : Nat} {ok : Group μ → Action μ → Prop} {g : Group μ}
    (h : (machine μ n).Reach ok g) (hrest : g.ForwardersRest) :
    ∀ f ∈ g.forwarders, f.chan = [] ∧ f.hand = none := by
  intro f hf
  obtain ⟨r, hr⟩ := List.mem_iff_getElem?.mp hf
  obtain ⟨hrecv, hsend, -⟩ := hrest r (List.getElem?_eq_some_iff.mp hr).1
  have hhand : f.hand = none := by
    by_contra hsome
    obtain ⟨l, hl⟩ := Option.ne_none_iff_exists'.mp hsome
    simp [step, forwardSend, hr, hl] at hsend
  refine ⟨?_, hhand⟩
  cases hchan : f.chan with
  | nil => rfl
  | cons l rest =>
    cases hexited : f.exited with
    | true =>
      have hempty := (exited h f hf hexited).1
      simp [hchan] at hempty
    | false => simp [step, forwardRecv, hr, hchan, hhand, hexited] at hrecv

/-! ## Somebody is there to answer -/

/-- After a call of `end`, a worker is in its loop or no request is left. -/
def Served (g : Group μ) : Prop :=
  endsCalled g.calls = true → g.Staffed ∨ g.Unasked

/-- A worker moves and stays in its loop. -/
theorem staffed_set {workers : List (Worker μ)} {i : Nat} {w w' : Worker μ}
    (hw : workers[i]? = some w) (hlive : w'.pc.finished = false) :
    ∃ x ∈ workers.set i w', x.pc.finished = false :=
  ⟨w', List.mem_set (List.getElem?_eq_some_iff.mp hw).1 w', hlive⟩

theorem served_move {g g' : Group μ} {a : Action μ} (hmove : Move g a g')
    (hok : Attended g a) (h : g.Served) : g'.Served := by
  cases hmove with
  | add name hidle =>
    intro hcalled
    rw [endsCalled_append] at hcalled
    exact (h hcalled).imp_right fun hu => ⟨hu.1, forall_mem_snoc hu.2 rfl⟩
  | start hidle => exact fun hcalled => by simp at hcalled
  | shutdown hidle | wait hidle =>
    intro hcalled
    rw [endsCalled_append] at hcalled
    exact h hcalled
  | endCall hidle => exact fun _ => hok
  | initLock m mem todo hmain hm hmem | endLock m mem todo hmain hm hmem =>
    refine fun hcalled => (h hcalled).imp_right fun hu => ⟨hu.1, ?_⟩
    exact forall_mem_set hu.2 (hu.2 mem (List.mem_of_getElem? hmem))
  | initReturn m todo hmain | endReturn m todo hmain =>
    refine fun hcalled => (h hcalled).imp_right fun hu => ⟨hu.1, ?_⟩
    refine forall_mem_modify hu.2 ?_ m
    exact fun mem hmem => hmem
  | spawn k hmain =>
    exact fun _ => Or.inl ⟨_, List.mem_append_right _ (List.mem_singleton.mpr rfl),
      rfl⟩
  | reply i msg w d m l mem hw hpc hmem =>
    refine fun hcalled => (h hcalled).imp_right fun hu => ⟨hu.1, ?_⟩
    exact forall_mem_set hu.2 (ActorContext.reply_replyChannel _)
  | forwardSend r f l hf hhand =>
    intro hcalled
    rcases h hcalled with hstaffed | hu
    · exact Or.inl hstaffed
    · rcases hok hcalled f hf l hhand with hnone | hstaffed
      · exact Or.inr ⟨forall_mem_snoc hu.1 hnone, hu.2⟩
      · exact Or.inl hstaffed
  | check i w hw hpc =>
    exact fun _ => Or.inl (staffed_set hw (by cases g.running <;> rfl))
  | recv i w env rest hw hpc | recvEmpty i w hw hpc | drain i w env rest hw hpc
  | processBegin i w d env m mem hw hpc =>
    exact fun _ => Or.inl (staffed_set hw rfl)
  | noMember i w d env hw hpc | handlerReturn i w d m l hw hpc =>
    exact fun _ => Or.inl (staffed_set hw (by cases d <;> rfl))
  | drainEmpty i w hw hpc hq =>
    intro hcalled
    refine (hok hcalled ?_).imp (staffed_of_other · _) fun hu => hu
    simp [ends, hw, hpc, hq]
  | recvPanic i w hw hpc hpois =>
    intro hcalled
    refine (hok hcalled ?_).imp (staffed_of_other · _) fun hu => hu
    rcases hpc with hpc | hpc <;> simp [ends, hw, hpc, hpois]
  | memberPanic i w d env m mem hw hpc hm hmem hpois =>
    intro hcalled
    refine (hok hcalled ?_).imp (staffed_of_other · _) fun hu => hu
    simp [ends, hw, hpc, hm, hmem, hpois]
  | handlerPanic i w d m l hw hpc =>
    intro hcalled
    refine (hok hcalled).imp (staffed_of_other · _) fun hu => ⟨hu.1, ?_⟩
    refine forall_mem_modify hu.2 ?_ m
    exact fun mem hmem => hmem
  | _ => exact h

theorem served {n : Nat} {g : Group μ} (h : (machine μ n).Reach Attended g) :
    g.Served := by
  refine invariant ?_ ?_ h
  · intro hcalled
    simp [new, endsCalled] at hcalled
  · intro g a g' _ hg hok hmove
    exact served_move hmove hok hg

/-! ## Nobody is left waiting -/

/-- When no letter and no context holds a reply channel, every caller can
return. -/
theorem step_fastReturn {g : Group μ} (hgone : ∀ c, g.replySenderLive c = false)
    {p : ThreadId × ChannelId} (hp : p ∈ g.callers) :
    g.step (.fastReturn p.1) ≠ none := by
  obtain ⟨q, hq⟩ : ∃ q, g.callers.find? (fun c => c.1 = p.1) = some q := by
    refine Option.isSome_iff_exists.mp (List.find?_isSome.mpr ⟨p, hp, by simp⟩)
  simp only [step, fastReturn, hq, hgone]
  split <;> simp

/-- When `end` has returned and the forwarding threads are at rest, no caller is
left in a `fast_send`, provided that after the call of `end` requests were put
into the queue only while there was a worker, and the last worker left none
behind. -/
theorem requests_released {n : Nat} {g : Group μ}
    (h : (machine μ n).Reach Attended g) (hended : g.Ended)
    (hrest : g.ForwardersRest) :
    ∀ p ∈ g.callers, g.step (.fastReturn p.1) ≠ none := by
  have hfinished := finished_of_ended h hended
  have hpending := pending_of_rest h hrest
  have hunasked : g.Unasked := by
    refine (served h hended.1).resolve_left ?_
    rintro ⟨w, hw, hlive⟩
    simp [hfinished w hw] at hlive
  refine fun p hp => step_fastReturn (fun c => ?_) hp
  simp only [replySenderLive, Bool.or_eq_false_iff, List.any_eq_false]
  refine ⟨⟨⟨fun f hf => ?_, fun env henv => ?_⟩, fun w hw => ?_⟩, fun mem hmem => ?_⟩
  · simp [hpending f hf]
  · simp [hunasked.1 env henv]
  · have hhand : w.pc.hand = none := hand_of_finished (hfinished w hw)
    simp [hhand]
  · simp [hunasked.2 mem hmem]

/-- A group with one member and one worker, up to the return of `end`.  The worker
has handled `Start` and `Shutdown`. -/
def startAndEnd : List (Action Nat) :=
  startOne Nat ++ [.endCall, .main, .main, .forwardRecv 0, .forwardSend 0,
    .forwardRecv 0, .forwardSend 0, .worker 0, .worker 0, .worker 0,
    .handlerReturn 0, .worker 0, .worker 0, .handlerReturn 0]

/-- A request comes in while the worker drains the queue, and gets its reply. -/
theorem requests_released_late : ∃ g : Group Nat,
    g.callers = [(.client 0, 2)] ∧ g.main = .idle ∧
      g.step (.fastReturn (.client 0)) ≠ none := by
  have hrun := reach_after Attended 1
    (startAndEnd ++ [.fastSend (.client 0) 0 (.user 1) none, .forwardRecv 0,
      .forwardSend 0, .worker 0, .worker 0, .reply 0 (.user 5), .handlerReturn 0,
      .worker 0, .mainLock 0, .main, .main, .main, .main]) (by decide)
  exact ⟨_, by decide, by decide,
    requests_released hrun (by decide) (by decide) (.client 0, 2) (by decide)⟩

/-- A request that is sent after `end` has returned stays in the queue. -/
theorem requests_left_hanging : ¬ ∀ g : Group Nat, (machine Nat 1).Reachable g →
    g.Ended → g.ForwardersRest →
      ∀ p ∈ g.callers, g.step (.fastReturn p.1) ≠ none := by
  have hrun := reach_after (fun (_ : Group Nat) _ => True) 1
    (startAndEnd ++ [.worker 0, .mainLock 0, .main, .main, .main, .main,
      .fastSend (.client 0) 0 (.user 1) none, .forwardRecv 0, .forwardSend 0])
    (by decide)
  intro h
  refine h _ hrun (by decide) (by decide) (.client 0, 2) (by decide) ?_
  exact Option.isNone_iff_eq_none.mp (by decide)

end Group

end Actors
