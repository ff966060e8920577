import Actors.Group.Delivery

/-!
# The end of a group

`Group::end` sends `Shutdown` to the members, clears `running` and joins the
workers.  A worker that finds `running` cleared drains the shared queue and
leaves at the first moment it is empty.  But a letter reaches the queue through
a forwarding thread, and nobody asks whether the forwarders have caught up: what
arrives in the queue after the last worker has left stays there.

A letter is `Owed` when it was sent before `end` was called, or when it is one
of the `Shutdown` letters of that call.  `LastOut` is what is missing: the last
worker leaves only when every owed letter has reached the queue.
`end_loses_nothing` shows that it is enough.
-/

namespace Actors

open Concur

variable {μ : Type}

/-- `start` still has workers to spawn. -/
def MainPc.spawning : MainPc → Bool
  | .startInit _ | .initHook _ _ | .startSend _ | .startSpawn (_ + 1) => true
  | _ => false

/-- Past the call of `shutdown` in `end`. -/
def MainPc.stopped : MainPc → Bool
  | .idle | .waitEnd _ | .endHook _ _ | .waitJoin _ => true
  | _ => false

/-- The workers that `wait` has still to join. -/
def MainPc.joining : MainPc → List Nat
  | .waitJoin is => is
  | _ => []

/-- Nothing is called after `end`. -/
def EndsOnce (calls : List ApiCall) : Prop :=
  calls.Pairwise fun c _ => c ≠ .endCall

instance (calls : List ApiCall) : Decidable (EndsOnce calls) :=
  inferInstanceAs (Decidable (calls.Pairwise fun c _ => c ≠ .endCall))

namespace Group

/-- The letter was sent before `end` was called, or the main thread sent it
before that call cleared `running`. -/
def Owed (g : Group μ) (l : Letter μ) : Prop :=
  l.id < g.endMark ∨ l.author = .main ∧ l.id < g.stopMark

instance (g : Group μ) (l : Letter μ) : Decidable (g.Owed l) :=
  inferInstanceAs (Decidable (_ ∨ _))

/-- Worker `i` leaves its loop with its next step. -/
def leaves (g : Group μ) (i : Nat) : Bool :=
  g.queue.isEmpty && (g.workers[i]?).any fun w => w.pc matches .drain

/-- A worker other than `i` has not left its loop. -/
def OtherLeft (g : Group μ) (i : Nat) : Prop :=
  ∃ j < g.workers.length, j ≠ i ∧
    (g.workers[j]?).any (fun w => !w.pc.finished) = true

instance (g : Group μ) (i : Nat) : Decidable (g.OtherLeft i) :=
  inferInstanceAs (Decidable (∃ j < g.workers.length, _))

/-- `end` has been called, it has cleared `running`, and no owed letter is
still on its way to the queue. -/
def Arrived (g : Group μ) : Prop :=
  g.calls.getLast? = some .endCall ∧ g.main.stopped = true ∧
    ∀ f ∈ g.forwarders, ∀ l ∈ f.pending, ¬ g.Owed l

instance (g : Group μ) : Decidable g.Arrived :=
  inferInstanceAs (Decidable (_ ∧ _ ∧ _))

/-- No handler panics, and the last worker leaves its loop only after all owed
letters have reached the queue. -/
def LastOut (g : Group μ) : Action μ → Prop
  | .handlerPanic _ => False
  | .worker i => g.leaves i = true →
      g.main.spawning = true ∨ g.OtherLeft i ∨ g.Arrived
  | _ => True

instance (g : Group μ) (a : Action μ) : Decidable (LastOut g a) :=
  match a with
  | .handlerPanic _ => isFalse id
  | .worker i => inferInstanceAs (Decidable (g.leaves i = true →
      g.main.spawning = true ∨ g.OtherLeft i ∨ g.Arrived))
  | .add _ | .getRef _ | .start | .shutdown | .wait | .endCall | .main | .mainLock _
  | .send _ _ _ _ | .fastSend _ _ _ _ | .fastReturn _ | .dropRef _ | .forwardRecv _
  | .forwardSend _ | .forwardExit _ | .reply _ _ | .handlerReturn _ => isTrue trivial

theorem noPanic_of_lastOut (g : Group μ) (a : Action μ) (h : LastOut g a) :
    NoPanic g a := by
  cases a <;> first | rfl | exact h.elim

/-- The letter was passed to `process_message` of the member it was sent to. -/
def HandedOver (g : Group μ) (l : Letter μ) : Prop :=
  ∃ c ∈ g.handed, c.letter = l ∧ g.addedNames[c.actor]? = some l.addressee

/-- `shutdown` has sent its letter through reference `r`, as one of the first
`bound` letters. -/
def Told (g : Group μ) (bound r : Nat) : Prop :=
  ∃ l ∈ g.sent, l.via = r ∧ l.author = .main ∧ l.envelope.msg = .shutdown ∧
    g.endMark ≤ l.id ∧ l.id < bound

/-- What was sent before `end` was called has been handed over, and so has a
`Shutdown` from this call for every name that was added. -/
structure NothingLost (g : Group μ) : Prop where
  before : ∀ l ∈ g.sent, l.id < g.endMark → g.HandedOver l
  shutdown : ∀ name ∈ g.addedNames, ∃ l ∈ g.sent, l.addressee = name ∧
    l.author = .main ∧ l.envelope.msg = .shutdown ∧ g.endMark ≤ l.id ∧
    g.HandedOver l

/-! ## Numbers and names -/

/-- The marks are numbers of letters sent. -/
theorem marks_le {n : Nat} {ok : Group μ → Action μ → Prop} {g : Group μ}
    (h : (machine μ n).Reach ok g) :
    g.endMark ≤ g.sent.length ∧ g.stopMark ≤ g.sent.length := by
  refine invariant
    (I := fun g => g.endMark ≤ g.sent.length ∧ g.stopMark ≤ g.sent.length)
    ?_ ?_ h
  · exact ⟨Nat.zero_le _, Nat.zero_le _⟩
  · intro g a g' _ hg _ hmove
    cases hmove with
    | endCall => exact ⟨le_rfl, hg.2⟩
    | clearRunning => exact ⟨hg.1, le_rfl⟩
    | sendStart | sendShutdown | send | fastSend =>
      simp only [posted, List.length_append]
      exact ⟨Nat.le_add_right_of_le hg.1, Nat.le_add_right_of_le hg.2⟩
    | _ => exact hg

theorem numWorkers_eq {n : Nat} {ok : Group μ → Action μ → Prop} {g : Group μ}
    (h : (machine μ n).Reach ok g) : g.numWorkers = n := by
  refine invariant (I := fun g => g.numWorkers = n) ?_ ?_ h
  · rfl
  · intro g a g' _ hg _ hmove
    cases hmove <;> exact hg

/-- The group keeps a reference for every name that was added. -/
theorem exists_actorRef {n : Nat} {ok : Group μ → Action μ → Prop} {g : Group μ}
    (h : (machine μ n).Reach ok g) : ∀ name ∈ g.addedNames, ∃ r ∈ g.actorRefs,
      (g.forwarders.map Forwarder.name)[r]? = some name := by
  refine invariant (I := fun g => ∀ name ∈ g.addedNames,
    ∃ r ∈ g.actorRefs, (g.forwarders.map Forwarder.name)[r]? = some name)
    ?_ ?_ h
  · simp [addedNames, new]
  · intro g a g' _ hg _ hmove
    cases hmove with
    | add name hidle =>
      have hnames : (g.calls ++ [ApiCall.add name]).filterMap ApiCall.added =
          g.addedNames ++ [name] := by simp [addedNames, ApiCall.added]
      rw [addedNames, hnames]
      refine forall_mem_snoc (fun name' hmem => ?_) ?_
      · obtain ⟨r, hr, hget⟩ := hg name' hmem
        refine ⟨r, List.mem_append_left _ hr, ?_⟩
        rw [List.map_append]
        exact getElem?_concat hget
      · exact ⟨g.forwarders.length, by simp, by simp [Forwarder.new]⟩
    | start | shutdown | wait | endCall =>
      rw [addedNames_call rfl rfl]
      exact hg
    | getRef =>
      intro name hmem
      obtain ⟨r, hr, hget⟩ := hg name hmem
      refine ⟨r, hr, ?_⟩
      rw [List.map_append]
      exact getElem?_concat hget
    | sendStart r rs f hmain hf | sendShutdown r rs b f hmain hf
    | send t r msg sender f hcan hfree hf | fastSend t r msg sender f hcan hfree hf
    | dropRef r f hf | forwardRecv r f l rest hf | forwardSend r f l hf
    | forwardExit r f hf =>
      intro name hmem
      obtain ⟨r, hr, hget⟩ := hg name hmem
      refine ⟨r, hr, Eq.trans ?_ hget⟩
      exact congrArg (·[r]?) (map_set_of_eq Forwarder.name hf rfl)
    | _ => exact hg

/-! ## The thread in `end` -/

theorem Told.mono {g g' : Group μ} {bound bound' r : Nat} (h : g.Told bound r)
    (hsent : g.sent ⊆ g'.sent) (hmark : g'.endMark = g.endMark)
    (hbound : bound ≤ bound') : g'.Told bound' r := by
  obtain ⟨l, hl, hvia, hauthor, hmsg, hle, hlt⟩ := h
  exact ⟨l, hsent hl, hvia, hauthor, hmsg, hmark ▸ hle,
    Nat.lt_of_lt_of_le hlt hbound⟩

/-- How far `end` has come. -/
def Ending (g : Group μ) : Prop :=
  match g.main with
  | .shutdownSend todo thenWait => thenWait = true ∧
      ∀ r ∈ g.actorRefs, r ∈ todo ∨ g.Told g.sent.length r
  | .waitEnd _ | .endHook _ _ => ∀ r ∈ g.actorRefs, g.Told g.stopMark r
  | .waitJoin _ | .idle =>
      (∀ r ∈ g.actorRefs, g.Told g.stopMark r) ∧ g.handles = []
  | .panicked => True
  | _ => False

/-- A step in which the main thread does not move. -/
theorem Ending.frame {g g' : Group μ} (h : g.Ending) (hmain : g'.main = g.main)
    (hrefs : g'.actorRefs = g.actorRefs) (hhandles : g'.handles = g.handles)
    (hmark : g'.endMark = g.endMark) (hstop : g'.stopMark = g.stopMark)
    (hsent : g.sent ⊆ g'.sent) (hlen : g.sent.length ≤ g'.sent.length) :
    g'.Ending := by
  unfold Ending at *
  rw [hmain, hrefs, hhandles, hstop]
  have htold : ∀ r, g.Told g.stopMark r → g'.Told g.stopMark r :=
    fun r hr => hr.mono hsent hmark le_rfl
  cases hpc : g.main with
  | shutdownSend todo b =>
    rw [hpc] at h
    exact ⟨h.1, fun r hr => (h.2 r hr).imp_right (·.mono hsent hmark hlen)⟩
  | waitEnd todo | endHook m todo =>
    rw [hpc] at h
    exact fun r hr => htold r (h r hr)
  | waitJoin todo | idle =>
    rw [hpc] at h
    exact ⟨fun r hr => htold r (h.1 r hr), h.2⟩
  | panicked => trivial
  | _ => rw [hpc] at h; exact h

theorem ending_move {g g' : Group μ} {a : Action μ} (hmove : Move g a g')
    (hmarks : g.endMark ≤ g.sent.length)
    (h : g.calls.getLast? = some .endCall → g.Ending)
    (hlast : g'.calls.getLast? = some .endCall) : g'.Ending := by
  cases hmove with
  | add | start | shutdown | wait => simp at hlast
  | endCall hidle => exact ⟨rfl, fun r hr => Or.inl hr⟩
  | initLock m mem todo hmain | initReturn m todo hmain | initsDone hmain
  | sendStart r rs f hmain | startSent hmain | spawn n hmain | spawned hmain =>
    have hold := h hlast
    rw [Ending, hmain] at hold
    exact hold.elim
  | endLock m mem todo hmain | endReturn m todo hmain | join i is w hmain
  | joined hmain =>
    have hold := h hlast
    rw [Ending, hmain] at hold
    exact hold
  | lockPanic => trivial
  | sendShutdown r rs b f hmain hf hlive =>
    have hold := h hlast
    rw [Ending, hmain] at hold
    refine ⟨hold.1, fun k hk => ?_⟩
    rcases hold.2 k hk with hin | htold
    · rcases List.mem_cons.mp hin with rfl | hin
      · refine Or.inr ⟨_, List.mem_append_right _ (List.mem_singleton.mpr rfl),
          rfl, rfl, rfl, hmarks, ?_⟩
        simp [posted, letterOf]
      · exact Or.inl hin
    · exact Or.inr (htold.mono (List.subset_append_left _ _) rfl (by simp [posted]))
  | clearRunning b hmain =>
    have hold := h hlast
    rw [Ending, hmain] at hold
    obtain ⟨rfl, htold⟩ := hold
    refine fun r hr => ?_
    have hr' := (htold r hr).resolve_left (by simp)
    exact hr'.mono (fun _ hl => hl) rfl le_rfl
  | endsDone hmain =>
    have hold := h hlast
    rw [Ending, hmain] at hold
    exact ⟨hold, rfl⟩
  | send | fastSend =>
    exact (h hlast).frame rfl rfl rfl rfl rfl (List.subset_append_left _ _)
      (by simp [posted])
  | _ => exact (h hlast).frame rfl rfl rfl rfl rfl (fun _ hl => hl) le_rfl

/-- As long as `end` is the last call, `shutdown` has sent `Shutdown` through
all references before `running` is cleared, and no handle is left when the
thread is back. -/
theorem ending {n : Nat} {ok : Group μ → Action μ → Prop} {g : Group μ}
    (h : (machine μ n).Reach ok g) :
    g.calls.getLast? = some .endCall → g.Ending := by
  refine invariant
    (I := fun g => g.calls.getLast? = some .endCall → g.Ending) ?_ ?_ h
  · intro hlast
    simp [new] at hlast
  · intro g a g' hreach hg _ hmove
    exact ending_move hmove (marks_le hreach).1 hg

/-- A worker has ended, or its handle is still to be joined. -/
def Joined (g : Group μ) : Prop :=
  ∀ i w, g.workers[i]? = some w → w.pc.finished = true ∨
    i ∈ g.handles ∨ i ∈ g.main.joining

/-- A worker that moves has not ended. -/
theorem Joined.set {g : Group μ} (h : g.Joined) {i : Nat} {w w' : Worker μ}
    (hw : g.workers[i]? = some w) (hlive : w.pc.finished = false) :
    ∀ j x, (g.workers.set i w')[j]? = some x → x.pc.finished = true ∨
      j ∈ g.handles ∨ j ∈ g.main.joining :=
  forall_getElem?_set h (Or.inr ((h i w hw).resolve_left (by simp [hlive])))

/-- A step of the main thread that takes no handle. -/
theorem Joined.main {g : Group μ} (h : g.Joined) {pc main' : MainPc}
    (hmain : g.main = pc) (hjoining : main'.joining = pc.joining) :
    ∀ i w, g.workers[i]? = some w → w.pc.finished = true ∨
      i ∈ g.handles ∨ i ∈ main'.joining := by
  intro i w hw
  rw [hjoining, ← hmain]
  exact h i w hw

theorem joined_move {g g' : Group μ} {a : Action μ} (hmove : Move g a g')
    (h : g.Joined) : g'.Joined := by
  cases hmove with
  | start hmain | shutdown hmain | wait hmain | endCall hmain
  | initLock m mem todo hmain | endLock m mem todo hmain
  | initReturn m todo hmain | endReturn m todo hmain | initsDone hmain
  | sendStart r rs f hmain | startSent hmain | spawned hmain
  | sendShutdown r rs b f hmain | joined hmain =>
    exact h.main hmain rfl
  | clearRunning b hmain =>
    exact h.main hmain (by cases b <;> rfl)
  | lockPanic m mem todo hmain =>
    rcases hmain with hmain | hmain <;> exact h.main hmain rfl
  | spawn n hmain =>
    refine forall_getElem?_snoc (fun i w hw => ?_) (Or.inr (Or.inl (by simp)))
    refine (h i w hw).imp_right (Or.imp (List.mem_append_left _) ?_)
    simp [hmain, MainPc.joining]
  | endsDone hmain =>
    intro i w hw
    have hold := h i w hw
    simpa [hmain, MainPc.joining] using hold
  | join i is w hmain hw hfin =>
    intro j x hx
    rcases h j x hx with hfin' | hin | hin
    · exact Or.inl hfin'
    · exact Or.inr (Or.inl hin)
    · rw [hmain, MainPc.joining] at hin
      rcases List.mem_cons.mp hin with rfl | hin
      · rw [hw, Option.some.injEq] at hx
        exact Or.inl (hx ▸ hfin)
      · exact Or.inr (Or.inr hin)
  | check i w hw hpc | recvEmpty i w hw hpc | drainEmpty i w hw hpc
  | recv i w env rest hw hpc | drain i w env rest hw hpc
  | noMember i w d env hw hpc | memberPanic i w d env m mem hw hpc
  | processBegin i w d env m mem hw hpc | handlerReturn i w d m l hw hpc
  | handlerPanic i w d m l hw hpc =>
    exact h.set hw (by rw [hpc]; rfl)
  | recvPanic i w hw hpc =>
    exact h.set hw (by rcases hpc with hpc | hpc <;> rw [hpc] <;> rfl)
  | _ => exact h

theorem joined {n : Nat} {ok : Group μ → Action μ → Prop} {g : Group μ}
    (h : (machine μ n).Reach ok g) : g.Joined := by
  refine invariant ?_ ?_ h
  · intro i w hw
    simp [new] at hw
  · intro g a g' _ hg _ hmove
    exact joined_move hmove hg

/-! ## Somebody is there to take the letters -/

/-- Every owed letter has been handed over or lost. -/
structure Done (g : Group μ) : Prop where
  arrived : g.Arrived
  queue : ∀ env ∈ g.queue, ¬ g.Owed env.letter
  hands : ∀ w ∈ g.workers, ∀ l ∈ w.hand, ¬ g.Owed l

/-- A worker is in its loop, or there will be one, or nothing is left to do. -/
def Manned (g : Group μ) : Prop :=
  g.main.spawning = true ∨ (∃ w ∈ g.workers, w.pc.finished = false) ∨ g.Done

/-- A step in which no worker moves. -/
theorem Manned.step {g g' : Group μ} (h : g.Manned)
    (hspawning : g.main.spawning = true → g'.main.spawning = true)
    (hworkers : g'.workers = g.workers) (hdone : g.Done → g'.Done) :
    g'.Manned := by
  refine h.imp hspawning (Or.imp ?_ hdone)
  rw [hworkers]
  exact id

theorem manned_of_live {g g' : Group μ} {i : Nat} {w w' : Worker μ}
    (hw : g.workers[i]? = some w) (hworkers : g'.workers = g.workers.set i w')
    (hlive : w'.pc.finished = false) : g'.Manned := by
  have hlt := (List.getElem?_eq_some_iff.mp hw).1
  refine Or.inr (Or.inl ⟨w', ?_, hlive⟩)
  rw [hworkers]
  exact List.mem_of_getElem? (List.getElem?_set_self hlt)

/-- The main thread goes on in `wait`. -/
theorem Done.main {g g' : Group μ} (h : g.Done)
    (heq : g' = { g with
      main := g'.main, members := g'.members, history := g'.history
      handles := g'.handles })
    (hstopped : g'.main.stopped = true) : g'.Done := by
  rw [heq]
  exact ⟨⟨h.arrived.1, hstopped, h.arrived.2.2⟩, h.queue, h.hands⟩

/-- A new letter is not owed. -/
theorem Done.posted {g : Group μ} (h : g.Done)
    (hmarks : g.endMark ≤ g.sent.length ∧ g.stopMark ≤ g.sent.length) {r : Nat}
    {f : Forwarder μ} {l : Letter μ} (hf : g.forwarders[r]? = some f)
    (hid : l.id = g.sent.length) : (g.posted r f l).Done := by
  obtain ⟨hlast, hstopped, hpending⟩ := h.arrived
  refine ⟨⟨hlast, hstopped, ?_⟩, h.queue, h.hands⟩
  refine forall_mem_set hpending fun x hx => ?_
  rw [Forwarder.pending, ← List.append_assoc] at hx
  rcases List.mem_append.mp hx with hx | hx
  · exact hpending f (List.mem_of_getElem? hf) x hx
  · rw [List.mem_singleton.mp hx]
    rintro (hlt | ⟨-, hlt⟩)
    · exact absurd (hid ▸ hlt) (Nat.not_lt.mpr hmarks.1)
    · exact absurd (hid ▸ hlt) (Nat.not_lt.mpr hmarks.2)

/-- A step of a forwarding thread. -/
theorem Done.forward {g : Group μ} (h : g.Done) {r : Nat} {f f' : Forwarder μ}
    (hf : g.forwarders[r]? = some f) (hsub : f'.pending ⊆ f.pending)
    {queue : List (GroupEnvelope μ)}
    (hqueue : ∀ env ∈ queue, env ∈ g.queue ∨ env.letter ∈ f.pending) :
    Done { g with forwarders := g.forwarders.set r f', queue := queue } := by
  obtain ⟨hlast, hstopped, hpending⟩ := h.arrived
  have hold := hpending f (List.mem_of_getElem? hf)
  refine ⟨⟨hlast, hstopped, ?_⟩, fun env henv => ?_, h.hands⟩
  · exact forall_mem_set hpending fun l hl => hold l (hsub hl)
  · rcases hqueue env henv with hin | hin
    · exact h.queue env hin
    · exact hold _ hin

/-- Nothing is called after `end`. -/
theorem not_done_of_append {g : Group μ} {c : ApiCall}
    (hends : EndsOnce (g.calls ++ [c])) : ¬ g.Done := by
  intro h
  have hmem := List.mem_of_getLast? h.arrived.1
  exact (List.pairwise_append.mp hends).2.2 .endCall hmem c (by simp) rfl

theorem hand_of_finished {w : Worker μ} (h : w.pc.finished = true) :
    w.hand = none := by
  unfold Worker.hand
  cases hpc : w.pc <;> simp_all [WorkerPc.finished, WorkerPc.hand]

/-- Another worker than the one that moves is in its loop. -/
theorem staffed_of_other {g : Group μ} {i : Nat} (h : g.OtherLeft i)
    (w' : Worker μ) : ∃ x ∈ g.workers.set i w', x.pc.finished = false := by
  obtain ⟨j, hj, hji, hlive⟩ := h
  rw [List.getElem?_eq_getElem hj, Option.any_some, Bool.not_eq_true'] at hlive
  refine ⟨g.workers[j], List.mem_of_getElem? (i := j) ?_, hlive⟩
  rw [List.getElem?_set_ne (Ne.symm hji), List.getElem?_eq_getElem hj]

/-- A worker finds the queue empty and leaves. -/
theorem manned_of_leaving {g : Group μ} {i : Nat} {w : Worker μ}
    (hw : g.workers[i]? = some w) (hq : g.queue = [])
    (hok : g.main.spawning = true ∨ g.OtherLeft i ∨ g.Arrived) :
    Manned { g with workers := g.workers.set i { w with pc := .exited } } := by
  by_cases hother : g.OtherLeft i
  · exact Or.inr (Or.inl (staffed_of_other hother _))
  · rcases hok with hspawning | hno | harrived
    · exact Or.inl hspawning
    · exact absurd hno hother
    · refine Or.inr (Or.inr ⟨harrived, by simp [hq], ?_⟩)
      intro w' hw' l hl
      -- Nobody is left, so nobody has a letter in hand.
      suffices hfin : w'.pc.finished = true by
        rw [hand_of_finished hfin] at hl
        simp at hl
      obtain ⟨j, hj⟩ := List.mem_iff_getElem?.mp hw'
      by_cases hji : j = i
      · subst hji
        rw [List.getElem?_set_self (List.getElem?_eq_some_iff.mp hw).1,
          Option.some.injEq] at hj
        exact hj ▸ rfl
      · rw [List.getElem?_set_ne (Ne.symm hji)] at hj
        by_contra hlive
        rw [Bool.not_eq_true] at hlive
        refine hother ⟨j, (List.getElem?_eq_some_iff.mp hj).1, hji, ?_⟩
        simp [hj, hlive]

theorem manned_move {g g' : Group μ} {a : Action μ} (hmove : Move g a g')
    (hok : LastOut g a) (hclean : g.Clean) (hpos : 0 < g.numWorkers)
    (hmarks : g.endMark ≤ g.sent.length ∧ g.stopMark ≤ g.sent.length)
    (hends : EndsOnce g'.calls) (h : .start ∈ g.calls → g.Manned)
    (hstart : .start ∈ g'.calls) : g'.Manned := by
  cases hmove with
  | add name hmain | shutdown hmain | wait hmain | endCall hmain =>
    have hstart' : .start ∈ g.calls := by simpa using hstart
    exact (h hstart').step (by simp [hmain, MainPc.spawning]) rfl
      fun hdone => absurd hdone (not_done_of_append hends)
  | start | initLock | initReturn | initsDone | sendStart => exact Or.inl rfl
  | startSent hmain =>
    refine Or.inl ?_
    obtain ⟨k, hk⟩ := Nat.exists_eq_succ_of_ne_zero (Nat.ne_of_gt hpos)
    rw [hk]
    rfl
  | spawn k hmain =>
    exact Or.inr (Or.inl ⟨_, List.mem_append_right _ (List.mem_singleton.mpr rfl),
      rfl⟩)
  | spawned hmain | sendShutdown r rs b f hmain | clearRunning b hmain =>
    refine (h hstart).step (by simp [hmain, MainPc.spawning]) rfl fun hdone => ?_
    have hstopped := hdone.arrived.2.1
    simp [hmain, MainPc.stopped] at hstopped
  | endLock m mem todo hmain | endReturn m todo hmain | endsDone hmain
  | join i is w hmain | joined hmain =>
    exact (h hstart).step (by simp [hmain, MainPc.spawning]) rfl
      fun hdone => hdone.main rfl rfl
  | lockPanic m mem todo hmain hmem hpois
  | memberPanic i w d env m mem hw hpc hm hmem hpois =>
    rw [hclean.members mem (List.mem_of_getElem? hmem)] at hpois
    simp at hpois
  | getRef name href =>
    refine (h hstart).step id rfl fun hdone => ?_
    obtain ⟨hlast, hstopped, hpending⟩ := hdone.arrived
    exact { hdone with arrived := ⟨hlast, hstopped,
      forall_mem_snoc hpending (by simp [Forwarder.new, Forwarder.pending])⟩ }
  | send t r msg sender f hcan hfree hf hlive =>
    exact (h hstart).step id rfl fun hdone => hdone.posted hmarks hf rfl
  | fastSend t r msg sender f hcan hfree hf hlive =>
    refine (h hstart).step id rfl fun hdone => ?_
    have hposted := hdone.posted (l := g.letterOf t r f.name msg sender true)
      hmarks hf rfl
    exact { hposted with }
  | dropRef r f hf | forwardExit r f hf =>
    refine (h hstart).step id rfl fun hdone =>
      hdone.forward hf ?_ fun env henv => Or.inl henv
    exact fun l hl => hl
  | forwardRecv r f l rest hf hchan hhand =>
    refine (h hstart).step id rfl fun hdone =>
      hdone.forward hf ?_ fun env henv => Or.inl henv
    simp [Forwarder.pending, hchan, hhand]
  | forwardSend r f l hf hhand =>
    refine (h hstart).step id rfl fun hdone => hdone.forward hf ?_ ?_
    · simp [Forwarder.pending]
    · refine forall_mem_snoc (fun env henv => Or.inl henv) (Or.inr ?_)
      simp [Forwarder.pending, hhand]
  | check i w hw hpc =>
    exact manned_of_live hw rfl (by cases g.running <;> rfl)
  | recvEmpty i w hw hpc | recv i w env rest hw hpc | drain i w env rest hw hpc
  | processBegin i w d env m mem hw hpc =>
    exact manned_of_live hw rfl rfl
  | noMember i w d env hw hpc | handlerReturn i w d m l hw hpc =>
    exact manned_of_live hw rfl (by cases d <;> rfl)
  | recvPanic i w hw hpc hpois =>
    rw [hclean.receiver] at hpois
    simp at hpois
  | handlerPanic => exact hok.elim
  | drainEmpty i w hw hpc hq =>
    exact manned_of_leaving hw hq (hok (by simp [leaves, hw, hpc, hq]))
  | fastReturn | fastReturnNone | reply | getRefNone =>
    exact (h hstart).step id rfl fun hdone => { hdone with }

theorem endsOnce_of_move {g g' : Group μ} {a : Action μ} (h : Move g a g')
    (hends : EndsOnce g'.calls) : EndsOnce g.calls := by
  rcases calls_of_move h with heq | ⟨c, heq⟩
  · exact heq ▸ hends
  · rw [heq] at hends
    exact (List.pairwise_append.mp hends).1

/-- In a started group with a worker there is always one in its loop, until all
owed letters have been handed over. -/
theorem manned {n : Nat} (hn : 0 < n) {g : Group μ}
    (h : (machine μ n).Reach LastOut g) :
    EndsOnce g.calls → .start ∈ g.calls → g.Manned := by
  refine invariant
    (I := fun g => EndsOnce g.calls → .start ∈ g.calls → g.Manned) ?_ ?_ h
  · intro _ hstart
    simp [new] at hstart
  · intro g a g' hreach hg hok hmove hends
    have hpos : 0 < g.numWorkers := numWorkers_eq hreach ▸ hn
    exact manned_move hmove hok (clean (hreach.mono noPanic_of_lastOut)) hpos
      (marks_le hreach) hends (hg (endsOnce_of_move hmove hends))

/-! ## Nothing is lost -/

/-- In every run in which the last worker leaves its loop only after all owed
letters have reached the queue, nothing is lost that was sent before `end` was
called, and no `Shutdown` of `end` either. -/
theorem end_loses_nothing {n : Nat} (hn : 0 < n) {g : Group μ}
    (h : (machine μ n).Reach LastOut g) (hcalls : StartedOnce g.calls)
    (hends : EndsOnce g.calls) (hstart : .start ∈ g.calls)
    (hlast : g.calls.getLast? = some .endCall) (hidle : g.main = .idle) :
    g.NothingLost := by
  have hending := ending h hlast
  rw [Ending, hidle] at hending
  obtain ⟨htold, hhandles⟩ := hending
  -- All workers have been joined, so all owed letters are done.
  have hdone : g.Done := by
    rcases manned hn h hends hstart with hspawning | ⟨w, hw, hlive⟩ | hdone
    · simp [hidle, MainPc.spawning] at hspawning
    · obtain ⟨i, hi⟩ := List.mem_iff_getElem?.mp hw
      have hjoined := joined h i w hi
      simp [hlive, hhandles, hidle, MainPc.joining] at hjoined
    · exact hdone
  have hlost := lost_eq_nil (h.mono noPanic_of_lastOut) hcalls
  have handed : ∀ l ∈ g.sent, g.Owed l → g.HandedOver l := by
    intro l hl howed
    have hperm := conserved_perm h
    rw [hlost, List.append_nil] at hperm
    have hmem := hperm.mem_iff.mpr hl
    simp only [List.mem_append, List.mem_flatMap, List.mem_map,
      Option.mem_toList] at hmem
    rcases hmem with ((⟨f, hf, hin⟩ | ⟨env, henv, rfl⟩) | ⟨w, hw, hin⟩) |
      ⟨c, hc, rfl⟩
    · exact absurd howed (hdone.arrived.2.2 f hf l hin)
    · exact absurd howed (hdone.queue env henv)
    · exact absurd howed (hdone.hands w hw l hin)
    · exact ⟨c, hc, rfl, (routed h).handed c hc⟩
  refine ⟨fun l hl hlt => handed l hl (Or.inl hlt), fun name hname => ?_⟩
  obtain ⟨r, hr, hname⟩ := exists_actorRef h name hname
  obtain ⟨l, hl, rfl, hauthor, hmsg, hle, hlt⟩ := htold r hr
  refine ⟨l, hl, ?_, hauthor, hmsg, hle, handed l hl (Or.inr ⟨hauthor, hlt⟩)⟩
  have hvia := (routed h).sent l hl
  rw [hname, Option.some.injEq] at hvia
  exact hvia.symm

/-- The worker takes `Start` and `Shutdown` out of the queue before it leaves. -/
theorem end_loses_nothing_one : ∃ g : Group Nat,
    (machine Nat 1).Reach LastOut g ∧ g.main = .idle ∧ g.sent.length = 2 ∧
      g.NothingLost := by
  have hrun := reach_after LastOut 1
    (startOne Nat ++ [.endCall, .main, .main, .forwardRecv 0, .forwardSend 0,
      .forwardRecv 0, .forwardSend 0, .worker 0, .worker 0, .worker 0,
      .handlerReturn 0, .worker 0, .worker 0, .handlerReturn 0, .worker 0,
      .mainLock 0, .main, .main, .main, .main]) (by decide)
  exact ⟨_, hrun, by decide, by decide, end_loses_nothing (by decide) hrun
    (by decide) (by decide) (by decide) (by decide) (by decide)⟩

/-- The worker finds the queue empty and leaves while `Start` and `Shutdown` are
still in the wrapper channel. -/
theorem end_loses_start : ¬ ∀ g : Group Nat, (machine Nat 1).Reach NoPanic g →
    StartedOnce g.calls → EndsOnce g.calls → .start ∈ g.calls →
    g.calls.getLast? = some .endCall → g.main = .idle → g.NothingLost := by
  obtain ⟨g, hrun, hhanded, hsent, hcalls, hends, hstart, hlast, hidle⟩ :
      ∃ g : Group Nat, (machine Nat 1).Reach NoPanic g ∧ g.handed = [] ∧
        (∃ l ∈ g.sent, l.id < g.endMark) ∧ StartedOnce g.calls ∧
        EndsOnce g.calls ∧ .start ∈ g.calls ∧
        g.calls.getLast? = some .endCall ∧ g.main = .idle :=
    ⟨_, reach_after NoPanic 1
      (startOne Nat ++ [.endCall, .main, .main, .worker 0, .worker 0, .mainLock 0,
        .main, .main, .main, .main]) (by decide), by decide, by decide,
      by decide, by decide, by decide, by decide, by decide⟩
  intro h
  obtain ⟨l, hl, hlt⟩ := hsent
  obtain ⟨c, hc, -⟩ :=
    (h g hrun hcalls hends hstart hlast hidle).before l hl hlt
  simp [hhanded] at hc

end Group

end Actors
