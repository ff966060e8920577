import Actors.Group.Move

/-!
# Who is inside a member

A member is locked for the whole of a hook and for the whole of a call of
`process_message`.  `membersLocked` says that in every state a thread is inside
a member exactly when the lock word of the member names it, whatever runs and
whatever panics.
-/

namespace Actors

open Concur

variable {μ : Type}

namespace Group

/-- The member that a thread is inside of. -/
def insideOf (main : MainPc) (workers : List (Worker μ)) :
    ThreadId → Option Nat
  | .main => main.inside
  | .worker i => (workers[i]?).bind fun w => w.pc.inside
  | .client _ => none

/-- The thread that the lock word of a member names. -/
def ownerOf (members : List GroupMember) (m : Nat) : Option ThreadId :=
  (members[m]?).bind fun mem => mem.mutex.owner

/-- Program counters and lock words agree. -/
def MembersLocked (g : Group μ) : Prop :=
  Locked (insideOf g.main g.workers) (ownerOf g.members)

section Updates

variable {workers : List (Worker μ)}
  {members : List GroupMember}

theorem insideOf_main (main main' : MainPc) : insideOf main' workers =
    Function.update (insideOf main workers) .main main'.inside := by
  funext t
  cases t <;> simp [insideOf]

theorem insideOf_main_eq (main : MainPc) {main' : MainPc}
    (h : main'.inside = main.inside) :
    insideOf main' workers = insideOf main workers := by
  funext t
  cases t <;> simp [insideOf, h]

theorem insideOf_set {main : MainPc} {i : Nat} {w w' : Worker μ} (hw : workers[i]? = some w) :
    insideOf main (workers.set i w') =
      Function.update (insideOf main workers) (.worker i) w'.pc.inside := by
  have hlt : i < workers.length := (List.getElem?_eq_some_iff.mp hw).1
  funext t
  cases t with
  | worker j =>
    by_cases hij : j = i
    · subst hij
      simp [insideOf, hlt]
    · simp [insideOf, hij, Ne.symm hij]
  | _ => simp [insideOf]

theorem insideOf_set_eq {main : MainPc} {i : Nat} {w w' : Worker μ}
    (hw : workers[i]? = some w) (h : w'.pc.inside = w.pc.inside) :
    insideOf main (workers.set i w') = insideOf main workers := by
  rw [insideOf_set hw, h]
  funext t
  by_cases ht : t = .worker i
  · simp [ht, insideOf, hw]
  · simp [ht]

theorem insideOf_append {main : MainPc} {w : Worker μ} (h : w.pc.inside = none) :
    insideOf main (workers ++ [w]) = insideOf main workers := by
  funext t
  cases t with
  | worker j =>
    rcases Nat.lt_trichotomy j workers.length with hlt | rfl | hgt
    · simp [insideOf, List.getElem?_append_left hlt]
    · simp [insideOf, h]
    · have hnone : (workers ++ [w])[j]? = none :=
        List.getElem?_eq_none (by simp; omega)
      simp [insideOf, hnone, List.getElem?_eq_none (Nat.le_of_lt hgt)]
  | _ => rfl

theorem ownerOf_set {m : Nat} {mem mem' : GroupMember}
    (hmem : members[m]? = some mem) :
    ownerOf (members.set m mem') =
      Function.update (ownerOf members) m mem'.mutex.owner := by
  have hlt : m < members.length := (List.getElem?_eq_some_iff.mp hmem).1
  funext k
  by_cases hk : k = m
  · subst hk
    simp [ownerOf, hlt]
  · simp [ownerOf, hk, Ne.symm hk]

theorem ownerOf_set_eq {m : Nat} {mem mem' : GroupMember}
    (hmem : members[m]? = some mem) (h : mem'.mutex = mem.mutex) :
    ownerOf (members.set m mem') = ownerOf members := by
  rw [ownerOf_set hmem, h]
  funext k
  by_cases hk : k = m
  · simp [hk, ownerOf, hmem]
  · simp [hk]

theorem ownerOf_modify {m : Nat} {f : GroupMember → GroupMember}
    (hf : ∀ mem, (f mem).mutex.owner = none) :
    ownerOf (members.modify m f) =
      Function.update (ownerOf members) m none := by
  funext k
  by_cases hk : k = m
  · subst hk
    cases hmem : members[k]? <;> simp [ownerOf, hmem, hf]
  · simp [ownerOf, hk, Ne.symm hk]

theorem ownerOf_append {mem : GroupMember} (h : mem.mutex.owner = none) :
    ownerOf (members ++ [mem]) = ownerOf members := by
  funext k
  rcases Nat.lt_trichotomy k members.length with hlt | rfl | hgt
  · simp [ownerOf, List.getElem?_append_left hlt]
  · simp [ownerOf, h]
  · have hnone : (members ++ [mem])[k]? = none :=
      List.getElem?_eq_none (by simp; omega)
    simp [ownerOf, hnone, List.getElem?_eq_none (Nat.le_of_lt hgt)]

end Updates

@[simp] theorem inside_after (d : Bool) :
    (WorkerPc.after d : WorkerPc μ).inside = none := by
  cases d <;> rfl

/-- The main thread enters a member. -/
theorem MembersLocked.mainEnter {g : Group μ} (h : g.MembersLocked)
    {main' : MainPc} {m : Nat} {mem : GroupMember} (hout : g.main.inside = none)
    (hin : main'.inside = some m) (hmem : g.members[m]? = some mem)
    (hfree : mem.mutex.owner = none) :
    Locked (insideOf main' g.workers) (ownerOf (g.members.set m
      { mem with mutex := { owner := some .main, poisoned := false } })) := by
  rw [insideOf_main g.main main', ownerOf_set hmem, hin]
  exact h.acquire hout (by simp [ownerOf, hmem, hfree])

/-- The main thread leaves a member. -/
theorem MembersLocked.mainLeave {g : Group μ} (h : g.MembersLocked)
    {main' : MainPc} {m : Nat} (hin : g.main.inside = some m)
    (hout : main'.inside = none) :
    Locked (insideOf main' g.workers) (ownerOf (g.members.modify m
      fun mem => { mem with mutex := mem.mutex.unlock })) := by
  rw [insideOf_main g.main main', ownerOf_modify (by simp), hout]
  exact h.release hin

/-- A worker leaves a member, by returning or by a panic. -/
theorem MembersLocked.workerLeave {g : Group μ} (h : g.MembersLocked)
    {i m : Nat} {w w' : Worker μ} {f : GroupMember → GroupMember}
    (hw : g.workers[i]? = some w) (hin : w.pc.inside = some m)
    (hout : w'.pc.inside = none) (hf : ∀ mem, (f mem).mutex.owner = none) :
    Locked (insideOf g.main (g.workers.set i w'))
      (ownerOf (g.members.modify m f)) := by
  rw [insideOf_set hw, ownerOf_modify hf, hout]
  exact h.release (by simp [insideOf, hw, hin])

/-- What a step does to program counters it does to lock words. -/
theorem membersLocked_move {g g' : Group μ} {a : Action μ} (h : Move g a g')
    (hg : g.MembersLocked) : g'.MembersLocked := by
  unfold MembersLocked at *
  cases h with
  | add name hidle =>
    rwa [ownerOf_append (by rfl)]
  | start hidle | shutdown hidle | wait hidle | endCall hidle =>
    rwa [insideOf_main_eq g.main (by rw [hidle]; rfl)]
  | initLock m mem todo hmain hm hmem hfree hclean
  | endLock m mem todo hmain hm hmem hfree hclean =>
    exact MembersLocked.mainEnter hg (by rw [hmain]; rfl) rfl hmem hfree
  | lockPanic m mem todo hmain hmem hpois =>
    have hout : g.main.inside = none := by
      rcases hmain with hmain | hmain <;> rw [hmain] <;> rfl
    have hin : MainPc.panicked.inside = g.main.inside := hout.symm
    rwa [insideOf_main_eq g.main hin]
  | initReturn m todo hmain | endReturn m todo hmain =>
    exact MembersLocked.mainLeave hg (by rw [hmain]; rfl) rfl
  | initsDone hmain | startSent hmain | spawned hmain | endsDone hmain
  | joined hmain | sendStart r rs f hmain | sendShutdown r rs b f hmain
  | join i is w hmain =>
    rwa [insideOf_main_eq g.main (by rw [hmain]; rfl)]
  | clearRunning b hmain =>
    rwa [insideOf_main_eq g.main (by rw [hmain]; cases b <;> rfl)]
  | spawn n hmain =>
    rwa [insideOf_append (by rfl),
      insideOf_main_eq g.main (by rw [hmain]; rfl)]
  | check i w hw hpc =>
    rwa [insideOf_set_eq hw (by rw [hpc]; cases g.running <;> rfl)]
  | recvPanic i w hw hpc hpois =>
    rwa [insideOf_set_eq hw (by rcases hpc with hpc | hpc <;> rw [hpc] <;> rfl)]
  | recv i w env rest hw hpc | recvEmpty i w hw hpc
  | drain i w env rest hw hpc | drainEmpty i w hw hpc
  | memberPanic i w d env m mem hw hpc =>
    rwa [insideOf_set_eq hw (by rw [hpc]; rfl)]
  | noMember i w d env hw hpc =>
    rwa [insideOf_set_eq hw (by rw [hpc, inside_after]; rfl)]
  | processBegin i w d env m mem hw hpc hm hmem hfree hclean =>
    rw [insideOf_set hw, ownerOf_set hmem]
    exact hg.acquire (by simp [insideOf, hw, hpc, WorkerPc.inside])
      (by simp [ownerOf, hmem, hfree])
  | reply i msg w d m l mem hw hpc hmem =>
    have howner : ownerOf (g.members.set m
        { mem with context := mem.context.reply.2 }) = ownerOf g.members :=
      ownerOf_set_eq hmem rfl
    rwa [howner]
  | handlerReturn i w d m l hw hpc hfree =>
    exact MembersLocked.workerLeave hg hw (by rw [hpc]; rfl) (inside_after d)
      (by simp)
  | handlerPanic i w d m l hw hpc hfree =>
    exact MembersLocked.workerLeave hg hw (by rw [hpc]; rfl) rfl (by simp)
  | _ => exact hg

/-- In every state of every run, a thread is inside a member exactly when the
lock word of the member names it. -/
theorem membersLocked {n : Nat} {ok : Group μ → Action μ → Prop} {g : Group μ}
    (h : (machine μ n).Reach ok g) : g.MembersLocked := by
  refine invariant ?_ ?_ h
  · intro t m
    cases t <;> simp [insideOf, ownerOf, new, MainPc.inside]
  · intro g a g' _ hg _ hmove
    exact membersLocked_move hmove hg

end Group

end Actors
