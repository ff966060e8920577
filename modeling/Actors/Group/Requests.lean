import Actors.Group.Replies

/-!
# Requests to members of a group

The `Sender` of a reply channel travels with the letter through the wrapper
channel, the forwarder, the shared queue and the hand of a worker into the
context of the member, and it stays there when the handler returns or panics
without a reply.

`released` says that this is the only way in which a context keeps a channel
while no worker is inside the member.  `answered` follows: when handlers reply
to a request before they return or panic, no caller whose request a member has
finished with is left without an outcome.
-/

namespace Actors

open Concur

variable {μ : Type}

namespace Group

/-- A handler that was called with a `fast_send` request replies before it
returns and before it panics. -/
def RepliesFirst (g : Group μ) : Action μ → Prop
  | .handlerReturn i | .handlerPanic i => ∀ w ∈ g.workers[i]?,
      ∀ m ∈ w.pc.inside, ∀ mem ∈ g.members[m]?,
        mem.context.replyChannel = none
  | _ => True

instance (g : Group μ) (a : Action μ) : Decidable (RepliesFirst g a) :=
  match a with
  | .handlerReturn i | .handlerPanic i =>
    inferInstanceAs (Decidable (∀ w ∈ g.workers[i]?, ∀ m ∈ w.pc.inside,
      ∀ mem ∈ g.members[m]?, mem.context.replyChannel = none))
  | .add _ | .getRef _ | .start | .shutdown | .wait | .endCall | .main | .mainLock _
  | .send _ _ _ _ | .fastSend _ _ _ _ | .fastReturn _ | .dropRef _ | .forwardRecv _
  | .forwardSend _ | .forwardExit _ | .worker _ | .reply _ _ => isTrue trivial

/-- The caller that waits on `c` has an outcome: a reply, or no `Sender` of
the channel is left. -/
def Settled (g : Group μ) (c : ChannelId) : Prop :=
  g.ledger.carried c ≠ [] ∨ g.replySenderLive c = false

/-- Every caller whose request was handed to a member that no worker is inside
of has an outcome. -/
def Answered (g : Group μ) : Prop :=
  ∀ m, (∀ w ∈ g.workers, w.pc.inside ≠ some m) → ∀ p ∈ g.callers,
    (∃ c ∈ g.handed, c.actor = m ∧
      c.letter.envelope.replyChannel = some p.2) → g.Settled p.2

/-! ## The channel in a context -/

/-- A member that no worker is inside of has no reply channel in its
context. -/
def Released (members : List GroupMember) (workers : List (Worker μ)) : Prop :=
  ∀ (m : Nat) (mem : GroupMember), members[m]? = some mem →
    (∀ w ∈ workers, w.pc.inside ≠ some m) → mem.context.replyChannel = none

section Updates

variable {members : List GroupMember} {workers : List (Worker μ)}

/-- A change of a member that leaves its context alone. -/
theorem Released.set (h : Released members workers) {m : Nat}
    {mem mem' : GroupMember} (hmem : members[m]? = some mem)
    (hctx : mem'.context = mem.context) :
    Released (members.set m mem') workers := by
  refine forall_getElem?_set h fun hout => ?_
  rw [hctx]
  exact h m mem hmem hout

theorem Released.modify (h : Released members workers)
    {f : GroupMember → GroupMember} (hctx : ∀ mem, (f mem).context = mem.context)
    (m : Nat) : Released (members.modify m f) workers := by
  refine forall_getElem?_modify h (fun k mem hmem hout => ?_) m
  rw [hctx]
  exact hmem hout

/-- A worker that goes on without leaving a member. -/
theorem Released.goOn (h : Released members workers) {i : Nat} {w w' : Worker μ}
    (hw : workers[i]? = some w)
    (hpc : ∀ m, w.pc.inside = some m → w'.pc.inside = some m) :
    Released members (workers.set i w') := by
  intro m mem hmem hout
  refine h m mem hmem fun x hx hin => ?_
  obtain ⟨j, hj⟩ := List.mem_iff_getElem?.mp hx
  by_cases hij : i = j
  · subst hij
    rw [hw, Option.some.injEq] at hj
    subst hj
    exact hout w' (List.mem_set (List.getElem?_eq_some_iff.mp hw).1 w') (hpc m hin)
  · refine hout x (List.mem_iff_getElem?.mpr ⟨j, ?_⟩) hin
    rw [List.getElem?_set_ne hij]
    exact hj

/-- A worker leaves a member that has no reply channel left. -/
theorem Released.leave (h : Released members workers) {i m : Nat}
    {w w' : Worker μ} (hw : workers[i]? = some w) (hin : w.pc.inside = some m)
    (hctx : ∀ mem, members[m]? = some mem → mem.context.replyChannel = none) :
    Released members (workers.set i w') := by
  intro k mem hmem hout
  by_cases hkm : k = m
  · subst hkm
    exact hctx mem hmem
  · refine h k mem hmem fun x hx hx' => ?_
    obtain ⟨j, hj⟩ := List.mem_iff_getElem?.mp hx
    by_cases hij : i = j
    · subst hij
      rw [hw, Option.some.injEq] at hj
      subst hj
      rw [hin, Option.some.injEq] at hx'
      exact hkm hx'.symm
    · refine hout x (List.mem_iff_getElem?.mpr ⟨j, ?_⟩) hx'
      rw [List.getElem?_set_ne hij]
      exact hj

end Updates

theorem released_move {g g' : Group μ} {a : Action μ} (hmove : Move g a g')
    (hok : RepliesFirst g a) (h : Released g.members g.workers) :
    Released g'.members g'.workers := by
  cases hmove with
  | add name hidle => exact forall_getElem?_snoc h fun _ => rfl
  | initLock m mem todo hmain hm hmem | endLock m mem todo hmain hm hmem =>
    exact h.set hmem rfl
  | initReturn m todo hmain | endReturn m todo hmain =>
    refine h.modify ?_ m
    exact fun _ => rfl
  | spawn n hmain =>
    exact fun m mem hmem hout =>
      h m mem hmem fun w hw => hout w (List.mem_append_left _ hw)
  | check i w hw hpc | recv i w env rest hw hpc | recvEmpty i w hw hpc
  | drain i w env rest hw hpc | drainEmpty i w hw hpc | noMember i w d env hw hpc
  | memberPanic i w d env m mem hw hpc =>
    exact h.goOn hw fun m hin => by simp [hpc, WorkerPc.inside] at hin
  | recvPanic i w hw hpc =>
    refine h.goOn hw fun m hin => ?_
    rcases hpc with hpc | hpc <;> simp [hpc, WorkerPc.inside] at hin
  | processBegin i w d env m mem hw hpc hm hmem hfree hclean =>
    intro k x hx hout
    have hlen := (List.getElem?_eq_some_iff.mp hw).1
    have hself := hout _ (List.mem_set hlen _)
    have hkm : m ≠ k := by simpa [WorkerPc.inside] using hself
    rw [List.getElem?_set_ne hkm] at hx
    exact (h.goOn hw fun m hin => by simp [hpc, WorkerPc.inside] at hin) k x hx hout
  | reply i msg w d m l mem hw hpc hmem =>
    exact forall_getElem?_set h fun _ => ActorContext.reply_replyChannel _
  | handlerReturn i w d m l hw hpc hfree | handlerPanic i w d m l hw hpc hfree =>
    have hin : w.pc.inside = some m := by rw [hpc]; rfl
    refine (h.leave hw hin fun mem hmem => ?_).modify ?_ m
    · exact hok w hw m hin mem hmem
    · exact fun _ => rfl
  | _ => exact h

/-- When handlers reply before they return or panic, a context holds a reply
channel only while a worker is inside the member. -/
theorem released {n : Nat} {g : Group μ}
    (h : (machine μ n).Reach RepliesFirst g) : Released g.members g.workers := by
  refine invariant
    (I := fun g : Group μ => Released g.members g.workers) ?_ ?_ h
  · intro m mem hmem
    simp [new] at hmem
  · intro g a g' _ hg hok hmove
    exact released_move hmove hok hg

/-! ## Who holds the channel -/

/-- The letters that are on their way to a handler. -/
def underway (g : Group μ) : List (Letter μ) :=
  g.forwarders.flatMap Forwarder.pending ++ g.queue.map GroupEnvelope.letter ++
    g.workers.flatMap fun w => w.hand.toList

/-- Where the `Sender` of a reply channel is: in a letter under way, or in the
context of a member. -/
theorem exists_holder {g : Group μ} {c : ChannelId}
    (hlive : g.replySenderLive c = true) :
    (∃ l ∈ g.underway, l.envelope.replyChannel = some c) ∨
      ∃ (m : Nat) (mem : GroupMember), g.members[m]? = some mem ∧
        mem.context.replyChannel = some c := by
  simp only [replySenderLive, Bool.or_eq_true, List.any_eq_true,
    decide_eq_true_eq, or_assoc] at hlive
  rcases hlive with ⟨f, hf, l, hl, hc⟩ | ⟨env, henv, hc⟩ | ⟨w, hw, hc⟩ |
    ⟨mem, hmem, hc⟩
  · refine Or.inl ⟨l, ?_, hc⟩
    refine List.mem_append_left _ (List.mem_append_left _ ?_)
    exact List.mem_flatMap.mpr
      ⟨f, hf, List.mem_append.mpr (List.mem_append.mp hl).symm⟩
  · refine Or.inl ⟨env.letter, ?_, hc⟩
    exact List.mem_append_left _
      (List.mem_append_right _ (List.mem_map_of_mem henv))
  · obtain ⟨l, hl, hc⟩ := (Option.any_eq_true _ _).mp hc
    refine Or.inl ⟨l, List.mem_append_right _ ?_, by simpa using hc⟩
    exact List.mem_flatMap.mpr ⟨w, hw, by simp [Worker.hand, hl]⟩
  · obtain ⟨m, hm⟩ := List.mem_iff_getElem?.mp hmem
    exact Or.inr ⟨m, mem, hm, hc⟩

/-- A letter under way was sent. -/
theorem sent_of_underway {n : Nat} {ok : Group μ → Action μ → Prop}
    {g : Group μ} (h : (machine μ n).Reach ok g) {l : Letter μ}
    (hl : l ∈ g.underway) : l ∈ g.sent :=
  (conserved_perm h).subset
    (List.mem_append_left _ (List.mem_append_left _ hl))

/-- A letter under way was not handed over yet. -/
theorem not_handed_of_underway {n : Nat} {ok : Group μ → Action μ → Prop}
    {g : Group μ} (h : (machine μ n).Reach ok g) {l : Letter μ}
    (hl : l ∈ g.underway) : l ∉ g.handed.map ProcessCall.letter := by
  have hnodup := (conserved_perm h).nodup_iff.mpr (sent_nodup h)
  exact List.disjoint_of_nodup_append hnodup.of_append_left hl

/-- The context of a member in which a handler runs holds no channel but that
of the letter in hand. -/
theorem channel_of_process {g : Group μ} (h : g.Answering) {i : Nat}
    {w : Worker μ} {d : Bool} {m : Nat} {l : Letter μ} {mem : GroupMember}
    {c : ChannelId} (hw : g.workers[i]? = some w) (hpc : w.pc = .process d m l)
    (hmem : g.members[m]? = some mem)
    (hc : mem.context.replyChannel = some c) :
    l.envelope.replyChannel = some c ∧
      ∃ call ∈ g.handed, call.actor = m ∧ call.letter = l := by
  have hbusy := h.busy i w hw
  rw [hpc] at hbusy
  obtain ⟨hcall, ctx, hctx, htied⟩ := hbusy
  have hsame : ctx = mem.context := by
    simpa [contexts, hmem, eq_comm] using hctx
  refine ⟨?_, hcall⟩
  have hchannel := htied.channel
  rw [hsame, hc] at hchannel
  split at hchannel
  · exact hchannel.symm
  · simp at hchannel

/-- Letters that were sent and have one reply channel are one letter. -/
theorem eq_of_replyChannel {n : Nat} {ok : Group μ → Action μ → Prop}
    {g : Group μ} (h : (machine μ n).Reach ok g) {l l' : Letter μ}
    {c : ChannelId} (hl : l ∈ g.sent) (hl' : l' ∈ g.sent)
    (hc : l.envelope.replyChannel = some c)
    (hc' : l'.envelope.replyChannel = some c) : l = l' := by
  have hown := (answering h).own
  have hid : l.id = l'.id := (hown l hl c hc).symm.trans (hown l' hl' c hc')
  exact eq_of_sent_id h hl hl' hid

/-- No caller whose request a member has finished with is left without an
outcome. -/
theorem answered {n : Nat} {g : Group μ}
    (h : (machine μ n).Reach RepliesFirst g) : g.Answered := by
  have hanswering := answering h
  rintro m hout ⟨t, c⟩ - ⟨call, hcall, hactor, hch⟩
  have hsent := sent_of_handed h hcall
  by_cases hlive : g.replySenderLive c = true
  · rcases exists_holder hlive with ⟨l, hl, hch'⟩ | ⟨k, mem, hmem, hctx⟩
    · have heq := eq_of_replyChannel h (sent_of_underway h hl) hsent hch' hch
      have hmemh : l ∈ g.handed.map ProcessCall.letter := by
        rw [heq]
        exact List.mem_map_of_mem hcall
      exact absurd hmemh (not_handed_of_underway h hl)
    · by_cases hin : ∀ w ∈ g.workers, w.pc.inside ≠ some k
      · have hnone := released h k mem hmem hin
        rw [hctx] at hnone
        simp at hnone
      · simp only [not_forall, not_not] at hin
        obtain ⟨w, hw, hin⟩ := hin
        obtain ⟨i, hi⟩ := List.mem_iff_getElem?.mp hw
        obtain ⟨d, l, hpc⟩ : ∃ d l, w.pc = .process d k l := by
          cases hpc : w.pc with
          | process d k' l =>
            rw [hpc] at hin
            simp only [WorkerPc.inside, Option.some.injEq] at hin
            exact ⟨d, l, by rw [hin]⟩
          | _ => simp [hpc, WorkerPc.inside] at hin
        obtain ⟨hch', call', hcall', hactor', rfl⟩ :=
          channel_of_process hanswering hi hpc hmem hctx
        -- One channel, so one letter, so one call.
        have heq := eq_of_replyChannel h (sent_of_handed h hcall') hsent hch' hch
        have hsame := List.inj_on_of_nodup_map (handed_nodup h) hcall' hcall heq
        have hkm : k = m := by rw [← hactor', hsame, hactor]
        exact absurd (hkm ▸ hin) (hout w hw)
  · exact Or.inr (by simpa using hlive)

end Group

end Actors
