import Actors.Group.Requests
import Actors.Manager.Requests

/-!
# Replies after the first

`ctx.reply` takes the channel of a `fast_send` out of the context, and every
later reply to the same request falls through to the branch for a plain `send`:
it goes to the sender of the envelope, as a message of its own.

`kept_iff` is about one request: its caller gets the first reply, and no reply
to it goes to a mailbox, exactly when there is at most one reply or the envelope
has no sender.  What the argument needs of a run is that the replies to a letter
are numbered, that a later reply does take the way to the sender (`Traced`), and
that nobody replies to a request whose caller has gone away with `None`
(`Closed`).
-/

namespace Actors

open Concur

variable {μ : Type}

/-- Without a channel, a reply goes to the sender. -/
theorem ActorContext.reply_of_none {ctx : ActorContext} {target : ActorRef}
    (hchannel : ctx.replyChannel = none) (hsender : ctx.sender = some target) :
    ctx.reply.1 = .mailbox target ctx.selfRef := by
  simp [reply, hchannel, hsender]

/-- Each caller waits for the reply to a request that was sent. -/
def Requested (callers : List (ThreadId × ChannelId)) (sent : List (Letter μ)) :
    Prop :=
  ∀ p ∈ callers, ∃ l ∈ sent, l.id = p.2 ∧ l.envelope.replyChannel = some p.2

/-- One letter more was sent. -/
theorem Requested.sent {callers : List (ThreadId × ChannelId)}
    {sent : List (Letter μ)} (h : Requested callers sent) (l' : Letter μ) :
    Requested callers (sent ++ [l']) := by
  intro p hp
  obtain ⟨l, hl, hrest⟩ := h p hp
  exact ⟨l, List.mem_append_left _ hl, hrest⟩

/-- One request more was sent, and its caller waits. -/
theorem Requested.asked {callers : List (ThreadId × ChannelId)}
    {sent : List (Letter μ)} (h : Requested callers sent) (t : ThreadId)
    {l : Letter μ} {c : ChannelId} (hid : l.id = c)
    (hl : l.envelope.replyChannel = some c) :
    Requested (callers ++ [(t, c)]) (sent ++ [l]) := by
  refine forall_mem_snoc (h.sent l) ?_
  exact ⟨l, List.mem_append_right _ (List.mem_singleton_self l), hid, hl⟩

namespace Ledger

/-- The order of the replies to one letter, and where the later ones go. -/
structure Traced (L : Ledger μ) : Prop where
  numbered : ∀ id k, k < L.countFor id ↔
    ∃ r ∈ L.replies, r.letter.id = id ∧ r.nth = k
  later : ∀ r ∈ L.replies, r.nth ≠ 0 → ∀ target,
    r.letter.envelope.sender = some target →
      ∃ self, r.route = .mailbox target self

/-- A caller that has gone away with `None` had no reply, and its request is not
among the letters that somebody still holds.  `n` letters were sent. -/
def Closed (L : Ledger μ) (n : Nat) (Held : Letter μ → Prop) : Prop :=
  ∀ c : Nat, (c, none) ∈ L.returns →
    c < n ∧ L.countFor c = 0 ∧ ∀ l, Held l → l.id ≠ c

/-- The caller of the request `l`, which waits on `c`, gets the first reply to
it, and no reply to it goes to a mailbox or to a remote sender. -/
structure Kept (L : Ledger μ) (l : Letter μ) (c : ChannelId) : Prop where
  first : ∀ r ∈ L.replies, r.letter = l → r.nth = 0 →
    L.carried c = [r.msg] ∧ ∀ o, (c, o) ∈ L.returns → o = some r.msg
  noOther : ∀ r ∈ L.replies, r.letter = l →
    ∀ target self, r.route ≠ .mailbox target self

/-! ## One reply more -/

theorem traced_empty : Traced ({} : Ledger μ) :=
  ⟨by simp [countFor], by simp⟩

/-- A reply out of a tied context. -/
theorem Traced.reply {L : Ledger μ} (h : L.Traced) {me : Option ActorRef}
    {ctx : ActorContext} {l : Letter μ} (htied : Tied me L ctx l) (actor : Nat)
    (msg : Message μ) : (L.enter actor l msg ctx.reply.1).Traced := by
  constructor
  · intro id k
    rw [countFor_enter]
    simp only [enter, List.mem_append, List.mem_singleton, or_and_right,
      exists_or, exists_eq_left, ← h.numbered id k]
    by_cases hid : l.id = id
    · subst hid
      simp only [if_true, true_and]
      omega
    · simp [hid]
  · refine forall_mem_snoc h.later fun hnth target hsender => ⟨ctx.selfRef, ?_⟩
    have hchannel := htied.channel
    rw [if_neg hnth] at hchannel
    exact ActorContext.reply_of_none hchannel (htied.sender.trans hsender)

theorem Closed.mono {L : Ledger μ} {n n' : Nat} {Held Held' : Letter μ → Prop}
    (h : L.Closed n Held) (hn : n ≤ n')
    (hheld : ∀ l, Held' l → Held l ∨ l.id = n) : L.Closed n' Held' := by
  intro c hc
  obtain ⟨hlt, hzero, hout⟩ := h c hc
  refine ⟨by omega, hzero, fun l hl => ?_⟩
  rcases hheld l hl with hl | hid
  · exact hout l hl
  · omega

/-- Only a letter that somebody holds is replied to. -/
theorem Closed.enter {L : Ledger μ} {n : Nat} {Held : Letter μ → Prop}
    (h : L.Closed n Held) {l : Letter μ} (hl : Held l) (actor : Nat)
    (msg : Message μ) (route : ReplyRoute) :
    (L.enter actor l msg route).Closed n Held := by
  intro c hc
  obtain ⟨hlt, hzero, hout⟩ := h c hc
  refine ⟨hlt, ?_, hout⟩
  rw [countFor_enter, hzero, if_neg (hout l hl)]

theorem Closed.giveBack {L : Ledger μ} {n : Nat} {Held : Letter μ → Prop}
    (h : L.Closed n Held) (c : ChannelId) (result : Option (Message μ))
    (hnone : result = none → c < n ∧ L.countFor c = 0 ∧ ∀ l, Held l → l.id ≠ c) :
    (L.giveBack c result).Closed n Held := by
  intro c' hc'
  rcases List.mem_append.mp hc' with hc' | hc'
  · exact h c' hc'
  · simp only [List.mem_singleton, Prod.mk.injEq] at hc'
    obtain ⟨rfl, hresult⟩ := hc'
    exact hnone hresult.symm

/-! ## One request -/

section Request

variable {selfRef : Nat → Option ActorRef} {L : Ledger μ} {l : Letter μ}
  {c : ChannelId}

/-- The first reply goes into the channel, and whatever the caller has got is
this reply. -/
theorem first_of_faithful (hL : L.Faithful selfRef) (htraced : L.Traced)
    {n : Nat} {Held : Letter μ → Prop} (hclosed : L.Closed n Held)
    (hchannel : l.envelope.replyChannel = some c) {r : Reply μ}
    (hr : r ∈ L.replies) (hletter : r.letter = l) (hnth : r.nth = 0) :
    L.carried c = [r.msg] ∧ ∀ o, (c, o) ∈ L.returns → o = some r.msg := by
  subst hletter
  have hroute := (hL.proper r hr).first c hnth hchannel
  have hmem : r.msg ∈ L.carried c := mem_carried_of_route hr hroute
  have hsingle : L.carried c = [r.msg] := by
    obtain ⟨m, hm⟩ := List.length_eq_one_iff.mp
      (le_antisymm (hL.single c) (List.length_pos_of_mem hmem))
    rw [hm, List.mem_singleton] at hmem
    rw [hm, hmem]
  refine ⟨hsingle, fun o ho => ?_⟩
  cases o with
  | none =>
    have hpos := (htraced.numbered r.letter.id 0).mpr ⟨r, hr, rfl, hnth⟩
    rw [← hL.own r hr c hchannel, (hclosed c ho).2.1] at hpos
    omega
  | some m =>
    obtain ⟨r', hr', -, hchannel', hnth', rfl⟩ := hL.returned c m ho
    have hroute' := (hL.proper r' hr').first c hnth' hchannel'
    have hmem' : r'.msg ∈ L.carried c := mem_carried_of_route hr' hroute'
    rw [hsingle, List.mem_singleton] at hmem'
    rw [hmem']

/-- A request had no reply as long as its channel is empty. -/
theorem countFor_eq_zero_of_empty (hL : L.Faithful selfRef) (htraced : L.Traced)
    (hchannel : ∀ r ∈ L.replies, r.letter.id = c →
      r.letter.envelope.replyChannel = some c)
    (hempty : L.carried c = []) : L.countFor c = 0 := by
  by_contra hne
  obtain ⟨r, hr, hid, hnth⟩ :=
    (htraced.numbered c 0).mp (Nat.pos_of_ne_zero hne)
  have hroute := (hL.proper r hr).first c hnth (hchannel r hr hid)
  have hmem := mem_carried_of_route hr hroute
  rw [hempty] at hmem
  simp at hmem

/-- The caller of a request gets the first reply and nobody else gets one if and
only if there is at most one reply, or the envelope has no sender. -/
theorem kept_iff (hL : L.Faithful selfRef) (htraced : L.Traced) {n : Nat}
    {Held : Letter μ → Prop} (hclosed : L.Closed n Held)
    (hchannel : l.envelope.replyChannel = some c)
    (hunique : ∀ r ∈ L.replies, r.letter.id = l.id → r.letter = l) :
    L.Kept l c ↔ L.countFor l.id ≤ 1 ∨ l.envelope.sender = none := by
  constructor
  · intro hkept
    cases hsender : l.envelope.sender with
    | none => exact Or.inr rfl
    | some target =>
      left
      by_contra hmore
      obtain ⟨r, hr, hid, hnth⟩ := (htraced.numbered l.id 1).mp (by omega)
      have hletter := hunique r hr hid
      obtain ⟨self, hroute⟩ := htraced.later r hr (by omega) target
        (by rw [hletter, hsender])
      exact hkept.noOther r hr hletter target self hroute
  · intro hcond
    refine ⟨fun r hr hletter hnth =>
      first_of_faithful hL htraced hclosed hchannel hr hletter hnth, ?_⟩
    intro r hr hletter target self hroute
    subst hletter
    rcases hcond with hone | hnone
    · have hlt := (htraced.numbered r.letter.id r.nth).mpr ⟨r, hr, rfl, rfl⟩
      have hfirst := (hL.proper r hr).first c (by omega) hchannel
      rw [hroute] at hfirst
      simp at hfirst
    · have hsender := ((hL.proper r hr).mailbox target self hroute).1
      rw [hnone] at hsender
      simp at hsender

end Request

end Ledger

/-! ## Groups -/

namespace Group

/-- Every letter that is on its way to a handler or in one satisfies `P`. -/
structure Holding (P : Letter μ → Prop) (g : Group μ) : Prop where
  forwarders : ∀ f ∈ g.forwarders, ∀ l ∈ f.pending, P l
  queue : ∀ env ∈ g.queue, P env.letter
  workers : ∀ w ∈ g.workers, ∀ l, w.pc.letter = some l → P l

/-- The letter is on its way to a handler or in one. -/
def Held (g : Group μ) (l : Letter μ) : Prop :=
  (∃ f ∈ g.forwarders, l ∈ f.pending) ∨ (∃ env ∈ g.queue, env.letter = l) ∨
    ∃ w ∈ g.workers, w.pc.letter = some l

theorem holding_held (g : Group μ) : g.Holding g.Held where
  forwarders f hf _ hl := Or.inl ⟨f, hf, hl⟩
  queue env henv := Or.inr (Or.inl ⟨env, henv, rfl⟩)
  workers w hw _ hl := Or.inr (Or.inr ⟨w, hw, hl⟩)

theorem Holding.of_held {P : Letter μ → Prop} {g : Group μ} (h : g.Holding P)
    {l : Letter μ} (hl : g.Held l) : P l := by
  rcases hl with ⟨f, hf, hl⟩ | ⟨env, henv, rfl⟩ | ⟨w, hw, hl⟩
  · exact h.forwarders f hf l hl
  · exact h.queue env henv
  · exact h.workers w hw l hl

/-- A send puts a new letter into a wrapper channel. -/
theorem Holding.posted {P : Letter μ → Prop} {g : Group μ} (h : g.Holding P)
    {r : Nat} {f : Forwarder μ} {l : Letter μ} (hf : g.forwarders[r]? = some f)
    (hl : P l) : (g.posted r f l).Holding P where
  forwarders := by
    refine forall_mem_set h.forwarders fun x hx => ?_
    rcases List.mem_append.mp hx with hx | hx
    · exact h.forwarders f (List.mem_of_getElem? hf) x
        (List.mem_append_left _ hx)
    · rcases List.mem_append.mp hx with hx | hx
      · exact h.forwarders f (List.mem_of_getElem? hf) x
          (List.mem_append_right _ hx)
      · rw [List.mem_singleton.mp hx]
        exact hl
  queue := h.queue
  workers := h.workers

/-- A forwarder that takes no new letter. -/
theorem Holding.set_forwarder {P : Letter μ → Prop} {g : Group μ}
    (h : g.Holding P) {r : Nat} {f f' : Forwarder μ}
    (hf : g.forwarders[r]? = some f) (hsub : f'.pending ⊆ f.pending) :
    ∀ x ∈ g.forwarders.set r f', ∀ l ∈ x.pending, P l :=
  forall_mem_set h.forwarders fun l hl =>
    h.forwarders f (List.mem_of_getElem? hf) l (hsub hl)

/-- A worker that goes on with the letter it has, or with none. -/
theorem Holding.set_worker {P : Letter μ → Prop} {g : Group μ}
    (h : g.Holding P) {i : Nat} {w w' : Worker μ} (hw : g.workers[i]? = some w)
    (hpc : ∀ l, w'.pc.letter = some l → w.pc.letter = some l) :
    ∀ x ∈ g.workers.set i w', ∀ l, x.pc.letter = some l → P l :=
  forall_mem_set h.workers fun l hl =>
    h.workers w (List.mem_of_getElem? hw) l (hpc l hl)

theorem letter_after (d : Bool) :
    (WorkerPc.after d : WorkerPc μ).letter = none := by
  cases d <;> rfl

/-- A step moves letters on or drops them, and a send makes a new one. -/
theorem holding_move {P : Letter μ → Prop} {g g' : Group μ} {a : Action μ}
    (hmove : Move g a g') (h : g.Holding P)
    (hnew : ∀ l : Letter μ, l.id = g.sent.length → P l) : g'.Holding P := by
  cases hmove with
  | add name hidle | getRef name href =>
    refine { h with forwarders := forall_mem_snoc h.forwarders ?_ }
    simp [Forwarder.new, Forwarder.pending]
  | sendStart r rs f hmain hf hlive | sendShutdown r rs b f hmain hf hlive
  | send t r msg sender f hcan hfree hf hlive
  | fastSend t r msg sender f hcan hfree hf hlive =>
    exact { h.posted hf (hnew _ rfl) with }
  | spawn k hmain =>
    refine { h with workers := forall_mem_snoc h.workers ?_ }
    simp [WorkerPc.letter]
  | dropRef r f hf hr | forwardExit r f hf hlive =>
    exact { h with forwarders := h.set_forwarder hf (List.Subset.refl _) }
  | forwardRecv r f l rest hf hchan hhand =>
    refine { h with forwarders := h.set_forwarder hf ?_ }
    simp [Forwarder.pending, hchan, hhand]
  | forwardSend r f l hf hhand =>
    have hl : l ∈ f.pending := by simp [Forwarder.pending, hhand]
    refine { h with
      forwarders := h.set_forwarder hf ?_
      queue := forall_mem_snoc h.queue
        (h.forwarders f (List.mem_of_getElem? hf) l hl) }
    simp [Forwarder.pending]
  | check i w hw hpc =>
    refine { h with workers := h.set_worker hw fun l hl => ?_ }
    cases hrun : g.running <;> simp [hrun, WorkerPc.letter] at hl
  | recvPanic i w hw | recvEmpty i w hw | drainEmpty i w hw
  | memberPanic i w d env m mem hw | handlerPanic i w d m l hw =>
    refine { h with workers := h.set_worker hw fun l hl => ?_ }
    simp [WorkerPc.letter] at hl
  | recv i w env rest hw hpc hfree hq | drain i w env rest hw hpc hfree hq =>
    have hqueue := h.queue
    rw [hq, List.forall_mem_cons] at hqueue
    refine { h with
      queue := hqueue.2
      workers := forall_mem_set h.workers fun l hl => ?_ }
    rw [WorkerPc.letter, Option.some.injEq] at hl
    exact hl ▸ hqueue.1
  | noMember i w d env hw | handlerReturn i w d m l hw =>
    refine { h with workers := h.set_worker hw fun l hl => ?_ }
    simp [letter_after] at hl
  | processBegin i w d env m mem hw hpc =>
    refine { h with workers := h.set_worker hw fun l hl => ?_ }
    rw [hpc]
    exact hl
  | _ => exact { h with }

theorem held_move {g g' : Group μ} {a : Action μ} (hmove : Move g a g')
    {l : Letter μ} (hl : g'.Held l) : g.Held l ∨ l.id = g.sent.length := by
  have hold : g.Holding fun l => g.Held l ∨ l.id = g.sent.length :=
    { forwarders := fun f hf l hl => Or.inl (g.holding_held.forwarders f hf l hl)
      queue := fun env henv => Or.inl (g.holding_held.queue env henv)
      workers := fun w hw l hl => Or.inl (g.holding_held.workers w hw l hl) }
  exact (holding_move hmove hold fun l hid => Or.inr hid).of_held hl

theorem requested {n : Nat} {ok : Group μ → Action μ → Prop} {g : Group μ}
    (h : (machine μ n).Reach ok g) : Requested g.callers g.sent := by
  refine invariant (I := fun g : Group μ => Requested g.callers g.sent) ?_ ?_ h
  · simp [Requested, new]
  · intro g a g' _ hg _ hmove
    cases hmove with
    | sendStart | sendShutdown | send => exact hg.sent _
    | fastSend t =>
      apply hg.asked t
      · rfl
      · rfl
    | fastReturn | fastReturnNone =>
      exact fun p hp => hg p (List.mem_of_mem_filter hp)
    | _ => exact hg

theorem sent_of_held {n : Nat} {ok : Group μ → Action μ → Prop} {g : Group μ}
    (h : (machine μ n).Reach ok g) {l : Letter μ} (hl : g.Held l) :
    l ∈ g.sent := by
  refine Holding.of_held ⟨fun f hf x hx => ?_, fun env henv => ?_,
    fun w hw x hx => ?_⟩ hl
  · refine sent_of_underway h (List.mem_append_left _ (List.mem_append_left _ ?_))
    exact List.mem_flatMap.mpr ⟨f, hf, hx⟩
  · refine sent_of_underway h (List.mem_append_left _ (List.mem_append_right _ ?_))
    exact List.mem_map_of_mem henv
  · obtain ⟨i, hi⟩ := List.mem_iff_getElem?.mp hw
    cases hpc : w.pc with
    | dispatch d env =>
      rw [hpc] at hx
      exact sent_of_hand h hi (by rw [Worker.hand, hpc]; exact hx)
    | process d m l =>
      have hbusy := (answering h).busy i w hi
      rw [hpc, WorkerPc.letter, Option.some.injEq] at hx
      rw [hpc, hx] at hbusy
      obtain ⟨⟨call, hcall, -, hletter⟩, -⟩ := hbusy
      exact hletter ▸ sent_of_handed h hcall
    | _ => simp [hpc, WorkerPc.letter] at hx

/-- Who holds a request that has no reply holds the `Sender` of its channel. -/
theorem live_of_held {g : Group μ} (h : g.Answering) {l : Letter μ}
    {c : ChannelId} (hl : g.Held l) (hc : l.envelope.replyChannel = some c)
    (hzero : g.ledger.countFor l.id = 0) : g.replySenderLive c = true := by
  simp only [replySenderLive, Bool.or_eq_true, List.any_eq_true,
    decide_eq_true_eq, or_assoc]
  rcases hl with ⟨f, hf, hl⟩ | ⟨env, henv, rfl⟩ | ⟨w, hw, hl⟩
  · exact Or.inl ⟨f, hf, l, List.mem_append.mpr (List.mem_append.mp hl).symm, hc⟩
  · exact Or.inr (Or.inl ⟨env, henv, hc⟩)
  · obtain ⟨i, hi⟩ := List.mem_iff_getElem?.mp hw
    cases hpc : w.pc with
    | dispatch d env =>
      rw [hpc] at hl
      rw [WorkerPc.letter, Option.some.injEq] at hl
      refine Or.inr (Or.inr (Or.inl ⟨w, hw, ?_⟩))
      rw [hpc, WorkerPc.hand, hl]
      simpa using hc
    | process d m l' =>
      have hbusy := h.busy i w hi
      rw [hpc, WorkerPc.letter, Option.some.injEq] at hl
      subst hl
      rw [hpc] at hbusy
      obtain ⟨-, ctx, hctx, htied⟩ := hbusy
      obtain ⟨mem, hmem, rfl⟩ := List.mem_map.mp (List.mem_of_getElem? hctx)
      refine Or.inr (Or.inr (Or.inr ⟨mem, hmem, ?_⟩))
      rw [htied.channel, if_pos hzero, hc]
    | _ => simp [hpc, WorkerPc.letter] at hl

/-- Once no `Sender` of the channel is left and it is empty, the request is
nowhere any more, and it had no reply. -/
theorem request_gone {n : Nat} {ok : Group μ → Action μ → Prop} {g : Group μ}
    (h : (machine μ n).Reach ok g) (htraced : g.ledger.Traced) {t : ThreadId}
    {c : Nat} (hc : (t, c) ∈ g.callers) (hempty : g.ledger.carried c = [])
    (hgone : g.replySenderLive c = false) :
    c < g.sent.length ∧ g.ledger.countFor c = 0 ∧ ∀ l, g.Held l → l.id ≠ c := by
  have hanswering := answering h
  obtain ⟨request, hsent, hid, hchannel⟩ := requested h (t, c) hc
  have hzero : g.ledger.countFor c = 0 := by
    refine Ledger.countFor_eq_zero_of_empty hanswering.faithful htraced ?_ hempty
    intro r hr hrid
    obtain ⟨call, hcall, -, hletter⟩ := hanswering.handled r hr
    have heq : r.letter = request := by
      rw [← hletter] at hrid ⊢
      exact eq_of_sent_id h (sent_of_handed h hcall) hsent (hrid.trans hid.symm)
    rw [heq, hchannel]
  refine ⟨?_, hzero, fun l hl hlid => ?_⟩
  · obtain ⟨k, hk⟩ := List.mem_iff_getElem?.mp hsent
    have hkc : k = c := (sent_id h hk).symm.trans hid
    exact hkc ▸ (List.getElem?_eq_some_iff.mp hk).1
  · have heq := eq_of_sent_id h (sent_of_held h hl) hsent (hlid.trans hid.symm)
    rw [live_of_held hanswering hl (heq ▸ hchannel) (hlid ▸ hzero)] at hgone
    simp at hgone

/-- What `kept_iff` needs, in every state of every run. -/
theorem traced {n : Nat} {ok : Group μ → Action μ → Prop} {g : Group μ}
    (h : (machine μ n).Reach ok g) :
    g.ledger.Traced ∧ g.ledger.Closed g.sent.length g.Held := by
  refine invariant (I := fun g : Group μ => g.ledger.Traced ∧
    g.ledger.Closed g.sent.length g.Held) ?_ ?_ h
  · exact ⟨Ledger.traced_empty, fun c hc => by simp [new] at hc⟩
  · rintro g a g' hreach ⟨htraced, hclosed⟩ _ hmove
    have hheld : ∀ l, g'.Held l → g.Held l ∨ l.id = g.sent.length :=
      fun l => held_move hmove
    cases hmove with
    | sendStart | sendShutdown | send | fastSend =>
      refine ⟨htraced, hclosed.mono ?_ hheld⟩
      simp [posted]
    | fastReturn t c m ms hc hm =>
      exact ⟨⟨htraced.numbered, htraced.later⟩,
        (hclosed.mono le_rfl hheld).giveBack c (some m) (by simp)⟩
    | fastReturnNone t c hc hm hgone =>
      exact ⟨⟨htraced.numbered, htraced.later⟩,
        (hclosed.mono le_rfl hheld).giveBack c none fun _ =>
          request_gone hreach htraced hc hm hgone⟩
    | reply i msg w d m l mem hw hpc hmem =>
      have hbusy := (answering hreach).busy i w hw
      rw [hpc] at hbusy
      obtain ⟨-, ctx, hctx, htied⟩ := hbusy
      have hsame : ctx = mem.context := by
        simpa [contexts, hmem, eq_comm] using hctx
      subst hsame
      refine ⟨htraced.reply htied m msg, ?_⟩
      have hin : g.Held l :=
        Or.inr (Or.inr ⟨w, List.mem_of_getElem? hw, by rw [hpc]; rfl⟩)
      exact (hclosed.enter hin m msg _).mono le_rfl hheld
    | _ => exact ⟨htraced, hclosed.mono le_rfl hheld⟩

end Group

/-! ## Standalone actors -/

/-- Every letter in the mailbox or in the handler satisfies `P`, and a thread
that has ended left no letter behind. -/
structure Runtime.Holding (P : Letter μ → Prop) (a : Runtime μ) : Prop where
  mailbox : ∀ l ∈ a.mailbox, P l
  current : ∀ l, a.pc = .process l → P l
  emptied : a.pc.finished = true → a.mailbox = []

theorem Runtime.Holding.move {P : Letter μ → Prop} {k : Nat} {a a' : Runtime μ}
    {events : List LifeEvent} (h : a.Holding P)
    (hmove : Runtime.Move k a a' events) : a'.Holding P := by
  cases hmove with
  | recv l rest hpc hbox =>
    have hmailbox := h.mailbox
    rw [hbox, List.forall_mem_cons] at hmailbox
    refine ⟨hmailbox.2, fun l' hl' => ?_, by simp [RuntimePc.finished]⟩
    exact RuntimePc.process.inj hl' ▸ hmailbox.1
  | endReturn hpc => exact ⟨by simp [finish], by simp [finish], fun _ => rfl⟩
  | begin | initReturn | goOn | leave | closed | processReturn =>
    exact ⟨h.mailbox, by simp, by simp [RuntimePc.finished]⟩

namespace Manager

/-- Every letter in a mailbox or in a handler satisfies `P`. -/
def Holding (P : Letter μ → Prop) (s : Manager μ) : Prop :=
  ∀ a ∈ s.actors, a.Holding P

/-- The letter is in a mailbox or in a handler. -/
def Held (s : Manager μ) (l : Letter μ) : Prop :=
  ∃ a ∈ s.actors, l ∈ a.mailbox ∨ a.pc = .process l

/-- A step moves letters on or drops them, and a send makes a new one. -/
theorem holding_move {P : Letter μ → Prop} {s s' : Manager μ}
    {b : ManagerAction μ} (hmove : Move s b s') (h : s.Holding P)
    (hnew : ∀ l : Letter μ, l.id = s.sent.length → P l) : s'.Holding P := by
  have hposted : ∀ (k : Nat) (a : Runtime μ) (l : Letter μ),
      s.actors[k]? = some a → a.pc.finished = false → P l →
        ∀ x ∈ s.actors.set k (a.accept l), x.Holding P := by
    intro k a l ha hlive hl
    have hold := h a (List.mem_of_getElem? ha)
    refine forall_mem_set h ⟨forall_mem_snoc hold.mailbox hl, hold.current, ?_⟩
    simp [Runtime.accept, hlive]
  cases hmove with
  | manage name hidle =>
    have hold : ∀ a ∈ s.unregistered name, a.Holding P := by
      unfold unregistered
      split
      · refine forall_mem_modify h ?_ _
        exact fun a ha => ⟨ha.mailbox, ha.current, ha.emptied⟩
      · exact h
    refine forall_mem_snoc hold ?_
    exact ⟨by simp [managed, Runtime.new], by simp [managed, Runtime.new],
      fun _ => rfl⟩
  | getRef name k hk | dropRefs k | stop k =>
    refine forall_mem_modify h ?_ k
    exact fun a ha => ⟨ha.mailbox, ha.current, ha.emptied⟩
  | spawn k todo hmain =>
    refine forall_mem_modify h ?_ k
    exact fun a ha => ⟨ha.mailbox, by simp, by simp [RuntimePc.finished]⟩
  | sendStart k todo a hmain ha hlive
  | sendShutdown k todo inEnd a hmain ha hlive
  | send t k msg sender a hcan hfree ha hlive
  | fastSend t k msg sender a hcan hfree ha hlive =>
    exact hposted k a _ ha hlive (hnew _ rfl)
  | actor b k a a' events hb hfree ha hrun =>
    exact forall_mem_set h ((h a (List.mem_of_getElem? ha)).move hrun)
  | panic k a ha hcode hfree =>
    refine forall_mem_set h ?_
    exact ⟨by simp [Runtime.finish], by simp [Runtime.finish], fun _ => rfl⟩
  | reply k msg a l ha hpc =>
    have hold := h a (List.mem_of_getElem? ha)
    exact forall_mem_set h ⟨hold.mailbox, hold.current, hold.emptied⟩
  | _ => exact h

/-- A thread that has ended left no letter behind. -/
theorem emptied {ok : Manager μ → ManagerAction μ → Prop} {s : Manager μ}
    (h : (machine μ).Reach ok s) : s.Holding fun _ => True := by
  refine invariant ?_ ?_ h
  · simp [Holding, new]
  · intro s b s' _ hs _ hmove
    exact holding_move hmove hs fun _ _ => trivial

theorem held_move {ok : Manager μ → ManagerAction μ → Prop} {s s' : Manager μ}
    {b : ManagerAction μ} (h : (machine μ).Reach ok s) (hmove : Move s b s')
    {l : Letter μ} (hl : s'.Held l) : s.Held l ∨ l.id = s.sent.length := by
  have hold : s.Holding fun l => s.Held l ∨ l.id = s.sent.length := by
    intro a ha
    exact ⟨fun l hl => Or.inl ⟨a, ha, Or.inl hl⟩,
      fun l hl => Or.inl ⟨a, ha, Or.inr hl⟩, (emptied h a ha).emptied⟩
  obtain ⟨a, ha, hl⟩ := hl
  have hnew := holding_move hmove hold (fun l hid => Or.inr hid) a ha
  rcases hl with hl | hl
  · exact hnew.mailbox l hl
  · exact hnew.current l hl

theorem requested {ok : Manager μ → ManagerAction μ → Prop} {s : Manager μ}
    (h : (machine μ).Reach ok s) : Requested s.callers s.sent := by
  refine invariant (I := fun s : Manager μ => Requested s.callers s.sent) ?_ ?_ h
  · simp [Requested, new]
  · intro s b s' _ hs _ hmove
    cases hmove with
    | sendStart | sendShutdown | send => exact hs.sent _
    | fastSend t =>
      apply hs.asked t
      · rfl
      · rfl
    | fastReturn | fastReturnNone =>
      exact fun p hp => hs p (List.mem_of_mem_filter hp)
    | _ => exact hs

theorem sent_of_held {s : Manager μ} (hmailed : s.Mailed)
    (hemptied : s.Holding fun _ => True) {l : Letter μ} (hl : s.Held l) :
    l ∈ s.sent := by
  obtain ⟨a, ha, hl⟩ := hl
  obtain ⟨k, hk⟩ := List.mem_iff_getElem?.mp ha
  have hbox := hmailed.boxes k a hk
  refine (hbox.mine l ?_).2
  rcases hl with hl | hl
  · have hlive : a.pc.finished = false := by
      by_contra hfin
      rw [(hemptied a ha).emptied (by simpa using hfin)] at hl
      simp at hl
    rw [hbox.rest hlive]
    exact List.mem_append_right _ hl
  · exact hbox.handed_prefix.subset (hbox.current l hl)

/-- Who holds a request that has no reply holds the `Sender` of its channel. -/
theorem live_of_held {s : Manager μ} (h : s.Answering)
    (hemptied : s.Holding fun _ => True) {l : Letter μ} {c : ChannelId}
    (hl : s.Held l) (hc : l.envelope.replyChannel = some c)
    (hzero : s.ledger.countFor l.id = 0) : s.replySenderLive c = true := by
  obtain ⟨a, ha, hl⟩ := hl
  simp only [replySenderLive, List.any_eq_true, Bool.and_eq_true,
    Bool.not_eq_true', Bool.or_eq_true, decide_eq_true_eq]
  refine ⟨a, ha, ?_⟩
  rcases hl with hl | hl
  · refine ⟨?_, Or.inl ⟨l, hl, hc⟩⟩
    by_contra hfin
    rw [(hemptied a ha).emptied (by simpa using hfin)] at hl
    simp at hl
  · obtain ⟨k, hk⟩ := List.mem_iff_getElem?.mp ha
    have htied := h.busy k a hk l hl
    refine ⟨by simp [hl, RuntimePc.finished], Or.inr ?_⟩
    rw [htied.channel, if_pos hzero, hc]

/-- Once no `Sender` of the channel is left and it is empty, the request is
nowhere any more, and it had no reply. -/
theorem request_gone {ok : Manager μ → ManagerAction μ → Prop} {s : Manager μ}
    (h : (machine μ).Reach ok s) (htraced : s.ledger.Traced) {t : ThreadId}
    {c : Nat} (hc : (t, c) ∈ s.callers) (hempty : s.ledger.carried c = [])
    (hgone : s.replySenderLive c = false) :
    c < s.sent.length ∧ s.ledger.countFor c = 0 ∧ ∀ l, s.Held l → l.id ≠ c := by
  have hmailed := mailed h
  have hanswering := answering h
  obtain ⟨request, hsent, hid, hchannel⟩ := requested h (t, c) hc
  have hzero : s.ledger.countFor c = 0 := by
    refine Ledger.countFor_eq_zero_of_empty hanswering.faithful htraced ?_ hempty
    intro r hr hrid
    obtain ⟨a, ha, hletter⟩ := hanswering.handled r hr
    have hbox := hmailed.boxes r.actor a ha
    have heq : r.letter = request := hmailed.eq_of_id
      (hbox.mine _ (hbox.handed_prefix.subset hletter)).2 hsent
      (hrid.trans hid.symm)
    rw [heq, hchannel]
  refine ⟨?_, hzero, fun l hl hlid => ?_⟩
  · obtain ⟨k, hk⟩ := List.mem_iff_getElem?.mp hsent
    have hkc : k = c := (hmailed.ids k request hk).symm.trans hid
    exact hkc ▸ (List.getElem?_eq_some_iff.mp hk).1
  · have heq := hmailed.eq_of_id (sent_of_held hmailed (emptied h) hl) hsent
      (hlid.trans hid.symm)
    rw [live_of_held hanswering (emptied h) hl (heq ▸ hchannel) (hlid ▸ hzero)]
      at hgone
    simp at hgone

/-- What `kept_iff` needs, in every state of every run. -/
theorem traced {ok : Manager μ → ManagerAction μ → Prop} {s : Manager μ}
    (h : (machine μ).Reach ok s) :
    s.ledger.Traced ∧ s.ledger.Closed s.sent.length s.Held := by
  refine invariant (I := fun s : Manager μ => s.ledger.Traced ∧
    s.ledger.Closed s.sent.length s.Held) ?_ ?_ h
  · exact ⟨Ledger.traced_empty, fun c hc => by simp [new] at hc⟩
  · rintro s b s' hreach ⟨htraced, hclosed⟩ _ hmove
    have hheld : ∀ l, s'.Held l → s.Held l ∨ l.id = s.sent.length :=
      fun l => held_move hreach hmove
    cases hmove with
    | sendStart | sendShutdown | send | fastSend =>
      refine ⟨htraced, hclosed.mono ?_ hheld⟩
      simp [posted]
    | fastReturn t c m ms hc hm =>
      exact ⟨⟨htraced.numbered, htraced.later⟩,
        (hclosed.mono le_rfl hheld).giveBack c (some m) (by simp)⟩
    | fastReturnNone t c hc hm hgone =>
      exact ⟨⟨htraced.numbered, htraced.later⟩,
        (hclosed.mono le_rfl hheld).giveBack c none fun _ =>
          request_gone hreach htraced hc hm hgone⟩
    | reply k msg a l ha hpc =>
      have htied := (answering hreach).busy k a ha l hpc
      refine ⟨htraced.reply htied k msg, ?_⟩
      have hin : s.Held l := ⟨a, List.mem_of_getElem? ha, Or.inr hpc⟩
      exact (hclosed.enter hin k msg _).mono le_rfl hheld
    | _ => exact ⟨htraced, hclosed.mono le_rfl hheld⟩

end Manager

/-! ## Both -/

/-- In every run of a group and of standalone actors, and for every request with
any sender: the caller gets the first reply, and no reply to the request goes to
a mailbox or to a remote sender, if and only if the handler replies at most once
or the envelope has no sender. -/
theorem first_reply_only_iff :
    (∀ (n : Nat) (g : Group μ), (Group.machine μ n).Reachable g →
      ∀ l ∈ g.sent, ∀ c, l.envelope.replyChannel = some c →
        (g.ledger.Kept l c ↔
          g.ledger.countFor l.id ≤ 1 ∨ l.envelope.sender = none)) ∧
    ∀ s : Manager μ, (Manager.machine μ).Reachable s →
      ∀ l ∈ s.sent, ∀ c, l.envelope.replyChannel = some c →
        (s.ledger.Kept l c ↔
          s.ledger.countFor l.id ≤ 1 ∨ l.envelope.sender = none) := by
  constructor
  · intro n g hg l hl c hc
    have hanswering := Group.answering hg
    obtain ⟨htraced, hclosed⟩ := Group.traced hg
    refine Ledger.kept_iff hanswering.faithful htraced hclosed hc ?_
    intro r hr hid
    obtain ⟨call, hcall, -, hletter⟩ := hanswering.handled r hr
    rw [← hletter] at hid ⊢
    exact Group.eq_of_sent_id hg (Group.sent_of_handed hg hcall) hl hid
  · intro s hs l hl c hc
    have hmailed := Manager.mailed hs
    have hanswering := Manager.answering hs
    obtain ⟨htraced, hclosed⟩ := Manager.traced hs
    refine Ledger.kept_iff hanswering.faithful htraced hclosed hc ?_
    intro r hr hid
    obtain ⟨a, ha, hletter⟩ := hanswering.handled r hr
    have hbox := hmailed.boxes r.actor a ha
    exact hmailed.eq_of_id (hbox.mine _ (hbox.handed_prefix.subset hletter)).2 hl
      hid

/-- A member with a running worker takes a `fast_send` that has a sender. -/
def requestMember : List (Action Nat) :=
  Group.startOne Nat ++
    [.fastSend (.client 0) 0 (.user 1)
      (some (.localRef { sender := 7, name := "c" })),
    .forwardRecv 0, .forwardSend 0, .forwardRecv 0, .forwardSend 0,
    .worker 0, .worker 0, .worker 0, .handlerReturn 0, .worker 0, .worker 0,
    .worker 0]

/-- A standalone actor takes such a request. -/
def requestActor : List (ManagerAction Nat) :=
  [.manage "a", .init, .main, .main, .main,
    .fastSend (.client 0) 0 (.user 1)
      (some (.localRef { sender := 7, name := "c" })),
    .actor 0, .codeReturn 0, .actor 0, .actor 0, .codeReturn 0, .actor 0,
    .actor 0]

/-- One reply, which the caller takes. -/
theorem first_reply_only_once :
    (∃ g : Group Nat, ∃ l, g.ledger.returns = [(1, some (.user 5))] ∧
      g.ledger.Kept l 1) ∧
    ∃ s : Manager Nat, ∃ l, s.ledger.returns = [(1, some (.user 5))] ∧
      s.ledger.Kept l 1 := by
  have hg := Group.reach_after (fun _ _ => True) 1
    (requestMember ++ [.reply 0 (.user 5), .fastReturn (.client 0)]) (by decide)
  have hs := Manager.reach_after (fun _ _ => True)
    (requestActor ++ [.reply 0 (.user 5), .fastReturn (.client 0)]) (by decide)
  exact ⟨⟨_, _, by decide, (first_reply_only_iff.1 1 _ hg _
      (List.mem_of_getElem? (show _[1]? = some _ from rfl)) 1 rfl).mpr
      (Or.inl (by decide))⟩,
    ⟨_, _, by decide, (first_reply_only_iff.2 _ hs _
      (List.mem_of_getElem? (show _[1]? = some _ from rfl)) 1 rfl).mpr
      (Or.inl (by decide))⟩⟩

/-- A second reply goes to the sender, as a message of its own. -/
theorem first_reply_only_fails :
    (¬ ∀ (n : Nat) (g : Group Nat), (Group.machine Nat n).Reachable g →
      ∀ l ∈ g.sent, ∀ c, l.envelope.replyChannel = some c →
        g.ledger.Kept l c) ∧
    ¬ ∀ s : Manager Nat, (Manager.machine Nat).Reachable s →
      ∀ l ∈ s.sent, ∀ c, l.envelope.replyChannel = some c →
        s.ledger.Kept l c := by
  have hg := Group.reach_after (fun _ _ => True) 1
    (requestMember ++ [.reply 0 (.user 5), .reply 0 (.user 6)]) (by decide)
  have hs := Manager.reach_after (fun _ _ => True)
    (requestActor ++ [.reply 0 (.user 5), .reply 0 (.user 6)]) (by decide)
  constructor
  · intro h
    have hkept := h 1 _ hg _ (List.mem_of_getElem? (show _[1]? = some _ from rfl))
      1 rfl
    exact hkept.noOther _ (List.mem_of_getElem? (show _[1]? = some _ from rfl))
      rfl _ _ rfl
  · intro h
    have hkept := h _ hs _ (List.mem_of_getElem? (show _[1]? = some _ from rfl))
      1 rfl
    exact hkept.noOther _ (List.mem_of_getElem? (show _[1]? = some _ from rfl))
      rfl _ _ rfl

end Actors
