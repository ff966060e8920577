import Actors.Manager.Change
import Actors.Manager.Replies

/-!
# Requests to standalone actors

A `fast_send` waits until its reply channel carries a message or has lost its
last `Sender`.  The `Sender` travels with the letter into the context of the
actor, and it stays there when the handler returns without a reply.  This
module says who holds the `Sender` of a waiting caller.

* `Released`: when the handlers reply to a request before they return, the
  context of an actor outside of `process_message` holds no channel.
* `Asking`: a caller waits for one letter, which it sent itself, and an actor
  that waits is in the middle of a hook or of a handler.
* `answered` follows: no caller whose request an actor has finished with is
  left without an outcome.
* `not_deadlocked` is the progress of requests along an acyclic call graph.
  Among the waiting callers take one that waits for an actor of least rank.
  That actor does not wait itself, so it can go on.
-/

namespace Actors

open Concur

variable {μ : Type}

/-- The handler that runs, if one does, has used the reply channel up. -/
def Runtime.replied (a : Runtime μ) : Bool :=
  match a.pc with
  | .process _ => a.context.replyChannel.isNone
  | _ => true

/-- Outside of `process_message` the context holds no reply channel. -/
def Runtime.Released (a : Runtime μ) : Prop :=
  a.pc.finished = false → (∀ l, a.pc ≠ .process l) →
    a.context.replyChannel = none

namespace Manager

/-- A handler that was called with a `fast_send` request replies before it
returns. -/
def RepliesFirst (s : Manager μ) : ManagerAction μ → Prop
  | .codeReturn k => ∀ a ∈ s.actors[k]?, a.replied = true
  | _ => True

instance (s : Manager μ) (b : ManagerAction μ) : Decidable (RepliesFirst s b) :=
  match b with
  | .codeReturn k =>
    inferInstanceAs (Decidable (∀ a ∈ s.actors[k]?, a.replied = true))
  | .manage _ | .getRef _ | .init | .run | .shutdown | .wait | .endCall | .main
  | .terminate _ | .send _ _ _ _ | .fastSend _ _ _ _ | .fastReturn _
  | .dropRefs _ | .actor _ | .reply _ _ | .codePanic _ | .stop _ =>
    isTrue trivial

/-- The caller that waits on `c` has an outcome: a reply, or no `Sender` of
the channel is left. -/
def Settled (s : Manager μ) (c : ChannelId) : Prop :=
  s.ledger.carried c ≠ [] ∨ s.replySenderLive c = false

/-- Every caller whose request was handed to an actor that is not in
`process_message` has an outcome. -/
def Answered (s : Manager μ) : Prop :=
  ∀ (k : Nat) (a : Runtime μ), s.actors[k]? = some a →
    (∀ l, a.pc ≠ .process l) → ∀ p ∈ s.callers,
      (∃ l ∈ a.letters, l.envelope.replyChannel = some p.2) → s.Settled p.2

/-! ## The channel in a context -/

theorem released_change {s : Manager μ} {b : ManagerAction μ} {k : Nat}
    {a a' : Runtime μ} (howned : s.Owned) (hok : RepliesFirst s b)
    (ha : s.actors[k]? = some a) (h : a.Released)
    (hchange : Runtime.Change s b k a a') : a'.Released := by
  cases hchange with
  | same | senders hs | accept l hlive hid hvia hfrom | stop hb => exact h
  | spawn todo hmain =>
    have hpc : a.pc = .parked :=
      (howned.parked k a.pc (by simp [pcs, ha])).mpr
        (by simp [hmain, ManagerPc.starting])
    intro _ _
    exact h (by rw [hpc]; rfl) (by simp [hpc])
  | run _ events hb hcode hmove =>
    cases hmove with
    | recv l rest hpc hbox => exact fun _ hno => absurd rfl (hno l)
    | endReturn hpc => exact fun hlive => by simp [Runtime.finish, RuntimePc.finished] at hlive
    | processReturn l hpc =>
      intro _ _
      obtain ⟨rfl, -⟩ := hcode (by rw [hpc]; rfl)
      have hreplied := hok a ha
      simpa [Runtime.replied, hpc] using hreplied
    | begin hpc | initReturn hpc | goOn hpc | leave hpc | closed hpc =>
      exact fun _ _ => h (by rw [hpc]; rfl) (by simp [hpc])
  | panic hb hcode hfree =>
    exact fun hlive => by simp [Runtime.finish, RuntimePc.finished] at hlive
  | reply msg l hb hpc => exact fun _ _ => ActorContext.reply_replyChannel _

/-- When handlers reply before they return, no context keeps a reply channel
after the handler. -/
theorem released {s : Manager μ} (h : (machine μ).Reach RepliesFirst s) :
    ∀ (k : Nat) (a : Runtime μ), s.actors[k]? = some a → a.Released := by
  refine Machine.Reach.invariant
    (I := fun s => ∀ (k : Nat) (a : Runtime μ), s.actors[k]? = some a →
      a.Released) ?_ ?_ h
  · rintro s rfl
    simp [new]
  · intro s b s' hreach hs hok hstep k a' ha'
    rcases change_of_step hstep ha' with ⟨a, ha, hchange⟩ | ⟨name, -, -, rfl⟩
    · exact released_change (owned hreach) hok ha (hs k a ha) hchange
    · exact fun _ _ => rfl

/-- Where the `Sender` of a reply channel is: in a mailbox, or in the context
of an actor that handles the letter it came with. -/
theorem exists_holder {s : Manager μ} {c : ChannelId}
    (hlive : s.replySenderLive c = true) :
    ∃ (k : Nat) (a : Runtime μ), s.actors[k]? = some a ∧
      a.pc.finished = false ∧
      ((∃ l ∈ a.mailbox, l.envelope.replyChannel = some c) ∨
        a.context.replyChannel = some c) := by
  unfold replySenderLive at hlive
  obtain ⟨a, hmem, ha⟩ := List.any_eq_true.mp hlive
  obtain ⟨k, hk⟩ := List.mem_iff_getElem?.mp hmem
  simp only [Bool.and_eq_true, Bool.not_eq_true', Bool.or_eq_true,
    List.any_eq_true, decide_eq_true_eq] at ha
  exact ⟨k, a, hk, ha.1, ha.2⟩

/-- A letter in a mailbox was not handed over yet. -/
theorem Mailed.not_handed {s : Manager μ} (h : s.Mailed) {k : Nat}
    {a : Runtime μ} {l : Letter μ} (ha : s.actors[k]? = some a)
    (hlive : a.pc.finished = false) (hl : l ∈ a.mailbox) : l ∉ a.letters := by
  intro hletter
  have hk := h.boxes k a ha
  have hnodup := hk.distinct
  rw [hk.rest hlive, List.map_append] at hnodup
  exact List.disjoint_of_nodup_append hnodup (List.mem_map_of_mem hletter)
    (List.mem_map_of_mem hl)

/-- The context of an actor in `process_message` holds no channel but that of
the letter in hand. -/
theorem channel_of_process {s : Manager μ} (h : s.Answering) {k : Nat}
    {a : Runtime μ} {l : Letter μ} {c : ChannelId} (ha : s.actors[k]? = some a)
    (hpc : a.pc = .process l) (hc : a.context.replyChannel = some c) :
    l.envelope.replyChannel = some c := by
  have htied := (h.busy k a ha l hpc).channel
  rw [hc] at htied
  split at htied
  · exact htied.symm
  · simp at htied

/-- No caller whose request an actor has finished with is left without an
outcome. -/
theorem answered {s : Manager μ} (h : (machine μ).Reach RepliesFirst s) :
    s.Answered := by
  have hmailed := mailed h
  have hanswering := answering h
  rintro k a ha hout ⟨t, c⟩ - ⟨l, hl, hch⟩
  by_cases hlive : s.replySenderLive c = true
  · obtain ⟨j, x, hx, hxlive, hheld⟩ := exists_holder hlive
    have hk := hmailed.boxes k a ha
    have hj := hmailed.boxes j x hx
    have hmine := hk.mine l (hk.handed_prefix.subset hl)
    -- Whoever holds the channel has it from the letter `l`.
    have hsame : ∀ l' ∈ x.accepted, l'.envelope.replyChannel = some c →
        l' = l ∧ j = k := by
      intro l' hl' hch'
      have hmine' := hj.mine l' hl'
      have hid : l'.id = l.id :=
        (hanswering.own l' hmine'.2 c hch').symm.trans
          (hanswering.own l hmine.2 c hch)
      have heq := hmailed.eq_of_id hmine'.2 hmine.2 hid
      exact ⟨heq, by rw [← hmine'.1, heq, hmine.1]⟩
    rcases hheld with ⟨l', hl', hch'⟩ | hctx
    · have hmem : l' ∈ x.accepted := by
        rw [hj.rest hxlive]
        exact List.mem_append_right _ hl'
      obtain ⟨rfl, rfl⟩ := hsame l' hmem hch'
      rw [ha, Option.some.injEq] at hx
      subst hx
      exact absurd hl (hmailed.not_handed ha hxlive hl')
    · by_cases hproc : ∃ l', x.pc = .process l'
      · obtain ⟨l', hpc⟩ := hproc
        have hch' := channel_of_process hanswering hx hpc hctx
        have hmem := hj.handed_prefix.subset (hj.current l' hpc)
        obtain ⟨rfl, rfl⟩ := hsame l' hmem hch'
        rw [ha, Option.some.injEq] at hx
        subst hx
        exact absurd hpc (hout l')
      · have hnone := released h j x hx hxlive (by simpa using hproc)
        rw [hctx] at hnone
        simp at hnone
  · exact Or.inr (by simpa using hlive)

/-! ## The callers -/

/-- The letters sent so far stay sent. -/
theorem sent_of_step {s s' : Manager μ} {b : ManagerAction μ}
    (hstep : s.step b = some s') {c : Nat} {l : Letter μ}
    (hl : s.sent[c]? = some l) : s'.sent[c]? = some l := by
  have hsnoc : ∀ l', (s.sent ++ [l'])[c]? = some l := by
    intro l'
    rw [List.getElem?_append_left (List.getElem?_eq_some_iff.mp hl).1]
    exact hl
  cases move_of_step hstep with
  | sendStart | sendShutdown | send | fastSend => exact hsnoc _
  | _ => exact hl

/-- A thread in a hook or in a handler stays there while it waits. -/
theorem inCode_of_change {s : Manager μ} {b : ManagerAction μ} {k : Nat}
    {a a' : Runtime μ} (howned : s.Owned) (ha : s.actors[k]? = some a)
    (hchange : Runtime.Change s b k a a') (hcode : a.pc.inCode = true)
    (hstay : b = .codeReturn k ∨ b = .codePanic k →
      s.blocked (.worker k) = true) : a'.pc.inCode = true := by
  cases hchange with
  | same | senders hs | accept l hlive hid hvia hfrom | stop hb
  | reply msg l hb hpc =>
    exact hcode
  | spawn todo hmain =>
    have hpc : a.pc = .parked :=
      (howned.parked k a.pc (by simp [pcs, ha])).mpr
        (by simp [hmain, ManagerPc.starting])
    rw [hpc] at hcode
    simp [RuntimePc.inCode] at hcode
  | run _ events hb hret hmove =>
    obtain ⟨rfl, hfree⟩ := hret hcode
    rw [hstay (Or.inl rfl)] at hfree
    simp at hfree
  | panic hb _ hfree =>
    rw [hstay (Or.inr hb)] at hfree
    simp at hfree

/-- Each caller waits for one letter, which it sent itself, and an actor that
waits is in the middle of a hook or of its handler. -/
structure Asking (s : Manager μ) : Prop where
  distinct : (s.callers.map Prod.fst).Nodup
  request : ∀ p ∈ s.callers, ∃ l, s.sent[p.2]? = some l ∧ l.author = p.1
  inside : ∀ j c, (ThreadId.worker j, c) ∈ s.callers →
    ∃ a, s.actors[j]? = some a ∧ a.pc.inCode = true

theorem blocked_iff (s : Manager μ) (t : ThreadId) :
    s.blocked t = true ↔ t ∈ s.callers.map Prod.fst := by
  simp [blocked]

/-- The callers that a step leaves. -/
theorem Asking.keep {s s' : Manager μ} {b : ManagerAction μ} (h : s.Asking)
    (howned : s.Owned) (hstep : s.step b = some s')
    (hsub : s'.callers.Sublist s.callers) : s'.Asking := by
  refine ⟨h.distinct.sublist (hsub.map _), fun p hp => ?_, fun j c hc => ?_⟩
  · obtain ⟨l, hl, hauthor⟩ := h.request p (hsub.subset hp)
    exact ⟨l, sent_of_step hstep hl, hauthor⟩
  · have hold := hsub.subset hc
    obtain ⟨a, ha, hcode⟩ := h.inside j c hold
    obtain ⟨a', ha', hchange⟩ := exists_change hstep ha
    refine ⟨a', ha', inCode_of_change howned ha hchange hcode fun _ => ?_⟩
    exact (s.blocked_iff _).mpr (List.mem_map_of_mem hold)

theorem asking_step {s s' : Manager μ} {b : ManagerAction μ} (howned : s.Owned)
    (hstep : s.step b = some s') (h : s.Asking) : s'.Asking := by
  have hmove := move_of_step hstep
  cases hmove with
  | fastReturn | fastReturnNone => exact h.keep howned hstep List.filter_sublist
  | fastSend t k msg sender a hcan hfree ha hlive =>
    refine ⟨?_, fun p hp => ?_, fun j c hc => ?_⟩
    · show ((s.callers ++ [(t, s.sent.length)]).map Prod.fst).Nodup
      have hout : t ∉ s.callers.map Prod.fst := by
        rw [← blocked_iff, hfree]
        simp
      have hconcat := h.distinct.concat hout
      rw [List.concat_eq_append] at hconcat
      rw [List.map_append]
      exact hconcat
    · rcases List.mem_append.mp hp with hp | hp
      · obtain ⟨l, hl, hauthor⟩ := h.request p hp
        exact ⟨l, sent_of_step hstep hl, hauthor⟩
      · rw [List.mem_singleton.mp hp]
        exact ⟨_, List.getElem?_concat_length, rfl⟩
    · have hin : ∃ x, s.actors[j]? = some x ∧ x.pc.inCode = true := by
        rcases List.mem_append.mp hc with hc | hc
        · exact h.inside j c hc
        · simp only [List.mem_singleton, Prod.mk.injEq] at hc
          rw [← hc.1] at hcan
          simpa [canSend, Option.any_eq_true] using hcan
      obtain ⟨x, hx, hcode⟩ := hin
      obtain ⟨x', hx', hchange⟩ := exists_change hstep hx
      exact ⟨x', hx', inCode_of_change howned hx hchange hcode (by simp)⟩
  | _ => exact h.keep howned hstep (List.Sublist.refl _)

theorem asking {ok : Manager μ → ManagerAction μ → Prop} {s : Manager μ}
    (h : (machine μ).Reach ok s) : s.Asking := by
  refine Machine.Reach.invariant ?_ ?_ h
  · rintro s rfl
    exact ⟨by simp [new], by simp [new], by simp [new]⟩
  · intro s b s' hreach hs _ hstep
    exact asking_step (owned hreach) hstep hs

/-! ## Requests along an acyclic call graph -/

/-- The hooks and the handler of an actor call `fast_send` on actors of lower
rank only, and a handler that was called with a request replies before it
returns. -/
def Descends (rank : Nat → Nat) (s : Manager μ) : ManagerAction μ → Prop
  | .fastSend (.worker j) k _ _ => rank k < rank j
  | .codeReturn k => ∀ a ∈ s.actors[k]?, a.replied = true
  | _ => True

instance (rank : Nat → Nat) (s : Manager μ) (b : ManagerAction μ) :
    Decidable (Descends rank s b) :=
  match b with
  | .fastSend (.worker j) k _ _ => inferInstanceAs (Decidable (rank k < rank j))
  | .codeReturn k =>
    inferInstanceAs (Decidable (∀ a ∈ s.actors[k]?, a.replied = true))
  | .fastSend .main _ _ _ | .fastSend (.client _) _ _ _ | .manage _ | .getRef _
  | .init | .run | .shutdown | .wait | .endCall | .main | .terminate _
  | .send _ _ _ _ | .fastReturn _ | .dropRefs _ | .actor _ | .reply _ _
  | .codePanic _ | .stop _ => isTrue trivial

/-- The step is the next one of the thread of an actor, or the return of a
`fast_send`.  Of the replies of a handler only the one that uses the reply
channel up counts. -/
def Serves (s : Manager μ) : ManagerAction μ → Prop
  | .actor _ | .codeReturn _ | .fastReturn _ => True
  | .reply k _ => ∃ a ∈ s.actors[k]?, a.replied = false
  | _ => False

/-- Some caller waits, and no thread can take a step. -/
structure Deadlocked (rank : Nat → Nat) (s : Manager μ) : Prop where
  waiting : s.callers ≠ []
  noStep : ∀ b : ManagerAction μ, s.Serves b → Descends rank s b →
    s.step b = none

theorem repliesFirst_of_descends {rank : Nat → Nat} (s : Manager μ)
    (b : ManagerAction μ) (h : Descends rank s b) : RepliesFirst s b := by
  cases b with
  | codeReturn k => exact h
  | _ => trivial

/-- The request of an actor that waits went to an actor of lower rank. -/
theorem rank_lt {rank : Nat → Nat} {s : Manager μ}
    (h : (machine μ).Reach (Descends rank) s) :
    ∀ j c, (ThreadId.worker j, c) ∈ s.callers →
      ∃ l, s.sent[c]? = some l ∧ rank l.via < rank j := by
  refine Machine.Reach.invariant (I := fun s : Manager μ =>
    ∀ j c, (ThreadId.worker j, c) ∈ s.callers →
      ∃ l, s.sent[c]? = some l ∧ rank l.via < rank j) ?_ ?_ h
  · rintro s rfl
    simp [new]
  · intro s b s' _ hs hok hstep
    have hkeep : ∀ j c, (ThreadId.worker j, c) ∈ s.callers →
        ∃ l, s'.sent[c]? = some l ∧ rank l.via < rank j := by
      intro j c hc
      obtain ⟨l, hl, hlt⟩ := hs j c hc
      exact ⟨l, sent_of_step hstep hl, hlt⟩
    cases move_of_step hstep with
    | fastReturn | fastReturnNone =>
      exact fun j c hc => hkeep j c (List.mem_of_mem_filter hc)
    | fastSend t k msg sender a hcan hfree ha hlive =>
      intro j c hc
      rcases List.mem_append.mp hc with hc | hc
      · exact hkeep j c hc
      · simp only [List.mem_singleton, Prod.mk.injEq] at hc
        obtain ⟨rfl, rfl⟩ := hc
        exact ⟨_, List.getElem?_concat_length, hok⟩
    | _ => exact hkeep

/-- A caller with an outcome can return. -/
theorem step_fastReturn {s : Manager μ} (h : s.Asking) {t : ThreadId}
    {c : ChannelId} (hc : (t, c) ∈ s.callers) (hsettled : s.Settled c) :
    s.step (.fastReturn t) ≠ none := by
  have hfind : s.callers.find? (fun p => p.1 = t) = some (t, c) := by
    cases hcase : s.callers.find? (fun p => p.1 = t) with
    | none =>
      have hno := List.find?_eq_none.mp hcase (t, c) hc
      simp at hno
    | some p =>
      have hmem := List.mem_of_find?_eq_some hcase
      have ht : p.1 = t := by simpa using List.find?_some hcase
      rw [List.inj_on_of_nodup_map h.distinct hmem hc ht]
  simp only [step, fastReturn, hfind]
  cases hm : s.ledger.carried c with
  | nil =>
    have hgone := hsettled.resolve_left (by simp [hm])
    simp [hgone]
  | cons m ms => simp

/-- The thread of an actor that holds a reply channel, or a letter with one,
can go on unless the actor itself waits for a reply. -/
theorem exists_serving {rank : Nat → Nat} {s : Manager μ} {k : Nat}
    {a : Runtime μ} (ha : s.actors[k]? = some a) (hpc : a.pc ≠ .parked)
    (hlive : a.pc.finished = false) (hfree : s.blocked (.worker k) = false)
    (hbusy : a.pc = .recv → a.mailbox ≠ []) :
    ∃ b : ManagerAction μ, s.Serves b ∧ Descends rank s b ∧ s.step b ≠ none := by
  have hactor : a.runStep k ≠ none → s.step (.actor k) ≠ none := by
    intro hrun
    obtain ⟨p, hp⟩ := Option.ne_none_iff_exists'.mp hrun
    simp [step, actorStep, ha, hp, putBack]
  have hreturn : a.codeReturn ≠ none → s.step (.codeReturn k) ≠ none := by
    intro hrun
    obtain ⟨p, hp⟩ := Option.ne_none_iff_exists'.mp hrun
    simp [step, codeReturn, ha, hp, hfree, putBack]
  cases hcase : a.pc with
  | parked => exact absurd hcase hpc
  | spawned =>
    exact ⟨.actor k, trivial, trivial, hactor (by simp [Runtime.runStep, hcase])⟩
  | check =>
    refine ⟨.actor k, trivial, trivial, hactor ?_⟩
    simp only [Runtime.runStep, hcase]
    split <;> simp
  | recv =>
    refine ⟨.actor k, trivial, trivial, hactor ?_⟩
    cases hbox : a.mailbox with
    | nil => exact absurd hbox (hbusy hcase)
    | cons l rest => simp [Runtime.runStep, hcase, hbox]
  | initHook | endHook =>
    refine ⟨.codeReturn k, trivial, ?_, hreturn (by simp [Runtime.codeReturn, hcase])⟩
    intro x hx
    rw [ha, Option.mem_some_iff] at hx
    simp [← hx, Runtime.replied, hcase]
  | process l =>
    by_cases hreplied : a.replied = true
    · refine ⟨.codeReturn k, trivial, ?_,
        hreturn (by simp [Runtime.codeReturn, hcase])⟩
      intro x hx
      rw [ha, Option.mem_some_iff] at hx
      exact hx ▸ hreplied
    · refine ⟨.reply k .start, ⟨a, by simp [ha], by simpa using hreplied⟩, trivial, ?_⟩
      simp [step, reply, ha, hcase, hfree]
  | exited | panicked => simp [hcase, RuntimePc.finished] at hlive

/-- While a request has a reply `Sender`, the actor that it went to has a thread
that has something to do. -/
theorem exists_target {rank : Nat → Nat} {s : Manager μ}
    (h : (machine μ).Reach (Descends rank) s)
    (hinit : s.runtimes ++ s.main.starting = []) {c : ChannelId} {l : Letter μ}
    (hl : s.sent[c]? = some l) (hlive : s.replySenderLive c = true) :
    ∃ a, s.actors[l.via]? = some a ∧ a.pc ≠ .parked ∧ a.pc.finished = false ∧
      (a.pc = .recv → a.mailbox ≠ []) := by
  have hmailed := mailed h
  have hanswering := answering h
  obtain ⟨k, a, ha, halive, hheld⟩ := exists_holder hlive
  have hk := hmailed.boxes k a ha
  have hpc : a.pc ≠ .parked := by
    intro hparked
    have hin := (owned h).parked k a.pc (by simp [pcs, ha])
    rw [hinit] at hin
    exact absurd (hin.mp hparked) (by simp)
  -- The channel came with the letter `l`, so the actor is the one that `l` went to.
  have hvia : ∀ l' ∈ a.accepted, l'.envelope.replyChannel = some c → l.via = k := by
    intro l' hl' hch
    have hmine := hk.mine l' hl'
    have hid : l'.id = l.id :=
      (hanswering.own l' hmine.2 c hch).symm.trans (hmailed.ids c l hl).symm
    rw [← hmine.1, hmailed.eq_of_id hmine.2 (List.mem_of_getElem? hl) hid]
  have htarget : l.via = k ∧ (a.pc = .recv → a.mailbox ≠ []) := by
    rcases hheld with ⟨l', hl', hch⟩ | hctx
    · have hmem : l' ∈ a.accepted := by
        rw [hk.rest halive]
        exact List.mem_append_right _ hl'
      exact ⟨hvia l' hmem hch, fun _ => List.ne_nil_of_mem hl'⟩
    · by_cases hproc : ∃ l', a.pc = .process l'
      · obtain ⟨l', hpc'⟩ := hproc
        have hmem := hk.handed_prefix.subset (hk.current l' hpc')
        have hch := channel_of_process hanswering ha hpc' hctx
        exact ⟨hvia l' hmem hch, by simp [hpc']⟩
      · have hreleased := released (h.mono repliesFirst_of_descends)
        have hnone := hreleased k a ha halive (by simpa using hproc)
        rw [hctx] at hnone
        simp at hnone
  rw [htarget.1]
  exact ⟨a, ha, hpc, halive, htarget.2⟩

/-- While a caller waits, a thread that serves it can take a step.  By induction
on the rank of the actor that the request went to. -/
theorem exists_serving_request {rank : Nat → Nat} {s : Manager μ}
    (h : (machine μ).Reach (Descends rank) s)
    (hinit : s.runtimes ++ s.main.starting = []) (n : Nat) :
    ∀ t c l, (t, c) ∈ s.callers → s.sent[c]? = some l → rank l.via = n →
      ∃ b : ManagerAction μ, s.Serves b ∧ Descends rank s b ∧ s.step b ≠ none := by
  induction n using Nat.strong_induction_on with
  | _ n ih =>
    intro t c l hc hl hn
    by_cases hlive : s.replySenderLive c = true
    · obtain ⟨a, ha, hpc, halive, hbusy⟩ := exists_target h hinit hl hlive
      by_cases hblocked : s.blocked (.worker l.via) = true
      · -- The actor waits for an actor of lower rank.
        rw [blocked_iff, List.mem_map] at hblocked
        obtain ⟨⟨t', c'⟩, hc', rfl⟩ := hblocked
        obtain ⟨l', hl', hlt⟩ := rank_lt h l.via c' hc'
        rw [hn] at hlt
        exact ih _ hlt _ c' l' hc' hl' rfl
      · exact exists_serving ha hpc halive (by simpa using hblocked) hbusy
    · exact ⟨.fastReturn t, trivial, trivial,
        step_fastReturn (asking h) hc (Or.inr (by simpa using hlive))⟩

/-- Requests along an acyclic call graph never deadlock, once `init` has
returned: in no reachable state does some caller wait while no thread can take
a step. -/
theorem not_deadlocked {rank : Nat → Nat} {s : Manager μ}
    (h : (machine μ).Reach (Descends rank) s)
    (hinit : s.runtimes ++ s.main.starting = []) : ¬ s.Deadlocked rank := by
  rintro ⟨hwaiting, hno⟩
  obtain ⟨⟨t, c⟩, hc⟩ := List.exists_mem_of_ne_nil _ hwaiting
  obtain ⟨l, hl, -⟩ := (asking h).request _ hc
  obtain ⟨b, hserves, hok, hstep⟩ :=
    exists_serving_request h hinit _ t c l hc hl rfl
  exact hstep (hno b hserves hok)

/-- A client waits for actor 1, whose handler waits for actor 0, which has not
begun. -/
theorem not_deadlocked_chain : ∃ s : Manager Nat,
    s.callers = [(.client 0, 2), (.worker 1, 3)] ∧
      ¬ s.Deadlocked fun k => k := by
  have hrun := reach_after (Descends fun k => k)
    ([.manage "a", .manage "b", .init, .main, .main, .main, .main, .main,
      .actor 1, .codeReturn 1, .actor 1, .actor 1, .codeReturn 1,
      .fastSend (.client 0) 1 (.user 1) none, .actor 1, .actor 1,
      .fastSend (.worker 1) 0 (.user 2) none] : List (ManagerAction Nat))
    (by decide)
  exact ⟨_, by decide, not_deadlocked hrun (by decide)⟩

end Manager

end Actors
