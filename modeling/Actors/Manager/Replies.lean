import Actors.Manager.Mailboxes

/-!
# Replies of standalone actors

An actor uses one context for all its messages.  `answering` says that no reply
is misrouted: while a message is handled, the context belongs to its letter.
The argument is the one for groups without the locks.  A letter that an actor
takes from its mailbox was never replied to, because only letters that were
handed over are replied to, and a mailbox hands a letter over once.
-/

namespace Actors

open Concur

variable {μ : Type}

/-- While the actor handles a letter, its context belongs to that letter. -/
def Runtime.Busy (L : Ledger μ) (a : Runtime μ) : Prop :=
  ∀ l, a.pc = .process l → L.Tied a.context.selfRef a.context l

/-- The reference that `ActorRuntime::new` puts into the context. -/
def Runtime.ref (k : Nat) (a : Runtime μ) : ActorRef :=
  .localRef { sender := k, name := a.name }

/-- What never changes about a runtime, and what only grows. -/
structure Runtime.Extends (a a' : Runtime μ) : Prop where
  name : a'.name = a.name
  selfRef : a'.context.selfRef = a.context.selfRef
  letters : ∀ l ∈ a.letters, l ∈ a'.letters

theorem Runtime.Extends.refl (a : Runtime μ) : a.Extends a :=
  ⟨rfl, rfl, fun _ h => h⟩

theorem Runtime.extends_move {k : Nat} {a a' : Runtime μ}
    {events : List LifeEvent} (h : Runtime.Move k a a' events) :
    a.Extends a' := by
  cases h with
  | recv l rest hpc hbox =>
    refine ⟨rfl, rfl, fun x hx => ?_⟩
    simp only [letters, List.map_append]
    exact List.mem_append_left _ hx
  | begin | initReturn | goOn | leave | closed | processReturn | endReturn =>
    exact ⟨rfl, rfl, fun _ h => h⟩

namespace Manager

/-- The reference of actor `k`. -/
def refOf (s : Manager μ) (k : Nat) : Option ActorRef :=
  (s.actors[k]?).map (Runtime.ref k)

/-- Every context belongs to the letter being handled, and the ledger is
faithful. -/
structure Answering (s : Manager μ) : Prop where
  selfRefs : ∀ (k : Nat) (a : Runtime μ), s.actors[k]? = some a →
    a.context.selfRef = some (a.ref k)
  own : ∀ l ∈ s.sent, l.Own
  handled : ∀ r ∈ s.ledger.replies, ∃ a, s.actors[r.actor]? = some a ∧
    r.letter ∈ a.letters
  busy : ∀ (k : Nat) (a : Runtime μ), s.actors[k]? = some a →
    a.Busy s.ledger
  faithful : s.ledger.Faithful s.refOf

/-- Every runtime of `s` is extended by the runtime at its place in
`actors`. -/
def Grows (s : Manager μ) (actors : List (Runtime μ)) : Prop :=
  ∀ (k : Nat) (a : Runtime μ), s.actors[k]? = some a →
    ∃ a', actors[k]? = some a' ∧ a.Extends a'

theorem grows_set {s : Manager μ} {k : Nat} {a a' : Runtime μ}
    (ha : s.actors[k]? = some a) (h : a.Extends a') :
    s.Grows (s.actors.set k a') := by
  intro j b hb
  by_cases hjk : j = k
  · subst hjk
    rw [ha, Option.some.injEq] at hb
    subst hb
    exact ⟨a', List.getElem?_set_self (List.getElem?_eq_some_iff.mp ha).1, h⟩
  · exact ⟨b, by rw [List.getElem?_set_ne (Ne.symm hjk), hb], .refl b⟩

theorem grows_modify (s : Manager μ) (k : Nat) {f : Runtime μ → Runtime μ}
    (hf : ∀ a : Runtime μ, a.Extends (f a)) : s.Grows (s.actors.modify k f) := by
  intro j b hb
  rw [List.getElem?_modify, hb]
  by_cases hjk : k = j
  · exact ⟨f b, by simp [hjk], hf b⟩
  · exact ⟨b, by simp [hjk], .refl b⟩

theorem grows_unregistered (s : Manager μ) (name : String) :
    s.Grows (s.unregistered name) := by
  unfold unregistered
  split
  · exact s.grows_modify _ fun a => ⟨rfl, rfl, fun _ h => h⟩
  · exact fun k a ha => ⟨a, ha, .refl a⟩

/-- The ledger stays faithful while runtimes grow. -/
theorem Answering.grow {s s' : Manager μ} (h : s.Answering)
    (hgrows : s.Grows s'.actors) (hledger : s'.ledger = s.ledger) :
    (∀ r ∈ s'.ledger.replies, ∃ a, s'.actors[r.actor]? = some a ∧
      r.letter ∈ a.letters) ∧ s'.ledger.Faithful s'.refOf := by
  rw [hledger]
  refine ⟨fun r hr => ?_, h.faithful.congr fun r hr => ?_⟩
  · obtain ⟨a, ha, hl⟩ := h.handled r hr
    obtain ⟨a', ha', hext⟩ := hgrows r.actor a ha
    exact ⟨a', ha', hext.letters _ hl⟩
  · obtain ⟨a, ha, -⟩ := h.handled r hr
    obtain ⟨a', ha', hext⟩ := hgrows r.actor a ha
    simp [refOf, ha, ha', Runtime.ref, hext.name]

/-- A step that neither hands a letter over nor replies. -/
theorem Answering.frame {s s' : Manager μ} (h : s.Answering)
    (hgrows : s.Grows s'.actors) (hledger : s'.ledger = s.ledger)
    (hown : ∀ l ∈ s'.sent, l.Own)
    (hactors : ∀ (k : Nat) (a' : Runtime μ), s'.actors[k]? = some a' →
      a'.context.selfRef = some (a'.ref k) ∧ a'.Busy s.ledger) :
    s'.Answering :=
  ⟨fun k a' ha' => (hactors k a' ha').1, hown, (h.grow hgrows hledger).1,
    fun k a' ha' => hledger ▸ (hactors k a' ha').2, (h.grow hgrows hledger).2⟩

/-- What `Answering` says about one actor. -/
theorem Answering.both {s : Manager μ} (h : s.Answering) (k : Nat)
    (a : Runtime μ) (ha : s.actors[k]? = some a) :
    a.context.selfRef = some (a.ref k) ∧ a.Busy s.ledger :=
  ⟨h.selfRefs k a ha, h.busy k a ha⟩

/-- A letter at the head of a mailbox has no reply yet. -/
theorem countFor_eq_zero {s : Manager μ} (hmailed : s.Mailed)
    (h : s.Answering) {k : Nat} {a : Runtime μ} {l : Letter μ}
    {rest : List (Letter μ)} (ha : s.actors[k]? = some a)
    (hlive : a.pc.finished = false) (hbox : a.mailbox = l :: rest) :
    s.ledger.countFor l.id = 0 := by
  have hk := hmailed.boxes k a ha
  have haccepted := hk.rest hlive
  have hmem : l ∈ a.accepted := by simp [haccepted, hbox]
  rw [Ledger.countFor, List.countP_eq_zero]
  intro r hr hid
  obtain ⟨b, hb, hletter⟩ := h.handled r hr
  have hr' := hmailed.boxes r.actor b hb
  have hmine := hr'.mine r.letter (hr'.handed_prefix.subset hletter)
  -- One number, so one letter, so one mailbox.
  have heq : r.letter = l :=
    hmailed.eq_of_id hmine.2 (hk.mine l hmem).2 (by simpa using hid)
  have hactor : r.actor = k := by
    rw [← hmine.1, heq, (hk.mine l hmem).1]
  rw [hactor, ha, Option.some.injEq] at hb
  subst hb
  -- It would be handed over and in the mailbox at the same time.
  have hnodup := hk.distinct
  rw [haccepted, List.map_append, hbox] at hnodup
  refine List.disjoint_of_nodup_append hnodup (a := l.id) ?_ (by simp)
  exact List.mem_map.mpr ⟨r.letter, hletter, by rw [heq]⟩

theorem answering_actor {s : Manager μ} (hmailed : s.Mailed) (h : s.Answering)
    {k : Nat} {a a' : Runtime μ} {events : List LifeEvent}
    (ha : s.actors[k]? = some a) (hrun : Runtime.Move k a a' events) :
    a'.context.selfRef = some (a'.ref k) ∧ a'.Busy s.ledger := by
  have hself := h.selfRefs k a ha
  cases hrun with
  | recv l rest hpc hbox =>
    refine ⟨hself, fun l' hl' => ?_⟩
    obtain rfl := RuntimePc.process.inj hl'
    exact Ledger.tied_prepare
      (countFor_eq_zero hmailed h ha (by rw [hpc]; rfl) hbox)
  | begin hpc | initReturn hpc | goOn hpc | leave hpc | closed hpc
  | processReturn l hpc | endReturn hpc =>
    exact ⟨hself, fun l hl => by simp [Runtime.finish] at hl⟩

/-- A handler replies out of the context of its own letter.  The other actors
handle other letters. -/
theorem answering_reply {s : Manager μ} (hmailed : s.Mailed)
    (h : s.Answering) {k : Nat} {a : Runtime μ} {l : Letter μ}
    (ha : s.actors[k]? = some a) (hpc : a.pc = .process l) (msg : Message μ) :
    Answering { s with
      actors := s.actors.set k a.reply.2
      ledger := s.ledger.enter k l msg a.reply.1 } := by
  have htied := h.busy k a ha l hpc
  have hk := hmailed.boxes k a ha
  have hletter := hk.current l hpc
  have hmine := hk.mine l (hk.handed_prefix.subset hletter)
  have hlen := (List.getElem?_eq_some_iff.mp ha).1
  have hextends : a.Extends a.reply.2 :=
    ⟨rfl, ActorContext.reply_selfRef _, fun _ h => h⟩
  have hgrows := grows_set ha hextends
  let s1 := { s with actors := s.actors.set k a.reply.2 }
  obtain ⟨hhandled, hfaithful⟩ : (∀ r ∈ s1.ledger.replies,
      ∃ a, s1.actors[r.actor]? = some a ∧ r.letter ∈ a.letters) ∧
      s1.ledger.Faithful s1.refOf := h.grow hgrows rfl
  refine ⟨?_, h.own, ?_, ?_, ?_⟩
  · refine forall_getElem?_set h.selfRefs ?_
    exact (ActorContext.reply_selfRef _).trans (h.selfRefs k a ha)
  · refine forall_mem_snoc hhandled ⟨a.reply.2, ?_, hletter⟩
    exact List.getElem?_set_self hlen
  · intro j b hb l' hl'
    by_cases hjk : j = k
    · subst hjk
      rw [List.getElem?_set_self hlen, Option.some.injEq] at hb
      subst hb
      have heq : l = l' := by
        have hpc' : a.pc = .process l' := hl'
        rw [hpc] at hpc'
        exact RuntimePc.process.inj hpc'
      subst heq
      have hself : a.reply.2.context.selfRef = a.context.selfRef :=
        ActorContext.reply_selfRef _
      rw [hself]
      exact Ledger.tied_reply htied j msg
    · rw [List.getElem?_set_ne (Ne.symm hjk)] at hb
      refine Ledger.tied_enter (h.busy j b hb l' hl') (fun hid => hjk ?_) k msg _
      have hj := hmailed.boxes j b hb
      have hmine' := hj.mine l' (hj.handed_prefix.subset (hj.current l' hl'))
      rw [← hmine'.1, ← hmine.1, hmailed.eq_of_id hmine.2 hmine'.2 hid]
  · have hself : a.context.selfRef =
        refOf { s with actors := s.actors.set k a.reply.2 } k := by
      rw [h.selfRefs k a ha, refOf, List.getElem?_set_self hlen]
      rfl
    rw [hself] at htied
    exact hfaithful.reply htied (h.own l hmine.2) msg

/-- A `fast_send` returns what is in its channel, or nothing. -/
theorem Answering.giveBack {s s' : Manager μ} (h : s.Answering) (c : ChannelId)
    (result : Option (Message μ))
    (hresult : ∀ m, result = some m → m ∈ s.ledger.carried c)
    (heq : s' = { s with callers := s'.callers
                         ledger := s.ledger.giveBack c result }) :
    s'.Answering := by
  rw [heq]
  exact { h with
    busy := fun k a ha l hl => Ledger.tied_giveBack (h.busy k a ha l hl) c result
    faithful := h.faithful.giveBack hresult }

/-- A letter that a send makes has its own reply channel, if any. -/
theorem letterOf_own (s : Manager μ) (t : ThreadId) (k : Nat) (name : String)
    (msg : Message μ) (sender : Option ActorRef) (sync : Bool) :
    (s.letterOf t k name msg sender sync).Own := by
  intro c hc
  cases sync with
  | false => simp [letterOf, Envelope.new] at hc
  | true => simpa [letterOf, Envelope.newSync, eq_comm] using hc

theorem Answering.posted {s : Manager μ} (h : s.Answering) {k : Nat}
    {a : Runtime μ} {l : Letter μ} (ha : s.actors[k]? = some a) (hl : l.Own) :
    (s.posted k a l).Answering := by
  refine h.frame (grows_set ha ⟨rfl, rfl, fun _ h => h⟩) rfl
    (forall_mem_snoc h.own hl) ?_
  exact forall_getElem?_set h.both (h.both k a ha)

theorem answering_move {s s' : Manager μ} {b : ManagerAction μ}
    (hmove : Move s b s') (hmailed : s.Mailed) (h : s.Answering) : s'.Answering := by
  have hmodify : ∀ (k : Nat) (f : Runtime μ → Runtime μ),
      (∀ a, (f a).name = a.name ∧ (f a).context = a.context ∧
        (f a).pc = a.pc) →
      ∀ (j : Nat) (a : Runtime μ), (s.actors.modify k f)[j]? = some a →
        a.context.selfRef = some (a.ref j) ∧ a.Busy s.ledger := by
    intro k f hf
    refine forall_getElem?_modify h.both (fun j a ha => ?_) k
    obtain ⟨hname, hctx, hpc⟩ := hf a
    rw [hctx, Runtime.ref, hname]
    refine ⟨ha.1, fun l hl => ?_⟩
    rw [hctx]
    exact ha.2 l (hpc ▸ hl)
  cases hmove with
  | manage name hidle =>
    have hgrows : s.Grows (s.unregistered name ++
        [managed s.actors.length name]) := by
      intro k a ha
      obtain ⟨a', ha', hext⟩ := s.grows_unregistered name k a ha
      refine ⟨a', ?_, hext⟩
      rw [List.getElem?_append_left (List.getElem?_eq_some_iff.mp ha').1, ha']
    have hlen : (s.unregistered name).length = s.actors.length := by
      unfold unregistered
      split <;> simp
    refine h.frame hgrows rfl h.own (forall_getElem?_snoc ?_ ?_)
    · unfold unregistered
      split
      · exact hmodify _ _ fun a => ⟨rfl, rfl, rfl⟩
      · exact h.both
    · rw [hlen]
      exact ⟨rfl, fun l hl => by simp [managed, Runtime.new] at hl⟩
  | getRef name k hk | dropRefs k | stop k =>
    exact h.frame (s.grows_modify k fun a => ⟨rfl, rfl, fun _ h => h⟩) rfl h.own
      (hmodify k _ fun a => ⟨rfl, rfl, rfl⟩)
  | sendStart k todo a hmain ha hlive =>
    have hposted := h.posted ha
      (s.letterOf_own .main k a.name .start none false)
    exact { hposted with }
  | sendShutdown k todo inEnd a hmain ha hlive =>
    have hposted := h.posted ha
      (s.letterOf_own .main k a.name .shutdown none false)
    exact { hposted with }
  | send t k msg sender a hcan hfree ha hlive =>
    exact h.posted ha (s.letterOf_own t k a.name msg sender false)
  | fastSend t k msg sender a hcan hfree ha hlive =>
    have hposted := h.posted ha (s.letterOf_own t k a.name msg sender true)
    exact { hposted with }
  | spawn k todo hmain =>
    refine h.frame (s.grows_modify k fun a => ⟨rfl, rfl, fun _ h => h⟩) rfl h.own
      ?_
    refine forall_getElem?_modify h.both ?_ k
    exact fun j a ha => ⟨ha.1, fun l hl => by simp at hl⟩
  | fastReturn t c m ms hc hm =>
    refine h.giveBack c (some m) ?_ rfl
    intro m' heq
    rw [Option.some.injEq] at heq
    simp [hm, heq]
  | fastReturnNone t c hc hm hgone =>
    exact h.giveBack c none (by simp) rfl
  | actor b k a a' events hb hfree ha hrun =>
    exact h.frame (grows_set ha (Runtime.extends_move hrun)) rfl h.own
      (forall_getElem?_set h.both (answering_actor hmailed h ha hrun))
  | panic k a ha hcode hfree =>
    refine h.frame (grows_set ha ⟨rfl, rfl, fun _ h => h⟩) rfl h.own
      (forall_getElem?_set h.both ⟨h.selfRefs k a ha, ?_⟩)
    exact fun l hl => by simp [Runtime.finish] at hl
  | reply k msg a l ha hpc => exact answering_reply hmailed h ha hpc msg
  | _ => exact { h with }

theorem answering {ok : Manager μ → ManagerAction μ → Prop} {s : Manager μ}
    (h : (machine μ).Reach ok s) : s.Answering := by
  refine invariant ?_ ?_ h
  · exact ⟨by simp [new], by simp [new], by simp [new], by simp [new],
      Ledger.faithful_empty _⟩
  · intro s b s' hreach hs _ hmove
    exact answering_move hmove (mailed hreach) hs

end Manager

end Actors
