import Actors.Group.Locks
import Actors.Group.Routes

/-!
# Replies of a group

The workers of a group share the contexts of its members.  `replies_faithful`
says that no reply is misrouted all the same, whatever the interleaving: the
context that a handler replies from belongs to the letter that the handler was
called with (`Answering.busy`).  Two facts carry this.  A worker that prepares
a context has the member to itself, and the letter it prepares the context for
was never replied to, because only letters that were handed over are replied
to and no letter is handed over twice.
-/

namespace Actors

open Concur

variable {μ : Type}

namespace Group

/-- The references that the calls of `add` returned, by member. -/
def selves (g : Group μ) : List ActorRef :=
  List.zipWith (fun r name => .localRef { sender := r, name }) g.actorRefs
    g.addedNames

/-- The reference that member `m` was added under. -/
def refOf (g : Group μ) (m : Nat) : Option ActorRef := g.selves[m]?

/-- The contexts of the members. -/
def contexts (g : Group μ) : List ActorContext :=
  g.members.map GroupMember.context

/-- What is known while a handler runs: the letter was handed to this member,
and the context of the member belongs to the letter. -/
def Busy (handed : List (ProcessCall μ)) (contexts : List ActorContext)
    (L : Ledger μ) : WorkerPc μ → Prop
  | .process _ m l => (∃ c ∈ handed, c.actor = m ∧ c.letter = l) ∧
      ∃ ctx, contexts[m]? = some ctx ∧ L.Tied ctx.selfRef ctx l
  | _ => True

/-- Every context belongs to the letter being handled, and the ledger is
faithful. -/
structure Answering (g : Group μ) : Prop where
  refs : g.actorRefs.length = g.addedNames.length
  selfRefs : g.contexts.map ActorContext.selfRef = g.selves.map some
  own : ∀ l ∈ g.sent, l.Own
  handled : ∀ r ∈ g.ledger.replies,
    ∃ c ∈ g.handed, c.actor = r.actor ∧ c.letter = r.letter
  busy : ∀ (i : Nat) (w : Worker μ), g.workers[i]? = some w →
    Busy g.handed g.contexts g.ledger w.pc
  faithful : g.ledger.Faithful g.refOf

/-! ## Contexts under a step -/

section Contexts

variable {members : List GroupMember} {m : Nat}

theorem contexts_set {mem mem' : GroupMember} (hmem : members[m]? = some mem)
    (h : mem'.context = mem.context) :
    (members.set m mem').map GroupMember.context =
      members.map GroupMember.context :=
  map_set_of_eq GroupMember.context hmem h

theorem contexts_modify {f : GroupMember → GroupMember}
    (h : ∀ mem, (f mem).context = mem.context) :
    (members.modify m f).map GroupMember.context =
      members.map GroupMember.context :=
  map_modify_of_eq GroupMember.context h m

end Contexts

/-- The context of the member that a handler runs in has the reference that
the member was added under. -/
theorem Answering.selfRef_eq {g : Group μ} (hg : g.Answering) {m : Nat}
    {ctx : ActorContext} (hctx : g.contexts[m]? = some ctx) :
    ctx.selfRef = g.refOf m := by
  have hself : (g.contexts.map ActorContext.selfRef)[m]? =
      some ctx.selfRef := by
    rw [List.getElem?_map, hctx]
    rfl
  rw [hg.selfRefs, List.getElem?_map, Option.map_eq_some_iff] at hself
  obtain ⟨ref, href, heq⟩ := hself
  rw [refOf, href, heq]

theorem refOf_eq_some {g : Group μ} (hg : g.Answering) {m : Nat}
    (hm : m < g.addedNames.length) : ∃ ref, g.refOf m = some ref := by
  have hlt : m < g.selves.length := by
    simp [selves, hg.refs, hm]
  exact ⟨_, List.getElem?_eq_getElem hlt⟩

/-! ## Every step keeps the contexts and the ledger -/

/-- A step that neither adds a member, nor hands a letter over, nor replies. -/
theorem Answering.frame {g g' : Group μ} (hg : g.Answering)
    (hrefs : g'.actorRefs = g.actorRefs)
    (hnames : g'.addedNames = g.addedNames)
    (hctx : g'.contexts = g.contexts) (hown : ∀ l ∈ g'.sent, l.Own)
    (hhanded : g'.handed = g.handed) (hledger : g'.ledger = g.ledger)
    (hbusy : ∀ (i : Nat) (w : Worker μ), g'.workers[i]? = some w →
      Busy g.handed g.contexts g.ledger w.pc) : g'.Answering := by
  have hselves : g'.selves = g.selves := by rw [selves, hrefs, hnames, selves]
  refine ⟨?_, ?_, hown, ?_, ?_, ?_⟩
  · rw [hrefs, hnames]
    exact hg.refs
  · rw [hctx, hselves]
    exact hg.selfRefs
  · rw [hhanded, hledger]
    exact hg.handled
  · rw [hhanded, hledger, hctx]
    exact hbusy
  · have hrefOf : g'.refOf = g.refOf := by
      funext m
      rw [refOf, refOf, hselves]
    rw [hledger, hrefOf]
    exact hg.faithful

/-- A worker that goes on outside of a handler. -/
theorem Answering.goOn {g g' : Group μ} (hg : g.Answering) {i : Nat}
    {w : Worker μ} {pc : WorkerPc μ} (hpc : pc.inside = none)
    (hworkers : g'.workers = g.workers.set i { w with pc := pc })
    (hrefs : g'.actorRefs = g.actorRefs)
    (hnames : g'.addedNames = g.addedNames)
    (hctx : g'.contexts = g.contexts) (hsent : g'.sent = g.sent)
    (hhanded : g'.handed = g.handed) (hledger : g'.ledger = g.ledger) :
    g'.Answering := by
  refine hg.frame hrefs hnames hctx (hsent ▸ hg.own) hhanded hledger ?_
  rw [hworkers]
  refine forall_getElem?_set hg.busy ?_
  cases pc with
  | process d m l => simp [WorkerPc.inside] at hpc
  | _ => trivial

/-- A member more. -/
theorem Answering.add {g g' : Group μ} (hg : g.Answering)
    (hrouted : g.Routed g.addedNames) {r : Nat} {name : String}
    (hrefs : g'.actorRefs = g.actorRefs ++ [r])
    (hcalls : g'.calls = g.calls ++ [.add name])
    (hmembers : g'.members = g.members ++
      [GroupMember.new (.localRef { sender := r, name })])
    (hworkers : g'.workers = g.workers) (hsent : g'.sent = g.sent)
    (hhanded : g'.handed = g.handed) (hledger : g'.ledger = g.ledger) :
    g'.Answering := by
  have hnames : g'.addedNames = g.addedNames ++ [name] := by
    simp [addedNames, hcalls, ApiCall.added]
  have hselves : g'.selves =
      g.selves ++ [.localRef { sender := r, name }] := by
    rw [selves, hrefs, hnames, List.zipWith_append hg.refs]
    rfl
  have hctx : g'.contexts = g.contexts ++
      [ActorContext.new.setSelfRef (.localRef { sender := r, name })] := by
    rw [contexts, hmembers, List.map_append]
    rfl
  refine ⟨?_, ?_, hsent ▸ hg.own, ?_, ?_, ?_⟩
  · simp [hrefs, hnames, hg.refs]
  · rw [hctx, hselves, List.map_append, List.map_append, hg.selfRefs]
    rfl
  · rw [hhanded, hledger]
    exact hg.handled
  · intro i w hw
    rw [hworkers] at hw
    have hold := hg.busy i w hw
    cases hpc : w.pc with
    | process d m l =>
      rw [hpc] at hold
      obtain ⟨hc, ctx, hget, htied⟩ := hold
      rw [hhanded, hledger, hctx]
      exact ⟨hc, ctx, getElem?_concat hget, htied⟩
    | _ => trivial
  · rw [hledger]
    refine hg.faithful.congr fun x hx => ?_
    obtain ⟨c, hc, hactor, -⟩ := hg.handled x hx
    have hlt := (List.getElem?_eq_some_iff.mp (hrouted.handed c hc)).1
    rw [hactor] at hlt
    obtain ⟨ref, href⟩ := refOf_eq_some hg hlt
    rw [href, refOf, hselves]
    exact getElem?_concat href

/-- The letter in a worker's hand has no reply yet. -/
theorem countFor_eq_zero {n : Nat} {ok : Group μ → Action μ → Prop}
    {g : Group μ} (h : (machine μ n).Reach ok g) (hg : g.Answering) {i : Nat}
    {w : Worker μ} {l : Letter μ} (hw : g.workers[i]? = some w)
    (hhand : w.hand = some l) : g.ledger.countFor l.id = 0 := by
  rw [Ledger.countFor, List.countP_eq_zero]
  intro r hr
  obtain ⟨c, hc, -, hletter⟩ := hg.handled r hr
  have hne := not_handed h hw hhand hc
  rw [hletter] at hne
  simpa using hne

/-- The context is prepared for the letter by the worker that has the member
to itself. -/
theorem Answering.begin {n : Nat} {ok : Group μ → Action μ → Prop}
    {g : Group μ} (h : (machine μ n).Reach ok g) (hg : g.Answering) {i : Nat}
    {w : Worker μ} {d : Bool} {env : GroupEnvelope μ} {m : Nat}
    {mem : GroupMember} {mutex : Mutex ThreadId}
    (hw : g.workers[i]? = some w) (hpc : w.pc = .dispatch d env)
    (hmem : g.members[m]? = some mem) (hfree : mem.mutex.owner = none) :
    Answering { g with
      workers := g.workers.set i { w with pc := .process d m env.letter }
      members := g.members.set m
        { context := (mem.dispatch m env.letter).context
          mutex := mutex }
      handed := g.handed ++ [mem.dispatch m env.letter]
      history := g.history ++ [(m, .processBegin)] } := by
  have hctx : g.contexts[m]? = some mem.context := by simp [contexts, hmem]
  have hlt : m < g.contexts.length := (List.getElem?_eq_some_iff.mp hctx).1
  have hset : (g.members.set m
      { context := (mem.dispatch m env.letter).context
        mutex := mutex }).map GroupMember.context =
      g.contexts.set m (mem.dispatch m env.letter).context := by
    rw [List.map_set]
    rfl
  have hzero := countFor_eq_zero h hg hw (l := env.letter)
    (by rw [Worker.hand, hpc]; rfl)
  refine ⟨hg.refs, ?_, hg.own, ?_, ?_, hg.faithful⟩
  · have hself := map_set_of_eq ActorContext.selfRef hctx
      (b := (mem.dispatch m env.letter).context) rfl
    rw [contexts, hset, hself]
    exact hg.selfRefs
  · intro r hr
    obtain ⟨c, hc, hrest⟩ := hg.handled r hr
    exact ⟨c, List.mem_append_left _ hc, hrest⟩
  · rw [contexts, hset]
    refine fun j w' hw' => ?_
    by_cases hji : j = i
    · subst hji
      have hlen := (List.getElem?_eq_some_iff.mp hw).1
      rw [List.getElem?_set_self hlen, Option.some.injEq] at hw'
      subst hw'
      refine ⟨⟨_, List.mem_concat_self, rfl,
        rfl⟩, _, List.getElem?_set_self hlt, ?_⟩
      exact Ledger.tied_prepare hzero
    · rw [List.getElem?_set_ne (Ne.symm hji)] at hw'
      have hold := hg.busy j w' hw'
      cases hpc' : w'.pc with
      | process d' m' l' =>
        rw [hpc'] at hold
        obtain ⟨⟨c, hc, hrest⟩, ctx, hctx', htied⟩ := hold
        -- The member is free, so the other handler is in another one.
        have hne : m ≠ m' := by
          rintro rfl
          have hin : insideOf g.main g.workers (.worker j) = some m := by
            simp [insideOf, hw', hpc', WorkerPc.inside]
          have howner := ((membersLocked h) _ _).mp hin
          simp [ownerOf, hmem, hfree] at howner
        refine ⟨⟨c, List.mem_append_left _ hc, hrest⟩, ctx, ?_, htied⟩
        rw [List.getElem?_set_ne hne]
        exact hctx'
      | _ => trivial

/-- Two handlers that run at the same time handle different letters. -/
theorem letter_ne_of_busy {n : Nat} {ok : Group μ → Action μ → Prop}
    {g : Group μ} (h : (machine μ n).Reach ok g) {m m' : Nat}
    {l l' : Letter μ} (hne : m ≠ m')
    (hc : ∃ c ∈ g.handed, c.actor = m ∧ c.letter = l)
    (hc' : ∃ c ∈ g.handed, c.actor = m' ∧ c.letter = l') : l.id ≠ l'.id := by
  obtain ⟨c, hc, hactor, hletter⟩ := hc
  obtain ⟨c', hc', hactor', hletter'⟩ := hc'
  intro hid
  have hsame : c.letter = c'.letter := by
    refine eq_of_sent_id h (sent_of_handed h hc) (sent_of_handed h hc') ?_
    rw [hletter, hletter', hid]
  have heq := List.inj_on_of_nodup_map (handed_nodup h) hc hc' hsame
  rw [← hactor, ← hactor', heq] at hne
  exact hne rfl

/-- A handler replies out of the context of its own letter. -/
theorem Answering.reply {n : Nat} {ok : Group μ → Action μ → Prop}
    {g : Group μ} (h : (machine μ n).Reach ok g) (hg : g.Answering) {i : Nat}
    {w : Worker μ} {d : Bool} {m : Nat} {l : Letter μ} {mem : GroupMember}
    (hw : g.workers[i]? = some w) (hpc : w.pc = .process d m l)
    (hmem : g.members[m]? = some mem) (msg : Message μ) :
    Answering { g with
      members := g.members.set m { mem with context := mem.context.reply.2 }
      ledger := g.ledger.enter m l msg mem.context.reply.1 } := by
  have hctx : g.contexts[m]? = some mem.context := by simp [contexts, hmem]
  have hlt : m < g.contexts.length := (List.getElem?_eq_some_iff.mp hctx).1
  have hset : (g.members.set m { mem with context := mem.context.reply.2 }).map
      GroupMember.context = g.contexts.set m mem.context.reply.2 := by
    rw [List.map_set]
    rfl
  have hbusy := hg.busy i w hw
  rw [hpc] at hbusy
  obtain ⟨hc, ctx, hctx', htied⟩ := hbusy
  rw [hctx, Option.some.injEq] at hctx'
  subst hctx'
  refine ⟨hg.refs, ?_, hg.own, ?_, ?_, ?_⟩
  · rw [contexts, hset, map_set_of_eq ActorContext.selfRef hctx
      mem.context.reply_selfRef]
    exact hg.selfRefs
  · exact forall_mem_snoc hg.handled hc
  · rw [contexts, hset]
    refine fun j w' hw' => ?_
    have hold := hg.busy j w' hw'
    cases hpc' : w'.pc with
    | process d' m' l' =>
      rw [hpc'] at hold
      obtain ⟨hc', ctx, hctx', htied'⟩ := hold
      by_cases hmm : m = m'
      · -- The same member: then it is the same worker, by mutual exclusion.
        subst hmm
        have hij := (membersLocked h).unique (t := .worker i) (u := .worker j)
          (m := m) (by simp [insideOf, hw, hpc, WorkerPc.inside])
          (by simp [insideOf, hw', hpc', WorkerPc.inside])
        rw [ThreadId.worker.injEq] at hij
        subst hij
        rw [hw, Option.some.injEq] at hw'
        subst hw'
        rw [hpc, WorkerPc.process.injEq] at hpc'
        obtain ⟨-, -, rfl⟩ := hpc'
        refine ⟨hc, _, List.getElem?_set_self hlt, ?_⟩
        rw [ActorContext.reply_selfRef]
        exact Ledger.tied_reply htied m msg
      · refine ⟨hc', ctx, ?_, ?_⟩
        · rw [List.getElem?_set_ne hmm]
          exact hctx'
        · exact Ledger.tied_enter htied' (letter_ne_of_busy h hmm hc hc') m msg _
    | _ => trivial
  · obtain ⟨c, hcmem, -, hletter⟩ := hc
    have hown : l.Own := hletter ▸ hg.own _ (sent_of_handed h hcmem)
    rw [hg.selfRef_eq hctx] at htied
    exact hg.faithful.reply htied hown msg

/-- A `fast_send` returns what is in its channel, or nothing. -/
theorem Answering.giveBack {g g' : Group μ} (hg : g.Answering) (c : ChannelId)
    (result : Option (Message μ))
    (h : ∀ m, result = some m → m ∈ g.ledger.carried c)
    (heq : g' = { g with callers := g'.callers
                         ledger := g.ledger.giveBack c result }) :
    g'.Answering := by
  rw [heq]
  refine { hg with busy := fun i w hw => ?_, faithful := hg.faithful.giveBack h }
  have hold := hg.busy i w hw
  cases hpc : w.pc with
  | process d m l =>
    rw [hpc] at hold
    obtain ⟨hc, ctx, hctx, htied⟩ := hold
    exact ⟨hc, ctx, hctx, Ledger.tied_giveBack htied c result⟩
  | _ => trivial

/-- A letter that a send makes has its own reply channel, if any. -/
theorem letterOf_own (g : Group μ) (t : ThreadId) (r : Nat) (name : String)
    (msg : Message μ) (sender : Option ActorRef) (sync : Bool) :
    (g.letterOf t r name msg sender sync).Own := by
  intro c hc
  cases sync with
  | false => simp [letterOf, Envelope.new] at hc
  | true => simpa [letterOf, Envelope.newSync, eq_comm] using hc

theorem answering_move {n : Nat} {ok : Group μ → Action μ → Prop}
    {g g' : Group μ} {a : Action μ} (hreach : (machine μ n).Reach ok g)
    (h : Move g a g') (hg : g.Answering) : g'.Answering := by
  have hposted : ∀ l : Letter μ, l.Own → ∀ l' ∈ g.sent ++ [l], l'.Own :=
    fun l hl => forall_mem_snoc hg.own hl
  cases h with
  | add name hidle =>
    exact hg.add (routed hreach) rfl rfl rfl rfl rfl rfl rfl
  | start | shutdown | wait | endCall =>
    exact hg.frame rfl (addedNames_call rfl rfl) rfl hg.own rfl rfl hg.busy
  | initLock m mem todo hmain hm hmem | endLock m mem todo hmain hm hmem =>
    exact hg.frame rfl rfl (contexts_set hmem rfl) hg.own rfl rfl hg.busy
  | initReturn m todo hmain | endReturn m todo hmain =>
    exact hg.frame rfl rfl (contexts_modify fun _ => rfl) hg.own rfl rfl hg.busy
  | sendStart | sendShutdown | send | fastSend =>
    exact hg.frame rfl rfl rfl (hposted _ (letterOf_own _ _ _ _ _ _ _)) rfl rfl hg.busy
  | spawn k hmain =>
    exact hg.frame rfl rfl rfl hg.own rfl rfl
      (forall_getElem?_snoc hg.busy trivial)
  | fastReturn t c m ms hc hm =>
    refine hg.giveBack c (some m) ?_ rfl
    intro m' heq
    rw [Option.some.injEq] at heq
    simp [hm, heq]
  | fastReturnNone t c hc hm hgone =>
    exact hg.giveBack c none (by simp) rfl
  | check i w hw hpc =>
    exact hg.goOn (i := i) (w := w) (by cases g.running <;> rfl) rfl rfl rfl rfl
      rfl rfl rfl
  | recvPanic i w hw | recv i w env rest hw | recvEmpty i w hw
  | drain i w env rest hw | drainEmpty i w hw | memberPanic i w d env m mem hw =>
    exact hg.goOn rfl rfl rfl rfl rfl rfl rfl rfl
  | noMember i w d env hw hpc hno =>
    exact hg.goOn (inside_after d) rfl rfl rfl rfl rfl rfl rfl
  | processBegin i w d env m mem hw hpc hm hmem hfree hclean =>
    exact Answering.begin hreach hg hw hpc hmem hfree
  | reply i msg w d m l mem hw hpc hmem =>
    exact Answering.reply hreach hg hw hpc hmem msg
  | handlerReturn i w d m l hw hpc hfree =>
    exact hg.goOn (inside_after d) rfl rfl rfl (contexts_modify fun _ => rfl) rfl
      rfl rfl
  | handlerPanic i w d m l hw hpc hfree =>
    exact hg.goOn rfl rfl rfl rfl (contexts_modify fun _ => rfl) rfl rfl rfl
  | _ => exact { hg with }

theorem answering {n : Nat} {ok : Group μ → Action μ → Prop} {g : Group μ}
    (h : (machine μ n).Reach ok g) : g.Answering := by
  refine invariant ?_ ?_ h
  · exact ⟨rfl, rfl, by simp [new], by simp [new], by simp [new],
      Ledger.faithful_empty _⟩
  · intro g a g' hreach hg _ hmove
    exact answering_move hreach hmove hg

end Group

end Actors
