import Actors.Actor.Context
import Mathlib.Data.List.Basic
import Mathlib.Data.List.Count

/-!
# Letters, and the ledger of replies

An envelope that is under way has no identity in the source: two sends of the
same message build two equal envelopes.  The models need to tell them apart,
so an envelope travels inside a `Letter`, which adds what an observer of the
run knows: its serial number, the thread that sent it, and the reference it
was sent through.  No function of the model reads these additions to decide
what to do.

The channel that a `fast_send` creates is named by the serial number of its
letter (`Letter.Own`), which is fresh.

A `Ledger` records every call of `ctx.reply` with the letter that was being
handled, and every return of a `fast_send`.  `Ledger.Faithful` is the
statement that no reply is misrouted.  The proof does not depend on who runs
the actor: `Tied` relates a context to the letter in hand, `tied_prepare` and
`tied_reply` show that the two methods of the context keep the relation, and
`Faithful.reply` shows that a reply out of a tied context is entered
faithfully.  A standalone runtime and a member of a group both use these
three.
-/

namespace Actors

/-- A thread: the one that calls the methods of a component, the `i`-th thread
that the component has spawned, or another thread of the application. -/
inductive ThreadId where
  | main
  | worker (i : Nat)
  | client (k : Nat)
  deriving DecidableEq, Repr

/-- An envelope under way. -/
structure Letter (μ : Type) where
  /-- Serial number: how many letters were sent before. -/
  id : Nat
  /-- The thread that sent it. -/
  author : ThreadId
  /-- The reference it was sent through, by number. -/
  via : Nat
  /-- The name on that reference. -/
  addressee : String
  envelope : Envelope μ
  deriving DecidableEq, Repr

/-- The reply channel of a letter, if any, is the one that was created for
it. -/
def Letter.Own {μ : Type} (l : Letter μ) : Prop :=
  ∀ c, l.envelope.replyChannel = some c → c = l.id

/-- One call of `process_message`, with its arguments. -/
structure ProcessCall (μ : Type) where
  /-- The actor that is called, by number. -/
  actor : Nat
  msg : Message μ
  context : ActorContext
  /-- The letter that the message came in. -/
  letter : Letter μ
  deriving DecidableEq, Repr

/-- What `ActorRuntime::dispatch` and `GroupMember::dispatch` have in common:
the context is set up for the envelope, and `process_message` is called with
it. -/
def ProcessCall.prepared {μ : Type} (actor : Nat) (context : ActorContext)
    (l : Letter μ) : ProcessCall μ :=
  { actor, msg := l.envelope.msg
    context := context.prepareForEnvelope l.envelope.sender
      l.envelope.replyChannel
    letter := l }

/-- The call carries what its letter carried. -/
def ProcessCall.Carries {μ : Type} (c : ProcessCall μ) : Prop :=
  c.msg = c.letter.envelope.msg ∧
    c.context.sender = c.letter.envelope.sender ∧
    c.context.replyChannel = c.letter.envelope.replyChannel

/-- One call of `ctx.reply`. -/
structure Reply (μ : Type) where
  /-- The actor that replies, by number. -/
  actor : Nat
  /-- The letter it is handling. -/
  letter : Letter μ
  /-- How many replies it has issued for that letter before. -/
  nth : Nat
  msg : Message μ
  route : ReplyRoute
  deriving DecidableEq, Repr

/-- All replies so far, and all returns of `fast_send`: the channel it waited
on and its result. -/
structure Ledger (μ : Type) where
  replies : List (Reply μ) := []
  returns : List (ChannelId × Option (Message μ)) := []
  deriving DecidableEq, Repr

namespace Ledger

variable {μ : Type}

/-- How many replies were issued for the letter with this number. -/
def countFor (L : Ledger μ) (id : Nat) : Nat :=
  L.replies.countP fun r => r.letter.id = id

/-- The messages that were put into the channel `c`. -/
def carried (L : Ledger μ) (c : ChannelId) : List (Message μ) :=
  (L.replies.filter fun r => r.route = .channel c).map Reply.msg

/-- Enter a call of `ctx.reply` that took the given route. -/
def enter (L : Ledger μ) (actor : Nat) (letter : Letter μ) (msg : Message μ)
    (route : ReplyRoute) : Ledger μ :=
  { L with replies := L.replies ++
      [{ actor, letter, nth := L.countFor letter.id, msg, route }] }

/-- Enter the return of the `fast_send` that waited on `c`. -/
def giveBack (L : Ledger μ) (c : ChannelId) (result : Option (Message μ)) :
    Ledger μ :=
  { L with returns := L.returns ++ [(c, result)] }

@[simp] theorem countFor_giveBack (L : Ledger μ) (c : ChannelId)
    (result : Option (Message μ)) (id : Nat) :
    (L.giveBack c result).countFor id = L.countFor id := rfl

@[simp] theorem carried_giveBack (L : Ledger μ) (c c' : ChannelId)
    (result : Option (Message μ)) :
    (L.giveBack c result).carried c' = L.carried c' := rfl

theorem countFor_enter (L : Ledger μ) (actor : Nat) (letter : Letter μ)
    (msg : Message μ) (route : ReplyRoute) (id : Nat) :
    (L.enter actor letter msg route).countFor id =
      L.countFor id + if letter.id = id then 1 else 0 := by
  simp [enter, countFor, List.countP_append, List.countP_cons]

theorem carried_enter (L : Ledger μ) (actor : Nat) (letter : Letter μ)
    (msg : Message μ) (route : ReplyRoute) (c : ChannelId) :
    (L.enter actor letter msg route).carried c =
      L.carried c ++ if route = .channel c then [msg] else [] := by
  simp only [enter, carried, List.filter_append, List.map_append]
  by_cases h : route = .channel c <;> simp [h]

/-- A reply that took a channel is a message the channel carried. -/
theorem mem_carried_of_route {L : Ledger μ} {r : Reply μ} {c : ChannelId}
    (hr : r ∈ L.replies) (hroute : r.route = .channel c) :
    r.msg ∈ L.carried c := by
  rw [carried, List.mem_map]
  exact ⟨r, List.mem_filter.mpr ⟨hr, by simpa using hroute⟩, rfl⟩

/-- The route of a reply is right.  A channel is the channel of the letter and
is taken by the first reply; a mailbox is that of the letter's sender, with
the actor itself as sender; and the first reply does take the channel when
there is one. -/
structure Proper (selfRef : Nat → Option ActorRef) (r : Reply μ) : Prop where
  channel : ∀ c, r.route = .channel c →
    r.letter.envelope.replyChannel = some c ∧ r.nth = 0
  mailbox : ∀ target self, r.route = .mailbox target self →
    r.letter.envelope.sender = some target ∧ self = selfRef r.actor
  first : ∀ c, r.nth = 0 → r.letter.envelope.replyChannel = some c →
    r.route = .channel c

/-- No reply is misrouted: every route is right, a channel carries at most one
message, and a `fast_send` that returned a message returned the first reply
issued while its own letter was handled. -/
structure Faithful (selfRef : Nat → Option ActorRef) (L : Ledger μ) :
    Prop where
  own : ∀ r ∈ L.replies, r.letter.Own
  proper : ∀ r ∈ L.replies, Proper selfRef r
  single : ∀ c, (L.carried c).length ≤ 1
  returned : ∀ c m, (c, some m) ∈ L.returns → ∃ r ∈ L.replies,
    r.letter.id = c ∧ r.letter.envelope.replyChannel = some c ∧
      r.nth = 0 ∧ r.msg = m

/-- The context belongs to the letter in hand: its sender is the letter's, and
its channel is the letter's until the first reply. -/
structure Tied (me : Option ActorRef) (L : Ledger μ) (ctx : ActorContext)
    (l : Letter μ) : Prop where
  selfRef : ctx.selfRef = me
  sender : ctx.sender = l.envelope.sender
  channel : ctx.replyChannel =
    if L.countFor l.id = 0 then l.envelope.replyChannel else none

theorem faithful_empty (selfRef : Nat → Option ActorRef) :
    Faithful selfRef ({} : Ledger μ) :=
  ⟨by simp, by simp, by simp [carried], by simp⟩

/-- Only the references of the actors that replied matter. -/
theorem Faithful.congr {selfRef selfRef' : Nat → Option ActorRef}
    {L : Ledger μ} (hL : Faithful selfRef L)
    (h : ∀ r ∈ L.replies, selfRef' r.actor = selfRef r.actor) :
    Faithful selfRef' L := by
  refine ⟨hL.own, fun r hr => ?_, hL.single, hL.returned⟩
  refine { hL.proper r hr with mailbox := fun target self hroute => ?_ }
  rw [h r hr]
  exact (hL.proper r hr).mailbox target self hroute

/-- A channel that carries a message had a reply for its letter. -/
theorem countFor_pos_of_carried {selfRef : Nat → Option ActorRef}
    {L : Ledger μ} (h : Faithful selfRef L) {c : ChannelId}
    (hc : L.carried c ≠ []) : 0 < L.countFor c := by
  obtain ⟨m, hm⟩ := List.exists_mem_of_ne_nil _ hc
  obtain ⟨r, hr, rfl⟩ := List.mem_map.mp hm
  obtain ⟨hmem, hroute⟩ := List.mem_filter.mp hr
  have hch := ((h.proper r hmem).channel c (by simpa using hroute)).1
  have hid : c = r.letter.id := h.own r hmem c hch
  rw [countFor, List.countP_pos_iff]
  exact ⟨r, hmem, by simp [hid]⟩

/-- The context is tied right after `prepare_for_envelope`, for a letter that
nobody has replied to. -/
theorem tied_prepare {L : Ledger μ} {ctx : ActorContext} {l : Letter μ}
    (h : L.countFor l.id = 0) :
    Tied ctx.selfRef L
      (ctx.prepareForEnvelope l.envelope.sender l.envelope.replyChannel) l :=
  ⟨rfl, rfl, by simp [h]⟩

/-- The context stays tied when the actor replies out of it. -/
theorem tied_reply {me : Option ActorRef} {L : Ledger μ}
    {ctx : ActorContext} {l : Letter μ} (h : Tied me L ctx l)
    (actor : Nat) (msg : Message μ) :
    Tied me (L.enter actor l msg ctx.reply.1) ctx.reply.2 l := by
  refine ⟨by simp [h.selfRef], by simp [h.sender], ?_⟩
  rw [countFor_enter, if_pos rfl, if_neg (by omega)]
  simp

/-- A context stays tied when another letter is replied to. -/
theorem tied_enter {me : Option ActorRef} {L : Ledger μ}
    {ctx : ActorContext} {l l' : Letter μ} (h : Tied me L ctx l)
    (hne : l'.id ≠ l.id) (actor : Nat) (msg : Message μ)
    (route : ReplyRoute) : Tied me (L.enter actor l' msg route) ctx l := by
  refine ⟨h.selfRef, h.sender, ?_⟩
  rw [countFor_enter, if_neg hne, Nat.add_zero]
  exact h.channel

theorem tied_giveBack {me : Option ActorRef} {L : Ledger μ}
    {ctx : ActorContext} {l : Letter μ} (h : Tied me L ctx l)
    (c : ChannelId) (result : Option (Message μ)) :
    Tied me (L.giveBack c result) ctx l :=
  ⟨h.selfRef, h.sender, h.channel⟩

/-- A reply out of a tied context takes a right route. -/
theorem proper_of_tied {selfRef : Nat → Option ActorRef} {L : Ledger μ}
    {ctx : ActorContext} {l : Letter μ} {actor : Nat}
    (h : Tied (selfRef actor) L ctx l) (msg : Message μ) :
    Proper selfRef ⟨actor, l, L.countFor l.id, msg, ctx.reply.1⟩ := by
  refine ⟨?_, ?_, ?_⟩
  · intro c hroute
    have hch : ctx.replyChannel = some c :=
      (ctx.reply_channel_iff c).mp hroute
    rw [h.channel] at hch
    split at hch
    · rename_i hzero
      exact ⟨hch, hzero⟩
    · simp at hch
  · intro target self hroute
    obtain ⟨hsender, hself⟩ := ActorContext.reply_mailbox hroute
    exact ⟨h.sender ▸ hsender, h.selfRef ▸ hself⟩
  · intro c hzero hch
    have hctx : ctx.replyChannel = some c := by
      rw [h.channel, if_pos hzero]
      exact hch
    exact (ctx.reply_channel_iff c).mpr hctx

/-- Entering a reply out of a tied context keeps the ledger faithful.  The
channel of the letter was empty: a message in it would be counted for the
letter, and then the context would not hold the channel any more. -/
theorem Faithful.reply {selfRef : Nat → Option ActorRef} {L : Ledger μ}
    (hL : Faithful selfRef L) {ctx : ActorContext} {l : Letter μ}
    {actor : Nat} (h : Tied (selfRef actor) L ctx l) (hown : l.Own)
    (msg : Message μ) :
    Faithful selfRef (L.enter actor l msg ctx.reply.1) := by
  have hproper := proper_of_tied h msg
  refine ⟨?_, ?_, ?_, ?_⟩
  · intro r hr
    rcases List.mem_append.mp hr with hr | hr
    · exact hL.own r hr
    · rw [List.mem_singleton.mp hr]
      exact hown
  · intro r hr
    rcases List.mem_append.mp hr with hr | hr
    · exact hL.proper r hr
    · rw [List.mem_singleton.mp hr]
      exact hproper
  · intro c
    rw [carried_enter]
    split
    · rename_i hroute
      obtain ⟨hch, hzero⟩ := hproper.channel c hroute
      have hid : c = l.id := hown c hch
      have hempty : L.carried c = [] := by
        by_contra hne
        have hpos := countFor_pos_of_carried hL hne
        rw [hid] at hpos
        exact absurd hzero (Nat.ne_of_gt hpos)
      simp [hempty]
    · simpa using hL.single c
  · intro c m hm
    obtain ⟨r, hr, hrest⟩ := hL.returned c m hm
    exact ⟨r, List.mem_append_left _ hr, hrest⟩

/-- A `fast_send` that takes the message in its channel keeps the ledger
faithful. -/
theorem Faithful.giveBack {selfRef : Nat → Option ActorRef} {L : Ledger μ}
    (hL : Faithful selfRef L) {c : ChannelId} {result : Option (Message μ)}
    (h : ∀ m, result = some m → m ∈ L.carried c) :
    Faithful selfRef (L.giveBack c result) := by
  refine ⟨hL.own, hL.proper, hL.single, ?_⟩
  intro c' m hm
  rcases List.mem_append.mp hm with hm | hm
  · exact hL.returned c' m hm
  · simp only [List.mem_singleton, Prod.mk.injEq] at hm
    obtain ⟨rfl, hres⟩ := hm
    obtain ⟨r, hr, hmsg⟩ := List.mem_map.mp (h m hres.symm)
    obtain ⟨hmem, hroute⟩ := List.mem_filter.mp hr
    obtain ⟨hch, hzero⟩ :=
      (hL.proper r hmem).channel c' (by simpa using hroute)
    have hid := hL.own r hmem c' hch
    exact ⟨r, hmem, hid.symm, hch, hzero, hmsg⟩

end Ledger

end Actors
