import Actors.Manager.Calls
import Actors.Manager.Requests

/-!
# Actors that wait for each other

`fast_send` has no timeout, and an actor that waits in it handles nothing.  So
actors that wait for each other in a circle wait for ever, and so does everybody
who waits for one of them.

* `Awaits` is the waits-for relation on the threads, and a set of actors is
  `Knotted` when each of them waits for one of the set.
* `knot_for_ever`: no step of any thread unties a knot.
* `deadlock_for_ever`: when handlers reply before they return, a state in which
  nothing can serve the callers contains a knot that all of them wait for, and
  so none of them ever returns.
-/

namespace Actors

open Concur

variable {μ : Type}

/-- The thread stays where it is.  Its mailbox may take letters. -/
structure Runtime.Stands (a a' : Runtime μ) : Prop where
  pc : a'.pc = a.pc
  handed : a'.handed = a.handed
  context : a'.context = a.context
  mailbox : a.mailbox <+: a'.mailbox

theorem Runtime.Stands.refl (a : Runtime μ) : a.Stands a :=
  ⟨rfl, rfl, rfl, List.prefix_refl _⟩

theorem Runtime.Stands.trans {a b c : Runtime μ} (hab : a.Stands b)
    (hbc : b.Stands c) : a.Stands c :=
  ⟨hbc.pc.trans hab.pc, hbc.handed.trans hab.handed,
    hbc.context.trans hab.context, hab.mailbox.trans hbc.mailbox⟩

namespace Manager

/-- Actor `j` has the `Sender` of the reply channel `c`. -/
def Holds (s : Manager μ) (j : Nat) (c : ChannelId) : Prop :=
  ∃ a, s.actors[j]? = some a ∧ a.pc.finished = false ∧
    ((∃ l ∈ a.mailbox, l.envelope.replyChannel = some c) ∨
      a.context.replyChannel = some c)

/-- Thread `t` waits on the channel `c` for a reply of actor `j`, which is not
there yet. -/
structure Awaits (s : Manager μ) (t : ThreadId) (c : ChannelId) (j : Nat) : Prop where
  caller : (t, c) ∈ s.callers
  empty : s.ledger.carried c = []
  holds : s.Holds j c

/-- Each actor of the set waits for one of the set. -/
def Knotted (s : Manager μ) (S : Nat → Prop) : Prop :=
  ∀ k, S k → ∃ c j, S j ∧ s.Awaits (.worker k) c j

/-! ## Who holds a channel -/

theorem replySenderLive_iff (s : Manager μ) (c : ChannelId) :
    s.replySenderLive c = true ↔ ∃ j, s.Holds j c := by
  refine ⟨exists_holder, ?_⟩
  rintro ⟨j, a, ha, hlive, hheld⟩
  unfold replySenderLive
  refine List.any_eq_true.mpr ⟨a, List.mem_of_getElem? ha, ?_⟩
  simpa [hlive] using hheld

/-- The channel in a context came with a letter. -/
theorem channel_origin {ok : Manager μ → ManagerAction μ → Prop} {s : Manager μ}
    (h : (machine μ).Reach ok s) : ∀ (k : Nat) (a : Runtime μ),
      s.actors[k]? = some a → ∀ c, a.context.replyChannel = some c →
        ∃ l ∈ a.letters, l.envelope.replyChannel = some c := by
  refine h.invariant (I := fun s => ∀ (k : Nat) (a : Runtime μ),
    s.actors[k]? = some a → ∀ c, a.context.replyChannel = some c →
      ∃ l ∈ a.letters, l.envelope.replyChannel = some c) ?_ ?_
  · rintro s rfl
    simp [new]
  · intro s b s' hreach hs _ hstep k a' ha' c hc
    rcases change_of_step hstep ha' with ⟨a, ha, hchange⟩ | ⟨name, -, -, rfl⟩
    · cases hchange with
      | same | senders | accept | spawn | panic | stop => exact hs k _ ha c hc
      | reply msg l hb hpc =>
        rw [Runtime.reply, ActorContext.reply_replyChannel] at hc
        simp at hc
      | run _ events hb hcode hmove =>
        cases hmove with
        | recv l rest hpc hbox =>
          rw [Runtime.letters, Runtime.letters_recv]
          exact ⟨l, by simp, hc⟩
        | begin | initReturn | goOn | leave | closed | processReturn | endReturn =>
          exact hs k a ha c hc
    · simp [managed, Runtime.new, ActorContext.new, ActorContext.setSelfRef] at hc

/-- The channel that an actor holds came with a letter to it. -/
theorem Holds.letter {ok : Manager μ → ManagerAction μ → Prop} {s : Manager μ}
    (h : (machine μ).Reach ok s) {j : Nat} {c : ChannelId} (hheld : s.Holds j c) :
    ∃ l ∈ s.sent, l.via = j ∧ l.envelope.replyChannel = some c := by
  obtain ⟨a, ha, hlive, hheld⟩ := hheld
  have hbox := (mailed h).boxes j a ha
  have hin : ∃ l ∈ a.accepted, l.envelope.replyChannel = some c := by
    rcases hheld with ⟨l, hl, hc⟩ | hc
    · refine ⟨l, ?_, hc⟩
      rw [hbox.rest hlive]
      exact List.mem_append_right _ hl
    · obtain ⟨l, hl, hc⟩ := channel_origin h j a ha c hc
      exact ⟨l, hbox.handed_prefix.subset hl, hc⟩
  obtain ⟨l, hl, hc⟩ := hin
  exact ⟨l, (hbox.mine l hl).2, (hbox.mine l hl).1, hc⟩

/-- Only the actor that the request went to can have the channel. -/
theorem Holds.eq {ok : Manager μ → ManagerAction μ → Prop} {s : Manager μ}
    (h : (machine μ).Reach ok s) {j : Nat} {c : ChannelId} (hheld : s.Holds j c)
    {l : Letter μ} (hl : l ∈ s.sent) (hc : l.envelope.replyChannel = some c) :
    l.via = j := by
  obtain ⟨l', hl', hvia, hc'⟩ := hheld.letter h
  have hown := (answering h).own l hl c hc
  have hown' := (answering h).own l' hl' c hc'
  rw [(mailed h).eq_of_id hl hl' (hown.symm.trans hown')]
  exact hvia

/-! ## A knot stays -/

theorem free_of_reply {s s' : Manager μ} {k : Nat} {msg : Message μ}
    (hstep : s.step (.reply k msg) = some s') : s.blocked (.worker k) = false := by
  simp only [step, reply] at hstep
  split at hstep
  · split at hstep
    · split at hstep
      · simp at hstep
      · rename_i hfree
        simpa using hfree
    · simp at hstep
  · simp at hstep

/-- A thread that waits stays where it is. -/
theorem stands_of_blocked {s s' : Manager μ} {b : ManagerAction μ} {k : Nat}
    {a : Runtime μ} (howned : s.Owned) (hstep : s.step b = some s')
    (ha : s.actors[k]? = some a) (hcode : a.pc.inCode = true)
    (hblocked : s.blocked (.worker k) = true) :
    ∃ a', s'.actors[k]? = some a' ∧ a.Stands a' := by
  obtain ⟨a', ha', hchange⟩ := exists_change hstep ha
  refine ⟨a', ha', ?_⟩
  cases hchange with
  | same | senders | stop => exact ⟨rfl, rfl, rfl, List.prefix_refl _⟩
  | accept l => exact ⟨rfl, rfl, rfl, List.prefix_append _ _⟩
  | spawn todo hmain =>
    have hpc : a.pc = .parked :=
      (howned.parked k a.pc (by simp [pcs, ha])).mpr
        (by simp [hmain, ManagerPc.starting])
    simp [hpc, RuntimePc.inCode] at hcode
  | run _ events hb hreturn hmove =>
    have hfree := (hreturn hcode).2
    rw [hblocked] at hfree
    simp at hfree
  | panic hb _ hfree =>
    rw [hblocked] at hfree
    simp at hfree
  | reply msg l hb hpc =>
    subst hb
    have hfree := free_of_reply hstep
    rw [hblocked] at hfree
    simp at hfree

/-- An actor that waits is in a hook or in its handler. -/
theorem inCode_of_blocked {ok : Manager μ → ManagerAction μ → Prop} {s : Manager μ}
    (h : (machine μ).Reach ok s) {k : Nat} (hblocked : s.blocked (.worker k) = true) :
    ∃ a, s.actors[k]? = some a ∧ a.pc.inCode = true := by
  rw [blocked_iff, List.mem_map] at hblocked
  obtain ⟨⟨t, c⟩, hc, rfl⟩ := hblocked
  exact (asking h).inside k c hc

/-- An actor that waits keeps the channels that it holds. -/
theorem Holds.step {ok : Manager μ → ManagerAction μ → Prop} {s s' : Manager μ}
    (h : (machine μ).Reach ok s) {b : ManagerAction μ} (hstep : s.step b = some s')
    {j : Nat} {c : ChannelId} (hheld : s.Holds j c)
    (hblocked : s.blocked (.worker j) = true) : s'.Holds j c := by
  obtain ⟨a, ha, hlive, hheld⟩ := hheld
  obtain ⟨x, hx, hcode⟩ := inCode_of_blocked h hblocked
  obtain rfl : a = x := by rwa [ha, Option.some.injEq] at hx
  obtain ⟨a', ha', hstands⟩ := stands_of_blocked (owned h) hstep ha hcode hblocked
  refine ⟨a', ha', hstands.pc ▸ hlive, ?_⟩
  rcases hheld with ⟨l, hl, hc⟩ | hc
  · exact Or.inl ⟨l, hstands.mailbox.subset hl, hc⟩
  · exact Or.inr (hstands.context ▸ hc)

/-- Nothing comes into a channel while its holder waits. -/
theorem carried_of_step {ok : Manager μ → ManagerAction μ → Prop} {s s' : Manager μ}
    (h : (machine μ).Reach ok s) {b : ManagerAction μ} (hstep : s.step b = some s')
    {j : Nat} {c : ChannelId} (hheld : s.Holds j c)
    (hblocked : s.blocked (.worker j) = true) (hempty : s.ledger.carried c = []) :
    s'.ledger.carried c = [] := by
  cases move_of_step hstep with
  | fastReturn | fastReturnNone => simpa using hempty
  | reply k msg a l ha hpc =>
    have hfree := free_of_reply hstep
    rw [Ledger.carried_enter, hempty]
    split
    · -- The handler that replies would hold the channel.
      rename_i hroute
      have hctx : a.context.replyChannel = some c :=
        (ActorContext.reply_channel_iff _ c).mp hroute
      have hc := channel_of_process (answering h) ha hpc hctx
      have hbox := (mailed h).boxes k a ha
      have hmine := hbox.mine l (hbox.handed_prefix.subset (hbox.current l hpc))
      have hjk : k = j := by rw [← hmine.1, hheld.eq h hmine.2 hc]
      rw [hjk, hblocked] at hfree
      simp at hfree
    · rfl
  | _ => exact hempty

/-- Who waits for an actor that waits goes on waiting for it. -/
theorem Awaits.step {ok : Manager μ → ManagerAction μ → Prop} {s s' : Manager μ}
    (h : (machine μ).Reach ok s) {b : ManagerAction μ} (hstep : s.step b = some s')
    {t : ThreadId} {c : ChannelId} {j : Nat} (hwaits : s.Awaits t c j)
    (hblocked : s.blocked (.worker j) = true) : s'.Awaits t c j := by
  obtain ⟨hc, hempty, hheld⟩ := hwaits
  refine ⟨?_, carried_of_step h hstep hheld hblocked hempty,
    hheld.step h hstep hblocked⟩
  have hsame : ∀ c', (t, c') ∈ s.callers → c' = c := by
    intro c' hc'
    have heq := List.inj_on_of_nodup_map (asking h).distinct hc' hc rfl
    simpa using heq
  have hfilter : ∀ t', t' ≠ t → (t, c) ∈ s.callers.filter fun p => p.1 ≠ t' := by
    intro t' hne
    exact List.mem_filter.mpr ⟨hc, by simpa using Ne.symm hne⟩
  cases move_of_step hstep with
  | fastReturn t' c' m ms hc' hm =>
    refine hfilter t' ?_
    rintro rfl
    rw [hsame c' hc', hempty] at hm
    simp at hm
  | fastReturnNone t' c' hc' hm hgone =>
    refine hfilter t' ?_
    rintro rfl
    have hlive := (s.replySenderLive_iff c).mpr ⟨j, hheld⟩
    rw [hsame c' hc', hlive] at hgone
    simp at hgone
  | fastSend => exact List.mem_append_left _ hc
  | _ => exact hc

theorem Knotted.blocked {s : Manager μ} {S : Nat → Prop} (h : s.Knotted S) {k : Nat}
    (hk : S k) : s.blocked (.worker k) = true := by
  obtain ⟨c, j, -, hwaits⟩ := h k hk
  exact (s.blocked_iff _).mpr (List.mem_map_of_mem hwaits.caller)

/-- What a knot does to the threads, from `s` to `s'`. -/
structure Frozen (S : Nat → Prop) (s s' : Manager μ) : Prop where
  knot : s'.Knotted S
  stands : ∀ k, S k → ∃ a a', s.actors[k]? = some a ∧ s'.actors[k]? = some a' ∧
    a.Stands a'
  waits : ∀ t c j, S j → s.Awaits t c j → s'.Awaits t c j

theorem frozen_refl {ok : Manager μ → ManagerAction μ → Prop} {s : Manager μ}
    (h : (machine μ).Reach ok s) {S : Nat → Prop} (hknot : s.Knotted S) :
    Frozen S s s := by
  refine ⟨hknot, fun k hk => ?_, fun _ _ _ _ hwaits => hwaits⟩
  obtain ⟨a, ha, -⟩ := inCode_of_blocked h (hknot.blocked hk)
  exact ⟨a, a, ha, ha, .refl a⟩

theorem Frozen.step {ok : Manager μ → ManagerAction μ → Prop} {s0 s s' : Manager μ}
    (hreach : (machine μ).Reach ok s) {S : Nat → Prop} (h : Frozen S s0 s)
    {b : ManagerAction μ} (hstep : s.step b = some s') : Frozen S s0 s' := by
  refine ⟨fun k hk => ?_, fun k hk => ?_, fun t c j hj hwaits => ?_⟩
  · obtain ⟨c, j, hj, hwaits⟩ := h.knot k hk
    exact ⟨c, j, hj, hwaits.step hreach hstep (h.knot.blocked hj)⟩
  · have hblocked := h.knot.blocked hk
    obtain ⟨a0, a, ha0, ha, hstands⟩ := h.stands k hk
    obtain ⟨x, hx, hcode⟩ := inCode_of_blocked hreach hblocked
    obtain rfl : a = x := by rwa [ha, Option.some.injEq] at hx
    obtain ⟨a', ha', hstands'⟩ :=
      stands_of_blocked (owned hreach) hstep ha hcode hblocked
    exact ⟨a0, a', ha0, ha', hstands.trans hstands'⟩
  · exact (h.waits t c j hj hwaits).step hreach hstep (h.knot.blocked hj)

/-- From the first state of a run with a knot on, the knot holds its threads. -/
theorem frozen {ok : Manager μ → ManagerAction μ → Prop}
    {tr : List (Manager μ × ManagerAction μ)} {s : Manager μ}
    (h : (machine μ).Run ok tr s) {y : Manager μ × ManagerAction μ} (hy : y ∈ tr)
    {S : Nat → Prop} (hknot : y.1.Knotted S) : Frozen S y.1 s := by
  obtain ⟨i, hi⟩ := List.mem_iff_getElem?.mp hy
  refine h.stable (P := Frozen S y.1) ?_ hy (frozen_refl (h.take hi).reach hknot)
  exact fun _ _ _ hreach _ hstep hfrozen => hfrozen.step hreach hstep

/-- Actors that wait for each other in a circle stay in the call of `fast_send`
that they are in and are handed nothing more, whatever the other threads do, and
whoever waits for one of them waits for ever. -/
theorem knot_for_ever {ok : Manager μ → ManagerAction μ → Prop}
    {tr : List (Manager μ × ManagerAction μ)} {s : Manager μ}
    (h : (machine μ).Run ok tr s) {y : Manager μ × ManagerAction μ} (hy : y ∈ tr)
    {S : Nat → Prop} (hknot : y.1.Knotted S) :
    s.Knotted S ∧
    (∀ k, S k → ∃ a a', y.1.actors[k]? = some a ∧ s.actors[k]? = some a' ∧
      a'.pc = a.pc ∧ a'.handed = a.handed ∧ a.mailbox <+: a'.mailbox) ∧
    ∀ t c j, S j → y.1.Awaits t c j → s.Awaits t c j := by
  have hfrozen := frozen h hy hknot
  refine ⟨hfrozen.knot, fun k hk => ?_, hfrozen.waits⟩
  obtain ⟨a, a', ha, ha', hstands⟩ := hfrozen.stands k hk
  exact ⟨a, a', ha, ha', hstands.pc, hstands.handed, hstands.mailbox⟩

/-- Two actors call each other out of their `init()` hooks. -/
def callEachOther : List (ManagerAction Nat) :=
  [.manage "a", .manage "b", .init, .main, .main, .main, .main, .main, .actor 0,
    .actor 1, .fastSend (.worker 0) 1 (.user 1) none,
    .fastSend (.worker 1) 0 (.user 2) none, .terminate (.client 0)]

/-- The two actors, while a client sets the termination flag. -/
theorem knot_for_ever_two : ∃ tr, ∃ y ∈ tr, ∃ s : Manager Nat,
    (machine Nat).Run RepliesFirst tr s ∧ y.1.terminateFlag = false ∧
    s.terminateFlag = true ∧ s.Knotted (· < 2) ∧
    (∀ k, k < 2 → ∃ a a', y.1.actors[k]? = some a ∧ s.actors[k]? = some a' ∧
      a'.pc = a.pc ∧ a'.handed = a.handed ∧ a.mailbox <+: a'.mailbox) ∧
    ∀ t c j, j < 2 → y.1.Awaits t c j → s.Awaits t c j := by
  have hrun := run_after RepliesFirst callEachOther (by decide)
  refine ⟨_, _, List.mem_of_getElem? (i := 12) rfl, _, hrun, rfl, rfl,
    knot_for_ever hrun (List.mem_of_getElem? (i := 12) rfl) ?_⟩
  rintro (_ | _ | k) hk
  · exact ⟨2, 1, by decide, by decide, rfl, _, rfl, rfl,
      Or.inl ⟨_, List.mem_of_getElem? (i := 1) rfl, rfl⟩⟩
  · exact ⟨3, 0, by decide, by decide, rfl, _, rfl, rfl,
      Or.inl ⟨_, List.mem_of_getElem? (i := 1) rfl, rfl⟩⟩
  · omega

/-! ## Every deadlock is a knot -/

/-- Who holds a channel and does not wait can go on. -/
theorem Holds.serving {s : Manager μ} (h : (machine μ).Reach RepliesFirst s)
    (hinit : s.runtimes ++ s.main.starting = []) {j : Nat} {c : ChannelId}
    (hheld : s.Holds j c) (hfree : s.blocked (.worker j) = false) :
    ∃ b : ManagerAction μ, s.Serves b ∧ RepliesFirst s b ∧ s.step b ≠ none := by
  obtain ⟨a, ha, hlive, hheld⟩ := hheld
  have hpc : a.pc ≠ .parked := by
    intro hparked
    have hin := (owned h).parked j a.pc (by simp [pcs, ha])
    rw [hinit] at hin
    exact absurd (hin.mp hparked) (by simp)
  have hbusy : a.pc = .recv → a.mailbox ≠ [] := by
    intro hrecv
    rcases hheld with ⟨l, hl, -⟩ | hc
    · exact List.ne_nil_of_mem hl
    · have hnone := released h j a ha hlive (by simp [hrecv])
      rw [hc] at hnone
      simp at hnone
  obtain ⟨b, hserves, hok, hstep⟩ : ∃ b : ManagerAction μ,
      s.Serves b ∧ Descends (fun _ => 0) s b ∧ s.step b ≠ none :=
    exists_serving ha hpc hlive hfree hbusy
  exact ⟨b, hserves, repliesFirst_of_descends s b hok, hstep⟩

/-- Nothing can serve the callers. -/
def Unserved (s : Manager μ) : Prop :=
  ∀ b : ManagerAction μ, s.Serves b → RepliesFirst s b → s.step b = none

/-- When nothing can serve the callers, each of them waits for an actor that
waits. -/
theorem Unserved.waits {s : Manager μ} (h : (machine μ).Reach RepliesFirst s)
    (hinit : s.runtimes ++ s.main.starting = []) (hunserved : s.Unserved)
    {t : ThreadId} {c : ChannelId} (hc : (t, c) ∈ s.callers) :
    ∃ j, s.blocked (.worker j) = true ∧ s.Awaits t c j := by
  by_cases hsettled : s.Settled c
  · exact absurd (hunserved (.fastReturn t) trivial trivial)
      (step_fastReturn (asking h) hc hsettled)
  · simp only [Settled, not_or, not_not, Bool.not_eq_false] at hsettled
    obtain ⟨hempty, hlive⟩ := hsettled
    obtain ⟨j, hheld⟩ := (s.replySenderLive_iff c).mp hlive
    refine ⟨j, ?_, hc, hempty, hheld⟩
    by_contra hfree
    obtain ⟨b, hserves, hok, hstep⟩ := hheld.serving h hinit (by simpa using hfree)
    exact hstep (hunserved b hserves hok)

/-- A deadlock is a knot of all actors that wait. -/
theorem Unserved.knotted {s : Manager μ} (h : (machine μ).Reach RepliesFirst s)
    (hinit : s.runtimes ++ s.main.starting = []) (hunserved : s.Unserved) :
    s.Knotted fun k => s.blocked (.worker k) = true := by
  intro k hk
  rw [blocked_iff, List.mem_map] at hk
  obtain ⟨⟨t, c⟩, hc, rfl⟩ := hk
  exact ⟨c, hunserved.waits h hinit hc⟩

/-- When handlers reply before they return, and at some time after `init` nothing
can serve the callers that there are, each of them waits for ever for an actor
that waits for ever. -/
theorem deadlock_for_ever {tr : List (Manager μ × ManagerAction μ)} {s : Manager μ}
    (h : (machine μ).Run RepliesFirst tr s) {y : Manager μ × ManagerAction μ}
    (hy : y ∈ tr) (hinit : y.1.runtimes ++ y.1.main.starting = [])
    (hunserved : y.1.Unserved) :
    ∀ p ∈ y.1.callers, ∃ j, s.Awaits p.1 p.2 j ∧ s.blocked (.worker j) = true := by
  obtain ⟨i, hi⟩ := List.mem_iff_getElem?.mp hy
  have hreach := (h.take hi).reach
  have hfrozen := frozen h hy (hunserved.knotted hreach hinit)
  rintro ⟨t, c⟩ hc
  obtain ⟨j, hj, hwaits⟩ := hunserved.waits hreach hinit hc
  exact ⟨j, hfrozen.waits t c j hj hwaits, hfrozen.knot.blocked hj⟩

/-- The two actors that call each other, and nobody else. -/
theorem deadlock_for_ever_two : ∃ tr, ∃ y ∈ tr, ∃ s : Manager Nat,
    (machine Nat).Run RepliesFirst tr s ∧ y.1.callers.length = 2 ∧
    ∀ p ∈ y.1.callers, ∃ j, s.Awaits p.1 p.2 j ∧ s.blocked (.worker j) = true := by
  have hrun := run_after RepliesFirst callEachOther (by decide)
  refine ⟨_, _, List.mem_of_getElem? (i := 12) rfl, _, hrun, rfl,
    deadlock_for_ever hrun (List.mem_of_getElem? (i := 12) rfl) rfl ?_⟩
  intro b hserves _
  cases b with
  | actor k => rcases k with _ | _ | k <;> rfl
  | codeReturn k => rcases k with _ | _ | k <;> rfl
  | fastReturn t =>
    rcases t with _ | (_ | _ | k) | k <;> rfl
  | reply k msg => rcases k with _ | _ | k <;> rfl
  | _ => exact hserves.elim

end Manager

end Actors
