import Actors.Remote.Conversation

/-!
# Two actors in two processes

`Actors.Remote.Conversation` is about two actors that may say anything.  Here each of
the two has a state, and what it says is what its handler makes of this state and of
the message.  A handler may answer in the two ways that the source has: with `ctx.reply`,
or with a `send` through a reference that the actor keeps.

A `Dialogue` is the program without the processes, and `Dialogue.course` applies the
two handlers in turn.  `Talk` is the program in the exchange of the two processes, with
their threads, queues, frames and registries.  It refines the course:

* `playing`: message number `k` that is said is message number `k` of the course, and
  the actors are in the states that they have there;
* `dialogue`: nothing is left over when the two processes are at rest, and they come
  to rest after three steps for each message and one more.

The last section is the example `remote_ping_pong`.
-/

namespace Actors

open Concur

variable {τ : Type} {V : τ → Type} {σ : Side → Type}

/-- What a handler does with a message: nothing, a `ctx.reply`, or a `send` through a
reference, with `ctx.self_ref()` as the sender. -/
inductive Answer (V : τ → Type) where
  | silent
  | reply (msg : Message (UserMessage V))
  | send (target : RemoteActorRef) (msg : Message (UserMessage V))

/-- The message that is said. -/
def Answer.message : Answer V → Option (Message (UserMessage V))
  | .silent => none
  | .reply msg | .send _ msg => some msg

/-- Two actors that talk to each other: the first message of `a`, their states, and
their handlers. -/
structure Dialogue (σ : Side → Type) (V : τ → Type) where
  first : Message (UserMessage V)
  states : ∀ s, σ s
  handle : ∀ s, σ s → Message (UserMessage V) → σ s × Answer V

/-- The two processes, and the states of their actors. -/
structure Talk (σ : Side → Type) (V : τ → Type) where
  exchange : Exchange V
  states : ∀ s, σ s

/-- The labels of the machine: `a` says the first message, or a thread of process `s`
goes on. -/
inductive Beat where
  | start
  | transmit (s : Side)
  | receive (s : Side)
  | handle (s : Side)
  deriving DecidableEq, Repr

namespace Dialogue

/-- The states of the two actors when `k` messages have been handled, and message
number `k`. -/
def course (d : Dialogue σ V) : Nat → (∀ s, σ s) × Option (Message (UserMessage V))
  | 0 => (d.states, some d.first)
  | k + 1 =>
    let (states, line) := d.course k
    match line with
    | none => (states, none)
    | some msg =>
      let (state, answer) := d.handle (listener k) (states (listener k)) msg
      (Function.update states (listener k) state, answer.message)

/-- Message number `k`. -/
def line (d : Dialogue σ V) (k : Nat) : Option (Message (UserMessage V)) := (d.course k).2

/-- The states of the two actors when `k` messages have been handled. -/
def statesAfter (d : Dialogue σ V) (k : Nat) : ∀ s, σ s := (d.course k).1

/-- What the handler does with message number `k`. -/
def handled (d : Dialogue σ V) (k : Nat) (msg : Message (UserMessage V)) :
    σ (listener k) × Answer V :=
  d.handle (listener k) (d.statesAfter k (listener k)) msg

variable [DecidableEq τ]

/-- One step.  The handler runs in the step in which the thread of its actor takes the
envelope. -/
def next (d : Dialogue σ V) (c : Setting V) (g : Talk σ V) : Beat → Option (Talk σ V)
  | .start => (g.exchange.next c (.first d.first)).map fun e => { g with exchange := e }
  | .transmit s => (g.exchange.next c (.transmit s)).map fun e => { g with exchange := e }
  | .receive s => (g.exchange.next c (.receive s)).map fun e => { g with exchange := e }
  | .handle s =>
    if g.exchange.panicked then none
    else match (g.exchange.queues s).mailbox with
    | [] => none
    | envelope :: rest =>
      let (state, answer) := d.handle s (g.states s) envelope.msg
      let states := Function.update g.states s state
      let e := g.exchange.taken s envelope rest
      match answer with
      | .silent => some { exchange := e, states }
      | .reply msg =>
        (g.exchange.next c (.answer s msg)).map fun e => { exchange := e, states }
      | .send target msg =>
        let self := (e.parties s).context.selfRef
        some { exchange := e.say c s (.remoteRef target) msg self, states }

/-- The two processes before anything is said. -/
def start (d : Dialogue σ V) (parties : Side → Party τ) : Talk σ V :=
  { exchange := .start parties, states := d.states }

/-- The machine of the program in two given processes. -/
def machine (d : Dialogue σ V) (c : Setting V) (parties : Side → Party τ) :
    Machine (Talk σ V) Beat :=
  .ofNext (· = d.start parties) (d.next c)

/-- No thread of the two processes has anything to do. -/
def AtRest (d : Dialogue σ V) (c : Setting V) (g : Talk σ V) : Prop :=
  ∀ beat, d.next c g beat = none

end Dialogue

namespace Exchange

variable [DecidableEq τ] {c : Setting V} {e e' : Exchange V}

omit [DecidableEq τ] in
@[simp] theorem said_apply (e : Exchange V) (s : Side) (effect : Effect V) :
    (e.apply s effect).said = e.said := by
  unfold apply
  cases effect with
  | posted tx envelope => dsimp only; split <;> rfl
  | queued tx request => dsimp only; split <;> rfl
  | foreign target msg => rfl

omit [DecidableEq τ] in
theorem said_foldl_apply (e : Exchange V) (s : Side) (effects : List (Effect V)) :
    (effects.foldl (·.apply s ·) e).said = e.said := by
  induction effects generalizing e with
  | nil => rfl
  | cons effect effects ih => rw [List.foldl_cons, ih, said_apply]

omit [DecidableEq τ] in
@[simp] theorem said_carry (c : Setting V) (e : Exchange V) (s : Side)
    (request : SendRequest) : (e.carry c s request).said = e.said := by
  unfold carry
  split <;> rfl

@[simp] theorem said_say (c : Setting V) (e : Exchange V) (s : Side)
    (target : ActorRef) (msg : Message (UserMessage V)) (sender : Option ActorRef) :
    (e.say c s target msg sender).said = e.said ++ [msg] := by
  unfold say
  dsimp only
  split
  · rw [said_apply]
    rfl
  · rfl

/-- What is said in a step. -/
theorem said_next {hop : Hop V} (h : e.next c hop = some e') :
    e'.said = e.said ++ hop.says.toList := by
  unfold next at h
  split at h
  · simp at h
  · cases hop with
    | first msg =>
      simp only [Option.ite_none_right_eq_some, Option.some.injEq] at h
      rw [← h.2, said_say]
      rfl
    | transmit s =>
      dsimp only at h
      split at h
      · simp at h
      · rw [Option.some.injEq] at h
        rw [← h, said_carry]
        simp [setQueues, Hop.says]
    | receive s =>
      dsimp only at h
      split at h
      · simp at h
      · split at h
        · rw [Option.some.injEq] at h
          rw [← h, said_foldl_apply]
          simp [setQueues, setParty, Hop.says]
        · rw [Option.some.injEq] at h
          rw [← h]
          simp [setQueues, setParty, Hop.says]
    | answer s msg =>
      dsimp only at h
      split at h
      · simp at h
      · split at h <;> rw [Option.some.injEq] at h <;> rw [← h]
        · rw [said_say]
          rfl
        all_goals simp [setQueues, setParty, Hop.says]

/-- Only the first message can be said when nothing was said before. -/
theorem said_of_first {msg : Message (UserMessage V)}
    (h : e.next c (.first msg) = some e') : e.said = [] := by
  unfold next at h
  split at h
  · simp at h
  · simp only [Option.ite_none_right_eq_some] at h
    exact List.isEmpty_iff.mp h.1

end Exchange

namespace Dialogue

section Course

variable {d : Dialogue σ V}

/-- After a message its handler has run, and what it said is the next one. -/
theorem course_succ {k : Nat} {msg : Message (UserMessage V)} (h : d.line k = some msg) :
    d.statesAfter (k + 1) =
        Function.update (d.statesAfter k) (listener k) (d.handled k msg).1 ∧
      d.line (k + 1) = (d.handled k msg).2.message := by
  have hline : (d.course k).2 = some msg := h
  simp only [statesAfter, line, handled, course, hline, and_self]

/-- After the last message nothing changes. -/
theorem course_succ_of_none {k : Nat} (h : d.line k = none) :
    d.statesAfter (k + 1) = d.statesAfter k ∧ d.line (k + 1) = none := by
  have hline : (d.course k).2 = none := h
  simp only [statesAfter, line, course, hline, and_self]

/-- What was said are the first messages of the course. -/
def Kept (d : Dialogue σ V) (e : Exchange V) : Prop :=
  ∀ k < e.said.length, e.said[k]? = d.line k

/-- All that was said has been delivered and handled, and nothing is said next. -/
def Over (d : Dialogue σ V) (e : Exchange V) : Prop :=
  e.heard.length = e.said.length ∧ d.line e.said.length = none ∧
    ∀ s, (e.queues s).mailbox = []

/-- What is said next is the next message of the course. -/
theorem Kept.snoc {e e' : Exchange V} (h : d.Kept e) {msg : Message (UserMessage V)}
    (hsaid : e'.said = e.said ++ [msg]) (hline : d.line e.said.length = some msg) :
    d.Kept e' := by
  intro k hk
  rw [hsaid, List.length_append, List.length_singleton] at hk
  rw [hsaid]
  rcases Nat.lt_succ_iff_lt_or_eq.mp hk with hlt | rfl
  · rw [List.getElem?_append_left hlt, h k hlt]
  · rw [List.getElem?_concat_length, hline]

/-- The last message that was said. -/
theorem Kept.line_eq {e : Exchange V} (h : d.Kept e) {said : List (Message (UserMessage V))}
    {msg : Message (UserMessage V)} (hsaid : e.said = said ++ [msg]) :
    d.line said.length = some msg := by
  rw [← h said.length (by simp [hsaid]), hsaid, List.getElem?_concat_length]

end Course

variable [DecidableEq τ] {c : Setting V} {init : Side → Party τ}
  {regs : Side → List (RemoteType τ × String)} {d : Dialogue σ V}

variable (c init regs) in
/-- Where the talk stands: a message is on its way, or the last one was handled and
nothing was said to it. -/
inductive Stands (d : Dialogue σ V) (g : Talk σ V) (steps : Nat) : Prop
  | talking (hbetween : Between c init regs g.exchange)
      (hstates : g.states = d.statesAfter (g.exchange.said.length - 1))
      (hsteps : steps = g.exchange.hops)
  | ended (hturn : Turn c init regs g.exchange)
      (hstates : g.states = d.statesAfter g.exchange.said.length)
      (hover : d.line g.exchange.said.length = none)
      (hsteps : steps = g.exchange.hops + 1)

variable (c init regs) in
/-- Every message can be sent, and a reference that a handler sends through is one of
its process, and leads to the other actor. -/
structure Speakable (d : Dialogue σ V) : Prop where
  sendable : ∀ k, ∀ msg ∈ d.line k, Sendable c init regs msg
  leads : ∀ k msg target msg', d.line k = some msg →
    (d.handled k msg).2 = .send target msg' →
    target.name = (init (speaker k)).actor.name ∧
      target.zmqSender = (init (listener k)).zmqSender ∧
      c.reaches target.endpoint = some (speaker k)

/-! ## One step -/

/-- A thread that only carries the message. -/
theorem Stands.carry {g : Talk σ V} {steps : Nat} (hkept : d.Kept g.exchange)
    (h : Stands c init regs d g steps) {hop : Hop V} {e' : Exchange V}
    (hnext : g.exchange.next c hop = some e') (hsilent : hop.says = none)
    (hkeeps : Between c init regs g.exchange → Between c init regs e')
    (hidle : Turn c init regs g.exchange → g.exchange.next c hop = none) :
    d.Kept e' ∧ Stands c init regs d { g with exchange := e' } (steps + 1) := by
  have hsaid := Exchange.said_next hnext
  rw [hsilent, Option.toList_none, List.append_nil] at hsaid
  cases h with
  | ended hturn => simp [hidle hturn] at hnext
  | talking hbetween hstates hsteps =>
    refine ⟨?_, .talking (hkeeps hbetween) ?_ ?_⟩
    · rw [Kept, hsaid]
      exact hkept
    · rw [hstates, hsaid]
    · rw [hsteps, Exchange.hops_next hnext]

/-- The handler of the last message runs. -/
theorem Stands.handle (h : Ready c init regs) (hspeak : Speakable c init regs d)
    {g g' : Talk σ V} {steps : Nat} (hkept : d.Kept g.exchange)
    (hstands : Stands c init regs d g steps) {s : Side}
    (hnext : d.next c g (.handle s) = some g') :
    d.Kept g'.exchange ∧ Stands c init regs d g' (steps + 1) := by
  cases hstands with
  | ended hturn => simp [next, hturn.standing.calm, hturn.queues] at hnext
  | talking hbetween hstates hsteps =>
    simp only [next, hbetween.standing.calm, Bool.false_eq_true, if_false] at hnext
    split at hnext
    · simp at hnext
    · rename_i envelope rest hmailbox
      obtain ⟨said, msg, hsaid, rfl, rfl, rfl, hturn⟩ := hbetween.taken hmailbox
      have hlength : g.exchange.said.length = said.length + 1 := by simp [hsaid]
      obtain ⟨hafter, hline⟩ := course_succ (hkept.line_eq hsaid)
      rw [hlength, Nat.add_sub_cancel] at hstates
      rw [handled, ← hstates] at hafter hline
      -- What the handler says is the next message.
      have hmsg : ∀ msg', d.line (said.length + 1) = some msg' →
          Sendable c init regs msg' := fun msg' hmsg' => hspeak.sendable _ msg' hmsg'
      have hsnoc : ∀ {e' : Exchange V} {msg' : Message (UserMessage V)},
          e'.said = g.exchange.said ++ [msg'] → d.line (said.length + 1) = some msg' →
          d.Kept e' := fun hsaid' hline' => hkept.snoc hsaid' (hlength ▸ hline')
      split at hnext
      · rename_i hanswer
        replace hline := hline.trans (congrArg Answer.message hanswer)
        obtain rfl := Option.some.inj hnext
        refine ⟨hkept, .ended hturn ?_ ?_ ?_⟩
        · exact hafter.symm.trans (congrArg d.statesAfter hlength.symm)
        · exact (congrArg d.line hlength).trans hline
        · rw [hsteps]
          rfl
      · rename_i msg' hanswer
        replace hline := hline.trans (congrArg Answer.message hanswer)
        obtain ⟨e', hnext', rfl⟩ := Option.map_eq_some_iff.mp hnext
        have hsaid' := Exchange.said_next hnext'
        refine ⟨hsnoc hsaid' hline, .talking (hbetween.answer h (hmsg _ hline) hnext') ?_ ?_⟩
        · refine hafter.symm.trans (congrArg d.statesAfter ?_)
          rw [hsaid', List.length_append, hlength]
          rfl
        · rw [hsteps, Exchange.hops_next hnext']
      · rename_i target msg' hanswer
        obtain ⟨hname, hsender, hreaches⟩ :=
          hspeak.leads _ msg target msg' (hkept.line_eq hsaid) (by
            rw [handled, ← hstates]
            exact hanswer)
        replace hline := hline.trans (congrArg Answer.message hanswer)
        obtain rfl := Option.some.inj hnext
        have hself := (hturn.standing.parties (listener said.length)).selfRef
        rw [h.selfRef] at hself
        have hnow : speaker g.exchange.said.length = listener said.length := by
          rw [hlength, speaker_succ]
        rw [hself]
        refine ⟨hsnoc (Exchange.said_say ..) hline, .talking ?_ ?_ ?_⟩
        · refine hturn.say h hnow (hmsg _ hline) ?_ hsender ?_
          · rw [hname, Side.other_other]
          · rw [hreaches, Side.other_other]
        · refine hafter.symm.trans (congrArg d.statesAfter ?_)
          rw [Exchange.said_say, List.length_append]
          exact hlength.symm
        · rw [hsteps, Exchange.hops_say]
          rfl

/-- One step of one of the threads. -/
theorem Stands.move (h : Ready c init regs) (hspeak : Speakable c init regs d)
    {g g' : Talk σ V} {steps : Nat} (hkept : d.Kept g.exchange)
    (hstands : Stands c init regs d g steps) {beat : Beat}
    (hnext : d.next c g beat = some g') :
    d.Kept g'.exchange ∧ Stands c init regs d g' (steps + 1) := by
  cases beat with
  | handle s => exact hstands.handle h hspeak hkept hnext
  | transmit s =>
    obtain ⟨e', hnext', rfl⟩ := Option.map_eq_some_iff.mp hnext
    refine hstands.carry hkept hnext' rfl (·.transmit hnext') fun hturn => ?_
    simp [Exchange.next, hturn.standing.calm, hturn.queues]
  | receive s =>
    obtain ⟨e', hnext', rfl⟩ := Option.map_eq_some_iff.mp hnext
    refine hstands.carry hkept hnext' rfl (·.receive h hnext') fun hturn => ?_
    simp [Exchange.next, hturn.standing.calm, hturn.queues]
  | start =>
    obtain ⟨e', hnext', rfl⟩ := Option.map_eq_some_iff.mp hnext
    have hnone := Exchange.said_of_first hnext'
    have hsaid' := Exchange.said_next hnext'
    cases hstands with
    | ended hturn hstates hover =>
      rw [hnone] at hover
      exact absurd hover (Option.some_ne_none d.first)
    | talking hbetween hstates hsteps =>
      have hfirst := hbetween.first h (hspeak.sendable 0 d.first rfl) hnext'
      refine ⟨hkept.snoc hsaid' (by rw [hnone]; rfl), .talking hfirst ?_ ?_⟩
      · rw [hstates, hsaid', hnone]
        rfl
      · rw [hsteps, Exchange.hops_next hnext']

/-! ## Every run -/

/-- In every run, what was said is the course of the dialogue, and the actors are in the
states of the course. -/
theorem playing (h : Ready c init regs) (hspeak : Speakable c init regs d)
    {tr : List (Talk σ V × Beat)} {g : Talk σ V}
    (hrun : (d.machine c init).Run (fun _ _ => True) tr g) :
    d.Kept g.exchange ∧ Stands c init regs d g tr.length := by
  refine hrun.invariant (I := fun tr g =>
    d.Kept g.exchange ∧ Stands c init regs d g tr.length) ?_ ?_
  · rintro g rfl
    exact ⟨by simp [Kept, Dialogue.start, Exchange.start], .talking between_start rfl rfl⟩
  · rintro tr g beat g' - ⟨hkept, hstands⟩ - hnext
    rw [List.length_append, List.length_singleton]
    exact hstands.move h hspeak hkept hnext

/-- A thread that has an envelope can hand it to its actor. -/
theorem isSome_handle {g : Talk σ V} (hcalm : g.exchange.panicked = false) {s : Side}
    {msg : Message (UserMessage V)} {target : ActorRef}
    {rest : List (Envelope (UserMessage V))}
    (hmailbox : (g.exchange.queues s).mailbox = .new msg (some target) :: rest) :
    (d.next c g (.handle s)).isSome := by
  simp only [next, hcalm, Bool.false_eq_true, if_false, hmailbox]
  split
  · rfl
  · rw [Exchange.next_answer hcalm hmailbox]
    rfl
  · rfl

/-- A dialogue in which a message is on its way is not over. -/
theorem not_over_of_between {e : Exchange V} (h : Between c init regs e) :
    ¬ d.Over e := by
  rintro ⟨hheard, hover, hmailbox⟩
  cases h.inFlight with
  | silent hsaid =>
    rw [hsaid] at hover
    exact Option.some_ne_none d.first hover
  | queued said msg request hsaid hcarried hheard'
  | carried said msg data hsaid hcarried hheard' => simp [hsaid, hheard'] at hheard
  | delivered said msg hsaid hcarried hheard' hqueues =>
    have hnil := hmailbox (listener said.length)
    simp [hqueues] at hnil

/-- The two processes are at rest when the last message has been handled. -/
theorem Stands.atRest_iff {g : Talk σ V} {steps : Nat}
    (hstands : Stands c init regs d g steps) : d.AtRest c g ↔ d.Over g.exchange := by
  cases hstands with
  | ended hturn hstates hover hsteps =>
    refine ⟨fun _ => ⟨hturn.heard, hover, fun s => by rw [hturn.queues]⟩, fun _ beat => ?_⟩
    have hcalm := hturn.standing.calm
    have hsaid : g.exchange.said ≠ [] := fun hnil => by
      rw [hnil] at hover
      exact Option.some_ne_none d.first hover
    cases beat with
    | start => simp [next, Exchange.next, hcalm, hsaid]
    | transmit s | receive s | handle s => simp [next, Exchange.next, hcalm, hturn.queues]
  | talking hbetween hstates hsteps =>
    have hcalm := hbetween.standing.calm
    refine ⟨fun hrest => ?_, fun hover => absurd hover (not_over_of_between hbetween)⟩
    -- The thread that has the message goes on.
    cases hbetween.inFlight with
    | silent hsaid =>
      have hnone := hrest .start
      simp [next, Exchange.next, hcalm, hsaid] at hnone
    | queued said msg request hsaid hcarried hheard hreaches hdata hqueues =>
      have hnone := hrest (.transmit (speaker said.length))
      simp [next, Exchange.next, hcalm, hqueues] at hnone
    | carried said msg data hsaid hcarried hheard hdata hqueues =>
      have hnone := hrest (.receive (listener said.length))
      simp only [next, Exchange.next, hcalm, hqueues, only_self, Bool.false_eq_true,
        if_false, Option.map_eq_none_iff] at hnone
      split at hnone <;> simp at hnone
    | delivered said msg hsaid hcarried hheard hqueues =>
      have hnone := hrest (.handle (listener said.length))
      have hsome := isSome_handle (d := d) (c := c) hcalm (s := listener said.length)
        (by rw [hqueues, only_self])
      rw [hnone] at hsome
      simp at hsome

/-- Three steps for each message that was said, and one for the last handler. -/
theorem Stands.steps_le_said {g : Talk σ V} {steps : Nat}
    (hstands : Stands c init regs d g steps) :
    steps ≤ 3 * g.exchange.said.length + 1 := by
  cases hstands with
  | ended hturn hstates hover hsteps =>
    have hcarried := hturn.carried
    have hheard := hturn.heard
    simp only [Exchange.hops] at hsteps
    omega
  | talking hbetween hstates hsteps =>
    simp only [Exchange.hops] at hsteps
    cases hbetween.inFlight <;> simp_all <;> omega

/-- The actors end in the states that the course gives them. -/
theorem Stands.states_eq {g : Talk σ V} {steps : Nat}
    (hstands : Stands c init regs d g steps) (hover : d.Over g.exchange) :
    g.states = d.statesAfter g.exchange.said.length := by
  cases hstands with
  | ended hturn hstates => exact hstates
  | talking hbetween => exact absurd hover (not_over_of_between hbetween)

/-- As long as a message is on its way, its handler has not run. -/
theorem Stands.states_of_busy {g : Talk σ V} {steps : Nat}
    (hstands : Stands c init regs d g steps) (hbusy : ¬ d.Over g.exchange) :
    g.states = d.statesAfter (g.exchange.said.length - 1) := by
  cases hstands with
  | talking hbetween hstates => exact hstates
  | ended hturn hstates hover =>
    exact absurd ⟨hturn.heard, hover, fun s => by rw [hturn.queues]⟩ hbusy

/-- Two actors in two processes say message after message of the course that their
handlers determine, whatever the threads of the processes do in between: each message
that is said is the next one, it is delivered once and to the other actor, and the two
processes are at rest exactly when all messages have been handled and nothing is to be
said.  Then the actors are in the states that the course gives them.  They come to rest
after three steps for each message and one more. -/
theorem dialogue (h : Ready c init regs) (hspeak : Speakable c init regs d)
    {tr : List (Talk σ V × Beat)} {g : Talk σ V}
    (hrun : (d.machine c init).Run (fun _ _ => True) tr g) :
    (∀ k < g.exchange.said.length, g.exchange.said[k]? = d.line k) ∧
      Stays c init g.exchange ∧
      (d.AtRest c g ↔ d.Over g.exchange) ∧
      (d.AtRest c g → g.states = d.statesAfter g.exchange.said.length) ∧
      tr.length ≤ 3 * g.exchange.said.length + 1 := by
  obtain ⟨hkept, hstands⟩ := playing h hspeak hrun
  have hiff := hstands.atRest_iff
  refine ⟨hkept, ?_, hiff, fun hrest => hstands.states_eq (hiff.mp hrest),
    hstands.steps_le_said⟩
  cases hstands with
  | talking hbetween => exact hbetween.stays h
  | ended hturn => exact hturn.standing.stays h (Nat.le_succ_of_le hturn.heard.ge)

/-- A dialogue that ends comes to rest. -/
theorem exists_rest (h : Ready c init regs) (hspeak : Speakable c init regs d) {n : Nat}
    (hover : d.line n = none) :
    ∃ tr g, (d.machine c init).Run (fun _ _ => True) tr g ∧ d.AtRest c g := by
  -- As long as a run has not come to rest, there is a longer one.
  have hlong : ∀ m, ∃ tr g, (d.machine c init).Run (fun _ _ => True) tr g ∧
      (d.AtRest c g ∨ tr.length = m) := by
    intro m
    induction m with
    | zero => exact ⟨[], _, .start rfl, Or.inr rfl⟩
    | succ m ih =>
      obtain ⟨tr, g, hrun, hrest⟩ := ih
      by_cases hbusy : d.AtRest c g
      · exact ⟨tr, g, hrun, Or.inl hbusy⟩
      · have hlength := hrest.resolve_left hbusy
        simp only [AtRest, not_forall] at hbusy
        obtain ⟨beat, hnext⟩ := hbusy
        obtain ⟨g', hnext⟩ := Option.ne_none_iff_exists'.mp hnext
        exact ⟨_, g', .step hrun trivial hnext, Or.inr (by simp [hlength])⟩
  obtain ⟨tr, g, hrun, hrest⟩ := hlong (3 * n + 2)
  refine ⟨tr, g, hrun, hrest.resolve_right fun hlength => ?_⟩
  obtain ⟨hkept, hstands⟩ := playing h hspeak hrun
  have hsteps := hstands.steps_le_said
  have hline := hkept n (by omega)
  rw [hover, List.getElem?_eq_none_iff] at hline
  omega

end Dialogue

/-! ## `remote_ping_pong` -/

namespace RemotePingPong

/-- The message types of the example. -/
inductive Kind where
  | ping
  | pong
  deriving DecidableEq, Repr

/-- Both have one field, `count`. -/
abbrev Count : Kind → Type := fun _ => Int32

/-- `Ping`. -/
def ping (count : Int32) : Message (UserMessage Count) := .user ⟨.ping, count⟩

/-- `Pong`. -/
def pong (count : Int32) : Message (UserMessage Count) := .user ⟨.pong, count⟩

/-- `PingActor`. -/
structure PingActor where
  pongRef : RemoteActorRef
  /-- `manager_handle.terminate()` was called. -/
  terminated : Bool
  deriving DecidableEq, Repr

/-- The message that `PingActor::on_start` sends through `pong_ref`. -/
def onStart : Message (UserMessage Count) := ping 1

/-- `PingActor::on_pong`.  The source has `5` for `rounds`. -/
def onPong (rounds : Int32) (self : PingActor) (count : Int32) :
    PingActor × Answer Count :=
  if rounds ≤ count then ({ self with terminated := true }, .silent)
  else (self, .send self.pongRef (ping (count + 1)))

/-- `PongActor::on_ping`. -/
def onPing (count : Int32) : Answer Count := .reply (pong count)

/-- The states of the two actors.  `PongActor` has no fields. -/
abbrev State : Side → Type
  | .a => PingActor
  | .b => Unit

/-- The two actors: `a` is `PingActor`, and `b` is `PongActor`. -/
def game (pongRef : RemoteActorRef) (rounds : Int32) : Dialogue State Count where
  first := onStart
  states
    | .a => { pongRef, terminated := false }
    | .b => ()
  handle
    | .a, self, .user ⟨.pong, count⟩ => onPong rounds self count
    | .b, self, .user ⟨.ping, count⟩ => (self, onPing count)
    | _, self, _ => (self, .silent)

/-- The calls of `register_remote_message`, the same in both processes. -/
def registrations : List (RemoteType Kind × String) :=
  [(.user .ping, "Ping"), (.user .pong, "Pong")]

/-- Message number `k`. -/
def stroke (k : Nat) : Message (UserMessage Count) :=
  if k % 2 = 0 then ping (.ofNat (k / 2 + 1)) else pong (.ofNat (k / 2 + 1))

/-- The messages of the game, in order. -/
def strokes (rounds : Nat) : List (Message (UserMessage Count)) :=
  (List.range (2 * rounds)).map stroke

/-- The two actors when `k` messages have been handled. -/
def actorsAfter (pongRef : RemoteActorRef) (rounds k : Nat) : ∀ s, State s
  | .a => { pongRef, terminated := decide (2 * rounds ≤ k) }
  | .b => ()

/-- What the handler of message number `k` does: a `Ping` is answered with the `Pong` of
the same number, and a `Pong` with the next `Ping`. -/
def answerTo (pongRef : RemoteActorRef) (rounds k : Nat) : Answer Count :=
  if k % 2 = 0 then .reply (stroke (k + 1))
  else if 2 * rounds ≤ k + 1 then .silent
  else .send pongRef (stroke (k + 1))

section Course

variable {pongRef : RemoteActorRef} {rounds k : Nat}

theorem strokes_of_lt (hk : k < 2 * rounds) : (strokes rounds)[k]? = some (stroke k) := by
  simp [strokes, hk]

theorem strokes_eq_none : (strokes rounds)[k]? = none ↔ 2 * rounds ≤ k := by
  simp [strokes]

/-- The handler of message number `k` gives this answer. -/
theorem handle_stroke (hlt : rounds < 2 ^ 31) (hk : k < 2 * rounds) :
    (game pongRef (.ofNat rounds)).handle (listener k)
        (actorsAfter pongRef rounds k (listener k)) (stroke k) =
      (actorsAfter pongRef rounds (k + 1) (listener k), answerTo pongRef rounds k) := by
  rcases Nat.mod_two_eq_zero_or_one k with heven | hodd
  · have hlistener : listener k = .b := by simp [listener, speaker, heven, Side.other]
    have hsucc : (k + 1) % 2 = 1 := by omega
    have hhalf : (k + 1) / 2 = k / 2 := by omega
    rw [hlistener]
    simp [stroke, answerTo, heven, hsucc, hhalf, game, ping, onPing, actorsAfter]
  · have hlistener : listener k = .a := by simp [listener, speaker, hodd, Side.other]
    have hsucc : (k + 1) % 2 = 0 := by omega
    have hhalf : (k + 1) / 2 = k / 2 + 1 := by omega
    have hstroke : stroke k = pong (.ofNat (k / 2 + 1)) := by simp [stroke, hodd]
    have hstroke' : stroke (k + 1) = ping (.ofNat (k / 2 + 1 + 1)) := by
      simp only [stroke, hsucc, if_true, hhalf]
    -- The count is below `2 ^ 31`, so the `i32`s compare as their numbers do.
    have hle : Int32.ofNat rounds ≤ Int32.ofNat (k / 2 + 1) ↔ 2 * rounds ≤ k + 1 := by
      rw [Int32.ofNat_le_iff_le hlt (by omega)]
      omega
    have hodd' : ¬ k % 2 = 0 := by omega
    rw [hlistener, hstroke, answerTo, if_neg hodd', hstroke', Int32.ofNat_add (k / 2 + 1) 1]
    show onPong (.ofNat rounds) _ (.ofNat (k / 2 + 1)) = _
    simp only [onPong, hle]
    by_cases hmore : 2 * rounds ≤ k + 1
    · simp [hmore, actorsAfter]
    · have hmore' : ¬ 2 * rounds ≤ k := by omega
      simp [hmore, hmore', actorsAfter]

theorem message_answerTo (hk : k < 2 * rounds) :
    (answerTo pongRef rounds k).message = (strokes rounds)[k + 1]? := by
  rw [answerTo]
  split
  · rw [strokes_of_lt (by omega)]
    rfl
  · split
    · rename_i hmore
      rw [strokes_eq_none.mpr hmore]
      rfl
    · rename_i hmore
      rw [strokes_of_lt (Nat.lt_of_not_le hmore)]
      rfl

/-- The handler of a message changes nothing of the other actor. -/
theorem actorsAfter_succ (hk : k < 2 * rounds) :
    ∀ s ≠ listener k, actorsAfter pongRef rounds (k + 1) s = actorsAfter pongRef rounds k s
  | .b, _ => rfl
  | .a, hs => by
    have heven : k % 2 = 0 := by
      by_contra hodd
      exact hs (by simp [listener, speaker, hodd, Side.other])
    have hmore : ¬ 2 * rounds ≤ k ∧ ¬ 2 * rounds ≤ k + 1 := by omega
    simp [actorsAfter, hmore]

/-- The course of the game. -/
theorem course_eq (hlt : rounds < 2 ^ 31) (hpos : 0 < rounds) (k : Nat) :
    (game pongRef (.ofNat rounds)).statesAfter k = actorsAfter pongRef rounds k ∧
      (game pongRef (.ofNat rounds)).line k = (strokes rounds)[k]? := by
  induction k with
  | zero =>
    refine ⟨?_, (strokes_of_lt (Nat.mul_pos Nat.two_pos hpos)).symm⟩
    funext s
    cases s with
    | a =>
      have hmore : ¬ 2 * rounds ≤ 0 := by omega
      rw [actorsAfter, decide_eq_false hmore]
      rfl
    | b => rfl
  | succ k ih =>
    obtain ⟨hstates, hline⟩ := ih
    by_cases hk : k < 2 * rounds
    · obtain ⟨hafter, hnext⟩ := Dialogue.course_succ (hline.trans (strokes_of_lt hk))
      rw [Dialogue.handled, hstates, handle_stroke hlt hk] at hafter hnext
      refine ⟨hafter.trans ?_, hnext.trans (message_answerTo hk)⟩
      exact Function.update_eq_iff.mpr ⟨rfl, fun s hs => (actorsAfter_succ hk s hs).symm⟩
    · have hdone : 2 * rounds ≤ k := Nat.le_of_not_lt hk
      have hdone' : 2 * rounds ≤ k + 1 := Nat.le_succ_of_le hdone
      obtain ⟨hafter, hnext⟩ :=
        Dialogue.course_succ_of_none (hline.trans (strokes_eq_none.mpr hdone))
      refine ⟨hafter.trans (hstates.trans ?_), hnext.trans (strokes_eq_none.mpr hdone').symm⟩
      funext s
      cases s with
      | a => simp [actorsAfter, hdone, hdone']
      | b => rfl

end Course

variable {c : Setting Count} {init : Side → Party Kind} {rounds : Nat}

/-- Every message of the game can be sent, and `pong_ref` leads to `PongActor`. -/
theorem speakable_game (hpos : 0 < rounds) (hlt : rounds < 2 ^ 31)
    (h : Ready c init fun _ => registrations)
    (hmsg : ∀ msg ∈ strokes rounds, Sendable c init (fun _ => registrations) msg) :
    Dialogue.Speakable c init (fun _ => registrations) (game c.target (.ofNat rounds)) where
  sendable k msg hline := by
    rw [(course_eq hlt hpos k).2] at hline
    exact hmsg msg (List.mem_of_getElem? hline)
  leads k msg target msg' hline hanswer := by
    rw [(course_eq hlt hpos k).2] at hline
    have hk : k < 2 * rounds := by
      by_contra hdone
      rw [strokes_eq_none.mpr (Nat.le_of_not_lt hdone)] at hline
      simp at hline
    obtain rfl : stroke k = msg := Option.some.inj ((strokes_of_lt hk).symm.trans hline)
    rw [Dialogue.handled, (course_eq hlt hpos k).1, handle_stroke hlt hk, answerTo] at hanswer
    obtain ⟨hname, hreaches, hsender⟩ := h.target
    split at hanswer
    · simp at hanswer
    · rename_i hodd
      have hspeaker : speaker k = .b := by simp [speaker, hodd]
      split at hanswer
      · simp at hanswer
      · obtain ⟨rfl, -⟩ := Answer.send.inj hanswer
        rw [listener, hspeaker]
        exact ⟨hname, hsender, hreaches⟩

/-- In every run of the two processes of `remote_ping_pong`, the messages sent are
`Ping` 1, `Pong` 1, `Ping` 2 and so on, each delivered to the actor that it is for, up
to the last `Pong`.  `PingActor` calls `terminate` when it has handled the last `Pong`
and not before, and then all of them were sent and delivered, and no thread has
anything to do any more. -/
theorem rally (hpos : 0 < rounds) (hlt : rounds < 2 ^ 31)
    (h : Ready c init fun _ => registrations)
    (hmsg : ∀ msg ∈ strokes rounds, Sendable c init (fun _ => registrations) msg)
    {tr : List (Talk State Count × Beat)} {g : Talk State Count}
    (hrun : ((game c.target (.ofNat rounds)).machine c init).Run (fun _ _ => True) tr g) :
    g.exchange.said <+: strokes rounds ∧ Stays c init g.exchange ∧
      tr.length ≤ 6 * rounds + 1 ∧
      ((g.states .a).terminated = true ↔ (game c.target (.ofNat rounds)).AtRest c g) ∧
      ((game c.target (.ofNat rounds)).AtRest c g → g.exchange.said = strokes rounds ∧
        g.exchange.heard.length = 2 * rounds) := by
  have hspeak := speakable_game hpos hlt h hmsg
  obtain ⟨hkept, hstays, hrest, hstates, hsteps⟩ := Dialogue.dialogue h hspeak hrun
  obtain ⟨-, hstands⟩ := Dialogue.playing h hspeak hrun
  have hlength : (strokes rounds).length = 2 * rounds := by simp [strokes]
  have hsame : ∀ k < g.exchange.said.length,
      g.exchange.said[k]? = (strokes rounds)[k]? := fun k hk => by
    rw [hkept k hk, (course_eq hlt hpos k).2]
  have hle : g.exchange.said.length ≤ 2 * rounds := by
    by_contra hgt
    have hnone := hsame (2 * rounds) (by omega)
    rw [strokes_eq_none.mpr (Nat.le_refl _), List.getElem?_eq_none_iff] at hnone
    omega
  have hplayed : g.exchange.said <+: strokes rounds := by
    rw [List.prefix_iff_getElem?]
    intro k hk
    rw [← hsame k hk, List.getElem?_eq_getElem hk]
  have hall : (game c.target (.ofNat rounds)).AtRest c g →
      g.exchange.said.length = 2 * rounds := fun hrest' => by
    have hover := (hrest.mp hrest').2.1
    rw [(course_eq hlt hpos _).2, strokes_eq_none] at hover
    omega
  refine ⟨hplayed, hstays, by omega, ⟨fun hterminated => ?_, fun hrest' => ?_⟩,
    fun hrest' => ⟨hplayed.eq_of_length (by rw [hall hrest', hlength]), ?_⟩⟩
  · by_contra hbusy
    rw [hstands.states_of_busy fun hover => hbusy (hrest.mpr hover),
      (course_eq hlt hpos _).1] at hterminated
    have hdone : 2 * rounds ≤ g.exchange.said.length - 1 := by
      simpa [actorsAfter] using hterminated
    omega
  · rw [hstates hrest', (course_eq hlt hpos _).1, hall hrest']
    simp [actorsAfter]
  · rw [(hrest.mp hrest').1, hall hrest']

/-! ### Two rounds -/

/-- `to_value` of an `i32`. -/
def ofInt32 (n : Int32) : Value :=
  .number (if 0 ≤ n then .posInt n.toInt64.toUInt64 else .negInt n.toInt64)

/-- `from_value` at `i32`.  `none` is `Err`. -/
def toInt32 : Value → Option Int32
  | .number (.posInt n) => if n.toNat < 2 ^ 31 then some (.ofNat n.toNat) else none
  | .number (.negInt n) =>
    if -2 ^ 31 ≤ n.toInt ∧ n.toInt < 0 then some (.ofInt n.toInt) else none
  | _ => none

/-- The derived code for `Ping` and `Pong`.  It writes an object, and reads one, with
any other members, or an array of the one field. -/
def countSerde : Serde Count where
  toValue m := some (.object [("count", ofInt32 m.2)])
  fromValue _
    | .object members => (members.lookup "count").bind toInt32
    | .array [v] => toInt32 v
    | _ => none

/-- The process of `ping`, and the process of `pong`. -/
def process (name endpoint : String) : Party Kind where
  tables :=
    { registries := .ofRegistrations registrations
      actors := (ActorRegistry.new.register name (.localRef ⟨5, name⟩)).2 }
  zmqSender := ⟨0, endpoint⟩
  actor := ⟨5, name⟩
  context := ActorContext.new.setSelfRef (.localRef ⟨5, name⟩)

def processes : Side → Party Kind
  | .a => process "ping" "tcp://localhost:5002"
  | .b => process "pong" "tcp://localhost:5001"

/-- The text of a frame with the count 1 or 2. -/
def textOf (v : Value) : String :=
  let member key := ((v.index key).asStr).getD ""
  let count :=
    match (v.index "message").index "count" with
    | .number (.posInt 1) => "1"
    | _ => "2"
  "\x7b\"message\":\x7b\"count\":" ++ count ++ "\x7d,\"message_type\":\"" ++
    member "message_type" ++ "\",\"receiver\":\"" ++ member "receiver" ++
    "\",\"sender_actor\":\"" ++ member "sender_actor" ++ "\",\"sender_endpoint\":\"" ++
    member "sender_endpoint" ++ "\"\x7d"

/-- The frame from the actor of process `s` with a message of the given type. -/
def countFrame (s : Side) (kind : String) (n : Int32) : Value :=
  frameFrom processes s kind (.object [("count", ofInt32 n)])

/-- The frames with the counts 1 and 2. -/
def frames : List Value :=
  [.a, .b].flatMap fun s => ["Ping", "Pong"].flatMap fun kind =>
    [countFrame s kind 1, countFrame s kind 2]

def setting : Setting Count where
  json := { toString := textOf, fromStr := fun text => frames.find? (textOf · = text) }
  serde := countSerde
  target := ⟨"pong", "tcp://localhost:5001", ⟨0, "tcp://localhost:5002"⟩⟩
  reaches endpoint :=
    if endpoint = "tcp://localhost:5002" then some .a
    else if endpoint = "tcp://localhost:5001" then some .b
    else none

theorem ready_processes : Ready setting processes fun _ => registrations := by
  refine ⟨?_, fun reg => Iff.rfl, by decide, ?_, ?_, ?_, rfl, rfl, rfl⟩
  all_goals
    intro s
    cases s <;> rfl

theorem roundTrips_frames : ∀ v ∈ frames, setting.json.RoundTrips v := by
  intro v hv
  simp only [frames, List.flatMap_cons, List.flatMap_nil, List.cons_append,
    List.nil_append, List.append_nil, List.mem_cons, List.not_mem_nil, or_false] at hv
  rcases hv with rfl | rfl | rfl | rfl | rfl | rfl | rfl | rfl <;> rfl

theorem sendable_two : ∀ msg ∈ strokes 2,
    Sendable setting processes (fun _ => registrations) msg := by
  have hframe : ∀ (s : Side) (kind : String) (n : Int32), kind = "Ping" ∨ kind = "Pong" →
      n = 1 ∨ n = 2 → setting.json.RoundTrips (countFrame s kind n) := by
    intro s kind n hkind hn
    refine roundTrips_frames _ (List.mem_flatMap.mpr ⟨s, ?_,
      List.mem_flatMap.mpr ⟨kind, ?_, ?_⟩⟩)
    · cases s <;> simp
    · simpa using hkind
    · rcases hn with rfl | rfl <;> simp
  have hping : ∀ n : Int32, n = 1 ∨ n = 2 →
      Sendable setting processes (fun _ => registrations) (ping n) := by
    intro n hn
    refine ⟨.user .ping, "Ping", .object [("count", ofInt32 n)], by decide, rfl, ?_,
      fun s msgType hname => hframe s msgType n (Or.inl ?_) hn⟩
    · rcases hn with rfl | rfl <;> rfl
    · cases s <;> exact (Option.some.inj hname).symm
  have hpong : ∀ n : Int32, n = 1 ∨ n = 2 →
      Sendable setting processes (fun _ => registrations) (pong n) := by
    intro n hn
    refine ⟨.user .pong, "Pong", .object [("count", ofInt32 n)], by decide, rfl, ?_,
      fun s msgType hname => hframe s msgType n (Or.inr ?_) hn⟩
    · rcases hn with rfl | rfl <;> rfl
    · cases s <;> exact (Option.some.inj hname).symm
  have hstrokes : strokes 2 = [ping 1, pong 1, ping 2, pong 2] := rfl
  rw [hstrokes]
  simp only [List.forall_mem_cons, List.not_mem_nil, false_imp_iff, implies_true, and_true]
  exact ⟨hping 1 (Or.inl rfl), hpong 1 (Or.inl rfl), hping 2 (Or.inr rfl),
    hpong 2 (Or.inr rfl)⟩

theorem speakable_two : Dialogue.Speakable setting processes (fun _ => registrations)
    (game setting.target (.ofNat 2)) :=
  speakable_game Nat.two_pos (by decide) ready_processes sendable_two

/-- With two rounds the two processes come to rest. -/
theorem exists_rest_two : ∃ tr g,
    ((game setting.target (.ofNat 2)).machine setting processes).Run (fun _ _ => True) tr g ∧
      (game setting.target (.ofNat 2)).AtRest setting g :=
  Dialogue.exists_rest ready_processes speakable_two (n := 4)
    (course_eq (by decide) Nat.two_pos 4).2

/-- `PingActor` has called `terminate` after four messages. -/
theorem rally_two : ∃ g : Talk State Count,
    g.exchange.said = [ping 1, pong 1, ping 2, pong 2] ∧ g.exchange.heard.length = 4 ∧
      (g.states .a).terminated = true := by
  obtain ⟨tr, g, hrun, hrest⟩ := exists_rest_two
  obtain ⟨-, -, -, hterminated, hover⟩ :=
    rally Nat.two_pos (by decide) ready_processes sendable_two hrun
  obtain ⟨hsaid, hheard⟩ := hover hrest
  exact ⟨g, hsaid, hheard, hterminated.mpr hrest⟩

/-- The same run, as a dialogue. -/
theorem dialogue_two : ∃ (tr : List (Talk State Count × Beat)) (g : Talk State Count),
    (game setting.target (.ofNat 2)).Over g.exchange ∧
      tr.length ≤ 3 * g.exchange.said.length + 1 ∧ Stays setting processes g.exchange := by
  obtain ⟨tr, g, hrun, hrest⟩ := exists_rest_two
  obtain ⟨-, hstays, hiff, -, hsteps⟩ := Dialogue.dialogue ready_processes speakable_two hrun
  exact ⟨tr, g, hiff.mp hrest, hsteps, hstays⟩

end RemotePingPong

end Actors
