import Actors.Lib.Lists
import Actors.Remote.Exchange
import Actors.Remote.RoundTrip

/-!
# A conversation stays between its two actors

Every hop of an exchange rebuilds the sender from a name and an endpoint: the
actor's context hands it to `send_to`, `send_to` writes it into the frame, the
receiver of the other process reads it back, and the reply of the other actor
goes there.  So what one hop delivers depends on what the hop before wrote.

The invariant is `Between`.  The processes are as they were, but for the
sender in the contexts; what the receivers did with the first frames is what it
should be; and exactly one message is on its way (`InFlight`): a request of the
actor whose turn it is, or its frame, or the envelope in the mailbox of the
other, with the reference that leads back.
-/

namespace Actors

open Concur

variable {τ : Type} {V : τ → Type}

/-- The process whose actor says message number `k`. -/
def speaker (k : Nat) : Side := if k % 2 = 0 then .a else .b

/-- The process whose actor message number `k` is for. -/
abbrev listener (k : Nat) : Side := (speaker k).other

@[simp] theorem speaker_succ (k : Nat) : speaker (k + 1) = listener k := by
  rcases Nat.mod_two_eq_zero_or_one k with h | h
  · have h1 : (k + 1) % 2 = 1 := by omega
    simp [speaker, listener, Side.other, h, h1]
  · have h1 : (k + 1) % 2 = 0 := by omega
    simp [speaker, listener, Side.other, h, h1]

section Between

variable (c : Setting V) (init : Side → Party τ)

/-- The reference is one to the actor of process `s`. -/
def Denotes (s : Side) (ref : ActorRef) : Prop :=
  ∃ r, ref = .remoteRef r ∧ r.name = (init s).actor.name ∧
    c.reaches r.endpoint = some s

/-- The reference to the actor of process `s` that arrives in the other
process. -/
def refTo (s : Side) : ActorRef :=
  .remoteRef
    { name := (init s).actor.name, endpoint := (init s).zmqSender.localEndpoint
      zmqSender := (init s.other).zmqSender }

/-- The frame that the actor of process `s` sends to the other one. -/
def frameFrom (s : Side) (msgType : String) (v : Value) : Value :=
  frame (some (init s).actor.name, some (init s).zmqSender.localEndpoint)
    (init s.other).actor.name msgType v

variable [DecidableEq τ]

/-- The two processes at the start.  They have registered the same types under
the same names, each name for one type.  Each actor is registered at the
receiver of its process under its own name, and the endpoint of each `ZmqSender`
is the address of this receiver.  `a` has a reference for `b`. -/
structure Ready (regs : Side → List (RemoteType τ × String)) : Prop where
  registries : ∀ s, (init s).tables.registries = .ofRegistrations (regs s)
  alike : ∀ reg, reg ∈ regs .a ↔ reg ∈ regs .b
  ownNames : Registries.OwnNames (regs .a)
  registered : ∀ s, (init s).tables.actors.get (init s).actor.name =
    (.value (some (.localRef (init s).actor)), (init s).tables.actors)
  selfRef : ∀ s, (init s).context.selfRef = some (.localRef (init s).actor)
  address : ∀ s, c.reaches (init s).zmqSender.localEndpoint = some s
  target : c.target.name = (init .b).actor.name ∧
    c.reaches c.target.endpoint = some .b ∧
    c.target.zmqSender = (init .a).zmqSender

/-- A message of a registered type, whose JSON value and whose frames are read
as they were written. -/
def Sendable (regs : Side → List (RemoteType τ × String))
    (msg : Message (UserMessage V)) : Prop :=
  ∃ M name v, (M, name) ∈ regs .a ∧ c.serde.encode msg = some v ∧
    c.serde.decode M v = some msg ∧
    ∀ s, ∀ msgType ∈ (init s).tables.registries.nameOf msg.typeId,
      c.json.RoundTrips (frameFrom init s msgType v)

/-- The bytes are what process `s` sends for the message. -/
def Writes (s : Side) (msg : Message (UserMessage V)) (data : ByteArray) : Prop :=
  ∃ msgType v, (init s).tables.registries.nameOf msg.typeId = some msgType ∧
    c.serde.encode msg = some v ∧
    data = (c.json.toString (frameFrom init s msgType v)).toUTF8

/-- All queues are empty but those of process `s`. -/
def only (s : Side) (q : Queues V) : Side → Queues V :=
  Function.update (fun _ => {}) s q

/-- Where the conversation stands: nothing has been said yet, or exactly one
message is on its way. -/
inductive InFlight (e : Exchange V) : Prop where
  | silent (hsaid : e.said = []) (hcarried : e.carried = 0) (hheard : e.heard = [])
      (hqueues : e.queues = fun _ => {})
  | queued (said : List (Message (UserMessage V))) (msg : Message (UserMessage V))
      (request : SendRequest) (hsaid : e.said = said ++ [msg])
      (hcarried : e.carried = said.length) (hheard : e.heard.length = said.length)
      (hreaches : c.reaches request.endpoint = some (listener said.length))
      (hdata : Writes c init (speaker said.length) msg request.data)
      (hqueues : e.queues = only (speaker said.length) { requests := [request] })
  | carried (said : List (Message (UserMessage V))) (msg : Message (UserMessage V))
      (data : ByteArray) (hsaid : e.said = said ++ [msg])
      (hcarried : e.carried = said.length + 1)
      (hheard : e.heard.length = said.length)
      (hdata : Writes c init (speaker said.length) msg data)
      (hqueues : e.queues = only (listener said.length) { frames := [data] })
  | delivered (said : List (Message (UserMessage V)))
      (msg : Message (UserMessage V)) (hsaid : e.said = said ++ [msg])
      (hcarried : e.carried = said.length + 1)
      (hheard : e.heard.length = said.length + 1)
      (hqueues : e.queues = only (listener said.length)
        { mailbox := [.new msg (some (refTo init (speaker said.length)))] })

/-- What a receiver should have done with message number `k`. -/
def Arrived (said : List (Message (UserMessage V))) (k : Nat)
    (o : Side × Outcome (List (Effect V))) : Prop :=
  ∃ msg, said[k]? = some msg ∧ o = (listener k, .value
    [.posted (init (listener k)).actor.sender
      (.new msg (some (refTo init (speaker k))))])

/-- A process differs from what it was in the sender of its context at most. -/
structure Party.Same (p q : Party τ) : Prop where
  tables : p.tables = q.tables
  zmqSender : p.zmqSender = q.zmqSender
  actor : p.actor = q.actor
  selfRef : p.context.selfRef = q.context.selfRef

/-- What holds throughout an exchange. -/
structure Standing (regs : Side → List (RemoteType τ × String)) (e : Exchange V) :
    Prop where
  parties : ∀ s, (e.parties s).Same (init s)
  calm : e.panicked = false
  here : e.elsewhere = []
  sendable : ∀ msg ∈ e.said, Sendable c init regs msg
  arrived : ∀ k o, e.heard[k]? = some o → Arrived init e.said k o

/-- The invariant of an exchange. -/
structure Between (regs : Side → List (RemoteType τ × String)) (e : Exchange V) :
    Prop where
  standing : Standing c init regs e
  inFlight : InFlight c init e

/-- Nothing is on its way, and it is the next speaker's turn. -/
structure Turn (regs : Side → List (RemoteType τ × String)) (e : Exchange V) :
    Prop where
  standing : Standing c init regs e
  carried : e.carried = e.said.length
  heard : e.heard.length = e.said.length
  queues : e.queues = fun _ => {}

end Between

/-! ## Queues -/

theorem of_only {α : Type} {f : Queues V → List α} (hempty : f {} = [])
    {s s' : Side} {q : Queues V} {x : α} {xs : List α}
    (h : f (only s q s') = x :: xs) : s' = s ∧ f q = x :: xs := by
  by_cases hs : s' = s
  · subst hs
    exact ⟨rfl, by simpa [only] using h⟩
  · simp [only, Function.update_of_ne hs, hempty] at h

theorem only_ne_cons {α : Type} {f : Queues V → List α} (hempty : f {} = [])
    {s s' : Side} {q : Queues V} (hq : f q = []) {x : α} {xs : List α} :
    f (only s q s') ≠ x :: xs := by
  intro h
  have hcons := (of_only hempty h).2
  rw [hq] at hcons
  exact List.cons_ne_nil x xs hcons.symm

@[simp] theorem only_self (s : Side) (q : Queues V) : only s q s = q := by
  simp [only]

@[simp] theorem only_empty (s : Side) : only s ({} : Queues V) = fun _ => {} := by
  simp [only]

@[simp] theorem update_only (s : Side) (q q' : Queues V) :
    Function.update (only s q) s q' = only s q' := by
  simp [only]

variable [DecidableEq τ] {c : Setting V} {init : Side → Party τ}
  {regs : Side → List (RemoteType τ × String)}

/-! ## The two registries -/

namespace Ready

theorem records (h : Ready c init regs) (s : Side) :
    (init s).tables.registries.Records (regs s) := by
  rw [h.registries]
  exact Registries.records_ofRegistrations (regs s)

theorem mem_regs (h : Ready c init regs) (s : Side) (reg : RemoteType τ × String) :
    reg ∈ regs s ↔ reg ∈ regs .a := by
  cases s with
  | a => rfl
  | b => exact (h.alike reg).symm

/-- A name that one process uses for a type is the name of its entry in both. -/
theorem entry_eq (h : Ready c init regs) {s : Side} {M : RemoteType τ}
    {msgType : String}
    (hname : (init s).tables.registries.nameOf M.typeId = some msgType) (s' : Side) :
    (init s').tables.registries.entry msgType = some { messageType := M } := by
  have hmem : (M, msgType) ∈ regs s' := by
    rw [h.mem_regs s', ← h.mem_regs s]
    exact (h.records s).named hname
  refine (h.records s').entry_eq (fun x hx y hy hxy => ?_) hmem
  exact h.ownNames x ((h.mem_regs s' x).mp hx) y ((h.mem_regs s' y).mp hy) hxy

/-- A sendable message has a name in both processes. -/
theorem exists_name (h : Ready c init regs) {msg : Message (UserMessage V)}
    (hmsg : Sendable c init regs msg) (s : Side) :
    ∃ msgType, (init s).tables.registries.nameOf msg.typeId = some msgType := by
  obtain ⟨M, name, v, hmem, -, hdecode, -⟩ := hmsg
  rw [Serde.typeId_decode hdecode]
  exact Option.isSome_iff_exists.mp
    ((h.records s).known ((h.mem_regs s _).mpr hmem)).2

end Ready

/-! ## The steps -/

/-- What the actor of process `s` sends through a reference for the other one
is one request, with the frame for the message. -/
theorem say_eq (h : Ready c init regs) {msg : Message (UserMessage V)}
    (hmsg : Sendable c init regs msg) {s : Side} {r : RemoteActorRef}
    (hname : r.name = (init s.other).actor.name)
    (hsender : r.zmqSender = (init s).zmqSender) {e : Exchange V}
    (hparty : (e.parties s).Same (init s)) (hqueues : e.queues = fun _ => {}) :
    ∃ data, Writes c init s msg data ∧
      e.say c s (.remoteRef r) msg (some (.localRef (init s).actor)) =
        { e with
          said := e.said ++ [msg]
          queues := only s { requests := [{ endpoint := r.endpoint, data }] } } := by
  obtain ⟨msgType, htype⟩ := h.exists_name hmsg s
  obtain ⟨M, name, v, -, hencode, hdecode, -⟩ := hmsg
  have hM : msg.typeId = M.typeId := Serde.typeId_decode hdecode
  have hsend := ZmqSender.sendTo_eq c.json (h.records s).usable htype
    (h.entry_eq (hM ▸ htype) s) hM hencode r.zmqSender r.endpoint r.name
    (some (.localRef (init s).actor))
  rw [← hparty.tables] at hsend
  refine ⟨_, ⟨msgType, v, htype, hencode, rfl⟩, ?_⟩
  rw [Exchange.say_remote (hsender.trans hparty.zmqSender.symm) hsend, hsender, hname]
  simp only [Exchange.setQueues, hqueues]
  rfl

/-- The frame that the actor of one process has sent is one envelope for the
other actor, with the reference that leads back. -/
theorem handleMessage_frameFrom (h : Ready c init regs)
    {msg : Message (UserMessage V)} (hmsg : Sendable c init regs msg) {s : Side}
    {data : ByteArray} (hdata : Writes c init s msg data) :
    handleMessage c.json c.serde (init s.other).zmqSender (init s.other).tables [data] =
      (.value [.posted (init s.other).actor.sender (.new msg (some (refTo init s)))],
        (init s.other).tables) := by
  obtain ⟨msgType, v, hname, hencode, rfl⟩ := hdata
  obtain ⟨M, name, v', -, hencode', hdecode, htext⟩ := hmsg
  obtain rfl : v = v' := Option.some.inj (hencode.symm.trans hencode')
  have hentry := h.entry_eq (Serde.typeId_decode hdecode ▸ hname) s.other
  exact handleMessage_frame (h.records s.other).usable (h.registered s.other) hentry
    hdecode (htext s msgType hname) (init s.other).zmqSender

/-- The next speaker sends a message to the other actor. -/
theorem Turn.say (h : Ready c init regs) {e : Exchange V} (he : Turn c init regs e)
    {s : Side} (hs : speaker e.said.length = s) {msg : Message (UserMessage V)}
    (hmsg : Sendable c init regs msg) {r : RemoteActorRef}
    (hname : r.name = (init s.other).actor.name)
    (hsender : r.zmqSender = (init s).zmqSender)
    (hreaches : c.reaches r.endpoint = some s.other) :
    Between c init regs
      (e.say c s (.remoteRef r) msg (some (.localRef (init s).actor))) := by
  subst hs
  obtain ⟨hparties, hcalm, hhere, hsendable, harrived⟩ := he.standing
  obtain ⟨data, hdata, hsay⟩ := say_eq h hmsg hname hsender (hparties _) he.queues
  rw [hsay]
  refine ⟨⟨hparties, hcalm, hhere, forall_mem_snoc hsendable hmsg, ?_⟩,
    .queued e.said msg { endpoint := r.endpoint, data } rfl he.carried he.heard
      hreaches hdata rfl⟩
  intro k o ho
  obtain ⟨before, hk, rfl⟩ := harrived k o ho
  refine ⟨before, ?_, rfl⟩
  rw [List.getElem?_append_left (List.getElem?_eq_some_iff.mp hk).1]
  exact hk

/-- The first message. -/
theorem Between.first (h : Ready c init regs) {e e' : Exchange V}
    (he : Between c init regs e) {msg : Message (UserMessage V)}
    (hmsg : Sendable c init regs msg) (hnext : e.next c (.first msg) = some e') :
    Between c init regs e' := by
  simp only [Exchange.next, he.standing.calm, Bool.false_eq_true, if_false] at hnext
  split at hnext
  next hsaid =>
    rw [List.isEmpty_iff] at hsaid
    cases he.inFlight with
    | queued said msg request hcons | carried said msg data hcons
    | delivered said msg hcons => simp [hcons] at hsaid
    | silent hsaid hcarried hheard hqueues =>
      have hturn : Turn c init regs e :=
        ⟨he.standing, by simp [hcarried, hsaid], by simp [hheard, hsaid], hqueues⟩
      have hfirst : speaker e.said.length = .a := by rw [hsaid]; rfl
      obtain ⟨hname, hreaches, hsender⟩ := h.target
      rw [(he.standing.parties .a).selfRef, h.selfRef, Option.some.injEq] at hnext
      subst hnext
      exact hturn.say h hfirst hmsg hname hsender hreaches
  next => simp at hnext

/-- The sender thread of process `s` takes a request. -/
theorem Between.transmit {e e' : Exchange V} (he : Between c init regs e) {s : Side}
    (hnext : e.next c (.transmit s) = some e') : Between c init regs e' := by
  simp only [Exchange.next, he.standing.calm, Bool.false_eq_true, if_false] at hnext
  split at hnext
  · simp at hnext
  · rename_i request rest hrequests
    cases he.inFlight with
    | silent _ _ _ hqueues => simp [hqueues] at hrequests
    | carried said msg data hsaid hcarried hheard hdata hqueues
    | delivered said msg hsaid hcarried hheard hqueues =>
      rw [hqueues] at hrequests
      exact absurd hrequests (only_ne_cons (f := Queues.requests) rfl rfl)
    | queued said msg request' hsaid hcarried hheard hreaches hdata hqueues =>
      rw [hqueues] at hrequests
      obtain ⟨rfl, hlist⟩ := of_only (f := Queues.requests) rfl hrequests
      obtain ⟨rfl, rfl⟩ := List.cons.inj hlist
      simp only [Exchange.carry, Exchange.setQueues, hqueues, hreaches, only_self,
        update_only, only_empty, Option.some.injEq] at hnext
      subst hnext
      obtain ⟨hparties, hcalm, hhere, hsendable, harrived⟩ := he.standing
      exact ⟨⟨hparties, hcalm, hhere, hsendable, harrived⟩,
        .carried said msg request'.data hsaid (by rw [hcarried]) hheard hdata rfl⟩

/-- The receiver thread of process `s` handles a frame. -/
theorem Between.receive (h : Ready c init regs) {e e' : Exchange V}
    (he : Between c init regs e) {s : Side}
    (hnext : e.next c (.receive s) = some e') : Between c init regs e' := by
  obtain ⟨hparties, hcalm, hhere, hsendable, harrived⟩ := he.standing
  obtain ⟨data, rest, hframes⟩ : ∃ data rest, (e.queues s).frames = data :: rest := by
    cases hframes : (e.queues s).frames with
    | nil => simp [Exchange.next, hcalm, hframes] at hnext
    | cons data rest => exact ⟨data, rest, rfl⟩
  cases he.inFlight with
  | silent _ _ _ hqueues => simp [hqueues] at hframes
  | queued said msg request hsaid hcarried hheard hreaches hdata hqueues
  | delivered said msg hsaid hcarried hheard hqueues =>
    rw [hqueues] at hframes
    exact absurd hframes (only_ne_cons (f := Queues.frames) rfl rfl)
  | carried said msg data' hsaid hcarried hheard hdata hqueues =>
    have hqueues' := hframes
    rw [hqueues] at hqueues'
    obtain ⟨rfl, hlist⟩ := of_only (f := Queues.frames) rfl hqueues'
    obtain ⟨rfl, rfl⟩ := List.cons.inj hlist
    have hmsg : Sendable c init regs msg := hsendable msg (by simp [hsaid])
    have hhandle := handleMessage_frameFrom h hmsg hdata
    have hparty := hparties (listener said.length)
    rw [← hparty.tables, ← hparty.zmqSender, ← hparty.actor] at hhandle
    rw [Exchange.next_receive hcalm hframes hhandle] at hnext
    simp only [List.foldl_cons, List.foldl_nil, Exchange.apply, Exchange.setParty,
      Exchange.setQueues, hqueues, Function.update_eq_self, update_only, only_self,
      if_true, Option.some.injEq] at hnext
    subst hnext
    refine ⟨⟨hparties, hcalm, hhere, hsendable, ?_⟩,
      .delivered said msg hsaid hcarried (by simp [hheard]) rfl⟩
    refine forall_getElem?_snoc harrived ⟨msg, ?_, ?_⟩
    · rw [hheard, hsaid, List.getElem?_concat_length]
    · rw [hheard, hparty.actor]

/-- The actor of process `s` takes a message: it is the last one that was said, and the
turn of this actor. -/
theorem Between.taken {e : Exchange V} (he : Between c init regs e) {s : Side}
    {envelope : Envelope (UserMessage V)} {rest : List (Envelope (UserMessage V))}
    (hmailbox : (e.queues s).mailbox = envelope :: rest) :
    ∃ said msg, e.said = said ++ [msg] ∧ s = listener said.length ∧
      envelope = .new msg (some (refTo init (speaker said.length))) ∧ rest = [] ∧
      Turn c init regs (e.taken s envelope rest) := by
  obtain ⟨hparties, hcalm, hhere, hsendable, harrived⟩ := he.standing
  cases he.inFlight with
  | silent _ _ _ hqueues => simp [hqueues] at hmailbox
  | queued said msg request hsaid hcarried hheard hreaches hdata hqueues
  | carried said msg data hsaid hcarried hheard hdata hqueues =>
    rw [hqueues] at hmailbox
    exact absurd hmailbox (only_ne_cons (f := Queues.mailbox) rfl rfl)
  | delivered said before hsaid hcarried hheard hqueues =>
    rw [hqueues] at hmailbox
    obtain ⟨rfl, hlist⟩ := of_only (f := Queues.mailbox) rfl hmailbox
    obtain ⟨rfl, rfl⟩ := List.cons.inj hlist
    have hparty := hparties (listener said.length)
    refine ⟨said, before, hsaid, rfl, rfl, rfl, ⟨fun s => ?_, hcalm, hhere, hsendable,
      harrived⟩, ?_, ?_, ?_⟩
    · -- The context keeps the actor's own reference.
      by_cases heq : s = listener said.length
      · subst heq
        simp only [Exchange.taken, Exchange.setParty, Function.update_self]
        exact ⟨hparty.tables, hparty.zmqSender, hparty.actor, hparty.selfRef⟩
      · simp only [Exchange.taken, Exchange.setParty, Function.update_of_ne heq]
        exact hparties s
    · simp [Exchange.taken, Exchange.setParty, Exchange.setQueues, hcarried, hsaid]
    · simp [Exchange.taken, Exchange.setParty, Exchange.setQueues, hheard, hsaid]
    · simp [Exchange.taken, Exchange.setParty, Exchange.setQueues, hqueues]

/-- The actor of process `s` answers a message. -/
theorem Between.answer (h : Ready c init regs) {e e' : Exchange V}
    (he : Between c init regs e) {s : Side} {msg : Message (UserMessage V)}
    (hmsg : Sendable c init regs msg) (hnext : e.next c (.answer s msg) = some e') :
    Between c init regs e' := by
  have hcalm := he.standing.calm
  obtain ⟨envelope, rest, hmailbox⟩ :
      ∃ envelope rest, (e.queues s).mailbox = envelope :: rest := by
    cases hmailbox : (e.queues s).mailbox with
    | nil => simp [Exchange.next, hcalm, hmailbox] at hnext
    | cons envelope rest => exact ⟨envelope, rest, rfl⟩
  obtain ⟨said, before, hsaid, rfl, rfl, rfl, hturn⟩ := he.taken hmailbox
  have hparty := he.standing.parties (listener said.length)
  rw [Exchange.next_answer hcalm hmailbox, Option.some.injEq,
    ActorContext.prepareForEnvelope_selfRef, hparty.selfRef, h.selfRef] at hnext
  have hnow : speaker e.said.length = listener said.length := by
    rw [hsaid, List.length_append, List.length_singleton, speaker_succ]
  have hother : (listener said.length).other = speaker said.length :=
    Side.other_other _
  rw [← hnext]
  refine hturn.say h hnow hmsg ?_ rfl ?_
  · rw [hother]
  · rw [hother, h.address]

/-! ## Every run -/

variable (c init regs) in
/-- Whatever the actors say is a message that can be sent. -/
def Allowed (hop : Hop V) : Prop := ∀ msg ∈ hop.says, Sendable c init regs msg

theorem between_start : Between c init regs (Exchange.start init) where
  standing := ⟨fun s => ⟨rfl, rfl, rfl, rfl⟩, rfl, rfl, by simp [Exchange.start],
    by simp [Exchange.start]⟩
  inFlight := .silent rfl rfl rfl rfl

theorem Between.next (h : Ready c init regs) {e e' : Exchange V}
    (he : Between c init regs e) {hop : Hop V} (hhop : Allowed c init regs hop)
    (hnext : e.next c hop = some e') : Between c init regs e' := by
  cases hop with
  | first msg => exact he.first h (hhop msg rfl) hnext
  | transmit s => exact he.transmit hnext
  | receive s => exact he.receive h hnext
  | answer s msg => exact he.answer h (hhop msg rfl) hnext

theorem between_of_reach (h : Ready c init regs) {e : Exchange V}
    (he : (Exchange.machine c init).Reach (fun _ hop => Allowed c init regs hop) e) :
    Between c init regs e := by
  refine he.invariant (fun e he => he ▸ between_start) ?_
  exact fun e hop e' _ he hhop hnext => he.next h hhop hnext

/-- The thread that has the message can go on. -/
theorem Between.isSome_next {e : Exchange V} (he : Between c init regs e)
    {msg : Message (UserMessage V)} (hmsg : Sendable c init regs msg) :
    ∃ hop, Allowed c init regs hop ∧ (e.next c hop).isSome := by
  have hsay : ∀ msg' ∈ some msg, Sendable c init regs msg' := by simpa using hmsg
  have hcalm := he.standing.calm
  cases he.inFlight with
  | silent hsaid =>
    exact ⟨.first msg, hsay, by simp [Exchange.next, hcalm, hsaid]⟩
  | queued said msg request hsaid hcarried hheard hreaches hdata hqueues =>
    refine ⟨.transmit (speaker said.length), by simp [Allowed, Hop.says], ?_⟩
    simp [Exchange.next, hcalm, hqueues]
  | carried said msg data hsaid hcarried hheard hdata hqueues =>
    refine ⟨.receive (listener said.length), by simp [Allowed, Hop.says], ?_⟩
    simp only [Exchange.next, hcalm, hqueues, only_self, Bool.false_eq_true, if_false]
    split <;> rfl
  | delivered said before hsaid hcarried hheard hqueues =>
    refine ⟨.answer (listener said.length) msg, hsay, ?_⟩
    rw [Exchange.next_answer hcalm (by rw [hqueues, only_self])]
    rfl

variable (c init) in
/-- The exchange has stayed between its two actors.  The messages have been
delivered to `b` and to `a` in turn, each to the actor it is for, with a
reference to the one it is from; nothing else was sent or delivered, and at most
one message is still on its way. -/
structure Stays (e : Exchange V) : Prop where
  delivered : ∀ k o, e.heard[k]? = some o →
    ∃ msg ref, e.said[k]? = some msg ∧ Denotes c init (speaker k) ref ∧
      o = (listener k, .value
        [.posted (init (listener k)).actor.sender (.new msg (some ref))])
  calm : e.panicked = false
  here : e.elsewhere = []
  onTheWay : e.said.length ≤ e.heard.length + 1

theorem Standing.stays (h : Ready c init regs) {e : Exchange V}
    (he : Standing c init regs e) (hway : e.said.length ≤ e.heard.length + 1) :
    Stays c init e where
  delivered k o ho := by
    obtain ⟨msg, hsaid, rfl⟩ := he.arrived k o ho
    exact ⟨msg, refTo init (speaker k), hsaid,
      ⟨_, rfl, rfl, h.address (speaker k)⟩, rfl⟩
  calm := he.calm
  here := he.here
  onTheWay := hway

theorem Between.stays (h : Ready c init regs) {e : Exchange V}
    (he : Between c init regs e) : Stays c init e := by
  refine he.standing.stays h ?_
  cases he.inFlight <;> simp_all

/-- Three steps for each message. -/
theorem Between.hops_le {e : Exchange V} (he : Between c init regs e) :
    e.hops ≤ 3 * e.heard.length + 2 := by
  unfold Exchange.hops
  cases he.inFlight <;> simp_all <;> omega

/-- There are runs of every length. -/
theorem exists_reach (h : Ready c init regs) {msg : Message (UserMessage V)}
    (hmsg : Sendable c init regs msg) (n : Nat) :
    ∃ e, (Exchange.machine c init).Reach (fun _ hop => Allowed c init regs hop) e ∧
      e.hops = n := by
  induction n with
  | zero => exact ⟨_, .start rfl, rfl⟩
  | succ n ih =>
    obtain ⟨e, he, hn⟩ := ih
    obtain ⟨hop, hallowed, hsome⟩ := (between_of_reach h he).isSome_next hmsg
    obtain ⟨e', hnext⟩ := Option.isSome_iff_exists.mp hsome
    exact ⟨e', .step he hallowed hnext, by rw [Exchange.hops_next hnext, hn]⟩

/-- In every run of the exchange, whatever the two actors say to each other, the
messages go back and forth between them; the exchange can always go on, and in a
run that goes on for ever every message is delivered. -/
theorem conversation (h : Ready c init regs) :
    (∀ e, (Exchange.machine c init).Reach (fun _ hop => Allowed c init regs hop) e →
      Stays c init e ∧ ((∃ msg, Sendable c init regs msg) →
        ∃ hop e', Allowed c init regs hop ∧ (Exchange.machine c init).step e hop e')) ∧
    ∀ (run : Nat → Exchange V) (hops : Nat → Hop V),
      (Exchange.machine c init).start (run 0) →
      (∀ n, Allowed c init regs (hops n) ∧
        (Exchange.machine c init).step (run n) (hops n) (run (n + 1))) →
      ∀ k, ∃ n, k < (run n).heard.length := by
  refine ⟨fun e he => ?_, fun run hops hstart hrun k => ?_⟩
  · have hb := between_of_reach h he
    refine ⟨hb.stays h, fun ⟨msg, hmsg⟩ => ?_⟩
    obtain ⟨hop, hallowed, hsome⟩ := hb.isSome_next hmsg
    obtain ⟨e', hnext⟩ := Option.isSome_iff_exists.mp hsome
    exact ⟨hop, e', hallowed, hnext⟩
  · have hreach : ∀ n, (Exchange.machine c init).Reach
        (fun _ hop => Allowed c init regs hop) (run n) ∧ (run n).hops = n := by
      intro n
      induction n with
      | zero => exact ⟨.start hstart, by rw [hstart]; rfl⟩
      | succ n ih =>
        obtain ⟨hallowed, hstep⟩ := hrun n
        exact ⟨.step ih.1 hallowed hstep, by rw [Exchange.hops_next hstep, ih.2]⟩
    have hle := (between_of_reach h (hreach (3 * k + 3)).1).hops_le
    rw [(hreach (3 * k + 3)).2] at hle
    exact ⟨3 * k + 3, by omega⟩

/-! ## Two processes -/

/-- A process with one actor and one message type. -/
def flagParty (name endpoint : String) : Party Unit where
  tables :=
    { registries := .ofRegistrations [(.user (), "Flag")]
      actors := (ActorRegistry.new.register name (.localRef ⟨5, name⟩)).2 }
  zmqSender := ⟨0, endpoint⟩
  actor := ⟨5, name⟩
  context := ActorContext.new.setSelfRef (.localRef ⟨5, name⟩)

def flagParties : Side → Party Unit
  | .a => flagParty "ping" "tcp://0.0.0.0:5002"
  | .b => flagParty "pong" "tcp://0.0.0.0:5001"

/-- The frame from `ping` to `pong`, as a text. -/
def pingText : String :=
  "\x7b\"message\":true,\"message_type\":\"Flag\",\"receiver\":\"pong\"," ++
    "\"sender_actor\":\"ping\",\"sender_endpoint\":\"tcp://0.0.0.0:5002\"\x7d"

/-- The frame from `pong` to `ping`, as a text. -/
def pongText : String :=
  "\x7b\"message\":true,\"message_type\":\"Flag\",\"receiver\":\"ping\"," ++
    "\"sender_actor\":\"pong\",\"sender_endpoint\":\"tcp://0.0.0.0:5001\"\x7d"

def flagSetting : Setting fun _ : Unit => Bool where
  json :=
    { toString := fun v =>
        if (v.index "receiver").asStr = some "pong" then pingText else pongText
      fromStr := fun text =>
        if text = pingText then some (frameFrom flagParties .a "Flag" (.bool true))
        else if text = pongText then
          some (frameFrom flagParties .b "Flag" (.bool true))
        else none }
  serde := flagSerde
  target := ⟨"pong", "tcp://localhost:5001", ⟨0, "tcp://0.0.0.0:5002"⟩⟩
  reaches endpoint :=
    if endpoint = "tcp://0.0.0.0:5002" then some .a
    else if endpoint = "tcp://0.0.0.0:5001" ∨ endpoint = "tcp://localhost:5001" then
      some .b
    else none

/-- `true` goes back and forth between `ping` and `pong` ten times. -/
theorem conversation_flag : ∃ e,
    (Exchange.machine flagSetting flagParties).Reach (fun _ hop =>
      Allowed flagSetting flagParties (fun _ => [(.user (), "Flag")]) hop) e ∧
    10 ≤ e.heard.length ∧ Stays flagSetting flagParties e := by
  have hready : Ready flagSetting flagParties fun _ => [(.user (), "Flag")] := by
    refine ⟨?_, fun reg => Iff.rfl, by decide, ?_, ?_, ?_, rfl, rfl, rfl⟩
    all_goals
      intro s
      cases s <;> rfl
  have hmsg : Sendable flagSetting flagParties (fun _ => [(.user (), "Flag")])
      (.user ⟨(), true⟩) := by
    refine ⟨.user (), "Flag", .bool true, by decide, rfl, rfl, ?_⟩
    intro s msgType hname
    cases s with
    | a =>
      obtain rfl : "Flag" = msgType := Option.some.inj hname
      rfl
    | b =>
      obtain rfl : "Flag" = msgType := Option.some.inj hname
      rfl
  obtain ⟨e, he, hhops⟩ := exists_reach hready hmsg 32
  have hle := (between_of_reach hready he).hops_le
  exact ⟨e, he, by omega, ((conversation hready).1 e he).1⟩

end Actors
