import Actors.Manager.Shutdown
import Actors.Remote.Ordering
import Actors.Remote.RoundTrip

/-!
# A remote reference without faults

When no socket fails, no frame is lost and the two processes know the messages that
are sent, a `RemoteActorRef` is as good as a local one.  The letters for one
endpoint form one line, from the actor back to the threads that send, and every
step moves a letter over one boundary of this line: what the mailbox has accepted,
followed by what is on its way, is what was sent (`Transport.Faithful`).  A frame on
its way is read as the message that it was written for, with a sender that stands
for the original one.

When nothing is left to do, the line is empty behind the actor.
-/

namespace Actors

open Concur

variable {τ : Type} {V : τ → Type}

/-- The letter goes to the endpoint. -/
def Link.goesTo (c : Link V) (endpoint : String) (l : Letter (UserMessage V)) : Bool :=
  (c.refs[l.via]?).map Prod.snd = some endpoint

/-- The letter as it arrives. -/
def Link.arrived (c : Link V) (l : Letter (UserMessage V)) : Letter (UserMessage V) :=
  let sender := arrivingSender c.zmqSender c.receiverSender l.envelope.sender
  { l with envelope := .new l.envelope.msg sender }

/-- Those of the letters that go to the endpoint. -/
def Link.lettersTo (c : Link V) (endpoint : String) (ls : List (Letter (UserMessage V))) :
    List (Letter (UserMessage V)) :=
  ls.filter (c.goesTo endpoint)

/-- Those of the letters that go to the endpoint, as they arrive. -/
def Link.arrivals (c : Link V) (endpoint : String) (ls : List (Letter (UserMessage V))) :
    List (Letter (UserMessage V)) :=
  (c.lettersTo endpoint ls).map c.arrived

variable [DecidableEq τ]

/-- The process of the receiver. -/
def receivingTables (receiving : List (RemoteType τ × String)) (actors : ActorRegistry) :
    Tables τ :=
  { registries := .ofRegistrations receiving, actors }

/-- The two processes.  Each has registered every name for one type, every
reference is to a name of the actor, and a socket that is connected for one of them
is connected to the receiver. -/
structure Wired (c : Link V) (sending receiving : List (RemoteType τ × String))
    (actors : ActorRegistry) : Prop where
  sending : Registries.OwnNames sending
  receiving : Registries.OwnNames receiving
  usable : actors.Usable
  known : ∀ x ∈ c.refs, ∃ name,
    actors.get x.1 = (.value (some (.localRef ⟨c.mailbox, name⟩)), actors)
  reaches : ∀ x ∈ c.refs, c.reaches (x.2.replace "tcp://*:" "tcp://localhost:") = true

/-- The receiving process knows the name under which the sending one writes the
message, and its value and the frame are read as they were written. -/
def Portable (c : Link V) (sending receiving : List (RemoteType τ × String))
    (receiver : String) (msg : Message (UserMessage V)) (sender : Option ActorRef) : Prop :=
  ∃ M msgType v, (Registries.ofRegistrations sending).nameOf M.typeId = some msgType ∧
    (M, msgType) ∈ receiving ∧ c.serde.encode msg = some v ∧
    c.serde.decode M v = some msg ∧
    c.json.RoundTrips (frame (c.zmqSender.senderInfo sender) receiver msgType v)

namespace Transport

/-- The two processes before anything is sent. -/
def wired (c : Link V) (sending receiving : List (RemoteType τ × String))
    (actors : ActorRegistry) (name : String) :
    Machine (Transport V) (TransportAction V) :=
  .ofNext (· = start c (.ofRegistrations sending) (receivingTables receiving actors) name)
    (next c)

/-- The step is no fault: what is sent can be read, the sockets take it and keep it,
and the receiver and the actor go on. -/
def Sound (c : Link V) (sending receiving : List (RemoteType τ × String))
    (s : Transport V) : TransportAction V → Prop
  | .send _ r msg sender => ∀ x ∈ c.refs[r]?, Portable c sending receiving x.1 msg sender
  | .take connects => connects = true
  | .transmit sends => sends = true
  | .other received =>
    (s.receiver.iterate c.json c.serde c.receiverSender received).status = .looping
  | .lose _ _ | .stop | .codePanic | .actorStop => False
  | .receive _ | .localSend _ _ | .actor | .codeReturn | .reply => True

/-- A step of the sender thread, of the receiver with a frame, or of the actor. -/
def works : TransportAction V → Bool
  | .take connects => connects
  | .transmit sends => sends
  | .receive _ | .actor | .codeReturn => true
  | _ => false

/-- The threads have nothing to do. -/
def AtRest (c : Link V) (s : Transport V) : Prop :=
  ∀ a, works a = true → s.next c a = none

/-- The letters on their way to an endpoint, the first to arrive first. -/
def way (s : Transport V) (endpoint : String) : List (Letter (UserMessage V)) :=
  underWay s.sockets endpoint ++ (s.hand.toList ++ s.requests).map Prod.snd

/-- The receiver reads the bytes as the letter. -/
def Reads (c : Link V) (t : Tables τ) (data : ByteArray)
    (l : Letter (UserMessage V)) : Prop :=
  handleMessage c.json c.serde c.receiverSender t [data] =
    (.value [.posted c.mailbox (c.arrived l).envelope], t)

/-- Nothing has gone wrong, and what the mailbox has accepted, with what is on its
way, is what was sent. -/
structure Faithful (c : Link V) (sending receiving : List (RemoteType τ × String))
    (actors : ActorRegistry) (s : Transport V) : Prop where
  registries : s.registries = .ofRegistrations sending
  receiver : s.receiver = (ReceiverThread.start (receivingTables receiving actors)).after
    s.receiver.effects
  alive : s.actor.Alive
  started : s.actor.pc ≠ .parked
  inOrder : s.actor.InOrder
  requests : ∀ x ∈ s.hand.toList ++ s.requests,
    Reads c (receivingTables receiving actors) x.1.data x.2
  connected : ∀ x ∈ s.hand, (s.sockets.lookup x.1.endpoint).isSome
  frames : ∀ endpoint socket, s.sockets.lookup endpoint = some socket →
    socket.connectEndpoint = endpoint.replace "tcp://*:" "tcp://localhost:" ∧
    ∀ p ∈ socket.frames, Reads c (receivingTables receiving actors) p.1 p.2
  line : ∀ endpoint, c.lettersTo endpoint s.actor.accepted ++
    c.arrivals endpoint (s.way endpoint) = c.arrivals endpoint s.sent

/-! ## Letters for one endpoint -/

section Letters

variable {c : Link V} {endpoint : String} {ls ls' : List (Letter (UserMessage V))}

omit [DecidableEq τ] in
@[simp] theorem lettersTo_append : c.lettersTo endpoint (ls ++ ls') =
    c.lettersTo endpoint ls ++ c.lettersTo endpoint ls' := List.filter_append ..

omit [DecidableEq τ] in
@[simp] theorem arrivals_append : c.arrivals endpoint (ls ++ ls') =
    c.arrivals endpoint ls ++ c.arrivals endpoint ls' := by
  simp [Link.arrivals]

omit [DecidableEq τ] in
@[simp] theorem arrivals_nil : c.arrivals endpoint [] = [] := rfl

omit [DecidableEq τ] in
/-- The letter arrives for the endpoint that it was sent to. -/
theorem lettersTo_arrived (l : Letter (UserMessage V)) :
    c.lettersTo endpoint [c.arrived l] = c.arrivals endpoint [l] := by
  have hsame : c.goesTo endpoint (c.arrived l) = c.goesTo endpoint l := rfl
  simp only [Link.arrivals, Link.lettersTo, List.filter_cons, List.filter_nil, hsame]
  split <;> rfl

omit [DecidableEq τ] in
/-- What came another way does not count. -/
theorem lettersTo_other {l : Letter (UserMessage V)} (h : l.via = c.refs.length) :
    c.lettersTo endpoint [l] = [] := by
  simp [Link.lettersTo, Link.goesTo, h]

omit [DecidableEq τ] in
theorem arrivals_of_ne {l : Letter (UserMessage V)} {other : String}
    (h : (c.refs[l.via]?).map Prod.snd = some other) (hne : endpoint ≠ other) :
    c.arrivals endpoint [l] = [] := by
  simp [Link.arrivals, Link.lettersTo, Link.goesTo, h, hne.symm]

end Letters

/-! ## The receiver -/

section Receiver

variable {c : Link V} {sending receiving : List (RemoteType τ × String)}
  {actors : ActorRegistry} {s : Transport V}

theorem receiver_hear (received : RecvResult)
    (letter : Envelope (UserMessage V) → Letter (UserMessage V)) :
    (s.hear c received letter).receiver =
      s.receiver.iterate c.json c.serde c.receiverSender received := by
  have hfold : ∀ (effects : List (Effect V)) (s : Transport V),
      (effects.foldl (post c letter) s).receiver = s.receiver := by
    intro effects
    induction effects with
    | nil => exact fun _ => rfl
    | cons effect effects ih =>
      intro s
      rw [List.foldl_cons, ih]
      unfold post
      split
      · split <;> rfl
      · rfl
  rw [hear, hfold]

/-- A turn of the loop after which the receiver goes on adds to what it has sent. -/
theorem iterate_of_looping (hw : Wired c sending receiving actors)
    {r : ReceiverThread V}
    (hr : r = (ReceiverThread.start (receivingTables receiving actors)).after r.effects)
    {received : RecvResult}
    (h : (r.iterate c.json c.serde c.receiverSender received).status = .looping) :
    ∃ effects, r.iterate c.json c.serde c.receiverSender received =
      (ReceiverThread.start (receivingTables receiving actors)).after effects := by
  have husable : (receivingTables receiving actors).Usable :=
    ⟨(Registries.records_ofRegistrations receiving).usable, hw.usable⟩
  cases received with
  | timeout =>
    refine ⟨r.effects, Eq.trans ?_ hr⟩
    rw [hr]
    simp [ReceiverThread.iterate, ReceiverThread.after, ReceiverThread.start]
  | socketError =>
    rw [hr] at h
    simp [ReceiverThread.iterate, ReceiverThread.after, ReceiverThread.start] at h
  | message msg =>
    by_cases hsafe : (receivingTables receiving actors).Safe c.json c.serde msg
    · have hiterate : ∃ more, ((ReceiverThread.start (receivingTables receiving
          actors)).after r.effects).iterate c.json c.serde c.receiverSender (.message msg) =
            (ReceiverThread.start (receivingTables receiving actors)).after
              (r.effects ++ more) := ReceiverThread.iterate_safe husable hsafe r.effects
      obtain ⟨more, hmore⟩ := hiterate
      exact ⟨r.effects ++ more, by rw [← hmore, ← hr]⟩
    · have hends := ReceiverThread.iterate_unsafe hsafe c.receiverSender
      rw [hr, ReceiverThread.iterate_after] at h
      exact absurd h hends

/-- A frame that is read as a letter puts the letter into the mailbox. -/
theorem hear_of_reads {data : ByteArray} {l : Letter (UserMessage V)}
    (hreads : Reads c (receivingTables receiving actors) data l)
    (hr : s.receiver = (ReceiverThread.start (receivingTables receiving actors)).after
      s.receiver.effects) :
    s.hear c (.message [data]) (fun envelope => { l with envelope }) = { s with
      receiver := (ReceiverThread.start (receivingTables receiving actors)).after
        (s.receiver.effects ++ [.posted c.mailbox (c.arrived l).envelope])
      actor := s.actor.deliver (c.arrived l) } := by
  have hiterate : s.receiver.iterate c.json c.serde c.receiverSender (.message [data]) =
      (ReceiverThread.start (receivingTables receiving actors)).after
        (s.receiver.effects ++ [.posted c.mailbox (c.arrived l).envelope]) := by
    rw [hr]
    simp only [ReceiverThread.iterate, ReceiverThread.after, ReceiverThread.start,
      if_true, List.append_nil]
    rw [hreads]
  rw [hear, hiterate]
  have hdrop : (((ReceiverThread.start (receivingTables receiving actors)).after
      (s.receiver.effects ++ [.posted c.mailbox (c.arrived l).envelope])).effects.drop
        s.receiver.effects.length) = [.posted c.mailbox (c.arrived l).envelope] := by
    simp [ReceiverThread.after, ReceiverThread.start]
  rw [hdrop]
  simp only [List.foldl_cons, List.foldl_nil, post, if_true]
  rfl

end Receiver

/-! ## One step -/

section Steps

variable {c : Link V} {sending receiving : List (RemoteType τ × String)}
  {actors : ActorRegistry} {s : Transport V}

omit [DecidableEq τ] in
theorem accepted_of_move {k : Nat} {a a' : Runtime (UserMessage V)}
    {events : List LifeEvent} (hmove : Runtime.Move k a a' events) :
    a'.accepted = a.accepted := by
  cases hmove <;> rfl

/-- A letter that came another way gets into the mailbox. -/
theorem Faithful.outside (h : s.Faithful c sending receiving actors)
    {l : Letter (UserMessage V)} (hvia : l.via = c.refs.length) (effects : List (Effect V)) :
    Faithful c sending receiving actors { s with
      receiver := (ReceiverThread.start (receivingTables receiving actors)).after effects
      actor := s.actor.accept l } where
  registries := h.registries
  receiver := by simp [ReceiverThread.after, ReceiverThread.start]
  alive := ⟨h.alive.running, h.alive.holds, h.alive.inLoop⟩
  started := h.started
  inOrder := h.inOrder.accept h.alive.inLoop.2 l
  requests := h.requests
  connected := h.connected
  frames := h.frames
  line endpoint := by
    have hold := h.line endpoint
    simp only [Runtime.accept, lettersTo_append, lettersTo_other hvia, List.append_nil]
    exact hold

/-- The thread of the actor goes on. -/
theorem Faithful.actor (h : s.Faithful c sending receiving actors)
    {a : Runtime (UserMessage V)} {events : List LifeEvent}
    (hmove : Runtime.Move c.mailbox s.actor a events) :
    Faithful c sending receiving actors { s with actor := a } where
  registries := h.registries
  receiver := h.receiver
  alive := h.alive.move hmove
  started := by cases hmove <;> simp [Runtime.finish]
  inOrder := h.inOrder.move hmove
  requests := h.requests
  connected := h.connected
  frames := h.frames
  line endpoint := by
    have hold := h.line endpoint
    rw [← accepted_of_move hmove] at hold
    exact hold

theorem Faithful.take (h : s.Faithful c sending receiving actors) {s' : Transport V}
    (htake : s.take true = some s') : s'.Faithful c sending receiving actors := by
  unfold Transport.take at htake
  split at htake
  · rename_i request l rest hhand hrequests
    rw [Option.some.injEq] at htake
    subst htake
    have hrequest := h.requests
    rw [hhand, hrequests] at hrequest
    have hline := h.line
    simp only [way, hhand, hrequests] at hline
    cases hsocket : s.sockets.lookup request.endpoint with
    | some socket =>
      refine { h with requests := ?_, connected := ?_, frames := ?_, line := ?_ }
      · exact hrequest
      · rintro x ⟨⟩
        simp [hsocket]
      · simpa [hsocket] using h.frames
      · simpa [hsocket, way] using hline
    | none =>
      refine { h with requests := ?_, connected := ?_, frames := ?_, line := ?_ }
      · exact hrequest
      · rintro x ⟨⟩
        simp
      · intro endpoint socket hlookup
        simp only [Option.isNone_none, Bool.and_true, if_true] at hlookup
        by_cases he : endpoint = request.endpoint
        · subst he
          rw [AList.lookup_insert, Option.some.injEq] at hlookup
          subst hlookup
          exact ⟨rfl, by simp⟩
        · rw [AList.lookup_insert_ne he] at hlookup
          exact h.frames endpoint socket hlookup
      · intro endpoint
        have hway := underWay_connect hsocket
          (request.endpoint.replace "tcp://*:" "tcp://localhost:") endpoint
        simp only [way, Option.isNone_none, Bool.and_true, if_true, hway]
        exact hline endpoint
  · simp at htake

theorem Faithful.transmit (h : s.Faithful c sending receiving actors)
    (hrouted : s.Routed c) {s' : Transport V} (htransmit : s.transmit true = some s') :
    s'.Faithful c sending receiving actors := by
  unfold Transport.transmit at htransmit
  split at htransmit
  · simp at htransmit
  · rename_i request l hhand
    have hroute : (c.refs[l.via]?).map Prod.snd = some request.endpoint :=
      hrouted.requests (request, l) (by simp [hhand])
    have hconnected := h.connected (request, l) (by simp [hhand])
    obtain ⟨socket, hsocket⟩ := Option.isSome_iff_exists.mp hconnected
    simp only [hsocket, if_true, Option.some.injEq] at htransmit
    subst htransmit
    obtain ⟨hconnect, hreads⟩ := h.frames _ _ hsocket
    have hread := h.requests (request, l) (by simp [hhand])
    refine { h with requests := ?_, connected := nofun, frames := ?_, line := ?_ }
    · exact fun x hx => h.requests x (List.mem_append_right _ hx)
    · intro endpoint socket' hlookup
      by_cases he : endpoint = request.endpoint
      · subst he
        rw [AList.lookup_insert, Option.some.injEq] at hlookup
        subst hlookup
        exact ⟨hconnect, forall_mem_snoc hreads hread⟩
      · rw [AList.lookup_insert_ne he] at hlookup
        exact h.frames endpoint socket' hlookup
    · intro endpoint
      have hold := h.line endpoint
      simp only [way, hhand, Option.toList_some, List.map_append, List.map_singleton,
        arrivals_append] at hold
      simp only [way, underWay_insert, Option.toList_none, List.nil_append, arrivals_append]
      by_cases he : endpoint = request.endpoint
      · rw [if_pos he, List.map_append, List.map_singleton, arrivals_append,
          ← underWay_eq hsocket, ← he, List.append_assoc]
        exact hold
      · rw [arrivals_of_ne hroute he, List.nil_append] at hold
        rw [if_neg he]
        exact hold

theorem Faithful.receive (h : s.Faithful c sending receiving actors)
    (hrouted : s.Routed c) {endpoint : String} {s' : Transport V}
    (hreceive : s.receive c endpoint = some s') :
    s'.Faithful c sending receiving actors := by
  unfold Transport.receive at hreceive
  split at hreceive
  · simp at hreceive
  · rename_i socket hsocket
    split at hreceive
    · simp at hreceive
    · rename_i data l rest hframes
      split at hreceive
      · obtain ⟨hconnect, hreads⟩ := h.frames _ _ hsocket
        have hread : Reads c (receivingTables receiving actors) data l :=
          hreads (data, l) (by simp [hframes])
        have hhear := hear_of_reads (s := { s with
          sockets := s.sockets.insert endpoint { socket with frames := rest } })
          hread h.receiver
        rw [Option.some.injEq] at hreceive
        rw [hhear, h.alive.deliver] at hreceive
        subst hreceive
        have hroute := hrouted.frames endpoint l (by simp [underWay_eq hsocket, hframes])
        refine { h with
          receiver := by simp [ReceiverThread.after, ReceiverThread.start]
          alive := ⟨h.alive.running, h.alive.holds, h.alive.inLoop⟩
          inOrder := h.inOrder.accept h.alive.inLoop.2 _
          started := h.started, connected := ?_, frames := ?_, line := ?_ }
        · intro x hx
          rw [AList.lookup_isSome, AList.mem_insert]
          exact Or.inr (AList.lookup_isSome.mp (h.connected x hx))
        · intro e socket' hlookup
          by_cases he : e = endpoint
          · subst he
            rw [AList.lookup_insert, Option.some.injEq] at hlookup
            subst hlookup
            exact ⟨hconnect, fun p hp => hreads p (hframes ▸ List.mem_cons_of_mem _ hp)⟩
          · rw [AList.lookup_insert_ne he] at hlookup
            exact h.frames e socket' hlookup
        · intro e
          have hold := h.line e
          simp only [way, underWay_insert, Runtime.accept, lettersTo_append,
            lettersTo_arrived, arrivals_append] at hold ⊢
          by_cases he : e = endpoint
          · rw [he, underWay_eq hsocket, hframes, List.map_cons,
              ← List.singleton_append, arrivals_append] at hold
            rw [if_pos he, he]
            simpa only [List.append_assoc] using hold
          · rw [if_neg he, arrivals_of_ne hroute he, List.append_nil]
            exact hold
      · simp at hreceive

theorem Faithful.send (hw : Wired c sending receiving actors)
    (h : s.Faithful c sending receiving actors) {t : ThreadId} {r : Nat}
    {msg : Message (UserMessage V)} {sender : Option ActorRef}
    (hsound : ∀ x ∈ c.refs[r]?, Portable c sending receiving x.1 msg sender)
    {s' : Transport V} (hsend : s.send c t r msg sender = some s') :
    s'.Faithful c sending receiving actors := by
  unfold Transport.send at hsend
  split at hsend
  · simp at hsend
  · rename_i name endpoint hr
    obtain ⟨M, msgType, v, hname, hmem, hencode, hdecode, htext⟩ := hsound _ hr
    obtain ⟨_, hactor⟩ := hw.known _ (List.mem_of_getElem? hr)
    obtain ⟨data, hdata, hread⟩ := handleMessage_sendTo c.json c.serde hw.sending
      hw.receiving hname hmem hencode hdecode hactor c.zmqSender c.receiverSender endpoint
      sender htext
    simp only [ZmqSender.remoteRef, h.registries, hdata, Option.some.injEq] at hsend
    subst hsend
    refine { h with registries := rfl, requests := ?_, line := ?_ }
    · rw [← List.append_assoc]
      exact forall_mem_snoc h.requests hread
    · intro e
      have hold := h.line e
      simp only [way, List.map_append, List.map_singleton, arrivals_append] at hold ⊢
      rw [← hold]
      simp only [List.append_assoc]

theorem faithful_start (name : String) :
    Faithful c sending receiving actors
      (start c (.ofRegistrations sending) (receivingTables receiving actors) name) where
  registries := rfl
  receiver := rfl
  alive := ⟨rfl, by simp [start, Runtime.new], by simp [start], rfl⟩
  started := by simp [start]
  inOrder := ⟨List.prefix_refl _, fun _ => rfl⟩
  requests := by simp [start]
  connected := by simp [start]
  frames := by simp [start]
  line endpoint := by simp [start, way, underWay, Runtime.new, Link.lettersTo, Link.arrivals]

theorem faithful_next (hw : Wired c sending receiving actors)
    (h : s.Faithful c sending receiving actors) (hrouted : s.Routed c)
    {a : TransportAction V} (hsound : s.Sound c sending receiving a) {s' : Transport V}
    (hnext : s.next c a = some s') : s'.Faithful c sending receiving actors := by
  cases a with
  | send t r msg sender => exact h.send hw hsound hnext
  | take connects =>
    obtain rfl : connects = true := hsound
    exact h.take hnext
  | transmit sends =>
    obtain rfl : sends = true := hsound
    exact h.transmit hrouted hnext
  | receive endpoint => exact h.receive hrouted hnext
  | lose endpoint k | stop | codePanic | actorStop => exact hsound.elim
  | other received =>
    rw [next, Option.some.injEq] at hnext
    obtain ⟨receiver, actor, heq, hactor⟩ :=
      hear_eq c s received (s.stranger c (.client 0))
    obtain ⟨effects, hiterate⟩ := iterate_of_looping hw h.receiver hsound
    have hreceiver : receiver = (ReceiverThread.start (receivingTables receiving
        actors)).after effects := by
      rw [← hiterate, ← receiver_hear received (s.stranger c (.client 0)), heq]
    rw [heq, hreceiver] at hnext
    subst hnext
    rcases hactor with rfl | ⟨envelope, rfl⟩
    · exact { h with receiver := by simp [ReceiverThread.after, ReceiverThread.start] }
    · exact h.outside rfl effects
  | localSend t envelope =>
    rw [next, Option.some.injEq] at hnext
    subst hnext
    rw [h.alive.deliver]
    have houtside := h.outside (l := s.stranger c t envelope) rfl s.receiver.effects
    rwa [← h.receiver] at houtside
  | actor =>
    obtain ⟨x, hx, rfl⟩ := Option.map_eq_some_iff.mp hnext
    exact h.actor (Runtime.move_of_runStep hx)
  | codeReturn =>
    obtain ⟨x, hx, rfl⟩ := Option.map_eq_some_iff.mp hnext
    exact h.actor (Runtime.move_of_codeReturn hx)
  | reply =>
    rw [next, Option.some.injEq] at hnext
    subst hnext
    exact { h with
      alive := ⟨h.alive.running, h.alive.holds, h.alive.inLoop⟩
      inOrder := h.inOrder.frame rfl rfl fun hlive => ⟨hlive, rfl⟩ }

end Steps

/-! ## What is left to do -/

section Left

variable {c : Link V} {sending receiving : List (RemoteType τ × String)}
  {actors : ActorRegistry} {s s' : Transport V}

/-- The frames in the sockets. -/
def afloat (s : Transport V) : Nat :=
  (s.sockets.values.map fun socket => socket.frames.length).sum

/-- How many steps the threads have still to take when nothing more is sent. -/
def left (s : Transport V) : Nat :=
  3 * s.requests.length + 2 * s.hand.toList.length + s.afloat + s.actor.work

/-- What there was to do up to now. -/
def supply (s : Transport V) : Nat := 3 * s.sent.length + 3 * s.actor.accepted.length

omit [DecidableEq τ] in
theorem work_of_move {k : Nat} {a a' : Runtime (UserMessage V)} {events : List LifeEvent}
    (h : a.Alive) (hmove : Runtime.Move k a a' events) : a'.work + 1 ≤ a.work := by
  cases hmove with
  | recv l rest hpc hbox =>
    simp only [Runtime.work, hpc, hbox, List.length_cons]
    omega
  | leave hpc hrun =>
    rw [h.running] at hrun
    simp at hrun
  | closed hpc hbox hsenders =>
    have hholds := h.holds
    rw [hsenders] at hholds
    simp at hholds
  | endReturn hpc => exact absurd hpc h.inLoop.1
  | begin hpc | initReturn hpc | goOn hpc | processReturn l hpc =>
    simp only [Runtime.work, hpc]
    omega

omit [DecidableEq τ] in
theorem work_accept (a : Runtime (UserMessage V)) (l : Letter (UserMessage V)) :
    (a.accept l).work = a.work + 3 := by
  simp only [Runtime.work, Runtime.accept, List.length_append, List.length_singleton]
  omega

omit [DecidableEq τ] in
theorem left_take (htake : s.take true = some s') :
    s'.left + 1 = s.left ∧ s'.supply = s.supply := by
  unfold Transport.take at htake
  split at htake
  · rename_i request l rest hhand hrequests
    rw [Option.some.injEq] at htake
    subst htake
    refine ⟨?_, rfl⟩
    cases hsocket : s.sockets.lookup request.endpoint with
    | some socket =>
      simp only [left, afloat, hhand, hrequests, Option.isNone_some, Bool.false_and,
        Bool.false_eq_true, if_false, Option.toList_some, Option.toList_none,
        List.length_cons, List.length_nil]
      omega
    | none =>
      have hsum := HashMap.sum_values_insert_new hsocket
        (fun socket : PushSocket V => socket.frames.length)
        { connectEndpoint := request.endpoint.replace "tcp://*:" "tcp://localhost:"
          frames := [] }
      simp only [left, afloat, hhand, hrequests, Option.isNone_none, Bool.true_and,
        if_true, hsum, Option.toList_some, Option.toList_none, List.length_cons,
        List.length_nil]
      omega
  · simp at htake

omit [DecidableEq τ] in
theorem left_transmit (hconnected : ∀ x ∈ s.hand, (s.sockets.lookup x.1.endpoint).isSome)
    (htransmit : s.transmit true = some s') :
    s'.left + 1 = s.left ∧ s'.supply = s.supply := by
  unfold Transport.transmit at htransmit
  split at htransmit
  · simp at htransmit
  · rename_i request l hhand
    obtain ⟨socket, hsocket⟩ :=
      Option.isSome_iff_exists.mp (hconnected (request, l) (by simp [hhand]))
    simp only [hsocket, if_true, Option.some.injEq] at htransmit
    subst htransmit
    have hsum := HashMap.sum_values_insert hsocket
      (fun socket : PushSocket V => socket.frames.length)
      { socket with frames := socket.frames ++ [(request.data, l)] }
    simp only [List.length_append, List.length_singleton] at hsum
    refine ⟨?_, rfl⟩
    simp only [left, afloat, hhand, Option.toList_some, Option.toList_none,
      List.length_singleton, List.length_nil]
    omega

theorem left_receive (h : s.Faithful c sending receiving actors) {endpoint : String}
    (hreceive : s.receive c endpoint = some s') :
    s'.left + s.supply + 1 = s.left + s'.supply := by
  unfold Transport.receive at hreceive
  split at hreceive
  · simp at hreceive
  · rename_i socket hsocket
    split at hreceive
    · simp at hreceive
    · rename_i data l rest hframes
      split at hreceive
      · obtain ⟨-, hreads⟩ := h.frames _ _ hsocket
        have hread : Reads c (receivingTables receiving actors) data l :=
          hreads (data, l) (by simp [hframes])
        have hhear := hear_of_reads (s := { s with
          sockets := s.sockets.insert endpoint { socket with frames := rest } })
          hread h.receiver
        rw [Option.some.injEq] at hreceive
        rw [hhear, h.alive.deliver] at hreceive
        subst hreceive
        have hsum := HashMap.sum_values_insert hsocket
          (fun socket : PushSocket V => socket.frames.length)
          { socket with frames := rest }
        simp only [hframes, List.length_cons] at hsum
        have hwork := work_accept s.actor (c.arrived l)
        have haccepted : (s.actor.accept (c.arrived l)).accepted.length =
            s.actor.accepted.length + 1 := by simp [Runtime.accept]
        simp only [left, afloat, supply, haccepted, hwork]
        omega
      · simp at hreceive

/-- A step of the threads leaves less to do. -/
theorem left_next (h : s.Faithful c sending receiving actors) {a : TransportAction V}
    (hsound : s.Sound c sending receiving a) (hnext : s.next c a = some s') :
    s'.left + s.supply + (if works a then 1 else 0) ≤ s.left + s'.supply := by
  have hoff : ∀ (actor : Runtime (UserMessage V)) (receiver : ReceiverThread V)
      (l : Letter (UserMessage V)), actor = s.actor ∨ actor = s.actor.accept l →
      (left { s with receiver, actor }) + s.supply = s.left +
        supply { s with receiver, actor } := by
    rintro actor receiver l (rfl | rfl)
    · rfl
    · have hwork := work_accept s.actor l
      have haccepted : (s.actor.accept l).accepted.length =
          s.actor.accepted.length + 1 := by simp [Runtime.accept]
      simp only [left, afloat, supply, haccepted, hwork]
      omega
  cases a with
  | send t r msg sender =>
    rw [next, Transport.send] at hnext
    split at hnext
    · simp at hnext
    · dsimp only at hnext
      split at hnext <;> rw [Option.some.injEq] at hnext <;> subst hnext
      · simp only [left, afloat, supply, works, Bool.false_eq_true, if_false,
          List.length_append, List.length_singleton]
        omega
      · exact Nat.le_refl _
  | take connects =>
    obtain rfl : connects = true := hsound
    obtain ⟨hleft, hsupply⟩ := left_take hnext
    rw [hsupply, ← hleft, works, if_pos rfl]
    omega
  | transmit sends =>
    obtain rfl : sends = true := hsound
    obtain ⟨hleft, hsupply⟩ := left_transmit h.connected hnext
    rw [hsupply, ← hleft, works, if_pos rfl]
    omega
  | receive endpoint => exact Nat.le_of_eq (left_receive h hnext)
  | lose endpoint k | stop | codePanic | actorStop => exact hsound.elim
  | other received =>
    rw [next, Option.some.injEq] at hnext
    obtain ⟨receiver, actor, heq, hactor⟩ :=
      hear_eq c s received (s.stranger c (.client 0))
    rw [heq] at hnext
    subst hnext
    rcases hactor with hactor | ⟨envelope, hactor⟩
    · rw [hactor]
      exact Nat.le_refl _
    · exact Nat.le_of_eq (hoff actor receiver _ (Or.inr hactor))
  | localSend t envelope =>
    rw [next, Option.some.injEq] at hnext
    subst hnext
    exact Nat.le_of_eq (hoff _ s.receiver _ (Or.inr (h.alive.deliver _)))
  | actor =>
    obtain ⟨x, hx, rfl⟩ := Option.map_eq_some_iff.mp hnext
    have hmove := Runtime.move_of_runStep hx
    have hwork := work_of_move h.alive hmove
    have haccepted := accepted_of_move hmove
    simp only [left, afloat, supply, haccepted, works, if_true]
    omega
  | codeReturn =>
    obtain ⟨x, hx, rfl⟩ := Option.map_eq_some_iff.mp hnext
    have hmove := Runtime.move_of_codeReturn (k := c.mailbox) hx
    have hwork := work_of_move h.alive hmove
    have haccepted := accepted_of_move hmove
    simp only [left, afloat, supply, haccepted, works, if_true]
    omega
  | reply =>
    rw [next, Option.some.injEq] at hnext
    subst hnext
    exact Nat.le_refl _

end Left

/-! ## A whole run -/

section Runs

variable {c : Link V} {sending receiving : List (RemoteType τ × String)}
  {actors : ActorRegistry} {name : String} {s : Transport V}

theorem faithful (hw : Wired c sending receiving actors)
    (h : (wired c sending receiving actors name).Reach (Sound c sending receiving) s) :
    s.Orderly c ∧ s.Faithful c sending receiving actors := by
  refine h.invariant (I := fun s => s.Orderly c ∧
    s.Faithful c sending receiving actors) ?_ ?_
  · rintro s rfl
    exact ⟨orderly (.start ⟨_, _, _, rfl⟩), faithful_start name⟩
  · rintro s a s' - ⟨horderly, hs⟩ hsound hnext
    exact ⟨orderly_next horderly hnext, faithful_next hw hs horderly.routed hsound hnext⟩

/-- Nothing is on its way to an actor that has nothing to do. -/
theorem AtRest.idle (hw : Wired c sending receiving actors)
    (hrouted : s.Routed c) (h : s.Faithful c sending receiving actors)
    (hrest : s.AtRest c) : s.actor.mailbox = [] ∧ ∀ endpoint, s.way endpoint = [] := by
  have hhand : s.hand = none := by
    by_contra hhand
    obtain ⟨⟨request, l⟩, hhand⟩ := Option.ne_none_iff_exists'.mp hhand
    have hstuck := hrest (.transmit true) rfl
    simp only [next, Transport.transmit, hhand, if_true] at hstuck
    split at hstuck <;> simp at hstuck
  have hrequests : s.requests = [] := by
    by_contra hrequests
    obtain ⟨⟨request, l⟩, rest, hrequests⟩ := List.exists_cons_of_ne_nil hrequests
    have hstuck := hrest (.take true) rfl
    simp [next, Transport.take, hhand, hrequests] at hstuck
  have hframes : ∀ endpoint, underWay s.sockets endpoint = [] := by
    intro endpoint
    by_contra hway
    cases hsocket : s.sockets.lookup endpoint with
    | none => exact hway (by simp [underWay, hsocket])
    | some socket =>
      obtain ⟨l, rest, hletters⟩ := List.exists_cons_of_ne_nil hway
      have hroute := hrouted.frames endpoint l (by simp [hletters])
      rw [underWay_eq hsocket] at hletters
      obtain ⟨⟨data, l'⟩, frames, hframes, -, -⟩ := List.map_eq_cons_iff.mp hletters
      obtain ⟨x, hx, hend⟩ := Option.map_eq_some_iff.mp hroute
      have hreaches := hw.reaches x (List.mem_of_getElem? hx)
      rw [hend, ← (h.frames _ _ hsocket).1] at hreaches
      have hlooping : s.receiver.status = .looping ∧ s.receiver.running = true := by
        rw [h.receiver]
        exact ⟨rfl, rfl⟩
      have hstuck := hrest (.receive endpoint) rfl
      simp [next, Transport.receive, hsocket, hframes, hreaches, hlooping] at hstuck
  have hwaiting : s.actor.Waiting := by
    by_contra hbusy
    obtain ⟨a, events, hrun | hreturn, -, -, -⟩ :=
      h.alive.exists_work_lt c.mailbox h.started hbusy
    · have hstuck := hrest .actor rfl
      simp [next, hrun] at hstuck
    · have hstuck := hrest .codeReturn rfl
      simp [next, hreturn] at hstuck
  exact ⟨hwaiting.2, fun endpoint => by simp [way, hframes, hhand, hrequests]⟩

/-- Nothing can be done when nothing is on its way and the actor waits. -/
theorem atRest_of_idle (h : s.actor.Waiting) (hsenders : s.actor.senders ≠ [])
    (hrequests : s.requests = []) (hhand : s.hand = none)
    (hframes : ∀ endpoint, underWay s.sockets endpoint = []) : s.AtRest c := by
  intro a ha
  cases a with
  | take connects => simp [next, Transport.take, hhand, hrequests]
  | transmit sends => simp [next, Transport.transmit, hhand]
  | receive endpoint =>
    have hway := hframes endpoint
    cases hsocket : s.sockets.lookup endpoint with
    | none => simp [next, Transport.receive, hsocket]
    | some socket =>
      rw [underWay_eq hsocket, List.map_eq_nil_iff] at hway
      simp [next, Transport.receive, hsocket, hway]
  | actor => simp [next, Runtime.runStep, h.1, h.2, hsenders]
  | codeReturn => simp [next, Runtime.codeReturn, h.1]
  | send | lose | other | stop | localSend | codePanic | reply | actorStop =>
    simp [works] at ha

end Runs

/-! One message, from the call of `send` to the return of the handler. -/

def flagRegistrations : List (RemoteType Unit × String) :=
  [(.user (), "Flag"), (.reject, "Reject")]

theorem wired_flagLink : Wired flagLink flagRegistrations flagRegistrations
    flagTables.actors where
  sending := by decide
  receiving := by decide
  usable := rfl
  known := by
    intro x hx
    obtain rfl := List.mem_singleton.mp hx
    exact ⟨"b", rfl⟩
  reaches _ _ := rfl

theorem portable_flag : Portable flagLink flagRegistrations flagRegistrations "b"
    (.user ⟨(), true⟩) none :=
  ⟨.user (), "Flag", .bool true, rfl, by decide, rfl, rfl, JsonText.roundTrips_ofPair _ _⟩

/-- The request of the message. -/
def flagRequest : SendRequest × Letter (UserMessage fun _ : Unit => Bool) :=
  ({ endpoint := "tcp://localhost:5001", data := flagText.toUTF8 }, flagLetter 0)

/-- The message is in the queue of the sender thread. -/
def flagQueued : Transport fun _ : Unit => Bool :=
  { flagStart with requests := [flagRequest], sent := [flagLetter 0] }

/-- The sender thread has taken it. -/
def flagHeld : Transport fun _ : Unit => Bool :=
  { flagUnderWay [flagLetter 0] [] with hand := some flagRequest }

end Transport

end Actors
