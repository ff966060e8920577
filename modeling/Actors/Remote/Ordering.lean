import Actors.Lib.Lists
import Actors.Remote.Transport

/-!
# Remote messages arrive in order

What one thread has sent through one reference is spread over the queues on the
way to the actor.  All of it uses the same socket, because the socket is chosen by
the endpoint of the reference.  So the way is one line: read from the actor back
to the sender, the numbers of these letters are a sublist of the numbers sent
(`Transport.InLine`).  Every step moves a letter over one boundary of this line or
drops it.
-/

namespace Actors

open Concur

variable {τ : Type} {V : τ → Type} {μ : Type}

/-- The numbers of the letters that thread `t` has sent through reference `r`. -/
def lineIds (t : ThreadId) (r : Nat) (ls : List (Letter μ)) : List Nat :=
  (ls.filter fun l => l.author = t ∧ l.via = r).map Letter.id

section LineIds

variable {t : ThreadId} {r : Nat}

@[simp] theorem lineIds_nil : lineIds t r ([] : List (Letter μ)) = [] := rfl

@[simp] theorem lineIds_append (ls ls' : List (Letter μ)) :
    lineIds t r (ls ++ ls') = lineIds t r ls ++ lineIds t r ls' := by
  simp [lineIds]

theorem lineIds_cons (l : Letter μ) (ls : List (Letter μ)) :
    lineIds t r (l :: ls) = lineIds t r [l] ++ lineIds t r ls :=
  lineIds_append [l] ls

/-- A letter that came another way. -/
theorem lineIds_other {l : Letter μ} (h : l.via ≠ r) : lineIds t r [l] = [] := by
  simp [lineIds, h]

/-- What a letter carries does not matter. -/
theorem lineIds_envelope (l : Letter μ) (envelope : Envelope μ) :
    lineIds t r [{ l with envelope }] = lineIds t r [l] := by
  by_cases h : l.author = t ∧ l.via = r <;> simp [lineIds, h]

theorem lineIds_sublist {ls ls' : List (Letter μ)} (h : ls.Sublist ls') :
    (lineIds t r ls).Sublist (lineIds t r ls') :=
  (h.filter _).map _

end LineIds

namespace Transport

/-- The letters of the frames under way to an endpoint. -/
def underWay (sockets : HashMap String (PushSocket V)) (endpoint : String) :
    List (Letter (UserMessage V)) :=
  ((sockets.lookup endpoint).map fun socket => socket.frames.map Prod.snd).getD []

/-- A request goes to the endpoint of its reference, and a frame is in the socket
for this endpoint. -/
structure Routed (c : Link V) (s : Transport V) : Prop where
  requests : ∀ x ∈ s.hand.toList ++ s.requests,
    (c.refs[x.2.via]?).map Prod.snd = some x.1.endpoint
  frames : ∀ endpoint, ∀ l ∈ underWay s.sockets endpoint,
    (c.refs[l.via]?).map Prod.snd = some endpoint

/-- The numbers of the letters that thread `t` has sent through reference `r`,
from the actor back to the sender. -/
def line (s : Transport V) (t : ThreadId) (r : Nat) (endpoint : String) : List Nat :=
  lineIds t r (s.actor.handed.map ProcessCall.letter) ++
    (lineIds t r s.actor.mailbox ++ (lineIds t r (underWay s.sockets endpoint) ++
      (lineIds t r (s.hand.toList.map Prod.snd) ++
        lineIds t r (s.requests.map Prod.snd))))

/-- The letters of a line are in the order in which they were sent. -/
def InLine (c : Link V) (s : Transport V) : Prop :=
  ∀ t r name endpoint, c.refs[r]? = some (name, endpoint) →
    (s.line t r endpoint).Sublist (lineIds t r s.sent)

/-! ## The sockets -/

section Sockets

variable {sockets : HashMap String (PushSocket V)} {endpoint other : String}
  {socket : PushSocket V}

theorem underWay_eq (h : sockets.lookup endpoint = some socket) :
    underWay sockets endpoint = socket.frames.map Prod.snd := by
  simp [underWay, h]

theorem underWay_insert : underWay (sockets.insert endpoint socket) other =
    if other = endpoint then socket.frames.map Prod.snd
    else underWay sockets other := by
  by_cases h : other = endpoint
  · subst h
    simp [underWay]
  · simp [underWay, h, AList.lookup_insert_ne h]

end Sockets

/-! ## What a frame brings -/

section Hear

variable [DecidableEq τ]

/-- A turn of the receiver loop has at most one effect. -/
theorem exists_effects (json : JsonText) (serde : Serde V) (zmqSender : ZmqSender)
    (r : ReceiverThread V) (received : RecvResult) :
    ∃ more, (r.iterate json serde zmqSender received).effects = r.effects ++ more ∧
      more.length ≤ 1 := by
  have hsame : ∃ more, r.effects = r.effects ++ more ∧ more.length ≤ 1 :=
    ⟨[], (List.append_nil _).symm, Nat.zero_le 1⟩
  unfold ReceiverThread.iterate
  split
  · split
    · split
      · rename_i msg
        split
        · rename_i effects tables hhandle
          exact ⟨effects, rfl, length_le_of_handleMessage hhandle⟩
        · exact hsame
      · exact hsame
      · exact hsame
    · exact hsame
  · exact hsame

/-- A turn of the receiver loop leaves the mailbox as it was, or it puts one
letter into it. -/
theorem hear_eq (c : Link V) (s : Transport V) (received : RecvResult)
    (letter : Envelope (UserMessage V) → Letter (UserMessage V)) :
    ∃ receiver actor, s.hear c received letter = { s with receiver, actor } ∧
      (actor = s.actor ∨ ∃ envelope, actor = s.actor.accept (letter envelope)) := by
  obtain ⟨more, hmore, hlen⟩ :=
    exists_effects c.json c.serde c.receiverSender s.receiver received
  rw [hear, hmore, List.drop_left]
  cases more with
  | nil => exact ⟨_, s.actor, rfl, Or.inl rfl⟩
  | cons effect rest =>
    have hrest : rest = [] := by simpa using hlen
    rw [hrest, List.foldl_cons, List.foldl_nil]
    cases effect with
    | queued tx request => exact ⟨_, s.actor, rfl, Or.inl rfl⟩
    | foreign target msg => exact ⟨_, s.actor, rfl, Or.inl rfl⟩
    | posted tx envelope =>
      by_cases htx : tx = c.mailbox
      · simp only [post, if_pos htx, Runtime.deliver]
        by_cases hfinished : s.actor.pc.finished = true
        · exact ⟨_, s.actor, by rw [if_pos hfinished], Or.inl rfl⟩
        · exact ⟨_, _, by rw [if_neg hfinished], Or.inr ⟨envelope, rfl⟩⟩
      · exact ⟨_, s.actor, by rw [post, if_neg htx], Or.inl rfl⟩

end Hear

/-! ## The actor -/

/-- A step of the thread of the actor takes the first letter of the mailbox, or
drops them all, or leaves them alone. -/
theorem line_of_runtimeMove {k : Nat} {a a' : Runtime μ} {events : List LifeEvent}
    (h : Runtime.Move k a a' events) (t : ThreadId) (r : Nat) :
    (lineIds t r (a'.handed.map ProcessCall.letter) ++ lineIds t r a'.mailbox).Sublist
      (lineIds t r (a.handed.map ProcessCall.letter) ++ lineIds t r a.mailbox) := by
  cases h with
  | recv l rest hpc hbox =>
    have hletter : (a.dispatch k l).letter = l := rfl
    rw [hbox, lineIds_cons l rest, List.map_append, lineIds_append, List.map_singleton,
      hletter, List.append_assoc]
  | endReturn hpc => simp [Runtime.finish]
  | _ => exact List.Sublist.refl _

/-! ## One step -/

section Steps

variable {c : Link V} {s : Transport V}

/-- A letter that came another way gets into the mailbox. -/
theorem InLine.outside (h : s.InLine c) {l : Letter (UserMessage V)}
    (hvia : l.via = c.refs.length) (receiver : ReceiverThread V) :
    InLine c { s with receiver, actor := s.actor.accept l } := by
  intro t r name endpoint hr
  have hlt : r < c.refs.length := (List.getElem?_eq_some_iff.mp hr).1
  have hother : lineIds t r [l] = [] := lineIds_other (by omega)
  have hold := h t r name endpoint hr
  simp only [line, Runtime.accept, lineIds_append, hother, List.append_nil]
  exact hold

/-- The thread of the actor moves. -/
theorem InLine.actor (h : s.InLine c) {a : Runtime (UserMessage V)}
    (hline : ∀ t r, (lineIds t r (a.handed.map ProcessCall.letter) ++
      lineIds t r a.mailbox).Sublist
        (lineIds t r (s.actor.handed.map ProcessCall.letter) ++
          lineIds t r s.actor.mailbox)) : InLine c { s with actor := a } := by
  intro t r name endpoint hr
  refine List.Sublist.trans ?_ (h t r name endpoint hr)
  simp only [line]
  rw [← List.append_assoc, ← List.append_assoc (lineIds t r (s.actor.handed.map _))]
  exact (hline t r).append (List.Sublist.refl _)

/-- A frame leaves a socket, and its letter gets into the mailbox or not. -/
theorem InLine.arrive (h : s.InLine c) (hrouted : s.Routed c) {endpoint : String}
    {socket : PushSocket V} (hsocket : s.sockets.lookup endpoint = some socket)
    {data : ByteArray} {l : Letter (UserMessage V)} {rest : List (Parcel V)}
    (hframes : socket.frames = (data, l) :: rest) {receiver : ReceiverThread V}
    {actor : Runtime (UserMessage V)}
    (hactor : actor = s.actor ∨
      ∃ envelope, actor = s.actor.accept { l with envelope }) :
    InLine c { s with
      sockets := s.sockets.insert endpoint { socket with frames := rest }
      receiver, actor } := by
  intro t r name e hr
  have hold := h t r name e hr
  -- What the frame leaves behind in the socket, and brings to the mailbox.
  have hway : lineIds t r (underWay s.sockets e) = lineIds t r [l] ++ lineIds t r
      (underWay (s.sockets.insert endpoint { socket with frames := rest }) e) := by
    rw [underWay_insert]
    by_cases he : e = endpoint
    · rw [if_pos he, he, underWay_eq hsocket, hframes, List.map_cons, lineIds_cons]
    · have hl : l ∈ underWay s.sockets endpoint := by
        simp [underWay_eq hsocket, hframes]
      have hvia : l.via ≠ r := by
        intro heq
        have hpath := hrouted.frames endpoint l hl
        rw [heq, hr] at hpath
        exact he (by simpa using hpath)
      rw [if_neg he, lineIds_other hvia, List.nil_append]
  simp only [line] at hold ⊢
  rw [hway] at hold
  rcases hactor with rfl | ⟨envelope, rfl⟩
  · refine List.Sublist.trans ?_ hold
    refine (List.Sublist.refl _).append ((List.Sublist.refl _).append ?_)
    exact (List.sublist_append_right _ _).append (List.Sublist.refl _)
  · simp only [Runtime.accept, lineIds_append, lineIds_envelope]
    simpa only [List.append_assoc] using hold

/-- Frames leave a socket and are lost. -/
theorem InLine.lose (h : s.InLine c) {endpoint : String} {socket : PushSocket V}
    (hsocket : s.sockets.lookup endpoint = some socket) {frames : List (Parcel V)}
    (hsub : frames.Sublist socket.frames) :
    InLine c { s with
      sockets := s.sockets.insert endpoint { socket with frames } } := by
  intro t r name e hr
  refine List.Sublist.trans ?_ (h t r name e hr)
  have hway : (underWay (s.sockets.insert endpoint { socket with frames }) e).Sublist
      (underWay s.sockets e) := by
    rw [underWay_insert]
    by_cases he : e = endpoint
    · rw [if_pos he, he, underWay_eq hsocket]
      exact hsub.map Prod.snd
    · rw [if_neg he]
  refine (List.Sublist.refl _).append ((List.Sublist.refl _).append ?_)
  exact (lineIds_sublist hway).append (List.Sublist.refl _)

theorem Routed.sockets (h : s.Routed c) {endpoint : String} {socket : PushSocket V}
    (hand : Option (SendRequest × Letter (UserMessage V)))
    (hhand : hand.toList ⊆ s.hand.toList)
    (hframes : ∀ l ∈ socket.frames.map Prod.snd,
      (c.refs[l.via]?).map Prod.snd = some endpoint)
    (receiver : ReceiverThread V) (actor : Runtime (UserMessage V)) :
    Routed c { s with
      hand, receiver, actor, sockets := s.sockets.insert endpoint socket } := by
  refine ⟨fun x hx => h.requests x ?_, fun e l hl => ?_⟩
  · exact (List.mem_append.mp hx).elim (fun hx => List.mem_append_left _ (hhand hx))
      (List.mem_append_right _)
  · rw [underWay_insert] at hl
    by_cases he : e = endpoint
    · rw [if_pos he] at hl
      exact he ▸ hframes l hl
    · rw [if_neg he] at hl
      exact h.frames e l hl

/-- The line and the routes of a transport agree with what was sent, and the letters
are numbered in the order in which they were sent. -/
structure Orderly (c : Link V) (s : Transport V) : Prop where
  routed : s.Routed c
  inLine : s.InLine c
  numbered : s.sent.map Letter.id = List.range s.sent.length

/-- A new socket has no frames. -/
theorem underWay_connect {sockets : HashMap String (PushSocket V)} {endpoint : String}
    (hnone : sockets.lookup endpoint = none) (connectEndpoint other : String) :
    underWay (sockets.insert endpoint { connectEndpoint, frames := [] }) other =
      underWay sockets other := by
  rw [underWay_insert]
  by_cases h : other = endpoint
  · rw [if_pos h, h, underWay, hnone]
    rfl
  · rw [if_neg h]

theorem Orderly.take (h : s.Orderly c) {connects : Bool} {s' : Transport V}
    (htake : s.take connects = some s') : s'.Orderly c := by
  unfold Transport.take at htake
  split at htake
  · rename_i request l rest hhand hrequests
    rw [Option.some.injEq] at htake
    subst htake
    have hway : ∀ e, underWay (if (s.sockets.lookup request.endpoint).isNone && connects
        then s.sockets.insert request.endpoint
          { connectEndpoint := request.endpoint.replace "tcp://*:" "tcp://localhost:"
            frames := [] }
        else s.sockets) e = underWay s.sockets e := by
      intro e
      split
      · rename_i hconnect
        rw [Bool.and_eq_true, Option.isNone_iff_eq_none] at hconnect
        exact underWay_connect hconnect.1 _ e
      · rfl
    refine ⟨⟨?_, fun e l' hl' => h.routed.frames e l' (hway e ▸ hl')⟩, ?_,
      h.numbered⟩
    · have hold := h.routed.requests
      rw [hhand, hrequests] at hold
      exact hold
    · intro t r name e hr
      have hold := h.inLine t r name e hr
      simp only [line, hhand, hrequests, Option.toList_none, List.map_nil, lineIds_nil,
        List.nil_append, List.map_cons] at hold
      rw [lineIds_cons] at hold
      simp only [line, hway]
      exact hold
  · simp at htake

/-- The request that the sender thread has taken is dropped. -/
theorem Orderly.drop (h : s.Orderly c) : Orderly c { s with hand := none } := by
  refine ⟨⟨fun x hx => h.routed.requests x (List.mem_append_right _ hx),
    h.routed.frames⟩, fun t r name e hr => ?_, h.numbered⟩
  refine List.Sublist.trans ?_ (h.inLine t r name e hr)
  refine (List.Sublist.refl _).append ((List.Sublist.refl _).append ?_)
  exact (List.Sublist.refl _).append (List.sublist_append_right _ _)

theorem Orderly.transmit (h : s.Orderly c) {sends : Bool} {s' : Transport V}
    (htransmit : s.transmit sends = some s') : s'.Orderly c := by
  unfold Transport.transmit at htransmit
  split at htransmit
  · simp at htransmit
  · rename_i request l hhand
    have hroute : (c.refs[l.via]?).map Prod.snd = some request.endpoint :=
      h.routed.requests (request, l) (by simp [hhand])
    split at htransmit
    · rename_i socket hsocket
      split at htransmit
      · rw [Option.some.injEq] at htransmit
        subst htransmit
        refine ⟨h.routed.sockets none (by simp) ?_ s.receiver s.actor, ?_,
          h.numbered⟩
        · intro l' hl'
          rw [List.map_append, ← underWay_eq hsocket] at hl'
          rcases List.mem_append.mp hl' with hl' | hl'
          · exact h.routed.frames _ l' hl'
          · rw [List.mem_singleton.mp hl']
            exact hroute
        · intro t r name e hr
          have hold := h.inLine t r name e hr
          -- The frame goes into the socket of its line.
          have hway : lineIds t r (underWay (s.sockets.insert request.endpoint
              { socket with frames := socket.frames ++ [(request.data, l)] }) e) =
                lineIds t r (underWay s.sockets e) ++ lineIds t r [l] := by
            rw [underWay_insert]
            by_cases he : e = request.endpoint
            · rw [if_pos he, he, underWay_eq hsocket, List.map_append, lineIds_append]
              rfl
            · have hvia : l.via ≠ r := by
                intro heq
                rw [heq, hr] at hroute
                exact he (by simpa using hroute)
              rw [if_neg he, lineIds_other hvia, List.append_nil]
          simp only [line, hhand, Option.toList_some, List.map_singleton] at hold
          simp only [line, hway, Option.toList_none, List.map_nil, lineIds_nil,
            List.nil_append]
          simpa only [List.append_assoc] using hold
      · rw [Option.some.injEq] at htransmit
        exact htransmit ▸ h.drop
    · rw [Option.some.injEq] at htransmit
      exact htransmit ▸ h.drop

variable [DecidableEq τ]

theorem Orderly.send (h : s.Orderly c) {t : ThreadId} {r : Nat}
    {msg : Message (UserMessage V)} {sender : Option ActorRef} {s' : Transport V}
    (hsend : s.send c t r msg sender = some s') : s'.Orderly c := by
  unfold Transport.send at hsend
  split at hsend
  · simp at hsend
  · rename_i name endpoint hr
    dsimp only at hsend
    split at hsend
    · rename_i request hrequest
      obtain ⟨msgType, v, -, hdata⟩ :=
        ZmqSender.request_of_sendTo (Prod.ext hrequest rfl)
      rw [Option.some.injEq] at hsend
      subst hsend
      refine ⟨⟨?_, h.routed.frames⟩, fun t' r' name' endpoint' hr' => ?_, ?_⟩
      · rw [← List.append_assoc]
        refine forall_mem_snoc h.routed.requests ?_
        rw [hr, Option.map_some, hdata]
        rfl
      · have hold := h.inLine t' r' name' endpoint' hr'
        simp only [line, List.map_append, List.map_singleton, lineIds_append] at hold ⊢
        simpa only [List.append_assoc] using hold.append (List.Sublist.refl _)
      · rw [List.map_append, h.numbered, List.length_append, List.map_singleton,
          List.length_singleton, List.range_succ]
    · rw [Option.some.injEq] at hsend
      subst hsend
      exact ⟨⟨h.routed.requests, h.routed.frames⟩, h.inLine, h.numbered⟩

theorem Orderly.receive (h : s.Orderly c) {endpoint : String} {s' : Transport V}
    (hreceive : s.receive c endpoint = some s') : s'.Orderly c := by
  unfold Transport.receive at hreceive
  split at hreceive
  · simp at hreceive
  · rename_i socket hsocket
    split at hreceive
    · simp at hreceive
    · rename_i data l rest hframes
      split at hreceive
      · rw [Option.some.injEq] at hreceive
        obtain ⟨receiver, actor, heq, hactor⟩ := hear_eq c { s with
          sockets := s.sockets.insert endpoint { socket with frames := rest } }
          (.message [data]) fun envelope => { l with envelope }
        rw [heq] at hreceive
        subst hreceive
        refine ⟨h.routed.sockets s.hand (fun _ hx => hx) ?_ receiver actor,
          h.inLine.arrive h.routed hsocket hframes hactor, h.numbered⟩
        intro l' hl'
        refine h.routed.frames endpoint l' ?_
        rw [underWay_eq hsocket, hframes]
        exact List.mem_cons_of_mem l hl'
      · simp at hreceive

theorem orderly_next (h : s.Orderly c) {a : TransportAction V} {s' : Transport V}
    (hnext : s.next c a = some s') : s'.Orderly c := by
  have hactor : ∀ {x : Runtime (UserMessage V) × List LifeEvent},
      Runtime.Move c.mailbox s.actor x.1 x.2 → Orderly c { s with actor := x.1 } := by
    intro x hmove
    exact ⟨⟨h.routed.requests, h.routed.frames⟩,
      h.inLine.actor (line_of_runtimeMove hmove), h.numbered⟩
  cases a with
  | send t r msg sender => exact h.send hnext
  | take connects => exact h.take hnext
  | transmit sends => exact h.transmit hnext
  | receive endpoint => exact h.receive hnext
  | lose endpoint k =>
    obtain ⟨socket, hsocket, rfl⟩ := Option.map_eq_some_iff.mp hnext
    have hsub := List.eraseIdx_sublist socket.frames k
    refine ⟨h.routed.sockets s.hand (fun _ hx => hx) (fun l hl => ?_) s.receiver s.actor,
      h.inLine.lose hsocket hsub, h.numbered⟩
    refine h.routed.frames endpoint l ?_
    rw [underWay_eq hsocket]
    exact (hsub.map Prod.snd).subset hl
  | other received =>
    rw [next, Option.some.injEq] at hnext
    obtain ⟨receiver, actor, heq, hactor⟩ :=
      hear_eq c s received (s.stranger c (.client 0))
    rw [heq] at hnext
    subst hnext
    refine ⟨⟨h.routed.requests, h.routed.frames⟩, ?_, h.numbered⟩
    rcases hactor with rfl | ⟨envelope, rfl⟩
    · exact h.inLine
    · exact h.inLine.outside rfl receiver
  | stop =>
    rw [next, Option.some.injEq] at hnext
    subst hnext
    exact ⟨⟨h.routed.requests, h.routed.frames⟩, h.inLine, h.numbered⟩
  | localSend t envelope =>
    rw [next, Option.some.injEq] at hnext
    subst hnext
    refine ⟨⟨h.routed.requests, h.routed.frames⟩, ?_, h.numbered⟩
    unfold Runtime.deliver
    split
    · exact h.inLine
    · exact h.inLine.outside rfl s.receiver
  | actor =>
    obtain ⟨x, hx, rfl⟩ := Option.map_eq_some_iff.mp hnext
    exact hactor (Runtime.move_of_runStep hx)
  | codeReturn =>
    obtain ⟨x, hx, rfl⟩ := Option.map_eq_some_iff.mp hnext
    exact hactor (Runtime.move_of_codeReturn hx)
  | codePanic =>
    obtain ⟨x, hx, rfl⟩ := Option.map_eq_some_iff.mp hnext
    refine ⟨⟨h.routed.requests, h.routed.frames⟩, h.inLine.actor fun t r => ?_,
      h.numbered⟩
    unfold Runtime.codePanic at hx
    split at hx
    · rw [Option.some.injEq] at hx
      subst hx
      simp [Runtime.finish]
    · simp at hx
  | reply | actorStop =>
    rw [next, Option.some.injEq] at hnext
    subst hnext
    refine ⟨⟨h.routed.requests, h.routed.frames⟩, h.inLine.actor fun t r => ?_,
      h.numbered⟩
    exact List.Sublist.refl _

end Steps

/-! ## A whole run -/

section Runs

variable [DecidableEq τ] {c : Link V} {s : Transport V}

theorem orderly (h : (machine c).Reachable s) : s.Orderly c := by
  refine h.invariant ?_ ?_
  · rintro s ⟨registries, tables, name, rfl⟩
    refine ⟨⟨?_, ?_⟩, ?_, rfl⟩
    · intro x hx
      simp [start] at hx
    · intro endpoint l hl
      simp [start, underWay] at hl
    · intro t r name' endpoint hr
      exact List.nil_sublist _
  · intro s a s' _ ih _ hnext
    exact orderly_next ih hnext

/-- What a thread sends through a `RemoteActorRef` is processed in the order in
which it was sent, with gaps, and nothing is processed twice. -/
theorem processed_in_order (h : (machine c).Reachable s) :
    s.sent.map Letter.id = List.range s.sent.length ∧
      ∀ t r, r < c.refs.length →
        (lineIds t r (s.actor.handed.map ProcessCall.letter)).Sublist
          (lineIds t r s.sent) ∧
        (lineIds t r (s.actor.handed.map ProcessCall.letter)).Nodup := by
  have hids := (orderly h).numbered
  refine ⟨hids, fun t r hr => ?_⟩
  have hline : (lineIds t r (s.actor.handed.map ProcessCall.letter)).Sublist
      (lineIds t r s.sent) :=
    (List.sublist_append_left _ _).trans
      ((orderly h).inLine t r _ _ (List.getElem?_eq_getElem hr))
  have hnodup : (lineIds t r s.sent).Nodup := by
    refine List.Nodup.sublist (List.filter_sublist.map Letter.id) ?_
    rw [hids]
    exact List.nodup_range
  exact ⟨hline, hnodup.sublist hline⟩

end Runs

/-! A thread sends two messages, the first frame is lost, and the actor processes
the second one. -/

def flagText : String :=
  "\x7b\"message\":true,\"message_type\":\"Flag\",\"receiver\":\"b\"," ++
    "\"sender_actor\":null,\"sender_endpoint\":null\x7d"

/-- One reference, to the actor `b`. -/
def flagLink : Link fun _ : Unit => Bool where
  json := .ofPair flagText (frame (none, none) "b" "Flag" (.bool true))
  serde := flagSerde
  zmqSender := ⟨0, "tcp://0.0.0.0:5002"⟩
  refs := [("b", "tcp://localhost:5001")]
  receiverSender := ⟨1, "tcp://0.0.0.0:5001"⟩
  mailbox := 7
  reaches _ := true

def flagTables : Tables Unit :=
  { registries := .ofRegistrations [(.user (), "Flag"), (.reject, "Reject")]
    actors := (ActorRegistry.new.register "b" (.localRef ⟨7, "b"⟩)).2 }

/-- The frame of a message to `b` puts the message into the mailbox. -/
theorem hear_flag {s : Transport fun _ : Unit => Bool}
    (h : s.receiver = ReceiverThread.start flagTables)
    (letter : Envelope (UserMessage fun _ : Unit => Bool) →
      Letter (UserMessage fun _ : Unit => Bool)) :
    s.hear flagLink (.message [flagText.toUTF8]) letter = { s with
      receiver := { s.receiver with effects := [.posted 7 (.new (.user ⟨(), true⟩) none)] }
      actor := s.actor.deliver (letter (.new (.user ⟨(), true⟩) none)) } := by
  have hhandle : handleMessage flagLink.json flagLink.serde flagLink.receiverSender
      flagTables [flagText.toUTF8] =
        (.value [.posted 7 (.new (.user ⟨(), true⟩) none)], flagTables) := by
    rw [handleMessage, envelopeOf_toUTF8]
    rfl
  rw [hear, ReceiverThread.iterate, h]
  simp only [ReceiverThread.start, if_true, hhandle]
  rfl

/-- Letter number `id`, from a client to `b`. -/
def flagLetter (id : Nat) : Letter (UserMessage fun _ : Unit => Bool) :=
  { id, author := .client 0, via := 0, addressee := "b"
    envelope := .new (.user ⟨(), true⟩) none }

/-- Before anything is sent. -/
def flagStart : Transport fun _ : Unit => Bool :=
  start flagLink flagTables.registries flagTables "b"

/-- The sender thread has connected the socket of `b`.  The frames of these letters are
under way. -/
def flagUnderWay (sent under : List (Letter (UserMessage fun _ : Unit => Bool))) :
    Transport fun _ : Unit => Bool :=
  let endpoint := "tcp://localhost:5001"
  { flagStart with
    sockets := (∅ : HashMap String (PushSocket fun _ : Unit => Bool)).insert endpoint
      { connectEndpoint := endpoint.replace "tcp://*:" "tcp://localhost:"
        frames := under.map fun l => (flagText.toUTF8, l) }
    sent }

/-- The receiver gets the only frame that is under way. -/
theorem next_flagUnderWay (sent : List (Letter (UserMessage fun _ : Unit => Bool)))
    (id : Nat) : next flagLink (flagUnderWay sent [flagLetter id])
      (.receive "tcp://localhost:5001") = some { flagUnderWay sent [] with
        receiver := { flagStart.receiver with
          effects := [.posted 7 (.new (.user ⟨(), true⟩) none)] }
        actor := flagStart.actor.deliver (flagLetter id) } := by
  have hreceive : next flagLink (flagUnderWay sent [flagLetter id])
      (.receive "tcp://localhost:5001") = some (hear flagLink (flagUnderWay sent [])
        (.message [flagText.toUTF8]) fun envelope =>
          { flagLetter id with envelope }) := rfl
  rw [hreceive, hear_flag rfl]
  rfl

theorem processed_in_order_lossy : ∃ s, (machine flagLink).Reachable s ∧
    lineIds (.client 0) 0 s.sent = [0, 1] ∧
    lineIds (.client 0) 0 (s.actor.handed.map ProcessCall.letter) = [1] ∧
    (lineIds (.client 0) 0 (s.actor.handed.map ProcessCall.letter)).Nodup := by
  have hbefore : (machine flagLink).Reachable flagStart := .start ⟨_, _, _, rfl⟩
  have hunder : (machine flagLink).Reachable
      (flagUnderWay [flagLetter 0, flagLetter 1] [flagLetter 1]) :=
    Machine.reach_exec_get hbefore [.send (.client 0) 0 (.user ⟨(), true⟩) none,
      .send (.client 0) 0 (.user ⟨(), true⟩) none, .take true, .transmit true, .take true,
      .transmit true, .lose "tcp://localhost:5001" 0] rfl
  have harrived : (machine flagLink).Reachable _ :=
    hunder.step trivial (next_flagUnderWay _ 1)
  have hreach := Machine.reach_exec_get harrived [.actor, .codeReturn, .actor, .actor] rfl
  exact ⟨_, hreach, rfl, rfl, ((processed_in_order hreach).2 _ 0 (by decide)).2⟩

end Transport

end Actors
