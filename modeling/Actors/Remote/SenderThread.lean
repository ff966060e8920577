import Actors.Remote.Transport
import Mathlib.Data.List.TakeWhile

/-!
# The sender thread

The thread that `ZmqSender::new` spawns takes one request after the other.  It
keeps one socket for each endpoint and connects it at the first request for the
endpoint; when `connect` fails there is no socket, the request is dropped, and
the next request for the endpoint tries again.

A `SenderTurn` is a request with what the network answers in that turn of the loop.
`calls_eq` gives every call that the thread makes for one endpoint: a failed
`connect` for each request before the first that succeeds, this `connect`, and a
`send` for each request from then on.  Only the turns of the endpoint occur in it,
so nothing that happens to other endpoints matters.

`connect` and `send` of the library return in every turn, with success or failure.
A turn in which one of them does not return is no `SenderTurn`.

`Transport` runs the same loop as two steps of a larger machine
(`sameSockets_turn`).
-/

namespace Actors

open Concur

/-- A request, and the outcomes of `connect` and of `send`, where the thread calls
them. -/
structure SenderTurn where
  request : SendRequest
  connects : Bool
  sends : Bool

/-- A call into the `zeromq` library. -/
inductive SocketCall where
  /-- `socket.connect(&connect_endpoint)`. -/
  | connect (endpoint connectEndpoint : String) (ok : Bool)
  /-- `socket.send(req.data.into())` on the socket for the endpoint. -/
  | send (endpoint : String) (data : ByteArray) (ok : Bool)

/-- The endpoint that the call is made for. -/
def SocketCall.endpoint : SocketCall → String
  | .connect endpoint _ _ => endpoint
  | .send endpoint _ _ => endpoint

/-- The sender thread. -/
structure SenderThread where
  /-- The address of each socket, under its endpoint. -/
  sockets : HashMap String String
  /-- Every call so far, in order. -/
  calls : List SocketCall

/-- `connect_endpoint`. -/
def SendRequest.connectEndpoint (request : SendRequest) : String :=
  request.endpoint.replace "tcp://*:" "tcp://localhost:"

namespace SenderThread

/-- Before the first request. -/
def new : SenderThread := { sockets := ∅, calls := [] }

/-- `connect`, when there is no socket for the endpoint. -/
def connect (s : SenderThread) (t : SenderTurn) : SenderThread :=
  if (s.sockets.lookup t.request.endpoint).isNone then
    { sockets :=
        if t.connects then
          s.sockets.insert t.request.endpoint t.request.connectEndpoint
        else s.sockets
      calls := s.calls ++
        [.connect t.request.endpoint t.request.connectEndpoint t.connects] }
  else s

/-- `send`, when there is a socket for the endpoint. -/
def send (s : SenderThread) (t : SenderTurn) : SenderThread :=
  if (s.sockets.lookup t.request.endpoint).isSome then
    { s with calls := s.calls ++
        [.send t.request.endpoint t.request.data t.sends] }
  else s

/-- One turn of the loop. -/
def handle (s : SenderThread) (t : SenderTurn) : SenderThread := (s.connect t).send t

/-- The thread after a sequence of requests. -/
def run (turns : List SenderTurn) : SenderThread := turns.foldl handle new

/-- The calls for one endpoint. -/
def callsFor (s : SenderThread) (e : String) : List SocketCall :=
  s.calls.filter fun c => c.endpoint = e

/-- The outcomes of `connect` for one endpoint. -/
def attempts (s : SenderThread) (e : String) : List Bool :=
  (s.callsFor e).filterMap fun
    | .connect _ _ ok => some ok
    | .send _ _ _ => none

/-- The frames that were passed to the socket of one endpoint. -/
def passed (s : SenderThread) (e : String) : List ByteArray :=
  (s.callsFor e).filterMap fun
    | .connect _ _ _ => none
    | .send _ data _ => some data

/-- The frames that the socket of one endpoint has accepted. -/
def accepted (s : SenderThread) (e : String) : List ByteArray :=
  (s.callsFor e).filterMap fun
    | .connect _ _ _ | .send _ _ false => none
    | .send _ data true => some data

end SenderThread

/-! ## What the thread should do -/

namespace SenderTurn

/-- The requests for one endpoint. -/
def of (e : String) (turns : List SenderTurn) : List SenderTurn :=
  turns.filter fun t => t.request.endpoint = e

/-- The requests for `e` before its first successful `connect`. -/
def early (e : String) (turns : List SenderTurn) : List SenderTurn :=
  (of e turns).takeWhile fun t => !t.connects

/-- The requests for `e` from its first successful `connect` on. -/
def late (e : String) (turns : List SenderTurn) : List SenderTurn :=
  (of e turns).dropWhile fun t => !t.connects

/-- The call of `connect` in this turn. -/
def connectCall (t : SenderTurn) : SocketCall :=
  .connect t.request.endpoint t.request.connectEndpoint t.connects

/-- The call of `send` in this turn. -/
def sendCall (t : SenderTurn) : SocketCall :=
  .send t.request.endpoint t.request.data t.sends

end SenderTurn

namespace SenderThread

open SenderTurn

/-! ## One turn -/

variable {s : SenderThread} {t : SenderTurn} {e : String}

/-- A turn for another endpoint. -/
theorem handle_other (h : t.request.endpoint ≠ e) :
    (s.handle t).sockets.lookup e = s.sockets.lookup e ∧
      (s.handle t).callsFor e = s.callsFor e := by
  unfold handle send connect callsFor
  constructor
  · repeat' split
    all_goals simp [AList.lookup_insert_ne (Ne.symm h)]
  · repeat' split
    all_goals simp [List.filter_append, SocketCall.endpoint, h]

/-- A turn for an endpoint that has a socket. -/
theorem handle_connected (h : t.request.endpoint = e)
    (hsocket : (s.sockets.lookup e).isSome) :
    (s.handle t).sockets = s.sockets ∧
      (s.handle t).callsFor e = s.callsFor e ++ [t.sendCall] := by
  subst h
  have hconnect : s.connect t = s := by
    rw [connect, if_neg]
    simpa using Option.isSome_iff_ne_none.mp hsocket
  rw [handle, hconnect, send, if_pos hsocket]
  simp [callsFor, sendCall, SocketCall.endpoint]

/-- A turn in which `connect` fails. -/
theorem handle_refused (h : t.request.endpoint = e)
    (hsocket : s.sockets.lookup e = none) (hfails : t.connects = false) :
    (s.handle t).sockets = s.sockets ∧
      (s.handle t).callsFor e = s.callsFor e ++ [t.connectCall] := by
  subst h
  simp [handle, connect, send, hsocket, hfails, callsFor, connectCall,
    SocketCall.endpoint]

/-- A turn in which `connect` succeeds. -/
theorem handle_connects (h : t.request.endpoint = e)
    (hsocket : s.sockets.lookup e = none) (hworks : t.connects = true) :
    ((s.handle t).sockets.lookup e).isSome ∧
      (s.handle t).callsFor e = s.callsFor e ++ [t.connectCall, t.sendCall] := by
  subst h
  simp [handle, connect, send, hsocket, hworks, callsFor, connectCall, sendCall,
    SocketCall.endpoint]

/-! ## Every sequence of requests -/

theorem of_cons_self (h : t.request.endpoint = e) (turns : List SenderTurn) :
    of e (t :: turns) = t :: of e turns := by
  simp [of, h]

theorem of_cons_other (h : t.request.endpoint ≠ e) (turns : List SenderTurn) :
    of e (t :: turns) = of e turns := by
  simp [of, h]

/-- Once there is a socket for the endpoint, every frame is passed to it. -/
theorem foldl_connected (turns : List SenderTurn) (hsocket : (s.sockets.lookup e).isSome) :
    (turns.foldl handle s).callsFor e =
      s.callsFor e ++ (of e turns).map sendCall := by
  induction turns generalizing s with
  | nil => simp [of]
  | cons t turns ih =>
    rw [List.foldl_cons]
    by_cases h : t.request.endpoint = e
    · obtain ⟨hsockets, hcalls⟩ := handle_connected h hsocket
      rw [ih (by rw [hsockets]; exact hsocket), hcalls, of_cons_self h]
      simp
    · obtain ⟨hsockets, hcalls⟩ := handle_other (s := s) h
      rw [ih (by rw [hsockets]; exact hsocket), hcalls, of_cons_other h]

/-- Until there is one, every request for the endpoint tries to connect. -/
theorem foldl_unconnected (turns : List SenderTurn) (hsocket : s.sockets.lookup e = none) :
    (turns.foldl handle s).callsFor e = s.callsFor e ++
      ((early e turns).map connectCall ++
        (late e turns).head?.toList.map connectCall ++
        (late e turns).map sendCall) := by
  induction turns generalizing s with
  | nil => simp [early, late, of]
  | cons t turns ih =>
    rw [List.foldl_cons]
    by_cases h : t.request.endpoint = e
    · rw [early, late, of_cons_self h]
      cases hconnects : t.connects with
      | true =>
        obtain ⟨hsome, hcalls⟩ := handle_connects h hsocket hconnects
        rw [foldl_connected turns hsome, hcalls]
        simp [hconnects]
      | false =>
        obtain ⟨hsockets, hcalls⟩ := handle_refused h hsocket hconnects
        rw [ih (by rw [hsockets]; exact hsocket), hcalls]
        simp [hconnects, early, late]
    · obtain ⟨hsockets, hcalls⟩ := handle_other (s := s) h
      rw [ih (by rw [hsockets]; exact hsocket), hcalls, early, late, early, late,
        of_cons_other h]

/-- Every call for one endpoint, in order. -/
theorem calls_eq (turns : List SenderTurn) (e : String) : (run turns).callsFor e =
    (early e turns).map connectCall ++
      (late e turns).head?.toList.map connectCall ++
      (late e turns).map sendCall := by
  rw [run, foldl_unconnected turns rfl]
  rfl

/-- The requests of one endpoint are all that its calls depend on. -/
theorem calls_of (turns : List SenderTurn) (e : String) :
    (run turns).callsFor e = (run (of e turns)).callsFor e := by
  have hof : of e (of e turns) = of e turns := by
    simp [of]
  rw [calls_eq, calls_eq, early, late, early, late, hof]

/-- The `connect` calls before the first successful one fail, and this one
succeeds. -/
theorem attempts_eq (turns : List SenderTurn) (e : String) : (run turns).attempts e =
    (early e turns).map (fun _ => false) ++
      (late e turns).head?.toList.map fun _ => true := by
  have hearly : ∀ t ∈ early e turns, t.connects = false := by
    intro t ht
    simpa using List.mem_takeWhile_imp ht
  have hlate : ∀ t ∈ (late e turns).head?.toList, t.connects = true := by
    intro t ht
    have hhead := List.head?_dropWhile_not (fun t : SenderTurn => !t.connects) (of e turns)
    rw [← late, Option.mem_toList.mp ht] at hhead
    simpa using hhead
  rw [attempts, calls_eq, ← List.map_congr_left hearly, ← List.map_congr_left hlate]
  simp [List.filterMap_append, List.filterMap_map, Function.comp_def, connectCall,
    sendCall]

theorem passed_eq (turns : List SenderTurn) (e : String) :
    (run turns).passed e = (late e turns).map fun t => t.request.data := by
  rw [passed, calls_eq]
  simp [List.filterMap_append, List.filterMap_map, Function.comp_def, connectCall,
    sendCall]

/-- For every endpoint, whatever is requested for it and for the others, and
whatever fails: at most one socket is created; the frames passed to it are those
of the requests from its first successful `connect` on, in order; each request
before has one `connect` that fails and is dropped; and the calls are those that
the requests for this endpoint alone would lead to. -/
theorem sender_thread (turns : List SenderTurn) (e : String) :
    ((run turns).attempts e).count true ≤ 1 ∧
      (run turns).passed e = (late e turns).map (fun t => t.request.data) ∧
      (run turns).attempts e = (early e turns).map (fun _ => false) ++
        (late e turns).head?.toList.map (fun _ => true) ∧
      (run turns).callsFor e = (run (of e turns)).callsFor e := by
  refine ⟨?_, passed_eq turns e, attempts_eq turns e, calls_of turns e⟩
  rw [attempts_eq, List.count_append, List.map_const', List.map_const']
  cases (late e turns).head? <;> simp [List.count_replicate]

/-- Three requests for one endpoint, the first of which cannot connect, and one
for another. -/
example : (run [⟨⟨"a", "1".toUTF8⟩, false, true⟩,
    ⟨⟨"b", "2".toUTF8⟩, false, true⟩, ⟨⟨"a", "3".toUTF8⟩, true, false⟩,
    ⟨⟨"a", "4".toUTF8⟩, false, true⟩]).attempts "a" = [false, true] := by
  decide

end SenderThread

/-! ## The thread as a part of the transport -/

namespace Transport

variable {τ : Type} {V : τ → Type}

/-- The frames in the socket for an endpoint. -/
def framesFor (s : Transport V) (e : String) : List ByteArray :=
  ((s.sockets.lookup e).elim [] PushSocket.frames).map Prod.fst

/-- The same endpoints have a socket, with the same addresses. -/
def SameSockets (s : Transport V) (thread : SenderThread) : Prop :=
  ∀ e, (s.sockets.lookup e).map PushSocket.connectEndpoint =
    thread.sockets.lookup e

theorem SameSockets.isNone_iff {s : Transport V} {thread : SenderThread}
    (h : s.SameSockets thread) (e : String) :
    (s.sockets.lookup e).isNone = (thread.sockets.lookup e).isNone := by
  rw [← h e, Option.isNone_map]

/-- `take` is the first half of a turn. -/
theorem sameSockets_take {s : Transport V} {thread : SenderThread}
    (hsame : s.SameSockets thread) (t : SenderTurn) {l : Letter (UserMessage V)}
    {rest : List (SendRequest × Letter (UserMessage V))}
    (hhand : s.hand = none) (hrequests : s.requests = (t.request, l) :: rest) :
    ∃ s1, s.take t.connects = some s1 ∧ s1.hand = some (t.request, l) ∧
      s1.requests = rest ∧ s1.SameSockets (thread.connect t) ∧
      ∀ e, s1.framesFor e = s.framesFor e ∧
        (thread.connect t).accepted e = thread.accepted e := by
  have hnone := hsame.isNone_iff t.request.endpoint
  simp only [take, hhand, hrequests, Option.some.injEq, exists_eq_left', hnone]
  refine ⟨trivial, trivial, fun e => ?_, fun e => ⟨?_, ?_⟩⟩
  · unfold SenderThread.connect
    by_cases hlookup : (thread.sockets.lookup t.request.endpoint).isNone = true
    · cases hconnects : t.connects with
      | false => simpa [hlookup] using hsame e
      | true =>
        by_cases he : e = t.request.endpoint
        · subst he
          simp [hlookup, SendRequest.connectEndpoint]
        · simpa [hlookup, AList.lookup_insert_ne he] using hsame e
    · simpa [hlookup] using hsame e
  · by_cases hnew : (thread.sockets.lookup t.request.endpoint).isNone = true ∧
        t.connects = true
    · by_cases he : e = t.request.endpoint
      · subst he
        have hold := hnone.trans hnew.1
        rw [Option.isNone_iff_eq_none] at hold
        simp [framesFor, hnew.1, hnew.2, hold]
      · simp [framesFor, hnew.1, hnew.2, AList.lookup_insert_ne he]
    · have hkeep : ((thread.sockets.lookup t.request.endpoint).isNone &&
          t.connects) = false := by
        simpa [← Bool.not_eq_true] using hnew
      simp [framesFor, hkeep]
  · unfold SenderThread.connect SenderThread.accepted SenderThread.callsFor
    split
    · by_cases he : t.request.endpoint = e <;>
        simp [List.filter_append, SocketCall.endpoint, he]
    · rfl

/-- `transmit` is the second half of a turn. -/
theorem sameSockets_transmit {s : Transport V} {thread : SenderThread}
    (hsame : s.SameSockets thread) (t : SenderTurn) {l : Letter (UserMessage V)}
    (hhand : s.hand = some (t.request, l)) :
    ∃ s2, s.transmit t.sends = some s2 ∧ s2.hand = none ∧
      s2.requests = s.requests ∧ s2.SameSockets (thread.send t) ∧
      ∀ e, ∃ new, s2.framesFor e = s.framesFor e ++ new ∧
        (thread.send t).accepted e = thread.accepted e ++ new := by
  have hlookup := hsame t.request.endpoint
  cases hsocket : s.sockets.lookup t.request.endpoint with
  | none =>
    have hno : thread.send t = thread := by
      simp [SenderThread.send, ← hlookup, hsocket]
    rw [hno]
    simp only [transmit, hhand, hsocket, Option.some.injEq, exists_eq_left']
    exact ⟨trivial, trivial, hsame, fun e => ⟨[], by simp [framesFor]⟩⟩
  | some socket =>
    have hsend : thread.send t = { thread with calls := thread.calls ++
        [.send t.request.endpoint t.request.data t.sends] } := by
      simp [SenderThread.send, ← hlookup, hsocket]
    rw [hsend]
    cases hsends : t.sends with
    | false =>
      simp only [transmit, hhand, hsocket, Bool.false_eq_true, if_false,
        Option.some.injEq, exists_eq_left']
      refine ⟨trivial, trivial, hsame, fun e => ⟨[], by simp [framesFor], ?_⟩⟩
      by_cases he : t.request.endpoint = e <;>
        simp [SenderThread.accepted, SenderThread.callsFor, SocketCall.endpoint, he]
    | true =>
      simp only [transmit, hhand, hsocket, if_true, Option.some.injEq,
        exists_eq_left']
      refine ⟨trivial, trivial, fun e => ?_, fun e => ?_⟩
      · by_cases he : e = t.request.endpoint
        · subst he
          rw [← hlookup, hsocket]
          simp
        · simpa [AList.lookup_insert_ne he] using hsame e
      · by_cases he : e = t.request.endpoint
        · subst he
          refine ⟨[t.request.data], ?_⟩
          simp [framesFor, hsocket, SenderThread.accepted, SenderThread.callsFor,
            SocketCall.endpoint]
        · refine ⟨[], ?_⟩
          simp [framesFor, AList.lookup_insert_ne he, SenderThread.accepted,
            SenderThread.callsFor, SocketCall.endpoint, Ne.symm he]

/-- A turn of the loop: the request is taken from the queue, the sockets stay the
same, and the socket gets the frames that it accepts. -/
theorem sameSockets_turn {s : Transport V} {thread : SenderThread}
    (hsame : s.SameSockets thread) (t : SenderTurn) {l : Letter (UserMessage V)}
    {rest : List (SendRequest × Letter (UserMessage V))}
    (hhand : s.hand = none) (hrequests : s.requests = (t.request, l) :: rest) :
    ∃ s1 s2, s.take t.connects = some s1 ∧ s1.transmit t.sends = some s2 ∧
      s2.hand = none ∧ s2.requests = rest ∧ s2.SameSockets (thread.handle t) ∧
      ∀ e, ∃ new, s2.framesFor e = s.framesFor e ++ new ∧
        (thread.handle t).accepted e = thread.accepted e ++ new := by
  obtain ⟨s1, htake, hhand1, hrequests1, hsame1, hframes1⟩ :=
    sameSockets_take hsame t hhand hrequests
  obtain ⟨s2, htransmit, hhand2, hrequests2, hsame2, hframes2⟩ :=
    sameSockets_transmit hsame1 t hhand1
  refine ⟨s1, s2, htake, htransmit, hhand2, hrequests2.trans hrequests1, hsame2,
    fun e => ?_⟩
  obtain ⟨new, hnew, haccepted⟩ := hframes2 e
  rw [(hframes1 e).1] at hnew
  rw [(hframes1 e).2] at haccepted
  exact ⟨new, hnew, haccepted⟩

end Transport

end Actors
