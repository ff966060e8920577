import Actors.Actor.Runtime
import Actors.Lib.Machine
import Actors.Remote.Reactions

/-!
# The way of a message to an actor of another process

What a thread sends through a `RemoteActorRef` goes through four queues: the queue
of the sender thread of its `ZmqSender`, the socket for the endpoint, the network
up to the receiver of the other process, and the mailbox of the actor.

* `Transport.send`: `ZmqSender::send_to` on the thread that sends.
* `Transport.take` and `Transport.transmit`: the sender thread takes a request,
  connects a socket if there is none for the endpoint, and sends the frame.
  Whether `connect` and `send` succeed is up to the network.  That they return is
  assumed of the ZeroMQ library.
* `Transport.receive`: the loop of `ZmqReceiver::start` gets a frame.
* `ActorRuntime::run` is `Runtime.runStep`.

A PUSH socket and the connection behind it are one queue: ZeroMQ keeps the order
of the frames on a connection and does not duplicate them, and it may lose some.
Frames of other processes can arrive between any two of these (`other`), and the
threads of the receiving process can send to the actor as well (`localSend`).

Every frame carries the `Letter` that it was written for.  No step reads it to
decide what to do.
-/

namespace Actors

open Concur

variable {τ : Type} {V : τ → Type}

/-- `ZmqSender::remote_ref`. -/
def ZmqSender.remoteRef (z : ZmqSender) (name endpoint : String) : RemoteActorRef :=
  { name, endpoint, zmqSender := z }

/-- A frame under way, with the letter that it was written for. -/
abbrev Parcel (V : τ → Type) := ByteArray × Letter (UserMessage V)

/-- A connected `PushSocket`, with the frames that it has accepted and that have
not arrived yet. -/
structure PushSocket (V : τ → Type) where
  connectEndpoint : String
  frames : List (Parcel V)

/-- What stays the same in a run. -/
structure Link (V : τ → Type) where
  json : JsonText
  serde : Serde V
  /-- The `ZmqSender` of the sending process. -/
  zmqSender : ZmqSender
  /-- Its references: the name of the actor and the endpoint. -/
  refs : List (String × String)
  /-- The `ZmqSender` of the receiver. -/
  receiverSender : ZmqSender
  /-- The mailbox of the actor. -/
  mailbox : ChannelId
  /-- A socket with this address is connected to the receiver. -/
  reaches : String → Bool

/-- The sending process, the network, and the receiver with the actor. -/
structure Transport (V : τ → Type) where
  /-- The message registry of the sending process. -/
  registries : Registries τ
  /-- The queue of the sender thread. -/
  requests : List (SendRequest × Letter (UserMessage V))
  /-- The request that the sender thread has taken. -/
  hand : Option (SendRequest × Letter (UserMessage V))
  sockets : HashMap String (PushSocket V)
  receiver : ReceiverThread V
  actor : Runtime (UserMessage V)
  /-- What was sent through the references so far, in order. -/
  sent : List (Letter (UserMessage V))

/-- The labels of the machine. -/
inductive TransportAction (V : τ → Type) where
  /-- Thread `t` sends through reference `r`. -/
  | send (t : ThreadId) (r : Nat) (msg : Message (UserMessage V))
      (sender : Option ActorRef)
  /-- The sender thread takes a request.  `connects` is the outcome of `connect`,
  if it is called. -/
  | take (connects : Bool)
  /-- The sender thread sends the frame.  `sends` is the outcome of the send. -/
  | transmit (sends : Bool)
  /-- The `k`-th frame of the socket for an endpoint is lost. -/
  | lose (endpoint : String) (k : Nat)
  /-- The receiver gets the next frame of the socket for an endpoint. -/
  | receive (endpoint : String)
  /-- The receiver gets something else: a frame of another process, an error of
  the socket, or nothing in time. -/
  | other (received : RecvResult)
  /-- `ZmqReceiverHandle::stop`. -/
  | stop
  /-- Thread `t` of the receiving process sends to the actor. -/
  | localSend (t : ThreadId) (envelope : Envelope (UserMessage V))
  /-- A step of `ActorRuntime::run`. -/
  | actor
  | codeReturn
  | codePanic
  /-- The handler calls `ctx.reply`. -/
  | reply
  | actorStop

namespace Transport

/-- Before anything is sent. -/
def start (c : Link V) (registries : Registries τ) (tables : Tables τ)
    (name : String) : Transport V :=
  { registries, requests := [], hand := none, sockets := ∅
    receiver := ReceiverThread.start tables
    actor := { Runtime.new c.mailbox name with pc := .spawned }, sent := [] }

/-- The letter of a message that does not come through the references. -/
def stranger (c : Link V) (s : Transport V) (t : ThreadId)
    (envelope : Envelope (UserMessage V)) : Letter (UserMessage V) :=
  { id := s.sent.length, author := t, via := c.refs.length, addressee := s.actor.name
    envelope }

/-- An effect of the receiver that is a message for the actor goes into its
mailbox. -/
def post (c : Link V) (letter : Envelope (UserMessage V) → Letter (UserMessage V))
    (s : Transport V) (effect : Effect V) : Transport V :=
  match effect with
  | .posted tx envelope =>
    if tx = c.mailbox then { s with actor := s.actor.deliver (letter envelope) }
    else s
  | _ => s

variable [DecidableEq τ]

/-- A turn of the receiver loop. -/
def hear (c : Link V) (s : Transport V) (received : RecvResult)
    (letter : Envelope (UserMessage V) → Letter (UserMessage V)) : Transport V :=
  let receiver := s.receiver.iterate c.json c.serde c.receiverSender received
  (receiver.effects.drop s.receiver.effects.length).foldl (post c letter)
    { s with receiver }

/-- `RemoteActorRef::send`. -/
def send (c : Link V) (s : Transport V) (t : ThreadId) (r : Nat)
    (msg : Message (UserMessage V)) (sender : Option ActorRef) :
    Option (Transport V) :=
  match c.refs[r]? with
  | none => none
  | some (name, endpoint) =>
    let target := c.zmqSender.remoteRef name endpoint
    let (o, registries) := target.zmqSender.sendTo c.json c.serde s.registries
      target.endpoint target.name msg sender
    match o with
    | .value request =>
      let l : Letter (UserMessage V) :=
        { id := s.sent.length, author := t, via := r, addressee := name
          envelope := .new msg sender }
      some { s with
        registries, requests := s.requests ++ [(request, l)], sent := s.sent ++ [l] }
    | .panic _ => some { s with registries }

/-- `send_rx.recv()`, and `connect` when there is no socket for the endpoint. -/
def take (s : Transport V) (connects : Bool) : Option (Transport V) :=
  match s.hand, s.requests with
  | none, (request, l) :: rest =>
    let needsConnect := (s.sockets.lookup request.endpoint).isNone
    let connectEndpoint := request.endpoint.replace "tcp://*:" "tcp://localhost:"
    some { s with
      requests := rest, hand := some (request, l)
      sockets :=
        if needsConnect && connects then
          s.sockets.insert request.endpoint { connectEndpoint, frames := [] }
        else s.sockets }
  | _, _ => none

/-- `socket.send`, when there is a socket. -/
def transmit (s : Transport V) (sends : Bool) : Option (Transport V) :=
  match s.hand with
  | none => none
  | some (request, l) =>
    match s.sockets.lookup request.endpoint with
    | some socket =>
      if sends then
        some { s with
          hand := none
          sockets := s.sockets.insert request.endpoint
            { socket with frames := socket.frames ++ [(request.data, l)] } }
      else some { s with hand := none }
    | none => some { s with hand := none }

/-- A frame is lost. -/
def lose (s : Transport V) (endpoint : String) (k : Nat) : Option (Transport V) :=
  (s.sockets.lookup endpoint).map fun socket =>
    let frames := socket.frames.eraseIdx k
    { s with sockets := s.sockets.insert endpoint { socket with frames } }

/-- `socket.recv()` of the receiver returns the next frame of a connection. -/
def receive (c : Link V) (s : Transport V) (endpoint : String) :
    Option (Transport V) :=
  match s.sockets.lookup endpoint with
  | none => none
  | some socket =>
    match socket.frames with
    | [] => none
    | (data, l) :: rest =>
      if c.reaches socket.connectEndpoint = true ∧ s.receiver.status = .looping ∧
          s.receiver.running = true then
        let sockets := s.sockets.insert endpoint { socket with frames := rest }
        some ({ s with sockets }.hear c (.message [data])
          fun envelope => { l with envelope })
      else none

/-- One step. -/
def next (c : Link V) (s : Transport V) : TransportAction V → Option (Transport V)
  | .send t r msg sender => s.send c t r msg sender
  | .take connects => s.take connects
  | .transmit sends => s.transmit sends
  | .lose endpoint k => s.lose endpoint k
  | .receive endpoint => s.receive c endpoint
  | .other received => some (s.hear c received (s.stranger c (.client 0)))
  | .stop => some { s with receiver := { s.receiver with running := false } }
  | .localSend t envelope =>
    some { s with actor := s.actor.deliver (s.stranger c t envelope) }
  | .actor => (s.actor.runStep c.mailbox).map fun x => { s with actor := x.1 }
  | .codeReturn => s.actor.codeReturn.map fun x => { s with actor := x.1 }
  | .codePanic => s.actor.codePanic.map fun actor => { s with actor }
  | .reply => some { s with actor := s.actor.reply.2 }
  | .actorStop => some { s with actor := s.actor.stop }

/-- The machine, with any registrations in the two processes. -/
def machine (c : Link V) : Machine (Transport V) (TransportAction V) :=
  .ofNext (fun s => ∃ registries tables name, s = start c registries tables name)
    (next c)

end Transport

end Actors
