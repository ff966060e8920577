import Actors.Lib.Lists
import Actors.Lib.Machine
import Actors.Lib.HashMap
import Actors.Lib.Pipeline
import Actors.Lib.Mutex
import Actors.Lib.Waiting
import Actors.Lib.Panic
import Actors.Message
import Actors.Actor.Context
import Actors.Actor.Ledger
import Actors.Actor.Lifecycle
import Actors.Actor.Runtime
import Actors.Actor.Stop
import Actors.Manager.State
import Actors.Manager.Step
import Actors.Manager.Move
import Actors.Manager.Change
import Actors.Manager.Ownership
import Actors.Manager.Mailboxes
import Actors.Manager.Replies
import Actors.Manager.Shutdown
import Actors.Manager.Requests
import Actors.Manager.Starts
import Actors.Manager.Bookkeeping
import Actors.Manager.Order
import Actors.Manager.Calls
import Actors.Manager.Deadlock
import Actors.Group.State
import Actors.Group.Step
import Actors.Group.Move
import Actors.Group.Locks
import Actors.Group.Flow
import Actors.Group.Order
import Actors.Group.Routes
import Actors.Group.Delivery
import Actors.Group.Replies
import Actors.Group.Lifecycle
import Actors.Group.Shutdown
import Actors.Group.Requests
import Actors.Group.Waits
import Actors.Group.Progress
import Actors.Group.Panics
import Actors.Group.Wedge
import Actors.Group.Hanging
import Actors.Group.Membership
import Actors.Group.Starts
import Actors.Group.Work
import Actors.Group.Rest
import Actors.Replies
import Actors.Requests
import Actors.LaterReplies
import Actors.Serialization.Failures
import Actors.Serialization.Coherence
import Actors.Remote.Receiver
import Actors.Remote.RoundTrip
import Actors.Remote.Exchange
import Actors.Remote.Conversation
import Actors.Remote.Dialogue
import Actors.Remote.Reactions
import Actors.Remote.Rejects
import Actors.Remote.Transport
import Actors.Remote.Ordering
import Actors.Remote.Delivery
import Actors.Remote.SenderThread
import Actors.Remote.Answers
import Actors.Remote.Handle
import Actors.Remote.Registration
import Actors.Timer.Step
import Actors.Timer.Stop
import Actors.Timer.Ticks
import Actors.Timer.App
import Actors.Timer.Example
import Actors.Timer.RunOut
import Actors.Lib.Net
import Actors.App.Program
import Actors.App.Plain
import Actors.App.Run
import Actors.App.View
import Actors.App.Refinement
import Actors.App.Handled
import Actors.App.Work
import Actors.App.Rest
import Actors.App.PingPong
import Actors.App.Finish
