import Koroutine.Transition.Run
import Koroutine.Transition.Parties
import Koroutine.Transition.Monitor
import Koroutine.Transition.Handshake
import Koroutine.Transition.Fifo
import Koroutine.Combinator.Basic
import Koroutine.Combinator.JoinAll
import Koroutine.Combinator.JoinAllWakeup
import Koroutine.Combinator.Registration
import Koroutine.Combinator.WhenAll
import Koroutine.Combinator.WhenAllHandshake
import Koroutine.Combinator.WhenAny
import Koroutine.Combinator.WhenAnyHandshake
import Koroutine.Combinator.WhenAnyOutcome
import Koroutine.Combinator.Resumption
import Koroutine.Combinator.Lifetime
import Koroutine.Channel.Basic
import Koroutine.Channel.Bounds
import Koroutine.Channel.Order
import Koroutine.Sync.Basic
import Koroutine.Sync.Linked
import Koroutine.Sync.Ownership
import Koroutine.Sync.Release
import Koroutine.Engine.IoUring
import Koroutine.Engine.IoUringWakeup
import Koroutine.Task.Body
import Koroutine.Task.Frames
import Koroutine.Task.Control
import Koroutine.Task.ControlStep
import Koroutine.Task.BlockOn
import Koroutine.Task.Evaluation
import Koroutine.Task.Ledger
import Koroutine.Task.Cancellation
import Koroutine.Channel.Closing
import Koroutine.Channel.Handover
import Koroutine.Sync.Turns
import Koroutine.Executor.Draining
import Koroutine.Executor.Delayed
import Koroutine.Engine.Iocp
import Koroutine.Engine.IocpCompletion
import Koroutine.Engine.IocpStopping
import Koroutine.Engine.Kqueue
import Koroutine.Engine.KqueueCompletion
import Koroutine.Engine.Stopping
import Koroutine.Manager.Basic
import Koroutine.Manager.Prompt
import Koroutine.Manager.Effect
import Koroutine.Manager.Joining
import Koroutine.Manager.ShuttingDown
import Koroutine.Manager.Cancelling
import Koroutine.Engine.IoUringProgress
import Koroutine.Engine.KqueueProgress
import Koroutine.Engine.Closing
import Koroutine.Engine.IoUringAddress
import Koroutine.Task.Token
import Koroutine.Task.Finishing
import Koroutine.Channel.StandardStream
import Koroutine.Task.Owning
import Koroutine.Task.Chaining
import Koroutine.Combinator.WhenAllOutcome
import Koroutine.Combinator.WhenAllThrowing
import Koroutine.Sync.Destroying
import Koroutine.Task.Reentering
import Koroutine.Task.Registering
import Koroutine.Channel.Emptying
import Koroutine.Channel.Resuming
import Koroutine.Generator.Basic
import Koroutine.Generator.Stages
import Koroutine.Generator.Pipeline
import Koroutine.Generator.Taking
import Koroutine.AsyncIO.Extraction
import Koroutine.Executor.Watching
import Koroutine.AsyncIO.Closing
import Koroutine.AsyncIO.Connecting
import Koroutine.AsyncIO.Ownership
import Koroutine.Executor.Clock
import Koroutine.Executor.Looper
import Koroutine.Executor.Looping
import Koroutine.Executor.Spinning
import Koroutine.Scheduler.Popping
import Koroutine.Scheduler.Joining
import Koroutine.Scheduler.Duration
import Koroutine.Scheduler.Sleeping
import Koroutine.Httplib.Stream
import Koroutine.Httplib.Text
import Koroutine.Httplib.Encoding
import Koroutine.Httplib.Query
import Koroutine.Httplib.Header
import Koroutine.Httplib.Chunked
import Koroutine.Httplib.Content
import Koroutine.Httplib.Multipart
import Koroutine.Httplib.Writing
