import Tang.Channel.Fifo
import Tang.Channel.Delivery
import Tang.Channel.Backpressure
import Tang.Channel.Drain
import Tang.Channel.Linearization
import Tang.Channel.Closing
import Tang.Channel.Operators
import Tang.Channel.Timely
import Tang.Channel.Parametric
import Tang.Channel.Waiting
import Tang.Runtime.Parking
import Tang.Runtime.Await
import Tang.Runtime.Lifetime
import Tang.Runtime.Completion
import Tang.Runtime.Starting
import Tang.Runtime.Projection
import Tang.Runtime.Cooperative
import Tang.Runtime.Rest
import Tang.Runtime.Evaluation
import Tang.Select.Suspension
import Tang.Select.Undisturbed
import Tang.Select.Progress
import Tang.EventLoop.LifeCycle
import Tang.EventLoop.Registration
import Tang.EventLoop.Timeout
import Tang.EventLoop.Narrowing
import Tang.EventLoop.Conditions
import Tang.EventLoop.Stopping
import Tang.EventLoop.Unwinding
import Tang.EventLoop.Delivery
import Tang.EventLoop.Sweep
import Tang.EventLoop.CompletionPort
import Tang.EventLoop.Firing
import Tang.EventLoop.Handling
import Tang.Scheduler.Wakeup
import Tang.Scheduler.Joining
import Tang.Scheduler.Disposal
import Tang.Scheduler.Silence
import Tang.Scheduler.Locks
import Tang.Scheduler.Counter
import Tang.Scheduler.Global
import Tang.Scheduler.Spawning
import Tang.Scheduler.Release
import Tang.Scheduler.Termination
import Tang.Scheduler.Service
import Tang.Scheduler.Finishing
import Tang.Scheduler.RuntimeScope
import Tang.TaskObjects.Ownership
import Tang.Defer.Guards
