import SeppPy.Machine.Run
import SeppPy.Data.Binary64
import SeppPy.Data.Except
import SeppPy.Data.Dict
import SeppPy.Data.Split
import SeppPy.Datetime
import SeppPy.Errors
import SeppPy.PyFloat
import SeppPy.Protobuf
import SeppPy.Types
import SeppPy.Convert
import SeppPy.Decoding
import SeppPy.Agreement
import SeppPy.Encoding
import SeppPy.Traceparent
import SeppPy.Client.Deliveries
import SeppPy.Client.Retry
import SeppPy.Client.Attempts
import SeppPy.Client.Backoff
import SeppPy.Client.Enqueue
import SeppPy.Client.RoundTrip
import SeppPy.Client.Replay
import SeppPy.Client.Responses
import SeppPy.Client.Extend
import SeppPy.Client.Expiries
import SeppPy.Client.Overlap
import SeppPy.Client.RetrySteps
import SeppPy.Worker.Handlers
import SeppPy.Worker.Config
import SeppPy.Client.Dispositions
import SeppPy.Client.Underway
import SeppPy.Worker.JobTask
import SeppPy.Worker.Disposal
import SeppPy.Worker.LeaseLoss
import SeppPy.Worker.Modes
import SeppPy.Worker.Clocked
import SeppPy.Worker.GivingUp
import SeppPy.Worker.Renewal
import SeppPy.Worker.Loop
import SeppPy.Worker.Permits
import SeppPy.Worker.Reaping
import SeppPy.Worker.Slots
import SeppPy.Worker.Shutdown
import SeppPy.Worker.Cancellation
import SeppPy.Worker.Verdicts
import SeppPy.Worker.Races
import SeppPy.Worker.Reservations
import SeppPy.Worker.Exits
import SeppPy.Worker.Metrics
import SeppPy.Worker.Calling
import SeppPy.Worker.Answers
import SeppPy.Worker.Counters
import SeppPy.Worker.Accounts
import SeppPy.Worker.Handed
import SeppPy.Worker.Progress
import SeppPy.Worker.Termination
