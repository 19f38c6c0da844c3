import Yapm.CallSteps
import Yapm.Cancellation
import Yapm.ClientView
import Yapm.ConfigForms
import Yapm.Confinement
import Yapm.Drain
import Yapm.Environment
import Yapm.Exchange
import Yapm.FileFaults
import Yapm.Handlers
import Yapm.Instances
import Yapm.Ledger
import Yapm.Listing
import Yapm.LockOrder
import Yapm.LogPaths
import Yapm.LogStream
import Yapm.MemoryLimits
import Yapm.MetricsTasks
import Yapm.Options
import Yapm.Pending
import Yapm.PolicyUnion
import Yapm.Provenance
import Yapm.Reaper
import Yapm.Records
import Yapm.Refresh
import Yapm.Replies
import Yapm.ResourceOptions
import Yapm.Service
import Yapm.Shutdown
import Yapm.Signals
import Yapm.Socket
import Yapm.SoleDaemon
import Yapm.StartOutcome
import Yapm.StatLine
import Yapm.StopFinal
import Yapm.Streams
import Yapm.Submissions
import Yapm.SyscallFlags
import Yapm.TaskIndex
import Yapm.Validation
import Yapm.Work
