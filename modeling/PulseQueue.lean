import PulseQueue.Proof.Accounts
import PulseQueue.Proof.Cancellation
import PulseQueue.Proof.CatchUp
import PulseQueue.Proof.ClaimLog
import PulseQueue.Proof.ConfigAtRest
import PulseQueue.Proof.ConfigFreshness
import PulseQueue.Proof.ConfigUpdates
import PulseQueue.Proof.Cursors
import PulseQueue.Proof.Equivalence
import PulseQueue.Proof.Fingerprint
import PulseQueue.Proof.Heartbeats
import PulseQueue.Proof.InitSchema
import PulseQueue.Proof.KeyValues
import PulseQueue.Proof.Limits
import PulseQueue.Proof.Listings
import PulseQueue.Proof.LoadTests
import PulseQueue.Proof.Maintenance
import PulseQueue.Proof.Metrics
import PulseQueue.Proof.Occurrences
import PulseQueue.Proof.Percentile
import PulseQueue.Proof.PoolSize
import PulseQueue.Proof.ProcessCode
import PulseQueue.Proof.QueueDepth
import PulseQueue.Proof.Reenabling
import PulseQueue.Proof.RemoteResize
import PulseQueue.Proof.Retries
import PulseQueue.Proof.ScheduleListing
import PulseQueue.Proof.Selection
import PulseQueue.Proof.SilentSchedules
import PulseQueue.Proof.Submissions
import PulseQueue.Proof.ThreadJobs
import PulseQueue.Proof.Timestamps
