import Iterabase.Dispatch.Projection
import Iterabase.Dispatch.Compliance
import Iterabase.Harness.OutcomeOrder
import Iterabase.Combined.Completion
import Iterabase.Gateway.Execution
import Iterabase.Gateway.Commit
import Iterabase.Work.Completion
import Iterabase.Dispatch.EventLog
import Iterabase.Runtime.History
import Iterabase.Runtime.Appends
import Iterabase.SessionUid.Safety
import Iterabase.SessionUid.Concurrent
import Iterabase.Dispatch.Gates
import Iterabase.Dispatch.OneCredit
import Iterabase.Gateway.Requests
import Iterabase.Gateway.Drain
import Iterabase.Gateway.StateMachine
import Iterabase.Auth.Session
import Iterabase.Artifact.Durable
import Iterabase.Auth.Enumeration
import Iterabase.Dispatch.Scope
import Iterabase.Gateway.Semaphore
import Iterabase.Harness.FrameReader
import Iterabase.Proxy.Batcher
import Iterabase.Proxy.Cache
import Iterabase.Proxy.RateLimit
import Iterabase.Work.Disclosure
import Iterabase.Work.Timeline
import Iterabase.Work.Value
