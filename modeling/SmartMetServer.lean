import SmartMetServer.AcceptLoop
import SmartMetServer.Afresh
import SmartMetServer.Bookkeeping
import SmartMetServer.ChunkedReply
import SmartMetServer.ClientHooks
import SmartMetServer.ClientView
import SmartMetServer.ContentCodings
import SmartMetServer.Departures
import SmartMetServer.Dispatch
import SmartMetServer.Draining
import SmartMetServer.ExecutorLifecycle
import SmartMetServer.FailedWrites
import SmartMetServer.Framing
import SmartMetServer.HeadReply
import SmartMetServer.HeadTwin
import SmartMetServer.Interim
import SmartMetServer.MaxEventFreq
import SmartMetServer.Ordering
import SmartMetServer.Pools
import SmartMetServer.Queueing
import SmartMetServer.ReadBuffer
import SmartMetServer.ReadDeadline
import SmartMetServer.SerialRuns
import SmartMetServer.Service
import SmartMetServer.Shutdown
import SmartMetServer.SizeLimit
import SmartMetServer.StaleDirectives
import SmartMetServer.StreamReply
import SmartMetServer.Turns
import SmartMetServer.Untrusted
import SmartMetServer.Versions
import SmartMetServer.Work
