import Vlb.Lib.Transition
import Vlb.Lib.Refinement
import Vlb.Lib.FairLock
import Vlb.Lib.Streak
import Vlb.Lib.Journal
import Vlb.Lib.Recent
import Vlb.Lib.Netfilter
import Vlb.Lib.PolicyRouting
import Vlb.Lib.Entries
import Vlb.Lib.Files
import Vlb.Lib.Interrupted
import Vlb.Lib.Chains
import Vlb.Lib.Meters
import Vlb.Lib.Text
import Vlb.Lib.Words
import Vlb.Lib.Json
import Vlb.Lib.Serde
import Vlb.Lib.Time
import Vlb.Lib.Dns
import Vlb.Lib.Blocks
import Vlb.Lib.BitPolynomials
import Vlb.Lib.Drain
import Vlb.Lib.Numerals
import Vlb.Lib.Dumps
import Vlb.Lib.Lexicographic
import Vlb.Lib.SemVer
import Vlb.Lib.Calendar
import Vlb.Lib.Rfc3339
import Vlb.Lib.Spans
import Vlb.Config
import Vlb.Selection
import Vlb.Damping
import Vlb.Health
import Vlb.Net.Router
import Vlb.Net.Defaults
import Vlb.Net.Pin
import Vlb.Net.Marks
import Vlb.Net.PolicyRules
import Vlb.Net.Stickiness
import Vlb.Net.Forwarding
import Vlb.Net.Http
import Vlb.Net.Reading
import Vlb.Net.Entity
import Vlb.Net.Acceptance
import Vlb.Net.Chunked
import Vlb.Net.BodyCap
import Vlb.Net.LineEndings
import Vlb.Net.Url
import Vlb.Net.UrlDisplay
import Vlb.Net.Canary
import Vlb.Net.Ranges
import Vlb.Net.DnsQuery
import Vlb.Net.DnsReply
import Vlb.Net.ProbeNames
import Vlb.Net.Requests
import Vlb.Net.Interception
import Vlb.Net.Passable
import Vlb.Net.Throughput
import Vlb.Net.Uplinks
import Vlb.Net.UplinkCounters
import Vlb.Net.Clients
import Vlb.Net.ClientRules
import Vlb.Net.ClientBytes
import Vlb.Net.ClientDumps
import Vlb.Net.DefaultRoutes
import Vlb.Net.LanHosts
import Vlb.Net.Bootstrap
import Vlb.Net.Firewall
import Vlb.Obs.ClientTables
import Vlb.Obs.Roster
import Vlb.Update.Version
import Vlb.Update.Precedence
import Vlb.Update.Redirects
import Vlb.Update.FrontEnds
import Vlb.Update.Offer
import Vlb.Update.Preflight
import Vlb.Update.Perform
import Vlb.Balancer.Locks
import Vlb.Balancer.Daemon
import Vlb.Balancer.Pinning
import Vlb.Balancer.Override
import Vlb.Balancer.Failback
import Vlb.Balancer.Exclusion
import Vlb.Balancer.FailedInstall
import Vlb.Balancer.Watchdog
import Vlb.Balancer.Restart
import Vlb.Balancer.Controller
import Vlb.Balancer.Lifetimes
import Vlb.Balancer.Steadiness
import Vlb.Balancer.FlapHistory
import Vlb.Obs.Windows
import Vlb.Obs.Rollup
import Vlb.Obs.Repeat
import Vlb.Balancer.HealthLoop
import Vlb.Balancer.CanaryRounds
import Vlb.Balancer.DnsRounds
import Vlb.Balancer.DnsHijack
import Vlb.Balancer.InternetProbe
import Vlb.Balancer.Throttle
import Vlb.Balancer.Clients
import Vlb.Balancer.ClientSessions
import Vlb.Balancer.ClientTotals
import Vlb.Balancer.ClientShutdown
import Vlb.Balancer.Departures
import Vlb.Balancer.Reclaim
import Vlb.Balancer.TrafficTick
import Vlb.Balancer.Sampling
import Vlb.Balancer.TrafficLoop
import Vlb.Balancer.ClockArithmetic
import Vlb.Ui.Wire
import Vlb.Ui.Size
import Vlb.Ui.Control
import Vlb.Ui.Delivery
import Vlb.Ui.RequestLines
import Vlb.Ui.Connections
import Vlb.Ui.ConnectedTime
import Vlb.Net.HostNames
import Vlb.Balancer.ClientNames
import Vlb.Ui.Screens
import Vlb.Balancer.StatusFrames
