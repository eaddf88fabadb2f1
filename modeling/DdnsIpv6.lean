import DdnsIpv6.Lib.Run
import DdnsIpv6.Lib.Observer
import DdnsIpv6.Lib.Fair
import DdnsIpv6.Lib.Changes
import DdnsIpv6.Lib.Watch
import DdnsIpv6.Lib.WriteThrough.Isolation
import DdnsIpv6.Lib.WriteThrough.Coherence
import DdnsIpv6.Lib.Register
import DdnsIpv6.Lib.Logged
import DdnsIpv6.Lib.Ipv6
import DdnsIpv6.Lib.Ipv6.Text
import DdnsIpv6.Lib.Ipv6.RoundTrip
import DdnsIpv6.Error
import DdnsIpv6.Util
import DdnsIpv6.Config
import DdnsIpv6.Config.Document
import DdnsIpv6.Config.Keys
import DdnsIpv6.Config.Dropped
import DdnsIpv6.Config.Order
import DdnsIpv6.Updater
import DdnsIpv6.Cycle
import DdnsIpv6.Cycle.Effect
import DdnsIpv6.Cycle.Isolation
import DdnsIpv6.Cycle.SkipSafety
import DdnsIpv6.Prefix
import DdnsIpv6.Prefix.Dns
import DdnsIpv6.Prefix.Netlink
import DdnsIpv6.Lib.StableSort
import DdnsIpv6.Prefix.Netlink.Selection
import DdnsIpv6.Prefix.Ra
import DdnsIpv6.Prefix.Ra.Format
import DdnsIpv6.Prefix.Ra.Encode
import DdnsIpv6.Prefix.Ra.Socket
import DdnsIpv6.Lib.Traced
import DdnsIpv6.Prefix.Ra.Trace
import DdnsIpv6.Docker
import DdnsIpv6.Docker.Order
import DdnsIpv6.Docker.Discovery
import DdnsIpv6.Sources
import DdnsIpv6.Publish
import DdnsIpv6.Assertions
import DdnsIpv6.Tasks
import DdnsIpv6.Tasks.Notify
import DdnsIpv6.Tasks.Poll
import DdnsIpv6.Tasks.Shutdown
import DdnsIpv6.Tasks.Listener
import DdnsIpv6.Tasks.Served
import DdnsIpv6.Tasks.Outcomes
import DdnsIpv6.Tasks.Tally
import DdnsIpv6.Tasks.Refinement
import DdnsIpv6.Tasks.Causes
import DdnsIpv6.Tasks.Fresh
import DdnsIpv6.Tasks.Progress
import DdnsIpv6.Lib.Url
import DdnsIpv6.Lib.Remote
import DdnsIpv6.Updater.Cloudflare
import DdnsIpv6.Updater.Zone
import DdnsIpv6.Updater.SetRecord
import DdnsIpv6.Updater.Rfc2136
import DdnsIpv6.Updater.Contract
import DdnsIpv6.Updater.Lossy
import DdnsIpv6.Updater.Remote
import DdnsIpv6.Tasks.Delivery
import DdnsIpv6.Updater.Frame
import DdnsIpv6.Updater.Discipline
import DdnsIpv6.Updater.NoDuplicates
import DdnsIpv6.Updater.Wire
import DdnsIpv6.Tasks.Wire
import DdnsIpv6.Startup
import DdnsIpv6.Lib.Restart
import DdnsIpv6.Tasks.Containers
import DdnsIpv6.Tasks.Restart
import DdnsIpv6.Tasks.Settles
