import Sysmon.Lib.Run
import Sysmon.Host
import Sysmon.Page
import Sysmon.Check.Retval
import Sysmon.Check.Paging
import Sysmon.Check.Events
import Sysmon.Lib.CText
import Sysmon.SaveState
import Sysmon.StateLines
import Sysmon.ConfGen.Store
import Sysmon.ConfGen.Ops
import Sysmon.ConfGen.Apply
import Sysmon.ConfGen.Crash
import Sysmon.ConfGen.Rollback
import Sysmon.Parser.Object
import Sysmon.Parser.Isolation
import Sysmon.Reload
import Sysmon.Queue
import Sysmon.ReloadState
import Sysmon.Sweep
import Sysmon.Fleet.Hash
import Sysmon.Fleet.Put
import Sysmon.Fleet.Get
import Sysmon.Fleet.Verdict
import Sysmon.Fleet.Generations
import Sysmon.Fleet.Site
import Sysmon.Fleet.Poison
import Sysmon.Fleet.Rollout
import Sysmon.Fleet.Saves
import Sysmon.Lib.Flex
import Sysmon.Parser.Scanner
import Sysmon.Parser.Files
import Sysmon.ConfGen.Validate
import Sysmon.Lib.Ber
import Sysmon.Snmp.Ber
import Sysmon.Snmp.Get
import Sysmon.Trap.Decode
import Sysmon.Snmp.Verdict
import Sysmon.Snmp.Rate
import Sysmon.Trap.OidText
import Sysmon.Snmp.Oid
import Sysmon.Trap.Translate
import Sysmon.Lib.Logged
import Sysmon.Packet.Ber
import Sysmon.Packet.Values
import Sysmon.Packet.Trap
import Sysmon.Packet.Response
import Sysmon.Lib.RingBuffer
import Sysmon.Trap.History
import Sysmon.ConfGen.Accepted
import Sysmon.Fleet.Loaded
import Sysmon.Fleet.Stored
import Sysmon.Agents.Tokens
import Sysmon.Agents.Registry
import Sysmon.Agents.Revocation
import Sysmon.Agents.Alerts
import Sysmon.Agents.Acceptance
import Sysmon.Lib.GoMap
import Sysmon.Monitoring.Delta
import Sysmon.Auth.Refresh
import Sysmon.Monitoring.Traps
import Sysmon.Srvclient.Object
import Sysmon.Srvclient.Changes
import Sysmon.Monitoring.Statal
import Sysmon.Monitoring.Conf
import Sysmon.Check.Transitions
import Sysmon.Schedule
import Sysmon.Adjacency
import Sysmon.Icmp
import Sysmon.Config.SaveBack
import Sysmon.Config.Backups
import Sysmon.Config.Injection
import Sysmon.Monitoring.Qualified
import Sysmon.Trap.Alert
import Sysmon.Trap.Iface
import Sysmon.Parser.Replace
import Sysmon.Fleet.Refusal
import Sysmon.Srvclient.WellFormed
import Sysmon.Config.Bounds
import Sysmon.Config.Layout
import Sysmon.Lib.Search
import Sysmon.ConfGen.Count
import Sysmon.Fleet.Blame
import Sysmon.Middleware.RateLimit
import Sysmon.Lib.Labels
import Sysmon.Dns
import Sysmon.IcmpInput
import Sysmon.Ping
import Sysmon.UdpCheck
import Sysmon.Wakeup
import Sysmon.Monitoring.History
import Sysmon.Monitoring.Statistics
import Sysmon.Lib.Grouped
import Sysmon.Lib.GoQuote
import Sysmon.Monitoring.Bulk
import Sysmon.Config.AgentConf
import Sysmon.Lib.Chain
import Sysmon.DnsCache
import Sysmon.Snmp.Minimal
import Sysmon.Lib.Bufio
import Sysmon.Agents.LineReading
import Sysmon.Lib.Feedback
import Sysmon.Radius
import Sysmon.Lib.Absorb
import Sysmon.Md5
import Sysmon.Lib.Script
import Sysmon.TcpCheck
import Sysmon.TcpMemory
import Sysmon.Dialogue
import Sysmon.Clients
import Sysmon.Monitoring.Uptime
import Sysmon.Lib.Custody
import Sysmon.Auth.SignIn
import Sysmon.Auth.Grants
import Sysmon.Auth.Origins
import Sysmon.Lib.Edges
import Sysmon.Push.Watch
import Sysmon.Push.Subscriptions
