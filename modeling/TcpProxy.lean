import TcpProxy.Lib.Run
import TcpProxy.Lib.LinkedChain
import TcpProxy.Events.Registry
import TcpProxy.Events.FailedAdds
import TcpProxy.AutoBlacklist.Interleaving
import TcpProxy.AutoBlacklist.Invariants
import TcpProxy.AutoBlacklist.Expiry
import TcpProxy.AutoBlacklist.Bounds
import TcpProxy.Context.Populating
import TcpProxy.PacketAnalyzer.Plugin
import TcpProxy.Sysconf.RoundTrip
import TcpProxy.Sysconf.Memory
import TcpProxy.HashMap.Removal
import TcpProxy.HashMap.Hashing
import TcpProxy.Proxying.RateLimit
import TcpProxy.Proxying.RelayIntegrity
import TcpProxy.Proxying.Agreement
import TcpProxy.Proxying.TimerThread
import TcpProxy.Proxying.RecordKeeping
import TcpProxy.Proxying.Representation
import TcpProxy.Proxying.VipCheck
import TcpProxy.Proxying.Outcomes
import TcpProxy.Proxying.Startup
import TcpProxy.Proxying.Accounting
import TcpProxy.Proxying.IdleSweep
import TcpProxy.Proxying.Termination
import TcpProxy.Context.FixedPoint
import TcpProxy.PacketAnalyzer.Failures
import TcpProxy.Database.ProductNames
import TcpProxy.Database.Setters
import TcpProxy.Database.StatementUse
import TcpProxy.Database.Refinement
import TcpProxy.MacAddress
import TcpProxy.CommandLine.Dispatch
import TcpProxy.CommandLine.Registration
import TcpProxy.CommandLine.Completion
import TcpProxy.CommandLine.Output
import TcpProxy.CommandLine.Remote
import TcpProxy.CommandLine.Progress
import TcpProxy.CommandLine.Operating
import TcpProxy.CommandLine.ServerThread
import TcpProxy.PacketAnalyzer.SafeMode
import TcpProxy.MinuteTimer.IdleBound
import TcpProxy.AutoBlacklist.Interrupt
