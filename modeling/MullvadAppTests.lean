import MullvadAppTests.Lib.Incremental
import MullvadAppTests.Lib.LengthDelimited
import MullvadAppTests.Lib.Pipe
import MullvadAppTests.Lib.Transition
import MullvadAppTests.TestRpc.Codec
import MullvadAppTests.TestRpc.CodecStream
import MullvadAppTests.TestRpc.CodecConnect
import MullvadAppTests.TestRpc.CodecAccepts
import MullvadAppTests.TestRpc.CodecReconnect
import MullvadAppTests.TestRpc.ForwardMessages
import MullvadAppTests.TestRpc.EndpointMoves
import MullvadAppTests.TestRpc.MultiplexLink
import MullvadAppTests.TestRpc.ConnectionHandle
import MullvadAppTests.TestRpc.GrpcForwarder
import MullvadAppTests.TestManager.NewRpcClient
import MullvadAppTests.TestRunner.DaemonInterface
import MullvadAppTests.TestManager.ManagerMoves
import MullvadAppTests.TestManager.ResetSession
import MullvadAppTests.TestRunner.RunnerMoves
import MullvadAppTests.DaemonProxy.Proxy
import MullvadAppTests.DaemonProxy.Upstream
import MullvadAppTests.DaemonProxy.Downstream
import MullvadAppTests.DaemonProxy.Fidelity
import MullvadAppTests.TestManager.DaemonChannel
import MullvadAppTests.Lib.OpenFile
import MullvadAppTests.TestRunner.SessionSignals
import MullvadAppTests.TestRunner.Sys
import MullvadAppTests.Lib.Text
import MullvadAppTests.TestManager.Summary
import MullvadAppTests.TestManager.TestMetadata
import MullvadAppTests.TestManager.SummaryTable
import MullvadAppTests.Lib.Selection
import MullvadAppTests.TestManager.RunTests
import MullvadAppTests.TestManager.RunLogs
import MullvadAppTests.TestManager.Report
import MullvadAppTests.Lib.Ip
import MullvadAppTests.TestManager.NetworkMonitor
import MullvadAppTests.TestManager.PacketReading
import MullvadAppTests.TestManager.PacketMonitor
import MullvadAppTests.TestManager.LeakTestDns
import MullvadAppTests.Lib.Regex
import MullvadAppTests.TestManager.Package
import MullvadAppTests.TestManager.FindApp
import MullvadAppTests.Lib.Serde
import MullvadAppTests.Lib.Utf8
import MullvadAppTests.TestManager.Config
import MullvadAppTests.TestManager.ConfigJson
import MullvadAppTests.TestManager.ConfigFile
import MullvadAppTests.Ci.PackageNames
import MullvadAppTests.Ci.VersionNames
import MullvadAppTests.Ci.PackageLookup
import MullvadAppTests.Lib.Broadcast
import MullvadAppTests.TestRunner.TryPollOutput
import MullvadAppTests.TestManager.ErrorMessages
import MullvadAppTests.TestManager.WaitForTunnelState
import MullvadAppTests.TestManager.ConnectAndWait
import MullvadAppTests.Lib.Json
import MullvadAppTests.Lib.JsonText
import MullvadAppTests.Lib.JsonPrefix
import MullvadAppTests.TestRunner.DeviceJson
import MullvadAppTests.TestRunner.FindTraces
import MullvadAppTests.TestManager.MonitorWindow
import MullvadAppTests.TestManager.RelayTraffic
import MullvadAppTests.TestRpc.LinkProgress
import MullvadAppTests.TestManager.Cleanup
import MullvadAppTests.Lib.Replace
import MullvadAppTests.Ci.TestJobs
import MullvadAppTests.TestManager.Main
import MullvadAppTests.Ci.GreenScript
