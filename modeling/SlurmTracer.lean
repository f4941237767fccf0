import SlurmTracer.Lib.Bytes
import SlurmTracer.Lib.Decimal
import SlurmTracer.Lib.Utf8
import SlurmTracer.Lib.Json
import SlurmTracer.Lib.Frontier
import SlurmTracer.Lib.Keyed
import SlurmTracer.Lib.Reconcile
import SlurmTracer.Lib.DropOldest
import SlurmTracer.Lib.Transition
import SlurmTracer.Lib.LastOf
import SlurmTracer.Lib.Lifetimes
import SlurmTracer.Lib.Tally
import SlurmTracer.Lib.Search
import SlurmTracer.Lib.HttpMessage
import SlurmTracer.Lib.HttpRequest
import SlurmTracer.Lib.Memory
import SlurmTracer.Lib.JsonReading
import SlurmTracer.Lib.Stretch
import SlurmTracer.Core.Attribution
import SlurmTracer.Core.CgroupTree
import SlurmTracer.Core.CgroupWatcher
import SlurmTracer.Core.Config
import SlurmTracer.Core.ConfigFile
import SlurmTracer.Core.Record
import SlurmTracer.Core.Pipeline
import SlurmTracer.Core.Sink
import SlurmTracer.Core.Serialise
import SlurmTracer.Core.EventLoop
import SlurmTracer.Core.PluginLoader
import SlurmTracer.Core.Daemon
import SlurmTracer.Core.Threads
import SlurmTracer.Core.Shutdown
import SlurmTracer.Core.Rings
import SlurmTracer.Core.Startup
import SlurmTracer.Core.Http
import SlurmTracer.Core.Endpoint
import SlurmTracer.Core.Wire
import SlurmTracer.Core.MainLoop
import SlurmTracer.Core.Sockets
import SlurmTracer.Core.Plugins
import SlurmTracer.Core.Main
import SlurmTracer.ResolverProofs
import SlurmTracer.AttributionProofs
import SlurmTracer.ParseMeaning
import SlurmTracer.TruncatedPaths
import SlurmTracer.WalkProofs
import SlurmTracer.ConfigErrors
import SlurmTracer.Durations
import SlurmTracer.NumberSettings
import SlurmTracer.EndpointGrammar
import SlurmTracer.EventLoopProofs
import SlurmTracer.LoopBindings
import SlurmTracer.DaemonProofs
import SlurmTracer.ReloadDiff
import SlurmTracer.DaemonRuns
import SlurmTracer.StartIsolation
import SlurmTracer.MappingBalance
import SlurmTracer.RecycleGuard
import SlurmTracer.GracePeriod
import SlurmTracer.WalkAndFeed
import SlurmTracer.WalkCompleteness
import SlurmTracer.BootstrapClocks
import SlurmTracer.StartupHole
import SlurmTracer.CreationRace
import SlurmTracer.PipelineDelivery
import SlurmTracer.UserNames
import SlurmTracer.FlushInterval
import SlurmTracer.SinkDebts
import SlurmTracer.JsonLines
import SlurmTracer.QueueSteps
import SlurmTracer.QueueConservation
import SlurmTracer.FlushBarrier
import SlurmTracer.EvictionPolicy
import SlurmTracer.ReloadConvergence
import SlurmTracer.ZombieFreedom
import SlurmTracer.ThreadSteps
import SlurmTracer.NonBlocking
import SlurmTracer.DropTotals
import SlurmTracer.PostProofs
import SlurmTracer.PeerFailures
import SlurmTracer.ResponseFraming
import SlurmTracer.StatusLines
import SlurmTracer.ResponseReading
import SlurmTracer.PostTraffic
import SlurmTracer.Interruptions
import SlurmTracer.RequestForm
import SlurmTracer.ReportedEvents
import SlurmTracer.LoopSignals
import SlurmTracer.SampleDispatch
import SlurmTracer.RunAccounts
import SlurmTracer.ConfigInForce
import SlurmTracer.SinkHandover
import SlurmTracer.WorkerJoins
import SlurmTracer.RecordLines
import SlurmTracer.SocketLifetimes
import SlurmTracer.SettingsInUse
import SlurmTracer.CommandLine
import SlurmTracer.RootDiscovery
import SlurmTracer.SampleTraffic
