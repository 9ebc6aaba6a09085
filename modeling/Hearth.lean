import Hearth.Library.Transition
import Hearth.Library.Pointwise
import Hearth.Library.Outcome
import Hearth.Library.Loading
import Hearth.Library.Ahead
import Hearth.Library.PosixPath
import Hearth.Library.DepthFirst
import Hearth.Library.Association
import Hearth.Pools.Seat
import Hearth.Pools.Leases
import Hearth.Pools.SeatLifecycle
import Hearth.Pools.Owners
import Hearth.Pools.LeaseSpec
import Hearth.Pools.PoolInvariant
import Hearth.Pools.LeaseRuns
import Hearth.Pools.AttemptCleanup
import Hearth.Replay.Text
import Hearth.Replay.ClaimProbe
import Hearth.Replay.FoundationDelta
import Hearth.Replay.Semantics
import Hearth.Replay.Receipt
import Hearth.Replay.Verdict
import Hearth.Replay.Snapshot
import Hearth.Loader.Token
import Hearth.Loader.Lexer
import Hearth.Loader.Scan
import Hearth.Loader.Completeness
import Hearth.Basis.Admission
import Hearth.Basis.Replay
import Hearth.Closure.Resolve
import Hearth.Closure.Record
import Hearth.Closure.Build
import Hearth.Closure.Traversal
import Hearth.Closure.Transport
import Hearth.Closure.Prelude
import Hearth.Closure.RecordFacts
import Hearth.Library.Incremental
import Hearth.Library.Json
import Hearth.Broker.Frame
import Hearth.Broker.FrameReader
import Hearth.Broker.Attempt
import Hearth.Broker.Codec
import Hearth.Broker.Transfer
import Hearth.Broker.FinalEvent
import Hearth.Broker.Children
import Hearth.Broker.Orphans
import Hearth.Broker.Shutdown
import Hearth.Shelf.Admission
import Hearth.Shelf.Retirement
import Hearth.Library.Ascii
import Hearth.Diagnostics.Text
import Hearth.Diagnostics.Lines
import Hearth.Diagnostics.Activity
import Hearth.Diagnostics.Records
import Hearth.Diagnostics.ActivityRuns
import Hearth.Diagnostics.ActivityReport
import Hearth.Diagnostics.Failure
import Hearth.Diagnostics.FailureFrames
import Hearth.Diagnostics.FailureAccount
import Hearth.Library.JsonDict
import Hearth.Closure.LogicalRoots
import Hearth.Closure.Boundary
import Hearth.Closure.ProjectInputs
import Hearth.Closure.Identity
import Hearth.Library.JsonPatch
import Hearth.Broker.Handshake
import Hearth.Broker.Termination
import Hearth.Basis.Cache
import Hearth.Criu.Daemon
import Hearth.Criu.LazyPages
import Hearth.Criu.RestoreDocuments
import Hearth.Criu.RestoredTree
import Hearth.Criu.RestoreWrites
import Hearth.Criu.RestorePublication
import Hearth.Criu.RestoreSettlement
import Hearth.Criu.TreeCapture
import Hearth.Criu.RestoreCleanup
import Hearth.Broker.SpawnTokens
import Hearth.Broker.SpawnRecovery
import Hearth.Library.Raising
import Hearth.Closure.Materialize
import Hearth.Closure.PackagePublication
import Hearth.Closure.PackageLoops
import Hearth.Closure.PackageAgreement
import Hearth.Closure.Containment
import Hearth.Reopen.Publication
import Hearth.Library.ProcessTable
import Hearth.Broker.GroupSignals
import Hearth.Shelf.RetirementSchedule
import Hearth.Loader.TokenOrder
import Hearth.Loader.Directives
import Hearth.Pools.WarmProve
import Hearth.Processes.OwnedSet
import Hearth.Library.Lookahead
import Hearth.Loader.Lookahead
import Hearth.Loader.Rounds
import Hearth.Loader.Cut
import Hearth.Loader.ProveBindings
import Hearth.Loader.Balance
import Hearth.Loader.Shadows
import Hearth.Loader.Quotations
import Hearth.Library.Matches
import Hearth.Loader.Masking
import Hearth.Loader.Inventory
import Hearth.Loader.Coordinates
import Hearth.Loader.ChangeCwd
import Hearth.Loader.Literal
import Hearth.Broker.PreloadPhrase
import Hearth.Diagnostics.LineNumbers
import Hearth.Reopen.Scratch
import Hearth.Library.TextLines
import Hearth.Criu.LoaderExport
import Hearth.Criu.LoaderTranscript
import Hearth.Library.FileTree
import Hearth.Client.Frozen
import Hearth.Client.FrozenExact
import Hearth.Client.Installed
import Hearth.Criu.LoadedClosure
import Hearth.Criu.LoadedClosureFacts
import Hearth.Criu.LoadedClosureResolved
import Hearth.Criu.LoadedClosureExact
import Hearth.Library.Shell
import Hearth.Replay.ExportScript
import Hearth.Replay.ExportReading
import Hearth.Replay.ExportResolution
import Hearth.Replay.NaturalOutput
import Hearth.Library.HolTerm
import Hearth.Replay.StrictMatcher
import Hearth.Pools.SearchBudget
import Hearth.Replay.ClaimSets
import Hearth.Replay.FoundationWrapper
import Hearth.Client.PublishTree
import Hearth.Criu.TreeAcceptance
import Hearth.Closure.ElfTransport
import Hearth.Closure.BoundaryRoot
import Hearth.Replay.ClaimArtifacts
import Hearth.Shelf.Readiness
import Hearth.Shelf.ReadinessRuns
import Hearth.Shelf.ReadinessProbes
import Hearth.Shelf.ReadinessRecovery
import Hearth.Criu.LazyLaunch
import Hearth.Criu.LazyLaunchRuns
import Hearth.Replay.WatchLoop
import Hearth.Processes.SessionStop
import Hearth.Processes.SessionStopRuns
import Hearth.Pools.SeatIdentity
import Hearth.Pools.HotBootstrap
import Hearth.Pools.HotBootstrapRuns
import Hearth.Pools.Capacity
import Hearth.Pools.CapacityRuns
import Hearth.Pools.ServedCapacity
import Hearth.Library.Syscalls
import Hearth.Closure.SecureRead
import Hearth.Closure.SecureReadRest
