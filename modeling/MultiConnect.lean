import MultiConnect.Library.OrdMap
import MultiConnect.Library.Reorder
import MultiConnect.Library.Run
import MultiConnect.Library.Runtime
import MultiConnect.Library.History
import MultiConnect.Library.EraseKeys
import MultiConnect.Library.Consecutive
import MultiConnect.Messages
import MultiConnect.Router
import MultiConnect.PathLatency
import MultiConnect.PacketSorter
import MultiConnect.Connection
import MultiConnect.Endpoint
import MultiConnect.ConnectionManager
import MultiConnect.EventLoops
import MultiConnect.Peers
import MultiConnect.Settings
import MultiConnect.Network
import MultiConnect.HashOrder
import MultiConnect.Proofs.SorterRuns
import MultiConnect.Proofs.SorterCopies
import MultiConnect.Proofs.SorterReordering
import MultiConnect.Proofs.SorterEffects
import MultiConnect.Proofs.SorterDeadline
import MultiConnect.Proofs.SorterDrains
import MultiConnect.Proofs.SorterOverflow
import MultiConnect.Proofs.SorterCapacity
import MultiConnect.Proofs.LargeJump
import MultiConnect.Proofs.EndpointSteps
import MultiConnect.Proofs.MessageFrames
import MultiConnect.Proofs.Routes
import MultiConnect.Proofs.RouterHistory
import MultiConnect.Proofs.DefaultRoutes
import MultiConnect.Proofs.LatencyWindow
import MultiConnect.Proofs.Sessions
import MultiConnect.Proofs.RouteSessions
import MultiConnect.Proofs.FailedSetup
import MultiConnect.Proofs.EventLoopWaits
import MultiConnect.Proofs.SelectiveDuplication
import MultiConnect.Proofs.LoopOps
import MultiConnect.Proofs.ConnectionKeys
import MultiConnect.Proofs.Disconnected
import MultiConnect.Proofs.CleanUp
import MultiConnect.Proofs.Keepalive
import MultiConnect.Proofs.Tunnel
import MultiConnect.Proofs.FanOut
import MultiConnect.Proofs.Counters
import MultiConnect.Proofs.CounterAgreement
import MultiConnect.Proofs.Provenance
import MultiConnect.Proofs.NetworkSteps
import MultiConnect.Proofs.Isolation
import MultiConnect.Proofs.Panics
import MultiConnect.Proofs.ConnectionChanges
import MultiConnect.Proofs.Handshake
import MultiConnect.Proofs.Delivery
import MultiConnect.Proofs.RouteTables
import MultiConnect.Proofs.IterationOrder
import MultiConnect.Proofs.ConnectionTimeouts
import MultiConnect.Proofs.LatencyRecords
import MultiConnect.Proofs.LoopsDrain
import MultiConnect.Proofs.Reconnection
import MultiConnect.Proofs.Recovery
