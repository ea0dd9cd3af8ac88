import CyphalOnboard.OpenCyphal
import CyphalOnboard.QueueSpec
import CyphalOnboard.SingleFrameCanard
import CyphalOnboard.VisitSpec
import CyphalOnboard.InterfaceService
import CyphalOnboard.FrameConservation
import CyphalOnboard.FaultIsolation
import CyphalOnboard.Configuration
import CyphalOnboard.Dsdl
import CyphalOnboard.Messages
import CyphalOnboard.Library.Polling
import CyphalOnboard.Scheduler
import CyphalOnboard.Node
import CyphalOnboard.Periods
import CyphalOnboard.NodeSpec
import CyphalOnboard.Generations
import CyphalOnboard.RequestResponse
import CyphalOnboard.ByteArrayPublication
import CyphalOnboard.LatencyPairing
import CyphalOnboard.TransferIds
import CyphalOnboard.PublishResult
import CyphalOnboard.Startup
import CyphalOnboard.AddedTransceivers
import CyphalOnboard.HeapBalance
import CyphalOnboard.ByteArraySizes
import CyphalOnboard.Library.Layout
import CyphalOnboard.Deserialization
import CyphalOnboard.GetInfoAnswer
import CyphalOnboard.Uptime
import CyphalOnboard.NodeFactory
import CyphalOnboard.TransceiverSlots
import CyphalOnboard.FailureReports
import CyphalOnboard.FailedInterface
import CyphalOnboard.UniqueIds
import CyphalOnboard.Library.BitBuffer
import CyphalOnboard.NunavutBits
import CyphalOnboard.PackedFields
import CyphalOnboard.NodeSafety
import CyphalOnboard.Program
import CyphalOnboard.Library.BroadcastLog
import CyphalOnboard.SocketBus
import CyphalOnboard.BusDelivery
import CyphalOnboard.AtomicSteps
import CyphalOnboard.FrameOrigin
import CyphalOnboard.BusOrder
import CyphalOnboard.BusBalance
import CyphalOnboard.Library.StreamReader
import CyphalOnboard.MessageStreams
import CyphalOnboard.ReadRate
import CyphalOnboard.HealthLatch
import CyphalOnboard.SocketFilter
import CyphalOnboard.SocketOwnership
import CyphalOnboard.TransferOrigin
