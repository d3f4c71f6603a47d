import Lightbringer.Store.SlotEmission
import Lightbringer.Repair.Custody
import Lightbringer.Repair.Cancellation
import Lightbringer.Repair.Arrival
import Lightbringer.Overlay.Coverage
import Lightbringer.Overlay.IdentityGate
import Lightbringer.Overlay.Interference
import Lightbringer.Overlay.HelperSafety
import Lightbringer.Overlay.AdvertTruth
import Lightbringer.Overlay.CandidateBinding
import Lightbringer.Overlay.StreamIsolation
import Lightbringer.Overlay.IdentityIndex
import Lightbringer.Overlay.Supersession
import Lightbringer.Overlay.Quarantine
import Lightbringer.BlockConf.Continuity
import Lightbringer.BlockConf.Finality
import Lightbringer.Overlay.RepairExchange
import Lightbringer.Overlay.RepairServing
import Lightbringer.Overlay.PunchMessages
import Lightbringer.Overlay.Punch
import Lightbringer.Overlay.PunchSessions
import Lightbringer.Overlay.PunchIsolation
import Lightbringer.Overlay.PunchLifetime
import Lightbringer.Overlay.PunchExchange
import Lightbringer.Overlay.PunchRelay
import Lightbringer.Overlay.Signing
import Lightbringer.Overlay.PortMap
import Lightbringer.Overlay.Service
import Lightbringer.Overlay.Timers
import Lightbringer.Overlay.PunchTimers
import Lightbringer.Overlay.SpanningTree
import Lightbringer.Lib.Serde
import Lightbringer.Overlay.Packet
import Lightbringer.Overlay.Wire
import Lightbringer.Overlay.PunchMemory
import Lightbringer.Overlay.Refusals
import Lightbringer.Overlay.PunchRetry
import Lightbringer.Overlay.PortMapSafety
import Lightbringer.Lib.Utf8
import Lightbringer.Overlay.GatewayText
import Lightbringer.Overlay.GatewaySlices
import Lightbringer.Overlay.PortMapChecked
import Lightbringer.Overlay.PortMapPanics
import Lightbringer.Overlay.HttpChunks
import Lightbringer.Alpenglow.ArrivalOrder
import Lightbringer.Overlay.TransportCaps
import Lightbringer.Util.Deshred
import Lightbringer.Util.Completion
import Lightbringer.Util.Completeness
import Lightbringer.Store.Gaps
import Lightbringer.LeaderSchedule.Sync
import Lightbringer.LeaderSchedule.Pairing
import Lightbringer.LeaderSchedule.Stall
import Lightbringer.Overlay.ShredFlood
import Lightbringer.Repair.Ending
import Lightbringer.Store.ShredStore
import Lightbringer.RepairDelivery.Serve
import Lightbringer.RepairDelivery.Authenticity
import Lightbringer.Overlay.TimerDiscipline
import Lightbringer.Overlay.ResourceCaps
import Lightbringer.PacketFilter
import Lightbringer.Store.BoundedGaps
import Lightbringer.Store.ScanFaults
import Lightbringer.Repair.WireRecord
import Lightbringer.Repair.FollowUps
import Lightbringer.Repair.OutstandingMap
import Lightbringer.Repair.Retirement
import Lightbringer.Store.BatchStore
import Lightbringer.Store.ShredLookup
import Lightbringer.Store.Retention
import Lightbringer.GrpcSlotStream.Broadcast
import Lightbringer.GrpcSlotStream.Waiter
import Lightbringer.BlockConf.Teardown
import Lightbringer.Alpenglow.ParentOrder
import Lightbringer.Alpenglow.RankMaps
import Lightbringer.RepairDelivery.Reclaim
import Lightbringer.Repair.PeerManager
import Lightbringer.Overlay.Calibration
import Lightbringer.Lib.Best
import Lightbringer.Overlay.ConsistentMapping
import Lightbringer.Lib.WindowedLimit
import Lightbringer.Overlay.RateLimitRuns
import Lightbringer.Overlay.PortMapConnections
import Lightbringer.Overlay.Sim.NatBox
import Lightbringer.Overlay.NatInference
import Lightbringer.Overlay.RepairCodec
import Lightbringer.GrpcSlotStream.SlotEntry
import Lightbringer.Lib.ReverseIndex
import Lightbringer.Overlay.Sim.NatInvariant
import Lightbringer.Overlay.PeerSample
import Lightbringer.Overlay.ScoreWindows
import Lightbringer.Overlay.Sim.NatTraffic
import Lightbringer.Overlay.Sim.NatLeases
import Lightbringer.Overlay.Sim.Firewall
import Lightbringer.Overlay.PortMapRequests
import Lightbringer.Overlay.MessageText
import Lightbringer.Overlay.Sim.GatewayHttp
import Lightbringer.Overlay.Sim.Gateway
import Lightbringer.Overlay.Sim.GatewayAnswers
import Lightbringer.Overlay.Sim.GatewayUpnp
import Lightbringer.Overlay.Sim.LeaseAgreement
import Lightbringer.Lib.Agenda
import Lightbringer.Overlay.Sim.World
import Lightbringer.Overlay.Sim.WorldSteps
import Lightbringer.Overlay.Sim.WorldOrder
import Lightbringer.Overlay.Sim.WorldTimers
import Lightbringer.Lib.HashChain
import Lightbringer.Overlay.Sim.Trace
import Lightbringer.Overlay.Sim.NatChain
import Lightbringer.Overlay.Sim.WorldActs
import Lightbringer.Overlay.Sim.WorldReplies
import Lightbringer.Overlay.Sim.WorldLedger
