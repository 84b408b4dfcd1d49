import Osprey.Error
import Osprey.Framing
import Osprey.NoiseSession
import Osprey.Conversation
import Osprey.Handshake
import Osprey.FfiBridge
import Osprey.PhoneSession
import Osprey.AtomicFile
import Osprey.NamedFiles
import Osprey.Identity
import Osprey.Saturating
import Osprey.Transition
import Osprey.Audit
import Osprey.HostState
import Osprey.Revocation
import Osprey.PinWriters
import Osprey.RevokeOnce
import Osprey.NoResurrection
import Osprey.SharedWriters
import Osprey.Service
import Osprey.SessionShutdown
import Osprey.PairingFlow
import Osprey.PairingWindow
import Osprey.PairingAgreement
import Osprey.Envelope
import Osprey.AgentSession
import Osprey.SessionProtocol
import Osprey.ReadCommitted
import Osprey.Schedule
import Osprey.RelayDb
import Osprey.RelayRepo
import Osprey.RelayRedeem
import Osprey.RelayRevoke
import Osprey.RelayHub
import Osprey.RelayServer
import Osprey.RelayFrames
import Osprey.RelayTimeline
import Osprey.RelayImmediate
import Osprey.RelayOrder
import Osprey.RelayTenants
import Osprey.RelayQuota
import Osprey.RateLimit
import Osprey.RelayBudget
import Osprey.MetricsRing
import Osprey.MetricsGrid
import Osprey.MetricsEngine
import Osprey.MetricsStream
import Osprey.MetricsSchedule
import Osprey.MetricsText
import Osprey.MetricsChart
import Osprey.Exchanges
import Osprey.EarlyReplies
import Osprey.SendGate
import Osprey.SignedBytes
import Osprey.Vouched
import Osprey.RingHistory
import Osprey.ClockStep
import Osprey.PhonePairing
import Osprey.DeviceCalls
import Osprey.DeviceLink
import Osprey.DeviceRuns
import Osprey.LatestPins
import Osprey.PhoneList
import Osprey.EngineRuns
import Osprey.DroppedSubscriptions
import Osprey.EngineThreads
import Osprey.HistoryTransport
import Osprey.ChartOrder
import Osprey.KeychainCalls
import Osprey.NetCounters
import Osprey.PeerSelection
import Osprey.PinSet
import Osprey.RevocationSpec
import Osprey.SlowSubscriber
import Osprey.Wakeups
import Osprey.CallScript
import Osprey.FirstCause
import Osprey.FixedWindow
import Osprey.FrameStreams
import Osprey.HelperSupervisor
import Osprey.HostArithmetic
import Osprey.HubSockets
import Osprey.LimiterLaws
import Osprey.OneHelper
import Osprey.PhoneIdentity
import Osprey.RelayBackoff
import Osprey.RelayLink
import Osprey.RelaySupervisor
import Osprey.Checks
import Osprey.EnumTarget
import Osprey.ProtoBodies
import Osprey.ProtoRegistry
import Osprey.ProtoSchema
import Osprey.ProtoTargets
import Osprey.RecordCodec
import Osprey.WireNames
import Osprey.RelayBackstop
import Osprey.RowSecurity
import Osprey.IpAddress
import Osprey.IpText
import Osprey.LanListener
import Osprey.LanHints
import Osprey.RelayCredentials
import Osprey.AgentReplies
import Osprey.SessionLink
