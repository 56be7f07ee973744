import Bind19.ByteLayout
import Bind19.Pfp
import Bind19.Sap
import Bind19.Frame
import Bind19.FrameCodec
import Bind19.FrameAdmission
import Bind19.FrameReencoding
import Bind19.FrameBuffering
import Bind19.FrameStability
import Bind19.FrameOverride
import Bind19.Checked
import Bind19.FrameWords
import Bind19.Framing
import Bind19.FrameStream
import Bind19.Pah
import Bind19.HashChain
import Bind19.AuditLog
import Bind19.AuditHistory
import Bind19.AuditBinding
import Bind19.AuditWindow
import Bind19.FiniteMap
import Bind19.Ascending
import Bind19.Runs
import Bind19.Progress
import Bind19.Transcript
import Bind19.Linearization
import Bind19.WriteOnce
import Bind19.ReplayCache
import Bind19.ReplayHistory
import Bind19.ReplayTenants
import Bind19.ReplayExpiry
import Bind19.ReplayRetention
import Bind19.Processor
import Bind19.DeliveryHistory
import Bind19.ProcessorPreview
import Bind19.Threads
import Bind19.ReplayRace
import Bind19.ReplayAgreement
import Bind19.ReplayCapacity
import Bind19.CleanupRace
import Bind19.ReplayMoves
import Bind19.ReplayProgress
import Bind19.ReplayOvershoot
import Bind19.ReplayLinear
import Bind19.Catastrophic
import Bind19.CatastrophicRace
import Bind19.CatastrophicAccounting
import Bind19.AuditPolling
import Bind19.Tuck
import Bind19.FrameRelay
import Bind19.TuckRace
import Bind19.TuckSchedule
import Bind19.Rotation
import Bind19.RotationChannel
import Bind19.RotationCounter
import Bind19.RotationHistory
import Bind19.RotationWire
import Bind19.RotationTraffic
import Bind19.Session
import Bind19.SessionDrops
import Bind19.Config
