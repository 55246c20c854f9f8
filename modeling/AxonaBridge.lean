import AxonaBridge.TransportRpc
import AxonaBridge.TransportBinding
import AxonaBridge.TransportSettle
import AxonaBridge.ServerTotal
import AxonaBridge.BridgeAdmission
import AxonaBridge.BridgeDeparture
import AxonaBridge.BridgeAllowlist
import AxonaBridge.NodeIngress
import AxonaBridge.BridgeIsolation
import AxonaBridge.BridgeBand
import AxonaBridge.BridgeDiscipline
import AxonaBridge.ServerOpaque
import AxonaBridge.BridgeGate
import AxonaBridge.BridgeCredential
import AxonaBridge.BridgeLists
import AxonaBridge.GapSampler
import AxonaBridge.BridgeListening
import AxonaBridge.BridgeIdentity
import AxonaBridge.DoorBind
import AxonaBridge.BridgeRelease
import AxonaBridge.DirectoryPublisher
import AxonaBridge.UplinkPolicy
import AxonaBridge.StartUp
import AxonaBridge.AnchorPasses
import AxonaBridge.AnchorContract
import AxonaBridge.AnchorSpread
import AxonaBridge.GraduationBest
import AxonaBridge.BridgeHint
import AxonaBridge.FeedTurns
import AxonaBridge.RetiredCooldown
import AxonaBridge.DoorRefusal
import AxonaBridge.BridgeMarks
import AxonaBridge.DirectoryFeed
import AxonaBridge.Cooldown
import AxonaBridge.BridgeDirectorySource
import AxonaBridge.ServerKeeps
import AxonaBridge.BridgeReleasedOnce
import AxonaBridge.FixedWindow
import AxonaBridge.SignalMeter
import AxonaBridge.BridgeMeter
import AxonaBridge.BridgeBook
import AxonaBridge.OrderFree
import AxonaBridge.DoorKeys
import AxonaBridge.VersionCompare
import AxonaBridge.BitLength
import AxonaBridge.NodeStrata
import AxonaBridge.KeepLeast
import AxonaBridge.NodeClosest
import AxonaBridge.BookReport
import AxonaBridge.JsNumber
import AxonaBridge.DirectoryRegions
import AxonaBridge.DirectoryStop
import AxonaBridge.JsonText
import AxonaBridge.KernelContext
import AxonaBridge.JsRounding
import AxonaBridge.KernelLog
import AxonaBridge.BridgeRoster
import AxonaBridge.BridgeRelay
import AxonaBridge.StrictSettings
import AxonaBridge.Boot
import AxonaBridge.BridgeSweep
import AxonaBridge.BookFile
import AxonaBridge.BridgeAnswers
import AxonaBridge.BridgeEcho
import AxonaBridge.BridgeFarewell
import AxonaBridge.TransportCalls
import AxonaBridge.BridgeReach
import AxonaBridge.ServerTimers
import AxonaBridge.BridgeTimers
import AxonaBridge.Hub
import AxonaBridge.BridgeHub
