import Prns.Ports.SerialRoundTrip
import Prns.Ports.LemireIndexRuns
import Prns.Ports.FlashJournalRoom
import Prns.Ports.FlashTimebaseRuns
import Prns.Ports.KissRoundTrip
import Prns.Ports.InterfaceAccess
import Prns.Ports.MessagePackSkip
import Prns.Ports.RemoteControlAdmission
import Prns.Ports.ResourceLateCopies
import Prns.Ports.ResourceSendPlan
import Prns.Ports.StaticResponseRuns
import Prns.Ports.ChannelNumbers
import Prns.Ports.ChannelStream
import Prns.Ports.ChannelTable
import Prns.Ports.AppDataArena
import Prns.Ports.ResourceStorage
import Prns.Ports.ResourceBuild
import Prns.Ports.SubGConfigurationStore
import Prns.Ports.WifiConfigurationRuns
import Prns.Ports.IdentityVaultChanges
import Prns.Ports.RoutingTableRuns
import Prns.Ports.DestinationAnnounceLimit
import Prns.Ports.ControllerPairingConsent
import Prns.Ports.TunnelRegistry
import Prns.Ports.RouteEvidence
import Prns.Ports.WirePackets
import Prns.Ports.DeadlineHeapCull
