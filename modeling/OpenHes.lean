import OpenHes.Library.Binary64
import OpenHes.Library.ReentrantLoop
import OpenHes.Library.AcyclicRelation
import OpenHes.Model.BindingMap
import OpenHes.Library.Trace
import OpenHes.Analysis.Emission
import OpenHes.Analysis.Settling
import OpenHes.Analysis.Termination
import OpenHes.Analysis.Attribution
import OpenHes.Analysis.Quiescence
import OpenHes.Analysis.DeniedFirst
import OpenHes.Analysis.CommitOrder
import OpenHes.Analysis.DeniedPayloads
import OpenHes.Analysis.InternalChain
import OpenHes.Model.Core
import OpenHes.Analysis.Mediation
import OpenHes.Analysis.Frames
import OpenHes.Library.CInt
import OpenHes.Library.Json
import OpenHes.Model.Auth
import OpenHes.Analysis.ModeAgreement
import OpenHes.Library.HexText
import OpenHes.Model.Crypto
import OpenHes.Model.Gateway
import OpenHes.Analysis.CommandProofs
import OpenHes.Analysis.ProofBinding
import OpenHes.Analysis.SideBySide
import OpenHes.Analysis.CoreSideBySide
import OpenHes.Analysis.CredentialFlow
import OpenHes.Analysis.Leftovers
import OpenHes.Library.JsonText
import OpenHes.Library.Decimal
import OpenHes.Library.JsonPrint
import OpenHes.Library.JsonTemplate
import OpenHes.Library.JsonReads
import OpenHes.Model.DeviceRegistry
import OpenHes.Model.Manifest
import OpenHes.Analysis.SliceText
import OpenHes.Analysis.SntpAccuracy
import OpenHes.Analysis.BusStamps
import OpenHes.Analysis.ReceiveBounds
import OpenHes.Analysis.Subscriptions
import OpenHes.Analysis.PutPayload
import OpenHes.Analysis.GatewayImage
import OpenHes.Analysis.PolicyWrites
import OpenHes.Analysis.SharedState
import OpenHes.Analysis.AppCalls
import OpenHes.Analysis.HeldModules
import OpenHes.Analysis.SliceRoundTrip
import OpenHes.Analysis.ReportText
import OpenHes.Analysis.ReportVisible
import OpenHes.Analysis.NotificationTopics
import OpenHes.Library.EchoedFlags
import OpenHes.Model.HanBle
import OpenHes.Analysis.FrontedDevices
import OpenHes.Analysis.BlePresence
import OpenHes.Analysis.DatumAddressing
import OpenHes.Analysis.HexCodec
import OpenHes.Analysis.IdentityKey
import OpenHes.Analysis.IdentityRecords
import OpenHes.Analysis.ProofRequirements
import OpenHes.Analysis.SntpAcceptance
import OpenHes.Model.TimeSync
import OpenHes.Analysis.TimeEvents
import OpenHes.Analysis.ZoneSnapshots
import OpenHes.Analysis.NtpStamps
import OpenHes.Analysis.SyncSchedule
import OpenHes.Analysis.ConfiguredServers
import OpenHes.Analysis.ReconnectBackoff
import OpenHes.Analysis.AddressedDevice
import OpenHes.Analysis.CollectedTopics
import OpenHes.Analysis.Brightness
import OpenHes.Analysis.StaleReplies
import OpenHes.Analysis.TranslatedPaths
import OpenHes.Analysis.ListIndexing
import OpenHes.Analysis.ScalarNegation
import OpenHes.Analysis.ReportBounds
import OpenHes.Analysis.WifiAttribution
import OpenHes.Analysis.WifiPresence
import OpenHes.Analysis.ButtonEvents
import OpenHes.Analysis.PresenceFollows
import OpenHes.Analysis.ModuleList
import OpenHes.Analysis.CommandPath
import OpenHes.Analysis.InventoryRuns
import OpenHes.Analysis.StampAccuracy
import OpenHes.Analysis.CommandDelivery
import OpenHes.Analysis.LampReadings
import OpenHes.Analysis.WholeAnswers
import OpenHes.Analysis.SyncShutdown
import OpenHes.Analysis.ClockReadings
