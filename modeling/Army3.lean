import Army3.Framework.PrefixMachine
import Army3.Framework.BigEndian
import Army3.Framework.Codec
import Army3.Framework.Raising
import Army3.Framework.PathWalk
import Army3.Protocol.FrameRoundTrip
import Army3.Protocol.FeedModes
import Army3.Protocol.MessageCodecs
import Army3.Protocol.AreaRoundTrip
import Army3.Protocol.DecodeErrors
import Army3.Server.Config
import Army3.Server.SessionAccounting
import Army3.Server.BootstrapRetry
import Army3.Server.OutboundStream
import Army3.Server.TransformSwitch
import Army3.Protocol.Decoders
import Army3.Protocol.Encoders
import Army3.Protocol.KeyAgreement
import Army3.Tools.AllOrNothing
import Army3.Tools.EndpointOccurrences
import Army3.Tools.WindowsPaths
import Army3.Tools.CopySucceeds
import Army3.Tools.LocalizationText
import Army3.Tools.InspectNotNull
import Army3.Scripts.IlScan
import Army3.Framework.ShortestPaths
import Army3.Scripts.CaseSilence
import Army3.Scripts.CfgExits
import Army3.Scripts.ReachedPath
import Army3.Scripts.CallPaths
import Army3.Server.Connections
import Army3.Server.InputAccounting
import Army3.Scripts.IncomingChains
import Army3.Scripts.ReaderSequence
import Army3.Scripts.FindInstructions
import Army3.Scripts.CaseBytes
import Army3.Scripts.JumpTable
import Army3.Scripts.IlVerdict
import Army3.Scripts.CommandTransform
import Army3.Scripts.ContainedClient
import Army3.Tools.Inventory
import Army3.Tools.SessionHandles
import Army3.Scripts.CfgSummary
