import XitForge.TlsPsk.Handshake
import XitForge.Pairing.Client
import XitForge.Program
import XitForge.FileTree
import XitForge.Directory.Names
import XitForge.Directory.Media
import XitForge.Directory.Journal
import XitForge.Directory.World
import XitForge.Directory.Afc
import XitForge.Directory.Books
import XitForge.Directory.Legacy
import XitForge.Directory.AirTraffic
import XitForge.Directory.KnownFile
import XitForge.Directory.Recovery
import XitForge.Directory.Finish
import XitForge.Directory.Operations
import XitForge.Directory.Looks
import XitForge.Directory.Protocol
import XitForge.Directory.Calm
import XitForge.Directory.Frame
import XitForge.Directory.Sweep
import XitForge.Directory.Stage
import XitForge.Directory.StageCleanup
import XitForge.Directory.Confined
import XitForge.Directory.LegacyCopy
import XitForge.Directory.InPlace
import XitForge.Xpc.Format
import XitForge.Xpc.RoundTrip
import XitForge.Xpc.Channel
import XitForge.Xpc.Reassembly
import XitForge.Xpc.Decoding
import XitForge.License.Freshness
import XitForge.Dvt.ChannelQueue
import XitForge.Dvt.MessageSafety
import XitForge.Dvt.Capabilities
import XitForge.Dvt.Replies
import XitForge.Dvt.Registry
import XitForge.Xpc.RecvAny
import XitForge.Xpc.FileChunks
import XitForge.Http2.Delivery
import XitForge.Http2.FlowControl
import XitForge.Afc.Responses
import XitForge.RemotePairing.OpackTerminators
import XitForge.RemotePairing.Identity
import XitForge.RemotePairing.PairingFile
import XitForge.CoreDevice.HevcReorder
import XitForge.CoreDevice.HevcStream
import XitForge.CoreDevice.Keyboard
import XitForge.CoreDevice.Negotiation
import XitForge.CoreDevice.FileService
import XitForge.MobileBackup.Confinement
import XitForge.MobileBackup.Upload
import XitForge.Restore.DfuPromise
import XitForge.Restore.Img4Format
import XitForge.Restore.Asr
import XitForge.Http2.FrameCodec
import XitForge.Http2.Stall
import XitForge.RemotePairing.OpackReferences
import XitForge.Restore.Outcome
import XitForge.Restore.ControlStream
import XitForge.CoreDevice.Invocations
import XitForge.Pairing.Attempts
import XitForge.Directory.AtcZipArchive
import XitForge.TlsPsk.ReadPaths
import XitForge.TlsPsk.ServerFlight
import XitForge.TlsPsk.Session
import XitForge.RemotePairing.Tunnel
import XitForge.RemotePairing.Socket
import XitForge.RemotePairing.PairVerify
import XitForge.Afc.WholeFile
import XitForge.Afc.PendingFuture
import XitForge.CoreDevice.Rtp
import XitForge.CoreDevice.Rtcp
import XitForge.CoreDevice.Protobuf
import XitForge.CoreDevice.HevcParams
import XitForge.CoreDevice.HevcLosses
import XitForge.Dvt.Routing
import XitForge.Dvt.ChannelRequest
import XitForge.Afc.KeyValues
import XitForge.MobileBackup.FailedUpload
import XitForge.Idevice.Delimited
import XitForge.Idevice.RawSend
import XitForge.Restore.FdrProxy
import XitForge.Restore.Im4pPatch
import XitForge.Tss
import XitForge.Http.ResponseWire
import XitForge.MobileBackup.Download
import XitForge.Restore.BootObject
import XitForge.LocalTunnel.Reflection
import XitForge.FileServiceListing
import XitForge.FileEngine.DeactivationCover
import XitForge.TwoFiles
import XitForge.Usbmuxd.RawPacket
import XitForge.OsTraceRelay.Layout
import XitForge.DebugProxy
import XitForge.Restore.RecoveryIdentifiers
import XitForge.CoreDevice.PlistArguments
import XitForge.InstallationProxy
import XitForge.Xpc.EndToEnd
import XitForge.MobileBackup.Store
