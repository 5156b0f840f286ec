import Jukeboy.Base.Runs
import Jukeboy.Base.LittleEndian
import Jukeboy.Base.EspErr
import Jukeboy.Base.SelfDelimiting
import Jukeboy.Base.Filling
import Jukeboy.Base.SlotTable
import Jukeboy.Base.CyclicOrder
import Jukeboy.Formats.Jbm
import Jukeboy.Formats.Jba
import Jukeboy.Player.Track
import Jukeboy.Player.LookupWindow
import Jukeboy.Player.Decode
import Jukeboy.Player.RoundTrip
import Jukeboy.Player.SeekRace
import Jukeboy.CompanionApi.Tlv
import Jukeboy.CompanionApi.Protocol
import Jukeboy.CompanionApi.RxBuffer
import Jukeboy.CompanionApi.Chunking
import Jukeboy.CompanionApi.ServiceHandlers
import Jukeboy.CompanionApi.TrustedStore
import Jukeboy.CompanionApi.RequestHandlers
import Jukeboy.CompanionApi.Task
import Jukeboy.CompanionApi.Authorisation
import Jukeboy.CompanionApi.NonInterference
import Jukeboy.CompanionApi.RpcAnswers
import Jukeboy.CompanionApi.Revocation
import Jukeboy.CompanionApi.TrustedSession
import Jukeboy.Base.QueueSet
import Jukeboy.Lastfm.ServiceTask
import Jukeboy.Lastfm.QueueAccounting
import Jukeboy.Wifi.Slots
import Jukeboy.CompanionApi.WifiSlots
import Jukeboy.Base.Records
import Jukeboy.PlayHistory.Cache
import Jukeboy.PlayHistory.Persistence
import Jukeboy.Base.ByteFile
import Jukeboy.PlayHistory.Flush
import Jukeboy.PlayHistory.FileRoundTrip
import Jukeboy.PlayHistory.MinimalWrites
import Jukeboy.PlayHistory.Effects
import Jukeboy.PlayHistory.Operations
import Jukeboy.PlayHistory.Invariant
import Jukeboy.PlayHistory.Shelf
import Jukeboy.PlayHistory.Refinement
import Jukeboy.PlayHistory.PlayCounts
import Jukeboy.PlayHistory.Coalescing
import Jukeboy.PlayHistory.Commit
import Jukeboy.Player.State
import Jukeboy.Player.Service
import Jukeboy.Player.StateInvariant
import Jukeboy.Player.ShuffleWalk
import Jukeboy.Player.Pipeline
import Jukeboy.Player.StopPipeline
import Jukeboy.Player.TrackCompletion
import Jukeboy.Player.PauseStability
import Jukeboy.Player.ReadPipeline
import Jukeboy.Player.DoubleBuffer
import Jukeboy.Player.SessionBoundary
import Jukeboy.Player.ListenCount
import Jukeboy.Player.ResumeRecord
import Jukeboy.Wifi.Service
import Jukeboy.Wifi.Handlers
import Jukeboy.Wifi.ScanState
import Jukeboy.Wifi.UserDisconnect
import Jukeboy.Wifi.AutoReconnect
import Jukeboy.Wifi.Attribution
import Jukeboy.Base.Slip
import Jukeboy.Bootloader.SlipReceive
import Jukeboy.Bootloader.Download
import Jukeboy.Bootloader.Upload
import Jukeboy.Audio.OutputSwitch
import Jukeboy.Audio.Fidelity
import Jukeboy.Cartridge.Album
import Jukeboy.Base.BoundedTable
import Jukeboy.Bluetooth.Discovery
import Jukeboy.Bluetooth.PairingConfirm
import Jukeboy.Base.Framing
import Jukeboy.CompanionApi.BleClient
import Jukeboy.CompanionApi.Reassembly
import Jukeboy.CompanionApi.StreamIntegrity
import Jukeboy.CompanionApi.PairingSequence
import Jukeboy.Base.Utf8
import Jukeboy.CompanionApi.TlvRoundTrip
import Jukeboy.CompanionApi.TlvBuffer
import Jukeboy.CompanionApi.Pages
import Jukeboy.CompanionApi.RxProgress
import Jukeboy.CompanionApi.TickWrap
import Jukeboy.CompanionApi.SnapshotDecode
import Jukeboy.CompanionApi.CoverDownload
import Jukeboy.Base.ByteLayout
import Jukeboy.Formats.JbmFile
import Jukeboy.Base.OneSlot
import Jukeboy.Player.BadTracks
import Jukeboy.Player.CartridgeReads
import Jukeboy.Player.ReadSessions
import Jukeboy.Player.SessionInvariant
import Jukeboy.Player.ReaderSteps
import Jukeboy.Player.OwnBytes
import Jukeboy.Player.PreviousTarget
import Jukeboy.PlayHistory.SequenceOrder
import Jukeboy.CompanionApi.OneAnswer
import Jukeboy.Services.Completions
import Jukeboy.Lastfm.Delivery
import Jukeboy.Lastfm.PlayerTracking
import Jukeboy.Lastfm.RateLimit
import Jukeboy.Lastfm.AccountRestart
import Jukeboy.Hid.Debounce
import Jukeboy.Hid.ButtonEvents
import Jukeboy.Formats.Ogg
import Jukeboy.Services.LogTrim
import Jukeboy.Player.PacketWalk
import Jukeboy.Power.RefCounts
import Jukeboy.Power.RailEvents
import Jukeboy.Power.ShutdownSequence
import Jukeboy.Services.RunOwnership
import Jukeboy.Services.SocketMemory
import Jukeboy.Services.SocketOwnership
import Jukeboy.Services.ScriptTranscript
import Jukeboy.Services.ScriptExecution
import Jukeboy.Services.ScriptConfinement
import Jukeboy.Wifi.Credentials
import Jukeboy.Base.Words
import Jukeboy.Services.ScriptArgv
import Jukeboy.Services.ArgvLimits
import Jukeboy.CompanionApi.ScriptArguments
