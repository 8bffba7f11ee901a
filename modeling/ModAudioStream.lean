import ModAudioStream.Runs
import ModAudioStream.StreamDecoder
import ModAudioStream.ByteWords
import ModAudioStream.WsClient
import ModAudioStream.SendFrame
import ModAudioStream.ProcessFrame
import ModAudioStream.FrameDecoder
import ModAudioStream.FrameRefinement
import ModAudioStream.FrameCodec
import ModAudioStream.RecvChunks
import ModAudioStream.RecvBounds
import ModAudioStream.RecvProgress
import ModAudioStream.SendQueue
import ModAudioStream.QueueOrder
import ModAudioStream.QueueFifo
import ModAudioStream.WireLog
import ModAudioStream.WireIntegrity
import ModAudioStream.WorkerLoop
import ModAudioStream.FinalText
import ModAudioStream.StreamerThreads
import ModAudioStream.StreamerLifetime
import ModAudioStream.Playback
import ModAudioStream.PlaybackAudio
import ModAudioStream.PlaybackStranded
import ModAudioStream.PlaybackCounter
import ModAudioStream.PlaybackEvents
import ModAudioStream.StreamFrame
import ModAudioStream.ForwardDirect
import ModAudioStream.ForwardResampled
import ModAudioStream.ClientStates
import ModAudioStream.RequestedClose
import ModAudioStream.TerminalState
import ModAudioStream.Startup
import ModAudioStream.MetadataFirst
import ModAudioStream.ErrorDetaches
import ModAudioStream.Streams
import ModAudioStream.SoleStream
import ModAudioStream.SingleStream
import ModAudioStream.SessionMutex
import ModAudioStream.CStrings
import ModAudioStream.WsUri
import ModAudioStream.UrlParsers
import ModAudioStream.FailedStart
import ModAudioStream.StreamerWrapper
import ModAudioStream.WrapperOwner
import ModAudioStream.CrlfLines
import ModAudioStream.Base64Text
import ModAudioStream.HandshakeResponse
import ModAudioStream.ResponseFraming
import ModAudioStream.ResponsePieces
import ModAudioStream.ResponseCuts
import ModAudioStream.HttpHead
import ModAudioStream.CJson
import ModAudioStream.UpgradeRequest
import ModAudioStream.RequestFields
import ModAudioStream.ProcessMessage
import ModAudioStream.MessageEvents
import ModAudioStream.ThreadFunc
import ModAudioStream.WorkerProtocol
import ModAudioStream.TransientResults
import ModAudioStream.ChainVerification
import ModAudioStream.SslRecords
import ModAudioStream.DrainAttempts
import ModAudioStream.Utf8Text
import ModAudioStream.JsonAudio
import ModAudioStream.G711
import ModAudioStream.ResampledAudio
import ModAudioStream.SampleAlignment
import ModAudioStream.RawMode
import ModAudioStream.RawRate
import ModAudioStream.ResamplerRoom
import ModAudioStream.PauseResume
import ModAudioStream.BitGroups
import ModAudioStream.Base64Encoders
import ModAudioStream.RejectedMessages
import ModAudioStream.SendText
import ModAudioStream.Reconnect
import ModAudioStream.StreamFunction
import ModAudioStream.StartCommand
import ModAudioStream.ForwardBuffer
import ModAudioStream.StartArguments
import ModAudioStream.FramePlayer
import ModAudioStream.PlaybackFrames
import ModAudioStream.ServerFrames
import ModAudioStream.WireFrames
import ModAudioStream.AudioDelivery
import ModAudioStream.InboundAudio
import ModAudioStream.Base64Decoder
import ModAudioStream.Base64Library
import ModAudioStream.ConformingResponse
import ModAudioStream.ServerPhases
import ModAudioStream.ConformingServer
import ModAudioStream.LossyDelivery
import ModAudioStream.Keepalive
import ModAudioStream.ClientStopping
import ModAudioStream.ThreadJoin
import ModAudioStream.DisconnectReturns
import ModAudioStream.SessionEvents
import ModAudioStream.EventualSend
