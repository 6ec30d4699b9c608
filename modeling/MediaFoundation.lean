import MediaFoundation.Queue.Fifo
import MediaFoundation.Queue.Ownership
import MediaFoundation.Osal.RingStream
import MediaFoundation.Filter.Truth
import MediaFoundation.Source.PulledData
import MediaFoundation.Plugin.Registry
import MediaFoundation.Meta.TypedMap
import MediaFoundation.Buffer.AVBuffer
import MediaFoundation.Common.PoolAccounting
import MediaFoundation.Common.BufferOwners
import MediaFoundation.Pipeline.Negotiation
import MediaFoundation.Player.RetriedIntents
import MediaFoundation.Pipeline.PrerollBarrier
import MediaFoundation.Pipeline.PlaybackClock
import MediaFoundation.Hls.MediaPlaylist
import MediaFoundation.Http.ReadsFollow
import MediaFoundation.Http.DecodedHeaders
import MediaFoundation.Osal.TaskWaits
import MediaFoundation.Osal.TaskTurns
import MediaFoundation.Osal.BlockingQueueRuns
import MediaFoundation.Codec.CmdAnswers
import MediaFoundation.Codec.InputOrder
import MediaFoundation.Pipeline.Readiness
import MediaFoundation.Pipeline.Recording
import MediaFoundation.Hls.AttributeLists
import MediaFoundation.Hls.FragmentQueue
import MediaFoundation.Monitor.Aggregation
import MediaFoundation.Monitor.UsageTime
import MediaFoundation.Queue.Resizing
import MediaFoundation.Queue.Rejections
import MediaFoundation.Queue.BestFit
import MediaFoundation.Demux.Availability
import MediaFoundation.Demux.LiveReads
import MediaFoundation.Sink.RecordedFile
import MediaFoundation.Codec.Repacking
import MediaFoundation.Codec.AsyncDelivery
import MediaFoundation.Common.PcmFamily
import MediaFoundation.Buffer.MemoryBounds
import MediaFoundation.Buffer.ParcelTraces
import MediaFoundation.Buffer.BufferClone
import MediaFoundation.Meta.AnyLife
import MediaFoundation.Codec.BitReader
import MediaFoundation.Demux.WavReads
import MediaFoundation.Demux.Mp4Window
import MediaFoundation.Monitor.EventRecords
import MediaFoundation.Codec.AsyncNotified
import MediaFoundation.Demux.TypeFinder
import MediaFoundation.Demux.Mp3Times
import MediaFoundation.Demux.Id3v2Skip
import MediaFoundation.Demux.Mp3Sniff
import MediaFoundation.Plugin.PluginMemory
import MediaFoundation.Osal.Synchronizer
import MediaFoundation.Pipeline.SynchronousSink
import MediaFoundation.Http.ReadWaits
import MediaFoundation.Recorder.StateMachine
import MediaFoundation.Codec.GroupTimes
import MediaFoundation.Source.CapturePause
import MediaFoundation.Sink.HdiSink
import MediaFoundation.Filter.BufferJobs
import MediaFoundation.Demux.TrackSelection
import MediaFoundation.Source.CaptureEnd
import MediaFoundation.Sink.PushWaits
import MediaFoundation.Monitor.PcmDumps
import MediaFoundation.Player.CallbackLooper
