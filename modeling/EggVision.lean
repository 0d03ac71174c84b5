import EggVision.Lib.DecimalText
import EggVision.Lib.Digits
import EggVision.Lib.Fields
import EggVision.Lib.FileTree
import EggVision.Lib.FirstAppearances
import EggVision.Lib.FixedText
import EggVision.Lib.Floating
import EggVision.Lib.GreedySelection
import EggVision.Lib.History
import EggVision.Lib.JsonNumber
import EggVision.Lib.JsonString
import EggVision.Lib.JsonText
import EggVision.Lib.LongestSuffix
import EggVision.Lib.Outcome
import EggVision.Lib.Ownership
import EggVision.Lib.Planar
import EggVision.Lib.RunningMaximum
import EggVision.Lib.Sampling
import EggVision.Lib.StartCodes
import EggVision.Lib.StoreWrites
import EggVision.Lib.TextLines
import EggVision.Lib.Thinning
import EggVision.Lib.Transition
import EggVision.Lib.Words
import EggVision.AccessUnit
import EggVision.H264Bitstream
import EggVision.Ring.Buffer
import EggVision.Ring.Pruning
import EggVision.Ring.Retention
import EggVision.Ring.PreRoll
import EggVision.Ring.Counters
import EggVision.Ring.Selection
import EggVision.Event.Recorder
import EggVision.Event.Threads
import EggVision.Event.Gate
import EggVision.Event.Clip
import EggVision.Event.MuxEntry
import EggVision.Event.Spacing
import EggVision.LatestFrameQueue
import EggVision.QueueHistory
import EggVision.Image.I420
import EggVision.Image.RawBuffer
import EggVision.Image.Copy
import EggVision.Image.DmaBufSync
import EggVision.Image.Snapshot
import EggVision.Image.Mapping
import EggVision.Camera.Capture
import EggVision.Camera.Conservation
import EggVision.Camera.Consumers
import EggVision.Camera.Admission
import EggVision.Camera.Peak
import EggVision.Rtsp.State
import EggVision.Rtsp.Sections
import EggVision.Rtsp.Feeder
import EggVision.Rtsp.Server
import EggVision.Rtsp.Epochs
import EggVision.Rtsp.Callbacks
import EggVision.Rtsp.Recovery
import EggVision.Rtsp.Isolation
import EggVision.Rtsp.Jobs
import EggVision.Rtsp.Watchdog
import EggVision.Rtsp.Tokens
import EggVision.Rtsp.Ledger
import EggVision.Rtsp.Stream
import EggVision.Rtsp.PushFailures
import EggVision.Rtsp.Keyframes
import EggVision.Rtsp.Timestamps
import EggVision.Rtsp.Pipeline
import EggVision.Rtsp.Rearming
import EggVision.Rtsp.Renewal
import EggVision.Rtsp.Teardown
import EggVision.Camera.Restart
import EggVision.Rtsp.Dispatch
import EggVision.Inference.Suppression
import EggVision.Inference.Letterbox
import EggVision.Inference.Decode
import EggVision.Inference.Ingress
import EggVision.Inference.Tensor
import EggVision.Event.Metadata
import EggVision.Config.Arguments
import EggVision.Config.Unsigned
import EggVision.Config.Limits
import EggVision.Soak.Metrics
import EggVision.Soak.Resources
import EggVision.Event.Names
import EggVision.Event.Store
import EggVision.Event.Publish
import EggVision.Event.StoreCounts
import EggVision.Event.MetadataFile
import EggVision.Encoder.Stream
import EggVision.Encoder.Units
import EggVision.Encoder.Consumer
import EggVision.Event.Footage
import EggVision.Rtsp.Live
import EggVision.App.Main
import EggVision.App.Lifecycle
import EggVision.App.Resets
import EggVision.App.Logging
import EggVision.App.Records
import EggVision.Inference.Worker
import EggVision.App.Report
import EggVision.Soak.Log
import EggVision.Soak.Frames
import EggVision.Soak.FinalLine
import EggVision.Soak.ZeroCopy
