import Sentrix.Lib.Machine
import Sentrix.Lib.Dict
import Sentrix.Lib.Value
import Sentrix.Lib.Literals
import Sentrix.Lib.Entropy
import Sentrix.Lib.Queries
import Sentrix.Lib.Locked
import Sentrix.Lib.Recency
import Sentrix.Lib.Json
import Sentrix.Lib.Placeholders
import Sentrix.Lib.Bytes
import Sentrix.Lib.Texts
import Sentrix.Lib.Csv
import Sentrix.Parsers.Packet
import Sentrix.Parsers.Tls
import Sentrix.Alerting.Schema
import Sentrix.Alerting.Correlation
import Sentrix.Alerting.Store
import Sentrix.Alerting.StoreRefinement
import Sentrix.Alerting.StoreFailure
import Sentrix.Alerting.BulkInsert
import Sentrix.Alerting.ClickHouse
import Sentrix.Alerting.StoreQueries
import Sentrix.Alerting.StoreLocks
import Sentrix.Inference.Onnx
import Sentrix.Inference.FrontEnds
import Sentrix.Ingest.FlowTracker
import Sentrix.Ingest.Windows
import Sentrix.Ingest.ReplayLoop
import Sentrix.Alerting.Normalizer
import Sentrix.Inference.Worker
import Sentrix.Inference.Batching
import Sentrix.Inference.Detection
import Sentrix.Inference.BadRecords
import Sentrix.Inference.Decoding
import Sentrix.Features.Extractors
import Sentrix.Features.Scheduler
import Sentrix.Inference.FastPath
import Sentrix.Features.Signs
import Sentrix.Features.Minutes
import Sentrix.Features.Tumbling
import Sentrix.Features.Sweeps
import Sentrix.Features.SecondRatios
import Sentrix.Features.Volume
import Sentrix.Features.GreedyWindows
import Sentrix.Features.Beaconing
import Sentrix.Features.RunningStats
import Sentrix.Features.SketchEntropy
import Sentrix.Inference.Agreement
import Sentrix.Inference.StreamAgreement
import Sentrix.Models.BatchDdos
import Sentrix.Assembler.FlowTable
import Sentrix.Assembler.RecentlyUsed
import Sentrix.Assembler.Expiry
import Sentrix.Assembler.Accounting
import Sentrix.Datasource.Base
import Sentrix.Datasource.DatasetReplay
import Sentrix.Datasource.Oversampling
import Sentrix.Datasource.Quotas
import Sentrix.Datasource.ReplayTelemetry
import Sentrix.Datasource.FallbackRecords
import Sentrix.Datasource.FeatureExtractor
import Sentrix.Datasource.CaptureOrder
import Sentrix.Datasource.Labels
import Sentrix.Datasource.Directions
import Sentrix.Datasource.GroundTruth
import Sentrix.Scripts.PcapFile
import Sentrix.Splits.EntityHoldout
import Sentrix.Dashboard.DatasetStream
import Sentrix.Ingest.Flows
import Sentrix.Ingest.PcapReader
import Sentrix.Dashboard.StoreStream
import Sentrix.Datasource.Polling
import Sentrix.Dashboard.Replay
import Sentrix.Dashboard.ReplayRaces
import Sentrix.Dashboard.ReplayMode
import Sentrix.Dashboard.Counts
import Sentrix.Dashboard.SummaryCache
import Sentrix.Alerting.CorrelatorIndex
import Sentrix.Lib.Conveyor
import Sentrix.Pipeline.Threads
import Sentrix.Pipeline.Accounting
import Sentrix.Pipeline.Backpressure
import Sentrix.Pipeline.Shutdown
import Sentrix.Pipeline.Live
import Sentrix.Pipeline.LiveAlerts
import Sentrix.Pipeline.Stored
import Sentrix.Ingest.ReplayRun
import Sentrix.Dashboard.KafkaStream
import Sentrix.Dashboard.Page
import Sentrix.Dashboard.Notifications
import Sentrix.Dashboard.Countdown
import Sentrix.Features.Averages
import Sentrix.Inference.Published
import Sentrix.Pipeline.KafkaPath
import Sentrix.Alerting.ClickHouseReads
