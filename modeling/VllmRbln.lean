import VllmRbln.Common.Run
import VllmRbln.Common.Tally
import VllmRbln.Common.HashChain
import VllmRbln.SubBlock.Index
import VllmRbln.SubBlock.Manager
import VllmRbln.SubBlock.Edits
import VllmRbln.Scheduler.Request
import VllmRbln.Scheduler.State
import VllmRbln.Scheduler.Schedule
import VllmRbln.Scheduler.Update
import VllmRbln.Scheduler.Queues
import VllmRbln.Scheduler.RunningLoop
import VllmRbln.Scheduler.WaitingLoop
import VllmRbln.Scheduler.Runs
import VllmRbln.Scheduler.BlockTables
import VllmRbln.Scheduler.Admissions
import VllmRbln.Scheduler.References
import VllmRbln.Scheduler.IndexSafety
import VllmRbln.Scheduler.Phase
import VllmRbln.Scheduler.Alignment
import VllmRbln.Scheduler.Idle
import VllmRbln.DataParallel.BatchCoordination
import VllmRbln.DataParallel.Warmup
import VllmRbln.DataParallel.Drafting
import VllmRbln.EcTransfer.Connector
import VllmRbln.ModelRunner.AsyncTokens
import VllmRbln.EcTransfer.PullSafety
import VllmRbln.EcTransfer.Prefill
import VllmRbln.Common.Rows
import VllmRbln.FusedMoe.Routing
import VllmRbln.FusedMoe.Runner
import VllmRbln.Optimum.BlockMapping
import VllmRbln.Optimum.Reassignment
import VllmRbln.Optimum.Allocation
import VllmRbln.Optimum.KvCache
import VllmRbln.Optimum.Consistency
import VllmRbln.Common.NatPolynomial
import VllmRbln.Common.Dict
import VllmRbln.KvPlacement.Growth
import VllmRbln.Common.Bisect
import VllmRbln.KvPlacement.Sizing
import VllmRbln.Common.Checked
import VllmRbln.KvTransfer.PushWorker
import VllmRbln.Common.Ragged
import VllmRbln.ModelRunner.DecodeWindow
import VllmRbln.SpecDecode.Eagle
import VllmRbln.Scheduler.DecodeBudget
import VllmRbln.Common.Packing
import VllmRbln.Common.Permute
import VllmRbln.Common.Vacant
import VllmRbln.Optimum.Pool
import VllmRbln.Optimum.Scheduling
import VllmRbln.Optimum.Padding
import VllmRbln.ModelRunner.Reorder
import VllmRbln.Optimum.ChunkedPrefill
import VllmRbln.SubBlock.SubHashes
import VllmRbln.ModelRunner.Unpadded
import VllmRbln.Attention.Masks
import VllmRbln.Common.Topk
import VllmRbln.FusedMoe.GroupedTopk
import VllmRbln.Common.Bands
import VllmRbln.KvTransfer.Handshake
import VllmRbln.KvTransfer.HostStaging
import VllmRbln.Common.Episodes
import VllmRbln.Common.Extremes
import VllmRbln.Common.Slices
import VllmRbln.Common.Leading
import VllmRbln.Sample.RejectionSampler
import VllmRbln.Sample.RblnRejectionSampler
import VllmRbln.Common.Cuts
import VllmRbln.SpecDecode.DFlash
import VllmRbln.SubBlock.Contents
import VllmRbln.Scheduler.KvContents
import VllmRbln.Scheduler.Totality
import VllmRbln.Scheduler.Lifecycle
import VllmRbln.Common.Mirror
import VllmRbln.SubBlock.Events
import VllmRbln.SubBlock.EventStream
import VllmRbln.SubBlock.EventHashes
import VllmRbln.Common.Copies
import VllmRbln.Common.Grid
import VllmRbln.KvTransfer.HeadBands
import VllmRbln.KvTransfer.HeadPairing
import VllmRbln.KvTransfer.HeadCover
import VllmRbln.KvTransfer.HeadTransfer
