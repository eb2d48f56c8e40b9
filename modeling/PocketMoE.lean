import PocketMoE.Encoding.Prefix
import PocketMoE.Encoding.Context
import PocketMoE.Encoding.RoundTrip
import PocketMoE.Encoding.CallGrammar
import PocketMoE.Encoding.ToolTurns
import PocketMoE.Engine.ArenaPoolSafety
import PocketMoE.Engine.CompressorSites
import PocketMoE.Engine.ExpertArena
import PocketMoE.Engine.GgufPrefill
import PocketMoE.Engine.HalfWeights
import PocketMoE.Engine.Isolation
import PocketMoE.Engine.KvSwap
import PocketMoE.Engine.Layer
import PocketMoE.Engine.PrefillRefines
import PocketMoE.Engine.Prompt
import PocketMoE.Engine.RoutedSum
import PocketMoE.Engine.Sampler
import PocketMoE.Engine.Session
import PocketMoE.Engine.Written
import PocketMoE.Generation.Logprobs
import PocketMoE.Generation.Stream
import PocketMoE.Lib.Collective
import PocketMoE.Lib.JsonReads
import PocketMoE.Lib.Pipeline
import PocketMoE.Lib.Ring
import PocketMoE.Lib.SlotCache
import PocketMoE.Lib.Softmax
import PocketMoE.Lib.Tensor
import PocketMoE.Lib.TopK
import PocketMoE.Lib.Trans
import PocketMoE.Runtime.Attention
import PocketMoE.Runtime.Compressor
import PocketMoE.Runtime.ExpertCaches
import PocketMoE.Runtime.Generate
import PocketMoE.Runtime.Incremental
import PocketMoE.Runtime.Indexer
import PocketMoE.Runtime.MoE
import PocketMoE.Runtime.MoEExchange
import PocketMoE.Runtime.MoEReduction
import PocketMoE.Runtime.Offload
import PocketMoE.Runtime.OffloadSafety
import PocketMoE.Runtime.PrefixSnapshot
import PocketMoE.Runtime.Replay
import PocketMoE.Runtime.Separation
import PocketMoE.Runtime.SharedHeader
import PocketMoE.Runtime.SnapshotBuffers
import PocketMoE.Runtime.SnapshotRestore
import PocketMoE.Runtime.SnapshotRuns
import PocketMoE.Runtime.Window
import PocketMoE.Server.Chat
import PocketMoE.Server.Completeness
import PocketMoE.Server.Batch
import PocketMoE.Server.Exclusive
import PocketMoE.Server.Finish
import PocketMoE.Server.Order
import PocketMoE.Server.JsonLite
import PocketMoE.Server.Sidecar
import PocketMoE.Server.Seeded
import PocketMoE.Server.StreamChunks
import PocketMoE.Server.Stop
import PocketMoE.Loader.GgufAgreement
import PocketMoE.Loader.SafeTensorsSafety
import PocketMoE.Engine.TokenizerLossless
import PocketMoE.Server.Extract
import PocketMoE.Server.Replies
import PocketMoE.Server.Admission
import PocketMoE.Loader.GgufWalkers
import PocketMoE.Loader.IMatrix
import PocketMoE.Loader.RewriterReads
import PocketMoE.Loader.Partition
import PocketMoE.Backend.HostReduceLiveness
import PocketMoE.Runtime.CachedAttention
import PocketMoE.Backend.GpuStagingSafety
import PocketMoE.Backend.Int8KernelsAgree
import PocketMoE.Runtime.DecodeSlots
import PocketMoE.Engine.PrefillRing
import PocketMoE.Engine.RopeTables
import PocketMoE.Engine.IndexerSelect
import PocketMoE.Engine.GgufPlan
import PocketMoE.Engine.GgufRows
import PocketMoE.Engine.AttentionShardExact
import PocketMoE.Engine.WorkerLoop
import PocketMoE.Loader.TensorReader
import PocketMoE.Loader.Q6Blocks
import PocketMoE.Loader.GridBlocks
import PocketMoE.Loader.RoutedChunks
import PocketMoE.Backend.SharedWeights
import PocketMoE.Backend.ParallelTeamRuns
import PocketMoE.Backend.Fp4Tile
import PocketMoE.Runtime.VocabShard
import PocketMoE.Backend.GroupRoutes
import PocketMoE.Backend.DotI8
import PocketMoE.Backend.Int8PrepareSafety
import PocketMoE.Runtime.MiniMaxMoE
import PocketMoE.Engine.GreedyToken
import PocketMoE.Engine.TopkKernels
import PocketMoE.Engine.FlashMemory
import PocketMoE.Engine.Nucleus
import PocketMoE.Kernels.Fp8Gemm
import PocketMoE.Kernels.Int8Gemm
import PocketMoE.Engine.ActQuant
import PocketMoE.Engine.Gates
import PocketMoE.Engine.SparseAttention
import PocketMoE.Loader.IMatrixMerge
import PocketMoE.Engine.Fp4MoeAgrees
import PocketMoE.Loader.ExpertWeights
import PocketMoE.Engine.GgufDots
import PocketMoE.Engine.GgufDotsExact
import PocketMoE.Engine.GgufMoe
import PocketMoE.Engine.GgufMoeAgrees
import PocketMoE.Engine.MoeTiles
import PocketMoE.Lib.Numerals
import PocketMoE.Engine.CommandChannel
import PocketMoE.Engine.HyperConnections
import PocketMoE.Lib.Segments
