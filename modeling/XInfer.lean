import XInfer.WhileLoop
import XInfer.Transducer
import XInfer.Primitives
import XInfer.ModelConfig
import XInfer.DeviceArena
import XInfer.Machine
import XInfer.KVCache
import XInfer.Device
import XInfer.Sampling
import XInfer.VisionGate
import XInfer.Forward
import XInfer.ByteString
import XInfer.ChatTemplate
import XInfer.Tokenizer
import XInfer.TokenRouting
import XInfer.Generation
import XInfer.ReasoningRouting
import XInfer.StreamingHandler
import XInfer.DeviceRules
import XInfer.ForwardRules
import XInfer.SessionRules
import XInfer.LoopRules
import XInfer.CallRules
import XInfer.PersistentBuffer
import XInfer.TokenBudget
import XInfer.Lossless
import XInfer.CacheContent
import XInfer.Perplexity
import XInfer.Kernels
import XInfer.Network
import XInfer.Crc64
import XInfer.Container
import XInfer.SortedMap
import XInfer.FileStream
import XInfer.MetadataJson
import XInfer.ArtifactReader
import XInfer.ReaderBounds
import XInfer.ChecksumBurst
import XInfer.ContainerLayout
import XInfer.ArtifactWriter
import XInfer.ArtifactRoundTrip
import XInfer.Converter
import XInfer.TokenizerJson
import XInfer.TokenizerLoad
import XInfer.KeySearch
import XInfer.TokenizerFile
import XInfer.TokenizerRecovery
import XInfer.PreTokenizer
import XInfer.BacktrackingRegex
import XInfer.PreTokenizerRegex
import XInfer.TokenizerRoundTrip
import XInfer.ChunkedPrefill
import XInfer.TwinRules
import XInfer.SessionTwins
import XInfer.Isolation
import XInfer.EngineReload
import XInfer.HttpFraming
import XInfer.Interleaving
import XInfer.ConnectionHandover
import XInfer.EngineAccess
import XInfer.FloatFormat
import XInfer.JsonGrammar
import XInfer.ServeJson
import XInfer.ServeJsonGrammar
import XInfer.ServeResponses
import XInfer.ChatRequests
import XInfer.Occurrences
import XInfer.ImagePlaceholders
import XInfer.SpecialScan
import XInfer.ChatTurns
import XInfer.PromptTags
import XInfer.ChatMl
import XInfer.TurnCount
import XInfer.ImageChecks
import XInfer.ImageAnswers
import XInfer.TemplateLoading
import XInfer.StepConditions
import XInfer.Alignment
import XInfer.ArenaBlocks
import XInfer.VisualIndices
import XInfer.SessionFrames
import XInfer.VerifyScratch
import XInfer.Erasure
import XInfer.ThinkTags
import XInfer.LayerSlots
import XInfer.ChecksumAgreement
import XInfer.UnknownMembers
import XInfer.UnknownPieces
import XInfer.BatchedMerge
import XInfer.Base64
import XInfer.MultipartForms
import XInfer.Dispositions
import XInfer.LongestMatch
import XInfer.SpecialMatches
import XInfer.ConfigCheck
import XInfer.Utf8
import XInfer.StreamedCharacters
import XInfer.BufferReads
import XInfer.ImageHeaders
import XInfer.MarkerStreams
import XInfer.Bilinear
import XInfer.ImageResampling
import XInfer.LengthCalls
import XInfer.Regions
import XInfer.KVCacheStorage
import XInfer.NumberText
import XInfer.MetadataChecks
import XInfer.AcceptedMetadata
import XInfer.KVCacheGate
import XInfer.Launches
import XInfer.AttentionKernels
import XInfer.Int8RoundTrip
import XInfer.BlockSums
import XInfer.Int4Words
import XInfer.Int4Kernels
import XInfer.Int4Agreement
import XInfer.ConverterInt4
import XInfer.ChunkRuns
import XInfer.CausalConv
import XInfer.OnlineSoftmax
import XInfer.CachedAttention
import XInfer.DynamicKernels
import XInfer.Argmax
import XInfer.DecodePass
import XInfer.PassRules
import XInfer.GraphReplay
import XInfer.TreeReduction
import XInfer.ParallelArgmax
import XInfer.CrossEntropy
import XInfer.VitAttention
import XInfer.Rotations
import XInfer.Rope
import XInfer.Strides
import XInfer.TensorViews
import XInfer.WorkGroups
import XInfer.RmsNorm
import XInfer.Elementwise
import XInfer.DeltaRule
import XInfer.GatedDeltaNet
import XInfer.GatedDeltaRule
import XInfer.LayerKernels
import XInfer.LayerRows
import XInfer.CacheSlots
import XInfer.FullLayers
import XInfer.LinearLayers
import XInfer.PassRefinement
import XInfer.PassRuns
import XInfer.GreedyDecoding
import XInfer.SoftmaxPerturbation
import XInfer.Int8Attention
import XInfer.WeightLoading
import XInfer.CheckpointConversion
import XInfer.Continuation
import XInfer.GreedyAnswers
