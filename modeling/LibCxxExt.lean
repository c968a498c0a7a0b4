import LibCxxExt.ProofKit.Masks
import LibCxxExt.ProofKit.Decoder
import LibCxxExt.Text.Char
import LibCxxExt.Text.Utf8
import LibCxxExt.Text.Encoders
import LibCxxExt.Text.Utf16
import LibCxxExt.Text.CodepointIterator
import LibCxxExt.Text.CodepointSteps
import LibCxxExt.Text.CharacterTypes
import LibCxxExt.Text.Transcode
import LibCxxExt.ProofKit.Neighbours
import LibCxxExt.ProofKit.Prefixes
import LibCxxExt.Text.SpecialCasing
import LibCxxExt.Text.UnicodeCCC
import LibCxxExt.Text.UnicodeCasing
import LibCxxExt.Text.Casing
import LibCxxExt.Text.ForwardContext
import LibCxxExt.Text.CasingRules
import LibCxxExt.Text.CasingTranscode
import LibCxxExt.ProofKit.BitSets
import LibCxxExt.Text.CaseTables
import LibCxxExt.Text.Folding
import LibCxxExt.Text.InvalidsReplaced
import LibCxxExt.ProofKit.Pieces
import LibCxxExt.Text.Split
import LibCxxExt.Text.Compare
import LibCxxExt.Text.Literals
import LibCxxExt.ProofKit.Trimming
import LibCxxExt.Text.Trim
import LibCxxExt.ProofKit.SelfSync
import LibCxxExt.ProofKit.OrderedCode
import LibCxxExt.Text.Search
import LibCxxExt.Text.SelfSynchronising
import LibCxxExt.Text.CasingStable
import LibCxxExt.Text.Edits
import LibCxxExt.Text.Ordering
import LibCxxExt.ProofKit.CInteger
import LibCxxExt.Sys.Integer
import LibCxxExt.Sys.IntegerArithmetic
import LibCxxExt.Sys.IntegerDivision
import LibCxxExt.Sys.IntegerShifts
import LibCxxExt.Sys.IntegerDefined
import LibCxxExt.ProofKit.Words
import LibCxxExt.Sys.IntegerWords
import LibCxxExt.ProofKit.Smearing
import LibCxxExt.Sys.BitTwiddling
import LibCxxExt.Sys.IntegerPrograms
import LibCxxExt.ProofKit.Nearest
import LibCxxExt.Sys.IntegerComparisons
import LibCxxExt.ProofKit.Interleaving
import LibCxxExt.Threading.Once
import LibCxxExt.Threading.LazyHandles
import LibCxxExt.Threading.LazyHandlesPromises
import LibCxxExt.ProofKit.Tokens
import LibCxxExt.ProofKit.Exec
import LibCxxExt.Threading.ManagedThread
import LibCxxExt.Threading.ManagedThreadCtor
import LibCxxExt.Threading.Semaphore
import LibCxxExt.Threading.SemaphorePermits
import LibCxxExt.Threading.SemaphoreWakeups
import LibCxxExt.Threading.SemaphoreGuards
import LibCxxExt.Threading.Monitor
import LibCxxExt.Threading.MonitorSafety
import LibCxxExt.Threading.SemaphoreMonitor
import LibCxxExt.ProofKit.Replacements
import LibCxxExt.Containers.InplaceAtomicSet
import LibCxxExt.Containers.InplaceAtomicSetScan
import LibCxxExt.ProofKit.Ring
import LibCxxExt.Containers.InplaceQueue
import LibCxxExt.Containers.InplaceQueueIterator
import LibCxxExt.ProofKit.Ledger
import LibCxxExt.ProofKit.Slots
import LibCxxExt.Containers.InplaceSet
import LibCxxExt.Containers.InplaceVector
import LibCxxExt.ProofKit.Calls
import LibCxxExt.Containers.InplaceCalls
import LibCxxExt.Containers.InplaceString
import LibCxxExt.Sys.ResourceGuard
import LibCxxExt.Sys.Destructor
import LibCxxExt.Sys.Result
import LibCxxExt.Sys.ResultSpec
import LibCxxExt.Sys.ResultOperations
import LibCxxExt.Sys.ResultLedger
import LibCxxExt.Sys.ResultSpecializations
import LibCxxExt.Sys.ResultConsumed
import LibCxxExt.Workflows.AllPush
import LibCxxExt.Workflows.AllPushSchedule
import LibCxxExt.Workflows.GenerateUnicodeCasing
import LibCxxExt.Workflows.Lockfile
import LibCxxExt.ProofKit.PythonText
import LibCxxExt.ProofKit.CxxText
import LibCxxExt.Workflows.ParseCodepoints
import LibCxxExt.Workflows.GeneratedText
import LibCxxExt.Workflows.GeneratedSpecialMapping
import LibCxxExt.Workflows.CaseFolding
import LibCxxExt.ProofKit.BinaryFloat
import LibCxxExt.Sys.Numeric
