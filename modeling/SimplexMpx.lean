import SimplexMpx.ByteMemory
import SimplexMpx.ProcessorCore
import SimplexMpx.RunRules
import SimplexMpx.RegisterCore
import SimplexMpx.Processor
import SimplexMpx.Registers
import SimplexMpx.Runtime
import SimplexMpx.Startup
import SimplexMpx.Calls
import SimplexMpx.PairStore
import SimplexMpx.RegisterStore
import SimplexMpx.Secrecy
import SimplexMpx.QuickOperations
import SimplexMpx.Threads
import SimplexMpx.StringAgreement
import SimplexMpx.Traverse
import SimplexMpx.Client
import SimplexMpx.LbmCore
import SimplexMpx.Lbm
import SimplexMpx.FixtureCore
import SimplexMpx.SjengCore
import SimplexMpx.Pointers
import SimplexMpx.TraverseLimits
import SimplexMpx.StringContracts
import SimplexMpx.InlineAsmCore
import SimplexMpx.InlineAsm
import SimplexMpx.Kmod
import SimplexMpx.BlowfishCore
import SimplexMpx.Blowfish
import SimplexMpx.BenchmarkCore
import SimplexMpx.KmodLoading
import SimplexMpx.Benchmark
import SimplexMpx.Fixtures
import SimplexMpx.Histories
import SimplexMpx.Lineage
import SimplexMpx.Footprint
import SimplexMpx.StringFixture
import SimplexMpx.StringRounds
import SimplexMpx.Sjeng
import SimplexMpx.BftestCore
import SimplexMpx.Bftest
import SimplexMpx.KmodTasks
import SimplexMpx.UnitTestsCore
import SimplexMpx.UnitTests
import SimplexMpx.StringLaws
import SimplexMpx.CsvText
import SimplexMpx.JsonToCsvCore
import SimplexMpx.JsonToCsv
import SimplexMpx.LoadStoreCore
import SimplexMpx.LoadStore
