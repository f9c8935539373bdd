import PrimePool.CoinbaseCalls
import PrimePool.LLD.AccountFile
import PrimePool.LLD.BlockFormat
import PrimePool.LLD.KeyConsistency
import PrimePool.LLP.DaemonPackets
import PrimePool.LLP.LiveBlocks
import PrimePool.LLP.BlockRequests
import PrimePool.LLP.DuplicateShares
import PrimePool.LLP.Replay
import PrimePool.LLP.MalformedPackets
import PrimePool.LLP.ClientFrame
import PrimePool.LLP.ConnectionViews
import PrimePool.LLP.ShareVerdicts
import PrimePool.LLP.ShareEncoding
import PrimePool.LLP.ConnectionSlots
import PrimePool.LLP.ScoreAges
import PrimePool.Core.AddressSpelling
import PrimePool.Core.OrphanRefund
import PrimePool.Core.PayoutExact
import PrimePool.Core.CrashConsistency
import PrimePool.Core.BalanceUpdates
import PrimePool.Core.ShareCounting
import PrimePool.Core.PayoutBacking
import PrimePool.Core.SubmissionAnswer
import PrimePool.Core.SubmissionFlag
import PrimePool.Core.ValidAddresses
import PrimePool.Core.CreditOrder
import PrimePool.Core.ShareProportions
import PrimePool.Core.OrphanNotices
import PrimePool.Core.BlockFinder
import PrimePool.Core.ConnectionCounts
import PrimePool.Core.BanLists
import PrimePool.Core.OrphanChecks
import PrimePool.Core.Base58Encoding
import PrimePool.Core.HashBignum
import PrimePool.Core.Verifications
import PrimePool.Hash.KeccakPermutation
import PrimePool.Core.AddressKinds
import PrimePool.LLP.ServerLoads
import PrimePool.Core.PrimeClusters
import PrimePool.Core.BooksBalance
