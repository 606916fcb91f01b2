import QuantyCoin.ByteDecoder
import QuantyCoin.DecoderExactness
import QuantyCoin.MapJournal
import QuantyCoin.AncestorWalk
import QuantyCoin.BranchSwitch
import QuantyCoin.ChunkedStream
import QuantyCoin.MachineArithmetic
import QuantyCoin.TwosComplement
import QuantyCoin.BlockHashing
import QuantyCoin.TreeStack
import QuantyCoin.TreeListings
import QuantyCoin.IdRegistry
import QuantyCoin.TraceRuns
import QuantyCoin.PositionalDigits
import QuantyCoin.BitRegrouping
import QuantyCoin.OrderStatistics
import QuantyCoin.StridedSearch
import QuantyCoin.MiningRounds
import QuantyCoin.GreedySelection
import QuantyCoin.StateTriples
import QuantyCoin.DerivedCache
import QuantyCoin.SlotCache
import QuantyCoin.HdWallet
import QuantyCoin.WalletPayments
import QuantyCoin.CoinSelection
import QuantyCoin.PqcMigration
import QuantyCoin.WalletRestore
import QuantyCoin.PrimeCertificate
import QuantyCoin.ShortWeierstrass
import QuantyCoin.Primitives
import QuantyCoin.Ripemd160
import QuantyCoin.Bech32
import QuantyCoin.Base58
import QuantyCoin.ConsensusParameters
import QuantyCoin.CompactTarget
import QuantyCoin.Transaction
import QuantyCoin.PureRipemd160
import QuantyCoin.Block
import QuantyCoin.BlockCodec
import QuantyCoin.CodecExactness
import QuantyCoin.CanonicalEncoding
import QuantyCoin.HeaderRules
import QuantyCoin.LwmaRetarget
import QuantyCoin.LwmaMonotonicity
import QuantyCoin.LwmaFactor
import QuantyCoin.LwmaRange
import QuantyCoin.LaneIsolation
import QuantyCoin.MedianTimePast
import QuantyCoin.InputSignature
import QuantyCoin.Secp256k1
import QuantyCoin.Secp256k1Group
import QuantyCoin.HdDerivation
import QuantyCoin.UtxoSet
import QuantyCoin.Addresses
import QuantyCoin.Mempool
import QuantyCoin.MempoolInvariant
import QuantyCoin.AuthorizingKeys
import QuantyCoin.Chainstate
import QuantyCoin.UtxoUndoExactness
import QuantyCoin.MempoolAdmission
import QuantyCoin.InputStages
import QuantyCoin.BlockTree
import QuantyCoin.ChainReplay
import QuantyCoin.MempoolMinability
import QuantyCoin.StoredBlocks
import QuantyCoin.ChainGrowth
import QuantyCoin.MerkleCommitment
import QuantyCoin.TxidCommitment
import QuantyCoin.SighashBinding
import QuantyCoin.TransactionSigning
import QuantyCoin.ChainConvergence
import QuantyCoin.MonetarySupply
import QuantyCoin.SpendAuthorization
import QuantyCoin.HeaderRuleRefinement
import QuantyCoin.NextWork
import QuantyCoin.BlockValidation
import QuantyCoin.WireProtocol
import QuantyCoin.InventoryParsing
import QuantyCoin.PeerMessages
import QuantyCoin.PeerHandshake
import QuantyCoin.PeerFraming
import QuantyCoin.StratumFraming
import QuantyCoin.StratumServer
import QuantyCoin.StratumShares
import QuantyCoin.MiningEngine
import QuantyCoin.BlockDownload
import QuantyCoin.BlockGossip
import QuantyCoin.P2mrTree
import QuantyCoin.P2mrDepths
import QuantyCoin.P2mrExport
import QuantyCoin.FailingFolds
import QuantyCoin.ScriptSolver
import QuantyCoin.ScriptSigning
import QuantyCoin.LeafSigning
import QuantyCoin.P2mrSigning
import QuantyCoin.Bech32Exactness
import QuantyCoin.Bip39Words
import QuantyCoin.Mnemonics
import QuantyCoin.Ecdsa
import QuantyCoin.SignatureMalleability
import QuantyCoin.SighashCache
import QuantyCoin.ExtendedKeys
import QuantyCoin.WitnessSigOps
import QuantyCoin.SteadyCalls
import QuantyCoin.WalletSimulation
import QuantyCoin.ModularInverse
import QuantyCoin.DerSignatures
import QuantyCoin.P2mrFunding
import QuantyCoin.P2mrCompletion
import QuantyCoin.ScriptNumbers
import QuantyCoin.ConditionStack
import QuantyCoin.SuccessOrder
import QuantyCoin.SignatureEncodings
import QuantyCoin.ScriptOperations
import QuantyCoin.ScriptInterpreter
import QuantyCoin.ScriptVerifier
import QuantyCoin.SoftForks
import QuantyCoin.KeyhashScripts
import QuantyCoin.TransactionChecker
import QuantyCoin.PolicyScripts
import QuantyCoin.RelatedRuns
import QuantyCoin.CachedVerification
import QuantyCoin.InterpreterInvariants
import QuantyCoin.ValidationWeight
import QuantyCoin.ProgramCosts
import QuantyCoin.SigOpCounting
import QuantyCoin.SigOpBounds
import QuantyCoin.KeyhashSpends
import QuantyCoin.MissingOutputs
import QuantyCoin.BlockUndo
