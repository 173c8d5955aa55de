import NeutronContracts.Properties.Mutex
import NeutronContracts.Properties.Initialisation
import NeutronContracts.Properties.BondStep
import NeutronContracts.Properties.UnbondSlots
import NeutronContracts.Properties.Payment
import NeutronContracts.Properties.Restake
import NeutronContracts.Properties.Freshness
import NeutronContracts.Properties.EraClock
import NeutronContracts.Properties.Fees
import NeutronContracts.Properties.ExchangeRate
import NeutronContracts.Properties.Supply
import NeutronContracts.Properties.Custody
import NeutronContracts.Properties.ValidatorList
import NeutronContracts.Properties.Origin
import NeutronContracts.Properties.Shares
import NeutronContracts.Properties.ShareLedger
import NeutronContracts.Properties.BridgeThreshold
import NeutronContracts.Properties.ProposalKey
import NeutronContracts.Properties.Coverage
import NeutronContracts.Properties.TokenSupply
import NeutronContracts.Properties.TokenConsent
import NeutronContracts.Properties.Configuration
import NeutronContracts.Properties.RateHistory
import NeutronContracts.Properties.Rollback
import NeutronContracts.Properties.UnstakeIndex
import NeutronContracts.Properties.ValidatorSet
import NeutronContracts.Properties.Correlation
import NeutronContracts.Lib.EvenSplit
import NeutronContracts.Lib.Greedy
import NeutronContracts.Lib.Mirror
import NeutronContracts.LsdToken.Enumerable
import NeutronContracts.Properties.Allocation
import NeutronContracts.Properties.NetStake
import NeutronContracts.Properties.NoProfit
import NeutronContracts.Properties.PayloadText
import NeutronContracts.Properties.PositiveStake
import NeutronContracts.Properties.TokenMirror
import NeutronContracts.Properties.WithdrawChecks
import NeutronContracts.Properties.RateGrowth
import NeutronContracts.Properties.LsmCredit
import NeutronContracts.Properties.LsmBacklog
import NeutronContracts.Properties.TransferSolvency
import NeutronContracts.Properties.VoucherBacking
import NeutronContracts.Properties.TransferMigration
import NeutronContracts.Properties.TransferDenoms
import NeutronContracts.Properties.Listings
import NeutronContracts.Properties.BridgeSupply
import NeutronContracts.Properties.TokenMarketing
import NeutronContracts.Chain.HostAccount
import NeutronContracts.Properties.Funding
