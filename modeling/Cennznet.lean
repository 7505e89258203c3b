import Cennznet.Theorems.Cennzx.Trades
import Cennznet.Theorems.Cennzx.Exit
import Cennznet.Theorems.Nft.Royalties
import Cennznet.Theorems.Nft.Funded
import Cennznet.Theorems.Nft.Schedule
import Cennznet.Theorems.EthBridge.Replay
import Cennznet.Theorems.EthBridge.Bookkeeping
import Cennznet.Theorems.EthBridge.Calls
import Cennznet.Theorems.EthBridge.Decide
import Cennznet.Theorems.EthBridge.Rotation
import Cennznet.Theorems.EthBridge.Verify
import Cennznet.Theorems.EthBridge.Worker
import Cennznet.Theorems.Erc20Peg.Schedule
import Cennznet.Theorems.Erc20Peg.Tokens
import Cennznet.Theorems.EthStateOracle.Payment
import Cennznet.Theorems.EthStateOracle.Parameters
import Cennznet.Theorems.Staking.PayoutQueue
import Cennznet.Theorems.Staking.Accrued
import Cennznet.Theorems.Staking.Dust
import Cennznet.Theorems.Staking.FinalSession
import Cennznet.Theorems.Staking.Announced
import Cennznet.Theorems.Staking.ReportQueue
import Cennznet.Theorems.Governance.Majority
import Cennznet.Theorems.Governance.Status
import Cennznet.Theorems.Governance.VetoTally
import Cennznet.Theorems.Governance.StakeOnce
import Cennznet.Theorems.Governance.Bonds
import Cennznet.Theorems.EthWallet.Inclusion
import Cennznet.Theorems.EvmCurrency.Funds
import Cennznet.Theorems.EthyGadget.Rounds
import Cennznet.Theorems.EthyGadget.Gossip
import Cennznet.Theorems.EthyGadget.Messages
import Cennznet.Theorems.Nft.Supply
import Cennznet.Theorems.EthStateOracle.Stages
import Cennznet.Theorems.EthStateOracle.Bonds
import Cennznet.Theorems.Precompiles.Recognition
import Cennznet.Theorems.GenericAsset.Available
import Cennznet.Theorems.GenericAsset.Imbalances
import Cennznet.Theorems.Nft.Paging
import Cennznet.Theorems.Precompiles.Ownership
import Cennznet.Theorems.Precompiles.Allowances
import Cennznet.Theorems.TransactionPayment.FeeParts
import Cennznet.Theorems.EthBridge.Hex
import Cennznet.Theorems.EvmData.RoundTrip
