import Nitro.Lib.Go
import Nitro.Lib.FinMap
import Nitro.Lib.Abi
import Nitro.Lib.Runs
import Nitro.Lib.Json
import Nitro.Lib.ReplicatedLog
import Nitro.Lib.Waterfall
import Nitro.Lib.Evm
import Nitro.Lib.RoundRobin
import Nitro.Types
import Nitro.Crypto
import Nitro.Outcome
import Nitro.State
import Nitro.SignedState
import Nitro.Channel
import Nitro.Consensus.Vars
import Nitro.Consensus.Channel
import Nitro.Consensus.Serde
import Nitro.Consensus.Steps
import Nitro.Consensus.Balances
import Nitro.Consensus.Invariant
import Nitro.Consensus.Agreement
import Nitro.Protocols.Interfaces
import Nitro.Protocols.DirectDefund
import Nitro.Protocols.Closing
import Nitro.Protocols.DirectFund
import Nitro.Protocols.DepositSafety
import Nitro.Protocols.VirtualFund
import Nitro.Protocols.VirtualDefund
import Nitro.Protocols.Neutrality
import Nitro.Contracts.NitroUtils
import Nitro.Contracts.TurnTaking
import Nitro.Contracts.StatusManager
import Nitro.Contracts.ForceMove
import Nitro.Contracts.MultiAssetHolder
import Nitro.Contracts.NitroAdjudicator
import Nitro.Contracts.Solvency
import Nitro.Contracts.Finalization
import Nitro.Contracts.Support
import Nitro.Consensus.Signatures
import Nitro.Protocols.PendingUpdates
import Nitro.SetupStates
import Nitro.Protocols.FundingSteps
import Nitro.Protocols.DefundingSteps
import Nitro.Protocols.Authorised
import Nitro.Protocols.Backing
import Nitro.Protocols.Redistribution
import Nitro.Protocols.ThreeParty
import Nitro.ChannelSerde
import Nitro.Contracts.Claims
import Nitro.Client.EthChainService
import Nitro.Contracts.Disputes
import Nitro.Consensus.CatchUp
import Nitro.Protocols.NextProposal
import Nitro.Protocols.Serde
import Nitro.Protocols.FundingTrace
import Nitro.Copies
import Nitro.Protocols.CrankTwice
import Nitro.Protocols.CrankTwiceVirtual
import Nitro.Protocols.CrankIdempotent
import Nitro.Contracts.Unanimity
import Nitro.Contracts.StrictTurnTaking
import Nitro.Contracts.Transfers
import Nitro.Contracts.ClaimChecks
import Nitro.Contracts.TransferOrder
import Nitro.Contracts.Emulation
import Nitro.Lib.Digits
import Nitro.Consensus.Encoding
import Nitro.Protocols.DepositAmounts
import Nitro.Contracts.ClaimVisits
import Nitro.Contracts.ClaimEmulation
import Nitro.Contracts.ClaimAgreement
import Nitro.Contracts.SingleAssetPayments
import Nitro.Contracts.EmbeddedApplication
import Nitro.Lib.AbiInjective
import Nitro.StateEncoding
import Nitro.Consensus.Reading
import Nitro.Protocols.Handover
import Nitro.Protocols.LedgerOpening
import Nitro.Consensus.Malformed
import Nitro.Affords
import Nitro.AllOrNothing
import Nitro.CopyFidelity
import Nitro.Lib.Hex
import Nitro.Lib.Feeds
import Nitro.Protocols.Holdings
import Nitro.SupportOrder
import Nitro.TypeScript.ChannelStorage
import Nitro.TypeScript.Signatures
import Nitro.Protocols.MessageSerde
import Nitro.Client.MemStore
import Nitro.Client.SignatureConversion
import Nitro.Client.StateConversion
import Nitro.Client.Engine
import Nitro.Client.Ownership
import Nitro.Client.PeerObjectives
import Nitro.Client.LateMessages
import Nitro.Client.MalformedMessages
import Nitro.Client.MockChain
