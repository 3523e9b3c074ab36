import SyndDB.Framework.Resumption
import SyndDB.Framework.Rewind
import SyndDB.Framework.CallStack
import SyndDB.Framework.ObjectStore
import SyndDB.Framework.Occurrence
import SyndDB.Framework.Octets
import SyndDB.Framework.Outcome
import SyndDB.Framework.Run
import SyndDB.Framework.Changes
import SyndDB.Framework.Interpretation
import SyndDB.Framework.Rely
import SyndDB.Contracts.DataTypes
import SyndDB.Contracts.TeeKeyManager
import SyndDB.Contracts.World
import SyndDB.Contracts.ModuleCheckRegistry
import SyndDB.Contracts.Bridge
import SyndDB.Contracts.Frame
import SyndDB.Contracts.AtMostOnce
import SyndDB.Contracts.KeyAdministration
import SyndDB.Shared.CborBatch
import SyndDB.Shared.Recorded
import SyndDB.Sequencer.Batcher
import SyndDB.Sequencer.Pipeline
import SyndDB.Replication.Applier
import SyndDB.Replication.Sync
import SyndDB.Replication.Contiguity
import SyndDB.Replication.Authenticity
import SyndDB.Replication.Storage
import SyndDB.Replication.Replay
import SyndDB.Replication.HashOrder
import SyndDB.Replication.Agreement
import SyndDB.Stylus.Jwt
import SyndDB.Stylus.JsonScan
import SyndDB.Stylus.AttestationVerifier
import SyndDB.Stylus.KeyBinding
import SyndDB.Client.Session
import SyndDB.Client.Replay
import SyndDB.Client.Delivery
import SyndDB.Client.SchemaOrder
import SyndDB.Sequencer.Recovery
import SyndDB.Shared.FieldBinding
import SyndDB.Shared.RoundTrip
import SyndDB.Framework.Text
import SyndDB.Framework.Json
import SyndDB.Framework.Keccak
import SyndDB.Framework.Abi
import SyndDB.Sequencer.BridgeSignature
import SyndDB.Sequencer.MessageId
import SyndDB.RiscZero.AttestationVerifier
import SyndDB.RiscZero.Forgery
import SyndDB.RiscZero.KeyBinding
import SyndDB.ChainMonitor.Monitor
import SyndDB.ChainMonitor.Conservation
import SyndDB.Contracts.KeyRegistry
import SyndDB.Contracts.KeyRemoval
import SyndDB.Contracts.RegistrationBinding
import SyndDB.Bootstrap.RelayerClient
import SyndDB.Replication.GapAccounting
import SyndDB.Replication.Audit
import SyndDB.Replication.ChainAudit
import SyndDB.Replication.CrashSafety
import SyndDB.Replication.Deferral
import SyndDB.Client.Senders
import SyndDB.Client.Process
import SyndDB.Client.Duplicates
import SyndDB.Client.Arrival
import SyndDB.Client.Shutdown
import SyndDB.Contracts.Handling
import SyndDB.Contracts.Sessions
import SyndDB.Contracts.ValidatorThreshold
import SyndDB.Contracts.ValidatorApproval
import SyndDB.Contracts.Precondition
import SyndDB.Contracts.TokenConservation
import SyndDB.Contracts.MessageOrdering
import SyndDB.Contracts.SupplyIncrease
import SyndDB.Relayer.Withdrawal
import SyndDB.Sequencer.Attestation
import SyndDB.Framework.Cbor
import SyndDB.Shared.BatchCodec
import SyndDB.Shared.ContentHash
import SyndDB.Replication.Coherence
import SyndDB.Framework.SortedRows
import SyndDB.Sequencer.LocalTransport
import SyndDB.Sequencer.BackendAgreement
import SyndDB.ChainMonitor.Coverage
import SyndDB.Client.DdlRecovery
import SyndDB.Sequencer.Withdrawals
import SyndDB.Framework.Transaction
import SyndDB.Replication.Atomicity
import SyndDB.Framework.PostImages
import SyndDB.Replication.ChangesetApply
import SyndDB.Stylus.Pkcs1
import SyndDB.Framework.Bisection
import SyndDB.Framework.Cursor
import SyndDB.Replication.BatchIndex
import SyndDB.Replication.GapDetection
import SyndDB.Sequencer.MessageQueue
import SyndDB.Sequencer.GcsTransport
import SyndDB.Sequencer.InboundPages
import SyndDB.Sequencer.OutboundPolls
import SyndDB.Framework.JsonRecord
import SyndDB.RiscZero.Claims
import SyndDB.RiscZero.DropIn
import SyndDB.RiscZero.Base64url
import SyndDB.RiscZero.TokenStrictness
import SyndDB.ChainMonitor.EthClient
import SyndDB.Shared.HeaderIntegers
import SyndDB.Relayer.Allowlist
import SyndDB.Relayer.AttestedFields
import SyndDB.Framework.History
import SyndDB.Validator.SignatureStore
import SyndDB.Shared.BatchFilename
import SyndDB.Replication.PendingTable
import SyndDB.Client.Accounting
import SyndDB.Client.Retry
import SyndDB.Replication.GcsFetcher
import SyndDB.Sequencer.GcsPublishing
import SyndDB.Replication.EndToEnd
import SyndDB.Client.Transmission
import SyndDB.Replication.ClientReplay
import SyndDB.Bootstrap.StateMachine
import SyndDB.Bootstrap.Onboarding
