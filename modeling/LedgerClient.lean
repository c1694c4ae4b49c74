import LedgerClient.Contract.Call
import LedgerClient.Failover.Ledger
import LedgerClient.Failure
import LedgerClient.Keystore.Vault
import LedgerClient.Proofs.Contract.AddressLists
import LedgerClient.Proofs.Envelope.Chains
import LedgerClient.Proofs.Envelope.Malleability
import LedgerClient.Proofs.Extent
import LedgerClient.Proofs.Failover.Race
import LedgerClient.Proofs.Keystore.Formats
import LedgerClient.Proofs.Keystore.Growth
import LedgerClient.Proofs.Spelling
import LedgerClient.Proofs.Transaction.InBand
import LedgerClient.Proofs.Transaction.RoundTrip
import LedgerClient.Rpc.RequestId
import LedgerClient.Transaction.Draft
import LedgerClient.Proofs.Failover.Turns
import LedgerClient.Proofs.Failover.Deadline
import LedgerClient.Proofs.Failover.Response
import LedgerClient.Proofs.Transaction.Configured
import LedgerClient.Proofs.Failover.Commit
import LedgerClient.Proofs.Keystore.Opening
import LedgerClient.Proofs.Transaction.Draft
import LedgerClient.Proofs.Param.Lossless
import LedgerClient.Proofs.Contract.Amount
import LedgerClient.Proofs.Failure
import LedgerClient.Proofs.Contract.Derivation
import LedgerClient.Proofs.Keystore.Listing
import LedgerClient.Proofs.Keystore.Credentials
import LedgerClient.Proofs.Rpc.Lenient
import LedgerClient.Proofs.Envelope.Kinds
import LedgerClient.Proofs.Transaction.ErrorText
