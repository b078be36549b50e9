import LedgerGateway.Main
import LedgerGateway.Disk.Tree
import LedgerGateway.Protocol.Schema
import LedgerGateway.Proofs.Json.Printing
import LedgerGateway.Proofs.Json.Acceptance
import LedgerGateway.Proofs.Key.Consistency
import LedgerGateway.Proofs.Key.Signing
import LedgerGateway.Proofs.Protocol.Schema
import LedgerGateway.Proofs.Protocol.Acceptance
import LedgerGateway.Proofs.Protocol.Extension
import LedgerGateway.Proofs.Protocol.Merging
import LedgerGateway.Proofs.Proposal.Contents
import LedgerGateway.Proofs.Proposal.Result
import LedgerGateway.Proofs.Session.Agreement
import LedgerGateway.Proofs.Client.Stages
import LedgerGateway.Proofs.CommandLine.Arguments
import LedgerGateway.Proofs.Text.Repair
import LedgerGateway.Proofs.Json.Stability
import LedgerGateway.Proofs.Asn1.Canonical
import LedgerGateway.Proofs.Key.Canonical
import LedgerGateway.Proofs.Key.Forms
import LedgerGateway.Proofs.CredentialStore
import LedgerGateway.Proofs.RpcStatus
import LedgerGateway.Proofs.Identity
import LedgerGateway.Proofs.Protocol.Order
import LedgerGateway.Proofs.Wire.Size
import LedgerGateway.Proofs.Session.Deadlines
import LedgerGateway.Proofs.Pem.Truncation
import LedgerGateway.Proofs.Truncation
import LedgerGateway.Proofs.Configuration
import LedgerGateway.Proofs.Action
import LedgerGateway.Proofs.Session.Signatures
import LedgerGateway.Proofs.Endpoint
import LedgerGateway.Proofs.Json.Depth
