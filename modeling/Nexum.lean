import Nexum.Escrow.Settlement
import Nexum.Signer.Provenance
import Nexum.Signer.Paths
import Nexum.Signer.Decisions
import Nexum.Signer.Approvable
import Nexum.Escrow.Lifecycle
import Nexum.Orchestrator.Outbox
import Nexum.Orchestrator.Offsets
import Nexum.Signer.SnapshotStore
import Nexum.Signer.Wedged
import Nexum.Peer.Matching
import Nexum.Peer.Allocation
import Nexum.Peer.Polling
import Nexum.Transport.Channel
import Nexum.Cli.Pow
import Nexum.Cli.JsonEscape
import Nexum.Operator.Hashes
import Nexum.Trust.Signing
import Nexum.Cli.PrekeyCommands
import Nexum.Trust.Projection
import Nexum.Mailbox.LongPoll
import Nexum.Orchestrator.Integrity
import Nexum.Cli.Confirm
import Nexum.Escrow.Funding
import Nexum.Signer.DigestCount
import Nexum.Signer.Proposal
import Nexum.Signer.TokenLimit
import Nexum.Mailbox.Limits
import Nexum.Signer.Redaction
import Nexum.Cli.EnvExport
import Nexum.Escrow.Base58
import Nexum.Signer.DigestHeader
