import SeedChain.Main
import SeedChain.Proofs.Substitution
import SeedChain.Proofs.Innermost
import SeedChain.Proofs.Settled
import SeedChain.Proofs.Juxtaposition
import SeedChain.Proofs.Limit
import SeedChain.Proofs.FirstStep
import SeedChain.Proofs.Idempotence
import SeedChain.Proofs.Spelling
import SeedChain.Proofs.Canonical
import SeedChain.Proofs.Resuming
import SeedChain.Proofs.Nesting
import SeedChain.Proofs.Malformed
import SeedChain.Proofs.Exchange
import SeedChain.Proofs.Scanning
import SeedChain.Proofs.Acceptance
import SeedChain.Proofs.Variables
import SeedChain.Proofs.Properties.Rereading
import SeedChain.Proofs.Naming
import SeedChain.Proofs.Ordering
import SeedChain.Proofs.Xml.References
import SeedChain.Proofs.Xml.Tags
import SeedChain.Proofs.Xml.Normal
import SeedChain.Proofs.Xml.Invariants
import SeedChain.Proofs.Xml.Rederiving
import SeedChain.Proofs.Xml.Removing
import SeedChain.Proofs.Json.Places
import SeedChain.Proofs.Json.Assigning
import SeedChain.Proofs.Json.Agreement
import SeedChain.Proofs.Json.Addressing
import SeedChain.Proofs.Table.Rereading
import SeedChain.Proofs.Table.Sorting
import SeedChain.Proofs.Bytes.Rereading
import SeedChain.Proofs.Decimal.Rereading
import SeedChain.Proofs.Decimal.Folding
import SeedChain.Proofs.Calendar.Shifting
import SeedChain.Proofs.Calendar.Rereading
import SeedChain.Proofs.Markers
import SeedChain.Proofs.Searching
import SeedChain.Proofs.TitleCase
import SeedChain.Proofs.Tracking
