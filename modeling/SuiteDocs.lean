import SuiteDocs.Main
import SuiteDocs.Service.Response
import SuiteDocs.Number.Decimal
import SuiteDocs.Text.Base64
import SuiteDocs.Text.Lower
import SuiteDocs.Proofs.Logged
import SuiteDocs.Proofs.Nesting
import SuiteDocs.Proofs.Segments
import SuiteDocs.Proofs.Matches
import SuiteDocs.Proofs.Sites
import SuiteDocs.Proofs.Declarations
import SuiteDocs.Proofs.Reading
import SuiteDocs.Proofs.Partition
import SuiteDocs.Proofs.Agreement
import SuiteDocs.Proofs.Baselines
import SuiteDocs.Proofs.Replay
import SuiteDocs.Proofs.Refusals
import SuiteDocs.Proofs.Layout
import SuiteDocs.Proofs.Objects
import SuiteDocs.Proofs.Declaring
import SuiteDocs.Proofs.Registering
import SuiteDocs.Proofs.RoundTrip
import SuiteDocs.Proofs.Exchange
import SuiteDocs.Proofs.Conservation
import SuiteDocs.Proofs.Delivery
import SuiteDocs.Proofs.Writing
import SuiteDocs.Proofs.Runs
import SuiteDocs.Proofs.Targets
import SuiteDocs.Proofs.Publishing
import SuiteDocs.Proofs.Discovering
import SuiteDocs.Proofs.Accounting
import SuiteDocs.Proofs.Spans
import SuiteDocs.Proofs.Comments
import SuiteDocs.Proofs.Rehearsal
import SuiteDocs.Proofs.Failures
import SuiteDocs.Proofs.Extracts
import SuiteDocs.Proofs.Depths
import SuiteDocs.Proofs.Lookup
import SuiteDocs.Proofs.Splitting
import SuiteDocs.Proofs.Titles
import SuiteDocs.Proofs.Joining
import SuiteDocs.Proofs.Placing
import SuiteDocs.Proofs.Composing
import SuiteDocs.Proofs.Programs
import SuiteDocs.Proofs.Origins
import SuiteDocs.Proofs.Gaps
import SuiteDocs.Proofs.Spacing
import SuiteDocs.Proofs.Globs
import SuiteDocs.Proofs.Keys
import SuiteDocs.Proofs.Timestamps
import SuiteDocs.Proofs.Sections
import SuiteDocs.Proofs.Balance
