import MutationTesting.Locks
import MutationTesting.Main
import MutationTesting.Proofs.Agreement
import MutationTesting.Proofs.Cycle.Exclusion
import MutationTesting.Proofs.Reversion
import MutationTesting.Proofs.Cycle.Verdict
import MutationTesting.Proofs.Path.Parent
import MutationTesting.Proofs.Disk.Way
import MutationTesting.Proofs.Cycle.Requests
import MutationTesting.Proofs.Safekeeping.Targets
import MutationTesting.Proofs.Procedure.Run
import MutationTesting.Proofs.Command
import MutationTesting.Proofs.Safekeeping.Cycle
import MutationTesting.Proofs.Safekeeping.Commands
import MutationTesting.Proofs.Safekeeping.Batch
import MutationTesting.Proofs.Safekeeping.Session
import MutationTesting.Proofs.Batch.Independence
import MutationTesting.Proofs.Discovery.Function
import MutationTesting.Proofs.Discovery.Lines
import MutationTesting.Proofs.Discovery.Catalog
import MutationTesting.Proofs.CommandLine.Isolation
import MutationTesting.Proofs.Batch.Results
import MutationTesting.Proofs.Safekeeping.Processes
import MutationTesting.Proofs.Batch.Collection
import MutationTesting.Proofs.Planting.Substitution
import MutationTesting.Proofs.Reversion.Stale
import MutationTesting.Proofs.Planting.Conditional
import MutationTesting.Proofs.Diff.Rows
import MutationTesting.Proofs.Operator.StringLiteral
import MutationTesting.Proofs.Report.Category
import MutationTesting.Proofs.Tree.Visits
import MutationTesting.Proofs.Tree.Edits
import MutationTesting.Proofs.Cycle.Lifecycle
import MutationTesting.Proofs.Duration.Written
import MutationTesting.Proofs.Text.Excerpt
import MutationTesting.Proofs.Backup.Paths
import MutationTesting.Proofs.Tree.Errors
import MutationTesting.Locks.Threads
import MutationTesting.Proofs.Locks
import MutationTesting.Proofs.Decimal.Rounding
import MutationTesting.Proofs.Json.Floats
import MutationTesting.Proofs.Host
import MutationTesting.Proofs.Shell.Pattern
import MutationTesting.Proofs.Tree.Table
import MutationTesting.Proofs.Tree.Indented.Statement
