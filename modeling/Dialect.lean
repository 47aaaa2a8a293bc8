import Dialect.Format.Record
import Dialect.Format.Resolver
import Dialect.Title
import Dialect.Config.Discovery
import Dialect.Main
import Dialect.Proofs.Entries
import Dialect.Proofs.Format.Interview
import Dialect.Proofs.Format.Negotiation.Lemmas
import Dialect.Proofs.Format.Negotiation.Theorems
import Dialect.Proofs.Format.Resolver.Step
import Dialect.Proofs.Format.Resolver.Past
import Dialect.Proofs.Format.Resolver.Theorems
import Dialect.Proofs.Title.Written
import Dialect.Proofs.Token.Metadata
import Dialect.Proofs.Engine.Lifecycle
import Dialect.Proofs.Token.Elimination
import Dialect.Proofs.Config.Containment
import Dialect.Proofs.Cli.Documents
import Dialect.Proofs.Token.Reach
import Dialect.Proofs.Engine.Options
import Dialect.Proofs.Token.Grammar
import Dialect.Proofs.Token.Prune
import Dialect.Proofs.Token.Text
import Dialect.Proofs.Token.Fusion
import Dialect.Proofs.Token.Reading
import Dialect.Proofs.Cli.Options
import Dialect.Proofs.Cli.Outcome
import Dialect.Proofs.Token.Termination
import Dialect.Proofs.Format.Negotiation.Precedence
import Dialect.Proofs.Format.Negotiation.Reports
import Dialect.Proofs.Format.Occurrences
import Dialect.Proofs.Format.Seam
import Dialect.Proofs.Format.Disabled
import Dialect.Proofs.Title.Replaced
import Dialect.Proofs.Title.Quotes
import Dialect.Proofs.Format.Record
import Dialect.Proofs.Config.Merge.Algebra
import Dialect.Proofs.Config.Merge.Paths
import Dialect.Proofs.Config.Distinct
import Dialect.Proofs.Config.Discovery
import Dialect.Proofs.Config.Layers
import Dialect.Proofs.Cli.Refusals
import Dialect.Proofs.Log.Deliveries
