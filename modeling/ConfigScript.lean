import ConfigScript.Main
import ConfigScript.Proofs.Fallible
import ConfigScript.Proofs.Reach
import ConfigScript.Proofs.NameMap
import ConfigScript.Proofs.Schema.Declared
import ConfigScript.Proofs.Schema.Needed
import ConfigScript.Proofs.Schema.Reachable
import ConfigScript.Proofs.Schema.Protocols
import ConfigScript.Proofs.Schema.Flattening
import ConfigScript.Proofs.Schema.Members
import ConfigScript.Proofs.Schema.Closed
import ConfigScript.Proofs.Schema.Upcast
import ConfigScript.Proofs.Schema.Packages
import ConfigScript.Proofs.Resolution.Attempt
import ConfigScript.Proofs.Resolution.Binding
import ConfigScript.Proofs.Resolution.Lookup
import ConfigScript.Proofs.Resolution.Soundness
import ConfigScript.Proofs.Resolution.Matches
import ConfigScript.Proofs.Resolution.Reporting
import ConfigScript.Proofs.Resolution.Accounted
import ConfigScript.Proofs.Resolution.Counting
import ConfigScript.Proofs.Syntax.Inversion
import ConfigScript.Proofs.Syntax.Shape
import ConfigScript.Proofs.Syntax.RoundTrip
import ConfigScript.Proofs.Resolution.Faithful
import ConfigScript.Proofs.Resolution.Codes
import ConfigScript.Proofs.Interpretation.Partition
import ConfigScript.Proofs.Interpretation.Agreement
import ConfigScript.Proofs.Resolution.Scoped
import ConfigScript.Proofs.Resolution.Mirroring
import ConfigScript.Proofs.Resolution.Scoping
import ConfigScript.Proofs.Resolution.Places
import ConfigScript.Proofs.Resolution.Framed
import ConfigScript.Proofs.Resolution.Alike
import ConfigScript.Proofs.Resolution.Siblings
import ConfigScript.Proofs.Syntax.Lexemes
import ConfigScript.Proofs.Syntax.TreeLexemes
import ConfigScript.Proofs.Syntax.Consumed
import ConfigScript.Proofs.Syntax.Complete
import ConfigScript.Proofs.Syntax.Imported
import ConfigScript.Proofs.Syntax.Reading
import ConfigScript.Proofs.Syntax.Gaps
import ConfigScript.Proofs.Syntax.Nodes
import ConfigScript.Proofs.Syntax.Placed
import ConfigScript.Proofs.Syntax.Positions
import ConfigScript.Proofs.Syntax.Located
import ConfigScript.Proofs.Syntax.Moved
import ConfigScript.Proofs.Syntax.Assembly
import ConfigScript.Proofs.Syntax.Rereading
import ConfigScript.Proofs.Syntax.Integers
import ConfigScript.Proofs.Syntax.Endings
import ConfigScript.Proofs.Syntax.Relocated
import ConfigScript.Proofs.Syntax.Joined
import ConfigScript.Proofs.Syntax.Elsewhere
import ConfigScript.Proofs.Syntax.Walked
import ConfigScript.Proofs.Syntax.Progress
import ConfigScript.Proofs.Syntax.ArgumentLists
import ConfigScript.Proofs.Syntax.Regions
import ConfigScript.Proofs.Syntax.Balanced
import ConfigScript.Proofs.Syntax.Crossing
import ConfigScript.Proofs.Syntax.BehindLine
import ConfigScript.Proofs.Syntax.Denoted
import ConfigScript.Proofs.Schema.OwnProperties
import ConfigScript.Proofs.Schema.Reordered
import ConfigScript.Proofs.Schema.Unrelated
import ConfigScript.Proofs.Schema.Fingerprint
import ConfigScript.Proofs.Resolution.Moved
import ConfigScript.Proofs.Resolution.Placeless
import ConfigScript.Proofs.Schema.Spelling
import ConfigScript.Proofs.Schema.Respelled
import ConfigScript.Proofs.Syntax.Nesting
import ConfigScript.Proofs.Resolution.Operands
import ConfigScript.Proofs.Resolution.Failed
import ConfigScript.Proofs.Resolution.Cascade
import ConfigScript.Proofs.Interpretation.ImportReports
import ConfigScript.Proofs.Resolution.Overloads
import ConfigScript.Proofs.Resolution.Placement
import ConfigScript.Proofs.Resolution.Chosen
import ConfigScript.Proofs.Interpretation.Caching
import ConfigScript.Proofs.Syntax.Lossless
import ConfigScript.Proofs.Syntax.Wrapped
import ConfigScript.Proofs.Interpretation.SoftwareTypes
import ConfigScript.Proofs.Interpretation.SoftwareBlocks
import ConfigScript.Proofs.Schema.Assignable
import ConfigScript.Proofs.Schema.BreadthFirst
import ConfigScript.Proofs.Schema.Lineage
import ConfigScript.Proofs.Syntax.Halting
import ConfigScript.Proofs.Syntax.Found
import ConfigScript.Proofs.Syntax.Standalone
import ConfigScript.Proofs.Faults
import ConfigScript.Proofs.Syntax.Termination
import ConfigScript.Proofs.Schema.Chains
import ConfigScript.Proofs.Catalog.Merging
import ConfigScript.Proofs.Schema.Unresolved
import ConfigScript.Proofs.Schema.Blanks
import ConfigScript.Proofs.Schema.Recognition
import ConfigScript.Proofs.Resolution.Redeclared
import ConfigScript.Proofs.Resolution.UnexpectedBlock
import ConfigScript.Proofs.Resolution.ImplicitReceiver
