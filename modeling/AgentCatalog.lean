import AgentCatalog.Main
import AgentCatalog.Pattern.Language
import AgentCatalog.Proofs.Literal.Ends
import AgentCatalog.Proofs.Literal.Search
import AgentCatalog.Proofs.Pattern.Segments
import AgentCatalog.Proofs.Rule.Matching
import AgentCatalog.Proofs.Literal.Registry
import AgentCatalog.Proofs.Rule.Interning
import AgentCatalog.Proofs.Rule.Compilation
import AgentCatalog.Proofs.Catalog.Draft
import AgentCatalog.Proofs.Catalog.Enumeration
import AgentCatalog.Proofs.Catalog.Index
import AgentCatalog.Proofs.Catalog.Lookup
import AgentCatalog.Proofs.Pattern.Normal
import AgentCatalog.Proofs.Catalog.Winner
import AgentCatalog.Proofs.Loader.Loading
import AgentCatalog.Proofs.Rule.Grammar
import AgentCatalog.Proofs.Pattern.Containment
import AgentCatalog.Proofs.Text.Lowered
import AgentCatalog.Proofs.Catalog.Containment
import AgentCatalog.Proofs.Catalog.Filling
import AgentCatalog.Proofs.Pattern.Instances
import AgentCatalog.Proofs.Catalog.Instances
import AgentCatalog.Proofs.Rule.References
import AgentCatalog.Proofs.Catalog.Accepted
import AgentCatalog.Proofs.Catalog.Agreement
import AgentCatalog.Proofs.Catalog.Expression
import AgentCatalog.Proofs.Catalog.Folding
import AgentCatalog.Proofs.Pattern.NormalSegments
import AgentCatalog.Proofs.Loader.Expression
import AgentCatalog.Proofs.Literal.FirstMatch
import AgentCatalog.Proofs.Literal.Backward
import AgentCatalog.Proofs.Rule.Checked
import AgentCatalog.Proofs.Loader.Reading
import AgentCatalog.Proofs.Rule.Counting
import AgentCatalog.Proofs.Pattern.Segmentation
import AgentCatalog.Proofs.Catalog.Candidates
import AgentCatalog.Proofs.Rule.Numbering
import AgentCatalog.Proofs.CommandLine.Answers
