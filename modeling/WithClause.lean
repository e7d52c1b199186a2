import WithClause.Definition.Reader
import WithClause.Forwarding
import WithClause.Statement.Preview
import WithClause.Value.Json
import WithClause.Proofs.DependencyOrder.Graph
import WithClause.Proofs.DependencyOrder.Rounds
import WithClause.Proofs.DependencyOrder.Run
import WithClause.Proofs.DependencyOrder.Acceptance
import WithClause.Proofs.DependencyOrder.Canonical
import WithClause.Proofs.DependencyOrder.Obstacles
import WithClause.Proofs.Statement.Text
import WithClause.Proofs.FromClause.Walk
import WithClause.Proofs.FromClause.Layout
import WithClause.Proofs.CommonTable.Text
import WithClause.Proofs.CommonTable.Renaming
import WithClause.Proofs.Statement.Calls
import WithClause.Proofs.Statement.Registry
import WithClause.Proofs.OrderedMap.Merging
import WithClause.Proofs.Statement.Bindings
import WithClause.Proofs.Statement.Generated
import WithClause.Proofs.Query.Clauses
import WithClause.Proofs.Statement.Interleaving
import WithClause.Proofs.CommonTable.Coverage
import WithClause.Proofs.CommonTable.Attaching
import WithClause.Proofs.Statement.Coverage
import WithClause.Proofs.DependencyOrder.Change
import WithClause.Proofs.Statement.Outline
import WithClause.Proofs.Definition.Clauses
import WithClause.Proofs.Definition.WrittenOut
import WithClause.Proofs.Definition.Registration
import WithClause.Proofs.Condition.Balanced
import WithClause.Proofs.Condition.Operands
import WithClause.Proofs.Filter.Transcript
import WithClause.Proofs.Filter.Grouping
import WithClause.Proofs.Query.Keywords
import WithClause.Proofs.Statement.Preview
import WithClause.Proofs.Statement.Stretches
import WithClause.Proofs.Statement.Forwarding
import WithClause.Proofs.Statement.Nested
import WithClause.Proofs.OrderedMap.Agreement
import WithClause.Proofs.Query.Agreement
import WithClause.Proofs.Query.Congruence
import WithClause.Proofs.Statement.Agreement
import WithClause.Proofs.Definition.Agreement
import WithClause.Proofs.Text.Quoted
import WithClause.Proofs.Statement.Literals
import WithClause.Proofs.DependencyOrder.Loop
import WithClause.Proofs.Json.Text
import WithClause.Proofs.Query.Numbering
import WithClause.Proofs.Json.Number
import WithClause.Proofs.Timestamp.Reader
import WithClause.Proofs.Value.Json
