import DocStore.Adapter.Basic
import DocStore.Entity.Resolver
import DocStore.Http.Remote
import DocStore.Main
import DocStore.Memory.Store
import DocStore.Proofs.Adapter.Transaction
import DocStore.Proofs.Dict
import DocStore.Proofs.Exchange.Asked
import DocStore.Proofs.Memory.Routing
import DocStore.Proofs.Migration.History
import DocStore.Proofs.Migration.Single
import DocStore.Proofs.Migration.Rollback
import DocStore.Proofs.Query.Agreement
import DocStore.Proofs.Query.Truthful
import DocStore.Proofs.Text.Occurrence
import DocStore.Proofs.Definition.Validation
import DocStore.Proofs.Migration.Altering
import DocStore.Proofs.Query.Shape
import DocStore.Proofs.Query.Quoting
import DocStore.Proofs.Dict.Order
import DocStore.Proofs.Json.Record
import DocStore.Proofs.Definition.Column
import DocStore.Proofs.Definition.RoundTrip
import DocStore.Proofs.Migration.RoundTrip
import DocStore.Proofs.Exchange.Race
import DocStore.Proofs.Memory.Named
import DocStore.Proofs.Migration.Noting
import DocStore.Proofs.Migration.Racing
import DocStore.Proofs.Memory.Refusing
import DocStore.Proofs.Adapter.Tenancy
import DocStore.Proofs.Adapter.ReadBack
import DocStore.Proofs.Exchange.Failing
import DocStore.Proofs.Migration.Ordering
import DocStore.Proofs.Memory.Twin
import DocStore.Proofs.Migration.Twin
import DocStore.Proofs.Migration.Staging
import DocStore.Proofs.Query.Mentions
import DocStore.Proofs.Query.Within
import DocStore.Proofs.Query.Clauses
import DocStore.Proofs.Query.Scoped
import DocStore.Proofs.Adapter.Addressing
import DocStore.Proofs.Adapter.Endpoints
import DocStore.Proofs.Definition.AnalyzerNames
import DocStore.Proofs.Adapter.UsableView
import DocStore.Proofs.Memory.Namespace
import DocStore.Proofs.Memory.Identity
import DocStore.Proofs.Memory.PageSize
import DocStore.Proofs.Migration.ViewAltering
import DocStore.Proofs.Entity.Relations
import DocStore.Proofs.Query.Precedence
import DocStore.Proofs.Query.UniqueReading
import DocStore.Proofs.Query.Grouping
import DocStore.Proofs.Migration.Repeating
import DocStore.Proofs.Migration.Irreversible
import DocStore.Proofs.Migration.Status
import DocStore.Proofs.Migration.Idempotence
import DocStore.Proofs.Adapter.DynamicInsert
import DocStore.Proofs.Adapter.Hydration
import DocStore.Proofs.Exchange.Draining
import DocStore.Proofs.Migration.Checking
import DocStore.Proofs.Migration.Tidy
import DocStore.Proofs.Migration.Dropping
import DocStore.Proofs.Query.WellFormed
import DocStore.Proofs.Definition.ObjectRule
import DocStore.Proofs.Definition.Redeclaring
import DocStore.Proofs.Definition.Requiring
import DocStore.Proofs.Migration.Reversing
import DocStore.Proofs.Definition.Nullability
import DocStore.Proofs.Definition.Retaining
import DocStore.Proofs.Definition.Nesting
import DocStore.Proofs.Entity.Fields
import DocStore.Proofs.Migration.FileName
