import QueryCompiler.Closure.Document
import QueryCompiler.Json.Reading
import QueryCompiler.Main
import QueryCompiler.OData.Options
import QueryCompiler.Proofs.Accumulation
import QueryCompiler.Proofs.BareExpressions
import QueryCompiler.Proofs.CatalogueCalls
import QueryCompiler.Proofs.ClosureForms
import QueryCompiler.Proofs.EscapedText
import QueryCompiler.Proofs.FailedSteps
import QueryCompiler.Proofs.FilterDocuments
import QueryCompiler.Proofs.Fingerprint
import QueryCompiler.Proofs.Injection
import QueryCompiler.Proofs.Insertions
import QueryCompiler.Proofs.KeptTexts
import QueryCompiler.Proofs.KeyOrder
import QueryCompiler.Proofs.Listing
import QueryCompiler.Proofs.Meaning
import QueryCompiler.Proofs.Refusal
import QueryCompiler.Proofs.Registrations
import QueryCompiler.Proofs.Requalified
import QueryCompiler.Proofs.RequestFilter
import QueryCompiler.Proofs.Selections
import QueryCompiler.Proofs.SeveralTests
import QueryCompiler.Proofs.TextMethods
import QueryCompiler.Query.Equality
