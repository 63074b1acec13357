import Introspection.Main
import Introspection.Proofs.Json.Numeral
import Introspection.Proofs.Json.Quoted
import Introspection.Proofs.Json.Reading
import Introspection.Proofs.Json.Codec
import Introspection.Proofs.Descriptor.Written
import Introspection.Proofs.Entity.Written
import Introspection.Proofs.Namespace.Written
import Introspection.Proofs.Descriptor.Shape
import Introspection.Proofs.Namespace.Cycle
import Introspection.Proofs.Namespace.Occurrence
import Introspection.Proofs.Namespace.Validation
import Introspection.Proofs.Namespace.Culprit
import Introspection.Proofs.Generation.Gap
import Introspection.Proofs.Resolution.Shape
import Introspection.Proofs.Resolution.Outcome
import Introspection.Proofs.Conversion.Gap
import Introspection.Proofs.Wrapper.Synthesis
import Introspection.Proofs.Declaration.Method
import Introspection.Proofs.Declaration.Emission
import Introspection.Proofs.Declaration.MethodSet
import Introspection.Proofs.Declaration.Nearest
import Introspection.Proofs.Code.Effect
import Introspection.Proofs.Conversion.Release
import Introspection.Proofs.Conversion.Declared
import Introspection.Proofs.Wrapper.Call
import Introspection.Proofs.Wrapper.Length
import Introspection.Proofs.Wrapper.Dispatch
import Introspection.Proofs.Code.Scope
import Introspection.Proofs.Code.Typing
import Introspection.Proofs.Conversion.Storage
import Introspection.Proofs.Conversion.Scope
import Introspection.Proofs.Wrapper.Scope
import Introspection.Proofs.Generation.Malformed
import Introspection.Proofs.Source.Malformed
import Introspection.Proofs.Declaration.Embedding
import Introspection.Proofs.Declaration.Carrier
import Introspection.Proofs.Declaration.Distinct
import Introspection.Proofs.Code.Access
import Introspection.Proofs.Conversion.Ownership
import Introspection.Proofs.Code.Spelling
import Introspection.Proofs.Conversion.Complete
import Introspection.Proofs.Conversion.Spelling
import Introspection.Proofs.Wrapper.Spelling
import Introspection.Proofs.Wrapper.Identifier
import Introspection.Proofs.Wrapper.Locals
import Introspection.Proofs.Wrapper.Hygiene
import Introspection.Proofs.Declaration.Order
import Introspection.Proofs.Declaration.Options
import Introspection.Proofs.Declaration.ValueName
import Introspection.Proofs.Text.Letter
import Introspection.Proofs.Text.Qualifier
import Introspection.Proofs.Text.Escape
import Introspection.Proofs.Code.Token
import Introspection.Proofs.Code.Foreign
import Introspection.Proofs.Conversion.Foreign
import Introspection.Proofs.Wrapper.Token
import Introspection.Proofs.Wrapper.Foreign
import Introspection.Proofs.Declaration.Token
import Introspection.Proofs.Declaration.Foreign
import Introspection.Proofs.Source.Import
import Introspection.Proofs.Source.Unused
import Introspection.Proofs.Json.Texts
import Introspection.Proofs.Entity.Texts
import Introspection.Proofs.Resolution.Escape
import Introspection.Proofs.Listing.Styled
import Introspection.Proofs.Listing.Basic
import Introspection.Proofs.Decimal.Binary64
import Introspection.Proofs.Json.Simulation
import Introspection.Proofs.Declaration.Integer
import Introspection.Proofs.Text.Line
import Introspection.Proofs.Code.Line
import Introspection.Proofs.Conversion.Line
import Introspection.Proofs.Wrapper.Phase
import Introspection.Proofs.Conversion.Symmetry
import Introspection.Proofs.Declaration.Range
import Introspection.Proofs.Text.GoString
import Introspection.Proofs.Namespace.Insertion
import Introspection.Proofs.Namespace.History
import Introspection.Proofs.Text.Casing
import Introspection.Proofs.Text.MixedCase
import Introspection.Proofs.Text.Flat
import Introspection.Proofs.Resolution.Blame
import Introspection.Proofs.Code.Nesting
import Introspection.Proofs.Conversion.Nesting
import Introspection.Proofs.Wrapper.Nesting
