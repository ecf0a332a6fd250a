import Winnow.Compiler
import Winnow.Predicate.Evaluation
import Winnow.Predicate.Text
import Winnow.Proofs.Coercion.Idempotence
import Winnow.Proofs.Coercion.Reading
import Winnow.Proofs.Compilation.Acceptance
import Winnow.Proofs.Compilation.Meaning
import Winnow.Proofs.Grammar.Reading
import Winnow.Proofs.Predicate.Structure
import Winnow.Settings.File
import Winnow.Source.Description
import Winnow.Source.Filter
import Winnow.Proofs.Compilation.Universality
import Winnow.Proofs.Entries.Extension
import Winnow.Proofs.Source.Collection
import Winnow.Proofs.Compilation.Extension
import Winnow.Proofs.Predicate.Literal
import Winnow.Proofs.Predicate.Condition
import Winnow.Proofs.Compilation.Calls
import Winnow.Proofs.Source.Overriding
import Winnow.Proofs.Compilation.Rearrangement
import Winnow.Proofs.Coercion.Position
import Winnow.Proofs.Number.Rounding
import Winnow.Proofs.Number.Truncation
import Winnow.Proofs.Grammar.Numeral
import Winnow.Proofs.Number.Decimal
import Winnow.Proofs.Number.NumericText
import Winnow.Proofs.Scalar
import Winnow.Proofs.Predicate.Dependence
import Winnow.Proofs.Coercion.Recognition
import Winnow.Proofs.Compilation.Integer
import Winnow.Proofs.Source.Nesting
import Winnow.Proofs.Compilation.Restrictions
import Winnow.Proofs.Compilation.Conservation
import Winnow.Proofs.Compilation.Renaming
import Winnow.Proofs.Compilation.Refusal
import Winnow.Proofs.Grammar.FieldAlias
import Winnow.Proofs.Predicate.Quotation
import Winnow.Proofs.Source.Instantiation
import Winnow.Proofs.Settings.Json
