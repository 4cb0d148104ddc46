import CallSite.Basic
import CallSite.Binary64.Basic
import CallSite.Binding
import CallSite.Conversion
import CallSite.Decimal.Notation
import CallSite.Decimal.Read
import CallSite.Decimal.Shortest
import CallSite.Host
import CallSite.Method.Basic
import CallSite.Method.Filter
import CallSite.Method.Table
import CallSite.Overload
import CallSite.Text.Numeral
import CallSite.Text.Quote
import CallSite.Text.UpperCase
import CallSite.Types.Basic
import CallSite.Types.Subtype
import CallSite.Value.Basic
import CallSite.Value.Scalar
import CallSite.Proofs.Registration
import CallSite.Proofs.Binding
import CallSite.Proofs.Types
import CallSite.Proofs.Registry
import CallSite.Proofs.Resolve
import CallSite.Proofs.Subtyping
import CallSite.Proofs.Outcomes
import CallSite.Proofs.Scoring
import CallSite.Proofs.BestOverload
import CallSite.Proofs.SelectionOrder
import CallSite.Proofs.Hiding
import CallSite.Proofs.RegistrationFaults
import CallSite.Proofs.Evaluation
import CallSite.Proofs.Names
import CallSite.Proofs.BaseChain
import CallSite.Proofs.Visibility
import CallSite.Proofs.RepeatedCandidate
