import CallSite.Types.Subtype
import CallSite.Value.Basic
import CallSite.Value.Scalar

/-!
# Conversions between types

How well an argument of one type fits a parameter of another (`Rank`), the expression that
converts it (`TypeTable.convert`), and what the conversion does to a value when the call runs
(`TypeTable.coerce`). Overload selection and binding reach the first two through a
`Converter`, which a host may replace.

The rank of `source` for `target` is: exact for the same id; widening when `source` is a
subtype of `target`; implicit when both are scalars and their names form one of the pairs of
`implicitScalarPairs` (names, not ids, so a scalar created under the name `Int` converts like
the well-known one); otherwise there is no conversion.
-/

namespace CallSite

/-- How well an argument type fits a parameter type; lower is better. -/
inductive Rank where
  | exact | widening | implicit | impossible
  deriving DecidableEq, Repr

namespace Rank

/-- The rank as a number, from 0 for exact to 3 when there is no conversion. -/
def toNat : Rank → Nat
  | exact => 0
  | widening => 1
  | implicit => 2
  | impossible => 3

/-- The name of the rank, as the host reports it. -/
def name : Rank → String
  | exact => "EXACT"
  | widening => "WIDENING"
  | implicit => "IMPLICIT"
  | impossible => "NONE"

/-- The worse of two ranks. -/
def max (a b : Rank) : Rank := if a.toNat < b.toNat then b else a

end Rank

/-- The pairs of scalar names, source first, that convert implicitly. -/
def implicitScalarPairs : List (String × String) :=
  [("Int", "Float"), ("Bool", "Int"), ("Int", "String"), ("Float", "String"),
    ("Bool", "String")]

/-- What overload selection and binding ask of the host's conversions, in the monad `M` in
which they run: the rank of an argument type for a parameter type, and the expression that
passes an argument to a parameter type. A host may bring its own; `TypeTable.converter` is the
one a type table defines. -/
structure Converter (M : Type → Type) where
  rank : Int → Int → M Rank
  convert : Argument → Int → M Bound

namespace TypeTable

/-- The rank of an argument of type `source` for a parameter of type `target`. The subtype
test does the look-ups, so an unknown type is the fault it reports. -/
def rank (tt : TypeTable) (source target : Int) : Except Fault Rank := do
  if source = target then return .exact
  if ← tt.isSubtype source target then return .widening
  let s ← tt.get source
  let t ← tt.get target
  if s.shape = .scalar ∧ t.shape = .scalar ∧ (s.name, t.name) ∈ implicitScalarPairs then
    return .implicit
  return .impossible

/-- The expression that passes `arg` to a parameter of type `target`: the argument itself
when the types are the same, a conversion node when some conversion exists, and otherwise
the fault naming both types. -/
def convert (tt : TypeTable) (arg : Argument) (target : Int) : Except Fault Bound := do
  match ← tt.rank arg.type target with
  | .impossible => throw (.conversionFailed (← tt.name arg.type) (← tt.name target))
  | .exact => return arg.expr
  | _ => return .convert arg.expr target

/-- The conversions of the type table, as overload selection and binding use them. -/
def converter (tt : TypeTable) : Converter (Except Fault) := ⟨tt.rank, tt.convert⟩

/-- What converting the value `v` to `target` gives when the call runs: the scalar
constructor of `target` when it is a scalar named after one, and `v` unchanged otherwise. -/
def coerce (tt : TypeTable) (v : Value) (target : Int) : Except Fault Value := do
  let d ← tt.get target
  match d.shape, Scalar.ofName? d.name with
  | .scalar, some k => (v.toScalar k).mapError .coercion
  | _, _ => return v

end TypeTable

namespace Bound

mutual

/-- The value of a bound expression when the call runs: values and defaults stand for
themselves, a conversion coerces its operand's value, and a new array is the list of its
items' values. The first failing coercion is the fault. -/
def evaluate (tt : TypeTable) : Bound → Except Fault Value
  | value v _ => .ok v
  | const v _ => .ok v
  | convert operand target => do tt.coerce (← evaluate tt operand) target
  | newArray _ items => do return .list (← evaluateAll tt items)

/-- The values of bound expressions, in order. -/
def evaluateAll (tt : TypeTable) : List Bound → Except Fault (List Value)
  | [] => .ok []
  | b :: rest => do
    let v ← evaluate tt b
    let vs ← evaluateAll tt rest
    return v :: vs

end

end Bound

end CallSite
