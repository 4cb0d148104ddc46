import CallSite.Text.Quote

/-!
# Identifiers and faults

Host types and methods are named by integers: types are numbered from 1 in the order in
which they are created (every other integer names no type), and methods carry an id that the
host chooses. Every way a resolution step can fail is a
constructor of `Fault`, and `Fault.message` is the one place that words them.

The faults fall in four groups: a look-up of something the host never created (an unknown
type or method id), a host declaration that breaks the rules of the type table or of the
method registry, a call site that cannot be bound (the binding faults), and a value that
cannot be made into a scalar when a bound call is evaluated.
-/

namespace CallSite

/-- The implicit parameters a call site may fail to supply. -/
inductive ImplicitKind where
  /-- The late-bound calling class, `<static>`. -/
  | staticClass
  /-- The table of the caller's locals, `<locals>`. -/
  | locals
  deriving DecidableEq, Repr

/-- Why a host value cannot be made into a scalar. -/
inductive CoerceFault where
  /-- The value has a fitting kind but not a fitting content: a text that is no numeral, a NaN
  made an integer, or an integer of too many digits read or written. -/
  | invalid
  /-- The value's kind cannot become the scalar at all, such as nothing or a list made a
  number. -/
  | wrongKind
  /-- The result does not fit: an integer beyond the doubles, or an infinity made an
  integer. -/
  | overflow
  deriving DecidableEq, Repr

/-- Why a step of call-site resolution fails. -/
inductive Fault where
  /-- The id names no type of the table. -/
  | unknownType (id : Int)
  /-- The id names no registered method. -/
  | unknownMethod (id : Int)
  /-- A class was declared to derive from a type that is not a class. -/
  | nonClassParent (child parent : String)
  /-- An element type was asked of a type that is not an array type. -/
  | notArray (name : String)
  /-- A method id was registered twice. -/
  | duplicateMethod (id : Int)
  /-- An implicit parameter stands after a regular one. -/
  | implicitAfterRegular (method param : String)
  /-- An implicit parameter has a default or is variadic. -/
  | implicitNotPlain (method param : String)
  /-- A variadic parameter is not the last one. -/
  | variadicNotLast (method param : String)
  /-- A variadic parameter's type is not an array type. -/
  | variadicNotArray (method param : String)
  /-- A variadic parameter has a default. -/
  | variadicWithDefault (method param : String)
  /-- The chosen method needs an implicit value that the call site did not supply. -/
  | missingImplicit (kind : ImplicitKind)
  /-- No argument and no default for the mandatory parameter at this position. -/
  | missingArgument (position : Nat)
  /-- No conversion leads from the argument's type to the parameter's type. -/
  | conversionFailed (source target : String)
  /-- No candidate survives the filters or accepts the arguments. -/
  | noApplicableOverload (name : String)
  /-- Several candidates are equally good and none is more specific than the others. -/
  | ambiguousOverload (name : String) (count : Nat)
  /-- A value could not be made into the scalar that a conversion asks for. -/
  | coercion (fault : CoerceFault)
  deriving DecidableEq, Repr

namespace Fault

open Text

/-- The text of a fault, as the host reports it. -/
def message : Fault → String
  | unknownType id => s!"unknown TypeId {id}"
  | unknownMethod id => toString id
  | nonClassParent child parent =>
    s!"class {quote child} cannot derive from non-class type {quote parent}"
  | notArray name => s!"type {quote name} is not an array type"
  | duplicateMethod id => s!"duplicate method_id {id}"
  | implicitAfterRegular m p =>
    s!"{m}: implicit parameter {quote p} must precede regular parameters"
  | implicitNotPlain m p => s!"{m}: implicit parameter {quote p} cannot be optional or variadic"
  | variadicNotLast m p => s!"{m}: variadic parameter {quote p} must be last"
  | variadicNotArray m p => s!"{m}: variadic parameter {quote p} must have an array type"
  | variadicWithDefault m p => s!"{m}: variadic parameter {quote p} cannot have a default"
  | missingImplicit .staticClass => "<static> missing"
  | missingImplicit .locals => "<locals> missing"
  | missingArgument position => s!"mandatory parameter {position} not provided"
  | conversionFailed source target => s!"cannot convert {source} to {target}"
  | noApplicableOverload name => s!"call to undefined method {name}()"
  | ambiguousOverload name count =>
    s!"ambiguous call to {name}(): {count} equally good overloads"
  | coercion .invalid => "invalid value for the scalar"
  | coercion .wrongKind => "value of a kind that cannot become the scalar"
  | coercion .overflow => "value out of the scalar's range"

end Fault

end CallSite
