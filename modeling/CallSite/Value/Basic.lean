import CallSite.Binary64.Basic
import CallSite.Basic

/-!
# Host values and bound expressions

The values that flow through a call site: the values of arguments, the defaults of
parameters, and what evaluating a bound call produces. They are the host's dynamic values:
nothing, booleans, integers of any size, doubles, texts and lists.

What a formal parameter receives at a call site, before anything runs, is a bound expression
(`Bound`): a value of the call site with its runtime type, a parameter's default, a conversion
of another expression to a target type, or a new array built from expressions. An `Argument`
of a call site is a value with its runtime type.
-/

namespace CallSite

/-- A value of the host. -/
inductive Value where
  /-- The absent value. -/
  | none
  | bool (b : Bool)
  | int (n : Int)
  | float (x : Binary64)
  | str (s : String)
  | list (items : List Value)
  deriving Repr

namespace Value

/-- Whether a value counts as true: every value but `none`, `false`, zero of either kind and
sign, the empty text and the empty list. A NaN counts as true. -/
def truthy : Value → Bool
  | none => false
  | bool b => b
  | int n => n != 0
  | float x => !x.isZero
  | str s => !s.isEmpty
  | list items => !items.isEmpty

example : truthy (float Binary64.nan) = true ∧ truthy (float (Binary64.zero true)) = false ∧
    truthy (list []) = false := by
  decide

end Value

/-! ## Bound expressions -/

/-- A bound expression. -/
inductive Bound where
  /-- A value of the call site, with its runtime type. -/
  | value (v : Value) (type : Int)
  /-- A parameter's default, typed as the parameter. -/
  | const (v : Value) (type : Int)
  /-- The operand converted to the target type when the call runs. -/
  | convert (operand : Bound) (target : Int)
  /-- A new array of the element type, from the items in order. -/
  | newArray (elem : Int) (items : List Bound)
  deriving Repr

/-- An argument at a call site: a value and its runtime type. -/
structure Argument where
  value : Value
  type : Int
  deriving Repr

/-- The expression that passes the argument on unchanged. -/
def Argument.expr (a : Argument) : Bound := .value a.value a.type

end CallSite
