import CallSite.Value.Basic
import CallSite.Decimal.Notation
import CallSite.Text.Numeral
import CallSite.Text.Quote
import CallSite.Binary64.Basic

/-!
# The text of a value, and making a value a scalar

`Value.literal` writes a value as it appears inside a list: `None`, `True`, `False`, decimal
integers, doubles in `FloatFormat.host`, quoted texts, and lists as `[a, b]`. `Value.text` is
the same except that a text stands for itself. An integer of more than `maxIntegerDigits`
digits has no text.

The four scalar types `Int`, `Float`, `Bool` and `String` each have a constructor that
makes any host value into one of theirs, or fails with a `CoerceFault`:

* an integer: from a boolean (1 or 0), an integer, a finite double cut toward zero, or a text
  read by `readInteger?`;
* a double: from a boolean, an integer rounded to the nearest double (one beyond the doubles
  overflows), a double, or a text read by `readDoubleText?`;
* a boolean: whether the value is `Value.truthy`;
* a text: `Value.text`.

Nothing and lists cannot become numbers.
-/

namespace CallSite

/-! ## The text of a value -/

/-- The decimal text of an integer, or the fault when it has too many digits. -/
def intText (n : Int) : Except CoerceFault String :=
  let ds := Nat.toDigits 10 n.natAbs
  if maxIntegerDigits < ds.length then .error .invalid
  else .ok (String.ofList (if n < 0 then '-' :: ds else ds))

namespace Value

mutual

/-- The text of a value inside a list: texts are quoted. -/
def literal : Value → Except CoerceFault String
  | none => .ok "None"
  | bool true => .ok "True"
  | bool false => .ok "False"
  | int n => intText n
  | float x => .ok (x.render FloatFormat.host)
  | str s => .ok (Text.quote s)
  | list items => do
    let parts ← literals items
    return "[" ++ ", ".intercalate parts ++ "]"

/-- The texts of the items of a list, in order; the first that has none is the fault. -/
def literals : List Value → Except CoerceFault (List String)
  | [] => .ok []
  | v :: rest => do
    let t ← literal v
    let ts ← literals rest
    return t :: ts

end

/-- The text of a value: a text stands for itself, and any other value is written as inside
a list. -/
def text : Value → Except CoerceFault String
  | str s => .ok s
  | v => v.literal

example : (text (list [int 1, str "a", none, float Binary64.one, list []])).toOption =
    some "[1, 'a', None, 1.0, []]" := by
  decide +kernel

end Value

/-! ## Scalars -/

/-- The scalar types that have a constructor. -/
inductive Scalar where
  | integer | double | boolean | text
  deriving DecidableEq, Repr

namespace Scalar

/-- The scalar type with this name, if there is one. -/
def ofName? : String → Option Scalar
  | "Int" => some integer
  | "Float" => some double
  | "Bool" => some boolean
  | "String" => some text
  | _ => none

end Scalar

namespace Value

/-- The value made an integer. -/
def toInteger : Value → Except CoerceFault Value
  | bool b => .ok (int (if b then 1 else 0))
  | int n => .ok (int n)
  | float x =>
    if x.isNaN then .error .invalid
    else if x.isInfinite then .error .overflow
    else .ok (int x.truncate)
  | str s =>
    match readInteger? s with
    | some n => .ok (int n)
    | Option.none => .error .invalid
  | none | list _ => .error .wrongKind

/-- The value made a double. -/
def toDouble : Value → Except CoerceFault Value
  | bool b => .ok (float (if b then Binary64.one else Binary64.zero false))
  | int n =>
    let x := Binary64.ofInt n
    if x.isInfinite then .error .overflow else .ok (float x)
  | float x => .ok (float x)
  | str s =>
    match readDoubleText? s with
    | some x => .ok (float x)
    | Option.none => .error .invalid
  | none | list _ => .error .wrongKind

/-- The value made the scalar `k` by that scalar's constructor. -/
def toScalar (v : Value) : Scalar → Except CoerceFault Value
  | .integer => v.toInteger
  | .double => v.toDouble
  | .boolean => .ok (bool v.truthy)
  | .text => v.text.map str

end Value

end CallSite
