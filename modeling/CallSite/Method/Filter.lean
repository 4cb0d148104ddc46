import CallSite.Method.Basic
import CallSite.Types.Subtype
import CallSite.Text.UpperCase

/-!
# Filters on candidates

Each filter keeps candidates in their order.

* By name: names match when they are equal, or have the same number of characters and agree
  character by character up to the upper case of single characters. The case map is a
  parameter (`namesMatchBy up`); the program's is `Text.upperChar` (`namesMatch`).
* By visibility from the class of the calling code (`none` for top-level code): a public
  method is always visible; a private one only from its declaring type; a protected one from
  a class that is a subtype or a supertype of the declaring type. A rejection reports the
  declaring type and the calling class by name, so an unknown one of them is the fault; so
  is an unknown calling class after the whole list is filtered.
* Static methods only, or instance methods only.
-/

namespace CallSite

/-- Whether two names match when characters are compared through `up`, the upper case of a
character where that is a single character and the character itself otherwise: equal names
match, and so do names of as many characters that agree at each place, as they are or after
`up`. -/
def namesMatchBy (up : Char → Char) (a b : String) : Bool :=
  a == b ||
    (a.length == b.length && (a.toList.zip b.toList).all fun (x, y) => x == y || up x == up y)

/-- Whether two method names match, ignoring case character by character. -/
def namesMatch (a b : String) : Bool := namesMatchBy Text.upperChar a b

example : namesMatch "Foo" "fOO" = true ∧ namesMatch "straße" "STRASSE" = false ∧
    namesMatch "ǆ" "Ǆ" = true := by
  decide

namespace Method

/-- The methods whose names match `name` when characters are compared through `up`. -/
def byNameBy (up : Char → Char) (ms : List Method) (name : String) : List Method :=
  ms.filter fun m => namesMatchBy up m.name name

/-- The methods named `name`, ignoring case. -/
def byName (ms : List Method) (name : String) : List Method := byNameBy Text.upperChar ms name

/-- The static methods. -/
def staticOnly (ms : List Method) : List Method := ms.filter (·.isStatic)

/-- The instance methods. -/
def instanceOnly (ms : List Method) : List Method := ms.filter (!·.isStatic)

end Method

namespace TypeTable

/-- The name of the calling class, `<global>` for top-level code. -/
def contextName (tt : TypeTable) : Option Int → Except Fault String
  | none => .ok "<global>"
  | some c => tt.name c

/-- A rejection of `m` from the calling class `cls`, which names both types. -/
def reject (tt : TypeTable) (m : Method) (cls : Option Int) : Except Fault Bool := do
  let _ ← tt.name m.declaring
  let _ ← tt.contextName cls
  return false

/-- Whether `m` may be called from code in the class `cls` (`none` for top-level code). -/
def isVisible (tt : TypeTable) (m : Method) (cls : Option Int) : Except Fault Bool :=
  match m.visibility with
  | .publicAccess => .ok true
  | .privateAccess => if cls = some m.declaring then .ok true else tt.reject m cls
  | .protectedAccess => do
    let related ← match cls with
      | none => pure false
      | some c => do
        if ← tt.isSubtype c m.declaring then pure true else tt.isSubtype m.declaring c
    if related then return true else tt.reject m cls

/-- The methods visible from the class `cls`. -/
def visible (tt : TypeTable) (ms : List Method) (cls : Option Int) :
    Except Fault (List Method) := do
  let kept ← ms.filterM (tt.isVisible · cls)
  let _ ← tt.contextName cls
  return kept

end TypeTable

end CallSite
