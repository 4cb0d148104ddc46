import CallSite.Conversion
import CallSite.Method.Basic

/-!
# Binding arguments to parameters

`Converter.bind` gives one bound expression per formal parameter of a method, walking the
parameters in order with a count of the arguments consumed:

* while no argument is consumed, the context parameter takes the call site's context
  handle, and the calling-class and locals parameters take the call site's values for them,
  which must be present;
* a variadic parameter takes a new array of the remaining arguments, each converted to the
  element type;
* any other parameter takes the next argument converted to its type, or its default, or
  fails as a missing argument at its position.

Arguments left over are dropped. The first failure, in parameter order, is the fault.
-/

namespace CallSite

/-- The values a call site supplies for implicit parameters. -/
structure Implicits where
  /-- The context handle. -/
  context : Bound
  /-- The late-bound calling class, if supplied. -/
  staticClass : Option Bound := none
  /-- The table of the caller's locals, if supplied. -/
  locals : Option Bound := none
  deriving Repr

/-- A method with one bound expression per formal parameter. -/
structure BoundCall where
  method : Method
  args : List Bound
  deriving Repr

namespace Implicits

/-- The expression for an implicit parameter of the given role, or the fault that the call
site did not supply it; `none` for a regular parameter. -/
def fill (imp : Implicits) : ParamRole → Option (Except Fault Bound)
  | .regular => none
  | .context => some (.ok imp.context)
  | .staticClass => some (match imp.staticClass with
    | some b => .ok b
    | none => .error (.missingImplicit .staticClass))
  | .locals => some (match imp.locals with
    | some b => .ok b
    | none => .error (.missingImplicit .locals))

end Implicits

namespace Converter

variable {M : Type → Type} [Monad M] [MonadExceptOf Fault M]

/-- Binds the parameters to the remaining arguments, `consumed` arguments having been
taken before. -/
def bindFrom (cv : Converter M) (elementType : Int → M Int) (imp : Implicits) :
    List Param → Nat → List Argument → M (List Bound)
  | [], _, _ => pure []
  | p :: ps, consumed, args =>
    match (if consumed = 0 then imp.fill p.role else none) with
    | some filled => do
      let b ← MonadExcept.ofExcept filled
      let bs ← bindFrom cv elementType imp ps consumed args
      return b :: bs
    | none =>
      if p.variadic then do
        let e ← elementType p.type
        let items ← args.mapM fun a => cv.convert a e
        let bs ← bindFrom cv elementType imp ps (consumed + args.length) []
        return .newArray e items :: bs
      else
        match args with
        | a :: more => do
          let b ← cv.convert a p.type
          let bs ← bindFrom cv elementType imp ps (consumed + 1) more
          return b :: bs
        | [] =>
          match p.default with
          | some v => do
            let bs ← bindFrom cv elementType imp ps consumed []
            return .const v p.type :: bs
          | none => throw (.missingArgument p.position)

/-- The bound call of `m` at a call site with these arguments and implicit values. The
element type of a variadic parameter comes from `elementType`. -/
def bind (cv : Converter M) (elementType : Int → M Int) (m : Method) (args : List Argument)
    (imp : Implicits) : M BoundCall := do
  return ⟨m, ← cv.bindFrom elementType imp m.params 0 args⟩

end Converter

namespace TypeTable

/-- The bound call of `m`, with the conversions of the type table. -/
def bind (tt : TypeTable) (m : Method) (args : List Argument) (imp : Implicits) :
    Except Fault BoundCall :=
  tt.converter.bind tt.elementType m args imp

end TypeTable

/-- The values of the bound expressions of a call, in order. -/
def BoundCall.evaluate (tt : TypeTable) (call : BoundCall) : Except Fault (List Value) :=
  Bound.evaluateAll tt call.args

end CallSite
