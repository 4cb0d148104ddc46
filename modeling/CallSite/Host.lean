import CallSite.Method.Table
import CallSite.Method.Filter
import CallSite.Overload
import CallSite.Binding

/-!
# The host state, and resolving a call site

What a host builds before its call sites resolve: the type table, the method registry and
the configuration of implicit parameters. A fresh host creates the context, type-token and
locals types first, so they have the ids 1, 2 and 3.

A host is built by operations (`HostOp`), each creating a type or registering a method; an
operation that fails leaves the host as it was, except a registration whose method was stored
before its declaring type was named (`Host.register`).

A call `t::name(args)` made from code in the class `cls` resolves in these steps
(`MethodTable.resolve`): the candidates of `t`; those named `name`, ignoring case; those
visible from `cls`; for a static call, the static ones. No candidate left means the method is
undefined. Otherwise the best candidate is selected and the arguments are bound to it.
-/

namespace CallSite

/-! ## Resolving a call site -/

/-- A call site: the receiver type, the method name, the arguments, the class of the calling
code, whether the call is static, and the implicit values. -/
structure CallRequest where
  receiver : Int
  name : String
  args : List Argument := []
  caller : Option Int := none
  staticCall : Bool := false
  implicits : Implicits
  deriving Repr

namespace MethodTable

/-- The candidates that survive the name, visibility and static filters of a call site. -/
def callCandidates (mt : MethodTable) (tt : TypeTable) (req : CallRequest) :
    Except Fault (List Method) := do
  let cands ← mt.candidates tt req.receiver
  let cands ← tt.visible (Method.byName cands req.name) req.caller
  return if req.staticCall then Method.staticOnly cands else cands

/-- The bound call that a call site resolves to. -/
def resolve (mt : MethodTable) (tt : TypeTable) (req : CallRequest) : Except Fault BoundCall := do
  let cands ← mt.callCandidates tt req
  if cands.isEmpty then throw (.noApplicableOverload req.name)
  let winner ← tt.selectBest cands req.args req.name
  tt.bind winner req.args req.implicits

end MethodTable

/-! ## The host -/

/-- A way to create host types: a well-known type, a scalar, a class with its base and
interfaces, or the array type over an element type. -/
inductive TypeOp where
  | known (k : WellKnown)
  | scalar (name : String)
  | klass (name : String) (base : Option Int) (interfaces : List Int)
  | array (elem : Int)
  deriving Repr

/-- Runs a type operation on the table: the table after it and the created or found type, or
the fault. -/
def TypeOp.run : TypeOp → TypeTable → Except Fault (TypeTable × Int)
  | .known k, tt => .ok (tt.ensureKnown k)
  | .scalar name, tt => .ok (tt.newScalar name)
  | .klass name base interfaces, tt => tt.newClass name base interfaces
  | .array elem, tt => tt.ensureArray elem

/-- What a host is asked to do before its call sites resolve: create a type, or register a
method. -/
inductive HostOp where
  | types (op : TypeOp)
  | register (d : MethodDecl)
  deriving Repr

/-- The type table, the method registry and the implicit-parameter configuration. -/
structure Host where
  types : TypeTable
  methods : MethodTable
  config : ImplicitConfig

namespace Host

/-- A fresh host whose implicit `<static>` and `<locals>` parameters are recognised by the
given names. -/
def fresh (staticMarker : String := "<static>") (localsMarker : String := "<locals>") : Host :=
  let (tt, c) := TypeTable.empty.ensureKnown .context
  let (tt, t) := tt.ensureKnown .typeToken
  let (tt, l) := tt.ensureKnown .locals
  ⟨tt, .empty, ⟨c, t, l, staticMarker, localsMarker⟩⟩

/-- Runs a step on the type table, keeping the table it leaves. -/
def withTypes {α : Type} (h : Host) (step : TypeTable → TypeTable × α) : Host × α :=
  let (tt, a) := step h.types
  ({ h with types := tt }, a)

/-- Runs a step on the type table that may fail; a failed step changes nothing. -/
def tryTypes {α : Type} (h : Host) (step : TypeTable → Except Fault (TypeTable × α)) :
    Host × Except Fault α :=
  match step h.types with
  | .ok (tt, a) => ({ h with types := tt }, .ok a)
  | .error e => (h, .error e)

/-- Registers a method. A method that passes the checks is stored, and then the
registration names its declaring type, which is the fault when that type is unknown: the
method stays registered. -/
def register (h : Host) (d : MethodDecl) : Host × Except Fault Method :=
  match h.methods.add h.types h.config d with
  | .error e => (h, .error e)
  | .ok (mt, m) => ({ h with methods := mt }, (h.types.name m.declaring).map fun _ => m)

/-- The bound call that a call site resolves to. -/
def resolve (h : Host) (req : CallRequest) : Except Fault BoundCall :=
  h.methods.resolve h.types req

/-- Runs an operation, keeping what it leaves of the host and dropping its result. -/
def apply (h : Host) : HostOp → Host
  | .types op => (h.tryTypes op.run).1
  | .register d => (h.register d).1

example : (fresh).types.size = 3 ∧ (fresh).config.localsType = 3 := by decide

end Host

end CallSite
