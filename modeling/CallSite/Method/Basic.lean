import CallSite.Basic
import CallSite.Value.Basic

/-!
# Methods and their parameters

A method of a host type, as the registry keeps it: its id, name, declaring type, visibility,
whether it is static, its return type, and its classified parameters.

A parameter is either regular (filled from the arguments of a call site) or implicit: the
runtime fills it from the call site's own context handle, late-bound calling class or table of
locals (`ParamRole`). `ImplicitConfig` says which types and names mark the implicit
parameters, and `ParamDecl.role` classifies a declared parameter:

* the context, exactly when it is the first parameter and has the context type;
* else the calling class, when it has the type-token type and the static marker as name;
* else the locals, when it has the locals type and the locals marker as name;
* else regular.
-/

namespace CallSite

/-- Who may call a method. -/
inductive Visibility where
  /-- Public: every call site. -/
  | publicAccess
  /-- Protected: call sites in a class related to the declaring type, in either direction. -/
  | protectedAccess
  /-- Private: call sites in the declaring type itself. -/
  | privateAccess
  deriving DecidableEq, Repr

/-- The name of a visibility, as the host reports it. -/
def Visibility.name : Visibility → String
  | publicAccess => "PUBLIC"
  | protectedAccess => "PROTECTED"
  | privateAccess => "PRIVATE"

/-- What fills a parameter. -/
inductive ParamRole where
  /-- An argument of the call site. -/
  | regular
  /-- The call site's context handle. -/
  | context
  /-- The late-bound calling class. -/
  | staticClass
  /-- The table of the caller's locals. -/
  | locals
  deriving DecidableEq, Repr

/-- The name of a role, as the host reports it. -/
def ParamRole.name : ParamRole → String
  | regular => "NONE"
  | context => "CONTEXT"
  | staticClass => "STATIC_BOUND"
  | locals => "LOCALS"

/-- The types and names that mark implicit parameters. -/
structure ImplicitConfig where
  contextType : Int
  typeTokenType : Int
  localsType : Int
  staticMarker : String := "<static>"
  localsMarker : String := "<locals>"
  deriving DecidableEq, Repr

/-- A parameter as the host declares it. -/
structure ParamDecl where
  name : String
  type : Int
  /-- The default value; a parameter with one is optional. -/
  default : Option Value := none
  /-- Whether the parameter collects all remaining arguments into an array. -/
  variadic : Bool := false
  deriving Repr

/-- The role of a declared parameter at `position`, by the rules above. -/
def ParamDecl.role (cfg : ImplicitConfig) (d : ParamDecl) (position : Nat) : ParamRole :=
  if position = 0 ∧ d.type = cfg.contextType then .context
  else if d.type = cfg.typeTokenType ∧ d.name = cfg.staticMarker then .staticClass
  else if d.type = cfg.localsType ∧ d.name = cfg.localsMarker then .locals
  else .regular

/-- A classified formal parameter. -/
structure Param where
  position : Nat
  name : String
  type : Int
  default : Option Value
  variadic : Bool
  role : ParamRole
  deriving Repr

/-- The declared parameter classified at `position`: its role by the rules above, and all else
as declared. -/
def ParamDecl.classify (cfg : ImplicitConfig) (d : ParamDecl) (position : Nat) : Param :=
  ⟨position, d.name, d.type, d.default, d.variadic, d.role cfg position⟩

namespace Param

/-- Whether the parameter may be left without an argument. -/
def optional (p : Param) : Bool := p.default.isSome

/-- Whether the runtime fills the parameter. -/
def implicit (p : Param) : Bool := p.role != .regular

end Param

/-- A method as the host declares it. -/
structure MethodDecl where
  id : Int
  name : String
  declaring : Int
  params : List ParamDecl := []
  isStatic : Bool := false
  visibility : Visibility := .publicAccess
  returnType : Option Int := none
  deriving Repr

/-- The name and parameter types of a method, by which a derived method hides a base one. -/
abbrev Signature := String × List Int

/-- A registered method. -/
structure Method where
  id : Int
  name : String
  declaring : Int
  params : List Param
  isStatic : Bool
  visibility : Visibility
  returnType : Option Int
  deriving Repr

namespace Method

/-- The parameters filled from arguments: all but the implicit ones. -/
def regularParams (m : Method) : List Param := m.params.filter (·.role == .regular)

/-- The last parameter, when it is variadic. -/
def variadicParam? (m : Method) : Option Param :=
  match m.params.getLast? with
  | some p => if p.variadic then some p else none
  | none => none

/-- The signature of a method. -/
def signature (m : Method) : Signature := (m.name, m.params.map (·.type))

end Method

end CallSite
