import CallSite.Method.Basic
import CallSite.Types.Subtype

/-!
# The method registry

A `MethodTable` keeps the registered methods in registration order. Registering checks that
the id is new and then the parameters one by one (`MethodTable.add`); the views `find?`,
`declaredOn` and `toList` read the one array.

The candidates of a type (`MethodTable.candidates`) are the methods declared on the types of
its base chain, most-derived owner first and each owner's methods in registration order. A
private method is always a candidate. Any other method is hidden when an earlier owner of the
chain recorded the same signature (name and all parameter types); otherwise it records its
signature and is a candidate, so two methods of one signature on one type are both kept.
-/

namespace CallSite

/-- The registered methods, in registration order. -/
structure MethodTable where
  methods : Array Method
  deriving Repr

namespace MethodTable

/-- The registry without methods. -/
def empty : MethodTable := ⟨#[]⟩

/-- The method registered under `id`, if any. -/
def find? (mt : MethodTable) (id : Int) : Option Method := mt.methods.find? (·.id == id)

/-- The method registered under `id`, or the fault that there is none. -/
def get (mt : MethodTable) (id : Int) : Except Fault Method :=
  match mt.find? id with
  | some m => .ok m
  | none => .error (.unknownMethod id)

/-- All registered methods, in registration order. -/
def toList (mt : MethodTable) : List Method := mt.methods.toList

/-- The methods declared on the type `t`, in registration order. No look-up of `t` is made:
methods may be declared on an id that names no type yet. -/
def declaredOn (mt : MethodTable) (t : Int) : List Method :=
  mt.toList.filter (·.declaring == t)

/-- Classifies and checks declared parameters from `position` on. Each parameter is checked
in turn: an implicit one must not follow a regular one (`seenRegular`) and must have neither
a default nor the variadic mark; a variadic one must be last, have an array type and have no
default. The first failed check is the fault. -/
def buildParams (tt : TypeTable) (cfg : ImplicitConfig) (method : String) :
    Nat → Bool → List ParamDecl → Except Fault (List Param)
  | _, _, [] => .ok []
  | position, seenRegular, d :: rest => do
    let role := d.role cfg position
    if role != .regular then
      if seenRegular then throw (.implicitAfterRegular method d.name)
      if d.default.isSome || d.variadic then throw (.implicitNotPlain method d.name)
    if d.variadic then
      if !rest.isEmpty then throw (.variadicNotLast method d.name)
      if !(← tt.isArray d.type) then throw (.variadicNotArray method d.name)
      if d.default.isSome then throw (.variadicWithDefault method d.name)
    let ps ← buildParams tt cfg method (position + 1) (seenRegular || role == .regular) rest
    return d.classify cfg position :: ps

/-- Registers a method: a taken id is the fault before any parameter is checked; then the
parameters are classified and checked, and the method is appended. -/
def add (mt : MethodTable) (tt : TypeTable) (cfg : ImplicitConfig) (d : MethodDecl) :
    Except Fault (MethodTable × Method) := do
  if (mt.find? d.id).isSome then throw (.duplicateMethod d.id)
  let params ← buildParams tt cfg d.name 0 false d.params
  let m : Method := ⟨d.id, d.name, d.declaring, params, d.isStatic, d.visibility, d.returnType⟩
  return (⟨mt.methods.push m⟩, m)

/-- A registration that succeeds appends the method. -/
theorem toList_of_add {mt mt' : MethodTable} {tt : TypeTable} {cfg : ImplicitConfig}
    {d : MethodDecl} {m : Method} (h : mt.add tt cfg d = .ok (mt', m)) :
    mt'.toList = mt.toList ++ [m] := by
  unfold add at h
  simp only [bind, Except.bind, pure, Except.pure] at h
  split at h
  · cases h
  · split at h
    · cases h
    · cases h
      simp only [toList, Array.toList_push]

/-- The methods of `owner` that are not hidden, given the signatures recorded so far with
their owners (most recent first), and the signatures recorded after them. -/
def keepUnhidden (owner : Int) :
    List Method → List (Signature × Int) → List Method × List (Signature × Int)
  | [], seen => ([], seen)
  | m :: ms, seen =>
    if m.visibility = .privateAccess then
      let (kept, seen') := keepUnhidden owner ms seen
      (m :: kept, seen')
    else
      match seen.lookup m.signature with
      | some o =>
        if o ≠ owner then keepUnhidden owner ms seen
        else
          let (kept, seen') := keepUnhidden owner ms ((m.signature, owner) :: seen)
          (m :: kept, seen')
      | none =>
        let (kept, seen') := keepUnhidden owner ms ((m.signature, owner) :: seen)
        (m :: kept, seen')

/-- The candidates from the owners in order, given the signatures recorded so far. -/
def candidatesFrom (mt : MethodTable) :
    List Int → List (Signature × Int) → List Method
  | [], _ => []
  | owner :: owners, seen =>
    let (kept, seen') := keepUnhidden owner (mt.declaredOn owner) seen
    kept ++ mt.candidatesFrom owners seen'

/-- The methods reachable on the type `t`, declared first and then inherited; an unknown `t`
is the fault. -/
def candidates (mt : MethodTable) (tt : TypeTable) (t : Int) : Except Fault (List Method) := do
  let chain ← tt.baseChain t
  return mt.candidatesFrom chain []

end MethodTable

end CallSite
