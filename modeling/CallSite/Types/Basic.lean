import CallSite.Basic

/-!
# The host type table

A `TypeTable` owns the host types that call-site resolution knows about. Types are numbered
from 1 in the order in which they are created, and each one records its name and its shape:
a scalar, a class with an optional base class and a list of interfaces, an array over an
element type, one of the three types of implicit parameters, or the top type `Mixed`.

## Main definitions

* `TypeTable.find?`, `TypeTable.get`, `TypeTable.name`: look-up by id.
* `TypeTable.newScalar`, `TypeTable.newClass`, `TypeTable.ensureArray`,
  `TypeTable.ensureKnown`: the ways to create types.

## Implementation notes

A type refers only to types created before it: the parents of a class and the element of an
array have smaller ids. That is a field of the table (`refs_lt`), kept by every way of
creating a type, and it is what makes the walks over bases and parents terminate.
-/

namespace CallSite

/-- The well-known types, each created at most once per table. -/
inductive WellKnown where
  | int | float | bool | string | mixed | context | typeToken | locals
  deriving DecidableEq, Repr

/-- What a host type is. -/
inductive TypeShape where
  /-- A scalar type such as `Int`. -/
  | scalar
  /-- A class with an optional base class and a list of interfaces. -/
  | classOf (base : Option Int) (interfaces : List Int)
  /-- The array type over an element type. -/
  | arrayOf (elem : Int)
  /-- The type of the execution context handle. -/
  | context
  /-- The type of the late-bound calling class. -/
  | typeToken
  /-- The type of the table of the caller's locals. -/
  | locals
  /-- The top type, to which every type converts. -/
  | mixed
  deriving DecidableEq, Repr

namespace TypeShape

/-- The parents of a class, base first and then the interfaces in order; nothing for the
other shapes. -/
def parents : TypeShape → List Int
  | classOf base interfaces => base.toList ++ interfaces
  | _ => []

/-- The types a shape refers to: the parents of a class, the element of an array. -/
def refs : TypeShape → List Int
  | classOf base interfaces => base.toList ++ interfaces
  | arrayOf elem => [elem]
  | _ => []

theorem mem_refs_of_mem_parents {s : TypeShape} {p : Int} (h : p ∈ s.parents) :
    p ∈ s.refs := by
  cases s <;> simp_all [parents, refs]

/-- Whether the shape is a class. -/
def isClass : TypeShape → Bool
  | classOf _ _ => true
  | _ => false

/-- Whether the shape is an array. -/
def isArray : TypeShape → Bool
  | arrayOf _ => true
  | _ => false

/-- The name of the kind of a shape, as the host reports it. -/
def kindName : TypeShape → String
  | scalar => "SCALAR"
  | classOf _ _ => "CLASS"
  | arrayOf _ => "ARRAY"
  | context => "CONTEXT"
  | typeToken => "TYPE_TOKEN"
  | locals => "LOCALS"
  | mixed => "MIXED"

end TypeShape

namespace WellKnown

/-- The name under which the well-known type is created. -/
def name : WellKnown → String
  | int => "Int" | float => "Float" | bool => "Bool" | string => "String"
  | mixed => "Mixed" | context => "Context" | typeToken => "Type" | locals => "Locals"

/-- The shape of the well-known type. -/
def shape : WellKnown → TypeShape
  | int | float | bool | string => .scalar
  | mixed => .mixed
  | context => .context
  | typeToken => .typeToken
  | locals => .locals

end WellKnown

/-- A host type: its name and its shape. -/
structure TypeDef where
  name : String
  shape : TypeShape
  deriving DecidableEq, Repr

/-- The host types, numbered from 1 in order of creation. -/
structure TypeTable where
  /-- The type with id `i + 1` is `defs[i]`. -/
  defs : Array TypeDef
  /-- The well-known types created so far, with their ids. -/
  known : List (WellKnown × Int)
  /-- The array types created so far, as pairs of element and array id. -/
  arrays : List (Int × Int)
  /-- A type refers only to types created before it. -/
  refs_lt : ∀ (i : Nat) (h : i < defs.size), ∀ p ∈ defs[i].shape.refs, 0 < p ∧ p ≤ i

namespace TypeTable

/-- The table without types. -/
def empty : TypeTable where
  defs := #[]
  known := []
  arrays := []
  refs_lt := fun i h => absurd h (Nat.not_lt_zero i)

instance : EmptyCollection TypeTable := ⟨empty⟩

/-- The number of types. -/
def size (tt : TypeTable) : Nat := tt.defs.size

/-- The id that the next created type gets. -/
def nextId (tt : TypeTable) : Int := tt.size + 1

/-- An id that names a type of `tt`. -/
abbrev Ref (tt : TypeTable) := {t : Int // 0 < t ∧ t ≤ tt.size}

/-- The id as a reference to a type of `tt`, if it names one. -/
def ref? (tt : TypeTable) (t : Int) : Option tt.Ref :=
  if h : 0 < t ∧ t ≤ tt.size then some ⟨t, h⟩ else none

/-- The type that a reference names. -/
def defOf (tt : TypeTable) (r : tt.Ref) : TypeDef :=
  have : (r.1 - 1).toNat < tt.defs.size := by
    have h1 := r.2.1
    have h2 := r.2.2
    have : tt.size = tt.defs.size := rfl
    omega
  tt.defs[(r.1 - 1).toNat]

/-- The type with id `t`, if there is one. -/
def find? (tt : TypeTable) (t : Int) : Option TypeDef :=
  (tt.ref? t).map tt.defOf

/-- The type with id `t`, or the fault that it is unknown. -/
def get (tt : TypeTable) (t : Int) : Except Fault TypeDef :=
  match tt.find? t with
  | some d => .ok d
  | none => .error (.unknownType t)

/-- The name of the type with id `t`. -/
def name (tt : TypeTable) (t : Int) : Except Fault String :=
  (tt.get t).map (·.name)

/-- Appends a type whose references all name existing types, and returns its id. -/
def push (tt : TypeTable) (d : TypeDef) (h : ∀ p ∈ d.shape.refs, 0 < p ∧ p ≤ tt.size) :
    TypeTable × Int :=
  ({ tt with
      defs := tt.defs.push d
      refs_lt := by
        intro i hi p hp
        have hs : (tt.defs.push d).size = tt.defs.size + 1 := Array.size_push ..
        by_cases hlt : i < tt.defs.size
        · rw [Array.getElem_push_lt hlt] at hp
          have := tt.refs_lt i hlt p hp
          omega
        · have hi' : i = tt.defs.size := by omega
          subst hi'
          rw [Array.getElem_push_eq] at hp
          have := h p hp
          have : tt.size = tt.defs.size := rfl
          omega },
    tt.nextId)

/-- Creating a type adds one to the size. -/
theorem size_push (tt : TypeTable) (d : TypeDef)
    (h : ∀ p ∈ d.shape.refs, 0 < p ∧ p ≤ tt.size) : (tt.push d h).1.size = tt.size + 1 := by
  simp only [push, size, Array.size_push]

/-- A created type gets the next id. -/
theorem push_id (tt : TypeTable) (d : TypeDef)
    (h : ∀ p ∈ d.shape.refs, 0 < p ∧ p ≤ tt.size) : (tt.push d h).2 = tt.nextId := rfl

/-- The type with id `t` is entry `t - 1` of the array, for positive `t`. -/
theorem find?_eq_getElem? (tt : TypeTable) (t : Int) :
    tt.find? t = if 0 < t then tt.defs[(t - 1).toNat]? else none := by
  have hs : tt.size = tt.defs.size := rfl
  unfold find? ref?
  split
  · rename_i hr
    have hi : (t - 1).toNat < tt.defs.size := by omega
    rw [if_pos hr.1, Array.getElem?_eq_getElem hi]
    rfl
  · rename_i hr
    split
    · rename_i ht
      have hi : tt.defs.size ≤ (t - 1).toNat := by omega
      rw [Array.getElem?_eq_none hi]
      rfl
    · rfl

/-- After creating a type, its id names it and every other id names what it named. -/
theorem find?_push (tt : TypeTable) (d : TypeDef)
    (h : ∀ p ∈ d.shape.refs, 0 < p ∧ p ≤ tt.size) (t : Int) :
    (tt.push d h).1.find? t = if t = tt.nextId then some d else tt.find? t := by
  have hs : tt.size = tt.defs.size := rfl
  have hn : tt.nextId = tt.size + 1 := rfl
  by_cases ht : t = tt.nextId
  · rw [if_pos ht, find?_eq_getElem?]
    have h0 : 0 < t := by omega
    have hi : (t - 1).toNat = tt.defs.size := by omega
    simp only [push, Array.getElem?_push, if_pos h0, hi]
    simp
  · rw [if_neg ht, find?_eq_getElem?, find?_eq_getElem?]
    simp only [push, Array.getElem?_push]
    split
    · have hi : (t - 1).toNat ≠ tt.defs.size := by omega
      simp only [hi]
      simp
    · rfl

/-- Creates a scalar type named `name`. A new type is created even when the name is taken. -/
def newScalar (tt : TypeTable) (name : String) : TypeTable × Int :=
  tt.push ⟨name, .scalar⟩ (by simp [TypeShape.refs])

/-- The id of a well-known type, creating the type on first use. -/
def ensureKnown (tt : TypeTable) (k : WellKnown) : TypeTable × Int :=
  match tt.known.lookup k with
  | some t => (tt, t)
  | none =>
    let (tt', t) :=
      tt.push ⟨k.name, k.shape⟩ (by cases k <;> simp [WellKnown.shape, TypeShape.refs])
    ({ tt' with known := tt'.known ++ [(k, t)] }, t)

/-- The reference to `p` as a parent of the class `child`: `p` must name a class. -/
def classParent (tt : TypeTable) (child : String) (p : Int) : Except Fault tt.Ref :=
  match tt.ref? p with
  | none => .error (.unknownType p)
  | some r =>
    if (tt.defOf r).shape.isClass then .ok r
    else .error (.nonClassParent child (tt.defOf r).name)

/-- Creates a class named `name` with the given base class and interfaces. The parents are
checked in order, base first; the first unknown id or non-class parent is the fault, and
then nothing is created. -/
def newClass (tt : TypeTable) (name : String) (base : Option Int) (interfaces : List Int) :
    Except Fault (TypeTable × Int) := do
  let b ← base.mapM (tt.classParent name)
  let is ← interfaces.mapM (tt.classParent name)
  return tt.push ⟨name, .classOf (b.map (·.1)) (is.map (·.1))⟩ (by
    intro p hp
    simp only [TypeShape.refs, List.mem_append, Option.mem_toList, List.mem_map] at hp
    rcases hp with hp | ⟨r, -, rfl⟩
    · cases b with
      | none => simp at hp
      | some r => simp only [Option.map_some, Option.some.injEq] at hp; subst hp; exact r.2
    · exact r.2)

/-- The array type over `elem`, created once per element type and named after it with `[]`
appended. -/
def ensureArray (tt : TypeTable) (elem : Int) : Except Fault (TypeTable × Int) :=
  match tt.arrays.lookup elem with
  | some a => .ok (tt, a)
  | none =>
    match h : tt.ref? elem with
    | none => .error (.unknownType elem)
    | some r =>
      let (tt', a) := tt.push ⟨(tt.defOf r).name ++ "[]", .arrayOf elem⟩ (by
        have hr : elem = r.1 := by
          simp only [ref?] at h
          split at h
          · cases h; rfl
          · cases h
        simp only [TypeShape.refs, List.mem_singleton]
        intro p hp; subst hp; rw [hr]; exact r.2)
      .ok ({ tt' with arrays := tt'.arrays ++ [(elem, a)] }, a)

/-- Whether `t` is an array type. -/
def isArray (tt : TypeTable) (t : Int) : Except Fault Bool :=
  (tt.get t).map (·.shape.isArray)

/-- The element type of the array type `t`. -/
def elementType (tt : TypeTable) (t : Int) : Except Fault Int := do
  let d ← tt.get t
  match d.shape with
  | .arrayOf e => return e
  | _ => throw (.notArray d.name)

end TypeTable

end CallSite
