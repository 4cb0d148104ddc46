import CallSite.Proofs.Registry

/-!
# What a registration reports, and what it changes

Registering a method (`Host.register`) checks that its id is free, and then its declared
parameters one by one, each through up to five checks in a fixed order (`ParamDecl.fault?`): an
implicit parameter must not follow a regular one, and must have neither a default nor the
variadic mark; a variadic parameter must be last, must have an array type (an unknown type being
the fault of its look-up), and must have no default. The outcomes of the parameters, in order,
are `MethodTable.paramFaults`.

* A taken id is the fault, before any parameter is checked, and nothing changes.
* Otherwise the first parameter whose checks fail gives the fault
  (`MethodTable.buildParams_eq_error_iff`), and nothing changes.
* Otherwise the method is stored: its id finds it, and it is appended to all methods and to those
  of its declaring type. Only then is the declaring type named, so when that type is unknown the
  registration reports it, and the method stays stored: a later registration of its id finds the
  id taken.

The main statement is `Host.register_outcomes`.
-/

namespace CallSite

/-- The fault of the checks on a declared parameter at `position`, given whether a regular
parameter came before it and whether it is the last one: the first check that fails, in the order
implicit after a regular parameter, implicit with a default or the variadic mark, variadic but
not last, variadic without an array type (or with an unknown type), variadic with a default; and
`none` when every check passes. -/
def ParamDecl.fault? (tt : TypeTable) (cfg : ImplicitConfig) (method : String) (d : ParamDecl)
    (position : Nat) (seenRegular last : Bool) : Option Fault :=
  if d.role cfg position ≠ .regular ∧ seenRegular then some (.implicitAfterRegular method d.name)
  else if d.role cfg position ≠ .regular ∧ (d.default.isSome ∨ d.variadic) then
    some (.implicitNotPlain method d.name)
  else if d.variadic ∧ ¬last then some (.variadicNotLast method d.name)
  else if d.variadic then
    match tt.isArray d.type with
    | .error e => some e
    | .ok false => some (.variadicNotArray method d.name)
    | .ok true => if d.default.isSome then some (.variadicWithDefault method d.name) else none
  else none

/-- The method that registering `d` stores when its checks pass: its parameters are the
declared ones classified at their positions. -/
def MethodDecl.stored (cfg : ImplicitConfig) (d : MethodDecl) : Method :=
  ⟨d.id, d.name, d.declaring, d.params.zipIdx.map (fun x => x.1.classify cfg x.2), d.isStatic,
    d.visibility, d.returnType⟩

namespace MethodTable

variable {tt : TypeTable} {cfg : ImplicitConfig} {name : String}

/-- The outcomes of the checks on the declared parameters from `position` on, in order, each
parameter seeing whether a regular one came before it. -/
def paramFaults (tt : TypeTable) (cfg : ImplicitConfig) (name : String) :
    Nat → Bool → List ParamDecl → List (Option Fault)
  | _, _, [] => []
  | pos, seen, d :: rest =>
    d.fault? tt cfg name pos seen rest.isEmpty ::
      paramFaults tt cfg name (pos + 1) (seen || d.role cfg pos == .regular) rest

/-- **One parameter's checks.** Its fault, when it has one, is the fault of registration; when
it has none, the parameters after it are checked. -/
theorem buildParams_cons {pos : Nat} {seen : Bool} {d : ParamDecl} {rest : List ParamDecl} :
    buildParams tt cfg name pos seen (d :: rest) =
      match d.fault? tt cfg name pos seen rest.isEmpty with
      | some e => .error e
      | none => buildParams tt cfg name (pos + 1) (seen || d.role cfg pos == .regular) rest >>=
          fun ps => .ok (d.classify cfg pos :: ps) := by
  simp only [buildParams, ParamDecl.fault?]
  by_cases hr : d.role cfg pos = .regular
  · -- a regular parameter meets the variadic checks only
    by_cases hv : d.variadic = true
    · cases rest with
      | cons _ _ => simp [hr, hv]
      | nil =>
        cases tt.isArray d.type with
        | error e => simp [hr, hv]
        | ok b => cases b <;> cases d.default <;> simp [hr, hv]
    · simp [hr, hv]
  · -- an implicit parameter is not variadic once its own checks pass
    cases seen <;> cases d.default <;> cases d.variadic <;> simp [hr]

/-- **The first failing check.** Checking declared parameters fails exactly with the fault of the
first parameter, in order, whose checks fail. The induction walks the parameters. -/
theorem buildParams_eq_error_iff {e : Fault} :
    ∀ {pos : Nat} {seen : Bool} {ds : List ParamDecl},
      buildParams tt cfg name pos seen ds = .error e ↔
        ∃ done rest, paramFaults tt cfg name pos seen ds = done ++ some e :: rest ∧
          ∀ x ∈ done, x = none
  | _, _, [] => by simp [buildParams, paramFaults]
  | pos, seen, d :: ds => by
    rw [buildParams_cons, paramFaults]
    cases hf : d.fault? tt cfg name pos seen ds.isEmpty with
    | some e' =>
      -- the first parameter fails, and the others are not checked
      simp only [Except.error.injEq]
      constructor
      · rintro rfl
        exact ⟨[], _, rfl, by simp⟩
      · rintro ⟨done, rest, heq, hnone⟩
        cases done with
        | nil =>
          simp only [List.nil_append, List.cons.injEq, Option.some.injEq] at heq
          exact heq.1
        | cons x done =>
          simp only [List.cons_append, List.cons.injEq] at heq
          simp [← heq.1] at hnone
    | none =>
      -- the first parameter passes, and the fault is that of the others
      simp only [Except.bind_pure_eq_error]
      rw [buildParams_eq_error_iff]
      constructor
      · rintro ⟨done, rest, heq, hnone⟩
        exact ⟨none :: done, rest, by simp [heq], by simpa using hnone⟩
      · rintro ⟨done, rest, heq, hnone⟩
        cases done with
        | nil => simp at heq
        | cons x done =>
          simp only [List.cons_append, List.cons.injEq] at heq
          exact ⟨done, rest, heq.2, fun y hy => hnone y (List.mem_cons_of_mem x hy)⟩

/-- **Checks that all pass.** When no parameter's checks fail, the parameters are the declared
ones classified at their positions. -/
theorem buildParams_eq_ok_of_faults {ds : List ParamDecl}
    (h : ∀ x ∈ paramFaults tt cfg name 0 false ds, x = none) :
    buildParams tt cfg name 0 false ds = .ok (ds.zipIdx.map fun x => x.1.classify cfg x.2) := by
  cases hb : buildParams tt cfg name 0 false ds with
  | error e =>
    obtain ⟨done, rest, heq, -⟩ := buildParams_eq_error_iff.1 hb
    have hin : some e ∈ paramFaults tt cfg name 0 false ds := by simp [heq]
    cases h _ hin
  | ok ps => rw [(buildParams_eq_ok hb).1]

/-! ## The registry after a registration -/

variable {mt : MethodTable} {m : Method}

/-- After appending a method whose id was free, its id finds it. -/
theorem find?_push (hfree : mt.find? m.id = none) :
    (⟨mt.methods.push m⟩ : MethodTable).find? m.id = some m := by
  have hlist : (⟨mt.methods.push m⟩ : MethodTable).toList = mt.toList ++ [m] := by simp [toList]
  rw [find?_eq] at hfree ⊢
  rw [hlist, List.find?_append, hfree]
  simp

/-- Appending a method adds it to the methods of its declaring type, and to no other. -/
theorem declaredOn_push (t : Int) :
    (⟨mt.methods.push m⟩ : MethodTable).declaredOn t =
      mt.declaredOn t ++ if m.declaring = t then [m] else [] := by
  by_cases ht : m.declaring = t <;> simp [declaredOn, toList, ht]

end MethodTable

/-! ## A registration on a host -/

namespace Host

/-- **What a registration reports, and what it changes.** For every host and every declared
method:

* under a taken id, the registration reports the duplicate id and changes nothing;
* under a free id, when some parameter fails its checks, it reports the fault of the first such
  parameter, in order, and changes nothing;
* under a free id, when every parameter passes, it stores the method: all methods and the methods
  of its declaring type gain it at the end, and its id finds it. It then reports the method, or,
  when the declaring type is unknown, the fault naming that type, the method staying stored. -/
theorem register_outcomes (h : Host) (d : MethodDecl) :
    ((h.methods.find? d.id).isSome → h.register d = (h, .error (.duplicateMethod d.id))) ∧
    (h.methods.find? d.id = none → ∀ e, (∃ done rest,
        MethodTable.paramFaults h.types h.config d.name 0 false d.params = done ++ some e :: rest ∧
          ∀ x ∈ done, x = none) →
      h.register d = (h, .error e)) ∧
    (h.methods.find? d.id = none →
      (∀ x ∈ MethodTable.paramFaults h.types h.config d.name 0 false d.params, x = none) →
      (h.register d).1 = { h with methods := ⟨h.methods.methods.push (d.stored h.config)⟩ } ∧
      (h.register d).1.methods.find? d.id = some (d.stored h.config) ∧
      (h.register d).1.methods.toList = h.methods.toList ++ [d.stored h.config] ∧
      (∀ t, (h.register d).1.methods.declaredOn t =
        h.methods.declaredOn t ++ if d.declaring = t then [d.stored h.config] else []) ∧
      (h.register d).2 = if (h.types.find? d.declaring).isSome then .ok (d.stored h.config)
        else .error (.unknownType d.declaring)) := by
  refine ⟨fun htaken => ?_, fun hfree e hfirst => ?_, fun hfree hpass => ?_⟩
  · simp [register, MethodTable.add, htaken]
  · have hb := MethodTable.buildParams_eq_error_iff.2 hfirst
    simp [register, MethodTable.add, hfree, hb]
  · have hb := MethodTable.buildParams_eq_ok_of_faults hpass
    have hreg : h.register d = ({ h with methods := ⟨h.methods.methods.push (d.stored h.config)⟩ },
        (h.types.name d.declaring).map fun _ => d.stored h.config) := by
      simp [register, MethodTable.add, hfree, hb, MethodDecl.stored]
    -- naming the declaring type fails exactly when it is unknown
    have hname : (h.types.name d.declaring).map (fun _ => d.stored h.config) =
        if (h.types.find? d.declaring).isSome then .ok (d.stored h.config)
        else .error (.unknownType d.declaring) := by
      cases hf : h.types.find? d.declaring <;> simp [TypeTable.name, TypeTable.get, hf, Except.map]
    rw [hreg, hname]
    exact ⟨rfl, MethodTable.find?_push hfree, by simp [MethodTable.toList],
      fun t => MethodTable.declaredOn_push t, rfl⟩

/-- On a fresh host with `Int` (id 4), registering `f(Int)` (id 7) on the unknown type 99
passes the checks, stores the method and reports the unknown type; registering id 7 again
reports the duplicate id. -/
theorem register_outcomes_of_unknown_declaring :
    let h := (Host.fresh).apply (.types (.known .int))
    let d : MethodDecl :=
      { id := 7, name := "f", declaring := 99, params := [{ name := "x", type := 4 }] }
    h.methods.find? d.id = none ∧
      (∀ x ∈ MethodTable.paramFaults h.types h.config d.name 0 false d.params, x = none) ∧
      (h.register d).2 = .error (.unknownType 99) ∧
      (h.register d).1.methods.find? d.id = some (d.stored h.config) ∧
      ((h.register d).1.register d).2 = .error (.duplicateMethod 7) := by
  intro h d
  have hfree : h.methods.find? d.id = none := rfl
  have hpass : ∀ x ∈ MethodTable.paramFaults h.types h.config d.name 0 false d.params,
      x = none := by decide
  obtain ⟨-, hstored, -, -, hreport⟩ := (register_outcomes h d).2.2 hfree hpass
  have htaken : ((h.register d).1.methods.find? d.id).isSome := by rw [hstored]; rfl
  exact ⟨hfree, hpass, by rw [hreport]; rfl, hstored,
    by rw [(register_outcomes (h.register d).1 d).1 htaken]⟩

end Host

end CallSite
