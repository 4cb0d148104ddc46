import CallSite.Proofs.Binding
import CallSite.Proofs.Registry

/-!
# What binding gives each parameter

`Converter.bind` walks the parameters of a method with one count of the arguments consumed so
far. This module states its result parameter by parameter, without that count. Number the
regular parameters `0, 1, …` in order. The parameter at position `i`, with `j` regular
parameters before it, has the outcome `Converter.outcome`:

* an implicit parameter receives the call site's context handle, calling class or locals, and
  fails as missing when the call site supplied no calling class or no locals;
* a variadic parameter receives a new array of the arguments from `j` on, each converted to
  the element type (an empty one when there are no arguments left);
* any other parameter receives argument `j` converted to its type, when there is one, and
  else its default, and else it fails as a missing argument at position `i`.

Arguments that no parameter takes are dropped. On a method that registration stored, binding
succeeds exactly when every parameter's outcome succeeds, with one bound expression per
parameter in order, and otherwise fails with the outcome of the first parameter that fails
(`Converter.bind_by_parameter`). This holds for every converter and every look-up of element
types: what they give is part of the outcome.
-/

namespace CallSite

/-! ## Outcomes taken in order -/

namespace Except

variable {ε α : Type}

/-- Outcomes taken in order all succeed exactly when each of them does, with their values. -/
theorem mapM_id_eq_ok_iff : ∀ {l : List (Except ε α)} {out : List α},
    l.mapM id = .ok out ↔ l = out.map .ok
  | [], out => by cases out <;> simp
  | r :: l, out => by
    cases r with
    | error e => cases out <;> simp
    | ok a =>
      rw [List.mapM_cons, id, ok_bind, bind_eq_ok]
      cases out with
      | nil => simp
      | cons b out =>
        simp only [mapM_id_eq_ok_iff, pure_eq, Except.ok.injEq, List.cons.injEq, List.map_cons]
        constructor
        · rintro ⟨bs, hl, rfl, rfl⟩
          exact ⟨rfl, hl⟩
        · rintro ⟨rfl, hl⟩
          exact ⟨out, hl, rfl, rfl⟩

/-- Outcomes taken in order fail with the fault of the first one that fails. -/
theorem mapM_id_eq_error_iff {l : List (Except ε α)} {e : ε} :
    l.mapM id = .error e ↔
      ∃ done rest, l = done ++ .error e :: rest ∧ ∀ r ∈ done, ∃ a, r = .ok a := by
  let fault : Except ε α → Option ε := fun r => match r with
    | .error e => some e
    | .ok _ => none
  have hfault : ∀ r e, id r = .error e ↔ fault r = some e := by
    intro r e
    cases r <;> simp [fault]
  rw [mapM_eq_error_iff hfault, List.findSome?_eq_some_iff]
  -- the first outcome with a fault is a failure, and those before it succeed
  have hnone : ∀ r, fault r = none ↔ ∃ a, r = .ok a := by
    intro r
    cases r <;> simp [fault]
  have hsome : ∀ r, fault r = some e ↔ r = .error e := by
    intro r
    cases r <;> simp [fault]
  simp only [hnone, hsome]
  constructor
  · rintro ⟨done, r, rest, rfl, rfl, hdone⟩
    exact ⟨done, rest, rfl, hdone⟩
  · rintro ⟨done, rest, rfl, hdone⟩
    exact ⟨done, _, rest, rfl, rfl, hdone⟩

end Except

/-! ## The outcome of each parameter -/

namespace Converter

variable (cv : Converter (Except Fault)) (el : Int → Except Fault Int) (imp : Implicits)
  (args : List Argument)

/-- What binding gives the parameter `p` at position `i` of a method, with `j` regular parameters
before it, at a call site with the arguments `args` and the implicit values `imp`. -/
def outcome (p : Param) (i j : Nat) : Except Fault Bound :=
  match p.role with
  | .context => .ok imp.context
  | .staticClass =>
    match imp.staticClass with
    | some b => .ok b
    | none => .error (.missingImplicit .staticClass)
  | .locals =>
    match imp.locals with
    | some b => .ok b
    | none => .error (.missingImplicit .locals)
  | .regular =>
    if p.variadic then do
      let e ← el p.type
      let items ← (args.drop j).mapM (cv.convert · e)
      return .newArray e items
    else
      match args[j]? with
      | some a => cv.convert a p.type
      | none =>
        match p.default with
        | some v => .ok (.const v p.type)
        | none => .error (.missingArgument i)

/-- The outcomes of the parameters `ps`, the first at position `i` with `j` regular parameters
before it; each regular parameter adds one to the count of those before the next. -/
def outcomes : List Param → Nat → Nat → List (Except Fault Bound)
  | [], _, _ => []
  | p :: ps, i, j =>
    cv.outcome el imp args p i j ::
      outcomes ps (i + 1) (if p.role = .regular then j + 1 else j)

theorem length_outcomes :
    ∀ (ps : List Param) (i j : Nat), (cv.outcomes el imp args ps i j).length = ps.length
  | [], _, _ => rfl
  | _ :: ps, _, _ => by simp [outcomes, length_outcomes ps]

/-- Implicit parameters leave the count of regular ones as it is. -/
theorem outcomes_implicit_append {imps : List Param} (h : ∀ p ∈ imps, p.implicit = true)
    (ps : List Param) (i j : Nat) :
    cv.outcomes el imp args (imps ++ ps) i j =
      cv.outcomes el imp args imps i j ++ cv.outcomes el imp args ps (i + imps.length) j := by
  induction imps generalizing i with
  | nil => rfl
  | cons p imps ih =>
    have hp : p.role ≠ .regular := by simpa [Param.implicit] using h p (by simp)
    simp only [List.cons_append, outcomes, hp, if_false, List.length_cons]
    rw [ih (fun q hq => h q (by simp [hq])) (i + 1)]
    simp [Nat.add_assoc, Nat.add_comm 1]

/-- An implicit parameter receives what the call site supplies for it. -/
theorem fill_eq_outcome {p : Param} (hp : p.role ≠ .regular) (i j : Nat) :
    imp.fill p.role = some (cv.outcome el imp args p i j) := by
  unfold outcome
  cases h : p.role with
  | regular => exact absurd h hp
  | context => rfl
  | staticClass => cases hs : imp.staticClass <;> simp [Implicits.fill, hs]
  | locals => cases hl : imp.locals <;> simp [Implicits.fill, hl]

/-! ## The binder follows the outcomes -/

/-- Before any argument is consumed, the binder gives the leading implicit parameters their
outcomes. -/
theorem bindFrom_implicits_eq {imps : List Param} (h : ∀ p ∈ imps, p.implicit = true)
    (ps : List Param) (i : Nat) :
    cv.bindFrom el imp (imps ++ ps) 0 args = do
      let bs ← (cv.outcomes el imp args imps i 0).mapM id
      let rest ← cv.bindFrom el imp ps 0 args
      return bs ++ rest := by
  induction imps generalizing i with
  | nil => cases h : cv.bindFrom el imp ps 0 args <;> simp [outcomes, h]
  | cons p imps ih =>
    have hp : p.role ≠ .regular := by simpa [Param.implicit] using h p (by simp)
    have hfill := cv.fill_eq_outcome el imp args hp i 0
    simp only [List.cons_append, bindFrom, if_true, hfill, outcomes, hp, if_false,
      List.mapM_cons, id]
    rw [ih (fun q hq => h q (by simp [hq])) (i + 1)]
    cases cv.outcome el imp args p i 0 <;> simp [MonadExcept.ofExcept]

/-- On parameters that only take arguments, the binder gives each parameter its outcome: the
induction walks the parameters with the count `j` of regular ones before, whatever the count
`c` of consumed arguments, because the arguments left are always those from `j` on. -/
theorem bindFrom_regular_eq :
    ∀ {ps : List Param}, RegularParams ps → ∀ {i : Nat},
      ps.map (·.position) = List.range' i ps.length → ∀ (c j : Nat),
        cv.bindFrom el imp ps c (args.drop j) = (cv.outcomes el imp args ps i j).mapM id
  | [], _, _, _, c, j => by simp [bindFrom, outcomes]
  | p :: ps, hps, i, hpos, c, j => by
    have hrole := hps.role_eq
    have hfill : (if c = 0 then imp.fill .regular else none) = none := by
      simp [Implicits.fill]
    simp only [List.map_cons, List.length_cons, List.range'_succ, List.cons.injEq] at hpos
    obtain ⟨hp, hpos⟩ := hpos
    have ih := bindFrom_regular_eq hps.tail hpos
    simp only [outcomes, hrole, if_true, List.mapM_cons, id]
    by_cases hv : p.variadic
    · -- the variadic parameter is the last one and takes every argument left
      obtain rfl := hps.eq_nil_of_variadic hv
      simp [bindFrom, hfill, hv, outcome, hrole, outcomes]
    · cases ha : args[j]? with
      | some a =>
        -- the next argument is argument `j`
        have hj : j < args.length := (List.getElem?_eq_some_iff.1 ha).1
        have hdrop : args.drop j = a :: args.drop (j + 1) := by
          rw [List.drop_eq_getElem_cons hj, (List.getElem?_eq_some_iff.1 ha).2]
        rw [hdrop]
        simp only [bindFrom, hfill, hv, Bool.false_eq_true, if_false, outcome, hrole, ha,
          ih (c + 1) (j + 1)]
      | none =>
        -- no argument is left, now or later
        have hj : args.length ≤ j := List.getElem?_eq_none_iff.1 ha
        have hdrop : args.drop j = [] := List.drop_eq_nil_of_le hj
        have hdrop' : args.drop (j + 1) = [] := List.drop_eq_nil_of_le (by omega)
        have ih' := ih c (j + 1)
        rw [hdrop'] at ih'
        rw [hdrop]
        cases hd : p.default with
        | some v =>
          simp only [bindFrom, hfill, hv, Bool.false_eq_true, if_false, hd, outcome, hrole, ha,
            ih', Except.ok_bind]
        | none =>
          simp only [bindFrom, hfill, hv, Bool.false_eq_true, if_false, hd, outcome, hrole, ha,
            hp, Except.throw_eq, Except.error_bind]

/-! ## Binding a registered method -/

variable {cfg : ImplicitConfig} {tt : TypeTable} {m : Method}

/-- On a registered method, binding gives the parameters their outcomes, in order. -/
theorem bind_eq_outcomes (hreg : m.Registered cfg tt) :
    cv.bind el m args imp =
      BoundCall.mk m <$> (cv.outcomes el imp args m.params 0 0).mapM id := by
  -- the leading implicit parameters, and the ones that take arguments
  obtain ⟨imps, regs, hsplit, himps, hregs⟩ : ∃ imps regs, imps ++ regs = m.params ∧
      (∀ p ∈ imps, p.implicit = true) ∧ RegularParams regs :=
    ⟨_, _, List.takeWhile_append_dropWhile, fun p hp => List.mem_takeWhile_imp hp,
      hreg.shape.regularParams⟩
  -- the parameters that take arguments sit behind the implicit ones
  have hpos : regs.map (·.position) = List.range' imps.length regs.length := by
    have h := hreg.positions
    rw [← hsplit, List.map_append, List.length_append, List.range_eq_range',
      ← List.range'_append, Nat.zero_add, Nat.one_mul] at h
    exact List.append_inj_right h (by simp)
  have hregs_eq := cv.bindFrom_regular_eq el imp args hregs hpos 0 0
  rw [List.drop_zero] at hregs_eq
  rw [Converter.bind_eq, ← hsplit, cv.bindFrom_implicits_eq el imp args himps regs 0,
    hregs_eq, cv.outcomes_implicit_append el imp args himps, Nat.zero_add, List.mapM_append]

/-- **Binding, parameter by parameter.** Take a method that registration stored, any converter
and look-up of element types, and any arguments and implicit values of a call site. Binding
succeeds exactly when the outcome of every parameter succeeds: the bound call is of the method,
with one expression per parameter, the value of that parameter's outcome. It fails exactly with
the fault of the first parameter, in order, whose outcome fails. -/
theorem bind_by_parameter {mt mt' : MethodTable} {d : MethodDecl}
    (hreg : mt.add tt cfg d = .ok (mt', m)) :
    (∀ call, cv.bind el m args imp = .ok call ↔
      call.method = m ∧ call.args.length = m.params.length ∧
        cv.outcomes el imp args m.params 0 0 = call.args.map .ok) ∧
    (∀ e, cv.bind el m args imp = .error e ↔
      ∃ done rest, cv.outcomes el imp args m.params 0 0 = done ++ .error e :: rest ∧
        ∀ r ∈ done, ∃ b, r = .ok b) := by
  have hbind := cv.bind_eq_outcomes el imp args (MethodTable.registered_of_add hreg)
  refine ⟨fun call => ?_, fun e => ?_⟩
  · rw [hbind, Except.map_eq_ok]
    constructor
    · rintro ⟨out, hout, rfl⟩
      have hmap := Except.mapM_id_eq_ok_iff.1 hout
      have hlen := congrArg List.length hmap
      rw [length_outcomes, List.length_map] at hlen
      exact ⟨rfl, hlen.symm, hmap⟩
    · rintro ⟨hm, -, hmap⟩
      exact ⟨call.args, Except.mapM_id_eq_ok_iff.2 hmap, by rw [← hm]⟩
  · rw [hbind, ← Except.mapM_id_eq_error_iff]
    cases (cv.outcomes el imp args m.params 0 0).mapM id <;>
      simp [Functor.map, Except.map]

end Converter

/-- A method with a context parameter, a `<static>` one, an `Int` parameter with a default and a
variadic `Int[]` one, registered on a fresh host with `Int` (id 4) and `Int[]` (id 5), bound with
the type table's conversions to one argument at a call site that supplies a calling class. -/
theorem bind_by_parameter_with_implicits :
    let tt := (((Host.fresh).apply (.types (.known .int))).apply (.types (.array 4))).types
    let m : Method := ⟨7, "f", 4,
      [⟨0, "ctx", 1, none, false, .context⟩, ⟨1, "<static>", 2, none, false, .staticClass⟩,
        ⟨2, "x", 4, some (.int 0), false, .regular⟩, ⟨3, "rest", 5, none, true, .regular⟩],
      false, .publicAccess, none⟩
    let args : List Argument := [⟨.int 5, 4⟩]
    let imp : Implicits := { context := .value .none 1, staticClass := some (.value .none 2) }
    MethodTable.empty.add tt (Host.fresh).config
        { id := 7, name := "f", declaring := 4,
          params := [{ name := "ctx", type := 1 }, { name := "<static>", type := 2 },
            { name := "x", type := 4, default := some (.int 0) },
            { name := "rest", type := 5, variadic := true }] } = .ok (⟨#[m]⟩, m) ∧
      (∀ call, tt.converter.bind tt.elementType m args imp = .ok call ↔
        call.method = m ∧ call.args.length = m.params.length ∧
          tt.converter.outcomes tt.elementType imp args m.params 0 0 = call.args.map .ok) ∧
      (∀ e, tt.converter.bind tt.elementType m args imp = .error e ↔
        ∃ done rest, tt.converter.outcomes tt.elementType imp args m.params 0 0 =
            done ++ .error e :: rest ∧ ∀ r ∈ done, ∃ b, r = .ok b) := by
  intro tt m args imp
  have hreg : MethodTable.empty.add tt (Host.fresh).config
      { id := 7, name := "f", declaring := 4,
        params := [{ name := "ctx", type := 1 }, { name := "<static>", type := 2 },
          { name := "x", type := 4, default := some (.int 0) },
          { name := "rest", type := 5, variadic := true }] } = .ok (⟨#[m]⟩, m) := rfl
  exact ⟨hreg, tt.converter.bind_by_parameter tt.elementType imp args hreg⟩

end CallSite
