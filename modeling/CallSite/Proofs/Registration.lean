import CallSite.Method.Table

/-!
# What registration guarantees about a method

Registering a method classifies its declared parameters and checks them one by one
(`MethodTable.buildParams`). A registration that succeeds stores a method whose parameters

* are the declared ones, each classified at its position `0, 1, …` (`Method.Registered`);
* have the shape of `ParamsShape`: the implicit parameters come first, none of them has a
  default or is variadic, and only the last parameter may be variadic, without a default;
* give every variadic parameter an array type of the table it was registered with.

The main statements are `MethodTable.buildParams_cons_eq_ok` (one parameter's checks),
`MethodTable.buildParams_eq_ok` (a whole list) and `MethodTable.registered_of_add`.

The first section holds the few facts about `Except` that every proof about the model uses:
a result is peeled one bind at a time.
-/

namespace CallSite

/-! ## Peeling `Except` -/

namespace Except

variable {ε α β : Type}

@[simp] theorem ok_bind (a : α) (f : α → Except ε β) : (Except.ok a >>= f) = f a := rfl

@[simp] theorem error_bind (e : ε) (f : α → Except ε β) : (Except.error e >>= f) = .error e :=
  rfl

@[simp] theorem throw_eq (e : ε) : (throw e : Except ε α) = .error e := rfl

@[simp] theorem pure_eq (a : α) : (pure a : Except ε α) = .ok a := rfl

theorem bind_eq_ok {x : Except ε α} {f : α → Except ε β} {b : β} :
    x >>= f = .ok b ↔ ∃ a, x = .ok a ∧ f a = .ok b := by
  cases x <;> simp

theorem map_eq_ok {x : Except ε α} {f : α → β} {b : β} :
    f <$> x = .ok b ↔ ∃ a, x = .ok a ∧ f a = b := by
  cases x <;> simp [Functor.map, Except.map]

end Except

/-! ## The shape of a registered parameter list -/

/-- The declaration a classified parameter was made from. -/
def Param.decl (p : Param) : ParamDecl := ⟨p.name, p.type, p.default, p.variadic⟩

@[simp] theorem ParamDecl.classify_implicit (cfg : ImplicitConfig) (d : ParamDecl) (i : Nat) :
    (d.classify cfg i).implicit = (d.role cfg i != .regular) := rfl

/-- Parameter lists of the shape registration gives them: the implicit parameters come
first, none of them has a default or is variadic, and only the last parameter may be
variadic, with no default. -/
structure ParamsShape (ps : List Param) : Prop where
  /-- After the leading implicit parameters, none is implicit. -/
  implicit_first : ∀ p ∈ ps.dropWhile (·.implicit), p.implicit = false
  implicit_plain : ∀ p ∈ ps, p.implicit = true → p.default = none ∧ p.variadic = false
  variadic_last : ∀ p ∈ ps.dropLast, p.variadic = false
  variadic_plain : ∀ p ∈ ps, p.variadic = true → p.default = none

namespace ParamsShape

theorem nil : ParamsShape [] :=
  ⟨by simp, by simp, by simp, by simp⟩

/-- A list of the registration shape, behind a parameter that is not implicit, keeps it when
no parameter after it is implicit. -/
theorem cons_regular {p : Param} {ps : List Param} (h : ParamsShape ps)
    (hp : p.implicit = false) (hps : ∀ q ∈ ps, q.implicit = false)
    (hv : p.variadic = true → ps = []) (hd : p.variadic = true → p.default = none) :
    ParamsShape (p :: ps) where
  implicit_first := by
    intro q hq
    rw [List.dropWhile_cons_of_neg (by simp [hp])] at hq
    rcases List.mem_cons.1 hq with rfl | hq
    · exact hp
    · exact hps q hq
  implicit_plain := by
    intro q hq hi
    rcases List.mem_cons.1 hq with rfl | hq
    · simp [hp] at hi
    · exact h.implicit_plain q hq hi
  variadic_last := by
    intro q hq
    cases ps with
    | nil => simp at hq
    | cons r rs =>
      rw [List.dropLast_cons_cons] at hq
      rcases List.mem_cons.1 hq with rfl | hq
      · cases hq' : q.variadic
        · rfl
        · exact absurd (hv hq') (List.cons_ne_nil r rs)
      · exact h.variadic_last q hq
  variadic_plain := by
    intro q hq hv'
    rcases List.mem_cons.1 hq with rfl | hq
    · exact hd hv'
    · exact h.variadic_plain q hq hv'

/-- An implicit parameter with neither default nor the variadic mark keeps the shape of the
list behind it. -/
theorem cons_implicit {p : Param} {ps : List Param} (h : ParamsShape ps)
    (hp : p.implicit = true) (hd : p.default = none) (hv : p.variadic = false) :
    ParamsShape (p :: ps) where
  implicit_first := by
    intro q hq
    rw [List.dropWhile_cons_of_pos (by simp [hp])] at hq
    exact h.implicit_first q hq
  implicit_plain := by
    intro q hq hi
    rcases List.mem_cons.1 hq with rfl | hq
    · exact ⟨hd, hv⟩
    · exact h.implicit_plain q hq hi
  variadic_last := by
    intro q hq
    cases ps with
    | nil => simp at hq
    | cons r rs =>
      rw [List.dropLast_cons_cons] at hq
      rcases List.mem_cons.1 hq with rfl | hq
      · exact hv
      · exact h.variadic_last q hq
  variadic_plain := by
    intro q hq hv'
    rcases List.mem_cons.1 hq with rfl | hq
    · simp [hv] at hv'
    · exact h.variadic_plain q hq hv'

end ParamsShape

/-- What registration guarantees of a stored method, with the implicit-parameter configuration
`cfg` and the type table `tt` it was registered with: its parameters are its declared ones
classified at the positions `0, 1, …`, they have the registration shape, and every variadic
one has an array type. -/
structure Method.Registered (cfg : ImplicitConfig) (tt : TypeTable) (m : Method) : Prop where
  classified : m.params = (m.params.map Param.decl).zipIdx.map fun x => x.1.classify cfg x.2
  shape : ParamsShape m.params
  variadic_array : ∀ p ∈ m.params, p.variadic = true → tt.isArray p.type = .ok true

/-! ## The checks of registration -/

namespace MethodTable

variable {tt : TypeTable} {cfg : ImplicitConfig} {name : String}

/-- **The checks on one parameter.** An implicit parameter needs that no regular one came
before and that it has neither default nor the variadic mark; a variadic one needs to be last,
to have an array type and no default. -/
theorem buildParams_cons_eq_ok {pos : Nat} {seen : Bool} {d : ParamDecl}
    {rest : List ParamDecl} {ps : List Param} :
    buildParams tt cfg name pos seen (d :: rest) = .ok ps ↔
      (d.role cfg pos ≠ .regular → seen = false ∧ d.default = none ∧ d.variadic = false) ∧
      (d.variadic = true → rest = [] ∧ tt.isArray d.type = .ok true ∧ d.default = none) ∧
      ∃ ps', buildParams tt cfg name (pos + 1) (seen || d.role cfg pos == .regular) rest =
        .ok ps' ∧ d.classify cfg pos :: ps' = ps := by
  simp only [buildParams]
  by_cases hr : d.role cfg pos = .regular
  · by_cases hv : d.variadic
    · cases rest with
      | cons _ _ => simp [hr, hv]
      | nil =>
        cases ha : tt.isArray d.type with
        | error e => simp [hr, hv]
        | ok b => cases b <;> cases d.default <;> simp [hr, hv, Except.bind_eq_ok]
    · simp [hr, hv, Except.bind_eq_ok]
  · cases seen <;> cases d.default <;> cases d.variadic <;> simp [hr, Except.bind_eq_ok]

/-- **A checked parameter list.** The parameters are the declared ones classified at their
positions; none is implicit when a regular one was seen before; they have the registration
shape, and every variadic one has an array type. -/
theorem buildParams_eq_ok {pos : Nat} {seen : Bool} {ds : List ParamDecl} {ps : List Param}
    (h : buildParams tt cfg name pos seen ds = .ok ps) :
    ps = (ds.zipIdx pos).map (fun x => x.1.classify cfg x.2) ∧
      (seen = true → ∀ p ∈ ps, p.implicit = false) ∧ ParamsShape ps ∧
      ∀ p ∈ ps, p.variadic = true → tt.isArray p.type = .ok true := by
  induction ds generalizing pos seen ps with
  | nil =>
    simp only [buildParams, Except.ok.injEq] at h
    subst h
    exact ⟨rfl, by simp, ParamsShape.nil, by simp⟩
  | cons d rest ih =>
    obtain ⟨hi, hv, ps', hrest, rfl⟩ := buildParams_cons_eq_ok.1 h
    obtain ⟨hcl, hseen, hshape, harr⟩ := ih hrest
    have hps' : rest = [] → ps' = [] := by rintro rfl; simpa using hcl
    refine ⟨by simp [hcl], ?_, ?_, ?_⟩
    · -- a regular parameter seen before rules out an implicit one here
      intro hs p hp
      rcases List.mem_cons.1 hp with rfl | hp
      · by_cases hr : d.role cfg pos = .regular
        · simp [hr]
        · simp [(hi hr).1] at hs
      · exact hseen (by simp [hs]) p hp
    · by_cases hr : d.role cfg pos = .regular
      · refine ParamsShape.cons_regular hshape (by simp [hr]) (hseen (by simp [hr]))
          (fun h' => hps' (hv h').1) (fun h' => (hv h').2.2)
      · obtain ⟨-, hd, hvar⟩ := hi hr
        exact ParamsShape.cons_implicit hshape (by simpa using hr) hd hvar
    · intro p hp hvp
      rcases List.mem_cons.1 hp with rfl | hp
      · exact (hv hvp).2.1
      · exact harr p hp hvp

/-- **A registration that succeeds.** The id was free, the parameters passed the checks, and
the method is appended. -/
theorem add_eq_ok {mt mt' : MethodTable} {d : MethodDecl} {m : Method} :
    mt.add tt cfg d = .ok (mt', m) ↔
      mt.find? d.id = none ∧ ∃ ps, buildParams tt cfg d.name 0 false d.params = .ok ps ∧
        m = ⟨d.id, d.name, d.declaring, ps, d.isStatic, d.visibility, d.returnType⟩ ∧
        mt' = ⟨mt.methods.push m⟩ := by
  simp only [add]
  cases hf : mt.find? d.id with
  | some _ => simp
  | none =>
    cases hb : buildParams tt cfg d.name 0 false d.params with
    | error e => simp
    | ok ps =>
      simp only [Option.isSome_none, Bool.false_eq_true, ↓reduceIte, Except.ok_bind,
        Except.pure_eq, Except.ok.injEq, Prod.mk.injEq, true_and, exists_eq_left']
      constructor
      · rintro ⟨rfl, rfl⟩; exact ⟨rfl, rfl⟩
      · rintro ⟨rfl, rfl⟩; exact ⟨rfl, rfl⟩

/-- **A stored method is registered well.** -/
theorem registered_of_add {mt mt' : MethodTable} {d : MethodDecl} {m : Method}
    (h : mt.add tt cfg d = .ok (mt', m)) : m.Registered cfg tt := by
  obtain ⟨-, ps, hb, rfl, -⟩ := add_eq_ok.1 h
  obtain ⟨hcl, -, hshape, harr⟩ := buildParams_eq_ok hb
  refine ⟨?_, hshape, harr⟩
  -- the declarations read back from the classified parameters are the declared ones
  have hdecl : ps.map Param.decl = d.params := by
    rw [hcl]
    simp [Function.comp_def, ParamDecl.classify, Param.decl]
  simp only [hdecl]
  exact hcl

end MethodTable

end CallSite
