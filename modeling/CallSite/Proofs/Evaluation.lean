import Mathlib.Data.List.Forall2
import Mathlib.Logic.Relation
import CallSite.Proofs.Outcomes
import CallSite.Proofs.Subtyping
import CallSite.Proofs.Scoring

/-!
# What a bound call computes

A bound call is run by evaluating its expressions in order (`BoundCall.evaluate`). This module
says what each parameter then receives, in terms of the call site alone, for a method that
registration stored, bound with the conversions of a table built by the type operations, at a
call site whose implicit values are plain values (`Implicits.ofArguments`).

What an argument becomes when passed to a parameter type is fixed by its rank
(`TypeTable.Passes`): an exact or widening conversion leaves the value as it is, and an implicit
one applies the constructor of the scalar that the parameter type is. That widening leaves the
value alone is not checked anywhere: it holds because a widening target is a class or the type
`Mixed` (`TypeTable.WellBuilt.widening_target`), the subtype test climbing only to parents of
classes, which are classes on a well-built table, and coercion changes values of scalar targets
only.

What each parameter receives (`TypeTable.Receives`) then follows the layout of the binder:
an implicit parameter the call site's value, a variadic one the list of what the arguments left
make, in order, and any other the next argument, or else its default. The main statement is
`BoundCall.evaluate_by_parameter`: a call evaluates to a list of values exactly when there is one
per parameter and each is what its parameter receives.
-/

namespace CallSite

/-! ## Evaluating expressions in order -/

namespace Bound

variable {tt : TypeTable}

theorem evaluateAll_cons (b : Bound) (bs : List Bound) :
    evaluateAll tt (b :: bs) = do
      let v ← evaluate tt b
      let vs ← evaluateAll tt bs
      return v :: vs := rfl

/-- Expressions evaluated in order give a list of values exactly when each gives its own. -/
theorem evaluateAll_eq_ok_iff {bs : List Bound} {vs : List Value} :
    evaluateAll tt bs = .ok vs ↔ List.Forall₂ (fun b v => evaluate tt b = .ok v) bs vs := by
  induction bs generalizing vs with
  | nil => cases vs <;> simp [evaluateAll]
  | cons b bs ih =>
    simp only [evaluateAll_cons, Except.bind_eq_ok, Except.pure_eq, Except.ok.injEq]
    cases vs with
    | nil => simp
    | cons w ws =>
      simp only [List.forall₂_cons, List.cons.injEq, ← ih]
      constructor
      · rintro ⟨v, hv, vs', hvs, rfl, rfl⟩
        exact ⟨hv, hvs⟩
      · rintro ⟨hv, hvs⟩
        exact ⟨w, hv, ws, hvs, rfl, rfl⟩

end Bound

/-- Two lists are related position by position exactly when they have the same length and the
entries at each index are related. -/
theorem List.forall₂_iff_getElem? {α β : Type} {R : α → β → Prop} {l₁ : List α} {l₂ : List β} :
    List.Forall₂ R l₁ l₂ ↔ l₁.length = l₂.length ∧
      ∀ (i : Nat) a b, l₁[i]? = some a → l₂[i]? = some b → R a b := by
  rw [List.forall₂_iff_get]
  refine and_congr_right fun _ => ⟨fun h i a b ha hb => ?_, fun h i h₁ h₂ => ?_⟩
  · obtain ⟨h₁, rfl⟩ := List.getElem?_eq_some_iff.1 ha
    obtain ⟨h₂, rfl⟩ := List.getElem?_eq_some_iff.1 hb
    exact h i h₁ h₂
  · exact h i _ _ (List.getElem?_eq_getElem h₁) (List.getElem?_eq_getElem h₂)

/-! ## What a conversion does to a value -/

namespace TypeTable

variable {tt : TypeTable} {s t : Int}

/-- An implicit rank is between scalars named in `implicitScalarPairs`, so the target names the
constructor of a scalar. -/
theorem rank_eq_implicit (h : tt.rank s t = .ok .implicit) :
    ∃ dt k, tt.find? t = some dt ∧ dt.shape = .scalar ∧ Scalar.ofName? dt.name = some k := by
  rcases rank_eq_ok_cases h with ⟨-, h⟩ | ⟨-, -, h⟩ | ⟨-, -, ds, dt, -, hdt, h⟩
  · cases h
  · cases h
  · split_ifs at h with hc
    obtain ⟨-, hs, hpair⟩ := hc
    -- every target of an implicit pair is the name of a scalar constructor
    obtain ⟨k, hk⟩ : ∃ k, Scalar.ofName? dt.name = some k := by
      simp only [implicitScalarPairs, List.mem_cons, Prod.mk.injEq, List.not_mem_nil,
        or_false] at hpair
      rcases hpair with ⟨-, hn⟩ | ⟨-, hn⟩ | ⟨-, hn⟩ | ⟨-, hn⟩ | ⟨-, hn⟩ <;>
        simp [hn, Scalar.ofName?]
    exact ⟨dt, k, hdt, hs, hk⟩

/-- **A widening target is a class or `Mixed`.** The subtype test reaches `Mixed` or climbs to a
parent of a class, and on a well-built table the parents of a class are classes. -/
theorem WellBuilt.widening_target (hw : tt.WellBuilt) (h : tt.rank s t = .ok .widening) :
    ∃ dt, tt.find? t = some dt ∧ (dt.shape.isClass = true ∨ dt.shape = .mixed) := by
  obtain ⟨hst, hsub⟩ : s ≠ t ∧ tt.isSubtype s t = .ok true := by
    rcases rank_eq_ok_cases h with ⟨-, h⟩ | ⟨hst, hsub, -⟩ | ⟨-, -, ds, dt, -, -, h⟩
    · cases h
    · exact ⟨hst, hsub⟩
    · split_ifs at h
  rcases isSubtype_eq_true_iff.1 hsub with rfl | ⟨dt, hdt, hm⟩ | hinh
  · exact absurd rfl hst
  · exact ⟨dt, hdt, .inr hm⟩
  · -- the last step of the inheritance is from a class to `t`
    obtain ⟨u, -, du, hdu, hp⟩ := Relation.TransGen.tail'_iff.1 hinh
    obtain ⟨dt, hdt, hc⟩ := hw.class_parents hdu t hp
    exact ⟨dt, hdt, .inl hc⟩

/-- Coercing to a type that is no scalar leaves the value as it is. -/
theorem coerce_of_ne_scalar {dt : TypeDef} (hdt : tt.find? t = some dt) (hs : dt.shape ≠ .scalar)
    (v : Value) : tt.coerce v t = .ok v := by
  simp only [coerce, get_eq_ok.2 hdt, Except.ok_bind]
  split
  · simp_all
  · rfl

/-- Coercing to a scalar named after a constructor applies the constructor. -/
theorem coerce_scalar {dt : TypeDef} {k : Scalar} (hdt : tt.find? t = some dt)
    (hs : dt.shape = .scalar) (hk : Scalar.ofName? dt.name = some k) (v w : Value) :
    tt.coerce v t = .ok w ↔ v.toScalar k = .ok w := by
  simp only [coerce, get_eq_ok.2 hdt, Except.ok_bind, hs, hk]
  cases v.toScalar k <;> simp [Except.mapError]

/-- A widening conversion leaves the value as it is. -/
theorem WellBuilt.coerce_widening (hw : tt.WellBuilt) (h : tt.rank s t = .ok .widening)
    (v : Value) : tt.coerce v t = .ok v := by
  obtain ⟨dt, hdt, hc | hm⟩ := hw.widening_target h
  · exact coerce_of_ne_scalar hdt (fun hs => by simp [hs, TypeShape.isClass] at hc) v
  · exact coerce_of_ne_scalar hdt (by simp [hm]) v

/-- What the value of the argument `a` becomes when passed to a parameter of type `t`, by the
rank of its type for `t`: the value itself for an exact or widening rank, and for an implicit
one what the constructor of the scalar that `t` is makes of it. -/
def Passes (tt : TypeTable) (a : Argument) (t : Int) (w : Value) : Prop :=
  (tt.rank a.type t = .ok .exact ∨ tt.rank a.type t = .ok .widening) ∧ w = a.value ∨
    tt.rank a.type t = .ok .implicit ∧ ∃ dt k, tt.find? t = some dt ∧ dt.shape = .scalar ∧
      Scalar.ofName? dt.name = some k ∧ a.value.toScalar k = .ok w

/-- A conversion that succeeds passes the argument on as it is for an exact rank, and through
a conversion node for a widening or implicit one. -/
theorem convert_eq_ok {a : Argument} {b : Bound} (h : tt.convert a t = .ok b) :
    tt.rank a.type t = .ok .exact ∧ b = a.expr ∨
      (tt.rank a.type t = .ok .widening ∨ tt.rank a.type t = .ok .implicit) ∧
        b = .convert a.expr t := by
  cases hr : tt.rank a.type t with
  | error e => simp [convert, hr] at h
  | ok r =>
    cases r with
    | exact => simpa [convert, hr, eq_comm] using h
    | widening => simpa [convert, hr, eq_comm] using h
    | implicit => simpa [convert, hr, eq_comm] using h
    | impossible =>
      obtain ⟨s', t', he⟩ := (tt.convert_of_rank hr).2 rfl
      cases he.symm.trans h

/-- **What a conversion evaluates to.** On a well-built table, the expression that passes an
argument to a parameter type evaluates to a value exactly when the argument passes as that
value. -/
theorem WellBuilt.evaluate_convert (hw : tt.WellBuilt) {a : Argument} {b : Bound}
    (h : tt.convert a t = .ok b) (w : Value) :
    Bound.evaluate tt b = .ok w ↔ tt.Passes a t w := by
  rcases convert_eq_ok h with ⟨hr, rfl⟩ | ⟨hr | hr, rfl⟩
  · simp [Passes, hr, Argument.expr, Bound.evaluate, eq_comm]
  · simp [Passes, hr, Argument.expr, Bound.evaluate, hw.coerce_widening hr, eq_comm]
  · obtain ⟨dt, k, hdt, hs, hk⟩ := rank_eq_implicit hr
    simp [Passes, hr, Argument.expr, Bound.evaluate, coerce_scalar hdt hs hk, hdt, hs, hk]

/-- Arguments converted to the element type evaluate, in order, to what they pass as. -/
theorem WellBuilt.evaluate_converts (hw : tt.WellBuilt) {e : Int} {as : List Argument}
    {items : List Bound} (h : List.Forall₂ (fun a b => tt.convert a e = .ok b) as items)
    (ws : List Value) :
    List.Forall₂ (fun b w => Bound.evaluate tt b = .ok w) items ws ↔
      List.Forall₂ (fun a w => tt.Passes a e w) as ws := by
  induction h generalizing ws with
  | nil => simp
  | cons hab _ ih =>
    cases ws with
    | nil => simp
    | cons w ws => simp only [List.forall₂_cons, hw.evaluate_convert hab, ih]

end TypeTable

/-! ## What each parameter receives -/

/-- The implicit values of a call site that passes plain values: the context, and possibly a
calling class and locals, each with its runtime type. -/
def Implicits.ofArguments (ctx : Argument) (cls locals : Option Argument) : Implicits :=
  ⟨ctx.expr, cls.map (·.expr), locals.map (·.expr)⟩

namespace Converter

variable (cv : Converter (Except Fault)) (el : Int → Except Fault Int) (imp : Implicits)
  (args : List Argument)

/-- The outcome at each index is that of the parameter there, the regular parameters before it
counted. -/
theorem getElem?_outcomes : ∀ (ps : List Param) (i j k : Nat),
    (cv.outcomes el imp args ps i j)[k]? = ps[k]?.map fun p =>
      cv.outcome el imp args p (i + k) (j + (ps.take k).countP (·.role = .regular))
  | [], _, _, _ => rfl
  | p :: ps, i, j, 0 => by simp [outcomes]
  | p :: ps, i, j, k + 1 => by
    simp only [outcomes, List.getElem?_cons_succ, getElem?_outcomes ps, List.take_succ_cons,
      List.countP_cons]
    -- the same outcome, with the counts regrouped
    congr 1
    funext q
    congr 1
    · omega
    · by_cases hp : p.role = .regular
      · simp only [hp, if_true, decide_true]
        omega
      · simp [hp]

end Converter

namespace TypeTable

variable {tt : TypeTable}

/-- What the parameter `p`, with `j` regular parameters before it, receives when a call runs at
a call site that passes the arguments `args`, the context `ctx`, and possibly a calling class
and locals: an implicit parameter the value passed for it; a variadic one the list of what the
arguments from `j` on pass as to the element type, in order; any other what argument `j` passes
as to its type, or else its default. -/
def Receives (tt : TypeTable) (args : List Argument) (ctx : Argument)
    (cls locals : Option Argument) (p : Param) (j : Nat) (w : Value) : Prop :=
  match p.role with
  | .context => w = ctx.value
  | .staticClass => cls.map (·.value) = some w
  | .locals => locals.map (·.value) = some w
  | .regular =>
    if p.variadic then
      ∃ e ws, tt.elementType p.type = .ok e ∧ w = .list ws ∧
        List.Forall₂ (fun a v => tt.Passes a e v) (args.drop j) ws
    else
      match args[j]? with
      | some a => tt.Passes a p.type w
      | none => p.default = some w

/-- A new array evaluates to the list of its items' values. -/
theorem evaluate_newArray {e : Int} {items : List Bound} {w : Value} :
    Bound.evaluate tt (.newArray e items) = .ok w ↔
      ∃ ws, Bound.evaluateAll tt items = .ok ws ∧ w = .list ws := by
  simp only [Bound.evaluate, Except.bind_eq_ok, Except.pure_eq, Except.ok.injEq]
  constructor <;> rintro ⟨ws, hws, h⟩ <;> exact ⟨ws, hws, h.symm⟩

section

variable {args : List Argument} {ctx : Argument} {cls locals : Option Argument}

/-- **What a parameter receives.** On a well-built table, the expression that binding gives a
parameter, at a call site that passes plain implicit values, evaluates to a value exactly when
the parameter receives that value. -/
theorem WellBuilt.evaluate_outcome (hw : tt.WellBuilt) {p : Param} {i j : Nat} {b : Bound}
    (h : tt.converter.outcome tt.elementType (.ofArguments ctx cls locals) args p i j = .ok b)
    (w : Value) : Bound.evaluate tt b = .ok w ↔ tt.Receives args ctx cls locals p j w := by
  cases hrole : p.role with
  | context =>
    simp only [Converter.outcome, hrole, Implicits.ofArguments, Except.ok.injEq] at h
    subst h
    simp [Receives, hrole, Argument.expr, Bound.evaluate, eq_comm]
  | staticClass =>
    cases hc : cls with
    | none => simp [Converter.outcome, hrole, Implicits.ofArguments, hc] at h
    | some c =>
      simp only [Converter.outcome, hrole, Implicits.ofArguments, hc, Option.map_some,
        Except.ok.injEq] at h
      subst h
      simp [Receives, hrole, Argument.expr, Bound.evaluate, eq_comm]
  | locals =>
    cases hl : locals with
    | none => simp [Converter.outcome, hrole, Implicits.ofArguments, hl] at h
    | some l =>
      simp only [Converter.outcome, hrole, Implicits.ofArguments, hl, Option.map_some,
        Except.ok.injEq] at h
      subst h
      simp [Receives, hrole, Argument.expr, Bound.evaluate, eq_comm]
  | regular =>
    by_cases hv : p.variadic
    · -- a new array of the arguments left, each converted to the element type
      simp only [Converter.outcome, hrole, hv, if_true, Except.bind_eq_ok, Except.pure_eq,
        Except.ok.injEq] at h
      obtain ⟨e, he, items, hitems, rfl⟩ := h
      have hconv := hw.evaluate_converts (Except.forall₂_of_mapM_eq_ok hitems)
      simp only [Receives, hrole, hv, if_true, he, Except.ok.injEq, evaluate_newArray,
        Bound.evaluateAll_eq_ok_iff, hconv]
      constructor
      · rintro ⟨ws, hws, rfl⟩
        exact ⟨e, ws, rfl, rfl, hws⟩
      · rintro ⟨e', ws, rfl, rfl, hws⟩
        exact ⟨ws, hws, rfl⟩
    · cases ha : args[j]? with
      | some a =>
        -- the next argument, converted to the parameter's type
        simp only [Converter.outcome, hrole, hv, Bool.false_eq_true, if_false, ha] at h
        simp only [Receives, hrole, hv, Bool.false_eq_true, if_false, ha]
        exact hw.evaluate_convert h w
      | none =>
        -- no argument is left: the default
        cases hd : p.default with
        | none => simp [Converter.outcome, hrole, hv, ha, hd] at h
        | some v =>
          simp only [Converter.outcome, hrole, hv, Bool.false_eq_true, if_false, ha, hd,
            Except.ok.injEq] at h
          subst h
          simp [Receives, hrole, hv, ha, hd, Bound.evaluate, eq_comm]

end

end TypeTable

/-! ## A bound call, position by position -/

namespace BoundCall

variable {tt₀ tt : TypeTable} {cfg : ImplicitConfig} {mt mt' : MethodTable} {d : MethodDecl}
  {m : Method} {args : List Argument} {ctx : Argument} {cls locals : Option Argument}
  {call : BoundCall}

/-- **What a bound call computes.** Take a method that registration stored, a table built by
the type operations, and a call site that passes arguments and plain implicit values. A widening
target of the table is a class or `Mixed`, so coercing to it leaves every value as it is. And
when binding gives a call, the call evaluates to a list of values exactly when there is one value
per parameter and the value at each position is what the parameter there receives, the regular
parameters before it counted: the call site's value at an implicit position, at a position fed
by an argument that argument's value for an exact or widening rank and the scalar constructor's
result for an implicit one, the declared default where no argument is left, and the list of
what the arguments left pass as at the variadic position. -/
theorem evaluate_by_parameter (hw : tt.Reachable) (hreg : mt.add tt₀ cfg d = .ok (mt', m))
    (hcall : tt.bind m args (.ofArguments ctx cls locals) = .ok call) :
    (∀ s t, tt.rank s t = .ok .widening →
      (∃ dt, tt.find? t = some dt ∧ (dt.shape.isClass = true ∨ dt.shape = .mixed)) ∧
        ∀ v, tt.coerce v t = .ok v) ∧
    ∀ vs, call.evaluate tt = .ok vs ↔ vs.length = m.params.length ∧
      ∀ i p w, m.params[i]? = some p → vs[i]? = some w →
        tt.Receives args ctx cls locals p ((m.params.take i).countP (·.role = .regular)) w := by
  have hwb := hw.wellBuilt
  refine ⟨fun s t h => ⟨hwb.widening_target h, hwb.coerce_widening h⟩, fun vs => ?_⟩
  obtain ⟨-, hlen, hout⟩ :=
    ((tt.converter.bind_by_parameter tt.elementType (.ofArguments ctx cls locals) args hreg).1
      call).1 hcall
  -- the expression at each position is the outcome of the parameter there
  have hpos : ∀ i p b, m.params[i]? = some p → call.args[i]? = some b →
      tt.converter.outcome tt.elementType (.ofArguments ctx cls locals) args p i
        ((m.params.take i).countP (·.role = .regular)) = .ok b := by
    intro i p b hp hb
    have h := congrArg (·[i]?) hout
    simpa [Converter.getElem?_outcomes, hp, hb] using h
  rw [BoundCall.evaluate, Bound.evaluateAll_eq_ok_iff, List.forall₂_iff_getElem?, hlen]
  constructor
  · rintro ⟨hvs, h⟩
    refine ⟨hvs.symm, fun i p w hp hwi => ?_⟩
    have hi : i < call.args.length := by
      have := (List.getElem?_eq_some_iff.1 hwi).1
      omega
    have hb := List.getElem?_eq_getElem hi
    exact (hwb.evaluate_outcome (hpos i p _ hp hb) w).1 (h i _ w hb hwi)
  · rintro ⟨hvs, h⟩
    refine ⟨hvs.symm, fun i b w hb hwi => ?_⟩
    have hi : i < m.params.length := by
      have := (List.getElem?_eq_some_iff.1 hb).1
      omega
    have hp := List.getElem?_eq_getElem hi
    exact (hwb.evaluate_outcome (hpos i _ b hp hb) w).2 (h i _ w hp hwi)

/-- On a table with `Int` (id 4) and `Int[]` (id 5), a method with a context parameter, a
`<static>` one, an `Int` parameter with a default and a variadic `Int[]` one, bound to three
`Int` arguments at a call site that passes a calling class: the first argument feeds the third
parameter and the other two the variadic one. -/
theorem evaluate_by_parameter_with_variadic :
    let tt := (((Host.fresh).apply (.types (.known .int))).apply (.types (.array 4))).types
    let d : MethodDecl :=
      { id := 7, name := "f", declaring := 4,
        params := [{ name := "ctx", type := 1 }, { name := "<static>", type := 2 },
          { name := "x", type := 4, default := some (.int 0) },
          { name := "rest", type := 5, variadic := true }] }
    let m : Method := ⟨7, "f", 4,
      [⟨0, "ctx", 1, none, false, .context⟩, ⟨1, "<static>", 2, none, false, .staticClass⟩,
        ⟨2, "x", 4, some (.int 0), false, .regular⟩, ⟨3, "rest", 5, none, true, .regular⟩],
      false, .publicAccess, none⟩
    let args : List Argument := [⟨.int 5, 4⟩, ⟨.int 6, 4⟩, ⟨.int 7, 4⟩]
    let ctx : Argument := ⟨.none, 1⟩
    let cls : Option Argument := some ⟨.none, 2⟩
    let call : BoundCall := ⟨m, [.value .none 1, .value .none 2, .value (.int 5) 4,
      .newArray 4 [.value (.int 6) 4, .value (.int 7) 4]]⟩
    tt.Reachable ∧ MethodTable.empty.add tt (Host.fresh).config d = .ok (⟨#[m]⟩, m) ∧
      tt.bind m args (.ofArguments ctx cls none) = .ok call ∧
      (∀ s t, tt.rank s t = .ok .widening →
        (∃ dt, tt.find? t = some dt ∧ (dt.shape.isClass = true ∨ dt.shape = .mixed)) ∧
          ∀ v, tt.coerce v t = .ok v) ∧
      ∀ vs, call.evaluate tt = .ok vs ↔ vs.length = m.params.length ∧
        ∀ i p w, m.params[i]? = some p → vs[i]? = some w →
          tt.Receives args ctx cls none p ((m.params.take i).countP (·.role = .regular)) w := by
  intro tt d m args ctx cls call
  have hfresh : (Host.fresh).types.Reachable :=
    .step (.known .locals) (.step (.known .typeToken) (.step (.known .context) .empty rfl) rfl) rfl
  have hint : ((Host.fresh).apply (.types (.known .int))).types.Reachable :=
    .step (t := 4) (.known .int) hfresh rfl
  have hr : tt.Reachable := .step (t := 5) (.array 4) hint rfl
  have hreg : MethodTable.empty.add tt (Host.fresh).config d = .ok (⟨#[m]⟩, m) := rfl
  have hcall : tt.bind m args (.ofArguments ctx cls none) = .ok call := rfl
  exact ⟨hr, hreg, hcall, evaluate_by_parameter hr hreg hcall⟩

end BoundCall

end CallSite
