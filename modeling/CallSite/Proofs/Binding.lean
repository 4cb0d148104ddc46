import CallSite.Proofs.Registration
import CallSite.Proofs.Types
import CallSite.Binding
import CallSite.Overload
import CallSite.Host
import Mathlib.Data.List.TakeWhile

/-!
# Scoring and binding agree

Overload selection scores a candidate (`Converter.score`) and binding then binds the winner
(`Converter.bind`). The two walk the parameters with cursors of their own and test for
implicit parameters differently: the scorer skips every implicit parameter, the binder fills
one only while no argument has been consumed. On a registered method they still agree, because
registration puts the implicit parameters first and the variadic one last (`ParamsShape`).

`bind_agrees_with_score` states the agreement, with the type table's conversions, whenever the
score is computed without a fault:

* binding reports only its own faults (a missing implicit value, a missing argument, a failed
  conversion) and raises nothing;
* it misses an implicit value exactly when the method has a `<static>` or `<locals>`
  parameter that the call site did not supply (`Implicits.Lacks`);
* otherwise it succeeds exactly when the method has a score, and fails on the arguments
  exactly when it has none;
* when it succeeds, it asks for the conversion of exactly the pairs of argument type and
  target type that scoring ranked, in the same order.

The last point speaks of what the two ask of the converter. Both run here with a recording
converter (`Converter.logged`), which appends every pair it is asked about to a list; run so,
they compute what they compute otherwise (`fitArgs_logged`, `bindFrom_logged`).
-/

namespace CallSite

/-! ## Recording what is asked of a converter -/

/-- Computations that may fail with a fault and record pairs of types. -/
abbrev Logged := StateT (List (Int × Int)) (Except Fault)

/-- The converter `cv` that also records, for every rank and every conversion asked of it, the
argument type and the target type. -/
def Converter.logged (cv : Converter (Except Fault)) : Converter Logged where
  rank s t := do modify (· ++ [(s, t)]); StateT.lift (cv.rank s t)
  convert a t := do modify (· ++ [(a.type, t)]); StateT.lift (cv.convert a t)

/-- A look-up of the type table in the recording monad: it records nothing. -/
def liftLookup (f : Int → Except Fault Int) (t : Int) : Logged Int := StateT.lift (f t)

namespace Logged

variable {α β : Type} {L L'' : List (Int × Int)}

theorem bind_run_eq_ok {x : Logged α} {f : α → Logged β} {b : β} :
    (x >>= f).run L = .ok (b, L'') ↔ ∃ a L', x.run L = .ok (a, L') ∧ (f a).run L' = .ok (b, L'') :=
  by simp [Except.bind_eq_ok]

@[simp] theorem throw_run (e : Fault) : (throw e : Logged α).run L = .error e := rfl

@[simp] theorem lift_run (x : Except Fault α) :
    (StateT.lift x : Logged α).run L = x >>= fun a => .ok (a, L) := rfl

/-- `x` computes what `y` computes and records on the side: from every log it ends as `y`
does, with some log. -/
def Computes (x : Logged α) (y : Except Fault α) : Prop :=
  ∀ L, ∃ L', x.run L = (·, L') <$> y

namespace Computes

theorem pure (a : α) : Computes (Pure.pure a) (Pure.pure a) := fun L => ⟨L, rfl⟩

theorem bind {x : Logged α} {y : Except Fault α} {f : α → Logged β} {g : α → Except Fault β}
    (hx : Computes x y) (hf : ∀ a, Computes (f a) (g a)) : Computes (x >>= f) (y >>= g) := by
  intro L
  obtain ⟨L₁, h₁⟩ := hx L
  cases y with
  | error e => exact ⟨L, by simp [h₁, Functor.map, Except.map]⟩
  | ok a =>
    obtain ⟨L₂, h₂⟩ := hf a L₁
    exact ⟨L₂, by simp [h₁, h₂, Functor.map, Except.map]⟩

theorem lift (y : Except Fault α) : Computes (StateT.lift y) y := fun L =>
  ⟨L, by cases y <;> rfl⟩

theorem throw (e : Fault) : Computes (MonadExcept.throw e : Logged α) (MonadExcept.throw e) :=
  fun L => ⟨L, rfl⟩

theorem ofExcept (y : Except Fault α) :
    Computes (MonadExcept.ofExcept y) (MonadExcept.ofExcept y) := fun L =>
  ⟨L, by cases y <;> rfl⟩

theorem mapM {γ : Type} {f : γ → Logged α} {g : γ → Except Fault α}
    (h : ∀ c, Computes (f c) (g c)) : ∀ cs : List γ, Computes (cs.mapM f) (cs.mapM g)
  | [] => pure []
  | c :: cs => by
    simp only [List.mapM_cons]
    exact bind (h c) fun b => bind (mapM h cs) fun bs => pure (b :: bs)

theorem run_eq_ok {x : Logged α} {y : Except Fault α} (h : Computes x y) {a : α}
    (hy : y = .ok a) (L : List (Int × Int)) : ∃ L', x.run L = .ok (a, L') := by
  obtain ⟨L', h'⟩ := h L
  exact ⟨L', by simp [h', hy, Functor.map, Except.map]⟩

theorem eq_ok {x : Logged α} {y : Except Fault α} (h : Computes x y) {a : α}
    (hx : x.run L = .ok (a, L'')) : y = .ok a := by
  obtain ⟨L', h'⟩ := h L
  rw [hx] at h'
  cases y <;> simp_all [Functor.map, Except.map]

theorem eq_error {x : Logged α} {y : Except Fault α} (h : Computes x y) {e : Fault}
    (hx : x.run L = .error e) : y = .error e := by
  obtain ⟨L', h'⟩ := h L
  rw [hx] at h'
  cases y <;> simp_all [Functor.map, Except.map]

end Computes

end Logged

section

variable {cv : Converter (Except Fault)} {L : List (Int × Int)}

@[simp] theorem Converter.logged_rank_run (s t : Int) :
    (cv.logged.rank s t).run L = cv.rank s t >>= fun r => .ok (r, L ++ [(s, t)]) := by
  simp [Converter.logged]

@[simp] theorem Converter.logged_convert_run (a : Argument) (t : Int) :
    (cv.logged.convert a t).run L = cv.convert a t >>= fun b => .ok (b, L ++ [(a.type, t)]) := by
  simp [Converter.logged]

@[simp] theorem liftLookup_run (f : Int → Except Fault Int) (t : Int) :
    (liftLookup f t).run L = f t >>= fun e => .ok (e, L) := rfl

theorem Converter.logged_rank_computes (s t : Int) :
    Logged.Computes (cv.logged.rank s t) (cv.rank s t) :=
  fun L => ⟨L ++ [(s, t)], by cases h : cv.rank s t <;> simp [h, Functor.map, Except.map]⟩

theorem Converter.logged_convert_computes (a : Argument) (t : Int) :
    Logged.Computes (cv.logged.convert a t) (cv.convert a t) :=
  fun L => ⟨L ++ [(a.type, t)], by cases h : cv.convert a t <;> simp [h, Functor.map, Except.map]⟩

end

/-! ## The faults of binding -/

/-- The faults that binding reports as its result: a missing implicit value, a missing
argument, a failed conversion. Any other fault is raised. -/
def Fault.IsBinding : Fault → Prop
  | .missingImplicit _ | .missingArgument _ | .conversionFailed _ _ => True
  | _ => False

/-- The faults of binding that come from the arguments: a missing argument and a failed
conversion. -/
def Fault.IsArgument : Fault → Prop
  | .missingArgument _ | .conversionFailed _ _ => True
  | _ => False

theorem Fault.IsArgument.isBinding {e : Fault} (h : e.IsArgument) : e.IsBinding := by
  cases e <;> simp_all [IsArgument, IsBinding]

/-- The call site lacks a value that an implicit parameter of `m` needs: `m` has a `<static>`
parameter and no calling class is supplied, or a `<locals>` parameter and no locals. -/
def Implicits.Lacks (imp : Implicits) (m : Method) : Prop :=
  ((∃ p ∈ m.params, p.role = .staticClass) ∧ imp.staticClass = none) ∨
    ((∃ p ∈ m.params, p.role = .locals) ∧ imp.locals = none)

/-! ## Implicit parameters -/

namespace Converter

variable {M : Type → Type} [Monad M] (cvM : Converter M) (el : Int → M Int)

/-- The scorer skips implicit parameters. -/
theorem fitArgs_implicit_append {imps : List Param} (h : ∀ p ∈ imps, p.implicit = true)
    (ps : List Param) (args : List Argument) :
    cvM.fitArgs el (imps ++ ps) args = cvM.fitArgs el ps args := by
  induction imps with
  | nil => rfl
  | cons p imps ih =>
    simp only [List.cons_append, fitArgs, h p (by simp), if_true]
    exact ih fun q hq => h q (by simp [hq])

/-- Before any argument is consumed, the binder fills the implicit parameters with the call
site's values. -/
theorem bindFrom_implicit_append [LawfulMonad M] [MonadExceptOf Fault M] (imp : Implicits)
    {imps : List Param} (h : ∀ p ∈ imps, ∃ b, imp.fill p.role = some (.ok b))
    (ps : List Param) (args : List Argument) :
    ∃ bs, cvM.bindFrom el imp (imps ++ ps) 0 args =
      (bs ++ ·) <$> cvM.bindFrom el imp ps 0 args := by
  induction imps with
  | nil => exact ⟨[], by simp⟩
  | cons p imps ih =>
    obtain ⟨b, hb⟩ := h p (by simp)
    obtain ⟨bs, hbs⟩ := ih fun q hq => h q (by simp [hq])
    refine ⟨b :: bs, ?_⟩
    simp only [List.cons_append, bindFrom, if_true, hb, MonadExcept.ofExcept, pure_bind, hbs,
      bind_pure_comp, Functor.map_map]

/-! ## Recording changes nothing of what is computed -/

variable (cv : Converter (Except Fault)) (el : Int → Except Fault Int)

theorem fitArgs_logged :
    ∀ (ps : List Param) (args : List Argument),
      Logged.Computes (cv.logged.fitArgs (liftLookup el) ps args) (cv.fitArgs el ps args)
  | [], args => .pure _
  | p :: ps, args => by
    simp only [fitArgs]
    split
    · exact fitArgs_logged ps args
    · split
      · exact .bind (.lift _) fun e => .bind (.mapM (fun a => cv.logged_rank_computes _ _) args)
          fun rs => .bind (fitArgs_logged ps []) fun rest => .pure _
      · split
        · exact .bind (cv.logged_rank_computes _ _) fun r => .bind (fitArgs_logged ps _)
            fun rest => .pure _
        · split
          · exact .bind (fitArgs_logged ps []) fun rest => .pure _
          · exact .pure _

theorem bindFrom_logged (imp : Implicits) :
    ∀ (ps : List Param) (c : Nat) (args : List Argument),
      Logged.Computes (cv.logged.bindFrom (liftLookup el) imp ps c args)
        (cv.bindFrom el imp ps c args)
  | [], c, args => .pure _
  | p :: ps, c, args => by
    simp only [bindFrom]
    split
    · exact .bind (.ofExcept _) fun b => .bind (bindFrom_logged imp ps c args) fun bs => .pure _
    · split
      · exact .bind (.lift _) fun e => .bind (.mapM (fun a => cv.logged_convert_computes _ _) args)
          fun items => .bind (bindFrom_logged imp ps _ []) fun bs => .pure _
      · split
        · exact .bind (cv.logged_convert_computes _ _) fun b => .bind (bindFrom_logged imp ps _ _)
            fun bs => .pure _
        · split
          · exact .bind (bindFrom_logged imp ps c []) fun bs => .pure _
          · exact .throw _

theorem bind_logged (m : Method) (args : List Argument) (imp : Implicits) :
    Logged.Computes (cv.logged.bind (liftLookup el) m args imp) (cv.bind el m args imp) :=
  .bind (cv.bindFrom_logged el imp _ _ _) fun _ => .pure _

end Converter

/-! ## The conversions of a type table -/

namespace TypeTable

/-- **What a rank can be.** The same id is exact; otherwise a subtype is widening; otherwise,
both types being known, a pair of scalars named in `implicitScalarPairs` is implicit and any
other pair impossible. -/
theorem rank_eq_ok_cases {tt : TypeTable} {s t : Int} {r : Rank} (h : tt.rank s t = .ok r) :
    s = t ∧ r = .exact ∨ s ≠ t ∧ tt.isSubtype s t = .ok true ∧ r = .widening ∨
      s ≠ t ∧ tt.isSubtype s t = .ok false ∧ ∃ ds dt, tt.find? s = some ds ∧
        tt.find? t = some dt ∧
          r = if ds.shape = .scalar ∧ dt.shape = .scalar ∧ (ds.name, dt.name) ∈ implicitScalarPairs
            then .implicit else .impossible := by
  unfold rank at h
  by_cases hst : s = t
  · simp only [hst, if_true, Except.pure_eq, Except.ok.injEq] at h
    exact .inl ⟨hst, h.symm⟩
  · cases hsub : tt.isSubtype s t with
    | error e => simp [hst, hsub] at h
    | ok b =>
      cases b with
      | true =>
        simp only [hst, hsub, if_false, Except.ok_bind, if_true, Except.pure_eq,
          Except.ok.injEq] at h
        exact .inr (.inl ⟨hst, rfl, h.symm⟩)
      | false =>
        -- both look-ups succeed, and the names decide
        cases hs : tt.get s with
        | error e => simp [hst, hsub, hs] at h
        | ok ds =>
          cases ht : tt.get t with
          | error e => simp [hst, hsub, hs, ht] at h
          | ok dt =>
            simp only [hst, hsub, hs, ht, if_false, Except.ok_bind, Bool.false_eq_true] at h
            refine .inr (.inr ⟨hst, rfl, ds, dt, get_eq_ok.1 hs, get_eq_ok.1 ht, ?_⟩)
            split_ifs at h ⊢ <;> exact (Except.ok.inj h).symm

variable (tt : TypeTable)

theorem rank_impossible_names {s t : Int} (h : tt.rank s t = .ok .impossible) :
    (∃ n, tt.name s = .ok n) ∧ ∃ n, tt.name t = .ok n := by
  rcases rank_eq_ok_cases h with ⟨-, h⟩ | ⟨-, -, h⟩ | ⟨-, -, ds, dt, hds, hdt, -⟩
  · cases h
  · cases h
  · exact ⟨⟨ds.name, name_of_find? hds⟩, ⟨dt.name, name_of_find? hdt⟩⟩

/-- A conversion asks for the rank first: it fails as the rank does, fails with
`conversionFailed` when there is no conversion, and gives an expression otherwise. -/
theorem convert_of_rank {a : Argument} {t : Int} {r : Rank} (h : tt.rank a.type t = .ok r) :
    (r ≠ .impossible → ∃ b, tt.convert a t = .ok b) ∧
      (r = .impossible → ∃ s t', tt.convert a t = .error (.conversionFailed s t')) := by
  refine ⟨fun hr => ?_, fun hr => ?_⟩
  · cases r with
    | impossible => exact absurd rfl hr
    | exact => exact ⟨a.expr, by simp [convert, h]⟩
    | widening => exact ⟨.convert a.expr t, by simp [convert, h]⟩
    | implicit => exact ⟨.convert a.expr t, by simp [convert, h]⟩
  · subst hr
    obtain ⟨⟨s, hs⟩, ⟨t', ht⟩⟩ := tt.rank_impossible_names h
    exact ⟨s, t', by simp [convert, h, hs, ht]⟩

end TypeTable

section

variable (tt : TypeTable) {L : List (Int × Int)}

/-- With the recording converter of the type table, a conversion records what the rank of
the same pair records, and succeeds exactly when that rank is not `impossible`. -/
theorem logged_convert_of_rank {a : Argument} {t : Int} {r : Rank} {L' : List (Int × Int)}
    (h : (tt.converter.logged.rank a.type t).run L = .ok (r, L')) :
    (r ≠ .impossible → ∃ b, (tt.converter.logged.convert a t).run L = .ok (b, L')) ∧
      (r = .impossible →
        ∃ s t', (tt.converter.logged.convert a t).run L = .error (.conversionFailed s t')) := by
  simp only [Converter.logged_rank_run, Except.bind_eq_ok, Except.ok.injEq, Prod.mk.injEq] at h
  obtain ⟨r', hr', rfl, rfl⟩ := h
  obtain ⟨hok, himp⟩ := tt.convert_of_rank hr'
  refine ⟨fun hr => ?_, fun hr => ?_⟩
  · obtain ⟨b, hb⟩ := hok hr
    exact ⟨b, by simp [TypeTable.converter, hb]⟩
  · obtain ⟨s, t', he⟩ := himp hr
    exact ⟨s, t', by simp [TypeTable.converter, he]⟩

theorem mapM_convert_of_mapM_rank (e : Int) :
    ∀ (args : List Argument) {L L' : List (Int × Int)} {rs : List Rank},
      (args.mapM fun a => tt.converter.logged.rank a.type e).run L = .ok (rs, L') →
      (Rank.impossible ∉ rs →
          ∃ items, (args.mapM fun a => tt.converter.logged.convert a e).run L = .ok (items, L')) ∧
        (Rank.impossible ∈ rs → ∃ s t,
          (args.mapM fun a => tt.converter.logged.convert a e).run L =
            .error (.conversionFailed s t))
  | [], L, L', rs, h => by
    simp only [List.mapM_nil, StateT.run_pure, Except.pure_eq, Except.ok.injEq, Prod.mk.injEq] at h
    obtain ⟨rfl, rfl⟩ := h
    exact ⟨fun _ => ⟨[], rfl⟩, by simp⟩
  | a :: args, L, L', rs, h => by
    simp only [List.mapM_cons, Logged.bind_run_eq_ok, StateT.run_pure, Except.pure_eq,
      Except.ok.injEq, Prod.mk.injEq] at h
    obtain ⟨r, L₁, hr, rs', L₂, hrs, rfl, rfl⟩ := h
    obtain ⟨hok, himp⟩ := logged_convert_of_rank tt hr
    obtain ⟨ihok, ihimp⟩ := mapM_convert_of_mapM_rank e args hrs
    simp only [List.mapM_cons, StateT.run_bind, List.mem_cons]
    by_cases hri : r = .impossible
    · obtain ⟨s, t, hc⟩ := himp hri
      exact ⟨fun hn => absurd (.inl hri.symm) hn, fun _ => ⟨s, t, by simp [hc]⟩⟩
    · obtain ⟨b, hb⟩ := hok hri
      refine ⟨fun hn => ?_, fun hin => ?_⟩
      · obtain ⟨items, hitems⟩ := ihok fun h => hn (.inr h)
        exact ⟨b :: items, by simp [hb, hitems]⟩
      · obtain ⟨s, t, hc⟩ := ihimp (hin.resolve_left (Ne.symm hri))
        exact ⟨s, t, by simp [hb, hc]⟩

theorem ArgFit.score_eq_none_iff (f : ArgFit) : f.score = none ↔ Rank.impossible ∈ f.ranks := by
  unfold ArgFit.score
  split <;> simp_all

/-- Ranking one more argument first: the score is missing when that rank is `impossible` or
the rest has none. -/
theorem ArgFit.score_cons_eq_none (r : Rank) (o : Option ArgFit) :
    (o.map fun f => { f with ranks := r :: f.ranks }).bind ArgFit.score = none ↔
      r = .impossible ∨ o.bind ArgFit.score = none := by
  cases o with
  | none => simp
  | some f =>
    simp only [Option.map_some, Option.bind_some, score_eq_none_iff, List.mem_cons]
    exact or_congr eq_comm Iff.rfl

/-- Using a default changes nothing of the ranks, so nothing of whether there is a score. -/
theorem ArgFit.score_usedDefault_eq_none (o : Option ArgFit) :
    (o.map fun f => { f with usedDefault := true }).bind ArgFit.score = none ↔
      o.bind ArgFit.score = none := by
  cases o <;> simp [score_eq_none_iff]

/-- Parameters that only arguments fill: none is implicit, and only the last is variadic. -/
structure RegularParams (ps : List Param) : Prop where
  regular : ∀ p ∈ ps, p.implicit = false
  variadic_last : ∀ p ∈ ps.dropLast, p.variadic = false

namespace RegularParams

variable {p : Param} {ps : List Param}

theorem tail (h : RegularParams (p :: ps)) : RegularParams ps := by
  refine ⟨fun q hq => h.regular q (by simp [hq]), fun q hq => ?_⟩
  cases ps with
  | nil => simp at hq
  | cons r rs => exact h.variadic_last q (by rw [List.dropLast_cons_cons]; exact .tail _ hq)

theorem eq_nil_of_variadic (h : RegularParams (p :: ps)) (hv : p.variadic = true) : ps = [] := by
  cases ps with
  | nil => rfl
  | cons r rs => simp [h.variadic_last p (by simp)] at hv

theorem role_eq (h : RegularParams (p :: ps)) : p.role = .regular := by
  simpa [Param.implicit] using h.regular p (by simp)

end RegularParams

/-- A recorded binding run `x` follows a recorded fit that gave `o` and ended with the log `L'`:
it succeeds with that log when the fit has a score, and fails on the arguments when it has
none. -/
def FollowsFit (o : Option ArgFit) (L' : List (Int × Int))
    (x : Except Fault (List Bound × List (Int × Int))) : Prop :=
  (o.bind ArgFit.score ≠ none → ∃ bs, x = .ok (bs, L')) ∧
    (o.bind ArgFit.score = none → ∃ e, x = .error e ∧ e.IsArgument)

/-- A variadic parameter, the last one, takes the remaining arguments: binding converts each to
the element type as the fit ranked it. -/
theorem bindFrom_variadic_of_fitArgs (imp : Implicits) {p : Param} (c : Nat)
    (hp : p.implicit = false) (hv : p.variadic = true)
    (hfill : (if c = 0 then imp.fill p.role else none) = none) {args : List Argument}
    {L L' : List (Int × Int)} {o : Option ArgFit}
    (h : (tt.converter.logged.fitArgs (liftLookup tt.elementType) [p] args).run L = .ok (o, L')) :
    FollowsFit o L'
      ((tt.converter.logged.bindFrom (liftLookup tt.elementType) imp [p] c args).run L) := by
  simp only [Converter.fitArgs, hp, hv, Bool.false_eq_true, if_false, if_true,
    Logged.bind_run_eq_ok, liftLookup_run, Except.bind_eq_ok, StateT.run_pure,
    Except.pure_eq, Except.ok.injEq, Prod.mk.injEq] at h
  obtain ⟨e, L₀, ⟨e', he, rfl, rfl⟩, rs, L₁, hrs, f, L₂, ⟨rfl, rfl⟩, rfl, rfl⟩ := h
  obtain ⟨hok, himp⟩ := mapM_convert_of_mapM_rank tt e' args hrs
  simp only [FollowsFit, Option.map_some, Option.bind_some, ne_eq, ArgFit.score_eq_none_iff,
    List.append_nil]
  simp only [Converter.bindFrom, hfill, hv, if_true, StateT.run_bind, liftLookup_run, he,
    Except.ok_bind]
  refine ⟨fun hn => ?_, fun hin => ?_⟩
  · obtain ⟨items, hitems⟩ := hok hn
    exact ⟨[.newArray e' items], by simp [hitems]⟩
  · obtain ⟨s, t, hc⟩ := himp hin
    exact ⟨.conversionFailed s t, by simp [hc], trivial⟩

/-- Binding the parameters that only take arguments follows the fit of the same parameters:
the induction walks both along the parameters, one argument (or all, for the variadic one) at a
time. -/
theorem bindFrom_of_fitArgs (imp : Implicits) :
    ∀ {ps : List Param}, RegularParams ps → ∀ (c : Nat) {args : List Argument}
      {L L' : List (Int × Int)} {o : Option ArgFit},
      (tt.converter.logged.fitArgs (liftLookup tt.elementType) ps args).run L = .ok (o, L') →
      FollowsFit o L'
        ((tt.converter.logged.bindFrom (liftLookup tt.elementType) imp ps c args).run L)
  | [], _, c, args, L, L', o, h => by
    simp only [Converter.fitArgs, StateT.run_pure, Except.pure_eq, Except.ok.injEq,
      Prod.mk.injEq] at h
    obtain ⟨rfl, rfl⟩ := h
    simp [FollowsFit, Converter.bindFrom, ArgFit.score_eq_none_iff]
  | p :: ps, hps, c, args, L, L', o, h => by
    have hfill : (if c = 0 then imp.fill p.role else none) = none := by
      simp [hps.role_eq, Implicits.fill]
    have hp : p.implicit = false := hps.regular p (by simp)
    by_cases hv : p.variadic
    · obtain rfl := hps.eq_nil_of_variadic hv
      exact bindFrom_variadic_of_fitArgs tt imp c hp hv hfill h
    · cases args with
      | cons a more =>
        simp only [Converter.fitArgs, hp, hv, Bool.false_eq_true, if_false,
          Logged.bind_run_eq_ok, StateT.run_pure, Except.pure_eq, Except.ok.injEq,
          Prod.mk.injEq] at h
        obtain ⟨r, L₁, hr, o', L₂, ho', rfl, rfl⟩ := h
        obtain ⟨hok, himp⟩ := logged_convert_of_rank tt hr
        obtain ⟨ihok, ihimp⟩ := bindFrom_of_fitArgs imp hps.tail (c + 1) ho'
        simp only [Converter.bindFrom, hfill, hv, Bool.false_eq_true, if_false, StateT.run_bind]
        simp only [FollowsFit, ne_eq, ArgFit.score_cons_eq_none]
        by_cases hri : r = .impossible
        · obtain ⟨s, t, hc⟩ := himp hri
          exact ⟨fun hn => absurd (.inl hri) hn,
            fun _ => ⟨.conversionFailed s t, by simp [hc], trivial⟩⟩
        · obtain ⟨b, hb⟩ := hok hri
          refine ⟨fun hn => ?_, fun hnone => ?_⟩
          · obtain ⟨bs, hbs⟩ := ihok fun h => hn (.inr h)
            exact ⟨b :: bs, by simp [hb, hbs]⟩
          · obtain ⟨e, he, harg⟩ := ihimp (hnone.resolve_left hri)
            exact ⟨e, by simp [hb, he], harg⟩
      | nil =>
        cases hd : p.default with
        | none =>
          simp only [Converter.fitArgs, hp, hv, Bool.false_eq_true, if_false, Param.optional, hd,
            Option.isSome_none, StateT.run_pure, Except.pure_eq, Except.ok.injEq,
            Prod.mk.injEq] at h
          obtain ⟨rfl, rfl⟩ := h
          exact ⟨fun hn => absurd rfl hn, fun _ => ⟨.missingArgument p.position,
            by simp [Converter.bindFrom, hfill, hv, hd], trivial⟩⟩
        | some v =>
          simp only [Converter.fitArgs, hp, hv, Bool.false_eq_true, if_false, Param.optional, hd,
            Option.isSome_some, if_true, Logged.bind_run_eq_ok, StateT.run_pure, Except.pure_eq,
            Except.ok.injEq, Prod.mk.injEq] at h
          obtain ⟨o', L₂, ho', rfl, rfl⟩ := h
          obtain ⟨ihok, ihimp⟩ := bindFrom_of_fitArgs imp hps.tail c ho'
          simp only [FollowsFit, ne_eq, ArgFit.score_usedDefault_eq_none]
          simp only [Converter.bindFrom, hfill, hv, hd, Bool.false_eq_true, if_false,
            StateT.run_bind]
          refine ⟨fun hn => ?_, fun hnone => ?_⟩
          · obtain ⟨bs, hbs⟩ := ihok hn
            exact ⟨.const v p.type :: bs, by simp [hbs]⟩
          · obtain ⟨e, he, harg⟩ := ihimp hnone
            exact ⟨e, by simp [he], harg⟩

end


/-! ## Registered methods -/

/-- The parameters after the leading implicit ones only take arguments. -/
theorem ParamsShape.regularParams {ps : List Param} (h : ParamsShape ps) :
    RegularParams (ps.dropWhile (·.implicit)) := by
  refine ⟨h.implicit_first, fun p hp => ?_⟩
  -- the regular part ends `ps`, so what it has before its last parameter `ps` has too
  have hsplit := List.takeWhile_append_dropWhile (p := (·.implicit)) (l := ps)
  cases hd : ps.dropWhile (·.implicit) with
  | nil => simp [hd] at hp
  | cons q qs =>
    apply h.variadic_last
    rw [← hsplit, hd, List.dropLast_append_of_ne_nil (List.cons_ne_nil q qs)]
    exact List.mem_append_right _ (hd ▸ hp)

/-- An implicit parameter is filled with the call site's value, or fails as missing exactly
when that value is a calling class or locals that the call site did not supply. -/
theorem Implicits.fill_of_ne_regular (imp : Implicits) {r : ParamRole} (hr : r ≠ .regular) :
    (∃ b, imp.fill r = some (.ok b)) ∨
      ∃ k, imp.fill r = some (.error (.missingImplicit k)) ∧
        (r = .staticClass ∧ imp.staticClass = none ∨ r = .locals ∧ imp.locals = none) := by
  cases r with
  | regular => exact absurd rfl hr
  | context => exact .inl ⟨imp.context, rfl⟩
  | staticClass => cases h : imp.staticClass <;> simp [fill, h]
  | locals => cases h : imp.locals <;> simp [fill, h]

/-- A missing implicit value among the leading implicit parameters is the binder's fault. -/
theorem Converter.bindFrom_implicit_missing (cv : Converter (Except Fault))
    (el : Int → Except Fault Int) (imp : Implicits) {imps : List Param}
    (himps : ∀ p ∈ imps, p.implicit = true)
    (h : ∃ p ∈ imps, ∃ k, imp.fill p.role = some (.error (.missingImplicit k)))
    (ps : List Param) (args : List Argument) :
    ∃ k, cv.bindFrom el imp (imps ++ ps) 0 args = .error (.missingImplicit k) := by
  induction imps with
  | nil => simp at h
  | cons p imps ih =>
    have hp : p.role ≠ .regular := by simpa [Param.implicit] using himps p (by simp)
    rcases imp.fill_of_ne_regular hp with ⟨b, hb⟩ | ⟨k, hk, -⟩
    · obtain ⟨q, hq, k', hk'⟩ := h
      rcases List.mem_cons.1 hq with rfl | hq
      · simp [hb] at hk'
      · obtain ⟨k'', h''⟩ := ih (fun q hq => himps q (by simp [hq])) ⟨q, hq, k', hk'⟩
        exact ⟨k'', by simp [bindFrom, hb, MonadExcept.ofExcept, h'']⟩
    · exact ⟨k, by simp [bindFrom, hk, MonadExcept.ofExcept]⟩

section

variable {M : Type → Type} [Monad M] [LawfulMonad M] (cvM : Converter M) (el : Int → M Int)

theorem Converter.score_eq (m : Method) (args : List Argument) :
    cvM.score el m args = (·.bind ArgFit.score) <$> cvM.fitArgs el m.params args := by
  simp [Converter.score, bind_pure_comp]

theorem Converter.bind_eq [MonadExceptOf Fault M] (m : Method) (args : List Argument)
    (imp : Implicits) :
    cvM.bind el m args imp = BoundCall.mk m <$> cvM.bindFrom el imp m.params 0 args := by
  simp [Converter.bind, bind_pure_comp]

end


/-! ## Scoring and binding agree -/

section Agreement

variable {mt mt' : MethodTable} {tt₀ : TypeTable} {cfg : ImplicitConfig} {d : MethodDecl}
  {m : Method} (tt : TypeTable) (args : List Argument) (imp : Implicits)

/-- The call site lacks an implicit value exactly when one of the leading implicit parameters
finds it missing. -/
theorem lacks_iff_fill_missing {imps regs : List Param} (hsplit : imps ++ regs = m.params)
    (himps : ∀ p ∈ imps, p.implicit = true) (hregs : RegularParams regs) :
    imp.Lacks m ↔ ∃ p ∈ imps, ∃ k, imp.fill p.role = some (.error (.missingImplicit k)) := by
  -- an implicit parameter is never among the regular ones
  have hmem : ∀ p ∈ m.params, p.role ≠ .regular → p ∈ imps := by
    intro p hp hr
    rw [← hsplit] at hp
    rcases List.mem_append.1 hp with hp | hp
    · exact hp
    · exact absurd (hregs.regular p hp) (by simp [Param.implicit, hr])
  constructor
  · rintro (⟨⟨p, hp, hr⟩, hn⟩ | ⟨⟨p, hp, hr⟩, hn⟩)
    · exact ⟨p, hmem p hp (by simp [hr]), .staticClass, by simp [Implicits.fill, hr, hn]⟩
    · exact ⟨p, hmem p hp (by simp [hr]), .locals, by simp [Implicits.fill, hr, hn]⟩
  · rintro ⟨p, hp, k, hk⟩
    have hp' : p ∈ m.params := hsplit ▸ List.mem_append_left _ hp
    have hr : p.role ≠ .regular := by simpa [Param.implicit] using himps p hp
    rcases imp.fill_of_ne_regular hr with ⟨b, hb⟩ | ⟨k', -, (⟨hr', hn⟩ | ⟨hr', hn⟩)⟩
    · simp [hb] at hk
    · exact .inl ⟨⟨p, hp', hr'⟩, hn⟩
    · exact .inr ⟨⟨p, hp', hr'⟩, hn⟩

/-- **The outcomes of binding a method of the registration shape that has been scored.**
Binding misses an implicit value when the call site lacks one; otherwise it fails on the
arguments when there is no score, and succeeds when there is one, the recording runs of both
ending with one log. -/
theorem bind_cases_of_score (hshape : ParamsShape m.params) {o : Option Score}
    (hscore : tt.score m args = .ok o) :
    (imp.Lacks m ∧ ∃ k, tt.bind m args imp = .error (.missingImplicit k)) ∨
      (¬imp.Lacks m ∧ o = none ∧ ∃ e, tt.bind m args imp = .error e ∧ e.IsArgument) ∨
      (¬imp.Lacks m ∧ o.isSome ∧ ∃ call log,
        tt.bind m args imp = .ok call ∧
        (tt.converter.logged.bind (liftLookup tt.elementType) m args imp).run [] =
          .ok (call, log) ∧
        (tt.converter.logged.score (liftLookup tt.elementType) m args).run [] = .ok (o, log)) := by
  -- the leading implicit parameters, and the ones that take arguments
  obtain ⟨imps, regs, hsplit, himps, hregs⟩ : ∃ imps regs, imps ++ regs = m.params ∧
      (∀ p ∈ imps, p.implicit = true) ∧ RegularParams regs :=
    ⟨_, _, List.takeWhile_append_dropWhile, fun p hp => List.mem_takeWhile_imp hp,
      hshape.regularParams⟩
  have hbind : tt.bind m args imp =
      BoundCall.mk m <$> tt.converter.bindFrom tt.elementType imp (imps ++ regs) 0 args := by
    rw [TypeTable.bind, Converter.bind_eq, hsplit]
  -- the score comes from the regular parameters alone, and so does the recorded one
  obtain ⟨o₀, hfit, rfl⟩ : ∃ o₀, tt.converter.fitArgs tt.elementType regs args = .ok o₀ ∧
      o = o₀.bind ArgFit.score := by
    rw [TypeTable.score, Converter.score_eq, ← hsplit,
      Converter.fitArgs_implicit_append _ _ himps, Except.map_eq_ok] at hscore
    obtain ⟨o₀, h₀, rfl⟩ := hscore
    exact ⟨o₀, h₀, rfl⟩
  obtain ⟨L', hfitL⟩ := (tt.converter.fitArgs_logged tt.elementType regs args).run_eq_ok hfit []
  have hscoreL : (tt.converter.logged.score (liftLookup tt.elementType) m args).run [] =
      .ok (o₀.bind ArgFit.score, L') := by
    rw [Converter.score_eq, ← hsplit, Converter.fitArgs_implicit_append _ _ himps,
      StateT.run_map, hfitL]
    rfl
  obtain ⟨hok, herr⟩ := bindFrom_of_fitArgs tt imp hregs 0 hfitL
  by_cases hl : imp.Lacks m
  · obtain ⟨k, hk⟩ := tt.converter.bindFrom_implicit_missing tt.elementType imp himps
      ((lacks_iff_fill_missing imp hsplit himps hregs).1 hl) regs args
    exact .inl ⟨hl, k, by rw [hbind, hk]; rfl⟩
  · -- every implicit value is supplied: the binder goes on to the regular parameters
    have hfill : ∀ p ∈ imps, ∃ b, imp.fill p.role = some (.ok b) := by
      intro p hp
      have hr : p.role ≠ .regular := by simpa [Param.implicit] using himps p hp
      rcases imp.fill_of_ne_regular hr with h | ⟨k, hk, -⟩
      · exact h
      · exact absurd ((lacks_iff_fill_missing imp hsplit himps hregs).2 ⟨p, hp, k, hk⟩) hl
    obtain ⟨bs, hbs⟩ := tt.converter.bindFrom_implicit_append tt.elementType imp hfill regs args
    by_cases hs : o₀.bind ArgFit.score = none
    · obtain ⟨e, he, harg⟩ := herr hs
      have hplain := (tt.converter.bindFrom_logged tt.elementType imp regs 0 args).eq_error he
      exact .inr (.inl ⟨hl, hs, e, by rw [hbind, hbs, hplain]; rfl, harg⟩)
    · obtain ⟨bs', hbs'⟩ := hok hs
      have hplain := (tt.converter.bindFrom_logged tt.elementType imp regs 0 args).eq_ok hbs'
      obtain ⟨bsL, hbsL⟩ := tt.converter.logged.bindFrom_implicit_append
        (liftLookup tt.elementType) imp hfill regs args
      have hbindL : (tt.converter.logged.bind (liftLookup tt.elementType) m args imp).run [] =
          .ok (⟨m, bsL ++ bs'⟩, L') := by
        rw [Converter.bind_eq, ← hsplit, hbsL, StateT.run_map, StateT.run_map, hbs']
        rfl
      have hcall := (tt.converter.bind_logged tt.elementType m args imp).eq_ok hbindL
      exact .inr (.inr ⟨hl, Option.isSome_iff_ne_none.2 hs, _, L', hcall, hbindL, hscoreL⟩)

/-- **Binding agrees with scoring.** Take a method that registration stored, any arguments and
implicit values of a call site, and a type table whose conversions score the method without a
fault. Then binding with that table reports only binding faults; it misses an implicit value
exactly when the call site lacks a `<static>` or `<locals>` value the method needs; otherwise
it succeeds exactly when there is a score, and fails on the arguments exactly when there is
none; and a binding that succeeds asks the converter for the conversion of exactly the pairs
of argument type and target type whose rank scoring asked for, in the same order. -/
theorem bind_agrees_with_score (hreg : mt.add tt₀ cfg d = .ok (mt', m)) {o : Option Score}
    (hscore : tt.score m args = .ok o) :
    (∀ e, tt.bind m args imp = .error e → e.IsBinding) ∧
      ((∃ k, tt.bind m args imp = .error (.missingImplicit k)) ↔ imp.Lacks m) ∧
      (¬imp.Lacks m →
        ((∃ call, tt.bind m args imp = .ok call) ↔ o.isSome) ∧
          ((∃ e, tt.bind m args imp = .error e ∧ e.IsArgument) ↔ o = none)) ∧
      ∀ call log,
        (tt.converter.logged.bind (liftLookup tt.elementType) m args imp).run [] =
            .ok (call, log) →
          (tt.converter.logged.score (liftLookup tt.elementType) m args).run [] = .ok (o, log) := by
  have hrecord := tt.converter.bind_logged tt.elementType m args imp
  rcases bind_cases_of_score tt args imp (MethodTable.registered_of_add hreg).shape hscore with
    ⟨hl, k, hk⟩ | ⟨hl, rfl, e, he, harg⟩ | ⟨hl, hs, call, log, hcall, hbindL, hscoreL⟩
  · -- a missing implicit value
    refine ⟨fun e' he' => ?_, ⟨fun _ => hl, fun _ => ⟨k, hk⟩⟩, fun h => absurd hl h,
      fun call' log' hlog => ?_⟩
    · rw [hk] at he'
      cases he'
      trivial
    · have h' : tt.bind m args imp = .ok call' := hrecord.eq_ok hlog
      rw [hk] at h'
      cases h'
  · -- no score: binding fails on the arguments
    refine ⟨fun e' he' => ?_, ⟨fun ⟨k, hk⟩ => ?_, fun h => absurd h hl⟩, fun _ => ⟨?_, ?_⟩,
      fun call' log' hlog => ?_⟩
    · rw [he] at he'
      cases he'
      exact harg.isBinding
    · rw [he] at hk
      cases hk
      exact harg.elim
    · simp [he]
    · simp only [iff_true]
      exact ⟨e, he, harg⟩
    · have h' : tt.bind m args imp = .ok call' := hrecord.eq_ok hlog
      rw [he] at h'
      cases h'
  · -- a score: binding succeeds, asking for what scoring ranked
    refine ⟨fun e' he' => ?_, ⟨fun ⟨k, hk⟩ => ?_, fun h => absurd h hl⟩, fun _ => ⟨?_, ?_⟩,
      fun call' log' hlog => ?_⟩
    · rw [hcall] at he'
      cases he'
    · rw [hcall] at hk
      cases hk
    · simp only [hs, iff_true]
      exact ⟨call, hcall⟩
    · rw [← Option.not_isSome_iff_eq_none, hs]
      simp [hcall]
    · rw [hbindL] at hlog
      cases hlog
      exact hscoreL

/-- A method `g(ctx, <static>, x : Int, rest : Int[]...)` registered on a fresh host with `Int`
(id 4) and `Int[]` (id 5), called with three `Int` arguments and a calling class: the context
and the calling class fill the implicit parameters, `x` takes the first argument and `rest`
collects the other two. -/
theorem bind_agrees_with_score_on_variadic_call :
    let h := ((Host.fresh).apply (.types (.known .int))).apply (.types (.array 4))
    let d : MethodDecl := ⟨7, "g", 4, [⟨"ctx", 1, none, false⟩, ⟨"<static>", 2, none, false⟩,
      ⟨"x", 4, none, false⟩, ⟨"rest", 5, none, true⟩], false, .publicAccess, none⟩
    let m : Method := ⟨7, "g", 4, [⟨0, "ctx", 1, none, false, .context⟩,
      ⟨1, "<static>", 2, none, false, .staticClass⟩, ⟨2, "x", 4, none, false, .regular⟩,
      ⟨3, "rest", 5, none, true, .regular⟩], false, .publicAccess, none⟩
    let args : List Argument := [⟨.int 5, 4⟩, ⟨.int 6, 4⟩, ⟨.int 7, 4⟩]
    let imp : Implicits :=
      { context := .value .none 1, staticClass := some (.value (.str "Int") 2) }
    let o : Option Score := some ⟨.variadic, .exact, 0⟩
    h.methods.add h.types h.config d = .ok (⟨#[m]⟩, m) ∧
    h.types.score m args = .ok o ∧
    (∀ e, h.types.bind m args imp = .error e → e.IsBinding) ∧
      ((∃ k, h.types.bind m args imp = .error (.missingImplicit k)) ↔ imp.Lacks m) ∧
      (¬imp.Lacks m →
        ((∃ call, h.types.bind m args imp = .ok call) ↔ o.isSome) ∧
          ((∃ e, h.types.bind m args imp = .error e ∧ e.IsArgument) ↔ o = none)) ∧
      ∀ call log,
        (h.types.converter.logged.bind (liftLookup h.types.elementType) m args imp).run [] =
            .ok (call, log) →
          (h.types.converter.logged.score (liftLookup h.types.elementType) m args).run [] =
            .ok (o, log) := by
  intro h d m args imp o
  have hreg : h.methods.add h.types h.config d = .ok (⟨#[m]⟩, m) := rfl
  have hscore : h.types.score m args = .ok o := rfl
  exact ⟨hreg, hscore, bind_agrees_with_score h.types args imp hreg hscore⟩

end Agreement

end CallSite
