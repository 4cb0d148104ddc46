import Mathlib
import CallSite.Proofs.Outcomes

/-!
# What the score of a candidate is

`Converter.score` walks the parameters of a method along the arguments, collecting ranks and
flags, and reads a score off them after the walk. This module states the score directly in the
arguments and the parameters. For a method that registration stored, let `R` be its fixed
parameters (`Method.fixedParams`: the regular ones but the variadic one), `k` the number of
arguments and `ρ` the ranks that scoring asks for (`TypeTable.RanksOf`): argument `j` against
`R[j]` while both last, then, when the method has a variadic parameter, each later argument
against its element type. Then (`TypeTable.score_by_ranks`) there is no score exactly when a
fixed parameter beyond the arguments has no default or some rank of `ρ` is `impossible`; and
otherwise the score has

* the arity fit `variadic` when there is a variadic parameter, and else `exact`, `defaults` or
  `excess` as `k` equals, falls short of or exceeds the number of fixed parameters;
* the worst rank of `ρ`, `exact` when `ρ` is empty;
* the sum of the ranks of `ρ`.
-/

namespace CallSite

/-! ## The parameters of a registered method -/

namespace Method

/-- The parameters that take one argument each: the regular ones but the variadic one. -/
def fixedParams (m : Method) : List Param :=
  m.params.filter fun p => p.role == .regular && !p.variadic

end Method

namespace RegularParams

variable {ps : List Param}

/-- Parameters that only take arguments are the fixed ones followed by the variadic one, if the
last is variadic. -/
theorem eq_fixed_append (h : RegularParams ps) :
    ps = ps.filter (fun p => !p.variadic) ++ (ps.getLast?.filter (·.variadic)).toList := by
  induction ps with
  | nil => rfl
  | cons p ps ih =>
    cases ps with
    | nil => cases hv : p.variadic <;> simp [hv, Option.filter]
    | cons q qs =>
      -- a parameter with one after it is not variadic
      have hp : p.variadic = false := h.variadic_last p (by simp)
      rw [List.filter_cons, List.getLast?_cons_cons, hp]
      simpa using ih h.tail

end RegularParams

namespace Method.Registered

variable {cfg : ImplicitConfig} {tt : TypeTable} {m : Method}

/-- A registered method's parameters are its leading implicit ones, then its fixed ones, then
its variadic one if it has one. -/
theorem params_split (h : m.Registered cfg tt) :
    ∃ imps, (∀ p ∈ imps, p.implicit = true) ∧
      m.params = imps ++ (m.fixedParams ++ m.variadicParam?.toList) ∧
      RegularParams (m.fixedParams ++ m.variadicParam?.toList) := by
  have hsplit := List.takeWhile_append_dropWhile (p := (·.implicit)) (l := m.params)
  set imps := m.params.takeWhile (·.implicit)
  set regs := m.params.dropWhile (·.implicit)
  have himps : ∀ p ∈ imps, p.implicit = true := fun p hp => List.mem_takeWhile_imp hp
  have hregs : RegularParams regs := h.shape.regularParams
  -- the fixed parameters are the regular part without its variadic one
  have hfixed : m.fixedParams = regs.filter fun p => !p.variadic := by
    rw [Method.fixedParams, ← hsplit, List.filter_append,
      List.filter_eq_nil_iff.2 fun p hp => by simp [(by simpa [Param.implicit] using himps p hp :
        p.role ≠ .regular)], List.nil_append]
    refine List.filter_congr fun p hp => ?_
    have hr : p.role = .regular := by simpa [Param.implicit] using hregs.regular p hp
    simp [hr]
  -- the last parameter is variadic only when it is the last regular one
  have hvar : m.variadicParam? = regs.getLast?.filter (·.variadic) := by
    have hlast : m.params.getLast? = regs.getLast?.or imps.getLast? := by
      rw [← hsplit, List.getLast?_append]
    rw [Method.variadicParam?, hlast]
    cases hr : regs.getLast? with
    | some q => cases hq : q.variadic <;> simp [hq, Option.filter]
    | none =>
      cases hi : imps.getLast? with
      | none => rfl
      | some q =>
        have hq : q.variadic = false :=
          (h.shape.implicit_plain q (hsplit ▸ List.mem_append_left _ (List.mem_of_getLast? hi))
            (himps q (List.mem_of_getLast? hi))).2
        simp [hq, Option.filter]
  refine ⟨imps, himps, ?_, ?_⟩ <;> rw [hfixed, hvar, ← hregs.eq_fixed_append]
  · exact hsplit.symm
  · exact hregs

end Method.Registered

/-! ## The ranks asked for -/

namespace TypeTable

/-- `ρ` lists the ranks that scoring `m` asks of the type table for the arguments, in order:
each argument against the fixed parameter at its place while both last, then, when `m` has a
variadic parameter, each later argument against its element type. -/
def RanksOf (tt : TypeTable) (m : Method) (args : List Argument) (ρ : List Rank) : Prop :=
  ∃ ρ₁ ρ₂, ρ = ρ₁ ++ ρ₂ ∧
    List.Forall₂ (fun (ap : Argument × Param) r => tt.rank ap.1.type ap.2.type = .ok r)
      (args.zip m.fixedParams) ρ₁ ∧
    match m.variadicParam? with
    | none => ρ₂ = []
    | some v => ∃ e, tt.elementType v.type = .ok e ∧
        List.Forall₂ (fun a r => tt.rank a.type e = .ok r) (args.drop m.fixedParams.length) ρ₂

end TypeTable

namespace Except

variable {ε α β : Type}

/-- What a list mapped through a computation gives, element by element. -/
theorem forall₂_of_mapM_eq_ok {f : α → Except ε β} :
    ∀ {l : List α} {r : List β}, l.mapM f = .ok r → List.Forall₂ (fun a b => f a = .ok b) l r
  | [], r, h => by
    simp only [List.mapM_nil, pure_eq, Except.ok.injEq] at h
    subst h
    exact .nil
  | a :: l, r, h => by
    rw [List.mapM_cons] at h
    obtain ⟨b, hb, h⟩ := bind_eq_ok.1 h
    obtain ⟨bs, hbs, h⟩ := bind_eq_ok.1 h
    simp only [pure_eq, Except.ok.injEq] at h
    subst h
    exact .cons hb (forall₂_of_mapM_eq_ok hbs)

end Except

/-! ## The walk of the scorer -/

namespace Converter

variable (cv : Converter (Except Fault)) (el : Int → Except Fault Int)

/-- **The walk over the fixed parameters.** Each fixed parameter ranks the argument at its
place; once the arguments run out, a parameter without a default ends the walk with no fit, and
otherwise the walk goes on behind the fixed parameters with the arguments they left, noting
that a default was used when there were fewer arguments than fixed parameters. -/
theorem fitArgs_fixed_append {tail : List Param} :
    ∀ {ps : List Param}, (∀ p ∈ ps, p.implicit = false ∧ p.variadic = false) →
      ∀ {args : List Argument} {o : Option ArgFit}, cv.fitArgs el (ps ++ tail) args = .ok o →
        ∃ ρ₁, List.Forall₂ (fun (ap : Argument × Param) r => cv.rank ap.1.type ap.2.type = .ok r)
            (args.zip ps) ρ₁ ∧
          ((∃ p ∈ ps.drop args.length, p.optional = false) ∧ o = none ∨
            (∀ p ∈ ps.drop args.length, p.optional = true) ∧
              ∃ o', cv.fitArgs el tail (args.drop ps.length) = .ok o' ∧
                o = o'.map fun f =>
                  { f with
                    ranks := ρ₁ ++ f.ranks
                    usedDefault := f.usedDefault || decide (args.length < ps.length) })
  | [], _, args, o, h => by
    refine ⟨[], by simp, .inr ⟨by simp, o, by simpa using h, ?_⟩⟩
    cases o <;> simp
  | p :: ps, hps, args, o, h => by
    obtain ⟨hpi, hpv⟩ := hps p (by simp)
    have hps' : ∀ q ∈ ps, q.implicit = false ∧ q.variadic = false :=
      fun q hq => hps q (by simp [hq])
    cases args with
    | cons a more =>
      -- the parameter ranks the next argument
      simp only [List.cons_append, fitArgs, hpi, hpv, Bool.false_eq_true, if_false] at h
      obtain ⟨r, hr, h⟩ := Except.bind_eq_ok.1 h
      obtain ⟨rest, hrest, h⟩ := Except.bind_eq_ok.1 h
      simp only [Except.pure_eq, Except.ok.injEq] at h
      subst h
      obtain ⟨ρ₁, hρ₁, hcases⟩ := fitArgs_fixed_append hps' hrest
      refine ⟨r :: ρ₁, by rw [List.zip_cons_cons]; exact .cons hr hρ₁, ?_⟩
      rcases hcases with ⟨hreq, rfl⟩ | ⟨hopt, o', ho', rfl⟩
      · exact .inl ⟨by simpa using hreq, rfl⟩
      · refine .inr ⟨by simpa using hopt, o', by simpa using ho', ?_⟩
        cases o' <;> simp
    | nil =>
      -- no argument is left: the parameter needs its default
      by_cases hopt : p.optional
      · simp only [List.cons_append, fitArgs, hpi, hpv, Bool.false_eq_true, if_false, hopt,
          if_true] at h
        obtain ⟨rest, hrest, h⟩ := Except.bind_eq_ok.1 h
        simp only [Except.pure_eq, Except.ok.injEq] at h
        subst h
        obtain ⟨ρ₁, hρ₁, hcases⟩ := fitArgs_fixed_append hps' hrest
        have hρ : ρ₁ = [] := by simpa using hρ₁
        subst hρ
        refine ⟨[], by simp, ?_⟩
        rcases hcases with ⟨hreq, rfl⟩ | ⟨hopt', o', ho', rfl⟩
        · obtain ⟨q, hq, hqo⟩ := hreq
          exact .inl ⟨⟨q, by simp_all, hqo⟩, rfl⟩
        · refine .inr ⟨fun q hq => ?_, o', by simpa using ho', ?_⟩
          · rcases List.mem_cons.1 (by simpa using hq) with rfl | hq
            · exact hopt
            · exact hopt' q (by simpa using hq)
          · cases o' <;> simp
      · simp only [List.cons_append, fitArgs, hpi, hpv, Bool.false_eq_true, if_false, hopt,
          Except.pure_eq, Except.ok.injEq] at h
        subst h
        exact ⟨[], by simp, .inl ⟨⟨p, by simp, by simpa using hopt⟩, rfl⟩⟩

/-- With no parameter left, the arguments left over are counted. -/
theorem fitArgs_nil (args : List Argument) :
    cv.fitArgs el [] args = .ok (some ⟨[], args.length, false, false⟩) := rfl

/-- A variadic parameter ranks every argument left against its element type. -/
theorem fitArgs_variadic {v : Param} (hvi : v.implicit = false) (hvv : v.variadic = true)
    {args : List Argument} {o : Option ArgFit} (h : cv.fitArgs el [v] args = .ok o) :
    ∃ e ρ₂, el v.type = .ok e ∧ List.Forall₂ (fun a r => cv.rank a.type e = .ok r) args ρ₂ ∧
      o = some ⟨ρ₂, 0, false, true⟩ := by
  simp only [fitArgs, hvi, hvv, Bool.false_eq_true, if_false, if_true] at h
  obtain ⟨e, he, h⟩ := Except.bind_eq_ok.1 h
  obtain ⟨rs, hrs, h⟩ := Except.bind_eq_ok.1 h
  simp only [List.length_nil, Except.ok_bind, Except.pure_eq, Except.ok.injEq,
    Option.map_some, List.append_nil] at h
  exact ⟨e, rs, he, Except.forall₂_of_mapM_eq_ok hrs, h.symm⟩

end Converter

/-! ## Reading the score off the walk -/

namespace Rank

theorem max_exact_left (r : Rank) : Rank.max .exact r = r := by
  cases r <;> rfl

/-- Folding `Rank.max` keeps the start or picks a rank of the list. -/
theorem foldl_max_mem :
    ∀ (ρ : List Rank) (init : Rank), ρ.foldl Rank.max init = init ∨ ρ.foldl Rank.max init ∈ ρ
  | [], _ => .inl rfl
  | r :: ρ, init => by
    rw [List.foldl_cons]
    rcases foldl_max_mem ρ (Rank.max init r) with h | h
    · rw [h]
      unfold Rank.max
      split <;> simp
    · exact .inr (List.mem_cons_of_mem r h)

/-- Folding `Rank.max` gives a rank no better than the start and than every rank of the list. -/
theorem le_foldl_max :
    ∀ (ρ : List Rank) (init : Rank), init.toNat ≤ (ρ.foldl Rank.max init).toNat ∧
      ∀ r ∈ ρ, r.toNat ≤ (ρ.foldl Rank.max init).toNat
  | [], _ => ⟨Nat.le_refl _, by simp⟩
  | r :: ρ, init => by
    rw [List.foldl_cons]
    obtain ⟨h₀, h⟩ := le_foldl_max ρ (Rank.max init r)
    have hmax : init.toNat ≤ (Rank.max init r).toNat ∧ r.toNat ≤ (Rank.max init r).toNat := by
      unfold Rank.max
      split <;> omega
    refine ⟨Nat.le_trans hmax.1 h₀, fun x hx => ?_⟩
    rcases List.mem_cons.1 hx with rfl | hx
    · exact Nat.le_trans hmax.2 h₀
    · exact h x hx

/-- Folding `Rank.max` from `exact` gives the worst rank of the list, and `exact` for the empty
one. -/
theorem foldl_max_exact (ρ : List Rank) :
    (∀ r ∈ ρ, r.toNat ≤ (ρ.foldl Rank.max .exact).toNat) ∧
      (ρ.foldl Rank.max .exact ∈ ρ ∨ ρ = [] ∧ ρ.foldl Rank.max .exact = .exact) := by
  refine ⟨(le_foldl_max ρ .exact).2, ?_⟩
  cases ρ with
  | nil => exact .inr ⟨rfl, rfl⟩
  | cons r ρ =>
    -- starting from `exact` is starting from the first rank
    rw [List.foldl_cons, max_exact_left]
    rcases foldl_max_mem ρ r with h | h
    · rw [h]
      exact .inl List.mem_cons_self
    · exact .inl (List.mem_cons_of_mem r h)

theorem foldl_total (ρ : List Rank) (acc : Nat) :
    ρ.foldl (fun acc r => acc + r.toNat) acc = acc + (ρ.map Rank.toNat).sum := by
  induction ρ generalizing acc with
  | nil => simp
  | cons r ρ ih =>
    rw [List.foldl_cons, ih, List.map_cons, List.sum_cons]
    omega

end Rank

/-- A walk that ranked no argument impossible has the score of its flags and ranks. -/
theorem ArgFit.score_eq_some {f : ArgFit} {s : Score} :
    f.score = some s ↔ Rank.impossible ∉ f.ranks ∧
      s = ⟨if 0 < f.leftover then .excess else if f.usedVariadic then .variadic
          else if f.usedDefault then .defaults else .exact,
        f.ranks.foldl Rank.max .exact, f.ranks.foldl (fun acc r => acc + r.toNat) 0⟩ := by
  unfold ArgFit.score
  by_cases h : Rank.impossible ∈ f.ranks
  · simp [h]
  · have hc : f.ranks.contains .impossible = false := by simpa using h
    simp only [hc, Bool.false_eq_true, if_false, Option.some.injEq, h, not_false_eq_true,
      true_and]
    exact eq_comm

/-- The last parameter, when it is variadic. -/
theorem Method.variadicParam?_eq_some {m : Method} {v : Param} (h : m.variadicParam? = some v) :
    v ∈ m.params ∧ v.variadic = true := by
  unfold Method.variadicParam? at h
  split at h
  · rename_i p hp
    split at h
    · cases h
      exact ⟨List.mem_of_getLast? hp, ‹_›⟩
    · cases h
  · cases h

namespace TypeTable

variable {tt : TypeTable}

/-- An array type has an element type. -/
theorem elementType_of_isArray {t : Int} (h : tt.isArray t = .ok true) :
    ∃ e, tt.elementType t = .ok e := by
  unfold isArray at h
  cases hg : tt.get t with
  | error f => simp [hg, Except.map] at h
  | ok d =>
    simp only [hg, Except.map, Except.ok.injEq] at h
    cases hd : d.shape with
    | arrayOf e => exact ⟨e, elementType_eq_ok.2 ⟨d, get_eq_ok.1 hg, hd⟩⟩
    | _ => simp [hd, TypeShape.isArray] at h

variable {mt mt' : MethodTable} {tt₀ : TypeTable} {cfg : ImplicitConfig} {d : MethodDecl}
  {m : Method}

/-- **The score of a registered method.** Take a method that registration stored and a type
table that has every type of the one it was registered with, and score the method for some
arguments without a fault. Let `ρ` be the ranks that scoring asks for. There is no score exactly
when a fixed parameter beyond the arguments has no default or a rank of `ρ` is `impossible`.
A score has the arity fit `variadic` when the method has a variadic parameter, and otherwise
`exact`, `defaults` or `excess` as the arguments are as many as, fewer or more than the fixed
parameters; its worst rank is the worst of `ρ`, `exact` when `ρ` is empty; its total is the sum
of the ranks of `ρ`. -/
theorem score_by_ranks (hreg : mt.add tt₀ cfg d = .ok (mt', m)) (hext : tt₀.Extends tt)
    {args : List Argument} {o : Option Score} (hscore : tt.score m args = .ok o) :
    ∃ ρ, tt.RanksOf m args ρ ∧
      (o = none ↔ (∃ p ∈ m.fixedParams.drop args.length, p.optional = false) ∨
        .impossible ∈ ρ) ∧
      ∀ s, o = some s →
        s.arity = (if m.variadicParam?.isSome then .variadic
          else if args.length = m.fixedParams.length then .exact
          else if args.length < m.fixedParams.length then .defaults else .excess) ∧
        (∀ r ∈ ρ, r.toNat ≤ s.worst.toNat) ∧ (s.worst ∈ ρ ∨ ρ = [] ∧ s.worst = .exact) ∧
        s.total = (ρ.map Rank.toNat).sum := by
  have hm : m.Registered cfg tt := (MethodTable.registered_of_add hreg).extend hext
  obtain ⟨imps, himps, hparams, hregs⟩ := hm.params_split
  -- the score comes from the fixed parameters and the variadic one alone
  obtain ⟨o₀, hfit, rfl⟩ : ∃ o₀, tt.converter.fitArgs tt.elementType
      (m.fixedParams ++ m.variadicParam?.toList) args = .ok o₀ ∧ o = o₀.bind ArgFit.score := by
    rw [TypeTable.score, Converter.score_eq, hparams,
      Converter.fitArgs_implicit_append _ _ himps, Except.map_eq_ok] at hscore
    obtain ⟨o₀, h₀, rfl⟩ := hscore
    exact ⟨o₀, h₀, rfl⟩
  have hfixed : ∀ p ∈ m.fixedParams, p.implicit = false ∧ p.variadic = false := by
    intro p hp
    refine ⟨hregs.regular p (List.mem_append_left _ hp), ?_⟩
    exact (by simpa [Method.fixedParams] using (List.mem_filter.1 hp).2 :
      p.role = .regular ∧ p.variadic = false).2
  obtain ⟨ρ₁, hρ₁, hcases⟩ := tt.converter.fitArgs_fixed_append tt.elementType hfixed hfit
  rcases hcases with ⟨hreq, rfl⟩ | ⟨hopt, o', ho', rfl⟩
  · -- a fixed parameter beyond the arguments has no default: no score, and no argument is
    -- left for a variadic parameter
    have hshort : args.length < m.fixedParams.length := by
      obtain ⟨p, hp, -⟩ := hreq
      have := List.length_pos_of_mem hp
      rw [List.length_drop] at this
      omega
    refine ⟨ρ₁, ⟨ρ₁, [], by simp, hρ₁, ?_⟩, by simp [hreq], by simp⟩
    cases hv : m.variadicParam? with
    | none => rfl
    | some v =>
      obtain ⟨hvm, hvv⟩ := Method.variadicParam?_eq_some hv
      obtain ⟨e, he⟩ := elementType_of_isArray (hm.variadic_array v hvm hvv)
      exact ⟨e, he, by rw [List.drop_eq_nil_of_le hshort.le]; exact .nil⟩
  · have hnone : ¬∃ p ∈ m.fixedParams.drop args.length, p.optional = false := by
      rintro ⟨p, hp, hpo⟩
      simp [hopt p hp] at hpo
    cases hv : m.variadicParam? with
    | none =>
      -- no variadic parameter: the arguments beyond the fixed parameters are left over
      rw [hv, Option.toList_none, Converter.fitArgs_nil, Except.ok.injEq] at ho'
      subst ho'
      refine ⟨ρ₁, ⟨ρ₁, [], by simp, hρ₁, by rw [hv]⟩, ?_, fun s hs => ?_⟩
      · simp [hnone, ArgFit.score_eq_none_iff]
      · obtain ⟨-, rfl⟩ := ArgFit.score_eq_some.1 (by simpa using hs)
        refine ⟨?_, by simpa using (Rank.foldl_max_exact ρ₁).1, by simpa using
          (Rank.foldl_max_exact ρ₁).2, by simp [Rank.foldl_total]⟩
        simp only [Option.isSome_none, Bool.false_eq_true, if_false, decide_eq_true_eq]
        rcases Nat.lt_trichotomy args.length m.fixedParams.length with h | h | h
        · simp [h, Nat.ne_of_lt h, Nat.sub_eq_zero_of_le h.le]
        · simp [h]
        · simp [h, Nat.not_lt_of_gt h, Nat.ne_of_gt h]
    | some v =>
      -- the variadic parameter ranks every argument beyond the fixed parameters
      obtain ⟨hvm, hvv⟩ := Method.variadicParam?_eq_some hv
      have hvi : v.implicit = false := hregs.regular v (by simp [hv])
      rw [hv, Option.toList_some] at ho'
      obtain ⟨e, ρ₂, he, hρ₂, rfl⟩ := tt.converter.fitArgs_variadic tt.elementType hvi hvv ho'
      refine ⟨ρ₁ ++ ρ₂, ⟨ρ₁, ρ₂, rfl, hρ₁, by rw [hv]; exact ⟨e, he, hρ₂⟩⟩, ?_, fun s hs => ?_⟩
      · simp [hnone, ArgFit.score_eq_none_iff]
      · obtain ⟨-, rfl⟩ := ArgFit.score_eq_some.1 (by simpa using hs)
        exact ⟨by simp, (Rank.foldl_max_exact _).1, (Rank.foldl_max_exact _).2,
          by simp [Rank.foldl_total]⟩

end TypeTable

end CallSite

namespace CallSite.TypeTable

/-- A method with an `Int` parameter with a default and a variadic `Int[]` one, registered on a
fresh host with `Int` (id 4) and `Int[]` (id 5), and scored for two `Int` arguments. -/
theorem score_by_ranks_of_variadic :
    let tt := (((Host.fresh).apply (.types (.known .int))).apply (.types (.array 4))).types
    let m : Method := ⟨7, "f", 4,
      [⟨0, "x", 4, some (.int 0), false, .regular⟩, ⟨1, "rest", 5, none, true, .regular⟩],
      false, .publicAccess, none⟩
    let args : List Argument := [⟨.int 5, 4⟩, ⟨.int 6, 4⟩]
    let o : Option Score := some ⟨.variadic, .exact, 0⟩
    MethodTable.empty.add tt (Host.fresh).config
        { id := 7, name := "f", declaring := 4,
          params := [{ name := "x", type := 4, default := some (.int 0) },
            { name := "rest", type := 5, variadic := true }] } = .ok (⟨#[m]⟩, m) ∧
      tt.Extends tt ∧ tt.score m args = .ok o ∧
      ∃ ρ, tt.RanksOf m args ρ ∧
        (o = none ↔ (∃ p ∈ m.fixedParams.drop args.length, p.optional = false) ∨
          .impossible ∈ ρ) ∧
        ∀ s, o = some s →
          s.arity = (if m.variadicParam?.isSome then .variadic
            else if args.length = m.fixedParams.length then .exact
            else if args.length < m.fixedParams.length then .defaults else .excess) ∧
          (∀ r ∈ ρ, r.toNat ≤ s.worst.toNat) ∧ (s.worst ∈ ρ ∨ ρ = [] ∧ s.worst = .exact) ∧
          s.total = (ρ.map Rank.toNat).sum := by
  intro tt m args o
  have hreg : MethodTable.empty.add tt (Host.fresh).config
      { id := 7, name := "f", declaring := 4,
        params := [{ name := "x", type := 4, default := some (.int 0) },
          { name := "rest", type := 5, variadic := true }] } = .ok (⟨#[m]⟩, m) := rfl
  have hscore : tt.score m args = .ok o := rfl
  exact ⟨hreg, Extends.refl tt, hscore, score_by_ranks hreg (Extends.refl tt) hscore⟩

end CallSite.TypeTable
