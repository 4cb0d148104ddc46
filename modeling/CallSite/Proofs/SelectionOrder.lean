import Mathlib
import CallSite.Proofs.BestOverload
import CallSite.Proofs.Registry
import CallSite.Proofs.Subtyping
import CallSite.Proofs.Scoring

/-!
# Selection does not depend on the order of the candidates

`TypeTable.selectBest` builds lists in the order of its candidates: the scored ones, the tied
ones and the winners of the tie-break, and it names an ambiguity after the first tied candidate
when the call has no name. Its answer still depends only on which candidates there are, each as
often as it is listed: the least key is a property of the set of scores, the tie-break keeps a
tied candidate by a test over the set of tied candidates, and an ambiguity counts the tied ones.
The order could show only through a look-up fault, which stops the walk at the first candidate
that has one, and through the name of an ambiguity when the call has none.

* When every look-up runs without a fault, selection under a non-empty name gives the same
  result for every order of the candidates (`TypeTable.selectBest_perm`).
* On a host built by a run, a look-up of a registered method's parameter types and of the
  argument types faults only on an id that names no type, so for registered candidates whose
  parameter and argument types all name types, selection does not depend on the order of the
  candidates (`Host.Reachable.selectBest_perm_eq`).
-/

namespace CallSite

/-! ## Monadic list functions whose every step succeeds -/

namespace Except

variable {ε α γ : Type}

/-- A monadic map whose every step succeeds succeeds. -/
theorem mapM_ok_of_forall {f : γ → Except ε α} :
    ∀ {l : List γ}, (∀ c ∈ l, ∃ a, f c = .ok a) → ∃ r, l.mapM f = .ok r
  | [], _ => ⟨[], rfl⟩
  | c :: l, h => by
    obtain ⟨a, ha⟩ := h c List.mem_cons_self
    obtain ⟨r, hr⟩ := mapM_ok_of_forall fun c' hc' => h c' (List.mem_cons_of_mem c hc')
    exact ⟨a :: r, by rw [List.mapM_cons, ha, ok_bind, hr, ok_bind]; rfl⟩

/-- A monadic `all` whose every test succeeds computes the plain one. -/
theorem allM_eq_ok_all {p : γ → Except ε Bool} {q : γ → Bool} :
    ∀ {l : List γ}, (∀ c ∈ l, p c = .ok (q c)) → l.allM p = .ok (l.all q)
  | [], _ => rfl
  | c :: l, h => by
    rw [List.allM_cons, h c List.mem_cons_self, ok_bind, List.all_cons]
    cases q c with
    | false => rfl
    | true => exact allM_eq_ok_all fun c' hc' => h c' (List.mem_cons_of_mem c hc')

theorem filterAuxM_eq_ok_of_forall {p : γ → Except ε Bool} {q : γ → Bool} :
    ∀ {l : List γ} (acc : List γ), (∀ c ∈ l, p c = .ok (q c)) →
      l.filterAuxM p acc = .ok ((l.filter q).reverse ++ acc)
  | [], _, _ => rfl
  | c :: l, acc, h => by
    simp only [List.filterAuxM, h c List.mem_cons_self, ok_bind]
    rw [filterAuxM_eq_ok_of_forall _ fun c' hc' => h c' (List.mem_cons_of_mem c hc')]
    cases hq : q c <;> simp [hq]

/-- A monadic filter whose every test succeeds computes the plain one. -/
theorem filterM_eq_ok_of_forall {p : γ → Except ε Bool} {q : γ → Bool} {l : List γ}
    (h : ∀ c ∈ l, p c = .ok (q c)) : l.filterM p = .ok (l.filter q) := by
  simp [List.filterM, filterAuxM_eq_ok_of_forall [] h]

end Except

/-! ## Look-ups of types that the table has -/

namespace TypeTable

variable {tt : TypeTable}

/-- The subtype test between two types of the table runs without a fault. -/
theorem isSubtype_ok {a b : Int} (ha : (tt.find? a).isSome) (hb : (tt.find? b).isSome) :
    ∃ x, tt.isSubtype a b = .ok x := by
  cases h : tt.isSubtype a b with
  | ok x => exact ⟨x, rfl⟩
  | error e =>
    obtain ⟨-, ⟨hb', -⟩ | ⟨-, ha', -⟩⟩ := isSubtype_eq_error_iff.1 h
    · simp [hb'] at hb
    · simp [ha'] at ha

/-- The rank between two types of the table is found without a fault. -/
theorem rank_ok {s t : Int} (hs : (tt.find? s).isSome) (ht : (tt.find? t).isSome) :
    ∃ r, tt.rank s t = .ok r := by
  obtain ⟨ds, hds⟩ := Option.isSome_iff_exists.1 hs
  obtain ⟨dt, hdt⟩ := Option.isSome_iff_exists.1 ht
  obtain ⟨x, hx⟩ := isSubtype_ok hs ht
  cases h : tt.rank s t with
  | ok r => exact ⟨r, rfl⟩
  | error e =>
    -- past the subtype test only the two looked-up types can fail, and both are there
    simp only [rank] at h
    split at h
    · cases h
    · simp only [hx, Except.ok_bind, get_eq_ok.2 hds, get_eq_ok.2 hdt] at h
      split at h <;> [cases h; split at h <;> cases h]

end TypeTable

/-- Walking the parameters along the arguments runs without a fault when every rank it may ask
of an argument, against a parameter type or an element type that is `Good`, is found, and every
element type it asks for is found and `Good`. The induction follows the walk, the arguments
left being always among the given ones. -/
theorem Converter.fitArgs_ok (cv : Converter (Except Fault)) (el : Int → Except Fault Int)
    (Good : Int → Prop) :
    ∀ (ps : List Param) (args : List Argument),
      (∀ p ∈ ps, p.implicit = false → p.variadic = false → Good p.type) →
      (∀ p ∈ ps, p.implicit = false → p.variadic = true → ∃ e, el p.type = .ok e ∧ Good e) →
      (∀ a ∈ args, ∀ t, Good t → ∃ r, cv.rank a.type t = .ok r) →
      ∃ o, cv.fitArgs el ps args = .ok o
  | [], _, _, _, _ => ⟨_, rfl⟩
  | p :: ps, args, hfix, hvar, hrank => by
    have ih := fun args' => fitArgs_ok cv el Good ps args'
      (fun q hq => hfix q (List.mem_cons_of_mem p hq))
      (fun q hq => hvar q (List.mem_cons_of_mem p hq))
    simp only [Converter.fitArgs]
    by_cases hi : p.implicit = true
    · rw [if_pos hi]
      exact ih args hrank
    rw [if_neg hi]
    have hi' : p.implicit = false := by simpa using hi
    by_cases hv : p.variadic = true
    · -- a variadic parameter ranks every argument left against its element type
      rw [if_pos hv]
      obtain ⟨e, he, hgood⟩ := hvar p List.mem_cons_self hi' hv
      obtain ⟨rs, hrs⟩ := Except.mapM_ok_of_forall fun a ha => hrank a ha e hgood
      obtain ⟨o, ho⟩ := ih [] (by simp)
      exact ⟨_, by rw [he, Except.ok_bind, hrs, Except.ok_bind, ho, Except.ok_bind]; rfl⟩
    rw [if_neg hv]
    cases args with
    | cons a more =>
      dsimp only
      obtain ⟨r, hr⟩ := hrank a List.mem_cons_self p.type
        (hfix p List.mem_cons_self hi' (by simpa using hv))
      obtain ⟨o, ho⟩ := ih more fun a' ha' => hrank a' (List.mem_cons_of_mem a ha')
      exact ⟨_, by rw [hr, Except.ok_bind, ho, Except.ok_bind]; rfl⟩
    | nil =>
      dsimp only
      split
      · obtain ⟨o, ho⟩ := ih [] (by simp)
        exact ⟨_, by rw [ho, Except.ok_bind]; rfl⟩
      · exact ⟨_, rfl⟩

namespace TypeTable

variable {tt : TypeTable} {cfg : ImplicitConfig} {m a b : Method} {args : List Argument}

/-- A registered method whose parameter types the table has is scored without a fault for
arguments whose types the table has: a variadic parameter has an array type, whose element
type the table has too. -/
theorem score_ok (hreg : m.Registered cfg tt)
    (hparams : ∀ p ∈ m.params, (tt.find? p.type).isSome)
    (hargs : ∀ x ∈ args, (tt.find? x.type).isSome) : ∃ o, tt.score m args = .ok o := by
  have hvar : ∀ p ∈ m.params, p.implicit = false → p.variadic = true →
      ∃ e, tt.elementType p.type = .ok e ∧ (tt.find? e).isSome := by
    intro p hp _ hv
    obtain ⟨e, he⟩ := elementType_of_isArray (hreg.variadic_array p hp hv)
    obtain ⟨d, hd, hshape⟩ := elementType_eq_ok.1 he
    exact ⟨e, he, (find?_refs hd (by simp [hshape, TypeShape.refs])).2.2⟩
  obtain ⟨o, ho⟩ := tt.converter.fitArgs_ok tt.elementType (fun t => (tt.find? t).isSome)
    m.params args (fun p hp _ _ => hparams p hp) hvar
    (fun x hx t ht => rank_ok (hargs x hx) ht)
  exact ⟨_, by rw [score, Converter.score_eq, ho]; rfl⟩

/-- The specificity test between two methods whose parameter types the table has runs without
a fault. -/
theorem moreSpecific_ok (ha : ∀ p ∈ a.params, (tt.find? p.type).isSome)
    (hb : ∀ p ∈ b.params, (tt.find? p.type).isSome) : ∃ x, tt.moreSpecific a b = .ok x := by
  -- the two types of a pair of regular parameters are types of the table
  have hpair : ∀ x y, (x, y) ∈ a.regularParams.zip b.regularParams →
      (tt.find? x.type).isSome ∧ (tt.find? y.type).isSome := fun x y hxy =>
    ⟨ha x (List.mem_filter.1 (List.of_mem_zip hxy).1).1,
      hb y (List.mem_filter.1 (List.of_mem_zip hxy).2).1⟩
  unfold moreSpecific
  dsimp only
  split
  · exact ⟨_, rfl⟩
  · refine ⟨_, Except.bind_eq_ok.2 ⟨_, Except.allM_eq_ok_all
      (q := fun q => (tt.isSubtype q.1.type q.2.type).toOption.getD false) ?_,
      Except.bind_eq_ok.2 ⟨_, Except.allM_eq_ok_all
        (q := fun q => (tt.isSubtype q.2.type q.1.type).toOption.getD false) ?_, rfl⟩⟩⟩
    all_goals
      rintro ⟨x, y⟩ hxy
      obtain ⟨hx, hy⟩ := hpair x y hxy
    · obtain ⟨u, hu⟩ := isSubtype_ok hx hy
      simp [hu, Except.toOption]
    · obtain ⟨v, hv⟩ := isSubtype_ok hy hx
      simp [hv, Except.toOption]

/-! ## Reordering the candidates -/

variable {ms ms' : List Method} {name : String}

/-- Which candidates have the least key does not depend on their order. -/
theorem isBest_perm (hperm : ms.Perm ms') : tt.isBest ms' args = tt.isBest ms args := by
  funext m
  unfold isBest
  split
  · exact hperm.symm.all_eq
  · rfl

/-- Reordering the candidates reorders the tied ones. -/
theorem tied_perm (hperm : ms.Perm ms') : (tt.tied ms' args).Perm (tt.tied ms args) := by
  unfold tied
  rw [isBest_perm hperm]
  exact hperm.symm.filter _

/-- With every specificity test among them running without a fault, the winners of the
tie-break are the tied candidates that pass the test against every entry with another id. -/
theorem tieWinners_eq {T : List Method} (spec : Method → Method → Bool)
    (hspec : ∀ a ∈ T, ∀ b ∈ T, tt.moreSpecific a b = .ok (spec a b)) :
    tt.tieWinners T = .ok (T.filter fun a =>
      T.all fun b => if b.id = a.id then true else spec a b) := by
  refine Except.filterM_eq_ok_of_forall fun a ha => Except.allM_eq_ok_all fun b hb => ?_
  split
  · rfl
  · exact hspec a ha b hb

/-- With every specificity test among them running without a fault, reordering the tied
candidates reorders the winners of the tie-break. -/
theorem tieWinners_perm {T T' : List Method} (hperm : T.Perm T')
    (hspec : ∀ a ∈ T, ∀ b ∈ T, ∃ x, tt.moreSpecific a b = .ok x) :
    ∃ W W', tt.tieWinners T = .ok W ∧ tt.tieWinners T' = .ok W' ∧ W.Perm W' := by
  let spec : Method → Method → Bool := fun a b => (tt.moreSpecific a b).toOption.getD false
  have hspec' : ∀ a ∈ T, ∀ b ∈ T, tt.moreSpecific a b = .ok (spec a b) := by
    intro a ha b hb
    obtain ⟨x, hx⟩ := hspec a ha b hb
    simp [spec, hx, Except.toOption]
  -- a candidate passes by a test over the members of the list, which both orders share
  have hpass : (fun a => T'.all fun b => if b.id = a.id then true else spec a b) =
      fun a => T.all fun b => if b.id = a.id then true else spec a b :=
    funext fun a => hperm.symm.all_eq
  refine ⟨_, _, tieWinners_eq spec hspec', tieWinners_eq spec fun a ha b hb =>
    hspec' a (hperm.mem_iff.2 ha) b (hperm.mem_iff.2 hb), ?_⟩
  rw [hpass]
  exact hperm.filter _

/-- **The tie-break does not depend on the order of the tied candidates**, when every
specificity test among them runs without a fault and the call has a name. -/
theorem tieBreak_perm {T T' : List Method} (hperm : T.Perm T')
    (hspec : ∀ a ∈ T, ∀ b ∈ T, ∃ x, tt.moreSpecific a b = .ok x) (hname : name ≠ "") :
    tt.tieBreak T' name = tt.tieBreak T name := by
  by_cases hone : ∃ w, T = [w]
  · obtain ⟨w, rfl⟩ := hone
    rw [← List.singleton_perm.1 hperm]
  simp only [not_exists] at hone
  have hone' : ∀ w, T' ≠ [w] := fun w hw => hone w (List.perm_singleton.1 (hperm.trans (.of_eq hw)))
  obtain ⟨W, W', hW, hW', hWW⟩ := tieWinners_perm hperm hspec
  obtain ⟨hwon, hamb⟩ := tieBreak_of_winners name hone hW
  obtain ⟨hwon', hamb'⟩ := tieBreak_of_winners name hone' hW'
  by_cases hw : ∃ w, W = [w]
  · obtain ⟨w, rfl⟩ := hw
    rw [hwon w rfl, hwon' w (List.singleton_perm.1 hWW).symm]
  · simp only [not_exists] at hw
    -- both are ambiguous, under the call's name and with as many tied candidates
    rw [hamb hw, hamb' fun w h => hw w (List.perm_singleton.1 (hWW.trans (.of_eq h))),
      hperm.length_eq]
    simp [String.isEmpty_iff, hname]

/-- **Selection does not depend on the order of the candidates**, when every candidate is
scored and every specificity test runs without a fault, and the call has a name. -/
theorem selectBest_perm (hperm : ms.Perm ms')
    (hscore : ∀ m ∈ ms, ∃ o, tt.score m args = .ok o)
    (hspec : ∀ a ∈ ms, ∀ b ∈ ms, ∃ x, tt.moreSpecific a b = .ok x) (hname : name ≠ "") :
    tt.selectBest ms' args name = tt.selectBest ms args name := by
  let sc : Method → Option Score := fun m => (tt.score m args).toOption.join
  have hsc : ∀ m ∈ ms, tt.score m args = .ok (sc m) := by
    intro m hm
    obtain ⟨o, ho⟩ := hscore m hm
    simp [sc, ho, Except.toOption]
  have hsc' : ∀ m ∈ ms', tt.score m args = .ok (sc m) := fun m hm => hsc m (hperm.mem_iff.2 hm)
  by_cases hany : ∃ m ∈ ms, (sc m).isSome
  · -- both select among the tied candidates, which are the same up to order
    have hany' : ∃ m ∈ ms', (sc m).isSome := by
      obtain ⟨m, hm, hs⟩ := hany
      exact ⟨m, hperm.mem_iff.1 hm, hs⟩
    rw [(selectBest_eq_tieBreak hsc hany).1, (selectBest_eq_tieBreak hsc' hany').1]
    have hT : ∀ m ∈ tt.tied ms args, m ∈ ms := fun m hm => (List.mem_filter.1 hm).1
    exact tieBreak_perm (tied_perm hperm).symm
      (fun a ha b hb => hspec a (hT a ha) b (hT b hb)) hname
  · -- no candidate is applicable, in either order
    have hnone : ∀ m ∈ ms, tt.score m args = .ok none := fun m hm => by
      rw [hsc m hm, Option.not_isSome_iff_eq_none.1 fun h => hany ⟨m, hm, h⟩]
    rw [tt.selectBest_eq_noApplicable.2 ⟨rfl, hnone⟩,
      tt.selectBest_eq_noApplicable.2 ⟨rfl, fun m hm => hnone m (hperm.mem_iff.2 hm)⟩]

end TypeTable

/-! ## Selection on a host -/

namespace Host

variable {h : Host} {ms ms' : List Method} {args : List Argument} {name : String}

/-- **Overload resolution does not depend on the order of the candidates.** On a host built by a
run, take registered candidates whose parameter types all name types of the table, and
arguments whose types do too. Under a non-empty name, selection gives the same winner, or the
same fault with the same name and count, for every order of the candidates. -/
theorem Reachable.selectBest_perm_eq (hr : h.Reachable) (hperm : ms.Perm ms')
    (hstored : ∀ m ∈ ms, m ∈ h.methods.toList)
    (hparams : ∀ m ∈ ms, ∀ p ∈ m.params, (h.types.find? p.type).isSome)
    (hargs : ∀ x ∈ args, (h.types.find? x.type).isSome) (hname : name ≠ "") :
    h.types.selectBest ms' args name = h.types.selectBest ms args name := by
  have hreg := hr.nodup_registered.2
  exact TypeTable.selectBest_perm hperm
    (fun m hm => TypeTable.score_ok (hreg m (hstored m hm)) (hparams m hm) hargs)
    (fun a ha b hb => TypeTable.moreSpecific_ok (hparams a ha) (hparams b hb)) hname

/-- Overloads `f(Int)` (id 7) and `f(Mixed)` (id 8) registered on `Int` (id 4) of a fresh host
with `Int` and `Mixed` (id 5): selecting for one `Int` argument gives the same answer in either
order. -/
theorem selectBest_perm_eq_of_two_overloads :
    let h := ((((Host.fresh).apply (.types (.known .int))).apply (.types (.known .mixed))).apply
      (.register
        { id := 7, name := "f", declaring := 4, params := [{ name := "x", type := 4 }] })).apply
      (.register { id := 8, name := "f", declaring := 4, params := [{ name := "x", type := 5 }] })
    let a : Method := ⟨7, "f", 4, [⟨0, "x", 4, none, false, .regular⟩], false, .publicAccess, none⟩
    let b : Method := ⟨8, "f", 4, [⟨0, "x", 5, none, false, .regular⟩], false, .publicAccess, none⟩
    let args : List Argument := [⟨.int 5, 4⟩]
    h.Reachable ∧ [a, b].Perm [b, a] ∧ (∀ m ∈ [a, b], m ∈ h.methods.toList) ∧
      (∀ m ∈ [a, b], ∀ p ∈ m.params, (h.types.find? p.type).isSome) ∧
      (∀ x ∈ args, (h.types.find? x.type).isSome) ∧ "f" ≠ "" ∧
      h.types.selectBest [b, a] args "f" = h.types.selectBest [a, b] args "f" := by
  intro h a b args
  have hr : h.Reachable := .step _ (.step _ (.step _ (.step _ (.init _ _))))
  have hperm : [a, b].Perm [b, a] := .swap b a []
  have hlist : h.methods.toList = [a, b] := rfl
  have hstored : ∀ m ∈ [a, b], m ∈ h.methods.toList := fun m hm => hlist ▸ hm
  have hparams : ∀ m ∈ [a, b], ∀ p ∈ m.params, (h.types.find? p.type).isSome := by
    simp only [List.mem_cons, List.not_mem_nil, or_false, forall_eq_or_imp, forall_eq]
    exact ⟨fun p hp => by rw [List.mem_singleton.1 hp]; rfl,
      fun p hp => by rw [List.mem_singleton.1 hp]; rfl⟩
  have hargs : ∀ x ∈ args, (h.types.find? x.type).isSome := fun x hx => by
    rw [List.mem_singleton.1 hx]
    rfl
  have hname : "f" ≠ "" := by decide
  exact ⟨hr, hperm, hstored, hparams, hargs, hname,
    hr.selectBest_perm_eq hperm hstored hparams hargs hname⟩

end Host

end CallSite
