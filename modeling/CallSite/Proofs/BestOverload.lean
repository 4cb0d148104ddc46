import Mathlib
import CallSite.Proofs.Selection

/-!
# The overload that selection picks

`TypeTable.selectBest` scores the candidates, keeps those with the best score and breaks a tie
by specificity. This module states its answer without the fold and the filters that compute
it. Scores are compared by their key (`Score.key`): the arity fit, then the worst rank, then
the total, lexicographically. The tied candidates (`TypeTable.tied`) are the applicable ones
whose key is the least of all applicable candidates, in their order. A candidate is more
specific than another (`TypeTable.MoreSpecific`) when both have as many regular parameters,
each of its parameter types is a subtype of the other's at the same place, and not each of
the other's of its.

Then, when selection runs without a fault of the type table and no candidate is listed twice
(`TypeTable.selectBest_picks_most_specific`):

* it reports no applicable overload exactly when no candidate is applicable;
* it picks `w` exactly when `w` is tied and more specific than every other tied candidate;
* it reports an ambiguity, named after the call or else after the first tied candidate and
  counting the tied ones, when some candidate is applicable but no tied candidate is more
  specific than all the others.

More specific is asymmetric (`TypeTable.MoreSpecific.asymm`), so at most one tied candidate can
be more specific than all the others.
-/

namespace CallSite

/-! ## Monadic list functions that succeed -/

namespace Except

variable {ε α γ : Type}

/-- A computation whose every fault satisfies `P`, and none of whose faults does, succeeds. -/
theorem FailsOnly.exists_ok {P : ε → Prop} {x : Except ε α} (h : FailsOnly P x)
    (hx : ∀ e, x = .error e → ¬P e) : ∃ a, x = .ok a := by
  cases x with
  | error e => exact absurd (h e rfl) (hx e rfl)
  | ok a => exact ⟨a, rfl⟩

/-- A monadic `filterMap` that succeeds computed every element without a fault. -/
theorem filterMapM_eq_ok_forall {f : γ → Except ε (Option α)} :
    ∀ {l : List γ} {r : List α}, l.filterMapM f = .ok r → ∀ c ∈ l, ∃ o, f c = .ok o
  | [], _, _, c, hc => absurd hc List.not_mem_nil
  | c :: l, r, h, c', hc' => by
    rw [List.filterMapM_cons] at h
    obtain ⟨o, ho, h⟩ := bind_eq_ok.1 h
    rcases List.mem_cons.1 hc' with rfl | hc'
    · exact ⟨o, ho⟩
    · cases o with
      | none => exact filterMapM_eq_ok_forall h c' hc'
      | some b =>
        obtain ⟨r', hr', -⟩ := bind_eq_ok.1 h
        exact filterMapM_eq_ok_forall hr' c' hc'

/-- A monadic `filterMap` whose every element succeeds is the plain one. -/
theorem filterMapM_eq_ok_of_forall {f : γ → Except ε (Option α)} {g : γ → Option α} :
    ∀ {l : List γ}, (∀ c ∈ l, f c = .ok (g c)) → l.filterMapM f = .ok (l.filterMap g)
  | [], _ => rfl
  | c :: l, h => by
    rw [List.filterMapM_cons, h c List.mem_cons_self, ok_bind, List.filterMap_cons]
    have ih := filterMapM_eq_ok_of_forall (l := l) fun c' hc' => h c' (List.mem_cons_of_mem c hc')
    cases g c with
    | none => exact ih
    | some b => simp [ih]

/-- A monadic filter that succeeds from an accumulator computed every test, and put the kept
elements, last first, before the accumulator. -/
theorem filterAuxM_eq_ok_filter {p : γ → Except ε Bool} :
    ∀ {l acc r : List γ}, l.filterAuxM p acc = .ok r →
      (∀ c ∈ l, ∃ b, p c = .ok b) ∧ r = (l.filter fun c => (p c).toOption.getD false).reverse ++ acc
  | [], acc, r, h => by
    simp only [List.filterAuxM, pure_eq, Except.ok.injEq] at h
    simp [h]
  | c :: l, acc, r, h => by
    simp only [List.filterAuxM] at h
    obtain ⟨b, hb, h⟩ := bind_eq_ok.1 h
    obtain ⟨hall, rfl⟩ := filterAuxM_eq_ok_filter h
    refine ⟨fun c' hc' => ?_, ?_⟩
    · rcases List.mem_cons.1 hc' with rfl | hc'
      · exact ⟨b, hb⟩
      · exact hall c' hc'
    · cases b <;> simp [hb, Except.toOption]

/-- A monadic filter that succeeds computed every test, and kept the elements that passed, in
order. -/
theorem filterM_eq_ok_filter {p : γ → Except ε Bool} {l r : List γ} (h : l.filterM p = .ok r) :
    (∀ c ∈ l, ∃ b, p c = .ok b) ∧ r = l.filter fun c => (p c).toOption.getD false := by
  obtain ⟨r', hr', h⟩ := bind_eq_ok.1 h
  simp only [pure_eq, Except.ok.injEq] at h
  obtain ⟨hall, rfl⟩ := filterAuxM_eq_ok_filter hr'
  exact ⟨hall, by simp [← h]⟩

/-- A monadic `all` that holds found every test true. -/
theorem allM_eq_ok_true {p : γ → Except ε Bool} :
    ∀ {l : List γ}, l.allM p = .ok true → ∀ c ∈ l, p c = .ok true
  | [], _, c, hc => absurd hc List.not_mem_nil
  | c :: l, h, c', hc' => by
    rw [List.allM_cons] at h
    obtain ⟨b, hb, h⟩ := bind_eq_ok.1 h
    cases b with
    | false => simp at h
    | true =>
      rcases List.mem_cons.1 hc' with rfl | hc'
      · exact hb
      · exact allM_eq_ok_true h c' hc'

/-- A monadic `all` that fails without a fault found a test false. -/
theorem allM_eq_ok_false {p : γ → Except ε Bool} :
    ∀ {l : List γ}, l.allM p = .ok false → ∃ c ∈ l, p c = .ok false
  | [], h => by simp [List.allM] at h
  | c :: l, h => by
    rw [List.allM_cons] at h
    obtain ⟨b, hb, h⟩ := bind_eq_ok.1 h
    cases b with
    | false => exact ⟨c, List.mem_cons_self, hb⟩
    | true =>
      obtain ⟨c', hc', h'⟩ := allM_eq_ok_false (by simpa using h)
      exact ⟨c', List.mem_cons_of_mem c hc', h'⟩

/-- A monadic `all` that runs without a fault holds exactly when every test is true. -/
theorem allM_eq_ok_iff {p : γ → Except ε Bool} {l : List γ} {x : Bool} (h : l.allM p = .ok x) :
    x = true ↔ ∀ c ∈ l, p c = .ok true := by
  constructor
  · rintro rfl
    exact allM_eq_ok_true h
  · intro hall
    cases x with
    | true => rfl
    | false =>
      obtain ⟨c, hc, hf⟩ := allM_eq_ok_false h
      rw [hall c hc] at hf
      cases hf

end Except

/-! ## Comparing scores -/

namespace Score

/-- The key by which scores are compared, lower being better: the arity fit, then the worst
rank, then the total, lexicographically. -/
def key (s : Score) : ℕ ×ₗ ℕ ×ₗ ℕ := toLex (s.arity.toNat, toLex (s.worst.toNat, s.total))

/-- `better` is the strict order of the keys. -/
theorem better_eq_true_iff {a b : Score} : a.better b = true ↔ a.key < b.key := by
  simp only [better, key, Prod.Lex.toLex_lt_toLex, Bool.or_eq_true, Bool.and_eq_true,
    decide_eq_true_eq, beq_iff_eq]

/-- Scores with one key are one score. -/
theorem key_injective : Function.Injective key := by
  intro a b h
  simp only [key, toLex_inj, Prod.mk.injEq] at h
  obtain ⟨ha, hw, ht⟩ := h
  obtain ⟨aa, aw, at'⟩ := a
  obtain ⟨ba, bw, bt⟩ := b
  have : aa = ba := by cases aa <;> cases ba <;> simp_all [ArityFit.toNat]
  have : aw = bw := by cases aw <;> cases bw <;> simp_all [Rank.toNat]
  simp_all

end Score

namespace TypeTable

/-- The best score of a non-empty list of scored candidates is the start or one of theirs, and
its key is the least of them all. The induction follows the fold, one candidate at a time. -/
theorem bestScore_spec :
    ∀ (first : Score) (scored : List (Method × Score)),
      (bestScore first scored = first ∨ ∃ x ∈ scored, x.2 = bestScore first scored) ∧
        (bestScore first scored).key ≤ first.key ∧
        ∀ x ∈ scored, (bestScore first scored).key ≤ x.2.key
  | first, [] => ⟨.inl rfl, le_refl _, by simp⟩
  | first, x :: rest => by
    have hfold : bestScore first (x :: rest) =
        bestScore (if x.2.better first then x.2 else first) rest := rfl
    -- one step keeps the better of the two
    have hstep : (if x.2.better first then x.2 else first).key ≤ first.key ∧
        (if x.2.better first then x.2 else first).key ≤ x.2.key := by
      by_cases hb : x.2.better first = true
      · rw [if_pos hb]
        exact ⟨le_of_lt (Score.better_eq_true_iff.1 hb), le_refl _⟩
      · rw [if_neg hb]
        exact ⟨le_refl _, not_lt.1 fun h => hb (Score.better_eq_true_iff.2 h)⟩
    obtain ⟨hmem, hle, hall⟩ := bestScore_spec (if x.2.better first then x.2 else first) rest
    rw [hfold]
    refine ⟨?_, le_trans hle hstep.1, fun y hy => ?_⟩
    · rcases hmem with h | ⟨y, hy, hy'⟩
      · by_cases hb : x.2.better first = true
        · rw [if_pos hb] at h ⊢
          exact .inr ⟨x, List.mem_cons_self, h.symm⟩
        · rw [if_neg hb] at h ⊢
          exact .inl h
      · exact .inr ⟨y, List.mem_cons_of_mem x hy, hy'⟩
    · rcases List.mem_cons.1 hy with rfl | hy
      · exact le_trans hle hstep.2
      · exact hall y hy

variable (tt : TypeTable) (ms : List Method) (args : List Argument)

/-- Whether `m` is applicable and no applicable candidate of `ms` has a score of smaller key. -/
def isBest (m : Method) : Bool :=
  match tt.score m args with
  | .ok (some s) =>
    ms.all fun m' =>
      match tt.score m' args with
      | .ok (some s') => decide (s.key ≤ s'.key)
      | _ => true
  | _ => false

/-- The applicable candidates whose score has the least key, in order. -/
def tied : List Method := ms.filter (tt.isBest ms args)

variable {tt ms args}

theorem isBest_eq_true_iff {m : Method} :
    tt.isBest ms args m = true ↔ ∃ s, tt.score m args = .ok (some s) ∧
      ∀ m' ∈ ms, ∀ s', tt.score m' args = .ok (some s') → s.key ≤ s'.key := by
  unfold isBest
  split
  · rename_i s hs
    simp only [List.all_eq_true, hs, Except.ok.injEq, Option.some.injEq, exists_eq_left']
    refine forall₂_congr fun m' _ => ?_
    split <;> simp_all
  · rename_i hs
    simp only [Bool.false_eq_true, false_iff, not_exists, not_and]
    exact fun s h _ => hs s h

/-- `a` is more specific than `b`: the two have as many regular parameters, each parameter type
of `a` is a subtype of `b`'s at the same place, and not each of `b`'s of `a`'s. -/
def MoreSpecific (tt : TypeTable) (a b : Method) : Prop :=
  List.Forall₂ (fun x y => tt.isSubtype x.type y.type = .ok true) a.regularParams
      b.regularParams ∧
    ¬List.Forall₂ (fun x y => tt.isSubtype y.type x.type = .ok true) a.regularParams
      b.regularParams

/-- Being more specific is asymmetric. -/
theorem MoreSpecific.asymm {a b : Method} (h : tt.MoreSpecific a b) : ¬tt.MoreSpecific b a :=
  fun h' => h'.2 (List.Forall₂.flip h.1)

/-- The specificity test, when it runs without a fault, decides `MoreSpecific`. -/
theorem moreSpecific_eq_ok {a b : Method} {x : Bool} (h : tt.moreSpecific a b = .ok x) :
    x = true ↔ tt.MoreSpecific a b := by
  unfold moreSpecific at h
  unfold MoreSpecific
  rw [List.forall₂_iff_zip, List.forall₂_iff_zip]
  by_cases hlen : a.regularParams.length = b.regularParams.length
  · simp only [hlen, ne_eq, not_true_eq_false, if_false, true_and] at h ⊢
    obtain ⟨below, hbelow, h⟩ := Except.bind_eq_ok.1 h
    obtain ⟨above, habove, h⟩ := Except.bind_eq_ok.1 h
    simp only [Except.pure_eq, Except.ok.injEq] at h
    subst h
    have h₁ := Except.allM_eq_ok_iff hbelow
    have h₂ := Except.allM_eq_ok_iff habove
    rw [Bool.and_eq_true, Bool.not_eq_true', ← Bool.not_eq_true, h₁, h₂]
    constructor
    · rintro ⟨hb, ha⟩
      exact ⟨fun hq => hb _ hq, fun hall => ha fun q hq => hall hq⟩
    · rintro ⟨hb, ha⟩
      exact ⟨fun q hq => hb hq, fun hall => ha fun hq => hall _ hq⟩
  · simp only [hlen, ne_eq, not_false_eq_true, if_true, Except.pure_eq, Except.ok.injEq] at h
    subst h
    simp [hlen]

/-- `w` is more specific than every other member of `T`. -/
def MostSpecific (tt : TypeTable) (T : List Method) (w : Method) : Prop :=
  ∀ b ∈ T, b ≠ w → tt.MoreSpecific w b

/-- At most one member of a list is more specific than all the others. -/
theorem MostSpecific.unique {T : List Method} {a b : Method} (ha : tt.MostSpecific T a)
    (hb : tt.MostSpecific T b) (haT : a ∈ T) (hbT : b ∈ T) : a = b := by
  by_contra hab
  exact (ha b hbT (Ne.symm hab)).asymm (hb a haT hab)

/-! ## What selection computes -/

variable {name : String}

/-- With every candidate scored without a fault, scoring keeps the applicable candidates with
their scores. -/
theorem scored_of_scores {sc : Method → Option Score}
    (hsc : ∀ m ∈ ms, tt.score m args = .ok (sc m)) :
    ms.filterMapM (fun m => do return (← tt.score m args).map (m, ·)) =
      .ok (ms.filterMap fun m => (sc m).map (m, ·)) :=
  Except.filterMapM_eq_ok_of_forall fun m hm => by simp [hsc m hm]

/-- The scored candidates with the score `best` are the candidates with that score. -/
theorem filter_scored (sc : Method → Option Score) (best : Score) :
    ∀ ms : List Method, ((ms.filterMap fun m => (sc m).map (m, ·)).filter (·.2 = best)).map
      (·.1) = ms.filter fun m => sc m = some best
  | [] => rfl
  | m :: ms => by
    cases h : sc m with
    | none => simp [h, filter_scored sc best ms]
    | some s => by_cases hs : s = best <;> simp [h, hs, filter_scored sc best ms]

/-- A score that one candidate has and whose key is no greater than any candidate's picks out
the tied candidates. -/
theorem tied_eq {sc : Method → Option Score} (hsc : ∀ m ∈ ms, tt.score m args = .ok (sc m))
    {best : Score} (hmem : ∃ m ∈ ms, sc m = some best)
    (hle : ∀ m ∈ ms, ∀ s, sc m = some s → best.key ≤ s.key) :
    ms.filter (fun m => sc m = some best) = tt.tied ms args := by
  refine List.filter_congr fun m hm => ?_
  rw [Bool.eq_iff_iff, decide_eq_true_iff, isBest_eq_true_iff, hsc m hm]
  constructor
  · intro hb
    refine ⟨best, by rw [hb], fun m' hm' s' hs' => hle m' hm' s' ?_⟩
    rw [hsc m' hm'] at hs'
    exact Except.ok.inj hs'
  · rintro ⟨s, hs, hall⟩
    obtain ⟨mb, hmb, hscb⟩ := hmem
    have h₁ : s.key ≤ best.key := hall mb hmb best (by rw [hsc mb hmb, hscb])
    have h₂ : best.key ≤ s.key := hle m hm s (Except.ok.inj hs)
    rw [Except.ok.inj hs, Score.key_injective (le_antisymm h₁ h₂)]

/-- The tied candidates more specific than all the others; ids tell candidates apart. -/
def tieWinners (tt : TypeTable) (T : List Method) : Except Fault (List Method) :=
  T.filterM fun a => T.allM fun b => if b.id = a.id then pure true else tt.moreSpecific a b

/-- The tie-break of selection among the tied candidates `T`: a lone one wins, otherwise the one
more specific than all the others, and failing that the call is ambiguous. -/
def tieBreak (tt : TypeTable) (T : List Method) (name : String) : Except Fault Method :=
  match T with
  | [w] => .ok w
  | _ => do
    let winners ← tt.tieWinners T
    match winners with
    | [w] => .ok w
    | _ => .error (.ambiguousOverload
        (if name.isEmpty then (T.head?.map (·.name)).getD name else name) T.length)

/-- Selection among scored candidates is the tie-break among the tied ones. -/
theorem selectBest_of_tied {x : Method × Score} {rest : List (Method × Score)} {T : List Method}
    (h : ms.filterMapM (fun m => do return (← tt.score m args).map (m, ·)) = .ok (x :: rest))
    (hT : (((x :: rest).filter (·.2 = bestScore x.2 (x :: rest))).map (·.1)) = T) :
    tt.selectBest ms args name = tt.tieBreak T name := by
  subst hT
  unfold selectBest tieBreak
  rw [h]
  rfl

/-- The test of the tie-break, when it runs without a fault, holds of a tied candidate exactly
when it is more specific than every other one, the ids of the tied candidates being distinct. -/
theorem tieTest_eq_ok {T : List Method} (hnd : (T.map (·.id)).Nodup) {a : Method} (ha : a ∈ T)
    {x : Bool}
    (h : T.allM (fun b => if b.id = a.id then pure true else tt.moreSpecific a b) = .ok x) :
    x = true ↔ tt.MostSpecific T a := by
  have hid : ∀ b ∈ T, b.id = a.id ↔ b = a := fun b hb =>
    ⟨fun h => List.inj_on_of_nodup_map hnd hb ha h, fun h => h ▸ rfl⟩
  constructor
  · rintro rfl b hb hba
    have hb' := Except.allM_eq_ok_true h b hb
    rw [if_neg (mt (hid b hb).1 hba)] at hb'
    exact (moreSpecific_eq_ok hb').1 rfl
  · intro hall
    cases x with
    | true => rfl
    | false =>
      -- the test that came out false names a candidate `a` is not more specific than
      obtain ⟨b, hb, hf⟩ := Except.allM_eq_ok_false h
      have hba : b ≠ a := by
        rintro rfl
        simp at hf
      rw [if_neg (mt (hid b hb).1 hba)] at hf
      exact absurd (hall b hb hba) (by simpa using moreSpecific_eq_ok hf)

/-- A tie among several candidates whose test fails fails with it. -/
theorem tieBreak_of_error {T : List Method} (hone : ∀ w, T ≠ [w]) {e : Fault}
    (h : tt.tieWinners T = .error e) : tt.tieBreak T name = .error e := by
  unfold tieBreak
  split
  · next w => exact absurd rfl (hone w)
  · rw [h]
    rfl

/-- A tie among several candidates is won by the one winner of the test, and is ambiguous
otherwise. -/
theorem tieBreak_of_winners (name : String) {T winners : List Method} (hone : ∀ w, T ≠ [w])
    (h : tt.tieWinners T = .ok winners) :
    (∀ w, winners = [w] → tt.tieBreak T name = .ok w) ∧
    ((∀ w, winners ≠ [w]) → tt.tieBreak T name = .error (.ambiguousOverload
      (if name.isEmpty then (T.head?.map (·.name)).getD name else name) T.length)) := by
  unfold tieBreak
  split
  · next w => exact absurd rfl (hone w)
  · rw [h, Except.ok_bind]
    refine ⟨fun w hw => by rw [hw], fun hne => ?_⟩
    split
    · next w => exact absurd rfl (hne w)
    · rfl

theorem tieWinners_failsOnly (T : List Method) :
    Except.FailsOnly Fault.IsLookup (tt.tieWinners T) :=
  Except.FailsOnly.filterM (fun a => Except.FailsOnly.allM (fun b => by
    split
    · exact .pure _
    · exact tt.moreSpecific_failsOnly a b) T) T

/-- The test of the tie-break, when it runs without a fault, keeps exactly the candidates more
specific than all the others. -/
theorem mem_tieWinners {T winners : List Method} (hnd : (T.map (·.id)).Nodup)
    (h : tt.tieWinners T = .ok winners) (w : Method) :
    w ∈ winners ↔ w ∈ T ∧ tt.MostSpecific T w := by
  obtain ⟨hall, rfl⟩ := Except.filterM_eq_ok_filter h
  rw [List.mem_filter]
  refine and_congr_right fun hw => ?_
  obtain ⟨x, hx⟩ := hall w hw
  rw [hx]
  exact tieTest_eq_ok hnd hw hx

theorem nodup_tieWinners {T winners : List Method} (hnd : (T.map (·.id)).Nodup)
    (h : tt.tieWinners T = .ok winners) : winners.Nodup := by
  obtain ⟨-, rfl⟩ := Except.filterM_eq_ok_filter h
  exact (hnd.sublist ((List.filter_sublist).map _)).of_map _

/-- **The tie-break among candidates with distinct ids**, when no look-up fails, picks the one
candidate more specific than all the others when there is one, and otherwise reports the call
ambiguous. -/
theorem tieBreak_spec {T : List Method} (hnd : (T.map (·.id)).Nodup)
    (hnormal : ∀ e, tt.tieBreak T name = .error e → ¬e.IsLookup) :
    (∀ w, tt.tieBreak T name = .ok w ↔ w ∈ T ∧ tt.MostSpecific T w) ∧
    ((¬∃ w ∈ T, tt.MostSpecific T w) →
      tt.tieBreak T name = .error (.ambiguousOverload
        (if name.isEmpty then (T.head?.map (·.name)).getD name else name) T.length)) := by
  by_cases hone : ∃ w, T = [w]
  · obtain ⟨w₀, rfl⟩ := hone
    -- a lone candidate is more specific than all the others, there being none
    have hw₀ : tt.MostSpecific [w₀] w₀ := fun b hb hne => absurd (List.mem_singleton.1 hb) hne
    refine ⟨fun w => ?_, fun hno => absurd ⟨w₀, List.mem_singleton_self w₀, hw₀⟩ hno⟩
    simp only [tieBreak, Except.ok.injEq, List.mem_singleton]
    exact ⟨fun h => h ▸ ⟨rfl, hw₀⟩, fun h => h.1.symm⟩
  · simp only [not_exists] at hone
    -- the test runs without a fault, a failed look-up being the only fault it has
    obtain ⟨winners, hwin⟩ := (tt.tieWinners_failsOnly T).exists_ok fun e h =>
      hnormal e (tieBreak_of_error hone h)
    have hmem := mem_tieWinners hnd hwin
    obtain ⟨hwon, hamb⟩ := tieBreak_of_winners name hone hwin
    by_cases hex : ∃ w ∈ T, tt.MostSpecific T w
    · obtain ⟨w₀, hw₀T, hw₀⟩ := hex
      -- the winner is unique, so the test keeps it alone
      have hsingle : winners = [w₀] := by
        by_contra hne
        rcases ((nodup_tieWinners hnd hwin).ne_singleton_iff w₀).1 hne with hnil | ⟨y, hy, hyw⟩
        · have h₀ := (hmem w₀).2 ⟨hw₀T, hw₀⟩
          rw [hnil] at h₀
          cases h₀
        · obtain ⟨hyT, hy⟩ := (hmem y).1 hy
          exact hyw (hy.unique hw₀ hyT hw₀T)
      rw [hwon w₀ hsingle]
      refine ⟨fun w => ⟨?_, ?_⟩, fun hno => absurd ⟨w₀, hw₀T, hw₀⟩ hno⟩
      · rintro ⟨⟩
        exact ⟨hw₀T, hw₀⟩
      · rintro ⟨hwT, hw⟩
        rw [hw.unique hw₀ hwT hw₀T]
    · have hne : ∀ w, winners ≠ [w] := fun w hw =>
        hex ⟨w, (hmem w).1 (hw ▸ List.mem_singleton_self w)⟩
      rw [hamb hne]
      exact ⟨fun w => ⟨fun h => (by cases h), fun hw => absurd ⟨w, hw⟩ hex⟩, fun _ => rfl⟩

/-! ## The overload that selection picks -/

/-- A scored pair names a candidate and its score. -/
theorem mem_scored {sc : Method → Option Score} {y : Method × Score} :
    y ∈ ms.filterMap (fun m => (sc m).map (m, ·)) ↔ y.1 ∈ ms ∧ sc y.1 = some y.2 := by
  simp only [List.mem_filterMap, Option.map_eq_some_iff]
  constructor
  · rintro ⟨m, hm, s, hs, rfl⟩
    exact ⟨hm, hs⟩
  · rintro ⟨hm, hs⟩
    exact ⟨y.1, hm, y.2, hs, rfl⟩

/-- When scoring runs without a fault, every candidate has a score or none. -/
theorem scores_of_scored {scored : List (Method × Score)}
    (h : ms.filterMapM (fun m => do return (← tt.score m args).map (m, ·)) = .ok scored) :
    ∃ sc : Method → Option Score, ∀ m ∈ ms, tt.score m args = .ok (sc m) := by
  refine ⟨fun m => (tt.score m args).toOption.join, fun m hm => ?_⟩
  obtain ⟨o, ho⟩ := Except.filterMapM_eq_ok_forall h m hm
  obtain ⟨so, hso, -⟩ := tt.scored_eq_ok ho
  simp [hso, Except.toOption]

/-- Without an applicable candidate nothing is tied. -/
theorem tied_eq_nil {sc : Method → Option Score} (hsc : ∀ m ∈ ms, tt.score m args = .ok (sc m))
    (hnone : ∀ m ∈ ms, sc m = none) : tt.tied ms args = [] :=
  List.filter_eq_nil_iff.2 fun m hm hbest => by
    obtain ⟨s, hs, -⟩ := isBest_eq_true_iff.1 hbest
    rw [hsc m hm, hnone m hm] at hs
    cases hs

/-- When some candidate is applicable and every one is scored without a fault, selection is the
tie-break among the tied candidates, of which there is one at least. -/
theorem selectBest_eq_tieBreak {sc : Method → Option Score}
    (hsc : ∀ m ∈ ms, tt.score m args = .ok (sc m)) (happ : ∃ m ∈ ms, (sc m).isSome) :
    tt.selectBest ms args name = tt.tieBreak (tt.tied ms args) name ∧ tt.tied ms args ≠ [] := by
  have hscored := tt.scored_of_scores hsc
  cases hsl : ms.filterMap (fun m => (sc m).map (m, ·)) with
  | nil =>
    -- an applicable candidate is scored
    obtain ⟨m, hm, hs⟩ := happ
    obtain ⟨s, hs⟩ := Option.isSome_iff_exists.1 hs
    have hmem : (m, s) ∈ ms.filterMap (fun m => (sc m).map (m, ·)) := mem_scored.2 ⟨hm, hs⟩
    rw [hsl] at hmem
    cases hmem
  | cons x rest =>
    rw [hsl] at hscored
    obtain ⟨hbest, -, hle⟩ := bestScore_spec x.2 (x :: rest)
    -- the best score is some candidate's, and its key is no greater than any candidate's
    have hmem : ∃ m ∈ ms, sc m = some (bestScore x.2 (x :: rest)) := by
      rcases hbest with h | ⟨y, hy, hy'⟩
      · have hx : x ∈ ms.filterMap (fun m => (sc m).map (m, ·)) := by
          rw [hsl]
          exact List.mem_cons_self
        rw [h]
        exact ⟨x.1, mem_scored.1 hx⟩
      · rw [← hy']
        rw [← hsl] at hy
        exact ⟨y.1, mem_scored.1 hy⟩
    have hmin : ∀ m ∈ ms, ∀ s, sc m = some s → (bestScore x.2 (x :: rest)).key ≤ s.key :=
      fun m hm s hs => hle (m, s) (hsl ▸ mem_scored.2 ⟨hm, hs⟩)
    have htied := tied_eq hsc hmem hmin
    obtain ⟨m, hm, hs⟩ := hmem
    refine ⟨selectBest_of_tied hscored ?_, List.ne_nil_of_mem (htied ▸ List.mem_filter.2
      ⟨hm, decide_eq_true hs⟩)⟩
    rw [← htied, ← filter_scored sc _ ms, hsl]

/-- A tied candidate more specific than the other tied ones is applicable, its key is the least,
and it is more specific than every other candidate with that key. -/
theorem MostSpecific.of_tied {w : Method} (hw : w ∈ tt.tied ms args)
    (hms : tt.MostSpecific (tt.tied ms args) w) :
    ∃ s, tt.score w args = .ok (some s) ∧ ∀ m ∈ ms, ∀ s', tt.score m args = .ok (some s') →
      s.key ≤ s'.key ∧ (s'.key = s.key → m ≠ w → tt.MoreSpecific w m) := by
  obtain ⟨-, hbest⟩ := List.mem_filter.1 hw
  obtain ⟨s, hs, hle⟩ := isBest_eq_true_iff.1 hbest
  refine ⟨s, hs, fun m hm s' hs' => ⟨hle m hm s' hs', fun hkey hne => hms m ?_ hne⟩⟩
  -- a candidate whose key is the least is tied
  refine List.mem_filter.2 ⟨hm, isBest_eq_true_iff.2 ⟨s', hs', fun m' hm' s'' hs'' => ?_⟩⟩
  rw [hkey]
  exact hle m' hm' s'' hs''

/-- **Selection picks the most specific of the best-scored candidates.** Among candidates with
distinct ids, when no look-up of the type table fails:

* selection reports no applicable overload exactly when no candidate is applicable;
* it picks `w` exactly when `w` is tied and more specific than every other tied candidate;
* when some candidate is applicable but no tied candidate is more specific than all the others,
  it reports an ambiguity, under the name of the call or else that of the first tied candidate,
  with the number of tied candidates;
* so a winner is applicable, its key is the least, and it is more specific than every other
  candidate of that key. -/
theorem selectBest_picks_most_specific (hnd : (ms.map (·.id)).Nodup)
    (hnormal : ∀ e, tt.selectBest ms args name = .error e → ¬e.IsLookup) :
    (tt.selectBest ms args name = .error (.noApplicableOverload name) ↔
      ∀ m ∈ ms, tt.applicable m args = .ok false) ∧
    (∀ w, tt.selectBest ms args name = .ok w ↔
      w ∈ tt.tied ms args ∧ tt.MostSpecific (tt.tied ms args) w) ∧
    ((∃ m ∈ ms, tt.applicable m args = .ok true) →
      (¬∃ w ∈ tt.tied ms args, tt.MostSpecific (tt.tied ms args) w) →
      ∃ t ∈ (tt.tied ms args).head?, tt.selectBest ms args name =
        .error (.ambiguousOverload (if name.isEmpty then t.name else name)
          (tt.tied ms args).length)) ∧
    (∀ w, tt.selectBest ms args name = .ok w → ∃ s, tt.score w args = .ok (some s) ∧
      ∀ m ∈ ms, ∀ s', tt.score m args = .ok (some s') →
        s.key ≤ s'.key ∧ (s'.key = s.key → m ≠ w → tt.MoreSpecific w m)) := by
  -- scoring runs without a fault, a failed look-up being the only fault it has
  obtain ⟨scored, hscored⟩ := (Except.FailsOnly.filterMapM (tt.scored_failsOnly args) ms).exists_ok
    fun e h => hnormal e (tt.selectBest_of_error h)
  obtain ⟨sc, hsc⟩ := scores_of_scored hscored
  have happ : ∀ m ∈ ms, tt.applicable m args = .ok (sc m).isSome := fun m hm => by
    simp [applicable, hsc m hm]
  have hA : tt.selectBest ms args name = .error (.noApplicableOverload name) ↔
      ∀ m ∈ ms, tt.applicable m args = .ok false := by
    rw [selectBest_eq_noApplicable, eq_self_iff_true, true_and]
    refine forall₂_congr fun m hm => ?_
    rw [happ m hm, hsc m hm]
    cases sc m <;> simp
  have hTnd : ((tt.tied ms args).map (·.id)).Nodup :=
    hnd.sublist (List.filter_sublist.map _)
  have hBC : (∀ w, tt.selectBest ms args name = .ok w ↔
      w ∈ tt.tied ms args ∧ tt.MostSpecific (tt.tied ms args) w) ∧
      ((∃ m ∈ ms, tt.applicable m args = .ok true) →
        (¬∃ w ∈ tt.tied ms args, tt.MostSpecific (tt.tied ms args) w) →
        ∃ t ∈ (tt.tied ms args).head?, tt.selectBest ms args name =
          .error (.ambiguousOverload (if name.isEmpty then t.name else name)
            (tt.tied ms args).length)) := by
    by_cases hany : ∃ m ∈ ms, (sc m).isSome
    · obtain ⟨hsel, hne⟩ := selectBest_eq_tieBreak hsc hany
      obtain ⟨hB, hC⟩ := tieBreak_spec hTnd fun e he => hnormal e (hsel ▸ he)
      refine ⟨fun w => hsel ▸ hB w, fun _ hno => ?_⟩
      obtain ⟨t, T, ht⟩ := List.exists_cons_of_ne_nil hne
      refine ⟨t, by rw [ht]; rfl, ?_⟩
      rw [hsel, hC hno, ht]
      rfl
    · -- no candidate is applicable, so nothing is tied and selection reports none
      have hnone : ∀ m ∈ ms, sc m = none := fun m hm =>
        Option.not_isSome_iff_eq_none.1 fun h => hany ⟨m, hm, h⟩
      have hsel := hA.2 fun m hm => by rw [happ m hm, hnone m hm]; rfl
      rw [hsel, tied_eq_nil hsc hnone]
      refine ⟨fun w => ⟨fun h => (by cases h), fun h => absurd h.1 List.not_mem_nil⟩, ?_⟩
      rintro ⟨m, hm, h⟩
      rw [happ m hm, hnone m hm] at h
      cases h
  exact ⟨hA, hBC.1, hBC.2, fun w hw => MostSpecific.of_tied ((hBC.1 w).1 hw).1 ((hBC.1 w).1 hw).2⟩

/-- Two overloads `f(Int)` (id 7) and `f(Mixed)` (id 8) on a fresh host with `Int` (id 4) and
`Mixed` (id 5), called with one `Int`: the exact match wins. -/
theorem selectBest_exact_over_widening :
    let tt := (((Host.fresh).apply (.types (.known .int))).apply (.types (.known .mixed))).types
    let a : Method := ⟨7, "f", 4, [⟨0, "x", 4, none, false, .regular⟩], false, .publicAccess, none⟩
    let b : Method := ⟨8, "f", 4, [⟨0, "x", 5, none, false, .regular⟩], false, .publicAccess, none⟩
    let ms := [a, b]
    let args : List Argument := [⟨.int 5, 4⟩]
    (ms.map (·.id)).Nodup ∧ tt.selectBest ms args "f" = .ok a ∧
      (tt.selectBest ms args "f" = .error (.noApplicableOverload "f") ↔
        ∀ m ∈ ms, tt.applicable m args = .ok false) ∧
      (∀ w, tt.selectBest ms args "f" = .ok w ↔
        w ∈ tt.tied ms args ∧ tt.MostSpecific (tt.tied ms args) w) ∧
      ((∃ m ∈ ms, tt.applicable m args = .ok true) →
        (¬∃ w ∈ tt.tied ms args, tt.MostSpecific (tt.tied ms args) w) →
        ∃ t ∈ (tt.tied ms args).head?, tt.selectBest ms args "f" =
          .error (.ambiguousOverload (if "f".isEmpty then t.name else "f")
            (tt.tied ms args).length)) ∧
      (∀ w, tt.selectBest ms args "f" = .ok w → ∃ s, tt.score w args = .ok (some s) ∧
        ∀ m ∈ ms, ∀ s', tt.score m args = .ok (some s') →
          s.key ≤ s'.key ∧ (s'.key = s.key → m ≠ w → tt.MoreSpecific w m)) := by
  intro tt a b ms args
  have hnd : (ms.map (·.id)).Nodup := by decide
  have hsel : tt.selectBest ms args "f" = .ok a := rfl
  exact ⟨hnd, hsel, selectBest_picks_most_specific hnd fun e h => by
    rw [hsel] at h
    cases h⟩

end TypeTable

end CallSite
