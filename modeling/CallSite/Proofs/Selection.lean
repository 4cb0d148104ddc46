import CallSite.Proofs.Binding
import CallSite.Proofs.Subtyping

/-!
# What overload selection gives and how it fails

`TypeTable.selectBest` scores every candidate, keeps the applicable ones with the best score and
breaks ties by specificity. This module says what comes out of it:

* its winner is one of the candidates, and applicable (`TypeTable.selectBest_eq_ok`);
* it reports no applicable overload exactly when no candidate is applicable
  (`TypeTable.selectBest_eq_noApplicable`);
* its other faults are the look-up faults of the type table (`Fault.IsLookup`) or an ambiguity
  (`TypeTable.selectBest_failsOnly`).

The faults of each step are tracked by `Except.FailsOnly`, which composes along binds and the
monadic list functions, so each function of the model gets one lemma that cites those of the
functions it calls.
-/

namespace CallSite

/-! ## Faults of a kind -/

namespace Except

variable {ε α β γ : Type} {P Q : ε → Prop}

/-- Every fault of `x` satisfies `P`. -/
def FailsOnly (P : ε → Prop) (x : Except ε α) : Prop :=
  ∀ e, x = .error e → P e

namespace FailsOnly

theorem ok (a : α) : FailsOnly P (.ok a : Except ε α) := fun _ h => by cases h

theorem pure (a : α) : FailsOnly P (Pure.pure a : Except ε α) := ok a

theorem error {e : ε} (h : P e) : FailsOnly P (.error e : Except ε α) := fun _ he => by
  cases he
  exact h

theorem mono {x : Except ε α} (h : FailsOnly P x) (hPQ : ∀ e, P e → Q e) : FailsOnly Q x :=
  fun e he => hPQ e (h e he)

theorem bind {x : Except ε α} {f : α → Except ε β} (hx : FailsOnly P x)
    (hf : ∀ a, x = .ok a → FailsOnly P (f a)) : FailsOnly P (x >>= f) := by
  intro e he
  cases hx' : x with
  | error e' =>
    rw [hx'] at he
    cases he
    exact hx e hx'
  | ok a =>
    rw [hx', ok_bind] at he
    exact hf a hx' e he

theorem mapM {f : γ → Except ε α} (h : ∀ c, FailsOnly P (f c)) :
    ∀ l : List γ, FailsOnly P (l.mapM f)
  | [] => pure _
  | c :: l => by
    rw [List.mapM_cons]
    exact (h c).bind fun _ _ => (mapM h l).bind fun _ _ => pure _

theorem filterMapM {f : γ → Except ε (Option α)} (h : ∀ c, FailsOnly P (f c)) :
    ∀ l : List γ, FailsOnly P (l.filterMapM f)
  | [] => pure _
  | c :: l => by
    rw [List.filterMapM_cons]
    refine (h c).bind fun o _ => ?_
    cases o with
    | none => exact filterMapM h l
    | some b => exact (filterMapM h l).bind fun _ _ => pure _

theorem filterAuxM {p : γ → Except ε Bool} (h : ∀ c, FailsOnly P (p c)) :
    ∀ (l acc : List γ), FailsOnly P (l.filterAuxM p acc)
  | [], acc => pure acc
  | c :: l, acc => (h c).bind fun b _ => filterAuxM h l (cond b (c :: acc) acc)

theorem filterM {p : γ → Except ε Bool} (h : ∀ c, FailsOnly P (p c)) (l : List γ) :
    FailsOnly P (l.filterM p) :=
  (filterAuxM h l []).bind fun _ _ => pure _

theorem allM {p : γ → Except ε Bool} (h : ∀ c, FailsOnly P (p c)) :
    ∀ l : List γ, FailsOnly P (l.allM p)
  | [] => pure true
  | c :: l => by
    rw [List.allM_cons]
    refine (h c).bind fun b _ => ?_
    cases b with
    | true => exact allM h l
    | false => exact pure false

end FailsOnly

/-! ## What the monadic list functions keep -/

/-- What a monadic filter keeps is among what it was given, and passed the test. -/
theorem filterAuxM_eq_ok {p : γ → Except ε Bool} :
    ∀ {l acc r : List γ}, l.filterAuxM p acc = .ok r →
      ∀ y ∈ r, y ∈ acc ∨ (y ∈ l ∧ p y = .ok true)
  | [], acc, r, h, y, hy => by
    simp only [List.filterAuxM, pure_eq, Except.ok.injEq] at h
    exact .inl (h ▸ hy)
  | c :: l, acc, r, h, y, hy => by
    obtain ⟨b, hb, h⟩ := bind_eq_ok.1 h
    rcases filterAuxM_eq_ok h y hy with hy | ⟨hy, hp⟩
    · cases b with
      | false => exact .inl hy
      | true =>
        rcases List.mem_cons.1 hy with rfl | hy
        · exact .inr ⟨List.mem_cons_self, hb⟩
        · exact .inl hy
    · exact .inr ⟨List.mem_cons_of_mem c hy, hp⟩

theorem filterM_eq_ok {p : γ → Except ε Bool} {l r : List γ} (h : l.filterM p = .ok r) :
    ∀ y ∈ r, y ∈ l ∧ p y = .ok true := by
  obtain ⟨r', hr', h⟩ := bind_eq_ok.1 h
  simp only [pure_eq, Except.ok.injEq] at h
  intro y hy
  rw [← h, List.mem_reverse] at hy
  rcases filterAuxM_eq_ok hr' y hy with hy | hy
  · simp at hy
  · exact hy

/-- What a monadic `filterMap` gives comes from an element it was given. -/
theorem filterMapM_eq_ok {f : γ → Except ε (Option α)} :
    ∀ {l : List γ} {r : List α}, l.filterMapM f = .ok r → ∀ y ∈ r, ∃ c ∈ l, f c = .ok (some y)
  | [], r, h, y, hy => by
    simp only [List.filterMapM_nil, pure_eq, Except.ok.injEq] at h
    simp [← h] at hy
  | c :: l, r, h, y, hy => by
    rw [List.filterMapM_cons] at h
    obtain ⟨o, ho, h⟩ := bind_eq_ok.1 h
    cases o with
    | none =>
      obtain ⟨c', hc', hf⟩ := filterMapM_eq_ok h y hy
      exact ⟨c', List.mem_cons_of_mem c hc', hf⟩
    | some b =>
      dsimp only at h
      obtain ⟨r', hr', h⟩ := bind_eq_ok.1 h
      simp only [pure_eq, Except.ok.injEq] at h
      rw [← h] at hy
      rcases List.mem_cons.1 hy with rfl | hy
      · exact ⟨c, List.mem_cons_self, ho⟩
      · obtain ⟨c', hc', hf⟩ := filterMapM_eq_ok hr' y hy
        exact ⟨c', List.mem_cons_of_mem c hc', hf⟩

/-- A monadic `filterMap` gives nothing exactly when it keeps no element. -/
theorem filterMapM_eq_nil {f : γ → Except ε (Option α)} :
    ∀ {l : List γ}, l.filterMapM f = .ok [] ↔ ∀ c ∈ l, f c = .ok none
  | [] => by simp
  | c :: l => by
    rw [List.filterMapM_cons, List.forall_mem_cons, ← filterMapM_eq_nil]
    cases f c with
    | error e => simp
    | ok o =>
      cases o with
      | none => simp
      | some b => cases l.filterMapM f <;> simp

end Except

/-! ## The faults of looking types up and of scoring -/

/-- The faults of looking types up: an unknown id, or a type that is no array where an array
type is asked for. -/
def Fault.IsLookup : Fault → Prop
  | .unknownType _ => True
  | .notArray _ => True
  | _ => False

theorem Fault.IsLookup.not_isArgument {e : Fault} (h : e.IsLookup) : ¬e.IsArgument := by
  cases e <;> simp_all [Fault.IsLookup, Fault.IsArgument]

namespace TypeTable

variable (tt : TypeTable)

theorem get_failsOnly (t : Int) : Except.FailsOnly Fault.IsLookup (tt.get t) := by
  intro e h
  unfold get at h
  split at h
  · cases h
  · cases h
    trivial

/-- The only fault of the subtype test is an unknown id. -/
theorem isSubtype_failsOnly (s t : Int) :
    Except.FailsOnly Fault.IsLookup (tt.isSubtype s t) := by
  intro e he
  obtain ⟨-, ⟨-, rfl⟩ | ⟨-, -, rfl⟩⟩ := isSubtype_eq_error_iff.1 he <;> trivial

theorem rank_failsOnly (s t : Int) : Except.FailsOnly Fault.IsLookup (tt.rank s t) := by
  unfold rank
  split
  · exact .pure _
  · refine (tt.isSubtype_failsOnly s t).bind fun b _ => ?_
    split
    · exact .pure _
    · refine (tt.get_failsOnly s).bind fun _ _ => (tt.get_failsOnly t).bind fun _ _ => ?_
      split <;> exact .pure _

theorem elementType_failsOnly (t : Int) :
    Except.FailsOnly Fault.IsLookup (tt.elementType t) := by
  unfold elementType
  refine (tt.get_failsOnly t).bind fun d _ => ?_
  split
  · exact .pure _
  · exact .error trivial

end TypeTable

/-- Scoring fails only with the faults of the converter and of the element types. -/
theorem Converter.fitArgs_failsOnly (cv : Converter (Except Fault)) (el : Int → Except Fault Int)
    {P : Fault → Prop} (hr : ∀ s t, Except.FailsOnly P (cv.rank s t))
    (he : ∀ t, Except.FailsOnly P (el t)) :
    ∀ ps args, Except.FailsOnly P (cv.fitArgs el ps args)
  | [], args => .pure _
  | p :: ps, args => by
    simp only [Converter.fitArgs]
    split
    · exact fitArgs_failsOnly cv el hr he ps args
    · split
      · exact (he _).bind fun _ _ => (Except.FailsOnly.mapM (fun _ => hr _ _) args).bind fun _ _ =>
          (fitArgs_failsOnly cv el hr he ps []).bind fun _ _ => .pure _
      · split
        · exact (hr _ _).bind fun _ _ => (fitArgs_failsOnly cv el hr he ps _).bind fun _ _ =>
            .pure _
        · split
          · exact (fitArgs_failsOnly cv el hr he ps []).bind fun _ _ => .pure _
          · exact .pure _

namespace TypeTable

variable (tt : TypeTable)

theorem score_failsOnly (m : Method) (args : List Argument) :
    Except.FailsOnly Fault.IsLookup (tt.score m args) :=
  (Converter.fitArgs_failsOnly tt.converter tt.elementType tt.rank_failsOnly
    tt.elementType_failsOnly m.params args).bind fun _ _ => .pure _

theorem moreSpecific_failsOnly (a b : Method) :
    Except.FailsOnly Fault.IsLookup (tt.moreSpecific a b) := by
  unfold moreSpecific
  dsimp only
  split
  · exact .pure _
  · exact (Except.FailsOnly.allM (fun _ => tt.isSubtype_failsOnly _ _) _).bind fun _ _ =>
      (Except.FailsOnly.allM (fun _ => tt.isSubtype_failsOnly _ _) _).bind fun _ _ => .pure _

/-! ## Selection -/

variable {ms : List Method} {args : List Argument} {name : String} {m w : Method}

/-- A candidate is scored with its score, or dropped when it is not applicable. -/
theorem scored_eq_ok {o : Option (Method × Score)}
    (h : (do return (← tt.score m args).map (m, ·) : Except Fault _) = .ok o) :
    ∃ so, tt.score m args = .ok so ∧ o = so.map (m, ·) := by
  cases hs : tt.score m args with
  | error e => simp [hs] at h
  | ok so =>
    simp only [hs, Except.ok_bind, Except.pure_eq, Except.ok.injEq] at h
    exact ⟨so, rfl, h.symm⟩

theorem scored_failsOnly (args : List Argument) (m : Method) :
    Except.FailsOnly Fault.IsLookup
      (do return (← tt.score m args).map (m, ·) : Except Fault (Option (Method × Score))) :=
  (tt.score_failsOnly m args).bind fun _ _ => .pure _

theorem selectBest_of_error {e : Fault}
    (h : ms.filterMapM (fun m => do return (← tt.score m args).map (m, ·)) = .error e) :
    tt.selectBest ms args name = .error e := by
  unfold selectBest
  rw [h]
  rfl

/-- Selection without an applicable candidate reports that none is applicable. -/
theorem selectBest_of_unscored
    (h : ms.filterMapM (fun m => do return (← tt.score m args).map (m, ·)) = .ok []) :
    tt.selectBest ms args name = .error (.noApplicableOverload name) := by
  unfold selectBest
  rw [h]
  rfl

/-- Selection among applicable candidates fails only with a look-up fault or an ambiguity,
and its winner is a candidate with the best score. -/
theorem selectBest_of_scored {x : Method × Score} {rest : List (Method × Score)}
    (h : ms.filterMapM (fun m => do return (← tt.score m args).map (m, ·)) = .ok (x :: rest)) :
    Except.FailsOnly (fun e => e.IsLookup ∨ ∃ s c, e = .ambiguousOverload s c)
        (tt.selectBest ms args name) ∧
      ∀ w, tt.selectBest ms args name = .ok w → ∃ s, (w, s) ∈ x :: rest := by
  unfold selectBest
  rw [h]
  simp only [Except.ok_bind]
  -- the tied candidates are scored ones
  have htied : ∀ w ∈ ((x :: rest).filter (·.2 = bestScore x.2 (x :: rest))).map (·.1),
      ∃ s, (w, s) ∈ x :: rest := by
    intro w hw
    obtain ⟨y, hy, rfl⟩ := List.mem_map.1 hw
    exact ⟨y.2, (List.mem_filter.1 hy).1⟩
  constructor
  · split
    · exact .pure _
    · refine (Except.FailsOnly.filterM (fun a => Except.FailsOnly.allM (fun b => ?_) _) _
        |>.mono fun e he => .inl he).bind fun winners _ => ?_
      · split
        · exact .pure _
        · exact tt.moreSpecific_failsOnly a b
      · split
        · exact .pure _
        · exact .error (.inr ⟨_, _, rfl⟩)
  · intro w hw
    split at hw
    · rename_i w' hsingle
      simp only [Except.pure_eq, Except.ok.injEq] at hw
      subst hw
      exact htied w' (by rw [hsingle]; exact List.mem_singleton_self w')
    · obtain ⟨winners, hwin, hw⟩ := Except.bind_eq_ok.1 hw
      split at hw
      · rename_i w'
        simp only [Except.pure_eq, Except.ok.injEq] at hw
        subst hw
        exact htied w' (Except.filterM_eq_ok hwin w' (List.mem_singleton_self w')).1
      · cases hw

/-- **The winner of a selection** is one of the candidates, and applicable. -/
theorem selectBest_eq_ok (h : tt.selectBest ms args name = .ok w) :
    w ∈ ms ∧ ∃ s, tt.score w args = .ok (some s) := by
  cases hs : ms.filterMapM (fun m => do return (← tt.score m args).map (m, ·)) with
  | error e => rw [tt.selectBest_of_error hs] at h; cases h
  | ok scored =>
    cases scored with
    | nil => rw [tt.selectBest_of_unscored hs] at h; cases h
    | cons x rest =>
      obtain ⟨s, hws⟩ := (tt.selectBest_of_scored hs).2 w h
      obtain ⟨m, hm, hfm⟩ := Except.filterMapM_eq_ok hs _ hws
      obtain ⟨so, hso, hmap⟩ := tt.scored_eq_ok hfm
      -- the scored pair names its candidate
      cases so with
      | none => cases hmap
      | some s' =>
        simp only [Option.map_some, Option.some.injEq, Prod.mk.injEq] at hmap
        obtain ⟨rfl, rfl⟩ := hmap
        exact ⟨hm, s, hso⟩

/-- **Selection reports no applicable overload exactly when no candidate is applicable**, under
the name it was given. -/
theorem selectBest_eq_noApplicable {n : String} :
    tt.selectBest ms args name = .error (.noApplicableOverload n) ↔
      n = name ∧ ∀ m ∈ ms, tt.score m args = .ok none := by
  have hscoring := Except.FailsOnly.filterMapM (tt.scored_failsOnly args) ms
  constructor
  · intro h
    cases hs : ms.filterMapM (fun m => do return (← tt.score m args).map (m, ·)) with
    | error e =>
      rw [tt.selectBest_of_error hs] at h
      cases h
      exact (hscoring _ hs).elim
    | ok scored =>
      cases scored with
      | nil =>
        rw [tt.selectBest_of_unscored hs] at h
        cases h
        refine ⟨rfl, fun m hm => ?_⟩
        obtain ⟨so, hso, hmap⟩ := tt.scored_eq_ok (Except.filterMapM_eq_nil.1 hs m hm)
        cases so with
        | none => exact hso
        | some s => cases hmap
      | cons x rest =>
        rcases (tt.selectBest_of_scored hs).1 _ h with h' | ⟨_, _, h'⟩
        · exact h'.elim
        · cases h'
  · rintro ⟨rfl, hall⟩
    refine tt.selectBest_of_unscored (Except.filterMapM_eq_nil.2 fun m hm => ?_)
    simp [hall m hm]

/-- Selection fails only with a look-up fault, with no applicable overload, or with an
ambiguity. -/
theorem selectBest_failsOnly :
    Except.FailsOnly
      (fun e => e.IsLookup ∨ e = .noApplicableOverload name ∨ ∃ s c, e = .ambiguousOverload s c)
      (tt.selectBest ms args name) := by
  cases hs : ms.filterMapM (fun m => do return (← tt.score m args).map (m, ·)) with
  | error e =>
    rw [tt.selectBest_of_error hs]
    exact .error (.inl (Except.FailsOnly.filterMapM (tt.scored_failsOnly args) ms e hs))
  | ok scored =>
    cases scored with
    | nil =>
      rw [tt.selectBest_of_unscored hs]
      exact .error (.inr (.inl rfl))
    | cons x rest =>
      refine (tt.selectBest_of_scored hs).1.mono fun e he => ?_
      rcases he with he | he
      · exact .inl he
      · exact .inr (.inr he)

end TypeTable

end CallSite
