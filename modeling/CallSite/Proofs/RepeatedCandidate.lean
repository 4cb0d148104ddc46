import CallSite.Proofs.SelectionOrder

/-!
# Listing a candidate twice

Selection counts the candidates tied for the best score as entries of its list, but leaves a
candidate out of its own specificity tests by its id. So a candidate listed once more is tied
once more when it ties at all, and is then more specific than every other entry exactly when it
was before. A tie it won alone becomes an ambiguity among one more entry: a candidate that wins
when listed once is reported ambiguous when listed twice. An ambiguity counts one more entry,
and every other outcome stays (`TypeTable.Relisted`).

The main statement is `TypeTable.selectBest_append_mem`; `TypeTable.selectBest_listed_twice` is
the smallest call where listing the winner twice changes the answer.
-/

namespace CallSite

namespace Except

variable {ε α γ : Type}

/-- A monadic `filterMap` over a list with one more element runs the last one after the rest. -/
theorem filterMapM_append_singleton {f : γ → Except ε (Option α)} {x : γ} :
    ∀ {l : List γ}, (l ++ [x]).filterMapM f =
      l.filterMapM f >>= fun r => f x >>= fun o => pure (r ++ o.toList)
  | [] => by
    rw [List.nil_append, List.filterMapM_cons]
    cases f x with
    | error e => rfl
    | ok o => cases o <;> rfl
  | c :: l => by
    rw [List.cons_append, List.filterMapM_cons, List.filterMapM_cons, filterMapM_append_singleton]
    cases f c with
    | error e => rfl
    | ok o =>
      cases o with
      | none => rfl
      | some b =>
        cases l.filterMapM f with
        | error e => rfl
        | ok r => cases f x <;> rfl

theorem filterAuxM_append_singleton {p : γ → Except ε Bool} {x : γ} :
    ∀ {l acc : List γ}, (l ++ [x]).filterAuxM p acc =
      l.filterAuxM p acc >>= fun acc' => p x >>= fun b => pure (cond b (x :: acc') acc')
  | [], acc => by simp [List.filterAuxM]
  | c :: l, acc => by
    simp only [List.cons_append, List.filterAuxM]
    cases p c with
    | error e => rfl
    | ok b => exact filterAuxM_append_singleton

/-- A monadic filter over a list with one more element tests the last one after the rest. -/
theorem filterM_append_singleton {p : γ → Except ε Bool} {l : List γ} {x : γ} :
    (l ++ [x]).filterM p =
      l.filterM p >>= fun r => p x >>= fun b => pure (if b then r ++ [x] else r) := by
  unfold List.filterM
  rw [filterAuxM_append_singleton]
  cases l.filterAuxM p [] with
  | error e => rfl
  | ok acc =>
    cases p x with
    | error e => rfl
    | ok b => cases b <;> simp

theorem allM_append {p : γ → Except ε Bool} :
    ∀ {l l' : List γ}, (l ++ l').allM p = l.allM p >>= fun b => if b then l'.allM p else pure false
  | [], l' => by simp
  | c :: l, l' => by
    rw [List.cons_append, List.allM_cons, List.allM_cons, allM_append]
    cases p c with
    | error e => rfl
    | ok b => cases b <;> rfl

/-- A monadic `all` over a list with one of its elements appended again is the same test: the
repeated element was tested already. -/
theorem allM_append_singleton_of_mem {p : γ → Except ε Bool} {l : List γ} {x : γ} (hx : x ∈ l) :
    (l ++ [x]).allM p = l.allM p := by
  rw [allM_append]
  cases h : l.allM p with
  | error e => rfl
  | ok b =>
    cases b with
    | false => rfl
    | true => simp [allM_eq_ok_true h x hx]

end Except

namespace TypeTable

variable {tt : TypeTable} {ms T : List Method} {args : List Argument} {name : String} {m : Method}

/-! ## The tied candidates and their tie-break -/

/-- How listing `m` once more among the tied candidates `T` turns an outcome `r` of their
tie-break into `r'`: a win of `m` becomes an ambiguity among one more entry, under the name the
ambiguity of `T` would have; an ambiguity counts one more entry; any other outcome stays. -/
def Relisted (T : List Method) (m : Method) (name : String) (r r' : Except Fault Method) :
    Prop :=
  (r = .ok m → r' = .error (.ambiguousOverload
      (if name.isEmpty then (T.head?.map (·.name)).getD name else name) (T.length + 1))) ∧
    (∀ n k, r = .error (.ambiguousOverload n k) → r' = .error (.ambiguousOverload n (k + 1))) ∧
    (r ≠ .ok m → (∀ n k, r ≠ .error (.ambiguousOverload n k)) → r' = r)

/-- An outcome that listing `m` once more leaves alone. -/
theorem Relisted.of_eq {r : Except Fault Method} (hwin : r ≠ .ok m)
    (hamb : ∀ n k, r ≠ .error (.ambiguousOverload n k)) : Relisted T m name r r :=
  ⟨fun h => absurd h hwin, fun n k h => absurd h (hamb n k), fun _ _ => rfl⟩

/-- A win of `m` becomes an ambiguity among one more entry. -/
theorem Relisted.win : Relisted T m name (.ok m) (.error (.ambiguousOverload
    (if name.isEmpty then (T.head?.map (·.name)).getD name else name) (T.length + 1))) :=
  ⟨fun _ => rfl, fun _ _ h => (by cases h), fun h => absurd rfl h⟩

/-- An ambiguity counts one more entry. -/
theorem Relisted.ambiguous {s : String} {k : Nat} :
    Relisted T m name (.error (.ambiguousOverload s k))
      (.error (.ambiguousOverload s (k + 1))) := by
  refine ⟨fun h => (by cases h), fun n k' h => ?_, fun _ h => absurd rfl (h s k)⟩
  simp only [Except.error.injEq, Fault.ambiguousOverload.injEq] at h
  obtain ⟨rfl, rfl⟩ := h
  rfl

/-- A failed look-up is neither a win nor an ambiguity, so it stays. -/
theorem Relisted.of_lookup {e : Fault} (he : e.IsLookup) :
    Relisted T m name (.error e) (.error e) := by
  refine Relisted.of_eq (by simp) fun n k h => ?_
  simp only [Except.error.injEq] at h
  subst h
  simp [Fault.IsLookup] at he

/-- A candidate listed once more has the same rank among the candidates. -/
theorem isBest_append_mem (hm : m ∈ ms) : tt.isBest (ms ++ [m]) args = tt.isBest ms args := by
  funext x
  unfold isBest
  split
  · rw [List.all_append]
    cases h : ms.all _
    · rfl
    · simpa using List.all_eq_true.1 h m hm
  · rfl

/-- A candidate listed once more is tied once more exactly when it is tied. -/
theorem tied_append_mem (hm : m ∈ ms) :
    (m ∈ tt.tied ms args → tt.tied (ms ++ [m]) args = tt.tied ms args ++ [m]) ∧
      (m ∉ tt.tied ms args → tt.tied (ms ++ [m]) args = tt.tied ms args) := by
  have hmem : m ∈ tt.tied ms args ↔ tt.isBest ms args m = true := by
    simp [tied, List.mem_filter, hm]
  unfold tied at hmem ⊢
  rw [isBest_append_mem hm, List.filter_append]
  exact ⟨fun h => by simp [hmem.1 h], fun h => by simp [mt hmem.2 h]⟩

/-- A tied candidate listed once more passes the test of the tie-break once more exactly when it
passes it: its test against the longer list is its test against the tied ones, and so is that of
every other entry. -/
theorem tieWinners_append_mem (hm : m ∈ T) :
    (∀ e, tt.tieWinners T = .error e → tt.tieWinners (T ++ [m]) = .error e) ∧
      ∀ W, tt.tieWinners T = .ok W →
        (m ∈ W → tt.tieWinners (T ++ [m]) = .ok (W ++ [m])) ∧
          (m ∉ W → tt.tieWinners (T ++ [m]) = .ok W) := by
  unfold tieWinners
  simp only [Except.allM_append_singleton_of_mem hm]
  rw [Except.filterM_append_singleton]
  refine ⟨fun e he => by rw [he]; rfl, fun W hW => ?_⟩
  obtain ⟨hall, hWeq⟩ := Except.filterM_eq_ok_filter hW
  obtain ⟨b, hb⟩ := hall m hm
  -- the kept entries are those whose test came out true, `m`'s among them
  have hmW : m ∈ W ↔ b = true := by
    simp only [hWeq, List.mem_filter, hm, true_and, hb]
    cases b <;> rfl
  rw [hW, Except.ok_bind, hb, Except.ok_bind]
  exact ⟨fun h => by simp [hmW.1 h], fun h => by simp [mt hmW.2 h]⟩

/-- **The tie-break among tied candidates with one of them listed once more**: a win of that
candidate becomes an ambiguity among one more entry, an ambiguity counts one more entry, and any
other outcome stays. -/
theorem tieBreak_append_mem (hm : m ∈ T) :
    Relisted T m name (tt.tieBreak T name) (tt.tieBreak (T ++ [m]) name) := by
  have hT : T ≠ [] := List.ne_nil_of_mem hm
  -- the longer list is no lone candidate, and names an ambiguity as `T` does
  have hone : ∀ w, T ++ [m] ≠ [w] := fun w h => by
    obtain ⟨x, xs, rfl⟩ := List.exists_cons_of_ne_nil hT
    simp at h
  have hshown : (if name.isEmpty then ((T ++ [m]).head?.map (·.name)).getD name else name) =
      if name.isEmpty then (T.head?.map (·.name)).getD name else name := by
    rw [List.head?_append_of_ne_nil _ hT]
  have hlen : (T ++ [m]).length = T.length + 1 := by simp
  by_cases hsingle : ∃ w, T = [w]
  · -- a lone candidate listed twice passes its test twice, never being compared with itself
    obtain ⟨w, rfl⟩ := hsingle
    obtain rfl := List.mem_singleton.1 hm
    have hwin : tt.tieWinners [m] = .ok [m] := by
      unfold tieWinners
      rw [Except.filterM_eq_ok_of_forall (q := fun _ => true) fun c hc => ?_]
      · rfl
      · obtain rfl := List.mem_singleton.1 hc
        simp
    have hpair := (tieBreak_of_winners name hone
      (((tieWinners_append_mem hm).2 [m] hwin).1 (List.mem_singleton_self m))).2 (by simp)
    rw [hpair, hshown, hlen]
    exact Relisted.win
  simp only [not_exists] at hsingle
  cases hW : tt.tieWinners T with
  | error e =>
    rw [tieBreak_of_error hsingle hW, tieBreak_of_error hone ((tieWinners_append_mem hm).1 e hW)]
    exact Relisted.of_lookup (tt.tieWinners_failsOnly T e hW)
  | ok W =>
    obtain ⟨hin, hout⟩ := (tieWinners_append_mem hm).2 W hW
    obtain ⟨hwonT, hambT⟩ := tieBreak_of_winners name hsingle hW
    by_cases hWs : ∃ w, W = [w]
    · obtain ⟨w, rfl⟩ := hWs
      rw [hwonT w rfl]
      by_cases hwm : w = m
      · -- the winner listed twice makes two winners
        subst hwm
        rw [(tieBreak_of_winners name hone (hin (List.mem_singleton_self w))).2 (by simp), hshown,
          hlen]
        exact Relisted.win
      · have hmW : m ∉ [w] := by simpa using Ne.symm hwm
        rw [(tieBreak_of_winners name hone (hout hmW)).1 w rfl]
        exact Relisted.of_eq (by simpa using hwm) (by simp)
    · simp only [not_exists] at hWs
      rw [hambT hWs]
      by_cases hmW : m ∈ W
      · -- several winners, or none, stay so with one more entry
        have hne : ∀ w, W ++ [m] ≠ [w] := fun w h => by
          obtain ⟨rfl, -⟩ := List.append_eq_singleton_iff.1 h |>.resolve_right
            (fun h' => hWs w h'.1)
          simp at hmW
        rw [(tieBreak_of_winners name hone (hin hmW)).2 hne, hshown, hlen]
        exact Relisted.ambiguous
      · rw [(tieBreak_of_winners name hone (hout hmW)).2 hWs, hshown, hlen]
        exact Relisted.ambiguous

/-! ## Selection with a candidate listed once more -/

/-- **Listing a candidate of the list once more.** When it does not tie for the best score,
selection gives what it gave; when it does, a win of it becomes an ambiguity among one more
entry, an ambiguity counts one more entry, and any other outcome stays. -/
theorem selectBest_append_mem (hm : m ∈ ms) :
    (m ∉ tt.tied ms args → tt.selectBest (ms ++ [m]) args name = tt.selectBest ms args name) ∧
      (m ∈ tt.tied ms args → Relisted (tt.tied ms args) m name (tt.selectBest ms args name)
        (tt.selectBest (ms ++ [m]) args name)) := by
  have hsub : ∀ x ∈ ms ++ [m], x ∈ ms := fun x hx => by
    rcases List.mem_append.1 hx with hx | hx
    · exact hx
    · rw [List.mem_singleton.1 hx]
      exact hm
  cases hs : ms.filterMapM (fun m => do return (← tt.score m args).map (m, ·)) with
  | error e =>
    -- scoring fails at the same candidate, before the repeated one is reached
    have hs' : (ms ++ [m]).filterMapM (fun m => do return (← tt.score m args).map (m, ·)) =
        .error e := by
      rw [Except.filterMapM_append_singleton, hs]
      rfl
    have hlookup := Except.FailsOnly.filterMapM (tt.scored_failsOnly args) ms e hs
    rw [tt.selectBest_of_error hs, tt.selectBest_of_error hs']
    exact ⟨fun _ => rfl, fun _ => Relisted.of_lookup hlookup⟩
  | ok scored =>
    obtain ⟨sc, hsc⟩ := scores_of_scored hs
    have hsc' : ∀ x ∈ ms ++ [m], tt.score x args = .ok (sc x) := fun x hx => hsc x (hsub x hx)
    by_cases happ : ∃ x ∈ ms, (sc x).isSome
    · -- both selections are the tie-break among their tied candidates
      have happ' : ∃ x ∈ ms ++ [m], (sc x).isSome := by
        obtain ⟨x, hx, hsome⟩ := happ
        exact ⟨x, List.mem_append_left _ hx, hsome⟩
      rw [(selectBest_eq_tieBreak hsc happ).1, (selectBest_eq_tieBreak hsc' happ').1]
      refine ⟨fun h => by rw [(tied_append_mem hm).2 h], fun h => ?_⟩
      rw [(tied_append_mem hm).1 h]
      exact tieBreak_append_mem h
    · -- no candidate is applicable: both report none, and nothing is tied
      have hnone : ∀ x ∈ ms, sc x = none := fun x hx =>
        Option.not_isSome_iff_eq_none.1 fun h => happ ⟨x, hx, h⟩
      have hscore : ∀ x ∈ ms, tt.score x args = .ok none := fun x hx => by
        rw [hsc x hx, hnone x hx]
      refine ⟨fun _ => ?_, fun h => ?_⟩
      · rw [(tt.selectBest_eq_noApplicable).2 ⟨rfl, hscore⟩,
          (tt.selectBest_eq_noApplicable).2 ⟨rfl, fun x hx => hscore x (hsub x hx)⟩]
      · rw [tied_eq_nil hsc hnone] at h
        cases h

/-- A method `f(x : Int)` (id 1) registered on a class `Base` (id 5) of a fresh host with `Int`
(id 4), called with one `Int`: listing it twice. -/
theorem selectBest_append_mem_of_lone_overload :
    let h := (((Host.fresh).apply (.types (.known .int))).apply
      (.types (.klass "Base" none []))).apply
      (.register { id := 1, name := "f", declaring := 5, params := [{ name := "x", type := 4 }] })
    let m : Method := ⟨1, "f", 5, [⟨0, "x", 4, none, false, .regular⟩], false, .publicAccess, none⟩
    let args : List Argument := [⟨.int 5, 4⟩]
    m ∈ [m] ∧
      (m ∉ h.types.tied [m] args →
        h.types.selectBest ([m] ++ [m]) args "f" = h.types.selectBest [m] args "f") ∧
      (m ∈ h.types.tied [m] args → Relisted (h.types.tied [m] args) m "f"
        (h.types.selectBest [m] args "f") (h.types.selectBest ([m] ++ [m]) args "f")) := by
  intro h m args
  exact ⟨List.mem_singleton_self m, selectBest_append_mem (List.mem_singleton_self m)⟩

/-- The same registered method, listed once and then twice: alone it wins, listed twice the call
is reported ambiguous among two equally good overloads. -/
theorem selectBest_listed_twice :
    let h := (((Host.fresh).apply (.types (.known .int))).apply
      (.types (.klass "Base" none []))).apply
      (.register { id := 1, name := "f", declaring := 5, params := [{ name := "x", type := 4 }] })
    let m : Method := ⟨1, "f", 5, [⟨0, "x", 4, none, false, .regular⟩], false, .publicAccess, none⟩
    let args : List Argument := [⟨.int 5, 4⟩]
    h.Reachable ∧ h.methods.toList = [m] ∧ h.types.selectBest [m] args "f" = .ok m ∧
      h.types.selectBest ([m] ++ [m]) args "f" = .error (.ambiguousOverload "f" 2) := by
  intro h m args
  exact ⟨.step _ (.step _ (.step _ (.init _ _))), rfl, rfl, rfl⟩

end TypeTable

end CallSite
