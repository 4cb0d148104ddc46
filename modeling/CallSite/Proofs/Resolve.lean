import CallSite.Proofs.Registry
import CallSite.Proofs.Selection

/-!
# Resolving a call site

A call site resolves in three stages: the candidates of the receiver that pass the name,
visibility and static filters (`MethodTable.callCandidates`), the best of them
(`TypeTable.selectBest`), and the binding of the arguments to it (`TypeTable.bind`). No
candidate at all is reported as no applicable overload, which is what selection reports for an
empty list too, so resolving is selecting and then binding (`MethodTable.resolve_eq`).

On a host built by a run of operations every stored method has the registration shape, and
scoring and binding agree on such methods (`bind_cases_of_score`): the winner of a selection is
applicable, so binding it never fails on the arguments, and fails only when the call site lacks
an implicit value the winner needs. The main statement is `Host.Reachable.resolve_outcomes`.
-/

namespace CallSite

/-! ## The candidates of a call site -/

namespace MethodTable

variable {mt : MethodTable} {tt : TypeTable}

/-- The methods kept behind one owner are among its methods. -/
theorem mem_keepUnhidden {owner : Int} :
    ∀ {ms : List Method} {seen : List (Signature × Int)} {m : Method},
      m ∈ (keepUnhidden owner ms seen).1 → m ∈ ms
  | [], _, _, h => by simp [keepUnhidden] at h
  | a :: ms, seen, m, h => by
    simp only [keepUnhidden] at h
    -- each branch keeps `a` or not, and the rest from behind it
    split at h
    · rcases List.mem_cons.1 h with rfl | h
      · exact List.mem_cons_self
      · exact List.mem_cons_of_mem a (mem_keepUnhidden h)
    · split at h
      · split at h
        · exact List.mem_cons_of_mem a (mem_keepUnhidden h)
        · rcases List.mem_cons.1 h with rfl | h
          · exact List.mem_cons_self
          · exact List.mem_cons_of_mem a (mem_keepUnhidden h)
      · rcases List.mem_cons.1 h with rfl | h
        · exact List.mem_cons_self
        · exact List.mem_cons_of_mem a (mem_keepUnhidden h)

/-- A candidate along the owners is registered, and declared on one of them. -/
theorem mem_candidatesFrom :
    ∀ {owners : List Int} {seen : List (Signature × Int)} {m : Method},
      m ∈ mt.candidatesFrom owners seen → m ∈ mt.toList ∧ m.declaring ∈ owners
  | [], _, _, h => by simp [candidatesFrom] at h
  | owner :: owners, seen, m, h => by
    simp only [candidatesFrom, List.mem_append] at h
    rcases h with h | h
    · have hm := List.mem_filter.1 (mem_keepUnhidden h)
      exact ⟨hm.1, by simp [beq_iff_eq.1 hm.2]⟩
    · obtain ⟨hm, ho⟩ := mem_candidatesFrom h
      exact ⟨hm, List.mem_cons_of_mem owner ho⟩

/-- **The candidates of a call site** are registered methods declared on a type of the
receiver's base chain, named as called ignoring case, visible from the calling class, and
static for a static call. -/
theorem callCandidates_eq_ok {req : CallRequest} {F : List Method}
    (h : mt.callCandidates tt req = .ok F) :
    ∀ m ∈ F, m ∈ mt.toList ∧
      (∃ chain, tt.baseChain req.receiver = .ok chain ∧ m.declaring ∈ chain) ∧
      namesMatch m.name req.name = true ∧ tt.isVisible m req.caller = .ok true ∧
      (req.staticCall = true → m.isStatic = true) := by
  unfold callCandidates candidates at h
  obtain ⟨cands, hc, h⟩ := Except.bind_eq_ok.1 h
  obtain ⟨chain, hchain, hc⟩ := Except.bind_eq_ok.1 hc
  simp only [Except.pure_eq, Except.ok.injEq] at hc
  obtain ⟨vis, hvis, h⟩ := Except.bind_eq_ok.1 h
  simp only [Except.pure_eq, Except.ok.injEq] at h
  -- what the visibility filter keeps passed it, and what it was given passed the name filter
  obtain ⟨kept, hkept, hctx⟩ := Except.bind_eq_ok.1 hvis
  obtain ⟨_, -, hret⟩ := Except.bind_eq_ok.1 hctx
  simp only [Except.pure_eq, Except.ok.injEq] at hret
  subst hret
  intro m hm
  have hm' : m ∈ kept ∧ (req.staticCall = true → m.isStatic = true) := by
    rw [← h] at hm
    cases hs : req.staticCall
    · simpa [hs] using hm
    · simp only [hs, if_true, Method.staticOnly, List.mem_filter] at hm
      exact ⟨hm.1, fun _ => hm.2⟩
  obtain ⟨hmv, hv⟩ := Except.filterM_eq_ok hkept m hm'.1
  obtain ⟨hmc, hn⟩ := List.mem_filter.1 hmv
  rw [← hc] at hmc
  obtain ⟨hreg, hdecl⟩ := mem_candidatesFrom hmc
  exact ⟨hreg, ⟨chain, hchain, hdecl⟩, hn, hv, hm'.2⟩

/-- **Resolving is selecting and then binding.** With no candidate, both report that no
overload is applicable. -/
theorem resolve_eq {req : CallRequest} {F : List Method}
    (h : mt.callCandidates tt req = .ok F) :
    mt.resolve tt req =
      tt.selectBest F req.args req.name >>= fun w => tt.bind w req.args req.implicits := by
  unfold resolve
  rw [h, Except.ok_bind]
  cases F with
  | nil => rw [tt.selectBest_of_unscored (by rfl)]; rfl
  | cons m ms => rfl

end MethodTable

/-! ## Binding the winner -/

namespace TypeTable

variable (tt : TypeTable) {m : Method} {args : List Argument} {imp : Implicits}

theorem applicable_eq_ok {b : Bool} :
    tt.applicable m args = .ok b ↔ ∃ o, tt.score m args = .ok o ∧ o.isSome = b := by
  unfold applicable
  cases tt.score m args <;> simp

/-- A bound call is a call of the method that was bound. -/
theorem bind_method {call : BoundCall} (h : tt.bind m args imp = .ok call) : call.method = m := by
  rw [bind, Converter.bind_eq, Except.map_eq_ok] at h
  obtain ⟨bs, -, rfl⟩ := h
  rfl

/-- **Binding an applicable method of the registration shape** succeeds, or misses an implicit
value that the call site lacks. -/
theorem bind_applicable (hshape : ParamsShape m.params) {s : Score}
    (hs : tt.score m args = .ok (some s)) :
    (imp.Lacks m ∧ ∃ k, tt.bind m args imp = .error (.missingImplicit k)) ∨
      (¬imp.Lacks m ∧ ∃ call, tt.bind m args imp = .ok call) := by
  rcases bind_cases_of_score tt args imp hshape hs with h | ⟨-, h, -⟩ |
      ⟨hl, -, call, -, hcall, -⟩
  · exact .inl h
  · cases h
  · exact .inr ⟨hl, call, hcall⟩

end TypeTable

/-! ## Resolving on a host -/

namespace Host

variable {h : Host} {req : CallRequest} {F : List Method}

/-- On a host built by a run, resolving ends with the fault of selection, with a missing
implicit value that the winner needs and the call site lacks, or with the bound call of the
winner. -/
theorem Reachable.resolve_cases (hr : h.Reachable)
    (hF : h.methods.callCandidates h.types req = .ok F) :
    (∀ e, h.resolve req = .error e →
      h.types.selectBest F req.args req.name = .error e ∨
        ∃ w k, h.types.selectBest F req.args req.name = .ok w ∧ req.implicits.Lacks w ∧
          e = .missingImplicit k) ∧
    ∀ call, h.resolve req = .ok call →
      ∃ w, h.types.selectBest F req.args req.name = .ok w ∧
        h.types.bind w req.args req.implicits = .ok call := by
  have heq : h.resolve req = _ := MethodTable.resolve_eq hF
  -- the winner is a stored method, so it has the registration shape, and it is applicable
  have hwinner : ∀ w, h.types.selectBest F req.args req.name = .ok w →
      (req.implicits.Lacks w ∧ ∃ k,
          h.types.bind w req.args req.implicits = .error (.missingImplicit k)) ∨
        (¬req.implicits.Lacks w ∧ ∃ call, h.types.bind w req.args req.implicits = .ok call) := by
    intro w hw
    obtain ⟨hwF, s, hs⟩ := h.types.selectBest_eq_ok hw
    have hstored := (MethodTable.callCandidates_eq_ok hF w hwF).1
    exact h.types.bind_applicable ((hr.nodup_registered.2 w hstored).shape) hs
  constructor
  · intro e he
    rw [heq] at he
    cases hs : h.types.selectBest F req.args req.name with
    | error e' =>
      rw [hs, Except.error_bind] at he
      cases he
      exact .inl rfl
    | ok w =>
      rw [hs, Except.ok_bind] at he
      rcases hwinner w hs with ⟨hl, k, hk⟩ | ⟨-, call, hcall⟩
      · rw [hk] at he
        cases he
        exact .inr ⟨w, k, rfl, hl, rfl⟩
      · rw [hcall] at he
        cases he
  · intro call hc
    rw [heq] at hc
    obtain ⟨w, hw, hcall⟩ := Except.bind_eq_ok.1 hc
    exact ⟨w, hw, hcall⟩

/-- A fault of resolving other than a missing implicit value is the fault of selection. -/
theorem Reachable.selectBest_of_resolve_error (hr : h.Reachable)
    (hF : h.methods.callCandidates h.types req = .ok F) {e : Fault}
    (he : h.resolve req = .error e) (hk : ∀ k, e ≠ .missingImplicit k) :
    h.types.selectBest F req.args req.name = .error e := by
  rcases (hr.resolve_cases hF).1 e he with hs | ⟨w, k, -, -, rfl⟩
  · exact hs
  · exact absurd rfl (hk k)

/-- **Resolving a call site on a host built by a run.** Given the candidates that pass the
filters, resolving is selecting the best of them and binding the arguments to it. It reports no
applicable overload exactly when no candidate is applicable, and an ambiguity exactly when
selection does. It never fails on the arguments, and misses an implicit value only when the
winner needs a `<static>` or `<locals>` value that the call site lacks. A bound call is of a
candidate: declared on a type of the receiver's base chain, named as called ignoring case,
visible from the calling class, static for a static call, and applicable. -/
theorem Reachable.resolve_outcomes (hr : h.Reachable)
    (hF : h.methods.callCandidates h.types req = .ok F) :
    h.resolve req = (h.types.selectBest F req.args req.name >>= fun w =>
        h.types.bind w req.args req.implicits) ∧
      (h.resolve req = .error (.noApplicableOverload req.name) ↔
        ∀ m ∈ F, h.types.applicable m req.args = .ok false) ∧
      (∀ s c, h.resolve req = .error (.ambiguousOverload s c) ↔
        h.types.selectBest F req.args req.name = .error (.ambiguousOverload s c)) ∧
      (∀ e, h.resolve req = .error e → ¬e.IsArgument) ∧
      (∀ k, h.resolve req = .error (.missingImplicit k) →
        ∃ w, h.types.selectBest F req.args req.name = .ok w ∧ req.implicits.Lacks w) ∧
      ∀ call, h.resolve req = .ok call →
        call.method ∈ F ∧
          (∃ chain, h.types.baseChain req.receiver = .ok chain ∧
            call.method.declaring ∈ chain) ∧
          namesMatch call.method.name req.name = true ∧
          h.types.isVisible call.method req.caller = .ok true ∧
          (req.staticCall = true → call.method.isStatic = true) ∧
          h.types.applicable call.method req.args = .ok true := by
  obtain ⟨herr, hok⟩ := hr.resolve_cases hF
  have heq : h.resolve req = _ := MethodTable.resolve_eq hF
  refine ⟨heq, ⟨fun he => ?_, fun hall => ?_⟩, fun s c => ⟨fun he => ?_, fun hs => ?_⟩,
    fun e he => ?_, fun k he => ?_, fun call hc => ?_⟩
  · -- no applicable overload comes from selection, which reports it for no applicable one
    obtain ⟨-, hall⟩ := h.types.selectBest_eq_noApplicable.1
      (hr.selectBest_of_resolve_error hF he (by simp))
    exact fun m hm => h.types.applicable_eq_ok.2 ⟨none, hall m hm, rfl⟩
  · have hs : h.types.selectBest F req.args req.name =
        .error (.noApplicableOverload req.name) := by
      refine h.types.selectBest_eq_noApplicable.2 ⟨rfl, fun m hm => ?_⟩
      obtain ⟨o, ho, hno⟩ := h.types.applicable_eq_ok.1 (hall m hm)
      cases o with
      | none => exact ho
      | some _ => cases hno
    rw [heq, hs]
    rfl
  · exact hr.selectBest_of_resolve_error hF he (by simp)
  · rw [heq, hs]
    rfl
  · -- selection fails on look-ups or with its own faults, and binding the winner only misses
    -- an implicit value
    rcases herr e he with hs | ⟨w, k, -, -, rfl⟩
    · rcases h.types.selectBest_failsOnly e hs with hl | rfl | ⟨s, c, rfl⟩
      · exact hl.not_isArgument
      · simp [Fault.IsArgument]
      · simp [Fault.IsArgument]
    · simp [Fault.IsArgument]
  · rcases herr _ he with hs | ⟨w, k', hw, hl, -⟩
    · rcases h.types.selectBest_failsOnly _ hs with hl | hk | ⟨s, c, hk⟩
      · simp [Fault.IsLookup] at hl
      · cases hk
      · cases hk
    · exact ⟨w, hw, hl⟩
  · obtain ⟨w, hw, hcall⟩ := hok call hc
    rw [h.types.bind_method hcall]
    obtain ⟨hwF, s, hs⟩ := h.types.selectBest_eq_ok hw
    obtain ⟨-, hchain, hname, hvis, hstatic⟩ := MethodTable.callCandidates_eq_ok hF w hwF
    exact ⟨hwF, hchain, hname, hvis, hstatic, h.types.applicable_eq_ok.2 ⟨_, hs, rfl⟩⟩

/-- A host with `Int` (id 4), `Float` (id 5), a class `Base` (id 6) with `f(Float)` and `f(Int)`,
and a class `Derived` (id 7) of base `Base` with its own `f(Int)`, resolves the call
`Derived::f(1)`: the derived `f(Int)` hides the base one, so two overloads are left to select
from. -/
theorem resolve_outcomes_of_hidden_overload :
    let h := (((((((Host.fresh).apply (.types (.known .int))).apply (.types (.known .float))).apply
      (.types (.klass "Base" none []))).apply (.types (.klass "Derived" (some 6) []))).apply
      (.register ⟨1, "f", 6, [⟨"x", 5, none, false⟩], false, .publicAccess, none⟩)).apply
      (.register ⟨2, "f", 6, [⟨"x", 4, none, false⟩], false, .publicAccess, none⟩)).apply
      (.register ⟨3, "f", 7, [⟨"x", 4, none, false⟩], false, .publicAccess, none⟩)
    let req : CallRequest :=
      { receiver := 7, name := "f", args := [⟨.int 1, 4⟩],
        implicits := { context := .value .none 1 } }
    let F : List Method :=
      [⟨3, "f", 7, [⟨0, "x", 4, none, false, .regular⟩], false, .publicAccess, none⟩,
        ⟨1, "f", 6, [⟨0, "x", 5, none, false, .regular⟩], false, .publicAccess, none⟩]
    h.Reachable ∧ h.methods.callCandidates h.types req = .ok F ∧
      h.resolve req = (h.types.selectBest F req.args req.name >>= fun w =>
          h.types.bind w req.args req.implicits) ∧
      (h.resolve req = .error (.noApplicableOverload req.name) ↔
        ∀ m ∈ F, h.types.applicable m req.args = .ok false) ∧
      (∀ s c, h.resolve req = .error (.ambiguousOverload s c) ↔
        h.types.selectBest F req.args req.name = .error (.ambiguousOverload s c)) ∧
      (∀ e, h.resolve req = .error e → ¬e.IsArgument) ∧
      (∀ k, h.resolve req = .error (.missingImplicit k) →
        ∃ w, h.types.selectBest F req.args req.name = .ok w ∧ req.implicits.Lacks w) ∧
      ∀ call, h.resolve req = .ok call →
        call.method ∈ F ∧
          (∃ chain, h.types.baseChain req.receiver = .ok chain ∧
            call.method.declaring ∈ chain) ∧
          namesMatch call.method.name req.name = true ∧
          h.types.isVisible call.method req.caller = .ok true ∧
          (req.staticCall = true → call.method.isStatic = true) ∧
          h.types.applicable call.method req.args = .ok true := by
  intro h req F
  have hr : h.Reachable := .step _ (.step _ (.step _ (.step _ (.step _ (.step _ (.step _
    (.init _ _)))))))
  -- the walk goes from `Derived` to its base `Base`, which has none
  have hchain : h.types.baseChain 7 = .ok [7, 6] := by
    unfold TypeTable.baseChain
    rw [show h.types.ref? 7 = some ⟨7, by decide⟩ from rfl]
    dsimp only
    rw [TypeTable.baseChainFrom.eq_1]
    show Except.ok ((7 : Int) :: h.types.baseChainFrom ⟨6, by decide⟩) = _
    rw [TypeTable.baseChainFrom.eq_1]
    rfl
  have hF : h.methods.callCandidates h.types req = .ok F := by
    unfold MethodTable.callCandidates MethodTable.candidates
    rw [show req.receiver = 7 from rfl, hchain]
    rfl
  exact ⟨hr, hF, Reachable.resolve_outcomes hr hF⟩

end Host

end CallSite
