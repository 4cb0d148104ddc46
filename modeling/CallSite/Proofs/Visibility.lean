import CallSite.Method.Filter
import CallSite.Proofs.SelectionOrder

/-!
# When the visibility filter fails, and what it keeps

The visibility filter asks nothing of the table for a public method, and for a private method
called from its declaring type. Every other test looks types up: a rejection names the
declaring type and the calling class, and the test of a protected method asks whether the two
are related by subtyping in either direction. After the whole list, the calling class is named
once more. So the filter fails exactly when the calling class is an id with no type, or some
method that is not public is declared on an id with no type other than the calling class; every
such fault names the unknown id. Otherwise it keeps, in order, the methods that the rules of
visibility let the calling class see (`TypeTable.visibleFrom`). The main statement is
`TypeTable.visible_spec`.
-/

namespace CallSite.TypeTable

variable {tt : TypeTable} {m : Method} {cls : Option Int}

/-! ## Faults that name unknown types -/

/-- The fault names an id for which the table has no type. -/
def UnknownFault (tt : TypeTable) (e : Fault) : Prop :=
  ∃ t, e = .unknownType t ∧ tt.find? t = none

theorem name_failsOnly (t : Int) : Except.FailsOnly tt.UnknownFault (tt.name t) := by
  cases h : tt.find? t with
  | none => rw [name_of_unknown h]; exact .error ⟨t, rfl, h⟩
  | some d => rw [name_of_find? h]; exact .ok _

theorem contextName_failsOnly : Except.FailsOnly tt.UnknownFault (tt.contextName cls) := by
  cases cls with
  | none => exact .ok _
  | some c => exact name_failsOnly c

theorem isSubtype_failsOnly_unknown (a b : Int) :
    Except.FailsOnly tt.UnknownFault (tt.isSubtype a b) := by
  intro e he
  obtain ⟨-, ⟨hb, rfl⟩ | ⟨-, ha, rfl⟩⟩ := isSubtype_eq_error_iff.1 he
  · exact ⟨b, rfl, hb⟩
  · exact ⟨a, rfl, ha⟩

theorem reject_failsOnly : Except.FailsOnly tt.UnknownFault (tt.reject m cls) :=
  (name_failsOnly _).bind fun _ _ => contextName_failsOnly.bind fun _ _ => .pure _

/-- Every fault of the visibility test names an unknown type. -/
theorem isVisible_failsOnly : Except.FailsOnly tt.UnknownFault (tt.isVisible m cls) := by
  cases hv : m.visibility with
  | publicAccess =>
    simp only [isVisible, hv]
    exact .ok _
  | privateAccess =>
    simp only [isVisible, hv]
    split
    · exact .ok _
    · exact reject_failsOnly
  | protectedAccess =>
    cases cls with
    | none =>
      simp only [isVisible, hv]
      exact reject_failsOnly
    | some c =>
      simp only [isVisible, hv]
      -- the two subtype tests, then the rejection when neither holds
      have hjoin : ∀ related : Bool, Except.FailsOnly tt.UnknownFault
          (if related = true then pure true else tt.reject m (some c)) := fun related => by
        split
        · exact .pure _
        · exact reject_failsOnly
      refine (isSubtype_failsOnly_unknown c m.declaring).bind fun x _ => ?_
      split
      · exact (Except.FailsOnly.pure true).bind fun related _ => hjoin related
      · exact (isSubtype_failsOnly_unknown m.declaring c).bind fun related _ => hjoin related

/-! ## The test of one method from a known class -/

/-- The calling class is top-level code or a type of the table. -/
def KnownCaller (tt : TypeTable) (cls : Option Int) : Prop :=
  ∀ c, cls = some c → (tt.find? c).isSome

/-- Whether the rules of visibility let code in the class `cls` (`none` for top-level code) call
`m`: a public method always; a private one from its declaring type; a protected one from a class
that is a subtype or a supertype of its declaring type. -/
def visibleFrom (tt : TypeTable) (cls : Option Int) (m : Method) : Bool :=
  match m.visibility, cls with
  | .publicAccess, _ => true
  | .privateAccess, _ => cls == some m.declaring
  | .protectedAccess, none => false
  | .protectedAccess, some c =>
    tt.isSubtype c m.declaring == .ok true || tt.isSubtype m.declaring c == .ok true

theorem contextName_of_knownCaller (hcls : tt.KnownCaller cls) :
    ∃ s, tt.contextName cls = .ok s := by
  cases cls with
  | none => exact ⟨_, rfl⟩
  | some c =>
    obtain ⟨d, hd⟩ := Option.isSome_iff_exists.1 (hcls c rfl)
    exact ⟨d.name, name_of_find? hd⟩

/-- From a known class, a rejection fails exactly when the declaring type is unknown. -/
theorem reject_of_knownCaller (hcls : tt.KnownCaller cls) :
    tt.reject m cls =
      if tt.find? m.declaring = none then .error (.unknownType m.declaring) else .ok false := by
  obtain ⟨s, hs⟩ := contextName_of_knownCaller hcls
  cases hd : tt.find? m.declaring with
  | none => simp [reject, name_of_unknown hd]
  | some d => simp [reject, name_of_find? hd, hs]

/-- **The test of one method from a known class** fails exactly for a method that is not public
declared on an unknown type, with the fault naming that type, and otherwise applies the rules of
visibility. -/
theorem isVisible_of_knownCaller (hcls : tt.KnownCaller cls) :
    tt.isVisible m cls =
      if m.visibility ≠ .publicAccess ∧ tt.find? m.declaring = none then
        .error (.unknownType m.declaring)
      else .ok (tt.visibleFrom cls m) := by
  have hreject := reject_of_knownCaller (m := m) hcls
  cases hv : m.visibility with
  | publicAccess => simp [isVisible, visibleFrom, hv]
  | privateAccess =>
    by_cases hc : cls = some m.declaring
    · -- called from its declaring type, which the table has
      have hd := hcls _ hc
      simp_all [isVisible, visibleFrom, Option.isSome_iff_ne_none]
    · simp [isVisible, visibleFrom, hv, hc, hreject, beq_eq_false_iff_ne.2 hc]
  | protectedAccess =>
    cases cls with
    | none => simp [isVisible, visibleFrom, hv, hreject]
    | some c =>
      have hc : (tt.find? c).isSome := hcls c rfl
      by_cases hcd : c = m.declaring
      · subst hcd
        simp_all [isVisible, visibleFrom, isSubtype_self, Option.isSome_iff_ne_none]
      cases hd : tt.find? m.declaring with
      | none =>
        -- the first subtype test looks the unknown declaring type up
        have hsub : tt.isSubtype c m.declaring = .error (.unknownType m.declaring) :=
          isSubtype_eq_error_iff.2 ⟨hcd, .inl ⟨hd, rfl⟩⟩
        simp [isVisible, hv, hsub]
      | some d =>
        obtain ⟨x, hx⟩ := isSubtype_ok (b := m.declaring) hc (by simp [hd])
        obtain ⟨y, hy⟩ := isSubtype_ok (a := m.declaring) (by simp [hd]) hc
        cases x <;> cases y <;> simp [isVisible, visibleFrom, hv, hx, hy, hreject, hd]

/-! ## The filter over a list -/

variable {ms : List Method}

/-- Every fault of the visibility filter names an unknown type. -/
theorem visible_failsOnly : Except.FailsOnly tt.UnknownFault (tt.visible ms cls) :=
  (Except.FailsOnly.filterM (fun _ => isVisible_failsOnly) ms).bind fun _ _ =>
    contextName_failsOnly.bind fun _ _ => .pure _

/-- From an unknown class the filter fails, whatever the list: the class is named after it. -/
theorem visible_of_unknownCaller {c : Int} (hc : tt.find? c = none) :
    ∃ e, tt.visible ms (some c) = .error e := by
  unfold visible
  cases h : ms.filterM (tt.isVisible · (some c)) with
  | error e => exact ⟨e, rfl⟩
  | ok kept => exact ⟨.unknownType c, by simp [contextName, name_of_unknown hc]⟩

/-- From a known class, a method that is not public on an unknown type makes the filter fail:
its test fails, so the filter cannot run through. -/
theorem visible_of_unknownDeclaring (hcls : tt.KnownCaller cls) (hm : m ∈ ms)
    (hv : m.visibility ≠ .publicAccess) (hd : tt.find? m.declaring = none) :
    ∃ e, tt.visible ms cls = .error e := by
  unfold visible
  cases h : ms.filterM (tt.isVisible · cls) with
  | error e => exact ⟨e, rfl⟩
  | ok kept =>
    obtain ⟨b, hb⟩ := (Except.filterM_eq_ok_filter h).1 m hm
    rw [isVisible_of_knownCaller hcls, if_pos ⟨hv, hd⟩] at hb
    cases hb

/-- From a known class, when every method that is not public is declared on a known type, the
filter keeps the methods that the rules of visibility let the class see, in order. -/
theorem visible_of_known (hcls : tt.KnownCaller cls)
    (hms : ∀ m ∈ ms, m.visibility ≠ .publicAccess → (tt.find? m.declaring).isSome) :
    tt.visible ms cls = .ok (ms.filter (tt.visibleFrom cls)) := by
  have hkept : ms.filterM (tt.isVisible · cls) = .ok (ms.filter (tt.visibleFrom cls)) :=
    Except.filterM_eq_ok_of_forall fun m hm => by
      rw [isVisible_of_knownCaller hcls, if_neg]
      rintro ⟨hv, hd⟩
      simpa [hd] using hms m hm hv
  obtain ⟨s, hs⟩ := contextName_of_knownCaller hcls
  simp [visible, hkept, hs]

/-- The filter fails when the calling class is unknown or some method that is not public is
declared on an unknown type other than the calling class, and otherwise keeps what the rules of
visibility allow. -/
theorem visible_cases :
    (((∃ c, cls = some c ∧ tt.find? c = none) ∨
        ∃ m ∈ ms, m.visibility ≠ .publicAccess ∧ tt.find? m.declaring = none ∧
          cls ≠ some m.declaring) →
      ∃ e, tt.visible ms cls = .error e) ∧
    (¬((∃ c, cls = some c ∧ tt.find? c = none) ∨
        ∃ m ∈ ms, m.visibility ≠ .publicAccess ∧ tt.find? m.declaring = none ∧
          cls ≠ some m.declaring) →
      tt.visible ms cls = .ok (ms.filter (tt.visibleFrom cls))) := by
  refine ⟨?_, fun hno => ?_⟩
  · rintro (⟨c, rfl, hc⟩ | ⟨m, hm, hv, hd, hne⟩)
    · exact visible_of_unknownCaller hc
    · by_cases hcls : tt.KnownCaller cls
      · exact visible_of_unknownDeclaring hcls hm hv hd
      · -- an unknown calling class fails the filter anyway
        simp only [KnownCaller, not_forall, Option.not_isSome_iff_eq_none] at hcls
        obtain ⟨c, rfl, hc⟩ := hcls
        exact visible_of_unknownCaller hc
  · simp only [not_or, not_exists, not_and] at hno
    obtain ⟨hcaller, hdecl⟩ := hno
    have hcls : tt.KnownCaller cls := fun c hc => by
      simpa [Option.isSome_iff_ne_none] using hcaller c hc
    refine visible_of_known hcls fun m hm hv => ?_
    -- a method that is not public is declared on the calling class, or on a known type
    by_cases hc : cls = some m.declaring
    · exact hcls _ hc
    · simpa [Option.isSome_iff_ne_none] using fun hd => hdecl m hm hv hd hc

/-- **When the visibility filter fails, and what it keeps**, on every table and list. It fails
exactly when the calling class is an id with no type, or some method that is not public is
declared on an id with no type other than the calling class; every fault names an id with no
type; and otherwise it keeps, in order, the public methods, the private ones declared on the
calling class, and the protected ones whose declaring type is a subtype or a supertype of the
calling class. -/
theorem visible_spec (tt : TypeTable) (ms : List Method) (cls : Option Int) :
    ((∃ e, tt.visible ms cls = .error e) ↔
      (∃ c, cls = some c ∧ tt.find? c = none) ∨
        ∃ m ∈ ms, m.visibility ≠ .publicAccess ∧ tt.find? m.declaring = none ∧
          cls ≠ some m.declaring) ∧
    (∀ e, tt.visible ms cls = .error e → tt.UnknownFault e) ∧
    (¬((∃ c, cls = some c ∧ tt.find? c = none) ∨
        ∃ m ∈ ms, m.visibility ≠ .publicAccess ∧ tt.find? m.declaring = none ∧
          cls ≠ some m.declaring) →
      tt.visible ms cls = .ok (ms.filter (tt.visibleFrom cls))) := by
  refine ⟨⟨fun ⟨e, he⟩ => ?_, visible_cases.1⟩, visible_failsOnly, visible_cases.2⟩
  -- a filter that fails cannot have kept a list
  by_contra hno
  rw [visible_cases.2 hno] at he
  cases he

end CallSite.TypeTable
