import CallSite.Host
import CallSite.Proofs.Registration

/-!
# What every run of type operations keeps

A type table is built from the empty table by the operations of `TypeOp`; an operation that
fails gives no table, and the run goes on from the one it had (`TypeTable.Reachable`). Each
operation that succeeds either finds what it was asked for and changes nothing, or adds one
type under the next id (`TypeTable.Adds`), and the tables built so are `TypeTable.WellBuilt`:
the parents of a class are classes, every array type is the cached array of its element and
every cache entry an array type, every well-known entry names a type of its kind, and the only
`Mixed` type is the well-known one.

With the ordering of ids that every table carries (`TypeTable.refs_lt`), this gives the laws
of the type table:

* the ids of its types are `1, …, nextId - 1` (`TypeTable.find?_isSome_iff`);
* the parents of a class are classes with smaller ids (`TypeTable.WellBuilt.class_parent`);
* `ensureArray` and `elementType` are inverse to each other, and `ensureArray` gives different
  elements different arrays (`TypeTable.WellBuilt.elementType_ensureArray`,
  `TypeTable.WellBuilt.ensureArray_elementType`, `TypeTable.WellBuilt.ensureArray_injective`);
* a well-known type is created once, and the only type of its kind for `Mixed`;
* an operation fails exactly with the fault of its first parent that is no class, or of its
  unknown element (`TypeTable.WellBuilt.run_eq_error`).
-/

namespace CallSite

namespace Except

variable {ε α β : Type}

theorem bind_pure_eq_error {x : Except ε α} {f : α → β} {e : ε} :
    (x >>= fun a => .ok (f a)) = .error e ↔ x = .error e := by
  cases x <;> simp

/-- A list mapped through a check that fails exactly with the faults of `g` fails with the
fault of its first failing element. -/
theorem mapM_eq_error_iff {f : α → Except ε β} {g : α → Option ε}
    (hfg : ∀ a e, f a = .error e ↔ g a = some e) :
    ∀ {l : List α} {e : ε}, l.mapM f = .error e ↔ l.findSome? g = some e
  | [], e => by simp
  | a :: l, e => by
    rw [List.mapM_cons, List.findSome?_cons]
    cases hf : f a with
    | error e' => simp [(hfg a e').1 hf]
    | ok b =>
      have hg : g a = none := by
        cases hga : g a with
        | none => rfl
        | some e' => simp [(hfg a e').2 hga] at hf
      simp only [hg, ok_bind, pure_eq]
      rw [bind_pure_eq_error, mapM_eq_error_iff hfg]

end Except

namespace TypeTable

variable {tt tt' : TypeTable} {t p : Int} {d : TypeDef}

/-! ## Ids -/

/-- The ids of the types are `1, …, nextId - 1`. -/
theorem find?_isSome_iff (tt : TypeTable) (t : Int) :
    (tt.find? t).isSome ↔ 0 < t ∧ t < tt.nextId := by
  have hn : tt.nextId = tt.size + 1 := rfl
  simp only [find?, ref?, Option.isSome_map]
  split <;> simp <;> omega

/-- A type refers only to types with smaller positive ids, which the table has. -/
theorem find?_refs (h : tt.find? t = some d) (hp : p ∈ d.shape.refs) :
    0 < p ∧ p < t ∧ (tt.find? p).isSome := by
  obtain ⟨r, hr, rfl⟩ := Option.map_eq_some_iff.1 h
  have hlt := tt.defOf_refs_lt r hp
  have hle := r.2.2
  rw [ref?_eq_some hr] at hlt hle
  have hn : tt.nextId = tt.size + 1 := rfl
  exact ⟨hlt.1, hlt.2, (tt.find?_isSome_iff p).2 ⟨hlt.1, by omega⟩⟩

theorem lt_nextId (h : tt.find? t = some d) : t < tt.nextId :=
  ((tt.find?_isSome_iff t).1 (by simp [h])).2

/-! ## Growth -/

/-- `tt'` has every type of `tt`, under the same id. -/
def Extends (tt tt' : TypeTable) : Prop :=
  ∀ ⦃t d⦄, tt.find? t = some d → tt'.find? t = some d

theorem Extends.refl (tt : TypeTable) : tt.Extends tt := fun _ _ h => h

theorem get_eq_ok : tt.get t = .ok d ↔ tt.find? t = some d := by
  unfold get
  split <;> simp_all

theorem name_of_find? (h : tt.find? t = some d) : tt.name t = .ok d.name := by
  simp [name, get, h, Except.map]

theorem name_of_unknown (h : tt.find? t = none) : tt.name t = .error (.unknownType t) := by
  simp [name, get, h, Except.map]

theorem Extends.get (h : tt.Extends tt') (hg : tt.get t = .ok d) : tt'.get t = .ok d :=
  get_eq_ok.2 (h (get_eq_ok.1 hg))

/-- An array type stays one as the table grows. -/
theorem Extends.isArray (h : tt.Extends tt') (ha : tt.isArray t = .ok true) :
    tt'.isArray t = .ok true := by
  unfold TypeTable.isArray at ha ⊢
  cases hg : tt.get t with
  | error e => simp [hg, Except.map] at ha
  | ok d => simpa [h.get hg, hg, Except.map] using ha

/-- `tt'` is `tt` with the type `d` added under the next id, and `K` and `A` appended to its
well-known entries and its array cache. -/
structure Adds (tt tt' : TypeTable) (d : TypeDef) (K : List (WellKnown × Int))
    (A : List (Int × Int)) : Prop where
  find? : ∀ s, tt'.find? s = if s = tt.nextId then some d else tt.find? s
  known : tt'.known = tt.known ++ K
  arrays : tt'.arrays = tt.arrays ++ A

theorem Adds.extends {K A} (h : tt.Adds tt' d K A) : tt.Extends tt' := by
  intro s ds hs
  rw [h.find? s, if_neg (Int.ne_of_lt (lt_nextId hs))]
  exact hs

theorem adds_push (tt : TypeTable) (d : TypeDef)
    (h : ∀ p ∈ d.shape.refs, 0 < p ∧ p ≤ tt.size) :
    tt.Adds (tt.push d h).1 d [] [] :=
  ⟨find?_push tt d h, by simp [push], by simp [push]⟩

/-! ## What each operation does -/

/-- A well-known type is found, or created under the next id and recorded. -/
theorem ensureKnown_cases {k : WellKnown} (h : tt.ensureKnown k = (tt', t)) :
    (tt.known.lookup k = some t ∧ tt' = tt) ∨
      (tt.known.lookup k = none ∧ t = tt.nextId ∧
        tt.Adds tt' ⟨k.name, k.shape⟩ [(k, tt.nextId)] []) := by
  unfold ensureKnown at h
  cases hl : tt.known.lookup k with
  | some t₀ =>
    simp only [hl, Prod.mk.injEq] at h
    exact .inl ⟨by rw [h.2], h.1.symm⟩
  | none =>
    simp only [hl, Prod.mk.injEq] at h
    obtain ⟨rfl, rfl⟩ := h
    have hp := adds_push tt ⟨k.name, k.shape⟩
      (by cases k <;> simp [WellKnown.shape, TypeShape.refs])
    exact .inr ⟨rfl, rfl, hp.find?, by simp [hp.known, push_id], hp.arrays⟩

/-- A scalar is created under the next id. -/
theorem newScalar_adds (tt : TypeTable) (name : String) :
    (tt.newScalar name).2 = tt.nextId ∧ tt.Adds (tt.newScalar name).1 ⟨name, .scalar⟩ [] [] :=
  ⟨rfl, adds_push _ _ _⟩

/-- The fault that `p` gives as a parent of a new class named `child`: none when it is a class,
the unknown id when it names no type, and otherwise the parent that is no class. -/
def parentFault (tt : TypeTable) (child : String) (p : Int) : Option Fault :=
  match tt.find? p with
  | none => some (.unknownType p)
  | some d => if d.shape.isClass then none else some (.nonClassParent child d.name)

theorem classParent_eq_ok {name : String} {r : tt.Ref} (h : tt.classParent name p = .ok r) :
    r.1 = p ∧ ∃ pd, tt.find? p = some pd ∧ pd.shape.isClass = true := by
  unfold classParent at h
  cases hr : tt.ref? p with
  | none => simp [hr] at h
  | some r₀ =>
    simp only [hr] at h
    split at h
    · cases h
      exact ⟨ref?_eq_some hr, tt.defOf r, by simp [find?, hr], ‹_›⟩
    · cases h

theorem classParent_eq_error {name : String} {e : Fault} :
    tt.classParent name p = .error e ↔ tt.parentFault name p = some e := by
  unfold classParent parentFault find?
  cases tt.ref? p with
  | none => simp
  | some r => by_cases hc : (tt.defOf r).shape.isClass <;> simp [hc]

/-- The parents checked one by one are the given ids, and all of them are classes. -/
theorem mapM_classParent {name : String} :
    ∀ {ps : List Int} {rs : List tt.Ref}, ps.mapM (tt.classParent name) = .ok rs →
      rs.map (·.1) = ps ∧ ∀ p ∈ ps, ∃ pd, tt.find? p = some pd ∧ pd.shape.isClass = true
  | [], rs, h => by simp_all
  | p :: ps, rs, h => by
    simp only [List.mapM_cons, Except.bind_eq_ok, Except.pure_eq, Except.ok.injEq] at h
    obtain ⟨r, hr, rs', hrs', rfl⟩ := h
    obtain ⟨hr₁, hp⟩ := classParent_eq_ok hr
    obtain ⟨hmap, hps⟩ := mapM_classParent hrs'
    refine ⟨by simp [hr₁, hmap], ?_⟩
    intro q hq
    rcases List.mem_cons.1 hq with rfl | hq
    · exact hp
    · exact hps q hq

/-- A class is created under the next id when all its parents are classes. -/
theorem newClass_eq_ok {name : String} {base : Option Int} {interfaces : List Int}
    (h : tt.newClass name base interfaces = .ok (tt', t)) :
    t = tt.nextId ∧
      (∀ p ∈ base.toList ++ interfaces, ∃ pd, tt.find? p = some pd ∧ pd.shape.isClass = true) ∧
      tt.Adds tt' ⟨name, .classOf base interfaces⟩ [] [] := by
  unfold newClass at h
  obtain ⟨b, hb, h⟩ := Except.bind_eq_ok.1 h
  obtain ⟨is, his, h⟩ := Except.bind_eq_ok.1 h
  simp only [Except.pure_eq, Except.ok.injEq] at h
  obtain ⟨hmap, hps⟩ := mapM_classParent his
  -- the base, checked as an option, is the given one and a class
  obtain ⟨hbase, hb'⟩ : b.map (·.1) = base ∧
      ∀ p ∈ base.toList, ∃ pd, tt.find? p = some pd ∧ pd.shape.isClass = true := by
    cases base with
    | none =>
      simp only [Option.mapM_none, Except.pure_eq, Except.ok.injEq] at hb
      simp [← hb]
    | some p =>
      simp only [Option.mapM_some, Except.map_eq_ok] at hb
      obtain ⟨r, hr, rfl⟩ := hb
      obtain ⟨hr₁, hp⟩ := classParent_eq_ok hr
      simp [hr₁, hp]
  obtain ⟨rfl, rfl⟩ := Prod.ext_iff.1 h.symm
  refine ⟨rfl, fun p hp => ?_, fun s => ?_, by simp [push], by simp [push]⟩
  · rcases List.mem_append.1 hp with hp | hp
    · exact hb' p hp
    · exact hps p hp
  · rw [find?_push, hbase, hmap]

/-- A class fails to be created exactly with the fault of its first parent, base first, that
is no class. -/
theorem newClass_eq_error {name : String} {base : Option Int} {interfaces : List Int}
    {e : Fault} :
    tt.newClass name base interfaces = .error e ↔
      (base.toList ++ interfaces).findSome? (tt.parentFault name) = some e := by
  have hmap := Except.mapM_eq_error_iff (l := interfaces) (e := e)
    (fun q f => @classParent_eq_error tt q name f)
  unfold newClass
  cases base with
  | none => simp only [Option.mapM_none, Except.pure_eq, Except.ok_bind, Except.bind_pure_eq_error,
      hmap, Option.toList_none, List.nil_append]
  | some p =>
    simp only [Option.mapM_some, Option.toList_some, List.singleton_append, List.findSome?_cons]
    cases hp : tt.classParent name p with
    | error e' => simp [classParent_eq_error.1 hp, Functor.map, Except.map]
    | ok r =>
      have hg : tt.parentFault name p = none := by
        cases hf : tt.parentFault name p with
        | none => rfl
        | some e' => simp [classParent_eq_error.2 hf] at hp
      simp only [hg, Functor.map, Except.map, Except.ok_bind, Except.pure_eq,
        Except.bind_pure_eq_error, hmap]

/-- The cached array of an element is found without a change. -/
theorem ensureArray_of_lookup {e a : Int} (h : tt.arrays.lookup e = some a) :
    tt.ensureArray e = .ok (tt, a) := by
  simp [ensureArray, h]

/-- An array type is found in the cache, or created under the next id for a known element
and cached. -/
theorem ensureArray_cases {e a : Int} (h : tt.ensureArray e = .ok (tt', a)) :
    (tt.arrays.lookup e = some a ∧ tt' = tt) ∨
      (tt.arrays.lookup e = none ∧ a = tt.nextId ∧ ∃ ed, tt.find? e = some ed ∧
        tt.Adds tt' ⟨ed.name ++ "[]", .arrayOf e⟩ [] [(e, tt.nextId)]) := by
  unfold ensureArray at h
  cases hl : tt.arrays.lookup e with
  | some a₀ =>
    simp only [hl, Except.ok.injEq, Prod.mk.injEq] at h
    exact .inl ⟨by rw [h.2], h.1.symm⟩
  | none =>
    simp only [hl] at h
    split at h
    · cases h
    · rename_i r hr
      simp only [Except.ok.injEq, Prod.mk.injEq] at h
      obtain ⟨rfl, rfl⟩ := h
      have hp := adds_push tt ⟨(tt.defOf r).name ++ "[]", .arrayOf e⟩ (by
        simp only [TypeShape.refs, List.mem_singleton]
        rintro p rfl
        rw [← ref?_eq_some hr]
        exact r.2)
      exact .inr ⟨rfl, rfl, tt.defOf r, by simp [find?, hr], hp.find?, hp.known,
        by simp [push]⟩

/-- An array type fails to be found or created exactly when its element is unknown and has no
cached array. -/
theorem ensureArray_eq_error {e : Int} {f : Fault} :
    tt.ensureArray e = .error f ↔
      tt.arrays.lookup e = none ∧ tt.find? e = none ∧ f = .unknownType e := by
  unfold ensureArray
  cases hl : tt.arrays.lookup e with
  | some a => simp
  | none =>
    simp only [true_and]
    split
    · rename_i hr
      simp [find?, hr, eq_comm]
    · rename_i r hr
      simp [find?, hr]

/-! ## One step of a run -/

/-- What an operation that succeeds does to the table: nothing, or it adds one type whose
parents are classes, caching it when it is the first array type of an element and recording
it when it is a well-known type not recorded before. -/
def Step (tt tt' : TypeTable) : Prop :=
  tt' = tt ∨ ∃ d K A, tt.Adds tt' d K A ∧
    (∀ p ∈ d.shape.parents, ∃ pd, tt.find? p = some pd ∧ pd.shape.isClass = true) ∧
    ((A = [] ∧ d.shape.isArray = false) ∨
      ∃ e, d.shape = .arrayOf e ∧ tt.arrays.lookup e = none ∧ A = [(e, tt.nextId)]) ∧
    ((K = [] ∧ d.shape ≠ .mixed) ∨
      ∃ k, d = ⟨k.name, k.shape⟩ ∧ tt.known.lookup k = none ∧ K = [(k, tt.nextId)])

theorem Step.extends (h : tt.Step tt') : tt.Extends tt' := by
  rcases h with rfl | ⟨d, K, A, hadds, -⟩
  · exact Extends.refl _
  · exact hadds.extends

/-- **What each operation does.** -/
theorem step_of_run {op : TypeOp} (h : op.run tt = .ok (tt', t)) : tt.Step tt' := by
  cases op with
  | known k =>
    simp only [TypeOp.run, Except.ok.injEq] at h
    rcases ensureKnown_cases h with ⟨-, rfl⟩ | ⟨hl, -, hadds⟩
    · exact .inl rfl
    · refine .inr ⟨_, _, _, hadds, ?_, .inl ⟨rfl, ?_⟩, .inr ⟨k, rfl, hl, rfl⟩⟩ <;>
        cases k <;> simp [WellKnown.shape, TypeShape.parents, TypeShape.isArray]
  | scalar name =>
    simp only [TypeOp.run, Except.ok.injEq] at h
    obtain ⟨-, hadds⟩ := newScalar_adds tt name
    rw [h] at hadds
    exact .inr ⟨_, _, _, hadds, by simp [TypeShape.parents], .inl ⟨rfl, rfl⟩,
      .inl ⟨rfl, by simp⟩⟩
  | klass name base interfaces =>
    obtain ⟨-, hparents, hadds⟩ := newClass_eq_ok h
    exact .inr ⟨_, _, _, hadds, hparents, .inl ⟨rfl, rfl⟩, .inl ⟨rfl, by simp⟩⟩
  | array e =>
    rcases ensureArray_cases h with ⟨-, rfl⟩ | ⟨hl, -, ed, -, hadds⟩
    · exact .inl rfl
    · exact .inr ⟨_, _, _, hadds, by simp [TypeShape.parents], .inr ⟨e, rfl, hl, rfl⟩,
        .inl ⟨rfl, by simp⟩⟩

/-! ## Well-built tables -/

/-- What the operations keep of a table, beyond the ordering of ids that every table has. -/
structure WellBuilt (tt : TypeTable) : Prop where
  /-- The parents of a class are classes. -/
  class_parents : ∀ ⦃t d⦄, tt.find? t = some d → ∀ p ∈ d.shape.parents,
    ∃ pd, tt.find? p = some pd ∧ pd.shape.isClass = true
  /-- Every array type is the cached array of its element. -/
  array_cached : ∀ ⦃a d e⦄, tt.find? a = some d → d.shape = .arrayOf e →
    tt.arrays.lookup e = some a
  /-- Every cached array is an array type of its element. -/
  cached_array : ∀ ⦃e a⦄, tt.arrays.lookup e = some a →
    ∃ d, tt.find? a = some d ∧ d.shape = .arrayOf e
  /-- Every well-known entry names a type of its kind, under its name. -/
  known_type : ∀ ⦃k t⦄, tt.known.lookup k = some t → tt.find? t = some ⟨k.name, k.shape⟩
  /-- A type of the kind of `Mixed` is the well-known one. -/
  mixed_known : ∀ ⦃t d⦄, tt.find? t = some d → d.shape = .mixed →
    tt.known.lookup .mixed = some t

theorem find?_empty (t : Int) : TypeTable.empty.find? t = none := by
  have h := TypeTable.empty.find?_isSome_iff t
  have hn : TypeTable.empty.nextId = 1 := rfl
  rw [hn] at h
  cases hf : TypeTable.empty.find? t with
  | none => rfl
  | some d =>
    have := h.1 (by simp [hf])
    omega

theorem wellBuilt_empty : TypeTable.empty.WellBuilt where
  class_parents := by simp [find?_empty]
  array_cached := by simp [find?_empty]
  cached_array := by simp [empty]
  known_type := by simp [empty]
  mixed_known := by simp [find?_empty]

/-- A type added under the next id is either the new one or an old one. -/
theorem Adds.find?_eq_some {K A} (h : tt.Adds tt' d K A) {s : Int} {ds : TypeDef}
    (hs : tt'.find? s = some ds) : (s = tt.nextId ∧ ds = d) ∨ tt.find? s = some ds := by
  rw [h.find? s] at hs
  split at hs
  · exact .inl ⟨‹_›, (Option.some.inj hs).symm⟩
  · exact .inr hs

/-- An entry appended behind a list that had none for its key is what the key finds. -/
theorem lookup_append_singleton {γ : Type} [BEq γ] [LawfulBEq γ] {l : List (γ × Int)}
    {x y : γ} {v w : Int} (h : (l ++ [(x, v)]).lookup y = some w) :
    l.lookup y = some w ∨ (l.lookup y = none ∧ y = x ∧ w = v) := by
  rw [List.lookup_append] at h
  cases hl : l.lookup y with
  | some w' =>
    simp only [hl, Option.some_or] at h
    exact .inl h
  | none =>
    simp only [hl, Option.none_or, List.lookup_cons, List.lookup_nil] at h
    by_cases hy : y = x
    · subst hy
      simp only [beq_self_eq_true, Option.some.injEq] at h
      exact .inr ⟨rfl, rfl, h.symm⟩
    · rw [beq_eq_false_iff_ne.mpr hy] at h
      cases h

theorem WellBuilt.step (hw : tt.WellBuilt) (h : tt.Step tt') : tt'.WellBuilt := by
  rcases h with rfl | ⟨d, K, A, hadds, hparents, hA, hK⟩
  · exact hw
  have hext := hadds.extends
  have hnew : tt'.find? tt.nextId = some d := by simp [hadds.find?]
  constructor
  · -- a parent, of the new type or of an old one, is a class of the old table
    intro s ds hs p hp
    obtain ⟨pd, hpd, hc⟩ : ∃ pd, tt.find? p = some pd ∧ pd.shape.isClass = true := by
      rcases hadds.find?_eq_some hs with ⟨-, rfl⟩ | hs
      · exact hparents p hp
      · exact hw.class_parents hs p hp
    exact ⟨pd, hext hpd, hc⟩
  · intro a ds e hs he
    rw [hadds.arrays, List.lookup_append]
    rcases hadds.find?_eq_some hs with ⟨rfl, rfl⟩ | hs
    · rcases hA with ⟨-, hA⟩ | ⟨e', he', hl, rfl⟩
      · simp [he, TypeShape.isArray] at hA
      · rw [he] at he'
        cases he'
        simp [hl]
    · simp [hw.array_cached hs he]
  · intro e a hl
    rw [hadds.arrays] at hl
    rcases hA with ⟨rfl, -⟩ | ⟨e', he', -, rfl⟩
    · obtain ⟨ds, hs, he⟩ := hw.cached_array (by simpa using hl)
      exact ⟨ds, hext hs, he⟩
    · rcases lookup_append_singleton hl with hl | ⟨-, rfl, rfl⟩
      · obtain ⟨ds, hs, he⟩ := hw.cached_array hl
        exact ⟨ds, hext hs, he⟩
      · exact ⟨d, hnew, he'⟩
  · intro k s hl
    rw [hadds.known] at hl
    rcases hK with ⟨rfl, -⟩ | ⟨k', rfl, -, rfl⟩
    · exact hext (hw.known_type (by simpa using hl))
    · rcases lookup_append_singleton hl with hl | ⟨-, rfl, rfl⟩
      · exact hext (hw.known_type hl)
      · exact hnew
  · intro s ds hs hm
    rw [hadds.known, List.lookup_append]
    rcases hadds.find?_eq_some hs with ⟨rfl, rfl⟩ | hs
    · rcases hK with ⟨-, hK⟩ | ⟨k, rfl, hl, rfl⟩
      · exact absurd hm hK
      · -- only the well-known `Mixed` has the shape of `Mixed`
        obtain rfl : k = .mixed := by cases k <;> first | rfl | simp [WellKnown.shape] at hm
        simp [hl]
    · simp [hw.mixed_known hs hm]

/-! ## Runs -/

/-- The tables that a run of type operations builds from the empty table. An operation that
fails gives no table, and the run goes on from the one it had. -/
inductive Reachable : TypeTable → Prop
  | empty : Reachable TypeTable.empty
  | step {tt tt' : TypeTable} {t : Int} (op : TypeOp) :
      Reachable tt → op.run tt = .ok (tt', t) → Reachable tt'

theorem Reachable.wellBuilt (h : tt.Reachable) : tt.WellBuilt := by
  induction h with
  | empty => exact wellBuilt_empty
  | step op _ hrun ih => exact ih.step (step_of_run hrun)

/-! ## The laws of a well-built table -/

theorem elementType_eq_ok {a e : Int} :
    tt.elementType a = .ok e ↔ ∃ d, tt.find? a = some d ∧ d.shape = .arrayOf e := by
  unfold elementType
  cases hg : tt.get a with
  | error f =>
    simp only [Except.error_bind, reduceCtorEq, false_iff, not_exists, not_and]
    intro d hd _
    rw [← get_eq_ok, hg] at hd
    cases hd
  | ok d =>
    rw [get_eq_ok] at hg
    cases hd : d.shape <;> simp [hg, hd]

namespace WellBuilt

variable (hw : tt.WellBuilt) {a e : Int}
include hw

/-- The parents of a class are classes with smaller ids. -/
theorem class_parent (h : tt.find? t = some d) (hp : p ∈ d.shape.parents) :
    p < t ∧ ∃ pd, tt.find? p = some pd ∧ pd.shape.isClass = true :=
  ⟨(find?_refs h (TypeShape.mem_refs_of_mem_parents hp)).2.1, hw.class_parents h p hp⟩

/-- An array type has a known element with a smaller id, and is that element's cached array. -/
theorem array_type (h : tt.find? a = some d) (he : d.shape = .arrayOf e) :
    e < a ∧ (tt.find? e).isSome ∧ tt.ensureArray e = .ok (tt, a) := by
  have hr := find?_refs h (p := e) (by simp [he, TypeShape.refs])
  exact ⟨hr.2.1, hr.2.2, ensureArray_of_lookup (hw.array_cached h he)⟩

/-- The type that `ensureArray` gives is an array type of the element. -/
theorem ensureArray_find? {tt' : TypeTable} (h : tt.ensureArray e = .ok (tt', a)) :
    ∃ d, tt'.find? a = some d ∧ d.shape = .arrayOf e := by
  rcases ensureArray_cases h with ⟨hl, rfl⟩ | ⟨-, rfl, ed, -, hadds⟩
  · exact hw.cached_array hl
  · exact ⟨⟨ed.name ++ "[]", .arrayOf e⟩, by simp [hadds.find?], rfl⟩

/-- The array over a known element has that element. -/
theorem elementType_ensureArray (he : (tt.find? e).isSome) :
    ∃ tt' a, tt.ensureArray e = .ok (tt', a) ∧ tt'.elementType a = .ok e := by
  cases h : tt.ensureArray e with
  | error f =>
    obtain ⟨-, hf, -⟩ := ensureArray_eq_error.1 h
    simp [hf] at he
  | ok r => exact ⟨r.1, r.2, rfl, elementType_eq_ok.2 (hw.ensureArray_find? h)⟩

/-- The array over the element of an array type is that array type, found without a change. -/
theorem ensureArray_elementType (h : tt.elementType a = .ok e) :
    tt.ensureArray e = .ok (tt, a) := by
  obtain ⟨d, hd, he⟩ := elementType_eq_ok.1 h
  exact ensureArray_of_lookup (hw.array_cached hd he)

/-- Asked in turn for two elements, `ensureArray` gives the same array type only for the same
element. -/
theorem ensureArray_injective {e₁ e₂ : Int} {tt₁ tt₂ : TypeTable}
    (h₁ : tt.ensureArray e₁ = .ok (tt₁, a)) (h₂ : tt₁.ensureArray e₂ = .ok (tt₂, a)) :
    e₁ = e₂ := by
  have hw₁ : tt₁.WellBuilt :=
    hw.step (step_of_run (show (TypeOp.array e₁).run tt = .ok (tt₁, a) from h₁))
  obtain ⟨d₁, hd₁, he₁⟩ := hw.ensureArray_find? h₁
  obtain ⟨d₂, hd₂, he₂⟩ := hw₁.ensureArray_find? h₂
  -- the second table still has the array type that the first call gave
  have hd : tt₂.find? a = some d₁ :=
    (step_of_run (show (TypeOp.array e₂).run tt₁ = .ok (tt₂, a) from h₂)).extends hd₁
  rw [hd₂, Option.some.injEq] at hd
  rw [hd, he₁, TypeShape.arrayOf.injEq] at he₂
  exact he₂

/-- A well-known type is created once: the type that `ensureKnown` gives has the name and kind
of its entry, and asking again gives it without a change. -/
theorem ensureKnown_stable {k : WellKnown} (h : tt.ensureKnown k = (tt', t)) :
    tt'.find? t = some ⟨k.name, k.shape⟩ ∧ tt'.ensureKnown k = (tt', t) := by
  have hw' : tt'.WellBuilt :=
    hw.step (step_of_run (show (TypeOp.known k).run tt = .ok (tt', t) by simp [TypeOp.run, h]))
  have hl : tt'.known.lookup k = some t := by
    rcases ensureKnown_cases h with ⟨hl, rfl⟩ | ⟨hl, rfl, hadds⟩
    · exact hl
    · simp [hadds.known, List.lookup_append, hl]
  exact ⟨hw'.known_type hl, by simp [ensureKnown, hl]⟩

/-- The only type of the kind of `Mixed` is the well-known one. -/
theorem ensureKnown_mixed (h : tt.find? t = some d) (hm : d.shape = .mixed) :
    tt.ensureKnown .mixed = (tt, t) := by
  simp [ensureKnown, hw.mixed_known h hm]

end WellBuilt

end TypeTable

/-- The fault with which a type operation fails on a table, if it fails: that of the first
parent of a class, base first, that is no class, or the unknown element of an array type. The
other operations never fail. -/
def TypeOp.fault? : TypeOp → TypeTable → Option Fault
  | .klass name base interfaces, tt => (base.toList ++ interfaces).findSome? (tt.parentFault name)
  | .array elem, tt => if (tt.find? elem).isSome then none else some (.unknownType elem)
  | _, _ => none

namespace TypeTable

variable {tt : TypeTable}

/-- **How an operation fails.** It fails exactly with the fault that `TypeOp.fault?` gives. -/
theorem WellBuilt.run_eq_error (hw : tt.WellBuilt) {op : TypeOp} {e : Fault} :
    op.run tt = .error e ↔ op.fault? tt = some e := by
  cases op with
  | known k => simp [TypeOp.run, TypeOp.fault?]
  | scalar name => simp [TypeOp.run, TypeOp.fault?]
  | klass name base interfaces => exact newClass_eq_error
  | array elem =>
    simp only [TypeOp.run, TypeOp.fault?, ensureArray_eq_error]
    cases hf : tt.find? elem with
    | some ed => simp
    | none =>
      -- every cached element is known, so an unknown one has no cached array
      have hl : tt.arrays.lookup elem = none := by
        cases hl : tt.arrays.lookup elem with
        | none => rfl
        | some a =>
          obtain ⟨d, hd, he⟩ := hw.cached_array hl
          have := (find?_refs hd (p := elem) (by simp [he, TypeShape.refs])).2.2
          simp [hf] at this
      simp [hl, eq_comm]

/-- The laws of a type table, as its operations promise them. -/
structure Laws (tt : TypeTable) : Prop where
  /-- The ids of the types are `1, …, nextId - 1`. -/
  ids : ∀ t, (tt.find? t).isSome ↔ 0 < t ∧ t < tt.nextId
  /-- The base and the interfaces of a class are classes with smaller ids. -/
  class_parents : ∀ t d base interfaces, tt.find? t = some d →
    d.shape = .classOf base interfaces → ∀ p ∈ base.toList ++ interfaces,
      p < t ∧ ∃ pd, tt.find? p = some pd ∧ pd.shape.isClass = true
  /-- An array type has a known element with a smaller id, and is the array type that
  `ensureArray` gives for that element, without a change. -/
  array_element : ∀ a d e, tt.find? a = some d → d.shape = .arrayOf e →
    e < a ∧ (tt.find? e).isSome ∧ tt.ensureArray e = .ok (tt, a)
  /-- The array over a known element has that element. -/
  elementType_ensureArray : ∀ e, (tt.find? e).isSome →
    ∃ tt' a, tt.ensureArray e = .ok (tt', a) ∧ tt'.elementType a = .ok e
  /-- The array over the element of an array type is that array type. -/
  ensureArray_elementType : ∀ a e, tt.elementType a = .ok e → tt.ensureArray e = .ok (tt, a)
  /-- Asked in turn for two elements, `ensureArray` gives the same array type only for the
  same element. -/
  ensureArray_injective : ∀ e₁ e₂ a tt₁ tt₂, tt.ensureArray e₁ = .ok (tt₁, a) →
    tt₁.ensureArray e₂ = .ok (tt₂, a) → e₁ = e₂
  /-- A well-known type has the name and kind of its entry, and is created once. -/
  ensureKnown_stable : ∀ k tt' t, tt.ensureKnown k = (tt', t) →
    tt'.find? t = some ⟨k.name, k.shape⟩ ∧ tt'.ensureKnown k = (tt', t)
  /-- The only type of the kind of `Mixed` is the well-known one. -/
  mixed_unique : ∀ t d, tt.find? t = some d → d.shape = .mixed →
    tt.ensureKnown .mixed = (tt, t)
  /-- An operation fails exactly with the fault of its first parent that is no class, or of
  its unknown element; failing, it gives no table. -/
  run_eq_error : ∀ (op : TypeOp) e, op.run tt = .error e ↔ op.fault? tt = some e

/-- **The laws of every table that a run of type operations builds.** -/
theorem Reachable.laws (hr : tt.Reachable) : tt.Laws := by
  have hw := hr.wellBuilt
  exact {
    ids := tt.find?_isSome_iff
    class_parents := fun t d base interfaces h hc p hp =>
      hw.class_parent h (by simpa [hc, TypeShape.parents] using hp)
    array_element := fun a d e h he => hw.array_type h he
    elementType_ensureArray := fun e he => hw.elementType_ensureArray he
    ensureArray_elementType := fun a e h => hw.ensureArray_elementType h
    ensureArray_injective := fun e₁ e₂ a tt₁ tt₂ h₁ h₂ => hw.ensureArray_injective h₁ h₂
    ensureKnown_stable := fun k tt' t h => hw.ensureKnown_stable h
    mixed_unique := fun t d h hm => hw.ensureKnown_mixed h hm
    run_eq_error := fun op e => hw.run_eq_error }

/-- A run on a fresh host's table that creates `Int` (id 4), fails to create a class deriving
from `Int`, creates a class `Base` (id 5) and a class `Derived` (id 6) of base `Base`, and then
the arrays `Int[]` (id 7) and `Derived[]` (id 8): the table it builds keeps the laws. -/
theorem laws_after_classes_and_arrays :
    let tt := (((((((Host.fresh).apply (.types (.known .int))).apply
      (.types (.klass "Bad" (some 4) []))).apply (.types (.klass "Base" none []))).apply
      (.types (.klass "Derived" (some 5) []))).apply (.types (.array 4))).apply
      (.types (.array 6))).types
    tt.Reachable ∧ tt.Laws := by
  intro tt
  have hfresh : (Host.fresh).types.Reachable :=
    .step (.known .locals) (.step (.known .typeToken) (.step (.known .context) .empty rfl) rfl) rfl
  have hint : ((Host.fresh).apply (.types (.known .int))).types.Reachable :=
    .step (t := 4) (.known .int) hfresh rfl
  -- the class deriving from `Int` is refused, and the table stays as it was
  have hbad : (((Host.fresh).apply (.types (.known .int))).apply
      (.types (.klass "Bad" (some 4) []))).types.Reachable := hint
  have hr : tt.Reachable :=
    .step (t := 8) (.array 6) (.step (t := 7) (.array 4) (.step (t := 6)
      (.klass "Derived" (some 5) []) (.step (t := 5) (.klass "Base" none []) hbad rfl) rfl) rfl) rfl
  exact ⟨hr, Reachable.laws hr⟩

end TypeTable

end CallSite
