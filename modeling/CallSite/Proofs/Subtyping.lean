import CallSite.Proofs.Types
import Mathlib.Logic.Relation
import Mathlib.Order.Defs.Unbundled

/-!
# Subtyping is reachability, and a partial order

`TypeTable.isSubtype` answers whether a value of one type may stand where another is declared.
This module says what it computes, against a relation stated without it: `sub` is a subtype of
`sup` when the two are the same id, when `sup` is a type of the kind of `Mixed`, or when `sup`
is reached from `sub` by one or more steps from a class to its base or to one of its interfaces
(`TypeTable.Inherits`, the transitive closure of `TypeTable.ParentOf`). The test fails exactly
when it must look up an id that names no type: `sup` first, then `sub`.

The test runs a depth-first search (`TypeTable.searchParents`) that checks whether `sup` is a
parent of each type it visits, not whether it is the type itself, and skips the types it has
visited. It finds exactly what the type inherits by an invariant of its stack
(`TypeTable.SearchInv`): no visited type has `sup` as a parent, and every parent of a visited
type is visited or still on the stack. So a visited type that inherits `sup` leaves a type on
the stack, not yet visited, that inherits it too.

Every step of `Inherits` goes to a smaller id, by the ordering that every table carries, and
only classes have parents. So the test is transitive on every table, and on a table built by
the type operations, whose only `Mixed` type is the well-known one, it is antisymmetric too.
The main statement is `TypeTable.Reachable.isSubtype_spec`.
-/

namespace CallSite.TypeTable

variable {tt : TypeTable} {a b c t p : Int}

/-! ## Parents and inheritance -/

/-- `p` is a parent of the type `t`: its base class or one of its interfaces. -/
def ParentOf (tt : TypeTable) (t p : Int) : Prop :=
  ∃ d, tt.find? t = some d ∧ p ∈ d.shape.parents

/-- `sup` is reached from `sub` by one or more steps from a class to one of its parents. -/
def Inherits (tt : TypeTable) (sub sup : Int) : Prop :=
  Relation.TransGen tt.ParentOf sub sup

/-- A reference names its type. -/
theorem find?_ref (r : tt.Ref) : tt.find? r.1 = some (tt.defOf r) := by
  simp [find?, ref?, r.2]

/-- A parent has a smaller id, and names a type. -/
theorem ParentOf.lt (h : tt.ParentOf t p) : p < t ∧ (tt.find? p).isSome := by
  obtain ⟨d, hd, hp⟩ := h
  have := find?_refs hd (TypeShape.mem_refs_of_mem_parents hp)
  exact ⟨this.2.1, this.2.2⟩

/-- Only a class has parents. -/
theorem ParentOf.isClass (h : tt.ParentOf t p) :
    ∃ d, tt.find? t = some d ∧ d.shape.isClass = true := by
  obtain ⟨d, hd, hp⟩ := h
  refine ⟨d, hd, ?_⟩
  cases hs : d.shape <;> simp_all [TypeShape.parents, TypeShape.isClass]

/-- Inheriting goes down the ids. -/
theorem Inherits.lt (h : tt.Inherits a b) : b < a := by
  induction h with
  | single hp => exact hp.lt.1
  | tail _ hp ih => exact Int.lt_trans hp.lt.1 ih

/-- The first step of an inheritance, from a class to one of its parents. -/
theorem Inherits.first (h : tt.Inherits a b) :
    ∃ p, tt.ParentOf a p ∧ (p = b ∨ tt.Inherits p b) := by
  obtain ⟨p, hp, hrest⟩ := Relation.TransGen.head'_iff.1 h
  refine ⟨p, hp, ?_⟩
  rcases Relation.reflTransGen_iff_eq_or_transGen.1 hrest with rfl | h'
  · exact .inl rfl
  · exact .inr h'

/-- Only a class inherits. -/
theorem Inherits.isClass (h : tt.Inherits a b) :
    ∃ d, tt.find? a = some d ∧ d.shape.isClass = true := by
  obtain ⟨p, hp, -⟩ := h.first
  exact hp.isClass

/-- What a type inherits names a type. -/
theorem Inherits.isSome_right (h : tt.Inherits a b) : (tt.find? b).isSome := by
  induction h with
  | single hp => exact hp.lt.2
  | tail _ hp _ => exact hp.lt.2

/-- A type inherits `sup` when `sup` is one of its parents, or one of its parents inherits it. -/
theorem inherits_iff_of_find? {x sup : Int} {d : TypeDef} (hx : tt.find? x = some d) :
    tt.Inherits x sup ↔ sup ∈ d.shape.parents ∨ ∃ p ∈ d.shape.parents, tt.Inherits p sup := by
  constructor
  · intro hinh
    obtain ⟨p, ⟨d', hd', hp⟩, hrest⟩ := hinh.first
    rw [hx, Option.some.injEq] at hd'
    subst hd'
    rcases hrest with rfl | hrest
    · exact .inl hp
    · exact .inr ⟨p, hp, hrest⟩
  · rintro (hp | ⟨p, hp, hrest⟩)
    · exact .single ⟨d, hx, hp⟩
    · exact .head ⟨d, hx, hp⟩ hrest

/-- The recursive walk over the parents finds exactly what the type inherits. The induction
follows the walk: a parent is the type sought, or the walk goes on from it. -/
theorem reachesFrom_iff (r : tt.Ref) (sup : Int) :
    tt.reachesFrom r sup = true ↔ tt.Inherits r.1 sup := by
  induction r using reachesFrom.induct tt with
  | case1 r ih =>
    rw [reachesFrom, List.any_eq_true, inherits_iff_of_find? (find?_ref r)]
    constructor
    · rintro ⟨⟨p, hp⟩, -, hany⟩
      rcases Bool.or_eq_true_iff.1 hany with heq | hrec
      · rw [← beq_iff_eq.1 heq]
        exact .inl hp
      · exact .inr ⟨p, hp, (ih p hp).1 hrec⟩
    · rintro (hp | ⟨p, hp, hrest⟩)
      · exact ⟨⟨sup, hp⟩, List.mem_attach _ _, by simp⟩
      · exact ⟨⟨p, hp⟩, List.mem_attach _ _, by simp [(ih p hp).2 hrest]⟩

/-! ## The search of the subtype test -/

section Search

variable {sup cur : Int} {pending rest seen : List Int} {d : TypeDef}

/-- The invariant of the search for `sup`, with the stack `pending` and the visited types
`seen`. -/
structure SearchInv (tt : TypeTable) (sup : Int) (pending seen : List Int) : Prop where
  /-- A visited type with `sup` among its parents would have ended the search. -/
  not_parent : ∀ x ∈ seen, ¬tt.ParentOf x sup
  /-- The parents of a visited type were pushed when it was visited. -/
  parents_covered : ∀ x ∈ seen, ∀ p, tt.ParentOf x p → p ∈ seen ∨ p ∈ pending
  /-- Only the first type can be unknown, and the search starts with a known one. -/
  pending_known : ∀ y ∈ pending, (tt.find? y).isSome

theorem SearchInv.start {sub : Int} (h : (tt.find? sub).isSome) : tt.SearchInv sup [sub] [] :=
  ⟨by simp, by simp, by simpa using h⟩

/-- Skipping a visited type keeps the invariant: its parents were pushed already. -/
theorem SearchInv.skip (h : tt.SearchInv sup (cur :: rest) seen) (hc : cur ∈ seen) :
    tt.SearchInv sup rest seen := by
  refine ⟨h.not_parent, fun x hx p hp => ?_, fun y hy => h.pending_known y (.tail _ hy)⟩
  rcases h.parents_covered x hx p hp with hs | hpend
  · exact .inl hs
  · rcases List.mem_cons.1 hpend with rfl | hrest
    · exact .inl hc
    · exact .inr hrest

/-- Visiting a type that does not have `sup` as a parent keeps the invariant: its parents are
pushed, and they name types of the table. -/
theorem SearchInv.visit (h : tt.SearchInv sup (cur :: rest) seen) (hc : tt.find? cur = some d)
    (hsup : sup ∉ d.shape.parents) :
    tt.SearchInv sup (d.shape.parents.reverse ++ rest) (cur :: seen) := by
  refine ⟨fun x hx hpx => ?_, fun x hx p hp => ?_, fun y hy => ?_⟩
  · rcases List.mem_cons.1 hx with rfl | hx
    · obtain ⟨d', hd', hp⟩ := hpx
      rw [hc, Option.some.injEq] at hd'
      subst hd'
      exact hsup hp
    · exact h.not_parent x hx hpx
  · rcases List.mem_cons.1 hx with rfl | hx
    · obtain ⟨d', hd', hp⟩ := hp
      rw [hc, Option.some.injEq] at hd'
      subst hd'
      exact .inr (List.mem_append_left _ (List.mem_reverse.2 hp))
    · rcases h.parents_covered x hx p hp with hs | hpend
      · exact .inl (.tail _ hs)
      · rcases List.mem_cons.1 hpend with rfl | hrest
        · exact .inl (.head _)
        · exact .inr (List.mem_append_right _ hrest)
  · rcases List.mem_append.1 hy with hp | hrest
    · exact (ParentOf.lt ⟨d, hc, List.mem_reverse.1 hp⟩).2
    · exact h.pending_known y (.tail _ hrest)

/-- A visited type that inherits `sup` leaves a type on the stack, not yet visited, that inherits
it too. The induction is on the inheritance, from its first step: that step does not reach `sup`
itself, and leads to a visited type or to one on the stack. -/
theorem SearchInv.exists_unseen (h : tt.SearchInv sup pending seen) {x : Int} (hx : x ∈ seen)
    (hinh : tt.Inherits x sup) : ∃ y ∈ pending, y ∉ seen ∧ tt.Inherits y sup := by
  induction hinh using Relation.TransGen.head_induction_on with
  | single hp => exact absurd hp (h.not_parent _ hx)
  | head hp hrest ih =>
    rename_i x p
    by_cases hps : p ∈ seen
    · exact ih hps
    · rcases h.parents_covered x hx p hp with hs | hpend
      · exact absurd hs hps
      · exact ⟨p, hpend, hps, hrest⟩

/-- **The search finds exactly what the stack inherits**: from a state with the invariant, it
ends without a fault, and succeeds exactly when some type on the stack inherits `sup`. The
induction follows the search. -/
theorem SearchInv.searchParents_eq (h : tt.SearchInv sup pending seen) :
    ∃ b, tt.searchParents sup pending seen = .ok b ∧
      (b = true ↔ ∃ y ∈ pending, tt.Inherits y sup) := by
  induction pending, seen using searchParents.induct tt sup with
  | case1 seen => exact ⟨false, searchParents_nil, by simp⟩
  | case2 seen cur rest hs ih =>
    obtain ⟨b, hb, hiff⟩ := ih (h.skip (by simpa using hs))
    refine ⟨b, by rw [searchParents_seen (by simpa using hs), hb], hiff.trans ⟨?_, ?_⟩⟩
    · rintro ⟨y, hy, hinh⟩
      exact ⟨y, .tail _ hy, hinh⟩
    · rintro ⟨y, hy, hinh⟩
      rcases List.mem_cons.1 hy with rfl | hy
      · -- the skipped type was visited, so what it inherits is found below it on the stack
        obtain ⟨z, hz, hzs, hinh'⟩ := h.exists_unseen (by simpa using hs) hinh
        rcases List.mem_cons.1 hz with rfl | hz
        · exact absurd (by simpa using hs) hzs
        · exact ⟨z, hz, hinh'⟩
      · exact ⟨y, hy, hinh⟩
  | case3 seen cur rest hs hr =>
    have := h.pending_known cur (.head _)
    simp [find?, hr] at this
  | case4 seen cur rest hs r hr _ hsup =>
    have hc : tt.find? cur = some (tt.defOf r) := by simp [find?, hr]
    refine ⟨true, by rw [searchParents_visit (by simpa using hs) hc, if_pos hsup],
      iff_of_true rfl ⟨cur, .head _, ?_⟩⟩
    exact (inherits_iff_of_find? hc).2 (.inl (by simpa using hsup))
  | case5 seen cur rest hs r hr _ hsup ih =>
    have hc : tt.find? cur = some (tt.defOf r) := by simp [find?, hr]
    have hnot : sup ∉ (tt.defOf r).shape.parents := by simpa using hsup
    obtain ⟨b, hb, hiff⟩ := ih (h.visit hc hnot)
    refine ⟨b, by rw [searchParents_visit (by simpa using hs) hc, if_neg hsup, hb],
      hiff.trans ⟨?_, ?_⟩⟩
    · rintro ⟨y, hy, hinh⟩
      rcases List.mem_append.1 hy with hp | hy
      · exact ⟨cur, .head _, (inherits_iff_of_find? hc).2 (.inr ⟨y, List.mem_reverse.1 hp, hinh⟩)⟩
      · exact ⟨y, .tail _ hy, hinh⟩
    · rintro ⟨y, hy, hinh⟩
      rcases List.mem_cons.1 hy with rfl | hy
      · -- the visited type inherits `sup` through one of its parents, now on the stack
        rcases (inherits_iff_of_find? hc).1 hinh with hp | ⟨p, hp, hinh'⟩
        · exact absurd hp hnot
        · exact ⟨p, List.mem_append_left _ (List.mem_reverse.2 hp), hinh'⟩
      · exact ⟨y, List.mem_append_right _ hy, hinh⟩

/-- The search from a known type computes the recursive walk over its parents. -/
theorem searchParents_start (r : tt.Ref) (sup : Int) :
    tt.searchParents sup [r.1] [] = .ok (tt.reachesFrom r sup) := by
  have hinv : tt.SearchInv sup [r.1] [] := .start (by simp [find?_ref r])
  obtain ⟨b, hb, hiff⟩ := hinv.searchParents_eq
  rw [hb, Except.ok.injEq, Bool.eq_iff_iff, hiff, reachesFrom_iff]
  simp

end Search

/-! ## What the subtype test computes -/

/-- A type of the kind of `Mixed`. -/
def IsMixed (tt : TypeTable) (t : Int) : Prop :=
  ∃ d, tt.find? t = some d ∧ d.shape = .mixed

theorem isSubtype_self (t : Int) : tt.isSubtype t t = .ok true := by
  simp [isSubtype]

/-- Past equal ids, the test looks `sup` up first: an unknown one is the fault, and `Mixed` is
above everything. -/
theorem isSubtype_of_ne (hab : a ≠ b) :
    tt.isSubtype a b =
      match tt.find? b with
      | none => .error (.unknownType b)
      | some d =>
        if d.shape = .mixed then .ok true
        else
          match tt.ref? a with
          | none => .error (.unknownType a)
          | some r => .ok (tt.reachesFrom r b) := by
  unfold isSubtype get
  rw [if_neg hab]
  cases tt.find? b with
  | none => rfl
  | some d =>
    dsimp only
    split
    · rfl
    · -- the search from `a` looks `a` up first
      cases ha : tt.ref? a with
      | none => exact searchParents_unknown List.not_mem_nil (by simp [find?, ha])
      | some r =>
        obtain rfl := ref?_eq_some ha
        exact searchParents_start r b

/-- **The subtype test holds** exactly for equal ids, for a `Mixed` supertype, and for an
inherited one. -/
theorem isSubtype_eq_true_iff :
    tt.isSubtype a b = .ok true ↔ a = b ∨ tt.IsMixed b ∨ tt.Inherits a b := by
  by_cases hab : a = b
  · subst hab
    simp [isSubtype_self]
  rw [isSubtype_of_ne hab]
  cases hb : tt.find? b with
  | none =>
    -- an unknown `sup` is neither `Mixed` nor inherited
    have hinh : ¬tt.Inherits a b := fun h => by simpa [hb] using h.isSome_right
    simp [hab, IsMixed, hb, hinh]
  | some d =>
    by_cases hm : d.shape = .mixed
    · simp [hm, IsMixed, hb]
    · have hnm : ¬tt.IsMixed b := by simp [IsMixed, hb, hm]
      simp only [hm, if_false, hab, hnm, false_or]
      cases ha : tt.ref? a with
      | none =>
        -- an unknown `sub` inherits nothing
        have hinh : ¬tt.Inherits a b := fun h => by
          obtain ⟨d', hd', -⟩ := h.isClass
          simp [find?, ha] at hd'
        simp [hinh]
      | some r =>
        rw [← ref?_eq_some ha]
        simp [reachesFrom_iff]

/-- **The subtype test fails** exactly when the ids differ and `sup` names no type, or `sup`
is no `Mixed` type and `sub` names no type; the fault names the unknown id. -/
theorem isSubtype_eq_error_iff {e : Fault} :
    tt.isSubtype a b = .error e ↔
      a ≠ b ∧ (tt.find? b = none ∧ e = .unknownType b ∨
        (∃ d, tt.find? b = some d ∧ d.shape ≠ .mixed) ∧ tt.find? a = none ∧
          e = .unknownType a) := by
  by_cases hab : a = b
  · subst hab
    simp [isSubtype_self]
  rw [isSubtype_of_ne hab]
  cases hb : tt.find? b with
  | none => simp [hab, eq_comm]
  | some d =>
    by_cases hm : d.shape = .mixed
    · simp [hm]
    · cases ha : tt.ref? a with
      | none => simp [hab, hm, find?, ha, eq_comm, Ne.symm hm]
      | some r => simp [hab, hm, find?, ha]

/-! ## The order of subtypes -/

/-- A `Mixed` type has no parents, so it inherits nothing. -/
theorem IsMixed.not_inherits (hm : tt.IsMixed a) : ¬tt.Inherits a b := fun h => by
  obtain ⟨d, hd, hc⟩ := h.isClass
  obtain ⟨d', hd', hm'⟩ := hm
  rw [hd, Option.some.injEq] at hd'
  subst hd'
  simp [hm', TypeShape.isClass] at hc

/-- The subtype test is transitive, on every table: `Mixed` has no parents, so a chain through
it ends there. -/
theorem isSubtype_trans (hab : tt.isSubtype a b = .ok true) (hbc : tt.isSubtype b c = .ok true) :
    tt.isSubtype a c = .ok true := by
  rw [isSubtype_eq_true_iff] at hab hbc ⊢
  rcases hab with rfl | hmb | hab
  · exact hbc
  · rcases hbc with rfl | hmc | hbc
    · exact .inr (.inl hmb)
    · exact .inr (.inl hmc)
    · exact absurd hbc hmb.not_inherits
  · rcases hbc with rfl | hmc | hbc
    · exact .inr (.inr hab)
    · exact .inr (.inl hmc)
    · exact .inr (.inr (hab.trans hbc))

/-- On a table built by the type operations, the subtype test is antisymmetric: inheriting goes
down the ids, and the one `Mixed` type is the well-known one. -/
theorem WellBuilt.isSubtype_antisymm (hw : tt.WellBuilt) (hab : tt.isSubtype a b = .ok true)
    (hba : tt.isSubtype b a = .ok true) : a = b := by
  rw [isSubtype_eq_true_iff] at hab hba
  rcases hab with rfl | hmb | hab
  · rfl
  · rcases hba with rfl | hma | hba
    · rfl
    · -- two `Mixed` types are both the well-known one
      obtain ⟨da, hda, hma⟩ := hma
      obtain ⟨db, hdb, hmb⟩ := hmb
      have := (hw.mixed_known hda hma).symm.trans (hw.mixed_known hdb hmb)
      exact Option.some.inj this
    · exact absurd hba hmb.not_inherits
  · rcases hba with rfl | hma | hba
    · rfl
    · exact absurd hab hma.not_inherits
    · exact absurd (Int.lt_trans hab.lt hba.lt) (Int.lt_irrefl b)

/-- **What the subtype test computes, on every table that a run of type operations builds.**
It holds exactly for equal ids, for a `Mixed` supertype and for an inherited one; it fails
exactly when the ids differ and `sup` names no type, or `sup` is no `Mixed` type and `sub` names
no type, with the unknown id as the fault; and it is a partial order on the ids. The test is a
total function: its search visits each type at most once, so it terminates. -/
theorem Reachable.isSubtype_spec (hr : tt.Reachable) (a b : Int) :
    (tt.isSubtype a b = .ok true ↔ a = b ∨ tt.IsMixed b ∨ tt.Inherits a b) ∧
      (∀ e, tt.isSubtype a b = .error e ↔
        a ≠ b ∧ (tt.find? b = none ∧ e = .unknownType b ∨
          (∃ d, tt.find? b = some d ∧ d.shape ≠ .mixed) ∧ tt.find? a = none ∧
            e = .unknownType a)) ∧
      IsPartialOrder Int fun s t => tt.isSubtype s t = .ok true :=
  ⟨isSubtype_eq_true_iff, fun _ => isSubtype_eq_error_iff,
    { refl := isSubtype_self
      trans := fun _ _ _ => isSubtype_trans
      antisymm := fun _ _ => hr.wellBuilt.isSubtype_antisymm }⟩

end CallSite.TypeTable

namespace CallSite.TypeTable

/-- A fresh host's table with a class `Base` (id 4) and a class `Derived` (id 5) deriving from
it, built by a run of operations: the subtype test between the two classes. -/
theorem isSubtype_spec_derived_base :
    let tt := (((Host.fresh).apply (.types (.klass "Base" none []))).apply
      (.types (.klass "Derived" (some 4) []))).types
    tt.Reachable ∧
      ((tt.isSubtype 5 4 = .ok true ↔ (5 : Int) = 4 ∨ tt.IsMixed 4 ∨ tt.Inherits 5 4) ∧
        (∀ e, tt.isSubtype 5 4 = .error e ↔
          (5 : Int) ≠ 4 ∧ (tt.find? 4 = none ∧ e = .unknownType 4 ∨
            (∃ d, tt.find? 4 = some d ∧ d.shape ≠ .mixed) ∧ tt.find? 5 = none ∧
              e = .unknownType 5)) ∧
        IsPartialOrder Int fun s t => tt.isSubtype s t = .ok true) := by
  intro tt
  have hfresh : (Host.fresh).types.Reachable :=
    .step (.known .locals) (.step (.known .typeToken) (.step (.known .context) .empty rfl) rfl) rfl
  have hbase : ((Host.fresh).apply (.types (.klass "Base" none []))).types.Reachable :=
    .step (t := 4) (.klass "Base" none []) hfresh rfl
  have hr : tt.Reachable := .step (t := 5) (.klass "Derived" (some 4) []) hbase rfl
  exact ⟨hr, Reachable.isSubtype_spec hr 5 4⟩

end CallSite.TypeTable
