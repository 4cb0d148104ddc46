import CallSite.Types.Basic

/-!
# Subtyping and base chains

A type is a subtype of another when the two are the same id, when the other is the top type
`Mixed`, or when the other is reached from it by one or more steps from a class to its base
or to one of its interfaces. The base chain of a type is the type followed by its bases,
most-derived first.

## Main definitions

* `TypeTable.searchParents`: the depth-first search of the subtype test, over a stack of types
  to visit and a list of types visited.
* `TypeTable.isSubtype`: the subtype test, with the look-ups that can fail.
* `TypeTable.reachesFrom`: the steps through bases and interfaces, as a recursion on the type;
  the search computes it.
* `TypeTable.baseChain`: the type and its bases.

## Implementation notes

The recursive walks follow references to earlier types only (`TypeTable.defOf_refs_lt`), so they
recurse on the id. The search ends for another reason: it visits a type at most once, so each
visit leaves fewer ids of the table unvisited (`TypeTable.unseen`).
-/

namespace CallSite.TypeTable

/-- A type refers only to types with a smaller positive id. -/
theorem defOf_refs_lt (tt : TypeTable) (r : tt.Ref) {p : Int}
    (hp : p ∈ (tt.defOf r).shape.refs) : 0 < p ∧ p < r.1 := by
  unfold defOf at hp
  have h := tt.refs_lt _ _ p hp
  have h1 := r.2.1
  omega

/-- A parent of a type names an earlier type of the table. -/
def parentRef (tt : TypeTable) (r : tt.Ref) (p : Int)
    (hp : p ∈ (tt.defOf r).shape.parents) : tt.Ref :=
  ⟨p, by
    have h := tt.defOf_refs_lt r (TypeShape.mem_refs_of_mem_parents hp)
    have h2 := r.2.2
    omega⟩

theorem parentRef_lt (tt : TypeTable) (r : tt.Ref) (p : Int)
    (hp : p ∈ (tt.defOf r).shape.parents) : (tt.parentRef r p hp).1.toNat < r.1.toNat := by
  have h := tt.defOf_refs_lt r (TypeShape.mem_refs_of_mem_parents hp)
  simp only [parentRef]
  omega

/-- Whether `sup` is reached from the type `r` by one or more steps from a class to its base
or to one of its interfaces. -/
def reachesFrom (tt : TypeTable) (r : tt.Ref) (sup : Int) : Bool :=
  (tt.defOf r).shape.parents.attach.any fun ⟨p, hp⟩ =>
    p == sup || tt.reachesFrom (tt.parentRef r p hp) sup
termination_by r.1.toNat
decreasing_by exact tt.parentRef_lt r p hp

variable {tt : TypeTable}

/-- A reference found for an id is that id. -/
theorem ref?_eq_some {t : Int} {r : tt.Ref} (h : tt.ref? t = some r) : r.1 = t := by
  simp only [ref?] at h
  split at h
  · cases h; rfl
  · cases h

/-- The ids of the table that `seen` does not hold, the id `i + 1` given as `i`. -/
def unseen (tt : TypeTable) (seen : List Int) : List Nat :=
  (List.range tt.size).filter fun i => !seen.contains ((i : Int) + 1)

/-- Visiting a type not visited before leaves fewer ids unvisited. -/
theorem length_unseen_cons (r : tt.Ref) {seen : List Int} (h : seen.contains r.1 = false) :
    (tt.unseen (r.1 :: seen)).length < (tt.unseen seen).length := by
  have hcons : tt.unseen (r.1 :: seen) =
      (tt.unseen seen).filter fun (i : Nat) => (i : Int) + 1 != r.1 := by
    simp only [unseen, List.filter_filter, List.contains_cons]
    congr 1
    funext i
    simp only [Bool.not_or, bne]
  obtain ⟨i, hi, hlt⟩ : ∃ i : Nat, (i : Int) + 1 = r.1 ∧ i < tt.size :=
    ⟨(r.1 - 1).toNat, by have := r.2; omega⟩
  rw [hcons, List.length_filter_lt_length_iff_exists]
  refine ⟨i, ?_, by simp [hi]⟩
  have hnot : r.1 ∉ seen := by simpa using h
  simp [unseen, hi, hnot, hlt]

set_option linter.unusedVariables false in
/-- The depth-first search of the subtype test for `sup`, over the stack `pending` of types to
visit (its top first) and the types `seen` visited so far. A type visited before is skipped;
any other is looked up, an unknown one being the fault. When `sup` is among its parents the
search succeeds; otherwise the parents are pushed, the last one on top, and the type is marked
visited. Only a class has parents, so the other types add nothing. An empty stack ends the
search without success. -/
def searchParents (tt : TypeTable) (sup : Int) (pending seen : List Int) : Except Fault Bool :=
  match pending with
  | [] => .ok false
  | cur :: rest =>
    if seen.contains cur then tt.searchParents sup rest seen
    else
      match h : tt.ref? cur with
      | none => .error (.unknownType cur)
      | some r =>
        let parents := (tt.defOf r).shape.parents
        if parents.contains sup then .ok true
        else tt.searchParents sup (parents.reverse ++ rest) (cur :: seen)
termination_by ((tt.unseen seen).length, pending.length)
decreasing_by
  · exact Prod.Lex.right _ (Nat.lt_succ_self _)
  · -- a visit of a type not visited before; the type is the one the look-up found
    rename_i hseen _
    obtain rfl := ref?_eq_some h
    exact Prod.Lex.left _ _ (length_unseen_cons r (by simpa using hseen))

section Search

variable {sup cur : Int} {rest seen : List Int} {d : TypeDef}

theorem searchParents_nil : tt.searchParents sup [] seen = .ok false := by
  rw [searchParents]

theorem searchParents_seen (hs : cur ∈ seen) :
    tt.searchParents sup (cur :: rest) seen = tt.searchParents sup rest seen := by
  rw [searchParents, if_pos (by simpa using hs)]

theorem searchParents_unknown (hs : cur ∉ seen) (hc : tt.find? cur = none) :
    tt.searchParents sup (cur :: rest) seen = .error (.unknownType cur) := by
  have hr : tt.ref? cur = none := by simpa [find?] using hc
  rw [searchParents, if_neg (by simpa using hs)]
  split
  · rfl
  · next r h => simp [hr] at h

/-- A visit of a type not visited before: the search succeeds when `sup` is among its parents,
and goes on with them pushed otherwise. -/
theorem searchParents_visit (hs : cur ∉ seen) (hc : tt.find? cur = some d) :
    tt.searchParents sup (cur :: rest) seen =
      if d.shape.parents.contains sup then .ok true
      else tt.searchParents sup (d.shape.parents.reverse ++ rest) (cur :: seen) := by
  obtain ⟨r, hr, rfl⟩ := Option.map_eq_some_iff.1 hc
  rw [searchParents, if_neg (by simpa using hs)]
  split
  · next h => simp [hr] at h
  · next r' h =>
    rw [hr, Option.some.injEq] at h
    subst h
    rfl

end Search

/-- Whether a value of type `sub` may stand where `sup` is declared. Equal ids are subtypes
without a look-up; otherwise `sup` is looked up first, and then the search from `sub` looks
`sub` up, an unknown one being the fault. -/
def isSubtype (tt : TypeTable) (sub sup : Int) : Except Fault Bool :=
  if sub = sup then .ok true
  else
    match tt.get sup with
    | .error e => .error e
    | .ok d =>
      if d.shape = .mixed then .ok true
      else tt.searchParents sup [sub] []

/-- The type `r` followed by its bases, most-derived first. -/
def baseChainFrom (tt : TypeTable) (r : tt.Ref) : List Int :=
  r.1 ::
    match h : (tt.defOf r).shape with
    | .classOf (some b) _ =>
      tt.baseChainFrom (tt.parentRef r b (by simp [h, TypeShape.parents]))
    | _ => []
termination_by r.1.toNat
decreasing_by exact tt.parentRef_lt r b _

/-- The type `t` followed by its bases, most-derived first; an unknown `t` is the fault. -/
def baseChain (tt : TypeTable) (t : Int) : Except Fault (List Int) :=
  match tt.ref? t with
  | none => .error (.unknownType t)
  | some r => .ok (tt.baseChainFrom r)

end CallSite.TypeTable
