import CallSite.Proofs.Hiding
import CallSite.Proofs.Subtyping

/-!
# The base chain of a type

The base chain of a type is the type followed by its base class, that class's base, and so on,
most-derived first. The walk keeps no record of what it has visited and has no bound: it ends
because a base always has a smaller id than its class, which every table carries
(`TypeTable.refs_lt`). So the walk is a total function on every table, and what it returns is
a chain down the base relation (`TypeTable.BaseOf`) that stops at a type with no base. Each
step goes down the ids (`TypeTable.baseChainFrom_decreasing`), so the chain has no repeated
type, and each member is reached from the first by steps to a parent, so every member is a
supertype of the first. The main statement is `TypeTable.baseChain_spec`.
-/

namespace CallSite.TypeTable

variable {tt : TypeTable} {t b : Int}

/-! ## One step of the walk -/

/-- `b` is the base class of the class `t`. -/
def BaseOf (tt : TypeTable) (t b : Int) : Prop :=
  ∃ d, tt.find? t = some d ∧ ∃ is, d.shape = .classOf (some b) is

/-- The base of a class is one of its parents. -/
theorem BaseOf.parentOf (h : tt.BaseOf t b) : tt.ParentOf t b := by
  obtain ⟨d, hd, is, hs⟩ := h
  exact ⟨d, hd, by simp [hs, TypeShape.parents]⟩

/-- A step of the walk either goes on from the base of a class, or ends at a type with no
base. -/
theorem baseChainFrom_step (r : tt.Ref) :
    (∃ r' : tt.Ref, tt.BaseOf r.1 r'.1 ∧ tt.baseChainFrom r = r.1 :: tt.baseChainFrom r') ∨
      ((∀ b, ¬tt.BaseOf r.1 b) ∧ tt.baseChainFrom r = [r.1]) := by
  rw [baseChainFrom.eq_1]
  split
  · next b is hs =>
    exact .inl ⟨tt.parentRef r b _, ⟨tt.defOf r, find?_ref r, is, hs⟩, rfl⟩
  · next hno =>
    refine .inr ⟨fun b ⟨d, hd, is, hs⟩ => ?_, rfl⟩
    -- the type of `r` is `d`, whose shape the walk found to be no class with a base
    rw [find?_ref r, Option.some.injEq] at hd
    subst hd
    exact hno b is hs

/-! ## The whole walk -/

/-- The walk starts at its own type. -/
theorem baseChainFrom_head (r : tt.Ref) : ∃ rest, tt.baseChainFrom r = r.1 :: rest := by
  rw [baseChainFrom.eq_1]
  exact ⟨_, rfl⟩

/-- The walk goes from each type to its base, and its last type has no base. The induction is
on the id, which each step makes smaller. -/
theorem baseChainFrom_walk (r : tt.Ref) :
    (tt.baseChainFrom r).IsChain tt.BaseOf ∧
      ∀ c ∈ (tt.baseChainFrom r).getLast?, ∀ b, ¬tt.BaseOf c b := by
  induction hn : r.1.toNat using Nat.strong_induction_on generalizing r with
  | _ n ih =>
    rcases baseChainFrom_step r with ⟨r', hbase, heq⟩ | ⟨hend, heq⟩
    · have hlt : r'.1.toNat < n := by
        have := hbase.parentOf.lt.1
        have := r'.2.1
        omega
      obtain ⟨hchain, hlast⟩ := ih _ hlt r' rfl
      obtain ⟨rest, hrest⟩ := baseChainFrom_head r'
      rw [heq, hrest]
      rw [hrest] at hchain hlast
      exact ⟨List.IsChain.cons_cons hbase hchain, by simpa [List.getLast?_cons_cons] using hlast⟩
    · rw [heq]
      exact ⟨List.isChain_singleton _, by simpa using hend⟩

/-- Every type of the walk is its first type or inherited by it: a chain of bases is a chain
of parents. -/
theorem inherits_of_mem_baseChainFrom (r : tt.Ref) {c : Int} (hc : c ∈ tt.baseChainFrom r) :
    c = r.1 ∨ tt.Inherits r.1 c := by
  obtain ⟨rest, hrest⟩ := baseChainFrom_head r
  have hchain := (baseChainFrom_walk r).1
  rw [hrest] at hchain hc
  rcases List.mem_cons.1 hc with rfl | hc
  · exact .inl rfl
  · -- along a chain, the first type is related to each later one by the closure of the steps
    have hpw := (hchain.imp fun _ _ h => Relation.TransGen.single h).pairwise
    have hbase : Relation.TransGen tt.BaseOf r.1 c := (List.pairwise_cons.1 hpw).1 c hc
    exact .inr (Relation.TransGen.mono (fun _ _ h => BaseOf.parentOf h) _ _ hbase)

/-- **The base chain of a known type**, on every table: the walk ends, and returns the type
followed by its bases, each entry the base of the class before it and the last one a type with
no base; the ids strictly decrease, so no type comes twice; and the type is a subtype of every
entry. -/
theorem baseChain_spec (tt : TypeTable) {t : Int} (ht : (tt.find? t).isSome) :
    ∃ chain, tt.baseChain t = .ok chain ∧ chain.head? = some t ∧ chain.IsChain tt.BaseOf ∧
      (∀ c ∈ chain.getLast?, ∀ b, ¬tt.BaseOf c b) ∧ chain.Pairwise (fun a b => b < a) ∧
      chain.Nodup ∧ ∀ c ∈ chain, tt.isSubtype t c = .ok true := by
  obtain ⟨r, hr⟩ : ∃ r, tt.ref? t = some r := by
    simpa [find?, Option.isSome_map] using Option.isSome_iff_exists.1 ht
  obtain rfl := ref?_eq_some hr
  have hchain : tt.baseChain r.1 = .ok (tt.baseChainFrom r) := by
    simp only [baseChain, hr]
  obtain ⟨rest, hrest⟩ := baseChainFrom_head r
  obtain ⟨hstep, hlast⟩ := baseChainFrom_walk r
  refine ⟨_, hchain, by rw [hrest]; rfl, hstep, hlast, (baseChainFrom_decreasing r).1,
    nodup_of_baseChain hchain, fun c hc => ?_⟩
  rw [isSubtype_eq_true_iff]
  rcases inherits_of_mem_baseChainFrom r hc with rfl | h
  · exact .inl rfl
  · exact .inr (.inr h)

/-- A fresh host's table with a class `Base` (id 4) and a class `Derived` (id 5) deriving from
it: the base chain of `Derived`. -/
theorem baseChain_spec_of_derived :
    let tt := (((Host.fresh).apply (.types (.klass "Base" none []))).apply
      (.types (.klass "Derived" (some 4) []))).types
    (tt.find? 5).isSome ∧
      ∃ chain, tt.baseChain 5 = .ok chain ∧ chain.head? = some 5 ∧ chain.IsChain tt.BaseOf ∧
        (∀ c ∈ chain.getLast?, ∀ b, ¬tt.BaseOf c b) ∧ chain.Pairwise (fun a b => b < a) ∧
        chain.Nodup ∧ ∀ c ∈ chain, tt.isSubtype 5 c = .ok true := by
  intro tt
  have h5 : (tt.find? 5).isSome := rfl
  exact ⟨h5, baseChain_spec tt h5⟩

end CallSite.TypeTable
