import CallSite.Method.Filter
import Mathlib.Data.List.Forall2
import Mathlib.Order.Defs.Unbundled

/-!
# Matching names up to the upper case of single characters

Two method names match when they are equal, or have as many characters and agree at each place
as they are or after `up`, the upper case of a character where that is a single character. The
three tests collapse into one: names match exactly when their upper-cased forms are equal
(`namesMatchBy_iff_map_eq`). The length test is part of it because `up` sends each character to
one character (the program's map leaves `ß`, whose upper case is several characters, as it is),
and matching, being equality of the upper-cased forms, is an equivalence
(`namesMatchBy_equivalence`). Filtering twice by name then keeps what the first filter kept when
the two names match, and nothing otherwise (`byNameBy_byNameBy`).

Everything holds for any case map `up`; the filter of the program is the one at
`Text.upperChar`. The main statement is `namesMatchBy_spec`.
-/

namespace CallSite

variable {up : Char → Char}

/-- Two lists have equal images under `f` exactly when they have the same length and `f` agrees
on the pairs at the same places. -/
theorem map_eq_map_iff_zip {α β : Type} {f : α → β} {l₁ l₂ : List α} :
    l₁.map f = l₂.map f ↔ l₁.length = l₂.length ∧ ∀ x y, (x, y) ∈ l₁.zip l₂ → f x = f y := by
  rw [← List.forall₂_eq_eq_eq, List.forall₂_map_left_iff, List.forall₂_map_right_iff,
    List.forall₂_iff_zip]

/-- **Names match exactly when their upper-cased forms are equal.** The fast path for equal
names and the test of each place are both implied by equal upper cases. -/
theorem namesMatchBy_iff_map_eq (a b : String) :
    namesMatchBy up a b = true ↔ a.toList.map up = b.toList.map up := by
  have hlen : a.length = b.length ↔ a.toList.length = b.toList.length := by
    simp only [String.length_toList]
  unfold namesMatchBy
  simp only [Bool.or_eq_true, beq_iff_eq, Bool.and_eq_true, List.all_eq_true, hlen]
  constructor
  · rintro (rfl | ⟨hl, hall⟩)
    · rfl
    · refine map_eq_map_iff_zip.2 ⟨hl, fun x y hxy => ?_⟩
      -- each place agrees as it is or after `up`, and either way after `up`
      rcases hall (x, y) hxy with h | h
      · exact congrArg up h
      · exact h
  · intro h
    obtain ⟨hl, hall⟩ := map_eq_map_iff_zip.1 h
    exact .inr ⟨hl, fun p hp => by simp [hall p.1 p.2 hp]⟩

/-- Matching names is an equivalence: it is equality of the upper-cased forms. -/
theorem namesMatchBy_equivalence (up : Char → Char) :
    Equivalence fun a b => namesMatchBy up a b = true := by
  simp only [namesMatchBy_iff_map_eq]
  exact ⟨fun _ => rfl, Eq.symm, Eq.trans⟩

namespace Method

/-- Filtering by a second name keeps all that the first kept when the two names match, and
nothing otherwise: a method matching both names would make them match each other. -/
theorem byNameBy_byNameBy (ms : List Method) (n₁ n₂ : String) :
    byNameBy up (byNameBy up ms n₁) n₂ =
      if namesMatchBy up n₁ n₂ then byNameBy up ms n₁ else [] := by
  have heq := namesMatchBy_equivalence up
  unfold byNameBy
  rw [List.filter_filter]
  split
  · next h₁₂ =>
    refine List.filter_congr fun m _ => ?_
    cases h₁ : namesMatchBy up m.name n₁
    · exact Bool.and_false _
    · simp [heq.trans h₁ h₁₂]
  · next h₁₂ =>
    refine List.filter_eq_nil_iff.2 fun m _ hm => h₁₂ ?_
    obtain ⟨h₂, h₁⟩ := Bool.and_eq_true_iff.1 hm
    exact heq.trans (heq.symm h₁) h₂

end Method

/-- **Name matching, for any upper case of single characters `up`** (the program's is
`Text.upperChar`): names match exactly when their upper-cased forms are equal; matching is
therefore an equivalence; and filtering a list by one name and then by another keeps what the
first filter kept when the names match, and nothing otherwise. -/
theorem namesMatchBy_spec (up : Char → Char) :
    (∀ a b, namesMatchBy up a b = true ↔ a.toList.map up = b.toList.map up) ∧
      Equivalence (fun a b => namesMatchBy up a b = true) ∧
      ∀ (ms : List Method) (n₁ n₂ : String), Method.byNameBy up (Method.byNameBy up ms n₁) n₂ =
        if namesMatchBy up n₁ n₂ then Method.byNameBy up ms n₁ else [] :=
  ⟨namesMatchBy_iff_map_eq, namesMatchBy_equivalence up, Method.byNameBy_byNameBy⟩

end CallSite
