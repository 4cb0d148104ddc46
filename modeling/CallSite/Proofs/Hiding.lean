import Mathlib
import CallSite.Proofs.Resolve

/-!
# Which inherited methods a type hides

The candidates of a type (`MethodTable.candidates`) walk its base chain, most-derived owner
first, with a record of the signatures seen so far, each with the owner that recorded it. A
method that is not private is dropped when another owner recorded its signature, and otherwise
records it under its own owner and is kept; a private method is always kept and records nothing.

This module states the result without the record. Along the chain `o₀, …, oₖ`, the candidates
are the methods declared on each `oᵢ` in registration order, a method kept when it is private or
when no method that is not private, declared on some `oⱼ` with `j < i`, has its signature
(`MethodTable.alongChain`). The record agrees with this rule because, at the start of each owner,
it holds exactly the signatures of the methods that are not private on the earlier owners, all
recorded by earlier owners (`MethodTable.Recorded`), and an owner is never among the earlier
ones: the ids along a base chain strictly decrease (`TypeTable.baseChainFrom_decreasing`).

The main statement is `Host.Reachable.candidates_by_hiding`: on a host built by a run, the
candidates of an unknown type are the fault naming it; those of a known type are
`MethodTable.alongChain` of its base chain; and they list no method twice, any two of them that
are not private and share a signature being declared on one type.
-/

namespace CallSite

/-! ## The base chain -/

namespace TypeTable

variable {tt : TypeTable}

/-- The base chain from a type starts at it and goes strictly down the ids. The induction
follows the walk from a class to its base, which has a smaller id. -/
theorem baseChainFrom_decreasing (r : tt.Ref) :
    (tt.baseChainFrom r).Pairwise (fun a b => b < a) ∧ ∀ x ∈ tt.baseChainFrom r, x ≤ r.1 := by
  induction r using baseChainFrom.induct tt with
  | _ r ih =>
    rw [baseChainFrom]
    split
    · rename_i b is h
      have hb : b < r.1 :=
        (tt.defOf_refs_lt r (TypeShape.mem_refs_of_mem_parents (by simp [h, TypeShape.parents]))).2
      obtain ⟨hpw, hle⟩ := ih b is h
      refine ⟨List.pairwise_cons.2 ⟨fun x hx => ?_, hpw⟩, fun x hx => ?_⟩
      · exact lt_of_le_of_lt (hle x hx) hb
      · rcases List.mem_cons.1 hx with rfl | hx
        · exact le_refl _
        · exact (lt_of_le_of_lt (hle x hx) hb).le
    · simp

/-- A base chain lists no type twice. -/
theorem nodup_of_baseChain {t : Int} {chain : List Int} (h : tt.baseChain t = .ok chain) :
    chain.Nodup := by
  unfold baseChain at h
  split at h
  · cases h
  · cases h
    exact (baseChainFrom_decreasing _).1.imp fun hlt => ne_of_gt hlt

/-- The base chain of a type fails exactly for an unknown id, with the fault naming it. -/
theorem baseChain_eq_error {t : Int} {e : Fault} :
    tt.baseChain t = .error e ↔ tt.find? t = none ∧ e = .unknownType t := by
  unfold baseChain find?
  split <;> simp_all [eq_comm]

end TypeTable

/-! ## The record of signatures -/

namespace MethodTable

variable {mt : MethodTable} {owner : Int} {m : Method} {ms : List Method}
  {seen : List (Signature × Int)}

/-- A private method is kept, and the record goes on unchanged. -/
theorem keepUnhidden_private (h : m.visibility = .privateAccess) :
    keepUnhidden owner (m :: ms) seen =
      (m :: (keepUnhidden owner ms seen).1, (keepUnhidden owner ms seen).2) := by
  simp [keepUnhidden, h]

/-- A method that is not private, whose signature another owner recorded, is dropped. -/
theorem keepUnhidden_hidden (h : m.visibility ≠ .privateAccess) {o : Int}
    (ho : seen.lookup m.signature = some o) (hne : o ≠ owner) :
    keepUnhidden owner (m :: ms) seen = keepUnhidden owner ms seen := by
  simp [keepUnhidden, h, ho, hne]

/-- A method that is not private, whose signature no other owner recorded, is kept and records
its signature under its owner. -/
theorem keepUnhidden_record (h : m.visibility ≠ .privateAccess)
    (ho : ∀ o, seen.lookup m.signature = some o → o = owner) :
    keepUnhidden owner (m :: ms) seen =
      (m :: (keepUnhidden owner ms ((m.signature, owner) :: seen)).1,
        (keepUnhidden owner ms ((m.signature, owner) :: seen)).2) := by
  cases hl : seen.lookup m.signature with
  | none => simp [keepUnhidden, h, hl]
  | some o =>
    obtain rfl := ho o hl
    simp [keepUnhidden, h, hl]

/-- **One method's step.** A private method is kept and the record goes on unchanged; a method
that is not private is kept, recording its signature under its owner, when no other owner
recorded that signature, and dropped when one did. -/
theorem keepUnhidden_cons_cases (m : Method) (ms : List Method) (seen : List (Signature × Int)) :
    m.visibility = .privateAccess ∧ keepUnhidden owner (m :: ms) seen =
        (m :: (keepUnhidden owner ms seen).1, (keepUnhidden owner ms seen).2) ∨
      m.visibility ≠ .privateAccess ∧ (∀ o, seen.lookup m.signature = some o → o = owner) ∧
        keepUnhidden owner (m :: ms) seen =
          (m :: (keepUnhidden owner ms ((m.signature, owner) :: seen)).1,
            (keepUnhidden owner ms ((m.signature, owner) :: seen)).2) ∨
      m.visibility ≠ .privateAccess ∧ (∃ o, seen.lookup m.signature = some o ∧ o ≠ owner) ∧
        keepUnhidden owner (m :: ms) seen = keepUnhidden owner ms seen := by
  by_cases hp : m.visibility = .privateAccess
  · exact .inl ⟨hp, keepUnhidden_private hp⟩
  by_cases hrec : ∀ o, seen.lookup m.signature = some o → o = owner
  · exact .inr (.inl ⟨hp, hrec, keepUnhidden_record hp hrec⟩)
  obtain ⟨o, ho, hne⟩ : ∃ o, seen.lookup m.signature = some o ∧ o ≠ owner := by
    simpa using hrec
  exact .inr (.inr ⟨hp, ⟨o, ho, hne⟩, keepUnhidden_hidden hp ho hne⟩)

/-- What one owner keeps is among its methods, in their order. -/
theorem keepUnhidden_sublist :
    ∀ (ms : List Method) (seen : List (Signature × Int)),
      (keepUnhidden owner ms seen).1.Sublist ms
  | [], _ => by simp [keepUnhidden]
  | m :: ms, seen => by
    rcases keepUnhidden_cons_cases m ms seen with ⟨-, heq⟩ | ⟨-, -, heq⟩ | ⟨-, -, heq⟩ <;>
      rw [heq]
    · exact (keepUnhidden_sublist ms seen).cons_cons m
    · exact (keepUnhidden_sublist ms _).cons_cons m
    · exact (keepUnhidden_sublist ms seen).cons m

/-- After one owner, the record has a signature exactly when it had it before or a method of
the owner that is not private has it. -/
theorem keepUnhidden_snd_isSome (S : Signature) :
    ∀ (ms : List Method) (seen : List (Signature × Int)),
      ((keepUnhidden owner ms seen).2.lookup S).isSome ↔
        (seen.lookup S).isSome ∨ ∃ m ∈ ms, m.visibility ≠ .privateAccess ∧ m.signature = S
  | [], _ => by simp [keepUnhidden]
  | m :: ms, seen => by
    rcases keepUnhidden_cons_cases m ms seen with
      ⟨hp, heq⟩ | ⟨hp, -, heq⟩ | ⟨-, ⟨o, ho, -⟩, heq⟩ <;> rw [heq, keepUnhidden_snd_isSome S ms]
    · simp [hp]
    · by_cases hS : S = m.signature
      · subst hS
        simp [hp]
      · simp [List.lookup_cons, beq_eq_false_iff_ne.2 hS, Ne.symm hS]
    · -- a hidden method's signature is recorded already
      by_cases hS : S = m.signature
      · subst hS
        simp [ho]
      · simp [Ne.symm hS]

/-- After one owner, what the record gives a signature was recorded before or by that owner. -/
theorem keepUnhidden_snd_owner {S : Signature} {o : Int} :
    ∀ (ms : List Method) (seen : List (Signature × Int)),
      (keepUnhidden owner ms seen).2.lookup S = some o → o = owner ∨ seen.lookup S = some o
  | [], _, h => .inr (by simpa [keepUnhidden] using h)
  | m :: ms, seen, h => by
    rcases keepUnhidden_cons_cases m ms seen with ⟨-, heq⟩ | ⟨-, -, heq⟩ | ⟨-, -, heq⟩ <;>
      rw [heq] at h
    · exact keepUnhidden_snd_owner ms seen h
    · -- the entry is the one just recorded, or was there before
      rcases keepUnhidden_snd_owner ms _ h with rfl | h
      · exact .inl rfl
      · by_cases hS : S = m.signature
        · subst hS
          simp at h
          exact .inl h.symm
        · simp [List.lookup_cons, beq_eq_false_iff_ne.2 hS] at h
          exact .inr h
    · exact keepUnhidden_snd_owner ms seen h

/-- Recording a signature under the owner keeps the signatures that other owners recorded, when
that signature is not among them. -/
theorem others_record {H : List Signature} {S₀ : Signature}
    (hseen : ∀ S, (∃ o, seen.lookup S = some o ∧ o ≠ owner) ↔ S ∈ H) (hS₀ : S₀ ∉ H)
    (S : Signature) :
    (∃ o, ((S₀, owner) :: seen).lookup S = some o ∧ o ≠ owner) ↔ S ∈ H := by
  by_cases hS : S = S₀
  · subst hS
    simp [hS₀]
  · simp only [List.lookup_cons, beq_eq_false_iff_ne.2 hS]
    exact hseen S

/-- **What one owner keeps.** When the signatures that other owners recorded are those of `H`,
the owner keeps its private methods and those whose signature is not in `H`. The induction
walks the owner's methods: a kept method records its signature under the owner, which leaves the
signatures of other owners as they were. -/
theorem keepUnhidden_fst {H : List Signature} :
    ∀ (ms : List Method) (seen : List (Signature × Int)),
      (∀ S, (∃ o, seen.lookup S = some o ∧ o ≠ owner) ↔ S ∈ H) →
      (keepUnhidden owner ms seen).1 =
        ms.filter fun d => d.visibility = .privateAccess ∨ d.signature ∉ H
  | [], _, _ => by simp [keepUnhidden]
  | m :: ms, seen, hseen => by
    rcases keepUnhidden_cons_cases m ms seen with ⟨hp, heq⟩ | ⟨hp, hrec, heq⟩ | ⟨hp, hhid, heq⟩
    · rw [heq, keepUnhidden_fst ms seen hseen]
      simp [hp]
    · -- no other owner recorded the signature, so it is not in `H`
      have hnot : m.signature ∉ H := fun hin => by
        obtain ⟨o, ho, hne⟩ := (hseen _).2 hin
        exact hne (hrec o ho)
      rw [heq, keepUnhidden_fst ms _ (others_record hseen hnot)]
      simp [hp, hnot]
    · have hin : m.signature ∈ H := (hseen _).1 hhid
      rw [heq, keepUnhidden_fst ms seen hseen]
      simp [hp, hin]

/-! ## The record along the owners -/

/-- The signatures of the methods, not private, declared on the owners. -/
def hidingSigs (mt : MethodTable) (owners : List Int) : List Signature :=
  owners.flatMap fun o =>
    ((mt.declaredOn o).filter (·.visibility != .privateAccess)).map (·.signature)

theorem mem_hidingSigs {owners : List Int} {S : Signature} :
    S ∈ mt.hidingSigs owners ↔ ∃ o ∈ owners, ∃ d ∈ mt.declaredOn o,
      d.visibility ≠ .privateAccess ∧ d.signature = S := by
  simp [hidingSigs, and_assoc]

/-- The record at the start of an owner, after the owners `P`: every entry was recorded by one
of them, and the signatures recorded are those of the methods, not private, declared on them. -/
def Recorded (mt : MethodTable) (P : List Int) (seen : List (Signature × Int)) : Prop :=
  (∀ S o, seen.lookup S = some o → o ∈ P) ∧
    ∀ S, (seen.lookup S).isSome ↔ S ∈ mt.hidingSigs P

theorem recorded_nil : mt.Recorded [] [] :=
  ⟨by simp, by simp [hidingSigs]⟩

/-- For an owner that is not among `P`, the signatures recorded by other owners are those of
the earlier owners' methods. -/
theorem Recorded.others {P : List Int} (h : mt.Recorded P seen) (hnot : owner ∉ P) (S : Signature) :
    (∃ o, seen.lookup S = some o ∧ o ≠ owner) ↔ S ∈ mt.hidingSigs P := by
  rw [← h.2 S]
  constructor
  · rintro ⟨o, ho, -⟩
    simp [ho]
  · intro hS
    obtain ⟨o, ho⟩ := Option.isSome_iff_exists.1 hS
    exact ⟨o, ho, fun heq => hnot (heq ▸ h.1 S o ho)⟩

/-- Walking one owner extends the record by that owner. -/
theorem Recorded.step {P : List Int} (h : mt.Recorded P seen) :
    mt.Recorded (P ++ [owner]) (keepUnhidden owner (mt.declaredOn owner) seen).2 := by
  refine ⟨fun S o ho => ?_, fun S => ?_⟩
  · rcases keepUnhidden_snd_owner _ seen ho with rfl | ho
    · simp
    · exact List.mem_append_left _ (h.1 S o ho)
  · rw [keepUnhidden_snd_isSome, h.2 S, mem_hidingSigs, mem_hidingSigs]
    simp [or_and_right, exists_or]

/-- The methods along the owners `chain` by the rule of hiding: the methods declared on each
owner in registration order, a method kept when it is private or when no method that is not
private, declared on an earlier owner of the chain, has its signature. -/
def alongChain (mt : MethodTable) (chain : List Int) : List Method :=
  (chain.mapIdx fun i o => (mt.declaredOn o).filter fun d =>
    d.visibility = .privateAccess ∨ d.signature ∉ mt.hidingSigs (chain.take i)).flatten

/-- **The candidates along owners that are new.** From a record after the owners `P`, walking
owners that repeat none of them nor each other keeps the methods of each owner that are private
or whose signature no earlier owner hides. The induction is on the owners left, the record
growing by one owner each time. -/
theorem candidatesFrom_eq :
    ∀ (os P : List Int) (seen : List (Signature × Int)), (P ++ os).Nodup → mt.Recorded P seen →
      mt.candidatesFrom os seen = (os.mapIdx fun i o => (mt.declaredOn o).filter fun d =>
        d.visibility = .privateAccess ∨ d.signature ∉ mt.hidingSigs (P ++ os.take i)).flatten
  | [], _, _, _, _ => by simp [candidatesFrom]
  | o :: os, P, seen, hnd, hrec => by
    have hnot : o ∉ P := fun hin => (List.nodup_append.1 hnd).2.2 o hin o List.mem_cons_self rfl
    have hnd' : (P ++ [o] ++ os).Nodup := by simpa using hnd
    have hfst := keepUnhidden_fst (mt.declaredOn o) seen (hrec.others hnot)
    have hrest := candidatesFrom_eq os (P ++ [o]) _ hnd' hrec.step
    show (keepUnhidden o (mt.declaredOn o) seen).1 ++
        mt.candidatesFrom os (keepUnhidden o (mt.declaredOn o) seen).2 = _
    rw [hfst, hrest, List.mapIdx_cons, List.flatten_cons, List.take_zero, List.append_nil]
    simp only [List.take_succ_cons, List.append_assoc, List.singleton_append]
    rfl

/-- The candidates along a chain of distinct owners, from an empty record, follow the rule of
hiding. -/
theorem candidatesFrom_eq_alongChain {chain : List Int} (hnd : chain.Nodup) :
    mt.candidatesFrom chain [] = mt.alongChain chain := by
  rw [candidatesFrom_eq chain [] [] (by simpa using hnd) recorded_nil]
  simp [alongChain]

/-- The candidates along distinct owners list no method twice, when the registry does not. -/
theorem nodup_candidatesFrom (hdecl : ∀ o, (mt.declaredOn o).Nodup) :
    ∀ (os : List Int) (seen : List (Signature × Int)), os.Nodup →
      (mt.candidatesFrom os seen).Nodup
  | [], _, _ => by simp [candidatesFrom]
  | o :: os, seen, hnd => by
    show ((keepUnhidden o (mt.declaredOn o) seen).1 ++
        mt.candidatesFrom os (keepUnhidden o (mt.declaredOn o) seen).2).Nodup
    have hsub : (keepUnhidden o (mt.declaredOn o) seen).1.Sublist (mt.declaredOn o) :=
      keepUnhidden_sublist _ seen
    refine List.nodup_append.2 ⟨(hdecl o).sublist hsub,
      nodup_candidatesFrom hdecl os _ (List.nodup_cons.1 hnd).2, ?_⟩
    -- a method of `o` is not declared on a later owner
    intro a ha b hb hab
    subst hab
    have hao : a.declaring = o := by
      simpa [declaredOn] using (List.mem_filter.1 (hsub.subset ha)).2
    exact (List.nodup_cons.1 hnd).1 (hao ▸ (mem_candidatesFrom hb).2)

/-- A member of the methods along a chain is declared on one of its owners and kept there. -/
theorem mem_alongChain {chain : List Int} {d : Method} :
    d ∈ mt.alongChain chain ↔ ∃ (i : Nat) (hi : i < chain.length),
      d ∈ mt.declaredOn chain[i] ∧
        (d.visibility = .privateAccess ∨ d.signature ∉ mt.hidingSigs (chain.take i)) := by
  simp only [alongChain, List.mem_flatten, List.mem_mapIdx]
  constructor
  · rintro ⟨l, ⟨i, hi, rfl⟩, hd⟩
    exact ⟨i, hi, by simpa using hd⟩
  · rintro ⟨i, hi, hd, hkeep⟩
    exact ⟨_, ⟨i, hi, rfl⟩, by simpa using ⟨hd, hkeep⟩⟩

/-- Of two methods along a chain that are not private, one kept on an earlier owner than the
other, the two signatures differ. -/
theorem alongChain_signature_ne {chain : List Int} {a b : Method} {i j : Nat}
    (hi : i < chain.length) (hj : j < chain.length) (hij : i < j)
    (ha : a ∈ mt.declaredOn chain[i]) (hap : a.visibility ≠ .privateAccess)
    (hkeep : b.visibility = .privateAccess ∨ b.signature ∉ mt.hidingSigs (chain.take j))
    (hbp : b.visibility ≠ .privateAccess) : a.signature ≠ b.signature := by
  intro hsig
  have hearlier : chain[i] ∈ chain.take j := List.mem_take_iff_getElem.2 ⟨i, by omega, rfl⟩
  have hhid : b.signature ∈ mt.hidingSigs (chain.take j) :=
    mem_hidingSigs.2 ⟨_, hearlier, a, ha, hap, hsig⟩
  rcases hkeep with h | h
  · exact hbp h
  · exact h hhid

/-- Two methods along a chain that are not private and share a signature are declared on one
type. -/
theorem alongChain_same_signature {chain : List Int} {a b : Method}
    (ha : a ∈ mt.alongChain chain) (hb : b ∈ mt.alongChain chain)
    (hap : a.visibility ≠ .privateAccess) (hbp : b.visibility ≠ .privateAccess)
    (hsig : a.signature = b.signature) : a.declaring = b.declaring := by
  obtain ⟨i, hi, hai, hakeep⟩ := mem_alongChain.1 ha
  obtain ⟨j, hj, hbj, hbkeep⟩ := mem_alongChain.1 hb
  have hadecl : a.declaring = chain[i] := by simpa [declaredOn] using (List.mem_filter.1 hai).2
  have hbdecl : b.declaring = chain[j] := by simpa [declaredOn] using (List.mem_filter.1 hbj).2
  -- neither can sit on an earlier owner than the other
  rcases lt_trichotomy i j with hij | rfl | hji
  · exact absurd hsig (alongChain_signature_ne hi hj hij hai hap hbkeep hbp)
  · rw [hadecl, hbdecl]
  · exact absurd hsig.symm (alongChain_signature_ne hj hi hji hbj hbp hakeep hap)

/-- **The candidates of a type.** They fail exactly for an unknown type, with the fault naming
it, and otherwise follow the rule of hiding along its base chain. -/
theorem candidates_eq {tt : TypeTable} {t : Int} :
    (∀ e, mt.candidates tt t = .error e ↔ tt.find? t = none ∧ e = .unknownType t) ∧
      ∀ chain, tt.baseChain t = .ok chain → mt.candidates tt t = .ok (mt.alongChain chain) := by
  refine ⟨fun e => ?_, fun chain hchain => ?_⟩
  · rw [← TypeTable.baseChain_eq_error]
    unfold candidates
    cases tt.baseChain t <;> simp
  · unfold candidates
    rw [hchain, Except.ok_bind, candidatesFrom_eq_alongChain (TypeTable.nodup_of_baseChain hchain)]
    rfl

end MethodTable

/-! ## The candidates on a host -/

namespace Host

variable {h : Host}

/-- **The candidates of a type, on a host built by a run.** For an unknown type they are the
fault naming it, and only then a fault. For a known type with base chain `o₀, …, oₖ` they are,
owner after owner, the methods declared on `oᵢ` in registration order, each kept when it is
private or when no method that is not private, declared on some `oⱼ` with `j < i`, has its name
and parameter types. They list no method twice, and any two of them that are not private and
share a signature are declared on one type. -/
theorem Reachable.candidates_by_hiding (hr : h.Reachable) (t : Int) :
    (∀ e, h.methods.candidates h.types t = .error e ↔
      h.types.find? t = none ∧ e = .unknownType t) ∧
    (∀ chain, h.types.baseChain t = .ok chain →
      h.methods.candidates h.types t = .ok (h.methods.alongChain chain)) ∧
    ∀ cs, h.methods.candidates h.types t = .ok cs →
      cs.Nodup ∧ ∀ a ∈ cs, ∀ b ∈ cs, a.visibility ≠ .privateAccess →
        b.visibility ≠ .privateAccess → a.signature = b.signature → a.declaring = b.declaring := by
  obtain ⟨herr, hok⟩ := @MethodTable.candidates_eq h.methods h.types t
  refine ⟨herr, hok, fun cs hcs => ?_⟩
  -- a type with candidates is known, so it has a base chain
  obtain ⟨chain, hchain⟩ : ∃ chain, h.types.baseChain t = .ok chain := by
    cases hb : h.types.baseChain t with
    | ok chain => exact ⟨chain, rfl⟩
    | error e =>
      obtain ⟨hnone, rfl⟩ := TypeTable.baseChain_eq_error.1 hb
      rw [(herr _).2 ⟨hnone, rfl⟩] at hcs
      cases hcs
  rw [hok chain hchain, Except.ok.injEq] at hcs
  subst hcs
  -- the methods declared on one type are distinct, the registry's ids being distinct
  have hdecl : ∀ o, (h.methods.declaredOn o).Nodup := fun o =>
    (hr.nodup_registered.1.of_map _).sublist List.filter_sublist
  refine ⟨?_, fun a ha b hb hap hbp hsig =>
    MethodTable.alongChain_same_signature ha hb hap hbp hsig⟩
  rw [← MethodTable.candidatesFrom_eq_alongChain (TypeTable.nodup_of_baseChain hchain)]
  exact MethodTable.nodup_candidatesFrom hdecl chain [] (TypeTable.nodup_of_baseChain hchain)

/-- A class `B` (id 6) derives from `A` (id 5), with `Int` as id 4. `A` declares `f(Int)` and a
private `g()`, and `B` declares `f(Int)` again, which hides the `f` of `A`. -/
theorem candidates_by_hiding_of_override :
    let h := ((((((Host.fresh).apply (.types (.known .int))).apply
      (.types (.klass "A" none []))).apply (.types (.klass "B" (some 5) []))).apply
      (.register
        { id := 1, name := "f", declaring := 5, params := [{ name := "x", type := 4 }] })).apply
      (.register { id := 2, name := "g", declaring := 5, visibility := .privateAccess })).apply
      (.register { id := 3, name := "f", declaring := 6, params := [{ name := "x", type := 4 }] })
    h.Reachable ∧
      (∀ e, h.methods.candidates h.types 6 = .error e ↔
        h.types.find? 6 = none ∧ e = .unknownType 6) ∧
      (∀ chain, h.types.baseChain 6 = .ok chain →
        h.methods.candidates h.types 6 = .ok (h.methods.alongChain chain)) ∧
      ∀ cs, h.methods.candidates h.types 6 = .ok cs →
        cs.Nodup ∧ ∀ a ∈ cs, ∀ b ∈ cs, a.visibility ≠ .privateAccess →
          b.visibility ≠ .privateAccess → a.signature = b.signature →
            a.declaring = b.declaring := by
  intro h
  have hr : h.Reachable := .step _ (.step _ (.step _ (.step _ (.step _ (.step _ (.init _ _))))))
  exact ⟨hr, hr.candidates_by_hiding 6⟩

end Host

end CallSite
