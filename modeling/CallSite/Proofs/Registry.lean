import CallSite.Proofs.Types

/-!
# What every run of a host keeps of its registry

A host is built from a type table and an empty registry by operations that create types or
register methods (`Host.Reachable`); the table may be any, and so may the configuration of
implicit parameters. One operation changes the host in one of two ways (`Host.apply_cases`):
a type operation grows the table and leaves the registry alone, and a registration that passes
its checks appends its method to the registry, even when naming the declaring type fails
afterwards.

Along every run the registry keeps its laws (`MethodTable.Laws`): the views `find?`,
`declaredOn` and `toList` describe the same methods, with distinct ids, and every stored method
is well formed for the host's configuration and its current table (`Method.Registered`): its
parameters are its declared ones classified at the positions `0, 1, …`, its implicit parameters
come first and are plain, and only its last parameter is variadic, with a type that is and stays
an array type. Whether a parameter is optional is whether it has a default (`Param.optional`),
so that needs no law of its own.

The main statement is `Host.Reachable.registry`.
-/

namespace CallSite

/-! ## What a registered method keeps -/

namespace Method.Registered

variable {cfg : ImplicitConfig} {tt tt' : TypeTable} {m : Method}

/-- A registered method stays registered as the table grows. -/
theorem extend (h : m.Registered cfg tt) (hext : tt.Extends tt') : m.Registered cfg tt' :=
  ⟨h.classified, h.shape, fun p hp hv => hext.isArray (h.variadic_array p hp hv)⟩

/-- The parameters sit at the positions `0, 1, …`. -/
theorem positions (h : m.Registered cfg tt) :
    m.params.map (·.position) = List.range m.params.length := by
  have hcl := h.classified
  -- classifying keeps the position it is given
  have hpos : m.params.map (·.position) = ((m.params.map Param.decl).zipIdx).map Prod.snd := by
    conv => lhs; rw [hcl]
    simp [Function.comp_def, ParamDecl.classify]
  rw [hpos, List.zipIdx_map_snd, List.length_map, List.range_eq_range']

/-- Only the first parameter can be the context. -/
theorem context_first (h : m.Registered cfg tt) {p : Param} (hp : p ∈ m.params)
    (hc : p.role = .context) : p.position = 0 := by
  rw [h.classified] at hp
  obtain ⟨⟨d, i⟩, -, rfl⟩ := List.mem_map.1 hp
  simp only [ParamDecl.classify, ParamDecl.role] at hc ⊢
  -- the other roles are not the context
  split at hc
  · exact ‹i = 0 ∧ _›.1
  · split at hc
    · cases hc
    · split at hc <;> cases hc

end Method.Registered

/-! ## The laws of a registry -/

namespace MethodTable

variable {cfg : ImplicitConfig} {tt : TypeTable} {mt mt' : MethodTable} {d : MethodDecl}
  {m : Method}

/-- The laws of a registry, for the configuration and the table of its host. -/
structure Laws (cfg : ImplicitConfig) (tt : TypeTable) (mt : MethodTable) : Prop where
  /-- No two registered methods share an id. -/
  ids_nodup : (mt.toList.map (·.id)).Nodup
  /-- A registered method is found by its id. -/
  find?_self : ∀ m ∈ mt.toList, mt.find? m.id = some m
  /-- What an id finds is a registered method with that id. -/
  find?_eq_some : ∀ id m, mt.find? id = some m → m.id = id ∧ m ∈ mt.toList
  /-- The methods declared on a type are the registered ones declared on it, in registration
  order. -/
  declaredOn_sublist : ∀ t, (mt.declaredOn t).Sublist mt.toList ∧
    ∀ m, m ∈ mt.declaredOn t ↔ m ∈ mt.toList ∧ m.declaring = t
  /-- A registered method appears exactly once among the methods declared on its type. -/
  declaredOn_once : ∀ m ∈ mt.toList, (mt.declaredOn m.declaring).filter (·.id == m.id) = [m]
  /-- Every registered method is well formed. -/
  registered : ∀ m ∈ mt.toList, m.Registered cfg tt

theorem find?_eq (mt : MethodTable) (id : Int) :
    mt.find? id = mt.toList.find? (·.id == id) := by
  simp [find?, toList, Array.find?_toList]

/-- Among methods of distinct ids, one of them is the only one with its id. -/
theorem filter_id_eq_singleton :
    ∀ {ms : List Method}, (ms.map (·.id)).Nodup → m ∈ ms → ms.filter (·.id == m.id) = [m]
  | [], _, hm => absurd hm (List.not_mem_nil)
  | a :: ms, hnd, hm => by
    rw [List.map_cons, List.nodup_cons] at hnd
    by_cases ha : a.id = m.id
    · -- `m` is `a`: no later method has its id
      have hrest : ms.filter (·.id == m.id) = [] := by
        refine List.filter_eq_nil_iff.2 fun b hb hbm => hnd.1 ?_
        rw [ha, ← beq_iff_eq.1 hbm]
        exact List.mem_map_of_mem hb
      have hma : m = a := by
        rcases List.mem_cons.1 hm with h | h
        · exact h
        · simp [List.filter_eq_nil_iff] at hrest
          exact absurd rfl (hrest m h)
      simp [ha, hrest, hma]
    · have hm' : m ∈ ms := by
        rcases List.mem_cons.1 hm with rfl | h
        · exact absurd rfl ha
        · exact h
      simp [ha, filter_id_eq_singleton hnd.2 hm']

/-- The views of a registry whose methods have distinct ids and are registered well agree. -/
theorem Laws.of_nodup (hnd : (mt.toList.map (·.id)).Nodup)
    (hreg : ∀ m ∈ mt.toList, m.Registered cfg tt) : mt.Laws cfg tt where
  ids_nodup := hnd
  find?_self := by
    intro m hm
    rw [find?_eq, ← List.head?_filter, filter_id_eq_singleton hnd hm]
    rfl
  find?_eq_some := by
    intro id m h
    rw [find?_eq] at h
    have hid := List.find?_some h
    exact ⟨beq_iff_eq.1 hid, List.mem_of_find?_eq_some h⟩
  declaredOn_sublist t := ⟨List.filter_sublist, fun m => by simp [declaredOn]⟩
  declaredOn_once := by
    intro m hm
    calc (mt.declaredOn m.declaring).filter (·.id == m.id)
        = (mt.toList.filter (·.id == m.id)).filter (·.declaring == m.declaring) := by
          simp only [declaredOn, List.filter_filter, Bool.and_comm]
      _ = [m] := by simp [filter_id_eq_singleton hnd hm]
  registered := hreg

/-- A registration that succeeds keeps the ids distinct. -/
theorem nodup_ids_of_add (hnd : (mt.toList.map (·.id)).Nodup)
    (h : mt.add tt cfg d = .ok (mt', m)) : (mt'.toList.map (·.id)).Nodup := by
  obtain ⟨hfree, ps, -, hm, -⟩ := add_eq_ok.1 h
  have hid : m.id = d.id := by rw [hm]
  rw [find?_eq, List.find?_eq_none] at hfree
  rw [toList_of_add h, List.map_append, List.nodup_append]
  refine ⟨hnd, by simp, ?_⟩
  intro x hx y hy hxy
  obtain ⟨a, ha, rfl⟩ := List.mem_map.1 hx
  simp only [List.map_cons, List.map_nil, List.mem_singleton] at hy
  rw [hy, hid] at hxy
  exact absurd hxy (by simpa using hfree a ha)

end MethodTable

/-! ## Runs of a host -/

namespace Host

/-- The hosts that a run of operations builds from a type table, an empty registry and a
configuration of implicit parameters. -/
inductive Reachable : Host → Prop
  | init (tt : TypeTable) (cfg : ImplicitConfig) : Reachable ⟨tt, .empty, cfg⟩
  | step {h : Host} (op : HostOp) : Reachable h → Reachable (h.apply op)

/-- **What one operation does to a host.** A type operation leaves the registry and the
configuration alone and grows the table; a registration that passes its checks changes only
the registry, to the one `MethodTable.add` gives; a registration that fails its checks changes
nothing. -/
theorem apply_cases (h : Host) (op : HostOp) :
    ((h.apply op).methods = h.methods ∧ (h.apply op).config = h.config ∧
        h.types.Extends (h.apply op).types) ∨
      ∃ d mt m, op = .register d ∧ h.methods.add h.types h.config d = .ok (mt, m) ∧
        h.apply op = { h with methods := mt } := by
  cases op with
  | types op =>
    left
    simp only [apply, tryTypes]
    cases hr : op.run h.types with
    | error e => exact ⟨rfl, rfl, TypeTable.Extends.refl _⟩
    | ok r =>
      obtain ⟨tt', t⟩ := r
      exact ⟨rfl, rfl, (TypeTable.step_of_run hr).extends⟩
  | register d =>
    simp only [apply, register]
    cases ha : h.methods.add h.types h.config d with
    | error e => exact .inl ⟨rfl, rfl, TypeTable.Extends.refl _⟩
    | ok r => exact .inr ⟨d, r.1, r.2, rfl, ha, rfl⟩

variable {h : Host}

/-- Along every run the ids of the registry stay distinct, and every stored method stays
registered well for the host's configuration and its current table. -/
theorem Reachable.nodup_registered (hr : h.Reachable) :
    (h.methods.toList.map (·.id)).Nodup ∧
      ∀ m ∈ h.methods.toList, m.Registered h.config h.types := by
  induction hr with
  | init tt cfg => simp [MethodTable.empty, MethodTable.toList]
  | step op _ ih =>
    obtain ⟨hnd, hreg⟩ := ih
    rcases apply_cases _ op with ⟨hm, hc, hext⟩ | ⟨d, mt, m, -, hadd, heq⟩
    · rw [hm, hc]
      exact ⟨hnd, fun m hm' => (hreg m hm').extend hext⟩
    · rw [heq]
      refine ⟨MethodTable.nodup_ids_of_add hnd hadd, fun m' hm' => ?_⟩
      rw [MethodTable.toList_of_add hadd] at hm'
      rcases List.mem_append.1 hm' with hm' | hm'
      · exact hreg m' hm'
      · rw [List.mem_singleton.1 hm']
        exact MethodTable.registered_of_add hadd

/-- **The registry along every run.** Its views agree, with distinct ids, and its methods are
registered well (`MethodTable.Laws`); the parameters of each sit at the positions `0, 1, …`,
with the context only at the first; and each operation keeps the registry or, registering a
method that passes the checks, appends it to all methods and to those of its declaring type. -/
theorem Reachable.registry (hr : h.Reachable) :
    h.methods.Laws h.config h.types ∧
      (∀ m ∈ h.methods.toList, m.params.map (·.position) = List.range m.params.length ∧
        ∀ p ∈ m.params, p.role = .context → p.position = 0) ∧
      ∀ op, (h.apply op).methods = h.methods ∨
        ∃ d mt m, op = .register d ∧ h.methods.add h.types h.config d = .ok (mt, m) ∧
          (h.apply op).methods = mt ∧ mt.toList = h.methods.toList ++ [m] ∧
          ∀ t, mt.declaredOn t = h.methods.declaredOn t ++ if m.declaring = t then [m] else [] := by
  obtain ⟨hnd, hreg⟩ := hr.nodup_registered
  refine ⟨.of_nodup hnd hreg, fun m hm => ⟨(hreg m hm).positions, fun p hp hc =>
    (hreg m hm).context_first hp hc⟩, fun op => ?_⟩
  rcases apply_cases h op with ⟨hm, -, -⟩ | ⟨d, mt, m, rfl, hadd, heq⟩
  · exact .inl hm
  · have hlist := MethodTable.toList_of_add hadd
    refine .inr ⟨d, mt, m, rfl, hadd, by rw [heq], hlist, fun t => ?_⟩
    by_cases ht : m.declaring = t <;> simp [MethodTable.declaredOn, hlist, ht]

/-- A fresh host after registering a method that takes the context and one more context
value, which is then regular. -/
theorem registry_after_one_registration :
    let h := (Host.fresh).apply (.register
      { id := 7, name := "f", declaring := 1,
        params := [{ name := "ctx", type := 1 }, { name := "x", type := 1 }] })
    h.Reachable ∧ h.methods.Laws h.config h.types ∧
      (∀ m ∈ h.methods.toList, m.params.map (·.position) = List.range m.params.length ∧
        ∀ p ∈ m.params, p.role = .context → p.position = 0) ∧
      ∀ op, (h.apply op).methods = h.methods ∨
        ∃ d mt m, op = .register d ∧ h.methods.add h.types h.config d = .ok (mt, m) ∧
          (h.apply op).methods = mt ∧ mt.toList = h.methods.toList ++ [m] ∧
          ∀ t, mt.declaredOn t = h.methods.declaredOn t ++ if m.declaring = t then [m] else [] := by
  intro h
  have hr : h.Reachable := .step _ (.init _ _)
  exact ⟨hr, Reachable.registry hr⟩

end Host

end CallSite
