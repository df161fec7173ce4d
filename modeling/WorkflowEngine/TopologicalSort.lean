import Mathlib.Data.List.Perm.Subperm
import WorkflowEngine.Graph
import WorkflowEngine.Lib.Listing

/-!
# The topological sort is complete

`_topological_sort` takes the nodes whose in-degree is zero.  The invariant of
its loop is `Taking`: the in-degree of a node counts its dependencies that are
not taken yet, and the nodes that are taken or queued are those whose
dependencies are all taken.  On a graph that has a listing the loop takes every
node, so that the result is the set of step ids in an order that respects the
dependencies.
-/

namespace WorkflowEngine

open Py

/-- The loop over the children of a node: it subtracts their number of
occurrences and queues those that reach zero. -/
theorem foldl_release (cs queue : List String) (degree : Dict String Int)
    (h : ∀ v ∈ cs, (cs.count v : Int) ≤ Dict.getD degree v 0) :
    ∃ new, (cs.foldl release (queue, degree)).1 = queue ++ new ∧ new.Nodup ∧
      (∀ v, v ∈ new ↔ v ∈ cs ∧ Dict.getD degree v 0 = cs.count v) ∧
      ∀ v, Dict.getD (cs.foldl release (queue, degree)).2 v 0 =
        Dict.getD degree v 0 - cs.count v := by
  induction cs generalizing queue degree with
  | nil => exact ⟨[], by simp⟩
  | cons c cs ih =>
    let degree₁ := Dict.set degree c (Dict.getD degree c 0 - 1)
    let first := if Dict.getD degree c 0 - 1 = 0 then [c] else []
    have hfold : (c :: cs).foldl release (queue, degree) =
        cs.foldl release (queue ++ first, degree₁) := by
      simp only [List.foldl_cons, release, first, degree₁]
      split <;> simp
    have hget : ∀ v, Dict.getD degree₁ v 0 =
        Dict.getD degree v 0 - if c = v then 1 else 0 := by
      intro v
      rw [Dict.getD_set]
      by_cases hv : c = v
      · simp [hv]
      · simp [hv]
    have hcount : ∀ v, ((c :: cs).count v : Int) = cs.count v + if c = v then 1 else 0 := by
      intro v
      rw [List.count_cons]
      by_cases hv : c = v
      · simp [hv]
      · simp [hv]
    obtain ⟨new, hqueue, hnodup, hmem, hdegree⟩ := ih (queue ++ first) degree₁ (by
      intro v hv
      have hle := h v (by simp [hv])
      rw [hcount] at hle
      rw [hget]
      omega)
    have hc := h c (by simp)
    rw [hcount, if_pos rfl] at hc
    refine ⟨first ++ new, ?_, ?_, fun v => ?_, fun v => ?_⟩
    · rw [hfold, hqueue, List.append_assoc]
    · -- If `c` is queued at once then no further occurrence of it follows.
      refine List.nodup_append.mpr ⟨by simp only [first]; split <;> simp, hnodup, ?_⟩
      rintro x hx y hy rfl
      have hxc : x = c ∧ Dict.getD degree c 0 - 1 = 0 := by
        simp only [first] at hx
        split at hx
        · rename_i hzero
          exact ⟨by simpa using hx, hzero⟩
        · simp at hx
      obtain ⟨rfl, hzero⟩ := hxc
      have hpos := List.count_pos_iff.mpr ((hmem x).mp hy).1
      omega
    · rw [List.mem_append, hmem, hget, hcount, List.mem_cons]
      have hfirst : v ∈ first ↔ v = c ∧ Dict.getD degree c 0 - 1 = 0 := by
        simp only [first]
        split <;> simp_all
      rw [hfirst]
      by_cases hv : c = v
      · subst hv
        by_cases hin : c ∈ cs
        · have hpos := List.count_pos_iff.mpr hin
          simp only [true_and, hin, if_true, or_true]
          omega
        · have hzero := List.count_eq_zero.mpr hin
          simp only [true_and, hin, false_and, or_false, if_true, hzero, Nat.cast_zero]
          omega
      · simp [hv, Ne.symm hv]
    · rw [hfold, hdegree, hget, hcount]
      omega

/-- The state of the loop of `_topological_sort`: `result` are the nodes that
are taken. -/
structure Taking (graph : Graph) (queue : List String) (degree : Dict String Int)
    (result : List String) : Prop where
  nodup : (result ++ queue).Nodup
  degree_eq : ∀ v, Dict.getD degree v 0 =
    ((Dict.getD graph v []).filter (· ∉ result)).length
  mem_iff : ∀ v, v ∈ result ++ queue ↔
    v ∈ Dict.keys graph ∧ Dict.getD graph v [] ⊆ result
  listing : Listing (Dict.getD graph · []) result

/-- Taking one more node settles the dependencies on it. -/
private theorem length_filter_concat (deps : List String) {result : List String} {node : String}
    (h : node ∉ result) :
    ((deps.filter (· ∉ result ++ [node])).length : Int) =
      (deps.filter (· ∉ result)).length - deps.count node := by
  induction deps with
  | nil => rfl
  | cons d deps ih =>
    by_cases hd : d = node
    · subst hd
      simp only [List.filter_cons, List.mem_append, List.mem_singleton, or_true, not_true_eq_false,
        decide_false, Bool.false_eq_true, if_false, h, not_false_eq_true, decide_true, if_true,
        List.length_cons, List.count_cons_self] at ih ⊢
      omega
    · by_cases hr : d ∈ result
      · simpa [List.filter_cons, hd, hr] using ih
      · simp only [List.filter_cons, List.mem_append, List.mem_singleton, hd, hr, or_false,
          not_false_eq_true, decide_true, if_true, List.length_cons,
          List.count_cons_of_ne hd] at ih ⊢
        omega

private theorem length_filter_eq_zero {deps result : List String} :
    (deps.filter (· ∉ result)).length = 0 ↔ deps ⊆ result := by
  rw [List.length_eq_zero_iff, List.filter_eq_nil_iff]
  simp only [decide_eq_true_eq, not_not]
  exact Iff.rfl

/-- One turn of the loop. -/
theorem Taking.step {graph : Graph} {forward : Dict String (List String)} {node : String}
    {queue result : List String} {degree : Dict String Int}
    (hkeys : (Dict.keys graph).Nodup)
    (hforward : Dict.getD forward node [] = dependents graph node)
    (h : Taking graph (node :: queue) degree result) :
    let st := (Dict.getD forward node []).foldl release (queue, degree)
    Taking graph st.1 st.2 (result ++ [node]) := by
  have hnode : node ∉ result := fun hmem =>
    (List.nodup_append.mp h.nodup).2.2 node hmem node (by simp) rfl
  have hcount := count_dependents hkeys node
  have hle : ∀ v ∈ dependents graph node,
      ((dependents graph node).count v : Int) ≤ Dict.getD degree v 0 := by
    intro v _
    have hnonneg := length_filter_concat (Dict.getD graph v []) hnode
    rw [h.degree_eq, hcount]
    omega
  obtain ⟨new, hqueue, hnodup, hnew, hdegree⟩ := foldl_release _ queue degree hle
  have hdegree' : ∀ v, Dict.getD ((Dict.getD forward node []).foldl release (queue, degree)).2 v 0 =
      ((Dict.getD graph v []).filter (· ∉ result ++ [node])).length := by
    intro v
    rw [hforward, hdegree, h.degree_eq, hcount, length_filter_concat _ hnode]
  have hmem : ∀ v, v ∈ new ↔ node ∈ Dict.getD graph v [] ∧
      Dict.getD graph v [] ⊆ result ++ [node] := by
    intro v
    have hzero := hdegree' v
    rw [hforward, hdegree] at hzero
    rw [hnew, ← List.count_pos_iff, hcount, List.count_pos_iff, ← length_filter_eq_zero]
    exact and_congr_right (fun _ => by rw [hcount] at hzero; omega)
  simp only [hforward] at hdegree' ⊢
  refine ⟨?_, hdegree', fun v => ?_, h.listing.concat ((h.mem_iff node).mp (by simp)).2⟩
  · have hold : ((result ++ [node]) ++ queue).Nodup := by simpa using h.nodup
    rw [hqueue, ← List.append_assoc]
    refine List.nodup_append.mpr ⟨hold, hnodup, ?_⟩
    rintro v hv _ hv' rfl
    -- A node that is taken or queued already depends on taken nodes only.
    exact hnode (((h.mem_iff v).mp (by simpa using hv)).2 ((hmem v).mp hv').1)
  · have hold := h.mem_iff v
    rw [hqueue, ← List.append_assoc, List.mem_append, hmem]
    constructor
    · rintro (hv | ⟨hdep, hsub⟩)
      · obtain ⟨hkey, hsub⟩ := hold.mp (by simpa using hv)
        exact ⟨hkey, fun d hd => List.mem_append_left _ (hsub hd)⟩
      · have hkey : v ∈ Dict.keys graph := by
          by_contra hnot
          simp [Dict.getD_of_not_mem hnot] at hdep
        exact ⟨hkey, hsub⟩
    · rintro ⟨hkey, hsub⟩
      by_cases hdep : node ∈ Dict.getD graph v []
      · exact .inr ⟨hdep, hsub⟩
      · have hsub' : Dict.getD graph v [] ⊆ result := by
          intro d hd
          rcases List.mem_append.mp (hsub hd) with hr | hn
          · exact hr
          · obtain rfl : d = node := by simpa using hn
            exact absurd hd hdep
        exact .inl (by simpa using hold.mpr ⟨hkey, hsub'⟩)

/-- When as many nodes are taken as there are, none is queued. -/
theorem Taking.queue_eq_nil {graph : Graph} {queue result : List String}
    {degree : Dict String Int} (h : Taking graph queue degree result)
    (hlength : graph.length ≤ result.length) : queue = [] := by
  have hsub : result ++ queue ⊆ Dict.keys graph := fun v hv => ((h.mem_iff v).mp hv).1
  have hle := (List.subperm_of_subset h.nodup hsub).length_le
  simp only [List.length_append, Dict.keys, List.length_map] at hle
  exact List.length_eq_zero_iff.mp (by omega)

/-- The whole loop: its fuel is enough to empty the queue. -/
theorem topologicalLoop_spec {graph : Graph} {forward : Dict String (List String)}
    (hkeys : (Dict.keys graph).Nodup)
    (hforward : ∀ d, Dict.getD forward d [] = dependents graph d) (fuel : Nat)
    {queue result : List String} {degree : Dict String Int}
    (h : Taking graph queue degree result) (hfuel : graph.length ≤ fuel + result.length) :
    ∃ degree', Taking graph [] degree' (topologicalLoop forward fuel queue degree result) := by
  induction fuel generalizing queue result degree with
  | zero =>
    have hnil := h.queue_eq_nil (by omega)
    exact ⟨degree, by simpa [topologicalLoop, hnil] using h⟩
  | succ fuel ih =>
    cases queue with
    | nil => exact ⟨degree, by simpa [topologicalLoop] using h⟩
    | cons node queue =>
      have hstep := h.step hkeys (hforward node)
      exact ih hstep (by simp only [List.length_append, List.length_singleton]; omega)

/-- The nodes of the dictionary whose in-degree is zero. -/
theorem mem_sources {degree : Dict String Int} (hkeys : (Dict.keys degree).Nodup) (v : String) :
    v ∈ sources degree ↔ v ∈ Dict.keys degree ∧ Dict.getD degree v 0 = 0 := by
  unfold sources Dict.keys
  simp only [List.mem_map, List.mem_filter, decide_eq_true_eq]
  constructor
  · rintro ⟨⟨k, n⟩, ⟨hmem, hn⟩, rfl⟩
    exact ⟨⟨_, hmem, rfl⟩, by simpa [Dict.getD, Dict.get?_of_mem hkeys hmem] using hn⟩
  · rintro ⟨⟨⟨k, n⟩, hmem, rfl⟩, hzero⟩
    refine ⟨⟨k, n⟩, ⟨hmem, ?_⟩, rfl⟩
    simpa [Dict.getD, Dict.get?_of_mem hkeys hmem] using hzero

/-- The loop starts with the nodes without dependencies in its queue. -/
theorem taking_start {graph : Graph} {degree : Dict String Int} (hkeys : (Dict.keys graph).Nodup)
    (hnodes : Dict.keys degree = Dict.keys graph)
    (hdegree : ∀ v, Dict.getD degree v 0 = (Dict.getD graph v []).length) :
    Taking graph (sources degree) degree [] := by
  refine ⟨?_, fun v => by simp [hdegree], fun v => ?_, Listing.nil⟩
  · have hsublist : (sources degree).Sublist (Dict.keys degree) :=
      List.filter_sublist.map Prod.fst
    simpa using hsublist.nodup (hnodes ▸ hkeys)
  · rw [List.nil_append, mem_sources (hnodes ▸ hkeys), hnodes, hdegree, List.subset_nil]
    simp

/-- The dependencies of a step. -/
def dependenciesOf (steps : List StepDefinition) (v : String) : List String :=
  Dict.getD (steps.map (fun step => (step.id, step.dependsOn))) v []

theorem dependenciesOf_eq {steps : List StepDefinition} (hids : (steps.map (·.id)).Nodup)
    {step : StepDefinition} (h : step ∈ steps) : dependenciesOf steps step.id = step.dependsOn := by
  have hkeys : (Dict.keys (steps.map (fun step => (step.id, step.dependsOn)))).Nodup := by
    simpa [Dict.keys, Function.comp_def] using hids
  have hmem : (step.id, step.dependsOn) ∈ steps.map (fun step => (step.id, step.dependsOn)) :=
    List.mem_map.mpr ⟨step, h, rfl⟩
  simp [dependenciesOf, Dict.getD, Dict.get?_of_mem hkeys hmem]

/-- `_topological_sort` takes exactly the steps whose dependencies it has taken,
each of them once and after its dependencies. -/
theorem topologicalSort_takes {steps : List StepDefinition} (hids : (steps.map (·.id)).Nodup) :
    (topologicalSort steps).Nodup ∧
      (∀ v, v ∈ topologicalSort steps ↔
        v ∈ steps.map (·.id) ∧ dependenciesOf steps v ⊆ topologicalSort steps) ∧
      Listing (dependenciesOf steps) (topologicalSort steps) := by
  let graph : Graph := steps.map (fun step => (step.id, step.dependsOn))
  have hkeysEq : Dict.keys graph = steps.map (·.id) := by
    simp [graph, Dict.keys, Function.comp_def]
  have hkeys : (Dict.keys graph).Nodup := hkeysEq ▸ hids
  let linked := linkDependencies graph ([], [])
  have hlinked : Dict.keys linked.2 = Dict.keys graph := by
    have hnodup : (Dict.keys ([] : Dict String Int) ++ Dict.keys graph).Nodup := hkeys
    exact linkDependencies_keys hnodup
  have hdegree : ∀ v, Dict.getD linked.2 v 0 = (Dict.getD graph v []).length := by
    intro v
    simpa [Dict.getD] using linkDependencies_degree hkeys ([], []) v
  have hforward : ∀ d, Dict.getD linked.1 d [] = dependents graph d := by
    intro d
    simpa [Dict.getD] using linkDependencies_edges graph ([], []) d
  have hstart : Taking graph (sources linked.2) linked.2 [] := taking_start hkeys hlinked hdegree
  obtain ⟨degree, hend⟩ := topologicalLoop_spec hkeys hforward steps.length hstart
    (by simp [graph])
  have hresult : topologicalLoop linked.1 steps.length (sources linked.2) linked.2 [] =
      topologicalSort steps := rfl
  rw [hresult] at hend
  have hmem : ∀ v, v ∈ topologicalSort steps ↔
      v ∈ Dict.keys graph ∧ Dict.getD graph v [] ⊆ topologicalSort steps := by
    simpa using hend.mem_iff
  rw [← hkeysEq]
  exact ⟨by simpa using hend.nodup, hmem, hend.listing⟩

/-- On a graph that has a listing, `_topological_sort` returns the step ids in
an order in which each step comes after its dependencies. -/
theorem topologicalSort_spec {steps : List StepDefinition} (hids : (steps.map (·.id)).Nodup)
    {l : List String} (hlisting : Listing (dependenciesOf steps) l)
    (hsub : l ⊆ steps.map (·.id)) (hall : steps.map (·.id) ⊆ l) :
    (topologicalSort steps).Perm (steps.map (·.id)) ∧
      Listing (dependenciesOf steps) (topologicalSort steps) := by
  obtain ⟨hnodup, hmem, hsorted⟩ := topologicalSort_takes hids
  have hcomplete : ∀ v ∈ l, v ∈ topologicalSort steps :=
    hlisting.subset_of_closed (fun v hv hdeps => (hmem v).mpr ⟨hsub hv, hdeps⟩)
  refine ⟨(List.perm_ext_iff_of_nodup hnodup hids).mpr (fun v => ?_), hsorted⟩
  exact ⟨fun hv => ((hmem v).mp hv).1, fun hv => hcomplete v (hall hv)⟩

end WorkflowEngine
