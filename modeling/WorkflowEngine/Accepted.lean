import WorkflowEngine.Cycles
import WorkflowEngine.Parser
import WorkflowEngine.TopologicalSort

/-!
# What the parser guarantees

`Accepted` collects what later proofs use of a workflow that
`parse_workflow_definition` accepts: there is a step, the step ids are
distinct, the dependencies are steps, and `_topological_sort` returns all step
ids in an order that respects the dependencies.
-/

namespace WorkflowEngine

open Py

/-- The guarantees of the parser on the decoded steps. -/
structure Accepted (steps : List StepDefinition) : Prop where
  nonempty : steps ≠ []
  ids_nodup : (steps.map (·.id)).Nodup
  dependsOn_subset : ∀ step ∈ steps, step.dependsOn ⊆ steps.map (·.id)
  order_perm : (topologicalSort steps).Perm (steps.map (·.id))
  order_listing : Listing (dependenciesOf steps) (topologicalSort steps)

/-- A sequence succeeds where both parts do. -/
theorem bind_eq_ok_iff {ε α β : Type} {x : Except ε α} {f : α → Except ε β} {b : β} :
    (x >>= f) = .ok b ↔ ∃ a, x = .ok a ∧ f a = .ok b := by
  cases x with
  | error e =>
    refine ⟨fun h => (nomatch h), ?_⟩
    rintro ⟨a, h, -⟩
    cases h
  | ok a =>
    refine ⟨fun h => ⟨a, rfl, h⟩, ?_⟩
    rintro ⟨a', h, hf⟩
    cases h
    exact hf

theorem mapError_eq_ok_iff {ε ε' α : Type} {x : Except ε α} {g : ε → ε'} {a : α} :
    x.mapError g = .ok a ↔ x = .ok a := by
  cases x with
  | error e => exact ⟨fun h => (nomatch h), fun h => (nomatch h)⟩
  | ok b =>
    show Except.ok b = .ok a ↔ _
    simp

/-- A loop of checks passes where each of them does. -/
theorem forM_eq_ok_iff {ε α : Type} {l : List α} {f : α → Except ε Unit} :
    l.forM f = .ok () ↔ ∀ a ∈ l, f a = .ok () := by
  induction l with
  | nil => exact ⟨fun _ => by simp, fun _ => rfl⟩
  | cons a l ih =>
    show (f a >>= fun _ => l.forM f) = .ok () ↔ _
    rw [bind_eq_ok_iff, List.forall_mem_cons, ← ih]
    constructor
    · rintro ⟨⟨⟩, ha, hrest⟩
      exact ⟨ha, hrest⟩
    · rintro ⟨ha, hrest⟩
      exact ⟨(), ha, hrest⟩

private theorem validateUniqueFrom_iff {seen : List String} {steps : List StepDefinition} :
    validateUniqueFrom seen steps = .ok () ↔
      (steps.map (·.id)).Nodup ∧ ∀ step ∈ steps, step.id ∉ seen := by
  induction steps generalizing seen with
  | nil => simp [validateUniqueFrom]
  | cons step rest ih =>
    rw [validateUniqueFrom, List.map_cons, List.nodup_cons, List.forall_mem_cons]
    by_cases hseen : step.id ∈ seen
    · simp [hseen]
    · rw [if_neg hseen, ih]
      simp only [List.mem_cons, not_or]
      constructor
      · rintro ⟨hnodup, hnew⟩
        refine ⟨⟨fun hmem => ?_, hnodup⟩, hseen, fun other hother => (hnew other hother).2⟩
        rcases List.mem_map.mp hmem with ⟨other, hother, heq⟩
        exact (hnew other hother).1 heq
      · rintro ⟨⟨hfresh, hnodup⟩, -, hrest⟩
        refine ⟨hnodup, fun other hother => ⟨fun heq => ?_, hrest other hother⟩⟩
        exact hfresh (List.mem_map.mpr ⟨other, hother, heq⟩)

/-- `_validate_unique_ids` accepts exactly the steps with distinct ids. -/
theorem validateUniqueIds_iff {steps : List StepDefinition} :
    validateUniqueIds steps = .ok () ↔ (steps.map (·.id)).Nodup := by
  rw [validateUniqueIds, validateUniqueFrom_iff]
  simp

/-- `_validate_dependencies` accepts exactly the dependencies on steps. -/
theorem validateDependencies_iff {steps : List StepDefinition} :
    validateDependencies steps = .ok () ↔
      ∀ step ∈ steps, step.dependsOn ⊆ steps.map (·.id) := by
  rw [validateDependencies, forM_eq_ok_iff]
  refine forall₂_congr fun step _ => ?_
  unfold validateStepDependencies
  split
  · rename_i dep hfound
    refine ⟨fun h => (by cases h), fun hsub => ?_⟩
    have hmissing := List.find?_some hfound
    exact absurd (hsub (List.mem_of_find?_eq_some hfound)) (of_decide_eq_true hmissing)
  · rename_i hnone
    refine ⟨fun _ dep hdep => ?_, fun _ => rfl⟩
    simpa using List.find?_eq_none.mp hnone dep hdep

private theorem parseStepsFrom_length {libs : Libraries} {raws : List Json} {index : Nat}
    {steps : List StepDefinition} (h : parseStepsFrom libs index raws = .ok steps) :
    steps.length = raws.length := by
  induction raws generalizing index steps with
  | nil =>
    cases h
    rfl
  | cons raw rest ih =>
    rw [parseStepsFrom] at h
    split at h
    · cases h
    · split at h
      · cases h
      · rename_i hrest
        cases h
        simp [ih hrest]

/-- The graph of a workflow with distinct step ids is the list of its items. -/
theorem buildDependencyGraph_eq {steps : List StepDefinition} (h : (steps.map (·.id)).Nodup) :
    buildDependencyGraph steps = steps.map (fun step => (step.id, step.dependsOn)) :=
  Dict.ofItems_eq_self (by simpa [Dict.keys, Function.comp_def] using h)

/-- The nodes of the graph are the step ids. -/
theorem keys_items (steps : List StepDefinition) :
    Dict.keys (steps.map (fun step => (step.id, step.dependsOn))) = steps.map (·.id) := by
  simp [Dict.keys, Function.comp_def]

/-- The edges of the graph of checked steps lead to nodes. -/
theorem dependenciesOf_subset {steps : List StepDefinition} (hids : (steps.map (·.id)).Nodup)
    (hsub : ∀ step ∈ steps, step.dependsOn ⊆ steps.map (·.id)) (v : String) :
    dependenciesOf steps v ⊆ steps.map (·.id) := by
  by_cases hv : v ∈ steps.map (·.id)
  · rcases List.mem_map.mp hv with ⟨step, hstep, rfl⟩
    rw [dependenciesOf_eq hids hstep]
    exact hsub step hstep
  · rw [dependenciesOf, Dict.getD_of_not_mem (by rwa [keys_items])]
    exact List.nil_subset _

/-- Steps that pass the checks on ids, dependencies and cycles have a listing. -/
theorem listing_of_checks {steps : List StepDefinition} (hids : (steps.map (·.id)).Nodup)
    (hsub : ∀ step ∈ steps, step.dependsOn ⊆ steps.map (·.id))
    (hcycles : detectCycles (buildDependencyGraph steps) = .ok ()) :
    ∃ l, Listing (dependenciesOf steps) l ∧ l ⊆ steps.map (·.id) ∧ steps.map (·.id) ⊆ l := by
  rw [buildDependencyGraph_eq hids] at hcycles
  have hkeys := keys_items steps
  have hlisting := listing_of_detectCycles (by rwa [hkeys])
    (fun v => by rw [hkeys]; exact dependenciesOf_subset hids hsub v) hcycles
  rwa [hkeys] at hlisting

/-- Steps that pass the checks on ids, dependencies and cycles are accepted. -/
theorem accepted_of_checks {steps : List StepDefinition} (hne : steps ≠ [])
    (hunique : validateUniqueIds steps = .ok ()) (hdeps : validateDependencies steps = .ok ())
    (hcycles : detectCycles (buildDependencyGraph steps) = .ok ()) : Accepted steps := by
  have hids := validateUniqueIds_iff.mp hunique
  have hsub := validateDependencies_iff.mp hdeps
  rcases listing_of_checks hids hsub hcycles with ⟨l, hlisting, hl, hall⟩
  have hsort := topologicalSort_spec hids hlisting hl hall
  exact ⟨hne, hids, hsub, hsort.1, hsort.2⟩

/-- The steps of a workflow that `parse_workflow_definition` accepts. -/
theorem accepted_of_parse {libs : Libraries} {settings : Settings} {raw : RawDefinition}
    {parsed : WorkflowDefinition} (h : parseWorkflowDefinition libs settings raw = .ok parsed) :
    Accepted parsed.steps := by
  rcases bind_eq_ok_iff.mp h with ⟨_, hcount, h⟩
  rcases bind_eq_ok_iff.mp h with ⟨steps, hsteps, h⟩
  rcases bind_eq_ok_iff.mp h with ⟨_, hvalid, h⟩
  cases h
  rcases bind_eq_ok_iff.mp (mapError_eq_ok_iff.mp hvalid) with ⟨_, hunique, hvalid⟩
  rcases bind_eq_ok_iff.mp hvalid with ⟨_, _, hvalid⟩
  rcases bind_eq_ok_iff.mp hvalid with ⟨_, hdeps, hvalid⟩
  rcases bind_eq_ok_iff.mp hvalid with ⟨_, hcycles, _⟩
  have hraw : raw.steps ≠ [] := by
    intro hnil
    have hok := mapError_eq_ok_iff.mp hcount
    simp [validateStepCount, hnil] at hok
  have hne : steps ≠ [] := by
    intro hnil
    have hlength := parseStepsFrom_length hsteps
    rw [hnil] at hlength
    exact hraw (List.length_eq_zero_iff.mp hlength.symm)
  exact accepted_of_checks hne hunique hdeps hcycles

namespace Accepted

variable {steps : List StepDefinition} (h : Accepted steps)
include h

theorem order_nodup : (topologicalSort steps).Nodup := h.order_perm.nodup_iff.mpr h.ids_nodup

theorem mem_order {s : String} : s ∈ topologicalSort steps ↔ s ∈ steps.map (·.id) :=
  h.order_perm.mem_iff

theorem keys_stepItems_nodup :
    (Dict.keys (steps.map (fun step => (step.id, step)))).Nodup := by
  simpa [Dict.keys, Function.comp_def] using h.ids_nodup

/-- `step_defs` is the list of its items. -/
theorem stepDefs_eq : Dict.ofItems (steps.map (fun step => (step.id, step))) =
    steps.map (fun step => (step.id, step)) :=
  Dict.ofItems_eq_self h.keys_stepItems_nodup

/-- The step definition that `step_defs` has under a step id. -/
theorem stepDefs_get {step : StepDefinition} (hstep : step ∈ steps) :
    Dict.get? (Dict.ofItems (steps.map (fun step => (step.id, step)))) step.id = some step := by
  rw [h.stepDefs_eq]
  exact Dict.get?_of_mem h.keys_stepItems_nodup (List.mem_map.mpr ⟨step, hstep, rfl⟩)

/-- Steps with the same id are the same step. -/
theorem eq_of_id_eq {step step' : StepDefinition} (hstep : step ∈ steps) (hstep' : step' ∈ steps)
    (hid : step.id = step'.id) : step = step' := by
  have hget := h.stepDefs_get hstep
  rw [hid, h.stepDefs_get hstep'] at hget
  exact (Option.some.inj hget).symm

/-- A dependency of a step stands before it in the order. -/
theorem dependsOn_before {step : StepDefinition} (hstep : step ∈ steps) {pre post : List String}
    (horder : topologicalSort steps = pre ++ step.id :: post) : step.dependsOn ⊆ pre := by
  have hdeps := h.order_listing pre step.id post horder
  rwa [dependenciesOf_eq h.ids_nodup hstep] at hdeps

end Accepted

end WorkflowEngine
