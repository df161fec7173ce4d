import WorkflowEngine.Accepted
import WorkflowEngine.Depth
import WorkflowEngine.Plain

/-!
# What the parser accepts, and how it fails

`WellFormed` says what a workflow definition has to be, without the algorithms
of the checks: distinct steps, dependencies on steps, no cycle, and no long
chain.  `parse_workflow_definition` accepts exactly these definitions.

It fails with a documented `AppError`, with one exception: where the `type` of
the first step that Pydantic refuses is a list or an object, the handler asks
whether it is in a set and raises `TypeError`.
-/

namespace WorkflowEngine

open Py

/-- The step `v` depends on the step `d`. -/
def DependsOn (steps : List StepDefinition) (d v : String) : Prop :=
  ∃ step ∈ steps, step.id = v ∧ d ∈ step.dependsOn

/-- The workflow definitions that are well formed. -/
structure WellFormed (libs : Libraries) (settings : Settings) (rawSteps : List Json)
    (steps : List StepDefinition) : Prop where
  count_pos : 1 ≤ rawSteps.length
  count_le : rawSteps.length ≤ settings.maxStepsPerWorkflow
  decoded : List.Forall₂ (fun raw step => libs.decodeStep raw = .ok step) rawSteps steps
  ids_distinct : (steps.map (·.id)).Nodup
  dependencies_exist : ∀ d v, DependsOn steps d v → d ∈ steps.map (·.id)
  acyclic : ∀ v, ¬ Relation.TransGen (DependsOn steps) v v
  chains_short : ∀ c : List String, c.IsChain (DependsOn steps) → c.length ≤ maxDepth
  templates_valid : validateJinja2Expressions libs steps = .ok ()

/-! ## The checks one by one -/

private theorem parseStepsFrom_iff {libs : Libraries} {raws : List Json} {index : Nat}
    {steps : List StepDefinition} :
    parseStepsFrom libs index raws = .ok steps ↔
      List.Forall₂ (fun raw step => libs.decodeStep raw = .ok step) raws steps := by
  induction raws generalizing index steps with
  | nil =>
    rw [parseStepsFrom, List.forall₂_nil_left_iff, Except.ok.injEq, eq_comm]
  | cons raw rest ih =>
    rw [parseStepsFrom, List.forall₂_cons_left_iff]
    cases hraw : libs.decodeStep raw with
    | error failure => simp
    | ok step =>
      dsimp only
      constructor
      · intro h
        split at h
        · cases h
        · rename_i tail hrest
          cases h
          exact ⟨step, tail, rfl, ih.mp hrest, rfl⟩
      · rintro ⟨_, tail, ⟨⟩, htail, rfl⟩
        rw [ih.mpr htail]

/-- `_parse_steps` returns the decoded steps, if all of them can be decoded. -/
theorem parseSteps_iff {libs : Libraries} {raws : List Json} {steps : List StepDefinition} :
    parseSteps libs raws = .ok steps ↔
      List.Forall₂ (fun raw step => libs.decodeStep raw = .ok step) raws steps :=
  parseStepsFrom_iff

theorem validateStepCount_iff {settings : Settings} {raws : List Json} :
    validateStepCount settings raws = .ok () ↔
      1 ≤ raws.length ∧ raws.length ≤ settings.maxStepsPerWorkflow := by
  unfold validateStepCount
  cases raws with
  | nil => simp
  | cons raw rest =>
    by_cases hmany : (raw :: rest).length > settings.maxStepsPerWorkflow
    · simp only [List.isEmpty_cons, Bool.false_eq_true, if_false, hmany, if_true, reduceCtorEq,
        false_iff]
      omega
    · simp only [List.isEmpty_cons, Bool.false_eq_true, if_false, hmany, true_iff]
      exact ⟨Nat.succ_pos _, by omega⟩

/-- The type of a decoded step is one of the enumeration. -/
theorem validateStepTypes_ok (steps : List StepDefinition) : validateStepTypes steps = .ok () := by
  induction steps with
  | nil => rfl
  | cons step rest ih =>
    have hvalid : step.type.value ∈ validStepTypes := by
      cases step.type <;> decide
    rw [validateStepTypes, if_neg (not_not_intro hvalid), ih]

/-- The edges of the graph are the dependencies, when the ids are distinct. -/
theorem mem_dependenciesOf {steps : List StepDefinition} (hids : (steps.map (·.id)).Nodup)
    (d v : String) : d ∈ dependenciesOf steps v ↔ DependsOn steps d v := by
  constructor
  · intro hd
    by_cases hv : v ∈ steps.map (·.id)
    · rcases List.mem_map.mp hv with ⟨step, hstep, rfl⟩
      rw [dependenciesOf_eq hids hstep] at hd
      exact ⟨step, hstep, rfl, hd⟩
    · rw [dependenciesOf, Dict.getD_of_not_mem (by rwa [keys_items])] at hd
      cases hd
  · rintro ⟨step, hstep, rfl, hd⟩
    rwa [dependenciesOf_eq hids hstep]

theorem dependenciesOf_rel {steps : List StepDefinition} (hids : (steps.map (·.id)).Nodup) :
    (fun d v => d ∈ Dict.getD (steps.map (fun step => (step.id, step.dependsOn))) v []) =
      DependsOn steps := by
  funext d v
  exact propext (mem_dependenciesOf hids d v)

/-- `detect_cycles` accepts exactly the graphs without a cycle. -/
theorem detectCycles_iff {steps : List StepDefinition} (hids : (steps.map (·.id)).Nodup)
    (hsub : ∀ step ∈ steps, step.dependsOn ⊆ steps.map (·.id)) :
    detectCycles (buildDependencyGraph steps) = .ok () ↔
      ∀ v, ¬ Relation.TransGen (DependsOn steps) v v := by
  constructor
  · intro h v
    rcases listing_of_checks hids hsub h with ⟨l, hlisting, -, hall⟩
    have hedges : ∀ x, dependenciesOf steps x ≠ [] → x ∈ l := by
      intro x hx
      rcases List.exists_mem_of_ne_nil _ hx with ⟨d, hd⟩
      rcases (mem_dependenciesOf hids d x).mp hd with ⟨step, hstep, rfl, -⟩
      exact hall (List.mem_map.mpr ⟨step, hstep, rfl⟩)
    have hacyclic := hlisting.acyclic hedges v
    unfold dependenciesOf at hacyclic
    rwa [dependenciesOf_rel hids] at hacyclic
  · intro h
    rw [buildDependencyGraph_eq hids]
    refine detectCycles_of_acyclic (by rwa [keys_items]) (fun v => ?_)
    rw [dependenciesOf_rel hids]
    exact h v

/-- `validate_max_depth` accepts exactly the graphs whose chains are short, when
`detect_cycles` has accepted them. -/
theorem validateMaxDepth_iff {steps : List StepDefinition} (hids : (steps.map (·.id)).Nodup)
    (hsub : ∀ step ∈ steps, step.dependsOn ⊆ steps.map (·.id))
    (hcycles : detectCycles (buildDependencyGraph steps) = .ok ()) :
    validateMaxDepth (buildDependencyGraph steps) = .ok () ↔
      ∀ c : List String, c.IsChain (DependsOn steps) → c.length ≤ maxDepth := by
  rcases listing_of_checks hids hsub hcycles with ⟨l, hlisting, hl, hall⟩
  have hkeys := keys_items steps
  have hlongest := longestChain_lt_iff (by rwa [hkeys]) hlisting (by rwa [hkeys]) (by rwa [hkeys])
    (fun v => by rw [hkeys]; exact dependenciesOf_subset hids hsub v) maxDepth
  unfold Chain at hlongest
  rw [dependenciesOf_rel hids] at hlongest
  rw [buildDependencyGraph_eq hids, ← hlongest]
  unfold validateMaxDepth
  dsimp only
  split
  · rename_i hge
    exact ⟨fun h => (nomatch h), fun hlt => absurd hge (not_le.mpr hlt)⟩
  · rename_i hlt
    exact ⟨fun _ => not_le.mp hlt, fun _ => rfl⟩

/-- The checks on the decoded steps, all together. -/
theorem validateSteps_iff {libs : Libraries} {steps : List StepDefinition} :
    validateSteps libs steps = .ok () ↔
      (steps.map (·.id)).Nodup ∧ (∀ step ∈ steps, step.dependsOn ⊆ steps.map (·.id)) ∧
      (∀ v, ¬ Relation.TransGen (DependsOn steps) v v) ∧
      (∀ c : List String, c.IsChain (DependsOn steps) → c.length ≤ maxDepth) ∧
      validateJinja2Expressions libs steps = .ok () := by
  constructor
  · intro h
    rcases bind_eq_ok_iff.mp h with ⟨_, hunique, h⟩
    rcases bind_eq_ok_iff.mp h with ⟨_, -, h⟩
    rcases bind_eq_ok_iff.mp h with ⟨_, hdeps, h⟩
    rcases bind_eq_ok_iff.mp h with ⟨_, hcycles, h⟩
    rcases bind_eq_ok_iff.mp h with ⟨_, hdepth, htemplates⟩
    have hids := validateUniqueIds_iff.mp hunique
    have hsub := validateDependencies_iff.mp hdeps
    exact ⟨hids, hsub, (detectCycles_iff hids hsub).mp hcycles,
      (validateMaxDepth_iff hids hsub hcycles).mp hdepth, htemplates⟩
  · rintro ⟨hids, hsub, hacyclic, hchains, htemplates⟩
    have hcycles := (detectCycles_iff hids hsub).mpr hacyclic
    refine bind_eq_ok_iff.mpr ⟨(), validateUniqueIds_iff.mpr hids, ?_⟩
    refine bind_eq_ok_iff.mpr ⟨(), validateStepTypes_ok steps, ?_⟩
    refine bind_eq_ok_iff.mpr ⟨(), validateDependencies_iff.mpr hsub, ?_⟩
    refine bind_eq_ok_iff.mpr ⟨(), hcycles, ?_⟩
    exact bind_eq_ok_iff.mpr
      ⟨(), (validateMaxDepth_iff hids hsub hcycles).mpr hchains, htemplates⟩

/-- `parse_workflow_definition` returns exactly on the well-formed definitions,
and then it returns the decoded steps in the given order, with the dependencies
of each step under its id. -/
theorem parseWorkflowDefinition_iff (libs : Libraries) (settings : Settings) (raw : RawDefinition)
    (parsed : WorkflowDefinition) :
    parseWorkflowDefinition libs settings raw = .ok parsed ↔
      WellFormed libs settings raw.steps parsed.steps ∧
      parsed.name = raw.name ∧ parsed.triggerType = raw.triggerType ∧
      parsed.dependencyGraph = parsed.steps.map (fun step => (step.id, step.dependsOn)) := by
  constructor
  · intro h
    rcases bind_eq_ok_iff.mp h with ⟨_, hcount, h⟩
    rcases bind_eq_ok_iff.mp h with ⟨steps, hsteps, h⟩
    rcases bind_eq_ok_iff.mp h with ⟨_, hvalid, h⟩
    cases h
    rcases validateStepCount_iff.mp (mapError_eq_ok_iff.mp hcount) with ⟨hpos, hle⟩
    rcases validateSteps_iff.mp (mapError_eq_ok_iff.mp hvalid) with
      ⟨hids, hsub, hacyclic, hchains, htemplates⟩
    refine ⟨⟨hpos, hle, parseSteps_iff.mp hsteps, hids, ?_, hacyclic, hchains, htemplates⟩,
      rfl, rfl, buildDependencyGraph_eq hids⟩
    rintro d v ⟨step, hstep, -, hd⟩
    exact hsub step hstep hd
  · rintro ⟨hwf, hname, htype, hgraph⟩
    have hsub : ∀ step ∈ parsed.steps, step.dependsOn ⊆ parsed.steps.map (·.id) :=
      fun step hstep d hd => hwf.dependencies_exist d step.id ⟨step, hstep, rfl, hd⟩
    have hcount := validateStepCount_iff.mpr ⟨hwf.count_pos, hwf.count_le⟩
    have hvalid := validateSteps_iff.mpr
      ⟨hwf.ids_distinct, hsub, hwf.acyclic, hwf.chains_short, hwf.templates_valid⟩
    refine bind_eq_ok_iff.mpr ⟨(), mapError_eq_ok_iff.mpr hcount, ?_⟩
    refine bind_eq_ok_iff.mpr ⟨parsed.steps, parseSteps_iff.mpr hwf.decoded, ?_⟩
    refine bind_eq_ok_iff.mpr ⟨(), mapError_eq_ok_iff.mpr hvalid, ?_⟩
    rw [buildDependencyGraph_eq hwf.ids_distinct, ← hgraph, ← hname, ← htype]
    rfl

/-! ## The errors -/

/-- The error codes that the docstring of `parse_workflow_definition` lists. -/
def documentedCodes : List ErrorCode :=
  [.noSteps, .tooManySteps, .unknownStepType, .duplicateStepId, .invalidDependency,
    .cycleDetected, .maxDepthExceeded, .expressionError, .validationError]

/-- A check that fails with errors of these codes only. -/
def FailsWith (codes : List ErrorCode) (check : Except AppError Unit) : Prop :=
  ∀ e, check = .error e → e.code ∈ codes

namespace FailsWith

variable {codes : List ErrorCode}

theorem ok : FailsWith codes (.ok ()) := fun _ h => (nomatch h)

theorem error {e : AppError} (h : e.code ∈ codes) : FailsWith codes (.error e) := by
  rintro _ ⟨⟩
  exact h

theorem bind {check : Except AppError Unit} {rest : Unit → Except AppError Unit}
    (h : FailsWith codes check) (hrest : FailsWith codes (rest ())) :
    FailsWith codes (check >>= rest) := by
  cases check with
  | error e => exact fun e' he' => h e' he'
  | ok _ => exact hrest

theorem forM {α : Type} {l : List α} {check : α → Except AppError Unit}
    (h : ∀ a, FailsWith codes (check a)) : FailsWith codes (l.forM check) := by
  induction l with
  | nil => exact ok
  | cons a l ih => exact bind (h a) ih

theorem mono {codes' : List ErrorCode} {check : Except AppError Unit} (h : FailsWith codes check)
    (hsub : codes ⊆ codes') : FailsWith codes' check := fun e he => hsub (h e he)

end FailsWith

theorem validateStepCount_failsWith (settings : Settings) (raws : List Json) :
    FailsWith [.noSteps, .tooManySteps] (validateStepCount settings raws) := by
  unfold validateStepCount
  split
  · exact .error (by simp)
  · split
    · exact .error (by simp)
    · exact .ok

theorem validateUniqueIds_failsWith (steps : List StepDefinition) :
    FailsWith [.duplicateStepId] (validateUniqueIds steps) := by
  have hall : ∀ seen, FailsWith [.duplicateStepId] (validateUniqueFrom seen steps) := by
    induction steps with
    | nil => exact fun _ => .ok
    | cons step rest ih =>
      intro seen
      rw [validateUniqueFrom]
      split
      · exact .error (by simp)
      · exact ih _
  exact hall []

theorem validateDependencies_failsWith (steps : List StepDefinition) :
    FailsWith [.invalidDependency] (validateDependencies steps) := by
  refine .forM fun step => ?_
  unfold validateStepDependencies
  split
  · exact .error (by simp)
  · exact .ok

theorem detectCycles_failsWith (graph : Graph) :
    FailsWith [.cycleDetected] (detectCycles graph) := by
  have hall : ∀ (fuel : Nat) (nodes : List String) (st : DfsState),
      FailsWith [.cycleDetected] (detectFrom (childrenOf graph) fuel nodes st) := by
    intro fuel nodes
    induction nodes with
    | nil => exact fun _ => .ok
    | cons node rest ih =>
      intro st
      rw [detectFrom]
      split
      · split
        · exact .error (List.mem_singleton.mpr rfl)
        · exact ih _
      · exact ih _
  exact hall _ _ _

theorem validateMaxDepth_failsWith (graph : Graph) :
    FailsWith [.maxDepthExceeded] (validateMaxDepth graph) := by
  unfold validateMaxDepth
  dsimp only
  split
  · exact .error (by simp)
  · exact .ok

theorem checkText_failsWith (libs : Libraries) (stepId key value : String) :
    FailsWith [.expressionError] (checkText libs stepId key value) := by
  unfold checkText parseExpression
  split
  · split
    · exact .ok
    · exact .error (by simp)
  · exact .ok

mutual

theorem validateConfigExpressions_failsWith (libs : Libraries) (stepId : String) :
    (config : List (String × Json)) →
      FailsWith [.expressionError] (validateConfigExpressions libs stepId config)
  | [] => .ok
  | (key, value) :: rest => by
    rw [validateConfigExpressions]
    split
    · rename_i e hvalue
      exact .error (validateConfigValue_failsWith libs stepId key value e hvalue)
    · exact validateConfigExpressions_failsWith libs stepId rest

theorem validateConfigValue_failsWith (libs : Libraries) (stepId key : String) :
    (value : Json) → FailsWith [.expressionError] (validateConfigValue libs stepId key value)
  | .str value => checkText_failsWith libs stepId key value
  | .obj fields => validateConfigExpressions_failsWith libs stepId fields
  | .arr items => by
    refine .forM fun item => ?_
    split
    · exact checkText_failsWith libs stepId key _
    · exact .ok
  | .null => .ok
  | .bool _ => .ok
  | .int _ => .ok
  | .float _ _ => .ok

end

/-- The checks on the decoded steps fail in the documented way. -/
theorem validateSteps_failsWith (libs : Libraries) (steps : List StepDefinition) :
    FailsWith documentedCodes (validateSteps libs steps) := by
  refine .bind ((validateUniqueIds_failsWith steps).mono (by decide)) ?_
  rw [validateStepTypes_ok]
  refine .bind .ok ?_
  refine .bind ((validateDependencies_failsWith steps).mono (by decide)) ?_
  refine .bind ((detectCycles_failsWith _).mono (by decide)) ?_
  refine .bind ((validateMaxDepth_failsWith _).mono (by decide)) ?_
  have htemplates : FailsWith [.expressionError] (validateJinja2Expressions libs steps) :=
    .forM fun step => validateConfigExpressions_failsWith libs step.id step.config
  exact htemplates.mono (by decide)

/-- `_parse_steps` fails at the first step object that Pydantic refuses. -/
theorem parseStepsFrom_eq_error_iff {libs : Libraries} {raws : List Json} {index : Nat}
    {e : PyError} :
    parseStepsFrom libs index raws = .error e ↔
      ∃ pre raw post failure, raws = pre ++ raw :: post ∧
        (∀ r ∈ pre, ∃ step, libs.decodeStep r = .ok step) ∧
        libs.decodeStep raw = .error failure ∧ stepError raw (index + pre.length) failure = e := by
  induction raws generalizing index with
  | nil => simp [parseStepsFrom]
  | cons first rest ih =>
    rw [parseStepsFrom]
    constructor
    · intro h
      split at h
      · rename_i failure hfirst
        cases h
        exact ⟨[], first, rest, failure, rfl, by simp, hfirst, rfl⟩
      · rename_i step hfirst
        split at h
        · rename_i hrest
          cases h
          rcases ih.mp hrest with ⟨pre, raw, post, failure, rfl, hpre, hraw, heq⟩
          refine ⟨first :: pre, raw, post, failure, rfl, ?_, hraw, ?_⟩
          · exact List.forall_mem_cons.mpr ⟨⟨step, hfirst⟩, hpre⟩
          · have hindex : index + (pre.length + 1) = index + 1 + pre.length := by omega
            rw [← heq, List.length_cons, hindex]
        · cases h
    · rintro ⟨pre, raw, post, failure, heq, hpre, hraw, herror⟩
      cases pre with
      | nil =>
        cases heq
        rw [hraw]
        exact congrArg Except.error herror
      | cons first' pre =>
        cases heq
        rcases List.forall_mem_cons.mp hpre with ⟨⟨step, hfirst⟩, hpre⟩
        have hindex : index + (pre.length + 1) = index + 1 + pre.length := by omega
        rw [List.length_cons, hindex] at herror
        rw [hfirst, ih.mpr ⟨pre, raw, post, failure, rfl, hpre, hraw, herror⟩]

/-- A list or an object with something in it: it is true, and has no hash. -/
def Unhashable : Json → Prop
  | .arr items => items ≠ []
  | .obj fields => fields ≠ []
  | _ => False

/-- The handler of `_parse_steps` raises a documented `AppError`, unless the type
of the step has no hash. -/
theorem stepError_app {raw : Json} {index : Nat} {failure : DecodeFailure}
    (h : ∀ text, failure = .validationError text → ¬ Unhashable (rawStepType raw)) :
    ∃ error, stepError raw index failure = .app error ∧ error.code ∈ documentedCodes := by
  cases failure with
  | typeError text => exact ⟨_, rfl, by simp [documentedCodes]⟩
  | validationError text =>
    have hhashable := h text rfl
    rw [stepError]
    cases htype : rawStepType raw with
    | arr items =>
      rw [htype] at hhashable
      obtain rfl : items = [] := not_not.mp hhashable
      exact ⟨_, rfl, by simp [documentedCodes]⟩
    | obj fields =>
      rw [htype] at hhashable
      obtain rfl : fields = [] := not_not.mp hhashable
      exact ⟨_, rfl, by simp [documentedCodes]⟩
    | _ =>
      dsimp only
      split
      · split <;> exact ⟨_, rfl, by simp [documentedCodes]⟩
      · exact ⟨_, rfl, by simp [documentedCodes]⟩

theorem stepError_other {raw : Json} (h : Unhashable (rawStepType raw)) (index : Nat)
    (text : String) :
    ∃ cls message, stepError raw index (.validationError text) = .other cls message := by
  rw [stepError]
  cases htype : rawStepType raw with
  | arr items =>
    rw [htype] at h
    rcases List.exists_cons_of_ne_nil h with ⟨item, items, rfl⟩
    exact ⟨_, _, rfl⟩
  | obj fields =>
    rw [htype] at h
    rcases List.exists_cons_of_ne_nil h with ⟨field, fields, rfl⟩
    exact ⟨_, _, rfl⟩
  | _ =>
    rw [htype] at h
    exact absurd h id

/-- The first step object that Pydantic refuses is refused by validation and has
a type without a hash. -/
def UnhashableTypeFirst (libs : Libraries) (rawSteps : List Json) : Prop :=
  ∃ pre raw post text, rawSteps = pre ++ raw :: post ∧
    (∀ r ∈ pre, ∃ step, libs.decodeStep r = .ok step) ∧
    libs.decodeStep raw = .error (.validationError text) ∧ Unhashable (rawStepType raw)

/-- `_parse_steps` fails in the documented way, unless a type has no hash. -/
theorem parseSteps_error {libs : Libraries} {raws : List Json} {e : PyError}
    (hsteps : parseSteps libs raws = .error e) (h : ¬ UnhashableTypeFirst libs raws) :
    ∃ error, e = .app error ∧ error.code ∈ documentedCodes := by
  rcases parseStepsFrom_eq_error_iff.mp hsteps with
    ⟨pre, raw, post, failure, hraws, hpre, hraw, rfl⟩
  refine stepError_app fun text htext hunhashable => h ?_
  exact ⟨pre, raw, post, text, hraws, hpre, htext ▸ hraw, hunhashable⟩

theorem parseSteps_unhashable {libs : Libraries} {raws : List Json}
    (h : UnhashableTypeFirst libs raws) :
    ∃ cls message, parseSteps libs raws = .error (.other cls message) := by
  rcases h with ⟨pre, raw, post, text, hraws, hpre, hraw, hunhashable⟩
  rcases stepError_other hunhashable (0 + pre.length) text with ⟨cls, message, hother⟩
  exact ⟨cls, message,
    parseStepsFrom_eq_error_iff.mpr ⟨pre, raw, post, _, hraws, hpre, hraw, hother⟩⟩

/-- `parse_workflow_definition` returns, or raises a documented `AppError`. -/
def FailsAsDocumented (libs : Libraries) (settings : Settings) (raw : RawDefinition) : Prop :=
  (∃ parsed, parseWorkflowDefinition libs settings raw = .ok parsed) ∨
    ∃ error, parseWorkflowDefinition libs settings raw = .error (.app error) ∧
      error.code ∈ documentedCodes

/-- It does, unless the step count is within the bounds and the type of the first
refused step is a list or an object that is not empty. -/
theorem failsAsDocumented_iff (libs : Libraries) (settings : Settings) (raw : RawDefinition) :
    FailsAsDocumented libs settings raw ↔
      ¬ (1 ≤ raw.steps.length ∧ raw.steps.length ≤ settings.maxStepsPerWorkflow ∧
        UnhashableTypeFirst libs raw.steps) := by
  unfold FailsAsDocumented parseWorkflowDefinition
  cases hcount : validateStepCount settings raw.steps with
  | error e =>
    have hcode := (validateStepCount_failsWith settings raw.steps) e hcount
    refine iff_of_true (.inr ⟨e, rfl, ?_⟩) ?_
    · have hsub : [ErrorCode.noSteps, .tooManySteps] ⊆ documentedCodes := by decide
      exact hsub hcode
    · rintro ⟨hpos, hle, -⟩
      rw [validateStepCount_iff.mpr ⟨hpos, hle⟩] at hcount
      cases hcount
  | ok _ =>
    have hbounds := validateStepCount_iff.mp hcount
    by_cases hfirst : UnhashableTypeFirst libs raw.steps
    · rcases parseSteps_unhashable hfirst with ⟨cls, message, hother⟩
      refine iff_of_false ?_ (not_not_intro ⟨hbounds.1, hbounds.2, hfirst⟩)
      rw [hother]
      rintro (⟨_, h⟩ | ⟨_, h, -⟩) <;> cases h
    · refine iff_of_true ?_ (fun h => hfirst h.2.2)
      cases hsteps : parseSteps libs raw.steps with
      | error e =>
        rcases parseSteps_error hsteps hfirst with ⟨error, rfl, hcode⟩
        exact .inr ⟨error, rfl, hcode⟩
      | ok steps =>
        show (∃ parsed, ((validateSteps libs steps).mapError PyError.app >>= _) = .ok parsed) ∨
          ∃ error, ((validateSteps libs steps).mapError PyError.app >>= _) = .error (.app error) ∧ _
        cases hvalid : validateSteps libs steps with
        | error e => exact .inr ⟨e, rfl, validateSteps_failsWith libs steps e hvalid⟩
        | ok _ => exact .inl ⟨_, rfl⟩

/-- A step whose type is a list of one type. -/
theorem not_failsAsDocumented :
    ¬ FailsAsDocumented plainLibraries {}
      ⟨"workflow", "manual", [.obj [("id", .str "a"), ("type", .arr [.str "http"])]]⟩ := by
  rintro (⟨_, h⟩ | ⟨_, h, -⟩) <;> cases h

end WorkflowEngine
