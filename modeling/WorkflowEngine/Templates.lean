import WorkflowEngine.Notes
import WorkflowEngine.Plain

/-!
# What a template can observe

`_execute_step_with_retry` hands an executor the `steps` and the `trigger` of
the context, and beside them the session, the depth and the tenant id for
`sub_workflow` steps.  All of them are variables of every template that the
executor renders.

`Blind` says of a template that the sandbox renders it alike whatever the three
engine values are.  The inputs that a run of `_execute_step_with_retry` can
hand out are found from what the run notes (`WorkflowEngine.Notes`).
-/

namespace WorkflowEngine

open Py Orm Interact

/-! ## The inputs of one step -/

/-- The event is an invocation of `step`, whose input is made from the context
of the execution that the session saw. -/
def MadeFor (session : SessionRef) (id : Uuid) (step : StepDefinition) : Event → Prop
  | .started _ _ => False
  | .invoked inv => inv.call.step = step ∧ ∃ e, inv.view (.execution id) = some e ∧
      inv.call.input = stepInput session e.context

section

variable (session : SessionRef) {id : Uuid} (step : StepDefinition) (sid : Uuid)

/-- An attempt notes its invocation first, with an input that is made from the
row which the refresh has read. -/
theorem later_attemptStep {w : World} {e : Execution}
    (hview : w.db.view (.execution id) = some e) :
    ∃ new, w.env.Later (.invoked ⟨⟨id, step.id⟩, ⟨step, stepInput session e.context⟩, w.db.view,
        w.db.committed⟩ :: new) ((attemptStep performer session id step sid).run w).2.env ∧
      ∀ event ∈ new, MadeFor session id step event := by
  have hrefresh : (refreshExecution id).run w =
      (.ok (some e), { w with db := w.db.load (.execution id) e .nothing }) := by
    show (Except.ok (DbState.answer (.refresh (.execution id)) w.db).1, _) = _
    simp only [World.answer, DbState.answer_refresh hview]
    rfl
  unfold attemptStep
  rw [Prog.run_bind_ok hrefresh]
  let inv : Invocation := ⟨⟨id, step.id⟩, ⟨step, stepInput session e.context⟩, w.db.view,
    w.db.committed⟩
  let noted : Environment := { w.env with events := w.env.events ++ [.invoked inv] }
  have hnoted : w.env.Later [.invoked inv] noted := ⟨rfl, rfl, rfl, rfl⟩
  -- nothing that follows is an invocation
  have htail : Notes (.each (MadeFor session id step)) (do
      let output ← performer ⟨id, step.id⟩ step (stepInput session e.context)
      let _ ← transitionStep sid .completed none
      let _ ← assignStep sid (fun row => { row with outputData := some output })
      mergeStepOutput id step.id output) := by
    apply notes_bind (notes_performer _ _ _)
    intro output
    apply notes_bind (notes_transitionStep _ _ _)
    intro _
    exact notes_bind (notes_db _) fun _ => notes_mergeStepOutput _ _ _
  obtain ⟨new, hlater, hnew⟩ := htail ⟨w.db.load (.execution id) e .nothing, noted⟩
  exact ⟨new, hnoted.trans hlater, hnew⟩

theorem notes_attemptStep :
    Notes (.each (MadeFor session id step)) (attemptStep performer session id step sid) := by
  intro w
  cases hview : w.db.view (.execution id) with
  | none =>
    have hrefresh : (refreshExecution id).run w = (.ok none, w) := by
      show (Except.ok (DbState.answer (.refresh (.execution id)) w.db).1, _) = _
      simp [World.answer, DbState.answer, hview]
    unfold attemptStep
    rw [Prog.run_bind_ok hrefresh]
    exact ⟨[], Environment.Later.refl _, NoteRule.nil _⟩
  | some e =>
    obtain ⟨new, hlater, hnew⟩ := later_attemptStep session step sid hview
    refine ⟨_, hlater, ?_⟩
    intro event hevent
    rcases List.mem_cons.mp hevent with rfl | h
    · exact ⟨rfl, e, hview, rfl⟩
    · exact hnew event h

/-- What follows an attempt in the loop. -/
theorem notes_afterAttempt {R : NoteRule} {maxAttempts remaining attempts : Nat}
    (h : Notes R (retryLoop performer session id step sid maxAttempts remaining attempts))
    (result : Except Raised Unit) :
    Notes R (match result with
      | .ok _ => return true
      | .error .outOfFuel => Script.raise .outOfFuel
      | .error (.exception exc) => do
        let _ ← transitionStep sid .failed (some exc.str)
        if attempts ≥ maxAttempts then return false
        else retryLoop performer session id step sid maxAttempts remaining attempts) := by
  cases result with
  | ok _ => exact notes_pure _
  | error raised =>
    cases raised with
    | outOfFuel => exact notes_raise _
    | exception exc =>
      apply notes_bind (notes_transitionStep _ _ _)
      intro _
      exact notes_ite (notes_pure _) h

theorem notes_retryLoop (maxAttempts remaining attempts : Nat) :
    Notes (.each (MadeFor session id step))
      (retryLoop performer session id step sid maxAttempts remaining attempts) := by
  induction remaining generalizing attempts with
  | zero => exact notes_pure _
  | succ remaining ih =>
    unfold retryLoop
    apply notes_bind (notes_db _)
    intro found
    apply notes_bind (notes_mapped _)
    intro stepExec
    have hattempts := notes_bind (R := .each (MadeFor session id step))
      (notes_transitionStep sid .running none) fun _ =>
        notes_bind (notes_attempt (notes_attemptStep session step sid))
          (notes_afterAttempt session step sid (ih (attempts + 1)))
    exact notes_ite (notes_bind (notes_transitionStep _ _ _) fun _ => hattempts) hattempts

/-- Every invocation of `_execute_step_with_retry` has such an input. -/
theorem notes_executeStepWithRetry :
    Notes (.each (MadeFor session id step)) (executeStepWithRetry performer session id step sid) := by
  unfold executeStepWithRetry
  apply notes_bind
  · unfold readStep
    exact notes_bind (notes_db _) fun _ => notes_mapped _
  · exact fun stepExec => notes_retryLoop session step sid _ _ _

end

/-! ## The templates of a config -/

/-- The strings of a config that an executor renders. -/
def templates (config : Dict String Json) : List String :=
  ["expression", "url", "body"].filterMap (fun key => (Dict.get? config key).bind Json.asStr?) ++
    match Dict.get? config "headers" with
    | some (.obj fields) => fields.filterMap (fun field => field.2.asStr?)
    | _ => []

/-- The three executors render the same strings on both inputs, or fail
alike. -/
structure RendersAlike (libs : Libraries) (config : Dict String Json) (vars vars' : Vars) :
    Prop where
  transform : TransformExecutor.execute libs config vars =
    TransformExecutor.execute libs config vars'
  condition : ConditionExecutor.resultStr libs config vars =
    ConditionExecutor.resultStr libs config vars'
  http : HttpExecutor.request libs httpStepTimeout config vars =
    HttpExecutor.request libs httpStepTimeout config vars'

/-- Executors that render alike are the same program. -/
theorem RendersAlike.stepRegistry_eq {libs : Libraries} {config : Dict String Json}
    {vars vars' : Vars} (h : RendersAlike libs config vars vars') (settings : Settings)
    (start : Start) (caller : Caller) {type : StepType}
    (htype : type ∈ [StepType.transform, .condition, .http]) :
    stepRegistry libs settings start caller type config vars =
      stepRegistry libs settings start caller type config vars' := by
  simp only [List.mem_cons, List.not_mem_nil, or_false] at htype
  rcases htype with rfl | rfl | rfl
  · show liftExcept (TransformExecutor.execute libs config vars) = _
    rw [h.transform]
    rfl
  · show liftExcept (ConditionExecutor.execute libs config vars) = _
    unfold ConditionExecutor.execute
    rw [h.condition]
    rfl
  · show HttpExecutor.execute libs config vars = _
    unfold HttpExecutor.execute
    rw [h.http]
    rfl

/-- The input of an executor, with every engine value in it. -/
def inputVars (steps trigger : Json) (session : SessionRef) (depth tenantId : Json) : Vars :=
  [("steps", .json steps), ("trigger", .json trigger), ("_session", .session session),
    ("_depth", .json depth), ("_tenant_id", .json tenantId)]

/-- The sandbox renders the template alike whatever the engine values are.  The
empty template is never rendered. -/
def Blind (libs : Libraries) (template : String) : Prop :=
  template = "" ∨ ∀ steps trigger session depth tenantId session' depth' tenantId',
    libs.render template (inputVars steps trigger session depth tenantId) =
      libs.render template (inputVars steps trigger session' depth' tenantId')

/-- Where the sandbox looks up only names that occur in the text, a template
that mentions none of the engine's names is blind. -/
theorem blind_of_not_mentioned {libs : Libraries} {template : String}
    (hlookup : ∀ vars vars' : Vars, (∀ name, containsText name template = true →
      Dict.get? vars name = Dict.get? vars' name) →
      libs.render template vars = libs.render template vars')
    (hnames : ∀ name ∈ ["_session", "_depth", "_tenant_id"],
      containsText name template = false) : Blind libs template := by
  right
  intro steps trigger session depth tenantId session' depth' tenantId'
  apply hlookup
  intro name hmentioned
  have hne : ∀ other ∈ ["_session", "_depth", "_tenant_id"], other ≠ name := by
    intro other hother heq
    rw [heq] at hother
    rw [hnames name hother] at hmentioned
    cases hmentioned
  unfold inputVars
  simp only [Dict.get?_cons, if_neg (hne "_session" (by simp)), if_neg (hne "_depth" (by simp)),
    if_neg (hne "_tenant_id" (by simp))]

theorem stepInput_eq (session : SessionRef) (context : Dict String Json) :
    stepInput session context = inputVars (Dict.getD context "steps" (.obj []))
      (Dict.getD context "trigger" (.obj [])) session (Dict.getD context "_depth" (.int 0))
      (Dict.getD context "_tenant_id" (.str "")) := rfl

section

variable {libs : Libraries} {steps trigger depth depth' tenantId tenantId' : Json}
  {session session' : SessionRef}

theorem evaluateExpression_of_blind {template : Json}
    (h : ∀ text, template = .str text → Blind libs text) :
    evaluateExpression libs template (inputVars steps trigger session depth tenantId) =
      evaluateExpression libs template (inputVars steps trigger session' depth' tenantId') := by
  unfold evaluateExpression
  split
  · rename_i htruthy
    split
    · rename_i text
      rcases h text rfl with hempty | hblind
      · simp [hempty, Json.truthy] at htruthy
      · rw [hblind steps trigger session depth tenantId session' depth' tenantId']
    · rfl
  · rfl

/-- A string under one of these keys is a template of the config. -/
theorem mem_templates_of_get? {config : Dict String Json} {key text : String} {value : Json}
    (hkey : key ∈ ["expression", "url", "body"]) (hget : Dict.get? config key = some value)
    (htext : value = .str text) : text ∈ templates config := by
  apply List.mem_append_left
  refine List.mem_filterMap.mpr ⟨key, hkey, ?_⟩
  rw [hget, htext]
  rfl

theorem mem_templates_of_header {config : Dict String Json} {fields : List (String × Json)}
    {name text : String} (hheaders : Dict.get? config "headers" = some (.obj fields))
    (hmem : (name, .str text) ∈ fields) : text ∈ templates config := by
  apply List.mem_append_right
  rw [hheaders]
  exact List.mem_filterMap.mpr ⟨_, hmem, rfl⟩

/-- The same for a key that the config may lack. -/
theorem evaluateExpression_getD {config : Dict String Json}
    (h : ∀ text ∈ templates config, Blind libs text) {key : String}
    (hkey : key ∈ ["expression", "url", "body"]) {default : Json}
    (hdefault : ∀ text, default ≠ .str text) :
    evaluateExpression libs (Dict.getD config key default)
        (inputVars steps trigger session depth tenantId) =
      evaluateExpression libs (Dict.getD config key default)
        (inputVars steps trigger session' depth' tenantId') := by
  apply evaluateExpression_of_blind
  intro text htext
  unfold Dict.getD at htext
  cases hget : Dict.get? config key with
  | none =>
    rw [hget] at htext
    exact absurd htext (hdefault text)
  | some value =>
    rw [hget] at htext
    exact h text (mem_templates_of_get? hkey hget htext)

theorem renderHeaderFields_of_blind {fields : List (String × Json)}
    (h : ∀ name text, (name, Json.str text) ∈ fields → Blind libs text) :
    renderHeaderFields libs (inputVars steps trigger session depth tenantId) fields =
      renderHeaderFields libs (inputVars steps trigger session' depth' tenantId') fields := by
  induction fields with
  | nil => rfl
  | cons field fields ih =>
    obtain ⟨name, value⟩ := field
    have hvalue : evaluateExpression libs value
        (inputVars steps trigger session depth tenantId) =
        evaluateExpression libs value (inputVars steps trigger session' depth' tenantId') :=
      evaluateExpression_of_blind fun text htext => h name text (by simp [htext])
    unfold renderHeaderFields
    rw [hvalue, ih fun name' text hmem => h name' text (List.mem_cons_of_mem _ hmem)]

theorem renderHeaders_of_templates {config : Dict String Json}
    (h : ∀ text ∈ templates config, Blind libs text) :
    renderHeaders libs (Dict.getD config "headers" (.obj []))
        (inputVars steps trigger session depth tenantId) =
      renderHeaders libs (Dict.getD config "headers" (.obj []))
        (inputVars steps trigger session' depth' tenantId') := by
  cases hget : Dict.get? config "headers" with
  | none => simp [Dict.getD, hget, renderHeaders, Json.truthy]
  | some value =>
    have hvalue : Dict.getD config "headers" (.obj []) = value := by simp [Dict.getD, hget]
    rw [hvalue]
    unfold renderHeaders
    split
    · split
      · rename_i fields
        exact renderHeaderFields_of_blind fun name text hmem =>
          h text (mem_templates_of_header hget hmem)
      · rfl
    · rfl

/-- A step whose templates are blind renders alike on inputs with the same
steps and the same trigger. -/
theorem rendersAlike_of_blind {config : Dict String Json}
    (h : ∀ text ∈ templates config, Blind libs text) :
    RendersAlike libs config (inputVars steps trigger session depth tenantId)
      (inputVars steps trigger session' depth' tenantId') := by
  have hexpression : ∀ {value : Json}, Dict.get? config "expression" = some value →
      evaluateExpression libs value (inputVars steps trigger session depth tenantId) =
        evaluateExpression libs value (inputVars steps trigger session' depth' tenantId') := by
    intro value hget
    exact evaluateExpression_of_blind fun text htext =>
      h text (mem_templates_of_get? (by simp) hget htext)
  refine ⟨?_, ?_, ?_⟩
  · unfold TransformExecutor.execute
    split
    · rfl
    · rename_i value hget
      rw [hexpression hget]
  · unfold ConditionExecutor.resultStr
    split
    · rfl
    · rename_i value hget
      rw [hexpression hget]
  · have hfield : ∀ key ∈ ["expression", "url", "body"],
        evaluateExpression libs (Dict.getD config key .null)
            (inputVars steps trigger session depth tenantId) =
          evaluateExpression libs (Dict.getD config key .null)
            (inputVars steps trigger session' depth' tenantId') := by
      intro key hkey
      exact evaluateExpression_getD h hkey (by simp)
    have hheaders : renderHeaders libs (Dict.getD config "headers" (.obj []))
          (inputVars steps trigger session depth tenantId) =
        renderHeaders libs (Dict.getD config "headers" (.obj []))
          (inputVars steps trigger session' depth' tenantId') := renderHeaders_of_templates h
    unfold HttpExecutor.request renderBody
    simp only [hfield "url" (by simp), hfield "body" (by simp), hheaders]

end

/-! ## The calls of `_execute_step_with_retry` -/

/-- In some run, `_execute_step_with_retry` makes this call for `step` while
the execution has the context `ctx`. -/
def Calls (session : SessionRef) (step : StepDefinition) (ctx : Dict String Json)
    (call : ExecutorCall) : Prop :=
  ∃ id sid w inv,
    Invokes w ((executeStepWithRetry performer session id step sid).run w).2 inv ∧
      inv.call = call ∧ ∃ e, inv.view (.execution id) = some e ∧ e.context = ctx

theorem Calls.eq {session : SessionRef} {step : StepDefinition} {ctx : Dict String Json}
    {call : ExecutorCall} (h : Calls session step ctx call) :
    call = ⟨step, stepInput session ctx⟩ := by
  obtain ⟨id, sid, w, inv, hinvokes, rfl, e, hview, rfl⟩ := h
  obtain ⟨new, hlater, hnew⟩ := notes_executeStepWithRetry session step sid w
  unfold Invokes at hinvokes
  rw [hlater.since_eq] at hinvokes
  obtain ⟨hstep, e', hview', hinput⟩ := hnew _ hinvokes
  rw [hview] at hview'
  obtain rfl := Option.some.inj hview'
  cases hcall : inv.call with
  | mk step' input =>
    rw [hcall] at hstep hinput
    rw [← hstep, ← hinput]

/-- An execution with a given context. -/
def executionWith (ctx : Dict String Json) : Execution :=
  { newExecution 1 1 [] none with status := .running, context := ctx }

/-- A session on an execution with a given context and one queued step, whose
executor fails. -/
def worldWith (ctx : Dict String Json) (step : StepDefinition) : World :=
  let row := { newStepExecution 1 1 step with status := .queued, maxAttempts := 1 }
  let db : Db := ⟨Rows.ofList [⟨.execution 1, executionWith ctx⟩, ⟨.step 2, row⟩], Session.fresh⟩
  ⟨db.load (.step 2) row (), plainEnvironment (fun _ _ => .error (.other "Error" "failed"))⟩

private theorem invokes_bind_ok {α β : Type} {m : Prog α} {f : α → Prog β} {w w' : World} {a : α}
    {inv : Invocation} (h : m.run w = (.ok a, w')) (hevents : w'.env.events = w.env.events)
    (hinvokes : Invokes w' ((f a).run w').2 inv) : Invokes w ((m >>= f).run w).2 inv := by
  rw [Prog.run_bind_ok h]
  unfold Invokes Environment.since at hinvokes ⊢
  rw [← hevents]
  exact hinvokes

/-- `_execute_step_with_retry` makes the call with the input of any session and
any context. -/
theorem calls_stepInput (session : SessionRef) (step : StepDefinition) (ctx : Dict String Json) :
    Calls session step ctx ⟨step, stepInput session ctx⟩ := by
  let w := worldWith ctx step
  let row : StepExecution :=
    { newStepExecution 1 1 step with status := .queued, maxAttempts := 1 }
  have hread : (readStep 2).run w = (.ok row, w) := rfl
  let assigned := (assignStep 2 (fun row => { row with attempt := 1 })).run w
  have hassign : (assignStep 2 (fun row => { row with attempt := 1 })).run w =
    (.ok (some row), assigned.2) := rfl
  let running := (transitionStep 2 .running none).run assigned.2
  have hrunning : (transitionStep 2 .running none).run assigned.2 =
    (.ok { row with status := .running, startedAt := some 0 }, running.2) := rfl
  have hview : running.2.db.view (.execution 1) = some (executionWith ctx) := rfl
  have hevents : assigned.2.env.events = w.env.events := rfl
  have hevents' : running.2.env.events = assigned.2.env.events := rfl
  clear_value running assigned
  let inv : Invocation := ⟨⟨1, step.id⟩, ⟨step, stepInput session ctx⟩, running.2.db.view,
    running.2.db.committed⟩
  refine ⟨1, 2, w, inv, ?_, rfl, executionWith ctx, hview, rfl⟩
  unfold executeStepWithRetry
  apply invokes_bind_ok hread rfl
  show Invokes w ((retryLoop performer session 1 step 2 1 1 0).run w).2 inv
  unfold retryLoop
  apply invokes_bind_ok hassign hevents
  apply invokes_bind_ok (show (mapped (some row)).run assigned.2 = (.ok row, assigned.2) from rfl) rfl
  apply invokes_bind_ok hrunning hevents'
  obtain ⟨new, hlater, -⟩ := later_attemptStep session step 2 hview
  rcases hattempt : (attemptStep performer session 1 step 2).run running.2 with ⟨result, w'⟩
  have hcaught : Prog.run (Script.attempt (attemptStep performer session 1 step 2) :
      Prog (Except Raised Unit)) running.2 = (.ok result, w') := by
    rw [Prog.run_attempt, hattempt]
  rw [hattempt] at hlater
  have hrest : Notes (.each (MadeFor session 1 step)) (retryLoop performer session 1 step 2 1 0 (0 + 1)) :=
    notes_retryLoop session step 2 1 0 (0 + 1)
  obtain ⟨new', hlater', -⟩ := notes_afterAttempt session step 2 hrest result w'
  have hsince := (hlater.trans hlater').since_eq
  unfold Invokes
  rw [Prog.run_bind_ok hcaught]
  exact hsince.symm ▸ List.mem_cons_self

/-! ## Templates that see only data -/

/-- Two calls for steps whose only template is `template`, over contexts with
the same steps and the same trigger, render alike. -/
def SeesOnlyData (libs : Libraries) (template : String) : Prop :=
  ∀ config, (∀ text ∈ templates config, text = template) →
    ∀ step step' : StepDefinition, step.config = config → step'.config = config →
      ∀ session session' ctx ctx' call call', Calls session step ctx call →
        Calls session' step' ctx' call' →
        Dict.get? ctx "steps" = Dict.get? ctx' "steps" →
        Dict.get? ctx "trigger" = Dict.get? ctx' "trigger" →
          RendersAlike libs config call.input call'.input

/-- The four exceptions of rendering are told apart by their message. -/
theorem renderError_injective {failure failure' : RenderFailure}
    (h : renderError failure = renderError failure') : failure = failure' := by
  have hmessage := congrArg (fun e => e.str.toList) h
  cases failure <;> cases failure' <;>
    simp [renderError, expressionError, PyError.str] at hmessage ⊢ <;>
    exact String.toList_inj.mp hmessage

section

variable {libs : Libraries} {template : String}

/-- A transform step whose only template is `template`. -/
private def transformStep (template : String) : StepDefinition :=
  plainStep "observe" .transform [("expression", .str template)] [] (by decide)

/-- The transform executor hands out what the sandbox says. -/
theorem transform_expression (h : template ≠ "") (vars : Vars) :
    TransformExecutor.execute libs [("expression", .str template)] vars =
      ((libs.render template vars).mapError renderError).map
        (fun text => [("result", .str text)]) := by
  have hrender : evaluateExpression libs (.str template) vars =
      (libs.render template vars).mapError renderError := by
    simp [evaluateExpression, Json.truthy, h]
  have hpreview : preview (.str template) = .ok () := by
    simp [preview]
  unfold TransformExecutor.execute
  simp only [Dict.get?, if_true, hpreview, hrender]
  cases (libs.render template vars).mapError renderError <;> rfl

private theorem blind_of_seesOnlyData (h : SeesOnlyData libs template) : Blind libs template := by
  by_cases hempty : template = ""
  · exact .inl hempty
  · right
    intro steps trigger session depth tenantId session' depth' tenantId'
    let ctx (depth tenantId : Json) : Dict String Json :=
      [("steps", steps), ("trigger", trigger), ("_depth", depth), ("_tenant_id", tenantId)]
    have hrenders := h [("expression", .str template)] (by simp [templates, Dict.get?, Json.asStr?])
      (transformStep template) (transformStep template) rfl rfl session session'
      (ctx depth tenantId) (ctx depth' tenantId') _ _ (calls_stepInput session _ _)
      (calls_stepInput session' _ _) rfl rfl
    have htransform := hrenders.transform
    rw [transform_expression hempty, transform_expression hempty] at htransform
    show libs.render template (stepInput session (ctx depth tenantId)) =
      libs.render template (stepInput session' (ctx depth' tenantId'))
    cases hleft : libs.render template (stepInput session (ctx depth tenantId)) with
    | ok text =>
      cases hright : libs.render template (stepInput session' (ctx depth' tenantId')) with
      | ok text' => simpa [hleft, hright, Except.mapError, Except.map] using htransform
      | error failure' => simp [hleft, hright, Except.mapError, Except.map] at htransform
    | error failure =>
      cases hright : libs.render template (stepInput session' (ctx depth' tenantId')) with
      | ok text' => simp [hleft, hright, Except.mapError, Except.map] at htransform
      | error failure' =>
        simp [hleft, hright, Except.mapError, Except.map] at htransform
        rw [renderError_injective htransform]

end

/-- The templates that see only data are those that the sandbox renders alike
whatever the engine values are. -/
theorem seesOnlyData_iff (libs : Libraries) (template : String) :
    SeesOnlyData libs template ↔ Blind libs template := by
  constructor
  · exact blind_of_seesOnlyData
  · intro h config htemplates step step' hstep hstep' session session' ctx ctx' call call' hcall
      hcall' hsteps htrigger
    rw [hcall.eq, hcall'.eq]
    show RendersAlike libs config (stepInput session ctx) (stepInput session' ctx')
    rw [stepInput_eq, stepInput_eq]
    unfold Dict.getD
    rw [hsteps, htrigger]
    apply rendersAlike_of_blind
    intro text htext
    rw [htemplates text htext]
    exact h

/-- The variable `_session` in double braces: two runs whose contexts are the
same, in different sessions, render it differently. -/
theorem not_seesOnlyData_session :
    ¬ SeesOnlyData plainLibraries "\x7b\x7b _session \x7d\x7d" := by
  intro h
  let step := transformStep "\x7b\x7b _session \x7d\x7d"
  let ctx : Dict String Json := [("trigger", .obj []), ("steps", .obj [])]
  have hrenders := h step.config (by simp [step, transformStep, plainStep, templates, Dict.get?,
    Json.asStr?]) step step rfl rfl 0 1 ctx ctx _ _ (calls_stepInput 0 step ctx)
    (calls_stepInput 1 step ctx) rfl rfl
  have hsame : (Except.ok [("result", .str (Val.session 0).text)] :
      Except PyError (Dict String Json)) = .ok [("result", .str (Val.session 1).text)] := hrenders.transform
  have htext : (Val.session 0).text = (Val.session 1).text := by simpa using hsame
  exact absurd htext (by decide +kernel)

end WorkflowEngine
