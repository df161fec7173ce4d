import WorkflowEngine.Orchestrator
import WorkflowEngine.Validation

/-!
# What is taken for a template

Three places decide what a template is: the check of a definition parses a string
that contains a double brace or a brace with a percent sign, the executors render
the strings of their configs whatever they contain, and `_build_trigger_data`
renders a string of the mapping if it contains a double brace.

`handed` lists the strings of a config that its executor hands to
`evaluate_expression`; `stepRegistry_congr` says that the executor sees the
sandbox on no other ones.  `templatesAgree_iff` is what the three places agree on.
-/

namespace WorkflowEngine

open Py Orm Interact

/-- The string under a key of a config. -/
def textAt (config : Dict String Json) (key : String) : List String :=
  ((Dict.get? config key).bind Json.asStr?).toList

/-- The strings among the values of an object under a key of a config. -/
def fieldTexts (config : Dict String Json) (key : String) : List String :=
  match Dict.get? config key with
  | some (.obj fields) => fields.filterMap fun field => field.2.asStr?
  | _ => []

/-- What `evaluate_expression` does not refuse: a text, or something empty. -/
def templateLike (value : Json) : Bool := !value.truthy || value.asStr?.isSome

/-- The headers of a config, if they have items. -/
def headerFields (config : Dict String Json) : Option (List (String × Json)) :=
  match Dict.getD config "headers" (.obj []) with
  | .obj fields => some fields
  | headers => if headers.truthy then none else some []

/-- What comes after the URL: the headers up to one that is refused, and if there is none a body
that is not empty. -/
def afterUrl (config : Dict String Json) : List String :=
  match headerFields config with
  | none => []
  | some fields =>
    (fields.takeWhile (fun field => templateLike field.2)).filterMap (fun field => field.2.asStr?) ++
      if fields.all (fun field => templateLike field.2) then
        (textAt config "body").filter (· ≠ "")
      else []

/-- The strings of a config that the executor hands to `evaluate_expression`, as long as it does
not raise there.  The `http` executor hands none without a URL and a method in capitals. -/
def handed (type : StepType) (config : Dict String Json) : List String :=
  match type with
  | .transform => textAt config "expression"
  | .condition => textAt config "expression"
  | .http =>
    match Dict.getD config "url" .null, httpMethod config with
    | .str url, .ok _ => if url = "" then [] else url :: afterUrl config
    | _, _ => []
  | .delay => []
  | .subWorkflow => (fieldTexts config "input_mapping").filter (containsText "\x7b\x7b")

/-- The Jinja2 parser accepts the string. -/
def TemplateParses (libs : Libraries) (text : String) : Prop :=
  ∃ parsed, libs.parseTemplate text = .ok parsed

/-- The variables of the templates of a mapping. -/
def mappingVars (vars : Vars) : Vars :=
  [("steps", Dict.getD vars "steps" (.json (.obj []))),
    ("trigger", Dict.getD vars "trigger" (.json (.obj [])))]

/-- Whatever the sandbox makes of the string, `_build_trigger_data` passes on what it
renders at this place of the mapping. -/
def RendersItem (config : Dict String Json) (i : Nat) (text : String) : Prop :=
  ∀ (libs : Libraries) (vars : Vars) (data : Dict String Json),
    buildTriggerData libs config vars = .ok data →
      ∃ mapped key rendered,
        data = [("source", .str "sub_workflow"), ("data", .obj mapped)] ∧
          mapped[i]? = some (key, .str rendered) ∧
            libs.render text (mappingVars vars) = .ok rendered

/-- The check of the definition and the executors agree on what a template is. -/
structure TemplatesAgree (libs : Libraries) (steps : List StepDefinition) : Prop where
  parsed : ∀ step ∈ steps, ∀ text ∈ handed step.type step.config, TemplateParses libs text
  rendered : ∀ step ∈ steps, step.type = .subWorkflow →
    ∀ fields, Dict.get? step.config "input_mapping" = some (.obj fields) →
      ∀ i key text, fields[i]? = some (key, .str text) → hasJinja2 text = true →
        RendersItem step.config i text

/-! ## What an executor renders -/

section

variable {libs libs' : Libraries}

/-- Two sandboxes that render the strings of a list alike. -/
def RenderAlikeOn (libs libs' : Libraries) (texts : List String) : Prop :=
  ∀ text ∈ texts, ∀ vars, libs.render text vars = libs'.render text vars

theorem evaluateExpression_congr {value : Json} {texts : List String}
    (h : RenderAlikeOn libs libs' texts) (hvalue : ∀ text, value = .str text → text ∈ texts)
    (vars : Vars) : evaluateExpression libs value vars = evaluateExpression libs' value vars := by
  unfold evaluateExpression
  split
  · split
    · rename_i text _
      rw [h text (hvalue text rfl)]
    · rfl
  · rfl

/-- A value that is not the default is under the key. -/
theorem get?_of_getD {config : Dict String Json} {key : String} {default value : Json}
    (h : Dict.getD config key default = value) (hne : value ≠ default) :
    Dict.get? config key = some value := by
  unfold Dict.getD at h
  cases hget : Dict.get? config key with
  | none =>
    rw [hget] at h
    exact absurd h.symm hne
  | some found =>
    rw [hget] at h
    exact congrArg some h

/-- An object with a field is under the key, where the default is an empty one. -/
theorem get?_of_getD_obj {config : Dict String Json} {key : String}
    {fields : List (String × Json)} {field : String × Json}
    (h : Dict.getD config key (.obj []) = .obj fields) (hmem : field ∈ fields) :
    Dict.get? config key = some (.obj fields) := by
  refine get?_of_getD h fun heq => ?_
  cases heq
  cases hmem

theorem mem_textAt {config : Dict String Json} {key text : String} :
    text ∈ textAt config key ↔ Dict.get? config key = some (.str text) := by
  unfold textAt
  cases hget : Dict.get? config key with
  | none => simp
  | some value => cases value <;> simp [Json.asStr?, eq_comm]

theorem mem_fieldTexts {config : Dict String Json} {key text : String} :
    text ∈ fieldTexts config key ↔
      ∃ fields name, Dict.get? config key = some (.obj fields) ∧ (name, .str text) ∈ fields := by
  have hstr : ∀ value : Json, value.asStr? = some text ↔ value = .str text := by
    intro value
    cases value <;> simp [Json.asStr?]
  unfold fieldTexts
  split
  · rename_i fields hget
    rw [List.mem_filterMap, hget]
    constructor
    · rintro ⟨⟨name, value⟩, hmem, hvalue⟩
      exact ⟨fields, name, rfl, (hstr value).mp hvalue ▸ hmem⟩
    · rintro ⟨_, name, heq, hmem⟩
      cases heq
      exact ⟨(name, .str text), hmem, rfl⟩
  · rename_i hnot
    refine iff_of_false List.not_mem_nil ?_
    rintro ⟨fields, -, hget, -⟩
    exact hnot fields hget

/-- What is refused is refused by all. -/
theorem evaluateExpression_of_not_templateLike {value : Json} (h : templateLike value = false)
    (libs : Libraries) (vars : Vars) : evaluateExpression libs value vars =
      .error (expressionError "Expression evaluation failed: not a template") := by
  simp only [templateLike, Bool.or_eq_false_iff, Bool.not_eq_false'] at h
  unfold evaluateExpression
  rw [if_pos h.1]
  cases value with
  | str text => cases h.2
  | _ => rfl

theorem renderHeaderFields_congr {fields : List (String × Json)}
    (h : RenderAlikeOn libs libs' ((fields.takeWhile (fun field => templateLike field.2)).filterMap
      (fun field => field.2.asStr?))) (vars : Vars) :
    renderHeaderFields libs vars fields = renderHeaderFields libs' vars fields := by
  induction fields with
  | nil => rfl
  | cons field fields ih =>
    obtain ⟨name, value⟩ := field
    unfold renderHeaderFields
    cases hlike : templateLike value with
    | false =>
      rw [evaluateExpression_of_not_templateLike hlike, evaluateExpression_of_not_templateLike hlike]
      rfl
    | true =>
      have htake : ((name, value) :: fields).takeWhile (fun field => templateLike field.2) =
          (name, value) :: fields.takeWhile (fun field => templateLike field.2) :=
        List.takeWhile_cons_of_pos hlike
      rw [htake] at h
      have hvalue : evaluateExpression libs value vars = evaluateExpression libs' value vars :=
        evaluateExpression_congr h (fun text htext => by simp [htext, Json.asStr?]) vars
      have hrest := ih fun text htext => h text (by
        rw [List.filterMap_cons]
        split
        · exact htext
        · exact List.mem_cons_of_mem _ htext)
      rw [hvalue, hrest]

/-- Where one is refused there are no headers. -/
theorem renderHeaderFields_refused {fields : List (String × Json)}
    (h : fields.all (fun field => templateLike field.2) = false) (libs : Libraries) (vars : Vars) :
    ∃ exc, renderHeaderFields libs vars fields = .error exc := by
  induction fields with
  | nil => cases h
  | cons field fields ih =>
    obtain ⟨name, value⟩ := field
    unfold renderHeaderFields
    cases hlike : templateLike value with
    | false =>
      rw [evaluateExpression_of_not_templateLike hlike]
      exact ⟨_, rfl⟩
    | true =>
      rw [List.all_cons, hlike, Bool.true_and] at h
      obtain ⟨exc, hrest⟩ := ih h
      cases evaluateExpression libs value vars with
      | error exc' => exact ⟨exc', rfl⟩
      | ok rendered => exact ⟨exc, by rw [hrest]; rfl⟩

/-- The headers are rendered one after another, if they have items. -/
theorem renderHeaders_eq (config : Dict String Json) (libs : Libraries) (vars : Vars) :
    renderHeaders libs (Dict.getD config "headers" (.obj [])) vars =
      (headerFields config).elim
        (.error (noAttribute (Dict.getD config "headers" (.obj [])) "items"))
        (renderHeaderFields libs vars) := by
  unfold renderHeaders headerFields
  cases Dict.getD config "headers" (.obj []) with
  | obj fields =>
    cases fields with
    | nil => rfl
    | cons field fields => rfl
  | _ =>
    dsimp only
    split
    · rfl
    · rfl

theorem renderBody_congr {config : Dict String Json}
    (h : RenderAlikeOn libs libs' ((textAt config "body").filter (· ≠ ""))) (vars : Vars) :
    renderBody libs (Dict.getD config "body" .null) vars =
      renderBody libs' (Dict.getD config "body" .null) vars := by
  unfold renderBody
  split
  · rename_i htruthy
    rw [evaluateExpression_congr h fun text htext => ?_]
    have hget : Dict.get? config "body" = some (.str text) := get?_of_getD htext (by simp)
    have hne : text ≠ "" := by
      rintro rfl
      rw [htext] at htruthy
      simp [Json.truthy] at htruthy
    exact List.mem_filter.mpr ⟨mem_textAt.mpr hget, decide_eq_true hne⟩
  · rfl

/-- What the `http` executor renders after the URL. -/
theorem renderRest_congr {config : Dict String Json}
    (h : RenderAlikeOn libs libs' (afterUrl config)) (vars : Vars) {β : Type}
    (finish : Dict String String → Option String → Except PyError β) :
    (do
      let headers ← renderHeaders libs (Dict.getD config "headers" (.obj [])) vars
      let body ← renderBody libs (Dict.getD config "body" .null) vars
      finish headers body) =
    (do
      let headers ← renderHeaders libs' (Dict.getD config "headers" (.obj [])) vars
      let body ← renderBody libs' (Dict.getD config "body" .null) vars
      finish headers body) := by
  rw [renderHeaders_eq, renderHeaders_eq]
  unfold afterUrl at h
  split at h
  · rename_i hnone
    rw [hnone]
    rfl
  · rename_i fields hfields
    rw [hfields, Option.elim_some, Option.elim_some]
    rw [renderHeaderFields_congr (fun text htext => h text (List.mem_append_left _ htext)) vars]
    cases hall : fields.all (fun field => templateLike field.2) with
    | true =>
      rw [hall, if_pos rfl] at h
      rw [renderBody_congr (fun text htext => h text (List.mem_append_right _ htext)) vars]
    | false =>
      -- a header is refused, and the body is not reached
      obtain ⟨exc, hrefused⟩ := renderHeaderFields_refused hall libs' vars
      rw [hrefused]
      rfl

theorem httpRequest_congr {config : Dict String Json}
    (h : RenderAlikeOn libs libs' (handed .http config)) (vars : Vars) :
    HttpExecutor.request libs httpStepTimeout config vars =
      HttpExecutor.request libs' httpStepTimeout config vars := by
  unfold HttpExecutor.request
  unfold handed at h
  dsimp only at h ⊢
  generalize Dict.getD config "url" .null = url at h ⊢
  cases hmethod : httpMethod config with
  | error exc => rfl
  | ok method =>
    rw [hmethod] at h
    by_cases htruthy : url.truthy = true
    · cases url with
      | str text =>
        have hne : text ≠ "" := by
          rintro rfl
          simp [Json.truthy] at htruthy
        replace h : RenderAlikeOn libs libs' (if text = "" then [] else text :: afterUrl config) := h
        rw [if_neg hne] at h
        have hurl : evaluateExpression libs (.str text) vars =
            evaluateExpression libs' (.str text) vars :=
          evaluateExpression_congr h (fun text' heq => by cases heq; exact List.mem_cons_self) vars
        rw [hurl, htruthy]
        refine congrArg (fun rest => evaluateExpression libs' (.str text) vars >>= rest) ?_
        funext rendered
        exact renderRest_congr (fun text' htext => h text' (List.mem_cons_of_mem _ htext)) vars _
      | _ =>
        rw [evaluateExpression_of_not_templateLike (by simp [templateLike, htruthy, Json.asStr?]),
          evaluateExpression_of_not_templateLike (by simp [templateLike, htruthy, Json.asStr?])]
        rfl
    · rw [Bool.not_eq_true] at htruthy
      rw [htruthy]
      rfl

/-- The body of the loop of `_build_trigger_data`. -/
def mapInput (libs : Libraries) (vars : Vars) : Json → Except PyError Json
  | .str text =>
    if containsText "\x7b\x7b" text then
      (evaluateExpression libs (.str text) vars).map Json.str
    else .ok (.str text)
  | value => .ok value

theorem mapInputs_cons (vars : Vars) (key : String) (value : Json) (rest : List (String × Json)) :
    mapInputs libs vars ((key, value) :: rest) = (do
      let value ← mapInput libs vars value
      let rest ← mapInputs libs vars rest
      return (key, value) :: rest) := by
  cases value with
  | str text =>
    rw [mapInputs, mapInput]
    split <;> rfl
  | _ => rfl

theorem mapInputs_congr {fields : List (String × Json)} {texts : List String}
    (h : RenderAlikeOn libs libs' texts)
    (hfields : ∀ name text, (name, Json.str text) ∈ fields →
      containsText "\x7b\x7b" text = true → text ∈ texts) (vars : Vars) :
    mapInputs libs vars fields = mapInputs libs' vars fields := by
  induction fields with
  | nil => rfl
  | cons field fields ih =>
    obtain ⟨name, value⟩ := field
    have hvalue : mapInput libs vars value = mapInput libs' vars value := by
      unfold mapInput
      split
      · rename_i text
        split
        · rename_i hbraces
          have hmem := hfields name text List.mem_cons_self hbraces
          rw [evaluateExpression_congr h (fun text' heq => by cases heq; exact hmem)]
        · rfl
      · rfl
    rw [mapInputs_cons, mapInputs_cons, hvalue,
      ih fun name text hmem => hfields name text (List.mem_cons_of_mem _ hmem)]

/-- An executor depends on the sandbox only through the strings that it hands to
`evaluate_expression`. -/
theorem stepRegistry_congr {type : StepType} {config : Dict String Json}
    (h : RenderAlikeOn libs libs' (handed type config)) (settings : Settings) (start : Start)
    (caller : Caller) (vars : Vars) :
    stepRegistry libs settings start caller type config vars =
      stepRegistry libs' settings start caller type config vars := by
  cases type with
  | transform =>
    show liftExcept (TransformExecutor.execute libs config vars) = liftExcept _
    unfold TransformExecutor.execute
    split
    · rfl
    · rename_i value hget
      rw [evaluateExpression_congr h (fun text htext => mem_textAt.mpr (htext ▸ hget)) vars]
  | condition =>
    show liftExcept (ConditionExecutor.execute libs config vars) = liftExcept _
    have hresult : ConditionExecutor.resultStr libs config vars =
        ConditionExecutor.resultStr libs' config vars := by
      unfold ConditionExecutor.resultStr
      split
      · rfl
      · rename_i value hget
        rw [evaluateExpression_congr h (fun text htext => mem_textAt.mpr (htext ▸ hget)) vars]
    unfold ConditionExecutor.execute
    rw [hresult]
  | delay => rfl
  | http =>
    show HttpExecutor.execute libs config vars = HttpExecutor.execute libs' config vars
    unfold HttpExecutor.execute
    rw [httpRequest_congr h vars]
  | subWorkflow =>
    have hdata : buildTriggerData libs config vars = buildTriggerData libs' config vars := by
      unfold buildTriggerData
      dsimp only
      split
      · split
        · rename_i fields heq
          have hfields : mapInputs libs (mappingVars vars) fields =
              mapInputs libs' (mappingVars vars) fields := by
            refine mapInputs_congr h (fun name text hmem hbraces => ?_) _
            have hget := get?_of_getD_obj heq hmem
            exact List.mem_filter.mpr ⟨mem_fieldTexts.mpr ⟨fields, name, hget, hmem⟩, hbraces⟩
          show (mapInputs libs (mappingVars vars) fields >>= _) = _
          rw [hfields]
          rfl
        · rfl
      · rfl
    show SubWorkflowExecutor.execute libs settings start caller config vars =
      SubWorkflowExecutor.execute libs' settings start caller config vars
    unfold SubWorkflowExecutor.execute
    rw [hdata]

end

/-! ## What is checked -/

section

variable {libs : Libraries} {type : StepType} {config : Dict String Json} {text : String}

theorem visited_of_textAt {key : String} (h : text ∈ textAt config key) :
    Visited text (.obj config) := .field (Dict.mem_of_get? (mem_textAt.mp h)) .str

theorem visited_of_fieldTexts {key : String} (h : text ∈ fieldTexts config key) :
    Visited text (.obj config) := by
  obtain ⟨fields, name, hget, hmem⟩ := mem_fieldTexts.mp h
  exact .field (Dict.mem_of_get? hget) (.field hmem .str)

theorem get?_of_headerFields {fields : List (String × Json)} {field : String × Json}
    (h : headerFields config = some fields) (hmem : field ∈ fields) :
    Dict.get? config "headers" = some (.obj fields) := by
  unfold headerFields at h
  split at h
  · rename_i found heq
    cases h
    exact get?_of_getD_obj heq hmem
  · split at h
    · cases h
    · cases h
      cases hmem

theorem visited_of_afterUrl (h : text ∈ afterUrl config) : Visited text (.obj config) := by
  unfold afterUrl at h
  split at h
  · cases h
  · rename_i fields hfields
    rcases List.mem_append.mp h with hheader | hbody
    · obtain ⟨⟨name, value⟩, htaken, hvalue⟩ := List.mem_filterMap.mp hheader
      have hmem := List.takeWhile_subset _ htaken
      have htext : value = .str text := by
        cases value <;> simp_all [Json.asStr?]
      subst htext
      have hget := get?_of_headerFields hfields hmem
      exact .field (Dict.mem_of_get? hget) (.field hmem .str)
    · split at hbody
      · exact visited_of_textAt (List.mem_filter.mp hbody).1
      · cases hbody

/-- The check of a definition visits all strings that the executors render. -/
theorem visited_of_handed (h : text ∈ handed type config) : Visited text (.obj config) := by
  cases type with
  | transform => exact visited_of_textAt h
  | condition => exact visited_of_textAt h
  | delay => cases h
  | subWorkflow => exact visited_of_fieldTexts (List.mem_filter.mp h).1
  | http =>
    unfold handed at h
    dsimp only at h
    split at h
    · rename_i url method hurl hmethod
      split at h
      · cases h
      · rename_i hne
        rcases List.mem_cons.mp h with rfl | hafter
        · exact visited_of_textAt (mem_textAt.mpr (get?_of_getD hurl (by simp)))
        · exact visited_of_afterUrl hafter
    · cases h

/-- Each value of a mapping is at its place in what `_build_trigger_data` passes on. -/
theorem getElem?_mapInputs {vars : Vars} {fields : List (String × Json)}
    {mapped : Dict String Json} (h : mapInputs libs vars fields = .ok mapped) {i : Nat}
    {key : String} {value : Json} (hi : fields[i]? = some (key, value)) :
    ∃ value', mapInput libs vars value = .ok value' ∧ mapped[i]? = some (key, value') := by
  induction fields generalizing i mapped with
  | nil => simp at hi
  | cons field fields ih =>
    obtain ⟨key₀, value₀⟩ := field
    rw [mapInputs_cons] at h
    cases hvalue : mapInput libs vars value₀ with
    | error e =>
      rw [hvalue] at h
      cases h
    | ok value₀' =>
      cases hrest : mapInputs libs vars fields with
      | error e =>
        rw [hvalue, hrest] at h
        cases h
      | ok rest =>
        rw [hvalue, hrest] at h
        cases h
        cases i with
        | zero =>
          cases hi
          exact ⟨value₀', hvalue, rfl⟩
        | succ i => exact ih hrest hi

/-- A mapping with a field is mapped. -/
theorem buildTriggerData_eq {fields : List (String × Json)} (hfields : fields ≠ [])
    (hget : Dict.get? config "input_mapping" = some (.obj fields)) (vars : Vars) :
    buildTriggerData libs config vars = (mapInputs libs (mappingVars vars) fields).map
      fun mapped => [("source", .str "sub_workflow"), ("data", .obj mapped)] := by
  have hgetD : Dict.getD config "input_mapping" (.obj []) = .obj fields := by
    simp [Dict.getD, hget]
  have htruthy : (Json.obj fields).truthy = true := by
    simp [Json.truthy, hfields]
  unfold buildTriggerData
  dsimp only
  rw [hgetD, if_pos htruthy]
  show (mapInputs libs (mappingVars vars) fields >>= _) = _
  cases mapInputs libs (mappingVars vars) fields <;> rfl

/-- A sandbox that appends a mark to every template. -/
def markingLibraries (libs : Libraries) : Libraries :=
  { libs with render := fun text _ => .ok (text ++ "!") }

theorem evaluateExpression_marking (libs : Libraries) (vars : Vars) :
    ∃ rendered, evaluateExpression (markingLibraries libs) (.str text) vars = .ok rendered := by
  unfold evaluateExpression
  split
  · exact ⟨_, rfl⟩
  · exact ⟨_, rfl⟩

theorem mapInputs_marking (libs : Libraries) (vars : Vars) (fields : List (String × Json)) :
    ∃ mapped, mapInputs (markingLibraries libs) vars fields = .ok mapped := by
  induction fields with
  | nil => exact ⟨[], rfl⟩
  | cons field fields ih =>
    obtain ⟨key, value⟩ := field
    obtain ⟨rest, hrest⟩ := ih
    have hvalue : ∃ value', mapInput (markingLibraries libs) vars value = .ok value' := by
      unfold mapInput
      split
      · split
        · obtain ⟨rendered, hrendered⟩ := evaluateExpression_marking libs vars
          exact ⟨.str rendered, congrArg (Except.map Json.str) hrendered⟩
        · exact ⟨_, rfl⟩
      · exact ⟨_, rfl⟩
    obtain ⟨value', hvalue⟩ := hvalue
    refine ⟨(key, value') :: rest, ?_⟩
    rw [mapInputs_cons, hvalue, hrest]
    rfl

/-- An item of a mapping is rendered exactly if it contains a double brace. -/
theorem rendersItem_iff {fields : List (String × Json)}
    (hget : Dict.get? config "input_mapping" = some (.obj fields)) {i : Nat} {key : String}
    (hi : fields[i]? = some (key, .str text)) (hne : text ≠ "") :
    RendersItem config i text ↔ containsText "\x7b\x7b" text = true := by
  have hfields : fields ≠ [] := by
    rintro rfl
    simp at hi
  constructor
  · intro hrenders
    by_contra hbraces
    -- the sandbox that marks what it renders tells the two apart
    obtain ⟨mapped, hmapped⟩ := mapInputs_marking plainLibraries (mappingVars []) fields
    obtain ⟨value, hvalue, hat⟩ := getElem?_mapInputs hmapped hi
    have hdata : buildTriggerData (markingLibraries plainLibraries) config [] = _ :=
      buildTriggerData_eq hfields hget []
    rw [hmapped] at hdata
    obtain ⟨mapped', key', rendered, heq, hat', hrendered⟩ := hrenders _ _ _ hdata
    obtain rfl : mapped = mapped' := by simpa using heq
    rw [mapInput, if_neg hbraces] at hvalue
    cases hvalue
    rw [hat] at hat'
    cases hat'
    have htext : text ++ "!" = text := Except.ok.inj hrendered
    have hlength := congrArg String.length htext
    rw [String.length_append] at hlength
    have hone : "!".length = 1 := rfl
    omega
  · intro hbraces libs vars data hdata
    rw [buildTriggerData_eq hfields hget] at hdata
    cases hmapped : mapInputs libs (mappingVars vars) fields with
    | error e =>
      rw [hmapped] at hdata
      cases hdata
    | ok mapped =>
      rw [hmapped] at hdata
      cases hdata
      obtain ⟨value, hvalue, hat⟩ := getElem?_mapInputs hmapped hi
      rw [mapInput, if_pos hbraces] at hvalue
      have htruthy : (Json.str text).truthy = true := by
        simp [Json.truthy, hne]
      rw [evaluateExpression, if_pos htruthy] at hvalue
      cases hrender : libs.render text (mappingVars vars) with
      | error failure =>
        rw [hrender] at hvalue
        cases hvalue
      | ok rendered =>
        rw [hrender] at hvalue
        cases hvalue
        exact ⟨mapped, key, rendered, rfl, hat, rfl⟩

/-- In an accepted definition the check and the executors agree on what a template is
exactly if Jinja2 accepts the strings that are rendered without having been checked,
and no string of a mapping has a brace with a percent sign but no double brace. -/
theorem templatesAgree_iff {settings : Settings} {raw : RawDefinition}
    {parsed : WorkflowDefinition} (h : parseWorkflowDefinition libs settings raw = .ok parsed) :
    TemplatesAgree libs parsed.steps ↔
      (∀ step ∈ parsed.steps, ∀ text ∈ handed step.type step.config,
        hasJinja2 text = false → TemplateParses libs text) ∧
      ∀ step ∈ parsed.steps, step.type = .subWorkflow →
        ∀ text ∈ fieldTexts step.config "input_mapping",
          containsText "\x7b%" text = true → containsText "\x7b\x7b" text = true := by
  obtain ⟨hwf, -⟩ := (parseWorkflowDefinition_iff libs settings raw parsed).mp h
  have hchecked : ∀ step ∈ parsed.steps, ∀ text ∈ handed step.type step.config,
      hasJinja2 text = true → TemplateParses libs text := by
    intro step hstep text htext
    have hvalid := forM_eq_ok_iff.mp hwf.templates_valid step hstep
    exact (validateConfigExpressions_iff step.config).mp hvalid text (visited_of_handed htext)
  have hne : ∀ {text}, hasJinja2 text = true → text ≠ "" := by
    rintro _ hjinja rfl
    revert hjinja
    decide
  constructor
  · intro hagree
    refine ⟨fun step hstep text htext _ => hagree.parsed step hstep text htext, ?_⟩
    intro step hstep htype text htext hpercent
    obtain ⟨fields, name, hget, hmem⟩ := mem_fieldTexts.mp htext
    obtain ⟨i, hi⟩ := List.mem_iff_getElem?.mp hmem
    have hjinja : hasJinja2 text = true := by
      rw [hasJinja2, hpercent, Bool.or_true]
    have hrenders := hagree.rendered step hstep htype fields hget i name text hi hjinja
    exact (rendersItem_iff hget hi (hne hjinja)).mp hrenders
  · rintro ⟨hunchecked, hpercent⟩
    refine ⟨fun step hstep text htext => ?_, ?_⟩
    · cases hjinja : hasJinja2 text with
      | true => exact hchecked step hstep text htext hjinja
      | false => exact hunchecked step hstep text htext hjinja
    · intro step hstep htype fields hget i name text hi hjinja
      refine (rendersItem_iff hget hi (hne hjinja)).mpr ?_
      rcases Bool.or_eq_true_iff.mp hjinja with hbraces | hpercent'
      · exact hbraces
      · have hmem := mem_fieldTexts.mpr ⟨fields, name, hget, List.mem_of_getElem? hi⟩
        exact hpercent step hstep htype text hmem hpercent'

end

/-! ## Strings on which they differ -/

/-- A comment that does not end. -/
def openComment : String := "\x7b# x"

/-- The plain functions, with a parser that knows of the comment above. -/
def commentLibraries : Libraries :=
  { plainLibraries with
    parseTemplate := fun text =>
      if text = openComment then .error "Missing end of comment tag" else .ok () }

/-- A template of statements alone. -/
def statementsOnly : String := "\x7b% if trigger %\x7d1\x7b% endif %\x7d"

/-- A workflow with one step of this type and config. -/
def typedDefinition (type : StepType) (config : Dict String Json) : RawDefinition :=
  ⟨"workflow", "manual", [rawStep "only" type config []]⟩

theorem templatesAgree_iff_text :
    ∃ parsed, parseWorkflowDefinition commentLibraries {}
        (typedDefinition .transform [("expression", .str "a")]) = .ok parsed ∧
      (TemplatesAgree commentLibraries parsed.steps ↔
        (∀ step ∈ parsed.steps, ∀ text ∈ handed step.type step.config,
          hasJinja2 text = false → TemplateParses commentLibraries text) ∧
        ∀ step ∈ parsed.steps, step.type = .subWorkflow →
          ∀ text ∈ fieldTexts step.config "input_mapping",
            containsText "\x7b%" text = true → containsText "\x7b\x7b" text = true) := by
  have hparsed : ∃ parsed, parseWorkflowDefinition commentLibraries {}
      (typedDefinition .transform [("expression", .str "a")]) = .ok parsed := ⟨_, by rfl⟩
  obtain ⟨parsed, hparsed⟩ := hparsed
  exact ⟨parsed, hparsed, templatesAgree_iff hparsed⟩

/-- An open comment is accepted with a definition and rendered, and statements in a
mapping are parsed with the definition and passed on as they are. -/
theorem not_templatesAgree :
    (¬ ∀ libs settings raw parsed, parseWorkflowDefinition libs settings raw = .ok parsed →
      ∀ step ∈ parsed.steps, ∀ text ∈ handed step.type step.config, TemplateParses libs text) ∧
    ¬ ∀ libs settings raw parsed, parseWorkflowDefinition libs settings raw = .ok parsed →
      TemplatesAgree libs parsed.steps := by
  constructor
  · intro hall
    let config : Dict String Json := [("expression", .str openComment)]
    have hparsed : parseWorkflowDefinition commentLibraries {} (typedDefinition .transform config) =
        .ok ⟨"workflow", "manual", [plainStep "only" .transform config [] (by decide)],
          [("only", [])]⟩ := by rfl
    obtain ⟨_, hunit⟩ := hall _ _ _ _ hparsed _ (List.mem_singleton_self _) openComment
      (List.mem_singleton_self _)
    cases hunit
  · intro hall
    let fields : List (String × Json) := [("value", .str statementsOnly)]
    let config : Dict String Json := [("input_mapping", .obj fields)]
    have hparsed : parseWorkflowDefinition plainLibraries {} (typedDefinition .subWorkflow config) =
        .ok ⟨"workflow", "manual", [plainStep "only" .subWorkflow config [] (by decide)],
          [("only", [])]⟩ := by rfl
    have hget : Dict.get? config "input_mapping" = some (.obj fields) := rfl
    have hi : fields[0]? = some ("value", .str statementsOnly) := rfl
    have hrenders := (hall _ _ _ _ hparsed).rendered _ (List.mem_singleton_self _) rfl fields hget 0
      "value" statementsOnly hi (by decide)
    rw [show (plainStep "only" .subWorkflow config [] (by decide)).config = config from rfl,
      rendersItem_iff hget hi (by decide)] at hrenders
    revert hrenders
    decide

end WorkflowEngine
