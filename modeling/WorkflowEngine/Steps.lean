import WorkflowEngine.Context

/-!
# The step executors

`src/steps` and `src/lib/expressions.py`.  An executor reads its config, which
is any JSON object that the parser let through, and the variables that the
orchestrator hands to it.

The executors that only compute are pure functions.  `http` and `delay` ask
the outside world.  `sub_workflow` starts an execution and stands in
`WorkflowEngine.Orchestrator`.
-/

namespace WorkflowEngine

open Py

section Expressions

variable (libs : Libraries)

/-- The `AppError` of `evaluate_expression`. -/
def expressionError (text : String) : PyError := .app ⟨.expressionError, text, 400, []⟩

/-- The handlers of `evaluate_expression`. -/
def renderError : RenderFailure → PyError
  | .templateSyntaxError text => expressionError ("Template syntax error: " ++ text)
  | .undefinedError text => expressionError ("Undefined variable in expression: " ++ text)
  | .securityError text => expressionError ("Unsafe expression blocked: " ++ text)
  | .other text => expressionError ("Expression evaluation failed: " ++ text)

/-- `evaluate_expression`.  A template that is not a string makes
`env.from_string` raise, which the last handler catches. -/
def evaluateExpression (template : Json) (vars : Vars) : Except PyError String :=
  if template.truthy then
    match template with
    | .str text => (libs.render text vars).mapError renderError
    | _ => .error (expressionError "Expression evaluation failed: not a template")
  else .ok ""

end Expressions

/-- `expression[:100] if expression else ""`, of which only the exception
matters: a number has no items, and a dictionary no item under a slice. -/
def preview (expression : Json) : Except PyError Unit :=
  if expression.truthy then
    match expression with
    | .str _ => .ok ()
    | .arr _ => .ok ()
    | .obj _ => .error (.other "KeyError" "slice(None, 100, None)")
    | _ => .error (.other "TypeError" "object is not subscriptable")
  else .ok ()

/-- The error of a config that lacks a key or has a wrong value. -/
def stepConfigError (message : String) : PyError := .app ⟨.stepConfigError, message, 400, []⟩

/-! ## Transform -/

/-- `TransformExecutor.execute`. -/
def TransformExecutor.execute (libs : Libraries) (config : Dict String Json) (vars : Vars) :
    Except PyError (Dict String Json) :=
  match Dict.get? config "expression" with
  | none => .error (stepConfigError "Transform step requires 'expression' in config.")
  | some expression => do
    preview expression
    let result ← evaluateExpression libs expression vars
    return [("result", .str result)]

/-! ## Condition -/

/-- The characters that `str.strip` removes. -/
def isSpace (c : Char) : Bool :=
  c.toNat ∈ [9, 10, 11, 12, 13, 28, 29, 30, 31, 32, 133, 160, 5760, 8192, 8193, 8194, 8195, 8196,
    8197, 8198, 8199, 8200, 8201, 8202, 8232, 8233, 8239, 8287, 12288]

/-- `value.strip()`. -/
def strip (value : String) : String :=
  String.ofList ((value.toList.dropWhile isSpace).reverse.dropWhile isSpace).reverse

/-- `_FALSY_VALUES`. -/
def falsyValues : List String := ["", "false", "0", "none", "False", "None"]

/-- `_evaluate_truthiness`. -/
def evaluateTruthiness (value : String) : Bool :=
  if value = "" then false else lower (strip value) ∉ falsyValues

/-- The string that the condition executor renders. -/
def ConditionExecutor.resultStr (libs : Libraries) (config : Dict String Json) (vars : Vars) :
    Except PyError String :=
  match Dict.get? config "expression" with
  | none => .error (stepConfigError "Condition step requires 'expression' in config.")
  | some expression => do
    preview expression
    evaluateExpression libs expression vars

/-- `ConditionExecutor.execute`. -/
def ConditionExecutor.execute (libs : Libraries) (config : Dict String Json) (vars : Vars) :
    Except PyError (Dict String Json) := do
  let trueBranch := Dict.getD config "true_branch" (.arr [])
  let falseBranch := Dict.getD config "false_branch" (.arr [])
  let resultStr ← ConditionExecutor.resultStr libs config vars
  if evaluateTruthiness resultStr then
    return [("result", .bool true), ("branch", .str "true"), ("branch_steps", trueBranch)]
  else
    return [("result", .bool false), ("branch", .str "false"), ("branch_steps", falseBranch)]

/-! ## Delay -/

/-- `MAX_DELAY_SECONDS`. -/
def maxDelaySeconds : Int := 3600

/-- `DelayExecutor.execute`. -/
def DelayExecutor.execute (config : Dict String Json) : Prog (Dict String Json) :=
  match Dict.get? config "seconds" with
  | none => liftExcept (.error (stepConfigError "Delay step requires 'seconds' in config."))
  | some seconds =>
    match seconds.number with
    | none => liftExcept (.error (stepConfigError "Delay step 'seconds' must be a number."))
    | some (m, places) =>
      if m ≤ 0 then
        liftExcept (.error (stepConfigError "Delay step 'seconds' must be positive."))
      else if m > maxDelaySeconds * 10 ^ places then
        liftExcept (.error (stepConfigError
          ("Delay step 'seconds' must not exceed " ++ toString maxDelaySeconds ++ ".")))
      else do
        sleep seconds
        return [("delayed_seconds", seconds)]

/-! ## HTTP -/

/-- ASCII `s.upper()`. -/
def upper (s : String) : String := String.ofList (s.toList.map Char.toUpper)

/-- The loop of `_render_headers`. -/
def renderHeaderFields (libs : Libraries) (vars : Vars) :
    List (String × Json) → Except PyError (Dict String String)
  | [] => .ok []
  | (key, value) :: rest => do
    let rendered ← evaluateExpression libs value vars
    let rest ← renderHeaderFields libs vars rest
    return (key, rendered) :: rest

/-- `_render_headers`. -/
def renderHeaders (libs : Libraries) (headers : Json) (vars : Vars) :
    Except PyError (Dict String String) :=
  if headers.truthy then
    match headers with
    | .obj fields => renderHeaderFields libs vars fields
    | _ => .error (noAttribute headers "items")
  else .ok []

/-- `_render_body`. -/
def renderBody (libs : Libraries) (body : Json) (vars : Vars) : Except PyError (Option String) :=
  if body.truthy then (evaluateExpression libs body vars).map some else .ok none

/-- `config.get("method", "GET").upper()`. -/
def httpMethod (config : Dict String Json) : Except PyError String :=
  match Dict.getD config "method" (.str "GET") with
  | .str method => .ok (upper method)
  | method => .error (noAttribute method "upper")

/-- The request that the `http` executor builds from its config. -/
def HttpExecutor.request (libs : Libraries) (httpStepTimeout : Json) (config : Dict String Json)
    (vars : Vars) : Except PyError HttpRequest := do
  let urlTemplate := Dict.getD config "url" .null
  if !urlTemplate.truthy then
    throw (stepConfigError "HTTP step requires 'url' in config.")
  let method ← httpMethod config
  let url ← evaluateExpression libs urlTemplate vars
  let headers ← renderHeaders libs (Dict.getD config "headers" (.obj [])) vars
  let body ← renderBody libs (Dict.getD config "body" .null) vars
  return {
    method := method
    url := url
    headers := headers
    body := body.filter (· != "")
    timeoutSeconds := Dict.getD config "timeout_seconds" httpStepTimeout }

/-- `MAX_RESPONSE_BODY_SIZE`. -/
def maxResponseBodySize : Nat := 1048576

/-- `HTTP_STEP_TIMEOUT`. -/
def httpStepTimeout : Json := .int 30

/-- `value[:n]`. -/
def takeChars (n : Nat) (value : String) : String := String.ofList (value.toList.take n)

/-- The response body with the size limit applied. -/
def responseBody (response : HttpResponse) : String :=
  if response.text.length > maxResponseBodySize then
    takeChars maxResponseBodySize response.text ++ "... [truncated]"
  else response.text

/-- What `HttpExecutor.execute` makes of the answer of the client. -/
def HttpExecutor.result (request : HttpRequest) :
    Except HttpFailure HttpResponse → Except PyError (Dict String Json)
  | .error (.timeout text) =>
    .error (.app ⟨.httpStepTimeout, "HTTP request timed out after " ++
      request.timeoutSeconds.pyStr ++ "s: " ++ text, 504, []⟩)
  | .error (.httpError text) =>
    .error (.app ⟨.httpStepError, "HTTP request failed: " ++ text, 502, []⟩)
  | .error (.other cls text) => .error (.other cls text)
  | .ok response =>
    let body := responseBody response
    if 200 ≤ response.statusCode ∧ response.statusCode < 300 then
      .ok [("status_code", .int response.statusCode),
        ("headers", .obj (response.headers.map (fun h => (h.1, .str h.2)))),
        ("body", .str body), ("duration_ms", .int response.durationMs)]
    else
      .error (.app ⟨.httpStepError, "HTTP " ++ request.method ++ " " ++ request.url ++
        " returned " ++ toString response.statusCode ++ ": " ++ takeChars 200 body, 502,
        [[("status_code", .int response.statusCode), ("body", .str (takeChars 500 body))]]⟩)

/-- `HttpExecutor.execute`. -/
def HttpExecutor.execute (libs : Libraries) (config : Dict String Json) (vars : Vars) :
    Prog (Dict String Json) := do
  let request ← liftExcept (HttpExecutor.request libs httpStepTimeout config vars)
  let response ← httpRequest request
  liftExcept (HttpExecutor.result request response)

end WorkflowEngine
