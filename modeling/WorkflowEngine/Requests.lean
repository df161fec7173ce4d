import WorkflowEngine.Libraries
import WorkflowEngine.Lib.Script

/-!
# Programs over the database and the outside world

The `async` functions of the engine are scripts (`WorkflowEngine.Lib.Script`).
Their requests are the statements of a database session and the calls to what
is outside the process: the clock, the generator of UUIDs, and the executors.

Two requests are not in the source.  `observe` tells the environment that an
execution was started or that an executor is about to be invoked; the
environment notes it together with what the session sees and what is
committed at that moment.  `perform` is the answer of an arbitrary executor.

`World.answer` is the meaning of the requests for a session that runs alone.
-/

namespace WorkflowEngine

open Py Orm Interact

/-- The step of an execution on whose behalf an executor runs. -/
structure Caller where
  execution : Uuid
  step : String
  deriving DecidableEq

/-- An HTTP request as the `http` executor sends it. -/
structure HttpRequest where
  method : String
  url : String
  headers : Dict String String
  body : Option String
  timeoutSeconds : Json

/-- An HTTP response as the `http` executor reads it. -/
structure HttpResponse where
  statusCode : Nat
  headers : Dict String String
  text : String
  durationMs : Int

/-- The exceptions of the HTTP client: the two groups that the `http` executor
catches, and any other one. -/
inductive HttpFailure where
  | timeout (text : String)
  | httpError (text : String)
  | other (cls text : String)

/-- The call of an executor: the step definition and its input. -/
structure ExecutorCall where
  step : StepDefinition
  input : Vars

/-- The requests to what is outside the database. -/
inductive EnvReq where
  | utcNow
  | newUuid
  | observeStart (execution : Uuid) (parent : Option Caller)
  | observeInvoke (caller : Caller) (call : ExecutorCall)
  | perform (call : ExecutorCall)
  | http (request : HttpRequest)
  | sleep (seconds : Json)

/-- The answers. -/
@[reducible] def EnvReq.Resp : EnvReq → Type
  | utcNow => Time
  | newUuid => Uuid
  | observeStart _ _ => Unit
  | observeInvoke _ _ => Unit
  | perform _ => Except PyError (Dict String Json)
  | http _ => Except HttpFailure HttpResponse
  | sleep _ => Unit

/-- The request language of what is outside. -/
@[reducible] def envSignature : Signature := ⟨EnvReq, EnvReq.Resp⟩

/-- The request language of the engine. -/
@[reducible] def engineSignature : Signature := withDb Row Memo envSignature

/-- An `async` function that returns an `α`. -/
abbrev Prog (α : Type) := Script engineSignature Raised α

/-! ## The statements -/

/-- `select(Execution).where(Execution.id == id, ...)`. -/
def selectExecution (id : Uuid) (p : Execution → Bool) : Prog (Option Execution) :=
  Script.send (S := engineSignature) (.db (.select (.execution id) p))

/-- `select(StepExecution).where(StepExecution.id == id)`. -/
def selectStep (id : Uuid) : Prog (Option StepExecution) :=
  Script.send (S := engineSignature) (.db (.select (.step id) (fun _ => true)))

/-- `select(Workflow).where(Workflow.id == id, ...)`. -/
def selectWorkflow (id : Uuid) (p : Workflow → Bool) : Prog (Option Workflow) :=
  Script.send (S := engineSignature) (.db (.select (.workflow id) p))

/-- `session.add(row)` and `session.flush()` for a new row. -/
def insertRow (k : RowId) (row : Row k) : Prog Unit :=
  Script.send (S := engineSignature) (.db (.insert k row))

/-- Whether the row is there, which is what a foreign key asks. -/
def rowExists (k : RowId) : Prog Bool := do
  let found ← Script.send (S := engineSignature) (.db (.scan (fun k' _ => decide (k' = k))))
  return !found.isEmpty

/-- Assign columns of a loaded step execution and flush. -/
def assignStep (id : Uuid) (f : StepExecution → StepExecution) : Prog (Option StepExecution) :=
  Script.send (S := engineSignature)
    (.db (.touch (.step id) (fun attrs memo => ((f attrs, memo), some f))))

/-- Assign columns of a loaded execution, other than `context`, and flush. -/
def assignExecution (id : Uuid) (f : Execution → Execution) : Prog (Option Execution) :=
  Script.send (S := engineSignature)
    (.db (.touch (.execution id) (fun attrs memo => ((f attrs, memo), some f))))

/-- Assign columns of a loaded webhook delivery and flush. -/
def assignDelivery (id : Uuid) (f : WebhookDelivery → WebhookDelivery) :
    Prog (Option WebhookDelivery) :=
  Script.send (S := engineSignature)
    (.db (.touch (.delivery id) (fun attrs memo => ((f attrs, memo), some f))))

/-- The `context` attribute of a loaded execution, with its change tracking. -/
def contextOf (e : Execution) (memo : Remembered (Dict String Json)) :
    Tracked (Dict String Json) := ⟨e.context, memo⟩

/-- Put a `context` attribute back. -/
def withContext (e : Execution) (ctx : Tracked (Dict String Json)) :
    Execution × Remembered (Dict String Json) :=
  ({ e with context := ctx.value }, ctx.remembered)

/-- Work on the `context` attribute of a loaded execution, without a flush. -/
def touchContext (id : Uuid)
    (f : Tracked (Dict String Json) → Tracked (Dict String Json)) : Prog (Option Execution) :=
  Script.send (S := engineSignature)
    (.db (.touch (.execution id) (fun e memo => (withContext e (f (contextOf e memo)), none))))

/-- `a == b` on two contexts. -/
def contextEq (a b : Dict String Json) : Bool := Json.eq (.obj a) (.obj b)

/-- `session.flush()` after assignments to the `context` attribute. -/
def flushContext (id : Uuid) : Prog (Option Execution) :=
  Script.send (S := engineSignature)
    (.db (.touch (.execution id) (fun e memo =>
      let ctx := contextOf e memo
      (withContext e ctx.flush,
        (ctx.written contextEq).map (fun v row => { row with context := v })))))

/-- `session.refresh(execution)`. -/
def refreshExecution (id : Uuid) : Prog (Option Execution) :=
  Script.send (S := engineSignature) (.db (.refresh (.execution id)))

/-- The keys of the rows that satisfy a condition, which are loaded. -/
def selectWhere (p : (k : RowId) → Row k → Bool) : Prog (List RowId) :=
  Script.send (S := engineSignature) (.db (.selectWhere p))

/-- `update(...).where(p).values(...)` on the rows that the statement found: each
row is tested again when its turn comes. -/
def updateEach (p : (k : RowId) → Row k → Bool) (f : (k : RowId) → Row k → Row k) :
    List RowId → Prog Unit
  | [] => return
  | k :: ks => do
    let () ← Script.send (S := engineSignature) (.db (.updateIf k (p k) (f k)))
    updateEach p f ks

/-- `update(...).where(p).values(...)`. -/
def updateWhere (p : (k : RowId) → Row k → Bool) (f : (k : RowId) → Row k → Row k) :
    Prog Unit := do
  let ks ← Script.send (S := engineSignature) (.db (.scan p))
  updateEach p f ks

/-- `session.commit()`. -/
def commit : Prog Unit := Script.send (S := engineSignature) (.db .commit)

/-- `utc_now()`. -/
def utcNow : Prog Time := Script.send (S := engineSignature) (.env .utcNow)

/-- `gen_random_uuid()`. -/
def newUuid : Prog Uuid := Script.send (S := engineSignature) (.env .newUuid)

/-- Note that an execution was created. -/
def observeStart (execution : Uuid) (parent : Option Caller) : Prog Unit :=
  Script.send (S := engineSignature) (.env (.observeStart execution parent))

/-- Note that an executor is about to be invoked. -/
def observeInvoke (caller : Caller) (call : ExecutorCall) : Prog Unit :=
  Script.send (S := engineSignature) (.env (.observeInvoke caller call))

/-- An arbitrary executor. -/
def perform (call : ExecutorCall) : Prog (Except PyError (Dict String Json)) :=
  Script.send (S := engineSignature) (.env (.perform call))

/-- `client.request(...)`. -/
def httpRequest (request : HttpRequest) : Prog (Except HttpFailure HttpResponse) :=
  Script.send (S := engineSignature) (.env (.http request))

/-- `asyncio.sleep(seconds)`. -/
def sleep (seconds : Json) : Prog Unit :=
  Script.send (S := engineSignature) (.env (.sleep seconds))

/-- Raise an application error. -/
def raiseApp {α : Type} (error : AppError) : Prog α := Script.raise (.app error)

/-- A pure function that may raise. -/
def liftExcept {α : Type} (result : Except PyError α) : Prog α :=
  Script.lift (result.mapError Raised.exception)

/-! ## A session that runs alone -/

/-- The invocation of an executor, with what the session saw and what was
committed at that moment. -/
structure Invocation where
  caller : Caller
  call : ExecutorCall
  view : (k : RowId) → Option (Row k)
  committed : Rows Row

/-- What the environment notes. -/
inductive Event where
  | started (execution : Uuid) (parent : Option Caller)
  | invoked (invocation : Invocation)

/-- The outside world: the readings of the clock, the behaviour of the
executors and of the HTTP servers, which may depend on everything noted so
far, and the notes, oldest first. -/
structure Environment where
  clock : Nat → Time
  readings : Nat
  behaviour : List Event → ExecutorCall → Except PyError (Dict String Json)
  server : List Event → HttpRequest → Except HttpFailure HttpResponse
  events : List Event

/-- A database, one session on it, and the outside world. -/
structure World where
  db : Db
  env : Environment

/-- The answer of the outside world. -/
def Environment.answer (db : Db) : (req : EnvReq) → Environment → req.Resp × Environment
  | .utcNow, env => (env.clock env.readings, { env with readings := env.readings + 1 })
  | .newUuid, env => (db.newUuid, env)
  | .observeStart execution parent, env =>
    ((), { env with events := env.events ++ [.started execution parent] })
  | .observeInvoke caller call, env =>
    ((), { env with events := env.events ++ [.invoked ⟨caller, call, db.view, db.committed⟩] })
  | .perform call, env => (env.behaviour env.events call, env)
  | .http request, env => (env.server env.events request, env)
  | .sleep _, env => ((), env)

/-- The answer to a request when no other session runs. -/
def World.answer : (req : engineSignature.Req) → World → engineSignature.Resp req × World
  | .db req, w =>
    let answered := DbState.answer req w.db
    (answered.1, { w with db := answered.2 })
  | .env req, w =>
    let answered := Environment.answer w.db req w.env
    (answered.1, { w with env := answered.2 })

/-- Run a program alone. -/
def Prog.run {α : Type} (m : Prog α) (w : World) : Except Raised α × World :=
  Script.run (S := engineSignature) World.answer m w

namespace Prog

variable {α β : Type}

@[simp] theorem run_pure (a : α) (w : World) : Prog.run (pure a) w = (.ok a, w) := rfl

@[simp] theorem run_raise (e : Raised) (w : World) :
    Prog.run (Script.raise e : Prog α) w = (.error e, w) := rfl

@[simp] theorem run_liftExcept (result : Except PyError α) (w : World) :
    Prog.run (liftExcept result) w = (result.mapError Raised.exception, w) := rfl

theorem run_bind_ok {m : Prog α} {f : α → Prog β} {w w' : World} {a : α}
    (h : Prog.run m w = (.ok a, w')) : Prog.run (m >>= f) w = Prog.run (f a) w' :=
  Script.run_bind_ok (S := engineSignature) World.answer h

theorem run_bind_error {m : Prog α} {f : α → Prog β} {w w' : World} {e : Raised}
    (h : Prog.run m w = (.error e, w')) : Prog.run (m >>= f) w = (.error e, w') :=
  Script.run_bind_error (S := engineSignature) World.answer h

@[simp] theorem run_attempt (m : Prog α) (w : World) :
    Prog.run (Script.attempt m : Prog (Except Raised α)) w =
      (.ok (Prog.run m w).1, (Prog.run m w).2) :=
  Script.run_attempt (S := engineSignature) World.answer m w

theorem exists_of_run_bind {m : Prog α} {f : α → Prog β} {w w' : World} {b : β}
    (h : Prog.run (m >>= f) w = (.ok b, w')) :
    ∃ a w₁, Prog.run m w = (.ok a, w₁) ∧ Prog.run (f a) w₁ = (.ok b, w') :=
  Script.exists_of_run_bind (S := engineSignature) World.answer h

/-- A pure function that has returned leaves the world. -/
theorem of_run_liftExcept_bind {result : Except PyError α} {f : α → Prog β} {w w' : World} {b : β}
    (h : Prog.run (liftExcept result >>= f) w = (.ok b, w')) :
    ∃ a, result = .ok a ∧ Prog.run (f a) w = (.ok b, w') := by
  cases result with
  | ok a => exact ⟨a, rfl, h⟩
  | error exc => cases h

/-- What comes after a `try` block is handed how the block ended. -/
theorem run_attempt_bind {m : Prog α} {f : Except Raised α → Prog β} {w w' : World}
    {result : Except Raised α} (h : Prog.run m w = (result, w')) :
    Prog.run (Script.attempt m >>= f) w = Prog.run (f result) w' := by
  apply run_bind_ok
  rw [run_attempt, h]

/-- Dropping the value does not change where a run ends. -/
theorem run_discard (m : Prog α) (w : World) :
    (Prog.run (do let _ ← m) w).2 = (Prog.run m w).2 := by
  rcases hrun : Prog.run m w with ⟨result, w'⟩
  cases result with
  | ok a =>
    rw [run_bind_ok hrun]
    rfl
  | error e => rw [run_bind_error hrun]

end Prog

/-! ## The outside world goes on -/

/-- `env'` is `env` after `new` was noted, and possibly later on the clock. -/
structure Environment.Later (env : Environment) (new : List Event) (env' : Environment) :
    Prop where
  clock : env'.clock = env.clock
  behaviour : env'.behaviour = env.behaviour
  server : env'.server = env.server
  events : env'.events = env.events ++ new

namespace Environment.Later

variable {env env' env'' : Environment} {new new' : List Event}

theorem refl (env : Environment) : env.Later [] env := ⟨rfl, rfl, rfl, by simp⟩

theorem trans (h : env.Later new env') (h' : env'.Later new' env'') :
    env.Later (new ++ new') env'' :=
  ⟨h'.clock.trans h.clock, h'.behaviour.trans h.behaviour, h'.server.trans h.server,
    by rw [h'.events, h.events, List.append_assoc]⟩

/-- Reading the clock is not noted. -/
theorem tick (h : env.Later new env') :
    env.Later new { env' with readings := env'.readings + 1 } :=
  ⟨h.clock, h.behaviour, h.server, h.events⟩

end Environment.Later

/-- What was noted between two moments. -/
def Environment.since (env env' : Environment) : List Event :=
  env'.events.drop env.events.length

theorem Environment.Later.since_eq {env env' : Environment} {new : List Event}
    (h : env.Later new env') : env.since env' = new := by
  simp [Environment.since, h.events]

/-- The executor invocations of a run that started in `w` and ended in `w'`. -/
def Invokes (w w' : World) (inv : Invocation) : Prop := .invoked inv ∈ w.env.since w'.env

/-- On whose behalf executors were invoked. -/
def invokedCallers (events : List Event) : List Caller :=
  events.filterMap (fun event =>
    match event with
    | .started _ _ => none
    | .invoked inv => some inv.caller)

theorem mem_invokedCallers {events : List Event} {caller : Caller} :
    caller ∈ invokedCallers events ↔ ∃ inv, .invoked inv ∈ events ∧ inv.caller = caller := by
  constructor
  · intro h
    obtain ⟨event, hevent, heq⟩ := List.mem_filterMap.mp h
    cases event with
    | started _ _ => cases heq
    | invoked inv => exact ⟨inv, hevent, Option.some.inj heq⟩
  · rintro ⟨inv, hmem, rfl⟩
    exact List.mem_filterMap.mpr ⟨_, hmem, rfl⟩

@[simp] theorem run_rowExists (k : RowId) (w : World) :
    (rowExists k).run w = (.ok (w.db.view k).isSome, w) := by
  have hscan : (rowExists k).run w =
      (.ok (!(w.db.matching fun k' _ => decide (k' = k)).isEmpty), w) := rfl
  rw [hscan]
  cases hview : w.db.view k with
  | none =>
    have hnone : w.db.matching (fun k' _ => decide (k' = k)) = [] := by
      refine List.eq_nil_iff_forall_not_mem.mpr fun k' hmem => ?_
      obtain ⟨row, hrow, hk⟩ := DbState.mem_matching.mp hmem
      obtain rfl : k' = k := of_decide_eq_true hk
      cases hview.symm.trans hrow
    rw [hnone]
    rfl
  | some row =>
    have hmem : k ∈ w.db.matching (fun k' _ => decide (k' = k)) :=
      DbState.mem_matching.mpr ⟨row, hview, decide_eq_true rfl⟩
    cases hfound : w.db.matching (fun k' _ => decide (k' = k)) with
    | nil =>
      rw [hfound] at hmem
      cases hmem
    | cons _ _ => rfl

@[simp] theorem run_utcNow (w : World) :
    utcNow.run w = (.ok (w.env.clock w.env.readings),
      { w with env := { w.env with readings := w.env.readings + 1 } }) := rfl

@[simp] theorem run_newUuid (w : World) : newUuid.run w = (.ok w.db.newUuid, w) := rfl

@[simp] theorem run_observeStart (execution : Uuid) (parent : Option Caller) (w : World) :
    (observeStart execution parent).run w = (.ok (), { w with env :=
      { w.env with events := w.env.events ++ [.started execution parent] } }) := rfl

@[simp] theorem run_observeInvoke (caller : Caller) (call : ExecutorCall) (w : World) :
    (observeInvoke caller call).run w = (.ok (), { w with env := { w.env with
      events := w.env.events ++ [.invoked ⟨caller, call, w.db.view, w.db.committed⟩] } }) := rfl

@[simp] theorem run_perform (call : ExecutorCall) (w : World) :
    (perform call).run w = (.ok (w.env.behaviour w.env.events call), w) := rfl

end WorkflowEngine
