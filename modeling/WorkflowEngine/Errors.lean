import WorkflowEngine.Lib.Json

/-!
# Application errors

`AppError` is the structured error of `src/lib/utils.py`.  `PyError` is what
an `except Exception` clause can catch: an application error, or any other
exception, of which only the class and the text matter.
-/

namespace WorkflowEngine

open Py

/-- The machine-readable codes that the modelled functions raise. -/
inductive ErrorCode where
  | noSteps
  | tooManySteps
  | unknownStepType
  | duplicateStepId
  | invalidDependency
  | cycleDetected
  | maxDepthExceeded
  | expressionError
  | validationError
  | invalidTransition
  | notFound
  | workflowInactive
  | stepConfigError
  | httpStepError
  | httpStepTimeout
  | invalidSignature
  | replayDisabled
  | payloadTooLarge
  | unsupportedStepType
  | invalidCursor
  | registrationDisabled
  deriving DecidableEq, Repr

/-- `AppError` of `src/lib/utils.py`. -/
structure AppError where
  code : ErrorCode
  message : String
  statusCode : Nat
  details : List (Dict String Json) := []

/-- An exception that `except Exception` catches. -/
inductive PyError where
  | app (error : AppError)
  | other (cls message : String)

/-- `str(exc)`. -/
def PyError.str : PyError → String
  | app error => error.message
  | other _ message => message

/-- The `AttributeError` of a value of another type. -/
def noAttribute (value : Json) (name : String) : PyError :=
  .other "AttributeError" ("'" ++ value.typeName ++ "' object has no attribute '" ++ name ++ "'")

/-- What ends a program early: an exception, or the end of the fuel of the
model, which no `except` clause catches. -/
inductive Raised where
  | exception (error : PyError)
  | outOfFuel

/-- The `AppError` a function raises. -/
def Raised.app (error : AppError) : Raised := .exception (.app error)

end WorkflowEngine
