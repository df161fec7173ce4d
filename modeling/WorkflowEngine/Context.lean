import WorkflowEngine.State

/-!
# The shared execution context

`src/engine/context.py`.  `merge_step_output` reads the context attribute of
the mapped execution, builds a new dictionary and assigns it.
-/

namespace WorkflowEngine

open Py Orm

/-- Two members are a key and its value. -/
def pairOf (index : Nat) : List Json → Except PyError (Json × Json)
  | [key, value] =>
    if key.hashable then .ok (key, value)
    else .error (.other "TypeError" (Json.unhashableText [key]))
  | items => .error (.other "ValueError" ("dictionary update sequence element #" ++ toString index ++
      " has length " ++ toString items.length ++ "; 2 is required"))

/-- The pair that `dict` makes of an item: its members are those that iterating over it yields. -/
def pairAt (index : Nat) : Json → Except PyError (Json × Json)
  | .arr items => pairOf index items
  | .str text => pairOf index (text.toList.map fun c => .str (String.singleton c))
  | .obj fields => pairOf index (fields.map fun field => .str field.1)
  | _ => .error (.other "TypeError" ("cannot convert dictionary update sequence element #" ++
      toString index ++ " to a sequence"))

/-- `d[key] = value`, where an equal key stays as it is. -/
def setPair (key value : Json) : List (Json × Json) → List (Json × Json)
  | [] => [(key, value)]
  | (k, v) :: rest => if k.eq key then (k, value) :: rest else (k, v) :: setPair key value rest

/-- A key as it is written into a JSON column. -/
def keyText : Json → String
  | .null => "null"
  | .bool b => if b then "true" else "false"
  | key => key.pyStr

/-- `dict(items)`, with the pairs so far. -/
def dictFrom (index : Nat) : List Json → List (Json × Json) → Except PyError (Dict String Json)
  | [], pairs => .ok (Dict.ofItems (pairs.map fun pair => (keyText pair.1, pair.2)))
  | item :: items, pairs => do
    let pair ← pairAt index item
    dictFrom (index + 1) items (setPair pair.1 pair.2 pairs)

/-- `dict(value)`.  The keys are texts, as in the column that the dictionary is written to. -/
def dictOf : Json → Except PyError (Dict String Json)
  | .obj fields => .ok fields
  | .arr items => dictFrom 0 items []
  | .str text =>
    if text = "" then .ok []
    else .error (.other "ValueError"
      "dictionary update sequence element #0 has length 1; 2 is required")
  | value => .error (.other "TypeError" value.notIterableText)

-- a pair, a string of two letters, and a key that is there already
example : dictOf (.arr [.arr [.int 1, .null], .str "ab", .arr [.bool true, .str "x"]]) =
    .ok [("1", .str "x"), ("a", .str "b")] := rfl

/-- The context with the output of one more step. -/
def mergedContext (context : Dict String Json) (stepId : String) (output : Dict String Json) :
    Except PyError (Dict String Json) := do
  let steps ← dictOf (Dict.getD context "steps" (.obj []))
  return Dict.set context "steps" (.obj (Dict.set steps stepId (.obj [("output", .obj output)])))

/-- `merge_step_output`. -/
def mergeStepOutput (id : Uuid) (stepId : String) (output : Dict String Json) : Prog Unit := do
  match ← selectExecution id (fun _ => true) with
  | none => raiseApp executionNotFound
  | some execution =>
    let ctx ← liftExcept (mergedContext execution.context stepId output)
    let _ ← touchContext id (Tracked.assign ctx)
    let _ ← flushContext id

/-- The entry of a completed step in the context. -/
def stepEntry (output : Dict String Json) : Json := .obj [("output", .obj output)]

/-- `get_step_input`. -/
def getStepInput (context : Dict String Json) : Vars :=
  [("steps", .json (Dict.getD context "steps" (.obj []))),
    ("trigger", .json (Dict.getD context "trigger" (.obj [])))]

end WorkflowEngine
