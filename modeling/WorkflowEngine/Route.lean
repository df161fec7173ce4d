import WorkflowEngine.Run

/-!
# The routes through a workflow

Which steps a run executes and which it skips depends only on the results of
the condition steps.  A *choice* gives every condition step a result, and
`route` is the path that the choice leads along: the steps in topological
order, each with whether it is executed.  The route stops at a condition step
whose branch is not a set of steps.

The route is a function of the workflow alone.  `Run.route_eq` says that every
run follows the route of the results that its condition steps produced, and
`steer` is an executor behaviour that produces any given results.
-/

namespace WorkflowEngine

open Py Orm Interact SkipWalk

/-- The route over the rest of an order. -/
def routeFrom (steps : List StepDefinition) (choice : String → Bool) :
    List String → List String → List (String × Bool)
  | [], _ => []
  | s :: order, skipped =>
    if s ∈ skipped then (s, false) :: routeFrom steps choice order skipped
    else
      match Dict.get? (stepDefs steps) s with
      | some step =>
        if step.type = .condition then
          match branchSet (branchOf step (!choice s)) with
          | .ok members => (s, true) :: routeFrom steps choice order (skipped ++ members)
          | .error _ => [(s, true)]
        else (s, true) :: routeFrom steps choice order skipped
      | none => []

/-- The route through a workflow. -/
def route (steps : List StepDefinition) (choice : String → Bool) : List (String × Bool) :=
  routeFrom steps choice (topologicalSort steps) []

/-- The route of a choice executes the step. -/
def Executes (steps : List StepDefinition) (choice : String → Bool) (s : String) : Prop :=
  (s, true) ∈ route steps choice

instance (steps : List StepDefinition) (choice : String → Bool) (s : String) :
    Decidable (Executes steps choice s) :=
  inferInstanceAs (Decidable ((s, true) ∈ route steps choice))

/-- A visited step, with whether it was executed. -/
def executed (entry : String × Ending (Dict String Json)) : String × Bool :=
  (entry.1,
    match entry.2 with
    | .skipped => false
    | _ => true)

/-- The choice agrees with the results of the completed condition steps. -/
def Agrees (choice : String → Bool) (log : StepLog) : Prop :=
  ∀ s output, (s, .completed output) ∈ log → choice s = conditionResult (some output)

/-- The results that the condition steps of a log produced. -/
def choiceOf (log : StepLog) (s : String) : Bool :=
  match Dict.get? log s with
  | some (.completed output) => conditionResult (some output)
  | _ => true

theorem agrees_choiceOf {log : StepLog} (hkeys : (Dict.keys log).Nodup) :
    Agrees (choiceOf log) log := by
  intro s output hmem
  simp [choiceOf, Dict.get?_of_mem hkeys hmem]

section

variable {p : RunPlan} {choice : String → Bool}

/-- A walk whose visits all settle follows the route. -/
theorem routeFrom_eq {front rest : StepLog} {later : List String}
    (hwalk : Walk (branchDrops p.steps) (front ++ rest)) (halive : Alive rest)
    (hmem : ∀ s ∈ Dict.keys rest, s ∈ p.steps.map (·.id))
    (hsettles : ∀ entry ∈ rest, Settles p entry) (hagrees : Agrees choice rest) :
    routeFrom p.steps choice (Dict.keys rest ++ later) (dropped (branchDrops p.steps) front) =
      rest.map executed ++
        routeFrom p.steps choice later (dropped (branchDrops p.steps) (front ++ rest)) := by
  induction rest generalizing front with
  | nil => simp [Dict.keys]
  | cons entry rest ih =>
    obtain ⟨s, ending⟩ := entry
    obtain ⟨step, hstep, hid⟩ := List.mem_map.mp (hmem s (by simp [Dict.keys]))
    have hskipped := hwalk.skipped_iff
    have hrest : routeFrom p.steps choice (Dict.keys rest ++ later)
        (dropped (branchDrops p.steps) (front ++ [(s, ending)])) =
        rest.map executed ++ routeFrom p.steps choice later
          (dropped (branchDrops p.steps) (front ++ (s, ending) :: rest)) := by
      have happend : front ++ (s, ending) :: rest = (front ++ [(s, ending)]) ++ rest := by simp
      rw [happend] at hwalk ⊢
      exact ih hwalk (fun e he => halive e (by simp [he]))
        (fun s' hs' => hmem s' (by simp only [Dict.keys] at hs' ⊢; simp [hs']))
        (fun e he => hsettles e (by simp [he]))
        (fun s' output he => hagrees s' output (by simp [he]))
    have hkeys : Dict.keys ((s, ending) :: rest) ++ later = s :: (Dict.keys rest ++ later) := rfl
    rw [hkeys, routeFrom]
    cases ending with
    | failed => exact absurd rfl (halive (s, .failed) (by simp))
    | skipped =>
      rw [if_pos (hskipped.mp rfl)]
      rw [dropped_append, dropped_skipped, List.append_nil] at hrest
      simp [executed, hrest]
    | completed output =>
      have hnot : s ∉ dropped (branchDrops p.steps) front := fun h => by
        simpa using hskipped.mpr h
      have hget : Dict.get? (stepDefs p.steps) s = some step := by
        rw [← hid]
        exact p.accepted.stepDefs_get hstep
      have hdrops := branchDrops_step hstep output
      rw [hid] at hdrops
      rw [dropped_append, dropped_completed, hdrops] at hrest
      rw [if_neg hnot]
      simp only [hget]
      by_cases hcondition : step.type = .condition
      · obtain ⟨members, hset⟩ := hsettles (s, .completed output) (by simp) step hstep hid
          hcondition output rfl
        have hbranch : branchSet (branchOf step (!choice s)) = .ok members := by
          rw [hagrees s output (by simp)]
          exact hset
        rw [if_pos hcondition, hset] at hrest
        rw [if_pos hcondition, hbranch]
        simp [executed, hrest]
      · rw [if_neg hcondition, List.append_nil] at hrest
        rw [if_neg hcondition]
        simp [executed, hrest]

/-- A step that is not dropped is the next one that the route executes. -/
theorem mem_routeFrom_head {s : String} {order skipped : List String}
    (hs : s ∈ p.steps.map (·.id)) (hnot : s ∉ skipped) :
    (s, true) ∈ routeFrom p.steps choice (s :: order) skipped := by
  obtain ⟨step, hstep, rfl⟩ := List.mem_map.mp hs
  rw [routeFrom, if_neg hnot]
  simp only [p.accepted.stepDefs_get hstep]
  split
  · split <;> simp
  · simp

end

namespace Run

variable {p : RunPlan} {log : StepLog} {invs : List Invocation} {b : Board}
  {result : Except Raised Unit} {choice : String → Bool}

/-- The front of a run, as far as its visits settle, is the front of the route
of the results. -/
theorem route_eq (h : Run p log invs b result) {front back : StepLog} (hlog : log = front ++ back)
    (halive : Alive front) (hsettles : ∀ entry ∈ front, Settles p entry)
    (hagrees : Agrees choice front) :
    ∃ later, topologicalSort p.steps = Dict.keys front ++ (Dict.keys back ++ later) ∧
      route p.steps choice = front.map executed ++
        routeFrom p.steps choice (Dict.keys back ++ later)
          (dropped (branchDrops p.steps) front) := by
  obtain ⟨later, horder⟩ := h.order
  subst hlog
  have hsplit : topologicalSort p.steps = Dict.keys front ++ (Dict.keys back ++ later) := by
    simpa [Dict.keys] using horder
  refine ⟨later, hsplit, ?_⟩
  have hkeys : ∀ s ∈ Dict.keys front, s ∈ p.steps.map (·.id) :=
    fun s hs => h.mem_ids (by simp [Dict.keys_append, hs])
  rw [route, hsplit]
  have hwalk : Walk (branchDrops p.steps) ([] ++ front) := h.walk.of_append
  exact routeFrom_eq hwalk halive hkeys hsettles hagrees

/-- What stands before an entry of a run is alive and settled. -/
theorem front_settled (h : Run p log invs b result) {front back : StepLog}
    {entry : String × Ending (Dict String Json)} (hlog : log = front ++ entry :: back) :
    Alive front ∧ ∀ e ∈ front, Settles p e := by
  have hwalk : Walk (branchDrops p.steps) ((front ++ [entry]) ++ back) := by
    simpa [← hlog] using h.walk
  refine ⟨hwalk.of_append.alive_front, fun e he => ?_⟩
  -- Only the last entry of a log may not settle, and `e` is not the last one.
  have hlast : ∀ {init : StepLog} {last : String × Ending (Dict String Json)},
      log = init ++ [last] → e ∈ init := by
    intro init last heq
    rcases List.eq_nil_or_concat back with rfl | ⟨back', x, rfl⟩
    · rw [hlog] at heq
      exact (List.append_inj_left' heq rfl) ▸ he
    · have hsplit : (front ++ entry :: back') ++ [x] = init ++ [last] := by
        rw [← heq, hlog]
        simp
      exact (List.append_inj_left' hsplit rfl) ▸ List.mem_append_left _ he
  cases h.ends with
  | completed _ _ settles _ => exact settles e (by simp [hlog, he])
  | failed init s last settles _ => exact settles e (hlast last)
  | stuck init step output err last _ _ _ settles _ => exact settles e (hlast last)

/-- A step that ran is executed by the route. -/
theorem executes (h : Run p log invs b result) {s : String}
    {ending : Ending (Dict String Json)} (hmem : (s, ending) ∈ log) (hran : ending ≠ .skipped)
    (hagrees : Agrees choice log) : Executes p.steps choice s := by
  obtain ⟨front, back, hlog⟩ := List.append_of_mem hmem
  obtain ⟨halive, hsettles⟩ := h.front_settled hlog
  obtain ⟨later, -, hroute⟩ := h.route_eq hlog halive hsettles
    (fun s' output hs' => hagrees s' output (by simp [hlog, hs']))
  have hnot : s ∉ dropped (branchDrops p.steps) front := fun hdropped =>
    hran ((hlog ▸ h.walk).skipped_iff.mpr hdropped)
  have hs : s ∈ p.steps.map (·.id) := h.mem_ids (by simp [hlog, Dict.keys])
  rw [Executes, hroute]
  exact List.mem_append_right _ (mem_routeFrom_head hs hnot)

end Run

/-- The behaviour that lets every call succeed with the chosen result. -/
def steer (choice : String → Bool) : Behaviour := fun _ call =>
  .ok [("result", .bool (choice call.step.id))]

theorem conditionResult_steer (result : Bool) :
    conditionResult (some [("result", .bool result)]) = result := rfl

/-- With a steered behaviour, an arbitrary executor gives the chosen result. -/
theorem yields_steer {session : SessionRef} {choice : String → Bool} {step : StepDefinition}
    {ctx : Dict String Json} {result : Except PyError (Dict String Json)}
    (h : Yields performer session (steer choice) step ctx result) :
    result = .ok [("result", .bool (choice step.id))] := by
  obtain ⟨caller, w, hw, hresult⟩ := h
  have hrun : (performer caller step (stepInput session ctx)).run w =
      ((w.env.behaviour w.env.events ⟨step, stepInput session ctx⟩).mapError Raised.exception,
        w) := by
    rw [performer, Prog.run_bind_ok (run_perform _ _)]
    rfl
  rw [hrun, hw] at hresult
  cases result with
  | ok output =>
    cases hresult
    rfl
  | error e => cases hresult

section

variable {p : RunPlan} {log : StepLog} {invs : List Invocation} {b : Board}
  {result : Except Raised Unit} {choice : String → Bool}

/-- In a steered run no step fails, and each completed one has the chosen
result. -/
theorem Run.steered (h : Run p log invs b result) (hrunner : p.runner = performer)
    (hbehaviour : p.behaviour = steer choice) :
    Alive log ∧ ∀ s output, (s, .completed output) ∈ log →
      output = [("result", .bool (choice s))] := by
  have hvisit : ∀ entry ∈ log, entry.2 ≠ .failed ∧ ∀ output, entry.2 = .completed output →
      output = [("result", .bool (choice entry.1))] := by
    rintro ⟨s, ending⟩ hmem
    obtain ⟨mid, post, rfl⟩ := List.append_of_mem hmem
    obtain ⟨step, invs', rfl, hvisit, -⟩ := h.visits.visit
    constructor
    · intro hfailed
      obtain ⟨e, hyields⟩ := hvisit.failed hfailed
      rw [hrunner, hbehaviour] at hyields
      cases yields_steer hyields
    · intro output hcompleted
      have hyields := hvisit.completed output hcompleted
      rw [hrunner, hbehaviour] at hyields
      cases yields_steer hyields
      rfl
  exact ⟨fun entry hmem => (hvisit entry hmem).1,
    fun s output hmem => (hvisit _ hmem).2 output rfl⟩

theorem Run.agrees_steered (h : Run p log invs b result) (hrunner : p.runner = performer)
    (hbehaviour : p.behaviour = steer choice) : Agrees choice log := by
  intro s output hmem
  rw [(h.steered hrunner hbehaviour).2 s output hmem, conditionResult_steer]

/-- A steered run follows the whole route of the choice. -/
theorem Run.route_steered (h : Run p log invs b result) (hrunner : p.runner = performer)
    (hbehaviour : p.behaviour = steer choice) :
    route p.steps choice = log.map executed := by
  obtain ⟨halive, houtput⟩ := h.steered hrunner hbehaviour
  have hagrees := h.agrees_steered hrunner hbehaviour
  cases h.ends with
  | failed front s last _ _ => exact absurd rfl (halive (s, .failed) (by simp [last]))
  | completed all _ settles _ =>
    obtain ⟨later, horder, hroute⟩ :=
      h.route_eq (List.append_nil log).symm halive settles hagrees
    have hlater : later = [] := by
      have hlength := congrArg List.length horder
      rw [all] at hlength
      simp only [Dict.keys, List.map_nil, List.nil_append, List.length_append] at hlength
      exact List.length_eq_zero_iff.mp (by omega)
    rw [hroute, hlater]
    simp [Dict.keys, routeFrom]
  | stuck front step output e last mem condition unset settles _ =>
    -- The route stops where the run does.
    have hlog : log = front ++ (step.id, .completed output) :: [] := last
    have hwalk : Walk (branchDrops p.steps) (front ++ (step.id, .completed output) :: []) :=
      hlog ▸ h.walk
    obtain ⟨later, -, hroute⟩ := h.route_eq hlog hwalk.alive_front settles
      (fun s o hs => hagrees s o (by simp [last, hs]))
    have hnot : step.id ∉ dropped (branchDrops p.steps) front := by
      intro hdropped
      cases hwalk.skipped_iff.mpr hdropped
    have hunset : branchSet (branchOf step (!choice step.id)) = .error e := by
      rw [hagrees step.id output (by simp [last])]
      exact unset
    have hstop : ∀ order, routeFrom p.steps choice (step.id :: order)
        (dropped (branchDrops p.steps) front) = [(step.id, true)] := by
      intro order
      rw [routeFrom, if_neg hnot]
      simp only [p.accepted.stepDefs_get mem, condition, if_true, hunset]
    rw [hroute, last]
    simp [Dict.keys, hstop, executed]

/-- In a steered run, the steps that the route executes complete. -/
theorem Run.completed_of_executes (h : Run p log invs b result) (hrunner : p.runner = performer)
    (hbehaviour : p.behaviour = steer choice) {s : String} (hs : Executes p.steps choice s) :
    (s, .completed [("result", .bool (choice s))]) ∈ log := by
  obtain ⟨halive, houtput⟩ := h.steered hrunner hbehaviour
  rw [Executes, h.route_steered hrunner hbehaviour] at hs
  obtain ⟨⟨s', ending⟩, hmem, heq⟩ := List.mem_map.mp hs
  simp only [executed, Prod.mk.injEq] at heq
  obtain ⟨rfl, hran⟩ := heq
  cases ending with
  | completed output =>
    rw [← houtput s' output hmem]
    exact hmem
  | skipped => cases hran
  | failed => exact absurd rfl (halive _ hmem)

end

end WorkflowEngine
