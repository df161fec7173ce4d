import Mathlib.Tactic.Ring
import WorkflowEngine.Models

/-!
# The dependency graph

`src/engine/graph.py`, and `_topological_sort` of `src/engine/orchestrator.py`,
which works on the same graph.  A graph is a dictionary from a step id to the
list of its dependencies.

The `while` loops and the recursion of the depth-first search take fuel.
`WorkflowEngine.TopologicalSort` and `WorkflowEngine.Cycles` prove that the
fuel that the callers pass is never used up.
-/

namespace WorkflowEngine

open Py

/-- A dependency graph: the dependencies of each step. -/
abbrev Graph := Dict String (List String)

/-- `MAX_DEPTH`. -/
def maxDepth : Nat := 20

/-- `d[key].append(value)` on a `defaultdict(list)`. -/
def appendTo (d : Dict String (List String)) (key value : String) : Dict String (List String) :=
  Dict.set d key (Dict.getD d key [] ++ [value])

/-- `build_dependency_graph`. -/
def buildDependencyGraph (steps : List StepDefinition) : Graph :=
  Dict.ofItems (steps.map (fun step => (step.id, step.dependsOn)))

theorem getD_appendTo (d : Dict String (List String)) (key value k : String) :
    Dict.getD (appendTo d key value) k [] =
      Dict.getD d k [] ++ if key = k then [value] else [] := by
  rw [appendTo, Dict.getD_set]
  split
  · rename_i heq
    rw [heq]
  · simp

/-! ## Cycle detection -/

/-- The colors of the depth-first search. -/
inductive Color where
  | white
  | gray
  | black
  deriving DecidableEq

/-- The two dictionaries of `detect_cycles`. -/
structure DfsState where
  color : Dict String Color
  parent : Dict String (Option String)

/-- `color[node]`. -/
def DfsState.colorOf (st : DfsState) (node : String) : Color := Dict.getD st.color node .white

/-- `color[node] = c`. -/
def DfsState.paint (st : DfsState) (node : String) (c : Color) : DfsState :=
  { st with color := Dict.set st.color node c }

/-- The `while` loop of `_reconstruct_cycle`. -/
def reconstructPath (parent : Dict String (Option String)) (toNode : String) :
    Nat → String → List String → List String
  | 0, _, path => path
  | fuel + 1, current, path =>
    if current = toNode then path
    else
      match Dict.get? parent current with
      | some (some next) => reconstructPath parent toNode fuel next (path ++ [current])
      | some none => path ++ [current]
      | none => path ++ [current]

/-- `_reconstruct_cycle`. -/
def reconstructCycle (parent : Dict String (Option String)) (fromNode toNode : String) :
    List String :=
  (reconstructPath parent toNode (parent.length + 1) fromNode [toNode] ++ [toNode]).reverse

/-- The loop of `dfs` over the children of `node`. -/
def forChildren (dfs : String → DfsState → Option (List String) × DfsState) (node : String) :
    List String → DfsState → Option (List String) × DfsState
  | [], st => (none, st)
  | child :: rest, st =>
    match st.colorOf child with
    | .gray => (some (reconstructCycle st.parent node child), st)
    | .white =>
      match dfs child { st with parent := Dict.set st.parent child (some node) } with
      | (some cycle, st) => (some cycle, st)
      | (none, st) => forChildren dfs node rest st
    | .black => forChildren dfs node rest st

/-- `dfs`. -/
def dfs (children : Dict String (List String)) :
    Nat → String → DfsState → Option (List String) × DfsState
  | 0, _, st => (none, st)
  | fuel + 1, node, st =>
    match forChildren (dfs children fuel) node (Dict.getD children node [])
        (st.paint node .gray) with
    | (some cycle, st) => (some cycle, st)
    | (none, st) => (none, st.paint node .black)

/-- `children`: for each node, who depends on it. -/
def childrenOf (graph : Graph) : Dict String (List String) :=
  graph.foldl (fun children item =>
    item.2.foldl (fun children dep => appendTo children dep item.1) children) []

/-- The `AppError` of `detect_cycles`. -/
def cycleError (cycle : List String) : AppError where
  code := .cycleDetected
  message := "Cycle detected in workflow: " ++ " -> ".intercalate cycle
  statusCode := 400
  details := [[("cycle", .arr (cycle.map .str))]]

/-- The loop of `detect_cycles` over the nodes. -/
def detectFrom (children : Dict String (List String)) (fuel : Nat) :
    List String → DfsState → Except AppError Unit
  | [], _ => .ok ()
  | node :: rest, st =>
    if st.colorOf node = .white then
      match dfs children fuel node st with
      | (some cycle, _) => .error (cycleError cycle)
      | (none, st) => detectFrom children fuel rest st
    else detectFrom children fuel rest st

/-- `detect_cycles`. -/
def detectCycles (graph : Graph) : Except AppError Unit :=
  detectFrom (childrenOf graph) (graph.length + 1) (Dict.keys graph)
    ⟨graph.map (fun item => (item.1, .white)), graph.map (fun item => (item.1, none))⟩

/-! ## In-degrees and the longest chain -/

/-- The body of the inner loop over `deps`: it adds one edge and counts it. -/
def addDependency (node : String) (st : Dict String (List String) × Dict String Int)
    (dep : String) : Dict String (List String) × Dict String Int :=
  (appendTo st.1 dep node, Dict.set st.2 node (Dict.getD st.2 node 0 + 1))

/-- The loop that builds the forward edges and the in-degrees. -/
def linkDependencies (items : List (String × List String))
    (st : Dict String (List String) × Dict String Int) :
    Dict String (List String) × Dict String Int :=
  items.foldl (fun st item =>
    item.2.foldl (addDependency item.1) (st.1, Dict.setdefault st.2 item.1 0)) st

/-- `in_degree[child] -= 1`, and the child joins the queue at zero. -/
def release (st : List String × Dict String Int) (child : String) :
    List String × Dict String Int :=
  let degree := Dict.getD st.2 child 0 - 1
  (if degree = 0 then st.1 ++ [child] else st.1, Dict.set st.2 child degree)

/-- The body of the inner loop of `validate_max_depth`. -/
def deepen (current : String) (st : (List String × Dict String Int) × Dict String Nat)
    (child : String) : (List String × Dict String Int) × Dict String Nat :=
  let newDepth := Dict.getD st.2 current 0 + 1
  (release st.1 child, Dict.set st.2 child (max (Dict.getD st.2 child 0) newDepth))

/-- The `while` loop of `validate_max_depth`. -/
def depthLoop (forward : Dict String (List String)) :
    Nat → List String → Dict String Int → Dict String Nat → Dict String Nat
  | 0, _, _, depth => depth
  | _ + 1, [], _, depth => depth
  | fuel + 1, current :: queue, inDegree, depth =>
    let st := (Dict.getD forward current []).foldl (deepen current) ((queue, inDegree), depth)
    depthLoop forward fuel st.1.1 st.1.2 st.2

/-- The nodes whose in-degree is zero, in the order of the dictionary. -/
def sources (inDegree : Dict String Int) : List String :=
  Dict.keys (inDegree.filter (fun item => item.2 = 0))

/-- `max_found`. -/
def longestChain (graph : Graph) : Nat :=
  let st := linkDependencies graph ([], graph.map (fun item => (item.1, 0)))
  let queue := sources st.2
  let depth := depthLoop st.1 graph.length queue st.2 (queue.map (fun node => (node, 0)))
  (depth.map Prod.snd).foldl max 0

/-- `validate_max_depth`. -/
def validateMaxDepth (graph : Graph) : Except AppError Unit :=
  let maxFound := longestChain graph
  if maxFound ≥ maxDepth then
    .error {
      code := .maxDepthExceeded
      message := "Workflow depth is " ++ toString (maxFound + 1) ++
        ", exceeding the maximum of " ++ toString maxDepth ++ "."
      statusCode := 400
      details := [[("max_depth", .int maxDepth), ("actual_depth", .int (maxFound + 1))]] }
  else .ok ()

/-! ## The topological order -/

/-- The `while` loop of `_topological_sort`. -/
def topologicalLoop (graph : Dict String (List String)) :
    Nat → List String → Dict String Int → List String → List String
  | 0, _, _, result => result
  | _ + 1, [], _, result => result
  | fuel + 1, node :: queue, inDegree, result =>
    let st := (Dict.getD graph node []).foldl release (queue, inDegree)
    topologicalLoop graph fuel st.1 st.2 (result ++ [node])

/-- `_topological_sort`. -/
def topologicalSort (steps : List StepDefinition) : List String :=
  let st := linkDependencies (steps.map (fun step => (step.id, step.dependsOn))) ([], [])
  topologicalLoop st.1 steps.length (sources st.2) st.2 []

/-! ## The edges of a graph

Both passes over the dependencies build the same edges, from a node to those
that depend on it. -/

/-- The nodes that depend on `d`, one for each time they name it. -/
def dependents (graph : Graph) (d : String) : List String :=
  graph.flatMap (fun item => (item.2.filter (· = d)).map (fun _ => item.1))

theorem dependents_cons (node : String) (deps : List String) (graph : Graph) (d : String) :
    dependents ((node, deps) :: graph) d =
      (deps.filter (· = d)).map (fun _ => node) ++ dependents graph d := rfl

theorem mem_dependents {graph : Graph} {d v : String} :
    v ∈ dependents graph d ↔ ∃ deps, (v, deps) ∈ graph ∧ d ∈ deps := by
  constructor
  · intro h
    obtain ⟨⟨node, deps⟩, hitem, hv⟩ := List.mem_flatMap.mp h
    obtain ⟨d', hd', rfl⟩ := List.mem_map.mp hv
    obtain ⟨hmem, heq⟩ := List.mem_filter.mp hd'
    exact ⟨deps, hitem, by simpa [of_decide_eq_true heq] using hmem⟩
  · rintro ⟨deps, hitem, hd⟩
    refine List.mem_flatMap.mpr ⟨(v, deps), hitem, List.mem_map.mpr ⟨d, ?_, rfl⟩⟩
    exact List.mem_filter.mpr ⟨hd, by simp⟩

/-- A node occurs among the dependents of `d` as often as it names `d`. -/
theorem count_dependents {graph : Graph} (hkeys : (Dict.keys graph).Nodup) (d v : String) :
    (dependents graph d).count v = (Dict.getD graph v []).count d := by
  induction graph with
  | nil => rfl
  | cons item graph ih =>
    obtain ⟨node, deps⟩ := item
    simp only [Dict.keys, List.map_cons, List.nodup_cons] at hkeys
    rw [dependents_cons, List.count_append, ih hkeys.2, List.map_const', List.count_replicate]
    by_cases hv : node = v
    · subst hv
      have hnone : Dict.getD graph node [] = [] := Dict.getD_of_not_mem hkeys.1 []
      rw [hnone]
      simp [Dict.getD, Dict.get?_cons, List.count_eq_length_filter, beq_eq_decide]
    · simp [hv, Dict.getD, Dict.get?_cons]

private theorem getD_foldl_appendTo (node : String) (deps : List String)
    (children : Dict String (List String)) (d : String) :
    Dict.getD (deps.foldl (fun children dep => appendTo children dep node) children) d [] =
      Dict.getD children d [] ++ (deps.filter (· = d)).map (fun _ => node) := by
  induction deps generalizing children with
  | nil => simp
  | cons dep deps ih =>
    rw [List.foldl_cons, ih, getD_appendTo]
    by_cases hdep : dep = d
    · simp [hdep]
    · simp [hdep]

theorem getD_childrenOf (graph : Graph) (d : String) :
    Dict.getD (childrenOf graph) d [] = dependents graph d := by
  have hfold : ∀ children, Dict.getD (graph.foldl (fun children item =>
      item.2.foldl (fun children dep => appendTo children dep item.1) children) children) d [] =
      Dict.getD children d [] ++ dependents graph d := by
    induction graph with
    | nil => simp [dependents]
    | cons item graph ih =>
      intro children
      rw [List.foldl_cons, ih, getD_foldl_appendTo, dependents_cons, List.append_assoc]
  simpa [childrenOf, Dict.getD] using hfold []

private theorem foldl_addDependency (node : String) (deps : List String)
    (st : Dict String (List String) × Dict String Int) (hnode : node ∈ Dict.keys st.2) :
    let st' := deps.foldl (addDependency node) st
    (∀ d, Dict.getD st'.1 d [] =
      Dict.getD st.1 d [] ++ (deps.filter (· = d)).map (fun _ => node)) ∧
    (∀ v, Dict.getD st'.2 v 0 = Dict.getD st.2 v 0 + if node = v then deps.length else 0) ∧
    Dict.keys st'.2 = Dict.keys st.2 := by
  induction deps generalizing st with
  | nil => simp
  | cons dep deps ih =>
    have hkeys : Dict.keys (addDependency node st dep).2 = Dict.keys st.2 := by
      simp [addDependency, Dict.keys_set, hnode]
    obtain ⟨hfst, hsnd, hkeys'⟩ := ih (addDependency node st dep) (by rwa [hkeys])
    refine ⟨fun d => ?_, fun v => ?_, hkeys'.trans hkeys⟩
    · rw [List.foldl_cons, hfst, addDependency, getD_appendTo]
      by_cases hdep : dep = d
      · simp [hdep]
      · simp [hdep]
    · rw [List.foldl_cons, hsnd, addDependency, Dict.getD_set]
      by_cases hv : node = v
      · simp only [hv, if_true, List.length_cons, Nat.cast_add, Nat.cast_one]
        ring
      · simp [hv]

/-- The edges that `linkDependencies` adds. -/
theorem linkDependencies_edges (items : List (String × List String))
    (st : Dict String (List String) × Dict String Int) (d : String) :
    Dict.getD (linkDependencies items st).1 d [] =
      Dict.getD st.1 d [] ++ dependents items d := by
  induction items generalizing st with
  | nil => simp [linkDependencies, dependents]
  | cons item items ih =>
    have hnode : item.1 ∈ Dict.keys (Dict.setdefault st.2 item.1 0) := by
      rw [Dict.keys_setdefault]
      split <;> simp_all
    have hstep := (foldl_addDependency item.1 item.2
      (st.1, Dict.setdefault st.2 item.1 0) hnode).1 d
    have hrest := ih (item.2.foldl (addDependency item.1) (st.1, Dict.setdefault st.2 item.1 0))
    rw [hstep] at hrest
    exact hrest.trans (List.append_assoc _ _ _)

/-- The in-degrees that `linkDependencies` counts, for distinct nodes. -/
theorem linkDependencies_degree {items : List (String × List String)}
    (hkeys : (Dict.keys items).Nodup) (st : Dict String (List String) × Dict String Int)
    (v : String) :
    Dict.getD (linkDependencies items st).2 v 0 =
      Dict.getD st.2 v 0 + (Dict.getD items v []).length := by
  induction items generalizing st with
  | nil => simp [linkDependencies, Dict.getD]
  | cons item items ih =>
    obtain ⟨node, deps⟩ := item
    simp only [Dict.keys, List.map_cons, List.nodup_cons] at hkeys
    have hnode : node ∈ Dict.keys (Dict.setdefault st.2 node 0) := by
      rw [Dict.keys_setdefault]
      split <;> simp_all
    have hstep := (foldl_addDependency node deps
      (st.1, Dict.setdefault st.2 node 0) hnode).2.1 v
    have hrest := ih hkeys.2 (deps.foldl (addDependency node) (st.1, Dict.setdefault st.2 node 0))
    rw [hstep, Dict.getD_setdefault] at hrest
    have hfold : linkDependencies ((node, deps) :: items) st = linkDependencies items
        (deps.foldl (addDependency node) (st.1, Dict.setdefault st.2 node 0)) := rfl
    rw [hfold, hrest]
    by_cases hv : node = v
    · subst hv
      have hnone : Dict.getD items node [] = [] := Dict.getD_of_not_mem hkeys.1 []
      rw [hnone]
      simp [Dict.getD, Dict.get?_cons]
    · simp [hv, Dict.getD, Dict.get?_cons]

/-- The nodes that `linkDependencies` counts, for distinct new nodes. -/
theorem linkDependencies_keys {items : List (String × List String)}
    {st : Dict String (List String) × Dict String Int}
    (hkeys : (Dict.keys st.2 ++ Dict.keys items).Nodup) :
    Dict.keys (linkDependencies items st).2 = Dict.keys st.2 ++ Dict.keys items := by
  induction items generalizing st with
  | nil => simp [linkDependencies, Dict.keys]
  | cons item items ih =>
    obtain ⟨node, deps⟩ := item
    have hnew : node ∉ Dict.keys st.2 := by
      intro hmem
      exact (List.nodup_append.mp hkeys).2.2 node hmem node (by simp [Dict.keys]) rfl
    have hset : Dict.keys (Dict.setdefault st.2 node 0) = Dict.keys st.2 ++ [node] := by
      simp [Dict.keys_setdefault, hnew]
    have hstep := (foldl_addDependency node deps
      (st.1, Dict.setdefault st.2 node 0) (by simp [hset])).2.2
    have hfold : linkDependencies ((node, deps) :: items) st = linkDependencies items
        (deps.foldl (addDependency node) (st.1, Dict.setdefault st.2 node 0)) := rfl
    have heq : Dict.keys (deps.foldl (addDependency node)
        (st.1, Dict.setdefault st.2 node 0)).2 = Dict.keys st.2 ++ [node] := hstep.trans hset
    rw [hfold, ih (by rw [heq]; simpa [Dict.keys] using hkeys), heq]
    simp [Dict.keys]

/-- Nodes that are counted already are not added again. -/
theorem linkDependencies_keys_of_subset {items : List (String × List String)}
    {st : Dict String (List String) × Dict String Int}
    (h : Dict.keys items ⊆ Dict.keys st.2) :
    Dict.keys (linkDependencies items st).2 = Dict.keys st.2 := by
  induction items generalizing st with
  | nil => rfl
  | cons item items ih =>
    obtain ⟨node, deps⟩ := item
    obtain ⟨hnode, hrest⟩ := List.cons_subset.mp h
    have hset : Dict.keys (Dict.setdefault st.2 node 0) = Dict.keys st.2 := by
      simp [Dict.keys_setdefault, hnode]
    have hstep := (foldl_addDependency node deps
      (st.1, Dict.setdefault st.2 node 0) (by rw [hset]; exact hnode)).2.2
    have heq := hstep.trans hset
    have hfold : linkDependencies ((node, deps) :: items) st = linkDependencies items
        (deps.foldl (addDependency node) (st.1, Dict.setdefault st.2 node 0)) := rfl
    rw [hfold, ih (by rw [heq]; exact hrest), heq]

end WorkflowEngine
