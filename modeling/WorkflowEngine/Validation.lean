import WorkflowEngine.Plain
import WorkflowEngine.WellFormed

/-!
# What the checks of a definition compute

`_topological_sort`, `detect_cycles`, `validate_max_depth` and the check of the
templates, each on its own and on every input that its callers may hand to it:

* `topologicalSort_order`: the order of the steps, also where there are cycles;
* `detectCycles_exact`: a cycle is found exactly where there is one, and the path
  that is reported is one;
* `validateMaxDepth_exact`: the depth that is reported is that of a longest chain;
* `templatesCovered_iff`: which strings of a config the check of the templates
  leaves out.
-/

namespace WorkflowEngine

open Py Relation

/-! ## The order of the steps -/

/-- `_topological_sort` returns the steps that lead to no cycle, each of them
once and after its dependencies.  In a workflow that `parse_workflow_definition`
accepts these are all steps. -/
theorem topologicalSort_order :
    (∀ steps : List StepDefinition, (steps.map (·.id)).Nodup →
      (∀ step ∈ steps, step.dependsOn ⊆ steps.map (·.id)) →
      (topologicalSort steps).Nodup ∧
        (∀ v, v ∈ topologicalSort steps ↔
          v ∈ steps.map (·.id) ∧ ¬ LeadsToCycle (fun v d => DependsOn steps d v) v) ∧
        ∀ step ∈ steps, ∀ pre post, topologicalSort steps = pre ++ step.id :: post →
          step.dependsOn ⊆ pre) ∧
    ∀ libs settings raw parsed, parseWorkflowDefinition libs settings raw = .ok parsed →
      (topologicalSort parsed.steps).Perm (parsed.steps.map (·.id)) := by
  constructor
  · intro steps hids hsub
    obtain ⟨hnodup, hmem, hlisting⟩ := topologicalSort_takes hids
    refine ⟨hnodup, fun v => ?_, fun step hstep pre post hsplit => ?_⟩
    · have hdeps : (fun v d => d ∈ dependenciesOf steps v) = fun v d => DependsOn steps d v := by
        funext v d
        exact propext (mem_dependenciesOf hids d v)
      have hclosed : ∀ v ∈ steps.map (·.id), dependenciesOf steps v ⊆ steps.map (·.id) :=
        fun v _ => dependenciesOf_subset hids hsub v
      rw [hlisting.mem_iff hclosed hmem v, hdeps]
    · have hbefore := hlisting pre step.id post hsplit
      rwa [dependenciesOf_eq hids hstep] at hbefore
  · intro libs settings raw parsed hparsed
    exact (accepted_of_parse hparsed).order_perm

/-- A step that depends on itself, and one that names its dependency twice. -/
def loopedSteps : List StepDefinition :=
  [plainStep "a" .transform [] ["a"] (by decide), plainStep "b" .transform [] [] (by decide),
    plainStep "c" .transform [] ["b", "b"] (by decide)]

/-- The step on the cycle is left out. -/
theorem topologicalSort_order_looped : topologicalSort loopedSteps = ["b", "c"] ∧
    ∀ v, v ∈ topologicalSort loopedSteps ↔
      v ∈ loopedSteps.map (·.id) ∧ ¬ LeadsToCycle (fun v d => DependsOn loopedSteps d v) v :=
  ⟨by decide, (topologicalSort_order.1 loopedSteps (by decide) (by decide)).2.1⟩

/-! ## Cycles -/

theorem getD_subset_keys {graph : Graph} (hdeps : ∀ item ∈ graph, item.2 ⊆ Dict.keys graph)
    (v : String) : Dict.getD graph v [] ⊆ Dict.keys graph := by
  unfold Dict.getD
  cases hget : Dict.get? graph v with
  | none => exact List.nil_subset _
  | some deps => exact hdeps _ (Dict.mem_of_get? hget)

theorem mem_keys_of_mem_getD {graph : Graph} {d v : String} (h : d ∈ Dict.getD graph v []) :
    v ∈ Dict.keys graph := by
  by_contra hmem
  rw [Dict.getD_of_not_mem hmem] at h
  cases h

/-- `detect_cycles` raises exactly on the graphs with a cycle, and the path that
it reports is one.  Its recursion ends: more fuel changes nothing. -/
theorem detectCycles_exact {graph : Graph} (hkeys : (Dict.keys graph).Nodup)
    (hdeps : ∀ item ∈ graph, item.2 ⊆ Dict.keys graph) :
    ((∃ e, detectCycles graph = .error e) ↔
        ∃ v, TransGen (fun d v => d ∈ Dict.getD graph v []) v v) ∧
      (∀ e, detectCycles graph = .error e → ∃ cycle, e = cycleError cycle ∧
        IsCycle (fun d v => d ∈ Dict.getD graph v []) cycle) ∧
      ∀ fuel, graph.length < fuel → detectFrom (childrenOf graph) fuel (Dict.keys graph)
        ⟨graph.map (fun item => (item.1, .white)), graph.map (fun item => (item.1, none))⟩ =
          detectCycles graph := by
  refine ⟨⟨?_, ?_⟩, fun e he => detectCycles_reports hkeys he,
    fun fuel hfuel => detectCycles_fuel graph hfuel⟩
  · rintro ⟨e, he⟩
    obtain ⟨cycle, -, hcycle⟩ := detectCycles_reports hkeys he
    exact hcycle.leads_back
  · rintro ⟨v, hcycle⟩
    cases hrun : detectCycles graph with
    | error e => exact ⟨e, rfl⟩
    | ok _ =>
      -- What passes has a listing of its nodes, and so no cycle.
      obtain ⟨l, hlisting, -, hall⟩ := listing_of_detectCycles hkeys (getD_subset_keys hdeps) hrun
      have hedges : ∀ x, Dict.getD graph x [] ≠ [] → x ∈ l := by
        intro x hx
        obtain ⟨d, hd⟩ := List.exists_mem_of_ne_nil _ hx
        exact hall (mem_keys_of_mem_getD hd)
      exact absurd hcycle (hlisting.acyclic hedges v)

/-- Three steps in a circle, behind a step that is not on it. -/
def circle : Graph := [("a", []), ("b", ["a", "d"]), ("c", ["b"]), ("d", ["c", "c"])]

/-- The circle is reported. -/
theorem detectCycles_exact_circle :
    detectCycles circle = .error (cycleError ["b", "c", "d", "b"]) ∧
      ∃ cycle, cycleError ["b", "c", "d", "b"] = cycleError cycle ∧
        IsCycle (fun d v => d ∈ Dict.getD circle v []) cycle :=
  ⟨by rfl, (detectCycles_exact (by decide) (by decide)).2.1 _ (by rfl)⟩

/-! ## Depth -/

/-- A chain of two steps or more has only steps of the graph in it. -/
theorem chain_subset_keys {graph : Graph} (hdeps : ∀ item ∈ graph, item.2 ⊆ Dict.keys graph)
    {a b : String} {rest : List String} (h : Chain graph (a :: b :: rest)) :
    a :: b :: rest ⊆ Dict.keys graph := by
  induction rest generalizing a b with
  | nil =>
    have hlink : a ∈ Dict.getD graph b [] := (List.isChain_cons_cons.mp h).1
    exact List.cons_subset.mpr ⟨getD_subset_keys hdeps b hlink,
      List.cons_subset.mpr ⟨mem_keys_of_mem_getD hlink, List.nil_subset _⟩⟩
  | cons c rest ih =>
    obtain ⟨hlink, hrest⟩ := List.isChain_cons_cons.mp h
    exact List.cons_subset.mpr ⟨getD_subset_keys hdeps b hlink, ih hrest⟩

/-- `validate_max_depth` raises exactly on the graphs with a chain of more than
`MAX_DEPTH` steps, and it reports the number of steps on a longest chain. -/
theorem validateMaxDepth_exact {graph : Graph} (hkeys : (Dict.keys graph).Nodup)
    (hdeps : ∀ item ∈ graph, item.2 ⊆ Dict.keys graph)
    (hacyclic : ∀ v, ¬ TransGen (fun d v => d ∈ Dict.getD graph v []) v v) :
    ((∃ e, validateMaxDepth graph = .error e) ↔
        ∃ c, c ⊆ Dict.keys graph ∧ Chain graph c ∧ maxDepth < c.length) ∧
      ∀ e, validateMaxDepth graph = .error e → e.code = .maxDepthExceeded ∧
        ∃ depth : Nat, e.details = [[("max_depth", .int maxDepth), ("actual_depth", .int depth)]] ∧
          (∃ c, c ⊆ Dict.keys graph ∧ Chain graph c ∧ c.length = depth) ∧
          ∀ c, c ⊆ Dict.keys graph → Chain graph c → c.length ≤ depth := by
  obtain ⟨l, hlisting, hl, hall⟩ := listing_of_detectCycles hkeys (getD_subset_keys hdeps)
    (detectCycles_of_acyclic hkeys hacyclic)
  have hlongest := longestChain_lt_iff hkeys hlisting hl hall (getD_subset_keys hdeps)
  have hsubset : ∀ c, Chain graph c → 1 < c.length → c ⊆ Dict.keys graph := by
    intro c hc hlength
    rcases c with _ | ⟨a, _ | ⟨b, rest⟩⟩
    · exact absurd hlength (by simp)
    · exact absurd hlength (by simp)
    · exact chain_subset_keys hdeps hc
  have hraises : (∃ e, validateMaxDepth graph = .error e) ↔ maxDepth ≤ longestChain graph := by
    unfold validateMaxDepth
    dsimp only
    split
    · rename_i hge
      exact iff_of_true ⟨_, rfl⟩ hge
    · rename_i hlt
      exact iff_of_false (fun ⟨_, he⟩ => nomatch he) hlt
  constructor
  · rw [hraises, ← not_lt, hlongest]
    constructor
    · intro hlong
      simp only [not_forall, not_le] at hlong
      obtain ⟨c, hc, hlength⟩ := hlong
      exact ⟨c, hsubset c hc ((show 1 < maxDepth by decide).trans hlength), hc, hlength⟩
    · rintro ⟨c, -, hc, hlength⟩ hshort
      exact absurd (hshort c hc) (not_le.mpr hlength)
  · intro e he
    have hdeep := hraises.mp ⟨e, he⟩
    have hlong : ¬ ∀ c, Chain graph c → c.length ≤ longestChain graph := by
      rw [← hlongest]
      exact lt_irrefl _
    simp only [not_forall, not_le] at hlong
    obtain ⟨c, hc, hlength⟩ := hlong
    have hbound := (hlongest (longestChain graph + 1)).mp (Nat.lt_succ_self _)
    have hmax : c.length = longestChain graph + 1 := le_antisymm (hbound c hc) hlength
    have hpos : 1 < c.length := (show 1 < maxDepth by decide).trans_le (hdeep.trans hlength.le)
    unfold validateMaxDepth at he
    rw [if_pos hdeep] at he
    cases he
    exact ⟨rfl, longestChain graph + 1, rfl, ⟨c, hsubset c hc hpos, hc, hmax⟩,
      fun c _ hc => hbound c hc⟩

/-- A chain of `MAX_DEPTH + 1` steps. -/
def tooDeep : Graph :=
  (List.range 21).map (fun i =>
    (toString i, if i = 0 then [] else [toString (i - 1), toString (i - 1)]))

theorem detectCycles_tooDeep : detectCycles tooDeep = .ok () := by rfl

theorem keys_tooDeep : (Dict.keys tooDeep).Nodup ∧
    ∀ item ∈ tooDeep, item.2 ⊆ Dict.keys tooDeep := by decide +kernel

/-- The depth is reported. -/
theorem validateMaxDepth_exact_tooDeep :
    ∃ e, validateMaxDepth tooDeep = .error e ∧
      e.details = [[("max_depth", .int 20), ("actual_depth", .int 21)]] ∧
      ∃ c, c ⊆ Dict.keys tooDeep ∧ Chain tooDeep c ∧ c.length = 21 := by
  have hacyclic : ∀ v, ¬ TransGen (fun d v => d ∈ Dict.getD tooDeep v []) v v := by
    obtain ⟨l, hlisting, -, hall⟩ := listing_of_detectCycles keys_tooDeep.1
      (getD_subset_keys keys_tooDeep.2) detectCycles_tooDeep
    refine hlisting.acyclic fun x hx => ?_
    obtain ⟨d, hd⟩ := List.exists_mem_of_ne_nil _ hx
    exact hall (mem_keys_of_mem_getD hd)
  have hexact := validateMaxDepth_exact keys_tooDeep.1 keys_tooDeep.2 hacyclic
  have herror : ∃ e, validateMaxDepth tooDeep = .error e ∧
      e.details = [[("max_depth", .int 20), ("actual_depth", .int 21)]] := ⟨_, by rfl, by rfl⟩
  obtain ⟨e, he, hdetails⟩ := herror
  obtain ⟨-, depth, hdepth, hlongest, -⟩ := hexact.2 e he
  rw [hdetails] at hdepth
  cases hdepth
  exact ⟨e, he, hdetails, hlongest⟩

/-! ## Templates -/

/-- The string is a leaf of the value. -/
inductive Leaf (text : String) : Json → Prop where
  | str : Leaf text (.str text)
  | item {items : List Json} {value : Json} : value ∈ items → Leaf text value →
      Leaf text (.arr items)
  | field {fields : List (String × Json)} {key : String} {value : Json} :
      (key, value) ∈ fields → Leaf text value → Leaf text (.obj fields)

/-- The string is a leaf that the check of the templates visits: outside of
objects it goes into a list, but not into a list in a list. -/
inductive Visited (text : String) : Json → Prop where
  | str : Visited text (.str text)
  | item {items : List Json} : .str text ∈ items → Visited text (.arr items)
  | field {fields : List (String × Json)} {key : String} {value : Json} :
      (key, value) ∈ fields → Visited text value → Visited text (.obj fields)

/-- The string is a leaf of an object or a list that is itself an item of a list. -/
inductive Buried (text : String) : Json → Prop where
  | inObject {items : List Json} {fields : List (String × Json)} : .obj fields ∈ items →
      Leaf text (.obj fields) → Buried text (.arr items)
  | inList {items items' : List Json} : .arr items' ∈ items → Leaf text (.arr items') →
      Buried text (.arr items)
  | field {fields : List (String × Json)} {key : String} {value : Json} :
      (key, value) ∈ fields → Buried text value → Buried text (.obj fields)

theorem leaf_of_buried {text : String} {value : Json} (h : Buried text value) :
    Leaf text value := by
  induction h with
  | inObject hmem hleaf => exact .item hmem hleaf
  | inList hmem hleaf => exact .item hmem hleaf
  | field hmem _ ih => exact .field hmem ih

/-- Every leaf is visited or buried. -/
theorem Leaf.visited_or_buried {text : String} {value : Json} (h : Leaf text value) :
    Visited text value ∨ Buried text value := by
  induction h with
  | str => exact .inl .str
  | field hmem _ ih => exact ih.imp (.field hmem) (.field hmem)
  | item hmem hleaf _ =>
    cases hleaf with
    | str => exact .inl (.item hmem)
    | item hinner hleaf => exact .inr (.inList hmem (.item hinner hleaf))
    | field hinner hleaf => exact .inr (.inObject hmem (.field hinner hleaf))

/-- The string is accepted by the Jinja2 parser, if it contains a template. -/
def Parses (libs : Libraries) (text : String) : Prop :=
  hasJinja2 text = true → ∃ parsed, libs.parseTemplate text = .ok parsed

section

variable {libs : Libraries} {stepId key : String}

theorem checkText_iff {value : String} : checkText libs stepId key value = .ok () ↔
    Parses libs value := by
  unfold checkText Parses parseExpression
  by_cases htemplate : hasJinja2 value = true
  · rw [if_pos htemplate]
    cases libs.parseTemplate value <;> simp [htemplate]
  · rw [if_neg htemplate]
    exact iff_of_true rfl fun h => absurd h htemplate

/-- The check of one item of a list: it looks at strings only. -/
theorem checkItem_iff {items : List Json} :
    items.forM (fun item => match item with
      | .str text => checkText libs stepId key text
      | _ => .ok ()) = .ok () ↔ ∀ text, Visited text (.arr items) → Parses libs text := by
  rw [forM_eq_ok_iff]
  constructor
  · rintro h text (_ | hmem)
    exact checkText_iff.mp (h _ hmem)
  · intro h item hitem
    split
    · exact checkText_iff.mpr (h _ (.item hitem))
    · rfl

mutual

/-- The check accepts a config exactly if it accepts the strings that it visits. -/
theorem validateConfigExpressions_iff : (fields : List (String × Json)) →
    (validateConfigExpressions libs stepId fields = .ok () ↔
      ∀ text, Visited text (.obj fields) → Parses libs text)
  | [] => by
    refine iff_of_true (by rw [validateConfigExpressions]) ?_
    rintro text (_ | _ | ⟨hmem, -⟩)
    cases hmem
  | (key, value) :: rest => by
    have hvalue := validateConfigValue_iff key value
    have hrest := validateConfigExpressions_iff rest
    rw [validateConfigExpressions]
    constructor
    · intro h text hvisited
      cases hcheck : validateConfigValue libs stepId key value with
      | error e =>
        rw [hcheck] at h
        cases h
      | ok _ =>
        rw [hcheck] at h
        cases hvisited with
        | field hmem hvisited =>
          rcases List.mem_cons.mp hmem with heq | hmem
          · cases heq
            exact hvalue.mp hcheck text hvisited
          · exact hrest.mp h text (.field hmem hvisited)
    · intro h
      have hfirst : validateConfigValue libs stepId key value = .ok () :=
        hvalue.mpr fun text hvisited => h text (.field List.mem_cons_self hvisited)
      rw [hfirst]
      refine hrest.mpr fun text hvisited => ?_
      cases hvisited with
      | field hmem hvisited => exact h text (.field (List.mem_cons_of_mem _ hmem) hvisited)

theorem validateConfigValue_iff (key : String) : (value : Json) →
    (validateConfigValue libs stepId key value = .ok () ↔
      ∀ text, Visited text value → Parses libs text)
  | .str value => by
    rw [validateConfigValue, checkText_iff]
    constructor
    · rintro h text ⟨⟩
      exact h
    · exact fun h => h value .str
  | .obj fields => validateConfigExpressions_iff fields
  | .arr items => checkItem_iff
  | .null => iff_of_true rfl fun _ h => nomatch h
  | .bool _ => iff_of_true rfl fun _ h => nomatch h
  | .int _ => iff_of_true rfl fun _ h => nomatch h
  | .float _ _ => iff_of_true rfl fun _ h => nomatch h

end

end

/-- The strings in the configs of an accepted definition are all valid templates
exactly if those are that stand in an object or a list inside of a list. -/
theorem templatesCovered_iff {libs : Libraries} {settings : Settings} {raw : RawDefinition}
    {parsed : WorkflowDefinition} (h : parseWorkflowDefinition libs settings raw = .ok parsed) :
    (∀ step ∈ parsed.steps, ∀ text, Leaf text (.obj step.config) → Parses libs text) ↔
      ∀ step ∈ parsed.steps, ∀ text, Buried text (.obj step.config) → Parses libs text := by
  obtain ⟨hwf, -⟩ := (parseWorkflowDefinition_iff libs settings raw parsed).mp h
  have hvalid := forM_eq_ok_iff.mp hwf.templates_valid
  refine forall₂_congr fun step hstep => ?_
  constructor
  · exact fun hall text hburied => hall text (leaf_of_buried hburied)
  · intro hall text hleaf
    rcases hleaf.visited_or_buried with hvisited | hburied
    · exact (validateConfigExpressions_iff step.config).mp (hvalid step hstep) text hvisited
    · exact hall text hburied

/-- A template whose print statement does not end. -/
def unclosed : String := "\x7b\x7b x"

/-- The plain functions, with a parser that knows of the template above. -/
def strictLibraries : Libraries :=
  { plainLibraries with
    parseTemplate := fun text =>
      if text = unclosed then
        .error "unexpected end of template, expected 'end of print statement'."
      else .ok () }

/-- A workflow with one step of this config. -/
def configuredDefinition (config : Dict String Json) : RawDefinition :=
  ⟨"workflow", "manual", [rawStep "only" .transform config []]⟩

/-- Of two items of a list one is a string, the other is an object. -/
theorem templatesCovered_iff_item :
    ∃ parsed, parseWorkflowDefinition strictLibraries {}
        (configuredDefinition [("items", .arr [.str "a", .obj [("url", .str "b")]])]) =
          .ok parsed ∧
      ((∀ step ∈ parsed.steps, ∀ text, Leaf text (.obj step.config) →
          Parses strictLibraries text) ↔
        ∀ step ∈ parsed.steps, ∀ text, Buried text (.obj step.config) →
          Parses strictLibraries text) := by
  have hparsed : ∃ parsed, parseWorkflowDefinition strictLibraries {}
      (configuredDefinition [("items", .arr [.str "a", .obj [("url", .str "b")]])]) =
        .ok parsed := ⟨_, by rfl⟩
  obtain ⟨parsed, hparsed⟩ := hparsed
  exact ⟨parsed, hparsed, templatesCovered_iff hparsed⟩

/-- An object in a list is not looked at: the definition is accepted with a
string that is no template. -/
theorem not_templatesCovered :
    ¬ ∀ libs settings raw parsed, parseWorkflowDefinition libs settings raw = .ok parsed →
      ∀ step ∈ parsed.steps, ∀ text, Leaf text (.obj step.config) → Parses libs text := by
  intro hall
  let config : Dict String Json := [("items", .arr [.obj [("url", .str unclosed)]])]
  have hparsed : parseWorkflowDefinition strictLibraries {} (configuredDefinition config) =
      .ok ⟨"workflow", "manual", [plainStep "only" .transform config [] (by decide)],
        [("only", [])]⟩ := by rfl
  have hparses := hall _ _ _ _ hparsed _ (List.mem_singleton_self _) unclosed
    (.field (List.mem_singleton_self _) (.item (List.mem_singleton_self _)
      (.field (List.mem_singleton_self _) .str)))
  obtain ⟨_, hunit⟩ := hparses (by decide)
  cases hunit

end WorkflowEngine
